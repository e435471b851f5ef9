import SupernoteModule.Codegen.SuspendCall
import SupernoteModule.Proof.SessionOperation

/-!
# A suspend call runs its closure, settles its Promise and cancels its job at most once

The table entry, the two hooks and the Promise are each in one place at a time. Before the operation
is accepted nothing has happened; from then on the invariant says where each of them is, for the
points that the executor, the worker, the completions and the session's calls have reached.
-/

namespace SupernoteModule.Codegen.SuspendCall

open SupernoteModule.Lib SupernoteModule.Runtime SupernoteModule.Spec Function

/-- The executor has not submitted the task. -/
def Executor.Early : Executor → Prop
  | .accepting | .refused | .continuing | .registering | .hooking | .discarding | .submitting =>
      True
  | .working _ | .refusing | .returned => False

/-- The executor holds an operation without a hook. -/
def Executor.Unhooked : Executor → Prop
  | .continuing | .registering | .hooking => True
  | .accepting | .refused | .discarding | .submitting | .working _ | .refusing | .returned => False

/-- The call has taken the closure and is running it. -/
def Completion.Runs : Completion → Prop
  | .checking | .decoding | .locking | .scheduling => True
  | .absent | .entered | .returned => False

/-- The worker is running the hook it was told to run at once. -/
def Worker.RunsHook : Worker → Prop
  | .discarding | .cancelling => True
  | .absent | .queued | .popped | .started | .checking | .entering | .launching | .launched
  | .returned => False

/-- The worker has the task and has not reached the second hook. -/
def Worker.Ahead : Worker → Prop
  | .queued | .popped | .started | .checking | .entering | .launching | .launched => True
  | .absent | .discarding | .cancelling | .returned => False

/-- How often the closure was run, the second hook was set, the job was asked to cancel and the
Promise was settled, and how many outcomes the operation has had. -/
structure Tally where
  closures : Nat
  seconds : Nat
  asks : Nat
  settlements : Nat
  outcomes : Nat

def tallyOf (operation : Nat) (history : List Event) : Tally where
  closures := history.count .closureRan
  seconds := history.count .secondHook
  asks := history.count .jobAsked
  settlements := (settlementsOf history).length
  outcomes := (FeatureSession.outcomesOf operation (sessionOf history)).length

abbrev Session := FeatureSession.State Bool CancelHook

/-- The hook is installed on the operation. -/
def Installed (operation : Nat) (session : Session) (hook : CancelHook) : Prop :=
  ∃ winner, session.held operation = some (winner, some hook)

/-- The hook is neither installed on the operation nor taken from it. -/
def Nowhere (operation : Nat) (session : Session) (hook : CancelHook) : Prop :=
  ¬ Installed operation session hook ∧ ∀ call, session.stages operation call ≠ .runs hook

def Cancelled (operation : Nat) (session : Session) : Prop :=
  ∃ winner hook, session.held operation = some (winner, hook) ∧ winner.isCancellation = true

def Completed (operation : Nat) (session : Session) : Prop :=
  ∃ hook, session.held operation = some (.completing, hook)

/-- Where the second hook is, after that many calls that set it and that many requests to the job.
-/
inductive JobFate (operation : Nat) (worker : Worker) (session : Session) (seconds asks : Nat) :
    Prop where
  | unset : seconds = 0 → asks = 0 → ¬ worker.RunsHook →
      Nowhere operation session .discardAndCancel → JobFate operation worker session seconds asks
  | stored : asks = 0 → worker = .returned → Installed operation session .discardAndCancel →
      (∀ call, session.stages operation call ≠ .runs .discardAndCancel) →
      JobFate operation worker session seconds asks
  | taken (call : Nat) : asks = 0 → worker = .returned →
      ¬ Installed operation session .discardAndCancel →
      session.stages operation call = .runs .discardAndCancel →
      JobFate operation worker session seconds asks
  | now : asks = 0 → worker.RunsHook → Nowhere operation session .discardAndCancel →
      Cancelled operation session → JobFate operation worker session seconds asks
  | asked : asks = 1 → worker = .returned → Nowhere operation session .discardAndCancel →
      Cancelled operation session → JobFate operation worker session seconds asks
  | dropped : asks = 0 → worker = .returned → Nowhere operation session .discardAndCancel →
      Completed operation session → JobFate operation worker session seconds asks

/-- Nothing was submitted, launched or completed. -/
def Idle (worker : Worker) (launched : Bool) (completions : Nat → Completion) : Prop :=
  worker = .absent ∧ launched = false ∧ ∀ call, completions call = .absent

/-- What holds while the executor has no operation. -/
structure Before (state : State) (history : List Event) : Prop where
  operation : state.operation = none
  executor : state.executor = .accepting ∨ state.executor = .refused ∨ state.executor = .returned
  idle : Idle state.worker state.launched state.completions
  completion : state.completion = false
  discarded : state.discarded = false
  rejection : state.rejection = false
  silent : .closureRan ∉ history ∧ .secondHook ∉ history ∧ .jobAsked ∉ history
  settled : (settlementsOf history).length ≤ 1
  unsettled : state.executor ≠ .returned → settlementsOf history = []

/-- What holds once the executor has accepted the operation. -/
structure Own (operation : Nat) (state : State) (tally : Tally) : Prop where
  holds : state.operation = some operation
  accepted : state.executor ≠ .accepting ∧ state.executor ≠ .refused
  known : (state.session.held operation).isSome
  once : tally.closures ≤ 1
  spent : 0 < tally.closures → state.completion = false ∧ ¬ state.executor.Early
  idle : state.executor.Early → Idle state.worker state.launched state.completions
  running : ∀ call, (state.completions call).Runs → 0 < tally.closures
  followed : ∀ call, state.session.stages operation call = .follows → 0 < tally.closures
  completed : Completed operation state.session → 0 < tally.closures
  unhooked : state.executor.Unhooked →
    (∃ winner, state.session.held operation = some (winner, none)) ∧
    (∀ call hook, state.session.stages operation call ≠ .runs hook) ∧ state.discarded = false
  stored : ∀ winner hook, state.session.held operation = some (winner, some hook) →
    winner = .pending ∨ ∃ call, state.session.stages operation call = .willTake
  covered : state.completion = true → state.executor = .hooking ∨ state.executor = .discarding ∨
    (∃ hook, Installed operation state.session hook) ∨
    (state.discarded = false ∧ ∃ call hook, state.session.stages operation call = .runs hook)
  flushed : state.discarded = true → state.completion = false
  job : JobFate operation state.worker state.session tally.seconds tally.asks
  settled : tally.settlements + state.rejection.toNat ≤ tally.outcomes

/-- What every run of one suspend call keeps true. -/
structure Inv (state : State) (history : List Event) : Prop where
  reaches : (FeatureSession.machine Bool CancelHook).Reaches state.session (sessionOf history)
  phase : Before state history ∨ ∃ operation, Own operation state (tallyOf operation history)

variable {state : State} {history : List Event} {tally : Tally} {call operation : Nat}

/-! ### Histories -/

theorem sessionOf_append (events : List Event) :
    sessionOf (history ++ events) = sessionOf history ++ sessionOf events :=
  List.filterMap_append

theorem settlementsOf_append (events : List Event) :
    settlementsOf (history ++ events) = settlementsOf history ++ settlementsOf events :=
  List.filterMap_append

theorem sessionOf_map_session (events : List FeatureSession.Event) :
    sessionOf (events.map .session) = events := by
  rw [sessionOf, List.filterMap_map]
  exact List.filterMap_some

theorem settlementsOf_map_session (events : List FeatureSession.Event) :
    settlementsOf (events.map .session) = [] := by
  refine List.filterMap_eq_nil_iff.mpr ?_
  intro event hevent
  obtain ⟨_, _, rfl⟩ := List.mem_map.mp hevent
  rfl

theorem sessionOf_map_settled (settlements : List Settlement) :
    sessionOf (settlements.map .settled) = [] := by
  refine List.filterMap_eq_nil_iff.mpr ?_
  intro event hevent
  obtain ⟨_, _, rfl⟩ := List.mem_map.mp hevent
  rfl

theorem settlementsOf_map_settled (settlements : List Settlement) :
    settlementsOf (settlements.map .settled) = settlements := by
  rw [settlementsOf, List.filterMap_map]
  exact List.filterMap_some

/-- What the session does is not an event of the call itself. -/
theorem count_append_session {event : Event} (hevent : event.session? = none)
    (events : List FeatureSession.Event) :
    (history ++ events.map Event.session).count event = history.count event := by
  have hmem : event ∉ events.map Event.session := by
    intro hmem
    obtain ⟨_, _, rfl⟩ := List.mem_map.mp hmem
    cases hevent
  rw [List.count_append, List.count_eq_zero.mpr hmem, Nat.add_zero]

theorem count_append_settled {event : Event} (hevent : event.settlement? = none)
    (settlements : List Settlement) :
    (history ++ settlements.map Event.settled).count event = history.count event := by
  have hmem : event ∉ settlements.map Event.settled := by
    intro hmem
    obtain ⟨_, _, rfl⟩ := List.mem_map.mp hmem
    cases hevent
  rw [List.count_append, List.count_eq_zero.mpr hmem, Nat.add_zero]

theorem sessionOf_append_singleton {event : Event} (hevent : event.session? = none) :
    sessionOf (history ++ [event]) = sessionOf history := by
  rw [sessionOf_append, sessionOf, sessionOf, List.filterMap_cons_none hevent]
  exact List.append_nil _

theorem settlementsOf_append_singleton {event : Event} (hevent : event.settlement? = none) :
    settlementsOf (history ++ [event]) = settlementsOf history := by
  rw [settlementsOf_append, settlementsOf, settlementsOf, List.filterMap_cons_none hevent]
  exact List.append_nil _

theorem tallyOf_session (events : List FeatureSession.Event) :
    tallyOf operation (history ++ events.map .session) =
      { tallyOf operation history with outcomes :=
          (FeatureSession.outcomesOf operation (sessionOf history ++ events)).length } := by
  rw [tallyOf, count_append_session rfl, count_append_session rfl, count_append_session rfl,
    settlementsOf_append, settlementsOf_map_session, sessionOf_append, sessionOf_map_session,
    List.append_nil]
  rfl

theorem tallyOf_settled (settlements : List Settlement) :
    tallyOf operation (history ++ settlements.map .settled) =
      { tallyOf operation history with
          settlements := (tallyOf operation history).settlements + settlements.length } := by
  rw [tallyOf, count_append_settled rfl, count_append_settled rfl, count_append_settled rfl,
    settlementsOf_append, settlementsOf_map_settled, sessionOf_append, sessionOf_map_settled,
    List.append_nil, List.length_append]
  rfl

theorem tallyOf_closureRan :
    tallyOf operation (history ++ [.closureRan]) =
      { tallyOf operation history with closures := (tallyOf operation history).closures + 1 } := by
  rw [tallyOf, sessionOf_append_singleton rfl, settlementsOf_append_singleton rfl,
    List.count_append, List.count_append, List.count_append]
  rfl

theorem tallyOf_secondHook :
    tallyOf operation (history ++ [.secondHook]) =
      { tallyOf operation history with seconds := (tallyOf operation history).seconds + 1 } := by
  rw [tallyOf, sessionOf_append_singleton rfl, settlementsOf_append_singleton rfl,
    List.count_append, List.count_append, List.count_append]
  rfl

theorem tallyOf_jobAsked :
    tallyOf operation (history ++ [.jobAsked]) =
      { tallyOf operation history with asks := (tallyOf operation history).asks + 1 } := by
  rw [tallyOf, sessionOf_append_singleton rfl, settlementsOf_append_singleton rfl,
    List.count_append, List.count_append, List.count_append]
  rfl

theorem length_outcomesOf_le (events : List FeatureSession.Event) :
    (tallyOf operation history).outcomes ≤
      (FeatureSession.outcomesOf operation (sessionOf history ++ events)).length := by
  rw [FeatureSession.outcomesOf, List.filterMap_append, List.length_append]
  exact Nat.le_add_right _ _

/-! ### Steps of the session -/

theorem observed_step {session : Session} {label : SessionLabel}
    (hknown : operation ≠ session.nextId) (hforeign : Foreign (some operation) label)
    (henabled : FeatureSession.enabled label session) :
    FeatureSession.Observed operation session
      ((FeatureSession.machine Bool CancelHook).step label session).1 := by
  cases label with
  | accept rejection internalCompletion =>
      change FeatureSession.Observed operation session (session.accept rejection internalCompletion)
      rw [FeatureSession.State.accept]
      split
      · exact FeatureSession.observed_emplace _ _ hknown
      · exact .of_eq rfl rfl
  | acceptFactory rejection =>
      change FeatureSession.Observed operation session (session.acceptFactory rejection)
      unfold FeatureSession.State.acceptFactory
      split
      · cases rejection
        · exact .of_eq rfl rfl
        · exact FeatureSession.observed_emplace _ _ hknown
      · exact .of_eq rfl rfl
  | invalidate => exact .of_eq rfl rfl
  | setWork other work | setCancelHook other hook =>
      refine .of_eq (FeatureSession.held_modify_of_ne ?_) rfl
      rintro rfl
      exact hforeign rfl
  | claimInternalCompletion other =>
      refine FeatureSession.observed_claimInternalCompletion ?_
      rintro rfl
      exact hforeign rfl
  | scheduleCompletion call other =>
      have hne : other ≠ operation := by
        rintro rfl
        exact hforeign rfl
      refine FeatureSession.observed_setCall (.inl ?_)
      rw [henabled.1]
      split
      · exact if_neg hne
      · rfl
  | post call other delivered =>
      refine FeatureSession.observed_setCall ?_
      rw [show session.calls call = _ from henabled]
      cases delivered
      · exact FeatureSession.lapses_follows other
      · exact .refl _
  | callback call other alive =>
      refine FeatureSession.observed_setCall ?_
      rw [show session.calls call = _ from henabled]
      split
      · exact .refl _
      · exact FeatureSession.lapses_follows other
  | claimCallback call other => exact FeatureSession.observed_claimCallback henabled
  | takeRejectionCallback call other | takeInternalCompletion call runtimeTeardown other
  | takeRejection call runtimeTeardown other =>
      refine FeatureSession.observed_of_held ?_ rfl (.inl ?_)
      · exact FeatureSession.held_modify (fun _ => rfl) fun _ => rfl
      · rw [show session.calls call = _ from henabled]
        rfl
  | close call runtimeTeardown =>
      change FeatureSession.Observed operation session (session.close call runtimeTeardown)
      rw [FeatureSession.State.close]
      have haway : (session.calls call).stage operation = .away := by
        rw [show session.calls call = _ from henabled]
        rfl
      split
      · exact FeatureSession.observed_of_held rfl rfl (.inl haway.symm)
      · exact FeatureSession.observed_setCall (.inl haway.symm)
  | pop call runtimeTeardown other =>
      refine FeatureSession.observed_of_held rfl rfl (.inl ?_)
      rw [henabled.1]
      rfl
  | claim call runtimeTeardown other => exact FeatureSession.observed_claim henabled
  | requestCancel call runtimeTeardown other =>
      refine FeatureSession.observed_of_held ?_ rfl (.inl ?_)
      · exact FeatureSession.held_modify (fun _ => rfl) fun _ => rfl
      · rw [show session.calls call = _ from henabled]
        rfl
  | takeHook call runtimeTeardown other =>
      have hne : other ≠ operation := by
        rintro rfl
        exact hforeign rfl
      refine FeatureSession.observed_of_held (FeatureSession.held_modify_of_ne hne.symm) rfl
        (.inl ?_)
      rw [show session.calls call = _ from henabled]
      cases (session.operations other).bind (·.cancelHook)
      · exact (if_neg hne).symm
      · exact (if_neg hne).trans (if_neg hne).symm
  | runHook call runtimeTeardown other hook =>
      have hne : other ≠ operation := by
        rintro rfl
        exact hforeign rfl
      refine FeatureSession.observed_setCall (.inl ?_)
      rw [show session.calls call = _ from henabled]
      exact (if_neg hne).symm
  | runCompletion call other | handRejection call runtimeTeardown other rejection =>
      refine FeatureSession.observed_setCall (.inl ?_)
      rw [show session.calls call = _ from henabled]
      rfl
  | drain call runtimeTeardown =>
      refine FeatureSession.observed_setCall (.inl ?_)
      rw [henabled.1]
      rfl
  | deactivate call =>
      refine FeatureSession.observed_of_held rfl rfl (.inl ?_)
      rw [show session.calls call = _ from henabled]
      rfl

/-! ### The second hook while the session moves -/

theorem Nowhere.observed {session next : Session} {hook : CancelHook}
    (hnowhere : Nowhere operation session hook)
    (hobserved : FeatureSession.Observed operation session next) : Nowhere operation next hook := by
  refine ⟨?_, fun call h => hnowhere.2 call ((hobserved.runs_iff call hook).mp h)⟩
  rintro ⟨winner, hinstalled⟩
  cases hobserved with
  | kept hheld _ => exact hnowhere.1 ⟨winner, hheld.symm.trans hinstalled⟩
  | completed _ _ _ _ hnext _ =>
      rw [hnext] at hinstalled
      cases hinstalled
  | cancelled _ _ _ _ hpending hnext _ _ =>
      rw [hnext] at hinstalled
      cases hinstalled
      exact hnowhere.1 ⟨_, hpending⟩

theorem Cancelled.not_pending {session : Session} (hcancelled : Cancelled operation session)
    (hook : Option CancelHook) : session.held operation ≠ some (.pending, hook) := by
  obtain ⟨winner, _, hheld, hwinner⟩ := hcancelled
  intro hpending
  rw [hheld] at hpending
  cases hpending
  cases hwinner

theorem Cancelled.observed {session next : Session} (hcancelled : Cancelled operation session)
    (hobserved : FeatureSession.Observed operation session next) : Cancelled operation next := by
  cases hobserved with
  | kept hheld _ =>
      obtain ⟨winner, hook, h, hwinner⟩ := hcancelled
      exact ⟨winner, hook, hheld.trans h, hwinner⟩
  | completed _ hook _ hpending _ _ | cancelled _ hook _ _ hpending _ _ _ =>
      exact absurd hpending (hcancelled.not_pending hook)

theorem JobFate.observed {worker : Worker} {session next : Session} {seconds asks : Nat}
    (hfate : JobFate operation worker session seconds asks)
    {events : List FeatureSession.Event}
    (hreach : (FeatureSession.machine Bool CancelHook).Reaches session events)
    (hobserved : FeatureSession.Observed operation session next) :
    JobFate operation worker next seconds asks := by
  cases hfate with
  | unset hseconds hnone hworker hnowhere =>
      exact .unset hseconds hnone hworker (hnowhere.observed hobserved)
  | stored hnone hworker hinstalled hruns =>
      obtain ⟨winner, hheld⟩ := hinstalled
      have hruns' : ∀ call, next.stages operation call ≠ .runs .discardAndCancel :=
        fun call h => hruns call ((hobserved.runs_iff call _).mp h)
      cases hobserved with
      | kept hkept _ => exact .stored hnone hworker ⟨winner, hkept.trans hheld⟩ hruns'
      | completed _ _ _ _ hnext _ =>
          refine .dropped hnone hworker ⟨?_, hruns'⟩ ⟨none, hnext⟩
          rintro ⟨_, hinstalled⟩
          rw [hnext] at hinstalled
          cases hinstalled
      | cancelled _ hook winner' _ hpending hnext _ _ =>
          rw [hheld] at hpending
          cases hpending
          exact .stored hnone hworker ⟨winner', hnext⟩ hruns'
  | taken call hnone hworker hinstalled hruns =>
      have hcancelled : Cancelled operation session := by
        refine FeatureSession.held_of_owns hreach (?_ : (session.stages operation call).Owns)
        rw [hruns]
        exact trivial
      refine .taken call hnone hworker ?_ ((hobserved.runs_iff call _).mpr hruns)
      rintro ⟨winner, hinstalled'⟩
      cases hobserved with
      | kept hkept _ => exact hinstalled ⟨winner, hkept.symm.trans hinstalled'⟩
      | completed _ hook _ hpending _ _ | cancelled _ hook _ _ hpending _ _ _ =>
          exact hcancelled.not_pending hook hpending
  | now hnone hworker hnowhere hcancelled =>
      exact .now hnone hworker (hnowhere.observed hobserved) (hcancelled.observed hobserved)
  | asked hone hworker hnowhere hcancelled =>
      exact .asked hone hworker (hnowhere.observed hobserved) (hcancelled.observed hobserved)
  | dropped hnone hworker hnowhere hcompleted =>
      obtain ⟨hook, hheld⟩ := hcompleted
      refine .dropped hnone hworker (hnowhere.observed hobserved) ?_
      cases hobserved with
      | kept hkept _ => exact ⟨hook, hkept.trans hheld⟩
      | completed _ _ _ hpending _ _ | cancelled _ _ _ _ hpending _ _ _ =>
          rw [hheld] at hpending
          cases hpending

/-- The rest of what the call keeps while the session moves. -/
theorem Own.observed (hown : Own operation state tally) {events : List FeatureSession.Event}
    (hreach : (FeatureSession.machine Bool CancelHook).Reaches state.session events)
    {session : Session} (hobserved : FeatureSession.Observed operation state.session session) :
    Own operation { state with session := session } tally := by
  refine { hown with
    known := ?_
    followed := fun call h => hown.followed call (hobserved.follows h)
    completed := fun h => ?_
    unhooked := fun h => ?_
    stored := fun winner hook h => ?_
    covered := fun h => ?_
    job := hown.job.observed hreach hobserved }
  · cases hobserved with
    | kept hkept _ =>
        rw [hkept]
        exact hown.known
    | completed _ _ _ _ hnext _ | cancelled _ _ _ _ _ hnext _ _ =>
        rw [hnext]
        rfl
  · obtain ⟨hook, hheld⟩ := h
    cases hobserved with
    | kept hkept _ => exact hown.completed ⟨hook, hkept.symm.trans hheld⟩
    | completed call _ hfollows _ _ _ => exact hown.followed call hfollows
    | cancelled _ _ _ _ _ hnext hwinner _ =>
        rw [hnext] at hheld
        cases hheld
        cases hwinner
  · obtain ⟨⟨winner, hheld⟩, hruns, hdiscarded⟩ := hown.unhooked h
    refine ⟨?_, fun call hook h => hruns call hook ((hobserved.runs_iff call hook).mp h),
      hdiscarded⟩
    cases hobserved with
    | kept hkept _ => exact ⟨winner, hkept.trans hheld⟩
    | completed _ _ _ _ hnext _ => exact ⟨_, hnext⟩
    | cancelled _ _ winner' _ hpending hnext _ _ =>
        rw [hheld] at hpending
        cases hpending
        exact ⟨winner', hnext⟩
  · have hobs := hobserved
    cases hobserved with
    | kept hkept _ =>
        refine (hown.stored winner hook (hkept.symm.trans h)).imp_right ?_
        rintro ⟨call, hcall⟩
        exact ⟨call, hobs.willTake hcall⟩
    | completed _ _ _ _ hnext _ =>
        rw [hnext] at h
        cases h
    | cancelled call _ _ _ _ _ _ hstages =>
        refine .inr ⟨call, ?_⟩
        rw [hstages, update_self]
  · have hobs := hobserved
    rcases hown.covered h with h | h | ⟨hook, winner, hheld⟩ | ⟨hdiscarded, call, hook, hruns⟩
    · exact .inl h
    · exact .inr (.inl h)
    · refine .inr (.inr (.inl ⟨hook, ?_⟩))
      cases hobserved with
      | kept hkept _ => exact ⟨winner, hkept.trans hheld⟩
      | completed call _ hfollows _ _ _ =>
          have hfalse := (hown.spent (hown.followed call hfollows)).1
          rw [show state.completion = true from h] at hfalse
          cases hfalse
      | cancelled _ _ winner' _ hpending hnext _ _ =>
          rw [hheld] at hpending
          cases hpending
          exact ⟨winner', hnext⟩
    · exact .inr (.inr (.inr ⟨hdiscarded, call, hook, (hobs.runs_iff call hook).mpr hruns⟩))

/-! ### The executor -/

theorem Own.not_early_of_worker (hown : Own operation state tally)
    (hworker : state.worker ≠ .absent) : ¬ state.executor.Early :=
  fun hearly => hworker (hown.idle hearly).1

theorem Own.not_early_of_completion (hown : Own operation state tally) {point : Completion}
    (hcompletion : state.completions call = point) (hpoint : point ≠ .absent) :
    ¬ state.executor.Early :=
  fun hearly => hpoint (hcompletion.symm.trans ((hown.idle hearly).2.2 call))

theorem Own.closures_of_early (hown : Own operation state tally)
    (hearly : state.executor.Early) : tally.closures = 0 :=
  Nat.eq_zero_of_not_pos fun h => (hown.spent h).2 hearly

/-- Where a registered completion is looked after once the first hook has been set. -/
theorem Own.covered_of_hooked (hown : Own operation state tally)
    (hhooking : state.executor ≠ .hooking) (hdiscarding : state.executor ≠ .discarding)
    (hcompletion : state.completion = true) :
    (∃ hook, Installed operation state.session hook) ∨
      (state.discarded = false ∧ ∃ call hook, state.session.stages operation call = .runs hook) :=
  ((hown.covered hcompletion).resolve_left hhooking).resolve_left hdiscarding

/-- The executor moves on without going back to where nothing is hooked or submitted. -/
theorem Own.advance (hown : Own operation state tally) {point : Executor}
    (hpoint : point ≠ .accepting ∧ point ≠ .refused) (hearly : point.Early → state.executor.Early)
    (hunhooked : point.Unhooked → state.executor.Unhooked)
    (hhooking : state.executor ≠ .hooking) (hdiscarding : state.executor ≠ .discarding) :
    Own operation { state with executor := point } tally :=
  { hown with
    accepted := hpoint
    spent := fun h => (hown.spent h).imp_right fun hnot hpoint => hnot (hearly hpoint)
    idle := fun h => hown.idle (hearly h)
    unhooked := fun h => hown.unhooked (hunhooked h)
    covered := fun h => .inr (.inr (hown.covered_of_hooked hhooking hdiscarding h)) }

theorem Own.registerContinuation (hown : Own operation state tally)
    (hexecutor : state.executor = .continuing) :
    Own operation { state with continuation := true, executor := .registering } tally := by
  have hnext : Own operation { state with executor := .registering } tally := by
    refine hown.advance ⟨nofun, nofun⟩ ?_ ?_ ?_ ?_ <;> rw [hexecutor]
    · exact fun _ => trivial
    · exact fun _ => trivial
    · nofun
    · nofun
  exact { hnext with }

theorem Own.registerCompletion (hown : Own operation state tally)
    (hexecutor : state.executor = .registering) :
    Own operation { state with completion := true, executor := .hooking } tally := by
  have hearly : state.executor.Early := by rw [hexecutor]; exact trivial
  have hunhooked := hown.unhooked (by rw [hexecutor]; exact trivial)
  have hnone := hown.closures_of_early hearly
  exact { hown with
    accepted := ⟨nofun, nofun⟩
    spent := fun h => absurd h (by rw [hnone]; exact Nat.lt_irrefl 0)
    idle := fun _ => hown.idle hearly
    unhooked := fun _ => hunhooked
    covered := fun _ => .inl rfl
    flushed := fun h => by
      rw [show state.discarded = true from h] at hunhooked
      cases hunhooked.2.2 }

theorem Own.discardFirst (hown : Own operation state tally)
    (hexecutor : state.executor = .discarding) :
    Own operation { state with completion := false, executor := .submitting } tally := by
  have hearly : state.executor.Early := by rw [hexecutor]; exact trivial
  exact { hown with
    accepted := ⟨nofun, nofun⟩
    spent := fun h => absurd hearly (hown.spent h).2
    idle := fun _ => hown.idle hearly
    unhooked := fun h => absurd h id
    covered := nofun
    flushed := fun _ => rfl }

theorem Own.submit (hown : Own operation state tally) (hexecutor : state.executor = .submitting)
    (accepted : Bool) : Own operation (state.submit accepted) tally := by
  have hearly : state.executor.Early := by rw [hexecutor]; exact trivial
  have hworker := (hown.idle hearly).1
  have hnext : Own operation { state with executor := .working accepted } tally := by
    refine hown.advance ⟨nofun, nofun⟩ (fun h => absurd h id) (fun h => absurd h id) ?_ ?_ <;>
      rw [hexecutor] <;> nofun
  have hjob := hown.job
  rw [hworker] at hjob
  refine { hnext with idle := fun h => absurd h id, job := ?_ }
  have hfree : ¬ (if accepted then Worker.queued else .absent).RunsHook := by
    cases accepted <;> exact id
  cases hjob with
  | unset hseconds hnone _ hnowhere => exact .unset hseconds hnone hfree hnowhere
  | now _ hruns _ _ => exact absurd hruns id
  | stored _ h _ _ | taken _ _ h _ _ | asked _ h _ _ | dropped _ h _ _ => cases h

theorem Own.refuse (hown : Own operation state tally) (hexecutor : state.executor = .refusing) :
    Own operation { state.setCompletion call .entered with executor := .returned } tally := by
  have hnext : Own operation { state with executor := .returned } tally := by
    refine hown.advance ⟨nofun, nofun⟩ (fun h => absurd h id) (fun h => absurd h id) ?_ ?_ <;>
      rw [hexecutor] <;> nofun
  exact { hnext with
    idle := fun h => absurd h id
    running := forall_update (p := fun _ (point : Completion) => point.Runs → _)
      (fun h => absurd h id) fun other _ => hown.running other }

/-! ### The worker -/

/-- The worker moves on before the second hook is set. -/
theorem Own.moveWorker (hown : Own operation state tally) {point : Worker}
    (hworker : state.worker.Ahead) (hpoint : ¬ point.RunsHook) :
    Own operation { state with worker := point } tally := by
  have hne : ∀ other : Worker, ¬ other.Ahead → state.worker ≠ other := by
    rintro other hother rfl
    exact hother hworker
  have hreturned := hne .returned id
  refine
    { hown with
      idle := fun h => absurd h (hown.not_early_of_worker (hne .absent id))
      job := ?_ }
  cases hown.job with
  | unset hseconds hnone _ hnowhere => exact .unset hseconds hnone hpoint hnowhere
  | now _ hruns _ _ =>
      cases hstate : state.worker <;> rw [hstate] at hworker hruns <;>
        first | exact absurd hworker id | exact absurd hruns id
  | stored _ h _ _ | taken _ _ h _ _ | asked _ h _ _ | dropped _ h _ _ => exact absurd h hreturned

theorem Own.launch (hown : Own operation state tally) (hworker : state.worker = .launching) :
    Own operation { state with launched := true, worker := .launched } tally := by
  have hnext : Own operation { state with worker := .launched } tally :=
    hown.moveWorker (by rw [hworker]; exact trivial) id
  have hearly := hown.not_early_of_worker (by rw [hworker]; nofun)
  exact { hnext with idle := fun h => absurd h hearly }

/-- A completion moves on; it is past the table only if the closure has run. -/
theorem Own.setCompletion (hown : Own operation state tally) {point : Completion}
    (hearly : ¬ state.executor.Early) (hpoint : point.Runs → 0 < tally.closures) :
    Own operation (state.setCompletion call point) tally :=
  { hown with
    idle := fun h => absurd h hearly
    running := forall_update (p := fun _ (point : Completion) => point.Runs → _)
      hpoint fun other _ => hown.running other }

theorem Own.discardSecond (hown : Own operation state tally)
    (hworker : state.worker = .discarding) :
    Own operation { state with completion := false, worker := .cancelling } tally := by
  have hearly := hown.not_early_of_worker (by rw [hworker]; nofun)
  have hjob := hown.job
  rw [hworker] at hjob
  refine { hown with
    spent := fun _ => ⟨rfl, hearly⟩
    idle := fun h => absurd h hearly
    covered := nofun
    flushed := fun _ => rfl
    job := ?_ }
  cases hjob with
  | unset _ _ hfree _ => exact absurd trivial hfree
  | now hnone _ hnowhere hcancelled => exact .now hnone trivial hnowhere hcancelled
  | stored _ h _ _ | taken _ _ h _ _ | asked _ h _ _ | dropped _ h _ _ => cases h

theorem Own.cancelSecond (hown : Own operation state tally)
    (hworker : state.worker = .cancelling) :
    Own operation { state with worker := .returned } { tally with asks := tally.asks + 1 } := by
  have hearly := hown.not_early_of_worker (by rw [hworker]; nofun)
  have hjob := hown.job
  rw [hworker] at hjob
  refine { hown with idle := fun h => absurd h hearly, job := ?_ }
  cases hjob with
  | unset _ _ hfree _ => exact absurd trivial hfree
  | now hnone _ hnowhere hcancelled =>
      exact .asked (congrArg (· + 1) hnone) rfl hnowhere hcancelled
  | stored _ h _ _ | taken _ _ h _ _ | asked _ h _ _ | dropped _ h _ _ => cases h

/-- The closure is run by the only call that can still find it. -/
theorem Own.runClosure (hown : Own operation state tally)
    (hcall : state.completions call = .entered) (hcompletion : state.completion = true) :
    Own operation { state.setCompletion call .checking with completion := false }
      { tally with closures := tally.closures + 1 } := by
  have hearly := hown.not_early_of_completion hcall nofun
  have hnone : tally.closures = 0 := by
    refine Nat.eq_zero_of_not_pos fun h => ?_
    rw [(hown.spent h).1] at hcompletion
    cases hcompletion
  have hpos : 0 < tally.closures + 1 := Nat.succ_pos _
  exact { hown with
    once := Nat.le_of_eq (congrArg (· + 1) hnone)
    spent := fun _ => ⟨rfl, hearly⟩
    idle := fun h => absurd h hearly
    running := fun _ _ => hpos
    followed := fun _ _ => hpos
    completed := fun _ => hpos
    covered := nofun
    flushed := fun _ => rfl }

/-! ### The hooks -/

theorem Executor.Unhooked.early {executor : Executor} (hexecutor : executor.Unhooked) :
    executor.Early := by
  cases executor <;> first | exact trivial | cases hexecutor

/-- Nothing is known about the second hook before the task is submitted. -/
theorem Own.nowhere_of_early (hown : Own operation state tally) (hearly : state.executor.Early) :
    tally.seconds = 0 ∧ tally.asks = 0 ∧ Nowhere operation state.session .discardAndCancel := by
  have hjob := hown.job
  rw [(hown.idle hearly).1] at hjob
  cases hjob with
  | unset hseconds hnone _ hnowhere => exact ⟨hseconds, hnone, hnowhere⟩
  | now _ hruns _ _ => exact absurd hruns id
  | stored _ h _ _ | taken _ _ h _ _ | asked _ h _ _ | dropped _ h _ _ => cases h

theorem not_completed_of_pending {session : Session} {hook : Option CancelHook}
    (hpending : session.held operation = some (.pending, hook)) :
    ¬ Completed operation session := by
  rintro ⟨_, hcompleted⟩
  rw [hpending] at hcompleted
  cases hcompleted

theorem stored_of_pending {session : Session} {hook : Option CancelHook}
    (hpending : session.held operation = some (.pending, hook)) {winner : OperationWinner}
    {stored : CancelHook} (hheld : session.held operation = some (winner, some stored)) :
    winner = .pending := by
  rw [hpending] at hheld
  cases hheld
  rfl

/-- The first hook is stored, or runs at once because the operation is already cancelled. -/
theorem Own.setFirstHook (hown : Own operation state tally) {events : List FeatureSession.Event}
    (hreach : (FeatureSession.machine Bool CancelHook).Reaches state.session events)
    (hexecutor : state.executor = .hooking) {session : Session} {now : Option CancelHook}
    (hinstallation : FeatureSession.Installation operation .discard state.session session now)
    (hstages : session.stages operation = state.session.stages operation) :
    Own operation { state with
      session := session
      executor := if now.isSome then .discarding else .submitting } tally := by
  have hearly : state.executor.Early := by rw [hexecutor]; exact trivial
  have hidle := hown.idle hearly
  have hspent : 0 < tally.closures → False := fun h => (hown.spent h).2 hearly
  cases hinstallation with
  | stored old hpending hnext =>
      obtain ⟨hseconds, hasks, hnowhere⟩ := hown.nowhere_of_early hearly
      have hfree : ¬ state.worker.RunsHook := by
        rw [hidle.1]
        exact id
      refine { hown with
        accepted := ⟨nofun, nofun⟩
        known := by rw [hnext]; rfl
        spent := fun h => absurd h hspent
        idle := fun _ => hidle
        followed := by rw [hstages]; exact hown.followed
        completed := fun h => absurd h (not_completed_of_pending hnext)
        unhooked := fun h => absurd h id
        stored := fun _ _ h => .inl (stored_of_pending hnext h)
        covered := fun _ => .inr (.inr (.inl ⟨.discard, .pending, hnext⟩))
        job := .unset hseconds hasks hfree ⟨?_, ?_⟩ }
      · rintro ⟨_, hinstalled⟩
        rw [hnext] at hinstalled
        cases hinstalled
      · rw [hstages]
        exact hnowhere.2
  | now winner old hheld hcancel hsame =>
      have hmoved := hown.observed hreach (.kept hsame fun call => .inl (congrFun hstages call))
      exact { hmoved with
        accepted := ⟨nofun, nofun⟩
        spent := fun h => absurd h hspent
        idle := fun _ => hidle
        unhooked := fun h => absurd h id
        covered := fun _ => .inr (.inl rfl) }
  | dropped old hheld _ => exact absurd (hown.completed ⟨old, hheld⟩) hspent

/-- The second hook replaces the first one, runs at once, or is dropped. -/
theorem Own.returnJob (hown : Own operation state tally) {events : List FeatureSession.Event}
    (hreach : (FeatureSession.machine Bool CancelHook).Reaches state.session events)
    (hworker : state.worker = .launched) {session : Session} {now : Option CancelHook}
    (hinstallation :
      FeatureSession.Installation operation .discardAndCancel state.session session now)
    (hstages : session.stages operation = state.session.stages operation) :
    Own operation { state with
      session := session
      worker := if now.isSome then .discarding else .returned }
      { tally with seconds := tally.seconds + 1 } := by
  have hearly := hown.not_early_of_worker (by rw [hworker]; nofun)
  have hunset : ∀ {session : Session},
      JobFate operation state.worker session tally.seconds tally.asks →
        tally.asks = 0 ∧ Nowhere operation session .discardAndCancel := by
    intro session hjob
    rw [hworker] at hjob
    cases hjob with
    | unset _ hnone _ hnowhere => exact ⟨hnone, hnowhere⟩
    | now _ hruns _ _ => exact absurd hruns id
    | stored _ h _ _ | taken _ _ h _ _ | asked _ h _ _ | dropped _ h _ _ => cases h
  cases hinstallation with
  | stored old hpending hnext =>
      obtain ⟨hasks, hnowhere⟩ := hunset hown.job
      exact { hown with
        known := by rw [hnext]; rfl
        idle := fun h => absurd h hearly
        followed := by rw [hstages]; exact hown.followed
        completed := fun h => absurd h (not_completed_of_pending hnext)
        unhooked := fun h => absurd h.early hearly
        stored := fun _ _ h => .inl (stored_of_pending hnext h)
        covered := fun _ => .inr (.inr (.inl ⟨.discardAndCancel, .pending, hnext⟩))
        job := .stored hasks rfl ⟨.pending, hnext⟩ (by rw [hstages]; exact hnowhere.2) }
  | now winner old hheld hcancel hsame =>
      have hmoved := hown.observed hreach (.kept hsame fun call => .inl (congrFun hstages call))
      obtain ⟨hasks, hnowhere⟩ := hunset hmoved.job
      exact { hmoved with
        idle := fun h => absurd h hearly
        job := .now hasks trivial hnowhere ⟨winner, old, hsame.trans hheld, hcancel⟩ }
  | dropped old hheld hsame =>
      have hmoved := hown.observed hreach (.kept hsame fun call => .inl (congrFun hstages call))
      obtain ⟨hasks, hnowhere⟩ := hunset hmoved.job
      exact { hmoved with
        idle := fun h => absurd h hearly
        job := .dropped hasks rfl hnowhere ⟨old, hsame.trans hheld⟩ }

/-- While one call is about to take the hook, no call runs one. -/
theorem not_runs_of_willTake {events : List FeatureSession.Event} {session : Session}
    (hreach : (FeatureSession.machine Bool CancelHook).Reaches session events)
    (hcall : session.stages operation call = .willTake) (other : Nat) (taken : CancelHook) :
    session.stages operation other ≠ .runs taken := by
  intro hruns
  have hone := FeatureSession.stages_atMostOne hreach operation
  have hsame : other = call := by
    refine hone (?_ : (session.stages operation other).Owns) ?_
    · rw [hruns]
      exact trivial
    · rw [hcall]
      exact trivial
  rw [hsame, hcall] at hruns
  cases hruns

/-- The hook that has been taken is the only one that runs. -/
theorem runs_of_taken {session after : Session} {hook : Option CancelHook}
    (hnotRuns : ∀ other taken, session.stages operation other ≠ .runs taken)
    (hstages : after.stages operation =
      update (session.stages operation) call (hook.elim .away .runs))
    {other : Nat} {taken : CancelHook} (hruns : after.stages operation other = .runs taken) :
    hook = some taken := by
  rw [hstages] at hruns
  rcases eq_or_ne other call with rfl | hne
  · rw [update_self] at hruns
    cases hook with
    | none => cases hruns
    | some hook =>
        cases hruns
        rfl
  · rw [update_of_ne hne] at hruns
    exact absurd hruns (hnotRuns other taken)

/-- The cancelling call takes whichever hook is installed. -/
theorem Own.takeHook (hown : Own operation state tally) {events : List FeatureSession.Event}
    (hreach : (FeatureSession.machine Bool CancelHook).Reaches state.session events)
    (hcall : state.session.stages operation call = .willTake) {session : Session}
    {winner : OperationWinner} {hook : Option CancelHook}
    (hheld : state.session.held operation = some (winner, hook))
    (hcancel : winner.isCancellation = true)
    (hnext : session.held operation = some (winner, none))
    (hstages : session.stages operation =
      update (state.session.stages operation) call (hook.elim .away .runs)) :
    Own operation { state with session := session, discarded := false } tally := by
  have hnotRuns := not_runs_of_willTake hreach hcall
  have hruns : ∀ {other taken}, session.stages operation other = .runs taken →
      hook = some taken := runs_of_taken hnotRuns hstages
  have hinstalled : ∀ taken, ¬ Installed operation session taken := by
    rintro taken ⟨_, h⟩
    rw [hnext] at h
    cases h
  have htaken : ∀ {taken}, hook = some taken → session.stages operation call = .runs taken := by
    rintro taken rfl
    rw [hstages, update_self]
    rfl
  have hcancelled : Cancelled operation session := ⟨winner, none, hnext, hcancel⟩
  have hnowhere : Nowhere operation state.session .discardAndCancel →
      Nowhere operation session .discardAndCancel := by
    intro h
    refine ⟨hinstalled _, fun other hother => h.1 ⟨winner, ?_⟩⟩
    rw [hheld, hruns hother]
  refine { hown with
    known := by rw [hnext]; rfl
    followed := fun other h => hown.followed other ?_
    completed := ?_
    unhooked := fun h => ?_
    stored := fun _ _ h => absurd ⟨_, h⟩ (hinstalled _)
    covered := fun h => ?_
    flushed := nofun
    job := ?_ }
  · rw [hstages] at h
    rcases eq_or_ne other call with rfl | hne
    · rw [update_self] at h
      cases hook <;> cases h
    · rwa [update_of_ne hne] at h
  · rintro ⟨_, hcompleted⟩
    rw [hnext] at hcompleted
    cases hcompleted
    cases hcancel
  · obtain ⟨⟨_, hnone⟩, _, _⟩ := hown.unhooked h
    rw [hheld] at hnone
    cases hnone
    exact ⟨⟨winner, hnext⟩, fun _ _ h => (nomatch hruns h), rfl⟩
  · rcases hown.covered h with h | h | ⟨taken, _, hinst⟩ | ⟨_, other, taken, hother⟩
    · exact .inl h
    · exact .inr (.inl h)
    · rw [hheld] at hinst
      cases hinst
      exact .inr (.inr (.inr ⟨rfl, call, taken, htaken rfl⟩))
    · exact absurd hother (hnotRuns other taken)
  · cases hown.job with
    | unset hseconds hnone hworker h => exact .unset hseconds hnone hworker (hnowhere h)
    | stored hnone hworker hinst _ =>
        obtain ⟨_, hinst⟩ := hinst
        rw [hheld] at hinst
        cases hinst
        exact .taken call hnone hworker (hinstalled _) (htaken rfl)
    | taken other _ _ _ hother => exact absurd hother (hnotRuns other _)
    | now hnone hworker h _ => exact .now hnone hworker (hnowhere h) hcancelled
    | asked hone hworker h _ => exact .asked hone hworker (hnowhere h) hcancelled
    | dropped _ _ _ hcompleted =>
        obtain ⟨_, hcompleted⟩ := hcompleted
        rw [hheld] at hcompleted
        cases hcompleted
        cases hcancel

/-- The hook that the cancelling call runs starts by discarding the completion. -/
theorem Own.discardHook (hown : Own operation state tally) {hook : CancelHook}
    (hcall : state.session.stages operation call = .runs hook) :
    Own operation { state with completion := false, discarded := true } tally :=
  { hown with
    spent := fun h => ⟨rfl, (hown.spent h).2⟩
    unhooked := fun h => absurd hcall ((hown.unhooked h).2.1 call hook)
    covered := nofun
    flushed := fun _ => rfl }

theorem Nowhere.leave {session next : Session} {hook : CancelHook}
    (hnowhere : Nowhere operation session hook)
    (hheld : next.held operation = session.held operation)
    (hstages : next.stages operation = update (session.stages operation) call .away) :
    Nowhere operation next hook := by
  refine ⟨by rw [Installed, hheld]; exact hnowhere.1, ?_⟩
  rw [hstages]
  exact forall_update (p := fun _ (stage : FeatureSession.Stage CancelHook) => stage ≠ .runs hook)
    nofun fun other _ => hnowhere.2 other

/-- A hook that has run is gone, and the second one has asked the job to cancel. -/
theorem JobFate.runHook {worker : Worker} {session next : Session} {seconds asks : Nat}
    (hfate : JobFate operation worker session seconds asks) {events : List FeatureSession.Event}
    (hreach : (FeatureSession.machine Bool CancelHook).Reaches session events) {hook : CancelHook}
    (hcall : session.stages operation call = .runs hook)
    (hheld : next.held operation = session.held operation)
    (hstages : next.stages operation = update (session.stages operation) call .away) :
    JobFate operation worker next seconds
      (if hook = .discardAndCancel then asks + 1 else asks) := by
  have hcancelled : Cancelled operation session :=
    FeatureSession.held_of_owns hreach (by
      show (session.stages operation call).Owns
      rw [hcall]
      exact trivial)
  have hcancelled' : Cancelled operation next := by
    rw [Cancelled, hheld]
    exact hcancelled
  have hone : ∀ other taken, session.stages operation other = .runs taken → other = call := by
    intro other taken hother
    refine FeatureSession.stages_atMostOne hreach operation
      (?_ : (session.stages operation other).Owns) (?_ : (session.stages operation call).Owns)
    · rw [hother]
      exact trivial
    · rw [hcall]
      exact trivial
  have hfirst : (∀ other, session.stages operation other ≠ .runs .discardAndCancel) →
      (if hook = .discardAndCancel then asks + 1 else asks) = asks := by
    intro hruns
    refine if_neg ?_
    rintro rfl
    exact hruns call hcall
  cases hfate with
  | unset hseconds hnone hworker hnowhere =>
      rw [hfirst hnowhere.2]
      exact .unset hseconds hnone hworker (hnowhere.leave hheld hstages)
  | stored hnone hworker hinstalled hruns =>
      rw [hfirst hruns]
      refine .stored hnone hworker (by rw [Installed, hheld]; exact hinstalled) ?_
      rw [hstages]
      exact forall_update
        (p := fun _ (stage : FeatureSession.Stage CancelHook) => stage ≠ .runs .discardAndCancel)
        nofun fun other _ => hruns other
  | taken other hnone hworker hinstalled hother =>
      obtain rfl := hone other _ hother
      rw [hcall] at hother
      cases hother
      rw [if_pos rfl, hnone]
      refine .asked rfl hworker ⟨by rw [Installed, hheld]; exact hinstalled, ?_⟩ hcancelled'
      rw [hstages]
      refine forall_update
        (p := fun _ (stage : FeatureSession.Stage CancelHook) => stage ≠ .runs .discardAndCancel)
        nofun fun another hne h => hne (hone another _ h)
  | now hnone hworker hnowhere _ =>
      rw [hfirst hnowhere.2]
      exact .now hnone hworker (hnowhere.leave hheld hstages) hcancelled'
  | asked hone hworker hnowhere _ =>
      rw [hfirst hnowhere.2]
      exact .asked hone hworker (hnowhere.leave hheld hstages) hcancelled'
  | dropped hnone hworker hnowhere hcompleted =>
      rw [hfirst hnowhere.2]
      refine .dropped hnone hworker (hnowhere.leave hheld hstages) ?_
      rw [Completed, hheld]
      exact hcompleted

theorem Own.runHook (hown : Own operation state tally) {events : List FeatureSession.Event}
    (hreach : (FeatureSession.machine Bool CancelHook).Reaches state.session events)
    {hook : CancelHook} (hcall : state.session.stages operation call = .runs hook)
    (hdiscarded : state.discarded = true) {session : Session}
    (hheld : session.held operation = state.session.held operation)
    (hstages : session.stages operation = update (state.session.stages operation) call .away) :
    Own operation { state with session := session }
      { tally with
          asks := if hook = .discardAndCancel then tally.asks + 1 else tally.asks } := by
  have hcompletion := hown.flushed hdiscarded
  exact { hown with
    known := by rw [hheld]; exact hown.known
    followed := by
      rw [hstages]
      exact forall_update
        (p := fun _ (stage : FeatureSession.Stage CancelHook) => stage = .follows → _)
        nofun fun other _ => hown.followed other
    completed := by rw [Completed, hheld]; exact hown.completed
    unhooked := fun h => absurd hcall ((hown.unhooked h).2.1 call hook)
    stored := by
      intro winner stored hstored
      rw [hheld] at hstored
      refine (hown.stored winner stored hstored).imp_right ?_
      rintro ⟨other, hother⟩
      refine ⟨other, ?_⟩
      rw [hstages, update_of_ne]
      · exact hother
      · rintro rfl
        rw [hcall] at hother
        cases hother
    covered := fun h => by
      rw [show state.completion = true from h] at hcompletion
      cases hcompletion
    job := hown.job.runHook hreach hcall hheld hstages }

/-! ### The Promise -/

theorem JobFate.follow {worker : Worker} {session next : Session} {seconds asks : Nat}
    (hfate : JobFate operation worker session seconds asks)
    (hheld : next.held operation = session.held operation)
    (hruns : ∀ call hook, next.stages operation call = .runs hook ↔
      session.stages operation call = .runs hook) :
    JobFate operation worker next seconds asks := by
  have hnowhere : Nowhere operation session .discardAndCancel →
      Nowhere operation next .discardAndCancel := by
    intro h
    rw [Nowhere, Installed, hheld]
    exact ⟨h.1, fun call hcall => h.2 call ((hruns call _).mp hcall)⟩
  cases hfate with
  | unset hseconds hnone hworker h => exact .unset hseconds hnone hworker (hnowhere h)
  | stored hnone hworker hinstalled h =>
      refine .stored hnone hworker (by rw [Installed, hheld]; exact hinstalled) ?_
      exact fun call hcall => h call ((hruns call _).mp hcall)
  | taken call hnone hworker hinstalled h =>
      exact .taken call hnone hworker (by rw [Installed, hheld]; exact hinstalled)
        ((hruns call _).mpr h)
  | now hnone hworker h hcancelled =>
      exact .now hnone hworker (hnowhere h) (by rw [Cancelled, hheld]; exact hcancelled)
  | asked hone hworker h hcancelled =>
      exact .asked hone hworker (hnowhere h) (by rw [Cancelled, hheld]; exact hcancelled)
  | dropped hnone hworker h hcompleted =>
      exact .dropped hnone hworker (hnowhere h) (by rw [Completed, hheld]; exact hcompleted)

/-- The closure schedules its body, so from now on a callback may follow the operation. -/
theorem Own.scheduleCompletion (hown : Own operation state tally)
    (hcompletion : state.completions call = .scheduling)
    (hcall : state.session.stages operation call = .away) {session : Session}
    (hheld : session.held operation = state.session.held operation)
    {stage : FeatureSession.Stage CancelHook} (hstage : stage = .follows ∨ stage = .away)
    (hstages : session.stages operation = update (state.session.stages operation) call stage) :
    Own operation ({ state with session := session }.setCompletion call .returned) tally := by
  have hpos := hown.running call (by rw [hcompletion]; exact trivial)
  have hearly := hown.not_early_of_completion hcompletion nofun
  have hother : ∀ {other sought}, sought ≠ .follows → sought ≠ .away →
      (session.stages operation other = sought ↔
        state.session.stages operation other = sought) := by
    intro other sought hfollows haway
    rw [hstages]
    rcases eq_or_ne other call with rfl | hne
    · rw [update_self, hcall]
      rcases hstage with rfl | rfl
      · exact ⟨fun h => absurd h.symm hfollows, fun h => absurd h.symm haway⟩
      · exact Iff.rfl
    · rw [update_of_ne hne]
  have hruns : ∀ other hook, session.stages operation other = .runs hook ↔
      state.session.stages operation other = .runs hook := fun other hook => hother nofun nofun
  have hwill : ∀ other, session.stages operation other = .willTake ↔
      state.session.stages operation other = .willTake := fun other => hother nofun nofun
  have hmoved : Own operation { state with session := session } tally := { hown with
    known := by rw [hheld]; exact hown.known
    followed := fun _ _ => hpos
    completed := fun _ => hpos
    unhooked := fun h => absurd h.early hearly
    stored := fun winner hook h => by
      rw [hheld] at h
      refine (hown.stored winner hook h).imp_right ?_
      exact fun ⟨other, htake⟩ => ⟨other, (hwill other).mpr htake⟩
    covered := fun h => by
      simp only [Installed, hheld, hruns]
      exact hown.covered h
    job := hown.job.follow hheld hruns }
  exact hmoved.setCompletion hearly fun h => absurd h id

/-- Whatever settles the Promise must have been paid for by an outcome or by the posted rejection.
-/
theorem Own.settle (hown : Own operation state tally) (continuation rejection : Bool)
    {settlements outcomes : Nat}
    (hsettled : tally.settlements + settlements + rejection.toNat ≤ outcomes) :
    Own operation { state with continuation := continuation, rejection := rejection }
      { tally with settlements := tally.settlements + settlements, outcomes := outcomes } :=
  { hown with settled := hsettled }

theorem settle_of_continuation (hcontinuation : state.continuation = true)
    (settlement : Settlement) :
    state.settle settlement = ({ state with continuation := false }, [.settled settlement]) :=
  if_pos hcontinuation

theorem settle_of_not (hcontinuation : state.continuation = false) (settlement : Settlement) :
    state.settle settlement = (state, []) :=
  if_neg (by rw [hcontinuation]; nofun)

/-- The continuation is gone once it has been called, so a body settles the Promise at most once. -/
theorem runBody_settles (state : State) (body : Body) :
    ∃ (continuation : Bool) (settlements : List Settlement),
      state.runBody body = ({ state with continuation := continuation }, settlements.map .settled) ∧
        settlements.length ≤ 1 := by
  cases hcontinuation : state.continuation with
  | true =>
      have hsettled := settle_of_continuation hcontinuation
      have htwice : ∀ settlement, ({ state with continuation := false } : State).settle settlement =
          ({ state with continuation := false }, []) := settle_of_not rfl
      cases body with
      | failed | unconverted => exact ⟨false, [.rejected], hsettled _, Nat.le_refl 1⟩
      | resolving throws =>
          refine ⟨false, [.resolved], ?_, Nat.le_refl 1⟩
          simp only [State.runBody, hsettled, htwice]
          split <;> rfl
  | false =>
      have hsettled := settle_of_not hcontinuation
      refine ⟨false, [], ?_, Nat.zero_le 1⟩
      rw [← hcontinuation]
      cases body with
      | failed | unconverted => exact hsettled _
      | resolving throws =>
          simp only [State.runBody, hsettled]
          split <;> rfl

theorem runRejection_settles (state : State) (alive : Bool) :
    ∃ (continuation : Bool) (settlements : List Settlement),
      state.runRejection alive =
          ({ state with continuation := continuation, rejection := false },
            settlements.map .settled) ∧
        settlements.length ≤ 1 := by
  have hdropped : ({ state with rejection := false }, []) =
      (({ state with continuation := state.continuation, rejection := false } : State),
        ([] : List Settlement).map Event.settled) := rfl
  by_cases halive : alive && state.session.runtimeActive
  · have hrun : state.runRejection alive =
        State.settle .rejected { state with rejection := false } := if_pos halive
    rw [hrun]
    cases hcontinuation : state.continuation with
    | true => exact ⟨false, [.rejected], settle_of_continuation rfl .rejected, Nat.le_refl 1⟩
    | false => exact ⟨false, [], settle_of_not rfl .rejected, Nat.zero_le 1⟩
  · exact ⟨state.continuation, [], (if_neg halive).trans hdropped, Nat.zero_le 1⟩

/-- A step of the session takes the call to where the session is then. -/
theorem reaches_through
    (hreach : (FeatureSession.machine Bool CancelHook).Reaches state.session (sessionOf history))
    {label : SessionLabel} (henabled : FeatureSession.enabled label state.session) :
    (FeatureSession.machine Bool CancelHook).Reaches (state.through label).1.session
      (sessionOf (history ++ (state.through label).2)) := by
  have hevents : sessionOf (state.through label).2 =
      ((FeatureSession.machine Bool CancelHook).step label state.session).2 :=
    sessionOf_map_session _
  rw [sessionOf_append, hevents]
  exact hreach.step label henabled

theorem reaches_silent
    (hreach : (FeatureSession.machine Bool CancelHook).Reaches state.session (sessionOf history))
    {label : SessionLabel} (henabled : FeatureSession.enabled label state.session)
    (hsilent : ((FeatureSession.machine Bool CancelHook).step label state.session).2 = []) :
    (FeatureSession.machine Bool CancelHook).Reaches (state.through label).1.session
      (sessionOf history) := by
  have hnext := hreach.step label henabled
  rwa [hsilent, List.append_nil] at hnext

/-! ### Before the operation is accepted -/

theorem Before.tallyOf_eq (hbefore : Before state history) (operation : Nat) :
    (tallyOf operation history).closures = 0 ∧ (tallyOf operation history).seconds = 0 ∧
      (tallyOf operation history).asks = 0 := by
  obtain ⟨hclosure, hsecond, hasked⟩ := hbefore.silent
  exact ⟨List.count_eq_zero.mpr hclosure, List.count_eq_zero.mpr hsecond,
    List.count_eq_zero.mpr hasked⟩

/-- The operation that `accept_factory` returns is new to everybody. -/
theorem Before.accepted (hbefore : Before state history)
    (hreach : (FeatureSession.machine Bool CancelHook).Reaches state.session (sessionOf history))
    (hexecutor : state.executor = .accepting) :
    Own state.session.nextId { state with
      session := state.session.emplace true false
      operation := some state.session.nextId
      executor := .continuing } (tallyOf state.session.nextId history) := by
  obtain ⟨hclosures, hseconds, hasks⟩ := hbefore.tallyOf_eq state.session.nextId
  have hunsettled := hbefore.unsettled (by rw [hexecutor]; nofun)
  have haway : ∀ call,
      (state.session.emplace true false).stages state.session.nextId call = .away := by
    intro call
    change state.session.stages state.session.nextId call = .away
    exact FeatureSession.stages_fresh hreach (Nat.le_refl _)
  have hheld : (state.session.emplace true false).held state.session.nextId =
      some (.pending, none) :=
    FeatureSession.held_update_self state.session.operations (.create true false) rfl
  have hnowhere : Nowhere state.session.nextId (state.session.emplace true false)
      .discardAndCancel := by
    refine ⟨?_, fun call h => ?_⟩
    · rintro ⟨_, hinstalled⟩
      rw [hheld] at hinstalled
      cases hinstalled
    · rw [haway] at h
      cases h
  have hfree : ¬ state.worker.RunsHook := by
    rw [hbefore.idle.1]
    exact id
  refine {
    holds := rfl
    accepted := ⟨nofun, nofun⟩
    known := by rw [hheld]; rfl
    once := by rw [hclosures]; exact Nat.zero_le 1
    spent := fun h => absurd h (by rw [hclosures]; exact Nat.lt_irrefl 0)
    idle := fun _ => hbefore.idle
    running := fun call h => ?_
    followed := fun call h => ?_
    completed := fun h => absurd h (not_completed_of_pending hheld)
    unhooked := fun _ => ⟨⟨_, hheld⟩, fun call hook h => ?_, hbefore.discarded⟩
    stored := fun _ _ h => .inl (stored_of_pending hheld h)
    covered := fun h => ?_
    flushed := fun _ => hbefore.completion
    job := .unset hseconds hasks hfree hnowhere
    settled := ?_ }
  · rw [show state.completions call = _ from hbefore.idle.2.2 call] at h
    exact absurd h id
  · rw [show _ = _ from haway call] at h
    cases h
  · rw [show _ = _ from haway call] at h
    cases h
  · rw [show state.completion = _ from hbefore.completion] at h
    cases h
  · change (settlementsOf history).length + state.rejection.toNat ≤ _
    rw [hunsettled, hbefore.rejection]
    exact Nat.zero_le _

theorem Before.accept (hbefore : Before state history)
    (hreach : (FeatureSession.machine Bool CancelHook).Reaches state.session (sessionOf history))
    (hexecutor : state.executor = .accepting) : Inv state.accept history := by
  have hnext := hreach.step (.acceptFactory (some true))
    (trivial : FeatureSession.enabled _ state.session)
  by_cases hactive : state.session.state = .active ∧ state.session.runtimeActive
  · have hsession : state.session.acceptFactory (some true) = state.session.emplace true false :=
      if_pos hactive
    have hstate : state.accept = { state with
        session := state.session.emplace true false
        operation := some state.session.nextId
        executor := .continuing } := by
      rw [State.accept, if_pos hactive, ← hsession]
      rfl
    rw [hstate]
    refine ⟨?_, .inr ⟨_, hbefore.accepted hreach hexecutor⟩⟩
    rw [← hsession, ← List.append_nil (sessionOf history)]
    exact hnext
  · have hsession : state.session.acceptFactory (some true) = state.session := if_neg hactive
    have hstate : state.accept = { state with executor := .refused } := by
      rw [State.accept, if_neg hactive]
      exact congrArg (fun session => { state with session := session, executor := .refused })
        hsession
    have hunsettled := hbefore.unsettled (by rw [hexecutor]; nofun)
    rw [hstate]
    exact ⟨hreach,
      .inl { hbefore with executor := .inr (.inl rfl), unsettled := fun _ => hunsettled }⟩

/-- A refused call rejects its new Promise at once. -/
theorem Before.rejectNewPromise (hbefore : Before state history)
    (hexecutor : state.executor = .refused) :
    Before { state with executor := .returned } (history ++ [.settled .rejected]) := by
  have hunsettled := hbefore.unsettled (by rw [hexecutor]; nofun)
  obtain ⟨hclosure, hsecond, hasked⟩ := hbefore.silent
  refine { hbefore with
    executor := .inr (.inr rfl)
    silent := ?_
    settled := ?_
    unsettled := fun h => absurd rfl h }
  · simp only [List.mem_append, List.mem_singleton, not_or]
    exact ⟨⟨hclosure, nofun⟩, ⟨hsecond, nofun⟩, hasked, nofun⟩
  · rw [settlementsOf_append, hunsettled]
    exact Nat.le_refl 1

theorem Before.session (hbefore : Before state history) (session : Session)
    (events : List FeatureSession.Event) :
    Before { state with session := session } (history ++ events.map .session) := by
  obtain ⟨hclosure, hsecond, hasked⟩ := hbefore.silent
  have hmem : ∀ {event : Event}, event.session? = none → event ∉ history →
      event ∉ history ++ events.map .session := by
    intro event hevent hnot
    rw [← List.count_eq_zero] at hnot ⊢
    rw [count_append_session hevent, hnot]
  have hsame : settlementsOf (history ++ events.map .session) = settlementsOf history := by
    rw [settlementsOf_append, settlementsOf_map_session, List.append_nil]
  exact { hbefore with
    silent := ⟨hmem rfl hclosure, hmem rfl hsecond, hmem rfl hasked⟩
    settled := hsame ▸ hbefore.settled
    unsettled := fun h => hsame.trans (hbefore.unsettled h) }

/-- Until it has an operation a call can only try to accept one or give up. -/
theorem Before.step (hbefore : Before state history)
    (hreach : (FeatureSession.machine Bool CancelHook).Reaches state.session (sessionOf history))
    {label : Label} (henabled : enabled label state) :
    Inv (machine.step label state).1 (history ++ (machine.step label state).2) := by
  have hnone := hbefore.operation
  have hexecutor : ∀ point : Executor, state.executor = point →
      point = .accepting ∨ point = .refused ∨ point = .returned := by
    rintro point rfl
    exact hbefore.executor
  have hworker : ∀ point : Worker, state.worker = point → point = .absent := by
    rintro point rfl
    exact hbefore.idle.1
  have hcompletion : ∀ (call : Nat) (point : Completion), state.completions call = point →
      point = .absent := by
    rintro call point rfl
    exact hbefore.idle.2.2 call
  cases label with
  | accept => exact Machine.keeps_of_silent rfl (hbefore.accept hreach henabled)
  | rejectNewPromise =>
      refine ⟨?_, .inl (hbefore.rejectNewPromise henabled)⟩
      rw [sessionOf_append]
      exact (List.append_nil (sessionOf history)).symm ▸ hreach
  | session label =>
      refine ⟨?_, .inl (hbefore.session _ _)⟩
      exact reaches_through hreach henabled.2
  | registerContinuation | registerCompletion | discardFirst | submit _ =>
      rcases hexecutor _ henabled with h | h | h <;> cases h
  | setFirstHook _ | setWork _ _ | refuse _ =>
      rcases hexecutor _ henabled.1 with h | h | h <;> cases h
  | pop | checkItem | checkExecutor | checkOperation | checkFeature _ | launch | discardSecond
  | cancelSecond => cases hworker _ henabled
  | dequeue | returnJob _ => cases hworker _ henabled.1
  | failLaunch _ => rcases henabled.1 with h | h <;> cases hworker _ h
  | complete _ =>
      have hlaunched := henabled.1
      rw [hbefore.idle.2.1] at hlaunched
      cases hlaunched
  | takeCompletion _ | checkClosure _ | decode _ | lockFeature _ _ => cases hcompletion _ _ henabled
  | scheduleCompletion _ _ => cases hcompletion _ _ henabled.1
  | takeHook _ _ _ | discardHook _ _ _ _ | runHook _ _ _ _ | runCompletion _ _ _
  | handRejection _ _ _ _ _ =>
      have hsome := henabled.1
      rw [hnone] at hsome
      cases hsome
  | runRejection _ =>
      rw [enabled, hbefore.rejection] at henabled
      cases henabled

/-! ### Once the operation is accepted -/

theorem Own.ne_nextId (hown : Own operation state tally) {events : List FeatureSession.Event}
    (hreach : (FeatureSession.machine Bool CancelHook).Reaches state.session events) :
    operation ≠ state.session.nextId := by
  rintro rfl
  have hknown := hown.known
  rw [FeatureSession.held_eq_none hreach (Nat.le_refl _)] at hknown
  cases hknown

theorem tallyOf_outcome (outcome : FeatureSession.Outcome) :
    tallyOf operation (history ++ [.session (.outcome operation outcome)]) =
      { tallyOf operation history with outcomes := (tallyOf operation history).outcomes + 1 } := by
  have hlength : (FeatureSession.outcomesOf operation
      (sessionOf history ++ [.outcome operation outcome])).length =
        (tallyOf operation history).outcomes + 1 := by
    rw [OperationLifecycle.outcomesOf_append, OperationLifecycle.outcomesOf_outcome, if_pos rfl,
      List.length_append]
    rfl
  rw [← hlength]
  exact tallyOf_session [.outcome operation outcome]

/-- The body that a callback runs settles at most once, and it is the outcome that pays for it. -/
theorem Own.runCompletion (hown : Own operation state (tallyOf operation history))
    (hreach : (FeatureSession.machine Bool CancelHook).Reaches state.session (sessionOf history))
    (henabled : FeatureSession.enabled (.runCompletion call operation) state.session)
    (body : Body) : Inv (state.runCompletion call operation body).1
      (history ++ (state.runCompletion call operation body).2) := by
  have hnext := reaches_through hreach henabled
  have haway : (state.session.calls call).stage operation = .away := by
    rw [show state.session.calls call = _ from henabled]
    rfl
  have hobserved : FeatureSession.Observed operation state.session
      (state.through (.runCompletion call operation)).1.session :=
    FeatureSession.observed_of_held rfl rfl (.inl haway.symm)
  obtain ⟨continuation, settlements, hbody, hlength⟩ :=
    runBody_settles (state.through (.runCompletion call operation)).1 body
  have hrun : state.runCompletion call operation body =
      ({ (state.through (.runCompletion call operation)).1 with continuation := continuation },
        [.session (.outcome operation .bodyRan)] ++ settlements.map .settled) := by
    rw [State.runCompletion, hbody]
    rfl
  rw [hrun, ← List.append_assoc]
  refine ⟨?_, .inr ⟨operation, ?_⟩⟩
  · rw [sessionOf_append, sessionOf_map_settled, List.append_nil]
    exact hnext
  · rw [tallyOf_settled, tallyOf_outcome]
    have hsettled := hown.settled
    have hpaid : (tallyOf operation history).settlements + settlements.length +
        state.rejection.toNat ≤ (tallyOf operation history).outcomes + 1 := by omega
    exact (hown.observed hreach hobserved).settle continuation state.rejection hpaid

/-- What `close` hands over is paid for by the outcome of the operation. -/
theorem Own.handRejection (hown : Own operation state (tallyOf operation history))
    (hreach : (FeatureSession.machine Bool CancelHook).Reaches state.session (sessionOf history))
    {runtimeTeardown rejection : Bool}
    (henabled : FeatureSession.enabled (.handRejection call runtimeTeardown operation rejection)
      state.session) (delivered : Bool) :
    Inv (state.handRejection call runtimeTeardown operation rejection delivered).1
      (history ++ (state.handRejection call runtimeTeardown operation rejection delivered).2) := by
  have hnext := reaches_through hreach henabled
  have haway : (state.session.calls call).stage operation = .away := by
    rw [show state.session.calls call = _ from henabled]
    rfl
  have hobserved : FeatureSession.Observed operation state.session
      (state.through (.handRejection call runtimeTeardown operation rejection)).1.session :=
    FeatureSession.observed_of_held rfl rfl (.inl haway.symm)
  have hpaid : ∀ posted : Bool, (tallyOf operation history).settlements + 0 + posted.toNat ≤
      (tallyOf operation history).outcomes + 1 := by
    intro posted
    have hsettled := hown.settled
    have hposted := Bool.toNat_le posted
    omega
  have htally : tallyOf operation (history ++
      (state.through (.handRejection call runtimeTeardown operation rejection)).2) = _ :=
    tallyOf_outcome _
  exact ⟨hnext, .inr ⟨operation,
    htally ▸ (hown.observed hreach hobserved).settle state.continuation _ (hpaid _)⟩⟩

/-- The posted rejection pays for the settlement it makes. -/
theorem Own.runRejection (hown : Own operation state (tallyOf operation history))
    (hrejection : state.rejection = true) (alive : Bool) :
    Own operation (state.runRejection alive).1
        (tallyOf operation (history ++ (state.runRejection alive).2)) ∧
      (state.runRejection alive).1.session = state.session ∧
      sessionOf (state.runRejection alive).2 = [] := by
  obtain ⟨continuation, settlements, hrun, hlength⟩ := runRejection_settles state alive
  have hsettled := hown.settled
  rw [hrejection, Bool.toNat_true] at hsettled
  have hpaid : (tallyOf operation history).settlements + settlements.length + false.toNat ≤
      (tallyOf operation history).outcomes := by
    rw [Bool.toNat_false]
    omega
  rw [hrun, tallyOf_settled]
  exact ⟨hown.settle continuation false hpaid, rfl, sessionOf_map_settled settlements⟩

theorem Own.setWork (hown : Own operation state tally) {events : List FeatureSession.Event}
    (hreach : (FeatureSession.machine Bool CancelHook).Reaches state.session events)
    {accepted : Bool} (hexecutor : state.executor = .working accepted) :
    Own operation (state.setWork operation accepted) tally := by
  have hheld : (state.through (.setWork operation accepted)).1.session.held operation =
      state.session.held operation := FeatureSession.held_modify (fun _ => rfl) fun _ => rfl
  have hmoved := hown.observed hreach (.of_eq hheld rfl)
  have hnext : Own operation
      { (state.through (.setWork operation accepted)).1 with
          executor := if accepted then .returned else .refusing } tally := by
    refine hmoved.advance ?_ ?_ ?_ ?_ ?_
    · cases accepted <;> exact ⟨nofun, nofun⟩
    · cases accepted <;> exact fun h => absurd h id
    · cases accepted <;> exact fun h => absurd h id
    · rw [hexecutor]
      nofun
    · rw [hexecutor]
      nofun
  exact { hnext with }

/-- Only the call that still finds the closure runs it. -/
theorem Own.takeCompletion (hown : Own operation state (tallyOf operation history))
    (hcall : state.completions call = .entered) :
    Own operation (state.takeCompletion call).1
        (tallyOf operation (history ++ (state.takeCompletion call).2)) ∧
      (state.takeCompletion call).1.session = state.session ∧
      sessionOf (state.takeCompletion call).2 = [] := by
  unfold State.takeCompletion
  split
  next hcompletion =>
    rw [tallyOf_closureRan]
    exact ⟨hown.runClosure hcall hcompletion, rfl, rfl⟩
  next =>
    have hearly := hown.not_early_of_completion hcall nofun
    rw [List.append_nil]
    exact ⟨hown.setCompletion hearly fun h => absurd h id, rfl, rfl⟩

theorem tallyOf_runHook (hook : CancelHook) :
    tallyOf operation (history ++ if hook = .discardAndCancel then [.jobAsked] else []) =
      { tallyOf operation history with
          asks := if hook = .discardAndCancel then (tallyOf operation history).asks + 1
            else (tallyOf operation history).asks } := by
  split
  · exact tallyOf_jobAsked
  · rw [List.append_nil]

theorem Inv.quietly (hreach : (FeatureSession.machine Bool CancelHook).Reaches state.session
      (sessionOf history)) {next : State} {events : List Event}
    (hown : Own operation next (tallyOf operation (history ++ events)))
    (hsession : next.session = state.session) (hevents : sessionOf events = []) :
    Inv next (history ++ events) := by
  refine ⟨?_, .inr ⟨operation, hown⟩⟩
  rwa [sessionOf_append, hevents, List.append_nil, hsession]

theorem Own.isSome_operations (hown : Own operation state tally) :
    (state.session.operations operation).isSome := by
  have hknown := hown.known
  rwa [FeatureSession.State.held, Option.isSome_map] at hknown

theorem Own.stepTakeHook (hown : Own operation state tally) {events : List FeatureSession.Event}
    (hreach : (FeatureSession.machine Bool CancelHook).Reaches state.session events)
    {runtimeTeardown : Bool}
    (hcall : state.session.calls call = .taking runtimeTeardown operation) :
    Own operation (state.takeHook call runtimeTeardown operation) tally := by
  have hstage : state.session.stages operation call = .willTake := by
    rw [FeatureSession.State.stages, hcall]
    exact if_pos rfl
  have howns : (state.session.stages operation call).Owns := by
    rw [hstage]
    exact trivial
  obtain ⟨winner, hook, hheld, hcancel⟩ := FeatureSession.held_of_owns hreach howns
  have hnext := hown.takeHook hreach hstage hheld hcancel
    (FeatureSession.held_takeHook hheld runtimeTeardown)
    (FeatureSession.stages_takeHook hheld runtimeTeardown)
  exact { hnext with }

theorem stage_of_running {runtimeTeardown : Bool} {hook : CancelHook} {session : Session}
    (hcall : session.calls call = .running runtimeTeardown operation hook) :
    session.stages operation call = .runs hook := by
  rw [FeatureSession.State.stages, hcall]
  exact if_pos rfl

theorem Own.stepRunHook (hown : Own operation state (tallyOf operation history))
    (hreach : (FeatureSession.machine Bool CancelHook).Reaches state.session (sessionOf history))
    {runtimeTeardown : Bool} {hook : CancelHook} (hdiscarded : state.discarded = true)
    (hcall : state.session.calls call = .running runtimeTeardown operation hook) :
    Inv (state.runHook call runtimeTeardown operation hook).1
      (history ++ (state.runHook call runtimeTeardown operation hook).2) := by
  have hlabel : FeatureSession.enabled (.runHook call runtimeTeardown operation hook)
      state.session := hcall
  have hnext := reaches_silent hreach hlabel rfl
  have hheld : (state.session.setCall call (.releasing runtimeTeardown operation)).held operation =
      state.session.held operation := rfl
  have hrun := hown.runHook hreach (stage_of_running hcall) hdiscarded hheld
    (FeatureSession.stages_setCall _)
  refine ⟨?_, .inr ⟨operation, ?_⟩⟩
  · rw [sessionOf_append]
    have hnone : sessionOf (state.runHook call runtimeTeardown operation hook).2 = [] := by
      cases hook <;> rfl
    rwa [hnone, List.append_nil]
  · exact (tallyOf_runHook hook).symm ▸ hrun

theorem Own.stepScheduleCompletion (hown : Own operation state tally)
    (hcompletion : state.completions call = .scheduling)
    (hcall : state.session.calls call = .absent) :
    Own operation ((state.through (.scheduleCompletion call operation)).1.setCompletion call
      .returned) tally := by
  have haway : state.session.stages operation call = .away := by
    rw [FeatureSession.State.stages, hcall]
    rfl
  have hheld : (state.session.scheduleCompletion call operation).held operation =
      state.session.held operation := rfl
  refine hown.scheduleCompletion hcompletion haway hheld ?_ (FeatureSession.stages_setCall _)
  split
  · exact .inl (if_pos rfl)
  · exact .inr rfl

section Steps

variable (hown : Own operation state (tallyOf operation history))
  (hreach : (FeatureSession.machine Bool CancelHook).Reaches state.session (sessionOf history))
include hown hreach

theorem Own.stepSetFirstHook (hexecutor : state.executor = .hooking) :
    Inv (machine.step (.setFirstHook operation) state).1
      (history ++ (machine.step (.setFirstHook operation) state).2) := by
  refine Machine.keeps_of_silent rfl ⟨?_, .inr ⟨operation, ?_⟩⟩
  · exact reaches_silent hreach hown.isSome_operations rfl
  · exact hown.setFirstHook hreach hexecutor
      (FeatureSession.installation_setCancelHook .discard hown.known) rfl

theorem Own.stepSetWork {accepted : Bool} (hexecutor : state.executor = .working accepted) :
    Inv (machine.step (.setWork operation accepted) state).1
      (history ++ (machine.step (.setWork operation accepted) state).2) := by
  refine Machine.keeps_of_silent rfl ⟨?_, .inr ⟨operation, hown.setWork hreach hexecutor⟩⟩
  exact reaches_silent hreach hown.isSome_operations rfl

theorem Own.stepReturnJob (hworker : state.worker = .launched) :
    Inv (machine.step (.returnJob operation) state).1
      (history ++ (machine.step (.returnJob operation) state).2) := by
  refine ⟨?_, .inr ⟨operation, ?_⟩⟩
  · have hhistory : sessionOf (history ++ [.secondHook]) = sessionOf history :=
      sessionOf_append_singleton rfl
    exact hhistory.symm ▸ reaches_silent hreach hown.isSome_operations rfl
  · exact tallyOf_secondHook ▸ hown.returnJob hreach hworker
      (FeatureSession.installation_setCancelHook .discardAndCancel hown.known) rfl

/-- A launch that fails is behind the submission of the work. -/
theorem Own.stepFailLaunch {call : Nat} (hahead : state.worker.Ahead) :
    Inv (machine.step (.failLaunch call) state).1
      (history ++ (machine.step (.failLaunch call) state).2) := by
  have hown' : Own operation state (tallyOf operation (history ++ [])) := by rwa [List.append_nil]
  have hearly := hown.not_early_of_worker fun h => by
    rw [h] at hahead
    exact hahead
  have hnext : Own operation (state.setCompletion call .entered) _ :=
    hown'.setCompletion hearly fun h => absurd h id
  exact .quietly hreach (hnext.moveWorker hahead id) rfl rfl

theorem Own.stepComplete {call : Nat} (hlaunched : state.launched = true) :
    Inv (machine.step (.complete call) state).1
      (history ++ (machine.step (.complete call) state).2) := by
  have hown' : Own operation state (tallyOf operation (history ++ [])) := by rwa [List.append_nil]
  have hearly : ¬ state.executor.Early := by
    intro h
    rw [(hown.idle h).2.1] at hlaunched
    cases hlaunched
  exact .quietly hreach (hown'.setCompletion hearly fun h => absurd h id) rfl rfl

/-- A step of the session that is not one of the call. -/
theorem Own.stepSession {label : SessionLabel} (hforeign : Foreign (some operation) label)
    (henabled : FeatureSession.enabled label state.session) :
    Inv (machine.step (.session label) state).1
      (history ++ (machine.step (.session label) state).2) := by
  refine ⟨reaches_through hreach henabled, .inr ⟨operation, ?_⟩⟩
  have hmoved := hown.observed hreach
    (observed_step (hown.ne_nextId hreach) hforeign henabled)
  have htally : tallyOf operation (history ++ (machine.step (.session label) state).2) = _ :=
    tallyOf_session _
  rw [htally]
  exact { hmoved with settled := Nat.le_trans hmoved.settled (length_outcomesOf_le _) }

end Steps

/-- One step of a call that holds an operation. -/
theorem Own.step (hown : Own operation state (tallyOf operation history))
    (hreach : (FeatureSession.machine Bool CancelHook).Reaches state.session (sessionOf history))
    {label : Label} (henabled : enabled label state) :
    Inv (machine.step label state).1 (history ++ (machine.step label state).2) := by
  have hown' : Own operation state (tallyOf operation (history ++ [])) := by rwa [List.append_nil]
  have hholds : ∀ {other}, state.operation = some other → other = operation := fun h =>
    Option.some.inj (h.symm.trans hown.holds)
  have hworker : ∀ {point : Worker}, state.worker = point → point.Ahead → state.worker.Ahead := by
    rintro point rfl h
    exact h
  have hruns : ∀ {call : Nat} {point : Completion}, state.completions call = point →
      point.Runs → 0 < (tallyOf operation (history ++ [])).closures := by
    rintro call point rfl h
    exact hown'.running call h
  cases label with
  | accept => exact absurd henabled hown.accepted.1
  | rejectNewPromise => exact absurd henabled hown.accepted.2
  | registerContinuation => exact .quietly hreach (hown'.registerContinuation henabled) rfl rfl
  | registerCompletion => exact .quietly hreach (hown'.registerCompletion henabled) rfl rfl
  | setFirstHook other =>
      obtain rfl := hholds henabled.2
      exact hown.stepSetFirstHook hreach henabled.1
  | discardFirst => exact .quietly hreach (hown'.discardFirst henabled) rfl rfl
  | submit accepted => exact .quietly hreach (hown'.submit henabled accepted) rfl rfl
  | setWork other accepted =>
      obtain rfl := hholds henabled.2
      exact hown.stepSetWork hreach henabled.1
  | refuse call => exact .quietly hreach (hown'.refuse henabled.1) rfl rfl
  | dequeue => exact .quietly hreach (hown'.moveWorker (hworker henabled.1 trivial) id) rfl rfl
  | pop => exact .quietly hreach (hown'.moveWorker (hworker henabled trivial) id) rfl rfl
  | checkItem | checkExecutor | checkOperation =>
      refine .quietly hreach (hown'.moveWorker (hworker henabled trivial) ?_) rfl rfl
      split <;> exact id
  | checkFeature alive =>
      refine .quietly hreach (hown'.moveWorker (hworker henabled trivial) ?_) rfl rfl
      split <;> exact id
  | launch => exact .quietly hreach (hown'.launch henabled) rfl rfl
  | returnJob other =>
      obtain rfl := hholds henabled.2
      exact hown.stepReturnJob hreach henabled.1
  | failLaunch call =>
      exact hown.stepFailLaunch hreach (henabled.1.elim (hworker · trivial) (hworker · trivial))
  | discardSecond => exact .quietly hreach (hown'.discardSecond henabled) rfl rfl
  | cancelSecond =>
      exact .quietly hreach (tallyOf_jobAsked ▸ hown.cancelSecond henabled) rfl rfl
  | complete call => exact hown.stepComplete hreach henabled.1
  | takeCompletion call =>
      obtain ⟨hnext, hsession, hevents⟩ := hown.takeCompletion henabled
      exact .quietly hreach hnext hsession hevents
  | checkClosure call | decode call | lockFeature call alive =>
      exact .quietly hreach (hown'.setCompletion (hown.not_early_of_completion henabled nofun)
        fun _ => hruns henabled trivial) rfl rfl
  | scheduleCompletion call other =>
      obtain ⟨hcall, hheld, hsession⟩ := henabled
      obtain rfl := hholds hheld
      refine Machine.keeps_of_silent rfl ⟨?_, .inr ⟨other, ?_⟩⟩
      · exact reaches_silent hreach hsession rfl
      · exact hown.stepScheduleCompletion hcall hsession.1
  | session label =>
      exact hown.stepSession hreach (hown.holds ▸ henabled.1) henabled.2
  | takeHook call runtimeTeardown other =>
      obtain rfl := hholds henabled.1
      refine Machine.keeps_of_silent rfl ⟨?_, .inr ⟨other, hown.stepTakeHook hreach henabled.2⟩⟩
      exact reaches_silent hreach henabled.2 rfl
  | discardHook call runtimeTeardown other hook =>
      obtain rfl := hholds henabled.1
      exact .quietly hreach (hown'.discardHook (stage_of_running henabled.2.2)) rfl rfl
  | runHook call runtimeTeardown other hook =>
      obtain rfl := hholds henabled.1
      exact hown.stepRunHook hreach henabled.2.1 henabled.2.2
  | runCompletion call other body =>
      obtain rfl := hholds henabled.1
      exact hown.runCompletion hreach henabled.2 body
  | handRejection call runtimeTeardown other rejection delivered =>
      obtain rfl := hholds henabled.1
      exact hown.handRejection hreach henabled.2 delivered
  | runRejection alive =>
      obtain ⟨hnext, hsession, hevents⟩ := hown.runRejection henabled alive
      exact .quietly hreach hnext hsession hevents

theorem Before.initial : Before .init [] where
  operation := rfl
  executor := .inl rfl
  idle := ⟨rfl, rfl, fun _ => rfl⟩
  completion := rfl
  discarded := rfl
  rejection := rfl
  silent := ⟨List.not_mem_nil, List.not_mem_nil, List.not_mem_nil⟩
  settled := Nat.zero_le 1
  unsettled _ := rfl

theorem invariant : machine.Invariant Inv where
  init := ⟨.init, .inl .initial⟩
  step _ _ _ hinv henabled := by
    rcases hinv.phase with hbefore | ⟨_, hown⟩
    · exact hbefore.step hinv.reaches henabled
    · exact hown.step hinv.reaches henabled

/-! ### What follows for every run -/

theorem Own.held_of_winner (hown : Own operation state tally) {winner : OperationWinner}
    (hwinner : state.winner = some winner) :
    ∃ hook, state.session.held operation = some (winner, hook) := by
  rw [State.winner, hown.holds, Option.bind_some, FeatureSession.State.winnerOf] at hwinner
  obtain ⟨pending, haccepted, rfl⟩ := Option.map_eq_some_iff.mp hwinner
  exact ⟨pending.cancelHook, by rw [FeatureSession.State.held, haccepted, Option.map_some]⟩

/-- A quiet call is neither about to take a hook nor running one. -/
theorem State.Quiet.not_owns (hquiet : state.Quiet) (call : Nat) :
    ¬ (state.session.stages operation call).Owns := by
  rw [FeatureSession.State.stages]
  rcases hquiet.calls call with h | h | ⟨other, h⟩
  · rw [h]
    exact id
  · rw [h]
    exact id
  · rw [h, FeatureSession.Call.stage]
    split <;> exact id

theorem State.Quiet.not_owns_of_eq (hquiet : state.Quiet)
    {stage : FeatureSession.Stage CancelHook}
    (hstage : state.session.stages operation call = stage) : ¬ stage.Owns := by
  rw [← hstage]
  exact hquiet.not_owns call

theorem Own.not_installed (hown : Own operation state tally) (hquiet : state.Quiet)
    {winner : OperationWinner} {hook : Option CancelHook}
    (hheld : state.session.held operation = some (winner, hook)) (hdecided : winner ≠ .pending)
    (stored : CancelHook) : ¬ Installed operation state.session stored := by
  rintro ⟨known, hknown⟩
  have hsame : known = winner := by
    rw [hheld] at hknown
    cases hknown
    rfl
  rcases hown.stored known stored hknown with h | ⟨call, h⟩
  · exact hdecided (hsame ▸ h)
  · exact hquiet.not_owns_of_eq h trivial

/-- Nothing is left in the table once somebody has won and everybody has returned. -/
theorem Own.completion_eq_false (hown : Own operation state tally) (hquiet : state.Quiet)
    {winner : OperationWinner} (hwinner : state.winner = some winner)
    (hdecided : winner ≠ .pending) : state.completion = false := by
  obtain ⟨hook, hheld⟩ := hown.held_of_winner hwinner
  refine Bool.eq_false_iff.mpr fun hcompletion => ?_
  have hexecutor := hquiet.executor
  rcases hown.covered_of_hooked (by rw [hexecutor]; nofun) (by rw [hexecutor]; nofun) hcompletion
    with ⟨stored, hstored⟩ | ⟨_, call, taken, hruns⟩
  · exact hown.not_installed hquiet hheld hdecided stored hstored
  · exact hquiet.not_owns_of_eq hruns trivial

theorem Own.asks_of_cancelled (hown : Own operation state tally) (hquiet : state.Quiet)
    (hreached : 0 < tally.seconds) {winner : OperationWinner}
    (hwinner : state.winner = some winner) (hcancel : winner.isCancellation = true) :
    tally.asks = 1 := by
  obtain ⟨hook, hheld⟩ := hown.held_of_winner hwinner
  have hdecided : winner ≠ .pending := by
    rintro rfl
    cases hcancel
  cases hown.job with
  | unset hseconds _ _ _ =>
      rw [hseconds] at hreached
      exact absurd hreached (Nat.lt_irrefl 0)
  | stored _ _ hinstalled _ =>
      exact absurd hinstalled (hown.not_installed hquiet hheld hdecided _)
  | taken call _ _ _ hruns => exact absurd trivial (hquiet.not_owns_of_eq hruns)
  | now _ hruns _ _ =>
      rcases hquiet.worker with h | h | h <;> rw [h] at hruns <;> exact absurd hruns id
  | asked hone _ _ _ => exact hone
  | dropped _ _ _ hcompleted =>
      obtain ⟨_, hcompleted⟩ := hcompleted
      rw [hheld] at hcompleted
      cases hcompleted
      cases hcancel

theorem Own.asks_of_completing (hown : Own operation state tally)
    (hwinner : state.winner = some .completing) : tally.asks = 0 := by
  obtain ⟨hook, hheld⟩ := hown.held_of_winner hwinner
  cases hown.job with
  | asked _ _ _ hcancelled =>
      obtain ⟨_, _, hcancelled, hwinner⟩ := hcancelled
      rw [hheld] at hcancelled
      cases hcancelled
      cases hwinner
  | unset _ hnone _ _ | stored hnone _ _ _ | taken _ hnone _ _ _ | now hnone _ _ _
  | dropped hnone _ _ _ => exact hnone

/-- **One generated suspend call, in every interleaving of its steps**: the registered closure runs
at most once and the Promise is settled at most once; once somebody has won and every started step
has returned, the table no longer holds the completion; and a job whose second hook was set is asked
to cancel exactly once after a cancellation and never after a completion. -/
theorem suspend_call_contract (hreach : machine.Reaches state history) :
    history.count .closureRan ≤ 1 ∧ (settlementsOf history).length ≤ 1 ∧
      (∀ winner, state.winner = some winner → winner ≠ .pending → state.Quiet →
        state.completion = false) ∧
      (.secondHook ∈ history →
        (∀ winner, state.winner = some winner → winner.isCancellation = true → state.Quiet →
          history.count .jobAsked = 1) ∧
        (state.winner = some .completing → .jobAsked ∉ history)) := by
  obtain ⟨hsession, hphase⟩ := hreach.invariant invariant
  rcases hphase with hbefore | ⟨operation, hown⟩
  · have hwinner : state.winner = none := by
      rw [State.winner, hbefore.operation]
      rfl
    refine ⟨?_, hbefore.settled, fun winner h => ?_, fun h => absurd h hbefore.silent.2.1⟩
    · rw [List.count_eq_zero.mpr hbefore.silent.1]
      exact Nat.zero_le 1
    · rw [hwinner] at h
      cases h
  · have hcontract := ((FeatureSession.simulation.reaches hsession).invariant
      OperationLifecycle.invariant).contract
    have hsettled := hown.settled
    have houtcomes := hcontract.settled operation
    refine ⟨hown.once, ?_, fun winner hwinner hdecided hquiet =>
      hown.completion_eq_false hquiet hwinner hdecided, fun hsecond => ⟨?_, ?_⟩⟩
    · change (settlementsOf history).length + state.rejection.toNat ≤
        (FeatureSession.outcomesOf operation (sessionOf history)).length at hsettled
      omega
    · exact fun winner hwinner hcancel hquiet =>
        hown.asks_of_cancelled hquiet (List.count_pos_iff.mpr hsecond) hwinner hcancel
    · exact fun hwinner => List.count_eq_zero.mp (hown.asks_of_completing hwinner)

/-- A run in which the feature is closed while the job runs, and the job completes too late. -/
def cancelledRun : List Label :=
  [.accept, .registerContinuation, .registerCompletion, .setFirstHook 1, .submit true, .pop,
    .checkItem, .checkExecutor, .checkOperation, .checkFeature true, .launch, .setWork 1 true,
    .returnJob 1, .session (.close 0 false), .session (.pop 0 false 1),
    .session (.claim 0 false 1), .session (.requestCancel 0 false 1), .takeHook 0 false 1,
    .discardHook 0 false 1 .discardAndCancel, .runHook 0 false 1 .discardAndCancel, .complete 0,
    .takeCompletion 0, .session (.takeInternalCompletion 0 false 1),
    .session (.takeRejection 0 false 1), .handRejection 0 false 1 true true,
    .session (.drain 0 false), .session (.deactivate 0), .runRejection true]

theorem cancelledRun_enabled : (machine.exec cancelledRun .init []).isSome := by decide

/-- The state that run ends in, and its history. -/
def cancelledEnd : State × List Event :=
  (machine.exec cancelledRun .init []).get cancelledRun_enabled

theorem cancelledEnd_quiet : cancelledEnd.1.Quiet where
  executor := by decide
  worker := by decide
  completions call := by
    cases call with
    | zero => decide
    | succ _ => exact .inl rfl
  calls call := by
    cases call with
    | zero => exact .inr (.inl (by decide))
    | succ _ => exact .inl rfl

/-- After that run everybody has returned, and the job was asked to cancel. -/
theorem suspend_call_contract_cancelled :
    ∃ (state : State) (history : List Event),
      machine.Reaches state history ∧ state.Quiet ∧ .secondHook ∈ history ∧
        settlementsOf history = [.rejected] ∧ (settlementsOf history).length ≤ 1 ∧
        state.winner = some .cancelledByFeature ∧ state.completion = false ∧
        history.count .jobAsked = 1 := by
  have hreach : machine.Reaches cancelledEnd.1 cancelledEnd.2 :=
    Machine.Reaches.exec cancelledRun .init (Option.some_get cancelledRun_enabled).symm
  have hwinner : cancelledEnd.1.winner = some .cancelledByFeature := by decide
  have hsecond : .secondHook ∈ cancelledEnd.2 := by decide
  obtain ⟨_, hsettled, hempty, hjob⟩ := suspend_call_contract hreach
  exact ⟨_, _, hreach, cancelledEnd_quiet, hsecond, by decide, hsettled, hwinner,
    hempty _ hwinner nofun cancelledEnd_quiet,
    (hjob hsecond).1 _ hwinner rfl cancelledEnd_quiet⟩

end SupernoteModule.Codegen.SuspendCall
