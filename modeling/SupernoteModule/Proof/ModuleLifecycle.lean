import SupernoteModule.Lib.Exclusive
import SupernoteModule.Lib.History
import SupernoteModule.Runtime.ModuleLifecycle
import Mathlib.Data.List.Nodup
import Mathlib.Tactic.SplitIfs

/-!
# One session for each module

At most one attempt is under way at a time, and it is what makes the lifecycle pending. A session
that has been installed is the only one, and the call of `invalidate` that finds it passes it on.
-/

namespace SupernoteModule.Runtime.ModuleLifecycle

open SupernoteModule.Lib Function

variable {state : State} {history : List Event}

/-! ### What a history says -/

/-- The sessions that `nativeInstall` has returned. -/
def sessions (history : List Event) : List Int :=
  history.filterMap fun
    | .nativeInstall _ installed => if installed = 0 then none else some installed
    | _ => none

/-- The sessions that have been passed to `nativeInvalidate`. -/
def passed (history : List Event) : List Int :=
  history.filterMap fun
    | .nativeInvalidate sessionId => some sessionId
    | _ => none

/-- What must have happened before an event: nothing is installed after an invalidation, or beside a
session, and a session is invalidated that has been installed, after an invalidation and once. -/
def Allowed (before : List Event) : Event → Prop
  | .nativeInstall _ _ => .invalidated ∉ before ∧ sessions before = []
  | .invalidated => True
  | .nativeInvalidate sessionId =>
      .invalidated ∈ before ∧ sessionId ∈ sessions before ∧ sessionId ∉ passed before

theorem sessions_concat {event : Event} :
    sessions (history ++ [event]) = sessions history ++ sessions [event] :=
  List.filterMap_append

theorem passed_concat {event : Event} :
    passed (history ++ [event]) = passed history ++ passed [event] :=
  List.filterMap_append

theorem sessions_installed {runtimePointer installed : Int} (hinstalled : installed ≠ 0) :
    sessions [.nativeInstall runtimePointer installed] = [installed] := by
  simp [sessions, hinstalled]

/-! ### The invariant -/

/-- The attempt has begun and may still install a session. -/
def Attempt.InFlight : Attempt → Prop
  | .absent | .finished => False
  | .loading | .loadFailed | .queued | .abandoning | .installing _ => True

/-- The call holds a session that it has not passed on yet. -/
def Invalidation.Holds (invalidation : Invalidation) : Prop :=
  ∃ sessionId, invalidation = .passing sessionId

/-- No call of `invalidate` has got to its block. -/
structure Untouched (state : State) (history : List Event) : Prop where
  unheard : .invalidated ∉ history
  unpassed : passed history = []
  vacant : Vacant Invalidation.Holds state.invalidations

/-- How far a module has come. -/
inductive Stage (state : State) (history : List Event) : Prop where
  | idle : state.lifecycleState = .new → state.sessionId = 0 → sessions history = [] →
      Vacant Attempt.InFlight state.attempts → Untouched state history → Stage state history
  | pending : state.lifecycleState = .installPending → state.sessionId = 0 →
      sessions history = [] → AtMostOne Attempt.InFlight state.attempts →
      Occupied Attempt.InFlight state.attempts → Untouched state history → Stage state history
  | active : state.lifecycleState = .active → state.sessionId ≠ 0 →
      sessions history = [state.sessionId] → Vacant Attempt.InFlight state.attempts →
      Untouched state history → Stage state history
  | retiring (invalidation : Nat) (sessionId : Int) : state.lifecycleState = .invalidated →
      state.sessionId = 0 → .invalidated ∈ history → sessions history = [sessionId] →
      passed history = [] → state.invalidations invalidation = .passing sessionId →
      AtMostOne Invalidation.Holds state.invalidations → Stage state history
  | retired : state.lifecycleState = .invalidated → state.sessionId = 0 →
      .invalidated ∈ history → passed history = sessions history → (sessions history).Nodup →
      Vacant Invalidation.Holds state.invalidations → Stage state history

structure Inv (state : State) (history : List Event) : Prop where
  stage : Stage state history
  ordered : Ordered Allowed history

section Steps

variable {attempt invalidation : Nat}

/-- An attempt begins, or finds that there is nothing to do. -/
theorem Stage.initialize_ (hstage : Stage state history)
    (habsent : state.attempts attempt = .absent) : Stage (state.initialize_ attempt) history := by
  have hidle : ¬ (state.attempts attempt).InFlight := by
    rw [habsent]
    exact id
  have hfinished : ¬ Attempt.finished.InFlight := id
  rw [State.initialize_]
  cases hstage with
  | idle hnew hsession hsessions hvacant huntouched =>
      rw [if_neg (not_not.mpr hnew)]
      exact .pending rfl hsession hsessions hvacant.atMostOne_update
        (occupied_update True.intro) ⟨huntouched.1, huntouched.2, huntouched.3⟩
  | pending hpending hsession hsessions hone hsome huntouched =>
      rw [if_pos (by rw [hpending]; decide)]
      exact .pending hpending hsession hsessions (hone.update_of_not hfinished)
        (hsome.update_of_not hidle) ⟨huntouched.1, huntouched.2, huntouched.3⟩
  | active hactive hsession hsessions hvacant huntouched =>
      rw [if_pos (by rw [hactive]; decide)]
      exact .active hactive hsession hsessions (hvacant.update_of_not hfinished)
        ⟨huntouched.1, huntouched.2, huntouched.3⟩
  | retiring invalidation sessionId hinvalidated hsession hheard hsessions hpassed hholds hone =>
      rw [if_pos (by rw [hinvalidated]; decide)]
      exact .retiring invalidation sessionId hinvalidated hsession hheard hsessions hpassed hholds
        hone
  | retired hinvalidated hsession hheard hpassed honce hvacant =>
      rw [if_pos (by rw [hinvalidated]; decide)]
      exact .retired hinvalidated hsession hheard hpassed honce hvacant

/-- An attempt goes on. -/
theorem Stage.setAttempt (hstage : Stage state history) {point : Attempt}
    (hflight : (state.attempts attempt).InFlight) (hpoint : point.InFlight) :
    Stage (state.setAttempt attempt point) history := by
  cases hstage with
  | idle _ _ _ hvacant _ => exact absurd hflight (hvacant attempt)
  | active _ _ _ hvacant _ => exact absurd hflight (hvacant attempt)
  | pending hpending hsession hsessions hone _ huntouched =>
      exact .pending hpending hsession hsessions (hone.update_of_holds hflight)
        (occupied_update hpoint) ⟨huntouched.1, huntouched.2, huntouched.3⟩
  | retiring invalidation sessionId hinvalidated hsession hheard hsessions hpassed hholds hone =>
      exact .retiring invalidation sessionId hinvalidated hsession hheard hsessions hpassed hholds
        hone
  | retired hinvalidated hsession hheard hpassed honce hvacant =>
      exact .retired hinvalidated hsession hheard hpassed honce hvacant

/-- An attempt that fails makes room for another one. -/
theorem Stage.abandonPendingInstall (hstage : Stage state history)
    (hflight : (state.attempts attempt).InFlight) :
    Stage (state.abandonPendingInstall attempt) history := by
  have hfinished : ¬ Attempt.finished.InFlight := id
  rw [State.abandonPendingInstall]
  cases hstage with
  | idle _ _ _ hvacant _ => exact absurd hflight (hvacant attempt)
  | active _ _ _ hvacant _ => exact absurd hflight (hvacant attempt)
  | pending hpending hsession hsessions hone _ huntouched =>
      rw [if_pos hpending]
      exact .idle rfl hsession hsessions (hone.vacant_update hflight hfinished)
        ⟨huntouched.1, huntouched.2, huntouched.3⟩
  | retiring invalidation sessionId hinvalidated hsession hheard hsessions hpassed hholds hone =>
      rw [if_neg (by rw [hinvalidated]; decide)]
      exact .retiring invalidation sessionId hinvalidated hsession hheard hsessions hpassed hholds
        hone
  | retired hinvalidated hsession hheard hpassed honce hvacant =>
      rw [if_neg (by rw [hinvalidated]; decide)]
      exact .retired hinvalidated hsession hheard hpassed honce hvacant

theorem Untouched.concat (huntouched : Untouched state history) {event : Event}
    (hevent : event ≠ .invalidated) (hpassed : passed [event] = []) :
    Untouched state (history ++ [event]) where
  unheard := by
    rw [List.mem_append, List.mem_singleton, not_or]
    exact ⟨huntouched.unheard, Ne.symm hevent⟩
  unpassed := by rw [passed_concat, huntouched.unpassed, hpassed, List.append_nil]
  vacant := huntouched.vacant

/-- The installation either ends the attempt without a session, or with the first one. -/
theorem Inv.install (hinv : Inv state history) {runtimePointer installed : Int}
    (hinstalling : state.attempts attempt = .installing runtimePointer) :
    Inv (state.install attempt runtimePointer installed).1
        (history ++ (state.install attempt runtimePointer installed).2) := by
  have hflight : (state.attempts attempt).InFlight := by
    rw [hinstalling]
    exact True.intro
  have hfinished : ¬ Attempt.finished.InFlight := id
  rw [State.install]
  cases hinv.stage with
  | idle _ _ _ hvacant _ => exact absurd hflight (hvacant attempt)
  | active _ _ _ hvacant _ => exact absurd hflight (hvacant attempt)
  | pending hpending hsession hsessions hone _ huntouched =>
      have hvacant := hone.vacant_update hflight hfinished
      have hordered : Ordered Allowed (history ++ [.nativeInstall runtimePointer installed]) :=
        hinv.ordered.concat ⟨huntouched.unheard, hsessions⟩
      have hlater := @Untouched.concat _ _ huntouched (.nativeInstall runtimePointer installed)
        (fun hsame => by cases hsame) rfl
      rw [if_neg (not_not.mpr hpending)]
      dsimp only
      by_cases hfailed : installed = 0
      · rw [if_pos hfailed]
        have hnone : sessions (history ++ [.nativeInstall runtimePointer installed]) = [] := by
          rw [sessions_concat, hsessions, hfailed]
          rfl
        exact ⟨.idle rfl hsession hnone hvacant ⟨hlater.1, hlater.2, hlater.3⟩, hordered⟩
      · rw [if_neg hfailed]
        have hsome : sessions (history ++ [.nativeInstall runtimePointer installed]) =
            [installed] := by
          rw [sessions_concat, hsessions, sessions_installed hfailed, List.nil_append]
        exact ⟨.active rfl hfailed hsome hvacant ⟨hlater.1, hlater.2, hlater.3⟩, hordered⟩
  | retiring invalidation sessionId hinvalidated hsession hheard hsessions hpassed hholds hone =>
      rw [if_pos (by rw [hinvalidated]; decide), List.append_nil]
      exact ⟨.retiring invalidation sessionId hinvalidated hsession hheard hsessions hpassed hholds
        hone, hinv.ordered⟩
  | retired hinvalidated hsession hheard hpassed honce hvacant =>
      rw [if_pos (by rw [hinvalidated]; decide), List.append_nil]
      exact ⟨.retired hinvalidated hsession hheard hpassed honce hvacant, hinv.ordered⟩

theorem sessions_invalidated : sessions (history ++ [.invalidated]) = sessions history := by
  rw [sessions_concat]
  exact List.append_nil _

theorem passed_invalidated : passed (history ++ [.invalidated]) = passed history := by
  rw [passed_concat]
  exact List.append_nil _

/-- The first call of `invalidate` that finds a session takes it. -/
theorem Inv.invalidate (hinv : Inv state history)
    (habsent : state.invalidations invalidation = .absent) :
    Inv (state.invalidate invalidation).1 (history ++ (state.invalidate invalidation).2) := by
  have hidle : ¬ (state.invalidations invalidation).Holds := by
    rw [habsent]
    rintro ⟨_, hpassing⟩
    cases hpassing
  have hreturned : ¬ Invalidation.returned.Holds := by
    rintro ⟨_, hpassing⟩
    cases hpassing
  have hheard : Event.invalidated ∈ history ++ [.invalidated] :=
    List.mem_append_right _ (List.mem_singleton_self _)
  refine ⟨?_, hinv.ordered.concat True.intro⟩
  rw [State.invalidate]
  dsimp only
  -- Without a session the call returns at once.
  have hquick : ∀ {point : Invalidation}, state.sessionId = 0 →
      (if state.sessionId ≠ 0 then Invalidation.passing state.sessionId else .returned) = point →
        point = .returned := by
    intro point hzero hpoint
    rw [if_neg (not_not.mpr hzero)] at hpoint
    exact hpoint.symm
  cases hinv.stage with
  | idle _ hsession hsessions _ huntouched =>
      rw [hquick hsession rfl]
      refine .retired rfl rfl hheard ?_ ?_ (huntouched.vacant.update_of_not hreturned)
      · rw [sessions_invalidated, passed_invalidated, hsessions, huntouched.unpassed]
      · rw [sessions_invalidated, hsessions]
        exact List.nodup_nil
  | pending _ hsession hsessions _ _ huntouched =>
      rw [hquick hsession rfl]
      refine .retired rfl rfl hheard ?_ ?_ (huntouched.vacant.update_of_not hreturned)
      · rw [sessions_invalidated, passed_invalidated, hsessions, huntouched.unpassed]
      · rw [sessions_invalidated, hsessions]
        exact List.nodup_nil
  | active _ hsession hsessions _ huntouched =>
      rw [if_pos hsession]
      refine .retiring invalidation state.sessionId rfl rfl hheard ?_ ?_ (update_self _ _ _)
        huntouched.vacant.atMostOne_update
      · rw [sessions_invalidated, hsessions]
      · rw [passed_invalidated, huntouched.unpassed]
  | retiring holder sessionId _ hsession _ hsessions hpassed hholds hone =>
      rw [hquick hsession rfl]
      have hne : holder ≠ invalidation := by
        rintro rfl
        exact hidle ⟨sessionId, hholds⟩
      refine .retiring holder sessionId rfl rfl hheard ?_ ?_ ?_ (hone.update_of_not hreturned)
      · rw [sessions_invalidated, hsessions]
      · rw [passed_invalidated, hpassed]
      · exact (update_of_ne hne _ _).trans hholds
  | retired _ hsession _ hpassed honce hvacant =>
      rw [hquick hsession rfl]
      refine .retired rfl rfl hheard ?_ ?_ (hvacant.update_of_not hreturned)
      · rw [sessions_invalidated, passed_invalidated, hpassed]
      · rwa [sessions_invalidated]

/-- The call that has taken the session passes it on. -/
theorem Inv.nativeInvalidate (hinv : Inv state history) {sessionId : Int}
    (hpassing : state.invalidations invalidation = .passing sessionId) :
    Inv (state.nativeInvalidate invalidation sessionId).1
      (history ++ (state.nativeInvalidate invalidation sessionId).2) := by
  have hholds : (state.invalidations invalidation).Holds := ⟨sessionId, hpassing⟩
  have hreturned : ¬ Invalidation.returned.Holds := by
    rintro ⟨_, hsome⟩
    cases hsome
  rw [State.nativeInvalidate]
  cases hinv.stage with
  | idle _ _ _ _ huntouched => exact absurd hholds (huntouched.vacant invalidation)
  | pending _ _ _ _ _ huntouched => exact absurd hholds (huntouched.vacant invalidation)
  | active _ _ _ _ huntouched => exact absurd hholds (huntouched.vacant invalidation)
  | retired _ _ _ _ _ hvacant => exact absurd hholds (hvacant invalidation)
  | retiring holder held hinvalidated hsession hheard hsessions hpassed hholder hone =>
      obtain rfl := hone hholds ⟨held, hholder⟩
      obtain rfl := Invalidation.passing.inj (hpassing.symm.trans hholder)
      have hnow : sessions (history ++ [.nativeInvalidate sessionId]) = [sessionId] := by
        rw [sessions_concat, hsessions]
        rfl
      constructor
      · refine .retired hinvalidated hsession (List.mem_append_left _ hheard) ?_ ?_
          (hone.vacant_update hholds hreturned)
        · rw [hnow, passed_concat, hpassed]
          rfl
        · rw [hnow]
          exact List.nodup_singleton _
      · apply hinv.ordered.concat
        refine ⟨hheard, ?_, ?_⟩
        · rw [hsessions]
          exact List.mem_singleton_self _
        · rw [hpassed]
          exact List.not_mem_nil

end Steps

/-! ### Every interleaving -/

theorem inv_invariant : lifecycleMachine.Invariant Inv where
  init := ⟨.idle rfl rfl rfl (fun _ hflight => hflight)
    ⟨List.not_mem_nil, rfl, fun _ ⟨_, hpassing⟩ => by cases hpassing⟩, Ordered.nil⟩
  step label state history hinv henabled := by
    cases label with
    | initialize_ attempt =>
        exact Machine.keeps_of_silent rfl ⟨hinv.stage.initialize_ henabled, hinv.ordered⟩
    | loadNativeLibrary attempt loaded =>
        have hflight : (state.attempts attempt).InFlight := by
          rw [show state.attempts attempt = .loading from henabled]
          exact True.intro
        refine Machine.keeps_of_silent rfl ⟨hinv.stage.setAttempt hflight ?_, hinv.ordered⟩
        cases loaded <;> exact True.intro
    | giveUp attempt =>
        have hflight : (state.attempts attempt).InFlight := by
          rw [show state.attempts attempt = .loadFailed from henabled]
          exact True.intro
        exact Machine.keeps_of_silent rfl
          ⟨hinv.stage.abandonPendingInstall hflight, hinv.ordered⟩
    | run attempt context =>
        have hflight : (state.attempts attempt).InFlight := by
          rw [show state.attempts attempt = .queued from henabled]
          exact True.intro
        refine Machine.keeps_of_silent rfl ⟨hinv.stage.setAttempt hflight ?_, hinv.ordered⟩
        split_ifs <;> exact True.intro
    | abandonPendingInstall attempt =>
        have hflight : (state.attempts attempt).InFlight := by
          rw [show state.attempts attempt = .abandoning from henabled]
          exact True.intro
        exact Machine.keeps_of_silent rfl
          ⟨hinv.stage.abandonPendingInstall hflight, hinv.ordered⟩
    | install attempt installed =>
        obtain ⟨runtimePointer, hinstalling⟩ := henabled
        change Inv (Label.step state (.install attempt installed)).1
          (history ++ (Label.step state (.install attempt installed)).2)
        rw [Label.step, hinstalling]
        exact hinv.install hinstalling
    | invalidate invalidation => exact hinv.invalidate henabled
    | nativeInvalidate invalidation =>
        obtain ⟨sessionId, hpassing⟩ := henabled
        change Inv (Label.step state (.nativeInvalidate invalidation)).1
          (history ++ (Label.step state (.nativeInvalidate invalidation)).2)
        rw [Label.step, hpassing]
        exact hinv.nativeInvalidate hpassing

/-- How many steps an attempt has before it at most. -/
def Attempt.remaining : Attempt → Nat
  | .absent | .finished => 0
  | .loading => 3
  | .queued => 2
  | .loadFailed | .abandoning | .installing _ => 1

/-- What holds of a module after every run. An attempt that is over and has left no session has
failed: it is no longer in flight, and no other was beside it. -/
structure Contract (state : State) (history : List Event) : Prop where
  ordered : Ordered Allowed history
  retired : .invalidated ∈ history → ∀ sessionId ∈ sessions history,
    (passed history).count sessionId = 1 ∧ Vacant Invalidation.Holds state.invalidations ∨
      (passed history).count sessionId = 0 ∧
        ∃! invalidation, state.invalidations invalidation = .passing sessionId
  single : .invalidated ∉ history → AtMostOne Attempt.InFlight state.attempts
  advances : ∀ attempt, (state.attempts attempt).InFlight → ∃ label : Label,
    label.enabled state ∧
      ((label.step state).1.attempts attempt).remaining < (state.attempts attempt).remaining
  reinstallable : .invalidated ∉ history → Vacant Attempt.InFlight state.attempts →
    sessions history = [] → state.lifecycleState = .new ∧
      ∀ attempt, (state.initialize_ attempt).attempts attempt = .loading
  settled : .invalidated ∉ history → Vacant Attempt.InFlight state.attempts →
    sessions history ≠ [] →
      state.lifecycleState = .active ∧ sessions history = [state.sessionId]

theorem initialize_loading (hnew : state.lifecycleState = .new) (attempt : Nat) :
    (state.initialize_ attempt).attempts attempt = .loading := by
  rw [State.initialize_, if_neg (not_not.mpr hnew)]
  exact update_self _ _ _

/-- An attempt in flight is never stuck: whatever it has met with, it has a next step. -/
theorem exists_advance {attempt : Nat} (hflight : (state.attempts attempt).InFlight) :
    ∃ label : Label, label.enabled state ∧
      ((label.step state).1.attempts attempt).remaining < (state.attempts attempt).remaining := by
  have hset : ∀ (other : State) (point : Attempt),
      (other.setAttempt attempt point).attempts attempt = point :=
    fun _ _ => update_self _ _ _
  cases hpoint : state.attempts attempt with
  | absent =>
      rw [hpoint] at hflight
      exact hflight.elim
  | finished =>
      rw [hpoint] at hflight
      exact hflight.elim
  | loading =>
      refine ⟨.loadNativeLibrary attempt true, hpoint, ?_⟩
      rw [Label.step, State.loadNativeLibrary, hset]
      decide
  | loadFailed =>
      refine ⟨.giveUp attempt, hpoint, ?_⟩
      rw [Label.step, State.abandonPendingInstall, hset]
      decide
  | queued =>
      refine ⟨.run attempt ⟨0, false, false⟩, hpoint, ?_⟩
      rw [Label.step, State.run, hset]
      decide
  | abandoning =>
      refine ⟨.abandonPendingInstall attempt, hpoint, ?_⟩
      rw [Label.step, State.abandonPendingInstall, hset]
      decide
  | installing runtimePointer =>
      refine ⟨.install attempt 0, ⟨runtimePointer, hpoint⟩, ?_⟩
      rw [Label.step, hpoint]
      dsimp only [State.install]
      split_ifs <;> exact lt_of_eq_of_lt (congrArg Attempt.remaining (hset _ _)) Nat.one_pos

theorem Stage.single (hstage : Stage state history) (hunheard : .invalidated ∉ history) :
    AtMostOne Attempt.InFlight state.attempts := by
  cases hstage with
  | idle _ _ _ hvacant => exact hvacant.atMostOne
  | pending _ _ _ hone => exact hone
  | active _ _ _ hvacant => exact hvacant.atMostOne
  | retiring _ _ _ _ hheard => exact absurd hheard hunheard
  | retired _ _ hheard => exact absurd hheard hunheard

/-- **A module installs one session at most and passes it on once.** Nothing is installed after an
invalidation or beside a session; a session goes to `nativeInvalidate` after an invalidation, once
it has got there, and only once. An attempt always comes to its end, and when none is under way and
no session was installed, the module is as it was at the start and the next call begins another one.
-/
theorem lifecycle_contract (hreach : lifecycleMachine.Reaches state history) :
    Contract state history := by
  have hinv := hreach.invariant inv_invariant
  refine ⟨hinv.ordered, ?_, ?_, ?_, ?_, ?_⟩
  · intro hheard sessionId hsession
    cases hinv.stage with
    | idle _ _ _ _ huntouched => exact absurd hheard huntouched.unheard
    | pending _ _ _ _ _ huntouched => exact absurd hheard huntouched.unheard
    | active _ _ _ _ huntouched => exact absurd hheard huntouched.unheard
    | retiring invalidation held _ _ _ hsessions hpassed hholds hone =>
        rw [hsessions] at hsession
        obtain rfl := List.mem_singleton.mp hsession
        rw [hpassed]
        exact .inr ⟨rfl, invalidation, hholds, fun other hother => hone ⟨_, hother⟩ ⟨_, hholds⟩⟩
    | retired _ _ _ hpassed honce hvacant =>
        rw [hpassed]
        exact .inl ⟨List.count_eq_one_of_mem honce hsession, hvacant⟩
  · exact hinv.stage.single
  · intro attempt hflight
    exact exists_advance hflight
  · intro hunheard hnone hsessions
    cases hinv.stage with
    | idle hnew => exact ⟨hnew, initialize_loading hnew⟩
    | pending _ _ _ _ hsome =>
        obtain ⟨attempt, hflight⟩ := hsome
        exact absurd hflight (hnone attempt)
    | active _ _ hinstalled =>
        rw [hinstalled] at hsessions
        exact absurd hsessions (List.cons_ne_nil _ _)
    | retiring _ _ _ _ hheard => exact absurd hheard hunheard
    | retired _ _ hheard => exact absurd hheard hunheard
  · intro hunheard hnone hsessions
    cases hinv.stage with
    | idle _ _ hempty => exact absurd hempty hsessions
    | pending _ _ hempty => exact absurd hempty hsessions
    | active hactive _ hinstalled => exact ⟨hactive, hinstalled⟩
    | retiring _ _ _ _ hheard => exact absurd hheard hunheard
    | retired _ _ hheard => exact absurd hheard hunheard

/-- An attempt that finds no loader, a second one that installs, and an invalidation that takes the
session. -/
theorem lifecycle_contract_installThenInvalidate :
    ∃ state history, lifecycleMachine.Reaches state history ∧ passed history = [7] ∧
      Contract state history ∧
      ∃ failed, lifecycleMachine.Reaches failed [] ∧ failed.attempts 0 = .finished ∧
        Contract failed [] := by
  have hfirst := @Machine.Reaches.step _ _ _ lifecycleMachine _ _ (Label.initialize_ 0) .init rfl
  have hloaded := hfirst.step (Label.loadNativeLibrary 0 true) rfl
  have hempty := hloaded.step (Label.run 0 ⟨1, false, true⟩) rfl
  have hfailed := hempty.step (Label.abandonPendingInstall 0) rfl
  have hinitialize := hfailed.step (Label.initialize_ 1) rfl
  have hload := hinitialize.step (Label.loadNativeLibrary 1 true) rfl
  have hrun := hload.step (Label.run 1 ⟨1, true, true⟩) rfl
  have hinstall := hrun.step (Label.install 1 7) ⟨1, rfl⟩
  have hinvalidate := hinstall.step (Label.invalidate 0) rfl
  have hpass := hinvalidate.step (Label.nativeInvalidate 0) ⟨7, rfl⟩
  exact ⟨_, _, hpass, rfl, lifecycle_contract hpass, _, hfailed, rfl, lifecycle_contract hfailed⟩

end SupernoteModule.Runtime.ModuleLifecycle
