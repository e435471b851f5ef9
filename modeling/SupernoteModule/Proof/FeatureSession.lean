import SupernoteModule.Spec.OperationLifecycle

/-!
# The feature session keeps its promise

Seen through the winners of its operations and the part each call plays for them, every step of the
session is a step of the lifecycle or invisible, so the lifecycle's guarantees hold of the session.
-/

namespace SupernoteModule.Runtime.FeatureSession

open SupernoteModule.Lib SupernoteModule.Spec Function

variable {Work Hook : Type*}

/-- The part a call plays for the operations. -/
def Call.role : Call Hook → OperationLifecycle.Role
  | .absent | .scheduling _ | .posted _ | .called _ | .returned => .idle
  | .claimed operation | .completing operation => .owner operation .completing false
  | .looping _ => .closer
  | .popped runtimeTeardown operation => .popped operation (outcomeOf runtimeTeardown)
  | .requesting runtimeTeardown operation | .taking runtimeTeardown operation
  | .running runtimeTeardown operation _ | .releasing runtimeTeardown operation
  | .rejecting runtimeTeardown operation | .handing runtimeTeardown operation _ =>
      .owner operation (outcomeOf runtimeTeardown) true
  | .drained => .drained

def view (state : State Work Hook) : OperationLifecycle.State where
  state := state.state
  pending := state.pending
  winners := state.winnerOf
  nextId := state.nextId
  roles := fun call => (state.calls call).role

variable {state : State Work Hook} {history : List Event} {call operation : Nat}
  {runtimeTeardown : Bool}

theorem roles_update (calls : Nat → Call Hook) (call : Nat) (point : Call Hook) :
    (fun other => (update calls call point other).role) =
      update (fun other => (calls other).role) call point.role :=
  comp_update Call.role calls call point

theorem view_setCall (state : State Work Hook) (call : Nat) (point : Call Hook) :
    view (state.setCall call point) = (view state).setRole call point.role := by
  rw [view, State.setCall, OperationLifecycle.State.setRole, roles_update]
  rfl

/-- A call that moves on without changing its part is not seen. -/
theorem view_setCall_same {point : Call Hook} (hrole : (state.calls call).role = point.role) :
    view (state.setCall call point) = view state := by
  rw [view_setCall, OperationLifecycle.State.setRole, ← hrole]
  exact congrArg (fun roles => { view state with roles := roles }) (update_eq_self call _)

/-- What an operation holds besides its winner is not seen. -/
theorem view_modify {change : PendingOperation Work Hook → PendingOperation Work Hook}
    (hchange : ∀ operation, (change operation).winner = operation.winner) :
    view (state.modify operation change) = view state := by
  have hwinners : (state.modify operation change).winnerOf = state.winnerOf := by
    funext other
    change (update state.operations operation _ other).map (·.winner) =
      (state.operations other).map (·.winner)
    rcases eq_or_ne other operation with rfl | hne
    · rw [update_self, Option.map_map]
      exact congrArg (fun f => (state.operations other).map f) (funext hchange)
    · rw [update_of_ne hne]
  exact congrArg (fun winners => { view state with winners := winners }) hwinners

/-- A call that moves on within its part may also touch what an operation holds. -/
theorem view_modify_setCall {change : PendingOperation Work Hook → PendingOperation Work Hook}
    {point : Call Hook} (hchange : ∀ operation, (change operation).winner = operation.winner)
    (hrole : (state.calls call).role = point.role) :
    view ((state.modify operation change).setCall call point) = view state :=
  Eq.trans (view_setCall_same hrole) (view_modify hchange)

theorem winnerOf_update (operations : Nat → Option (PendingOperation Work Hook)) (operation : Nat)
    (held : PendingOperation Work Hook) :
    (fun other => (update operations operation (some held) other).map (·.winner)) =
      update (fun other => (operations other).map (·.winner)) operation (some held.winner) :=
  comp_update (Option.map fun held : PendingOperation Work Hook => held.winner) operations
    operation (some held)

/-! ### Exchanges -/

theorem exchange_pending (winner : OperationWinner)
    (hpending : state.winnerOf operation = some .pending) :
    ∃ next, state.exchange operation winner = (true, next) ∧
      view next = (view state).assign operation winner ∧ next.calls = state.calls := by
  obtain ⟨accepted, haccepted, hwinner⟩ := Option.map_eq_some_iff.mp hpending
  refine ⟨{ state with
    operations := update state.operations operation (some { accepted with winner := winner }) },
    ?_, ?_, rfl⟩
  · simp only [State.exchange, haccepted, Option.map_some,
      PendingOperation.exchange_pending hwinner]
  · exact congrArg (fun winners => { view state with winners := winners })
      (winnerOf_update state.operations operation { accepted with winner := winner })

theorem exchange_decided {winner : OperationWinner}
    (hdecided : state.winnerOf operation ≠ some .pending) :
    state.exchange operation winner = (false, state) := by
  cases haccepted : state.operations operation with
  | none => simp only [State.exchange, haccepted, Option.map_none]
  | some accepted =>
      have hne : accepted.winner ≠ .pending := by
        rintro h
        exact hdecided (by rw [State.winnerOf, haccepted, Option.map_some, h])
      simp only [State.exchange, haccepted, Option.map_some, PendingOperation.exchange_of_ne hne]

/-- A completing claim decides a pending operation of an active session, and does nothing else. -/
theorem claimCompleting_cases (state : State Work Hook) (operation : Nat) :
    (state.state = .active ∧ state.winnerOf operation = some .pending ∧
      ∃ next, state.claimCompleting operation = (true, next) ∧
        view next = (view state).complete operation ∧ next.calls = state.calls) ∨
    state.claimCompleting operation = (false, state) := by
  by_cases hactive : state.state = .active
  · by_cases hpending : state.winnerOf operation = some .pending
    · obtain ⟨next, hexchange, hview, hcalls⟩ :=
        exchange_pending .completing hpending
      refine .inl ⟨hactive, hpending,
        { next.modify operation .clearHook with pending := next.pending.erase operation },
        ?_, ?_, hcalls⟩
      · rw [State.claimCompleting, if_pos hactive, hexchange]
      · have hcleared : view (next.modify operation .clearHook) = view next :=
          view_modify fun _ => rfl
        have hpendings : next.pending = state.pending := congrArg (·.pending) hview
        rw [hview] at hcleared
        rw [OperationLifecycle.State.complete, ← hcleared]
        exact congrArg (fun pending => { view (next.modify operation .clearHook) with
          pending := pending.erase operation }) hpendings
    · refine .inr ?_
      rw [State.claimCompleting, if_pos hactive, exchange_decided hpending]
  · exact .inr (if_neg hactive)

/-! ### The simulation -/

/-- The lifecycle has a step that is seen as this one, or this one is not seen. -/
def Simulated (state : State Work Hook) (run : State Work Hook × List Event) : Prop :=
  (view run.1 = view state ∧ run.2 = []) ∨
    ∃ label, OperationLifecycle.machine.enabled label (view state) ∧
      OperationLifecycle.machine.step label (view state) = (view run.1, run.2)

theorem Simulated.silent {next : State Work Hook} (hview : view next = view state) :
    Simulated state (next, []) :=
  .inl ⟨hview, rfl⟩

theorem Simulated.visible {next : State Work Hook} {events : List Event}
    (label : OperationLifecycle.Label)
    (henabled : OperationLifecycle.machine.enabled label (view state))
    (hview : (OperationLifecycle.machine.step label (view state)).1 = view next)
    (hevents : (OperationLifecycle.machine.step label (view state)).2 = events) :
    Simulated state (next, events) :=
  .inr ⟨label, henabled, Prod.ext hview hevents⟩

theorem simulated_emplace {rejection internalCompletion : Bool}
    (hactive : state.state = .active) :
    Simulated state (state.emplace rejection internalCompletion, []) := by
  have hwinners := winnerOf_update state.operations state.nextId
    (.create rejection internalCompletion)
  refine .visible .accept hactive ?_ rfl
  exact congrArg (fun winners => { view (state.emplace rejection internalCompletion) with
    winners := winners }) hwinners.symm

theorem simulated_accept (state : State Work Hook) (rejection internalCompletion : Bool) :
    Simulated state (state.accept rejection internalCompletion, []) := by
  rw [State.accept]
  split
  next h => exact simulated_emplace h.1
  next => exact .silent rfl

theorem simulated_acceptFactory (state : State Work Hook) (rejection : Option Bool) :
    Simulated state (state.acceptFactory rejection, []) := by
  by_cases h : state.state = .active ∧ state.runtimeActive
  · cases rejection with
    | some rejection =>
        rw [State.acceptFactory.eq_def, if_pos h]
        exact simulated_emplace h.1
    | none =>
        rw [State.acceptFactory.eq_def, if_pos h]
        exact .visible .skipId trivial rfl rfl
  · rw [State.acceptFactory.eq_def, if_neg h]
    exact .silent rfl

theorem simulated_claimCallback (hcall : state.calls call = .called operation) :
    Simulated state (state.claimCallback call operation) := by
  have hidle : (state.calls call).role = .idle := by rw [hcall]; rfl
  rcases claimCompleting_cases state operation with
    ⟨hactive, hpending, next, hclaim, hview, _⟩ | hclaim
  · have hrun : state.claimCallback call operation =
        (next.setCall call (.claimed operation), [.decided operation .completing]) := by
      simp only [State.claimCallback, hclaim]
    rw [hrun]
    refine .visible (.complete call operation) ⟨hactive, hidle, hpending⟩ ?_ rfl
    rw [view_setCall, hview]
    rfl
  · have hrun : state.claimCallback call operation = (state.setCall call .returned, []) := by
      simp only [State.claimCallback, hclaim]
    rw [hrun]
    exact .silent (view_setCall_same hidle)

theorem simulated_claimInternalCompletion (state : State Work Hook) (operation : Nat) :
    Simulated state (state.claimInternalCompletion operation) := by
  rcases claimCompleting_cases state operation with
    ⟨hactive, hpending, next, hclaim, hview, _⟩ | hclaim
  · have hrun : state.claimInternalCompletion operation =
        (next.modify operation fun pending => pending.takeRejection.2,
          [.decided operation .completing, .outcome operation .internalClaimed]) := by
      simp only [State.claimInternalCompletion, hclaim]
    rw [hrun]
    refine .visible (.completeInternally operation) ⟨hactive, hpending⟩ ?_ rfl
    have hkept : view (next.modify operation fun pending => pending.takeRejection.2) = view next :=
      view_modify fun _ => rfl
    rw [hkept, hview]
    rfl
  · have hrun : state.claimInternalCompletion operation = (state, []) := by
      simp only [State.claimInternalCompletion, hclaim]
    rw [hrun]
    exact .silent rfl

theorem simulated_close (hcall : state.calls call = .absent) :
    Simulated state (state.close call runtimeTeardown, []) := by
  have hidle : (state.calls call).role = .idle := by rw [hcall]; rfl
  rw [State.close]
  split
  next hactive =>
    refine .visible (.close call) ⟨hactive, hidle⟩ ?_ rfl
    exact congrArg (fun s => { s with state := .closing })
      (view_setCall state call (.looping runtimeTeardown)).symm
  next => exact .silent (view_setCall_same hidle)

theorem outcomeOf_isCancellation (runtimeTeardown : Bool) :
    (outcomeOf runtimeTeardown).isCancellation = true := by
  cases runtimeTeardown <;> rfl

theorem simulated_pop (hcall : state.calls call = .looping runtimeTeardown)
    (hmem : operation ∈ state.pending) :
    Simulated state ({ state.setCall call (.popped runtimeTeardown operation) with
      pending := state.pending.erase operation }, []) := by
  have hrole : (state.calls call).role = .closer := by rw [hcall]; rfl
  refine .visible (.pop call operation (outcomeOf runtimeTeardown))
    ⟨hrole, hmem, outcomeOf_isCancellation runtimeTeardown⟩ ?_ rfl
  exact congrArg (fun s => { s with pending := state.pending.erase operation })
    (view_setCall state call (.popped runtimeTeardown operation)).symm

theorem simulated_claim (hcall : state.calls call = .popped runtimeTeardown operation) :
    Simulated state (state.claim call runtimeTeardown operation) := by
  have hrole : (state.calls call).role = .popped operation (outcomeOf runtimeTeardown) := by
    rw [hcall]
    rfl
  refine .inr ⟨.cancel call operation (outcomeOf runtimeTeardown), hrole, ?_⟩
  change (view state).cancel call operation _ = _
  by_cases hpending : state.winnerOf operation = some .pending
  · obtain ⟨next, hexchange, hview, _⟩ :=
      exchange_pending (outcomeOf runtimeTeardown) hpending
    have hrun : state.claim call runtimeTeardown operation =
        (next.setCall call (.requesting runtimeTeardown operation),
          [.decided operation (outcomeOf runtimeTeardown)]) := by
      simp only [State.claim, hexchange]
    rw [hrun, view_setCall, hview]
    exact if_pos hpending
  · have hrun : state.claim call runtimeTeardown operation =
        (state.setCall call (.looping runtimeTeardown), []) := by
      simp only [State.claim, exchange_decided hpending]
    rw [hrun, view_setCall]
    exact if_neg hpending

theorem simulated_handRejection {rejection : Bool}
    (hcall : state.calls call = .handing runtimeTeardown operation rejection) :
    Simulated state (state.handRejection call runtimeTeardown operation rejection) := by
  have hrole : (state.calls call).role =
      .owner operation (outcomeOf runtimeTeardown) true := by
    rw [hcall]
    rfl
  refine .visible (.settle call operation (outcomeOf runtimeTeardown) true
    (if !runtimeTeardown && state.runtimeActive && rejection then .rejectionHanded
      else .silentlyCancelled)) ⟨hrole, ?_⟩
    (view_setCall state call (.looping runtimeTeardown)).symm rfl
  cases runtimeTeardown
  · split <;> rfl
  · rfl

theorem simulation :
    Machine.Simulation (machine Work Hook) OperationLifecycle.machine view where
  init := rfl
  step label state henabled := by
    change Simulated state ((machine Work Hook).step label state)
    cases label with
    | accept rejection internalCompletion =>
        exact simulated_accept state rejection internalCompletion
    | acceptFactory rejection => exact simulated_acceptFactory state rejection
    | setWork operation work => exact .silent (view_modify fun _ => rfl)
    | setCancelHook operation hook =>
        refine .silent (view_modify fun pending => ?_)
        rw [PendingOperation.setCancelHook]
        split <;> rfl
    | invalidate => exact .silent rfl
    | scheduleCompletion call operation =>
        refine .silent (view_setCall_same ?_)
        rw [henabled.1]
        split <;> rfl
    | post call operation delivered =>
        refine .silent (view_setCall_same ?_)
        rw [show state.calls call = _ from henabled]
        cases delivered <;> rfl
    | callback call operation alive =>
        refine .silent (view_setCall_same ?_)
        rw [show state.calls call = _ from henabled]
        split <;> rfl
    | claimCallback call operation => exact simulated_claimCallback henabled
    | takeRejectionCallback call operation =>
        refine .silent (view_modify_setCall (fun _ => rfl) ?_)
        rw [show state.calls call = _ from henabled]
        rfl
    | runCompletion call operation =>
        have hrole : (state.calls call).role = .owner operation .completing false := by
          rw [show state.calls call = _ from henabled]
          rfl
        exact .visible (.settle call operation .completing false .bodyRan) ⟨hrole, rfl⟩
          (view_setCall state call .returned).symm rfl
    | claimInternalCompletion operation => exact simulated_claimInternalCompletion state operation
    | close call runtimeTeardown => exact simulated_close henabled
    | pop call runtimeTeardown operation => exact simulated_pop henabled.1 henabled.2
    | claim call runtimeTeardown operation => exact simulated_claim henabled
    | requestCancel call runtimeTeardown operation =>
        refine .silent (view_modify_setCall (fun _ => rfl) ?_)
        rw [show state.calls call = _ from henabled]
        rfl
    | takeHook call runtimeTeardown operation =>
        refine .silent (view_modify_setCall (fun _ => rfl) ?_)
        rw [show state.calls call = _ from henabled]
        cases (state.operations operation).bind (·.cancelHook) <;> rfl
    | runHook call runtimeTeardown operation hook =>
        refine .silent (view_setCall_same ?_)
        rw [show state.calls call = _ from henabled]
        rfl
    | takeInternalCompletion call runtimeTeardown operation =>
        refine .silent (view_modify_setCall (fun _ => rfl) ?_)
        rw [show state.calls call = _ from henabled]
        rfl
    | takeRejection call runtimeTeardown operation =>
        refine .silent (view_modify_setCall (fun _ => rfl) ?_)
        rw [show state.calls call = _ from henabled]
        rfl
    | handRejection call runtimeTeardown operation rejection =>
        exact simulated_handRejection henabled
    | drain call runtimeTeardown =>
        have hrole : (state.calls call).role = .closer := by
          rw [henabled.1]
          rfl
        exact .visible (.drain call) ⟨hrole, henabled.2⟩
          (view_setCall state call .drained).symm rfl
    | deactivate call =>
        have hrole : (state.calls call).role = .drained := by
          rw [show state.calls call = _ from henabled]
          rfl
        refine .visible (.deactivate call) hrole ?_ rfl
        exact congrArg (fun s => { s with state := .inactive })
          (view_setCall state call .returned).symm

/-- **Every accepted operation is decided once and settled at most once**, an inactive session has
decided them all, and from then on no operation is claimed for completion: a body that still starts
is that of an operation claimed while the session was active. -/
theorem operations_settled (hreach : (machine Work Hook).Reaches state history) :
    OperationLifecycle.Contract state.winnerOf state.pending state.state history ∧
      (state.state = .inactive → ∀ final events, (machine Work Hook).Run state final events →
        (∀ operation winner, .decided operation winner ∉ events) ∧
          ∀ operation, .outcome operation .bodyRan ∈ events →
            .decided operation .completing ∈ history) := by
  have hview := simulation.reaches hreach
  refine ⟨(hview.invariant OperationLifecycle.invariant).contract, ?_⟩
  intro hinactive final events hrun
  exact OperationLifecycle.late_events hview hinactive (simulation.run hrun)

/-- One operation completed by its callback, one claimed internally and one rejected by a close. -/
theorem operations_settled_closed :
    ∃ (state : State Nat Nat) (history : List Event),
      (machine Nat Nat).Reaches state history ∧ state.state = .inactive ∧
        outcomesOf 1 history = [.bodyRan] ∧ outcomesOf 2 history = [.internalClaimed] ∧
        outcomesOf 3 history = [.rejectionHanded] ∧
        OperationLifecycle.Contract state.winnerOf state.pending state.state history := by
  obtain ⟨state, history, hreach, hrun⟩ := Machine.exists_reaches_of_exec (m := machine Nat Nat)
    [.accept true false, .accept false true, .acceptFactory (some true), .scheduleCompletion 0 1,
      .post 0 1 true, .callback 0 1 true, .claimCallback 0 1, .takeRejectionCallback 0 1,
      .runCompletion 0 1, .claimInternalCompletion 2, .setCancelHook 3 8, .close 1 false,
      .pop 1 false 3, .claim 1 false 3, .requestCancel 1 false 3, .takeHook 1 false 3,
      .runHook 1 false 3 8, .takeInternalCompletion 1 false 3, .takeRejection 1 false 3,
      .handRejection 1 false 3 true, .drain 1 false, .deactivate 1]
    (p := fun state history => decide (state.state = .inactive ∧
      outcomesOf 1 history = [.bodyRan] ∧ outcomesOf 2 history = [.internalClaimed] ∧
      outcomesOf 3 history = [.rejectionHanded])) (by decide)
  obtain ⟨hstate, hfirst, hsecond, hthird⟩ := of_decide_eq_true hrun
  exact ⟨state, history, hreach, hstate, hfirst, hsecond, hthird, (operations_settled hreach).1⟩

/-- A callback that has claimed its operation may be overtaken by a whole `close`, and only then
start the body. -/
theorem body_starts_after_inactive :
    ¬ ∀ (state final : State Nat Nat) (history events : List Event),
      (machine Nat Nat).Reaches state history → state.state = .inactive →
        (machine Nat Nat).Run state final events →
          ∀ operation, .outcome operation .bodyRan ∉ events := by
  intro hclaim
  obtain ⟨state, history, hreach, hrun⟩ := Machine.exists_reaches_of_exec (m := machine Nat Nat)
    [.accept true false, .scheduleCompletion 0 1, .post 0 1 true, .callback 0 1 true,
      .claimCallback 0 1, .close 1 true, .drain 1 true, .deactivate 1, .takeRejectionCallback 0 1]
    (p := fun state _ => decide (state.state = .inactive ∧ state.calls 0 = .completing 1))
    (by decide)
  obtain ⟨hstate, hcall⟩ := of_decide_eq_true hrun
  have hbody : (machine Nat Nat).Run state (state.setCall 0 .returned)
      [.outcome 1 .bodyRan] := .step (Label.runCompletion 0 1) hcall (.done _)
  exact hclaim _ _ _ _ hreach hstate hbody 1 (List.mem_singleton_self _)

end SupernoteModule.Runtime.FeatureSession
