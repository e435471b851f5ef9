import SupernoteModule.Proof.FeatureSession

/-!
# What the session does to one operation

Whoever installs hooks on an operation needs to know what the other steps of its session can do to
it: a callback that follows the operation completes it and drops the hook, the closing call cancels
it and will then take the hook, and everything else leaves both alone.
-/

namespace SupernoteModule.Runtime.FeatureSession

open SupernoteModule.Lib SupernoteModule.Spec Function

variable {Work Hook : Type*}

/-- What a call is about to do with one operation: complete it, take its hook, or run the hook it
has taken. -/
inductive Stage (Hook : Type*) where
  | away
  | follows
  | willTake
  | runs (hook : Hook)

def Call.stage (operation : Nat) : Call Hook → Stage Hook
  | .scheduling followed | .posted followed | .called followed =>
      if followed = operation then .follows else .away
  | .requesting _ cancelled | .taking _ cancelled =>
      if cancelled = operation then .willTake else .away
  | .running _ cancelled hook => if cancelled = operation then .runs hook else .away
  | .absent | .claimed _ | .completing _ | .looping _ | .popped _ _ | .releasing _ _
  | .rejecting _ _ | .handing _ _ _ | .drained | .returned => .away

def State.stages (operation : Nat) (state : State Work Hook) (call : Nat) : Stage Hook :=
  (state.calls call).stage operation

/-- The winner of an accepted operation and the hook that is installed on it. -/
def State.held (operation : Nat) (state : State Work Hook) :
    Option (OperationWinner × Option Hook) :=
  (state.operations operation).map fun pending => (pending.winner, pending.cancelHook)

/-- A call keeps its stage, or gives up following the operation. -/
def Lapses (before after : Stage Hook) : Prop :=
  after = before ∨ before = .follows ∧ after = .away

/-- What a step of somebody else does to an operation. -/
inductive Observed (operation : Nat) (before after : State Work Hook) : Prop where
  | kept : after.held operation = before.held operation →
      (∀ call, Lapses (before.stages operation call) (after.stages operation call)) →
      Observed operation before after
  | completed (call : Nat) (hook : Option Hook) : before.stages operation call = .follows →
      before.held operation = some (.pending, hook) →
      after.held operation = some (.completing, none) →
      (∀ call, Lapses (before.stages operation call) (after.stages operation call)) →
      Observed operation before after
  | cancelled (call : Nat) (hook : Option Hook) (winner : OperationWinner) :
      before.stages operation call = .away →
      before.held operation = some (.pending, hook) →
      after.held operation = some (winner, hook) → winner.isCancellation = true →
      after.stages operation = update (before.stages operation) call .willTake →
      Observed operation before after

variable {state next : State Work Hook} {call operation other : Nat}

theorem Lapses.refl (stage : Stage Hook) : Lapses stage stage := .inl rfl

/-- A call that follows an operation may give that up. -/
theorem lapses_follows (followed : Nat) :
    Lapses (if followed = operation then .follows else (.away : Stage Hook)) .away := by
  split
  · exact .inr ⟨rfl, rfl⟩
  · exact .refl _

theorem stages_setCall (point : Call Hook) :
    (state.setCall call point).stages operation =
      update (state.stages operation) call (point.stage operation) :=
  comp_update (Call.stage operation) state.calls call point

theorem lapses_of_calls {point : Call Hook} (hcalls : next.calls = update state.calls call point)
    (hpoint : Lapses ((state.calls call).stage operation) (point.stage operation)) (other : Nat) :
    Lapses (state.stages operation other) (next.stages operation other) := by
  rw [State.stages, State.stages, hcalls]
  refine forall_update (p := fun other (point : Call Hook) =>
    Lapses ((state.calls other).stage operation) (point.stage operation)) hpoint ?_ other
  exact fun other _ => .refl _

theorem held_modify_of_ne {change : PendingOperation Work Hook → PendingOperation Work Hook}
    (hne : operation ≠ other) : (state.modify other change).held operation = state.held operation :=
  congrArg (Option.map _) (update_of_ne hne ..)

theorem held_modify {change : PendingOperation Work Hook → PendingOperation Work Hook}
    (hwinner : ∀ pending, (change pending).winner = pending.winner)
    (hhook : ∀ pending, (change pending).cancelHook = pending.cancelHook) :
    (state.modify other change).held operation = state.held operation := by
  by_cases h : operation = other
  · rw [h]
    change (update state.operations other _ other).map _ = (state.operations other).map _
    rw [update_self, Option.map_map]
    refine congrArg (fun f => (state.operations other).map f) (funext fun pending => ?_)
    exact Prod.ext (hwinner pending) (hhook pending)
  · exact held_modify_of_ne h

theorem held_update_self (operations : Nat → Option (PendingOperation Work Hook))
    (pending : PendingOperation Work Hook) (hstate : next.operations =
      update operations operation (some pending)) :
    next.held operation = some (pending.winner, pending.cancelHook) := by
  rw [State.held, hstate, update_self, Option.map_some]

/-- An exchange changes the winner of a pending operation, or nothing. -/
theorem exchange_cases (state : State Work Hook) (other : Nat) (winner : OperationWinner) :
    (∃ hook next, state.exchange other winner = (true, next) ∧
        state.held other = some (.pending, hook) ∧ next.held other = some (winner, hook) ∧
        (∀ operation, operation ≠ other → next.held operation = state.held operation) ∧
        next.calls = state.calls) ∨
      state.exchange other winner = (false, state) := by
  by_cases hpending : state.winnerOf other = some .pending
  · obtain ⟨pending, haccepted, hwinner⟩ := Option.map_eq_some_iff.mp hpending
    refine .inl ⟨pending.cancelHook, { state with
      operations := update state.operations other (some { pending with winner := winner }) },
      ?_, ?_, ?_, ?_, rfl⟩
    · simp only [State.exchange, haccepted, Option.map_some,
        PendingOperation.exchange_pending hwinner]
    · rw [State.held, haccepted, Option.map_some, hwinner]
    · exact held_update_self state.operations { pending with winner := winner } rfl
    · exact fun operation hne => congrArg (Option.map _) (update_of_ne hne ..)
  · exact .inr (exchange_decided hpending)

/-- A call that moves on may also touch what does not concern the operation. -/
theorem observed_of_held {point : Call Hook} (hheld : next.held operation = state.held operation)
    (hcalls : next.calls = update state.calls call point)
    (hpoint : Lapses ((state.calls call).stage operation) (point.stage operation)) :
    Observed operation state next :=
  .kept hheld (lapses_of_calls hcalls hpoint)

theorem observed_setCall {point : Call Hook}
    (hpoint : Lapses ((state.calls call).stage operation) (point.stage operation)) :
    Observed operation state (state.setCall call point) :=
  observed_of_held rfl rfl hpoint

theorem Observed.of_eq (hheld : next.held operation = state.held operation)
    (hcalls : next.calls = state.calls) : Observed operation state next :=
  .kept hheld fun other => .inl (by rw [State.stages, State.stages, hcalls])

/-- A completing claim by a callback that follows the claimed operation. -/
theorem observed_claimCallback (hcall : state.calls call = .called other) :
    Observed operation state (state.claimCallback call other).1 := by
  have hlapses : Lapses ((state.calls call).stage operation) .away := by
    rw [hcall]
    exact lapses_follows other
  have hreturned : Observed operation state (state.setCall call .returned) :=
    observed_setCall hlapses
  unfold State.claimCallback State.claimCompleting
  by_cases hactive : state.state = .active
  · rw [if_pos hactive]
    rcases exchange_cases state other .completing with
      ⟨hook, next, hexchange, hpending, hnext, hothers, hcalls⟩ | hexchange
    · rw [hexchange]
      have hstages : ∀ caller, Lapses (state.stages operation caller)
          ((next.setCall call (.claimed other)).stages operation caller) :=
        lapses_of_calls (congrArg (fun calls => update calls call _) hcalls) hlapses
      rcases eq_or_ne operation other with rfl | hne
      · refine .completed call hook ?_ hpending ?_ hstages
        · rw [State.stages, hcall, Call.stage, if_pos rfl]
        · obtain ⟨held, hheld, hwinner⟩ := Option.map_eq_some_iff.mp hnext
          change (update next.operations operation _ operation).map _ = _
          rw [update_self, hheld]
          exact congrArg (fun winner => some (winner, (none : Option Hook)))
            (Prod.ext_iff.mp hwinner).1
      · exact .kept ((held_modify_of_ne hne).trans (hothers operation hne)) hstages
    · rw [hexchange]
      exact hreturned
  · rw [if_neg hactive]
    exact hreturned

theorem observed_claimInternalCompletion (hne : operation ≠ other) :
    Observed operation state (state.claimInternalCompletion other).1 := by
  unfold State.claimInternalCompletion State.claimCompleting
  by_cases hactive : state.state = .active
  · rw [if_pos hactive]
    rcases exchange_cases state other .completing with
      ⟨hook, next, hexchange, _, _, hothers, hcalls⟩ | hexchange
    · rw [hexchange]
      refine .of_eq ?_ hcalls
      exact (held_modify_of_ne hne).trans ((held_modify_of_ne hne).trans (hothers operation hne))
    · rw [hexchange]
      exact .of_eq rfl rfl
  · rw [if_neg hactive]
    exact .of_eq rfl rfl

/-- The exchange of the closing call. -/
theorem observed_claim {runtimeTeardown : Bool}
    (hcall : state.calls call = .popped runtimeTeardown other) :
    Observed operation state (state.claim call runtimeTeardown other).1 := by
  unfold State.claim
  have haway : (state.calls call).stage operation = .away := by rw [hcall]; rfl
  rcases exchange_cases state other (outcomeOf runtimeTeardown) with
    ⟨hook, next, hexchange, hpending, hnext, hothers, hcalls⟩ | hexchange
  · rw [hexchange]
    rcases eq_or_ne operation other with rfl | hne
    · refine .cancelled call hook _ haway hpending hnext (outcomeOf_isCancellation _) ?_
      rw [stages_setCall, Call.stage, if_pos rfl]
      exact congrArg (fun stages => update stages call (.willTake : Stage Hook))
        (funext fun other => congrArg (Call.stage operation) (congrFun hcalls other))
    · have hmoved : (next.setCall call (.requesting runtimeTeardown other)).calls =
          update state.calls call (.requesting runtimeTeardown other) :=
        congrArg (fun calls => update calls call _) hcalls
      refine observed_of_held (hothers operation hne) hmoved ?_
      rw [haway, Call.stage, if_neg hne.symm]
      exact .refl _
  · rw [hexchange]
    refine observed_setCall ?_
    rw [haway]
    exact .refl _

theorem observed_emplace (rejection internalCompletion : Bool) (hne : operation ≠ state.nextId) :
    Observed operation state (state.emplace rejection internalCompletion) :=
  .of_eq (congrArg (Option.map _) (update_of_ne hne ..)) rfl

/-! ### What is left of the stages -/

theorem Lapses.runs_iff {before after : Stage Hook} (hlapses : Lapses before after) (hook : Hook) :
    after = .runs hook ↔ before = .runs hook := by
  rcases hlapses with rfl | ⟨rfl, rfl⟩
  · exact Iff.rfl
  · exact ⟨nofun, nofun⟩

/-- Nobody else starts or stops running a hook of the operation. -/
theorem Observed.runs_iff (hobserved : Observed operation state next) (call : Nat) (hook : Hook) :
    next.stages operation call = .runs hook ↔ state.stages operation call = .runs hook := by
  cases hobserved with
  | kept _ hstages | completed _ _ _ _ _ hstages => exact (hstages call).runs_iff hook
  | cancelled caller _ _ haway _ _ _ hstages =>
      rw [hstages]
      rcases eq_or_ne call caller with rfl | hne
      · rw [update_self, haway]
        exact ⟨nofun, nofun⟩
      · rw [update_of_ne hne]

theorem Observed.willTake (hobserved : Observed operation state next) {call : Nat}
    (hstage : state.stages operation call = .willTake) :
    next.stages operation call = .willTake := by
  cases hobserved with
  | kept _ hstages | completed _ _ _ _ _ hstages =>
      rcases hstages call with h | ⟨h, _⟩
      · rw [h, hstage]
      · rw [hstage] at h
        cases h
  | cancelled caller _ _ haway _ _ _ hstages =>
      rw [hstages]
      rcases eq_or_ne call caller with rfl | hne
      · rw [update_self]
      · rwa [update_of_ne hne]

theorem Observed.follows (hobserved : Observed operation state next) {call : Nat}
    (hstage : next.stages operation call = .follows) :
    state.stages operation call = .follows := by
  cases hobserved with
  | kept _ hstages | completed _ _ _ _ _ hstages =>
      rcases hstages call with h | ⟨h, _⟩
      · rwa [h] at hstage
      · exact h
  | cancelled caller _ _ haway _ _ _ hstages =>
      rw [hstages] at hstage
      rcases eq_or_ne call caller with rfl | hne
      · rw [update_self] at hstage
        cases hstage
      · rwa [update_of_ne hne] at hstage

/-! ### Installing and taking a hook -/

theorem held_modify_self {change : PendingOperation Work Hook → PendingOperation Work Hook}
    {pending : PendingOperation Work Hook} (haccepted : state.operations operation = some pending) :
    (state.modify operation change).held operation =
      some ((change pending).winner, (change pending).cancelHook) := by
  change (update state.operations operation _ operation).map _ = _
  rw [update_self, haccepted]
  rfl

/-- What `set_cancel_hook` does with a hook: it stores it while nobody has won, says that it has to
run at once after a cancellation, and drops it after a completion. -/
inductive Installation (operation : Nat) (hook : Hook) (before after : State Work Hook) :
    Option Hook → Prop where
  | stored (old : Option Hook) : before.held operation = some (.pending, old) →
      after.held operation = some (.pending, some hook) →
      Installation operation hook before after none
  | now (winner : OperationWinner) (old : Option Hook) :
      before.held operation = some (winner, old) → winner.isCancellation = true →
      after.held operation = before.held operation →
      Installation operation hook before after (some hook)
  | dropped (old : Option Hook) : before.held operation = some (.completing, old) →
      after.held operation = before.held operation →
      Installation operation hook before after none

theorem installation_setCancelHook (hook : Hook) (hknown : (state.held operation).isSome) :
    Installation operation hook state
      (state.modify operation fun pending => (pending.setCancelHook hook).2)
      ((state.operations operation).bind fun pending => (pending.setCancelHook hook).1) := by
  rw [State.held, Option.isSome_map] at hknown
  obtain ⟨pending, haccepted⟩ := Option.isSome_iff_exists.mp hknown
  have hheld : state.held operation = some (pending.winner, pending.cancelHook) := by
    rw [State.held, haccepted, Option.map_some]
  have hnext : (state.modify operation fun pending => (pending.setCancelHook hook).2).held
    operation =
      some ((pending.setCancelHook hook).2.winner, (pending.setCancelHook hook).2.cancelHook) :=
    held_modify_self haccepted
  rw [haccepted, Option.bind_some]
  rw [PendingOperation.setCancelHook] at hnext ⊢
  cases hwinner : pending.winner with
  | pending =>
      rw [if_pos hwinner, hwinner] at hnext
      rw [if_pos rfl]
      exact .stored pending.cancelHook (hwinner ▸ hheld) hnext
  | completing =>
      rw [if_neg (by rw [hwinner]; decide)] at hnext
      rw [if_neg (by decide)]
      exact .dropped pending.cancelHook (hwinner ▸ hheld) (hnext.trans hheld.symm)
  | cancelledByFeature | cancelledByRuntime =>
      rw [if_neg (by rw [hwinner]; decide)] at hnext
      rw [if_neg (by decide)]
      exact .now pending.winner pending.cancelHook hheld (by rw [hwinner]; rfl)
        (hnext.trans hheld.symm)

theorem held_takeHook {winner : OperationWinner} {hook : Option Hook}
    (hheld : state.held operation = some (winner, hook)) (runtimeTeardown : Bool) :
    (state.takeHook call runtimeTeardown operation).held operation = some (winner, none) := by
  obtain ⟨pending, haccepted, hpending⟩ := Option.map_eq_some_iff.mp hheld
  have hwinner : pending.winner = winner := (Prod.ext_iff.mp hpending).1
  refine (held_modify_self haccepted).trans ?_
  rw [← hwinner]
  rfl

/-- The call that takes the hook is the one that runs it. -/
theorem stages_takeHook {winner : OperationWinner} {hook : Option Hook}
    (hheld : state.held operation = some (winner, hook)) (runtimeTeardown : Bool) :
    (state.takeHook call runtimeTeardown operation).stages operation =
      update (state.stages operation) call (hook.elim .away .runs) := by
  obtain ⟨pending, haccepted, hpending⟩ := Option.map_eq_some_iff.mp hheld
  have hhook : (state.operations operation).bind (·.cancelHook) = hook := by
    rw [haccepted]
    exact (Prod.ext_iff.mp hpending).2
  refine (stages_setCall _).trans ?_
  rw [hhook]
  cases hook with
  | none => rfl
  | some hook => exact congrArg (update _ call) (if_pos rfl)

/-! ### Only accepted operations are followed -/

/-- Whoever follows an operation follows one that was accepted. -/
def State.FollowsAccepted (state : State Work Hook) : Prop :=
  ∀ operation call, state.stages operation call = .follows → operation < state.nextId

theorem State.FollowsAccepted.of_calls (hstate : state.FollowsAccepted)
    (hcalls : next.calls = state.calls) (hnext : state.nextId ≤ next.nextId) :
    next.FollowsAccepted := by
  intro operation call hstage
  rw [State.stages, hcalls] at hstage
  exact Nat.lt_of_lt_of_le (hstate operation call hstage) hnext

theorem State.FollowsAccepted.move (hstate : state.FollowsAccepted) {point : Call Hook}
    (hcalls : next.calls = update state.calls call point) (hnext : next.nextId = state.nextId)
    (hpoint : ∀ operation, point.stage operation = .follows →
      (state.calls call).stage operation = .follows ∨ operation < state.nextId) :
    next.FollowsAccepted := by
  intro operation other hstage
  rw [hnext]
  rw [State.stages, hcalls] at hstage
  revert hstage
  refine forall_update (p := fun _ (point : Call Hook) =>
    point.stage operation = .follows → operation < state.nextId) ?_ ?_ other
  · intro h
    exact (hpoint operation h).elim (hstate operation call) id
  · exact fun other _ h => hstate operation other h

theorem State.exchange_calls (other : Nat) (winner : OperationWinner) (state : State Work Hook) :
    (state.exchange other winner).2.calls = state.calls ∧
      (state.exchange other winner).2.nextId = state.nextId := by
  unfold State.exchange
  split <;> exact ⟨rfl, rfl⟩

theorem State.claimCompleting_calls (other : Nat) (state : State Work Hook) :
    (state.claimCompleting other).2.calls = state.calls ∧
      (state.claimCompleting other).2.nextId = state.nextId := by
  have hexchange := state.exchange_calls other .completing
  unfold State.claimCompleting
  split
  · split
    next h => rwa [h] at hexchange
    next => exact ⟨rfl, rfl⟩
  · exact ⟨rfl, rfl⟩

/-- The call may still complete an operation. -/
def Call.Follows : Call Hook → Prop
  | .scheduling _ | .posted _ | .called _ => True
  | .absent | .claimed _ | .completing _ | .looping _ | .popped _ _ | .requesting _ _
  | .taking _ _ | .running _ _ _ | .releasing _ _ | .rejecting _ _ | .handing _ _ _ | .drained
  | .returned => False

theorem Call.stage_ne_follows {point : Call Hook} (hpoint : ¬ point.Follows) :
    point.stage operation ≠ .follows := by
  intro h
  cases point with
  | scheduling _ | posted _ | called _ => exact hpoint trivial
  | requesting _ cancelled | taking _ cancelled | running _ cancelled _ =>
      rw [Call.stage] at h
      split at h <;> cases h
  | absent | claimed _ | completing _ | looping _ | popped _ _ | releasing _ _ | rejecting _ _
  | handing _ _ _ | drained | returned => cases h

/-- A call that moves to a point from which no operation is completed. -/
theorem State.FollowsAccepted.leave (hstate : state.FollowsAccepted) {point : Call Hook}
    (hcalls : next.calls = update state.calls call point) (hnext : next.nextId = state.nextId)
    (hpoint : ¬ point.Follows) : next.FollowsAccepted :=
  hstate.move hcalls hnext fun _ h => absurd h (Call.stage_ne_follows hpoint)

theorem followsAccepted {history : List Event}
    (hreach : (machine Work Hook).Reaches state history) : state.FollowsAccepted := by
  induction hreach with
  | init => exact fun _ _ h => by cases h
  | @step state history label hreach henabled ih =>
      cases label with
      | accept rejection internalCompletion =>
          change (state.accept rejection internalCompletion).FollowsAccepted
          rw [State.accept]
          split
          · exact ih.of_calls rfl (Nat.le_succ _)
          · exact ih
      | acceptFactory rejection =>
          change (state.acceptFactory rejection).FollowsAccepted
          unfold State.acceptFactory
          split
          · cases rejection <;> exact ih.of_calls rfl (Nat.le_succ _)
          · exact ih
      | setWork operation work => exact ih.of_calls rfl (Nat.le_refl _)
      | setCancelHook operation hook => exact ih.of_calls rfl (Nat.le_refl _)
      | invalidate => exact ih.of_calls rfl (Nat.le_refl _)
      | scheduleCompletion call operation =>
          have hlt : operation < state.nextId := by
            by_contra h
            have hnone := ((simulation.reaches hreach).invariant OperationLifecycle.invariant).fresh
              operation (Nat.le_of_not_lt h)
            have hsome := henabled.2
            rw [← Option.isSome_map, show (state.operations operation).map _ = none from hnone]
              at hsome
            cases hsome
          refine ih.move rfl rfl fun other h => .inr ?_
          split at h
          · rw [Call.stage] at h
            split at h
            next heq => rwa [← heq]
            next => cases h
          · cases h
      | post call operation delivered =>
          refine ih.move rfl rfl fun other h => ?_
          rw [show state.calls call = _ from henabled]
          cases delivered
          · cases h
          · exact .inl h
      | callback call operation alive =>
          refine ih.move rfl rfl fun other h => ?_
          rw [show state.calls call = _ from henabled]
          split at h
          · exact .inl h
          · cases h
      | claimCallback call operation =>
          have hclaim := state.claimCompleting_calls operation
          change (state.claimCallback call operation).1.FollowsAccepted
          unfold State.claimCallback
          split
          next next h =>
            rw [h] at hclaim
            exact ih.leave (congrArg (fun calls => update calls call _) hclaim.1) hclaim.2 id
          next => exact ih.leave rfl rfl id
      | claimInternalCompletion operation =>
          have hclaim := state.claimCompleting_calls operation
          change (state.claimInternalCompletion operation).1.FollowsAccepted
          unfold State.claimInternalCompletion
          split
          next next h =>
            rw [h] at hclaim
            exact ih.of_calls hclaim.1 (Nat.le_of_eq hclaim.2.symm)
          next => exact ih
      | close call runtimeTeardown =>
          change (state.close call runtimeTeardown).FollowsAccepted
          rw [State.close]
          split <;> exact ih.leave rfl rfl id
      | claim call runtimeTeardown operation =>
          have hexchange := state.exchange_calls operation (outcomeOf runtimeTeardown)
          change (state.claim call runtimeTeardown operation).1.FollowsAccepted
          unfold State.claim
          split
          next next h =>
            rw [h] at hexchange
            exact ih.leave (congrArg (fun calls => update calls call _) hexchange.1) hexchange.2 id
          next => exact ih.leave rfl rfl id
      | takeHook call runtimeTeardown operation =>
          refine ih.leave rfl rfl ?_
          cases (state.operations operation).bind (·.cancelHook) <;> exact id
      | takeRejectionCallback _ _ | runCompletion _ _ | pop _ _ _ | requestCancel _ _ _
      | runHook _ _ _ _ | takeInternalCompletion _ _ _ | takeRejection _ _ _
      | handRejection _ _ _ _ | drain _ _ | deactivate _ =>
          exact ih.leave rfl rfl id

/-! ### Whoever takes or runs a hook has cancelled the operation -/

/-- The call has cancelled the operation, and its hook has not run yet. -/
def Stage.Owns : Stage Hook → Prop
  | .willTake | .runs _ => True
  | .away | .follows => False

theorem Call.role_of_stage {point : Call Hook} (howns : (point.stage operation).Owns) :
    ∃ runtimeTeardown, point.role = .owner operation (outcomeOf runtimeTeardown) true := by
  cases point with
  | requesting runtimeTeardown _ | taking runtimeTeardown _ | running runtimeTeardown _ _ =>
      rw [Call.stage] at howns
      split at howns
      next heq => exact ⟨runtimeTeardown, by rw [← heq]; rfl⟩
      next => exact absurd howns id
  | scheduling _ | posted _ | called _ =>
      rw [Call.stage] at howns
      split at howns <;> exact absurd howns id
  | absent | claimed _ | completing _ | looping _ | popped _ _ | releasing _ _ | rejecting _ _
  | handing _ _ _ | drained | returned => exact absurd howns id

theorem stages_atMostOne {history : List Event} (hreach : (machine Work Hook).Reaches state history)
    (operation : Nat) : AtMostOne Stage.Owns (state.stages operation) := by
  have hinv := (simulation.reaches hreach).invariant OperationLifecycle.invariant
  intro first second hfirst hsecond
  obtain ⟨_, hrole⟩ := Call.role_of_stage hfirst
  obtain ⟨_, hrole'⟩ := Call.role_of_stage hsecond
  refine hinv.owner operation (?_ : (state.calls first).role.Owns operation)
    (?_ : (state.calls second).role.Owns operation)
  · rw [hrole]
    rfl
  · rw [hrole']
    rfl

theorem held_of_owns {history : List Event} (hreach : (machine Work Hook).Reaches state history)
    (howns : (state.stages operation call).Owns) :
    ∃ winner hook, state.held operation = some (winner, hook) ∧ winner.isCancellation = true := by
  obtain ⟨runtimeTeardown, hrole⟩ := Call.role_of_stage howns
  have hsound := ((simulation.reaches hreach).invariant OperationLifecycle.invariant).sound call
  rw [show (view state).roles call = _ from hrole] at hsound
  obtain ⟨pending, haccepted, hwinner⟩ := Option.map_eq_some_iff.mp hsound.1
  refine ⟨pending.winner, pending.cancelHook, ?_, ?_⟩
  · rw [State.held, haccepted, Option.map_some]
  · rw [hwinner]
    exact outcomeOf_isCancellation runtimeTeardown

theorem held_eq_none {history : List Event} (hreach : (machine Work Hook).Reaches state history)
    (hfresh : state.nextId ≤ operation) : state.held operation = none := by
  have hnone := ((simulation.reaches hreach).invariant OperationLifecycle.invariant).fresh
    operation hfresh
  rw [State.held, Option.map_eq_none_iff]
  exact Option.map_eq_none_iff.mp hnone

/-- Nothing was said about an operation that is not accepted yet. -/
theorem stages_fresh {history : List Event} (hreach : (machine Work Hook).Reaches state history)
    (hfresh : state.nextId ≤ operation) : state.stages operation call = .away := by
  have hnotOwns : ¬ (state.stages operation call).Owns := by
    intro howns
    obtain ⟨_, _, hheld, _⟩ := held_of_owns hreach howns
    rw [held_eq_none hreach hfresh] at hheld
    cases hheld
  cases hstage : state.stages operation call with
  | away => rfl
  | follows =>
      exact absurd (followsAccepted hreach operation call hstage) (Nat.not_lt.mpr hfresh)
  | willTake | runs _ =>
      rw [hstage] at hnotOwns
      exact absurd trivial hnotOwns

end SupernoteModule.Runtime.FeatureSession
