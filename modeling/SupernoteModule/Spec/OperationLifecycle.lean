import SupernoteModule.Lib.Exclusive
import SupernoteModule.Runtime.FeatureSession

/-!
# The life of an accepted operation

What a feature session promises about its operations, without hooks, rejections and the order in
which `close` does its work: an operation is decided once, by a callback while the session is active
or by the one call that closes it, and whoever decided it settles it once.
-/

namespace SupernoteModule.Spec.OperationLifecycle

open SupernoteModule.Lib SupernoteModule.Runtime SupernoteModule.Runtime.FeatureSession Function

/-- What a call is to the operations. An owner has decided its operation and has not settled it;
`closes` says whether it is the call that closes the session. -/
inductive Role where
  | idle
  | owner (operation : Nat) (winner : OperationWinner) (closes : Bool)
  | closer
  | popped (operation : Nat) (winner : OperationWinner)
  | drained
deriving DecidableEq

structure State where
  state : FeatureState
  pending : List Nat
  winners : Nat → Option OperationWinner
  nextId : Nat
  roles : Nat → Role

inductive Label where
  | accept
  | skipId
  | complete (call operation : Nat)
  | completeInternally (operation : Nat)
  | settle (call operation : Nat) (winner : OperationWinner) (closes : Bool) (outcome : Outcome)
  | close (call : Nat)
  | pop (call operation : Nat) (winner : OperationWinner)
  | cancel (call operation : Nat) (winner : OperationWinner)
  | drain (call : Nat)
  | deactivate (call : Nat)

/-- Which outcomes the winner of an operation can bring about. -/
def fits : Outcome → OperationWinner → Bool
  | .bodyRan, .completing | .internalClaimed, .completing => true
  | .rejectionHanded, .cancelledByFeature => true
  | .silentlyCancelled, winner => winner.isCancellation
  | _, _ => false

def State.init : State where
  state := .active
  pending := []
  winners := fun _ => none
  nextId := 1
  roles := fun _ => .idle

/-- The operation is decided, and nobody can decide it again. -/
def State.assign (state : State) (operation : Nat) (winner : OperationWinner) : State :=
  { state with winners := update state.winners operation (some winner) }

def State.setRole (state : State) (call : Nat) (role : Role) : State :=
  { state with roles := update state.roles call role }

def State.accept (state : State) : State :=
  { state with
      pending := state.pending ++ [state.nextId]
      winners := update state.winners state.nextId (some .pending)
      nextId := state.nextId + 1 }

/-- The operation is decided for completion and leaves the pending ones. -/
def State.complete (state : State) (operation : Nat) : State :=
  { state.assign operation .completing with pending := state.pending.erase operation }

/-- The exchange of the closing call. -/
def State.cancel (state : State) (call operation : Nat) (winner : OperationWinner) :
    State × List Event :=
  if state.winners operation = some .pending then
    ((state.assign operation winner).setRole call (.owner operation winner true),
      [.decided operation winner])
  else
    (state.setRole call .closer, [])

@[reducible] def enabled : Label → State → Prop
  | .accept, state => state.state = .active
  | .skipId, _ => True
  | .complete call operation, state =>
      state.state = .active ∧ state.roles call = .idle ∧ state.winners operation = some .pending
  | .completeInternally operation, state =>
      state.state = .active ∧ state.winners operation = some .pending
  | .settle call operation winner closes outcome, state =>
      state.roles call = .owner operation winner closes ∧ fits outcome winner = true
  | .close call, state => state.state = .active ∧ state.roles call = .idle
  | .pop call operation winner, state =>
      state.roles call = .closer ∧ operation ∈ state.pending ∧ winner.isCancellation = true
  | .cancel call operation winner, state => state.roles call = .popped operation winner
  | .drain call, state => state.roles call = .closer ∧ state.pending = []
  | .deactivate call, state => state.roles call = .drained

def machine : Machine State Label Event where
  init := .init
  enabled := enabled
  step
    | .accept, state => (state.accept, [])
    | .skipId, state => ({ state with nextId := state.nextId + 1 }, [])
    | .complete call operation, state =>
        ((state.complete operation).setRole call (.owner operation .completing false),
          [.decided operation .completing])
    | .completeInternally operation, state =>
        (state.complete operation,
          [.decided operation .completing, .outcome operation .internalClaimed])
    | .settle call operation _ closes outcome, state =>
        (state.setRole call (if closes then .closer else .idle), [.outcome operation outcome])
    | .close call, state => ({ state.setRole call .closer with state := .closing }, [])
    | .pop call operation winner, state =>
        ({ state.setRole call (.popped operation winner) with
            pending := state.pending.erase operation }, [])
    | .cancel call operation winner, state => state.cancel call operation winner
    | .drain call, state => (state.setRole call .drained, [])
    | .deactivate call, state => ({ state.setRole call .idle with state := .inactive }, [])

/-! ### The invariant -/

/-- The call has decided the operation and has not settled it. -/
def Role.Owns (operation : Nat) : Role → Prop
  | .owner owned _ _ => owned = operation
  | .idle | .closer | .popped _ _ | .drained => False

/-- The call has taken the operation out of the pending ones and has not tried to decide it. -/
def Role.Pops (operation : Nat) : Role → Prop
  | .popped taken _ => taken = operation
  | .idle | .closer | .owner _ _ _ | .drained => False

/-- The call is closing the session. -/
def Role.Closes : Role → Prop
  | .owner _ _ closes => closes = true
  | .closer | .popped _ _ | .drained => True
  | .idle => False

theorem Role.Pops.closes {operation : Nat} {role : Role} (hrole : role.Pops operation) :
    role.Closes := by
  cases role <;> first | exact trivial | cases hrole

/-- The one change of winner that the history of an operation must show. -/
def decision : Option OperationWinner → List OperationWinner
  | none | some .pending => []
  | some winner => [winner]

theorem decision_of_ne {winner : OperationWinner} (hwinner : winner ≠ .pending) :
    decision (some winner) = [winner] := by
  cases winner <;> first | rfl | exact absurd rfl hwinner

/-- What has become of an operation: nothing yet, or one outcome that fits its winner and that
leaves no owner behind. -/
inductive Fate (state : State) (operation : Nat) : List Outcome → Prop where
  | unsettled : Fate state operation []
  | settled (outcome : Outcome) (winner : OperationWinner) :
      state.winners operation = some winner → winner ≠ .pending → fits outcome winner = true →
      Vacant (Role.Owns operation) state.roles → Fate state operation [outcome]

/-- What the role of a call says about the session. -/
def Role.Sound (state : State) (history : List Event) : Role → Prop
  | .owner operation winner _ =>
      state.winners operation = some winner ∧ winner ≠ .pending ∧
        outcomesOf operation history = []
  | .popped _ winner => winner.isCancellation = true
  | .drained => state.pending = []
  | .idle | .closer => True

/-- What every run keeps true of the operations. -/
structure Inv (state : State) (history : List Event) : Prop where
  decisions : ∀ operation, decisionsOf operation history = decision (state.winners operation)
  fate : ∀ operation, Fate state operation (outcomesOf operation history)
  owner : ∀ operation, AtMostOne (Role.Owns operation) state.roles
  sound : ∀ call, (state.roles call).Sound state history
  closer : AtMostOne Role.Closes state.roles
  closing : ∀ call, (state.roles call).Closes → state.state = .closing
  covered : ∀ operation, state.winners operation = some .pending →
    operation ∈ state.pending ∨ Occupied (Role.Pops operation) state.roles
  inactive : state.state = .inactive → state.pending = []
  fresh : ∀ operation, state.nextId ≤ operation → state.winners operation = none

theorem Inv.initial : Inv .init [] where
  decisions _ := rfl
  fate _ := .unsettled
  owner _ _ _ h := absurd h id
  sound _ := trivial
  closer _ _ h := absurd h id
  closing _ h := absurd h id
  covered _ h := by cases h
  inactive h := by cases h
  fresh _ _ := rfl

/-! ### What one step keeps -/

variable {state : State} {history : List Event} {call operation : Nat} {winner : OperationWinner}

theorem decisionsOf_append (events : List Event) :
    decisionsOf operation (history ++ events) =
      decisionsOf operation history ++ decisionsOf operation events :=
  List.filterMap_append

theorem outcomesOf_append (events : List Event) :
    outcomesOf operation (history ++ events) =
      outcomesOf operation history ++ outcomesOf operation events :=
  List.filterMap_append

theorem decisionsOf_decided (other : Nat) :
    decisionsOf other [.decided operation winner] = if operation = other then [winner] else [] := by
  by_cases h : operation = other <;> simp [decisionsOf, Event.decision?, h]

theorem outcomesOf_outcome (other : Nat) (outcome : Outcome) :
    outcomesOf other [.outcome operation outcome] =
      if operation = other then [outcome] else [] := by
  by_cases h : operation = other <;> simp [outcomesOf, Event.outcome?, h]

theorem decisionsOf_outcome (other : Nat) (outcome : Outcome) :
    decisionsOf other (history ++ [.outcome operation outcome]) = decisionsOf other history := by
  rw [decisionsOf_append]
  exact List.append_nil _

theorem outcomesOf_decided (other : Nat) :
    outcomesOf other (history ++ [.decided operation winner]) = outcomesOf other history := by
  rw [outcomesOf_append]
  exact List.append_nil _

theorem Fate.keep {next : State} {outcomes : List Outcome} (hfate : Fate state operation outcomes)
    (hkeep : ∀ winner, state.winners operation = some winner → winner ≠ .pending →
      Vacant (Role.Owns operation) state.roles →
        next.winners operation = some winner ∧ Vacant (Role.Owns operation) next.roles) :
    Fate next operation outcomes := by
  cases hfate with
  | unsettled => exact .unsettled
  | settled outcome winner hwinner hne hfits hvacant =>
      obtain ⟨hnext, hnextVacant⟩ := hkeep winner hwinner hne hvacant
      exact .settled outcome winner hnext hne hfits hnextVacant

theorem Fate.eq_nil_of_pending {outcomes : List Outcome} (hfate : Fate state operation outcomes)
    (hpending : state.winners operation = some .pending) : outcomes = [] := by
  cases hfate with
  | unsettled => rfl
  | settled outcome winner hwinner hne _ _ =>
      rw [hpending] at hwinner
      exact absurd (Option.some.inj hwinner).symm hne

/-- An operation that is still pending has no owner. -/
theorem Inv.vacant_of_pending (hinv : Inv state history)
    (hpending : state.winners operation = some .pending) :
    Vacant (Role.Owns operation) state.roles := by
  intro call howns
  cases hrole : state.roles call with
  | owner owned winner closes =>
      rw [hrole] at howns
      have heq : owned = operation := howns
      have hsound := hinv.sound call
      rw [hrole] at hsound
      rw [← heq, hsound.1] at hpending
      exact hsound.2.1 (Option.some.inj hpending)
  | idle | closer | popped _ _ | drained =>
      rw [hrole] at howns
      exact howns

/-- While the session is active nobody is closing it. -/
theorem Inv.vacant_of_active (hinv : Inv state history) (hactive : state.state = .active) :
    Vacant Role.Closes state.roles := by
  intro call hcloses
  have hclosing := hinv.closing call hcloses
  rw [hactive] at hclosing
  cases hclosing

/-- A role stays sound when winners that are known, outcomes and an empty pending list stay. -/
theorem Role.Sound.keep {next : State} {later : List Event} {role : Role}
    (hsound : role.Sound state history)
    (hwinners : ∀ {operation winner}, role.Owns operation →
      state.winners operation = some winner → winner ≠ .pending →
        next.winners operation = some winner)
    (houtcomes : ∀ {operation}, role.Owns operation →
      outcomesOf operation later = outcomesOf operation history)
    (hdrained : role = .drained → state.pending = [] → next.pending = []) :
    role.Sound next later := by
  cases role with
  | owner operation winner closes =>
      obtain ⟨hwinner, hne, hnone⟩ := hsound
      exact ⟨hwinners rfl hwinner hne, hne, (houtcomes rfl).trans hnone⟩
  | popped operation winner => exact hsound
  | drained => exact hdrained rfl hsound
  | idle | closer => trivial

theorem State.winners_assign_self :
    (state.assign operation winner).winners operation = some winner :=
  update_self ..

theorem State.winners_assign_of_ne {other : Nat} (hother : other ≠ operation) :
    (state.assign operation winner).winners other = state.winners other :=
  update_of_ne hother ..

/-! ### The parts of a step -/

/-- A pending operation gets its winner, and may leave the pending ones. -/
theorem Inv.assign (hinv : Inv state history)
    (hpending : state.winners operation = some .pending) (hne : winner ≠ .pending)
    {pending : List Nat} (hkeep : ∀ other, other ≠ operation → other ∈ state.pending →
      other ∈ pending) (hempty : state.pending = [] → pending = []) :
    Inv { state.assign operation winner with pending := pending }
      (history ++ [.decided operation winner]) := by
  have hknown : ∀ {other : Nat} {known : OperationWinner}, state.winners other = some known →
      known ≠ .pending → (state.assign operation winner).winners other = some known := by
    intro other known hother hknown
    rcases eq_or_ne other operation with rfl | h
    · rw [hpending] at hother
      exact absurd (Option.some.inj hother).symm hknown
    · rwa [State.winners_assign_of_ne h]
  refine { hinv with
    decisions := fun other => ?_
    fate := fun other => ?_
    sound := fun call => (hinv.sound call).keep (fun _ => hknown)
      (fun _ => outcomesOf_decided _) fun _ => hempty
    covered := fun other hother => ?_
    inactive := fun h => hempty (hinv.inactive h)
    fresh := fun other hother => ?_ }
  · change _ = decision ((state.assign operation winner).winners other)
    rw [decisionsOf_append, hinv.decisions, decisionsOf_decided]
    rcases eq_or_ne other operation with rfl | hother
    · rw [hpending, State.winners_assign_self, decision_of_ne hne, if_pos rfl]
      rfl
    · rw [State.winners_assign_of_ne hother, if_neg hother.symm, List.append_nil]
  · rw [outcomesOf_decided]
    exact (hinv.fate other).keep fun known hother hne' h => ⟨hknown hother hne', h⟩
  · change (state.assign operation winner).winners other = _ at hother
    have hother' : other ≠ operation := by
      rintro rfl
      rw [State.winners_assign_self] at hother
      exact hne (Option.some.inj hother)
    rw [State.winners_assign_of_ne hother'] at hother
    exact (hinv.covered other hother).imp_left (hkeep other hother')
  · have hnone := hinv.fresh other hother
    refine (State.winners_assign_of_ne ?_).trans hnone
    rintro rfl
    rw [hnone] at hpending
    cases hpending

/-- A call takes on a role that is free for it. -/
theorem Inv.setRole (hinv : Inv state history) {role : Role} (hsound : role.Sound state history)
    (hfree : ∀ owned, role.Owns owned → Vacant (Role.Owns owned) state.roles)
    (hcloses : role.Closes ↔ (state.roles call).Closes)
    (hpops : ∀ taken, (state.roles call).Pops taken → state.winners taken = some .pending →
      role.Pops taken) :
    Inv (state.setRole call role) history := by
  refine { hinv with
    fate := fun other => ?_
    owner := fun other => ?_
    sound := forall_update (p := fun _ (role : Role) => role.Sound _ _)
      (hsound.keep (fun _ h _ => h) (fun _ => rfl) fun _ => id)
      fun other _ => (hinv.sound other).keep (fun _ h _ => h) (fun _ => rfl) fun _ => id
    closer := ?_
    closing := forall_update (p := fun _ (role : Role) => role.Closes → _)
      (fun h => hinv.closing call (hcloses.mp h)) fun other _ => hinv.closing other
    covered := fun other hother => ?_ }
  · by_cases h : role.Owns other
    · have hnone : outcomesOf other history = [] := by
        cases role with
        | owner owned known closes => exact h ▸ hsound.2.2
        | idle | closer | popped _ _ | drained => exact absurd h id
      rw [hnone]
      exact .unsettled
    · exact (hinv.fate other).keep fun _ hknown _ hvacant => ⟨hknown, hvacant.update_of_not h⟩
  · by_cases h : role.Owns other
    · exact (hfree other h).atMostOne_update
    · exact (hinv.owner other).update_of_not h
  · by_cases h : role.Closes
    · exact hinv.closer.update_of_holds (hcloses.mp h)
    · exact hinv.closer.update_of_not h
  · refine (hinv.covered other hother).imp_right fun h => ?_
    by_cases hcall : (state.roles call).Pops other
    · exact occupied_update (hpops other hcall hother)
    · exact h.update_of_not hcall

/-- A decided operation that nobody owns gets its one outcome. -/
theorem Inv.outcome (hinv : Inv state history) (outcome : Outcome)
    (hwinner : state.winners operation = some winner) (hne : winner ≠ .pending)
    (hfits : fits outcome winner = true) (hnone : outcomesOf operation history = [])
    (hvacant : Vacant (Role.Owns operation) state.roles) :
    Inv state (history ++ [.outcome operation outcome]) := by
  have hother : ∀ {other : Nat}, other ≠ operation →
      outcomesOf other (history ++ [.outcome operation outcome]) = outcomesOf other history := by
    intro other h
    rw [outcomesOf_append, outcomesOf_outcome, if_neg h.symm, List.append_nil]
  refine { hinv with
    decisions := fun other => (decisionsOf_outcome other outcome).trans (hinv.decisions other)
    fate := fun other => ?_
    sound := fun call => (hinv.sound call).keep (fun _ h _ => h) ?_ fun _ => id }
  · rcases eq_or_ne other operation with rfl | h
    · rw [outcomesOf_append, outcomesOf_outcome, if_pos rfl, hnone]
      exact .settled outcome winner hwinner hne hfits hvacant
    · rw [hother h]
      exact hinv.fate other
  · rintro other howns
    refine hother ?_
    rintro rfl
    exact hvacant call howns

/-! ### The steps -/

theorem Inv.accept (hinv : Inv state history) (hactive : state.state = .active) :
    Inv state.accept history := by
  have hnew : state.winners state.nextId = none := hinv.fresh _ (Nat.le_refl _)
  have hold : ∀ {other : Nat} {known : OperationWinner}, state.winners other = some known →
      state.accept.winners other = some known := by
    intro other known hknown
    refine (update_of_ne ?_ ..).trans hknown
    rintro rfl
    rw [hnew] at hknown
    cases hknown
  refine { hinv with
    decisions := fun other => ?_
    fate := fun other => (hinv.fate other).keep fun known hknown _ h => ⟨hold hknown, h⟩
    sound := fun call => (hinv.sound call).keep (fun _ h _ => hold h) (fun _ => rfl) fun h => ?_
    covered := fun other hother => ?_
    inactive := fun h => ?_
    fresh := fun other hother => ?_ }
  · change _ = decision (update state.winners state.nextId (some .pending) other)
    rw [hinv.decisions]
    rcases eq_or_ne other state.nextId with rfl | hne
    · rw [hnew, update_self]
      rfl
    · rw [update_of_ne hne]
  · exact absurd (by rw [h]; exact trivial) (hinv.vacant_of_active hactive call)
  · rcases eq_or_ne other state.nextId with rfl | hne
    · exact .inl (List.mem_append_right _ (List.mem_singleton_self _))
    · exact (hinv.covered other ((update_of_ne hne ..).symm.trans hother)).imp_left
        (List.mem_append_left _)
  · rw [show state.state = .inactive from h] at hactive
    cases hactive
  · have hlt : state.nextId < other := hother
    exact (update_of_ne (Nat.ne_of_gt hlt) ..).trans (hinv.fresh other (Nat.le_of_lt hlt))

theorem Inv.skipId (hinv : Inv state history) :
    Inv { state with nextId := state.nextId + 1 } history :=
  { hinv with
    fate := fun other => (hinv.fate other).keep fun _ hknown _ h => ⟨hknown, h⟩
    sound := fun call => (hinv.sound call).keep (fun _ h _ => h) (fun _ => rfl) fun _ => id
    fresh := fun other hother => hinv.fresh other (Nat.le_of_succ_le hother) }

/-- Deciding for completion, before it is known who settles. -/
theorem Inv.assign_complete (hinv : Inv state history)
    (hpending : state.winners operation = some .pending) :
    Inv (state.complete operation) (history ++ [.decided operation .completing]) := by
  have hne : OperationWinner.completing ≠ .pending := nofun
  exact hinv.assign hpending hne (fun _ hne h => (List.mem_erase_of_ne hne).mpr h)
    fun h => by rw [h]; rfl

/-- A callback decides a pending operation and becomes its owner. -/
theorem Inv.complete (hinv : Inv state history) (hcall : state.roles call = .idle)
    (hpending : state.winners operation = some .pending) :
    Inv ((state.complete operation).setRole call (.owner operation .completing false))
      (history ++ [.decided operation .completing]) := by
  have hempty := (hinv.fate operation).eq_nil_of_pending hpending
  have hcall' : (state.complete operation).roles call = .idle := hcall
  refine (hinv.assign_complete hpending).setRole ?_ ?_ ?_ ?_
  · exact ⟨State.winners_assign_self, nofun, (outcomesOf_decided operation).trans hempty⟩
  · rintro owned rfl
    exact hinv.vacant_of_pending hpending
  · rw [hcall']
    exact ⟨nofun, nofun⟩
  · rw [hcall']
    exact fun _ h => absurd h id

/-- `claim_internal_completion` decides and settles in one step. -/
theorem Inv.completeInternally (hinv : Inv state history)
    (hpending : state.winners operation = some .pending) :
    Inv (state.complete operation)
      (history ++ [.decided operation .completing, .outcome operation .internalClaimed]) := by
  have hempty := (hinv.fate operation).eq_nil_of_pending hpending
  have hnext := (hinv.assign_complete hpending).outcome .internalClaimed
    State.winners_assign_self nofun rfl ((outcomesOf_decided operation).trans hempty)
    (hinv.vacant_of_pending hpending)
  rwa [List.append_assoc] at hnext

/-- An owner settles its operation; the closing call goes on with the next one. -/
theorem Inv.settle (hinv : Inv state history) {closes : Bool} {outcome : Outcome}
    (hcall : state.roles call = .owner operation winner closes)
    (hfits : fits outcome winner = true) :
    Inv (state.setRole call (if closes then .closer else .idle))
      (history ++ [.outcome operation outcome]) := by
  have hsound := hinv.sound call
  rw [hcall] at hsound
  obtain ⟨hwinner, hne, hempty⟩ := hsound
  have howns : (state.roles call).Owns operation := by rw [hcall]; rfl
  have hnot : ¬ (if closes then Role.closer else .idle).Owns operation := by
    cases closes <;> exact id
  refine Inv.outcome ?_ outcome hwinner hne hfits hempty
    ((hinv.owner operation).vacant_update howns hnot)
  refine hinv.setRole ?_ ?_ ?_ ?_
  · cases closes <;> exact trivial
  · intro other h
    cases closes <;> exact absurd h id
  · rw [hcall]
    cases closes
    · exact ⟨nofun, nofun⟩
    · exact ⟨fun _ => rfl, fun _ => trivial⟩
  · rw [hcall]
    exact fun _ h => absurd h id

theorem Inv.close (hinv : Inv state history) (hactive : state.state = .active)
    (hcall : state.roles call = .idle) :
    Inv { state.setRole call .closer with state := .closing } history := by
  refine { hinv with
    fate := fun other => (hinv.fate other).keep fun _ hknown _ h =>
      ⟨hknown, h.update_of_not id⟩
    owner := fun other => (hinv.owner other).update_of_not id
    sound := forall_update (p := fun _ (role : Role) => role.Sound _ _) trivial
      fun other _ => (hinv.sound other).keep (fun _ h _ => h) (fun _ => rfl) fun _ => id
    closer := (hinv.vacant_of_active hactive).atMostOne_update
    closing := fun _ _ => rfl
    covered := fun other hother => (hinv.covered other hother).imp_right fun h =>
      h.update_of_not (by rw [hcall]; exact id)
    inactive := nofun }

/-- An operation that leaves the pending ones without a winner is in the hands of the closer. -/
theorem Inv.pop (hinv : Inv state history) (hcall : state.roles call = .closer)
    (hcancel : winner.isCancellation = true) :
    Inv { state.setRole call (.popped operation winner) with
      pending := state.pending.erase operation } history := by
  have hnext : Inv (state.setRole call (.popped operation winner)) history := by
    refine hinv.setRole hcancel (fun _ h => absurd h id) ?_ ?_
    · rw [hcall]
      exact Iff.rfl
    · rw [hcall]
      exact fun _ h => absurd h id
  have herase : ∀ {pending : List Nat}, pending = [] → pending.erase operation = [] := by
    rintro _ rfl
    rfl
  refine { hnext with
    fate := fun other => (hnext.fate other).keep fun _ hknown _ h => ⟨hknown, h⟩
    sound := fun call => (hnext.sound call).keep (fun _ h _ => h) (fun _ => rfl) fun _ => herase
    covered := fun other hother => ?_
    inactive := fun h => herase (hnext.inactive h) }
  rcases eq_or_ne other operation with rfl | hne
  · exact .inr (occupied_update rfl)
  · exact (hnext.covered other hother).imp_left (List.mem_erase_of_ne hne).mpr

/-- The exchange of the closing call decides the operation it has popped, or finds it decided. -/
theorem Inv.cancel (hinv : Inv state history)
    (hcall : state.roles call = .popped operation winner) :
    Inv (state.cancel call operation winner).1
      (history ++ (state.cancel call operation winner).2) := by
  have hsound := hinv.sound call
  rw [hcall] at hsound
  have hne : winner ≠ .pending := by
    rintro rfl
    cases hsound
  rw [State.cancel]
  split
  next hpending =>
    have hempty := (hinv.fate operation).eq_nil_of_pending hpending
    have hdecided := hinv.assign hpending hne (fun _ _ h => h) id
    have hcall' : (state.assign operation winner).roles call = .popped operation winner := hcall
    refine hdecided.setRole ?_ ?_ ?_ ?_
    · exact ⟨State.winners_assign_self, hne, (outcomesOf_decided operation).trans hempty⟩
    · rintro owned rfl
      exact hinv.vacant_of_pending hpending
    · rw [show _ = _ from hcall']
      exact ⟨fun _ => trivial, fun _ => rfl⟩
    · intro taken htaken hwinner
      rw [show _ = _ from hcall'] at htaken
      rw [← show operation = taken from htaken] at hwinner
      exact absurd (Option.some.inj (State.winners_assign_self.symm.trans hwinner)) hne
  next hdecided =>
    rw [List.append_nil]
    refine hinv.setRole trivial (fun _ h => absurd h id) ?_ ?_
    · rw [hcall]
      exact Iff.rfl
    · intro taken htaken hwinner
      rw [hcall] at htaken
      rw [← show operation = taken from htaken] at hwinner
      exact absurd hwinner hdecided

theorem Inv.drain (hinv : Inv state history) (hcall : state.roles call = .closer)
    (hempty : state.pending = []) : Inv (state.setRole call .drained) history := by
  refine hinv.setRole hempty (fun _ h => absurd h id) ?_ ?_
  · rw [hcall]
    exact Iff.rfl
  · rw [hcall]
    exact fun _ h => absurd h id

/-- The closing call is the only one, so nothing closes the session once it has left. -/
theorem Inv.deactivate (hinv : Inv state history) (hcall : state.roles call = .drained) :
    Inv { state.setRole call .idle with state := .inactive } history := by
  have hcloses : (state.roles call).Closes := by rw [hcall]; exact trivial
  have hvacant : Vacant Role.Closes (update state.roles call .idle) :=
    hinv.closer.vacant_update hcloses id
  have hempty := hinv.sound call
  rw [hcall] at hempty
  refine { hinv with
    fate := fun other => (hinv.fate other).keep fun _ hknown _ h =>
      ⟨hknown, h.update_of_not id⟩
    owner := fun other => (hinv.owner other).update_of_not id
    sound := forall_update (p := fun _ (role : Role) => role.Sound _ _) trivial
      fun other _ => (hinv.sound other).keep (fun _ h _ => h) (fun _ => rfl) fun _ => id
    closer := hvacant.atMostOne
    closing := fun other h => absurd h (hvacant other)
    covered := fun other hother => (hinv.covered other hother).imp_right fun h =>
      h.update_of_not (by rw [hcall]; exact id)
    inactive := fun _ => hempty }

theorem invariant : machine.Invariant Inv where
  init := .initial
  step label state history hinv henabled := by
    cases label with
    | accept => exact Machine.keeps_of_silent rfl (hinv.accept henabled)
    | skipId => exact Machine.keeps_of_silent rfl hinv.skipId
    | complete call operation => exact hinv.complete henabled.2.1 henabled.2.2
    | completeInternally operation => exact hinv.completeInternally henabled.2
    | settle call operation winner closes outcome => exact hinv.settle henabled.1 henabled.2
    | close call => exact Machine.keeps_of_silent rfl (hinv.close henabled.1 henabled.2)
    | pop call operation winner =>
        exact Machine.keeps_of_silent rfl (hinv.pop henabled.1 henabled.2.2)
    | cancel call operation winner => exact hinv.cancel henabled
    | drain call => exact Machine.keeps_of_silent rfl (hinv.drain henabled.1 henabled.2)
    | deactivate call => exact Machine.keeps_of_silent rfl (hinv.deactivate henabled)

/-! ### What follows for every run -/

theorem fits_bodyRan (hfits : fits .bodyRan winner = true) : winner = .completing := by
  cases winner <;> first | rfl | cases hfits

theorem Inv.not_closes (hinv : Inv state history) (hinactive : state.state = .inactive)
    {role : Role} (hcall : state.roles call = role) : ¬ role.Closes := by
  intro hcloses
  have hclosing := hinv.closing call (by rwa [hcall])
  rw [hinactive] at hclosing
  cases hclosing

/-- Once the session is inactive a step decides nothing, and the body of a completion belongs to an
operation that was decided for completion. -/
theorem Inv.late (hinv : Inv state history) (hinactive : state.state = .inactive) {label : Label}
    (henabled : machine.enabled label state) :
    ((machine.step label state).1.state = .inactive ∧
        (machine.step label state).1.winners = state.winners) ∧
      ∀ event ∈ (machine.step label state).2,
        (∀ operation winner, event ≠ .decided operation winner) ∧
          ∀ operation, event = .outcome operation .bodyRan →
            state.winners operation = some .completing := by
  have hnotActive : state.state ≠ .active := by
    rw [hinactive]
    nofun
  cases label with
  | accept => exact absurd henabled hnotActive
  | complete _ _ | completeInternally _ | close _ => exact absurd henabled.1 hnotActive
  | skipId => exact ⟨⟨hinactive, rfl⟩, fun _ h => absurd h List.not_mem_nil⟩
  | settle call operation winner closes outcome =>
      obtain ⟨hcall, hfits⟩ := henabled
      have hsound := hinv.sound call
      rw [hcall] at hsound
      refine ⟨⟨hinactive, rfl⟩, fun event hevent => ?_⟩
      rw [show event = .outcome operation outcome from List.mem_singleton.mp hevent]
      refine ⟨nofun, ?_⟩
      rintro _ ⟨⟩
      rw [hsound.1, fits_bodyRan hfits]
  | pop _ _ _ | drain _ => exact absurd trivial (hinv.not_closes hinactive henabled.1)
  | cancel _ _ _ | deactivate _ => exact absurd trivial (hinv.not_closes hinactive henabled)

/-- What the operations of a feature session can rely on. -/
structure Contract (winnerOf : Nat → Option OperationWinner) (pending : List Nat)
    (state : FeatureState) (history : List Event) : Prop where
  decided : ∀ operation, decisionsOf operation history = decision (winnerOf operation)
  settled : ∀ operation, (outcomesOf operation history).length ≤ 1
  justified : ∀ operation, ∀ outcome ∈ outcomesOf operation history,
    ∃ winner, winnerOf operation = some winner ∧ fits outcome winner = true
  closed : state = .inactive → pending = [] ∧ ∀ operation, winnerOf operation ≠ some .pending

theorem Inv.contract (hinv : Inv state history) :
    Contract state.winners state.pending state.state history where
  decided := hinv.decisions
  settled operation := by
    have hfate := hinv.fate operation
    generalize outcomesOf operation history = outcomes at hfate
    cases hfate with
    | unsettled => exact Nat.zero_le 1
    | settled => exact Nat.le_refl 1
  justified operation outcome hmem := by
    have hfate := hinv.fate operation
    generalize outcomesOf operation history = outcomes at hfate hmem
    cases hfate with
    | unsettled => exact absurd hmem List.not_mem_nil
    | settled settled winner hwinner _ hfits _ =>
        rw [List.mem_singleton.mp hmem]
        exact ⟨winner, hwinner, hfits⟩
  closed hinactive := by
    have hempty := hinv.inactive hinactive
    refine ⟨hempty, fun operation hpending => ?_⟩
    rcases hinv.covered operation hpending with h | ⟨call, h⟩
    · rw [hempty] at h
      exact absurd h List.not_mem_nil
    · exact hinv.not_closes hinactive rfl h.closes

theorem Inv.decided_mem (hinv : Inv state history)
    (hwinner : state.winners operation = some .completing) :
    .decided operation .completing ∈ history := by
  have hmem : OperationWinner.completing ∈ decisionsOf operation history := by
    rw [hinv.decisions, hwinner]
    exact List.mem_singleton_self _
  obtain ⟨event, hevent, hdecision⟩ := List.mem_filterMap.mp hmem
  cases event with
  | outcome _ _ => cases hdecision
  | decided decided winner =>
      rw [Event.decision?] at hdecision
      split at hdecision
      next heq =>
        rwa [← heq, ← Option.some.inj hdecision]
      next => cases hdecision

/-- **After the session has become inactive nothing is decided any more**, and a completion body
that still starts belongs to an operation decided for completion before. -/
theorem late_events (hreach : machine.Reaches state history) (hinactive : state.state = .inactive)
    {final : State} {events : List Event} (hrun : machine.Run state final events) :
    (∀ operation winner, .decided operation winner ∉ events) ∧
      ∀ operation, .outcome operation .bodyRan ∈ events →
        .decided operation .completing ∈ history := by
  have hinv := hreach.invariant invariant
  have hevents := hrun.forall_events
    (p := fun next later => Inv next later ∧ next.state = .inactive ∧
      next.winners = state.winners)
    (q := fun event => (∀ operation winner, event ≠ .decided operation winner) ∧
      ∀ operation, event = .outcome operation .bodyRan →
        state.winners operation = some .completing) ?_ ⟨hinv, hinactive, rfl⟩
  · refine ⟨fun operation winner h => (hevents _ h).1 operation winner rfl, fun operation h => ?_⟩
    exact hinv.decided_mem ((hevents _ h).2 operation rfl)
  · rintro label next later ⟨hnext, hstate, hwinners⟩ henabled
    obtain ⟨⟨hstate', hwinners'⟩, hallowed⟩ := hnext.late hstate henabled
    refine ⟨⟨invariant.step label hnext henabled, hstate', hwinners'.trans hwinners⟩, ?_⟩
    rwa [hwinners] at hallowed

end SupernoteModule.Spec.OperationLifecycle
