import SupernoteModule.Proof.ServiceInvariant

/-!
# One instance for each declaration

What the invariant means for the callers of `service`, over every run.
-/

namespace SupernoteModule.Runtime.ServiceSlot

open SupernoteModule.Lib Function

variable {Declaration : Type*}

variable {state : State Declaration} {ledger : Ledger Declaration} {call slot attempt : Nat}

/-- What a state says about the events of its steps. -/
def Event.Justified (state : State Declaration) : Event Declaration → Prop
  | .started slot => (state.slots slot).value = none
  | .stored _ _ => state.state = .active
  | .deferred inst =>
      state.state ≠ .active ∨ ∃ closer, state.closers closer = .releasing (some inst)
  | .opened _ _ | .created _ | .returned _ _ => True

theorem justified_begin (hvalue : (state.slots slot).value = none) :
    ∀ event ∈ (state.begin call declaration slot).2, event.Justified state := by
  intro event hevent
  cases List.mem_singleton.mp hevent
  exact hvalue

/-- The handler of the latest attempt takes the flag down. -/
theorem recordFailure_down {failure : Failure} (hlatest : (state.slots slot).attempt = attempt) :
    ((state.recordFailure call slot attempt failure).slots slot).initializing = false := by
  rw [State.recordFailure]
  split
  · exact congrArg Slot.initializing (update_self slot _ state.slots)
  next hstale =>
    refine Bool.eq_false_iff.mpr fun hflag => hstale ⟨hflag, hlatest⟩

/-- Once the session is inactive nothing is left in a slot or in the hands of a closer. -/
theorem Inv.empty_of_inactive (hinv : Inv state ledger) (hinactive : state.state = .inactive) :
    (∀ slot, (state.slots slot).value = none) ∧ ∀ closer, (state.closers closer).held = none := by
  have hnotCloses : ∀ closer, ¬ (state.closers closer).Closes := by
    intro closer hcloses
    have hclosing := hinv.closing.closing closer hcloses
    rw [hinactive] at hclosing
    cases hclosing
  have hempty := hinv.closing.inactive hinactive
  refine ⟨fun slot => ?_, fun closer => ?_⟩
  · refine Option.eq_none_iff_forall_ne_some.mpr fun inst hvalue => ?_
    rcases hinv.closing.known slot inst hvalue with ⟨declaration, hmem⟩ | ⟨closer, htaking⟩
    · rw [hempty] at hmem
      exact List.not_mem_nil hmem
    · refine hnotCloses closer ?_
      rw [htaking]
      exact trivial
  · cases hcloser : state.closers closer with
    | releasing inst =>
        refine absurd ?_ (hnotCloses closer)
        rw [hcloser]
        exact trivial
    | absent | draining | taking _ | drained | returned => rfl

variable [DecidableEq Declaration] {history : List (Event Declaration)}

theorem justified {label : Label Declaration}
    (henabled : (machine Declaration).enabled label state) :
    ∀ event ∈ ((machine Declaration).step label state).2, event.Justified state := by
  intro event hevent
  cases label with
  | enter call declaration =>
      change event ∈ (state.enter call declaration).2 at hevent
      rw [State.enter] at hevent
      split at hevent
      · split at hevent
        · cases hevent
        · cases List.mem_singleton.mp hevent
          exact trivial
      · cases hevent
  | look call declaration index =>
      change event ∈ (state.look call declaration index).2 at hevent
      rw [State.look] at hevent
      split at hevent
      · cases List.mem_singleton.mp hevent
        exact trivial
      next hvalue =>
        split at hevent
        · cases hevent
        · exact justified_begin hvalue event hevent
  | wake call declaration index attempt =>
      change event ∈ (state.wake call declaration index attempt).2 at hevent
      cases hvalue : (state.slots index).value with
      | some inst =>
          simp only [State.wake, hvalue] at hevent
          cases List.mem_singleton.mp hevent
          exact trivial
      | none =>
          cases hfailure : (state.slots index).failure with
          | none =>
              simp only [State.wake, hvalue, hfailure] at hevent
              exact justified_begin hvalue event hevent
          | some failure =>
              simp only [State.wake, hvalue, hfailure] at hevent
              split at hevent
              · cases hevent
              · exact justified_begin hvalue event hevent
  | store call declaration index attempt inst =>
      change event ∈ (state.store call declaration index attempt inst).2 at hevent
      rw [State.store] at hevent
      split at hevent
      next hactive =>
        rcases List.mem_cons.mp hevent with rfl | h
        · exact hactive
        · cases List.mem_singleton.mp h
          exact trivial
      next hclosed =>
        cases List.mem_singleton.mp hevent
        exact .inl hclosed
  | deferRelease closer held =>
      obtain ⟨inst, hinst, rfl⟩ := List.mem_map.mp hevent
      refine .inr ⟨closer, ?_⟩
      rw [← Option.mem_toList.mp hinst]
      exact henabled
  | factoryReturn _ _ _ _ =>
      cases List.mem_singleton.mp hevent
      exact trivial
  | factoryFail _ _ _ _ _ | recordFailure _ _ _ _ | close _ | pop _ _ _ | take _ _ | drain _
  | deactivate _ => cases hevent

/-- The call that the flag belongs to can take it down by steps of its own. -/
theorem exists_run_down
    (hcall : (state.calls call).Attempts slot (state.slots slot).attempt) :
    ∃ final events, (machine Declaration).Run state final events ∧
      (final.slots slot).initializing = false := by
  cases hpoint : state.calls call with
  | constructing declaration index number =>
      rw [hpoint] at hcall
      obtain ⟨rfl, hnumber⟩ := hcall
      have hfail : ((state.setCall call (.failing index number .thrown)).calls call) =
          .failing index number .thrown := update_self ..
      refine ⟨_, _, .step (Label.factoryFail call declaration index number false) hpoint
        (.step (Label.recordFailure call index number .thrown) hfail (.done _)), ?_⟩
      exact recordFailure_down hnumber.symm
  | created declaration index number inst =>
      rw [hpoint] at hcall
      obtain ⟨rfl, _⟩ := hcall
      refine ⟨_, _, .step (Label.store call declaration index number inst) hpoint (.done _), ?_⟩
      change ((state.store call declaration index number inst).1.slots index).initializing = false
      rw [State.store]
      split <;> exact congrArg Slot.initializing (update_self index _ state.slots)
  | failing index number failure =>
      rw [hpoint] at hcall
      obtain ⟨rfl, hnumber⟩ := hcall
      exact ⟨_, _, .step (Label.recordFailure call index number failure) hpoint (.done _),
        recordFailure_down hnumber.symm⟩
  | absent | entered _ _ | waiting _ _ _ | returned _ | threw _ =>
      rw [hpoint] at hcall
      exact hcall.elim

/-- What the callers of `service` can rely on. -/
structure Contract (state : State Declaration) (ledger : Ledger Declaration) : Prop where
  single : ∀ slot, AtMostOne (Call.Constructs slot) state.calls
  noRestart : ∀ label, (machine Declaration).enabled label state → ∀ slot,
    .started slot ∈ ((machine Declaration).step label state).2 →
      (state.slots slot).value = none ∧
        (state.state = .active → ∀ inst, (slot, inst) ∉ ledger.stores)
  same : ∀ declaration slot inst other, (declaration, slot) ∈ ledger.opens →
    (slot, inst) ∈ ledger.stores → (declaration, other) ∈ ledger.returns → other = inst
  storedActive : ∀ label, (machine Declaration).enabled label state → ∀ slot inst,
    .stored slot inst ∈ ((machine Declaration).step label state).2 → state.state = .active
  accounted : ∀ inst, inst < state.nextInstance →
    (∃ call, (state.calls call).held = some inst) ∨ (∃ slot, (slot, inst) ∈ ledger.stores) ∨
      ledger.deferred.count inst = 1
  deferredOnce : ∀ inst, ledger.deferred.count inst ≤ 1
  deferredClosed : ∀ label, (machine Declaration).enabled label state → ∀ inst,
    .deferred inst ∈ ((machine Declaration).step label state).2 → state.state ≠ .active
  drained : state.state = .inactive → ∀ slot inst, (slot, inst) ∈ ledger.stores →
    ledger.deferred.count inst = 1
  awaited : ∀ call declaration slot attempt,
    state.calls call = .waiting declaration slot attempt →
      (state.slots slot).initializing = false ∨
        ∃ leader final events, (state.calls leader).Attempts slot (state.slots slot).attempt ∧
          (machine Declaration).Run state final events ∧
            (final.slots slot).initializing = false

/-- **Only one factory runs at a time, its instance is the one every caller gets, and no instance is
lost or released twice.** Only a factory that starts when the session has left `ACTIVE` can come
after a stored instance. -/
theorem service_contract (hreach : (machine Declaration).Reaches state history) :
    Contract state (ledgerOf history) := by
  have hinv := hreach.invariant invariant
  refine {
    single := hinv.election.atMostOne_constructs
    noRestart := fun label henabled slot hstarted => ?_
    same := fun declaration slot inst other hopened hstored hreturned => ?_
    storedActive := fun label henabled slot inst hmem => justified henabled _ hmem
    accounted := fun inst hlt => ?_
    deferredOnce := fun inst => ?_
    deferredClosed := fun label henabled inst hmem => ?_
    drained := fun hinactive slot inst hstored => ?_
    awaited := fun call declaration slot attempt _ => ?_ }
  · have hvalue : (state.slots slot).value = none := justified henabled _ hstarted
    refine ⟨hvalue, fun hactive inst hmem => ?_⟩
    rw [hinv.values.stored_value hactive slot inst hmem] at hvalue
    cases hvalue
  · obtain ⟨index, hopened', hstored'⟩ := hinv.values.returned declaration other hreturned
    rw [hinv.registry.opened_unique declaration index slot hopened' hopened] at hstored'
    exact hinv.values.stored_unique slot other inst hstored' hstored
  · have hfate := hinv.custody inst
    generalize (ledgerOf history).deferred.count inst = count at hfate ⊢
    cases hfate with
    | unborn hle _ => exact absurd hlt (Nat.not_lt.mpr hle)
    | released _ _ => exact .inr (.inr rfl)
    | kept _ _ hoccupied =>
        obtain ⟨spot, hspot⟩ := hoccupied
        cases spot with
        | call index => exact .inl ⟨index, hspot⟩
        | slot index => exact .inr (.inl ⟨index, hinv.values.value_stored index inst hspot⟩)
        | closer index =>
            refine .inr (.inl (hinv.values.releasing inst index ?_))
            cases hcloser : state.closers index with
            | releasing held =>
                have hplace : state.place (.closer index) = held := congrArg Closer.held hcloser
                rw [hplace] at hspot
                rw [hspot]
            | absent | draining | taking _ | drained | returned =>
                have hplace : state.place (.closer index) = none := congrArg Closer.held hcloser
                rw [hplace] at hspot
                cases hspot
  · have hfate := hinv.custody inst
    generalize (ledgerOf history).deferred.count inst = count at hfate ⊢
    cases hfate with
    | unborn _ _ | kept _ _ _ => exact Nat.zero_le 1
    | released _ _ => exact Nat.le_refl 1
  · rcases justified henabled _ hmem with h | ⟨closer, hcloser⟩
    · exact h
    · exact (hinv.of_closes hcloser trivial).2.1
  · obtain ⟨hslots, hclosers⟩ := hinv.empty_of_inactive hinactive
    obtain ⟨hlt, hvacant⟩ := hinv.values.left slot inst hstored
    have hfate := hinv.custody inst
    generalize (ledgerOf history).deferred.count inst = count at hfate ⊢
    cases hfate with
    | unborn hle _ => exact absurd hlt (Nat.not_lt.mpr hle)
    | released _ _ => rfl
    | kept _ _ hoccupied =>
        obtain ⟨spot, hspot⟩ := hoccupied
        cases spot with
        | call index => exact absurd hspot (hvacant index)
        | slot index =>
            rw [show state.place (.slot index) = none from hslots index] at hspot
            cases hspot
        | closer index =>
            rw [show state.place (.closer index) = none from hclosers index] at hspot
            cases hspot
  · cases hflag : (state.slots slot).initializing with
    | false => exact .inl rfl
    | true =>
        obtain ⟨leader, hleader⟩ := hinv.election.leader slot hflag
        obtain ⟨final, events, hrun, hdown⟩ := exists_run_down hleader
        exact .inr ⟨leader, final, events, hleader, hrun, hdown⟩

/-- Two callers of one declaration get the first one's instance, which a close then releases. -/
theorem service_contract_closed :
    ∃ state history, (machine Nat).Reaches state history ∧ state.state = .inactive ∧
      state.calls 0 = .returned 0 ∧ state.calls 1 = .returned 0 ∧
      (ledgerOf history).deferred.count 0 = 1 ∧ Contract state (ledgerOf history) := by
  obtain ⟨state, history, hreach, hrun⟩ := Machine.exists_reaches_of_exec (m := machine Nat)
    [.enter 0 5, .enter 1 5, .look 0 5 0, .look 1 5 0, .factoryReturn 0 5 0 1, .store 0 5 0 1 0,
      .wake 1 5 0 1, .close 0, .pop 0 5 0, .take 0 0, .deferRelease 0 (some 0), .drain 0,
      .deactivate 0]
    (p := fun state history => decide (state.state = .inactive ∧ state.calls 0 = .returned 0 ∧
      state.calls 1 = .returned 0 ∧ (ledgerOf history).deferred.count 0 = 1)) (by decide)
  obtain ⟨hstate, hfirst, hsecond, hcount⟩ := of_decide_eq_true hrun
  exact ⟨state, history, hreach, hstate, hfirst, hsecond, hcount, service_contract hreach⟩

/-- A caller that got the slot before a close may find it emptied and run its factory after an
instance had been stored. -/
theorem factory_starts_after_store :
    ¬ ∀ (state final : State Nat) (history events : List (Event Nat)),
      (machine Nat).Reaches state history → (machine Nat).Run state final events →
        ∀ slot inst, .stored slot inst ∈ history → .started slot ∉ events := by
  intro hclaim
  obtain ⟨state, history, hreach, hrun⟩ := Machine.exists_reaches_of_exec (m := machine Nat)
    [.enter 0 5, .enter 1 5, .look 1 5 0, .factoryReturn 1 5 0 1, .store 1 5 0 1 0, .close 0,
      .pop 0 5 0, .take 0 0]
    (p := fun state history => decide (state.calls 0 = .entered 5 0 ∧
      .stored 0 0 ∈ history ∧ (state.look 0 5 0).2 = [.started 0])) (by decide)
  obtain ⟨hcall, hstored, hstarted⟩ := of_decide_eq_true hrun
  refine hclaim _ _ _ _ hreach (.step (Label.look 0 5 0) hcall (.done _)) 0 0 hstored ?_
  change _ ∈ (state.look 0 5 0).2 ++ []
  rw [hstarted]
  exact List.mem_singleton_self _

end SupernoteModule.Runtime.ServiceSlot
