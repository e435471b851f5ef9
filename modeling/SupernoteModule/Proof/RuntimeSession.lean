import SupernoteModule.Lib.Exclusive
import SupernoteModule.Runtime.RuntimeSession

/-!
# No feature outlives the cleanup of its runtime

A feature that is still active is in the map or in the hands of the cleanup thread. The cleanup
leaves its loop only while nobody holds the mutex, and by then the flag is clear, so nobody can get
past the check of `add_feature` again.
-/

namespace SupernoteModule.Runtime.RuntimeSession

open SupernoteModule.Lib Function

/-- The call of `create` is about to register the feature. -/
def Create.Holds (feature : Nat) : Create → Prop
  | .adding held | .inserting held => held = feature
  | .absent | .returned _ | .threw => False

/-- What the sessions registered on a runtime keep true. -/
structure Inv (state : State) (history : List Event) : Prop where
  fresh : ∀ feature, state.nextId ≤ feature →
    state.states feature = none ∧ Vacant (Create.Holds feature) state.creates
  creating : ∀ feature, AtMostOne (Create.Holds feature) state.creates
  unregistered : ∀ feature call, (state.creates call).Holds feature → state.states feature = none
  locked : ∀ feature call, state.creates call = .inserting feature → state.locked = some call
  registered : ∀ feature, .registered feature ∈ history → (state.states feature).isSome
  covered : ∀ feature, state.states feature = some .active →
    feature ∈ state.features ∨ state.cleanup = .closing feature
  removing : ∀ feature call, state.closes call = .removing feature →
    ∃ next, state.states feature = some next ∧ next ≠ .active
  finishing : ∀ feature call, state.closes call = .finishing feature →
    (state.states feature).isSome
  cleaning : ∀ feature, state.cleanup = .finishing feature → (state.states feature).isSome
  started : state.cleanup ≠ .idle → state.active = false
  cleaned : .cleanupReturned ∈ history →
    state.features = [] ∧ state.active = false ∧ state.locked = none ∧
      ∀ feature, state.cleanup ≠ .closing feature

variable {state : State} {history : List Event} {call feature : Nat}

theorem Inv.initial : Inv .init [] where
  fresh _ _ := ⟨rfl, fun _ h => h⟩
  creating _ _ _ h := absurd h id
  unregistered _ _ h := absurd h id
  locked _ _ h := by cases h
  registered _ h := absurd h List.not_mem_nil
  covered _ h := by cases h
  removing _ _ h := by cases h
  finishing _ _ h := by cases h
  cleaning _ h := by cases h
  started h := absurd rfl h
  cleaned h := absurd h List.not_mem_nil

/-- A registered feature stays registered. -/
theorem isSome_setState {next : FeatureState} {other : Nat}
    (hother : (state.states other).isSome) :
    ((state.setState feature next).states other).isSome := by
  change (update state.states feature (some next) other).isSome
  rcases eq_or_ne other feature with rfl | hne
  · rw [update_self]
    rfl
  · rwa [update_of_ne hne]

/-- A registered feature may leave `ACTIVE`, which leaves less to cover. -/
theorem Inv.setState (hinv : Inv state history) (next : FeatureState) (hnext : next ≠ .active)
    (hfeature : (state.states feature).isSome) : Inv (state.setState feature next) history := by
  have hnone : ∀ other, state.states other = none →
      update state.states feature (some next) other = none := by
    intro other hother
    rw [update_of_ne, hother]
    rintro rfl
    rw [hother] at hfeature
    cases hfeature
  refine { hinv with
    fresh :=
      fun other hother => ⟨hnone other (hinv.fresh other hother).1, (hinv.fresh other hother).2⟩
    unregistered := fun held other hheld => hnone held (hinv.unregistered held other hheld)
    registered := fun other hother => isSome_setState (hinv.registered other hother)
    covered := ?_
    removing := ?_
    finishing := fun held other hheld => isSome_setState (hinv.finishing held other hheld)
    cleaning := fun held hheld => isSome_setState (hinv.cleaning held hheld) }
  · intro other hactive
    change update state.states feature (some next) other = _ at hactive
    rcases eq_or_ne other feature with rfl | hne
    · rw [update_self] at hactive
      exact absurd (Option.some.inj hactive) hnext
    · rw [update_of_ne hne] at hactive
      exact hinv.covered other hactive
  · intro held other hheld
    rcases eq_or_ne held feature with rfl | hne
    · exact ⟨next, update_self .., hnext⟩
    · obtain ⟨old, hold, hne'⟩ := hinv.removing held other hheld
      exact ⟨old, (update_of_ne hne ..).trans hold, hne'⟩

/-- A call of `close` moves on, with what its next step relies on. -/
theorem Inv.setClose (hinv : Inv state history) (point : Close)
    (hremoving : ∀ feature, point = .removing feature →
      ∃ next, state.states feature = some next ∧ next ≠ .active)
    (hfinishing : ∀ feature, point = .finishing feature → (state.states feature).isSome) :
    Inv (state.setClose call point) history := by
  refine { hinv with removing := fun held => ?_, finishing := fun held => ?_ }
  · exact forall_role_update (· = Close.removing held) (hremoving held) (hinv.removing held)
  · exact forall_role_update (· = Close.finishing held) (hfinishing held) (hinv.finishing held)

/-- A call of `create` that leaves with nothing to register. -/
theorem Inv.leaveCreate (hinv : Inv state history) (point : Create)
    (hpoint : ∀ feature, ¬ point.Holds feature) :
    Inv (state.setCreate call point) history := by
  have hinserting : ∀ feature, point ≠ .inserting feature := by
    rintro held rfl
    exact hpoint held rfl
  refine { hinv with fresh := ?_, creating := ?_, unregistered := ?_, locked := ?_ }
  · intro other hother
    obtain ⟨hnone, hvacant⟩ := hinv.fresh other hother
    exact ⟨hnone, hvacant.update_of_not (hpoint other)⟩
  · intro other
    exact (hinv.creating other).update_of_not (hpoint other)
  · exact fun held => forall_role_update (Create.Holds held) (fun h => absurd h (hpoint held))
      (hinv.unregistered held)
  · exact fun held =>
      forall_role_update (· = Create.inserting held) (fun h => absurd h (hinserting held))
      (hinv.locked held)

theorem Inv.create (hinv : Inv state history) : Inv (state.create call) history := by
  rw [State.create]
  split
  · obtain ⟨hnone, hvacant⟩ := hinv.fresh state.nextId (Nat.le_refl _)
    refine { hinv with fresh := ?_, creating := ?_, unregistered := ?_, locked := ?_ }
    · intro other hother
      have hlt : state.nextId < other := hother
      obtain ⟨hnone', hvacant'⟩ := hinv.fresh other (Nat.le_of_lt hlt)
      exact ⟨hnone', hvacant'.update_of_not (Nat.ne_of_lt hlt)⟩
    · intro other
      rcases eq_or_ne state.nextId other with rfl | hne
      · exact hvacant.atMostOne_update
      · exact (hinv.creating other).update_of_not hne
    · intro held
      refine forall_role_update (Create.Holds held) ?_ (hinv.unregistered held)
      rintro rfl
      exact hnone
    · exact fun held => forall_role_update (· = Create.inserting held) nofun (hinv.locked held)
  · exact hinv.leaveCreate .threw fun _ => id

/-- The flag is read under the mutex, so nobody gets past it after a cleanup. -/
theorem Inv.addCheck (hinv : Inv state history) (hcall : state.creates call = .adding feature)
    (hfree : state.locked = none) : Inv (state.addCheck call feature) history := by
  have hholds : (state.creates call).Holds feature := by rw [hcall]; rfl
  rw [State.addCheck]
  split
  next hactive =>
    refine
      { hinv with
        fresh := ?_
        creating := ?_
        unregistered := ?_
        locked := ?_
        cleaned := ?_ }
    · intro other hother
      obtain ⟨hnone, hvacant⟩ := hinv.fresh other hother
      refine ⟨hnone, hvacant.update_of_not ?_⟩
      rintro rfl
      exact hvacant call hholds
    · intro other
      rcases eq_or_ne feature other with rfl | hne
      · exact (hinv.creating feature).update_of_holds hholds
      · exact (hinv.creating other).update_of_not hne
    · intro held
      refine forall_role_update (Create.Holds held) ?_ (hinv.unregistered held)
      rintro rfl
      exact hinv.unregistered feature call hholds
    · intro held
      refine forall_role_update (· = Create.inserting held) (fun _ => rfl) ?_
      intro other hother
      rw [hinv.locked held other hother] at hfree
      cases hfree
    · intro hcleaned
      rw [(hinv.cleaned hcleaned).2.1] at hactive
      cases hactive
  next => exact hinv.leaveCreate .threw fun _ => id

/-- Whoever holds the mutex got it before any cleanup returned. -/
theorem Inv.not_cleaned (hinv : Inv state history)
    (hcall : state.creates call = .inserting feature) : .cleanupReturned ∉ history := by
  intro hcleaned
  have hfree := (hinv.cleaned hcleaned).2.2.1
  rw [hinv.locked feature call hcall] at hfree
  cases hfree

theorem Inv.addInsert (hinv : Inv state history) (hcall : state.creates call = .inserting feature) :
    Inv (state.addInsert call feature) (history ++ [.registered feature]) := by
  have hholds : (state.creates call).Holds feature := by rw [hcall]; rfl
  have hnone := hinv.unregistered feature call hholds
  have hleft : Vacant (Create.Holds feature) (update state.creates call (.returned feature)) :=
    (hinv.creating feature).vacant_update hholds id
  have hlt : ∀ other, state.nextId ≤ other → other ≠ feature := by
    rintro other hother rfl
    exact (hinv.fresh other hother).2 call hholds
  refine {
    fresh := ?_
    creating := fun other => (hinv.creating other).update_of_not id
    unregistered := ?_
    locked := ?_
    registered := ?_
    covered := ?_
    removing := ?_
    finishing := fun held other hheld => isSome_setState (hinv.finishing held other hheld)
    cleaning := fun held hheld => isSome_setState (hinv.cleaning held hheld)
    started := hinv.started
    cleaned := ?_ }
  · intro other hother
    obtain ⟨hnone', hvacant⟩ := hinv.fresh other hother
    exact ⟨(update_of_ne (hlt other hother) ..).trans hnone', hvacant.update_of_not id⟩
  · intro held other hheld
    have hne : held ≠ feature := by
      rintro rfl
      exact hleft other hheld
    refine (update_of_ne hne ..).trans ?_
    exact forall_role_update (Create.Holds held) (fun h => absurd h id) (hinv.unregistered held)
      other hheld
  · intro held other hother
    change update state.creates call (.returned feature) other = _ at hother
    rcases eq_or_ne other call with rfl | hne
    · rw [update_self] at hother
      cases hother
    · rw [update_of_ne hne] at hother
      have hsame := (hinv.locked held other hother).symm.trans (hinv.locked feature call hcall)
      exact absurd (Option.some.inj hsame) hne
  · intro other hother
    rcases List.mem_append.mp hother with h | h
    · exact isSome_setState (hinv.registered other h)
    · cases List.mem_singleton.mp h
      exact congrArg Option.isSome (update_self feature (some FeatureState.active) state.states)
  · intro other hactive
    change update state.states feature (some .active) other = _ at hactive
    rcases eq_or_ne other feature with rfl | hne
    · exact .inl (List.mem_append_right _ (List.mem_singleton_self _))
    · rw [update_of_ne hne] at hactive
      exact (hinv.covered other hactive).imp_left (List.mem_append_left _)
  · intro held other hheld
    obtain ⟨old, hold, hne⟩ := hinv.removing held other hheld
    refine ⟨old, (update_of_ne ?_ ..).trans hold, hne⟩
    rintro rfl
    rw [hnone] at hold
    cases hold
  · intro hcleaned
    rcases List.mem_append.mp hcleaned with h | h
    · exact absurd h (hinv.not_cleaned hcall)
    · cases List.mem_singleton.mp h

theorem Inv.close (hinv : Inv state history) {runtimeTeardown : Bool} :
    Inv (state.close call feature runtimeTeardown) history := by
  rw [State.close]
  split
  next hactive =>
    have hsome : (state.states feature).isSome := by rw [hactive]; rfl
    refine (hinv.setState .closing nofun hsome).setClose _ ?_ ?_
    · cases runtimeTeardown
      · rintro held ⟨⟩
        exact ⟨.closing, update_self .., nofun⟩
      · exact nofun
    · cases runtimeTeardown
      · exact nofun
      · rintro held ⟨⟩
        exact isSome_setState hsome
  next => exact hinv.setClose .returned nofun nofun

/-- `remove_feature` takes out what has already left `ACTIVE`. -/
theorem Inv.removeFeature (hinv : Inv state history)
    (hfeature : state.states feature ≠ some .active) :
    Inv { state with features := state.features.erase feature } history := by
  refine { hinv with covered := ?_, cleaned := ?_ }
  · intro other hactive
    have hne : other ≠ feature := by
      rintro rfl
      exact hfeature hactive
    exact (hinv.covered other hactive).imp_left (List.mem_erase_of_ne hne).mpr
  · intro hcleaned
    obtain ⟨hempty, hrest⟩ := hinv.cleaned hcleaned
    exact ⟨hempty ▸ List.erase_nil feature, hrest⟩

/-- The cleanup thread takes a feature into its hands. -/
theorem Inv.cleanupPop (hinv : Inv state history) (hcleanup : state.cleanup = .looping)
    (hmem : feature ∈ state.features) :
    Inv { state with features := state.features.erase feature, cleanup := .closing feature }
      history := by
  refine { hinv with covered := ?_, cleaning := nofun, started := ?_, cleaned := ?_ }
  · intro other hactive
    rcases eq_or_ne other feature with rfl | hne
    · exact .inr rfl
    · refine .inl ((List.mem_erase_of_ne hne).mpr ?_)
      exact (hinv.covered other hactive).resolve_right (by rw [hcleanup]; nofun)
  · exact fun _ => hinv.started (by rw [hcleanup]; nofun)
  · intro hcleaned
    rw [(hinv.cleaned hcleaned).1] at hmem
    exact absurd hmem List.not_mem_nil

/-- The cleanup thread moves on without a feature in its hands. -/
theorem Inv.setCleanup (hinv : Inv state history) (cleanup : Cleanup)
    (hcovered : ∀ feature, state.cleanup = .closing feature → state.states feature ≠ some .active)
    (hcleaning : ∀ feature, cleanup = .finishing feature → (state.states feature).isSome)
    (hstarted : cleanup ≠ .idle → state.active = false)
    (hclosing : ∀ feature, cleanup ≠ .closing feature) :
    Inv { state with cleanup := cleanup } history := by
  refine { hinv with covered := ?_, cleaning := hcleaning, started := hstarted, cleaned := ?_ }
  · intro other hactive
    exact .inl ((hinv.covered other hactive).resolve_right fun h => hcovered other h hactive)
  · intro hcleaned
    obtain ⟨hempty, hactive, hfree, _⟩ := hinv.cleaned hcleaned
    exact ⟨hempty, hactive, hfree, hclosing⟩

theorem Inv.cleanupClose (hinv : Inv state history) (hcleanup : state.cleanup = .closing feature) :
    Inv (state.cleanupClose feature) history := by
  have hstarted : state.active = false := hinv.started (by rw [hcleanup]; nofun)
  rw [State.cleanupClose]
  split
  next hactive =>
    have hsome : (state.states feature).isSome := by rw [hactive]; rfl
    refine (hinv.setState .closing nofun hsome).setCleanup _ ?_ ?_ (fun _ => hstarted) nofun
    · intro other hother hactive'
      cases hcleanup.symm.trans hother
      change update state.states feature (some .closing) feature = _ at hactive'
      rw [update_self] at hactive'
      cases hactive'
    · rintro other ⟨⟩
      exact isSome_setState hsome
  next hclosed =>
    refine hinv.setCleanup .looping ?_ nofun (fun _ => hstarted) nofun
    intro other hother
    cases hcleanup.symm.trans hother
    exact hclosed

/-- The loop is left while the map is empty and nobody holds the mutex. -/
theorem Inv.cleanupBreak (hinv : Inv state history) (hcleanup : state.cleanup = .looping)
    (hfree : state.locked = none) (hempty : state.features = []) :
    Inv { state with cleanup := .idle } (history ++ [.cleanupReturned]) := by
  have hstarted : state.active = false := hinv.started (by rw [hcleanup]; nofun)
  have hnext : Inv { state with cleanup := .idle } history := by
    refine hinv.setCleanup .idle ?_ nofun (fun h => absurd rfl h) nofun
    intro other hother
    cases hcleanup.symm.trans hother
  refine { hnext with registered := ?_, cleaned := fun _ => ⟨hempty, hstarted, hfree, nofun⟩ }
  intro other hother
  rcases List.mem_append.mp hother with h | h
  · exact hinv.registered other h
  · cases List.mem_singleton.mp h

theorem invariant : machine.Invariant Inv where
  init := .initial
  step label state history hinv henabled := by
    cases label with
    | create call => exact Machine.keeps_of_silent rfl hinv.create
    | addCheck call feature =>
        exact Machine.keeps_of_silent rfl (hinv.addCheck henabled.1 henabled.2)
    | addInsert call feature => exact hinv.addInsert henabled
    | close call feature runtimeTeardown => exact Machine.keeps_of_silent rfl hinv.close
    | removeFeature call feature =>
        obtain ⟨next, hnext, hne⟩ := hinv.removing feature call henabled.1
        have hnot : state.states feature ≠ some .active := by
          rw [hnext]
          exact fun h => hne (Option.some.inj h)
        refine Machine.keeps_of_silent rfl
          ((hinv.removeFeature hnot).setClose (.finishing feature) nofun ?_)
        rintro held ⟨⟩
        exact congrArg Option.isSome hnext
    | deactivate call feature =>
        exact Machine.keeps_of_silent rfl
          ((hinv.setState .inactive nofun (hinv.finishing feature call henabled)).setClose .returned
            nofun nofun)
    | invalidate =>
        refine Machine.keeps_of_silent rfl { hinv with started := fun _ => rfl, cleaned := ?_ }
        intro hcleaned
        obtain ⟨hempty, _, hrest⟩ := hinv.cleaned hcleaned
        exact ⟨hempty, rfl, hrest⟩
    | cleanupStart =>
        obtain ⟨hidle, hactive, _⟩ := henabled
        refine Machine.keeps_of_silent rfl
          (hinv.setCleanup .looping ?_ nofun (fun _ => hactive) nofun)
        intro other hother
        cases hidle.symm.trans hother
    | cleanupPop feature =>
        obtain ⟨hlooping, _, hmem⟩ := henabled
        exact Machine.keeps_of_silent rfl (hinv.cleanupPop hlooping hmem)
    | cleanupClose feature => exact Machine.keeps_of_silent rfl (hinv.cleanupClose henabled)
    | cleanupDeactivate feature =>
        have hcleanup : state.cleanup = .finishing feature := henabled
        refine Machine.keeps_of_silent rfl
          ((hinv.setState .inactive nofun (hinv.cleaning feature hcleanup)).setCleanup .looping ?_
            nofun ?_ nofun)
        · intro other hother
          cases hcleanup.symm.trans hother
        · exact fun _ => hinv.started (by rw [hcleanup]; nofun)
    | cleanupBreak => exact hinv.cleanupBreak henabled.1 henabled.2.1 henabled.2.2

/-- **Every feature that is still active can be found by a cleanup, and after a cleanup has returned
the map is empty and every feature has left `ACTIVE`, for ever.** -/
theorem features_drained (hreach : machine.Reaches state history) :
    (∀ feature, state.states feature = some .active →
      feature ∈ state.features ∨ state.cleanup = .closing feature) ∧
    (.cleanupReturned ∈ history → ∀ final events, machine.Run state final events →
      final.features = [] ∧ ∀ feature, .registered feature ∈ history ++ events →
        ∃ next, final.states feature = some next ∧ next ≠ .active) := by
  refine ⟨(hreach.invariant invariant).covered, ?_⟩
  intro hreturned final events hrun
  have hinv := (hreach.run hrun).invariant invariant
  obtain ⟨hempty, _, _, hnot⟩ := hinv.cleaned (List.mem_append_left _ hreturned)
  refine ⟨hempty, fun feature hregistered => ?_⟩
  obtain ⟨next, hnext⟩ := Option.isSome_iff_exists.mp (hinv.registered feature hregistered)
  refine ⟨next, hnext, ?_⟩
  rintro rfl
  rcases hinv.covered feature hnext with h | h
  · rw [hempty] at h
    exact absurd h List.not_mem_nil
  · exact hnot feature h

/-- A feature that is inserted after the flag was cleared is closed by the cleanup, one whose check
comes later is refused. -/
theorem features_drained_late :
    ∃ state history, machine.Reaches state history ∧ .registered 1 ∈ history ∧
      .registered 2 ∈ history ∧ state.creates 2 = .threw ∧ state.features = [] ∧
      ∃ next, state.states 2 = some next ∧ next ≠ .active := by
  obtain ⟨state, history, hreach, hrun⟩ := Machine.exists_reaches_of_exec (m := machine)
    [.create 0, .addCheck 0 1, .addInsert 0 1, .create 1, .create 2, .addCheck 1 2, .invalidate,
      .addInsert 1 2, .close 0 1 false, .addCheck 2 3, .cleanupStart, .cleanupPop 2,
      .removeFeature 0 1, .cleanupClose 2, .cleanupDeactivate 2, .deactivate 0 1, .cleanupBreak]
    (p := fun state history => decide (.registered 1 ∈ history ∧ .registered 2 ∈ history ∧
      .cleanupReturned ∈ history ∧ state.creates 2 = .threw)) (by decide)
  obtain ⟨hfirst, hsecond, hreturned, hthrew⟩ := of_decide_eq_true hrun
  obtain ⟨hempty, hclosed⟩ := (features_drained hreach).2 hreturned state [] (.done state)
  exact ⟨state, history, hreach, hfirst, hsecond, hthrew, hempty,
    hclosed 2 (List.mem_append_left _ hsecond)⟩

end SupernoteModule.Runtime.RuntimeSession
