import SupernoteModule.Proof.ForeignFailures

/-!
# Conversions and their limits

The steps of a walk can be taken exactly when what they amount to is within the limits, however the
checks of the budget come between those of the value.
-/

namespace SupernoteModule.Conversion

open SupernoteModule.Lib SupernoteModule.Semantic

/-! ### Room in a snapshot -/

/-- There is room for the measure, on top of what the snapshot has counted. -/
structure Snapshot.Admits (snapshot : Snapshot) (measure : Measure) : Prop where
  depth : measure.height ≤ snapshot.budget.limits.maxDepth
  arrays : ∀ length ∈ measure.arrays, length ≤ snapshot.budget.limits.maxArrayLength
  strings : ∀ length ∈ measure.strings, length ≤ snapshot.budget.limits.maxStringBytes
  buffers : ∀ length ∈ measure.buffers, length ≤ snapshot.budget.limits.maxByteBufferBytes
  nodes : snapshot.budget.visitedNodes + measure.nodes ≤ snapshot.budget.limits.maxVisitedNodes
  bytes : snapshot.budget.temporaryBytes + measure.bytes ≤ snapshot.budget.limits.maxTemporaryBytes
  reservations : ∀ failAfter ∈ snapshot.budget.injector.failAfter,
    snapshot.budget.injector.reservations + measure.reservations ≤ failAfter

/-- The snapshot with the measure counted. -/
def Snapshot.counting (snapshot : Snapshot) (measure : Measure) : Snapshot where
  budget := { snapshot.budget with
    injector := { snapshot.budget.injector with
      reservations := snapshot.budget.injector.reservations + measure.reservations }
    visitedNodes := snapshot.budget.visitedNodes + measure.nodes
    temporaryBytes := snapshot.budget.temporaryBytes + measure.bytes }
  retained := snapshot.retained ++ measure.objects

@[simp] theorem Snapshot.counting_nil (snapshot : Snapshot) : snapshot.counting {} = snapshot := by
  rw [counting, List.append_nil]
  rfl

theorem Snapshot.counting_beside (snapshot : Snapshot) (first next : Measure) :
    snapshot.counting (first.beside next) = (snapshot.counting first).counting next := by
  simp only [counting, Measure.beside, Nat.add_assoc, List.append_assoc]

theorem Snapshot.admits_beside {snapshot : Snapshot} {first next : Measure} :
    snapshot.Admits (first.beside next) ↔
      snapshot.Admits first ∧ (snapshot.counting first).Admits next := by
  constructor
  · intro hadmits
    have hdepth : max first.height next.height ≤ _ := hadmits.depth
    have hnodes : snapshot.budget.visitedNodes + (first.nodes + next.nodes) ≤ _ := hadmits.nodes
    have hbytes : snapshot.budget.temporaryBytes + (first.bytes + next.bytes) ≤ _ := hadmits.bytes
    have hreservations : ∀ failAfter ∈ snapshot.budget.injector.failAfter,
        snapshot.budget.injector.reservations + (first.reservations + next.reservations) ≤
          failAfter := hadmits.reservations
    obtain ⟨harrays, harrays_next⟩ := List.forall_mem_append.mp hadmits.arrays
    obtain ⟨hstrings, hstrings_next⟩ := List.forall_mem_append.mp hadmits.strings
    obtain ⟨hbuffers, hbuffers_next⟩ := List.forall_mem_append.mp hadmits.buffers
    constructor
    · exact ⟨by omega, harrays, hstrings, hbuffers, by omega, by omega,
        fun failAfter hinjector => by
          have := hreservations failAfter hinjector
          omega⟩
    · exact ⟨by change next.height ≤ snapshot.budget.limits.maxDepth; omega, harrays_next,
        hstrings_next, hbuffers_next, Nat.add_assoc .. ▸ hnodes, Nat.add_assoc .. ▸ hbytes,
        fun failAfter hinjector => Nat.add_assoc .. ▸ hreservations failAfter hinjector⟩
  · rintro ⟨hfirst, hnext⟩
    exact ⟨Nat.max_le.mpr ⟨hfirst.depth, hnext.depth⟩,
      List.forall_mem_append.mpr ⟨hfirst.arrays, hnext.arrays⟩,
      List.forall_mem_append.mpr ⟨hfirst.strings, hnext.strings⟩,
      List.forall_mem_append.mpr ⟨hfirst.buffers, hnext.buffers⟩,
      (Nat.add_assoc ..).symm ▸ hnext.nodes, (Nat.add_assoc ..).symm ▸ hnext.bytes,
      fun failAfter hinjector => (Nat.add_assoc ..).symm ▸ hnext.reservations failAfter hinjector⟩

theorem Step.execute_eq_ok {step : Step} {snapshot next : Snapshot} (hroom : snapshot.Admits {}) :
    step.execute snapshot = .ok next ↔
      snapshot.Admits step.tally ∧ next = snapshot.counting step.tally := by
  cases step with
  | visit path depth =>
      have hcounting : snapshot.counting (Step.tally (.visit path depth)) = snapshot.visited := by
        rw [Snapshot.counting, tally, List.append_nil]
        rfl
      rw [execute, Snapshot.visit_eq_ok, hcounting]
      apply and_congr_left
      intro _
      constructor
      · rintro ⟨hdepth, hnodes⟩
        exact { hroom with depth := hdepth, nodes := hnodes }
      · intro hadmits
        exact ⟨hadmits.depth, hadmits.nodes⟩
  | checkStringBytes length path =>
      have hcounting : snapshot.counting (Step.tally (.checkStringBytes length path)) = snapshot :=
        snapshot.counting_nil
      rw [hcounting]
      simp only [execute, ConversionBudget.checkStringBytes, bind_eq_ok, exists_unit, require_eq_ok,
        pure_eq_ok]
      rw [eq_comm (a := snapshot)]
      apply and_congr_left
      intro _
      constructor
      · intro hlength
        exact { hroom with strings := List.forall_mem_singleton.mpr hlength }
      · intro hadmits
        exact hadmits.strings length List.mem_cons_self
  | checkBuffer length path =>
      have hcounting : snapshot.counting (Step.tally (.checkBuffer length path)) = snapshot :=
        snapshot.counting_nil
      rw [hcounting]
      simp only [execute, bind_eq_ok, exists_unit, require_eq_ok, pure_eq_ok]
      rw [eq_comm (a := snapshot)]
      apply and_congr_left
      intro _
      constructor
      · intro hlength
        exact { hroom with buffers := List.forall_mem_singleton.mpr hlength }
      · intro hadmits
        exact hadmits.buffers length List.mem_cons_self
  | checkArray length path =>
      have hcounting : snapshot.counting (Step.tally (.checkArray length path)) = snapshot :=
        snapshot.counting_nil
      rw [hcounting]
      simp only [execute, bind_eq_ok, exists_unit, require_eq_ok, pure_eq_ok]
      rw [eq_comm (a := snapshot)]
      apply and_congr_left
      intro _
      constructor
      · intro hlength
        exact { hroom with arrays := List.forall_mem_singleton.mpr hlength }
      · intro hadmits
        exact hadmits.arrays length List.mem_cons_self
  | reserve amount path =>
      have hcounting :
          snapshot.counting (Step.tally (.reserve amount path)) = snapshot.reserved amount := by
        rw [Snapshot.counting, tally, Measure.room, List.append_nil]
        rfl
      rw [execute, Snapshot.reserve_eq_ok, hcounting]
      apply and_congr_left
      intro _
      constructor
      · rintro ⟨hinjector, hbytes⟩
        exact { hroom with bytes := hbytes, reservations := hinjector }
      · intro hadmits
        exact ⟨hadmits.reservations, hadmits.bytes⟩
  | retain token =>
      have hcounting :
          snapshot.counting (Step.tally (.retain token)) = snapshot.retain token := rfl
      rw [hcounting, execute, Except.ok.injEq, eq_comm]
      constructor
      · intro hnext
        exact ⟨{ hroom with }, hnext⟩
      · rintro ⟨_, hnext⟩
        exact hnext

/-- **The law of the budget.** Steps can be taken exactly when there is room for all they amount to,
and then that is what is counted. -/
theorem executeAll_eq_ok {steps : List Step} {snapshot final : Snapshot}
    (hroom : snapshot.Admits {}) :
    Walk.executeAll Step.execute steps snapshot = .ok final ↔
      snapshot.Admits (tally steps) ∧ final = snapshot.counting (tally steps) := by
  induction steps generalizing snapshot with
  | nil =>
      rw [Walk.executeAll_nil, Except.ok.injEq]
      change _ ↔ snapshot.Admits {} ∧ final = snapshot.counting {}
      rw [Snapshot.counting_nil, eq_comm]
      exact (and_iff_right hroom).symm
  | cons step steps ih =>
      change _ ↔ snapshot.Admits (step.tally.beside (tally steps)) ∧
        final = snapshot.counting (step.tally.beside (tally steps))
      rw [Walk.executeAll_cons, bind_eq_ok, Snapshot.admits_beside, Snapshot.counting_beside]
      constructor
      · rintro ⟨next, hstep, hsteps⟩
        obtain ⟨hadmits, rfl⟩ := (Step.execute_eq_ok hroom).mp hstep
        have hnext : (snapshot.counting step.tally).Admits {} :=
          (Snapshot.admits_beside.mp (by rwa [Measure.beside_nil])).2
        obtain ⟨hrest, rfl⟩ := (ih hnext).mp hsteps
        exact ⟨⟨hadmits, hrest⟩, rfl⟩
      · rintro ⟨⟨hadmits, hrest⟩, rfl⟩
        have hnext : (snapshot.counting step.tally).Admits {} :=
          (Snapshot.admits_beside.mp (by rwa [Measure.beside_nil])).2
        exact ⟨_, (Step.execute_eq_ok hroom).mpr ⟨hadmits, rfl⟩, (ih hnext).mpr ⟨hrest, rfl⟩⟩

/-! ### Conversions from the start -/

/-- A conversion that has not begun, with an injector that may fail. -/
def Snapshot.fresh (limits : ConversionLimits) (failAfter : Option Nat) : Snapshot where
  budget := { limits := limits, injector := { failAfter := failAfter } }

theorem Snapshot.admits_fresh_nil (limits : ConversionLimits) (failAfter : Option Nat) :
    (fresh limits failAfter).Admits {} :=
  ⟨Nat.zero_le _, List.forall_mem_nil _, List.forall_mem_nil _, List.forall_mem_nil _,
    Nat.zero_le _, Nat.zero_le _, fun _ _ => Nat.zero_le _⟩

theorem Snapshot.admits_fresh {limits : ConversionLimits} {failAfter : Option Nat}
    {measure : Measure} : (fresh limits failAfter).Admits measure ↔
      measure.Within limits 1 ∧ ∀ count ∈ failAfter, measure.reservations ≤ count := by
  constructor
  · intro hadmits
    have hdepth : measure.height ≤ limits.maxDepth := hadmits.depth
    have hnodes : 0 + measure.nodes ≤ limits.maxVisitedNodes := hadmits.nodes
    have hbytes : 0 + measure.bytes ≤ limits.maxTemporaryBytes := hadmits.bytes
    refine ⟨⟨by omega, hadmits.arrays, hadmits.strings, hadmits.buffers, by omega, by omega⟩, ?_⟩
    intro count hcount
    have hreservations : 0 + measure.reservations ≤ count := hadmits.reservations count hcount
    omega
  · rintro ⟨hwithin, hinjector⟩
    have hdepth := hwithin.depth
    have hnodes := hwithin.nodes
    have hbytes := hwithin.bytes
    refine ⟨?_, hwithin.arrays, hwithin.strings, hwithin.buffers, ?_, ?_, ?_⟩
    · change measure.height ≤ limits.maxDepth
      omega
    · change 0 + measure.nodes ≤ limits.maxVisitedNodes
      omega
    · change 0 + measure.bytes ≤ limits.maxTemporaryBytes
      omega
    · intro count hcount
      have hreservations := hinjector count hcount
      change 0 + measure.reservations ≤ count
      omega

/-- From the start the steps amount to the measure itself. -/
theorem tally_of_tallied {Output : Type} {walk : ConversionWalk Output} {measure : Measure}
    {result : Except Failure Output} (htallied : Tallied 0 walk measure result) :
    tally walk.steps = measure := by
  have hsteps := htallied.steps
  change (tally walk.steps).beside {} = _ at hsteps
  rwa [Measure.beside_nil, Measure.raised_zero] at hsteps

section Conversion

variable {direction : ConversionDirection} {node : ConversionNode} {value : Value} {path : String}
  {limits : ConversionLimits} {failAfter : Option Nat}

/-- A conversion succeeds for the inhabitants within the limits, and counts what they measure. -/
theorem convert_fresh_eq_ok {converted : Value} {final : Snapshot} :
    convert direction node value path 1 (.fresh limits failAfter) = .ok (converted, final) ↔
      (walk direction node value path 1).result = .ok converted ∧ Inhabits direction node value ∧
        (measure direction node value).Within limits 1 ∧
        (∀ count ∈ failAfter, (measure direction node value).reservations ≤ count) ∧
        final = (Snapshot.fresh limits failAfter).counting (measure direction node value) := by
  rw [convert_eq_run, Walk.run_eq_ok, executeAll_eq_ok (Snapshot.admits_fresh_nil limits failAfter)]
  constructor
  · rintro ⟨⟨hadmits, hfinal⟩, hresult⟩
    have hinhabits := inhabits_of_walk node hresult
    obtain ⟨_, htallied⟩ := walked direction node value hinhabits path 0
    rw [tally_of_tallied htallied] at hadmits hfinal
    obtain ⟨hwithin, hinjector⟩ := Snapshot.admits_fresh.mp hadmits
    exact ⟨hresult, hinhabits, hwithin, hinjector, hfinal⟩
  · rintro ⟨hresult, hinhabits, hwithin, hinjector, hfinal⟩
    obtain ⟨_, htallied⟩ := walked direction node value hinhabits path 0
    rw [tally_of_tallied htallied]
    exact ⟨⟨Snapshot.admits_fresh.mpr ⟨hwithin, hinjector⟩, hfinal⟩, hresult⟩

theorem exists_convert_fresh :
    (∃ converted final,
        convert direction node value path 1 (.fresh limits failAfter) = .ok (converted, final)) ↔
      Inhabits direction node value ∧ (measure direction node value).Within limits 1 ∧
        ∀ count ∈ failAfter, (measure direction node value).reservations ≤ count := by
  constructor
  · rintro ⟨converted, final, hconvert⟩
    obtain ⟨_, hinhabits, hwithin, hinjector, _⟩ := convert_fresh_eq_ok.mp hconvert
    exact ⟨hinhabits, hwithin, hinjector⟩
  · rintro ⟨hinhabits, hwithin, hinjector⟩
    obtain ⟨converted, htallied⟩ := walked direction node value hinhabits path 0
    exact ⟨converted, _,
      convert_fresh_eq_ok.mpr ⟨htallied.result, hinhabits, hwithin, hinjector, rfl⟩⟩

/-! ### Failures of the budget -/

theorem kind_of_require {condition : Prop} [Decidable condition] {error failure : Failure}
    (hrequire : require condition error = .error failure) : failure.kind = error.kind := by
  obtain ⟨_, rfl⟩ := require_eq_error.mp hrequire
  rfl

theorem kind_of_checkedAdd {left right : Nat} {label : String} {failure : Failure}
    (hadd : ConversionBudget.checkedAdd left right path label = .error failure) :
    failure.kind = .range := by
  rcases bind_eq_error.mp hadd with hcounter | ⟨_, _, hpure⟩
  · exact kind_of_require hcounter
  · cases hpure

theorem kind_of_visit {budget : ConversionBudget} {depth : Nat} {failure : Failure}
    (hvisit : budget.visit path depth = .error failure) : failure.kind = .range := by
  rcases bind_eq_error.mp hvisit with hdepth | ⟨_, _, hrest⟩
  · exact kind_of_require hdepth
  · rcases bind_eq_error.mp hrest with hadd | ⟨_, _, hrest⟩
    · exact kind_of_checkedAdd hadd
    · rcases bind_eq_error.mp hrest with hvisits | ⟨_, _, hpure⟩
      · exact kind_of_require hvisits
      · cases hpure

theorem kind_of_reserve {budget : ConversionBudget} {amount : Nat} {failure : Failure}
    (hreserve : budget.reserve amount path = .error failure) :
    failure.kind = .range ∨ failure.kind = .allocation ∧
      ∃ count ∈ budget.injector.failAfter, count ≤ budget.injector.reservations := by
  rcases bind_eq_error.mp hreserve with hinjector | ⟨_, _, hrest⟩
  · rcases bind_eq_error.mp hinjector with hcount | ⟨_, _, hpure⟩
    · right
      refine ⟨kind_of_require hcount, ?_⟩
      obtain ⟨hexhausted, _⟩ := require_eq_error.mp hcount
      push Not at hexhausted
      exact hexhausted
    · cases hpure
  · left
    rcases bind_eq_error.mp hrest with hadd | ⟨_, _, hrest⟩
    · exact kind_of_checkedAdd hadd
    · rcases bind_eq_error.mp hrest with htotal | ⟨_, _, hpure⟩
      · exact kind_of_require htotal
      · cases hpure

/-- A step fails at a limit, or it is a reservation and the injector has no more to give. -/
theorem kind_of_execute {step : Step} {snapshot : Snapshot} {failure : Failure}
    (hexecute : step.execute snapshot = .error failure) :
    failure.kind = .range ∨ failure.kind = .allocation ∧
      ∃ amount itemPath, step = .reserve amount itemPath ∧
        ∃ count ∈ snapshot.budget.injector.failAfter,
          count ≤ snapshot.budget.injector.reservations := by
  cases step with
  | visit itemPath depth =>
      rcases bind_eq_error.mp hexecute with hvisit | ⟨_, _, hpure⟩
      · exact .inl (kind_of_visit hvisit)
      · cases hpure
  | checkStringBytes length itemPath | checkBuffer length itemPath | checkArray length itemPath =>
      rcases bind_eq_error.mp hexecute with hlength | ⟨_, _, hpure⟩
      · exact .inl (kind_of_require hlength)
      · cases hpure
  | reserve amount itemPath =>
      rcases bind_eq_error.mp hexecute with hreserve | ⟨_, _, hpure⟩
      · apply (kind_of_reserve hreserve).imp_right
        rintro ⟨hkind, hexhausted⟩
        exact ⟨hkind, amount, itemPath, rfl, hexhausted⟩
      · cases hpure
  | retain token => cases hexecute

/-- A conversion fails at a step, or all steps are taken and the walk ends with the failure. -/
theorem convert_fresh_eq_error {failure : Failure} :
    convert direction node value path 1 (.fresh limits failAfter) = .error failure ↔
      Walk.executeAll Step.execute (walk direction node value path 1).steps
          (.fresh limits failAfter) = .error failure ∨
        (Snapshot.fresh limits failAfter).Admits (tally (walk direction node value path 1).steps) ∧
          (walk direction node value path 1).result = .error failure := by
  rw [convert_eq_run, Walk.run_eq_error]
  apply or_congr_right
  constructor
  · rintro ⟨final, hsteps, hresult⟩
    exact ⟨((executeAll_eq_ok (Snapshot.admits_fresh_nil limits failAfter)).mp hsteps).1, hresult⟩
  · rintro ⟨hadmits, hresult⟩
    exact ⟨_, (executeAll_eq_ok (Snapshot.admits_fresh_nil limits failAfter)).mpr ⟨hadmits, rfl⟩,
      hresult⟩

/-- The walk does not end with a failed allocation. -/
theorem walk_not_allocation {failure : Failure}
    (hresult : (walk direction node value path 1).result = .error failure) :
    failure.kind ≠ .allocation := by
  intro hkind
  have hunchecked : failure.Unchecked := by
    simp [Failure.Unchecked, hkind]
  obtain ⟨reached, htrips⟩ := trips_of_walk hunchecked node hresult
  obtain ⟨other, hforeign, htallied⟩ := tallied_of_trips direction node htrips path 0
  obtain rfl : failure = other := Except.error.inj (hresult.symm.trans htallied.result)
  rcases hforeign with hencoding | hoverflow
  · rw [hencoding] at hkind
    cases hkind
  · rw [hoverflow] at hkind
    cases hkind

theorem Measure.Within.of_beside {first next : Measure} {depth : Nat}
    (hwithin : (first.beside next).Within limits depth) : first.Within limits depth := by
  have hdepth : depth + max first.height next.height ≤ limits.maxDepth + 1 := hwithin.depth
  have hnodes : first.nodes + next.nodes ≤ limits.maxVisitedNodes := hwithin.nodes
  have hbytes : first.bytes + next.bytes ≤ limits.maxTemporaryBytes := hwithin.bytes
  exact ⟨by omega, (List.forall_mem_append.mp hwithin.arrays).1,
    (List.forall_mem_append.mp hwithin.strings).1, (List.forall_mem_append.mp hwithin.buffers).1,
    by omega, by omega⟩

/-- The step of a walk at which so many reservations have been made. -/
theorem exists_reservation {count : Nat} {steps : List Step}
    (hcount : count < (tally steps).reservations) :
    ∃ before amount itemPath after, steps = before ++ .reserve amount itemPath :: after ∧
      (tally before).reservations = count := by
  induction steps generalizing count with
  | nil => exact absurd hcount (Nat.not_lt_zero count)
  | cons step steps ih =>
      have htally : (tally (step :: steps)).reservations =
          step.tally.reservations + (tally steps).reservations := rfl
      have hothers (hstep : step.tally.reservations = 0) :
          ∃ before amount itemPath after,
            step :: steps = before ++ .reserve amount itemPath :: after ∧
              (tally before).reservations = count := by
        obtain ⟨before, amount, itemPath, after, rfl, hbefore⟩ := @ih count (by omega)
        refine ⟨step :: before, amount, itemPath, after, rfl, ?_⟩
        change step.tally.reservations + (tally before).reservations = count
        omega
      cases step with
      | reserve amount itemPath =>
          have hstep : (Step.reserve amount itemPath).tally.reservations = 1 := rfl
          cases count with
          | zero => exact ⟨[], amount, itemPath, steps, rfl, rfl⟩
          | succ count =>
              obtain ⟨before, other, otherPath, after, rfl, hbefore⟩ :=
                @ih count (by omega)
              refine ⟨.reserve amount itemPath :: before, other, otherPath, after, rfl, ?_⟩
              change 1 + (tally before).reservations = count + 1
              omega
      | _ => exact hothers rfl

/-- With an injector a conversion fails to allocate when it comes to one reservation too many. -/
theorem convert_fails_allocation {count : Nat} :
    (∃ failure, convert direction node value path 1 (.fresh limits (some count)) = .error failure ∧
        failure.kind = .allocation) ↔
      ∃ before amount itemPath after,
        (walk direction node value path 1).steps = before ++ .reserve amount itemPath :: after ∧
          (tally before).reservations = count ∧ (tally before).Within limits 1 := by
  have hroom := Snapshot.admits_fresh_nil limits (some count)
  constructor
  · rintro ⟨failure, hconvert, hkind⟩
    rcases convert_fresh_eq_error.mp hconvert with hsteps | ⟨_, hresult⟩
    · obtain ⟨before, step, after, reached, hsplit, hbefore, hexecute⟩ :=
        Walk.executeAll_eq_error.mp hsteps
      obtain ⟨hadmits, rfl⟩ := (executeAll_eq_ok hroom).mp hbefore
      obtain ⟨hwithin, hinjector⟩ := Snapshot.admits_fresh.mp hadmits
      rcases kind_of_execute hexecute with hrange | ⟨_, amount, itemPath, rfl, _, hmem, hexhausted⟩
      · rw [hrange] at hkind
        cases hkind
      · obtain rfl := Option.mem_some_iff.mp hmem
        have hleft := hinjector _ rfl
        have hright : count ≤ 0 + (tally before).reservations := hexhausted
        exact ⟨before, amount, itemPath, after, hsplit, by omega, hwithin⟩
    · exact absurd hkind (walk_not_allocation hresult)
  · rintro ⟨before, amount, itemPath, after, hsplit, hcount, hwithin⟩
    have hadmits : (Snapshot.fresh limits (some count)).Admits (tally before) := by
      apply Snapshot.admits_fresh.mpr
      refine ⟨hwithin, ?_⟩
      intro other hother
      obtain rfl := Option.mem_some_iff.mp hother
      exact hcount.le
    have hbefore := (executeAll_eq_ok hroom).mpr ⟨hadmits, rfl⟩
    refine ⟨⟨.allocation, itemPath, "injected temporary allocation failure"⟩, ?_, rfl⟩
    apply convert_fresh_eq_error.mpr
    apply Or.inl
    apply Walk.executeAll_eq_error.mpr
    refine ⟨before, _, after, _, hsplit, hbefore, ?_⟩
    apply bind_eq_error.mpr
    apply Or.inl
    apply bind_eq_error.mpr
    apply Or.inl
    apply bind_eq_error.mpr
    apply Or.inl
    apply require_eq_error.mpr
    refine ⟨?_, rfl⟩
    intro hinjector
    have hbelow : 0 + (tally before).reservations < count := hinjector count rfl
    omega

end Conversion

/-! ### What a conversion needs -/

/-- No limit is smaller. -/
structure ConversionLimits.Covers (larger limits : ConversionLimits) : Prop where
  depth : limits.maxDepth ≤ larger.maxDepth
  arrays : limits.maxArrayLength ≤ larger.maxArrayLength
  strings : limits.maxStringBytes ≤ larger.maxStringBytes
  buffers : limits.maxByteBufferBytes ≤ larger.maxByteBufferBytes
  nodes : limits.maxVisitedNodes ≤ larger.maxVisitedNodes
  bytes : limits.maxTemporaryBytes ≤ larger.maxTemporaryBytes

theorem Measure.Within.mono {limits larger : ConversionLimits} {depth : Nat} {measure : Measure}
    (hwithin : measure.Within limits depth) (hcovers : larger.Covers limits) :
    measure.Within larger depth where
  depth := hwithin.depth.trans (Nat.add_le_add_right hcovers.depth 1)
  arrays := fun length hlength => (hwithin.arrays length hlength).trans hcovers.arrays
  strings := fun length hlength => (hwithin.strings length hlength).trans hcovers.strings
  buffers := fun length hlength => (hwithin.buffers length hlength).trans hcovers.buffers
  nodes := hwithin.nodes.trans hcovers.nodes
  bytes := hwithin.bytes.trans hcovers.bytes

/-- What is counted when a conversion is over. -/
structure Snapshot.Counts (final : Snapshot) (measure : Measure) : Prop where
  nodes : final.budget.visitedNodes = measure.nodes
  bytes : final.budget.temporaryBytes = measure.bytes
  objects : final.retained = measure.objects

theorem Snapshot.counts_counting_fresh (limits : ConversionLimits) (failAfter : Option Nat)
    (measure : Measure) : ((fresh limits failAfter).counting measure).Counts measure where
  nodes := Nat.zero_add _
  bytes := Nat.zero_add _
  objects := rfl

/-- **What a conversion needs.** It succeeds exactly for the inhabitants of the type that are within
the limits and need no more reservations than the injector lets through; it counts what the value
measures, and larger limits change nothing. It fails to allocate exactly when it comes to a
reservation too many before it ends, for inhabitants within the limits therefore exactly when they
need more reservations. -/
theorem convert_needs (direction : ConversionDirection) (node : ConversionNode) (value : Value)
    (path : String) (limits : ConversionLimits) :
    (∀ failAfter, (∃ converted final,
        convert direction node value path 1 (.fresh limits failAfter) = .ok (converted, final)) ↔
      Inhabits direction node value ∧ (measure direction node value).Within limits 1 ∧
        ∀ count ∈ failAfter, (measure direction node value).reservations ≤ count) ∧
    (∀ failAfter converted final,
      convert direction node value path 1 (.fresh limits failAfter) = .ok (converted, final) →
        final.Counts (measure direction node value) ∧
          ∀ larger : ConversionLimits, larger.Covers limits → ∃ other,
            convert direction node value path 1 (.fresh larger failAfter) = .ok (converted, other) ∧
              other.Counts (measure direction node value)) ∧
    (∀ count, (∃ failure,
        convert direction node value path 1 (.fresh limits (some count)) = .error failure ∧
          failure.kind = .allocation) ↔
      ∃ before amount itemPath after,
        (walk direction node value path 1).steps = before ++ .reserve amount itemPath :: after ∧
          (tally before).reservations = count ∧ (tally before).Within limits 1) ∧
    (∀ count, Inhabits direction node value → (measure direction node value).Within limits 1 →
      ((∃ failure,
          convert direction node value path 1 (.fresh limits (some count)) = .error failure ∧
            failure.kind = .allocation) ↔
        count < (measure direction node value).reservations)) := by
  refine ⟨fun failAfter => exists_convert_fresh, ?_, fun count => convert_fails_allocation, ?_⟩
  · intro failAfter converted final hconvert
    obtain ⟨hresult, hinhabits, hwithin, hinjector, rfl⟩ := convert_fresh_eq_ok.mp hconvert
    refine ⟨Snapshot.counts_counting_fresh .., ?_⟩
    intro larger hcovers
    exact ⟨_, convert_fresh_eq_ok.mpr
        ⟨hresult, hinhabits, hwithin.mono hcovers, hinjector, rfl⟩,
      Snapshot.counts_counting_fresh ..⟩
  · intro count hinhabits hwithin
    constructor
    · rintro ⟨failure, hconvert, _⟩
      by_contra hfew
      have hroom : ∀ other ∈ some count, (measure direction node value).reservations ≤ other := by
        intro other hother
        obtain rfl := Option.mem_some_iff.mp hother
        omega
      obtain ⟨converted, final, hok⟩ :=
        (@exists_convert_fresh direction node value path limits (some count)).mpr
          ⟨hinhabits, hwithin, hroom⟩
      rw [hok] at hconvert
      cases hconvert
    · intro hmany
      obtain ⟨_, htallied⟩ := walked direction node value hinhabits path 0
      have htally := tally_of_tallied htallied
      rw [← htally] at hmany hwithin
      obtain ⟨before, amount, itemPath, after, hsplit, hcount⟩ := exists_reservation hmany
      rw [Nat.zero_add] at hsplit hwithin
      rw [hsplit, tally_append] at hwithin
      exact convert_fails_allocation.mpr
        ⟨before, amount, itemPath, after, hsplit, hcount, hwithin.of_beside⟩

/-- The second item is no string, but the injector stops the conversion at the first. -/
theorem convert_fails_before_misfit :
    ¬ ((∃ failure,
        convert .input (.array (.scalar .string)) (.list [.text (.ofString "a"), .int 5]) "value" 1
          (.fresh .standard (some 1)) = .error failure ∧ failure.kind = .allocation) ↔
      Inhabits .input (.array (.scalar .string)) (.list [.text (.ofString "a"), .int 5]) ∧
        (measure .input (.array (.scalar .string))
          (.list [.text (.ofString "a"), .int 5])).Within .standard 1 ∧
        1 < (measure .input (.array (.scalar .string))
          (.list [.text (.ofString "a"), .int 5])).reservations) := by
  intro hexactly
  obtain ⟨⟨items, hitems, hinhabit⟩, _⟩ := hexactly.mp ⟨_, rfl, rfl⟩
  obtain rfl := Option.some.inj hitems
  obtain ⟨_, text, characters, hvalue, _⟩ := hinhabit (.int 5) (by simp)
  cases hvalue

/-! ### The classes of the failures -/

/-- **Which conversions keep to the three classes.** All do but those that come, within the limits,
to a text that has no encoding or to an integer that no double holds. -/
theorem convert_classified_iff (direction : ConversionDirection) (node : ConversionNode)
    (value : Value) (path : String) (limits : ConversionLimits) (failAfter : Option Nat) :
    (∀ failure, convert direction node value path 1 (.fresh limits failAfter) = .error failure →
        failure.kind = .type ∨ failure.kind = .range ∨ failure.kind = .allocation) ↔
      ¬ ∃ reached, Trips direction node value reached ∧ reached.Within limits 1 ∧
        ∀ count ∈ failAfter, reached.reservations ≤ count := by
  constructor
  · rintro hclassified ⟨reached, htrips, hroom⟩
    obtain ⟨failure, hforeign, htallied⟩ := tallied_of_trips direction node htrips path 0
    have hadmits : (Snapshot.fresh limits failAfter).Admits
        (tally (walk direction node value path 1).steps) := by
      rw [tally_of_tallied htallied]
      exact Snapshot.admits_fresh.mpr hroom
    have hkind := hclassified failure
      (convert_fresh_eq_error.mpr (.inr ⟨hadmits, htallied.result⟩))
    rcases hforeign with hencoding | hoverflow
    · simp [hencoding] at hkind
    · simp [hoverflow] at hkind
  · intro hholds failure hconvert
    rcases convert_fresh_eq_error.mp hconvert with hsteps | ⟨hadmits, hresult⟩
    · obtain ⟨_, _, _, _, _, _, hexecute⟩ := Walk.executeAll_eq_error.mp hsteps
      rcases kind_of_execute hexecute with hrange | ⟨hallocation, _⟩
      · exact .inr (.inl hrange)
      · exact .inr (.inr hallocation)
    · by_contra hkind
      push Not at hkind
      obtain ⟨htype, hrange, _⟩ := hkind
      obtain ⟨reached, htrips⟩ := trips_of_walk ⟨htype, hrange⟩ node hresult
      obtain ⟨_, _, htallied⟩ := tallied_of_trips direction node htrips path 0
      rw [tally_of_tallied htallied] at hadmits
      exact hholds ⟨reached, htrips, Snapshot.admits_fresh.mp hadmits⟩

/-- A lone surrogate is refused by the encoder of the language, with an error of its own. -/
theorem convert_unclassified_surrogate :
    ¬ ∀ failure, convert .input (.scalar .string) (.text [.surrogate 0]) "value" 1
        (.fresh .standard none) = .error failure →
      failure.kind = .type ∨ failure.kind = .range ∨ failure.kind = .allocation := by
  intro hclassified
  have hkind := hclassified _ rfl
  simp at hkind

end SupernoteModule.Conversion
