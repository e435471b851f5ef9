import SupernoteModule.Spec.ConversionSurvey

/-!
# Generated conversions are metered walks

Each of the four generated functions settles the survey of its value: with the price list of its
reservations, and with the reading of objects that it has.
-/

namespace SupernoteModule.Codegen

open SupernoteModule.Lib SupernoteModule.Semantic SupernoteModule.Conversion

/-- What an error amounts to: a limit of the budget, an error constructor, an exception of the
implementation, or none of them. -/
inductive Refusal where
  | limit
  | mismatch
  | outOfRange
  | implementation
  | other
deriving DecidableEq

def Thrown.refusal : Thrown → Refusal
  | .builtin error =>
      match error.constructor with
      | .typeError => .mismatch
      | .rangeError => .outOfRange
  | .failure failed => if failed.kind = .range then .limit else .other
  | .implementation _ | .standard _ => .implementation

namespace Lowering

variable (lowering : Lowering) (limits : ConversionLimits) (engine : Engine)

def tariff : Tariff where
  text := lowering.reservesText
  buffer := lowering.reservesBuffer
  constant := lowering.reservesConstant
  object := lowering.reservesObject
  array := lowering.reservesArray
  value := lowering.reservesValue

/-! ### What values become -/

def nativeScalar (kind : ScalarKind) (value : Value) : Native :=
  match kind with
  | .bool =>
      match value with
      | .bool flag => .bool flag
      | _ => .absent
  | .int32 =>
      match (Jsi.number? value).bind integral? with
      | some integer => .int32 integer
      | none => .absent
  | .int64 =>
      match value with
      | .bigint integer => .int64 integer
      | _ => .absent
  | .float32 =>
      match Jsi.number? value with
      | some number => .single number
      | none => .absent
  | .float64 =>
      match Jsi.number? value with
      | some number => .double number
      | none => .absent
  | .string =>
      match value with
      | .text text => .string (engine.utf8 text)
      | _ => .absent
  | .bytes =>
      match Jsi.uint8Array? value with
      | some view => .bytes view.visibleBytes
      | none => .absent

mutual

/-- What a value that fits the type becomes. -/
def native : ConversionNode → Value → Native
  | .void, _ => .absent
  | .nullable element, value => if value.isNull then .absent else native element value
  | .scalar kind, value => nativeScalar engine kind value
  | .object typeId _, value =>
      match Jsi.managedObject? lowering.backend typeId value with
      | some token => .managed token
      | none => .absent
  | .enum typeId _ _, value =>
      match value with
      | .text text => .constant typeId (engine.utf8 text)
      | _ => .absent
  | .array element, value =>
      .list (((Jsi.array? value).getD []).map fun item => native element item)
  | .value typeId _ fields, value =>
      .record typeId (nativeFields ((Jsi.object? value).getD ([], [])) fields)

def nativeFields (properties : List (String × Value) × List (String × Value)) :
    List (String × ConversionNode) → List Native
  | [] => []
  | (name, node) :: fields =>
      native node (Jsi.getProperty properties name) :: nativeFields properties fields

end

/-! ### Readings -/

def reading : Reading where
  number value := demand (Jsi.number? value) .mismatch
  characters text := .ok (engine.utf8 text)
  sizesFirst := true
  object typeId value := (Jsi.managedObject? lowering.backend typeId value).isSome
  fields value := (Jsi.object? value).map fun properties name =>
    if lowering.ownFields && !Jsi.hasOwnProperty properties name then none
    else some (Jsi.getProperty properties name)
  copies := lowering.copies
  admits typeId values :=
    (lowering.build typeId
      (values.map fun (node, value) => lowering.native engine node value)).isOk

/-- The errors that a lowering throws are of the constructor that they should be. -/
structure Lawful (unknown : Refusal) : Prop where
  range : ∀ kind path value, (lowering.rangeError kind path value).refusal = .outOfRange
  nominal : ∀ path publicName value,
    (lowering.nominalError path publicName value).refusal = .mismatch
  constant : ∀ path publicName value,
    (lowering.unknownConstant path publicName value).refusal = unknown
  built : ∀ typeId fields value, lowering.build typeId fields = .ok value →
    value = .record typeId fields
  unbuilt : ∀ typeId fields thrown, lowering.build typeId fields = .error thrown →
    thrown.refusal = .implementation

/-- Ill-formed text and overflow do not arise in what JSI reads. -/
def verdict (unknown : Refusal) : Misfit → Refusal
  | .mismatch | .illFormedText | .overflow => .mismatch
  | .rejected => .implementation
  | .outOfRange => .outOfRange
  | .unknownConstant => unknown

end Lowering

def Progress.spent (progress : Progress) : Counter → Nat
  | .visits => progress.budget.visitedNodes
  | .bytes => progress.budget.temporaryBytes

/-- The counters are within the limits, as they are unless something has been thrown. -/
def observed (limits : ConversionLimits) : Observation Progress Thrown Counter Refusal where
  spent := Progress.spent
  good progress := progress.budget.visitedNodes ≤ limits.maxVisitedNodes ∧
    progress.budget.temporaryBytes ≤ limits.maxTemporaryBytes
  verdict := Thrown.refusal

namespace Lowering

section Steps

variable {lowering : Lowering} {limits : ConversionLimits} {engine : Engine} {start : Nat}
  {progress : Progress} {path : String} {unknown : Refusal}

variable (start) in
theorem spent_le (hgood : (observed limits).good progress) (tariff : Tariff) (counter : Counter) :
    progress.spent counter ≤ (limits.meter start tariff).cap counter := by
  cases counter with
  | visits => exact hgood.1
  | bytes => exact hgood.2

theorem visit_eq_ok {depth : Nat} {next : Progress} :
    visit limits progress path depth = .ok next ↔
      depth ≤ limits.maxDepth ∧ progress.budget.visitedNodes + 1 ≤ limits.maxVisitedNodes ∧
        next = { progress with
          budget := { progress.budget with
            visitedNodes := progress.budget.visitedNodes + 1 } } := by
  have hcounter : limits.maxVisitedNodes ≤ maxCounter :=
    (limits.bounded "max_visited_nodes" (by simp [ConversionLimits.Fields.manifest])).2
  simp only [visit, Budget.visit, Budget.checkedAdd, bind_eq_ok, exists_unit, require_eq_ok,
    pure_eq_ok]
  constructor
  · rintro ⟨budget, ⟨hdepth, count, ⟨_, rfl⟩, hvisits, rfl⟩, rfl⟩
    exact ⟨hdepth, hvisits, rfl⟩
  · rintro ⟨hdepth, hvisits, rfl⟩
    exact ⟨_, ⟨hdepth, _, ⟨by omega, rfl⟩, hvisits, rfl⟩, rfl⟩

theorem visit_follows (hgood : (observed limits).good progress) (depth : Nat) :
    (observed limits).Follows id (visit limits progress path (start + depth))
      ((limits.meter start lowering.tariff).settle .limit (verdict unknown)
        (.ask (.visit depth)) progress.spent) := by
  apply Observation.Follows.ask
  · intro next hok
    obtain ⟨hdepth, hvisits, rfl⟩ := visit_eq_ok.mp hok
    refine ⟨Meter.fits_singleton.mpr ⟨hdepth, fun counter => ?_⟩, ⟨hvisits, hgood.2⟩, ?_⟩
    · cases counter with
      | visits => exact hvisits
      | bytes => exact hgood.2
    · funext counter
      rw [Meter.charge_singleton]
      cases counter <;> rfl
  · intro hfits
    obtain ⟨hdepth, hwithin⟩ := Meter.fits_singleton.mp hfits
    exact ⟨_, visit_eq_ok.mpr ⟨hdepth, hwithin .visits, rfl⟩⟩
  · intro error herror
    simp only [visit, Budget.visit, Budget.checkedAdd, bind_eq_error, require_eq_error,
      pure_ne_error, and_false, exists_false, or_false] at herror
    rcases herror with ⟨_, rfl⟩ | ⟨_, _, ⟨_, rfl⟩ | ⟨_, _, _, rfl⟩⟩ <;> rfl

variable (path) in
/-- A reservation succeeds when what it takes fits, which is nothing when it is left out. -/
theorem reserveIf_eq_ok (hgood : (observed limits).good progress) {reserves : Bool} {amount : Nat}
    {next : Progress} :
    reserveIf limits reserves progress path amount = .ok next ↔
      progress.budget.temporaryBytes + (if reserves then amount else 0) ≤
          limits.maxTemporaryBytes ∧
        next = { progress with
          budget := { progress.budget with
            temporaryBytes :=
              progress.budget.temporaryBytes + (if reserves then amount else 0) } } := by
  have hcounter : limits.maxTemporaryBytes ≤ maxCounter :=
    (limits.bounded "max_temporary_bytes" (by simp [ConversionLimits.Fields.manifest])).2
  cases reserves with
  | false =>
      simp only [reserveIf, Bool.false_eq_true, if_false, Except.ok.injEq, Nat.add_zero]
      exact ⟨fun heq => ⟨hgood.2, heq.symm⟩, fun hnext => hnext.2.symm⟩
  | true =>
      simp only [reserveIf, if_true, Budget.reserve, Budget.checkedAdd, bind_eq_ok, exists_unit,
        require_eq_ok, pure_eq_ok]
      constructor
      · rintro ⟨budget, ⟨total, ⟨_, rfl⟩, htotal, rfl⟩, rfl⟩
        exact ⟨htotal, rfl⟩
      · rintro ⟨htotal, rfl⟩
        exact ⟨_, ⟨_, ⟨by omega, rfl⟩, htotal, rfl⟩, rfl⟩

theorem reserveIf_refusal {reserves : Bool} {amount : Nat} {error : Thrown}
    (herror : reserveIf limits reserves progress path amount = .error error) :
    error.refusal = .limit := by
  cases reserves with
  | false => cases herror
  | true =>
      simp only [reserveIf, if_true, Budget.reserve, Budget.checkedAdd, bind_eq_error,
        require_eq_error, pure_ne_error, and_false, exists_false, or_false] at herror
      rcases herror with ⟨_, rfl⟩ | ⟨_, _, _, rfl⟩ <;> rfl

/-- A check of a size, then a reservation: one demand of the survey. -/
theorem take_follows (hgood : (observed limits).good progress) {check : Except Thrown Unit}
    {reserves : Bool} {amount : Nat} {demand : Demand}
    (hallows : check = .ok () ↔ (limits.meter start lowering.tariff).allows demand)
    (hcheck : ∀ error, check = .error error → error.refusal = .limit)
    (hvisits : (limits.meter start lowering.tariff).cost .visits demand = 0)
    (hbytes : lowering.tariff.bytes demand = if reserves then amount else 0) :
    (observed limits).Follows id
      (check >>= fun _ => reserveIf limits reserves progress path amount)
      ((limits.meter start lowering.tariff).settle .limit (verdict unknown)
        (.ask demand) progress.spent) := by
  have hcost : (limits.meter start lowering.tariff).cost .bytes demand =
      if reserves then amount else 0 := hbytes
  apply Observation.Follows.ask
  · intro next hok
    rw [bind_eq_ok, exists_unit, reserveIf_eq_ok _ hgood] at hok
    obtain ⟨hpassed, htotal, rfl⟩ := hok
    refine ⟨Meter.fits_singleton.mpr ⟨hallows.mp hpassed, fun counter => ?_⟩,
      ⟨hgood.1, htotal⟩, ?_⟩
    · cases counter with
      | visits =>
          rw [hvisits]
          exact hgood.1
      | bytes =>
          rw [hcost]
          exact htotal
    · funext counter
      rw [Meter.charge_singleton]
      cases counter with
      | visits =>
          rw [hvisits]
          rfl
      | bytes =>
          rw [hcost]
          rfl
  · intro hfits
    obtain ⟨hallowed, hwithin⟩ := Meter.fits_singleton.mp hfits
    have htotal := hwithin .bytes
    rw [hcost] at htotal
    have hreserved := (reserveIf_eq_ok path hgood).mpr ⟨htotal, rfl⟩
    exact ⟨_, bind_eq_ok.mpr ⟨(), hallows.mpr hallowed, hreserved⟩⟩
  · intro error herror
    rcases bind_eq_error.mp herror with hfailed | ⟨_, _, hfailed⟩
    · exact hcheck error hfailed
    · exact reserveIf_refusal hfailed

theorem takeText_follows (hgood : (observed limits).good progress) (size : Nat) :
    (observed limits).Follows id (lowering.takeText limits progress path size)
      ((limits.meter start lowering.tariff).settle .limit (verdict unknown)
        (.ask (.text size)) progress.spent) := by
  apply take_follows hgood _ _ rfl rfl
  · simp [Budget.checkStringBytes, ConversionLimits.meter]
  · intro error herror
    obtain ⟨_, rfl⟩ := require_eq_error.mp herror
    rfl

theorem takeConstant_follows (hgood : (observed limits).good progress) (size : Nat) :
    (observed limits).Follows id (lowering.takeConstant limits progress path size)
      ((limits.meter start lowering.tariff).settle .limit (verdict unknown)
        (.ask (.constant size)) progress.spent) := by
  apply take_follows hgood _ _ rfl rfl
  · simp [Budget.checkStringBytes, ConversionLimits.meter]
  · intro error herror
    obtain ⟨_, rfl⟩ := require_eq_error.mp herror
    rfl

theorem takeBuffer_follows (hgood : (observed limits).good progress) (length : Nat) :
    (observed limits).Follows id (lowering.takeBuffer limits progress path length)
      ((limits.meter start lowering.tariff).settle .limit (verdict unknown)
        (.ask (.buffer length)) progress.spent) := by
  apply take_follows hgood _ _ rfl rfl
  · simp [Budget.checkByteBuffer, ConversionLimits.meter]
  · intro error herror
    obtain ⟨_, rfl⟩ := require_eq_error.mp herror
    rfl

theorem takeArray_follows (hgood : (observed limits).good progress) (length : Nat) :
    (observed limits).Follows id (lowering.takeArray limits progress path length)
      ((limits.meter start lowering.tariff).settle .limit (verdict unknown)
        (.ask (.array length)) progress.spent) := by
  apply take_follows hgood _ _ rfl rfl
  · simp [Budget.checkArrayLength, ConversionLimits.meter]
  · intro error herror
    obtain ⟨_, rfl⟩ := require_eq_error.mp herror
    rfl

theorem takeObject_follows (hgood : (observed limits).good progress) :
    (observed limits).Follows id (lowering.takeObject limits progress path)
      ((limits.meter start lowering.tariff).settle .limit (verdict unknown)
        (.ask .object) progress.spent) := by
  exact @take_follows lowering limits start progress path unknown hgood (.ok ()) _ _ _
    (by simp [ConversionLimits.meter]) (fun _ herror => by cases herror) rfl rfl

theorem takeValue_follows (hgood : (observed limits).good progress) (fieldCount : Nat) :
    (observed limits).Follows id (lowering.takeValue limits progress path fieldCount)
      ((limits.meter start lowering.tariff).settle .limit (verdict unknown)
        (.ask (.value fieldCount)) progress.spent) := by
  exact @take_follows lowering limits start progress path unknown hgood (.ok ()) _ _ _
    (by simp [ConversionLimits.meter]) (fun _ herror => by cases herror) rfl rfl

end Steps

/-! ### Scalars -/

section Walk

variable {lowering : Lowering} {limits : ConversionLimits} {engine : Engine} {start : Nat}
  {unknown : Refusal}

theorem walkScalar_follows (hlawful : lowering.Lawful unknown) (kind : ScalarKind) (value : Value)
    {progress : Progress} (hgood : (observed limits).good progress) (path : String) :
    (observed limits).Follows Prod.snd
      (lowering.walkScalar limits engine kind value progress path)
      ((limits.meter start lowering.tariff).settle .limit (verdict unknown)
        ((lowering.reading engine).surveyScalar kind value) progress.spent) := by
  have hspent := spent_le start hgood lowering.tariff
  have hmismatch : ∀ expected : String,
      (observed limits).verdict (mismatch path expected value) = verdict unknown .mismatch :=
    fun _ => rfl
  have hrange : (observed limits).verdict (lowering.rangeError kind path value) =
      verdict unknown .outOfRange := hlawful.range kind path value
  cases kind with
  | bool =>
      cases value with
      | bool flag => exact .done hspent hgood rfl
      | _ => exact .stop hspent (hmismatch _)
  | int32 =>
      refine .demand hspent (hmismatch _) fun number _ => ?_
      refine .demand hspent hrange fun integer _ => ?_
      refine .require hspent Iff.rfl hrange fun _ => ?_
      exact .done hspent hgood rfl
  | int64 =>
      cases value with
      | bigint integer =>
          refine .require hspent Iff.rfl hrange fun _ => ?_
          exact .done hspent hgood rfl
      | _ => exact .stop hspent (hmismatch _)
  | float32 =>
      refine .demand hspent (hmismatch _) fun number _ => ?_
      refine .require hspent Iff.rfl hrange fun _ => ?_
      exact .done hspent hgood rfl
  | float64 =>
      refine .demand hspent (hmismatch _) fun number _ => ?_
      exact .done hspent hgood rfl
  | string =>
      cases value with
      | text text => exact (takeText_follows hgood _).result fun _ => rfl
      | _ => exact .stop hspent (hmismatch _)
  | bytes =>
      refine .demand hspent (hmismatch _) fun view _ => ?_
      refine (takeBuffer_follows hgood _).andThen fun progress hgood => ?_
      have hspent := spent_le start hgood lowering.tariff
      by_cases hcopies : lowering.copies = true
      · rw [if_pos hcopies]
        simp only [copyUint8Array, bind_assoc, pure_bind]
        refine .require hspent ?_ rfl fun _ => .done hspent hgood rfl
        simp [reading, hcopies]
      · rw [if_neg hcopies]
        have hkeeps : ((lowering.reading engine).copies) = false := by
          simpa [reading] using hcopies
        rw [hkeeps]
        exact .done hspent hgood rfl

/-! ### The walk -/

/-- Along a node, the function of the type settles the survey of the value. -/
def Settles (lowering : Lowering) (limits : ConversionLimits) (engine : Engine) (start : Nat)
    (unknown : Refusal) (node : ConversionNode) : Prop :=
  ∀ (value : Value) (depth : Nat) (path : String) {progress : Progress},
    (observed limits).good progress →
      (observed limits).Follows Prod.snd
        (lowering.walk limits engine node value progress path (start + depth))
        ((limits.meter start lowering.tariff).settle .limit (verdict unknown)
          ((lowering.reading engine).survey node value depth) progress.spent)

theorem walkItems_follows
    {walkItem : Value → Progress → String → Except Thrown (Native × Progress)}
    {surveyItem : Value → Survey Demand Misfit}
    (hitem : ∀ item path {progress : Progress}, (observed limits).good progress →
      (observed limits).Follows Prod.snd (walkItem item progress path)
        ((limits.meter start lowering.tariff).settle .limit (verdict unknown) (surveyItem item)
          progress.spent)) (path : String) (items : List Value) :
    ∀ (index : Nat) {progress : Progress}, (observed limits).good progress →
      (observed limits).Follows Prod.snd (walkItems walkItem path index items progress)
        ((limits.meter start lowering.tariff).settle .limit (verdict unknown)
          (Reading.surveyItems surveyItem items) progress.spent) := by
  induction items with
  | nil =>
      intro index progress hgood
      exact .done (spent_le _ hgood lowering.tariff) hgood rfl
  | cons item items ih =>
      intro index progress hgood
      rw [walkItems, Reading.surveyItems]
      refine .require (spent_le _ hgood lowering.tariff) (by simp) rfl fun _ => ?_
      refine (hitem item _ hgood).andThen fun converted hgood => ?_
      exact (ih _ hgood).result fun _ => rfl

/-- A lowering reads a field exactly when the survey does. -/
theorem field_follows {properties : List (String × Value) × List (String × Value)}
    {name path : String}
    {next : Unit → Except Thrown (List Native × Progress)} {rest : Value → Survey Demand Misfit}
    {progress : Progress} (hgood : (observed limits).good progress)
    (hnext : (observed limits).Follows Prod.snd (next ())
      ((limits.meter start lowering.tariff).settle .limit (verdict unknown)
        (rest (Jsi.getProperty properties name)) progress.spent)) :
    (observed limits).Follows Prod.snd
      (require (lowering.ownFields → Jsi.hasOwnProperty properties name)
        (missingField (fieldPath path name)) >>= next)
      ((limits.meter start lowering.tariff).settle .limit (verdict unknown)
        (.given (demand
          (if lowering.ownFields && !Jsi.hasOwnProperty properties name then none
            else some (Jsi.getProperty properties name)) .mismatch) rest) progress.spent) := by
  have hspent := spent_le start hgood lowering.tariff
  by_cases hread : lowering.ownFields = true → Jsi.hasOwnProperty properties name = true
  · have hpresent : (lowering.ownFields && !Jsi.hasOwnProperty properties name) = false := by
      cases hown : lowering.ownFields with
      | false => rfl
      | true => simp [hread hown]
    rw [hpresent, require, if_pos hread]
    exact hnext
  · have hmissing : (lowering.ownFields && !Jsi.hasOwnProperty properties name) = true := by
      simpa using hread
    rw [hmissing, require, if_neg hread]
    exact .stop hspent rfl

theorem walkFields_follows {fields : List (String × ConversionNode)}
    (hfields : ∀ field ∈ fields, Settles lowering limits engine start unknown field.2)
    {properties : List (String × Value) × List (String × Value)}
    (path : String) (depth : Nat) :
    ∀ {progress : Progress}, (observed limits).good progress →
      (observed limits).Follows Prod.snd
        (lowering.walkFields limits engine properties path (start + depth) fields progress)
        ((limits.meter start lowering.tariff).settle .limit (verdict unknown)
          ((lowering.reading engine).surveyFields (fun name =>
            if lowering.ownFields && !Jsi.hasOwnProperty properties name then none
            else some (Jsi.getProperty properties name)) depth fields) progress.spent) := by
  induction fields with
  | nil =>
      intro progress hgood
      rw [walkFields, Reading.surveyFields]
      exact .done (spent_le _ hgood lowering.tariff) hgood rfl
  | cons field fields ih =>
      obtain ⟨name, node⟩ := field
      intro progress hgood
      rw [walkFields, Reading.surveyFields]
      refine field_follows hgood ?_
      have hnode := hfields (name, node) List.mem_cons_self (Jsi.getProperty properties name)
        (depth + 1) (fieldPath path name) hgood
      refine hnode.andThen fun converted hgood => ?_
      have hrest := ih (fun other hother => hfields other (List.mem_cons_of_mem _ hother)) hgood
      exact hrest.result fun _ => rfl

/-! ### Natives -/

theorem walkScalar_native {kind : ScalarKind} {value : Value} {progress after : Progress}
    {path : String} {converted : Native}
    (hok : lowering.walkScalar limits engine kind value progress path = .ok (converted, after)) :
    converted = nativeScalar engine kind value := by
  cases kind with
  | bool =>
      cases value with
      | bool flag =>
          cases hok
          rfl
      | _ => cases hok
  | int32 =>
      simp only [walkScalar, bind_eq_ok, demand_eq_ok, exists_unit, require_eq_ok, pure_eq_ok,
        Prod.mk.injEq] at hok
      obtain ⟨number, hnumber, integer, hinteger, _, rfl, _⟩ := hok
      simp [nativeScalar, hnumber, hinteger]
  | int64 =>
      cases value with
      | bigint integer =>
          simp only [walkScalar, bind_eq_ok, exists_unit, require_eq_ok, pure_eq_ok,
            Prod.mk.injEq] at hok
          exact hok.2.1.symm
      | _ => cases hok
  | float32 =>
      simp only [walkScalar, bind_eq_ok, demand_eq_ok, exists_unit, require_eq_ok, pure_eq_ok,
        Prod.mk.injEq] at hok
      obtain ⟨number, hnumber, _, rfl, _⟩ := hok
      simp [nativeScalar, hnumber]
  | float64 =>
      simp only [walkScalar, bind_eq_ok, demand_eq_ok, pure_eq_ok, Prod.mk.injEq] at hok
      obtain ⟨number, hnumber, rfl, _⟩ := hok
      simp [nativeScalar, hnumber]
  | string =>
      cases value with
      | text text =>
          simp only [walkScalar, bind_eq_ok, pure_eq_ok, Prod.mk.injEq] at hok
          obtain ⟨_, _, rfl, _⟩ := hok
          rfl
      | _ => cases hok
  | bytes =>
      simp only [walkScalar, bind_eq_ok, demand_eq_ok] at hok
      obtain ⟨view, hview, taken, _, hcopied⟩ := hok
      by_cases hcopies : lowering.copies = true
      · simp only [if_pos hcopies, copyUint8Array, bind_eq_ok, exists_unit, require_eq_ok,
          pure_eq_ok, Prod.mk.injEq] at hcopied
        obtain ⟨content, ⟨_, rfl⟩, rfl, _⟩ := hcopied
        simp [nativeScalar, hview]
      · simp only [if_neg hcopies, pure_eq_ok, Prod.mk.injEq] at hcopied
        obtain ⟨rfl, _⟩ := hcopied
        simp [nativeScalar, hview]

theorem walkItems_native {walkItem : Value → Progress → String → Except Thrown (Native × Progress)}
    {become : Value → Native}
    (hitem : ∀ item progress path converted after,
      walkItem item progress path = .ok (converted, after) → converted = become item)
    {path : String} {items : List Value} :
    ∀ {index : Nat} {progress after : Progress} {converted : List Native},
      walkItems walkItem path index items progress = .ok (converted, after) →
        converted = items.map become := by
  induction items with
  | nil =>
      intro index progress after converted hok
      cases hok
      rfl
  | cons item items ih =>
      intro index progress after converted hok
      simp only [walkItems, bind_eq_ok, exists_unit, require_eq_ok, pure_eq_ok, Prod.mk.injEq,
        Prod.exists] at hok
      obtain ⟨_, first, between, hfirst, rest, final, hrest, rfl, _⟩ := hok
      rw [hitem item _ _ first between hfirst, ih hrest, List.map_cons]

/-- The walk has read every field, and what it gives is made of what they have become. -/
theorem walkFields_native {fields : List (String × ConversionNode)}
    (hfields : ∀ field ∈ fields, ∀ value progress path depth converted after,
      lowering.walk limits engine field.2 value progress path depth = .ok (converted, after) →
        converted = lowering.native engine field.2 value)
    {properties : List (String × Value) × List (String × Value)} {path : String} {depth : Nat} :
    ∀ {progress after : Progress} {converted : List Native},
      lowering.walkFields limits engine properties path depth fields progress =
          .ok (converted, after) →
        converted = lowering.nativeFields engine properties fields ∧
          ∀ field ∈ fields,
            lowering.ownFields = true → Jsi.hasOwnProperty properties field.1 = true := by
  induction fields with
  | nil =>
      intro progress after converted hok
      rw [walkFields] at hok
      cases hok
      exact ⟨by rw [nativeFields], by simp⟩
  | cons field fields ih =>
      obtain ⟨name, node⟩ := field
      intro progress after converted hok
      rw [walkFields] at hok
      simp only [bind_eq_ok, exists_unit, require_eq_ok, pure_eq_ok, Prod.mk.injEq,
        Prod.exists] at hok
      obtain ⟨hpresent, first, between, hfirst, rest, final, hrest, rfl, _⟩ := hok
      obtain ⟨rfl, hothers⟩ := ih (fun other hother =>
        hfields other (List.mem_cons_of_mem _ hother)) hrest
      have hnode := hfields (name, node) List.mem_cons_self _ _ _ _ first between hfirst
      refine ⟨by rw [nativeFields, hnode], ?_⟩
      intro other hother
      rcases List.mem_cons.mp hother with rfl | hmem
      · exact hpresent
      · exact hothers other hmem

/-- **What a walk converts a value to does not depend on the budget.** -/
theorem walk_native (hlawful : lowering.Lawful unknown) {node : ConversionNode}
    (hplanned : node.Planned) :
    ∀ value progress path depth converted after,
      lowering.walk limits engine node value progress path depth = .ok (converted, after) →
        converted = lowering.native engine node value := by
  induction hplanned with
  | scalar kind =>
      intro value progress path depth converted after hok
      rw [walk] at hok
      simp only [bind_eq_ok, exists_unit, require_eq_ok] at hok
      obtain ⟨visited, _, _, _, hscalar⟩ := hok
      rw [native]
      exact walkScalar_native hscalar
  | enum typeId publicName constants =>
      intro value progress path depth converted after hok
      rw [walk] at hok
      simp only [bind_eq_ok, exists_unit, require_eq_ok] at hok
      obtain ⟨visited, _, _, _, hconstant⟩ := hok
      cases value with
      | text text =>
          rw [native]
          simp only [bind_eq_ok, exists_unit, require_eq_ok, pure_eq_ok, Prod.mk.injEq]
            at hconstant
          obtain ⟨taken, _, _, rfl, _⟩ := hconstant
          rfl
      | _ => cases hconstant
  | object typeId publicName =>
      intro value progress path depth converted after hok
      rw [walk] at hok
      simp only [bind_eq_ok, exists_unit, require_eq_ok, demand_eq_ok, pure_eq_ok,
        Prod.mk.injEq] at hok
      obtain ⟨visited, _, _, _, token, htoken, taken, _, rfl, _⟩ := hok
      rw [native, htoken]
  | @array element _ ih =>
      intro value progress path depth converted after hok
      rw [walk] at hok
      simp only [bind_eq_ok, exists_unit, require_eq_ok, demand_eq_ok, pure_eq_ok, Prod.mk.injEq,
        Prod.exists] at hok
      obtain ⟨visited, _, _, _, items, hitems, taken, _, natives, final, hwalk, rfl, _⟩ := hok
      have hnatives := walkItems_native (fun item progress itemPath converted after =>
        ih item progress itemPath (depth + 1) converted after) hwalk
      rw [native, hitems, hnatives, Option.getD_some]
  | @nullable element _ ih =>
      intro value progress path depth converted after hok
      rw [walk] at hok
      simp only [bind_eq_ok, exists_unit, require_eq_ok] at hok
      obtain ⟨visited, _, _, hrest⟩ := hok
      rw [native]
      by_cases hnull : value.isNull = true
      · rw [if_pos hnull] at hrest ⊢
        cases hrest
        rfl
      · rw [if_neg hnull] at hrest ⊢
        exact ih value _ _ _ converted after hrest
  | @value typeId publicName fields _ _ ih =>
      intro value progress path depth converted after hok
      rw [walk] at hok
      simp only [bind_eq_ok, exists_unit, require_eq_ok, demand_eq_ok, pure_eq_ok, Prod.mk.injEq,
        Prod.exists] at hok
      obtain ⟨visited, _, _, _, own, inherited, hproperties, taken, _, natives, final, hwalk,
        built, hbuilt, rfl, _⟩ := hok
      obtain ⟨rfl, _⟩ := walkFields_native ih hwalk
      rw [native, hproperties, hlawful.built _ _ _ hbuilt, Option.getD_some]

theorem fieldValues_native {properties : List (String × Value) × List (String × Value)}
    {fields : List (String × ConversionNode)}
    (hpresent : ∀ field ∈ fields,
      lowering.ownFields = true → Jsi.hasOwnProperty properties field.1 = true) :
    (Reading.fieldValues (fun name =>
        if lowering.ownFields && !Jsi.hasOwnProperty properties name then none
        else some (Jsi.getProperty properties name)) fields).map
      (fun (node, value) => lowering.native engine node value) =
        lowering.nativeFields engine properties fields := by
  induction fields with
  | nil => rw [nativeFields, Reading.fieldValues, List.map_nil, List.map_nil]
  | cons field fields ih =>
      obtain ⟨name, node⟩ := field
      have hrest := ih fun other hother => hpresent other (List.mem_cons_of_mem _ hother)
      have hfirst : (lowering.ownFields && !Jsi.hasOwnProperty properties name) = false := by
        cases hown : lowering.ownFields with
        | false => rfl
        | true => simp [hpresent (name, node) List.mem_cons_self hown]
      rw [nativeFields, ← hrest]
      simp only [Reading.fieldValues, List.map_cons, hfirst, Bool.false_eq_true, if_false,
        Option.getD_some]

/-! ### The walk settles its survey -/

/-- Every function visits its node first, and all but that of a nullable type refuse null. -/
theorem present_follows {value : Value} {body : Progress → Except Thrown (Native × Progress)}
    {rest : Survey Demand Misfit} {progress : Progress}
    (hgood : (observed limits).good progress) (depth : Nat) (path : String)
    (hbody : ∀ progress : Progress, (observed limits).good progress →
      (observed limits).Follows Prod.snd (body progress)
        ((limits.meter start lowering.tariff).settle .limit (verdict unknown) rest
          progress.spent)) :
    (observed limits).Follows Prod.snd
      (visit limits progress path (start + depth) >>= fun progress =>
        require (¬ value.isUndefined) (mismatch path "a defined value" value) >>= fun _ =>
          require (¬ value.isNull) (mismatch path "a non-null value" value) >>= fun _ =>
            body progress)
      ((limits.meter start lowering.tariff).settle .limit (verdict unknown)
        ((Survey.ask (.visit depth)).andThen <| Survey.provided (!value.isUndefined) .mismatch <|
          Survey.provided (!value.isNull) .mismatch rest) progress.spent) := by
  refine (visit_follows hgood depth).andThen fun progress hgood => ?_
  have hspent := spent_le start hgood lowering.tariff
  refine .require hspent (by simp) rfl fun _ => ?_
  refine .require hspent (by simp) rfl fun _ => ?_
  exact hbody progress hgood

theorem object_follows (hlawful : lowering.Lawful unknown) {progress : Progress}
    (hgood : (observed limits).good progress) (typeId publicName path : String) (value : Value) :
    (observed limits).Follows Prod.snd
      (demand (Jsi.managedObject? lowering.backend typeId value)
          (lowering.nominalError path publicName value) >>= fun token =>
        lowering.takeObject limits progress path >>= fun progress =>
          pure (Native.managed token,
            if lowering.retains then { progress with retained := progress.retained ++ [token] }
            else progress))
      ((limits.meter start lowering.tariff).settle .limit (verdict unknown)
        (Survey.provided ((lowering.reading engine).object typeId value) .mismatch (.ask .object))
        progress.spent) := by
  have hspent := spent_le start hgood lowering.tariff
  cases hmanaged : Jsi.managedObject? lowering.backend typeId value with
  | none =>
      have hforeign : (lowering.reading engine).object typeId value = false := by
        simp [reading, hmanaged]
      rw [hforeign]
      exact .stop hspent (hlawful.nominal _ _ _)
  | some token =>
      have hown : (lowering.reading engine).object typeId value = true := by
        simp [reading, hmanaged]
      rw [hown]
      refine (takeObject_follows hgood).map (fun progress hgood => ?_) fun progress => ?_
      · split <;> exact hgood
      · split <;> rfl

/-- The constructor is given what the fields have become, and may throw. -/
theorem build_follows (hlawful : lowering.Lawful unknown)
    {properties : List (String × Value) × List (String × Value)}
    {fields : List (String × ConversionNode)} (hplanned : ∀ field ∈ fields, field.2.Planned)
    {path : String} {depth : Nat} {before progress : Progress} {converted : List Native}
    (hok : lowering.walkFields limits engine properties path depth fields before =
      .ok (converted, progress))
    (hgood : (observed limits).good progress) (typeId : String) :
    (observed limits).Follows Prod.snd
      (lowering.build typeId converted >>= fun built => pure (built, progress))
      ((limits.meter start lowering.tariff).settle .limit (verdict unknown)
        (Survey.provided ((lowering.reading engine).admits typeId
          (Reading.fieldValues (fun name =>
            if lowering.ownFields && !Jsi.hasOwnProperty properties name then none
            else some (Jsi.getProperty properties name)) fields)) .rejected .done)
        progress.spent) := by
  have hspent := spent_le start hgood lowering.tariff
  obtain ⟨rfl, hpresent⟩ := walkFields_native
    (fun field hmem => walk_native hlawful (hplanned field hmem)) hok
  have hadmits : (lowering.reading engine).admits typeId (Reading.fieldValues (fun name =>
      if lowering.ownFields && !Jsi.hasOwnProperty properties name then none
      else some (Jsi.getProperty properties name)) fields) =
        (lowering.build typeId (lowering.nativeFields engine properties fields)).isOk := by
    rw [← fieldValues_native hpresent]
    rfl
  rw [hadmits]
  cases hbuilt : lowering.build typeId (lowering.nativeFields engine properties fields) with
  | ok built => exact .done hspent hgood rfl
  | error thrown => exact .stop hspent (hlawful.unbuilt _ _ _ hbuilt)

/-- Along the node of any type, the walk settles the survey of the value. -/
theorem settles_of_planned (hlawful : lowering.Lawful unknown) {node : ConversionNode}
    (hplanned : node.Planned) : Settles lowering limits engine start unknown node := by
  induction hplanned with
  | scalar kind =>
      intro value depth path progress hgood
      rw [walk, Reading.survey]
      refine present_follows hgood depth path fun progress hgood => ?_
      exact walkScalar_follows hlawful kind value hgood path
  | enum typeId publicName constants =>
      intro value depth path progress hgood
      rw [walk, Reading.survey]
      refine present_follows hgood depth path fun progress hgood => ?_
      cases value with
      | text text =>
          refine (takeConstant_follows hgood _).andThen fun progress hgood => ?_
          have hspent := spent_le start hgood lowering.tariff
          refine .require hspent (by simp) (hlawful.constant _ _ _) fun _ => ?_
          exact .done hspent hgood rfl
      | _ => exact .stop (spent_le start hgood lowering.tariff) rfl
  | object typeId publicName =>
      intro value depth path progress hgood
      rw [walk, Reading.survey]
      refine present_follows hgood depth path fun progress hgood => ?_
      exact object_follows hlawful hgood typeId publicName path value
  | array _ ih =>
      intro value depth path progress hgood
      rw [walk, Reading.survey]
      refine present_follows hgood depth path fun progress hgood => ?_
      refine .demand (spent_le start hgood lowering.tariff) rfl fun items _ => ?_
      refine (takeArray_follows hgood _).andThen fun progress hgood => ?_
      refine (walkItems_follows ?_ path items 0 hgood).result fun _ => rfl
      intro item itemPath progress hgood
      exact ih item (depth + 1) itemPath hgood
  | nullable _ ih =>
      intro value depth path progress hgood
      rw [walk, Reading.survey]
      refine (visit_follows hgood depth).andThen fun progress hgood => ?_
      have hspent := spent_le start hgood lowering.tariff
      refine .require hspent (by simp) rfl fun _ => ?_
      by_cases hnull : value.isNull = true
      · simp only [if_pos hnull]
        exact .done hspent hgood rfl
      · simp only [if_neg hnull]
        exact ih value (depth + 1) path hgood
  | @value typeId publicName fields _ hplanned ih =>
      intro value depth path progress hgood
      rw [walk, Reading.survey]
      refine present_follows hgood depth path fun progress hgood => ?_
      cases hproperties : Jsi.object? value with
      | none =>
          have hother : (lowering.reading engine).fields value = none := by
            simp [reading, hproperties]
          rw [hother]
          exact .stop (spent_le start hgood lowering.tariff) rfl
      | some properties =>
          have hshown : (lowering.reading engine).fields value = some fun name =>
              if lowering.ownFields && !Jsi.hasOwnProperty properties name then none
              else some (Jsi.getProperty properties name) := by
            simp [reading, hproperties]
          rw [hshown]
          refine (takeValue_follows hgood _).andThen fun progress hgood => ?_
          refine (walkFields_follows ih path depth hgood).andThen_of_ok ?_
          rintro ⟨converted, progress⟩ hok hgood
          exact build_follows hlawful hplanned hok hgood typeId

variable (engine start) in
/-- The arguments of a call share one budget, as their surveys share one meter. -/
theorem walkArguments_follows (hlawful : lowering.Lawful unknown) (path : Nat → String → String)
    (parameters : List (String × ConversionNode))
    (hplanned : ∀ parameter ∈ parameters, parameter.2.Planned) :
    ∀ (values : List Value) (index : Nat) {progress : Progress},
      (observed limits).good progress →
        (observed limits).Follows Prod.snd
          (lowering.walkArguments limits engine path start index parameters values progress)
          ((limits.meter start lowering.tariff).settle .limit (verdict unknown)
            ((lowering.reading engine).surveyArguments (parameters.map Prod.snd) values)
            progress.spent) := by
  induction parameters with
  | nil =>
      intro values index progress hgood
      exact .done (spent_le _ hgood lowering.tariff) hgood rfl
  | cons parameter parameters ih =>
      obtain ⟨name, node⟩ := parameter
      intro values index progress hgood
      cases values with
      | nil => exact .done (spent_le _ hgood lowering.tariff) hgood rfl
      | cons value values =>
          have hnode : Settles lowering limits engine start unknown node :=
            settles_of_planned hlawful (hplanned (name, node) List.mem_cons_self)
          refine (hnode value 0 (path index name) hgood).andThen fun converted hgood => ?_
          have hrest := ih (fun other hother => hplanned other (List.mem_cons_of_mem _ hother))
            values (index + 1) hgood
          exact hrest.result fun _ => rfl

end Walk

end Lowering

/-! ### Answers -/

/-- How JavaScript sees a generated function end. -/
inductive Answer where
  | accepted
  | thrown (constructor : BuiltinConstructor)
  /-- With an error of the runtime, which has neither constructor. -/
  | failed
deriving DecidableEq

def JsError.answer : JsError → Answer
  | .builtin error => .thrown error.constructor
  | .supernote _ _ => .failed

def answer {Output : Type} : Except JsError Output → Answer
  | .ok _ => .accepted
  | .error error => error.answer

theorem answer_discard {Output : Type} (result : Except JsError Output) :
    answer (result >>= fun _ => pure ()) = answer result := by
  cases result <;> rfl

def Refusal.answer : Refusal → Answer
  | .limit | .outOfRange => .thrown .rangeError
  | .mismatch => .thrown .typeError
  | .implementation | .other => .failed

/-- A handler shows what it catches as what it amounts to. -/
def Reports (handler : Thrown → JsError) (report : Refusal → Answer) : Prop :=
  ∀ thrown : Thrown, thrown.refusal ≠ .other → (handler thrown).answer = report thrown.refusal

open Classical in
/-- The answer to a survey: at a limit, at its misfit, or none. -/
noncomputable def expectedAnswer (report : Refusal → Answer) (unknown : Refusal)
    (meter : Meter Counter Demand) (survey : Survey Demand Misfit) : Answer :=
  if meter.Fits (fun _ => 0) survey.demands then
    match survey.misfit with
    | none => .accepted
    | some misfit => report (Lowering.verdict unknown misfit)
  else report .limit

namespace Lowering

variable {lowering : Lowering} {unknown : Refusal}

theorem good_initial (limits : ConversionLimits) : (observed limits).good {} :=
  ⟨Nat.zero_le _, Nat.zero_le _⟩

theorem spent_initial : Progress.spent {} = fun _ => 0 := by
  funext counter
  cases counter <;> rfl

theorem construct_built {constructor : ValueConstructor} {error : String → Thrown}
    {typeId : String} {fields : List Native} {value : Native}
    (hbuilt : construct constructor error typeId fields = .ok value) :
    value = .record typeId fields := by
  rw [construct] at hbuilt
  cases hthrows : constructor typeId fields with
  | none =>
      rw [hthrows] at hbuilt
      exact (Except.ok.inj hbuilt).symm
  | some message =>
      rw [hthrows] at hbuilt
      cases hbuilt

theorem construct_unbuilt {constructor : ValueConstructor} {error : String → Thrown}
    (herror : ∀ message, (error message).refusal = .implementation) {typeId : String}
    {fields : List Native} {thrown : Thrown}
    (hbuilt : construct constructor error typeId fields = .error thrown) :
    thrown.refusal = .implementation := by
  rw [construct] at hbuilt
  cases hthrows : constructor typeId fields with
  | none =>
      rw [hthrows] at hbuilt
      cases hbuilt
  | some message =>
      rw [hthrows] at hbuilt
      cases hbuilt
      exact herror message

theorem verdict_ne_other (hunknown : unknown ≠ .other) (misfit : Misfit) :
    verdict unknown misfit ≠ .other := by
  cases misfit with
  | unknownConstant => exact hunknown
  | _ => simp [verdict]

/-- The conversions of a call are answered as their survey is. -/
theorem answer_walkArguments (hlawful : lowering.Lawful unknown) (hunknown : unknown ≠ .other)
    {handler : Thrown → JsError} {report : Refusal → Answer} (hreports : Reports handler report)
    (limits : ConversionLimits) (engine : Engine) (path : Nat → String → String) (start : Nat)
    {parameters : List (String × ConversionNode)}
    (hplanned : ∀ parameter ∈ parameters, parameter.2.Planned) (values : List Value) :
    answer ((lowering.walkArguments limits engine path start 0 parameters values {}).mapError
        handler) =
      expectedAnswer report unknown (limits.meter start lowering.tariff)
        ((lowering.reading engine).surveyArguments (parameters.map Prod.snd) values) := by
  have hfollows := walkArguments_follows engine start hlawful path
    parameters hplanned values 0 (good_initial limits)
  rw [spent_initial] at hfollows
  have hends := hfollows.ends
  generalize lowering.walkArguments limits engine path start 0 parameters values {} = result
    at hends ⊢
  rw [expectedAnswer]
  cases hends with
  | finished output hfits hmisfit _ =>
      rw [if_pos hfits, hmisfit]
      rfl
  | stopped thrown misfit hfits hmisfit hverdict =>
      have hrefusal : thrown.refusal = verdict unknown misfit := hverdict
      have hknown : thrown.refusal ≠ .other := hrefusal ▸ verdict_ne_other hunknown misfit
      rw [if_pos hfits, hmisfit]
      exact (hreports thrown hknown).trans (by rw [hrefusal])
  | refused thrown hfits hverdict =>
      have hrefusal : thrown.refusal = .limit := hverdict
      have hknown : thrown.refusal ≠ .other := by simp [hrefusal]
      rw [if_neg hfits, ← hrefusal]
      exact hreports thrown hknown

end Lowering

theorem reports_preflightError (expected : String) :
    Reports (preflightError expected) Refusal.answer := by
  intro thrown hknown
  cases thrown with
  | builtin error =>
      cases hconstructor : error.constructor <;> simp [preflightError, JsError.answer,
      Thrown.refusal, Refusal.answer, hconstructor]
  | failure failed =>
      by_cases hrange : failed.kind = .range
      · simp [preflightError, limitExceeded, JsError.answer, Thrown.refusal, Refusal.answer, hrange]
      · simp [Thrown.refusal, hrange] at hknown
  | implementation message => rfl
  | standard message => rfl

theorem Cpp.reports_callableError (mode : CallableMode) (diagnostic : String) :
    Reports (Cpp.callableError mode diagnostic) Refusal.answer := by
  intro thrown hknown
  cases thrown with
  | builtin error =>
      cases hconstructor : error.constructor <;> simp [Cpp.callableError, JsError.answer,
      Thrown.refusal, Refusal.answer, hconstructor]
  | failure failed =>
      by_cases hrange : failed.kind = .range
      · simp [Cpp.callableError, limitExceeded, JsError.answer, Thrown.refusal, Refusal.answer,
          hrange]
      · simp [Thrown.refusal, hrange] at hknown
  | implementation message => rfl
  | standard message => rfl

/-- Only synchronous callables know the failures of the budget. -/
def Jvm.report (mode : CallableMode) : Refusal → Answer
  | .limit => if mode = .sync then .thrown .rangeError else .failed
  | refusal => refusal.answer

theorem Jvm.reports_callableError (mode : CallableMode) :
    Reports (Jvm.callableError mode) (Jvm.report mode) := by
  intro thrown hknown
  cases thrown with
  | builtin error =>
      cases hconstructor : error.constructor <;> simp [Jvm.callableError, JsError.answer,
      Thrown.refusal, Jvm.report, Refusal.answer, hconstructor]
  | failure failed =>
      by_cases hrange : failed.kind = .range
      · cases mode <;> simp [Jvm.callableError, JsError.answer, Thrown.refusal, Jvm.report, hrange]
      · simp [Thrown.refusal, hrange] at hknown
  | implementation message => rfl
  | standard message => rfl

/-! ### The four functions -/

theorem Cpp.validateJs_lawful : Cpp.validateJs.Lawful .mismatch where
  range kind _ _ := by cases kind <;> rfl
  nominal _ _ _ := rfl
  constant _ _ _ := rfl
  built _ _ _ hbuilt := (Except.ok.inj hbuilt).symm
  unbuilt _ _ _ hbuilt := by cases hbuilt

theorem Cpp.fromJs_lawful (constructor : ValueConstructor) :
    (Cpp.fromJs constructor).Lawful .mismatch where
  range kind _ _ := by cases kind <;> rfl
  nominal _ _ _ := rfl
  constant _ _ _ := rfl
  built _ _ _ := Lowering.construct_built
  unbuilt _ _ _ := Lowering.construct_unbuilt fun _ => rfl

theorem Jvm.validate_lawful : Jvm.validate.Lawful .mismatch where
  range _ _ _ := rfl
  nominal _ _ _ := rfl
  constant _ _ _ := rfl
  built _ _ _ hbuilt := (Except.ok.inj hbuilt).symm
  unbuilt _ _ _ hbuilt := by cases hbuilt

/-- An unknown constant is an exception of the adapter. -/
theorem Jvm.fromJs_lawful (constructor : ValueConstructor) :
    (Jvm.fromJs constructor).Lawful .implementation where
  range _ _ _ := rfl
  nominal _ _ _ := rfl
  constant _ _ _ := rfl
  built _ _ _ := Lowering.construct_built
  unbuilt _ _ _ := Lowering.construct_unbuilt fun _ => rfl

end SupernoteModule.Codegen
