import SupernoteModule.Conversion.Engine

/-!
# A result can be passed back

The value that an output conversion gives to JavaScript is accepted by the input conversion of the
same plan, which gives the canonical form of the native value it came from and costs the same.
-/

namespace SupernoteModule.Conversion

open SupernoteModule.Lib SupernoteModule.Semantic

/-! ### Canonical native values -/

/-- The spelling of a native scalar that an input conversion produces. -/
def canonicalScalar : ScalarKind → Value → Value
  | .int32, .float double => (integral? double).elim (.float double) .int
  | .float32, .int integer | .float64, .int integer =>
      (Double.ofInt integer).elim (.int integer) .float
  | .bytes, .buffer _ content => .buffer .bytes content
  | _, value => value

mutual

/-- Arrays are tuples, values are mappings of their declared fields, and scalars have one type. -/
def canonical : ConversionNode → Value → Value
  | .nullable element, value => if value.isNull then value else canonical element value
  | .scalar kind, value => canonicalScalar kind value
  | .array element, .list items | .array element, .tuple items =>
      .tuple (items.map fun item => canonical element item)
  | .value _ _ fields, .object .mapping own _ => .object .mapping (canonicalFields own fields) []
  | _, value => value

def canonicalFields (own : List (String × Value)) :
    List (String × ConversionNode) → List (String × Value)
  | [] => []
  | (name, node) :: fields =>
      (name, canonical node ((own.lookup name).getD .undefined)) :: canonicalFields own fields

end

/-! ### What is planned -/

section Planned

variable {api : SemanticApi}

theorem make_eq_ok {node made : ConversionNode} :
    ConversionNode.make node = .ok made ↔ node.postInit = .ok () ∧ node = made := by
  simp only [ConversionNode.make, bind_eq_ok, pure_eq_ok, exists_unit]

theorem fieldNames_nodup (declaration : SemanticValueDeclaration) :
    (declaration.fields.map (·.name)).Nodup := by
  have hvalid := declaration.valid
  simp only [SemanticValueDeclaration.Fields.postInit, bind_eq_ok, exists_unit, validateFields,
    rejectDuplicates_eq_ok] at hvalid
  obtain ⟨_, _, ⟨_, _, hnames⟩, _⟩ := hvalid
  exact hnames

theorem fieldType_not_void (field : SemanticField) : field.type.node.isVoid = false := by
  have hvalid := field.valid
  simp only [SemanticField.Fields.postInit, bind_eq_ok, exists_unit, require_eq_ok] at hvalid
  obtain ⟨_, _, hvoid, _⟩ := hvalid
  simpa [SemanticType.isVoid] using hvoid

/-- One declaration's worth of planning, given that the fields of values are planned. -/
theorem planNode_planned
    {expand : SemanticValueDeclaration → Except PlanError (List (String × ConversionNode))}
    (hexpand : ∀ declaration fields, expand declaration = .ok fields →
      (fields.map Prod.fst).Nodup ∧ ∀ field ∈ fields, ConversionNode.Planned field.2)
    {type : TypeNode} {node : ConversionNode} (hvalid : type.Valid)
    (hvoid : type.isVoid = false) (hplan : planNode api expand type = .ok node) :
    node.Planned := by
  have hnamed : ∀ {kind typeId node}, planNamed api expand kind typeId = .ok node →
      node.Planned := by
    intro kind typeId node hok
    unfold planNamed at hok
    split at hok
    · cases hok
    · simp only [bind_eq_ok, exists_unit, make_eq_ok] at hok
      obtain ⟨_, _, rfl⟩ := hok
      exact .enum _ _ _
    · simp only [bind_eq_ok, exists_unit, make_eq_ok] at hok
      obtain ⟨_, _, rfl⟩ := hok
      exact .object _ _
    · simp only [bind_eq_ok, exists_unit, make_eq_ok] at hok
      obtain ⟨_, fields, hfields, _, rfl⟩ := hok
      obtain ⟨hnames, hplanned⟩ := hexpand _ _ hfields
      exact .value _ _ hnames hplanned
  induction type generalizing node with
  | void => simp [TypeNode.isVoid, TypeNode.kind] at hvoid
  | scalar kind =>
      simp only [planNode, Except.ok.injEq] at hplan
      subst hplan
      exact .scalar kind
  | enumRef typeId | valueRef typeId | objectRef typeId => exact hnamed hplan
  | array element ih =>
      simp only [planNode, bind_eq_ok, pure_eq_ok] at hplan
      obtain ⟨child, hchild, rfl⟩ := hplan
      obtain ⟨hinit, helement⟩ := hvalid
      have hnotVoid : element.isVoid = false := by
        simpa [TypeNode.postInit] using hinit
      exact .array (ih helement hnotVoid hchild)
  | nullable inner ih =>
      simp only [planNode, bind_eq_ok, pure_eq_ok] at hplan
      obtain ⟨child, hchild, rfl⟩ := hplan
      obtain ⟨hinit, hinner⟩ := hvalid
      simp only [TypeNode.postInit, bind_eq_ok, exists_unit, require_eq_ok] at hinit
      have hnotVoid : inner.isVoid = false := by simpa using hinit.1
      exact .nullable (ih hinner hnotVoid hchild)

theorem planType_planned (fuel : Nat) :
    ∀ {activeValues : List String} {type : TypeNode} {node : ConversionNode}, type.Valid →
      type.isVoid = false → planType api fuel activeValues type = .ok node → node.Planned := by
  induction fuel with
  | zero =>
      intro activeValues type node hvalid hvoid hplan
      exact planNode_planned (fun _ _ hfields => by cases hfields) hvalid hvoid hplan
  | succ fuel ih =>
      intro activeValues type node hvalid hvoid hplan
      refine planNode_planned ?_ hvalid hvoid hplan
      intro declaration fields hfields
      simp only [bind_eq_ok, exists_unit, require_eq_ok] at hfields
      have hrelated := enumerate_eq_ok hfields.2
      have hplanned : List.Forall₂
        (fun (field : SemanticField) (planned : String × ConversionNode) =>
          planned.1 = field.name ∧ planned.2.Planned) declaration.fields fields := by
        refine hrelated.imp ?_
        rintro field planned ⟨_, hfield⟩
        simp only [bind_eq_ok, pure_eq_ok] at hfield
        obtain ⟨child, hchild, rfl⟩ := hfield
        exact ⟨rfl, ih field.type.valid (fieldType_not_void field) hchild⟩
      constructor
      · have hnames : fields.map Prod.fst = declaration.fields.map (·.name) := by
          apply map_eq_of_related hplanned
          exact fun _ _ hfield => hfield.1
        rw [hnames]
        exact fieldNames_nodup declaration
      · intro field hfield
        obtain ⟨_, _, _, hnode⟩ := exists_item_of_mem hplanned hfield
        exact hnode

theorem planTypeConversion_planned {type : SemanticType} {node : ConversionNode}
    (hplan : planTypeConversion api type = .ok node) (hvoid : node ≠ .void) : node.Planned := by
  refine planType_planned _ type.valid ?_ hplan
  rw [Bool.eq_false_iff]
  intro htype
  apply hvoid
  have hnode : type.node = .void := by
    cases hkind : type.node <;> simp_all [TypeNode.isVoid, TypeNode.kind]
  rw [planTypeConversion, hnode] at hplan
  simp only [planType, planNode, Except.ok.injEq] at hplan
  exact hplan.symm

/-- Only void is planned as void. -/
theorem isVoid_of_planned_void {type : SemanticType}
    (hplan : planTypeConversion api type = .ok .void) : type.isVoid = true := by
  by_contra hvoid
  have hplanned : ConversionNode.Planned .void :=
    planType_planned _ type.valid (by simpa [SemanticType.isVoid] using hvoid) hplan
  cases hplanned

end Planned

/-! ### Entering a node -/

section Enter

variable {direction : ConversionDirection} {value produced : Value} {path : String} {depth : Nat}
  {snapshot after : Snapshot}

/-- What every kind but nullable asks before it looks at the value. -/
structure Enters (value : Value) (depth : Nat) (snapshot : Snapshot) : Prop where
  room : snapshot.CanVisit depth
  defined : value.isUndefined = false
  present : value.isNull = false

theorem convert_nullable_eq_ok {element : ConversionNode} :
    convert direction (.nullable element) value path depth snapshot = .ok (produced, after) ↔
      snapshot.CanVisit depth ∧ value.isUndefined = false ∧
        if value.isNull then (.null, snapshot.visited) = (produced, after)
        else convert direction element value path (depth + 1) snapshot.visited =
          .ok (produced, after) := by
  rw [convert]
  simp only [bind_eq_ok, exists_unit, require_eq_ok, Snapshot.visit_eq_ok, Bool.not_eq_true]
  have hbranch : ((if value.isNull = true then pure (Value.null, snapshot.visited)
        else convert direction element value path (depth + 1) snapshot.visited) =
          Except.ok (produced, after)) ↔
      if value.isNull = true then (Value.null, snapshot.visited) = (produced, after)
      else convert direction element value path (depth + 1) snapshot.visited =
        .ok (produced, after) := by
    by_cases hnull : value.isNull = true <;> simp [hnull]
  constructor
  · rintro ⟨_, ⟨hroom, rfl⟩, hdefined, hrest⟩
    exact ⟨hroom, hdefined, hbranch.mp hrest⟩
  · rintro ⟨hroom, hdefined, hrest⟩
    exact ⟨_, ⟨hroom, rfl⟩, hdefined, hbranch.mpr hrest⟩

theorem convert_scalar_eq_ok {kind : ScalarKind} :
    convert direction (.scalar kind) value path depth snapshot = .ok (produced, after) ↔
      Enters value depth snapshot ∧
        convertScalar kind value direction path snapshot.visited = .ok (produced, after) := by
  rw [convert]
  simp only [bind_eq_ok, exists_unit, require_eq_ok, Snapshot.visit_eq_ok, Bool.not_eq_true]
  constructor
  · rintro ⟨_, ⟨hroom, rfl⟩, hdefined, hpresent, hrest⟩
    exact ⟨⟨hroom, hdefined, hpresent⟩, hrest⟩
  · rintro ⟨⟨hroom, hdefined, hpresent⟩, hrest⟩
    exact ⟨_, ⟨hroom, rfl⟩, hdefined, hpresent, hrest⟩

theorem convert_enum_eq_ok {typeId publicName : String} {constants : List String} :
    convert direction (.enum typeId publicName constants) value path depth snapshot =
        .ok (produced, after) ↔
      snapshot.CanVisit depth ∧ ∃ text byteCount, value = .text text ∧
        text ∈ constants.map Text.ofString ∧ text.utf8Size = some byteCount ∧
        byteCount ≤ snapshot.budget.limits.maxStringBytes ∧
        snapshot.visited.CanReserve byteCount ∧
        produced = .text text ∧ after = snapshot.visited.reserved byteCount := by
  rw [convert]
  simp only [bind_eq_ok, exists_unit, require_eq_ok, Snapshot.visit_eq_ok, Bool.not_eq_true]
  constructor
  · rintro ⟨_, ⟨hroom, rfl⟩, hdefined, hpresent, hrest⟩
    cases value with
    | text text =>
        simp only [bind_eq_ok, exists_unit, require_eq_ok, Snapshot.reserve_eq_ok, encodedSize,
          demand_eq_ok, ConversionBudget.checkStringBytes, pure_eq_ok, Prod.mk.injEq] at hrest
        obtain ⟨hconstant, byteCount, hsize, hlimit, _, ⟨hreserve, rfl⟩, rfl, rfl⟩ := hrest
        exact ⟨hroom, text, byteCount, rfl, hconstant, hsize, hlimit, hreserve, rfl, rfl⟩
    | _ => cases hrest
  · rintro ⟨hroom, text, byteCount, rfl, hconstant, hsize, hlimit, hreserve, rfl, rfl⟩
    refine ⟨_, ⟨hroom, rfl⟩, rfl, rfl, ?_⟩
    simp only [bind_eq_ok, exists_unit, require_eq_ok, Snapshot.reserve_eq_ok, encodedSize,
      demand_eq_ok, ConversionBudget.checkStringBytes, pure_eq_ok, Prod.mk.injEq]
    exact ⟨hconstant, byteCount, hsize, hlimit, _, ⟨hreserve, rfl⟩, trivial, rfl⟩

theorem convert_object_eq_ok {typeId publicName : String} :
    convert direction (.object typeId publicName) value path depth snapshot =
        .ok (produced, after) ↔
      snapshot.CanVisit depth ∧ ∃ token own inherited,
        value = .object (.nativeObject token) own inherited ∧ token.typeId = typeId ∧
        snapshot.visited.CanReserve pointerSize ∧ produced = value ∧
        after = (snapshot.visited.reserved pointerSize).retain token := by
  rw [convert]
  simp only [bind_eq_ok, exists_unit, require_eq_ok, Snapshot.visit_eq_ok, Bool.not_eq_true]
  constructor
  · rintro ⟨_, ⟨hroom, rfl⟩, hdefined, hpresent, hrest⟩
    split at hrest
    · rename_i token own inherited
      simp only [bind_eq_ok, exists_unit, require_eq_ok, Snapshot.reserve_eq_ok, pure_eq_ok,
        Prod.mk.injEq] at hrest
      obtain ⟨htype, _, ⟨hreserve, rfl⟩, rfl, rfl⟩ := hrest
      exact ⟨hroom, token, own, inherited, rfl, htype, hreserve, rfl, rfl⟩
    · cases hrest
  · rintro ⟨hroom, token, own, inherited, rfl, htype, hreserve, rfl, rfl⟩
    refine ⟨_, ⟨hroom, rfl⟩, rfl, rfl, ?_⟩
    simp only [bind_eq_ok, exists_unit, require_eq_ok, Snapshot.reserve_eq_ok, pure_eq_ok,
      Prod.mk.injEq]
    exact ⟨htype, _, ⟨hreserve, rfl⟩, trivial, rfl⟩

theorem convert_array_eq_ok {element : ConversionNode} :
    convert direction (.array element) value path depth snapshot = .ok (produced, after) ↔
      Enters value depth snapshot ∧ ∃ items converted, arrayItems? direction value = some items ∧
        items.length ≤ snapshot.budget.limits.maxArrayLength ∧
        snapshot.visited.CanReserve (24 + items.length * pointerSize) ∧
        convertItems
            (fun item itemPath => convert direction element item itemPath (depth + 1)) path 0 items
            (snapshot.visited.reserved (24 + items.length * pointerSize)) =
          .ok (converted, after) ∧
        produced = arrayOf direction converted := by
  rw [convert]
  simp only [bind_eq_ok, exists_unit, require_eq_ok, Snapshot.visit_eq_ok, Bool.not_eq_true,
    Snapshot.reserve_eq_ok, demand_eq_ok, pure_eq_ok, Prod.exists, Prod.mk.injEq]
  constructor
  · rintro ⟨_, ⟨hroom, rfl⟩, hdefined, hpresent, items, hitems, hlength, _, ⟨hreserve, rfl⟩,
      converted, _, hconverted, rfl, rfl⟩
    exact ⟨⟨hroom, hdefined, hpresent⟩, items, converted, hitems, hlength, hreserve, hconverted,
      rfl⟩
  · rintro ⟨⟨hroom, hdefined, hpresent⟩, items, converted, hitems, hlength, hreserve, hconverted,
      rfl⟩
    exact ⟨_, ⟨hroom, rfl⟩, hdefined, hpresent, items, hitems, hlength, _, ⟨hreserve, rfl⟩,
      converted, _, hconverted, rfl, rfl⟩

theorem convert_value_eq_ok {typeId publicName : String} {fields : List (String × ConversionNode)} :
    convert direction (.value typeId publicName fields) value path depth snapshot =
        .ok (produced, after) ↔
      snapshot.CanVisit depth ∧ ∃ own inherited result, value = .object .mapping own inherited ∧
        snapshot.visited.CanReserve (32 + fields.length * 16) ∧
        convertFields direction own path depth fields []
            (snapshot.visited.reserved (32 + fields.length * 16)) = .ok (result, after) ∧
        produced = .object .mapping result [] := by
  rw [convert]
  simp only [bind_eq_ok, exists_unit, require_eq_ok, Snapshot.visit_eq_ok, Bool.not_eq_true]
  constructor
  · rintro ⟨_, ⟨hroom, rfl⟩, hdefined, hpresent, hrest⟩
    split at hrest
    · rename_i own inherited
      simp only [bind_eq_ok, Snapshot.reserve_eq_ok, pure_eq_ok, Prod.exists,
        Prod.mk.injEq] at hrest
      obtain ⟨_, ⟨hreserve, rfl⟩, result, _, hresult, rfl, rfl⟩ := hrest
      exact ⟨hroom, own, inherited, result, rfl, hreserve, hresult, rfl⟩
    · cases hrest
  · rintro ⟨hroom, own, inherited, result, rfl, hreserve, hresult, rfl⟩
    refine ⟨_, ⟨hroom, rfl⟩, rfl, rfl, ?_⟩
    simp only [bind_eq_ok, Snapshot.reserve_eq_ok, pure_eq_ok, Prod.exists, Prod.mk.injEq]
    exact ⟨_, ⟨hreserve, rfl⟩, result, _, hresult, rfl, rfl⟩

end Enter

/-! ### Scalars -/

section Scalars

variable {value produced : Value} {path : String} {snapshot after : Snapshot}

@[simp] theorem integral?_finite (integer : Int) : integral? (.finite integer) = some integer := by
  simp [integral?, Double.value?, Rat.isInt]

theorem natAbs_lt_of_inInt32 {integer : Int} (hrange : inInt32 integer = true) :
    integer.natAbs < 2 ^ 53 := by
  simp only [inInt32, Bool.and_eq_true, decide_eq_true_eq] at hrange
  omega

/-- A produced value is there, so the next conversion looks at its kind. -/
structure Presentable (value : Value) : Prop where
  defined : value.isUndefined = false
  present : value.isNull = false
  filled : value.isArrayHole = false

theorem convertInt32_roundTrip
    (hok : convertScalar .int32 value .output path snapshot = .ok (produced, after))
    (inputPath : String) :
    convertScalar .int32 produced .input inputPath snapshot =
        .ok (canonicalScalar .int32 value, after) ∧ Presentable produced := by
  simp only [convertScalar, bind_eq_ok, exists_unit, require_eq_ok, demand_eq_ok, pure_eq_ok,
    Prod.mk.injEq] at hok ⊢
  obtain ⟨numeric, hnumeric, integer, hintegral, hrange, rfl, rfl⟩ := hok
  have hshort := natAbs_lt_of_inInt32 hrange
  have hcanonical : canonicalScalar .int32 value = .int integer := by
    cases value with
    | int original =>
        simp only [toDouble, demand_eq_ok] at hnumeric
        obtain ⟨rounded, rfl⟩ := Double.exists_of_ofInt hnumeric
        rw [integral?_finite, Option.some.injEq] at hintegral
        subst hintegral
        rw [Double.eq_of_ofInt hshort hnumeric]
        rfl
    | float double =>
        simp only [toDouble, Except.ok.injEq] at hnumeric
        subst hnumeric
        simp [canonicalScalar, hintegral]
    | _ => cases hnumeric
  refine ⟨⟨.finite integer, ?_, integer, integral?_finite integer, hrange, hcanonical.symm, rfl⟩,
    rfl, rfl, rfl⟩
  simp [toDouble, Double.ofInt_of_lt hshort]

theorem convertInt64_roundTrip
    (hok : convertScalar .int64 value .output path snapshot = .ok (produced, after))
    (inputPath : String) :
    convertScalar .int64 produced .input inputPath snapshot =
        .ok (canonicalScalar .int64 value, after) ∧ Presentable produced := by
  simp only [convertScalar, bind_eq_ok, pure_eq_ok, Prod.mk.injEq] at hok ⊢
  obtain ⟨converted, hconverted, rfl, rfl⟩ := hok
  cases value with
  | int integer =>
      simp only [convertInt64, bind_eq_ok, exists_unit, require_eq_ok, pure_eq_ok] at hconverted
      obtain ⟨hrange, rfl⟩ := hconverted
      refine ⟨⟨.int integer, ?_, rfl, rfl⟩, rfl, rfl, rfl⟩
      simp only [convertInt64, bind_eq_ok, exists_unit, require_eq_ok, pure_eq_ok]
      exact ⟨hrange, trivial⟩
  | _ => cases hconverted

/-- A number that has been read as a double is read again as that double. -/
theorem toDouble_canonical {failure overflow : Failure} {numeric : Double}
    (hnumeric : toDouble value failure overflow = .ok numeric) :
    canonicalScalar .float32 value = .float numeric ∧
      canonicalScalar .float64 value = .float numeric := by
  cases value with
  | int integer =>
      simp only [toDouble, demand_eq_ok] at hnumeric
      simp [canonicalScalar, hnumeric]
  | float double =>
      simp only [toDouble, Except.ok.injEq] at hnumeric
      subst hnumeric
      exact ⟨rfl, rfl⟩
  | _ => cases hnumeric

theorem convertScalar_roundTrip {kind : ScalarKind}
    (hok : convertScalar kind value .output path snapshot = .ok (produced, after))
    (inputPath : String) :
    convertScalar kind produced .input inputPath snapshot =
        .ok (canonicalScalar kind value, after) ∧ Presentable produced := by
  cases kind with
  | bool =>
      cases value with
      | bool flag =>
          simp only [convertScalar, Except.ok.injEq, Prod.mk.injEq] at hok
          obtain ⟨rfl, rfl⟩ := hok
          exact ⟨rfl, rfl, rfl, rfl⟩
      | _ => cases hok
  | int32 => exact convertInt32_roundTrip hok inputPath
  | int64 => exact convertInt64_roundTrip hok inputPath
  | float32 =>
      simp only [convertScalar, bind_eq_ok, exists_unit, require_eq_ok, pure_eq_ok,
        Prod.mk.injEq] at hok ⊢
      obtain ⟨numeric, hnumeric, hrange, rfl, rfl⟩ := hok
      have hcanonical := (toDouble_canonical hnumeric).1
      exact ⟨⟨numeric, rfl, hrange, hcanonical.symm, rfl⟩, rfl, rfl, rfl⟩
  | float64 =>
      simp only [convertScalar, bind_eq_ok, pure_eq_ok, Prod.mk.injEq] at hok ⊢
      obtain ⟨numeric, hnumeric, rfl, rfl⟩ := hok
      have hcanonical := (toDouble_canonical hnumeric).2
      exact ⟨⟨numeric, rfl, hcanonical.symm, rfl⟩, rfl, rfl, rfl⟩
  | string =>
      cases value with
      | text text =>
          simp only [convertScalar, bind_eq_ok, exists_unit, encodedSize, demand_eq_ok,
            ConversionBudget.checkStringBytes, require_eq_ok, Snapshot.reserve_eq_ok, pure_eq_ok,
            Prod.mk.injEq] at hok
          obtain ⟨length, hsize, hlimit, _, ⟨hreserve, rfl⟩, rfl, rfl⟩ := hok
          refine ⟨?_, rfl, rfl, rfl⟩
          simp only [convertScalar, bind_eq_ok, exists_unit, encodedSize, demand_eq_ok,
            ConversionBudget.checkStringBytes, require_eq_ok, Snapshot.reserve_eq_ok, pure_eq_ok,
            Prod.mk.injEq]
          exact ⟨length, hsize, hlimit, _, ⟨hreserve, rfl⟩, rfl, rfl⟩
      | _ => cases hok
  | bytes =>
      simp only [convertScalar, bind_eq_ok, exists_unit, require_eq_ok, Snapshot.reserve_eq_ok,
        pure_eq_ok, Prod.mk.injEq] at hok ⊢
      obtain ⟨content, hcontent, hlimit, _, ⟨hreserve, rfl⟩, rfl, rfl⟩ := hok
      cases value with
      | buffer kind original =>
          simp only [rawBytes, Except.ok.injEq] at hcontent
          subst hcontent
          refine ⟨⟨original, ?_, hlimit, _, ⟨hreserve, rfl⟩, rfl, rfl⟩, rfl, rfl, rfl⟩
          simp [copiedBytes, rawBytes]
      | _ => cases hcontent

end Scalars

/-! ### The walk -/

/-- What converting a result along a node says about converting it back. -/
def RoundTrips (node : ConversionNode) : Prop :=
  ∀ {value produced : Value} {path : String} {depth : Nat} {snapshot after : Snapshot},
    convert .output node value path depth snapshot = .ok (produced, after) →
      produced.isArrayHole = false ∧ produced.isUndefined = false ∧
        (produced.isNull = true → value.isNull = true) ∧
        ∀ inputPath, convert .input node produced inputPath depth snapshot =
          .ok (canonical node value, after)

theorem RoundTrips.of_presentable {node : ConversionNode}
    (hback : ∀ {value produced path depth snapshot after},
      convert .output node value path depth snapshot = .ok (produced, after) →
        Presentable produced ∧ ∀ inputPath, convert .input node produced inputPath depth snapshot =
          .ok (canonical node value, after)) : RoundTrips node := by
  intro value produced path depth snapshot after hok
  obtain ⟨hpresentable, hinput⟩ := hback hok
  refine ⟨hpresentable.filled, hpresentable.defined, ?_, hinput⟩
  intro hnull
  rw [hpresentable.present] at hnull
  cases hnull

/-- The items of a result are passed back one by one. -/
theorem convertItems_roundTrip {element : ConversionNode} (helement : RoundTrips element)
    {path : String} {depth : Nat} (inputPath : String) :
    ∀ {items converted : List Value} {index : Nat} {snapshot after : Snapshot},
      convertItems (fun item itemPath => convert .output element item itemPath depth) path index
          items snapshot = .ok (converted, after) →
        converted.length = items.length ∧
        convertItems (fun item itemPath => convert .input element item itemPath depth) inputPath
            index converted snapshot =
          .ok (items.map fun item => canonical element item, after) := by
  intro items
  induction items with
  | nil =>
      intro converted index snapshot after hok
      simp only [convertItems, Except.ok.injEq, Prod.mk.injEq] at hok
      obtain ⟨rfl, rfl⟩ := hok
      exact ⟨rfl, rfl⟩
  | cons item items ih =>
      intro converted index snapshot after hok
      simp only [convertItems, bind_eq_ok, exists_unit, require_eq_ok, pure_eq_ok, Prod.exists,
        Prod.mk.injEq] at hok
      obtain ⟨_, first, middle, hfirst, rest, last, hrest, rfl, rfl⟩ := hok
      obtain ⟨hfilled, _, _, hback⟩ := helement hfirst
      obtain ⟨hlength, hitems⟩ := ih hrest
      refine ⟨by simp [hlength], ?_⟩
      simp only [convertItems, bind_eq_ok, exists_unit, require_eq_ok, pure_eq_ok, Prod.exists,
        Prod.mk.injEq, List.map_cons]
      exact ⟨by simp [hfilled], _, _, hback _, _, _, hitems, rfl, rfl⟩

/-- A new key goes to the end of a dictionary. -/
theorem assign_of_notMem {Item : Type} {entries : List (String × Item)} {name : String}
    (hnew : name ∉ entries.map Prod.fst) (item : Item) :
    assign entries name item = entries ++ [(name, item)] := by
  induction entries with
  | nil => rfl
  | cons entry entries ih =>
      obtain ⟨key, old⟩ := entry
      simp only [List.map_cons, List.mem_cons, not_or] at hnew
      rw [assign, if_neg (fun heq => hnew.1 heq.symm), ih hnew.2, List.cons_append]

/-- The fields of a result come in the declared order, and can be read back from any mapping that
has them. -/
theorem convertFields_roundTrip {own : List (String × Value)} {path : String} {depth : Nat}
    (inputPath : String) :
    ∀ {fields : List (String × ConversionNode)} {done result : List (String × Value)}
      {snapshot after : Snapshot}, (∀ field ∈ fields, RoundTrips field.2) →
      (done.map Prod.fst ++ fields.map Prod.fst).Nodup →
      convertFields .output own path depth fields done snapshot = .ok (result, after) →
        ∃ converted, result = done ++ converted ∧ converted.map Prod.fst = fields.map Prod.fst ∧
          ∀ (back read : List (String × Value)), back.map Prod.fst = done.map Prod.fst →
            (∀ entry ∈ converted, read.lookup entry.1 = some entry.2) →
            convertFields .input read inputPath depth fields back snapshot =
              .ok (back ++ canonicalFields own fields, after) := by
  intro fields
  induction fields with
  | nil =>
      intro done result snapshot after _ _ hok
      simp only [convertFields, Except.ok.injEq, Prod.mk.injEq] at hok
      obtain ⟨rfl, rfl⟩ := hok
      exact ⟨[], by simp, rfl, fun back read _ _ => by simp [convertFields, canonicalFields]⟩
  | cons field fields ih =>
      obtain ⟨name, node⟩ := field
      intro done result snapshot after hfields hnodup hok
      simp only [convertFields, bind_eq_ok, demand_eq_ok, Prod.exists] at hok
      obtain ⟨raw, hraw, first, middle, hfirst, hrest⟩ := hok
      obtain ⟨_, _, _, hback⟩ := hfields _ List.mem_cons_self hfirst
      have hnew : name ∉ done.map Prod.fst := by
        intro hmem
        rw [List.nodup_append] at hnodup
        exact hnodup.2.2 name hmem name (by simp) rfl
      have hnext : ((done ++ [(name, first)]).map Prod.fst ++ fields.map Prod.fst).Nodup := by
        simpa using hnodup
      rw [assign_of_notMem hnew] at hrest
      obtain ⟨converted, rfl, hkeys, hread⟩ :=
        ih (fun other hother => hfields other (List.mem_cons_of_mem _ hother)) hnext hrest
      refine ⟨(name, first) :: converted, by simp, by simp [hkeys], ?_⟩
      intro back read hdone hlookup
      have hbackNew : name ∉ back.map Prod.fst := by rwa [hdone]
      have hothers := hread (back ++ [(name, canonical node raw)]) read (by simp [hdone])
        fun entry hentry => hlookup entry (List.mem_cons_of_mem _ hentry)
      simp only [convertFields, bind_eq_ok, demand_eq_ok, Prod.exists]
      refine ⟨first, hlookup _ List.mem_cons_self, _, _, hback _, ?_⟩
      rw [assign_of_notMem hbackNew, hothers]
      simp [canonicalFields, hraw]

/-- **Every node that is planned passes its results back.** -/
theorem roundTrips_of_planned {node : ConversionNode} (hplanned : node.Planned) :
    RoundTrips node := by
  induction hplanned with
  | scalar kind =>
      apply RoundTrips.of_presentable
      intro value produced path depth snapshot after hok
      obtain ⟨henters, hscalar⟩ := convert_scalar_eq_ok.mp hok
      have hpresentable := (convertScalar_roundTrip hscalar path).2
      refine ⟨hpresentable, fun inputPath => ?_⟩
      rw [convert_scalar_eq_ok]
      exact ⟨⟨henters.room, hpresentable.defined, hpresentable.present⟩,
        (convertScalar_roundTrip hscalar inputPath).1⟩
  | enum typeId publicName constants =>
      apply RoundTrips.of_presentable
      intro value produced path depth snapshot after hok
      obtain ⟨hroom, text, byteCount, rfl, hrest⟩ := convert_enum_eq_ok.mp hok
      obtain ⟨hconstant, hsize, hlimit, hreserve, rfl, rfl⟩ := hrest
      refine ⟨⟨rfl, rfl, rfl⟩, fun inputPath => ?_⟩
      rw [convert_enum_eq_ok]
      exact ⟨hroom, text, byteCount, rfl, hconstant, hsize, hlimit, hreserve, rfl, rfl⟩
  | object typeId publicName =>
      apply RoundTrips.of_presentable
      intro value produced path depth snapshot after hok
      obtain ⟨hroom, token, own, inherited, rfl, hrest⟩ := convert_object_eq_ok.mp hok
      obtain ⟨htype, hreserve, rfl, rfl⟩ := hrest
      refine ⟨⟨rfl, rfl, rfl⟩, fun inputPath => ?_⟩
      rw [convert_object_eq_ok]
      exact ⟨hroom, token, own, inherited, rfl, htype, hreserve, rfl, rfl⟩
  | @array element _ ih =>
      apply RoundTrips.of_presentable
      intro value produced path depth snapshot after hok
      obtain ⟨henters, items, converted, hitems, hlength, hreserve, hconverted, rfl⟩ :=
        convert_array_eq_ok.mp hok
      refine ⟨⟨rfl, rfl, rfl⟩, fun inputPath => ?_⟩
      obtain ⟨hsame, hback⟩ := convertItems_roundTrip ih inputPath hconverted
      have hcanonical : canonical (.array element) value =
          .tuple (items.map fun item => canonical element item) := by
        cases value with
        | list _ | tuple _ =>
            simp only [arrayItems?, Option.some.injEq] at hitems
            subst hitems
            simp [canonical]
        | _ => cases hitems
      rw [convert_array_eq_ok]
      refine ⟨⟨henters.room, rfl, rfl⟩, converted, items.map (canonical element), rfl, ?_⟩
      rw [hsame]
      exact ⟨hlength, hreserve, hback, hcanonical⟩
  | @nullable element _ ih =>
      intro value produced path depth snapshot after hok
      obtain ⟨hroom, hdefined, hbranch⟩ := convert_nullable_eq_ok.mp hok
      by_cases hnull : value.isNull = true
      · rw [if_pos hnull, Prod.mk.injEq] at hbranch
        obtain ⟨rfl, rfl⟩ := hbranch
        refine ⟨rfl, rfl, fun _ => hnull, fun inputPath => ?_⟩
        have hvalue : value = .null := by
          cases value <;> simp_all [Value.isNull]
        rw [convert_nullable_eq_ok]
        refine ⟨hroom, rfl, ?_⟩
        simp [hvalue, canonical, Value.isNull]
      · rw [if_neg hnull] at hbranch
        obtain ⟨hfilled, hproduced, hpresent, hback⟩ := ih hbranch
        have hnotNull : ¬ produced.isNull = true := fun hproducedNull =>
          hnull (hpresent hproducedNull)
        refine ⟨hfilled, hproduced, hpresent, fun inputPath => ?_⟩
        rw [convert_nullable_eq_ok, if_neg hnotNull]
        refine ⟨hroom, hproduced, ?_⟩
        rw [hback, canonical, if_neg hnull]
  | value typeId publicName hnames _ ih =>
      apply RoundTrips.of_presentable
      intro value produced path depth snapshot after hok
      obtain ⟨hroom, own, inherited, result, rfl, hreserve, hresult, rfl⟩ :=
        convert_value_eq_ok.mp hok
      refine ⟨⟨rfl, rfl, rfl⟩, fun inputPath => ?_⟩
      obtain ⟨converted, happend, hkeys, hread⟩ :=
        convertFields_roundTrip inputPath ih (by simpa using hnames) hresult
      rw [List.nil_append] at happend
      subst happend
      have hlookup : ∀ entry ∈ result, result.lookup entry.1 = some entry.2 := by
        intro entry hentry
        exact (Python.lookup_eq_some_iff (by rwa [hkeys])).mpr hentry
      rw [convert_value_eq_ok]
      refine ⟨hroom, result, [], _, rfl, hreserve, hread [] result rfl hlookup, ?_⟩
      simp [canonical]

/-- **What a result becomes in JavaScript can be passed back.** Along a plan without void, an input
conversion that starts from the same budget accepts the produced value, gives the canonical form of
the native value, and leaves the same totals and retained objects. -/
theorem convert_output_input {api : SemanticApi} {type : SemanticType} {node : ConversionNode}
    (hplan : planTypeConversion api type = .ok node) (hvoid : node.isVoid = false)
    {value produced : Value} {path : String} {depth : Nat} {snapshot after : Snapshot}
    (hok : convert .output node value path depth snapshot = .ok (produced, after))
    (inputPath : String) :
    convert .input node produced inputPath depth snapshot = .ok (canonical node value, after) := by
  have hplanned : node.Planned := by
    refine planTypeConversion_planned hplan ?_
    rintro rfl
    cases hvoid
  exact (roundTrips_of_planned hplanned hok).2.2.2 inputPath

/-! ### A stroke without a label -/

def strokeSource (declarationId : String) : SourceProvenance.Fields :=
  { declarationId, language := "cpp", path := "stroke.hpp", line := 1 }

def strokeType : SemanticType where
  node := .valueRef "f:type:Stroke"
  valid := by decide

def strokeDeclaration : SemanticValueDeclaration where
  featureId := "f"
  typeId := "f:type:Stroke"
  name := "Stroke"
  fields := [
    { fieldId := "f:times"
      ownerId := "f:type:Stroke"
      name := "times"
      type := { node := .array (.scalar .int64), valid := by decide }
      source := { strokeSource "times" with valid := by decide }
      mutable := false
      valid := by decide },
    { fieldId := "f:label"
      ownerId := "f:type:Stroke"
      name := "label"
      type := { node := .nullable (.scalar .string), valid := by decide }
      source := { strokeSource "label" with valid := by decide }
      mutable := false
      valid := by decide }]
  projections := [
    { backend := .cpp
      source := { strokeSource "Stroke" with valid := by decide }
      valid := by decide }]
  valid := by decide

def strokeApi : SemanticApi where
  declarations := [.value strokeDeclaration]
  valid := by decide

/-- A tuple of times, no label, and a key that is not declared. -/
def stroke : Value :=
  .object .mapping [("label", .null), ("width", .int 2), ("times", .tuple [.int 7, .int (-7)])] []

def strokeSnapshot : Snapshot :=
  { budget := { limits := .standard } }

theorem convert_output_input_stroke :
    ∃ node produced after, planTypeConversion strokeApi strokeType = .ok node ∧
      convert .output node stroke "result" 1 strokeSnapshot = .ok (produced, after) ∧
      convert .input node produced "argument" 1 strokeSnapshot =
        .ok (canonical node stroke, after) := by
  have hrun : (planTypeConversion strokeApi strokeType).toOption.any (fun node =>
      !node.isVoid && (convert .output node stroke "result" 1 strokeSnapshot).isOk) = true := by
    decide
  cases hplan : planTypeConversion strokeApi strokeType with
  | error error => simp [hplan, Except.toOption] at hrun
  | ok node =>
      simp only [hplan, Except.toOption, Option.any_some, Bool.and_eq_true,
        Bool.not_eq_true'] at hrun
      obtain ⟨⟨produced, after⟩, hok⟩ := exists_of_isOk hrun.2
      exact ⟨node, produced, after, rfl, hok,
        convert_output_input hplan hrun.1 hok "argument"⟩

end SupernoteModule.Conversion
