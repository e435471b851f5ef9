import SupernoteModule.Semantic.Api

/-!
# Conversion plans

A plan unfolds a semantic type into a tree without references: enums carry their constants, values
their fields. Every lowering and the reference engine work along this tree.
-/

namespace SupernoteModule.Conversion

open SupernoteModule.Lib SupernoteModule.Python SupernoteModule.Semantic

/-- The largest count of the signed 64-bit counters. -/
def maxCounter : Nat := 2 ^ 63 - 1

/-- `ConversionPlanError`, next to a recursion that ran out of fuel. -/
inductive PlanError where
  | plan (text : String)
  | recursion
deriving DecidableEq

/-! ### Limits -/

structure ConversionLimits.Fields where
  maxDepth : Nat := 32
  maxArrayLength : Nat := 65536
  maxVisitedNodes : Nat := 262144
  maxStringBytes : Nat := 8 * 1024 * 1024
  maxByteBufferBytes : Nat := 32 * 1024 * 1024
  maxTemporaryBytes : Nat := 64 * 1024 * 1024
deriving DecidableEq

namespace ConversionLimits

/-- `ConversionLimits.manifest`. -/
def Fields.manifest (limits : Fields) : List (String × Nat) := [
  ("max_depth", limits.maxDepth),
  ("max_array_length", limits.maxArrayLength),
  ("max_visited_nodes", limits.maxVisitedNodes),
  ("max_string_bytes", limits.maxStringBytes),
  ("max_byte_buffer_bytes", limits.maxByteBufferBytes),
  ("max_temporary_bytes", limits.maxTemporaryBytes)
]

/-- `ConversionLimits.__post_init__`. -/
def Fields.postInit (limits : Fields) : Except PlanError Unit :=
  checkEach limits.manifest fun (name, value) => do
    require (0 < value) (.plan s!"conversion limit {name} must be positive")
    require (value ≤ maxCounter)
      (.plan s!"conversion limit {name} exceeds the shared signed 64-bit range")

end ConversionLimits

structure ConversionLimits extends ConversionLimits.Fields where
  valid : toFields.postInit = .ok ()
deriving DecidableEq

namespace ConversionLimits

/-- `DEFAULT_CONVERSION_LIMITS`. -/
def standard : ConversionLimits where
  valid := by decide

theorem bounded (limits : ConversionLimits) (name : String) {value : Nat}
    (hlimit : (name, value) ∈ limits.manifest) : 0 < value ∧ value ≤ maxCounter := by
  have hvalid := limits.valid
  rw [Fields.postInit, checkEach_eq_ok] at hvalid
  have hchecked := hvalid (name, value) hlimit
  simp only [bind_eq_ok, require_eq_ok, exists_unit] at hchecked
  exact hchecked

end ConversionLimits

/-! ### Nodes -/

inductive ConversionNode where
  | void
  | scalar (kind : ScalarKind)
  | enum (typeId publicName : String) (constants : List String)
  | value (typeId publicName : String) (fields : List (String × ConversionNode))
  | object (typeId publicName : String)
  | array (element : ConversionNode)
  | nullable (element : ConversionNode)

namespace ConversionNode

/-- `_SCALAR_EXPECTED`. -/
def scalarExpected : ScalarKind → String
  | .bool => "boolean"
  | .int32 => "int32 number"
  | .int64 => "int64 bigint"
  | .float32 => "float32 number"
  | .float64 => "float64 number"
  | .string => "string"
  | .bytes => "Uint8Array"

def expected : ConversionNode → String
  | .void => "void"
  | .scalar kind => scalarExpected kind
  | .enum _ publicName _ | .value _ publicName _ | .object _ publicName => publicName
  | .array element => s!"dense Array<{element.expected}>"
  | .nullable element => s!"{element.expected} or null"

def isVoid : ConversionNode → Bool
  | .void => true
  | _ => false

def named (typeId publicName : String) : Except PlanError Unit := do
  require (publicName ≠ "") (.plan "conversion nodes require a public expectation")
  require (typeId ≠ "" ∧ publicName ≠ "")
    (.plan "named conversion nodes require identity and name")

/-- `ConversionNode.__post_init__`, without the payloads that cannot be written here. -/
def postInit : ConversionNode → Except PlanError Unit
  | .enum typeId publicName constants => do
      named typeId publicName
      require (constants ≠ []) (.plan "enum conversion nodes require constants")
  | .value typeId publicName fields => do
      named typeId publicName
      require (¬ fields.isEmpty) (.plan "value conversion nodes require fields")
  | .object typeId publicName => named typeId publicName
  | .void | .scalar _ | .array _ | .nullable _ => .ok ()

def make (node : ConversionNode) : Except PlanError ConversionNode := do
  node.postInit
  return node

mutual

/-- Somewhere along the type there are managed objects. -/
def hasObjects : ConversionNode → Bool
  | .object _ _ => true
  | .array element | .nullable element => element.hasObjects
  | .value _ _ fields => fieldsHaveObjects fields
  | .void | .scalar _ | .enum _ _ _ => false

def fieldsHaveObjects : List (String × ConversionNode) → Bool
  | [] => false
  | (_, node) :: fields => node.hasObjects || fieldsHaveObjects fields

end

theorem hasObjects_field {fields : List (String × ConversionNode)}
    (hnone : fieldsHaveObjects fields = false) {field : String × ConversionNode}
    (hmem : field ∈ fields) : field.2.hasObjects = false := by
  induction fields with
  | nil => cases hmem
  | cons first fields ih =>
      rw [fieldsHaveObjects, Bool.or_eq_false_iff] at hnone
      rcases List.mem_cons.mp hmem with rfl | hrest
      · exact hnone.1
      · exact ih hnone.2 hrest

/-- What is planned for a type other than void: no void inside, and no two fields of one name. -/
inductive Planned : ConversionNode → Prop where
  | scalar (kind : ScalarKind) : Planned (.scalar kind)
  | enum (typeId publicName : String) (constants : List String) :
      Planned (.enum typeId publicName constants)
  | object (typeId publicName : String) : Planned (.object typeId publicName)
  | array {element : ConversionNode} (helement : Planned element) : Planned (.array element)
  | nullable {element : ConversionNode} (helement : Planned element) : Planned (.nullable element)
  | value (typeId publicName : String) {fields : List (String × ConversionNode)}
      (hnames : (fields.map Prod.fst).Nodup) (hfields : ∀ field ∈ fields, Planned field.2) :
      Planned (.value typeId publicName fields)

end ConversionNode

/-! ### The planner -/

variable (api : SemanticApi)

/-- The named references of `_plan_type`; `expand` plans the fields of a value. -/
def planNamed
    (expand : SemanticValueDeclaration → Except PlanError (List (String × ConversionNode)))
    (kind : SemanticTypeKind) (typeId : String) : Except PlanError ConversionNode :=
  match api.declaration? typeId with
  | none => .error (.plan s!"conversion references unknown type {Python.repr typeId}")
  | some (.enum declaration) => do
      require (kind = .enumRef) (.plan "enum declaration has a non-enum reference")
      ConversionNode.make (.enum declaration.typeId declaration.name declaration.constants)
  | some (.object declaration) => do
      require (kind = .objectRef) (.plan "object declaration has a non-object reference")
      ConversionNode.make (.object declaration.typeId declaration.name)
  | some (.value declaration) => do
      require (kind = .valueRef) (.plan "value declaration has a non-value reference")
      let fields ← expand declaration
      ConversionNode.make (.value declaration.typeId declaration.name fields)

/-- `_plan_type` inside one declaration. -/
def planNode
    (expand : SemanticValueDeclaration → Except PlanError (List (String × ConversionNode))) :
    TypeNode → Except PlanError ConversionNode
  | .void => .ok .void
  | .scalar kind => .ok (.scalar kind)
  | .enumRef typeId => planNamed api expand .enumRef typeId
  | .valueRef typeId => planNamed api expand .valueRef typeId
  | .objectRef typeId => planNamed api expand .objectRef typeId
  | .array element => do
      let child ← planNode expand element
      return .array child
  | .nullable inner => do
      let child ← planNode expand inner
      return .nullable child

/-- `_plan_type`, with the values that are being expanded. -/
def planType : Nat → List String → TypeNode → Except PlanError ConversionNode
  | 0, _ => planNode api fun _ => .error .recursion
  | fuel + 1, activeValues => planNode api fun declaration => do
      require (declaration.typeId ∉ activeValues)
        (.plan ("recursive value conversion graph: " ++
          " -> ".intercalate (activeValues ++ [declaration.typeId])))
      enumerate (fun field _ => do
        let node ← planType fuel (activeValues ++ [declaration.typeId]) field.type.node
        return (field.name, node)) 0 declaration.fields

/-- `plan_type_conversion`. -/
def planTypeConversion (type : SemanticType) : Except PlanError ConversionNode :=
  planType api (api.declarations.length + 1) [] type.node

/-- The parameters of `plan_binding_conversion`. -/
def planParameters (parameters : List SemanticParameter) :
    Except PlanError (List (String × ConversionNode)) :=
  enumerate (fun parameter _ => do
    let node ← planTypeConversion api parameter.type
    return (parameter.name, node)) 0 parameters

end SupernoteModule.Conversion
