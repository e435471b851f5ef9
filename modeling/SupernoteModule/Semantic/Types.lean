import SupernoteModule.Lib.Guard
import SupernoteModule.Python.Json
import SupernoteModule.Python.Collections
import SupernoteModule.Python.Text

/-!
# Semantic types

The recursive, backend-neutral types of the generator, and the strict reader of their manifests. A
named reference carries only the identity of the declaration it refers to.
-/

namespace SupernoteModule.Semantic

open SupernoteModule.Lib SupernoteModule.Python
open SupernoteModule.Python.Json (Fields get keys)

/-- What the semantic layer raises. All but the last three are `ValueError`s. -/
inductive SemanticError where
  | type (message : String)
  | model (message : String)
  | reachability (message : String)
  | value (message : String)
  | key (name : String)
  | assertion
  | recursion
deriving DecidableEq

/-- `try: … except ValueError as exc: raise …`, with the new error made from the old text. -/
def rewrap {Value : Type} (wrap : String → SemanticError) (body : Except SemanticError Value) :
    Except SemanticError Value :=
  body.mapError fun
    | .type message | .model message | .reachability message | .value message => wrap message
    | .key name => .key name
    | .assertion => .assertion
    | .recursion => .recursion

@[simp] theorem rewrap_eq_ok {Value : Type} {wrap : String → SemanticError}
    {body : Except SemanticError Value} {value : Value} :
    rewrap wrap body = .ok value ↔ body = .ok value :=
  mapError_eq_ok

/-! ### Enumerations -/

/-- A `str` enumeration: the name of its class, its members and their values. -/
class Enumeration (Member : Type) where
  className : String
  members : List Member
  value : Member → String
  complete : ∀ member, member ∈ members
  injective : ∀ left right, value left = value right → left = right
  named : ∀ member, value member ≠ ""

export Enumeration (value)

/-- `Class(text)`: the member with this value. -/
def memberOf {Member : Type} [Enumeration Member] (text : String) :
    Except SemanticError Member :=
  match (Enumeration.members : List Member).find? (value · = text) with
  | some member => .ok member
  | none => .error (.value s!"{Python.repr text} is not a valid {Enumeration.className Member}")

@[simp] theorem memberOf_eq_ok {Member : Type} [Enumeration Member] {text : String}
    {member : Member} : memberOf text = .ok member ↔ text = value member := by
  unfold memberOf
  constructor
  · intro hread
    split at hread
    · rename_i found hfind
      have hvalue : value found = text := by simpa using List.find?_some hfind
      simp only [Except.ok.injEq] at hread
      rw [← hvalue, hread]
    · cases hread
  · rintro rfl
    cases hfind : (Enumeration.members : List Member).find? (value · = value member) with
    | none =>
        have hnone := List.find?_eq_none.mp hfind member (Enumeration.complete member)
        simp at hnone
    | some found =>
        have hvalue : value found = value member := by simpa using List.find?_some hfind
        simp [Enumeration.injective found member hvalue]

@[simp] theorem value_inj {Member : Type} [Enumeration Member] {left right : Member} :
    value left = value right ↔ left = right :=
  ⟨Enumeration.injective left right, congrArg value⟩

inductive ScalarKind where
  | bool
  | int32
  | int64
  | float32
  | float64
  | string
  | bytes
deriving DecidableEq, Repr

instance : Enumeration ScalarKind where
  className := "ScalarKind"
  members := [.bool, .int32, .int64, .float32, .float64, .string, .bytes]
  value
    | .bool => "bool"
    | .int32 => "int32"
    | .int64 => "int64"
    | .float32 => "float32"
    | .float64 => "float64"
    | .string => "string"
    | .bytes => "bytes"
  complete member := by cases member <;> decide
  injective left right := by cases left <;> cases right <;> decide
  named member := by cases member <;> decide

inductive SemanticTypeKind where
  | void
  | scalar
  | enumRef
  | valueRef
  | objectRef
  | array
  | nullable
deriving DecidableEq, Repr

instance : Enumeration SemanticTypeKind where
  className := "SemanticTypeKind"
  members := [.void, .scalar, .enumRef, .valueRef, .objectRef, .array, .nullable]
  value
    | .void => "void"
    | .scalar => "scalar"
    | .enumRef => "enum_ref"
    | .valueRef => "value_ref"
    | .objectRef => "object_ref"
    | .array => "array"
    | .nullable => "nullable"
  complete member := by cases member <;> decide
  injective left right := by cases left <;> cases right <;> decide
  named member := by cases member <;> decide

/-! ### The type algebra -/

/-- The payload each kind of type has, before the rules about nesting. -/
inductive TypeNode where
  | void
  | scalar (kind : ScalarKind)
  | enumRef (typeId : String)
  | valueRef (typeId : String)
  | objectRef (typeId : String)
  | array (element : TypeNode)
  | nullable (inner : TypeNode)
deriving DecidableEq, Repr

namespace TypeNode

def kind : TypeNode → SemanticTypeKind
  | .void => .void
  | .scalar _ => .scalar
  | .enumRef _ => .enumRef
  | .valueRef _ => .valueRef
  | .objectRef _ => .objectRef
  | .array _ => .array
  | .nullable _ => .nullable

def isVoid (node : TypeNode) : Bool :=
  node.kind = .void

/-- `SemanticType.__post_init__`, without the payloads that cannot be written here. -/
def postInit : TypeNode → Except SemanticError Unit
  | .void | .scalar _ => .ok ()
  | .enumRef typeId | .valueRef typeId | .objectRef typeId =>
      require (typeId ≠ "") (.type "a named semantic reference requires a type ID")
  | .array element =>
      require (¬ element.isVoid) (.type "void cannot be nested in a semantic type")
  | .nullable inner => do
      require (¬ inner.isVoid) (.type "void cannot be nested in a semantic type")
      require (inner.kind ≠ .nullable) (.type "nested nullable semantic types are forbidden")

/-- Every node of the type was constructed. -/
def Valid : TypeNode → Prop
  | .array element => postInit (.array element) = .ok () ∧ element.Valid
  | .nullable inner => postInit (.nullable inner) = .ok () ∧ inner.Valid
  | node => node.postInit = .ok ()

instance decidableValid : (node : TypeNode) → Decidable node.Valid
  | .array element =>
      have := decidableValid element
      inferInstanceAs (Decidable (_ ∧ _))
  | .nullable inner =>
      have := decidableValid inner
      inferInstanceAs (Decidable (_ ∧ _))
  | .void | .scalar _ | .enumRef _ | .valueRef _ | .objectRef _ =>
      inferInstanceAs (Decidable (_ = _))

/-- `SemanticType.manifest`. -/
def manifest : TypeNode → Json
  | .void => .object [("kind", .string (value SemanticTypeKind.void))]
  | .scalar kind =>
      .object [("kind", .string (value SemanticTypeKind.scalar)), ("name", .string (value kind))]
  | .enumRef typeId =>
      .object [("kind", .string (value SemanticTypeKind.enumRef)), ("type_id", .string typeId)]
  | .valueRef typeId =>
      .object [("kind", .string (value SemanticTypeKind.valueRef)), ("type_id", .string typeId)]
  | .objectRef typeId =>
      .object [("kind", .string (value SemanticTypeKind.objectRef)), ("type_id", .string typeId)]
  | .array element =>
      .object [("kind", .string (value SemanticTypeKind.array)), ("element", element.manifest)]
  | .nullable inner =>
      .object [("kind", .string (value SemanticTypeKind.nullable)), ("inner", inner.manifest)]

end TypeNode

/-- A type whose constructors have all accepted their payload. -/
structure SemanticType where
  node : TypeNode
  valid : node.Valid
deriving DecidableEq

namespace SemanticType

def manifest (type : SemanticType) : Json :=
  type.node.manifest

def isVoid (type : SemanticType) : Bool :=
  type.node.isVoid

def void : SemanticType := ⟨.void, rfl⟩

def scalar (kind : ScalarKind) : SemanticType := ⟨.scalar kind, rfl⟩

/-- `SemanticType(kind, type_id=typeId)`. -/
def enumRef (typeId : String) : Except SemanticError SemanticType :=
  verified (TypeNode.enumRef typeId).postInit fun hvalid => ⟨.enumRef typeId, hvalid⟩

def valueRef (typeId : String) : Except SemanticError SemanticType :=
  verified (TypeNode.valueRef typeId).postInit fun hvalid => ⟨.valueRef typeId, hvalid⟩

def objectRef (typeId : String) : Except SemanticError SemanticType :=
  verified (TypeNode.objectRef typeId).postInit fun hvalid => ⟨.objectRef typeId, hvalid⟩

/-- `SemanticType(kind, element=element)`. -/
def array (element : SemanticType) : Except SemanticError SemanticType :=
  verified (TypeNode.array element.node).postInit fun hvalid =>
    ⟨.array element.node, hvalid, element.valid⟩

def nullable (inner : SemanticType) : Except SemanticError SemanticType :=
  verified (TypeNode.nullable inner.node).postInit fun hvalid =>
    ⟨.nullable inner.node, hvalid, inner.valid⟩

theorem eq_of_node {left right : SemanticType} (hnode : left.node = right.node) :
    left = right := by
  cases left
  cases right
  simpa using hnode

section

variable {type element : SemanticType} {typeId : String}

theorem enumRef_eq_ok : enumRef typeId = .ok type ↔ type.node = .enumRef typeId := by
  rw [enumRef, verified_eq_ok]
  constructor
  · rintro ⟨_, rfl⟩
    rfl
  · intro hnode
    exact ⟨by simpa [hnode, TypeNode.Valid] using type.valid, eq_of_node hnode.symm⟩

theorem valueRef_eq_ok : valueRef typeId = .ok type ↔ type.node = .valueRef typeId := by
  rw [valueRef, verified_eq_ok]
  constructor
  · rintro ⟨_, rfl⟩
    rfl
  · intro hnode
    exact ⟨by simpa [hnode, TypeNode.Valid] using type.valid, eq_of_node hnode.symm⟩

theorem objectRef_eq_ok : objectRef typeId = .ok type ↔ type.node = .objectRef typeId := by
  rw [objectRef, verified_eq_ok]
  constructor
  · rintro ⟨_, rfl⟩
    rfl
  · intro hnode
    exact ⟨by simpa [hnode, TypeNode.Valid] using type.valid, eq_of_node hnode.symm⟩

theorem array_eq_ok : array element = .ok type ↔ type.node = .array element.node := by
  rw [array, verified_eq_ok]
  constructor
  · rintro ⟨_, rfl⟩
    rfl
  · intro hnode
    have hvalid : (TypeNode.array element.node).Valid := hnode ▸ type.valid
    exact ⟨hvalid.1, eq_of_node hnode.symm⟩

theorem nullable_eq_ok : nullable element = .ok type ↔ type.node = .nullable element.node := by
  rw [nullable, verified_eq_ok]
  constructor
  · rintro ⟨_, rfl⟩
    rfl
  · intro hnode
    have hvalid : (TypeNode.nullable element.node).Valid := hnode ▸ type.valid
    exact ⟨hvalid.1, eq_of_node hnode.symm⟩

end

end SemanticType

/-! ### The reader -/

/-- What `_require_keys` and `_manifest_keys` say about the wrong fields of an object. -/
def fieldsProblem (fields : Fields) (expected : List String) (label : String) : String :=
  let missing := sortedSet (expected.filter (· ∉ keys fields))
  let extra := sortedSet ((keys fields).filter (· ∉ expected))
  let details :=
    (if missing = [] then [] else ["missing " ++ ", ".intercalate missing]) ++
      (if extra = [] then [] else ["unknown " ++ ", ".intercalate extra])
  s!"{label} has invalid fields: " ++ "; ".intercalate details

def requireKeys (fields : Fields) (expected : List String) (label : String) :
    Except SemanticError Unit :=
  require (Json.hasExactly fields expected) (.type (fieldsProblem fields expected label))

def semanticTypeKind (fields : Fields) (label : String) :
    Except SemanticError SemanticTypeKind :=
  match get fields "kind" with
  | .string text => do
      require (text ≠ "") (.type s!"{label}.kind must be a non-empty string")
      (memberOf text).mapError fun _ =>
        .type s!"{label}.kind is invalid: {Python.repr text}"
  | _ => .error (.type s!"{label}.kind must be a non-empty string")

def semanticTypeFields : SemanticTypeKind → List String
  | .void => ["kind"]
  | .scalar => ["kind", "name"]
  | .enumRef | .valueRef | .objectRef => ["kind", "type_id"]
  | .array => ["kind", "element"]
  | .nullable => ["kind", "inner"]

def scalarTypeFromManifest (raw : Json) (label : String) : Except SemanticError SemanticType :=
  match raw with
  | .string text => do
      let kind ← memberOf text
      return SemanticType.scalar kind
  | _ => .error (.type s!"{label}.name must be a string")

def namedTypeFromManifest (raw : Json) (build : String → Except SemanticError SemanticType)
    (label : String) : Except SemanticError SemanticType :=
  match raw with
  | .string text => do
      require (text ≠ "") (.type s!"{label}.type_id must be a non-empty string")
      build text
  | _ => .error (.type s!"{label}.type_id must be a non-empty string")

mutual

/-- `semantic_type_from_manifest`. -/
def semanticTypeFromManifest : Json → String → Except SemanticError SemanticType
  | .object fields, label => do
      let kind ← semanticTypeKind fields label
      requireKeys fields (semanticTypeFields kind) label
      rewrap (fun message => .type s!"{label} is invalid: {message}") <|
        match kind with
        | .void => .ok SemanticType.void
        | .scalar => scalarTypeFromManifest (get fields "name") label
        | .enumRef => namedTypeFromManifest (get fields "type_id") SemanticType.enumRef label
        | .valueRef => namedTypeFromManifest (get fields "type_id") SemanticType.valueRef label
        | .objectRef => namedTypeFromManifest (get fields "type_id") SemanticType.objectRef label
        | .array => do
            let element ← typeField fields "element" s!"{label}.element"
            SemanticType.array element
        | .nullable => do
            let inner ← typeField fields "inner" s!"{label}.inner"
            SemanticType.nullable inner
  | _, label => .error (.type s!"{label} must be an object")

/-- `semantic_type_from_manifest(fields[key], label)`. -/
def typeField : Fields → String → String → Except SemanticError SemanticType
  | [], key, _ => .error (.key key)
  | (name, raw) :: fields, key, label =>
      if name = key then semanticTypeFromManifest raw label else typeField fields key label

end

end SupernoteModule.Semantic
