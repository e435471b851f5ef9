import SupernoteModule.Semantic.Model

/-!
# The API as a whole

`SemanticApi` collects the records of one build. Its checks run over all records at once: no two
share an identity, every named reference meets a declaration of its kind, and no value contains
itself.
-/

namespace SupernoteModule.Semantic

open SupernoteModule.Lib SupernoteModule.Python

structure SemanticApi.Fields where
  functions : List SemanticBinding := []
  classes : List SemanticClass := []
  declarations : List SemanticDeclaration := []
deriving DecidableEq

namespace SemanticApi

variable (api : Fields)

def Fields.allBindings : List SemanticBinding :=
  api.functions ++ api.classes.flatMap (·.methods) ++ api.declarations.flatMap (·.methods)

/-- The identities that must differ from each other. -/
def Fields.semanticIds : List String :=
  api.allBindings.map (·.bindingId) ++ api.classes.map (·.classId) ++
    api.declarations.map (·.typeId) ++
    api.declarations.flatMap fun declaration => declaration.fields.map (·.fieldId)

/-- The source identities of one declaration, without those of its methods. -/
def declarationSourceIds (declaration : SemanticDeclaration) : List String :=
  declaration.projections.map (·.source.declarationId) ++
    (declaration.constructor?.map (·.source.declarationId)).toList ++
    declaration.fields.map (·.source.declarationId)

def Fields.sourceIds : List String :=
  api.allBindings.map (·.source.declarationId) ++ api.classes.map (·.source.declarationId) ++
    api.classes.map (·.constructor.source.declarationId) ++
    api.declarations.flatMap declarationSourceIds

def Fields.publicNames : List String :=
  (api.functions.filter (·.capabilities.javascriptPublic)).map (·.name) ++
    (api.classes.filter (·.capabilities.javascriptPublic)).map (·.name)

/-! ### Named references -/

/-- The types a declaration mentions. -/
def declarationTypes (declaration : SemanticDeclaration) : List SemanticType :=
  declaration.fields.map (·.type) ++
    (declaration.constructor?.toList.flatMap fun constructor =>
      constructor.parameters.map (·.type)) ++
    declaration.methods.flatMap (·.types)

/-- `_all_api_types`. -/
def Fields.allTypes : List SemanticType :=
  api.functions.flatMap (·.types) ++
    (api.classes.flatMap fun record =>
      record.constructor.parameters.map (·.type) ++ record.methods.flatMap (·.types)) ++
    api.declarations.flatMap declarationTypes

end SemanticApi

/-- `_walk_type`. -/
def TypeNode.walk : TypeNode → List TypeNode
  | .array element => .array element :: element.walk
  | .nullable inner => .nullable inner :: inner.walk
  | node => [node]

/-- The declaration kind a reference expects, with the identity it names. -/
def TypeNode.reference? : TypeNode → Option (SemanticDeclarationKind × String)
  | .enumRef typeId => some (.enum, typeId)
  | .valueRef typeId => some (.value, typeId)
  | .objectRef typeId => some (.object, typeId)
  | .void | .scalar _ | .array _ | .nullable _ => none

namespace SemanticApi

variable (api : Fields)

/-- `{item.type_id: item for item in api.declarations}.get(type_id)`. -/
def Fields.declaration? (typeId : String) : Option SemanticDeclaration :=
  api.declarations.find? (·.typeId = typeId)

def Fields.validateReference (node : TypeNode) : Except SemanticError Unit :=
  match node.reference? with
  | none => .ok ()
  | some (kind, typeId) =>
      match api.declaration? typeId with
      | none =>
          .error (.model
            s!"unknown semantic {value node.kind} type ID {Python.repr typeId}")
      | some declaration =>
          require (declaration.kind = kind)
            (.model (s!"nominal reference {Python.repr typeId} has kind " ++
              s!"{Python.repr (value node.kind)}, but the declaration is " ++
              s!"{Python.repr (value declaration.kind)}"))

def Fields.validateNamedReferences : Except SemanticError Unit :=
  checkEach api.allTypes fun type => checkEach type.node.walk api.validateReference

/-! ### Value cycles -/

/-- `_value_dependencies`, in the order they are visited. -/
def valueDependencies (declaration : SemanticValueDeclaration) : List String :=
  sortedSet <| (declaration.fields.flatMap (·.type.node.walk)).filterMap fun
    | .valueRef typeId => some typeId
    | _ => none

def Fields.values : List (String × SemanticValueDeclaration) :=
  (api.declarations.filterMap (·.value?)).map fun declaration =>
    (declaration.typeId, declaration)

/-- `visit`, which gives the new `complete`. The fuel bounds the depth of the recursion. -/
def visit (lookup : String → Option SemanticValueDeclaration) :
    Nat → List String → List String → String → Except SemanticError (List String)
  | 0, _, _, _ => .error .recursion
  | fuel + 1, visiting, complete, typeId =>
      if typeId ∈ complete then .ok complete
      else if typeId ∈ visiting then
        let cycle := visiting.drop (visiting.idxOf typeId) ++ [typeId]
        .error (.model ("recursive value declaration cycle: " ++ " -> ".intercalate cycle))
      else
        match lookup typeId with
        | none => .error (.key typeId)
        | some declaration => do
            let complete ←
              (valueDependencies declaration).foldlM (visit lookup fuel (visiting ++ [typeId]))
                complete
            return typeId :: complete

/-- Every value is on the stack at most once, so one call more than there are values is enough. -/
def Fields.validateValueCycles : Except SemanticError Unit := do
  let _ ←
    (sortedSet (api.values.map Prod.fst)).foldlM
      (visit (api.values.lookup ·) (api.values.length + 1) []) []
  return ()

def Fields.postInit : Except SemanticError Unit := do
  checkEach api.functions fun binding =>
    require (binding.kind = .function)
      (.model "top-level semantic API bindings must have function kind")
  rejectDuplicates api.semanticIds "semantic identity"
  rejectDuplicates api.sourceIds "source declaration identity"
  rejectDuplicates api.publicNames "JavaScript-public top-level name"
  api.validateNamedReferences
  api.validateValueCycles

end SemanticApi

/-- The functions, classes and declarations of one build. -/
structure SemanticApi extends SemanticApi.Fields where
  valid : toFields.postInit = .ok ()
deriving DecidableEq

namespace SemanticApi

def schemaVersion : String := "1.0"
def manifestKind : String := "supernote_module_semantic_manifest"

def make (api : Fields) : Except SemanticError SemanticApi :=
  verified api.postInit fun hvalid => { api with valid := hvalid }

@[simp] theorem make_eq_ok {fields : Fields} {api : SemanticApi} :
    make fields = .ok api ↔ api.toFields = fields :=
  verified_eq_ok_of_fields (fun _ => rfl) (by rintro rfl; exact ⟨api.valid, rfl⟩)

def manifest (api : SemanticApi) : Json :=
  .object [
    ("schema_version", .string schemaVersion),
    ("kind", .string manifestKind),
    ("functions", .array ((sortedBy (·.bindingId) api.functions).map SemanticBinding.manifest)),
    ("classes", .array ((sortedBy (·.classId) api.classes).map SemanticClass.manifest)),
    ("types", .array ((sortedBy (·.typeId) api.declarations).map SemanticDeclaration.manifest))
  ]

end SemanticApi

end SupernoteModule.Semantic
