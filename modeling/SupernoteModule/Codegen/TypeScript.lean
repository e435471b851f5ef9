import SupernoteModule.Semantic.Reachability

/-!
# TypeScript types

The text that the declarations of a feature have for a semantic type.
-/

namespace SupernoteModule.Codegen

open SupernoteModule.Python SupernoteModule.Semantic

/-- `_SCALARS`. -/
def typeScriptScalar : ScalarKind → String
  | .bool => "boolean"
  | .int32 => "number"
  | .int64 => "bigint"
  | .float32 => "number"
  | .float64 => "number"
  | .string => "string"
  | .bytes => "Uint8Array"

/-- `declaration_names`. -/
def declarationNames (declarations : List SemanticDeclaration) :
    List (String × SemanticDeclaration) :=
  dictOf SemanticDeclaration.typeId declarations

/-- `_type`, which fails with the identity of a type that has no name. -/
def typeScriptNode (declarations : List SemanticDeclaration) : TypeNode → Except String String
  | .void => .ok "void"
  | .scalar kind => .ok (typeScriptScalar kind)
  | .enumRef typeId | .valueRef typeId | .objectRef typeId =>
      match (declarationNames declarations).lookup typeId with
      | some declaration => .ok declaration.name
      | none => .error typeId
  | .nullable element => do
      let inner ← typeScriptNode declarations element
      return inner ++ " | null"
  | .array element => do
      let inner ← typeScriptNode declarations element
      if element.kind = .nullable then return "(" ++ inner ++ ")" ++ "[]"
      else return inner ++ "[]"

def typeScriptType (declarations : List SemanticDeclaration) (type : SemanticType) :
    Except String String :=
  typeScriptNode declarations type.node

end SupernoteModule.Codegen
