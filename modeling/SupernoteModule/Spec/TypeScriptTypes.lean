import SupernoteModule.Codegen.TypeScript

/-!
# Reading TypeScript types

A type is a union of operands, and an operand is a word or a type in parentheses with any number of
`[]` behind it, which bind tighter than `|`. A word is a type that is built in, one that the module
declares, or a global one.
-/

namespace SupernoteModule.Codegen

open SupernoteModule.Semantic

/-! ### Types -/

inductive TsType where
  | builtIn (word : String)
  | declared (typeId : String)
  | ambient (word : String)
  | array (element : TsType)
  | union (left right : TsType)
deriving DecidableEq

/-- The words that TypeScript keeps for types of its own. -/
def builtInTypes : List String :=
  ["any", "unknown", "never", "void", "null", "undefined", "boolean", "number", "bigint", "string",
    "symbol", "object"]

/-- The words that are no type and cannot be the name of one. -/
def reservedWords : List String :=
  ["break", "case", "catch", "class", "const", "continue", "debugger", "default", "delete", "do",
    "else", "enum", "export", "extends", "false", "finally", "for", "function", "if", "import",
    "in", "instanceof", "new", "return", "super", "switch", "this", "throw", "true", "try",
    "typeof", "var", "while", "with", "keyof", "unique", "readonly", "infer"]

/-- What a word stands for in a module with the declarations. -/
def readWord (declarations : List SemanticDeclaration) (word : String) : Option TsType :=
  if builtInTypes.contains word then some (.builtIn word)
  else if reservedWords.contains word then none
  else
    match declarations.find? (·.name = word) with
    | some declaration => some (.declared declaration.typeId)
    | none => some (.ambient word)

/-! ### Tokens -/

inductive TsToken where
  | word (text : String)
  | opening
  | closing
  | openingBracket
  | closingBracket
  | bar
deriving DecidableEq

def isTsWordChar (char : Char) : Bool :=
  char.isAlphanum || char = '_' || char = '$'

/-- The word that has been read so far, in front of what follows. -/
def endWord (word : List Char) (tokens : List TsToken) : List TsToken :=
  if word = [] then tokens else .word (String.ofList word) :: tokens

/-- The tokens of a text, behind the characters of a word. -/
def tsTokens : List Char → List Char → Option (List TsToken)
  | word, [] => some (endWord word [])
  | word, char :: rest =>
      if isTsWordChar char then tsTokens (word ++ [char]) rest
      else if char = ' ' then (tsTokens [] rest).map (endWord word)
      else if char = '(' then (tsTokens [] rest).map fun tokens => endWord word (.opening :: tokens)
      else if char = ')' then (tsTokens [] rest).map fun tokens => endWord word (.closing :: tokens)
      else if char = '[' then
        (tsTokens [] rest).map fun tokens => endWord word (.openingBracket :: tokens)
      else if char = ']' then
        (tsTokens [] rest).map fun tokens => endWord word (.closingBracket :: tokens)
      else if char = '|' then (tsTokens [] rest).map fun tokens => endWord word (.bar :: tokens)
      else none

/-! ### Reading -/

/-- As many `[]` as follow. -/
def readBrackets : TsType → List TsToken → TsType × List TsToken
  | type, .openingBracket :: .closingBracket :: rest => readBrackets (.array type) rest
  | type, rest => (type, rest)

def readOperand (declarations : List SemanticDeclaration)
    (readInner : List TsToken → Option (TsType × List TsToken)) :
    List TsToken → Option (TsType × List TsToken)
  | .word word :: rest => (readWord declarations word).map fun type => readBrackets type rest
  | .opening :: rest =>
      match readInner rest with
      | some (type, .closing :: rest) => some (readBrackets type rest)
      | _ => none
  | _ => none

/-- A union. The fuel bounds how often a union is read inside. -/
def readUnion (declarations : List SemanticDeclaration) :
    Nat → List TsToken → Option (TsType × List TsToken)
  | 0, _ => none
  | fuel + 1, tokens =>
      match readOperand declarations (readUnion declarations fuel) tokens with
      | some (left, .bar :: rest) =>
          (readUnion declarations fuel rest).map fun (right, rest) => (.union left right, rest)
      | outcome => outcome

/-- The type that a whole text denotes. -/
def readTypeScript (declarations : List SemanticDeclaration) (text : String) : Option TsType := do
  let tokens ← tsTokens [] text.toList
  match readUnion declarations (tokens.length + 1) tokens with
  | some (type, []) => some type
  | _ => none

/-! ### Structure -/

/-- What a semantic type is in TypeScript. -/
def structureOf : TypeNode → TsType
  | .void => .builtIn "void"
  | .scalar .bytes => .ambient "Uint8Array"
  | .scalar kind => .builtIn (typeScriptScalar kind)
  | .enumRef typeId | .valueRef typeId | .objectRef typeId => .declared typeId
  | .nullable element => .union (structureOf element) (.builtIn "null")
  | .array element => .array (structureOf element)

/-- The texts of types denote them, and types of one text are one type. -/
structure ReadsBack (declarations : List SemanticDeclaration) : Prop where
  denotes : ∀ type text, typeScriptType declarations type = .ok text →
    readTypeScript declarations text = some (structureOf type.node)
  separates : ∀ first next text, typeScriptType declarations first = .ok text →
    typeScriptType declarations next = .ok text → structureOf first.node = structureOf next.node

/-- A name that TypeScript reads as something else than the declaration, or that hides the type of
bytes. -/
def isTakenName (name : String) : Bool :=
  builtInTypes.contains name || reservedWords.contains name || name = "Uint8Array"

end SupernoteModule.Codegen
