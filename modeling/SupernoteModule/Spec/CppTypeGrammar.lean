import SupernoteModule.Frontend.CppRoutes
import SupernoteModule.Frontend.CppTypeSyntax
import SupernoteModule.Python.TokenText

/-!
# The grammar of C++ types

What the tokens of a type denote: a scalar, the name of a marked type in one of its forms, or a
container of what may be contained. The grammar says nothing about texts.
-/

namespace SupernoteModule.Frontend

open SupernoteModule.Lib SupernoteModule.Python SupernoteModule.Semantic

/-! ### Tokens -/

/-- An alphabet in which every ASCII letter and digit is one, and no space and no mark of a type. -/
structure TypeAlphabet extends Alphabet where
  letters : ∀ char, isAlpha char → isAlnum char
  ascii : ∀ char : Char, char.isAlphanum → isAlnum char
  spaceless : ∀ char, isSpace char → isAlnum char = false
  unmarked : ":<>&,".toList.all (!isAlnum ·) = true

namespace TypeAlphabet

/-- The tokens of a type are words and the allowed marks. -/
def lexicon (alphabet : TypeAlphabet) : Lexicon where
  isWordPart char := alphabet.isAlnum char || char = '_'
  marks := allowedPunctuation
  spaceless char hspace := by
    have hunderscore : char ≠ '_' := by
      rintro rfl
      exact absurd hspace (by decide)
    simp [alphabet.spaceless char hspace, hunderscore]
  nonempty := by decide
  solid := forall_chars_of_all (by decide)
  apart := by
    intro mark hmark char hchar
    have hmem : char ∈ ":<>&,".toList := by
      exact forall_chars_of_all (p := (· ∈ ":<>&,".toList)) (by decide) mark hmark char hchar
    have hunmarked := List.all_eq_true.mp alphabet.unmarked char hmem
    have hunderscore : char ≠ '_' := by
      rintro rfl
      exact absurd hmem (by decide)
    simpa [hunderscore] using hunmarked
  distinct first hfirst second hsecond := by
    apply forall_chars_of_all_single
    revert first second
    decide

end TypeAlphabet

/-- The identifiers among the tokens are words of the alphabet. -/
def Lexed (alphabet : TypeAlphabet) (tokens : List CppToken) : Prop :=
  ∀ token ∈ tokens, token.kind = .identifier → alphabet.lexicon.IsWord token.value

def CppToken.text (token : CppToken) : String :=
  String.ofList token.value

/-! ### Names -/

def typeMarks : List String :=
  ["::", "<", ">", "&"]

/-- A name as it is written, `a::b`. -/
def spelledName : List String → List String
  | [] => []
  | [part] => [part]
  | part :: next :: rest => part :: "::" :: spelledName (next :: rest)

namespace CppTypeRegistry

variable (registry : CppTypeRegistry) (cppNamespace : List String)

/-- The marked type of this name that the first of the enclosing namespaces have. -/
def DefinesWithin (name : String) (count : Nat) (named : CppNamedType) : Prop :=
  named ∈ registry ∧ named.qualifiedName = joinNames (cppNamespace.take count ++ [name])

/-- The marked type that a name stands for. -/
inductive Denotes : List String → CppNamedType → Prop
  | qualified {first second : String} {rest : List String} {named : CppNamedType}
      (hmem : named ∈ registry)
        (hname : named.qualifiedName = joinNames (first :: second :: rest)) :
      Denotes (first :: second :: rest) named
  | enclosing {name : String} {count : Nat} {named : CppNamedType}
      (hcount : count ≤ cppNamespace.length)
      (hdefines : registry.DefinesWithin cppNamespace name count named)
      (hinnermost : ∀ inner, count < inner → inner ≤ cppNamespace.length →
        ∀ other, ¬ registry.DefinesWithin cppNamespace name inner other) :
      Denotes [name] named
  | only {name : String} {named : CppNamedType}
      (hnone : ∀ count ≤ cppNamespace.length,
        ∀ other, ¬ registry.DefinesWithin cppNamespace name count other)
      (hmem : named ∈ registry) (hname : named.publicName = name)
      (honly : ∀ other ∈ registry, other.publicName = name → other = named) :
      Denotes [name] named

/-- The tokens are a name of the type, from the global namespace on or not. -/
def Spells (texts : List String) (named : CppNamedType) : Prop :=
  ∃ parts, parts ≠ [] ∧ (∀ part ∈ parts, part ∉ typeMarks) ∧
    (texts = spelledName parts ∨ texts = "::" :: spelledName parts) ∧
    registry.Denotes cppNamespace parts named

end CppTypeRegistry

/-! ### Types -/

/-- The spellings of the scalars. -/
def scalarSpellings : List (List String × SemanticType) := [
  (["bool"], .scalar .bool),
  (["int32_t"], .scalar .int32),
  (["std", "::", "int32_t"], .scalar .int32),
  (["int64_t"], .scalar .int64),
  (["std", "::", "int64_t"], .scalar .int64),
  (["float"], .scalar .float32),
  (["double"], .scalar .float64),
  (["std", "::", "string"], .scalar .string),
  (["std", "::", "vector", "<", "std", "::", "byte", ">"], .scalar .bytes)
]

/-- `std::template<inner>`. -/
def spelledTemplate (template : String) (inner : List String) : List String :=
  ["std", "::", template, "<"] ++ inner ++ [">"]

/-- What the tokens of a type denote in a position, and how a parameter passes a native object. -/
inductive DenotesType (registry : CppTypeRegistry) (cppNamespace : List String) :
    CppPosition → List String → SemanticType → Option CppObjectPassing → Prop
  | void : DenotesType registry cppNamespace .result ["void"] .void none
  | scalar {position : CppPosition} {texts : List String} {type : SemanticType}
      (hscalar : (texts, type) ∈ scalarSpellings) :
      DenotesType registry cppNamespace position texts type none
  | owned {position : CppPosition} {texts : List String} {named : CppNamedType}
      {type : SemanticType} (hname : registry.Spells cppNamespace texts named)
      (hscalar : ∀ entry ∈ scalarSpellings, entry.1 ≠ texts) (hvoid : texts ≠ ["void"])
      (hkind : named.kind ≠ .object) (htype : named.semanticType = .ok type) :
      DenotesType registry cppNamespace position texts type none
  | shared {position : CppPosition} {name : List String} {named : CppNamedType}
      {type : SemanticType} (hname : registry.Spells cppNamespace name named)
      (hkind : named.kind = .object) (htype : named.semanticType = .ok type) :
      DenotesType registry cppNamespace position (spelledTemplate "shared_ptr" name) type
        (if position = .parameter then some .sharedValue else none)
  | sharedConstRef {name : List String} {named : CppNamedType} {type : SemanticType}
      (hname : registry.Spells cppNamespace name named) (hkind : named.kind = .object)
      (htype : named.semanticType = .ok type) :
      DenotesType registry cppNamespace .parameter
        ("const" :: spelledTemplate "shared_ptr" name ++ ["&"]) type (some .sharedConstRef)
  | borrowedMutable {name : List String} {named : CppNamedType} {type : SemanticType}
      (hname : registry.Spells cppNamespace name named) (hkind : named.kind = .object)
      (htype : named.semanticType = .ok type) :
      DenotesType registry cppNamespace .parameter (name ++ ["&"]) type (some .borrowedMutable)
  | borrowedConst {name : List String} {named : CppNamedType} {type : SemanticType}
      (hname : registry.Spells cppNamespace name named) (hkind : named.kind = .object)
      (htype : named.semanticType = .ok type) :
      DenotesType registry cppNamespace .parameter ("const" :: name ++ ["&"]) type
        (some .borrowedConst)
  | vector {position : CppPosition} {inner : List String} {element type : SemanticType}
      {passing : Option CppObjectPassing}
      (helement : DenotesType registry cppNamespace .contained inner element passing)
      (hbytes : inner ≠ ["std", "::", "byte"]) (htype : type.node = .array element.node) :
      DenotesType registry cppNamespace position (spelledTemplate "vector" inner) type none
  | optional {position : CppPosition} {inner : List String} {element type : SemanticType}
      {passing : Option CppObjectPassing}
      (helement : DenotesType registry cppNamespace .contained inner element passing)
      (htype : type.node = .nullable element.node) :
      DenotesType registry cppNamespace position (spelledTemplate "optional" inner) type none

/-- How a parameter passes a native object, and nothing for another type or position. -/
def readPassing (position : CppPosition) (type : SemanticType) (spelling : String) :
    Option (Option CppObjectPassing) :=
  if position = .parameter ∧ type.node.kind = .objectRef then
    (objectPassing spelling).toOption.map some
  else some none

/-- The pipeline: `cpp_type_spelling`, `canonical_cpp_type` and, where a parameter is a native
object, `_object_passing`. -/
def readCppType (registry : CppTypeRegistry) (source : SourceProvenance)
    (cppNamespace : List String) (position : CppPosition) (tokens : List CppToken) :
    Option (SemanticType × Option CppObjectPassing) := do
  let spelling ← cppTypeSpelling tokens
  let type ← (canonicalCppType (some registry) source cppNamespace spelling
    (decide (position = .result)) position).toOption
  let passing ← readPassing position type spelling
  return (type, passing)

/-- No `const` stands in front of a `::`. -/
def ConstApart (texts : List String) : Prop :=
  ¬ ["const", "::"] <:+: texts

end SupernoteModule.Frontend
