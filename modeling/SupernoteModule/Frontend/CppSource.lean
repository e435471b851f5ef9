import SupernoteModule.Frontend.SourceIntent

/-!
# C++ source records

What the C++ front end keeps of a declaration. Every record carries the proof that its intent is one
for its kind of declaration.
-/

namespace SupernoteModule.Frontend

open SupernoteModule.Semantic

structure CppParameterSource where
  typeSpelling : String
  name : String
deriving DecidableEq

structure CppFunctionSource where
  provenance : SourceProvenance
  cppName : String
  returnTypeSpelling : String
  parameters : List CppParameterSource
  intent : SourceIntent
  noexcept : Bool := false
  cppNamespace : List String := []
  target : intent.target = .function
deriving DecidableEq

structure CppConstructorSource where
  provenance : SourceProvenance
  parameters : List CppParameterSource
  access : String
  intent : SourceIntent
  deleted : Bool := false
  explicit : Bool := false
  noexcept : Bool := false
  implicit : Bool := false
  target : intent.target = .constructor
deriving DecidableEq

def CppConstructorSource.selected (constructor : CppConstructorSource) : Bool :=
  constructor.intent.selectsConstructor

structure CppMethodSource where
  provenance : SourceProvenance
  cppName : String
  returnTypeSpelling : String
  parameters : List CppParameterSource
  intent : SourceIntent
  access : String
  const : Bool := false
  noexcept : Bool := false
  static : Bool := false
  target : intent.target = .method
deriving DecidableEq

structure CppFieldSource where
  provenance : SourceProvenance
  cppName : String
  typeSpelling : String
  intent : SourceIntent
  access : String
  mutable : Bool
  static : Bool := false
  target : intent.target = .field
deriving DecidableEq

structure CppClassSource where
  provenance : SourceProvenance
  cppName : String
  includePath : String
  intent : SourceIntent
  constructors : List CppConstructorSource
  methods : List CppMethodSource
  declarationKind : String := "class"
  fields : List CppFieldSource := []
  cppNamespace : List String := []
  target : intent.target = .class_
  kind : declarationKind ∈ ["class", "struct"]
deriving DecidableEq

theorem class_mem_kinds : "class" ∈ ["class", "struct"] := by
  decide

structure CppEnumSource where
  provenance : SourceProvenance
  cppName : String
  includePath : String
  intent : SourceIntent
  constants : List String
  cppNamespace : List String := []
  target : intent.target = .enum
deriving DecidableEq

/-- An identifier token of the lexer: letters, digits and underscores. Beyond ASCII every character
is taken to be a letter. -/
def isCppName (name : String) : Bool :=
  name ≠ "" && name.toList.all fun char => char.isAlphanum || char = '_' || 0x80 ≤ char.toNat

/-- `"::".join(names)`. -/
def joinNames (names : List String) : String :=
  "::".intercalate names

/-- A function has no property of this name; its routes spell the same join. -/
def CppFunctionSource.qualifiedName (source : CppFunctionSource) : String :=
  joinNames (source.cppNamespace ++ [source.cppName])

def CppClassSource.qualifiedName (source : CppClassSource) : String :=
  joinNames (source.cppNamespace ++ [source.cppName])

def CppEnumSource.qualifiedName (source : CppEnumSource) : String :=
  joinNames (source.cppNamespace ++ [source.cppName])

/-- The symbol of a declaration, from the global namespace on. -/
def CppFunctionSource.symbol (source : CppFunctionSource) : String :=
  "::" ++ source.qualifiedName

def CppClassSource.symbol (source : CppClassSource) : String :=
  "::" ++ source.qualifiedName

namespace CppClassSource

variable (source : CppClassSource)

/-- What the scanner puts together for a class. -/
structure Scanned : Prop where
  name : isCppName source.cppName
  declarationId : source.provenance.declarationId =
    s!"cpp:{source.provenance.path}:class:{source.cppName}"

/-- The methods that carry a marker with a role. -/
def generatedMethods : List CppMethodSource :=
  source.methods.filter fun method => method.intent.role ≠ .ordinary

/-- The class carries no marker of its own. -/
def isOwner : Bool :=
  !source.intent.declaresObject && !source.intent.declaresValue

variable {source}

@[simp] theorem role_eq_ordinary : source.intent.role = .ordinary :=
  SourceIntent.role_of_class source.target

end CppClassSource

/-! ### Names -/

theorem not_mem_of_isCppName {name : String} {char : Char} (hname : isCppName name)
    (hchar : (char.isAlphanum || char = '_' || 0x80 ≤ char.toNat) = false) :
    char ∉ name.toList := by
  intro hmem
  rw [isCppName, Bool.and_eq_true, List.all_eq_true] at hname
  rw [hname.2 char hmem] at hchar
  cases hchar

theorem joinNames_cons {first : String} {rest : List String} (hrest : rest ≠ []) :
    joinNames (first :: rest) = first ++ "::" ++ joinNames rest :=
  String.intercalate_cons_of_ne_nil hrest

theorem length_le_joinNames (enclosing : List String) (name : String) :
    name.length ≤ (joinNames (enclosing ++ [name])).length := by
  induction enclosing with
  | nil => simp [joinNames]
  | cons first rest ih =>
      rw [List.cons_append, joinNames_cons (by simp), String.length_append, String.length_append]
      omega

/-- A name inside a namespace is longer than the name alone. -/
theorem joinNames_eq_last {enclosing : List String} {name : String} :
    joinNames (enclosing ++ [name]) = name ↔ enclosing = [] := by
  constructor
  · intro hjoin
    cases enclosing with
    | nil => rfl
    | cons first rest =>
        have hlength := length_le_joinNames rest name
        rw [List.cons_append, joinNames_cons (by simp)] at hjoin
        have hlonger := congrArg String.length hjoin
        rw [String.length_append, String.length_append] at hlonger
        have hcolons : "::".length = 2 := rfl
        omega
  · rintro rfl
    simp [joinNames]

end SupernoteModule.Frontend
