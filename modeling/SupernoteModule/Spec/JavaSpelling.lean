import SupernoteModule.Frontend.JavaSourceType

/-!
# How Java spells a type

A scalar or a class stands by its name, and which class that is depends on what is in scope; a list
stands by its element. An annotation next to the name of a level makes that level nullable, and no
other.
-/

namespace SupernoteModule.Frontend

/-! ### Names -/

/-- A character of Java names and of the dots between them. -/
def IsJavaNameChar (char : Char) : Prop :=
  isNameChar char = true ∨ char = '$' ∨
    127 < char.toNat ∧ isJvmSpace char = false ∧ isLineTerminator char = false

structure IsJavaName (name : List Char) : Prop where
  characters : ∀ char ∈ name, IsJavaNameChar char
  begins : ∃ first rest, name = first :: rest ∧ first.isDigit = false ∧ first ≠ '.'

/-! ### Scopes -/

/-- What is behind the last dot. -/
def simpleName (name : String) : String :=
  String.ofList (name.toList.reverse.takeWhile (· ≠ '.')).reverse

/-- The types that are no classes. -/
def primitiveTypes : List String :=
  ["boolean", "int", "long", "float", "double", "byte[]"]

/-- The classes of `java.lang` that are scalars. -/
def boxedTypes : List String :=
  ["Boolean", "Integer", "Long", "Float", "Double", "String"]

/-- Where a record stands: the classes that have a simple name there, each with its full name. -/
structure JavaScope where
  packageName : String
  /-- What the imports of a single class name. -/
  imports : String → Option String
  /-- The member classes of the classes around the record. -/
  members : String → Option String
  /-- The classes of the package. -/
  declares : String → Bool
  /-- What `java.lang` and the imports on demand bring in. -/
  onDemand : String → Option String
  imports_named : ∀ name full, imports name = some full → simpleName full = name
  boxed : ∀ name ∈ boxedTypes, onDemand name = some ("java.lang." ++ name)

namespace JavaScope

variable (scope : JavaScope)

/-- The full name of a class of the package. -/
def ofPackage (name : String) : String :=
  if scope.packageName = "" then name else scope.packageName ++ "." ++ name

/-- The class of a simple name. A member class hides an import, an import hides a class of the
package, and that one hides what is imported on demand. -/
def resolve (name : String) : Option String :=
  (scope.members name).or <| (scope.imports name).or <|
    (if scope.declares name then some (scope.ofPackage name) else none).or (scope.onDemand name)

end JavaScope

/-- What a name denotes: a primitive type, the class of a simple name, a member of such a class, or
the class of a full name. -/
inductive Denotes (scope : JavaScope) : List Char → String → Prop where
  | primitive {name : String} (hprimitive : name ∈ primitiveTypes) :
      Denotes scope name.toList name
  | simple {name : List Char} {jvmType : String} (hname : IsJavaName name) (hdot : '.' ∉ name)
      (hclass : String.ofList name ∉ primitiveTypes)
      (hresolve : scope.resolve (String.ofList name) = some jvmType) : Denotes scope name jvmType
  | member {outer inner : List Char} {jvmType : String} (hname : IsJavaName (outer ++ '.' :: inner))
      (hdot : '.' ∉ outer) (hresolve : scope.resolve (String.ofList outer) = some jvmType) :
      Denotes scope (outer ++ '.' :: inner) (jvmType ++ String.ofList ('.' :: inner))
  | full {first rest : List Char} (hname : IsJavaName (first ++ '.' :: rest))
      (hdot : '.' ∉ first) (hresolve : scope.resolve (String.ofList first) = none) :
      Denotes scope (first ++ '.' :: rest) (String.ofList (first ++ '.' :: rest))

/-! ### Types -/

/-- The annotation of a level that is nullable or not, and whether it stands by its simple name. -/
inductive Annotates (scope : JavaScope) : Bool → Bool → List Char → Prop where
  | absent : Annotates scope false false []
  | simple (space : Bool) (hresolve : scope.resolve "Nullable" = some jspecifyNullable) :
      Annotates scope true true ((if space then [' '] else []) ++ "@Nullable ".toList)
  | full (space : Bool) :
      Annotates scope true false
        ((if space then [' '] else []) ++ "@org.jspecify.annotations.Nullable ".toList)

/-- The place in a name at which a type annotation stands: in front of the simple name of a class,
or of the brackets of an array. -/
def Splits (qualifier simple : List Char) : Prop :=
  ('.' ∉ simple ∧ '[' ∉ simple ∧ (qualifier = [] ∨ qualifier.getLast? = some '.')) ∨
    simple = ['[', ']']

/-- `java.util.List`, by its simple name or by its full one. -/
inductive NamesList (scope : JavaScope) : List Char → Prop where
  | simple (hresolve : scope.resolve "List" = some "java.util.List") : NamesList scope []
  | full (hresolve : scope.resolve "java" = none) : NamesList scope "java.util.".toList

/-- A spelling of a type with a name at its innermost level, and whether some annotation stands
there by its simple name. -/
inductive Spells (scope : JavaScope) (leaf : List Char) :
    Bool → JvmTypeSource → List Char → Prop where
  | named {qualifier simple marking : List Char} {jvmType : String} {nullable simply : Bool}
      (hleaf : leaf = qualifier ++ simple) (hname : Denotes scope leaf jvmType)
      (hsplits : Splits qualifier simple) (hmarking : Annotates scope nullable simply marking) :
      Spells scope leaf simply (.mk jvmType nullable []) (qualifier ++ (marking ++ simple))
  | list {qualifier marking text : List Char} {element : JvmTypeSource}
      {nullable simply inside : Bool} (hqualifier : NamesList scope qualifier)
      (hmarking : Annotates scope nullable simply marking)
      (helement : Spells scope leaf inside element text) :
      Spells scope leaf (simply || inside) (.mk "java.util.List" nullable [element])
        (qualifier ++ (marking ++ ("List<".toList ++ (text ++ ['>']))))

/-- The name means what it says without a look at the other classes in scope: a dotted name is a
full one, a scalar is that of `java.lang`, and any other simple name is the class imported under it,
or one of a named package if there is no such import. -/
def JavaScope.Unshadowed (scope : JavaScope) (name : List Char) : Prop :=
  if '.' ∈ name then
    ∀ full, scope.resolve (String.ofList (name.takeWhile (· ≠ '.'))) = some full →
      full = String.ofList (name.takeWhile (· ≠ '.'))
  else if String.ofList name ∈ primitiveTypes then True
  else if String.ofList name ∈ boxedTypes then
    scope.resolve (String.ofList name) = some ("java.lang." ++ String.ofList name)
  else
    scope.resolve (String.ofList name) =
      some
        ((scope.imports (String.ofList name)).getD (scope.packageName ++ "." ++ String.ofList name))

/-! ### Levels -/

namespace JvmTypeSource

mutual

/-- Some level is nullable. -/
def someNullable : JvmTypeSource → Bool
  | .mk _ nullable arguments => nullable || someNullableAmong arguments

def someNullableAmong : List JvmTypeSource → Bool
  | [] => false
  | argument :: arguments => argument.someNullable || someNullableAmong arguments

end

mutual

/-- The type with no level nullable. -/
def erased : JvmTypeSource → JvmTypeSource
  | .mk jvmType _ arguments => .mk jvmType false (erasedAll arguments)

def erasedAll : List JvmTypeSource → List JvmTypeSource
  | [] => []
  | argument :: arguments => argument.erased :: erasedAll arguments

end

/-- At most the outermost level is nullable. -/
def OuterOnly : JvmTypeSource → Prop
  | .mk _ _ arguments => someNullableAmong arguments = false

def withNullable (nullable : Bool) : JvmTypeSource → JvmTypeSource
  | .mk jvmType _ arguments => .mk jvmType nullable arguments

end JvmTypeSource

/-- Neither a dollar sign nor a character beyond ASCII. -/
def IsPlain (char : Char) : Prop :=
  char ≠ '$' ∧ char.toNat ≤ 127

end SupernoteModule.Frontend
