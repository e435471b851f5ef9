import SupernoteModule.Frontend.JvmSource

/-!
# Java types in the text of a record

`parseJavaSourceType` of the symbol processor reads the type of a record component from its
spelling: it looks for nullness annotations anywhere in the text, takes them out, and reads what is
left.
-/

namespace SupernoteModule.Frontend

/-! ### Characters -/

/-- `[A-Za-z0-9_]`. -/
def isWordChar (char : Char) : Bool :=
  char.isAlphanum || char = '_'

/-- `[A-Za-z0-9_.]`. -/
def isNameChar (char : Char) : Bool :=
  isWordChar char || char = '.'

/-- What `\s` matches. -/
def isPatternSpace (char : Char) : Bool :=
  char ∈ [' ', '\t', '\n', '\x0b', '\x0c', '\r']

/-- `Char.isWhitespace`. -/
def isJvmSpace (char : Char) : Bool :=
  let code := char.toNat
  (0x09 ≤ code && code ≤ 0x0d) || (0x1c ≤ code && code ≤ 0x20) ||
    (0x2000 ≤ code && code ≤ 0x200a) ||
    code ∈ [0xa0, 0x1680, 0x2028, 0x2029, 0x202f, 0x205f, 0x3000]

/-- What `.` does not match. -/
def isLineTerminator (char : Char) : Bool :=
  char.toNat ∈ [0x0a, 0x0d, 0x85, 0x2028, 0x2029]

/-- `trim`. -/
def trimJvm (text : List Char) : List Char :=
  ((text.dropWhile isJvmSpace).reverse.dropWhile isJvmSpace).reverse

/-! ### Annotations -/

def jspecifyNullable : String :=
  "org.jspecify.annotations.Nullable"

/-- The names in `@([A-Za-z_][A-Za-z0-9_.]*)`. No name has an `@` in it, so the next match may be
looked for at the next character. -/
def annotationUses : List Char → List String
  | [] => []
  | char :: rest =>
      if char = '@' && rest.head?.any (fun first => first.isAlpha || first = '_') then
        String.ofList (rest.takeWhile isNameChar) :: annotationUses rest
      else annotationUses rest

/-- The uses whose simple name is `Nullable`, as the imports resolve them. -/
def nullableUses (imports : String → Option String) (spelling : List Char) : List String :=
  ((annotationUses spelling).map fun name =>
    if '.' ∈ name.toList then name else (imports name).getD name).filter fun name =>
      (name.toList.reverse.takeWhile (· ≠ '.')).reverse = "Nullable".toList

/-- How much `@(?:org\.jspecify\.annotations\.)?Nullable\b` matches. -/
def nullableLength? (text : List Char) : Option Nat :=
  ["@org.jspecify.annotations.Nullable".toList, "@Nullable".toList].findSome? fun pattern =>
    if pattern.isPrefixOf text && ! ((text.drop pattern.length).head?.any isWordChar) then
      some pattern.length
    else none

/-- `nullablePattern.containsMatchIn`. -/
def hasNullable : List Char → Bool
  | [] => false
  | char :: rest => (nullableLength? (char :: rest)).isSome || hasNullable rest

/-- `spelling.replace(nullablePattern, "")`, after characters that a match has taken. -/
def removeNullable : Nat → List Char → List Char
  | _, [] => []
  | taken + 1, _ :: rest => removeNullable taken rest
  | 0, char :: rest =>
      match nullableLength? (char :: rest) with
      | some (taken + 1) => removeNullable taken rest
      | _ => char :: removeNullable 0 rest

/-! ### Types -/

/-- What is behind an optional `java.util.`. -/
def withoutUtil (value : List Char) : List Char :=
  if "java.util.".toList.isPrefixOf value then value.drop 10 else value

/-- The group of `(?:java\.util\.)?List<(.+)>`. -/
def listArgument? (value : List Char) : Option (List Char) :=
  if "List<".toList.isPrefixOf (withoutUtil value) then
    let inner := (withoutUtil value).drop 5
    if inner.getLast? = some '>' && ! inner.dropLast.isEmpty &&
        ! inner.dropLast.any isLineTerminator then
      some inner.dropLast
    else none
  else none

/-- `direct`. -/
def directJavaTypes : List (String × String) := [
  ("boolean", "boolean"), ("int", "int"), ("long", "long"),
  ("float", "float"), ("double", "double"),
  ("Boolean", "java.lang.Boolean"), ("Integer", "java.lang.Integer"),
  ("Long", "java.lang.Long"), ("Float", "java.lang.Float"),
  ("Double", "java.lang.Double"), ("String", "java.lang.String"),
  ("java.lang.Boolean", "java.lang.Boolean"),
  ("java.lang.Integer", "java.lang.Integer"),
  ("java.lang.Long", "java.lang.Long"),
  ("java.lang.Float", "java.lang.Float"),
  ("java.lang.Double", "java.lang.Double"),
  ("java.lang.String", "java.lang.String"), ("byte[]", "byte[]")
]

/-- `^[A-Za-z_][A-Za-z0-9_.]*$`. -/
def isClassName (value : List Char) : Bool :=
  match value with
  | first :: rest => (first.isAlpha || first = '_') && rest.all isNameChar
  | [] => false

theorem length_listArgument {value argument : List Char}
    (hargument : listArgument? value = some argument) : argument.length < value.length := by
  have hbody : (withoutUtil value).length ≤ value.length := by
    rw [withoutUtil]
    split
    · exact (List.drop_sublist 10 value).length_le
    · exact Nat.le_refl _
  rw [listArgument?] at hargument
  split at hargument
  · rename_i hprefix
    have hlength := (List.isPrefixOf_iff_prefix.mp hprefix).length_le
    have hfive : "List<".toList.length = 5 := by decide
    dsimp only at hargument
    split at hargument
    · obtain rfl := Option.some.inj hargument
      rw [List.length_dropLast, List.length_drop]
      omega
    · cases hargument
  · cases hargument

theorem length_removeNullable (text : List Char) :
    ∀ taken : Nat, (removeNullable taken text).length ≤ text.length := by
  induction text with
  | nil =>
      intro taken
      cases taken <;> exact Nat.le_refl 0
  | cons char text ih =>
      intro taken
      cases taken with
      | succ taken => exact (ih taken).trans (Nat.le_succ _)
      | zero =>
          rw [removeNullable]
          split
          · exact (ih _).trans (Nat.le_succ _)
          · exact Nat.succ_le_succ (ih 0)

/-- The spelling without nullness annotations and without space. -/
def bareSpelling (spelling : List Char) : List Char :=
  trimJvm ((removeNullable 0 spelling).filter fun char => ! isPatternSpace char)

theorem length_bareSpelling (spelling : List Char) :
    (bareSpelling spelling).length ≤ spelling.length := by
  have hleft : ∀ text : List Char, (text.dropWhile isJvmSpace).length ≤ text.length :=
    fun text => (List.dropWhile_sublist isJvmSpace).length_le
  rw [bareSpelling, trimJvm, List.length_reverse]
  calc
    _ ≤ _ := hleft _
    _ = _ := List.length_reverse
    _ ≤ _ := hleft _
    _ ≤ (removeNullable 0 spelling).length := List.length_filter_le ..
    _ ≤ spelling.length := length_removeNullable spelling 0

def parseJavaSourceType (imports : String → Option String) (packageName : String)
    (spelling : List Char) : Except String JvmTypeSource := do
  match (nullableUses imports spelling).find? (· ≠ jspecifyNullable) with
  | some unsupportedNullable =>
      .error (s!"Java nullability requires {jspecifyNullable}; " ++ s!"found {unsupportedNullable}")
  | none =>
      let nullable := hasNullable spelling
      let value := bareSpelling spelling
      match _hlist : listArgument? value with
      | some argument => do
          let element ← parseJavaSourceType imports packageName argument
          return .mk "java.util.List" nullable [element]
      | none =>
          match directJavaTypes.lookup (String.ofList value) with
          | some direct => return .mk direct nullable []
          | none =>
              if isClassName value then
                let qualified :=
                  if '.' ∈ value then String.ofList value
                  else (imports (String.ofList value)).getD
                    (packageName ++ "." ++ String.ofList value)
                return .mk qualified nullable []
              else
                .error s!"unsupported Java record component type {String.ofList spelling}"
termination_by spelling.length
decreasing_by
  have hargument : argument.length < (bareSpelling spelling).length := length_listArgument _hlist
  have hvalue := length_bareSpelling spelling
  omega

end SupernoteModule.Frontend
