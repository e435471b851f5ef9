import Mathlib.Computability.RegularExpressions

/-!
# Strings and patterns

The methods of `str` the generator uses, on the code points of a string, and the patterns of `re` as
regular expressions over code points.
-/

namespace SupernoteModule.Python

variable {value start : String}

/-- `value.startswith(start)`. -/
def startsWith (value start : String) : Bool :=
  start.toList.isPrefixOf value.toList

theorem startsWith_iff : startsWith value start ↔ ∃ rest, value = start ++ rest := by
  rw [startsWith, List.isPrefixOf_iff_prefix]
  constructor
  · rintro ⟨rest, hrest⟩
    refine ⟨String.ofList rest, ?_⟩
    rw [← String.toList_inj, String.toList_append, String.toList_ofList, hrest]
  · rintro ⟨rest, rfl⟩
    rw [String.toList_append]
    exact List.prefix_append _ _

/-- `value.removeprefix(start)`. -/
def removePrefix (value start : String) : String :=
  if startsWith value start then String.ofList (value.toList.drop start.toList.length) else value

theorem append_removePrefix (hstart : startsWith value start) :
    start ++ removePrefix value start = value := by
  obtain ⟨rest, rfl⟩ := startsWith_iff.mp hstart
  have hdrop : (start ++ rest).toList.drop start.toList.length = rest.toList := by simp
  rw [removePrefix, if_pos hstart, hdrop, String.ofList_toList]

/-- `value.split(separator)` for a separator of one character. -/
def split (value : String) (separator : Char) : List String :=
  (value.toList.splitOn separator).map String.ofList

theorem not_mem_of_mem_splitOn {separator : Char} {text piece : List Char}
    (hpiece : piece ∈ text.splitOn separator) : separator ∉ piece := by
  induction text generalizing piece with
  | nil =>
      rw [List.splitOn_nil, List.mem_singleton] at hpiece
      simp [hpiece]
  | cons char text ih =>
      rw [List.splitOn_cons_eq_if_modifyHead] at hpiece
      by_cases hchar : char = separator
      · rw [if_pos (by simpa using hchar)] at hpiece
        rcases List.mem_cons.mp hpiece with rfl | htail
        · simp
        · exact ih htail
      · rw [if_neg (by simpa using hchar)] at hpiece
        obtain ⟨first, rest, heq⟩ := List.exists_cons_of_ne_nil (List.splitOn_ne_nil separator text)
        rw [heq, List.modifyHead_cons] at hpiece
        rw [heq] at ih
        rcases List.mem_cons.mp hpiece with rfl | htail
        · have hfirst : separator ∉ first := ih List.mem_cons_self
          simp [hfirst, Ne.symm hchar]
        · exact ih (List.mem_cons_of_mem first htail)

/-- No piece of a split contains the separator. -/
theorem not_mem_of_mem_split {separator : Char} {piece : String}
    (hpiece : piece ∈ split value separator) : separator ∉ piece.toList := by
  obtain ⟨chars, hchars, rfl⟩ := List.mem_map.mp hpiece
  rw [String.toList_ofList]
  exact not_mem_of_mem_splitOn hchars

/-- The last separator of a text divides it in one way. -/
theorem append_cons_inj {separator : Char} {before after otherBefore otherAfter : List Char}
    (hafter : separator ∉ after) (hotherAfter : separator ∉ otherAfter) :
    before ++ separator :: after = otherBefore ++ separator :: otherAfter ↔
      before = otherBefore ∧ after = otherAfter := by
  constructor
  · intro heq
    rcases List.append_eq_append_iff.mp heq with ⟨between, rfl, hrest⟩ | ⟨between, rfl, hrest⟩
    · cases between with
      | nil => simpa using hrest
      | cons char between =>
          obtain ⟨rfl, rfl⟩ : separator = char ∧ after = between ++ separator :: otherAfter := by
            simpa using hrest
          simp at hafter
    · cases between with
      | nil => simpa [eq_comm] using hrest
      | cons char between =>
          obtain ⟨rfl, rfl⟩ : separator = char ∧ otherAfter = between ++ separator :: after := by
            simpa using hrest
          simp at hotherAfter
  · rintro ⟨rfl, rfl⟩
    rfl

/-- What comes before the first separator, or the whole string. -/
def beforeFirst (value : String) (separator : Char) : String :=
  String.ofList (value.toList.takeWhile (· ≠ separator))

/-- What comes after the first separator, or nothing. -/
def afterFirst (value : String) (separator : Char) : String :=
  String.ofList ((value.toList.dropWhile (· ≠ separator)).drop 1)

/-- `value.isdigit()` on ASCII text. -/
def isDigits (value : String) : Bool :=
  value ≠ "" && value.toList.all Char.isDigit

/-! ### Whitespace -/

/-- `char.isspace()`, which is also what `\s` matches. -/
def isSpace (char : Char) : Bool :=
  let code := char.toNat
  (0x09 ≤ code && code ≤ 0x0d) || (0x1c ≤ code && code ≤ 0x20) ||
    (0x2000 ≤ code && code ≤ 0x200a) ||
    code ∈ [0x85, 0xa0, 0x1680, 0x2028, 0x2029, 0x202f, 0x205f, 0x3000]

/-- `text.strip()`. -/
def strip (text : List Char) : List Char :=
  ((text.dropWhile isSpace).reverse.dropWhile isSpace).reverse

/-- `re.sub(r"\s*token\s*", token, text)`, from left to right. The fuel is the length of the text.
-/
def subAround (token : List Char) : Nat → List Char → List Char
  | 0, text => text
  | _, [] => []
  | fuel + 1, char :: text =>
      let found := (char :: text).dropWhile isSpace
      if token.isPrefixOf found then
        token ++ subAround token fuel ((found.drop token.length).dropWhile isSpace)
      else
        char :: subAround token fuel text

/-- `re.sub(r"\s+", " ", text)`. -/
def subSpaces : List Char → List Char
  | [] => []
  | char :: text =>
      if isSpace char then
        match text with
        | next :: _ => if isSpace next then subSpaces text else ' ' :: subSpaces text
        | [] => [' ']
      else char :: subSpaces text

/-- `value.endswith(end)`. -/
def endsWith (value ending : String) : Bool :=
  ending.toList.isSuffixOf value.toList

/-- `part in text`. -/
def contains (text part : String) : Bool :=
  part.toList <:+: text.toList

/-- `text[:-count]` for a positive count. -/
def dropLast (text : String) (count : Nat) : String :=
  String.ofList (text.toList.take (text.toList.length - count))

/-- `text[count:]`. -/
def dropFirst (text : String) (count : Nat) : String :=
  String.ofList (text.toList.drop count)

/-! ### `repr` -/

def singleQuote : Char := Char.ofNat 0x27
def doubleQuote : Char := Char.ofNat 0x22
def backslash : Char := Char.ofNat 0x5c

/-- The two hexadecimal digits of an escape. -/
def hexEscape (code : Nat) : List Char :=
  [backslash, 'x', Nat.digitChar (code / 16), Nat.digitChar (code % 16)]

/-- One character of `repr`. Which characters are printable is that of Python up to Latin-1; above
it this is an approximation, since Python escapes the unassigned, separating and formatting ones
there and here every character is taken to be printable. -/
def reprChar (quote char : Char) : List Char :=
  if char = quote ∨ char = backslash then [backslash, char]
  else if char.toNat = 0x09 then [backslash, 't']
  else if char.toNat = 0x0a then [backslash, 'n']
  else if char.toNat = 0x0d then [backslash, 'r']
  else if char.toNat < 0x20 ∨ (0x7f ≤ char.toNat ∧ char.toNat ≤ 0xa0) ∨ char.toNat = 0xad then
    hexEscape char.toNat
  else [char]

/-- `repr(value)`: double quotes only around text that has single quotes and no double ones. What is
printable above Latin-1 is approximated by `reprChar`. -/
def repr (value : String) : String :=
  let quote :=
    if singleQuote ∈ value.toList ∧ doubleQuote ∉ value.toList then doubleQuote else singleQuote
  String.ofList (quote :: value.toList.flatMap (reprChar quote) ++ [quote])

/-! ### Patterns -/

/-- A character class. -/
def oneOf (chars : String) : RegularExpression Char :=
  chars.toList.foldr (fun char rest => .char char + rest) 0

/-- `P?`. -/
def optional (pattern : RegularExpression Char) : RegularExpression Char :=
  1 + pattern

/-- `P+`. -/
def oneOrMore (pattern : RegularExpression Char) : RegularExpression Char :=
  pattern * pattern.star

/-- `re.fullmatch(pattern, value) is not None`. -/
def fullmatch (pattern : RegularExpression Char) (value : String) : Bool :=
  pattern.rmatch value.toList

variable {text : List Char} {chars : String} {first second pattern : RegularExpression Char}

theorem rmatch_oneOf : (oneOf chars).rmatch text ↔ ∃ char ∈ chars.toList, text = [char] := by
  rw [oneOf]
  induction chars.toList with
  | nil => simp
  | cons char rest ih =>
      rw [List.foldr_cons, RegularExpression.add_rmatch_iff, RegularExpression.char_rmatch_iff, ih]
      simp

/-- A repeated character class matches exactly the texts over it. -/
theorem rmatch_star_oneOf :
    (oneOf chars).star.rmatch text ↔ ∀ char ∈ text, char ∈ chars.toList := by
  rw [RegularExpression.star_rmatch_iff]
  constructor
  · rintro ⟨pieces, rfl, hpieces⟩ char hchar
    obtain ⟨piece, hpiece, hmem⟩ := List.mem_flatten.mp hchar
    obtain ⟨only, honly, rfl⟩ := rmatch_oneOf.mp (hpieces piece hpiece).2
    rwa [List.mem_singleton.mp hmem]
  · intro hchars
    refine ⟨text.map fun char => [char], by rw [← List.flatMap_def, List.flatMap_singleton'], ?_⟩
    intro piece hpiece
    obtain ⟨char, hchar, rfl⟩ := List.mem_map.mp hpiece
    exact ⟨List.cons_ne_nil _ _, rmatch_oneOf.mpr ⟨char, hchars char hchar, rfl⟩⟩

end SupernoteModule.Python
