import SupernoteModule.Python.JsonReader
import Mathlib.Data.List.Forall2

/-!
# Written JSON is read back

Writers of JSON differ in how they escape a character and where they put white space. For all of
them, what is written for a value is read as that value, as long as every character is escaped in a
way that the reader undoes.
-/

namespace SupernoteModule.Python.Json

/-- How values are written: the text of a character inside a string, what stands after an opening
bracket, after a comma and before a closing bracket at some level, and between a key and its value.
-/
structure Layout where
  escape : Char → List Char
  float : Rat → List Char
  opened : Nat → List Char
  between : Nat → List Char
  closed : Nat → List Char
  valued : List Char
  openedBlank : ∀ level, ∀ char ∈ opened level, isSpace char
  betweenBlank : ∀ level, ∀ char ∈ between level, isSpace char
  closedBlank : ∀ level, ∀ char ∈ closed level, isSpace char
  valuedBlank : ∀ char ∈ valued, isSpace char

namespace Layout

variable (layout : Layout)

def quoted (text : String) : List Char :=
  doubleQuote :: text.toList.flatMap layout.escape ++ [doubleQuote]

/-- An item of a dictionary, with the text of its value. -/
def entry (key : String) (text : List Char) : List Char :=
  layout.quoted key ++ ':' :: (layout.valued ++ text)

/-- The items after the first one. -/
def separated (level : Nat) (items : List (List Char)) : List Char :=
  items.flatMap fun item => ',' :: layout.between level ++ item

def enclosed (opening closing : Char) (level : Nat) (items : List (List Char)) : List Char :=
  match items with
  | [] => [opening, closing]
  | first :: rest =>
      opening :: layout.opened level ++ first ++ layout.separated level rest ++
        layout.closed level ++ [closing]

mutual

def write (level : Nat) : Json → List Char
  | .null => "null".toList
  | .bool value => (if value then "true" else "false").toList
  | .integer value => (toString value).toList
  | .real value => layout.float value
  | .string text => layout.quoted text
  | .array items => layout.enclosed '[' ']' level (writeItems (level + 1) items)
  | .object fields =>
      layout.enclosed (Char.ofNat 0x7b) (Char.ofNat 0x7d) level (writeFields (level + 1) fields)

def writeItems (level : Nat) : List Json → List (List Char)
  | [] => []
  | item :: items => write level item :: writeItems level items

def writeFields (level : Nat) : Fields → List (List Char)
  | [] => []
  | (key, value) :: fields =>
      layout.entry key (write level value) :: writeFields level fields

end

end Layout

/-! ### White space -/

/-- The text does not start with white space. -/
def Solid (text : List Char) : Prop :=
  ∃ first rest, text = first :: rest ∧ isSpace first = false

theorem skip_blank {blank : List Char} (hblank : ∀ char ∈ blank, isSpace char) (text : List Char) :
    skip (blank ++ text) = skip text := by
  rw [skip, List.dropWhile_append_of_pos hblank, skip]

theorem skip_solid {text : List Char} (hsolid : Solid text) : skip text = text := by
  obtain ⟨first, rest, rfl, hfirst⟩ := hsolid
  simp [skip, hfirst]

theorem skip_blank_solid {blank text : List Char} (hblank : ∀ char ∈ blank, isSpace char)
    (hsolid : Solid text) : skip (blank ++ text) = text := by
  rw [skip_blank hblank, skip_solid hsolid]

theorem Solid.cons {first : Char} (hfirst : isSpace first = false) (rest : List Char) :
    Solid (first :: rest) :=
  ⟨first, rest, rfl, hfirst⟩

@[simp] theorem afterChar_cons_self (expected : Char) (rest : List Char) :
    afterChar expected (expected :: rest) = some rest := by
  simp [afterChar]

theorem afterChar_cons_ne {expected first : Char} (hfirst : first ≠ expected) (rest : List Char) :
    afterChar expected (first :: rest) = none := by
  simp [afterChar, hfirst]

theorem afterWord_append (word rest : List Char) : afterWord word (word ++ rest) = some rest := by
  induction word with
  | nil => rfl
  | cons first word ih => simpa [afterWord] using ih

/-! ### Strings -/

/-- Inside a string the text is read as the character. -/
def Spells (char : Char) (text : List Char) : Prop :=
  text.head? ≠ some doubleQuote ∧ ∀ rest, scanChar (text ++ rest) = some (char, rest)

/-- Inside a string the text is refused. -/
def Garbles (text : List Char) : Prop :=
  ∃ first rest, text = first :: rest ∧ first ≠ doubleQuote ∧
    ∀ others, scanChar (first :: rest ++ others) = none

theorem Spells.ne_nil {char : Char} {text : List Char} (hspells : Spells char text) :
    text ≠ [] := by
  intro hnil
  subst hnil
  have hscan := hspells.2 []
  cases hscan

theorem Spells.afterQuote {char : Char} {text : List Char} (hspells : Spells char text)
    (rest : List Char) : afterChar doubleQuote (text ++ rest) = none := by
  cases text with
  | nil => exact absurd rfl hspells.ne_nil
  | cons first text =>
      apply afterChar_cons_ne
      intro hfirst
      exact hspells.1 (congrArg some hfirst)

/-- The characters that a writer spells in a way the reader undoes. It writes all others in a way
that the reader refuses. -/
structure Legibility (escape : Char → List Char) where
  legible : Char → Bool
  spells : ∀ char, legible char → Spells char (escape char)
  garbles : ∀ char, ¬ legible char → Garbles (escape char)

theorem escape_ne_nil {escape : Char → List Char} (legibility : Legibility escape) (char : Char) :
    escape char ≠ [] := by
  by_cases hlegible : legibility.legible char
  · exact (legibility.spells char hlegible).ne_nil
  · obtain ⟨first, rest, htext, _⟩ := legibility.garbles char hlegible
    rw [htext]
    exact List.cons_ne_nil first rest

theorem scanString_escaped {escape : Char → List Char} (legibility : Legibility escape)
    (chars rest : List Char) {fuel : Nat} (hfuel : (chars.flatMap escape).length < fuel) :
    scanString fuel (chars.flatMap escape ++ doubleQuote :: rest) =
      if chars.all legibility.legible then some (chars, rest) else none := by
  induction chars generalizing fuel with
  | nil =>
      cases fuel with
      | zero => omega
      | succ fuel => simp [scanString]
  | cons char chars ih =>
      cases fuel with
      | zero => omega
      | succ fuel =>
          have hlength : 0 < (escape char).length :=
            List.length_pos_iff.mpr (escape_ne_nil legibility char)
          rw [List.flatMap_cons, List.length_append] at hfuel
          rw [List.flatMap_cons, List.append_assoc, scanString]
          by_cases hlegible : legibility.legible char
          · have hspells := legibility.spells char hlegible
            have hrest := ih (by omega : (chars.flatMap escape).length < fuel)
            rw [hspells.afterQuote, hspells.2, List.all_cons, hlegible, Bool.true_and]
            by_cases hchars : chars.all legibility.legible
            · simp [hrest, hchars]
            · simp [hrest, hchars]
          · obtain ⟨first, others, htext, hquote, hscan⟩ := legibility.garbles char hlegible
            rw [htext, List.cons_append, afterChar_cons_ne hquote, ← List.cons_append, hscan]
            simp [hlegible]

/-! ### Numbers -/

/-- What may follow a number. -/
def Ended (rest : List Char) : Prop :=
  ∀ first ∈ rest.head?, isDigit first = false ∧ first ≠ '.' ∧ first ≠ 'e' ∧ first ≠ 'E'

theorem Ended.cons {first : Char} (hdigit : isDigit first = false) (hpoint : first ≠ '.')
    (hlower : first ≠ 'e') (hupper : first ≠ 'E') (rest : List Char) : Ended (first :: rest) := by
  intro other hother
  obtain rfl : first = other := by simpa using hother
  exact ⟨hdigit, hpoint, hlower, hupper⟩

theorem Ended.fraction_eq {rest : List Char} (hended : Ended rest) : fraction rest = [] := by
  cases rest with
  | nil => rfl
  | cons first rest => rw [fraction, afterChar_cons_ne (hended first rfl).2.1]

theorem Ended.exponent_eq {rest : List Char} (hended : Ended rest) : exponent rest = [] := by
  cases rest with
  | nil => rfl
  | cons first rest =>
      obtain ⟨_, _, hlower, hupper⟩ := hended first rfl
      simp [exponent, hlower, hupper]

theorem Ended.takeWhile_digits {rest digits : List Char} (hended : Ended rest)
    (hdigits : ∀ char ∈ digits, isDigit char) : (digits ++ rest).takeWhile isDigit = digits := by
  rw [List.takeWhile_append_of_pos hdigits]
  cases rest with
  | nil => simp
  | cons first rest => simp [(hended first rfl).1]

theorem isDigit_of_mem_decimal {number : Nat} {char : Char}
    (hchar : char ∈ Nat.toDigits 10 number) : isDigit char := by
  have hdigit := Nat.isDigit_of_mem_toDigits (by decide) (by decide) hchar
  simpa [isDigit, Char.isDigit, Char.le_def] using hdigit

theorem digitChar_ne_zero {digit : Nat} (hpositive : digit ≠ 0) (hsmall : digit < 10) :
    Nat.digitChar digit ≠ '0' := by
  match digit with
  | 0 => exact absurd rfl hpositive
  | 1 | 2 | 3 | 4 | 5 | 6 | 7 | 8 | 9 => decide
  | digit + 10 => omega

/-- Only zero is written with a zero in front. -/
theorem head?_decimal {number : Nat} (hnumber : number ≠ 0) :
    (Nat.toDigits 10 number).head? ≠ some '0' := by
  induction number using Nat.strongRecOn with
  | _ number ih =>
      by_cases hsmall : number < 10
      · rw [Nat.toDigits_of_lt_base hsmall]
        intro hhead
        exact digitChar_ne_zero hnumber hsmall (Option.some.inj hhead)
      · rw [Nat.toDigits_of_base_le (by decide) (by omega),
          List.head?_append_of_ne_nil _ Nat.toDigits_ne_nil]
        exact ih (number / 10) (by omega) (by omega)

theorem integral_decimal {number : Nat} {rest : List Char} (hended : Ended rest) :
    integral (Nat.toDigits 10 number ++ rest) = Nat.toDigits 10 number := by
  by_cases hnumber : number = 0
  · subst hnumber
    rfl
  · have hhead : (Nat.toDigits 10 number ++ rest).head? ≠ some '0' := by
      rw [List.head?_append_of_ne_nil _ Nat.toDigits_ne_nil]
      exact head?_decimal hnumber
    rw [integral, if_neg hhead, hended.takeWhile_digits fun char => isDigit_of_mem_decimal]

theorem toList_natCast (number : Nat) :
    (toString (number : Int)).toList = Nat.toDigits 10 number := by
  simp [toString, Int.repr, Nat.repr]

theorem toList_negSucc (number : Nat) :
    (toString (Int.negSucc number)).toList = '-' :: Nat.toDigits 10 (number + 1) := by
  simp [toString, Int.repr, Nat.repr]

theorem head?_decimal_ne_minus (number : Nat) (rest : List Char) :
    (Nat.toDigits 10 number ++ rest).head? ≠ some '-' := by
  rw [List.head?_append_of_ne_nil _ Nat.toDigits_ne_nil]
  intro hhead
  have hdigit := isDigit_of_mem_decimal (List.mem_of_head? hhead)
  exact absurd hdigit (by decide)

theorem scanNumber_digits (parseFloat : List Char → Json) (negative : Bool) (number : Nat)
    {rest : List Char} (hended : Ended rest) :
    scanNumber parseFloat
        ((if negative then ['-'] else []) ++ (Nat.toDigits 10 number ++ rest)) =
      some (.integer (if negative then -number else number), rest) := by
  have hhead := head?_decimal_ne_minus number rest
  have hdrop : (Nat.toDigits 10 number ++ rest).drop (Nat.toDigits 10 number).length = rest :=
    List.drop_left
  cases negative with
  | false =>
      simp only [Bool.false_eq_true, if_false, List.nil_append, scanNumber, hhead,
        integral_decimal hended, hdrop, hended.fraction_eq, List.length_nil, List.drop_zero,
        hended.exponent_eq, and_self, if_true, Nat.toDigits_ne_nil, Nat.ofDigitChars_ten_toDigits]
  | true =>
      simp only [if_true, scanNumber, List.cons_append, List.nil_append, List.head?_cons,
        List.drop_succ_cons, List.drop_zero, integral_decimal hended, hdrop, hended.fraction_eq,
        List.length_nil, hended.exponent_eq, and_self, Nat.toDigits_ne_nil, if_false,
        Nat.ofDigitChars_ten_toDigits]

/-- **A written integer is read back.** -/
theorem scanNumber_integer (parseFloat : List Char → Json) (number : Int) {rest : List Char}
    (hended : Ended rest) :
    scanNumber parseFloat ((toString number).toList ++ rest) = some (.integer number, rest) := by
  cases number with
  | ofNat number =>
      rw [Int.ofNat_eq_natCast, toList_natCast]
      exact scanNumber_digits parseFloat false number hended
  | negSucc number =>
      rw [toList_negSucc, Int.negSucc_eq]
      exact scanNumber_digits parseFloat true (number + 1) hended

/-! ### Values -/

mutual

/-- No key is used twice, and no number is a float. -/
def Sound : Json → Prop
  | .real _ => False
  | .array items => SoundItems items
  | .object fields => (keys fields).Nodup ∧ SoundFields fields
  | .null | .bool _ | .integer _ | .string _ => True

def SoundItems : List Json → Prop
  | [] => True
  | item :: items => Sound item ∧ SoundItems items

def SoundFields : Fields → Prop
  | [] => True
  | (_, value) :: fields => Sound value ∧ SoundFields fields

end

mutual

/-- Every character of every string, keys included, is legible. -/
def allLegible (legible : Char → Bool) : Json → Bool
  | .string text => text.toList.all legible
  | .array items => allLegibleItems legible items
  | .object fields => allLegibleFields legible fields
  | .null | .bool _ | .integer _ | .real _ => true

def allLegibleItems (legible : Char → Bool) : List Json → Bool
  | [] => true
  | item :: items => allLegible legible item && allLegibleItems legible items

def allLegibleFields (legible : Char → Bool) : Fields → Bool
  | [] => true
  | (key, value) :: fields =>
      key.toList.all legible && allLegible legible value && allLegibleFields legible fields

end

/-- Putting new keys into a dictionary appends them. -/
theorem foldl_dictInsert {dictionary fields : Fields}
    (hnodup : (keys (dictionary ++ fields)).Nodup) :
    fields.foldl (fun dictionary (key, value) => dictInsert dictionary key value) dictionary =
      dictionary ++ fields := by
  induction fields generalizing dictionary with
  | nil => simp
  | cons field fields ih =>
      obtain ⟨key, value⟩ := field
      have hnew : key ∉ keys dictionary := by
        intro hmem
        rw [keys, List.map_append, List.nodup_append] at hnodup
        exact hnodup.2.2 key hmem key (by simp) rfl
      have hinsert : dictInsert dictionary key value = dictionary ++ [(key, value)] :=
        dictInsert_of_not_mem hnew
      have hfields := @ih (dictionary ++ [(key, value)]) (by simpa using hnodup)
      rw [List.append_assoc, List.singleton_append] at hfields
      rw [List.foldl_cons]
      simpa only [hinsert] using hfields

section Write

variable (parseFloat : List Char → Json) (layout : Layout)

theorem enclosed_cons (opening closing : Char) (level : Nat) (first : List Char)
    (others : List (List Char)) (rest : List Char) :
    layout.enclosed opening closing level (first :: others) ++ rest =
      opening :: (layout.opened level ++ (first ++ (layout.separated level others ++
        (layout.closed level ++ closing :: rest)))) := by
  simp [Layout.enclosed]

theorem isDigit_ne {first other : Char} (hdigit : isDigit first) (hother : isDigit other = false) :
    first ≠ other := by
  intro heq
  rw [heq, hother] at hdigit
  cases hdigit

theorem integer_starts (number : Int) : ∃ first rest, (toString number).toList = first :: rest ∧
    (first = '-' ∧ (∃ digit digits, rest = digit :: digits ∧ isDigit digit) ∨ isDigit first) := by
  have hdecimal : ∀ number, ∃ digit digits, Nat.toDigits 10 number = digit :: digits ∧
      isDigit digit := by
    intro number
    obtain ⟨digit, digits, htext⟩ := List.exists_cons_of_ne_nil
      (Nat.toDigits_ne_nil : Nat.toDigits 10 number ≠ [])
    exact ⟨digit, digits, htext, isDigit_of_mem_decimal (htext ▸ List.mem_cons_self)⟩
  cases number with
  | ofNat number =>
      obtain ⟨digit, digits, htext, hdigit⟩ := hdecimal number
      exact ⟨digit, digits, (toList_natCast number).trans htext, .inr hdigit⟩
  | negSucc number =>
      exact ⟨'-', _, toList_negSucc number, .inl ⟨rfl, hdecimal (number + 1)⟩⟩

/-- What a written value starts with. -/
theorem write_starts (level : Nat) {value : Json} (hsound : Sound value) :
    ∃ first rest, layout.write level value = first :: rest ∧ isSpace first = false ∧
      first ≠ ']' := by
  cases value with
  | null => exact ⟨_, _, rfl, by decide, by decide⟩
  | bool value => cases value <;> exact ⟨_, _, rfl, by decide, by decide⟩
  | integer number =>
      obtain ⟨first, rest, htext, hfirst⟩ := integer_starts number
      refine ⟨first, rest, htext, ?_⟩
      rcases hfirst with ⟨rfl, _⟩ | hdigit
      · exact ⟨by decide, by decide⟩
      · refine ⟨?_, isDigit_ne hdigit (by decide)⟩
        simp [isSpace, isDigit_ne hdigit (by decide : isDigit ' ' = false),
          isDigit_ne hdigit (by decide : isDigit '\t' = false),
          isDigit_ne hdigit (by decide : isDigit '\n' = false),
          isDigit_ne hdigit (by decide : isDigit '\r' = false)]
  | real number => exact hsound.elim
  | string text => exact ⟨_, _, rfl, by decide, by decide⟩
  | array items =>
      rw [Layout.write]
      cases layout.writeItems (level + 1) items with
      | nil => exact ⟨_, _, rfl, by decide, by decide⟩
      | cons first others => exact ⟨_, _, rfl, by decide, by decide⟩
  | object fields =>
      rw [Layout.write]
      cases layout.writeFields (level + 1) fields with
      | nil => exact ⟨_, _, rfl, by decide, by decide⟩
      | cons first others => exact ⟨_, _, rfl, by decide, by decide⟩

/-! ### Reading what was written -/

theorem scanOnce_scalar {first : Char} (hquote : first ≠ doubleQuote)
    (hbracket : first ≠ '[') (hbrace : first ≠ Char.ofNat 0x7b) (text : List Char) (fuel : Nat) :
    scanOnce parseFloat (fuel + 1) (first :: text) =
      (scanConstant parseFloat (first :: text)).or (scanNumber parseFloat (first :: text)) := by
  rw [scanOnce.eq_def]
  simp only [afterChar_cons_ne hquote, afterChar_cons_ne hbracket, afterChar_cons_ne hbrace]

theorem scanConstant_integer (number : Int) (rest : List Char) :
    scanConstant parseFloat ((toString number).toList ++ rest) = none := by
  obtain ⟨first, digits, htext, hfirst⟩ := integer_starts number
  rw [htext]
  rcases hfirst with ⟨rfl, digit, others, rfl, hdigit⟩ | hdigit
  · have hinfinity := isDigit_ne hdigit (by decide : isDigit 'I' = false)
    simp [scanConstant, List.firstM, afterWord, afterChar, hinfinity]
  · simp [scanConstant, List.firstM, afterWord, afterChar,
      isDigit_ne hdigit (by decide : isDigit 'n' = false),
      isDigit_ne hdigit (by decide : isDigit 't' = false),
      isDigit_ne hdigit (by decide : isDigit 'f' = false),
      isDigit_ne hdigit (by decide : isDigit 'N' = false),
      isDigit_ne hdigit (by decide : isDigit 'I' = false),
      isDigit_ne hdigit (by decide : isDigit '-' = false)]

theorem scanOnce_integer (number : Int) {rest : List Char} (hended : Ended rest) (fuel : Nat) :
    scanOnce parseFloat (fuel + 1) ((toString number).toList ++ rest) =
      some (.integer number, rest) := by
  have hnumber := scanNumber_integer parseFloat number hended
  have hconstant := scanConstant_integer parseFloat number rest
  obtain ⟨first, digits, htext, hfirst⟩ := integer_starts number
  have hother : ∀ other, other ≠ '-' → isDigit other = false → first ≠ other := by
    intro other hminus hnotDigit
    rcases hfirst with ⟨rfl, _⟩ | hdigit
    · exact Ne.symm hminus
    · exact isDigit_ne hdigit hnotDigit
  rw [htext, List.cons_append] at hnumber hconstant ⊢
  rw [scanOnce_scalar parseFloat (hother _ (by decide) (by decide))
    (hother _ (by decide) (by decide)) (hother _ (by decide) (by decide)), hconstant, hnumber,
    Option.none_or]

theorem Ended.blank {blank rest : List Char} (hblank : ∀ char ∈ blank, isSpace char)
    (hended : Ended rest) : Ended (blank ++ rest) := by
  cases blank with
  | nil => exact hended
  | cons first others =>
      have hspace := hblank first List.mem_cons_self
      simp only [isSpace, decide_eq_true_eq] at hspace
      rw [List.cons_append]
      rcases hspace with rfl | rfl | rfl | rfl <;>
        exact Ended.cons (by decide) (by decide) (by decide) (by decide) _

theorem scanOnce_null (rest : List Char) (fuel : Nat) :
    scanOnce parseFloat (fuel + 1) ("null".toList ++ rest) = some (.null, rest) := by
  have hconstant : scanConstant parseFloat ("null".toList ++ rest) = some (.null, rest) := by
    simp [scanConstant, List.firstM, afterWord, afterChar]
  have hscalar := scanOnce_scalar parseFloat (by decide : 'n' ≠ doubleQuote)
    (by decide : 'n' ≠ '[') (by decide : 'n' ≠ Char.ofNat 0x7b) ("ull".toList ++ rest) fuel
  exact hscalar.trans (hconstant ▸ Option.some_or)

theorem scanOnce_bool (flag : Bool) (rest : List Char) (fuel : Nat) :
    scanOnce parseFloat (fuel + 1) ((if flag then "true" else "false").toList ++ rest) =
      some (.bool flag, rest) := by
  cases flag with
  | true =>
      have hconstant : scanConstant parseFloat ("true".toList ++ rest) =
        some (.bool true, rest) := by
        simp [scanConstant, List.firstM, afterWord, afterChar]
      have hscalar := scanOnce_scalar parseFloat (by decide : 't' ≠ doubleQuote)
        (by decide : 't' ≠ '[') (by decide : 't' ≠ Char.ofNat 0x7b) ("rue".toList ++ rest) fuel
      exact hscalar.trans (hconstant ▸ Option.some_or)
  | false =>
      have hconstant :
          scanConstant parseFloat ("false".toList ++ rest) = some (.bool false, rest) := by
        simp [scanConstant, List.firstM, afterWord, afterChar]
      have hscalar := scanOnce_scalar parseFloat (by decide : 'f' ≠ doubleQuote)
        (by decide : 'f' ≠ '[') (by decide : 'f' ≠ Char.ofNat 0x7b) ("alse".toList ++ rest) fuel
      exact hscalar.trans (hconstant ▸ Option.some_or)

theorem quoted_append (text : String) (rest : List Char) :
    layout.quoted text ++ rest =
      doubleQuote :: (text.toList.flatMap layout.escape ++ doubleQuote :: rest) := by
  simp [Layout.quoted]

theorem scanString_quoted {escape : Char → List Char} (legibility : Legibility escape)
    (text : String) (rest : List Char) :
    scanString ((text.toList.flatMap escape ++ doubleQuote :: rest).length + 1)
        (text.toList.flatMap escape ++ doubleQuote :: rest) =
      if text.toList.all legibility.legible then some (text.toList, rest) else none :=
  scanString_escaped legibility _ _ (by rw [List.length_append]; omega)

theorem scanOnce_string (legibility : Legibility layout.escape) (text : String) (rest : List Char)
    (fuel : Nat) :
    scanOnce parseFloat (fuel + 1) (layout.quoted text ++ rest) =
      if text.toList.all legibility.legible then some (.string text, rest) else none := by
  rw [quoted_append, scanOnce.eq_def]
  simp only [afterChar_cons_self, scanString_quoted legibility]
  by_cases hlegible : text.toList.all legibility.legible
  · simp only [hlegible, if_true, Option.bind_eq_bind, Option.bind_some, String.ofList_toList]
  · simp only [hlegible, Bool.false_eq_true, if_false, Option.bind_eq_bind, Option.bind_none]

theorem entry_append (key : String) (text rest : List Char) :
    layout.entry key text ++ rest = layout.entry key (text ++ rest) := by
  simp [Layout.entry]

theorem entry_length (key : String) (text : List Char) :
    text.length < (layout.entry key text).length := by
  simp only [Layout.entry, List.length_append, List.length_cons]
  omega

theorem Solid.entry (key : String) (text : List Char) : Solid (layout.entry key text) :=
  Solid.cons (by decide) _

theorem scanKey_entry (legibility : Legibility layout.escape) (key : String) {text : List Char}
    (hsolid : Solid text) :
    scanKey (layout.entry key text) =
      if key.toList.all legibility.legible then some (key, text) else none := by
  have hcolon (text : List Char) : skip (':' :: text) = ':' :: text :=
    skip_solid (Solid.cons (by decide) text)
  rw [Layout.entry, quoted_append, scanKey]
  simp only [afterChar_cons_self, scanString_quoted legibility, Option.bind_eq_bind,
    Option.bind_some]
  by_cases hlegible : key.toList.all legibility.legible
  · simp only [hlegible, if_true, Option.bind_some, hcolon, afterChar_cons_self,
      skip_blank_solid layout.valuedBlank hsolid, String.ofList_toList]
  · simp only [hlegible, Bool.false_eq_true, if_false, Option.bind_none]

/-! One step of the reader, given what it finds first. -/

theorem scanOnce_bracket {text : List Char} (hstart : afterChar ']' (skip text) = none)
    (fuel : Nat) :
    scanOnce parseFloat (fuel + 1) ('[' :: text) =
      (scanItems parseFloat fuel (skip text)).map fun (items, rest) => (.array items, rest) := by
  rw [scanOnce.eq_def]
  simp only [afterChar_cons_ne (by decide : '[' ≠ doubleQuote), afterChar_cons_self, hstart]
  cases scanItems parseFloat fuel (skip text) <;> rfl

theorem scanOnce_brace {text : List Char} (hstart : afterChar (Char.ofNat 0x7d) (skip text) = none)
    (fuel : Nat) :
    scanOnce parseFloat (fuel + 1) (Char.ofNat 0x7b :: text) =
      (scanPairs parseFloat fuel (skip text)).map fun (pairs, rest) =>
        (.object (pairs.foldl (fun fields (key, value) => dictInsert fields key value) []),
          rest) := by
  rw [scanOnce.eq_def]
  simp only [afterChar_cons_ne (by decide : Char.ofNat 0x7b ≠ doubleQuote),
    afterChar_cons_ne (by decide : Char.ofNat 0x7b ≠ '['), afterChar_cons_self, hstart]
  cases scanPairs parseFloat fuel (skip text) <;> rfl

theorem scanItems_last {fuel : Nat} {text tail rest : List Char} {item : Json}
    (hitem : scanOnce parseFloat fuel text = some (item, tail)) (htail : skip tail = ']' :: rest) :
    scanItems parseFloat (fuel + 1) text = some ([item], rest) := by
  rw [scanItems.eq_def]
  simp only [hitem, Option.bind_eq_bind, Option.bind_some, htail,
    afterChar_cons_ne (by decide : ']' ≠ ','), afterChar_cons_self]

theorem scanItems_next {fuel : Nat} {text tail rest : List Char} {item : Json}
    (hitem : scanOnce parseFloat fuel text = some (item, tail)) (htail : skip tail = ',' :: rest) :
    scanItems parseFloat (fuel + 1) text =
      (scanItems parseFloat fuel (skip rest)).map fun (items, rest) => (item :: items, rest) := by
  rw [scanItems.eq_def]
  simp only [hitem, Option.bind_eq_bind, Option.bind_some, htail, afterChar_cons_self]
  cases scanItems parseFloat fuel (skip rest) <;> rfl

theorem scanItems_none {fuel : Nat} {text : List Char}
    (hitem : scanOnce parseFloat fuel text = none) :
    scanItems parseFloat (fuel + 1) text = none := by
  rw [scanItems.eq_def]
  simp only [hitem, Option.bind_eq_bind, Option.bind_none]

theorem scanPairs_last {fuel : Nat} {text valueText tail rest : List Char} {key : String}
    {value : Json} (hkey : scanKey text = some (key, valueText))
    (hvalue : scanOnce parseFloat fuel valueText = some (value, tail))
    (htail : skip tail = Char.ofNat 0x7d :: rest) :
    scanPairs parseFloat (fuel + 1) text = some ([(key, value)], rest) := by
  rw [scanPairs.eq_def]
  simp only [hkey, hvalue, Option.bind_eq_bind, Option.bind_some, htail,
    afterChar_cons_ne (by decide : Char.ofNat 0x7d ≠ ','), afterChar_cons_self]

theorem scanPairs_next {fuel : Nat} {text valueText tail rest : List Char} {key : String}
    {value : Json} (hkey : scanKey text = some (key, valueText))
    (hvalue : scanOnce parseFloat fuel valueText = some (value, tail))
    (htail : skip tail = ',' :: rest) :
    scanPairs parseFloat (fuel + 1) text =
      (scanPairs parseFloat fuel (skip rest)).map fun (pairs, rest) =>
        ((key, value) :: pairs, rest) := by
  rw [scanPairs.eq_def]
  simp only [hkey, hvalue, Option.bind_eq_bind, Option.bind_some, htail, afterChar_cons_self]
  cases scanPairs parseFloat fuel (skip rest) <;> rfl

theorem scanPairs_none {fuel : Nat} {text valueText tail : List Char} {key : String} {value : Json}
    {keyLegible legible : Bool}
    (hkey : scanKey text = if keyLegible then some (key, valueText) else none)
    (hvalue : scanOnce parseFloat fuel valueText = if legible then some (value, tail) else none)
    (hrefused : (keyLegible && legible) = false) :
    scanPairs parseFloat (fuel + 1) text = none := by
  rw [scanPairs.eq_def]
  cases keyLegible with
  | false => simp only [hkey, Bool.false_eq_true, if_false, Option.bind_eq_bind, Option.bind_none]
  | true =>
      rw [Bool.true_and] at hrefused
      simp only [hkey, if_true, Option.bind_eq_bind, Option.bind_some, hvalue, hrefused,
        Bool.false_eq_true, if_false, Option.bind_none]

theorem separated_cons (level : Nat) (item : List Char) (items : List (List Char))
    (rest : List Char) :
    layout.separated level (item :: items) ++ rest =
      ',' :: (layout.between level ++ (item ++ (layout.separated level items ++ rest))) := by
  simp [Layout.separated]

theorem skip_separator (rest : List Char) : skip (',' :: rest) = ',' :: rest :=
  skip_solid (Solid.cons (by decide) rest)

theorem skip_closed (level : Nat) {closing : Char} (hsolid : isSpace closing = false)
    (rest : List Char) : skip (layout.closed level ++ closing :: rest) = closing :: rest :=
  skip_blank_solid (layout.closedBlank level) (Solid.cons hsolid rest)

theorem ended_closed (level : Nat) {closing : Char} (hclosing : closing ∈ [']', Char.ofNat 0x7d])
    (rest : List Char) : Ended (layout.closed level ++ closing :: rest) := by
  apply Ended.blank (layout.closedBlank level)
  rcases List.mem_pair.mp hclosing with rfl | rfl <;>
    exact Ended.cons (by decide) (by decide) (by decide) (by decide) rest

theorem ended_separator (rest : List Char) : Ended (',' :: rest) :=
  Ended.cons (by decide) (by decide) (by decide) (by decide) rest

theorem Solid.write (level : Nat) {value : Json} (hsound : Sound value) (rest : List Char) :
    Solid (layout.write level value ++ rest) := by
  obtain ⟨first, others, hfirst, hsolid, _⟩ := write_starts layout level hsound
  rw [hfirst]
  exact Solid.cons hsolid _

theorem write_length_pos (level : Nat) {value : Json} (hsound : Sound value) :
    0 < (layout.write level value).length := by
  obtain ⟨first, others, hfirst, _⟩ := write_starts layout level hsound
  simp [hfirst]

mutual

/-- **A written value is read back when it is legible, and refused when it is not.** -/
theorem scanOnce_write (legibility : Legibility layout.escape) (level : Nat) :
    (value : Json) → Sound value → ∀ {fuel : Nat} {rest : List Char},
      (layout.write level value).length < fuel → Ended rest →
        scanOnce parseFloat fuel (layout.write level value ++ rest) =
          if allLegible legibility.legible value then some (value, rest) else none
  | value, hsound, 0, rest, hfuel, hended => by omega
  | .null, _, fuel + 1, rest, _, _ => by
      rw [Layout.write, scanOnce_null, allLegible, if_pos rfl]
  | .bool flag, _, fuel + 1, rest, _, _ => by
      rw [Layout.write, scanOnce_bool, allLegible, if_pos rfl]
  | .integer number, _, fuel + 1, rest, _, hended => by
      rw [Layout.write, scanOnce_integer parseFloat number hended, allLegible, if_pos rfl]
  | .real _, hsound, _, _, _, _ => hsound.elim
  | .string text, _, fuel + 1, rest, _, _ => by
      rw [Layout.write, scanOnce_string parseFloat layout legibility, allLegible]
  | .array [], _, fuel + 1, rest, _, _ => by
      rw [allLegible, allLegibleItems, if_pos rfl, scanOnce.eq_def]
      rfl
  | .array (item :: items), hsound, fuel + 1, rest, hfuel, _ => by
      rw [Layout.write, Layout.writeItems, Layout.enclosed] at hfuel
      simp only [List.length_append, List.length_cons, List.length_nil] at hfuel
      have hitems := @scanItems_write legibility level item items hsound fuel rest
        (by rw [List.length_append]; omega)
      have hskip := skip_blank_solid (layout.openedBlank level) (Solid.write layout (level + 1)
        hsound.1 (layout.separated level (layout.writeItems (level + 1) items) ++
          (layout.closed level ++ ']' :: rest)))
      obtain ⟨first, others, hfirst, _, hbracket⟩ := write_starts layout (level + 1) hsound.1
      rw [Layout.write, Layout.writeItems, enclosed_cons, scanOnce_bracket, hskip, hitems,
        allLegible]
      · by_cases hlegible : allLegibleItems legibility.legible (item :: items)
        · simp only [hlegible, if_true, Option.map_some]
        · simp only [hlegible, Bool.false_eq_true, if_false, Option.map_none]
      · rw [hskip, hfirst]
        exact afterChar_cons_ne hbracket _
  | .object [], _, fuel + 1, rest, _, _ => by
      rw [allLegible, allLegibleFields, if_pos rfl, scanOnce.eq_def]
      rfl
  | .object ((key, value) :: fields), hsound, fuel + 1, rest, hfuel, _ => by
      rw [Layout.write, Layout.writeFields, Layout.enclosed] at hfuel
      simp only [List.length_append, List.length_cons, List.length_nil] at hfuel
      have hfields := @scanPairs_write legibility level key value fields hsound.2 fuel rest
        (by rw [List.length_append]; omega)
      have hskip := skip_blank_solid (layout.openedBlank level) (Solid.entry layout key
        (layout.write (level + 1) value ++ (layout.separated level
          (layout.writeFields (level + 1) fields) ++
            (layout.closed level ++ Char.ofNat 0x7d :: rest))))
      have hkeys := @foldl_dictInsert [] ((key, value) :: fields) hsound.1
      rw [List.nil_append] at hkeys
      rw [Layout.write, Layout.writeFields, enclosed_cons, scanOnce_brace, entry_append, hskip,
        hfields, allLegible]
      · by_cases hlegible : allLegibleFields legibility.legible ((key, value) :: fields)
        · simp only [hlegible, if_true, Option.map_some, hkeys]
        · simp only [hlegible, Bool.false_eq_true, if_false, Option.map_none]
      · rw [entry_append, hskip, Layout.entry, quoted_append]
        exact afterChar_cons_ne (by decide) _

theorem scanItems_write (legibility : Legibility layout.escape) (level : Nat) (item : Json) :
    (items : List Json) → SoundItems (item :: items) → ∀ {fuel : Nat} {rest : List Char},
      (layout.write (level + 1) item ++
        layout.separated level (layout.writeItems (level + 1) items)).length + 1 < fuel →
      scanItems parseFloat fuel (layout.write (level + 1) item ++
          (layout.separated level (layout.writeItems (level + 1) items) ++
            (layout.closed level ++ ']' :: rest))) =
        if allLegibleItems legibility.legible (item :: items) then some (item :: items, rest)
        else none
  | items, hsound, 0, rest, hfuel => by omega
  | [], hsound, fuel + 1, rest, hfuel => by
      have hitem := @scanOnce_write legibility (level + 1) item hsound.1 fuel
        (layout.closed level ++ ']' :: rest) (by rw [List.length_append] at hfuel; omega)
        (ended_closed layout level (by decide) rest)
      rw [Layout.writeItems, Layout.separated, List.flatMap_nil, List.nil_append]
      by_cases hlegible : allLegible legibility.legible item
      · rw [if_pos hlegible] at hitem
        rw [scanItems_last parseFloat hitem (skip_closed layout level (by decide) rest)]
        simp [allLegibleItems, hlegible]
      · rw [if_neg hlegible] at hitem
        rw [scanItems_none parseFloat hitem]
        simp [allLegibleItems, hlegible]
  | second :: items, hsound, fuel + 1, rest, hfuel => by
      rw [Layout.writeItems, List.length_append] at hfuel
      have hlength := write_length_pos layout (level + 1) hsound.1
      have hitem := @scanOnce_write legibility (level + 1) item hsound.1 fuel
        (layout.separated level (layout.writeItems (level + 1) (second :: items)) ++
          (layout.closed level ++ ']' :: rest)) (by omega)
        (by rw [Layout.writeItems, separated_cons]; exact ended_separator _)
      by_cases hlegible : allLegible legibility.legible item
      · have hitems := @scanItems_write legibility level second items hsound.2 fuel rest (by
          rw [Layout.separated, List.flatMap_cons, List.length_append, List.length_append,
            List.length_cons] at hfuel
          rw [List.length_append, Layout.separated]
          omega)
        rw [if_pos hlegible] at hitem
        rw [scanItems_next parseFloat hitem
          (by rw [Layout.writeItems, separated_cons, skip_separator]),
          skip_blank_solid (layout.betweenBlank level)
            (Solid.write layout (level + 1) hsound.2.1 _), hitems]
        by_cases hothers : allLegibleItems legibility.legible (second :: items)
        · simp only [hothers, if_true, Option.map_some, allLegibleItems.eq_2 _ item, hlegible,
            Bool.and_self]
        · simp only [hothers, Bool.false_eq_true, if_false, Option.map_none,
            allLegibleItems.eq_2 _ item, Bool.and_false]
      · rw [if_neg hlegible] at hitem
        rw [scanItems_none parseFloat hitem]
        simp [allLegibleItems, hlegible]

theorem scanPairs_write (legibility : Legibility layout.escape) (level : Nat) (key : String)
    (value : Json) :
    (fields : Fields) → SoundFields ((key, value) :: fields) → ∀ {fuel : Nat} {rest : List Char},
      (layout.entry key (layout.write (level + 1) value) ++
        layout.separated level (layout.writeFields (level + 1) fields)).length + 1 < fuel →
      scanPairs parseFloat fuel (layout.entry key (layout.write (level + 1) value ++
          (layout.separated level (layout.writeFields (level + 1) fields) ++
            (layout.closed level ++ Char.ofNat 0x7d :: rest)))) =
        if allLegibleFields legibility.legible ((key, value) :: fields) then
          some ((key, value) :: fields, rest)
        else none
  | fields, hsound, 0, rest, hfuel => by omega
  | [], hsound, fuel + 1, rest, hfuel => by
      have hlength := entry_length layout key (layout.write (level + 1) value)
      have hvalue := @scanOnce_write legibility (level + 1) value hsound.1 fuel
        (layout.closed level ++ Char.ofNat 0x7d :: rest)
        (by rw [List.length_append] at hfuel; omega) (ended_closed layout level (by decide) rest)
      have hkey := scanKey_entry layout legibility key (Solid.write layout (level + 1) hsound.1
        (layout.closed level ++ Char.ofNat 0x7d :: rest))
      rw [Layout.writeFields, Layout.separated, List.flatMap_nil, List.nil_append]
      rw [allLegibleFields, allLegibleFields, Bool.and_true]
      by_cases hlegible : (key.toList.all legibility.legible &&
          allLegible legibility.legible value) = true
      · obtain ⟨hkeyLegible, hvalueLegible⟩ := Bool.and_eq_true_iff.mp hlegible
        rw [if_pos hkeyLegible] at hkey
        rw [if_pos hvalueLegible] at hvalue
        rw [if_pos hlegible]
        exact scanPairs_last parseFloat hkey hvalue (skip_closed layout level (by decide) rest)
      · rw [if_neg hlegible]
        exact scanPairs_none parseFloat hkey hvalue (Bool.eq_false_iff.mpr hlegible)
  | (second, other) :: fields, hsound, fuel + 1, rest, hfuel => by
      have hlength := entry_length layout key (layout.write (level + 1) value)
      rw [Layout.writeFields, List.length_append] at hfuel
      have hvalue := @scanOnce_write legibility (level + 1) value hsound.1 fuel
        (layout.separated level (layout.writeFields (level + 1) ((second, other) :: fields)) ++
          (layout.closed level ++ Char.ofNat 0x7d :: rest)) (by omega)
        (by rw [Layout.writeFields, separated_cons]; exact ended_separator _)
      have hkey := scanKey_entry layout legibility key (Solid.write layout (level + 1) hsound.1
        (layout.separated level (layout.writeFields (level + 1) ((second, other) :: fields)) ++
          (layout.closed level ++ Char.ofNat 0x7d :: rest)))
      rw [allLegibleFields]
      by_cases hlegible : (key.toList.all legibility.legible &&
          allLegible legibility.legible value) = true
      · obtain ⟨hkeyLegible, hvalueLegible⟩ := Bool.and_eq_true_iff.mp hlegible
        have hfields := @scanPairs_write legibility level second other fields hsound.2 fuel rest (by
          rw [Layout.separated, List.flatMap_cons, List.length_append, List.length_append,
            List.length_cons] at hfuel
          rw [List.length_append, Layout.separated]
          omega)
        rw [if_pos hkeyLegible] at hkey
        rw [if_pos hvalueLegible] at hvalue
        rw [scanPairs_next parseFloat hkey hvalue
            (by rw [Layout.writeFields, separated_cons, skip_separator]),
          entry_append, skip_blank_solid (layout.betweenBlank level) (Solid.entry layout second _),
          hfields, hlegible, Bool.true_and]
        by_cases hothers : allLegibleFields legibility.legible ((second, other) :: fields)
        · simp only [hothers, if_true, Option.map_some]
        · simp only [hothers, Bool.false_eq_true, if_false, Option.map_none]
      · rw [scanPairs_none parseFloat hkey hvalue (Bool.eq_false_iff.mpr hlegible)]
        rw [Bool.eq_false_iff.mpr hlegible, Bool.false_and, if_neg Bool.false_ne_true]

end

/-- **A written document is read back when it is legible, and refused when it is not.** -/
theorem loads_write (legibility : Legibility layout.escape) {value : Json} (hsound : Sound value)
    {blank : List Char} (hblank : ∀ char ∈ blank, isSpace char) :
    loads parseFloat (layout.write 0 value ++ blank) =
      if allLegible legibility.legible value then some value else none := by
  have hended : Ended blank := by
    have hnil : Ended [] := by
      intro first hfirst
      cases hfirst
    simpa using Ended.blank hblank hnil
  have hvalue := scanOnce_write parseFloat layout legibility 0 value hsound
    (by rw [List.length_append]; omega :
      (layout.write 0 value).length < (layout.write 0 value ++ blank).length + 1) hended
  have hskip : skip blank = [] := by
    simpa [skip] using skip_blank hblank []
  rw [loads, skip_solid (Solid.write layout 0 hsound blank), hvalue]
  by_cases hlegible : allLegible legibility.legible value
  · simp [hlegible, hskip]
  · simp [hlegible]

end Write

end SupernoteModule.Python.Json
