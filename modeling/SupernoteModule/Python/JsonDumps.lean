import SupernoteModule.Python.JsonLayout
import SupernoteModule.Python.JsonOrder
import SupernoteModule.Python.JsonText

/-!
# Python's own JSON

`json.dumps(value, indent=2, sort_keys=True)` writes a value with its keys in order, in a layout of
its own whose escapes cover every character. So `json.loads` reads back whatever `json.dumps` wrote.
-/

namespace SupernoteModule.Python.Json

/-! ### Escapes -/

theorem hexDigit_digitChar {digit : Nat} (hdigit : digit < 16) :
    hexDigit (Nat.digitChar digit) = some digit := by
  match digit with
  | 0 | 1 | 2 | 3 | 4 | 5 | 6 | 7 | 8 | 9 | 10 | 11 | 12 | 13 | 14 | 15 => decide
  | digit + 16 => omega

theorem hexNumber_concat (digits : List Char) (last : Char) :
    hexNumber (digits ++ [last]) =
      (hexNumber digits).bind fun number => (hexDigit last).map (16 * number + ·) := by
  simp [hexNumber, List.foldlM_append, Option.bind_eq_bind]

theorem hexNumber_toDigits (number : Nat) : hexNumber (Nat.toDigits 16 number) = some number := by
  induction number using Nat.strongRecOn with
  | _ number ih =>
      by_cases hsmall : number < 16
      · rw [Nat.toDigits_of_lt_base hsmall]
        simp [hexNumber, hexDigit_digitChar hsmall]
      · have hlast := hexDigit_digitChar (Nat.mod_lt number (by decide : 16 > 0))
        rw [Nat.toDigits_of_base_le (by decide) (by omega), hexNumber_concat,
          ih (number / 16) (by omega), hlast]
        simp only [Option.bind_some, Option.map_some, Nat.div_add_mod]

theorem hexNumber_zeros (count : Nat) (digits : List Char) :
    hexNumber (List.replicate count '0' ++ digits) = hexNumber digits := by
  induction count with
  | zero => rfl
  | succ count ih => simpa [hexNumber, List.replicate_succ, hexDigit] using ih

/-- An escape of four digits is read as its number. -/
theorem decodeUnit_escapeUnit {code : Nat} (hcode : code < 0x10000) (rest : List Char) :
    decodeUnit ((escapeUnit code).drop 2 ++ rest) = some (code, rest) := by
  have hdigits : (Nat.toDigits 16 code).length ≤ 4 :=
    (Nat.length_toDigits_le_iff (by decide) (by decide)).mpr hcode
  have hlength :
      (List.replicate (4 - (Nat.toDigits 16 code).length) '0' ++ Nat.toDigits 16 code).length =
        4 := by
    rw [List.length_append, List.length_replicate]
    omega
  have hdrop : (escapeUnit code).drop 2 =
      List.replicate (4 - (Nat.toDigits 16 code).length) '0' ++ Nat.toDigits 16 code := rfl
  rw [hdrop, decodeUnit, List.take_left' hlength, List.drop_left' hlength, hexNumber_zeros,
    hexNumber_toDigits]
  simp only [hlength, Option.bind_eq_bind, Option.bind_some, if_true]

theorem escapeUnit_eq (code : Nat) :
    escapeUnit code = backslash :: 'u' :: (escapeUnit code).drop 2 :=
  rfl

theorem scanChar_escapeUnit (code : Nat) (rest : List Char) :
    scanChar (escapeUnit code ++ rest) = decodeUnits ((escapeUnit code).drop 2 ++ rest) := by
  conv_lhs => rw [escapeUnit_eq]
  rw [List.cons_append, List.cons_append, scanChar, if_pos rfl, scanEscape, if_pos rfl]

theorem afterWord_escapeUnit (code : Nat) (rest : List Char) :
    afterWord [backslash, 'u'] (escapeUnit code ++ rest) =
      some ((escapeUnit code).drop 2 ++ rest) :=
  afterWord_append [backslash, 'u'] _

/-- A character of the basic plane. -/
theorem scanChar_basic {char : Char} (hbasic : char.toNat < 0x10000) (rest : List Char) :
    scanChar (escapeUnit char.toNat ++ rest) = some (char, rest) := by
  have hscalar : char.toNat < 0xd800 ∨ 0xdfff < char.toNat ∧ char.toNat < 0x110000 := char.valid
  rw [scanChar_escapeUnit, decodeUnits, decodeUnit_escapeUnit hbasic]
  have hhigh : ¬ (0xd800 ≤ char.toNat ∧ char.toNat < 0xdc00) := by omega
  have hlow : ¬ (0xdc00 ≤ char.toNat ∧ char.toNat < 0xe000) := by omega
  simp only [Option.bind_eq_bind, Option.bind_some, if_neg hhigh, if_neg hlow, Char.ofNat_toNat]

theorem decodeUnits_pair {high low : Nat} (hhigh : high < 0x400) (hlow : low < 0x400)
    (rest : List Char) :
    decodeUnits ((escapeUnit (0xd800 + high)).drop 2 ++ (escapeUnit (0xdc00 + low) ++ rest)) =
      some (Char.ofNat (0x10000 + high * 0x400 + low), rest) := by
  have hfirst : 0xd800 ≤ 0xd800 + high ∧ 0xd800 + high < 0xdc00 := ⟨by omega, by omega⟩
  have hsecond : 0xdc00 ≤ 0xdc00 + low ∧ 0xdc00 + low < 0xe000 := ⟨by omega, by omega⟩
  rw [decodeUnits, decodeUnit_escapeUnit (by omega), Option.bind_eq_bind, Option.bind_some]
  simp only [if_pos hfirst, afterWord_escapeUnit, Option.bind_eq_bind, Option.bind_some,
    decodeUnit_escapeUnit (by omega : 0xdc00 + low < 0x10000), if_pos hsecond,
    Nat.add_sub_cancel_left]

/-- A character beyond it, as its two surrogates. -/
theorem scanChar_pair {char : Char} (hbeyond : 0x10000 ≤ char.toNat) (rest : List Char) :
    scanChar (escapeUnit (0xd800 + (char.toNat - 0x10000) / 0x400) ++
      (escapeUnit (0xdc00 + (char.toNat - 0x10000) % 0x400) ++ rest)) = some (char, rest) := by
  have hscalar : char.toNat < 0xd800 ∨ 0xdfff < char.toNat ∧ char.toNat < 0x110000 := char.valid
  have hhigh : (char.toNat - 0x10000) / 0x400 < 0x400 := by omega
  have hlow : (char.toNat - 0x10000) % 0x400 < 0x400 := by omega
  have hchar : 0x10000 + (char.toNat - 0x10000) / 0x400 * 0x400 +
      (char.toNat - 0x10000) % 0x400 = char.toNat := by omega
  rw [scanChar_escapeUnit, decodeUnits_pair hhigh hlow, hchar, Char.ofNat_toNat]

/-- An escape of one letter, which stands for one control character. -/
theorem spells_letter {letter char : Char} {code : Nat} (hcode : char.toNat = code)
    (hletter : ∀ rest, scanEscape (letter :: rest) = some (Char.ofNat code, rest)) :
    Spells char [backslash, letter] := by
  have hchar : Char.ofNat code = char := by rw [← hcode, Char.ofNat_toNat]
  refine ⟨fun hhead => absurd (Option.some.inj hhead) (by decide), fun rest => ?_⟩
  rw [List.cons_append, List.singleton_append, scanChar, if_pos rfl, hletter, hchar]

theorem spells_escapeUnit (code : Nat) (rest : List Char) {char : Char}
    (hscan : ∀ others, scanChar (escapeUnit code ++ rest ++ others) = some (char, others)) :
    Spells char (escapeUnit code ++ rest) := by
  refine ⟨?_, hscan⟩
  intro hhead
  exact absurd (Option.some.inj hhead) (by decide)

/-- A character that is written as it is. -/
theorem spells_self {char : Char} (hquote : char ≠ doubleQuote) (hbackslash : char ≠ backslash)
    (hcode : 0x20 ≤ char.toNat) : Spells char [char] := by
  refine ⟨fun hhead => hquote (Option.some.inj hhead), fun rest => ?_⟩
  rw [List.singleton_append, scanChar, if_neg hbackslash, if_neg (by omega)]

/-- A character behind a backslash. -/
theorem spells_backslash {char : Char} (hchar : char = doubleQuote ∨ char = backslash) :
    Spells char [backslash, char] := by
  have hletter : char ≠ 'u' := by
    rcases hchar with rfl | rfl <;> decide
  have hself : char = doubleQuote ∨ char = backslash ∨ char = '/' := hchar.imp_right .inl
  refine ⟨fun hhead => absurd (Option.some.inj hhead) (by decide), fun rest => ?_⟩
  rw [List.cons_append, List.singleton_append, scanChar, if_pos rfl, scanEscape, if_neg hletter,
    if_pos hself]

/-- Every escape of Python is undone. -/
theorem spells_escapeChar (char : Char) : Spells char (escapeChar char) := by
  rw [escapeChar]
  split_ifs with hself hplain hline hreturn htab hform hback hbasic
  · exact spells_backslash hself
  · rw [not_or] at hself
    exact spells_self hself.1 hself.2 hplain.1
  · exact spells_letter hline fun _ => rfl
  · exact spells_letter hreturn fun _ => rfl
  · exact spells_letter htab fun _ => rfl
  · exact spells_letter hform fun _ => rfl
  · exact spells_letter hback fun _ => rfl
  · rw [← List.append_nil (escapeUnit char.toNat)]
    apply spells_escapeUnit char.toNat []
    rw [List.append_nil]
    exact scanChar_basic hbasic
  · apply spells_escapeUnit
    intro others
    rw [List.append_assoc]
    exact scanChar_pair (by omega) others

def everyLegible : Legibility escapeChar where
  legible _ := true
  spells char _ := spells_escapeChar char
  garbles _ hnot := absurd rfl hnot

/-! ### The layout -/

theorem isSpace_newline (level : Nat) : ∀ char ∈ newline level, isSpace char := by
  intro char hchar
  rcases List.mem_cons.mp hchar with rfl | hblank
  · decide
  · rw [List.eq_of_mem_replicate hblank]
    decide

/-- `json.dumps(value, indent=2)`. -/
def pythonLayout (floatRepr : Rat → String) : Layout where
  escape := escapeChar
  float value := (floatRepr value).toList
  opened level := newline (level + 1)
  between level := newline (level + 1)
  closed level := newline level
  valued := [' ']
  openedBlank level := isSpace_newline (level + 1)
  betweenBlank level := isSpace_newline (level + 1)
  closedBlank level := isSpace_newline level
  valuedBlank := List.forall_mem_singleton.mpr rfl

/-! ### The order of keys -/

mutual

/-- A value as it is read back once every dictionary has been written in the order of its keys. -/
def sortKeys : Json → Json
  | .array items => .array (sortKeysItems items)
  | .object fields => .object (sortedBy Prod.fst (sortKeysFields fields))
  | value => value

def sortKeysItems : List Json → List Json
  | [] => []
  | item :: items => sortKeys item :: sortKeysItems items

def sortKeysFields : Fields → Fields
  | [] => []
  | (key, value) :: fields => (key, sortKeys value) :: sortKeysFields fields

end

/-- Sorting carries over to what the items are turned into, when their keys stay. -/
theorem sortedBy_map {Item Output Key : Type} [LinearOrder Key] (key : Item → Key)
    (outputKey : Output → Key) (output : Item → Output)
    (hkey : ∀ item, outputKey (output item) = key item) (items : List Item) :
    sortedBy outputKey (items.map output) = (sortedBy key items).map output := by
  exact (List.map_insertionSort (fun left right => key left ≤ key right)
    (fun left right => outputKey left ≤ outputKey right) output items
    fun left _ right _ => by rw [hkey, hkey]).symm

theorem writeFields_eq_map (layout : Layout) (level : Nat) (fields : Fields) :
    layout.writeFields level fields =
      fields.map fun (key, value) => layout.entry key (layout.write level value) := by
  induction fields with
  | nil => rfl
  | cons field fields ih => rw [Layout.writeFields, ih, List.map_cons]

section Render

variable (floatRepr : Rat → String)

theorem bracketed_eq (opening closing : Char) (level : Nat) (items : List (List Char)) :
    bracketed opening closing level items =
      (pythonLayout floatRepr).enclosed opening closing level items := by
  cases items with
  | nil => rfl
  | cons first rest => rfl

theorem entry_eq (key : String) (text : List Char) :
    renderString key ++ [':', ' '] ++ text = (pythonLayout floatRepr).entry key text := by
  simp [Layout.entry, pythonLayout, renderString, Layout.quoted]

mutual

/-- Python writes a value with its keys in order. -/
theorem render_eq (level : Nat) :
    (value : Json) → render floatRepr level value =
      (pythonLayout floatRepr).write level (sortKeys value)
  | .null => by rw [render, sortKeys.eq_def, Layout.write]
  | .bool flag => by rw [render, sortKeys.eq_def, Layout.write]
  | .integer number => by rw [render, sortKeys.eq_def, Layout.write]
  | .real number => by rw [render, sortKeys.eq_def, Layout.write]; rfl
  | .string text => by rw [render, sortKeys.eq_def, Layout.write]; rfl
  | .array items => by
      rw [render, sortKeys, Layout.write, renderItems_eq (level + 1) items, bracketed_eq]
  | .object fields => by
      have hsorted := sortedBy_map Prod.fst Prod.fst
        (fun (key, value) => (key, (pythonLayout floatRepr).write (level + 1) value))
        (fun _ => rfl) (sortKeysFields fields)
      rw [render, sortKeys, Layout.write, renderFields_eq (level + 1) fields, writeFields_eq_map,
        bracketed_eq floatRepr, hsorted, List.map_map]
      congr 1
      apply List.map_congr_left
      intro field _
      exact entry_eq floatRepr field.1 _

theorem renderItems_eq (level : Nat) :
    (items : List Json) → renderItems floatRepr level items =
      (pythonLayout floatRepr).writeItems level (sortKeysItems items)
  | [] => by rw [renderItems, sortKeysItems, Layout.writeItems]
  | item :: items => by
      rw [renderItems, sortKeysItems, Layout.writeItems, render_eq level item,
        renderItems_eq level items]

theorem renderFields_eq (level : Nat) :
    (fields : Fields) → renderFields floatRepr level fields =
      (sortKeysFields fields).map fun (key, value) =>
        (key, (pythonLayout floatRepr).write level value)
  | [] => by rw [renderFields, sortKeysFields, List.map_nil]
  | (key, value) :: fields => by
      rw [renderFields, sortKeysFields, List.map_cons, render_eq level value,
        renderFields_eq level fields]

end

end Render

/-! ### Sorted values -/

theorem keys_sortKeysFields (fields : Fields) : keys (sortKeysFields fields) = keys fields := by
  induction fields with
  | nil => rfl
  | cons field fields ih =>
      rw [sortKeysFields, keys, List.map_cons, ← keys, ih]
      rfl

theorem soundFields_iff {fields : Fields} :
    SoundFields fields ↔ ∀ field ∈ fields, Sound field.2 := by
  induction fields with
  | nil => simp [SoundFields]
  | cons field fields ih => rw [SoundFields, List.forall_mem_cons, ih]

mutual

theorem Sound.sortKeys : {value : Json} → Sound value → Sound (sortKeys value)
  | .null, _ => trivial
  | .bool _, _ => trivial
  | .integer _, _ => trivial
  | .real _, hsound => hsound.elim
  | .string _, _ => trivial
  | .array items, hsound => by
      rw [Json.sortKeys]
      exact @SoundItems.sortKeys items hsound
  | .object fields, hsound => by
      rw [Json.sortKeys]
      have hperm := sortedBy_perm Prod.fst (sortKeysFields fields)
      have hfields : SoundFields (sortKeysFields fields) := SoundFields.sortKeys hsound.2
      refine ⟨?_, ?_⟩
      · rw [keys, (hperm.map Prod.fst).nodup_iff, ← keys, keys_sortKeysFields]
        exact hsound.1
      · rw [soundFields_iff] at hfields ⊢
        intro field hfield
        exact hfields field (hperm.mem_iff.mp hfield)

theorem SoundItems.sortKeys : {items : List Json} → SoundItems items →
    SoundItems (sortKeysItems items)
  | [], _ => trivial
  | _ :: _, hsound => ⟨hsound.1.sortKeys, SoundItems.sortKeys hsound.2⟩

theorem SoundFields.sortKeys : {fields : Fields} → SoundFields fields →
    SoundFields (sortKeysFields fields)
  | [], _ => trivial
  | _ :: _, hsound => ⟨hsound.1.sortKeys, SoundFields.sortKeys hsound.2⟩

end

/-- Sorted items keep their keys and their values, each sorted in turn. -/
theorem mem_sortKeysFields {fields : Fields} {field : String × Json} (hmem : field ∈ fields) :
    (field.1, sortKeys field.2) ∈ sortKeysFields fields := by
  induction fields with
  | nil => cases hmem
  | cons first fields ih =>
      rw [sortKeysFields]
      rcases List.mem_cons.mp hmem with rfl | hrest
      · exact List.mem_cons_self
      · exact List.mem_cons_of_mem _ (ih hrest)

theorem get_sortKeys {fields : Fields} (hnodup : (keys fields).Nodup) {field : String × Json}
    (hmem : field ∈ fields) :
    get (sortedBy Prod.fst (sortKeysFields fields)) field.1 = sortKeys field.2 := by
  have hperm := (sortedBy_perm Prod.fst (sortKeysFields fields)).map Prod.fst
  apply get_of_mem
  · rw [keys, hperm.nodup_iff, ← keys, keys_sortKeysFields]
    exact hnodup
  · exact mem_sortedBy.mpr (mem_sortKeysFields hmem)

mutual

/-- Sorting the keys changes the order of keys only. -/
theorem reordered_sortKeys : (value : Json) → Sound value → Reordered [] (sortKeys value) value
  | .null, _ | .bool _, _ | .integer _, _ | .string _, _ => .same _
  | .real _, hsound => hsound.elim
  | .array items, hsound => .array (reorderedItems_sortKeys items hsound)
  | .object fields, hsound => by
      have hvalues := reorderedFields_sortKeys fields hsound.2
      have hperm := (sortedBy_perm Prod.fst (sortKeysFields fields)).map Prod.fst
      rw [sortKeys]
      apply Reordered.object
      · intro key
        rw [keys, hperm.mem_iff, ← keys, keys_sortKeysFields]
      · intro key hkey
        obtain ⟨field, hfield, rfl⟩ := List.mem_map.mp hkey
        rw [get_sortKeys hsound.1 hfield, get_of_mem hsound.1 hfield]
        exact .ordered (hvalues field hfield)

theorem reorderedItems_sortKeys : (items : List Json) → SoundItems items →
    List.Forall₂ (Reordered []) (sortKeysItems items) items
  | [], _ => .nil
  | item :: items, hsound =>
      .cons (reordered_sortKeys item hsound.1) (reorderedItems_sortKeys items hsound.2)

theorem reorderedFields_sortKeys : (fields : Fields) → SoundFields fields →
    ∀ field ∈ fields, Reordered [] (sortKeys field.2) field.2
  | [], _, field, hmem => by cases hmem
  | (key, value) :: fields, hsound, field, hmem => by
      rcases List.mem_cons.mp hmem with rfl | hrest
      · exact reordered_sortKeys value hsound.1
      · exact reorderedFields_sortKeys fields hsound.2 field hrest

end

theorem soundItems_map {Item : Type} {encode : Item → Json} (hsound : ∀ item, Sound (encode item))
    (items : List Item) : SoundItems (items.map encode) := by
  induction items with
  | nil => trivial
  | cons item items ih => exact ⟨hsound item, ih⟩

mutual

theorem allLegible_true : (value : Json) → allLegible (fun _ => true) value
  | .null | .bool _ | .integer _ | .real _ => rfl
  | .string text => by
      rw [allLegible]
      simp
  | .array items => by
      rw [allLegible]
      exact allLegibleItems_true items
  | .object fields => by
      rw [allLegible]
      exact allLegibleFields_true fields

theorem allLegibleItems_true : (items : List Json) → allLegibleItems (fun _ => true) items
  | [] => rfl
  | item :: items => by
      rw [allLegibleItems, allLegible_true item, allLegibleItems_true items, Bool.and_self]

theorem allLegibleFields_true : (fields : Fields) → allLegibleFields (fun _ => true) fields
  | [] => rfl
  | (key, value) :: fields => by
      rw [allLegibleFields, allLegible_true value, allLegibleFields_true fields]
      simp

end

/-- **What `json.dumps` writes, `json.loads` reads, with every dictionary in the order of its
keys.** -/
theorem loads_render (parseFloat : List Char → Json) (floatRepr : Rat → String) {value : Json}
    (hsound : Sound value) :
    loads parseFloat (render floatRepr 0 value ++ newline 0) = some (sortKeys value) := by
  rw [render_eq, loads_write parseFloat (pythonLayout floatRepr) everyLegible hsound.sortKeys
    (isSpace_newline 0)]
  exact if_pos (allLegible_true (sortKeys value))

end SupernoteModule.Python.Json
