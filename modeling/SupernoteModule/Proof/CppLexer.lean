import Mathlib.Data.List.TakeWhile
import Mathlib.Tactic.Tauto
import SupernoteModule.Spec.CppLayout

/-!
# The lines of a lexer

The lexer takes the pieces of the layout one after the other. Only in quoted strings does it lose
count: an escaped newline is never counted, and bare newlines are counted before the string itself
is recorded.
-/

namespace SupernoteModule.Frontend

open SupernoteModule.Python

/-! ### Slices -/

section Slices

variable {text : List Char} {start stop index : Nat} {char : Char}

theorem take_eq_append_slice (hle : start ≤ stop) :
    text.take stop = text.take start ++ slice text start stop := by
  have htake : (text.take stop).take start = text.take start := by
    rw [List.take_take, Nat.min_eq_left hle]
  rw [slice, ← htake, List.take_append_drop]

theorem count_take (hle : start ≤ stop) (char : Char) :
    (text.take stop).count char = (text.take start).count char +
    (slice text start stop).count char := by
  rw [take_eq_append_slice hle, List.count_append]

theorem slice_self (text : List Char) (start : Nat) : slice text start start = [] := by
  rw [slice]
  apply List.drop_eq_nil_of_le
  exact List.length_take_le start text

theorem slice_eq_take_drop (text : List Char) (start stop : Nat) :
    slice text start stop = (text.drop start).take (stop - start) := by
  rw [slice, List.take_drop]
  by_cases hle : start ≤ stop
  · rw [Nat.add_sub_cancel' hle]
  · have hempty : ∀ bound, bound ≤ start → (text.take bound).drop start = [] := by
      intro bound hbound
      apply List.drop_eq_nil_of_le
      exact (List.length_take_le bound text).trans hbound
    rw [hempty stop (by omega), hempty _ (by omega)]

theorem slice_succ (hle : start ≤ index) (hchar : text[index]? = some char) :
    slice text start (index + 1) = slice text start index ++ [char] := by
  obtain ⟨hindex, hget⟩ := List.getElem?_eq_some_iff.mp hchar
  rw [slice, slice, List.take_add_one, hchar, List.drop_append_of_le_length]
  · rfl
  · rw [List.length_take]
    omega

theorem mem_slice (hchar : text[index]? = some char) (hstart : start ≤ index)
    (hstop : index < stop) : char ∈ slice text start stop := by
  obtain ⟨hindex, hget⟩ := List.getElem?_eq_some_iff.mp hchar
  rw [slice_eq_take_drop, List.mem_iff_getElem?]
  refine ⟨index - start, ?_⟩
  rw [List.getElem?_take_of_lt (by omega), List.getElem?_drop, Nat.add_sub_cancel' hstart, hchar]

end Slices

/-! ### Blank lines -/

theorem strip_isEmpty (text : List Char) : (strip text).isEmpty = text.all isSpace := by
  rw [Bool.eq_iff_iff, List.isEmpty_iff, List.all_eq_true, strip]
  constructor
  · intro hempty
    have hreverse := List.reverse_eq_nil_iff.mp hempty
    have hall := List.dropWhile_eq_nil_iff.mp hreverse
    cases hrest : text.dropWhile isSpace with
    | nil => exact List.dropWhile_eq_nil_iff.mp hrest
    | cons char rest =>
        have hchar : isSpace char = true := hall char (by simp [hrest])
        have hfirst := List.head?_dropWhile_not isSpace text
        rw [hrest, List.head?_cons] at hfirst
        simp [hchar] at hfirst
  · intro hall
    rw [List.dropWhile_eq_nil_iff.mpr hall]
    rfl

namespace CppLexer

variable {lexer : CppLexer} {index : Nat} {char : Char}

theorem lineBlank_eq (lexer : CppLexer) :
    lexer.lineBlank = (slice lexer.text lexer.lineStart lexer.index).all isSpace :=
  strip_isEmpty _

theorem not_lineBlank (hchar : lexer.text[index]? = some char) (hspace : isSpace char = false)
    (hstart : lexer.lineStart ≤ index) (hindex : index < lexer.index) :
    lexer.lineBlank = false := by
  rw [lineBlank_eq, List.all_eq_false]
  exact ⟨char, mem_slice hchar hstart hindex, by simp [hspace]⟩

end CppLexer

/-! ### Counting newlines -/

theorem countNewlines_append (first next : List Char) (index line lineStart : Nat) :
    countNewlines (first ++ next) index line lineStart =
      countNewlines next (index + first.length) (countNewlines first index line lineStart).1
        (countNewlines first index line lineStart).2 := by
  induction first generalizing index line lineStart with
  | nil => rfl
  | cons char first ih =>
      have hlength : index + (char :: first).length = index + 1 + first.length := by
        rw [List.length_cons]
        omega
      rw [List.cons_append, countNewlines, countNewlines, hlength]
      split
      · exact ih ..
      · exact ih ..

theorem countNewlines_line (chars : List Char) (index line lineStart : Nat) :
    (countNewlines chars index line lineStart).1 = line + chars.count '\n' := by
  induction chars generalizing index line lineStart with
  | nil => rfl
  | cons char chars ih =>
      rw [countNewlines, List.count_cons]
      by_cases hchar : char = '\n'
      · rw [if_pos hchar, ih, if_pos (by simpa using hchar)]
        omega
      · rw [if_neg hchar, ih, if_neg (by simpa using hchar)]
        omega

theorem countNewlines_lineStart {chars : List Char} {index line lineStart : Nat}
    (hstart : lineStart ≤ index) :
    (countNewlines chars index line lineStart).2 ≤ index + chars.length := by
  induction chars generalizing index line lineStart with
  | nil => exact hstart
  | cons char chars ih =>
      rw [countNewlines, List.length_cons]
      split
      · exact (ih (Nat.le_refl _)).trans (by omega)
      · exact (ih (by omega)).trans (by omega)

/-- Behind a newline the line starts, and otherwise it has started before. -/
theorem countNewlines_concat {chars : List Char} {index line lineStart : Nat} (char : Char)
    (hstart : lineStart ≤ index) :
    if char = '\n' then
      (countNewlines (chars ++ [char]) index line lineStart).2 = index + chars.length + 1
    else (countNewlines (chars ++ [char]) index line lineStart).2 ≤ index + chars.length := by
  rw [countNewlines_append, countNewlines]
  split
  · rfl
  · exact countNewlines_lineStart hstart

section ConsumeNewlines

variable {text : List Char} {start stop line lineStart : Nat} {char : Char}

theorem consumeNewlines_line (text : List Char) (start stop line lineStart : Nat) :
    (consumeNewlines text start stop line lineStart).1 =
      line + (slice text start stop).count '\n' :=
  countNewlines_line ..

theorem consumeNewlines_lineStart (hstart : lineStart ≤ start) (hle : start ≤ stop)
    (hstop : stop ≤ text.length) :
    (consumeNewlines text start stop line lineStart).2 ≤ stop := by
  have hlength : (slice text start stop).length = stop - start := by
    rw [slice, List.length_drop, List.length_take]
    omega
  have hbound := @countNewlines_lineStart (slice text start stop) start line lineStart hstart
  rw [hlength] at hbound
  exact hbound.trans (by omega)

theorem consumeNewlines_concat (hstart : lineStart ≤ start) (hle : start ≤ stop)
    (hchar : text[stop]? = some char) :
    if char = '\n' then (consumeNewlines text start (stop + 1) line lineStart).2 = stop + 1
    else (consumeNewlines text start (stop + 1) line lineStart).2 ≤ stop := by
  obtain ⟨hindex, _⟩ := List.getElem?_eq_some_iff.mp hchar
  have hlength : start + (slice text start stop).length = stop := by
    rw [slice, List.length_drop, List.length_take]
    omega
  have hconcat := @countNewlines_concat (slice text start stop) start line lineStart char hstart
  rw [hlength, ← slice_succ hle hchar] at hconcat
  exact hconcat

end ConsumeNewlines

/-! ### Searching -/

theorem findFrom_eq_some {part rest : List Char} {index found : Nat}
    (hfound : findFrom part index rest = some found) :
    ∃ before after, rest = before ++ after ∧ found = index + before.length ∧ part <+: after ∧
      ∀ char, part = [char] → char ∉ before := by
  induction rest generalizing index with
  | nil =>
      rw [findFrom] at hfound
      split at hfound
      · rename_i hempty
        obtain rfl := Option.some.inj hfound
        rw [List.isEmpty_iff.mp hempty]
        exact ⟨[], [], rfl, rfl, List.nil_prefix, by simp⟩
      · cases hfound
  | cons char rest ih =>
      rw [findFrom] at hfound
      split at hfound
      · rename_i hprefix
        obtain rfl := Option.some.inj hfound
        exact ⟨[], char :: rest, rfl, rfl, List.isPrefixOf_iff_prefix.mp hprefix, by simp⟩
      · rename_i hprefix
        obtain ⟨before, after, rfl, rfl, hpart, hother⟩ := ih hfound
        refine ⟨char :: before, after, rfl, ?_, hpart, ?_⟩
        · rw [List.length_cons]
          omega
        · rintro other rfl hmem
          rcases List.mem_cons.mp hmem with rfl | hmem
          · simp at hprefix
          · exact hother other rfl hmem

theorem findFrom_eq_none {char : Char} {rest : List Char} {index : Nat}
    (hnone : findFrom [char] index rest = none) : char ∉ rest := by
  induction rest generalizing index with
  | nil => exact List.not_mem_nil
  | cons first rest ih =>
      rw [findFrom] at hnone
      split at hnone
      · cases hnone
      · rename_i hprefix
        intro hmem
        rcases List.mem_cons.mp hmem with rfl | hmem
        · simp at hprefix
        · exact ih hnone hmem

theorem startsAt_iff {text part : List Char} {start : Nat} :
    startsAt text part start = true ↔ part <+: text.drop start :=
  List.isPrefixOf_iff_prefix

theorem length_le_of_startsAt {text part : List Char} {start : Nat} (hpart : part ≠ [])
    (hstarts : startsAt text part start = true) : start + part.length ≤ text.length := by
  have hlength := (startsAt_iff.mp hstarts).length_le
  have hpositive := List.length_pos_iff.mpr hpart
  rw [List.length_drop] at hlength
  omega

theorem getElem?_of_startsAt {text part : List Char} {start offset : Nat} {char : Char}
    (hstarts : startsAt text part start = true) (hchar : part[offset]? = some char) :
    text[start + offset]? = some char := by
  obtain ⟨rest, hrest⟩ := startsAt_iff.mp hstarts
  rw [← List.getElem?_drop, ← hrest]
  exact List.getElem?_append_left (List.getElem?_eq_some_iff.mp hchar).1 |>.trans hchar

/-- What a search finds is behind its start, and nothing of the sort comes before. -/
theorem find_eq_some {text part : List Char} {start found : Nat}
    (hfound : find text part start = some found) :
    start ≤ found ∧ startsAt text part found = true ∧
      ∀ char, part = [char] → char ∉ slice text start found := by
  obtain ⟨before, after, hsplit, rfl, hpart, hother⟩ := findFrom_eq_some hfound
  have hafter : text.drop (start + before.length) = after := by
    rw [← List.drop_drop, hsplit, List.drop_left]
  have hbefore : slice text start (start + before.length) = before := by
    rw [slice_eq_take_drop, hsplit, Nat.add_sub_cancel_left, List.take_left]
  refine ⟨Nat.le_add_right .., ?_, ?_⟩
  · rw [startsAt_iff, hafter]
    exact hpart
  · rw [hbefore]
    exact hother

/-! ### Quoted strings -/

/-- Every newline is bare or escaped. -/
theorem count_newlines (text : List Char) : ∀ escaped : Bool,
    text.count '\n' = bareNewlines escaped text + escapedNewlines escaped text := by
  induction text with
  | nil =>
      intro escaped
      cases escaped <;> rfl
  | cons char text ih =>
      intro escaped
      cases escaped with
      | true =>
          rw [bareNewlines, escapedNewlines, List.count_cons, ih false]
          simp only [beq_iff_eq]
          omega
      | false =>
          by_cases hchar : char = '\\'
          · rw [bareNewlines, escapedNewlines, if_pos hchar, if_pos hchar, ← ih true, hchar]
            exact List.count_cons_of_ne (by decide)
          · rw [bareNewlines, escapedNewlines, if_neg hchar, if_neg hchar, List.count_cons,
              ih false]
            simp only [beq_iff_eq]
            omega

theorem quotedEnd_index (quote : Char) (rest : List Char) :
    ∀ (escaped : Bool) {cursor other : QuoteCursor}, cursor.index = other.index →
      (quotedEnd quote escaped rest cursor).index = (quotedEnd quote escaped rest other).index := by
  induction rest with
  | nil =>
      intro escaped cursor other hindex
      cases escaped <;> exact hindex
  | cons char rest ih =>
      intro escaped cursor other hindex
      have hnext : cursor.index + 1 = other.index + 1 := congrArg (· + 1) hindex
      cases escaped with
      | true => exact ih false hnext
      | false =>
          rw [quotedEnd, quotedEnd]
          split
          · exact ih true hnext
          · split
            · exact hnext
            · split
              · exact ih false hnext
              · exact ih false hnext

/-- What the loop over a quoted string does with the characters it takes. -/
structure Quotes (quote : Char) (escaped : Bool) (rest : List Char) (cursor final : QuoteCursor)
    (length : Nat) : Prop where
  length_le : length ≤ rest.length
  index : final.index = cursor.index + length
  line : final.line = cursor.line + bareNewlines escaped (rest.take length)
  lineStart : cursor.lineStart ≤ cursor.index → final.lineStart ≤ final.index
  ended : length < rest.length → ∃ last, length = last + 1 ∧ rest[last]? = some quote ∧
    (cursor.lineStart ≤ cursor.index → final.lineStart ≤ cursor.index + last)

theorem quotedEnd_quotes {quote : Char} (hnewline : quote ≠ '\n')
    (rest : List Char) : ∀ (escaped : Bool) (cursor : QuoteCursor), ∃ length,
      Quotes quote escaped rest cursor (quotedEnd quote escaped rest cursor) length := by
  induction rest with
  | nil =>
      intro escaped cursor
      exact ⟨0, Nat.le_refl 0, by cases escaped <;> rfl, by cases escaped <;> rfl,
        by cases escaped <;> exact id, nofun⟩
  | cons char rest ih =>
      intro escaped cursor
      have hnext (lineStart line : Nat) (later : Bool) (counted : Nat)
          (hline : line = cursor.line + counted)
          (hstart : cursor.lineStart ≤ cursor.index → lineStart ≤ cursor.index + 1)
          (hcounted : ∀ chars, bareNewlines escaped (char :: chars) =
            counted + bareNewlines later chars) :
          ∃ length, Quotes quote escaped (char :: rest) cursor
            (quotedEnd quote later rest ⟨cursor.index + 1, line, lineStart⟩) length := by
        obtain ⟨length, hquotes⟩ := ih later ⟨cursor.index + 1, line, lineStart⟩
        refine ⟨length + 1, Nat.succ_le_succ hquotes.length_le, ?_, ?_,
          fun hcursor => hquotes.lineStart (hstart hcursor), ?_⟩
        · rw [hquotes.index]
          dsimp only
          omega
        · rw [hquotes.line, List.take_succ_cons, hcounted]
          dsimp only
          omega
        · intro hlength
          obtain ⟨last, rfl, hlast, hbefore⟩ := hquotes.ended (Nat.lt_of_succ_lt_succ hlength)
          refine ⟨last + 1, rfl, hlast, ?_⟩
          intro hcursor
          have hline := hbefore (hstart hcursor)
          dsimp only at hline
          omega
      have hstays : cursor.lineStart ≤ cursor.index → cursor.lineStart ≤ cursor.index + 1 := by
        omega
      cases escaped with
      | true =>
          exact hnext cursor.lineStart cursor.line false 0 rfl hstays fun _ => by
            simp [bareNewlines]
      | false =>
          rw [quotedEnd]
          by_cases hbackslash : char = '\\'
          · rw [if_pos hbackslash]
            apply hnext cursor.lineStart cursor.line true 0 rfl hstays
            intro chars
            rw [bareNewlines, if_pos hbackslash, Nat.zero_add]
          · rw [if_neg hbackslash]
            by_cases hquote : char = quote
            · rw [if_pos hquote]
              refine ⟨1, Nat.succ_le_succ (Nat.zero_le _), rfl, ?_, fun hcursor => hstays hcursor,
                ?_⟩
              · subst hquote
                rw [List.take_succ_cons, bareNewlines, if_neg hbackslash, if_neg hnewline]
                rfl
              · intro _
                exact ⟨0, rfl, by rw [hquote]; rfl, fun hcursor => hcursor⟩
            · rw [if_neg hquote]
              by_cases hchar : char = '\n'
              · rw [if_pos hchar]
                apply hnext (cursor.index + 1) (cursor.line + 1) false 1 rfl fun _ => Nat.le_refl _
                intro chars
                rw [bareNewlines, if_neg hbackslash, if_pos hchar]
              · rw [if_neg hchar]
                apply hnext cursor.lineStart cursor.line false 0 rfl hstays
                intro chars
                rw [bareNewlines, if_neg hbackslash, if_neg hchar]

/-! ### Where pieces end -/

section Ends

variable {text : List Char} {start : Nat} {char : Char}

/-- The index is behind a newline, or behind the text. -/
def LineEnd (text : List Char) (stop : Nat) : Prop :=
  stop = text.length ∨ ∃ last, stop = last + 1 ∧ text[last]? = some '\n'

theorem newline_of_find {newline : Nat} (hfound : find text ['\n'] start = some newline) :
    text[newline]? = some '\n' :=
  @getElem?_of_startsAt _ _ _ 0 _ (find_eq_some hfound).2.1 rfl

theorem directiveEnd_of_ge {fuel stop : Nat} (hstop : text.length ≤ stop) :
    directiveEnd text start fuel stop = stop := by
  cases fuel with
  | zero => rfl
  | succ fuel => rw [directiveEnd, if_neg (by omega)]

/-- The loop takes a round for each newline at most, so fuel beyond the rest of the text changes
nothing. -/
theorem directiveEnd_succ {fuel stop : Nat} (hfuel : text.length ≤ stop + fuel) :
    directiveEnd text start (fuel + 1) stop = directiveEnd text start fuel stop := by
  induction fuel generalizing stop with
  | zero =>
      have hstop : text.length ≤ stop := hfuel
      rw [directiveEnd_of_ge hstop, directiveEnd_of_ge hstop]
  | succ fuel ih =>
      rw [directiveEnd, directiveEnd]
      cases hfound : find text ['\n'] stop with
      | none => rfl
      | some newline =>
          have hforward := (find_eq_some hfound).1
          dsimp only
          rw [ih (by omega)]

/-- **The length of the text is fuel enough**: with it, the loop of the source is all there is. -/
theorem directiveEnd_eq {stop : Nat} (hstop : stop < text.length) :
    directiveEnd text start text.length stop =
      (find text ['\n'] stop).elim text.length fun newline =>
        if slashCount text start newline % 2 = 0 then newline + 1
        else directiveEnd text start text.length (newline + 1) := by
  obtain ⟨fuel, hlength⟩ := Nat.exists_eq_add_one_of_ne_zero (Nat.ne_zero_of_lt hstop)
  rw [hlength, directiveEnd, if_pos (hlength ▸ hstop)]
  cases hfound : find text ['\n'] stop with
  | none => exact hlength
  | some newline =>
      dsimp only [Option.elim_some]
      rw [directiveEnd_succ (by omega)]

theorem directiveEnd_spec {stop : Nat} (hstop : stop < text.length) :
    stop < directiveEnd text start text.length stop ∧
      directiveEnd text start text.length stop ≤ text.length ∧
      LineEnd text (directiveEnd text start text.length stop) := by
  induction hrest : text.length - stop using Nat.strong_induction_on generalizing stop with
  | _ rest ih =>
      rw [directiveEnd_eq hstop]
      cases hfound : find text ['\n'] stop with
      | none => exact ⟨hstop, Nat.le_refl _, .inl rfl⟩
      | some newline =>
          have hnewline := newline_of_find hfound
          have hlength : newline + 1 ≤ text.length := (List.getElem?_eq_some_iff.mp hnewline).1
          have hforward := (find_eq_some hfound).1
          dsimp only [Option.elim_some]
          split
          · exact ⟨by omega, hlength, .inr ⟨newline, rfl, hnewline⟩⟩
          · rcases Nat.lt_or_eq_of_le hlength with hmore | hlast
            · obtain ⟨hbeyond, hbound, hend⟩ :=
                ih (text.length - (newline + 1)) (by omega) hmore rfl
              exact ⟨by omega, hbound, hend⟩
            · rw [directiveEnd_of_ge hlast.ge]
              exact ⟨by omega, hlength, .inl hlast⟩

theorem slice_append {middle stop : Nat} (hfirst : start ≤ middle) (hnext : middle ≤ stop)
    (hstop : stop ≤ text.length) :
    slice text start stop = slice text start middle ++ slice text middle stop := by
  rw [slice, take_eq_append_slice hnext, List.drop_append_of_le_length]
  · rfl
  · rw [List.length_take]
    omega

theorem count_slice_of_startsAt {part : List Char} (hstarts : startsAt text part start = true)
    (hnewline : '\n' ∉ part) : (slice text start (start + part.length)).count '\n' = 0 := by
  obtain ⟨rest, hrest⟩ := startsAt_iff.mp hstarts
  rw [slice_eq_take_drop, ← hrest, Nat.add_sub_cancel_left, List.take_left]
  exact List.count_eq_zero.mpr hnewline

/-- A line comment has no newline in it. -/
theorem lineCommentEnd_spec (hstarts : startsAt text ['/', '/'] start = true) :
    start < CppLexer.lineCommentEnd text start ∧
      CppLexer.lineCommentEnd text start ≤ text.length ∧
      (slice text start (CppLexer.lineCommentEnd text start)).count '\n' = 0 := by
  have hlength : start + 2 ≤ text.length := length_le_of_startsAt (List.cons_ne_nil _ _) hstarts
  have hopener := count_slice_of_startsAt hstarts (by decide)
  change (slice text start (start + 2)).count '\n' = 0 at hopener
  rw [CppLexer.lineCommentEnd]
  cases hfound : find text ['\n'] (start + 2) with
  | none =>
      have hnone : '\n' ∉ slice text (start + 2) text.length := by
        rw [slice, List.take_length]
        exact findFrom_eq_none hfound
      rw [Option.getD_none, slice_append (by omega) hlength (Nat.le_refl _), List.count_append,
        hopener, List.count_eq_zero.mpr hnone]
      exact ⟨by omega, Nat.le_refl _, rfl⟩
  | some newline =>
      obtain ⟨hforward, _, hother⟩ := find_eq_some hfound
      have hbound := (List.getElem?_eq_some_iff.mp (newline_of_find hfound)).1
      rw [Option.getD_some, slice_append (by omega) hforward (by omega), List.count_append, hopener,
        List.count_eq_zero.mpr (hother '\n' rfl)]
      exact ⟨by omega, by omega, rfl⟩

/-- The text is at its end, or the character before is no space and belongs to the piece. -/
def Closed (text : List Char) (start stop : Nat) : Prop :=
  stop = text.length ∨
    ∃ last char, stop = last + 1 ∧ start ≤ last ∧ text[last]? = some char ∧ isSpace char = false

theorem blockCommentEnd_spec (hstarts : startsAt text ['/', '*'] start = true) :
    start < CppLexer.blockCommentEnd text start ∧
      CppLexer.blockCommentEnd text start ≤ text.length ∧
      Closed text start (CppLexer.blockCommentEnd text start) := by
  have hlength : start + 2 ≤ text.length := length_le_of_startsAt (List.cons_ne_nil _ _) hstarts
  rw [CppLexer.blockCommentEnd]
  cases hfound : find text ['*', '/'] (start + 2) with
  | none => exact ⟨by dsimp only; omega, Nat.le_refl _, .inl rfl⟩
  | some marker =>
      obtain ⟨hforward, hmarker, _⟩ := find_eq_some hfound
      have hbound := length_le_of_startsAt (List.cons_ne_nil _ _) hmarker
      have hlast : text[marker + 1]? = some '/' := getElem?_of_startsAt hmarker rfl
      change marker + 2 ≤ text.length at hbound
      exact ⟨by dsimp only; omega, hbound, .inr ⟨marker + 1, '/', rfl, by omega, hlast, by decide⟩⟩

theorem rawStringEnd_spec {stop : Nat} (hend : rawStringEnd text start = some stop) :
    start < stop ∧ stop ≤ text.length ∧ Closed text start stop := by
  rw [rawStringEnd] at hend
  obtain ⟨opener, hopener, hend⟩ := Option.bind_eq_some_iff.mp hend
  obtain ⟨opening, hopening, hend⟩ := Option.bind_eq_some_iff.mp hend
  have hmem := List.mem_of_find?_eq_some hopener
  have hstarts : startsAt text opener start = true :=
    @List.find?_some _ (fun candidate => startsAt text candidate start) _ _ hopener
  have hnonempty : opener ≠ [] := by
    rintro rfl
    revert hmem
    decide
  have hpositive := List.length_pos_iff.mpr hnonempty
  have hlength := length_le_of_startsAt hnonempty hstarts
  have hforward : start + opener.length ≤ opening := (find_eq_some hopening).1
  dsimp only at hend
  split at hend
  · cases hend
  · cases hfound : find text (')' :: (slice text (start + opener.length) opening ++ ['"']))
        (opening + 1) with
    | none =>
        rw [hfound] at hend
        obtain rfl := Option.some.inj hend
        exact ⟨by omega, Nat.le_refl _, .inl rfl⟩
    | some closing =>
        rw [hfound] at hend
        obtain rfl := Option.some.inj hend
        obtain ⟨hbeyond, hterminator, _⟩ := find_eq_some hfound
        have hbound := length_le_of_startsAt (List.cons_ne_nil _ _) hterminator
        have hlast : text[closing +
            ((slice text (start + opener.length) opening).length + 1)]? = some '"' := by
          apply getElem?_of_startsAt hterminator
          rw [List.getElem?_cons_succ, List.getElem?_append_right (Nat.le_refl _), Nat.sub_self]
          rfl
        rw [List.length_cons, List.length_append, List.length_singleton] at hbound ⊢
        refine ⟨by omega, hbound, .inr ⟨closing +
          ((slice text (start + opener.length) opening).length + 1), '"', by omega, by omega, hlast,
          by decide⟩⟩

/-- An identifier has no newline in it. -/
theorem identifierEnd_spec (alphabet : Alphabet) (hchar : text[start]? = some char)
    (hnewline : char ≠ '\n') :
    start < CppLexer.identifierEnd alphabet text start ∧
      CppLexer.identifierEnd alphabet text start ≤ text.length ∧
      (slice text start (CppLexer.identifierEnd alphabet text start)).count '\n' = 0 := by
  have hlength := (List.getElem?_eq_some_iff.mp hchar).1
  have hword := (List.takeWhile_prefix (l := text.drop (start + 1))
    fun char => alphabet.isAlnum char || char = '_').length_le
  rw [List.length_drop] at hword
  rw [CppLexer.identifierEnd]
  refine ⟨by omega, by omega, ?_⟩
  rw [slice_append (Nat.le_succ start) (Nat.le_add_right ..) (by omega), List.count_append,
    slice_succ (Nat.le_refl start) hchar, slice_self, slice_eq_take_drop, Nat.add_sub_cancel_left]
  have htake := List.prefix_iff_eq_take.mp (List.takeWhile_prefix (l := text.drop (start + 1))
    fun char => alphabet.isAlnum char || char = '_')
  rw [← htake, List.nil_append, List.count_eq_zero.mpr (by simpa using hnewline.symm),
    Nat.zero_add, List.count_eq_zero]
  intro hmem
  have hpart := List.mem_takeWhile_imp hmem
  rw [alphabet.newline] at hpart
  exact absurd hpart (by decide)

theorem punctuation_spec (hchar : text[start]? = some char) (hnewline : char ≠ '\n') :
    start < start + (CppLexer.punctuation text start char).length ∧
      start + (CppLexer.punctuation text start char).length ≤ text.length ∧
      (slice text start (start + (CppLexer.punctuation text start char).length)).count '\n' =
        0 := by
  rw [CppLexer.punctuation]
  cases hfound : CppLexer.punctuators.find? fun candidate => startsAt text candidate start with
  | none =>
      rw [Option.getD_none, List.length_singleton, slice_succ (Nat.le_refl start) hchar, slice_self]
      exact ⟨Nat.lt_succ_self start, (List.getElem?_eq_some_iff.mp hchar).1,
        List.count_eq_zero.mpr (by simpa using hnewline.symm)⟩
  | some part =>
      have hmem := List.mem_of_find?_eq_some hfound
      have hstarts : startsAt text part start = true :=
        @List.find?_some _ (fun candidate => startsAt text candidate start) _ _ hfound
      have hall : ∀ part ∈ CppLexer.punctuators, part ≠ [] ∧ '\n' ∉ part := by decide
      have hpart := hall part hmem
      have hpositive := List.length_pos_iff.mpr hpart.1
      exact ⟨by rw [Option.getD_some]; omega, length_le_of_startsAt hpart.1 hstarts,
        count_slice_of_startsAt hstarts hpart.2⟩

end Ends

/-! ### One piece -/

section Kinds

variable {kind : PieceKind}

theorem Piece.bare_of_ne (hkind : kind ≠ .quotedString) (start stop : Nat) (text : List Char) :
    (Piece.mk kind start stop).bare text = 0 := by
  rw [bare, quoted, if_neg hkind, bareNewlines]

theorem Piece.escaped_of_ne (hkind : kind ≠ .quotedString) (start stop : Nat) (text : List Char) :
    (Piece.mk kind start stop).escaped text = 0 := by
  rw [escaped, quoted, if_neg hkind, escapedNewlines]

theorem Piece.recorded_of_ne
    (hkind : kind ≠ .newline ∧ kind ≠ .space ∧ kind ≠ .blockComment) (start stop : Nat) :
    (Piece.mk kind start stop).Recorded :=
  hkind

end Kinds

namespace CppLexer

/-- The lexer takes a piece, and leaves the line blank or not. -/
structure Advances (lexer next : CppLexer) (piece : Piece) (blank : Bool) : Prop where
  text : next.text = lexer.text
  start : piece.start = lexer.index
  index : next.index = piece.end_
  forward : lexer.index < piece.end_
  bound : piece.end_ ≤ lexer.text.length
  lineStart : next.lineStart ≤ next.index
  blank : next.index < lexer.text.length → next.lineBlank = blank
  line : next.line + piece.escaped lexer.text =
    lexer.line + (slice lexer.text lexer.index piece.end_).count '\n'
  accounted : ∀ mark ∈ next.marks, mark ∈ lexer.marks ∨
    piece.Recorded ∧ mark = (piece.start, lexer.line + piece.bare lexer.text)
  kept : ∀ mark ∈ lexer.marks, mark ∈ next.marks
  recorded : piece.Recorded →
    (piece.start, lexer.line + piece.bare lexer.text) ∈ next.marks

variable {lexer : CppLexer} {char : Char} {alphabet : Alphabet}

theorem lt_length (hchar : lexer.text[lexer.index]? = some char) :
    lexer.index < lexer.text.length :=
  (List.getElem?_eq_some_iff.mp hchar).1

theorem advances_newline (hchar : lexer.text[lexer.index]? = some '\n') :
    Advances lexer
      { lexer with line := lexer.line + 1, lineStart := lexer.index + 1, index := lexer.index + 1 }
      ⟨.newline, lexer.index, lexer.index + 1⟩ true where
  text := rfl
  start := rfl
  index := rfl
  forward := Nat.lt_succ_self _
  bound := lt_length hchar
  lineStart := Nat.le_refl _
  blank _ := by
    rw [lineBlank_eq, slice_self]
    rfl
  line := by
    rw [Piece.escaped_of_ne (by decide), slice_succ (Nat.le_refl _) hchar, slice_self]
    rfl
  accounted mark hmark := .inl hmark
  kept mark hmark := hmark
  recorded hrecorded := absurd rfl hrecorded.1

theorem advances_space {blank : Bool} (hchar : lexer.text[lexer.index]? = some char)
    (hnewline : char ≠ '\n') (hspace : isSpace char = true)
    (hstart : lexer.lineStart ≤ lexer.index) (hblank : lexer.lineBlank = blank) :
    Advances lexer { lexer with index := lexer.index + 1 }
      ⟨.space, lexer.index, lexer.index + 1⟩ blank where
  text := rfl
  start := rfl
  index := rfl
  forward := Nat.lt_succ_self _
  bound := lt_length hchar
  lineStart := Nat.le_succ_of_le hstart
  blank _ := by
    rw [← hblank, lineBlank_eq, lineBlank_eq, slice_succ hstart hchar, List.all_append]
    simp [hspace]
  line := by
    rw [Piece.escaped_of_ne (by decide), slice_succ (Nat.le_refl _) hchar, slice_self]
    simp [hnewline]
  accounted mark hmark := .inl hmark
  kept mark hmark := hmark
  recorded hrecorded := absurd rfl hrecorded.2.1

/-- A piece without newlines on a line that is not blank behind it. -/
theorem advances_word {kind : PieceKind} {stop : Nat} {next : CppLexer}
    (hchar : lexer.text[lexer.index]? = some char) (hspace : isSpace char = false)
    (hstart : lexer.lineStart ≤ lexer.index) (hforward : lexer.index < stop)
    (hbound : stop ≤ lexer.text.length)
    (hcount : (slice lexer.text lexer.index stop).count '\n' = 0)
    (hkind : kind ≠ .quotedString)
    (hrecorded : kind ≠ .newline ∧ kind ≠ .space ∧ kind ≠ .blockComment)
    (htext : next.text = lexer.text) (hindex : next.index = stop) (hline : next.line = lexer.line)
    (hlineStart : next.lineStart = lexer.lineStart)
    (hmarks : ∀ mark, mark ∈ next.marks ↔ mark ∈ lexer.marks ∨ mark = (lexer.index, lexer.line)) :
    Advances lexer next ⟨kind, lexer.index, stop⟩ false where
  text := htext
  start := rfl
  index := hindex
  forward := hforward
  bound := hbound
  lineStart := by omega
  blank _ := by
    apply @not_lineBlank next lexer.index char
    · rw [htext]
      exact hchar
    · exact hspace
    · omega
    · omega
  line := by
    rw [Piece.escaped_of_ne hkind, hcount, hline]
  accounted mark hmark := by
    rw [Piece.bare_of_ne hkind, Nat.add_zero]
    exact ((hmarks mark).mp hmark).imp_right fun hnew => ⟨hrecorded, hnew⟩
  kept mark hmark := (hmarks mark).mpr (.inl hmark)
  recorded _ := by
    rw [Piece.bare_of_ne hkind, Nat.add_zero]
    exact (hmarks _).mpr (.inr rfl)

theorem advances_lineComment (hchar : lexer.text[lexer.index]? = some char)
    (hspace : isSpace char = false) (hstart : lexer.lineStart ≤ lexer.index)
    (hstarts : startsAt lexer.text ['/', '/'] lexer.index = true) :
    Advances lexer lexer.consumeLineComment
      ⟨.lineComment, lexer.index, lineCommentEnd lexer.text lexer.index⟩ false := by
  obtain ⟨hforward, hbound, hcount⟩ := lineCommentEnd_spec hstarts
  apply advances_word hchar hspace hstart hforward hbound hcount
  · decide
  · decide
  · rfl
  · rfl
  · rfl
  · rfl
  · intro mark
    simp only [marks, consumeLineComment, List.map_append, List.map_cons, List.map_nil,
      List.mem_append, List.mem_singleton]
    tauto

theorem advances_identifier (hchar : lexer.text[lexer.index]? = some char)
    (hspace : isSpace char = false) (hnewline : char ≠ '\n')
    (hstart : lexer.lineStart ≤ lexer.index) :
    Advances lexer (lexer.consumeIdentifier alphabet)
      ⟨.identifier, lexer.index, identifierEnd alphabet lexer.text lexer.index⟩ false := by
  obtain ⟨hforward, hbound, hcount⟩ := identifierEnd_spec alphabet hchar hnewline
  apply advances_word hchar hspace hstart hforward hbound hcount
  · decide
  · decide
  · rfl
  · rfl
  · rfl
  · rfl
  · intro mark
    simp only [marks, consumeIdentifier, token, List.map_append, List.map_cons, List.map_nil,
      List.mem_append, List.mem_singleton]
    tauto

theorem advances_punctuation (hchar : lexer.text[lexer.index]? = some char)
    (hspace : isSpace char = false) (hnewline : char ≠ '\n')
    (hstart : lexer.lineStart ≤ lexer.index) :
    Advances lexer (lexer.consumePunctuation char)
      ⟨.punctuation, lexer.index, lexer.index + (punctuation lexer.text lexer.index char).length⟩
      false := by
  obtain ⟨hforward, hbound, hcount⟩ := punctuation_spec hchar hnewline
  apply advances_word hchar hspace hstart hforward hbound hcount
  · decide
  · decide
  · rfl
  · rfl
  · rfl
  · rfl
  · intro mark
    simp only [marks, consumePunctuation, token, List.map_append, List.map_cons, List.map_nil,
      List.mem_append, List.mem_singleton]
    tauto

/-- A piece whose newlines are all counted. -/
theorem advances_counted {kind : PieceKind} {stop : Nat} {next : CppLexer} {blank : Bool}
    (hstart : lexer.lineStart ≤ lexer.index) (hforward : lexer.index < stop)
    (hbound : stop ≤ lexer.text.length) (hkind : kind ≠ .quotedString)
    (htext : next.text = lexer.text) (hindex : next.index = stop)
    (hline : (next.line, next.lineStart) =
      consumeNewlines lexer.text lexer.index stop lexer.line lexer.lineStart)
    (hblank : stop < lexer.text.length → next.lineBlank = blank)
    (hmarks : ∀ mark, mark ∈ next.marks ↔ mark ∈ lexer.marks ∨
      (Piece.mk kind lexer.index stop).Recorded ∧ mark = (lexer.index, lexer.line)) :
    Advances lexer next ⟨kind, lexer.index, stop⟩ blank where
  text := htext
  start := rfl
  index := hindex
  forward := hforward
  bound := hbound
  lineStart := by
    have hlineStart : next.lineStart =
        (consumeNewlines lexer.text lexer.index stop lexer.line lexer.lineStart).2 :=
      congrArg Prod.snd hline
    rw [hlineStart, hindex]
    exact consumeNewlines_lineStart hstart hforward.le hbound
  blank hless := hblank (hindex ▸ hless)
  line := by
    have hcounted : next.line =
        (consumeNewlines lexer.text lexer.index stop lexer.line lexer.lineStart).1 :=
      congrArg Prod.fst hline
    rw [Piece.escaped_of_ne hkind, hcounted, consumeNewlines_line, Nat.add_zero]
  accounted mark hmark := by
    rw [Piece.bare_of_ne hkind, Nat.add_zero]
    exact (hmarks mark).mp hmark
  kept mark hmark := (hmarks mark).mpr (.inl hmark)
  recorded hrecorded := by
    rw [Piece.bare_of_ne hkind, Nat.add_zero]
    exact (hmarks _).mpr (.inr ⟨hrecorded, rfl⟩)

/-- Behind a piece that ends with a solid character the line is not blank. -/
theorem not_lineBlank_of_closed {stop : Nat} {next : CppLexer}
    (hstart : lexer.lineStart ≤ lexer.index) (htext : next.text = lexer.text)
    (hindex : next.index = stop)
    (hline : (next.line, next.lineStart) =
      consumeNewlines lexer.text lexer.index stop lexer.line lexer.lineStart)
    (hclosed : Closed lexer.text lexer.index stop) (hstop : stop < lexer.text.length) :
    next.lineBlank = false := by
  rcases hclosed with hend | ⟨last, char, hlast, hle, hchar, hspace⟩
  · omega
  · have hsolid : char ≠ '\n' := by
      rintro rfl
      exact absurd hspace (by decide)
    have hconcat := @consumeNewlines_concat lexer.text lexer.index last lexer.line lexer.lineStart
      char hstart hle hchar
    rw [if_neg hsolid, ← hlast, ← hline] at hconcat
    apply @not_lineBlank next last char
    · rw [htext]
      exact hchar
    · exact hspace
    · exact hconcat
    · omega

theorem advances_directive (hchar : lexer.text[lexer.index]? = some char)
    (hstart : lexer.lineStart ≤ lexer.index) :
    Advances lexer lexer.consumeDirective
      ⟨.directive, lexer.index,
        directiveEnd lexer.text lexer.index lexer.text.length lexer.index⟩ true := by
  obtain ⟨hforward, hbound, hlast⟩ := directiveEnd_spec (lt_length hchar)
  apply advances_counted hstart hforward hbound
  · decide
  · rfl
  · rfl
  · rfl
  · intro hstop
    rcases hlast with hend | ⟨last, hlast, hnewline⟩
    · omega
    · have hconcat := @consumeNewlines_concat lexer.text lexer.index last lexer.line lexer.lineStart
        '\n' hstart (by omega) hnewline
      rw [if_pos rfl, ← hlast] at hconcat
      rw [lineBlank_eq]
      change (slice lexer.text (consumeNewlines _ _ _ _ _).2 _).all isSpace = true
      rw [hconcat]
      exact congrArg (List.all · isSpace) (slice_self ..)
  · intro mark
    have hrecorded : (Piece.mk .directive lexer.index
        (directiveEnd lexer.text lexer.index lexer.text.length lexer.index)).Recorded :=
      Piece.recorded_of_ne (by decide) ..
    simp only [marks, consumeDirective, List.map_append, List.map_cons, List.map_nil,
      List.mem_append, List.mem_singleton, hrecorded, true_and]
    tauto

theorem advances_blockComment (hstart : lexer.lineStart ≤ lexer.index)
    (hstarts : startsAt lexer.text ['/', '*'] lexer.index = true) :
    Advances lexer lexer.consumeBlockComment
      ⟨.blockComment, lexer.index, blockCommentEnd lexer.text lexer.index⟩ false := by
  obtain ⟨hforward, hbound, hclosed⟩ := blockCommentEnd_spec hstarts
  apply advances_counted hstart hforward hbound
  · decide
  · rfl
  · rfl
  · rfl
  · exact not_lineBlank_of_closed hstart rfl rfl rfl hclosed
  · intro mark
    constructor
    · exact .inl
    · rintro (hmark | ⟨hrecorded, _⟩)
      · exact hmark
      · exact absurd rfl hrecorded.2.2

theorem advances_rawString {stop : Nat} (hstart : lexer.lineStart ≤ lexer.index)
    (hend : rawStringEnd lexer.text lexer.index = some stop) :
    Advances lexer (lexer.consumeRawString stop) ⟨.rawString, lexer.index, stop⟩ false := by
  obtain ⟨hforward, hbound, hclosed⟩ := rawStringEnd_spec hend
  apply advances_counted hstart hforward hbound
  · decide
  · rfl
  · rfl
  · rfl
  · exact not_lineBlank_of_closed hstart rfl rfl rfl hclosed
  · intro mark
    have hrecorded : (Piece.mk .rawString lexer.index stop).Recorded :=
      Piece.recorded_of_ne (by decide) ..
    simp only [marks, consumeRawString, token, List.map_append, List.map_cons, List.map_nil,
      List.mem_append, List.mem_singleton, hrecorded, true_and]
    tauto

theorem advances_quotedString {quote : Char} (hchar : lexer.text[lexer.index]? = some quote)
    (hquote : quote = '"' ∨ quote = '\'') (hstart : lexer.lineStart ≤ lexer.index) :
    Advances lexer (lexer.consumeQuotedString quote)
      ⟨.quotedString, lexer.index, quotedStringEnd lexer.text lexer.index quote⟩ false := by
  have hnewline : quote ≠ '\n' := by
    rcases hquote with rfl | rfl <;> decide
  have hspace : isSpace quote = false := by
    rcases hquote with rfl | rfl <;> decide
  have hlength := lt_length hchar
  obtain ⟨length, hquotes⟩ := quotedEnd_quotes hnewline (lexer.text.drop (lexer.index + 1)) false
    ⟨lexer.index + 1, lexer.line, lexer.lineStart⟩
  have hend : quotedStringEnd lexer.text lexer.index quote = lexer.index + 1 + length :=
    (@quotedEnd_index quote _ false ⟨lexer.index + 1, 0, 0⟩
      ⟨lexer.index + 1, lexer.line, lexer.lineStart⟩ rfl).trans hquotes.index
  have hrest : (lexer.text.drop (lexer.index + 1)).length =
      lexer.text.length - (lexer.index + 1) := List.length_drop
  have hlength_le := hquotes.length_le
  have hquoted : (Piece.mk .quotedString lexer.index (lexer.index + 1 + length)).quoted lexer.text =
      (lexer.text.drop (lexer.index + 1)).take length := by
    rw [Piece.quoted, if_pos rfl, slice_eq_take_drop, Nat.add_sub_cancel_left]
  have hmarks : ∀ mark, mark ∈ (lexer.consumeQuotedString quote).marks ↔ mark ∈ lexer.marks ∨
      mark = (lexer.index, (lexer.consumeQuotedString quote).line) := by
    intro mark
    simp only [marks, consumeQuotedString, token, List.map_append, List.map_cons, List.map_nil,
      List.mem_append, List.mem_singleton]
    tauto
  have hline : (lexer.consumeQuotedString quote).line = lexer.line +
      (Piece.mk .quotedString lexer.index (lexer.index + 1 + length)).bare lexer.text := by
    rw [Piece.bare, hquoted]
    exact hquotes.line
  rw [hend]
  exact {
    text := rfl
    start := rfl
    index := hquotes.index
    forward := by dsimp only; omega
    bound := by dsimp only; omega
    lineStart := hquotes.lineStart (Nat.le_succ_of_le hstart)
    blank := by
      intro hless
      have hindex : (lexer.consumeQuotedString quote).index = lexer.index + 1 + length :=
        hquotes.index
      rw [hindex] at hless
      obtain ⟨last, rfl, hlast, hbefore⟩ := hquotes.ended (by omega)
      rw [List.getElem?_drop] at hlast
      exact @not_lineBlank (lexer.consumeQuotedString quote) (lexer.index + 1 + last) quote hlast
        hspace (hbefore (Nat.le_succ_of_le hstart)) (by omega)
    line := by
      have hcontent := count_newlines ((lexer.text.drop (lexer.index + 1)).take length) false
      rw [hline, Piece.bare, Piece.escaped, hquoted, Nat.add_assoc, ← hcontent,
        slice_append (Nat.le_succ lexer.index) (Nat.le_add_right _ _) (by omega), List.count_append,
        slice_succ (Nat.le_refl _) hchar, slice_self, slice_eq_take_drop, Nat.add_sub_cancel_left]
      simp [hnewline]
    accounted := by
      intro mark hmark
      rcases (hmarks mark).mp hmark with hold | rfl
      · exact .inl hold
      · exact .inr ⟨Piece.recorded_of_ne (by decide) .., by rw [hline]⟩
    kept := fun mark hmark => (hmarks mark).mpr (.inl hmark)
    recorded := by
      intro _
      rw [← hline]
      exact (hmarks _).mpr (.inr rfl) }

/-- **One round of the lexer** takes the piece that the layout has there. -/
theorem advances (hchar : lexer.text[lexer.index]? = some char)
    (hstart : lexer.lineStart ≤ lexer.index) :
    Advances lexer (lexer.consumeTokenOrTrivia alphabet char)
      (pieceAt alphabet lexer.text lexer.lineBlank lexer.index char)
      ((pieceAt alphabet lexer.text lexer.lineBlank lexer.index char).leavesBlank
        lexer.lineBlank) := by
  rw [consumeTokenOrTrivia, pieceAt]
  by_cases hnewline : char = '\n'
  · rw [if_pos hnewline, if_pos hnewline]
    exact advances_newline (hnewline ▸ hchar)
  rw [if_neg hnewline, if_neg hnewline]
  by_cases hspace : isSpace char = true
  · rw [if_pos hspace, if_pos hspace]
    exact advances_space hchar hnewline hspace hstart rfl
  rw [if_neg hspace, if_neg hspace]
  have hsolid : isSpace char = false := by simpa using hspace
  by_cases hdirective : (char = '#' && lexer.lineBlank) = true
  · rw [if_pos hdirective, if_pos hdirective]
    exact advances_directive hchar hstart
  rw [if_neg hdirective, if_neg hdirective]
  by_cases hline : startsAt lexer.text ['/', '/'] lexer.index = true
  · rw [if_pos hline, if_pos hline]
    exact advances_lineComment hchar hsolid hstart hline
  rw [if_neg hline, if_neg hline]
  by_cases hblock : startsAt lexer.text ['/', '*'] lexer.index = true
  · rw [if_pos hblock, if_pos hblock]
    exact advances_blockComment hstart hblock
  rw [if_neg hblock, if_neg hblock]
  cases hraw : rawStringEnd lexer.text lexer.index with
  | some stop => exact advances_rawString hstart hraw
  | none =>
      dsimp only
      by_cases hquote : (char = '"' || char = '\'') = true
      · rw [if_pos hquote, if_pos hquote]
        exact advances_quotedString hchar (by simpa using hquote) hstart
      rw [if_neg hquote, if_neg hquote]
      by_cases hword : (alphabet.isAlpha char || char = '_') = true
      · rw [if_pos hword, if_pos hword]
        exact advances_identifier hchar hsolid hnewline hstart
      · rw [if_neg hword, if_neg hword]
        exact advances_punctuation hchar hsolid hnewline hstart

end CppLexer

/-! ### The whole text -/

theorem escapedIn_append (text : List Char) (first next : List Piece) :
    escapedIn text (first ++ next) = escapedIn text first + escapedIn text next := by
  induction first with
  | nil => exact (Nat.zero_add _).symm
  | cons piece first ih =>
      rw [List.cons_append, escapedIn, escapedIn, ih, Nat.add_assoc]

/-- A piece of a list with one more is the last, or one of those before. -/
theorem concat_eq_append_cons {before earlier later : List Piece} {last piece : Piece} :
    before ++ [last] = earlier ++ piece :: later ↔
      (before = earlier ∧ last = piece ∧ later = []) ∨
        ∃ rest, later = rest ++ [last] ∧ before = earlier ++ piece :: rest := by
  constructor
  · intro heq
    rcases List.eq_nil_or_concat later with rfl | ⟨rest, other, rfl⟩
    · obtain ⟨rfl, hlast⟩ := List.append_inj' heq rfl
      exact .inl ⟨rfl, List.cons.inj hlast |>.1, rfl⟩
    · rw [List.concat_eq_append, ← List.cons_append, ← List.append_assoc] at heq
      obtain ⟨rfl, hlast⟩ := List.append_inj' heq rfl
      obtain rfl := List.cons.inj hlast |>.1
      exact .inr ⟨rest, List.concat_eq_append, rfl⟩
  · rintro (⟨rfl, rfl, rfl⟩ | ⟨rest, rfl, rfl⟩)
    · rfl
    · rw [List.append_assoc, List.cons_append]

namespace CppLexer

/-- A lexer that has taken pieces of the text, and its records. -/
structure Follows (text : List Char) (before : List Piece) (blank : Bool) (lexer : CppLexer) :
    Prop where
  same : lexer.text = text
  bound : lexer.index ≤ text.length
  lineStart : lexer.lineStart ≤ lexer.index
  blank : lexer.index < text.length → lexer.lineBlank = blank
  line : lexer.line + escapedIn text before = lineOf text lexer.index
  accounted : ∀ mark ∈ lexer.marks, ∃ earlier piece later,
    before = earlier ++ piece :: later ∧ piece.Recorded ∧ mark.1 = piece.start ∧
      mark.2 + escapedIn text earlier = lineOf text piece.start + piece.bare text
  recorded : ∀ earlier piece later, before = earlier ++ piece :: later → piece.Recorded →
    ∃ line, (piece.start, line) ∈ lexer.marks ∧
      line + escapedIn text earlier = lineOf text piece.start + piece.bare text

theorem follows_start (text : List Char) : Follows text [] true { text := text } where
  same := rfl
  bound := Nat.zero_le _
  lineStart := Nat.le_refl _
  blank _ := by
    rw [lineBlank_eq, slice_self]
    rfl
  line := rfl
  accounted mark hmark := by cases hmark
  recorded earlier piece later heq := by simp at heq

variable {text : List Char} {before : List Piece} {blank : Bool} {lexer next : CppLexer}
  {alphabet : Alphabet}

theorem Follows.advance {piece : Piece} {left : Bool} (hfollows : Follows text before blank lexer)
    (hadvances : Advances lexer next piece left) : Follows text (before ++ [piece]) left next := by
  obtain rfl := hfollows.same
  have hline := hfollows.line
  have hend := hadvances.index
  refine ⟨hadvances.text, hend ▸ hadvances.bound, hadvances.lineStart, hadvances.blank, ?_, ?_, ?_⟩
  · have hnext := hadvances.line
    rw [escapedIn_append, escapedIn, escapedIn, hend, lineOf, count_take hadvances.forward.le]
    rw [lineOf] at hline
    omega
  · intro mark hmark
    rcases hadvances.accounted mark hmark with hold | ⟨hrecorded, rfl⟩
    · obtain ⟨earlier, other, later, rfl, hother⟩ := hfollows.accounted mark hold
      exact ⟨earlier, other, later ++ [piece], by simp, hother⟩
    · refine ⟨before, piece, [], rfl, hrecorded, rfl, ?_⟩
      rw [hadvances.start]
      dsimp only
      omega
  · intro earlier other later heq hrecorded
    rcases concat_eq_append_cons.mp heq with ⟨rfl, rfl, rfl⟩ | ⟨rest, rfl, rfl⟩
    · refine ⟨_, hadvances.recorded hrecorded, ?_⟩
      rw [hadvances.start]
      omega
    · obtain ⟨line, hmark, hother⟩ := hfollows.recorded earlier other rest rfl hrecorded
      exact ⟨line, hadvances.kept _ hmark, hother⟩

/-- A run takes the pieces of the layout, and with a round for every character all of them. -/
theorem run_follows (alphabet : Alphabet) (fuel : Nat) :
    ∀ {before : List Piece} {blank : Bool} {lexer : CppLexer}, Follows text before blank lexer →
      (∃ left, Follows text (before ++ layoutFrom alphabet text fuel blank lexer.index) left
        (run alphabet fuel lexer)) ∧
      (text.length ≤ lexer.index + fuel → (run alphabet fuel lexer).index = text.length) := by
  induction fuel with
  | zero =>
      intro before blank lexer hfollows
      rw [layoutFrom, run, List.append_nil]
      exact ⟨⟨blank, hfollows⟩, fun hfuel => Nat.le_antisymm hfollows.bound hfuel⟩
  | succ fuel ih =>
      intro before blank lexer hfollows
      rw [layoutFrom, run, hfollows.same]
      cases hchar : text[lexer.index]? with
      | none =>
          have hindex := List.getElem?_eq_none_iff.mp hchar
          simp only [List.append_nil]
          exact ⟨⟨blank, hfollows⟩, fun _ => Nat.le_antisymm hfollows.bound hindex⟩
      | some char =>
          have hindex := (List.getElem?_eq_some_iff.mp hchar).1
          have hround := @advances lexer char alphabet (by rw [hfollows.same]; exact hchar)
            hfollows.lineStart
          rw [hfollows.same, hfollows.blank hindex] at hround
          obtain ⟨⟨left, hleft⟩, hend⟩ := ih (hfollows.advance hround)
          rw [hround.index] at hleft hend
          refine ⟨⟨left, ?_⟩, fun hfuel => hend ?_⟩
          · rw [List.append_assoc] at hleft
            exact hleft
          · have hforward := hround.forward
            omega

/-- The lexer takes the whole layout. -/
theorem lex_follows (alphabet : Alphabet) (text : List Char) :
    (∃ left, Follows text (layout alphabet text) left (lex alphabet text)) ∧
      (lex alphabet text).index = text.length := by
  obtain ⟨hfollows, hend⟩ := run_follows alphabet text.length (follows_start text)
  exact ⟨hfollows, hend (Nat.le_add_left _ _)⟩

/-- **The lines of the records.** All records carry the line on which they start if and only if, at
every recorded piece, the escaped newlines in the quoted strings before it are made up for by bare
newlines in the piece. -/
theorem lines_iff_calibrated (alphabet : Alphabet) (text : List Char) :
    (∀ mark ∈ (lex alphabet text).marks, mark.2 = lineOf text mark.1) ↔
      Calibrated text (layout alphabet text) := by
  obtain ⟨⟨left, hfollows⟩, _⟩ := lex_follows alphabet text
  constructor
  · intro hlines earlier piece later hlayout hrecorded
    obtain ⟨line, hmark, hline⟩ := hfollows.recorded earlier piece later hlayout hrecorded
    have hright : line = lineOf text piece.start := hlines _ hmark
    omega
  · intro hcalibrated mark hmark
    obtain ⟨earlier, piece, later, hlayout, hrecorded, hstart, hline⟩ :=
      hfollows.accounted mark hmark
    have hpiece := hcalibrated earlier piece later hlayout hrecorded
    rw [hstart]
    omega

/-- The letters and digits of ASCII. -/
def ascii : Alphabet where
  isAlpha := Char.isAlpha
  isAlnum := Char.isAlphanum
  newline := by decide

/-- Behind a string that is continued on a second line, the records are one line short. -/
theorem line_lost_behind_continuation :
    ¬ ∀ mark ∈ (lex ascii ['"', '\\', '\n', '"', 'x']).marks,
      mark.2 = lineOf ['"', '\\', '\n', '"', 'x'] mark.1 := by
  decide

end CppLexer

end SupernoteModule.Frontend
