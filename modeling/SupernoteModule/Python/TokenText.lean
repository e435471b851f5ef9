import Mathlib.Data.List.TakeWhile
import SupernoteModule.Python.Text

/-!
# Texts of words and marks

Tokens are joined by spaces, and patterns `\s*mark\s*` then take the spaces around the marks away.
What is left is one text of the tokens, from which they can be read back.
-/

namespace SupernoteModule.Python

/-- A check of every character of every text, for `decide` to go through. -/
theorem forall_chars_of_all {p : Char → Prop} [DecidablePred p] {texts : List (List Char)}
    (hall : texts.all (fun text => text.all fun char => decide (p char)) = true) :
    ∀ text ∈ texts, ∀ char ∈ text, p char := by
  intro text htext char hchar
  exact of_decide_eq_true (List.all_eq_true.mp (List.all_eq_true.mp hall text htext) char hchar)

theorem forall_chars_of_all_single {p : Char → Prop} [DecidablePred p] {text : List Char}
    (hall : text.all (fun char => decide (p char)) = true) : ∀ char ∈ text, p char := by
  intro char hchar
  exact of_decide_eq_true (List.all_eq_true.mp hall char hchar)

/-- What a token may be. A word has no space in it, and no mark shares a character with a word or
with another mark. -/
structure Lexicon where
  isWordPart : Char → Bool
  marks : List (List Char)
  spaceless : ∀ char, isSpace char → isWordPart char = false
  nonempty : ∀ mark ∈ marks, mark ≠ []
  solid : ∀ mark ∈ marks, ∀ char ∈ mark, isSpace char = false
  apart : ∀ mark ∈ marks, ∀ char ∈ mark, isWordPart char = false
  distinct : ∀ first ∈ marks, ∀ second ∈ marks, ∀ char ∈ first, char ∈ second → first = second

namespace Lexicon

variable (lexicon : Lexicon)

def IsWord (token : List Char) : Prop :=
  token ≠ [] ∧ ∀ char ∈ token, lexicon.isWordPart char

def IsToken (token : List Char) : Prop :=
  token ∈ lexicon.marks ∨ lexicon.IsWord token

end Lexicon

/-- The space behind a token, unless it or the next one is tight. -/
def gap (tight : List (List Char)) (token : List Char) : List (List Char) → List Char
  | [] => []
  | next :: _ => if tight.contains token || tight.contains next then [] else [' ']

/-- The tokens in one text, with a space between two of them where neither is tight. -/
def spaced (tight : List (List Char)) : List (List Char) → List Char
  | [] => []
  | token :: rest => token ++ (gap tight token rest ++ spaced tight rest)

/-- The text of tokens around whose marks there is no space. -/
def Lexicon.render (lexicon : Lexicon) (tokens : List (List Char)) : List Char :=
  spaced lexicon.marks tokens

variable {lexicon : Lexicon} {tight : List (List Char)} {tokens : List (List Char)}
  {token mark : List Char}

/-! ### Tokens -/

namespace Lexicon

theorem IsToken.ne_nil (htoken : lexicon.IsToken token) : token ≠ [] := by
  rcases htoken with hmark | hword
  · exact lexicon.nonempty token hmark
  · exact hword.1

theorem IsToken.solid (htoken : lexicon.IsToken token) {char : Char} (hchar : char ∈ token) :
    isSpace char = false := by
  rcases htoken with hmark | hword
  · exact lexicon.solid token hmark char hchar
  · by_contra hspace
    have hpart := lexicon.spaceless char (by simpa using hspace)
    rw [hword.2 char hchar] at hpart
    contradiction

/-- A token other than a mark shares no character with it. -/
theorem IsToken.disjoint (htoken : lexicon.IsToken token) (hmark : mark ∈ lexicon.marks)
    (hne : token ≠ mark) {char : Char} (hchar : char ∈ token) : char ∉ mark := by
  intro hmem
  rcases htoken with htoken | hword
  · exact hne (lexicon.distinct token htoken mark hmark char hchar hmem)
  · have hpart := lexicon.apart mark hmark char hmem
    rw [hword.2 char hchar] at hpart
    contradiction

theorem IsWord.not_mem_marks (hword : lexicon.IsWord token) : token ∉ lexicon.marks := by
  intro hmark
  obtain ⟨char, hchar⟩ := List.exists_mem_of_ne_nil token hword.1
  have hpart := lexicon.apart token hmark char hchar
  rw [hword.2 char hchar] at hpart
  contradiction

end Lexicon

/-! ### Spaces -/

theorem spaced_nil_eq_intercalate (tokens : List (List Char)) :
    spaced [] tokens = [' '].intercalate tokens := by
  induction tokens with
  | nil => rfl
  | cons token rest ih =>
      cases rest with
      | nil => simp [spaced, gap]
      | cons next more =>
          rw [List.intercalate_cons_cons, ← ih, spaced]
          simp [gap]

theorem spaced_congr {other : List (List Char)}
    (hsame : ∀ token, tight.contains token = other.contains token) :
    spaced tight tokens = spaced other tokens := by
  induction tokens with
  | nil => rfl
  | cons token rest ih =>
      have hgap : gap tight token rest = gap other token rest := by
        cases rest with
        | nil => rfl
        | cons next more => simp only [gap, hsame]
      rw [spaced, spaced, hgap, ih]

theorem spaced_cons_eq (tight : List (List Char)) (token : List Char) (rest : List (List Char)) :
    ∃ behind, spaced tight (token :: rest) = token ++ behind :=
  ⟨_, rfl⟩

/-- The text of tokens does not start with a space. -/
theorem dropWhile_spaced (htokens : ∀ token ∈ tokens, lexicon.IsToken token) :
    (spaced tight tokens).dropWhile isSpace = spaced tight tokens := by
  cases tokens with
  | nil => rfl
  | cons token rest =>
      have htoken := htokens token List.mem_cons_self
      obtain ⟨behind, hbehind⟩ := spaced_cons_eq tight token rest
      obtain ⟨char, more, rfl⟩ := List.exists_cons_of_ne_nil htoken.ne_nil
      rw [hbehind, List.cons_append, List.dropWhile_cons,
        htoken.solid List.mem_cons_self]
      simp

theorem dropWhile_gap {rest : List (List Char)} {text : List Char} :
    (gap tight token rest ++ text).dropWhile isSpace = text.dropWhile isSpace := by
  cases rest with
  | nil => rfl
  | cons next more =>
      have hspace : isSpace ' ' = true := by decide
      rw [gap]
      split
      · rfl
      · rw [List.singleton_append, List.dropWhile_cons, hspace]
        simp

/-! ### Substitution -/

/-- Characters that are neither spaces nor part of the mark stay. -/
theorem subAround_append {free text : List Char} (hne : mark ≠ [])
    (hfree : ∀ char ∈ free, isSpace char = false ∧ char ∉ mark) (fuel : Nat) :
    subAround mark (free.length + fuel) (free ++ text) = free ++ subAround mark fuel text := by
  induction free with
  | nil => simp
  | cons char rest ih =>
      obtain ⟨hspace, hmem⟩ := hfree char List.mem_cons_self
      obtain ⟨head, tail, rfl⟩ := List.exists_cons_of_ne_nil hne
      have hhead : (head == char) = false := by
        simpa using fun heq : head = char => hmem (heq ▸ List.mem_cons_self)
      have hlength : (char :: rest).length + fuel = rest.length + fuel + 1 := by
        simp only [List.length_cons]
        omega
      rw [hlength, List.cons_append, subAround]
      simp only [List.dropWhile_cons, hspace, Bool.false_eq_true, if_false,
        List.isPrefixOf_cons_cons, hhead, Bool.false_and]
      rw [ih fun other hother => hfree other (List.mem_cons_of_mem char hother)]
      rfl

theorem subAround_nil (fuel : Nat) : subAround mark fuel [] = [] := by
  cases fuel with
  | zero => rfl
  | succ fuel => rfl

theorem subAround_mark {text : List Char} (hne : mark ≠ [])
    (hsolid : ∀ char ∈ mark, isSpace char = false) (fuel : Nat) :
    subAround mark (fuel + 1) (mark ++ text) =
      mark ++ subAround mark fuel (text.dropWhile isSpace) := by
  obtain ⟨head, tail, rfl⟩ := List.exists_cons_of_ne_nil hne
  have hfound : (head :: (tail ++ text)).dropWhile isSpace = head :: (tail ++ text) := by
    rw [List.dropWhile_cons, hsolid head List.mem_cons_self]
    simp
  rw [List.cons_append, subAround]
  simp only [hfound]
  rw [← List.cons_append, if_pos (by simp), List.drop_left]

/-- A space in front of the mark goes with it. -/
theorem subAround_space_mark {text : List Char} (hne : mark ≠ [])
    (hsolid : ∀ char ∈ mark, isSpace char = false) (fuel : Nat) :
    subAround mark (fuel + 1) (' ' :: (mark ++ text)) =
      subAround mark (fuel + 1) (mark ++ text) := by
  have hspace : isSpace ' ' = true := by decide
  have hfound : (' ' :: (mark ++ text)).dropWhile isSpace = mark ++ text := by
    obtain ⟨head, tail, rfl⟩ := List.exists_cons_of_ne_nil hne
    rw [List.dropWhile_cons, hspace, if_pos rfl, List.cons_append, List.dropWhile_cons,
      hsolid head List.mem_cons_self]
    simp
  rw [subAround_mark hne hsolid, subAround]
  simp only [hfound]
  rw [if_pos (by simp), List.drop_left]

/-- A space in front of something else stays. -/
theorem subAround_space {text : List Char} (hne : mark ≠ []) {char : Char}
    (hspace : isSpace char = false) (hmem : char ∉ mark) (fuel : Nat) :
    subAround mark (fuel + 1) (' ' :: char :: text) =
      ' ' :: subAround mark fuel (char :: text) := by
  obtain ⟨head, tail, rfl⟩ := List.exists_cons_of_ne_nil hne
  have hblank : isSpace ' ' = true := by decide
  have hhead : (head == char) = false := by
    simpa using fun heq : head = char => hmem (heq ▸ List.mem_cons_self)
  rw [subAround]
  simp only [List.dropWhile_cons, hblank, if_true, hspace, Bool.false_eq_true, if_false,
    List.isPrefixOf_cons_cons, hhead, Bool.false_and]

/-- **The pattern takes the spaces around its mark away, and nothing else.** -/
theorem subAround_spaced (hmark : mark ∈ lexicon.marks)
    (htokens : ∀ token ∈ tokens, lexicon.IsToken token) {fuel : Nat}
    (hfuel : (spaced tight tokens).length ≤ fuel) :
    subAround mark fuel (spaced tight tokens) = spaced (mark :: tight) tokens := by
  have hne := lexicon.nonempty mark hmark
  have hsolid := lexicon.solid mark hmark
  induction tokens generalizing fuel with
  | nil => exact subAround_nil fuel
  | cons token rest ih =>
      have htoken := htokens token List.mem_cons_self
      have hrest : ∀ other ∈ rest, lexicon.IsToken other :=
        fun other hother => htokens other (List.mem_cons_of_mem token hother)
      rw [spaced, List.length_append, List.length_append] at hfuel
      have hlength : 0 < token.length := List.length_pos_of_ne_nil htoken.ne_nil
      rw [spaced, spaced]
      by_cases hsame : token = mark
      · subst hsame
        obtain ⟨fuel, rfl⟩ := Nat.exists_eq_add_of_le' (show 1 ≤ fuel by omega)
        rw [subAround_mark hne hsolid, dropWhile_gap, dropWhile_spaced hrest,
          ih hrest (by omega)]
        have hgap : gap (token :: tight) token rest = [] := by
          cases rest with
          | nil => rfl
          | cons next more => simp [gap]
        rw [hgap, List.nil_append]
      · obtain ⟨fuel, rfl⟩ := Nat.exists_eq_add_of_le (show token.length ≤ fuel by omega)
        rw [subAround_append hne fun char hchar =>
          ⟨htoken.solid hchar, htoken.disjoint hmark hsame hchar⟩]
        congr 1
        cases rest with
        | nil => exact subAround_nil fuel
        | cons next more =>
            have hnext := hrest next List.mem_cons_self
            by_cases htight : (tight.contains token || tight.contains next) = true
            · have hold : gap tight token (next :: more) = [] := by rw [gap, if_pos htight]
              have hnew : gap (mark :: tight) token (next :: more) = [] := by
                rw [gap, if_pos]
                simp only [List.contains_cons, Bool.or_eq_true] at htight ⊢
                tauto
              rw [hold] at hfuel ⊢
              rw [hnew, List.nil_append, List.nil_append]
              exact ih hrest (by simpa using by omega)
            · have hold : gap tight token (next :: more) = [' '] := by rw [gap, if_neg htight]
              rw [hold] at hfuel ⊢
              obtain ⟨fuel, rfl⟩ := Nat.exists_eq_add_of_le' (show 1 ≤ fuel by
                simp only [List.length_singleton] at hfuel
                omega)
              obtain ⟨behind, hbehind⟩ := spaced_cons_eq tight next more
              by_cases hnextSame : next = mark
              · have hnew : gap (mark :: tight) token (next :: more) = [] := by
                  rw [gap, if_pos]
                  simp [hnextSame]
                have hlonger : (spaced tight (next :: more)).length ≤ fuel + 1 := by
                  simp only [List.length_singleton] at hfuel
                  omega
                rw [hnew, List.nil_append, ← ih hrest hlonger, hbehind, hnextSame,
                  List.singleton_append]
                exact subAround_space_mark hne hsolid fuel
              · have hnew : gap (mark :: tight) token (next :: more) = [' '] := by
                  rw [gap, if_neg]
                  simp only [Bool.or_eq_true, not_or] at htight
                  simp [hsame, hnextSame]
                  simpa using htight
                have hshorter : (spaced tight (next :: more)).length ≤ fuel := by
                  simp only [List.length_singleton] at hfuel
                  omega
                rw [hnew, ← ih hrest hshorter, hbehind]
                obtain ⟨char, letters, rfl⟩ := List.exists_cons_of_ne_nil hnext.ne_nil
                exact subAround_space hne (hnext.solid List.mem_cons_self)
                  (hnext.disjoint hmark hnextSame List.mem_cons_self) fuel

/-! ### A text without spaces around its marks -/

theorem strip_spaced (htokens : ∀ token ∈ tokens, lexicon.IsToken token) :
    strip (spaced tight tokens) = spaced tight tokens := by
  rw [strip, dropWhile_spaced htokens]
  suffices hend : (spaced tight tokens).reverse.dropWhile isSpace = (spaced tight tokens).reverse by
    rw [hend, List.reverse_reverse]
  induction tokens with
  | nil => rfl
  | cons token rest ih =>
      have htoken := htokens token List.mem_cons_self
      cases rest with
      | nil =>
          have htext : spaced tight [token] = token := by simp [spaced, gap]
          rw [htext]
          obtain ⟨last, letters, hletters⟩ :=
            List.exists_cons_of_ne_nil (List.reverse_ne_nil_iff.mpr htoken.ne_nil)
          have hlast : last ∈ token := List.mem_reverse.mp (by simp [hletters])
          rw [hletters, List.dropWhile_cons, htoken.solid hlast]
          simp
      | cons next more =>
          have hmore := ih fun other hother => htokens other (List.mem_cons_of_mem token hother)
          have hnonempty : spaced tight (next :: more) ≠ [] := by
            have hnext := htokens next (by simp)
            simp [spaced, hnext.ne_nil]
          rw [spaced, ← List.append_assoc, List.reverse_append]
          obtain ⟨last, letters, hletters⟩ :=
            List.exists_cons_of_ne_nil (List.reverse_ne_nil_iff.mpr hnonempty)
          rw [hletters] at hmore ⊢
          have hlast : isSpace last = false := by
            by_contra hspace
            have hdrop : (letters.dropWhile isSpace).length = (last :: letters).length := by
              rw [← hmore, List.dropWhile_cons, if_pos (by simpa using hspace)]
            have hle := (List.dropWhile_sublist isSpace (l := letters)).length_le
            simp only [List.length_cons] at hdrop
            omega
          rw [List.cons_append, List.dropWhile_cons, hlast]
          simp

theorem subSpaces_cons {char : Char} (hspace : isSpace char = false) (text : List Char) :
    subSpaces (char :: text) = char :: subSpaces text := by
  cases text with
  | nil => simp [subSpaces, hspace]
  | cons next rest => simp [subSpaces, hspace]

theorem subSpaces_append {free text : List Char} (hfree : ∀ char ∈ free, isSpace char = false) :
    subSpaces (free ++ text) = free ++ subSpaces text := by
  induction free with
  | nil => rfl
  | cons char rest ih =>
      rw [List.cons_append, subSpaces_cons (hfree char List.mem_cons_self),
        ih fun other hother => hfree other (List.mem_cons_of_mem char hother)]
      rfl

theorem subSpaces_spaced (htokens : ∀ token ∈ tokens, lexicon.IsToken token) :
    subSpaces (spaced tight tokens) = spaced tight tokens := by
  induction tokens with
  | nil => rfl
  | cons token rest ih =>
      have htoken := htokens token List.mem_cons_self
      have hrest : ∀ other ∈ rest, lexicon.IsToken other :=
        fun other hother => htokens other (List.mem_cons_of_mem token hother)
      rw [spaced, subSpaces_append fun char hchar => htoken.solid hchar]
      congr 1
      cases rest with
      | nil => rfl
      | cons next more =>
          rw [gap]
          split
          · rw [List.nil_append]
            exact ih hrest
          · have hspace : isSpace ' ' = true := by decide
            obtain ⟨behind, hbehind⟩ := spaced_cons_eq tight next more
            have hnext := hrest next List.mem_cons_self
            obtain ⟨char, letters, rfl⟩ := List.exists_cons_of_ne_nil hnext.ne_nil
            have hmore := ih hrest
            rw [hbehind, List.cons_append] at hmore
            rw [hbehind, List.singleton_append, List.cons_append, subSpaces, if_pos hspace]
            simp [hnext.solid List.mem_cons_self, hmore]

/-- Once a mark is tight, its pattern finds no more spaces. -/
theorem subAround_tight (hmark : mark ∈ lexicon.marks) (htight : mark ∈ tight)
    (htokens : ∀ token ∈ tokens, lexicon.IsToken token) :
    subAround mark (spaced tight tokens).length (spaced tight tokens) = spaced tight tokens := by
  rw [subAround_spaced hmark htokens (Nat.le_refl _)]
  apply spaced_congr
  intro token
  by_cases hsame : token = mark
  · simp [hsame, htight]
  · simp [hsame]

/-! ### Reading the tokens back -/

namespace Lexicon

theorem render_mark (hmark : mark ∈ lexicon.marks) (rest : List (List Char)) :
    lexicon.render (mark :: rest) = mark ++ lexicon.render rest := by
  have hgap : gap lexicon.marks mark rest = [] := by
    cases rest with
    | nil => rfl
    | cons next more => simp [gap, hmark]
  rw [render, spaced, hgap, List.nil_append]
  rfl

theorem render_before_mark (hmark : mark ∈ lexicon.marks) (rest : List (List Char)) :
    lexicon.render (token :: mark :: rest) = token ++ lexicon.render (mark :: rest) := by
  have hgap : gap lexicon.marks token (mark :: rest) = [] := by
    rw [gap, if_pos]
    simp [hmark]
  rw [render, spaced, hgap, List.nil_append]
  rfl

theorem render_words {next : List Char} (hword : lexicon.IsWord token)
    (hnext : lexicon.IsWord next) (rest : List (List Char)) :
    lexicon.render (token :: next :: rest) = token ++ ' ' :: lexicon.render (next :: rest) := by
  have hgap : gap lexicon.marks token (next :: rest) = [' '] := by
    rw [gap, if_neg]
    simp [hword.not_mem_marks, hnext.not_mem_marks]
  rw [render, spaced, hgap]
  rfl

theorem render_cons_cons (next : List Char) (rest : List (List Char)) :
    lexicon.render (token :: next :: rest) =
      token ++ (gap lexicon.marks token [next] ++ lexicon.render (next :: rest)) :=
  rfl

theorem render_append_mark (hmark : mark ∈ lexicon.marks) (before after : List (List Char)) :
    lexicon.render (before ++ mark :: after) =
      lexicon.render (before ++ [mark]) ++ lexicon.render after := by
  induction before with
  | nil =>
      have halone : lexicon.render [mark] = mark := by
        rw [render_mark hmark]
        exact List.append_nil mark
      rw [List.nil_append, List.nil_append, render_mark hmark, halone]
  | cons token rest ih =>
      cases rest with
      | nil =>
          rw [List.singleton_append, List.singleton_append, render_before_mark hmark,
            render_before_mark hmark, List.append_assoc]
          congr 1
      | cons next more =>
          rw [List.cons_append] at ih
          simp only [List.cons_append, render_cons_cons, ih, List.append_assoc]

theorem render_concat_mark (hmark : mark ∈ lexicon.marks) (before : List (List Char)) :
    lexicon.render (before ++ [mark]) = lexicon.render before ++ mark := by
  induction before with
  | nil =>
      rw [List.nil_append, render_mark hmark]
      exact List.append_nil mark
  | cons token rest ih =>
      cases rest with
      | nil =>
          rw [List.singleton_append, render_before_mark hmark, render_mark hmark]
          simp [render, spaced, gap]
      | cons next more =>
          rw [List.cons_append, List.cons_append, render_cons_cons, ← List.cons_append, ih,
            render_cons_cons]
          simp only [List.append_assoc]

/-- Behind a word comes a mark, a space or the end. -/
theorem head_behind_word (hword : lexicon.IsWord token) {rest : List (List Char)}
    (htokens : ∀ other ∈ rest, lexicon.IsToken other) {char : Char}
    (hchar : char ∈ (gap lexicon.marks token rest ++ lexicon.render rest).head?) :
    lexicon.isWordPart char = false := by
  cases rest with
  | nil => simp [gap, render, spaced] at hchar
  | cons next more =>
      have hnext := htokens next List.mem_cons_self
      rcases hnext with hmark | hnextWord
      · have hgap : gap lexicon.marks token (next :: more) = [] := by simp [gap, hmark]
        obtain ⟨head, tail, hcons⟩ := List.exists_cons_of_ne_nil (lexicon.nonempty next hmark)
        rw [hgap, List.nil_append, render_mark hmark, hcons] at hchar
        obtain rfl : head = char := by simpa using hchar
        exact lexicon.apart next hmark head (by simp [hcons])
      · have hgap : gap lexicon.marks token (next :: more) = [' '] := by
          simp [gap, hword.not_mem_marks, hnextWord.not_mem_marks]
        rw [hgap] at hchar
        obtain rfl : ' ' = char := by simpa using hchar
        exact lexicon.spaceless ' ' (by decide)

/-- The longest words in front of two equal texts are equal. -/
theorem word_append_inj {first second : List Char} {left right : List Char}
    (hfirst : lexicon.IsWord first) (hsecond : lexicon.IsWord second)
    (hleft : ∀ char ∈ left.head?, lexicon.isWordPart char = false)
    (hright : ∀ char ∈ right.head?, lexicon.isWordPart char = false)
    (heq : first ++ left = second ++ right) : first = second ∧ left = right := by
  have hmunch : ∀ {word behind : List Char}, lexicon.IsWord word →
      (∀ char ∈ behind.head?, lexicon.isWordPart char = false) →
      (word ++ behind).takeWhile lexicon.isWordPart = word := by
    intro word behind hword hbehind
    have hnone : behind.takeWhile lexicon.isWordPart = [] := by
      cases behind with
      | nil => rfl
      | cons char rest => simp [hbehind char (by simp)]
    rw [List.takeWhile_append_of_pos hword.2, hnone, List.append_nil]
  have hwords : first = second := by
    calc
      first = (first ++ left).takeWhile lexicon.isWordPart := (hmunch hfirst hleft).symm
      _ = (second ++ right).takeWhile lexicon.isWordPart := by rw [heq]
      _ = second := hmunch hsecond hright
  subst hwords
  exact ⟨rfl, List.append_cancel_left heq⟩

theorem mark_append_inj {first second : List Char} {left right : List Char}
    (hfirst : first ∈ lexicon.marks) (hsecond : second ∈ lexicon.marks)
    (heq : first ++ left = second ++ right) : first = second ∧ left = right := by
  obtain ⟨char, rest, hcons⟩ := List.exists_cons_of_ne_nil (lexicon.nonempty first hfirst)
  obtain ⟨other, more, hother⟩ := List.exists_cons_of_ne_nil (lexicon.nonempty second hsecond)
  have hhead : char = other := by
    rw [hcons, hother] at heq
    simpa using (List.cons.inj heq).1
  have hmarks : first = second :=
    lexicon.distinct first hfirst second hsecond char (by simp [hcons]) (by simp [hother, hhead])
  subst hmarks
  exact ⟨rfl, List.append_cancel_left heq⟩

theorem mark_append_ne_word {left right : List Char} (hmark : mark ∈ lexicon.marks)
    (hword : lexicon.IsWord token) : mark ++ left ≠ token ++ right := by
  intro heq
  obtain ⟨char, rest, hcons⟩ := List.exists_cons_of_ne_nil (lexicon.nonempty mark hmark)
  obtain ⟨other, more, hother⟩ := List.exists_cons_of_ne_nil hword.1
  have hhead : char = other := by
    rw [hcons, hother] at heq
    simpa using (List.cons.inj heq).1
  have hapart := lexicon.apart mark hmark char (by simp [hcons])
  rw [hhead, hword.2 other (by simp [hother])] at hapart
  contradiction

/-- The gap behind a token is read back with what follows it. -/
theorem behind_token_inj {first second : List (List Char)} {suffix : List Char}
    (hfirst : ∀ other ∈ first, lexicon.IsToken other)
    (hsecond : ∀ other ∈ second, lexicon.IsToken other) (hbound : first = [] → suffix = [])
    (heq : gap lexicon.marks token first ++ (lexicon.render first ++ suffix) =
      gap lexicon.marks token second ++ lexicon.render second) :
    lexicon.render first ++ suffix = lexicon.render second := by
  have hstart : (lexicon.render first ++ suffix).dropWhile isSpace =
      lexicon.render first ++ suffix := by
    cases first with
    | nil => rw [hbound rfl]; rfl
    | cons head rest =>
        have hhead := hfirst head List.mem_cons_self
        obtain ⟨char, letters, rfl⟩ := List.exists_cons_of_ne_nil hhead.ne_nil
        rw [render, spaced, List.cons_append, List.cons_append, List.dropWhile_cons,
          hhead.solid List.mem_cons_self]
        simp
  calc
    lexicon.render first ++ suffix
      = (gap lexicon.marks token first ++ (lexicon.render first ++ suffix)).dropWhile isSpace := by
        rw [dropWhile_gap, hstart]
    _ = (gap lexicon.marks token second ++ lexicon.render second).dropWhile isSpace := by rw [heq]
    _ = lexicon.render second := by rw [dropWhile_gap, render, dropWhile_spaced hsecond]

/-- **A text that starts with that of other tokens starts with these tokens.** -/
theorem eq_append_of_render {first tokens : List (List Char)} {suffix : List Char}
    (hfirst : ∀ token ∈ first, lexicon.IsToken token)
    (htokens : ∀ token ∈ tokens, lexicon.IsToken token)
    (hend : suffix = [] ∨ ∀ last ∈ first.getLast?, last ∈ lexicon.marks)
    (heq : lexicon.render first ++ suffix = lexicon.render tokens) :
    ∃ rest, tokens = first ++ rest ∧ suffix = lexicon.render rest := by
  induction first generalizing tokens with
  | nil => exact ⟨tokens, rfl, heq⟩
  | cons token rest ih =>
      have hrest : ∀ other ∈ rest, lexicon.IsToken other :=
        fun other hother => hfirst other (List.mem_cons_of_mem token hother)
      have hendRest : suffix = [] ∨ ∀ last ∈ rest.getLast?, last ∈ lexicon.marks := by
        refine hend.imp id ?_
        intro hlast last hmem
        cases rest with
        | nil => simp at hmem
        | cons next more => exact hlast last (by simpa using hmem)
      cases tokens with
      | nil =>
          have htoken := (hfirst token List.mem_cons_self).ne_nil
          simp [render, spaced, htoken] at heq
      | cons other others =>
          have hothers : ∀ token ∈ others, lexicon.IsToken token :=
            fun token htoken => htokens token (List.mem_cons_of_mem other htoken)
          suffices hsame : token = other ∧ lexicon.render rest ++ suffix = lexicon.render others by
            obtain ⟨rfl, hbehind⟩ := hsame
            obtain ⟨final, rfl, hsuffix⟩ := ih hrest hothers hendRest hbehind
            exact ⟨final, rfl, hsuffix⟩
          rcases hfirst token List.mem_cons_self with hmark | hword
          · rcases htokens other List.mem_cons_self with hotherMark | hotherWord
            · rw [render_mark hmark, render_mark hotherMark, List.append_assoc] at heq
              exact mark_append_inj hmark hotherMark heq
            · rw [render_mark hmark, List.append_assoc] at heq
              exact absurd heq (mark_append_ne_word hmark hotherWord)
          · rcases htokens other List.mem_cons_self with hotherMark | hotherWord
            · rw [render_mark hotherMark, render, spaced, List.append_assoc] at heq
              exact absurd heq.symm (mark_append_ne_word hotherMark hword)
            · have hbound : rest = [] → suffix = [] := by
                rintro rfl
                rcases hend with hsuffix | hlast
                · exact hsuffix
                · exact absurd (hlast token (by simp)) hword.not_mem_marks
              have hleft : ∀ char ∈ (gap lexicon.marks token rest ++
                  (lexicon.render rest ++ suffix)).head?, lexicon.isWordPart char = false := by
                intro char hchar
                apply head_behind_word hword hrest
                cases rest with
                | nil => simp [hbound rfl, gap, render, spaced] at hchar
                | cons next more =>
                    have hnext := (hrest next List.mem_cons_self).ne_nil
                    rw [← List.append_assoc, List.head?_append_of_ne_nil] at hchar
                    · exact hchar
                    · simp [render, spaced, hnext]
              rw [render, spaced, List.append_assoc, List.append_assoc] at heq
              obtain ⟨hsame, hbehind⟩ := word_append_inj hword hotherWord hleft
                (fun char hchar => head_behind_word hotherWord hothers hchar) heq
              subst hsame
              exact ⟨rfl, behind_token_inj hrest hothers hbound hbehind⟩

theorem render_inj {first second : List (List Char)}
    (hfirst : ∀ token ∈ first, lexicon.IsToken token)
    (hsecond : ∀ token ∈ second, lexicon.IsToken token)
    (heq : lexicon.render first = lexicon.render second) : first = second := by
  obtain ⟨rest, rfl, hrest⟩ := eq_append_of_render hfirst hsecond (.inl rfl)
    ((List.append_nil _).trans heq)
  cases rest with
  | nil => exact (List.append_nil first).symm
  | cons token more =>
      have htoken := hsecond token (by simp)
      simp [render, spaced, htoken.ne_nil] at hrest

/-- **A word and a space are read where two words stand together.** -/
theorem eq_cons_of_render_space {suffix : List Char} (hword : lexicon.IsWord token)
    (htokens : ∀ other ∈ tokens, lexicon.IsToken other)
    (heq : token ++ ' ' :: suffix = lexicon.render tokens) :
    ∃ next rest, tokens = token :: next :: rest ∧ lexicon.IsWord next ∧
      suffix = lexicon.render (next :: rest) := by
  cases tokens with
  | nil => simp [render, spaced] at heq
  | cons other others =>
      have hothers : ∀ token ∈ others, lexicon.IsToken token :=
        fun token htoken => htokens token (List.mem_cons_of_mem other htoken)
      rcases htokens other List.mem_cons_self with hmark | hother
      · rw [render_mark hmark] at heq
        exact absurd heq.symm (mark_append_ne_word hmark hword)
      · rw [render, spaced] at heq
        have hblank := lexicon.spaceless ' ' (by decide)
        obtain ⟨rfl, hbehind⟩ := word_append_inj hword hother (by simpa using hblank)
          (fun char hchar => head_behind_word hother hothers hchar) heq
        cases others with
        | nil => simp [gap, render, spaced] at hbehind
        | cons next rest =>
            rcases hothers next List.mem_cons_self with hmark | hnext
            · have hgap : gap lexicon.marks token (next :: rest) = [] := by simp [gap, hmark]
              have hsolid : (lexicon.render (next :: rest)).dropWhile isSpace =
                  lexicon.render (next :: rest) := dropWhile_spaced hothers
              rw [hgap, List.nil_append] at hbehind
              rw [← hbehind, List.dropWhile_cons, if_pos (by decide)] at hsolid
              have hle := (List.dropWhile_sublist isSpace (l := suffix)).length_le
              rw [hsolid, List.length_cons] at hle
              omega
            · have hgap : gap lexicon.marks token (next :: rest) = [' '] := by
                simp [gap, hword.not_mem_marks, hnext.not_mem_marks]
              rw [hgap] at hbehind
              exact ⟨next, rest, rfl, hnext, (List.cons.inj hbehind).2⟩

/-- The last character of a text is that of its last token. -/
theorem exists_concat_of_render {text : List Char} {char : Char}
    (htokens : ∀ token ∈ tokens, lexicon.IsToken token)
    (heq : lexicon.render tokens = text ++ [char]) :
    ∃ before last, tokens = before ++ [last] ∧ char ∈ last := by
  induction tokens generalizing text with
  | nil => simp [render, spaced] at heq
  | cons token rest ih =>
      cases rest with
      | nil =>
          have halone : lexicon.render [token] = token := by simp [render, spaced, gap]
          exact ⟨[], token, rfl, by rw [← halone, heq]; simp⟩
      | cons next more =>
          have hmore : ∀ other ∈ next :: more, lexicon.IsToken other :=
            fun other hother => htokens other (List.mem_cons_of_mem token hother)
          have hnonempty : lexicon.render (next :: more) ≠ [] := by
            simp [render, spaced, (hmore next List.mem_cons_self).ne_nil]
          obtain ⟨front, last, hlast⟩ : ∃ front last,
              lexicon.render (next :: more) = front ++ [last] :=
            ⟨_, _, (List.dropLast_append_getLast hnonempty).symm⟩
          have hsame : last = char := by
            rw [render_cons_cons, hlast, ← List.append_assoc, ← List.append_assoc] at heq
            exact (List.append_inj' heq rfl).2 |> List.singleton_inj.mp
          rw [hsame] at hlast
          obtain ⟨before, final, hbefore, hmem⟩ := ih hmore hlast
          exact ⟨token :: before, final, by rw [hbefore]; rfl, hmem⟩

end Lexicon

end SupernoteModule.Python
