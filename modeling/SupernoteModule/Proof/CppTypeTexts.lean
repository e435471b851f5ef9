import SupernoteModule.Spec.CppTypeGrammar

/-!
# The texts of C++ types

The normalised text of a type has the tokens it was written with, so the prefixes and suffixes that
projection tests for are tokens at its ends.
-/

namespace SupernoteModule.Frontend

open SupernoteModule.Lib SupernoteModule.Python SupernoteModule.Semantic

/-! ### Texts -/

/-- The text of the tokens of a type. -/
def typeText (texts : List String) : List Char :=
  spaced allowedPunctuation (texts.map String.toList)

theorem toList_typeText (texts : List String) :
    (String.ofList (typeText texts)).toList = typeText texts :=
  String.toList_ofList

/-- Every text is that of a word or of an allowed mark. -/
def TypeTokens (alphabet : TypeAlphabet) (texts : List String) : Prop :=
  ∀ text ∈ texts, alphabet.lexicon.IsToken text.toList

section

variable {alphabet : TypeAlphabet} {texts first : List String}

theorem TypeTokens.toList (htexts : TypeTokens alphabet texts) :
    ∀ token ∈ texts.map String.toList, alphabet.lexicon.IsToken token := by
  intro token htoken
  obtain ⟨text, htext, rfl⟩ := List.mem_map.mp htoken
  exact htexts text htext

theorem TypeTokens.of_append {before after : List String}
    (htexts : TypeTokens alphabet (before ++ after)) :
    TypeTokens alphabet before ∧ TypeTokens alphabet after :=
  ⟨fun text htext => htexts text (List.mem_append_left after htext),
    fun text htext => htexts text (List.mem_append_right before htext)⟩

theorem toList_mem_allowedPunctuation {text : String} :
    text.toList ∈ allowedPunctuation ↔ text ∈ typeMarks := by
  have hmarks : allowedPunctuation = typeMarks.map String.toList := rfl
  rw [hmarks]
  constructor
  · intro hmem
    obtain ⟨mark, hmark, hsame⟩ := List.mem_map.mp hmem
    rwa [← String.toList_inj.mp hsame]
  · exact fun hmem => List.mem_map_of_mem hmem

theorem isToken_of_mem_typeMarks {mark : String} (hmark : mark ∈ typeMarks) :
    alphabet.lexicon.IsToken mark.toList :=
  .inl (toList_mem_allowedPunctuation.mpr hmark)

/-- A token of a type that is no mark is a word. -/
theorem TypeTokens.isWord (htexts : TypeTokens alphabet texts) {text : String}
    (htext : text ∈ texts) (hmark : text ∉ typeMarks) : alphabet.lexicon.IsWord text.toList := by
  rcases htexts text htext with hmem | hword
  · exact absurd (toList_mem_allowedPunctuation.mp hmem) hmark
  · exact hword

/-- An ASCII word is a word of every alphabet. -/
theorem isWord_of_ascii {word : String} (hne : word.toList ≠ [])
    (hascii : word.toList.all (fun char => char.isAlphanum || char = '_') = true) :
    alphabet.lexicon.IsWord word.toList := by
  refine ⟨hne, ?_⟩
  intro char hchar
  have hpart := List.all_eq_true.mp hascii char hchar
  rw [Bool.or_eq_true] at hpart
  show (alphabet.isAlnum char || decide (char = '_')) = true
  rcases hpart with halnum | hunderscore
  · rw [alphabet.ascii char halnum, Bool.true_or]
  · rw [hunderscore, Bool.or_true]

theorem IsWord.not_mem_typeMarks {text : String} (hword : alphabet.lexicon.IsWord text.toList) :
    text ∉ typeMarks :=
  fun hmark => hword.not_mem_marks (toList_mem_allowedPunctuation.mpr hmark)

/-! ### Both normalisations -/

/-- The four patterns make the allowed punctuation tight. -/
theorem squeezed_eq_typeText {tokens : List (List Char)}
    (htokens : ∀ token ∈ tokens, alphabet.lexicon.IsToken token) :
    let around (token : String) (text : List Char) :=
      Python.subAround token.toList text.length text
    around "&" (around ">" (around "<" (around "::" (spaced [] tokens)))) =
      spaced allowedPunctuation tokens := by
  intro around
  have haround (mark : String) (hmark : mark.toList ∈ allowedPunctuation)
      (tight : List (List Char)) :
      around mark (spaced tight tokens) = spaced (mark.toList :: tight) tokens :=
    @subAround_spaced alphabet.lexicon tight tokens mark.toList hmark htokens _ (Nat.le_refl _)
  rw [haround "::" (by decide), haround "<" (by decide), haround ">" (by decide),
    haround "&" (by decide)]
  apply spaced_congr
  intro token
  rw [Bool.eq_iff_iff, List.contains_iff_mem, List.contains_iff_mem]
  simp only [allowedPunctuation, List.map_cons, List.map_nil, List.mem_cons]
  tauto

theorem normalizedCppType_typeText (htexts : TypeTokens alphabet texts) :
    normalizedCppType (String.ofList (typeText texts)) = String.ofList (typeText texts) := by
  have htokens := htexts.toList
  have haround (mark : String) (hmark : mark.toList ∈ allowedPunctuation) :
      Python.subAround mark.toList (typeText texts).length (typeText texts) = typeText texts :=
    @subAround_tight alphabet.lexicon allowedPunctuation _ mark.toList hmark hmark htokens
  have hstrip : strip (String.ofList (typeText texts)).toList = typeText texts := by
    rw [toList_typeText]
    exact strip_spaced htokens
  have hspaces : subSpaces (typeText texts) = typeText texts := subSpaces_spaced htokens
  rw [normalizedCppType]
  dsimp only
  rw [hstrip, haround "::" (by decide), haround "<" (by decide), haround ">" (by decide),
    haround "&" (by decide), hspaces]

/-- **The spelling of tokens.** It is there for identifiers and allowed marks whose brackets are as
many on both sides and whose references are at the end, and then it is the text of the tokens. -/
theorem cppTypeSpelling_eq_some {tokens : List CppToken} (hlexed : Lexed alphabet tokens)
    {spelling : String} :
    cppTypeSpelling tokens = some spelling ↔
      (tokens ≠ [] ∧ (∀ token ∈ tokens, token.isAllowed) ∧
        tokens.countP (CppToken.spells "<") = tokens.countP (CppToken.spells ">") ∧
        (∀ token ∈ tokens.dropLast, token.spells "&" = false)) ∧
      spelling = String.ofList (typeText (tokens.map CppToken.text)) := by
  unfold cppTypeSpelling
  by_cases hempty : tokens = []
  · simp [hempty]
  rw [if_neg (by simpa using hempty)]
  by_cases hallowed : ∀ token ∈ tokens, token.isAllowed
  · rw [if_neg (by simpa using hallowed)]
    by_cases hcount : tokens.countP (CppToken.spells "<") = tokens.countP (CppToken.spells ">")
    · rw [if_neg (by simpa using hcount)]
      by_cases hreference : ∀ token ∈ tokens.dropLast, token.spells "&" = false
      · rw [if_neg (by simpa using hreference)]
        have hvalues : tokens.map (·.value) = (tokens.map CppToken.text).map String.toList := by
          rw [List.map_map]
          apply List.map_congr_left
          intro token _
          exact String.toList_ofList.symm
        have htokens : ∀ value ∈ tokens.map (·.value), alphabet.lexicon.IsToken value := by
          intro value hvalue
          obtain ⟨token, htoken, rfl⟩ := List.mem_map.mp hvalue
          have htokenAllowed := hallowed token htoken
          rw [CppToken.isAllowed, Bool.or_eq_true, decide_eq_true_iff] at htokenAllowed
          rcases htokenAllowed with hidentifier | hmark
          · exact .inr (hlexed token htoken hidentifier)
          · exact .inl (List.contains_iff_mem.mp hmark)
        have htext := squeezed_eq_typeText htokens
        dsimp only at htext ⊢
        rw [← spaced_nil_eq_intercalate, htext, hvalues, ← typeText]
        simp only [Option.some.injEq]
        constructor
        · rintro rfl
          exact ⟨⟨hempty, hallowed, hcount, hreference⟩, rfl⟩
        · rintro ⟨_, rfl⟩
          rfl
      · rw [if_pos (by simpa using hreference)]
        simp only [reduceCtorEq, false_iff]
        exact fun hboth => hreference hboth.1.2.2.2
    · rw [if_pos (by simpa using hcount)]
      simp only [reduceCtorEq, false_iff]
      exact fun hboth => hcount hboth.1.2.2.1
  · rw [if_pos (by simpa using hallowed)]
    simp only [reduceCtorEq, false_iff]
    exact fun hboth => hallowed hboth.1.2.1

/-! ### Tokens at the ends -/

theorem map_toList_inj {left right : List String}
    (heq : left.map String.toList = right.map String.toList) : left = right :=
  List.map_injective_iff.mpr (fun _ _ => String.toList_inj.mp) heq

theorem typeText_inj {left right : List String} (hleft : TypeTokens alphabet left)
    (hright : TypeTokens alphabet right) (heq : typeText left = typeText right) : left = right :=
  map_toList_inj (@Lexicon.render_inj alphabet.lexicon _ _ hleft.toList hright.toList heq)

/-- A text that starts with that of tokens up to a mark starts with these tokens. -/
theorem exists_rest_of_typeText {suffix : List Char} {last : String} {front : List String}
    (hfirst : TypeTokens alphabet (front ++ [last])) (hlast : last ∈ typeMarks)
    (htexts : TypeTokens alphabet texts)
    (heq : typeText (front ++ [last]) ++ suffix = typeText texts) :
    ∃ rest, texts = front ++ last :: rest ∧ suffix = typeText rest := by
  have hend : ∀ token ∈ ((front ++ [last]).map String.toList).getLast?,
      token ∈ alphabet.lexicon.marks := by
    intro token htoken
    have hsame : last.toList = token := by simpa using htoken
    rw [← hsame]
    exact toList_mem_allowedPunctuation.mpr hlast
  obtain ⟨rest, hrest, hsuffix⟩ := @Lexicon.eq_append_of_render alphabet.lexicon _ _ suffix
    hfirst.toList htexts.toList (.inr hend) heq
  obtain ⟨before, after, hboth, hbefore, rfl⟩ := List.map_eq_append_iff.mp hrest
  obtain rfl := map_toList_inj hbefore
  exact ⟨after, by rw [hboth, List.append_assoc]; rfl, hsuffix⟩

theorem typeText_append_mark (alphabet : TypeAlphabet) {mark : String} (hmark : mark ∈ typeMarks)
    (before after : List String) :
    typeText (before ++ mark :: after) = typeText (before ++ [mark]) ++ typeText after := by
  rw [typeText, typeText, typeText, List.map_append, List.map_cons, List.map_append,
    List.map_singleton]
  exact @Lexicon.render_append_mark alphabet.lexicon mark.toList
    (toList_mem_allowedPunctuation.mpr hmark) _ _

theorem typeText_concat_mark (alphabet : TypeAlphabet) {mark : String} (hmark : mark ∈ typeMarks)
    (before : List String) :
    typeText (before ++ [mark]) = typeText before ++ mark.toList := by
  rw [typeText, typeText, List.map_append, List.map_singleton]
  exact @Lexicon.render_concat_mark alphabet.lexicon mark.toList
    (toList_mem_allowedPunctuation.mpr hmark) _

/-- A text ends with a mark of one character where its last token is the mark. -/
theorem exists_before_of_endsWith {mark : String} {char : Char} (hmark : mark ∈ typeMarks)
    (hchar : mark.toList = [char]) (htexts : TypeTokens alphabet texts) :
    endsWith (String.ofList (typeText texts)) mark ↔ ∃ before, texts = before ++ [mark] := by
  rw [endsWith, List.isSuffixOf_iff_suffix, toList_typeText, hchar]
  constructor
  · rintro ⟨text, htext⟩
    obtain ⟨before, last, hboth, hmem⟩ :=
      @Lexicon.exists_concat_of_render alphabet.lexicon _ text char htexts.toList htext.symm
    obtain ⟨front, final, rfl, hfront, hfinal⟩ := List.map_eq_append_iff.mp hboth
    obtain ⟨token, rfl, rfl⟩ : ∃ token, final = [token] ∧ token.toList = last := by
      cases final with
      | nil => simp at hfinal
      | cons token rest => exact ⟨token, by simpa [and_comm, eq_comm] using hfinal⟩
    refine ⟨front, ?_⟩
    have htoken := htexts token (by simp)
    have hsame : token.toList = mark.toList := by
      by_contra hne
      refine htoken.disjoint (toList_mem_allowedPunctuation.mpr hmark) hne hmem ?_
      rw [hchar]
      exact List.mem_singleton_self char
    rw [String.toList_inj.mp hsame]
  · rintro ⟨before, rfl⟩
    refine ⟨typeText before, ?_⟩
    rw [← hchar]
    exact (typeText_concat_mark alphabet hmark before).symm

/-- A text starts with `const` and a space where `const` stands in front of another word. -/
theorem exists_behind_const (htexts : TypeTokens alphabet texts) :
    startsWith (String.ofList (typeText texts)) "const " ↔
      ∃ next rest, texts = "const" :: next :: rest ∧ next ∉ typeMarks := by
  have hconst : alphabet.lexicon.IsWord "const".toList := isWord_of_ascii (by decide) (by decide)
  have hspace : "const ".toList = "const".toList ++ [' '] := rfl
  rw [startsWith, List.isPrefixOf_iff_prefix, toList_typeText, hspace]
  constructor
  · rintro ⟨suffix, htext⟩
    obtain ⟨next, rest, hboth, hnext, _⟩ :=
      @Lexicon.eq_cons_of_render_space alphabet.lexicon _ _ suffix hconst htexts.toList
        (by rw [List.append_assoc] at htext; exact htext)
    obtain ⟨first, more, rfl, hfirst, hmore⟩ := List.map_eq_cons_iff.mp hboth
    obtain ⟨second, others, rfl, rfl, rfl⟩ := List.map_eq_cons_iff.mp hmore
    obtain rfl := String.toList_inj.mp hfirst
    exact ⟨second, others, rfl, IsWord.not_mem_typeMarks hnext⟩
  · rintro ⟨next, rest, rfl, hnext⟩
    have hword := htexts.isWord (by simp) hnext
    refine ⟨typeText (next :: rest), ?_⟩
    have hwords := @Lexicon.render_words alphabet.lexicon _ _ hconst hword
      (rest.map String.toList)
    rw [List.append_assoc]
    exact hwords.symm

theorem typeText_const {next : String} {rest : List String}
    (htexts : TypeTokens alphabet ("const" :: next :: rest)) (hnext : next ∉ typeMarks) :
    typeText ("const" :: next :: rest) = "const ".toList ++ typeText (next :: rest) := by
  have hconst : alphabet.lexicon.IsWord "const".toList := isWord_of_ascii (by decide) (by decide)
  exact @Lexicon.render_words alphabet.lexicon _ _ hconst (htexts.isWord (by simp) hnext) _

/-! ### Templates -/

theorem typeText_singleton (text : String) : typeText [text] = text.toList := by
  simp [typeText, spaced, gap]

/-- The tokens in front of what a template of `std` holds. -/
theorem typeText_opening (template : String) :
    typeText ["std", "::", template, "<"] = ("std::" ++ template ++ "<").toList := by
  have hgap (first second : List Char) (hmark : first ∈ allowedPunctuation ∨
      second ∈ allowedPunctuation) (rest : List (List Char)) :
      gap allowedPunctuation first (second :: rest) = [] := by
    rw [gap, if_pos]
    rcases hmark with hmark | hmark
    · simp [hmark]
    · simp [hmark]
  simp only [typeText, List.map_cons, List.map_nil, spaced]
  rw [hgap "std".toList "::".toList (.inr (by decide)), hgap "::".toList _ (.inl (by decide)),
    hgap _ "<".toList (.inr (by decide))]
  simp [gap]

theorem typeTokens_opening {template : String}
    (htemplate : alphabet.lexicon.IsWord template.toList) :
    TypeTokens alphabet ["std", "::", template, "<"] := by
  intro text htext
  rcases List.mem_cons.mp htext with rfl | htext
  · exact .inr (isWord_of_ascii (by decide) (by decide))
  rcases List.mem_cons.mp htext with rfl | htext
  · exact isToken_of_mem_typeMarks (by decide)
  rcases List.mem_cons.mp htext with rfl | htext
  · exact .inr htemplate
  · rw [List.mem_singleton.mp htext]
    exact isToken_of_mem_typeMarks (by decide)

theorem typeText_template (alphabet : TypeAlphabet) (template : String) (inner : List String) :
    typeText (spelledTemplate template inner) =
      ("std::" ++ template ++ "<").toList ++ (typeText inner ++ ['>']) := by
  have hopening := typeText_append_mark alphabet (show "<" ∈ typeMarks by decide)
    ["std", "::", template] (inner ++ [">"])
  have hclosing := typeText_concat_mark alphabet (show ">" ∈ typeMarks by decide) inner
  rw [← typeText_opening]
  simp only [spelledTemplate, List.cons_append, List.nil_append] at hopening ⊢
  rw [hopening, hclosing]
  rfl

theorem typeText_eq_nil (htexts : TypeTokens alphabet texts) :
    typeText texts = [] ↔ texts = [] := by
  constructor
  · intro hempty
    cases texts with
    | nil => rfl
    | cons text rest =>
        have hne := (htexts text List.mem_cons_self).ne_nil
        simp [typeText, spaced, hne] at hempty
  · rintro rfl
    rfl

/-- What starts and ends like a template is one. -/
theorem exists_template {template : String} (htexts : TypeTokens alphabet texts)
    (htemplate : alphabet.lexicon.IsWord template.toList) :
    (startsWith (String.ofList (typeText texts)) ("std::" ++ template ++ "<") &&
      endsWith (String.ofList (typeText texts)) ">") = true ↔
      ∃ middle, texts = spelledTemplate template middle := by
  rw [Bool.and_eq_true, exists_before_of_endsWith (by decide) rfl htexts, startsWith,
    List.isPrefixOf_iff_prefix, toList_typeText]
  constructor
  · rintro ⟨⟨suffix, hsuffix⟩, before, hbefore⟩
    rw [← typeText_opening] at hsuffix
    obtain ⟨rest, hrest, _⟩ := @exists_rest_of_typeText alphabet texts suffix "<"
      ["std", "::", template] (typeTokens_opening htemplate) (by decide) htexts hsuffix
    rcases List.eq_nil_or_concat' rest with rfl | ⟨middle, last, rfl⟩
    · have hlast := congrArg List.getLast? (hrest.symm.trans hbefore)
      simp at hlast
    · have hboth : (["std", "::", template, "<"] ++ middle) ++ [last] = before ++ [">"] := by
        rw [← hbefore, hrest]
        rfl
      obtain rfl : last = ">" := List.singleton_inj.mp (List.append_inj' hboth rfl).2
      exact ⟨middle, hrest⟩
  · rintro ⟨middle, rfl⟩
    refine ⟨⟨typeText middle ++ ['>'], (typeText_template alphabet template middle).symm⟩, ?_⟩
    exact ⟨["std", "::", template, "<"] ++ middle, rfl⟩

/-- **`_template_inner` finds the tokens between the brackets.** -/
theorem templateInner_typeText {template : String} (htexts : TypeTokens alphabet texts)
    (htemplate : alphabet.lexicon.IsWord template.toList) {inner : String} :
    templateInner (String.ofList (typeText texts)) ("std::" ++ template) = some inner ↔
      ∃ middle, texts = spelledTemplate template middle ∧ middle ≠ [] ∧
        templateDepth 0 (typeText middle) = some 0 ∧ inner = String.ofList (typeText middle) := by
  have hshape := exists_template htexts htemplate
  unfold templateInner
  dsimp only
  by_cases htemplateShape : ∃ middle, texts = spelledTemplate template middle
  · rw [if_pos (hshape.mpr htemplateShape)]
    obtain ⟨middle, rfl⟩ := htemplateShape
    have hmiddle : TypeTokens alphabet middle :=
      (TypeTokens.of_append (TypeTokens.of_append htexts).1).2
    have htext := typeText_template alphabet template middle
    have hinner : dropLast (dropFirst (String.ofList (typeText (spelledTemplate template middle)))
        ("std::" ++ template ++ "<").toList.length) 1 = String.ofList (typeText middle) := by
      rw [dropFirst, dropLast, toList_typeText, htext, List.drop_left, String.toList_ofList,
        List.length_append, List.length_singleton, Nat.add_sub_cancel, List.take_left]
    rw [hinner, toList_typeText]
    have hempty : String.ofList (typeText middle) ≠ "" ↔ middle ≠ [] := by
      rw [not_iff_not, ← typeText_eq_nil hmiddle]
      exact String.ofList_eq_empty_iff
    have hunique (other : List String) :
        spelledTemplate template middle = spelledTemplate template other ↔ middle = other := by
      simp [spelledTemplate]
    simp only [hunique, hempty]
    by_cases hgood : middle ≠ [] ∧ templateDepth 0 (typeText middle) = some 0
    · rw [if_pos hgood]
      simp only [Option.some.injEq]
      constructor
      · rintro rfl
        exact ⟨middle, rfl, hgood.1, hgood.2, rfl⟩
      · rintro ⟨_, rfl, _, _, rfl⟩
        rfl
    · rw [if_neg hgood]
      simp only [reduceCtorEq, false_iff]
      rintro ⟨_, rfl, hne, hdepth, _⟩
      exact hgood ⟨hne, hdepth⟩
  · rw [if_neg fun hboth => htemplateShape (hshape.mp hboth)]
    simp only [reduceCtorEq, false_iff]
    rintro ⟨middle, hmiddle, _⟩
    exact htemplateShape ⟨middle, hmiddle⟩

end

end SupernoteModule.Frontend
