import SupernoteModule.Proof.CppTypeTexts

/-!
# The names of marked C++ types

A spelling is resolved by its text. The text of a registered name has the tokens of that name, so a
lookup finds a type exactly where the tokens spell its name.
-/

namespace SupernoteModule.Frontend

open SupernoteModule.Lib SupernoteModule.Python SupernoteModule.Semantic

/-- The registered names are those of words, and no two of them are equal. -/
structure WellNamed (alphabet : TypeAlphabet) (registry : CppTypeRegistry) : Prop where
  names : ∀ named ∈ registry, ∃ outer,
  named.qualifiedName = joinNames (outer ++ [named.publicName]) ∧
    ∀ part ∈ outer ++ [named.publicName], alphabet.lexicon.IsWord part.toList
  distinct : registry.Pairwise fun first second => first.qualifiedName ≠ second.qualifiedName

/-- The tokens of a name without a leading `::`. -/
def localTexts (texts : List String) : List String :=
  if texts.head? = some "::" then texts.tail else texts

section

variable {alphabet : TypeAlphabet} {texts parts : List String} {registry : CppTypeRegistry}
  {cppNamespace : List String} {named : CppNamedType} {name : String}

/-! ### Texts of names -/

theorem joinNames_cons_cons (first second : String) (rest : List String) :
    joinNames (first :: second :: rest) = first ++ "::" ++ joinNames (second :: rest) := by
  rw [joinNames, String.intercalate_cons_cons]
  rfl

theorem joinNames_singleton (name : String) : joinNames [name] = name :=
  String.intercalate_singleton

theorem joinNames_concat {outer : List String} (hne : outer ≠ []) (name : String) :
    joinNames (outer ++ [name]) = joinNames outer ++ "::" ++ name := by
  rw [joinNames, String.intercalate_append_of_ne_nil hne (List.cons_ne_nil name []),
    String.intercalate_singleton]
  rfl

theorem typeText_separated (alphabet : TypeAlphabet) (first : String) (rest : List String) :
    typeText (first :: "::" :: rest) = first.toList ++ ("::".toList ++ typeText rest) := by
  have hmark : "::".toList ∈ alphabet.lexicon.marks :=
    toList_mem_allowedPunctuation.mpr (show "::" ∈ typeMarks by decide)
  have hbefore := @Lexicon.render_before_mark alphabet.lexicon first.toList _ hmark
    (rest.map String.toList)
  have hbehind := @Lexicon.render_mark alphabet.lexicon _ hmark (rest.map String.toList)
  rw [hbehind] at hbefore
  exact hbefore

/-- The tokens of a name spell it. -/
theorem typeText_spelledName (alphabet : TypeAlphabet) (parts : List String) :
    typeText (spelledName parts) = (joinNames parts).toList := by
  induction parts with
  | nil => rfl
  | cons first rest ih =>
      cases rest with
      | nil => rw [spelledName, typeText_singleton, joinNames_singleton]
      | cons second more =>
          rw [spelledName, typeText_separated alphabet, ih, joinNames_cons_cons]
          simp only [String.toList_append, List.append_assoc]

theorem mem_spelledName {text : String} (hmem : text ∈ spelledName parts) :
    text ∈ parts ∨ text = "::" := by
  induction parts with
  | nil => exact absurd hmem List.not_mem_nil
  | cons first rest ih =>
      cases rest with
      | nil => exact .inl hmem
      | cons second more =>
          rw [spelledName] at hmem
          rcases List.mem_cons.mp hmem with rfl | hmem
          · exact .inl List.mem_cons_self
          rcases List.mem_cons.mp hmem with rfl | hmem
          · exact .inr rfl
          · exact (ih hmem).imp (List.mem_cons_of_mem first) id

theorem typeTokens_spelledName (hwords : ∀ part ∈ parts, alphabet.lexicon.IsWord part.toList) :
    TypeTokens alphabet (spelledName parts) := by
  intro text htext
  rcases mem_spelledName htext with hmem | rfl
  · exact .inr (hwords text hmem)
  · exact isToken_of_mem_typeMarks (by decide)

/-- A name of more than one part has a `::`, and no other one does. -/
theorem separator_mem_spelledName (hmarks : ∀ part ∈ parts, part ∉ typeMarks) :
    "::" ∈ spelledName parts ↔ ∃ first second rest, parts = first :: second :: rest := by
  cases parts with
  | nil => simp [spelledName]
  | cons first rest =>
      cases rest with
      | nil =>
          have hfirst := hmarks first List.mem_cons_self
          constructor
          · intro hmem
            rw [spelledName, List.mem_singleton] at hmem
            rw [← hmem] at hfirst
            exact absurd (by decide) hfirst
          · rintro ⟨_, _, _, hparts⟩
            cases hparts
      | cons second more =>
          constructor
          · exact fun _ => ⟨first, second, more, rfl⟩
          · intro _
            rw [spelledName]
            exact List.mem_cons_of_mem _ List.mem_cons_self

theorem mem_typeText {char : Char} (hmem : char ∈ typeText texts) :
    char = ' ' ∨ ∃ text ∈ texts, char ∈ text.toList := by
  induction texts with
  | nil => exact absurd hmem List.not_mem_nil
  | cons text rest ih =>
      rw [typeText, List.map_cons, spaced] at hmem
      rcases List.mem_append.mp hmem with hmem | hmem
      · exact .inr ⟨text, List.mem_cons_self, hmem⟩
      rcases List.mem_append.mp hmem with hmem | hmem
      · cases rest with
        | nil => exact absurd hmem List.not_mem_nil
        | cons next more =>
            rw [List.map_cons, gap] at hmem
            split at hmem
            · exact absurd hmem List.not_mem_nil
            · exact .inl (List.mem_singleton.mp hmem)
      · rcases ih hmem with hspace | ⟨other, hother, hchar⟩
        · exact .inl hspace
        · exact .inr ⟨other, List.mem_cons_of_mem text hother, hchar⟩

/-- A colon comes from a `::`. -/
theorem separator_of_colon (htexts : TypeTokens alphabet texts) (hcolon : ':' ∈ typeText texts) :
    "::" ∈ texts := by
  rcases mem_typeText hcolon with hspace | ⟨text, htext, hchar⟩
  · exact absurd hspace (by decide)
  · have hmark : "::".toList ∈ alphabet.lexicon.marks :=
      toList_mem_allowedPunctuation.mpr (show "::" ∈ typeMarks by decide)
    by_contra hnone
    have hne : text.toList ≠ "::".toList := by
      intro hsame
      rw [String.toList_inj.mp hsame] at htext
      exact hnone htext
    exact (htexts text htext).disjoint hmark hne hchar (by decide)

theorem contains_separator (htexts : TypeTokens alphabet texts) :
    contains (String.ofList (typeText texts)) "::" = true ↔ "::" ∈ texts := by
  rw [contains, decide_eq_true_iff, toList_typeText]
  constructor
  · rintro ⟨before, after, htext⟩
    apply separator_of_colon htexts
    rw [← htext]
    simp
  · intro hmem
    obtain ⟨before, after, rfl⟩ := List.append_of_mem hmem
    refine ⟨typeText before, typeText after, ?_⟩
    rw [typeText_append_mark alphabet (by decide), typeText_concat_mark alphabet (by decide)]

theorem localTexts_subset (htexts : TypeTokens alphabet texts) :
    TypeTokens alphabet (localTexts texts) := by
  rw [localTexts]
  split
  · exact fun text htext => htexts text (List.mem_of_mem_tail htext)
  · exact htexts

/-- A leading `::` is taken from the name. -/
theorem removePrefix_typeText (htexts : TypeTokens alphabet texts) :
    removePrefix (String.ofList (typeText texts)) "::" =
      String.ofList (typeText (localTexts texts)) := by
  rw [removePrefix, startsWith, toList_typeText]
  cases texts with
  | nil => rfl
  | cons text rest =>
      have hmark : "::".toList ∈ alphabet.lexicon.marks :=
        toList_mem_allowedPunctuation.mpr (show "::" ∈ typeMarks by decide)
      have hlocal : localTexts (text :: rest) = if text = "::" then rest else text :: rest := by
        simp [localTexts]
      rw [hlocal]
      by_cases hsame : text = "::"
      · subst hsame
        have htext : typeText ("::" :: rest) = "::".toList ++ typeText rest :=
          @Lexicon.render_mark alphabet.lexicon _ hmark (rest.map String.toList)
        rw [htext, if_pos (by simp), List.drop_left, if_pos rfl]
      · rw [if_neg hsame, if_neg]
        have htoken := htexts text List.mem_cons_self
        obtain ⟨char, letters, hcons⟩ := List.exists_cons_of_ne_nil htoken.ne_nil
        rw [typeText, List.map_cons, spaced, hcons, List.cons_append]
        have hchar : char ≠ ':' := by
          rintro rfl
          have hmem : ':' ∈ text.toList := by
            rw [hcons]
            exact List.mem_cons_self
          exact htoken.disjoint hmark (fun heq => hsame (String.toList_inj.mp heq)) hmem (by decide)
        simp [List.isPrefixOf, Ne.symm hchar]

/-! ### Lookups -/

theorem byQualified_eq_some
    (hdistinct : registry.Pairwise fun first second => first.qualifiedName ≠ second.qualifiedName) :
    registry.byQualified name = some named ↔ named ∈ registry ∧ named.qualifiedName = name := by
  rw [CppTypeRegistry.byQualified, List.find?_eq_some_iff_append]
  constructor
  · rintro ⟨hname, before, after, rfl, _⟩
    exact ⟨by simp, by simpa using hname⟩
  · rintro ⟨hmem, hname⟩
    obtain ⟨before, after, rfl⟩ := List.append_of_mem hmem
    refine ⟨by simpa using hname, before, after, rfl, ?_⟩
    intro other hother
    have hne := (List.pairwise_append.mp hdistinct).2.2 other hother named List.mem_cons_self
    rw [hname] at hne
    simpa using hne

/-- A lookup that starts with the last number finds the greatest one. -/
theorem findSome?_range_reverse {Found : Type} {found : Found} {lookup : Nat → Option Found}
    (bound : Nat) :
    (List.range (bound + 1)).reverse.findSome? lookup = some found ↔
      ∃ count ≤ bound, lookup count = some found ∧
        ∀ inner, count < inner → inner ≤ bound → lookup inner = none := by
  induction bound with
  | zero =>
      simp only [Nat.zero_add, List.range_one, List.reverse_singleton, List.findSome?_singleton,
        Nat.le_zero, exists_eq_left]
      constructor
      · intro hfound
        exact ⟨hfound, fun inner hlater hzero => by omega⟩
      · exact And.left
  | succ bound ih =>
      rw [List.range_succ, List.reverse_append, List.reverse_singleton, List.singleton_append,
        List.findSome?_cons]
      cases hlast : lookup (bound + 1) with
      | some other =>
          simp only [Option.some.injEq]
          constructor
          · rintro rfl
            exact ⟨bound + 1, Nat.le_refl _, hlast, fun inner hlater hbound => by omega⟩
          · rintro ⟨count, hcount, hfound, hinner⟩
            by_cases hsame : count = bound + 1
            · rw [hsame, hlast] at hfound
              exact Option.some.inj hfound
            · have hnone := hinner (bound + 1) (by omega) (Nat.le_refl _)
              rw [hlast] at hnone
              cases hnone
      | none =>
          dsimp only
          rw [ih]
          constructor
          · rintro ⟨count, hcount, hfound, hinner⟩
            refine ⟨count, by omega, hfound, ?_⟩
            intro inner hlater hbound
            by_cases hsame : inner = bound + 1
            · rw [hsame, hlast]
            · exact hinner inner hlater (by omega)
          · rintro ⟨count, hcount, hfound, hinner⟩
            have hne : count ≠ bound + 1 := by
              rintro rfl
              rw [hlast] at hfound
              cases hfound
            exact ⟨count, by omega, hfound,
              fun inner hlater hbound => hinner inner hlater (by omega)⟩

section Lookups

variable (hwell : WellNamed alphabet registry)
include hwell

theorem definesWithin_iff {count : Nat} :
    registry.DefinesWithin cppNamespace name count named ↔
      registry.byQualified (joinNames (cppNamespace.take count ++ [name])) = some named :=
  (byQualified_eq_some hwell.distinct).symm

theorem lookupEnclosing_eq_some :
    registry.lookupEnclosing cppNamespace name = some named ↔
      ∃ count ≤ cppNamespace.length, registry.DefinesWithin cppNamespace name count named ∧
        ∀ inner, count < inner → inner ≤ cppNamespace.length →
          ∀ other, ¬ registry.DefinesWithin cppNamespace name inner other := by
  rw [CppTypeRegistry.lookupEnclosing, findSome?_range_reverse]
  simp only [definesWithin_iff hwell, Option.eq_none_iff_forall_ne_some]

theorem lookupEnclosing_eq_none :
    registry.lookupEnclosing cppNamespace name = none ↔
      ∀ count ≤ cppNamespace.length,
        ∀ other, ¬ registry.DefinesWithin cppNamespace name count other := by
  rw [CppTypeRegistry.lookupEnclosing, List.findSome?_eq_none_iff]
  simp only [List.mem_reverse, List.mem_range, Nat.lt_succ_iff, definesWithin_iff hwell,
    Option.eq_none_iff_forall_ne_some]

theorem byFinal_eq_singleton :
    registry.byFinal name = [named] ↔ named ∈ registry ∧ named.publicName = name ∧
      ∀ other ∈ registry, other.publicName = name → other = named := by
  rw [CppTypeRegistry.byFinal]
  have hmem (other : CppNamedType) : other ∈ registry.filter (·.publicName = name) ↔
      other ∈ registry ∧ other.publicName = name := by
    simp
  constructor
  · intro hfound
    obtain ⟨hnamed, hname⟩ := (hmem named).mp (by rw [hfound]; exact List.mem_cons_self)
    refine ⟨hnamed, hname, ?_⟩
    intro other hother hsame
    have honly := (hmem other).mpr ⟨hother, hsame⟩
    rw [hfound] at honly
    exact List.mem_singleton.mp honly
  · rintro ⟨hnamed, hname, honly⟩
    have hnodup : (registry.filter (·.publicName = name)).Nodup :=
      (hwell.distinct.imp fun hne heq => hne (congrArg _ heq)).filter _
    cases hfound : registry.filter (·.publicName = name) with
    | nil =>
        have hmember := (hmem named).mpr ⟨hnamed, hname⟩
        rw [hfound] at hmember
        exact absurd hmember List.not_mem_nil
    | cons first rest =>
        rw [hfound] at hnodup hmem
        have hsame (other : CppNamedType) (hother : other ∈ first :: rest) : other = named :=
          honly other ((hmem other).mp hother).1 ((hmem other).mp hother).2
        have hrest : rest = [] := by
          apply List.eq_nil_iff_forall_not_mem.mpr
          intro other hother
          rw [hsame other (List.mem_cons_of_mem first hother),
            ← hsame first List.mem_cons_self] at hother
          exact (List.nodup_cons.mp hnodup).1 hother
        rw [hrest, hsame first List.mem_cons_self]

/-- A name without a colon that finishes a registered one is its public name. -/
theorem eq_publicName (hmem : named ∈ registry) {outer : List String}
    (hname : named.qualifiedName = joinNames (outer ++ [name])) (hcolon : ':' ∉ name.toList) :
    name = named.publicName := by
  obtain ⟨scope, hqualified, hwords⟩ := hwell.names named hmem
  have hpublic : ':' ∉ named.publicName.toList := by
    intro hcolon
    have hword := (hwords named.publicName (by simp)).2 ':' hcolon
    have hnone := alphabet.lexicon.apart "::".toList
      (toList_mem_allowedPunctuation.mpr (by decide)) ':' (by decide)
    rw [hnone] at hword
    cases hword
  have hseparated (scope : List String) (last : String) (hne : scope ≠ []) :
      (joinNames (scope ++ [last])).toList =
        (joinNames scope ++ ":").toList ++ ':' :: last.toList := by
    rw [joinNames_concat hne]
    simp
  have heq := congrArg String.toList (hname.symm.trans hqualified)
  by_cases houter : outer = []
  · by_cases hscope : scope = []
    · rw [houter, hscope] at heq
      exact String.toList_inj.mp (by simpa [joinNames_singleton] using heq)
    · rw [houter, List.nil_append, joinNames_singleton, hseparated _ _ hscope] at heq
      refine absurd ?_ hcolon
      rw [heq]
      simp
  · by_cases hscope : scope = []
    · rw [hscope, List.nil_append, joinNames_singleton, hseparated _ _ houter] at heq
      refine absurd ?_ hpublic
      rw [← heq]
      simp
    · rw [hseparated _ _ houter, hseparated _ _ hscope] at heq
      exact String.toList_inj.mp ((append_cons_inj hcolon hpublic).mp heq).2

end Lookups

/-! ### Resolution -/

theorem spells_iff :
    registry.Spells cppNamespace texts named ↔
      ∃ parts, parts ≠ [] ∧ (∀ part ∈ parts, part ∉ typeMarks) ∧
        localTexts texts = spelledName parts ∧ registry.Denotes cppNamespace parts named := by
  constructor
  · rintro ⟨parts, hne, hmarks, htexts, hdenotes⟩
    refine ⟨parts, hne, hmarks, ?_, hdenotes⟩
    rcases htexts with rfl | rfl
    · obtain ⟨first, rest, rfl⟩ := List.exists_cons_of_ne_nil hne
      have hfirst : first ≠ "::" := by
        rintro rfl
        exact hmarks "::" List.mem_cons_self (by decide)
      cases rest with
      | nil => simp [localTexts, spelledName, hfirst]
      | cons second more => simp [localTexts, spelledName, hfirst]
    · simp [localTexts]
  · rintro ⟨parts, hne, hmarks, htexts, hdenotes⟩
    refine ⟨parts, hne, hmarks, ?_, hdenotes⟩
    rw [localTexts] at htexts
    by_cases hglobal : texts.head? = some "::"
    · rw [if_pos hglobal] at htexts
      obtain ⟨rest, rfl⟩ : ∃ rest, texts = "::" :: rest := List.head?_eq_some_iff.mp hglobal
      exact .inr (by rw [← htexts]; rfl)
    · rw [if_neg hglobal] at htexts
      exact .inl htexts

/-- Tokens with a separator spell the registered type that has their text for its whole name. -/
theorem spells_separated_iff (hwell : WellNamed alphabet registry)
    (hlocal : TypeTokens alphabet texts) (hseparated : "::" ∈ texts) :
    (∃ parts, parts ≠ [] ∧ (∀ part ∈ parts, part ∉ typeMarks) ∧ texts = spelledName parts ∧
        registry.Denotes cppNamespace parts named) ↔
      named ∈ registry ∧ named.qualifiedName = String.ofList (typeText texts) := by
  constructor
  · rintro ⟨parts, _, hmarks, rfl, hdenotes⟩
    obtain ⟨first, second, rest, rfl⟩ := (separator_mem_spelledName hmarks).mp hseparated
    cases hdenotes with
    | qualified hmem hname =>
        refine ⟨hmem, ?_⟩
        rw [hname, typeText_spelledName alphabet, String.ofList_toList]
  · rintro ⟨hmem, hname⟩
    obtain ⟨outer, hqualified, hwords⟩ := hwell.names named hmem
    have htext : texts = spelledName (outer ++ [named.publicName]) := by
      apply typeText_inj hlocal (typeTokens_spelledName hwords)
      rw [typeText_spelledName alphabet, ← hqualified, hname, toList_typeText]
    have hmarks : ∀ part ∈ outer ++ [named.publicName], part ∉ typeMarks :=
      fun part hpart => IsWord.not_mem_typeMarks (hwords part hpart)
    rw [htext] at hseparated
    obtain ⟨first, second, rest, hparts⟩ := (separator_mem_spelledName hmarks).mp hseparated
    refine ⟨outer ++ [named.publicName], by simp, hmarks, htext, ?_⟩
    rw [hparts] at hqualified ⊢
    exact .qualified hmem hqualified

/-- A public name is one word, so its text has one token. -/
theorem spelledName_of_publicName (hwell : WellNamed alphabet registry)
    (hlocal : TypeTokens alphabet texts) (hmem : named ∈ registry)
    (hname : String.ofList (typeText texts) = named.publicName) :
    texts = spelledName [named.publicName] ∧ named.publicName ∉ typeMarks := by
  obtain ⟨outer, _, hwords⟩ := hwell.names named hmem
  have hpublic := hwords named.publicName (by simp)
  refine ⟨?_, IsWord.not_mem_typeMarks hpublic⟩
  have hword : TypeTokens alphabet [named.publicName] := by
    intro text htext
    rw [List.mem_singleton.mp htext]
    exact .inr hpublic
  apply typeText_inj hlocal hword
  rw [typeText_singleton, ← hname, toList_typeText]

/-- A name of one part that denotes a type is its public name. -/
theorem publicName_of_denotes (hwell : WellNamed alphabet registry) (hcolon : ':' ∉ name.toList)
    (hdenotes : registry.Denotes cppNamespace [name] named) :
    named ∈ registry ∧ name = named.publicName := by
  cases hdenotes with
  | enclosing _ hdefines _ =>
      exact ⟨hdefines.1, eq_publicName hwell hdefines.1 hdefines.2 hcolon⟩
  | only _ hmem hpublic _ => exact ⟨hmem, hpublic.symm⟩

/-- Tokens without a separator spell what their text denotes as a name of one part. -/
theorem spells_single_iff (hwell : WellNamed alphabet registry) (hlocal : TypeTokens alphabet texts)
    (hseparated : "::" ∉ texts) :
    (∃ parts, parts ≠ [] ∧ (∀ part ∈ parts, part ∉ typeMarks) ∧ texts = spelledName parts ∧
        registry.Denotes cppNamespace parts named) ↔
      registry.Denotes cppNamespace [String.ofList (typeText texts)] named := by
  constructor
  · rintro ⟨parts, hne, hmarks, rfl, hdenotes⟩
    obtain ⟨first, rest, rfl⟩ := List.exists_cons_of_ne_nil hne
    cases rest with
    | nil => rwa [spelledName, typeText_singleton, String.ofList_toList]
    | cons second rest =>
        exact absurd ((separator_mem_spelledName hmarks).mpr ⟨first, second, rest, rfl⟩) hseparated
  · intro hdenotes
    have hcolon : ':' ∉ (String.ofList (typeText texts)).toList := by
      rw [toList_typeText]
      exact fun hcolon => hseparated (separator_of_colon hlocal hcolon)
    obtain ⟨hmem, hname⟩ := publicName_of_denotes hwell hcolon hdenotes
    obtain ⟨htext, hmark⟩ := spelledName_of_publicName hwell hlocal hmem hname
    exact ⟨[named.publicName], by simp, by simpa using hmark, htext, hname ▸ hdenotes⟩

/-- A name of one part is looked up in the enclosing namespaces first, and then among all public
names. -/
theorem denotes_single_iff (hwell : WellNamed alphabet registry) :
    registry.Denotes cppNamespace [name] named ↔
      registry.lookupEnclosing cppNamespace name = some named ∨
        registry.lookupEnclosing cppNamespace name = none ∧ registry.byFinal name = [named] := by
  constructor
  · intro hdenotes
    cases hdenotes with
    | enclosing hcount hdefines hinnermost =>
        exact .inl ((lookupEnclosing_eq_some hwell).mpr ⟨_, hcount, hdefines, hinnermost⟩)
    | only hnone hmem hpublic honly =>
        exact .inr ⟨(lookupEnclosing_eq_none hwell).mpr hnone,
          (byFinal_eq_singleton hwell).mpr ⟨hmem, hpublic, honly⟩⟩
  · rintro (hsome | ⟨hnone, hfinal⟩)
    · obtain ⟨count, hcount, hdefines, hinnermost⟩ := (lookupEnclosing_eq_some hwell).mp hsome
      exact .enclosing hcount hdefines hinnermost
    · obtain ⟨hmem, hpublic, honly⟩ := (byFinal_eq_singleton hwell).mp hfinal
      exact .only ((lookupEnclosing_eq_none hwell).mp hnone) hmem hpublic honly

/-- **A spelling is resolved to the type whose name its tokens spell.** -/
theorem resolve_eq_ok (hwell : WellNamed alphabet registry) (htexts : TypeTokens alphabet texts)
    {source : SourceProvenance} :
    registry.resolve (String.ofList (typeText texts)) cppNamespace source = .ok named ↔
      registry.Spells cppNamespace texts named := by
  have hlocal := localTexts_subset htexts
  rw [spells_iff, CppTypeRegistry.resolve, removePrefix_typeText htexts]
  by_cases hseparated : "::" ∈ localTexts texts
  · rw [if_pos ((contains_separator hlocal).mpr hseparated), demand_eq_ok,
      byQualified_eq_some hwell.distinct, spells_separated_iff hwell hlocal hseparated]
  · rw [if_neg (mt (contains_separator hlocal).mp hseparated),
      spells_single_iff hwell hlocal hseparated, denotes_single_iff hwell]
    cases registry.lookupEnclosing cppNamespace (String.ofList (typeText (localTexts texts))) with
    | some candidate => simp
    | none =>
        cases registry.byFinal (String.ofList (typeText (localTexts texts))) with
        | nil => simp
        | cons candidate rest => cases rest <;> simp

end

end SupernoteModule.Frontend
