import SupernoteModule.Proof.CppTypeNames

/-!
# What the reading of a C++ type accepts

Projection takes the text of a type apart from both ends. On the text of tokens every test asks for
a token, so the types it accepts are those that the tokens denote.
-/

namespace SupernoteModule.Frontend

open SupernoteModule.Lib SupernoteModule.Python SupernoteModule.Semantic

/-- A name behind `const`, in a shared pointer and in front of `&`, or not. -/
def spelledForm (reference coreConst shared : Bool) (name : List String) : List String :=
  (if coreConst then ["const"] else []) ++
    ((if shared then spelledTemplate "shared_ptr" name else name) ++
      (if reference then ["&"] else []))

section

variable {alphabet : TypeAlphabet} {registry : CppTypeRegistry} {cppNamespace : List String}
  {texts name parts : List String} {named : CppNamedType} {source : SourceProvenance}

/-! ### The tokens of a name -/

/-- The tokens of a name are words between marks `::`, and the last of them is a word. -/
structure NameTokens (name : List String) : Prop where
  tokens : ∀ text ∈ name, text = "::" ∨ text ∉ typeMarks
  last : ∃ before last, name = before ++ [last] ∧ last ∉ typeMarks
  adjacent : ∀ first second rest, name = first :: second :: rest → first ∉ typeMarks → second = "::"

theorem nameTokens_spelledName (hne : parts ≠ []) (hmarks : ∀ part ∈ parts, part ∉ typeMarks) :
    NameTokens (spelledName parts) := by
  induction parts with
  | nil => exact absurd rfl hne
  | cons first rest ih =>
      have hfirst := hmarks first List.mem_cons_self
      cases rest with
      | nil =>
          refine ⟨?_, ⟨[], first, rfl, hfirst⟩, ?_⟩
          · intro text htext
            rw [List.mem_singleton.mp htext]
            exact .inr hfirst
          · intro _ _ _ hparts
            cases hparts
      | cons second more =>
          have hmore := ih (List.cons_ne_nil second more)
            fun part hpart => hmarks part (List.mem_cons_of_mem first hpart)
          obtain ⟨before, last, hlast, hmark⟩ := hmore.last
          refine ⟨?_, ⟨first :: "::" :: before, last, ?_, hmark⟩, ?_⟩
          · intro text htext
            rcases List.mem_cons.mp htext with rfl | htext
            · exact .inr hfirst
            rcases List.mem_cons.mp htext with rfl | htext
            · exact .inl rfl
            · exact hmore.tokens text htext
          · rw [spelledName, hlast]
            rfl
          · intro _ _ _ hparts _
            exact (List.cons.inj (List.cons.inj hparts).2).1.symm

theorem nameTokens_of_spells (hname : registry.Spells cppNamespace name named) :
    NameTokens name := by
  obtain ⟨parts, hne, hmarks, htexts, _⟩ := hname
  have hparts := nameTokens_spelledName hne hmarks
  rcases htexts with rfl | rfl
  · exact hparts
  · obtain ⟨before, last, hlast, hmark⟩ := hparts.last
    refine ⟨?_, ⟨"::" :: before, last, by rw [hlast]; rfl, hmark⟩, ?_⟩
    · intro text htext
      rcases List.mem_cons.mp htext with rfl | htext
      · exact .inl rfl
      · exact hparts.tokens text htext
    · intro first _ _ hcons hfirst
      rw [← (List.cons.inj hcons).1] at hfirst
      exact absurd (by decide) hfirst

theorem NameTokens.ne_nil (hname : NameTokens name) : name ≠ [] := by
  obtain ⟨before, last, rfl, _⟩ := hname.last
  simp

/-- Of the marks only `::` is in a name. -/
theorem NameTokens.not_mem (hname : NameTokens name) {mark : String} (hmark : mark ∈ typeMarks)
    (hne : mark ≠ "::") : mark ∉ name := by
  intro hmem
  rcases hname.tokens mark hmem with hsame | hnone
  · exact hne hsame
  · exact hnone hmark

/-! ### The depth of brackets -/

/-- The brackets of these tokens leave the depth as it is. -/
def Inert (texts : List String) : Prop :=
  ∀ (depth : Int) (rest : List Char),
    templateDepth depth (typeText texts ++ rest) = templateDepth depth rest

theorem templateDepth_append {plain : List Char}
    (hplain : ∀ char ∈ plain, char ∉ "<>,".toList) (depth : Int) (rest : List Char) :
    templateDepth depth (plain ++ rest) = templateDepth depth rest := by
  induction plain with
  | nil => rfl
  | cons char more ih =>
      have hchar := hplain char List.mem_cons_self
      have hopening : char ≠ '<' := by
        rintro rfl
        exact hchar (by decide)
      have hclosing : char ≠ '>' := by
        rintro rfl
        exact hchar (by decide)
      have hcomma : char ≠ ',' := by
        rintro rfl
        exact hchar (by decide)
      rw [List.cons_append, templateDepth]
      · exact ih fun other hother => hplain other (List.mem_cons_of_mem char hother)
      · exact hopening
      · exact hclosing
      · exact hcomma

/-- A word has no character of a mark, and no comma. -/
theorem not_mem_marks_of_isWord {word : List Char} (hword : alphabet.lexicon.IsWord word)
    {char : Char} (hchar : char ∈ word) : char ∉ ":<>&,".toList := by
  intro hmark
  have hunmarked := List.all_eq_true.mp alphabet.unmarked char hmark
  have hpart := hword.2 char hchar
  have hunderscore : char ≠ '_' := by
    rintro rfl
    exact absurd hmark (by decide)
  change (alphabet.isAlnum char || decide (char = '_')) = true at hpart
  rw [decide_eq_false hunderscore, Bool.or_false] at hpart
  rw [hpart] at hunmarked
  cases hunmarked

theorem inert_of_nameTokens (htexts : TypeTokens alphabet name) (hname : NameTokens name) :
    Inert name := by
  intro depth rest
  apply templateDepth_append
  intro char hchar
  rcases mem_typeText hchar with rfl | ⟨text, htext, hmem⟩
  · decide
  · rcases hname.tokens text htext with rfl | hmark
    · have hall : ∀ char ∈ "::".toList, char ∉ "<>,".toList :=
        forall_chars_of_all_single (by decide)
      exact hall char hmem
    · have hnone := not_mem_marks_of_isWord (htexts.isWord htext hmark) hmem
      have hall : ∀ char ∈ "<>,".toList, char ∈ ":<>&,".toList :=
        forall_chars_of_all_single (by decide)
      exact fun hin => hnone (hall char hin)

theorem inert_template (alphabet : TypeAlphabet) {template : String} {inner : List String}
    (htemplate : alphabet.lexicon.IsWord template.toList) (hinner : Inert inner) :
    Inert (spelledTemplate template inner) := by
  intro depth rest
  have hopening : ∀ char ∈ ("std::" ++ template).toList, char ∉ "<>,".toList := by
    intro char hchar
    rw [String.toList_append] at hchar
    rcases List.mem_append.mp hchar with hmem | hmem
    · have hall : ∀ char ∈ "std::".toList, char ∉ "<>,".toList :=
        forall_chars_of_all_single (by decide)
      exact hall char hmem
    · have hnone := not_mem_marks_of_isWord htemplate hmem
      have hall : ∀ char ∈ "<>,".toList, char ∈ ":<>&,".toList :=
        forall_chars_of_all_single (by decide)
      exact fun hin => hnone (hall char hin)
  have htext : typeText (spelledTemplate template inner) ++ rest =
      ("std::" ++ template).toList ++ '<' :: (typeText inner ++ '>' :: rest) := by
    rw [typeText_template alphabet, String.toList_append]
    simp
  rw [htext, templateDepth_append hopening, templateDepth, hinner, templateDepth]
  congr 1
  omega

/-! ### The table -/

/-- The entries of the table, by their tokens. -/
def spelledTable : List (List String × SemanticType) :=
  (["void"], .void) :: scalarSpellings

theorem cppTypeTable_eq :
    cppTypeTable = spelledTable.map fun entry => (String.ofList (typeText entry.1), entry.2) :=
  rfl

theorem typeTokens_of_mem_spelledTable {entry : List String × SemanticType}
    (hentry : entry ∈ spelledTable) : TypeTokens alphabet entry.1 := by
  have hall : spelledTable.all (fun entry => entry.1.all fun text =>
      typeMarks.contains text || (!text.toList.isEmpty &&
        text.toList.all fun char => char.isAlphanum || char = '_')) = true := by decide
  intro text htext
  have hone := List.all_eq_true.mp (List.all_eq_true.mp hall entry hentry) text htext
  rw [Bool.or_eq_true, Bool.and_eq_true] at hone
  rcases hone with hmark | ⟨hne, hascii⟩
  · exact isToken_of_mem_typeMarks (List.contains_iff_mem.mp hmark)
  · exact .inr (isWord_of_ascii (by simpa using hne) hascii)

/-- The table finds the tokens of its entries. -/
theorem lookup_typeText (htexts : TypeTokens alphabet texts) {type : SemanticType} :
    cppTypeTable.lookup (String.ofList (typeText texts)) = some type ↔
      (texts, type) ∈ spelledTable := by
  have hkeys : (cppTypeTable.map Prod.fst).Nodup := by decide
  rw [Python.lookup_eq_some_iff hkeys, cppTypeTable_eq, List.mem_map]
  constructor
  · rintro ⟨⟨entry, semantic⟩, hentry, hsame⟩
    obtain ⟨htext, rfl⟩ := Prod.mk.inj hsame
    have htokens := typeText_inj (typeTokens_of_mem_spelledTable hentry) htexts
      (String.ofList_injective htext)
    rwa [← htokens]
  · intro hmem
    exact ⟨(texts, type), hmem, rfl⟩

/-- What no entry of the table has. -/
theorem spelledTable_tokens {entry : List String × SemanticType} (hentry : entry ∈ spelledTable) :
    "&" ∉ entry.1 ∧ "shared_ptr" ∉ entry.1 ∧ "optional" ∉ entry.1 := by
  have hall : ∀ entry ∈ spelledTable,
      "&" ∉ entry.1 ∧ "shared_ptr" ∉ entry.1 ∧ "optional" ∉ entry.1 := by decide
  exact hall entry hentry

theorem spelledTable_vector {inner : List String} {type : SemanticType}
    (hentry : (spelledTemplate "vector" inner, type) ∈ spelledTable) :
    inner = ["std", "::", "byte"] := by
  have hall : ∀ entry ∈ spelledTable, entry.1.take 4 = ["std", "::", "vector", "<"] →
      entry.1 = spelledTemplate "vector" ["std", "::", "byte"] := by decide
  have hsame : ["std", "::", "vector", "<"] ++ inner ++ [">"] =
      ["std", "::", "vector", "<"] ++ ["std", "::", "byte"] ++ [">"] := hall _ hentry rfl
  exact List.append_cancel_left (List.append_inj' hsame rfl).1

/-! ### The forms of a name -/

section Forms

variable {reference coreConst shared : Bool}

theorem isWord_sharedPtr : alphabet.lexicon.IsWord "shared_ptr".toList :=
  isWord_of_ascii (by decide) (by decide)

theorem isWord_vector : alphabet.lexicon.IsWord "vector".toList :=
  isWord_of_ascii (by decide) (by decide)

theorem isWord_optional : alphabet.lexicon.IsWord "optional".toList :=
  isWord_of_ascii (by decide) (by decide)

/-- The tokens of a form without its `&`. -/
def referredForm (coreConst shared : Bool) (name : List String) : List String :=
  (if coreConst then ["const"] else []) ++
    if shared then spelledTemplate "shared_ptr" name else name

theorem spelledForm_reference (coreConst shared : Bool) (name : List String) :
    spelledForm true coreConst shared name = referredForm coreConst shared name ++ ["&"] := by
  simp [spelledForm, referredForm]

theorem spelledForm_plain (coreConst shared : Bool) (name : List String) :
    spelledForm false coreConst shared name = referredForm coreConst shared name := by
  simp [spelledForm, referredForm]

theorem referredForm_last (hname : NameTokens name) :
    ∃ before last, referredForm coreConst shared name = before ++ [last] ∧ last ≠ "&" := by
  obtain ⟨before, last, hlast, hmark⟩ := hname.last
  cases shared with
  | true =>
      refine ⟨(if coreConst then ["const"] else []) ++ (["std", "::", "shared_ptr", "<"] ++ name),
        ">", ?_, by decide⟩
      simp [referredForm, spelledTemplate]
  | false =>
      refine ⟨(if coreConst then ["const"] else []) ++ before, last, ?_, ?_⟩
      · simp [referredForm, hlast]
      · rintro rfl
        exact hmark (by decide)

/-- The `&` of a form is seen, and taken off. -/
theorem reference_of_form (hname : NameTokens name)
    (htexts : TypeTokens alphabet (spelledForm reference coreConst shared name)) :
    endsWith (String.ofList (typeText (spelledForm reference coreConst shared name))) "&" =
        reference ∧
      (if reference then
          dropLast (String.ofList (typeText (spelledForm reference coreConst shared name))) 1
        else String.ofList (typeText (spelledForm reference coreConst shared name))) =
        String.ofList (typeText (referredForm coreConst shared name)) := by
  cases reference with
  | true =>
      rw [spelledForm_reference] at htexts ⊢
      refine ⟨(exists_before_of_endsWith (by decide) rfl htexts).mpr ⟨_, rfl⟩, ?_⟩
      rw [if_pos rfl, dropLast, toList_typeText, typeText_concat_mark alphabet (by decide)]
      simp
  | false =>
      rw [spelledForm_plain] at htexts ⊢
      refine ⟨?_, if_neg (by decide)⟩
      rw [Bool.eq_false_iff, Ne, exists_before_of_endsWith (by decide) rfl htexts]
      rintro ⟨before, hbefore⟩
      obtain ⟨front, last, hlast, hne⟩ := @referredForm_last name coreConst shared hname
      rw [hlast] at hbefore
      exact hne (List.singleton_inj.mp (List.append_inj' hbefore rfl).2)

/-- The tokens of a form behind its `const`. -/
def coreForm (shared : Bool) (name : List String) : List String :=
  if shared then spelledTemplate "shared_ptr" name else name

/-- A word comes first where a `const` may stand in front. -/
theorem coreForm_first (hname : NameTokens name)
    (hfront : shared = false → name.head? ≠ some "::") :
    ∃ first rest, coreForm shared name = first :: rest ∧ first ∉ typeMarks := by
  cases shared with
  | true => exact ⟨"std", _, rfl, by decide⟩
  | false =>
      obtain ⟨first, rest, rfl⟩ := List.exists_cons_of_ne_nil hname.ne_nil
      refine ⟨first, rest, rfl, ?_⟩
      rcases hname.tokens first List.mem_cons_self with rfl | hmark
      · exact absurd rfl (hfront rfl)
      · exact hmark

/-- The `const` of a form is seen, and taken off. -/
theorem const_of_form (hname : NameTokens name)
    (hfront : coreConst → shared = false → name.head? ≠ some "::")
    (htexts : TypeTokens alphabet (referredForm coreConst shared name)) :
    startsWith (String.ofList (typeText (referredForm coreConst shared name))) "const " =
        coreConst ∧
      removePrefix (String.ofList (typeText (referredForm coreConst shared name))) "const " =
        String.ofList (typeText (coreForm shared name)) := by
  cases coreConst with
  | true =>
      have hform : referredForm true shared name = "const" :: coreForm shared name := rfl
      obtain ⟨first, rest, hcore, hmark⟩ := coreForm_first hname (hfront rfl)
      rw [hform, hcore] at htexts ⊢
      have hstarts := (exists_behind_const htexts).mpr ⟨first, rest, rfl, hmark⟩
      refine ⟨hstarts, ?_⟩
      rw [removePrefix, if_pos hstarts, toList_typeText, typeText_const htexts hmark,
        List.drop_left]
  | false =>
      have hform : referredForm false shared name = coreForm shared name := rfl
      rw [hform] at htexts ⊢
      have hstarts : ¬ startsWith (String.ofList (typeText (coreForm shared name))) "const " := by
        rw [exists_behind_const htexts]
        rintro ⟨next, rest, hcore, hmark⟩
        cases shared with
        | true =>
            have hfirst : "std" = "const" := (List.cons.inj hcore).1
            exact absurd hfirst (by decide)
        | false =>
            have hnext := hname.adjacent "const" next rest hcore (by decide)
            rw [hnext] at hmark
            exact hmark (by decide)
      exact ⟨by simpa using hstarts, by rw [removePrefix, if_neg hstarts]⟩

/-- What a shared pointer of a form holds is seen, and nothing else is taken for one. -/
theorem shared_of_form (hname : NameTokens name)
    (htexts : TypeTokens alphabet (coreForm shared name)) :
    templateInner (String.ofList (typeText (coreForm shared name))) "std::shared_ptr" =
      if shared then some (String.ofList (typeText name)) else none := by
  have htemplate : "std::shared_ptr" = "std::" ++ "shared_ptr" := rfl
  rw [htemplate]
  cases shared with
  | true =>
      have htokens : TypeTokens alphabet name :=
        (TypeTokens.of_append (TypeTokens.of_append htexts).1).2
      rw [if_pos rfl, templateInner_typeText htexts isWord_sharedPtr]
      refine ⟨name, rfl, hname.ne_nil, ?_, rfl⟩
      have hinert := inert_of_nameTokens htokens hname 0 []
      rwa [List.append_nil] at hinert
  | false =>
      rw [if_neg (by decide), Option.eq_none_iff_forall_ne_some]
      intro inner hinner
      obtain ⟨middle, hcore, _⟩ := (templateInner_typeText htexts isWord_sharedPtr).mp hinner
      have hsame : name = spelledTemplate "shared_ptr" middle := hcore
      have hbracket : "<" ∈ name := by
        rw [hsame]
        simp [spelledTemplate]
      exact hname.not_mem (by decide) (by decide) hbracket

theorem ok_bind {Found Value : Type} (found : Found)
    (next : Found → Except FrontendError Value) : (Except.ok found >>= next) = next found :=
  rfl

theorem resolveNamed_eq_some (hwell : WellNamed alphabet registry)
    (htexts : TypeTokens alphabet texts) :
    registry.resolveNamed (String.ofList (typeText texts)) cppNamespace source = .ok (some named) ↔
      registry.Spells cppNamespace texts named := by
  rw [← @resolve_eq_ok alphabet texts registry cppNamespace named hwell htexts source,
    CppTypeRegistry.resolveNamed]
  cases registry.resolve (String.ofList (typeText texts)) cppNamespace source with
  | ok found => simp
  | error error =>
      cases error with
      | projection message =>
          dsimp only
          split
          · simp
          · simp
      | source message => simp
      | semantic error => simp
      | route message => simp

/-- **A form of a name is read as that form.** -/
theorem namedCppType_of_form {isResult : Bool} {position : CppPosition} {type : SemanticType}
    {spelling : String} (hwell : WellNamed alphabet registry)
    (hspells : registry.Spells cppNamespace name named)
    (hfront : coreConst → shared = false → name.head? ≠ some "::")
    (htexts : TypeTokens alphabet (spelledForm reference coreConst shared name))
    (hreferred : TypeTokens alphabet (referredForm coreConst shared name))
    (hcore : TypeTokens alphabet (coreForm shared name)) (htokens : TypeTokens alphabet name) :
    namedCppType registry source cppNamespace spelling
        (String.ofList (typeText (spelledForm reference coreConst shared name))) isResult position =
        .ok type ↔
      (if named.kind = .object then validObjectForm shared reference coreConst isResult position
        else (!shared && !reference && !coreConst)) = true ∧ named.semanticType = .ok type := by
  have hname := nameTokens_of_spells hspells
  obtain ⟨hreference, hunreferenced⟩ := reference_of_form hname htexts
  obtain ⟨hconst, hremoved⟩ := const_of_form hname hfront hreferred
  have hshared := shared_of_form hname hcore
  have hgetD : (if shared then some (String.ofList (typeText name)) else none).getD
      (String.ofList (typeText (coreForm shared name))) = String.ofList (typeText name) := by
    cases shared with
    | true => rfl
    | false => rfl
  have hsome : (if shared then some (String.ofList (typeText name)) else none).isSome = shared := by
    cases shared with
    | true => rfl
    | false => rfl
  have hnone : (if shared then some (String.ofList (typeText name)) else none).isNone =
    !shared := by
    cases shared with
    | true => rfl
    | false => rfl
  unfold namedCppType
  simp only [hreference, hunreferenced, hconst, hremoved, hshared, hgetD, hsome, hnone,
    (resolveNamed_eq_some hwell htokens).mpr hspells]
  rw [ok_bind]
  dsimp only
  by_cases hkind : named.kind = .object
  · rw [if_pos hkind, if_pos hkind, bind_eq_ok, exists_unit, requireObjectForm, require_eq_ok]
  · rw [if_neg hkind, if_neg hkind]
    simp only [bind_eq_ok, exists_unit, require_eq_ok, Bool.and_eq_true, Bool.not_eq_true',
      not_or, Bool.not_eq_true, and_assoc]

/-! ### Every text has a form -/

theorem exists_referred (htexts : TypeTokens alphabet texts) :
    ∃ reference referred, texts = referred ++ (if reference then ["&"] else []) ∧
      endsWith (String.ofList (typeText texts)) "&" = reference ∧
      (if reference then dropLast (String.ofList (typeText texts)) 1
        else String.ofList (typeText texts)) = String.ofList (typeText referred) := by
  by_cases hends : endsWith (String.ofList (typeText texts)) "&"
  · obtain ⟨before, rfl⟩ := (exists_before_of_endsWith (by decide) rfl htexts).mp hends
    refine ⟨true, before, rfl, hends, ?_⟩
    rw [if_pos rfl, dropLast, toList_typeText, typeText_concat_mark alphabet (by decide)]
    simp
  · exact ⟨false, texts, by simp, by simpa using hends, if_neg (by decide)⟩

theorem exists_core (htexts : TypeTokens alphabet texts) :
    ∃ coreConst core, texts = (if coreConst then ["const"] else []) ++ core ∧
      startsWith (String.ofList (typeText texts)) "const " = coreConst ∧
      removePrefix (String.ofList (typeText texts)) "const " = String.ofList (typeText core) ∧
      (coreConst → core.head? ≠ some "::") := by
  by_cases hstarts : startsWith (String.ofList (typeText texts)) "const "
  · obtain ⟨next, rest, rfl, hmark⟩ := (exists_behind_const htexts).mp hstarts
    refine ⟨true, next :: rest, rfl, hstarts, ?_, ?_⟩
    · rw [removePrefix, if_pos hstarts, toList_typeText, typeText_const htexts hmark,
        List.drop_left]
    · rintro _ hhead
      rw [List.head?_cons, Option.some.injEq] at hhead
      rw [hhead] at hmark
      exact hmark (by decide)
  · refine ⟨false, texts, rfl, by simpa using hstarts, by rw [removePrefix, if_neg hstarts], ?_⟩
    intro hfalse
    cases hfalse

theorem exists_shared (htexts : TypeTokens alphabet texts) :
    ∃ shared name, texts = coreForm shared name ∧
      (templateInner (String.ofList (typeText texts)) "std::shared_ptr").getD
        (String.ofList (typeText texts)) = String.ofList (typeText name) := by
  have htemplate : "std::shared_ptr" = "std::" ++ "shared_ptr" := rfl
  cases hinner : templateInner (String.ofList (typeText texts)) "std::shared_ptr" with
  | none => exact ⟨false, texts, rfl, rfl⟩
  | some inner =>
      rw [htemplate] at hinner
      obtain ⟨middle, hmiddle, _, _, rfl⟩ :=
        (templateInner_typeText htexts isWord_sharedPtr).mp hinner
      exact ⟨true, middle, hmiddle, rfl⟩

/-- **What is read as a marked type is a form of its name.** -/
theorem exists_form {isResult : Bool} {position : CppPosition} {type : SemanticType}
    {spelling : String} (hwell : WellNamed alphabet registry) (htexts : TypeTokens alphabet texts)
    (hok : namedCppType registry source cppNamespace spelling (String.ofList (typeText texts))
      isResult position = .ok type) :
    ∃ reference coreConst shared name named, texts = spelledForm reference coreConst shared name ∧
      registry.Spells cppNamespace name named ∧
      (coreConst → shared = false → name.head? ≠ some "::") := by
  obtain ⟨reference, referred, rfl, hreference, hunreferenced⟩ := exists_referred htexts
  have hreferred := (TypeTokens.of_append htexts).1
  obtain ⟨coreConst, core, rfl, hconst, hremoved, hfront⟩ := exists_core hreferred
  have hcore := (TypeTokens.of_append hreferred).2
  obtain ⟨shared, name, rfl, hname⟩ := exists_shared hcore
  have htokens : TypeTokens alphabet name := by
    cases shared with
    | true => exact (TypeTokens.of_append (TypeTokens.of_append hcore).1).2
    | false => exact hcore
  unfold namedCppType at hok
  simp only [hreference, hunreferenced, hremoved, hname] at hok
  obtain ⟨found, hfound, hread⟩ := bind_eq_ok.mp hok
  cases found with
  | none => cases hread
  | some named =>
      refine ⟨reference, coreConst, shared, name, named, ?_,
        (resolveNamed_eq_some hwell htokens).mp hfound, ?_⟩
      · rw [spelledForm, List.append_assoc]
        rfl
      · rintro hcoreConst rfl
        exact hfront hcoreConst

end Forms

/-! ### Types -/

section Types

variable {position : CppPosition} {type : SemanticType} {passing : Option CppObjectPassing}

/-- How a form passes a native object. -/
def formPassing : Bool → Bool → CppObjectPassing
  | true, true => .sharedConstRef
  | false, true => .sharedValue
  | true, false => .borrowedConst
  | false, false => .borrowedMutable

/-- A marked type, in a form its position allows. -/
structure DenotesForm (registry : CppTypeRegistry) (cppNamespace : List String)
    (position : CppPosition) (texts : List String) (type : SemanticType)
    (passing : Option CppObjectPassing) (reference coreConst shared : Bool) (name : List String)
    (named : CppNamedType) : Prop where
  form : texts = spelledForm reference coreConst shared name
  spells : registry.Spells cppNamespace name named
  type : named.semanticType = .ok type
  allowed : (if named.kind = .object then
      validObjectForm shared reference coreConst (decide (position = .result)) position
    else (!shared && !reference && !coreConst)) = true
  passing : passing = if named.kind = .object ∧ position = .parameter then
    some (formPassing coreConst shared) else none

theorem front_of_constApart {reference coreConst shared : Bool}
    (happart : ConstApart (spelledForm reference coreConst shared name)) :
    coreConst → shared = false → name.head? ≠ some "::" := by
  intro hconst hshared hhead
  obtain ⟨rest, rfl⟩ := List.head?_eq_some_iff.mp hhead
  subst hshared
  rw [hconst] at happart
  exact happart ⟨[], rest ++ (if reference then ["&"] else []), by simp [spelledForm]⟩

theorem typeTokens_of_form {reference coreConst shared : Bool}
    (htexts : TypeTokens alphabet (spelledForm reference coreConst shared name)) :
    TypeTokens alphabet (referredForm coreConst shared name) ∧
      TypeTokens alphabet (coreForm shared name) ∧ TypeTokens alphabet name := by
  have hbehind := TypeTokens.of_append htexts
  have hcore : TypeTokens alphabet (coreForm shared name) := (TypeTokens.of_append hbehind.2).1
  refine ⟨?_, hcore, ?_⟩
  · intro text htext
    rcases List.mem_append.mp htext with hmem | hmem
    · exact hbehind.1 text hmem
    · exact hcore text hmem
  · cases shared with
    | true => exact (TypeTokens.of_append (TypeTokens.of_append hcore).1).2
    | false => exact hcore

/-- **The end of `canonical_cpp_type` accepts the forms of the marked types.** -/
theorem namedCppType_eq_ok {spelling : String} (hwell : WellNamed alphabet registry)
    (htexts : TypeTokens alphabet texts) (happart : ConstApart texts) :
    namedCppType registry source cppNamespace spelling (String.ofList (typeText texts))
        (decide (position = .result)) position = .ok type ↔
      ∃ passing reference coreConst shared name named,
        DenotesForm registry cppNamespace position texts type passing reference coreConst shared
          name named := by
  constructor
  · intro hok
    obtain ⟨reference, coreConst, shared, name, named, rfl, hspells, hfront⟩ :=
      exists_form hwell htexts hok
    obtain ⟨hreferred, hcore, htokens⟩ := typeTokens_of_form htexts
    obtain ⟨hallowed, htype⟩ := (namedCppType_of_form hwell hspells hfront htexts hreferred hcore
      htokens).mp hok
    exact ⟨_, reference, coreConst, shared, name, named, rfl, hspells, htype, hallowed, rfl⟩
  · rintro ⟨_, reference, coreConst, shared, name, named, rfl, hspells, htype, hallowed, _⟩
    obtain ⟨hreferred, hcore, htokens⟩ := typeTokens_of_form htexts
    exact (namedCppType_of_form hwell hspells (front_of_constApart happart) htexts hreferred hcore
      htokens).mpr ⟨hallowed, htype⟩

theorem DenotesType.of_form {reference coreConst shared : Bool}
    (hform : DenotesForm registry cppNamespace position texts type passing reference coreConst
      shared name named) (hposition : position ≠ .direct)
    (htable : ∀ other, (texts, other) ∉ spelledTable) :
    DenotesType registry cppNamespace position texts type passing := by
  obtain ⟨htext, hspells, htype, hallowed, hpassing⟩ := hform
  by_cases hkind : named.kind = .object
  · rw [if_pos hkind] at hallowed
    by_cases hparameter : position = .parameter
    · rw [if_pos ⟨hkind, hparameter⟩] at hpassing
      subst hparameter hpassing htext
      have hvalid : (reference = false ∧ coreConst = false ∧ shared = true) ∨
          (reference = true ∧ coreConst = true ∧ shared = true) ∨
          (reference = true ∧ shared = false) := by
        cases reference <;> cases coreConst <;> cases shared <;> revert hallowed <;> decide
      rcases hvalid with ⟨rfl, rfl, rfl⟩ | ⟨rfl, rfl, rfl⟩ | ⟨rfl, rfl⟩
      · have hshared := @DenotesType.shared registry cppNamespace .parameter name named type
          hspells hkind htype
        rw [if_pos rfl] at hshared
        rw [spelledForm_plain]
        exact hshared
      · exact .sharedConstRef hspells hkind htype
      · cases coreConst with
        | true => exact .borrowedConst hspells hkind htype
        | false => exact .borrowedMutable hspells hkind htype
    · rw [if_neg fun hboth => hparameter hboth.2] at hpassing
      subst hpassing htext
      have hvalid : reference = false ∧ coreConst = false ∧ shared = true := by
        cases position with
        | direct => exact absurd rfl hposition
        | parameter => exact absurd rfl hparameter
        | result | field | contained =>
            cases reference <;> cases coreConst <;> cases shared <;> revert hallowed <;> decide
      obtain ⟨rfl, rfl, rfl⟩ := hvalid
      have hshared := @DenotesType.shared registry cppNamespace position name named type
        hspells hkind htype
      rw [if_neg hparameter] at hshared
      rw [spelledForm_plain]
      exact hshared
  · rw [if_neg hkind] at hallowed
    rw [if_neg fun hboth => hkind hboth.1] at hpassing
    simp only [Bool.and_eq_true, Bool.not_eq_true'] at hallowed
    obtain ⟨⟨rfl, rfl⟩, rfl⟩ := hallowed
    have hname : texts = name := by
      rw [htext]
      simp [spelledForm]
    subst hname hpassing
    refine .owned hspells ?_ ?_ hkind htype
    · rintro ⟨other, found⟩ hentry rfl
      exact htable found (List.mem_cons_of_mem _ hentry)
    · rintro rfl
      exact htable .void List.mem_cons_self

/-- What tokens outside of the table denote is a form of a name, or a container. -/
theorem DenotesType.cases_of_table
    (hdenotes : DenotesType registry cppNamespace position texts type passing)
    (htable : ∀ other, (texts, other) ∉ spelledTable) :
    (∃ reference coreConst shared name named, DenotesForm registry cppNamespace position texts type
        passing reference coreConst shared name named) ∨
      passing = none ∧ ∃ inner element carried,
        DenotesType registry cppNamespace .contained inner element carried ∧
          (texts = spelledTemplate "vector" inner ∧ type.node = .array element.node ∨
            texts = spelledTemplate "optional" inner ∧ type.node = .nullable element.node) := by
  cases hdenotes with
  | void => exact absurd List.mem_cons_self (htable _)
  | scalar hscalar => exact absurd (List.mem_cons_of_mem _ hscalar) (htable _)
  | owned hname hscalar hvoid hkind htype =>
      refine .inl ⟨false, false, false, texts, _, by simp [spelledForm], hname, htype, ?_, ?_⟩
      · rw [if_neg hkind]
        rfl
      · rw [if_neg fun hboth => hkind hboth.1]
  | shared hname hkind htype =>
      refine .inl ⟨false, false, true, _, _, by simp [spelledForm], hname, htype, ?_, ?_⟩
      · rw [if_pos hkind]
        cases position with
        | direct | parameter | result | field | contained => rfl
      · simp only [hkind, true_and]
        rfl
  | sharedConstRef hname hkind htype =>
      refine .inl ⟨true, true, true, _, _, rfl, hname, htype, ?_, ?_⟩
      · rw [if_pos hkind]
        rfl
      · rw [if_pos ⟨hkind, rfl⟩]
        rfl
  | borrowedMutable hname hkind htype =>
      refine .inl ⟨true, false, false, _, _, rfl, hname, htype, ?_, ?_⟩
      · rw [if_pos hkind]
        rfl
      · rw [if_pos ⟨hkind, rfl⟩]
        rfl
  | borrowedConst hname hkind htype =>
      refine .inl ⟨true, true, false, _, _, rfl, hname, htype, ?_, ?_⟩
      · rw [if_pos hkind]
        rfl
      · rw [if_pos ⟨hkind, rfl⟩]
        rfl
  | vector helement _ htype => exact .inr ⟨rfl, _, _, _, helement, .inl ⟨rfl, htype⟩⟩
  | optional helement htype => exact .inr ⟨rfl, _, _, _, helement, .inr ⟨rfl, htype⟩⟩

/-- What the tokens of an entry of the table denote. -/
theorem denotesType_iff_of_table {found : SemanticType} (hentry : (texts, found) ∈ spelledTable) :
    DenotesType registry cppNamespace position texts type passing ↔
      passing = none ∧ type = found ∧ (found.isVoid → position = .result) := by
  have hunique : ∀ first ∈ spelledTable, ∀ second ∈ spelledTable, first.1 = second.1 →
      first.2 = second.2 := by decide
  have hsolid : ∀ entry ∈ scalarSpellings, entry.2.isVoid = false := by decide
  obtain ⟨hreference, hshared, hoptional⟩ := spelledTable_tokens hentry
  constructor
  · intro hdenotes
    cases hdenotes with
    | void =>
        have hsame := hunique _ hentry _ List.mem_cons_self rfl
        exact ⟨rfl, hsame.symm, fun _ => rfl⟩
    | scalar hscalar =>
        have hsame := hunique _ hentry _ (List.mem_cons_of_mem _ hscalar) rfl
        refine ⟨rfl, hsame.symm, ?_⟩
        rw [show found = type from hsame, hsolid _ hscalar]
        intro hfalse
        cases hfalse
    | owned _ hscalar hvoid _ _ =>
        rcases List.mem_cons.mp hentry with hsame | hmem
        · exact absurd (Prod.mk.inj hsame).1 hvoid
        · exact absurd rfl (hscalar _ hmem)
    | shared _ _ _ => exact absurd (by simp [spelledTemplate]) hshared
    | sharedConstRef _ _ _ => exact absurd (by simp) hreference
    | borrowedMutable _ _ _ => exact absurd (by simp) hreference
    | borrowedConst _ _ _ => exact absurd (by simp) hreference
    | vector _ hbytes _ => exact absurd (spelledTable_vector hentry) hbytes
    | optional _ _ => exact absurd (by simp [spelledTemplate]) hoptional
  · rintro ⟨rfl, rfl, hvoid⟩
    rcases List.mem_cons.mp hentry with hsame | hmem
    · obtain ⟨rfl, rfl⟩ := Prod.mk.inj hsame
      rw [hvoid rfl]
      exact .void
    · exact .scalar hmem

theorem inert_of_plain
    (hplain : (texts.map String.toList).all (fun text =>
      text.all fun char => decide (char ∉ "<>,".toList)) = true) : Inert texts := by
  intro depth rest
  apply templateDepth_append
  intro char hchar
  rcases mem_typeText hchar with rfl | ⟨text, htext, hmem⟩
  · decide
  · exact forall_chars_of_all hplain _ (List.mem_map_of_mem htext) char hmem

/-- The brackets of a type that may be contained are closed. -/
theorem DenotesType.inert (htexts : TypeTokens alphabet texts)
    (hdenotes : DenotesType registry cppNamespace position texts type passing)
    (hposition : position = .contained) : Inert texts := by
  induction hdenotes with
  | void | sharedConstRef _ _ _ | borrowedMutable _ _ _ | borrowedConst _ _ _ => cases hposition
  | @scalar _ texts _ hscalar =>
      have hall : ∀ entry ∈ scalarSpellings,
          entry.1 = spelledTemplate "vector" ["std", "::", "byte"] ∨
            (entry.1.map String.toList).all (fun text =>
              text.all fun char => decide (char ∉ "<>,".toList)) = true := by
        decide
      rcases hall _ hscalar with hbytes | hplain
      · rw [show texts = _ from hbytes]
        have hvector : alphabet.lexicon.IsWord "vector".toList :=
          isWord_of_ascii (by decide) (by decide)
        exact inert_template alphabet hvector (inert_of_plain (by decide))
      · exact inert_of_plain hplain
  | owned hname _ _ _ _ => exact inert_of_nameTokens htexts (nameTokens_of_spells hname)
  | shared hname _ _ =>
      have htokens := (TypeTokens.of_append (TypeTokens.of_append htexts).1).2
      exact inert_template alphabet isWord_sharedPtr
        (inert_of_nameTokens htokens (nameTokens_of_spells hname))
  | vector _ _ _ ih =>
      have htokens := (TypeTokens.of_append (TypeTokens.of_append htexts).1).2
      exact inert_template alphabet (isWord_of_ascii (by decide) (by decide)) (ih htokens rfl)
  | optional _ _ ih =>
      have htokens := (TypeTokens.of_append (TypeTokens.of_append htexts).1).2
      exact inert_template alphabet (isWord_of_ascii (by decide) (by decide)) (ih htokens rfl)

theorem DenotesType.ne_nil
    (hdenotes : DenotesType registry cppNamespace position texts type passing) : texts ≠ [] := by
  cases hdenotes with
  | scalar hscalar =>
      have hall : ∀ entry ∈ scalarSpellings, entry.1 ≠ [] := by decide
      exact hall _ hscalar
  | owned hname _ _ _ _ => exact (nameTokens_of_spells hname).ne_nil
  | void => simp
  | shared _ _ _ => simp [spelledTemplate]
  | sharedConstRef _ _ _ => simp
  | borrowedMutable _ _ _ => simp
  | borrowedConst _ _ _ => simp
  | vector _ _ _ => simp [spelledTemplate]
  | optional _ _ => simp [spelledTemplate]

/-- A container that is read is the container of what it holds. -/
theorem templateInner_of_denoted {template : String} {inner : List String}
    {element : SemanticType} {carried : Option CppObjectPassing}
    (htemplate : alphabet.lexicon.IsWord template.toList)
    (htexts : TypeTokens alphabet (spelledTemplate template inner))
    (helement : DenotesType registry cppNamespace .contained inner element carried) :
    templateInner (String.ofList (typeText (spelledTemplate template inner)))
      ("std::" ++ template) = some (String.ofList (typeText inner)) := by
  have htokens : TypeTokens alphabet inner :=
    (TypeTokens.of_append (TypeTokens.of_append htexts).1).2
  have hinert := helement.inert htokens rfl 0 []
  rw [List.append_nil] at hinert
  exact (templateInner_typeText htexts htemplate).mpr
    ⟨inner, rfl, helement.ne_nil, hinert, rfl⟩

theorem ConstApart.inner {template : String} {inner : List String}
    (happart : ConstApart (spelledTemplate template inner)) : ConstApart inner := by
  intro hpart
  refine happart (hpart.trans ⟨["std", "::", template, "<"], [">"], rfl⟩)

theorem spelledTemplate_inj {first second : String} {left right : List String} :
    spelledTemplate first left = spelledTemplate second right ↔ first = second ∧ left = right := by
  simp [spelledTemplate]

/-- A form of a name is no other template than the shared pointer. -/
theorem form_ne_template {reference coreConst shared : Bool} {template : String}
    {inner : List String} (hname : NameTokens name) (htemplate : template ≠ "shared_ptr") :
    spelledForm reference coreConst shared name ≠ spelledTemplate template inner := by
  intro hsame
  have hbracket : "<" ∈ spelledForm reference coreConst shared name := by
    rw [hsame]
    simp [spelledTemplate]
  cases reference with
  | true =>
      rw [spelledForm_reference, spelledTemplate] at hsame
      have hlast := List.singleton_inj.mp (List.append_inj' hsame rfl).2
      exact absurd hlast (by decide)
  | false =>
      cases shared with
      | true =>
          cases coreConst with
          | true => simp [spelledForm, spelledTemplate] at hsame
          | false =>
              simp only [spelledForm, Bool.false_eq_true, if_false, if_true, List.nil_append,
                List.append_nil, spelledTemplate_inj] at hsame
              exact htemplate hsame.1.symm
      | false =>
          refine hname.not_mem (by decide) (by decide) (show "<" ∈ name from ?_)
          cases coreConst with
          | true => simpa [spelledForm] using hbracket
          | false => simpa [spelledForm] using hbracket

/-- Outside of the table, a template that is no shared pointer denotes a container. -/
theorem DenotesType.cases_of_template {template : String} {inner : List String}
    (hdenotes : DenotesType registry cppNamespace position (spelledTemplate template inner) type
      passing)
    (htable : ∀ other, (spelledTemplate template inner, other) ∉ spelledTable)
    (htemplate : template ≠ "shared_ptr") :
    ∃ element, (∃ carried, DenotesType registry cppNamespace .contained inner element carried) ∧
      (template = "vector" ∧ type.node = .array element.node ∨
        template = "optional" ∧ type.node = .nullable element.node) := by
  rcases hdenotes.cases_of_table htable with hform | ⟨_, held, element, carried, helement, hshape⟩
  · obtain ⟨_, _, _, name, named, hform⟩ := hform
    have hname := nameTokens_of_spells hform.spells
    exact absurd hform.form.symm (form_ne_template hname htemplate)
  · simp only [spelledTemplate_inj] at hshape
    rcases hshape with ⟨⟨hvector, rfl⟩, htype⟩ | ⟨⟨hoptional, rfl⟩, htype⟩
    · exact ⟨element, ⟨carried, helement⟩, .inl ⟨hvector, htype⟩⟩
    · exact ⟨element, ⟨carried, helement⟩, .inr ⟨hoptional, htype⟩⟩

theorem denotesType_vector {inner : List String}
    (htable : ∀ other, (spelledTemplate "vector" inner, other) ∉ spelledTable) :
    (∃ passing, DenotesType registry cppNamespace position (spelledTemplate "vector" inner) type
      passing) ↔
      ∃ element, (∃ carried, DenotesType registry cppNamespace .contained inner element carried) ∧
        type.node = .array element.node := by
  constructor
  · rintro ⟨passing, hdenotes⟩
    obtain ⟨element, hcarried, ⟨_, htype⟩ | ⟨hoptional, _⟩⟩ :=
      hdenotes.cases_of_template htable (by decide)
    · exact ⟨element, hcarried, htype⟩
    · exact absurd hoptional (by decide)
  · rintro ⟨element, ⟨carried, helement⟩, htype⟩
    refine ⟨none, .vector helement ?_ htype⟩
    rintro rfl
    exact htable (.scalar .bytes) (by decide)

theorem denotesType_optional {inner : List String}
    (htable : ∀ other, (spelledTemplate "optional" inner, other) ∉ spelledTable) :
    (∃ passing, DenotesType registry cppNamespace position (spelledTemplate "optional" inner) type
      passing) ↔
      ∃ element, (∃ carried, DenotesType registry cppNamespace .contained inner element carried) ∧
        type.node = .nullable element.node := by
  constructor
  · rintro ⟨passing, hdenotes⟩
    obtain ⟨element, hcarried, ⟨hvector, _⟩ | ⟨_, htype⟩⟩ :=
      hdenotes.cases_of_template htable (by decide)
    · exact absurd hvector (by decide)
    · exact ⟨element, hcarried, htype⟩
  · rintro ⟨element, ⟨carried, helement⟩, htype⟩
    exact ⟨none, .optional helement htype⟩

/-- Tokens that are neither in the table nor a container denote a form of a name. -/
theorem denotesType_form (hposition : position ≠ .direct)
    (htable : ∀ other, (texts, other) ∉ spelledTable)
    (hcontainer : ∀ {template inner element carried},
      DenotesType registry cppNamespace .contained inner element carried →
        texts = spelledTemplate template inner → template ≠ "vector" ∧ template ≠ "optional") :
    (∃ passing, DenotesType registry cppNamespace position texts type passing) ↔
      ∃ passing reference coreConst shared name named, DenotesForm registry cppNamespace position
        texts type passing reference coreConst shared name named := by
  constructor
  · rintro ⟨passing, hdenotes⟩
    rcases hdenotes.cases_of_table htable with hform | ⟨_, inner, element, carried, helement,
      ⟨hsame, _⟩ | ⟨hsame, _⟩⟩
    · exact ⟨passing, hform⟩
    · exact absurd rfl (hcontainer helement hsame).1
    · exact absurd rfl (hcontainer helement hsame).2
  · rintro ⟨passing, _, _, _, _, _, hform⟩
    exact ⟨passing, .of_form hform hposition htable⟩

/-- **`canonical_cpp_type` reads what the tokens denote.** The text gets shorter with each
container, so the fuel lasts. -/
theorem canonicalCppTypeFrom_eq_ok (hwell : WellNamed alphabet registry) {fuel : Nat}
    (htexts : TypeTokens alphabet texts) (happart : ConstApart texts)
    (hfuel : (typeText texts).length < fuel) (hposition : position ≠ .direct) :
    canonicalCppTypeFrom (some registry) source cppNamespace fuel (String.ofList (typeText texts))
        (decide (position = .result)) position = .ok type ↔
      ∃ passing, DenotesType registry cppNamespace position texts type passing := by
  induction fuel generalizing texts position type with
  | zero => omega
  | succ fuel ih =>
      have hcontained {template : String} {inner : List String} {element : SemanticType}
          (hsame : texts = spelledTemplate template inner) :
          canonicalCppTypeFrom (some registry) source cppNamespace fuel
              (String.ofList (typeText inner)) false .contained = .ok element ↔
            ∃ carried, DenotesType registry cppNamespace .contained inner element carried := by
        subst hsame
        have htokens := (TypeTokens.of_append (TypeTokens.of_append htexts).1).2
        have hshorter : (typeText inner).length < fuel := by
          rw [typeText_template alphabet, List.length_append, List.length_append] at hfuel
          simp only [List.length_singleton] at hfuel
          omega
        exact @ih inner .contained element htokens happart.inner hshorter (by decide)
      rw [canonicalCppTypeFrom, normalizedCppType_typeText htexts]
      cases hlookup : cppTypeTable.lookup (String.ofList (typeText texts)) with
      | some found =>
          have hentry := (lookup_typeText htexts).mp hlookup
          simp only [denotesType_iff_of_table hentry, bind_eq_ok, exists_unit, require_eq_ok,
            decide_eq_true_iff, pure_eq_ok, exists_eq_left, exists_and_left]
          rw [and_comm, eq_comm]
      | none =>
          have htable : ∀ other, (texts, other) ∉ spelledTable := by
            intro other hentry
            rw [(lookup_typeText htexts).mpr hentry] at hlookup
            cases hlookup
          dsimp only
          cases hvector : templateInner (String.ofList (typeText texts)) "std::vector" with
          | some inner =>
              obtain ⟨middle, hsame, _, _, rfl⟩ :=
                (templateInner_typeText htexts isWord_vector).mp hvector
              simp only [bind_eq_ok, semantically_eq_ok, hcontained hsame, SemanticType.array_eq_ok]
              rw [hsame] at htable ⊢
              exact (denotesType_vector htable).symm
          | none =>
              dsimp only
              cases hoptional : templateInner (String.ofList (typeText texts)) "std::optional" with
              | some inner =>
                  obtain ⟨middle, hsame, _, _, rfl⟩ :=
                    (templateInner_typeText htexts isWord_optional).mp hoptional
                  simp only [bind_eq_ok, semantically_eq_ok, hcontained hsame,
                    SemanticType.nullable_eq_ok]
                  rw [hsame] at htable ⊢
                  exact (denotesType_optional htable).symm
              | none =>
                  dsimp only
                  rw [namedCppType_eq_ok hwell htexts happart]
                  refine (denotesType_form hposition htable ?_).symm
                  intro template inner element carried helement hsame
                  -- the container would have been read
                  subst hsame
                  constructor
                  · rintro rfl
                    have hinner := templateInner_of_denoted isWord_vector htexts helement
                    exact absurd (hinner.symm.trans hvector) (Option.some_ne_none _)
                  · rintro rfl
                    have hinner := templateInner_of_denoted isWord_optional htexts helement
                    exact absurd (hinner.symm.trans hoptional) (Option.some_ne_none _)

end Types

end

end SupernoteModule.Frontend
