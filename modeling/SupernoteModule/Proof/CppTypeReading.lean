import SupernoteModule.Proof.CppLexer
import SupernoteModule.Proof.CppRoutes
import SupernoteModule.Proof.CppTypes
import SupernoteModule.Proof.JavaSourceType

/-!
# The reading of a C++ type

The spelling of tokens keeps what they denote, and the way an object is passed is read off the same
text. Together with projection this reads a type where its tokens denote one.
-/

namespace SupernoteModule.Frontend

open SupernoteModule.Lib SupernoteModule.Python SupernoteModule.Semantic

/-! ### Tokens of the lexer -/

namespace CppLexer

variable {alphabet : TypeAlphabet} {lexer : CppLexer} {char : Char}

theorem isWord_identifier (hchar : lexer.text[lexer.index]? = some char)
    (hword : (alphabet.isAlpha char || char = '_') = true) :
    alphabet.lexicon.IsWord (slice lexer.text lexer.index
      (identifierEnd alphabet.toAlphabet lexer.text lexer.index)) := by
  have hslice : slice lexer.text lexer.index
      (identifierEnd alphabet.toAlphabet lexer.text lexer.index) =
      char :: (lexer.text.drop (lexer.index + 1)).takeWhile
        fun char => alphabet.isAlnum char || char = '_' := by
    have hdrop : lexer.text.drop lexer.index = char :: lexer.text.drop (lexer.index + 1) := by
      obtain ⟨hindex, hget⟩ := List.getElem?_eq_some_iff.mp hchar
      rw [List.drop_eq_getElem_cons hindex, hget]
    have hstop (length : Nat) : lexer.index + 1 + length - lexer.index = length + 1 := by omega
    rw [slice_eq_take_drop, identifierEnd, hdrop, hstop, List.take_succ_cons,
      ← List.prefix_iff_eq_take.mp (List.takeWhile_prefix _)]
  rw [hslice]
  refine ⟨List.cons_ne_nil _ _, ?_⟩
  intro other hother
  rcases List.mem_cons.mp hother with rfl | hmem
  · rw [Bool.or_eq_true] at hword
    show (alphabet.isAlnum other || decide (other = '_')) = true
    rcases hword with halpha | hunderscore
    · rw [alphabet.letters other halpha, Bool.true_or]
    · rw [hunderscore, Bool.or_true]
  · exact List.mem_takeWhile_imp hmem

theorem lexed_append {tokens : List CppToken} {token : CppToken} (hlexed : Lexed alphabet tokens)
    (htoken : token.kind = .identifier → alphabet.lexicon.IsWord token.value) :
    Lexed alphabet (tokens ++ [token]) := by
  intro other hother hkind
  rcases List.mem_append.mp hother with hmem | hlast
  · exact hlexed other hmem hkind
  · rw [List.mem_singleton.mp hlast] at hkind ⊢
    exact htoken hkind

theorem lexed_round (hchar : lexer.text[lexer.index]? = some char)
    (hlexed : Lexed alphabet lexer.tokens) :
    Lexed alphabet (lexer.consumeTokenOrTrivia alphabet.toAlphabet char).tokens := by
  rw [consumeTokenOrTrivia]
  split
  · exact hlexed
  split
  · exact hlexed
  split
  · exact hlexed
  split
  · exact hlexed
  split
  · exact hlexed
  cases rawStringEnd lexer.text lexer.index with
  | some stop => exact lexed_append hlexed fun hkind => by cases hkind
  | none =>
      dsimp only
      split
      · exact lexed_append hlexed fun hkind => by cases hkind
      split
      · rename_i hword
        exact lexed_append hlexed fun _ => isWord_identifier hchar hword
      · exact lexed_append hlexed fun hkind => by cases hkind

/-- The identifiers of a text are words. -/
theorem lexed_lex (alphabet : TypeAlphabet) (text : List Char) :
    Lexed alphabet (lex alphabet.toAlphabet text).tokens := by
  have hrun (fuel : Nat) : ∀ {lexer : CppLexer}, Lexed alphabet lexer.tokens →
      Lexed alphabet (run alphabet.toAlphabet fuel lexer).tokens := by
    induction fuel with
    | zero => exact fun hlexed => hlexed
    | succ fuel ih =>
        intro lexer hlexed
        rw [run]
        cases hchar : lexer.text[lexer.index]? with
        | none => exact hlexed
        | some char => exact ih (lexed_round hchar hlexed)
  exact hrun text.length fun _ htoken => absurd htoken List.not_mem_nil

end CppLexer

section

variable {alphabet : TypeAlphabet} {registry : CppTypeRegistry} {cppNamespace : List String}
  {texts name : List String} {named : CppNamedType} {source : SourceProvenance}
  {position : CppPosition} {type : SemanticType} {passing : Option CppObjectPassing}

/-! ### Object parameters -/

theorem startsWith_const_append {text : List Char} (start : String) :
    startsWith (String.ofList ("const ".toList ++ text)) ("const " ++ start) =
      startsWith (String.ofList text) start := by
  have hleft : (String.ofList ("const ".toList ++ text)).toList = "const ".toList ++ text :=
    String.toList_ofList
  have hright : (String.ofList text).toList = text := String.toList_ofList
  rw [startsWith, startsWith, hleft, hright, String.toList_append, Bool.eq_iff_iff,
    List.isPrefixOf_iff_prefix, List.isPrefixOf_iff_prefix, List.prefix_append_right_inj]

theorem not_startsWith_of_head {text : List Char} {start : String} {char other : Char}
    {rest : List Char} (hstart : start.toList = char :: rest) (hne : char ≠ other) :
    startsWith (String.ofList (other :: text)) start = false := by
  have htext : (String.ofList (other :: text)).toList = other :: text := String.toList_ofList
  rw [startsWith, htext, hstart, List.isPrefixOf_cons_cons, beq_false_of_ne hne, Bool.false_and]

/-- Where the text ends with `&`, what is in front of it decides about a longer ending. -/
theorem endsWith_closing_reference {before : List String} :
    endsWith (String.ofList (typeText before ++ ['&'])) ">&" =
      endsWith (String.ofList (typeText before)) ">" := by
  have hleft : (String.ofList (typeText before ++ ['&'])).toList = typeText before ++ ['&'] :=
    String.toList_ofList
  rw [endsWith, endsWith, hleft, toList_typeText, Bool.eq_iff_iff, List.isSuffixOf_iff_suffix,
    List.isSuffixOf_iff_suffix]
  constructor
  · rintro ⟨front, hfront⟩
    have hsame : (front ++ ['>']) ++ ['&'] = typeText before ++ ['&'] := by
      rw [← hfront]
      simp
    exact ⟨front, (List.append_inj' hsame rfl).1⟩
  · rintro ⟨front, hfront⟩
    refine ⟨front, ?_⟩
    rw [← hfront]
    simp

/-- A name in front of other tokens does not start with a `const` of its own. -/
theorem name_not_const {behind : List String} (hname : NameTokens name)
    (htexts : TypeTokens alphabet (name ++ behind)) (hbehind : ∀ text ∈ behind, text ∈ typeMarks) :
    startsWith (String.ofList (typeText (name ++ behind))) "const " = false := by
  rw [Bool.eq_false_iff, Ne, exists_behind_const htexts]
  rintro ⟨next, rest, hsame, hmark⟩
  obtain ⟨first, more, rfl⟩ := List.exists_cons_of_ne_nil hname.ne_nil
  obtain ⟨rfl, hmore⟩ := List.cons.inj hsame
  cases more with
  | nil =>
      have hnext : next ∈ behind := by
        have hbehindCons : behind = next :: rest := hmore
        rw [hbehindCons]
        exact List.mem_cons_self
      exact hmark (hbehind next hnext)
  | cons second others =>
      obtain ⟨rfl, _⟩ := List.cons.inj hmore
      rw [hname.adjacent "const" second others rfl (by decide)] at hmark
      exact hmark (by decide)

/-- The end of a form with a reference. -/
theorem form_endsWith {coreConst shared : Bool} (hname : NameTokens name)
    (hreferred : TypeTokens alphabet (referredForm coreConst shared name)) :
    endsWith (String.ofList (typeText (referredForm coreConst shared name ++ ["&"]))) ">&" =
      shared := by
  have htext := typeText_concat_mark alphabet (show "&" ∈ typeMarks by decide)
    (referredForm coreConst shared name)
  have hmark : "&".toList = ['&'] := rfl
  rw [htext, hmark, endsWith_closing_reference, Bool.eq_iff_iff,
    exists_before_of_endsWith (by decide) rfl hreferred]
  constructor
  · rintro ⟨before, hbefore⟩
    cases shared with
    | true => rfl
    | false =>
        obtain ⟨front, last, hlast, hmark⟩ := hname.last
        have hsame : ((if coreConst then ["const"] else []) ++ front) ++ [last] =
            before ++ [">"] := by
          rw [← hbefore, List.append_assoc, ← hlast]
          rfl
        rw [List.singleton_inj.mp (List.append_inj' hsame rfl).2] at hmark
        exact absurd (by decide) hmark
  · rintro rfl
    exact ⟨(if coreConst then ["const"] else []) ++ (["std", "::", "shared_ptr", "<"] ++ name), by
      simp [referredForm, spelledTemplate]⟩

/-- Whether an object that is not shared has a `const` in front. -/
theorem form_startsWith_const {coreConst : Bool} (hname : NameTokens name)
    (hfront : coreConst → name.head? ≠ some "::")
    (htexts : TypeTokens alphabet (referredForm coreConst false name ++ ["&"])) :
    startsWith (String.ofList (typeText (referredForm coreConst false name ++ ["&"]))) "const " =
      coreConst := by
  cases coreConst with
  | true =>
      obtain ⟨first, rest, hcore, hmark⟩ := @coreForm_first name false hname fun _ => hfront rfl
      obtain rfl : name = first :: rest := hcore
      exact (exists_behind_const htexts).mpr ⟨first, rest ++ ["&"], rfl, hmark⟩
  | false =>
      apply name_not_const hname htexts
      intro text htext
      rw [List.mem_singleton.mp htext]
      decide

theorem sharedForm_startsWith
    (htexts : TypeTokens alphabet (referredForm true true name ++ ["&"])) :
    startsWith (String.ofList (typeText (referredForm true true name ++ ["&"])))
      "const std::shared_ptr<" = true := by
  have hform : referredForm true true name ++ ["&"] =
      "const" :: "std" :: (["::", "shared_ptr", "<"] ++ name ++ [">"] ++ ["&"]) := rfl
  have hbehind : "std" :: (["::", "shared_ptr", "<"] ++ name ++ [">"] ++ ["&"]) =
      spelledTemplate "shared_ptr" name ++ ["&"] := rfl
  rw [hform] at htexts ⊢
  rw [typeText_const htexts (by decide), hbehind,
    typeText_concat_mark alphabet (by decide), typeText_template alphabet]
  refine (startsWith_const_append "std::shared_ptr<").trans ?_
  rw [startsWith, List.isPrefixOf_iff_prefix]
  refine ⟨typeText name ++ ['>'] ++ ['&'], ?_⟩
  rw [show ∀ text : List Char,
    (String.ofList text).toList = text from fun _ => String.toList_ofList]
  simp

/-- **`_object_passing` reads the form of an object parameter.** -/
theorem objectPassing_of_spelledForm {reference coreConst shared : Bool} (hname : NameTokens name)
    (hfront : coreConst → shared = false → name.head? ≠ some "::")
    (htexts : TypeTokens alphabet (spelledForm reference coreConst shared name))
    (hallowed : validObjectForm shared reference coreConst false .parameter = true) :
    objectPassing (String.ofList (typeText (spelledForm reference coreConst shared name))) =
      .ok (formPassing coreConst shared) := by
  obtain ⟨hreferred, hcore, htokens⟩ := typeTokens_of_form htexts
  obtain ⟨hreference, _⟩ := reference_of_form hname htexts
  have hends := form_endsWith hname hreferred
  rw [objectPassing, normalizedCppType_typeText htexts]
  cases shared with
  | true =>
      cases reference with
      | true =>
          obtain rfl : coreConst = true := by
            revert hallowed
            cases coreConst <;> decide
          rw [spelledForm_reference] at htexts ⊢
          rw [sharedForm_startsWith htexts, hends]
          rfl
      | false =>
          obtain rfl : coreConst = false := by
            revert hallowed
            cases coreConst <;> decide
          have hform : spelledForm false false true name = spelledTemplate "shared_ptr" name := by
            simp [spelledForm]
          rw [hform] at htexts ⊢
          have hstarts : startsWith (String.ofList (typeText (spelledTemplate "shared_ptr" name)))
              "std::shared_ptr<" ∧
              endsWith (String.ofList (typeText (spelledTemplate "shared_ptr" name))) ">" := by
            have hboth := (exists_template htexts isWord_sharedPtr).mpr ⟨name, rfl⟩
            rwa [Bool.and_eq_true] at hboth
          have hconst : startsWith (String.ofList (typeText (spelledTemplate "shared_ptr" name)))
              "const std::shared_ptr<" = false := by
            rw [typeText_template alphabet]
            exact not_startsWith_of_head (show "const std::shared_ptr<".toList = 'c' :: _ from rfl)
              (by decide)
          rw [hconst, hstarts.1, hstarts.2]
          rfl
  | false =>
      obtain rfl : reference = true := by
        revert hallowed
        cases reference <;> cases coreConst <;> decide
      rw [spelledForm_reference] at hreference htexts ⊢
      have hclosing : endsWith
        (String.ofList (typeText (referredForm coreConst false name ++ ["&"])))
          ">" = false := by
        rw [Bool.eq_false_iff, Ne, exists_before_of_endsWith (by decide) rfl htexts]
        rintro ⟨before, hbefore⟩
        exact absurd (List.singleton_inj.mp (List.append_inj' hbefore rfl).2) (by decide)
      have hconst := form_startsWith_const hname (fun hconst => hfront hconst rfl) htexts
      rw [hends, hclosing, hconst, hreference]
      cases coreConst with
      | true => simp [formPassing]
      | false => simp [formPassing]

/-! ### The spelling of denoted tokens -/

/-- As many brackets open as close, and a reference stands only at the end. -/
structure Spellable (texts : List String) : Prop where
  brackets : texts.count "<" = texts.count ">"
  references : "&" ∉ texts.dropLast

theorem count_template {template : String} {inner : List String} (hmark : template ∉ typeMarks)
    (hinner : inner.count "<" = inner.count ">") :
    (spelledTemplate template inner).count "<" = (spelledTemplate template inner).count ">" := by
  have hopening : (template == "<") = false := by
    simpa using fun heq : template = "<" => hmark (by rw [heq]; decide)
  have hclosing : (template == ">") = false := by
    simpa using fun heq : template = ">" => hmark (by rw [heq]; decide)
  simp [spelledTemplate, List.count_append, List.count_cons, hopening, hclosing, hinner]

theorem reference_mem_template {template : String} {inner : List String}
    (hmark : template ∉ typeMarks) : "&" ∈ spelledTemplate template inner ↔ "&" ∈ inner := by
  have hne : "&" ≠ template := by
    rintro rfl
    exact hmark (by decide)
  simp [spelledTemplate, hne]

theorem spellable_of_unreferenced (hbrackets : texts.count "<" = texts.count ">")
    (hreference : "&" ∉ texts) : Spellable texts :=
  ⟨hbrackets, fun hmem => hreference (List.dropLast_subset texts hmem)⟩

theorem spellable_of_referred {referred : List String}
    (hbrackets : referred.count "<" = referred.count ">") (hreference : "&" ∉ referred) :
    Spellable (referred ++ ["&"]) where
  brackets := by simpa [List.count_append] using hbrackets
  references := by simpa using hreference

theorem NameTokens.balanced (hname : NameTokens name) : name.count "<" = name.count ">" := by
  rw [List.count_eq_zero.mpr (hname.not_mem (by decide) (by decide)),
    List.count_eq_zero.mpr (hname.not_mem (by decide) (by decide))]

/-- What tokens denote can be spelled, and what may be contained has no reference. -/
theorem DenotesType.spellable
    (hdenotes : DenotesType registry cppNamespace position texts type passing) :
    Spellable texts ∧ (position = .contained →
      texts.count "<" = texts.count ">" ∧ "&" ∉ texts) := by
  have hplain {texts : List String} {position : CppPosition}
      (hbrackets : texts.count "<" = texts.count ">") (hreference : "&" ∉ texts) :
      Spellable texts ∧ (position = .contained →
        texts.count "<" = texts.count ">" ∧ "&" ∉ texts) :=
    ⟨spellable_of_unreferenced hbrackets hreference, fun _ => ⟨hbrackets, hreference⟩⟩
  have hunreferenced {name : List String} (hname : NameTokens name) : "&" ∉ name :=
    hname.not_mem (by decide) (by decide)
  induction hdenotes with
  | void => exact hplain (by decide) (by decide)
  | scalar hscalar =>
      have hall : ∀ entry ∈ scalarSpellings,
          entry.1.count "<" = entry.1.count ">" ∧ "&" ∉ entry.1 := by decide
      obtain ⟨hbrackets, hreference⟩ := hall _ hscalar
      exact hplain hbrackets hreference
  | owned hname _ _ _ _ =>
      have htokens := nameTokens_of_spells hname
      exact hplain htokens.balanced (hunreferenced htokens)
  | shared hname _ _ =>
      have htokens := nameTokens_of_spells hname
      apply hplain (count_template (by decide) htokens.balanced)
      rw [reference_mem_template (by decide)]
      exact hunreferenced htokens
  | sharedConstRef hname _ _ =>
      have htokens := nameTokens_of_spells hname
      refine ⟨spellable_of_referred ?_ ?_, fun hcontained => by cases hcontained⟩
      · have hcount := @count_template "shared_ptr" _ (by decide) htokens.balanced
        simpa [List.count_cons] using hcount
      · rw [List.mem_cons, reference_mem_template (by decide)]
        simpa using hunreferenced htokens
  | borrowedMutable hname _ _ =>
      have htokens := nameTokens_of_spells hname
      exact ⟨spellable_of_referred htokens.balanced (hunreferenced htokens),
        fun hcontained => by cases hcontained⟩
  | borrowedConst hname _ _ =>
      have htokens := nameTokens_of_spells hname
      refine ⟨spellable_of_referred ?_ ?_, fun hcontained => by cases hcontained⟩
      · simpa [List.count_cons] using htokens.balanced
      · simpa using hunreferenced htokens
  | vector _ _ _ ih =>
      obtain ⟨hbrackets, hreference⟩ := ih.2 rfl
      apply hplain (count_template (by decide) hbrackets)
      rwa [reference_mem_template (by decide)]
  | optional _ _ ih =>
      obtain ⟨hbrackets, hreference⟩ := ih.2 rfl
      apply hplain (count_template (by decide) hbrackets)
      rwa [reference_mem_template (by decide)]

/-! ### The registry -/

def WordParts (alphabet : TypeAlphabet) (parts : List String) : Prop :=
  ∀ part ∈ parts, alphabet.lexicon.IsWord part.toList

theorem WellNamed.add {featureId publicName : String} {kind : NamedKind}
    {next : CppTypeRegistry} (hwell : WellNamed alphabet registry)
    (hwords : WordParts alphabet (cppNamespace ++ [publicName]))
    (hok : registry.add featureId (joinNames (cppNamespace ++ [publicName])) publicName kind =
      .ok next) : WellNamed alphabet next := by
  simp only [CppTypeRegistry.add, bind_eq_ok, exists_unit, require_eq_ok, pure_eq_ok] at hok
  obtain ⟨typeId, _, hnew, rfl⟩ := hok
  refine ⟨?_, ?_⟩
  · intro named hnamed
    rcases List.mem_append.mp hnamed with hold | hlast
    · exact hwell.names named hold
    · rw [List.mem_singleton.mp hlast]
      exact ⟨cppNamespace, rfl, hwords⟩
  · apply List.pairwise_append.mpr
    refine ⟨hwell.distinct, List.pairwise_singleton _ _, ?_⟩
    intro first hfirst last hlast hsame
    rw [List.mem_singleton.mp hlast] at hsame
    have hfound := (byQualified_eq_some hwell.distinct).mpr ⟨hfirst, hsame⟩
    rw [hfound] at hnew
    cases hnew

/-- A registry of sources with proper names is one of proper names. -/
theorem wellNamed_of_make {featureId : String} {classes : List CppClassSource}
    {enums : List CppEnumSource}
    (hmake : CppTypeRegistry.make featureId classes enums = .ok registry)
    (hclasses : ∀ source ∈ classes, WordParts alphabet (source.cppNamespace ++ [source.cppName]))
    (henums : ∀ source ∈ enums, WordParts alphabet (source.cppNamespace ++ [source.cppName])) :
    WellNamed alphabet registry := by
  have hfold {Source : Type}
    {step : CppTypeRegistry → Source → Except FrontendError CppTypeRegistry}
      {sources : List Source}
      (hstep : ∀ source ∈ sources, ∀ registry next, WellNamed alphabet registry →
        step registry source = .ok next → WellNamed alphabet next) :
      ∀ {registry next : CppTypeRegistry}, WellNamed alphabet registry →
        sources.foldlM step registry = .ok next → WellNamed alphabet next := by
    induction sources with
    | nil =>
        intro registry next hwell hok
        obtain rfl : registry = next := by simpa using hok
        exact hwell
    | cons source sources ih =>
        intro registry next hwell hok
        obtain ⟨between, hfirst, hrest⟩ := foldlM_cons_eq_ok.mp hok
        exact ih (fun other hother => hstep other (List.mem_cons_of_mem source hother))
          (hstep source List.mem_cons_self registry between hwell hfirst) hrest
  have hempty : WellNamed alphabet [] :=
    ⟨fun _ hnamed => absurd hnamed List.not_mem_nil, List.Pairwise.nil⟩
  obtain ⟨between, hfirst, hrest⟩ := bind_eq_ok.mp hmake
  have hbetween : WellNamed alphabet between := by
    refine hfold ?_ hempty hfirst
    intro source hsource registry next hwell hok
    rw [CppTypeRegistry.addClass] at hok
    split at hok
    · exact hwell.add (hclasses source hsource) hok
    · split at hok
      · exact hwell.add (hclasses source hsource) hok
      · obtain rfl : registry = next := by simpa using hok
        exact hwell
  refine hfold ?_ hbetween hrest
  intro source hsource registry next hwell hok
  exact hwell.add (henums source hsource) hok

/-! ### The pipeline -/

theorem isAllowed_iff {token : CppToken} :
    token.isAllowed ↔ token.kind = .identifier ∨ token.text ∈ typeMarks := by
  rw [CppToken.isAllowed, Bool.or_eq_true, decide_eq_true_iff, List.contains_iff_mem,
    ← toList_mem_allowedPunctuation, CppToken.text, String.toList_ofList]

theorem spells_iff_text {token : CppToken} {text : String} :
    token.spells text ↔ token.text = text := by
  rw [CppToken.spells, decide_eq_true_iff, ← String.toList_inj, CppToken.text,
    String.toList_ofList]

theorem countP_spells (tokens : List CppToken) (text : String) :
    tokens.countP (CppToken.spells text) = (tokens.map CppToken.text).count text := by
  rw [List.count, List.countP_map]
  apply List.countP_congr
  intro token _
  rw [spells_iff_text]
  simp

theorem typeTokens_of_lexed {tokens : List CppToken} (hlexed : Lexed alphabet tokens)
    (hallowed : ∀ token ∈ tokens, token.isAllowed) :
    TypeTokens alphabet (tokens.map CppToken.text) := by
  intro text htext
  obtain ⟨token, htoken, rfl⟩ := List.mem_map.mp htext
  rcases isAllowed_iff.mp (hallowed token htoken) with hidentifier | hmark
  · have hword := hlexed token htoken hidentifier
    rw [CppToken.text, String.toList_ofList]
    exact .inr hword
  · exact isToken_of_mem_typeMarks hmark

/-- The spelling of tokens that a type may have and that can be spelled. -/
theorem cppTypeSpelling_eq_some_iff {tokens : List CppToken} (hlexed : Lexed alphabet tokens)
    {spelling : String} :
    cppTypeSpelling tokens = some spelling ↔
      (tokens ≠ [] ∧ (∀ token ∈ tokens, token.isAllowed) ∧
        Spellable (tokens.map CppToken.text)) ∧
      spelling = String.ofList (typeText (tokens.map CppToken.text)) := by
  rw [cppTypeSpelling_eq_some hlexed, countP_spells, countP_spells]
  have hreferences : (∀ token ∈ tokens.dropLast, token.spells "&" = false) ↔
      "&" ∉ (tokens.map CppToken.text).dropLast := by
    rw [← List.map_dropLast, List.mem_map]
    constructor
    · rintro hnone ⟨token, htoken, htext⟩
      have hspells := spells_iff_text.mpr htext
      rw [hnone token htoken] at hspells
      cases hspells
    · intro hnone token htoken
      rw [Bool.eq_false_iff, Ne, spells_iff_text]
      exact fun htext => hnone ⟨token, htoken, htext⟩
  rw [hreferences]
  constructor
  · rintro ⟨⟨hne, hallowed, hbrackets, hnone⟩, hspelling⟩
    exact ⟨⟨hne, hallowed, hbrackets, hnone⟩, hspelling⟩
  · rintro ⟨⟨hne, hallowed, hspellable⟩, hspelling⟩
    exact ⟨⟨hne, hallowed, hspellable.brackets, hspellable.references⟩, hspelling⟩

theorem toOption_eq_some {Value : Type} {result : Except FrontendError Value} {value : Value} :
    result.toOption = some value ↔ result = .ok value := by
  cases result with
  | error error => simp [Except.toOption]
  | ok found => simp [Except.toOption]

/-- What tokens denote says how an object parameter is passed, as its text does. -/
theorem DenotesType.passing_eq
    (hdenotes : DenotesType registry cppNamespace position texts type passing)
    (htexts : TypeTokens alphabet texts) (happart : ConstApart texts) :
    readPassing position type (String.ofList (typeText texts)) = some passing := by
  rw [readPassing]
  by_cases htable : ∃ found, (texts, found) ∈ spelledTable
  · obtain ⟨found, hentry⟩ := htable
    obtain ⟨hpassing, rfl, _⟩ := (denotesType_iff_of_table hentry).mp hdenotes
    have hall : ∀ entry ∈ spelledTable, entry.2.node.kind ≠ .objectRef := by decide
    rw [if_neg fun hboth => hall _ hentry hboth.2, hpassing]
  rw [not_exists] at htable
  rcases hdenotes.cases_of_table htable with hform | ⟨hpassing, _, _, _, _, hcontainer⟩
  · obtain ⟨reference, coreConst, shared, name, named, hform⟩ := hform
    have hpassing := hform.passing
    have hallowed := hform.allowed
    have hsame : named.kind = .object ∧ position = .parameter ↔
        position = .parameter ∧ type.node.kind = .objectRef := by
      rw [kind_of_semanticType hform.type, and_comm]
    by_cases hobject : position = .parameter ∧ type.node.kind = .objectRef
    · rw [if_pos (hsame.mpr hobject)] at hpassing
      rw [if_pos hobject, hpassing]
      rw [if_pos ((kind_of_semanticType hform.type).mp hobject.2), hobject.1] at hallowed
      have hname := nameTokens_of_spells hform.spells
      have hshape := hform.form
      subst hshape
      rw [objectPassing_of_spelledForm hname (front_of_constApart happart) htexts hallowed]
      rfl
    · rw [if_neg fun hboth => hobject (hsame.mp hboth)] at hpassing
      rw [if_neg hobject, hpassing]
  · have hkind : type.node.kind ≠ .objectRef := by
      rcases hcontainer with ⟨_, htype⟩ | ⟨_, htype⟩
      · rw [htype]
        exact fun hsame => by cases hsame
      · rw [htype]
        exact fun hsame => by cases hsame
    rw [if_neg fun hboth => hkind hboth.2, hpassing]

/-- **The pipeline reads what the tokens denote.** In a position of a parameter, a result, a field
or a container, and where no `const` stands directly in front of a `::`, the tokens of a type are
accepted where they are in the grammar, with the type and the passing form they denote there. -/
theorem readCppType_eq_some {featureId : String} {classes : List CppClassSource}
    {enums : List CppEnumSource} {tokens : List CppToken}
    (hmake : CppTypeRegistry.make featureId classes enums = .ok registry)
    (hclasses : ∀ source ∈ classes, WordParts alphabet (source.cppNamespace ++ [source.cppName]))
    (henums : ∀ source ∈ enums, WordParts alphabet (source.cppNamespace ++ [source.cppName]))
    (hlexed : Lexed alphabet tokens) (happart : ConstApart (tokens.map CppToken.text))
    (hposition : position ≠ .direct) :
    readCppType registry source cppNamespace position tokens = some (type, passing) ↔
      (∀ token ∈ tokens, token.kind = .identifier ∨ token.text ∈ typeMarks) ∧
        DenotesType registry cppNamespace position (tokens.map CppToken.text) type passing := by
  have hwell := wellNamed_of_make hmake hclasses henums
  simp only [← isAllowed_iff]
  have hcanonical (hallowed : ∀ token ∈ tokens, token.isAllowed) :
      canonicalCppType (some registry) source cppNamespace
          (String.ofList (typeText (tokens.map CppToken.text))) (decide (position = .result))
          position = .ok type ↔
        ∃ passing, DenotesType registry cppNamespace position (tokens.map CppToken.text) type
          passing := by
    apply canonicalCppTypeFrom_eq_ok hwell (typeTokens_of_lexed hlexed hallowed) happart _ hposition
    rw [String.length_ofList]
    exact Nat.lt_succ_self _
  constructor
  · intro hok
    simp only [readCppType, Option.bind_eq_bind, Option.bind_eq_some_iff, Option.pure_def,
      Option.some.injEq, Prod.mk.injEq] at hok
    obtain ⟨spelling, hspelling, found, hfound, given, hgiven, rfl, rfl⟩ := hok
    obtain ⟨⟨_, hallowed, _⟩, rfl⟩ := (cppTypeSpelling_eq_some_iff hlexed).mp hspelling
    have htype := toOption_eq_some.mp hfound
    obtain ⟨carried, hdenotes⟩ := (hcanonical hallowed).mp htype
    have hpassing := hdenotes.passing_eq (typeTokens_of_lexed hlexed hallowed) happart
    rw [hgiven, Option.some.injEq] at hpassing
    rw [hpassing]
    exact ⟨hallowed, hdenotes⟩
  · rintro ⟨hallowed, hdenotes⟩
    have hne : tokens ≠ [] := by
      rintro rfl
      exact hdenotes.ne_nil rfl
    have hspelling := (cppTypeSpelling_eq_some_iff hlexed).mpr
      ⟨⟨hne, hallowed, hdenotes.spellable.1⟩, rfl⟩
    have hfound := (hcanonical hallowed).mpr ⟨passing, hdenotes⟩
    have hpassing := hdenotes.passing_eq (typeTokens_of_lexed hlexed hallowed) happart
    rw [readCppType, hspelling, Option.bind_eq_bind, Option.bind_some, hfound]
    simp only [Except.toOption, Option.bind_eq_bind, Option.bind_some, hpassing, Option.pure_def]

end

/-! ### Samples -/

theorem isSpace_of_isAlphanum {char : Char} (hchar : char.isAlphanum = true) :
    isSpace char = false := by
  have hname : isNameChar char = true := by
    rw [isNameChar, isWordChar, hchar]
    rfl
  have hcode := toNat_of_isNameChar hname
  rw [Bool.eq_false_iff]
  intro hspace
  rw [isSpace] at hspace
  simp only [Bool.or_eq_true, Bool.and_eq_true, decide_eq_true_eq, List.mem_cons,
    List.not_mem_nil, or_false] at hspace
  omega

theorem isAlphanum_of_isAlpha {char : Char} (hletter : char.isAlpha = true) :
    char.isAlphanum = true := by
  have halphanum : char.isAlphanum = (char.isAlpha || char.isDigit) := rfl
  rw [halphanum, hletter, Bool.true_or]

theorem not_isAlphanum_of_isSpace {char : Char} (hspace : isSpace char) :
    char.isAlphanum = false := by
  rw [Bool.eq_false_iff]
  intro halphanum
  rw [isSpace_of_isAlphanum halphanum] at hspace
  cases hspace

theorem marks_not_isAlphanum : ":<>&,".toList.all (!Char.isAlphanum ·) = true := by
  decide

/-- The letters and digits of ASCII. -/
def asciiTypeAlphabet : TypeAlphabet where
  toAlphabet := CppLexer.ascii
  letters _ := isAlphanum_of_isAlpha
  ascii _ halphanum := halphanum
  spaceless _ := not_isAlphanum_of_isSpace
  unmarked := marks_not_isAlphanum

/-- The tokens of these texts, each a line of its own. -/
def tokensOf (texts : List String) : List CppToken :=
  texts.map fun text =>
    ⟨text.toList, 0, 0, 1, if typeMarks.contains text then .punctuation else .identifier, 0, 0⟩

/-- `class Widget` in a namespace `app`, marked as an object. -/
def widgetSource : CppClassSource where
  provenance := ⟨⟨"cpp:widget.hpp:class:Widget", "cpp", "widget.hpp", 2, 1⟩, by decide⟩
  cppName := "Widget"
  includePath := "widget.hpp"
  intent := ⟨⟨.class_, [.after 0 .object]⟩, by decide⟩
  constructors := []
  methods := []
  cppNamespace := ["app"]
  target := rfl
  kind := class_mem_kinds

/-- What is registered of the class. -/
def widgetType : CppNamedType :=
  ⟨"app::Widget", "Widget", .object, "feature:native:type:Widget"⟩

theorem readCppType_eq_some_borrowed :
    ∃ type, type.node = .objectRef "feature:native:type:Widget" ∧
      readCppType [widgetType] widgetSource.provenance ["app"] .parameter
        (CppLexer.lex CppLexer.ascii "const app::Widget&".toList).tokens =
          some (type, some .borrowedConst) := by
  obtain ⟨type, htype⟩ : ∃ type, widgetType.semanticType = .ok type :=
    exists_of_isOk (by decide)
  refine ⟨type, ?_, ?_⟩
  · exact SemanticType.objectRef_eq_ok.mp (semantically_eq_ok.mp htype)
  have hmake : CppTypeRegistry.make "feature:native" [widgetSource] [] = .ok [widgetType] := by
    decide
  have hlexed := CppLexer.lexed_lex asciiTypeAlphabet "const app::Widget&".toList
  change Lexed asciiTypeAlphabet (CppLexer.lex CppLexer.ascii _).tokens at hlexed
  have htexts : (CppLexer.lex CppLexer.ascii "const app::Widget&".toList).tokens.map
      CppToken.text = "const" :: ["app", "::", "Widget"] ++ ["&"] := by
    decide
  have hspells : CppTypeRegistry.Spells [widgetType] ["app"] ["app", "::", "Widget"] widgetType :=
    ⟨["app", "Widget"], by decide, by decide, .inl rfl, .qualified List.mem_cons_self rfl⟩
  refine (@readCppType_eq_some asciiTypeAlphabet _ _ _ .parameter type _ _ _ _ _ hmake ?_ ?_
    hlexed ?_ (by decide)).mpr ⟨by decide, ?_⟩
  · intro source hsource part hpart
    rw [List.mem_singleton.mp hsource] at hpart
    have hascii : ∀ part ∈ ["app"] ++ ["Widget"], part.toList ≠ [] ∧
        part.toList.all (fun char => char.isAlphanum || char = '_') = true := by decide
    obtain ⟨hne, hall⟩ := hascii part hpart
    exact isWord_of_ascii hne hall
  · exact fun _ hsource => absurd hsource List.not_mem_nil
  · rw [htexts, ConstApart]
    decide
  · rw [htexts]
    exact .borrowedConst hspells rfl htype

/-- A scalar whose name starts with `::` is refused, and so is an optional in another one. -/
theorem global_scalar_refused :
    (readCppType [] widgetSource.provenance [] .field (tokensOf ["std", "::", "string"])).isSome ∧
      readCppType [] widgetSource.provenance [] .field (tokensOf ["::", "std", "::", "string"]) =
        none ∧
      (readCppType [] widgetSource.provenance [] .field
        (tokensOf ["std", "::", "optional", "<", "bool", ">"])).isSome ∧
      readCppType [] widgetSource.provenance [] .field
        (tokensOf ["std", "::", "optional", "<", "std", "::", "optional", "<", "bool", ">", ">"]) =
        none := by
  decide

end SupernoteModule.Frontend
