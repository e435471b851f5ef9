import SupernoteModule.Proof.CppLexer
import SupernoteModule.Spec.CppSpans

/-!
# What a lexer records of a text

Every round goes from one index to a later one. It records the stretch between the two, or it leaves
out whitespace or a block comment.
-/

namespace SupernoteModule.Frontend

open SupernoteModule.Lib SupernoteModule.Python

/-! ### Searching -/

theorem findFrom_least {part rest : List Char} : ∀ {index found : Nat},
    findFrom part index rest = some found → ∀ offset, index + offset < found →
      part.isPrefixOf (rest.drop offset) = false := by
  induction rest with
  | nil =>
      intro index found hfound offset hoffset
      rw [findFrom] at hfound
      split at hfound
      · obtain rfl := Option.some.inj hfound
        omega
      · cases hfound
  | cons char rest ih =>
      intro index found hfound offset hoffset
      rw [findFrom] at hfound
      split at hfound
      · obtain rfl := Option.some.inj hfound
        omega
      · rename_i hpart
        cases offset with
        | zero => exact Bool.eq_false_iff.mpr hpart
        | succ offset => exact ih hfound offset (by omega)

theorem findFrom_absent {part rest : List Char} : ∀ {index : Nat},
    findFrom part index rest = none → ∀ offset, part.isPrefixOf (rest.drop offset) = false := by
  induction rest with
  | nil =>
      intro index hnone offset
      rw [findFrom] at hnone
      rw [List.drop_nil]
      cases part with
      | nil => cases hnone
      | cons char part => rfl
  | cons char rest ih =>
      intro index hnone offset
      rw [findFrom] at hnone
      split at hnone
      · cases hnone
      · rename_i hpart
        cases offset with
        | zero => exact Bool.eq_false_iff.mpr hpart
        | succ offset => exact ih hnone offset

section Find

variable {text part : List Char} {start found index : Nat}

/-- A search finds the first place of all. -/
theorem find_least (hfound : find text part start = some found) (hstart : start ≤ index)
    (hindex : index < found) : startsAt text part index = false := by
  have hleast := findFrom_least hfound (index - start) (by omega)
  rw [List.drop_drop, Nat.add_sub_cancel' hstart] at hleast
  exact hleast

theorem find_absent (hnone : find text part start = none) (hstart : start ≤ index) :
    startsAt text part index = false := by
  have habsent := findFrom_absent hnone (index - start)
  rw [List.drop_drop, Nat.add_sub_cancel' hstart] at habsent
  exact habsent

theorem slice_of_startsAt (hstarts : startsAt text part start = true) :
    slice text start (start + part.length) = part := by
  obtain ⟨rest, hrest⟩ := startsAt_iff.mp hstarts
  rw [slice_eq_take_drop, ← hrest, Nat.add_sub_cancel_left, List.take_left]

theorem isBlockComment (hstarts : startsAt text ['/', '*'] start = true) :
    IsBlockComment text ⟨start, CppLexer.blockCommentEnd text start⟩ := by
  rw [CppLexer.blockCommentEnd]
  cases hfound : find text ['*', '/'] (start + 2) with
  | none =>
      exact ⟨hstarts, fun index hindex _ => find_absent hfound hindex,
        .inr ⟨rfl, fun index hindex => find_absent hfound hindex⟩⟩
  | some marker =>
      obtain ⟨hforward, hmarker, _⟩ := find_eq_some hfound
      refine ⟨hstarts, ?_, .inl ⟨?_, hmarker⟩⟩
      · intro index hindex hbefore
        apply find_least hfound hindex
        exact Nat.lt_of_add_lt_add_right hbefore
      · exact Nat.add_le_add_right hforward 2

end Find

namespace CppLexer

/-! ### One round -/

section Round

variable {lexer next : CppLexer} {added : List Span} {char : Char} {alphabet : Alphabet}

/-- The lexer adds spans to one of its records. -/
structure Records (lexer next : CppLexer) (added : List Span) : Prop where
  tokens : next.tokenSpans = lexer.tokenSpans ∨ next.tokenSpans = lexer.tokenSpans ++ added
  comments : next.commentSpans = lexer.commentSpans ∨
    next.commentSpans = lexer.commentSpans ++ added
  directives : next.directiveSpans = lexer.directiveSpans ∨
    next.directiveSpans = lexer.directiveSpans ++ added
  spans : next.spans.Perm (lexer.spans ++ added)

theorem records_nothing (htokens : next.tokens = lexer.tokens)
    (hcomments : next.comments = lexer.comments)
    (hdirectives : next.directives = lexer.directives) : Records lexer next [] := by
  have htokenSpans : next.tokenSpans = lexer.tokenSpans := by rw [tokenSpans, htokens]; rfl
  have hcommentSpans : next.commentSpans = lexer.commentSpans := by
    rw [commentSpans, hcomments]
    rfl
  have hdirectiveSpans : next.directiveSpans = lexer.directiveSpans := by
    rw [directiveSpans, hdirectives]
    rfl
  refine ⟨.inl htokenSpans, .inl hcommentSpans, .inl hdirectiveSpans, ?_⟩
  rw [spans, htokenSpans, hcommentSpans, hdirectiveSpans, List.append_nil]
  exact List.Perm.refl _

theorem records_token {token : CppToken} (htokens : next.tokens = lexer.tokens ++ [token])
    (hcomments : next.comments = lexer.comments)
    (hdirectives : next.directives = lexer.directives) :
    Records lexer next [⟨token.start, token.end_⟩] := by
  have htokenSpans : next.tokenSpans = lexer.tokenSpans ++ [⟨token.start, token.end_⟩] := by
    rw [tokenSpans, htokens, List.map_append]
    rfl
  have hcommentSpans : next.commentSpans = lexer.commentSpans := by
    rw [commentSpans, hcomments]
    rfl
  have hdirectiveSpans : next.directiveSpans = lexer.directiveSpans := by
    rw [directiveSpans, hdirectives]
    rfl
  refine ⟨.inr htokenSpans, .inl hcommentSpans, .inl hdirectiveSpans, ?_⟩
  rw [spans, htokenSpans, hcommentSpans, hdirectiveSpans, spans, List.append_assoc,
    List.append_assoc]
  exact List.Perm.append_left _ List.perm_append_comm

theorem records_comment {comment : LineComment} (htokens : next.tokens = lexer.tokens)
    (hcomments : next.comments = lexer.comments ++ [comment])
    (hdirectives : next.directives = lexer.directives) :
    Records lexer next [⟨comment.start, comment.end_⟩] := by
  have htokenSpans : next.tokenSpans = lexer.tokenSpans := by rw [tokenSpans, htokens]; rfl
  have hcommentSpans : next.commentSpans =
    lexer.commentSpans ++ [⟨comment.start, comment.end_⟩] := by
    rw [commentSpans, hcomments, List.map_append]
    rfl
  have hdirectiveSpans : next.directiveSpans = lexer.directiveSpans := by
    rw [directiveSpans, hdirectives]
    rfl
  refine ⟨.inl htokenSpans, .inr hcommentSpans, .inl hdirectiveSpans, ?_⟩
  rw [spans, htokenSpans, hcommentSpans, hdirectiveSpans, spans, List.append_assoc,
    List.append_assoc, List.append_assoc]
  apply List.Perm.append_left
  apply List.Perm.append_left
  exact List.perm_append_comm

theorem records_directive {directive : Directive} (htokens : next.tokens = lexer.tokens)
    (hcomments : next.comments = lexer.comments)
    (hdirectives : next.directives = lexer.directives ++ [directive]) :
    Records lexer next [⟨directive.start, directive.end_⟩] := by
  have htokenSpans : next.tokenSpans = lexer.tokenSpans := by rw [tokenSpans, htokens]; rfl
  have hcommentSpans : next.commentSpans = lexer.commentSpans := by
    rw [commentSpans, hcomments]
    rfl
  have hdirectiveSpans :
      next.directiveSpans = lexer.directiveSpans ++ [⟨directive.start, directive.end_⟩] := by
    rw [directiveSpans, hdirectives, List.map_append]
    rfl
  refine ⟨.inl htokenSpans, .inl hcommentSpans, .inr hdirectiveSpans, ?_⟩
  rw [spans, htokenSpans, hcommentSpans, hdirectiveSpans, spans, List.append_assoc,
    List.append_assoc]

end Round

end CppLexer

namespace Spanned

variable {lexer next : CppLexer} {added : List Span}

theorem end_le {text : List Char} {bound : Nat} (hspanned : Spanned text bound lexer) :
    ∀ span ∈ lexer.spans, span.end_ ≤ bound := by
  intro span hspan
  rw [CppLexer.spans, List.mem_append, List.mem_append] at hspan
  rcases hspan with htoken | hcomment | hdirective
  · exact (hspanned.tokens.proper span htoken).2
  · exact (hspanned.comments.proper span hcomment).2
  · exact (hspanned.directives.proper span hdirective).2

/-- A round that adds at most the stretch it has gone, and leaves out nothing else than whitespace
and block comments. -/
theorem advance (hspanned : Spanned lexer.text lexer.index lexer)
    (hforward : lexer.index < next.index)
    (hadded : added = [] ∨ added = [⟨lexer.index, next.index⟩])
    (hrecords : CppLexer.Records lexer next added)
    (hvalues : ∀ token ∈ next.tokens, token ∈ lexer.tokens ∨
      (token.kind ≠ .string → token.value = slice lexer.text token.start token.end_))
    (houtside : added = [] → ∀ index char, lexer.text[index]? = some char → lexer.index ≤ index →
      index < next.index →
        isSpace char = true ∨ IsBlockComment lexer.text ⟨lexer.index, next.index⟩) :
    Spanned lexer.text next.index next := by
  have hascending : Ascending next.index added ∧ added.Pairwise Span.Apart ∧
      ∀ span ∈ added, lexer.index ≤ span.start := by
    rcases hadded with rfl | rfl
    · exact ⟨Ascending.nil _, List.Pairwise.nil, fun span hspan => absurd hspan List.not_mem_nil⟩
    · refine ⟨Ascending.single hforward (Nat.le_refl _), List.pairwise_singleton _ _, ?_⟩
      intro span hspan
      rw [List.mem_singleton.mp hspan]
  obtain ⟨hadded_ascending, hadded_apart, hbehind⟩ := hascending
  have hgrown {old new : List Span} (hold : Ascending lexer.index old)
      (hnew : new = old ∨ new = old ++ added) : Ascending next.index new := by
    rcases hnew with rfl | rfl
    · exact hold.mono hforward.le
    · exact hold.append hforward.le hadded_ascending hbehind
  have hmem : ∀ span, span ∈ next.spans ↔ span ∈ lexer.spans ∨ span ∈ added := by
    intro span
    rw [hrecords.spans.mem_iff, List.mem_append]
  refine ⟨hgrown hspanned.tokens hrecords.tokens, hgrown hspanned.comments hrecords.comments,
    hgrown hspanned.directives hrecords.directives, ?_, ?_, ?_⟩
  · have hall := pairwise_apart_append hspanned.disjoint hspanned.end_le hadded_apart hbehind
    exact (hrecords.spans.pairwise_iff fun hapart => hapart.symm).mpr hall
  · intro token htoken hkind
    rcases hvalues token htoken with hold | hnew
    · exact hspanned.values token hold hkind
    · exact hnew hkind
  · intro index char hchar hindex hfree
    by_cases hbefore : index < lexer.index
    · have hold := hspanned.outside index char hchar hbefore fun span hspan =>
        hfree span ((hmem span).mpr (.inl hspan))
      apply hold.imp_right
      rintro ⟨comment, hcomment, hhas, hbound, hapart⟩
      refine ⟨comment, hcomment, hhas, hbound.trans hforward.le, ?_⟩
      intro span hspan
      rcases (hmem span).mp hspan with hspan | hspan
      · exact hapart span hspan
      · exact .inl (hbound.trans (hbehind span hspan))
    · have hhas : (Span.mk lexer.index next.index).Has index := ⟨Nat.le_of_not_lt hbefore, hindex⟩
      rcases hadded with rfl | rfl
      · apply (houtside rfl index char hchar hhas.1 hindex).imp_right
        intro hcomment
        refine ⟨_, hcomment, hhas, Nat.le_refl _, ?_⟩
        intro span hspan
        rcases (hmem span).mp hspan with hspan | hspan
        · exact .inr (hspanned.end_le span hspan)
        · exact absurd hspan List.not_mem_nil
      · exact absurd hhas (hfree _ ((hmem _).mpr (.inr (List.mem_singleton_self _))))

/-- A round that leaves out whitespace or a block comment. -/
theorem skip (hspanned : Spanned lexer.text lexer.index lexer)
    (hforward : lexer.index < next.index) (htokens : next.tokens = lexer.tokens)
    (hcomments : next.comments = lexer.comments) (hdirectives : next.directives = lexer.directives)
    (houtside : ∀ index char, lexer.text[index]? = some char → lexer.index ≤ index →
      index < next.index →
        isSpace char = true ∨ IsBlockComment lexer.text ⟨lexer.index, next.index⟩) :
    Spanned lexer.text next.index next := by
  apply hspanned.advance hforward (.inl rfl)
    (CppLexer.records_nothing htokens hcomments hdirectives)
  · intro token htoken
    rw [htokens] at htoken
    exact .inl htoken
  · exact fun _ => houtside

/-- A round that records a token. -/
theorem token {token : CppToken} (hspanned : Spanned lexer.text lexer.index lexer)
    (hforward : lexer.index < next.index) (htokens : next.tokens = lexer.tokens ++ [token])
    (hcomments : next.comments = lexer.comments) (hdirectives : next.directives = lexer.directives)
    (hstart : token.start = lexer.index) (hend : token.end_ = next.index)
    (hvalue : token.kind ≠ .string → token.value = slice lexer.text lexer.index next.index) :
    Spanned lexer.text next.index next := by
  have hrecords := CppLexer.records_token htokens hcomments hdirectives
  rw [hstart, hend] at hrecords
  apply hspanned.advance hforward (.inr rfl) hrecords
  · intro other hother
    rw [htokens, List.mem_append, List.mem_singleton] at hother
    apply hother.imp_right
    rintro rfl hkind
    rw [hstart, hend]
    exact hvalue hkind
  · intro hempty
    cases hempty

/-- A round that records a line comment or a directive. -/
theorem line (hspanned : Spanned lexer.text lexer.index lexer) (hforward : lexer.index < next.index)
    (htokens : next.tokens = lexer.tokens)
    (hrecords : CppLexer.Records lexer next [⟨lexer.index, next.index⟩]) :
    Spanned lexer.text next.index next := by
  apply hspanned.advance hforward (.inr rfl) hrecords
  · intro token htoken
    rw [htokens] at htoken
    exact .inl htoken
  · intro hempty
    cases hempty

end Spanned

namespace CppLexer

variable {lexer : CppLexer} {char : Char} {alphabet : Alphabet} {text : List Char}

theorem slice_punctuation (hchar : text[lexer.index]? = some char) :
    slice text lexer.index (lexer.index + (punctuation text lexer.index char).length) =
      punctuation text lexer.index char := by
  rw [punctuation]
  cases hfound : punctuators.find? fun candidate => startsAt text candidate lexer.index with
  | none =>
      rw [Option.getD_none, List.length_singleton, slice_succ (Nat.le_refl _) hchar, slice_self,
      List.nil_append]
  | some part =>
      exact slice_of_startsAt
        (@List.find?_some _ (fun candidate => startsAt text candidate lexer.index) _ _ hfound)

/-- A round keeps what has been recorded in order. -/
theorem spanned_round (hchar : lexer.text[lexer.index]? = some char)
    (hspanned : Spanned lexer.text lexer.index lexer)
    (hforward : lexer.index < (lexer.consumeTokenOrTrivia alphabet char).index) :
    Spanned lexer.text (lexer.consumeTokenOrTrivia alphabet char).index
      (lexer.consumeTokenOrTrivia alphabet char) := by
  have hsingle (hspace : isSpace char = true) (stop : Nat) : ∀ index other,
      lexer.text[index]? = some other → lexer.index ≤ index → index < lexer.index + 1 →
        isSpace other = true ∨ IsBlockComment lexer.text ⟨lexer.index, stop⟩ := by
    intro index other hother hle hlt
    obtain rfl : index = lexer.index := by omega
    rw [hchar] at hother
    obtain rfl := Option.some.inj hother
    exact .inl hspace
  revert hforward
  rw [consumeTokenOrTrivia]
  by_cases hnewline : char = '\n'
  · rw [if_pos hnewline]
    intro hforward
    exact hspanned.skip hforward rfl rfl rfl (hsingle (by rw [hnewline]; decide) _)
  rw [if_neg hnewline]
  by_cases hspace : isSpace char = true
  · rw [if_pos hspace]
    intro hforward
    exact hspanned.skip hforward rfl rfl rfl (hsingle hspace _)
  rw [if_neg hspace]
  by_cases hdirective : (char = '#' && lexer.lineBlank) = true
  · rw [if_pos hdirective]
    intro hforward
    exact hspanned.line hforward rfl
      (@records_directive lexer lexer.consumeDirective _ rfl rfl rfl)
  rw [if_neg hdirective]
  by_cases hline : startsAt lexer.text ['/', '/'] lexer.index = true
  · rw [if_pos hline]
    intro hforward
    exact hspanned.line hforward rfl
      (@records_comment lexer lexer.consumeLineComment _ rfl rfl rfl)
  rw [if_neg hline]
  by_cases hblock : startsAt lexer.text ['/', '*'] lexer.index = true
  · rw [if_pos hblock]
    intro hforward
    exact hspanned.skip hforward rfl rfl rfl fun _ _ _ _ _ => .inr (isBlockComment hblock)
  rw [if_neg hblock]
  cases rawStringEnd lexer.text lexer.index with
  | some stop =>
      intro hforward
      exact hspanned.token hforward rfl rfl rfl rfl rfl fun hkind => absurd rfl hkind
  | none =>
      dsimp only
      by_cases hquote : (char = '"' || char = '\'') = true
      · rw [if_pos hquote]
        intro hforward
        exact hspanned.token hforward rfl rfl rfl rfl rfl fun hkind => absurd rfl hkind
      rw [if_neg hquote]
      by_cases hword : (alphabet.isAlpha char || char = '_') = true
      · rw [if_pos hword]
        intro hforward
        exact hspanned.token hforward rfl rfl rfl rfl rfl fun _ => rfl
      · rw [if_neg hword]
        intro hforward
        exact hspanned.token hforward rfl rfl rfl rfl rfl fun _ => (slice_punctuation hchar).symm

/-! ### The run -/

theorem spanned_start (text : List Char) : Spanned text 0 { text := text } where
  tokens := Ascending.nil 0
  comments := Ascending.nil 0
  directives := Ascending.nil 0
  disjoint := List.Pairwise.nil
  values _ htoken := absurd htoken List.not_mem_nil
  outside index _ _ hindex := absurd hindex (Nat.not_lt_zero index)

theorem spanned_run (alphabet : Alphabet) (fuel : Nat) : ∀ {lexer : CppLexer},
    lexer.lineStart ≤ lexer.index → Spanned lexer.text lexer.index lexer →
      Spanned lexer.text (run alphabet fuel lexer).index (run alphabet fuel lexer) := by
  induction fuel with
  | zero =>
      intro lexer _ hspanned
      exact hspanned
  | succ fuel ih =>
      intro lexer hstart hspanned
      rw [run]
      cases hchar : lexer.text[lexer.index]? with
      | none => exact hspanned
      | some char =>
          have hround := @advances lexer char alphabet hchar hstart
          have hforward : lexer.index < (lexer.consumeTokenOrTrivia alphabet char).index := by
            rw [hround.index]
            exact hround.forward
          have hnext := spanned_round hchar hspanned hforward
          rw [← hround.text] at hnext ⊢
          exact ih hround.lineStart hnext

/-- **The records of a text.** The lexer comes to the end of the text. What it records by then are
spans that are disjoint and ascend within the text, identifiers and punctuation read as the text
does there, and outside all spans there is nothing but whitespace and block comments. -/
theorem lex_spanned (alphabet : Alphabet) (text : List Char) :
    (lex alphabet text).index = text.length ∧ Spanned text text.length (lex alphabet text) := by
  have hend := (lex_follows alphabet text).2
  have hspanned : Spanned text (lex alphabet text).index (lex alphabet text) :=
    @spanned_run alphabet text.length { text := text } (Nat.le_refl 0) (spanned_start text)
  rw [hend] at hspanned
  exact ⟨hend, hspanned⟩

end CppLexer

end SupernoteModule.Frontend
