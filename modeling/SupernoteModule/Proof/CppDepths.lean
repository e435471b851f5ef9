import SupernoteModule.Proof.CppSpans
import SupernoteModule.Spec.CppScopes

/-!
# Depths of a C++ source

A token outside of conditionals carries the number of braces that are open at it, and a comment
carries the depths and the line of the place where it is.
-/

namespace SupernoteModule.Frontend

open SupernoteModule.Lib SupernoteModule.Python

/-! ### Line starts -/

section LineStarts

variable {text : List Char} {start stop offset : Nat} {char : Char}

theorem getElem?_of_slice (hchar : (slice text start stop)[offset]? = some char) :
    text[start + offset]? = some char := by
  rw [slice_eq_take_drop] at hchar
  obtain ⟨hbound, _⟩ := List.getElem?_eq_some_iff.mp hchar
  have hshort : offset < stop - start := by
    have htake := List.length_take_le (stop - start) (text.drop start)
    omega
  rw [List.getElem?_take_of_lt hshort, List.getElem?_drop] at hchar
  exact hchar

theorem countNewlines_behind {chars : List Char} : ∀ {index line lineStart : Nat},
    (countNewlines chars index line lineStart).2 = lineStart ∨
      ∃ offset, chars[offset]? = some '\n' ∧
        (countNewlines chars index line lineStart).2 = index + offset + 1 := by
  induction chars with
  | nil =>
      intro index line lineStart
      exact .inl rfl
  | cons char chars ih =>
      intro index line lineStart
      have hshift {later : Nat} {result : Nat}
          (hlater : chars[later]? = some '\n') (hresult : result = index + 1 + later + 1) :
          ∃ offset, (char :: chars)[offset]? = some '\n' ∧ result = index + offset + 1 := by
        refine ⟨later + 1, hlater, ?_⟩
        omega
      rw [countNewlines]
      by_cases hnewline : char = '\n'
      · rw [if_pos hnewline]
        rcases @ih (index + 1) (line + 1) (index + 1) with hsame | ⟨later, hlater, hresult⟩
        · refine .inr ⟨0, ?_, hsame⟩
          rw [hnewline]
          rfl
        · exact .inr (hshift hlater hresult)
      · rw [if_neg hnewline]
        rcases @ih (index + 1) line lineStart with hsame | ⟨later, hlater, hresult⟩
        · exact .inl hsame
        · exact .inr (hshift hlater hresult)

theorem consumeNewlines_isLineStart {line lineStart : Nat} (hline : IsLineStart text lineStart) :
    IsLineStart text (consumeNewlines text start stop line lineStart).2 := by
  rw [consumeNewlines]
  rcases @countNewlines_behind (slice text start stop) start line lineStart with
    hsame | ⟨offset, hnewline, hresult⟩
  · rw [hsame]
    exact hline
  · rw [hresult]
    exact .inr (getElem?_of_slice hnewline)

theorem quotedEnd_behind {quote : Char} {rest : List Char} :
    ∀ {escaped : Bool} {cursor : QuoteCursor},
    (quotedEnd quote escaped rest cursor).lineStart = cursor.lineStart ∨
      ∃ offset, rest[offset]? = some '\n' ∧
        (quotedEnd quote escaped rest cursor).lineStart = cursor.index + offset + 1 := by
  induction rest with
  | nil =>
      intro escaped cursor
      cases escaped <;> exact .inl rfl
  | cons char rest ih =>
      intro escaped cursor
      have hshift {later result : Nat}
          (hlater : rest[later]? = some '\n') (hresult : result = cursor.index + 1 + later + 1) :
          ∃ offset, (char :: rest)[offset]? = some '\n' ∧ result = cursor.index + offset + 1 := by
        refine ⟨later + 1, hlater, ?_⟩
        omega
      have hforward (later : Bool) :
          (quotedEnd quote later rest { cursor with index := cursor.index + 1 }).lineStart =
              cursor.lineStart ∨
            ∃ offset, (char :: rest)[offset]? = some '\n' ∧
              (quotedEnd quote later rest { cursor with index := cursor.index + 1 }).lineStart =
                cursor.index + offset + 1 := by
        rcases @ih later { cursor with index := cursor.index + 1 } with
          hsame | ⟨offset, hlater, hresult⟩
        · exact .inl hsame
        · exact .inr (hshift hlater hresult)
      cases escaped with
      | true => exact hforward false
      | false =>
          rw [quotedEnd]
          by_cases hescape : char = '\\'
          · rw [if_pos hescape]
            exact hforward true
          rw [if_neg hescape]
          by_cases hquote : char = quote
          · rw [if_pos hquote]
            exact .inl rfl
          rw [if_neg hquote]
          by_cases hnewline : char = '\n'
          · rw [if_pos hnewline]
            rcases @ih false ⟨cursor.index + 1, cursor.line + 1, cursor.index + 1⟩ with
              hsame | ⟨offset, hlater, hresult⟩
            · refine .inr ⟨0, ?_, hsame⟩
              rw [hnewline]
              rfl
            · exact .inr (hshift hlater hresult)
          · rw [if_neg hnewline]
            exact hforward false

end LineStarts

namespace CppLexer

/-! ### One round -/

/-- What a round records, and what it makes of the depths. -/
inductive Round (lexer next : CppLexer) : Prop
  | skip (htokens : next.tokens = lexer.tokens) (hcomments : next.comments = lexer.comments)
      (hdirectives : next.directives = lexer.directives)
      (hconditionals : next.conditionalDepth = lexer.conditionalDepth)
      (hbraces : next.braceDepth = lexer.braceDepth)
  | directive {directive : Directive} (hend : directive.end_ = next.index)
      (htokens : next.tokens = lexer.tokens) (hcomments : next.comments = lexer.comments)
      (hdirectives : next.directives = lexer.directives ++ [directive])
      (hconditionals : next.conditionalDepth =
        updatedConditionalDepth lexer.conditionalDepth directive.name)
      (hbraces : next.braceDepth = lexer.braceDepth)
  | comment {comment : LineComment} (hstart : comment.start = lexer.index)
      (hline : comment.lineOnly = lexer.lineBlank)
      (hconditional : comment.conditionalDepth = lexer.conditionalDepth)
      (hbrace : comment.braceDepth = lexer.braceDepth)
      (htokens : next.tokens = lexer.tokens)
        (hcomments : next.comments = lexer.comments ++ [comment])
      (hdirectives : next.directives = lexer.directives)
      (hconditionals : next.conditionalDepth = lexer.conditionalDepth)
      (hbraces : next.braceDepth = lexer.braceDepth)
  | token {token : CppToken} (hend : token.end_ = next.index)
      (hconditional : token.conditionalDepth = lexer.conditionalDepth)
      (hbrace : token.braceDepth = lexer.braceDepth)
      (hword : token.kind = .identifier → token.isOpening = false ∧ token.isClosing = false)
      (htokens : next.tokens = lexer.tokens ++ [token]) (hcomments : next.comments = lexer.comments)
      (hdirectives : next.directives = lexer.directives)
      (hconditionals : next.conditionalDepth = lexer.conditionalDepth)
      (hbraces : next.braceDepth = if lexer.conditionalDepth = 0 then
        depthBehind CppToken.isOpening CppToken.isClosing lexer.braceDepth token
        else lexer.braceDepth)

section Round

variable {alphabet : SourceAlphabet} {lexer : CppLexer} {char : Char}

theorem no_brace_of_word (hword : (alphabet.isAlpha char || char = '_') = true) :
    char ≠ '\x7b' ∧ char ≠ '\x7d' := by
  constructor
  · rintro rfl
    rw [alphabet.opening] at hword
    exact absurd hword (by decide)
  · rintro rfl
    rw [alphabet.closing] at hword
    exact absurd hword (by decide)

theorem round_of_inert {token : CppToken} {next : CppLexer} (hend : token.end_ = next.index)
    (hconditional : token.conditionalDepth = lexer.conditionalDepth)
    (hbrace : token.braceDepth = lexer.braceDepth)
    (hopening : token.isOpening = false) (hclosing : token.isClosing = false)
    (htokens : next.tokens = lexer.tokens ++ [token]) (hcomments : next.comments = lexer.comments)
    (hdirectives : next.directives = lexer.directives)
    (hconditionals : next.conditionalDepth = lexer.conditionalDepth)
    (hbraces : next.braceDepth = lexer.braceDepth) : Round lexer next := by
  apply Round.token hend hconditional hbrace (fun _ => ⟨hopening, hclosing⟩) htokens hcomments
    hdirectives hconditionals
  rw [hbraces, depthBehind_inert hopening hclosing, ite_self]

theorem round_cases (hchar : lexer.text[lexer.index]? = some char) :
    Round lexer (lexer.consumeTokenOrTrivia alphabet.toAlphabet char) := by
  rw [consumeTokenOrTrivia]
  by_cases hnewline : char = '\n'
  · rw [if_pos hnewline]
    exact .skip rfl rfl rfl rfl rfl
  rw [if_neg hnewline]
  by_cases hspace : isSpace char = true
  · rw [if_pos hspace]
    exact .skip rfl rfl rfl rfl rfl
  rw [if_neg hspace]
  by_cases hdirective : (char = '#' && lexer.lineBlank) = true
  · rw [if_pos hdirective]
    exact .directive rfl rfl rfl rfl rfl rfl
  rw [if_neg hdirective]
  by_cases hline : startsAt lexer.text ['/', '/'] lexer.index = true
  · rw [if_pos hline]
    exact .comment rfl rfl rfl rfl rfl rfl rfl rfl rfl
  rw [if_neg hline]
  by_cases hblock : startsAt lexer.text ['/', '*'] lexer.index = true
  · rw [if_pos hblock]
    exact .skip rfl rfl rfl rfl rfl
  rw [if_neg hblock]
  cases rawStringEnd lexer.text lexer.index with
  | some stop => exact round_of_inert rfl rfl rfl rfl rfl rfl rfl rfl rfl rfl
  | none =>
      dsimp only
      by_cases hquote : (char = '"' || char = '\'') = true
      · rw [if_pos hquote]
        exact round_of_inert rfl rfl rfl rfl rfl rfl rfl rfl rfl rfl
      rw [if_neg hquote]
      by_cases hword : (alphabet.isAlpha char || char = '_') = true
      · rw [if_pos hword]
        obtain ⟨hopening, hclosing⟩ := no_brace_of_word hword
        -- The value of the token starts with this character, so it is no brace.
        have hfirst (brace : Char) (hbrace : char ≠ brace) : decide (slice lexer.text lexer.index
            (identifierEnd alphabet.toAlphabet lexer.text lexer.index) = [brace]) = false := by
          apply decide_eq_false
          intro hvalue
          have hget : lexer.text[lexer.index + 0]? = some brace :=
            getElem?_of_slice (by rw [hvalue]; rfl)
          rw [Nat.add_zero, hchar] at hget
          exact hbrace (Option.some.inj hget)
        refine round_of_inert rfl rfl rfl ?_ ?_ rfl rfl rfl rfl rfl
        · exact hfirst _ hopening
        · exact hfirst _ hclosing
      · rw [if_neg hword]
        refine .token rfl rfl rfl (fun hkind => by cases hkind) rfl rfl rfl rfl ?_
        apply if_congr Iff.rfl ?_ rfl
        apply if_congr decide_eq_true_iff.symm rfl
        exact if_congr decide_eq_true_iff.symm rfl rfl

theorem round_isLineStart (hchar : lexer.text[lexer.index]? = some char)
    (hstart : IsLineStart lexer.text lexer.lineStart) :
    IsLineStart lexer.text (lexer.consumeTokenOrTrivia alphabet.toAlphabet char).lineStart := by
  rw [consumeTokenOrTrivia]
  by_cases hnewline : char = '\n'
  · rw [if_pos hnewline]
    rw [hnewline] at hchar
    exact .inr hchar
  rw [if_neg hnewline]
  by_cases hspace : isSpace char = true
  · rw [if_pos hspace]
    exact hstart
  rw [if_neg hspace]
  by_cases hdirective : (char = '#' && lexer.lineBlank) = true
  · rw [if_pos hdirective]
    exact consumeNewlines_isLineStart hstart
  rw [if_neg hdirective]
  by_cases hline : startsAt lexer.text ['/', '/'] lexer.index = true
  · rw [if_pos hline]
    exact hstart
  rw [if_neg hline]
  by_cases hblock : startsAt lexer.text ['/', '*'] lexer.index = true
  · rw [if_pos hblock]
    exact consumeNewlines_isLineStart hstart
  rw [if_neg hblock]
  cases rawStringEnd lexer.text lexer.index with
  | some stop => exact consumeNewlines_isLineStart hstart
  | none =>
      dsimp only
      by_cases hquote : (char = '"' || char = '\'') = true
      · rw [if_pos hquote]
        rcases @quotedEnd_behind char (lexer.text.drop (lexer.index + 1)) false
          ⟨lexer.index + 1, lexer.line, lexer.lineStart⟩ with hsame | ⟨offset, hlater, hresult⟩
        · rw [consumeQuotedString]
          dsimp only
          rw [hsame]
          exact hstart
        · rw [consumeQuotedString]
          dsimp only
          rw [hresult]
          rw [List.getElem?_drop] at hlater
          exact .inr hlater
      rw [if_neg hquote]
      by_cases hword : (alphabet.isAlpha char || char = '_') = true
      · rw [if_pos hword]
        exact hstart
      · rw [if_neg hword]
        exact hstart

end Round

/-! ### The run -/

/-- A comment carries the depths and the line of its place. -/
structure Placed (lexer : CppLexer) (comment : LineComment) : Prop where
  before : comment.start < lexer.index
  line : comment.lineOnly = true → StartsLine lexer.text comment.start
  conditionals : comment.conditionalDepth = lexer.conditionalsAt comment.start
  braces : comment.braceDepth = lexer.bracesAt comment.start

/-- The depths of a lexer are those of its records. -/
structure Nested (lexer : CppLexer) : Prop where
  depths : DepthsFrom CppToken.isOpening CppToken.isClosing (·.braceDepth) 0 lexer.activeTokens
  braces : lexer.braceDepth = braceDepthAfter lexer.activeTokens
  conditionals : lexer.conditionalDepth = conditionalDepthAfter lexer.directives
  words : ∀ token ∈ lexer.tokens, token.kind = .identifier →
    token.isOpening = false ∧ token.isClosing = false
  lineStart : IsLineStart lexer.text lexer.lineStart
  comments : ∀ comment ∈ lexer.comments, lexer.Placed comment

section Run

variable {lexer next : CppLexer} {offset : Nat}

theorem activeTokens_append {token : CppToken} (htokens : next.tokens = lexer.tokens ++ [token]) :
    next.activeTokens =
      if token.conditionalDepth = 0 then lexer.activeTokens ++ [token] else lexer.activeTokens := by
  rw [activeTokens, htokens, List.filter_append, List.filter_singleton]
  by_cases hactive : token.conditionalDepth = 0
  · rw [if_pos hactive, decide_eq_true hactive]
    rfl
  · rw [if_neg hactive, decide_eq_false hactive]
    exact List.append_nil _

theorem bracesAt_append {token : CppToken} (htokens : next.tokens = lexer.tokens ++ [token])
    (hbehind : offset < token.end_) : next.bracesAt offset = lexer.bracesAt offset := by
  rw [bracesAt, activeTokens_append htokens]
  by_cases hactive : token.conditionalDepth = 0
  · rw [if_pos hactive, List.filter_append, List.filter_singleton,
      decide_eq_false (Nat.not_le_of_lt hbehind)]
    exact congrArg braceDepthAfter (List.append_nil _)
  · rw [if_neg hactive]
    rfl

theorem conditionalsAt_append {directive : Directive}
    (hdirectives : next.directives = lexer.directives ++ [directive])
    (hbehind : offset < directive.end_) :
    next.conditionalsAt offset = lexer.conditionalsAt offset := by
  rw [conditionalsAt, hdirectives, List.filter_append, List.filter_singleton,
    decide_eq_false (Nat.not_le_of_lt hbehind)]
  exact congrArg conditionalDepthAfter (List.append_nil _)

theorem activeTokens_congr (htokens : next.tokens = lexer.tokens) :
    next.activeTokens = lexer.activeTokens := by
  rw [activeTokens, htokens]
  rfl

theorem bracesAt_congr (htokens : next.tokens = lexer.tokens) :
    next.bracesAt offset = lexer.bracesAt offset := by
  rw [bracesAt, activeTokens_congr htokens]
  rfl

theorem conditionalsAt_congr (hdirectives : next.directives = lexer.directives) :
    next.conditionalsAt offset = lexer.conditionalsAt offset := by
  rw [conditionalsAt, hdirectives]
  rfl

/-- What a round records behind a comment changes nothing about its place. -/
theorem Placed.round {comment : LineComment} (hplaced : lexer.Placed comment)
    (hround : Round lexer next) (hforward : lexer.index < next.index)
    (htext : next.text = lexer.text) : next.Placed comment := by
  have hbehind : comment.start < next.index := Nat.lt_trans hplaced.before hforward
  have hline : comment.lineOnly = true → StartsLine next.text comment.start := by
    rw [htext]
    exact hplaced.line
  refine ⟨hbehind, hline, ?_, ?_⟩
  · rw [hplaced.conditionals]
    cases hround with
    | skip _ _ hdirectives _ _ => exact (conditionalsAt_congr hdirectives).symm
    | directive hend _ _ hdirectives _ _ =>
        rw [← hend] at hbehind
        exact (conditionalsAt_append hdirectives hbehind).symm
    | comment _ _ _ _ _ _ hdirectives _ _ => exact (conditionalsAt_congr hdirectives).symm
    | token _ _ _ _ _ _ hdirectives _ _ => exact (conditionalsAt_congr hdirectives).symm
  · rw [hplaced.braces]
    cases hround with
    | skip htokens _ _ _ _ => exact (bracesAt_congr htokens).symm
    | directive _ htokens _ _ _ _ => exact (bracesAt_congr htokens).symm
    | comment _ _ _ _ htokens _ _ _ _ => exact (bracesAt_congr htokens).symm
    | token hend _ _ _ htokens _ _ _ _ =>
        rw [← hend] at hbehind
        exact (bracesAt_append htokens hbehind).symm

/-- The depths at the index are those behind all records. -/
theorem bracesAt_index (hspanned : Spanned lexer.text lexer.index lexer) :
    lexer.bracesAt lexer.index = braceDepthAfter lexer.activeTokens := by
  rw [bracesAt, List.filter_eq_self.mpr]
  intro token htoken
  have hmem : token ∈ lexer.tokens := List.mem_of_mem_filter htoken
  have hspan := hspanned.tokens.proper _ (List.mem_map_of_mem hmem)
  exact decide_eq_true hspan.2

theorem conditionalsAt_index (hspanned : Spanned lexer.text lexer.index lexer) :
    lexer.conditionalsAt lexer.index = conditionalDepthAfter lexer.directives := by
  rw [conditionalsAt, List.filter_eq_self.mpr]
  intro directive hdirective
  have hspan := hspanned.directives.proper _ (List.mem_map_of_mem hdirective)
  exact decide_eq_true hspan.2

theorem startsLine_of_blank (hnested : lexer.Nested) (hstart : lexer.lineStart ≤ lexer.index)
    (hblank : lexer.lineBlank = true) : StartsLine lexer.text lexer.index := by
  rw [lineBlank_eq] at hblank
  exact ⟨lexer.lineStart, hstart, hnested.lineStart, hblank⟩

theorem Nested.comments_round (hnested : lexer.Nested) (hround : Round lexer next)
    (hforward : lexer.index < next.index) (htext : next.text = lexer.text)
    (hspanned : Spanned lexer.text lexer.index lexer) (hstart : lexer.lineStart ≤ lexer.index) :
    ∀ comment ∈ next.comments, next.Placed comment := by
  have hold (comment : LineComment) (hmem : comment ∈ lexer.comments) : next.Placed comment :=
    (hnested.comments comment hmem).round hround hforward htext
  intro other hother
  cases hround with
  | skip _ hcomments _ _ _ =>
      rw [hcomments] at hother
      exact hold other hother
  | directive _ _ hcomments _ _ _ =>
      rw [hcomments] at hother
      exact hold other hother
  | token _ _ _ _ _ hcomments _ _ _ =>
      rw [hcomments] at hother
      exact hold other hother
  | @comment comment hplace hline hconditional hbrace htokens hcomments hdirectives _ _ =>
      rw [hcomments] at hother
      rcases List.mem_append.mp hother with hmem | hmem
      · exact hold other hmem
      · obtain rfl := List.mem_singleton.mp hmem
        have hbefore : other.start < next.index := by
          rw [hplace]
          exact hforward
        refine ⟨hbefore, ?_, ?_, ?_⟩
        · rw [hline, hplace, htext]
          exact startsLine_of_blank hnested hstart
        · rw [hplace, conditionalsAt_congr hdirectives, conditionalsAt_index hspanned, hconditional]
          exact hnested.conditionals
        · rw [hplace, bracesAt_congr htokens, bracesAt_index hspanned, hbrace]
          exact hnested.braces

theorem Nested.words_round (hnested : lexer.Nested) (hround : Round lexer next) :
    ∀ token ∈ next.tokens, token.kind = .identifier →
      token.isOpening = false ∧ token.isClosing = false := by
  intro other hother hkind
  cases hround with
  | skip htokens _ _ _ _ =>
      rw [htokens] at hother
      exact hnested.words other hother hkind
  | directive _ htokens _ _ _ _ =>
      rw [htokens] at hother
      exact hnested.words other hother hkind
  | comment _ _ _ _ htokens _ _ _ _ =>
      rw [htokens] at hother
      exact hnested.words other hother hkind
  | token _ _ _ hword htokens _ _ _ _ =>
      rw [htokens] at hother
      rcases List.mem_append.mp hother with hmem | hmem
      · exact hnested.words other hmem hkind
      · rw [List.mem_singleton.mp hmem] at hkind ⊢
        exact hword hkind

/-- A round keeps the depths those of the records. -/
theorem Nested.round (hnested : lexer.Nested) (hround : Round lexer next)
    (hforward : lexer.index < next.index) (htext : next.text = lexer.text)
    (hspanned : Spanned lexer.text lexer.index lexer) (hstart : lexer.lineStart ≤ lexer.index)
    (hline : IsLineStart next.text next.lineStart) : next.Nested := by
  have hcomments := hnested.comments_round hround hforward htext hspanned hstart
  have hwords := hnested.words_round hround
  have hsame (htokens : next.tokens = lexer.tokens) (hbraces : next.braceDepth = lexer.braceDepth)
      (hconditionals : next.conditionalDepth = conditionalDepthAfter next.directives) :
      next.Nested := by
    have hactive := activeTokens_congr htokens
    refine ⟨?_, ?_, hconditionals, hwords, hline, hcomments⟩
    · rw [hactive]
      exact hnested.depths
    · rw [hbraces, hactive]
      exact hnested.braces
  cases hround with
  | skip htokens _ hdirectives hconditionals hbraces =>
      apply hsame htokens hbraces
      rw [hconditionals, hdirectives]
      exact hnested.conditionals
  | directive _ htokens _ hdirectives hconditionals hbraces =>
      apply hsame htokens hbraces
      rw [hconditionals, hdirectives, conditionalDepthAfter, List.foldl_append,
        ← conditionalDepthAfter, ← hnested.conditionals]
      rfl
  | comment _ _ _ _ htokens _ hdirectives hconditionals hbraces =>
      apply hsame htokens hbraces
      rw [hconditionals, hdirectives]
      exact hnested.conditionals
  | token _ hconditional hbrace _ htokens _ hdirectives hconditionals hbraces =>
      have hactive := activeTokens_append htokens
      rw [hconditional] at hactive
      have hconditionalsNext : next.conditionalDepth = conditionalDepthAfter next.directives := by
        rw [hconditionals, hdirectives]
        exact hnested.conditionals
      by_cases houtside : lexer.conditionalDepth = 0
      · rw [if_pos houtside] at hactive hbraces
        refine ⟨?_, ?_, hconditionalsNext, hwords, hline, hcomments⟩
        · rw [hactive]
          refine depthsFrom_append.mpr ⟨hnested.depths, ?_, trivial⟩
          exact hbrace.trans hnested.braces
        · rw [hbraces, hactive, braceDepthAfter, depthAfter_append, ← braceDepthAfter,
            ← hnested.braces]
          rfl
      · rw [if_neg houtside] at hactive hbraces
        refine ⟨?_, ?_, hconditionalsNext, hwords, hline, hcomments⟩
        · rw [hactive]
          exact hnested.depths
        · rw [hbraces, hactive]
          exact hnested.braces

theorem nested_start (text : List Char) : Nested { text := text } where
  depths := trivial
  braces := rfl
  conditionals := rfl
  words _ htoken := absurd htoken List.not_mem_nil
  lineStart := .inl rfl
  comments _ hcomment := absurd hcomment List.not_mem_nil

theorem nested_run (alphabet : SourceAlphabet) (fuel : Nat) : ∀ {lexer : CppLexer},
    lexer.lineStart ≤ lexer.index → Spanned lexer.text lexer.index lexer → lexer.Nested →
      (run alphabet.toAlphabet fuel lexer).text = lexer.text ∧
        (run alphabet.toAlphabet fuel lexer).Nested := by
  induction fuel with
  | zero =>
      intro lexer _ _ hnested
      exact ⟨rfl, hnested⟩
  | succ fuel ih =>
      intro lexer hstart hspanned hnested
      rw [run]
      cases hchar : lexer.text[lexer.index]? with
      | none => exact ⟨rfl, hnested⟩
      | some char =>
          have hround := @advances lexer char alphabet.toAlphabet hchar hstart
          have hforward :
              lexer.index < (lexer.consumeTokenOrTrivia alphabet.toAlphabet char).index := by
            rw [hround.index]
            exact hround.forward
          have hnextSpanned := spanned_round hchar hspanned hforward
          have hline := @round_isLineStart alphabet lexer char hchar hnested.lineStart
          rw [← hround.text] at hnextSpanned hline
          have hnext := hnested.round (round_cases hchar) hforward hround.text hspanned hstart hline
          obtain ⟨htext, hlater⟩ := ih hround.lineStart hnextSpanned hnext
          exact ⟨htext.trans hround.text, hlater⟩

end Run

/-- **The depths of a text.** The braces that a token outside of conditionals carries are those that
the tokens before it have opened, and every comment carries the depths of its place. -/
theorem lex_nested (alphabet : SourceAlphabet) (text : List Char) :
    (lex alphabet.toAlphabet text).text = text ∧ (lex alphabet.toAlphabet text).Nested :=
  @nested_run alphabet text.length { text := text } (Nat.le_refl 0) (spanned_start text)
    (nested_start text)

end CppLexer

end SupernoteModule.Frontend
