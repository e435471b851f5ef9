import SupernoteModule.Proof.CppDepths

/-!
# Namespaces around an offset

The brace that closes a namespace is found by the depth it carries. The depths are those of the
braces before it, so it is the brace that a reader of the text would find.
-/

namespace SupernoteModule.Frontend

open SupernoteModule.Lib SupernoteModule.Python

/-- Tokens whose braces are closed, in the order of the text and with the depths that they have
there. -/
structure Scoped (tokens : List CppToken) : Prop where
  balanced : BalancedBraces tokens
  depths : DepthsFrom CppToken.isOpening CppToken.isClosing (·.braceDepth) 0 tokens
  words : ∀ token ∈ tokens, token.kind = .identifier → token.isOpening = false
  ordered : tokens.Pairwise fun first next => first.end_ ≤ next.start
  proper : ∀ token ∈ tokens, token.start < token.end_

theorem apart_braces (token : CppToken) (hopening : token.isOpening = true) :
    token.isClosing = false := by
  apply decide_eq_false
  rw [of_decide_eq_true hopening]
  decide

/-! ### The opening brace -/

section Opening

variable {nameTokens tokens inside : List CppToken} {names found : List (List Char)}
  {opening : CppToken}

/-- Names and separators take turns, and a name is at either end. -/
theorem NamesOf.odd (hnames : NamesOf nameTokens names) : nameTokens.length % 2 = 1 := by
  induction hnames with
  | last _ => rfl
  | qualified _ _ _ ih =>
      rw [List.length_cons, List.length_cons]
      omega

theorem NamesOf.separates (hnames : NamesOf nameTokens names) : ∀ {before later : List CppToken}
    {token : CppToken}, nameTokens = before ++ token :: later → before.length % 2 = 1 →
      token.value = "::".toList := by
  induction hnames with
  | last _ =>
      intro before later token hsplit hodd
      have hlength := congrArg List.length hsplit
      rw [List.length_singleton, List.length_append, List.length_cons] at hlength
      omega
  | @qualified name separator rest names _ hseparator _ ih =>
      intro before later token hsplit hodd
      match before with
      | [] => exact absurd hodd (by decide)
      | [first] =>
          have htail := (List.cons.inj hsplit).2
          rw [← (List.cons.inj htail).1]
          exact hseparator
      | first :: second :: before =>
          rw [List.length_cons, List.length_cons] at hodd
          have htail := (List.cons.inj (List.cons.inj hsplit).2).2
          exact ih htail (by omega)

theorem NamesOf.inert (hnames : NamesOf nameTokens names)
    (hwords : ∀ token ∈ nameTokens, token.kind = .identifier → token.isOpening = false) :
    ∀ token ∈ nameTokens, token.isOpening = false := by
  induction hnames with
  | last hname =>
      intro token htoken
      rw [List.mem_singleton.mp htoken]
      exact hwords _ (List.mem_singleton_self _) hname
  | @qualified name separator rest names hname hseparator _ ih =>
      intro token htoken
      rcases List.mem_cons.mp htoken with rfl | htoken
      · exact hwords _ List.mem_cons_self hname
      rcases List.mem_cons.mp htoken with rfl | htoken
      · apply decide_eq_false
        rw [hseparator]
        decide
      · apply ih _ token htoken
        intro other hother
        exact hwords other (List.mem_cons_of_mem _ (List.mem_cons_of_mem _ hother))

theorem NamesOf.opens (hnames : NamesOf nameTokens names)
    (hwords : ∀ token ∈ nameTokens, token.kind = .identifier → token.isOpening = false)
    (hopening : opening.isOpening = true) : ∀ before : List (List Char),
      namespaceOpening before true (nameTokens ++ opening :: inside) =
        some (before ++ names, opening, inside) := by
  have hbrace := of_decide_eq_true hopening
  have hname_step {name : CppToken} (hname : name.kind = .identifier)
      (hword : name.isOpening = false) (before : List (List Char)) (rest : List CppToken) :
      namespaceOpening before true (name :: rest) =
        namespaceOpening (before ++ [name.value]) false rest := by
    rw [namespaceOpening, if_neg (of_decide_eq_false hword), hname]
    rfl
  induction hnames with
  | @last name hname =>
      intro before
      rw [List.singleton_append, hname_step hname (hwords _ (List.mem_singleton_self _) hname),
        namespaceOpening, if_pos hbrace, Bool.or_false, if_neg]
      rw [List.isEmpty_iff]
      exact List.append_ne_nil_of_right_ne_nil _ (List.cons_ne_nil _ _)
  | @qualified name separator rest names hname hseparator _ ih =>
      intro before
      have hother : ¬separator.value = ['\x7b'] := by
        rw [hseparator]
        decide
      rw [List.cons_append, List.cons_append,
        hname_step hname (hwords _ List.mem_cons_self hname), namespaceOpening, if_neg hother,
        Bool.false_and, if_neg Bool.false_ne_true, if_pos (by rw [hseparator]; rfl), ih]
      · rw [List.append_assoc]
        rfl
      · intro token htoken
        exact hwords token (List.mem_cons_of_mem _ (List.mem_cons_of_mem _ htoken))

/-- What stands between the names found so far and the opening brace. -/
def NamesBehind (expectName : Bool) (nameTokens : List CppToken) (names : List (List Char)) :
    Prop :=
  if expectName then NamesOf nameTokens names
  else nameTokens = [] ∧ names = [] ∨ ∃ separator rest, nameTokens = separator :: rest ∧
    separator.value = "::".toList ∧ NamesOf rest names

theorem namespaceOpening_eq_some : ∀ {before : List (List Char)} {expectName : Bool},
    namespaceOpening before expectName tokens = some (found, opening, inside) →
      opening.isOpening = true ∧ ∃ nameTokens names, tokens = nameTokens ++ opening :: inside ∧
        found = before ++ names ∧ NamesBehind expectName nameTokens names := by
  induction tokens with
  | nil =>
      intro before expectName hfound
      cases hfound
  | cons token tokens ih =>
      intro before expectName hfound
      rw [namespaceOpening] at hfound
      by_cases hbrace : token.value = ['\x7b']
      · rw [if_pos hbrace] at hfound
        cases expectName with
        | true =>
            rw [Bool.or_true] at hfound
            cases hfound
        | false =>
            split at hfound
            · cases hfound
            · obtain ⟨rfl, rfl, rfl⟩ : before = found ∧ token = opening ∧ tokens = inside := by
                simpa using hfound
              exact ⟨decide_eq_true hbrace, [], [], rfl, (List.append_nil _).symm, .inl ⟨rfl, rfl⟩⟩
      rw [if_neg hbrace] at hfound
      by_cases hname : (expectName && decide (token.kind = .identifier)) = true
      · rw [if_pos hname] at hfound
        obtain ⟨hopening, nameTokens, names, rfl, rfl, hbehind⟩ := ih hfound
        obtain ⟨rfl, hkind⟩ := Bool.and_eq_true_iff.mp hname
        refine ⟨hopening, token :: nameTokens, token.value :: names, rfl, by simp, ?_⟩
        rcases hbehind with ⟨rfl, rfl⟩ | ⟨separator, rest, rfl, hseparator, hrest⟩
        · exact .last (of_decide_eq_true hkind)
        · exact .qualified (of_decide_eq_true hkind) hseparator hrest
      rw [if_neg hname] at hfound
      by_cases hseparator : (!expectName && decide (token.value = "::".toList)) = true
      · rw [if_pos hseparator] at hfound
        obtain ⟨hopening, nameTokens, names, rfl, rfl, hbehind⟩ := ih hfound
        obtain ⟨hexpect, hvalue⟩ := Bool.and_eq_true_iff.mp hseparator
        obtain rfl : expectName = false := by simpa using hexpect
        exact ⟨hopening, token :: nameTokens, names, rfl, rfl,
          .inr ⟨token, nameTokens, rfl, of_decide_eq_true hvalue, hbehind⟩⟩
      · rw [if_neg hseparator] at hfound
        cases hfound

end Opening

/-! ### The closing brace -/

section Closing

variable {tokens before rest inside : List CppToken} {keyword opening closing : CppToken}
  {range : NamespaceRange} {offset : Nat}

/-- An opening brace has a closing one, and the search by depth finds it. -/
theorem Scoped.exists_closing (hscoped : Scoped tokens)
    (hsplit : tokens = before ++ opening :: inside)
    (hopening : opening.isOpening = true) : ∃ inner closing after,
      inside = inner ++ closing :: after ∧ closing.isClosing = true ∧ BalancedBraces inner := by
  exact hscoped.balanced.closed apart_braces hopening hsplit

theorem Scoped.find_closing (hscoped : Scoped tokens) {inner after : List CppToken}
    (hsplit : tokens = before ++ opening :: (inner ++ closing :: after))
    (hopening : opening.isOpening = true) (hclosing : closing.isClosing = true)
    (hinner : BalancedBraces inner) :
    (inner ++ closing :: after).find? (fun item =>
      item.isClosing && decide (item.braceDepth = opening.braceDepth + 1)) = some closing := by
  have hdepths := hscoped.depths
  rw [hsplit, depthsFrom_append] at hdepths
  exact Lib.find_closing apart_braces hopening hclosing hinner hdepths.2

theorem Scoped.start_lt (hscoped : Scoped tokens) (hsplit : tokens = before ++ keyword :: rest)
    {token : CppToken} (hmem : token ∈ rest) : keyword.end_ ≤ token.start := by
  have hordered := hscoped.ordered
  rw [hsplit] at hordered
  exact List.rel_of_pairwise_cons (List.pairwise_append.mp hordered).2.1 hmem

/-- A keyword yields the namespace that it defines, if that encloses the offset. -/
theorem Scoped.namespaceRange_eq_some (hscoped : Scoped tokens)
    (hsplit : tokens = before ++ keyword :: rest) :
    namespaceRange offset keyword rest = some range ↔
      (∃ names inner after, DefinedAs tokens range before keyword names inner after) ∧
        range.Encloses offset := by
  have hwords : ∀ token ∈ rest, token.kind = .identifier → token.isOpening = false := by
    intro token htoken
    apply hscoped.words
    rw [hsplit]
    exact List.mem_append_right _ (List.mem_cons_of_mem _ htoken)
  constructor
  · intro hrange
    rw [namespaceRange] at hrange
    split at hrange
    · rename_i hkeyword
      obtain ⟨hvalue, _⟩ := Bool.and_eq_true_iff.mp hkeyword
      obtain ⟨⟨found, opening, inside⟩, hopens, hrange⟩ := Option.bind_eq_some_iff.mp hrange
      obtain ⟨closing, hfind, hrange⟩ := Option.bind_eq_some_iff.mp hrange
      obtain ⟨hopening, nameTokens, names, rfl, rfl, hnames⟩ := namespaceOpening_eq_some hopens
      have hinside : tokens = (before ++ keyword :: nameTokens) ++ opening :: inside := by
        rw [hsplit, List.append_assoc]
        rfl
      obtain ⟨inner, last, after, rfl, hclosing, hinner⟩ := hscoped.exists_closing hinside hopening
      have hlast := hscoped.find_closing hinside hopening hclosing hinner
      obtain rfl : last = closing := Option.some.inj (hlast.symm.trans hfind)
      split at hrange
      · rename_i hencloses
        obtain rfl := Option.some.inj hrange
        exact ⟨⟨nameTokens, inner, after, hsplit, of_decide_eq_true hvalue, hnames, hopening,
          hclosing, hinner⟩, hencloses⟩
      · cases hrange
    · cases hrange
  · rintro ⟨⟨names, inner, after, hdefined⟩, hencloses⟩
    obtain rfl : rest = names ++ range.opening :: (inner ++ range.closing :: after) := by
      have hboth := hsplit.symm.trans hdefined.tokens
      exact (List.cons.inj (List.append_cancel_left hboth)).2
    have hbefore : keyword.start < offset := by
      have hproper := hscoped.proper keyword (by
        rw [hsplit]
        exact List.mem_append_right _ List.mem_cons_self)
      have hopening := hscoped.start_lt hsplit (List.mem_append_right names List.mem_cons_self)
      have hwidth := hscoped.proper range.opening (by
        rw [hsplit]
        exact List.mem_append_right _ (List.mem_cons_of_mem _
          (List.mem_append_right names List.mem_cons_self)))
      have hinside := hencloses.1
      omega
    have hopens := @NamesOf.opens names (inner ++ range.closing :: after) _ _ hdefined.names
      (fun token htoken => hwords token (List.mem_append_left _ htoken)) hdefined.opening []
    have hinside : tokens = (before ++ keyword :: names) ++
        range.opening :: (inner ++ range.closing :: after) := by
      rw [hsplit, List.append_assoc]
      rfl
    have hfind := hscoped.find_closing hinside hdefined.opening hdefined.closing hdefined.inner
    rw [namespaceRange, hdefined.keyword, decide_eq_true hbefore, if_pos (by decide), hopens]
    have hclosing : (inner ++ range.closing :: after).find? (fun item =>
        decide (item.value = ['\x7d']) &&
          decide (item.braceDepth = range.opening.braceDepth + 1)) = some range.closing := hfind
    rw [Option.bind_eq_bind, Option.bind_some]
    dsimp only
    rw [hclosing, Option.bind_eq_bind, Option.bind_some]
    exact if_pos hencloses

end Closing

/-! ### All namespaces -/

section Ranges

variable {tokens : List CppToken} {range : NamespaceRange} {offset : Nat}

theorem mem_namespaceRanges : range ∈ namespaceRanges offset tokens ↔ ∃ before keyword rest,
    tokens = before ++ keyword :: rest ∧ namespaceRange offset keyword rest = some range := by
  induction tokens with
  | nil =>
      constructor
      · intro hmem
        cases hmem
      · rintro ⟨before, keyword, rest, hsplit, _⟩
        simp at hsplit
  | cons token tokens ih =>
      rw [namespaceRanges, List.mem_append, ih, Option.mem_toList]
      constructor
      · rintro (hfirst | ⟨before, keyword, rest, rfl, hlater⟩)
        · exact ⟨[], token, tokens, rfl, hfirst⟩
        · exact ⟨token :: before, keyword, rest, rfl, hlater⟩
      · rintro ⟨before, keyword, rest, hsplit, hrange⟩
        cases before with
        | nil =>
            obtain ⟨rfl, rfl⟩ := List.cons.inj hsplit
            exact .inl hrange
        | cons first before => exact .inr ⟨before, keyword, rest, (List.cons.inj hsplit).2, hrange⟩

theorem Scoped.mem_namespaceRanges (hscoped : Scoped tokens) :
    range ∈ namespaceRanges offset tokens ↔ Defines tokens range ∧ range.Encloses offset := by
  rw [Frontend.mem_namespaceRanges]
  constructor
  · rintro ⟨before, keyword, rest, hsplit, hrange⟩
    obtain ⟨hdefined, hencloses⟩ := (hscoped.namespaceRange_eq_some hsplit).mp hrange
    exact ⟨⟨before, keyword, hdefined⟩, hencloses⟩
  · rintro ⟨⟨before, keyword, names, inner, after, hdefined⟩, hencloses⟩
    refine ⟨before, keyword, _, hdefined.tokens, ?_⟩
    exact (hscoped.namespaceRange_eq_some hdefined.tokens).mpr
      ⟨⟨names, inner, after, hdefined⟩, hencloses⟩

/-- A keyword among the names of a namespace opens none itself: names and separators take turns. -/
theorem opening_ne_of_keyword {before later names : List CppToken} {found others : List (List Char)}
    {keyword : CppToken} (hfound : NamesOf names found) (hothers : NamesOf later others)
    (hkeyword : keyword.value = "namespace".toList) : names ≠ before ++ keyword :: later := by
  intro hsplit
  have hodd := hfound.odd
  rw [hsplit, List.length_append, List.length_cons] at hodd
  have hlater := hothers.odd
  have hseparator := hfound.separates hsplit (by omega)
  rw [hkeyword] at hseparator
  exact absurd hseparator (by decide)

/-- Two texts of names in front of the first opening brace are one. -/
theorem append_opening_inj {first second inside behind : List CppToken} {opening other : CppToken}
    (hfirst : ∀ token ∈ first, token.isOpening = false)
    (hsecond : ∀ token ∈ second, token.isOpening = false) (hopening : opening.isOpening = true)
    (hother : other.isOpening = true)
    (heq : first ++ opening :: inside = second ++ other :: behind) :
    first = second ∧ opening = other ∧ inside = behind := by
  have hnot {tokens : List CppToken} (htokens : ∀ token ∈ tokens, token.isOpening = false)
      {token : CppToken} (htoken : token.isOpening = true) : token ∉ tokens := by
    intro hmem
    rw [htokens token hmem] at htoken
    cases htoken
  rcases List.append_eq_append_iff.mp heq with ⟨between, hsplit, hlater⟩ | ⟨between, hsplit, hlater⟩
  · cases between with
    | nil =>
        obtain ⟨rfl, rfl⟩ := List.cons.inj hlater
        exact ⟨(hsplit.trans (List.append_nil _)).symm, rfl, rfl⟩
    | cons token between =>
        obtain ⟨rfl, _⟩ := List.cons.inj hlater
        refine absurd ?_ (hnot hsecond hopening)
        rw [hsplit]
        exact List.mem_append_right _ List.mem_cons_self
  · cases between with
    | nil =>
        obtain ⟨rfl, rfl⟩ := List.cons.inj hlater
        exact ⟨hsplit.trans (List.append_nil _), rfl, rfl⟩
    | cons token between =>
        obtain ⟨rfl, _⟩ := List.cons.inj hlater
        refine absurd ?_ (hnot hfirst hother)
        rw [hsplit]
        exact List.mem_append_right _ List.mem_cons_self

/-- The namespaces of later keywords open later. -/
theorem Scoped.opening_lt (hscoped : Scoped tokens) {before between : List CppToken}
    {keyword later : CppToken} {rest behind : List CppToken} {outer inner : NamespaceRange}
    (hsplit : tokens = before ++ keyword :: rest) (hlater : rest = between ++ later :: behind)
    (houter : namespaceRange offset keyword rest = some outer)
    (hinner : namespaceRange offset later behind = some inner) :
    outer.opening.start < inner.opening.start := by
  have hbehind : tokens = (before ++ keyword :: between) ++ later :: behind := by
    rw [hsplit, hlater, List.append_assoc]
    rfl
  obtain ⟨⟨names, inside, after, houterDefined⟩, _⟩ :=
    (hscoped.namespaceRange_eq_some hsplit).mp houter
  obtain ⟨⟨others, within, last, hinnerDefined⟩, _⟩ :=
    (hscoped.namespaceRange_eq_some hbehind).mp hinner
  have hrest := (List.cons.inj (List.append_cancel_left (hsplit.symm.trans houterDefined.tokens))).2
  have hothers :=
    (List.cons.inj (List.append_cancel_left (hbehind.symm.trans hinnerDefined.tokens))).2
  have hwords : ∀ token ∈ rest, token.kind = .identifier → token.isOpening = false := by
    intro token htoken
    apply hscoped.words
    rw [hsplit]
    exact List.mem_append_right _ (List.mem_cons_of_mem _ htoken)
  have hnamesInert := houterDefined.names.inert fun token htoken => hwords token (by
    rw [hrest]
    exact List.mem_append_left _ htoken)
  have hothersInert := hinnerDefined.names.inert fun token htoken => hwords token (by
    rw [hlater, hothers]
    exact List.mem_append_right _ (List.mem_cons_of_mem _ (List.mem_append_left _ htoken)))
  have hlaterInert : later.isOpening = false := by
    apply decide_eq_false
    rw [hinnerDefined.keyword]
    decide
  have hkeywords := hlater.symm.trans hrest
  have hopens : inner.opening ∈ behind := by
    rw [hothers]
    exact List.mem_append_right _ List.mem_cons_self
  rcases List.append_eq_append_iff.mp hkeywords with ⟨shared, hnames, htail⟩ |
    ⟨shared, hpast, htail⟩
  · -- The later keyword is one of the names, or the brace itself.
    cases shared with
    | nil =>
        have hsame := (List.cons.inj htail).1
        rw [hsame, houterDefined.opening] at hlaterInert
        cases hlaterInert
    | cons token shared =>
        obtain ⟨rfl, hshared⟩ := List.cons.inj htail
        rw [hothers] at hshared
        obtain ⟨rfl, _, _⟩ := append_opening_inj hothersInert
          (fun other hother => hnamesInert other (by
            rw [hnames]
            exact List.mem_append_right _ (List.mem_cons_of_mem _ hother)))
          hinnerDefined.opening houterDefined.opening hshared
        exact absurd hnames
          (opening_ne_of_keyword houterDefined.names hinnerDefined.names hinnerDefined.keyword)
  · cases shared with
    | nil =>
        have hsame := (List.cons.inj htail).1
        rw [← hsame, houterDefined.opening] at hlaterInert
        cases hlaterInert
    | cons token shared =>
        obtain ⟨rfl, hinside⟩ := List.cons.inj htail
        have houterSplit : tokens = (before ++ keyword :: names) ++ outer.opening ::
            (shared ++ later :: behind) := by
          rw [hsplit, hlater, hpast]
          simp
        have hle := hscoped.start_lt houterSplit
          (List.mem_append_right shared (List.mem_cons_of_mem _ hopens))
        have hproper := hscoped.proper outer.opening (by
          rw [houterSplit]
          exact List.mem_append_right _ List.mem_cons_self)
        omega

theorem Scoped.pairwise_opening (hscoped : Scoped tokens) : ∀ {before rest : List CppToken},
    tokens = before ++ rest → (namespaceRanges offset rest).Pairwise fun outer inner =>
      outer.opening.start < inner.opening.start := by
  intro before rest
  induction rest generalizing before with
  | nil =>
      intro _
      exact List.Pairwise.nil
  | cons keyword rest ih =>
      intro hsplit
      rw [namespaceRanges]
      apply List.pairwise_append.mpr
      refine ⟨?_, @ih (before ++ [keyword]) (by rw [hsplit, List.append_assoc]; rfl), ?_⟩
      · cases namespaceRange offset keyword rest with
        | none => exact List.Pairwise.nil
        | some outer => exact List.pairwise_singleton _ _
      · intro outer houter inner hinner
        obtain ⟨between, later, behind, hlater, hrange⟩ := Frontend.mem_namespaceRanges.mp hinner
        exact hscoped.opening_lt hsplit hlater (Option.mem_toList.mp houter) hrange

theorem Scoped.not_mem_self (hscoped : Scoped tokens) {before rest : List CppToken}
    {token : CppToken}
    (hsplit : tokens = before ++ token :: rest) : token ∉ before ∧ token ∉ rest := by
  have hproper := hscoped.proper token (by
    rw [hsplit]
    exact List.mem_append_right _ List.mem_cons_self)
  constructor
  · intro hmem
    have hordered := hscoped.ordered
    rw [hsplit] at hordered
    have hle := (List.pairwise_append.mp hordered).2.2 token hmem token List.mem_cons_self
    omega
  · intro hmem
    have hle := hscoped.start_lt hsplit hmem
    omega

/-- Of two namespaces around an offset, the one that opens later is closed earlier. -/
theorem Scoped.within (hscoped : Scoped tokens) {outer inner : NamespaceRange}
    (houter : Defines tokens outer) (hinner : Defines tokens inner)
    (houterEncloses : outer.Encloses offset) (hinnerEncloses : inner.Encloses offset)
    (hopening : outer.opening.start < inner.opening.start) : inner.Within outer := by
  obtain ⟨before, keyword, names, inside, after, houterDefined⟩ := houter
  obtain ⟨past, marker, others, within, behind, hinnerDefined⟩ := hinner
  have houterSplit : tokens = (before ++ keyword :: names) ++ outer.opening ::
      (inside ++ outer.closing :: after) := by
    rw [houterDefined.tokens, List.append_assoc]
    rfl
  have hinnerSplit : tokens = (past ++ marker :: others) ++ inner.opening ::
      (within ++ inner.closing :: behind) := by
    rw [hinnerDefined.tokens, List.append_assoc]
    rfl
  have hmem : inner.opening ∈ tokens := by
    rw [hinnerSplit]
    exact List.mem_append_right _ List.mem_cons_self
  have hproper := hscoped.proper inner.opening hmem
  -- The later brace is between those of the outer namespace.
  have hinside : inner.opening ∈ inside := by
    have hordered := hscoped.ordered
    rw [houterSplit] at hmem hordered
    obtain ⟨_, hordered, hfront⟩ := List.pairwise_append.mp hordered
    rcases List.mem_append.mp hmem with hmem | hmem
    · have hle := hfront _ hmem outer.opening List.mem_cons_self
      omega
    rcases List.mem_cons.mp hmem with hsame | hmem
    · rw [hsame] at hopening
      exact absurd hopening (Nat.lt_irrefl _)
    have hclosed := (List.pairwise_append.mp (List.pairwise_cons.mp hordered).2).2.1
    rcases List.mem_append.mp hmem with hmem | hmem
    · exact hmem
    rcases List.mem_cons.mp hmem with hsame | hmem
    · have hclash := apart_braces _ hinnerDefined.opening
      rw [hsame, houterDefined.closing] at hclash
      cases hclash
    · have hle := List.rel_of_pairwise_cons hclosed hmem
      have hend := hscoped.proper outer.closing (by
        rw [houterSplit]
        exact List.mem_append_right _ (List.mem_cons_of_mem _
          (List.mem_append_right _ List.mem_cons_self)))
      have hleft := hinnerEncloses.1
      have hright := houterEncloses.2
      omega
  obtain ⟨front, rest, hrest⟩ := List.append_of_mem hinside
  obtain ⟨nested, last, later, hlater, hlast, hnested⟩ :=
    houterDefined.inner.closed apart_braces hinnerDefined.opening hrest
  have hsplit : tokens = (before ++ keyword :: names ++ outer.opening :: front) ++ inner.opening ::
      (nested ++ last :: (later ++ outer.closing :: after)) := by
    rw [houterSplit, hrest, hlater]
    simp
  obtain ⟨hnotBefore, hnotRest⟩ := hscoped.not_mem_self hsplit
  have hsame := ((List.append_cons_inj_of_notMem hnotBefore hnotRest).mp
    (hsplit.symm.trans hinnerSplit)).2.2
  have hfound := hscoped.find_closing hsplit hinnerDefined.opening hlast hnested
  have hclosing := hscoped.find_closing hinnerSplit hinnerDefined.opening hinnerDefined.closing
    hinnerDefined.inner
  rw [← hsame, hfound] at hclosing
  obtain rfl := Option.some.inj hclosing
  refine ⟨hopening, ?_⟩
  have hlastMem : inner.closing ∈ inside := by
    rw [hrest, hlater]
    exact List.mem_append_right _ (List.mem_cons_of_mem _
      (List.mem_append_right _ List.mem_cons_self))
  have hordered := hscoped.ordered
  rw [houterSplit] at hordered
  have hbetween := (List.pairwise_cons.mp (List.pairwise_append.mp hordered).2.1).2
  have hle := (List.pairwise_append.mp hbetween).2.2 _ hlastMem outer.closing List.mem_cons_self
  have hend := hscoped.proper inner.closing (by
    rw [hinnerSplit]
    exact List.mem_append_right _ (List.mem_cons_of_mem _
      (List.mem_append_right _ List.mem_cons_self)))
  omega

theorem Scoped.enclosedBy (hscoped : Scoped tokens) (offset : Nat) :
    EnclosedBy tokens offset (namespaceRanges offset tokens) where
  mem _ := hscoped.mem_namespaceRanges
  nested := by
    have hordered := @Scoped.pairwise_opening tokens offset hscoped [] tokens rfl
    apply hordered.imp_of_mem
    intro outer inner houter hinner hopening
    obtain ⟨houterDefined, houterEncloses⟩ := hscoped.mem_namespaceRanges.mp houter
    obtain ⟨hinnerDefined, hinnerEncloses⟩ := hscoped.mem_namespaceRanges.mp hinner
    exact hscoped.within houterDefined hinnerDefined houterEncloses hinnerEncloses hopening

end Ranges

/-! ### Of a text -/

theorem lex_scoped {alphabet : SourceAlphabet} {text : List Char}
    (hbalanced : BalancedBraces (CppLexer.lex alphabet.toAlphabet text).activeTokens) :
    Scoped (CppLexer.lex alphabet.toAlphabet text).activeTokens := by
  have hspanned := (CppLexer.lex_spanned alphabet.toAlphabet text).2
  have hnested := (CppLexer.lex_nested alphabet text).2
  have hordered := List.pairwise_map.mp hspanned.tokens.ordered
  refine ⟨hbalanced, hnested.depths, ?_, hordered.filter _, ?_⟩
  · intro token htoken hkind
    exact (hnested.words token (List.mem_of_mem_filter htoken) hkind).1
  · intro token htoken
    exact (hspanned.tokens.proper _ (List.mem_map_of_mem (List.mem_of_mem_filter htoken))).1

/-- **Namespaces of an offset.** Where the braces outside of conditionals are balanced, the
namespace of an offset consists of the names of the definitions that enclose it, from the outermost
to the innermost, and comes with their number. -/
theorem namespaceAt_eq (alphabet : SourceAlphabet) (text : List Char) (offset : Nat)
    (hbalanced : BalancedBraces (CppLexer.lex alphabet.toAlphabet text).activeTokens) :
    ∃ definitions : List NamespaceRange,
      EnclosedBy (CppLexer.lex alphabet.toAlphabet text).activeTokens offset definitions ∧
        namespaceAt (CppLexer.lex alphabet.toAlphabet text) offset =
          (definitions.flatMap (·.names), definitions.length) := by
  have henclosed := (lex_scoped hbalanced).enclosedBy offset
  refine ⟨_, henclosed, ?_⟩
  rw [namespaceAt, sortedBy_eq_self]
  exact henclosed.nested.imp fun hwithin => Nat.le_of_lt hwithin.1

def asciiAlphabet : SourceAlphabet where
  isAlpha := Char.isAlpha
  isAlnum := Char.isAlphanum
  newline := rfl
  opening := rfl
  closing := rfl

theorem namespaceAt_eq_nested :
    ∃ definitions : List NamespaceRange,
      EnclosedBy (CppLexer.lex asciiAlphabet.toAlphabet
        "namespace a::b \x7busing namespace c; class D \x7b\x7d; int x;\x7d".toList).activeTokens 49
          definitions ∧
        namespaceAt (CppLexer.lex asciiAlphabet.toAlphabet
          "namespace a::b \x7busing namespace c; class D \x7b\x7d; int x;\x7d".toList) 49 =
          (definitions.flatMap (·.names), definitions.length) := by
  apply namespaceAt_eq asciiAlphabet
  apply balanced_of_closesAll _ (Nat.le_refl _)
  decide

/-- A source whose namespace is in a conditional. -/
def conditionalSource : CppLexer :=
  CppLexer.lex asciiAlphabet.toAlphabet "#if 1\nnamespace a \x7bint x;\x7d\n#endif\n".toList

/-- The namespace around the variable is not found, although every brace is closed. -/
theorem conditional_namespace_left_out :
    BalancedBraces conditionalSource.activeTokens ∧
      conditionalSource.comments.length = 0 ∧
      (conditionalSource.tokens.any fun token =>
        token.kind = .identifier && token.value = ['x'] && token.start = 23) = true ∧
      (∃ range, Defines conditionalSource.tokens range ∧ range.Encloses 23 ∧
        range.names = [['a']]) ∧
      namespaceAt conditionalSource 23 = ([], 0) := by
  refine ⟨?_, by decide, by decide, ?_, by decide⟩
  · apply balanced_of_closesAll _ (Nat.le_refl _)
    decide
  · refine ⟨⟨⟨['\x7b'], 18, 19, 2, .punctuation, 1, 0⟩, ⟨['\x7d'], 25, 26, 2, .punctuation, 1, 0⟩,
      [['a']]⟩, ⟨[], ⟨"namespace".toList, 6, 15, 2, .identifier, 1, 0⟩,
        [⟨['a'], 16, 17, 2, .identifier, 1, 0⟩], [⟨"int".toList, 19, 22, 2, .identifier, 1, 0⟩,
          ⟨['x'], 23, 24, 2, .identifier, 1, 0⟩, ⟨[';'], 24, 25, 2, .punctuation, 1, 0⟩], [], ?_⟩,
      ⟨by decide, by decide⟩, rfl⟩
    refine ⟨rfl, rfl, .last rfl, rfl, rfl, ?_⟩
    apply balanced_of_closesAll _ (Nat.le_refl _)
    rfl

end SupernoteModule.Frontend
