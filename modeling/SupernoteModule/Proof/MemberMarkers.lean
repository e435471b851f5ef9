import SupernoteModule.Proof.CppNamespaces

/-!
# Markers of class members

Every stack of a class goes to the first declaration behind it, or the class is refused.
-/

namespace SupernoteModule.Frontend

open SupernoteModule.Lib SupernoteModule.Python

/-! ### Places of markers -/

section Places

variable {comment : LineComment} {depth : Nat} {description : String}
  {exportName braceMessage : Option String}

theorem validateMarkerLocation_eq_ok :
    validateMarkerLocation comment depth description exportName braceMessage = .ok () ↔
      comment.lineOnly = true ∧ comment.conditionalDepth = 0 ∧ comment.braceDepth = depth := by
  simp only [validateMarkerLocation, bind_eq_ok, exists_unit, require_eq_ok]

/-- What is accepted by its records is accepted in the text. -/
theorem acceptedAt_of_location {alphabet : SourceAlphabet} {text : List Char}
    (hmem : comment ∈ (CppLexer.lex alphabet.toAlphabet text).comments)
    (hlocation : comment.lineOnly = true ∧ comment.conditionalDepth = 0 ∧
      comment.braceDepth = depth) :
    AcceptedAt (CppLexer.lex alphabet.toAlphabet text) depth comment := by
  have hplaced := (CppLexer.lex_nested alphabet text).2.comments comment hmem
  obtain ⟨hline, hconditional, hbrace⟩ := hlocation
  exact ⟨hplaced.line hline, hplaced.conditionals.symm.trans hconditional,
    hplaced.braces.symm.trans hbrace⟩

end Places

/-! ### The declaration behind a stack -/

section Behind

variable {declarations : List MemberDeclaration} {stack : MarkerStack} {text : List Char}
  {start : Nat}

theorem countP_start (declarations : List MemberDeclaration) (start : Nat) :
    declarations.countP (fun declaration => declaration.start? = some start) =
      (declarations.filterMap (·.start?)).count start := by
  rw [List.count, List.countP_filterMap]
  apply List.countP_congr
  intro declaration _
  cases declaration.start? with
  | none => simp
  | some other => simp

/-- The search finds the declaration that the stack belongs to. -/
theorem belongsTo_of_find (horder : InSourceOrder declarations)
    (hfind : (declarations.filterMap (·.start?)).find? (fun start => stack.last.end_ ≤ start) =
      some start) (hspace : onlySpace text stack.last.end_ start = true) :
    BelongsTo text declarations stack start := by
  obtain ⟨hbehind, before, after, hsplit, hbefore⟩ := List.find?_eq_some_iff_append.mp hfind
  rw [onlySpace, strip_isEmpty] at hspace
  refine ⟨?_, of_decide_eq_true hbehind, ?_, hspace⟩
  · rw [countP_start]
    apply List.count_eq_one_of_mem
    · exact horder.imp fun hlt => Nat.ne_of_lt hlt
    · rw [hsplit]
      exact List.mem_append_right _ List.mem_cons_self
  · intro declaration hdeclaration other hother hle
    have hmem : other ∈ declarations.filterMap (·.start?) :=
      List.mem_filterMap.mpr ⟨declaration, hdeclaration, hother⟩
    rw [hsplit] at hmem
    rcases List.mem_append.mp hmem with hmem | hmem
    · have hnot := hbefore other hmem
      rw [decide_eq_true hle] at hnot
      cases hnot
    rcases List.mem_cons.mp hmem with rfl | hmem
    · exact Nat.le_refl _
    · rw [InSourceOrder, hsplit] at horder
      exact Nat.le_of_lt (List.rel_of_pairwise_cons (List.pairwise_append.mp horder).2.1 hmem)

end Behind

/-! ### The loop over the stacks -/

namespace ClassBody

variable {text : List Char} {body : ClassBody} {declarations : List MemberDeclaration}
  {stack : MarkerStack} {bindings next final : MemberMarkerBindings}

/-- What a round adds to the bindings, when it does not stop. -/
structure Binds (text : List Char) (body : ClassBody) (declarations : List MemberDeclaration)
    (stack : MarkerStack) (bindings next : MemberMarkerBindings) (start : Nat) : Prop where
  located : ∀ comment ∈ stack.comments, comment.lineOnly = true ∧ comment.conditionalDepth = 0 ∧
    comment.braceDepth = body.memberDepth
  belongs : BelongsTo text declarations stack start
  fresh : start ∉ bindings.stacksByDeclaration.map Prod.fst
  bound : next.stacksByDeclaration = bindings.stacksByDeclaration ++ [(start, stack)]
  consumed : next.consumedCommentOffsets =
    bindings.consumedCommentOffsets ++ stack.comments.map (·.start)

theorem bindStack_binds (horder : InSourceOrder declarations)
    (hround : body.bindStack text declarations bindings stack = .ok next) :
    ∃ start, Binds text body declarations stack bindings next start := by
  simp only [bindStack, bind_eq_ok, exists_unit, require_eq_ok, demand_eq_ok, pure_eq_ok,
    validateMarkerStackLocation, checkEach_eq_ok, validateMarkerLocation_eq_ok] at hround
  obtain ⟨hlocated, start, hfind, hspace, hfresh, rfl⟩ := hround
  exact ⟨start, hlocated, belongsTo_of_find horder hfind hspace, hfresh, rfl, rfl⟩

/-- What the loop over some stacks makes of the bindings. -/
structure BindsAll (text : List Char) (body : ClassBody) (declarations : List MemberDeclaration)
    (found : List MarkerStack) (bindings final : MemberMarkerBindings) : Prop where
  located : ∀ stack ∈ found, ∀ comment ∈ stack.comments, comment.lineOnly = true ∧
    comment.conditionalDepth = 0 ∧ comment.braceDepth = body.memberDepth
  complete : final.stacksByDeclaration.map Prod.snd =
    bindings.stacksByDeclaration.map Prod.snd ++ found
  belongs : ∀ start stack, (start, stack) ∈ final.stacksByDeclaration →
    (start, stack) ∈ bindings.stacksByDeclaration ∨ BelongsTo text declarations stack start
  single : (bindings.stacksByDeclaration.map Prod.fst).Nodup →
    (final.stacksByDeclaration.map Prod.fst).Nodup
  kept : ∀ offset ∈ bindings.consumedCommentOffsets, offset ∈ final.consumedCommentOffsets
  consumed : ∀ stack ∈ found, ∀ comment ∈ stack.comments,
    comment.start ∈ final.consumedCommentOffsets

theorem bindsAll_of_foldlM (horder : InSourceOrder declarations) {found : List MarkerStack} :
    ∀ {bindings : MemberMarkerBindings},
      found.foldlM (body.bindStack text declarations) bindings = .ok final →
        BindsAll text body declarations found bindings final := by
  induction found with
  | nil =>
      intro bindings hrun
      obtain rfl : bindings = final := pure_eq_ok.mp hrun
      exact ⟨fun stack hstack => absurd hstack List.not_mem_nil, (List.append_nil _).symm,
        fun _ _ hmem => .inl hmem, id, fun _ hmem => hmem,
        fun stack hstack => absurd hstack List.not_mem_nil⟩
  | cons stack found ih =>
      intro bindings hrun
      obtain ⟨next, hround, hrest⟩ := foldlM_cons_eq_ok.mp hrun
      obtain ⟨start, hbinds⟩ := bindStack_binds horder hround
      have hall := ih hrest
      refine ⟨?_, ?_, ?_, ?_, ?_, ?_⟩
      · intro other hother
        rcases List.mem_cons.mp hother with rfl | hother
        · exact hbinds.located
        · exact hall.located other hother
      · rw [hall.complete, hbinds.bound, List.map_append, List.append_assoc]
        rfl
      · intro place other hmem
        rcases hall.belongs place other hmem with hmem | hbelongs
        · rw [hbinds.bound] at hmem
          rcases List.mem_append.mp hmem with hmem | hmem
          · exact .inl hmem
          · obtain ⟨rfl, rfl⟩ := Prod.mk.inj (List.mem_singleton.mp hmem)
            exact .inr hbinds.belongs
        · exact .inr hbelongs
      · intro hnodup
        apply hall.single
        rw [hbinds.bound, List.map_append]
        exact List.Nodup.append hnodup (List.nodup_singleton _)
          (List.disjoint_singleton.mpr hbinds.fresh)
      · intro offset hoffset
        apply hall.kept
        rw [hbinds.consumed]
        exact List.mem_append_left _ hoffset
      · intro other hother comment hcomment
        rcases List.mem_cons.mp hother with rfl | hother
        · apply hall.kept
          rw [hbinds.consumed]
          exact List.mem_append_right _ (List.mem_map_of_mem hcomment)
        · exact hall.consumed other hother comment hcomment

end ClassBody

/-- **Markers of members.** When the markers of a class are bound, each of its stacks belongs to the
one declaration that it is bound to, no declaration has two stacks, all comments of the stacks are
consumed, and each of them is on a line of its own, outside of conditionals and nested bodies. A
class of which this cannot be said is refused. -/
theorem memberMarkerBindings_bound (alphabet : SourceAlphabet) (text : List Char) (body : ClassBody)
    (declarations : List MemberDeclaration) (found : List MarkerStack)
    (horder : InSourceOrder declarations)
    (hcomments : ∀ stack ∈ found, ∀ comment ∈ stack.comments,
      comment ∈ (CppLexer.lex alphabet.toAlphabet text).comments) :
    (∀ bindings, body.memberMarkerBindings text declarations found = .ok bindings →
        Bound (CppLexer.lex alphabet.toAlphabet text) body declarations found bindings) ∧
      ((¬∃ bindings,
          Bound (CppLexer.lex alphabet.toAlphabet text) body declarations found bindings) →
        ∃ error, body.memberMarkerBindings text declarations found = .error error) := by
  have hsound : ∀ bindings, body.memberMarkerBindings text declarations found = .ok bindings →
      Bound (CppLexer.lex alphabet.toAlphabet text) body declarations found bindings := by
    intro bindings hrun
    have hall := ClassBody.bindsAll_of_foldlM horder hrun
    have howned {stack : MarkerStack} (hstack : stack ∈ found) (howns : body.owns stack = true) :
        stack ∈ found.filter body.owns := List.mem_filter.mpr ⟨hstack, howns⟩
    refine ⟨hall.complete, ?_, hall.single List.nodup_nil, ?_, ?_⟩
    · intro start stack hmem
      rw [(CppLexer.lex_nested alphabet text).1]
      exact (hall.belongs start stack hmem).resolve_left List.not_mem_nil
    · intro stack hstack howns
      exact hall.consumed stack (howned hstack howns)
    · intro stack hstack howns comment hcomment
      exact acceptedAt_of_location (hcomments stack hstack comment hcomment)
        (hall.located stack (howned hstack howns) comment hcomment)
  refine ⟨hsound, fun hnone => ?_⟩
  cases hrun : body.memberMarkerBindings text declarations found with
  | ok bindings => exact absurd ⟨bindings, hsound bindings hrun⟩ hnone
  | error error => exact ⟨error, rfl⟩

/-! ### What is bound -/

section Members

theorem declarationExtent_suffix {tokens : List CppToken} : ∀ {parenDepth bracketDepth : Nat},
    (declarationExtent parenDepth bracketDepth tokens).2.2 <:+ tokens := by
  induction tokens with
  | nil =>
      intro parenDepth bracketDepth
      exact List.suffix_refl _
  | cons token tokens ih =>
      intro parenDepth bracketDepth
      rw [declarationExtent]
      dsimp only
      split
      · exact List.suffix_cons _ _
      split
      · exact List.suffix_cons _ _
      · exact ih.trans (List.suffix_cons _ _)

/-- A declaration starts at the first token, and the tokens behind it are behind that one. -/
theorem declarationExtent_first (token : CppToken) (tokens : List CppToken) :
    (declarationExtent 0 0 (token :: tokens)).2.2 <:+ tokens ∧
      ∀ first ∈ (declarationExtent 0 0 (token :: tokens)).1.head?, first = token := by
  rw [declarationExtent]
  dsimp only
  split
  · exact ⟨List.suffix_refl _, fun first hfirst => by cases hfirst⟩
  split
  · exact ⟨List.suffix_refl _, fun first hfirst => by cases hfirst⟩
  · exact ⟨declarationExtent_suffix, fun first hfirst => (Option.some.inj hfirst).symm⟩

theorem skipBracedBody_suffix {tokens : List CppToken} : ∀ {depth : Nat},
    skipBracedBody depth tokens <:+ tokens := by
  induction tokens with
  | nil =>
      intro depth
      cases depth <;> exact List.suffix_refl _
  | cons token tokens ih =>
      intro depth
      cases depth with
      | zero => exact List.suffix_refl _
      | succ depth =>
          rw [skipBracedBody]
          split
          · exact ih.trans (List.suffix_cons _ _)
          split
          · exact ih.trans (List.suffix_cons _ _)
          · exact ih.trans (List.suffix_cons _ _)

theorem skipSemicolon_suffix (tokens : List CppToken) : skipSemicolon tokens <:+ tokens := by
  cases tokens with
  | nil => exact List.suffix_refl _
  | cons token tokens =>
      rw [skipSemicolon]
      split
      · exact List.suffix_cons _ _
      · exact List.suffix_refl _

theorem consumeDeclaration_first (token : CppToken) (tokens : List CppToken) :
    (consumeDeclaration (token :: tokens)).2 <:+ tokens ∧
      ∀ found ∈ (consumeDeclaration (token :: tokens)).1, ∀ first ∈ found.head?, first = token := by
  have hextent := declarationExtent_first token tokens
  rw [consumeDeclaration]
  cases hcase : declarationExtent 0 0 (token :: tokens) with
  | mk taken outcome =>
      obtain ⟨ending, rest⟩ := outcome
      rw [hcase] at hextent
      obtain ⟨hsuffix, hfirst⟩ := hextent
      cases ending with
      | semicolon =>
          refine ⟨hsuffix, fun found hfound => ?_⟩
          rw [← Option.some.inj hfound]
          exact hfirst
      | body =>
          refine ⟨((skipSemicolon_suffix _).trans skipBracedBody_suffix).trans hsuffix, ?_⟩
          intro found hfound
          dsimp only at hfound
          split at hfound
          · rw [← Option.some.inj hfound]
            exact hfirst
          · cases hfound
      | source =>
          refine ⟨hsuffix, fun found hfound => ?_⟩
          dsimp only at hfound
          split at hfound
          · cases hfound
          · rw [← Option.some.inj hfound]
            exact hfirst

theorem scanMembers_sublist (fuel : Nat) : ∀ {access : List Char} {body : List CppToken},
    ((scanMembers fuel access body).filterMap (·.start?)).Sublist (body.map (·.start)) := by
  induction fuel with
  | zero =>
      intro access body
      exact List.nil_sublist _
  | succ fuel ih =>
      intro access body
      cases body with
      | nil => exact List.nil_sublist _
      | cons token tokens =>
          rw [scanMembers]
          dsimp only
          split
          · exact ih.trans (((List.tail_sublist tokens).map _).trans (List.sublist_cons_self _ _))
          · obtain ⟨hsuffix, hfirst⟩ := consumeDeclaration_first token tokens
            have hrest := (@ih access (consumeDeclaration (token :: tokens)).2).trans
              (hsuffix.sublist.map (·.start))
            rw [List.filterMap_append, List.map_cons]
            cases hfound : (consumeDeclaration (token :: tokens)).1 with
            | none => exact hrest.cons _
            | some found =>
                rw [hfound] at hfirst
                cases found with
                | nil => exact hrest.cons _
                | cons first found =>
                    have hsame := hfirst _ rfl first rfl
                    rw [hsame]
                    exact hrest.cons_cons _

/-- The declarations of a class are in the order of the source. -/
theorem memberDeclarations_inSourceOrder {body : List CppToken} {access : List Char}
    (horder : body.Pairwise fun first next => first.start < next.start) :
    InSourceOrder (memberDeclarations body access) := by
  apply List.Pairwise.sublist (scanMembers_sublist _)
  exact List.pairwise_map.mpr horder

theorem lex_tokens_ordered (alphabet : Alphabet) (text : List Char) :
    (CppLexer.lex alphabet text).tokens.Pairwise fun first next => first.start < next.start := by
  have hspanned := (CppLexer.lex_spanned alphabet text).2
  apply (List.pairwise_map.mp hspanned.tokens.ordered).imp_of_mem
  intro first next hfirst _ hle
  exact Nat.lt_of_lt_of_le (hspanned.tokens.proper _ (List.mem_map_of_mem hfirst)).1 hle

end Members

section Stacks

variable {text : List Char} {stack : MarkerStack} {entries : List (LineComment × SupernoteMarker)}

theorem comments_of_stackOf {identity : Nat} (hstack : stack ∈ (stackOf identity entries).toList) :
    stack.comments = entries.map Prod.fst := by
  rw [Option.mem_toList, stackOf] at hstack
  split at hstack
  · cases hstack
  · rw [← Option.some.inj hstack]

theorem groupEntries_comments {allowed : LineComment → Prop} : ∀ {found : List MarkerStack}
    {pending : List (LineComment × SupernoteMarker)},
    (∀ stack ∈ found, ∀ comment ∈ stack.comments, allowed comment) →
      (∀ entry ∈ pending, allowed entry.1) → (∀ entry ∈ entries, allowed entry.1) →
        ∀ stack ∈ groupEntries text found pending entries, ∀ comment ∈ stack.comments,
          allowed comment := by
  have hclosed {found : List MarkerStack} {pending : List (LineComment × SupernoteMarker)}
      (hfound : ∀ stack ∈ found, ∀ comment ∈ stack.comments, allowed comment)
      (hpending : ∀ entry ∈ pending, allowed entry.1) :
      ∀ stack ∈ found ++ (stackOf found.length pending).toList, ∀ comment ∈ stack.comments,
        allowed comment := by
    intro stack hstack comment hcomment
    rcases List.mem_append.mp hstack with hstack | hstack
    · exact hfound stack hstack comment hcomment
    · rw [comments_of_stackOf hstack] at hcomment
      obtain ⟨entry, hentry, rfl⟩ := List.mem_map.mp hcomment
      exact hpending entry hentry
  induction entries with
  | nil =>
      intro found pending hfound hpending _
      exact hclosed hfound hpending
  | cons entry entries ih =>
      intro found pending hfound hpending hentries
      have hentry := hentries entry List.mem_cons_self
      have hrest := fun other hother => hentries other (List.mem_cons_of_mem _ hother)
      rw [groupEntries]
      split
      · apply ih (hclosed hfound hpending) _ hrest
        intro other hother
        rw [List.mem_singleton.mp hother]
        exact hentry
      · apply ih hfound _ hrest
        intro other hother
        rcases List.mem_append.mp hother with hother | hother
        · exact hpending other hother
        · rw [List.mem_singleton.mp hother]
          exact hentry

/-- The comments of the stacks are those of the entries. -/
theorem markerStacks_comments {allowed : LineComment → Prop}
    (hentries : ∀ entry ∈ entries, allowed entry.1) :
    ∀ stack ∈ markerStacks text entries, ∀ comment ∈ stack.comments, allowed comment := by
  apply groupEntries_comments _ _ hentries
  · intro stack hstack
    cases hstack
  · intro entry hentry
    cases hentry

end Stacks

/-- A class with two members, of which the second has two markers. -/
def memberSource : List Char :=
  ("struct A \x7b\nint x;\n// @SupernotePluginExport\n// @SupernotePluginAsync\n" ++
    "void run();\n\x7d;\n").toList

def memberLexer : CppLexer :=
  CppLexer.lex asciiAlphabet.toAlphabet memberSource

def memberBody : ClassBody where
  classStack := none
  openingEnd := 10
  closingStart := 81
  memberDepth := 1
  className := "A"

/-- The declarations of the eight tokens between the braces. -/
def declaredMembers : List MemberDeclaration :=
  memberDeclarations ((memberLexer.tokens.drop 3).take 8) "public".toList

def memberStacks : List MarkerStack :=
  markerStacks memberSource (memberLexer.comments.zip [.exported, .async])

theorem memberMarkerBindings_bound_sample :
    (memberBody.memberMarkerBindings memberSource declaredMembers memberStacks).toBool = true ∧
      (∀ bindings,
        memberBody.memberMarkerBindings memberSource declaredMembers memberStacks = .ok bindings →
          Bound memberLexer memberBody declaredMembers memberStacks bindings) ∧
      ((¬∃ bindings, Bound memberLexer memberBody declaredMembers memberStacks bindings) →
        ∃ error, memberBody.memberMarkerBindings memberSource declaredMembers memberStacks =
          .error error) := by
  refine ⟨by decide, ?_⟩
  apply memberMarkerBindings_bound asciiAlphabet memberSource memberBody
  · apply memberDeclarations_inSourceOrder
    have hordered := lex_tokens_ordered asciiAlphabet.toAlphabet memberSource
    exact hordered.sublist ((List.take_sublist _ _).trans (List.drop_sublist _ _))
  · apply markerStacks_comments
    intro entry hentry
    exact (List.of_mem_zip hentry).1

end SupernoteModule.Frontend
