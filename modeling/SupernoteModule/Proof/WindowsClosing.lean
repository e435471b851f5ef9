import SupernoteModule.Proof.WindowsAuthority

/-!
# Closing Windows handles

What becomes of a registry when a retired reference is taken up, when a token is drained, and when a
number or a descriptor is closed.
-/

namespace SupernoteModule.Filesystem

open SupernoteModule.Lib SupernoteModule.Python Function

namespace WindowsAuthorityRegistry

variable {registry : WindowsAuthorityRegistry}

/-! ### Closing what is retired -/

section Commute

variable {attempt : CloseAttempt} {authority : AuthorityMap} {handle number generation token : Nat}
  {references ambiguous : List RawGenerationReference}

theorem recordAmbiguous_noted : (registry.noted attempt).recordAmbiguous handle generation =
    (registry.recordAmbiguous handle generation).noted attempt := by
  rw [recordAmbiguous, recordAmbiguous]
  have hsame : (registry.noted attempt).ambiguous = registry.ambiguous := rfl
  rw [hsame]
  split <;> rfl

theorem deleteIf_noted : (registry.noted attempt).deleteIf authority number generation =
    (registry.deleteIf authority number generation).noted attempt := by
  have hsame : (registry.noted attempt).get authority number = registry.get authority number := by
    cases authority <;> rfl
  rw [deleteIf, deleteIf, hsame]
  split
  · cases authority <;> rfl
  · rfl

theorem publishRetired_noted :
    (registry.noted attempt).publishRetired token references ambiguous =
      (registry.publishRetired token references ambiguous).noted attempt :=
  rfl

theorem deleteIf_publishRetired :
    (registry.deleteIf authority number generation).publishRetired token references ambiguous =
      (registry.publishRetired token references ambiguous).deleteIf authority number
        generation := by
  have hsame : (registry.publishRetired token references ambiguous).get authority number =
      registry.get authority number := by
    cases authority <;> rfl
  rw [deleteIf, deleteIf, hsame]
  split
  · cases authority <;> rfl
  · rfl

theorem open_publishRetired :
    (registry.open_ authority number []).publishRetired token references ambiguous =
      (registry.publishRetired token references ambiguous).open_ authority number [] := by
  cases authority <;> rfl

theorem recordAmbiguous_open :
    (registry.open_ authority number []).recordAmbiguous handle generation =
    (registry.recordAmbiguous handle generation).open_ authority number [] := by
  have hsame : (registry.open_ authority number []).ambiguous = registry.ambiguous := by
    cases authority <;> rfl
  rw [recordAmbiguous, recordAmbiguous, hsame]
  split
  · rfl
  · cases authority <;> rfl

/-- A number that is given away had better be free before. -/
theorem open_deleteIf : (registry.deleteIf authority number generation).open_ authority number [] =
    registry.open_ authority number [] := by
  rw [deleteIf]
  split
  · cases authority <;> simp [open_, allocate, set, delete]
  · rfl

end Commute

/-- A number without a generation is given to a new allocation. -/
theorem Consistent.open_ (hconsistent : registry.Consistent) {authority : AuthorityMap}
    {number : Nat} {references : List RawGenerationReference}
    (hfree : registry.get authority number = none)
    (hdistinct : (references.map (·.generation)).Nodup)
    (hreferences : ∀ reference ∈ references, registry.Made reference ∧
      ¬ registry.Reported reference.generation .closed ∧ reference ∉ registry.waiting ∧
        registry.Rooted reference) :
    (registry.open_ authority number references).Consistent := by
  have hmade : ∀ reference ∈ references, registry.Made reference :=
    fun reference hmem => (hreferences reference hmem).1
  apply (hconsistent.allocate hdistinct hmade).set
  · cases authority <;> exact hfree
  · exact Nat.lt_succ_self _
  · rw [objects_allocate_self]
  · rintro ⟨attempt, hmem, hgeneration, _⟩
    exact absurd (hconsistent.attempted attempt hmem).1 (by rw [hgeneration]; exact lt_irrefl _)
  · intro reference hmem
    rw [ancestors_allocate_self] at hmem
    obtain ⟨hmade, hopen, hwaiting, hrooted⟩ := hreferences reference hmem
    refine ⟨hopen, hwaiting, ?_⟩
    rw [Rooted, ancestors_allocate_of_ne (Nat.ne_of_lt hmade.1)]
    exact hrooted

theorem Consistent.openEmpty (hconsistent : registry.Consistent) (authority : AuthorityMap)
    {number : Nat} (hfree : registry.get authority number = none) :
    (registry.open_ authority number []).Consistent :=
  hconsistent.open_ hfree List.nodup_nil fun _ hmem => by cases hmem

/-- What `_close_retired` keeps up while it goes through the references of a token. -/
structure Settling (token : Nat) (registry : WindowsAuthorityRegistry)
    (remaining ambiguous : List RawGenerationReference) : Prop where
  consistent : registry.Consistent
  recorded : (registry.retired.lookup token).getD [] = remaining
  known : ∀ reference ∈ ambiguous,
    reference.generation ∈ registry.ambiguous reference.handle

/-- The closer may be called for the reference. -/
structure Callable (registry : WindowsAuthorityRegistry) (reference : RawGenerationReference) :
    Prop where
  current : ∀ registered ∈ registry.handles reference.handle, registered = reference.generation
  clear : ¬ registry.generationIsAmbiguous reference.handle reference.generation

def attempt (registry : WindowsAuthorityRegistry) (reference : RawGenerationReference)
    (state : RawCloseState) : CloseAttempt :=
  ⟨reference.handle, reference.generation, registry.handles reference.handle, state⟩

theorem callCloser_of_not_reused {close : Nat → CloseAnswer} {handle generation : Nat}
    (hreused : (close registry.calls).reused = false) :
    registry.callCloser close handle generation =
      (registry.noted (registry.attempt ⟨handle, generation⟩ (close registry.calls).state),
        (close registry.calls).toRawCloseOutcome) := by
  simp only [callCloser, hreused]
  rfl

theorem callCloser_of_reused {close : Nat → CloseAnswer} {handle generation : Nat}
    (hreused : (close registry.calls).reused = true) :
    registry.callCloser close handle generation =
      ((registry.noted (registry.attempt ⟨handle, generation⟩ (close registry.calls).state)).open_
        .handles handle [], (close registry.calls).toRawCloseOutcome) := by
  simp only [callCloser, hreused]
  rfl

/-- What a registry becomes when one reference of a token is taken up. The steps of the source are
put in an order in which each of them keeps the invariant. -/
inductive Settles (close : Nat → CloseAnswer) (registry : WindowsAuthorityRegistry) (token : Nat)
    (remaining ambiguous : List RawGenerationReference) (reference : RawGenerationReference) :
    WindowsAuthorityRegistry → List RawGenerationReference → List RawGenerationReference →
      Prop where
  | superseded (newer : Nat) : registry.handles reference.handle = some newer →
      newer ≠ reference.generation →
      Settles close registry token remaining ambiguous reference
        (registry.publishRetired token (remaining.erase reference) ambiguous)
        (remaining.erase reference) ambiguous
  | refused : registry.generationIsAmbiguous reference.handle reference.generation →
      Settles close registry token remaining ambiguous reference
        ((registry.recordAmbiguous reference.handle reference.generation).publishRetired token
          (remaining.erase reference) (ambiguous ++ [reference]))
        (remaining.erase reference) (ambiguous ++ [reference])
  | retryable : registry.Callable reference →
      Settles close registry token remaining ambiguous reference
        ((registry.publishRetired token remaining ambiguous).noted
          (registry.attempt reference .retryable))
        remaining ambiguous
  | closed : registry.Callable reference →
      Settles close registry token remaining ambiguous reference
        (((registry.publishRetired token (remaining.erase reference) ambiguous).deleteIf .handles
          reference.handle reference.generation).noted (registry.attempt reference .closed))
        (remaining.erase reference) ambiguous
  | ambiguous : registry.Callable reference →
      Settles close registry token remaining ambiguous reference
        (((registry.recordAmbiguous reference.handle reference.generation).publishRetired token
          (remaining.erase reference) (ambiguous ++ [reference])).noted
            (registry.attempt reference .ambiguous))
        (remaining.erase reference) (ambiguous ++ [reference])
  | reused (state : RawCloseState) : registry.Callable reference →
      (close registry.calls).reused = true → state ≠ .ambiguous →
      Settles close registry token remaining ambiguous reference
        ((((registry.publishRetired token (remaining.erase reference) ambiguous).deleteIf .handles
          reference.handle reference.generation).noted (registry.attempt reference state)).open_
            .handles reference.handle [])
        (remaining.erase reference) ambiguous
  | reusedAmbiguous : registry.Callable reference → (close registry.calls).reused = true →
      Settles close registry token remaining ambiguous reference
        (((((registry.recordAmbiguous reference.handle reference.generation).publishRetired token
          (remaining.erase reference) (ambiguous ++ [reference])).deleteIf .handles reference.handle
            reference.generation).noted (registry.attempt reference .ambiguous)).open_ .handles
              reference.handle [])
        (remaining.erase reference) (ambiguous ++ [reference])

theorem closeRetiredReference_settles {close : Nat → CloseAnswer} {token : Nat}
    {retiring : Retiring}
    {reference : RawGenerationReference} (hbound : reference.generation < retiring.registry.next) :
    Settles close retiring.registry token retiring.remaining retiring.ambiguous reference
      (closeRetiredReference close token retiring reference).registry
      (closeRetiredReference close token retiring reference).remaining
      (closeRetiredReference close token retiring reference).ambiguous := by
  obtain ⟨registry, remaining, ambiguous, firstError⟩ := retiring
  rw [closeRetiredReference]
  dsimp only
  by_cases hnewer : (registry.handles reference.handle).isSome ∧
      registry.handles reference.handle ≠ some reference.generation
  · rw [if_pos hnewer]
    obtain ⟨newer, hsome⟩ := Option.isSome_iff_exists.mp hnewer.1
    apply Settles.superseded newer hsome
    rintro rfl
    exact hnewer.2 hsome
  rw [if_neg hnewer]
  by_cases hambiguous : registry.generationIsAmbiguous reference.handle reference.generation
  · rw [if_pos hambiguous]
    exact .refused hambiguous
  rw [if_neg hambiguous]
  have hcallable : registry.Callable reference := by
    refine ⟨?_, hambiguous⟩
    intro newer hsome
    by_contra hne
    exact hnewer ⟨Option.isSome_iff_exists.mpr ⟨newer, hsome⟩, fun hsame =>
      hne (Option.some.inj (hsome.symm.trans hsame))⟩
  by_cases hreused : (close registry.calls).reused = true
  · rw [callCloser_of_reused hreused]
    dsimp only
    have hlive : ((registry.noted (registry.attempt ⟨reference.handle, reference.generation⟩
        (close registry.calls).state)).open_ .handles reference.handle []).handles
          reference.handle = some registry.next := update_self _ _ _
    have hne : registry.next ≠ reference.generation := Nat.ne_of_gt hbound
    rw [hlive, if_pos ⟨rfl, fun hsame => hne (Option.some.inj hsame)⟩]
    by_cases hstate : (close registry.calls).state = .ambiguous
    · rw [if_pos hstate, hstate, recordAmbiguous_open, open_publishRetired, recordAmbiguous_noted,
        publishRetired_noted]
      have hsettles : Settles close registry token remaining ambiguous reference _ _ _ :=
        .reusedAmbiguous hcallable hreused
      rwa [← deleteIf_noted, open_deleteIf] at hsettles
    · rw [if_neg hstate, open_publishRetired, publishRetired_noted]
      have hsettles : Settles close registry token remaining ambiguous reference _ _ _ :=
        .reused _ hcallable hreused hstate
      rwa [← deleteIf_noted, open_deleteIf] at hsettles
  · rw [callCloser_of_not_reused (Bool.not_eq_true _ ▸ hreused)]
    dsimp only
    have hlive : (registry.noted (registry.attempt ⟨reference.handle, reference.generation⟩
        (close registry.calls).state)).handles reference.handle =
          registry.handles reference.handle := rfl
    rw [hlive, if_neg hnewer]
    cases hstate : (close registry.calls).state with
    | closed =>
        dsimp only
        rw [deleteIf_noted, publishRetired_noted, deleteIf_publishRetired]
        exact .closed hcallable
    | retryable => exact .retryable hcallable
    | ambiguous =>
        dsimp only
        rw [recordAmbiguous_noted, publishRetired_noted]
        exact .ambiguous hcallable

section Settle

variable {token : Nat} {remaining ambiguous : List RawGenerationReference}
  {reference : RawGenerationReference}

/-- The reference no longer waits, and its generation is off its number. -/
theorem Consistent.withdrawn (hconsistent : registry.Consistent)
    (hrecorded : registry.retired.lookup token = some remaining) (hmem : reference ∈ remaining)
    (hcurrent : ∀ registered ∈ registry.handles reference.handle,
      registered = reference.generation)
    (hknown : ∀ other ∈ ambiguous, other.generation ∈ registry.ambiguous other.handle)
    {after : WindowsAuthorityRegistry}
    (hafter : after = (registry.publishRetired token (remaining.erase reference)
      ambiguous).deleteIf .handles reference.handle reference.generation) :
    after.Consistent ∧ after.handles reference.handle = none ∧
      ¬ after.Retained reference.generation ∧
      ∀ number, after.handles number ≠ some reference.generation := by
  have hpublished : (registry.publishRetired token (remaining.erase reference)
      ambiguous).Consistent := hconsistent.publishRetired hrecorded List.erase_sublist hknown
  have hgone := @not_retained_of_erased registry token remaining ambiguous hconsistent hrecorded
    reference hmem
  have hwaits := mem_waiting_of_lookup hrecorded hmem
  have hmade := hconsistent.waitingMade reference hwaits
  have hconsistent' : after.Consistent := by
    rw [hafter]
    exact hpublished.deleteIf fun _ hretained => absurd hretained hgone
  have hnone : after.handles reference.handle = none := by
    have hget := @get_deleteIf (registry.publishRetired token (remaining.erase reference) ambiguous)
      .handles reference.handle reference.generation .handles reference.handle
    rw [← hafter] at hget
    rw [show after.handles reference.handle = after.get .handles reference.handle from rfl, hget]
    split_ifs with hself
    · rfl
    · cases hsome : registry.handles reference.handle with
      | none => exact hsome
      | some registered =>
          obtain rfl := hcurrent registered hsome
          exact absurd ⟨hsome, rfl, rfl⟩ hself
  refine ⟨hconsistent', hnone, ?_, ?_⟩
  · rw [hafter]
    exact fun hretained => hgone hretained.of_deleteIf
  · intro number hsome
    have hnumber : (after.objects reference.generation).handle = some number :=
      (hconsistent'.registered number _ hsome).2
    have hobjects : after.objects = registry.objects := by
      rw [hafter]
      exact (deleteIf_same).2.2.2.2.1
    rw [hobjects, hmade.2] at hnumber
    rw [← Option.some.inj hnumber, hnone] at hsome
    cases hsome

theorem lookup_of_mem (hrecorded : (registry.retired.lookup token).getD [] = remaining)
    (hmem : reference ∈ remaining) : registry.retired.lookup token = some remaining := by
  cases hlookup : registry.retired.lookup token with
  | none =>
      rw [hlookup, Option.getD_none] at hrecorded
      rw [← hrecorded] at hmem
      cases hmem
  | some found =>
      rw [hlookup, Option.getD_some] at hrecorded
      rw [hrecorded]

/-- The closer has not given the generation up, and no newer one is on its number. -/
structure Due (registry : WindowsAuthorityRegistry) (reference : RawGenerationReference) :
    Prop where
  made : registry.Made reference
  unreported : ¬ registry.Reported reference.generation .closed
  clear : ¬ registry.Reported reference.generation .ambiguous
  current : ∀ registered ∈ registry.handles reference.handle, registered = reference.generation

/-- The call for a reference is noted once the registry has settled it. -/
theorem Consistent.note (registry : WindowsAuthorityRegistry) (hdue : registry.Due reference)
    {after : WindowsAuthorityRegistry} (hafter : after.Consistent)
    (hobjects : after.objects = registry.objects) (hnext : registry.next ≤ after.next)
    (htrace : after.trace = registry.trace) {state : RawCloseState}
    (hclosed : state = .closed → ¬ after.Retained reference.generation ∧
      ∀ number, after.handles number ≠ some reference.generation)
    (hambiguous : state = .ambiguous →
      reference.generation ∈ after.ambiguous reference.handle) :
    (after.noted (registry.attempt reference state)).Consistent := by
  have hreported : ∀ outcome, after.Reported reference.generation outcome →
      registry.Reported reference.generation outcome := by
    intro outcome
    rw [Reported, Reported, attempts, attempts, htrace]
    exact id
  apply hafter.noted
  · rw [Made, hobjects]
    exact ⟨Nat.lt_of_lt_of_le hdue.made.1 hnext, hdue.made.2⟩
  · exact fun hbefore => hdue.unreported (hreported _ hbefore)
  · exact fun hbefore => hdue.clear (hreported _ hbefore)
  · exact fun registered hregistered => (hdue.current registered hregistered).le
  · exact hclosed
  · exact hambiguous

/-- The closer may be called for what waits under a token. -/
theorem Consistent.dueWaiting (hconsistent : registry.Consistent)
    (hrecorded : registry.retired.lookup token = some remaining) (hmem : reference ∈ remaining)
    (hcallable : registry.Callable reference) : registry.Due reference := by
  have hwaits := mem_waiting_of_lookup hrecorded hmem
  have hmade := hconsistent.waitingMade reference hwaits
  refine ⟨hmade, ?_, hconsistent.clear hmade hcallable.clear, hcallable.current⟩
  intro hreported
  exact (hconsistent.closedGone _ hreported).1 ⟨reference, rfl, .inr hwaits⟩

/-- The registry knows what has been recorded as ambiguous, and the reference that is recorded. -/
theorem known_recordAmbiguous
    (hknown : ∀ other ∈ ambiguous, other.generation ∈ registry.ambiguous other.handle) :
    ∀ other ∈ ambiguous ++ [reference], other.generation ∈
      (registry.recordAmbiguous reference.handle reference.generation).ambiguous other.handle := by
  intro other hother
  rcases List.mem_append.mp hother with hbefore | hlast
  · exact mem_recordAmbiguous.mpr (.inl (hknown other hbefore))
  · obtain rfl := List.mem_singleton.mp hlast
    exact mem_recordAmbiguous.mpr (.inr ⟨rfl, rfl⟩)

/-- A registry that differs in nothing but what it has recorded as ambiguous settles the reference
by taking it off its token and its number, and by noting the call. -/
theorem Consistent.settleWithdrawn (registry : WindowsAuthorityRegistry)
    (hdue : registry.Due reference) {recorded : WindowsAuthorityRegistry}
    (hrecorded : recorded.Consistent)
    (hobjects : recorded.objects = registry.objects) (hnext : registry.next ≤ recorded.next)
    (htrace : recorded.trace = registry.trace) (hhandles : recorded.handles = registry.handles)
    (hlookup : recorded.retired.lookup token = some remaining) (hmem : reference ∈ remaining)
    (hknown : ∀ other ∈ ambiguous, other.generation ∈ recorded.ambiguous other.handle)
    {state : RawCloseState}
    (hambiguous : state = .ambiguous →
      reference.generation ∈ recorded.ambiguous reference.handle)
    {after : WindowsAuthorityRegistry}
    (hafter : after = (recorded.publishRetired token (remaining.erase reference)
      ambiguous).deleteIf .handles reference.handle reference.generation) :
    Settling token (after.noted (registry.attempt reference state)) (remaining.erase reference)
        ambiguous ∧
      after.handles reference.handle = none := by
  have hcurrent : ∀ registered ∈ recorded.handles reference.handle,
      registered = reference.generation := by
    rw [hhandles]
    exact hdue.current
  obtain ⟨hconsistent, hnone, hgone, hoff⟩ :=
    hrecorded.withdrawn hlookup hmem hcurrent hknown hafter
  obtain ⟨hretired, _, hsame, _, hkeepsObjects, hkeepsNext, hkeepsTrace⟩ :=
    @deleteIf_same (recorded.publishRetired token (remaining.erase reference) ambiguous)
      .handles reference.handle reference.generation
  rw [← hafter] at hretired hsame hkeepsObjects hkeepsNext hkeepsTrace
  have hknows : ∀ other ∈ ambiguous, other.generation ∈ after.ambiguous other.handle := by
    rw [hsame]
    exact hknown
  have hnoted := Consistent.note registry hdue hconsistent (hkeepsObjects.trans hobjects)
    (hkeepsNext.symm ▸ hnext) (hkeepsTrace.trans htrace) (fun _ => ⟨hgone, hoff⟩)
    (fun hstate => (congrFun hsame reference.handle).symm ▸ hambiguous hstate)
  refine ⟨⟨hnoted, ?_, hknows⟩, hnone⟩
  exact (congrArg (fun retired => (retired.lookup token).getD []) hretired).trans
    lookup_publishRetired

/-- A number that is free is given to a new generation, which owns nothing. -/
theorem Settling.openEmpty {number : Nat} (hsettling : Settling token registry remaining ambiguous)
    (hfree : registry.handles number = none) :
    Settling token (registry.open_ .handles number []) remaining ambiguous :=
  ⟨hsettling.consistent.openEmpty .handles hfree, hsettling.recorded, hsettling.known⟩

/-- One reference of a token is taken up. -/
theorem Settling.settle {close : Nat → CloseAnswer}
    (hsettling : Settling token registry remaining ambiguous)
    (hmem : reference ∈ remaining) {after : WindowsAuthorityRegistry}
    {rest known : List RawGenerationReference}
    (hsettles : Settles close registry token remaining ambiguous reference after rest known) :
    Settling token after rest known ∧ ∀ other ∈ remaining, other ≠ reference → other ∈ rest := by
  obtain ⟨hconsistent, hrecorded, hknown⟩ := hsettling
  have hlookup := lookup_of_mem hrecorded hmem
  have hdue : registry.Callable reference → registry.Due reference :=
    hconsistent.dueWaiting hlookup hmem
  have hkept : ∀ other ∈ remaining, other ≠ reference → other ∈ remaining.erase reference :=
    fun other hother hne => (List.mem_erase_of_ne hne).mpr hother
  -- What is recorded as ambiguous is recorded before the token is published again.
  have hrecord := hconsistent.recordAmbiguous reference.handle reference.generation
  obtain ⟨hretired, hhandles, htrace, hobjects, hnext⟩ :=
    @recordAmbiguous_same registry reference.handle reference.generation
  have hlookupRecord : (registry.recordAmbiguous reference.handle
      reference.generation).retired.lookup token = some remaining := hretired.symm ▸ hlookup
  have hknows := @known_recordAmbiguous registry ambiguous reference hknown
  have hself := hknows reference (List.mem_append_right _ List.mem_cons_self)
  cases hsettles with
  | superseded newer hnewer hne =>
      exact ⟨⟨hconsistent.publishRetired hlookup List.erase_sublist hknown, lookup_publishRetired,
        hknown⟩, hkept⟩
  | refused hambiguous =>
      exact ⟨⟨hrecord.publishRetired hlookupRecord List.erase_sublist hknows,
        lookup_publishRetired, hknows⟩, hkept⟩
  | retryable hcallable =>
      have hpublished : (registry.publishRetired token remaining ambiguous).Consistent :=
        hconsistent.publishRetired hlookup (List.Sublist.refl _) hknown
      have hnoted := Consistent.note registry (hdue hcallable) hpublished rfl le_rfl rfl
        (fun hstate : RawCloseState.retryable = .closed => by cases hstate)
        (fun hstate => by cases hstate)
      exact ⟨⟨hnoted, @lookup_publishRetired registry token remaining ambiguous, hknown⟩,
        fun other hother _ => hother⟩
  | closed hcallable =>
      have hsettled := Consistent.settleWithdrawn registry (hdue hcallable) hconsistent rfl le_rfl
        rfl rfl hlookup hmem hknown
        (fun hstate : RawCloseState.closed = .ambiguous => by cases hstate) rfl
      exact ⟨hsettled.1, hkept⟩
  | ambiguous hcallable =>
      have hpublished := hrecord.publishRetired hlookupRecord
        (@List.erase_sublist _ _ reference remaining) hknows
      have hnoted := Consistent.note registry (hdue hcallable) hpublished hobjects hnext.ge htrace
        (fun hstate : RawCloseState.ambiguous = .closed => by cases hstate) (fun _ => hself)
      exact ⟨⟨hnoted, @lookup_publishRetired _ token _ (ambiguous ++ [reference]), hknows⟩, hkept⟩
  | reused state hcallable _ hstate =>
      have hsettled := Consistent.settleWithdrawn registry (hdue hcallable) hconsistent rfl le_rfl
        rfl rfl hlookup hmem hknown
        (fun hambiguous => absurd hambiguous hstate) rfl
      exact ⟨hsettled.1.openEmpty hsettled.2, hkept⟩
  | reusedAmbiguous hcallable _ =>
      have hsettled := Consistent.settleWithdrawn registry (hdue hcallable) hrecord hobjects
        hnext.ge htrace hhandles hlookupRecord hmem hknows
        (fun _ : RawCloseState.ambiguous = .ambiguous => hself) rfl
      exact ⟨hsettled.1.openEmpty hsettled.2, hkept⟩

theorem get_open (authority : AuthorityMap) (number : Nat) (other : AuthorityMap)
    (otherNumber : Nat) : (registry.open_ authority number []).get other otherNumber =
      if other = authority ∧ otherNumber = number then some registry.next
      else registry.get other otherNumber := by
  rw [open_, get_set]
  cases other <;> rfl

/-- Only the generation of the reference leaves its number. -/
theorem Settles.get {close : Nat → CloseAnswer} {after : WindowsAuthorityRegistry}
    {rest known : List RawGenerationReference}
    (hsettles : Settles close registry token remaining ambiguous reference after rest known)
    {authority : AuthorityMap} {number generation : Nat}
    (hregistered : registry.get authority number = some generation)
    (hne : generation ≠ reference.generation) : after.get authority number = some generation := by
  have hrecord : (registry.recordAmbiguous reference.handle reference.generation).get authority
      number = registry.get authority number := by
    rw [recordAmbiguous]
    split
    · rfl
    · cases authority <;> rfl
  have hdelete : ∀ {before : WindowsAuthorityRegistry}, before.get authority number =
      some generation → (before.deleteIf .handles reference.handle reference.generation).get
        authority number = some generation := by
    intro before hbefore
    rw [get_deleteIf, if_neg, hbefore]
    rintro ⟨hself, rfl, rfl⟩
    exact hne (Option.some.inj (hbefore.symm.trans hself))
  have hopen : registry.Callable reference → ∀ {before : WindowsAuthorityRegistry},
      before.get authority number = some generation →
        (before.open_ .handles reference.handle []).get authority number = some generation := by
    intro hcallable before hbefore
    rw [get_open, if_neg, hbefore]
    rintro ⟨rfl, rfl⟩
    exact hne (hcallable.current generation hregistered)
  have hsame : ∀ {before : WindowsAuthorityRegistry} {attempt : CloseAttempt},
      (before.noted attempt).get authority number = before.get authority number := by
    intro before attempt
    cases authority <;> rfl
  have hpublish : ∀ {before : WindowsAuthorityRegistry} {remaining ambiguous},
      (before.publishRetired token remaining ambiguous).get authority number =
        before.get authority number := by
    intro before remaining ambiguous
    cases authority <;> rfl
  cases hsettles with
  | superseded => rw [hpublish, hregistered]
  | refused => rw [hpublish, hrecord, hregistered]
  | retryable => rw [hsame, hpublish, hregistered]
  | closed =>
      rw [hsame]
      exact hdelete (hpublish.trans hregistered)
  | ambiguous => rw [hsame, hpublish, hrecord, hregistered]
  | reused _ hcallable =>
      exact hopen hcallable (hsame.trans (hdelete (hpublish.trans hregistered)))
  | reusedAmbiguous hcallable =>
      exact hopen hcallable
        (hsame.trans (hdelete (hpublish.trans (hrecord.trans hregistered))))

/-- What waits afterwards is what waited before, but for the reference unless it can be retried. -/
theorem Settles.mem_waiting {close : Nat → CloseAnswer} {after : WindowsAuthorityRegistry}
    {rest known : List RawGenerationReference}
    (hsettles : Settles close registry token remaining ambiguous reference after rest known)
    (hconsistent : registry.Consistent) (hlookup : registry.retired.lookup token = some remaining)
    (hmem : reference ∈ remaining) {other : RawGenerationReference} :
    other ∈ after.waiting ↔ other ∈ registry.waiting ∧ (other ≠ reference ∨ rest = remaining) := by
  have hrecord := hconsistent.recordAmbiguous reference.handle reference.generation
  have hsame := @recordAmbiguous_same registry reference.handle reference.generation
  have hwaiting : (registry.recordAmbiguous reference.handle reference.generation).waiting =
      registry.waiting := congrArg (fun retired => retired.flatMap (·.2)) hsame.1
  have hshorter : remaining.erase reference ≠ remaining := by
    intro hequal
    have hlength := congrArg List.length hequal
    rw [List.length_erase_of_mem hmem] at hlength
    have hpositive := List.length_pos_of_mem hmem
    omega
  have herased : ∀ ambiguous, (other ∈ (registry.publishRetired token (remaining.erase reference)
      ambiguous).waiting ↔ other ∈ registry.waiting ∧
        (other ≠ reference ∨ remaining.erase reference = remaining)) := by
    intro ambiguous
    rw [mem_waiting_erased hconsistent hlookup hmem, or_iff_left hshorter]
  have hnoted : ∀ ambiguous, (other ∈ ((registry.recordAmbiguous reference.handle
      reference.generation).publishRetired token (remaining.erase reference) ambiguous).waiting ↔
        other ∈ registry.waiting ∧
          (other ≠ reference ∨ remaining.erase reference = remaining)) := by
    intro ambiguous
    rw [mem_waiting_erased hrecord (hsame.1 ▸ hlookup) hmem, or_iff_left hshorter, hwaiting]
  have hdelete : ∀ {before : WindowsAuthorityRegistry}, (before.deleteIf .handles reference.handle
      reference.generation).waiting = before.waiting := by
    intro before
    exact congrArg (fun retired => retired.flatMap (·.2)) deleteIf_same.1
  cases hsettles with
  | superseded => exact herased ambiguous
  | refused => exact hnoted (ambiguous ++ [reference])
  | retryable =>
      obtain ⟨before, last, hbefore, hlast, _⟩ :=
        @waiting_publishRetired registry token remaining remaining ambiguous hconsistent hlookup
      have hall : (registry.publishRetired token remaining ambiguous).waiting = registry.waiting :=
        hlast.trans hbefore.symm
      have hnext : ((registry.publishRetired token remaining ambiguous).noted
          (registry.attempt reference .retryable)).waiting = registry.waiting := hall
      rw [hnext]
      simp
  | closed => exact (congrArg (other ∈ ·) hdelete).to_iff.trans (herased ambiguous)
  | ambiguous => exact hnoted (ambiguous ++ [reference])
  | reused => exact (congrArg (other ∈ ·) hdelete).to_iff.trans (herased ambiguous)
  | reusedAmbiguous =>
      exact (congrArg (other ∈ ·) hdelete).to_iff.trans (hnoted (ambiguous ++ [reference]))

end Settle

/-! ### Draining -/

section Drain

variable {close : Nat → CloseAnswer} {kept : WindowsAuthorityRegistry → Prop}

/-- An assertion about registries that the closing of retired references keeps. -/
structure KeptByDraining (close : Nat → CloseAnswer) (kept : WindowsAuthorityRegistry → Prop) :
    Prop where
  settle : ∀ {registry : WindowsAuthorityRegistry} {token remaining ambiguous reference after rest
    known}, registry.Consistent → kept registry →
      registry.retired.lookup token = some remaining → reference ∈ remaining →
      Settles close registry token remaining ambiguous reference after rest known → kept after
  forget : ∀ {registry : WindowsAuthorityRegistry} {token},
    (registry.retired.lookup token).getD [] = [] → kept registry →
      kept { registry with retired := registry.retired.filter (·.1 ≠ token) }

theorem Settling.fold (hkept : KeptByDraining close kept) {token : Nat}
    {references : List RawGenerationReference} :
    ∀ {retiring : Retiring},
      Settling token retiring.registry retiring.remaining retiring.ambiguous →
      kept retiring.registry → references.Nodup →
      (∀ reference ∈ references, reference ∈ retiring.remaining) →
      (references.foldl (closeRetiredReference close token) retiring).registry.Consistent ∧
        kept (references.foldl (closeRetiredReference close token) retiring).registry := by
  induction references with
  | nil =>
      intro retiring hsettling hholds _ _
      exact ⟨hsettling.consistent, hholds⟩
  | cons reference references ih =>
      intro retiring hsettling hholds hnodup hmem
      have hreference := hmem reference List.mem_cons_self
      have hlookup := lookup_of_mem hsettling.recorded hreference
      have hbound := (hsettling.consistent.waitingMade reference
        (mem_waiting_of_lookup hlookup hreference)).1
      have hsettles := @closeRetiredReference_settles close token _ _ hbound
      obtain ⟨hafter, hrest⟩ := hsettling.settle hreference hsettles
      rw [List.nodup_cons] at hnodup
      apply ih hafter
      · exact hkept.settle hsettling.consistent hholds hlookup hreference hsettles
      · exact hnodup.2
      · intro other hother
        refine hrest other (hmem other (List.mem_cons_of_mem _ hother)) ?_
        rintro rfl
        exact hnodup.1 hother

theorem waiting_filter (hkeys : (registry.retired.map (·.1)).Nodup) {token : Nat}
    (hlookup : (registry.retired.lookup token).getD [] = []) :
    (registry.retired.filter (·.1 ≠ token)).flatMap (·.2) = registry.waiting := by
  cases hfound : registry.retired.lookup token with
  | none =>
      have hall : registry.retired.filter (·.1 ≠ token) = registry.retired := by
        rw [List.filter_eq_self]
        intro entry hentry
        have hne := List.lookup_eq_none_iff.mp hfound entry hentry
        exact decide_eq_true (Ne.symm (bne_iff_ne.mp hne))
      rw [hall, waiting]
  | some references =>
      rw [hfound, Option.getD_some] at hlookup
      obtain ⟨before, after, hretired, _⟩ := List.lookup_eq_some_iff.mp hfound
      rw [hretired] at hkeys
      rw [waiting, hretired, filter_ne_of_nodup hkeys, hlookup]
      simp

theorem Consistent.forget (hconsistent : registry.Consistent) {token : Nat}
    (hlookup : (registry.retired.lookup token).getD [] = []) :
    ({ registry with retired := registry.retired.filter (·.1 ≠ token) } :
      WindowsAuthorityRegistry).Consistent := by
  have hwaiting := waiting_filter hconsistent.keys hlookup
  apply hconsistent.retire le_rfl
  · exact (List.filter_sublist.map _).nodup hconsistent.keys
  · exact fun entry hentry => hconsistent.tokens entry (List.mem_of_mem_filter hentry)
  · rw [hwaiting]
    exact hconsistent.waitingOnce
  · intro reference hmem
    rw [hwaiting] at hmem
    exact .inl hmem
  · exact hconsistent.refused

theorem sublist_waiting {token : Nat} {references : List RawGenerationReference}
    (hlookup : registry.retired.lookup token = some references) :
    references.Sublist registry.waiting := by
  obtain ⟨before, after, hretired, _⟩ := List.lookup_eq_some_iff.mp hlookup
  rw [waiting, hretired, List.flatMap_append, List.flatMap_cons]
  exact (List.sublist_append_left _ _).trans (List.sublist_append_right _ _)

theorem closeRetired_keeps (hkept : KeptByDraining close kept) (hconsistent : registry.Consistent)
    (hholds : kept registry) (token : Nat) :
    (registry.closeRetired close token).1.Consistent ∧ kept
    (registry.closeRetired close token).1 := by
  rw [closeRetired]
  dsimp only
  by_cases hnone : (registry.retired.lookup token).getD [] = []
  · rw [if_pos hnone]
    exact ⟨hconsistent.forget hnone, hkept.forget hnone hholds⟩
  · rw [if_neg hnone]
    apply Settling.fold hkept ⟨hconsistent, rfl, ?_⟩ hholds
    · rw [List.nodup_reverse]
      have hlookup := lookup_of_mem rfl (List.getLast_mem hnone)
      exact (List.Nodup.of_map _ hconsistent.waitingOnce).sublist (sublist_waiting hlookup)
    · exact fun reference hmem => List.mem_reverse.mp hmem
    · intro reference hmem
      cases hfound : registry.ambiguousRetired.lookup token with
      | none =>
          rw [hfound] at hmem
          cases hmem
      | some known =>
          rw [hfound, Option.getD_some] at hmem
          obtain ⟨before, after, hretired, _⟩ := List.lookup_eq_some_iff.mp hfound
          apply hconsistent.refused
          rw [hretired]
          simp [hmem]

/-- One round of a drain, with the first error so far. -/
def closeNext (close : Nat → CloseAnswer) (state : WindowsAuthorityRegistry × Option String)
    (token : Nat) : WindowsAuthorityRegistry × Option String :=
  ((state.1.closeRetired close token).1, state.2 <|> (state.1.closeRetired close token).2)

theorem reconcile_keeps (hkept : KeptByDraining close kept) (hconsistent : registry.Consistent)
    (hholds : kept registry) :
    (registry.reconcile close).1.Consistent ∧ kept (registry.reconcile close).1 := by
  have hsettled : registry.reconcilePending = registry := by
    rw [reconcilePending, hconsistent.settled, List.map_nil, List.foldl_nil]
  have hfold : ∀ (tokens : List Nat) (state : WindowsAuthorityRegistry × Option String),
      state.1.Consistent → kept state.1 →
        (tokens.foldl (closeNext close) state).1.Consistent ∧
          kept (tokens.foldl (closeNext close) state).1 := by
    intro tokens
    induction tokens with
    | nil => exact fun _ hstate hstays => ⟨hstate, hstays⟩
    | cons token tokens ih =>
        intro state hstate hstays
        obtain ⟨hnext, hnextKept⟩ := closeRetired_keeps hkept hstate hstays token
        exact ih _ hnext hnextKept
  rw [reconcile, hsettled]
  exact hfold _ _ hconsistent hholds

theorem KeptByDraining.trivial : KeptByDraining close fun _ => True where
  settle _ _ _ _ _ := True.intro
  forget _ _ := True.intro

end Drain

/-! ### Retiring a generation -/

/-- References begin to wait under a new token. -/
def enqueue (registry : WindowsAuthorityRegistry) (references : List RawGenerationReference) :
    WindowsAuthorityRegistry :=
  { registry with
    retired := dictInsert registry.retired registry.next references
    next := registry.next + 1 }

section Enqueue

variable {references : List RawGenerationReference} {authority : AuthorityMap}
  {number generation : Nat}

theorem retired_enqueue (hconsistent : registry.Consistent) :
    (registry.enqueue references).retired = registry.retired ++ [(registry.next, references)] := by
  apply dictInsert_of_not_mem
  intro hmem
  obtain ⟨entry, hentry, hkey⟩ := List.mem_map.mp hmem
  exact absurd (hconsistent.tokens entry hentry) (by rw [hkey]; exact lt_irrefl _)

theorem waiting_enqueue (hconsistent : registry.Consistent) :
    (registry.enqueue references).waiting = registry.waiting ++ references := by
  rw [waiting, retired_enqueue hconsistent, List.flatMap_append, waiting]
  simp

theorem deleteIf_enqueue : (registry.enqueue references).deleteIf authority number generation =
    (registry.deleteIf authority number generation).enqueue references := by
  have hsame : (registry.enqueue references).get authority number =
      registry.get authority number := by
    cases authority <;> rfl
  rw [deleteIf, deleteIf, hsame]
  split
  · cases authority <;> rfl
  · rfl

theorem Consistent.enqueue (hconsistent : registry.Consistent)
    (hdistinct : (references.map (·.generation)).Nodup)
    (hnew : ∀ reference ∈ references,
      reference ∉ registry.waiting ∧ registry.Retirable reference) :
    (registry.enqueue references).Consistent := by
  have hretired := @retired_enqueue registry references hconsistent
  have hwaiting := @waiting_enqueue registry references hconsistent
  apply hconsistent.retire (Nat.le_succ _)
  · rw [show dictInsert registry.retired registry.next references = _ from hretired,
      List.map_append, List.nodup_append]
    refine ⟨hconsistent.keys, List.nodup_singleton _, ?_⟩
    intro token htoken other hother hsame
    obtain ⟨entry, hentry, rfl⟩ := List.mem_map.mp htoken
    obtain rfl := List.mem_singleton.mp hother
    exact absurd (hconsistent.tokens entry hentry) (by rw [hsame]; exact lt_irrefl _)
  · intro entry hentry
    rw [show dictInsert registry.retired registry.next references = _ from hretired] at hentry
    rcases List.mem_append.mp hentry with hbefore | hlast
    · exact Nat.lt_succ_of_lt (hconsistent.tokens entry hbefore)
    · obtain rfl := List.mem_singleton.mp hlast
      exact Nat.lt_succ_self _
  · rw [show (dictInsert registry.retired registry.next references).flatMap (·.2) = _ from hwaiting,
      List.map_append, List.nodup_append]
    refine ⟨hconsistent.waitingOnce, hdistinct, ?_⟩
    intro generation hbefore other hother hsame
    obtain ⟨left, hleft, rfl⟩ := List.mem_map.mp hbefore
    obtain ⟨right, hright, rfl⟩ := List.mem_map.mp hother
    obtain ⟨hfree, hretirable⟩ := hnew right hright
    exact hfree (eq_of_made (hconsistent.waitingMade left hleft) hretirable.made hsame ▸ hleft)
  · intro reference hmem
    rw [show (dictInsert registry.retired registry.next references).flatMap (·.2) = _ from
      hwaiting] at hmem
    exact (List.mem_append.mp hmem).imp_right fun hreference => (hnew reference hreference).2
  · exact hconsistent.refused

/-- What a generation that is taken off its number leaves behind may wait. -/
theorem Consistent.retirable (hconsistent : registry.Consistent)
    (hregistered : registry.get authority number = some generation)
    (hsole : registry.Sole authority number)
    (hloose : authority = .handles → registry.Retained generation →
      registry.ancestors generation = []) :
    ∀ reference ∈ registry.ancestors generation,
      reference ∉ (registry.deleteIf authority number generation).waiting ∧
        (registry.deleteIf authority number generation).Retirable reference := by
  intro reference hmem
  have howned : registry.Owned reference := ⟨generation, ⟨authority, number, hregistered⟩, hmem⟩
  have hkeeps := @deleteIf_same registry authority number generation
  refine ⟨?_, ?_, ?_, ?_, ?_⟩
  · rw [waiting, hkeeps.1]
    exact fun hwaits => hconsistent.waitingFree reference hwaits howned
  · rw [Made, hkeeps.2.2.2.2.1, hkeeps.2.2.2.2.2.1]
    exact hconsistent.made generation reference hmem
  · rintro ⟨other, ⟨otherAuthority, otherNumber, hget⟩, hother⟩
    rw [ancestors_deleteIf] at hother
    rw [get_deleteIf] at hget
    by_cases hself : otherAuthority = authority ∧ otherNumber = number
    · rw [if_pos ⟨hregistered, hself⟩] at hget
      cases hget
    · rw [if_neg fun hall => hself hall.2] at hget
      exact hsole generation hregistered reference hmem otherAuthority otherNumber other hget hself
        hother
  · rw [Reported, attempts, hkeeps.2.2.2.2.2.2]
    exact fun hreported =>
      (hconsistent.closedGone _ hreported).1 ⟨reference, rfl, .inl howned⟩
  · intro hnested
    rw [ancestors_deleteIf] at hnested
    have hroot := hconsistent.retainedRooted reference (.inl howned) hnested
    have hget := @get_deleteIf registry authority number generation .handles reference.handle
    rw [if_neg] at hget
    · exact hget.trans hroot
    · rintro ⟨_, rfl, rfl⟩
      have hsame : reference.generation = generation :=
        Option.some.inj (hroot.symm.trans hregistered)
      rw [hsame] at hnested
      exact hnested (hloose rfl ⟨reference, hsame, .inl howned⟩)

/-- A generation is taken off its number, and what it owned begins to wait. -/
theorem Consistent.withdraw (hconsistent : registry.Consistent)
    (hregistered : registry.get authority number = some generation)
    (hsole : registry.Sole authority number)
    (hloose : authority = .handles → registry.Retained generation →
      registry.ancestors generation = []) :
    ((registry.deleteIf authority number generation).enqueue
      (registry.ancestors generation)).Consistent :=
  (hconsistent.deleteIf hloose).enqueue (hconsistent.distinct generation)
    (hconsistent.retirable hregistered hsole hloose)

end Enqueue

/-! ### Closing a number -/

/-- What a registry becomes when a number is closed. A number without a generation is given one
first. -/
inductive ClosesRaw (close : Nat → CloseAnswer) (handle : Nat) :
    WindowsAuthorityRegistry → WindowsAuthorityRegistry → Prop where
  | refused (registry : WindowsAuthorityRegistry) (generation : Nat) :
      registry.generationIsAmbiguous handle generation → ClosesRaw close handle registry registry
  | opened (registry after : WindowsAuthorityRegistry) : registry.handles handle = none →
      ClosesRaw close handle (registry.open_ .handles handle []) after →
      ClosesRaw close handle registry after
  | retryable (registry : WindowsAuthorityRegistry) (generation : Nat) :
      registry.handles handle = some generation → registry.Callable ⟨handle, generation⟩ →
      ClosesRaw close handle registry
        (registry.noted (registry.attempt ⟨handle, generation⟩ .retryable))
  | ambiguous (registry : WindowsAuthorityRegistry) (generation : Nat) :
      registry.handles handle = some generation → registry.Callable ⟨handle, generation⟩ →
      ClosesRaw close handle registry ((registry.recordAmbiguous handle generation).noted
        (registry.attempt ⟨handle, generation⟩ .ambiguous))
  | reused (registry : WindowsAuthorityRegistry) (generation : Nat) (state : RawCloseState) :
      registry.handles handle = some generation → registry.Callable ⟨handle, generation⟩ →
      (close registry.calls).reused = true → state ≠ .ambiguous →
      ClosesRaw close handle registry (((registry.deleteIf .handles handle generation).noted
        (registry.attempt ⟨handle, generation⟩ state)).open_ .handles handle [])
  | reusedAmbiguous (registry : WindowsAuthorityRegistry) (generation : Nat) :
      registry.handles handle = some generation → registry.Callable ⟨handle, generation⟩ →
      (close registry.calls).reused = true →
      ClosesRaw close handle registry
        ((((registry.recordAmbiguous handle generation).deleteIf .handles
        handle generation).noted (registry.attempt ⟨handle, generation⟩ .ambiguous)).open_ .handles
          handle [])
  | closed (registry : WindowsAuthorityRegistry) (generation : Nat) :
      registry.handles handle = some generation → registry.Callable ⟨handle, generation⟩ →
      ClosesRaw close handle registry ((((registry.deleteIf .handles handle generation).enqueue
        (registry.ancestors generation)).noted
          (registry.attempt ⟨handle, generation⟩ .closed)).closeRetired close registry.next).1

theorem closesRaw_of_registered {close : Nat → CloseAnswer} {handle generation : Nat}
    (hregistered : registry.handles handle = some generation)
    (hbound : generation < registry.next)
    (hclear : ¬ registry.generationIsAmbiguous handle generation)
    {after : WindowsAuthorityRegistry × Option String}
    (hafter : after =
      let (called, outcome) := registry.callCloser close handle generation
      let noted := if outcome.state = .ambiguous then called.recordAmbiguous handle generation
        else called
      if called.handles handle ≠ some generation then
        (noted, outcome.error)
      else if outcome.state ≠ .closed then
        (noted, some (outcome.error.getD "Windows handle close failed without a diagnostic"))
      else
        let (retired, error) := noted.retireCurrent close .handles handle generation
        (retired, error <|> outcome.error)) :
    ClosesRaw close handle registry after.1 := by
  have hcallable : registry.Callable ⟨handle, generation⟩ := by
    refine ⟨?_, hclear⟩
    intro registered hsome
    exact Option.some.inj (hsome.symm.trans hregistered)
  rw [hafter]
  by_cases hreused : (close registry.calls).reused = true
  · rw [callCloser_of_reused hreused]
    dsimp only
    have hlive : ((registry.noted (registry.attempt ⟨handle, generation⟩
        (close registry.calls).state)).open_ .handles handle []).handles handle =
          some registry.next := update_self _ _ _
    have hne : registry.next ≠ generation := Nat.ne_of_gt hbound
    rw [hlive, if_pos fun hsame => hne (Option.some.inj hsame)]
    by_cases hstate : (close registry.calls).state = .ambiguous
    · rw [if_pos hstate, hstate, recordAmbiguous_open, recordAmbiguous_noted]
      have hcloses : ClosesRaw close handle registry _ :=
        .reusedAmbiguous registry generation hregistered hcallable hreused
      rwa [← deleteIf_noted, open_deleteIf] at hcloses
    · rw [if_neg hstate]
      have hcloses : ClosesRaw close handle registry _ :=
        .reused registry generation _ hregistered hcallable hreused hstate
      rwa [← deleteIf_noted, open_deleteIf] at hcloses
  · rw [callCloser_of_not_reused (Bool.not_eq_true _ ▸ hreused)]
    dsimp only
    have hlive : (registry.noted (registry.attempt ⟨handle, generation⟩
        (close registry.calls).state)).handles handle = some generation := hregistered
    rw [hlive, if_neg (not_not.mpr rfl)]
    cases hstate : (close registry.calls).state with
    | closed =>
        rw [if_neg (by decide), if_neg (by decide)]
        have hcloses : ClosesRaw close handle registry _ :=
          .closed registry generation hregistered hcallable
        have hsame : ((registry.noted (registry.attempt ⟨handle, generation⟩ .closed)).enqueue
            (registry.ancestors generation)).deleteIf .handles handle generation =
              ((registry.deleteIf .handles handle generation).enqueue
                (registry.ancestors generation)).noted
                  (registry.attempt ⟨handle, generation⟩ .closed) := by
          rw [deleteIf_enqueue, deleteIf_noted]
          rfl
        rw [← hsame] at hcloses
        exact hcloses
    | retryable => exact .retryable registry generation hregistered hcallable
    | ambiguous =>
        rw [if_pos rfl, if_pos (by decide), recordAmbiguous_noted]
        exact .ambiguous registry generation hregistered hcallable

section CloseRaw

variable {close : Nat → CloseAnswer} {handle generation : Nat}

theorem pendingGeneration_of_settled (hsettled : registry.pending = []) (authority : AuthorityMap)
    (number : Nat) : registry.pendingGeneration authority number = none := by
  rw [pendingGeneration, hsettled]
  rfl

theorem closeRaw_of_registered (hconsistent : registry.Consistent)
    (hregistered : registry.handles handle = some generation) :
    ClosesRaw close handle registry (registry.closeRaw close handle).1 := by
  have hcurrent : registry.currentGeneration .handles handle = (registry, generation) := by
    simp only [currentGeneration, pendingGeneration_of_settled hconsistent.settled, get,
      hregistered]
  rw [closeRaw, hcurrent]
  dsimp only
  by_cases hambiguous : registry.generationIsAmbiguous handle generation
  · rw [if_pos hambiguous]
    exact .refused registry generation hambiguous
  · rw [if_neg hambiguous]
    exact closesRaw_of_registered hregistered
      (hconsistent.registered handle generation hregistered).1 hambiguous rfl

theorem closeRaw_closes (hconsistent : registry.Consistent) :
    ClosesRaw close handle registry (registry.closeRaw close handle).1 := by
  cases hregistered : registry.handles handle with
  | some generation => exact closeRaw_of_registered hconsistent hregistered
  | none =>
      have hpending := pendingGeneration_of_settled hconsistent.settled .handles handle
      cases hretired : registry.ambiguousRetiredGeneration handle with
      | some generation =>
          have hcurrent : registry.currentGeneration .handles handle = (registry, generation) := by
            simp only [currentGeneration, hpending, get, hregistered, hretired]
          have hambiguous : registry.generationIsAmbiguous handle generation := by
            rw [ambiguousRetiredGeneration] at hretired
            obtain ⟨reference, hfind, rfl⟩ := Option.map_eq_some_iff.mp hretired
            have hhandle : reference.handle = handle := by
              simpa using List.find?_some hfind
            rw [← hhandle]
            exact hconsistent.refused reference (List.mem_of_find?_eq_some hfind)
          rw [closeRaw, hcurrent]
          dsimp only
          rw [if_pos hambiguous]
          exact .refused registry generation hambiguous
      | none =>
          have hcurrent : registry.currentGeneration .handles handle =
              (registry.open_ .handles handle [], registry.next) := by
            simp only [currentGeneration, hpending, get, hregistered, hretired]
          have hopened := hconsistent.openEmpty .handles hregistered
          have hself : (registry.open_ .handles handle []).handles handle = some registry.next :=
            update_self _ _ _
          have hagain : (registry.open_ .handles handle []).currentGeneration .handles handle =
              (registry.open_ .handles handle [], registry.next) := by
            simp only [currentGeneration, pendingGeneration_of_settled hopened.settled, get, hself]
          have hcloses := @closeRaw_of_registered _ close _ _ hopened hself
          rw [closeRaw, hagain] at hcloses
          rw [closeRaw, hcurrent]
          exact .opened registry _ hregistered hcloses

/-- Nothing retains what is registered on the number, and nothing else owns its references. -/
structure Closable (registry : WindowsAuthorityRegistry) (handle : Nat) : Prop where
  loose : ∀ generation, registry.handles handle = some generation → ¬ registry.Retained generation
  sole : registry.Sole .handles handle

theorem closable_open (hconsistent : registry.Consistent) :
    (registry.open_ .handles handle []).Closable handle := by
  have hself : ∀ found, (registry.open_ .handles handle []).handles handle = some found →
      found = registry.next := by
    intro found hfound
    have hnext : (registry.open_ .handles handle []).handles handle = some registry.next :=
      update_self _ _ _
    exact Option.some.inj (hfound.symm.trans hnext)
  have hnone : (registry.open_ .handles handle []).ancestors registry.next = [] :=
    ancestors_allocate_self
  constructor
  · intro found hfound
    obtain rfl := hself found hfound
    rintro ⟨reference, hgeneration, ⟨owner, _, hmem⟩ | hmem⟩
    · by_cases howner : owner = registry.next
      · rw [howner, hnone] at hmem
        cases hmem
      · have hbefore : reference ∈ registry.ancestors owner := by
          rw [← @ancestors_allocate_of_ne registry [] (handleOf .handles handle) owner howner]
          exact hmem
        exact absurd (hconsistent.made owner reference hbefore).1
          (by rw [hgeneration]; exact lt_irrefl _)
    · exact absurd (hconsistent.waitingMade reference hmem).1
        (by rw [hgeneration]; exact lt_irrefl _)
  · intro found hfound reference hmem
    obtain rfl := hself found hfound
    rw [hnone] at hmem
    cases hmem

theorem Consistent.due (hconsistent : registry.Consistent)
    (hregistered : registry.handles handle = some generation)
    (hcallable : registry.Callable ⟨handle, generation⟩) : registry.Due ⟨handle, generation⟩ where
  made := hconsistent.registered handle generation hregistered
  unreported hreported := (hconsistent.closedGone generation hreported).2 handle hregistered
  clear := hconsistent.clear (hconsistent.registered handle generation hregistered) hcallable.clear
  current := hcallable.current

theorem Consistent.off (hconsistent : registry.Consistent)
    (hregistered : registry.handles handle = some generation)
    (hloose : ¬ registry.Retained generation) :
    (registry.deleteIf .handles handle generation).Consistent ∧
      (registry.deleteIf .handles handle generation).handles handle = none ∧
      ¬ (registry.deleteIf .handles handle generation).Retained generation ∧
      ∀ number, (registry.deleteIf .handles handle generation).handles number ≠
        some generation := by
  have hafter : (registry.deleteIf .handles handle generation).Consistent :=
    hconsistent.deleteIf fun _ hretained => absurd hretained hloose
  have hget := @get_deleteIf registry .handles handle generation .handles handle
  rw [if_pos ⟨hregistered, rfl, rfl⟩] at hget
  refine ⟨hafter, hget, fun hretained => hloose hretained.of_deleteIf, ?_⟩
  intro number hsome
  have hbefore := @get_deleteIf registry .handles handle generation .handles number
  rw [show (registry.deleteIf .handles handle generation).get .handles number = some generation from
    hsome] at hbefore
  split_ifs at hbefore with hself
  have hmade := (hconsistent.registered number generation hbefore.symm).2
  rw [(hconsistent.registered handle generation hregistered).2] at hmade
  exact hself ⟨hregistered, rfl, (Option.some.inj hmade).symm⟩

/-- A number that nothing retains is closed, whatever the closer answers. -/
theorem ClosesRaw.consistent {after : WindowsAuthorityRegistry}
    (hcloses : ClosesRaw close handle registry after) (hconsistent : registry.Consistent)
    (hclosable : registry.Closable handle) : after.Consistent := by
  induction hcloses with
  | refused registry generation _ => exact hconsistent
  | opened registry after hnone hcloses ih =>
      exact ih (hconsistent.openEmpty .handles hnone) (closable_open hconsistent)
  | retryable registry generation hregistered hcallable =>
      exact Consistent.note registry (hconsistent.due hregistered hcallable) hconsistent rfl le_rfl
        rfl (fun hstate : RawCloseState.retryable = .closed => by cases hstate)
        (fun hstate => by cases hstate)
  | ambiguous registry generation hregistered hcallable =>
      have hsame := @recordAmbiguous_same registry handle generation
      exact Consistent.note registry (hconsistent.due hregistered hcallable)
        (hconsistent.recordAmbiguous handle generation) hsame.2.2.2.1 hsame.2.2.2.2.ge hsame.2.2.1
        (fun hstate : RawCloseState.ambiguous = .closed => by cases hstate)
        (fun _ => mem_recordAmbiguous.mpr (.inr ⟨rfl, rfl⟩))
  | reused registry generation state hregistered hcallable _ hstate =>
      obtain ⟨hafter, hnone, hgone, hoff⟩ :=
        hconsistent.off hregistered (hclosable.loose generation hregistered)
      have hkeeps := @deleteIf_same registry .handles handle generation
      have hnoted := Consistent.note registry (hconsistent.due hregistered hcallable) hafter
        hkeeps.2.2.2.2.1 hkeeps.2.2.2.2.2.1.ge hkeeps.2.2.2.2.2.2 (fun _ => ⟨hgone, hoff⟩)
        (fun hambiguous => absurd hambiguous hstate)
      exact hnoted.openEmpty .handles hnone
  | reusedAmbiguous registry generation hregistered hcallable _ =>
      have hsame := @recordAmbiguous_same registry handle generation
      have hrecord := hconsistent.recordAmbiguous handle generation
      have hagain : (registry.recordAmbiguous handle generation).handles handle =
          some generation := by
        rw [hsame.2.1]
        exact hregistered
      have hloose : ¬ (registry.recordAmbiguous handle generation).Retained generation := by
        rw [retained_recordAmbiguous]
        exact hclosable.loose generation hregistered
      obtain ⟨hafter, hnone, hgone, hoff⟩ := hrecord.off hagain hloose
      have hkeeps := @deleteIf_same (registry.recordAmbiguous handle generation) .handles handle
        generation
      have hnoted := Consistent.note registry (hconsistent.due hregistered hcallable) hafter
        (hkeeps.2.2.2.2.1.trans hsame.2.2.2.1) (hkeeps.2.2.2.2.2.1.trans hsame.2.2.2.2).ge
        (hkeeps.2.2.2.2.2.2.trans hsame.2.2.1)
        (fun hstate : RawCloseState.ambiguous = .closed => by cases hstate)
        (fun _ => (congrFun hkeeps.2.2.1 handle).symm ▸ mem_recordAmbiguous.mpr (.inr ⟨rfl, rfl⟩))
      exact hnoted.openEmpty .handles hnone
  | closed registry generation hregistered hcallable =>
      have hloose := hclosable.loose generation hregistered
      obtain ⟨hafter, hnone, hgone, hoff⟩ := hconsistent.off hregistered hloose
      have hkeeps := @deleteIf_same registry .handles handle generation
      have hget : registry.get .handles handle = some generation := hregistered
      have hwithdrawn := hconsistent.withdraw hget hclosable.sole
        fun _ hretained => absurd hretained hloose
      have hwaiting := @waiting_enqueue _ (registry.ancestors generation) hafter
      have hgoneAfter : ¬ ((registry.deleteIf .handles handle generation).enqueue
          (registry.ancestors generation)).Retained generation := by
        rintro ⟨reference, hsame, howned | hmem⟩
        · exact hgone ⟨reference, hsame, .inl howned⟩
        · rw [hwaiting, List.mem_append] at hmem
          rcases hmem with hmem | hmem
          · exact hgone ⟨reference, hsame, .inr hmem⟩
          · exact hloose
              ⟨reference, hsame, .inl ⟨generation, ⟨.handles, handle, hregistered⟩, hmem⟩⟩
      have hnoted := Consistent.note registry (hconsistent.due hregistered hcallable) hwithdrawn
        hkeeps.2.2.2.2.1 (hkeeps.2.2.2.2.2.1.ge.trans (Nat.le_succ _)) hkeeps.2.2.2.2.2.2
        (fun _ => ⟨hgoneAfter, hoff⟩)
        (fun hstate : RawCloseState.closed = .ambiguous => by cases hstate)
      exact (closeRetired_keeps KeptByDraining.trivial hnoted trivial registry.next).1

end CloseRaw

/-! ### Closing a descriptor -/

section CloseDescriptor

variable {close : Nat → CloseAnswer} {descriptor : Nat} {raised : Option String} {reused : Bool}

/-- What a registry becomes when a descriptor is closed. -/
inductive ClosesDescriptor (close : Nat → CloseAnswer) (descriptor : Nat) :
    WindowsAuthorityRegistry → WindowsAuthorityRegistry → Prop where
  | raised (registry : WindowsAuthorityRegistry) : ClosesDescriptor close descriptor registry
      registry
  | opened (registry after : WindowsAuthorityRegistry) : registry.descriptors descriptor = none →
      ClosesDescriptor close descriptor (registry.open_ .descriptors descriptor []) after →
      ClosesDescriptor close descriptor registry after
  | returned (registry : WindowsAuthorityRegistry) (generation : Nat) :
      registry.descriptors descriptor = some generation →
      ClosesDescriptor close descriptor registry
        (((registry.deleteIf .descriptors descriptor generation).enqueue
          (registry.ancestors generation)).closeRetired close registry.next).1
  | reused (registry : WindowsAuthorityRegistry) (generation : Nat) :
      registry.descriptors descriptor = some generation →
      ClosesDescriptor close descriptor registry
        ((((registry.deleteIf .descriptors descriptor generation).open_ .descriptors descriptor
          []).enqueue (registry.ancestors generation)).closeRetired close (registry.next + 1)).1

theorem closeDescriptor_of_registered (hconsistent : registry.Consistent) {generation : Nat}
    (hregistered : registry.descriptors descriptor = some generation) :
    ClosesDescriptor close descriptor registry
      (registry.closeDescriptor close descriptor raised reused).1 := by
  have hcurrent : registry.currentGeneration .descriptors descriptor = (registry, generation) := by
    simp only [currentGeneration, pendingGeneration_of_settled hconsistent.settled, get,
      hregistered]
  rw [closeDescriptor, hcurrent]
  cases raised with
  | some error => exact .raised registry
  | none =>
      dsimp only
      by_cases hreused : reused = true
      · rw [if_pos hreused, retireCurrent]
        have hcloses : ClosesDescriptor close descriptor registry _ :=
          .reused registry generation hregistered
        have hbound := (hconsistent.described descriptor generation hregistered).1
        have hancestors : (registry.open_ .descriptors descriptor []).ancestors generation =
            registry.ancestors generation := ancestors_allocate_of_ne (Nat.ne_of_lt hbound)
        have hother : (registry.open_ .descriptors descriptor []).deleteIf .descriptors descriptor
            generation = registry.open_ .descriptors descriptor [] := by
          rw [deleteIf, if_neg]
          intro hsame
          have hself : (registry.open_ .descriptors descriptor []).get .descriptors descriptor =
              some registry.next := update_self _ _ _
          exact absurd (Option.some.inj (hself.symm.trans hsame)) (Nat.ne_of_gt hbound)
        have hretired : ((registry.open_ .descriptors descriptor []).enqueue
            (registry.ancestors generation)).deleteIf .descriptors descriptor generation =
              ((registry.deleteIf .descriptors descriptor generation).open_ .descriptors descriptor
                []).enqueue (registry.ancestors generation) := by
          rw [deleteIf_enqueue, hother, open_deleteIf]
        rw [← hretired] at hcloses
        rw [← hancestors] at hcloses
        exact hcloses
      · rw [if_neg hreused, retireCurrent]
        have hcloses : ClosesDescriptor close descriptor registry _ :=
          .returned registry generation hregistered
        rw [← deleteIf_enqueue] at hcloses
        exact hcloses

theorem closeDescriptor_closes (hconsistent : registry.Consistent) :
    ClosesDescriptor close descriptor registry
      (registry.closeDescriptor close descriptor raised reused).1 := by
  cases hregistered : registry.descriptors descriptor with
  | some generation => exact closeDescriptor_of_registered hconsistent hregistered
  | none =>
      have hcurrent : registry.currentGeneration .descriptors descriptor =
          (registry.open_ .descriptors descriptor [], registry.next) := by
        simp only [currentGeneration, pendingGeneration_of_settled hconsistent.settled, get,
          hregistered]
      have hopened := hconsistent.openEmpty .descriptors hregistered
      have hself : (registry.open_ .descriptors descriptor []).descriptors descriptor =
          some registry.next := update_self _ _ _
      have hagain : (registry.open_ .descriptors descriptor []).currentGeneration .descriptors
          descriptor = (registry.open_ .descriptors descriptor [], registry.next) := by
        simp only [currentGeneration, pendingGeneration_of_settled hopened.settled, get, hself]
      have hcloses :=
        @closeDescriptor_of_registered _ close descriptor raised reused hopened _ hself
      rw [closeDescriptor, hagain] at hcloses
      rw [closeDescriptor, hcurrent]
      exact .opened registry _ hregistered hcloses

theorem Retirable.openEmpty (hconsistent : registry.Consistent)
    (hfree : registry.descriptors descriptor = none) {reference : RawGenerationReference}
    (hretirable : registry.Retirable reference) :
    (registry.open_ .descriptors descriptor []).Retirable reference where
  made := hretirable.made.allocate
  free := by
    have hnone : (registry.allocate [] none).get .descriptors descriptor = none := hfree
    intro howned
    rcases (owned_set hnone).mp howned with howned | hmem
    · exact hretirable.free ((owned_allocate hconsistent).mp howned)
    · rw [ancestors_allocate_self] at hmem
      cases hmem
  unreported := hretirable.unreported
  rooted := by
    have hsame : (registry.open_ .descriptors descriptor []).ancestors reference.generation =
        registry.ancestors reference.generation :=
      ancestors_allocate_of_ne (Nat.ne_of_lt hretirable.made.1)
    rw [Rooted, hsame]
    exact hretirable.rooted

theorem sole_open :
    (registry.open_ .descriptors descriptor []).Sole .descriptors descriptor := by
  intro generation hsome reference hmem
  have hself : (registry.open_ .descriptors descriptor []).get .descriptors descriptor =
      some registry.next := update_self _ _ _
  obtain rfl := Option.some.inj (hsome.symm.trans hself)
  have hnone : (registry.open_ .descriptors descriptor []).ancestors registry.next = [] :=
    ancestors_allocate_self
  rw [hnone] at hmem
  cases hmem

theorem ClosesDescriptor.consistent {after : WindowsAuthorityRegistry}
    (hcloses : ClosesDescriptor close descriptor registry after)
    (hconsistent : registry.Consistent) (hsole : registry.Sole .descriptors descriptor) :
    after.Consistent := by
  induction hcloses with
  | raised registry => exact hconsistent
  | opened registry after hnone _ ih =>
      exact ih (hconsistent.openEmpty .descriptors hnone) sole_open
  | returned registry generation hregistered =>
      have hget : registry.get .descriptors descriptor = some generation := hregistered
      have hwithdrawn := hconsistent.withdraw hget hsole fun hmap => by cases hmap
      exact (closeRetired_keeps KeptByDraining.trivial hwithdrawn trivial registry.next).1
  | reused registry generation hregistered =>
      have hget : registry.get .descriptors descriptor = some generation := hregistered
      have hdeleted : (registry.deleteIf .descriptors descriptor generation).Consistent :=
        hconsistent.deleteIf fun hmap => by cases hmap
      have hnone :=
        @get_deleteIf registry .descriptors descriptor generation .descriptors descriptor
      rw [if_pos ⟨hget, rfl, rfl⟩] at hnone
      have hopened := hdeleted.openEmpty .descriptors hnone
      have henqueued := hopened.enqueue (hconsistent.distinct generation) fun reference hmem => by
        obtain ⟨hfree, hretirable⟩ :=
          hconsistent.retirable hget hsole (fun hmap => by cases hmap) reference hmem
        exact ⟨hfree, hretirable.openEmpty hdeleted hnone⟩
      exact (closeRetired_keeps KeptByDraining.trivial henqueued trivial (registry.next + 1)).1

end CloseDescriptor

end WindowsAuthorityRegistry

end SupernoteModule.Filesystem
