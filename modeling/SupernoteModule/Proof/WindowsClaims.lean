import SupernoteModule.Proof.WindowsClosing

/-!
# Claims of Windows handles

A claim puts a new generation on a number and retires what was there. With it every operation of a
registry is known, and with that every run.
-/

namespace SupernoteModule.Filesystem

open SupernoteModule.Lib SupernoteModule.Python Function

namespace WindowsAuthorityRegistry

variable {registry : WindowsAuthorityRegistry}

/-! ### Claims -/

section Claim

variable {close : Nat → CloseAnswer} {authority : AuthorityMap} {number : Nat}
  {references : List RawGenerationReference}

theorem mem_uniqueGenerations {generations : List Nat} {generation : Nat} :
    generation ∈ uniqueGenerations generations ↔ generation ∈ generations := by
  have hfold : ∀ (rest kept : List Nat), generation ∈ rest.foldl
      (fun unique item => if item ∈ unique then unique else unique ++ [item]) kept ↔
        generation ∈ kept ∨ generation ∈ rest := by
    intro rest
    induction rest with
    | nil => simp
    | cons item rest ih =>
        intro kept
        rw [List.foldl_cons, ih, List.mem_cons]
        split_ifs with hmem
        · constructor
          · exact Or.imp_right .inr
          · rintro (hkept | rfl | hrest)
            · exact .inl hkept
            · exact .inl hmem
            · exact .inr hrest
        · rw [List.mem_append, List.mem_singleton, or_assoc]
  rw [uniqueGenerations, hfold]
  simp

/-- What a transition retains: the references of the obsolete generations, each once, but those that
wait already. -/
theorem mem_transitionRetiredReferences {obsolete : List Nat} {token : Nat}
    {reference : RawGenerationReference} :
    reference ∈ registry.transitionRetiredReferences obsolete token ↔
      reference ∈ obsolete.flatMap registry.ancestors ∧
        reference ∉ (registry.retired.filter (·.1 ≠ token)).flatMap (·.2) := by
  have hfold : ∀ (recorded rest kept : List RawGenerationReference),
      (∀ found ∈ kept, found ∉ recorded) → (reference ∈ rest.foldl
        (fun retained found =>
          if found ∈ recorded ∨ found ∈ retained then retained else retained ++ [found]) kept ↔
            reference ∈ kept ∨ reference ∈ rest ∧ reference ∉ recorded) := by
    intro recorded rest
    induction rest with
    | nil => simp
    | cons first rest ih =>
        intro kept hkept
        rw [List.foldl_cons]
        split_ifs with hmem
        · rw [ih kept hkept, List.mem_cons]
          constructor
          · exact Or.imp_right fun hrest => ⟨.inr hrest.1, hrest.2⟩
          · rintro (hfound | ⟨rfl | hrest, hfree⟩)
            · exact .inl hfound
            · exact .inl (hmem.resolve_left hfree)
            · exact .inr ⟨hrest, hfree⟩
        · rw [not_or] at hmem
          rw [ih, List.mem_append, List.mem_singleton, List.mem_cons]
          · constructor
            · rintro ((hfound | rfl) | ⟨hrest, hfree⟩)
              · exact .inl hfound
              · exact .inr ⟨.inl rfl, hmem.1⟩
              · exact .inr ⟨.inr hrest, hfree⟩
            · rintro (hfound | ⟨rfl | hrest, hfree⟩)
              · exact .inl (.inl hfound)
              · exact .inl (.inr rfl)
              · exact .inr ⟨hrest, hfree⟩
          · intro found hfound
            rcases List.mem_append.mp hfound with hbefore | hlast
            · exact hkept found hbefore
            · exact List.mem_singleton.mp hlast ▸ hmem.1
  rw [transitionRetiredReferences, hfold _ _ [] (by simp)]
  simp

theorem nodup_transitionRetiredReferences {obsolete : List Nat} {token : Nat} :
    (registry.transitionRetiredReferences obsolete token).Nodup := by
  have hfold : ∀ (recorded rest kept : List RawGenerationReference), kept.Nodup →
      (rest.foldl (fun retained found =>
        if found ∈ recorded ∨ found ∈ retained then retained else retained ++ [found])
          kept).Nodup := by
    intro recorded rest
    induction rest with
    | nil => exact fun _ hkept => hkept
    | cons first rest ih =>
        intro kept hkept
        rw [List.foldl_cons]
        split_ifs with hmem
        · exact ih kept hkept
        · apply ih
          rw [not_or] at hmem
          rw [← List.concat_eq_append]
          exact hkept.concat hmem.2
  exact hfold _ _ [] List.nodup_nil

theorem waiting_removeSuperseded {superseded : List RawGenerationReference} :
    (registry.removeSuperseded superseded).waiting =
      registry.waiting.filter fun reference => ¬ reference ∈ superseded := by
  have hentries : ∀ entries : List (Nat × List RawGenerationReference),
      ((entries.map fun entry => (entry.1, entry.2.filter fun reference =>
        ¬ reference ∈ superseded)).filter fun entry => entry.2 ≠ []).flatMap (·.2) =
          (entries.flatMap (·.2)).filter fun reference => ¬ reference ∈ superseded := by
    intro entries
    induction entries with
    | nil => rfl
    | cons entry entries ih =>
        rw [List.map_cons, List.flatMap_cons, List.filter_append, ← ih]
        by_cases hnone : (entry.2.filter fun reference => ¬ reference ∈ superseded) = []
        · rw [List.filter_cons_of_neg (by simpa using hnone), hnone, List.nil_append]
        · rw [List.filter_cons_of_pos (by simpa using hnone), List.flatMap_cons]
  exact hentries registry.retired

theorem keys_removeSuperseded {superseded : List RawGenerationReference} :
    ((registry.removeSuperseded superseded).retired.map (·.1)).Sublist
      (registry.retired.map (·.1)) := by
  have hmap : (registry.retired.map fun entry => (entry.1, entry.2.filter fun reference =>
      ¬ reference ∈ superseded)).map (·.1) = registry.retired.map (·.1) := by
    rw [List.map_map]
    rfl
  rw [← hmap]
  exact List.filter_sublist.map _

/-- A registration without the draining that follows it. -/
def supplant (registry : WindowsAuthorityRegistry) (authority : AuthorityMap)
    (number current : Nat) (stale : Option Nat) : WindowsAuthorityRegistry :=
  let planned := registry.transition authority number current stale
  let retained := registry.transitionRetiredReferences planned.obsolete registry.next
  ({ registry with
    retired := ((registry.retain registry.next retained).removeSuperseded
      planned.superseded).retired
    next := registry.next + 1 } : WindowsAuthorityRegistry).set authority number current

theorem retainFailedRegistration_eq {current : Nat} {stale : Option Nat} :
    registry.retainFailedRegistration authority number current stale =
      registry.supplant authority number current stale := by
  rw [retainFailedRegistration, supplant]
  dsimp only [retain]
  split <;> rfl

theorem completeTransition_eq (hsettled : registry.pending = []) {current : Nat}
    {stale : Option Nat} {planned : WindowsAuthorityRegistry}
    (hplanned : planned = { registry with
      pending := dictInsert registry.pending registry.next
        (registry.transition authority number current stale)
      next := registry.next + 1 }) :
    (planned.set authority number current).completeTransition registry.next =
      registry.supplant authority number current stale := by
  have hlookup : (planned.set authority number current).pending.lookup registry.next =
      some (registry.transition authority number current stale) := by
    rw [hplanned]
    cases authority <;> simp [set, hsettled, dictInsert]
  have hpending : ((planned.set authority number current).pending.filter (·.1 ≠ registry.next)) =
      registry.pending := by
    rw [hplanned]
    cases authority <;> simp [set, hsettled, dictInsert]
  have hsame : ∀ obsolete token,
      (planned.set authority number current).transitionRetiredReferences obsolete token =
        registry.transitionRetiredReferences obsolete token := by
    rw [hplanned]
    cases authority <;> exact fun _ _ => rfl
  rw [completeTransition, hlookup]
  dsimp only
  rw [hpending, hsame, hplanned, supplant]
  by_cases hnone : registry.transitionRetiredReferences
      (registry.transition authority number current stale).obsolete registry.next = []
  · simp only [retain, if_pos hnone]
    cases authority <;> rfl
  · simp only [retain, if_neg hnone]
    cases authority <;> rfl

theorem retired_retain (hconsistent : registry.Consistent) :
    (registry.retain registry.next references).waiting = registry.waiting ++ references ∧
      ((registry.retain registry.next references).retired.map (·.1)).Nodup ∧
      ∀ entry ∈ (registry.retain registry.next references).retired,
        entry.1 < registry.next + 1 := by
  have hold : ∀ entry ∈ registry.retired, entry.1 < registry.next + 1 := fun entry hentry =>
    Nat.lt_succ_of_lt (hconsistent.tokens entry hentry)
  rw [retain]
  split_ifs with hnone
  · rw [hnone, List.append_nil]
    exact ⟨rfl, hconsistent.keys, hold⟩
  · have hretired : dictInsert registry.retired registry.next references =
        registry.retired ++ [(registry.next, references)] := retired_enqueue hconsistent
    refine ⟨waiting_enqueue hconsistent, ?_, ?_⟩
    · rw [hretired, List.map_append, List.nodup_append]
      refine ⟨hconsistent.keys, List.nodup_singleton _, ?_⟩
      intro token htoken other hother hsame
      obtain ⟨entry, hentry, rfl⟩ := List.mem_map.mp htoken
      obtain rfl := List.mem_singleton.mp hother
      exact absurd (hconsistent.tokens entry hentry) (by rw [hsame]; exact lt_irrefl _)
    · intro entry hentry
      rw [hretired] at hentry
      rcases List.mem_append.mp hentry with hbefore | hlast
      · exact hold entry hbefore
      · obtain rfl := List.mem_singleton.mp hlast
        exact Nat.lt_succ_self _

theorem set_deleteIf {generation current : Nat} :
    (registry.deleteIf authority number generation).set authority number current =
      registry.set authority number current := by
  rw [deleteIf]
  split
  · cases authority <;> simp [set, delete]
  · rfl

/-- A generation is made and not yet on its number. -/
structure InHand (registry : WindowsAuthorityRegistry) (authority : AuthorityMap)
    (number current : Nat) : Prop where
  bound : current < registry.next
  handle : (registry.objects current).handle = handleOf authority number
  silent : ¬ registry.Reported current .closed
  idle : ¬ registry.Live current
  unnamed : ¬ registry.Retained current
  references : ∀ reference ∈ registry.ancestors current,
    ¬ registry.Reported reference.generation .closed ∧ reference ∉ registry.waiting ∧
      registry.Rooted reference

/-- The number may be taken over: what is registered there is owned nowhere else, and no allocation
retains a generation of the number that has references. -/
structure Replaceable (registry : WindowsAuthorityRegistry) (authority : AuthorityMap)
    (number : Nat) (references : List RawGenerationReference) : Prop where
  sole : registry.Sole authority number
  apart : ∀ stale, registry.get authority number = some stale →
    ∀ reference ∈ registry.ancestors stale, reference ∉ references
  fresh : authority = .handles → ∀ reference : RawGenerationReference,
    registry.Owned reference ∨ reference ∈ references → reference.handle = number →
      registry.ancestors reference.generation = []

theorem mem_superseded {current : Nat} {stale : Option Nat} {reference : RawGenerationReference} :
    reference ∈ (registry.transition authority number current stale).superseded ↔
      authority = .handles ∧ reference ∈ registry.waiting ∧ reference.handle = number ∧
        reference.generation ≠ current := by
  cases authority <;> simp [transition, supersededReferences]

theorem mem_obsolete {current : Nat} {stale : Option Nat} {generation : Nat} :
    generation ∈ (registry.transition authority number current stale).obsolete ↔
      stale = some generation ∨
        ∃ reference ∈ (registry.transition authority number current stale).superseded,
          reference.generation = generation := by
  have hobsolete : (registry.transition authority number current stale).obsolete =
      uniqueGenerations (stale.toList ++
        (registry.transition authority number current stale).superseded.map (·.generation)) := rfl
  rw [hobsolete, mem_uniqueGenerations, List.mem_append, Option.mem_toList, List.mem_map]

theorem waiting_supplant (hconsistent : registry.Consistent) {current : Nat} {stale : Option Nat} :
    (registry.supplant authority number current stale).waiting =
      (registry.waiting ++ registry.transitionRetiredReferences
        (registry.transition authority number current stale).obsolete registry.next).filter
          fun reference =>
            ¬ reference ∈ (registry.transition authority number current stale).superseded := by
  have hsame : (registry.supplant authority number current stale).waiting =
      ((registry.retain registry.next (registry.transitionRetiredReferences
        (registry.transition authority number current stale).obsolete
          registry.next)).removeSuperseded
            (registry.transition authority number current stale).superseded).waiting := by
    cases authority <;> rfl
  rw [hsame, waiting_removeSuperseded, (retired_retain hconsistent).1]

/-- What waits after a registration waited before on another number, or was owned by what the number
had. -/
theorem mem_waiting_supplant (hconsistent : registry.Consistent) {current : Nat}
    (hunnamed : ¬ registry.Retained current) {reference : RawGenerationReference} :
    reference ∈ (registry.supplant authority number current
        (registry.get authority number)).waiting ↔
      (reference ∈ registry.waiting ∧ (authority = .handles → reference.handle ≠ number)) ∨
        ∃ stale, registry.get authority number = some stale ∧
          reference ∈ registry.ancestors stale := by
  have hrecorded : (registry.retired.filter (·.1 ≠ registry.next)).flatMap (·.2) =
      registry.waiting := by
    rw [List.filter_eq_self.mpr, waiting]
    intro entry hentry
    exact decide_eq_true (Nat.ne_of_lt (hconsistent.tokens entry hentry))
  rw [waiting_supplant hconsistent, List.mem_filter, List.mem_append,
    mem_transitionRetiredReferences, hrecorded, decide_eq_true_iff, mem_superseded]
  constructor
  · rintro ⟨hwaits | ⟨hobsolete, _⟩, hkept⟩
    · refine .inl ⟨hwaits, ?_⟩
      intro hmap hnumber
      exact hkept ⟨hmap, hwaits, hnumber,
        fun hcurrent => hunnamed ⟨reference, hcurrent, .inr hwaits⟩⟩
    · obtain ⟨generation, hgeneration, hmem⟩ := List.mem_flatMap.mp hobsolete
      rcases mem_obsolete.mp hgeneration with hstale | ⟨found, hfound, rfl⟩
      · exact .inr ⟨generation, hstale, hmem⟩
      · -- A superseded generation that has references is the one on the number.
        obtain ⟨rfl, hwaits, rfl, _⟩ := mem_superseded.mp hfound
        exact .inr ⟨found.generation,
          hconsistent.retainedRooted found (.inr hwaits) (List.ne_nil_of_mem hmem), hmem⟩
  · rintro (⟨hwaits, helsewhere⟩ | ⟨stale, hstale, hmem⟩)
    · exact ⟨.inl hwaits, fun hsuperseded => helsewhere hsuperseded.1 hsuperseded.2.2.1⟩
    · have hfree : reference ∉ registry.waiting := fun hwaits =>
        hconsistent.waitingFree reference hwaits ⟨stale, ⟨authority, number, hstale⟩, hmem⟩
      exact ⟨.inr ⟨List.mem_flatMap.mpr ⟨stale, mem_obsolete.mpr (.inl hstale), hmem⟩, hfree⟩,
        fun hsuperseded => hfree hsuperseded.2.1⟩

theorem Consistent.removeSuperseded (hconsistent : registry.Consistent)
    (superseded : List RawGenerationReference) :
    (registry.removeSuperseded superseded).Consistent := by
  have hkeys := @keys_removeSuperseded registry superseded
  have hwaiting := @waiting_removeSuperseded registry superseded
  have hsublist : (registry.removeSuperseded superseded).waiting.Sublist registry.waiting := by
    rw [hwaiting]
    exact List.filter_sublist
  apply hconsistent.retire le_rfl
  · exact hkeys.nodup hconsistent.keys
  · intro entry hentry
    obtain ⟨found, hfound, hsame⟩ := List.mem_map.mp (hkeys.subset (List.mem_map_of_mem hentry))
    exact hsame ▸ hconsistent.tokens found hfound
  · exact (hsublist.map _).nodup hconsistent.waitingOnce
  · exact fun reference hmem => .inl (hsublist.subset hmem)
  · exact hconsistent.refused

theorem nodup_waiting_supplant (hconsistent : registry.Consistent) {current : Nat}
    {stale : Option Nat} :
    ((registry.supplant authority number current stale).waiting.map (·.generation)).Nodup := by
  have hrecorded : (registry.retired.filter (·.1 ≠ registry.next)).flatMap (·.2) =
      registry.waiting := by
    rw [List.filter_eq_self.mpr, waiting]
    intro entry hentry
    exact decide_eq_true (Nat.ne_of_lt (hconsistent.tokens entry hentry))
  rw [waiting_supplant hconsistent]
  apply List.Nodup.map_on
  · have hmade : ∀ reference ∈ (registry.waiting ++ registry.transitionRetiredReferences
        (registry.transition authority number current stale).obsolete registry.next).filter
          (fun reference => ¬ reference ∈
            (registry.transition authority number current stale).superseded),
          registry.Made reference := by
      intro reference hmem
      rcases List.mem_append.mp (List.mem_of_mem_filter hmem) with hwaits | hretained
      · exact hconsistent.waitingMade reference hwaits
      · obtain ⟨generation, _, hfound⟩ :=
          List.mem_flatMap.mp (mem_transitionRetiredReferences.mp hretained).1
        exact hconsistent.made generation reference hfound
    intro left hleft right hright hsame
    exact eq_of_made (hmade left hleft) (hmade right hright) hsame
  · apply List.Nodup.filter
    rw [List.nodup_append]
    refine ⟨List.Nodup.of_map _ hconsistent.waitingOnce, nodup_transitionRetiredReferences, ?_⟩
    rintro left hleft right hright rfl
    exact (mem_transitionRetiredReferences.mp hright).2 (hrecorded ▸ hleft)

theorem Consistent.clearNumber (hconsistent : registry.Consistent)
    (hloose : ∀ stale, registry.get authority number = some stale → authority = .handles →
      registry.Retained stale → registry.ancestors stale = []) :
    (registry.deleteIf authority number ((registry.get authority number).getD 0)).Consistent ∧
      (registry.deleteIf authority number ((registry.get authority number).getD 0)).get authority
        number = none := by
  cases hstale : registry.get authority number with
  | none =>
      have hsame : registry.deleteIf authority number (Option.getD none 0) = registry := by
        rw [WindowsAuthorityRegistry.deleteIf, if_neg]
        rw [hstale]
        exact fun hsome => by cases hsome
      rw [hsame]
      exact ⟨hconsistent, hstale⟩
  | some found =>
      refine ⟨hconsistent.deleteIf (hloose found hstale), ?_⟩
      rw [Option.getD_some, get_deleteIf, if_pos ⟨hstale, rfl, rfl⟩]

/-- The registry without the waiting references that a registration supersedes. -/
def kept (registry : WindowsAuthorityRegistry) (authority : AuthorityMap) (number current : Nat) :
    WindowsAuthorityRegistry :=
  registry.removeSuperseded (registry.transition authority number current
    (registry.get authority number)).superseded

/-- The kept registry without its entry on the number. -/
def cleared (registry : WindowsAuthorityRegistry) (authority : AuthorityMap)
    (number current : Nat) : WindowsAuthorityRegistry :=
  (registry.kept authority number current).deleteIf authority number
    ((registry.get authority number).getD 0)

/-- The cleared registry with what waits after the registration. -/
def vacated (registry : WindowsAuthorityRegistry) (authority : AuthorityMap)
    (number current : Nat) : WindowsAuthorityRegistry :=
  { registry.cleared authority number current with
    retired := (registry.supplant authority number current (registry.get authority number)).retired
    next := registry.next + 1 }

theorem mem_waiting_kept {current : Nat} {reference : RawGenerationReference} :
    reference ∈ (registry.kept authority number current).waiting ↔
      reference ∈ registry.waiting ∧ reference ∉ (registry.transition authority number current
        (registry.get authority number)).superseded := by
  rw [kept, waiting_removeSuperseded, List.mem_filter, decide_eq_true_iff]

theorem waiting_cleared {current : Nat} : (registry.cleared authority number current).waiting =
    (registry.kept authority number current).waiting :=
  congrArg (fun retired => retired.flatMap (·.2)) deleteIf_same.1

theorem waiting_vacated {current : Nat} : (registry.vacated authority number current).waiting =
    (registry.supplant authority number current (registry.get authority number)).waiting :=
  rfl

theorem objects_vacated {current : Nat} :
    (registry.vacated authority number current).objects = registry.objects :=
  deleteIf_same.2.2.2.2.1

theorem attempts_vacated {current : Nat} :
    (registry.vacated authority number current).attempts = registry.attempts := by
  rw [attempts, attempts]
  exact congrArg _ deleteIf_same.2.2.2.2.2.2

theorem get_vacated {current : Nat} (other : AuthorityMap) (otherNumber : Nat) :
    (registry.vacated authority number current).get other otherNumber =
      (registry.cleared authority number current).get other otherNumber := by
  cases other <;> rfl

/-- A registration puts the generation on the number of the vacated registry. -/
theorem supplant_eq_set {current : Nat} :
    registry.supplant authority number current (registry.get authority number) =
      (registry.vacated authority number current).set authority number current := by
  let updated : WindowsAuthorityRegistry := { registry with
    retired := (registry.supplant authority number current (registry.get authority number)).retired
    next := registry.next + 1 }
  have hvacated : registry.vacated authority number current =
      updated.deleteIf authority number ((registry.get authority number).getD 0) := by
    have hsame : updated.get authority number =
        (registry.kept authority number current).get authority number := by
      cases authority <;> rfl
    rw [vacated, cleared, deleteIf, deleteIf, hsame]
    split
    · cases authority <;> rfl
    · rfl
  rw [hvacated, set_deleteIf]
  cases authority <;> rfl

section Supplant

variable {current : Nat} (hconsistent : registry.Consistent)
  (hhand : registry.InHand authority number current)
  (hreplaceable : registry.Replaceable authority number (registry.ancestors current))
include hconsistent hhand hreplaceable

/-- Nothing that the number had is retained any more, unless it has no references. -/
theorem loose_kept (stale : Nat) (hstale : registry.get authority number = some stale)
    (hmap : authority = .handles)
    (hretained : (registry.kept authority number current).Retained stale) :
    (registry.kept authority number current).ancestors stale = [] := by
  subst hmap
  obtain ⟨reference, hsame, hreference⟩ := hretained
  have hmade : registry.Made reference := by
    rcases hreference with ⟨owner, _, hmem⟩ | hmem
    · exact hconsistent.made owner reference hmem
    · exact hconsistent.waitingMade reference (mem_waiting_kept.mp hmem).1
  have hnumber : reference.handle = number := by
    have hhandle := hmade.2
    rw [hsame, (hconsistent.registered number stale hstale).2] at hhandle
    exact (Option.some.inj hhandle).symm
  rcases hreference with howned | hmem
  · exact hsame ▸ hreplaceable.fresh rfl reference (.inl howned) hnumber
  · obtain ⟨hwaits, hfree⟩ := mem_waiting_kept.mp hmem
    refine absurd (mem_superseded.mpr ⟨rfl, hwaits, hnumber, ?_⟩) hfree
    rintro hcurrent
    exact hhand.idle ⟨.handles, number, (hsame.symm.trans hcurrent) ▸ hstale⟩

theorem consistent_cleared : (registry.cleared authority number current).Consistent ∧
    (registry.cleared authority number current).get authority number = none := by
  have hkept : (registry.kept authority number current).Consistent :=
    hconsistent.removeSuperseded _
  have hcleared := hkept.clearNumber (loose_kept hconsistent hhand hreplaceable)
  have hget : (registry.kept authority number current).get authority number =
      registry.get authority number := by
    cases authority <;> rfl
  rwa [hget] at hcleared

/-- What waits after a registration waited before, or may be retired. -/
theorem retirable_supplant (reference : RawGenerationReference)
    (hmem : reference ∈ (registry.supplant authority number current
      (registry.get authority number)).waiting) :
    reference ∈ (registry.cleared authority number current).waiting ∨
      (registry.cleared authority number current).Retirable reference := by
  rcases (mem_waiting_supplant hconsistent hhand.unnamed).mp hmem with
    ⟨hwaits, helsewhere⟩ | ⟨stale, hstale, hreference⟩
  · left
    rw [waiting_cleared, mem_waiting_kept]
    exact ⟨hwaits, fun hsuperseded =>
      helsewhere (mem_superseded.mp hsuperseded).1 (mem_superseded.mp hsuperseded).2.2.1⟩
  · right
    have hkept : (registry.kept authority number current).Consistent :=
      hconsistent.removeSuperseded _
    have hget : (registry.kept authority number current).get authority number = some stale := by
      cases authority <;> exact hstale
    have hall := hkept.retirable hget hreplaceable.sole
      (loose_kept hconsistent hhand hreplaceable stale hstale)
    rw [cleared, hstale]
    exact (hall reference hreference).2

theorem consistent_vacated : (registry.vacated authority number current).Consistent := by
  obtain ⟨hcleared, _⟩ := consistent_cleared hconsistent hhand hreplaceable
  obtain ⟨_, hkeys, htokens⟩ := @retired_retain registry (registry.transitionRetiredReferences
    (registry.transition authority number current (registry.get authority number)).obsolete
      registry.next) hconsistent
  have honce := @nodup_waiting_supplant registry authority number hconsistent current
    (registry.get authority number)
  have hretired : (registry.supplant authority number current
      (registry.get authority number)).retired = ((registry.retain registry.next
        (registry.transitionRetiredReferences (registry.transition authority number current
          (registry.get authority number)).obsolete registry.next)).removeSuperseded
            (registry.transition authority number current
              (registry.get authority number)).superseded).retired := by
    cases authority <;> rfl
  apply hcleared.retire
  · exact deleteIf_same.2.2.2.2.2.1.le.trans (Nat.le_succ _)
  · rw [hretired]
    exact keys_removeSuperseded.nodup hkeys
  · intro entry hentry
    rw [hretired] at hentry
    obtain ⟨found, hfound, hsame⟩ := List.mem_map.mp
      (keys_removeSuperseded.subset (List.mem_map_of_mem hentry))
    exact hsame ▸ htokens found hfound
  · exact honce
  · exact retirable_supplant hconsistent hhand hreplaceable
  · exact hcleared.refused

/-- **A registration keeps the invariant.** -/
theorem Consistent.supplant :
    (registry.supplant authority number current (registry.get authority number)).Consistent := by
  have hvacated := consistent_vacated hconsistent hhand hreplaceable
  rw [supplant_eq_set]
  apply hvacated.set
  · rw [get_vacated]
    exact (consistent_cleared hconsistent hhand hreplaceable).2
  · exact Nat.lt_succ_of_lt hhand.bound
  · rw [objects_vacated]
    exact hhand.handle
  · rw [Reported, attempts_vacated]
    exact hhand.silent
  · intro reference hmem
    have hmemBefore : reference ∈ registry.ancestors current := by
      rwa [ancestors, objects_vacated] at hmem
    obtain ⟨hsilent, hunwaited, hrooted⟩ := hhand.references reference hmemBefore
    refine ⟨?_, ?_, ?_⟩
    · rw [Reported, attempts_vacated]
      exact hsilent
    · rw [waiting_vacated, mem_waiting_supplant hconsistent hhand.unnamed]
      rintro (⟨hbefore, _⟩ | ⟨stale, hstale, hreference⟩)
      · exact hunwaited hbefore
      · exact hreplaceable.apart stale hstale reference hreference hmemBefore
    · intro hnested
      have hnestedBefore : registry.ancestors reference.generation ≠ [] := by
        rwa [ancestors, objects_vacated] at hnested
      have hnumber : ¬ (AuthorityMap.handles = authority ∧ reference.handle = number) := by
        rintro ⟨rfl, hnumber⟩
        exact hnestedBefore (hreplaceable.fresh rfl reference (.inr hmemBefore) hnumber)
      have hhandle := @get_vacated registry authority number current .handles reference.handle
      rw [cleared, get_deleteIf, if_neg fun hall => hnumber hall.2] at hhandle
      exact hhandle.trans (hrooted hnestedBefore)

end Supplant

/-- What an allocation may take: references to generations that have not been closed, that do not
wait, and that are on their numbers when they have references of their own. -/
structure Claimable (registry : WindowsAuthorityRegistry)
    (references : List RawGenerationReference) : Prop where
  distinct : (references.map (·.generation)).Nodup
  made : ∀ reference ∈ references, registry.Made reference
  silent : ∀ reference ∈ references, ¬ registry.Reported reference.generation .closed
  free : ∀ reference ∈ references, reference ∉ registry.waiting
  rooted : ∀ reference ∈ references, registry.Rooted reference

theorem Consistent.inHand (hconsistent : registry.Consistent)
    (hclaimable : registry.Claimable references) :
    (registry.allocate references (handleOf authority number)).InHand authority number
      registry.next where
  bound := Nat.lt_succ_self _
  handle := by rw [objects_allocate_self]
  silent := by
    rintro ⟨attempt, hmem, hgeneration, _⟩
    exact absurd (hconsistent.attempted attempt hmem).1 (by rw [hgeneration]; exact lt_irrefl _)
  idle hlive := absurd (live_lt hconsistent hlive) (lt_irrefl _)
  unnamed := by
    rintro ⟨reference, hgeneration, howned | hwaits⟩
    · obtain ⟨owner, _, hmem⟩ := (owned_allocate hconsistent).mp howned
      exact absurd (hconsistent.made owner reference hmem).1
        (by rw [hgeneration]; exact lt_irrefl _)
    · exact absurd (hconsistent.waitingMade reference hwaits).1
        (by rw [hgeneration]; exact lt_irrefl _)
  references := by
    intro reference hmem
    rw [ancestors_allocate_self] at hmem
    refine ⟨hclaimable.silent reference hmem, hclaimable.free reference hmem, ?_⟩
    rw [Rooted, ancestors_allocate_of_ne (Nat.ne_of_lt (hclaimable.made reference hmem).1)]
    exact hclaimable.rooted reference hmem

theorem Replaceable.allocate (hconsistent : registry.Consistent)
    (hclaimable : registry.Claimable references)
    (hreplaceable : registry.Replaceable authority number references) :
    (registry.allocate references (handleOf authority number)).Replaceable authority number
      ((registry.allocate references (handleOf authority number)).ancestors registry.next) := by
  have hsame : ∀ {otherAuthority otherNumber other},
      registry.get otherAuthority otherNumber = some other →
        (registry.allocate references (handleOf authority number)).ancestors other =
          registry.ancestors other := fun {otherAuthority otherNumber other} hget =>
    ancestors_allocate_of_ne
      (Nat.ne_of_lt (live_lt hconsistent ⟨otherAuthority, otherNumber, hget⟩))
  have hget : ∀ otherAuthority otherNumber,
      (registry.allocate references (handleOf authority number)).get otherAuthority otherNumber =
        registry.get otherAuthority otherNumber := by
    intro otherAuthority otherNumber
    cases otherAuthority <;> rfl
  rw [ancestors_allocate_self]
  constructor
  · intro generation hregistered reference hmem otherAuthority otherNumber other hother hne
    rw [hget] at hregistered hother
    rw [hsame hregistered] at hmem
    rw [hsame hother]
    exact hreplaceable.sole generation hregistered reference hmem otherAuthority otherNumber other
      hother hne
  · intro stale hstale reference hmem
    rw [hget] at hstale
    rw [hsame hstale] at hmem
    exact hreplaceable.apart stale hstale reference hmem
  · intro hmap reference hreference hnumber
    have hbefore : registry.Owned reference ∨ reference ∈ references :=
      hreference.imp_left (owned_allocate hconsistent).mp
    have hbound : reference.generation < registry.next := by
      rcases hbefore with ⟨owner, _, hmem⟩ | hmem
      · exact (hconsistent.made owner reference hmem).1
      · exact (hclaimable.made reference hmem).1
    rw [ancestors_allocate_of_ne (Nat.ne_of_lt hbound)]
    exact hreplaceable.fresh hmap reference hbefore hnumber

theorem get_allocate {handle : Option Nat} :
    (registry.allocate references handle).get authority number = registry.get authority number := by
  cases authority <;> rfl

theorem Consistent.interruptedClaim (hconsistent : registry.Consistent)
    (hclaimable : registry.Claimable references)
    (hreplaceable : registry.Replaceable authority number references) :
    (registry.interruptedClaim authority number references).Consistent := by
  have hsupplanted := (hconsistent.allocate hclaimable.distinct hclaimable.made).supplant
    (hconsistent.inHand hclaimable) (hreplaceable.allocate hconsistent hclaimable)
  rw [get_allocate] at hsupplanted
  rw [WindowsAuthorityRegistry.interruptedClaim, retainFailedRegistration_eq]
  exact hsupplanted

/-- A generation that no reference names stays on its number while references are closed. -/
structure Stays (authority : AuthorityMap) (number current : Nat)
    (registry : WindowsAuthorityRegistry) : Prop where
  registered : registry.get authority number = some current
  unnamed : ∀ reference ∈ registry.waiting, reference.generation ≠ current

theorem Stays.kept {current : Nat} : KeptByDraining close (Stays authority number current) where
  settle := by
    intro registry token remaining ambiguous reference after rest known hconsistent hstays hlookup
      hmem hsettles
    have hne := hstays.unnamed reference (mem_waiting_of_lookup hlookup hmem)
    constructor
    · exact hsettles.get hstays.registered (Ne.symm hne)
    · intro other hother
      exact hstays.unnamed other ((hsettles.mem_waiting hconsistent hlookup hmem).mp hother).1
  forget := by
    intro registry token _ hstays
    constructor
    · have hsame : ({ registry with retired := registry.retired.filter (·.1 ≠ token) } :
          WindowsAuthorityRegistry).get authority number = registry.get authority number := by
        cases authority <;> rfl
      rw [hsame]
      exact hstays.registered
    · intro reference hmem
      obtain ⟨entry, hentry, hreference⟩ := List.mem_flatMap.mp hmem
      exact hstays.unnamed reference
        (List.mem_flatMap.mpr ⟨entry, List.mem_of_mem_filter hentry, hreference⟩)

/-- **A claim is an interrupted claim and the draining that follows it.** -/
theorem claim_eq (hconsistent : registry.Consistent) (hclaimable : registry.Claimable references)
    (hreplaceable : registry.Replaceable authority number references) :
    (registry.claim close authority number references).1 =
      ((registry.interruptedClaim authority number references).reconcile close).1 := by
  have hinterrupted := hconsistent.interruptedClaim hclaimable hreplaceable
  have hhand := @Consistent.inHand registry authority number references hconsistent hclaimable
  have hallocated := @Consistent.allocate registry references (handleOf authority number)
    hconsistent hclaimable.distinct hclaimable.made
  let made := registry.allocate references (handleOf authority number)
  have hsupplant : registry.interruptedClaim authority number references =
      made.supplant authority number registry.next (registry.get authority number) := by
    rw [WindowsAuthorityRegistry.interruptedClaim, retainFailedRegistration_eq]
  have hcomplete := @completeTransition_eq made authority number hallocated.settled registry.next
    (registry.get authority number) _ rfl
  have hstays : (registry.interruptedClaim authority number references).Stays authority number
      registry.next := by
    rw [hsupplant]
    constructor
    · rw [supplant, get_set, if_pos ⟨rfl, rfl⟩]
    · rw [← get_allocate]
      intro reference hmem hcurrent
      rcases (mem_waiting_supplant hallocated hhand.unnamed).mp hmem with
        ⟨hwaits, _⟩ | ⟨stale, hstale, hreference⟩
      · exact hhand.unnamed ⟨reference, hcurrent, .inr hwaits⟩
      · exact hhand.unnamed
          ⟨reference, hcurrent, .inl ⟨stale, ⟨authority, number, hstale⟩, hreference⟩⟩
  have hregistered := (@reconcile_keeps _ close _ Stays.kept hinterrupted hstays).2.registered
  rw [WindowsAuthorityRegistry.claim, register]
  dsimp only
  rw [hcomplete, ← hsupplant]
  cases herror : ((registry.interruptedClaim authority number references).reconcile close).2 with
  | none => rfl
  | some error =>
      dsimp only
      rw [if_pos hregistered]

/-- **A claim keeps the invariant.** -/
theorem Consistent.claim (hconsistent : registry.Consistent)
    (hclaimable : registry.Claimable references)
    (hreplaceable : registry.Replaceable authority number references) :
    (registry.claim close authority number references).1.Consistent := by
  rw [claim_eq hconsistent hclaimable hreplaceable]
  exact (reconcile_keeps KeptByDraining.trivial
    (hconsistent.interruptedClaim hclaimable hreplaceable) True.intro).1

theorem Consistent.ensure (hconsistent : registry.Consistent)
    (hclaimable : registry.Claimable references) :
    (registry.ensure authority number references).Consistent := by
  rw [WindowsAuthorityRegistry.ensure]
  cases hget : registry.get authority number with
  | some _ => exact hconsistent
  | none =>
      apply hconsistent.open_ hget hclaimable.distinct
      intro reference hmem
      exact ⟨hclaimable.made reference hmem, hclaimable.silent reference hmem,
        hclaimable.free reference hmem, hclaimable.rooted reference hmem⟩

theorem Consistent.releaseHandleIf (hconsistent : registry.Consistent) {generation : Option Nat}
    (hloose : ∀ released ∈ generation, registry.Retained released →
      registry.ancestors released = []) :
    (registry.releaseHandleIf number generation).Consistent := by
  cases generation with
  | none => exact hconsistent
  | some released => exact hconsistent.deleteIf fun _ => hloose released rfl

theorem Consistent.captureRawGenerations {handles : List Nat} :
    ∀ {registry : WindowsAuthorityRegistry}, registry.Consistent →
      (registry.captureRawGenerations handles).1.Consistent := by
  induction handles with
  | nil => exact fun hconsistent => hconsistent
  | cons handle handles ih =>
      intro registry hconsistent
      rw [WindowsAuthorityRegistry.captureRawGenerations]
      cases registry.handles handle with
      | some generation => exact ih hconsistent
      | none => exact ih (hconsistent.allocate List.nodup_nil fun _ hmem => by cases hmem)

end Claim

end WindowsAuthorityRegistry

/-! ### Runs -/

open WindowsAuthorityRegistry

/-- What keeps a generation from being closed behind the back of the registry. An allocation takes
references that nothing else retains, a number is taken over from an allocation that shares nothing,
and what an allocation retains or what waits to be closed is not closed directly. -/
def Orderly : Operation → WindowsAuthorityRegistry → Prop
  | .claim authority number ancestors, registry
  | .interruptedClaim authority number ancestors, registry =>
      registry.Claimable ancestors ∧ registry.Replaceable authority number ancestors
  | .ensure _ _ ancestors, registry => registry.Claimable ancestors
  | .releaseHandleIf _ generation, registry =>
      ∀ released ∈ generation, registry.Retained released → registry.ancestors released = []
  | .closeRaw handle, registry => registry.Closable handle
  | .closeDescriptor descriptor _ _, registry => registry.Sole .descriptors descriptor
  | .captureRawGenerations _, _ => True
  | .reconcile, _ => True

variable {close : Nat → CloseAnswer} {registry : WindowsAuthorityRegistry}

/-- An orderly operation keeps the invariant. -/
theorem consistent_run (hconsistent : registry.Consistent) {operation : Operation}
    (horderly : Orderly operation registry) : (operation.run close registry).Consistent := by
  cases operation with
  | captureRawGenerations handles => exact hconsistent.captureRawGenerations
  | claim authority number ancestors => exact hconsistent.claim horderly.1 horderly.2
  | interruptedClaim authority number ancestors =>
      exact hconsistent.interruptedClaim horderly.1 horderly.2
  | ensure authority number ancestors => exact hconsistent.ensure horderly
  | releaseHandleIf handle generation => exact hconsistent.releaseHandleIf horderly
  | closeRaw handle => exact (closeRaw_closes hconsistent).consistent hconsistent horderly
  | closeDescriptor descriptor raised reused =>
      exact (closeDescriptor_closes hconsistent).consistent hconsistent horderly
  | reconcile => exact (reconcile_keeps KeptByDraining.trivial hconsistent True.intro).1

theorem consistent_invariant : (registryMachine close Orderly).Invariant
    fun registry _ => registry.Consistent where
  init := Consistent.empty
  step _ _ _ hconsistent horderly := consistent_run hconsistent horderly

/-- **In an orderly run no handle is closed twice, and none that has been given away.** Whatever the
closer answers and whichever numbers are used again, a generation is tried again only when the last
outcome lets it be, and never on a number that has a newer one. -/
theorem orderly_attempts_proper {history : List Event}
    (hreach : (registryMachine close Orderly).Reaches registry history) :
    Proper registry.attempts :=
  (hreach.invariant consistent_invariant).proper

/-- Nothing that is registered has references, and none wait. -/
structure Bare (registry : WindowsAuthorityRegistry) : Prop where
  ancestors : ∀ generation, registry.Live generation → registry.ancestors generation = []
  waiting : registry.waiting = []

theorem Bare.not_owned (hbare : Bare registry) (reference : RawGenerationReference) :
    ¬ registry.Owned reference := by
  rintro ⟨owner, hlive, hmem⟩
  rw [hbare.ancestors owner hlive] at hmem
  cases hmem

theorem Bare.not_retained (hbare : Bare registry) (generation : Nat) :
    ¬ registry.Retained generation := by
  rintro ⟨reference, _, howned | hmem⟩
  · exact hbare.not_owned reference howned
  · rw [hbare.waiting] at hmem
    cases hmem

theorem Bare.sole (hbare : Bare registry) (authority : AuthorityMap) (number : Nat) :
    registry.Sole authority number := by
  intro generation hget reference hmem
  rw [hbare.ancestors generation ⟨authority, number, hget⟩] at hmem
  cases hmem

theorem Bare.closable (hbare : Bare registry) (handle : Nat) : registry.Closable handle where
  loose generation _ := hbare.not_retained generation
  sole := hbare.sole .handles handle

theorem Bare.claimable (hbare : Bare registry) (authority : AuthorityMap) (number : Nat) :
    registry.Claimable [] ∧ registry.Replaceable authority number [] := by
  constructor
  · exact ⟨List.nodup_nil, List.forall_mem_nil _, List.forall_mem_nil _, List.forall_mem_nil _,
      List.forall_mem_nil _⟩
  · refine ⟨hbare.sole authority number, fun _ _ _ _ => List.not_mem_nil, ?_⟩
    rintro _ reference (howned | hmem)
    · exact absurd howned (hbare.not_owned reference)
    · cases hmem

/-- Only the second call, which is for the ancestor, can be retried. -/
def ancestorRetried (calls : Nat) : CloseAnswer :=
  if calls = 1 then { state := .retryable } else { state := .closed }

/-! ### A directory and a file in it -/

/-- The directory is opened, and the file on the way through it. -/
def openedDirectory : WindowsAuthorityRegistry :=
  (WindowsAuthorityRegistry.empty.claim ancestorRetried .handles 1 []).1

def openedFile : WindowsAuthorityRegistry :=
  (openedDirectory.claim ancestorRetried .handles 2 [⟨1, 0⟩]).1

/-- The file is closed, its ancestor later, when what waits is drained. -/
def closedFile : WindowsAuthorityRegistry :=
  (openedFile.closeRaw ancestorRetried 2).1

def drained : WindowsAuthorityRegistry :=
  (closedFile.reconcile ancestorRetried).1

/-- The number of the directory is given away again. -/
def reopened : WindowsAuthorityRegistry :=
  (drained.claim ancestorRetried .handles 1 []).1

theorem bare_empty : Bare .empty where
  ancestors _ _ := rfl
  waiting := rfl

theorem bare_openedDirectory : Bare openedDirectory where
  ancestors generation _ := by cases generation <;> rfl
  waiting := rfl

theorem get_openedFile {authority : AuthorityMap} {number generation : Nat}
    (hget : openedFile.get authority number = some generation) :
    authority = .handles ∧ (number = 1 ∧ generation = 0 ∨ number = 2 ∧ generation = 2) := by
  cases authority with
  | descriptors => cases hget
  | handles =>
      refine ⟨rfl, ?_⟩
      match number with
      | 0 => cases hget
      | 1 => exact .inl ⟨rfl, (Option.some.inj hget).symm⟩
      | 2 => exact .inr ⟨rfl, (Option.some.inj hget).symm⟩
      | number + 3 => cases hget

theorem get_drained (authority : AuthorityMap) (number : Nat) :
    drained.get authority number = none := by
  cases authority with
  | descriptors => rfl
  | handles =>
      match number with
      | 0 | 1 | 2 | number + 3 => rfl

theorem get_reopened {authority : AuthorityMap} {number generation : Nat}
    (hget : reopened.get authority number = some generation) : generation = 5 := by
  cases authority with
  | descriptors => cases hget
  | handles =>
      match number with
      | 0 | 2 | number + 3 => cases hget
      | 1 => exact (Option.some.inj hget).symm

theorem bare_drained : Bare drained where
  ancestors generation := by
    rintro ⟨authority, number, hget⟩
    rw [get_drained] at hget
    cases hget
  waiting := rfl

theorem bare_reopened : Bare reopened where
  ancestors generation := by
    rintro ⟨authority, number, hget⟩
    rw [get_reopened hget]
    rfl
  waiting := rfl

/-- The file may take the directory as its ancestor. -/
theorem claimable_directory : openedDirectory.Claimable [⟨1, 0⟩] ∧
    openedDirectory.Replaceable .handles 2 [⟨1, 0⟩] := by
  have hancestors : openedDirectory.ancestors 0 = [] := rfl
  constructor
  · refine ⟨List.nodup_singleton _, ?_, ?_, ?_, ?_⟩ <;> rw [List.forall_mem_singleton]
    · exact ⟨by decide, rfl⟩
    · rintro ⟨attempt, hmem, _⟩
      cases hmem
    · exact List.not_mem_nil
    · exact fun hsome => absurd hancestors hsome
  · refine ⟨bare_openedDirectory.sole .handles 2, (fun stale hstale => by cases hstale), ?_⟩
    rintro _ reference (howned | hmem) hhandle
    · exact absurd howned (bare_openedDirectory.not_owned reference)
    · rw [List.mem_singleton.mp hmem]
      exact hancestors

/-- Nothing retains the file, and nothing else owns the directory. -/
theorem closable_openedFile : openedFile.Closable 2 where
  loose generation hget := by
    obtain ⟨_, ⟨hnumber, _⟩ | ⟨_, rfl⟩⟩ :=
      @get_openedFile .handles 2 generation hget
    · cases hnumber
    · rintro ⟨reference, hgeneration, ⟨owner, ⟨authority, number, howner⟩, hmem⟩ | hmem⟩
      · obtain ⟨_, ⟨_, rfl⟩ | ⟨_, rfl⟩⟩ := get_openedFile howner
        · cases hmem
        · rw [List.mem_singleton.mp hmem] at hgeneration
          cases hgeneration
      · cases hmem
  sole := by
    intro generation _ reference _ otherAuthority otherNumber other hother hdiffers
    obtain ⟨rfl, ⟨_, rfl⟩ | ⟨rfl, _⟩⟩ := get_openedFile hother
    · exact List.not_mem_nil
    · exact absurd ⟨rfl, rfl⟩ hdiffers

/-- An ancestor is claimed and released, and drained after a call that could be retried; then its
number is used again. -/
theorem orderly_attempts_proper_reopened :
    (reopened.closeRaw ancestorRetried 1).1.attempts =
        [⟨2, 2, some 2, .closed⟩, ⟨1, 0, some 0, .retryable⟩, ⟨1, 0, some 0, .closed⟩,
          ⟨1, 5, some 5, .closed⟩] ∧
      Proper (reopened.closeRaw ancestorRetried 1).1.attempts := by
  refine ⟨rfl, ?_⟩
  have hdirectory := @Machine.Reaches.step _ _ _ (registryMachine ancestorRetried Orderly) _ _
    (Operation.claim .handles 1 []) .init (bare_empty.claimable .handles 1)
  have hfile := hdirectory.step (Operation.claim .handles 2 [⟨1, 0⟩]) claimable_directory
  have hclosed := hfile.step (Operation.closeRaw 2) closable_openedFile
  have hdrained := hclosed.step Operation.reconcile True.intro
  have hreopened := hdrained.step (Operation.claim .handles 1 [])
    (bare_drained.claimable .handles 1)
  have hreclosed := hreopened.step (Operation.closeRaw 1) (bare_reopened.closable 1)
  exact orderly_attempts_proper hreclosed

/-- Operations that share nothing: an allocation claims a number that nothing is
registered on, with references to what is registered and not owned yet; handles are closed and
retired ones drained in any order. -/
def Assumed : Operation → WindowsAuthorityRegistry → Prop
  | .claim authority number ancestors, registry =>
      registry.get authority number = none ∧ (ancestors.map (·.generation)).Nodup ∧
        ∀ reference ∈ ancestors, ¬ registry.Owned reference ∧
          registry.handles reference.handle = some reference.generation
  | .closeRaw _, _ => True
  | .reconcile, _ => True
  | _, _ => False

/-- **A handle is closed twice when it is closed directly while it waits to be closed as an
ancestor.** The reference stays among the retired ones, and the drain calls the closer again. -/
theorem exists_improper_attempts : ∃ close registry history,
    (registryMachine close Assumed).Reaches registry history ∧ ¬ Proper registry.attempts := by
  have hdirectory := @Machine.Reaches.step _ _ _ (registryMachine ancestorRetried Assumed) _ _
    (Operation.claim .handles 1 []) .init ⟨rfl, List.nodup_nil, List.forall_mem_nil _⟩
  have hfile := hdirectory.step (Operation.claim .handles 2 [⟨1, 0⟩])
    ⟨rfl, List.nodup_singleton _, List.forall_mem_singleton.mpr
      ⟨bare_openedDirectory.not_owned _, rfl⟩⟩
  have hclosed := hfile.step (Operation.closeRaw 2) True.intro
  have hdirect := hclosed.step (Operation.closeRaw 1) True.intro
  have hdrained := hdirect.step Operation.reconcile True.intro
  refine ⟨_, _, _, hdrained, ?_⟩
  intro hproper
  have honce := hproper.once
  revert honce
  decide

end SupernoteModule.Filesystem
