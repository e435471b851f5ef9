import SupernoteModule.Filesystem.WindowsAuthority

/-!
# Who holds a Windows handle

A reference is retained by the live allocations that own it and by the collection of retired
references. While no operation takes a generation out of the registry that something still retains,
the closer is never called again for a generation it has given up.
-/

namespace SupernoteModule.Filesystem

open SupernoteModule.Lib SupernoteModule.Python Function

/-! ### Entries of a dictionary -/

section Entries

variable {Name Record : Type} [DecidableEq Name] {dictionary : List (Name × Record)} {name : Name}

theorem dictInsert_of_lookup {record : Record} (hfound : dictionary.lookup name = some record) :
    ∃ before after, dictionary = before ++ (name, record) :: after ∧ name ∉ before.map Prod.fst ∧
      ∀ other, dictInsert dictionary name other = before ++ (name, other) :: after := by
  induction dictionary with
  | nil => cases hfound
  | cons entry rest ih =>
      obtain ⟨first, found⟩ := entry
      by_cases hfirst : first = name
      · subst hfirst
        rw [List.lookup_cons_self] at hfound
        obtain rfl := Option.some.inj hfound
        refine ⟨[], rest, rfl, List.not_mem_nil, ?_⟩
        intro other
        rw [dictInsert, if_pos rfl, List.nil_append]
      · have hbeq : (name == first) = false := beq_eq_false_iff_ne.mpr (Ne.symm hfirst)
        rw [List.lookup_cons, hbeq] at hfound
        obtain ⟨before, after, rfl, hbefore, hinsert⟩ := ih hfound
        refine ⟨(first, found) :: before, after, rfl, ?_, ?_⟩
        · rw [List.map_cons, List.mem_cons, not_or]
          exact ⟨Ne.symm hfirst, hbefore⟩
        · intro other
          rw [dictInsert, if_neg hfirst, hinsert, List.cons_append]

theorem mem_of_mem_dictInsert {record : Record} {entry : Name × Record}
    (hmem : entry ∈ dictInsert dictionary name record) :
    entry ∈ dictionary ∨ entry = (name, record) := by
  induction dictionary with
  | nil =>
      rw [dictInsert, List.mem_singleton] at hmem
      exact .inr hmem
  | cons first rest ih =>
      rw [dictInsert] at hmem
      split_ifs at hmem with hname
      · rcases List.mem_cons.mp hmem with hself | hrest
        · exact .inr hself
        · exact .inl (List.mem_cons_of_mem _ hrest)
      · rcases List.mem_cons.mp hmem with rfl | hrest
        · exact .inl List.mem_cons_self
        · exact (ih hrest).imp_left (List.mem_cons_of_mem _)

/-- `dictionary.pop(name)`. -/
theorem filter_ne_of_nodup {before after : List (Name × Record)} {record : Record}
    (hkeys : ((before ++ (name, record) :: after).map Prod.fst).Nodup) :
    (before ++ (name, record) :: after).filter (·.1 ≠ name) = before ++ after := by
  rw [List.map_append, List.map_cons, List.nodup_append, List.nodup_cons] at hkeys
  obtain ⟨_, ⟨hafter, _⟩, hbefore⟩ := hkeys
  have hkept : ∀ entries : List (Name × Record), (∀ entry ∈ entries, entry.1 ≠ name) →
      entries.filter (·.1 ≠ name) = entries := by
    intro entries hentries
    rw [List.filter_eq_self]
    intro entry hentry
    exact decide_eq_true (hentries entry hentry)
  rw [List.filter_append, hkept before, List.filter_cons_of_neg (by simp), hkept after]
  · intro entry hentry hname
    exact hafter (List.mem_map.mpr ⟨entry, hentry, hname⟩)
  · intro entry hentry
    exact hbefore entry.1 (List.mem_map_of_mem hentry) name List.mem_cons_self

end Entries

namespace WindowsAuthorityRegistry

variable (registry : WindowsAuthorityRegistry)

/-! ### Who retains a reference -/

/-- A generation that is registered on a number. -/
def Live (generation : Nat) : Prop :=
  ∃ authority number, registry.get authority number = some generation

/-- A live allocation owns the reference. -/
def Owned (reference : RawGenerationReference) : Prop :=
  ∃ generation, registry.Live generation ∧ reference ∈ registry.ancestors generation

/-- A reference to the generation is owned or waits. -/
def Retained (generation : Nat) : Prop :=
  ∃ reference : RawGenerationReference, reference.generation = generation ∧
    (registry.Owned reference ∨ reference ∈ registry.waiting)

def attempts : List CloseAttempt :=
  registry.trace.filterMap fun
    | .attempted attempt => some attempt
    | .registered _ _ => none

/-- A call of the closer for the generation had this outcome. -/
def Reported (generation : Nat) (state : RawCloseState) : Prop :=
  ∃ attempt ∈ registry.attempts, attempt.generation = generation ∧ attempt.state = state

/-- The reference names an object that was made for its number. -/
def Made (reference : RawGenerationReference) : Prop :=
  reference.generation < registry.next ∧
    (registry.objects reference.generation).handle = some reference.handle

/-- A generation that has references of its own is the one registered on its number. -/
def Rooted (reference : RawGenerationReference) : Prop :=
  registry.ancestors reference.generation ≠ [] →
    registry.handles reference.handle = some reference.generation

/-- The references of what is registered on the number are owned on no other number. -/
def Sole (authority : AuthorityMap) (number : Nat) : Prop :=
  ∀ generation, registry.get authority number = some generation →
    ∀ reference ∈ registry.ancestors generation, ∀ otherAuthority otherNumber other,
      registry.get otherAuthority otherNumber = some other →
        ¬ (otherAuthority = authority ∧ otherNumber = number) →
          reference ∉ registry.ancestors other

/-! ### The invariant -/

/-- Calls for one generation follow one another only while they can be retried, and the number has
no newer generation at the time. -/
structure Proper (attempts : List CloseAttempt) : Prop where
  once : attempts.Pairwise fun earlier later =>
    earlier.generation = later.generation → earlier.state = .retryable
  current : ∀ attempt ∈ attempts, ∀ registered ∈ attempt.registered,
    registered ≤ attempt.generation

structure Consistent : Prop where
  settled : registry.pending = []
  made : ∀ generation, ∀ reference ∈ registry.ancestors generation, registry.Made reference
  distinct : ∀ generation, ((registry.ancestors generation).map (·.generation)).Nodup
  registered : ∀ number generation, registry.handles number = some generation →
    registry.Made ⟨number, generation⟩
  described : ∀ number generation, registry.descriptors number = some generation →
    generation < registry.next ∧ (registry.objects generation).handle = none
  tokens : ∀ entry ∈ registry.retired, entry.1 < registry.next
  keys : (registry.retired.map (·.1)).Nodup
  waitingMade : ∀ reference ∈ registry.waiting, registry.Made reference
  waitingOnce : (registry.waiting.map (·.generation)).Nodup
  waitingFree : ∀ reference ∈ registry.waiting, ¬ registry.Owned reference
  retainedRooted : ∀ reference, registry.Owned reference ∨ reference ∈ registry.waiting →
    registry.Rooted reference
  attempted : ∀ attempt ∈ registry.attempts,
    registry.Made ⟨attempt.handle, attempt.generation⟩
  closedGone : ∀ generation, registry.Reported generation .closed →
    ¬ registry.Retained generation ∧ ∀ number, registry.handles number ≠ some generation
  ambiguousKnown : ∀ attempt ∈ registry.attempts, attempt.state = .ambiguous →
    attempt.generation ∈ registry.ambiguous attempt.handle
  refused : ∀ reference ∈ registry.ambiguousRetired.flatMap (·.2),
    reference.generation ∈ registry.ambiguous reference.handle
  proper : Proper registry.attempts

variable {registry}

/-! ### Making generations -/

theorem Consistent.empty : empty.Consistent where
  settled := rfl
  made _ _ hmem := by cases hmem
  distinct _ := List.nodup_nil
  registered _ _ hsome := by cases hsome
  described _ _ hsome := by cases hsome
  tokens _ hmem := by cases hmem
  keys := List.nodup_nil
  waitingMade _ hmem := by cases hmem
  waitingOnce := List.nodup_nil
  waitingFree _ hmem := by cases hmem
  retainedRooted reference hretained := by
    rintro hrefs
    exact absurd rfl hrefs
  attempted _ hmem := by cases hmem
  closedGone generation hreported := by
    obtain ⟨_, hmem, _⟩ := hreported
    cases hmem
  ambiguousKnown _ hmem := by cases hmem
  refused _ hmem := by cases hmem
  proper := ⟨List.Pairwise.nil, fun _ hmem => by cases hmem⟩

section Allocate

variable {references : List RawGenerationReference} {handle : Option Nat}

theorem objects_allocate_of_ne {generation : Nat} (hne : generation ≠ registry.next) :
    (registry.allocate references handle).objects generation = registry.objects generation :=
  update_of_ne hne _ _

theorem objects_allocate_self :
    (registry.allocate references handle).objects registry.next = ⟨references, handle⟩ :=
  update_self _ _ _

theorem ancestors_allocate_of_ne {generation : Nat} (hne : generation ≠ registry.next) :
    (registry.allocate references handle).ancestors generation = registry.ancestors generation := by
  rw [ancestors, objects_allocate_of_ne hne, ancestors]

theorem ancestors_allocate_self :
    (registry.allocate references handle).ancestors registry.next = references := by
  rw [ancestors, objects_allocate_self]

theorem Made.allocate {reference : RawGenerationReference} (hmade : registry.Made reference) :
    (registry.allocate references handle).Made reference := by
  obtain ⟨hbound, hhandle⟩ := hmade
  refine ⟨Nat.lt_succ_of_lt hbound, ?_⟩
  rw [objects_allocate_of_ne (Nat.ne_of_lt hbound)]
  exact hhandle

theorem live_lt (hconsistent : registry.Consistent) {generation : Nat}
    (hlive : registry.Live generation) : generation < registry.next := by
  obtain ⟨authority, number, hget⟩ := hlive
  cases authority with
  | handles => exact (hconsistent.registered number generation hget).1
  | descriptors => exact (hconsistent.described number generation hget).1

theorem owned_allocate (hconsistent : registry.Consistent) {reference : RawGenerationReference} :
    (registry.allocate references handle).Owned reference ↔ registry.Owned reference := by
  have hsame : ∀ generation, registry.Live generation →
      (registry.allocate references handle).ancestors generation = registry.ancestors generation :=
    fun generation hlive => ancestors_allocate_of_ne (Nat.ne_of_lt (live_lt hconsistent hlive))
  constructor
  · rintro ⟨generation, hlive, hmem⟩
    exact ⟨generation, hlive, hsame generation hlive ▸ hmem⟩
  · rintro ⟨generation, hlive, hmem⟩
    exact ⟨generation, hlive, (hsame generation hlive).symm ▸ hmem⟩

theorem Consistent.allocate (hconsistent : registry.Consistent)
    (hdistinct : (references.map (·.generation)).Nodup)
    (hmade : ∀ reference ∈ references, registry.Made reference) :
    (registry.allocate references handle).Consistent where
  settled := hconsistent.settled
  made generation reference hmem := by
    apply Made.allocate
    by_cases hnext : generation = registry.next
    · subst hnext
      rw [ancestors_allocate_self] at hmem
      exact hmade reference hmem
    · rw [ancestors_allocate_of_ne hnext] at hmem
      exact hconsistent.made generation reference hmem
  distinct generation := by
    by_cases hnext : generation = registry.next
    · subst hnext
      rwa [ancestors_allocate_self]
    · rw [ancestors_allocate_of_ne hnext]
      exact hconsistent.distinct generation
  registered number generation hsome := (hconsistent.registered number generation hsome).allocate
  described number generation hsome := by
    obtain ⟨hbound, hhandle⟩ := hconsistent.described number generation hsome
    refine ⟨Nat.lt_succ_of_lt hbound, ?_⟩
    rw [objects_allocate_of_ne (Nat.ne_of_lt hbound)]
    exact hhandle
  tokens entry hentry := Nat.lt_succ_of_lt (hconsistent.tokens entry hentry)
  keys := hconsistent.keys
  waitingMade reference hmem := (hconsistent.waitingMade reference hmem).allocate
  waitingOnce := hconsistent.waitingOnce
  waitingFree reference hmem := by
    rw [owned_allocate hconsistent]
    exact hconsistent.waitingFree reference hmem
  retainedRooted reference hretained := by
    rw [owned_allocate hconsistent] at hretained
    have hbound : reference.generation < registry.next := by
      rcases hretained with ⟨generation, _, hmem⟩ | hmem
      · exact (hconsistent.made generation reference hmem).1
      · exact (hconsistent.waitingMade reference hmem).1
    rw [Rooted, ancestors_allocate_of_ne (Nat.ne_of_lt hbound)]
    exact hconsistent.retainedRooted reference hretained
  attempted attempt hmem := (hconsistent.attempted attempt hmem).allocate
  closedGone generation hreported := by
    obtain ⟨hretained, hhandles⟩ := hconsistent.closedGone generation hreported
    refine ⟨?_, hhandles⟩
    rintro ⟨reference, hgeneration, howned | hwaiting⟩
    · exact hretained ⟨reference, hgeneration, .inl ((owned_allocate hconsistent).mp howned)⟩
    · exact hretained ⟨reference, hgeneration, .inr hwaiting⟩
  ambiguousKnown := hconsistent.ambiguousKnown
  refused := hconsistent.refused
  proper := hconsistent.proper

end Allocate

/-! ### Registering and withdrawing -/

section Maps

variable {authority : AuthorityMap} {number generation : Nat}

theorem of_update_none {map : Nat → Option Nat} {index other : Nat}
    (hother : update map number none index = some other) : map index = some other := by
  by_cases hnumber : index = number
  · subst hnumber
    rw [update_self] at hother
    cases hother
  · rwa [update_of_ne hnumber] at hother

theorem of_update_some {map : Nat → Option Nat} {index other : Nat}
    (hother : update map number (some generation) index = some other) :
    (index = number ∧ other = generation) ∨ map index = some other := by
  by_cases hnumber : index = number
  · subst hnumber
    rw [update_self] at hother
    exact .inl ⟨rfl, (Option.some.inj hother).symm⟩
  · rw [update_of_ne hnumber] at hother
    exact .inr hother

theorem get_set (other : AuthorityMap) (otherNumber : Nat) :
    (registry.set authority number generation).get other otherNumber =
      if other = authority ∧ otherNumber = number then some generation
      else registry.get other otherNumber := by
  cases authority <;> cases other <;> simp [set, get, update_apply]

theorem get_deleteIf (other : AuthorityMap) (otherNumber : Nat) :
    (registry.deleteIf authority number generation).get other otherNumber =
      if registry.get authority number = some generation ∧ other = authority ∧ otherNumber = number
      then none else registry.get other otherNumber := by
  by_cases hsome : registry.get authority number = some generation
  · rw [deleteIf, if_pos hsome]
    cases authority <;> cases other <;> simp [get, delete, update_apply] <;> simp_all [get]
  · rw [deleteIf, if_neg hsome]
    simp [hsome]

theorem ancestors_set (other : Nat) :
    (registry.set authority number generation).ancestors other = registry.ancestors other := by
  cases authority <;> rfl

theorem ancestors_deleteIf (other : Nat) :
    (registry.deleteIf authority number generation).ancestors other = registry.ancestors other := by
  rw [deleteIf]
  split
  · cases authority <;> rfl
  · rfl

theorem attempts_set :
    (registry.set authority number generation).attempts = registry.attempts := by
  cases authority <;> simp [set, attempts]

theorem live_set (hfree : registry.get authority number = none) {other : Nat} :
    (registry.set authority number generation).Live other ↔
      registry.Live other ∨ other = generation := by
  constructor
  · rintro ⟨otherAuthority, otherNumber, hget⟩
    rw [get_set] at hget
    split_ifs at hget with hself
    · exact .inr (Option.some.inj hget).symm
    · exact .inl ⟨otherAuthority, otherNumber, hget⟩
  · rintro (⟨otherAuthority, otherNumber, hget⟩ | rfl)
    · refine ⟨otherAuthority, otherNumber, ?_⟩
      rw [get_set, if_neg]
      · exact hget
      · rintro ⟨rfl, rfl⟩
        rw [hfree] at hget
        cases hget
    · refine ⟨authority, number, ?_⟩
      rw [get_set, if_pos ⟨rfl, rfl⟩]

theorem owned_set (hfree : registry.get authority number = none)
    {reference : RawGenerationReference} :
    (registry.set authority number generation).Owned reference ↔
      registry.Owned reference ∨ reference ∈ registry.ancestors generation := by
  simp only [Owned, live_set hfree, ancestors_set]
  constructor
  · rintro ⟨other, hlive | rfl, hmem⟩
    · exact .inl ⟨other, hlive, hmem⟩
    · exact .inr hmem
  · rintro (⟨other, hlive, hmem⟩ | hmem)
    · exact ⟨other, .inl hlive, hmem⟩
    · exact ⟨generation, .inr rfl, hmem⟩

theorem Live.of_deleteIf {other : Nat}
    (hlive : (registry.deleteIf authority number generation).Live other) : registry.Live other := by
  obtain ⟨otherAuthority, otherNumber, hget⟩ := hlive
  rw [get_deleteIf] at hget
  split_ifs at hget with hself
  exact ⟨otherAuthority, otherNumber, hget⟩

theorem Owned.of_deleteIf {reference : RawGenerationReference}
    (howned : (registry.deleteIf authority number generation).Owned reference) :
    registry.Owned reference := by
  obtain ⟨other, hlive, hmem⟩ := howned
  rw [ancestors_deleteIf] at hmem
  exact ⟨other, hlive.of_deleteIf, hmem⟩

/-- The fields that a change of the maps leaves alone. -/
theorem deleteIf_same :
    (registry.deleteIf authority number generation).retired = registry.retired ∧
      (registry.deleteIf authority number generation).ambiguousRetired = registry.ambiguousRetired ∧
      (registry.deleteIf authority number generation).ambiguous = registry.ambiguous ∧
      (registry.deleteIf authority number generation).pending = registry.pending ∧
      (registry.deleteIf authority number generation).objects = registry.objects ∧
      (registry.deleteIf authority number generation).next = registry.next ∧
      (registry.deleteIf authority number generation).trace = registry.trace := by
  rw [deleteIf]
  split
  · cases authority <;> exact ⟨rfl, rfl, rfl, rfl, rfl, rfl, rfl⟩
  · exact ⟨rfl, rfl, rfl, rfl, rfl, rfl, rfl⟩

theorem Retained.of_deleteIf {other : Nat}
    (hretained : (registry.deleteIf authority number generation).Retained other) :
    registry.Retained other := by
  obtain ⟨reference, hgeneration, howned | hwaiting⟩ := hretained
  · exact ⟨reference, hgeneration, .inl howned.of_deleteIf⟩
  · refine ⟨reference, hgeneration, .inr ?_⟩
    rwa [waiting, (deleteIf_same).1] at hwaiting

/-- A generation is withdrawn when nothing retains it, or when it has no references. -/
theorem Consistent.deleteIf (hconsistent : registry.Consistent)
    (hloose : authority = .handles → registry.Retained generation →
      registry.ancestors generation = []) :
    (registry.deleteIf authority number generation).Consistent := by
  have howned : ∀ {reference}, (registry.deleteIf authority number generation).Owned reference →
      registry.Owned reference := Owned.of_deleteIf
  have hretained : ∀ {other}, (registry.deleteIf authority number generation).Retained other →
      registry.Retained other := Retained.of_deleteIf
  by_cases hsome : registry.get authority number = some generation
  · rw [WindowsAuthorityRegistry.deleteIf, if_pos hsome] at howned hretained ⊢
    cases authority with
    | handles =>
        exact
          { hconsistent with
            registered := fun otherNumber other hother =>
              hconsistent.registered otherNumber other (of_update_none hother)
            waitingFree := fun reference hmem hreference =>
              hconsistent.waitingFree reference hmem (howned hreference)
            retainedRooted := by
              intro reference hreference hnested
              have hbefore : registry.Owned reference ∨ reference ∈ registry.waiting :=
                hreference.imp_left howned
              have hroot := hconsistent.retainedRooted reference hbefore hnested
              have hnumber : reference.handle ≠ number := by
                intro hnumber
                rw [hnumber] at hroot
                have hgeneration : reference.generation = generation :=
                  Option.some.inj (hroot.symm.trans hsome)
                exact hnested (hgeneration ▸ hloose rfl ⟨reference, hgeneration, hbefore⟩)
              exact (update_of_ne hnumber _ _).trans hroot
            closedGone := by
              intro other hreported
              obtain ⟨hgone, hhandles⟩ := hconsistent.closedGone other hreported
              exact ⟨fun hother => hgone (hretained hother),
                fun otherNumber hother => hhandles otherNumber (of_update_none hother)⟩ }
    | descriptors =>
        exact
          { hconsistent with
            described := fun otherNumber other hother =>
              hconsistent.described otherNumber other (of_update_none hother)
            waitingFree := fun reference hmem hreference =>
              hconsistent.waitingFree reference hmem (howned hreference)
            retainedRooted := fun reference hreference =>
              hconsistent.retainedRooted reference (hreference.imp_left howned)
            closedGone := by
              intro other hreported
              obtain ⟨hgone, hhandles⟩ := hconsistent.closedGone other hreported
              exact ⟨fun hother => hgone (hretained hother), hhandles⟩ }
  · rw [WindowsAuthorityRegistry.deleteIf, if_neg hsome]
    exact hconsistent

/-- A generation that has been made is registered on a number that has none. -/
theorem Consistent.set (hconsistent : registry.Consistent)
    (hfree : registry.get authority number = none) (hbound : generation < registry.next)
    (hhandle : (registry.objects generation).handle = handleOf authority number)
    (hopen : ¬ registry.Reported generation .closed)
    (hreferences : ∀ reference ∈ registry.ancestors generation,
      ¬ registry.Reported reference.generation .closed ∧ reference ∉ registry.waiting ∧
        registry.Rooted reference) :
    (registry.set authority number generation).Consistent := by
  have howned : ∀ {reference}, (registry.set authority number generation).Owned reference ↔
      registry.Owned reference ∨ reference ∈ registry.ancestors generation := owned_set hfree
  have hattempts : (registry.set authority number generation).attempts = registry.attempts :=
    attempts_set
  have hwaitingFree : ∀ reference ∈ registry.waiting,
      ¬ (registry.set authority number generation).Owned reference := by
    intro reference hmem hreference
    rcases howned.mp hreference with hbefore | hnew
    · exact hconsistent.waitingFree reference hmem hbefore
    · exact (hreferences reference hnew).2.1 hmem
  have hrooted : ∀ reference, (registry.set authority number generation).Owned reference ∨
      reference ∈ registry.waiting → registry.Rooted reference := by
    rintro reference (hreference | hmem)
    · rcases howned.mp hreference with hbefore | hnew
      · exact hconsistent.retainedRooted reference (.inl hbefore)
      · exact (hreferences reference hnew).2.2
    · exact hconsistent.retainedRooted reference (.inr hmem)
  have hgone : ∀ other, registry.Reported other .closed → ∀ reference : RawGenerationReference,
      reference.generation = other → ¬ ((registry.set authority number generation).Owned reference ∨
        reference ∈ registry.waiting) := by
    rintro other hreported reference rfl (hreference | hmem)
    · rcases howned.mp hreference with hbefore | hnew
      · exact (hconsistent.closedGone _ hreported).1 ⟨reference, rfl, .inl hbefore⟩
      · exact (hreferences reference hnew).1 hreported
    · exact (hconsistent.closedGone _ hreported).1 ⟨reference, rfl, .inr hmem⟩
  cases authority with
  | handles =>
      exact
        { hconsistent with
          registered := by
            intro otherNumber other hother
            rcases of_update_some hother with ⟨rfl, rfl⟩ | hother
            · exact ⟨hbound, hhandle⟩
            · exact hconsistent.registered otherNumber other hother
          waitingFree := hwaitingFree
          retainedRooted := by
            intro reference hreference hnested
            have hroot := hrooted reference hreference hnested
            have hnumber : reference.handle ≠ number := by
              rintro rfl
              rw [show registry.handles reference.handle = none from hfree] at hroot
              cases hroot
            exact (update_of_ne hnumber _ _).trans hroot
          attempted := hattempts ▸ hconsistent.attempted
          closedGone := by
            intro other hreported
            rw [Reported, hattempts] at hreported
            refine ⟨?_, ?_⟩
            · rintro ⟨reference, hgeneration, hreference⟩
              exact hgone other hreported reference hgeneration hreference
            · intro otherNumber hother
              rcases of_update_some hother with ⟨_, rfl⟩ | hother
              · exact hopen hreported
              · exact (hconsistent.closedGone other hreported).2 otherNumber hother
          ambiguousKnown := hattempts ▸ hconsistent.ambiguousKnown
          proper := hattempts ▸ hconsistent.proper }
  | descriptors =>
      exact
        { hconsistent with
          described := by
            intro otherNumber other hother
            rcases of_update_some hother with ⟨rfl, rfl⟩ | hother
            · exact ⟨hbound, hhandle⟩
            · exact hconsistent.described otherNumber other hother
          waitingFree := hwaitingFree
          retainedRooted := hrooted
          closedGone := by
            intro other hreported
            refine ⟨?_, (hconsistent.closedGone other hreported).2⟩
            rintro ⟨reference, hgeneration, hreference⟩
            exact hgone other hreported reference hgeneration hreference }

end Maps

/-! ### Waiting -/

/-- What may join the references that wait. -/
structure Retirable (registry : WindowsAuthorityRegistry) (reference : RawGenerationReference) :
    Prop where
  made : registry.Made reference
  free : ¬ registry.Owned reference
  unreported : ¬ registry.Reported reference.generation .closed
  rooted : registry.Rooted reference

theorem Made.mono {reference : RawGenerationReference} (hmade : registry.Made reference)
    {next : Nat}
    (hnext : registry.next ≤ next) :
    ({ registry with next := next } : WindowsAuthorityRegistry).Made
      reference :=
  ⟨Nat.lt_of_lt_of_le hmade.1 hnext, hmade.2⟩

/-- The collections of retired references change, and what waits is as before or may wait. -/
theorem Consistent.retire (hconsistent : registry.Consistent)
    {retired ambiguousRetired : List (Nat × List RawGenerationReference)} {next : Nat}
    (hnext : registry.next ≤ next) (hkeys : (retired.map (·.1)).Nodup)
    (htokens : ∀ entry ∈ retired, entry.1 < next)
    (honce : ((retired.flatMap (·.2)).map (·.generation)).Nodup)
    (hwaiting : ∀ reference ∈ retired.flatMap (·.2),
      reference ∈ registry.waiting ∨ registry.Retirable reference)
    (hrefused : ∀ reference ∈ ambiguousRetired.flatMap (·.2),
      reference.generation ∈ registry.ambiguous reference.handle) :
    ({ registry with retired := retired, ambiguousRetired := ambiguousRetired, next := next } :
      WindowsAuthorityRegistry).Consistent :=
  { hconsistent with
    made := fun generation reference hmem =>
      (hconsistent.made generation reference hmem).mono hnext
    registered := fun number generation hsome =>
      (hconsistent.registered number generation hsome).mono hnext
    described := fun number generation hsome =>
      ⟨Nat.lt_of_lt_of_le (hconsistent.described number generation hsome).1 hnext,
        (hconsistent.described number generation hsome).2⟩
    tokens := htokens
    keys := hkeys
    waitingMade := by
      intro reference hmem
      rcases hwaiting reference hmem with hbefore | hnew
      · exact (hconsistent.waitingMade reference hbefore).mono hnext
      · exact hnew.made.mono hnext
    waitingOnce := honce
    waitingFree := by
      intro reference hmem
      rcases hwaiting reference hmem with hbefore | hnew
      · exact hconsistent.waitingFree reference hbefore
      · exact hnew.free
    retainedRooted := by
      rintro reference (howned | hmem)
      · exact hconsistent.retainedRooted reference (.inl howned)
      · rcases hwaiting reference hmem with hbefore | hnew
        · exact hconsistent.retainedRooted reference (.inr hbefore)
        · exact hnew.rooted
    attempted := fun attempt hmem => (hconsistent.attempted attempt hmem).mono hnext
    closedGone := by
      intro generation hreported
      obtain ⟨hgone, hhandles⟩ := hconsistent.closedGone generation hreported
      refine ⟨?_, hhandles⟩
      rintro ⟨reference, rfl, howned | hmem⟩
      · exact hgone ⟨reference, rfl, .inl howned⟩
      · rcases hwaiting reference hmem with hbefore | hnew
        · exact hgone ⟨reference, rfl, .inr hbefore⟩
        · exact hnew.unreported hreported
    refused := hrefused }

/-! ### Calling the closer -/

/-- A call is noted. -/
def noted (registry : WindowsAuthorityRegistry) (attempt : CloseAttempt) :
    WindowsAuthorityRegistry :=
  { registry with
    calls := registry.calls + 1
    trace := registry.trace ++ [.attempted attempt] }

theorem attempts_noted (attempt : CloseAttempt) :
    (registry.noted attempt).attempts = registry.attempts ++ [attempt] := by
  simp [noted, attempts]

theorem reported_noted {attempt : CloseAttempt} {generation : Nat} {state : RawCloseState} :
    (registry.noted attempt).Reported generation state ↔
      registry.Reported generation state ∨
        (attempt.generation = generation ∧ attempt.state = state) := by
  rw [Reported, attempts_noted, Reported]
  simp only [List.mem_append, List.mem_singleton]
  constructor
  · rintro ⟨found, hmem | rfl, hfound⟩
    · exact .inl ⟨found, hmem, hfound⟩
    · exact .inr hfound
  · rintro (⟨found, hmem, hfound⟩ | hfound)
    · exact ⟨found, .inl hmem, hfound⟩
    · exact ⟨attempt, .inr rfl, hfound⟩

/-- The closer is called for a generation it has not given up, with no newer one on the number. -/
theorem Consistent.noted (hconsistent : registry.Consistent) {attempt : CloseAttempt}
    (hmade : registry.Made ⟨attempt.handle, attempt.generation⟩)
    (hopen : ¬ registry.Reported attempt.generation .closed)
    (hclear : ¬ registry.Reported attempt.generation .ambiguous)
    (hcurrent : ∀ registered ∈ attempt.registered, registered ≤ attempt.generation)
    (hclosed : attempt.state = .closed → ¬ registry.Retained attempt.generation ∧
      ∀ number, registry.handles number ≠ some attempt.generation)
    (hambiguous : attempt.state = .ambiguous →
      attempt.generation ∈ registry.ambiguous attempt.handle) :
    (registry.noted attempt).Consistent :=
  { hconsistent with
    attempted := by
      intro other hmem
      rw [attempts_noted, List.mem_append, List.mem_singleton] at hmem
      rcases hmem with hmem | rfl
      · exact hconsistent.attempted other hmem
      · exact hmade
    closedGone := by
      intro generation hreported
      rcases reported_noted.mp hreported with hbefore | ⟨rfl, hstate⟩
      · exact hconsistent.closedGone generation hbefore
      · exact hclosed hstate
    ambiguousKnown := by
      intro other hmem hstate
      rw [attempts_noted, List.mem_append, List.mem_singleton] at hmem
      rcases hmem with hmem | rfl
      · exact hconsistent.ambiguousKnown other hmem hstate
      · exact hambiguous hstate
    proper := by
      rw [attempts_noted]
      constructor
      · rw [List.pairwise_append]
        refine ⟨hconsistent.proper.once, List.pairwise_singleton _ _, ?_⟩
        intro earlier hearlier later hlater hsame
        obtain rfl := List.mem_singleton.mp hlater
        cases hstate : earlier.state with
        | closed => exact absurd ⟨earlier, hearlier, hsame, hstate⟩ hopen
        | retryable => rfl
        | ambiguous => exact absurd ⟨earlier, hearlier, hsame, hstate⟩ hclear
      · intro other hmem registered hregistered
        rw [List.mem_append, List.mem_singleton] at hmem
        rcases hmem with hmem | rfl
        · exact hconsistent.proper.current other hmem registered hregistered
        · exact hcurrent registered hregistered }

theorem mem_recordAmbiguous {handle generation number other : Nat} :
    other ∈ (registry.recordAmbiguous handle generation).ambiguous number ↔
      other ∈ registry.ambiguous number ∨ (number = handle ∧ other = generation) := by
  rw [recordAmbiguous]
  split
  · rename_i hmem
    constructor
    · exact .inl
    · rintro (hother | ⟨rfl, rfl⟩)
      · exact hother
      · exact hmem
  · by_cases hnumber : number = handle
    · subst hnumber
      simp
    · simp [hnumber]

theorem recordAmbiguous_same {handle generation : Nat} :
    (registry.recordAmbiguous handle generation).retired = registry.retired ∧
      (registry.recordAmbiguous handle generation).handles = registry.handles ∧
      (registry.recordAmbiguous handle generation).trace = registry.trace ∧
      (registry.recordAmbiguous handle generation).objects = registry.objects ∧
      (registry.recordAmbiguous handle generation).next = registry.next := by
  rw [recordAmbiguous]
  split <;> exact ⟨rfl, rfl, rfl, rfl, rfl⟩

theorem retained_recordAmbiguous {handle generation other : Nat} :
    (registry.recordAmbiguous handle generation).Retained other ↔ registry.Retained other := by
  rw [recordAmbiguous]
  split
  · rfl
  · exact Iff.rfl

theorem Consistent.recordAmbiguous (hconsistent : registry.Consistent) (handle generation : Nat) :
    (registry.recordAmbiguous handle generation).Consistent := by
  have hmono : ∀ {number other}, other ∈ registry.ambiguous number →
      other ∈ (registry.recordAmbiguous handle generation).ambiguous number :=
    fun hother => mem_recordAmbiguous.mpr (.inl hother)
  rw [WindowsAuthorityRegistry.recordAmbiguous] at hmono ⊢
  split_ifs with hmem
  · exact hconsistent
  · rw [if_neg hmem] at hmono
    exact
      { hconsistent with
        ambiguousKnown := fun attempt hattempt hstate =>
          hmono (hconsistent.ambiguousKnown attempt hattempt hstate)
        refused := fun reference hreference => hmono (hconsistent.refused reference hreference) }

/-- An ambiguous generation is refused before the closer is called. -/
theorem Consistent.clear (hconsistent : registry.Consistent) {reference : RawGenerationReference}
    (hmade : registry.Made reference)
    (hclear : ¬ registry.generationIsAmbiguous reference.handle reference.generation) :
    ¬ registry.Reported reference.generation .ambiguous := by
  rintro ⟨attempt, hmem, hgeneration, hstate⟩
  apply hclear
  have hhandle : attempt.handle = reference.handle := by
    have hattempt := (hconsistent.attempted attempt hmem).2
    rw [hgeneration, hmade.2] at hattempt
    exact (Option.some.inj hattempt).symm
  rw [generationIsAmbiguous, ← hhandle, ← hgeneration]
  exact hconsistent.ambiguousKnown attempt hmem hstate

/-! ### Publishing what remains -/

section Publish

variable {token : Nat} {remaining rest ambiguous : List RawGenerationReference}

theorem retired_publishRetired : (registry.publishRetired token rest ambiguous).retired =
    if rest = [] then registry.retired.filter (·.1 ≠ token)
    else dictInsert registry.retired token rest :=
  rfl

theorem ambiguousRetired_publishRetired :
    (registry.publishRetired token rest ambiguous).ambiguousRetired =
      if ambiguous = [] then registry.ambiguousRetired.filter (·.1 ≠ token)
      else dictInsert registry.ambiguousRetired token ambiguous :=
  rfl

theorem lookup_filter_ne {entries : List (Nat × List RawGenerationReference)} :
    (entries.filter (·.1 ≠ token)).lookup token = none := by
  rw [List.lookup_eq_none_iff]
  intro entry hentry
  have hne : entry.1 ≠ token := of_decide_eq_true (List.mem_filter.mp hentry).2
  exact bne_iff_ne.mpr (Ne.symm hne)

theorem lookup_publishRetired :
    ((registry.publishRetired token rest ambiguous).retired.lookup token).getD [] = rest := by
  rw [retired_publishRetired]
  split_ifs with hrest
  · rw [lookup_filter_ne, hrest, Option.getD_none]
  · rw [lookup_dictInsert, if_pos rfl, Option.getD_some]

theorem waiting_publishRetired (hconsistent : registry.Consistent)
    (hrecorded : registry.retired.lookup token = some remaining) :
    ∃ before after, registry.waiting = before ++ remaining ++ after ∧
      (registry.publishRetired token rest ambiguous).waiting = before ++ rest ++ after ∧
      ((registry.publishRetired token rest ambiguous).retired.map (·.1)).Sublist
        (registry.retired.map (·.1)) := by
  obtain ⟨before, after, hretired, hbefore, hinsert⟩ := dictInsert_of_lookup hrecorded
  have hfilter : registry.retired.filter (·.1 ≠ token) = before ++ after := by
    have hkeys := hconsistent.keys
    rw [hretired] at hkeys ⊢
    exact filter_ne_of_nodup hkeys
  refine ⟨before.flatMap (·.2), after.flatMap (·.2), ?_, ?_, ?_⟩
  · rw [waiting, hretired]
    simp
  · rw [waiting, retired_publishRetired]
    split_ifs with hrest
    · rw [hfilter, hrest]
      simp
    · rw [hinsert rest]
      simp
  · rw [retired_publishRetired]
    split_ifs with hrest
    · exact List.filter_sublist.map _
    · rw [hinsert rest, hretired]
      simp

theorem refused_publishRetired (hconsistent : registry.Consistent)
    (hknown : ∀ reference ∈ ambiguous,
      reference.generation ∈ registry.ambiguous reference.handle) :
    ∀ reference ∈ (registry.publishRetired token rest ambiguous).ambiguousRetired.flatMap (·.2),
      reference.generation ∈ registry.ambiguous reference.handle := by
  intro reference hmem
  obtain ⟨entry, hentry, hreference⟩ := List.mem_flatMap.mp hmem
  have hcases : entry ∈ registry.ambiguousRetired ∨ entry.2 = ambiguous := by
    rw [ambiguousRetired_publishRetired] at hentry
    split_ifs at hentry
    · exact .inl (List.mem_filter.mp hentry).1
    · exact (mem_of_mem_dictInsert hentry).imp_right fun hself => congrArg Prod.snd hself
  rcases hcases with hbefore | hnew
  · exact hconsistent.refused reference (List.mem_flatMap.mpr ⟨entry, hbefore, hreference⟩)
  · exact hknown reference (hnew ▸ hreference)

theorem Consistent.publishRetired (hconsistent : registry.Consistent)
    (hrecorded : registry.retired.lookup token = some remaining) (hrest : rest.Sublist remaining)
    (hknown : ∀ reference ∈ ambiguous,
      reference.generation ∈ registry.ambiguous reference.handle) :
    (registry.publishRetired token rest ambiguous).Consistent := by
  obtain ⟨before, after, hwaiting, hafter, hkeys⟩ :=
    @waiting_publishRetired registry token remaining rest ambiguous hconsistent hrecorded
  have hsublist : (registry.publishRetired token rest ambiguous).waiting.Sublist
      registry.waiting := by
    rw [hwaiting, hafter]
    exact (List.Sublist.append_left hrest before).append_right after
  apply hconsistent.retire le_rfl
  · exact hkeys.nodup hconsistent.keys
  · intro entry hentry
    have hkey : entry.1 ∈ registry.retired.map (·.1) :=
      hkeys.subset (List.mem_map_of_mem hentry)
    obtain ⟨found, hfound, hsame⟩ := List.mem_map.mp hkey
    exact hsame ▸ hconsistent.tokens found hfound
  · exact (hsublist.map _).nodup hconsistent.waitingOnce
  · intro reference hmem
    exact .inl (hsublist.subset hmem)
  · exact @refused_publishRetired registry token rest ambiguous hconsistent hknown

/-- One generation belongs to one number. -/
theorem eq_of_made {left right : RawGenerationReference} (hleft : registry.Made left)
    (hright : registry.Made right) (hsame : left.generation = right.generation) : left = right := by
  have hhandle := hleft.2
  rw [hsame, hright.2] at hhandle
  cases left
  cases right
  simp_all

theorem waiting_erased (hconsistent : registry.Consistent)
    (hrecorded : registry.retired.lookup token = some remaining)
    {reference : RawGenerationReference} (hmem : reference ∈ remaining) :
    (registry.publishRetired token (remaining.erase reference) ambiguous).waiting =
      registry.waiting.erase reference := by
  obtain ⟨before, after, hwaiting, hafter, _⟩ :=
    @waiting_publishRetired registry token remaining (remaining.erase reference) ambiguous
      hconsistent hrecorded
  have hnodup : registry.waiting.Nodup := List.Nodup.of_map _ hconsistent.waitingOnce
  rw [hwaiting, List.nodup_append, List.nodup_append] at hnodup
  have hbefore : reference ∉ before := fun hfound =>
    hnodup.1.2.2 reference hfound reference hmem rfl
  rw [hafter, hwaiting, List.erase_append_left _ (List.mem_append_right _ hmem),
    List.erase_append_right _ hbefore]

theorem mem_waiting_erased (hconsistent : registry.Consistent)
    (hrecorded : registry.retired.lookup token = some remaining)
    {reference other : RawGenerationReference} (hmem : reference ∈ remaining) :
    other ∈ (registry.publishRetired token (remaining.erase reference) ambiguous).waiting ↔
      other ∈ registry.waiting ∧ other ≠ reference := by
  rw [waiting_erased hconsistent hrecorded hmem,
    (List.Nodup.of_map _ hconsistent.waitingOnce).mem_erase_iff, and_comm]

theorem mem_waiting_of_lookup {reference : RawGenerationReference}
    (hrecorded : registry.retired.lookup token = some remaining)
    (hmem : reference ∈ remaining) : reference ∈ registry.waiting := by
  obtain ⟨before, after, hretired, _⟩ := List.lookup_eq_some_iff.mp hrecorded
  rw [waiting, hretired]
  simp [hmem]

/-- A reference that no longer waits is the last to its generation. -/
theorem not_retained_of_erased (hconsistent : registry.Consistent)
    (hrecorded : registry.retired.lookup token = some remaining)
    {reference : RawGenerationReference} (hmem : reference ∈ remaining) :
    ¬ (registry.publishRetired token (remaining.erase reference) ambiguous).Retained
      reference.generation := by
  have hwaits := mem_waiting_of_lookup hrecorded hmem
  have hmade := hconsistent.waitingMade reference hwaits
  rintro ⟨other, hgeneration, ⟨generation, hlive, hancestor⟩ | hother⟩
  · have hequal := eq_of_made (hconsistent.made generation other hancestor) hmade hgeneration
    exact hconsistent.waitingFree reference hwaits ⟨generation, hlive, hequal ▸ hancestor⟩
  · obtain ⟨hbefore, hne⟩ := (mem_waiting_erased hconsistent hrecorded hmem).mp hother
    exact hne (eq_of_made (hconsistent.waitingMade other hbefore) hmade hgeneration)

end Publish

end WindowsAuthorityRegistry

end SupernoteModule.Filesystem
