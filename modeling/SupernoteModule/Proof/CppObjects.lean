import SupernoteModule.Runtime.CppObjects
import Mathlib.Data.List.Nodup
import Mathlib.Data.List.Pairwise
import Mathlib.Tactic.SplitIfs
import Mathlib.Tactic.ByContra

/-!
# One JavaScript object for each native instance

The entries whose owners are left are apart in type or in address, and one of them is kept for every
object that has been made, for as long as the object and the owner are there. With that, what `wrap`
returns has been made for the very instance it is given.
-/

namespace SupernoteModule.Runtime.CppObjects

open SupernoteModule.Lib Function

variable {Host : Type*} {world : World Host} {typeId : String} {inst : SharedPtr}
  {entries : List Entry}

/-! ### The entries of a registry -/

/-- The owner of the entry is left. -/
def Entry.Live (world : World Host) (entry : Entry) : Prop :=
  entry.identity.expired world = false

/-- The entry is for this very instance: its type, its address and its owner. -/
def Entry.For (entry : Entry) (typeId : String) (inst : SharedPtr) : Prop :=
  entry.identity = ⟨typeId, inst.owner, inst.address⟩

/-- The entry is for an instance of the type at the address, whoever owns it. -/
def Entry.At (entry : Entry) (typeId : String) (address : Nat) : Prop :=
  entry.identity.typeId = typeId ∧ entry.identity.address = address

/-- Entries whose owners are left are apart in type or in address. -/
def Distinct (world : World Host) (entries : List Entry) : Prop :=
  entries.Pairwise fun left right => left.Live world → right.Live world →
    ¬ left.At right.identity.typeId right.identity.address

theorem Entry.For.at {entry : Entry} (hfor : entry.For typeId inst) :
    entry.At typeId inst.address := by
  rw [Entry.At, hfor]
  exact ⟨rfl, rfl⟩

theorem for_self {object : Nat} :
    Entry.For ⟨⟨typeId, inst.owner, inst.address⟩, object⟩ typeId inst :=
  rfl

theorem matches_iff (hsome : inst.address ≠ 0) {entry : Entry} :
    entry.identity.matches_ typeId inst = true ↔ entry.For typeId inst := by
  obtain ⟨⟨ownType, owner, address⟩, javascript⟩ := entry
  rw [CppObjectIdentity.matches_, Entry.For, CppObjectIdentity.mk.injEq]
  split_ifs with hother
  · simp only [false_iff]
    rintro ⟨htype, _, haddress⟩
    rcases hother with hnull | hne | hne
    · exact hsome hnull
    · exact hne htype
    · exact hne haddress
  · simp only [not_or, not_not] at hother
    rw [decide_eq_true_iff]
    exact ⟨fun howner => ⟨hother.2.1, howner, hother.2.2⟩, fun hall => hall.2.1⟩

theorem sameAddressAndType_iff {entry : Entry} {address : Nat} :
    entry.identity.sameAddressAndType typeId address = true ↔ entry.At typeId address := by
  rw [CppObjectIdentity.sameAddressAndType, decide_eq_true_iff, Entry.At]

theorem Distinct.eq (hdistinct : Distinct world entries) {left right : Entry}
    (hleft : left ∈ entries) (hright : right ∈ entries) (hliveLeft : left.Live world)
    (hliveRight : right.Live world) (hleftAt : left.At typeId inst.address)
    (hrightAt : right.At typeId inst.address) : left = right := by
  have hsymmetric : Std.Symm fun left right : Entry => left.Live world → right.Live world →
      ¬ left.At right.identity.typeId right.identity.address :=
    ⟨fun _ _ hapart hone hother hat => hapart hother hone ⟨hat.1.symm, hat.2.symm⟩⟩
  by_contra hne
  apply hdistinct.forall hleft hright hne hliveLeft hliveRight
  exact ⟨hleftAt.1.trans hrightAt.1.symm, hleftAt.2.trans hrightAt.2.symm⟩

theorem Distinct.mono (hdistinct : Distinct world entries) {later : World Host}
    (hlive : ∀ entry : Entry, entry.Live later → entry.Live world) : Distinct later entries :=
  hdistinct.imp fun hapart hleft hright => hapart (hlive _ hleft) (hlive _ hright)

/-! ### The loop of `wrap` -/

section Search

variable {kept : List Entry} {left : CppObjectRegistry.Search}

/-- What the loop of `wrap` does to the entries: it drops only those without an owner or an object,
and finds the one that is for the instance, or one that is for another owner at the same address. -/
structure Searched (world : World Host) (typeId : String) (inst : SharedPtr) (entries : List Entry)
    (found : List Entry × CppObjectRegistry.Search) : Prop where
  sublist : found.1.Sublist entries
  keeps : ∀ entry ∈ entries, entry.Live world → world.alive entry.javascript = true →
    entry ∈ found.1
  existing : ∀ object, found.2 = .existing object → ∃ entry ∈ found.1, entry.Live world ∧
    world.alive object = true ∧ entry.javascript = object ∧ entry.For typeId inst
  conflict : found.2 = .conflict → ∃ entry ∈ found.1, entry.Live world ∧
    entry.At typeId inst.address ∧ ¬ entry.For typeId inst
  absent : found.2 = .absent → ∀ entry ∈ found.1, entry.Live world →
    ¬ entry.At typeId inst.address

theorem search_searched (hsome : inst.address ≠ 0) (hdistinct : Distinct world entries) :
    Searched world typeId inst entries
      (CppObjectRegistry.search world typeId inst entries) := by
  induction entries with
  | nil =>
      rw [CppObjectRegistry.search]
      refine ⟨List.Sublist.refl _, fun _ hmem _ _ => hmem, ?_, ?_, fun _ => List.forall_mem_nil _⟩
      · intro object hleft
        cases hleft
      · intro hleft
        cases hleft
  | cons current rest ih =>
      obtain ⟨hfirst, hrest⟩ := List.pairwise_cons.mp hdistinct
      obtain ⟨hsublist, hkeeps, hexisting, hconflict, habsent⟩ := ih hrest
      rw [CppObjectRegistry.search]
      split_ifs with hexpired hmatches hat
      · -- The owner of the entry is gone.
        refine ⟨hsublist.cons current, ?_, hexisting, hconflict, habsent⟩
        intro entry hmem hlive halive
        rcases List.mem_cons.mp hmem with rfl | hmem
        · rw [Entry.Live, hexpired] at hlive
          cases hlive
        · exact hkeeps entry hmem hlive halive
      · have hlive : current.Live world := Bool.eq_false_iff.mpr hexpired
        have hfor : current.For typeId inst := (matches_iff hsome).mp hmatches
        cases hlock : world.lock current.javascript with
        | some object =>
            obtain ⟨halive, hlocked⟩ := Option.ite_none_right_eq_some.mp hlock
            have hobject : current.javascript = object := Option.some.inj hlocked
            refine ⟨List.Sublist.refl _, fun _ hmem _ _ => hmem, ?_, (by simp), (by simp)⟩
            intro found hleft
            cases hleft
            exact ⟨current, List.mem_cons_self, hlive, hobject ▸ halive, hobject, hfor⟩
        | none =>
            -- The entries that are not looked at are apart from the one that is erased.
            refine ⟨List.sublist_cons_self _ _, ?_, (by simp), (by simp), ?_⟩
            · intro entry hmem _ halive
              rcases List.mem_cons.mp hmem with rfl | hmem
              · rw [World.lock, if_pos halive] at hlock
                cases hlock
              · exact hmem
            · intro _ entry hmem hentry hat
              apply hfirst entry hmem hlive hentry
              exact ⟨hfor.at.1.trans hat.1.symm, hfor.at.2.trans hat.2.symm⟩
      · have hlive : current.Live world := Bool.eq_false_iff.mpr hexpired
        refine ⟨List.Sublist.refl _, fun _ hmem _ _ => hmem, (by simp), ?_, (by simp)⟩
        intro _
        refine ⟨current, List.mem_cons_self, hlive, sameAddressAndType_iff.mp hat, ?_⟩
        exact fun hfor => hmatches ((matches_iff hsome).mpr hfor)
      · -- The entry is for something else.
        dsimp only
        refine ⟨hsublist.cons_cons current, ?_, ?_, ?_, ?_⟩
        · intro entry hmem hlive halive
          rcases List.mem_cons.mp hmem with rfl | hmem
          · exact List.mem_cons_self
          · exact List.mem_cons_of_mem _ (hkeeps entry hmem hlive halive)
        · intro object hleft
          obtain ⟨entry, hmem, hentry⟩ := hexisting object hleft
          exact ⟨entry, List.mem_cons_of_mem _ hmem, hentry⟩
        · intro hleft
          obtain ⟨entry, hmem, hentry⟩ := hconflict hleft
          exact ⟨entry, List.mem_cons_of_mem _ hmem, hentry⟩
        · intro hleft entry hmem hlive hentry
          rcases List.mem_cons.mp hmem with rfl | hmem
          · exact hat (sameAddressAndType_iff.mpr hentry)
          · exact habsent hleft entry hmem hlive hentry

end Search

/-! ### The invariant -/

variable {state : State Host} {history : List Event} {runtime : Nat}
  {factory : SharedPtr → Except String Host}

/-- The registry has been used on no other runtime. -/
def State.On (state : State Host) (runtime : Nat) : Prop :=
  ∀ known ∈ state.registry.runtime, known = runtime

/-- What the registry and the objects that have been made say of each other. -/
structure Sound (runtime : Nat) (state : State Host) (history : List Event) : Prop where
  own : state.On runtime
  distinct : Distinct state.world state.registry.entries
  recorded : ∀ entry ∈ state.registry.entries, .created entry.identity.typeId
    ⟨entry.identity.owner, entry.identity.address⟩ entry.javascript ∈ history
  kept : ∀ typeId inst object, .created typeId inst object ∈ history →
    state.world.alive object = true → state.world.ownerExpired inst.owner = false →
      ⟨⟨typeId, inst.owner, inst.address⟩, object⟩ ∈ state.registry.entries
  made : ∀ typeId inst object, .created typeId inst object ∈ history → object < state.world.next
  given : ∀ typeId inst object, .created typeId inst object ∈ history → inst.address ≠ 0
  once : (history.map fun | .created _ _ object => object).Nodup

/-- What `wrap` does on the runtime of the registry. -/
inductive Wraps (state : State Host) (runtime : Nat) (typeId : String) (inst : SharedPtr)
    (factory : SharedPtr → Except String Host) : Except String Nat → State Host → Prop where
  | null : inst.address = 0 → Wraps state runtime typeId inst factory
      (.error "a native object result cannot be null")
      ⟨{ state.registry with runtime := some runtime }, state.world⟩
  | conflict (kept : List Entry) :
      Searched state.world typeId inst state.registry.entries (kept, .conflict) →
      Wraps state runtime typeId inst factory
        (.error "conflicting C++ shared owners for one live native address")
        ⟨⟨some runtime, kept⟩, state.world⟩
  | existing (kept : List Entry) (object : Nat) :
      Searched state.world typeId inst state.registry.entries (kept, .existing object) →
      Wraps state runtime typeId inst factory (.ok object) ⟨⟨some runtime, kept⟩, state.world⟩
  | refused (kept : List Entry) (error : String) :
      Searched state.world typeId inst state.registry.entries (kept, .absent) →
      typeId = "" ∨ factory inst = .error error →
      Wraps state runtime typeId inst factory (.error error) ⟨⟨some runtime, kept⟩, state.world⟩
  | created (kept : List Entry) (host : Host) :
      Searched state.world typeId inst state.registry.entries (kept, .absent) →
      typeId ≠ "" → inst.address ≠ 0 → factory inst = .ok host →
      Wraps state runtime typeId inst factory (.ok state.world.next)
        ⟨⟨some runtime, kept ++ [⟨⟨typeId, inst.owner, inst.address⟩, state.world.next⟩]⟩,
          state.world.createFromHostObject host⟩

theorem assertRuntime_of_on (hon : state.On runtime) :
    state.registry.assertRuntime runtime =
      .ok { state.registry with runtime := some runtime } := by
  obtain ⟨⟨known, entries⟩, world⟩ := state
  rw [CppObjectRegistry.assertRuntime]
  cases known with
  | none => rfl
  | some known =>
      obtain rfl := hon known rfl
      simp

theorem wrap_wraps (hon : state.On runtime)
    (hdistinct : Distinct state.world state.registry.entries) :
    Wraps state runtime typeId inst factory (state.wrap runtime typeId inst factory).1
      (state.wrap runtime typeId inst factory).2 := by
  rw [State.wrap, CppObjectRegistry.wrap, assertRuntime_of_on hon]
  dsimp only
  by_cases hnull : inst.address = 0
  · rw [if_pos hnull]
    exact .null hnull
  · rw [if_neg hnull]
    have hsearched := @search_searched _ _ typeId _ _ hnull hdistinct
    generalize CppObjectRegistry.search state.world typeId inst state.registry.entries = found
      at hsearched ⊢
    obtain ⟨kept, left⟩ := found
    cases left with
    | existing object => exact .existing kept object hsearched
    | conflict => exact .conflict kept hsearched
    | absent =>
        dsimp only
        by_cases hempty : typeId = ""
        · rw [CppObjectIdentity.from_, if_pos (.inl hempty)]
          exact .refused kept _ hsearched (.inl hempty)
        · rw [CppObjectIdentity.from_, if_neg (not_or.mpr ⟨hempty, hnull⟩)]
          dsimp only
          cases hfactory : factory inst with
          | error error => exact .refused kept error hsearched (.inr hfactory)
          | ok host => exact .created kept host hsearched hempty hnull hfactory

/-! ### What a step keeps -/

theorem Sound.searched (hsound : Sound runtime state history)
    {found : List Entry × CppObjectRegistry.Search}
    (hsearched : Searched state.world typeId inst state.registry.entries found) :
    Sound runtime ⟨⟨some runtime, found.1⟩, state.world⟩ history where
  own _ hknown := (Option.some.inj hknown).symm
  distinct := hsound.distinct.sublist hsearched.sublist
  recorded entry hmem := hsound.recorded entry (hsearched.sublist.subset hmem)
  kept typeId inst object hcreated halive howner :=
    hsearched.keeps _ (hsound.kept typeId inst object hcreated halive howner) howner halive
  made := hsound.made
  given := hsound.given
  once := hsound.once

theorem Sound.create (hsound : Sound runtime state history) (hsome : inst.address ≠ 0)
    (habsent : ∀ entry ∈ state.registry.entries, entry.Live state.world →
      ¬ entry.At typeId inst.address) (host : Host) :
    Sound runtime
      ⟨⟨state.registry.runtime, state.registry.entries ++
        [⟨⟨typeId, inst.owner, inst.address⟩, state.world.next⟩]⟩,
        state.world.createFromHostObject host⟩
      (history ++ [.created typeId inst state.world.next]) where
  own := hsound.own
  distinct := by
    rw [Distinct, List.pairwise_append]
    refine ⟨hsound.distinct, List.pairwise_singleton _ _, ?_⟩
    intro entry hmem new hnew hlive _
    obtain rfl := List.mem_singleton.mp hnew
    exact habsent entry hmem hlive
  recorded entry hmem := by
    rcases List.mem_append.mp hmem with hmem | hmem
    · exact List.mem_append_left _ (hsound.recorded entry hmem)
    · obtain rfl := List.mem_singleton.mp hmem
      exact List.mem_append_right _ (List.mem_singleton_self _)
  kept otherType other object hcreated halive howner := by
    rcases List.mem_append.mp hcreated with hcreated | hcreated
    · have hne : object ≠ state.world.next :=
        Nat.ne_of_lt (hsound.made otherType other object hcreated)
      have hafter : update state.world.alive state.world.next true object = true := halive
      have hbefore : state.world.alive object = true := by
        rwa [update_of_ne hne] at hafter
      exact List.mem_append_left _
        (hsound.kept otherType other object hcreated hbefore howner)
    · obtain ⟨rfl, rfl, rfl⟩ := Event.created.inj (List.mem_singleton.mp hcreated)
      exact List.mem_append_right _ (List.mem_singleton_self _)
  made otherType other object hcreated := by
    rcases List.mem_append.mp hcreated with hcreated | hcreated
    · exact Nat.lt_succ_of_lt (hsound.made otherType other object hcreated)
    · obtain ⟨_, _, rfl⟩ := Event.created.inj (List.mem_singleton.mp hcreated)
      exact Nat.lt_succ_self _
  given otherType other object hcreated := by
    rcases List.mem_append.mp hcreated with hcreated | hcreated
    · exact hsound.given otherType other object hcreated
    · obtain ⟨_, rfl, _⟩ := Event.created.inj (List.mem_singleton.mp hcreated)
      exact hsome
  once := by
    rw [List.map_append, List.map_singleton, ← List.concat_eq_append]
    apply hsound.once.concat
    intro hmem
    obtain ⟨⟨otherType, other, object⟩, hcreated, hobject⟩ := List.mem_map.mp hmem
    have hbound := hsound.made otherType other object hcreated
    exact absurd hobject (Nat.ne_of_lt hbound)

/-- The object that a call of `wrap` has made, if it has made one. -/
def created (typeId : String) (inst : SharedPtr) (state after : State Host) : List Event :=
  if after.world.next = state.world.next then [] else [.created typeId inst state.world.next]

theorem created_self {registry : CppObjectRegistry} :
    created typeId inst state ⟨registry, state.world⟩ = [] :=
  if_pos rfl

theorem created_new {registry : CppObjectRegistry} {host : Host} :
    created typeId inst state ⟨registry, state.world.createFromHostObject host⟩ =
      [.created typeId inst state.world.next] :=
  if_neg (Nat.succ_ne_self _)

theorem Sound.wraps (hsound : Sound runtime state history) {result : Except String Nat}
    {after : State Host} (hwraps : Wraps state runtime typeId inst factory result after) :
    Sound runtime after (history ++ created typeId inst state after) := by
  cases hwraps with
  | null hnull =>
      rw [created_self, List.append_nil]
      exact { hsound with own := fun known hknown => (Option.some.inj hknown).symm }
  | conflict kept hsearched =>
      rw [created_self, List.append_nil]
      exact hsound.searched hsearched
  | existing kept object hsearched =>
      rw [created_self, List.append_nil]
      exact hsound.searched hsearched
  | refused kept error hsearched _ =>
      rw [created_self, List.append_nil]
      exact hsound.searched hsearched
  | created kept host hsearched _ hsome _ =>
      rw [created_new]
      exact (hsound.searched hsearched).create hsome (hsearched.absent rfl) host

theorem Sound.purge (hsound : Sound runtime state history) :
    Sound runtime { state with registry := (state.registry.purge state.world runtime).2 }
      history := by
  rw [CppObjectRegistry.purge, assertRuntime_of_on hsound.own]
  refine ⟨fun known hknown => (Option.some.inj hknown).symm,
    hsound.distinct.sublist List.filter_sublist, ?_, ?_, hsound.made, hsound.given,
    hsound.once⟩
  · exact fun entry hmem => hsound.recorded entry (List.mem_of_mem_filter hmem)
  · intro typeId inst object hcreated halive howner
    refine List.mem_filter.mpr ⟨hsound.kept typeId inst object hcreated halive howner, ?_⟩
    rw [decide_eq_true_iff, not_or]
    constructor
    · rw [CppObjectIdentity.expired, howner]
      exact Bool.false_ne_true
    · rw [World.lock, if_pos halive]
      exact Option.some_ne_none _

/-- An owner that goes only takes entries out of consideration. -/
theorem Sound.expire (hsound : Sound runtime state history) (owner : Nat) :
    Sound runtime { state with
      world := { state.world with expired := update state.world.expired owner true } } history := by
  have howners : ∀ other : Option Nat, ({ state.world with
      expired := update state.world.expired owner true } : World Host).ownerExpired other = false →
        state.world.ownerExpired other = false := by
    intro other hother
    cases other with
    | none => exact hother
    | some other =>
        have hafter : update state.world.expired owner true other = false := hother
        by_cases hsame : other = owner
        · rw [hsame, update_self] at hafter
          cases hafter
        · rwa [update_of_ne hsame] at hafter
  refine ⟨hsound.own, hsound.distinct.mono fun entry => howners _, hsound.recorded, ?_, hsound.made,
    hsound.given, hsound.once⟩
  intro typeId inst object hcreated halive howner
  exact hsound.kept typeId inst object hcreated halive (howners _ howner)

theorem Sound.collect (hsound : Sound runtime state history) (object : Nat) :
    Sound runtime { state with
      world := { state.world with alive := update state.world.alive object false } } history := by
  refine ⟨hsound.own, hsound.distinct, hsound.recorded, ?_, hsound.made, hsound.given,
    hsound.once⟩
  intro typeId inst other hcreated halive howner
  refine hsound.kept typeId inst other hcreated ?_ howner
  have hafter : update state.world.alive object false other = true := halive
  by_cases hsame : other = object
  · rw [hsame, update_self] at hafter
    cases hafter
  · rwa [update_of_ne hsame] at hafter

theorem sound_invariant : (objectMachine Host runtime).Invariant (Sound runtime) where
  init :=
    ⟨fun _ hknown => (by cases hknown), List.Pairwise.nil, List.forall_mem_nil _,
      fun _ _ _ hcreated => absurd hcreated List.not_mem_nil,
      fun _ _ _ hcreated => absurd hcreated List.not_mem_nil,
      fun _ _ _ hcreated => absurd hcreated List.not_mem_nil, List.nodup_nil⟩
  step label state history hsound _ := by
    cases label with
    | wrap typeId inst factory => exact hsound.wraps (wrap_wraps hsound.own hsound.distinct)
    | purge => exact Machine.keeps_of_silent rfl hsound.purge
    | expire owner => exact Machine.keeps_of_silent rfl (hsound.expire owner)
    | collect object => exact Machine.keeps_of_silent rfl (hsound.collect object)

/-! ### What a caller gets -/

/-- What `wrap` promises for an instance, whatever has been done before. -/
structure Promise (state : State Host) (history : List Event) (typeId : String) (inst : SharedPtr)
    (factory : SharedPtr → Except String Host) (result : Except String Nat) (after : State Host) :
    Prop where
  existing : ∀ object, .created typeId inst object ∈ history → state.world.alive object = true →
    inst.owner.isSome → result = .ok object
  returns : ∀ object, result = .ok object →
    (.created typeId inst object ∈ history ∧ state.world.alive object = true ∧
      created typeId inst state after = []) ∨
    ((∀ otherType other, .created otherType other object ∉ history) ∧
      created typeId inst state after = [.created typeId inst object] ∧
      ∃ host, factory inst = .ok host ∧ after.world.hosts object = some host)
  raises : ∀ error, result = .error error →
    inst.address = 0 ∨ typeId = "" ∨ factory inst = .error error ∨
      ∃ entry ∈ state.registry.entries, entry.Live state.world ∧ entry.At typeId inst.address ∧
        entry.identity.owner ≠ inst.owner

/-- An object that is alive keeps the search from missing it. -/
theorem Searched.finds (hsound : Sound runtime state history)
    {found : List Entry × CppObjectRegistry.Search}
    (hsearched : Searched state.world typeId inst state.registry.entries found) {object : Nat}
    (hcreated : .created typeId inst object ∈ history) (halive : state.world.alive object = true)
    (howner : state.world.ownerExpired inst.owner = false) : found.2 = .existing object := by
  have hmem := hsound.kept typeId inst object hcreated halive howner
  have hkept := hsearched.keeps _ hmem howner halive
  cases hleft : found.2 with
  | existing other =>
      obtain ⟨entry, hentry, hlive, _, rfl, hfor⟩ := hsearched.existing other hleft
      have hsame := hsound.distinct.eq (hsearched.sublist.subset hentry) hmem hlive howner hfor.at
        for_self.at
      rw [hsame]
  | conflict =>
      obtain ⟨entry, hentry, hlive, hat, hother⟩ := hsearched.conflict hleft
      have hsame := hsound.distinct.eq (hsearched.sublist.subset hentry) hmem hlive howner hat
        for_self.at
      exact absurd (hsame ▸ rfl) hother
  | absent => exact absurd for_self.at (hsearched.absent hleft _ hkept howner)

theorem ownerExpired_of_holds (hholds : state.Holds inst) (howner : inst.owner.isSome) :
    state.world.ownerExpired inst.owner = false := by
  obtain ⟨owner, hsome⟩ := Option.isSome_iff_exists.mp howner
  rw [hsome]
  exact hholds owner hsome

theorem Sound.promise (hsound : Sound runtime state history) (hholds : state.Holds inst)
    {result : Except String Nat} {after : State Host}
    (hwraps : Wraps state runtime typeId inst factory result after) :
    Promise state history typeId inst factory result after := by
  have hfinds : ∀ {found}, Searched state.world typeId inst state.registry.entries found →
      ∀ object, .created typeId inst object ∈ history → state.world.alive object = true →
        inst.owner.isSome → found.2 = .existing object :=
    fun hsearched object hcreated halive howner =>
      hsearched.finds hsound hcreated halive (ownerExpired_of_holds hholds howner)
  cases hwraps with
  | null hnull =>
      refine ⟨?_, fun _ hok => (by cases hok), fun _ _ => .inl hnull⟩
      intro object hcreated _ _
      exact absurd hnull (hsound.given typeId inst object hcreated)
  | conflict kept hsearched =>
      refine ⟨?_, fun _ hok => (by cases hok), ?_⟩
      · intro object hcreated halive howner
        cases hfinds hsearched object hcreated halive howner
      · intro _ _
        obtain ⟨entry, hmem, hlive, hat, hother⟩ := hsearched.conflict rfl
        refine .inr (.inr (.inr ⟨entry, hsearched.sublist.subset hmem, hlive, hat, ?_⟩))
        intro howner
        apply hother
        rw [Entry.For, ← hat.1, ← hat.2, ← howner]
  | existing kept object hsearched =>
      obtain ⟨entry, hmem, _, halive, rfl, hfor⟩ := hsearched.existing object rfl
      refine ⟨?_, ?_, fun _ herror => (by cases herror)⟩
      · intro other hcreated hother howner
        rw [(CppObjectRegistry.Search.existing.inj
          (hfinds hsearched other hcreated hother howner))]
      · intro object hok
        cases hok
        have hrecorded := hsound.recorded entry (hsearched.sublist.subset hmem)
        rw [hfor] at hrecorded
        exact .inl ⟨hrecorded, halive, created_self⟩
  | refused kept error hsearched hrefused =>
      refine ⟨?_, fun _ hok => (by cases hok), ?_⟩
      · intro object hcreated halive howner
        cases hfinds hsearched object hcreated halive howner
      · intro error herror
        cases herror
        exact .inr (hrefused.imp id .inl)
  | created kept host hsearched _ _ hfactory =>
      refine ⟨?_, ?_, fun _ herror => (by cases herror)⟩
      · intro object hcreated halive howner
        cases hfinds hsearched object hcreated halive howner
      · intro object hok
        cases hok
        refine .inr ⟨?_, created_new, host, hfactory, update_self _ _ _⟩
        intro otherType other hcreated
        exact absurd (hsound.made otherType other _ hcreated) (Nat.lt_irrefl _)

/-- **An instance has one JavaScript object at a time.** Whatever is wrapped, purged, collected or
released in whatever order, no two entries are for one type and one address as long as their owners
are left, no object is made twice, and `wrap` keeps its promise. -/
theorem wrap_keeps_identity (hreach : (objectMachine Host runtime).Reaches state history) :
    Distinct state.world state.registry.entries ∧
      (history.map fun | .created _ _ object => object).Nodup ∧
      ∀ typeId inst factory, state.Holds inst → Promise state history typeId inst factory
        (state.wrap runtime typeId inst factory).1 (state.wrap runtime typeId inst factory).2 := by
  have hsound := hreach.invariant sound_invariant
  refine ⟨hsound.distinct, hsound.once, ?_⟩
  intro typeId inst factory hholds
  exact hsound.promise hholds (wrap_wraps hsound.own hsound.distinct)

def wrappedOnce : State Unit :=
  (State.init.wrap 1 "t" ⟨some 0, 8⟩ fun _ => .ok ()).2

/-- The second call finds what the first has made. -/
theorem wrap_keeps_identity_again :
    (wrappedOnce.wrap 1 "t" ⟨some 0, 8⟩ fun _ => .ok ()).1 = .ok 0 := by
  have hholds : (State.init : State Unit).Holds ⟨some 0, 8⟩ := fun _ _ => rfl
  have hreach := @Machine.Reaches.step _ _ _ (objectMachine Unit 1) _ _
    (Label.wrap "t" ⟨some 0, 8⟩ fun _ => .ok ()) .init hholds
  have hpromise := (wrap_keeps_identity hreach).2.2 "t" ⟨some 0, 8⟩ (fun _ => .ok ())
    fun _ _ => rfl
  exact hpromise.existing 0 (List.mem_singleton_self _) rfl rfl

/-- A name is required as well as an instance, and an instance that nobody owns is wrapped again
while its object is alive. -/
theorem wrap_refuses_and_forgets :
    ((State.init : State Unit).wrap 1 "" ⟨some 0, 8⟩ fun _ => .ok ()).1 =
        .error "C++ object identity requires nominal identity and an instance" ∧
      let once := ((State.init : State Unit).wrap 1 "t" ⟨none, 8⟩ fun _ => .ok ()).2
      once.world.alive 0 = true ∧ (once.wrap 1 "t" ⟨none, 8⟩ fun _ => .ok ()).1 = .ok 1 :=
  ⟨rfl, rfl, rfl⟩

end SupernoteModule.Runtime.CppObjects
