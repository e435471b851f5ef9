import SupernoteModule.Runtime.JvmObjects
import Mathlib.Data.List.Nodup
import Mathlib.Tactic.SplitIfs
import Mathlib.Tactic.ByContra

/-!
# One JavaScript object for each JVM instance

No two entries are for one type and one instance, and every object that is alive has its entry. An
object that is alive holds its instance, so the instance has not been reclaimed, and `wrap` finds it
whatever the identity hashes are.
-/

namespace SupernoteModule.Runtime.JvmObjects

open SupernoteModule.Lib Function

variable {world : World} {typeId : String} {inst : Nat} {hash : Int} {entries : List Entry}
  {inspections : List Inspection}

/-! ### The entries of a registry -/

/-- The type and the instance that an entry is for. -/
def Entry.key (entry : Entry) : String × Nat :=
  (entry.typeId, entry.inst)

/-- The entries have the hashes that the JVM gives. -/
def Hashed (world : World) (entries : List Entry) : Prop :=
  ∀ entry ∈ entries, entry.identityHash = world.identityHashCode entry.inst

theorem eq_of_key (hnodup : (entries.map Entry.key).Nodup) {left right : Entry}
    (hleft : left ∈ entries) (hright : right ∈ entries) (hkey : left.key = right.key) :
    left = right :=
  List.inj_on_of_nodup_map hnodup hleft hright hkey

/-! ### The loop of `wrap` -/

/-- JNI raises no exception. -/
def Quiet (inspections : List Inspection) : Prop :=
  ∀ inspection ∈ inspections, inspection = .answers

theorem Quiet.headD (hquiet : Quiet inspections) : inspections.headD .answers = .answers := by
  cases inspections with
  | nil => rfl
  | cons inspection rest => exact hquiet inspection List.mem_cons_self

theorem Quiet.tail (hquiet : Quiet inspections) : Quiet inspections.tail :=
  fun inspection hmem => hquiet inspection (List.mem_of_mem_tail hmem)

/-- What the loop of `wrap` does to the entries: it drops only those without an instance or an
object, and misses none that is for the instance. -/
structure Searched (world : World) (typeId : String) (inst : Nat) (inspections : List Inspection)
    (entries : List Entry) (found : List Entry × JvmObjectRegistry.Search) : Prop where
  sublist : found.1.Sublist entries
  keeps : ∀ entry ∈ entries, world.reclaimed entry.inst = false →
    world.alive entry.javascript = true → entry ∈ found.1
  existing : ∀ object, found.2 = .existing object → world.alive object = true ∧
    ∃ entry ∈ found.1, entry.javascript = object ∧ entry.key = (typeId, inst)
  raised : ∀ error, found.2 = .raised error → ¬ Quiet inspections
  absent : found.2 = .absent → ∀ entry ∈ found.1, entry.key ≠ (typeId, inst)

variable {current : Entry} {rest kept : List Entry} {left : JvmObjectRegistry.Search}

/-- The loop goes on behind an entry that it keeps. -/
theorem Searched.cons (hsearched : Searched world typeId inst inspections.tail rest (kept, left))
    (hkey : current.key ≠ (typeId, inst)) :
    Searched world typeId inst inspections (current :: rest) (current :: kept, left) where
  sublist := hsearched.sublist.cons_cons current
  keeps entry hmem hlive halive := by
    rcases List.mem_cons.mp hmem with rfl | hmem
    · exact List.mem_cons_self
    · exact List.mem_cons_of_mem _ (hsearched.keeps entry hmem hlive halive)
  existing object hleft := by
    obtain ⟨halive, entry, hmem, hentry⟩ := hsearched.existing object hleft
    exact ⟨halive, entry, List.mem_cons_of_mem _ hmem, hentry⟩
  raised error hleft hquiet := hsearched.raised error hleft hquiet.tail
  absent hleft entry hmem := by
    rcases List.mem_cons.mp hmem with rfl | hmem
    · exact hkey
    · exact hsearched.absent hleft entry hmem

/-- The loop goes on behind an entry that it erases. -/
theorem Searched.erased (hsearched : Searched world typeId inst inspections.tail rest (kept, left))
    (hgone : world.reclaimed current.inst = true) :
    Searched world typeId inst inspections (current :: rest) (kept, left) where
  sublist := hsearched.sublist.cons current
  keeps entry hmem hlive halive := by
    rcases List.mem_cons.mp hmem with rfl | hmem
    · rw [hgone] at hlive
      cases hlive
    · exact hsearched.keeps entry hmem hlive halive
  existing := hsearched.existing
  raised error hleft hquiet := hsearched.raised error hleft hquiet.tail
  absent := hsearched.absent

/-- The loop is left with an exception. -/
theorem Searched.stopped (error : String) (hquiet : ¬ Quiet inspections) :
    Searched world typeId inst inspections entries (entries, .raised error) where
  sublist := List.Sublist.refl _
  keeps entry hmem _ _ := hmem
  existing object hleft := by cases hleft
  raised _ _ := hquiet
  absent hleft := by cases hleft

theorem search_searched (hnodup : (entries.map Entry.key).Nodup) (hhashed : Hashed world entries)
    (hhash : hash = world.identityHashCode inst) :
    Searched world typeId inst inspections entries
      (JvmObjectRegistry.search world typeId inst hash inspections entries) := by
  induction entries generalizing inspections with
  | nil =>
      rw [JvmObjectRegistry.search]
      refine ⟨List.Sublist.refl _, fun _ hmem => absurd hmem List.not_mem_nil,
        fun _ hleft => (by cases hleft), fun _ hleft => (by cases hleft),
        fun _ _ hmem => absurd hmem List.not_mem_nil⟩
  | cons current rest ih =>
      rw [List.map_cons, List.nodup_cons] at hnodup
      have hrest := @ih inspections.tail hnodup.2 fun entry hmem =>
        hhashed entry (List.mem_cons_of_mem _ hmem)
      rw [JvmObjectRegistry.search]
      dsimp only
      by_cases hinspecting : inspections.headD .answers = .inspecting
      · rw [if_pos hinspecting]
        apply Searched.stopped
        intro hquiet
        rw [hquiet.headD] at hinspecting
        cases hinspecting
      · rw [if_neg hinspecting]
        by_cases hgone : world.reclaimed current.inst = true
        · rw [if_pos hgone]
          exact hrest.erased hgone
        · rw [if_neg hgone]
          by_cases hother : current.identityHash ≠ hash ∨ current.typeId ≠ typeId
          · rw [if_pos hother]
            apply hrest.cons
            intro hkey
            obtain ⟨htype, hinst⟩ := Prod.mk.inj hkey
            rcases hother with hhashes | htypes
            · apply hhashes
              rw [hhashed current List.mem_cons_self, hhash, hinst]
            · exact htypes htype
          · rw [if_neg hother]
            obtain ⟨-, htype⟩ := not_or.mp hother
            by_cases hcomparing : inspections.headD .answers = .comparing
            · rw [if_pos hcomparing]
              apply Searched.stopped
              intro hquiet
              rw [hquiet.headD] at hcomparing
              cases hcomparing
            · rw [if_neg hcomparing]
              by_cases hinst : current.inst ≠ inst
              · rw [if_pos hinst]
                exact hrest.cons fun hkey => hinst (Prod.mk.inj hkey).2
              · rw [if_neg hinst]
                have hkey : current.key = (typeId, inst) :=
                  Prod.ext (not_not.mp htype) (not_not.mp hinst)
                cases hlock : world.lock current.javascript with
                | some object =>
                    obtain ⟨halive, hlocked⟩ := Option.ite_none_right_eq_some.mp hlock
                    obtain rfl : current.javascript = object := Option.some.inj hlocked
                    refine ⟨List.Sublist.refl _, fun entry hmem _ _ => hmem, ?_,
                      fun _ hleft => (by cases hleft), fun hleft => (by cases hleft)⟩
                    intro object hleft
                    obtain rfl := JvmObjectRegistry.Search.existing.inj hleft
                    exact ⟨halive, current, List.mem_cons_self, rfl, hkey⟩
                | none =>
                    refine ⟨List.sublist_cons_self _ _, ?_, fun _ hleft => (by cases hleft),
                      fun _ hleft => (by cases hleft), ?_⟩
                    · intro entry hmem _ halive
                      rcases List.mem_cons.mp hmem with rfl | hmem
                      · rw [World.lock, if_pos halive] at hlock
                        cases hlock
                      · exact hmem
                    · intro _ entry hmem hsame
                      apply hnodup.1
                      rw [hkey, ← hsame]
                      exact List.mem_map_of_mem hmem

/-! ### The invariant -/

variable {state : State} {history : List Event} {runtime : Nat} {given : Option Nat}
  {factory : ManagedJvmRef → Except String HostObject} {weakAllocated : Bool}
  {identityHashCode : Nat → Int}

/-- The registry has been used on no other runtime. -/
def State.On (state : State) (runtime : Nat) : Prop :=
  ∀ known ∈ state.registry.runtime, known = runtime

/-- What the registry and the objects that have been made say of each other. -/
structure Sound (runtime : Nat) (state : State) (history : List Event) : Prop where
  own : state.On runtime
  distinct : (state.registry.entries.map Entry.key).Nodup
  hashed : Hashed state.world state.registry.entries
  recorded : ∀ entry ∈ state.registry.entries,
    .created entry.typeId entry.inst entry.javascript ∈ history
  kept : ∀ typeId inst object, .created typeId inst object ∈ history →
    state.world.alive object = true →
      ⟨typeId, state.world.identityHashCode inst, inst, object⟩ ∈ state.registry.entries
  held : ∀ typeId inst object, .created typeId inst object ∈ history →
    state.world.alive object = true →
      (∃ host, state.world.hosts object = some host ∧ host.managed = ⟨typeId, inst⟩) ∧
        state.world.reclaimed inst = false
  made : ∀ typeId inst object, .created typeId inst object ∈ history → object < state.world.next
  once : (history.map fun | .created _ _ object => object).Nodup

/-- What `wrap` does on the runtime of the registry. -/
inductive Wraps (state : State) (runtime : Nat) (typeId : String) (inst : Nat)
    (factory : ManagedJvmRef → Except String HostObject) (inspections : List Inspection)
    (weakAllocated : Bool) : Except String Nat → State → Prop where
  | unnamed (error : String) : typeId = "" →
      Wraps state runtime typeId inst factory inspections weakAllocated (.error error)
        ⟨⟨some runtime, state.registry.entries⟩, state.world⟩
  | existing (kept : List Entry) (object : Nat) :
      Searched state.world typeId inst inspections state.registry.entries
        (kept, .existing object) →
      Wraps state runtime typeId inst factory inspections weakAllocated (.ok object)
        ⟨⟨some runtime, kept⟩, state.world⟩
  | raised (kept : List Entry) (error : String) :
      Searched state.world typeId inst inspections state.registry.entries (kept, .raised error) →
      Wraps state runtime typeId inst factory inspections weakAllocated (.error error)
        ⟨⟨some runtime, kept⟩, state.world⟩
  | refused (kept : List Entry) (error : String) :
      Searched state.world typeId inst inspections state.registry.entries (kept, .absent) →
      weakAllocated = false ∨ factory ⟨typeId, inst⟩ = .error error →
      Wraps state runtime typeId inst factory inspections weakAllocated (.error error)
        ⟨⟨some runtime, kept⟩, state.world⟩
  | created (kept : List Entry) (host : HostObject) :
      Searched state.world typeId inst inspections state.registry.entries (kept, .absent) →
      factory ⟨typeId, inst⟩ = .ok host →
      Wraps state runtime typeId inst factory inspections weakAllocated (.ok state.world.next)
        ⟨⟨some runtime, kept ++
          [⟨typeId, state.world.identityHashCode inst, inst, state.world.next⟩]⟩,
          state.world.createFromHostObject host⟩

theorem assertRuntime_of_on (hon : state.On runtime) :
    state.registry.assertRuntime runtime =
      .ok { state.registry with runtime := some runtime } := by
  obtain ⟨⟨known, entries⟩, world⟩ := state
  rw [JvmObjectRegistry.assertRuntime]
  cases known with
  | none => rfl
  | some known =>
      obtain rfl := hon known rfl
      simp

theorem wrap_wraps (hsound : Sound runtime state history) :
    Wraps state runtime typeId inst factory inspections weakAllocated
      (state.wrap runtime typeId (some inst) factory inspections weakAllocated).1
      (state.wrap runtime typeId (some inst) factory inspections weakAllocated).2 := by
  rw [State.wrap, JvmObjectRegistry.wrap, assertRuntime_of_on hsound.own]
  dsimp only [Option.getD_some]
  by_cases hempty : typeId = ""
  · rw [if_pos hempty]
    exact .unnamed _ hempty
  · rw [if_neg hempty]
    have hsearched := @search_searched _ typeId inst _ _ inspections hsound.distinct hsound.hashed
      rfl
    generalize JvmObjectRegistry.search state.world typeId inst
      (state.world.identityHashCode inst) inspections state.registry.entries = found at hsearched ⊢
    obtain ⟨kept, left⟩ := found
    cases left with
    | existing object => exact .existing kept object hsearched
    | raised error => exact .raised kept error hsearched
    | absent =>
        dsimp only
        cases weakAllocated with
        | false =>
            rw [if_pos Bool.false_ne_true]
            exact .refused kept _ hsearched (.inl rfl)
        | true =>
            rw [if_neg (not_not.mpr rfl)]
            cases hfactory : factory ⟨typeId, inst⟩ with
            | error error => exact .refused kept error hsearched (.inr hfactory)
            | ok host => exact .created kept host hsearched hfactory

theorem wrap_none (hon : state.On runtime) :
    (state.wrap runtime typeId none factory inspections weakAllocated).2 =
      ⟨⟨some runtime, state.registry.entries⟩, state.world⟩ := by
  rw [State.wrap, JvmObjectRegistry.wrap, assertRuntime_of_on hon]

/-! ### What a step keeps -/

/-- Entries can be dropped as long as every object that is alive keeps its own. -/
theorem Sound.drop (hsound : Sound runtime state history) {kept : List Entry}
    (hsublist : kept.Sublist state.registry.entries)
    (hkeeps : ∀ entry ∈ state.registry.entries, state.world.reclaimed entry.inst = false →
      state.world.alive entry.javascript = true → entry ∈ kept) :
    Sound runtime ⟨⟨some runtime, kept⟩, state.world⟩ history where
  own _ hknown := (Option.some.inj hknown).symm
  distinct := hsound.distinct.sublist (hsublist.map _)
  hashed entry hmem := hsound.hashed entry (hsublist.subset hmem)
  recorded entry hmem := hsound.recorded entry (hsublist.subset hmem)
  kept typeId inst object hcreated halive :=
    hkeeps _ (hsound.kept typeId inst object hcreated halive)
      (hsound.held typeId inst object hcreated halive).2 halive
  held := hsound.held
  made := hsound.made
  once := hsound.once

theorem Sound.create (hsound : Sound runtime state history)
    (habsent : ∀ entry ∈ state.registry.entries, entry.key ≠ (typeId, inst))
    (hlive : state.world.reclaimed inst = false) {host : HostObject}
    (hmanaged : host.managed = ⟨typeId, inst⟩) :
    Sound runtime
      ⟨⟨state.registry.runtime, state.registry.entries ++
        [⟨typeId, state.world.identityHashCode inst, inst, state.world.next⟩]⟩,
        state.world.createFromHostObject host⟩
      (history ++ [.created typeId inst state.world.next]) where
  own := hsound.own
  distinct := by
    rw [List.map_append, List.map_singleton, ← List.concat_eq_append]
    apply hsound.distinct.concat
    intro hmem
    obtain ⟨entry, hentry, hkey⟩ := List.mem_map.mp hmem
    exact habsent entry hentry hkey
  hashed entry hmem := by
    rcases List.mem_append.mp hmem with hmem | hmem
    · exact hsound.hashed entry hmem
    · obtain rfl := List.mem_singleton.mp hmem
      rfl
  recorded entry hmem := by
    rcases List.mem_append.mp hmem with hmem | hmem
    · exact List.mem_append_left _ (hsound.recorded entry hmem)
    · obtain rfl := List.mem_singleton.mp hmem
      exact List.mem_append_right _ (List.mem_singleton_self _)
  kept otherType other object hcreated halive := by
    rcases List.mem_append.mp hcreated with hcreated | hcreated
    · have hne := Nat.ne_of_lt (hsound.made otherType other object hcreated)
      have hafter : update state.world.alive state.world.next true object = true := halive
      rw [update_of_ne hne] at hafter
      exact List.mem_append_left _ (hsound.kept otherType other object hcreated hafter)
    · obtain ⟨rfl, rfl, rfl⟩ := Event.created.inj (List.mem_singleton.mp hcreated)
      exact List.mem_append_right _ (List.mem_singleton_self _)
  held otherType other object hcreated halive := by
    rcases List.mem_append.mp hcreated with hcreated | hcreated
    · have hne := Nat.ne_of_lt (hsound.made otherType other object hcreated)
      have hafter : update state.world.alive state.world.next true object = true := halive
      rw [update_of_ne hne] at hafter
      obtain ⟨⟨own, hhost, hown⟩, hothers⟩ := hsound.held otherType other object hcreated hafter
      refine ⟨⟨own, ?_, hown⟩, hothers⟩
      change update state.world.hosts state.world.next (some host) object = some own
      rw [update_of_ne hne, hhost]
    · obtain ⟨rfl, rfl, rfl⟩ := Event.created.inj (List.mem_singleton.mp hcreated)
      exact ⟨⟨host, update_self _ _ _, hmanaged⟩, hlive⟩
  made otherType other object hcreated := by
    rcases List.mem_append.mp hcreated with hcreated | hcreated
    · exact Nat.lt_succ_of_lt (hsound.made otherType other object hcreated)
    · obtain ⟨_, _, rfl⟩ := Event.created.inj (List.mem_singleton.mp hcreated)
      exact Nat.lt_succ_self _
  once := by
    rw [List.map_append, List.map_singleton, ← List.concat_eq_append]
    apply hsound.once.concat
    intro hmem
    obtain ⟨⟨otherType, other, object⟩, hcreated, hobject⟩ := List.mem_map.mp hmem
    exact absurd hobject (Nat.ne_of_lt (hsound.made otherType other object hcreated))

/-- The object that a call of `wrap` has made, if it has made one. -/
def created (typeId : String) (inst : Nat) (state after : State) : List Event :=
  if after.world.next = state.world.next then [] else [.created typeId inst state.world.next]

theorem created_self {registry : JvmObjectRegistry} :
    created typeId inst state ⟨registry, state.world⟩ = [] :=
  if_pos rfl

theorem created_new {registry : JvmObjectRegistry} {host : HostObject} :
    created typeId inst state ⟨registry, state.world.createFromHostObject host⟩ =
      [.created typeId inst state.world.next] :=
  if_neg (Nat.succ_ne_self _)

theorem Sound.wraps (hsound : Sound runtime state history) (hkeeps : Keeps factory)
    (hlive : state.world.reclaimed inst = false) {result : Except String Nat} {after : State}
    (hwraps : Wraps state runtime typeId inst factory inspections weakAllocated result after) :
    Sound runtime after (history ++ created typeId inst state after) := by
  cases hwraps with
  | unnamed error _ =>
      rw [created_self, List.append_nil]
      exact hsound.drop (List.Sublist.refl _) fun _ hmem _ _ => hmem
  | existing kept object hsearched =>
      rw [created_self, List.append_nil]
      exact hsound.drop hsearched.sublist hsearched.keeps
  | raised kept error hsearched =>
      rw [created_self, List.append_nil]
      exact hsound.drop hsearched.sublist hsearched.keeps
  | refused kept error hsearched _ =>
      rw [created_self, List.append_nil]
      exact hsound.drop hsearched.sublist hsearched.keeps
  | created kept host hsearched hfactory =>
      rw [created_new]
      have hdropped := hsound.drop hsearched.sublist hsearched.keeps
      exact hdropped.create (hsearched.absent rfl) hlive (hkeeps _ host hfactory)

/-- What the loop of `purge` leaves. -/
theorem purgeEntries_sublist :
    (JvmObjectRegistry.purgeEntries world inspections entries).2.Sublist entries := by
  induction entries generalizing inspections with
  | nil => exact List.Sublist.refl _
  | cons current rest ih =>
      rw [JvmObjectRegistry.purgeEntries]
      split_ifs with hinspecting hgone
      · exact List.Sublist.refl _
      · exact ih.cons current
      · exact ih.cons_cons current

theorem purgeEntries_keeps {entry : Entry} (hmem : entry ∈ entries)
    (hlive : world.reclaimed entry.inst = false) (halive : world.alive entry.javascript = true) :
    entry ∈ (JvmObjectRegistry.purgeEntries world inspections entries).2 := by
  induction entries generalizing inspections with
  | nil => exact absurd hmem List.not_mem_nil
  | cons current rest ih =>
      rw [JvmObjectRegistry.purgeEntries]
      split_ifs with hinspecting hgone
      · exact hmem
      · rcases List.mem_cons.mp hmem with rfl | hmem
        · rw [hlive, World.lock, if_pos halive] at hgone
          simp at hgone
        · exact ih hmem
      · rcases List.mem_cons.mp hmem with rfl | hmem
        · exact List.mem_cons_self
        · exact List.mem_cons_of_mem _ (ih hmem)

theorem purgeEntries_quiet (hquiet : Quiet inspections) :
    (JvmObjectRegistry.purgeEntries world inspections entries).1 = .ok () ∧
      ∀ entry ∈ (JvmObjectRegistry.purgeEntries world inspections entries).2,
        world.alive entry.javascript = true := by
  induction entries generalizing inspections with
  | nil => exact ⟨rfl, fun _ hmem => absurd hmem List.not_mem_nil⟩
  | cons current rest ih =>
      obtain ⟨hok, hkept⟩ := ih hquiet.tail
      rw [JvmObjectRegistry.purgeEntries, hquiet.headD, if_neg (by simp)]
      dsimp only
      split_ifs with hgone
      · exact ⟨hok, hkept⟩
      · refine ⟨hok, ?_⟩
        intro entry hmem
        rcases List.mem_cons.mp hmem with rfl | hmem
        · obtain ⟨-, hlock⟩ := not_or.mp hgone
          obtain ⟨object, hobject⟩ := Option.ne_none_iff_exists'.mp hlock
          exact (Option.ite_none_right_eq_some.mp hobject).1
        · exact hkept entry hmem

theorem purge_eq (hon : state.On runtime) :
    state.purge runtime inspections =
      ((JvmObjectRegistry.purgeEntries state.world inspections state.registry.entries).1,
        ⟨⟨some runtime,
          (JvmObjectRegistry.purgeEntries state.world inspections state.registry.entries).2⟩,
          state.world⟩) := by
  rw [State.purge, JvmObjectRegistry.purge, assertRuntime_of_on hon]

theorem Sound.purge (hsound : Sound runtime state history) :
    Sound runtime (state.purge runtime inspections).2 history := by
  rw [purge_eq hsound.own]
  exact hsound.drop purgeEntries_sublist fun entry hmem => purgeEntries_keeps hmem

/-- An instance that nobody holds has no object that is alive. -/
theorem Sound.reclaim (hsound : Sound runtime state history) (hfree : ¬ state.Held inst) :
    Sound runtime { state with
      world := { state.world with reclaimed := update state.world.reclaimed inst true } }
      history := by
  refine ⟨hsound.own, hsound.distinct, hsound.hashed, hsound.recorded, hsound.kept, ?_, hsound.made,
    hsound.once⟩
  intro typeId other object hcreated halive
  obtain ⟨⟨host, hhost, hmanaged⟩, hlive⟩ := hsound.held typeId other object hcreated halive
  have hne : other ≠ inst := by
    rintro rfl
    exact hfree ⟨object, host, halive, hhost, by rw [hmanaged]⟩
  refine ⟨⟨host, hhost, hmanaged⟩, ?_⟩
  change update state.world.reclaimed inst true other = false
  rw [update_of_ne hne, hlive]

theorem Sound.collect (hsound : Sound runtime state history) (object : Nat) :
    Sound runtime { state with
      world := { state.world with alive := update state.world.alive object false } } history := by
  have halive : ∀ other, update state.world.alive object false other = true →
      state.world.alive other = true := by
    intro other hafter
    by_cases hsame : other = object
    · rw [hsame, update_self] at hafter
      cases hafter
    · rwa [update_of_ne hsame] at hafter
  refine ⟨hsound.own, hsound.distinct, hsound.hashed, hsound.recorded, ?_, ?_, hsound.made,
    hsound.once⟩
  · exact fun typeId inst other hcreated hafter =>
      hsound.kept typeId inst other hcreated (halive other hafter)
  · exact fun typeId inst other hcreated hafter =>
      hsound.held typeId inst other hcreated (halive other hafter)

theorem sound_invariant : (objectMachine identityHashCode runtime).Invariant (Sound runtime) where
  init :=
    ⟨fun _ hknown => (by cases hknown), List.nodup_nil, List.forall_mem_nil _,
      List.forall_mem_nil _, fun _ _ _ hcreated => absurd hcreated List.not_mem_nil,
      fun _ _ _ hcreated => absurd hcreated List.not_mem_nil,
      fun _ _ _ hcreated => absurd hcreated List.not_mem_nil, List.nodup_nil⟩
  step label state history hsound henabled := by
    cases label with
    | wrap typeId given factory inspections weakAllocated =>
        obtain ⟨hkeeps, hlive⟩ := henabled
        cases given with
        | none =>
            have hafter := @wrap_none typeId inspections state runtime factory weakAllocated
              hsound.own
            have hsilent : (objectMachine identityHashCode runtime).step
                (.wrap typeId none factory inspections weakAllocated) state =
                  (⟨⟨some runtime, state.registry.entries⟩, state.world⟩, []) := by
              change ((state.wrap runtime typeId none factory inspections weakAllocated).2,
                ite _ _ _) = _
              rw [hafter, if_pos rfl]
            apply Machine.keeps_of_silent hsilent
            exact hsound.drop (List.Sublist.refl _) fun _ hmem _ _ => hmem
        | some inst => exact hsound.wraps hkeeps (hlive inst rfl) (wrap_wraps hsound)
    | purge inspections => exact Machine.keeps_of_silent rfl hsound.purge
    | reclaim inst => exact Machine.keeps_of_silent rfl (hsound.reclaim henabled)
    | collect object => exact Machine.keeps_of_silent rfl (hsound.collect object)

/-! ### What a caller gets -/

/-- What `wrap` promises for an instance, whatever has been done before. -/
structure Promise (state : State) (history : List Event) (typeId : String) (inst : Nat)
    (factory : ManagedJvmRef → Except String HostObject) (inspections : List Inspection)
    (weakAllocated : Bool) (result : Except String Nat) (after : State) : Prop where
  existing : ∀ object, .created typeId inst object ∈ history → state.world.alive object = true →
    typeId ≠ "" → Quiet inspections → result = .ok object
  returns : ∀ object, result = .ok object →
    (.created typeId inst object ∈ history ∧ state.world.alive object = true ∧
      created typeId inst state after = []) ∨
    ((∀ otherType other, .created otherType other object ∉ history) ∧
      created typeId inst state after = [.created typeId inst object] ∧
      ∃ host, factory ⟨typeId, inst⟩ = .ok host ∧ after.world.hosts object = some host)
  raises : ∀ error, result = .error error → typeId = "" ∨ weakAllocated = false ∨
    factory ⟨typeId, inst⟩ = .error error ∨ ¬ Quiet inspections

/-- An object that is alive keeps the search from missing it. -/
theorem Searched.finds (hsound : Sound runtime state history)
    {found : List Entry × JvmObjectRegistry.Search}
    (hsearched : Searched state.world typeId inst inspections state.registry.entries found)
    {object : Nat} (hcreated : .created typeId inst object ∈ history)
    (halive : state.world.alive object = true) (hquiet : Quiet inspections) :
    found.2 = .existing object := by
  have hmem := hsound.kept typeId inst object hcreated halive
  have hlive := (hsound.held typeId inst object hcreated halive).2
  have hkept := hsearched.keeps _ hmem hlive halive
  cases hleft : found.2 with
  | existing other =>
      obtain ⟨-, entry, hentry, rfl, hkey⟩ := hsearched.existing other hleft
      have hsame := eq_of_key hsound.distinct (hsearched.sublist.subset hentry) hmem hkey
      rw [hsame]
  | raised error => exact absurd hquiet (hsearched.raised error hleft)
  | absent => exact absurd rfl (hsearched.absent hleft _ hkept)

theorem Sound.promise (hsound : Sound runtime state history) {result : Except String Nat}
    {after : State}
    (hwraps : Wraps state runtime typeId inst factory inspections weakAllocated result after) :
    Promise state history typeId inst factory inspections weakAllocated result after := by
  cases hwraps with
  | unnamed error hempty =>
      refine ⟨?_, fun _ hok => (by cases hok), fun _ _ => .inl hempty⟩
      exact fun _ _ _ hnamed _ => absurd hempty hnamed
  | existing kept object hsearched =>
      obtain ⟨halive, entry, hmem, rfl, hkey⟩ := hsearched.existing object rfl
      refine ⟨?_, ?_, fun _ herror => (by cases herror)⟩
      · intro other hcreated hother _ hquiet
        rw [JvmObjectRegistry.Search.existing.inj
          (hsearched.finds hsound hcreated hother hquiet)]
      · intro object hok
        cases hok
        have hrecorded := hsound.recorded entry (hsearched.sublist.subset hmem)
        obtain ⟨rfl, rfl⟩ := Prod.mk.inj hkey
        exact .inl ⟨hrecorded, halive, created_self⟩
  | raised kept error hsearched =>
      refine ⟨?_, fun _ hok => (by cases hok), ?_⟩
      · intro object hcreated halive _ hquiet
        cases hsearched.finds hsound hcreated halive hquiet
      · exact fun _ _ => .inr (.inr (.inr (hsearched.raised error rfl)))
  | refused kept error hsearched hrefused =>
      refine ⟨?_, fun _ hok => (by cases hok), ?_⟩
      · intro object hcreated halive _ hquiet
        cases hsearched.finds hsound hcreated halive hquiet
      · intro error herror
        cases herror
        exact .inr (hrefused.imp id .inl)
  | created kept host hsearched hfactory =>
      refine ⟨?_, ?_, fun _ herror => (by cases herror)⟩
      · intro object hcreated halive _ hquiet
        cases hsearched.finds hsound hcreated halive hquiet
      · intro object hok
        cases hok
        refine .inr ⟨?_, created_new, host, hfactory, update_self _ _ _⟩
        intro otherType other hcreated
        exact absurd (hsound.made otherType other _ hcreated) (Nat.lt_irrefl _)

/-- **A JVM instance has one JavaScript object at a time, and keeps it alive.** Whatever is wrapped,
purged, collected or reclaimed in whatever order and with whatever exceptions of JNI, no two entries
are for one type and one instance, an object that is alive has a strong reference to the instance
that it was made for, and `wrap` keeps its promise even where identity hashes collide. -/
theorem wrap_returns_same_object
    (hreach : (objectMachine identityHashCode runtime).Reaches state history) :
    (state.registry.entries.map Entry.key).Nodup ∧
      (∀ typeId inst object, .created typeId inst object ∈ history →
        state.world.alive object = true →
          (∃ host, state.world.hosts object = some host ∧ host.managed = ⟨typeId, inst⟩) ∧
            state.world.reclaimed inst = false) ∧
      ∀ typeId inst factory inspections weakAllocated,
        Promise state history typeId inst factory inspections weakAllocated
          (state.wrap runtime typeId (some inst) factory inspections weakAllocated).1
          (state.wrap runtime typeId (some inst) factory inspections weakAllocated).2 := by
  have hsound := hreach.invariant sound_invariant
  refine ⟨hsound.distinct, hsound.held, ?_⟩
  intro typeId inst factory inspections weakAllocated
  exact hsound.promise (wrap_wraps hsound)

/-- Two instances with one identity hash. -/
def Sample.wrappedBoth : State :=
  let first := ((State.init fun _ => 7).wrap 1 "t" (some 0) (fun managed => .ok ⟨managed, 0⟩) []
    true).2
  (first.wrap 1 "t" (some 1) (fun managed => .ok ⟨managed, 0⟩) [] true).2

theorem Sample.reaches_wrappedBoth : (objectMachine (fun _ => 7) 1).Reaches Sample.wrappedBoth
    [.created "t" 0 0, .created "t" 1 1] := by
  have hkeeps : Keeps fun managed => .ok ⟨managed, 0⟩ := by
    intro managed host hfactory
    obtain rfl := Except.ok.inj hfactory
    rfl
  have hfirst := @Machine.Reaches.step _ _ _ (objectMachine (fun _ => 7) 1) _ _
    (Label.wrap "t" (some 0) (fun managed => .ok ⟨managed, 0⟩) [] true) .init
    ⟨hkeeps, fun _ _ => rfl⟩
  exact hfirst.step (Label.wrap "t" (some 1) (fun managed => .ok ⟨managed, 0⟩) [] true)
    ⟨hkeeps, fun _ _ => rfl⟩

theorem wrap_returns_same_object_again :
    (Sample.wrappedBoth.wrap 1 "t" (some 1) (fun managed => .ok ⟨managed, 0⟩) [] true).1 =
      .ok 1 := by
  have hpromise := (wrap_returns_same_object Sample.reaches_wrappedBoth).2.2 "t" 1
    (fun managed => .ok ⟨managed, 0⟩) [] true
  exact hpromise.existing 1 (by simp) rfl (by simp) fun _ hmem => absurd hmem List.not_mem_nil

/-- **After a purge that JNI does not disturb, the registry has one entry for each JavaScript object
that is alive, and no other.** -/
theorem purge_exact (hreach : (objectMachine identityHashCode runtime).Reaches state history)
    (hquiet : Quiet inspections) :
    (state.purge runtime inspections).1 = .ok () ∧
      ((state.purge runtime inspections).2.registry.entries.map Entry.javascript).Perm
        ((history.map fun | .created _ _ object => object).filter fun object =>
          state.world.alive object) ∧
      ∀ entry ∈ (state.purge runtime inspections).2.registry.entries,
        .created entry.typeId entry.inst entry.javascript ∈ history := by
  have hsound := hreach.invariant sound_invariant
  have hpurged := @Sound.purge inspections state history runtime hsound
  rw [purge_eq hsound.own] at hpurged ⊢
  obtain ⟨hok, halive⟩ := @purgeEntries_quiet state.world state.registry.entries inspections hquiet
  refine ⟨hok, ?_, hpurged.recorded⟩
  have hnodup : ((JvmObjectRegistry.purgeEntries state.world inspections
      state.registry.entries).2.map Entry.javascript).Nodup := by
    rw [List.nodup_map_iff_inj_on hpurged.distinct.of_map]
    intro left hleft right hright hsame
    apply eq_of_key hpurged.distinct hleft hright
    have hboth := List.inj_on_of_nodup_map hsound.once (hpurged.recorded left hleft)
      (hpurged.recorded right hright) hsame
    obtain ⟨htype, hinst, -⟩ := Event.created.inj hboth
    exact Prod.ext htype hinst
  rw [List.perm_ext_iff_of_nodup hnodup (hsound.once.filter _)]
  intro object
  rw [List.mem_map, List.mem_filter]
  constructor
  · rintro ⟨entry, hmem, rfl⟩
    exact ⟨List.mem_map_of_mem (hpurged.recorded entry hmem), halive entry hmem⟩
  · rintro ⟨hmade, hobject⟩
    obtain ⟨⟨typeId, inst, made⟩, hcreated, rfl⟩ := List.mem_map.mp hmade
    exact ⟨_, hpurged.kept typeId inst made hcreated hobject, rfl⟩

theorem purge_exact_both : (Sample.wrappedBoth.purge 1 []).1 = .ok () ∧
    ((Sample.wrappedBoth.purge 1 []).2.registry.entries.map Entry.javascript).Perm [0, 1] := by
  have hquiet : Quiet [] := fun _ hmem => absurd hmem List.not_mem_nil
  have hpurge := purge_exact Sample.reaches_wrappedBoth hquiet
  exact ⟨hpurge.1, hpurge.2.1⟩

end SupernoteModule.Runtime.JvmObjects
