import SupernoteModule.Filesystem.GeneratedEntries
import SupernoteModule.Proof.GenerationPlan

/-!
# What a call leaves alone

Every call that succeeds changes the tree at one place or two, and nothing is below a place where it
puts or takes away an entry. So what is known of the entries at other places stays true, and rules
for whole functions follow from what their calls keep.
-/

namespace SupernoteModule.Filesystem

open SupernoteModule.Generation SupernoteModule.Generation.GenerationPlan SupernoteModule.Lib
open SupernoteModule.Python

variable {tree before after : FileTree} {path place : List String} {host : Host}

/-! ### Above and below an entry -/

/-- Nothing is below the entry. -/
def Childless (entry : Option FileTree) : Prop :=
  ∀ below, below ≠ [] → (entry.bind fun found => found.find below) = none

theorem childless_of_kind {entry : FileTree} (hkind : entry.kind ≠ .directory) :
    Childless (some entry) := by
  intro below hbelow
  obtain ⟨name, rest, rfl⟩ := List.exists_cons_of_ne_nil hbelow
  cases entry with
  | directory mode children => exact absurd rfl hkind
  | file mode content => rfl
  | symlink mode target => rfl
  | other mode => rfl

theorem childless_of_entryKind (hkind : tree.entryKind path ≠ some .directory) :
    Childless (tree.find path) := by
  cases hfind : tree.find path with
  | none => exact fun _ _ => rfl
  | some entry =>
      apply childless_of_kind
      rintro hdirectory
      rw [FileTree.entryKind, hfind, Option.map_some, hdirectory] at hkind
      exact hkind rfl

theorem childless_none : Childless none :=
  fun _ _ => rfl

theorem childless_directory (mode : Nat) : Childless (some (.directory mode [])) := by
  intro below hbelow
  obtain ⟨name, rest, rfl⟩ := List.exists_cons_of_ne_nil hbelow
  rw [Option.bind_some, FileTree.find_directory_cons]
  rfl

theorem Childless.find_append (hbare : Childless (tree.find path)) {below : List String}
    (hbelow : below ≠ []) : tree.find (path ++ below) = none := by
  rw [FileTree.find_append]
  exact hbare below hbelow

/-- Above an entry there are directories. -/
theorem entryKind_of_find_append {entry : FileTree} {below : List String}
    (hentry : tree.find (path ++ below) = some entry) (hbelow : below ≠ []) :
    tree.entryKind path = some .directory := by
  rw [FileTree.find_append] at hentry
  cases hfind : tree.find path with
  | none => rw [hfind] at hentry; cases hentry
  | some found =>
      rw [FileTree.entryKind, hfind, Option.map_some, Option.some.injEq]
      by_contra hkind
      have hnone := childless_of_kind hkind below hbelow
      rw [hfind] at hentry
      rw [hentry] at hnone
      cases hnone

theorem entryKind_eq_look : tree.entryKind path = (tree.look path).map EntryFacts.kind := by
  rw [FileTree.entryKind, FileTree.look, Option.map_map]
  congr 1
  funext entry
  cases entry <;> rfl

theorem hasParent_iff : hasParent tree path ↔ tree.entryKind path.dropLast = some .directory := by
  rw [hasParent, beq_iff_eq]

theorem hasParent_of_find {entry : FileTree} (hpath : path ≠ [])
    (hentry : tree.find path = some entry) : hasParent tree path := by
  rw [hasParent_iff]
  have hsplit : tree.find (path.dropLast ++ [path.getLast hpath]) = some entry := by
    rw [List.dropLast_append_getLast hpath, hentry]
  exact entryKind_of_find_append hsplit (List.cons_ne_nil _ _)

/-- A place strictly above an entry's place is a directory as soon as the entry has a parent. -/
theorem entryKind_of_hasParent (hparent : hasParent tree path) (hplace : place <+: path)
    (hne : place ≠ path) : tree.entryKind place = some .directory := by
  have hdrop : place <+: path.dropLast := by
    obtain ⟨rest, rfl⟩ := hplace
    have hrest : rest ≠ [] := by
      rintro rfl
      exact hne (List.append_nil place).symm
    rw [List.dropLast_append_of_ne_nil hrest]
    exact List.prefix_append place rest.dropLast
  obtain ⟨below, hbelow⟩ := hdrop
  rw [hasParent_iff, ← hbelow] at hparent
  by_cases hnil : below = []
  · rwa [hnil, List.append_nil] at hparent
  · obtain ⟨entry, hentry, -⟩ := Option.map_eq_some_iff.mp hparent
    exact entryKind_of_find_append hentry hnil

/-! ### A change at one place -/

structure ChangedAt (path : List String) (before after : FileTree) : Prop where
  elsewhere : ∀ place, place ≠ path → after.look place = before.look place
  apart : ∀ place, ¬ Overlap path place → after.find place = before.find place

/-- What a change of an entry with nothing below it does, when the new one has nothing either. -/
theorem changedAt_alter (change : Option FileTree → Option FileTree) (hpath : path ≠ [])
    (hparent : hasParent tree path) (hbefore : Childless (tree.find path))
    (hafter : Childless (change (tree.find path))) :
    ChangedAt path tree (tree.alter change path) ∧
      (tree.alter change path).find path = change (tree.find path) := by
  obtain ⟨above, name, rfl⟩ := (List.eq_nil_or_concat' path).resolve_left hpath
  have hdirectory : (tree.look above).map EntryFacts.kind = some .directory := by
    rwa [hasParent_iff, List.dropLast_concat, entryKind_eq_look] at hparent
  have hfind : ∀ below, (tree.alter change (above ++ [name])).find (above ++ name :: below) =
      (change (tree.find (above ++ [name]))).bind fun entry => entry.find below :=
    fun below => FileTree.find_alter_append below hdirectory
  refine ⟨⟨?_, fun place hplace => FileTree.find_alter_of_not_overlap hplace⟩, ?_⟩
  · intro place hplace
    by_cases hleads : above ++ [name] <+: place
    · obtain ⟨below, rfl⟩ := hleads
      have hbelow : below ≠ [] := by
        rintro rfl
        exact hplace (List.append_nil _)
      have hsplit : above ++ [name] ++ below = above ++ name :: below := by simp
      rw [FileTree.look, FileTree.look, hbefore.find_append hbelow, hsplit, hfind below,
        hafter below hbelow]
    · exact FileTree.look_alter_of_not_prefix hleads
  · rw [hfind []]
    cases change (tree.find (above ++ [name])) with
    | none => rfl
    | some entry => rw [Option.bind_some, FileTree.find_nil]

theorem changedAt_makeDirectory (hpath : path ≠ [])
    (hact : act host before (.makeDirectory path) = .ok ((), after)) :
    ChangedAt path before after ∧ before.find path = none ∧ hasParent before path ∧
      after.find path = some (.directory host.directoryMode []) := by
  rw [act] at hact
  split at hact
  · cases hact
  · rename_i hnone
    split at hact
    · rename_i hparent
      obtain ⟨-, rfl⟩ := Prod.mk.inj (Except.ok.inj hact)
      have hfree : before.find path = none := by simpa using hnone
      obtain ⟨hchanged, hfind⟩ := changedAt_alter
        (fun _ => some (.directory host.directoryMode [])) hpath hparent (hfree ▸ childless_none)
        (childless_directory host.directoryMode)
      exact ⟨hchanged, hfree, hparent, hfind⟩
    · cases hact

theorem changedAt_makeTemporaryDirectory {start name : String}
    (hact : act host before (.makeTemporaryDirectory start) = .ok (name, after)) :
    name = start ++ host.suffix ∧ before.find [name] = none ∧ ChangedAt [name] before after := by
  rw [act] at hact
  split at hact
  · rename_i hfree
    obtain ⟨hparent, hnone⟩ := Bool.and_eq_true_iff.mp hfree
    obtain ⟨rfl, rfl⟩ := Prod.mk.inj (Except.ok.inj hact)
    have hmissing : before.find [start ++ host.suffix] = none := Option.isNone_iff_eq_none.mp hnone
    refine ⟨rfl, hmissing, ?_⟩
    exact (changedAt_alter (fun _ => some (.directory 0o700 [])) (List.cons_ne_nil _ _) hparent
      (hmissing ▸ childless_none) (childless_directory 0o700)).1
  · cases hact

/-- What is known before a call that puts or takes away an entry at a path. -/
structure Exchanged (path : List String) (before after : FileTree) : Prop where
  changed : ChangedAt path before after
  parent : hasParent before path
  childless : Childless (before.find path)

theorem exchanged_writeBytes {content : Bytes} (hpath : path ≠ [])
    (hact : act host before (.writeBytes path content) = .ok ((), after)) :
    Exchanged path before after ∧ ∃ mode, after.find path = some (.file mode content) := by
  rw [act] at hact
  split at hact
  · rename_i mode _ hfile
    obtain ⟨-, rfl⟩ := Prod.mk.inj (Except.ok.inj hact)
    have hbare : Childless (before.find path) := hfile ▸ childless_of_kind (by simp [FileTree.kind])
    have hparent := hasParent_of_find hpath hfile
    obtain ⟨hchanged, hfind⟩ := changedAt_alter (fun _ => some (.file mode content)) hpath
      hparent hbare (childless_of_kind (by simp [FileTree.kind]))
    exact ⟨⟨hchanged, hparent, hbare⟩, mode, hfind⟩
  · cases hact
  · rename_i hnone
    split at hact
    · rename_i hparent
      obtain ⟨-, rfl⟩ := Prod.mk.inj (Except.ok.inj hact)
      have hbare : Childless (before.find path) := hnone ▸ childless_none
      obtain ⟨hchanged, hfind⟩ := changedAt_alter (fun _ => some (.file host.fileMode content))
        hpath hparent hbare (childless_of_kind (by simp [FileTree.kind]))
      exact ⟨⟨hchanged, hparent, hbare⟩, host.fileMode, hfind⟩
    · cases hact

theorem exchanged_changeMode {mode : Nat} (hpath : path ≠ [])
    (hact : act host before (.changeMode path mode) = .ok ((), after)) :
    Exchanged path before after ∧ ∃ old content, before.find path = some (.file old content) ∧
      after.find path = some (.file mode content) := by
  rw [act] at hact
  split at hact
  · rename_i old content hfile
    obtain ⟨-, rfl⟩ := Prod.mk.inj (Except.ok.inj hact)
    have hbare : Childless (before.find path) := hfile ▸ childless_of_kind (by simp [FileTree.kind])
    have hparent := hasParent_of_find hpath hfile
    obtain ⟨hchanged, hfind⟩ := changedAt_alter (fun _ => some (.file mode content)) hpath
      hparent hbare (childless_of_kind (by simp [FileTree.kind]))
    exact ⟨⟨hchanged, hparent, hbare⟩, old, content, hfile, hfind⟩
  · cases hact
  · cases hact

theorem exchanged_unlink (hpath : path ≠ [])
    (hact : act host before (.unlink path) = .ok ((), after)) :
    Exchanged path before after ∧ after.find path = none := by
  have hunlinked : ∀ kind, kind ≠ .directory → before.entryKind path = some kind →
      Exchanged path before (before.alter (fun _ => none) path) ∧
        (before.alter (fun _ => none) path).find path = none := by
    intro kind hkind hfound
    obtain ⟨entry, hentry, rfl⟩ := Option.map_eq_some_iff.mp hfound
    have hbare : Childless (before.find path) := hentry ▸ childless_of_kind hkind
    have hparent := hasParent_of_find hpath hentry
    obtain ⟨hchanged, hfind⟩ := changedAt_alter (fun _ => none) hpath hparent hbare
      childless_none
    exact ⟨⟨hchanged, hparent, hbare⟩, hfind⟩
  rw [act] at hact
  split at hact
  · cases hact
  · rename_i hkind
    obtain ⟨-, rfl⟩ := Prod.mk.inj (Except.ok.inj hact)
    exact hunlinked .file (by decide) hkind
  · rename_i hkind
    obtain ⟨-, rfl⟩ := Prod.mk.inj (Except.ok.inj hact)
    exact hunlinked .symlink (by decide) hkind
  · rename_i hkind
    obtain ⟨-, rfl⟩ := Prod.mk.inj (Except.ok.inj hact)
    exact hunlinked .other (by decide) hkind
  · cases hact

/-- A rename takes an entry away at one place and puts it at another one. -/
theorem exchanged_rename {source destination : List String} (hsource : source ≠ [])
    (hdestination : destination ≠ [])
    (hact : act host before (.rename source destination) = .ok ((), after)) :
    ∃ middle entry, before.find source = some entry ∧ Exchanged source before middle ∧
      Exchanged destination middle after ∧ after.find destination = some entry := by
  rw [act] at hact
  split at hact
  · cases hact
  · rename_i entry hentry
    split at hact
    · cases hact
    · rename_i hkinds
      obtain ⟨hkind, hother⟩ := not_or.mp hkinds
      split at hact
      · rename_i hparent
        obtain ⟨-, rfl⟩ := Prod.mk.inj (Except.ok.inj hact)
        have hbare : Childless (before.find source) := hentry ▸ childless_of_kind hkind
        have hsourceParent := hasParent_of_find hsource hentry
        obtain ⟨hfirst, hgone⟩ := changedAt_alter (fun _ => none) hsource hsourceParent
          hbare childless_none
        have hkept : ∀ place, place ≠ source →
            (before.alter (fun _ => none) source).entryKind place = before.entryKind place := by
          intro place hplace
          rw [entryKind_eq_look, entryKind_eq_look, hfirst.elsewhere place hplace]
        have hmiddle : hasParent (before.alter (fun _ => none) source) destination := by
          rw [hasParent_iff, hkept _, ← hasParent_iff]
          · exact hparent
          · rintro rfl
            rw [hasParent_iff, FileTree.entryKind, hentry, Option.map_some,
              Option.some.injEq] at hparent
            exact hkind hparent
        have hfree : Childless ((before.alter (fun _ => none) source).find destination) := by
          by_cases hsame : destination = source
          · rw [hsame, hgone]
            exact childless_none
          · apply childless_of_entryKind
            rwa [hkept destination hsame]
        obtain ⟨hsecond, hfind⟩ := changedAt_alter (fun _ => some entry) hdestination
          hmiddle hfree (childless_of_kind hkind)
        exact ⟨_, entry, hentry, ⟨hfirst, hsourceParent, hbare⟩, ⟨hsecond, hmiddle, hfree⟩, hfind⟩
      · cases hact

/-! ### What is known of other entries -/

/-- Something that is known of the entry at a place. -/
structure Fact where
  place : List String
  holds : Option FileTree → Prop

/-- The fact speaks of an entry that has nothing below it. -/
def Fact.Solid (fact : Fact) : Prop :=
  ∀ entry, fact.holds entry → ∃ found, entry = some found ∧ found.kind ≠ .directory

/-- A call at the path cannot make the fact false: the two places do not meet, or one of them would
have to be a directory above the other. -/
def Fact.ClearOf (fact : Fact) (path : List String) : Prop :=
  Overlap path fact.place → fact.place ≠ path ∧ fact.Solid

variable {fact : Fact}

theorem Exchanged.keeps (hexchanged : Exchanged path before after) (hclear : fact.ClearOf path)
    (hholds : fact.holds (before.find fact.place)) :
    after.find fact.place = before.find fact.place := by
  by_cases hoverlap : Overlap path fact.place
  · obtain ⟨hne, hsolid⟩ := hclear hoverlap
    obtain ⟨found, hfound, hkind⟩ := hsolid _ hholds
    rcases hoverlap with habove | hbelow
    · obtain ⟨below, hsplit⟩ := habove
      have hbelow : below ≠ [] := by
        rintro rfl
        exact hne (by rw [← hsplit, List.append_nil])
      rw [← hsplit, hexchanged.childless.find_append hbelow] at hfound
      cases hfound
    · have hdirectory := entryKind_of_hasParent hexchanged.parent hbelow hne
      rw [FileTree.entryKind, hfound, Option.map_some, Option.some.injEq] at hdirectory
      exact absurd hdirectory hkind
  · exact hexchanged.changed.apart fact.place hoverlap

/-- Where an entry is taken away, what was missing stays missing. -/
theorem Exchanged.find_none (hexchanged : Exchanged path before after)
    (hgone : after.find path = none) (hnone : before.find place = none) :
    after.find place = none := by
  by_cases hoverlap : Overlap path place
  · rcases hoverlap with ⟨below, rfl⟩ | habove
    · by_cases hbelow : below = []
      · rw [hbelow, List.append_nil, hgone]
      · have hchildless : Childless (after.find path) := hgone ▸ childless_none
        exact hchildless.find_append hbelow
    · by_cases hsame : place = path
      · rw [hsame, hgone]
      · have hdirectory := entryKind_of_hasParent hexchanged.parent habove hsame
        rw [FileTree.entryKind, hnone] at hdirectory
        cases hdirectory
  · rw [hexchanged.changed.apart place hoverlap, hnone]

/-- A new directory keeps what is known of anything that is not at or above it. -/
theorem keeps_of_makeDirectory (hpath : path ≠ [])
    (hact : act host before (.makeDirectory path) = .ok ((), after))
    (hclear : fact.place <+: path → fact.Solid)
    (hholds : fact.holds (before.find fact.place)) :
    after.find fact.place = before.find fact.place := by
  obtain ⟨hchanged, hfree, hparent, hmade⟩ := changedAt_makeDirectory hpath hact
  by_cases habove : fact.place <+: path
  · obtain ⟨found, hfound, hkind⟩ := hclear habove _ hholds
    by_cases hsame : fact.place = path
    · rw [hsame, hfree] at hfound
      cases hfound
    · have hdirectory := entryKind_of_hasParent hparent habove hsame
      rw [FileTree.entryKind, hfound, Option.map_some, Option.some.injEq] at hdirectory
      exact absurd hdirectory hkind
  · by_cases hbelow : path <+: fact.place
    · obtain ⟨below, hsplit⟩ := hbelow
      have hnil : below ≠ [] := by
        rintro rfl
        rw [List.append_nil] at hsplit
        exact habove (hsplit ▸ List.prefix_rfl)
      have hbefore : Childless (before.find path) := hfree ▸ childless_none
      have hafter : Childless (after.find path) := hmade ▸ childless_directory host.directoryMode
      rw [← hsplit, hbefore.find_append hnil, hafter.find_append hnil]
    · exact hchanged.apart fact.place (not_or.mpr ⟨hbelow, habove⟩)

end SupernoteModule.Filesystem
