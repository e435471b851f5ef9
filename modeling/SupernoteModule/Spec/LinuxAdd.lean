import SupernoteModule.Filesystem.LinuxAdd
import Mathlib.Logic.Function.Basic

/-!
# What an add promises

An add creates a feature entry by entry, and can be stopped at any of them. What is at the
destination is at every time described exactly by a layout: the kind, permission bits and content of
the entry at each place. A run may add what is missing from the scaffold, and nothing else.
-/

namespace SupernoteModule.Filesystem.LinuxAdd

open SupernoteModule.Generation SupernoteModule.Lib SupernoteModule.Lib.Program Function

/-! ### Scaffolds -/

/-- A scaffold names every entry once, and every directory after the one above it. -/
structure WellFormed (scaffold : Scaffold) : Prop where
  directories_nodup : (scaffold.directories.map Prod.fst).Nodup
  files_nodup : (scaffold.files.map Prod.fst).Nodup
  apart : ∀ parts ∈ scaffold.files.map Prod.fst, parts ∉ scaffold.directories.map Prod.fst
  directories_named : ∀ parts ∈ scaffold.directories.map Prod.fst,
    parts ≠ [] ∧ parts ≠ [markerName]
  files_named : ∀ parts ∈ scaffold.files.map Prod.fst, parts ≠ [] ∧ parts ≠ [markerName]
  directories_above : ∀ before directory after,
    scaffold.directories = before ++ directory :: after →
    directory.1.dropLast = [] ∨ directory.1.dropLast ∈ before.map Prod.fst
  files_above : ∀ parts ∈ scaffold.files.map Prod.fst,
    parts.dropLast = [] ∨ parts.dropLast ∈ scaffold.directories.map Prod.fst

/-! ### Layouts -/

/-- What is at each place below the destination. -/
abbrev Layout := List String → Option EntryFacts

structure Laid (destination : List String) (layout : Layout) (tree : FileTree) : Prop where
  parent : hasParent tree destination
  look : ∀ parts, tree.look (destination ++ parts) = layout parts

section

variable (scaffold : Scaffold) (marker : Bytes)

/-- Everything that an add creates, with the marker that it takes away in the end. -/
def pending : Layout
  | [] => some (.directory 0o700)
  | first :: rest =>
      if first :: rest = [markerName] then some (.file 0o600 marker)
      else
        match scaffold.directories.lookup (first :: rest) with
        | some mode => some (.directory mode)
        | none => (scaffold.files.lookup (first :: rest)).map fun (content, mode) =>
            .file mode content

/-- When the mode of the destination is set. -/
def sealing : Layout :=
  update (pending scaffold marker) [] (some (.directory scaffold.rootMode))

/-- When the marker is gone. -/
def published : Layout :=
  update (sealing scaffold marker) [markerName] none

/-- An add that was stopped between two entries: its root and marker are there, and every other
entry is missing or as it has to be. -/
structure Resumable (layout : Layout) : Prop where
  root : layout [] = pending scaffold marker []
  marked : layout [markerName] = pending scaffold marker [markerName]
  rest : ∀ parts, layout parts = none ∨ layout parts = pending scaffold marker parts

/-- What an add accepts. -/
def Startable (layout : Layout) : Prop :=
  layout [] = none ∨ Resumable scaffold marker layout

/-- What a run can have made of the layout it found. -/
inductive Stage (first : Layout) : Layout → Prop where
  | untouched : Stage first first
  | filling {layout : Layout} (unfinished : List String) :
      Startable scaffold marker first →
      (∀ parts, first parts ≠ none → layout parts = first parts) →
      (∀ parts, parts ≠ unfinished →
        layout parts = none ∨ layout parts = pending scaffold marker parts) →
      Stage first layout
  | sealing : Startable scaffold marker first → Stage first (sealing scaffold marker)
  | published : Startable scaffold marker first → Stage first (published scaffold marker)

end

/-- A file of the plan or a directory above one. -/
def Expected (expectedFiles : List String) (parts : List String) : Prop :=
  parts ≠ [] ∧ ∃ relative ∈ expectedFiles, parts <+: Python.pathParts relative

/-! ### The promise -/

variable {destination : List String} {layout : Layout} {before after : FileTree}

theorem Laid.foreign (hlaid : Laid destination layout before)
    (hforeign : Foreign destination before after) : Laid destination layout after := by
  constructor
  · rw [hforeign.above]
    exact hlaid.parent
  · intro parts
    rw [FileTree.look, hforeign.inside parts, ← FileTree.look, hlaid.look parts]

/-- The promise of an add that finds the given layout. -/
def addPromise (conditions : Conditions) (destination : List String) (scaffold : Scaffold)
    (marker : Bytes) (first : Layout) : Promise (addSetting conditions destination) where
  always tree := ∃ layout, Laid destination layout tree ∧ Stage scaffold marker first layout
  change before after := ∀ place, ¬ destination <+: place → after.look place = before.look place
  stable := fun hforeign ⟨layout, hlaid, hstage⟩ => ⟨layout, hlaid.foreign hforeign, hstage⟩

end SupernoteModule.Filesystem.LinuxAdd
