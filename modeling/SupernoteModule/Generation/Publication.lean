import SupernoteModule.Generation.GenerationExecution

/-!
# What a publication promises

A publication replaces many files one by one and can be stopped between any two of them, so a
project can be found with some files of the last generation and some of the next. What is promised
is that nobody takes such a project for a finished one, and that only the plan's own paths are
touched.
-/

namespace SupernoteModule.Generation.GenerationExecution

open SupernoteModule.Filesystem SupernoteModule.Lib SupernoteModule.Lib.Program
open SupernoteModule.Python
open SupernoteModule.Generation.GenerationPlan (OwnedArtifact Plan)
open SupernoteModule.Generation.IntegrityManifest (integrityManifestPath)

/-! ### Places -/

/-- The paths a plan writes or deletes. -/
def targets (plan : Plan) : List String :=
  plan.artifacts.map (·.path) ++ plan.deletes

/-- The places a publication is about. -/
def publishedPlaces (plan : Plan) : List (List String) :=
  markerPath :: manifestPath :: (targets plan).map pathParts

def IsStaging (place : List String) : Prop :=
  ∃ name rest, place = name :: rest ∧ startsWith name stagingPrefix = true

/-- The name of a staging directory of this execution: nothing had it at the start. -/
structure OwnStaging (start : FileTree) (name : String) : Prop where
  named : startsWith name stagingPrefix = true
  fresh : start.find [name] = none

def IsOwnStaging (start : FileTree) (place : List String) : Prop :=
  ∃ name rest, place = name :: rest ∧ OwnStaging start name

/-- A path that the executor does not use for a purpose of its own. -/
structure Unreserved (path : String) : Prop where
  marker : ¬ Overlap markerPath (pathParts path)
  manifest : path = integrityManifestPath ∨ ¬ Overlap manifestPath (pathParts path)
  staging : ¬ IsStaging (pathParts path)

/-- What others may do to the tree meanwhile: anything but change what is published, what is staged,
or a directory above it. -/
structure Foreign (plan : Plan) (before after : FileTree) : Prop where
  staged : ∀ place, IsStaging place → after.find place = before.find place
  published : ∀ place ∈ publishedPlaces plan, after.find place = before.find place
  above : ∀ place ∈ publishedPlaces plan, ∀ directory, directory <+: place →
    after.entryKind directory = before.entryKind directory

/-! ### Contents -/

/-- The entry is the file that an artifact describes. -/
def IsArtifact (artifact : OwnedArtifact) (entry : Option FileTree) : Prop :=
  ∃ mode, entry = some (.file mode artifact.content) ∧
    ∀ expected ∈ artifact.expectedMode, mode = expected

def IsMarker (plan : Plan) (entry : Option FileTree) : Prop :=
  ∃ mode, entry = some (.file mode (markerContent plan))

/-- The marker of this publication is there. -/
def Announced (plan : Plan) (tree : FileTree) : Prop :=
  IsMarker plan (tree.find markerPath)

/-- Everything but the integrity manifest is in its final state. -/
structure OthersPublished (plan : Plan) (tree : FileTree) : Prop where
  artifacts : ∀ artifact ∈ plan.artifacts, artifact.path ≠ integrityManifestPath →
    IsArtifact artifact (tree.find (pathParts artifact.path))
  deletes : ∀ path ∈ plan.deletes, path ≠ integrityManifestPath → tree.find (pathParts path) = none

structure Complete (plan : Plan) (tree : FileTree) : Prop where
  others : OthersPublished plan tree
  manifest : ∀ artifact ∈ plan.artifacts, IsArtifact artifact (tree.find (pathParts artifact.path))

/-- What is left of a publication that is not to be finished yet. -/
structure Pending (plan : Plan) (start tree : FileTree) : Prop where
  announced : Announced plan tree
  others : OthersPublished plan tree
  manifest : tree.find manifestPath = start.find manifestPath

/-- What is left of one that is. -/
structure Finished (plan : Plan) (tree : FileTree) : Prop where
  complete : Complete plan tree
  cleared : tree.find markerPath = none

/-- A project that was touched and is not finished has the marker, and the manifest is the last to
change. -/
structure Consistent (plan : Plan) (start tree : FileTree) : Prop where
  state : (∀ path ∈ targets plan, tree.find (pathParts path) = start.find (pathParts path)) ∨
    Announced plan tree ∨ Complete plan tree
  recordedLast : tree.find manifestPath = start.find manifestPath ∨ OthersPublished plan tree

/-- What the executor may change: its own staging directory, the published places, and missing
directories above them; a file that is already there only while the plan's check of it passes, and
the manifest only when everything else is in its final state. -/
structure Permitted (validators : Validators) (plan : Plan) (start before after : FileTree) :
    Prop where
  elsewhere : ∀ place, after.look place ≠ before.look place →
    IsOwnStaging start place ∨ place ∈ publishedPlaces plan ∨
      (before.find place = none ∧ after.entryKind place = some .directory ∧
        ∃ target ∈ publishedPlaces plan, place <+: target)
  files : ∀ place mode content, before.find place = some (.file mode content) →
    after.find place ≠ before.find place →
    IsOwnStaging start place ∨ place = markerPath ∨
      (place = manifestPath ∧ OthersPublished plan before) ∨
      ∃ path ∈ targets plan, pathParts path = place ∧
        validators.pathPrecondition plan path before = .ok ()

/-! ### The promise -/

section

variable {plan : Plan} {start before after : FileTree}
  (hsame : ∀ place ∈ publishedPlaces plan, after.find place = before.find place)

include hsame

theorem find_target_same {path : String} (hpath : path ∈ targets plan) :
    after.find (pathParts path) = before.find (pathParts path) := by
  apply hsame
  exact List.mem_cons_of_mem _ (List.mem_cons_of_mem _ (List.mem_map_of_mem hpath))

theorem find_marker_same : after.find markerPath = before.find markerPath :=
  hsame markerPath List.mem_cons_self

theorem find_manifest_same : after.find manifestPath = before.find manifestPath :=
  hsame manifestPath (List.mem_cons_of_mem _ List.mem_cons_self)

theorem find_artifact_same {artifact : OwnedArtifact} (hartifact : artifact ∈ plan.artifacts) :
    after.find (pathParts artifact.path) = before.find (pathParts artifact.path) :=
  find_target_same hsame (List.mem_append_left _ (List.mem_map_of_mem hartifact))

theorem OthersPublished.same (hpublished : OthersPublished plan before) :
    OthersPublished plan after := by
  constructor
  · intro artifact hartifact hne
    rw [find_artifact_same hsame hartifact]
    exact hpublished.artifacts artifact hartifact hne
  · intro path hpath hne
    rw [find_target_same hsame (List.mem_append_right _ hpath)]
    exact hpublished.deletes path hpath hne

theorem Complete.same (hcomplete : Complete plan before) : Complete plan after := by
  refine ⟨hcomplete.others.same hsame, ?_⟩
  intro artifact hartifact
  rw [find_artifact_same hsame hartifact]
  exact hcomplete.manifest artifact hartifact

theorem Announced.same (hannounced : Announced plan before) : Announced plan after := by
  rwa [Announced, find_marker_same hsame]

theorem Consistent.same (hconsistent : Consistent plan start before) :
    Consistent plan start after := by
  constructor
  · rcases hconsistent.state with huntouched | hannounced | hcomplete
    · left
      intro path hpath
      rw [find_target_same hsame hpath, huntouched path hpath]
    · exact .inr (.inl (hannounced.same hsame))
    · exact .inr (.inr (hcomplete.same hsame))
  · rw [find_manifest_same hsame]
    exact hconsistent.recordedLast.imp_right fun hothers => hothers.same hsame

theorem Pending.same (hpending : Pending plan start before) : Pending plan start after := by
  refine ⟨hpending.announced.same hsame, hpending.others.same hsame, ?_⟩
  rw [find_manifest_same hsame, hpending.manifest]

theorem Finished.same (hfinished : Finished plan before) : Finished plan after := by
  refine ⟨hfinished.complete.same hsame, ?_⟩
  rw [find_marker_same hsame, hfinished.cleared]

end

/-- The promise of an execution that starts from the given tree. -/
def executionPromise (validators : Validators) (plan : Plan) (start : FileTree) :
    Promise (diskSetting (Foreign plan)) where
  always := Consistent plan start
  change := Permitted validators plan start
  stable hforeign hconsistent := hconsistent.same hforeign.published

end SupernoteModule.Generation.GenerationExecution
