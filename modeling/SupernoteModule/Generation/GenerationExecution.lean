import SupernoteModule.Filesystem.GeneratedEntries
import SupernoteModule.Generation.IntegrityManifest
import SupernoteModule.Python.JsonText

/-!
# Executing a generation plan

`GenerationPlanExecutor` writes everything it will publish into a directory of its own, announces
the publication with a marker, moves the files into place one by one, and removes the marker when
the last of them, the integrity manifest, is there.
-/

namespace SupernoteModule.Generation.GenerationExecution

open SupernoteModule.Filesystem SupernoteModule.Filesystem.Disk SupernoteModule.Lib
open SupernoteModule.Python
open SupernoteModule.Generation.GenerationPlan (OwnedArtifact Plan demand)
open SupernoteModule.Generation.IntegrityManifest (incompleteMarkerPath integrityManifestPath)

/-- The checks an executor is given. The check of one path reads nothing but the entry there. -/
structure Validators where
  preconditions : Plan → FileTree → Except PlanError Unit
  pathPrecondition : Plan → String → FileTree → Except PlanError Unit
  completionPreconditions : Plan → FileTree → Except PlanError Unit
  pathLocal : ∀ plan relative left right,
    left.find (pathParts relative) = right.find (pathParts relative) →
    pathPrecondition plan relative left = pathPrecondition plan relative right

/-- `GenerationService._validate_path_precondition`. -/
def validatePathPrecondition (sha256 : Bytes → String) (plan : Plan) (relative : String)
    (tree : FileTree) : Except PlanError Unit :=
  match plan.preconditions.find? (·.path = relative) with
  | none => .error (.plan s!"project plan lacks mutation authority: {relative}")
  | some precondition =>
      let destination := pathParts relative
      demand
        ((tree.entryKind destination).map EntryKind.text = precondition.kind ∧
          tree.hashEntry sha256 destination = precondition.sha256)
        s!"project state changed after planning: {relative}"

theorem validatePathPrecondition_local (sha256 : Bytes → String) (plan : Plan) (relative : String)
    {left right : FileTree}
    (hfind : left.find (pathParts relative) = right.find (pathParts relative)) :
    validatePathPrecondition sha256 plan relative left =
      validatePathPrecondition sha256 plan relative right := by
  have hkind : left.entryKind (pathParts relative) = right.entryKind (pathParts relative) := by
    rw [FileTree.entryKind, FileTree.entryKind, hfind]
  have hhash : left.hashEntry sha256 (pathParts relative) =
      right.hashEntry sha256 (pathParts relative) := by
    rw [FileTree.hashEntry, FileTree.hashEntry, hfind]
  unfold validatePathPrecondition
  simp only [GenerationPlan.demand, hkind, hhash]

/-- The checks of `GenerationService`, the other two of which read more than the plan's paths. -/
def serviceValidators (sha256 : Bytes → String)
    (preconditions completionPreconditions : Plan → FileTree → Except PlanError Unit) :
    Validators where
  preconditions
  pathPrecondition := validatePathPrecondition sha256
  completionPreconditions
  pathLocal plan relative _ _ := validatePathPrecondition_local sha256 plan relative

/-! ### Staging -/

def stagingPrefix : String := ".sn-module-gen-plan-"

def setExpectedMode (target : List String) : Option Nat → Disk Unit
  | some mode => changeMode target mode
  | none => pure ()

def stageArtifact (staging : String) (artifact : OwnedArtifact) : Disk Unit := do
  let target := staging :: pathParts artifact.path
  makeParents target
  writeBytes target artifact.content
  setExpectedMode target artifact.expectedMode
  let staged ← readBytes target
  if staged ≠ artifact.content then
    .raised (.runtime s!"staged generated artifact verification failed: {artifact.path}")
  else pure ()

def stagePlan (plan : Plan) (staging : String) : Disk Unit :=
  .forEach (stageArtifact staging) plan.artifacts

/-! ### The marker -/

def markerPath : List String :=
  pathParts incompleteMarkerPath

def manifestPath : List String :=
  pathParts integrityManifestPath

def markerContent (plan : Plan) : Bytes :=
  Json.dumpsLine (fun _ => "") <| .object [
    ("schema_version", .string "1.0"), ("generation_id", .string plan.generationId),
    ("operation", .string plan.operation), ("status", .string "incomplete")]

section

-- The path of the project root, for messages.
variable (root : String) (validators : Validators)

def publishIncompleteMarker (plan : Plan) (staging : String) : Disk Unit := do
  let marker := staging :: markerPath
  makeParents marker
  writeBytes marker (markerContent plan)
  replaceGeneratedRegularNoFollow root marker markerPath

def clearIncompleteMarker : Disk Unit := do
  match ← entryKind markerPath with
  | some _ => removeGeneratedRegularNoFollow root markerPath
  | none => pure ()

/-! ### Output -/

def deleteStale (plan : Plan) (relative : String) : Disk Unit :=
  if relative = integrityManifestPath then pure ()
  else do
    match ← entryKind (pathParts relative) with
    | none => pure ()
    | some _ => do
        inspecting (validators.pathPrecondition plan relative)
        removeGeneratedRegularNoFollow root (pathParts relative)

def deleteStaleOutput (plan : Plan) : Disk Unit :=
  .forEach (deleteStale root validators plan) plan.deletes

/-- The order of `(path == INTEGRITY_MANIFEST_PATH, path)`. -/
def publishLe (left right : OwnedArtifact) : Prop :=
  if left.path = integrityManifestPath then right.path = integrityManifestPath
  else right.path = integrityManifestPath ∨ left.path ≤ right.path

instance : DecidableRel publishLe :=
  fun left right => inferInstanceAs (Decidable
    (if left.path = integrityManifestPath then right.path = integrityManifestPath
      else right.path = integrityManifestPath ∨ left.path ≤ right.path))

def publishArtifact (plan : Plan) (staging : String) (finalize : Bool) (artifact : OwnedArtifact) :
    Disk Unit :=
  let publish := replaceGeneratedRegularNoFollow root (staging :: pathParts artifact.path)
    (pathParts artifact.path)
  if artifact.path = integrityManifestPath then
    if finalize then do
      inspecting (validators.completionPreconditions plan)
      publish
    else pure ()
  else do
    inspecting (validators.pathPrecondition plan artifact.path)
    publish

def publishOutput (plan : Plan) (staging : String) (finalize : Bool) : Disk Unit :=
  .forEach (publishArtifact root validators plan staging finalize)
    (plan.artifacts.insertionSort publishLe)

/-- What `execute` does in its staging directory's lifetime. -/
def publish (plan : Plan) (finalize : Bool) (staging : String) : Disk Unit := do
  stagePlan plan staging
  inspecting (validators.preconditions plan)
  publishIncompleteMarker root plan staging
  deleteStaleOutput root validators plan
  publishOutput root validators plan staging finalize
  if finalize then clearIncompleteMarker root else pure ()

def execute (plan : Plan) (finalize : Bool) : Disk Unit := do
  let staging ← makeTemporaryDirectory stagingPrefix
  (publish root validators plan finalize staging).ensuring (removeTree [staging])

end

end SupernoteModule.Generation.GenerationExecution
