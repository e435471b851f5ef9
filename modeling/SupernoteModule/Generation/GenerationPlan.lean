import SupernoteModule.Generation.FileTree
import SupernoteModule.Python.Collections

/-!
# Generation plans

`GenerationPlan.compare` turns what a generation wants to write, delete and keep into a plan against
one project tree, or refuses it. Each kind of path is checked by its own helper, against the kinds
that helper is given.
-/

namespace SupernoteModule.Generation

open SupernoteModule.Lib SupernoteModule.Python

/-- `GenerationPlanError`, `FilesystemError`, and a failed assertion. -/
inductive PlanError where
  | plan (message : String)
  | filesystem (message : String)
  | assertion
deriving DecidableEq

namespace GenerationPlan

abbrev demand (condition : Prop) [Decidable condition] (message : String) : Except PlanError Unit :=
  require condition (.plan message)

/-! ### Records -/

/-- The path check of `OwnedArtifact.__post_init__`. -/
def OwnedArtifact.CanonicalPath (path : String) : Prop :=
  let normalized := PurePosixPath.parse path
  ¬ (backslash ∈ path.toList ∨ windowsAnchored path ∨ normalized.isAbsolute ∨
    normalized.parts = [] ∨ normalized.parts.any (· ∈ ["", ".", ".."]) ∨ normalized.asPosix ≠ path)

instance {path : String} : Decidable (OwnedArtifact.CanonicalPath path) :=
  inferInstanceAs (Decidable (¬ _))

structure OwnedArtifact where
  path : String
  owner : String
  kind : String
  content : Bytes
  generationId : String
  committedSource : Bool
  expectedMode : Option Nat
  canonicalPath : OwnedArtifact.CanonicalPath path
  identity : owner ≠ "" ∧ kind ≠ "" ∧ generationId ≠ ""
  validMode : ∀ mode ∈ expectedMode, mode ≤ 0o7777

/-- The constructor with the checks of `__post_init__`; `committed_source` is true and
`expected_mode` absent unless given. -/
def OwnedArtifact.create (path owner kind : String) (content : Bytes) (generationId : String)
    (committedSource : Bool) (expectedMode : Option Nat) :
    Except PlanError OwnedArtifact :=
  if canonicalPath : OwnedArtifact.CanonicalPath path then
    if identity : owner ≠ "" ∧ kind ≠ "" ∧ generationId ≠ "" then
      if validMode : ∀ mode ∈ expectedMode, mode ≤ 0o7777 then
        .ok {
          path, owner, kind, content, generationId, committedSource, expectedMode, canonicalPath,
          identity, validMode }
      else .error (.plan "owned artifact mode is invalid")
    else .error (.plan "owned artifact identity fields cannot be empty")
  else
    .error (.plan s!"owned artifact path must be canonical and relative: {Python.repr path}")

inductive ArtifactAction where
  | create
  | update
  | delete
deriving DecidableEq

structure ArtifactChange where
  action : ArtifactAction
  artifact : Option OwnedArtifact
  path : String
  previous : Option Bytes := none
  previousKind : Option EntryKind := none
  previousHash : Option String := none

structure DependencyAction where
  path : String
  packageNames : List String
  content : Bytes
  previous : Bytes
  previousMode : Nat := 0o644

structure WiringAction where
  path : String
  marker : String
  content : Bytes
  previous : Bytes
  previousMode : Nat := 0o644

structure TreeRemovalAction where
  path : String
  owner : String
  previousHash : String

structure PlanPrecondition where
  path : String
  kind : Option String
  sha256 : Option String
  mode : Option Nat
  contentSha256 : Option String

/-- The keyword arguments of `compare`. -/
structure Request where
  operation : String
  requestedTargets : List String
  affectedTargets : List String
  generationId : String
  artifacts : List OwnedArtifact
  deletes : List String := []
  preservedUserPaths : List String := []
  dependencyActions : List DependencyAction := []
  wiringActions : List WiringAction := []
  treeRemovals : List (String × String) := []
  authorizedTreeRemovals : List String := []
  wiringIssues : List String := []
  toolInvocations : List (List String) := []
  warnings : List String := []
  preconditionPaths : List String := []
  preconditionBaselines : List (String × Option String × Option String) := []
  discoveryFrontier : List String := []
  immutableInputs : List String := []
  authorInputInventory : List (String × String × Int × Int × Option String) := []

structure Plan where
  operation : String
  requestedTargets : List String
  affectedTargets : List String
  generationId : String
  artifacts : List OwnedArtifact
  deletes : List String
  changes : List ArtifactChange
  preservedUserPaths : List String
  dependencyActions : List DependencyAction
  wiringActions : List WiringAction
  treeRemovals : List TreeRemovalAction
  wiringIssues : List String
  toolInvocations : List (List String)
  warnings : List String
  preconditions : List PlanPrecondition
  discoveryFrontier : List String
  immutableInputs : List String
  authorInputInventory : List (String × String × Int × Int × Option String)

/-! ### Paths -/

def validateRelative (value : String) : Except PlanError Unit :=
  let path := PurePosixPath.parse value
  demand
    (¬ (backslash ∈ value.toList ∨ windowsAnchored value ∨ path.isAbsolute ∨ path.parts = [] ∨
      path.parts.any (· ∈ ["", ".", ".."])))
    s!"path must be canonical and relative: {Python.repr value}"

def pathsOverlap (left right : String) : Bool :=
  let leftParts := pathParts left
  let rightParts := pathParts right
  let shorter := min leftParts.length rightParts.length
  leftParts.take shorter = rightParts.take shorter

/-- The ancestors of a path below the root, from the top. -/
def ancestors (parts : List String) : List (List String) :=
  (List.range' 1 (parts.length - 1)).map parts.take

def validateManagedDestination (root : FileTree) (relative : String) : Except PlanError Unit :=
  checkEach (ancestors (pathParts relative)) fun current =>
    match root.entryKind current with
    | some .symlink =>
        .error (.plan s!"managed destination has a symbolic-link ancestor: {Python.repr relative}")
    | none | some .directory => .ok ()
    | some .file | some .other =>
        .error (.plan s!"managed destination has a non-directory ancestor: {Python.repr relative}")

/-! ### Contained reads -/

/-- `validate_persisted_relative_path`. -/
def validatePersistedRelativePath (value : String) : Except PlanError Unit :=
  let posix := PurePosixPath.parse value
  require
    (¬ (value = "" ∨ backslash ∈ value.toList ∨ windowsAnchored value ∨ posix.isAbsolute ∨
      posix.parts = [] ∨ posix.parts.any (· ∈ ["", ".", ".."]) ∨ posix.asPosix ≠ value))
    (.filesystem s!"Persisted recovery path must be canonical and relative: {Python.repr value}")

/-- Open the ancestors of a contained path one below the other: `false` when one is missing. -/
def openAncestors (root : FileTree) (relative : String) : List (List String) → Except PlanError Bool
  | [] => .ok true
  | current :: rest =>
      match root.entryKind current with
      | none => .ok false
      | some .directory => openAncestors root relative rest
      | some _ =>
          .error (.filesystem s!"Cannot inspect contained project path {Python.repr relative}")

def containedEntryKind (root : FileTree) (path : List String) :
    Except PlanError (Option EntryKind) := do
  let relative := PurePosixPath.joinComponents path
  validatePersistedRelativePath relative
  let present ← openAncestors root relative (ancestors path)
  return if present then root.entryKind path else none

/-- `read_contained_regular_bytes_no_follow`, whose metadata is used for the permission bits. -/
def readContainedRegularBytes (root : FileTree) (path : List String) :
    Except PlanError (Bytes × Nat) := do
  let relative := PurePosixPath.joinComponents path
  validatePersistedRelativePath relative
  let present ← openAncestors root relative (ancestors path)
  match if present then root.readRegular path else none with
  | some read => .ok read
  | none => .error (.filesystem s!"Source entry is not a regular file: {relative}")

/-! ### Each kind of path -/

def prepareArtifacts (artifacts : List OwnedArtifact) (generationId : String) :
    Except PlanError (List OwnedArtifact × List String) := do
  let ordered := artifacts.insertionSort (·.path ≤ ·.path)
  let paths := ordered.map (·.path)
  demand paths.Nodup "owned artifact paths must be unique"
  checkEach ordered fun artifact =>
    demand (artifact.generationId = generationId)
      s!"{artifact.path}: artifact generation identity disagrees with plan"
  return (ordered, paths)

def kindText (kind : Option EntryKind) : String :=
  (kind.map EntryKind.text).getD "missing"

def prepareDependencyActions (root : FileTree) (actions : List DependencyAction)
    (protectedPaths : List String) : Except PlanError (List DependencyAction × List String) := do
  let ordered := actions.insertionSort (·.path ≤ ·.path)
  let paths := ordered.map (·.path)
  demand paths.Nodup "dependency action paths must be unique"
  checkEach ordered fun action => do
    validateRelative action.path
    demand (action.path = "package.json")
      "dependency actions may update only the canonical parent package.json"
    validateManagedDestination root action.path
    demand (¬ protectedPaths.any (pathsOverlap action.path))
      s!"dependency action overlaps generated or preserved project state: {Python.repr action.path}"
    let destination := pathParts action.path
    demand (root.entryKind destination = some .file)
      s!"dependency destination must be a regular file: {Python.repr action.path
        } is {kindText (root.entryKind destination)}"
    demand ((root.readRegular destination).map Prod.fst = some action.previous)
      s!"dependency action baseline is stale: {Python.repr action.path}"
    demand ((root.readRegular destination).map Prod.snd = some action.previousMode)
      s!"dependency action mode baseline is stale: {Python.repr action.path}"
  return (ordered, paths)

def prepareWiringActions (root : FileTree) (actions : List WiringAction)
    (protectedPaths : List String) : Except PlanError (List WiringAction × List String) := do
  let ordered := actions.insertionSort (·.path ≤ ·.path)
  let paths := ordered.map (·.path)
  demand paths.Nodup "wiring action paths must be unique"
  checkEach ordered fun action => do
    validateRelative action.path
    validateManagedDestination root action.path
    let destination := pathParts action.path
    demand (root.entryKind destination = some .file)
      s!"wiring destination must be a regular file: {Python.repr action.path}"
    demand ((root.readRegular destination).map Prod.fst = some action.previous)
      s!"wiring action baseline is stale: {Python.repr action.path}"
    demand ((root.readRegular destination).map Prod.snd = some action.previousMode)
      s!"wiring action mode baseline is stale: {Python.repr action.path}"
    demand (¬ protectedPaths.any (pathsOverlap action.path))
      s!"wiring action overlaps generated or preserved state: {Python.repr action.path}"
  return (ordered, paths)

def canonicalTreeRemovalPath (owner : String) : Except PlanError String :=
  if startsWith owner "feature:" then .ok ("local_modules/" ++ removePrefix owner "feature:")
  else if owner = "shared-runtime" then .ok "android/.supernote-module/runtime"
  else .error (.plan s!"managed-tree removal owner is invalid: {Python.repr owner}")

/-- The order of `(path, owner)`. -/
def removalLe (left right : String × String) : Prop :=
  left.1 < right.1 ∨ (left.1 = right.1 ∧ left.2 ≤ right.2)

instance : DecidableRel removalLe :=
  fun _ _ => inferInstanceAs (Decidable (_ ∨ _))

section

-- The SHA-256 digest of bytes, in hexadecimal.
variable (sha256 : Bytes → String)

def prepareTreeRemoval (root : FileTree) (authorized protectedPaths : List String)
    (removal : String × String) : Except PlanError TreeRemovalAction := do
  let (relative, owner) := removal
  validateRelative relative
  let expected ← canonicalTreeRemovalPath owner
  demand (relative = expected)
    s!"managed-tree removal is noncanonical: {Python.repr relative} for {Python.repr owner}"
  demand (relative ∈ authorized)
    s!"managed-tree removal lacks manifest or current-operation ownership authority: {
      Python.repr relative}"
  validateManagedDestination root relative
  demand (root.entryKind (pathParts relative) = some .directory)
    s!"feature-tree removal requires a directory: {Python.repr relative}"
  demand (¬ protectedPaths.any (pathsOverlap relative))
    s!"feature-tree removal overlaps another plan action: {Python.repr relative}"
  match root.hashEntry sha256 (pathParts relative) with
  | some digest => return { path := relative, owner, previousHash := digest }
  | none => .error .assertion

def prepareTreeRemovals (root : FileTree) (removals : List (String × String))
    (authorizedTreeRemovals protectedPaths : List String) :
    Except PlanError (List TreeRemovalAction) := do
  checkEach authorizedTreeRemovals validateRelative
  enumerate
    (fun removal _ =>
      prepareTreeRemoval sha256 root authorizedTreeRemovals protectedPaths removal)
    0 (removals.insertionSort removalLe)

def validateStaleDeletes (root : FileTree) (deletes artifactPaths preservedPaths : List String) :
    Except PlanError Unit :=
  checkEach deletes fun relative => do
    demand (¬ (artifactPaths ++ preservedPaths).any (pathsOverlap relative))
      s!"refusing to delete {Python.repr relative
        }: it overlaps an expected artifact or preserved user source path"
    validateManagedDestination root relative

/-! ### Changes -/

def compareOwnedArtifact (root : FileTree) (artifact : OwnedArtifact) :
    Except PlanError (Option ArtifactChange) := do
  validateManagedDestination root artifact.path
  let destination := pathParts artifact.path
  let kind ← containedEntryKind root destination
  let read ←
    if kind = some .file then (readContainedRegularBytes root destination).map some
    else .ok none
  let previousHash := root.hashEntry sha256 destination
  let modeMismatch : Bool :=
    match artifact.expectedMode, read with
    | some expected, some (_, mode) => mode != expected
    | _, _ => false
  match kind with
  | none =>
      return some { action := .create, artifact := some artifact, path := artifact.path }
  | some present =>
      if present ≠ .file ∨ read.map Prod.fst ≠ some artifact.content ∨ modeMismatch then
        return some {
          action := .update
          artifact := some artifact
          path := artifact.path
          previous := read.map Prod.fst
          previousKind := kind
          previousHash }
      else return none

def compareStaleArtifact (root : FileTree) (relative : String) :
    Except PlanError (Option ArtifactChange) := do
  let destination := pathParts relative
  if (root.find destination).isNone then return none
  else do
    let kind ← containedEntryKind root destination
    demand (kind = some .file)
      s!"stale owned artifact must be a regular file: {Python.repr relative} is {kindText kind}"
    let read ← readContainedRegularBytes root destination
    return some {
      action := .delete
      artifact := none
      path := relative
      previous := some read.1
      previousKind := kind
      previousHash := root.hashEntry sha256 destination }

def compareArtifactChanges (root : FileTree) (artifacts : List OwnedArtifact)
    (deletes : List String) : Except PlanError (List ArtifactChange) := do
  let changes ← enumerate (fun artifact _ => compareOwnedArtifact sha256 root artifact) 0 artifacts
  let removed ← enumerate (fun relative _ => compareStaleArtifact sha256 root relative) 0 deletes
  return changes.reduceOption ++ removed.reduceOption

def capturePrecondition (root : FileTree)
    (baselines : List (String × Option String × Option String)) (relative : String) :
    Except PlanError PlanPrecondition := do
  validateRelative relative
  validateManagedDestination root relative
  let destination := pathParts relative
  let liveKind ← containedEntryKind root destination
  let read ←
    if liveKind = some .file then (readContainedRegularBytes root destination).map some
    else .ok none
  let (kind, hash) :=
    match baselines.lookup relative with
    | some baseline => baseline
    | none => (liveKind.map EntryKind.text, root.hashEntry sha256 destination)
  return {
    path := relative
    kind
    sha256 := hash
    mode := read.map Prod.snd
    contentSha256 := read.map fun (content, _) => sha256 content }

def capturePreconditions (root : FileTree) (paths : List String)
    (baselines : List (String × Option String × Option String)) :
    Except PlanError (List PlanPrecondition) :=
  enumerate (fun relative _ => capturePrecondition sha256 root baselines relative) 0
    (sortedSet (paths ++ baselines.map Prod.fst))

/-! ### The plan -/

def compare (root : FileTree) (request : Request) : Except PlanError Plan := do
  let (artifacts, artifactPaths) ← prepareArtifacts request.artifacts request.generationId
  let deletes := sortedSet request.deletes
  demand (¬ artifactPaths.any (· ∈ deletes)) "an artifact cannot be rendered and deleted"
  let preserved := sortedSet request.preservedUserPaths
  checkEach (artifactPaths ++ deletes ++ preserved) validateRelative
  let (dependencyActions, dependencyPaths) ←
    prepareDependencyActions root request.dependencyActions (artifactPaths ++ deletes ++ preserved)
  let (wiringActions, wiringPaths) ←
    prepareWiringActions root request.wiringActions
      (artifactPaths ++ deletes ++ preserved ++ dependencyPaths)
  let treeRemovals ←
    prepareTreeRemovals sha256 root request.treeRemovals request.authorizedTreeRemovals
      (artifactPaths ++ deletes ++ preserved ++ dependencyPaths ++ wiringPaths)
  validateStaleDeletes root deletes artifactPaths preserved
  let changes ← compareArtifactChanges sha256 root artifacts deletes
  let preconditions ←
    capturePreconditions sha256 root
      (artifactPaths ++ deletes ++ preserved ++ dependencyPaths ++ wiringPaths ++
        treeRemovals.map (·.path) ++ request.preconditionPaths)
      request.preconditionBaselines
  let immutableInputs := sortedSet request.immutableInputs
  checkEach immutableInputs fun relative => do
    validateRelative relative
    demand (relative ∈ preconditions.map (·.path))
      s!"immutable input lacks a captured precondition: {Python.repr relative}"
  return {
    operation := request.operation
    requestedTargets := request.requestedTargets
    affectedTargets := sortedSet request.affectedTargets
    generationId := request.generationId
    artifacts
    deletes
    changes
    preservedUserPaths := preserved
    dependencyActions
    wiringActions
    treeRemovals
    wiringIssues := request.wiringIssues
    toolInvocations := request.toolInvocations
    warnings := request.warnings
    preconditions
    discoveryFrontier := request.discoveryFrontier
    immutableInputs
    authorInputInventory := request.authorInputInventory }

end

end GenerationPlan

end SupernoteModule.Generation
