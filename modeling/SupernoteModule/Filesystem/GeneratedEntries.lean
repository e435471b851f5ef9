import SupernoteModule.Filesystem.Disk

/-!
# Replacing and removing generated entries

`replace_generated_regular_no_follow` and `remove_generated_regular_no_follow` on a POSIX host: the
directories above the entry are opened one below the other without following links, and only a
regular file is replaced or removed.
-/

namespace SupernoteModule.Filesystem.Disk

open SupernoteModule.Generation SupernoteModule.Generation.GenerationPlan SupernoteModule.Lib
open SupernoteModule.Python

/-! ### Calls -/

def makeTemporaryDirectory (start : String) : Disk String :=
  .call (DiskOp.makeTemporaryDirectory start)

def makeDirectory (path : List String) : Disk Unit :=
  .call (DiskOp.makeDirectory path)

def openDirectory (path : List String) : Disk Unit :=
  .call (DiskOp.openDirectory path)

def lstat (path : List String) : Disk EntryKind :=
  .call (DiskOp.lstat path)

def writeBytes (path : List String) (content : Bytes) : Disk Unit :=
  .call (DiskOp.writeBytes path content)

def changeMode (path : List String) (mode : Nat) : Disk Unit :=
  .call (DiskOp.changeMode path mode)

def readBytes (path : List String) : Disk Bytes :=
  .call (DiskOp.readBytes path)

def rename (source destination : List String) : Disk Unit :=
  .call (DiskOp.rename source destination)

def unlink (path : List String) : Disk Unit :=
  .call (DiskOp.unlink path)

def removeTree (path : List String) : Disk Unit :=
  .call (DiskOp.removeTree path)

/-- A check of the project as it is found. -/
def inspecting (validate : FileTree → Except PlanError Unit) : Disk Unit := do
  let tree ← (.call DiskOp.inspect : Disk FileTree)
  .ofExcept ((validate tree).mapError .plan)

def filesystemError {Output : Type} (message : String) : Disk Output :=
  .raised (.plan (.filesystem message))

/-! ### Entries -/

/-- `entry_kind`. -/
def entryKind (path : List String) : Disk (Option EntryKind) := do
  match ← (lstat path).attempt with
  | .ok kind => pure (some kind)
  | .error (.os .fileNotFound) => pure none
  | .error error => .raised error

/-- `Path.mkdir` with `exist_ok`. -/
def makeMissingDirectory (path : List String) : Disk Unit := do
  match ← (makeDirectory path).attempt with
  | .ok () => pure ()
  | .error (.os error) =>
      match ← (lstat path).attempt with
      | .ok .directory => pure ()
      | .error .interrupt => .raised .interrupt
      | .ok _ | .error _ => .raised (.os error)
  | .error error => .raised error

/-- `path.parent.mkdir(parents=True, exist_ok=True)`. -/
def makeParents (path : List String) : Disk Unit :=
  .forEach makeMissingDirectory (ancestors path)

section

-- The path of the project root, for messages.
variable (root : String)

def absolute (path : List String) : String :=
  PurePosixPath.joinSegment root (PurePosixPath.joinComponents path)

def requirePersisted (path : List String) : Disk Unit :=
  .ofExcept ((validatePersistedRelativePath (PurePosixPath.joinComponents path)).mapError .plan)

/-- `_open_contained_parent_descriptor`. -/
def openContainedParent (path : List String) : Disk Unit := do
  requirePersisted path
  openDirectory []
  .forEach openDirectory (ancestors path)

/-- One round of `_ensure_posix_contained_parent_directories`. -/
def ensureDirectory (current : List String) : Disk Unit := do
  match ← (openDirectory current).attempt with
  | .ok () => pure ()
  | .error (.os .fileNotFound) =>
      match ← (makeDirectory current).attempt with
      | .ok () | .error (.os .fileExists) => openDirectory current
      | .error error => .raised error
  | .error (.os _) =>
      filesystemError s!"Generated destination parent is not a directory: {absolute root current}"
  | .error error => .raised error

def ensureContainedParentDirectories (path : List String) : Disk Unit := do
  requirePersisted path
  if (ancestors path).isEmpty then pure ()
  else do
    openDirectory []
    .forEach (ensureDirectory root) (ancestors path)

def replaceGeneratedRegularNoFollow (staged destination : List String) : Disk Unit := do
  ensureContainedParentDirectories root destination
  openContainedParent staged
  openContainedParent destination
  let sourceKind ← lstat staged
  if sourceKind ≠ .file then
    filesystemError s!"Generated staging entry is not regular: {absolute root staged}"
  else do
    let destinationKind ← entryKind destination
    if destinationKind.any (· != .file) then
      filesystemError s!"Generated destination is not a regular file: {absolute root destination}"
    else rename staged destination

def removeGeneratedRegularNoFollow (destination : List String) : Disk Unit := do
  openContainedParent destination
  let kind ← lstat destination
  if kind ≠ .file then
    filesystemError
      s!"Generated deletion target is not a regular file: {absolute root destination}"
  else unlink destination

end

end SupernoteModule.Filesystem.Disk
