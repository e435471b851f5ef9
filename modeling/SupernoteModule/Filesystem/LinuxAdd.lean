import SupernoteModule.Filesystem.Disk
import SupernoteModule.Python.JsonText

/-!
# The Linux add fallback

`_publish_linux_add_scaffold` puts a staged feature in place without renaming a directory: it
creates the destination with a marker in it, fills in what is missing, and takes the marker away
when everything is there. A run that was stopped is taken up by the next one. Directories are named
by their paths, as nobody else is in the destination meanwhile.
-/

namespace SupernoteModule.Filesystem.LinuxAdd

open SupernoteModule.Generation SupernoteModule.Lib SupernoteModule.Python

inductive AddError where
  | os (error : OsError)
  /-- A `FileExistsError` with a text of its own. -/
  | fileExists (message : String)
  | filesystem (message : String)
  /-- `ConcurrentSourceMutation`, which is a `FilesystemError`. -/
  | concurrent (message : String)
  | interrupt
deriving DecidableEq

/-! ### Calls -/

inductive AddOp where
  /-- `os.mkdir`. -/
  | makeDirectory (path : List String) (mode : Nat)
  /-- `os.open` of a directory that is no link. -/
  | openDirectory (path : List String)
  /-- `os.stat` without following links: the kind and the permission bits. -/
  | stat (path : List String)
  | listDirectory (path : List String)
  /-- What is read from a regular file that is opened without following links. -/
  | readFile (path : List String)
  /-- `os.open` with `O_CREAT | O_EXCL`. -/
  | createFile (path : List String) (mode : Nat)
  /-- `os.write`, which takes some of the bytes. -/
  | writeFile (path : List String) (content : Bytes)
  | changeMode (path : List String) (mode : Nat)
  | sync (path : List String)
  | unlink (path : List String)

def AddOp.Answer : AddOp → Type
  | .stat _ => EntryKind × Nat
  | .listDirectory _ => List String
  | .readFile _ => Bytes × Nat
  | .writeFile _ _ => Nat
  | .makeDirectory _ _ | .openDirectory _ | .createFile _ _ | .changeMode _ _ | .sync _
  | .unlink _ => Unit

/-- What the host chooses: the mode of a new entry, which a file mode mask can narrow, and how many
bytes a write takes after the first. -/
structure AddHost where
  newMode : Nat → Nat
  taken : Nat

def missing (tree : FileTree) (path : List String) : AddError :=
  match (path.inits.filterMap tree.entryKind).find? (· != .directory) with
  | some _ => .os .other
  | none => .os .fileNotFound

/-- `fchmod` of an entry. -/
def withMode (mode : Nat) : FileTree → FileTree
  | .file _ content => .file mode content
  | .directory _ children => .directory mode children
  | .symlink _ target => .symlink mode target
  | .other _ => .other mode

/-- What a call does when nothing goes wrong. -/
def act (host : AddHost) (tree : FileTree) :
    (op : AddOp) → Except AddError (op.Answer × FileTree)
  | .makeDirectory path mode =>
      if (tree.find path).isSome then .error (.os .fileExists)
      else if hasParent tree path then
        .ok ((), tree.alter (fun _ => some (.directory (host.newMode mode) [])) path)
      else .error (missing tree path)
  | .openDirectory path =>
      match tree.entryKind path with
      | some .directory => .ok ((), tree)
      | some .file | some .symlink | some .other => .error (.os .other)
      | none => .error (missing tree path)
  | .stat path =>
      match tree.find path with
      | some entry => .ok ((entry.kind, entry.mode), tree)
      | none => .error (missing tree path)
  | .listDirectory path =>
      match tree.find path with
      | some (.directory _ children) => .ok (children.map Prod.fst, tree)
      | some _ => .error (.os .other)
      | none => .error (missing tree path)
  | .readFile path =>
      match tree.find path with
      | some (.file mode content) => .ok ((content, mode), tree)
      | some _ => .error (.os .other)
      | none => .error (missing tree path)
  | .createFile path mode =>
      if (tree.find path).isSome then .error (.os .fileExists)
      else if hasParent tree path then
        .ok ((), tree.alter (fun _ => some (.file (host.newMode mode) [])) path)
      else .error (missing tree path)
  | .writeFile path content =>
      match tree.find path with
      | some (.file mode written) =>
          let count := min content.length (host.taken + 1)
          .ok (count, tree.alter (fun _ => some (.file mode (written ++ content.take count))) path)
      | some _ => .error (.os .other)
      | none => .error (missing tree path)
  | .changeMode path mode =>
      if (tree.find path).isSome then
        .ok ((), tree.alter (fun entry => entry.map (withMode mode)) path)
      else .error (missing tree path)
  | .sync _ => .ok ((), tree)
  | .unlink path =>
      match tree.entryKind path with
      | some .directory => .error (.os .other)
      | some .file | some .symlink | some .other => .ok ((), tree.alter (fun _ => none) path)
      | none => .error (missing tree path)

/-- The hosts there can be, and whether calls can fail without a reason in the tree. -/
structure Conditions where
  hosts : AddHost → Prop
  faults : Prop

inductive Performs (conditions : Conditions) :
    FileTree → (op : AddOp) → Except AddError op.Answer → FileTree → Prop where
  | answers {before after : FileTree} {op : AddOp} {answer : op.Answer} (host : AddHost) :
      conditions.hosts host → act host before op = .ok (answer, after) →
      Performs conditions before op (.ok answer) after
  | refuses {before : FileTree} {op : AddOp} {error : AddError} (host : AddHost) :
      conditions.hosts host → act host before op = .error error →
      Performs conditions before op (.error error) before
  | fails {before : FileTree} {op : AddOp} {error : AddError} :
      conditions.faults → error = .os .other ∨ error = .interrupt →
      Performs conditions before op (.error error) before
  /-- An interrupt that is noticed after the call. -/
  | interrupted {before after : FileTree} {op : AddOp} {answer : op.Answer} (host : AddHost) :
      conditions.faults → conditions.hosts host → act host before op = .ok (answer, after) →
      Performs conditions before op (.error .interrupt) after

/-- Others may do anything elsewhere, as long as the destination and the directories above it stay.
-/
structure Foreign (destination : List String) (before after : FileTree) : Prop where
  inside : ∀ parts, after.find (destination ++ parts) = before.find (destination ++ parts)
  above : hasParent after destination = hasParent before destination

abbrev Add := Program AddOp AddOp.Answer AddError

def addSetting (conditions : Conditions) (destination : List String) :
    Program.Setting AddOp AddOp.Answer AddError FileTree :=
  ⟨Performs conditions, Foreign destination⟩

/-! ### Scaffolds -/

/-- `_AddScaffold`. -/
structure Scaffold where
  rootMode : Nat
  directories : List (List String × Nat)
  files : List (List String × Bytes × Nat)

def markerName : String := ".supernote-add-incomplete"

/-- The directories above files, those near the root first. -/
def directoryPaths (files : List (List String)) : List (List String) :=
  ((files.flatMap GenerationPlan.ancestors).dedup).insertionSort fun left right =>
    left.length < right.length ∨ (left.length = right.length ∧ FileTree.partsLe left right = true)

/-- Whether a path is one of several. -/
def includes (paths : List (List String)) (parts : List String) : Bool :=
  paths.any fun path => path = parts

@[simp] theorem includes_iff {paths : List (List String)} {parts : List String} :
    includes paths parts = true ↔ parts ∈ paths := by
  rw [includes, List.any_eq_true]
  constructor
  · rintro ⟨path, hpath, hsame⟩
    exact of_decide_eq_true hsame ▸ hpath
  · exact fun hmem => ⟨parts, hmem, decide_eq_true rfl⟩

/-- `validate_persisted_relative_path`, which raises nothing but this kind of error. -/
def parseFile (relative : String) : Except AddError (List String) :=
  match GenerationPlan.validatePersistedRelativePath relative with
  | .ok () => .ok (pathParts relative)
  | .error (.filesystem message) | .error (.plan message) => .error (.filesystem message)
  | .error .assertion => .error (.filesystem "")

def notRegular (path : List String) : AddError :=
  .filesystem ("Fresh add scaffold entry is not regular: " ++ path.getLastD "")

def captureDirectory (source : FileTree) (parts : List String) :
    Except AddError (List String × Nat) :=
  match source.find parts with
  | some (.directory mode _) => .ok (parts, mode)
  | some _ => .error (.concurrent "Staged feature directory changed during Linux fallback")
  | none => .error (missing source parts)

def captureFile (source : FileTree) (parts : List String) :
    Except AddError (List String × Bytes × Nat) :=
  match source.find parts with
  | some (.file mode content) => .ok (parts, content, mode)
  | some _ => .error (notRegular parts)
  | none => .error (missing source parts)

/-- `_capture_add_scaffold`, of a staged feature that nobody else touches. -/
def captureAddScaffold (source : FileTree) (expectedFiles : List String) :
    Except AddError Scaffold := do
  let parsed ← expectedFiles.mapM parseFile
  if ¬ parsed.Nodup ∨ includes parsed [markerName] then
    .error (.filesystem "Linux add fallback scaffold plan is invalid")
  else do
    let directories ← (directoryPaths parsed).mapM (captureDirectory source)
    let files ← parsed.mapM (captureFile source)
    return { rootMode := source.mode, directories, files }

/-- `_add_marker_payload`. -/
def addMarkerPayload (sha256 : Bytes → String) (destinationName : String) (scaffold : Scaffold) :
    Bytes :=
  Json.dumpsLine (fun _ => "") <| .object [
    ("schema_version", .integer 1),
    ("kind", .string "supernote-feature-add-incomplete"),
    ("destination", .string destinationName),
    ("root_mode", .integer scaffold.rootMode),
    ("directories", .array <| scaffold.directories.map fun (parts, mode) =>
      .object [("path", .string (PurePosixPath.joinComponents parts)), ("mode", .integer mode)]),
    ("files", .array <| scaffold.files.map fun (parts, content, mode) =>
      .object [
        ("path", .string (PurePosixPath.joinComponents parts)), ("mode", .integer mode),
        ("size", .integer content.length), ("sha256", .string (sha256 content))])]

/-! ### Single entries -/

def makeDirectory (path : List String) (mode : Nat) : Add Unit :=
  .call (AddOp.makeDirectory path mode)

def openDirectory (path : List String) : Add Unit :=
  .call (AddOp.openDirectory path)

def stat (path : List String) : Add (EntryKind × Nat) :=
  .call (AddOp.stat path)

def listDirectory (path : List String) : Add (List String) :=
  .call (AddOp.listDirectory path)

def readFile (path : List String) : Add (Bytes × Nat) :=
  .call (AddOp.readFile path)

def createFile (path : List String) (mode : Nat) : Add Unit :=
  .call (AddOp.createFile path mode)

def writeFile (path : List String) (content : Bytes) : Add Nat :=
  .call (AddOp.writeFile path content)

def changeMode (path : List String) (mode : Nat) : Add Unit :=
  .call (AddOp.changeMode path mode)

def sync (path : List String) : Add Unit :=
  .call (AddOp.sync path)

def unlink (path : List String) : Add Unit :=
  .call (AddOp.unlink path)

def demand (condition : Prop) [Decidable condition] (error : AddError) : Add Unit :=
  if condition then pure () else .raised error

/-- `_read_add_file`. -/
def readAddFile (path : List String) : Add (Bytes × Nat) := do
  let (kind, _) ← stat path
  demand (kind = .file) (notRegular path)
  readFile path

/-- `_open_matching_add_directory`. -/
def openMatchingAddDirectory (path : List String) (message : String) : Add Unit := do
  match ← (openDirectory path).attempt with
  | .ok () => pure ()
  | .error (.os _) => .raised (.concurrent message)
  | .error error => .raised error

/-- `_linux_mkdir_open_directory`. -/
def mkdirOpenDirectory (path : List String) (mode : Nat) (shown : String) : Add Unit := do
  makeDirectory path mode
  openDirectory path
  let (kind, _) ← stat path
  let names ← listDirectory path
  demand (kind = .directory ∧ names = [])
    (.concurrent s!"Created authored feature directory was substituted: {shown}")

/-- The loop over a view of the content: every write takes a byte of it at least. -/
def writeAll (path : List String) : Nat → Bytes → Add Unit
  | 0, _ => pure ()
  | _ + 1, [] => pure ()
  | fuel + 1, byte :: view => do
      let written ← writeFile path (byte :: view)
      writeAll path fuel ((byte :: view).drop written)

/-- `_write_add_file_exclusive`. -/
def writeAddFileExclusive (path : List String) (content : Bytes) (mode : Nat) : Add Unit := do
  createFile path mode
  writeAll path content.length content
  changeMode path mode
  sync path
  let _ ← stat path
  pure ()

/-! ### The destination -/

section

-- The absolute path of the destination, for messages.
variable (destination : List String) (shown : String) (scaffold : Scaffold) (marker : Bytes)

def modified : AddError :=
  .filesystem s!"Incomplete authored feature publication was modified: {shown}"

def incomplete : AddError :=
  .filesystem s!"Incomplete authored feature publication is incomplete: {shown}"

def markerChanged : AddError :=
  .filesystem s!"Incomplete authored feature publication marker changed: {shown}"

/-- `_open_add_destination`. -/
def openAddDestination : Add Unit := do
  let opening : Add (EntryKind × Nat) := openDirectory destination >>= fun _ => stat destination
  match ← opening.attempt with
  | .ok (kind, _) =>
      demand (kind = .directory)
        (.concurrent s!"Authored feature publication is ambiguous: {shown}")
  | .error (.os _) => .raised (.fileExists "File exists")
  | .error error => .raised error

/-- One round of the loop of `_open_incomplete_add`, with the directories that are open already. -/
def openExisting (opened : List (List String)) (directory : List String × Nat) :
    Add (List (List String)) :=
  let (parts, expectedMode) := directory
  if ¬ includes opened parts.dropLast then pure opened
  else do
    match ← (stat (destination ++ parts)).attempt with
    | .error (.os .fileNotFound) => pure opened
    | .error error => .raised error
    | .ok (_, mode) => do
        openMatchingAddDirectory (destination ++ parts)
          "Incomplete add directory changed while inspected"
        demand (mode = expectedMode) (modified shown)
        pure (opened ++ [parts])

/-! ### Validation -/

def expectedChildren (parts : List String) : List String :=
  ((scaffold.directories.map Prod.fst ++ scaffold.files.map Prod.fst).filter
    fun entry => entry.dropLast = parts).map (fun entry => entry.getLastD "") ++
    if parts = [] then [markerName] else []

def expectedDirectoryMode (parts : List String) : Nat :=
  (scaffold.directories.lookup parts).getD 0

def validateAddRootMode : Add Unit := do
  let (_, mode) ← stat destination
  demand (mode = 0o700) (modified shown)

/-- The check of a directory against one of the open directories. -/
def validateChild (parts child : List String) : Add Unit :=
  if child = [] ∨ child.dropLast ≠ parts then pure ()
  else do
    let (_, mode) ← stat (destination ++ child)
    demand (mode = expectedDirectoryMode scaffold child)
      (.concurrent "Incomplete add directory changed while inspected")

def validateAddDirectory (opened : List (List String)) (complete : Bool) (parts : List String) :
    Add Unit := do
  let names ← listDirectory (destination ++ parts)
  let allowed := expectedChildren scaffold parts
  demand (names ⊆ allowed ∧ (complete = true → allowed ⊆ names))
    (.filesystem s!"Incomplete authored feature publication has unrelated entries: {shown}")
  .forEach (validateChild destination scaffold parts) opened

def validateAddMarker : Add Unit := do
  let (content, mode) ← readAddFile (destination ++ [markerName])
  demand (content = marker ∧ mode = 0o600) (markerChanged shown)

/-- One round of `_validate_add_files`, with the files that were found. -/
def validateAddFile (opened : List (List String)) (complete : Bool) (existing : List (List String))
    (file : List String × Bytes × Nat) : Add (List (List String)) :=
  let (parts, expectedContent, expectedMode) := file
  if ¬ includes opened parts.dropLast then
    if complete then .raised (incomplete shown) else pure existing
  else do
    match ← (readAddFile (destination ++ parts)).attempt with
    | .error (.os .fileNotFound) =>
        if complete then .raised (incomplete shown) else pure existing
    | .error error => .raised error
    | .ok (content, mode) => do
        demand (content = expectedContent ∧ mode = expectedMode) (modified shown)
        pure (existing ++ [parts])

def validateAddState (opened : List (List String)) (complete : Bool) :
    Add (List (List String)) := do
  validateAddRootMode destination shown
  .forEach (validateAddDirectory destination shown scaffold opened complete) opened
  validateAddMarker destination shown marker
  .fold (validateAddFile destination shown opened complete) [] scaffold.files

/-- `_open_incomplete_add`. -/
def openIncompleteAdd : Add (List (List String) × List (List String)) := do
  match ← (readAddFile (destination ++ [markerName])).attempt with
  | .error (.os .fileNotFound) | .error (.filesystem _) | .error (.concurrent _) =>
      .raised (.fileExists "pre-existing feature is not a matching incomplete add")
  | .error error => .raised error
  | .ok (content, mode) => do
      demand (mode = 0o600 ∧ content = marker) (markerChanged shown)
      let opened ← .fold (openExisting destination shown) [[]] scaffold.directories
      let existing ← validateAddState destination shown scaffold marker opened false
      pure (opened, existing)

/-! ### Filling in -/

def fillDirectory (opened : List (List String)) (directory : List String × Nat) :
    Add (List (List String)) :=
  let (parts, mode) := directory
  if includes opened parts then pure opened
  else do
    mkdirOpenDirectory (destination ++ parts) mode ("/" ++ PurePosixPath.joinComponents parts)
    changeMode (destination ++ parts) mode
    pure (opened ++ [parts])

def fillFile (existing : List (List String)) (file : List String × Bytes × Nat) : Add Unit :=
  let (parts, content, mode) := file
  if includes existing parts then pure ()
  else writeAddFileExclusive (destination ++ parts) content mode

/-- `_fill_incomplete_add`, which also leaves the directories it opened. -/
def fillIncompleteAdd (opened existing : List (List String)) : Add (List (List String)) := do
  let filled ← .fold (fillDirectory destination) opened scaffold.directories
  .forEach (fillFile destination existing) scaffold.files
  pure filled

def requireCompleteAdd (opened : List (List String)) : Add Unit := do
  demand (opened.length = scaffold.directories.length + 1) (incomplete shown)
  let _ ← validateAddState destination shown scaffold marker opened true
  pure ()

/-- What creates the destination, or opens the one that is there. -/
def openTarget : Add Unit := do
  match ← (mkdirOpenDirectory destination 0o700 shown).attempt with
  | .ok () => writeAddFileExclusive (destination ++ [markerName]) marker 0o600
  | .error (.os .fileExists) => openAddDestination destination shown
  | .error error => .raised error

/-- `_publish_linux_add_scaffold`, from the captured scaffold on. -/
def publishScaffold : Add Unit := do
  openTarget destination shown marker
  let (opened, existing) ← openIncompleteAdd destination shown scaffold marker
  let filled ← fillIncompleteAdd destination scaffold opened existing
  requireCompleteAdd destination shown scaffold marker filled
  changeMode destination scaffold.rootMode
  let _ ← stat destination
  unlink (destination ++ [markerName])

end

/-- `_publish_linux_add_scaffold`. -/
def publishLinuxAddScaffold (sha256 : Bytes → String) (source : FileTree)
    (expectedFiles : List String) (destination : List String) (shown : String) : Add Unit := do
  let scaffold ← .ofExcept (captureAddScaffold source expectedFiles)
  publishScaffold destination shown scaffold
    (addMarkerPayload sha256 (destination.getLastD "") scaffold)

end SupernoteModule.Filesystem.LinuxAdd
