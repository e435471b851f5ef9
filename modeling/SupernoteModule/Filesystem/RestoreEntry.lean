import SupernoteModule.Generation.FileTree

/-!
# Putting a backup entry in place

`_restore_backup_entry_atomic` of a recovery and `_restore_entry` of the source guard copy a backup
next to its destination, set the live entry aside, move the copy in and compare hashes. A call
touches three names of the directory that holds the destination.
-/

namespace SupernoteModule.Filesystem

open SupernoteModule.Generation SupernoteModule.Python

/-! ### Directories -/

/-- A directory, by the names in it. -/
abbrev Directory := String → Option FileTree

namespace Directory

def lexists (directory : Directory) (name : String) : Bool :=
  (directory name).isSome

def put (directory : Directory) (name : String) (entry : Option FileTree) : Directory :=
  Function.update directory name entry

/-- `os.replace`. -/
def replace (directory : Directory) (source destination : String) : Directory :=
  (directory.put destination (directory source)).put source none

theorem put_same (directory : Directory) (name : String) (entry : Option FileTree) :
    directory.put name entry name = entry :=
  Function.update_self ..

theorem put_of_ne (directory : Directory) {name other : String} (hother : other ≠ name)
    (entry : Option FileTree) : directory.put name entry other = directory other :=
  Function.update_of_ne hother ..

theorem replace_source (directory : Directory) (source destination : String) :
    directory.replace source destination source = none :=
  put_same ..

theorem replace_destination (directory : Directory) {source destination : String}
    (hnames : destination ≠ source) :
    directory.replace source destination destination = directory source := by
  rw [replace, put_of_ne _ hnames, put_same]

theorem replace_of_ne (directory : Directory) {source destination other : String}
    (hsource : other ≠ source) (hdestination : other ≠ destination) :
    directory.replace source destination other = directory other := by
  rw [replace, put_of_ne _ hsource, put_of_ne _ hdestination]

end Directory

/-! ### What can go wrong -/

/-- The steps of a call that can raise, those of the rollback among them. -/
inductive RestoreStep where
  | copy
  | setAside
  | moveIn
  | hash
  | removeStaged
  | removeActivated
  | putBack
  | removeDisplaced
deriving DecidableEq

inductive RestoreError where
  | filesystem (message : String)
  | raised (step : RestoreStep)
deriving DecidableEq

/-- What happens around a call: any of its steps may raise. -/
structure Circumstances where
  raises : RestoreStep → Bool := fun _ => false
  /-- An interrupt raises in a rename after the rename is done. -/
  interrupted : RestoreStep → Bool := fun _ => false
  /-- What a copy or a removal that raises leaves at its name. -/
  leftover : RestoreStep → Option FileTree := fun _ => none
  /-- What another program puts in the place of the copy before it is hashed. -/
  exchanged : Option FileTree := none

/-- What is found where a copy has been moved in. -/
def Circumstances.activated (circumstances : Circumstances) (copy : FileTree) : FileTree :=
  circumstances.exchanged.getD copy

/-- The directory with that in it. -/
def Circumstances.disturb (circumstances : Circumstances) (name : String) (directory : Directory) :
    Directory :=
  match circumstances.exchanged with
  | none => directory
  | some entry => directory.put name (some entry)

/-! ### Steps -/

/-- `copy_entry_no_follow`. -/
def copyEntryNoFollow (path : String) : Option FileTree → Except String FileTree
  | none => .error s!"Cannot preserve missing source entry: {path}"
  | some entry =>
      let below := entry.descendants.insertionSort fun left right =>
        FileTree.partsLe left.1 right.1
      match (([], entry) :: below).find? fun (_, found) => found.kind = .other with
      | none => .ok entry
      | some ([], _) => .error s!"Cannot preserve unsupported source entry type: {path}"
      | some (parts, _) =>
          .error ("Cannot preserve unsupported source entry type: " ++ path ++ "/" ++
            PurePosixPath.joinComponents parts)

/-- `hash_entry_no_follow` of what is at a name, for a SHA-256 of bytes. -/
def hashEntryNoFollow (sha256 : Bytes → String) (entry : Option FileTree) : Option String :=
  entry.bind fun found => found.hashEntry sha256 []

/-- The names that one call touches. -/
structure RestoreNames where
  destination : String
  staged : String
  displaced : String

def hiddenName (destination label token : String) : String :=
  s!".{destination}.sn-module-gen-{label}-{token}"

def RestoreNames.of (label destination token : String) : RestoreNames where
  destination := destination
  staged := hiddenName destination label token
  displaced := hiddenName destination "displaced" token

section Steps

variable (circumstances : Circumstances) (sha256 : Bytes → String) (names : RestoreNames)

/-- `os.replace` as a step that can raise. -/
def rename (step : RestoreStep) (source destination : String) (directory : Directory) :
    Except RestoreError Unit × Directory :=
  if circumstances.raises step then
    (.error (.raised step),
      if circumstances.interrupted step then directory.replace source destination else directory)
  else (.ok (), directory.replace source destination)

/-- `remove_entry_no_follow`, where there is something. A directory that may not be written cannot
be emptied. -/
def removeEntryNoFollow (step : RestoreStep) (name : String) (directory : Directory) :
    Except RestoreError Unit × Directory :=
  if directory.lexists name then
    if circumstances.raises step then
      (.error (.raised step), directory.put name (circumstances.leftover step))
    else (.ok (), directory.put name none)
  else (.ok (), directory)

/-- Whether what has been moved in is the backup, by the hashes of both. -/
def verify (mismatch : String) (source : Option FileTree) (directory : Directory) :
    Except RestoreError Unit :=
  if circumstances.raises .hash then .error (.raised .hash)
  else if hashEntryNoFollow sha256 (directory names.destination) ≠
    hashEntryNoFollow sha256 source then .error (.filesystem mismatch)
  else .ok ()

/-- The body of the `try`. -/
def activate (mismatch : String) (source : Option FileTree) (directory : Directory) :
    Except RestoreError Unit × Directory :=
  let hadDestination := directory.lexists names.destination
  let (aside, directory) :=
    if hadDestination then
      rename circumstances .setAside names.destination names.displaced directory
    else (.ok (), directory)
  match aside with
  | .error error => (.error error, directory)
  | .ok () =>
      let (moved, directory) :=
        rename circumstances .moveIn names.staged names.destination directory
      match moved with
      | .error error => (.error error, directory)
      | .ok () =>
          let directory := circumstances.disturb names.destination directory
          (verify circumstances sha256 names mismatch source directory, directory)

/-- The end of the `except` branch, where an entry is aside. -/
def putBackDisplaced (error : RestoreError) (directory : Directory) :
    Except RestoreError Unit × Directory :=
  match removeEntryNoFollow circumstances .removeActivated names.destination directory with
  | (.error removal, directory) => (.error removal, directory)
  | (.ok (), directory) =>
      match rename circumstances .putBack names.displaced names.destination directory with
      | (.error refusal, directory) => (.error refusal, directory)
      | (.ok (), directory) => (.error error, directory)

/-- The `except` branch, which raises the error again unless one of its own steps raises. -/
def rollBack (error : RestoreError) (directory : Directory) :
    Except RestoreError Unit × Directory :=
  match removeEntryNoFollow circumstances .removeStaged names.staged directory with
  | (.error removal, directory) => (.error removal, directory)
  | (.ok (), directory) =>
      if directory.lexists names.displaced then
        putBackDisplaced circumstances names error directory
      else (.error error, directory)

/-- What both functions do. -/
def replaceByCopy (mismatch sourcePath : String) (source : Option FileTree)
    (directory : Directory) : Except RestoreError Unit × Directory :=
  if circumstances.raises .copy then
    (.error (.raised .copy), directory.put names.staged (circumstances.leftover .copy))
  else
    match copyEntryNoFollow sourcePath source with
    | .error message =>
        (.error (.filesystem message), directory.put names.staged (circumstances.leftover .copy))
    | .ok copy =>
        match activate circumstances sha256 names mismatch source
            (directory.put names.staged (some copy)) with
        | (.error error, directory) => rollBack circumstances names error directory
        | (.ok (), directory) =>
            -- Outside of the `try`.
            removeEntryNoFollow circumstances .removeDisplaced names.displaced directory

end Steps

/-! ### The two functions -/

/-- `_restore_backup_entry_atomic`. -/
def restoreBackupEntryAtomic (circumstances : Circumstances) (sha256 : Bytes → String)
    (token sourcePath destination : String) (source : Option FileTree) (directory : Directory) :
    Except RestoreError Unit × Directory :=
  replaceByCopy circumstances sha256 (.of "recover" destination token)
    s!"Protected recovery activation mismatch: {destination}" sourcePath source directory

/-- `_restore_entry`. -/
def restoreEntry (circumstances : Circumstances) (sha256 : Bytes → String)
    (token sourcePath destination : String) (source : Option FileTree) (directory : Directory) :
    Except RestoreError Unit × Directory :=
  replaceByCopy circumstances sha256 (.of "restore" destination token)
    s!"Restored source does not match its backup: {destination}" sourcePath source directory

end SupernoteModule.Filesystem
