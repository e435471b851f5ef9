import SupernoteModule.Generation.FileTree
import SupernoteModule.Lib.Loop
import SupernoteModule.Lib.PathResolution
import SupernoteModule.Python.Json
import SupernoteModule.Python.Collections

/-!
# Package trees

An installed package is a directory on a disk with links in it. The resolver looks at a package only
through `resolvePayload`, which follows links and never leaves the package, and asks of a source
directory that every file below it is hashed.
-/

namespace SupernoteModule.Npm

open SupernoteModule.Generation SupernoteModule.Lib SupernoteModule.Python

/-- What `fail` throws. The texts of the operating system are left out of the messages. -/
structure PackageError where
  code : String
  message : String
deriving DecidableEq

/-! ### The disk -/

def segmentOf (part : String) : Segment String :=
  if part = "" ∨ part = "." then .here else if part = ".." then .up else .down part

/-- The target of a symbolic link. -/
def linkTarget (target : String) : LinkTarget String where
  absolute := startsWith target "/"
  segments := (split target '/').map segmentOf

def seen (disk : FileTree) (path : List String) : Option (Seen String) :=
  (disk.find path).map fun
    | .directory _ _ => .directory
    | .symlink _ target => .link (linkTarget target)
    | .file _ _ | .other _ => .leaf

/-- The links a system follows along one path. -/
def maxLinks : Nat := 40

/-- `fs.realpathSync.native(path)`, for a path that is absolute and normalized. -/
def realpath (disk : FileTree) (path : List String) : Option (List String) :=
  resolve (seen disk) maxLinks [] (path.map .down)

/-- An installed package: a disk, and the physical path of the package on it. -/
structure Installation where
  disk : FileTree
  root : List String
  isComponent : ∀ part ∈ root, IsComponent part

/-- `path.posix.normalize(value) === value` for a relative value without backslashes, which may end
with one separator. -/
def isNormalized (value : String) : Bool :=
  let parts := split value '/'
  let proper (part : String) : Bool := part ≠ "" ∧ part ≠ "." ∧ part ≠ ".."
  value = "./" ||
    (parts.dropLast.all proper &&
      (proper (parts.getLastD "") || (parts.getLastD "" = "" && 1 < parts.length)))

/-- `/^[A-Za-z]:/`. -/
def hasDrive (value : String) : Bool :=
  match value.toList with
  | first :: second :: _ => first.isAlpha && second = ':'
  | _ => false

/-- `canonicalRelative`. -/
def canonicalRelative (value : Json) (code label : String) : Except PackageError String :=
  match value with
  | .string text => do
      require (text ≠ "" ∧ backslash ∉ text.toList)
        ⟨code, s!"{label} must be a non-empty portable relative path"⟩
      require (isNormalized text ∧ ¬ hasDrive text)
        ⟨code, s!"{label} must be a canonical relative path"⟩
      return text
  | _ => .error ⟨code, s!"{label} must be a non-empty portable relative path"⟩

/-- `relationInside`, for a path that is absolute and normalized. -/
def relationInside (root candidate : List String) : Bool :=
  root.isPrefixOf candidate

/-- What a payload path is expected to be. -/
inductive ExpectedKind where
  | file
  | directory
  | any
deriving DecidableEq

def checkKind (entry : FileTree) (code label : String) (expectedKind : ExpectedKind) :
    Except PackageError Unit :=
  match expectedKind with
  | .file => require (entry.kind = .file) ⟨code, s!"{label} must resolve to a regular file"⟩
  | .directory =>
      require (entry.kind = .directory) ⟨code, s!"{label} must resolve to a directory"⟩
  | .any => .ok ()

namespace Installation

variable (installation : Installation)

/-- The path a relative text stands for, before links are followed. -/
def lexical (relative : String) : List String :=
  installation.root ++ PurePosixPath.components relative

/-- `resolvePayload`: the physical path of a place in the package. -/
def resolvePayload (relative : Json) (code label : String) (expectedKind : ExpectedKind) :
    Except PackageError (List String) := do
  let text ← canonicalRelative relative code label
  let lexical := installation.lexical text
  require (relationInside installation.root lexical) ⟨code, s!"{label} escapes its package root"⟩
  let physical ← demand (realpath installation.disk lexical)
    ⟨code, s!"{label} is missing or unreadable"⟩
  require (relationInside installation.root physical)
    ⟨code, s!"{label} resolves outside its package root"⟩
  let entry ← demand (installation.disk.find physical)
    ⟨code, s!"{label} cannot be inspected"⟩
  checkKind entry code label expectedKind
  return physical

/-- `fs.readFileSync`, of a physical path that is a regular file. -/
def readFile (physical : List String) (code label : String) : Except PackageError Bytes :=
  match installation.disk.find physical with
  | some (.file _ content) => .ok content
  | _ => .error ⟨code, s!"{label} is unreadable"⟩

/-- `fs.readdirSync`, of a physical path that is a directory. -/
def readDirectory (physical : List String) (code label : String) :
    Except PackageError (List String) :=
  match installation.disk.find physical with
  | some (.directory _ children) => .ok (children.map Prod.fst)
  | _ => .error ⟨code, s!"{label} is unreadable"⟩

/-- `path.relative(root, physical)` with separators of the manifest. -/
def relativeText (physical : List String) : String :=
  PurePosixPath.joinComponents (physical.drop installation.root.length)

end Installation

/-! ### Hashed source trees -/

/-- A directory of a walk: the path it was reached by, and where that is. -/
structure WalkItem where
  relative : String
  physical : List String
deriving DecidableEq

structure WalkState where
  pending : List WalkItem
  visited : List (List String)

def registrationInvalid : String := "SNMG_MODULE_REGISTRATION_INVALID"

/-- The turn of one child: a directory to go on with, or nothing. -/
def visitChild (installation : Installation) (payloadPaths : List String) (label : String)
    (allowedSourceEntries : List String) (current : WalkItem) (name : String) :
    Except PackageError (Option WalkItem) := do
  let childRelative := current.relative ++ "/" ++ name
  let physical ← installation.resolvePayload (.string childRelative) registrationInvalid
    s!"{label} entry {childRelative}" .any
  match installation.disk.find physical with
  | some (.directory _ _) => return some ⟨childRelative, physical⟩
  | some (.file _ _) => do
      require (childRelative ∈ payloadPaths ∨ childRelative ∈ allowedSourceEntries)
        ⟨registrationInvalid, s!"{label} selects unhashed source file {childRelative}"⟩
      return none
  | _ =>
      .error ⟨registrationInvalid, s!"{label} contains an unsupported entry {childRelative}"⟩

/-- One round of the walk. The stack is listed from its top. -/
def walkRound (installation : Installation) (payloadPaths : List String) (label : String)
    (allowedSourceEntries : List String) (state : WalkState) :
    Except PackageError (Option WalkState) :=
  match state.pending with
  | [] => .ok none
  | current :: pending => do
      require (current.physical ∉ state.visited)
        ⟨registrationInvalid, s!"{label} contains a directory cycle or alias"⟩
      let names ← installation.readDirectory current.physical registrationInvalid label
      let children ←
        names.mapM (visitChild installation payloadPaths label allowedSourceEntries current)
      return some {
        pending := children.reduceOption.reverse ++ pending
        visited := current.physical :: state.visited
      }

/-- The directories of a disk, which bound the rounds of a walk. -/
def directories (disk : FileTree) : List (List String) :=
  (([], disk) :: disk.descendants).filterMap fun entry =>
    if entry.2.kind = .directory then some entry.1 else none

/-- `requireHashedSourceTree`. -/
def requireHashedSourceTree (installation : Installation) (relative : Json)
    (payloadPaths : List String) (label : String) (allowedSourceEntries : List String) :
    Except PackageError Unit := do
  let first ← installation.resolvePayload relative registrationInvalid label .directory
  let text ← canonicalRelative relative registrationInvalid label
  let rounds := (directories installation.disk).length + 1
  let outcome ← demand
    (loop (fun state =>
        some (walkRound installation payloadPaths label allowedSourceEntries state))
      rounds ⟨[⟨text, first⟩], []⟩)
    ⟨registrationInvalid, s!"{label} has more directories than its disk"⟩
  let _ ← outcome
  return ()

end SupernoteModule.Npm
