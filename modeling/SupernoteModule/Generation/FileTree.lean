import SupernoteModule.Lib.Guard
import SupernoteModule.Python.Path
import Mathlib.Data.List.Sort

/-!
# The project tree

What the generator observes of a directory tree on a POSIX host, without following symbolic links:
the kind, permission bits and content of each entry. A path is the list of its parts below the
project root. Every entry but the root has a directory above it by construction.
-/

namespace SupernoteModule.Generation

open SupernoteModule.Lib SupernoteModule.Python

abbrev Bytes := List UInt8

def utf8 (text : String) : Bytes :=
  text.toUTF8.data.toList

inductive EntryKind where
  | file
  | directory
  | symlink
  | other
deriving DecidableEq

def EntryKind.text : EntryKind → String
  | .file => "file"
  | .directory => "directory"
  | .symlink => "symlink"
  | .other => "other"

inductive FileTree where
  | file (mode : Nat) (content : Bytes)
  | directory (mode : Nat) (children : List (String × FileTree))
  | symlink (mode : Nat) (target : String)
  | other (mode : Nat)

namespace FileTree

def kind : FileTree → EntryKind
  | .file _ _ => .file
  | .directory _ _ => .directory
  | .symlink _ _ => .symlink
  | .other _ => .other

/-- `stat.S_IMODE`. -/
def mode : FileTree → Nat
  | .file mode _ | .directory mode _ | .symlink mode _ | .other mode => mode

/-- The entry at a path. -/
def find : FileTree → List String → Option FileTree
  | tree, [] => some tree
  | .directory _ children, part :: rest =>
      match children.lookup part with
      | some child => child.find rest
      | none => none
  | .file _ _, _ :: _ | .symlink _ _, _ :: _ | .other _, _ :: _ => none

/-- `entry_kind`. -/
def entryKind (tree : FileTree) (path : List String) : Option EntryKind :=
  (tree.find path).map kind

/-- The content and permission bits of a regular file. -/
def readRegular (tree : FileTree) (path : List String) : Option (Bytes × Nat) :=
  match tree.find path with
  | some (.file mode content) => some (content, mode)
  | _ => none

/-! ### Hashes -/

mutual

/-- Every entry below a directory, with its path relative to it. -/
def descendants : FileTree → List (List String × FileTree)
  | .directory _ children => descendantsOf children
  | .file _ _ | .symlink _ _ | .other _ => []

def descendantsOf : List (String × FileTree) → List (List String × FileTree)
  | [] => []
  | (name, child) :: children =>
      ([name], child) :: (descendants child).map (fun entry => (name :: entry.1, entry.2)) ++
        descendantsOf children

end

/-- What `_update_entry_hash` adds for one entry. -/
def hashRecord (relative : String) (entry : FileTree) : Bytes :=
  utf8 relative ++ [0] ++ utf8 entry.kind.text ++ [0] ++
    utf8 (String.ofList (Nat.toDigits 8 entry.mode)) ++ [0] ++
    match entry with
    | .file _ content => content
    | .symlink _ target => utf8 target
    | .directory _ _ | .other _ => []

/-- The order of paths, part by part. -/
def partsLe : List String → List String → Bool
  | [], _ => true
  | _ :: _, [] => false
  | left :: lefts, right :: rights => left < right || (left = right && partsLe lefts rights)

/-- `hash_entry_no_follow`, for a SHA-256 of bytes. -/
def hashEntry (sha256 : Bytes → String) (tree : FileTree) (path : List String) : Option String :=
  (tree.find path).map fun entry =>
    let below := entry.descendants.insertionSort fun left right => partsLe left.1 right.1
    sha256 (hashRecord "." entry ++
      below.flatMap fun (parts, child) => hashRecord (PurePosixPath.joinComponents parts) child)

end FileTree

end SupernoteModule.Generation
