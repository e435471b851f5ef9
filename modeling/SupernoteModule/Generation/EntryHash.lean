import SupernoteModule.Generation.FileTree

/-!
# The hash of one entry

What `hash_entry_no_follow` reads on a POSIX host: the entry itself and, when it is a directory,
every entry below it. The relative paths identify the entries, so a tree is the facts found at each
path.
-/

namespace SupernoteModule.Generation

open SupernoteModule.Lib SupernoteModule.Python

/-- What is read of one entry: its kind, its permission bits, and its content or link target. A link
target is kept as bytes, since the file system does not ask for UTF-8. -/
inductive EntryFacts where
  | file (mode : Nat) (content : Bytes)
  | directory (mode : Nat)
  | symlink (mode : Nat) (target : Bytes)
  | other (mode : Nat)
deriving DecidableEq

namespace EntryFacts

def kind : EntryFacts → EntryKind
  | .file _ _ => .file
  | .directory _ => .directory
  | .symlink _ _ => .symlink
  | .other _ => .other

def mode : EntryFacts → Nat
  | .file mode _ | .directory mode | .symlink mode _ | .other mode => mode

/-- The bytes that are read: a content or a target. -/
def body : EntryFacts → Bytes
  | .file _ content => content
  | .symlink _ target => target
  | .directory _ | .other _ => []

theorem ext_of_parts {left right : EntryFacts} (hkind : left.kind = right.kind)
    (hmode : left.mode = right.mode) (hbody : left.body = right.body) : left = right := by
  cases left <;> cases right <;> simp_all [kind, mode, body]

end EntryFacts

/-- A name that a directory can hold. -/
def IsFileName (name : String) : Prop :=
  IsComponent name ∧ name ≠ ".." ∧ '\x00' ∉ name.toList

instance (name : String) : Decidable (IsFileName name) :=
  inferInstanceAs (Decidable ((name ≠ "" ∧ name ≠ "." ∧ '/' ∉ name.toList) ∧ name ≠ ".." ∧
    '\x00' ∉ name.toList))

/-- An entry with everything below it. Above each path there is a directory, so an entry that is
none has nothing below it. -/
structure SourceTree where
  root : EntryFacts
  below : List (List String × EntryFacts)
  distinct : ((([], root) :: below).map Prod.fst).Nodup
  named : ∀ entry ∈ below, ∀ name ∈ entry.1, IsFileName name
  topped : ∀ entry ∈ below,
    ((([], root) :: below).lookup entry.1.dropLast).map EntryFacts.kind = some .directory

namespace SourceTree

variable (tree : SourceTree)

/-- What is found at a path. -/
def facts? (path : List String) : Option EntryFacts :=
  (([], tree.root) :: tree.below).lookup path

/-- `iter_tree_no_follow`. -/
def iterTreeNoFollow : List (List String × EntryFacts) :=
  if tree.root.kind = .directory then
    tree.below.insertionSort fun left right => FileTree.partsLe left.1 right.1
  else []

/-- What `_update_entry_hash` adds to the digest. -/
def updateEntryHash (relative : String) (facts : EntryFacts) : Bytes :=
  utf8 relative ++ [0] ++ utf8 facts.kind.text ++ [0] ++
    utf8 (String.ofList (Nat.toDigits 8 facts.mode)) ++ [0] ++ facts.body

/-- `hash_entry_no_follow`, for a SHA-256 of bytes. -/
def hashEntryNoFollow (sha256 : Bytes → String) : String :=
  sha256 <| updateEntryHash "." tree.root ++
    tree.iterTreeNoFollow.flatMap fun (path, facts) =>
      updateEntryHash (PurePosixPath.joinComponents path) facts

/-- The same names, and at each of them the same kind, mode, content and target. -/
def Same (left right : SourceTree) : Prop :=
  ∀ path, left.facts? path = right.facts? path

end SourceTree

/-! ### The hash of the project tree -/

namespace FileTree

theorem find_append {tree : FileTree} {before after : List String} :
    tree.find (before ++ after) = (tree.find before).bind fun entry => entry.find after := by
  induction before generalizing tree with
  | nil => simp [find]
  | cons part before ih =>
      cases tree with
      | directory mode children =>
          rw [List.cons_append, find, find]
          cases children.lookup part with
          | none => simp
          | some child => exact ih
      | file mode content => simp [find]
      | symlink mode target => simp [find]
      | other mode => simp [find]

def facts : FileTree → EntryFacts
  | .file mode content => .file mode content
  | .directory mode _ => .directory mode
  | .symlink mode target => .symlink mode (utf8 target)
  | .other mode => .other mode

end FileTree

end SupernoteModule.Generation
