import SupernoteModule.Generation.EntryHash
import SupernoteModule.Generation.GenerationPlan
import SupernoteModule.Lib.Effects
import SupernoteModule.Lib.Territory

/-!
# The project tree as a disk

The system calls with which generated output is published on a POSIX host. A call does one thing to
the tree when nothing goes wrong; it can also be refused, break off in the middle, or be followed by
an interrupt. Directories are named by their paths: the descriptors that the source keeps open lead
to the same entries as long as nobody else moves the directories above the published paths.
-/

namespace SupernoteModule.Generation.FileTree

open SupernoteModule.Lib SupernoteModule.Python

/-! ### Changing one entry -/

/-- What is found at a path, without what is below it. -/
def look (tree : FileTree) (path : List String) : Option EntryFacts :=
  (tree.find path).map facts

def assign (children : List (String × FileTree)) (name : String) (entry : Option FileTree) :
    List (String × FileTree) :=
  children.filter (fun child => child.1 != name) ++ entry.toList.map (Prod.mk name)

/-- The tree with the entry at a path changed, if there is a directory for it. -/
def alter (change : Option FileTree → Option FileTree) : FileTree → List String → FileTree
  | tree, [] => tree
  | .directory mode children, name :: rest =>
      .directory mode <| assign children name <|
        if rest.isEmpty then change (children.lookup name)
        else (children.lookup name).map fun child => child.alter change rest
  | .file mode content, _ :: _ => .file mode content
  | .symlink mode target, _ :: _ => .symlink mode target
  | .other mode, _ :: _ => .other mode

theorem lookup_assign (children : List (String × FileTree)) (name other : String)
    (entry : Option FileTree) :
    (assign children name entry).lookup other =
      if other = name then entry else children.lookup other := by
  have hfilter : (children.filter fun child => child.1 != name).lookup other =
      if other = name then none else children.lookup other := by
    induction children with
    | nil => simp
    | cons child children ih =>
        obtain ⟨first, tree⟩ := child
        rw [List.filter_cons, List.lookup_cons]
        by_cases hfirst : first = name
        · rw [if_neg (by simp [hfirst]), ih]
          by_cases hother : other = name
          · rw [if_pos hother, if_pos hother]
          · have hne : (other == first) = false := by simp [hfirst, hother]
            rw [if_neg hother, if_neg hother, hne]
        · rw [if_pos (by simp [hfirst]), List.lookup_cons, ih]
          by_cases hother : other = name
          · have hne : (other == first) = false := by
              simp [hother, Ne.symm hfirst]
            rw [if_pos hother, if_pos hother, hne]
          · rw [if_neg hother, if_neg hother]
  rw [assign, List.lookup_append, hfilter]
  by_cases hother : other = name
  · cases entry with
    | none => simp [hother]
    | some entry => simp [hother]
  · rw [if_neg hother, if_neg hother]
    cases entry with
    | none => simp
    | some entry => simp [List.lookup_cons, beq_false_of_ne hother]

variable {change : Option FileTree → Option FileTree} {tree : FileTree} {path place : List String}

theorem find_nil : tree.find [] = some tree := by
  rw [find]

theorem find_directory_cons (mode : Nat) (children : List (String × FileTree)) (name : String)
    (rest : List String) : (FileTree.directory mode children).find (name :: rest) =
      (children.lookup name).bind fun child => child.find rest := by
  rw [find]
  cases children.lookup name with
  | none => rfl
  | some child => rfl

theorem look_directory_cons (mode : Nat) (children : List (String × FileTree)) (name : String)
    (rest : List String) : (FileTree.directory mode children).look (name :: rest) =
      (children.lookup name).bind fun child => child.look rest := by
  rw [look, find_directory_cons]
  cases children.lookup name with
  | none => rfl
  | some child => rfl

/-- A change at a path is seen nowhere but at and below it. -/
theorem look_alter_of_not_prefix (hplace : ¬ path <+: place) :
    (tree.alter change path).look place = tree.look place := by
  induction path generalizing tree place with
  | nil => exact absurd List.nil_prefix hplace
  | cons name rest ih =>
      cases tree with
      | directory mode children =>
          rw [alter]
          cases place with
          | nil => rfl
          | cons other below =>
              rw [look_directory_cons, look_directory_cons, lookup_assign]
              by_cases hother : other = name
              · have hbelow : ¬ rest <+: below := by
                  intro hleads
                  exact hplace (List.cons_prefix_cons.mpr ⟨hother.symm, hleads⟩)
                have hrest : rest.isEmpty = false := by
                  cases rest with
                  | nil => exact absurd List.nil_prefix hbelow
                  | cons => rfl
                rw [if_pos hother, hrest, if_neg Bool.false_ne_true, hother]
                cases children.lookup name with
                | none => rfl
                | some child => exact ih hbelow
              · rw [if_neg hother]
      | file mode content => rfl
      | symlink mode target => rfl
      | other mode => rfl

/-- Neither is an entry that does not meet the path. -/
theorem find_alter_of_not_overlap (hplace : ¬ Overlap path place) :
    (tree.alter change path).find place = tree.find place := by
  induction path generalizing tree place with
  | nil => exact absurd overlap_nil_left hplace
  | cons name rest ih =>
      cases tree with
      | directory mode children =>
          cases place with
          | nil => exact absurd overlap_nil_right hplace
          | cons other below =>
              rw [alter, find, find, lookup_assign]
              by_cases hother : other = name
              · have hbelow : ¬ Overlap rest below := by
                  intro hoverlap
                  exact hplace (overlap_cons_cons.mpr ⟨hother.symm, hoverlap⟩)
                have hrest : rest.isEmpty = false := by
                  cases rest with
                  | nil => exact absurd overlap_nil_left hbelow
                  | cons => rfl
                rw [if_pos hother, hrest, if_neg Bool.false_ne_true, hother]
                cases children.lookup name with
                | none => rfl
                | some child => exact ih hbelow
              · rw [if_neg hother]
      | file mode content => rfl
      | symlink mode target => rfl
      | other mode => rfl

theorem exists_directory (hdirectory : (tree.look []).map EntryFacts.kind = some .directory) :
    ∃ mode children, tree = .directory mode children := by
  cases tree with
  | directory mode children => exact ⟨mode, children, rfl⟩
  | file mode content => simp [look, find, facts, EntryFacts.kind] at hdirectory
  | symlink mode target => simp [look, find, facts, EntryFacts.kind] at hdirectory
  | other mode => simp [look, find, facts, EntryFacts.kind] at hdirectory

/-- A change below a directory is seen at the path and below it. -/
theorem find_alter_append {name : String} (below : List String)
    (hparent : (tree.look path).map EntryFacts.kind = some .directory) :
    (tree.alter change (path ++ [name])).find (path ++ name :: below) =
      (change (tree.find (path ++ [name]))).bind fun entry => entry.find below := by
  induction path generalizing tree with
  | nil =>
      obtain ⟨mode, children, rfl⟩ := exists_directory hparent
      rw [List.nil_append, List.nil_append, alter, find_directory_cons, lookup_assign, if_pos rfl,
        List.isEmpty_nil, if_pos rfl, find_directory_cons]
      simp only [find_nil, Option.bind_fun_some]
  | cons first rest ih =>
      cases tree with
      | directory mode children =>
          have hempty : (rest ++ [name]).isEmpty = false := by simp
          rw [look_directory_cons] at hparent
          rw [List.cons_append, List.cons_append, alter, find_directory_cons, lookup_assign,
            if_pos rfl, hempty, if_neg Bool.false_ne_true, find_directory_cons]
          cases hchild : children.lookup first with
          | none => rw [hchild] at hparent; cases hparent
          | some child =>
              rw [hchild] at hparent
              exact ih hparent
      | file mode content => simp [look, find] at hparent
      | symlink mode target => simp [look, find] at hparent
      | other mode => simp [look, find] at hparent

end SupernoteModule.Generation.FileTree

namespace SupernoteModule.Filesystem

open SupernoteModule.Generation SupernoteModule.Lib SupernoteModule.Python

/-! ### System calls -/

/-- The kinds of `OSError` that are told apart. -/
inductive OsError where
  | fileNotFound
  | fileExists
  | other
deriving DecidableEq

/-- What a program on the disk raises. -/
inductive DiskError where
  | os (error : OsError)
  | plan (error : PlanError)
  | runtime (message : String)
  | interrupt
deriving DecidableEq

/-- The calls, on paths below the project root. -/
inductive DiskOp where
  /-- `tempfile.mkdtemp` in the project root. -/
  | makeTemporaryDirectory (start : String)
  | makeDirectory (path : List String)
  /-- `os.open` of a directory that is no link. -/
  | openDirectory (path : List String)
  | lstat (path : List String)
  | writeBytes (path : List String) (content : Bytes)
  | changeMode (path : List String) (mode : Nat)
  | readBytes (path : List String)
  /-- `os.rename` of a regular file. -/
  | rename (source destination : List String)
  | unlink (path : List String)
  /-- `shutil.rmtree` with errors ignored. -/
  | removeTree (path : List String)
  /-- What a check of the project reads. -/
  | inspect

def DiskOp.Answer : DiskOp → Type
  | .makeTemporaryDirectory _ => String
  | .lstat _ => EntryKind
  | .readBytes _ => Bytes
  | .inspect => FileTree
  | .makeDirectory _ | .openDirectory _ | .writeBytes _ _ | .changeMode _ _ | .rename _ _
  | .unlink _ | .removeTree _ => Unit

/-- What the host chooses: the end of a temporary name, and the modes of new entries. -/
structure Host where
  suffix : String
  fileMode : Nat
  directoryMode : Nat

def hasParent (tree : FileTree) (path : List String) : Bool :=
  tree.entryKind path.dropLast == some .directory

/-- Why there is nothing at a path: a directory above it is missing, or is no directory. -/
def missing (tree : FileTree) (path : List String) : DiskError :=
  match (path.inits.filterMap tree.entryKind).find? (· != .directory) with
  | some _ => .os .other
  | none => .os .fileNotFound

/-- What a call does when nothing goes wrong. -/
def act (host : Host) (tree : FileTree) : (op : DiskOp) → Except DiskError (op.Answer × FileTree)
  | .makeTemporaryDirectory start =>
      let name := start ++ host.suffix
      if hasParent tree [name] && (tree.find [name]).isNone then
        .ok (name, tree.alter (fun _ => some (.directory 0o700 [])) [name])
      else .error (.os .fileExists)
  | .makeDirectory path =>
      if (tree.find path).isSome then .error (.os .fileExists)
      else if hasParent tree path then
        .ok ((), tree.alter (fun _ => some (.directory host.directoryMode [])) path)
      else .error (missing tree path)
  | .openDirectory path =>
      match tree.entryKind path with
      | some .directory => .ok ((), tree)
      | some .file | some .symlink | some .other => .error (.os .other)
      | none => .error (missing tree path)
  | .lstat path =>
      match tree.entryKind path with
      | some kind => .ok (kind, tree)
      | none => .error (missing tree path)
  | .writeBytes path content =>
      match tree.find path with
      | some (.file mode _) => .ok ((), tree.alter (fun _ => some (.file mode content)) path)
      | some _ => .error (.os .other)
      | none =>
          if hasParent tree path then
            .ok ((), tree.alter (fun _ => some (.file host.fileMode content)) path)
          else .error (missing tree path)
  | .changeMode path mode =>
      match tree.find path with
      | some (.file _ content) => .ok ((), tree.alter (fun _ => some (.file mode content)) path)
      | some _ => .error (.os .other)
      | none => .error (missing tree path)
  | .readBytes path =>
      match tree.find path with
      | some (.file _ content) => .ok (content, tree)
      | some _ => .error (.os .other)
      | none => .error (missing tree path)
  | .rename source destination =>
      match tree.find source with
      | none => .error (missing tree source)
      | some entry =>
          if entry.kind = .directory ∨ tree.entryKind destination = some .directory then
            .error (.os .other)
          else if hasParent tree destination then
            .ok ((), (tree.alter (fun _ => none) source).alter (fun _ => some entry) destination)
          else .error (missing tree destination)
  | .unlink path =>
      match tree.entryKind path with
      | some .directory => .error (.os .other)
      | some .file | some .symlink | some .other => .ok ((), tree.alter (fun _ => none) path)
      | none => .error (missing tree path)
  | .removeTree path => .ok ((), tree.alter (fun _ => none) path)
  | .inspect => .ok (tree, tree)

/-! ### What can go wrong -/

/-- A call that does not come to its end: most leave the tree as it was, and two of them leave
anything at their path. -/
def BreaksOff (op : DiskOp) (before after : FileTree) : Prop :=
  match op with
  | .writeBytes path _ | .removeTree path =>
      (∀ place, ¬ path <+: place → after.look place = before.look place) ∧
        ∀ place, ¬ Overlap path place → after.find place = before.find place
  | _ => after = before

inductive Performs : FileTree → (op : DiskOp) → Except DiskError op.Answer → FileTree → Prop where
  | answers {before after : FileTree} {op : DiskOp} {answer : op.Answer} (host : Host) :
      act host before op = .ok (answer, after) → Performs before op (.ok answer) after
  | refuses {before : FileTree} {op : DiskOp} {error : DiskError} (host : Host) :
      act host before op = .error error → Performs before op (.error error) before
  /-- An input or output error, or an interrupt. -/
  | breaksOff {before after : FileTree} {op : DiskOp} {error : DiskError} :
      BreaksOff op before after → error = .os .other ∨ error = .interrupt →
      Performs before op (.error error) after
  /-- An interrupt that is noticed after the call. -/
  | interrupted {before after : FileTree} {op : DiskOp} {answer : op.Answer} (host : Host) :
      act host before op = .ok (answer, after) → Performs before op (.error .interrupt) after
  /-- A removal that ignores its errors. -/
  | ignores {before after : FileTree} {path : List String} :
      BreaksOff (.removeTree path) before after → Performs before (.removeTree path) (.ok ()) after
  /-- A path with a link above its end is followed out of the tree. -/
  | follows {tree : FileTree} {path above : List String} (answer : Except DiskError EntryKind) :
      above <+: path → above ≠ path → tree.entryKind above = some .symlink →
      Performs tree (.lstat path) answer tree

abbrev Disk := Program DiskOp DiskOp.Answer DiskError

/-- The disk, with others acting on it. -/
def diskSetting (foreign : FileTree → FileTree → Prop) :
    Program.Setting DiskOp DiskOp.Answer DiskError FileTree :=
  ⟨Performs, foreign⟩

end SupernoteModule.Filesystem
