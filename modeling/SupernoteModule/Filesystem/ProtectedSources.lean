import SupernoteModule.Generation.EntryHash
import SupernoteModule.Python.Collections

/-!
# The protected sources of a project

Two walks of a project leave out what is built, cached or generated: the inventory records every
entry that is left, and the snapshot roots are the paths that a guard copies to be able to restore
them.
-/

namespace SupernoteModule.Filesystem

open SupernoteModule.Generation SupernoteModule.Python

/-- A path below the project, by its parts. -/
abbrev SourcePath := List String

/-! ### What is left out -/

/-- `_feature_component_count`. -/
def featureComponentCount (parts : SourcePath) : Option Nat :=
  if parts.head? = some "local_modules" then
    if 3 ≤ parts.length ∧ (parts[1]?.any fun scope => startsWith scope "@") = true then some 3
    else if 2 ≤ parts.length then some 2
    else none
  else none

/-- The names that a project root never protects. -/
def isManagedRootName (first : String) : Bool :=
  [".git", ".supernote-module", "node_modules", ".idea", "build", ".gradle", ".cxx", ".kotlin",
    ".supernote-module-transaction.json"].contains first ||
  startsWith first ".supernote-module-transaction-" || startsWith first ".sn-module-gen-plan-"

/-- The outputs below `android` in the project root. -/
def isAndroidOutput (parts : SourcePath) : Bool :=
  [["android", "build"], ["android", ".gradle"], ["android", ".cxx"], ["android", ".kotlin"],
    ["android", ".supernote-module"], ["android", "supernote-runtime"]].contains (parts.take 2) ||
  parts.take 3 == ["android", "app", "build"] ||
  parts.take 4 == ["android", ".supernote-module", "runtime", "build"] ||
  (parts.take 3 == ["android", ".supernote-module", "runtime"] &&
    parts[3]?.any (fun part => ["annotations", "processor"].contains part) &&
    parts[4]? == some "build")

/-- The outputs in a feature. -/
def isFeatureOutput (parts : SourcePath) : Bool :=
  (featureComponentCount parts).any fun offset =>
    (parts.drop offset).take 1 == [".supernote-generated"] ||
    [["android", "build"], ["android", ".gradle"], ["android", ".cxx"],
      ["android", ".kotlin"]].contains ((parts.drop offset).take 2)

/-- `_is_build_or_cache_path`, of the parts of a path. -/
def isBuildOrCacheParts (parts : SourcePath) : Bool :=
  match parts with
  | [] => false
  | first :: rest =>
      isManagedRootName first || isAndroidOutput (first :: rest) || isFeatureOutput (first :: rest)

def isBuildOrCachePath (relative : String) : Bool :=
  isBuildOrCacheParts (pathParts relative)

/-- `_may_contain_canonical_exclusion`, of the parts of a path. -/
def maySplitParts (parts : SourcePath) : Bool :=
  parts == ["android"] ||
  [["android", "app"], ["android", ".supernote-module"],
    ["android", ".supernote-module", "runtime"],
    ["android", ".supernote-module", "runtime", "annotations"],
    ["android", ".supernote-module", "runtime", "processor"], ["local_modules"]].contains parts ||
  (featureComponentCount parts).any fun offset =>
    decide (parts.length ≤ offset) || parts.drop offset == ["android"]

def mayContainCanonicalExclusion (relative : String) : Bool :=
  maySplitParts (pathParts relative)

/-! ### Projects -/

end SupernoteModule.Filesystem

namespace SupernoteModule.Generation.FileTree

mutual

/-- Every directory holds file names, and each of them once. -/
def WellNamed : FileTree → Prop
  | .directory _ children => (children.map Prod.fst).Nodup ∧ WellNamedAll children
  | .file _ _ | .symlink _ _ | .other _ => True

def WellNamedAll : List (String × FileTree) → Prop
  | [] => True
  | (name, child) :: children => IsFileName name ∧ child.WellNamed ∧ WellNamedAll children

end

mutual

/-- The number of entries. -/
def weight : FileTree → Nat
  | .directory _ children => weightAll children + 1
  | .file _ _ | .symlink _ _ | .other _ => 1

def weightAll : List (String × FileTree) → Nat
  | [] => 0
  | (_, child) :: children => child.weight + weightAll children

end

theorem weightAll_perm {left right : List (String × FileTree)} (hperm : left.Perm right) :
    weightAll left = weightAll right := by
  induction hperm with
  | nil => rfl
  | cons entry _ ih => rw [weightAll, weightAll, ih]
  | swap first second rest =>
      rw [weightAll, weightAll, weightAll, weightAll]
      omega
  | trans _ _ ihleft ihright => exact ihleft.trans ihright

theorem weightAll_filter_le (keep : String × FileTree → Bool)
    (children : List (String × FileTree)) :
    weightAll (children.filter keep) ≤ weightAll children := by
  induction children with
  | nil => exact Nat.le_refl 0
  | cons entry children ih =>
      rw [List.filter_cons, weightAll]
      split
      · rw [weightAll]
        omega
      · omega

end SupernoteModule.Generation.FileTree

namespace SupernoteModule.Filesystem

open SupernoteModule.Generation SupernoteModule.Python

/-- A project directory. -/
structure ProjectTree where
  mode : Nat
  children : List (String × FileTree)
  wellNamed : (FileTree.directory mode children).WellNamed

def ProjectTree.find (project : ProjectTree) (path : SourcePath) : Option FileTree :=
  (FileTree.directory project.mode project.children).find path

/-- What the operating system adds to a project: where it is, which directories it does not list,
and the times of modification. -/
structure HostView where
  root : String
  failure : SourcePath → Option String := fun _ => none
  modifiedNs : SourcePath → Nat := fun _ => 0

/-- `root / path`. -/
def HostView.place (host : HostView) (path : SourcePath) : String :=
  if path = [] then host.root else host.root ++ "/" ++ PurePosixPath.joinComponents path

/-- The entries of a directory, unless it cannot be listed. -/
def HostView.list (host : HostView) (action : String) (path : SourcePath) : Except String Unit :=
  match host.failure path with
  | none => .ok ()
  | some error => .error (action ++ " " ++ host.place path ++ ": " ++ error)

/-- A directory opened by its descriptor, where the error is that of the operating system. -/
def HostView.openDirectory (host : HostView) (path : SourcePath) : Except String Unit :=
  match host.failure path with
  | none => .ok ()
  | some error => .error error

/-- What the children yield, in the order of their names. -/
def gather {Found : Type} (rows : List (String × Except String (List Found))) :
    Except String (List Found) := do
  let lists ← (sortedBy Prod.fst rows).mapM Prod.snd
  return lists.flatten

/-! ### Snapshot roots -/

section SnapshotRoots

variable (host : HostView)

mutual

def collectChild (path : SourcePath) : FileTree → Except String (List SourcePath)
  | .directory _ children =>
      if isBuildOrCachePath (PurePosixPath.joinComponents path) then .ok []
      else if mayContainCanonicalExclusion (PurePosixPath.joinComponents path) then do
        host.list "Cannot inspect protected source directory" path
        gather (collectChildren path children)
      else .ok [path]
  | .file _ _ | .symlink _ _ | .other _ =>
      if isBuildOrCachePath (PurePosixPath.joinComponents path) then .ok [] else .ok [path]

def collectChildren (path : SourcePath) :
    List (String × FileTree) → List (String × Except String (List SourcePath))
  | [] => []
  | (name, child) :: children =>
      (name, collectChild (path ++ [name]) child) :: collectChildren path children

end

/-- `protected_source_snapshot_roots`. -/
def protectedSourceSnapshotRoots (project : ProjectTree) : Except String (List SourcePath) := do
  host.list "Cannot inspect protected source directory" []
  gather (collectChildren host [] project.children)

end SnapshotRoots

/-! ### Inventory -/

structure InventoryRecord where
  kind : EntryKind
  mode : Nat
  modifiedNs : Nat
  content : Option String
deriving DecidableEq

section Inventory

variable (host : HostView) (sha256 : Bytes → String)

def inventoryRecord (path : SourcePath) : FileTree → InventoryRecord
  | .directory mode _ => ⟨.directory, mode, 0, none⟩
  | .file mode content => ⟨.file, mode, host.modifiedNs path, some (sha256 content)⟩
  | .symlink mode target => ⟨.symlink, mode, host.modifiedNs path, some target⟩
  | .other mode => ⟨.other, mode, host.modifiedNs path, none⟩

mutual

/-- `_walk` of one name. -/
def walkChild (path : SourcePath) (entry : FileTree) :
    Except String (List (String × InventoryRecord)) :=
  let relative := PurePosixPath.joinComponents path
  if isBuildOrCachePath relative then .ok []
  else
    match entry with
    | .directory mode children => do
        host.openDirectory path
        let below ← gather (walkChildren path children)
        return (relative, inventoryRecord host sha256 path (.directory mode children)) :: below
    | .file mode content => .ok [(relative, inventoryRecord host sha256 path (.file mode content))]
    | .symlink mode target =>
        .ok [(relative, inventoryRecord host sha256 path (.symlink mode target))]
    | .other mode => .ok [(relative, inventoryRecord host sha256 path (.other mode))]

def walkChildren (path : SourcePath) :
    List (String × FileTree) → List (String × Except String (List (String × InventoryRecord)))
  | [] => []
  | (name, child) :: children =>
      (name, walkChild (path ++ [name]) child) :: walkChildren path children

end

/-- `inventory_posix_tree`, before the items are sorted. -/
def inventoryPosixTree (project : ProjectTree) :
    Except String (List (String × InventoryRecord)) := do
  host.openDirectory []
  gather (walkChildren host sha256 [] project.children)

/-- A directory that is still to be listed. -/
abbrev Pending := SourcePath × List (String × FileTree)

def pendingWeight : List Pending → Nat
  | [] => 0
  | (_, children) :: pending => FileTree.weightAll children + 1 + pendingWeight pending

/-- What a listing keeps, the last name first. -/
def keptChildren (path : SourcePath) (children : List (String × FileTree)) :
    List (String × FileTree) :=
  (sortedBy Prod.fst children).reverse.filter fun (name, _) =>
    ! isBuildOrCachePath (PurePosixPath.joinComponents (path ++ [name]))

/-- The directories that are pushed. -/
def pushedDirectories (path : SourcePath) : List (String × FileTree) → List Pending
  | [] => []
  | (name, .directory _ children) :: kept =>
      (path ++ [name], children) :: pushedDirectories path kept
  | (_, .file _ _) :: kept | (_, .symlink _ _) :: kept | (_, .other _) :: kept =>
      pushedDirectories path kept

theorem pendingWeight_append (left right : List Pending) :
    pendingWeight (left ++ right) = pendingWeight left + pendingWeight right := by
  induction left with
  | nil => simp [pendingWeight]
  | cons entry left ih =>
      rw [List.cons_append, pendingWeight, pendingWeight, ih]
      omega

theorem pendingWeight_reverse (pending : List Pending) :
    pendingWeight pending.reverse = pendingWeight pending := by
  induction pending with
  | nil => rfl
  | cons entry pending ih =>
      rw [List.reverse_cons, pendingWeight_append, ih, pendingWeight, pendingWeight, pendingWeight]
      omega

theorem pendingWeight_pushed_le (path : SourcePath) (kept : List (String × FileTree)) :
    pendingWeight (pushedDirectories path kept) ≤ FileTree.weightAll kept := by
  induction kept with
  | nil => exact Nat.le_refl 0
  | cons entry kept ih =>
      obtain ⟨name, child⟩ := entry
      cases child with
      | directory mode children =>
          rw [pushedDirectories, pendingWeight, FileTree.weightAll, FileTree.weight]
          omega
      | _ =>
          rw [pushedDirectories, FileTree.weightAll]
          omega

theorem weightAll_kept_le (path : SourcePath) (children : List (String × FileTree)) :
    FileTree.weightAll (keptChildren path children) ≤ FileTree.weightAll children := by
  calc
    _ ≤ FileTree.weightAll (sortedBy Prod.fst children).reverse := FileTree.weightAll_filter_le ..
    _ = FileTree.weightAll children :=
        FileTree.weightAll_perm ((List.reverse_perm _).trans (sortedBy_perm _ _))

/-- The loop of `source_tree_inventory`, with the top of the stack first. -/
def inventoryLoop :
    List Pending → List (String × InventoryRecord) → Except String (List (String × InventoryRecord))
  | [], inventory => .ok inventory
  | (path, children) :: pending, inventory => do
      host.list "Cannot inventory source directory" path
      let kept := keptChildren path children
      let records := kept.map fun (name, child) =>
        (PurePosixPath.joinComponents (path ++ [name]),
          inventoryRecord host sha256 (path ++ [name]) child)
      inventoryLoop ((pushedDirectories path kept).reverse ++ pending) (inventory ++ records)
termination_by pending => pendingWeight pending
decreasing_by
  have hpushed := pendingWeight_pushed_le path (keptChildren path children)
  have hkept := weightAll_kept_le path children
  rw [pendingWeight_append, pendingWeight_reverse, pendingWeight]
  omega

/-- `source_tree_inventory`, on a host that opens names relative to a descriptor or on another. -/
def sourceTreeInventory (descriptorBound : Bool) (project : ProjectTree) :
    Except String (List (String × InventoryRecord)) := do
  let inventory ←
    if descriptorBound then inventoryPosixTree host sha256 project
    else inventoryLoop host sha256 [([], project.children)] []
  return sortedBy Prod.fst inventory

end Inventory

end SupernoteModule.Filesystem
