import SupernoteModule.Npm.ResolvePackages
import Mathlib.Data.Set.Defs

/-!
# What a build reads of a package

A build of an installed module reads its payload files, every file it finds under the source
directories of its registration, following links, and the files beside its JVM registration sources.
-/

namespace SupernoteModule.Npm

open SupernoteModule.Generation SupernoteModule.Lib SupernoteModule.Python

/-- The name of an entry of a directory. -/
def IsName (name : String) : Prop :=
  IsComponent name ∧ name ≠ ".."

/-- The path of a place below a path. -/
def below (relative : String) (names : List String) : String :=
  names.foldl (fun path name => path ++ "/" ++ name) relative

namespace Installation

variable (installation : Installation)

/-- Where the place `names` below a path is, when links are followed. -/
def place (relative : String) (names : List String) : Option (List String) :=
  realpath installation.disk (installation.lexical relative ++ names)

/-- The place is a regular file with this content. -/
def Holds (relative : String) (names : List String) (content : Bytes) : Prop :=
  ∃ physical mode, installation.place relative names = some physical ∧
    installation.disk.find physical = some (.file mode content)

/-- The files below a path, by the names that lead to them. -/
def filesUnder (relative : String) : Set (List String × Bytes) :=
  {file | (∀ name ∈ file.1, IsName name) ∧ installation.Holds relative file.1 file.2}

end Installation

/-- The contents of the regular files of a disk. -/
def contents (disk : FileTree) : List Bytes :=
  (([], disk) :: disk.descendants).filterMap fun entry =>
    match entry.2 with
    | .file _ content => some content
    | .directory _ _ | .symlink _ _ | .other _ => none

/-- No file of one disk has the digest of another content on the other disk. -/
def CollisionFree (sha256 : Bytes → String) (first second : FileTree) : Prop :=
  ∀ left ∈ contents first, ∀ right ∈ contents second, sha256 left = sha256 right → left = right

section Accepted

variable (parse : Bytes → Option Json) (sha256 : Bytes → String)

/-- A package that the resolver accepts as a module. -/
structure AcceptedPackage where
  dependency : Dependency
  module : PackageModule
  isAccepted : validateModule parse sha256 dependency = .ok (some module)

namespace AcceptedPackage

variable {parse sha256}
variable (package : AcceptedPackage parse sha256)

def installation : Installation :=
  package.dependency.installation

/-- The bytes of the distribution manifest. -/
def manifest : Option Bytes :=
  (package.installation.disk.readRegular package.module.manifest).map Prod.fst

/-- One of the lists of paths in the registration. -/
def selected (field : String) : List String :=
  let fields : Option Json.Fields := do
    let (bytes, _) ← package.installation.disk.readRegular package.module.registration
    (← parse bytes).object?
  (fields.bind fun fields => stringItems (property fields field)).getD []

/-- The directories of the JVM registration sources: where they are named, and where they are. -/
def generatedJvmDirs : List String :=
  (package.selected "jvmRegistrationSources").map dirname ++
    package.module.jvmRegistrationSources.map fun physical =>
      package.installation.relativeText physical.dropLast

end AcceptedPackage

variable {parse sha256}

/-- The file at a path of both packages has the same content. -/
def SameFile (first second : AcceptedPackage parse sha256) (path : String) : Prop :=
  ∃ content, first.installation.Holds path [] content ∧ second.installation.Holds path [] content

/-- Every file in the generated JVM directories of `first` is a payload file of both packages, or
the file that a JVM registration source leads to. -/
def GeneratedJvmHashed (first second : AcceptedPackage parse sha256) : Prop :=
  ∀ relative ∈ first.generatedJvmDirs, ∀ file ∈ first.installation.filesUnder relative,
    ∃ entry ∈ first.module.payload,
      (below relative file.1 = entry.path ∨
        entry.path ∈ first.selected "jvmRegistrationSources" ∧
          first.installation.place relative file.1 = first.installation.place entry.path []) ∧
      first.installation.Holds entry.path [] file.2 ∧
      second.installation.Holds entry.path [] file.2

/-- What a build reads of two packages is the same. -/
structure SameInputs (first second : AcceptedPackage parse sha256) : Prop where
  inventory : first.module.payload.map (fun entry => (entry.path, entry.sha256)) =
    second.module.payload.map fun entry => (entry.path, entry.sha256)
  payload : ∀ entry ∈ first.module.payload, SameFile first second entry.path
  selection : ∀ field, first.selected field = second.selected field
  sources : ∀ relative ∈ first.selected "nativeSourceDirs" ++ first.selected "jvmSourceDirs",
    first.installation.filesUnder relative = second.installation.filesUnder relative
  generatedJvm : GeneratedJvmHashed first second ∧ GeneratedJvmHashed second first

end Accepted

end SupernoteModule.Npm
