import SupernoteModule.Generation.GenerationPlan
import SupernoteModule.Generation.IntegrityManifest

/-!
# Stale output

The files a previous generation recorded and the present one no longer produces are deleted. The
record is a file of the project, so each of its rows is checked again before it becomes a delete.
-/

namespace SupernoteModule.Generation.GenerationService

open SupernoteModule.Lib SupernoteModule.Python
open SupernoteModule.Generation.GenerationPlan (demand)
open SupernoteModule.Generation.IntegrityManifest
  (LoadedIntegrityManifest runtimeRoot integrityManifestPath)

def generatedRoot : String := ".supernote-generated"

def generatedPayloadFiles : List String :=
  [".supernote-generated/index.d.ts", ".supernote-generated/index.js",
    ".supernote-generated/README.md"]

def generatedRequiredFiles : List String :=
  generatedPayloadFiles ++ [
    ".supernote-generated/android/conversion.json",
    ".supernote-generated/android/CMakeLists.txt",
    ".supernote-generated/android/feature.cpp",
    ".supernote-generated/android/internal.cpp",
    ".supernote-generated/android/internal.hpp",
    ".supernote-generated/android/jvm/JvmRegistration.java",
    ".supernote-generated/android/package_registration.cpp",
    ".supernote-generated/android/package_registration.hpp",
    ".supernote-generated/android/registration.json",
    ".supernote-generated/android/semantic.json",
    ".supernote-generated/package-manifest.json",
    ".supernote-generated/ownership.json"]

def generatedOptionalFiles : List String :=
  [".supernote-generated/android/jvm_feature.cpp",
    ".supernote-generated/android/jvm/KspAdapters.kt"]

/-- The leaves the generator writes below a feature root. -/
def featureGeneratedFiles : List String :=
  generatedRequiredFiles ++ generatedOptionalFiles

/-- `_validate_relative_path` of the feature model. -/
def NormalizedRelative (value : String) : Prop :=
  let path := PurePosixPath.parse value
  ¬ (value = "" ∨ path.isAbsolute ∨ value ≠ path.asPosix ∨ ".." ∈ path.parts ∨ "." ∈ path.parts)

instance {value : String} : Decidable (NormalizedRelative value) :=
  inferInstanceAs (Decidable (¬ _))

/-- The user-owned source roots of a feature, below its own root. -/
structure ImplementationRoots where
  native : String
  jvm : String
  nativeNormalized : NormalizedRelative native
  jvmNormalized : NormalizedRelative jvm
  different : native ≠ jvm

/-- A feature of the project; its root is relative to the plugin root. -/
structure ProjectFeature where
  npmName : String
  root : String
  roots : ImplementationRoots

def validateLeafRelative (value label : String) : Except PlanError Unit :=
  let path := PurePosixPath.parse value
  demand
    (¬ (backslash ∈ value.toList ∨ windowsAnchored value ∨ path.isAbsolute ∨ path.parts = [] ∨
      path.parts.any (· ∈ ["", ".", ".."]) ∨ path.asPosix ≠ value))
    s!"{label} must be canonical and relative: {Python.repr value}"

/-- The feature roots by package name: those of the project, updated by those of the manifest. -/
def featureRoots (projectFeatures : List ProjectFeature) (manifest : LoadedIntegrityManifest)
    (npmName : String) : Option String :=
  match manifest.features.reverse.find? (·.packageName = npmName) with
  | some feature => some feature.root
  | none => (projectFeatures.reverse.find? (·.npmName = npmName)).map (·.root)

def validatePriorArtifact (path owner : String) (featureRoots : String → Option String) :
    Except PlanError Unit := do
  validateLeafRelative path "prior artifact path"
  let runtimeBase := runtimeRoot ++ "/"
  if owner = "shared-runtime" then
    demand (¬ (¬ startsWith path runtimeBase ∨ path = runtimeRoot))
      s!"prior shared-runtime artifact is outside its managed root: {Python.repr path}"
  else if startsWith owner "feature:" then
    match featureRoots (removePrefix owner "feature:") with
    | none => .error (.plan s!"prior artifact has unknown feature owner {Python.repr owner}")
    | some featureRoot =>
        demand (path ∈ featureGeneratedFiles.map fun relative => featureRoot ++ "/" ++ relative)
          s!"prior feature artifact is not a generator-owned leaf: {Python.repr path}"
  else
    demand (owner = "plugin-global" ∧ path = integrityManifestPath)
      s!"prior artifact has unsupported ownership {Python.repr owner}: {Python.repr path}"

def staleOwnedPaths (expected : List String) (projectFeatures : List ProjectFeature)
    (manifest : Option LoadedIntegrityManifest) : Except PlanError (List String) :=
  match manifest with
  | none => .ok (sortedSet [])
  | some manifest => do
      checkEach manifest.artifacts fun item =>
        validatePriorArtifact item.path item.owner (featureRoots projectFeatures manifest)
      return sortedSet ((manifest.artifacts.map (·.path)).filter (· ∉ expected))

end SupernoteModule.Generation.GenerationService
