import SupernoteModule.Npm.ResolvePackages
import SupernoteModule.Python.JsonText

/-!
# Conflicts between packages

The end of `discover` in `resolve-packages.js`: no two modules of a consumer may have a feature
identity, a public name, an Android namespace or a CMake target in common, in whatever case.
-/

namespace SupernoteModule.Npm

open SupernoteModule.Lib SupernoteModule.Python

/-- `toLocaleLowerCase('en-US')`, which is known of texts in ASCII. -/
structure LowerCase where
  lower : String → String
  ascii : ∀ text : String, (text.toList.all fun char => char.toNat < 128) = true →
    lower text = String.ofList (text.toList.map Char.toLower)

/-- `JSON.stringify` of a text, which escapes what Python escapes in ASCII and nothing else. -/
def stringify (text : String) : String :=
  String.ofList ((doubleQuote :: text.toList.flatMap fun char =>
    if char.toNat < 0x7f then Json.escapeChar char else [char]) ++ [doubleQuote])

/-- A `Map` from normalised keys to the names of packages. -/
abbrev Claimed : Type := List (String × String)

section

variable (lowerCase : LowerCase)

/-- `rejectConflict`. -/
def rejectConflict (claimed : Claimed) (key value code label : String) :
    Except PackageError Claimed :=
  let normalized := lowerCase.lower key
  match claimed.lookup normalized with
  | some previous =>
      .error ⟨code, s!"{label} {stringify key} conflicts in {previous} and {value}"⟩
  | none => .ok ((normalized, value) :: claimed)

/-- The four maps of `discover`. -/
structure Conflicts where
  featureIds : Claimed := []
  publicNames : Claimed := []
  namespaces : Claimed := []
  cmakeTargets : Claimed := []

/-- A round of the loop over the modules. -/
def rejectConflicts (conflicts : Conflicts) (module : PackageModule) :
    Except PackageError Conflicts := do
  let featureIds ← rejectConflict lowerCase conflicts.featureIds module.featureId module.name
    "SNMG_MODULE_DUPLICATE_FEATURE" "feature identity"
  let publicNames ← rejectConflict lowerCase conflicts.publicNames module.publicName module.name
    "SNMG_MODULE_PUBLIC_NAME_CONFLICT" "JavaScript public name"
  let namespaces ← rejectConflict lowerCase conflicts.namespaces module.androidNamespace
    module.name "SNMG_MODULE_ANDROID_NAMESPACE_CONFLICT" "Android namespace"
  let cmakeTargets ← rejectConflict lowerCase conflicts.cmakeTargets module.cmakeTarget
    module.name "SNMG_MODULE_CMAKE_TARGET_CONFLICT" "CMake target"
  return ⟨featureIds, publicNames, namespaces, cmakeTargets⟩

/-- The loop of `discover` over the modules. -/
def checkConflicts (modules : List PackageModule) : Except PackageError Conflicts :=
  modules.foldlM (rejectConflicts lowerCase) {}

end

end SupernoteModule.Npm
