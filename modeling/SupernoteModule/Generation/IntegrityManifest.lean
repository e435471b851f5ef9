import SupernoteModule.Lib.Guard
import SupernoteModule.Python.Json
import SupernoteModule.Python.Path
import Mathlib.Data.List.Sort

/-!
# The integrity manifest

`.supernote-module/manifest.json` names every generated file with the owner that may rewrite or
delete it. `parseIntegrityManifest` is the strict reader of its decoded JSON: every record is
checked where it stands, and the whole must be exactly what its own records render to.
-/

namespace SupernoteModule.Generation.IntegrityManifest

open SupernoteModule.Lib SupernoteModule.Python
open SupernoteModule.Python.Json (Fields get keys hasExactly)

def integrityManifestSchemaVersion : String := "2.0"
def integrityManifestPath : String := ".supernote-module/manifest.json"
def incompleteMarkerPath : String := ".supernote-module/incomplete.json"
def runtimeRoot : String := "android/.supernote-module/runtime"
def templateCapabilityVersion : String := "launch-verification-v1"
def cppFrontendVersion : Int := 1
def jvmFrontendVersion : Int := 1

/-! ### Records -/

structure ManifestArtifactRecord where
  path : String
  owner : String
  kind : String
  sha256 : String
  generationId : String
  committedSource : Bool
  mode : Option Int
deriving DecidableEq

def ManifestArtifactRecord.manifest (record : ManifestArtifactRecord) : Json :=
  .object ([
    ("path", .string record.path),
    ("owner", .string record.owner),
    ("kind", .string record.kind),
    ("sha256", .string record.sha256),
    ("generation_id", .string record.generationId),
    ("committed_source", .bool record.committedSource)
  ] ++ (record.mode.map fun mode => ("mode", Json.integer mode)).toList)

structure ManifestFeature where
  featureId : String
  packageName : String
  root : String
  semanticHash : String
deriving DecidableEq

def ManifestFeature.manifest (feature : ManifestFeature) : Json :=
  .object [
    ("id", .string feature.featureId),
    ("package_name", .string feature.packageName),
    ("root", .string feature.root),
    ("semantic_hash", .string feature.semanticHash)
  ]

structure WiringRecord where
  path : String
  marker : String
  sha256 : String
deriving DecidableEq

def WiringRecord.manifest (record : WiringRecord) : Json :=
  .object [
    ("path", .string record.path),
    ("marker", .string record.marker),
    ("sha256", .string record.sha256)
  ]

structure LoadedIntegrityManifest where
  generatorVersion : String
  generationId : String
  pluginId : String
  features : List ManifestFeature
  artifacts : List ManifestArtifactRecord
  wiring : List WiringRecord
  templateCapability : String := templateCapabilityVersion
  authorityHashes : List (String × String) := []
deriving DecidableEq

/-- The front-end versions of this generator. -/
def frontendVersions : Json :=
  .object [("cpp", .integer cppFrontendVersion), ("jvm", .integer jvmFrontendVersion)]

def LoadedIntegrityManifest.manifest (loaded : LoadedIntegrityManifest) : Json :=
  .object [
    ("schema_version", .string integrityManifestSchemaVersion),
    ("generator_version", .string loaded.generatorVersion),
    ("generation_id", .string loaded.generationId),
    ("plugin", .object [("id", .string loaded.pluginId)]),
    ("features", .array (loaded.features.map ManifestFeature.manifest)),
    ("artifacts", .array (loaded.artifacts.map ManifestArtifactRecord.manifest)),
    ("wiring", .array (loaded.wiring.map WiringRecord.manifest)),
    ("frontend_versions", frontendVersions)
  ]

/-! ### Patterns -/

/-- `re.compile(r"[0-9a-f]{64}").fullmatch`. -/
def isSha256 (text : String) : Bool :=
  text.toList.length = 64 && text.toList.all (· ∈ "0123456789abcdef".toList)

def lowercase : String := "abcdefghijklmnopqrstuvwxyz"
def uppercase : String := "ABCDEFGHIJKLMNOPQRSTUVWXYZ"
def digits : String := "0123456789"

/-- `0|[1-9][0-9]*`. -/
def numericIdentifier : RegularExpression Char :=
  oneOf "0" + oneOf "123456789" * (oneOf digits).star

/-- `[0-9A-Za-z-]+(?:\.[0-9A-Za-z-]+)*`. -/
def dottedIdentifiers : RegularExpression Char :=
  let identifier := oneOrMore (oneOf (digits ++ uppercase ++ lowercase ++ "-"))
  identifier * (oneOf "." * identifier).star

def semverPattern : RegularExpression Char :=
  numericIdentifier * oneOf "." * numericIdentifier * oneOf "." * numericIdentifier *
    optional (oneOf "-" * dottedIdentifiers) * optional (oneOf "+" * dottedIdentifiers)

/-- `[-a-z0-9~]`. -/
def npmInitials : String := "-" ++ lowercase ++ digits ++ "~"

/-- `[-_a-z0-9.~]`. -/
def npmCharacters : String := "-_" ++ lowercase ++ digits ++ ".~"

/-- `(?:@[-a-z0-9~][-_a-z0-9.~]*/)?[a-z0-9~][-_a-z0-9.~]*`. -/
def npmName : RegularExpression Char :=
  optional (oneOf "@" * oneOf npmInitials * (oneOf npmCharacters).star * oneOf "/") *
    (oneOf (lowercase ++ digits ++ "~") * (oneOf npmCharacters).star)

def canonicalSemverPrerelease (value : String) : Bool :=
  let prerelease := afterFirst (beforeFirst value '+') '-'
  prerelease = "" || (split prerelease '.').all fun identifier =>
    !(isDigits identifier && 1 < identifier.toList.length && identifier.toList.head? = some '0')

/-! ### Checks -/

/-- What the reader raises: its own error, a set lookup of an unhashable value, or a failed
assertion. -/
inductive Error where
  | integrity (message : String)
  | unhashable
  | assertion
deriving DecidableEq

abbrev demand (condition : Prop) [Decidable condition] (message : String) : Except Error Unit :=
  require condition (.integrity message)

def demandSome {Value : Type} (value : Option Value) (message : String) : Except Error Value :=
  match value with
  | some value => .ok value
  | none => .error (.integrity message)

/-- `assert isinstance(value, str)`. -/
def assertString (value : Json) : Except Error String :=
  match value.string? with
  | some text => .ok text
  | none => .error .assertion

def requireSha256 (value : Json) (label : String) : Except Error Unit := do
  let text ← demandSome value.string? s!"{label} must be a lowercase SHA-256 digest"
  demand (isSha256 text) s!"{label} must be a lowercase SHA-256 digest"

def requireCanonicalRelative (value : Json) (label : String) : Except Error Unit := do
  let text ← demandSome value.string? s!"{label} must be a string"
  let posix := PurePosixPath.parse text
  demand
    (¬ (text = "" ∨ backslash ∈ text.toList ∨ posix.isAbsolute ∨ windowsAnchored text ∨
      posix.parts.any (· ∈ ["", ".", ".."]) ∨ posix.asPosix ≠ text))
    s!"{label} must be canonical and relative"

def isDescendant (path root : String) : Bool :=
  let parts := pathParts path
  let rootParts := pathParts root
  rootParts.length < parts.length && parts.take rootParts.length = rootParts

def canonicalFeatureRoot (packageName : String) : Except Error String := do
  demand (fullmatch npmName packageName) "package name is invalid"
  if startsWith packageName "@" then
    match split packageName '/' with
    | [scope, name] => do
        demand (scope.toList.drop 1 ≠ [] ∧ name ≠ "") "scoped package name is invalid"
        return (PurePosixPath.ofSegments "local_modules" [scope, name]).asPosix
    | _ => .error (.integrity "scoped package name is invalid")
  else do
    demand (¬ ('/' ∈ packageName.toList ∨ packageName ∈ [".", ".."])) "package name is invalid"
    requireCanonicalRelative (.string s!"local_modules/{packageName}") "feature package root"
    return s!"local_modules/{packageName}"

/-! ### The header -/

def requireManifestObject (raw : Json) : Except Error Fields :=
  demandSome raw.object? "integrity manifest must be a JSON object"

def parseManifestHeader (raw : Fields) : Except Error (String × String × String) := do
  demand
    (hasExactly raw ["schema_version", "generator_version", "generation_id", "plugin", "features",
      "artifacts", "wiring", "frontend_versions"])
    "integrity manifest fields are invalid"
  demand ((get raw "schema_version").equals (.string integrityManifestSchemaVersion))
    "integrity manifest schema is incompatible"
  let generatorVersion ← demandSome (get raw "generator_version").string?
    "generator_version must be canonical SemVer"
  demand (fullmatch semverPattern generatorVersion && canonicalSemverPrerelease generatorVersion)
    "generator_version must be canonical SemVer"
  requireSha256 (get raw "generation_id") "generation_id"
  let plugin ← demandSome (get raw "plugin").object? "plugin identity is invalid"
  demand (hasExactly plugin ["id"]) "plugin identity is invalid"
  let pluginId ← demandSome (get plugin "id").string? "plugin identity is invalid"
  demand (pluginId ≠ "") "plugin identity is invalid"
  demand ((get raw "frontend_versions").equals frontendVersions)
    "frontend versions are incompatible"
  let generationId ← assertString (get raw "generation_id")
  return (generatorVersion, generationId, pluginId)

def manifestRecordLists (raw : Fields) : Except Error (List Json × List Json × List Json) := do
  let rawFeatures ← demandSome (get raw "features").array? "features must be a list"
  let rawArtifacts ← demandSome (get raw "artifacts").array? "artifacts must be a list"
  let rawWiring ← demandSome (get raw "wiring").array? "wiring must be a list"
  return (rawFeatures, rawArtifacts, rawWiring)

/-! ### Features -/

section

-- The SHA-256 digest of a text in UTF-8, in hexadecimal.
variable (hexdigest : String → String)

def canonicalFeatureId (npmName : String) : String :=
  s!"supernote:feature:{String.ofList ((hexdigest npmName).toList.take 16)}"

def parseFeature (raw : Json) (index : Nat) : Except Error ManifestFeature := do
  let fields ← demandSome raw.object? s!"features[{index}] fields are invalid"
  demand (hasExactly fields ["id", "package_name", "root", "semantic_hash"])
    s!"features[{index}] fields are invalid"
  let packageName ← demandSome (get fields "package_name").string?
    s!"features[{index}] package name is invalid"
  demand (packageName ≠ "") s!"features[{index}] package name is invalid"
  demand ((get fields "id").equals (.string (canonicalFeatureId hexdigest packageName)))
    s!"features[{index}] identity is not canonical"
  let expectedRoot ← canonicalFeatureRoot packageName
  demand ((get fields "root").equals (.string expectedRoot))
    s!"features[{index}] root is not canonical"
  requireSha256 (get fields "semantic_hash") s!"features[{index}].semantic_hash"
  let featureId ← assertString (get fields "id")
  let root ← assertString (get fields "root")
  let semanticHash ← assertString (get fields "semantic_hash")
  return { featureId, packageName, root, semanticHash }

def parseFeatureRecords (rawFeatures : List Json) : Except Error (List ManifestFeature) := do
  let features ← enumerate (parseFeature hexdigest) 0 rawFeatures
  demand
    ((features.map (·.packageName)).Nodup ∧ (features.map (·.featureId)).Nodup ∧
      (features.map (·.root)).Nodup)
    "feature identities and roots must be unique"
  demand (features = features.insertionSort (·.packageName ≤ ·.packageName))
    "features must be canonically ordered"
  return features

end

/-! ### Artifacts -/

def artifactObject (raw : Json) (index : Nat) : Except Error Fields := do
  let required := ["path", "owner", "kind", "sha256", "generation_id", "committed_source"]
  let fields ← demandSome raw.object? s!"artifacts[{index}] fields are invalid"
  demand (required.all (· ∈ keys fields) && (keys fields).all (· ∈ required ++ ["mode"]))
    s!"artifacts[{index}] fields are invalid"
  return fields

def artifactMode (raw : Fields) (index : Nat) : Except Error (Option Int) :=
  match raw.lookup "mode" with
  | none => .ok none
  | some (.integer mode) => do
      demand (0 ≤ mode ∧ mode ≤ 0o7777) s!"artifacts[{index}] mode is invalid"
      return some mode
  | some _ => .error (.integrity s!"artifacts[{index}] mode is invalid")

/-- The feature of a package name. Package names are unique by the time this is used. -/
def featureByPackage (features : List ManifestFeature) (packageName : String) :
    Option ManifestFeature :=
  features.find? (·.packageName = packageName)

def validateArtifactOwner (path owner : String) (index : Nat) (features : List ManifestFeature) :
    Except Error Unit :=
  if owner = "shared-runtime" then
    demand (isDescendant path runtimeRoot)
      s!"artifacts[{index}] shared-runtime path is outside the runtime root"
  else if startsWith owner "feature:" then
    match featureByPackage features (removePrefix owner "feature:") with
    | none => .error (.integrity s!"artifacts[{index}] feature ownership is inconsistent")
    | some feature =>
        demand (isDescendant path feature.root)
          s!"artifacts[{index}] feature ownership is inconsistent"
  else if owner = "plugin-global" then
    demand (¬ (isDescendant path runtimeRoot ∨ features.any (isDescendant path ·.root)))
      s!"artifacts[{index}] plugin-global ownership overlaps another owner"
  else .error (.integrity s!"artifacts[{index}] owner is unsupported")

def parseArtifact (generationId : String) (features : List ManifestFeature) (raw : Json)
    (index : Nat) : Except Error ManifestArtifactRecord := do
  let artifact ← artifactObject raw index
  requireCanonicalRelative (get artifact "path") s!"artifacts[{index}].path"
  let owner ← demandSome (get artifact "owner").string? s!"artifacts[{index}] owner is invalid"
  demand (owner ≠ "") s!"artifacts[{index}] owner is invalid"
  let kind ← demandSome (get artifact "kind").string? s!"artifacts[{index}] kind is invalid"
  demand (kind ≠ "") s!"artifacts[{index}] kind is invalid"
  requireSha256 (get artifact "sha256") s!"artifacts[{index}].sha256"
  demand ((get artifact "generation_id").equals (.string generationId))
    s!"artifacts[{index}] generation identity disagrees with manifest"
  demand (get artifact "committed_source" matches .bool true)
    s!"artifacts[{index}] must describe committed source"
  let mode ← artifactMode artifact index
  let path ← assertString (get artifact "path")
  demand (path ≠ integrityManifestPath) "the manifest cannot own itself as an artifact"
  validateArtifactOwner path owner index features
  let sha256 ← assertString (get artifact "sha256")
  let itemGeneration ← assertString (get artifact "generation_id")
  return {
    path, owner, kind, sha256, generationId := itemGeneration, committedSource := true, mode }

def parseArtifactRecords (rawArtifacts : List Json) (generationId : String)
    (features : List ManifestFeature) : Except Error (List ManifestArtifactRecord) := do
  let artifacts ← enumerate (parseArtifact generationId features) 0 rawArtifacts
  demand (artifacts.map (·.path)).Nodup "artifact paths must be unique"
  demand (artifacts = artifacts.insertionSort (·.path ≤ ·.path))
    "artifacts must be canonically ordered"
  return artifacts

def requireOwnershipAnchors (features : List ManifestFeature)
    (artifacts : List ManifestArtifactRecord) : Except Error Unit := do
  checkEach features fun feature =>
    demand
      (artifacts.any fun artifact =>
        artifact.path = s!"{feature.root}/.supernote-generated/ownership.json" &&
          artifact.owner = s!"feature:{feature.packageName}" &&
          artifact.kind = "feature-generated-metadata")
      s!"feature {Python.repr feature.packageName} lacks canonical metadata ownership"
  demand
    (features = [] ∨ artifacts.any fun artifact =>
      artifact.path = s!"{runtimeRoot}/ownership.json" && artifact.owner = "shared-runtime" &&
        artifact.kind = "runtime-metadata")
    "active features require canonical shared-runtime ownership metadata"

/-! ### Wiring -/

def parseWiring (raw : Json) (index : Nat) : Except Error WiringRecord := do
  let fields ← demandSome raw.object? s!"wiring[{index}] fields are invalid"
  demand (hasExactly fields ["path", "marker", "sha256"]) s!"wiring[{index}] fields are invalid"
  requireCanonicalRelative (get fields "path") s!"wiring[{index}].path"
  require (get fields "marker").hashable .unhashable
  demand
    ((get fields "marker").equals (.string "sn-module-gen-runtime") ||
      (get fields "marker").equals (.string "supernote-module-package"))
    s!"wiring[{index}] marker is invalid"
  requireSha256 (get fields "sha256") s!"wiring[{index}].sha256"
  let path ← assertString (get fields "path")
  let marker ← assertString (get fields "marker")
  let sha256 ← assertString (get fields "sha256")
  return { path, marker, sha256 }

/-- The order of `(path, marker)`. -/
def WiringRecord.le (left right : WiringRecord) : Prop :=
  left.path < right.path ∨ (left.path = right.path ∧ left.marker ≤ right.marker)

instance : DecidableRel WiringRecord.le :=
  fun _ _ => inferInstanceAs (Decidable (_ ∨ _))

def parseWiringRecords (rawWiring : List Json) : Except Error (List WiringRecord) := do
  let wiring ← enumerate parseWiring 0 rawWiring
  demand (wiring.map fun item => (item.path, item.marker)).Nodup "wiring records must be unique"
  demand (wiring.map (·.path)).Nodup "each wiring path may have only one owned block"
  demand (wiring = wiring.insertionSort WiringRecord.le)
    "wiring records must be canonically ordered"
  return wiring

/-! ### The whole manifest -/

def parseIntegrityManifest (hexdigest : String → String) (raw : Json) :
    Except Error LoadedIntegrityManifest := do
  let manifest ← requireManifestObject raw
  let (generatorVersion, generationId, pluginId) ← parseManifestHeader manifest
  let (rawFeatures, rawArtifacts, rawWiring) ← manifestRecordLists manifest
  let features ← parseFeatureRecords hexdigest rawFeatures
  let artifacts ← parseArtifactRecords rawArtifacts generationId features
  requireOwnershipAnchors features artifacts
  let wiring ← parseWiringRecords rawWiring
  let result : LoadedIntegrityManifest :=
    { generatorVersion, generationId, pluginId, features, artifacts, wiring }
  demand (result.manifest.equals (.object manifest)) "integrity manifest is not canonical"
  return result

end SupernoteModule.Generation.IntegrityManifest
