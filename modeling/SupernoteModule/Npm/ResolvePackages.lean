import SupernoteModule.Npm.PackageTree

/-!
# The package resolver

`resolve-packages.js` accepts an installed module package when its metadata agrees, every payload
file has its digest, and the registration selects nothing that is not hashed. How bytes are parsed
as JSON and hashed is the same for every package.
-/

namespace SupernoteModule.Npm

open SupernoteModule.Generation SupernoteModule.Lib SupernoteModule.Python

def contractSchema : String := "2.0"
def moduleKind : String := "supernote_module_distribution"
def moduleProtocol : String := "2.0"
def nativeAbi : String := "supernote-jsi-v1"
def registrationPath : String := ".supernote-generated/android/registration.json"
def cmakePath : String := ".supernote-generated/android/CMakeLists.txt"
def jvmRegistrationPath : String := ".supernote-generated/android/jvm/JvmRegistration.java"
def jvmAdapterPath : String := ".supernote-generated/android/jvm/KspAdapters.kt"
def jvmFeaturePath : String := ".supernote-generated/android/jvm_feature.cpp"
def nativeRegistrationHeaderPath : String :=
  ".supernote-generated/android/package_registration.hpp"
def nativeRegistrationSourcePath : String :=
  ".supernote-generated/android/package_registration.cpp"
def semanticPath : String := ".supernote-generated/android/semantic.json"
def conversionPath : String := ".supernote-generated/android/conversion.json"

/-! ### Values -/

/-- `value.name`, where a missing property is undefined. -/
def property (fields : Json.Fields) (name : String) : Option Json :=
  fields.lookup name

/-- `left === right`. Two objects or arrays that were parsed apart are never the same. -/
def strictEqual : Option Json → Option Json → Bool
  | none, none => true
  | some (.string left), some (.string right) => left = right
  | some (.bool left), some (.bool right) => left = right
  | some .null, some .null => true
  | some left, some right =>
      match left, right with
      | .bool _, _ | _, .bool _ => false
      | _, _ =>
          match left.number?, right.number? with
          | some leftNumber, some rightNumber => leftNumber = rightNumber
          | _, _ => false
  | _, _ => false

/-- `value === text`. -/
def isText (value : Option Json) (text : String) : Bool :=
  strictEqual value (some (.string text))

/-- `values.join('\0')`. -/
def joinNul (values : List String) : String :=
  (String.singleton (Char.ofNat 0)).intercalate values

/-- `Object.keys(value).sort().join('\0') === expected.join('\0')`, for names already in order. -/
def hasKeys (fields : Json.Fields) (expected : List String) : Bool :=
  joinNul (sortedBy id (Json.keys fields)) = joinNul expected

/-- `/^[0-9a-f]{count}$/`. -/
def isHex (count : Nat) (text : List Char) : Bool :=
  text.length = count && text.all fun char =>
    let code := char.toNat
    (0x30 ≤ code && code ≤ 0x39) || (0x61 ≤ code && code ≤ 0x66)

/-- An array of strings. -/
def stringItems (value : Option Json) : Option (List String) :=
  match value with
  | some (.array items) => items.mapM Json.string?
  | _ => none

/-! ### Records -/

/-- A direct dependency: where it is, and its `package.json`. -/
structure Dependency where
  installation : Installation
  name : String
  packageJson : Json.Fields

structure PayloadEntry where
  path : String
  physical : List String
  sha256 : String
deriving DecidableEq

/-- What a consumer gets to know of a module. -/
structure PackageModule where
  name : String
  version : Option Json
  featureId : String
  publicName : String
  androidNamespace : String
  protocol : String
  manifest : List String
  registration : List String
  cmake : List String
  cmakeTarget : String
  hasJvmInstaller : Bool
  jvmSourceDirs : List (List String)
  jvmRegistrationSources : List (List String)
  payload : List PayloadEntry

section Validation

variable (parse : Bytes → Option Json) (sha256 : Bytes → String)

/-- `readJson`, of a physical path. -/
def readJson (installation : Installation) (physical : List String) (code label : String) :
    Except PackageError Json := do
  let bytes ← installation.readFile physical code label
  demand (parse bytes) ⟨code, s!"{label} is not valid JSON"⟩

/-- The metadata of a module in `package.json`. -/
def checkModuleMetadata (dependency : Dependency) (metadata : Json) :
    Except PackageError Json.Fields := do
  let fields ← demand metadata.object? ⟨"SNMG_MODULE_METADATA_INVALID",
    s!"{dependency.name} supernoteNativeModule must be an object"⟩
  require (hasKeys fields ["kind", "manifest", "protocol", "schemaVersion"])
    ⟨"SNMG_MODULE_METADATA_INVALID", s!"{dependency.name} module metadata fields are invalid"⟩
  require
    (isText (property fields "schemaVersion") contractSchema ∧
      isText (property fields "kind") moduleKind ∧
      isText (property fields "protocol") moduleProtocol)
    ⟨"SNMG_MODULE_INCOMPATIBLE",
      s!"{dependency.name} module metadata identity or protocol is unsupported"⟩
  return fields

/-- `.supernote-module.json`, which the author owns. -/
def readAuthored (dependency : Dependency) : Except PackageError Json.Fields := do
  let code := "SNMG_MODULE_METADATA_INVALID"
  let path ← dependency.installation.resolvePayload (.string ".supernote-module.json") code
    s!"{dependency.name} authored module metadata" .file
  let authored ← readJson parse dependency.installation path code
    s!"{dependency.name} .supernote-module.json"
  let unsupported : PackageError :=
    ⟨code, s!"{dependency.name} authored module metadata identity is unsupported"⟩
  let fields ← demand authored.object? unsupported
  require
    (isText (property fields "kind") "supernote_module_feature" ∧
      isText (property fields "schema_version") "1.0") unsupported
  require (strictEqual (property fields "npm_name") (property dependency.packageJson "name"))
    ⟨"SNMG_MODULE_IDENTITY_MISMATCH", s!"{dependency.name} authored npm identity disagrees"⟩
  require
    (strictEqual (property fields "package_version") (property dependency.packageJson "version"))
    ⟨"SNMG_MODULE_IDENTITY_MISMATCH", s!"{dependency.name} authored package version disagrees"⟩
  return fields

def payloadInvalid : String := "SNMG_MODULE_PAYLOAD_INVALID"

/-- `validateString`. -/
def validateString (value : Option Json) (code label : String) : Except PackageError String :=
  match value with
  | some (.string text) => do
      require (text ≠ "") ⟨code, s!"{label} must be a non-empty string"⟩
      return text
  | _ => .error ⟨code, s!"{label} must be a non-empty string"⟩

/-- The path of the distribution manifest. -/
def distributionPath (dependency : Dependency) (metadata : Json.Fields) :
    Except PackageError (List String) :=
  dependency.installation.resolvePayload ((property metadata "manifest").getD .null)
    "SNMG_MODULE_PAYLOAD_MISSING" s!"{dependency.name} distribution manifest" .file

/-- The distribution manifest. -/
def readDistribution (dependency : Dependency) (metadata : Json.Fields) :
    Except PackageError Json.Fields := do
  let path ← distributionPath dependency metadata
  let distribution ← readJson parse dependency.installation path payloadInvalid
    s!"{dependency.name} distribution manifest"
  let unsupported : PackageError :=
    ⟨payloadInvalid, s!"{dependency.name} distribution metadata identity is unsupported"⟩
  let fields ← demand distribution.object? unsupported
  require
    (isText (property fields "schemaVersion") contractSchema ∧
      isText (property fields "kind") moduleKind) unsupported
  return fields

/-- The identities a distribution declares. -/
structure DistributionIdentity where
  featureId : String
  packageName : String
  packageVersion : String
  publicName : String
  androidNamespace : String
  protocol : String

def readIdentity (dependency : Dependency) (distribution : Json.Fields) :
    Except PackageError DistributionIdentity := do
  let text (field : String) : Except PackageError String :=
    validateString (property distribution field) payloadInvalid s!"{dependency.name} {field}"
  let featureId ← text "featureId"
  let packageName ← text "packageName"
  let packageVersion ← text "packageVersion"
  let publicName ← text "publicName"
  let androidNamespace ← text "androidNamespace"
  let protocol ← text "protocol"
  return ⟨featureId, packageName, packageVersion, publicName, androidNamespace, protocol⟩

def checkIdentity (dependency : Dependency) (authored : Json.Fields)
    (identity : DistributionIdentity) : Except PackageError Unit := do
  require
    (isText (property dependency.packageJson "name") identity.packageName ∧
      isText (property dependency.packageJson "version") identity.packageVersion ∧
      isText (property authored "feature_id") identity.featureId ∧
      isText (property authored "public_name") identity.publicName ∧
      isText (property authored "android_namespace") identity.androidNamespace)
    ⟨"SNMG_MODULE_IDENTITY_MISMATCH",
      s!"{dependency.name} authored and generated identities disagree"⟩
  require (identity.protocol = moduleProtocol)
    ⟨"SNMG_MODULE_INCOMPATIBLE",
      s!"{dependency.name} module protocol {identity.protocol} is incompatible with " ++
        moduleProtocol⟩

/-! ### The payload -/

/-- One entry of the payload inventory: its path and digest. -/
def payloadRow (dependency : Dependency) (entry : Json) (index : Nat) :
    Except PackageError (String × String) :=
  match entry with
  | .object fields =>
      match property fields "path", property fields "sha256" with
      | some (.string path), some (.string digest) => do
          require (isHex 64 digest.toList)
            ⟨payloadInvalid, s!"{dependency.name} payload[{index}] is invalid"⟩
          return (path, digest)
      | _, _ => .error ⟨payloadInvalid, s!"{dependency.name} payload[{index}] is invalid"⟩
  | _ => .error ⟨payloadInvalid, s!"{dependency.name} payload[{index}] is invalid"⟩

def verifyEntry (dependency : Dependency) (entry : Json) (index : Nat) :
    Except PackageError PayloadEntry := do
  let (path, expected) ← payloadRow dependency entry index
  let label := s!"{dependency.name} payload[{index}]"
  let physical ← dependency.installation.resolvePayload (.string path) payloadInvalid label .file
  let bytes ← dependency.installation.readFile physical payloadInvalid label
  let actual := sha256 bytes
  require (actual = expected)
    ⟨"SNMG_MODULE_PAYLOAD_STALE",
      s!"{dependency.name} payload {path} has digest {actual}, expected {expected}"⟩
  return ⟨path, physical, actual⟩

/-- The paths in `entries`, none of which may repeat. -/
def payloadPaths (dependency : Dependency) :
    List String → List PayloadEntry → Except PackageError (List String)
  | found, [] => .ok found
  | found, entry :: entries => do
      require (entry.path ∉ found)
        ⟨payloadInvalid, s!"{dependency.name} payload repeats {entry.path}"⟩
      payloadPaths dependency (found ++ [entry.path]) entries

/-- The files every package must hash. -/
def requiredPayload : List String := [
  "package.json",
  ".supernote-module.json",
  ".supernote-generated/index.js",
  ".supernote-generated/index.d.ts",
  semanticPath,
  conversionPath,
  cmakePath,
  ".supernote-generated/android/feature.cpp",
  ".supernote-generated/android/internal.cpp",
  ".supernote-generated/android/internal.hpp",
  jvmRegistrationPath,
  nativeRegistrationHeaderPath,
  nativeRegistrationSourcePath,
  registrationPath
]

/-- The payload of a distribution, verified file by file. -/
def verifyPayload (dependency : Dependency) (distribution : Json.Fields) :
    Except PackageError (List PayloadEntry × List String) := do
  let empty : PackageError :=
    ⟨payloadInvalid, s!"{dependency.name} payload inventory must be non-empty"⟩
  let rows ← demand ((property distribution "payload").bind Json.array?) empty
  require (rows ≠ []) empty
  let payload ← enumerate (verifyEntry sha256 dependency) 0 rows
  let paths ← payloadPaths dependency [] payload
  checkEach requiredPayload fun path =>
    require (path ∈ paths)
      ⟨payloadInvalid, s!"{dependency.name} payload omits required file {path}"⟩
  return (payload, paths)

/-! ### The registration -/

/-- What the resolver uses of a registration. -/
structure Registration where
  nativeSourceDirs : List Json
  jvmSourceDirs : List Json
  jvmRegistrationSources : List String
  bindingSources : List String
  bindingHeaders : List String
  cmakeTarget : String
  nativeInstaller : Json
  jvmInstaller : Json

def registrationFields : List String := [
  "androidNamespace",
  "bindingHeaders",
  "bindingSources",
  "cmake",
  "cmakeTarget",
  "conversion",
  "featureId",
  "installers",
  "jvmRegistrationSources",
  "jvmSourceDirs",
  "kind",
  "nativeAbi",
  "nativeSourceDirs",
  "packageName",
  "protocol",
  "publicName",
  "schemaVersion",
  "semantic"
]

/-- `/^supernote_feature_[0-9a-f]{16}$/`, with what follows the fixed part. -/
def cmakeTargetSuffix (target : String) : Option String :=
  let suffix := removePrefix target "supernote_feature_"
  if startsWith target "supernote_feature_" && isHex 16 suffix.toList then some suffix else none

/-- Where the registration is, which only one path may be. -/
def registrationFile (dependency : Dependency) (distribution : Json.Fields)
    (paths : List String) : Except PackageError (List String) := do
  let label := s!"{dependency.name} registration"
  let value := (property distribution "registration").getD .null
  let text ← canonicalRelative value payloadInvalid label
  require (text = registrationPath)
    ⟨payloadInvalid, s!"{dependency.name} registration must be {registrationPath}"⟩
  require (text ∈ paths)
    ⟨payloadInvalid,
      s!"{dependency.name} selected registration is absent from the hashed payload"⟩
  dependency.installation.resolvePayload value payloadInvalid label .file

/-- The checks on the identity and the fields of a registration. An inventory with an item that is
no string is refused as well, by a later check of the source. -/
def readRegistration (dependency : Dependency) (identity : DistributionIdentity)
    (path : List String) : Except PackageError (Registration × String) := do
  let value ← readJson parse dependency.installation path payloadInvalid
    s!"{dependency.name} registration"
  let disagree : PackageError :=
    ⟨registrationInvalid, s!"{dependency.name} registration identity or fields disagree"⟩
  let inventory : PackageError :=
    ⟨registrationInvalid, s!"{dependency.name} required binding inventory disagrees"⟩
  let fields ← demand value.object? disagree
  require (hasKeys fields registrationFields) disagree
  require
    (isText (property fields "kind") "supernote_module_registration" ∧
      isText (property fields "nativeAbi") nativeAbi ∧
      isText (property fields "schemaVersion") contractSchema ∧
      isText (property fields "protocol") moduleProtocol ∧
      isText (property fields "featureId") identity.featureId ∧
      isText (property fields "packageName") identity.packageName ∧
      isText (property fields "publicName") identity.publicName ∧
      isText (property fields "androidNamespace") identity.androidNamespace ∧
      isText (property fields "cmake") cmakePath ∧
      isText (property fields "semantic") semanticPath ∧
      isText (property fields "conversion") conversionPath) disagree
  let nativeSourceDirs ← demand ((property fields "nativeSourceDirs").bind Json.array?) disagree
  let jvmSourceDirs ← demand ((property fields "jvmSourceDirs").bind Json.array?) disagree
  let installers ← demand ((property fields "installers").bind Json.object?) disagree
  let cmakeTarget ← demand ((property fields "cmakeTarget").bind Json.string?) disagree
  let suffix ← demand (cmakeTargetSuffix cmakeTarget) disagree
  require (hasKeys installers ["jvm", "native"])
    ⟨registrationInvalid, s!"{dependency.name} callable installer metadata disagrees"⟩
  let jvmRegistrationSources ← demand (stringItems (property fields "jvmRegistrationSources"))
    inventory
  let bindingSources ← demand (stringItems (property fields "bindingSources")) inventory
  let bindingHeaders ← demand (stringItems (property fields "bindingHeaders")) inventory
  return ({
    nativeSourceDirs := nativeSourceDirs
    jvmSourceDirs := jvmSourceDirs
    jvmRegistrationSources := jvmRegistrationSources
    bindingSources := bindingSources
    bindingHeaders := bindingHeaders
    cmakeTarget := cmakeTarget
    nativeInstaller := (property installers "native").getD .null
    jvmInstaller := (property installers "jvm").getD .null
  }, suffix)

/-- An installer: an object of these two fields. -/
def isInstaller (value : Json) (symbol : String) : Bool :=
  match value with
  | .object fields =>
      hasKeys fields ["source", "symbol"] &&
        isText (property fields "source") nativeRegistrationSourcePath &&
        isText (property fields "symbol") symbol
  | _ => false

def isNull : Json → Bool
  | .null => true
  | _ => false

def checkInstallers (dependency : Dependency) (registration : Registration) (suffix : String) :
    Except PackageError Unit :=
  require
    (isInstaller registration.nativeInstaller s!"supernote_package_install_native_{suffix}" ∧
      (isNull registration.jvmInstaller ∨
        isInstaller registration.jvmInstaller s!"supernote_package_install_jvm_{suffix}"))
    ⟨registrationInvalid, s!"{dependency.name} callable installer metadata disagrees"⟩

/-- The binding inventory, which the payload determines. -/
def checkBindingInventory (dependency : Dependency) (registration : Registration)
    (paths : List String) : Except PackageError Unit := do
  let hasJvmBinding := decide (jvmFeaturePath ∈ paths)
  require (hasJvmBinding → registration.jvmSourceDirs ≠ [])
    ⟨registrationInvalid, s!"{dependency.name} JVM binding has no JVM source directory"⟩
  require (hasJvmBinding = !isNull registration.jvmInstaller)
    ⟨registrationInvalid,
      s!"{dependency.name} JVM installer does not match its generated binding"⟩
  let jvm (path : String) : List String := if hasJvmBinding then [path] else []
  require
    (joinNul registration.bindingSources =
        joinNul ([".supernote-generated/android/feature.cpp",
          ".supernote-generated/android/internal.cpp", nativeRegistrationSourcePath] ++
          jvm jvmFeaturePath) ∧
      joinNul registration.bindingHeaders =
        joinNul [".supernote-generated/android/internal.hpp", nativeRegistrationHeaderPath] ∧
      joinNul registration.jvmRegistrationSources =
        joinNul ([jvmRegistrationPath] ++ jvm jvmAdapterPath))
    ⟨registrationInvalid, s!"{dependency.name} required binding inventory disagrees"⟩
  checkEach [("bindingSources", registration.bindingSources),
      ("bindingHeaders", registration.bindingHeaders),
      ("jvmRegistrationSources", registration.jvmRegistrationSources)] fun inventory => do
    let _ ← enumerate (fun relative index => do
      let label := s!"{dependency.name} {inventory.1}[{index}]"
      let text ← canonicalRelative (.string relative) registrationInvalid label
      require (text ∈ paths)
        ⟨registrationInvalid, s!"{label} is absent from the hashed payload"⟩) 0 inventory.2
    return ()

/-! ### Source directories -/

/-- `path.posix.dirname`, of a canonical relative path. -/
def dirname (relative : String) : String :=
  match (split relative '/').dropLast with
  | [] => "."
  | first :: rest => PurePosixPath.joinComponents (first :: rest)

/-- Where the JVM registration sources are. -/
def jvmRegistrationFiles (dependency : Dependency) (registration : Registration) :
    Except PackageError (List (List String)) :=
  enumerate (fun relative index =>
      dependency.installation.resolvePayload (.string relative) registrationInvalid
        s!"{dependency.name} jvmRegistrationSources[{index}]" .file)
    0 registration.jvmRegistrationSources

/-- The directory a JVM registration source really is in. -/
def physicalSourceDir (dependency : Dependency) (physical : List String) :
    Except PackageError String := do
  require (physical.dropLast ≠ dependency.installation.root)
    ⟨registrationInvalid,
      s!"{dependency.name} generated JVM source directory must not resolve to the package root"⟩
  return dependency.installation.relativeText physical.dropLast

/-- The generated JVM directories: where the registration sources are named, and where they are. -/
def generatedJvmSourceDirs (dependency : Dependency) (registration : Registration)
    (files : List (List String)) : Except PackageError (List String) := do
  let physicalDirs ← files.mapM (physicalSourceDir dependency)
  return sortedSet (registration.jvmRegistrationSources.map dirname ++ physicalDirs)

/-- `allowedJvmRegistrationEntries`. -/
def allowedJvmRegistrationEntries (dependency : Dependency) (files : List (List String)) :
    List String :=
  files.map dependency.installation.relativeText

def checkGeneratedJvmSources (dependency : Dependency) (registration : Registration)
    (paths : List String) : Except PackageError (List (List String)) := do
  let files ← jvmRegistrationFiles dependency registration
  let directories ← generatedJvmSourceDirs dependency registration files
  checkEach directories fun relative =>
    requireHashedSourceTree dependency.installation (.string relative) paths
      s!"{dependency.name} generated JVM source directory {relative}"
      (allowedJvmRegistrationEntries dependency files)
  return files

def checkSourceDirs (dependency : Dependency) (registration : Registration)
    (paths : List String) : Except PackageError Unit :=
  checkEach [("nativeSourceDirs", registration.nativeSourceDirs),
      ("jvmSourceDirs", registration.jvmSourceDirs)] fun inventory => do
    let _ ← enumerate (fun relative index =>
      requireHashedSourceTree dependency.installation relative paths
        s!"{dependency.name} {inventory.1}[{index}]" []) 0 inventory.2
    return ()

/-- `validateModule`, which gives nothing for a package that is no module. -/
def validateModule (dependency : Dependency) : Except PackageError (Option PackageModule) :=
  match property dependency.packageJson "supernoteNativeModule" with
  | none => .ok none
  | some packageMetadata => do
      let metadata ← checkModuleMetadata dependency packageMetadata
      let authored ← readAuthored parse dependency
      let manifest ← distributionPath dependency metadata
      let distribution ← readDistribution parse dependency metadata
      let identity ← readIdentity dependency distribution
      checkIdentity dependency authored identity
      let (payload, paths) ← verifyPayload sha256 dependency distribution
      let registrationFile ← registrationFile dependency distribution paths
      let (registration, suffix) ← readRegistration parse dependency identity registrationFile
      checkInstallers dependency registration suffix
      checkBindingInventory dependency registration paths
      let jvmRegistrationSources ← checkGeneratedJvmSources dependency registration paths
      checkSourceDirs dependency registration paths
      let cmake ← dependency.installation.resolvePayload (.string cmakePath) registrationInvalid
        s!"{dependency.name} cmake" .file
      let jvmSourceDirs ← enumerate (fun relative index =>
        dependency.installation.resolvePayload relative registrationInvalid
          s!"{dependency.name} jvmSourceDirs[{index}]" .directory) 0 registration.jvmSourceDirs
      return some {
        name := dependency.name
        version := property dependency.packageJson "version"
        featureId := identity.featureId
        publicName := identity.publicName
        androidNamespace := identity.androidNamespace
        protocol := identity.protocol
        manifest := manifest
        registration := registrationFile
        cmake := cmake
        cmakeTarget := registration.cmakeTarget
        hasJvmInstaller := !isNull registration.jvmInstaller
        jvmSourceDirs := jvmSourceDirs
        jvmRegistrationSources := jvmRegistrationSources
        payload := payload
      }

end Validation

end SupernoteModule.Npm
