import SupernoteModule.Generation.IntegrityManifest
import SupernoteModule.Semantic.Model

/-!
# Features and their registry

`feature_model.py` and `naming.py`: what a feature is called and where its sources are, and the
registry of all features of one plugin. A check that fails gives the text of its error.
-/

namespace SupernoteModule.Generation

open SupernoteModule.Lib SupernoteModule.Python SupernoteModule.Generation.IntegrityManifest
open SupernoteModule.Semantic (isIdentifier)

/-! ### Names -/

def javaReserved : List String :=
  ["_", "abstract", "assert", "boolean", "break", "byte", "case", "catch",
    "char", "class", "const", "continue", "default", "do", "double", "else",
    "enum", "exports", "extends", "false", "final", "finally", "float", "for",
    "goto", "if", "implements", "import", "instanceof", "int", "interface",
    "long", "module", "native", "new", "non-sealed", "null", "open", "opens",
    "package", "permits", "private", "protected", "provides", "public",
    "record", "requires", "return", "sealed", "short", "static", "strictfp",
    "super", "switch", "synchronized", "this", "throw", "throws", "to",
    "transient", "transitive", "true", "try", "uses", "var", "void",
    "volatile", "while", "with", "yield"]

def kotlinReserved : List String :=
  ["_", "actual", "abstract", "annotation", "as", "break", "by", "catch",
    "class", "companion", "const", "constructor", "continue", "crossinline",
    "data", "delegate", "do", "dynamic", "else", "enum", "expect", "external",
    "false", "field", "file", "final", "finally", "for", "fun", "get", "if",
    "import", "in", "infix", "init", "inline", "inner", "interface",
    "internal", "is", "it", "lateinit", "noinline", "null", "object", "open",
    "operator", "out", "override", "package", "param", "private", "property",
    "protected", "public", "receiver", "reified", "return", "sealed", "set",
    "setparam", "super", "suspend", "tailrec", "this", "throw", "true", "try",
    "typealias", "typeof", "val", "var", "vararg", "when", "where", "while"]

/-- `ANDROID_PACKAGE_RESERVED`. -/
def androidPackageReserved : List String :=
  javaReserved ++ kotlinReserved

def isAscii (value : String) : Bool :=
  value.toList.all fun char => char.toNat < 128

/-- `_reject_non_ascii`. -/
def rejectNonAscii (value label : String) : Except String Unit :=
  require (isAscii value) s!"{label} must contain ASCII characters only."

/-- `_reject_invisible`, of a text in ASCII: only the control characters are invisible there. -/
def rejectInvisible (value label : String) : Except String Unit :=
  require (value.toList.all fun char => 0x20 ≤ char.toNat && char.toNat ≠ 0x7f)
    s!"{label} contains a control or invisible character."

/-- `validate_package_name`. -/
def validatePackageName (value : String) : Except String Unit := do
  rejectNonAscii value "Package name"
  rejectInvisible value "Package name"
  require (value.toList.length ≤ 214) "Package name is longer than the 214-character limit."
  require
    (fullmatch npmName value ∧ ¬ endsWith value "." ∧ ¬ endsWith value "/" ∧
      ¬ (split value '/').any fun part => part = "." || part = "..")
    s!"invalid package name \"{value}\""
  checkEach (split value '/') fun component =>
    require ((removePrefix component "@").toList.length ≤ 120)
      "A generated filename component exceeds the 120-character limit."

/-- `validate_android_namespace`. -/
def validateAndroidNamespace (value : String) : Except String Unit := do
  rejectNonAscii value "Android namespace"
  rejectInvisible value "Android namespace"
  let parts := split value '.'
  require
    (2 ≤ parts.length ∧ parts.all fun part =>
      isIdentifier part && !androidPackageReserved.contains part)
    s!"invalid Android namespace \"{value}\""

/-- `_reject_duplicates`. -/
def rejectDuplicates (label : String) : List String → List String → Except String Unit
  | _, [] => .ok ()
  | seen, value :: values => do
      require (value ∉ seen) s!"duplicate {label} {Python.repr value}"
      rejectDuplicates label (value :: seen) values

/-- `_validate_relative_path`. -/
def validateRelativePath (value label : String) : Except String Unit :=
  let path := PurePosixPath.parse value
  require
    (value ≠ "" ∧ ¬ path.isAbsolute ∧ value = path.asPosix ∧ ".." ∉ path.parts ∧ "." ∉ path.parts)
    s!"{label} must be a normalized relative path"

/-! ### Features -/

def featureManifestSchemaVersion : String := "1.0"

/-- `ImplementationRoots`. -/
structure ImplementationRoots where
  native : String := "android/src/main/cpp"
  jvm : String := "android/src/main/java"
deriving DecidableEq

/-- `ImplementationRoots.__post_init__`. -/
def ImplementationRoots.postInit (roots : ImplementationRoots) : Except String Unit := do
  validateRelativePath roots.native "native implementation root"
  validateRelativePath roots.jvm "JVM implementation root"
  require (roots.native ≠ roots.jvm) "native and JVM implementation roots must differ"

/-- The fields of a `FeatureManifest`. -/
structure FeatureManifest.Fields where
  featureId : String
  npmName : String
  publicName : String
  androidNamespace : String
  roots : ImplementationRoots := {}
  starterFiles : List String := []
  schemaVersion : String := featureManifestSchemaVersion
deriving DecidableEq

section

-- The SHA-256 digest of a text in UTF-8, in hexadecimal.
variable (hexdigest : String → String)

/-- `FeatureManifest.__post_init__`, behind that of its roots. -/
def FeatureManifest.Fields.postInit (fields : FeatureManifest.Fields) : Except String Unit := do
  fields.roots.postInit
  require (fields.schemaVersion = featureManifestSchemaVersion)
    s!"unsupported feature manifest schema {fields.schemaVersion}; expected 1.0"
  validatePackageName fields.npmName
  validateAndroidNamespace fields.androidNamespace
  let expected := canonicalFeatureId hexdigest fields.npmName
  require (fields.featureId = expected)
    (s!"feature identity mismatch: expected {Python.repr expected}, " ++
      s!"got {Python.repr fields.featureId}")
  require (isIdentifier fields.publicName)
    s!"invalid feature public name {Python.repr fields.publicName}"
  rejectDuplicates "starter file" [] fields.starterFiles
  checkEach fields.starterFiles fun path => do
    validateRelativePath path "starter file"
    require
      (path = fields.roots.native ∨ startsWith path (fields.roots.native ++ "/") ∨
        path = fields.roots.jvm ∨ startsWith path (fields.roots.jvm ++ "/"))
      s!"starter file {Python.repr path} is outside the implementation roots"

/-- `FeatureManifest`. -/
structure FeatureManifest extends FeatureManifest.Fields where
  valid : toFields.postInit hexdigest = .ok ()

/-! ### The registry -/

def pluginRegistrySchemaVersion : String := "1.0"

/-- `FeatureRegistryEntry`, with the digest of its API. -/
structure FeatureRegistryEntry where
  feature : FeatureManifest hexdigest
  semanticDigest : String

/-- The fields of a `PluginRuntimeRegistry`. -/
structure PluginRuntimeRegistry where
  pluginId : String
  componentName : String
  generatorVersion : String
  features : List (FeatureRegistryEntry hexdigest)
  schemaVersion : String := pluginRegistrySchemaVersion

variable {hexdigest}

/-- `re.fullmatch(r"[a-z][a-z0-9_]*", name)`. -/
def isComponentName (name : String) : Bool :=
  fullmatch (oneOf lowercase * (oneOf (lowercase ++ digits ++ "_")).star) name

/-- `PluginRuntimeRegistry.__post_init__`. -/
def PluginRuntimeRegistry.postInit (registry : PluginRuntimeRegistry hexdigest) :
    Except String Unit := do
  require (registry.schemaVersion = pluginRegistrySchemaVersion)
    s!"unsupported plugin registry schema {registry.schemaVersion}; expected 1.0"
  require (registry.pluginId ≠ "") "plugin identity cannot be empty"
  require (registry.generatorVersion ≠ "") "registry generator version cannot be empty"
  require (isComponentName registry.componentName) "plugin runtime component name is invalid"
  rejectDuplicates "feature identity" [] (registry.features.map (·.feature.featureId))
  rejectDuplicates "feature npm name" [] (registry.features.map (·.feature.npmName))
  rejectDuplicates "feature public name" [] (registry.features.map (·.feature.publicName))
  rejectDuplicates "feature Android namespace" []
    (registry.features.map (·.feature.androidNamespace))

variable (hexdigest)

def pluginRuntimeComponentName (pluginId : String) : String :=
  s!"sn_supernote_runtime_{String.ofList ((hexdigest pluginId).toList.take 12)}"

/-- `PluginRuntimeRegistry.create`, with the checks of what it creates. -/
def PluginRuntimeRegistry.create (pluginId generatorVersion : String)
    (features : List (FeatureRegistryEntry hexdigest)) :
    Except String (PluginRuntimeRegistry hexdigest) := do
  let registry : PluginRuntimeRegistry hexdigest := {
    pluginId := pluginId
    componentName := pluginRuntimeComponentName hexdigest pluginId
    generatorVersion := generatorVersion
    features := sortedBy (·.feature.featureId) features }
  registry.postInit
  return registry

end

/-! ### Distribution -/

/-- `feature_cmake_target`. -/
def featureCmakeTarget (featureId : String) : Except String String := do
  let invalid := s!"invalid Supernote feature identity: {Python.repr featureId}"
  require (startsWith featureId "supernote:feature:") invalid
  let suffix := removePrefix featureId "supernote:feature:"
  require (suffix.toList.length = 16 ∧ suffix.toList.all ("0123456789abcdef".toList.contains ·))
    invalid
  return s!"supernote_feature_{suffix}"

end SupernoteModule.Generation
