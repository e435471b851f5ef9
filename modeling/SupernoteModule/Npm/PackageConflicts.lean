import SupernoteModule.Generation.FeatureModel
import SupernoteModule.Npm.Discover

/-!
# Features and the packages made of them

The registry of a plugin and the resolver of a consumer each say which features can be together.
Here is what it means that they say the same.
-/

namespace SupernoteModule.Npm

open SupernoteModule.Generation SupernoteModule.Lib SupernoteModule.Python

variable {hexdigest : String → String}

/-- The module that a consumer finds in the package of a feature. -/
structure Distributes (feature : FeatureManifest hexdigest) (module : PackageModule) : Prop where
  name : module.name = feature.npmName
  featureId : module.featureId = feature.featureId
  publicName : module.publicName = feature.publicName
  androidNamespace : module.androidNamespace = feature.androidNamespace
  cmakeTarget : featureCmakeTarget feature.featureId = .ok module.cmakeTarget

variable (hexdigest) in
/-- A feature with the module of its package. -/
structure Released where
  entry : FeatureRegistryEntry hexdigest
  module : PackageModule
  distributed : Distributes entry.feature module

/-- The names of the plugin itself pass the checks of its registry. -/
structure NamesPlugin (hexdigest : String → String) (pluginId generatorVersion : String) :
    Prop where
  identified : pluginId ≠ ""
  versioned : generatorVersion ≠ ""
  componentName : isComponentName (pluginRuntimeComponentName hexdigest pluginId) = true

def RegistryAccepts (pluginId generatorVersion : String)
    (entries : List (FeatureRegistryEntry hexdigest)) : Prop :=
  ∃ registry, PluginRuntimeRegistry.create hexdigest pluginId generatorVersion entries =
    .ok registry

def ResolverAccepts (lowerCase : LowerCase) (modules : List PackageModule) : Prop :=
  ∃ conflicts, checkConflicts lowerCase modules = .ok conflicts

/-- Registry and resolver refuse the same pairs of features and, in whatever order they get to see
them, accept all together or neither does. -/
structure Agree (lowerCase : LowerCase) (pluginId generatorVersion : String)
    (released : List (Released hexdigest)) : Prop where
  pairs : released.Pairwise fun first next =>
    RegistryAccepts pluginId generatorVersion [first.entry, next.entry] ↔
      ResolverAccepts lowerCase [first.module, next.module]
  together : ∀ order other : List (Released hexdigest), order.Perm released → other.Perm released →
    (RegistryAccepts pluginId generatorVersion (order.map (·.entry)) ↔
      ResolverAccepts lowerCase (other.map (·.module)))

/-- The features have something in common that has to be a feature's own. -/
def Same (first next : FeatureManifest hexdigest) : Prop :=
  first.featureId = next.featureId ∨ first.publicName = next.publicName ∨
    first.androidNamespace = next.androidNamespace

/-- The public names or the namespaces of the features are the same but for case. -/
def SameUpToCase (lowerCase : LowerCase) (first next : FeatureManifest hexdigest) : Prop :=
  lowerCase.lower first.publicName = lowerCase.lower next.publicName ∨
    lowerCase.lower first.androidNamespace = lowerCase.lower next.androidNamespace

end SupernoteModule.Npm
