import SupernoteModule.Generation.GenerationService
import SupernoteModule.Proof.GenerationPlan
import SupernoteModule.Proof.IntegrityManifest

/-!
# What may become a delete

A stale path is a row of an accepted manifest that its owner may have written: a leaf of the fixed
list below the root of a known feature, or a file below the runtime root. Feature roots are free of
prefixes, so such a path is in the tree of no other feature.
-/

namespace SupernoteModule.Generation.GenerationService

open SupernoteModule.Lib SupernoteModule.Python
open SupernoteModule.Generation.IntegrityManifest

variable {manifest : LoadedIntegrityManifest} {raw : Json}
  {projectFeatures : List ProjectFeature} {path owner : String}

/-! ### Leaves of a feature -/

/-- One of the known leaves below the canonical root of a named feature. -/
def GeneratedLeaf (projectFeatures : List ProjectFeature) (manifest : LoadedIntegrityManifest)
    (path : String) : Prop :=
  ∃ package, (package ∈ projectFeatures.map (·.npmName) ∨
      package ∈ manifest.features.map (·.packageName)) ∧
    ∃ leaf ∈ featureGeneratedFiles, path = "local_modules/" ++ package ++ "/" ++ leaf

/-- A feature whose root is the canonical one of its package name. -/
def ProjectFeature.Canonical (feature : ProjectFeature) : Prop :=
  canonicalFeatureRoot feature.npmName = .ok feature.root

/-- Feature roots are relative paths, and their parts can be put before other parts. -/
theorem pathParts_append_of_featureRoot {packageName root below : String}
    (hroot : FeatureRoot packageName root) (hbelow : below.toList.head? ≠ some '/') :
    pathParts (root ++ "/" ++ below) = pathParts root ++ pathParts below := by
  have hhead : root.toList.head? = some 'l' := by
    rw [hroot.eq_append]
    simp
  refine PurePosixPath.pathParts_append ?_ (by rw [hhead]; decide) hbelow
  rintro rfl
  simp at hhead

theorem head?_pathParts_leaf {leaf : String} (hleaf : leaf ∈ featureGeneratedFiles) :
    leaf.toList.head? ≠ some '/' ∧ (pathParts leaf).head? = some generatedRoot := by
  revert leaf
  decide

/-- What the prior-artifact check establishes of a row of an accepted manifest. -/
theorem validatePriorArtifact_eq_ok (hsource : ManifestSource raw manifest)
    (hcanonical : ∀ feature ∈ projectFeatures, feature.Canonical)
    (hchecked : OwnerChecked manifest.features path owner)
    (hnotManifest : path ≠ integrityManifestPath)
    (hok : validatePriorArtifact path owner (featureRoots projectFeatures manifest) = .ok ()) :
    Below (pathParts runtimeRoot) (pathParts path) ∨
      ∃ package root leaf, (package ∈ projectFeatures.map (·.npmName) ∨
          package ∈ manifest.features.map (·.packageName)) ∧ FeatureRoot package root ∧
        leaf ∈ featureGeneratedFiles ∧ path = root ++ "/" ++ leaf := by
  simp only [validatePriorArtifact, bind_eq_ok, exists_unit] at hok
  obtain ⟨-, hok⟩ := hok
  by_cases hruntime : owner = "shared-runtime"
  · cases hchecked with
    | runtime _ hbelow => exact Or.inl hbelow
    | feature feature _ howner _ =>
        have hstart : startsWith "shared-runtime" "feature:" :=
          startsWith_iff.mpr ⟨_, hruntime ▸ howner⟩
        exact absurd hstart (by decide)
    | pluginGlobal howner _ => exact absurd (hruntime.symm.trans howner) (by decide)
  rw [if_neg hruntime] at hok
  right
  by_cases hstart : startsWith owner "feature:"
  · rw [if_pos hstart] at hok
    split at hok
    · simp at hok
    rename_i root hlookup
    rw [require_eq_ok, List.mem_map] at hok
    obtain ⟨leaf, hleaf, rfl⟩ := hok
    refine ⟨removePrefix owner "feature:", root, leaf, ?_⟩
    unfold featureRoots at hlookup
    split at hlookup
    · rename_i feature hfind
      have hmem : feature ∈ manifest.features :=
        List.mem_reverse.mp (List.mem_of_find?_eq_some hfind)
      have hname : feature.packageName = removePrefix owner "feature:" := by
        simpa using List.find?_some hfind
      obtain rfl : feature.root = root := by simpa using hlookup
      exact ⟨Or.inr (hname ▸ List.mem_map_of_mem hmem), hname ▸ hsource.shape feature hmem, hleaf,
        rfl⟩
    · obtain ⟨feature, hfind, rfl⟩ := Option.map_eq_some_iff.mp hlookup
      have hmem : feature ∈ projectFeatures :=
        List.mem_reverse.mp (List.mem_of_find?_eq_some hfind)
      have hname : feature.npmName = removePrefix owner "feature:" := by
        simpa using List.find?_some hfind
      exact ⟨Or.inl (hname ▸ List.mem_map_of_mem hmem),
        hname ▸ canonicalFeatureRoot_eq_ok (hcanonical feature hmem), hleaf, rfl⟩
  · rw [if_neg hstart, require_eq_ok] at hok
    exact absurd hok.2 hnotManifest

/-- Every stale path is one of the rows the check lets through, and is not expected. -/
theorem staleOwnedPaths_eq_ok (hsource : ManifestSource raw manifest)
    (hcanonical : ∀ feature ∈ projectFeatures, feature.Canonical) {expected paths : List String}
    (hok : staleOwnedPaths expected projectFeatures (some manifest) = .ok paths)
    (hpath : path ∈ paths) :
    path ∉ expected ∧ (Below (pathParts runtimeRoot) (pathParts path) ∨
      ∃ package root leaf, (package ∈ projectFeatures.map (·.npmName) ∨
          package ∈ manifest.features.map (·.packageName)) ∧ FeatureRoot package root ∧
        leaf ∈ featureGeneratedFiles ∧ path = root ++ "/" ++ leaf) := by
  simp only [staleOwnedPaths, bind_eq_ok, exists_unit, pure_eq_ok, checkEach_eq_ok] at hok
  obtain ⟨hchecked, rfl⟩ := hok
  rw [mem_sortedSet, List.mem_filter, decide_eq_true_eq] at hpath
  obtain ⟨hrow, hexpected⟩ := hpath
  obtain ⟨item, hitem, rfl⟩ := List.mem_map.mp hrow
  exact ⟨hexpected, validatePriorArtifact_eq_ok hsource hcanonical (hsource.ownerChecked item hitem)
    (hsource.notManifest item hitem) (hchecked item hitem)⟩

/-! ### Authored files -/

/-- The path is a source root of the feature, or below it. -/
def InSourceRoot (feature : ProjectFeature) (source path : String) : Prop :=
  pathParts (feature.root ++ "/" ++ source) <+: pathParts path

/-- The authored files of a feature: its package description, its metadata, and what is at or below
one of its source roots, as long as the source root is clear of the generated directory. -/
def Authored (feature : ProjectFeature) (path : String) : Prop :=
  path = feature.root ++ "/package.json" ∨ path = feature.root ++ "/.supernote-module.json" ∨
    ∃ source ∈ [feature.roots.native, feature.roots.jvm],
      ¬ Overlap (pathParts source) [generatedRoot] ∧ InSourceRoot feature source path

theorem head?_of_normalizedRelative {source : String} (hsource : NormalizedRelative source) :
    source.toList.head? ≠ some '/' := by
  intro hhead
  have hslash : startsWith source "/" := by
    rw [startsWith, List.isPrefixOf_iff_prefix]
    obtain ⟨tail, htail⟩ := List.head?_eq_some_iff.mp hhead
    exact ⟨tail, by simpa using htail.symm⟩
  simp only [NormalizedRelative, not_or, PurePosixPath.isAbsolute, PurePosixPath.parse,
    PurePosixPath.rootOf, hslash, if_true] at hsource
  by_cases hslashes : startsWith source "//" ∧ ¬ startsWith source "///"
  · rw [if_pos hslashes] at hsource
    simp at hsource
  · rw [if_neg hslashes] at hsource
    simp at hsource

theorem head?_of_mem_roots {feature : ProjectFeature} {source : String}
    (hsource : source ∈ [feature.roots.native, feature.roots.jvm]) :
    source.toList.head? ≠ some '/' := by
  rcases List.mem_pair.mp hsource with rfl | rfl
  · exact head?_of_normalizedRelative feature.roots.nativeNormalized
  · exact head?_of_normalizedRelative feature.roots.jvmNormalized

/-- Authored files of a feature are below its root. -/
theorem Authored.root_prefix {feature : ProjectFeature} (hauthored : Authored feature path)
    (hcanonical : feature.Canonical) : pathParts feature.root <+: pathParts path := by
  have hbelow : ∀ below : String, below.toList.head? ≠ some '/' →
      pathParts feature.root <+: pathParts (feature.root ++ "/" ++ below) := by
    intro below hhead
    rw [pathParts_append_of_featureRoot (canonicalFeatureRoot_eq_ok hcanonical) hhead]
    exact List.prefix_append _ _
  rcases hauthored with rfl | rfl | ⟨source, hsource, -, hleads⟩
  · simpa [String.append_assoc] using hbelow "package.json" (by decide)
  · simpa [String.append_assoc] using hbelow ".supernote-module.json" (by decide)
  · exact (hbelow source (head?_of_mem_roots hsource)).trans hleads

/-- Below one path there is room for the generated leaf of only one feature, and it is in the
generated directory of that feature. -/
theorem not_authored_of_leaf {package root leaf : String} (hroot : FeatureRoot package root)
    (hleaf : leaf ∈ featureGeneratedFiles) (feature : ProjectFeature)
    (hcanonical : feature.Canonical) : ¬ Authored feature (root ++ "/" ++ leaf) := by
  have hfeature := canonicalFeatureRoot_eq_ok hcanonical
  obtain ⟨hleafHead, hgenerated⟩ := head?_pathParts_leaf hleaf
  obtain ⟨tail, htail⟩ := List.head?_eq_some_iff.mp hgenerated
  have hparts := pathParts_append_of_featureRoot hroot hleafHead
  -- A path below the feature's root that is also the leaf makes the two roots one.
  have hbelow : ∀ below : String, below.toList.head? ≠ some '/' →
      pathParts (feature.root ++ "/" ++ below) <+: pathParts (root ++ "/" ++ leaf) →
      pathParts below <+: generatedRoot :: tail := by
    intro below hhead hleads
    rw [pathParts_append_of_featureRoot hfeature hhead, hparts] at hleads
    have hoverlap : Overlap (pathParts feature.root) (pathParts root) :=
      List.prefix_or_prefix_of_prefix ((List.prefix_append _ _).trans hleads)
        (List.prefix_append _ _)
    have hname := hfeature.packageName_eq hroot hoverlap
    have hroots : feature.root = root := by rw [hfeature.eq_append, hroot.eq_append, hname]
    rw [hroots, List.prefix_append_right_inj, htail] at hleads
    exact hleads
  have hfile : ∀ file : String, file.toList.head? ≠ some '/' →
      pathParts file ≠ [] → (pathParts file).head? ≠ some generatedRoot →
      root ++ "/" ++ leaf ≠ feature.root ++ "/" ++ file := by
    intro file hhead hnonempty hother heq
    have hleads := hbelow file hhead (heq ▸ List.prefix_rfl)
    have hfirst := hleads.head hnonempty
    exact hother (by rw [List.head?_eq_some_head hnonempty, hfirst, List.head_cons])
  rintro (hpackage | hmetadata | ⟨source, hsource, happart, hleads⟩)
  · exact hfile "package.json" (by decide) (by decide) (by decide)
      (by simpa [String.append_assoc] using hpackage)
  · exact hfile ".supernote-module.json" (by decide) (by decide) (by decide)
      (by simpa [String.append_assoc] using hmetadata)
  · have hleads := hbelow source (head?_of_mem_roots hsource) hleads
    exact happart (overlap_iff_exists_below.mpr ⟨_, hleads, ⟨tail, rfl⟩⟩)

theorem not_authored_of_below_runtimeRoot (hbelow : Below (pathParts runtimeRoot) (pathParts path))
    (feature : ProjectFeature) (hcanonical : feature.Canonical) : ¬ Authored feature path := by
  intro hauthored
  refine (canonicalFeatureRoot_eq_ok hcanonical).not_overlap_runtimeRoot ?_
  exact List.prefix_or_prefix_of_prefix hbelow.1 (hauthored.root_prefix hcanonical)

theorem ne_packageJson_of_prefix {root : String}
    (hroot : (pathParts root).head? = some "android" ∨
      (pathParts root).head? = some "local_modules")
    (hleads : pathParts root <+: pathParts path) : path ≠ "package.json" := by
  rintro rfl
  have hpackage : pathParts "package.json" = ["package.json"] := by decide
  rw [hpackage] at hleads
  rcases List.prefix_cons_iff.mp hleads with hnil | ⟨tail, htail, -⟩
  · simp [hnil] at hroot
  · simp [htail] at hroot

/-- **A stale path is a generated leaf of a feature named in the manifest or the project, or lies
below the runtime root; it is not expected, and it is no authored file.** -/
theorem staleOwnedPaths_are_generated (hexdigest : String → String) (raw : Json)
    (manifest : LoadedIntegrityManifest)
    (haccepted : parseIntegrityManifest hexdigest raw = .ok manifest)
    (projectFeatures : List ProjectFeature)
    (hcanonical : ∀ feature ∈ projectFeatures, feature.Canonical) (expected paths : List String)
    (hstale : staleOwnedPaths expected projectFeatures (some manifest) = .ok paths) :
    ∀ path ∈ paths,
      (GeneratedLeaf projectFeatures manifest path ∨
        Below (pathParts runtimeRoot) (pathParts path)) ∧
      path ∉ expected ∧ path ≠ "package.json" ∧
      ∀ feature : ProjectFeature, feature.Canonical → ¬ Authored feature path := by
  intro path hpath
  have hsource := parseIntegrityManifest_eq_ok haccepted
  obtain ⟨hexpected, hplace⟩ := staleOwnedPaths_eq_ok hsource hcanonical hstale hpath
  rcases hplace with hbelow | ⟨package, root, leaf, hnamed, hroot, hleaf, rfl⟩
  · refine ⟨Or.inr hbelow, hexpected, ?_, not_authored_of_below_runtimeRoot hbelow⟩
    exact ne_packageJson_of_prefix (Or.inl (by rw [pathParts_runtimeRoot]; rfl)) hbelow.1
  · refine ⟨Or.inl ⟨package, hnamed, leaf, hleaf, by rw [hroot.eq_append]⟩, hexpected, ?_,
      not_authored_of_leaf hroot hleaf⟩
    have hleads : pathParts root <+: pathParts (root ++ "/" ++ leaf) := by
      rw [pathParts_append_of_featureRoot hroot (head?_pathParts_leaf hleaf).1]
      exact List.prefix_append _ _
    refine ne_packageJson_of_prefix (Or.inr ?_) hleads
    rcases hroot.pathParts_eq with ⟨-, -, hparts⟩ | ⟨scope, name, -, -, hparts⟩
    · rw [hparts, List.head?_cons]
    · rw [hparts, List.head?_cons]

/-! ### A source root inside the generated directory -/

/-- A manifest of one feature with the two records it needs. -/
def anchoredManifest : LoadedIntegrityManifest where
  generatorVersion := "1.0.0"
  generationId := zeroDigest
  pluginId := "plugin"
  features := [
    { featureId := canonicalFeatureId id "a", packageName := "a", root := "local_modules/a",
      semanticHash := zeroDigest }]
  artifacts := [
    { path := "android/.supernote-module/runtime/ownership.json", owner := "shared-runtime",
      kind := "runtime-metadata", sha256 := zeroDigest, generationId := zeroDigest,
      committedSource := true, mode := none },
    { path := "local_modules/a/.supernote-generated/ownership.json", owner := "feature:a",
      kind := "feature-generated-metadata", sha256 := zeroDigest, generationId := zeroDigest,
      committedSource := true, mode := none }]
  wiring := []

theorem parse_anchoredManifest :
    parseIntegrityManifest id anchoredManifest.manifest = .ok anchoredManifest := by
  decide

/-- A feature whose native sources are declared to be in the generated directory. -/
def nestedFeature : ProjectFeature where
  npmName := "a"
  root := "local_modules/a"
  roots := {
    native := ".supernote-generated"
    jvm := "android/src/main/java"
    nativeNormalized := by decide
    jvmNormalized := by decide
    different := by decide }

theorem nestedFeature_canonical : nestedFeature.Canonical := by
  unfold ProjectFeature.Canonical
  decide

theorem staleOwnedPaths_reaches_source_root :
    ¬ ∀ hexdigest raw manifest, parseIntegrityManifest hexdigest raw = .ok manifest →
      ∀ projectFeatures : List ProjectFeature,
        (∀ feature ∈ projectFeatures, feature.Canonical) →
        ∀ expected paths, staleOwnedPaths expected projectFeatures (some manifest) = .ok paths →
          ∀ path ∈ paths, ∀ feature ∈ projectFeatures,
            ∀ source ∈ [feature.roots.native, feature.roots.jvm],
              ¬ InSourceRoot feature source path := by
  intro hall
  have hnever := hall id anchoredManifest.manifest anchoredManifest parse_anchoredManifest
    [nestedFeature] (by simpa using nestedFeature_canonical) []
    ["android/.supernote-module/runtime/ownership.json",
      "local_modules/a/.supernote-generated/ownership.json"] (by decide)
    "local_modules/a/.supernote-generated/ownership.json" (by simp) nestedFeature (by simp)
    ".supernote-generated" (by simp [nestedFeature])
  unfold InSourceRoot at hnever
  exact absurd hnever (by decide)

theorem staleOwnedPaths_are_generated_anchored :
    (GeneratedLeaf [nestedFeature] anchoredManifest
        "local_modules/a/.supernote-generated/ownership.json" ∨
      Below (pathParts runtimeRoot)
        (pathParts "local_modules/a/.supernote-generated/ownership.json")) ∧
    "local_modules/a/.supernote-generated/ownership.json" ∉
      ["android/.supernote-module/runtime/ownership.json"] ∧
    "local_modules/a/.supernote-generated/ownership.json" ≠ "package.json" ∧
    ∀ feature : ProjectFeature, feature.Canonical →
      ¬ Authored feature "local_modules/a/.supernote-generated/ownership.json" :=
  staleOwnedPaths_are_generated id anchoredManifest.manifest anchoredManifest
    parse_anchoredManifest [nestedFeature] (by simpa using nestedFeature_canonical)
    ["android/.supernote-module/runtime/ownership.json"]
    ["local_modules/a/.supernote-generated/ownership.json"] (by decide)
    "local_modules/a/.supernote-generated/ownership.json" (by simp)

end SupernoteModule.Generation.GenerationService
