import SupernoteModule.Generation.IntegrityManifest
import SupernoteModule.Lib.Territory

/-!
# Ownership in an accepted integrity manifest

The runtime root and the feature roots are separated regions, because npm names make feature roots
free of prefixes. Artifacts of these owners lie in their region. Artifacts of `plugin-global` have
only been kept out of the regions, which does not keep them from containing one.
-/

namespace SupernoteModule.Generation.IntegrityManifest

open SupernoteModule.Lib SupernoteModule.Python
open SupernoteModule.Python.Json (Fields get keys hasExactly)
open SupernoteModule.Python.PurePosixPath (joinComponents pathParts_joinComponents)

variable {hexdigest : String → String} {raw : Json} {manifest : LoadedIntegrityManifest}

/-! ### Guards -/

@[simp] theorem demandSome_eq_ok {Value : Type} {option : Option Value} {message : String}
    {value : Value} : demandSome option message = .ok value ↔ option = some value := by
  cases option <;> simp [demandSome]

@[simp] theorem assertString_eq_ok {value : Json} {text : String} :
    assertString value = .ok text ↔ value = .string text := by
  cases value <;> simp [assertString, Json.string?]

/-- A canonical relative path renders to itself, has no root, and does not leave its tree. -/
structure CanonicalRelative (path : String) : Prop where
  nonempty : path ≠ ""
  noBackslash : backslash ∉ path.toList
  relative : (PurePosixPath.parse path).isAbsolute = false
  notWindows : windowsAnchored path = false
  parts : ∀ part ∈ pathParts path, part ∉ ["", ".", ".."]
  rendered : (PurePosixPath.parse path).asPosix = path

theorem requireCanonicalRelative_eq_ok {value : Json} {label : String} {result : Unit} :
    requireCanonicalRelative value label = .ok result ↔
      ∃ path, value = .string path ∧ CanonicalRelative path := by
  simp only [requireCanonicalRelative, bind_eq_ok, demandSome_eq_ok, Json.string?_eq_some,
    require_eq_ok, not_or, ne_eq, not_not, Bool.not_eq_true, List.any_eq_false, decide_eq_true_eq]
  constructor
  · rintro ⟨path, hvalue, hempty, hbackslash, hrelative, hwindows, hparts, hrendered⟩
    exact ⟨path, hvalue, hempty, hbackslash, hrelative, hwindows, hparts, hrendered⟩
  · rintro ⟨path, hvalue, hcanonical⟩
    exact ⟨path, hvalue, hcanonical.nonempty, hcanonical.noBackslash, hcanonical.relative,
      hcanonical.notWindows, hcanonical.parts, hcanonical.rendered⟩

theorem isDescendant_iff {path root : String} :
    isDescendant path root ↔ Below (pathParts root) (pathParts path) := by
  simp [isDescendant, below_iff_take]

/-! ### Feature roots -/

/-- How a package name determines its root. -/
inductive FeatureRoot (packageName root : String) : Prop where
  | plain (hname : IsComponent packageName) (hplain : ¬ startsWith packageName "@")
      (hroot : root = joinComponents ["local_modules", packageName])
  | inScope (scope name : String) (hscope : IsComponent scope) (hname : IsComponent name)
      (hat : startsWith scope "@") (hpackage : packageName = joinComponents [scope, name])
      (hroot : root = joinComponents ["local_modules", scope, name])

theorem isComponent_localModules : IsComponent "local_modules" := by
  refine ⟨by decide, by decide, by decide⟩

theorem suffix_of_not_mem {separator : Char} {left right front last : List Char}
    (happend : left ++ separator :: right = front ++ last) (hlast : separator ∉ last) :
    last <:+ right := by
  have hwhole : last <:+ left ++ separator :: right := happend ▸ List.suffix_append front last
  rcases List.suffix_or_suffix_of_suffix hwhole (List.suffix_append left _) with hsuffix | hsuffix
  · rcases List.suffix_cons_iff.mp hsuffix with rfl | hright
    · exact absurd List.mem_cons_self hlast
    · exact hright
  · exact absurd (hsuffix.subset List.mem_cons_self) hlast

/-- The last part of an npm name starts with a letter, a digit or a tilde. -/
theorem ne_dot_of_npmName {packageName scope name : String}
    (hnpm : fullmatch npmName packageName)
    (hsplit : packageName.toList = scope.toList ++ '/' :: name.toList) : name ≠ "." := by
  rintro rfl
  rw [fullmatch, npmName, RegularExpression.mul_rmatch_iff] at hnpm
  obtain ⟨front, last, happend, -, hlast⟩ := hnpm
  obtain ⟨first, tail, rfl, hfirst, htail⟩ := (RegularExpression.mul_rmatch_iff _ _ _).mp hlast
  obtain ⟨initial, hinitial, rfl⟩ := rmatch_oneOf.mp hfirst
  have hslash : '/' ∉ [initial] ++ tail := by
    intro hmem
    rcases List.mem_cons.mp hmem with rfl | hmem
    · exact absurd hinitial (by decide)
    · exact absurd (rmatch_star_oneOf.mp htail _ hmem) (by decide)
  have hsuffix := suffix_of_not_mem (hsplit.symm.trans happend) hslash
  have hdot : initial ∈ ['.'] := hsuffix.subset List.mem_cons_self
  rw [List.mem_singleton] at hdot
  subst hdot
  exact absurd hinitial (by decide)

theorem canonicalFeatureRoot_eq_ok {packageName root : String}
    (hok : canonicalFeatureRoot packageName = .ok root) : FeatureRoot packageName root := by
  simp only [canonicalFeatureRoot, bind_eq_ok, require_eq_ok, exists_unit] at hok
  obtain ⟨hnpm, hok⟩ := hok
  by_cases hat : startsWith packageName "@"
  · rw [if_pos hat] at hok
    split at hok
    · rename_i scope name hsplit
      simp only [bind_eq_ok, require_eq_ok, exists_unit, pure_eq_ok] at hok
      obtain ⟨⟨hscopeTail, hnameEmpty⟩, hroot⟩ := hok
      have hpackage : packageName.toList = scope.toList ++ '/' :: name.toList := by
        have hjoin : ['/'].intercalate (packageName.toList.splitOn '/') = packageName.toList :=
          List.intercalate_splitOn '/'
        have hpieces : packageName.toList.splitOn '/' = [scope.toList, name.toList] := by
          have hmap := congrArg (List.map String.toList) hsplit
          simpa [split, Function.comp_def] using hmap
        rw [hpieces] at hjoin
        simpa using hjoin.symm
      have hscope : IsComponent scope := by
        have hlong : ∀ short : String, short.toList.drop 1 = [] → scope ≠ short := by
          rintro short hshort rfl
          exact hscopeTail hshort
        exact ⟨hlong "" (by decide), hlong "." (by decide),
          not_mem_of_mem_split (hsplit ▸ List.mem_cons_self)⟩
      have hname : IsComponent name :=
        ⟨hnameEmpty, ne_dot_of_npmName hnpm hpackage,
          not_mem_of_mem_split (hsplit ▸ List.mem_cons_of_mem _ List.mem_cons_self)⟩
      have hscopeAt : startsWith scope "@" := by
        obtain ⟨rest, hrest⟩ := startsWith_iff.mp hat
        rw [hrest] at hpackage
        rw [startsWith_iff]
        refine ⟨String.ofList (scope.toList.drop 1), ?_⟩
        rw [← String.toList_inj, String.toList_append, String.toList_ofList]
        cases hscopeList : scope.toList with
        | nil => exact absurd hscopeList hscope.toList_ne_nil
        | cons char tail =>
            rw [hscopeList, String.toList_append] at hpackage
            have hchar := congrArg List.head? hpackage
            simpa using hchar.symm
      refine FeatureRoot.inScope scope name hscope hname hscopeAt ?_ ?_
      · rw [← String.toList_inj, hpackage, PurePosixPath.toList_joinComponents_cons]
        simp
      · rw [← hroot, PurePosixPath.asPosix_ofSegments]
        simp [isComponent_localModules, hscope, hname]
    · simp at hok
  · rw [if_neg hat] at hok
    simp only [bind_eq_ok, require_eq_ok, exists_unit, requireCanonicalRelative_eq_ok, pure_eq_ok,
      Json.string.injEq] at hok
    obtain ⟨hsimple, ⟨path, rfl, hcanonical⟩, hroot⟩ := hok
    rw [not_or] at hsimple
    have hjoin : "local_modules/" ++ packageName =
      joinComponents ["local_modules", packageName] := by
      rw [← String.toList_inj, PurePosixPath.toList_joinComponents_cons]
      simp
    refine FeatureRoot.plain ⟨?_, ?_, hsimple.1⟩ hat (hroot.symm.trans hjoin)
    · rintro rfl
      exact absurd hcanonical.rendered (by decide)
    · rintro rfl
      exact absurd hsimple.2 (by decide)

theorem FeatureRoot.pathParts_eq {packageName root : String}
    (hroot : FeatureRoot packageName root) :
    (IsComponent packageName ∧ ¬ startsWith packageName "@" ∧
      pathParts root = ["local_modules", packageName]) ∨
    (∃ scope name, startsWith scope "@" ∧ packageName = joinComponents [scope, name] ∧
      pathParts root = ["local_modules", scope, name]) := by
  cases hroot with
  | plain hname hplain hroot =>
      refine Or.inl ⟨hname, hplain, ?_⟩
      rw [hroot, pathParts_joinComponents]
      simp [isComponent_localModules, hname]
  | inScope scope name hscope hname hat hpackage hroot =>
      refine Or.inr ⟨scope, name, hat, hpackage, ?_⟩
      rw [hroot, pathParts_joinComponents]
      simp [isComponent_localModules, hscope, hname]

theorem FeatureRoot.eq_append {packageName root : String} (hroot : FeatureRoot packageName root) :
    root = "local_modules/" ++ packageName := by
  cases hroot with
  | plain _ _ hroot =>
      rw [hroot, ← String.toList_inj, PurePosixPath.toList_joinComponents_cons]
      simp
  | inScope scope name _ _ _ hpackage hroot =>
      rw [hroot, hpackage, ← String.toList_inj]
      simp [PurePosixPath.toList_joinComponents_cons]

/-- Feature roots are free of prefixes: roots that overlap are of one package. -/
theorem FeatureRoot.packageName_eq {left right leftRoot rightRoot : String}
    (hleft : FeatureRoot left leftRoot) (hright : FeatureRoot right rightRoot)
    (hoverlap : Overlap (pathParts leftRoot) (pathParts rightRoot)) : left = right := by
  rcases hleft.pathParts_eq with ⟨-, hplain, hl⟩ | ⟨scope, name, hat, hpackage, hl⟩
  · rcases hright.pathParts_eq with ⟨-, hplain', hr⟩ | ⟨scope', name', hat', hpackage', hr⟩
    · rw [hl, hr] at hoverlap
      simpa using hoverlap
    · rw [hl, hr] at hoverlap
      simp only [overlap_cons_cons, true_and, overlap_nil_left, and_true] at hoverlap
      exact absurd (hoverlap ▸ hat') hplain
  · rcases hright.pathParts_eq with ⟨-, hplain', hr⟩ | ⟨scope', name', hat', hpackage', hr⟩
    · rw [hl, hr] at hoverlap
      simp only [overlap_cons_cons, true_and, overlap_nil_right, and_true] at hoverlap
      exact absurd (hoverlap ▸ hat) hplain'
    · rw [hl, hr] at hoverlap
      simp only [overlap_cons_cons, true_and, overlap_nil_right, and_true] at hoverlap
      rw [hpackage, hpackage', hoverlap.1, hoverlap.2]

theorem pathParts_runtimeRoot :
    pathParts runtimeRoot = ["android", ".supernote-module", "runtime"] := by
  decide

/-- No feature root meets the runtime root. -/
theorem FeatureRoot.not_overlap_runtimeRoot {packageName root : String}
    (hroot : FeatureRoot packageName root) :
    ¬ Overlap (pathParts runtimeRoot) (pathParts root) := by
  rw [pathParts_runtimeRoot]
  rcases hroot.pathParts_eq with ⟨-, -, hparts⟩ | ⟨scope, name, -, -, hparts⟩
  · rw [hparts, overlap_cons_cons]
    simp
  · rw [hparts, overlap_cons_cons]
    simp

/-! ### What an accepted manifest was read from -/

/-- A feature record and the object it was read from. -/
structure FeatureSource (raw : Json) (feature : ManifestFeature) : Prop where
  root : ∃ fields, raw = .object fields ∧ get fields "root" = .string feature.root
  shape : FeatureRoot feature.packageName feature.root

theorem parseFeature_eq_ok {index : Nat} {feature : ManifestFeature}
    (hok : parseFeature hexdigest raw index = .ok feature) : FeatureSource raw feature := by
  simp only [parseFeature, bind_eq_ok, demandSome_eq_ok, Json.object?_eq_some, require_eq_ok,
    exists_unit, Json.string?_eq_some, Json.equals_string, assertString_eq_ok, pure_eq_ok] at hok
  obtain ⟨fields, rfl, -, packageName, -, -, -, expectedRoot, hshape, hroot, -, featureId, -, root,
    hassert, semanticHash, -, rfl⟩ := hok
  rw [hroot, Json.string.injEq] at hassert
  subst hassert
  exact ⟨⟨fields, rfl, hroot⟩, canonicalFeatureRoot_eq_ok hshape⟩

/-- An artifact record and the object it was read from. -/
structure ArtifactSource (features : List ManifestFeature) (raw : Json)
    (record : ManifestArtifactRecord) : Prop where
  fields : ∃ fields, raw = .object fields ∧ get fields "path" = .string record.path ∧
    get fields "owner" = .string record.owner
  canonical : CanonicalRelative record.path
  notManifest : record.path ≠ integrityManifestPath
  granted : ∃ index, validateArtifactOwner record.path record.owner index features = .ok ()

theorem parseArtifact_eq_ok {generationId : String} {features : List ManifestFeature} {index : Nat}
    {record : ManifestArtifactRecord}
    (hok : parseArtifact generationId features raw index = .ok record) :
    ArtifactSource features raw record := by
  simp only [parseArtifact, artifactObject, bind_eq_ok, demandSome_eq_ok, Json.object?_eq_some,
    require_eq_ok, exists_unit, Json.string?_eq_some, assertString_eq_ok, pure_eq_ok,
    requireCanonicalRelative_eq_ok] at hok
  obtain ⟨artifact, ⟨fields, rfl, -, rfl⟩, ⟨canonicalPath, hcanonicalPath, hcanonical⟩, owner,
    howner, -, kind, -, -, -, -, -, mode, -, path, hpath, hnotManifest, hgranted, sha256, -,
    itemGeneration, -, rfl⟩ := hok
  rw [hpath, Json.string.injEq] at hcanonicalPath
  subst hcanonicalPath
  exact ⟨⟨fields, rfl, hpath, howner⟩, hcanonical, hnotManifest, index, hgranted⟩

/-- The features and artifacts of an accepted manifest, record by record. -/
structure ManifestSource (raw : Json) (manifest : LoadedIntegrityManifest) : Prop where
  features : ∃ fields items, raw = .object fields ∧ get fields "features" = .array items ∧
    List.Forall₂ FeatureSource items manifest.features
  artifacts : ∃ fields items, raw = .object fields ∧ get fields "artifacts" = .array items ∧
    List.Forall₂ (ArtifactSource manifest.features) items manifest.artifacts
  names : (manifest.features.map (·.packageName)).Nodup

theorem parseIntegrityManifest_eq_ok (hok : parseIntegrityManifest hexdigest raw = .ok manifest) :
    ManifestSource raw manifest := by
  simp only [parseIntegrityManifest, requireManifestObject, manifestRecordLists,
    parseFeatureRecords, parseArtifactRecords, bind_eq_ok, demandSome_eq_ok, Json.object?_eq_some,
    Json.array?_eq_some, require_eq_ok, exists_unit, pure_eq_ok] at hok
  obtain ⟨fields, rfl, ⟨generatorVersion, generationId, pluginId⟩, -, lists,
    ⟨rawFeatures, hrawFeatures, rawArtifacts, hrawArtifacts, rawWiring, -, rfl⟩, features,
    ⟨_, hfeatures, ⟨hnames, -, -⟩, -, rfl⟩, artifacts, ⟨_, hartifacts, -, -, rfl⟩, -, wiring, -,
    -, rfl⟩ := hok
  refine ⟨⟨fields, rawFeatures, rfl, hrawFeatures, ?_⟩,
    ⟨fields, rawArtifacts, rfl, hrawArtifacts, ?_⟩, hnames⟩
  · refine (enumerate_eq_ok hfeatures).imp ?_
    rintro item feature ⟨index, hfeature⟩
    exact parseFeature_eq_ok hfeature
  · refine (enumerate_eq_ok hartifacts).imp ?_
    rintro item artifact ⟨index, hartifact⟩
    exact parseArtifact_eq_ok hartifact

/-! ### Owners -/

/-- The regions of the tree that have an owner before any artifact is recorded. -/
def regions (features : List ManifestFeature) : Set (Claim String String) :=
  {region | region = ⟨pathParts runtimeRoot, "shared-runtime"⟩ ∨
    ∃ feature ∈ features, region = ⟨pathParts feature.root, "feature:" ++ feature.packageName⟩}

/-- What each artifact claims: its path, and for a directory everything below it. -/
def artifactClaims (artifacts : List ManifestArtifactRecord) : Set (Claim String String) :=
  {claim | ∃ artifact ∈ artifacts, claim = ⟨pathParts artifact.path, artifact.owner⟩}

/-- The roots no artifact may contain. -/
def ownedRoots (features : List ManifestFeature) : List String :=
  runtimeRoot :: features.map (·.root)

theorem mem_regions_runtime {features : List ManifestFeature} :
    ⟨pathParts runtimeRoot, "shared-runtime"⟩ ∈ regions features :=
  Or.inl rfl

theorem mem_regions_feature {features : List ManifestFeature} {feature : ManifestFeature}
    (hfeature : feature ∈ features) :
    ⟨pathParts feature.root, "feature:" ++ feature.packageName⟩ ∈ regions features :=
  Or.inr ⟨feature, hfeature, rfl⟩

/-- Every region is that of an owned root. -/
theorem path_of_mem_regions {features : List ManifestFeature} {region : Claim String String}
    (hregion : region ∈ regions features) :
    ∃ root ∈ ownedRoots features, region.path = pathParts root := by
  rcases hregion with rfl | ⟨feature, hfeature, rfl⟩
  · exact ⟨runtimeRoot, List.mem_cons_self, rfl⟩
  · exact ⟨feature.root, List.mem_cons_of_mem _ (List.mem_map_of_mem hfeature), rfl⟩

theorem regions_separated {features : List ManifestFeature}
    (hshape : ∀ feature ∈ features, FeatureRoot feature.packageName feature.root) :
    Separated (regions features) := by
  rintro _ (rfl | ⟨left, hleft, rfl⟩) _ (rfl | ⟨right, hright, rfl⟩) hoverlap
  · rfl
  · exact absurd hoverlap (hshape right hright).not_overlap_runtimeRoot
  · exact absurd hoverlap.symm (hshape left hleft).not_overlap_runtimeRoot
  · rw [(hshape left hleft).packageName_eq (hshape right hright) hoverlap]

/-- An owned root determines everything that overlaps it among the owned roots. -/
theorem ownedRoots_eq_of_overlap {features : List ManifestFeature} {left right : String}
    (hshape : ∀ feature ∈ features, FeatureRoot feature.packageName feature.root)
    (hleft : left ∈ ownedRoots features) (hright : right ∈ ownedRoots features)
    (hoverlap : Overlap (pathParts left) (pathParts right)) : left = right := by
  simp only [ownedRoots, List.mem_cons, List.mem_map] at hleft hright
  rcases hleft with rfl | ⟨leftFeature, hl, rfl⟩
  · rcases hright with rfl | ⟨rightFeature, hr, rfl⟩
    · rfl
    · exact absurd hoverlap (hshape rightFeature hr).not_overlap_runtimeRoot
  · rcases hright with rfl | ⟨rightFeature, hr, rfl⟩
    · exact absurd hoverlap.symm (hshape leftFeature hl).not_overlap_runtimeRoot
    · have hname := (hshape leftFeature hl).packageName_eq (hshape rightFeature hr) hoverlap
      rw [(hshape leftFeature hl).eq_append, (hshape rightFeature hr).eq_append, hname]

/-- What the owner check establishes, by the form of the owner. -/
inductive OwnerChecked (features : List ManifestFeature) (path owner : String) : Prop where
  | runtime (howner : owner = "shared-runtime")
      (hbelow : Below (pathParts runtimeRoot) (pathParts path))
  | feature (feature : ManifestFeature) (hfeature : feature ∈ features)
      (howner : owner = "feature:" ++ feature.packageName)
      (hbelow : Below (pathParts feature.root) (pathParts path))
  | pluginGlobal (howner : owner = "plugin-global")
      (hbelow : ∀ root ∈ ownedRoots features, ¬ Below (pathParts root) (pathParts path))

theorem validateArtifactOwner_eq_ok {features : List ManifestFeature} {path owner : String}
    {index : Nat} (hok : validateArtifactOwner path owner index features = .ok ()) :
    OwnerChecked features path owner := by
  unfold validateArtifactOwner at hok
  by_cases hruntime : owner = "shared-runtime"
  · rw [if_pos hruntime, require_eq_ok, isDescendant_iff] at hok
    exact OwnerChecked.runtime hruntime hok
  rw [if_neg hruntime] at hok
  by_cases hleads : startsWith owner "feature:"
  · rw [if_pos hleads] at hok
    cases hlookup : featureByPackage features (removePrefix owner "feature:") with
    | none => simp [hlookup] at hok
    | some feature =>
        rw [hlookup] at hok
        simp only [require_eq_ok, isDescendant_iff] at hok
        have hname : feature.packageName = removePrefix owner "feature:" := by
          simpa using List.find?_some hlookup
        refine OwnerChecked.feature feature (List.mem_of_find?_eq_some hlookup) ?_ hok
        rw [hname, append_removePrefix hleads]
  rw [if_neg hleads] at hok
  by_cases hplugin : owner = "plugin-global"
  · rw [if_pos hplugin, require_eq_ok, not_or] at hok
    obtain ⟨hruntimeRoot, hfeatures⟩ := hok
    refine OwnerChecked.pluginGlobal hplugin ?_
    intro root hroot hbelow
    rcases List.mem_cons.mp hroot with rfl | hroot
    · exact hruntimeRoot (isDescendant_iff.mpr hbelow)
    · obtain ⟨feature, hfeature, rfl⟩ := List.mem_map.mp hroot
      exact hfeatures (List.any_eq_true.mpr ⟨feature, hfeature, isDescendant_iff.mpr hbelow⟩)
  · simp [if_neg hplugin] at hok

/-! ### The contract -/

/-- One owner for every path: artifacts of different owners do not meet, no artifact contains an
owned root, and over artifacts and owned regions together no path has two owners. -/
structure SingleOwner (manifest : LoadedIntegrityManifest) : Prop where
  apart : ∀ left ∈ manifest.artifacts, ∀ right ∈ manifest.artifacts, left.owner ≠ right.owner →
    ¬ Overlap (pathParts left.path) (pathParts right.path)
  containsNoRoot : ∀ artifact ∈ manifest.artifacts, ∀ root ∈ ownedRoots manifest.features,
    ¬ pathParts artifact.path <+: pathParts root
  oneOwner : ∀ path first second,
    Owns (regions manifest.features ∪ artifactClaims manifest.artifacts) first path →
    Owns (regions manifest.features ∪ artifactClaims manifest.artifacts) second path →
    first = second

/-- The records under a key of the raw manifest. -/
def rawRecords (raw : Json) (key : String) : List Fields :=
  match raw with
  | .object fields =>
      match get fields key with
      | .array items => items.filterMap Json.object?
      | _ => []
  | _ => []

/-- A `plugin-global` record of the raw manifest names the runtime root, a feature root, or a
directory above one of them. -/
def PluginGlobalOverRoot (raw : Json) : Prop :=
  ∃ record ∈ rawRecords raw "artifacts", get record "owner" = .string "plugin-global" ∧
    ∃ path, get record "path" = .string path ∧
      (pathParts path <+: pathParts runtimeRoot ∨
        ∃ feature ∈ rawRecords raw "features", ∃ root, get feature "root" = .string root ∧
          pathParts path <+: pathParts root)

section Source

variable (hsource : ManifestSource raw manifest)
include hsource

theorem ManifestSource.shape : ∀ feature ∈ manifest.features,
    FeatureRoot feature.packageName feature.root := by
  intro feature hfeature
  obtain ⟨fields, items, rfl, hitems, hrecords⟩ := hsource.features
  obtain ⟨item, -, hitem⟩ := exists_item_of_mem hrecords hfeature
  exact hitem.shape

theorem ManifestSource.ownerChecked : ∀ artifact ∈ manifest.artifacts,
    OwnerChecked manifest.features artifact.path artifact.owner := by
  intro artifact hartifact
  obtain ⟨fields, items, rfl, hitems, hrecords⟩ := hsource.artifacts
  obtain ⟨item, -, hitem⟩ := exists_item_of_mem hrecords hartifact
  obtain ⟨index, hgranted⟩ := hitem.granted
  exact validateArtifactOwner_eq_ok hgranted

theorem ManifestSource.notManifest : ∀ artifact ∈ manifest.artifacts,
    artifact.path ≠ integrityManifestPath := by
  intro artifact hartifact
  obtain ⟨fields, items, rfl, hitems, hrecords⟩ := hsource.artifacts
  obtain ⟨item, -, hitem⟩ := exists_item_of_mem hrecords hartifact
  exact hitem.notManifest

/-- The raw artifact records carry exactly the paths and owners of the parsed ones. -/
theorem ManifestSource.exists_rawArtifact_iff (property : String → String → Prop) :
    (∃ record ∈ rawRecords raw "artifacts", ∃ path owner, get record "path" = .string path ∧
        get record "owner" = .string owner ∧ property path owner) ↔
      ∃ artifact ∈ manifest.artifacts, property artifact.path artifact.owner := by
  obtain ⟨fields, items, rfl, hitems, hrecords⟩ := hsource.artifacts
  simp only [rawRecords, hitems]
  constructor
  · rintro ⟨record, hrecord, path, owner, hpath, howner, hproperty⟩
    obtain ⟨item, hitem, hobject⟩ := List.mem_filterMap.mp hrecord
    obtain ⟨artifact, hartifact, hread⟩ := exists_output_of_mem hrecords hitem
    obtain ⟨fields', rfl, hpath', howner'⟩ := hread.fields
    simp only [Json.object?, Option.some.injEq] at hobject
    subst hobject
    rw [hpath, Json.string.injEq] at hpath'
    rw [howner, Json.string.injEq] at howner'
    exact ⟨artifact, hartifact, hpath' ▸ howner' ▸ hproperty⟩
  · rintro ⟨artifact, hartifact, hproperty⟩
    obtain ⟨item, hitem, hread⟩ := exists_item_of_mem hrecords hartifact
    obtain ⟨fields', rfl, hpath, howner⟩ := hread.fields
    exact ⟨fields', List.mem_filterMap.mpr ⟨_, hitem, rfl⟩, artifact.path, artifact.owner, hpath,
      howner, hproperty⟩

/-- The raw feature records carry exactly the roots of the parsed ones. -/
theorem ManifestSource.exists_rawFeature_iff (property : String → Prop) :
    (∃ record ∈ rawRecords raw "features", ∃ root, get record "root" = .string root ∧
        property root) ↔
      ∃ feature ∈ manifest.features, property feature.root := by
  obtain ⟨fields, items, rfl, hitems, hrecords⟩ := hsource.features
  simp only [rawRecords, hitems]
  constructor
  · rintro ⟨record, hrecord, root, hroot, hproperty⟩
    obtain ⟨item, hitem, hobject⟩ := List.mem_filterMap.mp hrecord
    obtain ⟨feature, hfeature, hread⟩ := exists_output_of_mem hrecords hitem
    obtain ⟨fields', rfl, hroot'⟩ := hread.root
    simp only [Json.object?, Option.some.injEq] at hobject
    subst hobject
    rw [hroot, Json.string.injEq] at hroot'
    exact ⟨feature, hfeature, hroot' ▸ hproperty⟩
  · rintro ⟨feature, hfeature, hproperty⟩
    obtain ⟨item, hitem, hread⟩ := exists_item_of_mem hrecords hfeature
    obtain ⟨fields', rfl, hroot⟩ := hread.root
    exact ⟨fields', List.mem_filterMap.mpr ⟨_, hitem, rfl⟩, feature.root, hroot, hproperty⟩

theorem ManifestSource.pluginGlobalOverRoot_iff :
    PluginGlobalOverRoot raw ↔ ∃ artifact ∈ manifest.artifacts, artifact.owner = "plugin-global" ∧
      ∃ root ∈ ownedRoots manifest.features, pathParts artifact.path <+: pathParts root := by
  have hartifacts := hsource.exists_rawArtifact_iff (fun path owner =>
    owner = "plugin-global" ∧ ∃ root ∈ ownedRoots manifest.features,
      pathParts path <+: pathParts root)
  have hfeatures : ∀ path : String, (pathParts path <+: pathParts runtimeRoot ∨
      ∃ feature ∈ rawRecords raw "features", ∃ root, get feature "root" = .string root ∧
        pathParts path <+: pathParts root) ↔
      ∃ root ∈ ownedRoots manifest.features, pathParts path <+: pathParts root := by
    intro path
    rw [hsource.exists_rawFeature_iff (fun root => pathParts path <+: pathParts root)]
    simp [ownedRoots]
  rw [← hartifacts]
  simp only [PluginGlobalOverRoot, hfeatures]
  constructor
  · rintro ⟨record, hrecord, howner, path, hpath, hover⟩
    exact ⟨record, hrecord, path, "plugin-global", hpath, howner, rfl, hover⟩
  · rintro ⟨record, hrecord, path, owner, hpath, howner, rfl, hover⟩
    exact ⟨record, hrecord, howner, path, hpath, hover⟩

/-- Outside the defect every artifact is granted its path by the regions. -/
theorem ManifestSource.granted (hover : ¬ PluginGlobalOverRoot raw) :
    ∀ claim ∈ artifactClaims manifest.artifacts,
      Granted (regions manifest.features) "plugin-global" claim := by
  rintro _ ⟨artifact, hartifact, rfl⟩
  cases hsource.ownerChecked artifact hartifact with
  | runtime howner hbelow => exact Or.inl ⟨_, mem_regions_runtime, howner.symm, hbelow.1⟩
  | feature feature hfeature howner hbelow =>
      exact Or.inl ⟨_, mem_regions_feature hfeature, howner.symm, hbelow.1⟩
  | pluginGlobal howner hbelow =>
      refine Or.inr ⟨howner, ?_⟩
      intro region hregion hoverlap
      obtain ⟨root, hroot, hpath⟩ := path_of_mem_regions hregion
      rw [hpath, overlap_iff_below_or_prefix] at hoverlap
      rcases hoverlap with hroots | hleads
      · exact hbelow root hroot hroots
      · exact hover (hsource.pluginGlobalOverRoot_iff.mpr
          ⟨artifact, hartifact, howner, root, hroot, hleads⟩)

theorem ManifestSource.singleOwner (hover : ¬ PluginGlobalOverRoot raw) : SingleOwner manifest := by
  have hseparated := (regions_separated hsource.shape).union_granted (hsource.granted hover)
  refine ⟨?_, ?_, separated_iff_owner_unique.mp hseparated⟩
  · intro left hleft right hright howners hoverlap
    exact howners (hseparated (Or.inr ⟨left, hleft, rfl⟩) (Or.inr ⟨right, hright, rfl⟩) hoverlap)
  · intro artifact hartifact root hroot hleads
    -- A path in a region that is above an owned root would put one owned root under another.
    have hown : ∀ own ∈ ownedRoots manifest.features,
        ¬ Below (pathParts own) (pathParts artifact.path) := by
      intro own hownRoot hbelow
      have hoverlap : Overlap (pathParts own) (pathParts root) := Or.inl (hbelow.1.trans hleads)
      obtain rfl := ownedRoots_eq_of_overlap hsource.shape hownRoot hroot hoverlap
      exact hbelow.not_prefix hleads
    cases hsource.ownerChecked artifact hartifact with
    | runtime _ hbelow => exact hown _ List.mem_cons_self hbelow
    | feature feature hfeature _ hbelow =>
        exact hown _ (List.mem_cons_of_mem _ (List.mem_map_of_mem hfeature)) hbelow
    | pluginGlobal howner _ =>
        exact hover (hsource.pluginGlobalOverRoot_iff.mpr
          ⟨artifact, hartifact, howner, root, hroot, hleads⟩)

end Source

/-- **The contract holds of exactly the accepted manifests whose `plugin-global` records are not at
or above the runtime root or a feature root.** -/
theorem singleOwner_iff_not_pluginGlobalOverRoot (hexdigest : String → String) (raw : Json)
    (manifest : LoadedIntegrityManifest)
    (haccepted : parseIntegrityManifest hexdigest raw = .ok manifest) :
    SingleOwner manifest ↔ ¬ PluginGlobalOverRoot raw := by
  have hsource := parseIntegrityManifest_eq_ok haccepted
  constructor
  · intro hsingle hover
    obtain ⟨artifact, hartifact, -, root, hroot, hleads⟩ :=
      hsource.pluginGlobalOverRoot_iff.mp hover
    exact hsingle.containsNoRoot artifact hartifact root hroot hleads
  · exact hsource.singleOwner

/-! ### An overlap that is accepted -/

def zeroDigest : String := String.ofList (List.replicate 64 '0')

/-- A manifest without features whose `plugin-global` record is the directory of the Android
project, next to a record of the shared runtime inside it. -/
def overlappingManifest : LoadedIntegrityManifest where
  generatorVersion := "1.0.0"
  generationId := zeroDigest
  pluginId := "plugin"
  features := []
  artifacts := [
    { path := "android", owner := "plugin-global", kind := "directory", sha256 := zeroDigest,
      generationId := zeroDigest, committedSource := true, mode := none },
    { path := "android/.supernote-module/runtime/ownership.json", owner := "shared-runtime",
      kind := "runtime-metadata", sha256 := zeroDigest, generationId := zeroDigest,
      committedSource := true, mode := none }]
  wiring := []

theorem parseIntegrityManifest_accepts_overlap :
    ¬ ∀ hexdigest raw manifest, parseIntegrityManifest hexdigest raw = .ok manifest →
      SingleOwner manifest := by
  intro hall
  have hsingle := hall id overlappingManifest.manifest overlappingManifest (by decide)
  have hfirst := hsingle.containsNoRoot _ List.mem_cons_self runtimeRoot List.mem_cons_self
  exact absurd hfirst (by decide)

/-- A manifest with a scoped feature, the anchors it needs, and a `plugin-global` file. -/
def separateManifest : LoadedIntegrityManifest where
  generatorVersion := "1.0.0-rc.1"
  generationId := zeroDigest
  pluginId := "plugin"
  features := [
    { featureId := canonicalFeatureId id "@t/n", packageName := "@t/n",
      root := "local_modules/@t/n", semanticHash := zeroDigest }]
  artifacts := [
    { path := "android/.supernote-module/runtime/ownership.json", owner := "shared-runtime",
      kind := "runtime-metadata", sha256 := zeroDigest, generationId := zeroDigest,
      committedSource := true, mode := none },
    { path := "android/settings.gradle", owner := "plugin-global", kind := "gradle-integration",
      sha256 := zeroDigest, generationId := zeroDigest, committedSource := true,
      mode := some 0o644 },
    { path := "local_modules/@t/n/.supernote-generated/ownership.json",
      owner := "feature:@t/n", kind := "feature-generated-metadata", sha256 := zeroDigest,
      generationId := zeroDigest, committedSource := true, mode := none }]
  wiring := []

theorem singleOwner_iff_separateManifest :
    SingleOwner separateManifest ↔ ¬ PluginGlobalOverRoot separateManifest.manifest :=
  singleOwner_iff_not_pluginGlobalOverRoot id separateManifest.manifest separateManifest
    (by decide)

end SupernoteModule.Generation.IntegrityManifest
