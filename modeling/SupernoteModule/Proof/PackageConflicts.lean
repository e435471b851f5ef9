import SupernoteModule.Npm.PackageConflicts

/-!
# Conflicts that one side does not see

The registry compares names as they are written and the resolver in lower case. Identities and
targets are in lower case anyway, so that only public names and Android namespaces tell the two
apart.
-/

namespace SupernoteModule.Npm

open SupernoteModule.Generation SupernoteModule.Lib SupernoteModule.Python
open SupernoteModule.Generation.IntegrityManifest (canonicalFeatureId)
open SupernoteModule.Semantic (isIdentifier)

/-! ### The registry -/

section Registry

variable {hexdigest : String → String}

theorem rejectDuplicates_eq_ok {label : String} {values : List String} : ∀ {seen : List String},
    rejectDuplicates label seen values = .ok () ↔
      values.Nodup ∧ ∀ value ∈ values, value ∉ seen := by
  induction values with
  | nil =>
      intro seen
      exact ⟨fun _ => ⟨List.nodup_nil, fun _ hmem => absurd hmem List.not_mem_nil⟩, fun _ => rfl⟩
  | cons value values ih =>
      intro seen
      simp only [rejectDuplicates, bind_eq_ok, require_eq_ok, exists_unit, ih, List.nodup_cons,
        List.mem_cons, forall_eq_or_imp, not_or]
      constructor
      · rintro ⟨hnew, hnodup, hothers⟩
        refine ⟨⟨?_, hnodup⟩, hnew, fun other hother => (hothers other hother).2⟩
        intro hmem
        exact (hothers value hmem).1 rfl
      · rintro ⟨⟨hnotin, hnodup⟩, hnew, hothers⟩
        refine ⟨hnew, hnodup, fun other hother => ⟨?_, hothers other hother⟩⟩
        rintro rfl
        exact hnotin hother

/-- What a feature is called. -/
structure WellNamed (feature : FeatureManifest hexdigest) : Prop where
  featureId : feature.featureId = canonicalFeatureId hexdigest feature.npmName
  publicName : isIdentifier feature.publicName = true
  androidNamespace : isAscii feature.androidNamespace = true

theorem wellNamed (feature : FeatureManifest hexdigest) : WellNamed feature := by
  have hvalid := feature.valid
  simp only [FeatureManifest.Fields.postInit, validateAndroidNamespace, rejectNonAscii, bind_eq_ok,
    require_eq_ok, exists_unit] at hvalid
  obtain ⟨_, _, _, ⟨hascii, _⟩, hid, hname, _⟩ := hvalid
  exact ⟨hid, hname, hascii⟩

theorem registryAccepts_iff {pluginId generatorVersion : String}
    (hplugin : NamesPlugin hexdigest pluginId generatorVersion)
    (entries : List (FeatureRegistryEntry hexdigest)) :
    RegistryAccepts pluginId generatorVersion entries ↔
      entries.Pairwise fun first next => ¬ Same first.feature next.feature := by
  have hnodup : ∀ {name : FeatureRegistryEntry hexdigest → String},
      ((sortedBy (·.feature.featureId) entries).map name).Nodup ↔
        entries.Pairwise fun first next => name first ≠ name next := by
    intro name
    rw [List.Nodup, List.pairwise_map]
    exact (sortedBy_perm _ entries).pairwise_iff fun hne => hne.symm
  have hnpm :
      (entries.Pairwise fun first next => first.feature.featureId ≠ next.feature.featureId) →
        entries.Pairwise fun first next => first.feature.npmName ≠ next.feature.npmName := by
    intro hids
    apply hids.imp
    intro first next hid hsame
    apply hid
    rw [(wellNamed first.feature).featureId, (wellNamed next.feature).featureId, hsame]
  simp only [RegistryAccepts, PluginRuntimeRegistry.create, PluginRuntimeRegistry.postInit,
    bind_eq_ok, require_eq_ok, exists_unit, pure_eq_ok, rejectDuplicates_eq_ok, hnodup,
    List.not_mem_nil, not_false_eq_true, implies_true, and_true, exists_and_left, exists_eq']
  constructor
  · rintro ⟨_, _, _, _, hids, _, hnames, hnamespaces⟩
    apply (hids.and (hnames.and hnamespaces)).imp
    rintro first next ⟨hid, hname, hnamespace⟩ (hsame | hsame | hsame)
    · exact hid hsame
    · exact hname hsame
    · exact hnamespace hsame
  · intro hdistinct
    have hids : entries.Pairwise fun first next =>
        first.feature.featureId ≠ next.feature.featureId :=
      hdistinct.imp fun hnot hsame => hnot (.inl hsame)
    exact ⟨trivial, hplugin.identified, hplugin.versioned, hplugin.componentName, hids,
      hnpm hids, hdistinct.imp fun hnot hsame => hnot (.inr (.inl hsame)),
      hdistinct.imp fun hnot hsame => hnot (.inr (.inr hsame))⟩

end Registry

/-! ### The resolver -/

section Resolver

variable {lowerCase : LowerCase}

/-- Two modules have a key in common. -/
def Clash (lowerCase : LowerCase) (first next : PackageModule) : Prop :=
  lowerCase.lower first.featureId = lowerCase.lower next.featureId ∨
    lowerCase.lower first.publicName = lowerCase.lower next.publicName ∨
      lowerCase.lower first.androidNamespace = lowerCase.lower next.androidNamespace ∨
        lowerCase.lower first.cmakeTarget = lowerCase.lower next.cmakeTarget

/-- No key of the module has been claimed. -/
structure Free (lowerCase : LowerCase) (conflicts : Conflicts) (module : PackageModule) : Prop where
  featureId : conflicts.featureIds.lookup (lowerCase.lower module.featureId) = none
  publicName : conflicts.publicNames.lookup (lowerCase.lower module.publicName) = none
  androidNamespace : conflicts.namespaces.lookup (lowerCase.lower module.androidNamespace) = none
  cmakeTarget : conflicts.cmakeTargets.lookup (lowerCase.lower module.cmakeTarget) = none

theorem rejectConflict_eq_ok {claimed result : Claimed} {key value code label : String} :
    rejectConflict lowerCase claimed key value code label = .ok result ↔
      claimed.lookup (lowerCase.lower key) = none ∧
        result = (lowerCase.lower key, value) :: claimed := by
  rw [rejectConflict]
  cases claimed.lookup (lowerCase.lower key) with
  | none => simp [eq_comm]
  | some previous => simp

/-- What the maps are once a module has claimed its keys. -/
def claimed (lowerCase : LowerCase) (conflicts : Conflicts) (module : PackageModule) :
    Conflicts where
  featureIds := (lowerCase.lower module.featureId, module.name) :: conflicts.featureIds
  publicNames := (lowerCase.lower module.publicName, module.name) :: conflicts.publicNames
  namespaces := (lowerCase.lower module.androidNamespace, module.name) :: conflicts.namespaces
  cmakeTargets := (lowerCase.lower module.cmakeTarget, module.name) :: conflicts.cmakeTargets

theorem rejectConflicts_eq_ok {conflicts next : Conflicts} {module : PackageModule} :
    rejectConflicts lowerCase conflicts module = .ok next ↔
      Free lowerCase conflicts module ∧ next = claimed lowerCase conflicts module := by
  simp only [rejectConflicts, bind_eq_ok, rejectConflict_eq_ok, pure_eq_ok]
  constructor
  · rintro ⟨_, ⟨hid, rfl⟩, _, ⟨hname, rfl⟩, _, ⟨hnamespace, rfl⟩, _, ⟨htarget, rfl⟩, rfl⟩
    exact ⟨⟨hid, hname, hnamespace, htarget⟩, rfl⟩
  · rintro ⟨hfree, rfl⟩
    exact ⟨_, ⟨hfree.featureId, rfl⟩, _, ⟨hfree.publicName, rfl⟩, _, ⟨hfree.androidNamespace, rfl⟩,
      _, ⟨hfree.cmakeTarget, rfl⟩, rfl⟩

theorem lookup_cons_eq_none {claimed : Claimed} {key other name : String} :
    List.lookup key ((other, name) :: claimed) = none ↔
      other ≠ key ∧ claimed.lookup key = none := by
  rw [List.lookup_cons]
  by_cases hsame : key = other
  · rw [hsame, beq_self_eq_true]
    simp
  · rw [beq_false_of_ne hsame]
    exact ⟨fun hlookup => ⟨Ne.symm hsame, hlookup⟩, fun hboth => hboth.2⟩

theorem free_claimed {conflicts : Conflicts} {module other : PackageModule} :
    Free lowerCase (claimed lowerCase conflicts module) other ↔
      ¬ Clash lowerCase module other ∧ Free lowerCase conflicts other := by
  constructor
  · rintro ⟨hid, hname, hnamespace, htarget⟩
    rw [claimed, lookup_cons_eq_none] at hid hname hnamespace htarget
    refine ⟨?_, hid.2, hname.2, hnamespace.2, htarget.2⟩
    rintro (hsame | hsame | hsame | hsame)
    · exact hid.1 hsame
    · exact hname.1 hsame
    · exact hnamespace.1 hsame
    · exact htarget.1 hsame
  · rintro ⟨hclash, hfree⟩
    simp only [Clash, not_or] at hclash
    exact ⟨lookup_cons_eq_none.mpr ⟨hclash.1, hfree.featureId⟩,
      lookup_cons_eq_none.mpr ⟨hclash.2.1, hfree.publicName⟩,
      lookup_cons_eq_none.mpr ⟨hclash.2.2.1, hfree.androidNamespace⟩,
      lookup_cons_eq_none.mpr ⟨hclash.2.2.2, hfree.cmakeTarget⟩⟩

/-- The loop goes through when no module clashes with an earlier one. -/
theorem foldlM_rejectConflicts {modules : List PackageModule} : ∀ {conflicts : Conflicts},
    (∃ final, modules.foldlM (rejectConflicts lowerCase) conflicts = .ok final) ↔
      modules.Pairwise (fun first next => ¬ Clash lowerCase first next) ∧
        ∀ module ∈ modules, Free lowerCase conflicts module := by
  induction modules with
  | nil =>
      intro conflicts
      exact ⟨fun _ => ⟨List.Pairwise.nil, fun _ hmem => absurd hmem List.not_mem_nil⟩,
        fun _ => ⟨conflicts, rfl⟩⟩
  | cons module modules ih =>
      intro conflicts
      simp only [List.foldlM_cons, bind_eq_ok, rejectConflicts_eq_ok]
      constructor
      · rintro ⟨final, next, ⟨hfree, rfl⟩, hrest⟩
        obtain ⟨hpairwise, hothers⟩ := ih.mp ⟨final, hrest⟩
        refine ⟨List.pairwise_cons.mpr ⟨fun other hother => ?_, hpairwise⟩, fun other hother => ?_⟩
        · exact (free_claimed.mp (hothers other hother)).1
        · cases List.mem_cons.mp hother with
          | inl hsame =>
              rw [hsame]
              exact hfree
          | inr hmem => exact (free_claimed.mp (hothers other hmem)).2
      · rintro ⟨hpairwise, hfree⟩
        obtain ⟨hfirst, hpairwise⟩ := List.pairwise_cons.mp hpairwise
        obtain ⟨final, hrest⟩ := (@ih (claimed lowerCase conflicts module)).mpr
          ⟨hpairwise, fun other hother => free_claimed.mpr
            ⟨hfirst other hother, hfree other (List.mem_cons_of_mem _ hother)⟩⟩
        exact ⟨final, _, ⟨hfree module List.mem_cons_self, rfl⟩, hrest⟩

theorem resolverAccepts_iff (modules : List PackageModule) :
    ResolverAccepts lowerCase modules ↔
      modules.Pairwise fun first next => ¬ Clash lowerCase first next := by
  rw [ResolverAccepts, checkConflicts, foldlM_rejectConflicts]
  apply and_iff_left
  intro module _
  exact ⟨rfl, rfl, rfl, rfl⟩

end Resolver

/-! ### Lower case -/

section Case

variable {lowerCase : LowerCase} {hexdigest : String → String}

theorem lower_eq_self {text : String}
    (htext : ∀ char ∈ text.toList, char.toNat < 128 ∧ char.toLower = char) :
    lowerCase.lower text = text := by
  rw [lowerCase.ascii]
  · have hmap : text.toList.map Char.toLower = text.toList := by
      calc text.toList.map Char.toLower
          = text.toList.map id := List.map_congr_left fun char hchar => (htext char hchar).2
        _ = text.toList := List.map_id _
    rw [hmap, String.ofList_toList]
  · rw [List.all_eq_true]
    intro char hchar
    exact decide_eq_true (htext char hchar).1

theorem lowered_of_mem {chars : List Char}
    (hall : (chars.all fun char => decide (char.toNat < 128) && char.toLower = char) = true) :
    ∀ char ∈ chars, char.toNat < 128 ∧ char.toLower = char := by
  intro char hchar
  have hboth := List.all_eq_true.mp hall char hchar
  rw [Bool.and_eq_true] at hboth
  exact ⟨of_decide_eq_true hboth.1, of_decide_eq_true hboth.2⟩

/-- A feature identity that has a target is the target under another name, both in lower case. -/
theorem featureCmakeTarget_eq_ok {featureId target : String}
    (htarget : featureCmakeTarget featureId = .ok target) :
    ∃ suffix : String, featureId = "supernote:feature:" ++ suffix ∧
      target = "supernote_feature_" ++ suffix ∧
        ∀ char ∈ suffix.toList, char.toNat < 128 ∧ char.toLower = char := by
  simp only [featureCmakeTarget, bind_eq_ok, require_eq_ok, exists_unit, pure_eq_ok] at htarget
  obtain ⟨hstart, ⟨_, hhex⟩, rfl⟩ := htarget
  refine ⟨_, (append_removePrefix hstart).symm, rfl, ?_⟩
  intro char hchar
  have hmem := List.all_eq_true.mp hhex char hchar
  exact lowered_of_mem (by decide) char (List.contains_iff_mem.mp hmem)

theorem lower_append {start suffix : String}
    (hstart : ∀ char ∈ start.toList, char.toNat < 128 ∧ char.toLower = char)
    (hsuffix : ∀ char ∈ suffix.toList, char.toNat < 128 ∧ char.toLower = char) :
    lowerCase.lower (start ++ suffix) = start ++ suffix := by
  apply lower_eq_self
  intro char hchar
  rw [String.toList_append, List.mem_append] at hchar
  exact hchar.elim (hstart char) (hsuffix char)

theorem clash_iff (first next : Released hexdigest) :
    Clash lowerCase first.module next.module ↔
      first.entry.feature.featureId = next.entry.feature.featureId ∨
        SameUpToCase lowerCase first.entry.feature next.entry.feature := by
  obtain ⟨suffix, hid, htarget, hsuffix⟩ := featureCmakeTarget_eq_ok first.distributed.cmakeTarget
  obtain ⟨other, hotherId, hotherTarget, hother⟩ :=
    featureCmakeTarget_eq_ok next.distributed.cmakeTarget
  have hidStart := lowered_of_mem
    (by decide : ("supernote:feature:".toList.all fun char =>
      decide (char.toNat < 128) && char.toLower = char) = true)
  have htargetStart := lowered_of_mem
    (by decide : ("supernote_feature_".toList.all fun char =>
      decide (char.toNat < 128) && char.toLower = char) = true)
  have hids : ∀ left right : String, "supernote:feature:" ++ left = "supernote:feature:" ++ right ↔
      left = right := fun left right => String.append_right_inj _
  have htargets : ∀ left right : String,
      "supernote_feature_" ++ left = "supernote_feature_" ++ right ↔ left = right :=
    fun left right => String.append_right_inj _
  rw [Clash, SameUpToCase, first.distributed.featureId, next.distributed.featureId,
    first.distributed.publicName, next.distributed.publicName, first.distributed.androidNamespace,
    next.distributed.androidNamespace, hid, hotherId, htarget, hotherTarget,
    lower_append hidStart hsuffix, lower_append hidStart hother, lower_append htargetStart hsuffix,
    lower_append htargetStart hother, hids, htargets]
  constructor
  · rintro (hsame | hname | hnamespace | hsame)
    · exact .inl hsame
    · exact .inr (.inl hname)
    · exact .inr (.inr hnamespace)
    · exact .inl hsame
  · rintro (hsame | hname | hnamespace)
    · exact .inl hsame
    · exact .inr (.inl hname)
    · exact .inr (.inr (.inl hnamespace))

theorem Same.symm {first next : FeatureManifest hexdigest} (hsame : Same first next) :
    Same next first := by
  rcases hsame with hid | hname | hnamespace
  · exact .inl hid.symm
  · exact .inr (.inl hname.symm)
  · exact .inr (.inr hnamespace.symm)

theorem Clash.symm {first next : PackageModule} (hclash : Clash lowerCase first next) :
    Clash lowerCase next first := by
  rcases hclash with hid | hname | hnamespace | htarget
  · exact .inl hid.symm
  · exact .inr (.inl hname.symm)
  · exact .inr (.inr (.inl hnamespace.symm))
  · exact .inr (.inr (.inr htarget.symm))

/-- What features have in common their modules have in common. -/
theorem Same.clash {first next : Released hexdigest}
    (hsame : Same first.entry.feature next.entry.feature) :
    Clash lowerCase first.module next.module := by
  rw [clash_iff]
  rcases hsame with hid | hname | hnamespace
  · exact .inl hid
  · exact .inr (.inl (congrArg lowerCase.lower hname))
  · exact .inr (.inr (congrArg lowerCase.lower hnamespace))

end Case

/-! ### Both -/

section Agreement

variable {lowerCase : LowerCase} {hexdigest : String → String} {pluginId generatorVersion : String}
  {released : List (Released hexdigest)}

theorem pair_iff (hplugin : NamesPlugin hexdigest pluginId generatorVersion)
    (first next : Released hexdigest) :
    (RegistryAccepts pluginId generatorVersion [first.entry, next.entry] ↔
        ResolverAccepts lowerCase [first.module, next.module]) ↔
      (SameUpToCase lowerCase first.entry.feature next.entry.feature →
        Same first.entry.feature next.entry.feature) := by
  have hclash := @clash_iff lowerCase hexdigest first next
  rw [registryAccepts_iff hplugin, resolverAccepts_iff, List.pairwise_pair, List.pairwise_pair,
    not_iff_not]
  constructor
  · intro hboth hcase
    exact hboth.mpr (hclash.mpr (.inr hcase))
  · intro hcondition
    refine ⟨Same.clash, ?_⟩
    intro hmodules
    rcases hclash.mp hmodules with hid | hcase
    · exact .inl hid
    · exact hcondition hcase

/-- **Conflicts on both sides.** The registry and the resolver take the same pairs of features for
conflicting, and accept the same sets of features in any order, if and only if no two features have
public names or Android namespaces that are the same but for case, unless they share an identity, a
public name or a namespace as it is. -/
theorem agree_iff (hplugin : NamesPlugin hexdigest pluginId generatorVersion) :
    Agree lowerCase pluginId generatorVersion released ↔
      released.Pairwise fun first next =>
        SameUpToCase lowerCase first.entry.feature next.entry.feature →
          Same first.entry.feature next.entry.feature := by
  constructor
  · intro hagree
    exact hagree.pairs.imp fun {first next} => (pair_iff hplugin first next).mp
  · intro hcondition
    have hpairs :=
      hcondition.imp fun {first next} => (@pair_iff lowerCase _ _ _ hplugin first next).mpr
    refine ⟨hpairs, ?_⟩
    intro order other horder hother
    have hsame : order.Pairwise (fun first next => ¬ Same first.entry.feature next.entry.feature) ↔
        released.Pairwise fun first next => ¬ Same first.entry.feature next.entry.feature :=
      horder.pairwise_iff fun hnot hsame => hnot hsame.symm
    have hclash : other.Pairwise (fun first next => ¬ Clash lowerCase first.module next.module) ↔
        released.Pairwise fun first next => ¬ Clash lowerCase first.module next.module :=
      hother.pairwise_iff fun hnot hclash => hnot hclash.symm
    rw [registryAccepts_iff hplugin, resolverAccepts_iff, List.pairwise_map, List.pairwise_map,
      hsame, hclash]
    constructor
    · intro hdistinct
      apply (hdistinct.and hcondition).imp
      rintro first next ⟨hnot, hcase⟩ hmodules
      rcases clash_iff first next |>.mp hmodules with hid | hfold
      · exact hnot (.inl hid)
      · exact hnot (hcase hfold)
    · intro hdistinct
      exact hdistinct.imp fun hnot hshared => hnot hshared.clash

end Agreement

/-! ### Two features called alike -/

/-- The digests of the texts below. -/
def sampleDigest (text : String) : String :=
  if text = "alpha" then "8ed3f6ad685b959ead7022518e1af76cd816f8e8ec7ccdda1ed4018e8f2223f8"
  else if text = "beta" then "f44e64e75f3948e9f73f8dfa94721c4ce8cbb4f265c4790c702b2d41cfbf2753"
  else "5e689e2b01672bf33996e75d5e372ff60c536ce1599a1458e867cd8f4bef5160"

def asciiLowerCase : LowerCase where
  lower text := String.ofList (text.toList.map Char.toLower)
  ascii _ _ := rfl

def sampleModule (feature : FeatureManifest sampleDigest) (target : String) : PackageModule where
  name := feature.npmName
  version := some (.string "1.0.0")
  featureId := feature.featureId
  publicName := feature.publicName
  androidNamespace := feature.androidNamespace
  protocol := moduleProtocol
  manifest := []
  registration := []
  cmake := []
  cmakeTarget := target
  hasJvmInstaller := false
  jvmSourceDirs := []
  jvmRegistrationSources := []
  payload := []

def alphaFeature : FeatureManifest sampleDigest where
  featureId := "supernote:feature:8ed3f6ad685b959e"
  npmName := "alpha"
  publicName := "Audio"
  androidNamespace := "com.example.alpha"
  valid := by decide

def betaFeature : FeatureManifest sampleDigest where
  featureId := "supernote:feature:f44e64e75f3948e9"
  npmName := "beta"
  publicName := "audio"
  androidNamespace := "com.example.beta"
  valid := by decide

def alphaReleased : Released sampleDigest where
  entry := ⟨alphaFeature, "alpha"⟩
  module := sampleModule alphaFeature "supernote_feature_8ed3f6ad685b959e"
  distributed := ⟨rfl, rfl, rfl, rfl, by decide⟩

def betaReleased : Released sampleDigest where
  entry := ⟨betaFeature, "beta"⟩
  module := sampleModule betaFeature "supernote_feature_f44e64e75f3948e9"
  distributed := ⟨rfl, rfl, rfl, rfl, by decide⟩

theorem namesPlugin_sample : NamesPlugin sampleDigest "plugin" "1.0.0" where
  identified := by decide
  versioned := by decide
  componentName := by decide

theorem agree_iff_sample :
    Agree asciiLowerCase "plugin" "1.0.0" [alphaReleased, betaReleased] ↔
      [alphaReleased, betaReleased].Pairwise fun first next =>
        SameUpToCase asciiLowerCase first.entry.feature next.entry.feature →
          Same first.entry.feature next.entry.feature :=
  agree_iff namesPlugin_sample

/-- The registry accepts public names that the resolver then refuses. -/
theorem audio_refused_beside_Audio :
    ¬ ∀ (lowerCase : LowerCase) (hexdigest : String → String) (pluginId generatorVersion : String),
      NamesPlugin hexdigest pluginId generatorVersion →
        ∀ released : List (Released hexdigest),
          Agree lowerCase pluginId generatorVersion released := by
  intro hall
  have hagree := hall asciiLowerCase sampleDigest "plugin" "1.0.0" namesPlugin_sample
    [alphaReleased, betaReleased]
  have hpairs := hagree.pairs
  rw [List.pairwise_pair] at hpairs
  have hpair := (pair_iff namesPlugin_sample alphaReleased betaReleased).mp hpairs
  have hcase : SameUpToCase asciiLowerCase alphaFeature betaFeature := .inl (by decide)
  rcases hpair hcase with hid | hname | hnamespace
  · exact absurd hid (by decide)
  · exact absurd hname (by decide)
  · exact absurd hnamespace (by decide)

end SupernoteModule.Npm
