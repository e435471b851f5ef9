import SupernoteModule.Generation.GenerationPlan
import SupernoteModule.Lib.Territory
import Mathlib.Data.List.Pairwise

/-!
# What an accepted plan may touch

Every helper of `compare` keeps its own paths away from the paths it is given. Five pairs of kinds
are given to none of them: artifacts against preserved paths, and the artifacts, the deletes, the
wiring actions and the tree removals among themselves.
-/

namespace SupernoteModule.Generation.GenerationPlan

open SupernoteModule.Lib SupernoteModule.Python

variable {sha256 : Bytes → String} {root : FileTree} {request : Request} {plan : Plan}

/-! ### Overlap of paths -/

/-- Neither path contains the other. -/
def Apart (left right : String) : Prop :=
  ¬ Overlap (pathParts left) (pathParts right)

theorem Apart.symm {left right : String} (hapart : Apart left right) : Apart right left :=
  fun hoverlap => hapart hoverlap.symm

theorem pathsOverlap_iff {left right : String} :
    pathsOverlap left right ↔ Overlap (pathParts left) (pathParts right) := by
  simp [pathsOverlap, overlap_iff_take]

/-- What a check against protected paths establishes. -/
theorem not_any_pathsOverlap_iff {path : String} {paths : List String} :
    ¬ paths.any (pathsOverlap path) ↔ ∀ other ∈ paths, Apart path other := by
  simp only [List.any_eq_true, not_exists, not_and, pathsOverlap_iff, Apart]

/-! ### Destinations -/

theorem mem_ancestors {parts current : List String} :
    current ∈ ancestors parts ↔ current <+: parts ∧ current ≠ [] ∧ current ≠ parts := by
  simp only [ancestors, List.mem_map, List.mem_range'_1]
  constructor
  · rintro ⟨count, ⟨hpos, hlt⟩, rfl⟩
    refine ⟨List.take_prefix count parts, ?_, ?_⟩
    · rw [ne_eq, List.take_eq_nil_iff, not_or]
      refine ⟨by omega, ?_⟩
      rintro rfl
      simp at hlt
      omega
    · rw [ne_eq, List.take_eq_self_iff]
      omega
  · rintro ⟨hleads, hnonempty, hproper⟩
    refine ⟨current.length, ⟨List.length_pos_iff.mpr hnonempty, ?_⟩,
      (List.prefix_iff_eq_take.mp hleads).symm⟩
    have hle := hleads.length_le
    have hne : current.length ≠ parts.length := fun hlength =>
      hproper (hleads.eq_of_length hlength)
    omega

theorem validateManagedDestination_eq_ok {relative : String} {value : Unit} :
    validateManagedDestination root relative = .ok value ↔
      ∀ current ∈ ancestors (pathParts relative),
        root.entryKind current = none ∨ root.entryKind current = some .directory := by
  rw [validateManagedDestination, checkEach_eq_ok]
  refine forall₂_congr fun current _ => ?_
  cases root.entryKind current with
  | none => simp
  | some kind => cases kind <;> simp

/-! ### Each kind of path -/

theorem prepareArtifacts_eq_ok {artifacts : List OwnedArtifact} {generationId : String}
    {ordered : List OwnedArtifact} {paths : List String}
    (hok : prepareArtifacts artifacts generationId = .ok (ordered, paths)) :
    ordered.Perm artifacts ∧ paths = ordered.map (·.path) := by
  simp only [prepareArtifacts, bind_eq_ok, require_eq_ok, exists_unit, pure_eq_ok,
    Prod.mk.injEq] at hok
  obtain ⟨-, -, rfl, rfl⟩ := hok
  exact ⟨List.perm_insertionSort _ _, rfl⟩

theorem prepareDependencyActions_eq_ok {actions : List DependencyAction}
    {protectedPaths : List String} {ordered : List DependencyAction} {paths : List String}
    (hok : prepareDependencyActions root actions protectedPaths = .ok (ordered, paths)) :
    paths = ordered.map (·.path) ∧ paths.Pairwise Apart ∧
      ∀ path ∈ paths, ∀ other ∈ protectedPaths, Apart path other := by
  simp only [prepareDependencyActions, bind_eq_ok, require_eq_ok, exists_unit, pure_eq_ok,
    checkEach_eq_ok, not_any_pathsOverlap_iff, Prod.mk.injEq] at hok
  obtain ⟨hnodup, hchecked, rfl, rfl⟩ := hok
  refine ⟨rfl, ?_, ?_⟩
  · -- All paths are `package.json`, and no two are equal, so there is at most one.
    refine List.Pairwise.imp_of_mem ?_ hnodup
    intro left right hleft hright hne
    obtain ⟨leftAction, hl, rfl⟩ := List.mem_map.mp hleft
    obtain ⟨rightAction, hr, rfl⟩ := List.mem_map.mp hright
    exact absurd ((hchecked _ hl).2.1.trans (hchecked _ hr).2.1.symm) hne
  · intro path hpath
    obtain ⟨action, haction, rfl⟩ := List.mem_map.mp hpath
    exact (hchecked action haction).2.2.2.1

/-- A file that the tree has at one path leaves no managed path below it. -/
theorem eq_of_managed_of_overlap {left right : String}
    (hleft : root.entryKind (pathParts left) = some .file)
    (hright : root.entryKind (pathParts right) = some .file)
    (hleftNonempty : pathParts left ≠ []) (hrightNonempty : pathParts right ≠ [])
    (hleftManaged : validateManagedDestination root left = .ok ())
    (hrightManaged : validateManagedDestination root right = .ok ())
    (hoverlap : Overlap (pathParts left) (pathParts right)) : pathParts left = pathParts right := by
  by_contra hne
  rcases hoverlap with hleads | hleads
  · have hancestor := mem_ancestors.mpr ⟨hleads, hleftNonempty, hne⟩
    have hkind := validateManagedDestination_eq_ok.mp hrightManaged _ hancestor
    simp [hleft] at hkind
  · have hancestor := mem_ancestors.mpr ⟨hleads, hrightNonempty, Ne.symm hne⟩
    have hkind := validateManagedDestination_eq_ok.mp hleftManaged _ hancestor
    simp [hright] at hkind

theorem validateRelative_eq_ok {value : String} {result : Unit}
    (hok : validateRelative value = .ok result) : pathParts value ≠ [] := by
  simp only [validateRelative, require_eq_ok, not_or] at hok
  exact hok.2.2.2.1

theorem prepareWiringActions_eq_ok {actions : List WiringAction}
    {protectedPaths : List String} {ordered : List WiringAction} {paths : List String}
    (hok : prepareWiringActions root actions protectedPaths = .ok (ordered, paths)) :
    ordered.Perm actions ∧ paths = ordered.map (·.path) ∧
      (∀ path ∈ paths, ∀ other ∈ protectedPaths, Apart path other) ∧
      ∀ left ∈ paths, ∀ right ∈ paths,
        (Apart left right ↔ pathParts left ≠ pathParts right) := by
  simp only [prepareWiringActions, bind_eq_ok, require_eq_ok, exists_unit, pure_eq_ok,
    checkEach_eq_ok, not_any_pathsOverlap_iff, Prod.mk.injEq] at hok
  obtain ⟨-, hchecked, rfl, rfl⟩ := hok
  refine ⟨List.perm_insertionSort _ _, rfl, ?_, ?_⟩
  · intro path hpath
    obtain ⟨action, haction, rfl⟩ := List.mem_map.mp hpath
    exact (hchecked action haction).2.2.2.2.2
  · intro left hleft right hright
    obtain ⟨leftAction, hl, rfl⟩ := List.mem_map.mp hleft
    obtain ⟨rightAction, hr, rfl⟩ := List.mem_map.mp hright
    obtain ⟨hleftRelative, hleftManaged, hleftFile, -⟩ := hchecked leftAction hl
    obtain ⟨hrightRelative, hrightManaged, hrightFile, -⟩ := hchecked rightAction hr
    constructor
    · intro hapart heq
      exact hapart (Or.inl (heq ▸ List.prefix_rfl))
    · intro hne hoverlap
      exact hne (eq_of_managed_of_overlap hleftFile hrightFile
        (validateRelative_eq_ok hleftRelative) (validateRelative_eq_ok hrightRelative)
        hleftManaged hrightManaged hoverlap)

theorem prepareTreeRemoval_eq_ok {authorized protectedPaths : List String}
    {removal : String × String} {action : TreeRemovalAction}
    (hok : prepareTreeRemoval sha256 root authorized protectedPaths removal = .ok action) :
    removal.1 = action.path ∧ ∀ other ∈ protectedPaths, Apart action.path other := by
  simp only [prepareTreeRemoval, bind_eq_ok, require_eq_ok, exists_unit,
    not_any_pathsOverlap_iff] at hok
  obtain ⟨-, expected, -, -, -, -, -, hprotected, hdigest⟩ := hok
  split at hdigest
  · simp only [pure_eq_ok] at hdigest
    subst hdigest
    exact ⟨rfl, hprotected⟩
  · simp at hdigest

theorem prepareTreeRemovals_eq_ok {removals : List (String × String)}
    {authorized protectedPaths : List String} {actions : List TreeRemovalAction}
    (hok : prepareTreeRemovals sha256 root removals authorized protectedPaths = .ok actions) :
    (actions.map (·.path)).Perm (removals.map Prod.fst) ∧
      ∀ path ∈ actions.map (·.path), ∀ other ∈ protectedPaths, Apart path other := by
  simp only [prepareTreeRemovals, bind_eq_ok, exists_unit] at hok
  have hrelated := enumerate_eq_ok hok.2
  constructor
  · have hpaths : (removals.insertionSort removalLe).map Prod.fst = actions.map (·.path) := by
      rw [← List.forall₂_eq_eq_eq, List.forall₂_map_left_iff, List.forall₂_map_right_iff]
      refine hrelated.imp ?_
      rintro removal action ⟨index, haction⟩
      exact (prepareTreeRemoval_eq_ok haction).1
    rw [← hpaths]
    exact (List.perm_insertionSort _ _).map _
  · intro path hpath
    obtain ⟨action, haction, rfl⟩ := List.mem_map.mp hpath
    obtain ⟨removal, -, _, hremoval⟩ := exists_item_of_mem hrelated haction
    exact (prepareTreeRemoval_eq_ok hremoval).2

theorem validateStaleDeletes_eq_ok {deletes artifactPaths preservedPaths : List String}
    (hok : validateStaleDeletes root deletes artifactPaths preservedPaths = .ok ()) :
    ∀ path ∈ deletes, ∀ other ∈ artifactPaths ++ preservedPaths, Apart path other := by
  simp only [validateStaleDeletes, checkEach_eq_ok, bind_eq_ok, require_eq_ok, exists_unit,
    not_any_pathsOverlap_iff] at hok
  intro path hpath
  exact (hok path hpath).1

/-! ### The contract -/

/-- The paths the plan writes or removes. -/
def Plan.mutations (plan : Plan) : List String :=
  plan.artifacts.map (·.path) ++ plan.deletes ++ plan.dependencyActions.map (·.path) ++
    plan.wiringActions.map (·.path) ++ plan.treeRemovals.map (·.path)

/-- No mutation overlaps a preserved path, and no two mutations overlap each other. -/
structure Exclusive (plan : Plan) : Prop where
  preserved : ∀ path ∈ plan.mutations, ∀ kept ∈ plan.preservedUserPaths, Apart path kept
  mutations : plan.mutations.Pairwise Apart

/-- The pairs of paths that no helper compares do not overlap. -/
structure UncheckedApart (request : Request) : Prop where
  preserved : ∀ artifact ∈ request.artifacts, ∀ kept ∈ request.preservedUserPaths,
    Apart artifact.path kept
  artifacts : request.artifacts.Pairwise fun left right => Apart left.path right.path
  deletes : ∀ left ∈ request.deletes, ∀ right ∈ request.deletes, left ≠ right → Apart left right
  wiring : request.wiringActions.Pairwise fun left right =>
    pathParts left.path ≠ pathParts right.path
  removals : request.treeRemovals.Pairwise fun left right => Apart left.1 right.1

/-- What `compare` has checked of the paths of an accepted plan. -/
structure Checked (request : Request) (plan : Plan) : Prop where
  artifacts : plan.artifacts.Perm request.artifacts
  deletes : plan.deletes = sortedSet request.deletes
  preservedPaths : plan.preservedUserPaths = sortedSet request.preservedUserPaths
  wiring : plan.wiringActions.Perm request.wiringActions
  removals : (plan.treeRemovals.map (·.path)).Perm (request.treeRemovals.map Prod.fst)
  dependencyPairwise : (plan.dependencyActions.map (·.path)).Pairwise Apart
  wiringPairwise : ∀ left ∈ plan.wiringActions.map (·.path),
    ∀ right ∈ plan.wiringActions.map (·.path), (Apart left right ↔ pathParts left ≠ pathParts right)
  deleteApart : ∀ path ∈ plan.deletes,
    ∀ other ∈ plan.artifacts.map (·.path) ++ plan.preservedUserPaths, Apart path other
  dependencyApart : ∀ path ∈ plan.dependencyActions.map (·.path),
    ∀ other ∈ plan.artifacts.map (·.path) ++ plan.deletes ++ plan.preservedUserPaths,
      Apart path other
  wiringApart : ∀ path ∈ plan.wiringActions.map (·.path),
    ∀ other ∈ plan.artifacts.map (·.path) ++ plan.deletes ++ plan.preservedUserPaths ++
      plan.dependencyActions.map (·.path), Apart path other
  removalApart : ∀ path ∈ plan.treeRemovals.map (·.path),
    ∀ other ∈ plan.artifacts.map (·.path) ++ plan.deletes ++ plan.preservedUserPaths ++
      plan.dependencyActions.map (·.path) ++ plan.wiringActions.map (·.path), Apart path other

theorem compare_eq_ok (hok : compare sha256 root request = .ok plan) : Checked request plan := by
  simp only [compare, bind_eq_ok, require_eq_ok, exists_unit, pure_eq_ok, Prod.exists] at hok
  obtain ⟨artifacts, artifactPaths, hartifacts, -, -, dependencyActions, dependencyPaths,
    hdependency, wiringActions, wiringPaths, hwiring, treeRemovals, hremovals, hdeletes, changes,
    -, preconditions, -, -, rfl⟩ := hok
  obtain ⟨hartifactsPerm, rfl⟩ := prepareArtifacts_eq_ok hartifacts
  obtain ⟨rfl, hdependencyPairwise, hdependencyApart⟩ := prepareDependencyActions_eq_ok hdependency
  obtain ⟨hwiringPerm, rfl, hwiringApart, hwiringPairwise⟩ := prepareWiringActions_eq_ok hwiring
  obtain ⟨hremovalsPerm, hremovalApart⟩ := prepareTreeRemovals_eq_ok hremovals
  exact {
    artifacts := hartifactsPerm
    deletes := rfl
    preservedPaths := rfl
    wiring := hwiringPerm
    removals := hremovalsPerm
    dependencyPairwise := hdependencyPairwise
    wiringPairwise := hwiringPairwise
    deleteApart := validateStaleDeletes_eq_ok hdeletes
    dependencyApart := hdependencyApart
    wiringApart := hwiringApart
    removalApart := hremovalApart }

section Checked

variable (hchecked : Checked request plan)
include hchecked

theorem Checked.wiring_iff : (plan.wiringActions.map (·.path)).Pairwise Apart ↔
    request.wiringActions.Pairwise fun left right => pathParts left.path ≠
      pathParts right.path := by
  rw [← hchecked.wiring.pairwise_iff fun hne => Ne.symm hne, List.pairwise_map]
  constructor
  · intro hpairwise
    refine hpairwise.imp_of_mem fun hleft hright hapart => ?_
    exact (hchecked.wiringPairwise _ (List.mem_map_of_mem hleft) _
      (List.mem_map_of_mem hright)).mp hapart
  · intro hpairwise
    refine hpairwise.imp_of_mem fun hleft hright hne => ?_
    exact (hchecked.wiringPairwise _ (List.mem_map_of_mem hleft) _
      (List.mem_map_of_mem hright)).mpr hne

/-- Mutations of different kinds are always compared. -/
theorem Checked.mutations_iff : plan.mutations.Pairwise Apart ↔
    (plan.artifacts.map (·.path)).Pairwise Apart ∧ plan.deletes.Pairwise Apart ∧
      (plan.wiringActions.map (·.path)).Pairwise Apart ∧
      (plan.treeRemovals.map (·.path)).Pairwise Apart := by
  simp only [Plan.mutations, List.pairwise_append, List.mem_append]
  constructor
  · rintro ⟨⟨⟨⟨hartifacts, hdeletes, -⟩, -, -⟩, hwiring, -⟩, hremovals, -⟩
    exact ⟨hartifacts, hdeletes, hwiring, hremovals⟩
  · rintro ⟨hartifacts, hdeletes, hwiring, hremovals⟩
    refine ⟨⟨⟨⟨hartifacts, hdeletes, ?_⟩, hchecked.dependencyPairwise, ?_⟩, hwiring, ?_⟩,
      hremovals, ?_⟩
    · intro artifact hartifact path hpath
      exact (hchecked.deleteApart path hpath artifact (by simp [hartifact])).symm
    · rintro other hother path hpath
      refine (hchecked.dependencyApart path hpath other ?_).symm
      simp only [List.mem_append]
      tauto
    · rintro other hother path hpath
      refine (hchecked.wiringApart path hpath other ?_).symm
      simp only [List.mem_append]
      tauto
    · rintro other hother path hpath
      refine (hchecked.removalApart path hpath other ?_).symm
      simp only [List.mem_append]
      tauto

/-- Only artifacts can overlap a preserved path. -/
theorem Checked.preserved_iff :
    (∀ path ∈ plan.mutations, ∀ kept ∈ plan.preservedUserPaths, Apart path kept) ↔
      ∀ artifact ∈ plan.artifacts, ∀ kept ∈ plan.preservedUserPaths, Apart artifact.path kept := by
  constructor
  · intro hall artifact hartifact
    have hpath : artifact.path ∈ plan.artifacts.map (·.path) := List.mem_map_of_mem hartifact
    exact hall artifact.path (by simp only [Plan.mutations, List.mem_append]; tauto)
  · intro hartifacts path hpath kept hkept
    simp only [Plan.mutations, List.mem_append] at hpath
    rcases hpath with (((hpath | hpath) | hpath) | hpath) | hpath
    · obtain ⟨artifact, hartifact, rfl⟩ := List.mem_map.mp hpath
      exact hartifacts artifact hartifact kept hkept
    · exact hchecked.deleteApart path hpath kept (by simp only [List.mem_append]; tauto)
    · exact hchecked.dependencyApart path hpath kept (by simp only [List.mem_append]; tauto)
    · exact hchecked.wiringApart path hpath kept (by simp only [List.mem_append]; tauto)
    · exact hchecked.removalApart path hpath kept (by simp only [List.mem_append]; tauto)

end Checked

/-- **An accepted plan keeps its mutations off preserved paths and off each other exactly when the
pairs that `compare` never looks at do not overlap.** -/
theorem exclusive_iff_uncheckedApart (sha256 : Bytes → String) (root : FileTree)
    (request : Request) (plan : Plan) (haccepted : compare sha256 root request = .ok plan) :
    Exclusive plan ↔ UncheckedApart request := by
  have hchecked := compare_eq_ok haccepted
  have hpreserved : (∀ path ∈ plan.mutations, ∀ kept ∈ plan.preservedUserPaths, Apart path kept) ↔
      ∀ artifact ∈ request.artifacts, ∀ kept ∈ request.preservedUserPaths,
        Apart artifact.path kept := by
    rw [hchecked.preserved_iff, hchecked.preservedPaths]
    simp only [hchecked.artifacts.mem_iff, mem_sortedSet]
  have hartifacts : (plan.artifacts.map (·.path)).Pairwise Apart ↔
      request.artifacts.Pairwise fun left right => Apart left.path right.path := by
    rw [List.pairwise_map, hchecked.artifacts.pairwise_iff Apart.symm]
  have hdeletes : plan.deletes.Pairwise Apart ↔
      ∀ left ∈ request.deletes, ∀ right ∈ request.deletes, left ≠ right → Apart left right := by
    rw [hchecked.deletes]
    exact pairwise_sortedSet Apart.symm
  have hremovals : (plan.treeRemovals.map (·.path)).Pairwise Apart ↔
      request.treeRemovals.Pairwise fun left right => Apart left.1 right.1 := by
    rw [hchecked.removals.pairwise_iff Apart.symm, List.pairwise_map]
  have hmutations := hchecked.mutations_iff
  rw [hartifacts, hdeletes, hchecked.wiring_iff, hremovals] at hmutations
  constructor
  · rintro ⟨hkept, hpairwise⟩
    obtain ⟨hartifacts, hdeletes, hwiring, hremovals⟩ := hmutations.mp hpairwise
    exact ⟨hpreserved.mp hkept, hartifacts, hdeletes, hwiring, hremovals⟩
  · rintro ⟨hkept, hartifacts, hdeletes, hwiring, hremovals⟩
    exact ⟨hpreserved.mpr hkept, hmutations.mpr ⟨hartifacts, hdeletes, hwiring, hremovals⟩⟩

/-! ### An accepted overlap -/

/-- A directory with one entry at the end of a chain of directories. -/
def chain (leaf : FileTree) : List String → FileTree
  | [] => leaf
  | part :: rest => .directory 0o755 [(part, chain leaf rest)]

def userSource : String := "local_modules/alpha/android/src/main/cpp/user.cpp"

/-- A project whose only file is an authored source. -/
def authoredProject : FileTree :=
  chain (.file 0o644 (utf8 "int authored();")) (pathParts userSource)

def generatedArtifact : OwnedArtifact where
  path := userSource
  owner := "feature:alpha"
  kind := "package-native-binding"
  content := []
  generationId := "generation"
  committedSource := true
  expectedMode := none
  canonicalPath := by decide
  identity := by decide
  validMode := by simp

/-- A request to write an artifact over the authored source it preserves. -/
def overwritingRequest : Request where
  operation := "generate"
  requestedTargets := []
  affectedTargets := []
  generationId := "generation"
  artifacts := [generatedArtifact]
  preservedUserPaths := [userSource]

theorem compare_accepts_overwrite :
    ¬ ∀ sha256 root request plan, compare sha256 root request = .ok plan → Exclusive plan := by
  intro hall
  obtain ⟨plan, hplan⟩ := exists_of_isOk
    (by decide +kernel : (compare (fun _ => "") authoredProject overwritingRequest).isOk = true)
  have hchecked := compare_eq_ok hplan
  have hartifact : generatedArtifact ∈ plan.artifacts :=
    hchecked.artifacts.mem_iff.mpr List.mem_cons_self
  have hkept : userSource ∈ plan.preservedUserPaths := by
    rw [hchecked.preservedPaths, mem_sortedSet]
    exact List.mem_cons_self
  have hapart := hchecked.preserved_iff.mp (hall _ _ _ plan hplan).preserved
  exact hapart generatedArtifact hartifact userSource hkept (Overlap.refl _)

/-- A request whose artifact, delete and preserved path are apart. -/
def separateRequest : Request where
  operation := "generate"
  requestedTargets := []
  affectedTargets := []
  generationId := "generation"
  artifacts := [generatedArtifact]
  deletes := ["local_modules/beta/.supernote-generated/index.js"]
  preservedUserPaths := ["local_modules/beta/android/src/main/cpp"]

theorem exclusive_iff_separateRequest :
    ∃ plan, compare (fun _ => "") authoredProject separateRequest = .ok plan ∧
      (Exclusive plan ↔ UncheckedApart separateRequest) := by
  obtain ⟨plan, hplan⟩ := exists_of_isOk
    (by decide +kernel : (compare (fun _ => "") authoredProject separateRequest).isOk = true)
  exact ⟨plan, hplan, exclusive_iff_uncheckedApart _ _ _ plan hplan⟩

end SupernoteModule.Generation.GenerationPlan
