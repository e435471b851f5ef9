import SupernoteModule.Proof.Publishing
import Mathlib.Data.List.ReduceOption

/-!
# Executions of a plan

What `compare` has checked of a plan is enough for its execution to keep the promise, in every tree
between two calls and whatever others do to the rest of the project.
-/

namespace SupernoteModule.Generation.GenerationExecution

open SupernoteModule.Filesystem SupernoteModule.Lib SupernoteModule.Lib.Program
open SupernoteModule.Python
open SupernoteModule.Generation.GenerationPlan (OwnedArtifact Plan ancestors mem_ancestors)
open SupernoteModule.Generation.IntegrityManifest (integrityManifestPath)

variable {validators : Validators} {plan : Plan} {start before after : FileTree}

/-! ### Plans that are accepted -/

theorem prepareArtifacts_nodup {artifacts ordered : List OwnedArtifact} {generationId : String}
    {paths : List String}
    (hok : GenerationPlan.prepareArtifacts artifacts generationId = .ok (ordered, paths)) :
    paths.Nodup := by
  simp only [GenerationPlan.prepareArtifacts, bind_eq_ok, require_eq_ok, exists_unit,
    pure_eq_ok, Prod.mk.injEq] at hok
  obtain ⟨hnodup, -, rfl, rfl⟩ := hok
  exact hnodup

variable {sha256 : Bytes → String} {planned : FileTree} {request : GenerationPlan.Request}

theorem publishable_of_compare (hok : GenerationPlan.compare sha256 planned request = .ok plan)
    (hunreserved : ∀ path ∈ targets plan, Unreserved path) : Publishable plan := by
  have hchecked := GenerationPlan.compare_eq_ok hok
  simp only [GenerationPlan.compare, bind_eq_ok, require_eq_ok, exists_unit,
    pure_eq_ok, Prod.exists, checkEach_eq_ok] at hok
  obtain ⟨artifacts, artifactPaths, hartifacts, -, hvalid, dependencyActions, dependencyPaths,
    -, wiringActions, wiringPaths, -, treeRemovals, -, -, changes, -, preconditions, -, -, rfl⟩ :=
    hok
  obtain ⟨-, rfl⟩ := GenerationPlan.prepareArtifacts_eq_ok hartifacts
  constructor
  · exact prepareArtifacts_nodup hartifacts
  · intro path hpath artifact hartifact hoverlap
    apply hchecked.deleteApart path hpath artifact.path _ hoverlap
    exact List.mem_append_left _ (List.mem_map_of_mem hartifact)
  · intro path hpath
    apply GenerationPlan.validateRelative_eq_ok
    exact hvalid path (List.mem_append_left _ (List.mem_append_right _ hpath))
  · exact hunreserved

/-- The hash a plan expects of the entry at a path: that of a baseline, or what was found there. -/
def expectedHash (sha256 : Bytes → String) (planned : FileTree) (request : GenerationPlan.Request)
    (path : String) : Option String :=
  match request.preconditionBaselines.lookup path with
  | some (_, hash) => hash
  | none => planned.hashEntry sha256 (pathParts path)

theorem capturePrecondition_sha256 {relative : String}
    {precondition : GenerationPlan.PlanPrecondition}
    (hok : GenerationPlan.capturePrecondition sha256 planned request.preconditionBaselines
      relative = .ok precondition) :
    precondition.sha256 = expectedHash sha256 planned request precondition.path := by
  cases hlookup : request.preconditionBaselines.lookup relative with
  | none =>
      simp only [GenerationPlan.capturePrecondition, hlookup, bind_eq_ok, exists_unit] at hok
      obtain ⟨-, -, liveKind, -, hok⟩ := hok
      split at hok
      · obtain ⟨read, -, hread⟩ := bind_eq_ok.mp hok
        obtain rfl := Except.ok.inj hread
        rw [expectedHash, hlookup]
      · obtain ⟨read, -, hread⟩ := bind_eq_ok.mp hok
        obtain rfl := Except.ok.inj hread
        rw [expectedHash, hlookup]
  | some baseline =>
      simp only [GenerationPlan.capturePrecondition, hlookup, bind_eq_ok, exists_unit] at hok
      obtain ⟨-, -, liveKind, -, hok⟩ := hok
      split at hok
      · obtain ⟨read, -, hread⟩ := bind_eq_ok.mp hok
        obtain rfl := Except.ok.inj hread
        rw [expectedHash, hlookup]
      · obtain ⟨read, -, hread⟩ := bind_eq_ok.mp hok
        obtain rfl := Except.ok.inj hread
        rw [expectedHash, hlookup]

theorem sha256_of_compare (hok : GenerationPlan.compare sha256 planned request = .ok plan)
    {precondition : GenerationPlan.PlanPrecondition} (hmem : precondition ∈ plan.preconditions) :
    precondition.sha256 = expectedHash sha256 planned request precondition.path := by
  simp only [GenerationPlan.compare, bind_eq_ok, require_eq_ok, exists_unit,
    pure_eq_ok, Prod.exists, checkEach_eq_ok] at hok
  obtain ⟨artifacts, artifactPaths, -, -, -, dependencyActions, dependencyPaths, -, wiringActions,
    wiringPaths, -, treeRemovals, -, -, changes, -, preconditions, hcapture, -, rfl⟩ := hok
  obtain ⟨relative, -, index, hcaptured⟩ := exists_item_of_mem (enumerate_eq_ok hcapture) hmem
  exact capturePrecondition_sha256 hcaptured

theorem validatePathPrecondition_eq_ok {path : String} {tree : FileTree}
    (hok : validatePathPrecondition sha256 plan path tree = .ok ()) :
    ∃ precondition ∈ plan.preconditions, precondition.path = path ∧
      tree.hashEntry sha256 (pathParts path) = precondition.sha256 := by
  rw [validatePathPrecondition] at hok
  cases hfound : plan.preconditions.find? (·.path = path) with
  | none => rw [hfound] at hok; cases hok
  | some precondition =>
      rw [hfound] at hok
      have hpath := List.find?_some hfound
      rw [decide_eq_true_eq] at hpath
      exact ⟨precondition, List.mem_of_find?_eq_some hfound, hpath,
        (require_eq_ok.mp hok).2⟩

/-! ### An execution that nobody disturbs -/

/-- A project with an entry point of the last generation, and a file that is stale. -/
def staleProject : FileTree :=
  .directory 0o755 [("app", .directory 0o755
    [("index.js", .file 0o644 (utf8 "first")), ("old.js", .file 0o644 (utf8 "stale"))])]

def indexArtifact : OwnedArtifact where
  path := "app/index.js"
  owner := "package:app"
  kind := "package-index"
  content := utf8 "second"
  generationId := "generation"
  committedSource := false
  expectedMode := some 0o644
  canonicalPath := by decide
  identity := by decide
  validMode := by simp

theorem manifestArtifact_canonicalPath :
    GenerationPlan.OwnedArtifact.CanonicalPath integrityManifestPath := by
  decide

theorem manifestArtifact_identity :
    "project" ≠ "" ∧ "integrity-manifest" ≠ "" ∧ "generation" ≠ "" := by
  decide

theorem manifestArtifact_validMode (mode : Nat) (hmode : mode ∈ (none : Option Nat)) :
    mode ≤ 0o7777 := by
  cases hmode

def manifestArtifact : OwnedArtifact where
  path := integrityManifestPath
  owner := "project"
  kind := "integrity-manifest"
  content := utf8 "manifest"
  generationId := "generation"
  committedSource := false
  expectedMode := none
  canonicalPath := manifestArtifact_canonicalPath
  identity := manifestArtifact_identity
  validMode := manifestArtifact_validMode

def renewingRequest : GenerationPlan.Request where
  operation := "generate"
  requestedTargets := []
  affectedTargets := []
  generationId := "generation"
  artifacts := [manifestArtifact, indexArtifact]
  deletes := ["app/old.js"]

/-- Stands for a hash without collisions. -/
def readableHash (content : Bytes) : String :=
  String.ofList (content.map fun byte => Char.ofNat byte.toNat)

def quietValidators : Validators :=
  serviceValidators readableHash (fun _ _ => .ok ()) fun _ _ => .ok ()

def quietHost : Host := ⟨"0", 0o644, 0o755⟩

theorem performs_quietly (tree : FileTree) (op : DiskOp) (answer : op.Answer) (after : FileTree)
    (hact : act quietHost tree op = .ok (answer, after)) :
    (diskSetting (Foreign plan)).performs tree op (.ok answer) after :=
  Performs.answers quietHost hact

theorem refuses_quietly (tree : FileTree) (op : DiskOp) (error : DiskError)
    (hact : act quietHost tree op = .error error) :
    (diskSetting (Foreign plan)).performs tree op (.error error) tree :=
  Performs.refuses quietHost hact

theorem reaches_quietly (program : Disk Unit) (tree : FileTree) :
    Reaches (diskSetting (Foreign plan)) program tree
      (ofExcept (program.run (act quietHost) tree).1) (program.run (act quietHost) tree).2 :=
  reaches_run performs_quietly refuses_quietly program tree

theorem unreserved_renewing
    (hok : GenerationPlan.compare readableHash staleProject renewingRequest = .ok plan) :
    ∀ path ∈ targets plan, Unreserved path := by
  have hchecked := GenerationPlan.compare_eq_ok hok
  intro path hpath
  have hmem : path = integrityManifestPath ∨ path = "app/index.js" ∨ path = "app/old.js" := by
    rcases List.mem_append.mp hpath with hartifact | hdelete
    · obtain ⟨artifact, hmem, rfl⟩ := List.mem_map.mp hartifact
      rcases List.mem_cons.mp (hchecked.artifacts.mem_iff.mp hmem) with rfl | hindex
      · exact .inl rfl
      · rw [List.mem_singleton.mp hindex]
        exact .inr (.inl rfl)
    · rw [hchecked.deletes, mem_sortedSet] at hdelete
      exact .inr (.inr (List.mem_singleton.mp hdelete))
  rcases hmem with rfl | rfl | rfl
  · refine ⟨?_, .inl rfl, ?_⟩
    · exact marker_not_overlap_manifest
    · change ¬ IsStaging manifestPath
      rw [manifestPath_eq]
      exact not_isStaging_of_head (by decide)
  · refine ⟨?_, .inr ?_, ?_⟩
    · rw [markerPath_eq]
      decide
    · rw [manifestPath_eq]
      decide
    · rw [show pathParts "app/index.js" = ["app", "index.js"] by decide]
      exact not_isStaging_of_head (by decide)
  · refine ⟨?_, .inr ?_, ?_⟩
    · rw [markerPath_eq]
      decide
    · rw [manifestPath_eq]
      decide
    · rw [show pathParts "app/old.js" = ["app", "old.js"] by decide]
      exact not_isStaging_of_head (by decide)

/-- The plan of the project is executed, and the request can be planned again. -/
theorem exists_renewingPlan :
    ∃ plan, GenerationPlan.compare readableHash staleProject renewingRequest = .ok plan ∧
      ((execute "/project" quietValidators plan true).run (act quietHost) staleProject).1 = .ok () ∧
      ∃ next, GenerationPlan.compare readableHash
        ((execute "/project" quietValidators plan true).run (act quietHost) staleProject).2
          renewingRequest = .ok next := by
  have hruns : (match GenerationPlan.compare readableHash staleProject renewingRequest with
      | .ok plan =>
          let ran := (execute "/project" quietValidators plan true).run (act quietHost) staleProject
          ran.1.isOk && (GenerationPlan.compare readableHash ran.2 renewingRequest).isOk
      | .error _ => false) = true := by
    decide +kernel
  cases hcompare : GenerationPlan.compare readableHash staleProject renewingRequest with
  | error error => rw [hcompare] at hruns; cases hruns
  | ok plan =>
      rw [hcompare] at hruns
      obtain ⟨hdone, hnext⟩ := Bool.and_eq_true_iff.mp hruns
      exact ⟨plan, rfl, (exists_of_isOk hdone).choose_spec, exists_of_isOk hnext⟩

/-! ### What every execution keeps to -/

/-- **However an execution ends, and wherever it is stopped, a project that is not finished has the
marker, and the manifest changed last.** -/
theorem execute_consistent
    (hcompare : GenerationPlan.compare sha256 planned request = .ok plan)
    (hunreserved : ∀ path ∈ targets plan, Unreserved path)
    (validators : Validators) (root : String) (finalize : Bool)
    {rest : Disk Unit} {tree : FileTree}
    (hreaches : Reaches (diskSetting (Foreign plan)) (execute root validators plan finalize) start
      rest tree) : Consistent plan start tree := by
  have hplan := publishable_of_compare hcompare hunreserved
  have hmeets : Meets _ (untouched validators plan start) (execute root validators plan finalize) :=
    meets_execute hplan finalize
  exact hmeets.always (fun _ _ => rfl) hreaches

theorem execute_consistent_staleProject :
    ∃ plan tree, Reaches (diskSetting (Foreign plan)) (execute "/project" quietValidators plan true)
      staleProject (.done ()) tree ∧ Consistent plan staleProject tree := by
  obtain ⟨plan, hcompare, hruns, -⟩ := exists_renewingPlan
  have hreaches := @reaches_quietly plan (execute "/project" quietValidators plan true) staleProject
  rw [hruns] at hreaches
  exact ⟨plan, _, hreaches, execute_consistent hcompare (unreserved_renewing hcompare)
    quietValidators "/project" true hreaches⟩

/-- **An execution touches nothing but the plan's own places, and a file there only if it is as it
was when the plan was made.** The manifest is not checked again: it is replaced when everything else
is in its final state. -/
theorem execute_changes
    (hcompare : GenerationPlan.compare sha256 planned request = .ok plan)
    (hunreserved : ∀ path ∈ targets plan, Unreserved path)
    (preconditions completionPreconditions : Plan → FileTree → Except PlanError Unit)
    (root : String) (finalize : Bool) {op : DiskOp}
    {next : Except DiskError op.Answer → Disk Unit} {answer : Except DiskError op.Answer}
    (hreaches : Reaches (diskSetting (Foreign plan))
      (execute root (serviceValidators sha256 preconditions completionPreconditions) plan finalize)
      start (.act op next) before)
    (hperforms : Performs before op answer after) :
    (∀ place, after.look place ≠ before.look place →
      IsOwnStaging start place ∨ place ∈ publishedPlaces plan ∨
        (before.find place = none ∧ after.entryKind place = some .directory ∧
          ∃ target ∈ publishedPlaces plan, place <+: target)) ∧
      ∀ place mode content, before.find place = some (.file mode content) →
        after.find place ≠ before.find place →
        IsOwnStaging start place ∨ place = markerPath ∨
          (place = manifestPath ∧ OthersPublished plan before) ∨
          ∃ path ∈ targets plan, pathParts path = place ∧
            before.hashEntry sha256 place = expectedHash sha256 planned request path := by
  have hplan := publishable_of_compare hcompare hunreserved
  have hmeets : Meets _ (untouched (serviceValidators sha256 preconditions completionPreconditions)
      plan start) (execute root _ plan finalize) := meets_execute hplan finalize
  have hpermitted : Permitted _ plan start before after :=
    hmeets.change (fun _ _ => rfl) hreaches hperforms
  refine ⟨hpermitted.elsewhere, ?_⟩
  intro place mode content hfile hchanged
  rcases hpermitted.files place mode content hfile hchanged with
    hstaging | hmarker | hmanifest | ⟨path, hpath, rfl, hcheck⟩
  · exact .inl hstaging
  · exact .inr (.inl hmarker)
  · exact .inr (.inr (.inl hmanifest))
  · obtain ⟨precondition, hmem, rfl, hhash⟩ := validatePathPrecondition_eq_ok hcheck
    refine .inr (.inr (.inr ⟨precondition.path, hpath, rfl, ?_⟩))
    rw [hhash, sha256_of_compare hcompare hmem]

theorem find_index : staleProject.find ["app", "index.js"] = some (.file 0o644 (utf8 "first")) :=
  rfl

theorem pathParts_index : pathParts indexArtifact.path = ["app", "index.js"] := by
  decide

/-- The entry point is replaced by a call that found it as it was planned. -/
theorem execute_changes_staleProject :
    ∃ plan op next answer before after,
      Reaches (diskSetting (Foreign plan)) (execute "/project" quietValidators plan true)
        staleProject (.act op next) before ∧
      Performs before op answer after ∧ before.find ["app", "index.js"] =
        some (.file 0o644 (utf8 "first")) ∧
      after.find ["app", "index.js"] ≠ before.find ["app", "index.js"] ∧
      (∀ place, after.look place ≠ before.look place →
        IsOwnStaging staleProject place ∨ place ∈ publishedPlaces plan ∨
          (before.find place = none ∧ after.entryKind place = some .directory ∧
            ∃ target ∈ publishedPlaces plan, place <+: target)) ∧
      ∃ path ∈ targets plan, pathParts path = ["app", "index.js"] ∧
        before.hashEntry readableHash ["app", "index.js"] =
          expectedHash readableHash staleProject renewingRequest path := by
  obtain ⟨plan, hcompare, hruns, -⟩ := exists_renewingPlan
  have hunreserved := unreserved_renewing hcompare
  have hdone := @reaches_quietly plan (execute "/project" quietValidators plan true) staleProject
  rw [hruns] at hdone
  have hmem : indexArtifact ∈ plan.artifacts :=
    (GenerationPlan.compare_eq_ok hcompare).artifacts.mem_iff.mpr (by simp [renewingRequest])
  have hplan := publishable_of_compare hcompare hunreserved
  have hmeets : Meets _ (untouched quietValidators plan staleProject)
      (execute "/project" quietValidators plan true) := meets_execute hplan true
  have hfinished : Finished plan _ := (hmeets.returns (fun _ _ => rfl) hdone).2
  have hpublished := hfinished.complete.manifest indexArtifact hmem
  rw [pathParts_index] at hpublished
  obtain ⟨mode, hsecond, -⟩ := hpublished
  obtain ⟨op, next, answer, before, after, hreaches, hperforms, hbefore, hafter⟩ :=
    exists_change_of_run (fun tree : FileTree => tree.find ["app", "index.js"])
      performs_quietly refuses_quietly (execute "/project" quietValidators plan true) staleProject
      (by
        rw [hsecond, find_index]
        intro hsame
        have hcontent := (FileTree.file.inj (Option.some.inj hsame)).2
        revert hcontent
        decide)
  have hfound : before.find ["app", "index.js"] = _ := hbefore.trans find_index
  have hchanges := execute_changes hcompare hunreserved (fun _ _ => .ok ()) (fun _ _ => .ok ())
    "/project" true hreaches hperforms
  refine ⟨plan, op, next, answer, before, after, hreaches, hperforms, hfound, hafter, hchanges.1,
    ?_⟩
  rcases hchanges.2 _ _ _ hfound hafter with hstaging | hmarker | ⟨hmanifest, -⟩ | hchecked
  · refine absurd hstaging.isStaging (not_isStaging_of_head ?_)
    decide
  · rw [markerPath_eq] at hmarker
    exact absurd hmarker (by decide)
  · rw [manifestPath_eq] at hmanifest
    exact absurd hmanifest (by decide)
  · exact hchecked

/-- **An execution that returns has published the whole plan, whatever an earlier one has left.** -/
theorem execute_returns
    (hcompare : GenerationPlan.compare sha256 planned request = .ok plan)
    (hunreserved : ∀ path ∈ targets plan, Unreserved path)
    (validators : Validators) (root : String) (finalize : Bool) {tree : FileTree}
    (hreaches : Reaches (diskSetting (Foreign plan)) (execute root validators plan finalize) start
      (.done ()) tree) : if finalize then Finished plan tree else Pending plan start tree := by
  have hplan := publishable_of_compare hcompare hunreserved
  have hmeets : Meets _ (untouched validators plan start) (execute root validators plan finalize) :=
    meets_execute hplan finalize
  exact (hmeets.returns (fun _ _ => rfl) hreaches).2

theorem execute_returns_staleProject :
    ∃ plan tree, Reaches (diskSetting (Foreign plan)) (execute "/project" quietValidators plan true)
      staleProject (.done ()) tree ∧ Finished plan tree := by
  obtain ⟨plan, hcompare, hruns, -⟩ := exists_renewingPlan
  have hreaches := @reaches_quietly plan (execute "/project" quietValidators plan true) staleProject
  rw [hruns] at hreaches
  exact ⟨plan, _, hreaches, execute_returns hcompare (unreserved_renewing hcompare)
    quietValidators "/project" true hreaches⟩

/-! ### Planning again -/

theorem openAncestors_of_directories {tree : FileTree} {relative : String}
    {directories : List (List String)}
    (hdirectories : ∀ current ∈ directories, tree.entryKind current = some .directory) :
    GenerationPlan.openAncestors tree relative directories = .ok true := by
  induction directories with
  | nil => rfl
  | cons current rest ih =>
      rw [GenerationPlan.openAncestors, hdirectories current List.mem_cons_self]
      exact ih fun other hother => hdirectories other (List.mem_cons_of_mem _ hother)

/-- A file at a path is found there by a contained read, if that read finds the path well formed. -/
theorem openAncestors_of_file {tree : FileTree} {relative : String} {parts : List String}
    {entry : FileTree} (hentry : tree.find parts = some entry) :
    GenerationPlan.openAncestors tree relative (ancestors parts) = .ok true := by
  apply openAncestors_of_directories
  intro current hcurrent
  obtain ⟨⟨below, hbelow⟩, -, hproper⟩ := mem_ancestors.mp hcurrent
  have hne : below ≠ [] := by
    rintro rfl
    exact hproper (by rw [← hbelow, List.append_nil])
  rw [← hbelow] at hentry
  exact entryKind_of_find_append hentry hne

theorem containedEntryKind_of_file {tree : FileTree} {parts : List String} {mode : Nat}
    {content : Bytes} (hfile : tree.find parts = some (.file mode content))
    {kind : Option EntryKind} (hok : GenerationPlan.containedEntryKind tree parts = .ok kind) :
    kind = some .file := by
  simp only [GenerationPlan.containedEntryKind, bind_eq_ok, exists_unit] at hok
  obtain ⟨-, present, hpresent, hkind⟩ := hok
  rw [openAncestors_of_file hfile] at hpresent
  obtain rfl := Except.ok.inj hpresent
  obtain rfl := Except.ok.inj hkind
  rw [if_pos rfl, FileTree.entryKind, hfile]
  rfl

theorem readContainedRegularBytes_of_file {tree : FileTree} {parts : List String} {mode : Nat}
    {content : Bytes} (hfile : tree.find parts = some (.file mode content)) {read : Bytes × Nat}
    (hok : GenerationPlan.readContainedRegularBytes tree parts = .ok read) :
    read = (content, mode) := by
  have hregular : tree.readRegular parts = some (content, mode) := by
    rw [FileTree.readRegular, hfile]
  simp only [GenerationPlan.readContainedRegularBytes, bind_eq_ok, exists_unit] at hok
  obtain ⟨-, present, hpresent, hread⟩ := hok
  rw [openAncestors_of_file hfile] at hpresent
  obtain rfl := Except.ok.inj hpresent
  rw [if_pos rfl, hregular] at hread
  exact (Except.ok.inj hread).symm

/-- An artifact that is there needs no change. -/
theorem compareOwnedArtifact_of_isArtifact {tree : FileTree} {artifact : OwnedArtifact}
    (hartifact : IsArtifact artifact (tree.find (pathParts artifact.path)))
    {change : Option GenerationPlan.ArtifactChange}
    (hok : GenerationPlan.compareOwnedArtifact sha256 tree artifact = .ok change) :
    change = none := by
  obtain ⟨mode, hfile, hmode⟩ := hartifact
  simp only [GenerationPlan.compareOwnedArtifact, bind_eq_ok, exists_unit] at hok
  obtain ⟨-, kind, hkind, hok⟩ := hok
  obtain rfl := containedEntryKind_of_file hfile hkind
  rw [if_pos rfl] at hok
  obtain ⟨read, hread, hok⟩ := bind_eq_ok.mp hok
  cases hcontained : GenerationPlan.readContainedRegularBytes tree (pathParts artifact.path) with
  | error error => rw [hcontained] at hread; cases hread
  | ok found =>
      rw [hcontained] at hread
      obtain rfl := Except.ok.inj hread
      obtain rfl := readContainedRegularBytes_of_file hfile hcontained
      cases hexpected : artifact.expectedMode with
      | none =>
          rw [hexpected] at hok
          have hnone : (pure none : Except PlanError _) = .ok change := by simpa using hok
          exact (Except.ok.inj hnone).symm
      | some expected =>
          rw [hexpected, hmode expected hexpected] at hok
          have hnone : (pure none : Except PlanError _) = .ok change := by simpa using hok
          exact (Except.ok.inj hnone).symm

/-- A stale path where nothing is needs none either. -/
theorem compareStaleArtifact_of_none {tree : FileTree} {relative : String}
    (hnone : tree.find (pathParts relative) = none) :
    GenerationPlan.compareStaleArtifact sha256 tree relative = .ok none := by
  rw [GenerationPlan.compareStaleArtifact, hnone]
  rfl

theorem reduceOption_eq_nil {Item : Type} {items : List (Option Item)}
    (hnone : ∀ item ∈ items, item = none) : items.reduceOption = [] := by
  rw [List.reduceOption_eq_nil_iff]
  exact ⟨items.length, List.eq_replicate_of_mem hnone⟩

theorem exists_settledPlan :
    ∃ plan tree next, GenerationPlan.compare readableHash staleProject renewingRequest = .ok plan ∧
      Reaches (diskSetting (Foreign plan)) (execute "/project" quietValidators plan true)
        staleProject (.done ()) tree ∧
      GenerationPlan.compare readableHash tree renewingRequest = .ok next := by
  obtain ⟨plan, hcompare, hdone, next, hnext⟩ := exists_renewingPlan
  have hreaches := @reaches_quietly plan (execute "/project" quietValidators plan true) staleProject
  rw [hdone] at hreaches
  exact ⟨plan, _, next, hcompare, hreaches, hnext⟩

/-- **Planned again after an execution that returned, a project needs no change of its generated
output.** -/
theorem compare_after_execute
    (hcompare : GenerationPlan.compare sha256 planned request = .ok plan)
    (hunreserved : ∀ path ∈ targets plan, Unreserved path) (validators : Validators)
    (root : String) {tree : FileTree}
    (hreaches : Reaches (diskSetting (Foreign plan)) (execute root validators plan true) start
      (.done ()) tree) {again : GenerationPlan.Request} {next : Plan}
    (hagain : GenerationPlan.compare sha256 tree again = .ok next)
    (hartifacts : ∀ artifact ∈ again.artifacts, artifact ∈ request.artifacts)
    (hdeletes : ∀ path ∈ again.deletes, path ∈ request.deletes ∧ path ≠ integrityManifestPath) :
    next.changes = [] := by
  have hplan := publishable_of_compare hcompare hunreserved
  have hmeets : Meets _ (untouched validators plan start) (execute root validators plan true) :=
    meets_execute hplan true
  have hfinished : Finished plan tree := (hmeets.returns (fun _ _ => rfl) hreaches).2
  have hchecked := GenerationPlan.compare_eq_ok hcompare
  have hnext := GenerationPlan.compare_eq_ok hagain
  have hthere : ∀ artifact ∈ next.artifacts,
      IsArtifact artifact (tree.find (pathParts artifact.path)) := by
    intro artifact hartifact
    apply hfinished.complete.manifest
    rw [hchecked.artifacts.mem_iff]
    exact hartifacts artifact (hnext.artifacts.mem_iff.mp hartifact)
  have hgone : ∀ path ∈ next.deletes, tree.find (pathParts path) = none := by
    intro path hpath
    rw [hnext.deletes, mem_sortedSet] at hpath
    obtain ⟨hmem, hne⟩ := hdeletes path hpath
    apply hfinished.complete.others.deletes path _ hne
    rwa [hchecked.deletes, mem_sortedSet]
  simp only [GenerationPlan.compare, bind_eq_ok, require_eq_ok, exists_unit,
    pure_eq_ok, Prod.exists, checkEach_eq_ok] at hagain
  obtain ⟨artifacts, artifactPaths, -, -, -, dependencyActions, dependencyPaths, -, wiringActions,
    wiringPaths, -, treeRemovals, -, -, changes, hchanges, preconditions, -, -, rfl⟩ := hagain
  simp only [GenerationPlan.compareArtifactChanges, bind_eq_ok] at hchanges
  obtain ⟨updated, hupdated, removed, hremoved, hresult⟩ := hchanges
  obtain rfl := Except.ok.inj hresult
  have hupdatedNone : ∀ change ∈ updated, change = none := by
    intro change hchange
    obtain ⟨artifact, hartifact, index, hok⟩ :=
      exists_item_of_mem (enumerate_eq_ok hupdated) hchange
    exact compareOwnedArtifact_of_isArtifact (hthere artifact hartifact) hok
  have hremovedNone : ∀ change ∈ removed, change = none := by
    intro change hchange
    obtain ⟨path, hpath, index, hok⟩ := exists_item_of_mem (enumerate_eq_ok hremoved) hchange
    rw [compareStaleArtifact_of_none (hgone path hpath)] at hok
    exact (Except.ok.inj hok).symm
  change updated.reduceOption ++ removed.reduceOption = []
  rw [reduceOption_eq_nil hupdatedNone, reduceOption_eq_nil hremovedNone, List.append_nil]

theorem compare_after_execute_staleProject :
    ∃ plan tree next, Reaches (diskSetting (Foreign plan))
        (execute "/project" quietValidators plan true) staleProject (.done ()) tree ∧
      GenerationPlan.compare readableHash tree renewingRequest = .ok next ∧ next.changes = [] := by
  obtain ⟨plan, tree, next, hcompare, hreaches, hnext⟩ := exists_settledPlan
  refine ⟨plan, tree, next, hreaches, hnext, ?_⟩
  apply compare_after_execute hcompare (unreserved_renewing hcompare) quietValidators "/project"
    hreaches hnext
  · exact fun artifact hartifact => hartifact
  · intro path hpath
    exact ⟨hpath, by rw [List.mem_singleton.mp hpath]; decide⟩

end SupernoteModule.Generation.GenerationExecution
