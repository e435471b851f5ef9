import SupernoteModule.Proof.PublicationNotes

/-!
# Staging

Everything is staged before anything is published, and nothing but the staging directory changes
until the marker is moved into place.
-/

namespace SupernoteModule.Generation.GenerationExecution

open SupernoteModule.Filesystem SupernoteModule.Lib SupernoteModule.Lib.Program
open SupernoteModule.Python
open SupernoteModule.Generation.GenerationPlan (OwnedArtifact Plan ancestors mem_ancestors)
open SupernoteModule.Generation.IntegrityManifest (integrityManifestPath)

variable {validators : Validators} {plan : Plan} {start before after : FileTree}
  {staging root : String} {notes : Set Note} {path place : List String} {host : Host}

abbrev kept (validators : Validators) (plan : Plan) (start : FileTree) :
    Assertion (executionPromise validators plan start) :=
  .kept _

/-- What holds while the artifacts are staged, with some of them done. -/
abbrev whileStaging (validators : Validators) (plan : Plan) (start : FileTree)
    (hstaging : OwnStaging start staging) (done : List OwnedArtifact) :
    Assertion (executionPromise validators plan start) :=
  known (sound_stagingNotes hstaging done)

theorem promise_refl (tree : FileTree) :
    (executionPromise validators plan start).change tree tree :=
  Permitted.refl tree

/-! ### Staging -/

theorem isOwnStaging_ancestor (hstaging : OwnStaging start staging)
    {rest : List String} (hpath : path ∈ ancestors (staging :: rest)) :
    IsOwnStaging start path := by
  obtain ⟨hleads, hne, -⟩ := mem_ancestors.mp hpath
  obtain ⟨first, below, rfl⟩ := List.exists_cons_of_ne_nil hne
  obtain ⟨rfl, -⟩ := List.cons_prefix_cons.mp hleads
  exact isOwnStaging_cons hstaging below

/-- A note of the staging phase, or of a file in the staging directory. -/
def Note.isStagingNote (plan : Plan) (note : Note) : Prop :=
  (∃ place ∈ publishedPlaces plan, note = .unchanged place) ∨
    (∃ artifact, note = .staged artifact) ∨ note = .stagedMarker ∨
      ∃ artifact, note = .written artifact

theorem knows_of_staging_makeDirectory (hplan : Publishable plan)
    (hnotes : ∀ note ∈ notes, note.isStagingNote plan) (hstaging : IsStaging path)
    (hact : act host before (.makeDirectory path) = .ok ((), after))
    (hknows : Knows validators plan start staging notes before) :
    Knows validators plan start staging notes after := by
  have hpath : path ≠ [] := by
    obtain ⟨name, rest, rfl, -⟩ := hstaging
    exact List.cons_ne_nil _ _
  apply knows_of_makeDirectory hpath hact hknows
  intro note hnote hleads
  rcases hnotes note hnote with ⟨place, hplace, rfl⟩ | ⟨artifact, rfl⟩ | rfl | ⟨artifact, rfl⟩
  · have habove := hstaging.of_above hleads (hplan.place_ne_nil hplace)
    exact absurd habove (hplan.not_isStaging hplace)
  · rfl
  · rfl
  · rfl

theorem meets_staging_makeParents (hplan : Publishable plan)
    (hnotes : ∀ note ∈ notes, note.isStagingNote plan)
    (hsound : Sound validators plan start staging notes)
    (hstaging : OwnStaging start staging) (rest : List String) :
    Meets (fun _ => known hsound) (known hsound) (Disk.makeParents (staging :: rest)) := by
  apply meets_makeParents promise_refl
  intro current hcurrent host before after _ hknows hact
  have hstaged := isOwnStaging_ancestor hstaging hcurrent
  obtain ⟨-, hne, -⟩ := mem_ancestors.mp hcurrent
  refine ⟨permitted_of_changedAt hstaged (changedAt_makeDirectory hne hact).1, ?_⟩
  exact knows_of_staging_makeDirectory hplan hnotes hstaged.isStaging hact hknows

/-- Where nothing outside the staging directory changes, a project that was not touched stays so. -/
theorem consistent_of_unchanged (hplan : Publishable plan) (hstaging : IsStaging path)
    (hunchanged : ∀ place ∈ publishedPlaces plan, before.find place = start.find place)
    (hfind : ∀ place, ¬ Overlap path place → after.find place = before.find place) :
    Consistent plan start after := by
  have hsame : ∀ place ∈ publishedPlaces plan, after.find place = start.find place := by
    intro place hplace
    rw [hfind place (hstaging.not_overlap (hplan.not_isStaging hplace) (hplan.place_ne_nil hplace)),
      hunchanged place hplace]
  constructor
  · left
    intro path hpath
    apply hsame
    exact List.mem_cons_of_mem _ (List.mem_cons_of_mem _ (List.mem_map_of_mem hpath))
  · exact .inl (hsame manifestPath mem_publishedPlaces_manifest)

/-- A file in the staging directory is written or changed beside the files that are staged. -/
theorem knows_of_staging_exchanged (hplan : Publishable plan)
    (hnotes : ∀ note ∈ notes, note.isStagingNote plan)
    (hstaging : IsStaging path) (hexchanged : Exchanged path before after) {note : Note}
    (hnote : (note.fact validators plan start staging).holds
      (after.find (note.fact validators plan start staging).place))
    (hother : ∀ other ∈ notes, (other.fact validators plan start staging).place ≠ path)
    (hknows : Knows validators plan start staging notes before) :
    Knows validators plan start staging (insert note notes) after := by
  apply knows_of_exchanged hexchanged hknows
  intro other hmem
  rcases Set.mem_insert_iff.mp hmem with rfl | hold
  · exact .inr hnote
  · left
    refine ⟨hold, ?_⟩
    intro hoverlap
    refine ⟨hother other hold, ?_⟩
    rcases hnotes other hold with ⟨place, hplace, rfl⟩ | ⟨artifact, rfl⟩ | rfl | ⟨artifact, rfl⟩
    · exact absurd hoverlap (hstaging.not_overlap (hplan.not_isStaging hplace)
        (hplan.place_ne_nil hplace))
    · exact Note.solid rfl
    · exact Note.solid rfl
    · exact Note.solid rfl

/-- Writing a file of the staging directory. -/
theorem meets_staging_writeBytes (hplan : Publishable plan) {done : List OwnedArtifact}
    (hstaging : OwnStaging start staging) (rest : List String) {content : Bytes}
    {note : Note}
    (hsound : Sound validators plan start staging (insert note (stagingNotes plan done)))
    (hplace : (note.fact validators plan start staging).place = staging :: rest)
    (hnote : ∀ mode, (note.fact validators plan start staging).holds (some (.file mode content)))
    (hother : ∀ artifact ∈ done, pathParts artifact.path ≠ rest) :
    Meets (outcome (fun _ => known hsound) fun _ => kept validators plan start)
      (whileStaging validators plan start hstaging done)
      (Disk.writeBytes (staging :: rest) content) := by
  have hown := isOwnStaging_cons hstaging rest
  have hstaged := hown.isStaging
  apply meets_writeBytes _ _ promise_refl
  · intro host before after hknows hact
    obtain ⟨hexchanged, mode, hfile⟩ := exchanged_writeBytes (List.cons_ne_nil _ _) hact
    refine ⟨permitted_of_changedAt hown hexchanged.changed, ?_⟩
    apply knows_of_staging_exchanged hplan _ hstaged hexchanged _ _ hknows
    · rintro other (⟨place, hmem, rfl⟩ | ⟨artifact, hmem, rfl⟩)
      · exact .inl ⟨place, hmem, rfl⟩
      · exact .inr (.inl ⟨artifact, rfl⟩)
    · rw [hplace, hfile]
      exact hnote mode
    · rintro other (⟨place, hmem, rfl⟩ | ⟨artifact, hmem, rfl⟩) hsame
      · have hplaceStaged : IsStaging place := by
          rw [show place = staging :: rest from hsame]
          exact hstaged
        exact hplan.not_isStaging hmem hplaceStaged
      · exact hother artifact hmem (List.cons.inj hsame).2
  · intro before after hknows hbreaks
    obtain ⟨hlook, hfind⟩ := hbreaks
    refine ⟨permitted_of_staging hown hlook, ?_⟩
    apply consistent_of_unchanged hplan hstaged _ hfind
    exact fun place hmem => hknows (.unchanged place) (.inl ⟨place, hmem, rfl⟩)

theorem sound_written (hstaging : OwnStaging start staging)
    (done : List OwnedArtifact) (artifact : OwnedArtifact) :
    Sound validators plan start staging (insert (.written artifact) (stagingNotes plan done)) :=
  (sound_stagingNotes hstaging done).insert (.inl (isStaging_cons hstaging _))

/-- What is staged stays so beside another artifact. -/
theorem knows_of_staged (hplan : Publishable plan) {done : List OwnedArtifact}
    {artifact : OwnedArtifact} (hartifact : artifact ∈ plan.artifacts)
    (hdone : ∀ other ∈ done, other ∈ plan.artifacts ∧ other ≠ artifact)
    (hstaging : OwnStaging start staging)
    (hexchanged : Exchanged (staging :: pathParts artifact.path) before after)
    (hknows : Knows validators plan start staging
      (insert (.written artifact) (stagingNotes plan done)) before)
    (hstaged : IsArtifact artifact (after.find (staging :: pathParts artifact.path))) :
    Knows validators plan start staging (stagingNotes plan (done ++ [artifact])) after := by
  apply knows_of_exchanged hexchanged hknows
  rintro note (⟨place, hplace, rfl⟩ | ⟨other, hother, rfl⟩)
  · left
    refine ⟨Set.mem_insert_of_mem _ (.inl ⟨place, hplace, rfl⟩), ?_⟩
    intro hoverlap
    have hapart := (isStaging_cons hstaging (pathParts artifact.path)).not_overlap
      (hplan.not_isStaging hplace) (hplan.place_ne_nil hplace)
    exact absurd hoverlap hapart
  · rcases List.mem_append.mp hother with hold | hnew
    · left
      refine ⟨Set.mem_insert_of_mem _ (.inr ⟨other, hold, rfl⟩), ?_⟩
      intro _
      refine ⟨?_, Note.solid rfl⟩
      intro hsame
      obtain ⟨hmem, hne⟩ := hdone other hold
      exact hne (hplan.eq_of_parts hmem hartifact (List.cons.inj hsame).2)
    · right
      rw [List.mem_singleton.mp hnew]
      exact hstaged

theorem meets_stageArtifact (hplan : Publishable plan)
    (hstaging : OwnStaging start staging) {done : List OwnedArtifact}
    {artifact : OwnedArtifact} (hartifact : artifact ∈ plan.artifacts)
    (hdone : ∀ other ∈ done, other ∈ plan.artifacts ∧ other ≠ artifact) :
    Meets (outcome (fun _ => whileStaging validators plan start hstaging (done ++ [artifact]))
        fun _ => kept validators plan start)
      (whileStaging validators plan start hstaging done) (stageArtifact staging artifact) := by
  have hparents : Meets (fun _ => whileStaging validators plan start hstaging done)
      (whileStaging validators plan start hstaging done)
      (Disk.makeParents (staging :: pathParts artifact.path)) := by
    apply meets_staging_makeParents hplan _ _ hstaging
    rintro note (⟨place, hplace, rfl⟩ | ⟨other, hother, rfl⟩)
    · exact .inl ⟨place, hplace, rfl⟩
    · exact .inr (.inl ⟨other, rfl⟩)
  have hwrite : Meets (outcome (fun _ => known (sound_written hstaging done artifact))
        fun _ => kept validators plan start)
      (whileStaging validators plan start hstaging done)
      (Disk.writeBytes (staging :: pathParts artifact.path) artifact.content) := by
    apply meets_staging_writeBytes hplan hstaging (pathParts artifact.path)
      (sound_written hstaging done artifact) rfl
    · exact fun mode => ⟨mode, rfl⟩
    · intro other hother hsame
      obtain ⟨hmem, hne⟩ := hdone other hother
      exact hne (hplan.eq_of_parts hmem hartifact hsame)
  -- The mode is set where the artifact asks for one.
  have hmode : Meets
      (outcome (fun _ => whileStaging validators plan start hstaging (done ++ [artifact]))
        fun _ => kept validators plan start)
      (known (sound_written hstaging done artifact))
      (setExpectedMode (staging :: pathParts artifact.path) artifact.expectedMode) := by
    cases hexpected : artifact.expectedMode with
    | some mode =>
      apply meets_atomic (.changeMode (staging :: pathParts artifact.path) mode) promise_refl rfl
        fun _ hsame => by cases hsame
      intro host before after _ hknows hact
      obtain ⟨hexchanged, old, content, hfile, hchanged⟩ :=
        exchanged_changeMode (List.cons_ne_nil _ _) hact
      refine ⟨permitted_of_changedAt (isOwnStaging_cons hstaging _) hexchanged.changed, ?_⟩
      apply knows_of_staged hplan hartifact hdone hstaging hexchanged hknows
      obtain ⟨written, hwritten⟩ := hknows (.written artifact) (Set.mem_insert _ _)
      have hbefore : before.find (staging :: pathParts artifact.path) =
        some (.file written artifact.content) := hwritten
      rw [hbefore] at hfile
      obtain ⟨-, hcontent⟩ := FileTree.file.inj (Option.some.inj hfile)
      refine ⟨mode, hcontent ▸ hchanged, ?_⟩
      intro expected hmem
      rw [hexpected, Option.mem_some_iff] at hmem
      exact hmem
    | none =>
      apply Meets.pure
      intro tree hknows
      rintro note (⟨place, hplace, rfl⟩ | ⟨other, hother, rfl⟩)
      · exact hknows _ (Set.mem_insert_of_mem _ (.inl ⟨place, hplace, rfl⟩))
      · rcases List.mem_append.mp hother with hold | hnew
        · exact hknows _ (Set.mem_insert_of_mem _ (.inr ⟨other, hold, rfl⟩))
        · obtain ⟨written, hwritten⟩ := hknows (.written artifact) (Set.mem_insert _ _)
          rw [List.mem_singleton.mp hnew]
          refine ⟨written, hwritten, ?_⟩
          intro expected hmem
          rw [hexpected] at hmem
          cases hmem
  unfold stageArtifact
  apply Meets.bind hparents _ fun _ => Assertion.le_kept _
  intro _
  apply Meets.andThen hwrite
  intro _
  apply Meets.andThen hmode
  intro _
  apply Meets.bind
    (meets_readOnly (.readBytes (staging :: pathParts artifact.path)) promise_refl rfl) _
    fun _ => Assertion.le_kept _
  intro content
  split
  · exact Meets.raised (Assertion.le_kept _)
  · exact Meets.pure (Assertion.le_refl _)

theorem meets_stagePlan (hplan : Publishable plan)
    (hstaging : OwnStaging start staging) :
    Meets (outcome (fun _ => whileStaging validators plan start hstaging plan.artifacts)
        fun _ => kept validators plan start)
      (whileStaging validators plan start hstaging []) (stagePlan plan staging) := by
  apply Meets.forEach fun done => whileStaging validators plan start hstaging done
  intro done artifact rest hsplit
  apply meets_stageArtifact hplan hstaging
  · rw [hsplit]
    exact List.mem_append_right _ List.mem_cons_self
  · intro other hother
    have hmem : other ∈ plan.artifacts := hsplit ▸ List.mem_append_left _ hother
    refine ⟨hmem, ?_⟩
    rintro rfl
    have hnodup := hplan.distinct.of_map
    rw [hsplit] at hnodup
    exact (List.nodup_append.mp hnodup).2.2 other hother other List.mem_cons_self rfl

/-! ### Moving a file into place -/

theorem not_overlap_staging (hplan : Publishable plan)
    (hstaging : OwnStaging start staging) {rest : List String}
    (hplace : place ∈ publishedPlaces plan) : ¬ Overlap (staging :: rest) place :=
  (isStaging_cons hstaging rest).not_overlap (hplan.not_isStaging hplace)
    (hplan.place_ne_nil hplace)

/-- A missing directory above a destination says nothing against notes that are not above it. -/
theorem knows_of_grow {destination : List String}
    (hclear : ∀ note ∈ notes, note.isFile ∨
      (note.fact validators plan start staging).place = destination ∨
        ¬ Overlap destination (note.fact validators plan start staging).place)
    (hpath : path ∈ ancestors destination)
    (hact : act host before (.makeDirectory path) = .ok ((), after))
    (hknows : Knows validators plan start staging notes before) :
    Knows validators plan start staging notes after := by
  obtain ⟨hleads, hne, hproper⟩ := mem_ancestors.mp hpath
  apply knows_of_makeDirectory hne hact hknows
  intro note hnote habove
  rcases hclear note hnote with hfile | hsame | hapart
  · exact hfile
  · rw [hsame] at habove
    exact absurd (hleads.eq_of_length (Nat.le_antisymm hleads.length_le habove.length_le)) hproper
  · exact absurd (.inr (habove.trans hleads)) hapart

theorem meets_moveIntoPlace (source moved : Note) (rest destination : List String)
    {next : Set Note} (hstaging : OwnStaging start staging)
    (hdestination : destination ∈ publishedPlaces plan) (hdestinationNe : destination ≠ [])
    (hsound : Sound validators plan start staging notes)
    (hnext : Sound validators plan start staging next)
    (hgrow : ∀ note ∈ notes, note.isFile ∨
      (note.fact validators plan start staging).place = destination ∨
        ¬ Overlap destination (note.fact validators plan start staging).place)
    (hsource : source ∈ notes)
    (hsourcePlace : (source.fact validators plan start staging).place = staging :: rest)
    (hmovedPlace : (moved.fact validators plan start staging).place = destination)
    (hmoved : ∀ entry, (source.fact validators plan start staging).holds entry →
      (moved.fact validators plan start staging).holds entry)
    (hkept : ∀ note ∈ next, note = moved ∨ (note ∈ notes ∧
      (note.fact validators plan start staging).ClearOf (staging :: rest) ∧
      (note.fact validators plan start staging).ClearOf destination))
    (hchecked : ∀ tree, Knows validators plan start staging notes tree →
      destination = markerPath ∨ (destination = manifestPath ∧ OthersPublished plan tree) ∨
        ∃ target ∈ targets plan, pathParts target = destination ∧
          validators.pathPrecondition plan target tree = .ok ()) :
    Meets (outcome (fun _ => known hnext) fun _ => kept validators plan start) (known hsound)
      (Disk.replaceGeneratedRegularNoFollow root (staging :: rest) destination) := by
  apply meets_replaceGenerated promise_refl
  · intro current hcurrent host before after _ hknows hact
    exact ⟨permitted_of_makeDirectory hdestination hcurrent hact,
      knows_of_grow hgrow hcurrent hact hknows⟩
  · intro host before after _ hknows hact
    obtain ⟨middle, entry, hentry, hgone, hput, hfound⟩ :=
      exchanged_rename (List.cons_ne_nil _ _) hdestinationNe hact
    constructor
    · apply permitted_of_exchange hdestination _ (hchecked before hknows)
      intro place hplace hne
      rw [hput.changed.elsewhere place hne, hgone.changed.elsewhere place]
      rintro rfl
      exact hplace (isOwnStaging_cons hstaging rest)
    · intro note hnote
      rcases hkept note hnote with rfl | ⟨hold, hclearSource, hclearDestination⟩
      · rw [hmovedPlace, hfound]
        have hholds := hknows source hsource
        rw [hsourcePlace, hentry] at hholds
        exact hmoved _ hholds
      · have hholds := hknows note hold
        have hfirst := hgone.keeps hclearSource hholds
        have hsecond := hput.keeps hclearDestination (hfirst ▸ hholds)
        rwa [hsecond, hfirst]

/-! ### The marker -/

theorem overlap_marker_of_mem (hplan : Publishable plan) (hplace : place ∈ publishedPlaces plan) :
    place = markerPath ∨ ¬ Overlap markerPath place := by
  rcases List.mem_cons.mp hplace with rfl | hplace
  · exact .inl rfl
  rcases List.mem_cons.mp hplace with rfl | hplace
  · exact .inr marker_not_overlap_manifest
  obtain ⟨path, hpath, rfl⟩ := List.mem_map.mp hplace
  exact .inr (hplan.unreserved path hpath).marker

/-- What holds while the output is published, with some of the deletes and artifacts done. -/
abbrev whilePublishing (validators : Validators) (plan : Plan) (start : FileTree)
    (hstaging : OwnStaging start staging) (deleted : List String)
    (done : List OwnedArtifact) : Assertion (executionPromise validators plan start) :=
  known (sound_publishingNotes hstaging deleted done)

theorem meets_publishIncompleteMarker (hplan : Publishable plan)
    (hstaging : OwnStaging start staging) :
    Meets (outcome
        (fun _ => whilePublishing validators plan start hstaging [] [])
        fun _ => kept validators plan start)
      (whileStaging validators plan start hstaging plan.artifacts)
      (publishIncompleteMarker root plan staging) := by
  have hsound : Sound validators plan start staging
      (insert .stagedMarker (stagingNotes plan plan.artifacts)) :=
    (sound_stagingNotes hstaging plan.artifacts).insert (.inl (isStaging_cons hstaging _))
  have hparents : Meets (fun _ => whileStaging validators plan start hstaging plan.artifacts)
      (whileStaging validators plan start hstaging plan.artifacts)
      (Disk.makeParents (staging :: markerPath)) := by
    apply meets_staging_makeParents hplan _ _ hstaging
    rintro note (⟨place, hplace, rfl⟩ | ⟨other, hother, rfl⟩)
    · exact .inl ⟨place, hplace, rfl⟩
    · exact .inr (.inl ⟨other, rfl⟩)
  have hmarkerApart : ∀ artifact ∈ plan.artifacts, pathParts artifact.path ≠ markerPath := by
    intro artifact hartifact hsame
    apply (hplan.unreserved_artifact hartifact).marker
    rw [hsame]
    exact Overlap.refl _
  have hwrite : Meets (outcome (fun _ => known hsound) fun _ => kept validators plan start)
      (whileStaging validators plan start hstaging plan.artifacts)
      (Disk.writeBytes (staging :: markerPath) (markerContent plan)) := by
    apply meets_staging_writeBytes hplan hstaging markerPath hsound rfl
    · exact fun mode => ⟨mode, rfl⟩
    · exact hmarkerApart
  have hmarkerNe : markerPath ≠ [] := by
    rw [markerPath_eq]
    exact List.cons_ne_nil _ _
  unfold publishIncompleteMarker
  apply Meets.bind hparents _ fun _ => Assertion.le_kept _
  intro _
  apply Meets.andThen hwrite
  intro _
  apply meets_moveIntoPlace .stagedMarker .announced markerPath markerPath hstaging
    mem_publishedPlaces_marker hmarkerNe hsound
  · intro note hnote
    rcases Set.mem_insert_iff.mp hnote with rfl | ⟨place, hplace, rfl⟩ | ⟨artifact, -, rfl⟩
    · exact .inl rfl
    · exact .inr (overlap_marker_of_mem hplan hplace)
    · exact .inl rfl
  · exact Set.mem_insert _ _
  · rfl
  · rfl
  · exact fun _ hholds => hholds
  · rintro note
      (rfl | rfl | ⟨artifact, hartifact, -, rfl⟩ | ⟨_, -, hmem, -, rfl⟩ | ⟨_, -, hmem, -, rfl⟩)
    · exact .inl rfl
    · right
      refine ⟨Set.mem_insert_of_mem _ (.inl ⟨_, mem_publishedPlaces_manifest, rfl⟩), ?_, ?_⟩
      · exact Fact.clearOf_of_not_overlap
          (not_overlap_staging hplan hstaging mem_publishedPlaces_manifest)
      · exact Fact.clearOf_of_not_overlap marker_not_overlap_manifest
    · right
      refine ⟨Set.mem_insert_of_mem _ (.inr ⟨artifact, hartifact, rfl⟩), ?_, ?_⟩
      · intro _
        refine ⟨?_, Note.solid rfl⟩
        intro hsame
        exact hmarkerApart artifact hartifact (List.cons.inj hsame).2
      · apply Fact.clearOf_of_not_overlap
        intro hoverlap
        exact not_overlap_staging hplan hstaging mem_publishedPlaces_marker hoverlap.symm
    · cases hmem
    · cases hmem
  · exact fun _ _ => .inl rfl

end SupernoteModule.Generation.GenerationExecution
