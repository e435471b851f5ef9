import SupernoteModule.Proof.Staging

/-!
# Publishing

Each function of the executor leads from what is known before it to what is known after it. The
manifest is last in the order of publication, so everything else is in its place when it is moved.
-/

namespace SupernoteModule.Generation.GenerationExecution

open SupernoteModule.Filesystem SupernoteModule.Lib SupernoteModule.Lib.Program
open SupernoteModule.Python
open SupernoteModule.Generation.GenerationPlan (OwnedArtifact Plan ancestors mem_ancestors)
open SupernoteModule.Generation.IntegrityManifest (integrityManifestPath)

variable {validators : Validators} {plan : Plan} {start before after : FileTree}
  {staging root : String} {notes : Set Note} {path place : List String} {host : Host}

/-! ### Deletes -/

theorem mem_targets_delete {relative : String} (hrelative : relative ∈ plan.deletes) :
    relative ∈ targets plan :=
  List.mem_append_right _ hrelative

theorem sound_checked (hstaging : OwnStaging start staging) {relative : String}
    (deleted : List String) (done : List OwnedArtifact) (hrelative : relative ∈ targets plan) :
    Sound validators plan start staging
      (insert (.checked relative) (publishingNotes plan deleted done)) := by
  apply (sound_publishingNotes hstaging deleted done).insert
  exact .inr (List.mem_cons_of_mem _ (List.mem_cons_of_mem _ (List.mem_map_of_mem hrelative)))

/-- When the check of one path passes, that is known as long as nobody touches the path. -/
theorem meets_check (hstaging : OwnStaging start staging) {relative : String}
    (deleted : List String) (done : List OwnedArtifact) (hrelative : relative ∈ targets plan) :
    Meets (outcome (fun _ => known (sound_checked hstaging deleted done hrelative))
        fun _ => kept validators plan start)
      (whilePublishing validators plan start hstaging deleted done)
      (Disk.inspecting (validators.pathPrecondition plan relative)) := by
  have hinspect : Meets (outcome (fun _ => known (sound_checked hstaging deleted done hrelative))
        fun _ => whilePublishing validators plan start hstaging deleted done)
      (whilePublishing validators plan start hstaging deleted done)
      (Disk.inspecting (validators.pathPrecondition plan relative)) := by
    apply meets_inspecting promise_refl
    intro tree hknows hvalid note hnote
    rcases Set.mem_insert_iff.mp hnote with rfl | hold
    · intro other hsame
      rw [validators.pathLocal plan relative other tree hsame, hvalid]
    · exact hknows note hold
  apply hinspect.consequence (Assertion.le_refl _)
  intro result
  cases result with
  | ok value => exact Assertion.le_refl _
  | error error => exact Assertion.le_kept _

theorem mem_publishingNotes_delete {relative : String} {deleted : List String}
    {done : List OwnedArtifact} {note : Note}
    (hnote : note ∈ publishingNotes plan (deleted ++ [relative]) done) :
    note ∈ publishingNotes plan deleted done ∨
      (relative ≠ integrityManifestPath ∧ note = .deleted relative) := by
  rcases hnote with hmarker | hmanifest | hstaged | ⟨path, hpath, hmem, hne, rfl⟩ | hpublished
  · exact .inl (.inl hmarker)
  · exact .inl (.inr (.inl hmanifest))
  · exact .inl (.inr (.inr (.inl hstaged)))
  · rcases List.mem_append.mp hmem with hold | hnew
    · exact .inl (.inr (.inr (.inr (.inl ⟨path, hpath, hold, hne, rfl⟩))))
    · rw [List.mem_singleton.mp hnew] at hne ⊢
      exact .inr ⟨hne, rfl⟩
  · exact .inl (.inr (.inr (.inr (.inr hpublished))))

theorem meets_deleteStale (hplan : Publishable plan)
    (hstaging : OwnStaging start staging) {relative : String} (deleted : List String)
    (hrelative : relative ∈ plan.deletes) :
    Meets (outcome
        (fun _ => whilePublishing validators plan start hstaging (deleted ++ [relative]) [])
        fun _ => kept validators plan start)
      (whilePublishing validators plan start hstaging deleted [])
      (deleteStale root validators plan relative) := by
  have hunreserved := hplan.unreserved_delete hrelative
  unfold deleteStale
  by_cases hmanifest : relative = integrityManifestPath
  · rw [if_pos hmanifest]
    have hsub : publishingNotes plan (deleted ++ [relative]) [] ⊆
        publishingNotes plan deleted [] := by
      intro note hnote
      rcases mem_publishingNotes_delete hnote with hold | ⟨hne, -⟩
      · exact hold
      · exact absurd hmanifest hne
    have hless : whilePublishing validators plan start hstaging deleted [] ≤
        whilePublishing validators plan start hstaging (deleted ++ [relative]) [] :=
      known_mono hsub
    exact Meets.pure hless
  rw [if_neg hmanifest]
  have hentry : Meets (outcome
        (fun kind => if kind.isNone then
            whilePublishing validators plan start hstaging (deleted ++ [relative]) []
          else whilePublishing validators plan start hstaging deleted [])
        fun _ => whilePublishing validators plan start hstaging deleted [])
      (whilePublishing validators plan start hstaging deleted [])
      (Disk.entryKind (pathParts relative)) := by
    apply meets_entryKind promise_refl
    intro tree hknows hnone note hnote
    rcases mem_publishingNotes_delete hnote with hold | ⟨-, rfl⟩
    · exact hknows note hold
    · exact hnone
  have hremove : Meets
      (outcome (fun _ => whilePublishing validators plan start hstaging (deleted ++ [relative]) [])
        fun _ => kept validators plan start)
      (known (sound_checked hstaging deleted [] (mem_targets_delete hrelative)))
      (Disk.removeGeneratedRegularNoFollow root (pathParts relative)) := by
    apply meets_removeGenerated promise_refl
    intro host before after _ hknows hact
    obtain ⟨hexchanged, hgone⟩ := exchanged_unlink (hplan.nonempty relative hrelative) hact
    constructor
    · apply permitted_of_exchange (mem_publishedPlaces_delete hrelative)
      · exact fun place _ hne => hexchanged.changed.elsewhere place hne
      · refine .inr (.inr ⟨relative, mem_targets_delete hrelative, rfl, ?_⟩)
        exact hknows (.checked relative) (Set.mem_insert _ _) before rfl
    · apply knows_of_exchanged hexchanged hknows
      intro note hnote
      rcases mem_publishingNotes_delete hnote with hold | ⟨-, rfl⟩
      · have hbefore := Set.mem_insert_of_mem (.checked relative) hold
        rcases hold with rfl | rfl | ⟨artifact, -, -, rfl⟩ | ⟨path, -, -, -, rfl⟩ |
          ⟨_, -, hmem, -⟩
        · left
          refine ⟨hbefore, Fact.clearOf_of_not_overlap ?_⟩
          exact fun hoverlap => hunreserved.marker hoverlap.symm
        · left
          refine ⟨hbefore, Fact.clearOf_of_not_overlap ?_⟩
          exact fun hoverlap => hunreserved.manifest.resolve_left hmanifest hoverlap.symm
        · left
          refine ⟨hbefore, Fact.clearOf_of_not_overlap ?_⟩
          intro hoverlap
          exact not_overlap_staging hplan hstaging (mem_publishedPlaces_delete hrelative)
            hoverlap.symm
        · exact .inr (hexchanged.find_none hgone (hknows (.deleted path) hbefore))
        · cases hmem
      · exact .inr hgone
  apply Meets.bind hentry _ fun _ => Assertion.le_kept _
  intro kind
  cases kind with
  | none => exact Meets.pure (Assertion.le_refl _)
  | some kind =>
      apply Meets.andThen (meets_check hstaging deleted [] (mem_targets_delete hrelative))
      exact fun _ => hremove

theorem meets_deleteStaleOutput (hplan : Publishable plan)
    (hstaging : OwnStaging start staging) :
    Meets (outcome (fun _ => whilePublishing validators plan start hstaging plan.deletes [])
        fun _ => kept validators plan start)
      (whilePublishing validators plan start hstaging [] [])
      (deleteStaleOutput root validators plan) := by
  apply Meets.forEach fun deleted => whilePublishing validators plan start hstaging deleted []
  intro deleted relative rest hsplit
  apply meets_deleteStale hplan hstaging deleted
  rw [hsplit]
  exact List.mem_append_right _ List.mem_cons_self

/-! ### Output -/

theorem mem_targets_artifact {artifact : OwnedArtifact} (hartifact : artifact ∈ plan.artifacts) :
    artifact.path ∈ targets plan :=
  List.mem_append_left _ (List.mem_map_of_mem hartifact)

theorem mem_publishingNotes_artifact {artifact : OwnedArtifact} {deleted : List String}
    {done : List OwnedArtifact} {note : Note}
    (hnote : note ∈ publishingNotes plan deleted (done ++ [artifact])) :
    (note ∈ publishingNotes plan deleted done ∧ note ≠ .staged artifact) ∨
      (artifact.path ≠ integrityManifestPath ∧ note = .published artifact) := by
  rcases hnote with rfl | rfl | ⟨other, hother, hmem, rfl⟩ | ⟨path, hpath, hmem, hne, rfl⟩ |
    ⟨other, hother, hmem, hne, rfl⟩
  · exact .inl ⟨.inl rfl, fun hsame => by cases hsame⟩
  · exact .inl ⟨.inr (.inl rfl), fun hsame => by cases hsame⟩
  · left
    refine ⟨.inr (.inr (.inl ⟨other, hother, ?_, rfl⟩)), ?_⟩
    · exact fun hold => hmem (List.mem_append_left _ hold)
    · rintro hsame
      obtain rfl := Note.staged.inj hsame
      exact hmem (List.mem_append_right _ (List.mem_singleton_self _))
  · left
    exact ⟨.inr (.inr (.inr (.inl ⟨path, hpath, hmem, hne, rfl⟩))), fun hsame => by cases hsame⟩
  · rcases List.mem_append.mp hmem with hold | hnew
    · left
      refine ⟨.inr (.inr (.inr (.inr ⟨other, hother, hold, hne, rfl⟩))), ?_⟩
      exact fun hsame => by cases hsame
    · rw [List.mem_singleton.mp hnew] at hne ⊢
      exact .inr ⟨hne, rfl⟩

/-- A note of the publishing phase, other than that the artifact is staged, is not touched when the
artifact moves from its staging place to a place that the note is not about. -/
theorem clearOf_publish (hplan : Publishable plan)
    (hstaging : OwnStaging start staging) {artifact : OwnedArtifact}
    (hartifact : artifact ∈ plan.artifacts) {done : List OwnedArtifact} (hnew : artifact ∉ done)
    {note : Note} (hnote : note ∈ publishingNotes plan plan.deletes done)
    (hne : note ≠ .staged artifact)
    (hmanifest : artifact.path = integrityManifestPath → note ≠ .unchanged manifestPath) :
    (note.fact validators plan start staging).ClearOf (staging :: pathParts artifact.path) ∧
      (note.fact validators plan start staging).ClearOf (pathParts artifact.path) := by
  have hunreserved := hplan.unreserved_artifact hartifact
  rcases hnote with rfl | rfl | ⟨other, hother, hmem, rfl⟩ | ⟨path, hpath, hmem, -, rfl⟩ |
    ⟨other, hother, hmem, -, rfl⟩
  · constructor
    · exact Fact.clearOf_of_not_overlap
        (not_overlap_staging hplan hstaging mem_publishedPlaces_marker)
    · exact Fact.clearOf_of_not_overlap fun hoverlap => hunreserved.marker hoverlap.symm
  · constructor
    · exact Fact.clearOf_of_not_overlap
        (not_overlap_staging hplan hstaging mem_publishedPlaces_manifest)
    · apply Fact.clearOf_of_not_overlap
      intro hoverlap
      rcases hunreserved.manifest with hsame | hapart
      · exact hmanifest hsame rfl
      · exact hapart hoverlap.symm
  · constructor
    · intro _
      refine ⟨?_, Note.solid rfl⟩
      intro hsame
      apply hne
      rw [hplan.eq_of_parts hother hartifact (List.cons.inj hsame).2]
    · apply Fact.clearOf_of_not_overlap
      intro hoverlap
      exact not_overlap_staging hplan hstaging (mem_publishedPlaces_artifact hartifact)
        hoverlap.symm
  · constructor
    · exact Fact.clearOf_of_not_overlap
        (not_overlap_staging hplan hstaging (mem_publishedPlaces_delete hpath))
    · apply Fact.clearOf_of_not_overlap
      intro hoverlap
      exact hplan.apart path hpath artifact hartifact hoverlap.symm
  · constructor
    · exact Fact.clearOf_of_not_overlap
        (not_overlap_staging hplan hstaging (mem_publishedPlaces_artifact hother))
    · intro _
      refine ⟨?_, Note.solid rfl⟩
      intro hsame
      apply hnew
      rwa [← hplan.eq_of_parts hother hartifact hsame]

/-- Every artifact but the manifest is published once it is checked. -/
theorem meets_publishOther (hplan : Publishable plan)
    (hstaging : OwnStaging start staging) {artifact : OwnedArtifact}
    {done : List OwnedArtifact} (hartifact : artifact ∈ plan.artifacts) (hnew : artifact ∉ done)
    (hmanifest : artifact.path ≠ integrityManifestPath) (finalize : Bool) :
    Meets (outcome
        (fun _ => whilePublishing validators plan start hstaging plan.deletes (done ++ [artifact]))
        fun _ => kept validators plan start)
      (whilePublishing validators plan start hstaging plan.deletes done)
      (publishArtifact root validators plan staging finalize artifact) := by
  have hunreserved := hplan.unreserved_artifact hartifact
  rw [publishArtifact, if_neg hmanifest]
  apply Meets.andThen
    (meets_check hstaging plan.deletes done (mem_targets_artifact hartifact))
  intro _
  apply meets_moveIntoPlace (.staged artifact) (.published artifact) (pathParts artifact.path)
    (pathParts artifact.path) hstaging (mem_publishedPlaces_artifact hartifact)
    (pathParts_artifact_ne_nil artifact)
    (sound_checked hstaging plan.deletes done (mem_targets_artifact hartifact))
  · rintro note (rfl | rfl | rfl | ⟨other, -, -, rfl⟩ | ⟨path, hpath, -, -, rfl⟩ |
      ⟨other, -, -, -, rfl⟩)
    · exact .inr (.inl rfl)
    · exact .inl rfl
    · refine .inr (.inr ?_)
      exact fun hoverlap => hunreserved.manifest.resolve_left hmanifest hoverlap.symm
    · exact .inl rfl
    · refine .inr (.inr ?_)
      exact fun hoverlap => hplan.apart path hpath artifact hartifact hoverlap.symm
    · exact .inl rfl
  · exact Set.mem_insert_of_mem _ (.inr (.inr (.inl ⟨artifact, hartifact, hnew, rfl⟩)))
  · rfl
  · rfl
  · exact fun _ hholds => hholds
  · intro note hnote
    rcases mem_publishingNotes_artifact hnote with ⟨hold, hne⟩ | ⟨-, rfl⟩
    · right
      refine ⟨Set.mem_insert_of_mem _ hold, ?_⟩
      apply clearOf_publish hplan hstaging hartifact hnew hold hne
      exact fun hsame => absurd hsame hmanifest
    · exact .inl rfl
  · intro tree hknows
    refine .inr (.inr ⟨artifact.path, mem_targets_artifact hartifact, rfl, ?_⟩)
    exact hknows (.checked artifact.path) (Set.mem_insert _ _) tree rfl

/-- What holds from the moment the manifest is there. -/
abbrev whenRecorded (validators : Validators) (plan : Plan) (start : FileTree) (staging : String) :
    Assertion (executionPromise validators plan start) :=
  known (@sound_recordedNotes validators plan start staging)

/-- When the manifest is published, everything else is in its place already. -/
theorem meets_publishManifest (hplan : Publishable plan)
    (hstaging : OwnStaging start staging) {artifact : OwnedArtifact}
    {done : List OwnedArtifact} (hartifact : artifact ∈ plan.artifacts) (hnew : artifact ∉ done)
    (hmanifest : artifact.path = integrityManifestPath)
    (hothers : ∀ other ∈ plan.artifacts, other = artifact ∨
      (other ∈ done ∧ other.path ≠ integrityManifestPath)) :
    Meets (outcome (fun _ => whenRecorded validators plan start staging)
        fun _ => kept validators plan start)
      (whilePublishing validators plan start hstaging plan.deletes done)
      (publishArtifact root validators plan staging true artifact) := by
  have hplace : pathParts artifact.path = manifestPath := by rw [hmanifest, manifestPath]
  rw [publishArtifact, if_pos hmanifest, if_pos rfl]
  have hinspect : Meets
      (outcome (fun _ => whilePublishing validators plan start hstaging plan.deletes done)
        fun _ => whilePublishing validators plan start hstaging plan.deletes done)
      (whilePublishing validators plan start hstaging plan.deletes done)
      (Disk.inspecting (validators.completionPreconditions plan)) :=
    meets_inspecting promise_refl fun _ hknows _ => hknows
  apply Meets.bind hinspect _ fun _ => Assertion.le_kept _
  intro _
  apply meets_moveIntoPlace (.staged artifact) (.published artifact) (pathParts artifact.path)
    (pathParts artifact.path) hstaging (mem_publishedPlaces_artifact hartifact)
    (pathParts_artifact_ne_nil artifact) (sound_publishingNotes hstaging _ _)
  · rintro note (rfl | rfl | ⟨other, -, -, rfl⟩ | ⟨path, hpath, -, -, rfl⟩ |
      ⟨other, -, -, -, rfl⟩)
    · exact .inl rfl
    · exact .inr (.inl hplace.symm)
    · exact .inl rfl
    · refine .inr (.inr ?_)
      exact fun hoverlap => hplan.apart path hpath artifact hartifact hoverlap.symm
    · exact .inl rfl
  · exact .inr (.inr (.inl ⟨artifact, hartifact, hnew, rfl⟩))
  · rfl
  · rfl
  · exact fun _ hholds => hholds
  · have hkept : ∀ note ∈ publishingNotes plan plan.deletes done, note ≠ .staged artifact →
        note ≠ .unchanged manifestPath → note = .published artifact ∨
          (note ∈ publishingNotes plan plan.deletes done ∧
            (note.fact validators plan start staging).ClearOf (staging :: pathParts artifact.path) ∧
            (note.fact validators plan start staging).ClearOf (pathParts artifact.path)) := by
      intro note hnote hstaged hunchanged
      exact .inr ⟨hnote, clearOf_publish hplan hstaging hartifact hnew hnote hstaged
        fun _ => hunchanged⟩
    intro note hnote
    rcases Set.mem_insert_iff.mp hnote with rfl | ⟨path, hpath, hne, rfl⟩ | ⟨other, hother, rfl⟩
    · exact hkept _ (.inl rfl) (fun hsame => by cases hsame) fun hsame => by cases hsame
    · exact hkept _ (.inr (.inr (.inr (.inl ⟨path, hpath, hpath, hne, rfl⟩))))
        (fun hsame => by cases hsame) fun hsame => by cases hsame
    · rcases hothers other hother with rfl | ⟨hdone, hne⟩
      · exact .inl rfl
      · exact hkept _ (.inr (.inr (.inr (.inr ⟨other, hother, hdone, hne, rfl⟩))))
          (fun hsame => by cases hsame) fun hsame => by cases hsame
  · intro tree hknows
    refine .inr (.inl ⟨hplace, ?_, ?_⟩)
    · intro other hother hne
      rcases hothers other hother with rfl | ⟨hdone, -⟩
      · exact absurd hmanifest hne
      · exact hknows (.published other) (.inr (.inr (.inr (.inr ⟨other, hother, hdone, hne, rfl⟩))))
    · intro path hpath hne
      exact hknows (.deleted path) (.inr (.inr (.inr (.inl ⟨path, hpath, hpath, hne, rfl⟩))))

/-! ### The order of publication -/

theorem publishLe_total (left right : OwnedArtifact) :
    publishLe left right ∨ publishLe right left := by
  unfold publishLe
  by_cases hleft : left.path = integrityManifestPath
  · by_cases hright : right.path = integrityManifestPath
    · exact .inl (by rwa [if_pos hleft])
    · exact .inr (by rw [if_neg hright]; exact .inl hleft)
  · rw [if_neg hleft]
    by_cases hright : right.path = integrityManifestPath
    · exact .inl (.inl hright)
    · rw [if_neg hright]
      rcases le_total left.path right.path with hle | hle
      · exact .inl (.inr hle)
      · exact .inr (.inr hle)

theorem publishLe_trans {first second third : OwnedArtifact} (hfirst : publishLe first second)
    (hsecond : publishLe second third) : publishLe first third := by
  unfold publishLe at hfirst hsecond ⊢
  by_cases hmiddle : second.path = integrityManifestPath
  · rw [if_pos hmiddle] at hsecond
    by_cases hhead : first.path = integrityManifestPath
    · rwa [if_pos hhead]
    · rw [if_neg hhead]
      exact .inl hsecond
  · rw [if_neg hmiddle] at hsecond
    by_cases hhead : first.path = integrityManifestPath
    · rw [if_pos hhead] at hfirst
      exact absurd hfirst hmiddle
    · rw [if_neg hhead] at hfirst ⊢
      rcases hsecond with hthird | hle
      · exact .inl hthird
      · exact .inr (le_trans (hfirst.resolve_left hmiddle) hle)

theorem pairwise_publishLe (artifacts : List OwnedArtifact) :
    (artifacts.insertionSort publishLe).Pairwise publishLe := by
  have : Std.Total publishLe := ⟨publishLe_total⟩
  have : IsTrans OwnedArtifact publishLe := ⟨fun _ _ _ => publishLe_trans⟩
  exact List.pairwise_insertionSort publishLe artifacts

section

variable {done rest : List OwnedArtifact} {artifact : OwnedArtifact}
  (hsplit : plan.artifacts.insertionSort publishLe = done ++ artifact :: rest)

include hsplit

theorem mem_artifacts_of_split : artifact ∈ plan.artifacts := by
  rw [← List.mem_insertionSort publishLe, hsplit]
  exact List.mem_append_right _ List.mem_cons_self

theorem not_mem_of_split (hplan : Publishable plan) : artifact ∉ done := by
  have hnodup : (done ++ artifact :: rest).Nodup := by
    rw [← hsplit, (List.perm_insertionSort publishLe plan.artifacts).nodup_iff]
    exact hplan.distinct.of_map _
  intro hmem
  exact (List.nodup_append.mp hnodup).2.2 artifact hmem artifact List.mem_cons_self rfl

/-- Nothing but the manifest comes after the manifest. -/
theorem not_manifest_before (hplan : Publishable plan) {other : OwnedArtifact}
    (hother : other ∈ done) : other.path ≠ integrityManifestPath := by
  intro hmanifest
  have hpairwise := pairwise_publishLe plan.artifacts
  rw [hsplit] at hpairwise
  have hle : publishLe other artifact :=
    (List.pairwise_append.mp hpairwise).2.2 other hother artifact List.mem_cons_self
  rw [publishLe, if_pos hmanifest] at hle
  have hmem : other ∈ plan.artifacts := by
    rw [← List.mem_insertionSort publishLe, hsplit]
    exact List.mem_append_left _ hother
  have hsame : other = artifact := by
    apply List.inj_on_of_nodup_map hplan.distinct hmem (mem_artifacts_of_split hsplit)
    rw [hmanifest, hle]
  exact not_mem_of_split hsplit hplan (hsame ▸ hother)

/-- Before the manifest comes everything else. -/
theorem others_before (hplan : Publishable plan) (hmanifest : artifact.path = integrityManifestPath)
    {other : OwnedArtifact} (hother : other ∈ plan.artifacts) :
    other = artifact ∨ (other ∈ done ∧ other.path ≠ integrityManifestPath) := by
  have hpairwise := pairwise_publishLe plan.artifacts
  rw [hsplit] at hpairwise
  rw [← List.mem_insertionSort publishLe, hsplit] at hother
  rcases List.mem_append.mp hother with hdone | hrest
  · exact .inr ⟨hdone, not_manifest_before hsplit hplan hdone⟩
  rcases List.mem_cons.mp hrest with hsame | hafter
  · exact .inl hsame
  · have hle : publishLe artifact other :=
      (List.pairwise_cons.mp (List.pairwise_append.mp hpairwise).2.1).1 other hafter
    rw [publishLe, if_pos hmanifest] at hle
    left
    apply List.inj_on_of_nodup_map hplan.distinct _ (mem_artifacts_of_split hsplit)
    · rw [hle, hmanifest]
    · rw [← List.mem_insertionSort publishLe, hsplit]
      exact List.mem_append_right _ hrest

end

/-- The manifest is among the artifacts that are done. -/
def isRecorded (finalize : Bool) (done : List OwnedArtifact) : Bool :=
  finalize && done.any (·.path == integrityManifestPath)

/-- What holds while the artifacts are published, with some of them done. -/
abbrev whileOutput (validators : Validators) (plan : Plan) (start : FileTree)
    (hstaging : OwnStaging start staging) (finalize : Bool)
    (done : List OwnedArtifact) : Assertion (executionPromise validators plan start) :=
  if isRecorded finalize done then whenRecorded validators plan start staging
  else whilePublishing validators plan start hstaging plan.deletes done

theorem isRecorded_false {finalize : Bool} {done : List OwnedArtifact}
    (hdone : ∀ artifact ∈ done, artifact.path ≠ integrityManifestPath) :
    isRecorded finalize done = false := by
  have hnone : done.any (·.path == integrityManifestPath) = false := by
    rw [List.any_eq_false]
    intro artifact hartifact
    rw [beq_iff_eq]
    exact hdone artifact hartifact
  rw [isRecorded, hnone, Bool.and_false]

theorem meets_publishArtifact (hplan : Publishable plan)
    (hstaging : OwnStaging start staging) (finalize : Bool)
    {done rest : List OwnedArtifact} {artifact : OwnedArtifact}
    (hsplit : plan.artifacts.insertionSort publishLe = done ++ artifact :: rest) :
    Meets (outcome
        (fun _ => whileOutput validators plan start hstaging finalize (done ++ [artifact]))
        fun _ => kept validators plan start)
      (whileOutput validators plan start hstaging finalize done)
      (publishArtifact root validators plan staging finalize artifact) := by
  have hartifact := mem_artifacts_of_split hsplit
  have hnew := not_mem_of_split hsplit hplan
  have hbefore : isRecorded finalize done = false :=
    isRecorded_false fun other hother => not_manifest_before hsplit hplan hother
  by_cases hmanifest : artifact.path = integrityManifestPath
  · cases finalize with
    | true =>
        have hafter : isRecorded true (done ++ [artifact]) = true := by
          simp [isRecorded, hmanifest]
        rw [whileOutput, whileOutput, hbefore, hafter, if_pos rfl, if_neg Bool.false_ne_true]
        apply meets_publishManifest hplan hstaging hartifact hnew hmanifest
        exact fun other hother => others_before hsplit hplan hmanifest hother
    | false =>
        have hafter : isRecorded false (done ++ [artifact]) = false := rfl
        rw [whileOutput, whileOutput, hbefore, hafter, if_neg Bool.false_ne_true,
          if_neg Bool.false_ne_true, publishArtifact, if_pos hmanifest, if_neg Bool.false_ne_true]
        have hsub : publishingNotes plan plan.deletes (done ++ [artifact]) ⊆
            publishingNotes plan plan.deletes done := by
          intro note hnote
          rcases mem_publishingNotes_artifact hnote with ⟨hold, -⟩ | ⟨hne, -⟩
          · exact hold
          · exact absurd hmanifest hne
        have hless : whilePublishing validators plan start hstaging plan.deletes done ≤
            whilePublishing validators plan start hstaging plan.deletes (done ++ [artifact]) :=
          known_mono hsub
        exact Meets.pure hless
  · have hafter : isRecorded finalize (done ++ [artifact]) = false := by
      apply isRecorded_false
      intro other hother
      rcases List.mem_append.mp hother with hold | hlast
      · exact not_manifest_before hsplit hplan hold
      · rwa [List.mem_singleton.mp hlast]
    rw [whileOutput, whileOutput, hbefore, hafter, if_neg Bool.false_ne_true,
      if_neg Bool.false_ne_true]
    exact meets_publishOther hplan hstaging hartifact hnew hmanifest finalize

theorem meets_publishOutput (hplan : Publishable plan)
    (hstaging : OwnStaging start staging) (finalize : Bool) :
    Meets (outcome
        (fun _ => whileOutput validators plan start hstaging finalize
          (plan.artifacts.insertionSort publishLe))
        fun _ => kept validators plan start)
      (whilePublishing validators plan start hstaging plan.deletes [])
      (publishOutput root validators plan staging finalize) := by
  have hbegin : whilePublishing validators plan start hstaging plan.deletes [] =
      whileOutput validators plan start hstaging finalize [] := by
    rw [whileOutput, isRecorded_false (fun _ hmem => by cases hmem), if_neg Bool.false_ne_true]
  rw [hbegin]
  apply Meets.forEach (whileOutput validators plan start hstaging finalize)
  intro done artifact rest hsplit
  exact meets_publishArtifact hplan hstaging finalize hsplit

/-! ### The end -/

/-- What is known at the end, all of it about published places. -/
def finalNotes (plan : Plan) (finalize : Bool) : Set Note :=
  if finalize then clearedNotes plan else publishingNotes plan plan.deletes plan.artifacts

theorem publishingNotes_of_sorted :
    publishingNotes plan plan.deletes plan.artifacts ⊆
      publishingNotes plan plan.deletes (plan.artifacts.insertionSort publishLe) := by
  rintro note (rfl | rfl | ⟨artifact, hartifact, hmem, rfl⟩ | hdeleted | ⟨artifact, hartifact, hmem,
    hne, rfl⟩)
  · exact .inl rfl
  · exact .inr (.inl rfl)
  · exact absurd hartifact hmem
  · exact .inr (.inr (.inr (.inl hdeleted)))
  · refine .inr (.inr (.inr (.inr ⟨artifact, hartifact, ?_, hne, rfl⟩)))
    exact (List.mem_insertionSort publishLe).mpr hmem

/-- A plan without a manifest is recorded when all of it is published. -/
theorem recordedNotes_of_publishing
    (hnone : ∀ artifact ∈ plan.artifacts, artifact.path ≠ integrityManifestPath) :
    recordedNotes plan ⊆
      publishingNotes plan plan.deletes (plan.artifacts.insertionSort publishLe) := by
  rintro note (rfl | ⟨path, hpath, hne, rfl⟩ | ⟨artifact, hartifact, rfl⟩)
  · exact .inl rfl
  · exact .inr (.inr (.inr (.inl ⟨path, hpath, hpath, hne, rfl⟩)))
  · refine .inr (.inr (.inr (.inr ⟨artifact, hartifact, ?_, hnone artifact hartifact, rfl⟩)))
    exact (List.mem_insertionSort publishLe).mpr hartifact

theorem whileOutput_le_recorded (hstaging : OwnStaging start staging) :
    whileOutput validators plan start hstaging true (plan.artifacts.insertionSort publishLe) ≤
      whenRecorded validators plan start staging := by
  rw [whileOutput]
  by_cases hrecorded : isRecorded true (plan.artifacts.insertionSort publishLe)
  · rw [if_pos hrecorded]
    exact Assertion.le_refl _
  · rw [if_neg hrecorded]
    apply known_mono
    apply recordedNotes_of_publishing
    intro artifact hartifact hmanifest
    apply hrecorded
    rw [isRecorded, Bool.true_and, List.any_eq_true]
    refine ⟨artifact, (List.mem_insertionSort publishLe).mpr hartifact, ?_⟩
    rw [hmanifest, beq_self_eq_true]

theorem meets_clearIncompleteMarker (hplan : Publishable plan) :
    Meets (outcome (fun _ => known (@sound_clearedNotes validators plan start staging))
        fun _ => kept validators plan start)
      (whenRecorded validators plan start staging) (clearIncompleteMarker root) := by
  have hentry : Meets (outcome
        (fun kind => if kind.isNone then known (@sound_clearedNotes validators plan start staging)
          else whenRecorded validators plan start staging)
        fun _ => whenRecorded validators plan start staging)
      (whenRecorded validators plan start staging) (Disk.entryKind markerPath) := by
    apply meets_entryKind promise_refl
    intro tree hknows hnone note hnote
    rcases Set.mem_insert_iff.mp hnote with rfl | hold
    · exact hnone
    · exact hknows note (Set.mem_insert_of_mem _ hold)
  have hmarkerNe : markerPath ≠ [] := hplan.place_ne_nil mem_publishedPlaces_marker
  have hremove : Meets
      (outcome (fun _ => known (@sound_clearedNotes validators plan start staging))
        fun _ => kept validators plan start)
      (whenRecorded validators plan start staging)
      (Disk.removeGeneratedRegularNoFollow root markerPath) := by
    apply meets_removeGenerated promise_refl
    intro host before after _ hknows hact
    obtain ⟨hexchanged, hgone⟩ := exchanged_unlink hmarkerNe hact
    constructor
    · apply permitted_of_exchange mem_publishedPlaces_marker
      · exact fun place _ hne => hexchanged.changed.elsewhere place hne
      · exact .inl rfl
    · apply knows_of_exchanged hexchanged hknows
      intro note hnote
      rcases Set.mem_insert_iff.mp hnote with rfl | hold
      · exact .inr hgone
      · left
        refine ⟨Set.mem_insert_of_mem _ hold, Fact.clearOf_of_not_overlap ?_⟩
        rcases hold with ⟨path, hpath, -, rfl⟩ | ⟨artifact, hartifact, rfl⟩
        · exact (hplan.unreserved_delete hpath).marker
        · exact (hplan.unreserved_artifact hartifact).marker
  unfold clearIncompleteMarker
  apply Meets.bind hentry _ fun _ => Assertion.le_kept _
  intro kind
  cases kind with
  | none => exact Meets.pure (Assertion.le_refl _)
  | some kind => exact hremove

theorem sound_finalNotes (hstaging : OwnStaging start staging) (finalize : Bool) :
    Sound validators plan start staging (finalNotes plan finalize) := by
  cases finalize with
  | true => exact sound_clearedNotes
  | false => exact sound_publishingNotes hstaging plan.deletes plan.artifacts

theorem meets_publish (hplan : Publishable plan)
    (hstaging : OwnStaging start staging) (finalize : Bool) :
    Meets (outcome (fun _ => known (sound_finalNotes hstaging finalize))
        fun _ => kept validators plan start)
      (whileStaging validators plan start hstaging [])
      (publish root validators plan finalize staging) := by
  have hinspect : Meets
      (outcome (fun _ => whileStaging validators plan start hstaging plan.artifacts)
        fun _ => whileStaging validators plan start hstaging plan.artifacts)
      (whileStaging validators plan start hstaging plan.artifacts)
      (Disk.inspecting (validators.preconditions plan)) :=
    meets_inspecting promise_refl fun _ hknows _ => hknows
  unfold publish
  apply Meets.andThen (meets_stagePlan hplan hstaging)
  intro _
  apply Meets.bind hinspect _ fun _ => Assertion.le_kept _
  intro _
  apply Meets.andThen (meets_publishIncompleteMarker hplan hstaging)
  intro _
  apply Meets.andThen (meets_deleteStaleOutput hplan hstaging)
  intro _
  apply Meets.andThen (meets_publishOutput hplan hstaging finalize)
  intro _
  cases finalize with
  | true =>
      rw [if_pos rfl]
      exact (meets_clearIncompleteMarker hplan).strengthen (whileOutput_le_recorded hstaging)
  | false =>
      rw [if_neg Bool.false_ne_true]
      have hless : whilePublishing validators plan start hstaging plan.deletes
            (plan.artifacts.insertionSort publishLe) ≤
          known (sound_finalNotes hstaging false) :=
        known_mono publishingNotes_of_sorted
      exact Meets.pure hless

/-! ### Executions -/

/-- While nothing is published, and nothing is staged. -/
def untouched (validators : Validators) (plan : Plan) (start : FileTree) :
    Assertion (executionPromise validators plan start) where
  holds tree := ∀ place, Guarded plan place → tree.find place = start.find place
  always hunchanged := by
    have hpublished : ∀ place ∈ publishedPlaces plan, _ :=
      fun place hplace => hunchanged place (.inr hplace)
    constructor
    · exact .inl fun path hpath => find_target_same hpublished hpath
    · exact .inl (find_manifest_same hpublished)
  stable hforeign hunchanged place hguarded := by
    rw [hguarded.same hforeign, hunchanged place hguarded]

/-- When the staging directory has its name. -/
def begun (validators : Validators) (plan : Plan) (start : FileTree) (name : String) :
    Assertion (executionPromise validators plan start) where
  holds tree := OwnStaging start name ∧
    ∀ place ∈ publishedPlaces plan, tree.find place = start.find place
  always hbegun := by
    constructor
    · exact .inl fun path hpath => find_target_same hbegun.2 hpath
    · exact .inl (find_manifest_same hbegun.2)
  stable hforeign hbegun := by
    refine ⟨hbegun.1, ?_⟩
    intro place hplace
    rw [hforeign.published place hplace, hbegun.2 place hplace]

/-- When the publication has come to its end. -/
def ended (validators : Validators) (plan : Plan) (start : FileTree) (finalize : Bool) :
    Assertion (executionPromise validators plan start) where
  holds tree := Consistent plan start tree ∧
    if finalize then Finished plan tree else Pending plan start tree
  always hended := hended.1
  stable hforeign hended := by
    refine ⟨hended.1.same hforeign.published, ?_⟩
    cases finalize with
    | true => exact Finished.same hforeign.published hended.2
    | false => exact Pending.same hforeign.published hended.2

/-- The removal of the staging directory touches nothing else. -/
theorem meets_removeStaging (hplan : Publishable plan)
    (hstaging : OwnStaging start staging)
    {assertion : Assertion (executionPromise validators plan start)}
    (hsame : ∀ before after : FileTree,
      (∀ place ∈ publishedPlaces plan, after.find place = before.find place) →
      assertion.holds before → assertion.holds after) :
    Meets (fun _ => assertion) assertion (Disk.removeTree [staging]) := by
  apply meets_removeTree _ promise_refl
  intro before after hholds hbreaks
  obtain ⟨hlook, hfind⟩ := hbreaks
  refine ⟨permitted_of_staging (isOwnStaging_cons hstaging []) hlook, ?_⟩
  apply hsame before after _ hholds
  intro place hplace
  exact hfind place (not_overlap_staging hplan hstaging hplace)

theorem ended_of_finalNotes (hstaging : OwnStaging start staging) (finalize : Bool) :
    known (@sound_finalNotes validators plan start staging hstaging finalize) ≤
      ended validators plan start finalize := by
  intro tree hknows
  refine ⟨(sound_finalNotes hstaging finalize).consistent tree hknows, ?_⟩
  cases finalize with
  | true =>
      have houtput : Knows validators plan start staging (outputNotes plan) tree :=
        fun note hnote => hknows note (Set.mem_insert_of_mem _ hnote)
      exact ⟨complete_of_outputNotes houtput, hknows .cleared (Set.mem_insert _ _)⟩
  | false =>
      refine ⟨hknows .announced (.inl rfl), ⟨?_, ?_⟩,
        hknows (.unchanged manifestPath) (.inr (.inl rfl))⟩
      · intro artifact hartifact hne
        exact hknows (.published artifact)
          (.inr (.inr (.inr (.inr ⟨artifact, hartifact, hartifact, hne, rfl⟩))))
      · intro path hpath hne
        exact hknows (.deleted path) (.inr (.inr (.inr (.inl ⟨path, hpath, hpath, hne, rfl⟩))))

theorem meets_makeStaging (hplan : Publishable plan) :
    Meets (outcome (begun validators plan start) fun _ => kept validators plan start)
      (untouched validators plan start) (Disk.makeTemporaryDirectory stagingPrefix) := by
  have hmade : ∀ host before after name, (untouched validators plan start).holds before →
      act host before (.makeTemporaryDirectory stagingPrefix) = .ok (name, after) →
      Permitted validators plan start before after ∧
        (begun validators plan start name).holds after := by
    intro host before after name huntouched hact
    obtain ⟨hname, hfree, hchanged⟩ := changedAt_makeTemporaryDirectory hact
    have hnamed : startsWith name stagingPrefix = true := by
      rw [hname]
      exact startsWith_iff.mpr ⟨host.suffix, rfl⟩
    have hstaging : OwnStaging start name :=
      ⟨hnamed, (huntouched [name] (.inl ⟨name, [], rfl, hnamed⟩)).symm.trans hfree⟩
    refine ⟨permitted_of_changedAt (isOwnStaging_cons hstaging []) hchanged, hstaging, ?_⟩
    intro place hplace
    rw [hchanged.apart place (not_overlap_staging hplan hstaging hplace),
      huntouched place (.inr hplace)]
  apply Meets.call (DiskOp.makeTemporaryDirectory stagingPrefix)
  intro answer before after huntouched hperforms
  cases hperforms with
  | answers host hact => exact hmade host before after _ huntouched hact
  | refuses host hact => exact ⟨promise_refl before, Assertion.always _ huntouched⟩
  | breaksOff hbreaks _ =>
      obtain rfl := breaksOff_atomic rfl hbreaks
      exact ⟨promise_refl after, Assertion.always _ huntouched⟩
  | interrupted host hact =>
      obtain ⟨hchange, hbegun⟩ := hmade host before after _ huntouched hact
      exact ⟨hchange, Assertion.always _ hbegun⟩

theorem meets_execute (hplan : Publishable plan) (finalize : Bool) :
    Meets (outcome (fun _ => ended validators plan start finalize)
        fun _ => kept validators plan start)
      (untouched validators plan start) (execute root validators plan finalize) := by
  unfold execute
  apply Meets.andThen (meets_makeStaging hplan)
  intro name
  have hnamed : ∀ tree, (begun validators plan start name).holds tree →
      OwnStaging start name := fun _ hbegun => hbegun.1
  apply Meets.assuming hnamed
  intro hstaging
  have hbody : Meets (outcome (fun _ => ended validators plan start finalize)
        fun _ => kept validators plan start)
      (begun validators plan start name) (publish root validators plan finalize name) := by
    apply (meets_publish hplan hstaging finalize).consequence
    · rintro tree hbegun note (⟨place, hplace, rfl⟩ | ⟨artifact, hmem, rfl⟩)
      · exact hbegun.2 place hplace
      · cases hmem
    · intro result
      cases result with
      | ok _ => exact ended_of_finalNotes hstaging finalize
      | error error => exact Assertion.le_refl _
  apply Meets.ensuring hbody
  intro result
  cases result with
  | ok _ =>
      have hcleanup : Meets (fun _ => ended validators plan start finalize)
          (ended validators plan start finalize) (Disk.removeTree [name]) := by
        apply meets_removeStaging hplan hstaging
        intro before after hsame hended
        refine ⟨hended.1.same hsame, ?_⟩
        cases finalize with
        | true => exact Finished.same hsame hended.2
        | false => exact Pending.same hsame hended.2
      apply hcleanup.consequence (Assertion.le_refl _)
      intro removed
      cases removed with
      | ok _ => exact Assertion.le_refl _
      | error error => exact Assertion.le_kept _
  | error error =>
      have hcleanup : Meets (fun _ => kept validators plan start) (kept validators plan start)
          (Disk.removeTree [name]) := by
        apply meets_removeStaging hplan hstaging
        exact fun before after hsame hconsistent => Consistent.same hsame hconsistent
      apply hcleanup.consequence (Assertion.le_refl _)
      intro removed
      cases removed <;> exact Assertion.le_refl _

end SupernoteModule.Generation.GenerationExecution
