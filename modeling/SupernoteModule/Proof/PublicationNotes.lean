import SupernoteModule.Proof.GeneratedEntries
import SupernoteModule.Generation.Publication

/-!
# What is known during a publication

What is known while a plan is executed is a set of notes, each about the entry at one place. A call
that succeeds changes two places at most, so every note about another place stays true, and others
do not touch any of the places the notes are about.
-/

namespace SupernoteModule.Generation.GenerationExecution

open SupernoteModule.Filesystem SupernoteModule.Lib SupernoteModule.Lib.Program
open SupernoteModule.Python
open SupernoteModule.Generation.GenerationPlan (OwnedArtifact Plan Apart ancestors mem_ancestors)
open SupernoteModule.Generation.IntegrityManifest (integrityManifestPath)

/-! ### Notes -/

inductive Note where
  | announced
  | cleared
  | stagedMarker
  | unchanged (place : List String)
  | written (artifact : OwnedArtifact)
  | staged (artifact : OwnedArtifact)
  | checked (path : String)
  | deleted (path : String)
  | published (artifact : OwnedArtifact)

section

variable (validators : Validators) (plan : Plan) (start : FileTree) (staging : String)

def Note.fact : Note → Fact
  | .announced => ⟨markerPath, IsMarker plan⟩
  | .cleared => ⟨markerPath, fun entry => entry = none⟩
  | .stagedMarker => ⟨staging :: markerPath, IsMarker plan⟩
  | .unchanged place => ⟨place, fun entry => entry = start.find place⟩
  | .written artifact => ⟨staging :: pathParts artifact.path,
      fun entry => ∃ mode, entry = some (.file mode artifact.content)⟩
  | .staged artifact => ⟨staging :: pathParts artifact.path, IsArtifact artifact⟩
  | .checked path => ⟨pathParts path, fun entry => ∀ tree : FileTree,
      tree.find (pathParts path) = entry → validators.pathPrecondition plan path tree = .ok ()⟩
  | .deleted path => ⟨pathParts path, fun entry => entry = none⟩
  | .published artifact => ⟨pathParts artifact.path, IsArtifact artifact⟩

def Knows (notes : Set Note) (tree : FileTree) : Prop :=
  ∀ note ∈ notes, (note.fact validators plan start staging).holds
    (tree.find (note.fact validators plan start staging).place)

def Guarded (place : List String) : Prop :=
  IsStaging place ∨ place ∈ publishedPlaces plan

/-- Notes that nobody else can make false, and that keep the promise. -/
structure Sound (notes : Set Note) : Prop where
  guarded : ∀ note ∈ notes, Guarded plan (note.fact validators plan start staging).place
  consistent : ∀ tree, Knows validators plan start staging notes tree → Consistent plan start tree

end

variable {validators : Validators} {plan : Plan} {start before after : FileTree} {staging : String}
  {notes : Set Note} {path place : List String}

theorem Guarded.same (hguarded : Guarded plan place) (hforeign : Foreign plan before after) :
    after.find place = before.find place := by
  rcases hguarded with hstaging | hpublished
  · exact hforeign.staged place hstaging
  · exact hforeign.published place hpublished

def known (hsound : Sound validators plan start staging notes) :
    Assertion (executionPromise validators plan start) where
  holds := Knows validators plan start staging notes
  always := fun hknows => hsound.consistent _ hknows
  stable hforeign hknows note hnote := by
    rw [(hsound.guarded note hnote).same hforeign]
    exact hknows note hnote

/-- Fewer notes say less. -/
theorem known_mono {fewer : Set Note} {hsound : Sound validators plan start staging notes}
    {hfewer : Sound validators plan start staging fewer} (hsub : fewer ⊆ notes) :
    known hsound ≤ known hfewer :=
  fun _ hknows note hnote => hknows note (hsub hnote)

theorem solid_of_file {fact : Fact} (hfile : ∀ entry, fact.holds entry →
    ∃ mode content, entry = some (.file mode content)) : fact.Solid := by
  intro entry hholds
  obtain ⟨mode, content, rfl⟩ := hfile entry hholds
  exact ⟨_, rfl, by simp [FileTree.kind]⟩

def Note.isFile : Note → Bool
  | .announced | .stagedMarker | .written _ | .staged _ | .published _ => true
  | .cleared | .unchanged _ | .checked _ | .deleted _ => false

theorem Note.solid {note : Note} (hfile : note.isFile) :
    (note.fact validators plan start staging).Solid := by
  apply solid_of_file
  intro entry hholds
  cases note with
  | announced => exact hholds.imp fun _ hentry => ⟨_, hentry⟩
  | stagedMarker => exact hholds.imp fun _ hentry => ⟨_, hentry⟩
  | written artifact => exact hholds.imp fun _ hentry => ⟨_, hentry⟩
  | staged artifact => exact hholds.imp fun _ hentry => ⟨_, hentry.1⟩
  | published artifact => exact hholds.imp fun _ hentry => ⟨_, hentry.1⟩
  | cleared => cases hfile
  | unchanged place => cases hfile
  | checked path => cases hfile
  | deleted path => cases hfile

/-! ### What one call changes -/

theorem find_eq_of_look {mode : Nat} {content : Bytes}
    (hfile : before.find place = some (.file mode content))
    (hlook : after.look place = before.look place) : after.find place = before.find place := by
  rw [FileTree.look, FileTree.look, hfile, Option.map_some, FileTree.facts] at hlook
  obtain ⟨entry, hentry, hfacts⟩ := Option.map_eq_some_iff.mp hlook
  rw [hfile, hentry]
  cases entry with
  | file => rw [FileTree.facts, EntryFacts.file.injEq] at hfacts; rw [hfacts.1, hfacts.2]
  | directory => cases hfacts
  | symlink => cases hfacts
  | other => cases hfacts

theorem Permitted.refl (tree : FileTree) : Permitted validators plan start tree tree :=
  ⟨fun _ hne => absurd rfl hne, fun _ _ _ _ hne => absurd rfl hne⟩

theorem IsStaging.of_prefix (hstaging : IsStaging path) (hleads : path <+: place) :
    IsStaging place := by
  obtain ⟨name, rest, rfl, hname⟩ := hstaging
  obtain ⟨below, rfl⟩ := hleads
  exact ⟨name, rest ++ below, rfl, hname⟩

theorem IsStaging.of_above (hstaging : IsStaging path) (hleads : place <+: path)
    (hplace : place ≠ []) : IsStaging place := by
  obtain ⟨name, rest, rfl, hname⟩ := hstaging
  obtain ⟨first, below, rfl⟩ := List.exists_cons_of_ne_nil hplace
  obtain ⟨rfl, -⟩ := List.cons_prefix_cons.mp hleads
  exact ⟨first, below, rfl, hname⟩

theorem IsOwnStaging.isStaging (hstaging : IsOwnStaging start path) : IsStaging path := by
  obtain ⟨name, rest, rfl, hname⟩ := hstaging
  exact ⟨name, rest, rfl, hname.named⟩

theorem IsOwnStaging.of_prefix (hstaging : IsOwnStaging start path) (hleads : path <+: place) :
    IsOwnStaging start place := by
  obtain ⟨name, rest, rfl, hname⟩ := hstaging
  obtain ⟨below, rfl⟩ := hleads
  exact ⟨name, rest ++ below, rfl, hname⟩

/-- A staging place and one that is none do not meet. -/
theorem IsStaging.not_overlap (hstaging : IsStaging path) (hplace : ¬ IsStaging place)
    (hnonempty : place ≠ []) : ¬ Overlap path place := by
  rintro (hleads | hleads)
  · exact hplace (hstaging.of_prefix hleads)
  · exact hplace (hstaging.of_above hleads hnonempty)

/-- Whatever happens in the staging directory is permitted. -/
theorem permitted_of_staging (hstaging : IsOwnStaging start path)
    (hlook : ∀ place, ¬ path <+: place → after.look place = before.look place) :
    Permitted validators plan start before after := by
  constructor
  · intro place hne
    by_cases hleads : path <+: place
    · exact .inl (hstaging.of_prefix hleads)
    · exact absurd (hlook place hleads) hne
  · intro place mode content hfile hne
    by_cases hleads : path <+: place
    · exact .inl (hstaging.of_prefix hleads)
    · exact absurd (find_eq_of_look hfile (hlook place hleads)) hne

theorem permitted_of_changedAt (hstaging : IsOwnStaging start path)
    (hchanged : ChangedAt path before after) : Permitted validators plan start before after := by
  apply permitted_of_staging hstaging
  intro place hleads
  apply hchanged.elsewhere
  rintro rfl
  exact hleads List.prefix_rfl

/-- So is a missing directory above a published place. -/
theorem permitted_of_makeDirectory {host : Host} {destination : List String}
    (hdestination : destination ∈ publishedPlaces plan) (hpath : path ∈ ancestors destination)
    (hact : act host before (.makeDirectory path) = .ok ((), after)) :
    Permitted validators plan start before after := by
  obtain ⟨hleads, hne, -⟩ := mem_ancestors.mp hpath
  obtain ⟨hchanged, hfree, -, hmade⟩ := changedAt_makeDirectory hne hact
  constructor
  · intro place hlook
    by_cases hplace : place = path
    · subst hplace
      refine .inr (.inr ⟨hfree, ?_, destination, hdestination, hleads⟩)
      rw [FileTree.entryKind, hmade]
      rfl
    · exact absurd (hchanged.elsewhere place hplace) hlook
  · intro place mode content hfile hfind
    by_cases hplace : place = path
    · rw [hplace, hfree] at hfile
      cases hfile
    · exact absurd (find_eq_of_look hfile (hchanged.elsewhere place hplace)) hfind

/-- And the exchange of an entry at a published place, if a check of what is there has passed. -/
theorem permitted_of_exchange (hpath : path ∈ publishedPlaces plan)
    (hlook : ∀ place, ¬ IsOwnStaging start place → place ≠ path →
      after.look place = before.look place)
    (hchecked : path = markerPath ∨ (path = manifestPath ∧ OthersPublished plan before) ∨
      ∃ target ∈ targets plan, pathParts target = path ∧
        validators.pathPrecondition plan target before = .ok ()) :
    Permitted validators plan start before after := by
  constructor
  · intro place hne
    by_cases hstaging : IsOwnStaging start place
    · exact .inl hstaging
    · by_cases hplace : place = path
      · exact .inr (.inl (hplace ▸ hpath))
      · exact absurd (hlook place hstaging hplace) hne
  · intro place mode content hfile hne
    by_cases hstaging : IsOwnStaging start place
    · exact .inl hstaging
    · by_cases hplace : place = path
      · exact .inr (hplace ▸ hchecked)
      · exact absurd (find_eq_of_look hfile (hlook place hstaging hplace)) hne

/-! ### What one call leaves known -/

theorem knows_of_exchanged {next : Set Note} (hexchanged : Exchanged path before after)
    (hknows : Knows validators plan start staging notes before)
    (hnext : ∀ note ∈ next,
      (note ∈ notes ∧ (note.fact validators plan start staging).ClearOf path) ∨
        (note.fact validators plan start staging).holds
          (after.find (note.fact validators plan start staging).place)) :
    Knows validators plan start staging next after := by
  intro note hnote
  rcases hnext note hnote with ⟨hold, hclear⟩ | hnew
  · rw [hexchanged.keeps hclear (hknows note hold)]
    exact hknows note hold
  · exact hnew

theorem knows_of_makeDirectory {host : Host} (hpath : path ≠ [])
    (hact : act host before (.makeDirectory path) = .ok ((), after))
    (hknows : Knows validators plan start staging notes before)
    (hclear : ∀ note ∈ notes, (note.fact validators plan start staging).place <+: path →
      note.isFile) : Knows validators plan start staging notes after := by
  intro note hnote
  have hholds := hknows note hnote
  rwa [keeps_of_makeDirectory hpath hact (fun hleads => Note.solid (hclear note hnote hleads))
    hholds]

theorem Fact.clearOf_of_not_overlap {fact : Fact} (hapart : ¬ Overlap path fact.place) :
    fact.ClearOf path :=
  fun hoverlap => absurd hoverlap hapart

/-! ### Plans that can be published -/

/-- What `compare` has checked of a plan, for paths that are not reserved. -/
structure Publishable (plan : Plan) : Prop where
  distinct : (plan.artifacts.map (·.path)).Nodup
  apart : ∀ path ∈ plan.deletes, ∀ artifact ∈ plan.artifacts,
    ¬ Overlap (pathParts path) (pathParts artifact.path)
  nonempty : ∀ path ∈ plan.deletes, pathParts path ≠ []
  unreserved : ∀ path ∈ targets plan, Unreserved path

theorem markerPath_eq : markerPath = [".supernote-module", "incomplete.json"] := by
  decide

theorem manifestPath_eq : manifestPath = [".supernote-module", "manifest.json"] := by
  decide

theorem marker_not_overlap_manifest : ¬ Overlap markerPath manifestPath := by
  rw [markerPath_eq, manifestPath_eq]
  decide

theorem not_isStaging_of_head {name : String} {rest : List String}
    (hname : startsWith name stagingPrefix = false) : ¬ IsStaging (name :: rest) := by
  rintro ⟨first, below, hcons, hstarts⟩
  rw [List.cons.injEq] at hcons
  rw [← hcons.1, hname] at hstarts
  cases hstarts

theorem pathParts_artifact_ne_nil (artifact : OwnedArtifact) : pathParts artifact.path ≠ [] := by
  have hcanonical := artifact.canonicalPath
  simp only [GenerationPlan.OwnedArtifact.CanonicalPath, not_or] at hcanonical
  exact hcanonical.2.2.2.1

theorem path_eq_of_pathParts_eq {left right : OwnedArtifact}
    (hparts : pathParts left.path = pathParts right.path) : left.path = right.path := by
  have hleft := left.canonicalPath
  have hright := right.canonicalPath
  simp only [GenerationPlan.OwnedArtifact.CanonicalPath, not_or, not_not, Bool.not_eq_true]
    at hleft hright
  exact PurePosixPath.eq_of_pathParts_eq hleft.2.2.2.2.2 hleft.2.2.1 hright.2.2.2.2.2 hright.2.2.1
    hparts

namespace Publishable

variable (hplan : Publishable plan) {artifact other : OwnedArtifact}

include hplan

theorem eq_of_parts (hartifact : artifact ∈ plan.artifacts) (hother : other ∈ plan.artifacts)
    (hparts : pathParts artifact.path = pathParts other.path) : artifact = other :=
  List.inj_on_of_nodup_map hplan.distinct hartifact hother (path_eq_of_pathParts_eq hparts)

theorem unreserved_artifact (hartifact : artifact ∈ plan.artifacts) : Unreserved artifact.path :=
  hplan.unreserved _ (List.mem_append_left _ (List.mem_map_of_mem hartifact))

theorem unreserved_delete {relative : String} (hrelative : relative ∈ plan.deletes) :
    Unreserved relative :=
  hplan.unreserved _ (List.mem_append_right _ hrelative)

theorem place_ne_nil (hplace : place ∈ publishedPlaces plan) : place ≠ [] := by
  rcases List.mem_cons.mp hplace with rfl | hplace
  · rw [markerPath_eq]
    exact List.cons_ne_nil _ _
  rcases List.mem_cons.mp hplace with rfl | hplace
  · rw [manifestPath_eq]
    exact List.cons_ne_nil _ _
  obtain ⟨path, hpath, rfl⟩ := List.mem_map.mp hplace
  rcases List.mem_append.mp hpath with hartifact | hdelete
  · obtain ⟨artifact, -, rfl⟩ := List.mem_map.mp hartifact
    exact pathParts_artifact_ne_nil artifact
  · exact hplan.nonempty path hdelete

theorem not_isStaging (hplace : place ∈ publishedPlaces plan) : ¬ IsStaging place := by
  rcases List.mem_cons.mp hplace with rfl | hplace
  · rw [markerPath_eq]
    exact not_isStaging_of_head (by decide)
  rcases List.mem_cons.mp hplace with rfl | hplace
  · rw [manifestPath_eq]
    exact not_isStaging_of_head (by decide)
  obtain ⟨path, hpath, rfl⟩ := List.mem_map.mp hplace
  exact (hplan.unreserved path hpath).staging

end Publishable

theorem mem_publishedPlaces_artifact {artifact : OwnedArtifact}
    (hartifact : artifact ∈ plan.artifacts) :
    pathParts artifact.path ∈ publishedPlaces plan :=
  List.mem_cons_of_mem _ (List.mem_cons_of_mem _ (List.mem_map_of_mem
    (List.mem_append_left _ (List.mem_map_of_mem hartifact))))

theorem mem_publishedPlaces_delete {relative : String} (hrelative : relative ∈ plan.deletes) :
    pathParts relative ∈ publishedPlaces plan :=
  List.mem_cons_of_mem _ (List.mem_cons_of_mem _ (List.mem_map_of_mem
    (List.mem_append_right _ hrelative)))

theorem mem_publishedPlaces_marker : markerPath ∈ publishedPlaces plan :=
  List.mem_cons_self

theorem mem_publishedPlaces_manifest : manifestPath ∈ publishedPlaces plan :=
  List.mem_cons_of_mem _ List.mem_cons_self

/-! ### Phases -/

/-- While the artifacts are staged. -/
def stagingNotes (plan : Plan) (done : List OwnedArtifact) : Set Note :=
  {note | (∃ place ∈ publishedPlaces plan, note = .unchanged place) ∨
    ∃ artifact ∈ done, note = .staged artifact}

/-- While the output is published: some deletes are done, and some artifacts. -/
def publishingNotes (plan : Plan) (deleted : List String) (done : List OwnedArtifact) : Set Note :=
  {note | note = .announced ∨ note = .unchanged manifestPath ∨
    (∃ artifact ∈ plan.artifacts, artifact ∉ done ∧ note = .staged artifact) ∨
    (∃ path ∈ plan.deletes, path ∈ deleted ∧ path ≠ integrityManifestPath ∧
      note = .deleted path) ∨
    ∃ artifact ∈ plan.artifacts, artifact ∈ done ∧ artifact.path ≠ integrityManifestPath ∧
      note = .published artifact}

/-- When the manifest is there. -/
def outputNotes (plan : Plan) : Set Note :=
  {note | (∃ path ∈ plan.deletes, path ≠ integrityManifestPath ∧ note = .deleted path) ∨
    ∃ artifact ∈ plan.artifacts, note = .published artifact}

def recordedNotes (plan : Plan) : Set Note :=
  insert .announced (outputNotes plan)

def clearedNotes (plan : Plan) : Set Note :=
  insert .cleared (outputNotes plan)

theorem Sound.insert (hsound : Sound validators plan start staging notes) {note : Note}
    (hguarded : Guarded plan (note.fact validators plan start staging).place) :
    Sound validators plan start staging (insert note notes) := by
  constructor
  · intro other hother
    rcases Set.mem_insert_iff.mp hother with rfl | hold
    · exact hguarded
    · exact hsound.guarded other hold
  · intro tree hknows
    exact hsound.consistent tree fun other hold => hknows other (Set.mem_insert_of_mem _ hold)

theorem isOwnStaging_cons (hstaging : OwnStaging start staging) (rest : List String) :
    IsOwnStaging start (staging :: rest) :=
  ⟨staging, rest, rfl, hstaging⟩

theorem isStaging_cons (hstaging : OwnStaging start staging) (rest : List String) :
    IsStaging (staging :: rest) :=
  (isOwnStaging_cons hstaging rest).isStaging

theorem sound_stagingNotes (hstaging : OwnStaging start staging)
    (done : List OwnedArtifact) :
    Sound validators plan start staging (stagingNotes plan done) := by
  constructor
  · rintro note (⟨place, hplace, rfl⟩ | ⟨artifact, -, rfl⟩)
    · exact .inr hplace
    · exact .inl (isStaging_cons hstaging _)
  · intro tree hknows
    have hunchanged : ∀ place ∈ publishedPlaces plan, tree.find place = start.find place :=
      fun place hplace => hknows (.unchanged place) (.inl ⟨place, hplace, rfl⟩)
    constructor
    · left
      intro path hpath
      apply hunchanged
      exact List.mem_cons_of_mem _ (List.mem_cons_of_mem _ (List.mem_map_of_mem hpath))
    · exact .inl (hunchanged manifestPath mem_publishedPlaces_manifest)

theorem sound_publishingNotes (hstaging : OwnStaging start staging)
    (deleted : List String) (done : List OwnedArtifact) :
    Sound validators plan start staging (publishingNotes plan deleted done) := by
  constructor
  · rintro note
      (rfl | rfl | ⟨artifact, -, -, rfl⟩ | ⟨path, hpath, -, -, rfl⟩ | ⟨artifact, hmem, -, -, rfl⟩)
    · exact .inr mem_publishedPlaces_marker
    · exact .inr mem_publishedPlaces_manifest
    · exact .inl (isStaging_cons hstaging _)
    · exact .inr (mem_publishedPlaces_delete hpath)
    · exact .inr (mem_publishedPlaces_artifact hmem)
  · intro tree hknows
    exact ⟨.inr (.inl (hknows .announced (.inl rfl))),
      .inl (hknows (.unchanged manifestPath) (.inr (.inl rfl)))⟩

theorem complete_of_outputNotes {tree : FileTree}
    (hknows : Knows validators plan start staging (outputNotes plan) tree) :
    Complete plan tree := by
  have hartifact : ∀ artifact ∈ plan.artifacts,
      IsArtifact artifact (tree.find (pathParts artifact.path)) :=
    fun artifact hmem => hknows (.published artifact) (.inr ⟨artifact, hmem, rfl⟩)
  refine ⟨⟨fun artifact hmem _ => hartifact artifact hmem, ?_⟩, hartifact⟩
  intro path hpath hne
  exact hknows (.deleted path) (.inl ⟨path, hpath, hne, rfl⟩)

theorem sound_outputNotes : Sound validators plan start staging (outputNotes plan) := by
  constructor
  · rintro note (⟨path, hpath, -, rfl⟩ | ⟨artifact, hmem, rfl⟩)
    · exact .inr (mem_publishedPlaces_delete hpath)
    · exact .inr (mem_publishedPlaces_artifact hmem)
  · intro tree hknows
    have hcomplete := complete_of_outputNotes hknows
    exact ⟨.inr (.inr hcomplete), .inr hcomplete.others⟩

theorem sound_recordedNotes : Sound validators plan start staging (recordedNotes plan) :=
  Sound.insert sound_outputNotes (.inr mem_publishedPlaces_marker)

theorem sound_clearedNotes : Sound validators plan start staging (clearedNotes plan) :=
  Sound.insert sound_outputNotes (.inr mem_publishedPlaces_marker)

end SupernoteModule.Generation.GenerationExecution
