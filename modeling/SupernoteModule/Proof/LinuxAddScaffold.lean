import SupernoteModule.Proof.GenerationPlan
import SupernoteModule.Spec.LinuxAdd

/-!
# Scaffolds

A captured scaffold names every entry once, and every directory after the one above it.
-/

namespace SupernoteModule.Filesystem.LinuxAdd

open SupernoteModule.Generation SupernoteModule.Lib SupernoteModule.Python Function

variable {scaffold : Scaffold} {marker : Bytes} {parts : List String} {mode : Nat} {content : Bytes}
  {layout first : Layout}

/-! ### Pending entries -/

theorem pending_nil : pending scaffold marker [] = some (.directory 0o700) :=
  rfl

theorem pending_marker : pending scaffold marker [markerName] = some (.file 0o600 marker) := by
  rw [pending, if_pos rfl]

theorem pending_directory (hwell : WellFormed scaffold)
    (hmem : (parts, mode) ∈ scaffold.directories) :
    pending scaffold marker parts = some (.directory mode) := by
  obtain ⟨hnil, hmarker⟩ := hwell.directories_named parts (List.mem_map_of_mem hmem)
  obtain ⟨name, rest, rfl⟩ := List.exists_cons_of_ne_nil hnil
  rw [pending, if_neg hmarker, (lookup_eq_some_iff hwell.directories_nodup).mpr hmem]

theorem pending_file (hwell : WellFormed scaffold)
    (hmem : (parts, content, mode) ∈ scaffold.files) :
    pending scaffold marker parts = some (.file mode content) := by
  have hfile : parts ∈ scaffold.files.map Prod.fst := List.mem_map_of_mem hmem
  obtain ⟨hnil, hmarker⟩ := hwell.files_named parts hfile
  have hnone : scaffold.directories.lookup parts = none := by
    rw [List.lookup_eq_none_iff]
    intro directory hdirectory
    rw [bne_iff_ne]
    rintro rfl
    exact hwell.apart directory.1 hfile (List.mem_map_of_mem hdirectory)
  obtain ⟨name, rest, rfl⟩ := List.exists_cons_of_ne_nil hnil
  rw [pending, if_neg hmarker, hnone, (lookup_eq_some_iff hwell.files_nodup).mpr hmem]
  rfl

/-- Where an entry of the scaffold can be. -/
def Planned (scaffold : Scaffold) (parts : List String) : Prop :=
  parts ∈ scaffold.directories.map Prod.fst ∨ parts ∈ scaffold.files.map Prod.fst

theorem planned_of_pending (hpending : pending scaffold marker parts ≠ none) (hnil : parts ≠ [])
    (hmarker : parts ≠ [markerName]) : Planned scaffold parts := by
  obtain ⟨name, rest, rfl⟩ := List.exists_cons_of_ne_nil hnil
  rw [pending, if_neg hmarker] at hpending
  cases hlookup : scaffold.directories.lookup (name :: rest) with
  | some mode =>
      obtain ⟨before, after, hsplit, -⟩ := List.lookup_eq_some_iff.mp hlookup
      left
      rw [hsplit, List.map_append, List.map_cons]
      exact List.mem_append_right _ List.mem_cons_self
  | none =>
      rw [hlookup] at hpending
      cases hfile : scaffold.files.lookup (name :: rest) with
      | some file =>
          obtain ⟨before, after, hsplit, -⟩ := List.lookup_eq_some_iff.mp hfile
          right
          rw [hsplit, List.map_append, List.map_cons]
          exact List.mem_append_right _ List.mem_cons_self
      | none =>
          rw [hfile] at hpending
          exact absurd rfl hpending

/-- A directory among the pending entries is the root or one of the scaffold's. -/
theorem directory_of_pending (hwell : WellFormed scaffold)
    (hpending : pending scaffold marker parts = some (.directory mode)) :
    parts = [] ∨ (parts, mode) ∈ scaffold.directories := by
  by_cases hnil : parts = []
  · exact .inl hnil
  · right
    have hmarker : parts ≠ [markerName] := by
      rintro rfl
      rw [pending_marker] at hpending
      cases hpending
    rcases planned_of_pending (hpending ▸ Option.some_ne_none _) hnil hmarker with hmem | hmem
    · obtain ⟨⟨found, other⟩, hdirectory, rfl⟩ := List.mem_map.mp hmem
      rw [pending_directory hwell hdirectory] at hpending
      cases hpending
      exact hdirectory
    · obtain ⟨⟨found, content, other⟩, hfile, rfl⟩ := List.mem_map.mp hmem
      rw [pending_file hwell hfile] at hpending
      cases hpending

theorem pending_of_planned (hwell : WellFormed scaffold) (hplanned : Planned scaffold parts) :
    pending scaffold marker parts ≠ none := by
  rcases hplanned with hmem | hmem
  · obtain ⟨⟨found, mode⟩, hdirectory, rfl⟩ := List.mem_map.mp hmem
    rw [pending_directory hwell hdirectory]
    exact Option.some_ne_none _
  · obtain ⟨⟨found, content, mode⟩, hfile, rfl⟩ := List.mem_map.mp hmem
    rw [pending_file hwell hfile]
    exact Option.some_ne_none _

/-! ### Expected names -/

/-- What may be in a directory is what the scaffold has there. -/
theorem mem_expectedChildren_iff (hwell : WellFormed scaffold) {name : String} :
    name ∈ expectedChildren scaffold parts ↔
      pending scaffold marker (parts ++ [name]) ≠ none := by
  have hnil : parts ++ [name] ≠ [] := by simp
  rw [expectedChildren, List.mem_append, List.mem_map]
  constructor
  · rintro (⟨entry, hentry, rfl⟩ | hmarker)
    · obtain ⟨hmem, hparent⟩ := List.mem_filter.mp hentry
      have hplanned : Planned scaffold entry := List.mem_append.mp hmem
      have hnamed : entry ≠ [] := by
        rcases hplanned with hdirectory | hfile
        · exact (hwell.directories_named entry hdirectory).1
        · exact (hwell.files_named entry hfile).1
      rw [← of_decide_eq_true hparent, List.getLastD_eq_getLast?,
        List.getLast?_eq_some_getLast hnamed, Option.getD_some, List.dropLast_append_getLast hnamed]
      exact pending_of_planned hwell hplanned
    · split at hmarker
      · rename_i hroot
        rw [List.mem_singleton] at hmarker
        rw [hroot, hmarker, List.nil_append, pending_marker]
        exact Option.some_ne_none _
      · exact absurd hmarker List.not_mem_nil
  · intro hpending
    by_cases hmarker : parts ++ [name] = [markerName]
    · obtain ⟨hroot, hname⟩ := List.append_eq_singleton_iff.mp hmarker |>.resolve_right (by simp)
      right
      rw [if_pos hroot, List.mem_singleton]
      exact List.singleton_inj.mp hname
    · left
      refine ⟨parts ++ [name], ?_, ?_⟩
      · rw [List.mem_filter]
        refine ⟨List.mem_append.mpr (planned_of_pending hpending hnil hmarker), ?_⟩
        rw [List.dropLast_concat]
        exact decide_eq_true rfl
      · rw [List.getLastD_eq_getLast?, List.getLast?_concat, Option.getD_some]

/-! ### Progress -/

theorem Resumable.eq_pending (hresumable : Resumable scaffold marker layout)
    (hsome : layout parts ≠ none) : layout parts = pending scaffold marker parts :=
  (hresumable.rest parts).resolve_left hsome

/-- Whatever was there is still there. -/
def Grown (first layout : Layout) : Prop :=
  ∀ parts, first parts ≠ none → layout parts = first parts

theorem Stage.of_resumable (hstartable : Startable scaffold marker first)
    (hgrown : Grown first layout) (hresumable : Resumable scaffold marker layout) :
    Stage scaffold marker first layout :=
  .filling [] hstartable hgrown fun parts _ => hresumable.rest parts

/-- While an entry is made, nothing is known of it. -/
theorem Stage.unfinished (hstartable : Startable scaffold marker first)
    (hgrown : Grown first layout) (hresumable : Resumable scaffold marker layout)
    (hfree : layout parts = none) (facts : Option EntryFacts) :
    Stage scaffold marker first (update layout parts facts) := by
  apply Stage.filling parts hstartable
  · intro place hplace
    have hsame := hgrown place hplace
    have hne : place ≠ parts := by
      rintro rfl
      rw [hfree] at hsame
      exact hplace hsame.symm
    rw [update_of_ne hne]
    exact hsame
  · intro place hne
    rw [update_of_ne hne]
    exact hresumable.rest place

/-- Some of the entries have been seen to, and the others are as they were. -/
structure Progress (scaffold : Scaffold) (marker : Bytes) (first : Layout)
    (done : List (List String)) (layout : Layout) : Prop where
  resumable : Resumable scaffold marker layout
  present : ∀ parts ∈ done, layout parts ≠ none
  same : ∀ parts, parts ∉ done → layout parts = first parts

theorem Progress.start (hresumable : Resumable scaffold marker first) :
    Progress scaffold marker first [] first :=
  ⟨hresumable, fun _ hmem => absurd hmem List.not_mem_nil, fun _ _ => rfl⟩

variable {done : List (List String)}

theorem Progress.grown (hprogress : Progress scaffold marker first done layout)
    (hfirst : Resumable scaffold marker first) : Grown first layout := by
  intro parts hsome
  by_cases hdone : parts ∈ done
  · rw [hprogress.resumable.eq_pending (hprogress.present parts hdone), hfirst.eq_pending hsome]
  · exact hprogress.same parts hdone

theorem Progress.skip (hprogress : Progress scaffold marker first done layout)
    (hsome : layout parts ≠ none) : Progress scaffold marker first (done ++ [parts]) layout := by
  refine ⟨hprogress.resumable, ?_, ?_⟩
  · intro place hplace
    rcases List.mem_append.mp hplace with hmem | hmem
    · exact hprogress.present place hmem
    · rwa [List.mem_singleton.mp hmem]
  · intro place hplace
    exact hprogress.same place fun hmem => hplace (List.mem_append_left _ hmem)

theorem Progress.add (hprogress : Progress scaffold marker first done layout)
    (hfree : layout parts = none) (hplanned : Planned scaffold parts)
    (hwell : WellFormed scaffold) :
    Progress scaffold marker first (done ++ [parts])
      (update layout parts (pending scaffold marker parts)) := by
  have hother : ∀ place, layout place ≠ none → place ≠ parts := by
    rintro place hsome rfl
    exact hsome hfree
  have hroot := hprogress.resumable.root
  have hmarked := hprogress.resumable.marked
  refine ⟨⟨?_, ?_, ?_⟩, ?_, ?_⟩
  · rw [update_of_ne (hother [] (hroot ▸ Option.some_ne_none _))]
    exact hroot
  · rw [update_of_ne (hother [markerName] (by rw [hmarked, pending_marker]; simp))]
    exact hmarked
  · intro place
    by_cases hplace : place = parts
    · rw [hplace, update_self]
      exact .inr rfl
    · rw [update_of_ne hplace]
      exact hprogress.resumable.rest place
  · intro place hmem
    by_cases hplace : place = parts
    · rw [hplace, update_self]
      exact pending_of_planned hwell hplanned
    · rw [update_of_ne hplace]
      apply hprogress.present place
      exact (List.mem_append.mp hmem).resolve_right fun hsingle =>
        hplace (List.mem_singleton.mp hsingle)
  · intro place hmem
    have hne : place ≠ parts := by
      rintro rfl
      exact hmem (List.mem_append_right _ List.mem_cons_self)
    rw [update_of_ne hne]
    exact hprogress.same place fun hdone => hmem (List.mem_append_left _ hdone)

/-- When everything has been seen to, everything is there. -/
theorem Progress.complete (hprogress : Progress scaffold marker first done layout)
    (hdone : ∀ parts, Planned scaffold parts → parts ∈ done) :
    layout = pending scaffold marker := by
  funext parts
  by_cases hnil : parts = []
  · rw [hnil, hprogress.resumable.root]
  · by_cases hmarker : parts = [markerName]
    · rw [hmarker, hprogress.resumable.marked]
    · by_cases hpending : pending scaffold marker parts = none
      · rcases hprogress.resumable.rest parts with hnone | hsame
        · rw [hnone, hpending]
        · exact hsame
      · have hplanned := planned_of_pending hpending hnil hmarker
        exact hprogress.resumable.eq_pending (hprogress.present parts (hdone parts hplanned))

/-! ### Captured scaffolds -/

theorem partsLe_total (left right : List String) :
    FileTree.partsLe left right = true ∨ FileTree.partsLe right left = true := by
  induction left generalizing right with
  | nil =>
      left
      rw [FileTree.partsLe]
  | cons first lefts ih =>
      cases right with
      | nil =>
          right
          rw [FileTree.partsLe]
      | cons other rights =>
          simp only [FileTree.partsLe, Bool.or_eq_true, Bool.and_eq_true, decide_eq_true_eq]
          rcases lt_trichotomy first other with hlt | rfl | hlt
          · exact .inl (.inl hlt)
          · exact (ih rights).imp (fun hle => .inr ⟨rfl, hle⟩) fun hle => .inr ⟨rfl, hle⟩
          · exact .inr (.inl hlt)

theorem partsLe_trans {first second third : List String}
    (hfirst : FileTree.partsLe first second = true)
    (hsecond : FileTree.partsLe second third = true) : FileTree.partsLe first third = true := by
  induction first generalizing second third with
  | nil => rw [FileTree.partsLe]
  | cons left lefts ih =>
      cases second with
      | nil => simp [FileTree.partsLe] at hfirst
      | cons middle middles =>
          cases third with
          | nil => simp [FileTree.partsLe] at hsecond
          | cons right rights =>
              simp only [FileTree.partsLe, Bool.or_eq_true, Bool.and_eq_true,
                decide_eq_true_eq] at hfirst hsecond ⊢
              rcases hfirst with hlt | ⟨rfl, hle⟩
              · rcases hsecond with hnext | ⟨rfl, -⟩
                · exact .inl (lt_trans hlt hnext)
                · exact .inl hlt
              · rcases hsecond with hnext | ⟨rfl, hrest⟩
                · exact .inl hnext
                · exact .inr ⟨rfl, ih hle hrest⟩

variable {files : List (List String)}

theorem mem_directoryPaths :
    parts ∈ directoryPaths files ↔ ∃ file ∈ files, parts <+: file ∧ parts ≠ [] ∧ parts ≠ file := by
  rw [directoryPaths, List.mem_insertionSort, List.mem_dedup, List.mem_flatMap]
  simp only [GenerationPlan.mem_ancestors]

theorem directoryPaths_nodup : (directoryPaths files).Nodup := by
  rw [directoryPaths, (List.perm_insertionSort _ _).nodup_iff]
  exact List.nodup_dedup _

/-- Shorter paths come first. -/
theorem pairwise_directoryPaths :
    (directoryPaths files).Pairwise fun left right => left.length ≤ right.length := by
  unfold directoryPaths
  have hsorted : ∀ paths : List (List String), (paths.insertionSort fun left right =>
      left.length < right.length ∨
        (left.length = right.length ∧ FileTree.partsLe left right = true)).Pairwise
      fun left right => left.length < right.length ∨
        (left.length = right.length ∧ FileTree.partsLe left right = true) := by
    intro paths
    have : Std.Total fun left right : List String => left.length < right.length ∨
        (left.length = right.length ∧ FileTree.partsLe left right = true) := by
      constructor
      intro left right
      rcases lt_trichotomy left.length right.length with hlt | heq | hlt
      · exact .inl (.inl hlt)
      · exact (partsLe_total left right).imp (fun hle => .inr ⟨heq, hle⟩)
          fun hle => .inr ⟨heq.symm, hle⟩
      · exact .inr (.inl hlt)
    have : IsTrans (List String) fun left right => left.length < right.length ∨
        (left.length = right.length ∧ FileTree.partsLe left right = true) := by
      constructor
      rintro left middle right (hlt | ⟨heq, hle⟩) (hnext | ⟨hsame, hrest⟩)
      · exact .inl (lt_trans hlt hnext)
      · exact .inl (hsame ▸ hlt)
      · exact .inl (heq ▸ hnext)
      · exact .inr ⟨heq.trans hsame, partsLe_trans hle hrest⟩
    exact List.pairwise_insertionSort _ paths
  apply (hsorted _).imp
  intro left right hordered
  omega

/-- The directory above one of the directories is the root or comes earlier. -/
theorem directoryPaths_above {before after : List (List String)}
    (hsplit : directoryPaths files = before ++ parts :: after) :
    parts.dropLast = [] ∨ parts.dropLast ∈ before := by
  by_cases hroot : parts.dropLast = []
  · exact .inl hroot
  · right
    have hmem : parts ∈ directoryPaths files := by
      rw [hsplit]
      exact List.mem_append_right _ List.mem_cons_self
    obtain ⟨file, hfile, hleads, hnil, -⟩ := mem_directoryPaths.mp hmem
    have hshorter : parts.dropLast.length < parts.length := by
      rw [List.length_dropLast]
      have := List.length_pos_iff.mpr hnil
      omega
    have habove : parts.dropLast ∈ directoryPaths files := by
      apply mem_directoryPaths.mpr
      refine ⟨file, hfile, (List.dropLast_prefix parts).trans hleads, hroot, ?_⟩
      rintro hsame
      have hle := hleads.length_le
      rw [← hsame] at hle
      omega
    rw [hsplit] at habove
    rcases List.mem_append.mp habove with hbefore | hafter
    · exact hbefore
    · have hordered := @pairwise_directoryPaths files
      rw [hsplit, List.pairwise_append] at hordered
      rcases List.mem_cons.mp hafter with hsame | hlater
      · rw [hsame] at hshorter
        exact absurd hshorter (Nat.lt_irrefl _)
      · have hle := (List.pairwise_cons.mp hordered.2.1).1 _ hlater
        omega

variable {source : FileTree} {expectedFiles : List String}

theorem parseFile_eq_ok {relative : String} (hparse : parseFile relative = .ok parts) :
    parts = pathParts relative ∧ parts ≠ [] := by
  unfold parseFile GenerationPlan.validatePersistedRelativePath require at hparse
  simp only at hparse
  split at hparse
  · rename_i hvalid
    obtain rfl := Except.ok.inj hparse
    refine ⟨rfl, ?_⟩
    intro hnone
    split at hvalid
    · rename_i hcanonical
      exact hcanonical (.inr (.inr (.inr (.inr (.inl hnone)))))
    · cases hvalid
  · cases hparse
  · cases hparse
  · cases hparse

theorem captureDirectory_eq_ok {directory : List String × Nat}
    (hcapture : captureDirectory source parts = .ok directory) :
    directory.1 = parts ∧ source.look parts = some (.directory directory.2) := by
  unfold captureDirectory at hcapture
  split at hcapture
  · rename_i mode children hfind
    obtain rfl := Except.ok.inj hcapture
    refine ⟨rfl, ?_⟩
    rw [FileTree.look, hfind]
    rfl
  · cases hcapture
  · cases hcapture

theorem captureFile_eq_ok {file : List String × Bytes × Nat}
    (hcapture : captureFile source parts = .ok file) :
    file.1 = parts ∧ source.look parts = some (.file file.2.2 file.2.1) := by
  unfold captureFile at hcapture
  split at hcapture
  · rename_i mode content hfind
    obtain rfl := Except.ok.inj hcapture
    refine ⟨rfl, ?_⟩
    rw [FileTree.look, hfind]
    rfl
  · cases hcapture
  · cases hcapture

/-- What a captured scaffold says about the staged feature. -/
structure Captured (source : FileTree) (files : List (List String)) (scaffold : Scaffold) :
    Prop where
  root : scaffold.rootMode = source.mode
  nodup : files.Nodup
  unmarked : [markerName] ∉ files
  named : ∀ parts ∈ files, parts ≠ []
  directory_names : scaffold.directories.map Prod.fst = directoryPaths files
  file_names : scaffold.files.map Prod.fst = files
  directories : ∀ directory ∈ scaffold.directories,
    source.look directory.1 = some (.directory directory.2)
  files : ∀ file ∈ scaffold.files, source.look file.1 = some (.file file.2.2 file.2.1)

theorem captured_of_capture (hcapture : captureAddScaffold source expectedFiles = .ok scaffold) :
    Captured source (expectedFiles.map pathParts) scaffold := by
  rw [captureAddScaffold, bind_eq_ok] at hcapture
  obtain ⟨parsed, hparsed, hcapture⟩ := hcapture
  have hparts : parsed = expectedFiles.map pathParts := by
    have hrelated := (mapM_eq_ok.mp hparsed).imp fun _ _ hstep => (parseFile_eq_ok hstep).1
    have hmapped : List.Forall₂ Eq (expectedFiles.map pathParts) parsed := by
      rw [List.forall₂_map_left_iff]
      exact hrelated.imp fun _ _ hsame => hsame.symm
    exact (List.forall₂_eq_eq_eq ▸ hmapped : expectedFiles.map pathParts = parsed).symm
  split at hcapture
  · cases hcapture
  · rename_i hplan
    obtain ⟨hnodup, hmarker⟩ := not_or.mp hplan
    rw [bind_eq_ok] at hcapture
    obtain ⟨directories, hdirectories, hcapture⟩ := hcapture
    rw [bind_eq_ok] at hcapture
    obtain ⟨files, hfiles, hcapture⟩ := hcapture
    obtain rfl := Except.ok.inj hcapture
    rw [← hparts]
    refine ⟨rfl, not_not.mp hnodup, mt includes_iff.mpr hmarker, ?_, ?_, ?_, ?_, ?_⟩
    · intro parts hmem
      obtain ⟨relative, -, hparse⟩ := exists_item_of_mem (mapM_eq_ok.mp hparsed) hmem
      exact (parseFile_eq_ok hparse).2
    · rw [map_eq_of_related (mapM_eq_ok.mp hdirectories) fun _ _ hstep =>
        (captureDirectory_eq_ok hstep).1]
      exact List.map_id _
    · rw [map_eq_of_related (mapM_eq_ok.mp hfiles) fun _ _ hstep => (captureFile_eq_ok hstep).1]
      exact List.map_id _
    · intro directory hmem
      obtain ⟨parts, -, hstep⟩ := exists_item_of_mem (mapM_eq_ok.mp hdirectories) hmem
      obtain ⟨rfl, hlook⟩ := captureDirectory_eq_ok hstep
      exact hlook
    · intro file hmem
      obtain ⟨parts, -, hstep⟩ := exists_item_of_mem (mapM_eq_ok.mp hfiles) hmem
      obtain ⟨rfl, hlook⟩ := captureFile_eq_ok hstep
      exact hlook

/-- **A captured scaffold is well formed**, if the plan has no file below the marker. -/
theorem Captured.wellFormed (hcaptured : Captured source files scaffold)
    (hunmarked : ∀ parts ∈ files, ¬ [markerName] <+: parts) : WellFormed scaffold := by
  have hdirectoryNames := hcaptured.directory_names
  have hfileNames := hcaptured.file_names
  refine ⟨?_, ?_, ?_, ?_, ?_, ?_, ?_⟩
  · rw [hdirectoryNames]
    exact directoryPaths_nodup
  · rw [hfileNames]
    exact hcaptured.nodup
  · intro parts hfile hdirectory
    obtain ⟨file, hfileMem, rfl⟩ := List.mem_map.mp hfile
    obtain ⟨directory, hdirectoryMem, hsame⟩ := List.mem_map.mp hdirectory
    have hregular := hcaptured.files file hfileMem
    rw [← hsame, hcaptured.directories directory hdirectoryMem] at hregular
    cases hregular
  · intro parts hmem
    rw [hdirectoryNames] at hmem
    obtain ⟨file, hfile, hleads, hnil, -⟩ := mem_directoryPaths.mp hmem
    refine ⟨hnil, ?_⟩
    rintro rfl
    exact hunmarked file hfile hleads
  · intro parts hmem
    rw [hfileNames] at hmem
    refine ⟨hcaptured.named parts hmem, ?_⟩
    rintro rfl
    exact hcaptured.unmarked hmem
  · intro before directory after hsplit
    have hpaths : directoryPaths files =
        before.map Prod.fst ++ directory.1 :: after.map Prod.fst := by
      rw [← hdirectoryNames, hsplit, List.map_append, List.map_cons]
    exact directoryPaths_above hpaths
  · intro parts hmem
    rw [hfileNames] at hmem
    by_cases hroot : parts.dropLast = []
    · exact .inl hroot
    · right
      rw [hdirectoryNames]
      apply mem_directoryPaths.mpr
      refine ⟨parts, hmem, List.dropLast_prefix parts, hroot, ?_⟩
      intro hsame
      have hlength := congrArg List.length hsame
      rw [List.length_dropLast] at hlength
      have := List.length_pos_iff.mpr (hcaptured.named parts hmem)
      omega

/-- The files of the plan and the directories above them. -/
theorem Captured.planned_iff (hcaptured : Captured source files scaffold) :
    Planned scaffold parts ↔ parts ≠ [] ∧ ∃ file ∈ files, parts <+: file := by
  rw [Planned, hcaptured.directory_names, hcaptured.file_names, mem_directoryPaths]
  constructor
  · rintro (⟨file, hfile, hleads, hnil, -⟩ | hmem)
    · exact ⟨hnil, file, hfile, hleads⟩
    · exact ⟨hcaptured.named parts hmem, parts, hmem, List.prefix_rfl⟩
  · rintro ⟨hnil, file, hfile, hleads⟩
    by_cases hsame : parts = file
    · exact .inr (hsame ▸ hfile)
    · exact .inl ⟨file, hfile, hleads, hnil, hsame⟩

/-- What is published is what was staged. -/
theorem Captured.published (hcaptured : Captured source files scaffold)
    (hwell : WellFormed scaffold) (hplanned : Planned scaffold parts) :
    published scaffold marker parts = source.look parts := by
  have hnamed : parts ≠ [] ∧ parts ≠ [markerName] := by
    rcases hplanned with hmem | hmem
    · exact hwell.directories_named parts hmem
    · exact hwell.files_named parts hmem
  rw [LinuxAdd.published, update_of_ne hnamed.2, sealing, update_of_ne hnamed.1]
  rcases hplanned with hmem | hmem
  · obtain ⟨⟨place, mode⟩, hdirectory, rfl⟩ := List.mem_map.mp hmem
    rw [pending_directory hwell hdirectory, hcaptured.directories _ hdirectory]
  · obtain ⟨⟨place, content, mode⟩, hfile, rfl⟩ := List.mem_map.mp hmem
    rw [pending_file hwell hfile, hcaptured.files _ hfile]

end SupernoteModule.Filesystem.LinuxAdd
