import SupernoteModule.Proof.LinuxAddChecks

/-!
# The Linux add fallback keeps its promise

The destination goes from what was found to the finished feature through layouts in which one entry
at most is unfinished. An add that was stopped between two entries is taken up by the next one, and
everything else that is found at the destination is refused and left as it is.
-/

namespace SupernoteModule.Filesystem.LinuxAdd

open SupernoteModule.Generation SupernoteModule.Lib SupernoteModule.Lib.Program Function
open SupernoteModule.Python (pathParts)

variable {destination parts : List String} {layout first second : Layout} {scaffold : Scaffold}
  {marker : Bytes} {conditions : Conditions} {shown : String} {opened existing : List (List String)}

/-! ### The destination -/

theorem Laid.none_of_root {tree : FileTree} (hlaid : Laid destination layout tree)
    (hroot : layout [] = none) (parts : List String) : layout parts = none := by
  cases parts with
  | nil => exact hroot
  | cons name rest =>
      by_contra hsome
      obtain ⟨mode, hmode⟩ := @Laid.directory_above destination [] layout tree hlaid name rest hsome
      rw [hroot] at hmode
      cases hmode

theorem finds_openAddDestination (hstage : Stage scaffold marker first layout) :
    Finds conditions destination hstage (∃ mode, layout [] = some (.directory mode))
      (fun _ => True) (openAddDestination destination shown) := by
  have hopening : Finds conditions destination hstage (∃ mode, layout [] = some (.directory mode))
      (fun answer => answer.1 = .directory)
      (openDirectory destination >>= fun _ => stat destination) := by
    have hopen : Finds conditions destination hstage (∃ mode, layout [] = some (.directory mode))
        (fun _ => True) (openDirectory destination) := by
      have hmeets := @meets_openDirectory destination layout first scaffold marker conditions
        hstage []
      rw [List.append_nil] at hmeets
      apply Finds.of_meets hmeets
      · exact fun _ hdirectory => ⟨hdirectory, trivial⟩
      · rintro error (hfault | ⟨hnone, -⟩)
        · exact .inl hfault.1
        · exact .inr fun ⟨mode, hmode⟩ => hnone mode hmode
    have hstat : (∃ mode, layout [] = some (.directory mode)) →
        Finds conditions destination hstage True (fun answer => answer.1 = .directory)
          (stat destination) := by
      rintro ⟨mode, hmode⟩
      have hmeets := @meets_stat destination layout first scaffold marker conditions hstage []
      rw [List.append_nil] at hmeets
      apply Finds.of_meets hmeets
      · rintro answer ⟨facts, hfacts, rfl⟩
        rw [hmode] at hfacts
        obtain rfl := Option.some.inj hfacts
        exact ⟨trivial, rfl⟩
      · rintro error (hfault | hmissing)
        · exact .inl hfault.1
        · rw [NotFound, hmode] at hmissing
          cases hmissing.1
    exact (Finds.bind hopen fun _ hdirectory _ => hstat hdirectory).congr (iff_of_eq (and_true _))
  unfold openAddDestination
  apply Meets.catching hopening
  intro result
  cases result with
  | ok answer =>
      apply Meets.given
      rintro ⟨hdirectory, hkind⟩
      exact finds_demand _ (iff_of_true hkind hdirectory)
  | error error =>
      apply Meets.given
      intro hreason
      have hraised : ∀ error, Finds conditions destination hstage
          (∃ mode, layout [] = some (.directory mode)) (fun _ : Unit => True)
          (Program.raised error) := fun _ => Meets.raised (Assertion.le_given hreason)
      cases error with
      | os kind => exact hraised _
      | fileExists message => exact hraised _
      | filesystem message => exact hraised _
      | concurrent message => exact hraised _
      | interrupt => exact hraised _

/-- What the rest of an add starts from. -/
structure Begun (scaffold : Scaffold) (marker : Bytes) (first second : Layout) : Prop where
  stage : Stage scaffold marker first second
  grown : Grown first second
  decides : Resumable scaffold marker second ↔ Startable scaffold marker first

theorem Begun.found (hfound : first [] ≠ none) : Begun scaffold marker first first := by
  refine ⟨.untouched, fun _ _ => rfl, ?_⟩
  constructor
  · exact fun hresumable => .inr hresumable
  · exact fun hstartable => hstartable.resolve_left hfound

section

variable (hempty : ∀ parts, first parts = none)

include hempty

theorem Stage.rooting (facts : Option EntryFacts) :
    Stage scaffold marker first (update first [] facts) := by
  apply Stage.filling [] (.inl (hempty []))
  · exact fun parts hsome => absurd (hempty parts) hsome
  · intro parts hne
    rw [update_of_ne hne]
    exact .inl (hempty parts)

theorem Stage.marking (facts : Option EntryFacts) :
    Stage scaffold marker first
      (update (update first [] (some (.directory 0o700))) [markerName] facts) := by
  apply Stage.filling [markerName] (.inl (hempty []))
  · exact fun parts hsome => absurd (hempty parts) hsome
  · intro parts hne
    rw [update_of_ne hne]
    by_cases hroot : parts = []
    · rw [hroot, update_self]
      exact .inr rfl
    · rw [update_of_ne hroot]
      exact .inl (hempty parts)

theorem Begun.fresh : Begun scaffold marker first
    (update (update first [] (some (.directory 0o700))) [markerName]
      (some (.file 0o600 marker))) := by
  refine ⟨.marking hempty _, fun parts hsome => absurd (hempty parts) hsome, ?_⟩
  apply iff_of_true _ (.inl (hempty []))
  have hother : ([] : List String) ≠ [markerName] := by simp
  refine ⟨?_, ?_, ?_⟩
  · rw [update_of_ne hother, update_self]
    rfl
  · rw [update_self, pending_marker]
  · intro parts
    by_cases hmarker : parts = [markerName]
    · rw [hmarker, update_self, pending_marker]
      exact .inr rfl
    · rw [update_of_ne hmarker]
      by_cases hroot : parts = []
      · rw [hroot, update_self]
        exact .inr rfl
      · rw [update_of_ne hroot]
        exact .inl (hempty parts)

end

section

variable (hdestination : destination ≠ [])
  (hmode : ∀ host, conditions.hosts host → host.newMode 0o700 = 0o700)

include hdestination hmode

theorem meets_openTarget :
    Meets (outcome
        (fun _ => .any fun second : { second // Begun scaffold marker first second } =>
          known conditions destination second.2.stage)
        fun _ => failing conditions destination scaffold marker first
          (¬ Startable scaffold marker first))
      (known conditions destination (.untouched : Stage scaffold marker first first))
      (openTarget destination shown marker) := by
  have hnone : ∀ tree, Laid destination first tree → first [] = none →
      ∀ parts, first parts = none :=
    fun tree hlaid hroot parts => hlaid.none_of_root hroot parts
  apply Meets.assuming hnone
  intro hempty
  have hmake := @meets_mkdirOpenDirectory destination first first scaffold marker conditions
    .untouched hdestination [] 0o700 shown fun hroot _ => .rooting (hempty hroot) _
  rw [List.append_nil] at hmake
  unfold openTarget
  apply Meets.catching hmake
  intro result
  cases result with
  | ok _ =>
      apply Meets.any
      intro hroot
      apply Meets.any
      rintro ⟨host, hhost⟩
      have hfree : update first [] (some (.directory (host.newMode 0o700))) [markerName] =
          none := by
        rw [update_of_ne (by simp)]
        exact hempty hroot _
      have hreachable : Reachable (update first [] (some (.directory (host.newMode 0o700))))
          [markerName] := .inr ⟨_, update_self _ _ _⟩
      have hwrite := @meets_writeAddFileExclusive destination first scaffold marker conditions _
        (.rooting (hempty hroot) (some (.directory (host.newMode 0o700)))) hdestination [markerName]
        marker 0o600 hfree hreachable (by
          intro found bytes
          rw [hmode host hhost]
          exact .marking (hempty hroot) _)
      apply hwrite.consequence (Assertion.le_refl _)
      intro written
      cases written with
      | ok _ =>
          intro tree hlaid
          change Laid destination _ tree at hlaid
          rw [hmode host hhost] at hlaid
          exact ⟨⟨_, .fresh (hempty hroot)⟩, hlaid⟩
      | error error => exact failing_mono False.elim
  | error error =>
      by_cases hexists : error = .os .fileExists
      · subst hexists
        apply Meets.given
        intro hfound
        apply (finds_openAddDestination .untouched).consequence (Assertion.le_refl _)
        intro opening
        cases opening with
        | ok _ =>
            apply Assertion.any_le
            intro _ tree hlaid
            exact ⟨⟨first, .found hfound⟩, hlaid⟩
        | error error =>
            apply Assertion.any_le
            intro hreason
            apply known_le_failing
            apply hreason.imp_right
            intro hno hstartable
            have hroot := (hstartable.resolve_left hfound).root
            exact hno ⟨_, hroot.trans pending_nil⟩
      · have hraised : Meets (outcome
            (fun _ => .any fun second : { second // Begun scaffold marker first second } =>
              known conditions destination second.2.stage)
            fun _ => failing conditions destination scaffold marker first
              (¬ Startable scaffold marker first))
            (failing conditions destination scaffold marker first (¬ Reachable first []))
            (Program.raised error : Add Unit) :=
          Meets.raised (failing_mono fun hunreachable => absurd (.inl rfl) hunreachable)
        have hstart : (if error = .os .fileExists then
            Assertion.given (first [] ≠ none) (known conditions destination
              (.untouched : Stage scaffold marker first first))
            else failing conditions destination scaffold marker first (¬ Reachable first [])) ≤
            failing conditions destination scaffold marker first (¬ Reachable first []) := by
          rw [if_neg hexists]
          exact Assertion.le_refl _
        cases error with
        | os kind =>
            cases kind with
            | fileExists => exact absurd rfl hexists
            | fileNotFound => exact hraised.strengthen hstart
            | other => exact hraised.strengthen hstart
        | fileExists message => exact hraised.strengthen hstart
        | filesystem message => exact hraised.strengthen hstart
        | concurrent message => exact hraised.strengthen hstart
        | interrupt => exact hraised.strengthen hstart

end

/-! ### Filling in -/

theorem Grown.trans (hfirst : Grown first second) (hsecond : Grown second layout) :
    Grown first layout := by
  intro parts hsome
  have hsame := hfirst parts hsome
  have hlater : second parts ≠ none := by rwa [hsame]
  rw [hsecond parts hlater, hsame]

section

variable (hdestination : destination ≠ []) (hwell : WellFormed scaffold)
  (hbegun : Begun scaffold marker first second)
  (hsecond : Resumable scaffold marker second) {done : List (List String)}

include hbegun hsecond in
theorem Progress.stage (hprogress : Progress scaffold marker second done layout) :
    Stage scaffold marker first layout :=
  .of_resumable (hbegun.decides.mp hsecond) (hbegun.grown.trans (hprogress.grown hsecond))
    hprogress.resumable

include hbegun hsecond in
theorem Progress.unfinished (hprogress : Progress scaffold marker second done layout)
    (hfree : layout parts = none) (facts : Option EntryFacts) :
    Stage scaffold marker first (update layout parts facts) :=
  .unfinished (hbegun.decides.mp hsecond) (hbegun.grown.trans (hprogress.grown hsecond))
    hprogress.resumable hfree facts

/-- What is known while entries are seen to. -/
def filling (conditions : Conditions) (destination : List String)
    (hbegun : Begun scaffold marker first second) (hsecond : Resumable scaffold marker second)
    (done : List (List String)) :
    Assertion (addPromise conditions destination scaffold marker first) :=
  .any fun layout : { layout // Progress scaffold marker second done layout } =>
    known conditions destination (layout.2.stage hbegun hsecond)

/-- The directories that are open while others are made. -/
structure Holding (scaffold : Scaffold) (second : Layout) (done opened : List (List String)) :
    Prop where
  nodup : opened.Nodup
  mem_iff : ∀ parts, parts ∈ opened ↔
    parts = [] ∨ (parts ∈ scaffold.directories.map Prod.fst ∧ (second parts ≠ none ∨ parts ∈ done))

theorem Holding.skip (hholding : Holding scaffold second done opened) (hmem : parts ∈ opened) :
    Holding scaffold second (done ++ [parts]) opened := by
  refine ⟨hholding.nodup, ?_⟩
  intro place
  constructor
  · intro hplace
    rcases (hholding.mem_iff place).mp hplace with hroot | ⟨hdirectory, hsome | hdone⟩
    · exact .inl hroot
    · exact .inr ⟨hdirectory, .inl hsome⟩
    · exact .inr ⟨hdirectory, .inr (List.mem_append_left _ hdone)⟩
  · rintro (hroot | ⟨hdirectory, hsome | hdone⟩)
    · exact (hholding.mem_iff place).mpr (.inl hroot)
    · exact (hholding.mem_iff place).mpr (.inr ⟨hdirectory, .inl hsome⟩)
    · rcases List.mem_append.mp hdone with hbefore | hnew
      · exact (hholding.mem_iff place).mpr (.inr ⟨hdirectory, .inr hbefore⟩)
      · rwa [List.mem_singleton.mp hnew]

theorem Holding.add (hholding : Holding scaffold second done opened)
    (hdirectory : parts ∈ scaffold.directories.map Prod.fst) (hnew : parts ∉ opened) :
    Holding scaffold second (done ++ [parts]) (opened ++ [parts]) := by
  refine ⟨?_, ?_⟩
  · rw [← List.concat_eq_append, List.nodup_concat]
    exact ⟨hnew, hholding.nodup⟩
  · intro place
    rw [List.mem_append, List.mem_append, List.mem_singleton, hholding.mem_iff]
    constructor
    · rintro ((hroot | ⟨hmem, hsome | hdone⟩) | rfl)
      · exact .inl hroot
      · exact .inr ⟨hmem, .inl hsome⟩
      · exact .inr ⟨hmem, .inr (.inl hdone)⟩
      · exact .inr ⟨hdirectory, .inr (.inr rfl)⟩
    · rintro (hroot | ⟨hmem, hsome | hdone | rfl⟩)
      · exact .inl (.inl hroot)
      · exact .inl (.inr ⟨hmem, .inl hsome⟩)
      · exact .inl (.inr ⟨hmem, .inr hdone⟩)
      · exact .inr rfl

include hwell in
/-- The directory above a place is there if it has been seen to. -/
theorem Progress.reachable (hprogress : Progress scaffold marker second done layout)
    (habove : parts.dropLast = [] ∨ (parts.dropLast ∈ scaffold.directories.map Prod.fst ∧
      parts.dropLast ∈ done)) : Reachable layout parts := by
  right
  rcases habove with hroot | ⟨hmem, hdone⟩
  · exact ⟨_, by rw [hroot, hprogress.resumable.root, pending_nil]⟩
  · obtain ⟨⟨place, mode⟩, hdirectory, hplace⟩ := List.mem_map.mp hmem
    have hsome := hprogress.present _ hdone
    rw [← hplace] at hsome ⊢
    exact ⟨mode, (hprogress.resumable.eq_pending hsome).trans (pending_directory hwell hdirectory)⟩

include hdestination hwell in
theorem meets_fillDirectory {before after : List (List String × Nat)}
    {directory : List String × Nat} (hsplit : scaffold.directories = before ++ directory :: after) :
    Meets (outcome
        (fun opened => .given
          (Holding scaffold second ((before ++ [directory]).map Prod.fst) opened)
          (filling conditions destination hbegun hsecond ((before ++ [directory]).map Prod.fst)))
        fun _ => failing conditions destination scaffold marker first False)
      (.given (Holding scaffold second (before.map Prod.fst) opened)
        (filling conditions destination hbegun hsecond (before.map Prod.fst)))
      (fillDirectory destination opened directory) := by
  obtain ⟨parts, mode⟩ := directory
  have hnew : parts ∉ before.map Prod.fst := (hwell.directory hsplit).2
  have hentry : (parts, mode) ∈ scaffold.directories := by
    rw [hsplit]
    exact List.mem_append_right _ List.mem_cons_self
  have hmem : parts ∈ scaffold.directories.map Prod.fst := List.mem_map_of_mem hentry
  rw [List.map_append, List.map_singleton]
  apply Meets.given
  intro hholding
  apply Meets.any
  rintro ⟨layout, hprogress⟩
  have hsame := hprogress.same parts hnew
  unfold fillDirectory
  dsimp only
  by_cases hopen : parts ∈ opened
  · rw [if_pos (includes_iff.mpr hopen)]
    apply Meets.pure
    have hsome : layout parts ≠ none := by
      rw [hsame]
      have hfound := (hholding.mem_iff parts).mp hopen
      obtain ⟨-, hsome⟩ := hfound.resolve_left (hwell.directory hsplit).1
      exact hsome.resolve_right hnew
    intro tree hlaid
    exact ⟨hholding.skip hopen, ⟨layout, hprogress.skip hsome⟩, hlaid⟩
  · rw [if_neg (mt includes_iff.mp hopen)]
    have hfree : layout parts = none := by
      rw [hsame]
      by_contra hsome
      exact hopen ((hholding.mem_iff parts).mpr (.inr ⟨hmem, .inl hsome⟩))
    have habove : parts.dropLast = [] ∨ parts.dropLast ∈ before.map Prod.fst :=
      hwell.directories_above before (parts, mode) after hsplit
    have hreachable : Reachable layout parts := by
      apply hprogress.reachable hwell
      apply habove.imp_right
      intro hbefore
      refine ⟨?_, hbefore⟩
      rw [hsplit, List.map_append]
      exact List.mem_append_left _ hbefore
    have hmade : ∀ facts, Stage scaffold marker first (update layout parts facts) :=
      fun facts => hprogress.unfinished hbegun hsecond hfree facts
    have hmake := @meets_mkdirOpenDirectory destination layout first scaffold marker conditions
      (hprogress.stage hbegun hsecond) hdestination parts mode
      ("/" ++ Python.PurePosixPath.joinComponents parts) fun _ made => hmade _
    apply Meets.bind hmake
    · intro _
      apply Meets.any
      intro _
      apply Meets.any
      intro host
      have hmoded : Stage scaffold marker first
          (update (update layout parts (some (.directory (host.1.newMode mode)))) parts
            (some (changedMode mode (.directory (host.1.newMode mode))))) := by
        rw [update_idem]
        exact hmade _
      have hchange := @meets_changeMode destination _ first scaffold marker conditions
        (hmade (some (.directory (host.1.newMode mode)))) hdestination parts _ (update_self _ _ _)
        mode hmoded
      apply Meets.andThen hchange
      intro _
      apply Meets.pure
      intro tree hlaid
      change Laid destination _ tree at hlaid
      rw [update_idem] at hlaid
      have hadded := hprogress.add hfree (.inl hmem) hwell
      rw [pending_directory hwell hentry] at hadded
      exact ⟨hholding.add hmem hopen, ⟨_, hadded⟩, hlaid⟩
    · intro error
      change (if error = .os .fileExists then .given (layout parts ≠ none) _
        else failing conditions destination scaffold marker first (¬ Reachable layout parts)) ≤ _
      split
      · exact Assertion.any_le fun hsome => absurd hfree hsome
      · exact failing_mono fun hunreachable => hunreachable hreachable

include hdestination hwell in
theorem meets_fillFile (hseen : Seen second scaffold.files existing)
    {before after : List (List String × Bytes × Nat)} {file : List String × Bytes × Nat}
    (hsplit : scaffold.files = before ++ file :: after) :
    Meets (outcome
        (fun _ => filling conditions destination hbegun hsecond
          (scaffold.directories.map Prod.fst ++ (before ++ [file]).map Prod.fst))
        fun _ => failing conditions destination scaffold marker first False)
      (filling conditions destination hbegun hsecond
        (scaffold.directories.map Prod.fst ++ before.map Prod.fst))
      (fillFile destination existing file) := by
  obtain ⟨parts, content, mode⟩ := file
  have hentry : (parts, content, mode) ∈ scaffold.files := by
    rw [hsplit]
    exact List.mem_append_right _ List.mem_cons_self
  have hmem : parts ∈ scaffold.files.map Prod.fst := List.mem_map_of_mem hentry
  have hnew : parts ∉ scaffold.directories.map Prod.fst ++ before.map Prod.fst := by
    rw [List.mem_append, not_or]
    refine ⟨hwell.apart parts hmem, ?_⟩
    have hnodup := hwell.files_nodup
    rw [hsplit, List.map_append, List.map_cons, List.nodup_append] at hnodup
    exact fun hbefore => hnodup.2.2 _ hbefore _ List.mem_cons_self rfl
  rw [List.map_append, List.map_singleton, ← List.append_assoc]
  apply Meets.any
  rintro ⟨layout, hprogress⟩
  have hsame := hprogress.same parts hnew
  unfold fillFile
  dsimp only
  by_cases hthere : parts ∈ existing
  · rw [if_pos (includes_iff.mpr hthere)]
    apply Meets.pure
    have hsome : layout parts ≠ none := by
      rw [hsame]
      exact ((hseen parts).mp hthere).2
    intro tree hlaid
    exact ⟨⟨layout, hprogress.skip hsome⟩, hlaid⟩
  · rw [if_neg (mt includes_iff.mp hthere)]
    have hfree : layout parts = none := by
      rw [hsame]
      by_contra hsome
      exact hthere ((hseen parts).mpr ⟨hmem, hsome⟩)
    have hreachable : Reachable layout parts := by
      apply hprogress.reachable hwell
      apply (hwell.files_above parts hmem).imp_right
      exact fun habove => ⟨habove, List.mem_append_left _ habove⟩
    have hwrite := @meets_writeAddFileExclusive destination first scaffold marker conditions _
      (hprogress.stage hbegun hsecond) hdestination parts content mode hfree hreachable
      fun found bytes => hprogress.unfinished hbegun hsecond hfree _
    apply hwrite.consequence (Assertion.le_refl _)
    intro result
    cases result with
    | ok _ =>
        intro tree hlaid
        have hadded := hprogress.add hfree (.inr hmem) hwell
        rw [pending_file hwell hentry] at hadded
        exact ⟨⟨_, hadded⟩, hlaid⟩
    | error error => exact Assertion.le_refl _

/-- The stage in which everything is there. -/
theorem Begun.complete (hbegun : Begun scaffold marker first second)
    (hsecond : Resumable scaffold marker second) :
    Stage scaffold marker first (pending scaffold marker) := by
  apply Stage.of_resumable (hbegun.decides.mp hsecond)
  · apply hbegun.grown.trans
    exact fun parts hsome => (hsecond.eq_pending hsome).symm
  · exact ⟨rfl, rfl, fun parts => .inr rfl⟩

/-- The open directories when all of them have been made. -/
structure AllOpened (scaffold : Scaffold) (opened : List (List String)) : Prop where
  nodup : opened.Nodup
  mem_iff : ∀ parts, parts ∈ opened ↔ parts = [] ∨ parts ∈ scaffold.directories.map Prod.fst

include hdestination hwell in
theorem meets_fillIncompleteAdd (hopened : Opened second scaffold.directories opened)
    (hseen : Seen second scaffold.files existing) :
    Meets (outcome
        (fun filled => .given (AllOpened scaffold filled)
          (known conditions destination (hbegun.complete hsecond)))
        fun _ => failing conditions destination scaffold marker first False)
      (known conditions destination hbegun.stage)
      (fillIncompleteAdd destination scaffold opened existing) := by
  have hdirectories := @Meets.fold _ _ _ _ _ _ _ _ (fillDirectory destination) scaffold.directories
    (fun _ => failing conditions destination scaffold marker first False)
    (fun done opened => .given (Holding scaffold second (done.map Prod.fst) opened)
      (filling conditions destination hbegun hsecond (done.map Prod.fst)))
    (fun before directory after opened hsplit =>
      meets_fillDirectory hdestination hwell hbegun hsecond hsplit) opened
  have hfiles := @Meets.forEach _ _ _ _ _ _ _ (fillFile destination existing) scaffold.files
    (fun _ => failing conditions destination scaffold marker first False)
    (fun done => filling conditions destination hbegun hsecond
      (scaffold.directories.map Prod.fst ++ done.map Prod.fst))
    (fun before file after hsplit =>
      meets_fillFile hdestination hwell hbegun hsecond hseen hsplit)
  have hstart : known conditions destination hbegun.stage ≤
      .given (Holding scaffold second [] opened)
        (filling conditions destination hbegun hsecond []) := by
    intro tree hlaid
    refine ⟨⟨hopened.nodup, ?_⟩, ⟨second, .start hsecond⟩, hlaid⟩
    intro place
    rw [hopened.mem_iff]
    simp
  unfold fillIncompleteAdd
  apply Meets.andThen (hdirectories.strengthen hstart)
  intro filled
  apply Meets.given
  intro hholding
  rw [List.map_nil, List.append_nil] at hfiles
  apply Meets.andThen hfiles
  intro _
  apply Meets.pure
  rintro tree ⟨⟨layout, hprogress⟩, hlaid⟩
  have hcomplete := hprogress.complete fun place hplanned => by
    rw [List.mem_append]
    exact hplanned
  subst hcomplete
  refine ⟨⟨hholding.nodup, ?_⟩, hlaid⟩
  intro place
  rw [hholding.mem_iff]
  constructor
  · rintro (hroot | ⟨hmem, -⟩)
    · exact .inl hroot
    · exact .inr hmem
  · rintro (hroot | hmem)
    · exact .inl hroot
    · exact .inr ⟨hmem, .inr hmem⟩

end

/-! ### The end of an add -/

theorem AllOpened.are_open (hallOpened : AllOpened scaffold opened) (hwell : WellFormed scaffold) :
    Opened (pending scaffold marker) scaffold.directories opened := by
  refine ⟨hallOpened.nodup, ?_, ?_⟩
  · intro place
    rw [hallOpened.mem_iff]
    constructor
    · rintro (hroot | hmem)
      · exact .inl hroot
      · exact .inr ⟨hmem, pending_of_planned hwell (.inl hmem)⟩
    · rintro (hroot | ⟨hmem, -⟩)
      · exact .inl hroot
      · exact .inr hmem
  · intro place hplace
    rcases (hallOpened.mem_iff place).mp hplace with rfl | hmem
    · exact ⟨_, pending_nil⟩
    · obtain ⟨⟨found, mode⟩, hdirectory, rfl⟩ := List.mem_map.mp hmem
      exact ⟨mode, pending_directory hwell hdirectory⟩

theorem AllOpened.length (hallOpened : AllOpened scaffold opened) (hwell : WellFormed scaffold) :
    opened.length = scaffold.directories.length + 1 := by
  have hnodup : ([] :: scaffold.directories.map Prod.fst).Nodup := by
    rw [List.nodup_cons]
    exact ⟨fun hmem => (hwell.directories_named _ hmem).1 rfl, hwell.directories_nodup⟩
  have hperm : opened.Perm ([] :: scaffold.directories.map Prod.fst) := by
    rw [List.perm_ext_iff_of_nodup hallOpened.nodup hnodup]
    intro place
    rw [hallOpened.mem_iff, List.mem_cons]
  rw [hperm.length_eq, List.length_cons, List.length_map]

theorem finds_requireCompleteAdd (hstage : Stage scaffold marker first (pending scaffold marker))
    (hwell : WellFormed scaffold) (hallOpened : AllOpened scaffold opened) :
    Finds conditions destination hstage True (fun _ => True)
      (requireCompleteAdd destination shown scaffold marker opened) := by
  have hresumable : Resumable scaffold marker (pending scaffold marker) :=
    ⟨rfl, rfl, fun _ => .inr rfl⟩
  have hopened := @AllOpened.are_open scaffold marker opened hallOpened hwell
  have hvalid : Valid (pending scaffold marker) scaffold marker opened true :=
    hresumable.valid hwell hopened fun _ => rfl
  have hstate := (@finds_validateAddState destination _ first scaffold marker conditions hstage
    shown opened true hwell hopened).congr (iff_true_intro hvalid)
  have hdone : Finds conditions destination hstage True (fun _ => True) (pure () : Add Unit) :=
    Finds.pure (fun _ => trivial) trivial
  unfold requireCompleteAdd
  apply Finds.congr _ (iff_of_eq (and_true True))
  apply Finds.bind (finds_demand _ (iff_true_intro (hallOpened.length hwell)))
  intro _ _ _
  exact (Finds.bind hstate fun _ _ _ => hdone).congr (iff_of_eq (and_true True))

section

variable (hdestination : destination ≠ []) (hwell : WellFormed scaffold)
  (hmode : ∀ host, conditions.hosts host → host.newMode 0o700 = 0o700)

include hdestination

theorem meets_finish (hstartable : Startable scaffold marker first)
    (hstage : Stage scaffold marker first (pending scaffold marker)) :
    Meets (outcome
        (fun _ => known conditions destination (.published hstartable :
          Stage scaffold marker first (published scaffold marker)))
        fun _ => failing conditions destination scaffold marker first False)
      (known conditions destination hstage)
      (changeMode destination scaffold.rootMode >>= fun _ => stat destination >>= fun _ =>
        unlink (destination ++ [markerName])) := by
  have hsealing : Stage scaffold marker first
      (update (pending scaffold marker) [] (some (changedMode scaffold.rootMode
        (.directory 0o700)))) := .sealing hstartable
  have hmarked : update (pending scaffold marker) []
      (some (changedMode scaffold.rootMode (.directory 0o700))) [markerName] =
        some (.file 0o600 marker) := by
    rw [update_of_ne (by simp), pending_marker]
  have hchange := @meets_changeMode destination _ first scaffold marker conditions hstage
    hdestination [] _ pending_nil scaffold.rootMode hsealing
  have hstat := @meets_stat destination _ first scaffold marker conditions hsealing []
  have hunlink := @meets_unlink destination _ first scaffold marker conditions hsealing hdestination
    [markerName] 0o600 marker hmarked (.published hstartable)
  rw [List.append_nil] at hchange hstat
  apply Meets.andThen hchange
  intro _
  apply Meets.bind hstat
  · intro answer
    apply Meets.given
    intro _
    exact hunlink
  · intro error
    apply Assertion.any_le
    rintro (hfault | hmissing)
    · exact known_le_failing (.inl hfault.1)
    · rw [NotFound, update_self] at hmissing
      cases hmissing.1

include hwell hmode

/-- **An add goes through its stages**, and without a fault it fails only on a destination that is
neither free nor an add that can go on. -/
theorem meets_publishScaffold :
    Meets (outcome
        (fun _ => .any fun hstartable : Startable scaffold marker first =>
          known conditions destination (.published hstartable :
            Stage scaffold marker first (published scaffold marker)))
        fun _ => failing conditions destination scaffold marker first
          (¬ Startable scaffold marker first))
      (known conditions destination (.untouched : Stage scaffold marker first first))
      (publishScaffold destination shown scaffold marker) := by
  have hsafe : ∀ error : AddError,
      (failing conditions destination scaffold marker first False) ≤
        failing conditions destination scaffold marker first (¬ Startable scaffold marker first) :=
    fun _ => failing_mono False.elim
  unfold publishScaffold
  apply Meets.andThen (meets_openTarget hdestination hmode)
  intro _
  apply Meets.any
  rintro ⟨second, hbegun⟩
  apply Meets.bind (finds_openIncompleteAdd hwell)
  · rintro ⟨opened, existing⟩
    apply Meets.given
    rintro ⟨hsecond, hopened, hseen⟩
    have hstartable := hbegun.decides.mp hsecond
    have hfill :=
      @meets_fillIncompleteAdd destination first second scaffold marker conditions opened
      existing hdestination hwell hbegun hsecond hopened hseen
    apply Meets.bind hfill _ hsafe
    intro filled
    apply Meets.given
    intro hallOpened
    apply Meets.bind (finds_requireCompleteAdd (hbegun.complete hsecond) hwell hallOpened)
    · intro _
      apply Meets.given
      intro _
      apply (meets_finish hdestination hstartable (hbegun.complete hsecond)).consequence
        (Assertion.le_refl _)
      intro result
      cases result with
      | ok _ => exact fun tree hlaid => ⟨hstartable, hlaid⟩
      | error error => exact hsafe error
    · intro error
      apply Assertion.any_le
      rintro (hfaults | hnot)
      · exact known_le_failing (.inl hfaults)
      · exact absurd trivial hnot
  · intro error
    apply Assertion.any_le
    intro hreason
    apply known_le_failing
    exact hreason.imp_right fun hnot hstartable => hnot (hbegun.decides.mpr hstartable)

end

/-! ### Runs without faults -/

/-- One host, which does what it is asked to do. -/
def quiet (host : AddHost) : Conditions :=
  ⟨fun other => other = host, False⟩

theorem reaches_quiet (host : AddHost) (program : Add Unit) (tree : FileTree) :
    Program.Reaches (addSetting (quiet host) destination) program tree
      (ofExcept (program.run (act host) tree).1) (program.run (act host) tree).2 := by
  apply reaches_run
  · exact fun world op answer after hact => .answers host rfl hact
  · exact fun world op error hact => .refuses host rfl hact

/-! ### A small feature -/

namespace Sample

def feature : FileTree :=
  .directory 0o755 [("android", .directory 0o755 [("build", .file 0o644 [7])])]

def project : FileTree :=
  .directory 0o755 [("features", .directory 0o755 [])]

def staged : Scaffold :=
  ⟨0o755, [(["android"], 0o755)], [(["android", "build"], [7], 0o644)]⟩

/-- Directories and files with the modes that were asked for, and one byte with every write. -/
def plainHost : AddHost :=
  ⟨id, 0⟩

theorem capture : captureAddScaffold feature ["android/build"] = .ok staged := by
  rfl

theorem unmarked (relative : String) (hmem : relative ∈ ["android/build"]) :
    ¬ [markerName] <+: pathParts relative := by
  rw [List.mem_singleton.mp hmem]
  decide

theorem laid :
    Laid ["features", "clock"] (fun parts => project.look (["features", "clock"] ++ parts))
      project :=
  ⟨rfl, fun _ => rfl⟩

theorem free : project.look (["features", "clock"] ++ []) = none :=
  rfl

/-- The add of the feature. -/
def publish : Add Unit :=
  publishLinuxAddScaffold (fun _ => "") feature ["android/build"] ["features", "clock"]
    "/project/features/clock"

end Sample

theorem Sample.quiet_newMode (host : AddHost) (hhost : (quiet Sample.plainHost).hosts host) :
    host.newMode 0o700 = 0o700 := by
  rw [show host = Sample.plainHost from hhost]
  rfl

/-! ### Whole runs -/

section

variable {sha256 : Bytes → String} {source : FileTree} {expectedFiles : List String}
  {before after : FileTree}

theorem publishLinuxAddScaffold_eq
    (hcapture : captureAddScaffold source expectedFiles = .ok scaffold) :
    publishLinuxAddScaffold sha256 source expectedFiles destination shown =
      publishScaffold destination shown scaffold
        (addMarkerPayload sha256 (destination.getLastD "") scaffold) := by
  rw [publishLinuxAddScaffold, hcapture]
  rfl

variable (hdestination : destination ≠ [])
  (hmode : ∀ host, conditions.hosts host → host.newMode 0o700 = 0o700)
  (hunmarked : ∀ relative ∈ expectedFiles, ¬ [markerName] <+: pathParts relative)
  (hcapture : captureAddScaffold source expectedFiles = .ok scaffold)
  (hlaid : Laid destination first before)

include hunmarked hcapture in
theorem wellFormed_of_capture : WellFormed scaffold := by
  apply (captured_of_capture hcapture).wellFormed
  intro parts hmem
  obtain ⟨relative, hrelative, rfl⟩ := List.mem_map.mp hmem
  exact hunmarked relative hrelative

include hunmarked hcapture in
theorem look_published {tree : FileTree} {marker : Bytes}
    (hpublished : Laid destination (published scaffold marker) tree) :
    tree.look destination = some (.directory source.mode) ∧
      (∀ parts, Expected expectedFiles parts →
        tree.look (destination ++ parts) = source.look parts) ∧
      ∀ parts, parts ≠ [] → ¬ Expected expectedFiles parts →
        tree.look (destination ++ parts) = none := by
  have hcaptured := captured_of_capture hcapture
  have hwell := wellFormed_of_capture hunmarked hcapture
  have hexpected : ∀ parts, Planned scaffold parts ↔ Expected expectedFiles parts := by
    intro parts
    rw [hcaptured.planned_iff, Expected]
    simp only [List.mem_map, exists_exists_and_eq_and]
  refine ⟨?_, ?_, ?_⟩
  · have hroot := hpublished.look []
    rw [List.append_nil] at hroot
    rw [hroot, published, update_of_ne (by simp), sealing, update_self, hcaptured.root]
  · intro parts hparts
    rw [hpublished.look]
    exact hcaptured.published hwell ((hexpected parts).mpr hparts)
  · intro parts hnil hparts
    rw [hpublished.look]
    by_cases hmarker : parts = [markerName]
    · rw [hmarker, published, update_self]
    · rw [published, update_of_ne hmarker, sealing, update_of_ne hnil]
      by_contra hsome
      exact hparts ((hexpected parts).mp (planned_of_pending hsome hnil hmarker))

include hdestination hmode hunmarked hcapture in
theorem meets_publishLinuxAddScaffold (first : Layout) :
    Meets (outcome
        (fun _ => .any fun hstartable : Startable scaffold
            (addMarkerPayload sha256 (destination.getLastD "") scaffold) first =>
          known conditions destination (.published hstartable))
        fun _ => failing conditions destination scaffold
          (addMarkerPayload sha256 (destination.getLastD "") scaffold) first
          (¬ Startable scaffold (addMarkerPayload sha256 (destination.getLastD "") scaffold) first))
      (known conditions destination (.untouched : Stage scaffold _ first first))
      (publishLinuxAddScaffold sha256 source expectedFiles destination shown) := by
  rw [publishLinuxAddScaffold_eq hcapture]
  exact meets_publishScaffold hdestination (wellFormed_of_capture hunmarked hcapture) hmode

include hdestination hunmarked hcapture hlaid in
theorem run_publish {host : AddHost} (hnewMode : host.newMode 0o700 = 0o700) :
    (Startable scaffold (addMarkerPayload sha256 (destination.getLastD "") scaffold) first ∧
      ∃ after, (publishLinuxAddScaffold sha256 source expectedFiles destination shown).run
        (act host) before = (.ok (), after) ∧
        Laid destination
          (published scaffold (addMarkerPayload sha256 (destination.getLastD "") scaffold)) after) ∨
    (¬ Startable scaffold (addMarkerPayload sha256 (destination.getLastD "") scaffold) first ∧
      ∃ error after, (publishLinuxAddScaffold sha256 source expectedFiles destination shown).run
        (act host) before = (.error error, after) ∧ Laid destination first after) := by
  have hquiet : ∀ other, (quiet host).hosts other → other.newMode 0o700 = 0o700 := by
    rintro other rfl
    exact hnewMode
  have hmeets := @meets_publishLinuxAddScaffold destination scaffold (quiet host) shown sha256
    source expectedFiles hdestination hquiet hunmarked hcapture first
  have hreaches := @reaches_quiet destination host
    (publishLinuxAddScaffold sha256 source expectedFiles destination shown) before
  generalize (publishLinuxAddScaffold sha256 source expectedFiles destination shown).run (act host)
    before = ran at hreaches ⊢
  obtain ⟨result, after⟩ := ran
  cases result with
  | ok _ =>
      obtain ⟨hstartable, hpublished⟩ := hmeets.returns hlaid hreaches
      exact .inl ⟨hstartable, after, rfl, hpublished⟩
  | error error =>
      obtain ⟨hreason, hkept⟩ := hmeets.raises hlaid hreaches
      have hnot := hreason.resolve_left id
      right
      refine ⟨hnot, error, after, rfl, ?_⟩
      obtain ⟨layout, hlayout, hstage⟩ := hkept
      cases hstage with
      | untouched => exact hlayout
      | filling _ hstartable => exact absurd hstartable hnot
      | sealing hstartable => exact absurd hstartable hnot
      | published hstartable => exact absurd hstartable hnot

include hdestination hmode hunmarked hcapture hlaid in
/-- **Wherever an add is stopped, what was found is still there and one entry at most is
unfinished.** Nothing outside of the destination is changed by any call. -/
theorem publish_stages {rest : Add Unit}
    (hreaches : Program.Reaches (addSetting conditions destination)
      (publishLinuxAddScaffold sha256 source expectedFiles destination shown) before rest after) :
    (∃ layout, Laid destination layout after ∧ Stage scaffold
      (addMarkerPayload sha256 (destination.getLastD "") scaffold) first layout) ∧
    ∀ op answer next final, rest = .act op next → Performs conditions after op answer final →
      ∀ place, ¬ destination <+: place → final.look place = after.look place := by
  have hmeets := @meets_publishLinuxAddScaffold destination scaffold conditions shown sha256 source
    expectedFiles hdestination hmode hunmarked hcapture first
  constructor
  · exact hmeets.always hlaid hreaches
  · rintro op answer next final rfl hperforms
    exact hmeets.change hlaid hreaches hperforms

open Sample in
theorem publish_stages_feature :
    ∃ layout, Laid ["features", "clock"] layout (publish.run (act plainHost) project).2 ∧
      Stage staged (addMarkerPayload (fun _ => "") "clock" staged)
        (fun parts => project.look (["features", "clock"] ++ parts)) layout := by
  have hdestination : ["features", "clock"] ≠ [] := List.cons_ne_nil _ _
  have hreaches := @reaches_quiet ["features", "clock"] plainHost publish project
  exact (publish_stages hdestination quiet_newMode unmarked capture laid hreaches).1

include hdestination hmode hunmarked hcapture hlaid in
/-- **When an add returns, what is at the destination is exactly what the plan asks for**, with the
content and the permission bits that were staged. It returns only if the destination was free or an
add that could go on. -/
theorem publish_exact
    (hreaches : Program.Reaches (addSetting conditions destination)
      (publishLinuxAddScaffold sha256 source expectedFiles destination shown) before (.done ())
      after) :
    (after.look destination = some (.directory source.mode) ∧
      (∀ parts, Expected expectedFiles parts →
        after.look (destination ++ parts) = source.look parts) ∧
      ∀ parts, parts ≠ [] → ¬ Expected expectedFiles parts →
        after.look (destination ++ parts) = none) ∧
    Startable scaffold (addMarkerPayload sha256 (destination.getLastD "") scaffold) first := by
  have hmeets := @meets_publishLinuxAddScaffold destination scaffold conditions shown sha256 source
    expectedFiles hdestination hmode hunmarked hcapture first
  obtain ⟨hstartable, hpublished⟩ := hmeets.returns hlaid hreaches
  exact ⟨look_published hunmarked hcapture hpublished, hstartable⟩

open Sample in
theorem publish_exact_feature :
    ∃ after,
      Program.Reaches (addSetting (quiet plainHost) ["features", "clock"]) publish project
          (.done ()) after ∧
        after.look ["features", "clock"] = some (.directory 0o755) := by
  have hdestination : ["features", "clock"] ≠ [] := List.cons_ne_nil _ _
  have hreaches := @reaches_quiet ["features", "clock"] plainHost publish project
  rcases @run_publish ["features", "clock"] _ staged "/project/features/clock" (fun _ => "") feature
    ["android/build"] project hdestination unmarked capture laid plainHost rfl with
    ⟨-, after, hrun, -⟩ | ⟨hnot, -⟩
  · change publish.run (act plainHost) project = _ at hrun
    rw [hrun] at hreaches
    have hexact := publish_exact hdestination quiet_newMode unmarked capture laid hreaches
    exact ⟨after, hreaches, hexact.1.1⟩
  · exact absurd (.inl free) hnot

include hdestination hunmarked hcapture hlaid in
/-- **Without a fault, an add returns exactly if the destination is free or an add that can go on**,
such as a stopped run leaves between two entries. Everything else is left as it is. -/
theorem publish_quiet {host : AddHost} (hnewMode : host.newMode 0o700 = 0o700) :
    (Startable scaffold (addMarkerPayload sha256 (destination.getLastD "") scaffold) first →
      ∃ after, (publishLinuxAddScaffold sha256 source expectedFiles destination shown).run
        (act host) before = (.ok (), after) ∧
        after.look destination = some (.directory source.mode) ∧
        (∀ parts, Expected expectedFiles parts →
          after.look (destination ++ parts) = source.look parts) ∧
        ∀ parts, parts ≠ [] → ¬ Expected expectedFiles parts →
          after.look (destination ++ parts) = none) ∧
    (¬ Startable scaffold (addMarkerPayload sha256 (destination.getLastD "") scaffold) first →
      ∃ error after, (publishLinuxAddScaffold sha256 source expectedFiles destination shown).run
        (act host) before = (.error error, after) ∧
        ∀ parts, after.look (destination ++ parts) = before.look (destination ++ parts)) := by
  rcases @run_publish destination first scaffold shown sha256 source expectedFiles before
    hdestination hunmarked hcapture hlaid host hnewMode with
    ⟨hstartable, after, hrun, hpublished⟩ | ⟨hnot, error, after, hrun, hsame⟩
  · refine ⟨fun _ => ⟨after, hrun, look_published hunmarked hcapture hpublished⟩, ?_⟩
    exact fun hnot => absurd hstartable hnot
  · refine ⟨fun hstartable => absurd hstartable hnot, fun _ => ⟨error, after, hrun, ?_⟩⟩
    intro parts
    rw [hsame.look, hlaid.look]

open Sample in
theorem publish_quiet_feature :
    ∃ after, publish.run (act plainHost) project = (.ok (), after) ∧
      after.look ["features", "clock", "android", "build"] = some (.file 0o644 [7]) := by
  have hdestination : ["features", "clock"] ≠ [] := List.cons_ne_nil _ _
  obtain ⟨after, hrun, -, hexpected, -⟩ := (@publish_quiet ["features", "clock"] _ staged
    "/project/features/clock" (fun _ => "") feature ["android/build"] project hdestination unmarked
    capture laid plainHost rfl).1 (.inl free)
  have hplanned : Expected ["android/build"] ["android", "build"] :=
    ⟨List.cons_ne_nil _ _, _, List.mem_singleton_self _, List.prefix_rfl⟩
  exact ⟨after, hrun, hexpected _ hplanned⟩

end

end SupernoteModule.Filesystem.LinuxAdd
