import SupernoteModule.Proof.LinuxAddCalls
import SupernoteModule.Proof.LinuxAddScaffold

/-!
# The checks of an add

A check changes nothing. Where the layout is known, it returns only if what it looks for holds, and
without a fault it fails only if that does not hold.
-/

namespace SupernoteModule.Filesystem.LinuxAdd

open SupernoteModule.Generation SupernoteModule.Lib SupernoteModule.Lib.Program Function

variable {destination parts : List String} {layout first : Layout} {scaffold : Scaffold}
  {marker : Bytes} {conditions : Conditions} {hstage : Stage scaffold marker first layout}
  {fact other : Prop} {Output Result Item Carried : Type}

/-! ### Programs that find out whether a fact holds -/

def Finds (conditions : Conditions) (destination : List String)
    (hstage : Stage scaffold marker first layout) (fact : Prop) (returned : Output → Prop)
    (program : Add Output) : Prop :=
  Meets (outcome
      (fun output => .given (fact ∧ returned output) (known conditions destination hstage))
      fun _ => .given (conditions.faults ∨ ¬ fact) (known conditions destination hstage))
    (known conditions destination hstage) program

section

variable {returned : Output → Prop} {program : Add Output}

/-- What a call says about the layout, put as a check. -/
theorem Finds.of_meets {answered : Output → Prop} {refused : AddError → Prop}
    (hmeets : Meets (outcome
        (fun output => .given (answered output) (known conditions destination hstage))
        fun error => .given (refused error) (known conditions destination hstage))
      (known conditions destination hstage) program)
    (hanswered : ∀ output, answered output → fact ∧ returned output)
    (hrefused : ∀ error, refused error → conditions.faults ∨ ¬ fact) :
    Finds conditions destination hstage fact returned program := by
  apply hmeets.consequence (Assertion.le_refl _)
  intro result
  cases result with
  | ok output => exact Assertion.any_le fun hanswer => Assertion.le_given (hanswered output hanswer)
  | error error => exact Assertion.any_le fun hrefuse => Assertion.le_given (hrefused error hrefuse)

theorem Finds.congr (hfinds : Finds conditions destination hstage fact returned program)
    (hfact : fact ↔ other) : Finds conditions destination hstage other returned program := by
  rwa [propext hfact] at hfinds

/-- What the known layout implies can be used. -/
theorem Finds.assuming {implied : Prop}
    (himplied : ∀ tree, Laid destination layout tree → implied)
    (hfinds : implied → Finds conditions destination hstage fact returned program) :
    Finds conditions destination hstage fact returned program :=
  Meets.assuming himplied hfinds

theorem Finds.pure {output : Output} (hreturned : fact → returned output) (hfact : fact) :
    Finds conditions destination hstage fact returned (pure output) :=
  Meets.pure (Assertion.le_given ⟨hfact, hreturned hfact⟩)

theorem Finds.raised {error : AddError} (hfact : ¬ fact) :
    Finds conditions destination hstage fact returned (Program.raised error) :=
  Meets.raised (Assertion.le_given (.inr hfact))

theorem Finds.bind {next : Result → Prop} {rest : Output → Add Result}
    (hfirst : Finds conditions destination hstage fact returned program)
    (hrest : ∀ output, fact → returned output →
      Finds conditions destination hstage other next (rest output)) :
    Finds conditions destination hstage (fact ∧ other) next (program >>= rest) := by
  apply Meets.bind hfirst
  · intro output
    apply Meets.given
    rintro ⟨hfact, hreturned⟩
    apply Finds.of_meets (hrest output hfact hreturned)
    · rintro result ⟨hother, hnext⟩
      exact ⟨⟨hfact, hother⟩, hnext⟩
    · rintro error (hfaults | hnot)
      · exact .inl hfaults
      · exact .inr fun hboth => hnot hboth.2
  · intro error
    apply Assertion.any_le
    rintro (hfaults | hnot)
    · exact Assertion.le_given (.inl hfaults)
    · exact Assertion.le_given (.inr fun hboth => hnot hboth.1)

theorem Finds.fold {body : Carried → Item → Add Carried} {items : List Item}
    (fact : Item → Prop) (inv : List Item → Carried → Prop)
    (hbody : ∀ before item after carried, items = before ++ item :: after →
      (∀ earlier ∈ before, fact earlier) → inv before carried →
      Finds conditions destination hstage (fact item) (inv (before ++ [item])) (body carried item))
    {carried : Carried} (hcarried : inv [] carried) :
    Finds conditions destination hstage (∀ item ∈ items, fact item) (inv items)
      (.fold body carried items) := by
  suffices hsuffix : ∀ before after carried, items = before ++ after →
      (∀ earlier ∈ before, fact earlier) → inv before carried →
      Finds conditions destination hstage (∀ item ∈ after, fact item) (inv items)
        (Program.fold body carried after) from
    hsuffix [] items carried rfl (fun _ hmem => absurd hmem List.not_mem_nil) hcarried
  intro before after carried hitems hbefore hinv
  induction after generalizing before carried with
  | nil =>
      rw [List.append_nil] at hitems
      subst hitems
      exact Finds.pure (fun _ => hinv) fun _ hmem => absurd hmem List.not_mem_nil
  | cons item after ih =>
      have hstep := hbody before item after carried hitems hbefore hinv
      apply (Finds.bind hstep fun next hfact hnext => ?_).congr List.forall_mem_cons.symm
      apply ih (before ++ [item]) next
      · rw [hitems, List.append_assoc, List.singleton_append]
      · intro earlier hearlier
        rcases List.mem_append.mp hearlier with hmem | hmem
        · exact hbefore earlier hmem
        · exact List.mem_singleton.mp hmem ▸ hfact
      · exact hnext

theorem Finds.forEach {body : Item → Add Unit} {items : List Item} (fact : Item → Prop)
    (hbody : ∀ item ∈ items,
      Finds conditions destination hstage (fact item) (fun _ => True) (body item)) :
    Finds conditions destination hstage (∀ item ∈ items, fact item) (fun _ => True)
      (.forEach body items) := by
  induction items with
  | nil => exact Finds.pure (fun _ => trivial) fun _ hmem => absurd hmem List.not_mem_nil
  | cons item items ih =>
      have hhead := hbody item List.mem_cons_self
      have htail := ih fun later hlater => hbody later (List.mem_cons_of_mem item hlater)
      exact (Finds.bind hhead fun _ _ _ => htail).congr List.forall_mem_cons.symm

end

/-! ### Single reads -/

theorem finds_demand {condition : Prop} [Decidable condition] (error : AddError)
    (hcondition : condition ↔ fact) :
    Finds conditions destination hstage fact (fun _ => True) (demand condition error) := by
  apply Finds.of_meets (meets_demand error)
  · exact fun _ hholds => ⟨hcondition.mp hholds, trivial⟩
  · exact fun _ hrefused => .inr fun hfact => hrefused.1 (hcondition.mpr hfact)

/-- There is an entry with these permission bits. -/
def HasMode (layout : Layout) (parts : List String) (mode : Nat) : Prop :=
  (layout parts).map EntryFacts.mode = some mode

theorem finds_mode (parts : List String) (mode : Nat) (error : AddError) :
    Finds conditions destination hstage (HasMode layout parts mode) (fun _ => True)
      (stat (destination ++ parts) >>= fun answer => demand (answer.2 = mode) error) := by
  have hstat : Finds conditions destination hstage (layout parts ≠ none)
      (fun answer => (layout parts).map EntryFacts.mode = some answer.2)
      (stat (destination ++ parts)) := by
    apply Finds.of_meets (meets_stat hstage parts)
    · rintro answer ⟨facts, hfacts, rfl⟩
      rw [hfacts]
      exact ⟨Option.some_ne_none facts, rfl⟩
    · rintro error (hfault | hmissing)
      · exact .inl hfault.1
      · exact .inr fun hsome => hsome hmissing.1
  have hboth : layout parts ≠ none ∧ HasMode layout parts mode ↔ HasMode layout parts mode := by
    constructor
    · exact And.right
    · intro hmode
      refine ⟨?_, hmode⟩
      intro hnone
      rw [HasMode, hnone] at hmode
      cases hmode
  apply (Finds.bind hstat fun answer _ hanswer => finds_demand error ?_).congr hboth
  rw [HasMode, hanswer, Option.some.injEq]

theorem finds_readAddFile (parts : List String) :
    Finds conditions destination hstage (∃ mode content, layout parts = some (.file mode content))
      (fun answer => layout parts = some (.file answer.2 answer.1))
      (readAddFile (destination ++ parts)) := by
  apply Finds.of_meets (meets_readAddFile hstage parts)
  · exact fun answer hanswer => ⟨⟨answer.2, answer.1, hanswer⟩, hanswer⟩
  · rintro error (hfault | hmissing | ⟨⟨facts, hfacts, hkind⟩, -⟩)
    · exact .inl hfault.1
    · right
      rintro ⟨mode, content, hfile⟩
      rw [NotFound, hfile] at hmissing
      cases hmissing.1
    · right
      rintro ⟨mode, content, hfile⟩
      rw [hfile] at hfacts
      obtain rfl := Option.some.inj hfacts
      exact hkind rfl

theorem finds_listDirectory {mode : Nat} (hdirectory : layout parts = some (.directory mode)) :
    Finds conditions destination hstage True
      (fun names => ∀ name, name ∈ names ↔ layout (parts ++ [name]) ≠ none)
      (listDirectory (destination ++ parts)) := by
  apply Finds.of_meets (meets_listDirectory hstage parts)
  · exact fun names hnames => ⟨trivial, hnames⟩
  · rintro error (hfault | hnone)
    · exact .inl hfault.1
    · exact absurd hdirectory (hnone mode)

/-! ### Validation -/

section

variable (scaffold layout)

/-- The directories that are open are those that are there. -/
structure Opened (directories : List (List String × Nat)) (opened : List (List String)) : Prop where
  nodup : opened.Nodup
  mem_iff : ∀ parts, parts ∈ opened ↔
    parts = [] ∨ (parts ∈ directories.map Prod.fst ∧ layout parts ≠ none)
  directory : ∀ parts ∈ opened, ∃ mode, layout parts = some (.directory mode)

/-- The files that were found are those that are there. -/
def Seen (files : List (List String × Bytes × Nat)) (existing : List (List String)) : Prop :=
  ∀ parts, parts ∈ existing ↔ parts ∈ files.map Prod.fst ∧ layout parts ≠ none

def NamesValid (complete : Bool) (parts : List String) : Prop :=
  (∀ name, layout (parts ++ [name]) ≠ none → name ∈ expectedChildren scaffold parts) ∧
    (complete = true → ∀ name ∈ expectedChildren scaffold parts, layout (parts ++ [name]) ≠ none)

def ChildValid (parts child : List String) : Prop :=
  child ≠ [] → child.dropLast = parts → HasMode layout child (expectedDirectoryMode scaffold child)

def FileValid (complete : Bool) (file : List String × Bytes × Nat) : Prop :=
  layout file.1 = some (.file file.2.2 file.2.1) ∨ (layout file.1 = none ∧ complete = false)

/-- What is validated. -/
def Valid (marker : Bytes) (opened : List (List String)) (complete : Bool) : Prop :=
  HasMode layout [] 0o700 ∧
    (∀ parts ∈ opened, NamesValid layout scaffold complete parts ∧
      ∀ child ∈ opened, ChildValid layout scaffold parts child) ∧
    layout [markerName] = some (.file 0o600 marker) ∧
    ∀ file ∈ scaffold.files, FileValid layout complete file

end

variable {shown : String} {opened : List (List String)} {complete : Bool}

theorem finds_validateAddRootMode :
    Finds conditions destination hstage (HasMode layout [] 0o700) (fun _ => True)
      (validateAddRootMode destination shown) := by
  have hmode := @finds_mode destination layout first scaffold marker conditions hstage [] 0o700
    (modified shown)
  rwa [List.append_nil] at hmode

theorem finds_validateChild (child : List String) :
    Finds conditions destination hstage (ChildValid layout scaffold parts child) (fun _ => True)
      (validateChild destination scaffold parts child) := by
  unfold validateChild
  by_cases hskip : child = [] ∨ child.dropLast ≠ parts
  · rw [if_pos hskip]
    apply Finds.pure fun _ => trivial
    intro hnil hparent
    rcases hskip with hroot | hother
    · exact absurd hroot hnil
    · exact absurd hparent hother
  · rw [if_neg hskip]
    obtain ⟨hnil, hparent⟩ := not_or.mp hskip
    apply (finds_mode child _ _).congr
    constructor
    · exact fun hmode _ _ => hmode
    · exact fun hvalid => hvalid hnil (not_not.mp hparent)

theorem finds_validateAddDirectory {mode : Nat}
    (hdirectory : layout parts = some (.directory mode)) :
    Finds conditions destination hstage
      (NamesValid layout scaffold complete parts ∧
        ∀ child ∈ opened, ChildValid layout scaffold parts child) (fun _ => True)
      (validateAddDirectory destination shown scaffold opened complete parts) := by
  unfold validateAddDirectory
  apply (Finds.bind (finds_listDirectory hdirectory) fun names _ hnames => ?_).congr
    (iff_of_eq (true_and _))
  apply Finds.bind
  · apply finds_demand
    show (names ⊆ expectedChildren scaffold parts ∧
      (complete = true → expectedChildren scaffold parts ⊆ names)) ↔ _
    constructor
    · rintro ⟨hallowed, hall⟩
      refine ⟨fun name hsome => hallowed ((hnames name).mpr hsome), ?_⟩
      exact fun hcomplete name hname => (hnames name).mp (hall hcomplete hname)
    · rintro ⟨hallowed, hall⟩
      refine ⟨fun name hname => hallowed name ((hnames name).mp hname), ?_⟩
      exact fun hcomplete name hname => (hnames name).mpr (hall hcomplete name hname)
  · exact fun _ _ _ => Finds.forEach _ fun child _ => finds_validateChild child

theorem finds_validateAddMarker :
    Finds conditions destination hstage (layout [markerName] = some (.file 0o600 marker))
      (fun _ => True) (validateAddMarker destination shown marker) := by
  unfold validateAddMarker
  have hboth : (∃ mode content, layout [markerName] = some (.file mode content)) ∧
      layout [markerName] = some (.file 0o600 marker) ↔
        layout [markerName] = some (.file 0o600 marker) := by
    constructor
    · exact And.right
    · exact fun hmarked => ⟨⟨_, _, hmarked⟩, hmarked⟩
  apply (Finds.bind (finds_readAddFile [markerName]) fun answer _ hanswer => ?_).congr hboth
  apply finds_demand
  rw [hanswer, Option.some.injEq, EntryFacts.file.injEq]
  exact and_comm

theorem Seen.skip {files : List (List String × Bytes × Nat)} {existing : List (List String)}
    {file : List String × Bytes × Nat} (hseen : Seen layout files existing)
    (hnone : layout file.1 = none) : Seen layout (files ++ [file]) existing := by
  intro place
  rw [hseen place, List.map_append, List.mem_append, List.map_singleton, List.mem_singleton]
  constructor
  · exact fun ⟨hmem, hsome⟩ => ⟨.inl hmem, hsome⟩
  · rintro ⟨hmem | rfl, hsome⟩
    · exact ⟨hmem, hsome⟩
    · exact absurd hnone hsome

theorem Seen.add {files : List (List String × Bytes × Nat)} {existing : List (List String)}
    {file : List String × Bytes × Nat} (hseen : Seen layout files existing)
    (hsome : layout file.1 ≠ none) : Seen layout (files ++ [file]) (existing ++ [file.1]) := by
  intro place
  rw [List.mem_append, hseen place, List.mem_singleton, List.map_append, List.mem_append,
    List.map_singleton, List.mem_singleton]
  constructor
  · rintro (⟨hmem, hplace⟩ | rfl)
    · exact ⟨.inl hmem, hplace⟩
    · exact ⟨.inr rfl, hsome⟩
  · rintro ⟨hmem | rfl, hplace⟩
    · exact .inl ⟨hmem, hplace⟩
    · exact .inr rfl

/-- Nothing is there where there is no directory above it. -/
theorem Laid.none_of_not_opened {tree : FileTree} (hlaid : Laid destination layout tree)
    {directories : List (List String × Nat)} (hopened : Opened layout directories opened)
    (hnil : parts ≠ [])
    (hparent : parts.dropLast = [] ∨ parts.dropLast ∈ directories.map Prod.fst)
    (hclosed : parts.dropLast ∉ opened) : layout parts = none := by
  by_contra hsome
  obtain ⟨above, name, rfl⟩ := (List.eq_nil_or_concat' parts).resolve_left hnil
  obtain ⟨mode, hmode⟩ := hlaid.directory_above hsome
  rw [List.dropLast_concat] at hparent hclosed
  apply hclosed
  rw [hopened.mem_iff]
  rcases hparent with hroot | hmem
  · exact .inl hroot
  · exact .inr ⟨hmem, hmode ▸ Option.some_ne_none _⟩

theorem finds_validateAddFile (hwell : WellFormed scaffold)
    (hopened : Opened layout scaffold.directories opened)
    {before : List (List String × Bytes × Nat)} {existing : List (List String)}
    (hseen : Seen layout before existing)
    {file : List String × Bytes × Nat} (hfile : file ∈ scaffold.files) :
    Finds conditions destination hstage (FileValid layout complete file)
      (Seen layout (before ++ [file]))
      (validateAddFile destination shown opened complete existing file) := by
  obtain ⟨parts, expectedContent, expectedMode⟩ := file
  have hmem : parts ∈ scaffold.files.map Prod.fst := List.mem_map_of_mem hfile
  -- A file that is missing is well if not everything has to be there.
  have hmissing : layout parts = none →
      Finds conditions destination hstage
        (FileValid layout complete (parts, expectedContent, expectedMode))
        (Seen layout (before ++ [(parts, expectedContent, expectedMode)]))
        (if complete = true then .raised (incomplete shown) else pure existing) := by
    intro hnone
    cases complete with
    | true =>
        rw [if_pos rfl]
        apply Finds.raised
        rintro (hpresent | ⟨-, hfalse⟩)
        · change layout parts = _ at hpresent
          rw [hnone] at hpresent
          cases hpresent
        · cases hfalse
    | false =>
        rw [if_neg Bool.false_ne_true]
        exact Finds.pure (fun _ => hseen.skip hnone) (.inr ⟨hnone, rfl⟩)
  unfold validateAddFile
  dsimp only
  by_cases hskipped : ¬ includes opened parts.dropLast
  · rw [if_pos hskipped]
    have hclosed : parts.dropLast ∉ opened := mt includes_iff.mpr hskipped
    apply Finds.assuming _ hmissing
    exact fun tree hlaid => hlaid.none_of_not_opened hopened (hwell.files_named parts hmem).1
      (hwell.files_above parts hmem) hclosed
  · rw [if_neg hskipped]
    have hopen : parts.dropLast ∈ opened := includes_iff.mp (not_not.mp hskipped)
    have hreachable : Reachable layout parts := .inr (hopened.directory _ hopen)
    apply Meets.catching (meets_readAddFile hstage parts)
    intro result
    cases result with
    | ok answer =>
        obtain ⟨content, mode⟩ := answer
        apply Meets.given
        intro hread
        change layout parts = some (.file mode content) at hread
        have hfact : (content = expectedContent ∧ mode = expectedMode) ↔
            FileValid layout complete (parts, expectedContent, expectedMode) := by
          constructor
          · rintro ⟨rfl, rfl⟩
            exact .inl hread
          · rintro (hpresent | ⟨hnone, -⟩)
            · change layout parts = _ at hpresent
              rw [hread, Option.some.injEq, EntryFacts.file.injEq] at hpresent
              exact hpresent.symm
            · change layout parts = none at hnone
              rw [hread] at hnone
              cases hnone
        have hdone : Finds conditions destination hstage True
            (Seen layout (before ++ [(parts, expectedContent, expectedMode)]))
            (pure (existing ++ [parts]) : Add (List (List String))) :=
          Finds.pure (fun _ => Seen.add hseen (hread ▸ Option.some_ne_none _)) trivial
        exact (Finds.bind (finds_demand (modified shown) hfact) fun _ _ _ => hdone).congr
          (iff_of_eq (and_true _))
    | error error =>
        apply Meets.given
        rintro (⟨hfaults, hkind⟩ | ⟨hnone, hnotFound⟩ | ⟨⟨facts, hfacts, hkind⟩, message, rfl⟩)
        · rcases hkind with rfl | rfl
          · exact Meets.raised (Assertion.le_given (.inl hfaults))
          · exact Meets.raised (Assertion.le_given (.inl hfaults))
        · obtain rfl := hnotFound hreachable
          exact hmissing hnone
        · apply Finds.raised
          rintro (hpresent | ⟨hnone, -⟩)
          · change layout parts = _ at hpresent
            rw [hfacts] at hpresent
            obtain rfl := Option.some.inj hpresent
            exact hkind rfl
          · change layout parts = none at hnone
            rw [hfacts] at hnone
            cases hnone

theorem finds_validateAddState (hwell : WellFormed scaffold)
    (hopened : Opened layout scaffold.directories opened) :
    Finds conditions destination hstage (Valid layout scaffold marker opened complete)
      (Seen layout scaffold.files)
      (validateAddState destination shown scaffold marker opened complete) := by
  unfold validateAddState
  apply Finds.bind finds_validateAddRootMode
  intro _ _ _
  apply Finds.bind
  · apply Finds.forEach
    intro parts hparts
    obtain ⟨mode, hdirectory⟩ := hopened.directory parts hparts
    exact finds_validateAddDirectory hdirectory
  · intro _ _ _
    apply Finds.bind finds_validateAddMarker
    intro _ _ _
    apply Finds.fold _ (fun done existing => Seen layout done existing)
    · intro before file after existing hsplit _ hseen
      apply finds_validateAddFile hwell hopened hseen
      rw [hsplit]
      exact List.mem_append_right _ List.mem_cons_self
    · intro place
      simp

/-! ### What is there already -/

def DirectoryValid (layout : Layout) (directory : List String × Nat) : Prop :=
  layout directory.1 = none ∨ layout directory.1 = some (.directory directory.2)

theorem Opened.skip {before : List (List String × Nat)} {directory : List String × Nat}
    (hopened : Opened layout before opened) (hnone : layout directory.1 = none) :
    Opened layout (before ++ [directory]) opened := by
  refine ⟨hopened.nodup, ?_, hopened.directory⟩
  intro place
  rw [hopened.mem_iff, List.map_append, List.mem_append, List.map_singleton, List.mem_singleton]
  constructor
  · rintro (hroot | ⟨hmem, hsome⟩)
    · exact .inl hroot
    · exact .inr ⟨.inl hmem, hsome⟩
  · rintro (hroot | ⟨hmem | rfl, hsome⟩)
    · exact .inl hroot
    · exact .inr ⟨hmem, hsome⟩
    · exact absurd hnone hsome

theorem Opened.add {before : List (List String × Nat)} {directory : List String × Nat} {mode : Nat}
    (hopened : Opened layout before opened) (hnew : directory.1 ∉ opened)
    (hdirectory : layout directory.1 = some (.directory mode)) :
    Opened layout (before ++ [directory]) (opened ++ [directory.1]) := by
  refine ⟨?_, ?_, ?_⟩
  · rw [← List.concat_eq_append, List.nodup_concat]
    exact ⟨hnew, hopened.nodup⟩
  · intro place
    rw [List.mem_append, hopened.mem_iff, List.map_append, List.mem_append, List.map_singleton,
      List.mem_singleton]
    constructor
    · rintro ((hroot | ⟨hmem, hsome⟩) | rfl)
      · exact .inl hroot
      · exact .inr ⟨.inl hmem, hsome⟩
      · exact .inr ⟨.inr rfl, hdirectory ▸ Option.some_ne_none _⟩
    · rintro (hroot | ⟨hmem | rfl, hsome⟩)
      · exact .inl (.inl hroot)
      · exact .inl (.inr ⟨hmem, hsome⟩)
      · exact .inr rfl
  · intro place hmem
    rcases List.mem_append.mp hmem with hold | hnew
    · exact hopened.directory place hold
    · exact ⟨mode, List.mem_singleton.mp hnew ▸ hdirectory⟩

/-- One directory of a well formed scaffold, among those that were seen to before. -/
theorem WellFormed.directory (hwell : WellFormed scaffold) {before after : List (List String × Nat)}
    {directory : List String × Nat} (hsplit : scaffold.directories = before ++ directory :: after) :
    directory.1 ≠ [] ∧ directory.1 ∉ before.map Prod.fst := by
  have hnodup := hwell.directories_nodup
  rw [hsplit, List.map_append, List.map_cons, List.nodup_append] at hnodup
  refine ⟨(hwell.directories_named directory.1 ?_).1, ?_⟩
  · rw [hsplit, List.map_append, List.map_cons]
    exact List.mem_append_right _ List.mem_cons_self
  · exact fun hmem => hnodup.2.2 _ hmem _ List.mem_cons_self rfl

theorem finds_openExisting (hwell : WellFormed scaffold) {before after : List (List String × Nat)}
    {directory : List String × Nat} (hsplit : scaffold.directories = before ++ directory :: after)
    (hopened : Opened layout before opened) :
    Finds conditions destination hstage (DirectoryValid layout directory)
      (Opened layout (before ++ [directory]))
      (openExisting destination shown opened directory) := by
  obtain ⟨parts, expectedMode⟩ := directory
  obtain ⟨hnil, hnew⟩ := hwell.directory hsplit
  change parts ≠ [] at hnil
  have hmissing : layout parts = none → Finds conditions destination hstage
      (DirectoryValid layout (parts, expectedMode))
      (Opened layout (before ++ [(parts, expectedMode)])) (pure opened) := by
    intro hnone
    exact Finds.pure (fun _ => hopened.skip hnone) (.inl hnone)
  unfold openExisting
  dsimp only
  by_cases hskipped : ¬ includes opened parts.dropLast
  · rw [if_pos hskipped]
    have hclosed : parts.dropLast ∉ opened := mt includes_iff.mpr hskipped
    apply Finds.assuming _ hmissing
    exact fun tree hlaid => hlaid.none_of_not_opened hopened hnil
      (hwell.directories_above before (parts, expectedMode) after hsplit) hclosed
  · rw [if_neg hskipped]
    have hopen : parts.dropLast ∈ opened := includes_iff.mp (not_not.mp hskipped)
    have hreachable : Reachable layout parts := .inr (hopened.directory _ hopen)
    apply Meets.catching (meets_stat hstage parts)
    intro result
    cases result with
    | ok answer =>
        obtain ⟨kind, mode⟩ := answer
        apply Meets.given
        rintro ⟨facts, hfacts, hanswer⟩
        obtain ⟨rfl, rfl⟩ := Prod.mk.inj hanswer
        have hsome : layout parts ≠ none := hfacts ▸ Option.some_ne_none facts
        have hopening : Finds conditions destination hstage
            (∃ mode, layout parts = some (.directory mode)) (fun _ => True)
            (openMatchingAddDirectory (destination ++ parts)
              "Incomplete add directory changed while inspected") := by
          apply Finds.of_meets (meets_openMatchingAddDirectory hstage parts _)
          · exact fun _ hdirectory => ⟨hdirectory, trivial⟩
          · rintro _ (hfaults | hnone)
            · exact .inl hfaults
            · exact .inr fun ⟨mode, hmode⟩ => hnone mode hmode
        have hrest : ∀ mode, layout parts = some (.directory mode) →
            Finds conditions destination hstage (DirectoryValid layout (parts, expectedMode))
              (Opened layout (before ++ [(parts, expectedMode)]))
              (demand (facts.mode = expectedMode) (modified shown) >>= fun _ =>
                pure (opened ++ [parts])) := by
          intro mode hdirectory
          have hmode : facts.mode = expectedMode ↔ DirectoryValid layout (parts, expectedMode) := by
            obtain rfl := Option.some.inj (hfacts.symm.trans hdirectory)
            constructor
            · rintro rfl
              exact .inr hdirectory
            · rintro (hnone | hvalid)
              · exact absurd hnone hsome
              · obtain hsame := Option.some.inj (hdirectory.symm.trans hvalid)
                exact EntryFacts.directory.inj hsame
          have hclosing : parts ∉ opened := by
            rw [hopened.mem_iff, not_or]
            exact ⟨hnil, fun hmem => hnew hmem.1⟩
          have hdone : Finds conditions destination hstage True
              (Opened layout (before ++ [(parts, expectedMode)]))
              (pure (opened ++ [parts]) : Add (List (List String))) :=
            Finds.pure (fun _ => hopened.add hclosing hdirectory) trivial
          exact (Finds.bind (finds_demand _ hmode) fun _ _ _ => hdone).congr
            (iff_of_eq (and_true _))
        have hboth : (∃ mode, layout parts = some (.directory mode)) ∧
            DirectoryValid layout (parts, expectedMode) ↔
              DirectoryValid layout (parts, expectedMode) := by
          constructor
          · exact And.right
          · intro hvalid
            exact ⟨⟨_, hvalid.resolve_left hsome⟩, hvalid⟩
        exact (Finds.bind hopening fun _ ⟨mode, hmode⟩ _ => hrest mode hmode).congr hboth
    | error error =>
        apply Meets.given
        rintro (⟨hfaults, hkind⟩ | ⟨hnone, hnotFound⟩)
        · rcases hkind with rfl | rfl
          · exact Meets.raised (Assertion.le_given (.inl hfaults))
          · exact Meets.raised (Assertion.le_given (.inl hfaults))
        · obtain rfl := hnotFound hreachable
          exact hmissing hnone

/-! ### Validation decides whether an add can go on -/

theorem resumable_of_valid {tree : FileTree} (hlaid : Laid destination layout tree)
    (hwell : WellFormed scaffold) (hopened : Opened layout scaffold.directories opened)
    (hdirectories : ∀ directory ∈ scaffold.directories, DirectoryValid layout directory)
    (hvalid : Valid layout scaffold marker opened complete) :
    Resumable scaffold marker layout := by
  obtain ⟨hroot, hnames, hmarked, hfiles⟩ := hvalid
  have hrootHere : layout [] = pending scaffold marker [] := by
    obtain ⟨mode, hmode⟩ := hopened.directory [] ((hopened.mem_iff []).mpr (.inl rfl))
    rw [HasMode, hmode] at hroot
    rw [hmode, pending_nil, ← Option.some.inj hroot]
    rfl
  have hmarkedHere : layout [markerName] = pending scaffold marker [markerName] := by
    rw [pending_marker]
    exact hmarked
  refine ⟨hrootHere, hmarkedHere, ?_⟩
  intro parts
  induction parts using List.reverseRecOn with
  | nil => exact .inr hrootHere
  | append_singleton above name ih =>
      by_cases hsome : layout (above ++ [name]) = none
      · exact .inl hsome
      · right
        -- The directory above is one of the scaffold's, so its names are the expected ones.
        obtain ⟨mode, hmode⟩ := hlaid.directory_above hsome
        rw [hmode] at ih
        have habove := directory_of_pending hwell (ih.resolve_left (Option.some_ne_none _)).symm
        have hmem : above ∈ opened := by
          rw [hopened.mem_iff]
          rcases habove with hnil | hdirectory
          · exact .inl hnil
          · exact .inr ⟨List.mem_map_of_mem hdirectory, hmode ▸ Option.some_ne_none _⟩
        have hexpected : pending scaffold marker (above ++ [name]) ≠ none :=
          (mem_expectedChildren_iff hwell).mp ((hnames above hmem).1.1 name hsome)
        by_cases hmarker : above ++ [name] = [markerName]
        · rw [hmarker]
          exact hmarkedHere
        · rcases planned_of_pending hexpected (by simp) hmarker with hplanned | hplanned
          · obtain ⟨⟨parts, expectedMode⟩, hdirectory, hparts⟩ := List.mem_map.mp hplanned
            change parts = above ++ [name] at hparts
            subst hparts
            rw [pending_directory hwell hdirectory]
            exact (hdirectories _ hdirectory).resolve_left hsome
          · obtain ⟨⟨parts, content, expectedMode⟩, hfile, hparts⟩ := List.mem_map.mp hplanned
            change parts = above ++ [name] at hparts
            subst hparts
            rw [pending_file hwell hfile]
            exact (hfiles _ hfile).resolve_right fun hnone => hsome hnone.1

theorem Resumable.valid (hresumable : Resumable scaffold marker layout)
    (hwell : WellFormed scaffold) (hopened : Opened layout scaffold.directories opened)
    (hcomplete : complete = true → layout = pending scaffold marker) :
    Valid layout scaffold marker opened complete := by
  refine ⟨?_, ?_, ?_, ?_⟩
  · rw [HasMode, hresumable.root, pending_nil]
    rfl
  · intro parts _
    refine ⟨⟨?_, ?_⟩, ?_⟩
    · intro name hsome
      rw [mem_expectedChildren_iff hwell, ← hresumable.eq_pending hsome]
      exact hsome
    · intro htrue name hname
      rw [hcomplete htrue]
      exact (mem_expectedChildren_iff hwell).mp hname
    · intro child hchild hnil _
      obtain ⟨hmem, hsome⟩ := ((hopened.mem_iff child).mp hchild).resolve_left hnil
      obtain ⟨⟨place, mode⟩, hdirectory, rfl⟩ := List.mem_map.mp hmem
      rw [HasMode, hresumable.eq_pending hsome, pending_directory hwell hdirectory,
        expectedDirectoryMode, (Python.lookup_eq_some_iff hwell.directories_nodup).mpr hdirectory]
      rfl
  · rw [hresumable.marked, pending_marker]
  · rintro ⟨parts, content, mode⟩ hfile
    have hpending := @pending_file scaffold marker parts mode content hwell hfile
    by_cases hnone : layout parts = none
    · right
      refine ⟨hnone, ?_⟩
      rw [← Bool.not_eq_true]
      intro htrue
      rw [hcomplete htrue, hpending] at hnone
      cases hnone
    · left
      exact (hresumable.eq_pending hnone).trans hpending

theorem Resumable.directoryValid (hresumable : Resumable scaffold marker layout)
    (hwell : WellFormed scaffold) {directory : List String × Nat}
    (hmem : directory ∈ scaffold.directories) : DirectoryValid layout directory := by
  by_cases hnone : layout directory.1 = none
  · exact .inl hnone
  · right
    rw [hresumable.eq_pending hnone]
    exact pending_directory hwell hmem

/-- Where the marker cannot be read, no add can go on. -/
theorem Resumable.not_unreadable {error : AddError}
    (hunreadable : Unreadable conditions layout [markerName] error) :
    conditions.faults ∨ ¬ Resumable scaffold marker layout := by
  rcases hunreadable with hfault | hmissing | ⟨⟨facts, hfacts, hkind⟩, -⟩
  · exact .inl hfault.1
  · right
    intro hresumable
    rw [NotFound, hresumable.marked, pending_marker] at hmissing
    cases hmissing.1
  · right
    intro hresumable
    rw [hresumable.marked, pending_marker] at hfacts
    obtain rfl := Option.some.inj hfacts
    exact hkind rfl

/-- Opening the directories that are there finds out whether they are as planned. -/
theorem finds_openDirectories (hwell : WellFormed scaffold) {below : List String}
    (hbelow : layout below ≠ none) (hnil : below ≠ []) :
    Finds conditions destination hstage
      (∀ directory ∈ scaffold.directories, DirectoryValid layout directory)
      (Opened layout scaffold.directories)
      (.fold (openExisting destination shown) [[]] scaffold.directories) := by
  have hroot : ∀ tree, Laid destination layout tree →
      ∃ mode, layout [] = some (.directory mode) := by
    intro tree hlaid
    obtain ⟨name, rest, rfl⟩ := List.exists_cons_of_ne_nil hnil
    have hbelow : layout ([] ++ name :: rest) ≠ none := hbelow
    exact hlaid.directory_above hbelow
  apply Finds.assuming hroot
  intro hrootDirectory
  apply Finds.fold _ (fun done opened => Opened layout done opened)
  · intro before directory after opened hsplit _ hopened
    exact finds_openExisting hwell hsplit hopened
  · refine ⟨List.nodup_singleton _, ?_, ?_⟩
    · intro place
      simp
    · intro place hmem
      rw [List.mem_singleton.mp hmem]
      exact hrootDirectory

/-- With the directories open, validation finds out whether the add can go on. -/
theorem finds_validated (hwell : WellFormed scaffold)
    (hdirectories : ∀ directory ∈ scaffold.directories, DirectoryValid layout directory)
    (hopened : Opened layout scaffold.directories opened) :
    Finds conditions destination hstage (Resumable scaffold marker layout)
      (fun found => Opened layout scaffold.directories found.1 ∧ Seen layout scaffold.files found.2)
      (validateAddState destination shown scaffold marker opened false >>= fun existing =>
        pure (opened, existing)) := by
  have hdecides : ∀ tree, Laid destination layout tree →
      (Valid layout scaffold marker opened false ↔ Resumable scaffold marker layout) := by
    intro tree hlaid
    constructor
    · exact resumable_of_valid hlaid hwell hopened hdirectories
    · exact fun hresumable => hresumable.valid hwell hopened fun hfalse => by cases hfalse
  apply Finds.assuming hdecides
  intro hsame
  have hstate := (@finds_validateAddState destination layout first scaffold marker conditions
    hstage shown opened false hwell hopened).congr hsame
  have hdone : ∀ existing, Seen layout scaffold.files existing →
      Finds conditions destination hstage True
        (fun found : List (List String) × List (List String) =>
          Opened layout scaffold.directories found.1 ∧ Seen layout scaffold.files found.2)
        (pure (opened, existing)) :=
    fun existing hseen => Finds.pure (fun _ => ⟨hopened, hseen⟩) trivial
  exact (Finds.bind hstate fun existing _ hseen => hdone existing hseen).congr
    (iff_of_eq (and_true _))

/-- **`_open_incomplete_add` accepts exactly the adds that can go on.** -/
theorem finds_openIncompleteAdd (hwell : WellFormed scaffold) :
    Finds conditions destination hstage (Resumable scaffold marker layout)
      (fun found => Opened layout scaffold.directories found.1 ∧ Seen layout scaffold.files found.2)
      (openIncompleteAdd destination shown scaffold marker) := by
  unfold openIncompleteAdd
  apply Meets.catching (meets_readAddFile hstage [markerName])
  intro result
  cases result with
  | error error =>
      apply Meets.given
      intro hunreadable
      have hraised : ∀ error, Finds conditions destination hstage (Resumable scaffold marker layout)
          (fun found : List (List String) × List (List String) =>
            Opened layout scaffold.directories found.1 ∧ Seen layout scaffold.files found.2)
          (Program.raised error) :=
        fun _ => Meets.raised (Assertion.le_given (Resumable.not_unreadable hunreadable))
      cases error with
      | os kind =>
          cases kind with
          | fileNotFound => exact hraised _
          | fileExists => exact hraised _
          | other => exact hraised _
      | fileExists message => exact hraised _
      | filesystem message => exact hraised _
      | concurrent message => exact hraised _
      | interrupt => exact hraised _
  | ok answer =>
      obtain ⟨content, mode⟩ := answer
      apply Meets.given
      intro hread
      change layout [markerName] = some (.file mode content) at hread
      have hmarked : (mode = 0o600 ∧ content = marker) ↔
          layout [markerName] = pending scaffold marker [markerName] := by
        rw [hread, pending_marker, Option.some.injEq, EntryFacts.file.injEq]
      have hall : layout [markerName] = pending scaffold marker [markerName] ∧
          (∀ directory ∈ scaffold.directories, DirectoryValid layout directory) ∧
            Resumable scaffold marker layout ↔ Resumable scaffold marker layout := by
        constructor
        · exact fun hholds => hholds.2.2
        · exact fun hresumable => ⟨hresumable.marked,
            fun directory hmem => hresumable.directoryValid hwell hmem, hresumable⟩
      have hthere : layout [markerName] ≠ none := hread ▸ Option.some_ne_none _
      apply Finds.congr _ hall
      refine Finds.bind (finds_demand _ hmarked) fun _ _ _ => ?_
      refine Finds.bind (finds_openDirectories hwell hthere (List.cons_ne_nil _ _)) ?_
      exact fun opened hdirectories hopened => finds_validated hwell hdirectories hopened

end SupernoteModule.Filesystem.LinuxAdd
