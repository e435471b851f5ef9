import SupernoteModule.Proof.Disk
import SupernoteModule.Spec.LinuxAdd

/-!
# The calls of an add

Nobody else is at the destination, so its layout is known exactly, and every call that answers
changes it at one place. There is one rule for each kind of call.
-/

namespace SupernoteModule.Filesystem.LinuxAdd

open SupernoteModule.Generation SupernoteModule.Lib SupernoteModule.Lib.Program Function

variable {destination parts : List String} {layout first : Layout} {tree before after : FileTree}
  {host : AddHost} {scaffold : Scaffold} {marker : Bytes} {conditions : Conditions}

/-! ### Layouts of trees -/

/-- Above what is there, there are directories. -/
theorem Laid.directory_above (hlaid : Laid destination layout tree) {name : String}
    {rest : List String} (hbelow : layout (parts ++ name :: rest) ≠ none) :
    ∃ mode, layout parts = some (.directory mode) := by
  rw [← hlaid.look, FileTree.look, ← List.append_assoc] at hbelow
  obtain ⟨facts, hfacts⟩ := Option.ne_none_iff_exists'.mp hbelow
  obtain ⟨entry, hentry, -⟩ := Option.map_eq_some_iff.mp hfacts
  have hkind := entryKind_of_find_append hentry (List.cons_ne_nil _ _)
  rw [entryKind_eq_look, hlaid.look] at hkind
  obtain ⟨found, hfound, hdirectory⟩ := Option.map_eq_some_iff.mp hkind
  cases found with
  | directory mode => exact ⟨mode, hfound⟩
  | file mode content => cases hdirectory
  | symlink mode target => cases hdirectory
  | other mode => cases hdirectory

/-- Where the directory above a place is there, a call reaches the place. -/
def Reachable (layout : Layout) (parts : List String) : Prop :=
  parts = [] ∨ ∃ mode, layout parts.dropLast = some (.directory mode)

theorem Laid.hasParent_of_reachable (hlaid : Laid destination layout tree)
    (hreachable : Reachable layout parts) : hasParent tree (destination ++ parts) := by
  rcases hreachable with rfl | ⟨mode, hmode⟩
  · rw [List.append_nil]
    exact hlaid.parent
  · by_cases hparts : parts = []
    · rw [hparts, List.append_nil]
      exact hlaid.parent
    · rw [hasParent_iff, List.dropLast_append_of_ne_nil hparts, entryKind_eq_look, hlaid.look,
        hmode]
      rfl

/-- Nothing is missing but the place itself. -/
theorem missing_of_hasParent {path : List String} (hparent : hasParent tree path)
    (hnone : tree.find path = none) : missing tree path = .os .fileNotFound := by
  have hdirectories : (path.inits.filterMap tree.entryKind).find? (· != .directory) = none := by
    rw [List.find?_eq_none]
    intro kind hkind
    obtain ⟨place, hplace, hfound⟩ := List.mem_filterMap.mp hkind
    have hleads : place <+: path := List.mem_inits _ _ |>.mp hplace
    have hne : place ≠ path := by
      rintro rfl
      rw [FileTree.entryKind, hnone] at hfound
      cases hfound
    rw [entryKind_of_hasParent hparent hleads hne] at hfound
    obtain rfl := Option.some.inj hfound
    decide
  rw [missing, hdirectories]

theorem Laid.find_of_none (hlaid : Laid destination layout tree) (hnone : layout parts = none) :
    tree.find (destination ++ parts) = none := by
  rw [← hlaid.look, FileTree.look, Option.map_eq_none_iff] at hnone
  exact hnone

theorem Laid.find_of_some (hlaid : Laid destination layout tree) {facts : EntryFacts}
    (hsome : layout parts = some facts) :
    ∃ entry, tree.find (destination ++ parts) = some entry ∧ entry.facts = facts := by
  rw [← hlaid.look, FileTree.look] at hsome
  exact Option.map_eq_some_iff.mp hsome

theorem Laid.of_find (hlaid : Laid destination layout tree) {entry : FileTree}
    (hentry : tree.find (destination ++ parts) = some entry) : layout parts = some entry.facts := by
  rw [← hlaid.look, FileTree.look, hentry, Option.map_some]

theorem kind_facts (entry : FileTree) : entry.facts.kind = entry.kind := by
  cases entry <;> rfl

theorem mode_facts (entry : FileTree) : entry.facts.mode = entry.mode := by
  cases entry <;> rfl

/-! ### What changes -/

theorem Laid.update_of_changed (hlaid : Laid destination layout before)
    (hdestination : destination ≠ []) (hchanged : ∀ place, place ≠ destination ++ parts →
      after.look place = before.look place) {facts : Option EntryFacts}
    (hfacts : after.look (destination ++ parts) = facts) :
    Laid destination (update layout parts facts) after := by
  constructor
  · rw [hasParent_iff, entryKind_eq_look, hchanged, ← entryKind_eq_look, ← hasParent_iff]
    · exact hlaid.parent
    · intro hsame
      have hlength := congrArg List.length hsame
      rw [List.length_dropLast, List.length_append] at hlength
      have hpositive := List.length_pos_iff.mpr hdestination
      omega
  · intro place
    rcases eq_or_ne place parts with rfl | hne
    · rw [update_self, hfacts]
    · rw [update_of_ne hne, hchanged, hlaid.look]
      exact fun hsame => hne (List.append_cancel_left hsame)

/-- What a call at a place of the destination does outside of it. -/
theorem elsewhere_of_changed (hchanged : ∀ place, place ≠ destination ++ parts →
    after.look place = before.look place) {place : List String}
    (hplace : ¬ destination <+: place) : after.look place = before.look place := by
  apply hchanged
  rintro rfl
  exact hplace (List.prefix_append _ _)

theorem laid_makeDirectory {mode : Nat} (hlaid : Laid destination layout before)
    (hdestination : destination ≠ [])
    (hact : act host before (.makeDirectory (destination ++ parts) mode) = .ok ((), after)) :
    layout parts = none ∧
      (∀ place, place ≠ destination ++ parts → after.look place = before.look place) ∧
      Laid destination (update layout parts (some (.directory (host.newMode mode)))) after := by
  rw [act] at hact
  split at hact
  · cases hact
  rename_i hfree
  split at hact
  · rename_i hparent
    obtain ⟨-, rfl⟩ := Prod.mk.inj (Except.ok.inj hact)
    have hnone : before.find (destination ++ parts) = none := by simpa using hfree
    obtain ⟨hchanged, hfind⟩ := changedAt_alter
      (fun _ => some (.directory (host.newMode mode) [])) (by simp [hdestination]) hparent
      (hnone ▸ childless_none) (childless_directory _)
    refine ⟨?_, hchanged.elsewhere, hlaid.update_of_changed hdestination hchanged.elsewhere ?_⟩
    · rw [← hlaid.look, FileTree.look, hnone]
      rfl
    · rw [FileTree.look, hfind]
      rfl
  · cases hact

theorem laid_createFile {mode : Nat} (hlaid : Laid destination layout before)
    (hdestination : destination ≠ [])
    (hact : act host before (.createFile (destination ++ parts) mode) = .ok ((), after)) :
    (∀ place, place ≠ destination ++ parts → after.look place = before.look place) ∧
      Laid destination (update layout parts (some (.file (host.newMode mode) []))) after := by
  rw [act] at hact
  split at hact
  · cases hact
  rename_i hfree
  split at hact
  · rename_i hparent
    obtain ⟨-, rfl⟩ := Prod.mk.inj (Except.ok.inj hact)
    have hnone : before.find (destination ++ parts) = none := by simpa using hfree
    obtain ⟨hchanged, hfind⟩ := changedAt_alter
      (fun _ => some (.file (host.newMode mode) [])) (by simp [hdestination]) hparent
      (hnone ▸ childless_none) (childless_of_kind (by simp [FileTree.kind]))
    refine ⟨hchanged.elsewhere, hlaid.update_of_changed hdestination hchanged.elsewhere ?_⟩
    rw [FileTree.look, hfind]
    rfl
  · cases hact

theorem laid_writeFile {mode : Nat} {written content : Bytes} {count : Nat}
    (hlaid : Laid destination layout before) (hdestination : destination ≠ [])
    (hfile : layout parts = some (.file mode written))
    (hact : act host before (.writeFile (destination ++ parts) content) = .ok (count, after)) :
    count = min content.length (host.taken + 1) ∧
      (∀ place, place ≠ destination ++ parts → after.look place = before.look place) ∧
      Laid destination
        (update layout parts (some (.file mode (written ++ content.take count)))) after := by
  obtain ⟨entry, hentry, hfacts⟩ := hlaid.find_of_some hfile
  cases entry with
  | file found bytes =>
      obtain ⟨rfl, rfl⟩ := EntryFacts.file.inj hfacts
      rw [act, hentry] at hact
      obtain ⟨rfl, rfl⟩ := Prod.mk.inj (Except.ok.inj hact)
      have hpath : destination ++ parts ≠ [] := by simp [hdestination]
      have hkind : ∀ bytes, (FileTree.file found bytes).kind ≠ .directory := fun _ => by
        simp [FileTree.kind]
      obtain ⟨hchanged, hfind⟩ := changedAt_alter
        (fun _ => some (.file found (bytes ++ content.take (min content.length (host.taken + 1)))))
        hpath (hasParent_of_find hpath hentry) (hentry ▸ childless_of_kind (hkind _))
        (childless_of_kind (hkind _))
      refine ⟨rfl, hchanged.elsewhere, hlaid.update_of_changed hdestination hchanged.elsewhere ?_⟩
      rw [FileTree.look, hfind]
      rfl
  | directory found children => cases hfacts
  | symlink found target => cases hfacts
  | other found => cases hfacts

theorem laid_unlink (hlaid : Laid destination layout before) (hdestination : destination ≠ [])
    {mode : Nat} {content : Bytes} (hfile : layout parts = some (.file mode content))
    (hact : act host before (.unlink (destination ++ parts)) = .ok ((), after)) :
    (∀ place, place ≠ destination ++ parts → after.look place = before.look place) ∧
      Laid destination (update layout parts none) after := by
  obtain ⟨entry, hentry, hfacts⟩ := hlaid.find_of_some hfile
  have hkind : entry.kind = .file := by
    rw [← kind_facts, hfacts]
    rfl
  have hpath : destination ++ parts ≠ [] := by simp [hdestination]
  rw [act, FileTree.entryKind, hentry, Option.map_some, hkind] at hact
  obtain ⟨-, rfl⟩ := Prod.mk.inj (Except.ok.inj hact)
  obtain ⟨hchanged, hfind⟩ := changedAt_alter (fun _ => none) hpath (hasParent_of_find hpath hentry)
    (hentry ▸ childless_of_kind (by rw [hkind]; decide)) childless_none
  refine ⟨hchanged.elsewhere, hlaid.update_of_changed hdestination hchanged.elsewhere ?_⟩
  rw [FileTree.look, hfind]
  rfl

/-- The facts of an entry with another mode. -/
def changedMode (mode : Nat) : EntryFacts → EntryFacts
  | .file _ content => .file mode content
  | .directory _ => .directory mode
  | .symlink _ target => .symlink mode target
  | .other _ => .other mode

theorem facts_withMode (mode : Nat) (entry : FileTree) :
    (withMode mode entry).facts = changedMode mode entry.facts := by
  cases entry <;> rfl

/-- A mode is seen at the entry, and not below it. -/
theorem find_withMode (mode : Nat) (entry : FileTree) {below : List String} (hbelow : below ≠ []) :
    (withMode mode entry).find below = entry.find below := by
  obtain ⟨name, rest, rfl⟩ := List.exists_cons_of_ne_nil hbelow
  cases entry <;> rfl

theorem laid_changeMode (hlaid : Laid destination layout before) (hdestination : destination ≠ [])
    {mode : Nat} {facts : EntryFacts} (hfacts : layout parts = some facts)
    (hact : act host before (.changeMode (destination ++ parts) mode) = .ok ((), after)) :
    (∀ place, place ≠ destination ++ parts → after.look place = before.look place) ∧
      Laid destination (update layout parts (some (changedMode mode facts))) after := by
  obtain ⟨entry, hentry, rfl⟩ := hlaid.find_of_some hfacts
  have hpath : destination ++ parts ≠ [] := by simp [hdestination]
  obtain ⟨above, name, hsplit⟩ := (List.eq_nil_or_concat' (destination ++ parts)).resolve_left hpath
  have hparent := hasParent_of_find hpath hentry
  rw [hsplit] at hentry hact hparent
  rw [act, hentry, Option.isSome_some, if_pos rfl] at hact
  obtain ⟨-, rfl⟩ := Prod.mk.inj (Except.ok.inj hact)
  have hdirectory : (before.look above).map EntryFacts.kind = some .directory := by
    rwa [hasParent_iff, List.dropLast_concat, entryKind_eq_look] at hparent
  have hfind : ∀ below, (before.alter (fun entry => entry.map (withMode mode))
      (above ++ [name])).find (above ++ name :: below) = (withMode mode entry).find below := by
    intro below
    rw [FileTree.find_alter_append below hdirectory, hentry]
    rfl
  have hchanged : ∀ place, place ≠ destination ++ parts →
      (before.alter (fun entry => entry.map (withMode mode)) (above ++ [name])).look place =
        before.look place := by
    intro place hplace
    rw [hsplit] at hplace
    by_cases hleads : above ++ [name] <+: place
    · obtain ⟨below, rfl⟩ := hleads
      have hbelow : below ≠ [] := by
        rintro rfl
        exact hplace (List.append_nil _)
      have hbefore : before.find (above ++ [name] ++ below) = entry.find below := by
        rw [FileTree.find_append, hentry, Option.bind_some]
      rw [FileTree.look, FileTree.look, hbefore, List.append_assoc, List.singleton_append,
        hfind below, find_withMode mode entry hbelow]
    · exact FileTree.look_alter_of_not_prefix hleads
  refine ⟨hchanged, hlaid.update_of_changed hdestination hchanged ?_⟩
  have hat := hfind []
  rw [FileTree.find_nil] at hat
  rw [hsplit, FileTree.look, hat, Option.map_some, facts_withMode]

/-! ### Assertions -/

/-- The layout is known. -/
def known (conditions : Conditions) (destination : List String)
    (hstage : Stage scaffold marker first layout) :
    Assertion (addPromise conditions destination scaffold marker first) where
  holds := Laid destination layout
  always := fun hlaid => ⟨layout, hlaid, hstage⟩
  stable := fun hforeign hlaid => hlaid.foreign hforeign

/-- What is left of a call that failed: if there was no fault, there was a reason. -/
def failing (conditions : Conditions) (destination : List String) (scaffold : Scaffold)
    (marker : Bytes) (first : Layout) (reason : Prop) :
    Assertion (addPromise conditions destination scaffold marker first) :=
  .given (conditions.faults ∨ reason) (.kept _)

theorem known_le_failing {hstage : Stage scaffold marker first layout} {reason : Prop}
    (hreason : conditions.faults ∨ reason) :
    known conditions destination hstage ≤
        failing conditions destination scaffold marker first reason :=
  Assertion.le_trans (Assertion.le_kept _) (Assertion.le_given hreason)

theorem failing_mono {reason weaker : Prop} (hweaker : reason → weaker) :
    failing conditions destination scaffold marker first reason ≤
      failing conditions destination scaffold marker first weaker := by
  apply Assertion.any_le
  intro hreason
  exact Assertion.le_given (hreason.imp_right hweaker)

theorem promise_refl (tree : FileTree) :
    (addPromise conditions destination scaffold marker first).change tree tree :=
  fun _ _ => rfl

/-! ### Calls that read -/

/-- An error that needs no reason. -/
def Fault (conditions : Conditions) (error : AddError) : Prop :=
  conditions.faults ∧ (error = .os .other ∨ error = .interrupt)

section

variable (hstage : Stage scaffold marker first layout)

theorem meets_reading (op : AddOp) {returned : op.Answer → Prop} {refused : AddError → Prop}
    (hanswer : ∀ host tree after answer, Laid destination layout tree →
      act host tree op = .ok (answer, after) → after = tree ∧ returned answer)
    (herror : ∀ host tree error, Laid destination layout tree → act host tree op = .error error →
      refused error) :
    Meets (outcome (fun answer => .given (returned answer) (known conditions destination hstage))
        fun error => .given (Fault conditions error ∨ refused error)
          (known conditions destination hstage))
      (known conditions destination hstage)
      (.call op : Add op.Answer) := by
  apply Meets.call op
  intro answer before after hlaid hperforms
  cases hperforms with
  | answers host hhost hact =>
      obtain ⟨rfl, hreturned⟩ := hanswer host before after _ hlaid hact
      exact ⟨promise_refl after, hreturned, hlaid⟩
  | refuses host hhost hact =>
      exact ⟨promise_refl before, .inr (herror host before _ hlaid hact), hlaid⟩
  | fails hfaults hkind => exact ⟨promise_refl before, .inl ⟨hfaults, hkind⟩, hlaid⟩
  | interrupted host hfaults hhost hact =>
      obtain ⟨rfl, -⟩ := hanswer host before after _ hlaid hact
      exact ⟨promise_refl after, .inl ⟨hfaults, .inr rfl⟩, hlaid⟩

/-- What a missing entry is reported as. -/
def NotFound (layout : Layout) (parts : List String) (error : AddError) : Prop :=
  layout parts = none ∧ (Reachable layout parts → error = .os .fileNotFound)

theorem meets_stat (parts : List String) :
    Meets (outcome
        (fun answer => .given (∃ facts, layout parts = some facts ∧
          answer = (facts.kind, facts.mode)) (known conditions destination hstage))
        fun error => .given (Fault conditions error ∨ NotFound layout parts error)
          (known conditions destination hstage))
      (known conditions destination hstage)
      (stat (destination ++ parts)) := by
  apply meets_reading hstage (.stat (destination ++ parts))
  · intro host tree after answer hlaid hact
    rw [act] at hact
    cases hentry : tree.find (destination ++ parts) with
    | none => rw [hentry] at hact; cases hact
    | some entry =>
        rw [hentry] at hact
        obtain ⟨rfl, rfl⟩ := Prod.mk.inj (Except.ok.inj hact)
        refine ⟨rfl, entry.facts, hlaid.of_find hentry, ?_⟩
        rw [kind_facts, mode_facts]
  · intro host tree error hlaid hact
    rw [act] at hact
    cases hentry : tree.find (destination ++ parts) with
    | none =>
        rw [hentry] at hact
        obtain rfl := Except.error.inj hact
        refine ⟨?_, fun hreachable => ?_⟩
        · rw [← hlaid.look, FileTree.look, hentry]
          rfl
        · exact missing_of_hasParent (hlaid.hasParent_of_reachable hreachable) hentry
    | some entry => rw [hentry] at hact; cases hact

theorem meets_openDirectory (parts : List String) :
    Meets (outcome
        (fun _ => .given (∃ mode, layout parts = some (.directory mode))
          (known conditions destination hstage))
        fun error => .given (Fault conditions error ∨
          ((∀ mode, layout parts ≠ some (.directory mode)) ∧ ∃ kind, error = .os kind))
          (known conditions destination hstage))
      (known conditions destination hstage)
      (openDirectory (destination ++ parts)) := by
  apply meets_reading hstage (.openDirectory (destination ++ parts))
  · intro host tree after answer hlaid hact
    rw [act, entryKind_eq_look, hlaid.look] at hact
    cases hfacts : layout parts with
    | none => rw [hfacts] at hact; cases hact
    | some facts =>
        rw [hfacts] at hact
        cases facts with
        | directory mode =>
            obtain ⟨-, rfl⟩ := Prod.mk.inj (Except.ok.inj hact)
            exact ⟨rfl, mode, rfl⟩
        | file mode content => cases hact
        | symlink mode target => cases hact
        | other mode => cases hact
  · intro host tree error hlaid hact
    rw [act, entryKind_eq_look, hlaid.look] at hact
    have hmissing : ∃ kind, missing tree (destination ++ parts) = .os kind := by
      unfold missing
      split
      · exact ⟨_, rfl⟩
      · exact ⟨_, rfl⟩
    cases hfacts : layout parts with
    | none =>
        rw [hfacts] at hact
        obtain rfl := Except.error.inj hact
        exact ⟨(fun _ hsame => by cases hsame), hmissing⟩
    | some facts =>
        rw [hfacts] at hact
        cases facts with
        | directory mode => cases hact
        | file mode content =>
            obtain rfl := Except.error.inj hact
            exact ⟨(fun _ hsame => by cases hsame), _, rfl⟩
        | symlink mode target =>
            obtain rfl := Except.error.inj hact
            exact ⟨(fun _ hsame => by cases hsame), _, rfl⟩
        | other mode =>
            obtain rfl := Except.error.inj hact
            exact ⟨(fun _ hsame => by cases hsame), _, rfl⟩

theorem mem_map_fst_iff {children : List (String × FileTree)} {name : String} :
    name ∈ children.map Prod.fst ↔ children.lookup name ≠ none := by
  induction children with
  | nil => simp
  | cons child children ih =>
      obtain ⟨other, entry⟩ := child
      rw [List.map_cons, List.mem_cons, List.lookup_cons]
      by_cases hsame : name = other
      · simp [hsame]
      · rw [beq_false_of_ne hsame, ← ih]
        simp [hsame]

theorem meets_listDirectory (parts : List String) :
    Meets (outcome
        (fun names => .given (∀ name, name ∈ names ↔ layout (parts ++ [name]) ≠ none)
          (known conditions destination hstage))
        fun error => .given (Fault conditions error ∨
          ∀ mode, layout parts ≠ some (.directory mode)) (known conditions destination hstage))
      (known conditions destination hstage)
      (listDirectory (destination ++ parts)) := by
  apply meets_reading hstage (.listDirectory (destination ++ parts))
  · intro host tree after answer hlaid hact
    rw [act] at hact
    cases hentry : tree.find (destination ++ parts) with
    | none => rw [hentry] at hact; cases hact
    | some entry =>
        rw [hentry] at hact
        cases entry with
        | directory mode children =>
            obtain ⟨rfl, rfl⟩ := Prod.mk.inj (Except.ok.inj hact)
            refine ⟨rfl, ?_⟩
            intro name
            rw [mem_map_fst_iff, ← hlaid.look, FileTree.look, ← List.append_assoc,
              FileTree.find_append, hentry, Option.bind_some, FileTree.find_directory_cons]
            cases children.lookup name with
            | none => simp
            | some child => simp [FileTree.find_nil]
        | file mode content => cases hact
        | symlink mode target => cases hact
        | other mode => cases hact
  · intro host tree error hlaid hact mode hdirectory
    obtain ⟨entry, hentry, hfacts⟩ := hlaid.find_of_some hdirectory
    rw [act, hentry] at hact
    cases entry with
    | directory => cases hact
    | file => cases hfacts
    | symlink => cases hfacts
    | other => cases hfacts

theorem meets_readFile (parts : List String) :
    Meets (outcome
        (fun answer => .given (layout parts = some (.file answer.2 answer.1))
          (known conditions destination hstage))
        fun error => .given (Fault conditions error ∨
          ∀ mode content, layout parts ≠ some (.file mode content))
            (known conditions destination hstage))
      (known conditions destination hstage)
      (readFile (destination ++ parts)) := by
  apply meets_reading hstage (.readFile (destination ++ parts))
  · intro host tree after answer hlaid hact
    rw [act] at hact
    cases hentry : tree.find (destination ++ parts) with
    | none => rw [hentry] at hact; cases hact
    | some entry =>
        rw [hentry] at hact
        cases entry with
        | file mode content =>
            obtain ⟨rfl, rfl⟩ := Prod.mk.inj (Except.ok.inj hact)
            exact ⟨rfl, hlaid.of_find hentry⟩
        | directory mode children => cases hact
        | symlink mode target => cases hact
        | other mode => cases hact
  · intro host tree error hlaid hact mode content hfile
    obtain ⟨entry, hentry, hfacts⟩ := hlaid.find_of_some hfile
    rw [act, hentry] at hact
    cases entry with
    | file => cases hact
    | directory => cases hfacts
    | symlink => cases hfacts
    | other => cases hfacts

theorem meets_sync (parts : List String) :
    Meets (outcome (fun _ => known conditions destination hstage)
        fun error => .given (Fault conditions error) (known conditions destination hstage))
      (known conditions destination hstage)
      (sync (destination ++ parts)) := by
  have hsync := @meets_reading destination layout first scaffold marker conditions hstage
    (.sync (destination ++ parts)) (fun _ => True) (fun _ => False)
    (fun host tree after answer _ hact => ⟨(Prod.mk.inj (Except.ok.inj hact)).2.symm, trivial⟩)
    (fun host tree error _ hact => by cases hact)
  apply hsync.consequence (Assertion.le_refl _)
  intro result
  cases result with
  | ok answer => exact Assertion.any_le fun _ => Assertion.le_refl _
  | error error =>
      apply Assertion.any_le
      rintro (hfault | hfalse)
      · exact Assertion.le_given hfault
      · exact absurd hfalse id

end

/-! ### Calls that change an entry -/

section

variable (hstage : Stage scaffold marker first layout) (hdestination : destination ≠ [])

/-- The rule for a call that changes the tree if it is done. -/
theorem meets_changing (op : AddOp)
    {returned : op.Answer → Assertion (addPromise conditions destination scaffold marker first)}
    {reason : Prop}
    (hanswer : ∀ host before after answer, conditions.hosts host → Laid destination layout before →
      act host before op = .ok (answer, after) →
      (addPromise conditions destination scaffold marker first).change before after ∧
        (returned answer).holds after)
    (hrefuse : ∀ host before error, Laid destination layout before →
      act host before op = .error error → reason) :
    Meets (outcome returned
        fun _ => failing conditions destination scaffold marker first reason)
      (known conditions destination hstage) (.call op : Add op.Answer) := by
  apply Meets.call op
  intro answer before after hlaid hperforms
  cases hperforms with
  | answers host hhost hact => exact hanswer host before after _ hhost hlaid hact
  | refuses host hhost hact =>
      exact ⟨promise_refl before, .inr (hrefuse host before _ hlaid hact),
        Assertion.always _ (show (known conditions destination hstage).holds before from hlaid)⟩
  | fails hfaults hkind =>
      exact ⟨promise_refl before, .inl hfaults,
        Assertion.always _ (show (known conditions destination hstage).holds before from hlaid)⟩
  | interrupted host hfaults hhost hact =>
      obtain ⟨hchange, hreturned⟩ := hanswer host before after _ hhost hlaid hact
      exact ⟨hchange, .inl hfaults, Assertion.always _ hreturned⟩

include hdestination

theorem meets_makeDirectory (parts : List String) (mode : Nat)
    (hnext : layout parts = none → ∀ made,
      Stage scaffold marker first (update layout parts (some (.directory made)))) :
    Meets (outcome
        (fun _ => .any fun hfree : layout parts = none =>
          .any fun host : { host // conditions.hosts host } =>
            known conditions destination (hnext hfree (host.1.newMode mode)))
        fun error => if error = .os .fileExists then .given (layout parts ≠ none)
          (known conditions destination hstage)
          else failing conditions destination scaffold marker first (¬ Reachable layout parts))
      (known conditions destination hstage) (makeDirectory (destination ++ parts) mode) := by
  apply Meets.call (AddOp.makeDirectory (destination ++ parts) mode)
  intro answer before after hlaid hperforms
  have hkept : (addPromise conditions destination scaffold marker first).always before :=
    ⟨layout, hlaid, hstage⟩
  cases hperforms with
  | answers host hhost hact =>
      obtain ⟨hfree, hchanged, hmade⟩ := laid_makeDirectory hlaid hdestination hact
      exact ⟨fun place hplace => elsewhere_of_changed hchanged hplace, hfree, ⟨host, hhost⟩, hmade⟩
  | @refuses _ error host hhost hact =>
      refine ⟨promise_refl before, ?_⟩
      rw [act] at hact
      split at hact
      · rename_i hsome
        obtain rfl := Except.error.inj hact
        change (Assertion.given (layout parts ≠ none)
          (known conditions destination hstage)).holds before
        refine ⟨?_, hlaid⟩
        intro hnone
        rw [hlaid.find_of_none hnone] at hsome
        cases hsome
      · rename_i hfree
        split at hact
        · cases hact
        · rename_i hparent
          obtain rfl := Except.error.inj hact
          have hunreachable : ¬ Reachable layout parts :=
            fun hreachable => hparent (hlaid.hasParent_of_reachable hreachable)
          have hmissing : missing before (destination ++ parts) ≠ .os .fileExists := by
            unfold missing
            split
            · exact fun hsame => by cases hsame
            · exact fun hsame => by cases hsame
          change (ite (missing before (destination ++ parts) = .os .fileExists) _ _ :
            Assertion _).holds before
          rw [if_neg hmissing]
          exact ⟨.inr hunreachable, hkept⟩
  | @fails _ error hfaults hkind =>
      refine ⟨promise_refl before, ?_⟩
      have hother : error ≠ .os .fileExists := by
        rintro rfl
        rcases hkind with hkind | hkind <;> cases hkind
      change (ite (error = .os .fileExists) _ _ : Assertion _).holds before
      rw [if_neg hother]
      exact ⟨.inl hfaults, hkept⟩
  | interrupted host hfaults hhost hact =>
      obtain ⟨hfree, hchanged, hmade⟩ := laid_makeDirectory hlaid hdestination hact
      exact ⟨fun place hplace => elsewhere_of_changed hchanged hplace, .inl hfaults,
        _, hmade, hnext hfree _⟩

theorem meets_createFile (parts : List String) (mode : Nat)
    (hnext : ∀ made, Stage scaffold marker first (update layout parts (some (.file made [])))) :
    Meets (outcome
        (fun _ => .any fun made => known conditions destination (hnext made))
        fun _ => failing conditions destination scaffold marker first
          (¬ (layout parts = none ∧ Reachable layout parts)))
      (known conditions destination hstage) (createFile (destination ++ parts) mode) := by
  apply meets_changing hstage (.createFile (destination ++ parts) mode)
  · intro host before after answer _ hlaid hact
    obtain ⟨hchanged, hmade⟩ := laid_createFile hlaid hdestination hact
    exact ⟨fun place hplace => elsewhere_of_changed hchanged hplace, _, hmade⟩
  · rintro host before error hlaid hact ⟨hfree, hreachable⟩
    rw [act, hlaid.find_of_none hfree, Option.isSome_none, if_neg Bool.false_ne_true,
      if_pos (hlaid.hasParent_of_reachable hreachable)] at hact
    cases hact

theorem meets_writeFile (parts : List String) {mode : Nat} {written : Bytes}
    (hfile : layout parts = some (.file mode written)) (content : Bytes)
    (hnext : ∀ count, Stage scaffold marker first
      (update layout parts (some (.file mode (written ++ content.take count))))) :
    Meets (outcome
        (fun count => .given (count = content.length ∨ 0 < count)
          (known conditions destination (hnext count)))
        fun _ => failing conditions destination scaffold marker first False)
      (known conditions destination hstage) (writeFile (destination ++ parts) content) := by
  apply meets_changing hstage (.writeFile (destination ++ parts) content)
  · intro host before after count _ hlaid hact
    obtain ⟨rfl, hchanged, hwritten⟩ := laid_writeFile hlaid hdestination hfile hact
    refine ⟨fun place hplace => elsewhere_of_changed hchanged hplace, ?_, hwritten⟩
    omega
  · intro host before error hlaid hact
    obtain ⟨entry, hentry, hfacts⟩ := hlaid.find_of_some hfile
    rw [act, hentry] at hact
    cases entry with
    | file => cases hact
    | directory => cases hfacts
    | symlink => cases hfacts
    | other => cases hfacts

theorem meets_changeMode (parts : List String) {facts : EntryFacts}
    (hfacts : layout parts = some facts) (mode : Nat)
    (hnext : Stage scaffold marker first (update layout parts (some (changedMode mode facts)))) :
    Meets (outcome (fun _ => known conditions destination hnext)
        fun _ => failing conditions destination scaffold marker first False)
      (known conditions destination hstage) (changeMode (destination ++ parts) mode) := by
  apply meets_changing hstage (.changeMode (destination ++ parts) mode)
  · intro host before after answer _ hlaid hact
    obtain ⟨hchanged, hmoded⟩ := laid_changeMode hlaid hdestination hfacts hact
    exact ⟨fun place hplace => elsewhere_of_changed hchanged hplace, hmoded⟩
  · intro host before error hlaid hact
    obtain ⟨entry, hentry, -⟩ := hlaid.find_of_some hfacts
    rw [act, hentry, Option.isSome_some, if_pos rfl] at hact
    cases hact

theorem meets_unlink (parts : List String) {mode : Nat} {content : Bytes}
    (hfile : layout parts = some (.file mode content))
    (hnext : Stage scaffold marker first (update layout parts none)) :
    Meets (outcome (fun _ => known conditions destination hnext)
        fun _ => failing conditions destination scaffold marker first False)
      (known conditions destination hstage) (unlink (destination ++ parts)) := by
  apply meets_changing hstage (.unlink (destination ++ parts))
  · intro host before after answer _ hlaid hact
    obtain ⟨hchanged, hgone⟩ := laid_unlink hlaid hdestination hfile hact
    exact ⟨fun place hplace => elsewhere_of_changed hchanged hplace, hgone⟩
  · intro host before error hlaid hact
    obtain ⟨entry, hentry, hfacts⟩ := hlaid.find_of_some hfile
    have hkind : before.entryKind (destination ++ parts) = some .file := by
      rw [entryKind_eq_look, hlaid.look, hfile]
      rfl
    rw [act, hkind] at hact
    cases hact

end

/-! ### Single entries -/

theorem meets_demand {pre : Assertion (addPromise conditions destination scaffold marker first)}
    {condition : Prop} [Decidable condition] (error : AddError) :
    Meets (outcome (fun _ => .given condition pre)
        fun raised => .given (¬ condition ∧ raised = error) pre) pre
      (demand condition error) := by
  unfold demand
  by_cases hcondition : condition
  · rw [if_pos hcondition]
    exact Meets.pure (Assertion.le_given hcondition)
  · rw [if_neg hcondition]
    exact Meets.raised (Assertion.le_given ⟨hcondition, rfl⟩)

/-- Why a file is not read. -/
def Unreadable (conditions : Conditions) (layout : Layout) (parts : List String)
    (error : AddError) : Prop :=
  Fault conditions error ∨ NotFound layout parts error ∨
    ((∃ facts, layout parts = some facts ∧ facts.kind ≠ .file) ∧
      ∃ message, error = .filesystem message)

theorem meets_readAddFile (hstage : Stage scaffold marker first layout) (parts : List String) :
    Meets (outcome
        (fun answer => .given (layout parts = some (.file answer.2 answer.1))
          (known conditions destination hstage))
        fun error => .given (Unreadable conditions layout parts error)
          (known conditions destination hstage))
      (known conditions destination hstage)
      (readAddFile (destination ++ parts)) := by
  unfold readAddFile
  apply Meets.bind (meets_stat hstage parts)
  · rintro ⟨kind, mode⟩
    apply Meets.given
    rintro ⟨facts, hfacts, hanswer⟩
    obtain ⟨rfl, rfl⟩ := Prod.mk.inj hanswer
    apply Meets.bind (meets_demand _)
    · intro _
      apply Meets.given
      intro hkind
      apply (meets_readFile hstage parts).consequence (Assertion.le_refl _)
      intro result
      cases result with
      | ok answer => exact Assertion.le_refl _
      | error error =>
          apply Assertion.any_le
          rintro (hfault | hnone)
          · exact Assertion.le_given (.inl hfault)
          · cases facts with
            | file mode content => exact absurd hfacts (hnone mode content)
            | directory mode => cases hkind
            | symlink mode target => cases hkind
            | other mode => cases hkind
    · intro error
      apply Assertion.any_le
      rintro ⟨hkind, rfl⟩
      exact Assertion.le_given (.inr (.inr ⟨⟨facts, hfacts, hkind⟩, _, rfl⟩))
  · intro error
    apply Assertion.any_le
    rintro (hfault | hmissing)
    · exact Assertion.le_given (.inl hfault)
    · exact Assertion.le_given (.inr (.inl hmissing))

theorem meets_openMatchingAddDirectory (hstage : Stage scaffold marker first layout)
    (parts : List String) (message : String) :
    Meets (outcome
        (fun _ => .given (∃ mode, layout parts = some (.directory mode))
          (known conditions destination hstage))
        fun _ => .given (conditions.faults ∨ ∀ mode, layout parts ≠ some (.directory mode))
          (known conditions destination hstage))
      (known conditions destination hstage)
      (openMatchingAddDirectory (destination ++ parts) message) := by
  unfold openMatchingAddDirectory
  apply Meets.catching (meets_openDirectory hstage parts)
  intro opened
  cases opened with
  | ok _ => exact Meets.pure (Assertion.le_refl _)
  | error error =>
      apply Meets.given
      intro hreason
      have hweaker : conditions.faults ∨ ∀ mode, layout parts ≠ some (.directory mode) := by
        rcases hreason with hfault | hnone
        · exact .inl hfault.1
        · exact .inr hnone.1
      cases error with
      | os kind => exact Meets.raised (Assertion.le_given hweaker)
      | fileExists text => exact Meets.raised (Assertion.le_given hweaker)
      | filesystem text => exact Meets.raised (Assertion.le_given hweaker)
      | concurrent text => exact Meets.raised (Assertion.le_given hweaker)
      | interrupt => exact Meets.raised (Assertion.le_given hweaker)

/-- A new directory, opened and found empty. -/
theorem meets_mkdirOpenDirectory (hstage : Stage scaffold marker first layout)
    (hdestination : destination ≠ []) (parts : List String) (mode : Nat) (shown : String)
    (hnext : layout parts = none → ∀ made,
      Stage scaffold marker first (update layout parts (some (.directory made)))) :
    Meets (outcome
        (fun _ => .any fun hfree : layout parts = none =>
          .any fun host : { host // conditions.hosts host } =>
            known conditions destination (hnext hfree (host.1.newMode mode)))
        fun error => if error = .os .fileExists then .given (layout parts ≠ none)
          (known conditions destination hstage)
          else failing conditions destination scaffold marker first (¬ Reachable layout parts))
      (known conditions destination hstage) (mkdirOpenDirectory (destination ++ parts) mode
        shown) := by
  have hchildless : ∀ tree, (known conditions destination hstage).holds tree → layout parts = none →
      ∀ name, layout (parts ++ [name]) = none := by
    intro tree hlaid hnone name
    by_contra hbelow
    obtain ⟨found, hfound⟩ := Laid.directory_above hlaid hbelow
    rw [hnone] at hfound
    cases hfound
  apply Meets.assuming hchildless
  intro hempty
  unfold mkdirOpenDirectory
  apply Meets.bind (meets_makeDirectory hstage hdestination parts mode hnext) _
    fun error => Assertion.le_refl _
  intro _
  apply Meets.any
  intro hfree
  apply Meets.any
  intro host
  have hmade := hnext hfree (host.1.newMode mode)
  have hdirectory : update layout parts (some (.directory (host.1.newMode mode))) parts =
      some (.directory (host.1.newMode mode)) := update_self _ _ _
  -- What goes wrong from here on is a fault, which is never reported as an existing file.
  have hfaulty : ∀ error, Fault conditions error → known conditions destination hmade ≤
      (if error = .os .fileExists then .given (layout parts ≠ none)
        (known conditions destination hstage)
        else failing conditions destination scaffold marker first (¬ Reachable layout parts)) := by
    intro error hfault
    have hother : error ≠ .os .fileExists := by
      rintro rfl
      rcases hfault.2 with hkind | hkind <;> cases hkind
    rw [if_neg hother]
    exact known_le_failing (.inl hfault.1)
  apply Meets.bind (meets_openDirectory hmade parts)
  · intro _
    apply Meets.given
    intro _
    apply Meets.bind (meets_stat hmade parts)
    · rintro ⟨kind, found⟩
      apply Meets.given
      rintro ⟨facts, hfacts, hanswer⟩
      rw [hdirectory] at hfacts
      obtain rfl := Option.some.inj hfacts
      obtain ⟨rfl, rfl⟩ := Prod.mk.inj hanswer
      apply Meets.bind (meets_listDirectory hmade parts)
      · intro names
        apply Meets.given
        intro hnames
        have hnone : names = [] := by
          rw [List.eq_nil_iff_forall_not_mem]
          intro name hname
          have hsome := (hnames name).mp hname
          rw [update_of_ne (by simp)] at hsome
          exact hsome (hempty hfree name)
        apply (meets_demand _).consequence (Assertion.le_refl _)
        intro result
        cases result with
        | ok _ =>
            apply Assertion.any_le
            intro _
            exact fun tree hlaid => ⟨hfree, host, hlaid⟩
        | error error =>
            apply Assertion.any_le
            rintro ⟨hwrong, -⟩
            exact absurd ⟨rfl, hnone⟩ hwrong
      · intro error
        apply Assertion.any_le
        rintro (hfault | hnone)
        · exact hfaulty error hfault
        · exact absurd hdirectory (hnone _)
    · intro error
      apply Assertion.any_le
      rintro (hfault | hmissing)
      · exact hfaulty error hfault
      · rw [NotFound, hdirectory] at hmissing
        cases hmissing.1
  · intro error
    apply Assertion.any_le
    rintro (hfault | ⟨hnone, -⟩)
    · exact hfaulty error hfault
    · exact absurd hdirectory (hnone _)

/-- The rest of a file's content is written piece by piece. -/
theorem meets_writeAll (hdestination : destination ≠ []) (parts : List String) {base : Layout}
    {mode : Nat} {content : Bytes}
    (hnext : ∀ bytes, Stage scaffold marker first (update base parts (some (.file mode bytes))))
    (fuel : Nat) (written view : Bytes) (hcontent : written ++ view = content)
    (hfuel : view.length ≤ fuel) :
    Meets (outcome (fun _ => known conditions destination (hnext content))
        fun _ => failing conditions destination scaffold marker first False)
      (known conditions destination (hnext written)) (writeAll (destination ++ parts) fuel
        view) := by
  induction fuel generalizing written view with
  | zero =>
      have hview : view = [] := List.length_eq_zero_iff.mp (Nat.le_zero.mp hfuel)
      rw [hview, List.append_nil] at hcontent
      subst hcontent
      rw [writeAll]
      exact Meets.pure (Assertion.le_refl _)
  | succ fuel ih =>
      cases view with
      | nil =>
          rw [List.append_nil] at hcontent
          subst hcontent
          rw [writeAll]
          exact Meets.pure (Assertion.le_refl _)
      | cons byte view =>
          have hstep : ∀ count, Stage scaffold marker first
              (update (update base parts (some (.file mode written))) parts
                (some (.file mode (written ++ (byte :: view).take count)))) := by
            intro count
            rw [update_idem]
            exact hnext _
          rw [writeAll]
          have hwrite := @meets_writeFile destination _ first scaffold marker conditions
            (hnext written) hdestination parts mode written (update_self _ _ _) (byte :: view) hstep
          apply Meets.andThen hwrite
          intro count
          apply Meets.given
          intro hcount
          have hrest := ih (written ++ (byte :: view).take count) ((byte :: view).drop count)
            (by rw [List.append_assoc, List.take_append_drop, hcontent])
            (by rw [List.length_drop]; rw [List.length_cons] at hcount hfuel ⊢; omega)
          apply hrest.strengthen
          intro tree hlaid
          change Laid destination _ tree at hlaid
          rwa [update_idem] at hlaid

/-- A new file, written and synchronized. -/
theorem meets_writeAddFileExclusive {base : Layout} (hbase : Stage scaffold marker first base)
    (hdestination : destination ≠ []) (parts : List String) (content : Bytes) (mode : Nat)
    (hfree : base parts = none) (hreachable : Reachable base parts)
    (hnext : ∀ found bytes,
      Stage scaffold marker first (update base parts (some (.file found bytes)))) :
    Meets (outcome (fun _ => known conditions destination (hnext mode content))
        fun _ => failing conditions destination scaffold marker first False)
      (known conditions destination hbase)
        (writeAddFileExclusive (destination ++ parts) content mode) := by
  unfold writeAddFileExclusive
  apply Meets.bind (meets_createFile hbase hdestination parts mode fun made => hnext made [])
  · intro _
    apply Meets.any
    intro made
    apply Meets.andThen (meets_writeAll hdestination parts (hnext made) content.length [] content
      rfl (Nat.le_refl _))
    intro _
    have hmoded : Stage scaffold marker first
        (update (update base parts (some (.file made content))) parts
          (some (changedMode mode (.file made content)))) := by
      rw [update_idem]
      exact hnext mode content
    have hchange := @meets_changeMode destination _ first scaffold marker conditions
      (hnext made content) hdestination parts _ (update_self _ _ _) mode hmoded
    have hfinal : known conditions destination hmoded ≤
        known conditions destination (hnext mode content) := by
      intro tree hlaid
      change Laid destination _ tree at hlaid
      rwa [update_idem] at hlaid
    apply Meets.andThen hchange
    intro _
    apply Meets.bind (meets_sync hmoded parts)
    · intro _
      apply Meets.bind (meets_stat hmoded parts)
      · intro _
        apply Meets.given
        intro _
        exact Meets.pure hfinal
      · intro error
        apply Assertion.any_le
        rintro (hfault | hmissing)
        · exact known_le_failing (.inl hfault.1)
        · rw [NotFound, update_self] at hmissing
          cases hmissing.1
    · intro error
      apply Assertion.any_le
      intro hfault
      exact known_le_failing (.inl hfault.1)
  · intro error
    exact failing_mono fun hno => hno ⟨hfree, hreachable⟩

end SupernoteModule.Filesystem.LinuxAdd
