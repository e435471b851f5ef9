import SupernoteModule.Filesystem.RestoreEntry

/-!
# What a failed restoration leaves

The rollback goes by the entry that was set aside: where there was none, the copy stays, and where
there was one, it comes back if what is in its way can be removed.
-/

namespace SupernoteModule.Filesystem

open SupernoteModule.Generation SupernoteModule.Python

/-! ### Names -/

structure RestoreNames.Distinct (names : RestoreNames) : Prop where
  staged : names.destination ≠ names.staged
  displaced : names.destination ≠ names.displaced
  apart : names.displaced ≠ names.staged

theorem toList_hiddenName (destination label token : String) :
    (hiddenName destination label token).toList =
      (".".toList ++ destination.toList ++ ".sn-module-gen-".toList) ++
        (label.toList ++ ("-".toList ++ token.toList)) := by
  simp [hiddenName, toString]

theorem ne_hiddenName (destination label token : String) :
    destination ≠ hiddenName destination label token := by
  intro heq
  have hlength := congrArg (fun text => text.toList.length) heq
  have hdot : ".".toList.length = 1 := by decide
  simp only [toList_hiddenName, List.length_append, hdot] at hlength
  omega

theorem RestoreNames.distinct_of {label : String} (hlabel : label ≠ "displaced")
    (destination token : String) : (RestoreNames.of label destination token).Distinct := by
  refine ⟨ne_hiddenName destination label token, ne_hiddenName destination "displaced" token, ?_⟩
  intro heq
  have htexts : (hiddenName destination "displaced" token).toList =
      (hiddenName destination label token).toList := congrArg String.toList heq
  rw [toList_hiddenName, toList_hiddenName] at htexts
  have hword := List.append_cancel_right (List.append_cancel_left htexts)
  exact hlabel (String.toList_inj.mp hword).symm

/-! ### Steps -/

section Steps

variable {circumstances : Circumstances} {sha256 : Bytes → String} {names : RestoreNames}
  {mismatch sourcePath : String} {source live : Option FileTree} {copy : FileTree}
  {directory : Directory} {error : RestoreError}

/-- Whether a rename is done, be it that an interrupt follows. -/
def Circumstances.renames (circumstances : Circumstances) (step : RestoreStep) : Bool :=
  !circumstances.raises step || circumstances.interrupted step

theorem rename_snd (step : RestoreStep) (source destination : String) (directory : Directory) :
    (rename circumstances step source destination directory).2 =
      if circumstances.renames step then directory.replace source destination else directory := by
  rw [rename, Circumstances.renames]
  cases circumstances.raises step with
  | false => rfl
  | true => cases circumstances.interrupted step <;> rfl

theorem removeEntryNoFollow_fst (step : RestoreStep) (name : String) (directory : Directory) :
    (removeEntryNoFollow circumstances step name directory).1 =
      if directory.lexists name ∧ circumstances.raises step then .error (.raised step)
      else .ok () := by
  rw [removeEntryNoFollow]
  cases directory.lexists name with
  | false => rfl
  | true => cases circumstances.raises step <;> rfl

theorem removeEntryNoFollow_of_ne (step : RestoreStep) {name other : String}
    (hother : other ≠ name) (directory : Directory) :
    (removeEntryNoFollow circumstances step name directory).2 other = directory other := by
  rw [removeEntryNoFollow]
  split
  · split
    · exact Directory.put_of_ne _ hother _
    · exact Directory.put_of_ne _ hother _
  · rfl

theorem removeEntryNoFollow_same (step : RestoreStep) (name : String) (directory : Directory) :
    (removeEntryNoFollow circumstances step name directory).2 name =
      if directory.lexists name ∧ circumstances.raises step then circumstances.leftover step
      else none := by
  rw [removeEntryNoFollow]
  cases hfound : directory.lexists name with
  | false => simpa [Directory.lexists] using hfound
  | true =>
      cases circumstances.raises step with
      | false => exact Directory.put_same ..
      | true => exact Directory.put_same ..

/-! ### Rolling back -/

/-- What is at the destination when an entry was aside. -/
theorem putBackDisplaced_destination {entry : FileTree} (hnames : names.Distinct)
    (haside : directory names.displaced = some entry) :
    (putBackDisplaced circumstances names error directory).2 names.destination =
      if directory.lexists names.destination ∧ circumstances.raises .removeActivated then
        circumstances.leftover .removeActivated
      else if circumstances.renames .putBack then some entry
      else none := by
  have hresult := @removeEntryNoFollow_fst circumstances .removeActivated names.destination
    directory
  have hfreed := @removeEntryNoFollow_same circumstances .removeActivated names.destination
    directory
  have hkept := @removeEntryNoFollow_of_ne circumstances .removeActivated _ _
    hnames.displaced.symm directory
  rw [putBackDisplaced]
  generalize removeEntryNoFollow circumstances .removeActivated names.destination directory =
    removed at hresult hfreed hkept ⊢
  obtain ⟨result, freed⟩ := removed
  dsimp only at hresult hfreed hkept
  subst hresult
  by_cases hactivated : directory.lexists names.destination ∧ circumstances.raises .removeActivated
  · rw [if_pos hactivated] at hfreed
    rw [if_pos hactivated, if_pos hactivated]
    exact hfreed
  · rw [if_neg hactivated] at hfreed
    rw [if_neg hactivated, if_neg hactivated]
    have hback := @rename_snd circumstances .putBack names.displaced names.destination freed
    dsimp only
    generalize rename circumstances .putBack names.displaced names.destination freed = renamed
      at hback ⊢
    obtain ⟨outcome, after⟩ := renamed
    dsimp only at hback
    have hafter : after names.destination =
        if circumstances.renames .putBack then some entry else none := by
      rw [hback]
      split
      · rw [Directory.replace_destination _ hnames.displaced, hkept, haside]
      · exact hfreed
    cases outcome with
    | ok _ => exact hafter
    | error _ => exact hafter

/-- What is at the destination when the rollback has come to its end, or has failed itself. -/
theorem rollBack_destination (hnames : names.Distinct) (directory : Directory) :
    (rollBack circumstances names error directory).2 names.destination =
      if directory.lexists names.staged ∧ circumstances.raises .removeStaged then
        directory names.destination
      else
        match directory names.displaced with
        | none => directory names.destination
        | some entry =>
            if directory.lexists names.destination ∧ circumstances.raises .removeActivated then
              circumstances.leftover .removeActivated
            else if circumstances.renames .putBack then some entry
            else none := by
  have hresult := @removeEntryNoFollow_fst circumstances .removeStaged names.staged directory
  have hdestination := @removeEntryNoFollow_of_ne circumstances .removeStaged _ _ hnames.staged
    directory
  have hdisplaced := @removeEntryNoFollow_of_ne circumstances .removeStaged _ _ hnames.apart
    directory
  rw [rollBack]
  generalize removeEntryNoFollow circumstances .removeStaged names.staged directory = removed
    at hresult hdestination hdisplaced ⊢
  obtain ⟨result, cleared⟩ := removed
  dsimp only at hresult hdestination hdisplaced
  subst hresult
  by_cases hstaged : directory.lexists names.staged ∧ circumstances.raises .removeStaged
  · rw [if_pos hstaged, if_pos hstaged]
    exact hdestination
  rw [if_neg hstaged, if_neg hstaged]
  dsimp only
  cases haside : directory names.displaced with
  | none =>
      rw [Directory.lexists, hdisplaced, haside, Option.isSome_none, if_neg Bool.false_ne_true]
      exact hdestination
  | some entry =>
      have hthere : cleared names.displaced = some entry := hdisplaced.trans haside
      have hfound : cleared.lexists names.destination = directory.lexists names.destination := by
        rw [Directory.lexists, hdestination, Directory.lexists]
      rw [Directory.lexists, hthere, Option.isSome_some, if_pos rfl,
        putBackDisplaced_destination hnames hthere, hfound]

/-- A call that rolls back raises. -/
theorem rollBack_raises (directory : Directory) :
    ∃ raised, (rollBack circumstances names error directory).1 = .error raised := by
  rw [rollBack]
  split
  · exact ⟨_, rfl⟩
  · split
    · rw [putBackDisplaced]
      split
      · exact ⟨_, rfl⟩
      · split
        · exact ⟨_, rfl⟩
        · exact ⟨_, rfl⟩
    · exact ⟨_, rfl⟩

/-- The live entry has not been moved. -/
structure InPlace (names : RestoreNames) (live : Option FileTree) (directory : Directory) :
    Prop where
  destination : directory names.destination = live
  displaced : directory names.displaced = none

/-- The live entry is aside, and the copy is not moved in. -/
structure Aside (names : RestoreNames) (live : Option FileTree) (directory : Directory) :
    Prop where
  destination : directory names.destination = none
  displaced : directory names.displaced = live
  staged : (directory names.staged).isSome

/-- An entry is moved in, and the live one is aside if there was one. -/
structure Activated (names : RestoreNames) (live : Option FileTree) (entry : FileTree)
    (directory : Directory) : Prop where
  destination : directory names.destination = some entry
  displaced : directory names.displaced = live
  staged : directory names.staged = none

/-- The entry that is aside comes back where nothing is in its place but the copy is left. -/
def Circumstances.PutsBack (circumstances : Circumstances) : Prop :=
  circumstances.raises .removeStaged = false ∧ circumstances.renames .putBack

/-- It comes back in the place of what was moved in. -/
def Circumstances.Supplants (circumstances : Circumstances) (entry : FileTree) : Prop :=
  if circumstances.raises .removeActivated then
    circumstances.leftover .removeActivated = some entry
  else circumstances.renames .putBack

theorem rollBack_of_inPlace (hnames : names.Distinct) (hplace : InPlace names live directory) :
    (rollBack circumstances names error directory).2 names.destination = live := by
  rw [rollBack_destination hnames, hplace.displaced, hplace.destination]
  exact ite_self _

theorem rollBack_aside_iff {entry : FileTree} (hnames : names.Distinct)
    (haside : Aside names (some entry) directory) :
    (rollBack circumstances names error directory).2 names.destination = some entry ↔
      circumstances.PutsBack := by
  rw [rollBack_destination hnames, haside.displaced, haside.destination, Directory.lexists,
    haside.staged, Directory.lexists, haside.destination, Circumstances.PutsBack]
  cases circumstances.raises .removeStaged with
  | false => simp
  | true => simp

theorem rollBack_activated_iff {entry : FileTree} (hnames : names.Distinct)
    (hactivated : Activated names live entry directory) :
    (rollBack circumstances names error directory).2 names.destination = live ↔
      ∃ former, live = some former ∧ circumstances.Supplants former := by
  rw [rollBack_destination hnames, hactivated.displaced, hactivated.destination,
    Directory.lexists, hactivated.staged, Directory.lexists, hactivated.destination]
  cases live with
  | none => simp
  | some former =>
      simp only [Option.isSome_none, Bool.false_eq_true, false_and, if_false, Option.isSome_some,
        true_and, Option.some.injEq, exists_eq_left', Circumstances.Supplants]
      cases circumstances.raises .removeActivated with
      | false => simp
      | true => simp

/-! ### Activating -/

/-- What is found in the place of the copy has the hash of the backup. -/
def Circumstances.Passes (circumstances : Circumstances) (sha256 : Bytes → String)
    (backup : FileTree) : Prop :=
  hashEntryNoFollow sha256 (some (circumstances.activated backup)) =
    hashEntryNoFollow sha256 (some backup)

/-- The live entry is set aside if there is one, and nothing raises at that. -/
def Circumstances.Clears (circumstances : Circumstances) (live : Option FileTree) : Prop :=
  live.isSome → circumstances.raises .setAside = false

/-- A step raises when the live entry is aside and the copy is not moved in yet. -/
def Circumstances.StopsAside (circumstances : Circumstances) (live : Option FileTree) : Prop :=
  live.isSome ∧
    if circumstances.raises .setAside then circumstances.interrupted .setAside = true
    else circumstances.renames .moveIn = false

/-- A step raises when the copy is moved in, or the hashes differ. -/
def Circumstances.StopsActivated (circumstances : Circumstances) (sha256 : Bytes → String)
    (backup : FileTree) (live : Option FileTree) : Prop :=
  circumstances.Clears live ∧
    if circumstances.raises .moveIn then circumstances.interrupted .moveIn = true
    else circumstances.raises .hash = true ∨ ¬ circumstances.Passes sha256 backup

/-- Nothing raises before the entry that is aside is to be removed. -/
structure Circumstances.Completes (circumstances : Circumstances) (sha256 : Bytes → String)
    (backup : FileTree) (live : Option FileTree) : Prop where
  clears : circumstances.Clears live
  moves : circumstances.raises .moveIn = false
  hashes : circumstances.raises .hash = false
  passes : circumstances.Passes sha256 backup

theorem copyEntryNoFollow_eq_ok {path : String}
    (hcopy : copyEntryNoFollow path source = .ok copy) : source = some copy := by
  cases source with
  | none => cases hcopy
  | some entry =>
      rw [copyEntryNoFollow] at hcopy
      dsimp only at hcopy
      split at hcopy
      · exact congrArg some (Except.ok.inj hcopy)
      · cases hcopy
      · cases hcopy

theorem verify_eq_ok :
    verify circumstances sha256 names mismatch source directory = .ok () ↔
      circumstances.raises .hash = false ∧
        hashEntryNoFollow sha256 (directory names.destination) =
          hashEntryNoFollow sha256 source := by
  rw [verify]
  cases circumstances.raises .hash with
  | true => simp
  | false =>
      by_cases hhash : hashEntryNoFollow sha256 (directory names.destination) =
          hashEntryNoFollow sha256 source
      · simp [hhash]
      · simp [hhash]

/-- What setting aside leaves. -/
theorem setAside_cases (hnames : names.Distinct) (hlive : directory names.destination = live)
    (hdisplaced : directory names.displaced = none)
    (hstaged : directory names.staged = some copy) :
    (∃ after, (if directory.lexists names.destination then
          rename circumstances .setAside names.destination names.displaced directory
        else (.ok (), directory)) = (.error (.raised .setAside), after) ∧
        circumstances.raises .setAside = true ∧ live.isSome ∧
        (InPlace names live after ∧ circumstances.interrupted .setAside = false ∨
          Aside names live after ∧ circumstances.interrupted .setAside = true)) ∨
      ∃ after, (if directory.lexists names.destination then
          rename circumstances .setAside names.destination names.displaced directory
        else (.ok (), directory)) = (.ok (), after) ∧ Aside names live after ∧
        after names.staged = some copy ∧ circumstances.Clears live := by
  have haside : Aside names live (directory.replace names.destination names.displaced) := by
    refine ⟨Directory.replace_source .., ?_, ?_⟩
    · rw [Directory.replace_destination _ hnames.displaced.symm, hlive]
    · rw [Directory.replace_of_ne _ hnames.staged.symm hnames.apart.symm, hstaged]
      rfl
  rw [Directory.lexists, hlive]
  cases live with
  | none =>
      refine .inr ⟨directory, rfl, ⟨hlive, hdisplaced, ?_⟩, hstaged, ?_⟩
      · rw [hstaged]
        rfl
      · exact fun hsome => absurd hsome Bool.false_ne_true
  | some entry =>
      rw [Option.isSome_some, if_pos rfl, rename]
      cases hraises : circumstances.raises .setAside with
      | true =>
          refine .inl ⟨_, rfl, rfl, rfl, ?_⟩
          cases circumstances.interrupted .setAside with
          | false => exact .inl ⟨⟨hlive, hdisplaced⟩, rfl⟩
          | true => exact .inr ⟨haside, rfl⟩
      | false =>
          refine .inr ⟨_, rfl, haside, ?_, fun _ => hraises⟩
          rw [Directory.replace_of_ne _ hnames.staged.symm hnames.apart.symm, hstaged]

theorem Activated.disturb (hnames : names.Distinct) (hmoved : Activated names live copy directory) :
    Activated names live (circumstances.activated copy)
      (circumstances.disturb names.destination directory) := by
  rw [Circumstances.activated, Circumstances.disturb]
  cases circumstances.exchanged with
  | none => exact hmoved
  | some entry =>
      refine ⟨Directory.put_same .., ?_, ?_⟩
      · exact (Directory.put_of_ne _ hnames.displaced.symm _).trans hmoved.displaced
      · exact (Directory.put_of_ne _ hnames.staged.symm _).trans hmoved.staged

/-- How the body of the `try` ends. -/
inductive Ends (circumstances : Circumstances) (sha256 : Bytes → String) (names : RestoreNames)
    (copy : FileTree) (live : Option FileTree) :
    Except RestoreError Unit × Directory → Prop where
  | inPlace (error : RestoreError) (after : Directory) : InPlace names live after →
      ¬ circumstances.StopsAside live → ¬ circumstances.StopsActivated sha256 copy live →
      ¬ circumstances.Completes sha256 copy live →
      Ends circumstances sha256 names copy live (.error error, after)
  | aside (error : RestoreError) (after : Directory) : Aside names live after →
      circumstances.StopsAside live → ¬ circumstances.StopsActivated sha256 copy live →
      ¬ circumstances.Completes sha256 copy live →
      Ends circumstances sha256 names copy live (.error error, after)
  | activated (error : RestoreError) (entry : FileTree) (after : Directory) :
      Activated names live entry after → ¬ circumstances.StopsAside live →
      circumstances.StopsActivated sha256 copy live → ¬ circumstances.Completes sha256 copy live →
      Ends circumstances sha256 names copy live (.error error, after)
  | verified (after : Directory) : Activated names live (circumstances.activated copy) after →
      ¬ circumstances.StopsAside live → ¬ circumstances.StopsActivated sha256 copy live →
      circumstances.Completes sha256 copy live →
      Ends circumstances sha256 names copy live (.ok (), after)

theorem ends_of_setAside_raises {error : RestoreError}
    (hraises : circumstances.raises .setAside = true) (hsome : live.isSome)
    (hplace : InPlace names live directory ∧ circumstances.interrupted .setAside = false ∨
      Aside names live directory ∧ circumstances.interrupted .setAside = true) :
    Ends circumstances sha256 names copy live (.error error, directory) := by
  have hnotClear : ¬ circumstances.Clears live := by
    intro hclears
    rw [hclears hsome] at hraises
    cases hraises
  have hnotActivated : ¬ circumstances.StopsActivated sha256 copy live :=
    fun hstops => hnotClear hstops.1
  have hnotComplete : ¬ circumstances.Completes sha256 copy live :=
    fun hcompletes => hnotClear hcompletes.clears
  rcases hplace with ⟨hplace, hdone⟩ | ⟨hplace, hdone⟩
  · refine .inPlace _ _ hplace ?_ hnotActivated hnotComplete
    simp [Circumstances.StopsAside, hraises, hdone]
  · refine .aside _ _ hplace ?_ hnotActivated hnotComplete
    simp [Circumstances.StopsAside, hraises, hdone, hsome]

/-- Where the live entry could be set aside, it stays aside when the copy is not moved in. -/
theorem Circumstances.Clears.stopsAside_iff (hclears : circumstances.Clears live) :
    circumstances.StopsAside live ↔ live.isSome ∧ circumstances.renames .moveIn = false := by
  rw [Circumstances.StopsAside]
  apply and_congr_right
  intro hsome
  rw [hclears hsome, if_neg Bool.false_ne_true]

theorem ends_of_moveIn_raises {error : RestoreError} (hclears : circumstances.Clears live)
    (hset : Aside names live directory)
    (hmoved : Activated names live copy (directory.replace names.staged names.destination))
    (hraises : circumstances.raises .moveIn = true) :
    Ends circumstances sha256 names copy live
      (.error error, if circumstances.interrupted .moveIn then
        directory.replace names.staged names.destination else directory) := by
  have hnotComplete : ¬ circumstances.Completes sha256 copy live := by
    intro hcompletes
    rw [hcompletes.moves] at hraises
    cases hraises
  cases hdone : circumstances.interrupted .moveIn with
  | false =>
      have hnotActivated : ¬ circumstances.StopsActivated sha256 copy live := by
        simp [Circumstances.StopsActivated, hraises, hdone]
      have hrenames : circumstances.renames .moveIn = false := by
        simp [Circumstances.renames, hraises, hdone]
      rw [if_neg Bool.false_ne_true]
      cases live with
      | none =>
          refine .inPlace _ _ ⟨hset.destination, hset.displaced⟩ ?_ hnotActivated hnotComplete
          exact fun hstops => absurd hstops.1 Bool.false_ne_true
      | some entry =>
          refine .aside _ _ hset ?_ hnotActivated hnotComplete
          exact hclears.stopsAside_iff.mpr ⟨rfl, hrenames⟩
  | true =>
      have hrenames : circumstances.renames .moveIn = true := by
        simp [Circumstances.renames, hdone]
      rw [if_pos rfl]
      refine .activated _ _ _ hmoved ?_ ⟨hclears, ?_⟩ hnotComplete
      · intro hstops
        rw [(hclears.stopsAside_iff.mp hstops).2] at hrenames
        cases hrenames
      · rw [if_pos hraises]
        exact hdone

theorem ends_verify (hclears : circumstances.Clears live)
    (hraises : circumstances.raises .moveIn = false)
    (hactivated : Activated names live (circumstances.activated copy) directory) :
    Ends circumstances sha256 names copy live
      (verify circumstances sha256 names mismatch (some copy) directory, directory) := by
  have hnotAside : ¬ circumstances.StopsAside live := by
    intro hstops
    have hrenames := (hclears.stopsAside_iff.mp hstops).2
    simp [Circumstances.renames, hraises] at hrenames
  have hpassed : verify circumstances sha256 names mismatch (some copy) directory = .ok () ↔
      circumstances.raises .hash = false ∧ circumstances.Passes sha256 copy := by
    rw [verify_eq_ok, hactivated.destination]
    exact Iff.rfl
  have hmoves : ¬ circumstances.raises .moveIn = true := by
    rw [hraises]
    exact Bool.false_ne_true
  cases hverify : verify circumstances sha256 names mismatch (some copy) directory with
  | ok _ =>
      obtain ⟨hhashes, hpasses⟩ := hpassed.mp hverify
      refine .verified _ hactivated hnotAside ?_ ⟨hclears, hraises, hhashes, hpasses⟩
      rintro ⟨-, hstops⟩
      rw [if_neg hmoves] at hstops
      rcases hstops with hhash | hfails
      · rw [hhashes] at hhash
        cases hhash
      · exact hfails hpasses
  | error error =>
      have hfailed : ¬ (circumstances.raises .hash = false ∧
          circumstances.Passes sha256 copy) := by
        intro hboth
        rw [hpassed.mpr hboth] at hverify
        cases hverify
      refine .activated _ _ _ hactivated hnotAside ⟨hclears, ?_⟩ ?_
      · rw [if_neg hmoves]
        by_contra hneither
        obtain ⟨hhash, hpasses⟩ := not_or.mp hneither
        exact hfailed ⟨Bool.eq_false_iff.mpr hhash, not_not.mp hpasses⟩
      · exact fun hcompletes => hfailed ⟨hcompletes.hashes, hcompletes.passes⟩

/-- It ends before the entry is aside, with the entry aside, with the copy moved in, or well. -/
theorem ends_activate (hnames : names.Distinct) (hlive : directory names.destination = live)
    (hdisplaced : directory names.displaced = none)
    (hstaged : directory names.staged = some copy) :
    Ends circumstances sha256 names copy live
      (activate circumstances sha256 names mismatch (some copy) directory) := by
  rw [activate]
  rcases @setAside_cases circumstances _ _ _ _ hnames hlive hdisplaced hstaged with
    ⟨after, haside, hraises, hsome, hplace⟩ | ⟨after, haside, hset, hcopied, hclears⟩
  · rw [haside]
    exact ends_of_setAside_raises hraises hsome hplace
  · rw [haside]
    dsimp only
    have hmoved : Activated names live copy (after.replace names.staged names.destination) := by
      refine ⟨?_, ?_, Directory.replace_source ..⟩
      · rw [Directory.replace_destination _ hnames.staged, hcopied]
      · rw [Directory.replace_of_ne _ hnames.apart hnames.displaced.symm, hset.displaced]
    rw [rename]
    cases hraises : circumstances.raises .moveIn with
    | true => exact ends_of_moveIn_raises hclears hset hmoved hraises
    | false => exact ends_verify hclears hraises (Activated.disturb hnames hmoved)

/-! ### What a call leaves -/

/-- The destination is the backup after a call that succeeds, as far as its hash tells when another
program interferes, and what it was after a call that fails. -/
def Settles (circumstances : Circumstances) (sha256 : Bytes → String) (destination : String)
    (source : Option FileTree) (before after : Directory) : Except RestoreError Unit → Prop
  | .error _ => after destination = before destination
  | .ok () => ∃ found, after destination = some found ∧
      hashEntryNoFollow sha256 (some found) = hashEntryNoFollow sha256 source ∧
      (circumstances.exchanged = none → source = some found)

/-- A failure can be undone wherever one happens: an entry that is aside comes back, nothing fails
once a copy is moved in where nothing was, and the entry that is aside at the end can be removed
unless it equals what is in its place. -/
structure Circumstances.Undoable (circumstances : Circumstances) (sha256 : Bytes → String)
    (backup : FileTree) (live : Option FileTree) : Prop where
  aside : circumstances.StopsAside live → circumstances.PutsBack
  activated : circumstances.StopsActivated sha256 backup live →
    ∃ former, live = some former ∧ circumstances.Supplants former
  completed : circumstances.Completes sha256 backup live →
    circumstances.raises .removeDisplaced = true →
      ∀ former, live = some former → circumstances.activated backup = former

/-- The last step: the copy is in place and has passed. -/
theorem removeDisplaced_settles_iff {before : Directory} (hnames : names.Distinct)
    (hlive : before names.destination = live)
    (hactivated : Activated names live (circumstances.activated copy) directory)
    (hpasses : circumstances.Passes sha256 copy) :
    Settles circumstances sha256 names.destination (some copy) before
        (removeEntryNoFollow circumstances .removeDisplaced names.displaced directory).2
        (removeEntryNoFollow circumstances .removeDisplaced names.displaced directory).1 ↔
      (circumstances.raises .removeDisplaced = true →
        ∀ former, live = some former → circumstances.activated copy = former) := by
  have hdestination := (@removeEntryNoFollow_of_ne circumstances .removeDisplaced _ _
    hnames.displaced directory).trans hactivated.destination
  rw [removeEntryNoFollow_fst, Directory.lexists, hactivated.displaced]
  cases live with
  | none =>
      rw [if_neg (by simp), Settles]
      apply iff_of_true
      · refine ⟨_, hdestination, hpasses, fun hexchanged => ?_⟩
        rw [Circumstances.activated, hexchanged]
        rfl
      · exact fun _ former hsome => by cases hsome
  | some former =>
      cases circumstances.raises .removeDisplaced with
      | true =>
          rw [if_pos ⟨rfl, rfl⟩, Settles, hdestination, hlive, Option.some.injEq]
          constructor
          · rintro hsame - other hother
            rw [hsame, Option.some.inj hother]
          · exact fun hall => hall rfl former rfl
      | false =>
          rw [if_neg (by simp), Settles]
          apply iff_of_true
          · refine ⟨_, hdestination, hpasses, fun hexchanged => ?_⟩
            rw [Circumstances.activated, hexchanged]
            rfl
          · exact fun hraises => absurd hraises Bool.false_ne_true

/-- What the body of the `try` and the steps after it leave. -/
theorem settles_of_ends {before : Directory} {outcome : Except RestoreError Unit × Directory}
    (hnames : names.Distinct) (hlive : before names.destination = live)
    (hends : Ends circumstances sha256 names copy live outcome) :
    Settles circumstances sha256 names.destination (some copy) before
        (match outcome with
          | (.error error, directory) => rollBack circumstances names error directory
          | (.ok (), directory) =>
              removeEntryNoFollow circumstances .removeDisplaced names.displaced directory).2
        (match outcome with
          | (.error error, directory) => rollBack circumstances names error directory
          | (.ok (), directory) =>
              removeEntryNoFollow circumstances .removeDisplaced names.displaced directory).1 ↔
      circumstances.Undoable sha256 copy live := by
  have hraised : ∀ error directory, Settles circumstances sha256 names.destination (some copy)
      before (rollBack circumstances names error directory).2
        (rollBack circumstances names error directory).1 ↔
      (rollBack circumstances names error directory).2 names.destination = live := by
    intro error directory
    obtain ⟨raised, hresult⟩ := @rollBack_raises circumstances names error directory
    rw [hresult, Settles, hlive]
  cases hends with
  | inPlace error after hplace haside hactivated hcompletes =>
      refine (hraised error after).trans (iff_of_true (rollBack_of_inPlace hnames hplace) ?_)
      exact ⟨fun hstops => absurd hstops haside, fun hstops => absurd hstops hactivated,
        fun hdone => absurd hdone hcompletes⟩
  | aside error after hplace haside hactivated hcompletes =>
      obtain ⟨former, rfl⟩ := Option.isSome_iff_exists.mp haside.1
      refine (hraised error after).trans ((rollBack_aside_iff hnames hplace).trans ?_)
      constructor
      · exact fun hback => ⟨fun _ => hback, fun hstops => absurd hstops hactivated,
          fun hdone => absurd hdone hcompletes⟩
      · exact fun hundoable => hundoable.aside haside
  | activated error entry after hplace haside hactivated hcompletes =>
      refine (hraised error after).trans ((rollBack_activated_iff hnames hplace).trans ?_)
      constructor
      · exact fun hback => ⟨fun hstops => absurd hstops haside, fun _ => hback,
          fun hdone => absurd hdone hcompletes⟩
      · exact fun hundoable => hundoable.activated hactivated
  | verified after hplace haside hactivated hcompletes =>
      refine (removeDisplaced_settles_iff hnames hlive hplace hcompletes.passes).trans ?_
      constructor
      · exact fun hsame => ⟨fun hstops => absurd hstops haside,
          fun hstops => absurd hstops hactivated, fun _ => hsame⟩
      · exact fun hundoable => hundoable.completed hcompletes

/-- What both functions leave, for any names. -/
theorem replaceByCopy_settles_iff (hnames : names.Distinct)
    (hfree : directory names.displaced = none) :
    Settles circumstances sha256 names.destination source directory
        (replaceByCopy circumstances sha256 names mismatch sourcePath source directory).2
        (replaceByCopy circumstances sha256 names mismatch sourcePath source directory).1 ↔
      (circumstances.raises .copy = false → ∀ backup,
        copyEntryNoFollow sourcePath source = .ok backup →
          circumstances.Undoable sha256 backup (directory names.destination)) := by
  have hstart : ∀ entry, (directory.put names.staged entry) names.destination =
      directory names.destination := Directory.put_of_ne _ hnames.staged
  rw [replaceByCopy]
  cases hcopying : circumstances.raises .copy with
  | true =>
      exact iff_of_true (hstart _) fun hother => absurd hother.symm Bool.false_ne_true
  | false =>
      rw [if_neg Bool.false_ne_true]
      cases hcopy : copyEntryNoFollow sourcePath source with
      | error message =>
          refine iff_of_true (hstart _) fun _ backup hok => ?_
          cases hok
      | ok copy =>
          obtain rfl := copyEntryNoFollow_eq_ok hcopy
          have hends : Ends circumstances sha256 names copy (directory names.destination)
              (activate circumstances sha256 names mismatch (some copy)
                (directory.put names.staged (some copy))) :=
            ends_activate hnames (hstart (some copy))
              ((Directory.put_of_ne _ hnames.apart _).trans hfree) (Directory.put_same ..)
          refine (settles_of_ends hnames rfl hends).trans ?_
          constructor
          · intro hundoable _ backup hok
            exact Except.ok.inj hok ▸ hundoable
          · exact fun hall => hall rfl copy rfl

end Steps

/-! ### The two functions -/

section Functions

variable {circumstances : Circumstances} {sha256 : Bytes → String}
  {token sourcePath destination : String} {source : Option FileTree} {directory : Directory}

/-- **What a recovery and the source guard leave.** The destination is the backup after a call that
succeeds and what it was after a call that fails, exactly if a failure can be undone where one
happens. -/
theorem restoration_settles_iff
    (hfree : directory (hiddenName destination "displaced" token) = none) :
    (Settles circumstances sha256 destination source directory
        (restoreBackupEntryAtomic circumstances sha256 token sourcePath destination source
          directory).2
        (restoreBackupEntryAtomic circumstances sha256 token sourcePath destination source
          directory).1 ↔
      (circumstances.raises .copy = false → ∀ backup,
        copyEntryNoFollow sourcePath source = .ok backup →
          circumstances.Undoable sha256 backup (directory destination))) ∧
    (Settles circumstances sha256 destination source directory
        (restoreEntry circumstances sha256 token sourcePath destination source directory).2
        (restoreEntry circumstances sha256 token sourcePath destination source directory).1 ↔
      (circumstances.raises .copy = false → ∀ backup,
        copyEntryNoFollow sourcePath source = .ok backup →
          circumstances.Undoable sha256 backup (directory destination))) := by
  constructor
  · exact replaceByCopy_settles_iff (RestoreNames.distinct_of (by decide) destination token) hfree
  · exact replaceByCopy_settles_iff (RestoreNames.distinct_of (by decide) destination token) hfree

/-- A directory in which one name is taken. -/
def singleEntry (name : String) (entry : FileTree) : Directory :=
  Directory.put (fun _ => none) name (some entry)

/-- The comparison of the hashes raises. -/
def unchecked : Circumstances :=
  { raises := fun step => step = .hash }

/-- It raises, and what was moved in cannot be removed, as a directory that may not be written. -/
def uncheckedUnremoved (entry : FileTree) : Circumstances :=
  { raises := fun step => step = .hash ∨ step = .removeActivated, leftover := fun _ => some entry }

/-- The entry that was replaced comes back if the copy can be removed, and stays aside if not. -/
theorem restoration_settles_iff_replaced :
    singleEntry "settings" (.symlink 511 "old") (hiddenName "settings" "displaced" "0f") = none ∧
      Settles unchecked (fun _ => "") "settings" (some (.file 420 [65]))
        (singleEntry "settings" (.symlink 511 "old"))
        (restoreBackupEntryAtomic unchecked (fun _ => "") "0f" "backup/settings" "settings"
          (some (.file 420 [65])) (singleEntry "settings" (.symlink 511 "old"))).2
        (restoreBackupEntryAtomic unchecked (fun _ => "") "0f" "backup/settings" "settings"
          (some (.file 420 [65])) (singleEntry "settings" (.symlink 511 "old"))).1 ∧
      ¬ Settles (uncheckedUnremoved (.directory 365 [])) (fun _ => "") "settings"
        (some (.directory 365 [])) (singleEntry "settings" (.symlink 511 "old"))
        (restoreEntry (uncheckedUnremoved (.directory 365 [])) (fun _ => "") "0f"
          "backup/settings" "settings" (some (.directory 365 []))
          (singleEntry "settings" (.symlink 511 "old"))).2
        (restoreEntry (uncheckedUnremoved (.directory 365 [])) (fun _ => "") "0f"
          "backup/settings" "settings" (some (.directory 365 []))
          (singleEntry "settings" (.symlink 511 "old"))).1 := by
  have hfree : singleEntry "settings" (.symlink 511 "old")
      (hiddenName "settings" "displaced" "0f") = none :=
    Directory.put_of_ne _ (ne_hiddenName "settings" "displaced" "0f").symm _
  have hlive : singleEntry "settings" (.symlink 511 "old") "settings" =
      some (.symlink 511 "old") := Directory.put_same ..
  refine ⟨hfree, (restoration_settles_iff hfree).1.mpr ?_, ?_⟩
  · intro _ backup _
    rw [hlive]
    refine ⟨fun hstops => ?_, fun _ => ⟨_, rfl, rfl⟩, fun hcompletes => ?_⟩
    · exact absurd hstops.2 (by decide)
    · exact absurd hcompletes.hashes (by decide)
  · intro hsettles
    have hundoable := (restoration_settles_iff hfree).2.mp hsettles rfl (.directory 365 []) rfl
    rw [hlive] at hundoable
    obtain ⟨former, hformer, hback⟩ := hundoable.activated ⟨fun _ => rfl, .inl rfl⟩
    obtain rfl := Option.some.inj hformer
    exact absurd (Option.some.inj hback) (fun hsame => by cases hsame)

/-- Where nothing was, a copy that could not be checked stays. -/
theorem unchecked_copy_stays :
    (restoreBackupEntryAtomic unchecked (fun _ => "") "0f" "backup/settings" "settings"
        (some (.file 420 [65])) fun _ => none).1 = .error (.raised .hash) ∧
      (restoreBackupEntryAtomic unchecked (fun _ => "") "0f" "backup/settings" "settings"
        (some (.file 420 [65])) fun _ => none).2 "settings" = some (.file 420 [65]) ∧
      ¬ Settles unchecked (fun _ => "") "settings" (some (.file 420 [65])) (fun _ => none)
        (restoreBackupEntryAtomic unchecked (fun _ => "") "0f" "backup/settings" "settings"
          (some (.file 420 [65])) fun _ => none).2
        (restoreBackupEntryAtomic unchecked (fun _ => "") "0f" "backup/settings" "settings"
          (some (.file 420 [65])) fun _ => none).1 := by
  have houtcome : (restoreBackupEntryAtomic unchecked (fun _ => "") "0f" "backup/settings"
      "settings" (some (.file 420 [65])) fun _ => none).1 = .error (.raised .hash) := rfl
  have hdestination : (restoreBackupEntryAtomic unchecked (fun _ => "") "0f" "backup/settings"
      "settings" (some (.file 420 [65])) fun _ => none).2 "settings" =
        some (.file 420 [65]) := rfl
  refine ⟨houtcome, hdestination, ?_⟩
  rw [houtcome, Settles, hdestination]
  exact Option.some_ne_none _

end Functions

end SupernoteModule.Filesystem
