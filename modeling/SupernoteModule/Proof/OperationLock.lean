import SupernoteModule.Generation.OperationLock
import SupernoteModule.Lib.Exclusive

/-!
# The plugin operation lock excludes

What a process claims and what the system has locked are at every time exactly what the commands on
the way hold, however their calls fail and whichever processes are killed.
-/

namespace SupernoteModule.Generation.OperationLock

open SupernoteModule.Lib Function

/-! ### What a command holds -/

/-- Between its claim and the end of it. -/
def Point.claiming : Point → Bool
  | .outside | .ended _ | .killed => false
  | .claimed | .opened _ | .inside _ | .unlocking _ _ | .closing _ _ | .discarding _ => true

/-- Where a command is sure to have the directory locked. -/
def Point.Locks (directory : Nat) : Point → Prop
  | .inside held | .unlocking held _ => held = directory
  | .outside | .claimed | .opened _ | .closing _ _ | .discarding _ | .ended _ | .killed => False

/-- Where a command may have it locked: an unlock can have failed. -/
def Point.MayLock (directory : Nat) : Point → Prop
  | .inside held | .unlocking held _ | .closing held _ => held = directory
  | .outside | .claimed | .opened _ | .discarding _ | .ended _ | .killed => False

variable {commands : Nat → Command}

structure Claimed (commands : Nat → Command) (points : Nat → Point) (claims : Nat → Finset String) :
    Prop where
  mem_iff : ∀ process identity, identity ∈ claims process ↔
    ∃ command, commands command = ⟨process, identity⟩ ∧ (points command).claiming = true
  unique : ∀ first second, commands first = commands second →
    (points first).claiming = true → (points second).claiming = true → first = second

structure Locked (points : Nat → Point) (locks : Nat → Option Nat) : Prop where
  sure : ∀ command directory, (points command).Locks directory → locks directory = some command
  held : ∀ command directory, locks directory = some command → (points command).MayLock directory

structure Inv (commands : Nat → Command) (state : State) : Prop where
  claimed : Claimed commands state.points state.claims
  locked : Locked state.points state.locks

variable {points : Nat → Point} {claims : Nat → Finset String} {locks : Nat → Option Nat}
  {command directory : Nat} {point : Point}

/-! ### Claims -/

theorem Claimed.move (hclaimed : Claimed commands points claims)
    (hsame : point.claiming = (points command).claiming) :
    Claimed commands (update points command point) claims := by
  have hclaiming : ∀ other,
      (update points command point other).claiming = (points other).claiming := by
    intro other
    rcases eq_or_ne other command with rfl | hne
    · rw [update_self, hsame]
    · rw [update_of_ne hne]
  constructor
  · intro process identity
    simp only [hclaiming]
    exact hclaimed.mem_iff process identity
  · intro first second hsameCommand hfirst hsecond
    rw [hclaiming] at hfirst hsecond
    exact hclaimed.unique first second hsameCommand hfirst hsecond

theorem Claimed.claim (hclaimed : Claimed commands points claims) {process : Nat}
    {identity : String} (hcommand : commands command = ⟨process, identity⟩)
    (hfree : identity ∉ claims process) :
    Claimed commands (update points command .claimed)
      (update claims process (insert identity (claims process))) := by
  have hnone : ∀ other, commands other = ⟨process, identity⟩ → (points other).claiming ≠ true := by
    intro other hother hclaiming
    exact hfree ((hclaimed.mem_iff process identity).mpr ⟨other, hother, hclaiming⟩)
  constructor
  · intro owner path
    rcases eq_or_ne owner process with rfl | howner
    · rw [update_self, Finset.mem_insert, hclaimed.mem_iff]
      constructor
      · rintro (rfl | ⟨other, hother, hclaiming⟩)
        · exact ⟨command, hcommand, by rw [update_self]; rfl⟩
        · rcases eq_or_ne other command with rfl | hne
          · exact ⟨other, hother, by rw [update_self]; rfl⟩
          · exact ⟨other, hother, by rwa [update_of_ne hne]⟩
      · rintro ⟨other, hother, hclaiming⟩
        rcases eq_or_ne other command with rfl | hne
        · rw [hcommand, Command.mk.injEq] at hother
          exact .inl hother.2.symm
        · rw [update_of_ne hne] at hclaiming
          exact .inr ⟨other, hother, hclaiming⟩
    · rw [update_of_ne howner, hclaimed.mem_iff]
      have hother : ∀ other, commands other = ⟨owner, path⟩ → other ≠ command := by
        rintro other hother rfl
        rw [hcommand, Command.mk.injEq] at hother
        exact howner hother.1.symm
      constructor
      · rintro ⟨other, hsame, hclaiming⟩
        exact ⟨other, hsame, by rwa [update_of_ne (hother other hsame)]⟩
      · rintro ⟨other, hsame, hclaiming⟩
        rw [update_of_ne (hother other hsame)] at hclaiming
        exact ⟨other, hsame, hclaiming⟩
  · intro first second hsame hfirst hsecond
    rcases eq_or_ne first command with rfl | hfirstNe
    · rcases eq_or_ne second first with rfl | hsecondNe
      · rfl
      · rw [update_of_ne hsecondNe] at hsecond
        exact absurd hsecond (hnone second (hsame ▸ hcommand))
    · rw [update_of_ne hfirstNe] at hfirst
      rcases eq_or_ne second command with rfl | hsecondNe
      · exact absurd hfirst (hnone first (hsame.trans hcommand))
      · rw [update_of_ne hsecondNe] at hsecond
        exact hclaimed.unique first second hsame hfirst hsecond

theorem Claimed.discard (hclaimed : Claimed commands points claims) {process : Nat}
    {identity : String} (hcommand : commands command = ⟨process, identity⟩)
    (hclaiming : (points command).claiming = true) (hpoint : point.claiming = false) :
    Claimed commands (update points command point)
      (update claims process ((claims process).erase identity)) := by
  constructor
  · intro owner path
    have hothers : (∃ other, commands other = ⟨owner, path⟩ ∧
        (update points command point other).claiming = true) ↔
        ∃ other, other ≠ command ∧ commands other = ⟨owner, path⟩ ∧
          (points other).claiming = true := by
      constructor
      · rintro ⟨other, hother, hclaims⟩
        rcases eq_or_ne other command with rfl | hne
        · rw [update_self, hpoint] at hclaims
          cases hclaims
        · rw [update_of_ne hne] at hclaims
          exact ⟨other, hne, hother, hclaims⟩
      · rintro ⟨other, hne, hother, hclaims⟩
        exact ⟨other, hother, by rwa [update_of_ne hne]⟩
    rw [hothers]
    rcases eq_or_ne owner process with rfl | howner
    · rw [update_self, Finset.mem_erase, hclaimed.mem_iff]
      constructor
      · rintro ⟨hpath, other, hother, hclaims⟩
        refine ⟨other, ?_, hother, hclaims⟩
        rintro rfl
        rw [hcommand, Command.mk.injEq] at hother
        exact hpath hother.2.symm
      · rintro ⟨other, hne, hother, hclaims⟩
        refine ⟨?_, other, hother, hclaims⟩
        rintro rfl
        exact hne (hclaimed.unique other command (hother.trans hcommand.symm) hclaims hclaiming)
    · rw [update_of_ne howner, hclaimed.mem_iff]
      constructor
      · rintro ⟨other, hother, hclaims⟩
        refine ⟨other, ?_, hother, hclaims⟩
        rintro rfl
        rw [hcommand, Command.mk.injEq] at hother
        exact howner hother.1.symm
      · rintro ⟨other, -, hother, hclaims⟩
        exact ⟨other, hother, hclaims⟩
  · intro first second hsame hfirst hsecond
    have hpast : ∀ other, (update points command point other).claiming = true →
        (points other).claiming = true := by
      intro other hclaims
      rcases eq_or_ne other command with rfl | hne
      · rw [update_self, hpoint] at hclaims
        cases hclaims
      · rwa [update_of_ne hne] at hclaims
    exact hclaimed.unique first second hsame (hpast first hfirst) (hpast second hsecond)

theorem Claimed.kill (hclaimed : Claimed commands points claims) (process : Nat) :
    Claimed commands
      (fun command => if (commands command).process = process then .killed else points command)
      (update claims process ∅) := by
  have hpast : ∀ other, (if (commands other).process = process then Point.killed
      else points other).claiming = true →
      (commands other).process ≠ process ∧ (points other).claiming = true := by
    intro other hclaims
    by_cases hkilled : (commands other).process = process
    · rw [if_pos hkilled] at hclaims
      cases hclaims
    · rw [if_neg hkilled] at hclaims
      exact ⟨hkilled, hclaims⟩
  constructor
  · intro owner path
    rcases eq_or_ne owner process with rfl | howner
    · rw [update_self]
      constructor
      · intro hmem
        exact absurd hmem (Finset.notMem_empty path)
      · rintro ⟨other, hother, hclaims⟩
        exact absurd (by rw [hother]) (hpast other hclaims).1
    · rw [update_of_ne howner, hclaimed.mem_iff]
      constructor
      · rintro ⟨other, hother, hclaims⟩
        refine ⟨other, hother, ?_⟩
        rwa [if_neg (by rw [hother]; exact howner)]
      · rintro ⟨other, hother, hclaims⟩
        exact ⟨other, hother, (hpast other hclaims).2⟩
  · intro first second hsame hfirst hsecond
    exact hclaimed.unique first second hsame (hpast first hfirst).2 (hpast second hsecond).2

/-! ### Locks -/

theorem Locked.move (hlocked : Locked points locks)
    (hsure : ∀ directory, point.Locks directory → locks directory = some command)
    (hheld : ∀ directory, locks directory = some command → point.MayLock directory) :
    Locked (update points command point) locks := by
  constructor
  · intro other directory hlocks
    rcases eq_or_ne other command with rfl | hne
    · rw [update_self] at hlocks
      exact hsure directory hlocks
    · rw [update_of_ne hne] at hlocks
      exact hlocked.sure other directory hlocks
  · intro other directory hlock
    rcases eq_or_ne other command with rfl | hne
    · rw [update_self]
      exact hheld directory hlock
    · rw [update_of_ne hne]
      exact hlocked.held other directory hlock

/-- The locks of a directory change for a command that holds it, or that nobody excludes. -/
theorem Locked.assign (hlocked : Locked points locks) {owner : Option Nat}
    (hbefore : ∀ other, locks directory = some other → other = command)
    (howner : ∀ other, owner = some other → other = command)
    (hsure : ∀ place, point.Locks place → update locks directory owner place = some command)
    (hheld : ∀ place, update locks directory owner place = some command → point.MayLock place) :
    Locked (update points command point) (update locks directory owner) := by
  constructor
  · intro other place hlocks
    rcases eq_or_ne other command with rfl | hne
    · rw [update_self] at hlocks
      exact hsure place hlocks
    · rw [update_of_ne hne] at hlocks
      have hlock := hlocked.sure other place hlocks
      rcases eq_or_ne place directory with rfl | hplace
      · exact absurd (hbefore other hlock) hne
      · rwa [update_of_ne hplace]
  · intro other place hlock
    rcases eq_or_ne other command with rfl | hne
    · rw [update_self]
      exact hheld place hlock
    · rw [update_of_ne hne]
      rcases eq_or_ne place directory with rfl | hplace
      · rw [update_self] at hlock
        exact absurd (howner other hlock) hne
      · rw [update_of_ne hplace] at hlock
        exact hlocked.held other place hlock

theorem Locked.kill (hlocked : Locked points locks) (process : Nat) :
    Locked (fun command => if (commands command).process = process then .killed else points command)
      (fun directory => (locks directory).filter
        fun command => (commands command).process ≠ process) := by
  constructor
  · intro command directory hlocks
    by_cases hkilled : (commands command).process = process
    · rw [if_pos hkilled] at hlocks
      exact absurd hlocks id
    · rw [if_neg hkilled] at hlocks
      rw [hlocked.sure command directory hlocks, Option.filter_some, if_pos]
      exact decide_eq_true hkilled
  · intro command directory hlock
    obtain ⟨hlock, hkept⟩ := Option.filter_eq_some_iff.mp hlock
    rw [if_neg (of_decide_eq_true hkept)]
    exact hlocked.held command directory hlock

/-! ### Steps -/

variable {state : State} {history : List Event} {exit : Exit}

/-- A command that has nothing locked for sure keeps what may still be locked in sight. -/
theorem Locked.move_kept (hlocked : Locked points locks)
    (hsure : ∀ directory, ¬ point.Locks directory)
    (hkept : ∀ directory, (points command).MayLock directory → point.MayLock directory) :
    Locked (update points command point) locks :=
  hlocked.move (fun directory hlocks => absurd hlocks (hsure directory))
    fun directory hlock => hkept directory (hlocked.held command directory hlock)

theorem inv_claim (hinv : Inv commands state) (houtside : state.points command = .outside) :
    Inv commands (claim commands command state).1 := by
  cases hcommand : commands command with
  | mk process identity =>
      have hmay : ∀ directory, ¬ (state.points command).MayLock directory := by
        intro directory hmay
        rw [houtside] at hmay
        exact hmay
      unfold claim
      rw [hcommand]
      dsimp only
      split
      · constructor
        · apply hinv.claimed.move
          rw [houtside]
          rfl
        · exact hinv.locked.move_kept (fun _ hlocks => hlocks)
            fun directory hlock => absurd hlock (hmay directory)
      · rename_i hfree
        constructor
        · exact hinv.claimed.claim hcommand hfree
        · exact hinv.locked.move_kept (fun _ hlocks => hlocks)
            fun directory hlock => absurd hlock (hmay directory)

theorem inv_openDirectory (hinv : Inv commands state) (hclaimed : state.points command = .claimed)
    (opened : Option Nat) : Inv commands (openDirectory command opened state).1 := by
  have hmay : ∀ directory, ¬ (state.points command).MayLock directory := by
    intro directory hmay
    rw [hclaimed] at hmay
    exact hmay
  cases opened with
  | none =>
      constructor
      · apply hinv.claimed.move
        rw [hclaimed]
        rfl
      · exact hinv.locked.move_kept (fun _ hlocks => hlocks)
          fun directory hlock => absurd hlock (hmay directory)
  | some directory =>
      constructor
      · apply hinv.claimed.move
        rw [hclaimed]
        rfl
      · exact hinv.locked.move_kept (fun _ hlocks => hlocks)
          fun directory hlock => absurd hlock (hmay directory)

theorem inv_lock (hinv : Inv commands state) (hopened : state.points command = .opened directory)
    (fails : Bool) : Inv commands (lock command fails state).1 := by
  have hmay : ∀ place, ¬ (state.points command).MayLock place := by
    intro place hmay
    rw [hopened] at hmay
    exact hmay
  have hclosing : ∀ exit, Inv commands (state.move command (.closing directory exit)) := by
    intro exit
    constructor
    · apply hinv.claimed.move
      rw [hopened]
      rfl
    · exact hinv.locked.move_kept (fun _ hlocks => hlocks)
        fun place hlock => absurd hlock (hmay place)
  rw [lock, hopened]
  dsimp only
  split
  · exact hclosing .os
  split
  · exact hclosing .busy
  · rename_i hfree
    have hnone : state.locks directory = none := Option.not_isSome_iff_eq_none.mp hfree
    constructor
    · apply hinv.claimed.move
      rw [hopened]
      rfl
    · apply hinv.locked.assign
      · intro other hother
        rw [hnone] at hother
        cases hother
      · exact fun other hother => (Option.some.inj hother).symm
      · rintro place rfl
        exact update_self _ _ _
      · intro place hplace
        rcases eq_or_ne place directory with rfl | hne
        · rfl
        · rw [update_of_ne hne] at hplace
          exact absurd (hinv.locked.held command place hplace) (hmay place)

theorem inv_leave (hinv : Inv commands state) (hinside : state.points command = .inside directory)
    (raises : Bool) : Inv commands (leave command raises state).1 := by
  rw [leave, hinside]
  constructor
  · apply hinv.claimed.move
    rw [hinside]
    rfl
  · apply hinv.locked.move
    · rintro place rfl
      apply hinv.locked.sure
      rw [hinside]
      rfl
    · intro place hplace
      have hmay := hinv.locked.held command place hplace
      rwa [hinside] at hmay

/-- Where a command has the directory locked, it gives up that lock and no other one. -/
theorem inv_release (hinv : Inv commands state) (hpoint : (state.points command).MayLock directory)
    (hlock : state.locks directory = some command)
    (hclaiming : point.claiming = (state.points command).claiming)
    (hmay : ∀ place, (state.points command).MayLock place → place = directory)
    (hsure : ∀ place, ¬ point.Locks place) :
    Inv commands ((state.unlockDirectory directory).move command point) := by
  constructor
  · exact hinv.claimed.move hclaiming
  · apply hinv.locked.assign
    · intro other hother
      rw [hlock] at hother
      exact (Option.some.inj hother).symm
    · exact fun other hother => by cases hother
    · exact fun place hlocks => absurd hlocks (hsure place)
    · intro place hplace
      rcases eq_or_ne place directory with rfl | hne
      · rw [update_self] at hplace
        cases hplace
      · rw [update_of_ne hne] at hplace
        exact absurd (hmay place (hinv.locked.held command place hplace)) hne

theorem inv_unlock (hinv : Inv commands state)
    (hunlocking : state.points command = .unlocking directory exit) (fails : Bool) :
    Inv commands (unlock command fails state).1 := by
  have hlock : state.locks directory = some command := by
    apply hinv.locked.sure
    rw [hunlocking]
    rfl
  rw [unlock, hunlocking]
  dsimp only
  split
  · constructor
    · apply hinv.claimed.move
      rw [hunlocking]
      rfl
    · apply hinv.locked.move_kept
      · exact fun _ hlocks => hlocks
      · intro place hmay
        rwa [hunlocking] at hmay
  · apply inv_release hinv _ hlock
    · rw [hunlocking]
      rfl
    · intro place hmay
      rw [hunlocking] at hmay
      exact Eq.symm hmay
    · exact fun _ hlocks => hlocks
    · rw [hunlocking]
      rfl

theorem inv_close (hinv : Inv commands state)
    (hclosing : state.points command = .closing directory exit) (fails : Bool) :
    Inv commands (close command fails state).1 := by
  have hmay : ∀ place, (state.points command).MayLock place → place = directory := by
    intro place hmay
    rw [hclosing] at hmay
    exact Eq.symm hmay
  rw [close, hclosing]
  dsimp only
  split
  · rename_i hlock
    apply inv_release hinv _ hlock _ hmay
    · exact fun _ hlocks => hlocks
    · rw [hclosing]
      rfl
    · rw [hclosing]
      rfl
  · rename_i hunlocked
    constructor
    · apply hinv.claimed.move
      rw [hclosing]
      rfl
    · apply hinv.locked.move
      · exact fun _ hlocks => absurd hlocks id
      · intro place hplace
        have hsame := hmay place (hinv.locked.held command place hplace)
        exact absurd (hsame ▸ hplace) hunlocked

theorem inv_discard (hinv : Inv commands state)
    (hdiscarding : state.points command = .discarding exit) :
    Inv commands (discard commands command state).1 := by
  cases hcommand : commands command with
  | mk process identity =>
      rw [discard, hdiscarding]
      dsimp only
      rw [hcommand]
      constructor
      · apply hinv.claimed.discard hcommand _ rfl
        rw [hdiscarding]
        rfl
      · apply hinv.locked.move_kept
        · exact fun _ hlocks => hlocks
        · intro place hmay
          rw [hdiscarding] at hmay
          exact absurd hmay id

theorem inv_kill (hinv : Inv commands state) (process : Nat) :
    Inv commands (kill commands process state) :=
  ⟨hinv.claimed.kill process, hinv.locked.kill process⟩

theorem inv_init : Inv commands State.init := by
  constructor
  · constructor
    · intro process identity
      constructor
      · intro hmem
        exact absurd hmem (Finset.notMem_empty identity)
      · rintro ⟨command, -, hclaiming⟩
        cases hclaiming
    · intro first second _ hfirst
      cases hfirst
  · constructor
    · exact fun command directory hlocks => absurd hlocks id
    · intro command directory hlock
      cases hlock

theorem inv_of_reaches (hreach : (machine commands).Reaches state history) :
    Inv commands state := by
  suffices hall : (machine commands).Invariant fun state _ => Inv commands state from
    hreach.invariant hall
  refine ⟨inv_init, ?_⟩
  intro label state history hinv henabled
  cases label with
  | claim command => exact inv_claim hinv henabled
  | openDirectory command directory => exact inv_openDirectory hinv henabled directory
  | lock command fails =>
      obtain ⟨directory, hopened⟩ := henabled
      exact inv_lock hinv hopened fails
  | leave command raises =>
      obtain ⟨directory, hinside⟩ := henabled
      exact inv_leave hinv hinside raises
  | unlock command fails =>
      obtain ⟨directory, exit, hunlocking⟩ := henabled
      exact inv_unlock hinv hunlocking fails
  | close command fails =>
      obtain ⟨directory, exit, hclosing⟩ := henabled
      exact inv_close hinv hclosing fails
  | discard command =>
      obtain ⟨exit, hdiscarding⟩ := henabled
      exact inv_discard hinv hdiscarding
  | kill process => exact inv_kill hinv process

/-! ### Refusals -/

/-- Another command is on the way on the same path in the same process, or has the directory. -/
def Busy (commands : Nat → Command) (state : State) (command directory : Nat) : Prop :=
  ∃ other, other ≠ command ∧
    ((commands other = commands command ∧ (state.points other).claiming = true) ∨
      (state.points other).MayLock directory)

theorem refused_of_claim (hinv : Inv commands state) (houtside : state.points command = .outside)
    (hrefused : .refused command ∈ (claim commands command state).2) :
    Busy commands state command directory := by
  cases hcommand : commands command with
  | mk process identity =>
      rw [claim, hcommand] at hrefused
      dsimp only at hrefused
      split at hrefused
      · rename_i hmem
        obtain ⟨other, hother, hclaiming⟩ := (hinv.claimed.mem_iff process identity).mp hmem
        refine ⟨other, ?_, .inl ⟨hother.trans hcommand.symm, hclaiming⟩⟩
        rintro rfl
        rw [houtside] at hclaiming
        cases hclaiming
      · cases hrefused

theorem refused_of_lock (hinv : Inv commands state)
    (hopened : state.points command = .opened directory) {fails : Bool}
    (hrefused : .refused command ∈ (lock command fails state).2) :
    Busy commands state command directory := by
  rw [lock, hopened] at hrefused
  dsimp only at hrefused
  split at hrefused
  · cases hrefused
  split at hrefused
  · rename_i hlocked
    obtain ⟨other, hother⟩ := Option.isSome_iff_exists.mp hlocked
    have hmay := hinv.locked.held other directory hother
    refine ⟨other, ?_, .inr hmay⟩
    rintro rfl
    rw [hopened] at hmay
    exact hmay
  · rcases List.mem_singleton.mp hrefused

theorem run_step (label : Label) {middle final : State} {emitted events : List Event}
    (henabled : Enabled label state) (hnext : next commands label state = (middle, emitted))
    (hrun : (machine commands).Run middle final events) :
    (machine commands).Run state final (emitted ++ events) := by
  have hrest : (machine commands).Run (next commands label state).1 final events := by
    rwa [hnext]
  have hstep : (machine commands).Run state final ((next commands label state).2 ++ events) :=
    .step label henabled hrest
  rwa [hnext] at hstep

/-- A command that nobody is in the way of gets the lock. -/
theorem enters_of_free (hinv : Inv commands state) (houtside : state.points command = .outside)
    (hfree : ¬ Busy commands state command directory) :
    ∃ final, (machine commands).Run state final [.entered command directory] ∧
      final.points command = .inside directory := by
  cases hcommand : commands command with
  | mk process identity =>
      have hunclaimed : identity ∉ state.claims process := by
        intro hmem
        obtain ⟨other, hother, hclaiming⟩ := (hinv.claimed.mem_iff process identity).mp hmem
        refine hfree ⟨other, ?_, .inl ⟨hother.trans hcommand.symm, hclaiming⟩⟩
        rintro rfl
        rw [houtside] at hclaiming
        cases hclaiming
      have hunlocked : state.locks directory = none := by
        by_contra hsome
        obtain ⟨other, hother⟩ := Option.ne_none_iff_exists'.mp hsome
        have hmay := hinv.locked.held other directory hother
        refine hfree ⟨other, ?_, .inr hmay⟩
        rintro rfl
        rw [houtside] at hmay
        exact hmay
      let claimed :=
        (state.setClaims process (insert identity (state.claims process))).move command .claimed
      let opened := claimed.move command (.opened directory)
      let final :=
        { opened with locks := update opened.locks directory (some command) }.move command
          (.inside directory)
      have hclaim : claim commands command state = (claimed, []) := by
        rw [claim, hcommand]
        dsimp only
        rw [if_neg hunclaimed]
      have hclaimedAt : claimed.points command = .claimed := update_self _ _ _
      have hopen : openDirectory command (some directory) claimed = (opened, []) := rfl
      have hopenedAt : opened.points command = .opened directory := update_self _ _ _
      have hlock : lock command false opened = (final, [.entered command directory]) := by
        have hsame : opened.locks directory = none := hunlocked
        rw [lock, hopenedAt]
        dsimp only
        rw [if_neg Bool.false_ne_true, hsame, Option.isSome_none, if_neg Bool.false_ne_true]
      refine ⟨final, ?_, update_self _ _ _⟩
      have hlast : (machine commands).Run opened final ([.entered command directory] ++ []) :=
        run_step (.lock command false) ⟨directory, hopenedAt⟩ hlock (.done final)
      have hmiddle : (machine commands).Run claimed final ([] ++ [.entered command directory]) :=
        run_step (.openDirectory command (some directory)) hclaimedAt hopen hlast
      exact run_step (.claim command) houtside hclaim hmiddle

/-! ### What the lock guarantees -/

/-- Two processes that work on the same plugin. -/
def twoProcesses (command : Nat) : Command :=
  ⟨command % 2, "/plugin"⟩

theorem free_at_init (command directory : Nat) :
    ¬ Busy commands State.init command directory := by
  rintro ⟨other, -, ⟨-, hclaiming⟩ | hmay⟩
  · cases hclaiming
  · exact hmay

/-- **Whatever fails and whoever is killed, two commands are never inside on one directory, and two
commands of one process on one path are never even on the way.** -/
theorem commands_exclude (hreach : (machine commands).Reaches state history) :
    (∀ directory, AtMostOne (· = .inside directory) state.points) ∧
      ∀ first second, commands first = commands second → (state.points first).claiming = true →
        (state.points second).claiming = true → first = second := by
  have hinv := inv_of_reaches hreach
  refine ⟨?_, hinv.claimed.unique⟩
  intro directory first second hfirst hsecond
  have hfirstLocks : (state.points first).Locks directory := by
    rw [hfirst]
    rfl
  have hsecondLocks : (state.points second).Locks directory := by
    rw [hsecond]
    rfl
  have hfirstOwner := hinv.locked.sure first directory hfirstLocks
  have hsecondOwner := hinv.locked.sure second directory hsecondLocks
  exact Option.some.inj (hfirstOwner.symm.trans hsecondOwner)

/-- One command is inside, and one of the other process has come as far as the lock. -/
theorem reaches_contended :
    ∃ state, (machine twoProcesses).Reaches state [.entered 0 7] ∧ state.points 0 = .inside 7 ∧
      state.points 1 = .opened 7 ∧ state.points 2 = .outside ∧ "/plugin" ∈ state.claims 0 ∧
      state.locks 7 = some 0 := by
  have hstart := @Machine.Reaches.init _ _ _ (machine twoProcesses)
  have hclaimed := hstart.step (Label.claim 0) rfl
  have hopened := hclaimed.step (Label.openDirectory 0 (some 7)) rfl
  have hinside := hopened.step (Label.lock 0 false) ⟨7, rfl⟩
  have hsecond := hinside.step (Label.claim 1) rfl
  have hcontended := hsecond.step (Label.openDirectory 1 (some 7)) rfl
  exact ⟨_, hcontended, rfl, rfl, rfl, Finset.mem_insert_self _ _, rfl⟩

theorem lock_contended {state : State} (hopened : state.points 1 = .opened 7)
    (hlocked : state.locks 7 = some 0) :
    lock 1 false state = (state.move 1 (.closing 7 .busy), [.refused 1]) := by
  rw [lock, hopened]
  dsimp only
  rw [if_neg Bool.false_ne_true, hlocked, Option.isSome_some, if_pos rfl]

theorem commands_exclude_twoProcesses :
    ∃ state, (machine twoProcesses).Reaches state [.entered 0 7, .refused 1] ∧
      state.points 0 = .inside 7 ∧ state.points 1 = .closing 7 .busy ∧
      AtMostOne (· = .inside 7) state.points := by
  obtain ⟨state, hreach, hinside, hopened, -, -, hlocked⟩ := reaches_contended
  have hrefused : (machine twoProcesses).Reaches (state.move 1 (.closing 7 .busy))
      ([.entered 0 7] ++ [.refused 1]) := by
    have hnext := hreach.step (Label.lock 1 false) ⟨7, hopened⟩
    rwa [show (machine twoProcesses).step (Label.lock 1 false) state = _ from
      lock_contended hopened hlocked] at hnext
  have hclosing : (state.move 1 (.closing 7 .busy)).points 1 = .closing 7 .busy := by
    unfold State.move
    exact update_self 1 _ state.points
  have hstays : (state.move 1 (.closing 7 .busy)).points 0 = .inside 7 := by
    unfold State.move
    exact (update_of_ne Nat.zero_ne_one (.closing 7 .busy) state.points).trans hinside
  exact ⟨_, hrefused, hstays, hclosing, (commands_exclude hrefused).1 7⟩

/-- **A command is refused only while another one is in its way, and when there is none it gets the
lock: no failure and no kill leaves a plugin locked behind.** -/
theorem refused_only_when_busy (hreach : (machine commands).Reaches state history)
    (command directory : Nat) :
    (state.points command = .outside → .refused command ∈ (claim commands command state).2 →
        Busy commands state command directory) ∧
      (∀ fails, state.points command = .opened directory →
        .refused command ∈ (lock command fails state).2 → Busy commands state command directory) ∧
      (state.points command = .outside → ¬ Busy commands state command directory →
        ∃ final, (machine commands).Run state final [.entered command directory] ∧
          final.points command = .inside directory) := by
  have hinv := inv_of_reaches hreach
  refine ⟨?_, ?_, ?_⟩
  · exact fun houtside hrefused => refused_of_claim hinv houtside hrefused
  · exact fun fails hopened hrefused => refused_of_lock hinv hopened hrefused
  · exact fun houtside hfree => enters_of_free hinv houtside hfree

/-- The claim refuses a second command of the first process, the lock one of the other process, and
before either of them the first command got in. -/
theorem refused_only_when_busy_twoProcesses :
    (∃ state, (machine twoProcesses).Reaches state [.entered 0 7] ∧
      .refused 2 ∈ (claim twoProcesses 2 state).2 ∧ Busy twoProcesses state 2 7 ∧
      .refused 1 ∈ (lock 1 false state).2 ∧ Busy twoProcesses state 1 7) ∧
    ∃ final, (machine twoProcesses).Run State.init final [.entered 0 7] ∧
      final.points 0 = .inside 7 := by
  constructor
  · obtain ⟨state, hreach, -, hopened, houtside, hclaim, hlocked⟩ := reaches_contended
    have hclaimed : .refused 2 ∈ (claim twoProcesses 2 state).2 := by
      rw [claim]
      dsimp only [twoProcesses]
      rw [if_pos hclaim]
      exact List.mem_cons_self
    have hcontended : .refused 1 ∈ (lock 1 false state).2 := by
      rw [lock_contended hopened hlocked]
      exact List.mem_singleton_self _
    exact ⟨state, hreach, hclaimed, (refused_only_when_busy hreach 2 7).1 houtside hclaimed,
      hcontended, (refused_only_when_busy hreach 1 7).2.1 false hopened hcontended⟩
  · exact (refused_only_when_busy (@Machine.Reaches.init _ _ _ (machine twoProcesses)) 0 7).2.2 rfl
      (free_at_init 0 7)

end SupernoteModule.Generation.OperationLock
