import SupernoteModule.Lib.Custody
import SupernoteModule.Proof.ServiceElection

/-!
# The invariant of the services

Three arguments share one invariant. The election says whose flag it is. The custody says that an
instance is in one place until it is handed to `defer_release`. The rest ties slots, values and
closing to each other.
-/

namespace SupernoteModule.Runtime.ServiceSlot

open SupernoteModule.Lib Function

variable {Declaration : Type*}

variable {slots : Nat → Slot} {call slot attempt inst : Nat} {point : Call Declaration}

/-! ### The custody of the instances -/

/-- Where an instance can be before it is handed to `defer_release`. -/
inductive Place where
  | call (index : Nat)
  | slot (index : Nat)
  | closer (index : Nat)
deriving DecidableEq

def Call.held : Call Declaration → Option Nat
  | .created _ _ _ inst => some inst
  | .absent | .entered _ _ | .waiting _ _ _ | .constructing _ _ _ | .failing _ _ _ | .returned _
  | .threw _ => none

def Closer.held : Closer → Option Nat
  | .releasing inst => inst
  | .absent | .draining | .taking _ | .drained | .returned => none

/-- The instance in each place. -/
def State.place (state : State Declaration) : Place → Option Nat
  | .call index => (state.calls index).held
  | .slot index => (state.slots index).value
  | .closer index => (state.closers index).held

theorem place_setCall (state : State Declaration) (call : Nat) (point : Call Declaration) :
    (state.setCall call point).place = update state.place (.call call) point.held := by
  funext spot
  cases spot with
  | call index =>
      change (update state.calls call point index).held = _
      rcases eq_or_ne index call with rfl | hne
      · rw [update_self, update_self]
      · rw [update_of_ne hne, update_of_ne fun h => hne (by cases h; rfl)]
        rfl
  | slot index =>
      have hne : Place.slot index ≠ .call call := nofun
      rw [update_of_ne hne]
      rfl
  | closer index =>
      have hne : Place.closer index ≠ .call call := nofun
      rw [update_of_ne hne]
      rfl

theorem place_setSlot (state : State Declaration) (index : Nat) (slot : Slot) :
    (state.setSlot index slot).place = update state.place (.slot index) slot.value := by
  funext spot
  cases spot with
  | slot other =>
      change (update state.slots index slot other).value = _
      rcases eq_or_ne other index with rfl | hne
      · rw [update_self, update_self]
      · rw [update_of_ne hne, update_of_ne fun h => hne (by cases h; rfl)]
        rfl
  | call other =>
      have hne : Place.call other ≠ .slot index := nofun
      rw [update_of_ne hne]
      rfl
  | closer other =>
      have hne : Place.closer other ≠ .slot index := nofun
      rw [update_of_ne hne]
      rfl

theorem place_setCloser (state : State Declaration) (closer : Nat) (point : Closer) :
    (state.setCloser closer point).place = update state.place (.closer closer) point.held := by
  funext spot
  cases spot with
  | closer index =>
      change (update state.closers closer point index).held = _
      rcases eq_or_ne index closer with rfl | hne
      · rw [update_self, update_self]
      · rw [update_of_ne hne, update_of_ne fun h => hne (by cases h; rfl)]
        rfl
  | call index =>
      have hne : Place.call index ≠ .closer closer := nofun
      rw [update_of_ne hne]
      rfl
  | slot index =>
      have hne : Place.slot index ≠ .closer closer := nofun
      rw [update_of_ne hne]
      rfl

/-! ### The invariant -/

/-- What a history says about slots and instances. -/
structure Ledger (Declaration : Type*) where
  opens : List (Declaration × Nat)
  stores : List (Nat × Nat)
  returns : List (Declaration × Nat)
  deferred : List Nat

def Ledger.empty : Ledger Declaration := ⟨[], [], [], []⟩

def Ledger.add (ledger : Ledger Declaration) : Event Declaration → Ledger Declaration
  | .opened declaration slot => { ledger with opens := ledger.opens ++ [(declaration, slot)] }
  | .stored slot inst => { ledger with stores := ledger.stores ++ [(slot, inst)] }
  | .returned declaration inst => { ledger with returns := ledger.returns ++ [(declaration, inst)] }
  | .deferred inst => { ledger with deferred := ledger.deferred ++ [inst] }
  | .started _ | .created _ => ledger

def ledgerOf (history : List (Event Declaration)) : Ledger Declaration :=
  history.foldl Ledger.add .empty

theorem ledgerOf_append (history events : List (Event Declaration)) :
    ledgerOf (history ++ events) = events.foldl Ledger.add (ledgerOf history) :=
  List.foldl_append

/-- The call got this slot for this declaration. -/
def Call.Uses (declaration : Declaration) (slot : Nat) : Call Declaration → Prop
  | .entered named index | .waiting named index _ | .constructing named index _
  | .created named index _ _ => named = declaration ∧ index = slot
  | .absent | .failing _ _ _ | .returned _ | .threw _ => False

/-- The call has taken the session out of `ACTIVE` and has not finished closing it. -/
def Closer.Closes : Closer → Prop
  | .draining | .taking _ | .releasing _ | .drained => True
  | .absent | .returned => False

structure Registry (state : State Declaration) (ledger : Ledger Declaration) : Prop where
  opened_services : state.state = .active → ∀ entry ∈ ledger.opens, entry ∈ state.services
  services_opened : ∀ entry ∈ state.services, entry ∈ ledger.opens
  opened_unique : ∀ declaration slot other, (declaration, slot) ∈ ledger.opens →
    (declaration, other) ∈ ledger.opens → slot = other
  uses : ∀ declaration slot call, (state.calls call).Uses declaration slot →
    (declaration, slot) ∈ ledger.opens

structure Values (state : State Declaration) (ledger : Ledger Declaration) : Prop where
  stored_value : state.state = .active → ∀ slot inst, (slot, inst) ∈ ledger.stores →
    (state.slots slot).value = some inst
  value_stored : ∀ slot inst, (state.slots slot).value = some inst →
    (slot, inst) ∈ ledger.stores
  stored_unique : ∀ slot inst other, (slot, inst) ∈ ledger.stores →
    (slot, other) ∈ ledger.stores → inst = other
  returned : ∀ declaration inst, (declaration, inst) ∈ ledger.returns →
    ∃ slot, (declaration, slot) ∈ ledger.opens ∧ (slot, inst) ∈ ledger.stores
  releasing : ∀ inst closer, state.closers closer = .releasing (some inst) →
    ∃ slot, (slot, inst) ∈ ledger.stores
  left : ∀ slot inst, (slot, inst) ∈ ledger.stores →
    inst < state.nextInstance ∧ Vacant (Call.held · = some inst) state.calls

structure Closing (state : State Declaration) : Prop where
  known : ∀ slot inst, (state.slots slot).value = some inst →
    (∃ declaration, (declaration, slot) ∈ state.services) ∨
      Occupied (· = Closer.taking slot) state.closers
  one : AtMostOne Closer.Closes state.closers
  closing : ∀ closer, (state.closers closer).Closes → state.state = .closing
  drained : ∀ closer, state.closers closer = .drained → state.services = []
  inactive : state.state = .inactive → state.services = []

/-- What the services of a session keep true. -/
structure Inv (state : State Declaration) (ledger : Ledger Declaration) : Prop where
  election : Election state.slots state.calls
  custody : ∀ inst, Custody state.place state.nextInstance inst (ledger.deferred.count inst)
  registry : Registry state ledger
  values : Values state ledger
  closing : Closing state

theorem Inv.initial : Inv (.init : State Declaration) .empty where
  election := {
    one := fun _ _ _ _ h => absurd h id
    bound := fun _ _ _ h => absurd h id
    building := fun _ _ _ h => absurd h id
    leader := nofun
    empty := nofun }
  custody inst := .unborn (Nat.zero_le inst) fun spot => by cases spot <;> exact nofun
  registry := {
    opened_services := nofun
    services_opened := nofun
    opened_unique := nofun
    uses := fun _ _ _ h => absurd h id }
  values := {
    stored_value := nofun
    value_stored := nofun
    stored_unique := nofun
    returned := nofun
    releasing := nofun
    left := nofun }
  closing := {
    known := nofun
    one := fun _ _ h => absurd h id
    closing := fun _ h => absurd h id
    drained := nofun
    inactive := fun _ => rfl }

/-! ### The parts of a step -/

variable {state : State Declaration} {ledger : Ledger Declaration} {declaration : Declaration}
  {closer : Nat}

/-- While the session is active nobody is closing it. -/
theorem Closing.vacant (hclosing : Closing state) (hactive : state.state = .active) :
    Vacant Closer.Closes state.closers := by
  intro closer hcloses
  have hstate := hclosing.closing closer hcloses
  rw [hactive] at hstate
  cases hstate

theorem value_update {next : Slot} (hvalue : next.value = (slots slot).value) (index : Nat) :
    (update slots slot next index).value = (slots index).value := by
  rcases eq_or_ne index slot with rfl | hne
  · rw [update_self, hvalue]
  · rw [update_of_ne hne]

/-- A call moves, and slots change in nothing but the course of their election. -/
theorem Inv.moveCall (hinv : Inv state ledger) {next : Nat → Slot}
    (helection : Election next (update state.calls call point))
    (hvalues : ∀ slot, (next slot).value = (state.slots slot).value)
    (huses : ∀ declaration slot, point.Uses declaration slot → (declaration, slot) ∈ ledger.opens)
    (hheld : point.held = (state.calls call).held) :
    Inv { state.setCall call point with slots := next } ledger where
  election := helection
  custody inst := by
    have hsame : State.place { state.setCall call point with slots := next } = state.place := by
      funext spot
      cases spot with
      | call index =>
          change (update state.calls call point index).held = (state.calls index).held
          rcases eq_or_ne index call with rfl | hne
          · rw [update_self, hheld]
          · rw [update_of_ne hne]
      | slot index => exact hvalues index
      | closer index => rfl
    rw [hsame]
    exact hinv.custody inst
  registry := { hinv.registry with
    uses := fun declaration slot => forall_role_update (Call.Uses declaration slot)
      (huses declaration slot) (hinv.registry.uses declaration slot) }
  values := { hinv.values with
    stored_value := fun hactive slot inst hmem =>
      (hvalues slot).trans (hinv.values.stored_value hactive slot inst hmem)
    value_stored := fun slot inst hvalue =>
      hinv.values.value_stored slot inst ((hvalues slot).symm.trans hvalue)
    left := fun slot inst hmem => by
      obtain ⟨hlt, hvacant⟩ := hinv.values.left slot inst hmem
      refine ⟨hlt, hvacant.update_of_not ?_⟩
      rw [hheld]
      exact hvacant call }
  closing := { hinv.closing with
    known := fun slot inst hvalue =>
      hinv.closing.known slot inst ((hvalues slot).symm.trans hvalue) }

/-- A call moves within its attempt, or outside of any. -/
theorem Inv.setCall (hinv : Inv state ledger)
    (hattempts : ∀ slot attempt, point.Attempts slot attempt ↔
      (state.calls call).Attempts slot attempt)
    (hbuilds : ∀ slot attempt, point.Builds slot attempt →
      (state.calls call).Builds slot attempt)
    (huses : ∀ declaration slot, point.Uses declaration slot → (declaration, slot) ∈ ledger.opens)
    (hheld : point.held = (state.calls call).held) :
    Inv (state.setCall call point) ledger :=
  hinv.moveCall (hinv.election.move hattempts hbuilds) (fun _ => rfl) huses hheld

/-- A call that has got its slot and runs no attempt. -/
def Call.Idle (declaration : Declaration) (slot : Nat) : Call Declaration → Prop
  | .entered named index | .waiting named index _ => named = declaration ∧ index = slot
  | .absent | .constructing _ _ _ | .created _ _ _ _ | .failing _ _ _ | .returned _ | .threw _ =>
      False

theorem Call.Idle.not_attempts {call : Call Declaration} (hcall : call.Idle declaration slot)
    (index number : Nat) : ¬ call.Attempts index number := by
  cases call <;> first | exact id | exact hcall.elim

theorem Call.Idle.held {call : Call Declaration} (hcall : call.Idle declaration slot) :
    call.held = none := by
  cases call <;> first | rfl | exact hcall.elim

theorem Call.Idle.uses {call : Call Declaration} (hcall : call.Idle declaration slot) :
    call.Uses declaration slot := by
  cases call <;> first | exact hcall | exact hcall.elim

/-- A call leaves `service` without having run an attempt. -/
theorem Inv.leaveIdle (hinv : Inv state ledger) (hcall : (state.calls call).Idle declaration slot)
    (hattempts : ∀ slot attempt, ¬ point.Attempts slot attempt)
    (huses : ∀ declaration slot, ¬ point.Uses declaration slot) (hheld : point.held = none) :
    Inv (state.setCall call point) ledger :=
  hinv.setCall (fun index number => iff_of_false (hattempts index number)
      (hcall.not_attempts index number))
    (fun index number h => absurd h.attempts (hattempts index number))
    (fun named index h => absurd h (huses named index)) (hheld.trans hcall.held.symm)

/-- What is in the slot may be returned to a caller of its declaration. -/
theorem Inv.returns (hinv : Inv state ledger) (hopened : (declaration, slot) ∈ ledger.opens)
    (hstored : (slot, inst) ∈ ledger.stores) :
    Inv state (ledger.add (.returned declaration inst)) := by
  refine { hinv with
    registry := { hinv.registry with }
    values := { hinv.values with returned := fun named other hmem => ?_ } }
  rcases List.mem_append.mp hmem with h | h
  · exact hinv.values.returned named other h
  · cases List.mem_singleton.mp h
    exact ⟨slot, hopened, hstored⟩

/-- A caller finds the instance in the slot. -/
theorem Inv.find (hinv : Inv state ledger) (hcall : (state.calls call).Idle declaration slot)
    (hvalue : (state.slots slot).value = some inst) :
    Inv (state.setCall call (.returned inst)) (ledger.add (.returned declaration inst)) :=
  (hinv.leaveIdle hcall (fun _ _ => id) (fun _ _ => id) rfl).returns
    (hinv.registry.uses declaration slot call hcall.uses)
    (hinv.values.value_stored slot inst hvalue)

theorem Inv.begin (hinv : Inv state ledger) (hcall : (state.calls call).Idle declaration slot)
    (hdown : (state.slots slot).initializing = false)
    (hvalue : (state.slots slot).value = none) :
    Inv (state.begin call declaration slot).1
      ((state.begin call declaration slot).2.foldl Ledger.add ledger) := by
  have hopened := hinv.registry.uses declaration slot call hcall.uses
  refine hinv.moveCall (hinv.election.begin hcall.not_attempts hdown rfl hvalue rfl ?_) ?_ ?_
    hcall.held.symm
  · exact fun index number => ⟨fun h => ⟨h.1.symm, h.2.symm⟩, fun h => ⟨h.1.symm, h.2.symm⟩⟩
  · exact value_update rfl
  · rintro named index ⟨rfl, rfl⟩
    exact hopened

theorem Inv.look (hinv : Inv state ledger)
    (hcall : state.calls call = .entered declaration slot) :
    Inv (state.look call declaration slot).1
      ((state.look call declaration slot).2.foldl Ledger.add ledger) := by
  have hidle : (state.calls call).Idle declaration slot := by
    rw [hcall]
    exact ⟨rfl, rfl⟩
  have hopened := hinv.registry.uses declaration slot call hidle.uses
  rw [State.look]
  split
  next inst hvalue => exact hinv.find hidle hvalue
  next hvalue =>
    split
    · refine hinv.setCall (fun index number => iff_of_false id (hidle.not_attempts index number))
        (fun _ _ h => h.elim) ?_ hidle.held.symm
      rintro named index ⟨rfl, rfl⟩
      exact hopened
    next hflag => exact hinv.begin hidle (Bool.eq_false_iff.mpr hflag) hvalue

theorem Inv.wake (hinv : Inv state ledger)
    (hcall : state.calls call = .waiting declaration slot attempt)
    (hdown : (state.slots slot).initializing = false) :
    Inv (state.wake call declaration slot attempt).1
      ((state.wake call declaration slot attempt).2.foldl Ledger.add ledger) := by
  have hidle : (state.calls call).Idle declaration slot := by
    rw [hcall]
    exact ⟨rfl, rfl⟩
  cases hvalue : (state.slots slot).value with
  | some inst =>
      have hrun : state.wake call declaration slot attempt =
          (state.setCall call (.returned inst), [.returned declaration inst]) := by
        simp only [State.wake, hvalue]
      rw [hrun]
      exact hinv.find hidle hvalue
  | none =>
      have hbegin := hinv.begin hidle hdown hvalue
      cases hfailure : (state.slots slot).failure with
      | none =>
          have hrun : state.wake call declaration slot attempt =
              state.begin call declaration slot := by
            simp only [State.wake, hvalue, hfailure]
          rwa [hrun]
      | some failure =>
          by_cases hcompleted : (state.slots slot).completedAttempt = attempt
          · have hrun : state.wake call declaration slot attempt =
                (state.setCall call (.threw failure), []) := by
              simp only [State.wake, hvalue, hfailure, if_pos hcompleted]
            rw [hrun]
            exact hinv.leaveIdle hidle (fun _ _ => id) (fun _ _ => id) rfl
          · have hrun : state.wake call declaration slot attempt =
                state.begin call declaration slot := by
              simp only [State.wake, hvalue, hfailure, if_neg hcompleted]
            rwa [hrun]

/-- A slot for a declaration that has none. -/
theorem Inv.open [DecidableEq Declaration] (hinv : Inv state ledger)
    (hactive : state.state = .active) (hnone : state.services.lookup declaration = none) :
    Inv { state with
        services := state.services ++ [(declaration, slot)]
        nextSlot := state.nextSlot + 1 } (ledger.add (.opened declaration slot)) := by
  have hnew : ∀ other, (declaration, other) ∉ ledger.opens := by
    intro other hmem
    have hservice := hinv.registry.opened_services hactive _ hmem
    have hne := List.lookup_eq_none_iff.mp hnone _ hservice
    simp at hne
  have hvacant := hinv.closing.vacant hactive
  refine { hinv with
    registry := ?_
    values := { hinv.values with returned := fun named inst hmem => ?_ }
    closing := { hinv.closing with
      known := fun index inst hvalue => ?_
      drained := fun closer hdrained => ?_
      inactive := fun hinactive => ?_ } }
  · refine {
      opened_services := fun _ entry hmem => ?_
      services_opened := fun entry hmem => ?_
      opened_unique := fun named index other hindex hother => ?_
      uses := fun named index call huses =>
        List.mem_append_left _ (hinv.registry.uses named index call huses) }
    · exact (List.mem_append.mp hmem).elim
        (fun h => List.mem_append_left _ (hinv.registry.opened_services hactive entry h))
        (List.mem_append_right _)
    · exact (List.mem_append.mp hmem).elim
        (fun h => List.mem_append_left _ (hinv.registry.services_opened entry h))
        (List.mem_append_right _)
    · rcases List.mem_append.mp hindex with h | h <;> rcases List.mem_append.mp hother with h' | h'
      · exact hinv.registry.opened_unique named index other h h'
      · cases List.mem_singleton.mp h'
        exact absurd h (hnew index)
      · cases List.mem_singleton.mp h
        exact absurd h' (hnew other)
      · cases List.mem_singleton.mp h
        cases List.mem_singleton.mp h'
        rfl
  · obtain ⟨index, hopened, hstored⟩ := hinv.values.returned named inst hmem
    exact ⟨index, List.mem_append_left _ hopened, hstored⟩
  · refine (hinv.closing.known index inst hvalue).imp_left ?_
    rintro ⟨named, hmem⟩
    exact ⟨named, List.mem_append_left _ hmem⟩
  · refine absurd ?_ (hvacant closer)
    rw [show state.closers closer = _ from hdrained]
    exact trivial
  · rw [show state.state = _ from hinactive] at hactive
    cases hactive

theorem Inv.enter [DecidableEq Declaration] (hinv : Inv state ledger)
    (hcall : state.calls call = .absent) :
    Inv (state.enter call declaration).1
      ((state.enter call declaration).2.foldl Ledger.add ledger) := by
  have hmove : ∀ {next : State Declaration} {later : Ledger Declaration}
      {point : Call Declaration}, Inv next later → next.calls = state.calls →
        (∀ slot attempt, ¬ point.Attempts slot attempt) → point.held = none →
        (∀ named slot, point.Uses named slot → (named, slot) ∈ later.opens) →
          Inv (next.setCall call point) later := by
    intro next later point hnext hcalls hattempts hheld huses
    refine hnext.setCall (fun slot attempt => iff_of_false (hattempts slot attempt) ?_)
      (fun slot attempt h => absurd h.attempts (hattempts slot attempt)) huses (hheld.trans ?_)
    · rw [hcalls, hcall]
      exact id
    · rw [hcalls, hcall]
      rfl
  rw [State.enter]
  split
  next hactive =>
    split
    next slot hlookup =>
      refine hmove hinv rfl (fun _ _ => id) rfl ?_
      rintro named index ⟨rfl, rfl⟩
      obtain ⟨before, after, hservices, _⟩ := List.lookup_eq_some_iff.mp hlookup
      refine hinv.registry.services_opened _ ?_
      rw [hservices]
      exact List.mem_append_right _ List.mem_cons_self
    next hlookup =>
      refine hmove (hinv.open hactive hlookup) rfl (fun _ _ => id) rfl ?_
      rintro named index ⟨rfl, rfl⟩
      exact List.mem_append_right _ (List.mem_singleton_self _)
  next => exact hmove hinv rfl (fun _ _ => id) rfl fun _ _ => False.elim

/-- A factory returns a new instance, which its caller holds. -/
theorem Inv.factoryReturn (hinv : Inv state ledger)
    (hcall : state.calls call = .constructing declaration slot attempt) :
    Inv { state.setCall call (.created declaration slot attempt state.nextInstance) with
      nextInstance := state.nextInstance + 1 } ledger where
  election := by
    refine hinv.election.move ?_ ?_
    · rw [hcall]
      exact fun _ _ => Iff.rfl
    · rw [hcall]
      exact fun _ _ => id
  custody inst := by
    have hempty : state.place (.call call) = none := by
      change (state.calls call).held = none
      rw [hcall]
      rfl
    have hplace := place_setCall state call (.created declaration slot attempt state.nextInstance)
    exact hplace ▸ (hinv.custody inst).create hempty
  registry := { hinv.registry with
    uses := fun named index => by
      refine forall_role_update (Call.Uses named index) (fun h => ?_)
        (hinv.registry.uses named index)
      refine hinv.registry.uses named index call ?_
      rw [hcall]
      exact h }
  values := { hinv.values with
    left := fun index inst hmem => by
      obtain ⟨hlt, hvacant⟩ := hinv.values.left index inst hmem
      refine ⟨Nat.lt_succ_of_lt hlt, hvacant.update_of_not fun h => ?_⟩
      exact Nat.ne_of_gt hlt (Option.some.inj h) }
  closing := { hinv.closing with }

theorem Inv.factoryFail (hinv : Inv state ledger)
    (hcall : state.calls call = .constructing declaration slot attempt) {failure : Failure} :
    Inv (state.setCall call (.failing slot attempt failure)) ledger := by
  refine hinv.setCall ?_ (fun _ _ => False.elim) (fun _ _ => False.elim) ?_
  · rw [hcall]
    exact fun _ _ => Iff.rfl
  · rw [hcall]
    rfl

/-- What the call that holds an instance knows about its slot. -/
theorem Inv.of_created (hinv : Inv state ledger)
    (hcall : state.calls call = .created declaration slot attempt inst) :
    (state.calls call).Attempts slot attempt ∧ (state.slots slot).attempt = attempt ∧
      (state.slots slot).value = none ∧ (declaration, slot) ∈ ledger.opens := by
  have hbuilds : (state.calls call).Builds slot attempt := by
    rw [hcall]
    exact ⟨rfl, rfl⟩
  obtain ⟨hflag, hlatest⟩ := hinv.election.building slot attempt call hbuilds
  refine ⟨hbuilds.attempts, hlatest, hinv.election.empty slot hflag, ?_⟩
  refine hinv.registry.uses declaration slot call ?_
  rw [hcall]
  exact ⟨rfl, rfl⟩

/-- The place of an instance that its maker gives up. -/
theorem Inv.held_of_created (hinv : Inv state ledger)
    (hcall : state.calls call = .created declaration slot attempt inst) :
    state.place (.call call) = some inst ∧ inst < state.nextInstance ∧
      ∀ other, other ≠ call → (state.calls other).held ≠ some inst := by
  have hplace : state.place (.call call) = some inst := by
    change (state.calls call).held = _
    rw [hcall]
    rfl
  refine ⟨hplace, ((hinv.custody inst).of_mem hplace).1, fun other hne hother => ?_⟩
  have hother' : state.place (.call other) = some inst := hother
  cases (hinv.custody inst).atMostOne hother' hplace
  exact hne rfl

theorem Inv.storeActive (hinv : Inv state ledger)
    (hcall : state.calls call = .created declaration slot attempt inst)
    (hactive : state.state = .active) {next : Slot} (hvalue : next.value = some inst)
    (hdown : next.initializing = false) (hnumber : next.attempt = (state.slots slot).attempt) :
    Inv ((state.setSlot slot next).setCall call (.returned inst))
      ((ledger.add (.stored slot inst)).add (.returned declaration inst)) := by
  obtain ⟨hattempts, hlatest, hempty, hopened⟩ := hinv.of_created hcall
  obtain ⟨hplace, hlt, hother⟩ := hinv.held_of_created hcall
  have hnotStored : ∀ other, (slot, other) ∉ ledger.stores := by
    intro other hmem
    have hold := hinv.values.stored_value hactive slot other hmem
    rw [hempty] at hold
    cases hold
  have hstored : (slot, inst) ∈ (ledger.add (.stored slot inst)).stores :=
    List.mem_append_right _ (List.mem_singleton_self _)
  refine Inv.returns ?_ hopened hstored
  refine {
    election := hinv.election.finish hattempts hlatest (hnumber.trans hlatest) hdown
      (fun _ _ => False.elim) fun _ _ => id
    custody := fun other => ?_
    registry := { hinv.registry with
      uses := fun named index => forall_role_update (Call.Uses named index) False.elim
        (hinv.registry.uses named index) }
    values := ?_
    closing := { hinv.closing with known := fun index other hother => ?_ } }
  · have hmove := (hinv.custody other).move (.call call) (.slot slot) hplace hempty
    rw [place_setCall, place_setSlot, hvalue]
    have hne : Place.slot slot ≠ .call call := nofun
    rwa [update_comm hne]
  · refine {
      stored_value := fun _ index other hmem => ?_
      value_stored := fun index other hindex => ?_
      stored_unique := fun index first second hfirst hsecond => ?_
      returned := fun named other hmem => ?_
      releasing := fun other closer hcloser => ?_
      left := fun index other hmem => ?_ }
    · change (update state.slots slot next index).value = some other
      rcases List.mem_append.mp hmem with h | h
      · have hne : index ≠ slot := by
          rintro rfl
          exact hnotStored other h
        rw [update_of_ne hne]
        exact hinv.values.stored_value hactive index other h
      · cases List.mem_singleton.mp h
        rw [update_self, hvalue]
    · change (update state.slots slot next index).value = some other at hindex
      rcases eq_or_ne index slot with rfl | hne
      · rw [update_self, hvalue] at hindex
        cases hindex
        exact List.mem_append_right _ (List.mem_singleton_self _)
      · rw [update_of_ne hne] at hindex
        exact List.mem_append_left _ (hinv.values.value_stored index other hindex)
    · rcases List.mem_append.mp hfirst with h | h <;> rcases List.mem_append.mp hsecond with h' | h'
      · exact hinv.values.stored_unique index first second h h'
      · cases List.mem_singleton.mp h'
        exact absurd h (hnotStored first)
      · cases List.mem_singleton.mp h
        exact absurd h' (hnotStored second)
      · cases List.mem_singleton.mp h
        cases List.mem_singleton.mp h'
        rfl
    · obtain ⟨index, hopen, hstored⟩ := hinv.values.returned named other hmem
      exact ⟨index, hopen, List.mem_append_left _ hstored⟩
    · obtain ⟨index, hstored⟩ := hinv.values.releasing other closer hcloser
      exact ⟨index, List.mem_append_left _ hstored⟩
    · rcases List.mem_append.mp hmem with h | h
      · obtain ⟨hlt', hvacant⟩ := hinv.values.left index other h
        exact ⟨hlt', hvacant.update_of_not nofun⟩
      · cases List.mem_singleton.mp h
        exact ⟨hlt, forall_update (p := fun _ (point : Call Declaration) => point.held ≠ some inst)
          nofun hother⟩
  · change (update state.slots slot next index).value = some other at hother
    rcases eq_or_ne index slot with rfl | hne
    · exact .inl ⟨declaration, hinv.registry.opened_services hactive _ hopened⟩
    · rw [update_of_ne hne] at hother
      exact hinv.closing.known index other hother

/-- The session closed while the factory ran: the instance goes to `defer_release`. -/
theorem Inv.storeClosed (hinv : Inv state ledger)
    (hcall : state.calls call = .created declaration slot attempt inst)
    (hclosed : state.state ≠ .active) {next : Slot}
    (hvalue : next.value = (state.slots slot).value) (hdown : next.initializing = false)
    (hnumber : next.attempt = (state.slots slot).attempt) :
    Inv ((state.setSlot slot next).setCall call (.failing slot attempt .closed))
      (ledger.add (.deferred inst)) := by
  obtain ⟨hattempts, hlatest, _, _⟩ := hinv.of_created hcall
  obtain ⟨hplace, _, _⟩ := hinv.held_of_created hcall
  refine {
    election := hinv.election.finish hattempts hlatest (hnumber.trans hlatest) hdown
      (fun _ _ h => ⟨h.1.symm, h.2.symm⟩) fun _ _ => id
    custody := fun other => ?_
    registry := { hinv.registry with
      uses := fun named index => forall_role_update (Call.Uses named index) False.elim
        (hinv.registry.uses named index) }
    values := { hinv.values with
      stored_value := fun h => absurd h hclosed
      value_stored := fun index other hother =>
        hinv.values.value_stored index other ((value_update hvalue index).symm.trans hother)
      left := fun index other hmem =>
        ⟨(hinv.values.left index other hmem).1,
          (hinv.values.left index other hmem).2.update_of_not nofun⟩ }
    closing := { hinv.closing with
      known := fun index other hother =>
        hinv.closing.known index other ((value_update hvalue index).symm.trans hother) } }
  have hrelease := (hinv.custody other).release hplace
  have hslot : update state.place (.slot slot) next.value = state.place := by
    rw [hvalue]
    exact update_eq_self (Place.slot slot) state.place
  rw [place_setCall, place_setSlot, hslot]
  rwa [show (ledger.add (.deferred inst)).deferred = ledger.deferred ++ [inst] from rfl,
    List.count_append]

theorem Inv.store (hinv : Inv state ledger)
    (hcall : state.calls call = .created declaration slot attempt inst) :
    Inv (state.store call declaration slot attempt inst).1
      ((state.store call declaration slot attempt inst).2.foldl Ledger.add ledger) := by
  rw [State.store]
  split
  next hactive => exact hinv.storeActive hcall hactive rfl rfl rfl
  next hclosed => exact hinv.storeClosed hcall hclosed rfl rfl rfl

theorem Inv.recordFailure (hinv : Inv state ledger) {failure : Failure}
    (hcall : state.calls call = .failing slot attempt failure) :
    Inv (state.recordFailure call slot attempt failure) ledger := by
  have hattempts : (state.calls call).Attempts slot attempt := by
    rw [hcall]
    exact ⟨rfl, rfl⟩
  have hheld : (state.calls call).held = none := by
    rw [hcall]
    rfl
  rw [State.recordFailure]
  split
  next hlatest =>
    refine hinv.moveCall ?_ (value_update rfl) (fun _ _ => False.elim) hheld.symm
    exact hinv.election.finish hattempts hlatest.2 hlatest.2 rfl (fun _ _ => False.elim)
      fun _ _ => id
  next hstale =>
    refine hinv.moveCall (hinv.election.leave (fun _ _ => id) ?_) (fun _ => rfl)
      (fun _ _ => False.elim) hheld.symm
    intro index hflag h
    obtain ⟨rfl, hnumber⟩ := hattempts.unique h
    exact hstale ⟨hflag, hnumber.symm⟩

/-! ### Closing -/

theorem Inv.custody_setCloser (hinv : Inv state ledger) (closer : Nat) (point : Closer)
    (hheld : point.held = (state.closers closer).held) (inst : Nat) :
    Custody (state.setCloser closer point).place state.nextInstance inst
      (ledger.deferred.count inst) := by
  have hsame : (state.setCloser closer point).place = state.place := by
    rw [place_setCloser, hheld]
    exact update_eq_self (Place.closer closer) state.place
  rw [hsame]
  exact hinv.custody inst

theorem Inv.close (hinv : Inv state ledger) (hcloser : state.closers closer = .absent) :
    Inv (state.close closer) ledger := by
  have hheld : (state.closers closer).held = none := by
    rw [hcloser]
    rfl
  have hknown : ∀ {point : Closer} {slot inst : Nat}, (state.slots slot).value = some inst →
      (∃ declaration, (declaration, slot) ∈ state.services) ∨
        Occupied (· = Closer.taking slot) (update state.closers closer point) := by
    intro point slot inst hvalue
    refine (hinv.closing.known slot inst hvalue).imp_right fun h => h.update_of_not ?_
    rw [hcloser]
    nofun
  have hreleasing : ∀ {point : Closer}, point.held = none → ∀ inst other,
      update state.closers closer point other = .releasing (some inst) →
        ∃ slot, (slot, inst) ∈ ledger.stores := by
    intro point hpoint inst
    refine forall_role_update (· = Closer.releasing (some inst)) ?_ (hinv.values.releasing inst)
    rintro rfl
    cases hpoint
  rw [State.close]
  split
  next hactive =>
    have hvacant := hinv.closing.vacant hactive
    exact {
      election := hinv.election
      custody := hinv.custody_setCloser closer _ hheld.symm
      registry := { hinv.registry with opened_services := nofun }
      values := { hinv.values with stored_value := nofun, releasing := hreleasing rfl }
      closing := {
        known := fun _ _ => hknown
        one := hvacant.atMostOne_update
        closing := fun _ _ => rfl
        drained := forall_role_update (· = Closer.drained) nofun hinv.closing.drained
        inactive := nofun } }
  next =>
    exact {
      election := hinv.election
      custody := hinv.custody_setCloser closer _ hheld.symm
      registry := { hinv.registry with }
      values := { hinv.values with releasing := hreleasing rfl }
      closing := {
        known := fun _ _ => hknown
        one := hinv.closing.one.update_of_not id
        closing := forall_role_update Closer.Closes False.elim hinv.closing.closing
        drained := forall_role_update (· = Closer.drained) nofun hinv.closing.drained
        inactive := hinv.closing.inactive } }

/-- What it means for a session that one of its closers is at work. -/
theorem Inv.of_closes (hinv : Inv state ledger) {point : Closer}
    (hcloser : state.closers closer = point) (hpoint : point.Closes) :
    (state.closers closer).Closes ∧ state.state ≠ .active ∧ state.state ≠ .inactive ∧
      ∀ other, state.closers other = .drained → point = .drained := by
  have hcloses : (state.closers closer).Closes := by rwa [hcloser]
  have hstate := hinv.closing.closing closer hcloses
  refine ⟨hcloses, ?_, ?_, fun other hother => ?_⟩
  · rw [hstate]
    nofun
  · rw [hstate]
    nofun
  · have hsame := hinv.closing.one (i := other) (by rw [hother]; exact trivial) hcloses
    rw [hsame] at hother
    exact hcloser.symm.trans hother

/-- A slot leaves the map for the hands of the closer. -/
theorem Inv.pop [DecidableEq Declaration] (hinv : Inv state ledger)
    (hcloser : state.closers closer = .draining) :
    Inv { state.setCloser closer (.taking slot) with
      services := state.services.erase (declaration, slot) } ledger := by
  obtain ⟨hcloses, hactive, hinactive, hdrained⟩ := hinv.of_closes hcloser trivial
  refine {
    election := hinv.election
    custody := hinv.custody_setCloser closer _ (by rw [hcloser]; rfl)
    registry := { hinv.registry with
      opened_services := fun h => absurd h hactive
      services_opened := fun entry hmem =>
        hinv.registry.services_opened entry (List.mem_of_mem_erase hmem) }
    values := { hinv.values with
      releasing := fun inst => forall_role_update (· = Closer.releasing (some inst)) nofun
        (hinv.values.releasing inst) }
    closing := {
      known := fun index inst hvalue => ?_
      one := hinv.closing.one.update_of_holds hcloses
      closing := forall_role_update Closer.Closes (fun _ => hinv.closing.closing closer hcloses)
        hinv.closing.closing
      drained := forall_role_update (· = Closer.drained) nofun
        fun other hother => absurd (hdrained other hother) nofun
      inactive := fun h => absurd h hinactive } }
  rcases eq_or_ne slot index with rfl | hne
  · exact .inr (occupied_update rfl)
  · refine (hinv.closing.known index inst hvalue).imp ?_ fun h => h.update_of_not ?_
    · rintro ⟨named, hmem⟩
      refine ⟨named, (List.mem_erase_of_ne ?_).mpr hmem⟩
      exact fun h => hne (congrArg Prod.snd h).symm
    · rw [hcloser]
      nofun

/-- The closer takes what the slot holds. -/
theorem Inv.take (hinv : Inv state ledger) (hcloser : state.closers closer = .taking slot)
    {next : Slot} (hflag : next.initializing = (state.slots slot).initializing)
    (hnumber : next.attempt = (state.slots slot).attempt) (hvalue : next.value = none) :
    Inv ((state.setSlot slot next).setCloser closer (.releasing (state.slots slot).value))
      ledger := by
  obtain ⟨hcloses, hactive, hinactive, hdrained⟩ := hinv.of_closes hcloser trivial
  have hslots : ∀ {index inst : Nat}, (update state.slots slot next index).value = some inst →
      index ≠ slot ∧ (state.slots index).value = some inst := by
    intro index inst hindex
    rcases eq_or_ne index slot with rfl | hne
    · rw [update_self, hvalue] at hindex
      cases hindex
    · rw [update_of_ne hne] at hindex
      exact ⟨hne, hindex⟩
  refine {
    election := hinv.election.setValue hflag hnumber hvalue
    custody := fun inst => ?_
    registry := { hinv.registry with }
    values := { hinv.values with
      stored_value := fun h => absurd h hactive
      value_stored := fun index inst hindex =>
        hinv.values.value_stored index inst (hslots hindex).2
      releasing := fun inst => forall_role_update (· = Closer.releasing (some inst)) (fun h => ?_)
        (hinv.values.releasing inst) }
    closing := {
      known := fun index inst hindex => ?_
      one := hinv.closing.one.update_of_holds hcloses
      closing := forall_role_update Closer.Closes (fun _ => hinv.closing.closing closer hcloses)
        hinv.closing.closing
      drained := forall_role_update (· = Closer.drained) nofun
        fun other hother => absurd (hdrained other hother) nofun
      inactive := fun h => absurd h hinactive } }
  · have hempty : state.place (.closer closer) = none := by
      change (state.closers closer).held = none
      rw [hcloser]
      rfl
    have hmove := (hinv.custody inst).move (.slot slot) (.closer closer) rfl hempty
    rwa [place_setCloser, place_setSlot, hvalue]
  · exact ⟨slot, hinv.values.value_stored slot inst (Closer.releasing.inj h)⟩
  · obtain ⟨hne, hold⟩ := hslots hindex
    refine (hinv.closing.known index inst hold).imp_right fun h => h.update_of_not ?_
    rw [hcloser]
    rintro ⟨⟩
    exact hne rfl

/-- A closer that is not taking a slot moves on, and may defer what it holds. -/
theorem Inv.setCloser (hinv : Inv state ledger) {point : Closer} (deferred : List Nat)
    (hcustody : ∀ inst, Custody (state.setCloser closer point).place state.nextInstance inst
      (deferred.count inst)) (hold : (state.closers closer).Closes)
    (hnew : point.Closes) (hheld : point.held = none)
    (htaking : ∀ slot, state.closers closer ≠ .taking slot)
    (hdrained : point = .drained → state.services = []) :
    Inv (state.setCloser closer point) { ledger with deferred := deferred } where
  election := hinv.election
  custody := hcustody
  registry := { hinv.registry with }
  values := { hinv.values with
    releasing := fun inst => by
      refine forall_role_update (· = Closer.releasing (some inst)) ?_ (hinv.values.releasing inst)
      rintro rfl
      cases hheld }
  closing := {
    known := fun slot inst hvalue => (hinv.closing.known slot inst hvalue).imp_right fun h =>
      h.update_of_not (htaking slot)
    one := hinv.closing.one.update_of_holds hold
    closing := forall_role_update Closer.Closes (fun _ => hinv.closing.closing closer hold)
      hinv.closing.closing
    drained := forall_role_update (· = Closer.drained) hdrained hinv.closing.drained
    inactive := hinv.closing.inactive }

theorem Inv.deferRelease (hinv : Inv state ledger) {held : Option Nat}
    (hcloser : state.closers closer = .releasing held) :
    Inv (state.setCloser closer .draining)
      ((held.toList.map .deferred).foldl Ledger.add ledger) := by
  have hplace : state.place (.closer closer) = held := by
    change (state.closers closer).held = held
    rw [hcloser]
    rfl
  have hcloses : (state.closers closer).Closes := by
    rw [hcloser]
    exact trivial
  have hrelease : ∀ inst, Custody (state.setCloser closer .draining).place state.nextInstance inst
      (ledger.deferred.count inst + held.toList.count inst) := by
    intro inst
    rw [place_setCloser]
    exact (hinv.custody inst).release hplace
  have htaking : ∀ slot, state.closers closer ≠ .taking slot := by
    rw [hcloser]
    nofun
  cases held with
  | none => exact hinv.setCloser ledger.deferred hrelease hcloses trivial rfl htaking nofun
  | some inst =>
      refine hinv.setCloser (ledger.deferred ++ [inst]) (fun other => ?_) hcloses trivial rfl
        htaking nofun
      rw [List.count_append]
      exact hrelease other

theorem Inv.drain (hinv : Inv state ledger) (hcloser : state.closers closer = .draining)
    (hempty : state.services = []) : Inv (state.setCloser closer .drained) ledger := by
  have hcustody := hinv.custody_setCloser closer .drained
  rw [hcloser] at hcustody
  refine hinv.setCloser ledger.deferred (hcustody rfl) ?_ trivial rfl ?_ fun _ => hempty
  · rw [hcloser]
    exact trivial
  · rw [hcloser]
    nofun

theorem Inv.deactivate (hinv : Inv state ledger) (hcloser : state.closers closer = .drained) :
    Inv { state.setCloser closer .returned with state := .inactive } ledger := by
  obtain ⟨hcloses, hactive, _, _⟩ := hinv.of_closes hcloser trivial
  have hempty := hinv.closing.drained closer hcloser
  have hvacant : Vacant Closer.Closes (update state.closers closer .returned) :=
    hinv.closing.one.vacant_update hcloses id
  exact {
    election := hinv.election
    custody := hinv.custody_setCloser closer _ (by rw [hcloser]; rfl)
    registry := { hinv.registry with opened_services := nofun }
    values := { hinv.values with
      stored_value := nofun
      releasing := fun inst => forall_role_update (· = Closer.releasing (some inst)) nofun
        (hinv.values.releasing inst) }
    closing := {
      known := fun slot inst hvalue => (hinv.closing.known slot inst hvalue).imp_right fun h =>
        h.update_of_not (by rw [hcloser]; nofun)
      one := hvacant.atMostOne
      closing := fun other h => absurd h (hvacant other)
      drained := fun _ _ => hempty
      inactive := fun _ => hempty } }

theorem invariant [DecidableEq Declaration] :
    (machine Declaration).Invariant fun state history => Inv state (ledgerOf history) where
  init := .initial
  step label state history hinv henabled := by
    rw [ledgerOf_append]
    cases label with
    | enter call declaration => exact hinv.enter henabled
    | look call declaration slot => exact hinv.look henabled
    | wake call declaration slot attempt => exact hinv.wake henabled.1 henabled.2
    | factoryReturn call declaration slot attempt => exact hinv.factoryReturn henabled
    | factoryFail call declaration slot attempt null => exact hinv.factoryFail henabled
    | store call declaration slot attempt inst => exact hinv.store henabled
    | recordFailure call slot attempt failure => exact hinv.recordFailure henabled
    | close closer => exact hinv.close henabled
    | pop closer declaration slot => exact hinv.pop henabled.1
    | take closer slot => exact hinv.take henabled rfl rfl rfl
    | deferRelease closer inst => exact hinv.deferRelease henabled
    | drain closer => exact hinv.drain henabled.1 henabled.2
    | deactivate closer => exact hinv.deactivate henabled

end SupernoteModule.Runtime.ServiceSlot
