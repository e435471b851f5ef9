import Mathlib.Logic.Function.Basic

/-!
# Machines and their histories

A concurrent component is a machine: every label is one indivisible step of one of its threads, and
a run is any sequence of enabled labels. Each step emits events, and what a run has done is the
list of events it emitted. Safety is a statement about the states a run reaches together with the
history it left behind.
-/

namespace SupernoteModule.Lib

/-- A system that moves by indivisible steps. A label that is not enabled cannot be taken. -/
structure Machine (State Label Event : Type*) where
  init : State
  enabled : Label → State → Prop
  step : Label → State → State × List Event

namespace Machine

variable {State Label Event : Type*} (machine : Machine State Label Event)

/-- The states some interleaving reaches, each with the events emitted on the way. -/
inductive Reaches : State → List Event → Prop where
  | init : Reaches machine.init []
  | step {state : State} {history : List Event} (label : Label) :
      Reaches state history → machine.enabled label state →
      Reaches (machine.step label state).1 (history ++ (machine.step label state).2)

/-- An assertion that holds at the start and that every enabled step keeps. -/
structure Invariant (inv : State → List Event → Prop) : Prop where
  init : inv machine.init []
  step : ∀ (label : Label) {state : State} {history : List Event},
    inv state history → machine.enabled label state →
      inv (machine.step label state).1 (history ++ (machine.step label state).2)

variable {machine}

/-- A step that emits nothing only has to keep the invariant of the state. -/
theorem keeps_of_silent {inv : State → List Event → Prop} {label : Label} {state next : State}
    {history : List Event} (hstep : machine.step label state = (next, []))
    (hinv : inv next history) :
    inv (machine.step label state).1 (history ++ (machine.step label state).2) := by
  rwa [hstep, List.append_nil]

/-- An invariant holds after every interleaving. -/
theorem Reaches.invariant {inv : State → List Event → Prop} (hinv : machine.Invariant inv)
    {state : State} {history : List Event} (hreach : machine.Reaches state history) :
    inv state history := by
  induction hreach with
  | init => exact hinv.init
  | step label _ henabled ih => exact hinv.step label ih henabled

variable (machine)

/-- What can follow a state, with the events emitted from there on. -/
inductive Run : State → State → List Event → Prop where
  | done (state : State) : Run state state []
  | step {state final : State} {events : List Event} (label : Label) :
      machine.enabled label state → Run (machine.step label state).1 final events →
      Run state final ((machine.step label state).2 ++ events)

variable {machine}

theorem Reaches.run {state final : State} {history events : List Event}
    (hreach : machine.Reaches state history) (hrun : machine.Run state final events) :
    machine.Reaches final (history ++ events) := by
  induction hrun generalizing history with
  | done => rwa [List.append_nil]
  | step label henabled _ ih =>
      rw [← List.append_assoc]
      exact ih (.step label hreach henabled)

/-- An assertion that every later step keeps, and that forbids some events, forbids them for good.
-/
theorem Run.forall_events {p : State → List Event → Prop} {q : Event → Prop}
    (hstep : ∀ (label : Label) {state : State} {history : List Event},
      p state history → machine.enabled label state →
        p (machine.step label state).1 (history ++ (machine.step label state).2) ∧
          ∀ event ∈ (machine.step label state).2, q event)
    {state final : State} {history events : List Event} (hrun : machine.Run state final events)
    (hinv : p state history) : ∀ event ∈ events, q event := by
  induction hrun generalizing history with
  | done => exact fun _ h => absurd h List.not_mem_nil
  | step label henabled _ ih =>
      obtain ⟨hnext, hallowed⟩ := hstep label hinv henabled
      intro event hevent
      rcases List.mem_append.mp hevent with h | h
      · exact hallowed event h
      · exact ih hnext event h

variable (machine)

/-- The run that takes the given labels in order, if each of them is enabled in its turn. -/
def exec [∀ label state, Decidable (machine.enabled label state)] :
    List Label → State → List Event → Option (State × List Event)
  | [], state, history => some (state, history)
  | label :: labels, state, history =>
      if machine.enabled label state then
        exec labels (machine.step label state).1 (history ++ (machine.step label state).2)
      else
        none

variable {machine}

theorem Reaches.exec [∀ label state, Decidable (machine.enabled label state)] (labels : List Label)
    {state final : State} {history events : List Event} (hreach : machine.Reaches state history)
    (hexec : machine.exec labels state history = some (final, events)) :
    machine.Reaches final events := by
  induction labels generalizing state history with
  | nil =>
      simp only [Machine.exec, Option.some.injEq, Prod.mk.injEq] at hexec
      exact hexec.1 ▸ hexec.2 ▸ hreach
  | cons label labels ih =>
      rw [Machine.exec] at hexec
      split at hexec
      · rename_i henabled
        exact ih (.step label hreach henabled) hexec
      · cases hexec

/-- A property that a run of the machine can be computed to end in is reached. -/
theorem exists_reaches_of_exec
    {m : Machine State Label Event} [∀ label state, Decidable (m.enabled label state)]
    (labels : List Label) {p : State → List Event → Bool}
    (hexec : (m.exec labels m.init []).map (fun run => p run.1 run.2) = some true) :
    ∃ state history, m.Reaches state history ∧ p state history = true := by
  cases hrun : m.exec labels m.init [] with
  | none => simp [hrun] at hexec
  | some run =>
      simp only [hrun, Option.map_some, Option.some.injEq] at hexec
      exact ⟨run.1, run.2, Reaches.exec labels .init hrun, hexec⟩

/-! ### Simulation -/

/-- A view of one machine through which each of its steps is a step of the other one that emits the
same events, or is not seen at all. -/
structure Simulation {State' Label' : Type*} (concrete : Machine State Label Event)
    (abstract : Machine State' Label' Event) (view : State → State') : Prop where
  init : view concrete.init = abstract.init
  step : ∀ (label : Label) {state : State}, concrete.enabled label state →
    (view (concrete.step label state).1 = view state ∧ (concrete.step label state).2 = []) ∨
      ∃ label', abstract.enabled label' (view state) ∧
        abstract.step label' (view state) =
          (view (concrete.step label state).1, (concrete.step label state).2)

/-- What the concrete machine reaches, the abstract one reaches with the same history. -/
theorem Simulation.reaches {State' Label' : Type*} {concrete : Machine State Label Event}
    {abstract : Machine State' Label' Event} {view : State → State'}
    (hsim : Simulation concrete abstract view) {state : State} {history : List Event}
    (hreach : concrete.Reaches state history) : abstract.Reaches (view state) history := by
  induction hreach with
  | init => exact hsim.init ▸ .init
  | step label _ henabled ih =>
      rcases hsim.step label henabled with ⟨hview, hsilent⟩ | ⟨label', henabled', hstep⟩
      · rwa [hview, hsilent, List.append_nil]
      · have hnext := Reaches.step label' ih henabled'
        rwa [hstep] at hnext

/-- What follows a concrete state follows its view with the same events. -/
theorem Simulation.run {State' Label' : Type*} {concrete : Machine State Label Event}
    {abstract : Machine State' Label' Event} {view : State → State'}
    (hsim : Simulation concrete abstract view) {state final : State} {events : List Event}
    (hrun : concrete.Run state final events) :
    abstract.Run (view state) (view final) events := by
  induction hrun with
  | done => exact .done _
  | step label henabled _ ih =>
      rcases hsim.step label henabled with ⟨hview, hsilent⟩ | ⟨label', henabled', hstep⟩
      · rwa [hsilent, List.nil_append, ← hview]
      · have hrest : abstract.Run (view _) (view _) _ := .step label' henabled' (by rwa [hstep])
        rwa [hstep] at hrest

end Machine

end SupernoteModule.Lib
