import SupernoteModule.Lib.Guard

/-!
# Walks apart from their states

A program that goes through an input and changes a state on the way is a walk when neither its steps
nor its result depend on the state: the state only decides whether the steps can be taken. Steps are
executed in order, and the first that fails ends the program.
-/

namespace SupernoteModule.Lib

/-- The steps of a program up to its end, and what it gives if all of them can be taken. -/
structure Walk (Step Error Output : Type) where
  steps : List Step
  result : Except Error Output

namespace Walk

variable {Step Error Output Result State : Type}

/-- A check that takes no step. -/
def check (result : Except Error Output) : Walk Step Error Output :=
  ⟨[], result⟩

def take (step : Step) : Walk Step Error Unit :=
  ⟨[step], .ok ()⟩

def andThen (first : Walk Step Error Output) (next : Output → Walk Step Error Result) :
    Walk Step Error Result :=
  match first.result with
  | .ok output => ⟨first.steps ++ (next output).steps, (next output).result⟩
  | .error error => ⟨first.steps, .error error⟩

instance : Monad (Walk Step Error) where
  pure output := ⟨[], .ok output⟩
  bind := andThen

theorem bind_eq (first : Walk Step Error Output) (next : Output → Walk Step Error Result) :
    first >>= next = first.andThen next :=
  rfl

@[simp] theorem steps_pure (output : Output) : (pure output : Walk Step Error Output).steps = [] :=
  rfl

@[simp] theorem result_pure (output : Output) :
    (pure output : Walk Step Error Output).result = .ok output :=
  rfl

@[simp] theorem steps_check (result : Except Error Output) :
    (check result : Walk Step Error Output).steps = [] :=
  rfl

@[simp] theorem result_check (result : Except Error Output) :
    (check result : Walk Step Error Output).result = result :=
  rfl

@[simp] theorem steps_take (step : Step) : (take step : Walk Step Error Unit).steps = [step] :=
  rfl

@[simp] theorem result_take (step : Step) : (take step : Walk Step Error Unit).result = .ok () :=
  rfl

theorem result_bind (first : Walk Step Error Output) (next : Output → Walk Step Error Result) :
    (first >>= next).result = first.result >>= fun output => (next output).result := by
  rw [bind_eq, andThen]
  cases first.result <;> rfl

theorem steps_bind {first : Walk Step Error Output} {next : Output → Walk Step Error Result}
    {output : Output} (hok : first.result = .ok output) :
    (first >>= next).steps = first.steps ++ (next output).steps := by
  rw [bind_eq, andThen, hok]

/-! ### Execution -/

variable (execute : Step → State → Except Error State)

def executeAll (steps : List Step) (state : State) : Except Error State :=
  steps.foldlM (fun state step => execute step state) state

def run (walk : Walk Step Error Output) (state : State) : Except Error (Output × State) := do
  let final ← executeAll execute walk.steps state
  let output ← walk.result
  return (output, final)

variable {execute}

@[simp] theorem executeAll_nil (state : State) : executeAll execute [] state = .ok state :=
  rfl

theorem executeAll_cons (step : Step) (steps : List Step) (state : State) :
    executeAll execute (step :: steps) state =
      execute step state >>= executeAll execute steps := by
  rw [executeAll, List.foldlM_cons]
  rfl

theorem executeAll_append (first next : List Step) (state : State) :
    executeAll execute (first ++ next) state =
      executeAll execute first state >>= executeAll execute next := by
  rw [executeAll, List.foldlM_append]
  rfl

theorem run_eq_ok {walk : Walk Step Error Output} {state final : State} {output : Output} :
    walk.run execute state = .ok (output, final) ↔
      executeAll execute walk.steps state = .ok final ∧ walk.result = .ok output := by
  rw [run]
  constructor
  · intro hrun
    obtain ⟨middle, hsteps, hrest⟩ := bind_eq_ok.mp hrun
    obtain ⟨other, hresult, hpair⟩ := bind_eq_ok.mp hrest
    obtain ⟨rfl, rfl⟩ := Prod.mk.inj (pure_eq_ok.mp hpair)
    exact ⟨hsteps, hresult⟩
  · rintro ⟨hsteps, hresult⟩
    exact bind_eq_ok.mpr ⟨final, hsteps, bind_eq_ok.mpr ⟨output, hresult, rfl⟩⟩

theorem run_eq_error {walk : Walk Step Error Output} {state : State} {error : Error} :
    walk.run execute state = .error error ↔
      executeAll execute walk.steps state = .error error ∨
        ∃ final, executeAll execute walk.steps state = .ok final ∧ walk.result = .error error := by
  rw [run, bind_eq_error]
  apply or_congr_right
  apply exists_congr
  intro final
  apply and_congr_right
  intro _
  rw [bind_eq_error]
  constructor
  · rintro (herror | ⟨_, _, hpure⟩)
    · exact herror
    · exact absurd hpure pure_ne_error
  · exact .inl

@[simp] theorem run_pure (output : Output) (state : State) :
    (pure output : Walk Step Error Output).run execute state = .ok (output, state) :=
  rfl

theorem run_bind (first : Walk Step Error Output) (next : Output → Walk Step Error Result)
    (state : State) : (first >>= next).run execute state =
      first.run execute state >>= fun reached => (next reached.1).run execute reached.2 := by
  rw [bind_eq, andThen, run, run]
  cases first.result with
  | error error =>
      cases executeAll execute first.steps state <;> rfl
  | ok output =>
      rw [executeAll_append]
      cases executeAll execute first.steps state <;> rfl

@[simp] theorem run_check (result : Except Error Output) (state : State) :
    (check result).run execute state = result >>= fun output => .ok (output, state) := by
  cases result <;> rfl

@[simp] theorem run_take (step : Step) (state : State) :
    (take step).run execute state = execute step state >>= fun next => .ok ((), next) := by
  rw [run, steps_take, executeAll_cons]
  cases execute step state <;> rfl

/-- A check before the rest of a program. -/
theorem run_check_bind (result : Except Error Output) (next : Output → Walk Step Error Result)
    (state : State) : (check result >>= next).run execute state =
      result >>= fun output => (next output).run execute state := by
  rw [run_bind, run_check]
  cases result <;> rfl

theorem run_take_bind (step : Step) (next : Unit → Walk Step Error Result) (state : State) :
    (take step >>= next).run execute state =
      execute step state >>= fun reached => (next ()).run execute reached := by
  rw [run_bind, run_take]
  cases execute step state <;> rfl

/-- A function that makes the same check first, and then does what the rest of the program does. -/
theorem run_check_congr {result : Except Error Output} {next : Output → Walk Step Error Result}
    {state : State} {rest : Output → Except Error (Result × State)}
    (hrest : ∀ output, rest output = (next output).run execute state) :
    result >>= rest = (check result >>= next).run execute state := by
  rw [run_check_bind]
  exact bind_congr hrest

/-- The step that fails comes after steps that can be taken. -/
theorem executeAll_eq_error {steps : List Step} {state : State} {error : Error} :
    executeAll execute steps state = .error error ↔ ∃ before step after reached,
      steps = before ++ step :: after ∧ executeAll execute before state = .ok reached ∧
        execute step reached = .error error := by
  constructor
  · intro herror
    induction steps generalizing state with
    | nil => cases herror
    | cons step steps ih =>
        rw [executeAll_cons] at herror
        rcases bind_eq_error.mp herror with hstep | ⟨next, hstep, hrest⟩
        · exact ⟨[], step, steps, state, rfl, rfl, hstep⟩
        · obtain ⟨before, other, after, reached, rfl, hbefore, hfails⟩ := ih hrest
          refine ⟨step :: before, other, after, reached, rfl, ?_, hfails⟩
          rw [executeAll_cons]
          exact bind_eq_ok.mpr ⟨next, hstep, hbefore⟩
  · rintro ⟨before, step, after, reached, rfl, hbefore, hfails⟩
    rw [executeAll_append, hbefore]
    change executeAll execute (step :: after) reached = _
    rw [executeAll_cons, hfails]
    rfl

end Walk

end SupernoteModule.Lib
