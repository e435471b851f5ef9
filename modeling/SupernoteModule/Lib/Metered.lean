import SupernoteModule.Lib.Guard

/-!
# Metered walks

A walk over a structured input makes demands one after the other, and stops early when the input
does not fit. A meter allows each demand or not and counts what it costs on several counters, each
of which has a cap. Counters only grow, so it does not matter where in the walk a cap is exceeded:
the walk gets to its end exactly when everything it demands fits together.
-/

namespace SupernoteModule.Lib

/-- What is allowed, what it costs, and how much of it there is. -/
structure Meter (Counter Demand : Type) where
  allows : Demand → Prop
  cost : Counter → Demand → Nat
  cap : Counter → Nat

/-- The demands of a walk, and the misfit that ends it early. -/
structure Survey (Demand Misfit : Type) where
  demands : List Demand := []
  misfit : Option Misfit := none

variable {Counter Demand Misfit Verdict : Type}

namespace Survey

/-- Nothing is demanded. -/
def done : Survey Demand Misfit := {}

def ask (demand : Demand) : Survey Demand Misfit := { demands := [demand] }

def stop (misfit : Misfit) : Survey Demand Misfit := { misfit := some misfit }

/-- Go on with another walk, unless the first one has stopped. -/
def andThen (first next : Survey Demand Misfit) : Survey Demand Misfit :=
  match first.misfit with
  | none => { demands := first.demands ++ next.demands, misfit := next.misfit }
  | some _ => first

/-- Go on with what a check gives, or stop where it fails. -/
def given {Output : Type} (check : Except Misfit Output) (next : Output → Survey Demand Misfit) :
    Survey Demand Misfit :=
  match check with
  | .ok output => next output
  | .error misfit => stop misfit

/-- Go on when the condition holds. -/
def provided (condition : Bool) (misfit : Misfit) (next : Survey Demand Misfit) :
    Survey Demand Misfit :=
  if condition then next else stop misfit

theorem andThen_done (first : Survey Demand Misfit) : first.andThen .done = first := by
  obtain ⟨demands, misfit⟩ := first
  cases misfit with
  | none => simp [andThen, done]
  | some misfit => rfl

theorem andThen_of_misfit {first : Survey Demand Misfit} {misfit : Misfit}
    (hmisfit : first.misfit = some misfit) (next : Survey Demand Misfit) :
    first.andThen next = first := by
  rw [andThen, hmisfit]

/-- The first walk is the second one, unless it stops for one of some reasons. -/
def SameUnless (stops : Misfit → Prop) (first second : Survey Demand Misfit) : Prop :=
  first = second ∨ ∃ misfit, first.misfit = some misfit ∧ stops misfit

section SameUnless

variable {stops : Misfit → Prop}

theorem SameUnless.refl (survey : Survey Demand Misfit) : SameUnless stops survey survey :=
  .inl rfl

theorem SameUnless.stop {misfit : Misfit} (hstops : stops misfit) (other : Survey Demand Misfit) :
    SameUnless stops (.stop misfit) other :=
  .inr ⟨misfit, rfl, hstops⟩

/-- What comes next matters only where the first walks do not stop. -/
theorem SameUnless.andThen_of_misfit_eq_none {first second next other : Survey Demand Misfit}
    (hfirst : SameUnless stops first second)
    (hnext : first.misfit = none → SameUnless stops next other) :
    SameUnless stops (first.andThen next) (second.andThen other) := by
  rcases hfirst with rfl | ⟨misfit, hmisfit, hstops⟩
  · cases hmisfit : first.misfit with
    | some misfit =>
        rw [andThen_of_misfit hmisfit, andThen_of_misfit hmisfit]
        exact .refl first
    | none =>
        rcases hnext hmisfit with rfl | ⟨misfit, hstopped, hstops⟩
        · exact .refl _
        · refine .inr ⟨misfit, ?_, hstops⟩
          rw [Survey.andThen, hmisfit]
          exact hstopped
  · exact .inr ⟨misfit, by rw [andThen_of_misfit hmisfit, hmisfit], hstops⟩

theorem SameUnless.andThen {first second next other : Survey Demand Misfit}
    (hfirst : SameUnless stops first second) (hnext : SameUnless stops next other) :
    SameUnless stops (first.andThen next) (second.andThen other) :=
  hfirst.andThen_of_misfit_eq_none fun _ => hnext

theorem SameUnless.given {Output : Type} {check : Except Misfit Output}
    {next other : Output → Survey Demand Misfit}
    (hnext : ∀ output, check = .ok output → SameUnless stops (next output) (other output)) :
    SameUnless stops (.given check next) (.given check other) := by
  cases check with
  | ok output => exact hnext output rfl
  | error misfit => exact .refl (.stop misfit)

theorem SameUnless.provided {condition : Bool} {misfit : Misfit}
    {next other : Survey Demand Misfit}
    (hnext : condition = true → SameUnless stops next other) :
    SameUnless stops (.provided condition misfit next) (.provided condition misfit other) := by
  cases condition with
  | true => exact hnext rfl
  | false => exact .refl (.stop misfit)

end SameUnless

end Survey

namespace Meter

variable (meter : Meter Counter Demand)

def total (counter : Counter) : List Demand → Nat
  | [] => 0
  | demand :: demands => meter.cost counter demand + total counter demands

@[simp] theorem total_nil (counter : Counter) : meter.total counter [] = 0 := rfl

@[simp] theorem total_cons (counter : Counter) (demand : Demand) (demands : List Demand) :
    meter.total counter (demand :: demands) =
      meter.cost counter demand + meter.total counter demands := rfl

@[simp] theorem total_append (counter : Counter) (first next : List Demand) :
    meter.total counter (first ++ next) =
      meter.total counter first + meter.total counter next := by
  induction first with
  | nil => simp
  | cons demand first ih =>
      simp only [List.cons_append, total_cons, ih]
      omega

/-- Everything is allowed, and no cap is exceeded. -/
structure Fits (spent : Counter → Nat) (demands : List Demand) : Prop where
  allowed : ∀ demand ∈ demands, meter.allows demand
  within : ∀ counter, spent counter + meter.total counter demands ≤ meter.cap counter

def charge (spent : Counter → Nat) (demands : List Demand) (counter : Counter) : Nat :=
  spent counter + meter.total counter demands

variable {meter} {spent : Counter → Nat}

@[simp] theorem charge_nil : meter.charge spent [] = spent := by
  funext counter
  simp [charge]

theorem charge_append (first next : List Demand) :
    meter.charge spent (first ++ next) = meter.charge (meter.charge spent first) next := by
  funext counter
  simp only [charge, total_append]
  omega

/-- A walk fits when its first part does and the second fits in what is left. -/
theorem fits_append {first next : List Demand} :
    meter.Fits spent (first ++ next) ↔
      meter.Fits spent first ∧ meter.Fits (meter.charge spent first) next := by
  constructor
  · intro hfits
    refine ⟨⟨fun demand hmem => ?_, fun counter => ?_⟩, fun demand hmem => ?_, fun counter => ?_⟩
    · exact hfits.allowed demand (List.mem_append_left _ hmem)
    · have hwithin := hfits.within counter
      rw [total_append] at hwithin
      omega
    · exact hfits.allowed demand (List.mem_append_right _ hmem)
    · have hwithin := hfits.within counter
      rw [total_append] at hwithin
      rw [charge]
      omega
  · rintro ⟨hfirst, hnext⟩
    refine ⟨fun demand hmem => ?_, fun counter => ?_⟩
    · rcases List.mem_append.mp hmem with hleft | hright
      · exact hfirst.allowed demand hleft
      · exact hnext.allowed demand hright
    · have hwithin := hnext.within counter
      rw [charge] at hwithin
      rw [total_append]
      omega

section Prices

variable {other : Meter Counter Demand} {counter : Counter}

end Prices

open Classical in
/-- How a walk ends: with what has been spent, at its misfit, or at the limits of the meter. -/
noncomputable def settle (meter : Meter Counter Demand) (exceeded : Verdict)
    (verdict : Misfit → Verdict) (survey : Survey Demand Misfit) (spent : Counter → Nat) :
    Except Verdict (Counter → Nat) :=
  if meter.Fits spent survey.demands then
    match survey.misfit with
    | none => .ok (meter.charge spent survey.demands)
    | some misfit => .error (verdict misfit)
  else .error exceeded

variable {exceeded : Verdict} {verdict : Misfit → Verdict}

theorem settle_of_fits {survey : Survey Demand Misfit} (hfits : meter.Fits spent survey.demands) :
    meter.settle exceeded verdict survey spent =
      match survey.misfit with
      | none => .ok (meter.charge spent survey.demands)
      | some misfit => .error (verdict misfit) := by
  rw [settle, if_pos hfits]

theorem settle_of_not_fits {survey : Survey Demand Misfit}
    (hfits : ¬ meter.Fits spent survey.demands) :
    meter.settle exceeded verdict survey spent = .error exceeded := by
  rw [settle, if_neg hfits]

theorem settle_done (hspent : ∀ counter, spent counter ≤ meter.cap counter) :
    meter.settle exceeded verdict .done spent = .ok spent := by
  rw [settle_of_fits ⟨by simp [Survey.done], by simpa [Survey.done] using hspent⟩]
  simp [Survey.done]

/-- One demand is met when it is allowed and every counter can pay for it. -/
theorem fits_singleton {demand : Demand} :
    meter.Fits spent [demand] ↔
      meter.allows demand ∧ ∀ counter, spent counter + meter.cost counter demand ≤
        meter.cap counter := by
  constructor
  · intro hfits
    refine ⟨hfits.allowed demand (by simp), fun counter => ?_⟩
    simpa using hfits.within counter
  · rintro ⟨hallowed, hwithin⟩
    exact ⟨by simpa using hallowed, by simpa using hwithin⟩

@[simp] theorem charge_singleton (demand : Demand) (counter : Counter) :
    meter.charge spent [demand] counter = spent counter + meter.cost counter demand := by
  simp [charge]

theorem settle_stop (misfit : Misfit) (hspent : ∀ counter, spent counter ≤ meter.cap counter) :
    meter.settle exceeded verdict (.stop misfit) spent = .error (verdict misfit) :=
  settle_of_fits ⟨by simp [Survey.stop], by simpa [Survey.stop] using hspent⟩

/-- A walk in two parts ends as its parts do, one after the other. -/
theorem settle_andThen (first next : Survey Demand Misfit) :
    meter.settle exceeded verdict (first.andThen next) spent =
      meter.settle exceeded verdict first spent >>= meter.settle exceeded verdict next := by
  cases hmisfit : first.misfit with
  | some misfit =>
      have hsame : first.andThen next = first := by
        rw [Survey.andThen, hmisfit]
      rw [hsame]
      by_cases hfits : meter.Fits spent first.demands
      · rw [settle_of_fits hfits, hmisfit]
        rfl
      · rw [settle_of_not_fits hfits]
        rfl
  | none =>
      have hboth : first.andThen next =
          { demands := first.demands ++ next.demands, misfit := next.misfit } := by
        rw [Survey.andThen, hmisfit]
      rw [hboth]
      by_cases hfirst : meter.Fits spent first.demands
      · rw [settle_of_fits hfirst, hmisfit]
        change _ = meter.settle exceeded verdict next (meter.charge spent first.demands)
        by_cases hnext : meter.Fits (meter.charge spent first.demands) next.demands
        · rw [settle_of_fits hnext, settle_of_fits (fits_append.mpr ⟨hfirst, hnext⟩),
            charge_append]
        · rw [settle_of_not_fits hnext,
            settle_of_not_fits fun hfits => hnext (fits_append.mp hfits).2]
      · rw [settle_of_not_fits hfirst,
          settle_of_not_fits fun hfits => hfirst (fits_append.mp hfits).1]
        rfl

end Meter

/-! ### Programs that walk -/

/-- What is seen of a program: the counters and an invariant of its states, and what its errors
amount to. -/
structure Observation (State Error Counter Verdict : Type) where
  spent : State → Counter → Nat
  good : State → Prop
  verdict : Error → Verdict

namespace Observation

variable {State Error Output Result : Type} (seen : Observation State Error Counter Verdict)

/-- A program ends as expected; `state` finds the state in what it gives. -/
def Follows (state : Output → State) (result : Except Error Output)
    (expected : Except Verdict (Counter → Nat)) : Prop :=
  match result with
  | .ok output => seen.good (state output) ∧ expected = .ok (seen.spent (state output))
  | .error error => expected = .error (seen.verdict error)

variable {seen} {state : Output → State} {final : Result → State}

/-- Steps that follow their parts follow the whole. -/
theorem Follows.bind {first : Except Error Output} {next : Output → Except Error Result}
    {expected : Except Verdict (Counter → Nat)}
    {after : (Counter → Nat) → Except Verdict (Counter → Nat)}
    (hfirst : seen.Follows state first expected)
    (hnext : ∀ output, first = .ok output → seen.good (state output) →
      seen.Follows final (next output) (after (seen.spent (state output)))) :
    seen.Follows final (first >>= next) (expected >>= after) := by
  cases first with
  | error error =>
      change expected = .error (seen.verdict error) at hfirst
      rw [hfirst]
      exact rfl
  | ok output =>
      obtain ⟨hgood, hexpected⟩ := hfirst
      rw [hexpected]
      exact hnext output rfl hgood

/-- What is returned in the end is not seen, as long as the counters stay. -/
theorem Follows.map {first : Except Error Output} {result : Output → Result}
    {expected : Except Verdict (Counter → Nat)} (hfirst : seen.Follows state first expected)
    (hgood : ∀ output, seen.good (state output) → seen.good (final (result output)))
    (hspent : ∀ output, seen.spent (final (result output)) = seen.spent (state output)) :
    seen.Follows final (first >>= fun output => pure (result output)) expected := by
  cases first with
  | error error => exact hfirst
  | ok output =>
      obtain ⟨hfirstGood, hexpected⟩ := hfirst
      exact ⟨hgood output hfirstGood, by rw [hexpected, hspent]⟩

theorem Follows.result {first : Except Error Output} {result : Output → Result}
    {expected : Except Verdict (Counter → Nat)} (hfirst : seen.Follows state first expected)
    (hsame : ∀ output, final (result output) = state output) :
    seen.Follows final (first >>= fun output => pure (result output)) expected :=
  hfirst.map (fun output hgood => hsame output ▸ hgood) fun output => by rw [hsame]

theorem Follows.ok {output : Output} {expected : Except Verdict (Counter → Nat)}
    (hgood : seen.good (state output)) (hexpected : expected = .ok (seen.spent (state output))) :
    seen.Follows state (.ok output) expected :=
  ⟨hgood, hexpected⟩

theorem Follows.error {error : Error} {expected : Except Verdict (Counter → Nat)}
    (hexpected : expected = .error (seen.verdict error)) :
    seen.Follows state (.error error) expected :=
  hexpected

/-- A step meets a demand: it succeeds exactly when the demand fits, and pays for it. -/
theorem Follows.ask {meter : Meter Counter Demand} {exceeded : Verdict} {verdict : Misfit → Verdict}
    {spent : Counter → Nat} {demand : Demand} {step : Except Error Output}
    (hmet : ∀ output, step = .ok output → meter.Fits spent [demand] ∧ seen.good (state output) ∧
      seen.spent (state output) = meter.charge spent [demand])
    (htotal : meter.Fits spent [demand] → ∃ output, step = .ok output)
    (hunmet : ∀ error, step = .error error → seen.verdict error = exceeded) :
    seen.Follows state step (meter.settle exceeded verdict (.ask demand) spent) := by
  cases step with
  | ok output =>
      obtain ⟨hfits, hgood, hspent⟩ := hmet output rfl
      exact .ok hgood (by rw [Meter.settle_of_fits hfits, hspent]; rfl)
  | error error =>
      have hfits : ¬ meter.Fits spent [demand] := by
        intro hfits
        obtain ⟨output, houtput⟩ := htotal hfits
        cases houtput
      exact .error (by rw [Meter.settle_of_not_fits hfits, hunmet error rfl])

section Walks

variable {meter : Meter Counter Demand} {exceeded : Verdict} {verdict : Misfit → Verdict}
  {spent : Counter → Nat} {misfit : Misfit} {error : Error} {after : Survey Demand Misfit}

/-- Steps that follow a survey, then steps that follow another, knowing what the first ones give. -/
theorem Follows.andThen_of_ok {first : Except Error Output} {next : Output → Except Error Result}
    {before : Survey Demand Misfit}
    (hfirst : seen.Follows state first (meter.settle exceeded verdict before spent))
    (hnext : ∀ output, first = .ok output → seen.good (state output) →
      seen.Follows final (next output)
        (meter.settle exceeded verdict after (seen.spent (state output)))) :
    seen.Follows final (first >>= next)
      (meter.settle exceeded verdict (before.andThen after) spent) := by
  rw [Meter.settle_andThen]
  exact hfirst.bind hnext

theorem Follows.andThen {first : Except Error Output} {next : Output → Except Error Result}
    {before : Survey Demand Misfit}
    (hfirst : seen.Follows state first (meter.settle exceeded verdict before spent))
    (hnext : ∀ output, seen.good (state output) → seen.Follows final (next output)
      (meter.settle exceeded verdict after (seen.spent (state output)))) :
    seen.Follows final (first >>= next)
      (meter.settle exceeded verdict (before.andThen after) spent) :=
  hfirst.andThen_of_ok fun output _ => hnext output

/-- A guard stops with its error where the survey stops with its misfit. -/
theorem Follows.require {condition : Prop} [Decidable condition] {holds : Bool}
    {next : Unit → Except Error Result} (hspent : ∀ counter, spent counter ≤ meter.cap counter)
    (hholds : holds = true ↔ condition) (herror : seen.verdict error = verdict misfit)
    (hnext : condition →
      seen.Follows final (next ()) (meter.settle exceeded verdict after spent)) :
    seen.Follows final (Lib.require condition error >>= next)
      (meter.settle exceeded verdict (.provided holds misfit after) spent) := by
  by_cases hcondition : condition
  · rw [Survey.provided, if_pos (hholds.mpr hcondition), Lib.require, if_pos hcondition]
    exact hnext hcondition
  · rw [Survey.provided, if_neg (fun htrue => hcondition (hholds.mp htrue)), Lib.require,
      if_neg hcondition]
    exact .error (by rw [Meter.settle_stop misfit hspent, herror])

/-- What is demanded of both is there for both. -/
theorem Follows.demand {option : Option Output} {next : Output → Except Error Result}
    {rest : Output → Survey Demand Misfit} (hspent : ∀ counter, spent counter ≤ meter.cap counter)
    (herror : seen.verdict error = verdict misfit)
    (hnext : ∀ output, option = some output →
      seen.Follows final (next output) (meter.settle exceeded verdict (rest output) spent)) :
    seen.Follows final (Lib.demand option error >>= next)
      (meter.settle exceeded verdict (.given (Lib.demand option misfit) rest) spent) := by
  cases option with
  | some output => exact hnext output rfl
  | none =>
      have hstop : Survey.given (Lib.demand none misfit) rest = .stop misfit := rfl
      exact .error (by rw [hstop, Meter.settle_stop misfit hspent, herror])

/-- An error where the survey stops. -/
theorem Follows.stop (hspent : ∀ counter, spent counter ≤ meter.cap counter)
    (herror : seen.verdict error = verdict misfit) :
    seen.Follows final (.error error) (meter.settle exceeded verdict (.stop misfit) spent) :=
  .error (by rw [Meter.settle_stop misfit hspent, herror])

/-- A result where the survey is done. -/
theorem Follows.done {result : Result} (hspent : ∀ counter, spent counter ≤ meter.cap counter)
    (hgood : seen.good (final result)) (hsame : seen.spent (final result) = spent) :
    seen.Follows final (.ok result) (meter.settle exceeded verdict .done spent) :=
  .ok hgood (by rw [Meter.settle_done hspent, hsame])

/-- The three ends of a walk. -/
inductive Ends (seen : Observation State Error Counter Verdict) (state : Output → State)
    (meter : Meter Counter Demand) (exceeded : Verdict) (verdict : Misfit → Verdict)
    (survey : Survey Demand Misfit) (spent : Counter → Nat) : Except Error Output → Prop where
  | finished (output : Output) (hfits : meter.Fits spent survey.demands)
      (hmisfit : survey.misfit = none)
      (hspent : seen.spent (state output) = meter.charge spent survey.demands) :
      Ends seen state meter exceeded verdict survey spent (.ok output)
  | stopped (error : Error) (misfit : Misfit) (hfits : meter.Fits spent survey.demands)
      (hmisfit : survey.misfit = some misfit) (hverdict : seen.verdict error = verdict misfit) :
      Ends seen state meter exceeded verdict survey spent (.error error)
  | refused (error : Error) (hfits : ¬ meter.Fits spent survey.demands)
      (hverdict : seen.verdict error = exceeded) :
      Ends seen state meter exceeded verdict survey spent (.error error)

/-- A walk that follows a survey ends as the meter settles it. -/
theorem Follows.ends {result : Except Error Output} {survey : Survey Demand Misfit}
    (hfollows : seen.Follows state result (meter.settle exceeded verdict survey spent)) :
    seen.Ends state meter exceeded verdict survey spent result := by
  by_cases hfits : meter.Fits spent survey.demands
  · rw [Meter.settle_of_fits hfits] at hfollows
    cases hmisfit : survey.misfit with
    | none =>
        rw [hmisfit] at hfollows
        cases result with
        | ok output =>
            have hspent := Except.ok.inj hfollows.2
            exact .finished output hfits hmisfit hspent.symm
        | error error => cases hfollows
    | some misfit =>
        rw [hmisfit] at hfollows
        cases result with
        | ok output => cases hfollows.2
        | error error => exact .stopped error misfit hfits hmisfit (Except.error.inj hfollows).symm
  · rw [Meter.settle_of_not_fits hfits] at hfollows
    cases result with
    | ok output => cases hfollows.2
    | error error => exact .refused error hfits (Except.error.inj hfollows).symm

end Walks

end Observation

end SupernoteModule.Lib
