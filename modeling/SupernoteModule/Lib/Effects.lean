import Mathlib.Logic.Function.Basic
import Mathlib.Tactic.Choose

/-!
# Programs of operations

A program acts on a world by operations, and each of them answers or raises. Between two operations
others may act on the same world, and the program may be stopped for good. What is proved of such a
program is a promise about every world it passes through, and a result for when it ends.
-/

namespace SupernoteModule.Lib

/-- A program in which what follows an operation depends on what that operation answers. -/
inductive Program (Op : Type) (Answer : Op → Type) (Error Output : Type) where
  | done (output : Output)
  | raised (error : Error)
  | act (op : Op) (next : Except Error (Answer op) → Program Op Answer Error Output)

namespace Program

variable {Op : Type} {Answer : Op → Type} {Error Output Result World Item : Type}

def bind : Program Op Answer Error Output → (Output → Program Op Answer Error Result) →
    Program Op Answer Error Result
  | done output, rest => rest output
  | raised error, _ => raised error
  | act op next, rest => act op fun answer => (next answer).bind rest

instance : Monad (Program Op Answer Error) where
  pure := done
  bind := bind

def ofExcept : Except Error Output → Program Op Answer Error Output
  | .ok output => done output
  | .error error => raised error

def call (op : Op) : Program Op Answer Error (Answer op) :=
  act op ofExcept

/-- The result as a value, for `try` to decide on. -/
def attempt : Program Op Answer Error Output → Program Op Answer Error (Except Error Output)
  | done output => done (.ok output)
  | raised error => done (.error error)
  | act op next => act op fun answer => (next answer).attempt

/-- `try` with a `finally` clause. -/
def ensuring (body : Program Op Answer Error Output) (cleanup : Program Op Answer Error Unit) :
    Program Op Answer Error Output :=
  body.attempt >>= fun result => cleanup >>= fun _ => ofExcept result

def forEach (body : Item → Program Op Answer Error Unit) : List Item → Program Op Answer Error Unit
  | [] => done ()
  | item :: items => body item >>= fun _ => forEach body items

/-- A loop that carries a value. -/
def fold {Carried : Type} (body : Carried → Item → Program Op Answer Error Carried) :
    Carried → List Item → Program Op Answer Error Carried
  | carried, [] => done carried
  | carried, item :: items => body carried item >>= fun next => fold body next items

/-! ### Executions -/

/-- What an operation can do to a world, and what others can do to it at any time. -/
structure Setting (Op : Type) (Answer : Op → Type) (Error World : Type) where
  performs : World → (op : Op) → Except Error (Answer op) → World → Prop
  disturbs : World → World → Prop

variable (setting : Setting Op Answer Error World)

/-- What is left of a program, and the world it is left in, after any number of operations. -/
inductive Reaches (program : Program Op Answer Error Output) (world : World) :
    Program Op Answer Error Output → World → Prop where
  | start : Reaches program world program world
  | act {op : Op} {next : Except Error (Answer op) → Program Op Answer Error Output}
      {answer : Except Error (Answer op)} {before after : World} :
      Reaches program world (.act op next) before → setting.performs before op answer after →
      Reaches program world (next answer) after
  | disturb {rest : Program Op Answer Error Output} {before after : World} :
      Reaches program world rest before → setting.disturbs before after →
      Reaches program world rest after

/-- The execution in which every operation does what `perform` says and nobody else acts. -/
def run (perform : World → (op : Op) → Except Error (Answer op × World)) :
    Program Op Answer Error Output → World → Except Error Output × World
  | done output, world => (.ok output, world)
  | raised error, world => (.error error, world)
  | act op next, world =>
      match perform world op with
      | .ok (answer, after) => run perform (next (.ok answer)) after
      | .error error => run perform (next (.error error)) world

variable {setting}

theorem Reaches.trans {program middle rest : Program Op Answer Error Output}
    {world between final : World} (hfirst : Reaches setting program world middle between)
    (hsecond : Reaches setting middle between rest final) :
    Reaches setting program world rest final := by
  induction hsecond with
  | start => exact hfirst
  | act _ hperforms ih => exact ih.act hperforms
  | disturb _ hdisturbs ih => exact ih.disturb hdisturbs

theorem reaches_run {perform : World → (op : Op) → Except Error (Answer op × World)}
    (hanswers : ∀ world op answer after, perform world op = .ok (answer, after) →
      setting.performs world op (.ok answer) after)
    (hraises : ∀ world op error, perform world op = .error error →
      setting.performs world op (.error error) world)
    (program : Program Op Answer Error Output) (world : World) :
    Reaches setting program world (ofExcept (program.run perform world).1)
      (program.run perform world).2 := by
  induction program generalizing world with
  | done output => exact .start
  | raised error => exact .start
  | act op next ih =>
      rw [run]
      cases hperform : perform world op with
      | ok reply =>
          obtain ⟨answer, after⟩ := reply
          exact (Reaches.start.act (hanswers world op answer after hperform)).trans (ih _ after)
      | error error =>
          exact (Reaches.start.act (hraises world op error hperform)).trans (ih _ world)

/-- Where an undisturbed run changes what is seen of the world, some operation is the first to. -/
theorem exists_change_of_run {View : Type} (view : World → View)
    {perform : World → (op : Op) → Except Error (Answer op × World)}
    (hanswers : ∀ world op answer after, perform world op = .ok (answer, after) →
      setting.performs world op (.ok answer) after)
    (hraises : ∀ world op error, perform world op = .error error →
      setting.performs world op (.error error) world)
    (program : Program Op Answer Error Output) (world : World)
    (hchanged : view (program.run perform world).2 ≠ view world) :
    ∃ op next answer before after, Reaches setting program world (.act op next) before ∧
      setting.performs before op answer after ∧ view before = view world ∧
      view after ≠ view before := by
  induction program generalizing world with
  | done output => exact absurd rfl hchanged
  | raised error => exact absurd rfl hchanged
  | act op next ih =>
      rw [run] at hchanged
      cases hperform : perform world op with
      | ok reply =>
          obtain ⟨answer, after⟩ := reply
          have hanswer := hanswers world op answer after hperform
          by_cases hsame : view after = view world
          · rw [hperform, ← hsame] at hchanged
            obtain ⟨later, rest, reply, before, final, hreaches, hperforms, hview, hne⟩ :=
              ih (.ok answer) after hchanged
            exact ⟨later, rest, reply, before, final,
              (Reaches.start.act hanswer).trans hreaches, hperforms, hview.trans hsame, hne⟩
          · exact ⟨op, next, .ok answer, world, after, .start, hanswer, rfl, hsame⟩
      | error error =>
          rw [hperform] at hchanged
          obtain ⟨later, rest, reply, before, final, hreaches, hperforms, hview, hne⟩ :=
            ih (.error error) world hchanged
          exact ⟨later, rest, reply, before, final,
            (Reaches.start.act (hraises world op error hperform)).trans hreaches, hperforms, hview,
            hne⟩

variable (setting)

/-- What a program promises: something about every world, and something about its own changes. -/
structure Promise where
  always : World → Prop
  change : World → World → Prop
  stable : ∀ {before after : World}, setting.disturbs before after → always before → always after

variable {setting}

/-- Something true of a world that keeps the promise and that nobody else can undo. -/
structure Assertion (promise : Promise setting) where
  holds : World → Prop
  always : ∀ {world : World}, holds world → promise.always world
  stable : ∀ {before after : World}, setting.disturbs before after → holds before → holds after

variable {promise : Promise setting}

/-- The weakest assertion. -/
def Assertion.kept (promise : Promise setting) : Assertion promise :=
  ⟨promise.always, id, promise.stable⟩

/-- One of several assertions; with propositions as the index, an assertion under a condition. -/
def Assertion.any {Index : Sort*} (family : Index → Assertion promise) : Assertion promise where
  holds world := ∃ index, (family index).holds world
  always := fun ⟨index, hholds⟩ => (family index).always hholds
  stable hdisturbs := fun ⟨index, hholds⟩ => ⟨index, (family index).stable hdisturbs hholds⟩

/-- An assertion together with a fact. -/
def Assertion.given (fact : Prop) (assertion : Assertion promise) : Assertion promise :=
  .any fun _ : fact => assertion

instance : LE (Assertion promise) where
  le first second := ∀ ⦃world⦄, first.holds world → second.holds world

theorem Assertion.le_refl (assertion : Assertion promise) : assertion ≤ assertion :=
  fun _ hholds => hholds

theorem Assertion.le_trans {first second third : Assertion promise} (hfirst : first ≤ second)
    (hsecond : second ≤ third) : first ≤ third :=
  fun _ hholds => hsecond (hfirst hholds)

theorem Assertion.le_kept (assertion : Assertion promise) : assertion ≤ .kept promise :=
  fun _ hholds => assertion.always hholds

theorem Assertion.any_le {Index : Sort*} {family : Index → Assertion promise}
    {weaker : Assertion promise} (hweaker : ∀ index, family index ≤ weaker) :
    .any family ≤ weaker :=
  fun _ ⟨index, hholds⟩ => hweaker index hholds

theorem Assertion.le_given {fact : Prop} {assertion : Assertion promise} (hfact : fact) :
    assertion ≤ .given fact assertion :=
  fun _ hholds => ⟨hfact, hholds⟩

/-! ### Proofs about programs -/

/-- An assertion for each kind of result. -/
def outcome (returned : Output → Assertion promise) (failed : Error → Assertion promise) :
    Except Error Output → Assertion promise
  | .ok output => returned output
  | .error error => failed error

/-- Started where `pre` holds, the program keeps its promise, and ends where `post` holds. -/
def Meets (post : Except Error Output → Assertion promise) :
    Assertion promise → Program Op Answer Error Output → Prop
  | pre, done output => pre ≤ post (.ok output)
  | pre, raised error => pre ≤ post (.error error)
  | pre, act op next => ∀ answer, ∃ middle : Assertion promise,
      (∀ before after, pre.holds before → setting.performs before op answer after →
        promise.change before after ∧ middle.holds after) ∧ Meets post middle (next answer)

variable {pre : Assertion promise} {post : Except Error Output → Assertion promise}
  {program : Program Op Answer Error Output}

/-- The rule of consequence. -/
theorem Meets.consequence {stronger : Assertion promise}
    {weaker : Except Error Output → Assertion promise} (hmeets : Meets post pre program)
    (hpre : stronger ≤ pre) (hpost : ∀ result, post result ≤ weaker result) :
    Meets weaker stronger program := by
  induction program generalizing stronger pre with
  | done output =>
      apply Assertion.le_trans hpre
      exact Assertion.le_trans hmeets (hpost (.ok output))
  | raised error =>
      apply Assertion.le_trans hpre
      exact Assertion.le_trans hmeets (hpost (.error error))
  | act op next ih =>
      intro answer
      obtain ⟨middle, hstep, hrest⟩ := hmeets answer
      refine ⟨middle, ?_, ih answer hrest middle.le_refl⟩
      intro before after hholds hperforms
      exact hstep before after (hpre hholds) hperforms

theorem Meets.strengthen {stronger : Assertion promise} (hmeets : Meets post pre program)
    (hpre : stronger ≤ pre) : Meets post stronger program :=
  hmeets.consequence hpre fun result => (post result).le_refl

/-- Where the assertion implies a fact of its own, the fact can be assumed. -/
theorem Meets.assuming {fact : Prop} (hfact : ∀ world, pre.holds world → fact)
    (hmeets : fact → Meets post pre program) : Meets post pre program := by
  by_cases htrue : fact
  · exact hmeets htrue
  -- Without the fact there is no world to start from.
  · have hnone : ∀ world, ¬ pre.holds world := fun world hholds => htrue (hfact world hholds)
    clear hmeets
    induction program with
    | done output => exact fun world hholds => absurd hholds (hnone world)
    | raised error => exact fun world hholds => absurd hholds (hnone world)
    | act op next ih =>
        intro answer
        exact ⟨pre, fun before _ hholds => absurd hholds (hnone before), ih answer⟩

/-- A proof for each of several assertions is one for all of them. -/
theorem Meets.any {Index : Sort*} {family : Index → Assertion promise}
    (hmeets : ∀ index, Meets post (family index) program) : Meets post (.any family) program := by
  induction program generalizing Index with
  | done output => exact Assertion.any_le hmeets
  | raised error => exact Assertion.any_le hmeets
  | act op next ih =>
      intro answer
      choose middle hstep hrest using fun index => hmeets index answer
      refine ⟨.any middle, ?_, ih answer hrest⟩
      rintro before after ⟨index, hholds⟩ hperforms
      obtain ⟨hchange, hmiddle⟩ := hstep index before after hholds hperforms
      exact ⟨hchange, index, hmiddle⟩

theorem Meets.given {fact : Prop} (hmeets : fact → Meets post pre program) :
    Meets post (.given fact pre) program :=
  Meets.any hmeets

theorem Meets.ofExcept {result : Except Error Output} (hpre : pre ≤ post result) :
    Meets post pre (ofExcept result) := by
  cases result with
  | ok output => exact hpre
  | error error => exact hpre

theorem Meets.pure {output : Output} (hpre : pre ≤ post (.ok output)) :
    Meets post pre (pure output) :=
  hpre

theorem Meets.raised {error : Error} (hpre : pre ≤ post (.error error)) :
    Meets post pre (raised error) :=
  hpre

/-- The rule for one operation. -/
theorem Meets.call (op : Op) {post : Except Error (Answer op) → Assertion promise}
    (hstep : ∀ answer before after, pre.holds before → setting.performs before op answer after →
      promise.change before after ∧ (post answer).holds after) :
    Meets post pre (call op) := by
  intro answer
  exact ⟨post answer, hstep answer, Meets.ofExcept (post answer).le_refl⟩

/-- The rule of composition. -/
theorem Meets.bind {middle : Except Error Output → Assertion promise}
    {post : Except Error Result → Assertion promise}
    {rest : Output → Program Op Answer Error Result} (hfirst : Meets middle pre program)
    (hrest : ∀ output, Meets post (middle (.ok output)) (rest output))
    (herror : ∀ error, middle (.error error) ≤ post (.error error)) :
    Meets post pre (program >>= rest) := by
  change Meets post pre (program.bind rest)
  induction program generalizing pre with
  | done output => exact (hrest output).strengthen hfirst
  | raised error => exact Assertion.le_trans hfirst (herror error)
  | act op next ih =>
      intro answer
      obtain ⟨after, hstep, hnext⟩ := hfirst answer
      exact ⟨after, hstep, ih answer hnext⟩

/-- Composition where both parts fail alike. -/
theorem Meets.andThen {returned : Output → Assertion promise} {failed : Error → Assertion promise}
    {next : Result → Assertion promise} {rest : Output → Program Op Answer Error Result}
    (hfirst : Meets (outcome returned failed) pre program)
    (hrest : ∀ output, Meets (outcome next failed) (returned output) (rest output)) :
    Meets (outcome next failed) pre (program >>= rest) :=
  Meets.bind hfirst hrest fun error => (failed error).le_refl

theorem Meets.attempt {post : Except Error (Except Error Output) → Assertion promise}
    (hmeets : Meets (fun result => post (.ok result)) pre program) :
    Meets post pre program.attempt := by
  induction program generalizing pre with
  | done output => exact hmeets
  | raised error => exact hmeets
  | act op next ih =>
      intro answer
      obtain ⟨after, hstep, hnext⟩ := hmeets answer
      exact ⟨after, hstep, ih answer hnext⟩

/-- The rule for `try` with handlers. -/
theorem Meets.catching {middle : Except Error Output → Assertion promise}
    {post : Except Error Result → Assertion promise}
    {rest : Except Error Output → Program Op Answer Error Result} (hbody : Meets middle pre program)
    (hrest : ∀ result, Meets post (middle result) (rest result)) :
    Meets post pre (program.attempt >>= rest) := by
  have hattempt : Meets (outcome middle fun error => post (.error error)) pre program.attempt :=
    Meets.attempt hbody
  exact Meets.bind hattempt hrest fun error => (post (.error error)).le_refl

/-- The rule for `finally`: whatever the body came to, the cleanup keeps it. -/
theorem Meets.ensuring {middle : Except Error Output → Assertion promise}
    {cleanup : Program Op Answer Error Unit} (hbody : Meets middle pre program)
    (hcleanup : ∀ result, Meets (outcome (fun _ => post result) fun error => post (.error error))
      (middle result) cleanup) :
    Meets post pre (program.ensuring cleanup) := by
  apply Meets.catching hbody
  intro result
  apply Meets.bind (hcleanup result)
  · exact fun _ => Meets.ofExcept (post result).le_refl
  · exact fun error => (post (.error error)).le_refl

/-- The rule for a loop, with an invariant of the items that are done. -/
theorem Meets.forEach {body : Item → Program Op Answer Error Unit} {items : List Item}
    {failed : Error → Assertion promise} (inv : List Item → Assertion promise)
    (hbody : ∀ before item after, items = before ++ item :: after →
      Meets (outcome (fun _ => inv (before ++ [item])) failed) (inv before) (body item)) :
    Meets (outcome (fun _ => inv items) failed) (inv []) (forEach body items) := by
  suffices hsuffix : ∀ before after, items = before ++ after →
      Meets (outcome (fun _ => inv items) failed) (inv before) (Program.forEach body after) from
    hsuffix [] items rfl
  intro before after hitems
  induction after generalizing before with
  | nil =>
      rw [List.append_nil] at hitems
      exact hitems ▸ (inv items).le_refl
  | cons item after ih =>
      apply Meets.bind (hbody before item after hitems)
      · intro _
        apply ih (before ++ [item])
        rw [hitems, List.append_assoc, List.singleton_append]
      · exact fun error => (failed error).le_refl

/-- The rule for a loop that carries a value. -/
theorem Meets.fold {Carried : Type} {body : Carried → Item → Program Op Answer Error Carried}
    {items : List Item} {failed : Error → Assertion promise}
    (inv : List Item → Carried → Assertion promise)
    (hbody : ∀ before item after carried, items = before ++ item :: after →
      Meets (outcome (inv (before ++ [item])) failed) (inv before carried) (body carried item))
    (carried : Carried) :
    Meets (outcome (inv items) failed) (inv [] carried) (fold body carried items) := by
  suffices hsuffix : ∀ before after carried, items = before ++ after →
      Meets (outcome (inv items) failed) (inv before carried) (Program.fold body carried after) from
    hsuffix [] items carried rfl
  intro before after carried hitems
  induction after generalizing before carried with
  | nil =>
      rw [List.append_nil] at hitems
      exact hitems ▸ (inv items carried).le_refl
  | cons item after ih =>
      apply Meets.bind (hbody before item after carried hitems)
      · intro next
        apply ih (before ++ [item])
        rw [hitems, List.append_assoc, List.singleton_append]
      · exact fun error => (failed error).le_refl

/-! ### What a proof says about executions -/

theorem Meets.reaches {world final : World} {rest : Program Op Answer Error Output}
    (hmeets : Meets post pre program) (hpre : pre.holds world)
    (hreaches : Reaches setting program world rest final) :
    ∃ assertion : Assertion promise, assertion.holds final ∧ Meets post assertion rest := by
  induction hreaches with
  | start => exact ⟨pre, hpre, hmeets⟩
  | act _ hperforms ih =>
      obtain ⟨assertion, hholds, hnext⟩ := ih
      obtain ⟨middle, hstep, hrest⟩ := hnext _
      exact ⟨middle, (hstep _ _ hholds hperforms).2, hrest⟩
  | disturb _ hdisturbs ih =>
      obtain ⟨assertion, hholds, hrest⟩ := ih
      exact ⟨assertion, assertion.stable hdisturbs hholds, hrest⟩

/-- **Every world that an execution passes through keeps the promise.** -/
theorem Meets.always {world final : World} {rest : Program Op Answer Error Output}
    (hmeets : Meets post pre program) (hpre : pre.holds world)
    (hreaches : Reaches setting program world rest final) : promise.always final := by
  obtain ⟨assertion, hholds, _⟩ := hmeets.reaches hpre hreaches
  exact assertion.always hholds

/-- **Every change the program makes itself is one it has promised.** -/
theorem Meets.change {world before after : World} {op : Op}
    {next : Except Error (Answer op) → Program Op Answer Error Output}
    {answer : Except Error (Answer op)} (hmeets : Meets post pre program)
    (hpre : pre.holds world) (hreaches : Reaches setting program world (.act op next) before)
    (hperforms : setting.performs before op answer after) : promise.change before after := by
  obtain ⟨assertion, hholds, hrest⟩ := hmeets.reaches hpre hreaches
  obtain ⟨middle, hstep, _⟩ := hrest answer
  exact (hstep before after hholds hperforms).1

theorem Meets.returns {world final : World} {output : Output} (hmeets : Meets post pre program)
    (hpre : pre.holds world) (hreaches : Reaches setting program world (.done output) final) :
    (post (.ok output)).holds final := by
  obtain ⟨assertion, hholds, hrest⟩ := hmeets.reaches hpre hreaches
  exact hrest hholds

theorem Meets.raises {world final : World} {error : Error} (hmeets : Meets post pre program)
    (hpre : pre.holds world)
    (hreaches : Reaches setting program world (Program.raised error) final) :
    (post (.error error)).holds final := by
  obtain ⟨assertion, hholds, hrest⟩ := hmeets.reaches hpre hreaches
  exact hrest hholds

-- Proofs about programs go by the rules above.
attribute [irreducible] Meets

end Program

end SupernoteModule.Lib
