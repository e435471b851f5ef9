import Mathlib.Data.List.Forall2

/-!
# Guards and traversals in `Except`

A validator is a sequence of guards, each of which stops with its error, and of traversals that
validate the items of a list in order. What an accepted input satisfies is read off with the rules
below, one guard at a time.
-/

namespace SupernoteModule.Lib

instance decidableEqExcept {Error Value : Type*} [DecidableEq Error] [DecidableEq Value] :
    DecidableEq (Except Error Value)
  | .ok left, .ok right => decidable_of_iff (left = right) (by simp)
  | .error left, .error right => decidable_of_iff (left = right) (by simp)
  | .ok _, .error _ => .isFalse (by simp)
  | .error _, .ok _ => .isFalse (by simp)

variable {Error Value Result Item Output : Type}

/-- Go on when the condition holds, stop with the error otherwise. -/
def require (condition : Prop) [Decidable condition] (error : Error) : Except Error Unit :=
  if condition then .ok () else .error error

@[simp] theorem require_eq_ok {condition : Prop} [Decidable condition] {error : Error}
    {value : Unit} : require condition error = .ok value ↔ condition := by
  unfold require
  split <;> simp_all

/-- Take the value that is there, stop with the error when there is none. -/
def demand (value : Option Value) (error : Error) : Except Error Value :=
  match value with
  | some value => .ok value
  | none => .error error

@[simp] theorem demand_eq_ok {option : Option Value} {error : Error} {value : Value} :
    demand option error = .ok value ↔ option = some value := by
  cases option <;> simp [demand]

/-- A sequence succeeds when its first step does and the rest succeeds on what that step gave. -/
theorem bind_eq_ok {first : Except Error Value} {next : Value → Except Error Result}
    {result : Result} :
    first >>= next = .ok result ↔ ∃ value, first = .ok value ∧ next value = .ok result := by
  cases first with
  | error error => simp [bind, Except.bind]
  | ok value => simp [bind, Except.bind]

theorem exists_unit {condition : Unit → Prop} : (∃ value, condition value) ↔ condition () :=
  Unique.exists_iff

@[simp] theorem pure_eq_ok {value result : Value} :
    (pure value : Except Error Value) = .ok result ↔ value = result := by
  simp [pure, Except.pure]

theorem map_eq_ok {body : Except Error Item} {build : Item → Output} {output : Output} :
    body.map build = .ok output ↔ ∃ item, body = .ok item ∧ build item = output := by
  cases body with
  | error error => simp [Except.map]
  | ok item => simp [Except.map]

/-! ### Errors -/

theorem mapError_eq_ok {Raised : Type} {body : Except Error Value} {raise : Error → Raised}
    {value : Value} : body.mapError raise = .ok value ↔ body = .ok value := by
  cases body with
  | error error => simp [Except.mapError]
  | ok value => simp [Except.mapError]

theorem mapError_eq_error {Raised : Type} {body : Except Error Value} {raise : Error → Raised}
    {raised : Raised} :
    body.mapError raise = .error raised ↔ ∃ error, body = .error error ∧ raise error = raised := by
  cases body with
  | error error => simp [Except.mapError]
  | ok value => simp [Except.mapError]

theorem bind_eq_error {first : Except Error Value} {next : Value → Except Error Result}
    {error : Error} :
    first >>= next = .error error ↔
      first = .error error ∨ ∃ value, first = .ok value ∧ next value = .error error := by
  cases first with
  | error error => simp [bind, Except.bind]
  | ok value => simp [bind, Except.bind]

@[simp] theorem require_eq_error {condition : Prop} [Decidable condition] {error raised : Error} :
    require condition error = .error raised ↔ ¬ condition ∧ error = raised := by
  unfold require
  split <;> simp_all

@[simp] theorem pure_ne_error {value : Value} {error : Error} :
    (pure value : Except Error Value) ≠ .error error := by
  simp [pure, Except.pure]

/-! ### Checked values -/

/-- A result that is not an error is a value. -/
theorem exists_of_isOk {result : Except Error Value} (hok : result.isOk = true) :
    ∃ value, result = .ok value := by
  cases result with
  | error error => simp [Except.isOk, Except.toBool] at hok
  | ok value => exact ⟨value, rfl⟩

/-- Build a value out of the proof that its check has passed. -/
def verified (check : Except Error Unit) (build : check = .ok () → Value) : Except Error Value :=
  match check, build with
  | .ok (), build => .ok (build rfl)
  | .error error, _ => .error error

theorem verified_eq_ok {check : Except Error Unit} {build : check = .ok () → Value}
    {value : Value} : verified check build = .ok value ↔ ∃ hcheck, build hcheck = value := by
  cases check with
  | ok _ => simp [verified]
  | error error => simp [verified]

/-- **A record that is its fields and the proof that they have passed their check** is built from
its fields and from no others. -/
theorem verified_eq_ok_of_fields {Fields Record : Type} {check : Except Error Unit}
    {build : check = .ok () → Record} {fieldsOf : Record → Fields} {fields : Fields}
    {record : Record} (hbuild : ∀ hcheck, fieldsOf (build hcheck) = fields)
    (hrecord : fieldsOf record = fields → ∃ hcheck, build hcheck = record) :
    verified check build = .ok record ↔ fieldsOf record = fields := by
  rw [verified_eq_ok]
  constructor
  · rintro ⟨hcheck, rfl⟩
    exact hbuild hcheck
  · exact hrecord

/-- Run a check, and keep the proof that it passed. -/
def certify (check : Except Error Unit) : Except Error (PLift (check = .ok ())) :=
  verified check PLift.up

@[simp] theorem certify_eq_ok {check : Except Error Unit} {proof : PLift (check = .ok ())} :
    certify check = .ok proof ↔ check = .ok () := by
  rw [certify, verified_eq_ok]
  constructor
  · rintro ⟨hcheck, _⟩
    exact hcheck
  · intro hcheck
    exact ⟨hcheck, rfl⟩

/-- Validate the items in order, each with its index, and stop at the first error. -/
def enumerate (step : Item → Nat → Except Error Output) :
    Nat → List Item → Except Error (List Output)
  | _, [] => .ok []
  | index, item :: items => do
      let output ← step item index
      let outputs ← enumerate step (index + 1) items
      return output :: outputs

/-- A traversal that succeeds validated every item, and gives the outputs in order. -/
theorem enumerate_eq_ok {step : Item → Nat → Except Error Output} {index : Nat}
    {items : List Item} {outputs : List Output} (hok : enumerate step index items = .ok outputs) :
    List.Forall₂ (fun item output => ∃ index, step item index = .ok output) items outputs := by
  induction items generalizing index outputs with
  | nil =>
      simp only [enumerate, Except.ok.injEq] at hok
      subst hok
      exact List.Forall₂.nil
  | cons item items ih =>
      simp only [enumerate, bind_eq_ok, pure_eq_ok] at hok
      obtain ⟨output, hitem, rest, hrest, rfl⟩ := hok
      exact List.Forall₂.cons ⟨index, hitem⟩ (ih hrest)

/-- A traversal of encoded items gives what each of them reads as. -/
theorem enumerate_map {step : Item → Nat → Except Error Output} {Value : Type}
    {encode : Value → Item} {read : Value → Output} {values : List Value}
    (hstep : ∀ value ∈ values, ∀ index, step (encode value) index = .ok (read value))
    (index : Nat) : enumerate step index (values.map encode) = .ok (values.map read) := by
  induction values generalizing index with
  | nil => simp [enumerate]
  | cons value values ih =>
      have hhead := hstep value List.mem_cons_self index
      have htail := ih (fun other hother => hstep other (List.mem_cons_of_mem _ hother)) (index + 1)
      simp only [List.map_cons, enumerate, bind_eq_ok, pure_eq_ok]
      exact ⟨_, hhead, _, htail, rfl⟩

/-- A traversal succeeds when every item does. -/
theorem enumerate_exists {step : Item → Nat → Except Error Output} {items : List Item}
    {relation : Item → Output → Prop}
    (hstep : ∀ item ∈ items, ∀ index, ∃ output, step item index = .ok output ∧ relation item output)
    (index : Nat) :
    ∃ outputs, enumerate step index items = .ok outputs ∧ List.Forall₂ relation items outputs := by
  induction items generalizing index with
  | nil => exact ⟨[], rfl, .nil⟩
  | cons item items ih =>
      obtain ⟨output, hitem, hrelation⟩ := hstep item List.mem_cons_self index
      obtain ⟨outputs, hitems, hrelations⟩ :=
        ih (fun other hother => hstep other (List.mem_cons_of_mem _ hother)) (index + 1)
      refine ⟨output :: outputs, ?_, .cons hrelation hrelations⟩
      simp only [enumerate, bind_eq_ok, pure_eq_ok]
      exact ⟨output, hitem, outputs, hitems, rfl⟩

section Forall₂

variable {relation : Item → Output → Prop} {items : List Item} {outputs : List Output}

/-- Every output of related lists comes from an item. -/
theorem exists_item_of_mem (hrelated : List.Forall₂ relation items outputs) {output : Output}
    (houtput : output ∈ outputs) : ∃ item ∈ items, relation item output := by
  induction hrelated with
  | nil => simp at houtput
  | cons hhead _ ih =>
      rcases List.mem_cons.mp houtput with rfl | htail
      · exact ⟨_, List.mem_cons_self, hhead⟩
      · obtain ⟨item, hitem, hrelation⟩ := ih htail
        exact ⟨item, List.mem_cons_of_mem _ hitem, hrelation⟩

/-- Every item of related lists gives an output. -/
theorem exists_output_of_mem (hrelated : List.Forall₂ relation items outputs) {item : Item}
    (hitem : item ∈ items) : ∃ output ∈ outputs, relation item output := by
  obtain ⟨output, houtput, hrelation⟩ := exists_item_of_mem hrelated.flip hitem
  exact ⟨output, houtput, hrelation⟩

/-- Related lists show the same, when related members do. -/
theorem map_eq_of_related (hrelated : List.Forall₂ relation items outputs) {Shown : Type}
    {left : Item → Shown} {right : Output → Shown}
    (hshown : ∀ item output, relation item output → right output = left item) :
    outputs.map right = items.map left := by
  induction hrelated with
  | nil => rfl
  | cons hhead _ ih => rw [List.map_cons, List.map_cons, ih, hshown _ _ hhead]

theorem flatMap_eq_of_related (hrelated : List.Forall₂ relation items outputs) {Shown : Type}
    {left : Item → List Shown} {right : Output → List Shown}
    (hshown : ∀ item output, relation item output → right output = left item) :
    outputs.flatMap right = items.flatMap left := by
  rw [List.flatMap_def, List.flatMap_def, map_eq_of_related hrelated hshown]

/-- Items that are each related to an output are related to a list of them. -/
theorem exists_related (hitems : ∀ item ∈ items, ∃ output, relation item output) :
    ∃ outputs, List.Forall₂ relation items outputs := by
  induction items with
  | nil => exact ⟨[], .nil⟩
  | cons item items ih =>
      rw [List.forall_mem_cons] at hitems
      obtain ⟨⟨output, houtput⟩, hothers⟩ := hitems
      obtain ⟨outputs, houtputs⟩ := ih hothers
      exact ⟨output :: outputs, .cons houtput houtputs⟩

/-- Items that are each shown by an output that holds are shown by a list of such outputs. -/
theorem exists_shown {shown : Output → Item} {holds : Output → Prop}
    (hitems : ∀ item ∈ items, ∃ output, shown output = item ∧ holds output) :
    ∃ outputs : List Output, outputs.map shown = items ∧ ∀ output ∈ outputs, holds output := by
  obtain ⟨outputs, hrelated⟩ : ∃ outputs,
      List.Forall₂ (fun item output => shown output = item ∧ holds output) items outputs :=
    exists_related hitems
  refine ⟨outputs, ?_, ?_⟩
  · have hmap : outputs.map shown = items.map id :=
      map_eq_of_related hrelated fun _ _ hboth => hboth.1
    rw [hmap, List.map_id]
  · intro output houtput
    obtain ⟨_, _, _, hholds⟩ := exists_item_of_mem hrelated houtput
    exact hholds

/-- Keys that the outputs keep apart are different already. -/
theorem nodup_map_of_related {Key : Type} (hrelated : List.Forall₂ relation items outputs)
    {key : Item → Key} {keys : Output → List Key}
    (hkey : ∀ item output, relation item output → key item ∈ keys output)
    (hnodup : (outputs.flatMap keys).Nodup) : (items.map key).Nodup := by
  induction hrelated with
  | nil => exact List.nodup_nil
  | @cons item output items outputs hhead hrest ih =>
      rw [List.flatMap_cons, List.nodup_append] at hnodup
      rw [List.map_cons, List.nodup_cons]
      refine ⟨?_, ih hnodup.2.1⟩
      intro hmem
      obtain ⟨other, hother, heq⟩ := List.mem_map.mp hmem
      obtain ⟨found, hfound, hrelation⟩ := exists_output_of_mem hrest hother
      have hlater : key item ∈ outputs.flatMap keys :=
        List.mem_flatMap.mpr ⟨found, hfound, heq ▸ hkey other found hrelation⟩
      exact hnodup.2.2 _ (hkey item output hhead) _ hlater rfl

end Forall₂

/-- Check the items in order, and stop at the first error. -/
def checkEach (items : List Item) (check : Item → Except Error Unit) : Except Error Unit :=
  match items with
  | [] => .ok ()
  | item :: items => do
      check item
      checkEach items check

theorem checkEach_eq_ok {check : Item → Except Error Unit} {items : List Item} {value : Unit} :
    checkEach items check = .ok value ↔ ∀ item ∈ items, check item = .ok () := by
  induction items with
  | nil => simp [checkEach]
  | cons item items ih =>
      rw [checkEach, bind_eq_ok, List.forall_mem_cons]
      constructor
      · rintro ⟨value, hitem, hitems⟩
        exact ⟨hitem, ih.mp hitems⟩
      · rintro ⟨hitem, hitems⟩
        exact ⟨(), hitem, ih.mpr hitems⟩

/-! ### Traversals and folds that stop at the first error -/

theorem mapM_eq_ok {step : Item → Except Error Output} {items : List Item} {outputs : List Output} :
    items.mapM step = .ok outputs ↔
      List.Forall₂ (fun item output => step item = .ok output) items outputs := by
  induction items generalizing outputs with
  | nil => simp [pure, Except.pure, eq_comm]
  | cons item items ih =>
      rw [List.mapM_cons, bind_eq_ok, List.forall₂_cons_left_iff]
      simp only [bind_eq_ok, pure_eq_ok, ih]
      constructor
      · rintro ⟨output, hitem, rest, hrest, rfl⟩
        exact ⟨output, rest, hitem, hrest, rfl⟩
      · rintro ⟨output, rest, hitem, hrest, rfl⟩
        exact ⟨output, hitem, rest, hrest, rfl⟩

theorem mapM_exists {step : Item → Except Error Output} {items : List Item}
    {relation : Item → Output → Prop}
    (hstep : ∀ item ∈ items, ∃ output, step item = .ok output ∧ relation item output) :
    ∃ outputs, items.mapM step = .ok outputs ∧ List.Forall₂ relation items outputs := by
  obtain ⟨outputs, houtputs⟩ := exists_related hstep
  exact ⟨outputs, mapM_eq_ok.mpr (houtputs.imp fun _ _ h => h.1), houtputs.imp fun _ _ h => h.2⟩

theorem foldlM_cons_eq_ok {State : Type} {step : State → Item → Except Error State}
    {item : Item} {items : List Item} {state final : State} :
    (item :: items).foldlM step state = .ok final ↔
      ∃ next, step state item = .ok next ∧ items.foldlM step next = .ok final := by
  rw [List.foldlM_cons, bind_eq_ok]

/-- A fold whose steps keep an invariant and never stop gives a state with the invariant. -/
theorem foldlM_exists {State : Type} {step : State → Item → Except Error State} {items : List Item}
    (invariant : State → Prop)
    (hstep : ∀ state, invariant state → ∀ item ∈ items,
      ∃ next, step state item = .ok next ∧ invariant next)
    {state : State} (hstate : invariant state) :
    ∃ final, items.foldlM step state = .ok final ∧ invariant final := by
  induction items generalizing state with
  | nil => exact ⟨state, rfl, hstate⟩
  | cons item items ih =>
      obtain ⟨next, hitem, hnext⟩ := hstep state hstate item List.mem_cons_self
      obtain ⟨final, hrest, hfinal⟩ := ih (fun state hstate other hother =>
        hstep state hstate other (List.mem_cons_of_mem item hother)) hnext
      exact ⟨final, foldlM_cons_eq_ok.mpr ⟨next, hitem, hrest⟩, hfinal⟩

/-- **The law of a fold that gains from each item and loses a part.** What the state shows in the
end and what was lost are together what it showed first and all there was to gain. -/
theorem foldlM_perm {State Shown : Type} {step : State → Item → Except Error State}
    {items : List Item} (view : State → List Shown) (gain loss : Item → List Shown)
    (hstep : ∀ state, ∀ item ∈ items, ∀ next, step state item = .ok next →
      (view next ++ loss item).Perm (view state ++ gain item))
    {state final : State} (hfold : items.foldlM step state = .ok final) :
    (view final ++ items.flatMap loss).Perm (view state ++ items.flatMap gain) := by
  induction items generalizing state with
  | nil =>
      obtain rfl : state = final := by simpa [pure, Except.pure] using hfold
      exact List.Perm.refl _
  | cons item items ih =>
      obtain ⟨next, hitem, hrest⟩ := foldlM_cons_eq_ok.mp hfold
      have hfirst := hstep state item List.mem_cons_self next hitem
      have hothers := ih (fun state other hother =>
        hstep state other (List.mem_cons_of_mem item hother)) hrest
      rw [List.flatMap_cons, List.flatMap_cons, ← List.append_assoc (view state)]
      calc
        (view final ++ (loss item ++ items.flatMap loss)).Perm
            (loss item ++ (view final ++ items.flatMap loss)) := by
          rw [← List.append_assoc, ← List.append_assoc]
          exact List.perm_append_comm.append_right _
        List.Perm _ (loss item ++ (view next ++ items.flatMap gain)) := hothers.append_left _
        List.Perm _ ((view next ++ loss item) ++ items.flatMap gain) := by
          rw [← List.append_assoc]
          exact List.perm_append_comm.append_right _
        List.Perm _ ((view state ++ gain item) ++ items.flatMap gain) := hfirst.append_right _

end SupernoteModule.Lib
