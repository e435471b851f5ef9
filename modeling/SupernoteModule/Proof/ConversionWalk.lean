import SupernoteModule.Spec.ConversionWalk

/-!
# The engine and its walk

Converting a value is running its walk on the budget. The walk of an inhabitant goes to the end, and
its steps amount to what the value measures; a walk that goes to the end is one of an inhabitant.
-/

namespace SupernoteModule.Conversion

open SupernoteModule.Lib SupernoteModule.Semantic

/-! ### The engine is the walk -/

theorem demand_some_bind {Output Result : Type} (output : Output) (failure : Failure)
    (next : Output → Except Failure Result) :
    demand (some output) failure >>= next = next output :=
  rfl

theorem walkText_run (text : Text) (path : String) (snapshot : Snapshot) :
    (walkText text path).run Step.execute snapshot =
      (do
        let length ← encodedSize text
        snapshot.budget.checkStringBytes length path
        let snapshot ← snapshot.reserve length path
        return (.text text, snapshot)) := by
  rw [walkText, Walk.run_check_bind]
  apply bind_congr
  intro length
  rw [Walk.run_take_bind, Step.execute, bind_assoc]
  apply bind_congr
  intro _
  rw [pure_bind, Walk.run_take_bind, Step.execute]
  rfl

theorem convertScalar_eq_run (kind : ScalarKind) (value : Value) (direction : ConversionDirection)
    (path : String) (snapshot : Snapshot) :
    convertScalar kind value direction path snapshot =
      (walkScalar kind value direction path).run Step.execute snapshot := by
  cases kind with
  | bool => cases value <;> rfl
  | int32 =>
      rw [convertScalar, walkScalar, Walk.run_check_bind]
      apply bind_congr
      intro numeric
      rw [Walk.run_check_bind]
      apply bind_congr
      intro integer
      rw [Walk.run_check_bind]
      rfl
  | int64 =>
      rw [convertScalar, walkScalar, Walk.run_check]
      rfl
  | float32 =>
      rw [convertScalar, walkScalar, Walk.run_check_bind]
      apply bind_congr
      intro numeric
      rw [Walk.run_check_bind]
      rfl
  | float64 =>
      rw [convertScalar, walkScalar, Walk.run_check_bind]
      rfl
  | string =>
      cases value with
      | text text =>
          rw [convertScalar, walkScalar, walkText_run]
      | _ => rfl
  | bytes =>
      rw [convertScalar, walkScalar, Walk.run_check_bind]
      apply bind_congr
      intro content
      rw [Walk.run_take_bind, Step.execute, bind_assoc]
      apply bind_congr
      intro _
      rw [pure_bind, Walk.run_take_bind, Step.execute]
      rfl

theorem convertItems_eq_run
    {convertItem : Value → String → Snapshot → Except Failure (Value × Snapshot)}
    {walkItem : Value → String → ConversionWalk Value}
    (hitem : ∀ item path snapshot,
      convertItem item path snapshot = (walkItem item path).run Step.execute snapshot)
    (path : String) (items : List Value) : ∀ (index : Nat) (snapshot : Snapshot),
      convertItems convertItem path index items snapshot =
        (walkItems walkItem path index items).run Step.execute snapshot := by
  induction items with
  | nil =>
      intro index snapshot
      rfl
  | cons item items ih =>
      intro index snapshot
      rw [convertItems, walkItems, Walk.run_check_bind]
      apply bind_congr
      intro _
      rw [hitem, Walk.run_bind]
      apply bind_congr
      intro converted
      dsimp only
      rw [ih, Walk.run_bind]
      rfl

/-- Every node is entered in the same way: it counts as visited, and its value is no `undefined`. -/
theorem entered_eq_run {value : Value} {path expected : String} {depth : Nat} {snapshot : Snapshot}
    {rest : Snapshot → Except Failure (Value × Snapshot)} {next : ConversionWalk Value}
    (hrest : ∀ visited, rest visited = next.run Step.execute visited) :
    (do
      let visited ← snapshot.visit path depth
      require (¬ value.isUndefined) (typeError path expected "undefined")
      rest visited) =
    Walk.run Step.execute (do
      .take (.visit path depth)
      .check (require (¬ value.isUndefined) (typeError path expected "undefined"))
      next) snapshot := by
  rw [Walk.run_take_bind]
  apply bind_congr
  intro visited
  rw [Walk.run_check_bind]
  apply bind_congr
  intro _
  exact hrest visited

mutual

theorem convert_eq_run (direction : ConversionDirection) : ∀ (node : ConversionNode) (value : Value)
    (path : String) (depth : Nat) (snapshot : Snapshot),
      convert direction node value path depth snapshot =
        (walk direction node value path depth).run Step.execute snapshot
  | .void, value, path, depth, snapshot => by
      rw [convert, walk]
      apply entered_eq_run
      intro visited
      exact Walk.run_check_congr fun _ => rfl
  | .nullable element, value, path, depth, snapshot => by
      rw [convert, walk]
      apply entered_eq_run
      intro visited
      by_cases hnull : value.isNull = true
      · simp only [if_pos hnull]
        rfl
      · simp only [if_neg hnull]
        exact convert_eq_run direction element value path (depth + 1) visited
  | .scalar kind, value, path, depth, snapshot => by
      rw [convert, walk]
      apply entered_eq_run
      intro visited
      exact Walk.run_check_congr fun _ => convertScalar_eq_run kind value direction path visited
  | .enum typeId publicName constants, value, path, depth, snapshot => by
      rw [convert, walk]
      apply entered_eq_run
      intro visited
      apply Walk.run_check_congr
      intro _
      rw [Walk.run_check_bind]
      cases value with
      | text text =>
          dsimp only [Value.text?]
          rw [demand_some_bind]
          exact Walk.run_check_congr fun _ => (walkText_run text path visited).symm
      | _ => rfl
  | .object typeId publicName, value, path, depth, snapshot => by
      rw [convert, walk]
      apply entered_eq_run
      intro visited
      apply Walk.run_check_congr
      intro _
      rw [Walk.run_check_bind]
      cases value with
      | object form own inherited =>
          cases form with
          | nativeObject token =>
              dsimp only [Value.token?]
              rw [demand_some_bind]
              apply Walk.run_check_congr
              intro _
              rw [Walk.run_take_bind]
              apply bind_congr
              intro _
              rfl
          | _ => rfl
      | _ => rfl
  | .array element, value, path, depth, snapshot => by
      rw [convert, walk]
      apply entered_eq_run
      intro visited
      apply Walk.run_check_congr
      intro _
      apply Walk.run_check_congr
      intro items
      rw [Walk.run_take_bind, Step.execute, bind_assoc]
      apply bind_congr
      intro _
      rw [pure_bind]
      rw [Walk.run_take_bind]
      apply bind_congr
      intro reserved
      rw [Walk.run_bind, convertItems_eq_run fun item itemPath snapshot =>
        convert_eq_run direction element item itemPath (depth + 1) snapshot]
      rfl
  | .value typeId publicName fields, value, path, depth, snapshot => by
      rw [convert, walk]
      apply entered_eq_run
      intro visited
      apply Walk.run_check_congr
      intro _
      rw [Walk.run_check_bind]
      cases value with
      | object form own inherited =>
          cases form with
          | mapping =>
              dsimp only [Value.mapping?]
              rw [demand_some_bind]
              rw [Walk.run_take_bind]
              apply bind_congr
              intro reserved
              rw [Walk.run_bind, convertFields_eq_run direction own path depth fields]
              rfl
          | _ => rfl
      | _ => rfl

theorem convertFields_eq_run (direction : ConversionDirection) (own : List (String × Value))
    (path : String) (depth : Nat) : ∀ (fields : List (String × ConversionNode))
    (result : List (String × Value)) (snapshot : Snapshot),
      convertFields direction own path depth fields result snapshot =
        (walkFields direction own path depth fields result).run Step.execute snapshot
  | [], result, snapshot => by
      rw [convertFields, walkFields, Walk.run_pure]
  | (name, node) :: fields, result, snapshot => by
      rw [convertFields, walkFields, Walk.run_check_bind]
      apply bind_congr
      intro raw
      rw [Walk.run_bind, convert_eq_run direction node]
      apply bind_congr
      intro converted
      exact convertFields_eq_run direction own path depth fields _ _

end

/-! ### What the steps of a walk amount to -/

namespace Measure

theorem ext_of {left right : Measure} (hnodes : left.nodes = right.nodes)
    (hheight : left.height = right.height) (harrays : left.arrays = right.arrays)
    (hstrings : left.strings = right.strings) (hbuffers : left.buffers = right.buffers)
    (hbytes : left.bytes = right.bytes) (hreservations : left.reservations = right.reservations)
    (hobjects : left.objects = right.objects) : left = right := by
  cases left
  cases right
  simp only at hnodes hheight harrays hstrings hbuffers hbytes hreservations hobjects
  subst hnodes hheight harrays hstrings hbuffers hbytes hreservations hobjects
  rfl

theorem beside_assoc (first next last : Measure) :
    (first.beside next).beside last = first.beside (next.beside last) :=
  ext_of (Nat.add_assoc ..) (Nat.max_assoc ..) (List.append_assoc ..) (List.append_assoc ..)
    (List.append_assoc ..) (Nat.add_assoc ..) (Nat.add_assoc ..) (List.append_assoc ..)

@[simp] theorem nil_beside (measure : Measure) : Measure.beside {} measure = measure :=
  ext_of (Nat.zero_add _) (Nat.zero_max _) rfl rfl rfl (Nat.zero_add _) (Nat.zero_add _) rfl

@[simp] theorem beside_nil (measure : Measure) : measure.beside {} = measure :=
  ext_of rfl (Nat.max_zero _) (List.append_nil _) (List.append_nil _) (List.append_nil _) rfl rfl
    (List.append_nil _)

/-- A level and nothing on it. -/
def level (depth : Nat) : Measure where
  height := depth

/-- The same at a depth. -/
def raised (depth : Nat) (measure : Measure) : Measure :=
  { measure with height := depth + measure.height }

theorem raised_beside (depth : Nat) (first next : Measure) :
    (first.beside next).raised depth = (first.raised depth).beside (next.raised depth) :=
  ext_of rfl (Nat.add_max_add_left ..).symm rfl rfl rfl rfl rfl rfl

theorem raised_zero (measure : Measure) : measure.raised 0 = measure :=
  ext_of rfl (Nat.zero_add _) rfl rfl rfl rfl rfl rfl

end Measure

/-- What one step amounts to; the height of a visit is its depth. -/
def Step.tally : Step → Measure
  | .visit _ depth => { nodes := 1, height := depth }
  | .checkStringBytes length _ => { strings := [length] }
  | .checkBuffer length _ => { buffers := [length] }
  | .checkArray length _ => { arrays := [length] }
  | .reserve amount _ => .room amount
  | .retain token => { objects := [token] }

def tally (steps : List Step) : Measure :=
  .sum (steps.map Step.tally)

theorem tally_append (first next : List Step) :
    tally (first ++ next) = (tally first).beside (tally next) := by
  induction first with
  | nil => exact (Measure.nil_beside _).symm
  | cons step first ih =>
      change step.tally.beside (tally (first ++ next)) = (step.tally.beside (tally first)).beside _
      rw [ih, Measure.beside_assoc]

/-- What a walk below a depth gives, and what its steps amount to. -/
structure Tallied {Output : Type} (depth : Nat) (walk : ConversionWalk Output) (measure : Measure)
    (result : Except Failure Output) : Prop where
  result : walk.result = result
  steps : (tally walk.steps).beside (.level depth) = measure.raised depth

namespace Tallied

variable {Output Result : Type} {depth : Nat} {first : ConversionWalk Output}
  {next : Output → ConversionWalk Result} {measure below : Measure} {output : Output}
  {result : Except Failure Result} {failure : Failure}

theorem check (result : Except Failure Output) : Tallied depth (.check result) {} result where
  result := rfl
  steps := Measure.nil_beside _

theorem pure (output : Output) : Tallied depth (pure output) {} (.ok output) where
  result := rfl
  steps := Measure.nil_beside _

/-- A step that is no visit. -/
theorem take (step : Step) (hheight : step.tally.height = 0) :
    Tallied depth (.take step) step.tally (.ok ()) where
  result := rfl
  steps := by
    change (step.tally.beside {}).beside (.level depth) = _
    rw [Measure.beside_nil]
    refine Measure.ext_of rfl ?_ (List.append_nil _) (List.append_nil _) (List.append_nil _) rfl rfl
      (List.append_nil _)
    change max step.tally.height depth = depth + step.tally.height
    omega

theorem bind (hfirst : Tallied depth first measure (.ok output))
    (hnext : Tallied depth (next output) below result) :
    Tallied depth (first >>= next) (measure.beside below) result where
  result := by
    rw [Walk.result_bind, hfirst.result]
    exact hnext.result
  steps := by
    have hlevel : (Measure.level depth).beside (.level depth) = .level depth :=
      Measure.ext_of rfl (Nat.max_self depth) rfl rfl rfl rfl rfl rfl
    have hcommutes : ∀ measure : Measure,
        (Measure.level depth).beside measure = measure.beside (.level depth) := fun measure =>
      Measure.ext_of (Nat.add_comm ..) (Nat.max_comm ..) (List.append_nil _).symm
        (List.append_nil _).symm (List.append_nil _).symm (Nat.add_comm ..) (Nat.add_comm ..)
        (List.append_nil _).symm
    rw [Walk.steps_bind hfirst.result, tally_append, Measure.raised_beside, ← hfirst.steps,
      ← hnext.steps, Measure.beside_assoc, Measure.beside_assoc,
      ← Measure.beside_assoc (.level depth), hcommutes (tally _), Measure.beside_assoc, hlevel]

theorem bind_error (hfirst : Tallied depth first measure (.error failure)) :
    Tallied depth (first >>= next) measure (.error failure) where
  result := by
    rw [Walk.result_bind, hfirst.result]
    rfl
  steps := by
    have hsteps : (first >>= next).steps = first.steps := by
      rw [Walk.bind_eq, Walk.andThen, hfirst.result]
    rw [hsteps, hfirst.steps]

theorem map {Mapped : Type} (hfirst : Tallied depth first measure (.ok output))
    (shape : Output → Mapped) :
    Tallied depth (first >>= fun output => Pure.pure (shape output)) measure
      (.ok (shape output)) := by
  have hbind : Tallied depth (first >>= fun output => Pure.pure (shape output))
      (measure.beside {}) (.ok (shape output)) := hfirst.bind (.pure (shape output))
  rwa [Measure.beside_nil] at hbind

theorem check_bind {checked : Except Failure Output} (hchecked : checked = .ok output)
    (hnext : Tallied depth (next output) measure result) :
    Tallied depth (.check checked >>= next) measure result := by
  have hcheck : Tallied depth (.check checked) {} (.ok output) := hchecked ▸ check checked
  have hbind := hcheck.bind hnext
  rwa [Measure.nil_beside] at hbind

theorem require {condition : Prop} [Decidable condition] {next : Unit → ConversionWalk Result}
    (hcondition : condition) (hnext : Tallied depth (next ()) measure result) :
    Tallied depth (.check (Lib.require condition failure) >>= next) measure result :=
  check_bind (require_eq_ok.mpr hcondition) hnext

theorem check_error {checked : Except Failure Output} (hchecked : checked = .error failure) :
    Tallied depth (.check checked >>= next) {} (.error failure) := by
  have hcheck : Tallied depth (.check checked) {} (.error failure) := hchecked ▸ check checked
  exact hcheck.bind_error

/-- A visit, and what lies below the node. -/
theorem visit {path : String} {next : Unit → ConversionWalk Result}
    (hnext : Tallied (depth + 1) (next ()) below result) :
    Tallied depth (.take (.visit path (depth + 1)) >>= next) below.under result where
  result := by
    rw [Walk.result_bind, Walk.result_take]
    exact hnext.result
  steps := by
    have hvisit : tally [Step.visit path (depth + 1)] = { nodes := 1, height := depth + 1 } :=
      Measure.beside_nil _
    have hlevels : ∀ measure : Measure,
        (({ nodes := 1, height := depth + 1 } : Measure).beside measure).beside (.level depth) =
          Measure.beside { nodes := 1, height := depth + 1 }
            (measure.beside (.level (depth + 1))) := fun measure =>
      Measure.ext_of (Nat.add_assoc ..)
        (by
          change max (max (depth + 1) measure.height) depth =
            max (depth + 1) (max measure.height (depth + 1))
          omega)
        (List.append_assoc ..) (List.append_assoc ..) (List.append_assoc ..) (Nat.add_assoc ..)
        (Nat.add_assoc ..) (List.append_assoc ..)
    rw [Walk.steps_bind (Walk.result_take _), tally_append, Walk.steps_take, hvisit, hlevels,
      hnext.steps]
    refine Measure.ext_of (Nat.add_comm ..) ?_ rfl rfl rfl (Nat.zero_add _) (Nat.zero_add _) rfl
    change max (depth + 1) (depth + 1 + below.height) = depth + (below.height + 1)
    omega

end Tallied

/-! ### Inhabitants are walked to the end -/

theorem tallied_walkText {text : Text} {characters : List Char} (path : String) (depth : Nat)
    (htext : text.wellFormed? = some characters) :
    Tallied depth (walkText text path) (.ofText text) (.ok (.text text)) := by
  have hsize : text.utf8Size = some (utf8Length characters) := by
    rw [Text.utf8Size, htext]
    rfl
  have hencoded : encodedSize text = .ok (utf8Length characters) := by
    rw [encodedSize, hsize]
    rfl
  have hmeasure : Measure.ofText text =
      Measure.beside { strings := [utf8Length characters] }
        ((Measure.room (utf8Length characters)).beside {}) := by
    rw [Measure.beside_nil, Measure.ofText, hsize]
    exact Measure.ext_of rfl rfl rfl rfl rfl (Nat.zero_add _).symm rfl rfl
  rw [hmeasure, walkText]
  apply Tallied.check_bind hencoded
  apply (Tallied.take (.checkStringBytes (utf8Length characters) path) rfl).bind
  apply (Tallied.take (.reserve (utf8Length characters) path) rfl).bind
  exact Tallied.pure _

theorem toDouble_eq_ok {value : Value} {failure overflow : Failure} {numeric : Double} :
    toDouble value failure overflow = .ok numeric ↔ number? value = some numeric := by
  cases value with
  | _ => simp [toDouble, number?]

theorem measureScalar_of_number {kind : ScalarKind} {value : Value} {numeric : Double}
    (hnumeric : number? value = some numeric) : measureScalar kind value = {} := by
  cases value with
  | int integer => cases kind <;> rfl
  | float double => cases kind <;> rfl
  | _ => cases hnumeric

theorem tallied_walkScalar {kind : ScalarKind} {value : Value} {direction : ConversionDirection}
    (path : String) (depth : Nat) (hinhabits : InhabitsScalar direction kind value) :
    ∃ converted, Tallied depth (walkScalar kind value direction path) (measureScalar kind value)
      (.ok converted) := by
  cases kind with
  | bool =>
      obtain ⟨flag, rfl⟩ := hinhabits
      exact ⟨_, .pure _⟩
  | int32 =>
      obtain ⟨numeric, integer, hnumeric, hinteger, hrange⟩ := hinhabits
      rw [measureScalar_of_number hnumeric, walkScalar]
      refine ⟨.int integer, ?_⟩
      apply Tallied.check_bind (toDouble_eq_ok.mpr hnumeric)
      apply Tallied.check_bind (demand_eq_ok.mpr hinteger)
      apply Tallied.require hrange
      exact Tallied.pure _
  | int64 =>
      cases direction with
      | input =>
          obtain ⟨integer, rfl, hrange⟩ := hinhabits
          refine ⟨.int integer, ?_⟩
          have hconverted : convertInt64 (.bigint integer) .input path = .ok (.int integer) :=
            bind_eq_ok.mpr ⟨(), require_eq_ok.mpr hrange, rfl⟩
          rw [walkScalar, hconverted]
          exact Tallied.check _
      | output =>
          obtain ⟨integer, rfl, hrange⟩ := hinhabits
          refine ⟨.bigint integer, ?_⟩
          have hconverted : convertInt64 (.int integer) .output path = .ok (.bigint integer) :=
            bind_eq_ok.mpr ⟨(), require_eq_ok.mpr hrange, rfl⟩
          rw [walkScalar, hconverted]
          exact Tallied.check _
  | float32 =>
      obtain ⟨numeric, hnumeric, hrange⟩ := hinhabits
      rw [measureScalar_of_number hnumeric, walkScalar]
      refine ⟨.float numeric, ?_⟩
      apply Tallied.check_bind (toDouble_eq_ok.mpr hnumeric)
      apply Tallied.require hrange
      exact Tallied.pure _
  | float64 =>
      obtain ⟨numeric, hnumeric⟩ := hinhabits
      rw [measureScalar_of_number hnumeric, walkScalar]
      exact ⟨_, .check_bind (toDouble_eq_ok.mpr hnumeric) (.pure _)⟩
  | string =>
      obtain ⟨text, characters, rfl, htext⟩ := hinhabits
      exact ⟨_, tallied_walkText path depth htext⟩
  | bytes =>
      have hwalk : ∀ content : List UInt8, rawBytes value direction path = .ok content →
          Tallied depth (walkScalar .bytes value direction path) (.ofBuffer content.length)
            (.ok (copiedBytes content direction)) := by
        intro content hcontent
        have hmeasure : Measure.ofBuffer content.length =
            Measure.beside { buffers := [content.length] }
              ((Measure.room content.length).beside {}) := by
          rw [Measure.beside_nil]
          exact Measure.ext_of rfl rfl rfl rfl rfl (Nat.zero_add _).symm rfl rfl
        rw [hmeasure, walkScalar]
        apply Tallied.check_bind hcontent
        apply (Tallied.take (.checkBuffer content.length path) rfl).bind
        apply (Tallied.take (.reserve content.length path) rfl).bind
        exact Tallied.pure _
      cases direction with
      | input =>
          obtain ⟨view, own, inherited, rfl⟩ := hinhabits
          exact ⟨_, hwalk _ rfl⟩
      | output =>
          obtain ⟨kind, content, rfl⟩ := hinhabits
          exact ⟨_, hwalk _ rfl⟩

/-- What a type says of a walk along it. -/
def Walked (direction : ConversionDirection) (node : ConversionNode) : Prop :=
  ∀ value : Value, Inhabits direction node value → ∀ (path : String) (depth : Nat),
    ∃ converted, Tallied depth (walk direction node value path (depth + 1))
      (measure direction node value) (.ok converted)

theorem tallied_walkItems {direction : ConversionDirection} {element : ConversionNode}
    (helement : Walked direction element) (path : String) (depth : Nat) {items : List Value}
    (hitems : ∀ item ∈ items, item ≠ .arrayHole ∧ Inhabits direction element item) :
    ∀ index : Nat, ∃ converted,
      Tallied depth
        (walkItems (fun item itemPath => walk direction element item itemPath (depth + 1)) path
          index items)
        (.sum (items.map fun item => measure direction element item)) (.ok converted) := by
  induction items with
  | nil =>
      intro index
      exact ⟨[], .pure _⟩
  | cons item items ih =>
      intro index
      obtain ⟨⟨hhole, hitem⟩, hrest⟩ := List.forall_mem_cons.mp hitems
      obtain ⟨converted, hconverted⟩ := helement item hitem (indexPath path index) depth
      obtain ⟨rest, hwalk⟩ := ih hrest (index + 1)
      have hdense : ¬ item.isArrayHole := by
        cases item <;> simp_all [Value.isArrayHole]
      refine ⟨converted :: rest, ?_⟩
      rw [walkItems]
      apply Tallied.require hdense
      apply hconverted.bind
      exact hwalk.map (converted :: ·)

theorem InhabitsScalar.given {direction : ConversionDirection} {kind : ScalarKind} {value : Value}
    (hinhabits : InhabitsScalar direction kind value) :
    ¬ value.isUndefined = true ∧ ¬ value.isNull = true := by
  cases value with
  | undefined => cases kind <;> cases direction <;> simp [InhabitsScalar, number?] at hinhabits
  | null => cases kind <;> cases direction <;> simp [InhabitsScalar, number?] at hinhabits
  | _ => simp [Value.isUndefined, Value.isNull]

theorem Inhabits.defined {direction : ConversionDirection} {value : Value} :
    ∀ {node : ConversionNode}, Inhabits direction node value → ¬ value.isUndefined = true
  | .void, ⟨_, hvalue⟩ => by simp [hvalue, Value.isUndefined]
  | .nullable _, .inl hvalue => by simp [hvalue, Value.isUndefined]
  | .nullable _, .inr helement => helement.defined
  | .scalar _, hscalar => InhabitsScalar.given hscalar |>.1
  | .enum _ _ _, ⟨_, _, hvalue⟩ => by simp [hvalue, Value.isUndefined]
  | .object _ _, ⟨_, _, _, hvalue, _⟩ => by simp [hvalue, Value.isUndefined]
  | .array _, ⟨_, hitems, _⟩ => by
      cases value with
      | undefined => cases direction <;> cases hitems
      | _ => simp [Value.isUndefined]
  | .value _ _ _, ⟨_, _, hvalue, _⟩ => by simp [hvalue, Value.isUndefined]

theorem Measure.ofArray_eq (length : Nat) : Measure.ofArray length =
    Measure.beside { arrays := [length] } (.room (24 + length * pointerSize)) :=
  Measure.ext_of rfl rfl rfl rfl rfl (Nat.zero_add _).symm rfl rfl

theorem not_null_of_arrayItems? {direction : ConversionDirection} {value : Value}
    {items : List Value} (hitems : arrayItems? direction value = some items) :
    ¬ value.isUndefined = true ∧ ¬ value.isNull = true := by
  cases value with
  | undefined => cases direction <;> cases hitems
  | null => cases direction <;> cases hitems
  | _ => simp [Value.isUndefined, Value.isNull]

mutual

theorem walked (direction : ConversionDirection) : ∀ node : ConversionNode, Walked direction node
  | .void => by
      rintro value ⟨houtput, rfl⟩ path depth
      refine ⟨.null, ?_⟩
      rw [walk, measure]
      apply Tallied.visit
      apply Tallied.require (by simp [Value.isUndefined])
      apply Tallied.require ⟨houtput, rfl⟩
      exact Tallied.pure _
  | .nullable element => by
      intro value hinhabits path depth
      have hdefined := hinhabits.defined
      by_cases hnull : value.isNull = true
      · refine ⟨.null, ?_⟩
        rw [walk, measure]
        simp only [if_pos hnull]
        apply Tallied.visit
        apply Tallied.require hdefined
        exact Tallied.pure _
      · have helement : Inhabits direction element value := by
          rcases hinhabits with rfl | helement
          · exact absurd rfl hnull
          · exact helement
        obtain ⟨converted, hwalk⟩ := walked direction element value helement path (depth + 1)
        refine ⟨converted, ?_⟩
        rw [walk, measure]
        simp only [if_neg hnull]
        apply Tallied.visit
        apply Tallied.require hdefined
        exact hwalk
  | .scalar kind => by
      intro value hinhabits path depth
      have hgiven := InhabitsScalar.given hinhabits
      obtain ⟨converted, hwalk⟩ := tallied_walkScalar path (depth + 1) hinhabits
      refine ⟨converted, ?_⟩
      rw [walk, measure]
      apply Tallied.visit
      apply Tallied.require hgiven.1
      apply Tallied.require hgiven.2
      exact hwalk
  | .enum typeId publicName constants => by
      rintro value ⟨constant, hconstant, rfl⟩ path depth
      refine ⟨.text (.ofString constant), ?_⟩
      rw [walk, measure]
      apply Tallied.visit
      apply Tallied.require (by simp [Value.isUndefined])
      apply Tallied.require (by simp [Value.isNull])
      apply Tallied.check_bind (demand_eq_ok.mpr rfl)
      apply Tallied.require (List.mem_map_of_mem hconstant)
      exact tallied_walkText path (depth + 1) (Text.wellFormed?_ofString constant)
  | .object typeId publicName => by
      rintro value ⟨token, own, inherited, rfl, htype⟩ path depth
      have hmeasure : Measure.ofObject token =
          (Measure.room pointerSize).beside { objects := [token] } := rfl
      refine ⟨.object (.nativeObject token) own inherited, ?_⟩
      rw [walk, measure, hmeasure]
      apply Tallied.visit
      apply Tallied.require (by simp [Value.isUndefined])
      apply Tallied.require (by simp [Value.isNull])
      apply Tallied.check_bind (demand_eq_ok.mpr rfl)
      apply Tallied.require htype
      apply (Tallied.take (.reserve pointerSize path) rfl).bind
      exact (Tallied.take (.retain token) rfl).map _
  | .array element => by
      rintro value ⟨items, hitems, hinhabit⟩ path depth
      have hgiven := not_null_of_arrayItems? hitems
      obtain ⟨converted, hwalk⟩ :=
        tallied_walkItems (walked direction element) path (depth + 1) hinhabit 0
      refine ⟨arrayOf direction converted, ?_⟩
      rw [walk, measure, hitems]
      dsimp only
      rw [Measure.ofArray_eq, Measure.beside_assoc]
      apply Tallied.visit
      apply Tallied.require hgiven.1
      apply Tallied.require hgiven.2
      apply Tallied.check_bind (demand_eq_ok.mpr rfl)
      apply (Tallied.take (.checkArray items.length path) rfl).bind
      apply (Tallied.take (.reserve (24 + items.length * pointerSize) path) rfl).bind
      exact hwalk.map _
  | .value typeId publicName fields => by
      rintro value ⟨own, inherited, rfl, hfields⟩ path depth
      obtain ⟨converted, hwalk⟩ := walkedFields direction own path (depth + 1) fields [] hfields
      refine ⟨.object .mapping converted [], ?_⟩
      rw [walk, measure]
      apply Tallied.visit
      apply Tallied.require (by simp [Value.isUndefined])
      apply Tallied.require (by simp [Value.isNull])
      apply Tallied.check_bind (demand_eq_ok.mpr rfl)
      apply (Tallied.take (.reserve (32 + fields.length * 16) path) rfl).bind
      exact hwalk.map _

theorem walkedFields (direction : ConversionDirection) (own : List (String × Value)) (path : String)
    (depth : Nat) : ∀ (fields : List (String × ConversionNode)) (result : List (String × Value)),
      InhabitsFields direction own fields →
        ∃ converted, Tallied depth (walkFields direction own path depth fields result)
          (measureFields direction own fields) (.ok converted)
  | [], result, _ => ⟨result, by
      rw [walkFields, measureFields]
      exact .pure result⟩
  | (name, node) :: fields, result, hinhabits => by
      obtain ⟨⟨raw, hraw, hnode⟩, hfields⟩ := hinhabits
      obtain ⟨converted, hconverted⟩ := walked direction node raw hnode (fieldPath path name) depth
      obtain ⟨rest, hwalk⟩ := walkedFields direction own path depth fields
        (assign result name converted) hfields
      refine ⟨rest, ?_⟩
      rw [walkFields, measureFields, hraw]
      apply Tallied.check_bind (demand_eq_ok.mpr rfl)
      exact hconverted.bind hwalk

end

/-! ### What is walked to the end inhabits the type -/

theorem Value.text?_eq_some {value : Value} {text : Text} :
    value.text? = some text ↔ value = .text text := by
  cases value <;> simp [Value.text?]

theorem Value.token?_eq_some {value : Value} {token : NativeObjectToken} :
    value.token? = some token ↔
      ∃ own inherited, value = .object (.nativeObject token) own inherited := by
  cases value with
  | object form own inherited => cases form <;> simp [Value.token?]
  | _ => simp [Value.token?]

theorem Value.mapping?_eq_some {value : Value} {own : List (String × Value)} :
    value.mapping? = some own ↔ ∃ inherited, value = .object .mapping own inherited := by
  cases value with
  | object form own inherited => cases form <;> simp [Value.mapping?]
  | _ => simp [Value.mapping?]

theorem result_bind_eq_ok {Output Result : Type} {first : ConversionWalk Output}
    {next : Output → ConversionWalk Result} {result : Result} :
    (first >>= next).result = .ok result ↔
      ∃ output, first.result = .ok output ∧ (next output).result = .ok result := by
  rw [Walk.result_bind, bind_eq_ok]

theorem inhabitsScalar_of_walkScalar {kind : ScalarKind} {value converted : Value}
    {direction : ConversionDirection} {path : String}
    (hok : (walkScalar kind value direction path).result = .ok converted) :
    InhabitsScalar direction kind value := by
  cases kind with
  | bool =>
      cases value with
      | bool flag => exact ⟨flag, rfl⟩
      | _ => cases hok
  | int32 =>
      obtain ⟨numeric, hnumeric, hok⟩ := result_bind_eq_ok.mp hok
      obtain ⟨integer, hinteger, hok⟩ := result_bind_eq_ok.mp hok
      obtain ⟨_, hrange, _⟩ := result_bind_eq_ok.mp hok
      exact ⟨numeric, integer, toDouble_eq_ok.mp hnumeric, demand_eq_ok.mp hinteger,
        require_eq_ok.mp hrange⟩
  | int64 =>
      cases direction with
      | input =>
          cases value with
          | bigint integer =>
              obtain ⟨_, hrange, _⟩ := bind_eq_ok.mp hok
              exact ⟨integer, rfl, require_eq_ok.mp hrange⟩
          | _ => cases hok
      | output =>
          cases value with
          | int integer =>
              obtain ⟨_, hrange, _⟩ := bind_eq_ok.mp hok
              exact ⟨integer, rfl, require_eq_ok.mp hrange⟩
          | _ => cases hok
  | float32 =>
      obtain ⟨numeric, hnumeric, hok⟩ := result_bind_eq_ok.mp hok
      obtain ⟨_, hrange, _⟩ := result_bind_eq_ok.mp hok
      exact ⟨numeric, toDouble_eq_ok.mp hnumeric, require_eq_ok.mp hrange⟩
  | float64 =>
      obtain ⟨numeric, hnumeric, _⟩ := result_bind_eq_ok.mp hok
      exact ⟨numeric, toDouble_eq_ok.mp hnumeric⟩
  | string =>
      cases value with
      | text text =>
          obtain ⟨length, hlength, _⟩ := result_bind_eq_ok.mp hok
          obtain ⟨characters, htext, _⟩ := Option.map_eq_some_iff.mp (demand_eq_ok.mp hlength)
          exact ⟨text, characters, rfl, htext⟩
      | _ => cases hok
  | bytes =>
      obtain ⟨content, hcontent, _⟩ := result_bind_eq_ok.mp hok
      cases direction with
      | input =>
          cases value with
          | object form own inherited =>
              cases form with
              | uint8Array view => exact ⟨view, own, inherited, rfl⟩
              | _ => cases hcontent
          | _ => cases hcontent
      | output =>
          cases value with
          | buffer kind content => exact ⟨kind, content, rfl⟩
          | _ => cases hcontent

theorem inhabit_of_walkItems {direction : ConversionDirection} {element : ConversionNode}
    {depth : Nat} {path : String} {items : List Value}
    (helement : ∀ item ∈ items, ∀ {itemPath : String} {converted : Value},
      (walk direction element item itemPath depth).result = .ok converted →
        Inhabits direction element item) :
    ∀ {index : Nat} {converted : List Value},
      (walkItems (fun item itemPath => walk direction element item itemPath depth) path index
        items).result = .ok converted →
      ∀ item ∈ items, item ≠ .arrayHole ∧ Inhabits direction element item := by
  induction items with
  | nil =>
      intro index converted _ item hitem
      cases hitem
  | cons item items ih =>
      intro index converted hok
      obtain ⟨hitem, hitems⟩ := List.forall_mem_cons.mp helement
      obtain ⟨_, hdense, hok⟩ := result_bind_eq_ok.mp hok
      obtain ⟨first, hfirst, hok⟩ := result_bind_eq_ok.mp hok
      obtain ⟨rest, hrest, _⟩ := result_bind_eq_ok.mp hok
      have hitem_dense : ¬ item.isArrayHole = true := require_eq_ok.mp hdense
      have hfirst_dense : item ≠ .arrayHole := by
        rintro rfl
        exact hitem_dense rfl
      exact List.forall_mem_cons.mpr ⟨⟨hfirst_dense, hitem hfirst⟩, ih hitems hrest⟩

mutual

theorem inhabits_of_walk {direction : ConversionDirection} : ∀ (node : ConversionNode)
    {value converted : Value} {path : String} {depth : Nat},
      (walk direction node value path depth).result = .ok converted → Inhabits direction node value
  | .void, value, converted, path, depth, hok => by
      obtain ⟨_, _, hok⟩ := result_bind_eq_ok.mp hok
      obtain ⟨_, _, hok⟩ := result_bind_eq_ok.mp hok
      obtain ⟨_, hvoid, _⟩ := result_bind_eq_ok.mp hok
      obtain ⟨houtput, hnull⟩ := require_eq_ok.mp hvoid
      cases value with
      | null => exact ⟨houtput, rfl⟩
      | _ => cases hnull
  | .nullable element, value, converted, path, depth, hok => by
      obtain ⟨_, _, hok⟩ := result_bind_eq_ok.mp hok
      obtain ⟨_, _, hok⟩ := result_bind_eq_ok.mp hok
      by_cases hnull : value.isNull = true
      · cases value with
        | null => exact .inl rfl
        | _ => cases hnull
      · simp only [if_neg hnull] at hok
        exact .inr (inhabits_of_walk element hok)
  | .scalar kind, value, converted, path, depth, hok => by
      obtain ⟨_, _, hok⟩ := result_bind_eq_ok.mp hok
      obtain ⟨_, _, hok⟩ := result_bind_eq_ok.mp hok
      obtain ⟨_, _, hok⟩ := result_bind_eq_ok.mp hok
      exact inhabitsScalar_of_walkScalar hok
  | .enum typeId publicName constants, value, converted, path, depth, hok => by
      obtain ⟨_, _, hok⟩ := result_bind_eq_ok.mp hok
      obtain ⟨_, _, hok⟩ := result_bind_eq_ok.mp hok
      obtain ⟨_, _, hok⟩ := result_bind_eq_ok.mp hok
      obtain ⟨text, htext, hok⟩ := result_bind_eq_ok.mp hok
      obtain ⟨_, hconstant, _⟩ := result_bind_eq_ok.mp hok
      obtain ⟨constant, hmem, rfl⟩ := List.mem_map.mp (require_eq_ok.mp hconstant)
      exact ⟨constant, hmem, Value.text?_eq_some.mp (demand_eq_ok.mp htext)⟩
  | .object typeId publicName, value, converted, path, depth, hok => by
      obtain ⟨_, _, hok⟩ := result_bind_eq_ok.mp hok
      obtain ⟨_, _, hok⟩ := result_bind_eq_ok.mp hok
      obtain ⟨_, _, hok⟩ := result_bind_eq_ok.mp hok
      obtain ⟨token, htoken, hok⟩ := result_bind_eq_ok.mp hok
      obtain ⟨_, htype, _⟩ := result_bind_eq_ok.mp hok
      obtain ⟨own, inherited, rfl⟩ := Value.token?_eq_some.mp (demand_eq_ok.mp htoken)
      exact ⟨token, own, inherited, rfl, require_eq_ok.mp htype⟩
  | .array element, value, converted, path, depth, hok => by
      obtain ⟨_, _, hok⟩ := result_bind_eq_ok.mp hok
      obtain ⟨_, _, hok⟩ := result_bind_eq_ok.mp hok
      obtain ⟨_, _, hok⟩ := result_bind_eq_ok.mp hok
      obtain ⟨items, hitems, hok⟩ := result_bind_eq_ok.mp hok
      obtain ⟨_, _, hok⟩ := result_bind_eq_ok.mp hok
      obtain ⟨_, _, hok⟩ := result_bind_eq_ok.mp hok
      obtain ⟨rest, hrest, _⟩ := result_bind_eq_ok.mp hok
      exact ⟨items, demand_eq_ok.mp hitems,
        inhabit_of_walkItems (fun item _ _ _ hitem => inhabits_of_walk element hitem) hrest⟩
  | .value typeId publicName fields, value, converted, path, depth, hok => by
      obtain ⟨_, _, hok⟩ := result_bind_eq_ok.mp hok
      obtain ⟨_, _, hok⟩ := result_bind_eq_ok.mp hok
      obtain ⟨_, _, hok⟩ := result_bind_eq_ok.mp hok
      obtain ⟨own, hown, hok⟩ := result_bind_eq_ok.mp hok
      obtain ⟨_, _, hok⟩ := result_bind_eq_ok.mp hok
      obtain ⟨result, hresult, _⟩ := result_bind_eq_ok.mp hok
      obtain ⟨inherited, rfl⟩ := Value.mapping?_eq_some.mp (demand_eq_ok.mp hown)
      exact ⟨own, inherited, rfl, inhabits_of_walkFields fields hresult⟩

theorem inhabits_of_walkFields {direction : ConversionDirection} {own : List (String × Value)}
    {path : String} {depth : Nat} : ∀ (fields : List (String × ConversionNode))
    {result converted : List (String × Value)},
      (walkFields direction own path depth fields result).result = .ok converted →
        InhabitsFields direction own fields
  | [], result, converted, _ => trivial
  | (name, node) :: fields, result, converted, hok => by
      obtain ⟨raw, hraw, hok⟩ := result_bind_eq_ok.mp hok
      obtain ⟨first, hfirst, hok⟩ := result_bind_eq_ok.mp hok
      exact ⟨⟨raw, demand_eq_ok.mp hraw, inhabits_of_walk node hfirst⟩,
        inhabits_of_walkFields fields hok⟩

end

end SupernoteModule.Conversion
