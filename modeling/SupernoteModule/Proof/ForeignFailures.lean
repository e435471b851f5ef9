import SupernoteModule.Proof.ConversionWalk

/-!
# Foreign failures

A walk ends with a failure that is no conversion error exactly at a leaf that cannot be held, and
its steps up to there amount to what the value measures up to there.
-/

namespace SupernoteModule.Conversion

open SupernoteModule.Lib SupernoteModule.Semantic

/-! ### Leaves that cannot be held -/

theorem Unheld.given {kind : ScalarKind} {value : Value} (hunheld : Unheld kind value) :
    ¬ value.isUndefined = true ∧ ¬ value.isNull = true := by
  cases value with
  | undefined => cases kind <;> simp [Unheld] at hunheld
  | null => cases kind <;> simp [Unheld] at hunheld
  | _ => simp [Value.isUndefined, Value.isNull]

theorem Trips.defined {direction : ConversionDirection} {value : Value} :
    ∀ {node : ConversionNode} {reached : Measure}, Trips direction node value reached →
      ¬ value.isUndefined = true
  | .nullable _, _, ⟨_, _, helement, _⟩ => helement.defined
  | .scalar _, _, ⟨hunheld, _⟩ => hunheld.given.1
  | .array _, _, ⟨_, _, _, _, hitems, _⟩ => (not_null_of_arrayItems? hitems).1
  | .value _ _ _, _, ⟨_, _, _, hvalue, _⟩ => by simp [hvalue, Value.isUndefined]

theorem toDouble_of_unheld {integer : Int} (failure : Failure)
    (hdouble : Double.ofInt integer = none) :
    toDouble (.int integer) failure doubleOverflow = .error doubleOverflow := by
  rw [toDouble, hdouble]
  rfl

theorem tallied_of_unheld {kind : ScalarKind} {value : Value} {direction : ConversionDirection}
    (path : String) (depth : Nat) (hunheld : Unheld kind value) :
    ∃ failure : Failure, failure.Foreign ∧
      Tallied depth (walkScalar kind value direction path) {} (.error failure) := by
  cases kind with
  | int32 | float32 | float64 =>
      obtain ⟨integer, rfl, hdouble⟩ := hunheld
      exact ⟨doubleOverflow, .inr rfl, .check_error (toDouble_of_unheld _ hdouble)⟩
  | string =>
      obtain ⟨text, rfl, htext⟩ := hunheld
      have hencoded : encodedSize text =
          .error ⟨.encoding, "", "surrogates not allowed"⟩ := by
        rw [encodedSize, Text.utf8Size, htext]
        rfl
      exact ⟨_, .inl rfl, .check_error hencoded⟩
  | bool | int64 | bytes => exact hunheld.elim

theorem tallied_walkItems_of_trips {direction : ConversionDirection} {element : ConversionNode}
    (path : String) (depth : Nat) {before after : List Value} {item : Value} {below : Measure}
    (hbefore : ∀ other ∈ before, other ≠ .arrayHole ∧ Inhabits direction element other)
    (hdense : ¬ item.isArrayHole = true)
    (hitem : ∀ itemPath : String, ∃ failure : Failure, failure.Foreign ∧
      Tallied depth (walk direction element item itemPath (depth + 1)) below (.error failure)) :
    ∀ index : Nat, ∃ failure : Failure, failure.Foreign ∧
      Tallied depth
        (walkItems (fun item itemPath => walk direction element item itemPath (depth + 1)) path
          index (before ++ item :: after))
        ((Measure.sum (before.map fun other => measure direction element other)).beside below)
        (.error failure) := by
  induction before with
  | nil =>
      intro index
      obtain ⟨failure, hforeign, hwalk⟩ := hitem (indexPath path index)
      refine ⟨failure, hforeign, ?_⟩
      rw [List.map_nil, Measure.sum, Measure.nil_beside, List.nil_append, walkItems]
      apply Tallied.require hdense
      exact hwalk.bind_error
  | cons first before ih =>
      intro index
      obtain ⟨⟨hhole, hfirst⟩, hrest⟩ := List.forall_mem_cons.mp hbefore
      obtain ⟨converted, hconverted⟩ :=
        walked direction element first hfirst (indexPath path index) depth
      obtain ⟨failure, hforeign, hwalk⟩ := ih hrest (index + 1)
      have hpresent : ¬ first.isArrayHole = true := by
        cases first <;> simp_all [Value.isArrayHole]
      refine ⟨failure, hforeign, ?_⟩
      rw [List.map_cons, Measure.sum, Measure.beside_assoc, List.cons_append, walkItems]
      apply Tallied.require hpresent
      exact hconverted.bind hwalk.bind_error

theorem Trips.not_hole {direction : ConversionDirection} :
    ∀ {node : ConversionNode} {value : Value} {reached : Measure},
      Trips direction node value reached → ¬ value.isArrayHole = true
  | .nullable _, _, _, ⟨_, _, helement, _⟩ => helement.not_hole
  | .scalar kind, value, _, ⟨hunheld, _⟩ => by
      cases value with
      | arrayHole => cases kind <;> simp [Unheld] at hunheld
      | _ => simp [Value.isArrayHole]
  | .array _, value, _, ⟨_, _, _, _, hitems, _⟩ => by
      cases value with
      | arrayHole => cases direction <;> cases hitems
      | _ => simp [Value.isArrayHole]
  | .value _ _ _, _, _, ⟨_, _, _, hvalue, _⟩ => by simp [hvalue, Value.isArrayHole]

mutual

theorem tallied_of_trips (direction : ConversionDirection) :
    ∀ (node : ConversionNode) {value : Value}
    {reached : Measure}, Trips direction node value reached → ∀ (path : String) (depth : Nat),
      ∃ failure : Failure, failure.Foreign ∧
        Tallied depth (walk direction node value path (depth + 1)) reached (.error failure)
  | .nullable element, value, reached, htrips, path, depth => by
      have hdefined := htrips.defined
      obtain ⟨hnull, below, helement, rfl⟩ := htrips
      obtain ⟨failure, hforeign, hwalk⟩ :=
        tallied_of_trips direction element helement path (depth + 1)
      refine ⟨failure, hforeign, ?_⟩
      have hpresent : ¬ value.isNull = true := by simp [hnull]
      rw [walk]
      simp only [if_neg hpresent]
      apply Tallied.visit
      apply Tallied.require hdefined
      exact hwalk
  | .scalar kind, value, reached, ⟨hunheld, hreached⟩, path, depth => by
      obtain ⟨failure, hforeign, hwalk⟩ := tallied_of_unheld path (depth + 1) hunheld
      refine ⟨failure, hforeign, ?_⟩
      rw [walk, hreached]
      apply Tallied.visit
      apply Tallied.require hunheld.given.1
      apply Tallied.require hunheld.given.2
      exact hwalk
  | .array element, value, reached, htrips, path, depth => by
      obtain ⟨before, item, after, below, hitems, hbefore, hitem, rfl⟩ := htrips
      have hgiven := not_null_of_arrayItems? hitems
      obtain ⟨failure, hforeign, hwalk⟩ :=
        @tallied_walkItems_of_trips _ _ path (depth + 1) _ after _ _ hbefore hitem.not_hole
          (fun itemPath => tallied_of_trips direction element hitem itemPath (depth + 1)) 0
      refine ⟨failure, hforeign, ?_⟩
      rw [walk, hitems, Measure.ofArray_eq, Measure.beside_assoc]
      apply Tallied.visit
      apply Tallied.require hgiven.1
      apply Tallied.require hgiven.2
      apply Tallied.check_bind (demand_eq_ok.mpr rfl)
      apply (Tallied.take (.checkArray (before ++ item :: after).length path) rfl).bind
      apply (Tallied.take
        (.reserve (24 + (before ++ item :: after).length * pointerSize) path) rfl).bind
      exact hwalk.bind_error
  | .value typeId publicName fields, value, reached, htrips, path, depth => by
      obtain ⟨own, inherited, below, rfl, hfields, rfl⟩ := htrips
      obtain ⟨failure, hforeign, hwalk⟩ :=
        tallied_of_tripsFields direction own path (depth + 1) fields [] hfields
      refine ⟨failure, hforeign, ?_⟩
      rw [walk]
      apply Tallied.visit
      apply Tallied.require (by simp [Value.isUndefined])
      apply Tallied.require (by simp [Value.isNull])
      apply Tallied.check_bind (demand_eq_ok.mpr rfl)
      apply (Tallied.take (.reserve (32 + fields.length * 16) path) rfl).bind
      exact hwalk.bind_error

theorem tallied_of_tripsFields (direction : ConversionDirection) (own : List (String × Value))
    (path : String) (depth : Nat) : ∀ (fields : List (String × ConversionNode))
    (result : List (String × Value)) {reached : Measure},
      TripsFields direction own fields reached → ∃ failure : Failure, failure.Foreign ∧
        Tallied depth (walkFields direction own path depth fields result) reached (.error failure)
  | (name, node) :: fields, result, reached, ⟨raw, hraw, htrips⟩ => by
      rw [walkFields, hraw]
      rcases htrips with hnode | ⟨hnode, below, hfields, rfl⟩
      · obtain ⟨failure, hforeign, hwalk⟩ :=
          tallied_of_trips direction node hnode (fieldPath path name) depth
        refine ⟨failure, hforeign, .check_bind (demand_eq_ok.mpr rfl) ?_⟩
        exact hwalk.bind_error
      · obtain ⟨converted, hconverted⟩ :=
          walked direction node raw hnode (fieldPath path name) depth
        obtain ⟨failure, hforeign, hwalk⟩ := tallied_of_tripsFields direction own path depth fields
          (assign result name converted) hfields
        refine ⟨failure, hforeign, .check_bind (demand_eq_ok.mpr rfl) ?_⟩
        exact hconverted.bind hwalk

end

/-! ### Where a walk ends without a check -/

section Unchecked

variable {Output Result : Type} {first : ConversionWalk Output}
  {next : Output → ConversionWalk Result} {failure error : Failure}

theorem result_bind_eq_error : (first >>= next).result = .error failure ↔
    first.result = .error failure ∨
      ∃ output, first.result = .ok output ∧ (next output).result = .error failure := by
  rw [Walk.result_bind, bind_eq_error]

/-- No check of a value ends with the failure. -/
def Failure.Unchecked (failure : Failure) : Prop :=
  failure.kind ≠ .type ∧ failure.kind ≠ .range

/-- A check of the value itself does not end the walk so. -/
theorem Failure.Unchecked.require {condition : Prop} [Decidable condition]
    {next : Unit → ConversionWalk Result} (hunchecked : failure.Unchecked)
    (herror : error.kind = .type ∨ error.kind = .range)
    (hresult : (.check (Lib.require condition error) >>= next).result = .error failure) :
    condition ∧ (next ()).result = .error failure := by
  rcases result_bind_eq_error.mp hresult with hfirst | ⟨_, hfirst, hnext⟩
  · obtain ⟨_, rfl⟩ := require_eq_error.mp hfirst
    exact (herror.elim hunchecked.1 hunchecked.2).elim
  · exact ⟨require_eq_ok.mp hfirst, hnext⟩

theorem Failure.Unchecked.demand {option : Option Output} (hunchecked : failure.Unchecked)
    (herror : error.kind = .type ∨ error.kind = .range)
    (hresult : (.check (Lib.demand option error) >>= next).result = .error failure) :
    ∃ output, option = some output ∧ (next output).result = .error failure := by
  rcases result_bind_eq_error.mp hresult with hfirst | ⟨output, hfirst, hnext⟩
  · cases option with
    | none =>
        obtain rfl : error = failure := Except.error.inj hfirst
        exact (herror.elim hunchecked.1 hunchecked.2).elim
    | some output => cases hfirst
  · exact ⟨output, demand_eq_ok.mp hfirst, hnext⟩

theorem Failure.Unchecked.take {step : Step} {next : Unit → ConversionWalk Result}
    (hresult : (.take step >>= next).result = .error failure) :
    (next ()).result = .error failure := by
  rcases result_bind_eq_error.mp hresult with hfirst | ⟨_, _, hnext⟩
  · cases hfirst
  · exact hnext

theorem unheld_of_toDouble {value : Value} {kind : ScalarKind}
    (hkind : kind = .int32 ∨ kind = .float32 ∨ kind = .float64) (hunchecked : failure.Unchecked)
    (herror : error.kind = .type) (hresult : toDouble value error doubleOverflow = .error failure) :
    Unheld kind value := by
  have htyped : error ≠ failure := by
    rintro rfl
    exact hunchecked.1 herror
  cases value with
  | int integer =>
      cases hdouble : Double.ofInt integer with
      | none => rcases hkind with rfl | rfl | rfl <;> exact ⟨integer, rfl, hdouble⟩
      | some double => simp [toDouble, hdouble, Lib.demand] at hresult
  | float double => cases hresult
  | _ => exact absurd (Except.error.inj hresult) htyped

theorem not_error_walkText_take {text : Text} {path : String} {length : Nat}
    (hresult : (do
      .take (.checkStringBytes length path)
      .take (.reserve length path)
      return .text text : ConversionWalk Value).result = .error failure) : False := by
  have hreserve := Failure.Unchecked.take hresult
  cases Failure.Unchecked.take hreserve

theorem unheld_of_walkScalar {kind : ScalarKind} {value : Value} {direction : ConversionDirection}
    {path : String} (hunchecked : failure.Unchecked)
    (hresult : (walkScalar kind value direction path).result = .error failure) :
    Unheld kind value := by
  cases kind with
  | bool =>
      cases value with
      | bool flag => cases hresult
      | _ => exact (hunchecked.1 (Except.error.inj hresult ▸ rfl)).elim
  | int32 =>
      rcases result_bind_eq_error.mp hresult with hnumeric | ⟨_, _, hnext⟩
      · exact unheld_of_toDouble (.inl rfl) hunchecked rfl hnumeric
      · obtain ⟨_, _, hnext⟩ := hunchecked.demand (.inr rfl) hnext
        obtain ⟨_, hnext⟩ := hunchecked.require (.inr rfl) hnext
        cases hnext
  | int64 =>
      exfalso
      cases direction with
      | input =>
          cases value with
          | bigint integer =>
              obtain ⟨_, rfl⟩ | ⟨_, _, hnext⟩ :=
                (bind_eq_error.mp hresult).imp_left require_eq_error.mp
              · exact hunchecked.2 rfl
              · cases hnext
          | _ => exact hunchecked.1 (Except.error.inj hresult ▸ rfl)
      | output =>
          cases value with
          | int integer =>
              obtain ⟨_, rfl⟩ | ⟨_, _, hnext⟩ :=
                (bind_eq_error.mp hresult).imp_left require_eq_error.mp
              · exact hunchecked.2 rfl
              · cases hnext
          | _ => exact hunchecked.1 (Except.error.inj hresult ▸ rfl)
  | float32 =>
      rcases result_bind_eq_error.mp hresult with hnumeric | ⟨_, _, hnext⟩
      · exact unheld_of_toDouble (.inr (.inl rfl)) hunchecked rfl hnumeric
      · obtain ⟨_, hnext⟩ := hunchecked.require (.inr rfl) hnext
        cases hnext
  | float64 =>
      rcases result_bind_eq_error.mp hresult with hnumeric | ⟨_, _, hnext⟩
      · exact unheld_of_toDouble (.inr (.inr rfl)) hunchecked rfl hnumeric
      · cases hnext
  | string =>
      cases value with
      | text text =>
          rcases result_bind_eq_error.mp hresult with hsize | ⟨_, _, hnext⟩
          · cases htext : text.wellFormed? with
            | none => exact ⟨text, rfl, htext⟩
            | some characters =>
                change encodedSize text = _ at hsize
                rw [encodedSize, Text.utf8Size, htext] at hsize
                cases hsize
          · exact (not_error_walkText_take hnext).elim
      | _ => exact (hunchecked.1 (Except.error.inj hresult ▸ rfl)).elim
  | bytes =>
      exfalso
      rcases result_bind_eq_error.mp hresult with hcontent | ⟨_, _, hnext⟩
      · cases direction with
        | input =>
            cases value with
            | object form own inherited =>
                cases form with
                | uint8Array view => cases hcontent
                | _ => exact hunchecked.1 (Except.error.inj hcontent ▸ rfl)
            | _ => exact hunchecked.1 (Except.error.inj hcontent ▸ rfl)
        | output =>
            cases value with
            | buffer kind content => cases hcontent
            | _ => exact hunchecked.1 (Except.error.inj hcontent ▸ rfl)
      · have hreserve := Failure.Unchecked.take hnext
        cases Failure.Unchecked.take hreserve

theorem trips_of_walkItems {direction : ConversionDirection} {element : ConversionNode}
    {depth : Nat} {path : String} {items : List Value} (hunchecked : failure.Unchecked)
    (helement : ∀ {item : Value} {itemPath : String},
      (walk direction element item itemPath depth).result = .error failure →
        ∃ reached, Trips direction element item reached) :
    ∀ {index : Nat},
      (walkItems (fun item itemPath => walk direction element item itemPath depth) path index
        items).result = .error failure →
      ∃ before item after below, items = before ++ item :: after ∧
        (∀ other ∈ before, other ≠ .arrayHole ∧ Inhabits direction element other) ∧
        Trips direction element item below := by
  induction items with
  | nil =>
      intro index hresult
      cases hresult
  | cons item items ih =>
      intro index hresult
      obtain ⟨hdense, hnext⟩ := hunchecked.require (.inl rfl) hresult
      rcases result_bind_eq_error.mp hnext with hitem | ⟨converted, hitem, hnext⟩
      · obtain ⟨below, htrips⟩ := helement hitem
        exact ⟨[], item, items, below, rfl, List.forall_mem_nil _, htrips⟩
      · rcases result_bind_eq_error.mp hnext with hrest | ⟨_, _, hpure⟩
        · obtain ⟨before, other, after, below, rfl, hbefore, htrips⟩ := ih hrest
          have hpresent : item ≠ .arrayHole := by
            rintro rfl
            exact hdense rfl
          exact ⟨item :: before, other, after, below, rfl,
            List.forall_mem_cons.mpr ⟨⟨hpresent, inhabits_of_walk element hitem⟩, hbefore⟩, htrips⟩
        · cases hpure

mutual

theorem trips_of_walk {direction : ConversionDirection} (hunchecked : failure.Unchecked) :
    ∀ (node : ConversionNode) {value : Value} {path : String} {depth : Nat},
      (walk direction node value path depth).result = .error failure →
        ∃ reached, Trips direction node value reached
  | .void, value, path, depth, hresult => by
      obtain ⟨_, hnext⟩ := hunchecked.require (.inl rfl) (Failure.Unchecked.take hresult)
      obtain ⟨_, hnext⟩ := hunchecked.require (.inl rfl) hnext
      cases hnext
  | .nullable element, value, path, depth, hresult => by
      obtain ⟨_, hnext⟩ := hunchecked.require (.inl rfl) (Failure.Unchecked.take hresult)
      by_cases hnull : value.isNull = true
      · simp only [if_pos hnull] at hnext
        cases hnext
      · simp only [if_neg hnull] at hnext
        obtain ⟨below, htrips⟩ := trips_of_walk hunchecked element hnext
        exact ⟨below.under, by simpa using hnull, below, htrips, rfl⟩
  | .scalar kind, value, path, depth, hresult => by
      obtain ⟨_, hnext⟩ := hunchecked.require (.inl rfl) (Failure.Unchecked.take hresult)
      obtain ⟨_, hnext⟩ := hunchecked.require (.inl rfl) hnext
      exact ⟨_, unheld_of_walkScalar hunchecked hnext, rfl⟩
  | .enum typeId publicName constants, value, path, depth, hresult => by
      obtain ⟨_, hnext⟩ := hunchecked.require (.inl rfl) (Failure.Unchecked.take hresult)
      obtain ⟨_, hnext⟩ := hunchecked.require (.inl rfl) hnext
      obtain ⟨text, _, hnext⟩ := hunchecked.demand (.inl rfl) hnext
      obtain ⟨hconstant, hnext⟩ := hunchecked.require (.inl rfl) hnext
      obtain ⟨constant, _, rfl⟩ := List.mem_map.mp hconstant
      rcases result_bind_eq_error.mp hnext with hsize | ⟨_, _, hnext⟩
      · change encodedSize (.ofString constant) = _ at hsize
        rw [encodedSize, Text.utf8Size, Text.wellFormed?_ofString] at hsize
        cases hsize
      · exact (not_error_walkText_take hnext).elim
  | .object typeId publicName, value, path, depth, hresult => by
      obtain ⟨_, hnext⟩ := hunchecked.require (.inl rfl) (Failure.Unchecked.take hresult)
      obtain ⟨_, hnext⟩ := hunchecked.require (.inl rfl) hnext
      obtain ⟨token, _, hnext⟩ := hunchecked.demand (.inl rfl) hnext
      obtain ⟨_, hnext⟩ := hunchecked.require (.inl rfl) hnext
      have hretain := Failure.Unchecked.take hnext
      cases Failure.Unchecked.take hretain
  | .array element, value, path, depth, hresult => by
      obtain ⟨_, hnext⟩ := hunchecked.require (.inl rfl) (Failure.Unchecked.take hresult)
      obtain ⟨_, hnext⟩ := hunchecked.require (.inl rfl) hnext
      obtain ⟨items, hitems, hnext⟩ := hunchecked.demand (.inl rfl) hnext
      have hreserve := Failure.Unchecked.take hnext
      have hwalk := Failure.Unchecked.take hreserve
      rcases result_bind_eq_error.mp hwalk with hrest | ⟨_, _, hpure⟩
      · obtain ⟨before, item, after, below, rfl, hbefore, htrips⟩ :=
          trips_of_walkItems hunchecked (fun hitem => trips_of_walk hunchecked element hitem) hrest
        exact ⟨_, before, item, after, below, hitems, hbefore, htrips, rfl⟩
      · cases hpure
  | .value typeId publicName fields, value, path, depth, hresult => by
      obtain ⟨_, hnext⟩ := hunchecked.require (.inl rfl) (Failure.Unchecked.take hresult)
      obtain ⟨_, hnext⟩ := hunchecked.require (.inl rfl) hnext
      obtain ⟨own, hown, hbelow⟩ := hunchecked.demand (.inl rfl) hnext
      have hwalk := Failure.Unchecked.take hbelow
      obtain ⟨inherited, rfl⟩ := Value.mapping?_eq_some.mp hown
      rcases result_bind_eq_error.mp hwalk with hrest | ⟨_, _, hpure⟩
      · obtain ⟨below, htrips⟩ := trips_of_walkFields hunchecked fields hrest
        exact ⟨_, own, inherited, below, rfl, htrips, rfl⟩
      · cases hpure

theorem trips_of_walkFields {direction : ConversionDirection} {own : List (String × Value)}
    {path : String} {depth : Nat} (hunchecked : failure.Unchecked) :
    ∀ (fields : List (String × ConversionNode)) {result : List (String × Value)},
      (walkFields direction own path depth fields result).result = .error failure →
        ∃ reached, TripsFields direction own fields reached
  | [], result, hresult => by cases hresult
  | (name, node) :: fields, result, hresult => by
      obtain ⟨raw, hraw, hnext⟩ := hunchecked.demand (.inl rfl) hresult
      rcases result_bind_eq_error.mp hnext with hnode | ⟨converted, hnode, hnext⟩
      · obtain ⟨reached, htrips⟩ := trips_of_walk hunchecked node hnode
        exact ⟨reached, raw, hraw, .inl htrips⟩
      · obtain ⟨below, htrips⟩ := trips_of_walkFields hunchecked fields hnext
        exact ⟨_, raw, hraw, .inr ⟨inhabits_of_walk node hnode, below, htrips, rfl⟩⟩

end

end Unchecked

end SupernoteModule.Conversion
