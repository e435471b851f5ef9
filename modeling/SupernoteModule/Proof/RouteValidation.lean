import SupernoteModule.Proof.ConversionPlan
import SupernoteModule.Semantic.Route

/-!
# What a route takes

`validate_semantic_route` remembers the values it has entered and does not enter them again. What it
answers is what a traversal without a memory answers: it accepts a type when everything that can be
reached from it has what the route needs, and otherwise complains about what such a traversal finds
first.
-/

namespace SupernoteModule.Semantic.SemanticApi

open SupernoteModule.Lib SupernoteModule.Conversion

variable {api : SemanticApi} {route : Route}

/-! ### Reachable types -/

/-- The type that a reference to a copied type names. -/
def copied? : TypeNode → Option String
  | .enumRef typeId | .valueRef typeId => some typeId
  | .void | .scalar _ | .objectRef _ | .array _ | .nullable _ => none

/-- What is reached from a type through arrays, nullables and the fields of values. -/
inductive Reachable (api : SemanticApi) (type : TypeNode) : TypeNode → Prop where
  | root : Reachable api type type
  | element {element : TypeNode} : Reachable api type (.array element) → Reachable api type element
  | inner {inner : TypeNode} : Reachable api type (.nullable inner) → Reachable api type inner
  | field {node : TypeNode} {typeId : String} {declaration : SemanticValueDeclaration}
      {field : SemanticField} : Reachable api type node → copied? node = some typeId →
      api.declaration? typeId = some (.value declaration) → field ∈ declaration.fields →
      Reachable api type field.type.node

/-- What the route needs of a type: the projections for both ends, and no object that would have to
cross. -/
def Route.Meets (route : Route) (api : SemanticApi) : TypeNode → Prop
  | .void | .scalar _ | .array _ | .nullable _ => True
  | .enumRef typeId | .valueRef typeId =>
      ∃ declaration, api.declaration? typeId = some declaration ∧
      route.source ∈ available declaration ∧ route.target ∈ available declaration
  | .objectRef typeId => ∃ declaration, api.declaration? typeId = some declaration ∧
      route.source = route.target ∧ route.source ∈ available declaration

/-! ### The traversal without a memory -/

/-- Everything below the type passes its check. -/
inductive Passes (api : SemanticApi) (route : Route) : TypeNode → Prop where
  | void : Passes api route .void
  | scalar (kind : ScalarKind) : Passes api route (.scalar kind)
  | array {element : TypeNode} : Passes api route element → Passes api route (.array element)
  | nullable {inner : TypeNode} : Passes api route inner → Passes api route (.nullable inner)
  | object {typeId : String} : route.Meets api (.objectRef typeId) →
      Passes api route (.objectRef typeId)
  | copied {node : TypeNode} {typeId : String} : copied? node = some typeId →
      route.Meets api node →
      (∀ declaration, api.declaration? typeId = some (.value declaration) →
        ∀ field ∈ declaration.fields, Passes api route field.type.node) →
      Passes api route node

/-- The first check that fails, in the order of the declarations' fields, with what it says. -/
inductive Fails (api : SemanticApi) (route : Route) : TypeNode → String → SemanticError → Prop where
  | array {element : TypeNode} {position : String} {error : SemanticError} :
      Fails api route element (position ++ "[]") error →
        Fails api route (.array element) position error
  | nullable {inner : TypeNode} {position : String} {error : SemanticError} :
      Fails api route inner (position ++ "?") error →
        Fails api route (.nullable inner) position error
  | object {typeId position : String} {error : SemanticError} :
      (do
        let declaration ← declarationOf api.toFields typeId
        route.checkObject declaration position) = .error error →
      Fails api route (.objectRef typeId) position error
  | copied {node : TypeNode} {typeId position : String} {error : SemanticError} :
      copied? node = some typeId →
      (do
        let declaration ← declarationOf api.toFields typeId
        route.checkCopied declaration position) = .error error →
      Fails api route node position error
  | field {node : TypeNode} {typeId position : String} {declaration : SemanticValueDeclaration}
      {before after : List SemanticField} {field : SemanticField} {error : SemanticError} :
      copied? node = some typeId → route.Meets api node →
      api.declaration? typeId = some (.value declaration) →
      declaration.fields = before ++ field :: after →
      (∀ earlier ∈ before, Passes api route earlier.type.node) →
      Fails api route field.type.node s!"{position}.{field.name}" error →
      Fails api route node position error

/-! ### The checks -/

theorem checkObject_eq_ok {declaration : SemanticDeclaration} {position : String} :
    route.checkObject declaration position = .ok () ↔
      route.source = route.target ∧ route.source ∈ available declaration := by
  rw [Route.checkObject, bind_eq_ok]
  simp only [require_eq_ok, exists_unit]

theorem checkCopied_eq_ok {declaration : SemanticDeclaration} {position : String} :
    route.checkCopied declaration position = .ok () ↔
      route.source ∈ available declaration ∧ route.target ∈ available declaration := by
  rw [Route.checkCopied, require_eq_ok, List.filter_eq_nil_iff]
  simp

theorem meets_copied {node : TypeNode} {typeId : String} (hcopied : copied? node = some typeId) :
    route.Meets api node ↔ ∃ declaration, api.declaration? typeId = some declaration ∧
      route.source ∈ available declaration ∧ route.target ∈ available declaration := by
  cases node <;> simp_all [copied?, Route.Meets]

theorem checked_object {typeId position : String} :
    (do
      let declaration ← declarationOf api.toFields typeId
      route.checkObject declaration position) = .ok () ↔ route.Meets api (.objectRef typeId) := by
  simp only [bind_eq_ok, declarationOf, demand_eq_ok, checkObject_eq_ok]
  rfl

theorem checked_copied {node : TypeNode} {typeId position : String}
    (hcopied : copied? node = some typeId) :
    (do
      let declaration ← declarationOf api.toFields typeId
      route.checkCopied declaration position) = .ok () ↔ route.Meets api node := by
  simp only [bind_eq_ok, declarationOf, demand_eq_ok, checkCopied_eq_ok, meets_copied hcopied]

/-! ### The two answers -/

theorem Passes.meets {node : TypeNode} (hpasses : Passes api route node) :
    route.Meets api node := by
  cases hpasses with
  | void => exact True.intro
  | scalar => exact True.intro
  | array => exact True.intro
  | nullable => exact True.intro
  | object hmeets => exact hmeets
  | copied _ hmeets _ => exact hmeets

/-- What is reached from a type that passes passes as well. -/
theorem Passes.of_reachable {type node : TypeNode} (hpasses : Passes api route type)
    (hreachable : Reachable api type node) : Passes api route node := by
  induction hreachable with
  | root => exact hpasses
  | element _ ih =>
      cases ih with
      | array helement => exact helement
      | copied hcopied => cases hcopied
  | inner _ ih =>
      cases ih with
      | nullable hinner => exact hinner
      | copied hcopied => cases hcopied
  | @field node typeId declaration field _ hcopied hdeclared hfield ih =>
      cases ih with
      | copied hagain _ hfields =>
          obtain rfl := Option.some.inj (hcopied.symm.trans hagain)
          exact hfields declaration hdeclared field hfield
      | void => cases hcopied
      | scalar => cases hcopied
      | array => cases hcopied
      | nullable => cases hcopied
      | object => cases hcopied

theorem Reachable.trans {type middle node : TypeNode} (hfirst : Reachable api type middle)
    (hsecond : Reachable api middle node) : Reachable api type node := by
  induction hsecond with
  | root => exact hfirst
  | element _ ih => exact .element ih
  | inner _ ih => exact .inner ih
  | field _ hcopied hdeclared hfield ih => exact .field ih hcopied hdeclared hfield

/-- A failing check is about something that is reached. -/
theorem Fails.exists_reachable {type : TypeNode} {position : String} {error : SemanticError}
    (hfails : Fails api route type position error) :
    ∃ node, Reachable api type node ∧ ¬ route.Meets api node := by
  induction hfails with
  | array _ ih =>
      obtain ⟨node, hreachable, hmeets⟩ := ih
      exact ⟨node, (Reachable.element .root).trans hreachable, hmeets⟩
  | nullable _ ih =>
      obtain ⟨node, hreachable, hmeets⟩ := ih
      exact ⟨node, (Reachable.inner .root).trans hreachable, hmeets⟩
  | object herror =>
      refine ⟨_, .root, fun hmeets => ?_⟩
      rw [checked_object.mpr hmeets] at herror
      cases herror
  | copied hcopied herror =>
      refine ⟨_, .root, fun hmeets => ?_⟩
      rw [(checked_copied hcopied).mpr hmeets] at herror
      cases herror
  | field hcopied _ hdeclared hfields _ _ ih =>
      obtain ⟨node, hreachable, hmeets⟩ := ih
      refine ⟨node, (Reachable.field .root hcopied hdeclared ?_).trans hreachable, hmeets⟩
      rw [hfields]
      exact List.mem_append_right _ List.mem_cons_self

theorem declarationOf_ne_recursion {typeId : String} :
    declarationOf api.toFields typeId ≠ .error .recursion := by
  rw [declarationOf]
  cases api.toFields.declaration? typeId <;> simp [demand]

theorem Passes.not_fails {type : TypeNode} (hpasses : Passes api route type) {position : String}
    {error : SemanticError} : ¬ Fails api route type position error := by
  intro hfails
  obtain ⟨node, hreachable, hmeets⟩ := hfails.exists_reachable
  exact hmeets (hpasses.of_reachable hreachable).meets

/-- A check that stops is the last one, and a field that fails comes after fields that pass. -/
theorem Fails.unique {type : TypeNode} {position : String} {error other : SemanticError}
    (hfails : Fails api route type position error) (hother : Fails api route type position other) :
    error = other := by
  induction hfails generalizing other with
  | array _ ih =>
      cases hother with
      | array helement => exact ih helement
      | copied hcopied => cases hcopied
      | field hcopied => cases hcopied
  | nullable _ ih =>
      cases hother with
      | nullable hinner => exact ih hinner
      | copied hcopied => cases hcopied
      | field hcopied => cases hcopied
  | object herror =>
      cases hother with
      | object hagain => exact Except.error.inj (herror.symm.trans hagain)
      | copied hcopied => cases hcopied
      | field hcopied => cases hcopied
  | copied hcopied herror =>
      cases hother with
      | array => cases hcopied
      | nullable => cases hcopied
      | object => cases hcopied
      | copied hagain hothers =>
          obtain rfl := Option.some.inj (hcopied.symm.trans hagain)
          exact Except.error.inj (herror.symm.trans hothers)
      | field hagain hmeets =>
          obtain rfl := Option.some.inj (hcopied.symm.trans hagain)
          rw [(checked_copied hcopied).mpr hmeets] at herror
          cases herror
  | @field node typeId position declaration before after field error hcopied hmeets hdeclared
      hfields hbefore hfield ih =>
      cases hother with
      | array => cases hcopied
      | nullable => cases hcopied
      | object => cases hcopied
      | copied hagain hothers =>
          obtain rfl := Option.some.inj (hcopied.symm.trans hagain)
          rw [(checked_copied hcopied).mpr hmeets] at hothers
          cases hothers
      | @field _ _ _ again earlier later second _ hagain _ hfound hsplit hearlier hsecond =>
          obtain rfl := Option.some.inj (hcopied.symm.trans hagain)
          obtain rfl :=
            SemanticDeclaration.value.inj (Option.some.inj (hdeclared.symm.trans hfound))
          have hsame : second = field := by
            rcases List.append_eq_append_iff.mp (hfields.symm.trans hsplit) with
              ⟨between, hlonger, hrest⟩ | ⟨between, hlonger, hrest⟩
            · cases between with
              | nil => exact (List.cons.inj hrest).1.symm
              | cons first between =>
                  obtain rfl := (List.cons.inj hrest).1
                  have hpasses := hearlier field (by rw [hlonger]; simp)
                  exact absurd hfield hpasses.not_fails
            · cases between with
              | nil => exact (List.cons.inj hrest).1
              | cons first between =>
                  obtain rfl := (List.cons.inj hrest).1
                  have hpasses := hbefore second (by rw [hlonger]; simp)
                  exact absurd hsecond hpasses.not_fails
          subst hsame
          exact ih hsecond

/-! ### The traversal with a memory -/

/-- What a fold over items has found out when it ends, and when it stops. -/
theorem foldlM_outcome {State Item Error : Type} {step : State → Item → Except Error State}
    {items : List Item} (invariant : State → Prop) {passes : Item → Prop}
    {fails : Item → Error → Prop}
    (hstep : ∀ state, invariant state → ∀ item ∈ items,
      (∀ next, step state item = .ok next → invariant next ∧ passes item) ∧
        ∀ error, step state item = .error error → fails item error)
    {state : State} (hstate : invariant state) :
    (∀ final, items.foldlM step state = .ok final →
      invariant final ∧ ∀ item ∈ items, passes item) ∧
    ∀ error, items.foldlM step state = .error error → ∃ before item after,
      items = before ++ item :: after ∧ (∀ earlier ∈ before, passes earlier) ∧
        fails item error := by
  induction items generalizing state with
  | nil =>
      constructor
      · intro final hfinal
        obtain rfl := pure_eq_ok.mp hfinal
        exact ⟨hstate, List.forall_mem_nil _⟩
      · intro error herror
        exact absurd herror pure_ne_error
  | cons item items ih =>
      have hfirst := hstep state hstate item List.mem_cons_self
      have hrest : ∀ {next}, invariant next → _ := fun {next} hnext =>
        @ih (fun state hstate other hother =>
          hstep state hstate other (List.mem_cons_of_mem _ hother))
          next hnext
      constructor
      · intro final hfinal
        obtain ⟨next, hitem, hlater⟩ := foldlM_cons_eq_ok.mp hfinal
        obtain ⟨hnext, hpasses⟩ := hfirst.1 next hitem
        obtain ⟨hinvariant, hall⟩ := (hrest hnext).1 final hlater
        exact ⟨hinvariant, List.forall_mem_cons.mpr ⟨hpasses, hall⟩⟩
      · intro error herror
        rw [List.foldlM_cons, bind_eq_error] at herror
        rcases herror with hitem | ⟨next, hitem, hlater⟩
        · exact ⟨[], item, items, rfl, List.forall_mem_nil _, hfirst.2 error hitem⟩
        · obtain ⟨hnext, hpasses⟩ := hfirst.1 next hitem
          obtain ⟨before, other, after, rfl, hbefore, hfails⟩ := (hrest hnext).2 error hlater
          exact ⟨item :: before, other, after, rfl,
            List.forall_mem_cons.mpr ⟨hpasses, hbefore⟩, hfails⟩

/-- Everything below the value passes. -/
def Done (api : SemanticApi) (route : Route) (typeId : String) : Prop :=
  ∀ declaration, api.declaration? typeId = some (.value declaration) →
    ∀ field ∈ declaration.fields, Passes api route field.type.node

/-- The first check that fails below the fields of a value. -/
def FieldsFail (api : SemanticApi) (route : Route) (declaration : SemanticValueDeclaration)
    (position : String) (error : SemanticError) : Prop :=
  ∃ before field after, declaration.fields = before ++ field :: after ∧
    (∀ earlier ∈ before, Passes api route earlier.type.node) ∧
      Fails api route field.type.node s!"{position}.{field.name}" error

/-- What a part of the traversal has found out, and what it leaves in the memory. -/
structure Outcome (api : SemanticApi) (route : Route) (checked : List String)
    (result : Except SemanticError (List String)) (passes : Prop) (fails : SemanticError → Prop) :
    Prop where
  ok : ∀ next, result = .ok next → passes ∧ Entered api.toFields next ∧
    checked.length ≤ next.length ∧ ∀ typeId ∈ next, typeId ∈ checked ∨ Done api route typeId
  error : ∀ error, result = .error error → fails error

/-- The values in the memory are done, or still being entered. -/
def Settled (api : SemanticApi) (route : Route) (active : String → Prop) (checked : List String) :
    Prop :=
  ∀ typeId ∈ checked, Done api route typeId ∨ active typeId

/-- A value that is being entered, or that it lies below. -/
def Active (api : SemanticApi) (current typeId : String) : Prop :=
  typeId = current ∨ Relation.TransGen (Below api) current typeId

variable {bound : Nat} {active : String → Prop} {checked : List String}
  {enter : List String → SemanticValueDeclaration → String → Except SemanticError (List String)}

theorem outcome_unchanged (hentered : Entered api.toFields checked) {passes : Prop}
    {fails : SemanticError → Prop} (hpasses : passes) :
    Outcome api route checked (.ok checked) passes fails := by
  refine ⟨?_, fun _ herror => (by cases herror)⟩
  intro next hnext
  obtain rfl := Except.ok.inj hnext
  exact ⟨hpasses, hentered, le_rfl, fun _ hmem => .inl hmem⟩

/-- A value whose projections are there is entered unless it is in the memory. -/
theorem enter_outcome
    (henter : ∀ checked declaration position, Entered api.toFields checked →
      bound < checked.length → .value declaration ∈ api.declarations →
      Settled api route (Active api declaration.typeId) checked →
      Outcome api route checked (enter checked declaration position)
        (Done api route declaration.typeId) (FieldsFail api route declaration position))
    (hentered : Entered api.toFields checked) (hbound : bound ≤ checked.length)
    (hsettled : Settled api route active checked) {node : TypeNode}
    {declaration : SemanticValueDeclaration} (hcopied : copied? node = some declaration.typeId)
    (hfound : api.declaration? declaration.typeId = some (.value declaration))
    (habove : ∀ other, active other → Relation.TransGen (Below api) declaration.typeId other)
    (hmeets : route.Meets api node) (position : String) :
    Outcome api route checked
      (if declaration.typeId ∈ checked then pure checked
        else enter (declaration.typeId :: checked) declaration position)
      (Passes api route node) (Fails api route node position) := by
  obtain ⟨hmem, _⟩ := mem_of_declaration? hfound
  split_ifs with hchecked
  · -- Had it not been done, it would lie below itself.
    refine outcome_unchanged hentered (.copied hcopied hmeets ?_)
    rcases hsettled _ hchecked with hdone | hopen
    · exact hdone
    · have hloop := habove _ hopen
      exact absurd hloop ((below_wellFounded api).transGen.asymmetric _ _ hloop)
  · have hnext : Entered api.toFields (declaration.typeId :: checked) := by
      refine ⟨List.nodup_cons.mpr ⟨hchecked, hentered.1⟩, ?_⟩
      intro other hother
      rcases List.mem_cons.mp hother with rfl | hrest
      · exact List.mem_map.mpr ⟨_, hmem, rfl⟩
      · exact hentered.2 other hrest
    have hopens : Settled api route (Active api declaration.typeId)
        (declaration.typeId :: checked) := by
      intro other hother
      rcases List.mem_cons.mp hother with rfl | hrest
      · exact .inr (.inl rfl)
      · exact (hsettled other hrest).imp id fun hopen => .inr (habove other hopen)
    have houtcome := henter _ declaration position hnext
      (by rw [List.length_cons]; omega) hmem hopens
    constructor
    · intro next hok
      obtain ⟨hdone, hentered, hgrows, hkept⟩ := houtcome.ok next hok
      rw [List.length_cons] at hgrows
      refine ⟨.copied hcopied hmeets hdone, hentered, by omega, ?_⟩
      intro other hother
      rcases hkept other hother with hbefore | hother
      · rcases List.mem_cons.mp hbefore with rfl | hrest
        · exact .inr hdone
        · exact .inl hrest
      · exact .inr hother
    · intro error herror
      obtain ⟨before, field, after, hfields, hbefore, hfails⟩ := houtcome.error error herror
      exact .field hcopied hmeets hfound hfields hbefore hfails

/-- A copied type is checked on its own before its fields are. -/
theorem copied_outcome
    (henter : ∀ checked declaration position, Entered api.toFields checked →
      bound < checked.length → .value declaration ∈ api.declarations →
      Settled api route (Active api declaration.typeId) checked →
      Outcome api route checked (enter checked declaration position)
        (Done api route declaration.typeId) (FieldsFail api route declaration position))
    (hentered : Entered api.toFields checked) (hbound : bound ≤ checked.length)
    (hsettled : Settled api route active checked) {node : TypeNode} {typeId : String}
    (hcopied : copied? node = some typeId)
    (habove : ∀ declaration, api.declaration? typeId = some (.value declaration) →
      ∀ other, active other → Relation.TransGen (Below api) typeId other) (position : String) :
    Outcome api route checked
      (do
        let declaration ← declarationOf api.toFields typeId
        route.checkCopied declaration position
        match declaration with
        | .value copied =>
            if copied.typeId ∈ checked then return checked
            else enter (copied.typeId :: checked) copied position
        | .enum _ | .object _ => return checked)
      (Passes api route node) (Fails api route node position) := by
  cases hdeclared : declarationOf api.toFields typeId with
  | error found =>
      refine ⟨fun _ hnext => (by cases hnext), fun error herror => .copied hcopied ?_⟩
      rw [hdeclared]
      simpa [bind, Except.bind] using herror
  | ok declaration =>
      have hfound : api.declaration? typeId = some declaration := demand_eq_ok.mp hdeclared
      cases hcheck : route.checkCopied declaration position with
      | error found =>
          refine ⟨fun next hnext => ?_, fun error herror => .copied hcopied ?_⟩
          · simp [hcheck, bind, Except.bind] at hnext
          · rw [hdeclared]
            simpa [hcheck, bind, Except.bind] using herror
      | ok _ =>
          have hmeets : route.Meets api node := by
            rw [← @checked_copied api route node typeId position hcopied, hdeclared]
            exact hcheck
          simp only [hcheck, bind, Except.bind]
          cases declaration with
          | enum declaration =>
              refine outcome_unchanged hentered (.copied hcopied hmeets ?_)
              intro value hvalue
              cases hfound.symm.trans hvalue
          | object declaration =>
              refine outcome_unchanged hentered (.copied hcopied hmeets ?_)
              intro value hvalue
              cases hfound.symm.trans hvalue
          | value declaration =>
              obtain rfl : declaration.typeId = typeId := (mem_of_declaration? hfound).2
              exact enter_outcome henter hentered hbound hsettled hcopied hfound
                (habove declaration hfound) hmeets position

/-- **A node is answered for as without a memory**, if the values it names lie below the ones that
are being entered. -/
theorem checkNode_outcome
    (henter : ∀ checked declaration position, Entered api.toFields checked →
      bound < checked.length → .value declaration ∈ api.declarations →
      Settled api route (Active api declaration.typeId) checked →
      Outcome api route checked (enter checked declaration position)
        (Done api route declaration.typeId) (FieldsFail api route declaration position))
    (hentered : Entered api.toFields checked) (hbound : bound ≤ checked.length)
    (hsettled : Settled api route active checked) {node : TypeNode}
    (habove : ∀ inner ∈ node.walk, ∀ typeId declaration, copied? inner = some typeId →
      api.declaration? typeId = some (.value declaration) → ∀ other, active other →
        Relation.TransGen (Below api) typeId other) (position : String) :
    Outcome api route checked (route.checkNode api.toFields enter checked node position)
      (Passes api route node) (Fails api route node position) := by
  induction node generalizing position with
  | void => exact outcome_unchanged hentered .void
  | scalar kind => exact outcome_unchanged hentered (.scalar kind)
  | array element ih =>
      have helement := ih (fun inner hinner => habove inner (List.mem_cons_of_mem _ hinner))
        (position ++ "[]")
      constructor
      · intro next hnext
        exact (helement.ok next hnext).imp .array id
      · exact fun error herror => .array (helement.error error herror)
  | nullable inner ih =>
      have hinner := ih (fun inner hinner => habove inner (List.mem_cons_of_mem _ hinner))
        (position ++ "?")
      constructor
      · intro next hnext
        exact (hinner.ok next hnext).imp .nullable id
      · exact fun error herror => .nullable (hinner.error error herror)
  | objectRef typeId =>
      rw [Route.checkNode]
      constructor
      · intro next hnext
        obtain ⟨declaration, hdeclared, hnext⟩ := bind_eq_ok.mp hnext
        obtain ⟨_, hcheck, hnext⟩ := bind_eq_ok.mp hnext
        obtain rfl := pure_eq_ok.mp hnext
        have hmeets : route.Meets api (.objectRef typeId) :=
          checked_object.mp (bind_eq_ok.mpr ⟨declaration, hdeclared, hcheck⟩)
        exact ⟨.object hmeets, hentered, le_rfl, fun _ hmem => .inl hmem⟩
      · intro error herror
        apply Fails.object
        apply bind_eq_error.mpr
        rcases bind_eq_error.mp herror with hdeclared | ⟨declaration, hdeclared, herror⟩
        · exact .inl hdeclared
        · rcases bind_eq_error.mp herror with hcheck | ⟨_, _, herror⟩
          · exact .inr ⟨declaration, hdeclared, hcheck⟩
          · exact absurd herror pure_ne_error
  | enumRef typeId =>
      exact copied_outcome henter hentered hbound hsettled rfl
        (fun declaration => habove _ List.mem_cons_self typeId declaration rfl) position
  | valueRef typeId =>
      exact copied_outcome henter hentered hbound hsettled rfl
        (fun declaration => habove _ List.mem_cons_self typeId declaration rfl) position

/-- A value that a field names lies below the values that are being entered. -/
theorem above_of_field {declaration : SemanticValueDeclaration}
    (hdeclared : .value declaration ∈ api.declarations) {field : SemanticField}
    (hfield : field ∈ declaration.fields) {inner : TypeNode} (hinner : inner ∈ field.type.node.walk)
    {typeId : String} {named : SemanticValueDeclaration} (hcopied : copied? inner = some typeId)
    (hnamed : api.declaration? typeId = some (.value named)) {other : String}
    (hother : Active api declaration.typeId other) :
    Relation.TransGen (Below api) typeId other := by
  have hrefers := Fields.refers_of_value (references_valid api) hdeclared hfield inner hinner
  have hvalue : inner = .valueRef typeId := by
    cases inner with
    | enumRef found =>
        obtain ⟨declaration, hfound, hkind, _⟩ := hrefers .enum found rfl
        obtain rfl := Option.some.inj hcopied
        obtain rfl := Option.some.inj (hfound.symm.trans hnamed)
        cases hkind
    | valueRef found => rw [Option.some.inj hcopied]
    | void => cases hcopied
    | scalar => cases hcopied
    | objectRef => cases hcopied
    | array => cases hcopied
    | nullable => cases hcopied
  have hbelow := below_of_field hdeclared hfield (hvalue ▸ hinner)
  rcases hother with rfl | hchain
  · exact .single hbelow
  · exact .head hbelow hchain

/-- Entering a value finds out about everything below it. -/
theorem checkFields_outcome (fuel : Nat) {declaration : SemanticValueDeclaration}
    (position : String) (hentered : Entered api.toFields checked)
    (hfuel : api.declarations.length < fuel + checked.length)
    (hdeclared : .value declaration ∈ api.declarations)
    (hsettled : Settled api route (Active api declaration.typeId) checked) :
    Outcome api route checked (route.checkFields api.toFields fuel checked declaration position)
      (Done api route declaration.typeId) (FieldsFail api route declaration position) := by
  induction fuel generalizing checked declaration position with
  | zero =>
      have hlength := hentered.length_le
      omega
  | succ fuel ih =>
      let kept : List String → Prop := fun state => Entered api.toFields state ∧
        checked.length ≤ state.length ∧ ∀ typeId ∈ state, typeId ∈ checked ∨ Done api route typeId
      have hstep : ∀ state, kept state → ∀ field ∈ declaration.fields,
          Outcome api route state
            (route.checkNode api.toFields (route.checkFields api.toFields fuel) state
              field.type.node s!"{position}.{field.name}")
            (Passes api route field.type.node)
            (Fails api route field.type.node s!"{position}.{field.name}") := by
        rintro state ⟨hstate, hgrows, hkept⟩ field hfield
        have hopen : Settled api route (Active api declaration.typeId) state := by
          intro typeId hmem
          rcases hkept typeId hmem with hbefore | hdone
          · exact hsettled typeId hbefore
          · exact .inl hdone
        exact checkNode_outcome
          (fun entered copied place henter hlarger hcopied hsettled =>
            ih place henter (by omega) hcopied hsettled)
          hstate hgrows hopen
          (fun inner hinner typeId named hcopied hnamed other hother =>
            above_of_field hdeclared hfield hinner hcopied hnamed hother) _
      have hfold := @foldlM_outcome _ _ _ _ declaration.fields kept
        (fun field => Passes api route field.type.node)
        (fun field => Fails api route field.type.node s!"{position}.{field.name}")
        (fun state hstate field hfield => ⟨fun next hnext => by
          obtain ⟨hpasses, hentered, hgrows, hkept⟩ :=
            (hstep state hstate field hfield).ok next hnext
          refine ⟨⟨hentered, hstate.2.1.trans hgrows, fun typeId hmem => ?_⟩, hpasses⟩
          rcases hkept typeId hmem with hbefore | hdone
          · exact hstate.2.2 typeId hbefore
          · exact .inr hdone, (hstep state hstate field hfield).error⟩)
        checked ⟨hentered, le_rfl, fun _ hmem => .inl hmem⟩
      rw [Route.checkFields]
      constructor
      · intro next hnext
        obtain ⟨⟨hentered, hgrows, hkept⟩, hpasses⟩ := hfold.1 next hnext
        refine ⟨?_, hentered, hgrows, hkept⟩
        intro found hfound field hfield
        have hself : api.declaration? declaration.typeId = some (.value declaration) :=
          (Fields.declaration?_eq_some (Fields.typeIds_nodup api.valid)).mpr ⟨hdeclared, rfl⟩
        obtain rfl := SemanticDeclaration.value.inj (Option.some.inj (hself.symm.trans hfound))
        exact hpasses field hfield
      · exact hfold.2

/-! ### What a route takes -/

theorem validateRoute_outcome (api : SemanticApi) (type : SemanticType)
    (source target : BackendFamily) (sourcePlace targetPlace : SourceProvenance) :
    let route : Route := ⟨source, target, sourcePlace.location, targetPlace.location⟩
    let result := api.validateRoute type source target sourcePlace targetPlace
    (result = .ok () → Passes api route type.node) ∧
      ∀ error, result = .error error → Fails api route type.node "value" error := by
  intro route
  have hentered : Entered api.toFields [] := ⟨List.nodup_nil, List.forall_mem_nil _⟩
  have houtcome := @checkNode_outcome api route 0 (fun _ => False) []
    (route.checkFields api.toFields api.declarations.length)
    (fun entered copied place henter hlarger hcopied hsettled =>
      checkFields_outcome api.declarations.length place henter (by omega) hcopied hsettled)
    hentered (Nat.zero_le _) (List.forall_mem_nil _) type.node
    (fun _ _ _ _ _ _ _ hactive => hactive.elim) "value"
  constructor
  · intro hok
    obtain ⟨next, hnext, _⟩ := bind_eq_ok.mp hok
    exact (houtcome.ok next hnext).1
  · intro error herror
    rcases bind_eq_error.mp herror with hnode | ⟨_, _, herror⟩
    · exact houtcome.error error hnode
    · exact absurd herror pure_ne_error

/-- No check runs out of fuel. -/
theorem Fails.ne_recursion {type : TypeNode} {position : String} {error : SemanticError}
    (hfails : Fails api route type position error) : error ≠ .recursion := by
  induction hfails with
  | array _ ih => exact ih
  | nullable _ ih => exact ih
  | field _ _ _ _ _ _ ih => exact ih
  | object herror =>
      rintro rfl
      rcases bind_eq_error.mp herror with hdeclared | ⟨declaration, _, hcheck⟩
      · exact declarationOf_ne_recursion hdeclared
      · rw [Route.checkObject] at hcheck
        rcases bind_eq_error.mp hcheck with hcross | ⟨_, _, hprojection⟩
        · cases (require_eq_error.mp hcross).2
        · cases (require_eq_error.mp hprojection).2
  | copied _ herror =>
      rintro rfl
      rcases bind_eq_error.mp herror with hdeclared | ⟨declaration, _, hcheck⟩
      · exact declarationOf_ne_recursion hdeclared
      · cases (require_eq_error.mp hcheck).2

/-- **A route takes a type when everything reached from it has what the route needs.** Otherwise it
complains about the first check that fails in a traversal that remembers nothing. -/
theorem validateRoute_iff (api : SemanticApi) (type : SemanticType) (source target : BackendFamily)
    (sourcePlace targetPlace : SourceProvenance) :
    let route : Route := ⟨source, target, sourcePlace.location, targetPlace.location⟩
    let result := api.validateRoute type source target sourcePlace targetPlace
    (result = .ok () ↔ ∀ node, Reachable api type.node node → route.Meets api node) ∧
      (∀ error, result = .error error ↔ Fails api route type.node "value" error) ∧
      result ≠ .error .recursion := by
  intro route result
  have houtcome := validateRoute_outcome api type source target sourcePlace targetPlace
  have haccepts : result = .ok () ↔ ∀ node, Reachable api type.node node →
    route.Meets api node := by
    constructor
    · intro hok node hreachable
      exact ((houtcome.1 hok).of_reachable hreachable).meets
    · intro hall
      cases hresult : result with
      | ok _ => rfl
      | error error =>
          obtain ⟨node, hreachable, hmeets⟩ := (houtcome.2 error hresult).exists_reachable
          exact absurd (hall node hreachable) hmeets
  refine ⟨haccepts, fun error => ⟨houtcome.2 error, fun hfails => ?_⟩, fun hresult =>
    (houtcome.2 _ hresult).ne_recursion rfl⟩
  cases hresult : result with
  | ok _ =>
      obtain ⟨node, hreachable, hmeets⟩ := hfails.exists_reachable
      exact absurd (haccepts.mp hresult node hreachable) hmeets
  | error found => rw [(houtcome.2 found hresult).unique hfails]

end SupernoteModule.Semantic.SemanticApi
