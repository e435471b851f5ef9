import SupernoteModule.Conversion.ApiPlan
import SupernoteModule.Semantic.Order
import SupernoteModule.Semantic.Route
import Mathlib.Order.WellFounded
import Mathlib.Logic.Relation

/-!
# Planning never fails

The checks of a semantic API exclude every error of the planner: its references meet declarations of
their kind, no value is below itself, and every record the planner names was checked on its own.
-/

namespace SupernoteModule.Conversion

open SupernoteModule.Lib SupernoteModule.Python SupernoteModule.Semantic SemanticApi

/-! ### What a type unfolds to -/

/-- A type and the tree without references that it stands for. An object is a leaf, an enum has its
constants, and a value has its fields in declared order. -/
inductive Unfolds (api : SemanticApi) : TypeNode → ConversionNode → Prop
  | void : Unfolds api .void .void
  | scalar (kind : ScalarKind) : Unfolds api (.scalar kind) (.scalar kind)
  | enum {typeId : String} {declaration : SemanticEnumDeclaration}
      (hdeclared : api.declaration? typeId = some (.enum declaration)) :
      Unfolds api (.enumRef typeId)
        (.enum declaration.typeId declaration.name declaration.constants)
  | object {typeId : String} {declaration : SemanticObjectDeclaration}
      (hdeclared : api.declaration? typeId = some (.object declaration)) :
      Unfolds api (.objectRef typeId) (.object declaration.typeId declaration.name)
  | value {typeId : String} {declaration : SemanticValueDeclaration}
      {fields : List (String × ConversionNode)}
      (hdeclared : api.declaration? typeId = some (.value declaration))
      (hnames : fields.map Prod.fst = declaration.fields.map (·.name))
      (hfields : ∀ field node, (field, node) ∈ declaration.fields.zip (fields.map Prod.snd) →
        Unfolds api field.type.node node) :
      Unfolds api (.valueRef typeId) (.value declaration.typeId declaration.name fields)
  | array {element : TypeNode} {node : ConversionNode} (helement : Unfolds api element node) :
      Unfolds api (.array element) (.array node)
  | nullable {inner : TypeNode} {node : ConversionNode} (hinner : Unfolds api inner node) :
      Unfolds api (.nullable inner) (.nullable node)

variable {api : SemanticApi}

/-! ### Values below values -/

/-- One value mentions the other in a field. -/
def Below (api : SemanticApi) (child parent : String) : Prop :=
  ∃ declaration, api.values.lookup parent = some declaration ∧
    child ∈ valueDependencies declaration

/-- The state of the search holds values with nothing but finite chains below them. -/
def Finished (api : SemanticApi) (complete : List String) : Prop :=
  ∀ typeId ∈ complete, Acc (Below api) typeId

theorem foldlM_finished {step : List String → String → Except SemanticError (List String)}
    (hstep : ∀ {complete next typeId}, Finished api complete → step complete typeId = .ok next →
      Finished api next ∧ typeId ∈ next ∧ complete ⊆ next)
    {typeIds complete final : List String} (hcomplete : Finished api complete)
    (hfold : typeIds.foldlM step complete = .ok final) :
    Finished api final ∧ typeIds ⊆ final ∧ complete ⊆ final := by
  induction typeIds generalizing complete with
  | nil =>
      obtain rfl : complete = final := by simpa [pure, Except.pure] using hfold
      exact ⟨hcomplete, List.nil_subset _, List.Subset.refl _⟩
  | cons typeId typeIds ih =>
      obtain ⟨next, htypeId, hrest⟩ := foldlM_cons_eq_ok.mp hfold
      obtain ⟨hnext, hmem, hkept⟩ := hstep hcomplete htypeId
      obtain ⟨hfinal, hrest, hlater⟩ := ih hnext hrest
      exact ⟨hfinal, List.cons_subset.mpr ⟨hlater hmem, hrest⟩, List.Subset.trans hkept hlater⟩

/-- A visit finishes the value after everything below it. -/
theorem visit_finished (fuel : Nat) {visiting complete next : List String} {typeId : String}
    (hcomplete : Finished api complete)
    (hvisit : visit (api.values.lookup ·) fuel visiting complete typeId = .ok next) :
    Finished api next ∧ typeId ∈ next ∧ complete ⊆ next := by
  induction fuel generalizing visiting complete next typeId with
  | zero => cases hvisit
  | succ fuel ih =>
      unfold visit at hvisit
      split at hvisit
      · rename_i hdone
        obtain rfl := Except.ok.inj hvisit
        exact ⟨hcomplete, hdone, List.Subset.refl _⟩
      split at hvisit
      · cases hvisit
      split at hvisit
      · cases hvisit
      rename_i declaration hdeclaration
      obtain ⟨before, hbefore, hnext⟩ := bind_eq_ok.mp hvisit
      obtain rfl := pure_eq_ok.mp hnext
      obtain ⟨hfinished, hdependencies, hkept⟩ :=
        foldlM_finished (fun hstate hstep => ih hstate hstep) hcomplete hbefore
      refine ⟨?_, List.mem_cons_self, List.Subset.trans hkept (List.subset_cons_self _ _)⟩
      intro other hother
      obtain rfl | hearlier := List.mem_cons.mp hother
      · constructor
        rintro child ⟨found, hfound, hchild⟩
        obtain rfl := Option.some.inj (hdeclaration.symm.trans hfound)
        exact hfinished child (hdependencies hchild)
      · exact hfinished other hearlier

/-- **No value of an accepted API is below itself.** -/
theorem below_wellFounded (api : SemanticApi) : WellFounded (Below api) := by
  have hcycles := (Fields.postInit_eq_ok.mp api.valid).2.2.2.2.2
  obtain ⟨complete, hfold, _⟩ := bind_eq_ok.mp hcycles
  have hempty : Finished api [] := by
    intro typeId hmem
    cases hmem
  obtain ⟨hfinished, hvisited, _⟩ :=
    foldlM_finished (fun hstate hstep => visit_finished _ hstate hstep) hempty hfold
  constructor
  intro typeId
  by_cases hvalue : typeId ∈ api.values.map Prod.fst
  · exact hfinished typeId (hvisited (mem_sortedSet.mpr hvalue))
  · constructor
    rintro child ⟨declaration, hfound, _⟩
    have hlisted := (lookup_eq_some_iff
      (Fields.values_nodup (Fields.typeIds_nodup api.valid))).mp hfound
    exact absurd (List.mem_map_of_mem hlisted) hvalue

/-! ### The planner -/

/-- What the fields of a value are planned as. -/
def FieldUnfolds (api : SemanticApi) (field : SemanticField) (planned : String × ConversionNode) :
    Prop :=
  planned.1 = field.name ∧ Unfolds api field.type.node planned.2

theorem unfolds_value {typeId : String} {declaration : SemanticValueDeclaration}
    {fields : List (String × ConversionNode)}
    (hdeclared : api.declaration? typeId = some (.value declaration))
    (hfields : List.Forall₂ (FieldUnfolds api) declaration.fields fields) :
    Unfolds api (.valueRef typeId) (.value declaration.typeId declaration.name fields) := by
  refine .value hdeclared ?_ ?_
  · exact map_eq_of_related hfields fun _ _ hfield => hfield.1
  · intro field node hzip
    have hnodes : List.Forall₂ (fun field node => Unfolds api field.type.node node)
        declaration.fields (fields.map Prod.snd) := by
      rw [List.forall₂_map_right_iff]
      exact hfields.imp fun _ _ hfield => hfield.2
    exact List.forall₂_zip hnodes hzip

theorem named_of_header {featureId typeId name : String}
    (hheader : validateDeclarationHeader featureId typeId name = .ok ()) :
    ConversionNode.named typeId name = .ok () := by
  simp only [validateDeclarationHeader, semanticTypeId, bind_eq_ok, exists_unit, require_eq_ok,
    validateIdentifier_eq_ok, pure_eq_ok] at hheader
  obtain ⟨_, hname, _, ⟨_, _, rfl⟩, rfl⟩ := hheader
  have hnonempty : name ≠ "" := ne_empty_of_isIdentifier hname
  simp only [ConversionNode.named, bind_eq_ok, exists_unit, require_eq_ok]
  exact ⟨hnonempty, by simp [toString, hnonempty], hnonempty⟩

theorem make_enum (declaration : SemanticEnumDeclaration) :
    ConversionNode.make (.enum declaration.typeId declaration.name declaration.constants) =
      .ok (.enum declaration.typeId declaration.name declaration.constants) := by
  have hvalid := declaration.valid
  simp only [SemanticEnumDeclaration.Fields.postInit, bind_eq_ok, exists_unit,
    require_eq_ok] at hvalid
  simp only [ConversionNode.make, ConversionNode.postInit, bind_eq_ok, exists_unit, require_eq_ok,
    pure_eq_ok]
  exact ⟨⟨named_of_header hvalid.1, hvalid.2.1⟩, trivial⟩

theorem make_object (declaration : SemanticObjectDeclaration) :
    ConversionNode.make (.object declaration.typeId declaration.name) =
      .ok (.object declaration.typeId declaration.name) := by
  have hvalid := declaration.valid
  simp only [SemanticObjectDeclaration.Fields.postInit, bind_eq_ok, exists_unit] at hvalid
  simp only [ConversionNode.make, ConversionNode.postInit, bind_eq_ok, exists_unit, pure_eq_ok]
  exact ⟨named_of_header hvalid.1, trivial⟩

theorem make_value {declaration : SemanticValueDeclaration}
    {fields : List (String × ConversionNode)}
    (hfields : List.Forall₂ (FieldUnfolds api) declaration.fields fields) :
    ConversionNode.make (.value declaration.typeId declaration.name fields) =
      .ok (.value declaration.typeId declaration.name fields) := by
  have hvalid := declaration.valid
  simp only [SemanticValueDeclaration.Fields.postInit, bind_eq_ok, exists_unit,
    require_eq_ok] at hvalid
  have hnonempty : ¬ fields.isEmpty := by
    rw [List.isEmpty_iff]
    rintro rfl
    exact hvalid.2.1 (List.forall₂_nil_right_iff.mp hfields)
  simp only [ConversionNode.make, ConversionNode.postInit, bind_eq_ok, exists_unit, require_eq_ok,
    pure_eq_ok]
  exact ⟨⟨named_of_header hvalid.1, hnonempty⟩, trivial⟩

/-- Inside one declaration: a type is planned as what it unfolds to, when the values it mentions
are. -/
theorem planNode_unfolds
    {expand : SemanticValueDeclaration → Except PlanError (List (String × ConversionNode))}
    {type : TypeNode} (hrefers : api.Refers (· ∈ api.declarations) type)
    (hexpand : ∀ declaration, .value declaration ∈ api.declarations →
      .valueRef declaration.typeId ∈ type.walk →
      ∃ fields, expand declaration = .ok fields ∧
        List.Forall₂ (FieldUnfolds api) declaration.fields fields) :
    ∃ node, planNode api expand type = .ok node ∧ Unfolds api type node := by
  induction type with
  | void => exact ⟨.void, rfl, .void⟩
  | scalar kind => exact ⟨.scalar kind, rfl, .scalar kind⟩
  | array element ih =>
      obtain ⟨node, hplan, hunfolds⟩ := ih hrefers.array fun declaration hdeclared hmentioned =>
        hexpand declaration hdeclared (List.mem_cons_of_mem _ hmentioned)
      refine ⟨.array node, ?_, .array hunfolds⟩
      simp only [planNode, bind_eq_ok, pure_eq_ok]
      exact ⟨node, hplan, rfl⟩
  | nullable inner ih =>
      obtain ⟨node, hplan, hunfolds⟩ := ih hrefers.nullable fun declaration hdeclared hmentioned =>
        hexpand declaration hdeclared (List.mem_cons_of_mem _ hmentioned)
      refine ⟨.nullable node, ?_, .nullable hunfolds⟩
      simp only [planNode, bind_eq_ok, pure_eq_ok]
      exact ⟨node, hplan, rfl⟩
  | enumRef typeId =>
      obtain ⟨declaration, hfound, hkind, _⟩ := hrefers _ List.mem_cons_self .enum typeId rfl
      cases declaration with
      | enum declaration =>
          refine ⟨_, ?_, .enum hfound⟩
          simp only [planNode, planNamed, hfound, bind_eq_ok, exists_unit, require_eq_ok]
          exact ⟨trivial, make_enum declaration⟩
      | value declaration => cases hkind
      | object declaration => cases hkind
  | objectRef typeId =>
      obtain ⟨declaration, hfound, hkind, _⟩ := hrefers _ List.mem_cons_self .object typeId rfl
      cases declaration with
      | object declaration =>
          refine ⟨_, ?_, .object hfound⟩
          simp only [planNode, planNamed, hfound, bind_eq_ok, exists_unit, require_eq_ok]
          exact ⟨trivial, make_object declaration⟩
      | enum declaration => cases hkind
      | value declaration => cases hkind
  | valueRef typeId =>
      obtain ⟨declaration, hfound, hkind, _⟩ := hrefers _ List.mem_cons_self .value typeId rfl
      obtain ⟨hdeclared, htypeId⟩ := mem_of_declaration? hfound
      cases declaration with
      | value declaration =>
          have hmentioned : TypeNode.valueRef declaration.typeId ∈
            (TypeNode.valueRef typeId).walk :=
            htypeId ▸ List.mem_cons_self
          obtain ⟨fields, hplan, hfields⟩ := hexpand declaration hdeclared hmentioned
          refine ⟨_, ?_, unfolds_value hfound hfields⟩
          simp only [planNode, planNamed, hfound, bind_eq_ok, exists_unit, require_eq_ok]
          exact ⟨trivial, fields, hplan, make_value hfields⟩
      | enum declaration => cases hkind
      | object declaration => cases hkind

theorem references_valid (api : SemanticApi) : api.validateNamedReferences = .ok () := by
  obtain ⟨_, _, _, _, hreferences, _⟩ := Fields.postInit_eq_ok.mp api.valid
  exact checkEach_eq_ok.mpr fun type htype => checkEach_eq_ok.mpr (hreferences type htype)

theorem below_of_field {declaration : SemanticValueDeclaration}
    (hdeclared : .value declaration ∈ api.declarations) {field : SemanticField}
    (hfield : field ∈ declaration.fields) {typeId : String}
    (hmentioned : .valueRef typeId ∈ field.type.node.walk) :
    Below api typeId declaration.typeId := by
  refine ⟨declaration, ?_, ?_⟩
  · rw [lookup_eq_some_iff (Fields.values_nodup (Fields.typeIds_nodup api.valid))]
    exact Fields.mem_values.mpr ⟨hdeclared, rfl⟩
  · rw [valueDependencies, mem_sortedSet, List.mem_filterMap]
    exact ⟨_, List.mem_flatMap.mpr ⟨field, hfield, hmentioned⟩, rfl⟩

/-- The values that are being expanded lie above the ones still to come, so none comes twice and the
fuel is enough. -/
theorem planType_unfolds (fuel : Nat) {activeValues : List String} {type : TypeNode}
    (hactive : Entered api.toFields activeValues)
    (hfuel : api.declarations.length < fuel + activeValues.length)
    (hrefers : api.Refers (· ∈ api.declarations) type)
    (habove : ∀ typeId, .valueRef typeId ∈ type.walk → ∀ active ∈ activeValues,
      Relation.TransGen (Below api) typeId active) :
    ∃ node, planType api fuel activeValues type = .ok node ∧ Unfolds api type node := by
  induction fuel generalizing activeValues type with
  | zero =>
      have hlength := hactive.length_le
      omega
  | succ fuel ih =>
      apply planNode_unfolds hrefers
      intro declaration hdeclared hmentioned
      have hchain := habove declaration.typeId hmentioned
      have hfresh : declaration.typeId ∉ activeValues := by
        intro hmem
        have hloop := hchain _ hmem
        exact (below_wellFounded api).transGen.asymmetric _ _ hloop hloop
      have hentered : Entered api.toFields (activeValues ++ [declaration.typeId]) := by
        refine ⟨List.concat_eq_append ▸ List.Nodup.concat hfresh hactive.1, ?_⟩
        intro typeId hmem
        obtain hbefore | hlast := List.mem_append.mp hmem
        · exact hactive.2 typeId hbefore
        · rw [List.mem_singleton.mp hlast]
          exact List.mem_map.mpr ⟨_, hdeclared, rfl⟩
      have hplan : ∀ field ∈ declaration.fields, ∀ index : Nat, ∃ planned,
          (do
            let node ← planType api fuel (activeValues ++ [declaration.typeId]) field.type.node
            return (field.name, node)) = Except.ok planned ∧ FieldUnfolds api field planned := by
        intro field hfield _
        have hbelow : ∀ typeId, .valueRef typeId ∈ field.type.node.walk →
            ∀ active ∈ activeValues ++ [declaration.typeId],
              Relation.TransGen (Below api) typeId active := by
          intro typeId hinner active hmem
          have hstep := below_of_field hdeclared hfield hinner
          obtain hbefore | hlast := List.mem_append.mp hmem
          · exact .head hstep (hchain active hbefore)
          · rw [List.mem_singleton.mp hlast]
            exact .single hstep
        obtain ⟨node, hnode, hunfolds⟩ := ih hentered
          (by rw [List.length_append, List.length_singleton]; omega)
          (Fields.refers_of_value (references_valid api) hdeclared hfield)
          hbelow
        refine ⟨(field.name, node), ?_, rfl, hunfolds⟩
        simp only [bind_eq_ok, pure_eq_ok]
        exact ⟨node, hnode, rfl⟩
      obtain ⟨fields, hfields, hrelated⟩ := enumerate_exists hplan 0
      refine ⟨fields, ?_, hrelated⟩
      simp only [bind_eq_ok, exists_unit, require_eq_ok]
      exact ⟨hfresh, hfields⟩

theorem planTypeConversion_unfolds {type : SemanticType} (htype : type ∈ api.allTypes) :
    ∃ node, planTypeConversion api type = .ok node ∧ Unfolds api type.node node := by
  apply planType_unfolds
  · exact ⟨List.nodup_nil, by simp⟩
  · simp
  · exact Fields.refers_of_valid (references_valid api) htype
  · intro typeId _ active hmem
    cases hmem

/-! ### The plan of the API -/

def ParameterUnfolds (api : SemanticApi) (parameter : SemanticParameter)
    (planned : ParameterConversion) : Prop :=
  planned.name = parameter.name ∧ planned.semanticType = parameter.type ∧
    Unfolds api parameter.type.node planned.node

structure BindingUnfolds (api : SemanticApi) (limits : ConversionLimits) (binding : SemanticBinding)
    (plan : BindingConversionPlan) : Prop where
  bindingId : plan.bindingId = binding.bindingId
  parameters : List.Forall₂ (ParameterUnfolds api) binding.parameters plan.parameters
  resultType : plan.resultType = binding.result
  result : Unfolds api binding.result.node plan.result
  limits : plan.limits = limits

/-- The plan of the constructor of an object. -/
structure ConstructorUnfolds (api : SemanticApi) (limits : ConversionLimits)
    (declaration : SemanticDeclaration) (plan : ConstructorConversionPlan) : Prop where
  typeId : plan.typeId = declaration.typeId
  publicName : plan.publicName = declaration.name
  parameters : ∃ constructor, declaration.constructor? = some constructor ∧
    List.Forall₂ (ParameterUnfolds api) constructor.parameters plan.parameters
  limits : plan.limits = limits

structure FieldPlanUnfolds (api : SemanticApi) (field : SemanticField)
    (plan : FieldConversionPlan) : Prop where
  fieldId : plan.fieldId = field.fieldId
  ownerId : plan.ownerId = field.ownerId
  publicName : plan.publicName = field.name
  mutable : plan.mutable = field.mutable
  node : Unfolds api field.type.node plan.node

/-- Every function, method, constructor and field of the API has its plan, and no plan is left
over. -/
structure ApiConversionPlan.Unfolds (api : SemanticApi) (limits : ConversionLimits)
    (plan : ApiConversionPlan) : Prop where
  bindings : List.Forall₂ (BindingUnfolds api limits)
    (sortedBy (·.bindingId) (plannedBindings api)) plan.bindings
  constructors : List.Forall₂ (ConstructorUnfolds api limits)
    (sortedBy (·.typeId) (api.declarations.filter (·.constructor?.isSome))) plan.constructors
  fields : List.Forall₂ (FieldPlanUnfolds api)
    (sortedBy (·.fieldId) (api.declarations.flatMap (·.fields))) plan.fields
  limits : plan.limits = limits

theorem parameterConversions_unfolds {parameters : List SemanticParameter}
    (htypes : ∀ parameter ∈ parameters, parameter.type ∈ api.allTypes) :
    ∃ planned, parameterConversions api parameters = .ok planned ∧
      List.Forall₂ (ParameterUnfolds api) parameters planned := by
  apply mapM_exists
  intro parameter hparameter
  obtain ⟨node, hnode, hunfolds⟩ := planTypeConversion_unfolds (htypes parameter hparameter)
  refine ⟨⟨parameter.name, parameter.type, node⟩, ?_, rfl, rfl, hunfolds⟩
  simp only [bind_eq_ok, pure_eq_ok]
  exact ⟨node, hnode, rfl⟩

theorem planBindingConversion_unfolds (limits : ConversionLimits) {binding : SemanticBinding}
    (htypes : ∀ type ∈ binding.types, type ∈ api.allTypes) :
    ∃ plan, planBindingConversion api limits binding = .ok plan ∧
      BindingUnfolds api limits binding plan := by
  obtain ⟨parameters, hparameters, hrelated⟩ := parameterConversions_unfolds fun parameter hmem =>
    htypes _ (List.mem_append_left _ (List.mem_map_of_mem hmem))
  obtain ⟨result, hresult, hunfolds⟩ :=
    planTypeConversion_unfolds (htypes _ (List.mem_append_right _ List.mem_cons_self))
  have hnames : parameters.map (·.name) = binding.parameters.map (·.name) :=
    map_eq_of_related hrelated fun _ _ hparameter => hparameter.1
  have hsemantic : parameters.map (·.semanticType) = binding.parameters.map (·.type) :=
    map_eq_of_related hrelated fun _ _ hparameter => hparameter.2.1
  have hvalid := binding.valid
  simp only [SemanticBinding.Fields.postInit, bind_eq_ok, exists_unit, require_eq_ok,
    rejectDuplicates_eq_ok] at hvalid
  obtain ⟨hid, _, _, hnodup, _⟩ := hvalid
  have hinit : BindingConversionPlan.Fields.postInit
      ⟨binding.bindingId, parameters, binding.result, result, limits⟩ = .ok () := by
    simp only [BindingConversionPlan.Fields.postInit, bind_eq_ok, exists_unit, require_eq_ok]
    exact ⟨hid, hnames ▸ hnodup⟩
  refine ⟨⟨_, hinit⟩, ?_, rfl, hrelated, rfl, hunfolds, rfl⟩
  simp only [planBindingConversion, bind_eq_ok, pure_eq_ok, BindingConversionPlan.make_eq_ok,
    exists_unit, BindingConversionPlan.validateBinding, require_eq_ok]
  exact ⟨parameters, hparameters, result, hresult, _, rfl, ⟨rfl, hnames, by simp [hsemantic]⟩, rfl⟩

theorem declarationConversions_unfolds (limits : ConversionLimits)
    {declaration : SemanticDeclaration} (hdeclared : declaration ∈ api.declarations) :
    ∃ planned, declarationConversions api limits declaration = .ok planned ∧
      List.Forall₂ (ConstructorUnfolds api limits)
        ([declaration].filter (·.constructor?.isSome)) planned.1.toList ∧
      List.Forall₂ (FieldPlanUnfolds api) declaration.fields planned.2 := by
  have htypes : ∀ type ∈ declarationTypes declaration, type ∈ api.allTypes := fun type htype =>
    List.mem_append_right _ (List.mem_flatMap.mpr ⟨_, hdeclared, htype⟩)
  have hfield : ∀ field ∈ declaration.fields, ∃ plan, fieldConversion api field = .ok plan ∧
      FieldPlanUnfolds api field plan := by
    intro field hmem
    obtain ⟨node, hnode, hunfolds⟩ := planTypeConversion_unfolds <| htypes field.type <|
      List.mem_append_left _ (List.mem_append_left _ (List.mem_map_of_mem hmem))
    refine ⟨⟨field.fieldId, field.ownerId, field.name, field.mutable, node⟩, ?_, rfl, rfl, rfl, rfl,
      hunfolds⟩
    simp only [fieldConversion, bind_eq_ok, pure_eq_ok]
    exact ⟨node, hnode, rfl⟩
  obtain ⟨fields, hfields, hrelated⟩ := mapM_exists hfield
  cases hconstructor : declaration.constructor? with
  | none =>
      refine ⟨(none, fields), ?_, by simp [hconstructor], hrelated⟩
      simp only [declarationConversions, constructorConversion, hconstructor, bind_eq_ok,
        pure_eq_ok]
      exact ⟨none, rfl, fields, hfields, rfl⟩
  | some constructor =>
      have hparameter : ∀ parameter ∈ constructor.parameters, parameter.type ∈ api.allTypes := by
        intro parameter hmem
        apply htypes
        apply List.mem_append_left
        apply List.mem_append_right
        rw [hconstructor]
        simpa using ⟨parameter, hmem, rfl⟩
      obtain ⟨parameters, hparameters, hall⟩ := parameterConversions_unfolds hparameter
      have hplan : ConstructorUnfolds api limits declaration
          ⟨declaration.typeId, declaration.name, parameters, limits⟩ :=
        ⟨rfl, rfl, ⟨constructor, hconstructor, hall⟩, rfl⟩
      refine ⟨(some _, fields), ?_, by simpa [hconstructor] using hplan, hrelated⟩
      simp only [declarationConversions, constructorConversion, hconstructor, bind_eq_ok,
        pure_eq_ok]
      exact ⟨_, ⟨parameters, hparameters, rfl⟩, fields, hfields, rfl⟩

theorem types_of_plannedBindings {binding : SemanticBinding}
    (hbinding : binding ∈ plannedBindings api) {type : SemanticType}
    (htype : type ∈ binding.types) : type ∈ api.allTypes := by
  obtain hfunction | hmethod := List.mem_append.mp hbinding
  · apply List.mem_append_left
    apply List.mem_append_left
    exact List.mem_flatMap.mpr ⟨binding, hfunction, htype⟩
  · obtain ⟨declaration, hdeclared, hmem⟩ := List.mem_flatMap.mp hmethod
    apply List.mem_append_right
    refine List.mem_flatMap.mpr ⟨declaration, hdeclared, ?_⟩
    exact List.mem_append_right _ (List.mem_flatMap.mpr ⟨binding, hmem, htype⟩)

/-- **Every accepted API has a conversion plan, and all of it is what the types unfold to.** -/
theorem planApiConversion_succeeds (api : SemanticApi) (limits : ConversionLimits) :
    ∃ plan, planApiConversion api limits = .ok plan ∧ plan.Unfolds api limits := by
  have hdeclaration : ∀ declaration ∈ api.declarations,
      ∃ planned, declarationConversions api limits declaration = .ok planned ∧
        List.Forall₂ (ConstructorUnfolds api limits)
          ([declaration].filter (·.constructor?.isSome)) planned.1.toList ∧
        List.Forall₂ (FieldPlanUnfolds api) declaration.fields planned.2 :=
    fun _ hdeclared => declarationConversions_unfolds limits hdeclared
  have hbinding : ∀ binding ∈ sortedBy (·.bindingId) (plannedBindings api),
      ∃ plan, planBindingConversion api limits binding = .ok plan ∧
        BindingUnfolds api limits binding plan :=
    fun binding hmem => planBindingConversion_unfolds limits fun type htype =>
      types_of_plannedBindings (mem_sortedBy.mp hmem) htype
  obtain ⟨planned, hplanned, hdeclarations⟩ := mapM_exists hdeclaration
  obtain ⟨bindings, hbindings, hrelated⟩ := mapM_exists hbinding
  have hconstructors : List.Forall₂ (ConstructorUnfolds api limits)
      (api.declarations.filter (·.constructor?.isSome)) (planned.filterMap Prod.fst) := by
    have hfilter : api.declarations.filter (·.constructor?.isSome) =
        api.declarations.flatMap fun declaration =>
          [declaration].filter (·.constructor?.isSome) := by
      rw [← List.filter_flatMap, List.flatMap_singleton']
    rw [hfilter, List.filterMap_eq_flatMap_toList]
    exact List.rel_flatMap hdeclarations fun _ _ hplan => hplan.1
  have hfields : List.Forall₂ (FieldPlanUnfolds api) (api.declarations.flatMap (·.fields))
      (planned.flatMap Prod.snd) := List.rel_flatMap hdeclarations fun _ _ hplan => hplan.2
  refine ⟨⟨bindings, sortedBy (·.typeId) (planned.filterMap Prod.fst),
    sortedBy (·.fieldId) (planned.flatMap Prod.snd), limits⟩, ?_, ?_⟩
  · simp only [planApiConversion, bind_eq_ok, pure_eq_ok]
    exact ⟨planned, hplanned, bindings, hbindings, rfl⟩
  · constructor
    · exact hrelated
    · exact forall₂_sortedBy (fun _ _ hplan => hplan.typeId) hconstructors
    · exact forall₂_sortedBy (fun _ _ hplan => hplan.fieldId) hfields
    · rfl

end SupernoteModule.Conversion
