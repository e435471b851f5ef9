import SupernoteModule.Conversion.Plan
import SupernoteModule.Python.Collections

/-!
# The conversion plan of an API

`plan_api_conversion` plans every function and object method, every object constructor and every
field. It plans the objects and values in declared order and sorts what it got by identity.
-/

namespace SupernoteModule.Conversion

open SupernoteModule.Lib SupernoteModule.Python SupernoteModule.Semantic

structure ParameterConversion where
  name : String
  semanticType : SemanticType
  node : ConversionNode

/-! ### Bindings -/

structure BindingConversionPlan.Fields where
  bindingId : String
  parameters : List ParameterConversion
  resultType : SemanticType
  result : ConversionNode
  limits : ConversionLimits

/-- `BindingConversionPlan.__post_init__`. -/
def BindingConversionPlan.Fields.postInit (plan : BindingConversionPlan.Fields) :
    Except PlanError Unit := do
  require (plan.bindingId ≠ "") (.plan "binding conversion identity cannot be empty")
  require (plan.parameters.map (·.name)).Nodup
    (.plan "binding conversion parameters must be unique")

/-- The plan of one function or method. -/
structure BindingConversionPlan extends BindingConversionPlan.Fields where
  valid : toFields.postInit = .ok ()

namespace BindingConversionPlan

def make (plan : Fields) : Except PlanError BindingConversionPlan :=
  verified plan.postInit fun hvalid => { plan with valid := hvalid }

@[simp] theorem make_eq_ok {fields : Fields} {plan : BindingConversionPlan} :
    make fields = .ok plan ↔ plan.toFields = fields :=
  verified_eq_ok_of_fields (fun _ => rfl) (by rintro rfl; exact ⟨plan.valid, rfl⟩)

/-- `validate_binding`. -/
def validateBinding (plan : BindingConversionPlan) (binding : SemanticBinding) :
    Except PlanError Unit := do
  require (binding.bindingId = plan.bindingId) (.plan "conversion plan references another binding")
  require (plan.parameters.map (·.name) = binding.parameters.map (·.name))
    (.plan "conversion parameter order disagrees with semantics")
  require (¬ (plan.parameters.map (·.semanticType) ≠ binding.parameters.map (·.type) ∨
      plan.resultType ≠ binding.result))
    (.plan "conversion signature disagrees with semantics")

end BindingConversionPlan

/-! ### Constructors and fields -/

structure ConstructorConversionPlan where
  typeId : String
  publicName : String
  parameters : List ParameterConversion
  limits : ConversionLimits

structure FieldConversionPlan where
  fieldId : String
  ownerId : String
  publicName : String
  mutable : Bool
  node : ConversionNode

structure ApiConversionPlan where
  bindings : List BindingConversionPlan
  constructors : List ConstructorConversionPlan
  fields : List FieldConversionPlan
  limits : ConversionLimits

variable (api : SemanticApi) (limits : ConversionLimits)

def parameterConversions (parameters : List SemanticParameter) :
    Except PlanError (List ParameterConversion) :=
  parameters.mapM fun parameter => do
    let node ← planTypeConversion api parameter.type
    return ⟨parameter.name, parameter.type, node⟩

def planBindingConversion (binding : SemanticBinding) : Except PlanError BindingConversionPlan := do
  let parameters ← parameterConversions api binding.parameters
  let result ← planTypeConversion api binding.result
  let plan ← BindingConversionPlan.make
    ⟨binding.bindingId, parameters, binding.result, result, limits⟩
  plan.validateBinding binding
  return plan

def fieldConversion (field : SemanticField) : Except PlanError FieldConversionPlan := do
  let node ← planTypeConversion api field.type
  return ⟨field.fieldId, field.ownerId, field.name, field.mutable, node⟩

/-- The constructor of an object, when it has one. -/
def constructorConversion (declaration : SemanticDeclaration) :
    Except PlanError (Option ConstructorConversionPlan) :=
  match declaration.constructor? with
  | none => .ok none
  | some constructor => do
      let parameters ← parameterConversions api constructor.parameters
      return some ⟨declaration.typeId, declaration.name, parameters, limits⟩

/-- What one turn of the loop over the declarations appends to the constructors and the fields. -/
def declarationConversions (declaration : SemanticDeclaration) :
    Except PlanError (Option ConstructorConversionPlan × List FieldConversionPlan) := do
  let constructor ← constructorConversion api limits declaration
  let fields ← declaration.fields.mapM (fieldConversion api)
  return (constructor, fields)

/-- The functions, then the methods of the objects. -/
def plannedBindings : List SemanticBinding :=
  api.functions ++ api.declarations.flatMap (·.methods)

def planApiConversion : Except PlanError ApiConversionPlan := do
  let planned ← api.declarations.mapM (declarationConversions api limits)
  let bindings ←
    (sortedBy (·.bindingId) (plannedBindings api)).mapM (planBindingConversion api limits)
  return {
    bindings := bindings
    constructors := sortedBy (·.typeId) (planned.filterMap Prod.fst)
    fields := sortedBy (·.fieldId) (planned.flatMap Prod.snd)
    limits := limits
  }

end SupernoteModule.Conversion
