import SupernoteModule.Frontend.CppRoutes
import SupernoteModule.Lib.Join
import SupernoteModule.Spec.MarkerAccount

/-!
# What a plan of C++ routes is for

A route belongs to one declaration of the source and to the record the projection made of it. The
native name of the route must be the qualified name of that declaration.
-/

namespace SupernoteModule.Frontend

open SupernoteModule.Lib SupernoteModule.Semantic

/-! ### Callables and fields -/

structure JoinsParameter (source : CppParameterSource) (parameter : SemanticParameter)
    (route : CppParameterRoute) : Prop where
  name : parameter.name = source.name ∧ route.name = source.name
  spelling : route.cppSpelling = source.typeSpelling
  type : route.semanticType = parameter.type

structure JoinsFunction (source : CppFunctionSource) (binding : SemanticBinding)
    (route : CppCallableRoute) : Prop where
  origin : binding.source = source.provenance
  identity : route.sourceDeclarationId = source.provenance.declarationId
  kind : route.kind = .function
  symbol : route.cppName = globalName source.qualifiedName
  holder : route.ownerCppType = none
  enclosing : route.cppNamespace = source.cppNamespace
  parameters : Joined JoinsParameter source.parameters binding.parameters route.parameters
  result : route.result = binding.result ∧ route.resultCppSpelling = source.returnTypeSpelling

structure JoinsMethod (owner : CppClassSource) (source : CppMethodSource)
    (binding : SemanticBinding) (route : CppCallableRoute) : Prop where
  origin : binding.source = source.provenance
  identity : route.sourceDeclarationId = source.provenance.declarationId
  kind : route.kind = if source.static then .staticMethod else .instanceMethod
  symbol : route.cppName = source.cppName
  holder : route.ownerCppType = some (globalName owner.qualifiedName)
  enclosing : route.cppNamespace = owner.cppNamespace
  parameters : Joined JoinsParameter source.parameters binding.parameters route.parameters
  result : route.result = binding.result ∧ route.resultCppSpelling = source.returnTypeSpelling

structure JoinsConstructor (owner : CppClassSource) (source : CppConstructorSource)
    (constructor : SemanticConstructor) (route : CppCallableRoute) : Prop where
  origin : constructor.source = source.provenance
  identity : route.sourceDeclarationId = source.provenance.declarationId
  kind : route.kind = .constructor
  symbol : route.cppName = globalName owner.qualifiedName
  holder : route.ownerCppType = some (globalName owner.qualifiedName)
  enclosing : route.cppNamespace = owner.cppNamespace
  parameters : Joined JoinsParameter source.parameters constructor.parameters route.parameters

structure JoinsField (source : CppFieldSource) (field : SemanticField)
    (route : CppFieldRoute) : Prop where
  origin : field.source = source.provenance
  identity : route.sourceDeclarationId = source.provenance.declarationId
  record : route.fieldId = field.fieldId ∧ route.publicName = field.name
  symbol : route.cppName = source.cppName
  spelling : route.cppSpelling = source.typeSpelling
  type : route.semanticType = field.type

/-! ### Types -/

/-- A declaration that the C++ front end found for a named type. -/
inductive CppTypeSource where
  | class_ (source : CppClassSource)
  | enum (source : CppEnumSource)

namespace CppTypeSource

def provenance : CppTypeSource → SourceProvenance
  | .class_ source => source.provenance
  | .enum source => source.provenance

def qualifiedName : CppTypeSource → String
  | .class_ source => source.qualifiedName
  | .enum source => source.qualifiedName

def includePath : CppTypeSource → String
  | .class_ source => source.includePath
  | .enum source => source.includePath

def object? : CppTypeSource → Option CppClassSource
  | .class_ source => if source.intent.declaresObject then some source else none
  | .enum _ => none

def value? : CppTypeSource → Option CppClassSource
  | .class_ source => if source.intent.declaresObject then none else some source
  | .enum _ => none

def enum? : CppTypeSource → Option CppEnumSource
  | .enum source => some source
  | .class_ _ => none

end CppTypeSource

/-- The declarations that give named types: the marked classes and the enumerations. -/
def typeSources (classes : List CppClassSource) (enums : List CppEnumSource) :
    List CppTypeSource :=
  (classes.filter (!·.isOwner)).map .class_ ++ enums.map .enum

structure JoinsType (source : CppTypeSource) (declaration : SemanticDeclaration)
    (route : CppNamedTypeRoute) : Prop where
  origin : declaration.projections.map (·.source) = [source.provenance]
  type : route.typeId = declaration.typeId ∧ route.publicName = declaration.name
  identity : route.sourceDeclarationId = source.provenance.declarationId
  symbol : route.cppType = globalName source.qualifiedName
  header : route.includePath = source.includePath

structure JoinsObject (source : CppClassSource) (declaration : SemanticObjectDeclaration)
    (route : CppObjectRoute) : Prop where
  type : JoinsType (.class_ source) (.object declaration) route.namedType
  construction : Joined (JoinsConstructor source) (source.constructors.filter (·.selected))
    declaration.constructor.toList route.constructor.toList
  methods : Joined (JoinsMethod source) source.generatedMethods declaration.methods route.methods
  fields : Joined JoinsField source.fields declaration.fields route.fields

structure JoinsValue (source : CppClassSource) (declaration : SemanticValueDeclaration)
    (route : CppValueRoute) : Prop where
  type : JoinsType (.class_ source) (.value declaration) route.namedType
  fields : Joined JoinsField source.fields declaration.fields route.fields

structure JoinsEnum (source : CppEnumSource) (declaration : SemanticEnumDeclaration)
    (route : CppEnumRoute) : Prop where
  type : JoinsType (.enum source) (.enum declaration) route.namedType
  constants : declaration.constants = source.constants ∧ route.constants = source.constants

/-- The route of a declaration, whatever its kind. -/
inductive JoinsDeclared : CppTypeSource → SemanticDeclaration → CppDeclaredRoute → Prop
  | object {source : CppClassSource} {declaration : SemanticObjectDeclaration}
      {route : CppObjectRoute} : source.intent.declaresObject →
        JoinsObject source declaration route →
        JoinsDeclared (.class_ source) (.object declaration) (.object route)
  | value {source : CppClassSource} {declaration : SemanticValueDeclaration}
      {route : CppValueRoute} : source.intent.declaresObject = false →
        JoinsValue source declaration route →
        JoinsDeclared (.class_ source) (.value declaration) (.value route)
  | enum {source : CppEnumSource} {declaration : SemanticEnumDeclaration} {route : CppEnumRoute} :
        JoinsEnum source declaration route →
        JoinsDeclared (.enum source) (.enum declaration) (.enum route)

/-! ### Plans -/

def objectDeclaration? : SemanticDeclaration → Option SemanticObjectDeclaration
  | .object declaration => some declaration
  | .enum _ | .value _ => none

def enumDeclaration? : SemanticDeclaration → Option SemanticEnumDeclaration
  | .enum declaration => some declaration
  | .value _ | .object _ => none

/-- The methods that have no route of their own, because the internal facade lowers them. -/
def ownedMethods (classes : List CppClassSource) : List CppMethodSource :=
  (classes.filter (·.isOwner)).flatMap (·.generatedMethods)

/-- Every record has one route, and the route is for the declaration the record comes from. -/
structure CppRoutePlan.Joins (plan : CppRoutePlan) (api : SemanticApi)
    (functions : List CppFunctionSource) (classes : List CppClassSource)
    (enums : List CppEnumSource) : Prop where
  functions : ∃ direct owned, api.functions = direct ++ owned ∧
    Joined JoinsFunction (markedFunctions functions) direct plan.functions ∧
    owned.map (·.source) = (ownedMethods classes).map (·.provenance)
  namedTypes : Joined JoinsType (typeSources classes enums) api.declarations plan.namedTypes
  objects : Joined JoinsObject (classes.filter (·.intent.declaresObject))
    (api.declarations.filterMap objectDeclaration?) plan.objects
  values : Joined JoinsValue
    (classes.filter fun source => !source.intent.declaresObject && source.intent.declaresValue)
    (api.declarations.filterMap (·.value?)) plan.values
  enums : Joined JoinsEnum enums (api.declarations.filterMap enumDeclaration?) plan.enums

/-! ### Sources that hide each other -/

/-- No later source takes the identity of one that is looked up. -/
def Unshadowed {Source : Type} (identity : Source → String) (wanted : Source → Prop)
    (sources : List Source) : Prop :=
  sources.Pairwise fun earlier later => wanted earlier → identity later ≠ identity earlier

instance {Source : Type} {identity : Source → String} {wanted : Source → Prop}
    [DecidablePred wanted] {sources : List Source} :
    Decidable (Unshadowed identity wanted sources) :=
  inferInstanceAs (Decidable (sources.Pairwise _))

/-- Sources whose identities lead back to them. Only a source without a marker of its own can be in
the way. -/
structure ClearIdentities (functions : List CppFunctionSource) (classes : List CppClassSource) :
    Prop where
  clearFunctions : Unshadowed (·.provenance.declarationId)
    (fun source => source.intent.role ≠ .ordinary) functions
  clearOwned : ∀ method ∈ ownedMethods classes, ∀ source ∈ functions,
  source.intent.role = .ordinary →
    source.provenance.declarationId ≠ method.provenance.declarationId
  clearClasses : Unshadowed (·.provenance.declarationId)
    (fun source => source.isOwner = false ∨ source.generatedMethods ≠ []) classes
  clearMethods : ∀ source ∈ classes, source.intent.declaresObject →
    Unshadowed (·.provenance.declarationId) (fun method => method.intent.role ≠ .ordinary)
      source.methods
  clearConstructors : ∀ source ∈ classes, source.intent.declaresObject →
    Unshadowed (·.provenance.declarationId) (fun constructor => constructor.selected = true)
      source.constructors

end SupernoteModule.Frontend
