import SupernoteModule.Proof.MarkerAccount
import SupernoteModule.Spec.CppRoutes

/-!
# Every record of a C++ API leads back to its declaration

Planning looks up by identity what projection had in hand. The identities of the scanners leave out
the namespace, so a lookup finds the right declaration only when no other one takes its identity.
-/

namespace SupernoteModule.Frontend

open SupernoteModule.Lib SupernoteModule.Semantic

/-! ### Names -/

/-! ### Object parameters -/

theorem kind_ne_objectRef_of_table {canonical : String} {semantic : SemanticType}
    (hfound : cppTypeTable.lookup canonical = some semantic) :
    semantic.node.kind ≠ .objectRef := by
  obtain ⟨before, after, htable, _⟩ := List.lookup_eq_some_iff.mp hfound
  have hmem : (canonical, semantic) ∈ cppTypeTable := by
    rw [htable]
    simp
  have hall : ∀ entry ∈ cppTypeTable, entry.2.node.kind ≠ .objectRef := by decide
  exact hall _ hmem

/-- A reference, or a shared pointer spelled out, is a way to pass an object. -/
theorem objectPassing_of_form {spelling : String}
    (hform : Python.endsWith (normalizedCppType spelling) "&" ∨
      Python.startsWith (normalizedCppType spelling) "std::shared_ptr<" ∧
        Python.endsWith (normalizedCppType spelling) ">") :
    ∃ passing, objectPassing spelling = .ok passing := by
  unfold objectPassing
  rcases hform with hreference | ⟨hstarts, hends⟩
  · simp only [hreference]
    split
    · exact ⟨_, rfl⟩
    · split
      · exact ⟨_, rfl⟩
      · split
        · exact ⟨_, rfl⟩
        · exact ⟨_, rfl⟩
  · simp only [hstarts, hends]
    split
    · exact ⟨_, rfl⟩
    · exact ⟨_, rfl⟩

theorem templateInner_eq_some {text template inner : String}
    (hinner : templateInner text template = some inner) :
    Python.startsWith text (template ++ "<") ∧ Python.endsWith text ">" := by
  unfold templateInner at hinner
  by_cases hshape : Python.startsWith text (template ++ "<") && Python.endsWith text ">"
  · simpa using hshape
  · simp [hshape] at hinner

theorem kind_of_semanticType {named : CppNamedType} {type : SemanticType}
    (hok : named.semanticType = .ok type) :
    type.node.kind = .objectRef ↔ named.kind = .object := by
  rw [CppNamedType.semanticType, semantically_eq_ok] at hok
  cases hkind : named.kind with
  | object =>
      rw [hkind] at hok
      simp [SemanticType.objectRef_eq_ok.mp hok, TypeNode.kind]
  | value =>
      rw [hkind] at hok
      simp [SemanticType.valueRef_eq_ok.mp hok, TypeNode.kind]
  | enum =>
      rw [hkind] at hok
      simp [SemanticType.enumRef_eq_ok.mp hok, TypeNode.kind]

/-- Where a parameter is a native object, its spelling says how it is passed. -/
theorem form_of_namedCppType {registry : CppTypeRegistry} {source : SourceProvenance}
    {cppNamespace : List String} {spelling canonical : String} {type : SemanticType}
    (hok : namedCppType registry source cppNamespace spelling canonical false .parameter = .ok type)
    (hkind : type.node.kind = .objectRef) :
    Python.endsWith canonical "&" ∨
      Python.startsWith canonical "std::shared_ptr<" ∧ Python.endsWith canonical ">" := by
  unfold namedCppType at hok
  by_cases hreference : Python.endsWith canonical "&"
  · exact .inl hreference
  refine .inr ?_
  simp only [hreference, bind_eq_ok] at hok
  obtain ⟨found, _, hok⟩ := hok
  cases found with
  | none => simp at hok
  | some named =>
      by_cases hobject : named.kind = .object
      · simp only [hobject, if_true, bind_eq_ok, requireObjectForm, require_eq_ok] at hok
        obtain ⟨_, hform, _⟩ := hok
        simp only [Bool.false_eq_true, if_false] at hform
        have hconst : Python.startsWith canonical "const " = false := by
          by_contra hconst
          simp [validObjectForm, hconst] at hform
        have hcore : Python.removePrefix canonical "const " = canonical := by
          simp [Python.removePrefix, hconst]
        rw [hcore] at hform
        cases hinner : templateInner canonical "std::shared_ptr" with
        | none => simp [validObjectForm, hinner] at hform
        | some inner => exact templateInner_eq_some hinner
      · simp only [hobject, if_false, bind_eq_ok] at hok
        obtain ⟨_, _, _, _, hok⟩ := hok
        exact absurd ((kind_of_semanticType hok).mp hkind) hobject

theorem exists_objectPassing {option : Option CppTypeRegistry} {source : SourceProvenance}
    {cppNamespace : List String} {spelling : String} {type : SemanticType}
    (hok : canonicalCppType option source cppNamespace spelling false .parameter = .ok type)
    (hkind : type.node.kind = .objectRef) :
    ∃ passing, objectPassing spelling = .ok passing := by
  apply objectPassing_of_form
  simp only [canonicalCppType, canonicalCppTypeFrom] at hok
  cases hfound : cppTypeTable.lookup (normalizedCppType spelling) with
  | some semantic =>
      simp only [hfound, bind_eq_ok, pure_eq_ok] at hok
      obtain ⟨_, _, rfl⟩ := hok
      exact absurd hkind (kind_ne_objectRef_of_table hfound)
  | none =>
      simp only [hfound] at hok
      cases option with
      | none => simp at hok
      | some registry =>
          cases hvector : templateInner (normalizedCppType spelling) "std::vector" with
          | some inner =>
              simp only [hvector, bind_eq_ok, semantically_eq_ok, SemanticType.array_eq_ok] at hok
              obtain ⟨element, _, hnode⟩ := hok
              simp [hnode, TypeNode.kind] at hkind
          | none =>
              cases hoptional : templateInner (normalizedCppType spelling) "std::optional" with
              | some inner =>
                  simp only [hvector, hoptional, bind_eq_ok, semantically_eq_ok,
                    SemanticType.nullable_eq_ok] at hok
                  obtain ⟨element, _, hnode⟩ := hok
                  simp [hnode, TypeNode.kind] at hkind
              | none =>
                  simp only [hvector, hoptional] at hok
                  exact form_of_namedCppType hok hkind

/-! ### Parameters -/

section Parameters

variable {registry : Option CppTypeRegistry} {source : SourceProvenance}
  {cppNamespace : List String} {sources : List CppParameterSource}
  {parameters : List SemanticParameter}

theorem exists_parameterRoute {parameter : CppParameterSource} {semantic : SemanticParameter}
    {type : SemanticType}
    (htype : canonicalCppType registry source cppNamespace parameter.typeSpelling false .parameter =
      .ok type)
    (hmade : semantic.toFields = ⟨parameter.name, type⟩) :
    ∃ route, parameterRoute semantic parameter = .ok route ∧
      JoinsParameter parameter semantic route := by
  have hname : semantic.name = parameter.name := by rw [hmade]
  have hsemantic : semantic.type = type := by rw [hmade]
  have hpassing : ∃ passing, parameterPassing semantic parameter = .ok passing ∧
      (semantic.type.node.kind = .objectRef ↔ passing.isSome) := by
    unfold parameterPassing
    by_cases hkind : semantic.type.node.kind = .objectRef
    · obtain ⟨passing, hok⟩ := exists_objectPassing htype (hsemantic ▸ hkind)
      refine ⟨some passing, ?_, by simp [hkind]⟩
      rw [if_pos hkind, hok]
      rfl
    · exact ⟨none, by rw [if_neg hkind], by simp [hkind]⟩
  obtain ⟨passing, hok, hdirect⟩ := hpassing
  refine ⟨⟨semantic.name, parameter.typeSpelling, semantic.type, passing, hdirect⟩, ?_,
    ⟨hname, hname⟩, rfl, rfl⟩
  simp only [parameterRoute, bind_eq_ok, require_eq_ok]
  refine ⟨(), hname, passing, hok, ?_⟩
  rw [CppParameterRoute.make, dif_pos hdirect]

theorem exists_parameterRoutes
    (hok : cppParameters registry source cppNamespace sources = .ok parameters) :
    ∃ routes, parameterRoutes parameters sources = .ok routes ∧
      Joined JoinsParameter sources parameters routes := by
  rw [cppParameters, mapM_eq_ok] at hok
  have hroutes : ∃ routes,
      (parameters.zip sources).mapM (fun entry => parameterRoute entry.1 entry.2) = .ok routes ∧
        Joined JoinsParameter sources parameters routes := by
    induction hok with
    | nil => exact ⟨[], rfl, .nil⟩
    | cons hhead _ ih =>
        simp only [bind_eq_ok, semantically_eq_ok, SemanticParameter.make_eq_ok] at hhead
        obtain ⟨type, htype, hmade⟩ := hhead
        obtain ⟨route, hroute, hjoins⟩ := exists_parameterRoute htype hmade
        obtain ⟨routes, hroutes, hjoined⟩ := ih
        refine ⟨route :: routes, ?_, .cons hjoins hjoined⟩
        simp only [List.zip_cons_cons, List.mapM_cons, bind_eq_ok, pure_eq_ok]
        exact ⟨route, hroute, routes, hroutes, rfl⟩
  obtain ⟨routes, hmapM, hjoined⟩ := hroutes
  refine ⟨routes, ?_, hjoined⟩
  simp only [parameterRoutes, bind_eq_ok, require_eq_ok]
  exact ⟨(), hok.length_eq.symm, hmapM⟩

end Parameters

/-! ### What a projection made of its sources -/

section Projected

variable {registry : CppTypeRegistry} {featureId : String}

/-- A declaration, and the marked type it comes from. -/
inductive ProjectedType (registry : CppTypeRegistry) (featureId : String) :
    CppTypeSource → SemanticDeclaration → Prop
  | object {source : CppClassSource} {declaration : SemanticObjectDeclaration} :
      source.intent.declaresObject → projectCppObject registry featureId source = .ok declaration →
        ProjectedType registry featureId (.class_ source) (.object declaration)
  | value {source : CppClassSource} {declaration : SemanticValueDeclaration} :
      source.intent.declaresObject = false → source.intent.declaresValue →
        projectCppValue registry featureId source = .ok declaration →
        ProjectedType registry featureId (.class_ source) (.value declaration)
  | enum {source : CppEnumSource} {declaration : SemanticEnumDeclaration} :
      projectCppEnum featureId source = .ok declaration →
        ProjectedType registry featureId (.enum source) (.enum declaration)

/-- A declaration has the one C++ projection its source gives it. -/
theorem ProjectedType.projections {source : CppTypeSource} {declaration : SemanticDeclaration}
    (hprojected : ProjectedType registry featureId source declaration) :
    ∃ projection, declaration.projections = [projection] ∧ projection.backend = .cpp ∧
      projection.source = source.provenance := by
  cases hprojected with
  | object _ hok =>
      simp only [projectCppObject, bind_eq_ok, semantically_eq_ok, SemanticProjection.make_eq_ok,
        SemanticObjectDeclaration.make_eq_ok] at hok
      obtain ⟨_, _, _, _, _, _, projection, hprojection, _, _, hmade⟩ := hok
      refine ⟨projection, ?_, by rw [hprojection], by rw [hprojection]; rfl⟩
      rw [SemanticDeclaration.projections, hmade]
  | value _ _ hok =>
      simp only [projectCppValue, bind_eq_ok, semantically_eq_ok, SemanticProjection.make_eq_ok,
        SemanticValueDeclaration.make_eq_ok] at hok
      obtain ⟨_, _, _, _, _, _, _, _, projection, hprojection, hmade⟩ := hok
      refine ⟨projection, ?_, by rw [hprojection], by rw [hprojection]; rfl⟩
      rw [SemanticDeclaration.projections, hmade]
  | enum hok =>
      simp only [projectCppEnum, bind_eq_ok, semantically_eq_ok, SemanticProjection.make_eq_ok,
        SemanticEnumDeclaration.make_eq_ok] at hok
      obtain ⟨_, _, projection, hprojection, hmade⟩ := hok
      refine ⟨projection, ?_, by rw [hprojection], by rw [hprojection]; rfl⟩
      rw [SemanticDeclaration.projections, hmade]

/-- The classes add their declarations and the methods of the unmarked ones, in order. -/
theorem projected_of_classes {classes : List CppClassSource} {api final : SemanticApi.Fields}
    (hok : classes.foldlM (projectCppClassSource registry featureId) api = .ok final) :
    ∃ owned declared,
      final = { api with
        functions := api.functions ++ owned, declarations := api.declarations ++ declared } ∧
      owned.map (·.source) = (ownedMethods classes).map (·.provenance) ∧
      (∀ binding ∈ owned, binding.kind = .function) ∧
      List.Forall₂ (ProjectedType registry featureId)
        ((classes.filter (!·.isOwner)).map .class_) declared := by
  induction classes generalizing api with
  | nil =>
      obtain rfl : api = final := by simpa [pure, Except.pure] using hok
      exact ⟨[], [], by simp, rfl, by simp, .nil⟩
  | cons source classes ih =>
      obtain ⟨next, hsource, hrest⟩ := foldlM_cons_eq_ok.mp hok
      obtain ⟨owned, declared, rfl, howned, hkinds, hdeclared⟩ := ih hrest
      rcases projectCppClassSource_cases hsource with ⟨hobject, declaration, hdeclaration, rfl⟩ |
        ⟨hobject, hvalue, declaration, hdeclaration, rfl⟩ | ⟨howner, bindings, hbindings, rfl⟩
      · have howner := isOwner_of_declares (.inl hobject)
        refine ⟨owned, .object declaration :: declared, by simp, ?_, hkinds, ?_⟩
        · rw [howned, ownedMethods, ownedMethods, List.filter_cons_of_neg (by simp [howner])]
        · rw [List.filter_cons_of_pos (by simp [howner]), List.map_cons]
          exact .cons (.object hobject hdeclaration) hdeclared
      · have howner := isOwner_of_declares (.inr hvalue)
        refine ⟨owned, .value declaration :: declared, by simp, ?_, hkinds, ?_⟩
        · rw [howned, ownedMethods, ownedMethods, List.filter_cons_of_neg (by simp [howner])]
        · rw [List.filter_cons_of_pos (by simp [howner]), List.map_cons]
          exact .cons (.value hobject hvalue hdeclaration) hdeclared
      · refine ⟨bindings ++ owned, declared, by simp, ?_, ?_, ?_⟩
        · have hsources := map_of_mapM (fun _ _ => source_of_projectImplementationMethod) hbindings
          rw [List.map_append, hsources, howned, ownedMethods, ownedMethods,
            List.filter_cons_of_pos howner, List.flatMap_cons, List.map_append]
        · intro binding hbinding
          rcases List.mem_append.mp hbinding with hfirst | hlater
          · obtain ⟨method, _, hmethod⟩ := exists_item_of_mem (mapM_eq_ok.mp hbindings) hfirst
            simp only [projectImplementationMethod, bind_eq_ok, semantically_eq_ok,
              SemanticBinding.make_eq_ok] at hmethod
            obtain ⟨_, _, _, _, hmade⟩ := hmethod
            rw [hmade]
          · exact hkinds binding hlater
        · rwa [List.filter_cons_of_neg (by simp [howner])]

theorem projected_of_functions {option : Option CppTypeRegistry}
    {functions : List CppFunctionSource} {bindings : List (Option SemanticBinding)}
    (hok : functions.mapM (projectCppFunction option) = .ok bindings) :
    List.Forall₂ (fun source binding => projectCppFunction option source = .ok (some binding))
      (markedFunctions functions) bindings.reduceOption := by
  rw [mapM_eq_ok] at hok
  induction hok with
  | nil => exact .nil
  | @cons source binding sources bindings hhead _ ih =>
      by_cases hrole : source.intent.role = .ordinary
      · obtain rfl : none = binding := by simpa [projectCppFunction, hrole] using hhead
        rw [List.reduceOption_cons_of_none, markedFunctions,
          List.filter_cons_of_neg (by simpa using hrole)]
        exact ih
      · rw [markedFunctions, List.filter_cons_of_pos (by simpa using hrole)]
        cases binding with
        | none =>
            simp only [projectCppFunction, if_neg hrole, bind_eq_ok, pure_eq_ok] at hhead
            obtain ⟨_, _, _, _, _, _, _, _, _, _, hnone⟩ := hhead
            cases hnone
        | some binding =>
            rw [List.reduceOption_cons_of_some]
            exact .cons hhead ih

end Projected

/-- An API with the sources its records come from. -/
structure ProjectedApi (registry : CppTypeRegistry) (featureId : String)
    (functions : List CppFunctionSource) (classes : List CppClassSource)
    (enums : List CppEnumSource) (api : SemanticApi.Fields) (direct owned : List SemanticBinding) :
    Prop where
  divided : api.functions = direct ++ owned
  ofFunctions : List.Forall₂
    (fun source binding => projectCppFunction registry source = .ok (some binding))
    (markedFunctions functions) direct
  ofOwners : owned.map (·.source) = (ownedMethods classes).map (·.provenance)
  ownedKinds : ∀ binding ∈ owned, binding.kind = .function
  ofTypes : List.Forall₂ (ProjectedType registry featureId) (typeSources classes enums)
    api.declarations

theorem exists_projectedApi {featureId : String} {functions : List CppFunctionSource}
    {classes : List CppClassSource} {enums : List CppEnumSource} {api : SemanticApi.Fields}
    (hok : projectCppFields featureId functions classes enums = .ok api) :
    ∃ registry direct owned,
      ProjectedApi registry featureId functions classes enums api direct owned := by
  simp only [projectCppFields, bind_eq_ok, pure_eq_ok] at hok
  obtain ⟨registry, _, bindings, hbindings, folded, hclasses, declared, henums, rfl⟩ := hok
  obtain ⟨owned, objects, rfl, howned, hkinds, hobjects⟩ := projected_of_classes hclasses
  refine ⟨registry, bindings.reduceOption, owned, rfl, projected_of_functions hbindings, howned,
    hkinds, ?_⟩
  rw [typeSources]
  apply List.rel_append hobjects
  rw [List.forall₂_map_left_iff, List.forall₂_map_right_iff]
  exact (mapM_eq_ok.mp henums).imp fun _ _ => .enum

/-! ### Types that cross -/

section Types

variable {registry : CppTypeRegistry} {featureId : String} {functions : List CppFunctionSource}
  {classes : List CppClassSource} {enums : List CppEnumSource} {api : SemanticApi}
  {direct owned : List SemanticBinding}

theorem cpp_mem_available
    (hprojected : ProjectedApi registry featureId functions classes enums api.toFields direct owned)
    {declaration : SemanticDeclaration} (hdeclared : declaration ∈ api.declarations) :
    .cpp ∈ SemanticApi.available declaration := by
  obtain ⟨source, _, hsource⟩ := exists_item_of_mem hprojected.ofTypes hdeclared
  obtain ⟨projection, hprojections, hbackend, _⟩ := hsource.projections
  rw [SemanticApi.available, hprojections, List.map_singleton, hbackend]
  exact List.mem_singleton_self _

/-- Every type of the API can be used between two C++ places. -/
theorem validateCppType_eq_ok
    (hprojected : ProjectedApi registry featureId functions classes enums api.toFields direct owned)
    {type : SemanticType} (htype : type ∈ api.allTypes) (place : SourceProvenance) :
    validateCppType api type place = .ok () := by
  have hvalid := api.valid
  simp only [SemanticApi.Fields.postInit, bind_eq_ok] at hvalid
  obtain ⟨_, _, _, _, _, _, _, _, _, hreferences, _⟩ := hvalid
  have hopen : api.toFields.OpenTo ⟨.cpp, .cpp, place.location, place.location⟩
      (· ∈ api.declarations) := by
    constructor
    · intro declaration hdeclared _
      have hcpp := cpp_mem_available hprojected hdeclared
      exact ⟨hcpp, hcpp, fun _ => rfl⟩
    · intro declaration hdeclared _ field hfield
      exact SemanticApi.Fields.refers_of_value hreferences hdeclared hfield
  have hroute := SemanticApi.Fields.validateRoute_of_open hopen
    (SemanticApi.Fields.refers_of_valid hreferences htype)
  rw [validateCppType, hroute]
  rfl

theorem validateCppBinding_eq_ok
    (hprojected : ProjectedApi registry featureId functions classes enums api.toFields direct owned)
    {binding : SemanticBinding} (htypes : ∀ type ∈ binding.types, type ∈ api.allTypes) :
    validateCppBinding api binding = .ok () := by
  simp only [validateCppBinding, bind_eq_ok, checkEach_eq_ok]
  refine ⟨(), ?_, ?_⟩
  · intro parameter hparameter
    apply validateCppType_eq_ok hprojected
    apply htypes
    exact List.mem_append_left _ (List.mem_map_of_mem hparameter)
  · apply validateCppType_eq_ok hprojected
    apply htypes
    exact List.mem_append_right _ (List.mem_singleton_self _)

theorem types_of_function {binding : SemanticBinding} (hbinding : binding ∈ api.functions) :
    ∀ type ∈ binding.types, type ∈ api.allTypes := by
  intro type htype
  apply List.mem_append_left
  apply List.mem_append_left
  exact List.mem_flatMap.mpr ⟨binding, hbinding, htype⟩

theorem types_of_declaration {declaration : SemanticDeclaration}
    (hdeclared : declaration ∈ api.declarations) {type : SemanticType}
    (htype : type ∈ SemanticApi.declarationTypes declaration) : type ∈ api.allTypes :=
  List.mem_append_right _ (List.mem_flatMap.mpr ⟨declaration, hdeclared, htype⟩)

end Types

/-! ### Functions -/

section Functions

variable {registry : CppTypeRegistry} {owner : CppClassSource} {ownerId : String}

theorem exists_functionRoute {source : CppFunctionSource} {binding : SemanticBinding}
    (hok : projectCppFunction registry source = .ok (some binding)) :
    binding.kind = .function ∧ binding.source = source.provenance ∧
      ∃ route, functionRoute binding source = .ok route ∧ JoinsFunction source binding route := by
  unfold projectCppFunction at hok
  by_cases hrole : source.intent.role = .ordinary
  · simp [hrole] at hok
  simp only [if_neg hrole, bind_eq_ok, pure_eq_ok, semantically_eq_ok,
    SemanticBinding.make_eq_ok] at hok
  obtain ⟨_, _, _, _, parameters, hparameters, result, _, made, hmade, hbinding⟩ := hok
  obtain rfl : made = binding := by simpa using hbinding
  obtain ⟨routes, hroutes, hjoined⟩ := exists_parameterRoutes hparameters
  have hsource : made.source = source.provenance := by rw [hmade]
  refine ⟨by rw [hmade], hsource, ?_⟩
  simp only [functionRoute, requireSource, bind_eq_ok, require_eq_ok, pure_eq_ok]
  refine ⟨_, ⟨(), by rw [hsource], routes, ?_, rfl⟩, hsource, rfl, rfl, rfl, rfl, rfl, ?_, rfl, rfl⟩
  · rw [hmade]
    exact hroutes
  · rw [hmade]
    exact hjoined

theorem exists_methodRoute {source : CppMethodSource} {binding : SemanticBinding}
    (hok : projectCppMethod registry owner ownerId source = .ok binding) :
    binding.source = source.provenance ∧ source.intent.role ≠ .ordinary ∧
      ∃ route, methodRoute binding source owner = .ok route ∧
        JoinsMethod owner source binding route := by
  simp only [projectCppMethod, bind_eq_ok, require_eq_ok, semantically_eq_ok,
    SemanticBinding.make_eq_ok] at hok
  obtain ⟨_, hrole, parameters, hparameters, result, _, hmade⟩ := hok
  obtain ⟨routes, hroutes, hjoined⟩ := exists_parameterRoutes hparameters
  have hsource : binding.source = source.provenance := by rw [hmade]
  have hkind : methodKind binding.memberScope =
      if source.static then .staticMethod else .instanceMethod := by
    rw [hmade]
    cases source.static <;> rfl
  refine ⟨hsource, hrole, ?_⟩
  simp only [methodRoute, requireSource, bind_eq_ok, require_eq_ok, pure_eq_ok]
  refine ⟨_, ⟨(), by rw [hsource], (), ?_, routes, ?_, rfl⟩,
    hsource, rfl, hkind, rfl, rfl, rfl, ?_, rfl, rfl⟩
  · rw [hkind]
    cases source.static <;> rfl
  · rw [hmade]
    exact hroutes
  · rw [hmade]
    exact hjoined

theorem exists_fieldRoute {source : CppFieldSource} {field : SemanticField}
    (hok : cppSemanticField registry owner ownerId source = .ok field) (copiedProjection : Bool) :
    field.source = source.provenance ∧ field.name = source.cppName ∧
      ∃ route, fieldRoute field source copiedProjection = .ok route ∧
        JoinsField source field route := by
  simp only [cppSemanticField, bind_eq_ok, semantically_eq_ok, SemanticField.make_eq_ok] at hok
  obtain ⟨_, _, _, _, _, _, type, _, hmade⟩ := hok
  have hsource : field.source = source.provenance := by rw [hmade]
  have hname : field.name = source.cppName := by rw [hmade]
  have hmutable : field.mutable = source.mutable := by rw [hmade]
  refine ⟨hsource, hname, ?_⟩
  cases copiedProjection with
  | true =>
      simp only [fieldRoute, if_true, bind_eq_ok, require_eq_ok, pure_eq_ok]
      exact ⟨_, ⟨(), hname, (), .inl trivial, rfl⟩, hsource, rfl, ⟨rfl, rfl⟩, rfl, rfl, rfl⟩
  | false =>
      simp only [fieldRoute, Bool.false_eq_true, if_false, requireSource, bind_eq_ok,
        require_eq_ok, pure_eq_ok]
      exact ⟨_, ⟨(), by rw [hsource], (), .inr hmutable, rfl⟩,
        hsource, rfl, ⟨rfl, rfl⟩, rfl, rfl, rfl⟩

end Functions

/-! ### Declarations -/

section Declarations

variable {registry : CppTypeRegistry} {featureId : String} {functions : List CppFunctionSource}
  {classes : List CppClassSource} {enums : List CppEnumSource} {api : SemanticApi}
  {direct owned : List SemanticBinding} {owner : CppClassSource}

theorem nodup_sourceIds (api : SemanticApi) : api.toFields.sourceIds.Nodup := by
  have hvalid := api.valid
  simp only [SemanticApi.Fields.postInit, bind_eq_ok, rejectDuplicates_eq_ok] at hvalid
  obtain ⟨_, _, _, _, _, hsources, _⟩ := hvalid
  exact hsources

theorem nodup_declarationSourceIds (api : SemanticApi) :
    (api.declarations.flatMap SemanticApi.declarationSourceIds).Nodup :=
  (nodup_sourceIds api).sublist (List.sublist_append_right _ _)

theorem nodup_typeSources
    (hprojected : ProjectedApi registry featureId functions classes enums api.toFields direct
      owned) :
    ((typeSources classes enums).map (·.provenance.declarationId)).Nodup := by
  refine nodup_map_of_related hprojected.ofTypes ?_ (nodup_declarationSourceIds api)
  intro source declaration hsource
  obtain ⟨projection, hprojections, _, hplace⟩ := hsource.projections
  apply List.mem_append_left
  apply List.mem_append_left
  rw [hprojections, List.map_singleton, hplace]
  exact List.mem_singleton_self _

theorem exists_objectRef {typeId : String} (hnonempty : typeId ≠ "") :
    ∃ type, SemanticType.objectRef typeId = .ok type := by
  have hvalid : (TypeNode.objectRef typeId).Valid := by
    rw [TypeNode.Valid.eq_def]
    exact require_eq_ok.mpr hnonempty
  exact ⟨⟨.objectRef typeId, hvalid⟩, SemanticType.objectRef_eq_ok.mpr rfl⟩

theorem ne_empty_of_semanticTypeId {publicName typeId : String}
    (hok : semanticTypeId featureId publicName = .ok typeId) : typeId ≠ "" := by
  simp only [semanticTypeId, bind_eq_ok, require_eq_ok, pure_eq_ok] at hok
  obtain ⟨_, hfeature, _, _, rfl⟩ := hok
  intro hempty
  have hlength := congrArg String.length hempty
  rw [String.length_append, String.length_append] at hlength
  have hcolons : (toString ":type:").length = 6 := rfl
  have hnothing : "".length = 0 := rfl
  omega

theorem exists_constructorRoute
    (hprojected : ProjectedApi registry featureId functions classes enums api.toFields direct owned)
    {declaration : SemanticObjectDeclaration} (hdeclared : .object declaration ∈ api.declarations)
    (hselected : selectedObjectConstructor registry owner = .ok declaration.constructor)
    (htypeId : declaration.typeId ≠ "")
    (hclear : Unshadowed (·.provenance.declarationId)
      (fun constructor => constructor.selected = true) owner.constructors) :
    ∃ route, planCppConstructor api owner declaration = .ok route ∧
      Joined (JoinsConstructor owner) (owner.constructors.filter (·.selected))
        declaration.constructor.toList route.toList := by
  unfold selectedObjectConstructor at hselected
  cases hfilter : owner.constructors.filter (·.selected) with
  | nil =>
      have hnone : none = declaration.constructor := by simpa [hfilter] using hselected
      refine ⟨none, ?_, ?_⟩
      · rw [planCppConstructor, ← hnone]
      · rw [← hnone]
        exact .nil
  | cons source rest =>
      cases rest with
      | cons second rest => simp [hfilter] at hselected
      | nil =>
          simp only [hfilter, bind_eq_ok, require_eq_ok, pure_eq_ok, demand_eq_ok,
            semantically_eq_ok, SemanticConstructor.make_eq_ok] at hselected
          obtain ⟨_, _, option, hoption, parameters, rfl, constructor, hmade, hconstructor⟩ :=
            hselected
          have hparameters : cppParameters registry source.provenance owner.cppNamespace
              source.parameters = .ok parameters := by
            unfold constructorParameters at hoption
            split at hoption
            · rename_i found hfound
              obtain rfl : found = parameters := by simpa using hoption
              exact hfound
            · split at hoption <;> simp at hoption
          obtain ⟨routes, hroutes, hjoined⟩ := exists_parameterRoutes hparameters
          have hmem : source ∈ owner.constructors.filter (·.selected) := by simp [hfilter]
          obtain ⟨hlisted, hmarked⟩ := List.mem_filter.mp hmem
          have hfound := Python.lookup_dictOf hclear hlisted hmarked
          have hplace : constructor.source = source.provenance := by rw [hmade]
          obtain ⟨result, hresult⟩ := exists_objectRef htypeId
          have htypes : ∀ parameter ∈ constructor.parameters,
              validateCppType api parameter.type constructor.source = .ok () := by
            intro parameter hparameter
            apply validateCppType_eq_ok hprojected
            apply types_of_declaration hdeclared
            apply List.mem_append_left
            apply List.mem_append_right
            rw [SemanticDeclaration.constructor?, ← hconstructor]
            exact List.mem_flatMap.mpr
              ⟨constructor, List.mem_singleton_self _, List.mem_map_of_mem hparameter⟩
          simp only [planCppConstructor, ← hconstructor, bind_eq_ok, checkEach_eq_ok, demand_eq_ok,
            constructorRoute, requireSource, require_eq_ok, semantically_eq_ok, pure_eq_ok]
          refine ⟨_, ⟨(), htypes, source, ?_, _, ⟨(), ?_, routes, ?_, result, hresult, rfl⟩, rfl⟩,
            ?_⟩
          · rw [hplace]
            exact hfound
          · rw [hplace]
          · rw [hmade]
            exact hroutes
          · refine .single ⟨hplace, rfl, rfl, rfl, rfl, rfl, ?_⟩
            rw [hmade]
            exact hjoined

theorem nodup_fieldSources {declaration : SemanticDeclaration} {sources : List CppFieldSource}
    (hdeclared : declaration ∈ api.declarations)
    (hsources : declaration.fields.map (·.source) = sources.map (·.provenance)) :
    (sources.map (·.provenance.declarationId)).Nodup := by
  have hnodup := (List.nodup_flatMap.mp (nodup_declarationSourceIds api)).1 declaration hdeclared
  have hfields := hnodup.sublist (List.sublist_append_right _ _)
  have hids := congrArg (List.map fun place : SourceProvenance => place.declarationId) hsources
  rw [List.map_map, List.map_map] at hids
  exact hids ▸ hfields

/-- **An object has its route**, with one of its constructor and one of every method and field. -/
theorem exists_objectRoute
    (hprojected : ProjectedApi registry featureId functions classes enums api.toFields direct owned)
    {declaration : SemanticObjectDeclaration} (hdeclared : .object declaration ∈ api.declarations)
    (hobject : owner.intent.declaresObject)
    (hok : projectCppObject registry featureId owner = .ok declaration)
    (hmethods : Unshadowed (·.provenance.declarationId)
      (fun method => method.intent.role ≠ .ordinary) owner.methods)
    (hconstructors : Unshadowed (·.provenance.declarationId)
      (fun constructor => constructor.selected = true) owner.constructors) :
    ∃ route, planCppObject api owner declaration = .ok route ∧
      JoinsObject owner declaration route := by
  obtain ⟨projection, hprojections, _, hplace⟩ :=
    (ProjectedType.object hobject hok).projections
  simp only [projectCppObject, bind_eq_ok, semantically_eq_ok, SemanticProjection.make_eq_ok,
    SemanticObjectDeclaration.make_eq_ok] at hok
  obtain ⟨typeId, htypeId, methods, hbindings, fields, hfields, _, _, constructor, hconstructor,
    hmade⟩ := hok
  have hmethodsMade : declaration.methods = methods := by rw [hmade]
  have hfieldsMade : declaration.fields = fields := by rw [hmade]
  have hconstructorMade : declaration.constructor = constructor := by rw [hmade]
  have htypeIdMade : declaration.typeId = typeId := by rw [hmade]
  subst hmethodsMade hfieldsMade hconstructorMade htypeIdMade
  obtain ⟨constructorRoute, hconstructorRoute, hconstruction⟩ := exists_constructorRoute hprojected
    hdeclared hconstructor (ne_empty_of_semanticTypeId htypeId) hconstructors
  obtain ⟨methodRoutes, hmethodRoutes, hmethodsJoined⟩ :=
    Joined.exists_of_mapM (JoinsMethod owner) (planCppMethod api owner)
      (mapM_eq_ok.mp hbindings) (by
        intro source hsource binding hbinding hprojection
        obtain ⟨horigin, hrole, route, hroute, hjoins⟩ := exists_methodRoute hprojection
        have hlisted : source ∈ owner.methods := (List.mem_filter.mp hsource).1
        have hfound := Python.lookup_dictOf hmethods hlisted hrole
        refine ⟨route, ?_, hjoins⟩
        simp only [planCppMethod, bind_eq_ok, demand_eq_ok]
        refine ⟨(), validateCppBinding_eq_ok hprojected ?_, source, by rwa [horigin], hroute⟩
        intro type htype
        apply types_of_declaration hdeclared
        apply List.mem_append_right
        exact List.mem_flatMap.mpr ⟨binding, hbinding, htype⟩)
  have hplaces := map_of_mapM (fun _ _ hfield => (source_of_cppSemanticField hfield).1) hfields
  have hnodup := nodup_fieldSources hdeclared hplaces
  obtain ⟨fieldRoutes, hfieldRoutes, hfieldsJoined⟩ :=
    Joined.exists_of_mapM JoinsField (planCppField api owner)
      (mapM_eq_ok.mp hfields) (by
        intro source hsource field hfield hprojection
        obtain ⟨horigin, _, route, hroute, hjoins⟩ := exists_fieldRoute hprojection false
        have hfound := Python.lookup_dictOf_of_nodup hnodup hsource
        refine ⟨route, ?_, hjoins⟩
        simp only [planCppField, bind_eq_ok, demand_eq_ok]
        refine ⟨(), validateCppType_eq_ok hprojected ?_ _, source, by rwa [horigin], hroute⟩
        apply types_of_declaration hdeclared
        apply List.mem_append_left
        apply List.mem_append_left
        exact List.mem_map_of_mem hfield)
  simp only [planCppObject, bind_eq_ok, pure_eq_ok]
  refine ⟨_, ⟨constructorRoute, hconstructorRoute, methodRoutes, hmethodRoutes, fieldRoutes,
    hfieldRoutes, rfl⟩, ⟨?_, ⟨rfl, rfl⟩, rfl, rfl, rfl⟩, hconstruction, hmethodsJoined,
    hfieldsJoined⟩
  rw [hprojections, List.map_singleton, hplace]

theorem exists_valueRoute {declaration : SemanticValueDeclaration}
    (hobject : owner.intent.declaresObject = false) (hvalue : owner.intent.declaresValue)
    (hok : projectCppValue registry featureId owner = .ok declaration) :
    ∃ route, planCppValue owner declaration = .ok route ∧ JoinsValue owner declaration route := by
  obtain ⟨projection, hprojections, _, hplace⟩ :=
    (ProjectedType.value hobject hvalue hok).projections
  simp only [projectCppValue, bind_eq_ok, semantically_eq_ok,
    SemanticValueDeclaration.make_eq_ok] at hok
  obtain ⟨_, _, _, _, _, _, fields, hfields, _, _, hmade⟩ := hok
  have hfieldsMade : declaration.fields = fields := by rw [hmade]
  subst hfieldsMade
  have hnames : declaration.fields.map (·.name) = owner.fields.map (·.cppName) :=
    map_eq_of_related (mapM_eq_ok.mp hfields) fun _ _ hfield =>
      (exists_fieldRoute hfield true).2.1
  have hnodup : (owner.fields.map (·.cppName)).Nodup := by
    have hvalid := declaration.valid
    simp only [SemanticValueDeclaration.Fields.postInit, validateFields, bind_eq_ok,
      rejectDuplicates_eq_ok] at hvalid
    obtain ⟨_, _, _, _, _, ⟨_, _, _, _, hdistinct⟩, _⟩ := hvalid
    exact hnames ▸ hdistinct
  obtain ⟨routes, hroutes, hjoined⟩ :=
    Joined.exists_of_mapM JoinsField (fun field : SemanticField => do
        let source ← demand ((Python.dictOf CppFieldSource.cppName owner.fields).lookup field.name)
          (.route s!"missing C++ value field source for {Python.repr declaration.name}")
        fieldRoute field source true)
      (mapM_eq_ok.mp hfields) (by
        intro source hsource field _ hprojection
        obtain ⟨_, hname, route, hroute, hjoins⟩ := exists_fieldRoute hprojection true
        have hfound := Python.lookup_dictOf_of_nodup hnodup hsource
        refine ⟨route, ?_, hjoins⟩
        simp only [bind_eq_ok, demand_eq_ok]
        exact ⟨source, by rwa [hname], hroute⟩)
  simp only [planCppValue, bind_eq_ok, pure_eq_ok]
  refine ⟨_, ⟨routes, hroutes, rfl⟩, ⟨?_, ⟨rfl, rfl⟩, rfl, rfl, rfl⟩, hjoined⟩
  rw [hprojections, List.map_singleton, hplace]

theorem mem_of_typeSource (hsource : .class_ owner ∈ typeSources classes enums) :
    owner ∈ classes := by
  simp only [typeSources, List.mem_append, List.mem_map, List.mem_filter] at hsource
  rcases hsource with ⟨source, ⟨hmem, _⟩, hsame⟩ | ⟨source, _, hsame⟩
  · cases hsame
    exact hmem
  · cases hsame

theorem mem_of_enumSource {source : CppEnumSource}
    (hsource : .enum source ∈ typeSources classes enums) : source ∈ enums := by
  simp only [typeSources, List.mem_append, List.mem_map] at hsource
  rcases hsource with ⟨_, _, hsame⟩ | ⟨_, hmem, hsame⟩
  · cases hsame
  · cases hsame
    exact hmem

/-- **Every declaration has its route**, when its class is not hidden by another one. -/
theorem exists_declaredRoute
    (hprojected : ProjectedApi registry featureId functions classes enums api.toFields direct owned)
    (hclear : ClearIdentities functions classes) {source : CppTypeSource}
    (hsource : source ∈ typeSources classes enums) {declaration : SemanticDeclaration}
    (hdeclared : declaration ∈ api.declarations)
    (htype : ProjectedType registry featureId source declaration) :
    ∃ output, planCppDeclaration api
        (Python.dictOf (fun source : CppClassSource => source.provenance.declarationId) classes)
        (Python.dictOf (fun source : CppEnumSource => source.provenance.declarationId) enums)
        declaration = .ok output ∧
      ∃ route, output = some route ∧ JoinsDeclared source declaration route := by
  have hids := nodup_typeSources hprojected
  obtain ⟨projection, hprojections, hbackend, hplace⟩ := htype.projections
  have hcpp : declaration.projections.filter (·.backend = .cpp) = [projection] := by
    rw [hprojections, List.filter_cons_of_pos (by simpa using hbackend), List.filter_nil]
  cases htype with
  | @object owner declaration hobject hok =>
      have hmem := mem_of_typeSource hsource
      have hfound := Python.lookup_dictOf hclear.clearClasses hmem
        (.inl (isOwner_of_declares (.inl hobject)))
      obtain ⟨route, hroute, hjoins⟩ := exists_objectRoute hprojected hdeclared hobject hok
        (hclear.clearMethods owner hmem hobject) (hclear.clearConstructors owner hmem hobject)
      refine ⟨some (.object route), ?_, _, rfl, .object hobject hjoins⟩
      simp only [planCppDeclaration, hcpp, classSource, bind_eq_ok, demand_eq_ok, pure_eq_ok]
      exact ⟨owner, by rwa [hplace], route, hroute, rfl⟩
  | @value owner declaration hobject hvalue hok =>
      have hmem := mem_of_typeSource hsource
      have hfound := Python.lookup_dictOf hclear.clearClasses hmem
        (.inl (isOwner_of_declares (.inr hvalue)))
      obtain ⟨route, hroute, hjoins⟩ := exists_valueRoute hobject hvalue hok
      refine ⟨some (.value route), ?_, _, rfl, .value hobject hjoins⟩
      simp only [planCppDeclaration, hcpp, classSource, bind_eq_ok, demand_eq_ok, pure_eq_ok]
      exact ⟨owner, by rwa [hplace], route, hroute, rfl⟩
  | @enum source declaration hok =>
      have henums : (enums.map (·.provenance.declarationId)).Nodup := by
        rw [typeSources, List.map_append, List.map_map, List.map_map] at hids
        exact hids.sublist (List.sublist_append_right _ _)
      have hfound := Python.lookup_dictOf_of_nodup henums (mem_of_enumSource hsource)
      have hconstants : declaration.constants = source.constants := by
        simp only [projectCppEnum, bind_eq_ok, semantically_eq_ok,
          SemanticEnumDeclaration.make_eq_ok] at hok
        obtain ⟨_, _, _, _, hmade⟩ := hok
        rw [hmade]
      simp only [planCppDeclaration, hcpp, planCppEnum, bind_eq_ok, demand_eq_ok, require_eq_ok,
        pure_eq_ok]
      refine ⟨_, ⟨_, ⟨source, by rwa [hplace], (), hconstants, rfl⟩, rfl⟩, _, rfl,
        .enum ⟨⟨?_, ⟨rfl, rfl⟩, rfl, rfl, rfl⟩, hconstants, rfl⟩⟩
      rw [hprojections, List.map_singleton, hplace]

end Declarations

/-! ### Functions of the API -/

section Bindings

variable {registry : CppTypeRegistry} {featureId : String} {functions : List CppFunctionSource}
  {classes : List CppClassSource} {enums : List CppEnumSource} {api : SemanticApi}
  {direct owned : List SemanticBinding}

theorem nodup_functionIds (api : SemanticApi) :
    (api.functions.map (·.source.declarationId)).Nodup := by
  refine List.Nodup.sublist ?_ (nodup_sourceIds api)
  refine (((List.Sublist.map _ ?_).trans (List.sublist_append_left _ _)).trans
    (List.sublist_append_left _ _)).trans (List.sublist_append_left _ _)
  exact (List.sublist_append_left _ _).trans (List.sublist_append_left _ _)

/-- A function that carries a marker is found, and has its route. -/
theorem exists_directRoute
    (hprojected : ProjectedApi registry featureId functions classes enums api.toFields direct owned)
    (hclear : ClearIdentities functions classes) (methodIds : List String)
    {source : CppFunctionSource} (hsource : source ∈ markedFunctions functions)
    {binding : SemanticBinding} (hbinding : binding ∈ direct)
    (hok : projectCppFunction registry source = .ok (some binding)) :
    ∃ output, planCppFunction api
        (Python.dictOf (fun source : CppFunctionSource => source.provenance.declarationId)
          functions)
        methodIds binding = .ok output ∧
      ∃ route, output = some route ∧ JoinsFunction source binding route := by
  obtain ⟨hlisted, hmarked⟩ := List.mem_filter.mp hsource
  obtain ⟨hkind, horigin, route, hroute, hjoins⟩ := exists_functionRoute hok
  have hfound := Python.lookup_dictOf hclear.clearFunctions hlisted (by simpa using hmarked)
  have hlisting : binding ∈ api.functions := by
    rw [hprojected.divided]
    exact List.mem_append_left _ hbinding
  refine ⟨some route, ?_, route, rfl, hjoins⟩
  unfold planCppFunction
  by_cases hlanguage : binding.source.language = "cpp"
  · rw [if_neg (by simpa using hlanguage)]
    simp only [bind_eq_ok, require_eq_ok]
    refine ⟨(), validateCppBinding_eq_ok hprojected (types_of_function hlisting), (), hkind, ?_⟩
    rw [← horigin] at hfound
    simp only [hfound, hroute]
    rfl
  · have hlanguageOk : source.provenance.language = "cpp" := by
      have hrole : ¬ source.intent.role = .ordinary := by simpa using hmarked
      simp only [projectCppFunction, if_neg hrole, bind_eq_ok, require_eq_ok] at hok
      exact hok.choose_spec.2.choose_spec.1
    rw [horigin] at hlanguage
    exact absurd hlanguageOk hlanguage

theorem mem_implementationMethodIds (hclear : ClearIdentities functions classes)
    {method : CppMethodSource} (hmethod : method ∈ ownedMethods classes) :
    method.provenance.declarationId ∈ implementationMethodIds
      (Python.dictOf (fun source : CppClassSource => source.provenance.declarationId) classes) := by
  obtain ⟨owner, howner, hgenerated⟩ := List.mem_flatMap.mp hmethod
  obtain ⟨hlisted, hunmarked⟩ := List.mem_filter.mp howner
  have hnonempty : owner.generatedMethods ≠ [] := List.ne_nil_of_mem hgenerated
  have hfound := Python.lookup_dictOf hclear.clearClasses hlisted (.inr hnonempty)
  have hobject : owner.intent.declaresObject = false := by
    simpa [CppClassSource.isOwner] using (Bool.and_eq_true_iff.mp hunmarked).1
  refine List.mem_flatMap.mpr ⟨owner, List.mem_filter.mpr
    ⟨Python.mem_dictValues_of_lookup hfound, by simp [hobject]⟩, ?_⟩
  exact List.mem_map_of_mem (List.mem_filter.mp hgenerated).1

/-- A method of an unmarked class has no route of its own. -/
theorem planCppFunction_owned
    (hprojected : ProjectedApi registry featureId functions classes enums api.toFields direct owned)
    (hclear : ClearIdentities functions classes) {binding : SemanticBinding}
    (hbinding : binding ∈ owned) :
    planCppFunction api
      (Python.dictOf (fun source : CppFunctionSource => source.provenance.declarationId) functions)
      (implementationMethodIds
        (Python.dictOf (fun source : CppClassSource => source.provenance.declarationId) classes))
      binding = .ok none := by
  unfold planCppFunction
  by_cases hlanguage : binding.source.language = "cpp"
  swap
  · rw [if_pos hlanguage]
  obtain ⟨method, hmethod, horigin⟩ : ∃ method ∈ ownedMethods classes,
      method.provenance = binding.source := by
    have hmem : binding.source ∈ owned.map (·.source) := List.mem_map_of_mem hbinding
    rw [hprojected.ofOwners] at hmem
    simpa using hmem
  have hlisting : binding ∈ api.functions := by
    rw [hprojected.divided]
    exact List.mem_append_right _ hbinding
  have hmissing : (Python.dictOf (fun source : CppFunctionSource => source.provenance.declarationId)
      functions).lookup binding.source.declarationId = none := by
    cases hfound : (Python.dictOf
        (fun source : CppFunctionSource => source.provenance.declarationId) functions).lookup
        binding.source.declarationId with
    | none => rfl
    | some source =>
        obtain ⟨hlisted, hid⟩ := Python.of_lookup_dictOf hfound
        by_cases hrole : source.intent.role = .ordinary
        · have hne := hclear.clearOwned method hmethod source hlisted hrole
          rw [horigin] at hne
          exact absurd hid hne
        · -- A marked function has a binding of its own, and no two bindings have one source.
          have hmarked : source ∈ markedFunctions functions :=
            List.mem_filter.mpr ⟨hlisted, by simpa using hrole⟩
          obtain ⟨other, hother, hok⟩ := exists_output_of_mem hprojected.ofFunctions hmarked
          have hnodup := nodup_functionIds api
          rw [hprojected.divided, List.map_append, List.nodup_append] at hnodup
          refine absurd ?_ (hnodup.2.2 other.source.declarationId (List.mem_map_of_mem hother)
            binding.source.declarationId (List.mem_map_of_mem hbinding))
          rw [(exists_functionRoute hok).2.1]
          exact hid
  rw [if_neg (by simpa using hlanguage)]
  simp only [bind_eq_ok, require_eq_ok]
  refine ⟨(), validateCppBinding_eq_ok hprojected (types_of_function hlisting), (),
    hprojected.ownedKinds binding hbinding, ?_⟩
  simp only [hmissing, bind_eq_ok, require_eq_ok, pure_eq_ok]
  refine ⟨(), ?_, trivial⟩
  rw [← horigin]
  exact mem_implementationMethodIds hclear hmethod

end Bindings

/-! ### The plan -/

section Plan

variable {classes : List CppClassSource} {enums : List CppEnumSource}

theorem filterMap_class {Kind : Type} (classes : List CppClassSource)
    (select : CppTypeSource → Option Kind) (wanted : CppClassSource → Bool)
    (view : CppClassSource → Kind)
    (hselect : ∀ source, source.isOwner = false →
      select (.class_ source) = if wanted source then some (view source) else none)
    (howner : ∀ source, source.isOwner → wanted source = false) :
    ((classes.filter (!·.isOwner)).map CppTypeSource.class_).filterMap select =
      (classes.filter wanted).map view := by
  induction classes with
  | nil => rfl
  | cons source classes ih =>
      by_cases hisOwner : source.isOwner
      · rw [List.filter_cons_of_neg (by simp [hisOwner]),
          List.filter_cons_of_neg (by simp [howner source hisOwner]), ih]
      · rw [List.filter_cons_of_pos (by simp [hisOwner]), List.map_cons]
        have hselected := hselect source (by simpa using hisOwner)
        by_cases hwanted : wanted source
        · rw [if_pos hwanted] at hselected
          rw [List.filterMap_cons_some hselected, List.filter_cons_of_pos hwanted, List.map_cons,
            ih]
        · rw [if_neg hwanted] at hselected
          rw [List.filterMap_cons_none hselected, List.filter_cons_of_neg hwanted, ih]

variable (classes enums) in
theorem objects_of_typeSources :
    (typeSources classes enums).filterMap (·.object?) =
      classes.filter (·.intent.declaresObject) := by
  have henums : (enums.map CppTypeSource.enum).filterMap (·.object?) = [] := by
    rw [List.filterMap_map]
    exact List.filterMap_eq_nil_iff.mpr fun _ _ => rfl
  rw [typeSources, List.filterMap_append, henums, List.append_nil,
    filterMap_class classes _ (·.intent.declaresObject) id]
  · exact List.map_id _
  · intro source _
    rfl
  · intro source howner
    simpa using (Bool.and_eq_true_iff.mp howner).1

variable (classes enums) in
theorem values_of_typeSources :
    (typeSources classes enums).filterMap (·.value?) =
      classes.filter fun source =>
        !source.intent.declaresObject && source.intent.declaresValue := by
  have henums : (enums.map CppTypeSource.enum).filterMap (·.value?) = [] := by
    rw [List.filterMap_map]
    exact List.filterMap_eq_nil_iff.mpr fun _ _ => rfl
  rw [typeSources, List.filterMap_append, henums, List.append_nil,
    filterMap_class classes _
      (fun source => !source.intent.declaresObject && source.intent.declaresValue) id]
  · exact List.map_id _
  · intro source howner
    rw [CppClassSource.isOwner] at howner
    rw [CppTypeSource.value?]
    cases hobject : source.intent.declaresObject with
    | true => simp
    | false =>
        have hvalue : source.intent.declaresValue = true := by simpa [hobject] using howner
        simp [hvalue]
  · intro source howner
    rw [CppClassSource.isOwner, Bool.and_eq_true] at howner
    simp [(by simpa using howner.2 : source.intent.declaresValue = false)]

theorem enums_of_typeSources : (typeSources classes enums).filterMap (·.enum?) = enums := by
  have hclasses : ((classes.filter (!·.isOwner)).map CppTypeSource.class_).filterMap (·.enum?) =
      [] := by
    rw [List.filterMap_map]
    exact List.filterMap_eq_nil_iff.mpr fun _ _ => rfl
  rw [typeSources, List.filterMap_append, hclasses, List.nil_append, List.filterMap_map]
  exact List.filterMap_some

theorem JoinsDeclared.type {source : CppTypeSource} {declaration : SemanticDeclaration}
    {route : CppDeclaredRoute} (hjoins : JoinsDeclared source declaration route) :
    JoinsType source declaration route.namedType := by
  cases hjoins with
  | object _ hjoins => exact hjoins.type
  | value _ hjoins => exact hjoins.type
  | enum hjoins => exact hjoins.type

variable {registry : CppTypeRegistry} {featureId : String} {functions : List CppFunctionSource}
  {api : SemanticApi} {direct owned : List SemanticBinding}

theorem exists_functionRoutes
    (hprojected : ProjectedApi registry featureId functions classes enums api.toFields direct owned)
    (hclear : ClearIdentities functions classes) :
    ∃ outputs, api.functions.mapM (planCppFunction api
        (Python.dictOf (fun source : CppFunctionSource => source.provenance.declarationId)
          functions)
        (implementationMethodIds
          (Python.dictOf (fun source : CppClassSource => source.provenance.declarationId)
            classes))) =
        .ok outputs ∧
      Joined JoinsFunction (markedFunctions functions) direct outputs.reduceOption := by
  obtain ⟨outputs, houtputs, hjoined⟩ := Joined.exists_of_mapM
    (fun source binding output => ∃ route, output = some route ∧ JoinsFunction source binding route)
    _ hprojected.ofFunctions (fun source hsource binding hbinding hprojection =>
      exists_directRoute hprojected hclear
        (implementationMethodIds
          (Python.dictOf (fun source : CppClassSource => source.provenance.declarationId) classes))
        hsource hbinding hprojection)
  refine ⟨outputs ++ owned.map fun _ => none, ?_, ?_⟩
  · rw [hprojected.divided, List.mapM_append]
    simp only [bind_eq_ok, pure_eq_ok]
    refine ⟨outputs, houtputs, _, ?_, rfl⟩
    rw [mapM_eq_ok, List.forall₂_map_right_iff, List.forall₂_same]
    exact fun binding hbinding => planCppFunction_owned hprojected hclear hbinding
  · rw [List.reduceOption_append, List.map_const', List.reduceOption_replicate_none,
      List.append_nil]
    exact hjoined.reduceOption

theorem exists_declaredRoutes
    (hprojected : ProjectedApi registry featureId functions classes enums api.toFields direct owned)
    (hclear : ClearIdentities functions classes) :
    ∃ outputs, api.declarations.mapM (planCppDeclaration api
        (Python.dictOf (fun source : CppClassSource => source.provenance.declarationId) classes)
        (Python.dictOf (fun source : CppEnumSource => source.provenance.declarationId) enums)) =
        .ok outputs ∧
      Joined JoinsDeclared (typeSources classes enums) api.declarations outputs.reduceOption := by
  obtain ⟨outputs, houtputs, hjoined⟩ := Joined.exists_of_mapM
    (fun source declaration output => ∃ route, output = some route ∧
      JoinsDeclared source declaration route)
    _ hprojected.ofTypes (fun source hsource declaration hdeclaration hprojection =>
      exists_declaredRoute hprojected hclear hsource hdeclaration hprojection)
  exact ⟨outputs, houtputs, hjoined.reduceOption⟩

/-- **Where no identity is taken over, every record of a projected API has one route, with the
qualified name of the declaration it comes from.** -/
theorem planCppRoutes_joins
    (hok : projectCppApi featureId functions classes enums = .ok api)
    (hclear : ClearIdentities functions classes) :
    ∃ plan, planCppRoutes api functions classes enums = .ok plan ∧
      plan.Joins api functions classes enums := by
  simp only [projectCppApi, bind_eq_ok, semantically_eq_ok, SemanticApi.make_eq_ok] at hok
  obtain ⟨fields, hfields, rfl⟩ := hok
  obtain ⟨registry, direct, owned, hprojected⟩ := exists_projectedApi hfields
  obtain ⟨functionOutputs, hfunctionOutputs, hfunctions⟩ := exists_functionRoutes hprojected hclear
  obtain ⟨outputs, houtputs, hdeclared⟩ := exists_declaredRoutes hprojected hclear
  simp only [planCppRoutes, bind_eq_ok, pure_eq_ok]
  refine ⟨_, ⟨functionOutputs, hfunctionOutputs, outputs, houtputs, rfl⟩,
    ⟨direct, owned, hprojected.divided, hfunctions, hprojected.ofOwners⟩,
    hdeclared.map_routes fun _ _ _ => JoinsDeclared.type, ?_, ?_, ?_⟩
  · rw [← objects_of_typeSources classes enums]
    refine hdeclared.filterMap fun source declaration route hjoins => ?_
    cases hjoins with
    | @object owner _ _ hobject hjoins =>
        exact .inr ⟨owner, _, _, by simp [CppTypeSource.object?, hobject], rfl, rfl, hjoins⟩
    | @value owner _ _ hobject _ =>
        exact .inl ⟨by simp [CppTypeSource.object?, hobject], rfl, rfl⟩
    | enum _ => exact .inl ⟨rfl, rfl, rfl⟩
  · rw [← values_of_typeSources classes enums]
    refine hdeclared.filterMap fun source declaration route hjoins => ?_
    cases hjoins with
    | @object owner _ _ hobject _ =>
        exact .inl ⟨by simp [CppTypeSource.value?, hobject], rfl, rfl⟩
    | @value owner _ _ hobject hjoins =>
        exact .inr ⟨owner, _, _, by simp [CppTypeSource.value?, hobject], rfl, rfl, hjoins⟩
    | enum _ => exact .inl ⟨rfl, rfl, rfl⟩
  · have henums : Joined JoinsEnum ((typeSources classes enums).filterMap (·.enum?))
        (api.declarations.filterMap enumDeclaration?)
        (outputs.reduceOption.filterMap (·.enum?)) := by
      refine hdeclared.filterMap fun source declaration route hjoins => ?_
      cases hjoins with
      | object _ _ => exact .inl ⟨rfl, rfl, rfl⟩
      | value _ _ => exact .inl ⟨rfl, rfl, rfl⟩
      | enum hjoins => exact .inr ⟨_, _, _, rfl, rfl, rfl, hjoins⟩
    rwa [enums_of_typeSources] at henums

end Plan

/-! ### A store in two namespaces -/

def exportedMethod : SourceIntent :=
  ⟨⟨.method, [.after 11 .exported]⟩, by decide⟩

/-- `namespace audio { /* @SupernotePluginObject */ class Store {}; }`. -/
def audioStore : CppClassSource where
  provenance :=
    ⟨⟨"cpp:android/src/main/cpp/audio.hpp:class:Store", "cpp",
      "android/src/main/cpp/audio.hpp", 3, 1⟩, by decide⟩
  cppName := "Store"
  includePath := "audio.hpp"
  intent := ⟨⟨.class_, [.after 2 .object]⟩, by decide⟩
  constructors := []
  methods := []
  cppNamespace := ["audio"]
  target := rfl
  kind := class_mem_kinds

/-- A class in the same header, `legacy::Store` or `legacy::Mixer`, whose only marked member is the
method `static void reset()`. -/
def legacyOwner (cppName : String) (place method : SourceProvenance) : CppClassSource where
  provenance := place
  cppName := cppName
  includePath := "audio.hpp"
  intent := SourceIntent.unmarkedClass
  constructors := []
  methods := [{
    provenance := method
    cppName := "reset"
    returnTypeSpelling := "void"
    parameters := []
    intent := exportedMethod
    access := "public"
    static := true
    target := rfl }]
  cppNamespace := ["legacy"]
  target := SourceIntent.unmarkedClass_target
  kind := class_mem_kinds

def legacyStore : CppClassSource :=
  legacyOwner "Store"
    ⟨⟨"cpp:android/src/main/cpp/audio.hpp:class:Store", "cpp",
      "android/src/main/cpp/audio.hpp", 10, 1⟩, by decide⟩
    ⟨⟨"cpp:android/src/main/cpp/audio.hpp:Store.reset()", "cpp",
      "android/src/main/cpp/audio.hpp", 12, 1⟩, by decide⟩

def legacyMixer : CppClassSource :=
  legacyOwner "Mixer"
    ⟨⟨"cpp:android/src/main/cpp/audio.hpp:class:Mixer", "cpp",
      "android/src/main/cpp/audio.hpp", 10, 1⟩, by decide⟩
    ⟨⟨"cpp:android/src/main/cpp/audio.hpp:Mixer.reset()", "cpp",
      "android/src/main/cpp/audio.hpp", 12, 1⟩, by decide⟩

/-- `/* @SupernotePluginExport */ void play(const Store& store);` in `namespace audio`. -/
def playFunction : CppFunctionSource where
  provenance :=
    ⟨⟨"cpp:android/src/main/cpp/audio.cpp:play(const Store&)", "cpp",
      "android/src/main/cpp/audio.cpp", 7, 1⟩, by decide⟩
  cppName := "play"
  returnTypeSpelling := "void"
  parameters := [⟨"const Store&", "store"⟩]
  intent := ⟨⟨.function, [.after 6 .exported]⟩, by decide⟩
  cppNamespace := ["audio"]
  target := rfl

/-- The two classes have different names, so each record leads back to its declaration. -/
theorem planCppRoutes_joins_mixer :
    ∃ api plan,
      projectCppApi "feature:audio" [playFunction] [audioStore, legacyMixer] [] = .ok api ∧
        planCppRoutes api [playFunction] [audioStore, legacyMixer] [] = .ok plan ∧
        plan.Joins api [playFunction] [audioStore, legacyMixer] [] := by
  obtain ⟨api, hapi⟩ := exists_of_isOk (by decide :
    (projectCppApi "feature:audio" [playFunction] [audioStore, legacyMixer] []).isOk = true)
  obtain ⟨plan, hplan, hjoins⟩ := planCppRoutes_joins hapi
    ⟨by decide, by decide, by decide, by decide, by decide⟩
  exact ⟨api, plan, hapi, hplan, hjoins⟩

/-- The declarations and functions of the API of these classes, each list with its native names. -/
def plannedNames (classes : List CppClassSource) :
    Except FrontendError ((List String × List String) × (List String × List String)) := do
  let api ← projectCppApi "feature:audio" [] classes []
  let plan ← planCppRoutes api [] classes []
  return ((api.declarations.map SemanticDeclaration.name, plan.namedTypes.map (·.cppType)),
    (api.functions.map fun binding => binding.name, plan.functions.map (·.cppName)))

/-- The two classes share a name and so an identity: the route of the object `audio::Store` names
`legacy::Store`. The marked method of the other class is a semantic function and has no route. -/
theorem planCppRoutes_confuses_stores :
    audioStore.Scanned ∧ legacyStore.Scanned ∧
      plannedNames [audioStore, legacyStore] =
        .ok ((["Store"], ["::legacy::Store"]), (["reset"], [])) := by
  refine ⟨⟨by decide, by decide⟩, ⟨by decide, by decide⟩, ?_⟩
  decide

end SupernoteModule.Frontend
