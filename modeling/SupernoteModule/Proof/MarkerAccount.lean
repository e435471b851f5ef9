import SupernoteModule.Spec.MarkerAccount

/-!
# No marker is dropped silently, except on unmarked owners

Each branch of the two projections turns its marked members into records in order or stops. What a
branch never looks at is overlooked, so the account of an accepted projection balances.
-/

namespace SupernoteModule.Frontend

open SupernoteModule.Lib SupernoteModule.Semantic

/-! ### Members -/

section Members

variable {registry : CppTypeRegistry} {types : JvmTypeRegistry} {owner : CppClassSource}
  {holder : JvmOwnerSource} {ownerId : String}

theorem source_of_projectCppFunction {option : Option CppTypeRegistry} {source : CppFunctionSource}
    {binding : Option SemanticBinding} (hok : projectCppFunction option source = .ok binding) :
    (binding.map (·.source)).toList =
      if source.intent.role ≠ .ordinary then [source.provenance] else [] := by
  unfold projectCppFunction at hok
  by_cases hrole : source.intent.role = .ordinary
  · rw [if_pos hrole] at hok
    obtain rfl : none = binding := by simpa using hok
    simp [hrole]
  · simp only [if_neg hrole, bind_eq_ok, pure_eq_ok, semantically_eq_ok,
      SemanticBinding.make_eq_ok] at hok
    obtain ⟨_, _, _, _, _, _, _, _, made, hmade, rfl⟩ := hok
    simp [hrole, hmade]

theorem source_of_projectCppMethod {source : CppMethodSource} {binding : SemanticBinding}
    (hok : projectCppMethod registry owner ownerId source = .ok binding) :
    binding.source = source.provenance := by
  simp only [projectCppMethod, bind_eq_ok, semantically_eq_ok, SemanticBinding.make_eq_ok] at hok
  obtain ⟨_, _, _, _, _, _, hmade⟩ := hok
  rw [hmade]

theorem source_of_projectImplementationMethod {source : CppMethodSource}
    {binding : SemanticBinding}
    (hok : projectImplementationMethod registry owner source = .ok binding) :
    binding.source = source.provenance := by
  simp only [projectImplementationMethod, bind_eq_ok, semantically_eq_ok,
    SemanticBinding.make_eq_ok] at hok
  obtain ⟨_, _, _, _, hmade⟩ := hok
  rw [hmade]

theorem source_of_cppSemanticField {source : CppFieldSource} {field : SemanticField}
    (hok : cppSemanticField registry owner ownerId source = .ok field) :
    field.source = source.provenance ∧ source.intent.role = .exported := by
  simp only [cppSemanticField, bind_eq_ok, require_eq_ok, semantically_eq_ok,
    SemanticField.make_eq_ok] at hok
  obtain ⟨_, _, _, _, _, hrole, _, _, hmade⟩ := hok
  exact ⟨by rw [hmade], hrole⟩

theorem source_of_projectJvmMethod {source : JvmDeclarationSource} {binding : SemanticBinding}
    (hok : projectJvmMethod types holder ownerId source = .ok binding) :
    binding.source = source.provenance := by
  simp only [projectJvmMethod, bind_eq_ok, semantically_eq_ok, SemanticBinding.make_eq_ok] at hok
  obtain ⟨_, _, _, _, _, _, hmade⟩ := hok
  rw [hmade]

theorem source_of_projectJvmFunction {source : JvmDeclarationSource} {binding : SemanticBinding}
    (hok : projectJvmFunction types holder source = .ok binding) :
    binding.source = source.provenance ∧ source.intent.role ≠ .ordinary := by
  simp only [projectJvmFunction, bind_eq_ok, require_eq_ok, semantically_eq_ok,
    SemanticBinding.make_eq_ok] at hok
  obtain ⟨_, hrole, _, _, _, _, _, _, hmade⟩ := hok
  exact ⟨by rw [hmade], hrole⟩

theorem source_of_jvmSemanticField {source : JvmFieldSource} {field : SemanticField}
    (hok : jvmSemanticField types holder ownerId source = .ok field) :
    field.source = source.provenance ∧ source.intent.role = .exported := by
  simp only [jvmSemanticField, bind_eq_ok, require_eq_ok, semantically_eq_ok,
    SemanticField.make_eq_ok] at hok
  obtain ⟨_, _, _, _, _, _, _, hrole, _, _, hmade⟩ := hok
  exact ⟨by rw [hmade], hrole⟩

theorem source_of_selectedObjectConstructor {constructor : Option SemanticConstructor}
    (hok : selectedObjectConstructor registry owner = .ok constructor) :
    (constructor.map (·.source)).toList = owner.marked .constructor := by
  unfold selectedObjectConstructor at hok
  rw [CppClassSource.marked]
  cases hselected : owner.constructors.filter (·.selected) with
  | nil =>
      obtain rfl : none = constructor := by simpa [hselected] using hok
      rfl
  | cons first rest =>
      cases rest with
      | nil =>
          simp only [hselected, bind_eq_ok, pure_eq_ok, semantically_eq_ok,
            SemanticConstructor.make_eq_ok] at hok
          obtain ⟨_, _, _, _, _, _, made, hmade, rfl⟩ := hok
          simp [hmade]
      | cons second rest => simp [hselected] at hok

theorem source_of_selectedJvmObjectConstructor {constructor : Option SemanticConstructor}
    (hok : selectedJvmObjectConstructor types holder = .ok constructor) :
    (constructor.map (·.source)).toList = holder.marked .constructor := by
  unfold selectedJvmObjectConstructor at hok
  rw [JvmOwnerSource.marked]
  cases hselected : holder.constructors.filter (·.selected) with
  | nil =>
      obtain rfl : none = constructor := by simpa [hselected] using hok
      rfl
  | cons first rest =>
      cases rest with
      | nil =>
          simp only [hselected, bind_eq_ok, pure_eq_ok, semantically_eq_ok,
            SemanticConstructor.make_eq_ok] at hok
          obtain ⟨_, _, _, _, made, hmade, rfl⟩ := hok
          simp [hmade]
      | cons second rest => simp [hselected] at hok

end Members

/-! ### Lists of members -/

section Lists

variable {Source Record : Type} {step : Source → Except FrontendError Record}
  {sources : List Source} {records : List Record} {shown : Record → SourceProvenance}
  {place : Source → SourceProvenance}

theorem map_of_mapM
    (hstep : ∀ source record, step source = .ok record → shown record = place source)
    (hok : sources.mapM step = .ok records) : records.map shown = sources.map place :=
  map_eq_of_related (mapM_eq_ok.mp hok) hstep

/-- A traversal that refuses what is not selected gives exactly the selected items. -/
theorem map_filter_of_mapM {selected : Source → Bool}
    (hstep : ∀ source record, step source = .ok record →
      shown record = place source ∧ selected source)
    (hok : sources.mapM step = .ok records) :
    records.map shown = (sources.filter selected).map place := by
  have hselected : sources.filter selected = sources := by
    rw [List.filter_eq_self]
    intro source hsource
    obtain ⟨record, _, hrecord⟩ := exists_output_of_mem (mapM_eq_ok.mp hok) hsource
    exact (hstep source record hrecord).2
  rw [hselected]
  exact map_of_mapM (fun source record hrecord => (hstep source record hrecord).1) hok

end Lists

section Branches

variable {registry : CppTypeRegistry} {types : JvmTypeRegistry} {owner : CppClassSource}
  {holder : JvmOwnerSource} {ownerId featureId : String}

theorem sources_of_cppFields {fields : List SemanticField}
    (hok : owner.fields.mapM (cppSemanticField registry owner ownerId) = .ok fields) :
    fields.map (·.source) = owner.marked .field :=
  map_filter_of_mapM (fun _ _ hfield => by simpa using source_of_cppSemanticField hfield) hok

theorem sources_of_jvmFields {fields : List SemanticField}
    (hok : holder.fields.mapM (jvmSemanticField types holder ownerId) = .ok fields) :
    fields.map (·.source) = holder.marked .field :=
  map_filter_of_mapM (fun _ _ hfield => by simpa using source_of_jvmSemanticField hfield) hok

/-! ### C++ branches -/

theorem declarationSources_cppObject {declaration : SemanticObjectDeclaration}
    (howner : owner.isOwner = false)
    (hok : projectCppObject registry featureId owner = .ok declaration) (kind : MemberKind) :
    declarationSources (.object declaration) kind = owner.marked kind := by
  simp only [projectCppObject, bind_eq_ok, semantically_eq_ok, SemanticProjection.make_eq_ok,
    SemanticObjectDeclaration.make_eq_ok] at hok
  obtain ⟨_, _, methods, hmethods, fields, hfields, projection, hprojection, constructor,
    hconstructor, hmade⟩ := hok
  cases kind with
  | callable =>
      change declaration.methods.map (·.source) = _
      rw [hmade]
      exact map_of_mapM (fun _ _ => source_of_projectCppMethod) hmethods
  | field =>
      change declaration.fields.map (·.source) = _
      rw [hmade]
      exact sources_of_cppFields hfields
  | constructor =>
      change (declaration.constructor.map (·.source)).toList = _
      rw [hmade]
      exact source_of_selectedObjectConstructor hconstructor
  | declaration =>
      change [declaration.projection.source] = _
      rw [hmade, CppClassSource.marked, howner, hprojection]
      rfl

theorem declarationSources_cppValue {declaration : SemanticValueDeclaration}
    (howner : owner.isOwner = false)
    (hok : projectCppValue registry featureId owner = .ok declaration) (kind : MemberKind) :
    declarationSources (.value declaration) kind = owner.marked kind := by
  simp only [projectCppValue, bind_eq_ok, require_eq_ok, semantically_eq_ok,
    SemanticProjection.make_eq_ok, SemanticValueDeclaration.make_eq_ok] at hok
  obtain ⟨_, hconstructors, _, hmethods, _, _, fields, hfields, projection, hprojection, hmade⟩ :=
    hok
  cases kind with
  | callable =>
      change [] = owner.generatedMethods.map (·.provenance)
      rw [hmethods]
      rfl
  | field =>
      change declaration.fields.map (·.source) = _
      rw [hmade]
      exact sources_of_cppFields hfields
  | constructor =>
      change [] = (owner.constructors.filter (·.selected)).map (·.provenance)
      rw [List.filter_eq_nil_iff.mpr (by simpa using hconstructors)]
      rfl
  | declaration =>
      change declaration.projections.map (·.source) = _
      rw [hmade, CppClassSource.marked, howner, List.map_singleton, hprojection]
      rfl

theorem isOwner_of_declares (hdeclares : owner.intent.declaresObject ∨ owner.intent.declaresValue) :
    owner.isOwner = false := by
  rw [CppClassSource.isOwner]
  rcases hdeclares with hobject | hvalue
  · simp [hobject]
  · simp [hvalue]

/-- **One class adds its marked members to the API, and what it overlooks makes up the rest.** -/
theorem projectCppClassSource_balances {api next : SemanticApi.Fields}
    (hok : projectCppClassSource registry featureId api owner = .ok next) (kind : MemberKind) :
    (apiSources next kind ++ owner.overlooked kind).Perm
      (apiSources api kind ++ owner.marked kind) := by
  rcases projectCppClassSource_cases hok with ⟨hobject, declaration, hdeclaration, rfl⟩ |
    ⟨_, hvalue, declaration, hdeclaration, rfl⟩ | ⟨howner, bindings, hbindings, rfl⟩
  · have howner := isOwner_of_declares (.inl hobject)
    have hnothing : owner.overlooked kind = [] := by
      cases kind <;> simp [CppClassSource.overlooked, howner]
    rw [apiSources_declaration, declarationSources_cppObject howner hdeclaration, hnothing,
      List.append_nil]
  · have howner := isOwner_of_declares (.inr hvalue)
    have hnothing : owner.overlooked kind = [] := by
      cases kind <;> simp [CppClassSource.overlooked, howner]
    rw [apiSources_declaration, declarationSources_cppValue howner hdeclaration, hnothing,
      List.append_nil]
  · have hsources := map_of_mapM (fun _ _ => source_of_projectImplementationMethod) hbindings
    have hmembers : functionSources bindings kind ++ owner.overlooked kind = owner.marked kind := by
      cases kind <;>
        simp [functionSources, CppClassSource.overlooked, CppClassSource.marked, howner, hsources]
    rw [← hmembers, ← List.append_assoc]
    exact (apiSources_functions bindings).append_right _

/-! ### JVM branches -/

theorem declarationSources_jvmObject {declaration : SemanticObjectDeclaration}
    (hholder : holder.isOwner = false)
    (hok : projectJvmObject types featureId holder = .ok declaration) (kind : MemberKind) :
    declarationSources (.object declaration) kind = holder.marked kind := by
  simp only [projectJvmObject, bind_eq_ok, semantically_eq_ok, SemanticProjection.make_eq_ok,
    SemanticObjectDeclaration.make_eq_ok] at hok
  obtain ⟨_, _, _, _, _, _, projection, hprojection, constructor, hconstructor, methods, hmethods,
    fields, hfields, hmade⟩ := hok
  cases kind with
  | callable =>
      change declaration.methods.map (·.source) = _
      rw [hmade]
      exact map_of_mapM (fun _ _ => source_of_projectJvmMethod) hmethods
  | field =>
      change declaration.fields.map (·.source) = _
      rw [hmade]
      exact sources_of_jvmFields hfields
  | constructor =>
      change (declaration.constructor.map (·.source)).toList = _
      rw [hmade]
      exact source_of_selectedJvmObjectConstructor hconstructor
  | declaration =>
      change [declaration.projection.source] = _
      rw [hmade, JvmOwnerSource.marked, hholder, hprojection]
      rfl

theorem declarationSources_jvmValue {declaration : SemanticValueDeclaration}
    (hholder : holder.isOwner = false)
    (hok : projectJvmValue types featureId holder = .ok declaration) (kind : MemberKind) :
    declarationSources (.value declaration) kind = holder.marked kind := by
  simp only [projectJvmValue, bind_eq_ok, require_eq_ok, semantically_eq_ok,
    SemanticProjection.make_eq_ok, SemanticValueDeclaration.make_eq_ok] at hok
  obtain ⟨_, _, _, _, _, _, _, hconstructors, _, hmethods, _, _, fields, hfields, _, _, projection,
    hprojection, hmade⟩ := hok
  cases kind with
  | callable =>
      change [] = holder.generatedDeclarations.map (·.provenance)
      rw [hmethods]
      rfl
  | field =>
      change declaration.fields.map (·.source) = _
      rw [hmade]
      exact sources_of_jvmFields hfields
  | constructor =>
      change [] = (holder.constructors.filter (·.selected)).map (·.provenance)
      rw [List.filter_eq_nil_iff.mpr (by simpa using hconstructors)]
      rfl
  | declaration =>
      change declaration.projections.map (·.source) = _
      rw [hmade, JvmOwnerSource.marked, hholder, List.map_singleton, hprojection]
      rfl

theorem declarationSources_jvmEnum {declaration : SemanticEnumDeclaration}
    (hok : projectJvmEnum featureId holder = .ok declaration) (kind : MemberKind) :
    declarationSources (.enum declaration) kind =
      if kind = .declaration then [holder.provenance] else [] := by
  simp only [projectJvmEnum, bind_eq_ok, semantically_eq_ok, SemanticProjection.make_eq_ok,
    SemanticEnumDeclaration.make_eq_ok] at hok
  obtain ⟨_, _, _, _, projection, hprojection, hmade⟩ := hok
  cases kind with
  | declaration =>
      change declaration.projections.map (·.source) = _
      rw [hmade, List.map_singleton, hprojection]
      rfl
  | _ => rfl

theorem functionSources_jvm {bindings : List SemanticBinding}
    (hok : holder.declarations.mapM (projectJvmFunction types holder) = .ok bindings) :
    bindings.map (·.source) = holder.marked .callable :=
  map_filter_of_mapM (fun _ _ hbinding => by simpa using source_of_projectJvmFunction hbinding) hok

/-- **One owner adds its marked members to the API, and what it overlooks makes up the rest.** -/
theorem projectJvmOwner_balances {api next : SemanticApi.Fields}
    (hok : projectJvmOwner types featureId api holder = .ok next) (kind : MemberKind) :
    (apiSources next kind ++ holder.overlooked kind).Perm
      (apiSources api kind ++ holder.marked kind) := by
  unfold projectJvmOwner at hok
  rw [bind_eq_ok] at hok
  obtain ⟨_, _, hok⟩ := hok
  by_cases hobject : holder.intent.declaresObject
  · simp only [if_pos hobject, bind_eq_ok, pure_eq_ok] at hok
    obtain ⟨declaration, hdeclaration, rfl⟩ := hok
    have hholder : holder.isOwner = false := by simp [JvmOwnerSource.isOwner, hobject]
    have henum : holder.isEnum = false := by simp [JvmOwnerSource.isEnum, hobject]
    have hnothing : holder.overlooked kind = [] := by
      cases kind <;> simp [JvmOwnerSource.overlooked, hholder, henum]
    rw [apiSources_declaration, declarationSources_jvmObject hholder hdeclaration, hnothing,
      List.append_nil]
  by_cases hvalue : holder.intent.declaresValue
  · have hholder : holder.isOwner = false := by simp [JvmOwnerSource.isOwner, hvalue]
    by_cases hconstants : holder.enumConstants ≠ []
    · simp only [if_neg hobject, if_pos hvalue, if_pos hconstants, bind_eq_ok, pure_eq_ok] at hok
      obtain ⟨declaration, hdeclaration, rfl⟩ := hok
      have henum : holder.isEnum = true := by
        simp [JvmOwnerSource.isEnum, hobject, hvalue, hconstants]
      have hmembers : declarationSources (.enum declaration) kind ++ holder.overlooked kind =
          holder.marked kind := by
        rw [declarationSources_jvmEnum hdeclaration]
        cases kind <;>
          simp [JvmOwnerSource.overlooked, JvmOwnerSource.marked, henum, hholder]
      rw [apiSources_declaration, List.append_assoc, hmembers]
    · simp only [if_neg hobject, if_pos hvalue, if_neg hconstants, bind_eq_ok, pure_eq_ok] at hok
      obtain ⟨declaration, hdeclaration, rfl⟩ := hok
      have henum : holder.isEnum = false := by
        have hnone : holder.enumConstants = [] := by simpa using hconstants
        simp [JvmOwnerSource.isEnum, hnone]
      have hnothing : holder.overlooked kind = [] := by
        cases kind <;> simp [JvmOwnerSource.overlooked, hholder, henum]
      rw [apiSources_declaration, declarationSources_jvmValue hholder hdeclaration, hnothing,
        List.append_nil]
  · simp only [if_neg hobject, if_neg hvalue, bind_eq_ok, pure_eq_ok] at hok
    obtain ⟨_, _, bindings, hbindings, rfl⟩ := hok
    have hholder : holder.isOwner = true := by simp [JvmOwnerSource.isOwner, hobject, hvalue]
    have henum : holder.isEnum = false := by simp [JvmOwnerSource.isEnum, hvalue]
    have hmembers : functionSources bindings kind ++ holder.overlooked kind =
        holder.marked kind := by
      cases kind with
      | callable =>
          rw [functionSources, functionSources_jvm hbindings]
          simp [JvmOwnerSource.overlooked, henum]
      | _ => simp [functionSources, JvmOwnerSource.overlooked, JvmOwnerSource.marked, hholder]
    rw [← hmembers, ← List.append_assoc]
    exact (apiSources_functions bindings).append_right _

end Branches

/-! ### Whole projections -/

section Projections

variable {featureId : String} {functions : List CppFunctionSource} {classes : List CppClassSource}
  {enums : List CppEnumSource} {owners : List JvmOwnerSource}

theorem functionSources_cpp {option : Option CppTypeRegistry}
    {bindings : List (Option SemanticBinding)}
    (hok : functions.mapM (projectCppFunction option) = .ok bindings) (kind : MemberKind) :
    functionSources bindings.reduceOption kind = markedFunctionSources functions kind := by
  cases kind with
  | callable =>
      -- Both sides keep some of the functions, and show the source of each.
      change (bindings.filterMap id).map _ = _
      rw [markedFunctionSources, markedFunctions, ← List.filterMap_eq_filter, List.map_filterMap,
        List.map_filterMap, List.filterMap_eq_flatMap_toList, List.filterMap_eq_flatMap_toList]
      apply flatMap_eq_of_related (mapM_eq_ok.mp hok)
      intro source binding hbinding
      rw [id, source_of_projectCppFunction hbinding, Option.guard]
      by_cases hordinary : source.intent.role = .ordinary
      · simp [hordinary]
      · simp [hordinary]
  | _ => rfl

theorem declarationSources_cppEnum {source : CppEnumSource} {declaration : SemanticEnumDeclaration}
    (hok : projectCppEnum featureId source = .ok declaration) (kind : MemberKind) :
    declarationSources (.enum declaration) kind = enumSources [source] kind := by
  simp only [projectCppEnum, bind_eq_ok, semantically_eq_ok, SemanticProjection.make_eq_ok,
    SemanticEnumDeclaration.make_eq_ok] at hok
  obtain ⟨_, _, projection, hprojection, hmade⟩ := hok
  cases kind with
  | declaration =>
      change declaration.projections.map (·.source) = _
      rw [hmade, List.map_singleton, hprojection]
      rfl
  | _ => rfl

theorem enumSources_flatMap (enums : List CppEnumSource) (kind : MemberKind) :
    enumSources enums kind = enums.flatMap fun source => enumSources [source] kind := by
  cases kind with
  | declaration => exact List.map_eq_flatMap
  | _ => simp [enumSources]

theorem projectCppFields_balances {api : SemanticApi.Fields}
    (hok : projectCppFields featureId functions classes enums = .ok api) :
    Balances (markedCpp functions classes enums) (fun kind => classes.flatMap (·.overlooked kind))
      api := by
  intro kind
  simp only [projectCppFields, bind_eq_ok, pure_eq_ok] at hok
  obtain ⟨registry, _, bindings, hbindings, grown, hgrown, declarations, hdeclarations, rfl⟩ := hok
  have hclasses := foldlM_perm (apiSources · kind) (·.marked kind) (·.overlooked kind)
    (fun _ _ _ _ hstep => projectCppClassSource_balances hstep kind) hgrown
  have hfunctions : apiSources { functions := bindings.reduceOption } kind =
      markedFunctionSources functions kind := by
    rw [← functionSources_cpp hbindings kind]
    simp [apiSources]
  have henums : (declarations.map .enum).flatMap (declarationSources · kind) =
      enumSources enums kind := by
    rw [enumSources_flatMap, List.flatMap_map]
    exact flatMap_eq_of_related (mapM_eq_ok.mp hdeclarations) fun _ _ hdeclaration =>
      declarationSources_cppEnum hdeclaration kind
  rw [apiSources_declarations, henums]
  rw [hfunctions] at hclasses
  calc
    (apiSources grown kind ++ enumSources enums kind ++
        classes.flatMap (·.overlooked kind)).Perm
        (apiSources grown kind ++ classes.flatMap (·.overlooked kind) ++
          enumSources enums kind) := by
      rw [List.append_assoc, List.append_assoc]
      exact List.perm_append_comm.append_left _
    List.Perm _ (markedFunctionSources functions kind ++ classes.flatMap (·.marked kind) ++
        enumSources enums kind) := hclasses.append_right _

theorem projectJvmFields_balances {api : SemanticApi.Fields}
    (hok : projectJvmFields featureId owners = .ok api) :
    Balances (markedJvm owners) (fun kind => owners.flatMap (·.overlooked kind)) api := by
  intro kind
  simp only [projectJvmFields, bind_eq_ok] at hok
  obtain ⟨types, _, hgrown⟩ := hok
  have howners := foldlM_perm (apiSources · kind) (·.marked kind) (·.overlooked kind)
    (fun _ _ _ _ hstep => projectJvmOwner_balances hstep kind) hgrown
  have hempty : apiSources {} kind = [] := by cases kind <;> rfl
  rw [hempty, List.nil_append] at howners
  exact howners

/-- The account of an accepted C++ projection is complete when every class is fully read. -/
theorem complete_cpp_iff {api : SemanticApi}
    (hok : projectCppApi featureId functions classes enums = .ok api) :
    Complete (markedCpp functions classes enums) api ↔ ∀ owner ∈ classes, owner.FullyRead := by
  simp only [projectCppApi, bind_eq_ok, semantically_eq_ok, SemanticApi.make_eq_ok] at hok
  obtain ⟨_, hfields, rfl⟩ := hok
  rw [complete_iff_of_balances (projectCppFields_balances hfields)]
  simp only [List.flatMap_eq_nil_iff, CppClassSource.fullyRead_iff]
  exact ⟨fun hnothing owner howner kind => hnothing kind owner howner,
    fun hnothing kind owner howner => hnothing owner howner kind⟩

theorem complete_jvm_iff {api : SemanticApi} (hok : projectJvmOwners featureId owners = .ok api) :
    Complete (markedJvm owners) api ↔ ∀ owner ∈ owners, owner.FullyRead := by
  simp only [projectJvmOwners, bind_eq_ok, semantically_eq_ok, SemanticApi.make_eq_ok] at hok
  obtain ⟨_, hfields, rfl⟩ := hok
  rw [complete_iff_of_balances (projectJvmFields_balances hfields)]
  simp only [List.flatMap_eq_nil_iff, JvmOwnerSource.fullyRead_iff]
  exact ⟨fun hnothing owner howner kind => hnothing kind owner howner,
    fun hnothing kind owner howner => hnothing owner howner kind⟩

/-- **No marked declaration is dropped by the two projections exactly when every class and owner is
fully read.** -/
theorem markers_complete_iff {jvmFeatureId : String} {native jvm : SemanticApi}
    (hnative : projectCppApi featureId functions classes enums = .ok native)
    (hjvm : projectJvmOwners jvmFeatureId owners = .ok jvm) :
    Complete (markedCpp functions classes enums) native ∧ Complete (markedJvm owners) jvm ↔
      (∀ owner ∈ classes, owner.FullyRead) ∧ ∀ owner ∈ owners, owner.FullyRead := by
  rw [complete_cpp_iff hnative, complete_jvm_iff hjvm]

end Projections

/-! ### Settings with one marked member -/

def exportedField : SourceIntent :=
  ⟨⟨.field, [.after 3 .exported]⟩, by decide⟩

/-- `class Settings { public: // @SupernotePluginExport std::int32_t volume; };`, with the markers
of the class itself. -/
def settingsSource (markers : List MarkerOccurrence)
    (hvalid : (SourceIntent.Fields.mk .class_ markers).postInit = .ok ()) : CppClassSource where
  provenance :=
    ⟨⟨"cpp:android/src/main/cpp/settings.hpp:class:Settings", "cpp",
      "android/src/main/cpp/settings.hpp", 2, 1⟩, by decide⟩
  cppName := "Settings"
  includePath := "settings.hpp"
  intent := ⟨⟨.class_, markers⟩, hvalid⟩
  constructors := []
  methods := []
  fields := [{
    provenance :=
      ⟨⟨"cpp:android/src/main/cpp/settings.hpp:Settings.volume#field", "cpp",
        "android/src/main/cpp/settings.hpp", 4, 1⟩, by decide⟩
    cppName := "volume"
    typeSpelling := "std::int32_t"
    intent := exportedField
    access := "public"
    mutable := true
    target := rfl }]
  target := rfl
  kind := class_mem_kinds

theorem kotlinForm_class :
    JvmOwnerForm.class_ = .kotlinObject ∨ JvmOwnerForm.class_ = .kotlinTopLevel →
      JvmLanguage.kotlin = .kotlin := by
  intro _
  rfl

theorem javaForm_class : JvmOwnerForm.class_ = .javaStatic → JvmLanguage.kotlin = .java := by
  intro hform
  cases hform

theorem objectMarker_valid :
    (SourceIntent.Fields.mk .class_ [.after 1 .object]).postInit = .ok () := by
  decide

/-- `class Volume(val level: Int)`, whose property is marked, with the markers of the class itself.
-/
def volumeOwner (markers : List MarkerOccurrence)
    (hvalid : (SourceIntent.Fields.mk .class_ markers).postInit = .ok ()) : JvmOwnerSource where
  provenance := ⟨⟨"jvm:com.example.Volume", "kotlin", "src/Volume.kt", 3, 1⟩, by decide⟩
  language := .kotlin
  ownerClass := "com.example.Volume"
  sourceName := "Volume"
  form := .class_
  intent := ⟨⟨.class_, markers⟩, hvalid⟩
  constructors := [{
    provenance := ⟨⟨"jvm:com.example.Volume#<init>()V", "kotlin", "src/Volume.kt", 3, 1⟩, by decide⟩
    jvmDescriptor := "()V"
    parameters := []
    visibility := "public"
    intent := SourceIntent.unmarkedConstructor
    adapterIdentity := "adapter.Volume"
    target := SourceIntent.unmarkedConstructor_target
    adapted := by decide }]
  declarations := []
  fields := [{
    provenance := ⟨⟨"jvm:com.example.Volume#level", "kotlin", "src/Volume.kt", 4, 1⟩, by decide⟩
    ownerDeclarationId := "jvm:com.example.Volume"
    name := "level"
    type := .mk "kotlin.Int" false []
    intent := exportedField
    visibility := "public"
    mutable := false
    accessorIdentity := "accessor.level"
    target := rfl
    owned := by decide }]
  target := rfl
  kotlinForm := kotlinForm_class
  javaForm := javaForm_class
  constructionFree := by decide
  ownConstructors := by decide
  ownDeclarations := by simp
  ownFields := by
    intro field hfield
    rw [List.mem_singleton.mp hfield]
    decide

def markedSettings : CppClassSource := settingsSource [.after 0 .value] (by decide)

def bareSettings : CppClassSource := settingsSource [] (by decide)

def markedVolume : JvmOwnerSource := volumeOwner [.after 1 .object] objectMarker_valid

def bareVolume : JvmOwnerSource := volumeOwner [] (by decide)

/-- With markers on the classes nothing is dropped. -/
theorem markers_complete_marked :
    ∃ native jvm,
      projectCppApi "feature:native" [] [markedSettings] [] = .ok native ∧
        projectJvmOwners "feature:jvm" [markedVolume] = .ok jvm ∧
        Complete (markedCpp [] [markedSettings] []) native ∧
        Complete (markedJvm [markedVolume]) jvm := by
  obtain ⟨native, hnative⟩ := exists_of_isOk
    (by decide : (projectCppApi "feature:native" [] [markedSettings] []).isOk = true)
  obtain ⟨jvm, hjvm⟩ := exists_of_isOk
    (by decide : (projectJvmOwners "feature:jvm" [markedVolume]).isOk = true)
  exact ⟨native, jvm, hnative, hjvm,
    (markers_complete_iff hnative hjvm).mpr ⟨by decide, by decide⟩⟩

/-- Without a marker on the classes the projections accept the sources and drop the marked field and
the marked property. -/
theorem markers_dropped_unmarked :
    ∃ native jvm,
      projectCppApi "feature:native" [] [bareSettings] [] = .ok native ∧
        projectJvmOwners "feature:jvm" [bareVolume] = .ok jvm ∧
        ¬ Complete (markedCpp [] [bareSettings] []) native ∧
        ¬ Complete (markedJvm [bareVolume]) jvm := by
  obtain ⟨native, hnative⟩ := exists_of_isOk
    (by decide : (projectCppApi "feature:native" [] [bareSettings] []).isOk = true)
  obtain ⟨jvm, hjvm⟩ := exists_of_isOk
    (by decide : (projectJvmOwners "feature:jvm" [bareVolume]).isOk = true)
  refine ⟨native, jvm, hnative, hjvm, ?_, ?_⟩
  · rw [complete_cpp_iff hnative]
    decide
  · rw [complete_jvm_iff hjvm]
    decide

end SupernoteModule.Frontend
