import SupernoteModule.Proof.SemanticRecord
import SupernoteModule.Semantic.Order

/-!
# The semantic manifest round trip

A class, a declaration and the API read back with their lists sorted, and what reads as one of them
is what it writes, up to the order of those lists.
-/

namespace SupernoteModule.Semantic

open SupernoteModule.Lib SupernoteModule.Python
open SupernoteModule.Python.Json (Fields get keys hasExactly Reordered ReorderedField
  hasExactly_iff)

/-- The lists of the manifest that have no order of their own. -/
def unorderedKeys : List String := ["functions", "classes", "methods", "types", "projections"]

variable {raw : Json} {label : String}

theorem bindings_manifest (bindings : List SemanticBinding) (label : String) :
    manifestItems bindingFromManifest (.array (bindings.map SemanticBinding.manifest)) label =
      .ok bindings :=
  manifestItems_exact fun binding _ label => bindingFromManifest_manifest binding label

theorem fields_manifest (fields : List SemanticField) (label : String) :
    manifestItems fieldFromManifest (.array (fields.map SemanticField.manifest)) label =
      .ok fields :=
  manifestItems_exact fun field _ label => fieldFromManifest_manifest field label

theorem projections_manifest (projections : List SemanticProjection) (label : String) :
    manifestItems projectionFromManifest (.array (projectionManifests projections)) label =
      .ok (sortedProjections projections) :=
  manifestItems_exact fun projection _ label => projectionFromManifest_manifest projection label

/-! ### Classes -/

theorem SemanticClass.named (record : SemanticClass) : record.classId ≠ "" ∧ record.name ≠ "" := by
  have hvalid := record.valid
  simp only [SemanticClass.Fields.postInit, bind_eq_ok, require_eq_ok, validateIdentifier_eq_ok,
    exists_unit] at hvalid
  exact ⟨hvalid.1, ne_empty_of_isIdentifier hvalid.2.1⟩

/-- The fields that a constructor is written as. -/
def SemanticConstructor.entries (constructor : SemanticConstructor) : Json.Fields :=
  [("source_declaration_id", .string constructor.source.declarationId),
    ("parameters", .array (constructor.parameters.map SemanticParameter.manifest)),
    ("source", constructor.source.manifest)]

theorem constructor_manifest (constructor : SemanticConstructor) :
    constructor.manifest = .object constructor.entries := rfl

/-- A class reads back with its methods sorted. -/
theorem classFromManifest_manifest (record : SemanticClass) (label : String) :
    classFromManifest record.manifest label = .ok record.sorted := by
  obtain ⟨hid, hname⟩ := record.named
  simp only [classFromManifest, SemanticClass.manifest, bind_eq_ok, exists_unit,
    manifestObject_eq_ok, manifestKeys_eq_ok, manifestString_eq_ok, require_eq_ok,
    within_eq_ok, manifestMember_eq_ok, capabilitiesFromManifest_eq_ok,
    SemanticConstructor.make_eq_ok, SemanticClass.make_eq_ok]
  -- One witness for each value that is read, in the order of the reader.
  refine ⟨_, rfl, ?keys, record.source, ?source, _, ⟨?sourceId, record.source.named.1⟩, rfl,
    record.constructor.entries, ?constructor, ?constructorKeys, record.constructor.source,
    ?constructorSource, _, ⟨?constructorSourceId, record.constructor.source.named.1⟩, rfl,
    record.classId, ⟨?id, hid⟩, record.kind, ?kind, record.name, ⟨?name, hname⟩,
    record.capabilities, ?capabilities, record.constructor.parameters, ?parameters,
    record.constructor, rfl, sortedBy (·.bindingId) record.methods, ?methods, rfl⟩
  case keys => simp [hasExactly_iff]
  case constructor => simp [Json.get, List.lookup_cons, constructor_manifest]
  case constructorKeys => simp [SemanticConstructor.entries, hasExactly_iff, constructorKeys]
  case source => simp [Json.get, List.lookup_cons, sourceFromManifest_manifest]
  case constructorSource =>
    simp [SemanticConstructor.entries, Json.get, List.lookup_cons, sourceFromManifest_manifest]
  case constructorSourceId => simp [SemanticConstructor.entries, Json.get]
  case parameters =>
    simp [SemanticConstructor.entries, Json.get, List.lookup_cons, parameters_manifest]
  case methods => simp [Json.get, List.lookup_cons, bindings_manifest]
  all_goals simp [Json.get, List.lookup_cons]

theorem constructor_reordered {fields : Fields} {constructor : SemanticConstructor}
    {unordered : List String} {label : String}
    (hkeys : hasExactly fields constructorKeys)
    (hsourceId : get fields "source_declaration_id" = .string constructor.source.declarationId)
    (hparameters : manifestItems parameterFromManifest (get fields "parameters") label =
      .ok constructor.parameters) {sourceLabel : String}
    (hsource : sourceFromManifest (get fields "source") sourceLabel = .ok constructor.source) :
    Reordered unordered (.object fields) constructor.manifest := by
  apply Reordered.of_entries (by simp) hkeys
  simp only [List.forall_mem_cons]
  exact ⟨.of_eq hsourceId,
    .ordered (reordered_items (fun _ _ _ => parameterFromManifest_reordered) hparameters),
    .ordered (sourceFromManifest_reordered hsource), by simp⟩

theorem classFromManifest_reordered {record : SemanticClass}
    (hread : classFromManifest raw label = .ok record) :
    Reordered unorderedKeys raw record.manifest := by
  simp only [classFromManifest, bind_eq_ok, exists_unit, manifestObject_eq_ok,
    manifestKeys_eq_ok, manifestString_eq_ok, require_eq_ok, within_eq_ok, manifestMember_eq_ok,
    capabilitiesFromManifest_eq_ok, SemanticConstructor.make_eq_ok,
    SemanticClass.make_eq_ok] at hread
  obtain ⟨fields, rfl, hkeys, source, hsource, sourceId, ⟨hsourceId, _⟩, rfl, constructorFields,
    hconstructorFields, hconstructorKeys, constructorSource, hconstructorSource,
    constructorSourceId, ⟨hconstructorSourceId, _⟩, rfl, classId, ⟨hid, _⟩, kind, hkind, name,
    ⟨hname, _⟩, capabilities, ⟨hroutable, hpublic⟩, parameters, hparameters, constructor,
    hconstructor, methods, hmethods, hrecord⟩ := hread
  have hbuilt : Reordered unorderedKeys (.object constructorFields) constructor.manifest := by
    apply constructor_reordered hconstructorKeys
    · rw [hconstructor, hconstructorSourceId]
    · rw [hconstructor, hparameters]
    · rw [hconstructor, hconstructorSource]
  apply Reordered.of_entries (by simp) hkeys
  simp only [List.forall_mem_cons, hrecord]
  exact ⟨.of_eq hid, .of_eq hsourceId, .of_eq hkind, .of_eq hname, .of_eq hroutable,
    .of_eq hpublic, .ordered (sourceFromManifest_reordered hsource),
    .ordered (hconstructorFields ▸ hbuilt),
    reorderedField_sorted (by decide) (fun _ _ _ => bindingFromManifest_reordered) hmethods,
    by simp⟩

/-! ### Declarations -/

theorem headerNamed {featureId typeId name : String}
    (hheader : validateDeclarationHeader featureId typeId name = .ok ()) :
    featureId ≠ "" ∧ typeId ≠ "" ∧ name ≠ "" := by
  simp only [validateDeclarationHeader, semanticTypeId, bind_eq_ok, require_eq_ok, exists_unit,
    validateIdentifier_eq_ok, pure_eq_ok] at hheader
  obtain ⟨hfeature, hname, typeId, ⟨_, _, rfl⟩, rfl⟩ := hheader
  refine ⟨hfeature, ?_, ne_empty_of_isIdentifier hname⟩
  intro hempty
  have hparts : toString ":type:" = "" := by
    simp only [String.append_eq_empty_iff] at hempty
    exact hempty.1.2
  exact absurd hparts (by decide)

theorem SemanticEnumDeclaration.named (declaration : SemanticEnumDeclaration) :
    declaration.featureId ≠ "" ∧ declaration.typeId ≠ "" ∧ declaration.name ≠ "" ∧
      ∀ constant ∈ declaration.constants, constant ≠ "" := by
  have hvalid := declaration.valid
  simp only [SemanticEnumDeclaration.Fields.postInit, bind_eq_ok, exists_unit, checkEach_eq_ok,
    validateIdentifier_eq_ok] at hvalid
  obtain ⟨hheader, _, hconstants, _⟩ := hvalid
  obtain ⟨hfeature, htype, hname⟩ := headerNamed hheader
  exact ⟨hfeature, htype, hname,
    fun constant hconstant => ne_empty_of_isIdentifier (hconstants constant hconstant)⟩

theorem SemanticValueDeclaration.named (declaration : SemanticValueDeclaration) :
    declaration.featureId ≠ "" ∧ declaration.typeId ≠ "" ∧ declaration.name ≠ "" := by
  have hvalid := declaration.valid
  simp only [SemanticValueDeclaration.Fields.postInit, bind_eq_ok, exists_unit] at hvalid
  exact headerNamed hvalid.1

theorem SemanticObjectDeclaration.named (declaration : SemanticObjectDeclaration) :
    declaration.featureId ≠ "" ∧ declaration.typeId ≠ "" ∧ declaration.name ≠ "" := by
  have hvalid := declaration.valid
  simp only [SemanticObjectDeclaration.Fields.postInit, bind_eq_ok, exists_unit] at hvalid
  exact headerNamed hvalid.1

theorem constants_manifest {constants : List String} (hnamed : ∀ text ∈ constants, text ≠ "")
    (label : String) :
    manifestItems manifestString (.array (constants.map .string)) label = .ok constants :=
  manifestItems_exact fun text htext _ => manifestString_eq_ok.mpr ⟨rfl, hnamed text htext⟩

theorem optionalConstructor_manifest (constructor : Option SemanticConstructor) (label : String) :
    optionalConstructor (SemanticObjectDeclaration.constructorManifest constructor) label =
      .ok constructor := by
  cases constructor with
  | none => rfl
  | some constructor =>
      have hread := constructorFromManifest_manifest constructor label
      rw [SemanticConstructor.manifest] at hread
      simp [SemanticObjectDeclaration.constructorManifest, SemanticConstructor.manifest,
        optionalConstructor, hread, Except.map]

theorem enumFromManifest_manifest (declaration : SemanticEnumDeclaration) {fields : Json.Fields}
    (hfields : declaration.manifest = .object fields) (label : String) :
    enumFromManifest fields declaration.featureId declaration.typeId declaration.name label =
      .ok declaration.sorted := by
  obtain rfl := Json.object.inj hfields
  obtain ⟨_, _, _, hconstants⟩ := declaration.named
  simp only [enumFromManifest, bind_eq_ok, exists_unit, manifestKeys_eq_ok,
    SemanticEnumDeclaration.make_eq_ok]
  refine ⟨?keys, declaration.constants, ?constants, sortedProjections declaration.projections,
    ?projections, rfl⟩
  case keys => simp [hasExactly_iff, commonKeys]
  case constants => simp [Json.get, List.lookup_cons, constants_manifest hconstants]
  case projections => simp [Json.get, List.lookup_cons, projections_manifest]

theorem valueFromManifest_manifest (declaration : SemanticValueDeclaration) {fields : Json.Fields}
    (hfields : declaration.manifest = .object fields) (label : String) :
    valueFromManifest fields declaration.featureId declaration.typeId declaration.name label =
      .ok declaration.sorted := by
  obtain rfl := Json.object.inj hfields
  simp only [valueFromManifest, bind_eq_ok, exists_unit, manifestKeys_eq_ok,
    SemanticValueDeclaration.make_eq_ok]
  refine ⟨?keys, declaration.fields, ?fields, sortedProjections declaration.projections,
    ?projections, rfl⟩
  case keys => simp [hasExactly_iff, commonKeys]
  case fields => simp [Json.get, List.lookup_cons, fields_manifest]
  case projections => simp [Json.get, List.lookup_cons, projections_manifest]

theorem objectFromManifest_manifest (declaration : SemanticObjectDeclaration) {fields : Json.Fields}
    (hfields : declaration.manifest = .object fields) (label : String) :
    objectFromManifest fields declaration.featureId declaration.typeId declaration.name label =
      .ok declaration.sorted := by
  obtain rfl := Json.object.inj hfields
  simp only [objectFromManifest, bind_eq_ok, exists_unit, manifestKeys_eq_ok,
    SemanticObjectDeclaration.make_eq_ok]
  refine ⟨?keys, declaration.projection, ?projection, declaration.constructor, ?constructor,
    sortedBy (·.bindingId) declaration.methods, ?methods, declaration.fields, ?fields, rfl⟩
  case keys => simp [hasExactly_iff, commonKeys]
  case projection => simp [Json.get, List.lookup_cons, projectionFromManifest_manifest]
  case constructor => simp [Json.get, List.lookup_cons, optionalConstructor_manifest]
  case methods => simp [Json.get, List.lookup_cons, bindings_manifest]
  case fields => simp [Json.get, List.lookup_cons, fields_manifest]

/-- A declaration reads back with its methods and projections sorted. -/
theorem declarationFromManifest_manifest (declaration : SemanticDeclaration) (label : String) :
    declarationFromManifest declaration.manifest label = .ok declaration.sorted := by
  simp only [declarationFromManifest, bind_eq_ok, manifestObject_eq_ok, manifestString_eq_ok,
    mapError_eq_ok, memberOf_eq_ok]
  cases declaration with
  | enum declaration =>
      obtain ⟨hfeature, htype, hname, _⟩ := declaration.named
      have hbody := enumFromManifest_manifest declaration rfl label
      exact ⟨_, rfl, _, ⟨rfl, Enumeration.named _⟩, .enum, rfl, _, ⟨rfl, hfeature⟩, _, ⟨rfl, htype⟩,
        _, ⟨rfl, hname⟩, map_eq_ok.mpr ⟨_, hbody, rfl⟩⟩
  | value declaration =>
      obtain ⟨hfeature, htype, hname⟩ := declaration.named
      have hbody := valueFromManifest_manifest declaration rfl label
      exact ⟨_, rfl, _, ⟨rfl, Enumeration.named _⟩, .value, rfl, _, ⟨rfl, hfeature⟩, _,
        ⟨rfl, htype⟩, _, ⟨rfl, hname⟩, map_eq_ok.mpr ⟨_, hbody, rfl⟩⟩
  | object declaration =>
      obtain ⟨hfeature, htype, hname⟩ := declaration.named
      have hbody := objectFromManifest_manifest declaration rfl label
      exact ⟨_, rfl, _, ⟨rfl, Enumeration.named _⟩, .object, rfl, _, ⟨rfl, hfeature⟩, _,
        ⟨rfl, htype⟩, _, ⟨rfl, hname⟩, map_eq_ok.mpr ⟨_, hbody, rfl⟩⟩

theorem constants_reordered {unordered : List String} {constants : List String}
    (hread : manifestItems manifestString raw label = .ok constants) :
    Reordered unordered raw (.array (constants.map .string)) := by
  apply reordered_items _ hread
  intro item itemLabel text htext
  rw [(manifestString_eq_ok.mp htext).1]
  exact .same _

theorem optionalConstructor_reordered {unordered : List String}
    {constructor : Option SemanticConstructor}
    (hread : optionalConstructor raw label = .ok constructor) :
    Reordered unordered raw (SemanticObjectDeclaration.constructorManifest constructor) := by
  by_cases hnull : raw = .null
  · subst hnull
    obtain rfl : none = constructor := by simpa [optionalConstructor] using hread
    exact .same _
  · have hsome : (constructorFromManifest raw label).map some = .ok constructor := by
      cases raw with
      | null => exact absurd rfl hnull
      | _ => simpa [optionalConstructor] using hread
    obtain ⟨found, hfound, rfl⟩ := map_eq_ok.mp hsome
    exact constructorFromManifest_reordered hfound

theorem declarationFromManifest_reordered {declaration : SemanticDeclaration}
    (hread : declarationFromManifest raw label = .ok declaration) :
    Reordered unorderedKeys raw declaration.manifest := by
  simp only [declarationFromManifest, bind_eq_ok, manifestObject_eq_ok, manifestString_eq_ok,
    mapError_eq_ok, memberOf_eq_ok] at hread
  obtain ⟨fields, rfl, kindText, ⟨hkind, _⟩, kind, rfl, featureId, ⟨hfeature, _⟩, typeId,
    ⟨htype, _⟩, name, ⟨hname, _⟩, hbuild⟩ := hread
  cases kind with
  | enum =>
      obtain ⟨declaration, hdeclaration, rfl⟩ := map_eq_ok.mp hbuild
      simp only [enumFromManifest, bind_eq_ok, exists_unit, manifestKeys_eq_ok,
        SemanticEnumDeclaration.make_eq_ok] at hdeclaration
      obtain ⟨hkeys, constants, hconstants, projections, hprojections, hfields⟩ := hdeclaration
      apply Reordered.of_entries (by simp) hkeys
      simp only [List.forall_mem_cons, hfields]
      exact ⟨.of_eq hkind, .of_eq hfeature, .of_eq htype, .of_eq hname,
        .ordered (constants_reordered hconstants),
        reorderedField_sorted (by decide) (fun _ _ _ => projectionFromManifest_reordered)
          hprojections, by simp⟩
  | value =>
      obtain ⟨declaration, hdeclaration, rfl⟩ := map_eq_ok.mp hbuild
      simp only [valueFromManifest, bind_eq_ok, exists_unit, manifestKeys_eq_ok,
        SemanticValueDeclaration.make_eq_ok] at hdeclaration
      obtain ⟨hkeys, members, hmembers, projections, hprojections, hfields⟩ := hdeclaration
      apply Reordered.of_entries (by simp) hkeys
      simp only [List.forall_mem_cons, hfields]
      exact ⟨.of_eq hkind, .of_eq hfeature, .of_eq htype, .of_eq hname,
        .ordered (reordered_items (fun _ _ _ => fieldFromManifest_reordered) hmembers),
        reorderedField_sorted (by decide) (fun _ _ _ => projectionFromManifest_reordered)
          hprojections, by simp⟩
  | object =>
      obtain ⟨declaration, hdeclaration, rfl⟩ := map_eq_ok.mp hbuild
      simp only [objectFromManifest, bind_eq_ok, exists_unit, manifestKeys_eq_ok,
        SemanticObjectDeclaration.make_eq_ok] at hdeclaration
      obtain ⟨hkeys, projection, hprojection, constructor, hconstructor, methods, hmethods, members,
        hmembers, hfields⟩ := hdeclaration
      apply Reordered.of_entries (by simp) hkeys
      simp only [List.forall_mem_cons, hfields]
      exact ⟨.of_eq hkind, .of_eq hfeature, .of_eq htype, .of_eq hname,
        .ordered (projectionFromManifest_reordered hprojection),
        .ordered (optionalConstructor_reordered hconstructor),
        reorderedField_sorted (by decide) (fun _ _ _ => bindingFromManifest_reordered) hmethods,
        .ordered (reordered_items (fun _ _ _ => fieldFromManifest_reordered) hmembers), by simp⟩

/-! ### The API -/

theorem checkSchema_eq_ok {done : Unit} :
    semanticApiFromManifest.checkSchema raw = .ok done ↔
      raw = .string SemanticApi.schemaVersion := by
  cases raw with
  | string schema =>
      simp only [semanticApiFromManifest.checkSchema, bind_eq_ok, require_eq_ok, exists_unit,
        Json.string.injEq]
      constructor
      · exact And.right
      · rintro rfl
        exact ⟨by decide, rfl⟩
  | _ => simp [semanticApiFromManifest.checkSchema]

/-- An API reads back with its lists sorted. -/
theorem semanticApiFromManifest_manifest (api : SemanticApi) :
    semanticApiFromManifest api.manifest = .ok api.sorted := by
  have hclasses : ∀ label, manifestItems classFromManifest
      (.array ((sortedBy (·.classId) api.classes).map SemanticClass.manifest)) label =
        .ok ((sortedBy (·.classId) api.classes).map SemanticClass.sorted) :=
    fun label => manifestItems_map fun record _ label => classFromManifest_manifest record label
  have hdeclarations : ∀ label, manifestItems declarationFromManifest
      (.array ((sortedBy (·.typeId) api.declarations).map SemanticDeclaration.manifest)) label =
        .ok ((sortedBy (·.typeId) api.declarations).map SemanticDeclaration.sorted) :=
    fun label => manifestItems_map
      fun declaration _ label => declarationFromManifest_manifest declaration label
  have hkind : SemanticApi.manifestKind ≠ "" := by decide
  simp [semanticApiFromManifest, SemanticApi.manifest, bind_eq_ok, checkSchema_eq_ok,
    hasExactly_iff, Json.get, List.lookup_cons, hkind, bindings_manifest, hclasses, hdeclarations]
  rfl

theorem semanticApiFromManifest_reordered {api : SemanticApi}
    (hread : semanticApiFromManifest raw = .ok api) :
    Reordered unorderedKeys raw api.manifest := by
  simp only [semanticApiFromManifest, bind_eq_ok, exists_unit, manifestObject_eq_ok,
    manifestKeys_eq_ok, checkSchema_eq_ok, manifestString_eq_ok, require_eq_ok,
    SemanticApi.make_eq_ok] at hread
  obtain ⟨fields, rfl, hkeys, hschema, kind, ⟨hkind, _⟩, rfl, functions, hfunctions, classes,
    hclasses, declarations, hdeclarations, hfields⟩ := hread
  apply Reordered.of_entries (by simp) hkeys
  simp only [List.forall_mem_cons, hfields]
  exact ⟨.of_eq hschema, .of_eq hkind,
    reorderedField_sorted (by decide) (fun _ _ _ => bindingFromManifest_reordered) hfunctions,
    reorderedField_sorted (by decide) (fun _ _ _ => classFromManifest_reordered) hclasses,
    reorderedField_sorted (by decide) (fun _ _ _ => declarationFromManifest_reordered)
      hdeclarations, by simp⟩

/-! ### Sorting does not show in the manifest -/

theorem sortedBy_idem {Item : Type} {key : Item → String} (items : List Item) :
    sortedBy key (sortedBy key items) = sortedBy key items :=
  sortedBy_eq_self (pairwise_sortedBy key items)

/-- Sorted records write the same list in the same order. -/
theorem map_manifest_sorted {Item : Type} (key : Item → String) (sort : Item → Item)
    {write : Item → Json} (hkey : ∀ item, key (sort item) = key item)
    (hwrite : ∀ item, write (sort item) = write item) (items : List Item) :
    (sortedBy key ((sortedBy key items).map sort)).map write =
      (sortedBy key items).map write := by
  have hsorted : ((sortedBy key items).map sort).Pairwise
      fun left right => key left ≤ key right := by
    simpa only [List.pairwise_map, hkey] using pairwise_sortedBy key items
  rw [sortedBy_eq_self hsorted, List.map_map]
  exact List.map_congr_left fun item _ => hwrite item

theorem SemanticClass.manifest_sorted (record : SemanticClass) :
    record.sorted.manifest = record.manifest := by
  simp [SemanticClass.manifest, SemanticClass.sorted, sortedBy_idem]

theorem SemanticDeclaration.manifest_sorted (declaration : SemanticDeclaration) :
    declaration.sorted.manifest = declaration.manifest := by
  cases declaration with
  | enum declaration =>
      simp [SemanticDeclaration.sorted, SemanticDeclaration.manifest,
        SemanticEnumDeclaration.manifest, SemanticEnumDeclaration.sorted, projectionManifests,
        sortedProjections, sortedBy_idem]
  | value declaration =>
      simp [SemanticDeclaration.sorted, SemanticDeclaration.manifest,
        SemanticValueDeclaration.manifest, SemanticValueDeclaration.sorted, projectionManifests,
        sortedProjections, sortedBy_idem]
  | object declaration =>
      simp [SemanticDeclaration.sorted, SemanticDeclaration.manifest,
        SemanticObjectDeclaration.manifest, SemanticObjectDeclaration.sorted, sortedBy_idem]

theorem SemanticApi.manifest_sorted (api : SemanticApi) :
    api.sorted.manifest = api.manifest := by
  have hclasses := map_manifest_sorted (·.classId) SemanticClass.sorted (fun _ => rfl)
    SemanticClass.manifest_sorted api.classes
  have hdeclarations := map_manifest_sorted (·.typeId) SemanticDeclaration.sorted
    SemanticDeclaration.typeId_sorted SemanticDeclaration.manifest_sorted api.declarations
  simp [SemanticApi.manifest, SemanticApi.sorted, SemanticApi.Fields.sorted, sortedBy_idem,
    hclasses, hdeclarations]

/-- **Every API survives its manifest, and every accepted manifest is the one its API writes**: both
up to the order of the functions, classes, methods, declarations and projections. -/
theorem semanticManifest_roundTrip :
    (∀ api : SemanticApi, ∃ read, semanticApiFromManifest api.manifest = .ok read ∧
      api.SameUpToOrder read ∧ read.manifest = api.manifest) ∧
    ∀ (raw : Json) (api : SemanticApi), semanticApiFromManifest raw = .ok api →
      Reordered unorderedKeys raw api.manifest := by
  constructor
  · intro api
    exact ⟨api.sorted, semanticApiFromManifest_manifest api, api.sameUpToOrder_sorted,
      api.manifest_sorted⟩
  · intro raw api hread
    exact semanticApiFromManifest_reordered hread

/-- A manifest with two functions that are not in the order of their identities. -/
def swappedManifest : Json :=
  let source (name : String) : Json := .object [("column", .integer 1), ("line", .integer 1),
    ("path", .string "feature.hpp"), ("language", .string "cpp"), ("declaration_id", .string name)]
  let function (name : String) : Json := .object [("binding_id", .string name),
    ("source_declaration_id", .string name), ("kind", .string "function"), ("name", .string name),
    ("routable", .bool true), ("javascript_public", .bool true), ("execution", .string "sync"),
    ("parameters", .array []), ("result", .object [("kind", .string "void")]),
    ("member_scope", .string "top_level"), ("source", source name)]
  .object [("schema_version", .string "1.0"),
    ("kind", .string "supernote_module_semantic_manifest"),
    ("functions", .array [function "b", function "a"]), ("classes", .array []),
    ("types", .array [])]

theorem semanticManifest_roundTrip_swapped :
    ∃ api, semanticApiFromManifest swappedManifest = .ok api ∧
      Reordered unorderedKeys swappedManifest api.manifest := by
  obtain ⟨api, hread⟩ := exists_of_isOk
    (show (semanticApiFromManifest swappedManifest).isOk = true by decide)
  exact ⟨api, hread, semanticManifest_roundTrip.2 swappedManifest api hread⟩

end SupernoteModule.Semantic
