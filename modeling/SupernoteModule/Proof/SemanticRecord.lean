import SupernoteModule.Semantic.Manifest
import SupernoteModule.Python.JsonOrder

/-!
# Reading the records of the semantic manifest

Every record that has no unordered list reads back as itself, and whatever reads as a record is what
the record writes, up to the order of the keys.
-/

namespace SupernoteModule.Semantic

open SupernoteModule.Lib SupernoteModule.Python
open SupernoteModule.Python.Json (Fields get keys hasExactly Reordered ReorderedField
  hasExactly_iff)

/-! ### Primitives -/

section

variable {raw : Json} {label : String}

@[simp] theorem manifestObject_eq_ok {fields : Fields} :
    manifestObject raw label = .ok fields ↔ raw = .object fields := by
  cases raw <;> simp [manifestObject]

@[simp] theorem manifestList_eq_ok {items : List Json} :
    manifestList raw label = .ok items ↔ raw = .array items := by
  cases raw <;> simp [manifestList]

@[simp] theorem manifestString_eq_ok {text : String} :
    manifestString raw label = .ok text ↔ raw = .string text ∧ text ≠ "" := by
  cases raw with
  | string found =>
      by_cases hfound : found = ""
      · simp only [manifestString, hfound, ne_eq, not_true_eq_false, if_false, reduceCtorEq,
          Json.string.injEq, false_iff, not_and, not_not]
        exact Eq.symm
      · simp only [manifestString, hfound, ne_eq, not_false_eq_true, if_true, Except.ok.injEq,
          Json.string.injEq]
        constructor
        · rintro rfl
          exact ⟨rfl, hfound⟩
        · exact And.left
  | _ => simp [manifestString]

@[simp] theorem manifestInt_eq_ok {number : Int} :
    manifestInt raw label = .ok number ↔ raw = .integer number := by
  cases raw <;> simp [manifestInt]

@[simp] theorem manifestBool_eq_ok {flag : Bool} :
    manifestBool raw label = .ok flag ↔ raw = .bool flag := by
  cases raw <;> simp [manifestBool]

@[simp] theorem manifestMember_eq_ok {Member : Type} [Enumeration Member] {member : Member} :
    manifestMember raw label = .ok member ↔ raw = .string (value member) := by
  simp only [manifestMember, bind_eq_ok, manifestString_eq_ok, memberOf_eq_ok]
  constructor
  · rintro ⟨text, ⟨hraw, _⟩, rfl⟩
    exact hraw
  · intro hraw
    exact ⟨_, ⟨hraw, Enumeration.named member⟩, rfl⟩

@[simp] theorem manifestKeys_eq_ok {fields : Fields} {expected : List String} {done : Unit} :
    manifestKeys fields expected label = .ok done ↔ hasExactly fields expected := by
  simp [manifestKeys]

@[simp] theorem within_eq_ok {Item : Type} {body : Except SemanticError Item} {item : Item} :
    within label body = .ok item ↔ body = .ok item := by
  simp [within]

@[simp] theorem modelTypeFromManifest_eq_ok {type : SemanticType} :
    modelTypeFromManifest raw label = .ok type ↔ semanticTypeFromManifest raw label = .ok type := by
  rw [modelTypeFromManifest, mapError_eq_ok]

/-- A list of encoded items reads as what each item reads as. -/
theorem manifestItems_map {Item Output : Type} {step : Json → String → Except SemanticError Output}
    {encode : Item → Json} {read : Item → Output} {items : List Item}
    (hstep : ∀ item ∈ items, ∀ label, step (encode item) label = .ok (read item)) :
    manifestItems step (.array (items.map encode)) label = .ok (items.map read) := by
  simp only [manifestItems, bind_eq_ok, manifestList_eq_ok, Json.array.injEq, exists_eq_left']
  exact enumerate_map (fun item hitem index => hstep item hitem _) 0

theorem manifestItems_exact {Item : Type} {step : Json → String → Except SemanticError Item}
    {encode : Item → Json} {items : List Item}
    (hstep : ∀ item ∈ items, ∀ label, step (encode item) label = .ok item) :
    manifestItems step (.array (items.map encode)) label = .ok items := by
  calc manifestItems step (.array (items.map encode)) label
      = .ok (items.map id) := manifestItems_map hstep
    _ = .ok items := by rw [List.map_id]

theorem manifestItems_eq_ok {Output : Type} {step : Json → String → Except SemanticError Output}
    {outputs : List Output} (hread : manifestItems step raw label = .ok outputs) :
    ∃ items, raw = .array items ∧
      List.Forall₂ (fun item output => ∃ label, step item label = .ok output) items outputs := by
  simp only [manifestItems, bind_eq_ok, manifestList_eq_ok] at hread
  obtain ⟨items, hraw, houtputs⟩ := hread
  refine ⟨items, hraw, (enumerate_eq_ok houtputs).imp ?_⟩
  rintro item output ⟨index, hitem⟩
  exact ⟨_, hitem⟩

end

section

variable {unordered : List String}

/-- What reads as a list of records is the list they write, item by item. -/
theorem reordered_items {Item : Type} {step : Json → String → Except SemanticError Item}
    {encode : Item → Json}
    (hstep : ∀ raw label item, step raw label = .ok item → Reordered unordered raw (encode item))
    {raw : Json} {label : String} {items : List Item}
    (hread : manifestItems step raw label = .ok items) :
    Reordered unordered raw (.array (items.map encode)) := by
  obtain ⟨raws, rfl, hitems⟩ := manifestItems_eq_ok hread
  apply Reordered.array
  rw [List.forall₂_map_right_iff]
  refine hitems.imp ?_
  rintro item output ⟨itemLabel, hitem⟩
  exact hstep item itemLabel output hitem

/-- What reads as a list of records is the sorted list they write, in another order. -/
theorem reorderedField_sorted {Item : Type} {step : Json → String → Except SemanticError Item}
    {encode : Item → Json} {sortKey : Item → String} {key : String} (hkey : key ∈ unordered)
    (hstep : ∀ raw label item, step raw label = .ok item → Reordered unordered raw (encode item))
    {raw : Json} {label : String} {items : List Item}
    (hread : manifestItems step raw label = .ok items) :
    ReorderedField unordered key raw (.array ((sortedBy sortKey items).map encode)) := by
  obtain ⟨raws, rfl, hitems⟩ := manifestItems_eq_ok hread
  obtain ⟨middles, hmiddles, hperm⟩ :=
    List.perm_comp_forall₂ (sortedBy_perm sortKey items) hitems.flip
  apply ReorderedField.unordered hkey hperm.symm
  rw [List.forall₂_map_right_iff]
  refine hmiddles.flip.imp ?_
  rintro item output ⟨itemLabel, hitem⟩
  exact hstep item itemLabel output hitem

end

/-! ### Types -/

theorem requireKeys_eq_ok {fields : Fields} {expected : List String} {label : String}
    {done : Unit} : requireKeys fields expected label = .ok done ↔ hasExactly fields expected := by
  simp [requireKeys]

theorem semanticTypeKind_eq_ok {fields : Fields} {label : String} {kind : SemanticTypeKind} :
    semanticTypeKind fields label = .ok kind ↔ get fields "kind" = .string (value kind) := by
  unfold semanticTypeKind
  cases hkind : get fields "kind" with
  | string text =>
      simp only [bind_eq_ok, require_eq_ok, exists_unit, Json.string.injEq]
      constructor
      · rintro ⟨_, hmember⟩
        exact memberOf_eq_ok.mp (mapError_eq_ok.mp hmember)
      · rintro rfl
        exact ⟨Enumeration.named kind, mapError_eq_ok.mpr (memberOf_eq_ok.mpr rfl)⟩
  | _ => simp

theorem typeField_eq_ok {fields : Fields} {key label : String} {type : SemanticType} :
    typeField fields key label = .ok type ↔
      ∃ raw, fields.lookup key = some raw ∧ semanticTypeFromManifest raw label = .ok type := by
  induction fields with
  | nil => simp [typeField]
  | cons entry fields ih =>
      obtain ⟨name, raw⟩ := entry
      by_cases hname : name = key
      · simp [typeField, hname]
      · have hbeq : (key == name) = false := by simpa using Ne.symm hname
        simp [typeField, hname, List.lookup_cons, hbeq, ih]

theorem scalarTypeFromManifest_eq_ok {raw : Json} {label : String} {type : SemanticType} :
    scalarTypeFromManifest raw label = .ok type ↔
      ∃ kind, raw = .string (value kind) ∧ type.node = .scalar kind := by
  cases raw with
  | string text =>
      simp only [scalarTypeFromManifest, bind_eq_ok, memberOf_eq_ok, pure_eq_ok, Json.string.injEq]
      constructor
      · rintro ⟨kind, htext, rfl⟩
        exact ⟨kind, htext, rfl⟩
      · rintro ⟨kind, htext, hnode⟩
        exact ⟨kind, htext, SemanticType.eq_of_node hnode.symm⟩
  | _ => simp [scalarTypeFromManifest]

theorem namedTypeFromManifest_eq_ok {raw : Json} {label : String}
    {build : String → Except SemanticError SemanticType} {type : SemanticType} :
    namedTypeFromManifest raw build label = .ok type ↔
      ∃ typeId, raw = .string typeId ∧ typeId ≠ "" ∧ build typeId = .ok type := by
  cases raw with
  | string text => simp [namedTypeFromManifest, bind_eq_ok]
  | _ => simp [namedTypeFromManifest]

/-- A named reference has a type ID. -/
theorem TypeNode.Valid.named {node : TypeNode} (hvalid : node.Valid) {kind typeId}
    (hreference : node.reference? = some (kind, typeId)) : typeId ≠ "" := by
  cases node with
  | enumRef name | valueRef name | objectRef name =>
      simp only [TypeNode.reference?, Option.some.injEq, Prod.mk.injEq] at hreference
      obtain ⟨_, rfl⟩ := hreference
      simpa [TypeNode.Valid, TypeNode.postInit] using hvalid
  | _ => simp [TypeNode.reference?] at hreference

/-- What the fields of a type hold besides its kind. -/
def TypePayload (fields : Fields) (label : String) : TypeNode → Prop
  | .void => True
  | .scalar kind => get fields "name" = .string (value kind)
  | .enumRef typeId | .valueRef typeId | .objectRef typeId =>
      get fields "type_id" = .string typeId
  | .array node =>
      ∃ raw element, fields.lookup "element" = some raw ∧ element.node = node ∧
        semanticTypeFromManifest raw s!"{label}.element" = .ok element
  | .nullable node =>
      ∃ raw inner, fields.lookup "inner" = some raw ∧ inner.node = node ∧
        semanticTypeFromManifest raw s!"{label}.inner" = .ok inner

theorem semanticTypeFromManifest_object {fields : Fields} {label : String} {type : SemanticType} :
    semanticTypeFromManifest (.object fields) label = .ok type ↔
      get fields "kind" = .string (value type.node.kind) ∧
        hasExactly fields (semanticTypeFields type.node.kind) ∧
        TypePayload fields label type.node := by
  simp only [semanticTypeFromManifest, bind_eq_ok, semanticTypeKind_eq_ok, requireKeys_eq_ok,
    exists_unit, rewrap_eq_ok]
  constructor
  · rintro ⟨kind, hkind, hkeys, hpayload⟩
    cases kind with
    | void =>
        obtain rfl : SemanticType.void = type := by simpa using hpayload
        exact ⟨hkind, hkeys, trivial⟩
    | scalar =>
        obtain ⟨name, hname, hnode⟩ := scalarTypeFromManifest_eq_ok.mp hpayload
        rw [hnode]
        exact ⟨hkind, hkeys, hname⟩
    | enumRef =>
        obtain ⟨typeId, hid, _, hbuild⟩ := namedTypeFromManifest_eq_ok.mp hpayload
        rw [SemanticType.enumRef_eq_ok.mp hbuild]
        exact ⟨hkind, hkeys, hid⟩
    | valueRef =>
        obtain ⟨typeId, hid, _, hbuild⟩ := namedTypeFromManifest_eq_ok.mp hpayload
        rw [SemanticType.valueRef_eq_ok.mp hbuild]
        exact ⟨hkind, hkeys, hid⟩
    | objectRef =>
        obtain ⟨typeId, hid, _, hbuild⟩ := namedTypeFromManifest_eq_ok.mp hpayload
        rw [SemanticType.objectRef_eq_ok.mp hbuild]
        exact ⟨hkind, hkeys, hid⟩
    | array =>
        simp only [bind_eq_ok, typeField_eq_ok, SemanticType.array_eq_ok] at hpayload
        obtain ⟨element, ⟨raw, hlookup, hread⟩, hnode⟩ := hpayload
        rw [hnode]
        exact ⟨hkind, hkeys, raw, element, hlookup, rfl, hread⟩
    | nullable =>
        simp only [bind_eq_ok, typeField_eq_ok, SemanticType.nullable_eq_ok] at hpayload
        obtain ⟨inner, ⟨raw, hlookup, hread⟩, hnode⟩ := hpayload
        rw [hnode]
        exact ⟨hkind, hkeys, raw, inner, hlookup, rfl, hread⟩
  · rintro ⟨hkind, hkeys, hpayload⟩
    refine ⟨type.node.kind, hkind, hkeys, ?_⟩
    obtain ⟨node, hvalid⟩ := type
    cases node with
    | void => rfl
    | scalar kind => exact scalarTypeFromManifest_eq_ok.mpr ⟨kind, hpayload, rfl⟩
    | enumRef typeId =>
        have hnamed := hvalid.named rfl
        exact namedTypeFromManifest_eq_ok.mpr
          ⟨typeId, hpayload, hnamed, SemanticType.enumRef_eq_ok.mpr rfl⟩
    | valueRef typeId =>
        have hnamed := hvalid.named rfl
        exact namedTypeFromManifest_eq_ok.mpr
          ⟨typeId, hpayload, hnamed, SemanticType.valueRef_eq_ok.mpr rfl⟩
    | objectRef typeId =>
        have hnamed := hvalid.named rfl
        exact namedTypeFromManifest_eq_ok.mpr
          ⟨typeId, hpayload, hnamed, SemanticType.objectRef_eq_ok.mpr rfl⟩
    | array node =>
        obtain ⟨raw, element, hlookup, rfl, hread⟩ := hpayload
        simp only [TypeNode.kind, bind_eq_ok]
        exact ⟨element, typeField_eq_ok.mpr ⟨raw, hlookup, hread⟩,
          SemanticType.array_eq_ok.mpr rfl⟩
    | nullable node =>
        obtain ⟨raw, inner, hlookup, rfl, hread⟩ := hpayload
        simp only [TypeNode.kind, bind_eq_ok]
        exact ⟨inner, typeField_eq_ok.mpr ⟨raw, hlookup, hread⟩,
          SemanticType.nullable_eq_ok.mpr rfl⟩

theorem semanticTypeFromManifest_eq_ok {raw : Json} {label : String} {type : SemanticType} :
    semanticTypeFromManifest raw label = .ok type ↔
      ∃ fields, raw = .object fields ∧ get fields "kind" = .string (value type.node.kind) ∧
        hasExactly fields (semanticTypeFields type.node.kind) ∧
        TypePayload fields label type.node := by
  cases raw with
  | object fields => simp [semanticTypeFromManifest_object]
  | _ => simp [semanticTypeFromManifest]

/-- A type reads back as itself. -/
theorem semanticTypeFromManifest_manifest (type : SemanticType) (label : String) :
    semanticTypeFromManifest type.manifest label = .ok type := by
  obtain ⟨node, hvalid⟩ := type
  induction node generalizing label with
  | void | scalar kind | enumRef typeId | valueRef typeId | objectRef typeId =>
      apply semanticTypeFromManifest_object.mpr
      simp [TypeNode.kind, TypePayload, semanticTypeFields, hasExactly_iff, Json.get,
        List.lookup_cons]
  | array element ih =>
      apply semanticTypeFromManifest_object.mpr
      simp only [TypeNode.kind, TypePayload, semanticTypeFields, hasExactly_iff, Json.get]
      exact ⟨rfl, by simp, _, ⟨element, hvalid.2⟩, rfl, rfl, ih _ hvalid.2⟩
  | nullable inner ih =>
      apply semanticTypeFromManifest_object.mpr
      simp only [TypeNode.kind, TypePayload, semanticTypeFields, hasExactly_iff, Json.get]
      exact ⟨rfl, by simp, _, ⟨inner, hvalid.2⟩, rfl, rfl, ih _ hvalid.2⟩

/-- What reads as a type is what the type writes. -/
theorem semanticTypeFromManifest_reordered {unordered : List String} {raw : Json} {label : String}
    {type : SemanticType} (hread : semanticTypeFromManifest raw label = .ok type) :
    Reordered unordered raw type.manifest := by
  obtain ⟨node, hvalid⟩ := type
  induction node generalizing raw label with
  | void =>
      obtain ⟨fields, rfl, hkind, hkeys, _⟩ := semanticTypeFromManifest_eq_ok.mp hread
      apply Reordered.of_entries (by simp) hkeys
      simp only [List.forall_mem_cons]
      exact ⟨.of_eq hkind, by simp⟩
  | scalar kind =>
      obtain ⟨fields, rfl, hkind, hkeys, hname⟩ := semanticTypeFromManifest_eq_ok.mp hread
      apply Reordered.of_entries (by simp) hkeys
      simp only [List.forall_mem_cons]
      exact ⟨.of_eq hkind, .of_eq hname, by simp⟩
  | enumRef typeId | valueRef typeId | objectRef typeId =>
      obtain ⟨fields, rfl, hkind, hkeys, htypeId⟩ := semanticTypeFromManifest_eq_ok.mp hread
      apply Reordered.of_entries (by simp) hkeys
      simp only [List.forall_mem_cons]
      exact ⟨.of_eq hkind, .of_eq htypeId, by simp⟩
  | array node ih =>
      obtain ⟨fields, rfl, hkind, hkeys, raw, element, hlookup, rfl, helement⟩ :=
        semanticTypeFromManifest_eq_ok.mp hread
      have hget : get fields "element" = raw := by simp [Json.get, hlookup]
      apply Reordered.of_entries (by simp) hkeys
      simp only [List.forall_mem_cons]
      exact ⟨.of_eq hkind, .ordered (hget ▸ ih hvalid.2 helement), by simp⟩
  | nullable node ih =>
      obtain ⟨fields, rfl, hkind, hkeys, raw, inner, hlookup, rfl, hinner⟩ :=
        semanticTypeFromManifest_eq_ok.mp hread
      have hget : get fields "inner" = raw := by simp [Json.get, hlookup]
      apply Reordered.of_entries (by simp) hkeys
      simp only [List.forall_mem_cons]
      exact ⟨.of_eq hkind, .ordered (hget ▸ ih hvalid.2 hinner), by simp⟩

/-! ### Records without unordered lists -/

section

variable {unordered : List String} {raw : Json} {label : String}

theorem sourceFromManifest_manifest (source : SourceProvenance) (label : String) :
    sourceFromManifest source.manifest label = .ok source := by
  simp [sourceFromManifest, SourceProvenance.manifest, bind_eq_ok, hasExactly_iff,
    Json.get, List.lookup_cons, source.named]

theorem sourceFromManifest_reordered {source : SourceProvenance}
    (hread : sourceFromManifest raw label = .ok source) :
    Reordered unordered raw source.manifest := by
  simp only [sourceFromManifest, bind_eq_ok, exists_unit, manifestObject_eq_ok,
    manifestKeys_eq_ok, within_eq_ok, manifestString_eq_ok, manifestInt_eq_ok,
    SourceProvenance.make_eq_ok] at hread
  obtain ⟨fields, rfl, hkeys, declarationId, ⟨hid, _⟩, language, ⟨hlanguage, _⟩, path, ⟨hpath, _⟩,
    line, hline, column, hcolumn, hsource⟩ := hread
  apply Reordered.of_entries (by simp) hkeys
  simp only [List.forall_mem_cons, hsource]
  exact ⟨.of_eq hid, .of_eq hlanguage, .of_eq hpath, .of_eq hline, .of_eq hcolumn, by simp⟩

theorem SemanticParameter.named (parameter : SemanticParameter) : parameter.name ≠ "" := by
  have hvalid := parameter.valid
  simp only [SemanticParameter.Fields.postInit, bind_eq_ok, validateIdentifier_eq_ok,
    exists_unit] at hvalid
  exact ne_empty_of_isIdentifier hvalid.1

theorem parameterFromManifest_manifest (parameter : SemanticParameter) (label : String) :
    parameterFromManifest parameter.manifest label = .ok parameter := by
  simp [parameterFromManifest, SemanticParameter.manifest, bind_eq_ok, hasExactly_iff,
    Json.get, List.lookup_cons, parameter.named, semanticTypeFromManifest_manifest]

theorem parameterFromManifest_reordered {parameter : SemanticParameter}
    (hread : parameterFromManifest raw label = .ok parameter) :
    Reordered unordered raw parameter.manifest := by
  simp only [parameterFromManifest, bind_eq_ok, exists_unit, manifestObject_eq_ok,
    manifestKeys_eq_ok, within_eq_ok, manifestString_eq_ok, modelTypeFromManifest_eq_ok,
    SemanticParameter.make_eq_ok] at hread
  obtain ⟨fields, rfl, hkeys, name, ⟨hname, _⟩, type, htype, hparameter⟩ := hread
  apply Reordered.of_entries (by simp) hkeys
  simp only [List.forall_mem_cons, hparameter]
  exact ⟨.of_eq hname, .ordered (semanticTypeFromManifest_reordered htype), by simp⟩

theorem capabilities_make_eq_ok {routable javascriptPublic : Bool}
    {capabilities : BindingCapabilities} :
    BindingCapabilities.make routable javascriptPublic = .ok capabilities ↔
      capabilities.routable = routable ∧ capabilities.javascriptPublic = javascriptPublic := by
  unfold BindingCapabilities.make
  obtain ⟨foundRoutable, foundPublic, hfound⟩ := capabilities
  by_cases hvalid : javascriptPublic → routable
  · simp only [dif_pos hvalid, Except.ok.injEq, BindingCapabilities.mk.injEq]
    exact ⟨fun h => ⟨h.1.symm, h.2.symm⟩, fun h => ⟨h.1.symm, h.2.symm⟩⟩
  · simp only [dif_neg hvalid, reduceCtorEq, false_iff, not_and]
    rintro rfl rfl
    exact hvalid hfound

theorem capabilities_eq_iff {left right : BindingCapabilities} :
    (left.routable = right.routable ∧ left.javascriptPublic = right.javascriptPublic) ↔
      left = right := by
  cases left
  cases right
  simp

theorem capabilitiesFromManifest_eq_ok {fields : Fields} {capabilities : BindingCapabilities} :
    capabilitiesFromManifest fields label = .ok capabilities ↔
      get fields "routable" = .bool capabilities.routable ∧
        get fields "javascript_public" = .bool capabilities.javascriptPublic := by
  simp only [capabilitiesFromManifest, bind_eq_ok, manifestBool_eq_ok, capabilities_make_eq_ok]
  constructor
  · rintro ⟨routable, hroutable, javascriptPublic, hpublic, rfl, rfl⟩
    exact ⟨hroutable, hpublic⟩
  · rintro ⟨hroutable, hpublic⟩
    exact ⟨_, hroutable, _, hpublic, rfl, rfl⟩

theorem projectionFromManifest_manifest (projection : SemanticProjection) (label : String) :
    projectionFromManifest projection.manifest label = .ok projection := by
  simp [projectionFromManifest, SemanticProjection.manifest, bind_eq_ok, hasExactly_iff,
    Json.get, List.lookup_cons, sourceFromManifest_manifest]

theorem projectionFromManifest_reordered {projection : SemanticProjection}
    (hread : projectionFromManifest raw label = .ok projection) :
    Reordered unordered raw projection.manifest := by
  simp only [projectionFromManifest, bind_eq_ok, exists_unit, manifestObject_eq_ok,
    manifestKeys_eq_ok, within_eq_ok, manifestMember_eq_ok,
    SemanticProjection.make_eq_ok] at hread
  obtain ⟨fields, rfl, hkeys, backend, hbackend, source, hsource, hprojection⟩ := hread
  apply Reordered.of_entries (by simp) hkeys
  simp only [List.forall_mem_cons, hprojection]
  exact ⟨.of_eq hbackend, .ordered (sourceFromManifest_reordered hsource), by simp⟩

theorem SemanticField.named (field : SemanticField) :
    field.fieldId ≠ "" ∧ field.ownerId ≠ "" ∧ field.name ≠ "" := by
  have hvalid := field.valid
  simp only [SemanticField.Fields.postInit, bind_eq_ok, require_eq_ok, validateIdentifier_eq_ok,
    exists_unit] at hvalid
  exact ⟨hvalid.1.1, hvalid.1.2, ne_empty_of_isIdentifier hvalid.2.1⟩

theorem fieldFromManifest_manifest (field : SemanticField) (label : String) :
    fieldFromManifest field.manifest label = .ok field := by
  simp [-Bool.exists_bool, fieldFromManifest, SemanticField.manifest, bind_eq_ok, hasExactly_iff,
    Json.get, List.lookup_cons, field.named, semanticTypeFromManifest_manifest,
    sourceFromManifest_manifest, capabilitiesFromManifest_eq_ok, capabilities_eq_iff]

theorem fieldFromManifest_reordered {field : SemanticField}
    (hread : fieldFromManifest raw label = .ok field) :
    Reordered unordered raw field.manifest := by
  simp only [fieldFromManifest, bind_eq_ok, exists_unit, manifestObject_eq_ok,
    manifestKeys_eq_ok, within_eq_ok, manifestString_eq_ok, modelTypeFromManifest_eq_ok,
    manifestBool_eq_ok, capabilitiesFromManifest_eq_ok, manifestMember_eq_ok,
    SemanticField.make_eq_ok] at hread
  obtain ⟨fields, rfl, hkeys, fieldId, ⟨hid, _⟩, ownerId, ⟨howner, _⟩, name, ⟨hname, _⟩,
    type, htype, source, hsource, mutable, hmutable, capabilities, ⟨hroutable, hpublic⟩,
    scope, hscope, required, hrequired, hfield⟩ := hread
  apply Reordered.of_entries (by simp) hkeys
  simp only [List.forall_mem_cons, hfield]
  exact ⟨.of_eq hid, .of_eq howner, .of_eq hname,
    .ordered (semanticTypeFromManifest_reordered htype), .of_eq hmutable, .of_eq hrequired,
    .of_eq hroutable, .of_eq hpublic, .of_eq hscope,
    .ordered (sourceFromManifest_reordered hsource), by simp⟩

/-! ### Bindings and constructors -/

theorem SemanticBinding.named (binding : SemanticBinding) :
    binding.bindingId ≠ "" ∧ binding.name ≠ "" ∧ binding.ownerId ≠ some "" ∧
      binding.ownerName ≠ some "" := by
  have hvalid := binding.valid
  simp only [SemanticBinding.Fields.postInit, bind_eq_ok, require_eq_ok, validateIdentifier_eq_ok,
    exists_unit] at hvalid
  obtain ⟨hid, _, hname, _, _, _, howner, hownerName, _⟩ := hvalid
  refine ⟨hid, ne_empty_of_isIdentifier hname, howner, ?_⟩
  intro hempty
  simp only [SemanticBinding.Fields.checkOwnerName, hempty] at hownerName
  exact ne_empty_of_isIdentifier (validateIdentifier_eq_ok.mp hownerName) rfl

/-- A binding has both an owner identity and an owner name, or neither. -/
theorem SemanticBinding.owner_cases (binding : SemanticBinding) :
    (binding.ownerId = none ∧ binding.ownerName = none) ∨
      ∃ ownerId ownerName, binding.ownerId = some ownerId ∧ binding.ownerName = some ownerName := by
  have hvalid := binding.valid
  simp only [SemanticBinding.Fields.postInit, bind_eq_ok, require_eq_ok, exists_unit] at hvalid
  obtain ⟨_, _, _, _, _, htogether, _⟩ := hvalid
  cases hid : binding.ownerId with
  | none =>
      have hnone : binding.ownerName = none := by simpa [hid] using htogether
      exact .inl ⟨rfl, hnone⟩
  | some ownerId =>
      cases hname : binding.ownerName with
      | none => simp [hid, hname] at htogether
      | some ownerName => exact .inr ⟨ownerId, ownerName, rfl, rfl⟩

theorem mem_keys_entries (binding : SemanticBinding) {key : String} :
    key ∈ keys binding.entries ↔
      key ∈ requiredBindingKeys ∨ (key ∈ optionalBindingKeys ∧ binding.ownerId ≠ none) := by
  rcases binding.owner_cases with ⟨hid, hname⟩ | ⟨ownerId, ownerName, hid, hname⟩
  · simp only [SemanticBinding.entries, hid, hname, requiredBindingKeys, List.append_nil,
      Json.keys_cons, Json.keys_nil, List.mem_cons, List.not_mem_nil]
    tauto
  · simp only [SemanticBinding.entries, hid, hname, requiredBindingKeys, optionalBindingKeys,
      Json.keys_append, Json.keys_cons, Json.keys_nil, List.mem_append, List.mem_cons,
      List.not_mem_nil]
    tauto

theorem mem_bindingKeys {fields : Fields} {key : String} :
    key ∈ bindingKeys fields ↔
      key ∈ requiredBindingKeys ∨ (key ∈ optionalBindingKeys ∧ key ∈ keys fields) := by
  simp [bindingKeys]

theorem hasExactly_entries (binding : SemanticBinding) :
    hasExactly binding.entries (bindingKeys binding.entries) := by
  rw [hasExactly_iff]
  intro key
  rw [mem_bindingKeys, mem_keys_entries]
  tauto

theorem optionalString_eq_ok {fields : Fields} {key : String} {text : Option String} :
    optionalString fields key label = .ok text ↔
      (key ∉ keys fields ∧ text = none) ∨
        ∃ found, key ∈ keys fields ∧ get fields key = .string found ∧ found ≠ "" ∧
          text = some found := by
  unfold optionalString
  by_cases hkey : key ∈ keys fields
  · rw [if_pos hkey]
    cases hread : manifestString (get fields key) label with
    | ok found =>
        obtain ⟨hfound, hnonempty⟩ := manifestString_eq_ok.mp hread
        simp [Except.map, hkey, hfound, hnonempty, eq_comm]
    | error error =>
        simp only [Except.map, reduceCtorEq, hkey, not_true_eq_false, false_and, false_or,
          false_iff, not_exists, not_and]
        intro found _ hfound hnonempty
        have hok : manifestString (get fields key) label = .ok found :=
          manifestString_eq_ok.mpr ⟨hfound, hnonempty⟩
        simp [hok] at hread
  · rw [if_neg hkey]
    simp [hkey, eq_comm]

theorem optionalString_ownerId (binding : SemanticBinding) (label : String) :
    optionalString binding.entries "owner_id" label = .ok binding.ownerId := by
  rw [optionalString_eq_ok, mem_keys_entries]
  rcases binding.owner_cases with ⟨hid, hname⟩ | ⟨ownerId, ownerName, hid, hname⟩
  · exact .inl ⟨by simp [hid, requiredBindingKeys], hid⟩
  · have hnonempty : ownerId ≠ "" := by
      rintro rfl
      exact binding.named.2.2.1 hid
    refine .inr ⟨ownerId, by simp [hid, optionalBindingKeys], ?_, hnonempty, hid⟩
    simp [SemanticBinding.entries, hid, hname, Json.get, List.lookup_cons]

theorem optionalString_ownerName (binding : SemanticBinding) (label : String) :
    optionalString binding.entries "owner" label = .ok binding.ownerName := by
  rw [optionalString_eq_ok, mem_keys_entries]
  rcases binding.owner_cases with ⟨hid, hname⟩ | ⟨ownerId, ownerName, hid, hname⟩
  · exact .inl ⟨by simp [hid, requiredBindingKeys], hname⟩
  · have hnonempty : ownerName ≠ "" := by
      rintro rfl
      exact binding.named.2.2.2 hname
    refine .inr ⟨ownerName, by simp [hid, optionalBindingKeys], ?_, hnonempty, hname⟩
    simp [SemanticBinding.entries, hid, hname, Json.get, List.lookup_cons]

/-- The keys every binding writes. -/
theorem get_entries (binding : SemanticBinding) :
    get binding.entries "binding_id" = .string binding.bindingId ∧
      get binding.entries "source_declaration_id" = .string binding.source.declarationId ∧
      get binding.entries "kind" = .string (value binding.kind) ∧
      get binding.entries "name" = .string binding.name ∧
      get binding.entries "routable" = .bool binding.capabilities.routable ∧
      get binding.entries "javascript_public" = .bool binding.capabilities.javascriptPublic ∧
      get binding.entries "execution" = .string (value binding.execution) ∧
      get binding.entries "parameters" =
        .array (binding.parameters.map SemanticParameter.manifest) ∧
      get binding.entries "result" = binding.result.manifest ∧
      get binding.entries "member_scope" = .string (value binding.memberScope) ∧
      get binding.entries "source" = binding.source.manifest := by
  simp [SemanticBinding.entries, Json.get, List.lookup_cons]

/-- A list of parameters reads back as itself. -/
theorem parameters_manifest (parameters : List SemanticParameter) (label : String) :
    manifestItems parameterFromManifest (.array (parameters.map SemanticParameter.manifest)) label =
      .ok parameters :=
  manifestItems_exact fun parameter _ label => parameterFromManifest_manifest parameter label

theorem bindingFromManifest_manifest (binding : SemanticBinding) (label : String) :
    bindingFromManifest binding.manifest label = .ok binding := by
  obtain ⟨hid, hname, _, _⟩ := binding.named
  have hsource := binding.source.named.1
  have howner : "owner_id" ∈ keys binding.entries ↔ "owner" ∈ keys binding.entries := by
    simp [mem_keys_entries, requiredBindingKeys, optionalBindingKeys]
  simp [-Bool.exists_bool, bindingFromManifest, SemanticBinding.manifest, bind_eq_ok,
    get_entries, hasExactly_entries, sourceFromManifest_manifest, howner, hid, hname, hsource,
    capabilitiesFromManifest_eq_ok, capabilities_eq_iff, parameters_manifest,
    semanticTypeFromManifest_manifest, optionalString_ownerId, optionalString_ownerName]

theorem nodup_keys_entries (binding : SemanticBinding) : (keys binding.entries).Nodup := by
  rcases binding.owner_cases with ⟨hid, hname⟩ | ⟨ownerId, ownerName, hid, hname⟩
  · simp [SemanticBinding.entries, hid]
  · simp [SemanticBinding.entries, hid, hname]

/-- Fields that read as a binding have the keys the binding writes. -/
theorem hasExactly_of_owner {fields : Fields} {binding : SemanticBinding}
    (hkeys : hasExactly fields (bindingKeys fields))
    (hid : "owner_id" ∈ keys fields ↔ binding.ownerId ≠ none)
    (hname : "owner" ∈ keys fields ↔ binding.ownerId ≠ none) :
    hasExactly fields (keys binding.entries) := by
  rw [hasExactly_iff] at hkeys ⊢
  intro key
  rw [hkeys, mem_bindingKeys, mem_keys_entries]
  have howner : key ∈ optionalBindingKeys → (key ∈ keys fields ↔ binding.ownerId ≠ none) := by
    intro hoptional
    simp only [optionalBindingKeys, List.mem_cons, List.not_mem_nil, or_false] at hoptional
    rcases hoptional with rfl | rfl
    · exact hid
    · exact hname
  tauto

theorem bindingFromManifest_reordered {binding : SemanticBinding}
    (hread : bindingFromManifest raw label = .ok binding) :
    Reordered unordered raw binding.manifest := by
  simp only [bindingFromManifest, bind_eq_ok, exists_unit, manifestObject_eq_ok, require_eq_ok,
    within_eq_ok, manifestString_eq_ok, manifestMember_eq_ok, capabilitiesFromManifest_eq_ok,
    modelTypeFromManifest_eq_ok, optionalString_eq_ok, SemanticBinding.make_eq_ok] at hread
  obtain ⟨fields, rfl, hkeys, source, hsource, sourceId, ⟨hsourceId, _⟩, rfl, htogether,
    bindingId, ⟨hid, _⟩, kind, hkind, name, ⟨hname, _⟩, capabilities, ⟨hroutable, hpublic⟩,
    execution, hexecution, parameters, hparameters, result, hresult, ownerId, hownerId,
    ownerName, hownerName, memberScope, hscope, hbinding⟩ := hread
  have hparameters : Reordered unordered (get fields "parameters")
      (.array (parameters.map SemanticParameter.manifest)) :=
    reordered_items (fun _ _ _ => parameterFromManifest_reordered) hparameters
  rcases hownerId with ⟨habsent, rfl⟩ | ⟨foundId, hpresent, hfoundId, _, rfl⟩
  · have hnoName : "owner" ∉ keys fields := fun hpresent => habsent (htogether.mpr hpresent)
    obtain ⟨_, rfl⟩ | ⟨_, hpresent, _⟩ := hownerName
    · apply Reordered.of_entries (nodup_keys_entries binding)
      · exact hasExactly_of_owner hkeys (by simp [habsent, hbinding]) (by simp [hnoName, hbinding])
      · simp only [SemanticBinding.entries, hbinding, List.append_nil, List.forall_mem_cons]
        exact ⟨.of_eq hid, .of_eq hsourceId, .of_eq hkind, .of_eq hname, .of_eq hroutable,
          .of_eq hpublic, .of_eq hexecution, .ordered hparameters,
          .ordered (semanticTypeFromManifest_reordered hresult), .of_eq hscope,
          .ordered (sourceFromManifest_reordered hsource), by simp⟩
    · exact absurd hpresent hnoName
  · have hsomeName : "owner" ∈ keys fields := htogether.mp hpresent
    obtain ⟨habsent, _⟩ | ⟨foundName, _, hfoundName, _, rfl⟩ := hownerName
    · exact absurd hsomeName habsent
    · apply Reordered.of_entries (nodup_keys_entries binding)
      · exact hasExactly_of_owner hkeys (by simp [hpresent, hbinding])
          (by simp [hsomeName, hbinding])
      · simp only [SemanticBinding.entries, hbinding, List.cons_append, List.nil_append,
          List.forall_mem_cons]
        exact ⟨.of_eq hid, .of_eq hsourceId, .of_eq hkind, .of_eq hname, .of_eq hroutable,
          .of_eq hpublic, .of_eq hexecution, .ordered hparameters,
          .ordered (semanticTypeFromManifest_reordered hresult), .of_eq hscope,
          .ordered (sourceFromManifest_reordered hsource), .of_eq hfoundId, .of_eq hfoundName,
          by simp⟩

theorem constructorFromManifest_manifest (constructor : SemanticConstructor) (label : String) :
    constructorFromManifest constructor.manifest label = .ok constructor := by
  simp [constructorFromManifest, SemanticConstructor.manifest, bind_eq_ok, constructorKeys,
    hasExactly_iff, Json.get, List.lookup_cons, sourceFromManifest_manifest, parameters_manifest,
    constructor.source.named]

theorem constructorFromManifest_reordered {constructor : SemanticConstructor}
    (hread : constructorFromManifest raw label = .ok constructor) :
    Reordered unordered raw constructor.manifest := by
  simp only [constructorFromManifest, bind_eq_ok, exists_unit, manifestObject_eq_ok,
    manifestKeys_eq_ok, manifestString_eq_ok, require_eq_ok,
    SemanticConstructor.make_eq_ok] at hread
  obtain ⟨fields, rfl, hkeys, source, hsource, sourceId, ⟨hsourceId, _⟩, rfl, parameters,
    hparameters, hconstructor⟩ := hread
  have hparameters : Reordered unordered (get fields "parameters")
      (.array (parameters.map SemanticParameter.manifest)) :=
    reordered_items (fun _ _ _ => parameterFromManifest_reordered) hparameters
  apply Reordered.of_entries (by simp) hkeys
  simp only [List.forall_mem_cons, hconstructor]
  exact ⟨.of_eq hsourceId, .ordered hparameters, .ordered (sourceFromManifest_reordered hsource),
    by simp⟩

end

end SupernoteModule.Semantic
