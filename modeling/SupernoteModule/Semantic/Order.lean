import SupernoteModule.Semantic.Api

/-!
# The same API in another order

The functions, classes, methods, declarations and projections of an API have no order of their own:
`manifest` sorts them. Here is when two APIs differ in nothing else, and that an API with sorted
lists is as valid as the API it was sorted from.
-/

namespace SupernoteModule.Semantic

open SupernoteModule.Lib SupernoteModule.Python

/-- The items of one list are those of the other one, each up to the given relation. -/
def PermUpTo {Item : Type} (same : Item → Item → Prop) (lefts rights : List Item) : Prop :=
  ∃ middles, lefts.Perm middles ∧ List.Forall₂ same middles rights

theorem PermUpTo.of_sortedBy {Item : Type} {same : Item → Item → Prop} {key : Item → String}
    {sort : Item → Item} (hsame : ∀ item, same item (sort item)) (items : List Item) :
    PermUpTo same items ((sortedBy key items).map sort) := by
  refine ⟨sortedBy key items, (sortedBy_perm key items).symm, ?_⟩
  rw [List.forall₂_map_right_iff, List.forall₂_same]
  exact fun item _ => hsame item

/-! ### Classes -/

namespace SemanticClass

def SameUpToOrder (left right : SemanticClass) : Prop :=
  left.methods.Perm right.methods ∧
    right.toFields = { left.toFields with methods := right.methods }

theorem Fields.postInit_of_perm {record : Fields} {methods : List SemanticBinding}
    (hperm : record.methods.Perm methods) (hvalid : record.postInit = .ok ()) :
    ({ record with methods := methods } : Fields).postInit = .ok () := by
  simp only [postInit, bind_eq_ok, require_eq_ok, validateIdentifier_eq_ok, exists_unit,
    checkEach_eq_ok, rejectDuplicates_eq_ok] at hvalid ⊢
  obtain ⟨hid, hname, hkind, hmethods, hids, hsources, hnames⟩ := hvalid
  refine ⟨hid, hname, hkind, ?_, ?_, ?_, ?_⟩
  · exact fun method hmethod => hmethods method (hperm.mem_iff.mpr hmethod)
  · exact (hperm.map _).nodup_iff.mp hids
  · exact (hperm.map _).nodup_iff.mp hsources
  · exact (hperm.map _).nodup_iff.mp hnames

/-- The class with its methods in the order of the manifest. -/
def sorted (record : SemanticClass) : SemanticClass where
  toFields := { record.toFields with methods := sortedBy (·.bindingId) record.methods }
  valid := Fields.postInit_of_perm (sortedBy_perm _ _).symm record.valid

theorem sameUpToOrder_sorted (record : SemanticClass) : record.SameUpToOrder record.sorted :=
  ⟨(sortedBy_perm _ _).symm, rfl⟩

end SemanticClass

/-! ### Declarations -/

theorem validateProjections_of_perm {name : String} {lefts rights : List SemanticProjection}
    (hperm : lefts.Perm rights) (hvalid : validateProjections name lefts = .ok ()) :
    validateProjections name rights = .ok () := by
  simp only [validateProjections, bind_eq_ok, require_eq_ok, exists_unit,
    rejectDuplicates_eq_ok] at hvalid ⊢
  refine ⟨?_, (hperm.map _).nodup_iff.mp hvalid.2⟩
  rintro rfl
  exact hvalid.1 hperm.eq_nil

/-- The projections in the order of the manifest. -/
def sortedProjections (projections : List SemanticProjection) : List SemanticProjection :=
  sortedBy (fun projection => value projection.backend) projections

namespace SemanticEnumDeclaration

def SameUpToOrder (left right : SemanticEnumDeclaration) : Prop :=
  left.projections.Perm right.projections ∧
    right.toFields = { left.toFields with projections := right.projections }

def sorted (declaration : SemanticEnumDeclaration) : SemanticEnumDeclaration where
  toFields :=
    { declaration.toFields with projections := sortedProjections declaration.projections }
  valid := by
    have hvalid := declaration.valid
    simp only [Fields.postInit, bind_eq_ok, exists_unit] at hvalid ⊢
    obtain ⟨hheader, hconstants, hnames, hnodup, hprojections⟩ := hvalid
    exact ⟨hheader, hconstants, hnames, hnodup,
      validateProjections_of_perm (sortedBy_perm _ _).symm hprojections⟩

end SemanticEnumDeclaration

namespace SemanticValueDeclaration

def SameUpToOrder (left right : SemanticValueDeclaration) : Prop :=
  left.projections.Perm right.projections ∧
    right.toFields = { left.toFields with projections := right.projections }

def sorted (declaration : SemanticValueDeclaration) : SemanticValueDeclaration where
  toFields :=
    { declaration.toFields with projections := sortedProjections declaration.projections }
  valid := by
    have hvalid := declaration.valid
    simp only [Fields.postInit, bind_eq_ok, exists_unit] at hvalid ⊢
    obtain ⟨hheader, hfields, hmembers, hprojections⟩ := hvalid
    exact ⟨hheader, hfields, hmembers,
      validateProjections_of_perm (sortedBy_perm _ _).symm hprojections⟩

end SemanticValueDeclaration

namespace SemanticObjectDeclaration

def SameUpToOrder (left right : SemanticObjectDeclaration) : Prop :=
  left.methods.Perm right.methods ∧
    right.toFields = { left.toFields with methods := right.methods }

theorem Fields.ownedSources_of_perm {declaration : Fields} {methods : List SemanticBinding}
    (hperm : declaration.methods.Perm methods) {source : SourceProvenance} :
    source ∈ ({ declaration with methods := methods } : Fields).ownedSources ↔
      source ∈ declaration.ownedSources := by
  simp only [Fields.ownedSources, List.mem_append, (hperm.map _).mem_iff]

theorem Fields.postInit_of_perm {declaration : Fields} {methods : List SemanticBinding}
    (hperm : declaration.methods.Perm methods) (hvalid : declaration.postInit = .ok ()) :
    ({ declaration with methods := methods } : Fields).postInit = .ok () := by
  simp only [postInit, bind_eq_ok, exists_unit, checkEach_eq_ok,
    rejectDuplicates_eq_ok] at hvalid ⊢
  obtain ⟨hheader, hfields, hmethods, hsources, hids, hsourceIds, hstatic, hinstance⟩ := hvalid
  refine ⟨hheader, hfields, ?_, ?_, ?_, ?_, ?_, ?_⟩
  · exact fun method hmethod => hmethods method (hperm.mem_iff.mpr hmethod)
  · exact fun source hsource => hsources source ((ownedSources_of_perm hperm).mp hsource)
  · exact (hperm.map _).nodup_iff.mp hids
  · exact (hperm.map _).nodup_iff.mp hsourceIds
  · exact ((hperm.filter _).map _).nodup_iff.mp hstatic
  · exact (((hperm.filter _).map _).append_right _).nodup_iff.mp hinstance

def sorted (declaration : SemanticObjectDeclaration) : SemanticObjectDeclaration where
  toFields :=
    { declaration.toFields with methods := sortedBy (·.bindingId) declaration.methods }
  valid := Fields.postInit_of_perm (sortedBy_perm _ _).symm declaration.valid

end SemanticObjectDeclaration

namespace SemanticDeclaration

def SameUpToOrder : SemanticDeclaration → SemanticDeclaration → Prop
  | .enum left, .enum right => left.SameUpToOrder right
  | .value left, .value right => left.SameUpToOrder right
  | .object left, .object right => left.SameUpToOrder right
  | _, _ => False

/-- The declaration with its methods and projections in the order of the manifest. -/
def sorted : SemanticDeclaration → SemanticDeclaration
  | .enum declaration => .enum declaration.sorted
  | .value declaration => .value declaration.sorted
  | .object declaration => .object declaration.sorted

theorem sameUpToOrder_sorted (declaration : SemanticDeclaration) :
    declaration.SameUpToOrder declaration.sorted := by
  cases declaration with
  | enum declaration => exact ⟨(sortedBy_perm _ _).symm, rfl⟩
  | value declaration => exact ⟨(sortedBy_perm _ _).symm, rfl⟩
  | object declaration => exact ⟨(sortedBy_perm _ _).symm, rfl⟩

variable (declaration : SemanticDeclaration)

@[simp] theorem kind_sorted : declaration.sorted.kind = declaration.kind := by
  cases declaration <;> rfl

@[simp] theorem typeId_sorted : declaration.sorted.typeId = declaration.typeId := by
  cases declaration <;> rfl

@[simp] theorem fields_sorted : declaration.sorted.fields = declaration.fields := by
  cases declaration <;> rfl

@[simp] theorem constructor?_sorted :
    declaration.sorted.constructor? = declaration.constructor? := by
  cases declaration <;> rfl

@[simp] theorem value?_sorted :
    declaration.sorted.value? = declaration.value?.map SemanticValueDeclaration.sorted := by
  cases declaration <;> rfl

theorem methods_sorted_perm : declaration.sorted.methods.Perm declaration.methods := by
  cases declaration with
  | enum declaration | value declaration => exact .refl _
  | object declaration => exact sortedBy_perm _ _

theorem projections_sorted_perm :
    declaration.sorted.projections.Perm declaration.projections := by
  cases declaration with
  | enum declaration | value declaration => exact sortedBy_perm _ _
  | object declaration => exact .refl _

end SemanticDeclaration

/-! ### The API -/

namespace SemanticApi

variable {api : Fields}

theorem Fields.postInit_eq_ok : api.postInit = .ok () ↔
    (∀ binding ∈ api.functions, binding.kind = .function) ∧ api.semanticIds.Nodup ∧
      api.sourceIds.Nodup ∧ api.publicNames.Nodup ∧
      (∀ type ∈ api.allTypes, ∀ node ∈ type.node.walk, api.validateReference node = .ok ()) ∧
      api.validateValueCycles = .ok () := by
  simp only [postInit, bind_eq_ok, exists_unit, checkEach_eq_ok, require_eq_ok,
    rejectDuplicates_eq_ok, validateNamedReferences]

theorem Fields.typeIds_nodup (hvalid : api.postInit = .ok ()) :
    (api.declarations.map (·.typeId)).Nodup := by
  have hids := (postInit_eq_ok.mp hvalid).2.1
  simp only [semanticIds, List.nodup_append] at hids
  exact hids.1.2.1

/-- The dictionary of the declarations gives the one declaration with this identity. -/
theorem Fields.declaration?_eq_some (hnodup : (api.declarations.map (·.typeId)).Nodup)
    {typeId : String} {declaration : SemanticDeclaration} :
    api.declaration? typeId = some declaration ↔
      declaration ∈ api.declarations ∧ declaration.typeId = typeId := by
  unfold declaration?
  constructor
  · intro hfind
    exact ⟨List.mem_of_find?_eq_some hfind, by simpa using List.find?_some hfind⟩
  · rintro ⟨hmem, rfl⟩
    cases hfind : api.declarations.find? (·.typeId = declaration.typeId) with
    | none => simpa using List.find?_eq_none.mp hfind declaration hmem
    | some found =>
        have hfound : found.typeId = declaration.typeId := by simpa using List.find?_some hfind
        rw [List.inj_on_of_nodup_map hnodup (List.mem_of_find?_eq_some hfind) hmem hfound]

/-- A reference is accepted when it names a declaration of its kind. -/
theorem Fields.validateReference_eq_ok (hnodup : (api.declarations.map (·.typeId)).Nodup)
    {node : TypeNode} {kind : SemanticDeclarationKind} {typeId : String}
    (hreference : node.reference? = some (kind, typeId)) :
    api.validateReference node = .ok () ↔
      ∃ declaration ∈ api.declarations, declaration.typeId = typeId ∧
        declaration.kind = kind := by
  simp only [validateReference, hreference]
  cases hfind : api.declaration? typeId with
  | none =>
      simp only [reduceCtorEq, false_iff, not_exists, not_and]
      intro declaration hmem hid
      rw [(declaration?_eq_some hnodup).mpr ⟨hmem, hid⟩] at hfind
      cases hfind
  | some found =>
      obtain ⟨hmem, hid⟩ := (declaration?_eq_some hnodup).mp hfind
      rw [require_eq_ok]
      constructor
      · exact fun hkind => ⟨found, hmem, hid, hkind⟩
      · rintro ⟨declaration, hdeclaration, hname, hkind⟩
        rwa [List.inj_on_of_nodup_map hnodup hmem hdeclaration (hid.trans hname.symm)]

/-! ### Sorting an API -/

/-- The API with every list in the order of the manifest. -/
def Fields.sorted (api : Fields) : Fields where
  functions := sortedBy (·.bindingId) api.functions
  classes := (sortedBy (·.classId) api.classes).map SemanticClass.sorted
  declarations := (sortedBy (·.typeId) api.declarations).map SemanticDeclaration.sorted

section

variable {Item Output Key : Type} [LinearOrder Key] {key : Item → Key} {sort : Item → Item}
  {items : List Item}

/-- What is read off the items one by one is the same after sorting the items and each of them. -/
theorem map_sorted_perm {read : Item → Output} (hread : ∀ item, read (sort item) = read item) :
    (((sortedBy key items).map sort).map read).Perm (items.map read) := by
  rw [List.map_map]
  have hcomp : read ∘ sort = read := funext hread
  rw [hcomp]
  exact (sortedBy_perm key items).map read

theorem flatMap_sorted_perm {read : Item → List Output}
    (hread : ∀ item, (read (sort item)).Perm (read item)) :
    (((sortedBy key items).map sort).flatMap read).Perm (items.flatMap read) := by
  rw [List.flatMap_map]
  exact (sortedBy_perm key items).flatMap fun item _ => hread item

end

theorem Fields.allBindings_sorted_perm (api : Fields) :
    api.sorted.allBindings.Perm api.allBindings := by
  apply List.Perm.append
  · apply List.Perm.append
    · exact sortedBy_perm _ _
    · exact flatMap_sorted_perm fun record => sortedBy_perm _ _
  · exact flatMap_sorted_perm fun declaration => declaration.methods_sorted_perm

theorem Fields.semanticIds_sorted_perm (api : Fields) :
    api.sorted.semanticIds.Perm api.semanticIds := by
  apply List.Perm.append
  · apply List.Perm.append
    · apply List.Perm.append
      · exact api.allBindings_sorted_perm.map _
      · exact map_sorted_perm fun record => rfl
    · exact map_sorted_perm fun declaration => declaration.typeId_sorted
  · apply flatMap_sorted_perm
    intro declaration
    rw [declaration.fields_sorted]

theorem Fields.sourceIds_sorted_perm (api : Fields) :
    api.sorted.sourceIds.Perm api.sourceIds := by
  apply List.Perm.append
  · apply List.Perm.append
    · apply List.Perm.append
      · exact api.allBindings_sorted_perm.map _
      · exact map_sorted_perm fun record => rfl
    · exact map_sorted_perm fun record => rfl
  · apply flatMap_sorted_perm
    intro declaration
    simp only [declarationSourceIds, declaration.constructor?_sorted, declaration.fields_sorted]
    exact ((declaration.projections_sorted_perm.map _).append_right _).append_right _

theorem Fields.publicNames_sorted_perm (api : Fields) :
    api.sorted.publicNames.Perm api.publicNames := by
  apply List.Perm.append
  · exact ((sortedBy_perm _ _).filter _).map _
  · have hfilter : api.sorted.classes.filter (·.capabilities.javascriptPublic) =
        ((sortedBy (·.classId) api.classes).filter (·.capabilities.javascriptPublic)).map
          SemanticClass.sorted := by
      rw [Fields.sorted, List.filter_map]
      rfl
    rw [hfilter, List.map_map]
    exact ((sortedBy_perm _ _).filter _).map _

theorem Fields.allTypes_sorted_perm (api : Fields) :
    api.sorted.allTypes.Perm api.allTypes := by
  apply List.Perm.append
  · apply List.Perm.append
    · exact (sortedBy_perm _ _).flatMap_right _
    · apply flatMap_sorted_perm
      intro record
      exact ((sortedBy_perm _ _).flatMap_right _).append_left _
  · apply flatMap_sorted_perm
    intro declaration
    simp only [declarationTypes, declaration.constructor?_sorted, declaration.fields_sorted]
    exact (declaration.methods_sorted_perm.flatMap_right _).append_left _

/-! ### Cycles do not depend on order -/

/-- The visit sees a declaration only through its dependencies. -/
theorem visit_congr {left right : String → Option SemanticValueDeclaration}
    (hsame : ∀ typeId, (left typeId).map valueDependencies = (right typeId).map valueDependencies)
    (fuel : Nat) (visiting complete : List String) (typeId : String) :
    visit left fuel visiting complete typeId = visit right fuel visiting complete typeId := by
  induction fuel generalizing visiting complete typeId with
  | zero => rfl
  | succ fuel ih =>
      have hvisit : ∀ visiting, visit left fuel visiting = visit right fuel visiting := by
        intro visiting
        funext complete typeId
        exact ih visiting complete typeId
      have hdependencies := hsame typeId
      unfold visit
      cases hleft : left typeId with
      | none =>
          cases hright : right typeId with
          | none => rfl
          | some declaration => simp [hleft, hright] at hdependencies
      | some declaration =>
          cases hright : right typeId with
          | none => simp [hleft, hright] at hdependencies
          | some other =>
              simp only [hleft, hright, Option.map_some, Option.some.injEq] at hdependencies
              simp only [hdependencies, hvisit]

theorem Fields.mem_values {typeId : String} {declaration : SemanticValueDeclaration} :
    (typeId, declaration) ∈ api.values ↔
      .value declaration ∈ api.declarations ∧ declaration.typeId = typeId := by
  simp only [values, List.mem_map, List.mem_filterMap, Prod.mk.injEq]
  constructor
  · rintro ⟨found, ⟨item, hitem, hvalue⟩, rfl, rfl⟩
    cases item with
    | value declaration =>
        obtain rfl : declaration = found := by simpa [SemanticDeclaration.value?] using hvalue
        exact ⟨hitem, rfl⟩
    | enum declaration | object declaration => simp [SemanticDeclaration.value?] at hvalue
  · rintro ⟨hitem, rfl⟩
    exact ⟨declaration, ⟨_, hitem, rfl⟩, rfl, rfl⟩

theorem Fields.values_nodup (hnodup : (api.declarations.map (·.typeId)).Nodup) :
    (api.values.map Prod.fst).Nodup := by
  have hsublist : ∀ declarations : List SemanticDeclaration,
      (((declarations.filterMap (·.value?)).map fun declaration =>
        (declaration.typeId, declaration)).map Prod.fst).Sublist
          (declarations.map (·.typeId)) := by
    intro declarations
    induction declarations with
    | nil => exact .refl _
    | cons declaration declarations ih =>
        cases declaration with
        | value declaration => exact ih.cons_cons _
        | enum declaration | object declaration => exact ih.cons _
  exact hnodup.sublist (hsublist api.declarations)

theorem Fields.typeIds_sorted_perm (api : Fields) :
    (api.sorted.declarations.map (·.typeId)).Perm (api.declarations.map (·.typeId)) :=
  map_sorted_perm fun declaration => declaration.typeId_sorted

theorem Fields.mem_declarations_sorted {declaration : SemanticDeclaration} :
    declaration ∈ api.sorted.declarations ↔
      ∃ found ∈ api.declarations, found.sorted = declaration := by
  simp [Fields.sorted]

/-- The values of a sorted API are those of the API, each with the dependencies it had. -/
theorem Fields.lookup_values_sorted (hnodup : (api.declarations.map (·.typeId)).Nodup)
    (typeId : String) :
    (api.sorted.values.lookup typeId).map valueDependencies =
      (api.values.lookup typeId).map valueDependencies := by
  have hvalues := values_nodup hnodup
  have hsorted : (api.sorted.values.map Prod.fst).Nodup :=
    values_nodup (api.typeIds_sorted_perm.nodup_iff.mpr hnodup)
  cases hlookup : api.values.lookup typeId with
  | some declaration =>
      obtain ⟨hmem, hid⟩ := mem_values.mp ((lookup_eq_some_iff hvalues).mp hlookup)
      have hfound : (typeId, declaration.sorted) ∈ api.sorted.values :=
        mem_values.mpr ⟨mem_declarations_sorted.mpr ⟨_, hmem, rfl⟩, hid⟩
      rw [(lookup_eq_some_iff hsorted).mpr hfound]
      rfl
  | none =>
      cases hother : api.sorted.values.lookup typeId with
      | none => rfl
      | some declaration =>
          obtain ⟨hmem, hid⟩ := mem_values.mp ((lookup_eq_some_iff hsorted).mp hother)
          obtain ⟨found, hfound, hsame⟩ := mem_declarations_sorted.mp hmem
          cases found with
          | value found =>
              obtain rfl : found.sorted = declaration := by
                simpa [SemanticDeclaration.sorted] using hsame
              have hlisted : (typeId, found) ∈ api.values := mem_values.mpr ⟨hfound, hid⟩
              rw [(lookup_eq_some_iff hvalues).mpr hlisted] at hlookup
              cases hlookup
          | enum found | object found => cases hsame

theorem Fields.length_values_sorted (api : Fields) :
    api.sorted.values.length = api.values.length := by
  have hvalue : (fun declaration : SemanticDeclaration => declaration.value?) ∘
      SemanticDeclaration.sorted =
        fun declaration => declaration.value?.map SemanticValueDeclaration.sorted :=
    funext fun declaration => declaration.value?_sorted
  calc api.sorted.values.length
      = ((sortedBy (·.typeId) api.declarations).filterMap fun declaration =>
          declaration.value?.map SemanticValueDeclaration.sorted).length := by
        rw [values, List.length_map, Fields.sorted, List.filterMap_map, hvalue]
    _ = (((sortedBy (·.typeId) api.declarations).filterMap (·.value?)).map
          SemanticValueDeclaration.sorted).length := by
        rw [List.map_filterMap]
    _ = api.values.length := by
        rw [List.length_map, values, List.length_map]
        exact ((sortedBy_perm _ _).filterMap _).length_eq

theorem Fields.validateValueCycles_sorted (hnodup : (api.declarations.map (·.typeId)).Nodup) :
    api.sorted.validateValueCycles = api.validateValueCycles := by
  have hkeys : sortedSet (api.sorted.values.map Prod.fst) =
    sortedSet (api.values.map Prod.fst) := by
    apply sortedSet_eq_of_mem_iff
    intro typeId
    have hlookup := lookup_values_sorted hnodup typeId
    have hmem : ∀ fields : Fields, (fields.values.map Prod.fst).Nodup →
        (typeId ∈ fields.values.map Prod.fst ↔ (fields.values.lookup typeId).isSome) := by
      intro fields hfields
      constructor
      · intro hlisted
        obtain ⟨⟨_, found⟩, hentry, rfl⟩ := List.mem_map.mp hlisted
        simp [(lookup_eq_some_iff hfields).mpr hentry]
      · intro hsome
        obtain ⟨found, hfound⟩ := Option.isSome_iff_exists.mp hsome
        exact List.mem_map_of_mem ((lookup_eq_some_iff hfields).mp hfound)
    have hvalues := values_nodup hnodup
    have hsorted : (api.sorted.values.map Prod.fst).Nodup :=
      values_nodup (api.typeIds_sorted_perm.nodup_iff.mpr hnodup)
    rw [hmem _ hsorted, hmem _ hvalues, ← Option.isSome_map (f := valueDependencies), hlookup,
      Option.isSome_map]
  have hvisit : visit (api.sorted.values.lookup ·) (api.sorted.values.length + 1) [] =
      visit (api.values.lookup ·) (api.values.length + 1) [] := by
    funext complete typeId
    rw [length_values_sorted]
    exact visit_congr (lookup_values_sorted hnodup) _ _ _ _
  rw [validateValueCycles, validateValueCycles, hkeys, hvisit]

theorem Fields.postInit_sorted (hvalid : api.postInit = .ok ()) :
    api.sorted.postInit = .ok () := by
  have hnodup := typeIds_nodup hvalid
  obtain ⟨hfunctions, hids, hsources, hnames, hreferences, hcycles⟩ := postInit_eq_ok.mp hvalid
  refine postInit_eq_ok.mpr ⟨?_, ?_, ?_, ?_, ?_, ?_⟩
  · intro binding hbinding
    exact hfunctions binding (mem_sortedBy.mp hbinding)
  · exact api.semanticIds_sorted_perm.nodup_iff.mpr hids
  · exact api.sourceIds_sorted_perm.nodup_iff.mpr hsources
  · exact api.publicNames_sorted_perm.nodup_iff.mpr hnames
  · intro type htype node hnode
    have hok := hreferences type (api.allTypes_sorted_perm.mem_iff.mp htype) node hnode
    cases hreference : node.reference? with
    | none => simp [validateReference, hreference]
    | some reference =>
        obtain ⟨declaration, hmem, hid, hkind⟩ :=
          (validateReference_eq_ok hnodup hreference).mp hok
        apply
          (validateReference_eq_ok (api.typeIds_sorted_perm.nodup_iff.mpr hnodup) hreference).mpr
        exact ⟨declaration.sorted, mem_declarations_sorted.mpr ⟨declaration, hmem, rfl⟩,
          declaration.typeId_sorted ▸ hid, declaration.kind_sorted ▸ hkind⟩
  · rw [validateValueCycles_sorted hnodup, hcycles]

/-- The API with every list in the order of the manifest. -/
def sorted (api : SemanticApi) : SemanticApi where
  toFields := api.toFields.sorted
  valid := Fields.postInit_sorted api.valid

def SameUpToOrder (left right : SemanticApi) : Prop :=
  left.functions.Perm right.functions ∧
    PermUpTo SemanticClass.SameUpToOrder left.classes right.classes ∧
    PermUpTo SemanticDeclaration.SameUpToOrder left.declarations right.declarations

theorem sameUpToOrder_sorted (api : SemanticApi) : api.SameUpToOrder api.sorted :=
  ⟨(sortedBy_perm _ _).symm, .of_sortedBy SemanticClass.sameUpToOrder_sorted _,
    .of_sortedBy SemanticDeclaration.sameUpToOrder_sorted _⟩

end SemanticApi

end SupernoteModule.Semantic
