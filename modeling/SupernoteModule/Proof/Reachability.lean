import SupernoteModule.Semantic.Reachability
import SupernoteModule.Semantic.Order
import Mathlib.Order.Bounds.Basic

/-!
# The least public surface

A surface says which objects have instances and which declarations are public. The worklist keeps
below every surface that is closed under the rules, and what it has not handled yet is in its queue,
so at its end it is the least closed surface.
-/

namespace SupernoteModule.Semantic

open SupernoteModule.Lib SupernoteModule.Python

/-! ### Surfaces -/

structure Surface where
  instances : Set String
  declarations : Set String

namespace Surface

instance : LE Surface where
  le left right :=
    left.instances ⊆ right.instances ∧ left.declarations ⊆ right.declarations

/-- The type is reachable: through arrays and nullables it names a public declaration, an object one
with its instances. -/
def Shows (surface : Surface) : TypeNode → Prop
  | .void | .scalar _ => True
  | .array element => surface.Shows element
  | .nullable inner => surface.Shows inner
  | .enumRef typeId | .valueRef typeId => typeId ∈ surface.declarations
  | .objectRef typeId => typeId ∈ surface.declarations ∧ typeId ∈ surface.instances

/-- The rules of the public API. A root that belongs to an object makes the object public. -/
structure Closed (api : SemanticApi) (surface : Surface) : Prop where
  function : ∀ binding ∈ api.functions, binding.capabilities.javascriptPublic →
    ∀ node ∈ binding.typeNodes, surface.Shows node
  static : ∀ declaration, .object declaration ∈ api.declarations →
    ∀ method ∈ declaration.methods, method.isPublicStatic →
      declaration.typeId ∈ surface.declarations ∧ ∀ node ∈ method.typeNodes, surface.Shows node
  constructor : ∀ declaration, .object declaration ∈ api.declarations →
    ∀ constructor, declaration.constructor = some constructor →
      surface.Shows (.objectRef declaration.typeId) ∧
        ∀ parameter ∈ constructor.parameters, surface.Shows parameter.type.node
  value : ∀ declaration, .value declaration ∈ api.declarations →
    declaration.typeId ∈ surface.declarations →
      ∀ field ∈ declaration.fields, surface.Shows field.type.node
  object : ∀ declaration, .object declaration ∈ api.declarations →
    declaration.typeId ∈ surface.instances →
      (∀ method ∈ declaration.methods, method.isPublicInstance →
        ∀ node ∈ method.typeNodes, surface.Shows node) ∧
      ∀ field ∈ declaration.fields, surface.Shows field.type.node

/-- The rules do not see the order of the functions and declarations. -/
theorem closed_of_perm {left right : SemanticApi} (hfunctions : left.functions.Perm right.functions)
    (hdeclarations : left.declarations.Perm right.declarations) {surface : Surface}
    (hclosed : Closed left surface) : Closed right surface where
  function binding hbinding := hclosed.function binding (hfunctions.mem_iff.mpr hbinding)
  static declaration hmem := hclosed.static declaration (hdeclarations.mem_iff.mpr hmem)
  constructor declaration hmem := hclosed.constructor declaration (hdeclarations.mem_iff.mpr hmem)
  value declaration hmem := hclosed.value declaration (hdeclarations.mem_iff.mpr hmem)
  object declaration hmem := hclosed.object declaration (hdeclarations.mem_iff.mpr hmem)

theorem Closed.instanceNodes {api : SemanticApi} {surface : Surface} (hclosed : Closed api surface)
    {declaration : SemanticObjectDeclaration} (hmem : .object declaration ∈ api.declarations)
    (hinstance : declaration.typeId ∈ surface.instances) :
    ∀ node ∈ declaration.instanceNodes, surface.Shows node := by
  obtain ⟨hmethods, hfields⟩ := hclosed.object declaration hmem hinstance
  intro node hnode
  rcases List.mem_append.mp hnode with hmethod | hfield
  · obtain ⟨method, hlisted, hnode⟩ := List.mem_flatMap.mp hmethod
    obtain ⟨hlisted, hpublic⟩ := List.mem_filter.mp hlisted
    exact hmethods method hlisted hpublic node hnode
  · obtain ⟨field, hlisted, rfl⟩ := List.mem_map.mp hfield
    exact hfields field hlisted

end Surface

/-! ### What the queue has left to do -/

namespace Reach

variable {api : SemanticApi} {state next : Reach} {node : TypeNode}

/-- The type is handled, or what is left of it is in the queue. -/
def Settled (state : Reach) : TypeNode → Prop
  | .void | .scalar _ => True
  | .array element => .array element ∈ state.pending ∨ state.Settled element
  | .nullable inner => .nullable inner ∈ state.pending ∨ state.Settled inner
  | .enumRef typeId => .enumRef typeId ∈ state.pending ∨ typeId ∈ state.reachable
  | .valueRef typeId => .valueRef typeId ∈ state.pending ∨ typeId ∈ state.reachable
  | .objectRef typeId =>
      .objectRef typeId ∈ state.pending ∨
        (typeId ∈ state.reachable ∧ typeId ∈ state.objectInstances)

theorem Settled.of_pending (hnode : node ∈ state.pending) : state.Settled node := by
  cases node with
  | void | scalar kind => trivial
  | _ => exact .inl hnode

/-- Later in the run: nothing is forgotten, and what was in the queue is settled. -/
structure Grows (state next : Reach) : Prop where
  pending : ∀ node ∈ state.pending, next.Settled node
  reachable : state.reachable ⊆ next.reachable
  objectInstances : state.objectInstances ⊆ next.objectInstances

theorem Grows.settled (hgrows : state.Grows next) (hsettled : state.Settled node) :
    next.Settled node := by
  induction node with
  | void | scalar kind => trivial
  | array element ih | nullable element ih =>
      rcases hsettled with hpending | helement
      · exact hgrows.pending _ hpending
      · exact .inr (ih helement)
  | enumRef typeId | valueRef typeId =>
      rcases hsettled with hpending | hreachable
      · exact hgrows.pending _ hpending
      · exact .inr (hgrows.reachable hreachable)
  | objectRef typeId =>
      rcases hsettled with hpending | ⟨hreachable, hinstance⟩
      · exact hgrows.pending _ hpending
      · exact .inr ⟨hgrows.reachable hreachable, hgrows.objectInstances hinstance⟩

theorem Grows.refl (state : Reach) : state.Grows state where
  pending _ hnode := .of_pending hnode
  reachable := Finset.Subset.refl _
  objectInstances := Finset.Subset.refl _

theorem Grows.trans {last : Reach} (hfirst : state.Grows next) (hsecond : next.Grows last) :
    state.Grows last where
  pending node hnode := hsecond.settled (hfirst.pending node hnode)
  reachable := hfirst.reachable.trans hsecond.reachable
  objectInstances := hfirst.objectInstances.trans hsecond.objectInstances

/-- The state stays inside a surface. -/
structure Below (state : Reach) (surface : Surface) : Prop where
  pending : ∀ node ∈ state.pending, surface.Shows node
  reachable : ∀ typeId ∈ state.reachable, typeId ∈ surface.declarations
  objectInstances : ∀ typeId ∈ state.objectInstances, typeId ∈ surface.instances

end Reach

/-! ### Known types -/

/-- Every name in the type is declared with the kind the type says. -/
def Known (api : SemanticApi) : TypeNode → Prop
  | .void | .scalar _ => True
  | .array element => Known api element
  | .nullable inner => Known api inner
  | .enumRef typeId => ∃ declaration, api.declaration? typeId = some (.enum declaration)
  | .valueRef typeId => ∃ declaration, api.declaration? typeId = some (.value declaration)
  | .objectRef typeId => ∃ declaration, api.declaration? typeId = some (.object declaration)

section

variable {api : SemanticApi}

theorem SemanticApi.typeIds_nodup (api : SemanticApi) :
    (api.declarations.map (·.typeId)).Nodup :=
  SemanticApi.Fields.typeIds_nodup api.valid

theorem SemanticApi.declaration?_iff {typeId : String} {declaration : SemanticDeclaration} :
    api.declaration? typeId = some declaration ↔
      declaration ∈ api.declarations ∧ declaration.typeId = typeId :=
  SemanticApi.Fields.declaration?_eq_some api.typeIds_nodup

/-- Two declarations with one identity are one declaration. -/
theorem SemanticApi.eq_of_typeId {left right : SemanticDeclaration}
    (hleft : left ∈ api.declarations) (hright : right ∈ api.declarations)
    (hid : left.typeId = right.typeId) : left = right :=
  List.inj_on_of_nodup_map api.typeIds_nodup hleft hright hid

/-- Every type an API mentions is known. -/
theorem known_of_mem {type : SemanticType} (htype : type ∈ api.allTypes) :
    Known api type.node := by
  have hreferences := (SemanticApi.Fields.postInit_eq_ok.mp api.valid).2.2.2.2.1 type htype
  have hresolves : ∀ {node : TypeNode} {kind typeId}, node.reference? = some (kind, typeId) →
      api.validateReference node = .ok () →
        ∃ declaration, api.declaration? typeId = some declaration ∧ declaration.kind = kind := by
    intro node kind typeId hreference hok
    obtain ⟨declaration, hmem, hid, hkind⟩ :=
      (SemanticApi.Fields.validateReference_eq_ok api.typeIds_nodup hreference).mp hok
    exact ⟨declaration, SemanticApi.declaration?_iff.mpr ⟨hmem, hid⟩, hkind⟩
  generalize type.node = node at hreferences
  induction node with
  | void | scalar kind => trivial
  | array element ih | nullable element ih =>
      exact ih fun node hnode => hreferences node (List.mem_cons_of_mem _ hnode)
  | enumRef typeId =>
      obtain ⟨declaration, hfound, hkind⟩ := hresolves rfl (hreferences _ List.mem_cons_self)
      cases declaration with
      | enum declaration => exact ⟨declaration, hfound⟩
      | value _ | object _ => cases hkind
  | valueRef typeId =>
      obtain ⟨declaration, hfound, hkind⟩ := hresolves rfl (hreferences _ List.mem_cons_self)
      cases declaration with
      | value declaration => exact ⟨declaration, hfound⟩
      | enum _ | object _ => cases hkind
  | objectRef typeId =>
      obtain ⟨declaration, hfound, hkind⟩ := hresolves rfl (hreferences _ List.mem_cons_self)
      cases declaration with
      | object declaration => exact ⟨declaration, hfound⟩
      | enum _ | value _ => cases hkind

theorem known_of_function {binding : SemanticBinding} (hmem : binding ∈ api.functions)
    {node : TypeNode} (hnode : node ∈ binding.typeNodes) : Known api node := by
  obtain ⟨type, htype, rfl⟩ := List.mem_map.mp hnode
  refine known_of_mem (List.mem_append_left _ (List.mem_append_left _ ?_))
  exact List.mem_flatMap.mpr ⟨binding, hmem, htype⟩

theorem known_of_declaration {declaration : SemanticDeclaration}
    (hmem : declaration ∈ api.declarations) {type : SemanticType}
    (htype : type ∈ SemanticApi.declarationTypes declaration) : Known api type.node :=
  known_of_mem (List.mem_append_right _ (List.mem_flatMap.mpr ⟨declaration, hmem, htype⟩))

theorem known_of_field {declaration : SemanticDeclaration}
    (hmem : declaration ∈ api.declarations) {field : SemanticField}
    (hfield : field ∈ declaration.fields) : Known api field.type.node :=
  known_of_declaration hmem
    (List.mem_append_left _ (List.mem_append_left _ (List.mem_map_of_mem hfield)))

theorem known_of_method {declaration : SemanticDeclaration}
    (hmem : declaration ∈ api.declarations) {method : SemanticBinding}
    (hmethod : method ∈ declaration.methods) {node : TypeNode} (hnode : node ∈ method.typeNodes) :
    Known api node := by
  obtain ⟨type, htype, rfl⟩ := List.mem_map.mp hnode
  exact known_of_declaration hmem
    (List.mem_append_right _ (List.mem_flatMap.mpr ⟨method, hmethod, htype⟩))

theorem known_of_parameter {declaration : SemanticDeclaration}
    (hmem : declaration ∈ api.declarations) {constructor : SemanticConstructor}
    (hconstructor : declaration.constructor? = some constructor) {parameter : SemanticParameter}
    (hparameter : parameter ∈ constructor.parameters) : Known api parameter.type.node := by
  refine known_of_declaration hmem (List.mem_append_left _ (List.mem_append_right _ ?_))
  simpa [hconstructor] using ⟨parameter, hparameter, rfl⟩

theorem known_of_instanceNodes {declaration : SemanticObjectDeclaration}
    (hmem : .object declaration ∈ api.declarations) {node : TypeNode}
    (hnode : node ∈ declaration.instanceNodes) : Known api node := by
  rcases List.mem_append.mp hnode with hmethod | hfield
  · obtain ⟨method, hlisted, hnode⟩ := List.mem_flatMap.mp hmethod
    exact known_of_method hmem (List.mem_filter.mp hlisted).1 hnode
  · obtain ⟨field, hlisted, rfl⟩ := List.mem_map.mp hfield
    exact known_of_field hmem hlisted

end

/-! ### Roots -/

namespace SemanticObjectDeclaration

/-- The object belongs to a root: it has a marked constructor or a public static method. -/
def OwnsRoot (declaration : SemanticObjectDeclaration) : Prop :=
  declaration.constructor ≠ none ∨ ∃ method ∈ declaration.methods, method.isPublicStatic

/-- What the object puts into the queue before the worklist starts. -/
def rootNodes (declaration : SemanticObjectDeclaration) : List TypeNode :=
  (declaration.constructor.toList.flatMap fun constructor =>
    .objectRef declaration.typeId :: constructor.parameters.map (·.type.node)) ++
      (declaration.methods.filter (·.isPublicStatic)).flatMap (·.typeNodes)

end SemanticObjectDeclaration

namespace Reach

variable {state next : Reach}

@[simp] theorem pending_queue {nodes : List TypeNode} :
    (state.queue nodes).pending = state.pending ++ nodes := rfl

theorem foldl_queue (methods : List SemanticBinding) (state : Reach) :
    methods.foldl (fun state method => state.queue method.typeNodes) state =
      state.queue (methods.flatMap (·.typeNodes)) := by
  induction methods generalizing state with
  | nil => simp [queue]
  | cons method methods ih =>
      rw [List.foldl_cons, ih, List.flatMap_cons]
      simp [queue]

/-- What one object adds to the roots, field by field. -/
theorem addObjectRoots_eq (declaration : SemanticObjectDeclaration) :
    (state.addObjectRoots declaration).pending = state.pending ++ declaration.rootNodes ∧
      (∀ typeId, typeId ∈ (state.addObjectRoots declaration).reachable ↔
        typeId ∈ state.reachable ∨ (declaration.OwnsRoot ∧ typeId = declaration.typeId)) ∧
      (∀ typeId, typeId ∈ (state.addObjectRoots declaration).objectNamespaces ↔
        typeId ∈ state.objectNamespaces ∨ (declaration.OwnsRoot ∧ typeId = declaration.typeId)) ∧
      (∀ typeId, typeId ∈ (state.addObjectRoots declaration).objectInstances ↔
        typeId ∈ state.objectInstances ∨
          (declaration.constructor ≠ none ∧ typeId = declaration.typeId)) ∧
      (state.addObjectRoots declaration).expandedValues = state.expandedValues ∧
      (state.addObjectRoots declaration).expandedObjects = state.expandedObjects := by
  have howns : declaration.OwnsRoot ↔
      declaration.constructor ≠ none ∨ declaration.methods.filter (·.isPublicStatic) ≠ [] := by
    simp [SemanticObjectDeclaration.OwnsRoot, List.filter_eq_nil_iff]
  simp only [addObjectRoots, foldl_queue, howns]
  cases hconstructor : declaration.constructor with
  | none =>
      by_cases hstatic : declaration.methods.filter (·.isPublicStatic) = []
      · simp [SemanticObjectDeclaration.rootNodes, hconstructor, hstatic, queue]
      · simp [SemanticObjectDeclaration.rootNodes, hconstructor, hstatic, queue, addNamespace,
          or_comm]
  | some constructor =>
      simp [SemanticObjectDeclaration.rootNodes, hconstructor, queue, addNamespace, addInstance,
        or_comm]

end Reach

/-! ### The invariant -/

/-- What every state of the worklist satisfies. -/
structure Core (api : SemanticApi) (state : Reach) : Prop where
  known : ∀ node ∈ state.pending, Known api node
  listed : ∀ typeId ∈ state.reachable, ∃ declaration ∈ api.declarations,
    declaration.typeId = typeId
  objects : ∀ typeId ∈ state.objectInstances, ∃ declaration,
    api.declaration? typeId = some (.object declaration)
  below : ∀ surface, Surface.Closed api surface → state.Below surface
  functions : ∀ binding ∈ api.functions, binding.capabilities.javascriptPublic →
    ∀ node ∈ binding.typeNodes, state.Settled node
  roots : ∀ declaration, .object declaration ∈ api.declarations →
    ∀ node ∈ declaration.rootNodes, state.Settled node
  owners : ∀ declaration, .object declaration ∈ api.declarations → declaration.OwnsRoot →
    declaration.typeId ∈ state.reachable
  namespaces : ∀ typeId, typeId ∈ state.objectNamespaces ↔
    ∃ declaration, .object declaration ∈ api.declarations ∧ declaration.OwnsRoot ∧
      typeId = declaration.typeId
  values : ∀ declaration, .value declaration ∈ api.declarations →
    declaration.typeId ∈ state.reachable → declaration.typeId ∈ state.expandedValues
  fields : ∀ declaration, .value declaration ∈ api.declarations →
    declaration.typeId ∈ state.expandedValues →
      ∀ field ∈ declaration.fields, state.Settled field.type.node
  members : ∀ declaration, .object declaration ∈ api.declarations →
    declaration.typeId ∈ state.expandedObjects →
      ∀ node ∈ declaration.instanceNodes, state.Settled node

/-- Between two turns of the outer loop every instance is expanded, or still in the queue. -/
structure Inv (api : SemanticApi) (state : Reach) : Prop extends Core api state where
  instances : ∀ typeId ∈ state.objectInstances,
    typeId ∈ state.expandedObjects ∨ .objectRef typeId ∈ state.pending

section

variable {api : SemanticApi} {state next : Reach}

/-- A later state keeps the invariant when what it adds does. -/
theorem Core.grow (hcore : Core api state) (hgrows : state.Grows next)
    (hknown : ∀ node ∈ next.pending, Known api node)
    (hlisted : ∀ typeId ∈ next.reachable, ∃ declaration ∈ api.declarations,
      declaration.typeId = typeId)
    (hobjects : ∀ typeId ∈ next.objectInstances, ∃ declaration,
      api.declaration? typeId = some (.object declaration))
    (hbelow : ∀ surface, Surface.Closed api surface → next.Below surface)
    (hnamespaces : next.objectNamespaces = state.objectNamespaces)
    (hvalues : ∀ declaration, .value declaration ∈ api.declarations →
      declaration.typeId ∈ next.reachable →
        declaration.typeId ∈ state.reachable ∧
          state.expandedValues ⊆ next.expandedValues ∨
        declaration.typeId ∈ next.expandedValues)
    (hfields : ∀ declaration, .value declaration ∈ api.declarations →
      declaration.typeId ∈ next.expandedValues →
        declaration.typeId ∈ state.expandedValues ∨
          ∀ field ∈ declaration.fields, next.Settled field.type.node)
    (hmembers : ∀ declaration, .object declaration ∈ api.declarations →
      declaration.typeId ∈ next.expandedObjects →
        declaration.typeId ∈ state.expandedObjects ∨
          ∀ node ∈ declaration.instanceNodes, next.Settled node) : Core api next where
  known := hknown
  listed := hlisted
  objects := hobjects
  below := hbelow
  functions binding hmem hpublic node hnode :=
    hgrows.settled (hcore.functions binding hmem hpublic node hnode)
  roots declaration hmem node hnode := hgrows.settled (hcore.roots declaration hmem node hnode)
  owners declaration hmem howns := hgrows.reachable (hcore.owners declaration hmem howns)
  namespaces := hnamespaces ▸ hcore.namespaces
  values declaration hmem hreachable := by
    rcases hvalues declaration hmem hreachable with ⟨hold, hsubset⟩ | hnew
    · exact hsubset (hcore.values declaration hmem hold)
    · exact hnew
  fields declaration hmem hexpanded field hfield := by
    rcases hfields declaration hmem hexpanded with hold | hnew
    · exact hgrows.settled (hcore.fields declaration hmem hold field hfield)
    · exact hnew field hfield
  members declaration hmem hexpanded node hnode := by
    rcases hmembers declaration hmem hexpanded with hold | hnew
    · exact hgrows.settled (hcore.members declaration hmem hold node hnode)
    · exact hnew node hnode

/-! ### The variant -/

def TypeNode.size : TypeNode → Nat
  | .array element => element.size + 1
  | .nullable inner => inner.size + 1
  | .void | .scalar _ | .enumRef _ | .valueRef _ | .objectRef _ => 1

/-- The sum of a measure over a list. -/
def total {Item : Type} (measure : Item → Nat) : List Item → Nat
  | [] => 0
  | item :: items => measure item + total measure items

/-- How many turns a queue takes on its own. -/
def weigh (nodes : List TypeNode) : Nat :=
  total TypeNode.size nodes

@[simp] theorem weigh_nil : weigh [] = 0 := rfl

@[simp] theorem weigh_cons {node : TypeNode} {nodes : List TypeNode} :
    weigh (node :: nodes) = node.size + weigh nodes := rfl

@[simp] theorem weigh_append {lefts rights : List TypeNode} :
    weigh (lefts ++ rights) = weigh lefts + weigh rights := by
  induction lefts with
  | nil => simp
  | cons node lefts ih =>
      rw [List.cons_append, weigh_cons, weigh_cons, ih]
      omega

theorem TypeNode.size_pos (node : TypeNode) : 0 < node.size := by
  cases node <;> simp [TypeNode.size]

/-- What the declaration may still add to the queue. -/
def Reach.remaining (state : Reach) : SemanticDeclaration → Nat
  | .enum _ => 0
  | .value declaration =>
      if declaration.typeId ∈ state.expandedValues then 0
      else weigh (declaration.fields.map (·.type.node))
  | .object declaration =>
      if declaration.typeId ∈ state.expandedObjects then 0 else weigh declaration.instanceNodes

def Reach.variant (api : SemanticApi) (state : Reach) : Nat :=
  weigh state.pending + total state.remaining api.declarations

theorem total_le {Item : Type} {items : List Item} {left right : Item → Nat}
    (hle : ∀ item, left item ≤ right item) : total left items ≤ total right items := by
  induction items with
  | nil => exact Nat.le_refl _
  | cons item items ih =>
      have hitem := hle item
      simp only [total]
      omega

/-- Expanding one of the declarations pays for what it adds. -/
theorem total_add_le {Item : Type} {items : List Item} {left right : Item → Nat} {added : Nat}
    (hle : ∀ item, left item ≤ right item) {chosen : Item} (hmem : chosen ∈ items)
    (hpays : left chosen + added ≤ right chosen) :
    total left items + added ≤ total right items := by
  induction items with
  | nil => simp at hmem
  | cons item items ih =>
      simp only [total]
      rcases List.mem_cons.mp hmem with rfl | htail
      · have hothers : total left items ≤ total right items := total_le hle
        omega
      · have hothers := ih htail
        have hitem := hle item
        omega

/-! ### The inner loop -/

/-- The object a turn of the inner loop expands, and the state it leaves. -/
def Reach.expand (state : Reach) (declaration : SemanticObjectDeclaration) : Reach :=
  { state with expandedObjects := insert declaration.typeId state.expandedObjects }.queue
    declaration.instanceNodes

/-- The inner loop is done when every instance is expanded, and else expands one more. -/
theorem expandStep_cases (hcore : Core api state) :
    (expandStep api state = .ok none ∧ state.objectInstances ⊆ state.expandedObjects) ∨
      ∃ declaration, .object declaration ∈ api.declarations ∧
        declaration.typeId ∈ state.objectInstances \ state.expandedObjects ∧
        expandStep api state = .ok (some (state.expand declaration)) := by
  unfold expandStep
  cases hsort : (state.objectInstances \ state.expandedObjects).sort (· ≤ ·) with
  | nil =>
      refine .inl ⟨rfl, ?_⟩
      intro typeId hinstance
      by_contra hfresh
      have hmem : typeId ∈ (state.objectInstances \ state.expandedObjects).sort (· ≤ ·) :=
        (Finset.mem_sort _).mpr (Finset.mem_sdiff.mpr ⟨hinstance, hfresh⟩)
      simp [hsort] at hmem
  | cons typeId others =>
      have hmem : typeId ∈ state.objectInstances \ state.expandedObjects := by
        rw [← Finset.mem_sort (· ≤ ·), hsort]
        exact List.mem_cons_self
      obtain ⟨declaration, hfound⟩ := hcore.objects typeId (Finset.mem_sdiff.mp hmem).1
      obtain ⟨hlisted, rfl⟩ := SemanticApi.declaration?_iff.mp hfound
      refine .inr ⟨declaration, hlisted, hmem, ?_⟩
      simp only [hfound]
      rfl

theorem Core.expand (hcore : Core api state) {declaration : SemanticObjectDeclaration}
    (hmem : .object declaration ∈ api.declarations)
    (hinstance : declaration.typeId ∈ state.objectInstances) :
    Core api (state.expand declaration) := by
  have hgrows : state.Grows (state.expand declaration) :=
    { pending := fun node hnode => .of_pending (List.mem_append_left _ hnode)
      reachable := Finset.Subset.refl _
      objectInstances := Finset.Subset.refl _ }
  apply hcore.grow hgrows
  · intro node hnode
    rcases List.mem_append.mp hnode with hold | hnew
    · exact hcore.known node hold
    · exact known_of_instanceNodes hmem hnew
  · exact hcore.listed
  · exact hcore.objects
  · intro surface hclosed
    have hbelow := hcore.below surface hclosed
    refine ⟨?_, hbelow.reachable, hbelow.objectInstances⟩
    intro node hnode
    rcases List.mem_append.mp hnode with hold | hnew
    · exact hbelow.pending node hold
    · exact hclosed.instanceNodes hmem (hbelow.objectInstances _ hinstance) node hnew
  · rfl
  · exact fun _ _ hreachable => .inl ⟨hreachable, Finset.Subset.refl _⟩
  · exact fun _ _ hexpanded => .inl hexpanded
  · intro other hother hexpanded
    rcases Finset.mem_insert.mp hexpanded with hid | hold
    · have hsame : SemanticDeclaration.object other = .object declaration :=
        SemanticApi.eq_of_typeId hother hmem hid
      obtain rfl : other = declaration := by simpa using hsame
      exact .inr fun node hnode => .of_pending (List.mem_append_right _ hnode)
    · exact .inl hold

theorem variant_expand {declaration : SemanticObjectDeclaration}
    (hmem : .object declaration ∈ api.declarations)
    (hfresh : declaration.typeId ∉ state.expandedObjects) :
    (state.expand declaration).variant api ≤ state.variant api := by
  have hle : ∀ other, (state.expand declaration).remaining other ≤ state.remaining other := by
    intro other
    cases other with
    | enum other | value other => exact Nat.le_refl _
    | object other =>
        simp only [Reach.remaining, Reach.expand, Reach.queue, Finset.mem_insert]
        by_cases hold : other.typeId ∈ state.expandedObjects
        · simp [hold]
        · by_cases hid : other.typeId = declaration.typeId
          · simp [hid]
          · simp [hold, hid]
  have hpays : (state.expand declaration).remaining (.object declaration) +
      weigh declaration.instanceNodes ≤ state.remaining (.object declaration) := by
    simp [Reach.remaining, Reach.expand, Reach.queue, hfresh]
  have hsum := total_add_le hle hmem hpays
  calc (state.expand declaration).variant api
      = weigh state.pending + weigh declaration.instanceNodes +
          total (state.expand declaration).remaining api.declarations := by
        simp [Reach.variant, Reach.expand]
    _ ≤ state.variant api := by
        unfold Reach.variant
        omega

/-- What the inner loop keeps, from the state it starts in. -/
structure Inner (api : SemanticApi) (start state : Reach) : Prop extends Core api state where
  grows : start.Grows state
  variant : state.variant api ≤ start.variant api

/-- The inner loop ends: every turn expands one more instance. -/
theorem expandObjects_terminates (start : Reach) :
    Terminates (fun state => some (expandStep api state)) (Inner api start)
      fun state => (state.objectInstances \ state.expandedObjects).card := by
  constructor
  · intro state hinner
    rcases expandStep_cases hinner.toCore with ⟨hdone, _⟩ | ⟨declaration, _, _, hstep⟩
    · exact ⟨none, congrArg some hdone⟩
    · exact ⟨_, congrArg some hstep⟩
  · intro state next hinner hnext
    rcases expandStep_cases hinner.toCore with ⟨hdone, _⟩ | ⟨declaration, hmem, hfresh, hstep⟩
    · simp [hdone] at hnext
    · obtain rfl : state.expand declaration = next := by simpa [hstep] using hnext
      obtain ⟨hinstance, hunexpanded⟩ := Finset.mem_sdiff.mp hfresh
      have hgrows : state.Grows (state.expand declaration) :=
        { pending := fun node hnode => .of_pending (List.mem_append_left _ hnode)
          reachable := Finset.Subset.refl _
          objectInstances := Finset.Subset.refl _ }
      exact ⟨hinner.expand hmem hinstance, hinner.grows.trans hgrows,
        (variant_expand hmem hunexpanded).trans hinner.variant⟩
  · intro state next hinner hnext
    rcases expandStep_cases hinner.toCore with ⟨hdone, _⟩ | ⟨declaration, hmem, hfresh, hstep⟩
    · simp [hdone] at hnext
    · obtain rfl : state.expand declaration = next := by simpa [hstep] using hnext
      apply Finset.card_lt_card
      refine Finset.ssubset_iff_subset_ne.mpr ⟨?_, ?_⟩
      · exact Finset.sdiff_subset_sdiff (Finset.Subset.refl _) (Finset.subset_insert _ _)
      · intro heq
        rw [← heq] at hfresh
        exact (Finset.mem_sdiff.mp hfresh).2 (Finset.mem_insert_self _ _)

theorem card_instances_le (hcore : Core api state) :
    (state.objectInstances \ state.expandedObjects).card ≤ api.declarations.length := by
  have hsubset : state.objectInstances \ state.expandedObjects ⊆
      (api.declarations.map (·.typeId)).toFinset := by
    intro typeId hmem
    obtain ⟨declaration, hfound⟩ := hcore.objects typeId (Finset.mem_sdiff.mp hmem).1
    obtain ⟨hlisted, hid⟩ := SemanticApi.declaration?_iff.mp hfound
    exact List.mem_toFinset.mpr (List.mem_map.mpr ⟨_, hlisted, hid⟩)
  calc (state.objectInstances \ state.expandedObjects).card
      ≤ (api.declarations.map (·.typeId)).toFinset.card := Finset.card_le_card hsubset
    _ ≤ (api.declarations.map (·.typeId)).length := List.toFinset_card_le _
    _ = api.declarations.length := List.length_map _

/-- After the inner loop every instance is expanded. -/
theorem continueWith_eq (hcore : Core api state) {fuel : Nat}
    (hfuel : api.declarations.length < fuel) :
    ∃ next, continueWith api fuel state = some (.ok (some next)) ∧ Inv api next ∧
      state.Grows next ∧ next.variant api ≤ state.variant api := by
  have hinner : Inner api state state := ⟨hcore, .refl state, Nat.le_refl _⟩
  have hcard := card_instances_le hcore
  obtain ⟨final, hloop, hfinal, hexit⟩ :=
    (expandObjects_terminates state).exists_exit hinner (Nat.lt_of_le_of_lt hcard hfuel)
  refine ⟨final, ?_, ⟨hfinal.toCore, ?_⟩, hfinal.grows, hfinal.variant⟩
  · simp [continueWith, expandObjects, hloop, Except.map]
  · intro typeId hinstance
    rcases expandStep_cases hfinal.toCore with ⟨_, hall⟩ | ⟨declaration, _, _, hstep⟩
    · exact .inl (hall hinstance)
    · simp [hstep] at hexit

/-! ### The outer loop -/

/-- The state after a pop: the first type is gone, and the given ones are at the end. -/
def Reach.replace (state : Reach) (pending nodes : List TypeNode) : Reach :=
  { state with pending := pending ++ nodes }

section

variable {node : TypeNode} {pending nodes : List TypeNode}

theorem Reach.Grows.replace (nodes : List TypeNode) (hpending : state.pending = node :: pending)
    (hreachable : state.reachable ⊆ next.reachable)
    (hinstances : state.objectInstances ⊆ next.objectInstances)
    (hnext : next.pending = pending ++ nodes) (hsettled : next.Settled node) :
    state.Grows next where
  pending other hother := by
    rw [hpending] at hother
    rcases List.mem_cons.mp hother with rfl | htail
    · exact hsettled
    · exact .of_pending (hnext ▸ List.mem_append_left _ htail)
  reachable := hreachable
  objectInstances := hinstances

/-- A type without a name of its own is replaced by what it is made of. -/
theorem Inv.replace (hinv : Inv api state) (hpending : state.pending = node :: pending)
    (hnode : ∀ typeId, node ≠ .objectRef typeId)
    (hsettled : (state.replace pending nodes).Settled node)
    (hknown : ∀ other ∈ nodes, Known api other)
    (hshows : ∀ surface : Surface, surface.Shows node → ∀ other ∈ nodes, surface.Shows other) :
    Inv api (state.replace pending nodes) := by
  have hgrows : state.Grows (state.replace pending nodes) :=
    .replace nodes hpending (Finset.Subset.refl _) (Finset.Subset.refl _) rfl hsettled
  refine ⟨hinv.toCore.grow hgrows ?_ hinv.listed hinv.objects ?_ rfl ?_ ?_ ?_, ?_⟩
  · intro other hother
    rcases List.mem_append.mp hother with hold | hnew
    · exact hinv.known other (hpending ▸ List.mem_cons_of_mem _ hold)
    · exact hknown other hnew
  · intro surface hclosed
    have hbelow := hinv.below surface hclosed
    refine ⟨?_, hbelow.reachable, hbelow.objectInstances⟩
    intro other hother
    rcases List.mem_append.mp hother with hold | hnew
    · exact hbelow.pending other (hpending ▸ List.mem_cons_of_mem _ hold)
    · exact hshows surface (hbelow.pending node (hpending ▸ List.mem_cons_self)) other hnew
  · exact fun _ _ hreachable => .inl ⟨hreachable, Finset.Subset.refl _⟩
  · exact fun _ _ hexpanded => .inl hexpanded
  · exact fun _ _ hexpanded => .inl hexpanded
  · intro typeId hinstance
    rcases hinv.instances typeId hinstance with hexpanded | hqueued
    · exact .inl hexpanded
    · rw [hpending] at hqueued
      rcases List.mem_cons.mp hqueued with heq | htail
      · exact absurd heq.symm (hnode typeId)
      · exact .inr (List.mem_append_left _ htail)

theorem variant_replace (hpending : state.pending = node :: pending)
    (hless : weigh nodes < node.size) :
    (state.replace pending nodes).variant api < state.variant api := by
  have hremaining : (state.replace pending nodes).remaining = state.remaining := by
    funext declaration
    cases declaration <;> rfl
  unfold Reach.variant
  rw [hremaining, hpending]
  simp only [Reach.replace, weigh_append, weigh_cons]
  omega

end

/-- The state in which a declaration has been reached that has nothing to expand. -/
def Reach.reach (state : Reach) (pending : List TypeNode) (typeId : String) : Reach :=
  { state with pending, reachable := insert typeId state.reachable }

theorem Inv.reach (hinv : Inv api state) {node : TypeNode} {pending : List TypeNode}
    {typeId : String} (hpending : state.pending = node :: pending)
    {declaration : SemanticDeclaration} (hfound : api.declaration? typeId = some declaration)
    (hsettled : (state.reach pending typeId).Settled node)
    (hshows : ∀ surface : Surface, surface.Shows node → typeId ∈ surface.declarations)
    (hexpanded : ∀ value, declaration = .value value → value.typeId ∈ state.expandedValues) :
    Core api (state.reach pending typeId) := by
  obtain ⟨hmem, hid⟩ := SemanticApi.declaration?_iff.mp hfound
  have hgrows : state.Grows (state.reach pending typeId) :=
    .replace [] hpending (Finset.subset_insert _ _) (Finset.Subset.refl _)
      (List.append_nil _).symm hsettled
  apply hinv.toCore.grow hgrows
  · exact fun other hother => hinv.known other (hpending ▸ List.mem_cons_of_mem _ hother)
  · intro other hother
    rcases Finset.mem_insert.mp hother with rfl | hold
    · exact ⟨_, hmem, hid⟩
    · exact hinv.listed other hold
  · exact hinv.objects
  · intro surface hclosed
    have hbelow := hinv.below surface hclosed
    refine ⟨?_, ?_, hbelow.objectInstances⟩
    · exact fun other hother => hbelow.pending other (hpending ▸ List.mem_cons_of_mem _ hother)
    · intro other hother
      rcases Finset.mem_insert.mp hother with rfl | hold
      · exact hshows surface (hbelow.pending node (hpending ▸ List.mem_cons_self))
      · exact hbelow.reachable other hold
  · rfl
  · intro other hother hreachable
    rcases Finset.mem_insert.mp hreachable with heq | hold
    · have hsame := SemanticApi.eq_of_typeId hother hmem (heq.trans hid.symm)
      exact .inr (hexpanded other hsame.symm)
    · exact .inl ⟨hold, Finset.Subset.refl _⟩
  · exact fun _ _ hexpanded => .inl hexpanded
  · exact fun _ _ hexpanded => .inl hexpanded

theorem remaining_reach {pending : List TypeNode} {typeId : String} :
    (state.reach pending typeId).remaining = state.remaining := by
  funext declaration
  cases declaration <;> rfl

/-- The state in which a value has been reached and expanded. -/
def Reach.reachValue (state : Reach) (pending : List TypeNode)
    (declaration : SemanticValueDeclaration) : Reach :=
  { state with
    pending := pending ++ declaration.fields.map (·.type.node)
    reachable := insert declaration.typeId state.reachable
    expandedValues := insert declaration.typeId state.expandedValues }

theorem Inv.reachValue (hinv : Inv api state) {pending : List TypeNode}
    {declaration : SemanticValueDeclaration}
    (hpending : state.pending = .valueRef declaration.typeId :: pending)
    (hmem : .value declaration ∈ api.declarations) :
    Core api (state.reachValue pending declaration) := by
  have hgrows : state.Grows (state.reachValue pending declaration) :=
    .replace _ hpending (Finset.subset_insert _ _) (Finset.Subset.refl _) rfl
      (.inr (Finset.mem_insert_self _ _))
  apply hinv.toCore.grow hgrows
  · intro other hother
    rcases List.mem_append.mp hother with hold | hnew
    · exact hinv.known other (hpending ▸ List.mem_cons_of_mem _ hold)
    · obtain ⟨field, hfield, rfl⟩ := List.mem_map.mp hnew
      exact known_of_field hmem hfield
  · intro other hother
    rcases Finset.mem_insert.mp hother with rfl | hold
    · exact ⟨_, hmem, rfl⟩
    · exact hinv.listed other hold
  · exact hinv.objects
  · intro surface hclosed
    have hbelow := hinv.below surface hclosed
    have hdeclared : declaration.typeId ∈ surface.declarations :=
      hbelow.pending (.valueRef declaration.typeId) (hpending ▸ List.mem_cons_self)
    refine ⟨?_, ?_, hbelow.objectInstances⟩
    · intro other hother
      rcases List.mem_append.mp hother with hold | hnew
      · exact hbelow.pending other (hpending ▸ List.mem_cons_of_mem _ hold)
      · obtain ⟨field, hfield, rfl⟩ := List.mem_map.mp hnew
        exact hclosed.value declaration hmem hdeclared field hfield
    · intro other hother
      rcases Finset.mem_insert.mp hother with rfl | hold
      · exact hdeclared
      · exact hbelow.reachable other hold
  · rfl
  · intro other hother hreachable
    rcases Finset.mem_insert.mp hreachable with heq | hold
    · exact .inr (Finset.mem_insert.mpr (.inl heq))
    · exact .inl ⟨hold, Finset.subset_insert _ _⟩
  · intro other hother hexpanded
    rcases Finset.mem_insert.mp hexpanded with heq | hold
    · have hsame : SemanticDeclaration.value other = .value declaration :=
        SemanticApi.eq_of_typeId hother hmem heq
      obtain rfl : other = declaration := by simpa using hsame
      exact .inr fun field hfield =>
        .of_pending (List.mem_append_right _ (List.mem_map_of_mem hfield))
    · exact .inl hold
  · exact fun _ _ hexpanded => .inl hexpanded

/-- The state in which an object has been reached. -/
def Reach.reachObject (state : Reach) (pending : List TypeNode) (typeId : String) : Reach :=
  { state with
    pending
    reachable := insert typeId state.reachable
    objectInstances := insert typeId state.objectInstances }

theorem Inv.reachObject (hinv : Inv api state) {pending : List TypeNode} {typeId : String}
    (hpending : state.pending = .objectRef typeId :: pending)
    {declaration : SemanticObjectDeclaration}
    (hfound : api.declaration? typeId = some (.object declaration)) :
    Core api (state.reachObject pending typeId) := by
  obtain ⟨hmem, hid⟩ := SemanticApi.declaration?_iff.mp hfound
  have hgrows : state.Grows (state.reachObject pending typeId) :=
    .replace [] hpending (Finset.subset_insert _ _) (Finset.subset_insert _ _)
      (List.append_nil _).symm (.inr ⟨Finset.mem_insert_self _ _, Finset.mem_insert_self _ _⟩)
  apply hinv.toCore.grow hgrows
  · exact fun other hother => hinv.known other (hpending ▸ List.mem_cons_of_mem _ hother)
  · intro other hother
    rcases Finset.mem_insert.mp hother with rfl | hold
    · exact ⟨_, hmem, hid⟩
    · exact hinv.listed other hold
  · intro other hother
    rcases Finset.mem_insert.mp hother with rfl | hold
    · exact ⟨declaration, hfound⟩
    · exact hinv.objects other hold
  · intro surface hclosed
    have hbelow := hinv.below surface hclosed
    obtain ⟨hdeclared, hinstance⟩ :=
      hbelow.pending (.objectRef typeId) (hpending ▸ List.mem_cons_self)
    refine ⟨?_, ?_, ?_⟩
    · exact fun other hother => hbelow.pending other (hpending ▸ List.mem_cons_of_mem _ hother)
    · intro other hother
      rcases Finset.mem_insert.mp hother with rfl | hold
      · exact hdeclared
      · exact hbelow.reachable other hold
    · intro other hother
      rcases Finset.mem_insert.mp hother with rfl | hold
      · exact hinstance
      · exact hbelow.objectInstances other hold
  · rfl
  · intro other hother hreachable
    rcases Finset.mem_insert.mp hreachable with heq | hold
    · have hsame := SemanticApi.eq_of_typeId hother hmem (heq.trans hid.symm)
      cases hsame
    · exact .inl ⟨hold, Finset.Subset.refl _⟩
  · exact fun _ _ hexpanded => .inl hexpanded
  · exact fun _ _ hexpanded => .inl hexpanded

theorem remaining_reachObject {pending : List TypeNode} {typeId : String} :
    (state.reachObject pending typeId).remaining = state.remaining := by
  funext declaration
  cases declaration <;> rfl

theorem variant_reachValue {pending : List TypeNode} {declaration : SemanticValueDeclaration}
    (hpending : state.pending = .valueRef declaration.typeId :: pending)
    (hmem : .value declaration ∈ api.declarations)
    (hfresh : declaration.typeId ∉ state.expandedValues) :
    (state.reachValue pending declaration).variant api < state.variant api := by
  have hle : ∀ other, (state.reachValue pending declaration).remaining other ≤
      state.remaining other := by
    intro other
    cases other with
    | enum other | object other => exact Nat.le_refl _
    | value other =>
        simp only [Reach.remaining, Reach.reachValue, Finset.mem_insert]
        by_cases hold : other.typeId ∈ state.expandedValues
        · simp [hold]
        · by_cases hid : other.typeId = declaration.typeId
          · simp [hid]
          · simp [hold, hid]
  have hpays : (state.reachValue pending declaration).remaining (.value declaration) +
      weigh (declaration.fields.map (·.type.node)) ≤ state.remaining (.value declaration) := by
    simp [Reach.remaining, Reach.reachValue, hfresh]
  have hsum := total_add_le hle hmem hpays
  unfold Reach.variant
  rw [hpending, weigh_cons]
  simp only [Reach.reachValue, weigh_append, TypeNode.size] at hsum ⊢
  omega

/-- Taking a type off the queue is progress by itself. -/
theorem variant_pop {node : TypeNode} {pending : List TypeNode}
    (hpending : state.pending = node :: pending) (hnext : next.pending = pending)
    (hremaining : next.remaining = state.remaining) : next.variant api < state.variant api := by
  have hsize := node.size_pos
  unfold Reach.variant
  rw [hremaining, hnext, hpending, weigh_cons]
  omega

/-- One turn of the outer loop: it ends on an empty queue, and else makes progress. -/
theorem drainStep_cases (hinv : Inv api state) {fuel : Nat}
    (hfuel : api.declarations.length < fuel) :
    (state.pending = [] ∧ drainStep api fuel state = some (.ok none)) ∨
      ∃ next, drainStep api fuel state = some (.ok (some next)) ∧ Inv api next ∧
        next.variant api < state.variant api := by
  cases hpending : state.pending with
  | nil => exact .inl ⟨rfl, by simp [drainStep, hpending]⟩
  | cons node pending =>
      have hknown := hinv.known node (hpending ▸ List.mem_cons_self)
      right
      cases node with
      | void | scalar kind =>
          refine ⟨state.replace pending [], ?_, ?_,
            variant_replace hpending (by simp [TypeNode.size])⟩
          · simp [drainStep, hpending, Reach.replace]
          · exact hinv.replace hpending (by simp) trivial (by simp) (by simp)
      | array element | nullable element =>
          refine ⟨state.replace pending [element], ?_, ?_,
            variant_replace hpending (by simp [TypeNode.size])⟩
          · simp [drainStep, hpending, Reach.replace, Reach.queue]
          · apply hinv.replace hpending (by simp)
            · exact .inr (.of_pending (List.mem_append_right _ List.mem_cons_self))
            · simpa [Known] using hknown
            · simp [Surface.Shows]
      | enumRef typeId =>
          obtain ⟨declaration, hfound⟩ := hknown
          have hid := (SemanticApi.declaration?_iff.mp hfound).2
          have hcore : Core api (state.reach pending typeId) :=
            hinv.reach hpending hfound (.inr (Finset.mem_insert_self _ _)) (fun _ hshows => hshows)
              (by simp)
          obtain ⟨next, hstep, hnext, _, hvariant⟩ := continueWith_eq hcore hfuel
          refine ⟨next, ?_, hnext, ?_⟩
          · simpa [drainStep, hpending, hfound, visitDeclaration, hid, Reach.reach] using hstep
          · exact hvariant.trans_lt (variant_pop hpending rfl remaining_reach)
      | valueRef typeId =>
          obtain ⟨declaration, hfound⟩ := hknown
          obtain ⟨hmem, hid⟩ := SemanticApi.declaration?_iff.mp hfound
          change declaration.typeId = typeId at hid
          subst hid
          by_cases hexpanded : declaration.typeId ∈ state.expandedValues
          · refine ⟨state.reach pending declaration.typeId, ?_, ⟨?_, ?_⟩,
              variant_pop hpending rfl remaining_reach⟩
            · simp [drainStep, hpending, hfound, visitDeclaration, Reach.reach, hexpanded,
                SemanticDeclaration.typeId]
            · exact hinv.reach hpending hfound (.inr (Finset.mem_insert_self _ _))
                (fun _ hshows => hshows) (by simpa using hexpanded)
            · intro other hinstance
              rcases hinv.instances other hinstance with hold | hqueued
              · exact .inl hold
              · rw [hpending] at hqueued
                have htail : TypeNode.objectRef other ∈ pending := by simpa using hqueued
                exact .inr htail
          · obtain ⟨next, hstep, hnext, _, hvariant⟩ :=
              continueWith_eq (hinv.reachValue hpending hmem) hfuel
            refine ⟨next, ?_, hnext, ?_⟩
            · simpa [drainStep, hpending, hfound, visitDeclaration, Reach.reachValue, hexpanded,
                SemanticDeclaration.typeId, Reach.queue] using hstep
            · exact hvariant.trans_lt (variant_reachValue hpending hmem hexpanded)
      | objectRef typeId =>
          obtain ⟨declaration, hfound⟩ := hknown
          have hid := (SemanticApi.declaration?_iff.mp hfound).2
          change declaration.typeId = typeId at hid
          obtain ⟨next, hstep, hnext, _, hvariant⟩ :=
            continueWith_eq (hinv.reachObject hpending hfound) hfuel
          refine ⟨next, ?_, hnext, ?_⟩
          · simpa [drainStep, hpending, hfound, visitDeclaration, hid, Reach.reachObject,
              Reach.addInstance, SemanticDeclaration.typeId] using hstep
          · exact hvariant.trans_lt (variant_pop hpending rfl remaining_reachObject)

theorem drain_terminates {fuel : Nat} (hfuel : api.declarations.length < fuel) :
    Terminates (drainStep api fuel) (Inv api) (Reach.variant api) := by
  constructor
  · intro state hinv
    rcases drainStep_cases hinv hfuel with ⟨_, hdone⟩ | ⟨next, hstep, _⟩
    · exact ⟨none, hdone⟩
    · exact ⟨some next, hstep⟩
  · intro state found hinv hfound
    rcases drainStep_cases hinv hfuel with ⟨_, hdone⟩ | ⟨next, hstep, hnext, _⟩
    · simp [hdone] at hfound
    · obtain rfl : next = found := by simpa [hstep] using hfound
      exact hnext
  · intro state found hinv hfound
    rcases drainStep_cases hinv hfuel with ⟨_, hdone⟩ | ⟨next, hstep, _, hless⟩
    · simp [hdone] at hfound
    · obtain rfl : next = found := by simpa [hstep] using hfound
      exact hless

/-! ### The start -/

/-- What the roots put together, field by field. -/
theorem foldl_addRoots (declarations : List SemanticDeclaration) (state : Reach) :
    (∀ node, node ∈ (declarations.foldl Reach.addRoots state).pending ↔
      node ∈ state.pending ∨ ∃ declaration, .object declaration ∈ declarations ∧
        node ∈ declaration.rootNodes) ∧
    (∀ typeId, typeId ∈ (declarations.foldl Reach.addRoots state).reachable ↔
      typeId ∈ state.reachable ∨ ∃ declaration, .object declaration ∈ declarations ∧
        declaration.OwnsRoot ∧ typeId = declaration.typeId) ∧
    (∀ typeId, typeId ∈ (declarations.foldl Reach.addRoots state).objectNamespaces ↔
      typeId ∈ state.objectNamespaces ∨ ∃ declaration, .object declaration ∈ declarations ∧
        declaration.OwnsRoot ∧ typeId = declaration.typeId) ∧
    (∀ typeId, typeId ∈ (declarations.foldl Reach.addRoots state).objectInstances ↔
      typeId ∈ state.objectInstances ∨ ∃ declaration, .object declaration ∈ declarations ∧
        declaration.constructor ≠ none ∧ typeId = declaration.typeId) ∧
    (declarations.foldl Reach.addRoots state).expandedValues = state.expandedValues ∧
    (declarations.foldl Reach.addRoots state).expandedObjects = state.expandedObjects := by
  induction declarations generalizing state with
  | nil => simp
  | cons declaration declarations ih =>
      obtain ⟨hpending, hreachable, hnamespaces, hinstances, hvalues, hobjects⟩ :=
        ih (state.addRoots declaration)
      rw [List.foldl_cons]
      cases declaration with
      | enum declaration | value declaration =>
          simpa [Reach.addRoots] using ih state
      | object declaration =>
          obtain ⟨hpending', hreachable', hnamespaces', hinstances', hvalues', hobjects'⟩ :=
            state.addObjectRoots_eq declaration
          refine ⟨?_, ?_, ?_, ?_, hvalues.trans hvalues', hobjects.trans hobjects'⟩
          · intro node
            rw [hpending, Reach.addRoots, hpending']
            simp [or_and_right, exists_or, or_assoc]
          · intro typeId
            rw [hreachable, Reach.addRoots, hreachable']
            simp [or_and_right, exists_or, or_assoc]
          · intro typeId
            rw [hnamespaces, Reach.addRoots, hnamespaces']
            simp [or_and_right, exists_or, or_assoc]
          · intro typeId
            rw [hinstances, Reach.addRoots, hinstances']
            simp [or_and_right, exists_or, or_assoc]

theorem mem_publicFunctions {binding : SemanticBinding} : binding ∈ publicFunctions api ↔
    binding ∈ api.functions ∧ binding.capabilities.javascriptPublic := by
  simp [publicFunctions]

/-- The nodes an object starts with are shown by every closed surface. -/
theorem Surface.Closed.rootNodes {surface : Surface} (hclosed : Surface.Closed api surface)
    {declaration : SemanticObjectDeclaration} (hmem : .object declaration ∈ api.declarations) :
    ∀ node ∈ declaration.rootNodes, surface.Shows node := by
  intro node hnode
  rcases List.mem_append.mp hnode with hconstructor | hstatic
  · obtain ⟨constructor, hselected, hnode⟩ := List.mem_flatMap.mp hconstructor
    obtain ⟨howner, hparameters⟩ :=
      hclosed.constructor declaration hmem constructor (by simpa using hselected)
    rcases List.mem_cons.mp hnode with rfl | hparameter
    · exact howner
    · obtain ⟨parameter, hlisted, rfl⟩ := List.mem_map.mp hparameter
      exact hparameters parameter hlisted
  · obtain ⟨method, hlisted, hnode⟩ := List.mem_flatMap.mp hstatic
    obtain ⟨hlisted, hpublic⟩ := List.mem_filter.mp hlisted
    exact (hclosed.static declaration hmem method hlisted hpublic).2 node hnode

/-- The owner of a root is public in every closed surface. -/
theorem Surface.Closed.owner {surface : Surface} (hclosed : Surface.Closed api surface)
    {declaration : SemanticObjectDeclaration} (hmem : .object declaration ∈ api.declarations)
    (howns : declaration.OwnsRoot) : declaration.typeId ∈ surface.declarations := by
  rcases howns with hconstructor | ⟨method, hlisted, hpublic⟩
  · obtain ⟨constructor, hselected⟩ := Option.ne_none_iff_exists'.mp hconstructor
    exact (hclosed.constructor declaration hmem constructor hselected).1.1
  · exact (hclosed.static declaration hmem method hlisted hpublic).1

theorem known_of_rootNodes {declaration : SemanticObjectDeclaration}
    (hmem : .object declaration ∈ api.declarations) {node : TypeNode}
    (hnode : node ∈ declaration.rootNodes) : Known api node := by
  rcases List.mem_append.mp hnode with hconstructor | hstatic
  · obtain ⟨constructor, hselected, hnode⟩ := List.mem_flatMap.mp hconstructor
    rcases List.mem_cons.mp hnode with rfl | hparameter
    · exact ⟨declaration, SemanticApi.declaration?_iff.mpr ⟨hmem, rfl⟩⟩
    · obtain ⟨parameter, hlisted, rfl⟩ := List.mem_map.mp hparameter
      exact known_of_parameter hmem (by simpa [SemanticDeclaration.constructor?] using hselected)
        hlisted
  · obtain ⟨method, hlisted, hnode⟩ := List.mem_flatMap.mp hstatic
    exact known_of_method hmem (List.mem_filter.mp hlisted).1 hnode

theorem inv_rootReach (api : SemanticApi) : Inv api (rootReach api) := by
  obtain ⟨hpending, hreachable, hnamespaces, hinstances, hvalues, hobjects⟩ :=
    foldl_addRoots api.declarations { pending := (publicFunctions api).flatMap (·.typeNodes) }
  simp only [Finset.notMem_empty, false_or] at hreachable hnamespaces hinstances
  have hqueued : ∀ node, node ∈ (rootReach api).pending ↔
      (∃ binding ∈ publicFunctions api, node ∈ binding.typeNodes) ∨
        ∃ declaration, .object declaration ∈ api.declarations ∧ node ∈ declaration.rootNodes := by
    intro node
    rw [rootReach, hpending, List.mem_flatMap]
  constructor
  · constructor
    · intro node hnode
      rcases (hqueued node).mp hnode with ⟨binding, hbinding, hnode⟩ | ⟨declaration, hmem, hnode⟩
      · exact known_of_function (mem_publicFunctions.mp hbinding).1 hnode
      · exact known_of_rootNodes hmem hnode
    · intro typeId hmem
      obtain ⟨declaration, hlisted, _, rfl⟩ := (hreachable typeId).mp hmem
      exact ⟨_, hlisted, rfl⟩
    · intro typeId hmem
      obtain ⟨declaration, hlisted, _, rfl⟩ := (hinstances typeId).mp hmem
      exact ⟨declaration, SemanticApi.declaration?_iff.mpr ⟨hlisted, rfl⟩⟩
    · intro surface hclosed
      refine ⟨?_, ?_, ?_⟩
      · intro node hnode
        rcases (hqueued node).mp hnode with ⟨binding, hbinding, hnode⟩ | ⟨declaration, hmem, hnode⟩
        · obtain ⟨hlisted, hpublic⟩ := mem_publicFunctions.mp hbinding
          exact hclosed.function binding hlisted hpublic node hnode
        · exact hclosed.rootNodes hmem node hnode
      · intro typeId hmem
        obtain ⟨declaration, hlisted, howns, rfl⟩ := (hreachable typeId).mp hmem
        exact hclosed.owner hlisted howns
      · intro typeId hmem
        obtain ⟨declaration, hlisted, hconstructor, rfl⟩ := (hinstances typeId).mp hmem
        obtain ⟨constructor, hselected⟩ := Option.ne_none_iff_exists'.mp hconstructor
        exact (hclosed.constructor declaration hlisted constructor hselected).1.2
    · intro binding hmem hpublic node hnode
      exact .of_pending ((hqueued node).mpr
        (.inl ⟨binding, mem_publicFunctions.mpr ⟨hmem, hpublic⟩, hnode⟩))
    · exact fun declaration hmem node hnode =>
        .of_pending ((hqueued node).mpr (.inr ⟨declaration, hmem, hnode⟩))
    · exact fun declaration hmem howns =>
        (hreachable declaration.typeId).mpr ⟨declaration, hmem, howns, rfl⟩
    · exact hnamespaces
    · intro declaration hmem hreached
      obtain ⟨owner, hlisted, _, hid⟩ := (hreachable declaration.typeId).mp hreached
      have hsame : SemanticDeclaration.value declaration = .object owner :=
        SemanticApi.eq_of_typeId hmem hlisted hid
      cases hsame
    · intro declaration hmem hexpanded
      rw [rootReach, hvalues] at hexpanded
      simp at hexpanded
    · intro declaration hmem hexpanded
      rw [rootReach, hobjects] at hexpanded
      simp at hexpanded
  · intro typeId hmem
    obtain ⟨declaration, hlisted, hconstructor, rfl⟩ := (hinstances typeId).mp hmem
    obtain ⟨constructor, hselected⟩ := Option.ne_none_iff_exists'.mp hconstructor
    refine .inr ((hqueued _).mpr (.inr ⟨declaration, hlisted, ?_⟩))
    simp [SemanticObjectDeclaration.rootNodes, hselected]

/-! ### The end -/

/-- The surface a state has collected. -/
def Reach.surface (state : Reach) : Surface where
  instances := {typeId | typeId ∈ state.objectInstances}
  declarations := {typeId | typeId ∈ state.reachable}

theorem Surface.Shows.of_settled {node : TypeNode} (hempty : state.pending = [])
    (hsettled : state.Settled node) : state.surface.Shows node := by
  induction node with
  | void | scalar kind => trivial
  | array element ih | nullable element ih =>
      rcases hsettled with hpending | helement
      · simp [hempty] at hpending
      · exact ih helement
  | enumRef typeId | valueRef typeId | objectRef typeId =>
      rcases hsettled with hpending | hreachable
      · simp [hempty] at hpending
      · exact hreachable

/-- With an empty queue the surface is closed. -/
theorem Inv.closed (hinv : Inv api state) (hempty : state.pending = []) :
    Surface.Closed api state.surface where
  function binding hmem hpublic node hnode :=
    .of_settled hempty (hinv.functions binding hmem hpublic node hnode)
  static declaration hmem method hmethod hpublic := by
    refine ⟨hinv.owners declaration hmem (.inr ⟨method, hmethod, hpublic⟩), ?_⟩
    intro node hnode
    apply Surface.Shows.of_settled hempty
    apply hinv.roots declaration hmem
    apply List.mem_append_right
    exact List.mem_flatMap.mpr ⟨method, List.mem_filter.mpr ⟨hmethod, hpublic⟩, hnode⟩
  constructor declaration hmem constructor hselected := by
    have hshows : ∀ node ∈ declaration.rootNodes, state.surface.Shows node :=
      fun node hnode => .of_settled hempty (hinv.roots declaration hmem node hnode)
    refine ⟨?_, ?_⟩
    · apply hshows
      simp [SemanticObjectDeclaration.rootNodes, hselected]
    · intro parameter hparameter
      apply hshows
      apply List.mem_append_left
      rw [hselected]
      simpa using .inr ⟨parameter, hparameter, rfl⟩
  value declaration hmem hdeclared field hfield :=
    .of_settled hempty
      (hinv.fields declaration hmem (hinv.values declaration hmem hdeclared) field hfield)
  object declaration hmem hinstance := by
    have hexpanded : declaration.typeId ∈ state.expandedObjects := by
      rcases hinv.instances declaration.typeId hinstance with hexpanded | hqueued
      · exact hexpanded
      · simp [hempty] at hqueued
    have hshows : ∀ node ∈ declaration.instanceNodes, state.surface.Shows node :=
      fun node hnode => .of_settled hempty (hinv.members declaration hmem hexpanded node hnode)
    refine ⟨?_, ?_⟩
    · intro method hmethod hpublic node hnode
      apply hshows
      apply List.mem_append_left
      exact List.mem_flatMap.mpr ⟨method, List.mem_filter.mpr ⟨hmethod, hpublic⟩, hnode⟩
    · intro field hfield
      exact hshows _ (List.mem_append_right _ (List.mem_map_of_mem hfield))

theorem Inv.isLeast (hinv : Inv api state) (hempty : state.pending = []) :
    IsLeast {surface | Surface.Closed api surface} state.surface := by
  refine ⟨hinv.closed hempty, ?_⟩
  intro surface hclosed
  have hbelow := hinv.below surface hclosed
  exact ⟨hbelow.objectInstances, hbelow.reachable⟩

/-- With enough fuel both loops end, and what is returned is made from a least surface. -/
theorem computePublicApi_eq (api : SemanticApi) (featureName : Option String) :
    ∃ bound, ∀ fuel, bound ≤ fuel → ∃ final, Inv api final ∧ final.pending = [] ∧
      computePublicApi fuel api featureName = some (publish api featureName final) := by
  refine ⟨(rootReach api).variant api + api.declarations.length + 1, ?_⟩
  intro fuel hfuel
  have hinner : api.declarations.length < fuel := by omega
  have houter : (rootReach api).variant api < fuel := by omega
  obtain ⟨final, hloop, hinv, hexit⟩ :=
    (drain_terminates hinner).exists_exit (inv_rootReach api) houter
  refine ⟨final, hinv, ?_, by simp [computePublicApi, hloop, Except.bind]⟩
  rcases drainStep_cases hinv hinner with ⟨hempty, _⟩ | ⟨next, hstep, _⟩
  · exact hempty
  · simp [hstep] at hexit

/-! ### Fuel -/

section

variable {fuel more : Nat} (hle : fuel ≤ more)

include hle

theorem continueWith_mono {outcome} (hstep : continueWith api fuel state = some outcome) :
    continueWith api more state = some outcome := by
  simp only [continueWith, Option.map_eq_some_iff] at hstep ⊢
  obtain ⟨found, hloop, rfl⟩ := hstep
  exact ⟨found, loop_mono (fun h => h) hle hloop, rfl⟩

theorem visitDeclaration_mono {declaration : SemanticDeclaration} {outcome}
    (hstep : visitDeclaration api fuel state declaration = some outcome) :
    visitDeclaration api more state declaration = some outcome := by
  cases declaration with
  | enum declaration | object declaration => exact continueWith_mono hle hstep
  | value declaration =>
      unfold visitDeclaration at hstep ⊢
      dsimp only at hstep ⊢
      split
      · rename_i hexpanded
        rwa [if_pos hexpanded] at hstep
      · rename_i hfresh
        rw [if_neg hfresh] at hstep
        exact continueWith_mono hle hstep

theorem drainStep_mono {outcome} (hstep : drainStep api fuel state = some outcome) :
    drainStep api more state = some outcome := by
  unfold drainStep at hstep ⊢
  cases hpending : state.pending with
  | nil => simpa [hpending] using hstep
  | cons node pending =>
      rw [hpending] at hstep
      cases node with
      | void | scalar kind | array element | nullable element => exact hstep
      | enumRef typeId | valueRef typeId | objectRef typeId =>
          cases hfound : api.declaration? typeId with
          | none => simpa [hfound] using hstep
          | some declaration =>
              simp only [hfound] at hstep ⊢
              exact visitDeclaration_mono hle hstep

theorem computePublicApi_mono {featureName : Option String} {outcome}
    (hcompute : computePublicApi fuel api featureName = some outcome) :
    computePublicApi more api featureName = some outcome := by
  simp only [computePublicApi, Option.map_eq_some_iff] at hcompute ⊢
  obtain ⟨found, hloop, rfl⟩ := hcompute
  exact ⟨found, loop_mono (drainStep_mono hle) hle hloop, rfl⟩

end

end

/-! ### What is published -/

theorem Surface.eq_of_isLeast {surfaces : Set Surface} {left right : Surface}
    (hleft : IsLeast surfaces left) (hright : IsLeast surfaces right) : left = right := by
  obtain ⟨hinstances, hdeclarations⟩ := hleft.2 hright.1
  obtain ⟨hinstances', hdeclarations'⟩ := hright.2 hleft.1
  have hsame : left.instances = right.instances := hinstances.antisymm hinstances'
  have hdeclared : left.declarations = right.declarations := hdeclarations.antisymm hdeclarations'
  cases left
  cases right
  simp_all

def PublicApi.surface (published : PublicApi) : Surface where
  instances := {typeId | typeId ∈ published.objectInstances}
  declarations := {typeId | ∃ declaration ∈ published.declarations, declaration.typeId = typeId}

section

variable {left right api : SemanticApi} {featureName : Option String}

theorem publish_eq_ok {state : Reach} {published : PublicApi} :
    publish api featureName state = .ok published ↔
      (∀ declaration ∈ api.declarations,
        rejectUnreachableMember state.reachable state.objectInstances declaration = .ok ()) ∧
      validatePublicNames published featureName = .ok () ∧
      published =
        { functions := publicFunctions api
          declarations :=
            sortedBy (fun declaration => toLex (declaration.name, declaration.typeId))
              (api.declarations.filter (·.typeId ∈ state.reachable))
          objectNamespaces := state.objectNamespaces
          objectInstances := state.objectInstances } := by
  simp only [publish, bind_eq_ok, exists_unit, checkEach_eq_ok, pure_eq_ok]
  constructor
  · rintro ⟨hmembers, hnames, rfl⟩
    exact ⟨hmembers, hnames, rfl⟩
  · rintro ⟨hmembers, hnames, rfl⟩
    exact ⟨hmembers, hnames, rfl⟩

/-- What is published shows exactly the surface of the worklist. -/
theorem Inv.surface_published {state : Reach} (hinv : Inv api state) {published : PublicApi}
    (hpublished : publish api featureName state = .ok published) :
    published.surface = state.surface := by
  obtain ⟨_, _, rfl⟩ := publish_eq_ok.mp hpublished
  have hdeclarations : ∀ typeId, (∃ declaration ∈ sortedBy
      (fun declaration => toLex (declaration.name, declaration.typeId))
      (api.declarations.filter (·.typeId ∈ state.reachable)), declaration.typeId = typeId) ↔
        typeId ∈ state.reachable := by
    intro typeId
    simp only [mem_sortedBy, List.mem_filter, decide_eq_true_eq]
    constructor
    · rintro ⟨declaration, ⟨_, hreachable⟩, rfl⟩
      exact hreachable
    · intro hreachable
      obtain ⟨declaration, hmem, rfl⟩ := hinv.listed typeId hreachable
      exact ⟨declaration, ⟨hmem, hreachable⟩, rfl⟩
  simp only [PublicApi.surface, Reach.surface, Surface.mk.injEq, true_and]
  ext typeId
  exact hdeclarations typeId

theorem publicFunctions_of_perm (hfunctions : left.functions.Perm right.functions) :
    publicFunctions left = publicFunctions right := by
  refine sortedBy_eq_of_perm ?_ (hfunctions.filter _)
  have hids := (SemanticApi.Fields.postInit_eq_ok.mp left.valid).2.1
  simp only [SemanticApi.Fields.semanticIds, SemanticApi.Fields.allBindings, List.map_append,
    List.nodup_append] at hids
  have hbindingIds : (left.functions.map (·.bindingId)).Nodup := hids.1.1.1.1.1
  apply List.Nodup.of_map (fun key : Lex (String × String) => (ofLex key).2)
  rw [List.map_map]
  exact hbindingIds.sublist (List.filter_sublist.map _)

theorem declarations_of_perm (hdeclarations : left.declarations.Perm right.declarations)
    (reachable : Finset String) :
    sortedBy (fun declaration => toLex (declaration.name, declaration.typeId))
        (left.declarations.filter (·.typeId ∈ reachable)) =
      sortedBy (fun declaration => toLex (declaration.name, declaration.typeId))
        (right.declarations.filter (·.typeId ∈ reachable)) := by
  refine sortedBy_eq_of_perm ?_ (hdeclarations.filter _)
  apply List.Nodup.of_map (fun key : Lex (String × String) => (ofLex key).2)
  rw [List.map_map]
  exact left.typeIds_nodup.sublist (List.filter_sublist.map _)

/-- Two finished worklists over the same functions and declarations have collected the same. -/
theorem sets_of_perm (hfunctions : left.functions.Perm right.functions)
    (hdeclarations : left.declarations.Perm right.declarations) {state other : Reach}
    (hstate : Inv left state) (hempty : state.pending = []) (hother : Inv right other)
    (hempty' : other.pending = []) :
    state.reachable = other.reachable ∧ state.objectInstances = other.objectInstances ∧
      state.objectNamespaces = other.objectNamespaces := by
  have hleast : IsLeast {surface | Surface.Closed left surface} other.surface := by
    refine ⟨Surface.closed_of_perm hfunctions.symm hdeclarations.symm (hother.closed hempty'), ?_⟩
    intro surface hclosed
    exact (hother.isLeast hempty').2 (Surface.closed_of_perm hfunctions hdeclarations hclosed)
  have hsurface := Surface.eq_of_isLeast (hstate.isLeast hempty) hleast
  simp only [Reach.surface, Surface.mk.injEq, Set.ext_iff, Set.mem_ofPred_eq] at hsurface
  refine ⟨Finset.ext hsurface.2, Finset.ext hsurface.1, ?_⟩
  ext typeId
  rw [hstate.namespaces, hother.namespaces]
  simp only [hdeclarations.mem_iff]

theorem publish_of_perm (hfunctions : left.functions.Perm right.functions)
    (hdeclarations : left.declarations.Perm right.declarations) {state other : Reach}
    (hstate : Inv left state) (hempty : state.pending = []) (hother : Inv right other)
    (hempty' : other.pending = []) {published : PublicApi}
    (hpublished : publish left featureName state = .ok published) :
    publish right featureName other = .ok published := by
  obtain ⟨hreachable, hinstances, hnamespaces⟩ :=
    sets_of_perm hfunctions hdeclarations hstate hempty hother hempty'
  obtain ⟨hmembers, hnames, hfields⟩ := publish_eq_ok.mp hpublished
  refine publish_eq_ok.mpr ⟨?_, hnames, ?_⟩
  · intro declaration hmem
    rw [← hreachable, ← hinstances]
    exact hmembers declaration (hdeclarations.mem_iff.mpr hmem)
  · rw [hfields, publicFunctions_of_perm hfunctions, declarations_of_perm hdeclarations,
      hnamespaces, hinstances, hreachable]

/-- Some amount of fuel lets `compute_public_api` end with this outcome. -/
def Computes (api : SemanticApi) (featureName : Option String)
    (outcome : Except SemanticError PublicApi) : Prop :=
  ∃ fuel, computePublicApi fuel api featureName = some outcome

/-- The outcome is made from a finished worklist. -/
theorem computes_iff {outcome : Except SemanticError PublicApi} :
    Computes api featureName outcome ↔
      ∃ final, Inv api final ∧ final.pending = [] ∧ publish api featureName final = outcome := by
  obtain ⟨bound, hbound⟩ := computePublicApi_eq api featureName
  constructor
  · rintro ⟨fuel, houtcome⟩
    obtain ⟨final, hinv, hempty, hcompute⟩ := hbound (max bound fuel) (Nat.le_max_left _ _)
    have hmore := computePublicApi_mono (Nat.le_max_right bound fuel) houtcome
    exact ⟨final, hinv, hempty, by simpa [hcompute] using hmore⟩
  · rintro ⟨final, hinv, hempty, rfl⟩
    refine ⟨bound, ?_⟩
    obtain ⟨other, hother, hempty', hcompute⟩ := hbound bound (Nat.le_refl _)
    obtain ⟨hreachable, hinstances, hnamespaces⟩ :=
      sets_of_perm (.refl _) (.refl _) hother hempty' hinv hempty
    rw [hcompute]
    simp only [publish, hreachable, hinstances, hnamespaces]

end

/-- **The public API is the least surface closed under the rules.** The worklist always ends, cycles
or not, and neither its success nor its result depends on the order of the API. -/
theorem computePublicApi_isLeast :
    (∀ api featureName, ∃ outcome, Computes api featureName outcome) ∧
    (∀ api featureName published, Computes api featureName (.ok published) →
      IsLeast {surface | Surface.Closed api surface} published.surface) ∧
    ∀ (left right : SemanticApi) featureName published,
      left.functions.Perm right.functions → left.declarations.Perm right.declarations →
        (Computes left featureName (.ok published) ↔
          Computes right featureName (.ok published)) := by
  refine ⟨?_, ?_, ?_⟩
  · intro api featureName
    obtain ⟨bound, hbound⟩ := computePublicApi_eq api featureName
    obtain ⟨final, hinv, hempty, _⟩ := hbound bound (Nat.le_refl _)
    exact ⟨_, computes_iff.mpr ⟨final, hinv, hempty, rfl⟩⟩
  · intro api featureName published hcompute
    obtain ⟨final, hinv, hempty, hpublished⟩ := computes_iff.mp hcompute
    rw [hinv.surface_published hpublished]
    exact hinv.isLeast hempty
  · have htransfer : ∀ {left right : SemanticApi} {featureName published},
        left.functions.Perm right.functions → left.declarations.Perm right.declarations →
          Computes left featureName (.ok published) →
            Computes right featureName (.ok published) := by
      intro left right featureName published hfunctions hdeclarations hcompute
      obtain ⟨state, hstate, hempty, hpublished⟩ := computes_iff.mp hcompute
      obtain ⟨bound, hbound⟩ := computePublicApi_eq right featureName
      obtain ⟨other, hother, hempty', _⟩ := hbound bound (Nat.le_refl _)
      exact computes_iff.mpr ⟨other, hother, hempty',
        publish_of_perm hfunctions hdeclarations hstate hempty hother hempty' hpublished⟩
    intro left right featureName published hfunctions hdeclarations
    exact ⟨htransfer hfunctions hdeclarations, htransfer hfunctions.symm hdeclarations.symm⟩

/-! ### An object that returns itself -/

def nodeSource (declarationId : String) : SourceProvenance.Fields :=
  { declarationId, language := "cpp", path := "node.hpp", line := 1 }

def nodeObject : SemanticObjectDeclaration where
  featureId := "f"
  typeId := "f:type:Node"
  name := "Node"
  projection :=
    { backend := .cpp
      source := { nodeSource "Node" with valid := by decide }
      valid := by decide }
  constructor :=
    some { source := { nodeSource "Node()" with valid := by decide }, valid := by decide }
  methods := [
    { bindingId := "f:next"
      kind := .objectMethod
      name := "next"
      capabilities := .forRole .exported
      execution := .sync
      parameters := []
      result := { node := .nullable (.objectRef "f:type:Node"), valid := by decide }
      source := { nodeSource "next" with valid := by decide }
      ownerId := some "f:type:Node"
      ownerName := some "Node"
      memberScope := .instance_
      valid := by decide }]
  valid := by decide

def cyclicApi : SemanticApi where
  declarations := [.object nodeObject]
  valid := by decide

theorem computePublicApi_isLeast_cyclic :
    ∃ published, Computes cyclicApi none (.ok published) ∧
      IsLeast {surface | Surface.Closed cyclicApi surface} published.surface := by
  obtain ⟨outcome, hcompute⟩ := Option.isSome_iff_exists.mp
    (show (computePublicApi 8 cyclicApi none).isSome by decide +kernel)
  have hok : (computePublicApi 8 cyclicApi none).any Except.isOk = true := by decide +kernel
  obtain ⟨published, rfl⟩ := exists_of_isOk (by simpa [hcompute] using hok)
  exact ⟨published, ⟨8, hcompute⟩,
    computePublicApi_isLeast.2.1 cyclicApi none published ⟨8, hcompute⟩⟩

end SupernoteModule.Semantic
