import SupernoteModule.Semantic.Api

/-!
# Values on a route

`validate_semantic_route` follows a type through the fields of its values and asks every named type
for the backends at both ends of the route.
-/

namespace SupernoteModule.Semantic

open SupernoteModule.Lib

namespace SemanticApi

/-- The ends of a route, and where they are. -/
structure Route where
  source : BackendFamily
  target : BackendFamily
  sourceLocation : String
  targetLocation : String
deriving DecidableEq

/-- `fail`, for a declaration. -/
def Route.failure (route : Route) (message : String) (declaration : SemanticDeclaration)
    (position : String) : SemanticError :=
  let locations := ", ".intercalate (declaration.projections.map (·.source.location))
  .model (s!"{message} at {position}; logical type is declared at {locations}; " ++
    s!"route endpoints are {route.sourceLocation} and {route.targetLocation}")

def available (declaration : SemanticDeclaration) : List BackendFamily :=
  declaration.projections.map (·.backend)

/-- The check of a native object. -/
def Route.checkObject (route : Route) (declaration : SemanticDeclaration) (position : String) :
    Except SemanticError Unit := do
  require (route.source = route.target)
    (route.failure
      (s!"native object {Python.repr declaration.name} cannot cross " ++
        s!"{value route.source}->{value route.target}; cross-family " ++
        "object proxies are deferred in the current generator") declaration position)
  require (route.source ∈ available declaration)
    (route.failure
      s!"native object {Python.repr declaration.name} has no {value route.source} projection"
      declaration position)

/-- The check of a copied type. -/
def Route.checkCopied (route : Route) (declaration : SemanticDeclaration) (position : String) :
    Except SemanticError Unit :=
  let missing := [route.source, route.target].filter (· ∉ available declaration)
  require (missing = [])
    (route.failure
      (s!"copied type {Python.repr declaration.name} is missing " ++
        ", ".intercalate (Python.sortedSet (missing.map fun family => value family)) ++
        " projection capability") declaration position)

/-- `declarations[type_id]`. -/
def declarationOf (api : Fields) (typeId : String) : Except SemanticError SemanticDeclaration :=
  demand (api.declaration? typeId) (.key typeId)

/-- `check`, given what to do with the fields of a value. The state is `checked_values`. -/
def Route.checkNode (route : Route) (api : Fields)
    (enter : List String → SemanticValueDeclaration → String → Except SemanticError (List String)) :
    List String → TypeNode → String → Except SemanticError (List String)
  | checked, .array element, position =>
      route.checkNode api enter checked element (position ++ "[]")
  | checked, .nullable inner, position =>
      route.checkNode api enter checked inner (position ++ "?")
  | checked, .void, _ | checked, .scalar _, _ => .ok checked
  | checked, .objectRef typeId, position => do
      let declaration ← declarationOf api typeId
      route.checkObject declaration position
      return checked
  | checked, .enumRef typeId, position | checked, .valueRef typeId, position => do
      let declaration ← declarationOf api typeId
      route.checkCopied declaration position
      match declaration with
      | .value copied =>
          if copied.typeId ∈ checked then return checked
          else enter (copied.typeId :: checked) copied position
      | .enum _ | .object _ => return checked

/-- The fields of one value. The fuel bounds how deep values are nested. -/
def Route.checkFields (route : Route) (api : Fields) :
    Nat → List String → SemanticValueDeclaration → String → Except SemanticError (List String)
  | 0, _, _, _ => .error .recursion
  | fuel + 1, checked, declaration, position =>
      declaration.fields.foldlM
        (fun checked field =>
          route.checkNode api (route.checkFields api fuel) checked field.type.node
            s!"{position}.{field.name}")
        checked

/-- `validate_semantic_route`. A value is entered once, so the fuel is the number of values. -/
def Fields.validateRoute (api : Fields) (type : SemanticType) (source target : BackendFamily)
    (sourcePlace targetPlace : SourceProvenance) : Except SemanticError Unit := do
  let route : Route := ⟨source, target, sourcePlace.location, targetPlace.location⟩
  let _ ← route.checkNode api (route.checkFields api api.declarations.length) [] type.node "value"
  return ()

/-! ### Routes that are open -/

/-- Both ends of the route are available for a declaration. -/
def Route.Open (route : Route) (declaration : SemanticDeclaration) : Prop :=
  route.source ∈ available declaration ∧ route.target ∈ available declaration ∧
    (declaration.kind = .object → route.source = route.target)

/-- Every reference below a node meets a declaration of its kind that is admitted. -/
def Fields.Refers (api : Fields) (admitted : SemanticDeclaration → Prop) (node : TypeNode) : Prop :=
  ∀ inner ∈ node.walk, ∀ kind typeId, inner.reference? = some (kind, typeId) →
    ∃ declaration, api.declaration? typeId = some declaration ∧ declaration.kind = kind ∧
      admitted declaration

/-- The admitted declarations are open to the route, and values of them hold nothing else. -/
structure Fields.OpenTo (api : Fields) (route : Route) (admitted : SemanticDeclaration → Prop) :
    Prop where
  isOpen : ∀ declaration ∈ api.declarations, admitted declaration → route.Open declaration
  closed : ∀ declaration, .value declaration ∈ api.declarations → admitted (.value declaration) →
    ∀ field ∈ declaration.fields, api.Refers admitted field.type.node

variable {api : Fields} {route : Route} {admitted : SemanticDeclaration → Prop}

theorem mem_of_declaration? {typeId : String} {declaration : SemanticDeclaration}
    (hfound : api.declaration? typeId = some declaration) :
    declaration ∈ api.declarations ∧ declaration.typeId = typeId :=
  ⟨List.mem_of_find?_eq_some hfound, by simpa using List.find?_some hfound⟩

theorem Fields.refers_of_valid (hvalid : api.validateNamedReferences = .ok ()) {type : SemanticType}
    (htype : type ∈ api.allTypes) : api.Refers (· ∈ api.declarations) type.node := by
  intro inner hinner kind typeId hreference
  have hnode := checkEach_eq_ok.mp (checkEach_eq_ok.mp hvalid type htype) inner hinner
  simp only [Fields.validateReference, hreference] at hnode
  cases hdeclaration : api.declaration? typeId with
  | none => simp [hdeclaration] at hnode
  | some declaration =>
      simp only [hdeclaration, require_eq_ok] at hnode
      exact ⟨declaration, rfl, hnode, (mem_of_declaration? hdeclaration).1⟩

theorem Fields.Refers.array {element : TypeNode} (hrefers : api.Refers admitted (.array element)) :
    api.Refers admitted element :=
  fun inner hinner => hrefers inner (List.mem_cons_of_mem _ hinner)

theorem Fields.Refers.nullable {element : TypeNode}
    (hrefers : api.Refers admitted (.nullable element)) : api.Refers admitted element :=
  fun inner hinner => hrefers inner (List.mem_cons_of_mem _ hinner)

theorem checkCopied_of_open {declaration : SemanticDeclaration} {position : String}
    (hopen : route.Open declaration) : route.checkCopied declaration position = .ok () := by
  rw [Route.checkCopied, require_eq_ok, List.filter_eq_nil_iff]
  intro family hfamily
  rcases List.mem_cons.mp hfamily with rfl | htarget
  · simp [hopen.1]
  · rw [List.mem_singleton.mp htarget]
    simp [hopen.2.1]

theorem checkObject_of_open {declaration : SemanticDeclaration} {position : String}
    (hopen : route.Open declaration) (hkind : declaration.kind = .object) :
    route.checkObject declaration position = .ok () := by
  simp only [Route.checkObject, bind_eq_ok, require_eq_ok]
  exact ⟨(), hopen.2.2 hkind, hopen.1⟩

/-- The values already entered are different declarations of the API. -/
def Entered (api : Fields) (checked : List String) : Prop :=
  checked.Nodup ∧ ∀ typeId ∈ checked, typeId ∈ api.declarations.map (·.typeId)

theorem Entered.length_le {checked : List String} (hentered : Entered api checked) :
    checked.length ≤ api.declarations.length := by
  have hsub := (hentered.1.subperm hentered.2).length_le
  rwa [List.length_map] at hsub

/-- A node passes when its declarations are open and entering a value works. -/
theorem checkNode_of_open
    (hopen : ∀ declaration ∈ api.declarations, admitted declaration → route.Open declaration)
    {enter : List String → SemanticValueDeclaration → String → Except SemanticError (List String)}
    {bound : Nat}
    (henter : ∀ checked declaration position, Entered api checked → bound < checked.length →
      .value declaration ∈ api.declarations → admitted (.value declaration) →
      ∃ next, enter checked declaration position = .ok next ∧ Entered api next ∧
        checked.length ≤ next.length)
    {node : TypeNode} (hrefers : api.Refers admitted node) {checked : List String}
    (hentered : Entered api checked) (hbound : bound ≤ checked.length) (position : String) :
    ∃ next, route.checkNode api enter checked node position = .ok next ∧ Entered api next ∧
      checked.length ≤ next.length := by
  induction node generalizing position with
  | void => exact ⟨checked, rfl, hentered, le_rfl⟩
  | scalar kind => exact ⟨checked, rfl, hentered, le_rfl⟩
  | array element ih => exact ih hrefers.array _
  | nullable inner ih => exact ih hrefers.nullable _
  | objectRef typeId =>
      obtain ⟨declaration, hfound, hkind, hadmitted⟩ :=
        hrefers _ List.mem_cons_self .object typeId rfl
      have hdeclared := hopen _ (mem_of_declaration? hfound).1 hadmitted
      refine ⟨checked, ?_, hentered, le_rfl⟩
      simp only [Route.checkNode, declarationOf, bind_eq_ok, demand_eq_ok]
      exact ⟨declaration, hfound, (), checkObject_of_open hdeclared hkind, rfl⟩
  | enumRef typeId =>
      obtain ⟨declaration, hfound, hkind, hadmitted⟩ :=
        hrefers _ List.mem_cons_self .enum typeId rfl
      have hdeclared := hopen _ (mem_of_declaration? hfound).1 hadmitted
      refine ⟨checked, ?_, hentered, le_rfl⟩
      simp only [Route.checkNode, declarationOf, bind_eq_ok, demand_eq_ok]
      refine ⟨declaration, hfound, (), checkCopied_of_open hdeclared, ?_⟩
      cases declaration with
      | enum declaration => rfl
      | value declaration => cases hkind
      | object declaration => cases hkind
  | valueRef typeId =>
      obtain ⟨declaration, hfound, hkind, hadmitted⟩ :=
        hrefers _ List.mem_cons_self .value typeId rfl
      obtain ⟨hmem, htypeId⟩ := mem_of_declaration? hfound
      have hdeclared := hopen _ hmem hadmitted
      simp only [Route.checkNode, declarationOf, bind_eq_ok, demand_eq_ok]
      cases declaration with
      | enum declaration => cases hkind
      | object declaration => cases hkind
      | value declaration =>
          by_cases hchecked : declaration.typeId ∈ checked
          · refine ⟨checked, ⟨_, hfound, (), checkCopied_of_open hdeclared, ?_⟩, hentered, le_rfl⟩
            simp [hchecked, pure, Except.pure]
          · have hnext : Entered api (declaration.typeId :: checked) := by
              refine ⟨List.nodup_cons.mpr ⟨hchecked, hentered.1⟩, ?_⟩
              intro other hother
              rcases List.mem_cons.mp hother with rfl | hrest
              · exact List.mem_map.mpr ⟨_, hmem, rfl⟩
              · exact hentered.2 other hrest
            obtain ⟨next, hok, hfinal, hgrows⟩ := henter _ declaration position hnext
              (by rw [List.length_cons]; omega) hmem hadmitted
            rw [List.length_cons] at hgrows
            refine ⟨next, ⟨_, hfound, (), checkCopied_of_open hdeclared, ?_⟩, hfinal, by omega⟩
            simpa [hchecked] using hok

/-- Entering a value works as long as there is fuel for every value not entered yet. -/
theorem checkFields_of_open (hopen : api.OpenTo route admitted) (fuel : Nat)
    {checked : List String} {declaration : SemanticValueDeclaration} (position : String)
    (hentered : Entered api checked) (hfuel : api.declarations.length < fuel + checked.length)
    (hdeclared : .value declaration ∈ api.declarations)
    (hadmitted : admitted (.value declaration)) :
    ∃ next, route.checkFields api fuel checked declaration position = .ok next ∧
      Entered api next ∧ checked.length ≤ next.length := by
  induction fuel generalizing checked declaration position with
  | zero =>
      have hlength := hentered.length_le
      omega
  | succ fuel ih =>
      apply foldlM_exists fun state => Entered api state ∧ checked.length ≤ state.length
      · intro state hstate field hfield
        obtain ⟨next, hok, hnext, hgrows⟩ := checkNode_of_open hopen.isOpen
          (fun entered copied place henter hlarger hcopied hvalue =>
            ih place henter (by omega) hcopied hvalue)
          (hopen.closed declaration hdeclared hadmitted field hfield) hstate.1 hstate.2
          s!"{position}.{field.name}"
        exact ⟨next, hok, hnext, hstate.2.trans hgrows⟩
      · exact ⟨hentered, le_rfl⟩

theorem Fields.refers_of_value (hvalid : api.validateNamedReferences = .ok ())
    {declaration : SemanticValueDeclaration} (hdeclared : .value declaration ∈ api.declarations)
    {field : SemanticField} (hfield : field ∈ declaration.fields) :
    api.Refers (· ∈ api.declarations) field.type.node := by
  apply Fields.refers_of_valid hvalid
  apply List.mem_append_right
  refine List.mem_flatMap.mpr ⟨_, hdeclared, ?_⟩
  exact List.mem_append_left _ (List.mem_append_left _ (List.mem_map_of_mem hfield))

/-- **A route takes every type that refers to declarations open to it.** -/
theorem Fields.validateRoute_of_open {source target : BackendFamily}
    {sourcePlace targetPlace : SourceProvenance}
    (hopen : api.OpenTo ⟨source, target, sourcePlace.location, targetPlace.location⟩ admitted)
    {type : SemanticType} (hrefers : api.Refers admitted type.node) :
    api.validateRoute type source target sourcePlace targetPlace = .ok () := by
  have hentered : Entered api [] := ⟨List.nodup_nil, by simp⟩
  obtain ⟨next, hok, _⟩ := checkNode_of_open hopen.isOpen
    (fun entered copied place henter hlarger hcopied hvalue =>
      checkFields_of_open hopen api.declarations.length place henter (by omega) hcopied hvalue)
    hrefers hentered (Nat.zero_le _) "value"
  simp only [Fields.validateRoute, bind_eq_ok]
  exact ⟨next, hok, rfl⟩

end SemanticApi

end SupernoteModule.Semantic
