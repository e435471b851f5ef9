import SupernoteModule.Frontend.JvmProjection

/-!
# The account of marked declarations

A projection takes marked declarations in and gives the records of an API out. Its account lists
both sides by the kind of the declaration, each entry being the place in the source. It is complete
when the two sides are the same up to order.
-/

namespace SupernoteModule.Frontend

open SupernoteModule.Semantic

/-- What a marked declaration becomes. -/
inductive MemberKind where
  | callable
  | field
  | constructor
  | declaration
deriving DecidableEq, Repr

abbrev Account := MemberKind → List SourceProvenance

/-! ### What comes out -/

def functionSources (bindings : List SemanticBinding) : Account
  | .callable => bindings.map (·.source)
  | .field | .constructor | .declaration => []

def classSources (record : SemanticClass) : Account
  | .callable => record.methods.map (·.source)
  | .field => []
  | .constructor => [record.constructor.source]
  | .declaration => [record.source]

def declarationSources (declaration : SemanticDeclaration) : Account
  | .callable => declaration.methods.map (·.source)
  | .field => declaration.fields.map (·.source)
  | .constructor => (declaration.constructor?.map (·.source)).toList
  | .declaration => declaration.projections.map (·.source)

/-- Where the records of an API come from. -/
def apiSources (api : SemanticApi.Fields) : Account := fun kind =>
  functionSources api.functions kind ++ api.classes.flatMap (classSources · kind) ++
    api.declarations.flatMap (declarationSources · kind)

/-! ### What goes in -/

namespace CppClassSource

variable (source : CppClassSource)

def marked : Account
  | .callable => source.generatedMethods.map (·.provenance)
  | .field => (source.fields.filter fun field => field.intent.role = .exported).map (·.provenance)
  | .constructor => (source.constructors.filter (·.selected)).map (·.provenance)
  | .declaration => if source.isOwner then [] else [source.provenance]

/-- What no branch of the projection looks at: the fields and constructors of an unmarked class. -/
def overlooked : Account
  | .callable | .declaration => []
  | .field => if source.isOwner then source.marked .field else []
  | .constructor => if source.isOwner then source.marked .constructor else []

end CppClassSource

namespace JvmOwnerSource

variable (owner : JvmOwnerSource)

/-- The class carries no marker of its own. -/
def isOwner : Bool :=
  !owner.intent.declaresObject && !owner.intent.declaresValue

/-- The class is marked as a value and has constants. -/
def isEnum : Bool :=
  !owner.intent.declaresObject && owner.intent.declaresValue && owner.enumConstants ≠ []

def marked : Account
  | .callable => owner.generatedDeclarations.map (·.provenance)
  | .field => (owner.fields.filter fun field => field.intent.role = .exported).map (·.provenance)
  | .constructor => (owner.constructors.filter (·.selected)).map (·.provenance)
  | .declaration => if owner.isOwner then [] else [owner.provenance]

/-- What no branch of the projection looks at: the members of an enumeration, and the fields and
constructors of an unmarked owner. -/
def overlooked : Account
  | .callable => if owner.isEnum then owner.marked .callable else []
  | .field => if owner.isEnum || owner.isOwner then owner.marked .field else []
  | .constructor => if owner.isEnum || owner.isOwner then owner.marked .constructor else []
  | .declaration => []

end JvmOwnerSource

/-- A class whose marked members are all looked at: an unmarked one has no marked field and selects
no constructor. -/
def CppClassSource.FullyRead (source : CppClassSource) : Prop :=
  source.isOwner → source.marked .field = [] ∧ source.marked .constructor = []

/-- An owner whose marked members are all looked at: an unmarked one has no marked field and selects
no constructor, and an enumeration has no marked member at all. -/
def JvmOwnerSource.FullyRead (owner : JvmOwnerSource) : Prop :=
  (owner.isEnum → owner.marked .callable = []) ∧
    (owner.isEnum ∨ owner.isOwner → owner.marked .field = [] ∧ owner.marked .constructor = [])

instance (source : CppClassSource) : Decidable source.FullyRead :=
  inferInstanceAs (Decidable (_ → _))

instance (owner : JvmOwnerSource) : Decidable owner.FullyRead :=
  inferInstanceAs (Decidable (_ ∧ _))

theorem CppClassSource.fullyRead_iff {source : CppClassSource} :
    source.FullyRead ↔ ∀ kind, source.overlooked kind = [] := by
  constructor
  · intro hread kind
    cases kind <;> simp only [overlooked]
    · split
      · exact (hread ‹_›).1
      · rfl
    · split
      · exact (hread ‹_›).2
      · rfl
  · intro hnothing howner
    have hfield := hnothing .field
    have hconstructor := hnothing .constructor
    simp only [overlooked, if_pos howner] at hfield hconstructor
    exact ⟨hfield, hconstructor⟩

theorem JvmOwnerSource.fullyRead_iff {owner : JvmOwnerSource} :
    owner.FullyRead ↔ ∀ kind, owner.overlooked kind = [] := by
  constructor
  · rintro ⟨hcallable, hothers⟩ kind
    cases kind <;> simp only [overlooked]
    · split
      · exact hcallable ‹_›
      · rfl
    · split
      · rename_i hkind
        exact (hothers (by simpa using hkind)).1
      · rfl
    · split
      · rename_i hkind
        exact (hothers (by simpa using hkind)).2
      · rfl
  · intro hnothing
    constructor
    · intro henum
      have hcallable := hnothing .callable
      rwa [overlooked, if_pos henum] at hcallable
    · intro hkind
      have hfield := hnothing .field
      have hconstructor := hnothing .constructor
      have htest : (owner.isEnum || owner.isOwner) = true := by simpa using hkind
      simp only [overlooked, if_pos htest] at hfield hconstructor
      exact ⟨hfield, hconstructor⟩

def enumSources (enums : List CppEnumSource) : Account
  | .declaration => enums.map (·.provenance)
  | .callable | .field | .constructor => []

def markedFunctions (functions : List CppFunctionSource) : List CppFunctionSource :=
  functions.filter fun source => source.intent.role ≠ .ordinary

def markedFunctionSources (functions : List CppFunctionSource) : Account
  | .callable => (markedFunctions functions).map (·.provenance)
  | .field | .constructor | .declaration => []

/-- The marked declarations of the C++ sources. -/
def markedCpp (functions : List CppFunctionSource) (classes : List CppClassSource)
    (enums : List CppEnumSource) : Account := fun kind =>
  markedFunctionSources functions kind ++ classes.flatMap (·.marked kind) ++ enumSources enums kind

/-- The marked declarations of the JVM owners. -/
def markedJvm (owners : List JvmOwnerSource) : Account := fun kind =>
  owners.flatMap (·.marked kind)

/-- Every marked declaration is a record of the API exactly once, and nothing else is one. -/
def Complete (marked : Account) (api : SemanticApi) : Prop :=
  ∀ kind, (apiSources api.toFields kind).Perm (marked kind)

/-! ### Accounts that balance -/

/-- What was overlooked makes up the difference. -/
def Balances (marked overlooked : Account) (api : SemanticApi.Fields) : Prop :=
  ∀ kind, (apiSources api kind ++ overlooked kind).Perm (marked kind)

/-- **An account that balances is complete exactly when nothing was overlooked.** -/
theorem complete_iff_of_balances {marked overlooked : Account} {api : SemanticApi}
    (hbalances : Balances marked overlooked api.toFields) :
    Complete marked api ↔ ∀ kind, overlooked kind = [] := by
  constructor
  · intro hcomplete kind
    have hlength := (hbalances kind).length_eq
    have hsame := (hcomplete kind).length_eq
    rw [List.length_append] at hlength
    apply List.eq_nil_of_length_eq_zero
    omega
  · intro hnothing kind
    have hbalance := hbalances kind
    rwa [hnothing kind, List.append_nil] at hbalance

/-! ### Growing APIs -/

variable {api : SemanticApi.Fields} {kind : MemberKind}

theorem functionSources_append (first second : List SemanticBinding) :
    functionSources (first ++ second) kind =
      functionSources first kind ++ functionSources second kind := by
  cases kind <;> simp [functionSources]

theorem apiSources_functions (bindings : List SemanticBinding) :
    (apiSources { api with functions := api.functions ++ bindings } kind).Perm
      (apiSources api kind ++ functionSources bindings kind) := by
  simp only [apiSources, functionSources_append, List.append_assoc]
  apply List.Perm.append_left
  rw [← List.append_assoc (api.classes.flatMap _)]
  exact List.perm_append_comm

theorem apiSources_declarations (declarations : List SemanticDeclaration) :
    apiSources { api with declarations := api.declarations ++ declarations } kind =
      apiSources api kind ++ declarations.flatMap (declarationSources · kind) := by
  simp [apiSources, List.append_assoc]

theorem apiSources_declaration (declaration : SemanticDeclaration) :
    apiSources { api with declarations := api.declarations ++ [declaration] } kind =
      apiSources api kind ++ declarationSources declaration kind := by
  rw [apiSources_declarations, List.flatMap_singleton]

end SupernoteModule.Frontend
