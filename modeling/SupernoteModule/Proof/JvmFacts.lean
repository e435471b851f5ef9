import SupernoteModule.Frontend.JvmFacts
import SupernoteModule.Proof.JvmRoundTrip

/-!
# The processor's manifest is read back

The processor writes JSON in a layout of its own, which leaves most control characters as they are.
Whatever it accepts is read back as the same facts exactly when no text has such a character and no
declaration carries a marker twice.
-/

namespace SupernoteModule.Frontend

open SupernoteModule.Lib SupernoteModule.Python SupernoteModule.Semantic
open SupernoteModule.Generation (utf8)
open SupernoteModule.Python.Json
  (Fields Layout Legibility Spells Garbles Sound SoundItems allLegible
  allLegibleItems allLegibleFields scanChar scanEscape)

/-! ### The layout of the processor -/

namespace ProcessorJson

def layout : Layout where
  escape := escape
  float _ := []
  opened _ := []
  between _ := [' ']
  closed _ := []
  valued := []
  openedBlank _ := List.forall_mem_nil _
  betweenBlank _ := List.forall_mem_singleton.mpr rfl
  closedBlank _ := List.forall_mem_nil _
  valuedBlank := List.forall_mem_nil _

theorem intercalate_cons (first : List Char) (rest : List (List Char)) :
    [',', ' '].intercalate (first :: rest) = first ++ layout.separated 0 rest := by
  induction rest generalizing first with
  | nil => simp [Layout.separated]
  | cons second rest ih =>
      rw [List.intercalate_cons_cons, ih]
      simp [Layout.separated, layout]

/-- Any level is written alike. -/
theorem separated_eq (level : Nat) (items : List (List Char)) :
    layout.separated level items = layout.separated 0 items :=
  rfl

theorem enclosed_eq (opening closing : Char) (level : Nat) (items : List (List Char)) :
    opening :: [',', ' '].intercalate items ++ [closing] =
      layout.enclosed opening closing level items := by
  cases items with
  | nil => rfl
  | cons first rest =>
      have hopened : layout.opened level = [] := rfl
      have hclosed : layout.closed level = [] := rfl
      rw [intercalate_cons, Layout.enclosed, separated_eq level, hopened, hclosed]
      simp

mutual

theorem json_eq (level : Nat) : (value : Json) → json value = layout.write level value
  | .null => rfl
  | .bool flag => by cases flag <;> rfl
  | .integer _ => rfl
  | .real _ => rfl
  | .string _ => rfl
  | .object fields => by
      rw [json, Layout.write, jsonFields_eq (level + 1) fields, ← enclosed_eq]
  | .array items => by
      rw [json, Layout.write, jsonItems_eq (level + 1) items, ← enclosed_eq]

theorem jsonItems_eq (level : Nat) : (items : List Json) →
    jsonItems items = layout.writeItems level items
  | [] => rfl
  | item :: items => by
      rw [jsonItems, Layout.writeItems, json_eq level item, jsonItems_eq level items]

theorem jsonFields_eq (level : Nat) : (fields : Fields) →
    jsonFields fields = layout.writeFields level fields
  | [] => rfl
  | (key, value) :: fields => by
      rw [jsonFields, Layout.writeFields, json_eq level value, jsonFields_eq level fields]
      rfl

end

/-- The characters that are not control characters, and the three that are escaped. -/
def plain (char : Char) : Bool :=
  0x20 ≤ char.toNat || char = '\n' || char = '\r' || char = '\t'

theorem spells_letter {letter char : Char}
    (hletter : ∀ rest, scanEscape (letter :: rest) = some (char, rest)) :
    Spells char [backslash, letter] :=
  ⟨fun hhead => absurd (Option.some.inj hhead) (by decide), hletter⟩

theorem spells_escape {char : Char} (hplain : plain char) : Spells char (escape char) := by
  rw [escape]
  split_ifs with hbackslash hquote hline hreturn htab
  · subst hbackslash
    exact spells_letter fun _ => rfl
  · subst hquote
    exact spells_letter fun _ => rfl
  · exact hline ▸ spells_letter fun _ => rfl
  · exact hreturn ▸ spells_letter fun _ => rfl
  · exact htab ▸ spells_letter fun _ => rfl
  · have hcode : 0x20 ≤ char.toNat := by simpa [plain, hline, hreturn, htab] using hplain
    exact Json.spells_self hquote hbackslash hcode

theorem garbles_escape {char : Char} (hcontrol : ¬ plain char) : Garbles (escape char) := by
  simp only [plain, Bool.or_eq_true, decide_eq_true_eq, not_or, not_le] at hcontrol
  obtain ⟨⟨⟨hcode, hline⟩, hreturn⟩, htab⟩ := hcontrol
  have hbackslash : char ≠ backslash := by
    rintro rfl
    exact absurd hcode (by decide)
  have hquote : char ≠ doubleQuote := by
    rintro rfl
    exact absurd hcode (by decide)
  refine ⟨char, [], ?_, hquote, ?_⟩
  · simp [escape, hbackslash, hquote, hline, hreturn, htab]
  · intro others
    simp [scanChar, hbackslash, hcode]

def legibility : Legibility layout.escape where
  legible := plain
  spells _ := spells_escape
  garbles _ := garbles_escape

end ProcessorJson

/-! ### Facts as source records -/

/-- The facts a source record carries. -/
def JvmConstructorSource.fact (source : JvmConstructorSource) : ConstructorFact where
  declarationId := source.provenance.declarationId
  descriptor := source.jvmDescriptor
  parameters := source.parameters
  visibility := source.visibility
  markers := source.intent.occurrences
  adapterIdentity := source.adapterIdentity
  source := source.provenance

def JvmDeclarationSource.fact (source : JvmDeclarationSource) : DeclarationFact where
  declarationId := source.provenance.declarationId
  ownerDeclarationId := source.ownerDeclarationId
  ownerClass := source.ownerClass
  name := source.jvmName
  descriptor := source.jvmDescriptor
  parameters := source.parameters
  result := source.resultJvmType
  resultNullable := source.resultNullable
  markers := source.intent.occurrences
  visibility := source.visibility
  adapterIdentity := source.adapterIdentity
  language := source.language
  suspend := source.isSuspend
  isStatic := source.isStatic
  source := source.provenance
  resultArguments := source.resultTypeArguments

def JvmFieldSource.fact (source : JvmFieldSource) : FieldFact where
  declarationId := source.provenance.declarationId
  ownerDeclarationId := source.ownerDeclarationId
  name := source.name
  type := source.type
  markers := source.intent.occurrences
  visibility := source.visibility
  mutable := source.mutable
  isStatic := source.isStatic
  accessorIdentity := source.accessorIdentity
  source := source.provenance

def JvmOwnerSource.fact (source : JvmOwnerSource) : OwnerFact where
  declarationId := source.provenance.declarationId
  language := source.language
  ownerClass := source.ownerClass
  sourceName := source.sourceName
  form := source.form
  visibility := source.visibility
  markers := source.intent.occurrences
  source := source.provenance
  constructors := source.constructors.map JvmConstructorSource.fact
  declarations := source.declarations.map JvmDeclarationSource.fact
  fields := source.fields.map JvmFieldSource.fact
  enumConstants := source.enumConstants
  isData := source.isData
  isRecord := source.isRecord
  isFinal := source.isFinal
  typeParameterCount := source.typeParameterCount
  supertypes := source.supertypes

/-- The facts with the members in the order in which the processor writes them. -/
def OwnerFact.written (owner : OwnerFact) : OwnerFact :=
  { owner with
    constructors := sortedByText (·.declarationId) owner.constructors
    declarations := sortedByText (·.declarationId) owner.declarations }

/-! ### One value, written twice -/

mutual

theorem typeJson_eq : (type : JvmTypeSource) → typeJson type = type.manifest
  | .mk jvmType nullable arguments => by
      rw [typeJson, JvmTypeSource.manifest, typesJson_eq arguments]

theorem typesJson_eq : (types : List JvmTypeSource) →
    typesJson types = JvmTypeSource.manifests types
  | [] => rfl
  | type :: types => by
      rw [typesJson, JvmTypeSource.manifests, typeJson_eq type, typesJson_eq types]

end

theorem parameterJson_eq (parameter : JvmParameterSource) :
    parameterJson parameter = parameter.manifest := by
  rw [parameterJson, JvmParameterSource.manifest, typesJson_eq, JvmTypeSource.manifests_eq_map]
  cases parameter.injected <;> rfl

theorem parametersJson_eq (parameters : List JvmParameterSource) :
    parameters.map parameterJson = parameters.map JvmParameterSource.manifest :=
  List.map_congr_left fun parameter _ => parameterJson_eq parameter

theorem constructorJson_fact (source : JvmConstructorSource) :
    constructorJson source.fact = source.manifest := by
  rw [constructorJson, JvmConstructorSource.manifest]
  exact congrArg (fun parameters => Json.object [("source", _), ("jvm_descriptor", _),
    ("parameters", .array parameters), ("visibility", _), ("markers", _), ("adapter_identity", _)])
    (parametersJson_eq source.parameters)

theorem declarationJson_fact (source : JvmDeclarationSource) :
    declarationJson source.fact = source.manifest := by
  simp only [declarationJson, JvmDeclarationSource.fact, JvmDeclarationSource.manifest,
    parametersJson_eq, typesJson_eq, JvmTypeSource.manifests_eq_map]
  rfl

theorem fieldJson_fact (source : JvmFieldSource) : fieldJson source.fact = source.manifest := by
  simp only [fieldJson, JvmFieldSource.fact, JvmFieldSource.manifest, typeJson_eq]
  rfl

/-! ### What the processor accepts

How the processor makes its facts, and what its checks leave of them. It checks the markers of a
node as the set of their names. -/

/-- `markers(node) == names`. -/
def MarkerSetIs (markers : List MarkerOccurrence) (names : List SupernoteMarker) : Prop :=
  ∀ name, name ∈ markers.map (·.marker) ↔ name ∈ names

section Accepted

variable (sha256 : List UInt8 → String)

/-- A source of a node: its identity and the language of its owner. -/
structure SourceAccepted (source : SourceProvenance) (declarationId : String)
    (language : JvmLanguage) : Prop where
  identity : source.declarationId = declarationId
  language : source.language = value language

/-- `constructors` and `javaRecordFacts`. -/
structure ConstructorFact.Accepted (language : JvmLanguage) (ownerClass : String)
    (fact : ConstructorFact) : Prop where
  identity : fact.declarationId = declarationIdentity ownerClass "<init>" fact.descriptor
  adapter : fact.adapterIdentity = Frontend.adapterIdentity sha256 fact.declarationId
  source : SourceAccepted fact.source fact.declarationId language
  described : fact.descriptor ≠ ""
  visibility : fact.visibility ≠ ""
  markers : ∀ marker ∈ fact.markers, marker.marker = .constructor
  parameters : ∀ parameter ∈ fact.parameters, parameter.Readable
  injected : ∀ parameter ∈ fact.parameters, ∀ dependency ∈ parameter.injected,
    parameter.jvmType = value dependency

/-- `validateFunctionMarkers` and `declarationFact`. -/
structure DeclarationFact.Accepted (owner : OwnerFact) (fact : DeclarationFact) : Prop where
  identity : fact.declarationId = declarationIdentity owner.ownerClass fact.name fact.descriptor
  adapter : fact.adapterIdentity = Frontend.adapterIdentity sha256 fact.declarationId
  source : SourceAccepted fact.source fact.declarationId owner.language
  ownerId : fact.ownerDeclarationId = owner.declarationId
  ownerClass : fact.ownerClass = owner.ownerClass
  language : fact.language = owner.language
  named : fact.name ≠ ""
  described : fact.descriptor ≠ ""
  result : fact.result ≠ ""
  resultArguments : ∀ type ∈ fact.resultArguments, type.Readable
  visibility : fact.visibility = "public"
  markers : ∀ marker ∈ fact.markers, marker.marker ∈ [.exported, .internal, .async]
  reachable : ¬ (.exported ∈ fact.markers.map (·.marker) ∧ .internal ∈ fact.markers.map (·.marker))
  asynchronous : .async ∈ fact.markers.map (·.marker) →
    .exported ∈ fact.markers.map (·.marker) ∨ .internal ∈ fact.markers.map (·.marker)
  suspending : fact.suspend → fact.language = .kotlin ∧ .async ∈ fact.markers.map (·.marker)
  parameters : ∀ parameter ∈ fact.parameters, parameter.Readable ∧ parameter.injected = none

/-- `fieldFact` and `javaRecordFacts`. -/
structure FieldFact.Accepted (owner : OwnerFact) (fact : FieldFact) : Prop where
  identity : fact.declarationId = fieldIdentity owner.ownerClass fact.name
  accessor : fact.accessorIdentity = fieldAccessorIdentity sha256 fact.declarationId
  source : SourceAccepted fact.source fact.declarationId owner.language
  ownerId : fact.ownerDeclarationId = owner.declarationId
  named : fact.name ≠ ""
  type : fact.type.Readable
  visibility : fact.visibility = "public"
  markers : MarkerSetIs fact.markers [.exported]

/-- `classOwner`, `topLevelOwner` and `validateOwner`. -/
structure OwnerFact.Accepted (owner : OwnerFact) : Prop where
  identity : owner.declarationId = ownerIdentity owner.ownerClass
  source : SourceAccepted owner.source owner.declarationId owner.language
  classNamed : owner.ownerClass ≠ ""
  sourceNamed : owner.sourceName ≠ ""
  visibility : owner.visibility = "public"
  markers : MarkerSetIs owner.markers [] ∨ MarkerSetIs owner.markers [.object] ∨
    MarkerSetIs owner.markers [.value]
  kotlinForm : owner.form = .kotlinObject ∨ owner.form = .kotlinTopLevel → owner.language = .kotlin
  javaForm : owner.form = .javaStatic → owner.language = .java
  constructionFree : owner.form ≠ .class_ → owner.constructors = []
  constructors : ∀ constructor ∈ owner.constructors,
    constructor.Accepted sha256 owner.language owner.ownerClass
  declarations : ∀ declaration ∈ owner.declarations, declaration.Accepted sha256 owner
  fields : ∀ field ∈ owner.fields, field.Accepted sha256 owner
  enumConstants : ∀ name ∈ owner.enumConstants, name ≠ ""
  supertypes : ∀ name ∈ owner.supertypes, name ≠ ""

/-- `generateFeature`: the owners have their classes as keys. -/
structure FactsAccepted (owners : List OwnerFact) : Prop where
  distinct : (owners.map (·.ownerClass)).Nodup
  owners : ∀ owner ∈ owners, owner.Accepted sha256

end Accepted

/-! ### Markers -/

/-- No name occurs twice among the markers. -/
def MarkedOnce (markers : List MarkerOccurrence) : Prop :=
  (markers.map (·.marker)).Nodup

theorem eq_nil_of_set {markers : List MarkerOccurrence} (hset : MarkerSetIs markers []) :
    markers.map (·.marker) = [] :=
  List.eq_nil_iff_forall_not_mem.mpr fun name hname => List.not_mem_nil ((hset name).mp hname)

theorem eq_singleton_of_set {markers : List MarkerOccurrence} (honce : MarkedOnce markers)
    {name : SupernoteMarker} (hset : MarkerSetIs markers [name]) :
    markers.map (·.marker) = [name] :=
  List.perm_singleton.mp ((List.perm_ext_iff_of_nodup honce (List.nodup_singleton name)).mpr hset)

theorem postInit_of_markers {target : DeclarationTarget} {markers : List MarkerOccurrence}
    (honce : MarkedOnce markers)
    (hreachable : ¬ (.exported ∈ markers.map (·.marker) ∧ .internal ∈ markers.map (·.marker)))
    (hcheck : SourceIntent.Fields.checkTarget ⟨target, markers⟩ = .ok ()) :
    SourceIntent.Fields.postInit ⟨target, markers⟩ = .ok () := by
  have hnone : (SourceIntent.Fields.markers ⟨target, markers⟩).find?
      (fun marker => 1 < (SourceIntent.Fields.markers ⟨target, markers⟩).count marker) = none := by
    rw [List.find?_eq_none]
    intro name _ hcount
    have hle : (SourceIntent.Fields.markers ⟨target, markers⟩).count name ≤ 1 :=
      List.nodup_iff_count_le_one.mp honce name
    simp only [decide_eq_true_eq] at hcount
    omega
  simp only [SourceIntent.Fields.postInit, hnone, bind_eq_ok, require_eq_ok]
  exact ⟨(), hreachable, hcheck⟩

/-- The markers of an intent are distinct. -/
theorem markedOnce_of_intent (intent : SourceIntent) : MarkedOnce intent.occurrences := by
  have hvalid := intent.valid
  rw [MarkedOnce, List.nodup_iff_count_le_one]
  intro name
  by_contra hcount
  cases hfind : intent.markers.find? fun marker => 1 < intent.markers.count marker with
  | some duplicate => simp [SourceIntent.Fields.postInit, hfind] at hvalid
  | none =>
      have hmem : name ∈ intent.markers := List.count_pos_iff.mp (by
        rw [SourceIntent.Fields.markers]
        omega)
      have hle := List.find?_eq_none.mp hfind name hmem
      simp only [decide_eq_true_eq] at hle
      exact hle (not_le.mp hcount)

theorem constructor_intent {markers : List MarkerOccurrence} (honce : MarkedOnce markers)
    (hmarkers : ∀ marker ∈ markers, marker.marker = .constructor) :
    SourceIntent.Fields.postInit ⟨.constructor, markers⟩ = .ok () := by
  have hnames : ∀ name ∈ markers.map (·.marker), name = .constructor := by
    simpa using hmarkers
  apply postInit_of_markers honce
  · rintro ⟨hexported, _⟩
    cases hnames _ hexported
  · simpa [SourceIntent.Fields.checkTarget, SourceIntent.Fields.markers] using hmarkers

theorem field_intent {markers : List MarkerOccurrence} (honce : MarkedOnce markers)
    (hmarkers : MarkerSetIs markers [.exported]) :
    SourceIntent.Fields.postInit ⟨.field, markers⟩ = .ok () := by
  have hnames := eq_singleton_of_set honce hmarkers
  apply postInit_of_markers honce
  · simp [hnames]
  · simp [SourceIntent.Fields.checkTarget, SourceIntent.Fields.markers, hnames]

theorem class_intent {markers : List MarkerOccurrence} (honce : MarkedOnce markers)
    (hmarkers : MarkerSetIs markers [] ∨ MarkerSetIs markers [.object] ∨
      MarkerSetIs markers [.value]) :
    SourceIntent.Fields.postInit ⟨.class_, markers⟩ = .ok () := by
  have hnames : markers.map (·.marker) = [] ∨ markers.map (·.marker) = [.object] ∨
      markers.map (·.marker) = [.value] :=
    hmarkers.imp eq_nil_of_set
      (Or.imp (eq_singleton_of_set honce) (eq_singleton_of_set honce))
  apply postInit_of_markers honce
  · rcases hnames with hnames | hnames | hnames <;> simp [hnames]
  · rcases hnames with hnames | hnames | hnames <;>
      simp [SourceIntent.Fields.checkTarget, SourceIntent.Fields.markers, hnames]

theorem callable_intent {target : DeclarationTarget} {markers : List MarkerOccurrence}
    (htarget : target = .function ∨ target = .method) (honce : MarkedOnce markers)
    (hmarkers : ∀ marker ∈ markers, marker.marker ∈ [.exported, .internal, .async])
    (hreachable : ¬ (.exported ∈ markers.map (·.marker) ∧ .internal ∈ markers.map (·.marker)))
    (hasync : .async ∈ markers.map (·.marker) →
      .exported ∈ markers.map (·.marker) ∨ .internal ∈ markers.map (·.marker)) :
    SourceIntent.Fields.postInit ⟨target, markers⟩ = .ok () := by
  have hnames : ∀ name ∈ markers.map (·.marker), name ∈ [.exported, .internal, .async] := by
    simpa using hmarkers
  have hno : ∀ name : SupernoteMarker, name ∉ [.exported, .internal, .async] →
      name ∉ markers.map (·.marker) := fun name hother hmem => hother (hnames name hmem)
  have hsome : markers.map (·.marker) ≠ [] →
      .exported ∈ markers.map (·.marker) ∨ .internal ∈ markers.map (·.marker) := by
    intro hnonempty
    obtain ⟨name, hname⟩ := List.exists_mem_of_ne_nil _ hnonempty
    have hcases := hnames name hname
    simp only [List.mem_cons, List.not_mem_nil, or_false] at hcases
    rcases hcases with rfl | rfl | rfl
    · exact .inl hname
    · exact .inr hname
    · exact hasync hname
  apply postInit_of_markers honce hreachable
  rcases htarget with rfl | rfl <;>
    simp only [SourceIntent.Fields.checkTarget, bind_eq_ok, require_eq_ok, exists_unit] <;>
    exact ⟨hno .constructor (by decide), ⟨hno .object (by decide), hno .value (by decide)⟩, hasync,
      hsome⟩

/-- No declaration of the owner carries a marker twice. -/
structure OwnerFact.MarkedOnce (owner : OwnerFact) : Prop where
  own : Frontend.MarkedOnce owner.markers
  constructors : ∀ constructor ∈ owner.constructors, Frontend.MarkedOnce constructor.markers
  declarations : ∀ declaration ∈ owner.declarations, Frontend.MarkedOnce declaration.markers
  fields : ∀ field ∈ owner.fields, Frontend.MarkedOnce field.markers

/-! ### Accepted facts are facts of records -/

section Records

variable {sha256 : List UInt8 → String}

theorem adapterIdentity_ne_empty (id : String) : adapterIdentity sha256 id ≠ "" := by
  intro hempty
  exact absurd (String.append_eq_empty_iff.mp hempty).1 (by decide)

theorem exists_constructor {language : JvmLanguage} {ownerClass : String} {fact : ConstructorFact}
    (haccepted : fact.Accepted sha256 language ownerClass) (honce : MarkedOnce fact.markers) :
    ∃ source : JvmConstructorSource, source.fact = fact ∧ source.Readable sha256 ownerClass ∧
      source.provenance.language = value language ∧
      ∀ parameter ∈ source.parameters, ∀ dependency ∈ parameter.injected,
        parameter.jvmType = value dependency := by
  let source : JvmConstructorSource :=
    { provenance := fact.source
      jvmDescriptor := fact.descriptor
      parameters := fact.parameters
      visibility := fact.visibility
      intent := ⟨⟨.constructor, fact.markers⟩, constructor_intent honce haccepted.markers⟩
      adapterIdentity := fact.adapterIdentity
      target := rfl
      adapted := haccepted.adapter ▸ adapterIdentity_ne_empty _ }
  have hfact : source.fact = fact := by
    calc source.fact = { fact with declarationId := fact.source.declarationId } := rfl
      _ = fact := by rw [haccepted.source.identity]
  exact ⟨source, hfact, ⟨haccepted.described, haccepted.visibility, haccepted.parameters,
    haccepted.source.identity.trans haccepted.identity,
    haccepted.adapter.trans (congrArg (adapterIdentity sha256) haccepted.identity)⟩,
    haccepted.source.language, haccepted.injected⟩

theorem exists_declaration {owner : OwnerFact} {target : DeclarationTarget}
    (htarget : target = .function ∨ target = .method) {fact : DeclarationFact}
    (haccepted : fact.Accepted sha256 owner) (hclass : owner.declarationId ≠ "")
    (honce : MarkedOnce fact.markers) :
    ∃ source : JvmDeclarationSource, source.fact = fact ∧
      source.Readable sha256 owner.ownerClass target ∧
      source.ownerDeclarationId = owner.declarationId ∧ source.ownerClass = owner.ownerClass ∧
      source.language = owner.language := by
  let source : JvmDeclarationSource :=
    { provenance := fact.source
      ownerDeclarationId := fact.ownerDeclarationId
      ownerClass := fact.ownerClass
      jvmName := fact.name
      jvmDescriptor := fact.descriptor
      parameters := fact.parameters
      resultJvmType := fact.result
      resultNullable := fact.resultNullable
      intent := ⟨⟨target, fact.markers⟩, callable_intent htarget honce haccepted.markers
        haccepted.reachable haccepted.asynchronous⟩
      visibility := fact.visibility
      adapterIdentity := fact.adapterIdentity
      language := fact.language
      isSuspend := fact.suspend
      isStatic := fact.isStatic
      resultTypeArguments := fact.resultArguments
      target := htarget
      adapted := ⟨haccepted.ownerId ▸ hclass, haccepted.adapter ▸ adapterIdentity_ne_empty _⟩
      suspending := fun hsuspend =>
        ⟨(haccepted.suspending hsuspend).1, if_pos (haccepted.suspending hsuspend).2⟩
      notInjected := fun parameter hparameter => (haccepted.parameters parameter hparameter).2 }
  have hfact : source.fact = fact := by
    calc source.fact = { fact with declarationId := fact.source.declarationId } := rfl
      _ = fact := by rw [haccepted.source.identity]
  have hvisible : fact.visibility ≠ "" := by
    rw [haccepted.visibility]
    decide
  exact ⟨source, hfact, ⟨rfl, haccepted.named, haccepted.described, haccepted.result, hvisible,
    fun parameter hparameter => (haccepted.parameters parameter hparameter).1,
    haccepted.resultArguments, haccepted.source.identity.trans haccepted.identity,
    haccepted.adapter.trans (congrArg (adapterIdentity sha256) haccepted.identity)⟩,
    haccepted.ownerId, haccepted.ownerClass, haccepted.language⟩

theorem fieldAccessorIdentity_ne_empty (id : String) : fieldAccessorIdentity sha256 id ≠ "" := by
  intro hempty
  exact absurd (String.append_eq_empty_iff.mp hempty).1 (by decide)

theorem exists_field {owner : OwnerFact} {fact : FieldFact}
    (haccepted : fact.Accepted sha256 owner) (hclass : owner.declarationId ≠ "")
    (honce : MarkedOnce fact.markers) :
    ∃ source : JvmFieldSource, source.fact = fact ∧ source.Readable ∧
      source.ownerDeclarationId = owner.declarationId ∧
      source.provenance.language = value owner.language ∧
      source.provenance.declarationId = jvmFieldIdentity owner.ownerClass source.name ∧
      source.accessorIdentity = jvmFieldAccessorIdentity sha256
        (jvmFieldIdentity owner.ownerClass source.name) := by
  let source : JvmFieldSource :=
    { provenance := fact.source
      ownerDeclarationId := fact.ownerDeclarationId
      name := fact.name
      type := fact.type
      intent := ⟨⟨.field, fact.markers⟩, field_intent honce haccepted.markers⟩
      visibility := fact.visibility
      mutable := fact.mutable
      isStatic := fact.isStatic
      accessorIdentity := fact.accessorIdentity
      target := rfl
      owned := haccepted.ownerId ▸ hclass }
  have hfact : source.fact = fact := by
    calc source.fact = { fact with declarationId := fact.source.declarationId } := rfl
      _ = fact := by rw [haccepted.source.identity]
  have hvisible : fact.visibility ≠ "" := by
    rw [haccepted.visibility]
    decide
  have haccessor : fact.accessorIdentity ≠ "" := by
    rw [haccepted.accessor]
    exact fieldAccessorIdentity_ne_empty _
  exact ⟨source, hfact, ⟨haccepted.named, haccepted.type, hvisible, haccessor⟩, haccepted.ownerId,
    haccepted.source.language, haccepted.source.identity.trans haccepted.identity,
    haccepted.accessor.trans (congrArg (fieldAccessorIdentity sha256) haccepted.identity)⟩

theorem mem_sortedByText {Item : Type} {key : Item → String} {items : List Item} {item : Item} :
    item ∈ sortedByText key items ↔ item ∈ items :=
  (List.perm_insertionSort _ items).mem_iff

theorem validateOwner_of_readable {owner : JvmOwnerSource} (hreadable : owner.Readable sha256)
    (hfields : ∀ field ∈ owner.fields,
      field.provenance.declarationId = jvmFieldIdentity owner.ownerClass field.name ∧
        field.accessorIdentity = jvmFieldAccessorIdentity sha256
          (jvmFieldIdentity owner.ownerClass field.name)) :
    JvmSourceManifest.validateOwner sha256 owner = .ok () := by
  simp only [JvmSourceManifest.validateOwner, JvmSourceManifest.validateIdentity, bind_eq_ok,
    require_eq_ok, checkEach_eq_ok, exists_unit]
  refine ⟨hreadable.identity, ?_, ?_, hfields⟩
  · intro constructor hmem
    exact ⟨(hreadable.constructors constructor hmem).identity,
      (hreadable.constructors constructor hmem).adapter⟩
  · intro declaration hmem
    exact ⟨(hreadable.declarations declaration hmem).identity,
      (hreadable.declarations declaration hmem).adapter⟩

/-- **An accepted owner without repeated markers is read back as the facts that were written.** -/
theorem exists_owner {fact : OwnerFact} (haccepted : fact.Accepted sha256)
    (honce : fact.MarkedOnce) :
    ∃ source : JvmOwnerSource, source.fact = fact.written ∧ source.Readable sha256 ∧
      JvmSourceManifest.validateOwner sha256 source = .ok () := by
  have hclass : fact.declarationId ≠ "" := by
    rw [haccepted.identity]
    intro hempty
    exact absurd (String.append_eq_empty_iff.mp hempty).1 (by decide)
  let intent : SourceIntent := ⟨⟨.class_, fact.markers⟩, class_intent honce.own haccepted.markers⟩
  -- Each kind of member is read back, in the order in which it was written.
  obtain ⟨constructors, hconstructorFacts, hconstructors⟩ :=
    @exists_shown _ _ fact.written.constructors _ _ fun constructor hmem =>
      exists_constructor (haccepted.constructors constructor (mem_sortedByText.mp hmem))
        (honce.constructors constructor (mem_sortedByText.mp hmem))
  obtain ⟨declarations, hdeclarationFacts, hdeclarations⟩ :=
    @exists_shown _ _ fact.written.declarations _ _ fun declaration hmem =>
      exists_declaration (memberTarget_callable intent)
        (haccepted.declarations declaration (mem_sortedByText.mp hmem)) hclass
        (honce.declarations declaration (mem_sortedByText.mp hmem))
  obtain ⟨fields, hfieldFacts, hfields⟩ := exists_shown fun field hfield =>
    exists_field (haccepted.fields field hfield) hclass (honce.fields field hfield)
  have hidentity := haccepted.source.identity
  let source : JvmOwnerSource :=
    { provenance := fact.source
      language := fact.language
      ownerClass := fact.ownerClass
      sourceName := fact.sourceName
      form := fact.form
      intent := intent
      constructors := constructors
      declarations := declarations
      visibility := fact.visibility
      fields := fields
      enumConstants := fact.enumConstants
      isData := fact.isData
      isRecord := fact.isRecord
      isFinal := fact.isFinal
      typeParameterCount := fact.typeParameterCount
      supertypes := fact.supertypes
      target := rfl
      kotlinForm := haccepted.kotlinForm
      javaForm := haccepted.javaForm
      constructionFree := fun hform => by
        have hnone : fact.written.constructors = [] :=
          congrArg (sortedByText _) (haccepted.constructionFree hform)
        exact List.map_eq_nil_iff.mp (hconstructorFacts.trans hnone)
      ownConstructors := fun constructor hmem => (hconstructors constructor hmem).2
      ownDeclarations := fun declaration hmem => by
        rw [hidentity]
        exact (hdeclarations declaration hmem).2
      ownFields := fun field hmem => by
        rw [hidentity]
        exact ⟨(hfields field hmem).2.1, (hfields field hmem).2.2.1⟩ }
  have hfact : source.fact = fact.written := by
    calc source.fact
        = { fact with
            declarationId := fact.source.declarationId
            constructors := constructors.map JvmConstructorSource.fact
            declarations := declarations.map JvmDeclarationSource.fact
            fields := fields.map JvmFieldSource.fact } := rfl
      _ = fact.written := by
        rw [hconstructorFacts, hdeclarationFacts, hfieldFacts, hidentity]
        rfl
  have hvisible : fact.visibility ≠ "" := by
    rw [haccepted.visibility]
    decide
  have hreadable : source.Readable sha256 :=
    ⟨haccepted.classNamed, haccepted.sourceNamed, hvisible, hidentity.trans haccepted.identity,
      haccepted.source.language, fun constructor hmem => (hconstructors constructor hmem).1,
      fun declaration hmem => (hdeclarations declaration hmem).1,
      fun field hmem => (hfields field hmem).1, haccepted.enumConstants, haccepted.supertypes⟩
  exact ⟨source, hfact, hreadable,
    validateOwner_of_readable hreadable fun field hmem => (hfields field hmem).2.2.2⟩

end Records

/-! ### Texts -/

def sourceTexts (source : SourceProvenance) : List String :=
  [source.declarationId, source.language, source.path]

mutual

def typeTexts : JvmTypeSource → List String
  | .mk jvmType _ arguments => jvmType :: typesTexts arguments

def typesTexts : List JvmTypeSource → List String
  | [] => []
  | type :: types => typeTexts type ++ typesTexts types

end

def parameterTexts (parameter : JvmParameterSource) : List String :=
  parameter.jvmType :: parameter.name :: typesTexts parameter.typeArguments

def ConstructorFact.texts (fact : ConstructorFact) : List String :=
  sourceTexts fact.source ++ [fact.descriptor, fact.visibility, fact.adapterIdentity] ++
    fact.parameters.flatMap parameterTexts

def DeclarationFact.texts (fact : DeclarationFact) : List String :=
  sourceTexts fact.source ++
    [fact.ownerDeclarationId, fact.ownerClass, fact.name, fact.descriptor, fact.result,
      fact.visibility, fact.adapterIdentity] ++
    fact.parameters.flatMap parameterTexts ++ typesTexts fact.resultArguments

def FieldFact.texts (fact : FieldFact) : List String :=
  sourceTexts fact.source ++
    [fact.ownerDeclarationId, fact.name, fact.visibility, fact.accessorIdentity] ++
    typeTexts fact.type

/-- The texts of an owner and of its members. -/
def OwnerFact.texts (fact : OwnerFact) : List String :=
  sourceTexts fact.source ++ [fact.ownerClass, fact.sourceName, fact.visibility] ++
    fact.constructors.flatMap ConstructorFact.texts ++
    fact.declarations.flatMap DeclarationFact.texts ++ fact.fields.flatMap FieldFact.texts ++
    fact.enumConstants ++ fact.supertypes

def manifestTexts (root : FeatureRoot) (owners : List OwnerFact) : List String :=
  root.featureId :: root.generatorVersion :: owners.flatMap OwnerFact.texts

/-- No text has a control character other than a tab or a line break. -/
def PlainTexts (texts : List String) : Prop :=
  ∀ text ∈ texts, ∀ char ∈ text.toList, ProcessorJson.plain char = true

section Plain

open ProcessorJson (plain)

theorem plainTexts_append {lefts rights : List String} :
    PlainTexts (lefts ++ rights) ↔ PlainTexts lefts ∧ PlainTexts rights := by
  simp only [PlainTexts, List.forall_mem_append]

theorem plainTexts_cons {text : String} {texts : List String} :
    PlainTexts (text :: texts) ↔ text.toList.all plain = true ∧ PlainTexts texts := by
  simp only [PlainTexts, List.forall_mem_cons, List.all_eq_true]

theorem plainTexts_iff_all {texts : List String} :
    PlainTexts texts ↔ (texts.all fun text => text.toList.all plain) = true := by
  simp only [PlainTexts, List.all_eq_true]

theorem plainTexts_nil : PlainTexts [] := by
  intro text htext
  cases htext

theorem plainTexts_flatMap {Item : Type} {texts : Item → List String} {items : List Item} :
    PlainTexts (items.flatMap texts) ↔ ∀ item ∈ items, PlainTexts (texts item) := by
  simp only [PlainTexts, List.mem_flatMap]
  constructor
  · intro hall item hitem text htext
    exact hall text ⟨item, hitem, htext⟩
  · rintro hall text ⟨item, hitem, htext⟩
    exact hall item hitem text htext

theorem allLegibleItems_map {Item : Type} {encode : Item → Json} {items : List Item} :
    allLegibleItems plain (items.map encode) = true ↔
      ∀ item ∈ items, allLegible plain (encode item) = true := by
  induction items with
  | nil => simp [allLegibleItems]
  | cons item items ih =>
      rw [List.map_cons, allLegibleItems, Bool.and_eq_true, List.forall_mem_cons, ih]

/-- A dictionary whose keys are plain is legible when its values are. -/
theorem allLegible_object {fields : Fields}
    (hkeys : ((Json.keys fields).all fun key => key.toList.all plain) = true) :
    allLegible plain (.object fields) = true ↔
      ∀ field ∈ fields, allLegible plain field.2 = true := by
  rw [allLegible]
  induction fields with
  | nil => simp [allLegibleFields]
  | cons field fields ih =>
      rw [Json.keys, List.map_cons, List.all_cons, Bool.and_eq_true] at hkeys
      rw [allLegibleFields, List.forall_mem_cons, hkeys.1, Bool.true_and, Bool.and_eq_true,
        ih hkeys.2]

theorem allLegible_source (source : SourceProvenance) :
    allLegible plain (sourceJson source) = true ↔ PlainTexts (sourceTexts source) := by
  rw [sourceJson, allLegible_object (by simp [Json.keys, plain])]
  simp [allLegible, sourceTexts, plainTexts_cons, plainTexts_nil]

theorem allLegible_marker (marker : MarkerOccurrence) :
    allLegible plain (markerJson marker) = true := by
  have hname : (value marker.marker).toList.all plain = true := by
    cases marker.marker <;> decide
  rw [markerJson, allLegible_object (by simp [Json.keys, plain])]
  simp only [List.forall_mem_cons, allLegible, hname]
  simp

theorem allLegible_markers (markers : List MarkerOccurrence) :
    allLegibleItems plain (markers.map markerJson) = true := by
  rw [allLegibleItems_map]
  exact fun marker _ => allLegible_marker marker

mutual

theorem allLegible_type : (type : JvmTypeSource) →
    (allLegible plain (typeJson type) = true ↔ PlainTexts (typeTexts type))
  | .mk jvmType nullable arguments => by
      rw [typeJson, allLegible_object (by simp [Json.keys, plain]), typeTexts, plainTexts_cons,
        ← allLegible_types arguments]
      simp [allLegible]

theorem allLegible_types : (types : List JvmTypeSource) →
    (allLegibleItems plain (typesJson types) = true ↔ PlainTexts (typesTexts types))
  | [] => by simp [typesJson, allLegibleItems, typesTexts, plainTexts_nil]
  | type :: types => by
      rw [typesJson, allLegibleItems, Bool.and_eq_true, allLegible_type type,
        allLegible_types types, typesTexts, plainTexts_append]

end

theorem allLegible_parameter (parameter : JvmParameterSource) :
    allLegible plain (parameterJson parameter) = true ↔ PlainTexts (parameterTexts parameter) := by
  rw [parameterJson, allLegible_object (by simp [Json.keys, plain]), parameterTexts,
    plainTexts_cons, plainTexts_cons, ← allLegible_types parameter.typeArguments]
  cases parameter.injected with
  | none => simp [allLegible]
  | some injected =>
      have hinjected : (value injected).toList.all plain = true := by
        cases injected <;> decide
      simp only [List.forall_mem_cons, allLegible, hinjected]
      simp

theorem allLegible_parameters (parameters : List JvmParameterSource) :
    allLegibleItems plain (parameters.map parameterJson) = true ↔
      PlainTexts (parameters.flatMap parameterTexts) := by
  rw [allLegibleItems_map, plainTexts_flatMap]
  exact forall₂_congr fun parameter _ => allLegible_parameter parameter

theorem allLegible_constructor (fact : ConstructorFact) :
    allLegible plain (constructorJson fact) = true ↔ PlainTexts fact.texts := by
  rw [constructorJson, allLegible_object (by simp [Json.keys, plain]), ConstructorFact.texts]
  simp only [List.forall_mem_cons, allLegible_source, allLegible, allLegible_parameters,
    allLegible_markers, plainTexts_append, plainTexts_cons]
  simp [and_left_comm, and_comm, plainTexts_nil]

theorem allLegible_declaration (fact : DeclarationFact) :
    allLegible plain (declarationJson fact) = true ↔ PlainTexts fact.texts := by
  have hlanguage : (value fact.language).toList.all plain = true := by
    cases fact.language <;> decide
  rw [declarationJson, allLegible_object (by simp [Json.keys, plain]), DeclarationFact.texts]
  simp only [List.forall_mem_cons, allLegible_source, allLegible, allLegible_parameters,
    allLegible_markers, allLegible_types, hlanguage, plainTexts_append, plainTexts_cons]
  simp [and_left_comm, and_comm, plainTexts_nil]

theorem allLegible_field (fact : FieldFact) :
    allLegible plain (fieldJson fact) = true ↔ PlainTexts fact.texts := by
  rw [fieldJson, allLegible_object (by simp [Json.keys, plain]), FieldFact.texts]
  simp only [List.forall_mem_cons, allLegible_source, allLegible, allLegible_type,
    allLegible_markers, plainTexts_append, plainTexts_cons]
  simp [and_left_comm, and_comm, plainTexts_nil]

theorem allLegible_strings (names : List String) :
    allLegibleItems plain (names.map .string) = true ↔ PlainTexts names := by
  rw [allLegibleItems_map]
  simp [allLegible, PlainTexts]

/-- The order in which members are written does not matter. -/
theorem allLegible_members {Item : Type} {key : Item → String} {encode : Item → Json}
    {texts : Item → List String} {items : List Item}
    (hencode : ∀ item, allLegible plain (encode item) = true ↔ PlainTexts (texts item)) :
    allLegibleItems plain ((sortedByText key items).map encode) = true ↔
      PlainTexts (items.flatMap texts) := by
  rw [allLegibleItems_map, plainTexts_flatMap]
  exact forall_congr' fun item => imp_congr mem_sortedByText (hencode item)

theorem allLegible_owner (fact : OwnerFact) :
    allLegible plain (ownerJson fact) = true ↔ PlainTexts fact.texts := by
  have hlanguage : (value fact.language).toList.all plain = true := by
    cases fact.language <;> decide
  have hform : (value fact.form).toList.all plain = true := by
    cases fact.form <;> decide
  have hfields : allLegibleItems plain (fact.fields.map fieldJson) = true ↔
      PlainTexts (fact.fields.flatMap FieldFact.texts) := by
    rw [allLegibleItems_map, plainTexts_flatMap]
    exact forall₂_congr fun field _ => allLegible_field field
  rw [ownerJson, allLegible_object (by simp [Json.keys, plain]), OwnerFact.texts]
  simp only [List.forall_mem_cons, allLegible_source, allLegible, allLegible_markers, hlanguage,
    hform, allLegible_members allLegible_constructor, allLegible_members allLegible_declaration,
    hfields, allLegible_strings, plainTexts_append, plainTexts_cons]
  simp [and_assoc, and_left_comm, and_comm, plainTexts_nil]

/-- **A manifest can be read exactly when its texts are plain.** -/
theorem allLegible_manifest (root : FeatureRoot) (owners : List OwnerFact) :
    allLegible plain (manifestFields root owners) = true ↔
      PlainTexts (manifestTexts root owners) := by
  have howners : allLegibleItems plain (owners.map ownerJson) = true ↔
      PlainTexts (owners.flatMap OwnerFact.texts) := by
    rw [allLegibleItems_map, plainTexts_flatMap]
    exact forall₂_congr fun owner _ => allLegible_owner owner
  have hversion : jvmManifestSchemaVersion.toList.all plain = true := by decide
  have hkind : jvmManifestKind.toList.all plain = true := by decide
  rw [manifestFields, allLegible_object (by simp [Json.keys, plain]), manifestTexts]
  simp only [List.forall_mem_cons, allLegible, hversion, hkind, howners, plainTexts_cons]
  simp

end Plain

/-! ### The text that is written -/

/-- What is written for an owner whose members stand in the order in which they are written. -/
def OwnerFact.inOrder (owner : OwnerFact) : Json :=
  .object [("source", sourceJson owner.source), ("language", .string (value owner.language)),
    ("owner_class", .string owner.ownerClass), ("source_name", .string owner.sourceName),
    ("form", .string (value owner.form)), ("visibility", .string owner.visibility),
    ("markers", .array (owner.markers.map markerJson)),
    ("constructors", .array (owner.constructors.map constructorJson)),
    ("declarations", .array (owner.declarations.map declarationJson)),
    ("fields", .array (owner.fields.map fieldJson)),
    ("enum_constants", .array (owner.enumConstants.map .string)),
    ("is_data", .bool owner.isData), ("is_record", .bool owner.isRecord),
    ("is_final", .bool owner.isFinal),
    ("type_parameter_count", .integer owner.typeParameterCount),
    ("supertypes", .array (owner.supertypes.map .string))]

theorem inOrder_fact (source : JvmOwnerSource) : source.fact.inOrder = source.inOrder := by
  have hconstructors : (source.constructors.map JvmConstructorSource.fact).map constructorJson =
      source.constructors.map JvmConstructorSource.manifest := by
    rw [List.map_map]
    exact List.map_congr_left fun constructor _ => constructorJson_fact constructor
  have hdeclarations : (source.declarations.map JvmDeclarationSource.fact).map declarationJson =
      source.declarations.map JvmDeclarationSource.manifest := by
    rw [List.map_map]
    exact List.map_congr_left fun declaration _ => declarationJson_fact declaration
  have hfields : (source.fields.map JvmFieldSource.fact).map fieldJson =
      source.fields.map JvmFieldSource.manifest := by
    rw [List.map_map]
    exact List.map_congr_left fun field _ => fieldJson_fact field
  rw [OwnerFact.inOrder, JvmOwnerSource.inOrder, JvmOwnerSource.fact, hconstructors, hdeclarations,
    hfields]
  rfl

theorem ownerJson_eq {source : JvmOwnerSource} {owner : OwnerFact}
    (hfact : source.fact = owner.written) : ownerJson owner = source.inOrder := by
  calc ownerJson owner = owner.written.inOrder := rfl
    _ = source.fact.inOrder := by rw [hfact]
    _ = source.inOrder := inOrder_fact source

mutual

theorem sound_type : (type : JvmTypeSource) → Sound (typeJson type)
  | .mk jvmType nullable arguments => by
      rw [typeJson]
      exact ⟨by simp, trivial, trivial, sound_types arguments, trivial⟩

theorem sound_types : (types : List JvmTypeSource) → SoundItems (typesJson types)
  | [] => trivial
  | type :: types => ⟨sound_type type, sound_types types⟩

end

theorem sound_source (source : SourceProvenance) : Sound (sourceJson source) :=
  ⟨by simp, trivial, trivial, trivial, trivial, trivial, trivial⟩

theorem sound_markers (markers : List MarkerOccurrence) : SoundItems (markers.map markerJson) := by
  apply Json.soundItems_map
  intro marker
  exact ⟨by simp, trivial, trivial, trivial, trivial⟩

theorem sound_parameters (parameters : List JvmParameterSource) :
    SoundItems (parameters.map parameterJson) := by
  apply Json.soundItems_map
  intro parameter
  rw [parameterJson_eq]
  exact parameter.sound_manifest

theorem sound_constructor (fact : ConstructorFact) : Sound (constructorJson fact) :=
  ⟨by simp, sound_source _, trivial, sound_parameters _, trivial, sound_markers _, trivial, trivial⟩

theorem sound_declaration (fact : DeclarationFact) : Sound (declarationJson fact) :=
  ⟨by simp, sound_source _, trivial, trivial, trivial, trivial, sound_parameters _, trivial,
  trivial, sound_markers _, trivial, trivial, trivial, trivial, trivial, sound_types _, trivial⟩

theorem sound_field (fact : FieldFact) : Sound (fieldJson fact) :=
  ⟨by simp, sound_source _, trivial, trivial, sound_type _, sound_markers _, trivial, trivial,
    trivial, trivial, trivial⟩

theorem sound_owner (fact : OwnerFact) : Sound (ownerJson fact) :=
  ⟨by simp, sound_source _, trivial, trivial, trivial, trivial, trivial, sound_markers _,
    Json.soundItems_map sound_constructor _, Json.soundItems_map sound_declaration _,
    Json.soundItems_map sound_field _, sound_strings _, trivial, trivial, trivial, trivial,
    sound_strings _, trivial⟩

theorem sound_manifestFields (root : FeatureRoot) (owners : List OwnerFact) :
    Sound (manifestFields root owners) :=
  ⟨by simp, trivial, trivial, trivial, trivial, Json.soundItems_map sound_owner _, trivial⟩

theorem loads_manifestJson (parseFloat : List Char → Json) (root : FeatureRoot)
    (owners : List OwnerFact) :
    Json.loads parseFloat (manifestJson root owners).toList =
      if allLegible ProcessorJson.plain (manifestFields root owners) then
        some (manifestFields root owners) else none := by
  rw [manifestJson, String.toList_ofList, ProcessorJson.json_eq 0]
  exact Json.loads_write parseFloat ProcessorJson.layout ProcessorJson.legibility
    (sound_manifestFields root owners) (List.forall_mem_singleton.mpr rfl)

/-! ### The facts read back -/

section RoundTrip

variable (sha256 : List UInt8 → String) (parseFloat : List Char → Json) (path : String)

/-- What is written is accepted, and what is read carries the facts of what was written. -/
def RoundTrips (root : FeatureRoot) (owners : List OwnerFact) : Prop :=
  ∃ manifest : JvmSourceManifest sha256,
    readJvmManifest sha256 parseFloat path (utf8 (manifestJson root owners)) (some root.featureId) =
        .ok manifest ∧
      manifest.featureId = root.featureId ∧ manifest.frontendVersion = root.generatorVersion ∧
      manifest.owners.map JvmOwnerSource.fact = owners.map OwnerFact.written

variable {sha256 parseFloat path} {root : FeatureRoot} {owners : List OwnerFact}

theorem plainTexts_of_roundTrips (hround : RoundTrips sha256 parseFloat path root owners) :
    PlainTexts (manifestTexts root owners) := by
  obtain ⟨manifest, hread, _⟩ := hround
  simp only [readJvmManifest, decodeUtf8_utf8, bind_eq_ok, demand_eq_ok] at hread
  obtain ⟨text, htext, raw, hloads, _⟩ := hread
  rw [← Option.some.inj htext, loads_manifestJson] at hloads
  by_contra hplain
  rw [if_neg (by rwa [allLegible_manifest])] at hloads
  cases hloads

theorem markedOnce_fact (source : JvmOwnerSource) : source.fact.MarkedOnce where
  own := markedOnce_of_intent source.intent
  constructors := by
    intro constructor hconstructor
    obtain ⟨found, _, rfl⟩ := List.mem_map.mp hconstructor
    exact markedOnce_of_intent found.intent
  declarations := by
    intro declaration hdeclaration
    obtain ⟨found, _, rfl⟩ := List.mem_map.mp hdeclaration
    exact markedOnce_of_intent found.intent
  fields := by
    intro field hfield
    obtain ⟨found, _, rfl⟩ := List.mem_map.mp hfield
    exact markedOnce_of_intent found.intent

theorem markedOnce_of_written {owner : OwnerFact} (honce : owner.written.MarkedOnce) :
    owner.MarkedOnce where
  own := honce.own
  constructors constructor hconstructor :=
    honce.constructors constructor (mem_sortedByText.mpr hconstructor)
  declarations declaration hdeclaration :=
    honce.declarations declaration (mem_sortedByText.mpr hdeclaration)
  fields := honce.fields

theorem markedOnce_of_roundTrips (hround : RoundTrips sha256 parseFloat path root owners) :
    ∀ owner ∈ owners, owner.MarkedOnce := by
  obtain ⟨manifest, _, _, _, hfacts⟩ := hround
  intro owner howner
  have hwritten : owner.written ∈ manifest.owners.map JvmOwnerSource.fact := by
    rw [hfacts]
    exact List.mem_map_of_mem howner
  obtain ⟨source, _, hsource⟩ := List.mem_map.mp hwritten
  apply markedOnce_of_written
  rw [← hsource]
  exact markedOnce_fact source

theorem ownerIdentity_injective {left right : String}
    (hsame : ownerIdentity left = ownerIdentity right) : left = right := by
  have hchars := congrArg String.toList hsame
  simp only [ownerIdentity, toString, String.toList_append, List.append_cancel_left_eq] at hchars
  exact String.toList_injective hchars

/-- **What the processor accepts is read back as the same facts exactly when its texts are free of
the control characters that the processor writes as they are and no marker is repeated.** -/
theorem roundTrips_iff (haccepted : FactsAccepted sha256 owners) :
    RoundTrips sha256 parseFloat path root owners ↔
      PlainTexts (manifestTexts root owners) ∧ ∀ owner ∈ owners, owner.MarkedOnce := by
  constructor
  · intro hround
    exact ⟨plainTexts_of_roundTrips hround, markedOnce_of_roundTrips hround⟩
  · rintro ⟨hplain, honce⟩
    obtain ⟨sources, hsources⟩ := exists_related fun owner howner =>
      exists_owner (haccepted.owners owner howner) (honce owner howner)
    have hfacts : sources.map JvmOwnerSource.fact = owners.map OwnerFact.written :=
      map_eq_of_related hsources fun _ _ hfound => hfound.1
    have hfound : ∀ source ∈ sources, source.Readable sha256 ∧
        JvmSourceManifest.validateOwner sha256 source = .ok () := by
      intro source hsource
      obtain ⟨_, _, _, hfound⟩ := exists_item_of_mem hsources hsource
      exact hfound
    have hdistinct : (sources.map (·.provenance.declarationId)).Nodup := by
      have hids : sources.map (·.provenance.declarationId) =
          owners.map fun owner => ownerIdentity owner.ownerClass :=
        map_eq_of_related hsources fun owner source hrelated => by
          rw [hrelated.2.1.identity]
          exact congrArg (fun fact => ownerIdentity fact.ownerClass) hrelated.1
      rw [hids, ← Function.comp_def ownerIdentity, ← List.map_map]
      exact haccepted.distinct.map fun _ _ => ownerIdentity_injective
    let manifest : JvmSourceManifest sha256 :=
      { featureId := root.featureId
        frontendVersion := root.generatorVersion
        owners := sources
        valid := JvmSourceManifest.Fields.postInit_eq_ok.mpr
          ⟨rfl, root.featurePrefix, root.versioned, hdistinct,
            fun source hsource => (hfound source hsource).2⟩ }
    have hwritten : manifestFields root owners = manifest.inOrder := by
      have howners : sources.map JvmOwnerSource.inOrder = owners.map ownerJson :=
        map_eq_of_related hsources fun _ _ hrelated => (ownerJson_eq hrelated.1).symm
      rw [manifestFields, ← howners]
      rfl
    have hparsed : parseManifest sha256 manifest.inOrder (some root.featureId) = .ok manifest := by
      apply JvmSourceManifest.parseManifest_inOrder fun source hsource => (hfound source hsource).1
      intro expected hexpected
      exact Option.some.inj hexpected
    refine ⟨manifest, ?_, rfl, rfl, hfacts⟩
    rw [readJvmManifest, decodeUtf8_utf8]
    simp only [bind_eq_ok, demand_eq_ok]
    refine ⟨_, rfl, manifest.inOrder, ?_, ?_⟩
    · rw [loads_manifestJson, if_pos ((allLegible_manifest root owners).mpr hplain), hwritten]
    · exact mapError_eq_ok.mpr hparsed

end RoundTrip

/-! A Kotlin file with one exported function. -/

def storeRoot : FeatureRoot where
  featureId := "supernote:feature:demo"
  generatorVersion := "1.0.0"
  featurePrefix := by decide
  versioned := by decide

def storeSource (declarationId : String) (hid : declarationId ≠ "") : SourceProvenance where
  declarationId := declarationId
  language := "kotlin"
  path := "Store.kt"
  line := 3
  valid := by
    simp only [SourceProvenance.Fields.postInit, bind_eq_ok, require_eq_ok, exists_unit]
    exact ⟨hid, by decide⟩

def storeFunction (sha256 : List UInt8 → String) (name : String) : DeclarationFact where
  declarationId := declarationIdentity "demo.StoreKt" name "()V"
  ownerDeclarationId := ownerIdentity "demo.StoreKt"
  ownerClass := "demo.StoreKt"
  name := name
  descriptor := "()V"
  parameters := []
  result := "kotlin.Unit"
  resultNullable := false
  markers := [{ marker := .exported, line := 2, column := 1, positive := by decide }]
  visibility := "public"
  adapterIdentity := adapterIdentity sha256 (declarationIdentity "demo.StoreKt" name "()V")
  language := .kotlin
  suspend := false
  isStatic := true
  source := storeSource (declarationIdentity "demo.StoreKt" name "()V")
    (fun hempty => absurd (String.append_eq_empty_iff.mp hempty).2 (by decide))
  resultArguments := []

def storeFile (sha256 : List UInt8 → String) (name : String) : OwnerFact where
  declarationId := ownerIdentity "demo.StoreKt"
  language := .kotlin
  ownerClass := "demo.StoreKt"
  sourceName := "StoreKt"
  form := .kotlinTopLevel
  visibility := "public"
  markers := []
  source := storeSource (ownerIdentity "demo.StoreKt") (by decide)
  constructors := []
  declarations := [storeFunction sha256 name]
  fields := []
  enumConstants := []
  isData := false
  isRecord := false
  isFinal := false
  typeParameterCount := 0
  supertypes := []

theorem storeFile_accepted (sha256 : List UInt8 → String) {name : String} (hname : name ≠ "") :
    FactsAccepted sha256 [storeFile sha256 name] where
  distinct := List.nodup_singleton _
  owners := by
    intro owner howner
    obtain rfl := List.mem_singleton.mp howner
    exact
      { identity := rfl
        source := ⟨rfl, rfl⟩
        classNamed := by simp [storeFile]
        sourceNamed := by simp [storeFile]
        visibility := rfl
        markers := .inl fun _ => Iff.rfl
        kotlinForm := fun _ => rfl
        javaForm := by simp [storeFile]
        constructionFree := fun _ => rfl
        constructors := by simp [storeFile]
        declarations := by
          intro declaration hdeclaration
          obtain rfl := List.mem_singleton.mp hdeclaration
          exact
            { identity := rfl
              adapter := rfl
              source := ⟨rfl, rfl⟩
              ownerId := rfl
              ownerClass := rfl
              language := rfl
              named := hname
              described := by simp [storeFunction]
              result := by simp [storeFunction]
              resultArguments := by simp [storeFunction]
              visibility := rfl
              markers := by simp [storeFunction]
              reachable := by simp [storeFunction]
              asynchronous := by simp [storeFunction]
              suspending := by simp [storeFunction]
              parameters := by simp [storeFunction] }
        fields := by simp [storeFile]
        enumConstants := by simp [storeFile]
        supertypes := by simp [storeFile] }

/-- The digest of the identity of the function `save`, and of the one whose name has a vertical tab.
-/
def storeHash (bytes : List UInt8) : String :=
  if bytes = utf8 "jvm:demo.StoreKt#save()V" then
    "b62c9b5a466df2eebdd7f124e41c00999c44bf988184d316bcd4083e8fe336e2"
  else "3029e4bcee138a2142e41281e1da5095ae6b826e1b5c2785d491938e3ab6e089"

theorem roundTrips_storeFile :
    RoundTrips storeHash (fun _ => .null) "manifest.json" storeRoot
      [storeFile storeHash "save"] := by
  apply (roundTrips_iff (storeFile_accepted storeHash (by decide))).mpr
  refine ⟨?_, ?_⟩
  · rw [plainTexts_iff_all]
    decide
  · intro owner howner
    obtain rfl := List.mem_singleton.mp howner
    refine ⟨by simp [storeFile, MarkedOnce], by simp [storeFile], ?_, by simp [storeFile]⟩
    intro declaration hdeclaration
    obtain rfl := List.mem_singleton.mp hdeclaration
    exact List.nodup_singleton _

theorem not_roundTrips_tabbed :
    FactsAccepted storeHash [storeFile storeHash "a\x0bb"] ∧
      ¬ RoundTrips storeHash (fun _ => .null) "manifest.json" storeRoot
        [storeFile storeHash "a\x0bb"] := by
  refine ⟨storeFile_accepted storeHash (by decide), ?_⟩
  intro hround
  have hname : "a\x0bb" ∈ manifestTexts storeRoot [storeFile storeHash "a\x0bb"] := by
    simp [manifestTexts, OwnerFact.texts, storeFile, DeclarationFact.texts, storeFunction]
  have hplain := plainTexts_of_roundTrips hround _ hname (Char.ofNat 0x0b) (by decide)
  exact absurd hplain (by decide)

end SupernoteModule.Frontend
