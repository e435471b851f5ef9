import SupernoteModule.Proof.JvmManifest

/-!
# What the reader accepts is written back

The records that a manifest may hold, and the reader's answer to what is written for them.
-/

namespace SupernoteModule.Frontend

open SupernoteModule.Lib SupernoteModule.Python SupernoteModule.Semantic
open SupernoteModule.Generation (utf8)
open SupernoteModule.Python.Json (Fields get keys hasExactly Reordered hasExactly_iff)

/-! ### Primitives -/

section Primitives

variable {raw : Json} {label : String}

@[simp] theorem jvmObject_eq_ok {fields : Fields} :
    jvmObject raw label = .ok fields ↔ raw = .object fields := by
  cases raw <;> simp [jvmObject]

@[simp] theorem jvmKeys_eq_ok {fields : Fields} {expected : List String} {done : Unit} :
    jvmKeys fields expected label = .ok done ↔ hasExactly fields expected = true := by
  rw [jvmKeys, require_eq_ok]

@[simp] theorem jvmString_eq_ok {text : String} :
    jvmString raw label = .ok text ↔ raw = .string text ∧ text ≠ "" := by
  cases raw with
  | string found =>
      by_cases hempty : found = ""
      · simp [jvmString, hempty]
      · simp [jvmString, hempty]
        rintro rfl
        exact hempty
  | _ => simp [jvmString]

@[simp] theorem jvmInteger_eq_ok {number : Int} :
    jvmInteger raw label = .ok number ↔ raw = .integer number := by
  cases raw <;> simp [jvmInteger]

@[simp] theorem jvmBool_eq_ok {flag : Bool} : jvmBool raw label = .ok flag ↔ raw = .bool flag := by
  cases raw <;> simp [jvmBool]

@[simp] theorem jvmMember_eq_ok {Member : Type} [Enumeration Member] {member : Member} :
    jvmMember raw label = .ok member ↔ raw = .string (value member) := by
  simp only [jvmMember, bind_eq_ok, jvmString_eq_ok, mapError_eq_ok, memberOf_eq_ok]
  constructor
  · rintro ⟨text, ⟨hraw, _⟩, rfl⟩
    exact hraw
  · intro hraw
    exact ⟨value member, ⟨hraw, Enumeration.named member⟩, rfl⟩

theorem jvmItems_eq_ok {Item : Type} {step : Json → String → Except JvmManifestError Item}
    {items : List Item} (hread : jvmItems step raw label = .ok items) :
    ∀ item ∈ items, ∃ raw label, step raw label = .ok item := by
  simp only [jvmItems, bind_eq_ok] at hread
  obtain ⟨raws, _, hitems⟩ := hread
  intro item hitem
  obtain ⟨found, _, index, hfound⟩ := exists_item_of_mem (enumerate_eq_ok hitems) hitem
  exact ⟨found, _, hfound⟩

/-- A list of written records is read, when each of them is. -/
theorem jvmItems_map {Item Output : Type} {step : Json → String → Except JvmManifestError Output}
    {encode : Item → Json} {read : Item → Output} {items : List Item}
    (hstep : ∀ item ∈ items, ∀ label, step (encode item) label = .ok (read item)) :
    jvmItems step (.array (items.map encode)) label = .ok (items.map read) := by
  simp only [jvmItems, jvmList, bind_eq_ok]
  exact ⟨_, rfl, enumerate_map (fun item hitem index => hstep item hitem _) 0⟩

theorem jvmItems_exact {Item : Type} {step : Json → String → Except JvmManifestError Item}
    {encode : Item → Json} {items : List Item}
    (hstep : ∀ item ∈ items, ∀ label, step (encode item) label = .ok item) :
    jvmItems step (.array (items.map encode)) label = .ok items := by
  have hitems : jvmItems step (.array (items.map encode)) label = .ok (items.map id) :=
    jvmItems_map hstep
  rw [hitems, List.map_id]

end Primitives

/-! ### Types and parameters -/

mutual

/-- No spelling is empty. -/
def JvmTypeSource.Readable : JvmTypeSource → Prop
  | .mk jvmType _ arguments => jvmType ≠ "" ∧ AllReadable arguments

def JvmTypeSource.AllReadable : List JvmTypeSource → Prop
  | [] => True
  | type :: types => type.Readable ∧ AllReadable types

end

namespace JvmTypeSource

theorem manifests_eq_map (types : List JvmTypeSource) : manifests types = types.map manifest := by
  induction types with
  | nil => rfl
  | cons type types ih => rw [manifests, ih, List.map_cons]

mutual

theorem parseType_manifest : {type : JvmTypeSource} → type.Readable → ∀ label,
    parseType type.manifest label = .ok type
  | .mk jvmType nullable arguments, hreadable, label => by
      have harguments := parseTypesFrom_manifests hreadable.2 0 s!"{label}.arguments"
      simp [-Bool.exists_bool, manifest, parseType, parseTypesAt_eq, bind_eq_ok, hasExactly_iff,
        Json.get, List.lookup_cons, parseTypes, harguments, hreadable.1]

theorem parseTypesFrom_manifests : {types : List JvmTypeSource} → AllReadable types →
    ∀ index label, parseTypesFrom (manifests types) index label = .ok types
  | [], _, index, label => rfl
  | type :: types, hreadable, index, label => by
      rw [manifests, parseTypesFrom, parseType_manifest hreadable.1,
        parseTypesFrom_manifests hreadable.2]
      rfl

end

mutual

theorem readable_of_parseType : (raw : Json) → ∀ {label : String} {type : JvmTypeSource},
    parseType raw label = .ok type → type.Readable
  | .object fields, label, type, hread => by
      simp only [parseType, bind_eq_ok, jvmString_eq_ok, pure_eq_ok] at hread
      obtain ⟨_, _, jvmType, ⟨_, hnamed⟩, nullable, _, arguments, harguments, rfl⟩ := hread
      exact ⟨hnamed, readable_of_parseTypesAt fields harguments⟩

theorem readable_of_parseTypesAt : (fields : Fields) → ∀ {key label : String}
    {types : List JvmTypeSource}, parseTypesAt fields key label = .ok types → AllReadable types
  | (name, raw) :: fields, key, label, types, hread => by
      rw [parseTypesAt] at hread
      split at hread
      · exact readable_of_parseTypes raw hread
      · exact readable_of_parseTypesAt fields hread

theorem readable_of_parseTypes : (raw : Json) → ∀ {label : String} {types : List JvmTypeSource},
    parseTypes raw label = .ok types → AllReadable types
  | .array items, _, _, hread => readable_of_parseTypesFrom items hread

theorem readable_of_parseTypesFrom : (items : List Json) → ∀ {index : Nat} {label : String}
    {types : List JvmTypeSource}, parseTypesFrom items index label = .ok types → AllReadable types
  | [], index, label, types, hread => by
      cases hread
      trivial
  | item :: items, index, label, types, hread => by
      simp only [parseTypesFrom, bind_eq_ok, pure_eq_ok] at hread
      obtain ⟨type, htype, others, hothers, rfl⟩ := hread
      exact ⟨readable_of_parseType item htype, readable_of_parseTypesFrom items hothers⟩

end

end JvmTypeSource

structure JvmParameterSource.Readable (parameter : JvmParameterSource) : Prop where
  jvmType : parameter.jvmType ≠ ""
  name : parameter.name ≠ ""
  typeArguments : ∀ type ∈ parameter.typeArguments, type.Readable

theorem parseInjected_eq_ok {raw : Json} {label : String}
    {injected : Option JvmInjectedDependency} :
    parseParameter.parseInjected raw label = .ok injected ↔
      raw = (injected.map fun injected => Json.string (value injected)).getD .null := by
  cases injected with
  | none => cases raw <;> simp [parseParameter.parseInjected, map_eq_ok]
  | some injected => cases raw <;> simp [parseParameter.parseInjected, map_eq_ok]

theorem parseInjected_manifest (injected : Option JvmInjectedDependency) (label : String) :
    parseParameter.parseInjected
        ((injected.map fun injected => Json.string (value injected)).getD .null) label =
      .ok injected :=
  parseInjected_eq_ok.mpr rfl

theorem parseParameter_manifest {parameter : JvmParameterSource} (hreadable : parameter.Readable)
    (label : String) : parseParameter parameter.manifest label = .ok parameter := by
  have htypes (label : String) : jvmItems parseType
      (.array (parameter.typeArguments.map JvmTypeSource.manifest)) label =
        .ok parameter.typeArguments :=
    jvmItems_exact fun type htype =>
      JvmTypeSource.parseType_manifest (hreadable.typeArguments type htype)
  simp only [parseParameter, JvmParameterSource.manifest, bind_eq_ok, jvmObject_eq_ok]
  refine ⟨_, rfl, ?_⟩
  simp only [Json.get, List.lookup_cons, String.reduceBEq, Option.getD_some, parseInjected_manifest,
    htypes]
  simp [-Bool.exists_bool, hasExactly_iff, hreadable.jvmType, hreadable.name]

theorem readable_of_parseParameter {raw : Json} {label : String} {parameter : JvmParameterSource}
    (hread : parseParameter raw label = .ok parameter) : parameter.Readable := by
  simp only [parseParameter, bind_eq_ok, jvmString_eq_ok, pure_eq_ok] at hread
  obtain ⟨fields, _, _, _, injected, _, jvmType, ⟨_, hjvmType⟩, name, ⟨_, hname⟩, nullable, _,
    typeArguments, hargs, rfl⟩ := hread
  refine ⟨hjvmType, hname, ?_⟩
  intro type htype
  obtain ⟨found, foundLabel, hfound⟩ := jvmItems_eq_ok hargs type htype
  exact JvmTypeSource.readable_of_parseType found hfound

/-! ### Markers and provenance -/

theorem parseMarker_manifest (item : MarkerOccurrence) (label : String) :
    parseMarker (.object [("name", .string (value item.marker)), ("line", .integer item.line),
      ("column", .integer item.column)]) label = .ok item := by
  simp only [parseMarker, bind_eq_ok, jvmObject_eq_ok]
  refine ⟨_, rfl, ?_⟩
  simp only [Json.get, List.lookup_cons, String.reduceBEq, Option.getD_some, jvmMember_eq_ok,
    jvmInteger_eq_ok, certify_eq_ok, pure_eq_ok]
  refine ⟨(), by simp [hasExactly_iff], item.marker, rfl, item.line, rfl, item.column, rfl,
    ⟨require_eq_ok.mpr item.positive⟩, require_eq_ok.mpr item.positive, rfl⟩

theorem parseIntent_manifest {intent : SourceIntent} {target : DeclarationTarget}
    (htarget : intent.target = target) (label : String) :
    parseIntent intent.manifest target label = .ok intent := by
  have hmarkers : jvmItems parseMarker intent.manifest label = .ok intent.occurrences :=
    jvmItems_exact fun item _ => parseMarker_manifest item
  subst htarget
  simp only [parseIntent, bind_eq_ok, labelled_eq_ok, sourced_eq_ok, SourceIntent.make_eq_ok]
  exact ⟨_, hmarkers, rfl⟩

theorem parseProvenance_manifest (source : SourceProvenance) (label : String) :
    parseProvenance source.manifest label = .ok source := by
  obtain ⟨hid, hlanguage, hpath⟩ := source.named
  simp only [parseProvenance, SourceProvenance.manifest, bind_eq_ok, jvmObject_eq_ok]
  refine ⟨_, rfl, ?_⟩
  simp [-Bool.exists_bool, hasExactly_iff, Json.get, List.lookup_cons, bind_eq_ok, hid, hlanguage,
    hpath]

/-! ### Members -/

section Members

variable (sha256 : List UInt8 → String) (ownerClass : String)

structure JvmConstructorSource.Readable (constructor : JvmConstructorSource) : Prop where
  descriptor : constructor.jvmDescriptor ≠ ""
  visibility : constructor.visibility ≠ ""
  parameters : ∀ parameter ∈ constructor.parameters, parameter.Readable
  identity : constructor.provenance.declarationId =
    jvmDeclarationIdentity ownerClass "<init>" constructor.jvmDescriptor
  adapter : constructor.adapterIdentity =
    jvmAdapterIdentity sha256 (jvmDeclarationIdentity ownerClass "<init>" constructor.jvmDescriptor)

structure JvmDeclarationSource.Readable (target : DeclarationTarget)
    (declaration : JvmDeclarationSource) : Prop where
  target : declaration.intent.target = target
  name : declaration.jvmName ≠ ""
  descriptor : declaration.jvmDescriptor ≠ ""
  result : declaration.resultJvmType ≠ ""
  visibility : declaration.visibility ≠ ""
  parameters : ∀ parameter ∈ declaration.parameters, parameter.Readable
  resultArguments : ∀ type ∈ declaration.resultTypeArguments, type.Readable
  identity : declaration.provenance.declarationId =
    jvmDeclarationIdentity ownerClass declaration.jvmName declaration.jvmDescriptor
  adapter : declaration.adapterIdentity = jvmAdapterIdentity sha256
    (jvmDeclarationIdentity ownerClass declaration.jvmName declaration.jvmDescriptor)

structure JvmFieldSource.Readable (field : JvmFieldSource) : Prop where
  name : field.name ≠ ""
  type : field.type.Readable
  visibility : field.visibility ≠ ""
  accessor : field.accessorIdentity ≠ ""

variable {sha256 ownerClass}

theorem parameters_manifest {parameters : List JvmParameterSource}
    (hreadable : ∀ parameter ∈ parameters, parameter.Readable) (label : String) :
    jvmItems parseParameter (.array (parameters.map JvmParameterSource.manifest)) label =
      .ok parameters :=
  jvmItems_exact fun parameter hparameter =>
    parseParameter_manifest (hreadable parameter hparameter)

theorem readable_parameters {raw : Json} {label : String} {parameters : List JvmParameterSource}
    (hread : jvmItems parseParameter raw label = .ok parameters) :
    ∀ parameter ∈ parameters, parameter.Readable := by
  intro parameter hparameter
  obtain ⟨found, foundLabel, hfound⟩ := jvmItems_eq_ok hread parameter hparameter
  exact readable_of_parseParameter hfound

theorem constructor_make (constructor : JvmConstructorSource) :
    JvmConstructorSource.make constructor.provenance constructor.jvmDescriptor
      constructor.parameters constructor.visibility constructor.intent
      constructor.adapterIdentity = .ok constructor := by
  simp only [JvmConstructorSource.make, bind_eq_ok, certify_eq_ok, pure_eq_ok]
  exact ⟨⟨require_eq_ok.mpr constructor.target⟩, require_eq_ok.mpr constructor.target,
    ⟨require_eq_ok.mpr constructor.adapted⟩, require_eq_ok.mpr constructor.adapted, trivial⟩

theorem declaration_make (declaration : JvmDeclarationSource) :
    JvmDeclarationSource.make declaration.provenance declaration.ownerDeclarationId
      declaration.ownerClass declaration.jvmName declaration.jvmDescriptor declaration.parameters
      declaration.resultJvmType declaration.resultNullable declaration.intent
      declaration.visibility declaration.adapterIdentity declaration.language
      declaration.isSuspend declaration.isStatic declaration.resultTypeArguments =
        .ok declaration := by
  have hkotlin := fun hsuspend => (declaration.suspending hsuspend).1
  have hasync := fun hsuspend => (declaration.suspending hsuspend).2
  simp only [JvmDeclarationSource.make, bind_eq_ok, certify_eq_ok, pure_eq_ok]
  exact ⟨⟨require_eq_ok.mpr declaration.target⟩, require_eq_ok.mpr declaration.target,
    ⟨require_eq_ok.mpr declaration.adapted⟩, require_eq_ok.mpr declaration.adapted,
    ⟨require_eq_ok.mpr hkotlin⟩, require_eq_ok.mpr hkotlin,
    ⟨require_eq_ok.mpr hasync⟩, require_eq_ok.mpr hasync,
    ⟨require_eq_ok.mpr declaration.notInjected⟩, require_eq_ok.mpr declaration.notInjected,
    trivial⟩

theorem field_make (field : JvmFieldSource) :
    JvmFieldSource.make field.provenance field.ownerDeclarationId field.name field.type
      field.intent field.visibility field.mutable field.isStatic field.accessorIdentity =
        .ok field := by
  simp only [JvmFieldSource.make, bind_eq_ok, certify_eq_ok, pure_eq_ok]
  exact ⟨⟨require_eq_ok.mpr field.target⟩, require_eq_ok.mpr field.target,
    ⟨require_eq_ok.mpr field.owned⟩, require_eq_ok.mpr field.owned, trivial⟩

theorem parseConstructor_manifest {constructor : JvmConstructorSource}
    (hreadable : constructor.Readable sha256 ownerClass) (label : String) :
    parseConstructor sha256 ownerClass constructor.manifest label = .ok constructor := by
  have hintent := parseIntent_manifest constructor.target
  have hadapted := constructor.adapted
  have hmake := constructor_make constructor
  rw [hreadable.adapter] at hadapted hmake
  simp only [parseConstructor, JvmConstructorSource.manifest, bind_eq_ok, jvmObject_eq_ok]
  refine ⟨_, rfl, ?_⟩
  simp only [verifyDeclarationIdentity, Json.get, List.lookup_cons, String.reduceBEq,
    Option.getD_some, parseProvenance_manifest, hintent,
    parameters_manifest hreadable.parameters, hreadable.adapter]
  simp [-Bool.exists_bool, hasExactly_iff, bind_eq_ok, hreadable.descriptor,
    hreadable.visibility, hreadable.identity, hadapted, hmake]

theorem parseDeclaration_manifest {declaration : JvmDeclarationSource} {target : DeclarationTarget}
    (howner : declaration.ownerClass = ownerClass) (hclass : ownerClass ≠ "")
    (hreadable : declaration.Readable sha256 ownerClass target) (label : String) :
    parseDeclaration sha256 declaration.language ownerClass declaration.ownerDeclarationId target
      declaration.manifest label = .ok declaration := by
  have hintent := parseIntent_manifest hreadable.target
  have htypes (label : String) : jvmItems parseType
      (.array (declaration.resultTypeArguments.map JvmTypeSource.manifest)) label =
        .ok declaration.resultTypeArguments :=
    jvmItems_exact fun type htype =>
      JvmTypeSource.parseType_manifest (hreadable.resultArguments type htype)
  obtain ⟨howned, hadapted⟩ := declaration.adapted
  have hmake := declaration_make declaration
  rw [hreadable.adapter] at hadapted hmake
  rw [howner] at hmake
  simp only [parseDeclaration, JvmDeclarationSource.manifest, bind_eq_ok, jvmObject_eq_ok]
  refine ⟨_, rfl, ?_⟩
  simp only [verifyDeclarationIdentity, Json.get, List.lookup_cons, String.reduceBEq,
    Option.getD_some, parseProvenance_manifest, hintent, htypes,
    parameters_manifest hreadable.parameters, hreadable.adapter, howner]
  simp [-Bool.exists_bool, hasExactly_iff, bind_eq_ok, hreadable.descriptor,
    hreadable.name, hreadable.result, hreadable.visibility, hreadable.identity, hadapted, hmake,
    howned, hclass]

theorem parseField_manifest {field : JvmFieldSource} (hreadable : field.Readable) (label : String) :
    parseField field.ownerDeclarationId field.manifest label = .ok field := by
  have hintent := parseIntent_manifest field.target
  have hmake := field_make field
  have howned := field.owned
  simp only [parseField, JvmFieldSource.manifest, bind_eq_ok, jvmObject_eq_ok]
  refine ⟨_, rfl, ?_⟩
  simp only [Json.get, List.lookup_cons, String.reduceBEq, Option.getD_some,
    parseProvenance_manifest, hintent, JvmTypeSource.parseType_manifest hreadable.type]
  simp [-Bool.exists_bool, hasExactly_iff, hreadable.name, hreadable.visibility,
    hreadable.accessor, hmake, howned]

theorem readable_of_parseConstructor {raw : Json} {label : String}
    {constructor : JvmConstructorSource}
    (hread : parseConstructor sha256 ownerClass raw label = .ok constructor) :
    constructor.Readable sha256 ownerClass := by
  simp only [parseConstructor, verifyDeclarationIdentity, JvmConstructorSource.make, bind_eq_ok,
    require_eq_ok, jvmString_eq_ok, sourced_eq_ok, exists_unit, pure_eq_ok] at hread
  obtain ⟨fields, _, _, descriptor, ⟨_, hdescriptor⟩, provenance, _, ⟨hidentity, adapter,
    ⟨hadapter, _⟩, hdigest⟩, parameters, hparameters, visibility, ⟨_, hvisibility⟩, intent, _,
    adapterIdentity, ⟨hadapterIdentity, _⟩, _, _, _, _, rfl⟩ := hread
  rw [hadapter, Json.string.injEq] at hadapterIdentity
  exact ⟨hdescriptor, hvisibility, readable_parameters hparameters, hidentity,
    hadapterIdentity.symm.trans hdigest⟩

theorem target_of_parseIntent {raw : Json} {target : DeclarationTarget} {label : String}
    {intent : SourceIntent} (hread : parseIntent raw target label = .ok intent) :
    intent.target = target := by
  simp only [parseIntent, bind_eq_ok, labelled_eq_ok, sourced_eq_ok, SourceIntent.make_eq_ok]
    at hread
  obtain ⟨_, _, hfields⟩ := hread
  exact congrArg SourceIntent.Fields.target hfields

theorem readable_of_parseDeclaration {raw : Json} {label : String} {language : JvmLanguage}
    {ownerId : String} {target : DeclarationTarget} {declaration : JvmDeclarationSource}
    (hread : parseDeclaration sha256 language ownerClass ownerId target raw label =
      .ok declaration) : declaration.Readable sha256 ownerClass target := by
  simp only [parseDeclaration, verifyDeclarationIdentity, JvmDeclarationSource.make, bind_eq_ok,
    require_eq_ok, jvmString_eq_ok, sourced_eq_ok, exists_unit, pure_eq_ok] at hread
  obtain ⟨fields, _, _, _, _, _, _, _, _, _, _, _, name, ⟨_, hname⟩, descriptor, ⟨_, hdescriptor⟩,
    provenance, _, ⟨hidentity, adapter, ⟨hadapter, _⟩, hdigest⟩, parameters, hparameters,
    resultJvmType, ⟨_, hresult⟩, resultNullable, _, intent, hintent, visibility, ⟨_, hvisibility⟩,
    adapterIdentity, ⟨hadapterIdentity, _⟩, isSuspend, _, isStatic, _, resultTypeArguments,
    harguments, hmake⟩ := hread
  obtain ⟨_, _, _, _, _, _, _, _, _, _, rfl⟩ := hmake
  rw [hadapter, Json.string.injEq] at hadapterIdentity
  refine ⟨target_of_parseIntent hintent, hname, hdescriptor, hresult, hvisibility,
    readable_parameters hparameters, ?_, hidentity, hadapterIdentity.symm.trans hdigest⟩
  intro type htype
  obtain ⟨found, foundLabel, hfound⟩ := jvmItems_eq_ok harguments type htype
  exact JvmTypeSource.readable_of_parseType found hfound

theorem readable_of_parseField {raw : Json} {label ownerId : String} {field : JvmFieldSource}
    (hread : parseField ownerId raw label = .ok field) : field.Readable := by
  simp only [parseField, JvmFieldSource.make, bind_eq_ok, jvmString_eq_ok, sourced_eq_ok,
    pure_eq_ok] at hread
  obtain ⟨fields, _, _, _, _, _, _, _, provenance, _, name, ⟨_, hname⟩, type, htype, intent, _,
    visibility, ⟨_, hvisibility⟩, mutable, _, isStatic, _, accessor, ⟨_, haccessor⟩, _, _, _, _,
    rfl⟩ := hread
  exact ⟨hname, JvmTypeSource.readable_of_parseType _ htype, hvisibility, haccessor⟩

end Members

/-! ### Owners -/

section Owners

variable {sha256 : List UInt8 → String}

structure JvmOwnerSource.Readable (sha256 : List UInt8 → String) (owner : JvmOwnerSource) :
    Prop where
  ownerClass : owner.ownerClass ≠ ""
  sourceName : owner.sourceName ≠ ""
  visibility : owner.visibility ≠ ""
  identity : owner.provenance.declarationId = jvmOwnerIdentity owner.ownerClass
  language : owner.provenance.language = value owner.language
  constructors : ∀ constructor ∈ owner.constructors, constructor.Readable sha256 owner.ownerClass
  declarations : ∀ declaration ∈ owner.declarations,
    declaration.Readable sha256 owner.ownerClass (memberTarget owner.intent)
  fields : ∀ field ∈ owner.fields, field.Readable
  enumConstants : ∀ name ∈ owner.enumConstants, name ≠ ""
  supertypes : ∀ name ∈ owner.supertypes, name ≠ ""

/-- The order in which an owner is written. -/
def JvmOwnerSource.sorted (owner : JvmOwnerSource) : JvmOwnerSource :=
  let fields := { owner.toFields with
    constructors := sortedBy (·.provenance.declarationId) owner.constructors
    declarations := sortedBy (·.provenance.declarationId) owner.declarations }
  @ofChecked fields
    { owner.checked with
      constructionFree := fun hform => by
        have hnone := owner.constructionFree hform
        exact congrArg (sortedBy (·.provenance.declarationId)) hnone
      ownConstructors := fun constructor hconstructor =>
        owner.ownConstructors constructor (mem_sortedBy.mp hconstructor)
      ownDeclarations := fun declaration hdeclaration =>
        owner.ownDeclarations declaration (mem_sortedBy.mp hdeclaration) }

theorem memberTarget_callable (intent : SourceIntent) :
    memberTarget intent = .function ∨ memberTarget intent = .method := by
  rw [memberTarget]
  split
  · exact .inl rfl
  · exact .inr rfl

theorem strings_manifest {names : List String} (hnames : ∀ name ∈ names, name ≠ "")
    (label : String) : jvmItems jvmString (.array (names.map .string)) label = .ok names :=
  jvmItems_exact fun name hname _ => jvmString_eq_ok.mpr ⟨rfl, hnames name hname⟩

/-- What is written for an owner whose members stand in the order in which they are written. -/
def JvmOwnerSource.inOrder (owner : JvmOwnerSource) : Json :=
  .object [
    ("source", owner.provenance.manifest),
    ("language", .string (value owner.language)),
    ("owner_class", .string owner.ownerClass),
    ("source_name", .string owner.sourceName),
    ("form", .string (value owner.form)),
    ("visibility", .string owner.visibility),
    ("markers", owner.intent.manifest),
    ("constructors", .array (owner.constructors.map JvmConstructorSource.manifest)),
    ("declarations", .array (owner.declarations.map JvmDeclarationSource.manifest)),
    ("fields", .array (owner.fields.map JvmFieldSource.manifest)),
    ("enum_constants", .array (owner.enumConstants.map .string)),
    ("is_data", .bool owner.isData),
    ("is_record", .bool owner.isRecord),
    ("is_final", .bool owner.isFinal),
    ("type_parameter_count", .integer owner.typeParameterCount),
    ("supertypes", .array (owner.supertypes.map .string))
  ]

/-- **An owner is read back as it was written.** -/
theorem parseOwner_inOrder {owner : JvmOwnerSource} (hreadable : owner.Readable sha256)
    (label : String) : parseOwner sha256 owner.inOrder label = .ok owner := by
  have hconstructors (label : String) : jvmItems (parseConstructor sha256 owner.ownerClass)
      (.array (owner.constructors.map JvmConstructorSource.manifest)) label =
        .ok owner.constructors :=
    jvmItems_exact fun constructor hconstructor =>
      parseConstructor_manifest (hreadable.constructors constructor hconstructor)
  have hdeclarations (label : String) :
      jvmItems (parseDeclaration sha256 owner.language owner.ownerClass
        owner.provenance.declarationId (memberTarget owner.intent))
      (.array (owner.declarations.map JvmDeclarationSource.manifest)) label =
        .ok owner.declarations := by
    apply jvmItems_exact
    intro declaration hdeclaration label
    obtain ⟨howner, hclass, hlanguage⟩ := owner.ownDeclarations declaration hdeclaration
    rw [← howner, ← hlanguage]
    exact parseDeclaration_manifest hclass hreadable.ownerClass
      (hreadable.declarations declaration hdeclaration) label
  have hfields (label : String) : jvmItems (parseField owner.provenance.declarationId)
      (.array (owner.fields.map JvmFieldSource.manifest)) label = .ok owner.fields := by
    apply jvmItems_exact
    intro field hfield label
    rw [← (owner.ownFields field hfield).1]
    exact parseField_manifest (hreadable.fields field hfield) label
  have hintent := parseIntent_manifest owner.target
  simp only [hreadable.identity] at hdeclarations hfields
  simp only [parseOwner, JvmOwnerSource.inOrder, bind_eq_ok, jvmObject_eq_ok]
  refine ⟨_, rfl, ?_⟩
  simp only [Json.get, List.lookup_cons, String.reduceBEq, Option.getD_some,
    parseProvenance_manifest, hintent, strings_manifest hreadable.enumConstants,
    strings_manifest hreadable.supertypes]
  simp [-Bool.exists_bool, hasExactly, hreadable.ownerClass, hreadable.sourceName,
    hreadable.visibility, hreadable.identity, hreadable.language, hconstructors, hdeclarations,
    hfields]

theorem JvmOwnerSource.Readable.sorted {owner : JvmOwnerSource}
    (hreadable : owner.Readable sha256) : owner.sorted.Readable sha256 :=
  { hreadable with
    constructors :=
      fun constructor hmem => hreadable.constructors constructor (mem_sortedBy.mp hmem)
    declarations := fun declaration hmem =>
      hreadable.declarations declaration (mem_sortedBy.mp hmem) }

theorem readable_strings {raw : Json} {label : String} {names : List String}
    (hread : jvmItems jvmString raw label = .ok names) : ∀ name ∈ names, name ≠ "" := by
  intro name hname
  obtain ⟨found, foundLabel, hfound⟩ := jvmItems_eq_ok hread name hname
  exact (jvmString_eq_ok.mp hfound).2

theorem readable_of_parseOwner {raw : Json} {label : String} {owner : JvmOwnerSource}
    (hread : parseOwner sha256 raw label = .ok owner) : owner.Readable sha256 := by
  simp only [parseOwner, bind_eq_ok, require_eq_ok, jvmString_eq_ok, sourced_eq_ok, exists_unit,
    JvmOwnerSource.make_eq_ok, pure_eq_ok] at hread
  obtain ⟨fields, _, _, language, _, ownerClass, ⟨_, hclass⟩, provenance, _, hidentity, hlanguage,
    intent, _, sourceName, ⟨_, hname⟩, form, _, constructors, hconstructors, declarations,
    hdeclarations, visibility, ⟨_, hvisibility⟩, members, hmembers, enumConstants, hconstants,
    isData, _, isRecord, _, isFinal, _, count, _, supertypes, hsupertypes, found, hmake, _,
    rfl⟩ := hread
  constructor <;> rw [hmake]
  · exact hclass
  · exact hname
  · exact hvisibility
  · exact hidentity
  · exact hlanguage
  · intro constructor hconstructor
    obtain ⟨_, _, hfound⟩ := jvmItems_eq_ok hconstructors constructor hconstructor
    exact readable_of_parseConstructor hfound
  · intro declaration hdeclaration
    obtain ⟨_, _, hfound⟩ := jvmItems_eq_ok hdeclarations declaration hdeclaration
    exact readable_of_parseDeclaration hfound
  · intro field hfield
    obtain ⟨_, _, hfound⟩ := jvmItems_eq_ok hmembers field hfield
    exact readable_of_parseField hfound
  · exact readable_strings hconstants
  · exact readable_strings hsupertypes

end Owners

/-! ### Manifests -/

namespace JvmSourceManifest

variable {sha256 : List UInt8 → String}

theorem Fields.postInit_eq_ok {fields : Fields} :
    fields.postInit sha256 = .ok () ↔
      fields.schemaVersion = jvmManifestSchemaVersion ∧
        startsWith fields.featureId "supernote:feature:" = true ∧ fields.frontendVersion ≠ "" ∧
        (fields.owners.map (·.provenance.declarationId)).Nodup ∧
        ∀ owner ∈ fields.owners, validateOwner sha256 owner = .ok () := by
  simp only [Fields.postInit, bind_eq_ok, require_eq_ok, checkEach_eq_ok, exists_unit]

theorem validateOwner_sorted {owner : JvmOwnerSource}
    (hvalid : validateOwner sha256 owner = .ok ()) :
    validateOwner sha256 owner.sorted = .ok () := by
  simp only [validateOwner, bind_eq_ok, require_eq_ok, checkEach_eq_ok, exists_unit] at hvalid ⊢
  obtain ⟨hidentity, hconstructors, hdeclarations, hfields⟩ := hvalid
  exact ⟨hidentity, fun constructor hmem => hconstructors constructor (mem_sortedBy.mp hmem),
    fun declaration hmem => hdeclarations declaration (mem_sortedBy.mp hmem), hfields⟩

theorem declarationId_sorted (owners : List JvmOwnerSource) :
    (owners.map JvmOwnerSource.sorted).map (·.provenance.declarationId) =
      owners.map (·.provenance.declarationId) := by
  rw [List.map_map]
  rfl

/-- The order in which a manifest is written. -/
def sorted (source : JvmSourceManifest sha256) : JvmSourceManifest sha256 where
  featureId := source.featureId
  frontendVersion := source.frontendVersion
  owners := (sortedBy (·.provenance.declarationId) source.owners).map JvmOwnerSource.sorted
  schemaVersion := source.schemaVersion
  valid := by
    obtain ⟨hschema, hfeature, hfrontend, hnodup, howners⟩ :=
      Fields.postInit_eq_ok.mp source.valid
    apply Fields.postInit_eq_ok.mpr
    refine ⟨hschema, hfeature, hfrontend, ?_, ?_⟩
    · rw [declarationId_sorted]
      exact ((sortedBy_perm _ source.owners).map _).nodup_iff.mpr hnodup
    · intro owner howner
      obtain ⟨found, hfound, rfl⟩ := List.mem_map.mp howner
      exact validateOwner_sorted (howners found (mem_sortedBy.mp hfound))

@[simp] theorem make_eq_ok {fields : Fields} {source : JvmSourceManifest sha256} :
    make fields = .ok source ↔ source.toFields = fields :=
  verified_eq_ok_of_fields (fun _ => rfl) (by rintro rfl; exact ⟨source.valid, rfl⟩)

/-- Every owner may stand in a manifest. -/
def Readable (source : JvmSourceManifest sha256) : Prop :=
  ∀ owner ∈ source.owners, owner.Readable sha256

theorem featureId_ne_empty (source : JvmSourceManifest sha256) : source.featureId ≠ "" := by
  obtain ⟨_, hfeature, _⟩ := Fields.postInit_eq_ok.mp source.valid
  obtain ⟨rest, hrest⟩ := startsWith_iff.mp hfeature
  intro hempty
  rw [hempty] at hrest
  have hlength := congrArg String.length hrest
  rw [String.length_append] at hlength
  have hcount : "supernote:feature:".length = 18 := by decide
  rw [hcount, String.length_empty] at hlength
  omega

/-- What is written for a manifest whose owners stand in the order in which they are written. -/
def inOrder (source : JvmSourceManifest sha256) : Json :=
  .object [
    ("schema_version", .string source.schemaVersion),
    ("kind", .string jvmManifestKind),
    ("feature_id", .string source.featureId),
    ("frontend_version", .string source.frontendVersion),
    ("owners", .array (source.owners.map JvmOwnerSource.inOrder))
  ]

theorem manifest_eq_inOrder (source : JvmSourceManifest sha256) :
    source.manifest = source.sorted.inOrder := by
  have howners : (sortedBy (·.provenance.declarationId) source.owners).map JvmOwnerSource.manifest =
      source.sorted.owners.map JvmOwnerSource.inOrder := by
    rw [sorted, List.map_map]
    rfl
  rw [manifest, howners]
  rfl

theorem parseManifest_inOrder {source : JvmSourceManifest sha256} (hreadable : source.Readable)
    {expectedFeatureId : Option String}
    (hexpected : ∀ expected ∈ expectedFeatureId, source.featureId = expected) :
    parseManifest sha256 source.inOrder expectedFeatureId = .ok source := by
  obtain ⟨hschema, _, hfrontend, _, _⟩ := Fields.postInit_eq_ok.mp source.valid
  have howners : jvmItems (parseOwner sha256)
      (.array (source.owners.map JvmOwnerSource.inOrder)) "owners" = .ok source.owners :=
    jvmItems_exact fun owner howner => parseOwner_inOrder (hreadable owner howner)
  have hparsed : parseManifest.parseSchema (.string jvmManifestSchemaVersion) =
      .ok jvmManifestSchemaVersion := by
    simp only [parseManifest.parseSchema, bind_eq_ok, require_eq_ok, pure_eq_ok]
    exact ⟨(), by decide, (), trivial, trivial⟩
  have hkind : jvmManifestKind ≠ "" := by decide
  simp only [parseManifest, inOrder, bind_eq_ok, jvmObject_eq_ok]
  refine ⟨_, rfl, ?_⟩
  simp only [Json.get, List.lookup_cons, String.reduceBEq, Option.getD_some, hschema, hparsed,
    jvmList]
  simp [-Bool.exists_bool, hasExactly, source.featureId_ne_empty, hkind, hfrontend, howners]
  exact ⟨fun expected => hexpected expected, by simp [← hschema]⟩

theorem Readable.sorted {source : JvmSourceManifest sha256} (hreadable : source.Readable) :
    source.sorted.Readable := by
  intro owner howner
  obtain ⟨found, hfound, rfl⟩ := List.mem_map.mp howner
  exact (hreadable found (mem_sortedBy.mp hfound)).sorted

theorem parseManifest_manifest {source : JvmSourceManifest sha256} (hreadable : source.Readable)
    {expectedFeatureId : Option String}
    (hexpected : ∀ expected ∈ expectedFeatureId, source.featureId = expected) :
    parseManifest sha256 source.manifest expectedFeatureId = .ok source.sorted := by
  rw [manifest_eq_inOrder]
  exact parseManifest_inOrder hreadable.sorted hexpected

theorem readable_of_parseManifest {raw : Json} {expectedFeatureId : Option String}
    {source : JvmSourceManifest sha256}
    (hread : parseManifest sha256 raw expectedFeatureId = .ok source) :
    source.Readable ∧ ∀ expected ∈ expectedFeatureId, source.featureId = expected := by
  simp only [parseManifest, bind_eq_ok, require_eq_ok, exists_unit, make_eq_ok] at hread
  obtain ⟨fields, _, _, schema, _, kind, _, _, featureId, _, hexpected, ownersRaw, _, frontend, _,
    owners, howners, hmake⟩ := hread
  rw [Readable, hmake]
  refine ⟨?_, hexpected⟩
  intro owner howner
  obtain ⟨_, _, hfound⟩ := jvmItems_eq_ok howners owner howner
  exact readable_of_parseOwner hfound

end JvmSourceManifest

/-! ### The text -/

open SupernoteModule.Python.Json (Sound SoundItems)

mutual

theorem JvmTypeSource.sound_manifest : (type : JvmTypeSource) → Sound type.manifest
  | .mk jvmType nullable arguments => by
      rw [manifest]
      exact ⟨by simp, trivial, trivial, JvmTypeSource.sound_manifests arguments, trivial⟩

theorem JvmTypeSource.sound_manifests : (types : List JvmTypeSource) → SoundItems (manifests types)
  | [] => trivial
  | type :: types => ⟨sound_manifest type, sound_manifests types⟩

end

theorem sound_strings (names : List String) : SoundItems (names.map .string) := by
  apply Json.soundItems_map
  intro name
  trivial

theorem JvmParameterSource.sound_manifest (parameter : JvmParameterSource) :
    Sound parameter.manifest := by
  have hinjected : Sound ((parameter.injected.map fun injected =>
      Json.string (value injected)).getD .null) := by
    cases parameter.injected <;> trivial
  exact ⟨by simp, trivial, trivial, trivial, hinjected,
    Json.soundItems_map JvmTypeSource.sound_manifest _, trivial⟩

theorem SourceIntent.sound_manifest (intent : SourceIntent) : Sound intent.manifest := by
  apply Json.soundItems_map
  intro item
  exact ⟨by simp, trivial, trivial, trivial, trivial⟩

theorem sound_provenance (source : SourceProvenance) : Sound source.manifest :=
  ⟨by simp, trivial, trivial, trivial, trivial, trivial, trivial⟩

theorem JvmFieldSource.sound_manifest (field : JvmFieldSource) : Sound field.manifest :=
  ⟨by simp, sound_provenance _, trivial, trivial, field.type.sound_manifest,
    field.intent.sound_manifest, trivial, trivial, trivial, trivial, trivial⟩

theorem JvmDeclarationSource.sound_manifest (declaration : JvmDeclarationSource) :
    Sound declaration.manifest :=
  ⟨by simp, sound_provenance _, trivial, trivial, trivial, trivial,
    Json.soundItems_map JvmParameterSource.sound_manifest _, trivial, trivial,
    declaration.intent.sound_manifest, trivial, trivial, trivial, trivial, trivial,
    Json.soundItems_map JvmTypeSource.sound_manifest _, trivial⟩

theorem JvmConstructorSource.sound_manifest (constructor : JvmConstructorSource) :
    Sound constructor.manifest :=
  ⟨by simp, sound_provenance _, trivial, Json.soundItems_map JvmParameterSource.sound_manifest _,
    trivial, constructor.intent.sound_manifest, trivial, trivial⟩

theorem JvmOwnerSource.sound_manifest (owner : JvmOwnerSource) : Sound owner.manifest :=
  ⟨by simp, sound_provenance _, trivial, trivial, trivial, trivial, trivial,
    owner.intent.sound_manifest, Json.soundItems_map JvmConstructorSource.sound_manifest _,
    Json.soundItems_map JvmDeclarationSource.sound_manifest _,
    Json.soundItems_map JvmFieldSource.sound_manifest _, sound_strings _, trivial, trivial,
    trivial, trivial, sound_strings _, trivial⟩

theorem JvmSourceManifest.sound_manifest {sha256 : List UInt8 → String}
    (source : JvmSourceManifest sha256) : Sound source.manifest :=
  ⟨by simp, trivial, trivial, trivial, trivial,
    Json.soundItems_map JvmOwnerSource.sound_manifest _, trivial⟩

theorem decodeUtf8_utf8 (text : String) : decodeUtf8 (utf8 text) = some text := by
  have hbytes : (⟨text.toUTF8.data.toList.toArray⟩ : ByteArray) = text.toUTF8 := by
    rw [Array.toArray_toList]
  have hvalid : text.toUTF8.IsValidUTF8 := text.isValidUTF8
  rw [decodeUtf8, utf8, hbytes, String.fromUTF8?, dif_pos hvalid]
  rfl

namespace JvmSourceManifest

variable {sha256 : List UInt8 → String}

/-- **A readable manifest is read back from its own text, in the order in which it was written.** -/
theorem readJvmManifest_json_of_readable {source : JvmSourceManifest sha256}
    (hreadable : source.Readable) {expectedFeatureId : Option String}
    (hexpected : ∀ expected ∈ expectedFeatureId, source.featureId = expected)
    (parseFloat : List Char → Json) (floatRepr : Rat → String) (path : String) :
    readJvmManifest sha256 parseFloat path (utf8 (source.json floatRepr)) expectedFeatureId =
      .ok source.sorted := by
  have hloads := Json.loads_render parseFloat floatRepr source.sound_manifest
  have hparsed := parseManifest_reordered sha256
    (Json.reordered_sortKeys source.manifest source.sound_manifest)
    (parseManifest_manifest hreadable hexpected)
  rw [readJvmManifest, decodeUtf8_utf8]
  simp only [bind_eq_ok, demand_eq_ok]
  refine ⟨_, rfl, Json.sortKeys source.manifest, ?_, ?_⟩
  · rw [json, String.toList_ofList, hloads]
  · exact mapError_eq_ok.mpr hparsed

end JvmSourceManifest

/-! ### Up to order -/

/-- The same facts, with the members in another order. -/
structure JvmOwnerSource.SameUpToOrder (left right : JvmOwnerSource) : Prop where
  facts : { left.toFields with
    constructors := right.constructors
    declarations := right.declarations
    fields := right.fields } = right.toFields
  constructors : left.constructors.Perm right.constructors
  declarations : left.declarations.Perm right.declarations
  fields : left.fields.Perm right.fields

/-- The same facts, with the owners and their members in another order. -/
structure JvmSourceManifest.SameUpToOrder {sha256 : List UInt8 → String}
    (left right : JvmSourceManifest sha256) : Prop where
  featureId : left.featureId = right.featureId
  frontendVersion : left.frontendVersion = right.frontendVersion
  schemaVersion : left.schemaVersion = right.schemaVersion
  owners : ∃ middles, left.owners.Perm middles ∧
    List.Forall₂ JvmOwnerSource.SameUpToOrder middles right.owners

theorem JvmOwnerSource.sameUpToOrder_sorted (owner : JvmOwnerSource) :
    owner.SameUpToOrder owner.sorted where
  facts := rfl
  constructors := (sortedBy_perm _ owner.constructors).symm
  declarations := (sortedBy_perm _ owner.declarations).symm
  fields := List.Perm.refl owner.fields

namespace JvmSourceManifest

variable {sha256 : List UInt8 → String}

theorem sameUpToOrder_sorted (source : JvmSourceManifest sha256) :
    source.SameUpToOrder source.sorted where
  featureId := rfl
  frontendVersion := rfl
  schemaVersion := rfl
  owners := by
    refine ⟨sortedBy (·.provenance.declarationId) source.owners,
      (sortedBy_perm _ source.owners).symm, ?_⟩
    exact List.forall₂_map_right_iff.mpr
      (List.forall₂_same.mpr fun owner _ => owner.sameUpToOrder_sorted)

/-- **What the reader accepts, it accepts again from the text that the generator writes for it, as
the same manifest up to the order of owners and members.** -/
theorem readJvmManifest_json {parseFloat : List Char → Json} {path : String}
    {content : List UInt8} {expectedFeatureId : Option String} {source : JvmSourceManifest sha256}
    (hread : readJvmManifest sha256 parseFloat path content expectedFeatureId = .ok source)
    (floatRepr : Rat → String) (otherPath : String) :
    ∃ again : JvmSourceManifest sha256,
      readJvmManifest sha256 parseFloat otherPath (utf8 (source.json floatRepr))
        expectedFeatureId = .ok again ∧ source.SameUpToOrder again := by
  have hparsed : ∃ raw, parseManifest sha256 raw expectedFeatureId = .ok source := by
    simp only [readJvmManifest, bind_eq_ok] at hread
    obtain ⟨_, _, raw, _, hparse⟩ := hread
    exact ⟨raw, mapError_eq_ok.mp hparse⟩
  obtain ⟨raw, hraw⟩ := hparsed
  obtain ⟨hreadable, hexpected⟩ := readable_of_parseManifest hraw
  exact ⟨source.sorted,
    readJvmManifest_json_of_readable hreadable hexpected parseFloat floatRepr otherPath,
    source.sameUpToOrder_sorted⟩

end JvmSourceManifest

/-! A store whose constructor takes an injected context and a list of names. -/

def storeDigest (_ : List UInt8) : String :=
  "c5a99cd9f2ace571120a7151fb268161445e5dc7e46aa4d1d2bdeebd998b224c"

def storeConstructor : JvmConstructorSource where
  provenance :=
    { declarationId := "jvm:demo.Store#<init>(Landroid/content/Context;Ljava/util/List;)V"
      language := "kotlin", path := "Store.kt", line := 4, valid := by decide }
  jvmDescriptor := "(Landroid/content/Context;Ljava/util/List;)V"
  parameters := [
    { jvmType := "android.content.Context", name := "context", injected := some .context },
    { jvmType := "java.util.List", name := "names", nullable := true,
      typeArguments := [.mk "java.lang.String" true []] }]
  visibility := "public"
  intent :=
    { target := .constructor
      occurrences := [{ marker := .constructor, line := 4, column := 3, positive := by decide }]
      valid := by decide }
  adapterIdentity := "supernote.jvm.adapter.c5a99cd9f2ace571120a"
  target := rfl
  adapted := by decide

def storeOwner : JvmOwnerSource where
  provenance :=
    { declarationId := "jvm:demo.Store", language := "kotlin", path := "Store.kt", line := 3
      valid := by decide }
  language := .kotlin
  ownerClass := "demo.Store"
  sourceName := "Store"
  form := .class_
  intent :=
    { target := .class_, occurrences := [.after 1 .object], valid := by decide }
  constructors := [storeConstructor]
  declarations := []
  target := rfl
  kotlinForm _ := rfl
  javaForm hjava := by cases hjava
  constructionFree hform := absurd rfl hform
  ownConstructors := by decide
  ownDeclarations := by decide
  ownFields := by decide

def storeManifest : JvmSourceManifest storeDigest where
  featureId := "supernote:feature:demo"
  frontendVersion := "1.0.0"
  owners := [storeOwner]
  valid := by decide

theorem storeConstructor_readable : storeConstructor.Readable storeDigest "demo.Store" where
  descriptor := by decide
  visibility := by decide
  parameters := by
    intro parameter hparameter
    rcases List.mem_pair.mp hparameter with rfl | rfl
    · exact ⟨by decide, by decide, by simp⟩
    · refine ⟨by decide, by decide, ?_⟩
      intro type htype
      obtain rfl := List.mem_singleton.mp htype
      exact ⟨by decide, trivial⟩
  identity := rfl
  adapter := by decide

theorem storeManifest_readable : storeManifest.Readable := by
  intro owner howner
  obtain rfl := List.mem_singleton.mp howner
  refine ⟨by decide, by decide, by decide, rfl, rfl, ?_, by simp [storeOwner],
    by simp [storeOwner], by simp [storeOwner], by simp [storeOwner]⟩
  intro constructor hconstructor
  obtain rfl := List.mem_singleton.mp hconstructor
  exact storeConstructor_readable

theorem readJvmManifest_json_store :
    ∃ again : JvmSourceManifest storeDigest,
      readJvmManifest storeDigest (fun _ => .null) "b.json"
        (utf8 (storeManifest.sorted.json fun _ => "0.5")) none = .ok again ∧
        storeManifest.sorted.SameUpToOrder again :=
  JvmSourceManifest.readJvmManifest_json
    (JvmSourceManifest.readJvmManifest_json_of_readable storeManifest_readable
      (by intro expected hexpected; cases hexpected) (fun _ => .null) (fun _ => "0.5") "a.json")
    (fun _ => "0.5") "b.json"

end SupernoteModule.Frontend
