import SupernoteModule.Proof.JvmRoundTrip
import SupernoteModule.Spec.JvmDefects

/-!
# Errors that leave the reader of a JVM manifest

An error of a source record is raised as it is, and the reader only puts the path in front of its
own errors. A sequence of steps ends with such an error when one of its steps does and all steps
before it succeed. Texts are of Unicode characters here: what the interpreter does with half of a
surrogate pair, and at its recursion limit, is left out.
-/

namespace SupernoteModule.Frontend

open SupernoteModule.Lib SupernoteModule.Python SupernoteModule.Semantic
open SupernoteModule.Python.Json (Fields get hasExactly)

/-- An error that is not one of the manifest. -/
def Foreign (error : JvmManifestError) : Prop :=
  ∀ message, error ≠ .manifest message

/-- Reading stops with an error of this origin that is not one of the manifest. -/
def Escapes {Item : Type} (origin : JvmManifestError → Prop) (body : Except JvmManifestError Item) :
    Prop :=
  ∃ error, body = .error error ∧ Foreign error ∧ origin error

/-- Every error of the computation is of a kind. -/
def OnlyRaises {Error Item : Type} (kind : Error → Prop) (body : Except Error Item) : Prop :=
  ∀ error, body = .error error → kind error

abbrev anyOrigin : JvmManifestError → Prop :=
  fun _ => True

section Escapes

variable {Item Result : Type} {first : Except JvmManifestError Item}
  {next : Item → Except JvmManifestError Result} {raw : Json} {label message : String}
  {origin : JvmManifestError → Prop}

theorem escapes_bind :
    Escapes origin (first >>= next) ↔
      Escapes origin first ∨ ∃ item, first = .ok item ∧ Escapes origin (next item) := by
  constructor
  · rintro ⟨error, herror, hkind⟩
    rcases bind_eq_error.mp herror with hfirst | ⟨item, hitem, hnext⟩
    · exact .inl ⟨error, hfirst, hkind⟩
    · exact .inr ⟨item, hitem, error, hnext, hkind⟩
  · rintro (⟨error, herror, hkind⟩ | ⟨item, hitem, error, herror, hkind⟩)
    · exact ⟨error, bind_eq_error.mpr (.inl herror), hkind⟩
    · exact ⟨error, bind_eq_error.mpr (.inr ⟨item, hitem, herror⟩), hkind⟩

@[simp] theorem not_escapes_ok (item : Item) : ¬Escapes origin (.ok item) := by
  rintro ⟨error, herror, _⟩
  cases herror

@[simp] theorem not_escapes_pure (item : Item) :
    ¬Escapes origin (pure item : Except JvmManifestError Item) :=
  not_escapes_ok item

@[simp] theorem not_escapes_manifest (message : String) :
    ¬Escapes origin (.error (.manifest message) : Except JvmManifestError Item) := by
  rintro ⟨error, herror, hforeign, _⟩
  exact hforeign message (Except.error.inj herror).symm

theorem foreign_source (error : FrontendError) : Foreign (.source error) := by
  intro message hsame
  cases hsame

@[simp] theorem not_escapes_require (condition : Prop) [Decidable condition] (message : String) :
    ¬Escapes origin (require condition (.manifest message)) := by
  rw [require]
  split
  · exact not_escapes_ok ()
  · exact not_escapes_manifest message

theorem escapes_require {condition : Prop} [Decidable condition] {error : FrontendError} :
    Escapes origin (require condition (.source error)) ↔ ¬condition ∧ origin (.source error) := by
  constructor
  · rintro ⟨raised, hraised, _, horigin⟩
    obtain ⟨hnot, rfl⟩ := require_eq_error.mp hraised
    exact ⟨hnot, horigin⟩
  · rintro ⟨hnot, horigin⟩
    exact ⟨.source error, require_eq_error.mpr ⟨hnot, rfl⟩, foreign_source error, horigin⟩

theorem verified_eq_error {Error : Type} {check : Except Error Unit} {build : check = .ok () → Item}
    {error : Error} : verified check build = .error error ↔ check = .error error := by
  cases check with
  | ok _ =>
      constructor
      · intro herror
        cases herror
      · intro herror
        cases herror
  | error other =>
      constructor
      · exact fun herror => congrArg Except.error (Except.error.inj herror)
      · exact fun herror => congrArg Except.error (Except.error.inj herror)

theorem escapes_verified {check : Except JvmManifestError Unit} {build : check = .ok () → Item} :
    Escapes origin (verified check build) ↔ Escapes origin check := by
  simp only [Escapes, verified_eq_error]

theorem onlyRaises_require {Error : Type} {kind : Error → Prop} {condition : Prop}
    [Decidable condition] {error : Error} (hkind : kind error) :
    OnlyRaises kind (require condition error) := by
  intro raised hraised
  rw [← (require_eq_error.mp hraised).2]
  exact hkind

theorem OnlyRaises.bind {Error Value : Type} {kind : Error → Prop} {body : Except Error Item}
    {rest : Item → Except Error Value} (hbody : OnlyRaises kind body)
    (hrest : ∀ item, OnlyRaises kind (rest item)) : OnlyRaises kind (body >>= rest) := by
  intro error herror
  rcases bind_eq_error.mp herror with hfirst | ⟨item, _, hlater⟩
  · exact hbody error hfirst
  · exact hrest item error hlater

theorem OnlyRaises.verified {Error : Type} {kind : Error → Prop} {check : Except Error Unit}
    {build : check = .ok () → Item} (hcheck : OnlyRaises kind check) :
    OnlyRaises kind (Lib.verified check build) :=
  fun error herror => hcheck error (verified_eq_error.mp herror)

/-- Where the first step does not escape, an error that does comes from the rest. -/
theorem foreign_error_bind {error : JvmManifestError} (hforeign : Foreign error)
    (hfirst : ¬Escapes anyOrigin first) :
    first >>= next = .error error ↔ ∃ item, first = .ok item ∧ next item = .error error := by
  rw [bind_eq_error]
  exact or_iff_right fun herror => hfirst ⟨error, herror, hforeign, trivial⟩

theorem escapes_certify {check : Except JvmManifestError Unit} :
    Escapes origin (certify check) ↔ Escapes origin check :=
  escapes_verified

theorem escapes_sourced {body : Except FrontendError Item} :
    Escapes origin (sourced body) ↔ ∃ error, body = .error error ∧ origin (.source error) := by
  constructor
  · rintro ⟨raised, hraised, _, horigin⟩
    obtain ⟨error, herror, rfl⟩ := mapError_eq_error.mp hraised
    exact ⟨error, herror, horigin⟩
  · rintro ⟨error, herror, horigin⟩
    exact ⟨.source error, mapError_eq_error.mpr ⟨error, herror, rfl⟩, foreign_source error, horigin⟩

theorem not_escapes_mapError {Error : Type} (body : Except Error Item) (message : Error → String) :
    ¬Escapes origin (body.mapError fun error => JvmManifestError.manifest (message error)) := by
  cases body with
  | ok item => exact not_escapes_ok item
  | error error => exact not_escapes_manifest _

/-! ### Readers of single values -/

@[simp] theorem not_escapes_object : ¬Escapes origin (jvmObject raw label) := by
  cases raw <;> simp [jvmObject]

@[simp] theorem not_escapes_keys (fields : Fields) (expected : List String) (label : String) :
    ¬Escapes origin (jvmKeys fields expected label) :=
  not_escapes_require _ _

@[simp] theorem not_escapes_list : ¬Escapes origin (jvmList raw label) := by
  cases raw <;> simp [jvmList]

@[simp] theorem not_escapes_string : ¬Escapes origin (jvmString raw label) := by
  cases raw with
  | string text =>
      rw [jvmString]
      split
      · exact not_escapes_ok text
      · exact not_escapes_manifest _
  | _ => exact not_escapes_manifest _

@[simp] theorem not_escapes_integer : ¬Escapes origin (jvmInteger raw label) := by
  cases raw <;> simp [jvmInteger]

@[simp] theorem not_escapes_bool : ¬Escapes origin (jvmBool raw label) := by
  cases raw <;> simp [jvmBool]

@[simp] theorem not_escapes_member {Member : Type} [Enumeration Member] :
    ¬Escapes origin (jvmMember raw label : Except JvmManifestError Member) := by
  rw [jvmMember, escapes_bind]
  rintro (hstring | ⟨text, _, hmember⟩)
  · exact not_escapes_string hstring
  · exact not_escapes_mapError _ _ hmember

theorem jvmList_eq_ok {items : List Json} : jvmList raw label = .ok items ↔ raw = .array items := by
  cases raw <;> simp [jvmList]

/-! ### Readers of lists -/

theorem escapes_enumerate {step : Json → String → Except JvmManifestError Item}
    {Defect : Json → String → Prop}
    (hstep : ∀ raw label, Escapes origin (step raw label) ↔ Defect raw label)
    (items : List Json) : ∀ index,
      Escapes origin (enumerate (fun item index => step item s!"{label}[{index}]") index items) ↔
        FirstDefect step Defect items index label := by
  induction items with
  | nil =>
      intro index
      constructor
      · exact fun hescapes => absurd hescapes (not_escapes_ok _)
      · exact fun hdefect => hdefect.elim
  | cons item items ih =>
      intro index
      rw [enumerate, escapes_bind, hstep, FirstDefect]
      apply or_congr_right
      constructor
      · rintro ⟨output, houtput, hrest⟩
        rcases escapes_bind.mp hrest with hrest | ⟨outputs, _, hpure⟩
        · exact ⟨⟨output, houtput⟩, (ih (index + 1)).mp hrest⟩
        · exact absurd hpure (not_escapes_pure _)
      · rintro ⟨⟨output, houtput⟩, hrest⟩
        exact ⟨output, houtput, escapes_bind.mpr (.inl ((ih (index + 1)).mpr hrest))⟩

/-- A list is left where its first item is that is not read. -/
theorem escapes_items {step : Json → String → Except JvmManifestError Item}
    {Defect : Json → String → Prop}
    (hstep : ∀ raw label, Escapes origin (step raw label) ↔ Defect raw label) :
    Escapes origin (jvmItems step raw label) ↔ ItemsDefect step Defect raw label := by
  rw [jvmItems, escapes_bind, ItemsDefect]
  constructor
  · rintro (hlist | ⟨items, hitems, hescapes⟩)
    · exact absurd hlist not_escapes_list
    · exact ⟨items, jvmList_eq_ok.mp hitems, (escapes_enumerate hstep items 0).mp hescapes⟩
  · rintro ⟨items, hitems, hdefect⟩
    exact .inr ⟨items, jvmList_eq_ok.mpr hitems, (escapes_enumerate hstep items 0).mpr hdefect⟩

theorem not_firstDefect {step : Json → String → Except JvmManifestError Item} (items : List Json) :
    ∀ index, ¬FirstDefect step (fun _ _ => False) items index label := by
  induction items with
  | nil => exact fun _ => id
  | cons item items ih =>
      intro index hdefect
      rcases hdefect with hitem | ⟨_, hrest⟩
      · exact hitem
      · exact ih (index + 1) hrest

theorem not_escapes_items {step : Json → String → Except JvmManifestError Item}
    (hstep : ∀ raw label, ¬Escapes origin (step raw label)) (raw : Json) (label : String) :
    ¬Escapes origin (jvmItems step raw label) := by
  rw [escapes_items fun raw label => iff_false_intro (hstep raw label)]
  rintro ⟨items, _, hdefect⟩
  exact not_firstDefect items 0 hdefect

end Escapes

/-! ### Readers that never stop with the error of a record -/

section Types

variable {origin : JvmManifestError → Prop}

mutual

theorem not_escapes_type : (raw : Json) → ∀ label : String, ¬Escapes origin (parseType raw label)
  | .object fields, label => by
      have htypes := not_escapes_typesAt fields "arguments" s!"{label}.arguments"
      simp only [parseType, escapes_bind, not_escapes_keys, not_escapes_string, not_escapes_bool,
        not_escapes_pure, htypes, false_or, and_false, exists_false, not_false_eq_true]
  | .null, _ | .bool _, _ | .integer _, _ | .real _, _ | .string _, _ | .array _, _ =>
      not_escapes_manifest _

theorem not_escapes_typesAt : (fields : Fields) → ∀ key label : String,
    ¬Escapes origin (parseTypesAt fields key label)
  | [], _, _ => not_escapes_manifest _
  | (name, raw) :: fields, key, label => by
      rw [parseTypesAt]
      split
      · exact not_escapes_types raw label
      · exact not_escapes_typesAt fields key label

theorem not_escapes_types : (raw : Json) → ∀ label : String, ¬Escapes origin (parseTypes raw label)
  | .array items, label => not_escapes_typesFrom items 0 label
  | .null, _ | .bool _, _ | .integer _, _ | .real _, _ | .string _, _ | .object _, _ =>
      not_escapes_manifest _

theorem not_escapes_typesFrom : (items : List Json) → ∀ (index : Nat) (label : String),
    ¬Escapes origin (parseTypesFrom items index label)
  | [], _, _ => not_escapes_ok _
  | item :: items, index, label => by
      have hitem := not_escapes_type item s!"{label}[{index}]"
      have hitems := not_escapes_typesFrom items (index + 1) label
      simp only [parseTypesFrom, escapes_bind, hitem, hitems, not_escapes_pure, false_or, and_false,
        exists_false, not_false_eq_true]

end

end Types

section Records

variable {raw : Json} {label : String} {origin : JvmManifestError → Prop}

theorem not_escapes_injected : ¬Escapes origin (parseParameter.parseInjected raw label) := by
  have hmember : ¬Escapes origin
      ((jvmMember raw label).map some : Except JvmManifestError
        (Option JvmInjectedDependency)) := by
    have hplain := @not_escapes_member raw label origin JvmInjectedDependency _
    revert hplain
    cases (jvmMember raw label : Except JvmManifestError JvmInjectedDependency) with
    | ok member => exact fun _ => not_escapes_ok _
    | error error =>
        rintro hplain ⟨raised, hraised, hkind⟩
        rw [← Except.error.inj hraised] at hkind
        exact hplain ⟨error, rfl, hkind⟩
  cases raw with
  | null => exact not_escapes_ok none
  | _ => exact hmember

theorem not_escapes_parameter (raw : Json) (label : String) :
    ¬Escapes origin (parseParameter raw label) := by
  have htypes := not_escapes_items (@not_escapes_type origin)
  simp only [parseParameter, escapes_bind, not_escapes_object, not_escapes_keys,
    not_escapes_injected, not_escapes_string, not_escapes_bool, htypes, not_escapes_pure, false_or,
    and_false, exists_false, not_false_eq_true]

/-- Errors that are not those of a missing key, of an assertion or of the recursion limit get a
label. -/
theorem not_escapes_labelled {Item : Type} {body : Except JvmManifestError Item}
    (hbody : ∀ error, body = .error error → Foreign error →
      (∃ message, error = .source (.source message)) ∨
        ∃ message, error = .source (.semantic (.model message))) :
    ¬Escapes origin (labelled label body) := by
  cases body with
  | ok item => exact not_escapes_ok item
  | error error =>
      by_cases hforeign : Foreign error
      · rcases hbody error rfl hforeign with ⟨message, rfl⟩ | ⟨message, rfl⟩
        · exact not_escapes_manifest _
        · exact not_escapes_manifest _
      · obtain ⟨message, hmessage⟩ := not_forall.mp hforeign
        rw [not_not.mp hmessage]
        exact not_escapes_manifest _

theorem provenance_raises (fields : SourceProvenance.Fields) :
    OnlyRaises (fun error => ∃ message, error = .model message) (SourceProvenance.make fields) := by
  refine OnlyRaises.verified ?_
  unfold SourceProvenance.Fields.postInit
  refine OnlyRaises.bind (onlyRaises_require ⟨_, rfl⟩) fun _ => ?_
  refine OnlyRaises.bind (onlyRaises_require ⟨_, rfl⟩) fun _ => ?_
  refine OnlyRaises.bind (onlyRaises_require ⟨_, rfl⟩) fun _ => ?_
  exact onlyRaises_require ⟨_, rfl⟩

theorem not_escapes_provenance (raw : Json) (label : String) :
    ¬Escapes origin (parseProvenance raw label) := by
  simp only [parseProvenance, escapes_bind, not_escapes_object, not_escapes_keys, false_or]
  rintro ⟨fields, _, _, _, hescapes⟩
  refine not_escapes_labelled ?_ hescapes
  intro error herror hforeign
  obtain ⟨_, _, herror⟩ := (foreign_error_bind hforeign not_escapes_string).mp herror
  obtain ⟨_, _, herror⟩ := (foreign_error_bind hforeign not_escapes_string).mp herror
  obtain ⟨_, _, herror⟩ := (foreign_error_bind hforeign not_escapes_string).mp herror
  obtain ⟨_, _, herror⟩ := (foreign_error_bind hforeign not_escapes_integer).mp herror
  obtain ⟨_, _, herror⟩ := (foreign_error_bind hforeign not_escapes_integer).mp herror
  obtain ⟨inner, hinner, rfl⟩ := mapError_eq_error.mp herror
  obtain ⟨other, hother, rfl⟩ := mapError_eq_error.mp hinner
  obtain ⟨message, rfl⟩ := provenance_raises _ _ hother
  exact .inr ⟨message, rfl⟩

theorem intent_raises (fields : SourceIntent.Fields) :
    OnlyRaises (fun error => ∃ message, error = .source message) (SourceIntent.make fields) := by
  refine OnlyRaises.verified ?_
  unfold SourceIntent.Fields.postInit
  split
  · intro error herror
    exact ⟨_, (Except.error.inj herror).symm⟩
  refine OnlyRaises.bind (onlyRaises_require ⟨_, rfl⟩) fun _ => ?_
  have hmember {first second third fourth : Prop} [Decidable first] [Decidable second]
      [Decidable third] [Decidable fourth] {one two three four : String} :
      OnlyRaises (fun error => ∃ message, error = FrontendError.source message) (do
        require first (.source one)
        require second (.source two)
        require third (.source three)
        require fourth (.source four)) := by
    refine OnlyRaises.bind (onlyRaises_require ⟨_, rfl⟩) fun _ => ?_
    refine OnlyRaises.bind (onlyRaises_require ⟨_, rfl⟩) fun _ => ?_
    refine OnlyRaises.bind (onlyRaises_require ⟨_, rfl⟩) fun _ => ?_
    exact onlyRaises_require ⟨_, rfl⟩
  unfold SourceIntent.Fields.checkTarget
  cases fields.target with
  | function => exact hmember
  | method => exact hmember
  | constructor => exact onlyRaises_require ⟨_, rfl⟩
  | class_ => exact onlyRaises_require ⟨_, rfl⟩
  | enum => exact onlyRaises_require ⟨_, rfl⟩
  | field => exact onlyRaises_require ⟨_, rfl⟩

theorem not_escapes_intent {fields : SourceIntent.Fields} :
    ¬Escapes origin (labelled label (sourced (SourceIntent.make fields))) := by
  apply not_escapes_labelled
  intro error herror _
  obtain ⟨other, hother, rfl⟩ := mapError_eq_error.mp herror
  obtain ⟨message, rfl⟩ := intent_raises _ _ hother
  exact .inl ⟨message, rfl⟩

theorem escapes_marker : Escapes anyOrigin (parseMarker raw label) ↔ MarkerDefect raw label := by
  simp only [parseMarker, escapes_bind, not_escapes_object, not_escapes_keys, not_escapes_member,
    not_escapes_integer, not_escapes_pure, escapes_certify, escapes_require, and_true,
    jvmObject_eq_ok, jvmInteger_eq_ok, and_false, exists_false, or_false, false_or]
  constructor
  · rintro ⟨fields, hraw, _, hkeys, marker, hmarker, line, hline, column, hcolumn, hplace⟩
    exact .place hraw (jvmKeys_eq_ok.mp hkeys) hmarker hline hcolumn (by omega)
  · rintro ⟨hraw, hkeys, hmarker, hline, hcolumn, hplace⟩
    exact ⟨_, hraw, (), jvmKeys_eq_ok.mpr hkeys, _, hmarker, _, hline, _, hcolumn, by omega⟩

/-- The checks of an intent get a label; those of its markers do not. -/
theorem escapes_intent {target : DeclarationTarget} :
    Escapes anyOrigin (parseIntent raw target label) ↔ IntentDefect raw label := by
  rw [parseIntent, escapes_bind, escapes_items fun _ _ => escapes_marker]
  apply or_iff_left
  rintro ⟨occurrences, _, hescapes⟩
  exact not_escapes_intent hescapes

end Records

/-! ### Records that refuse -/

/-- A record refuses the values that it is built from. -/
def Refused {Item : Type} (body : Except FrontendError Item) : Prop :=
  ∃ error, body = .error error

theorem refused_of_escapes {Item : Type} {body : Except FrontendError Item}
    (hescapes : Escapes anyOrigin (sourced body)) : Refused body := by
  obtain ⟨error, herror, _⟩ := escapes_sourced.mp hescapes
  exact ⟨error, herror⟩

theorem escapes_of_refused {Item : Type} {body : Except FrontendError Item}
    (hrefused : Refused body) : Escapes anyOrigin (sourced body) := by
  obtain ⟨error, herror⟩ := hrefused
  exact escapes_sourced.mpr ⟨error, herror, trivial⟩

section Refused

variable {Item Result : Type} {first : Except FrontendError Item}
  {next : Item → Except FrontendError Result}

theorem refused_bind :
    Refused (first >>= next) ↔ Refused first ∨ ∃ item, first = .ok item ∧ Refused (next item) := by
  constructor
  · rintro ⟨error, herror⟩
    rcases bind_eq_error.mp herror with hfirst | ⟨item, hitem, hnext⟩
    · exact .inl ⟨error, hfirst⟩
    · exact .inr ⟨item, hitem, error, hnext⟩
  · rintro (⟨error, herror⟩ | ⟨item, hitem, error, herror⟩)
    · exact ⟨error, bind_eq_error.mpr (.inl herror)⟩
    · exact ⟨error, bind_eq_error.mpr (.inr ⟨item, hitem, herror⟩)⟩

@[simp] theorem not_refused_pure (item : Item) :
    ¬Refused (pure item : Except FrontendError Item) := by
  rintro ⟨error, herror⟩
  cases herror

theorem refused_certify {condition : Prop} [Decidable condition] {error : FrontendError} :
    Refused (certify (require condition error)) ↔ ¬condition := by
  constructor
  · rintro ⟨raised, hraised⟩
    exact (require_eq_error.mp (verified_eq_error.mp hraised)).1
  · intro hnot
    exact ⟨error, verified_eq_error.mpr (require_eq_error.mpr ⟨hnot, rfl⟩)⟩

theorem refused_verified {check : Except FrontendError Unit} {build : check = .ok () → Item} :
    Refused (verified check build) ↔ check ≠ .ok () := by
  simp only [Refused, verified_eq_error]
  cases check with
  | ok _ => simp
  | error error => simp

end Refused

theorem not_refused_constructor {provenance : SourceProvenance} {descriptor visibility : String}
    {parameters : List JvmParameterSource} {intent : SourceIntent} {adapter : String}
    (htarget : intent.target = .constructor) (hadapter : adapter ≠ "") :
    ¬Refused (JvmConstructorSource.make provenance descriptor parameters visibility intent
      adapter) := by
  simp only [JvmConstructorSource.make, refused_bind, refused_certify, not_refused_pure, and_false,
    exists_false, or_false]
  rintro (hnot | ⟨_, _, hnot⟩)
  · exact hnot htarget
  · exact hnot hadapter

theorem not_refused_field {provenance : SourceProvenance} {ownerId name : String}
    {type : JvmTypeSource} {intent : SourceIntent} {visibility : String} {mutable isStatic : Bool}
    {accessor : String} (htarget : intent.target = .field) (howner : ownerId ≠ "") :
    ¬Refused (JvmFieldSource.make provenance ownerId name type intent visibility mutable isStatic
      accessor) := by
  simp only [JvmFieldSource.make, refused_bind, refused_certify, not_refused_pure, and_false,
    exists_false, or_false]
  rintro (hnot | ⟨_, _, hnot⟩)
  · exact hnot htarget
  · exact hnot howner

theorem refused_declaration {provenance : SourceProvenance}
    {ownerId ownerClass name descriptor resultType visibility adapter : String}
    {parameters : List JvmParameterSource} {resultNullable isSuspend isStatic : Bool}
    {intent : SourceIntent} {language : JvmLanguage} {arguments : List JvmTypeSource}
    (htarget : intent.target = .function ∨ intent.target = .method)
    (hadapted : ownerId ≠ "" ∧ adapter ≠ "") :
    Refused (JvmDeclarationSource.make provenance ownerId ownerClass name descriptor parameters
        resultType resultNullable intent visibility adapter language isSuspend isStatic arguments) ↔
      DeclarationBroken language isSuspend intent parameters := by
  simp only [JvmDeclarationSource.make, refused_bind, refused_certify, certify_eq_ok, require_eq_ok,
    not_refused_pure, and_false, exists_false, or_false]
  constructor
  · rintro (hnot | ⟨_, _, hnot | ⟨_, _, hnot | ⟨_, _, hnot | ⟨_, _, hnot⟩⟩⟩⟩)
    · exact absurd htarget hnot
    · exact absurd hadapted hnot
    · obtain ⟨hsuspend, hlanguage⟩ := Classical.not_imp.mp hnot
      exact .inl ⟨hsuspend, .inl hlanguage⟩
    · obtain ⟨hsuspend, hasync⟩ := Classical.not_imp.mp hnot
      exact .inl ⟨hsuspend, .inr hasync⟩
    · push Not at hnot
      exact .inr hnot
  · intro hbroken
    refine .inr
      ⟨⟨require_eq_ok.mpr htarget⟩, htarget, .inr ⟨⟨require_eq_ok.mpr hadapted⟩, hadapted, ?_⟩⟩
    by_cases hkotlin : isSuspend = true → language = .kotlin
    · refine .inr ⟨⟨require_eq_ok.mpr hkotlin⟩, hkotlin, ?_⟩
      by_cases hasync : isSuspend = true → intent.execution = .async
      · refine .inr ⟨⟨require_eq_ok.mpr hasync⟩, hasync, ?_⟩
        rcases hbroken with ⟨hsuspend, hlanguage | hexecution⟩ | hinjected
        · exact absurd (hkotlin hsuspend) hlanguage
        · exact absurd (hasync hsuspend) hexecution
        · push Not
          exact hinjected
      · exact .inl hasync
    · exact .inl hkotlin

/-- Of the checks of an owner, those that the reader makes itself are passed. -/
theorem ownerBroken_iff {fields : JvmOwnerSource.Fields} {count : Int}
    (htarget : fields.intent.target = .class_)
    (hdeclarations : ∀ declaration ∈ fields.declarations,
      declaration.ownerDeclarationId = fields.provenance.declarationId ∧
        declaration.ownerClass = fields.ownerClass ∧ declaration.language = fields.language)
    (hfields : ∀ field ∈ fields.fields,
      field.ownerDeclarationId = fields.provenance.declarationId) :
    ¬(fields.Checked ∧ 0 ≤ count) ↔
      OwnerBroken fields.language fields.form fields.constructors fields.fields count := by
  constructor
  · intro hbroken
    by_contra hsound
    refine hbroken ⟨⟨htarget, ?_, ?_, ?_, ?_, hdeclarations, ?_⟩, ?_⟩
    · intro hform
      by_contra hlanguage
      exact hsound (.kotlinForm hform hlanguage)
    · intro hform
      by_contra hlanguage
      exact hsound (.javaForm hform hlanguage)
    · intro hform
      by_contra hconstructors
      exact hsound (.constructionFree hform hconstructors)
    · intro constructor hconstructor
      constructor
      · by_contra hlanguage
        exact hsound (.constructorLanguage hconstructor hlanguage)
      · intro parameter hparameter dependency hdependency
        by_contra htype
        exact hsound (.injected hconstructor hparameter hdependency htype)
    · intro field hfield
      refine ⟨hfields field hfield, ?_⟩
      by_contra hlanguage
      exact hsound (.fieldLanguage hfield hlanguage)
    · by_contra hcount
      exact hsound (.negative (by omega))
  · rintro hbroken ⟨hchecked, hcount⟩
    cases hbroken with
    | kotlinForm hform hlanguage => exact hlanguage (hchecked.kotlinForm hform)
    | javaForm hform hlanguage => exact hlanguage (hchecked.javaForm hform)
    | constructionFree hform hconstructors => exact hconstructors (hchecked.constructionFree hform)
    | constructorLanguage hmem hlanguage =>
        exact hlanguage (hchecked.ownConstructors _ hmem).1
    | injected hmem hparameter hdependency htype =>
        exact htype ((hchecked.ownConstructors _ hmem).2 _ hparameter _ hdependency)
    | fieldLanguage hmem hlanguage => exact hlanguage (hchecked.ownFields _ hmem).2
    | negative hnegative => omega

/-! ### Members -/

/-- Whatever the computation gives has the property. -/
def Yields {Error Item : Type} (property : Item → Prop) (body : Except Error Item) : Prop :=
  ∀ item, body = .ok item → property item

section Yields

variable {Error Value Item : Type} {property : Item → Prop}

theorem yields_bind {first : Except Error Value} {next : Value → Except Error Item}
    (hnext : ∀ value, Yields property (next value)) : Yields property (first >>= next) := by
  intro item hitem
  obtain ⟨value, _, hvalue⟩ := bind_eq_ok.mp hitem
  exact hnext value item hvalue

theorem yields_pure {item : Item} (hitem : property item) :
    Yields property (pure item : Except Error Item) := by
  intro other hother
  rw [← pure_eq_ok.mp hother]
  exact hitem

theorem yields_sourced {body : Except FrontendError Item} (hbody : Yields property body) :
    Yields property (sourced body) :=
  fun item hitem => hbody item (sourced_eq_ok.mp hitem)

end Yields

section Members

variable {sha256 : List UInt8 → String} {raw : Json} {label ownerClass ownerId : String}
  {language : JvmLanguage} {target : DeclarationTarget}

theorem not_escapes_identity {origin : JvmManifestError → Prop} {fields : Fields}
    {provenance : SourceProvenance} {expected : String} :
    ¬Escapes origin (verifyDeclarationIdentity sha256 fields provenance expected label) := by
  simp only [verifyDeclarationIdentity, escapes_bind, not_escapes_require, not_escapes_string,
    and_false, exists_false, or_false, not_false_eq_true]

theorem not_escapes_parameters {origin : JvmManifestError → Prop} (raw : Json) (label : String) :
    ¬Escapes origin (jvmItems parseParameter raw label) :=
  not_escapes_items not_escapes_parameter raw label

theorem not_escapes_arguments {origin : JvmManifestError → Prop} (raw : Json) (label : String) :
    ¬Escapes origin (jvmItems parseType raw label) :=
  not_escapes_items not_escapes_type raw label

theorem escapes_constructor (raw : Json) (label : String) :
    Escapes anyOrigin (parseConstructor sha256 ownerClass raw label) ↔
      ConstructorDefect sha256 ownerClass raw label := by
  simp only [parseConstructor, escapes_bind, not_escapes_object, not_escapes_keys,
    not_escapes_string, not_escapes_provenance, not_escapes_identity, not_escapes_parameters,
    escapes_intent, jvmObject_eq_ok, exists_unit, jvmKeys_eq_ok, false_or]
  constructor
  · rintro ⟨fields, hraw, hkeys, descriptor, hdescriptor, provenance, hsource, hidentity,
      parameters, hparameters, visibility, hvisibility, hrest⟩
    rcases hrest with hmarkers | ⟨intent, hintent, adapter, hadapter, hmake⟩
    · exact .markers hraw ⟨hkeys, ⟨descriptor, provenance, hdescriptor, hsource, hidentity⟩,
        ⟨parameters, hparameters⟩, ⟨visibility, hvisibility⟩⟩ hmarkers
    · exact absurd (refused_of_escapes hmake) (not_refused_constructor
        (target_of_parseIntent hintent) ((jvmString_eq_ok.mp hadapter).2))
  · rintro ⟨hraw, ⟨hkeys, ⟨descriptor, provenance, hdescriptor, hsource, hidentity⟩,
      ⟨parameters, hparameters⟩, ⟨visibility, hvisibility⟩⟩, hmarkers⟩
    exact ⟨_, hraw, hkeys, descriptor, hdescriptor, provenance, hsource, hidentity, parameters,
      hparameters, visibility, hvisibility, .inl hmarkers⟩

theorem escapes_field (raw : Json) (label : String) :
    Escapes anyOrigin (parseField ownerId raw label) ↔ FieldDefect ownerId raw label := by
  simp only [parseField, escapes_bind, not_escapes_object, not_escapes_keys, not_escapes_string,
    not_escapes_require, not_escapes_provenance, not_escapes_type, not_escapes_bool, escapes_intent,
    jvmObject_eq_ok, exists_unit, jvmKeys_eq_ok, require_eq_ok, false_or]
  constructor
  · rintro ⟨fields, hraw, hkeys, owner, howner, rfl, provenance, hsource, name, hname, type, htype,
      hrest⟩
    rcases hrest with hmarkers | ⟨intent, hintent, _, _, _, _, _, _, _, _, hmake⟩
    · exact .markers hraw ⟨hkeys, howner, ⟨provenance, hsource⟩, ⟨name, hname⟩, ⟨type, htype⟩⟩
        hmarkers
    · exact absurd (refused_of_escapes hmake) (not_refused_field
        (target_of_parseIntent hintent) ((jvmString_eq_ok.mp howner).2))
  · rintro ⟨hraw, ⟨hkeys, howner, ⟨provenance, hsource⟩, ⟨name, hname⟩, ⟨type, htype⟩⟩, hmarkers⟩
    exact ⟨_, hraw, hkeys, ownerId, howner, rfl, provenance, hsource, name, hname, type, htype,
      .inl hmarkers⟩

theorem escapes_declaration (htarget : target = .function ∨ target = .method) (raw : Json)
    (label : String) :
    Escapes anyOrigin (parseDeclaration sha256 language ownerClass ownerId target raw label) ↔
      DeclarationDefect sha256 language ownerClass ownerId target raw label := by
  simp only [parseDeclaration, escapes_bind, not_escapes_object, not_escapes_keys,
    not_escapes_string, not_escapes_member, not_escapes_require, not_escapes_provenance,
    not_escapes_identity, not_escapes_parameters, not_escapes_arguments, not_escapes_bool,
    escapes_intent, jvmObject_eq_ok, exists_unit, jvmKeys_eq_ok, require_eq_ok, false_or]
  constructor
  · rintro ⟨fields, hraw, hkeys, _, hlanguage, rfl, _, hclass, rfl, _, howner, rfl, name, hname,
      descriptor, hdescriptor, provenance, hsource, hidentity, parameters, hparameters, resultType,
      hresult, nullable, hnullable, hrest⟩
    have hhead : DeclarationHead sha256 _ _ _ fields label parameters :=
      ⟨hkeys, hlanguage, hclass, howner, ⟨name, descriptor, provenance, hname, hdescriptor, hsource,
        hidentity⟩, hparameters, ⟨resultType, nullable, hresult, hnullable⟩⟩
    rcases hrest with hmarkers | ⟨intent, hintent, visibility, hvisibility, adapter, hadapter,
      isSuspend, hsuspend, isStatic, hstatic, arguments, harguments, hmake⟩
    · exact .markers hraw hhead hmarkers
    · have hintentTarget : intent.target = .function ∨ intent.target = .method := by
        rw [target_of_parseIntent hintent]
        exact htarget
      exact .record hraw hhead hintent ⟨⟨visibility, hvisibility⟩, ⟨adapter, hadapter⟩, hsuspend,
        ⟨isStatic, hstatic⟩, ⟨arguments, harguments⟩⟩ ((refused_declaration hintentTarget
          ⟨(jvmString_eq_ok.mp howner).2, (jvmString_eq_ok.mp hadapter).2⟩).mp
            (refused_of_escapes hmake))
  · rintro (⟨hraw, ⟨hkeys, hlanguage, hclass, howner, ⟨name, descriptor, provenance, hname,
      hdescriptor, hsource, hidentity⟩, hparameters, ⟨resultType, nullable, hresult, hnullable⟩⟩,
      hmarkers⟩ | ⟨hraw, ⟨hkeys, hlanguage, hclass, howner, ⟨name, descriptor, provenance, hname,
      hdescriptor, hsource, hidentity⟩, hparameters, ⟨resultType, nullable, hresult, hnullable⟩⟩,
      hintent, ⟨⟨visibility, hvisibility⟩, ⟨adapter, hadapter⟩, hsuspend, ⟨isStatic, hstatic⟩,
      ⟨arguments, harguments⟩⟩, hbroken⟩)
    · exact ⟨_, hraw, hkeys, _, hlanguage, rfl, _, hclass, rfl, _, howner, rfl, name, hname,
        descriptor, hdescriptor, provenance, hsource, hidentity, _, hparameters, resultType,
        hresult, nullable, hnullable, .inl hmarkers⟩
    · refine ⟨_, hraw, hkeys, _, hlanguage, rfl, _, hclass, rfl, _, howner, rfl, name, hname,
        descriptor, hdescriptor, provenance, hsource, hidentity, _, hparameters, resultType,
        hresult, nullable, hnullable, .inr ⟨_, hintent, visibility, hvisibility, adapter, hadapter,
        _, hsuspend, isStatic, hstatic, arguments, harguments, ?_⟩⟩
      have hintentTarget := target_of_parseIntent hintent
      rw [← hintentTarget] at htarget
      exact escapes_of_refused ((refused_declaration htarget
        ⟨(jvmString_eq_ok.mp howner).2, (jvmString_eq_ok.mp hadapter).2⟩).mpr hbroken)

theorem declaration_of_parse :
    Yields (fun declaration => declaration.ownerDeclarationId = ownerId ∧
        declaration.ownerClass = ownerClass ∧ declaration.language = language)
      (parseDeclaration sha256 language ownerClass ownerId target raw label) := by
  unfold parseDeclaration
  repeat refine yields_bind fun _ => ?_
  refine yields_sourced ?_
  unfold JvmDeclarationSource.make
  repeat refine yields_bind fun _ => ?_
  exact yields_pure ⟨rfl, rfl, rfl⟩

theorem field_of_parse :
    Yields (fun field => field.ownerDeclarationId = ownerId) (parseField ownerId raw label) := by
  unfold parseField
  repeat refine yields_bind fun _ => ?_
  refine yields_sourced ?_
  unfold JvmFieldSource.make
  repeat refine yields_bind fun _ => ?_
  exact yields_pure rfl

end Members

/-! ### Owners -/

section Owners

variable {sha256 : List UInt8 → String}

theorem escapes_constructors {ownerClass : String} (raw : Json) (label : String) :
    Escapes anyOrigin (jvmItems (parseConstructor sha256 ownerClass) raw label) ↔
      ItemsDefect (parseConstructor sha256 ownerClass) (ConstructorDefect sha256 ownerClass) raw
        label :=
  escapes_items escapes_constructor

theorem escapes_fields {ownerId : String} (raw : Json) (label : String) :
    Escapes anyOrigin (jvmItems (parseField ownerId) raw label) ↔
      ItemsDefect (parseField ownerId) (FieldDefect ownerId) raw label :=
  escapes_items escapes_field

theorem escapes_declarations {language : JvmLanguage} {ownerClass ownerId : String}
    {intent : SourceIntent} (raw : Json) (label : String) :
    Escapes anyOrigin (jvmItems
        (parseDeclaration sha256 language ownerClass ownerId (memberTarget intent)) raw label) ↔
      ItemsDefect (parseDeclaration sha256 language ownerClass ownerId (memberTarget intent))
        (DeclarationDefect sha256 language ownerClass ownerId (memberTarget intent)) raw label :=
  escapes_items (escapes_declaration (memberTarget_callable intent))

theorem not_escapes_strings {origin : JvmManifestError → Prop} (raw : Json) (label : String) :
    ¬Escapes origin (jvmItems jvmString raw label) :=
  not_escapes_items (fun _ _ => not_escapes_string) raw label

/-- What is left of an owner when its fields are read: its own check. -/
theorem owner_record {fields : JvmOwnerSource.Fields} {count : Int} :
    ((∃ error, JvmOwnerSource.make fields = .error error) ∨
        ∃ owner, JvmOwnerSource.make fields = .ok owner ∧ ¬0 ≤ count) ↔
      ¬(fields.Checked ∧ 0 ≤ count) := by
  have hmake : Refused (JvmOwnerSource.make fields) ↔ ¬fields.Checked := by
    rw [JvmOwnerSource.make, refused_verified, ne_eq, JvmOwnerSource.Fields.postInit_eq_ok]
  constructor
  · rintro (hrefused | ⟨owner, _, hcount⟩) ⟨hchecked, hpositive⟩
    · exact hmake.mp hrefused hchecked
    · exact hcount hpositive
  · intro hbroken
    by_cases hchecked : fields.Checked
    · refine .inr ⟨JvmOwnerSource.ofChecked hchecked, JvmOwnerSource.make_eq_ok.mpr rfl, ?_⟩
      exact fun hpositive => hbroken ⟨hchecked, hpositive⟩
    · exact .inl (hmake.mpr hchecked)

section Record

variable {label ownerClass visibility name : String} {fields : Fields} {language : JvmLanguage}
  {provenance : SourceProvenance} {intent : SourceIntent} {form : JvmOwnerForm}
  {constructors : List JvmConstructorSource} {declarations : List JvmDeclarationSource}
  {members : List JvmFieldSource} {constants supertypes : List String}
  {isData isRecord isFinal : Bool} {count : Int}

/-- The members that are read refer to the owner. -/
theorem owner_record_broken
    (hintent : parseIntent (get fields "markers") .class_ s!"{label}.markers" = .ok intent)
    (hdeclarations : jvmItems (parseDeclaration sha256 language ownerClass
        provenance.declarationId (memberTarget intent))
      (get fields "declarations") s!"{label}.declarations" = .ok declarations)
    (hmembers : jvmItems (parseField provenance.declarationId) (get fields "fields")
      s!"{label}.fields" = .ok members) :
    ((∃ error, JvmOwnerSource.make
          { provenance, language, ownerClass, sourceName := name, form, intent, constructors,
            declarations, visibility, fields := members, enumConstants := constants, isData,
            isRecord, isFinal, typeParameterCount := count.toNat, supertypes } = .error error) ∨
        ∃ owner, JvmOwnerSource.make
          { provenance, language, ownerClass, sourceName := name, form, intent, constructors,
            declarations, visibility, fields := members, enumConstants := constants, isData,
            isRecord, isFinal, typeParameterCount := count.toNat, supertypes } = .ok owner ∧
              ¬0 ≤ count) ↔
      OwnerBroken language form constructors members count := by
  rw [owner_record, ownerBroken_iff]
  · exact target_of_parseIntent hintent
  · intro declaration hdeclaration
    obtain ⟨raw, label, hparse⟩ := jvmItems_eq_ok hdeclarations declaration hdeclaration
    exact declaration_of_parse declaration hparse
  · intro field hfield
    obtain ⟨raw, label, hparse⟩ := jvmItems_eq_ok hmembers field hfield
    exact field_of_parse field hparse

end Record

theorem escapes_owner (raw : Json) (label : String) :
    Escapes anyOrigin (parseOwner sha256 raw label) ↔ OwnerDefect sha256 raw label := by
  simp only [parseOwner, escapes_bind, not_escapes_object, not_escapes_keys, not_escapes_member,
    not_escapes_string, not_escapes_require, not_escapes_provenance, not_escapes_strings,
    not_escapes_bool, not_escapes_integer, not_escapes_pure, escapes_intent, escapes_constructors,
    escapes_declarations, escapes_fields, escapes_sourced, escapes_require, and_true,
    jvmObject_eq_ok, jvmInteger_eq_ok, sourced_eq_ok, exists_unit, jvmKeys_eq_ok, require_eq_ok,
    and_false, or_false, false_or]
  constructor
  · rintro ⟨fields, hraw, hkeys, language, hlanguage, ownerClass, hclass, provenance, hsource,
      hidentity, hsourceLanguage, hrest⟩
    have hhead : OwnerHead fields label language ownerClass provenance :=
      ⟨hkeys, hlanguage, hclass, hsource, hidentity, hsourceLanguage⟩
    rcases hrest with hmarkers | ⟨intent, hintent, name, hname, form, hform, hrest⟩
    · exact .markers hraw hhead hmarkers
    have hshape : OwnerShape fields label intent form := ⟨hintent, ⟨name, hname⟩, hform⟩
    rcases hrest with hdefect | ⟨constructors, hconstructors, hrest⟩
    · exact .constructors hraw hhead hshape hdefect
    rcases hrest with hdefect | ⟨declarations, hdeclarations, visibility, hvisibility, hrest⟩
    · exact .declarations hraw hhead hshape hconstructors hdefect
    rcases hrest with hdefect | ⟨members, hmembers, constants, hconstants, isData, hdata, isRecord,
      hrecord, isFinal, hfinal, count, hcount, supertypes, hsupertypes, hmake⟩
    · exact .members hraw hhead hshape hconstructors hdeclarations hvisibility hdefect
    · exact .record hraw hhead hshape hconstructors hdeclarations hvisibility hmembers
        ⟨⟨constants, hconstants⟩, ⟨isData, hdata⟩, ⟨isRecord, hrecord⟩, ⟨isFinal, hfinal⟩, hcount,
          ⟨supertypes, hsupertypes⟩⟩ ((owner_record_broken hintent hdeclarations hmembers).mp hmake)
  · intro hdefect
    cases hdefect with
    | markers hraw hhead hmarkers =>
        exact ⟨_, hraw, hhead.keys, _, hhead.sameLanguage, _, hhead.sameClass, _, hhead.source,
          hhead.identity, hhead.sourceLanguage, .inl hmarkers⟩
    | constructors hraw hhead hshape hdefect =>
        obtain ⟨name, hname⟩ := hshape.sourceName
        exact ⟨_, hraw, hhead.keys, _, hhead.sameLanguage, _, hhead.sameClass, _, hhead.source,
          hhead.identity, hhead.sourceLanguage, .inr ⟨_, hshape.intent, name, hname, _, hshape.form,
            .inl hdefect⟩⟩
    | declarations hraw hhead hshape hconstructors hdefect =>
        obtain ⟨name, hname⟩ := hshape.sourceName
        exact ⟨_, hraw, hhead.keys, _, hhead.sameLanguage, _, hhead.sameClass, _, hhead.source,
          hhead.identity, hhead.sourceLanguage, .inr ⟨_, hshape.intent, name, hname, _, hshape.form,
            .inr ⟨_, hconstructors, .inl hdefect⟩⟩⟩
    | members hraw hhead hshape hconstructors hdeclarations hvisibility hdefect =>
        obtain ⟨name, hname⟩ := hshape.sourceName
        exact ⟨_, hraw, hhead.keys, _, hhead.sameLanguage, _, hhead.sameClass, _, hhead.source,
          hhead.identity, hhead.sourceLanguage, .inr ⟨_, hshape.intent, name, hname, _, hshape.form,
            .inr ⟨_, hconstructors, .inr ⟨_, hdeclarations, _, hvisibility, .inl hdefect⟩⟩⟩⟩
    | record hraw hhead hshape hconstructors hdeclarations hvisibility hmembers htail hbroken =>
        obtain ⟨name, hname⟩ := hshape.sourceName
        obtain ⟨⟨constants, hconstants⟩, ⟨isData, hdata⟩, ⟨isRecord, hrecord⟩, ⟨isFinal, hfinal⟩,
          hcount, ⟨supertypes, hsupertypes⟩⟩ := htail
        exact ⟨_, hraw, hhead.keys, _, hhead.sameLanguage, _, hhead.sameClass, _, hhead.source,
          hhead.identity, hhead.sourceLanguage, .inr ⟨_, hshape.intent, name, hname, _, hshape.form,
            .inr ⟨_, hconstructors, .inr ⟨_, hdeclarations, _, hvisibility, .inr ⟨_, hmembers,
              constants, hconstants, isData, hdata, isRecord, hrecord, isFinal, hfinal, _, hcount,
              supertypes, hsupertypes,
              (owner_record_broken hshape.intent hdeclarations hmembers).mpr hbroken⟩⟩⟩⟩⟩

/-! ### Manifests -/

theorem onlyRaises_checkEach {Item Error : Type} {kind : Error → Prop}
    {check : Item → Except Error Unit} (hcheck : ∀ item, OnlyRaises kind (check item))
    (items : List Item) : OnlyRaises kind (checkEach items check) := by
  induction items with
  | nil =>
      intro error herror
      cases herror
  | cons item items ih => exact OnlyRaises.bind (hcheck item) fun _ => ih

theorem onlyRaises_identity {provenance : SourceProvenance} {adapter expected : String} :
    OnlyRaises (fun error => ∃ message, error = JvmManifestError.manifest message)
      (JvmSourceManifest.validateIdentity sha256 provenance adapter expected) := by
  unfold JvmSourceManifest.validateIdentity
  refine OnlyRaises.bind (onlyRaises_require ⟨_, rfl⟩) fun _ => ?_
  exact onlyRaises_require ⟨_, rfl⟩

theorem onlyRaises_validateOwner (owner : JvmOwnerSource) :
    OnlyRaises (fun error => ∃ message, error = JvmManifestError.manifest message)
      (JvmSourceManifest.validateOwner sha256 owner) := by
  unfold JvmSourceManifest.validateOwner
  refine OnlyRaises.bind (onlyRaises_require ⟨_, rfl⟩) fun _ => ?_
  refine OnlyRaises.bind (onlyRaises_checkEach (fun _ => onlyRaises_identity) _) fun _ => ?_
  refine OnlyRaises.bind (onlyRaises_checkEach (fun _ => onlyRaises_identity) _) fun _ => ?_
  refine onlyRaises_checkEach (fun _ => ?_) _
  refine OnlyRaises.bind (onlyRaises_require ⟨_, rfl⟩) fun _ => ?_
  exact onlyRaises_require ⟨_, rfl⟩

/-- The checks of a manifest raise errors of the manifest. -/
theorem not_escapes_make {origin : JvmManifestError → Prop} (manifest : JvmSourceManifest.Fields) :
    ¬Escapes origin (JvmSourceManifest.make manifest : Except _ (JvmSourceManifest sha256)) := by
  have hraises : OnlyRaises (fun error => ∃ message, error = JvmManifestError.manifest message)
      (manifest.postInit sha256) := by
    unfold JvmSourceManifest.Fields.postInit
    refine OnlyRaises.bind (onlyRaises_require ⟨_, rfl⟩) fun _ => ?_
    refine OnlyRaises.bind (onlyRaises_require ⟨_, rfl⟩) fun _ => ?_
    refine OnlyRaises.bind (onlyRaises_require ⟨_, rfl⟩) fun _ => ?_
    refine OnlyRaises.bind (onlyRaises_require ⟨_, rfl⟩) fun _ => ?_
    exact onlyRaises_checkEach onlyRaises_validateOwner _
  rw [JvmSourceManifest.make, escapes_verified]
  rintro ⟨error, herror, hforeign, _⟩
  obtain ⟨message, rfl⟩ := hraises error herror
  exact hforeign message rfl

theorem not_escapes_schema {origin : JvmManifestError → Prop} (raw : Json) :
    ¬Escapes origin (parseManifest.parseSchema raw) := by
  cases raw with
  | string schema =>
      simp only [parseManifest.parseSchema, escapes_bind, not_escapes_require, not_escapes_pure,
        and_false, exists_false, or_false, not_false_eq_true]
  | _ => exact not_escapes_manifest _

theorem parseSchema_eq_ok {raw : Json} {schema : String} :
    parseManifest.parseSchema raw = .ok schema ↔
      schema = jvmManifestSchemaVersion ∧ raw = .string jvmManifestSchemaVersion := by
  cases raw with
  | string text =>
      simp only [parseManifest.parseSchema, bind_eq_ok, exists_unit, require_eq_ok, pure_eq_ok,
        Json.string.injEq]
      constructor
      · rintro ⟨_, rfl, rfl⟩
        exact ⟨rfl, rfl⟩
      · rintro ⟨rfl, rfl⟩
        exact ⟨by decide, rfl, rfl⟩
  | _ => simp [parseManifest.parseSchema]

theorem escapes_parseManifest (raw : Json) (expectedFeatureId : Option String) :
    Escapes anyOrigin (parseManifest sha256 raw expectedFeatureId) ↔
      ∃ fields, raw = .object fields ∧ ManifestHead fields expectedFeatureId ∧
        ItemsDefect (parseOwner sha256) (OwnerDefect sha256) (get fields "owners") "owners" := by
  have howners (raw : Json) (label : String) :
      Escapes anyOrigin (jvmItems (parseOwner sha256) raw label) ↔
        ItemsDefect (parseOwner sha256) (OwnerDefect sha256) raw label :=
    escapes_items escapes_owner
  simp only [parseManifest, escapes_bind, not_escapes_object, not_escapes_keys, not_escapes_schema,
    not_escapes_string, not_escapes_require, not_escapes_make, not_escapes_list, howners,
    jvmObject_eq_ok, jvmList_eq_ok, exists_unit, jvmKeys_eq_ok, parseSchema_eq_ok, require_eq_ok,
    and_false, exists_false, or_false, false_or]
  constructor
  · rintro ⟨fields, hraw, hkeys, _, ⟨_, hschema⟩, _, hkindOk, rfl, featureId, hfeature, hexpected,
      items, hitems, version, hversion, hdefect⟩
    rw [← hitems] at hdefect
    exact ⟨fields, hraw,
      ⟨hkeys, hschema, (jvmString_eq_ok.mp hkindOk).1, ⟨featureId, hfeature, hexpected⟩,
      ⟨version, hversion⟩⟩, hdefect⟩
  · rintro ⟨fields, hraw, ⟨hkeys, hschema, hkindOk, ⟨featureId, hfeature, hexpected⟩,
      ⟨version, hversion⟩⟩, hdefect⟩
    obtain ⟨items, hitems, hfirst⟩ := hdefect
    exact ⟨fields, hraw, hkeys, _, ⟨rfl, hschema⟩, _, jvmString_eq_ok.mpr ⟨hkindOk, by decide⟩, rfl,
      featureId, hfeature, hexpected, items, hitems, version, hversion, items, rfl, hfirst⟩

/-! ### Files -/

/-- An error that says that the file has not been read. -/
def OfFile (error : JvmManifestError) : Prop :=
  ∃ path, error = .unreadable path

theorem not_ofFile_source (error : FrontendError) : ¬OfFile (.source error) := by
  rintro ⟨path, hpath⟩
  cases hpath

theorem not_ofFile_sourced {Item : Type} {body : Except FrontendError Item} :
    ¬Escapes OfFile (sourced body) := by
  rw [escapes_sourced]
  rintro ⟨error, _, horigin⟩
  exact not_ofFile_source error horigin

theorem not_ofFile_marker (raw : Json) (label : String) :
    ¬Escapes OfFile (parseMarker raw label) := by
  simp only [parseMarker, escapes_bind, not_escapes_object, not_escapes_keys, not_escapes_member,
    not_escapes_integer, not_escapes_pure, escapes_certify, escapes_require, not_ofFile_source,
    and_false, exists_false, or_false, not_false_eq_true]

theorem not_ofFile_intent {raw : Json} {target : DeclarationTarget} {label : String} :
    ¬Escapes OfFile (parseIntent raw target label) := by
  have hmarkers := not_escapes_items not_ofFile_marker raw label
  simp only [parseIntent, escapes_bind, hmarkers, not_escapes_intent, and_false, exists_false,
    or_false, not_false_eq_true]

theorem not_ofFile_constructor {ownerClass : String} (raw : Json) (label : String) :
    ¬Escapes OfFile (parseConstructor sha256 ownerClass raw label) := by
  simp only [parseConstructor, escapes_bind, not_escapes_object, not_escapes_keys,
    not_escapes_string, not_escapes_provenance, not_escapes_identity, not_escapes_parameters,
    not_ofFile_intent, not_ofFile_sourced, and_false, exists_false, or_false, not_false_eq_true]

theorem not_ofFile_declaration {language : JvmLanguage} {ownerClass ownerId : String}
    {target : DeclarationTarget} (raw : Json) (label : String) :
    ¬Escapes OfFile (parseDeclaration sha256 language ownerClass ownerId target raw label) := by
  simp only [parseDeclaration, escapes_bind, not_escapes_object, not_escapes_keys,
    not_escapes_string, not_escapes_member, not_escapes_require, not_escapes_provenance,
    not_escapes_identity, not_escapes_parameters, not_escapes_arguments, not_escapes_bool,
    not_ofFile_intent, not_ofFile_sourced, and_false, exists_false, or_false, not_false_eq_true]

theorem not_ofFile_field {ownerId : String} (raw : Json) (label : String) :
    ¬Escapes OfFile (parseField ownerId raw label) := by
  simp only [parseField, escapes_bind, not_escapes_object, not_escapes_keys, not_escapes_string,
    not_escapes_require, not_escapes_provenance, not_escapes_type, not_escapes_bool,
    not_ofFile_intent, not_ofFile_sourced, and_false, exists_false, or_false, not_false_eq_true]

theorem not_ofFile_owner (raw : Json) (label : String) :
    ¬Escapes OfFile (parseOwner sha256 raw label) := by
  have hconstructors {ownerClass : String} := not_escapes_items
    (@not_ofFile_constructor sha256 ownerClass)
  have hdeclarations {language : JvmLanguage} {ownerClass ownerId : String}
      {target : DeclarationTarget} := not_escapes_items
    (@not_ofFile_declaration sha256 language ownerClass ownerId target)
  have hfields {ownerId : String} := not_escapes_items (@not_ofFile_field ownerId)
  simp only [parseOwner, escapes_bind, not_escapes_object, not_escapes_keys, not_escapes_member,
    not_escapes_string, not_escapes_require, not_escapes_provenance, not_escapes_strings,
    not_escapes_bool, not_escapes_integer, not_escapes_pure, not_ofFile_intent, hconstructors,
    hdeclarations, hfields, not_ofFile_sourced, escapes_require, not_ofFile_source, and_false,
    exists_false, or_false, not_false_eq_true]

/-- What is wrong with the value of a file is not said of the file. -/
theorem not_ofFile_parseManifest (raw : Json) (expectedFeatureId : Option String) :
    ¬Escapes OfFile (parseManifest sha256 raw expectedFeatureId) := by
  have howners := not_escapes_items (@not_ofFile_owner sha256)
  simp only [parseManifest, escapes_bind, not_escapes_object, not_escapes_keys, not_escapes_schema,
    not_escapes_string, not_escapes_require, not_escapes_make, not_escapes_list, howners, and_false,
    exists_false, or_false, not_false_eq_true]

theorem startsWith_self_append (path rest : String) : startsWith (path ++ rest) path = true :=
  startsWith_iff.mpr ⟨rest, rfl⟩

/-- The reader puts the path in front of its own errors. -/
theorem namesFile_located {Item : Type} {path : String} {body : Except JvmManifestError Item}
    (hbody : ¬Escapes OfFile body) :
    NamesFile path (body.mapError (located path)) ↔ ¬Escapes anyOrigin body := by
  cases body with
  | ok item => exact iff_of_true (.read item) (not_escapes_ok item)
  | error error =>
      cases error with
      | manifest message =>
          apply iff_of_true _ (not_escapes_manifest message)
          have hlocated : Except.mapError (located path)
              (.error (.manifest message) : Except JvmManifestError Item) =
                .error (if startsWith message path then .manifest message
                  else .manifest s!"{path}: {message}") := rfl
          rw [hlocated]
          by_cases hstarts : startsWith message path = true
          · rw [if_pos hstarts]
            exact .refused hstarts
          · rw [if_neg hstarts]
            apply NamesFile.refused
            rw [String.append_assoc]
            exact startsWith_self_append path _
      | source error =>
          refine iff_of_false ?_ fun hstays => hstays ⟨_, rfl, foreign_source error, trivial⟩
          intro hnames
          cases hnames
      | unreadable other =>
          refine absurd ⟨_, rfl, ?_, other, rfl⟩ hbody
          intro message hmessage
          cases hmessage

theorem readJvmManifest_of_loads {parseFloat : List Char → Json} {path text : String}
    {content : List UInt8} {raw : Json} {expectedFeatureId : Option String}
    (htext : decodeUtf8 content = some text)
    (hraw : Json.loads parseFloat text.toList = some raw) :
    readJvmManifest sha256 parseFloat path content expectedFeatureId =
      (parseManifest sha256 raw expectedFeatureId).mapError (located path) := by
  rw [readJvmManifest, htext]
  change (demand (Json.loads parseFloat text.toList) (JvmManifestError.unreadable path) >>=
    fun raw => _) = _
  rw [hraw]
  rfl

/-- **Where reading ends.** Reading a file ends with the manifest in it or with an error of the
manifest that starts with the path, unless the first thing that is wrong with the file is a record
that refuses what the reader has taken. Lone surrogates, which no string here can hold, and the
limit of Python's recursion are left aside. -/
theorem readJvmManifest_namesFile_iff (sha256 : List UInt8 → String) (parseFloat : List Char → Json)
    (path : String) (content : List UInt8) (expectedFeatureId : Option String) :
    NamesFile path (readJvmManifest sha256 parseFloat path content expectedFeatureId) ↔
      ¬FileDefect sha256 parseFloat content expectedFeatureId := by
  rw [readJvmManifest]
  cases htext : decodeUtf8 content with
  | none =>
      apply iff_of_true .unreadable
      rintro ⟨hdecoded, _, _, _⟩
      rw [htext] at hdecoded
      cases hdecoded
  | some text =>
      cases hraw : Json.loads parseFloat text.toList with
      | none =>
          have hreads : NamesFile path (do
              let raw ← demand (Json.loads parseFloat text.toList) (.unreadable path)
              (parseManifest sha256 raw expectedFeatureId).mapError (located path)) := by
            rw [hraw]
            exact .unreadable
          apply iff_of_true hreads
          rintro ⟨hdecoded, hloaded, _, _⟩
          rw [htext] at hdecoded
          rw [← Option.some.inj hdecoded, hraw] at hloaded
          cases hloaded
      | some raw =>
          rw [← htext, ← readJvmManifest, readJvmManifest_of_loads htext hraw,
            namesFile_located (not_ofFile_parseManifest raw expectedFeatureId),
            escapes_parseManifest]
          apply not_congr
          constructor
          · rintro ⟨fields, rfl, hhead, howners⟩
            exact .owners htext hraw hhead howners
          · rintro ⟨hdecoded, hloaded, hhead, howners⟩
            rw [htext] at hdecoded
            rw [← Option.some.inj hdecoded, hraw] at hloaded
            exact ⟨_, Option.some.inj hloaded, hhead, howners⟩

end Owners

end SupernoteModule.Frontend
