import SupernoteModule.Frontend.JvmManifest
import SupernoteModule.Python.JsonOrder

/-!
# The JVM manifest round trip

The reader looks at dictionaries by key only, so it reads a value and the value with its keys sorted
alike. What it accepts is written in a form it accepts again.
-/

namespace SupernoteModule.Frontend

open SupernoteModule.Lib SupernoteModule.Python SupernoteModule.Semantic
open SupernoteModule.Python.Json
  (Fields get keys hasExactly Reordered ReorderedField hasExactly_iff)

/-! ### Values in another order of keys -/

/-- Two dictionaries that differ in the order of keys only, here or further down. -/
structure SameDictionary (lefts rights : Fields) : Prop where
  keys : ∀ key, key ∈ Json.keys lefts ↔ key ∈ Json.keys rights
  values : ∀ key, Reordered [] (get lefts key) (get rights key)

theorem reordered_of_field {key : String} {left right : Json}
    (hfield : ReorderedField [] key left right) : Reordered [] left right := by
  cases hfield with
  | ordered hvalue => exact hvalue
  | unordered hunordered => cases hunordered

theorem get_of_not_mem {fields : Fields} {key : String} (habsent : key ∉ keys fields) :
    get fields key = .null := by
  have hlookup : fields.lookup key = none := by
    rw [List.lookup_eq_none_iff]
    intro field hfield
    rw [bne_iff_ne]
    intro heq
    exact habsent (heq ▸ List.mem_map_of_mem hfield)
  rw [Json.get, hlookup]
  rfl

theorem get_cons_self {key name : String} {raw : Json} {fields : Fields} (hkey : key = name) :
    get ((name, raw) :: fields) key = raw := by
  simp [Json.get, hkey]

theorem get_cons_ne {key name : String} {raw : Json} {fields : Fields} (hkey : key ≠ name) :
    get ((name, raw) :: fields) key = get fields key := by
  have hbeq : (key == name) = false := by simpa using hkey
  simp [Json.get, List.lookup_cons, hbeq]

/-- The types under a key are those of the list found there. -/
theorem parseTypesAt_eq (fields : Fields) (key label : String) :
    parseTypesAt fields key label = parseTypes (get fields key) label := by
  induction fields with
  | nil => rfl
  | cons field fields ih =>
      obtain ⟨name, raw⟩ := field
      rw [parseTypesAt]
      by_cases hkey : key = name
      · rw [if_pos hkey, get_cons_self hkey]
      · rw [if_neg hkey, get_cons_ne hkey, ih]

theorem reordered_cases {left right : Json} (hreordered : Reordered [] left right) :
    left = right ∨
      (∃ lefts rights, left = .array lefts ∧ right = .array rights ∧
        List.Forall₂ (Reordered []) lefts rights) ∨
      ∃ lefts rights, left = .object lefts ∧ right = .object rights ∧
        SameDictionary lefts rights := by
  cases hreordered with
  | same => exact .inl rfl
  | array hitems => exact .inr (.inl ⟨_, _, rfl, rfl, hitems⟩)
  | @object lefts rights hkeys hfields =>
      refine .inr (.inr ⟨_, _, rfl, rfl, hkeys, ?_⟩)
      intro key
      by_cases hkey : key ∈ keys rights
      · exact reordered_of_field (hfields key hkey)
      · rw [get_of_not_mem hkey, get_of_not_mem fun hleft => hkey ((hkeys key).mp hleft)]
        exact .same _

/-- The step reads values alike that differ in the order of keys only. -/
def Stable {Item : Type} (step : Json → String → Except JvmManifestError Item) : Prop :=
  ∀ ⦃left right : Json⦄ (label : String), Reordered [] left right →
    step left label = step right label

theorem stable_string : Stable jvmString := by
  intro left right label hreordered
  rcases reordered_cases hreordered with rfl | ⟨_, _, rfl, rfl, _⟩ | ⟨_, _, rfl, rfl, _⟩ <;> rfl

theorem stable_integer : Stable jvmInteger := by
  intro left right label hreordered
  rcases reordered_cases hreordered with rfl | ⟨_, _, rfl, rfl, _⟩ | ⟨_, _, rfl, rfl, _⟩ <;> rfl

theorem stable_bool : Stable jvmBool := by
  intro left right label hreordered
  rcases reordered_cases hreordered with rfl | ⟨_, _, rfl, rfl, _⟩ | ⟨_, _, rfl, rfl, _⟩ <;> rfl

theorem stable_member {Member : Type} [Enumeration Member] :
    Stable (jvmMember : Json → String → Except JvmManifestError Member) := by
  intro left right label hreordered
  rw [jvmMember, jvmMember, stable_string label hreordered]

theorem stable_items {Item : Type} {step : Json → String → Except JvmManifestError Item}
    (hstep : Stable step) : Stable (jvmItems step) := by
  intro left right label hreordered
  rcases reordered_cases hreordered with rfl | ⟨lefts, rights, rfl, rfl, hitems⟩ |
    ⟨_, _, rfl, rfl, _⟩
  · rfl
  · have henumerate : ∀ index,
        enumerate (fun item index => step item s!"{label}[{index}]") index lefts =
          enumerate (fun item index => step item s!"{label}[{index}]") index rights := by
      clear hreordered
      induction hitems with
      | nil => exact fun _ => rfl
      | cons hitem _ ih =>
          intro index
          rw [enumerate, enumerate, hstep _ hitem, ih]
    exact henumerate 0
  · rfl

/-- A reader of dictionaries that reads them by key. -/
theorem stable_object {Item : Type} {body : String → Fields → Except JvmManifestError Item}
    (hbody : ∀ label lefts rights, SameDictionary lefts rights →
      body label lefts = body label rights) :
    Stable fun raw label => jvmObject raw label >>= body label := by
  intro left right label hreordered
  rcases reordered_cases hreordered with rfl | ⟨_, _, rfl, rfl, _⟩ |
    ⟨lefts, rights, rfl, rfl, hsame⟩
  · rfl
  · rfl
  · exact hbody label lefts rights hsame

namespace SameDictionary

variable {lefts rights : Fields}

theorem keysOf (hsame : SameDictionary lefts rights) (expected : List String) (label : String) :
    jvmKeys lefts expected label = jvmKeys rights expected label := by
  have hexactly : hasExactly lefts expected = hasExactly rights expected := by
    rw [Bool.eq_iff_iff, hasExactly_iff, hasExactly_iff]
    simp only [hsame.keys]
  have hmissing : expected.filter (· ∉ Json.keys lefts) =
    expected.filter (· ∉ Json.keys rights) := by
    simp only [hsame.keys]
  have hextra : sortedSet ((Json.keys lefts).filter (· ∉ expected)) =
      sortedSet ((Json.keys rights).filter (· ∉ expected)) := by
    apply sortedSet_eq_of_mem_iff
    intro key
    simp only [List.mem_filter, hsame.keys]
  rw [jvmKeys, jvmKeys, fieldsProblem, fieldsProblem, hmissing, hextra, hexactly]

theorem read {Item : Type} {step : Json → String → Except JvmManifestError Item}
    (hsame : SameDictionary lefts rights) (hstep : Stable step) (key label : String) :
    step (get lefts key) label = step (get rights key) label :=
  hstep label (hsame.values key)

end SameDictionary

/-! ### Readers do not care for the order of keys -/

mutual

theorem parseType_reordered : (left : Json) → ∀ (right : Json) (label : String),
    Reordered [] left right → parseType left label = parseType right label
  | .object fields, right, label, hreordered => by
      rcases reordered_cases hreordered with rfl | ⟨_, _, hleft, _⟩ |
        ⟨lefts, rights, hleft, rfl, hsame⟩
      · rfl
      · cases hleft
      · cases hleft
        have harguments := hsame.values "arguments"
        have hleft := parseTypesAt_reordered fields "arguments" _ s!"{label}.arguments" harguments
        have hright := parseTypesAt_eq rights "arguments" s!"{label}.arguments"
        rw [parseType, parseType, hsame.keysOf, hsame.read stable_string, hsame.read stable_bool,
          hleft, hright]
  | .array _, right, label, hreordered => by
      rcases reordered_cases hreordered with rfl | ⟨_, _, _, rfl, _⟩ | ⟨_, _, hleft, _⟩
      · rfl
      · rfl
      · cases hleft
  | .null, right, label, hreordered | .bool _, right, label, hreordered
  | .integer _, right, label, hreordered | .real _, right, label, hreordered
  | .string _, right, label, hreordered => by
      rcases reordered_cases hreordered with rfl | ⟨_, _, hleft, _⟩ | ⟨_, _, hleft, _⟩
      · rfl
      · cases hleft
      · cases hleft

theorem parseTypesAt_reordered :
    (fields : Fields) → ∀ (key : String) (right : Json) (label : String),
    Reordered [] (get fields key) right → parseTypesAt fields key label = parseTypes right label
  | [], key, right, label, hreordered => by
      rcases reordered_cases hreordered with rfl | ⟨_, _, hleft, _⟩ | ⟨_, _, hleft, _⟩
      · rfl
      · cases hleft
      · cases hleft
  | (name, raw) :: fields, key, right, label, hreordered => by
      rw [parseTypesAt]
      by_cases hkey : key = name
      · rw [if_pos hkey]
        rw [get_cons_self hkey] at hreordered
        exact parseTypes_reordered raw right label hreordered
      · rw [if_neg hkey]
        rw [get_cons_ne hkey] at hreordered
        exact parseTypesAt_reordered fields key right label hreordered

theorem parseTypes_reordered : (left : Json) → ∀ (right : Json) (label : String),
    Reordered [] left right → parseTypes left label = parseTypes right label
  | .array items, right, label, hreordered => by
      rcases reordered_cases hreordered with rfl | ⟨_, rights, hleft, rfl, hitems⟩ |
        ⟨_, _, hleft, _⟩
      · rfl
      · cases hleft
        exact parseTypesFrom_reordered items rights 0 label hitems
      · cases hleft
  | .object _, right, label, hreordered => by
      rcases reordered_cases hreordered with rfl | ⟨_, _, hleft, _⟩ | ⟨_, _, _, rfl, _⟩
      · rfl
      · cases hleft
      · rfl
  | .null, right, label, hreordered | .bool _, right, label, hreordered
  | .integer _, right, label, hreordered | .real _, right, label, hreordered
  | .string _, right, label, hreordered => by
      rcases reordered_cases hreordered with rfl | ⟨_, _, hleft, _⟩ | ⟨_, _, hleft, _⟩
      · rfl
      · cases hleft
      · cases hleft

theorem parseTypesFrom_reordered : (lefts : List Json) → ∀ (rights : List Json) (index : Nat)
    (label : String), List.Forall₂ (Reordered []) lefts rights →
      parseTypesFrom lefts index label = parseTypesFrom rights index label
  | [], rights, index, label, hitems => by
      cases hitems
      rfl
  | left :: lefts, rights, index, label, hitems => by
      cases hitems with
      | cons hitem hrest =>
          rw [parseTypesFrom, parseTypesFrom, parseType_reordered left _ _ hitem,
            parseTypesFrom_reordered lefts _ _ _ hrest]

end

theorem stable_parseType : Stable parseType :=
  fun left right label => parseType_reordered left right label

theorem stable_parseParameter : Stable parseParameter := by
  apply stable_object
  intro label lefts rights hsame
  have hinjected : Stable parseParameter.parseInjected := by
    intro left right label hreordered
    rcases reordered_cases hreordered with rfl | ⟨_, _, rfl, rfl, _⟩ | ⟨_, _, rfl, rfl, _⟩ <;> rfl
  simp only [hsame.keysOf, hsame.read hinjected, hsame.read stable_string, hsame.read stable_bool,
    hsame.read (stable_items stable_parseType)]

theorem stable_parseMarker : Stable parseMarker := by
  apply stable_object
  intro label lefts rights hsame
  simp only [hsame.keysOf, hsame.read stable_member, hsame.read stable_integer]

theorem stable_parseIntent (target : DeclarationTarget) :
    Stable fun raw label => parseIntent raw target label := by
  intro left right label hreordered
  simp only [parseIntent, stable_items stable_parseMarker label hreordered]

theorem stable_parseProvenance : Stable parseProvenance := by
  apply stable_object
  intro label lefts rights hsame
  simp only [hsame.keysOf, hsame.read stable_string, hsame.read stable_integer]

section Owners

variable (sha256 : List UInt8 → String)

theorem stable_parseConstructor (ownerClass : String) :
    Stable (parseConstructor sha256 ownerClass) := by
  apply stable_object
  intro label lefts rights hsame
  simp only [verifyDeclarationIdentity, hsame.keysOf, hsame.read stable_string,
    hsame.read stable_parseProvenance, hsame.read (stable_items stable_parseParameter),
    hsame.read (stable_parseIntent .constructor)]

theorem stable_parseDeclaration (language : JvmLanguage) (ownerClass ownerId : String)
    (target : DeclarationTarget) :
    Stable (parseDeclaration sha256 language ownerClass ownerId target) := by
  apply stable_object
  intro label lefts rights hsame
  simp only [verifyDeclarationIdentity, hsame.keysOf, hsame.read stable_string,
    hsame.read stable_bool, hsame.read stable_member, hsame.read stable_parseProvenance,
    hsame.read (stable_items stable_parseParameter), hsame.read (stable_parseIntent target),
    hsame.read (stable_items stable_parseType)]

theorem stable_parseField (ownerId : String) : Stable (parseField ownerId) := by
  apply stable_object
  intro label lefts rights hsame
  simp only [hsame.keysOf, hsame.read stable_string, hsame.read stable_bool,
    hsame.read stable_parseProvenance, hsame.read stable_parseType,
    hsame.read (stable_parseIntent .field)]

theorem stable_parseOwner : Stable (parseOwner sha256) := by
  apply stable_object
  intro label lefts rights hsame
  simp only [hsame.keysOf, hsame.read stable_string, hsame.read stable_bool,
    hsame.read stable_integer, hsame.read stable_member, hsame.read stable_parseProvenance,
    hsame.read (stable_parseIntent .class_),
    hsame.read (stable_items (stable_parseConstructor sha256 _)),
    hsame.read (stable_items (stable_parseDeclaration sha256 _ _ _ _)),
    hsame.read (stable_items (stable_parseField _)), hsame.read (stable_items stable_string)]

/-- A list that is read only after something else. -/
theorem jvmList_reordered {Item Output : Type} {step : Json → String → Except JvmManifestError Item}
    (hstep : Stable step) {left right : Json} (hreordered : Reordered [] left right)
    (label itemsLabel : String)
    (next : Except JvmManifestError (List Item) → Except JvmManifestError Output) :
    (jvmList left label >>= fun items => next (jvmItems step (.array items) itemsLabel)) =
      jvmList right label >>= fun items => next (jvmItems step (.array items) itemsLabel) := by
  rcases reordered_cases hreordered with rfl | ⟨lefts, rights, rfl, rfl, hitems⟩ |
    ⟨_, _, rfl, rfl, _⟩
  · rfl
  · have hsame := stable_items hstep itemsLabel hreordered
    exact congrArg next hsame
  · rfl

/-- A schema that is accepted has no dictionary in it. Only the error of one that is refused shows
the order of its keys. -/
theorem parseSchema_reordered {left right : Json} (hreordered : Reordered [] left right)
    {schema : String} (hread : parseManifest.parseSchema right = .ok schema) : left = right := by
  rcases reordered_cases hreordered with rfl | ⟨_, _, rfl, rfl, _⟩ | ⟨_, _, rfl, rfl, _⟩
  · rfl
  · cases hread
  · cases hread

/-- Dictionaries in another order of keys are read as the same manifest. -/
theorem parseManifest_reordered {left right : Json} (hreordered : Reordered [] left right)
    {expectedFeatureId : Option String} {source : JvmSourceManifest sha256}
    (hread : parseManifest sha256 right expectedFeatureId = .ok source) :
    parseManifest sha256 left expectedFeatureId = .ok source := by
  rw [← hread]
  rcases reordered_cases hreordered with rfl | ⟨_, _, rfl, rfl, _⟩ |
    ⟨lefts, rights, rfl, rfl, hsame⟩
  · rfl
  · rfl
  · have howners := @jvmList_reordered _ (JvmSourceManifest sha256) _ (stable_parseOwner sha256) _ _
      (hsame.values "owners") "owners" "owners"
    have hbind (fields : Fields) {Output : Type} (next : Fields → Except JvmManifestError Output) :
        (jvmObject (.object fields) "manifest" >>= next) = next fields := rfl
    have hschema : get lefts "schema_version" = get rights "schema_version" := by
      rw [parseManifest, hbind] at hread
      obtain ⟨_, _, hread⟩ := bind_eq_ok.mp hread
      obtain ⟨_, hschema, _⟩ := bind_eq_ok.mp hread
      exact parseSchema_reordered (hsame.values "schema_version") hschema
    simp only [parseManifest, hbind, hsame.keysOf, hsame.read stable_string, hschema]
    refine bind_congr fun _ => bind_congr fun schema => bind_congr fun kind =>
      bind_congr fun _ => bind_congr fun featureId => bind_congr fun _ => ?_
    exact howners fun owners => do
      let frontendVersion ← jvmString (get rights "frontend_version") "frontend_version"
      let owners ← owners
      JvmSourceManifest.make ⟨featureId, frontendVersion, owners, schema⟩

end Owners

end SupernoteModule.Frontend
