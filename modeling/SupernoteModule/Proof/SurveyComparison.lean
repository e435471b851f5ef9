import SupernoteModule.Spec.ConversionSurvey

/-!
# Comparing surveys

Two sides that read values in different ways survey the same demands up to the place where they
differ. When the first side stops wherever they differ, its survey is the other's unless it stops.
Whether a survey keeps to the limits is a matter of a few sums and maxima, its load.
-/

namespace SupernoteModule.Conversion

open SupernoteModule.Lib SupernoteModule.Semantic SupernoteModule.Codegen

namespace Reading

/-- Where the two read a value in different ways, the first one stops for one of some reasons. -/
structure SameUnless (stops : Misfit → Prop) (first second : Reading) : Prop where
  scalar : ∀ kind value, Survey.SameUnless stops (first.surveyScalar kind value)
    (second.surveyScalar kind value)
  constant : ∀ constants text, Survey.SameUnless stops (first.surveyConstant constants text)
    (second.surveyConstant constants text)
  fields : ∀ value,
    (first.fields value = none ∧ (second.fields value = none ∨ stops .mismatch)) ∨
      ∃ read other, first.fields value = some read ∧ second.fields value = some other ∧
        ∀ name, read name = other name ∨ (read name = none ∧ stops .mismatch)
  admits : ∀ typeId values, first.admits typeId values = second.admits typeId values ∨
    (first.admits typeId values = false ∧ stops .rejected)

section Surveys

variable {stops : Misfit → Prop} {first second : Reading}

theorem surveyItems_same {surveyItem other : Value → Survey Demand Misfit}
    (hitem : ∀ item, Survey.SameUnless stops (surveyItem item) (other item))
    (items : List Value) :
    Survey.SameUnless stops (surveyItems surveyItem items) (surveyItems other items) := by
  induction items with
  | nil => exact .refl _
  | cons item items ih =>
      rw [surveyItems, surveyItems]
      exact .provided fun _ => (hitem item).andThen ih

theorem surveyFields_same {read other : String → Option Value}
    (hread : ∀ name, read name = other name ∨ (read name = none ∧ stops .mismatch))
    (depth : Nat) {fields : List (String × ConversionNode)}
    (hfields : ∀ field ∈ fields, ∀ value depth,
      Survey.SameUnless stops (first.survey field.2 value depth)
        (second.survey field.2 value depth)) :
    Survey.SameUnless stops (first.surveyFields read depth fields)
      (second.surveyFields other depth fields) := by
  induction fields with
  | nil =>
      rw [surveyFields, surveyFields]
      exact .refl _
  | cons field fields ih =>
      obtain ⟨name, node⟩ := field
      have hrest := ih fun field hmem => hfields field (List.mem_cons_of_mem _ hmem)
      have hnode := hfields (name, node) List.mem_cons_self
      rw [surveyFields, surveyFields]
      rcases hread name with hsame | ⟨hmissing, hstops⟩
      · rw [hsame]
        exact .given fun value _ => (hnode value (depth + 1)).andThen hrest
      · rw [hmissing]
        exact .stop hstops _

/-- A survey that has not stopped has read every field. -/
theorem isSome_of_surveyFields {reading : Reading} {read : String → Option Value} {depth : Nat}
    {fields : List (String × ConversionNode)}
    (hmisfit : (reading.surveyFields read depth fields).misfit = none) :
    ∀ field ∈ fields, (read field.1).isSome = true := by
  induction fields with
  | nil => simp
  | cons field fields ih =>
      obtain ⟨name, node⟩ := field
      rw [surveyFields] at hmisfit
      cases hread : read name with
      | none => simp [hread, demand, Survey.given, Survey.stop] at hmisfit
      | some value =>
          rw [hread] at hmisfit
          change ((reading.survey node value (depth + 1)).andThen
            (reading.surveyFields read depth fields)).misfit = none at hmisfit
          have hrest : (reading.surveyFields read depth fields).misfit = none := by
            cases hnode : (reading.survey node value (depth + 1)).misfit with
            | some misfit =>
                rw [Survey.andThen_of_misfit hnode, hnode] at hmisfit
                cases hmisfit
            | none =>
                rw [Survey.andThen, hnode] at hmisfit
                exact hmisfit
          intro other hother
          rcases List.mem_cons.mp hother with rfl | hmem
          · simp [hread]
          · exact ih hrest other hmem

/-- The two have found the same in the fields, unless the first one has stopped at one of them. -/
theorem fieldValues_eq {read other : String → Option Value}
    (hread : ∀ name, read name = other name ∨ (read name = none ∧ stops .mismatch))
    {depth : Nat} {fields : List (String × ConversionNode)}
    (hmisfit : (first.surveyFields read depth fields).misfit = none) :
    fieldValues read fields = fieldValues other fields := by
  apply List.map_congr_left
  rintro ⟨name, node⟩ hmem
  rcases hread name with hsame | ⟨hmissing, _⟩
  · simp only [hsame]
  · have hsome := isSome_of_surveyFields hmisfit (name, node) hmem
    simp [hmissing] at hsome

/-- **Along every type, the two surveys are the same unless the first one stops.** -/
theorem survey_same (hsame : first.SameUnless stops second) {node : ConversionNode}
    (hplanned : node.Planned) (hobjects : node.hasObjects = false ∨ first.object = second.object) :
    ∀ value depth, Survey.SameUnless stops (first.survey node value depth)
      (second.survey node value depth) := by
  induction hplanned with
  | scalar kind =>
      intro value depth
      rw [survey, survey]
      refine (Survey.SameUnless.refl _).andThen (.provided fun _ => .provided fun _ => ?_)
      exact hsame.scalar kind value
  | enum typeId publicName constants =>
      intro value depth
      rw [survey, survey]
      refine (Survey.SameUnless.refl _).andThen (.provided fun _ => .provided fun _ => ?_)
      exact .given fun text _ => hsame.constant constants text
  | object typeId publicName =>
      intro value depth
      have hobject : first.object = second.object := by
        rcases hobjects with hnone | hobject
        · simp [ConversionNode.hasObjects] at hnone
        · exact hobject
      rw [survey, survey, hobject]
      exact .refl _
  | @array element _ ih =>
      intro value depth
      rw [survey, survey]
      refine (Survey.SameUnless.refl _).andThen (.provided fun _ => .provided fun _ => ?_)
      refine .given fun items _ => (Survey.SameUnless.refl _).andThen ?_
      refine surveyItems_same (fun item => ih ?_ item (depth + 1)) items
      simpa only [ConversionNode.hasObjects] using hobjects
  | @nullable element _ ih =>
      intro value depth
      rw [survey, survey]
      refine (Survey.SameUnless.refl _).andThen (.provided fun _ => ?_)
      by_cases hnull : value.isNull = true
      · simp only [if_pos hnull]
        exact .refl _
      · simp only [if_neg hnull]
        refine ih ?_ value (depth + 1)
        simpa only [ConversionNode.hasObjects] using hobjects
  | @value typeId publicName fields _ _ ih =>
      intro value depth
      rw [survey, survey]
      refine (Survey.SameUnless.refl _).andThen (.provided fun _ => .provided fun _ => ?_)
      rcases hsame.fields value with ⟨hnone, hother⟩ | ⟨read, other, hfirst, hsecond, hread⟩
      · rcases hother with hother | hstops
        · rw [hnone, hother]
          exact .refl _
        · rw [hnone]
          exact .stop hstops _
      · rw [hfirst, hsecond]
        change Survey.SameUnless stops ((Survey.ask (Demand.value fields.length)).andThen _)
          ((Survey.ask (Demand.value fields.length)).andThen _)
        have hfields : ∀ field ∈ fields, ∀ value depth, Survey.SameUnless stops
            (first.survey field.2 value depth) (second.survey field.2 value depth) := by
          intro field hmem
          apply ih field hmem
          rcases hobjects with hnone | hobject
          · simp only [ConversionNode.hasObjects] at hnone
            exact .inl (ConversionNode.hasObjects_field hnone hmem)
          · exact .inr hobject
        refine (Survey.SameUnless.refl _).andThen ?_
        refine (surveyFields_same hread depth hfields).andThen_of_misfit_eq_none fun hmisfit => ?_
        rw [← fieldValues_eq hread hmisfit]
        rcases hsame.admits typeId (fieldValues read fields) with hadmits | ⟨hrejects, hstops⟩
        · rw [hadmits]
          exact .refl _
        · rw [hrejects]
          exact .stop hstops _

theorem surveyArguments_same (hsame : first.SameUnless stops second)
    {nodes : List ConversionNode} (hplanned : ∀ node ∈ nodes, node.Planned)
    (hobjects : (∀ node ∈ nodes, node.hasObjects = false) ∨ first.object = second.object) :
    ∀ values, Survey.SameUnless stops (first.surveyArguments nodes values)
      (second.surveyArguments nodes values) := by
  induction nodes with
  | nil => exact fun _ => .refl _
  | cons node nodes ih =>
      intro values
      cases values with
      | nil => exact .refl _
      | cons value values =>
          rw [surveyArguments, surveyArguments]
          refine (survey_same hsame (hplanned node List.mem_cons_self) ?_ value 0).andThen ?_
          · exact hobjects.imp_left fun hnone => hnone node List.mem_cons_self
          · refine ih (fun node hmem => hplanned node (List.mem_cons_of_mem _ hmem)) ?_ values
            exact hobjects.imp_left fun hnone node hmem => hnone node (List.mem_cons_of_mem _ hmem)

end Surveys

end Reading

/-! ### Loads -/

namespace Load

variable {limits : ConversionLimits} {tariff : Tariff} {start : Nat}

@[simp] theorem of_nil : of [] = {} := rfl

@[simp] theorem of_cons (demand : Demand) (demands : List Demand) :
    of (demand :: demands) = add demand (of demands) := rfl

theorem total_visits (demands : List Demand) :
    (limits.meter start tariff).total .visits demands = (of demands).nodes := by
  induction demands with
  | nil => rfl
  | cons demand demands ih =>
      rw [Meter.total_cons, of_cons, ih]
      cases demand with
      | visit depth => exact Nat.add_comm 1 _
      | _ => exact Nat.zero_add _

theorem price_add (demand : Demand) (load : Load) :
    tariff.price (add demand load) = tariff.bytes demand + tariff.price load := by
  cases demand with
  | visit depth => exact (Nat.zero_add _).symm
  | text size =>
      simp only [Tariff.price, Tariff.bytes, add]
      cases tariff.text <;> simp only [Bool.false_eq_true, if_true, if_false] <;> omega
  | constant size =>
      simp only [Tariff.price, Tariff.bytes, add]
      cases tariff.constant <;> simp only [Bool.false_eq_true, if_true, if_false] <;> omega
  | buffer length =>
      simp only [Tariff.price, Tariff.bytes, add]
      cases tariff.buffer <;> simp only [Bool.false_eq_true, if_true, if_false] <;> omega
  | object =>
      simp only [Tariff.price, Tariff.bytes, add]
      cases tariff.object <;> simp only [Bool.false_eq_true, if_true, if_false] <;> omega
  | array length =>
      simp only [Tariff.price, Tariff.bytes, add]
      cases tariff.array <;> simp only [Bool.false_eq_true, if_true, if_false] <;> omega
  | value fieldCount =>
      simp only [Tariff.price, Tariff.bytes, add]
      cases tariff.value <;> simp only [Bool.false_eq_true, if_true, if_false] <;> omega

theorem total_bytes (demands : List Demand) :
    (limits.meter start tariff).total .bytes demands = tariff.price (of demands) := by
  induction demands with
  | nil => simp [Tariff.price]
  | cons demand demands ih =>
      rw [Meter.total_cons, of_cons, ih, price_add]
      rfl

theorem allowed_iff (hstart : start ≤ limits.maxDepth + 1) (demands : List Demand) :
    (∀ demand ∈ demands, (limits.meter start tariff).allows demand) ↔
      start + (of demands).height ≤ limits.maxDepth + 1 ∧
        (of demands).longestText ≤ limits.maxStringBytes ∧
        (of demands).longestBuffer ≤ limits.maxByteBufferBytes ∧
        (of demands).longestArray ≤ limits.maxArrayLength := by
  induction demands with
  | nil => simpa using hstart
  | cons demand demands ih =>
      rw [List.forall_mem_cons, ih, of_cons]
      cases demand <;> simp only [ConversionLimits.meter, add, true_and] <;> omega

/-- **Demands fit the limits exactly when their load is within them.** -/
theorem fits_iff_within (hstart : start ≤ 1) (demands : List Demand) :
    (limits.meter start tariff).Fits (fun _ => 0) demands ↔
      (of demands).Within limits start (tariff.price (of demands)) := by
  have hdepth : start ≤ limits.maxDepth + 1 := by omega
  have hallowed := @allowed_iff limits tariff start hdepth demands
  constructor
  · intro hfits
    obtain ⟨hdepth, htexts, hbuffers, harrays⟩ := hallowed.mp hfits.allowed
    have hvisits := hfits.within .visits
    have hbytes := hfits.within .bytes
    rw [total_visits, Nat.zero_add] at hvisits
    rw [total_bytes, Nat.zero_add] at hbytes
    exact ⟨hvisits, hdepth, htexts, hbuffers, harrays, hbytes⟩
  · intro hwithin
    refine ⟨hallowed.mpr ⟨hwithin.depth, hwithin.texts, hwithin.buffers, hwithin.arrays⟩, ?_⟩
    intro counter
    rw [Nat.zero_add]
    cases counter with
    | visits =>
        rw [total_visits]
        exact hwithin.nodes
    | bytes =>
        rw [total_bytes]
        exact hwithin.bytes

/-- A load within the limits stays so with another reservation that there is room for. -/
theorem Within.reserve {reserved other : Nat} {load : Load}
    (hwithin : load.Within limits start reserved) (hroom : other ≤ limits.maxTemporaryBytes) :
    load.Within limits start other :=
  { hwithin with bytes := hroom }

/-- One level further up it stays so too. -/
theorem Within.up {reserved : Nat} {load : Load} (hwithin : load.Within limits 1 reserved) :
    load.Within limits 0 reserved := by
  have hdepth := hwithin.depth
  exact { hwithin with depth := by omega }

theorem objectBytes_le (load : Load) : load.objectBytes ≤ load.bytes := by
  rw [bytes]
  omega

end Load

end SupernoteModule.Conversion
