import SupernoteModule.Proof.ConversionRoundTrip
import SupernoteModule.Proof.GeneratedConversion
import SupernoteModule.Proof.SurveyComparison

/-!
# Preflight

`accepts`, `checkArguments`, `is` and `check` validate arguments without converting them. They
should answer as the call would. Validation charges less than conversion does, starts at another
depth in the JVM renderer, and knows neither the cap of buffer copies nor the adapters of enums nor
the constructors of value types, so the two agree under conditions on the size of the arguments.
-/

namespace SupernoteModule.Codegen

open SupernoteModule.Lib SupernoteModule.Semantic SupernoteModule.Conversion

/-- Both succeed, or both throw a `TypeError`, or both throw a `RangeError`. -/
def Agrees {Checked Converted : Type} (checked : Except JsError Checked)
    (converted : Except JsError Converted) : Prop :=
  answer checked = answer converted ∧ answer converted ≠ .failed

instance {Checked Converted : Type} (checked : Except JsError Checked)
    (converted : Except JsError Converted) : Decidable (Agrees checked converted) :=
  inferInstanceAs (Decidable (_ ∧ _))

/-! ### Surveys of arguments -/

/-- What the arguments demand of a side. -/
def Lowering.argumentSurvey (lowering : Lowering) (engine : Engine)
    (parameters : List (String × ConversionNode)) (arguments : List Value) :
    Survey Demand Misfit :=
  (lowering.reading engine).surveyArguments (parameters.map Prod.snd) arguments

/-- The demands stay within the limits, at the prices of a side. -/
def Lowering.Within (lowering : Lowering) (limits : ConversionLimits) (start : Nat)
    (survey : Survey Demand Misfit) : Prop :=
  (limits.meter start lowering.tariff).Fits (fun _ => 0) survey.demands

/-- The demands exceed a limit, or end at something that is out of range. -/
def Lowering.Refuses (lowering : Lowering) (limits : ConversionLimits) (start : Nat)
    (survey : Survey Demand Misfit) : Prop :=
  ¬ lowering.Within limits start survey ∨ survey.misfit = some .outOfRange

section Answers

variable {lowering : Lowering} {limits : ConversionLimits} {start : Nat}
  {survey : Survey Demand Misfit} {report : Refusal → Answer} {unknown : Refusal}

theorem expectedAnswer_of_not_within (hwithin : ¬ lowering.Within limits start survey) :
    expectedAnswer report unknown (limits.meter start lowering.tariff) survey = report .limit :=
  if_neg hwithin

theorem expectedAnswer_of_within (hwithin : lowering.Within limits start survey) :
    expectedAnswer report unknown (limits.meter start lowering.tariff) survey =
      match survey.misfit with
      | none => .accepted
      | some misfit => report (Lowering.verdict unknown misfit) :=
  if_pos hwithin

/-- What is refused is a `RangeError`, where limits are reported as one. -/
theorem expectedAnswer_of_refuses (hlimit : ¬ lowering.Within limits start survey →
      report .limit = .thrown .rangeError)
    (hrange : report .outOfRange = .thrown .rangeError)
    (hrefuses : lowering.Refuses limits start survey) :
    expectedAnswer report unknown (limits.meter start lowering.tariff) survey =
      .thrown .rangeError := by
  by_cases hwithin : lowering.Within limits start survey
  · have hmisfit : survey.misfit = some .outOfRange :=
      hrefuses.resolve_left fun hnot => hnot hwithin
    rw [expectedAnswer_of_within hwithin, hmisfit]
    exact hrange
  · rw [expectedAnswer_of_not_within hwithin, hlimit hwithin]

/-- The answer to what is not refused. -/
def misfitAnswer (unknownAnswer : Answer) : Option Misfit → Answer
  | none => .accepted
  | some .unknownConstant => unknownAnswer
  | some .rejected => .failed
  | some _ => .thrown .typeError

theorem expectedAnswer_of_not_refuses (hmismatch : report .mismatch = .thrown .typeError)
    (hrejected : report .implementation = .failed)
    (hrefuses : ¬ lowering.Refuses limits start survey) :
    expectedAnswer report unknown (limits.meter start lowering.tariff) survey =
      misfitAnswer (report unknown) survey.misfit := by
  rw [Lowering.Refuses, not_or, not_not] at hrefuses
  rw [expectedAnswer_of_within hrefuses.1]
  cases hmisfit : survey.misfit with
  | none => rfl
  | some misfit =>
      cases misfit with
      | outOfRange => exact absurd hmisfit hrefuses.2
      | unknownConstant => rfl
      | rejected => exact hrejected
      | mismatch | illFormedText | overflow => exact hmismatch

theorem misfitAnswer_ne_rangeError {unknownAnswer : Answer}
    (hunknown : unknownAnswer ≠ .thrown .rangeError) (misfit : Option Misfit) :
    misfitAnswer unknownAnswer misfit ≠ .thrown .rangeError := by
  cases misfit with
  | none => simp [misfitAnswer]
  | some misfit =>
      cases misfit with
      | unknownConstant => exact hunknown
      | _ => simp [misfitAnswer]

theorem misfitAnswer_ne_failed {misfit : Option Misfit} (hrejected : misfit ≠ some .rejected) :
    misfitAnswer (Refusal.answer .mismatch) misfit ≠ .failed := by
  cases misfit with
  | none => simp [misfitAnswer]
  | some misfit =>
      cases misfit with
      | rejected => exact absurd rfl hrejected
      | _ => simp [misfitAnswer, Refusal.answer]

/-- Whether the demands stay within the limits is a matter of their load. -/
theorem within_iff (hstart : start ≤ 1) :
    lowering.Within limits start survey ↔
      (Load.of survey.demands).Within limits start
        (lowering.tariff.price (Load.of survey.demands)) :=
  Load.fits_iff_within hstart survey.demands

/-! ### What conversion adds -/

/-- Copying adds a cap, and building value objects their constructors; nothing else. -/
theorem sameUnless_validation (reading : Reading) :
    reading.SameUnless (fun misfit => misfit = .outOfRange ∨ misfit = .rejected)
      { reading with copies := false, admits := fun _ _ => true } where
  scalar kind value := by
    cases kind with
    | bytes =>
        refine .given fun view _ => (Survey.SameUnless.refl _).andThen ?_
        by_cases hcap : !reading.copies || view.visibleBytes.length ≤ Lowering.copyCap
        · simp only [Survey.provided, if_pos hcap]
          exact .refl _
        · simp only [Survey.provided, if_neg hcap]
          exact .stop (.inl rfl) _
    | string | bool | int64 => cases value <;> exact .refl _
    | int32 | float32 | float64 => exact .refl _
  constant constants text := .refl _
  fields value := by
    cases hfields : reading.fields value with
    | none => exact .inl ⟨rfl, .inl rfl⟩
    | some read => exact .inr ⟨read, read, rfl, rfl, fun _ => .inl rfl⟩
  admits typeId values := by
    cases hadmits : reading.admits typeId values with
    | true => exact .inl rfl
    | false => exact .inr ⟨rfl, .inr rfl⟩

/-- The call asks what its preflight asks, up to a buffer that is too large to copy or a constructor
that throws. -/
theorem argumentSurvey_same (converts validates : Lowering) (engine : Engine)
    (hreading : validates.reading engine =
      { converts.reading engine with copies := false, admits := fun _ _ => true })
    {parameters : List (String × ConversionNode)}
    (hplanned : ∀ parameter ∈ parameters, parameter.2.Planned) (arguments : List Value) :
    converts.argumentSurvey engine parameters arguments =
        validates.argumentSurvey engine parameters arguments ∨
      (converts.argumentSurvey engine parameters arguments).misfit = some .outOfRange ∨
      (converts.argumentSurvey engine parameters arguments).misfit = some .rejected := by
  have hnodes : ∀ node ∈ parameters.map Prod.snd, node.Planned := by
    intro node hmem
    obtain ⟨parameter, hparameter, rfl⟩ := List.mem_map.mp hmem
    exact hplanned parameter hparameter
  have hsame := Reading.surveyArguments_same (sameUnless_validation (converts.reading engine))
    hnodes (.inr rfl) arguments
  rw [← hreading] at hsame
  rcases hsame with heq | ⟨misfit, hmisfit, rfl | rfl⟩
  · exact .inl heq
  · exact .inr (.inl hmisfit)
  · exact .inr (.inr hmisfit)

end Answers

/-! ### The two renderers -/

namespace Cpp

/-- The bytes of all that the call asks for are few, no buffer is too large to copy and no
constructor throws; or the checks find a number out of range or a limit passed (nodes, levels,
lengths, the bytes of objects), and a constructor throws only where a limit is passed before. -/
def Covered (limits : ConversionLimits) (engine : Engine) (constructor : ValueConstructor)
    (parameters : List (String × ConversionNode)) (arguments : List Value) : Prop :=
  let call := (fromJs constructor).argumentSurvey engine parameters arguments
  let check := validateJs.argumentSurvey engine parameters arguments
  let asked := Load.of call.demands
  let checked := Load.of check.demands
  (asked.bytes ≤ limits.maxTemporaryBytes ∧ call.misfit ≠ some .outOfRange ∧
      call.misfit ≠ some .rejected) ∨
    ((check.misfit = some .outOfRange ∨ ¬ checked.Within limits 1 checked.objectBytes) ∧
      (call.misfit = some .rejected → ¬ asked.Within limits 1 asked.bytes))

variable {limits : ConversionLimits} {engine : Engine} {constructor : ValueConstructor}
  {parameters : List (String × ConversionNode)} {arguments : List Value}
  {survey : Survey Demand Misfit}

/-- The call reserves the bytes of everything. -/
theorem within_fromJs :
    (fromJs constructor).Within limits 1 survey ↔
      (Load.of survey.demands).Within limits 1 (Load.of survey.demands).bytes := by
  rw [within_iff (Nat.le_refl 1)]
  simp [Tariff.price, Lowering.tariff, fromJs, Load.bytes]

/-- The checks reserve the bytes of objects. -/
theorem within_validateJs :
    validateJs.Within limits 1 survey ↔
      (Load.of survey.demands).Within limits 1 (Load.of survey.demands).objectBytes := by
  rw [within_iff (Nat.le_refl 1)]
  simp [Tariff.price, Lowering.tariff, validateJs]

/-- Validation charges no more than conversion. -/
theorem within_validateJs_of_fromJs (hwithin : (fromJs constructor).Within limits 1 survey) :
    validateJs.Within limits 1 survey := by
  rw [within_fromJs] at hwithin
  rw [within_validateJs]
  exact hwithin.reserve (Nat.le_trans (Load.objectBytes_le _) hwithin.bytes)

theorem answer_preflight (hplanned : ∀ parameter ∈ parameters, parameter.2.Planned)
    (hlength : arguments.length = parameters.length) (diagnostic : String) :
    answer (preflight limits engine diagnostic parameters arguments) =
      expectedAnswer Refusal.answer .mismatch (limits.meter 1 validateJs.tariff)
        (validateJs.argumentSurvey engine parameters arguments) := by
  rw [preflight, require, if_pos hlength]
  refine (answer_discard _).trans ?_
  exact Lowering.answer_walkArguments validateJs_lawful (by decide)
    (reports_preflightError _) limits engine _ 1 hplanned arguments

theorem answer_callArguments (hplanned : ∀ parameter ∈ parameters, parameter.2.Planned)
    (hlength : arguments.length = parameters.length) (mode : CallableMode) (diagnostic : String) :
    answer (callArguments limits engine constructor mode diagnostic parameters arguments) =
      expectedAnswer Refusal.answer .mismatch (limits.meter 1 (fromJs constructor).tariff)
        ((fromJs constructor).argumentSurvey engine parameters arguments) := by
  rw [callArguments, require, if_pos hlength]
  exact Lowering.answer_walkArguments (fromJs_lawful constructor) (by decide)
    (reports_callableError mode diagnostic) limits engine _ 1 hplanned arguments

theorem agrees_iff (hplanned : ∀ parameter ∈ parameters, parameter.2.Planned)
    (hlength : arguments.length = parameters.length) (mode : CallableMode) (diagnostic : String) :
    Agrees (preflight limits engine diagnostic parameters arguments)
        (callArguments limits engine constructor mode diagnostic parameters arguments) ↔
      Covered limits engine constructor parameters arguments := by
  rw [Agrees, answer_preflight hplanned hlength, answer_callArguments hplanned hlength, Covered]
  have hsame := argumentSurvey_same (fromJs constructor) validateJs engine rfl hplanned arguments
  generalize (fromJs constructor).argumentSurvey engine parameters arguments = call at hsame ⊢
  generalize validateJs.argumentSurvey engine parameters arguments = check at hsame ⊢
  simp only [← @within_fromJs limits constructor, ← within_validateJs]
  by_cases hcall : (fromJs constructor).Refuses limits 1 call
  · -- the call is refused, so the checks have to refuse as well
    rw [expectedAnswer_of_refuses (fun _ => rfl) rfl hcall]
    by_cases hcheck : validateJs.Refuses limits 1 check
    · rw [expectedAnswer_of_refuses (fun _ => rfl) rfl hcheck]
      have hrejected : call.misfit = some .rejected → ¬ (fromJs constructor).Within limits 1 call :=
        fun hmisfit => hcall.resolve_right fun hrange => by simp [hmisfit] at hrange
      exact iff_of_true ⟨rfl, by simp⟩ (.inr ⟨hcheck.symm, hrejected⟩)
    · rw [expectedAnswer_of_not_refuses rfl rfl hcheck]
      have hdiffers := misfitAnswer_ne_rangeError
        (by decide : Refusal.answer .mismatch ≠ .thrown .rangeError) check.misfit
      refine iff_of_false (fun hagrees => hdiffers hagrees.1) ?_
      rintro (⟨hbytes, hrange, hrejected⟩ | ⟨hrefuses, _⟩)
      · obtain rfl := hsame.resolve_right (not_or.mpr ⟨hrange, hrejected⟩)
        have hexceeds := hcall.resolve_right hrange
        rw [Lowering.Refuses, not_or, not_not, within_validateJs] at hcheck
        exact hexceeds (within_fromJs.mpr (hcheck.1.reserve hbytes))
      · exact hcheck hrefuses.symm
  · -- the call is not refused, so neither are the checks, unless a constructor throws
    rw [expectedAnswer_of_not_refuses rfl rfl hcall]
    rw [Lowering.Refuses, not_or, not_not] at hcall
    by_cases hrejected : call.misfit = some .rejected
    · refine iff_of_false (fun hagrees => hagrees.2 (by rw [hrejected]; rfl)) ?_
      rintro (⟨_, _, hbuilt⟩ | ⟨_, hexceeds⟩)
      · exact hbuilt hrejected
      · exact hexceeds hrejected hcall.1
    · obtain rfl := hsame.resolve_right (not_or.mpr ⟨hcall.2, hrejected⟩)
      have hcheck : ¬ validateJs.Refuses limits 1 call := by
        rintro (hexceeds | hmisfit)
        · exact hexceeds (within_validateJs_of_fromJs hcall.1)
        · exact hcall.2 hmisfit
      rw [expectedAnswer_of_not_refuses rfl rfl hcheck]
      exact iff_of_true ⟨rfl, misfitAnswer_ne_failed hrejected⟩
        (.inl ⟨(within_fromJs.mp hcall.1).bytes, hcall.2, hrejected⟩)

end Cpp

namespace Jvm

/-- What is asked for is within the limits, also one level further down, and so are the bytes of
texts and buffers and those of objects, and neither a buffer nor an unknown constant nor a
constructor stops the call; or the call comes upon something out of range or passes a limit, which
it has to know as one, and so do the checks. -/
def Covered (limits : ConversionLimits) (engine : Engine) (constructor : ValueConstructor)
    (mode : CallableMode) (parameters : List (String × ConversionNode)) (arguments : List Value) :
    Prop :=
  let call := (fromJs constructor).argumentSurvey engine parameters arguments
  let check := validate.argumentSurvey engine parameters arguments
  let asked := Load.of call.demands
  let checked := Load.of check.demands
  (asked.Within limits 1 asked.objectBytes ∧
      asked.textBytes + asked.bufferBytes ≤ limits.maxTemporaryBytes ∧
      call.misfit ≠ some .outOfRange ∧ call.misfit ≠ some .unknownConstant ∧
      call.misfit ≠ some .rejected) ∨
    ((asked.Within limits 0 (asked.textBytes + asked.bufferBytes) ∧
          call.misfit = some .outOfRange ∨
        ¬ asked.Within limits 0 (asked.textBytes + asked.bufferBytes) ∧ mode = .sync) ∧
      (check.misfit = some .outOfRange ∨ ¬ checked.Within limits 1 checked.objectBytes))

variable {limits : ConversionLimits} {engine : Engine} {constructor : ValueConstructor}
  {parameters : List (String × ConversionNode)} {arguments : List Value}
  {survey : Survey Demand Misfit}

/-- The call reserves the bytes of texts and buffers. -/
theorem within_fromJs :
    (fromJs constructor).Within limits 0 survey ↔
      (Load.of survey.demands).Within limits 0
        ((Load.of survey.demands).textBytes + (Load.of survey.demands).bufferBytes) := by
  rw [within_iff (Nat.zero_le 1)]
  simp [Tariff.price, Lowering.tariff, fromJs]

/-- The checks reserve the bytes of objects. -/
theorem within_validate :
    validate.Within limits 1 survey ↔
      (Load.of survey.demands).Within limits 1 (Load.of survey.demands).objectBytes := by
  rw [within_iff (Nat.le_refl 1)]
  simp [Tariff.price, Lowering.tariff, validate]

theorem answer_preflight (hplanned : ∀ parameter ∈ parameters, parameter.2.Planned)
    (hlength : arguments.length = parameters.length) (diagnostic : String) :
    answer (preflight limits engine diagnostic parameters arguments) =
      expectedAnswer Refusal.answer .mismatch (limits.meter 1 validate.tariff)
        (validate.argumentSurvey engine parameters arguments) := by
  rw [preflight, require, if_pos hlength]
  refine (answer_discard _).trans ?_
  exact Lowering.answer_walkArguments validate_lawful (by decide)
    (reports_preflightError _) limits engine _ 1 hplanned arguments

theorem answer_callArguments (hplanned : ∀ parameter ∈ parameters, parameter.2.Planned)
    (hlength : arguments.length = parameters.length) (mode : CallableMode) (diagnostic : String) :
    answer (callArguments limits engine constructor mode diagnostic parameters arguments) =
      expectedAnswer (report mode) .implementation (limits.meter 0 (fromJs constructor).tariff)
        ((fromJs constructor).argumentSurvey engine parameters arguments) := by
  rw [callArguments, require, if_pos hlength]
  exact Lowering.answer_walkArguments (fromJs_lawful constructor) (by decide)
    (reports_callableError mode) limits engine _ 0 hplanned arguments

/-- The call refuses with a `RangeError`. -/
def CallRefuses (limits : ConversionLimits) (constructor : ValueConstructor) (mode : CallableMode)
    (survey : Survey Demand Misfit) : Prop :=
  (fromJs constructor).Within limits 0 survey ∧ survey.misfit = some .outOfRange ∨
    ¬ (fromJs constructor).Within limits 0 survey ∧ mode = .sync

theorem expectedAnswer_eq_rangeError {mode : CallableMode} :
    expectedAnswer (report mode) .implementation (limits.meter 0 (fromJs constructor).tariff)
        survey = .thrown .rangeError ↔ CallRefuses limits constructor mode survey := by
  rw [CallRefuses]
  by_cases hwithin : (fromJs constructor).Within limits 0 survey
  · rw [expectedAnswer_of_within hwithin]
    cases hmisfit : survey.misfit with
    | none => simp [hwithin]
    | some misfit => cases misfit <;> simp [hwithin, report, Refusal.answer, Lowering.verdict]
  · rw [expectedAnswer_of_not_within hwithin]
    cases mode <;> simp [hwithin, report]

/-- An unknown constant and a constructor that throws are failures of the implementation. -/
theorem expectedAnswer_of_failing {mode : CallableMode}
    (hwithin : (fromJs constructor).Within limits 0 survey)
    (hfails : survey.misfit = some .unknownConstant ∨ survey.misfit = some .rejected) :
    expectedAnswer (report mode) .implementation (limits.meter 0 (fromJs constructor).tariff)
      survey = .failed := by
  rw [expectedAnswer_of_within hwithin]
  rcases hfails with hmisfit | hmisfit <;> rw [hmisfit] <;> rfl

/-- Every other misfit is a mismatch, as it is for the checks. -/
theorem expectedAnswer_of_shared {mode : CallableMode}
    (hwithin : (fromJs constructor).Within limits 0 survey)
    (hrange : survey.misfit ≠ some .outOfRange) (hconstant : survey.misfit ≠ some .unknownConstant)
    (hbuilt : survey.misfit ≠ some .rejected) :
    expectedAnswer (report mode) .implementation (limits.meter 0 (fromJs constructor).tariff)
      survey = misfitAnswer (Refusal.answer .mismatch) survey.misfit := by
  rw [expectedAnswer_of_within hwithin]
  cases hmisfit : survey.misfit with
  | none => rfl
  | some misfit =>
      cases misfit with
      | outOfRange => exact absurd hmisfit hrange
      | unknownConstant => exact absurd hmisfit hconstant
      | rejected => exact absurd hmisfit hbuilt
      | mismatch | illFormedText | overflow => rfl

theorem agrees_iff (hplanned : ∀ parameter ∈ parameters, parameter.2.Planned)
    (hlength : arguments.length = parameters.length) (mode : CallableMode) (diagnostic : String) :
    Agrees (preflight limits engine diagnostic parameters arguments)
        (callArguments limits engine constructor mode diagnostic parameters arguments) ↔
      Covered limits engine constructor mode parameters arguments := by
  rw [Agrees, answer_preflight hplanned hlength, answer_callArguments hplanned hlength, Covered]
  have hsame := argumentSurvey_same (fromJs constructor) validate engine rfl hplanned arguments
  generalize (fromJs constructor).argumentSurvey engine parameters arguments = call at hsame ⊢
  generalize validate.argumentSurvey engine parameters arguments = check at hsame ⊢
  by_cases hcall : CallRefuses limits constructor mode call
  · -- the call refuses, so the checks have to refuse as well
    have hknown := hcall
    rw [CallRefuses, within_fromJs] at hknown
    rw [expectedAnswer_eq_rangeError.mpr hcall]
    by_cases hcheck : validate.Refuses limits 1 check
    · rw [expectedAnswer_of_refuses (fun _ => rfl) rfl hcheck]
      rw [Lowering.Refuses, within_validate] at hcheck
      exact iff_of_true ⟨rfl, by simp⟩ (.inr ⟨hknown, hcheck.symm⟩)
    · rw [expectedAnswer_of_not_refuses rfl rfl hcheck]
      have hdiffers := misfitAnswer_ne_rangeError
        (by decide : Refusal.answer .mismatch ≠ .thrown .rangeError) check.misfit
      refine iff_of_false (fun hagrees => hdiffers hagrees.1) ?_
      rw [Lowering.Refuses, within_validate] at hcheck
      rintro (⟨hwithin, hbytes, hrange, _, _⟩ | ⟨_, hrefuses⟩)
      · rcases hknown with ⟨_, hmisfit⟩ | ⟨hexceeds, _⟩
        · exact hrange hmisfit
        · exact hexceeds (hwithin.up.reserve hbytes)
      · exact hcheck hrefuses.symm
  · -- it ends otherwise, and so have the checks
    have hunknown := hcall
    rw [CallRefuses, within_fromJs] at hunknown
    by_cases hwithin : (fromJs constructor).Within limits 0 call
    · have hrange : call.misfit ≠ some .outOfRange := fun hmisfit => hcall (.inl ⟨hwithin, hmisfit⟩)
      by_cases hfails : call.misfit = some .unknownConstant ∨ call.misfit = some .rejected
      · have hfailed := @expectedAnswer_of_failing limits constructor call mode hwithin hfails
        refine iff_of_false (fun hagrees => hagrees.2 hfailed) ?_
        rintro (⟨_, _, _, hconstant, hbuilt⟩ | ⟨hrefuses, _⟩)
        · exact hfails.elim hconstant hbuilt
        · exact hunknown hrefuses
      · rw [not_or] at hfails
        obtain rfl := hsame.resolve_right (not_or.mpr ⟨hrange, hfails.2⟩)
        rw [expectedAnswer_of_shared hwithin hrange hfails.1 hfails.2]
        by_cases hcheck : validate.Refuses limits 1 call
        · rw [expectedAnswer_of_refuses (fun _ => rfl) rfl hcheck]
          have hdiffers := misfitAnswer_ne_rangeError
            (by decide : Refusal.answer .mismatch ≠ .thrown .rangeError) call.misfit
          refine iff_of_false (fun hagrees => hdiffers hagrees.1.symm) ?_
          have hexceeds := hcheck.resolve_right hrange
          rw [within_validate] at hexceeds
          rintro (⟨hchecked, _⟩ | ⟨hrefuses, _⟩)
          · exact hexceeds hchecked
          · exact hunknown hrefuses
        · rw [expectedAnswer_of_not_refuses rfl rfl hcheck]
          rw [Lowering.Refuses, not_or, not_not, within_validate] at hcheck
          exact iff_of_true ⟨rfl, misfitAnswer_ne_failed hfails.2⟩
            (.inl ⟨hcheck.1, (within_fromJs.mp hwithin).bytes, hrange, hfails.1, hfails.2⟩)
    · -- a limit is passed in a callable that knows none
      have hmode : ¬ mode = .sync := fun hmode => hcall (.inr ⟨hwithin, hmode⟩)
      have hfailed : report mode .limit = .failed := if_neg hmode
      rw [expectedAnswer_of_not_within hwithin, hfailed]
      refine iff_of_false (fun hagrees => hagrees.2 rfl) ?_
      rintro (⟨hchecked, hbytes, _⟩ | ⟨hrefuses, _⟩)
      · exact hwithin (within_fromJs.mpr (hchecked.up.reserve hbytes))
      · exact hunknown hrefuses

end Jvm

/-! ### Preflight and the call -/

theorem planParameters_planned {api : SemanticApi} {parameters : List SemanticParameter}
    {planned : List (String × ConversionNode)}
    (hplan : planParameters api parameters = .ok planned) :
    ∀ parameter ∈ planned, parameter.2.Planned := by
  intro parameter hmem
  obtain ⟨declared, _, _, hok⟩ := exists_item_of_mem (enumerate_eq_ok hplan) hmem
  simp only [bind_eq_ok, pure_eq_ok] at hok
  obtain ⟨node, hnode, rfl⟩ := hok
  refine planTypeConversion_planned hnode ?_
  rintro rfl
  have hvalid := declared.valid
  simp only [SemanticParameter.Fields.postInit, bind_eq_ok, exists_unit, require_eq_ok] at hvalid
  exact hvalid.2 (isVoid_of_planned_void hnode)

theorem answer_of_not {Output : Type} {condition : Prop} [Decidable condition]
    {error : BuiltinError} {next : Unit → Except JsError Output} (hcondition : ¬ condition) :
    answer (require condition (.builtin error) >>= next) = .thrown error.constructor := by
  rw [require, if_neg hcondition]
  rfl

/-- A callable and its checks report a wrong count of arguments alike. -/
theorem agrees_of_arity {Checked Converted : Type} {condition : Prop} [Decidable condition]
    {checkError callError : BuiltinError} {check : Unit → Except JsError Checked}
    {call : Unit → Except JsError Converted} (hcondition : ¬ condition)
    (hsame : checkError.constructor = callError.constructor) :
    Agrees (require condition (.builtin checkError) >>= check)
      (require condition (.builtin callError) >>= call) := by
  rw [Agrees, answer_of_not hcondition, answer_of_not hcondition, hsame]
  simp

section Checks

variable {limits : ConversionLimits} {engine : Engine} {constructor : ValueConstructor}
  {planned : List (String × ConversionNode)} {arguments : List Value}

theorem Cpp.agrees_iff_of_length (hplanned : ∀ parameter ∈ planned, parameter.2.Planned)
    (mode : CallableMode) (diagnostic : String) :
    Agrees (Cpp.preflight limits engine diagnostic planned arguments)
        (Cpp.callArguments limits engine constructor mode diagnostic planned arguments) ↔
      (arguments.length = planned.length →
        Cpp.Covered limits engine constructor planned arguments) := by
  by_cases hlength : arguments.length = planned.length
  · rw [Cpp.agrees_iff hplanned hlength]
    exact ⟨fun hcovered _ => hcovered, fun hcovered => hcovered hlength⟩
  · exact iff_of_true (agrees_of_arity hlength rfl) fun heq => absurd heq hlength

theorem Jvm.agrees_iff_of_length (hplanned : ∀ parameter ∈ planned, parameter.2.Planned)
    (mode : CallableMode) (diagnostic : String) :
    Agrees (Jvm.preflight limits engine diagnostic planned arguments)
        (Jvm.callArguments limits engine constructor mode diagnostic planned arguments) ↔
      (arguments.length = planned.length →
        Jvm.Covered limits engine constructor mode planned arguments) := by
  by_cases hlength : arguments.length = planned.length
  · rw [Jvm.agrees_iff hplanned hlength]
    exact ⟨fun hcovered _ => hcovered, fun hcovered => hcovered hlength⟩
  · exact iff_of_true (agrees_of_arity hlength rfl) fun heq => absurd heq hlength

/-- A type guard answers as the preflight of one parameter of the type. -/
theorem Cpp.answer_typeGuard {name : String} {node : ConversionNode}
    (hplanned : node.Planned) (diagnostic : String) :
    answer (Cpp.typeGuard limits engine diagnostic node arguments) =
      answer (Cpp.preflight limits engine diagnostic [(name, node)] arguments) := by
  have hone : ∀ {name : String}, ∀ parameter ∈ [(name, node)], parameter.2.Planned := by
    simp [hplanned]
  by_cases hlength : arguments.length = 1
  · rw [Cpp.answer_preflight hone hlength, Cpp.typeGuard, require, if_pos hlength]
    refine (answer_discard _).trans ?_
    exact Lowering.answer_walkArguments Cpp.validateJs_lawful (by decide)
      (reports_preflightError _) limits engine _ 1 hone arguments
  · have hcount : ¬ arguments.length = [(name, node)].length := hlength
    rw [Cpp.typeGuard, Cpp.preflight, answer_of_not hlength, answer_of_not hcount]
    rfl

theorem Jvm.answer_typeGuard {name : String} {node : ConversionNode}
    (hplanned : node.Planned) (diagnostic : String) :
    answer (Jvm.typeGuard limits engine diagnostic node arguments) =
      answer (Jvm.preflight limits engine diagnostic [(name, node)] arguments) := by
  have hone : ∀ {name : String}, ∀ parameter ∈ [(name, node)], parameter.2.Planned := by
    simp [hplanned]
  by_cases hlength : arguments.length = 1
  · rw [Jvm.answer_preflight hone hlength, Jvm.typeGuard, require, if_pos hlength]
    refine (answer_discard _).trans ?_
    exact Lowering.answer_walkArguments Jvm.validate_lawful (by decide)
      (reports_preflightError _) limits engine _ 1 hone arguments
  · have hcount : ¬ arguments.length = [(name, node)].length := hlength
    rw [Jvm.typeGuard, Jvm.preflight, answer_of_not hlength, answer_of_not hcount]
    rfl

/-- **The checks answer as the call does exactly when the arguments are covered**, in each renderer;
a type guard is the check of a single argument. -/
theorem preflight_agrees_iff {api : SemanticApi} {parameters : List SemanticParameter}
    (hplan : planParameters api parameters = .ok planned) (limits : ConversionLimits)
    (engine : Engine) (diagnostic : String) (mode : CallableMode) (arguments : List Value) :
    (Agrees (Cpp.preflight limits engine diagnostic planned arguments)
        (Cpp.callArguments limits engine constructor mode diagnostic planned arguments) ↔
      (arguments.length = planned.length →
        Cpp.Covered limits engine constructor planned arguments)) ∧
    (Agrees (Jvm.preflight limits engine diagnostic planned arguments)
        (Jvm.callArguments limits engine constructor mode diagnostic planned arguments) ↔
      (arguments.length = planned.length →
        Jvm.Covered limits engine constructor mode planned arguments)) ∧
    ∀ name node, planned = [(name, node)] →
      (Agrees (Cpp.typeGuard limits engine diagnostic node arguments)
          (Cpp.callArguments limits engine constructor mode diagnostic planned arguments) ↔
        (arguments.length = planned.length →
          Cpp.Covered limits engine constructor planned arguments)) ∧
      (Agrees (Jvm.typeGuard limits engine diagnostic node arguments)
          (Jvm.callArguments limits engine constructor mode diagnostic planned arguments) ↔
        (arguments.length = planned.length →
          Jvm.Covered limits engine constructor mode planned arguments)) := by
  have hplanned := planParameters_planned hplan
  refine ⟨Cpp.agrees_iff_of_length hplanned mode diagnostic,
    Jvm.agrees_iff_of_length hplanned mode diagnostic, ?_⟩
  rintro name node rfl
  have hnode : node.Planned := hplanned (name, node) List.mem_cons_self
  constructor
  · rw [Agrees, Cpp.answer_typeGuard hnode]
    exact Cpp.agrees_iff_of_length hplanned mode diagnostic
  · rw [Agrees, Jvm.answer_typeGuard hnode]
    exact Jvm.agrees_iff_of_length hplanned mode diagnostic

end Checks

/-! ### A caption -/

def caption : SemanticParameter where
  name := "caption"
  type := { node := .scalar .string, valid := by decide }
  valid := by decide

/-- Room for four bytes. -/
def fourBytes : ConversionLimits where
  maxTemporaryBytes := 4
  valid := by decide

def captionArguments : List Value := [.text (Text.ofString "hello")]

/-- A constructor that takes everything. -/
def willing : ValueConstructor := fun _ _ => none

theorem planned_caption :
    planParameters strokeApi [caption] = .ok [("caption", .scalar .string)] := rfl

/-- Both renderers accept the caption in advance, and find no room for it in the call. -/
theorem preflight_disagrees_caption :
    ∃ planned, planParameters strokeApi [caption] = .ok planned ∧
      ¬ Agrees (Cpp.preflight fourBytes .replacing "f" planned captionArguments)
        (Cpp.callArguments fourBytes .replacing willing .sync "f" planned captionArguments) ∧
      ¬ Agrees (Jvm.preflight fourBytes .replacing "f" planned captionArguments)
        (Jvm.callArguments fourBytes .replacing willing .sync "f" planned captionArguments) := by
  refine ⟨[("caption", .scalar .string)], planned_caption, ?_, ?_⟩
  · decide
  · decide

theorem preflight_agrees_iff_caption :
    (Agrees (Cpp.preflight fourBytes .replacing "f" [("caption", .scalar .string)]
          captionArguments)
        (Cpp.callArguments fourBytes .replacing willing .sync "f"
          [("caption", .scalar .string)] captionArguments) ↔
      (captionArguments.length = 1 →
        Cpp.Covered fourBytes .replacing willing [("caption", .scalar .string)]
          captionArguments)) ∧
    (Agrees (Jvm.preflight .standard .replacing "f" [("caption", .scalar .string)]
          captionArguments)
        (Jvm.callArguments .standard .replacing willing .suspend "f"
          [("caption", .scalar .string)] captionArguments) ↔
      (captionArguments.length = 1 →
        Jvm.Covered .standard .replacing willing .suspend [("caption", .scalar .string)]
          captionArguments)) :=
  ⟨(preflight_agrees_iff planned_caption fourBytes .replacing "f" .sync captionArguments).1,
    (preflight_agrees_iff planned_caption .standard .replacing "f" .suspend captionArguments).2.1⟩

end SupernoteModule.Codegen
