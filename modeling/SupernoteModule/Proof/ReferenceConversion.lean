import SupernoteModule.Conversion.Engine
import SupernoteModule.Spec.ConversionSurvey

/-!
# The reference engine is a metered walk

Converting arguments, the reference engine settles the survey of its own way of reading: objects
are mappings of which only own items count, ill-formed text has no encoding, and a constant is
compared before its size is taken. Every demand has its full price.
-/

namespace SupernoteModule.Conversion

open SupernoteModule.Lib SupernoteModule.Semantic SupernoteModule.Codegen

/-! ### What is seen of the engine -/

/-- What a failure amounts to, as an error class. -/
inductive FailureClass where
  | type
  | range
  | none
deriving DecidableEq

def Failure.failureClass (failure : Failure) : FailureClass :=
  match failure.kind with
  | .type => .type
  | .range => .range
  | .allocation | .encoding | .overflow => .none

namespace Reference

def reading : Reading where
  number value :=
    match value with
    | .int integer => demand (Double.ofInt integer) .overflow
    | .float double => .ok double
    | _ => .error .mismatch
  characters text := demand text.wellFormed? .illFormedText
  sizesFirst := false
  object typeId value :=
    match value with
    | .object (.nativeObject token) _ _ => token.typeId = typeId
    | _ => false
  fields value :=
    match value with
    | .object .mapping own _ => some fun name => own.lookup name
    | _ => none
  copies := false
  admits _ _ := true

/-- Every reservation is made. -/
def tariff : Tariff where
  text := true
  buffer := true
  constant := true
  object := true
  array := true
  value := true

def verdict : Misfit → FailureClass
  | .mismatch | .unknownConstant => .type
  | .outOfRange => .range
  | .illFormedText | .overflow | .rejected => .none

/-- The limits are those of the call, no allocation fails, and the counters are within them. -/
def observed (limits : ConversionLimits) : Observation Snapshot Failure Counter FailureClass where
  spent snapshot
    | .visits => snapshot.budget.visitedNodes
    | .bytes => snapshot.budget.temporaryBytes
  good snapshot := snapshot.budget.limits = limits ∧ snapshot.budget.injector.failAfter = none ∧
    snapshot.budget.visitedNodes ≤ limits.maxVisitedNodes ∧
      snapshot.budget.temporaryBytes ≤ limits.maxTemporaryBytes
  verdict := Failure.failureClass

/-- The meter of arguments, which start at depth one. -/
abbrev meter (limits : ConversionLimits) : Meter Counter Demand :=
  limits.meter 1 tariff

variable {limits : ConversionLimits} {snapshot : Snapshot} {path : String}

theorem spent_le (hgood : (observed limits).good snapshot) (counter : Counter) :
    (observed limits).spent snapshot counter ≤ (meter limits).cap counter := by
  cases counter with
  | visits => exact hgood.2.2.1
  | bytes => exact hgood.2.2.2

/-! ### Demands -/

theorem visit_follows (hgood : (observed limits).good snapshot) (depth : Nat) :
    (observed limits).Follows id (snapshot.visit path (1 + depth))
      ((meter limits).settle .range verdict (.ask (.visit depth))
        ((observed limits).spent snapshot)) := by
  obtain ⟨hlimits, hinjector, hvisits, hbytes⟩ := hgood
  apply Observation.Follows.ask
  · intro next hok
    obtain ⟨⟨hdepth, hroom⟩, rfl⟩ := Snapshot.visit_eq_ok.mp hok
    rw [hlimits] at hdepth hroom
    refine ⟨Meter.fits_singleton.mpr ⟨hdepth, fun counter => ?_⟩,
      ⟨hlimits, hinjector, hroom, hbytes⟩, ?_⟩
    · cases counter with
      | visits => exact hroom
      | bytes => exact hbytes
    · funext counter
      rw [Meter.charge_singleton]
      cases counter <;> rfl
  · intro hfits
    obtain ⟨hdepth, hwithin⟩ := Meter.fits_singleton.mp hfits
    have hroom : snapshot.CanVisit (1 + depth) := by
      rw [Snapshot.CanVisit, hlimits]
      exact ⟨hdepth, hwithin .visits⟩
    exact ⟨_, Snapshot.visit_eq_ok.mpr ⟨hroom, rfl⟩⟩
  · intro error herror
    simp only [Snapshot.visit, ConversionBudget.visit, ConversionBudget.checkedAdd, bind_eq_error,
      require_eq_error, pure_ne_error, and_false, exists_false, or_false] at herror
    rcases herror with ⟨_, rfl⟩ | ⟨_, _, ⟨_, rfl⟩ | ⟨_, _, _, rfl⟩⟩ <;> rfl

theorem reserve_failureClass {amount : Nat} {error : Failure}
    (hinjector : snapshot.budget.injector.failAfter = none)
    (herror : snapshot.reserve amount path = .error error) : error.failureClass = .range := by
  simp only [Snapshot.reserve, ConversionBudget.reserve, AllocationFaultInjector.reserve,
    ConversionBudget.checkedAdd, bind_eq_error, require_eq_error, pure_ne_error, and_false,
    exists_false, or_false, hinjector] at herror
  rcases herror with ⟨hfailing, _⟩ | ⟨_, _, ⟨_, rfl⟩ | ⟨_, _, _, rfl⟩⟩
  · exact absurd (fun _ hnone => (by cases hnone)) hfailing
  · rfl
  · rfl

/-- A check of a size, then a reservation: one demand of the survey. -/
theorem take_follows (hgood : (observed limits).good snapshot) {check : Except Failure Unit}
    {amount : Nat} {demand : Demand} (hallows : check = .ok () ↔ (meter limits).allows demand)
    (hcheck : ∀ error, check = .error error → error.failureClass = .range)
    (hvisits : (meter limits).cost .visits demand = 0)
    (hbytes : (meter limits).cost .bytes demand = amount) :
    (observed limits).Follows id (check >>= fun _ => snapshot.reserve amount path)
      ((meter limits).settle .range verdict (.ask demand) ((observed limits).spent snapshot)) := by
  obtain ⟨hlimits, hinjector, hvisited, hreserved⟩ := hgood
  apply Observation.Follows.ask
  · intro next hok
    rw [bind_eq_ok, exists_unit, Snapshot.reserve_eq_ok] at hok
    obtain ⟨hpassed, ⟨_, hroom⟩, rfl⟩ := hok
    rw [hlimits] at hroom
    refine ⟨Meter.fits_singleton.mpr ⟨hallows.mp hpassed, fun counter => ?_⟩,
      ⟨hlimits, hinjector, hvisited, hroom⟩, ?_⟩
    · cases counter with
      | visits =>
          rw [hvisits]
          exact hvisited
      | bytes =>
          rw [hbytes]
          exact hroom
    · funext counter
      rw [Meter.charge_singleton]
      cases counter with
      | visits =>
          rw [hvisits]
          rfl
      | bytes =>
          rw [hbytes]
          rfl
  · intro hfits
    obtain ⟨hallowed, hwithin⟩ := Meter.fits_singleton.mp hfits
    have hroom : snapshot.CanReserve amount := by
      rw [Snapshot.CanReserve, hlimits, hinjector]
      refine ⟨fun _ hnone => (by cases hnone), ?_⟩
      rw [← hbytes]
      exact hwithin .bytes
    exact ⟨_, bind_eq_ok.mpr ⟨(), hallows.mpr hallowed, Snapshot.reserve_eq_ok.mpr ⟨hroom, rfl⟩⟩⟩
  · intro error herror
    rcases bind_eq_error.mp herror with hfailed | ⟨_, _, hfailed⟩
    · exact hcheck error hfailed
    · exact reserve_failureClass hinjector hfailed

/-- The size of a text, or of a constant. -/
theorem takeText_follows (hgood : (observed limits).good snapshot) (demand : Demand) {size : Nat}
    (hdemand : demand = .text size ∨ demand = .constant size) :
    (observed limits).Follows id
      (snapshot.budget.checkStringBytes size path >>= fun _ => snapshot.reserve size path)
      ((meter limits).settle .range verdict (.ask demand) ((observed limits).spent snapshot)) := by
  have hlimits := hgood.1
  apply take_follows hgood
  · rcases hdemand with rfl | rfl <;>
      simp [ConversionBudget.checkStringBytes, ConversionLimits.meter, hlimits]
  · intro error herror
    obtain ⟨_, rfl⟩ := require_eq_error.mp herror
    rfl
  · rcases hdemand with rfl | rfl <;> rfl
  · rcases hdemand with rfl | rfl <;> rfl

/-- A length against a limit, then the room for that many. -/
theorem takeLength_follows (hgood : (observed limits).good snapshot) (demand : Demand)
    {length limit amount : Nat} {message : String}
    (hallows : length ≤ limit ↔ (meter limits).allows demand)
    (hvisits : (meter limits).cost .visits demand = 0)
    (hbytes : (meter limits).cost .bytes demand = amount) :
    (observed limits).Follows id
      (require (length ≤ limit) (rangeError path message) >>= fun _ =>
        snapshot.reserve amount path)
      ((meter limits).settle .range verdict (.ask demand) ((observed limits).spent snapshot)) := by
  refine take_follows hgood (by simpa using hallows) ?_ hvisits hbytes
  intro error herror
  obtain ⟨_, rfl⟩ := require_eq_error.mp herror
  rfl

variable (path) in
theorem reserve_follows (hgood : (observed limits).good snapshot) (demand : Demand) {amount : Nat}
    (hallows : (meter limits).allows demand) (hvisits : (meter limits).cost .visits demand = 0)
    (hbytes : (meter limits).cost .bytes demand = amount) :
    (observed limits).Follows id (snapshot.reserve amount path)
      ((meter limits).settle .range verdict (.ask demand) ((observed limits).spent snapshot)) :=
  @take_follows limits snapshot path hgood (.ok ()) _ _ (by simp [hallows])
    (fun _ herror => by cases herror) hvisits hbytes

/-! ### Scalars -/

theorem encodedSize_follows {Output : Type} {final : Output → Snapshot}
    (hgood : (observed limits).good snapshot) {text : Text} {next : Nat → Except Failure Output}
    {rest : List Char → Survey Demand Misfit}
    (hnext : ∀ characters, text.wellFormed? = some characters →
      (observed limits).Follows final (next (utf8Length characters))
        ((meter limits).settle .range verdict (rest characters)
          ((observed limits).spent snapshot))) :
    (observed limits).Follows final (encodedSize text >>= next)
      ((meter limits).settle .range verdict (.given (reading.characters text) rest)
        ((observed limits).spent snapshot)) := by
  cases hcharacters : text.wellFormed? with
  | some characters =>
      have hsize : encodedSize text = .ok (utf8Length characters) := by
        simp [encodedSize, Text.utf8Size, hcharacters, demand]
      have hread : reading.characters text = .ok characters := by
        simp [reading, hcharacters, demand]
      rw [hsize, hread]
      exact hnext characters hcharacters
  | none =>
      have hsize : encodedSize text = .error ⟨.encoding, "", "surrogates not allowed"⟩ := by
        simp [encodedSize, Text.utf8Size, hcharacters, demand]
      have hread : reading.characters text = .error .illFormedText := by
        simp [reading, hcharacters, demand]
      rw [hsize, hread]
      exact .stop (spent_le hgood) rfl

theorem toDouble_follows {Output : Type} {final : Output → Snapshot}
    (hgood : (observed limits).good snapshot) {value : Value} {expected actual : String}
    {next : Double → Except Failure Output} {rest : Double → Survey Demand Misfit}
    (hnext : ∀ numeric, (observed limits).Follows final (next numeric)
      ((meter limits).settle .range verdict (rest numeric) ((observed limits).spent snapshot))) :
    (observed limits).Follows final
      (toDouble value (typeError path expected actual) doubleOverflow >>= next)
      ((meter limits).settle .range verdict (.given (reading.number value) rest)
        ((observed limits).spent snapshot)) := by
  cases value with
  | int integer =>
      simp only [toDouble, reading]
      generalize Double.ofInt integer = rounded
      exact .demand (spent_le hgood) rfl fun numeric _ => hnext numeric
  | float numeric => exact hnext numeric
  | _ => exact .stop (spent_le hgood) rfl

theorem convertScalar_follows (hgood : (observed limits).good snapshot) (kind : ScalarKind)
    (value : Value) :
    (observed limits).Follows Prod.snd (convertScalar kind value .input path snapshot)
      ((meter limits).settle .range verdict (reading.surveyScalar kind value)
        ((observed limits).spent snapshot)) := by
  have hspent := spent_le hgood
  cases kind with
  | bool =>
      cases value with
      | bool flag => exact .done hspent hgood rfl
      | _ => exact .stop hspent rfl
  | int32 =>
      refine toDouble_follows hgood fun numeric => ?_
      refine .demand hspent rfl fun integer _ => ?_
      refine .require hspent Iff.rfl rfl fun _ => ?_
      exact .done hspent hgood rfl
  | int64 =>
      cases value with
      | bigint integer =>
          refine .map ?_ (fun _ _ => hgood) fun _ => rfl
          refine .require hspent Iff.rfl rfl fun _ => ?_
          exact .done hspent hgood rfl
      | _ => exact .stop hspent rfl
  | float32 =>
      refine toDouble_follows hgood fun numeric => ?_
      refine .require hspent Iff.rfl rfl fun _ => ?_
      exact .done hspent hgood rfl
  | float64 =>
      refine toDouble_follows hgood fun numeric => ?_
      exact .done hspent hgood rfl
  | string =>
      cases value with
      | text text =>
          refine encodedSize_follows hgood fun characters _ => ?_
          rw [← bind_assoc]
          exact (takeText_follows hgood _ (.inl rfl)).result fun _ => rfl
      | _ => exact .stop hspent rfl
  | bytes =>
      cases value with
      | object form own inherited =>
          cases form with
          | uint8Array view =>
              have hlimits := hgood.1
              have hallows : view.visibleBytes.length ≤ snapshot.budget.limits.maxByteBufferBytes ↔
                  (meter limits).allows (.buffer view.visibleBytes.length) := by
                rw [hlimits]
                exact Iff.rfl
              change (observed limits).Follows Prod.snd
                (require _ _ >>= fun _ => snapshot.reserve _ path >>= fun snapshot =>
                  pure (copiedBytes view.visibleBytes .input, snapshot)) _
              rw [← bind_assoc]
              refine (takeLength_follows hgood _ hallows rfl rfl).andThen fun snapshot hgood => ?_
              exact .done (spent_le hgood) hgood rfl
          | _ => exact .stop hspent rfl
      | _ => exact .stop hspent rfl

/-! ### The walk -/

/-- Along a node, converting an argument settles the survey of the value. -/
def Settles (limits : ConversionLimits) (node : ConversionNode) : Prop :=
  ∀ (value : Value) (depth : Nat) (path : String) {snapshot : Snapshot},
    (observed limits).good snapshot →
      (observed limits).Follows Prod.snd
        (convert .input node value path (1 + depth) snapshot)
        ((meter limits).settle .range verdict (reading.survey node value depth)
          ((observed limits).spent snapshot))

theorem convertItems_follows
    {convertItem : Value → String → Snapshot → Except Failure (Value × Snapshot)}
    {surveyItem : Value → Survey Demand Misfit}
    (hitem : ∀ item path {snapshot : Snapshot}, (observed limits).good snapshot →
      (observed limits).Follows Prod.snd (convertItem item path snapshot)
        ((meter limits).settle .range verdict (surveyItem item)
          ((observed limits).spent snapshot))) (path : String) (items : List Value) :
    ∀ (index : Nat) {snapshot : Snapshot}, (observed limits).good snapshot →
      (observed limits).Follows Prod.snd (convertItems convertItem path index items snapshot)
        ((meter limits).settle .range verdict (Reading.surveyItems surveyItem items)
          ((observed limits).spent snapshot)) := by
  induction items with
  | nil =>
      intro index snapshot hgood
      exact .done (spent_le hgood) hgood rfl
  | cons item items ih =>
      intro index snapshot hgood
      rw [convertItems, Reading.surveyItems]
      refine .require (spent_le hgood) (by simp) rfl fun _ => ?_
      refine (hitem item _ hgood).andThen fun converted hgood => ?_
      exact (ih _ hgood).result fun _ => rfl

theorem convertFields_follows {fields : List (String × ConversionNode)}
    (hfields : ∀ field ∈ fields, Settles limits field.2) (own : List (String × Value))
    (path : String) (depth : Nat) :
    ∀ (result : List (String × Value)) {snapshot : Snapshot}, (observed limits).good snapshot →
      (observed limits).Follows Prod.snd
        (convertFields .input own path (1 + depth) fields result snapshot)
        ((meter limits).settle .range verdict
          (reading.surveyFields (fun name => own.lookup name) depth fields)
          ((observed limits).spent snapshot)) := by
  induction fields with
  | nil =>
      intro result snapshot hgood
      rw [convertFields, Reading.surveyFields]
      exact .done (spent_le hgood) hgood rfl
  | cons field fields ih =>
      obtain ⟨name, node⟩ := field
      intro result snapshot hgood
      rw [convertFields, Reading.surveyFields]
      refine .demand (spent_le hgood) rfl fun raw _ => ?_
      have hnode := hfields (name, node) List.mem_cons_self raw (depth + 1) (fieldPath path name)
        hgood
      refine hnode.andThen fun converted hgood => ?_
      exact ih (fun other hother => hfields other (List.mem_cons_of_mem _ hother)) _ hgood

/-- The conversion visits its node first, and all but that of a nullable type refuse null. -/
theorem present_follows {value : Value} {expected : String}
    {body : Snapshot → Except Failure (Value × Snapshot)} {rest : Survey Demand Misfit}
    {snapshot : Snapshot} (hgood : (observed limits).good snapshot) (depth : Nat) (path : String)
    (hbody : ∀ snapshot : Snapshot, (observed limits).good snapshot →
      (observed limits).Follows Prod.snd (body snapshot)
        ((meter limits).settle .range verdict rest ((observed limits).spent snapshot))) :
    (observed limits).Follows Prod.snd
      (snapshot.visit path (1 + depth) >>= fun snapshot =>
        require (¬ value.isUndefined) (typeError path expected "undefined") >>= fun _ =>
          require (¬ value.isNull) (typeError path expected "null") >>= fun _ => body snapshot)
      ((meter limits).settle .range verdict
        ((Survey.ask (.visit depth)).andThen <| Survey.provided (!value.isUndefined) .mismatch <|
          Survey.provided (!value.isNull) .mismatch rest) ((observed limits).spent snapshot)) := by
  refine (visit_follows hgood depth).andThen fun snapshot hgood => ?_
  have hspent := spent_le hgood
  refine .require hspent (by simp) rfl fun _ => ?_
  refine .require hspent (by simp) rfl fun _ => ?_
  exact hbody snapshot hgood

/-- Along the node of any type, converting an argument settles the survey of the value. -/
theorem settles_of_planned {node : ConversionNode} (hplanned : node.Planned) :
    Settles limits node := by
  induction hplanned with
  | scalar kind =>
      intro value depth path snapshot hgood
      rw [convert, Reading.survey]
      refine present_follows hgood depth path fun snapshot hgood => ?_
      exact convertScalar_follows hgood kind value
  | enum typeId publicName constants =>
      intro value depth path snapshot hgood
      rw [convert, Reading.survey]
      refine present_follows hgood depth path fun snapshot hgood => ?_
      cases value with
      | text text =>
          refine .require (spent_le hgood) (by simp) rfl fun _ => ?_
          refine encodedSize_follows hgood fun characters _ => ?_
          rw [← bind_assoc]
          exact (takeText_follows hgood _ (.inr rfl)).result fun _ => rfl
      | _ => exact .stop (spent_le hgood) rfl
  | object typeId publicName =>
      intro value depth path snapshot hgood
      rw [convert, Reading.survey]
      refine present_follows hgood depth path fun snapshot hgood => ?_
      have hspent := spent_le hgood
      cases value with
      | object form own inherited =>
          cases form with
          | nativeObject token =>
              refine .require hspent (by simp [reading]) rfl fun _ => ?_
              have htake := reserve_follows path hgood .object trivial rfl rfl
              exact htake.map (fun _ hgood => hgood) fun _ => rfl
          | _ => exact .stop hspent rfl
      | _ => exact .stop hspent rfl
  | @array element _ ih =>
      intro value depth path snapshot hgood
      rw [convert, Reading.survey]
      refine present_follows hgood depth path fun snapshot hgood => ?_
      have hitems : arrayItems? .input value = Jsi.array? value := by
        cases value <;> rfl
      rw [hitems]
      refine .demand (spent_le hgood) rfl fun items _ => ?_
      have hlimits : snapshot.budget.limits = limits := hgood.1
      have hallows : items.length ≤ snapshot.budget.limits.maxArrayLength ↔
          (meter limits).allows (.array items.length) := by
        rw [hlimits]
        exact Iff.rfl
      rw [← bind_assoc]
      refine (takeLength_follows hgood _ hallows rfl rfl).andThen fun snapshot hgood => ?_
      refine (convertItems_follows ?_ path items 0 hgood).result fun _ => rfl
      intro item itemPath snapshot hgood
      exact ih item (depth + 1) itemPath hgood
  | nullable _ ih =>
      intro value depth path snapshot hgood
      rw [convert, Reading.survey]
      refine (visit_follows hgood depth).andThen fun snapshot hgood => ?_
      have hspent := spent_le hgood
      refine .require hspent (by simp) rfl fun _ => ?_
      by_cases hnull : value.isNull = true
      · simp only [if_pos hnull]
        exact .done hspent hgood rfl
      · simp only [if_neg hnull]
        exact ih value (depth + 1) path hgood
  | @value typeId publicName fields _ _ ih =>
      intro value depth path snapshot hgood
      rw [convert, Reading.survey]
      refine present_follows hgood depth path fun snapshot hgood => ?_
      have hspent := spent_le hgood
      cases value with
      | object form own inherited =>
          cases form with
          | mapping =>
              have htake := reserve_follows path hgood (.value fields.length) trivial rfl rfl
              refine htake.andThen fun snapshot hgood => ?_
              -- nothing the reference builds can be refused
              change (observed limits).Follows _ _ ((meter limits).settle _ _
                ((Reading.surveyFields reading _ depth fields).andThen .done) _)
              rw [Survey.andThen_done]
              exact (convertFields_follows ih own path depth [] hgood).result fun _ => rfl
          | _ => exact .stop hspent rfl
      | _ => exact .stop hspent rfl

end Reference

end SupernoteModule.Conversion
