import SupernoteModule.Conversion.Plan
import SupernoteModule.Conversion.Values

/-!
# The reference engine

`_convert` walks a plan and a value together. Every node is visited before it is looked at, text,
buffers and containers reserve temporary bytes, and both totals stay within the limits. The same
walk serves arguments and results; what differs is how the two sides spell a value.
-/

namespace SupernoteModule.Conversion

open SupernoteModule.Lib SupernoteModule.Semantic

/-! ### Failures -/

inductive FailureKind where
  | type
  | range
  | allocation
  /-- `UnicodeEncodeError`, raised by `str.encode`. -/
  | encoding
  /-- `OverflowError`, raised by `float`. -/
  | overflow
deriving DecidableEq

/-- A conversion error; its text is the path and the message, joined by a colon. -/
structure Failure where
  kind : FailureKind
  path : String
  message : String
deriving DecidableEq

def Failure.what (failure : Failure) : String :=
  s!"{failure.path}: {failure.message}"

/-- `_type_error`. -/
def typeError (path expected actual : String) : Failure :=
  ⟨.type, path, s!"expected {expected}, got {actual}"⟩

def rangeError (path message : String) : Failure :=
  ⟨.range, path, message⟩

def indexPath (path : String) (index : Nat) : String :=
  s!"{path}[{index}]"

def fieldPath (path name : String) : String :=
  s!"{path}.{name}"

/-! ### The budget -/

structure AllocationFaultInjector where
  failAfter : Option Nat := none
  reservations : Nat := 0
deriving DecidableEq

def AllocationFaultInjector.reserve (injector : AllocationFaultInjector) (path : String) :
    Except Failure AllocationFaultInjector := do
  require (∀ failAfter ∈ injector.failAfter, injector.reservations < failAfter)
    ⟨.allocation, path, "injected temporary allocation failure"⟩
  return { injector with reservations := injector.reservations + 1 }

structure ConversionBudget where
  limits : ConversionLimits
  injector : AllocationFaultInjector := {}
  visitedNodes : Nat := 0
  temporaryBytes : Nat := 0
deriving DecidableEq

namespace ConversionBudget

/-- `_checked_add`. -/
def checkedAdd (left right : Nat) (path label : String) : Except Failure Nat := do
  require (right + left ≤ maxCounter) (rangeError path s!"{label} counter overflow")
  return left + right

def visit (budget : ConversionBudget) (path : String) (depth : Nat) :
    Except Failure ConversionBudget := do
  require (depth ≤ budget.limits.maxDepth)
    (rangeError path s!"conversion depth exceeds {budget.limits.maxDepth}")
  let visitedNodes ← checkedAdd budget.visitedNodes 1 path "visited-node"
  require (visitedNodes ≤ budget.limits.maxVisitedNodes)
    (rangeError path s!"conversion visits exceed {budget.limits.maxVisitedNodes}")
  return { budget with visitedNodes := visitedNodes }

def reserve (budget : ConversionBudget) (amount : Nat) (path : String) :
    Except Failure ConversionBudget := do
  let injector ← budget.injector.reserve path
  let temporaryBytes ← checkedAdd budget.temporaryBytes amount path "temporary-byte"
  require (temporaryBytes ≤ budget.limits.maxTemporaryBytes)
    (rangeError path
      s!"temporary allocation exceeds {budget.limits.maxTemporaryBytes} bytes")
  return { budget with injector := injector, temporaryBytes := temporaryBytes }

/-- `_check_string_bytes`. -/
def checkStringBytes (budget : ConversionBudget) (length : Nat) (path : String) :
    Except Failure Unit :=
  require (length ≤ budget.limits.maxStringBytes)
    (rangeError path s!"UTF-8 string exceeds {budget.limits.maxStringBytes} bytes")

end ConversionBudget

/-- What one conversion changes: its budget, and the objects it retains. -/
structure Snapshot where
  budget : ConversionBudget
  retained : List NativeObjectToken := []
deriving DecidableEq

namespace Snapshot

def visit (snapshot : Snapshot) (path : String) (depth : Nat) : Except Failure Snapshot := do
  let budget ← snapshot.budget.visit path depth
  return { snapshot with budget := budget }

def reserve (snapshot : Snapshot) (amount : Nat) (path : String) : Except Failure Snapshot := do
  let budget ← snapshot.budget.reserve amount path
  return { snapshot with budget := budget }

def retain (snapshot : Snapshot) (token : NativeObjectToken) : Snapshot :=
  { snapshot with retained := snapshot.retained ++ [token] }

def visited (snapshot : Snapshot) : Snapshot :=
  { snapshot with
    budget := { snapshot.budget with visitedNodes := snapshot.budget.visitedNodes + 1 } }

def reserved (snapshot : Snapshot) (amount : Nat) : Snapshot :=
  { snapshot with
    budget := { snapshot.budget with
      injector := { snapshot.budget.injector with
        reservations := snapshot.budget.injector.reservations + 1 }
      temporaryBytes := snapshot.budget.temporaryBytes + amount } }

/-- The room a visit needs. -/
def CanVisit (snapshot : Snapshot) (depth : Nat) : Prop :=
  depth ≤ snapshot.budget.limits.maxDepth ∧
    snapshot.budget.visitedNodes + 1 ≤ snapshot.budget.limits.maxVisitedNodes

/-- The room a reservation needs. -/
def CanReserve (snapshot : Snapshot) (amount : Nat) : Prop :=
  (∀ failAfter ∈ snapshot.budget.injector.failAfter,
      snapshot.budget.injector.reservations < failAfter) ∧
    snapshot.budget.temporaryBytes + amount ≤ snapshot.budget.limits.maxTemporaryBytes

/-- The counter overflows no earlier than the limit. -/
theorem visit_eq_ok {snapshot next : Snapshot} {path : String} {depth : Nat} :
    snapshot.visit path depth = .ok next ↔
      snapshot.CanVisit depth ∧ next = snapshot.visited := by
  have hlimit : snapshot.budget.limits.maxVisitedNodes ≤ maxCounter :=
    (snapshot.budget.limits.bounded "max_visited_nodes"
      (by simp [ConversionLimits.Fields.manifest])).2
  simp only [visit, ConversionBudget.visit, ConversionBudget.checkedAdd, bind_eq_ok, exists_unit,
    require_eq_ok, pure_eq_ok, CanVisit, visited]
  constructor
  · rintro ⟨budget, ⟨hdepth, count, ⟨hcounter, rfl⟩, hvisits, rfl⟩, rfl⟩
    exact ⟨⟨hdepth, hvisits⟩, rfl⟩
  · rintro ⟨⟨hdepth, hvisits⟩, rfl⟩
    exact ⟨_, ⟨hdepth, _, ⟨by omega, rfl⟩, hvisits, rfl⟩, rfl⟩

theorem reserve_eq_ok {snapshot next : Snapshot} {amount : Nat} {path : String} :
    snapshot.reserve amount path = .ok next ↔
      snapshot.CanReserve amount ∧ next = snapshot.reserved amount := by
  have hlimit : snapshot.budget.limits.maxTemporaryBytes ≤ maxCounter :=
    (snapshot.budget.limits.bounded "max_temporary_bytes"
      (by simp [ConversionLimits.Fields.manifest])).2
  simp only [reserve, ConversionBudget.reserve, AllocationFaultInjector.reserve,
    ConversionBudget.checkedAdd, bind_eq_ok, exists_unit, require_eq_ok, pure_eq_ok, CanReserve,
    reserved]
  constructor
  · rintro ⟨budget, ⟨injector, ⟨hinjector, rfl⟩, total, ⟨hcounter, rfl⟩, htotal, rfl⟩, rfl⟩
    exact ⟨⟨hinjector, htotal⟩, rfl⟩
  · rintro ⟨⟨hinjector, htotal⟩, rfl⟩
    exact ⟨_, ⟨_, ⟨hinjector, rfl⟩, _, ⟨by omega, rfl⟩, htotal, rfl⟩, rfl⟩

end Snapshot

/-! ### Scalars -/

inductive ConversionDirection where
  | input
  | output
deriving DecidableEq

/-- `struct.calcsize("P")`. -/
def pointerSize : Nat := 8

/-- `float(value)`, of the values whose type is `int` or `float`. -/
def toDouble (value : Value) (failure overflow : Failure) : Except Failure Double :=
  match value with
  | .int integer => demand (Double.ofInt integer) overflow
  | .float double => .ok double
  | _ => .error failure

def inInt32 (integer : Int) : Bool :=
  -2 ^ 31 ≤ integer && integer ≤ 2 ^ 31 - 1

def inInt64 (integer : Int) : Bool :=
  -2 ^ 63 ≤ integer && integer ≤ 2 ^ 63 - 1

/-- The largest finite single, `3.4028234663852886e38`. -/
def maxFloat32 : Rat := (2 ^ 24 - 1) * 2 ^ 104

/-- A finite number is no larger in magnitude than the largest single. -/
def inFloat32 (double : Double) : Bool :=
  match double.value? with
  | some number => -maxFloat32 ≤ number && number ≤ maxFloat32
  | none => true

/-- The integer a double is, when it is finite and has no fraction. -/
def integral? (double : Double) : Option Int :=
  match double.value? with
  | some value => if value.isInt then some value.num else none
  | none => none

/-- `value.encode("utf-8")`, of which only the length is used. -/
def encodedSize (text : Text) : Except Failure Nat :=
  demand text.utf8Size ⟨.encoding, "", "surrogates not allowed"⟩

def doubleOverflow : Failure :=
  ⟨.overflow, "", "int too large to convert to float"⟩

def convertInt64 (value : Value) (direction : ConversionDirection) (path : String) :
    Except Failure Value :=
  match direction, value with
  | .input, .bigint integer => do
      require (inInt64 integer) (rangeError path "int64 value is out of range")
      return .int integer
  | .output, .int integer => do
      require (inInt64 integer) (rangeError path "int64 value is out of range")
      return .bigint integer
  | .input, value => .error (typeError path "int64 bigint" value.actual)
  | .output, value => .error (typeError path "native int64" value.actual)

/-- The bytes to copy, from the buffer of the side that is read. -/
def rawBytes (value : Value) (direction : ConversionDirection) (path : String) :
    Except Failure (List UInt8) :=
  match direction, value with
  | .input, .object (.uint8Array view) _ _ => .ok view.visibleBytes
  | .output, .buffer _ content => .ok content
  | .input, value => .error (typeError path "Uint8Array" value.actual)
  | .output, value => .error (typeError path "native byte buffer" value.actual)

def copiedBytes (content : List UInt8) : ConversionDirection → Value
  | .input => .buffer .bytes content
  | .output => .object (.uint8Array (.whole content)) [] []

/-- `_convert_scalar`. -/
def convertScalar (kind : ScalarKind) (value : Value) (direction : ConversionDirection)
    (path : String) (snapshot : Snapshot) : Except Failure (Value × Snapshot) :=
  match kind with
  | .bool =>
      match value with
      | .bool flag => .ok (.bool flag, snapshot)
      | value => .error (typeError path "boolean" value.actual)
  | .int32 => do
      let numeric ← toDouble value (typeError path "int32 number" value.actual) doubleOverflow
      let integer ← demand (integral? numeric)
        (rangeError path "int32 value must be finite and integral")
      require (inInt32 integer) (rangeError path "int32 value is out of range")
      return (.int integer, snapshot)
  | .int64 => do
      let converted ← convertInt64 value direction path
      return (converted, snapshot)
  | .float32 => do
      let numeric ← toDouble value
        (typeError path (ConversionNode.scalarExpected .float32) value.actual) doubleOverflow
      require (inFloat32 numeric) (rangeError path "float32 value is out of range")
      return (.float numeric, snapshot)
  | .float64 => do
      let numeric ← toDouble value
        (typeError path (ConversionNode.scalarExpected .float64) value.actual) doubleOverflow
      return (.float numeric, snapshot)
  | .string =>
      match value with
      | .text text => do
          let length ← encodedSize text
          snapshot.budget.checkStringBytes length path
          let snapshot ← snapshot.reserve length path
          -- decoding the encoded bytes gives the text back
          return (.text text, snapshot)
      | value => .error (typeError path "string" value.actual)
  | .bytes => do
      let content ← rawBytes value direction path
      require (content.length ≤ snapshot.budget.limits.maxByteBufferBytes)
        (rangeError path
          s!"byte buffer exceeds {snapshot.budget.limits.maxByteBufferBytes} bytes")
      let snapshot ← snapshot.reserve content.length path
      return (copiedBytes content direction, snapshot)

/-! ### The walk -/

/-- `result[name] = converted` on the items of a dictionary. -/
def assign {Item : Type} (entries : List (String × Item)) (name : String) (item : Item) :
    List (String × Item) :=
  match entries with
  | [] => [(name, item)]
  | (key, old) :: rest =>
      if key = name then (key, item) :: rest else (key, old) :: assign rest name item

/-- The items of an array, of the types that are one on the side that is read. -/
def arrayItems? : ConversionDirection → Value → Option (List Value)
  | _, .list items => some items
  | .output, .tuple items => some items
  | _, _ => none

def arrayOf : ConversionDirection → List Value → Value
  | .input, items => .tuple items
  | .output, items => .list items

/-- The items of an array in order, each converted at its index. -/
def convertItems (convertItem : Value → String → Snapshot → Except Failure (Value × Snapshot))
    (path : String) : Nat → List Value → Snapshot → Except Failure (List Value × Snapshot)
  | _, [], snapshot => .ok ([], snapshot)
  | index, item :: items, snapshot => do
      require (¬ item.isArrayHole)
        ⟨.type, indexPath path index, "sparse array hole is invalid"⟩
      let (converted, snapshot) ← convertItem item (indexPath path index) snapshot
      let (rest, snapshot) ← convertItems convertItem path (index + 1) items snapshot
      return (converted :: rest, snapshot)

mutual

/-- `_convert`. -/
def convert (direction : ConversionDirection) :
    ConversionNode → Value → String → Nat → Snapshot → Except Failure (Value × Snapshot)
  | node, value, path, depth, snapshot => do
      let snapshot ← snapshot.visit path depth
      require (¬ value.isUndefined) (typeError path node.expected "undefined")
      match node with
      | .void => do
          require (direction = .output ∧ value.isNull) (typeError path "void" value.actual)
          return (.null, snapshot)
      | .nullable element =>
          if value.isNull then return (.null, snapshot)
          else convert direction element value path (depth + 1) snapshot
      | .scalar kind => do
          require (¬ value.isNull) (typeError path node.expected "null")
          convertScalar kind value direction path snapshot
      | .enum _ _ constants => do
          require (¬ value.isNull) (typeError path node.expected "null")
          match value with
          | .text text => do
              require (text ∈ constants.map Text.ofString)
                (typeError path node.expected value.actual)
              let byteCount ← encodedSize text
              snapshot.budget.checkStringBytes byteCount path
              let snapshot ← snapshot.reserve byteCount path
              return (.text text, snapshot)
          | value => .error (typeError path node.expected value.actual)
      | .object typeId _ => do
          require (¬ value.isNull) (typeError path node.expected "null")
          match value with
          | .object (.nativeObject token) own inherited => do
              require (token.typeId = typeId) (typeError path node.expected value.actual)
              let snapshot ← snapshot.reserve pointerSize path
              return (.object (.nativeObject token) own inherited, snapshot.retain token)
          | value => .error (typeError path node.expected value.actual)
      | .array element => do
          require (¬ value.isNull) (typeError path node.expected "null")
          let items ← demand (arrayItems? direction value)
            (typeError path node.expected value.actual)
          require (items.length ≤ snapshot.budget.limits.maxArrayLength)
            (rangeError path (s!"array length {items.length} exceeds " ++
              s!"{snapshot.budget.limits.maxArrayLength}"))
          let snapshot ← snapshot.reserve (24 + items.length * pointerSize) path
          let (converted, snapshot) ← convertItems
            (fun item itemPath => convert direction element item itemPath (depth + 1))
            path 0 items snapshot
          return (arrayOf direction converted, snapshot)
      | .value _ _ fields => do
          require (¬ value.isNull) (typeError path node.expected "null")
          match value with
          | .object .mapping own _ => do
              let snapshot ← snapshot.reserve (32 + fields.length * 16) path
              let (result, snapshot) ←
                convertFields direction own path depth fields [] snapshot
              return (.object .mapping result [], snapshot)
          | value => .error (typeError path node.expected value.actual)

/-- The declared fields of a value in order, put into the result. -/
def convertFields (direction : ConversionDirection) (own : List (String × Value)) (path : String)
    (depth : Nat) : List (String × ConversionNode) → List (String × Value) → Snapshot →
      Except Failure (List (String × Value) × Snapshot)
  | [], result, snapshot => .ok (result, snapshot)
  | (name, node) :: fields, result, snapshot => do
      let raw ← demand (own.lookup name)
        ⟨.type, fieldPath path name, "required field is missing"⟩
      let (converted, snapshot) ←
        convert direction node raw (fieldPath path name) (depth + 1) snapshot
      convertFields direction own path depth fields (assign result name converted) snapshot

end

/-! ### Entry points -/

end SupernoteModule.Conversion
