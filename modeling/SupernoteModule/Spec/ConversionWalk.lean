import SupernoteModule.Conversion.Engine
import SupernoteModule.Lib.StepWalk

/-!
# What a conversion does and what it needs

The reference engine as a walk: the visits, checks and reservations it makes along a type and a
value do not depend on the budget. Next to it, in their own terms, the values that inhabit a type,
what one of them measures, and the values at which the walk runs into a leaf that cannot be held.
-/

namespace SupernoteModule.Conversion

open SupernoteModule.Lib SupernoteModule.Semantic

/-! ### Steps -/

inductive Step where
  | visit (path : String) (depth : Nat)
  | checkStringBytes (length : Nat) (path : String)
  | checkBuffer (length : Nat) (path : String)
  | checkArray (length : Nat) (path : String)
  | reserve (amount : Nat) (path : String)
  | retain (token : NativeObjectToken)

def Step.execute (step : Step) (snapshot : Snapshot) : Except Failure Snapshot :=
  match step with
  | .visit path depth => snapshot.visit path depth
  | .checkStringBytes length path => do
      snapshot.budget.checkStringBytes length path
      return snapshot
  | .checkBuffer length path => do
      require (length ≤ snapshot.budget.limits.maxByteBufferBytes)
        (rangeError path
          s!"byte buffer exceeds {snapshot.budget.limits.maxByteBufferBytes} bytes")
      return snapshot
  | .checkArray length path => do
      require (length ≤ snapshot.budget.limits.maxArrayLength)
        (rangeError path
          (s!"array length {length} exceeds " ++ s!"{snapshot.budget.limits.maxArrayLength}"))
      return snapshot
  | .reserve amount path => snapshot.reserve amount path
  | .retain token => .ok (snapshot.retain token)

/-! ### The walk of a value -/

abbrev ConversionWalk := Walk Step Failure

def walkText (text : Text) (path : String) : ConversionWalk Value := do
  let length ← .check (encodedSize text)
  .take (.checkStringBytes length path)
  .take (.reserve length path)
  return .text text

def walkScalar (kind : ScalarKind) (value : Value) (direction : ConversionDirection)
    (path : String) : ConversionWalk Value :=
  match kind with
  | .bool =>
      match value with
      | .bool flag => pure (.bool flag)
      | value => .check (.error (typeError path "boolean" value.actual))
  | .int32 => do
      let numeric ← .check
        (toDouble value (typeError path "int32 number" value.actual) doubleOverflow)
      let integer ← .check (demand (integral? numeric)
        (rangeError path "int32 value must be finite and integral"))
      .check (require (inInt32 integer) (rangeError path "int32 value is out of range"))
      return .int integer
  | .int64 => .check (convertInt64 value direction path)
  | .float32 => do
      let numeric ← .check (toDouble value
        (typeError path (ConversionNode.scalarExpected .float32) value.actual) doubleOverflow)
      .check (require (inFloat32 numeric) (rangeError path "float32 value is out of range"))
      return .float numeric
  | .float64 => do
      let numeric ← .check (toDouble value
        (typeError path (ConversionNode.scalarExpected .float64) value.actual) doubleOverflow)
      return .float numeric
  | .string =>
      match value with
      | .text text => walkText text path
      | value => .check (.error (typeError path "string" value.actual))
  | .bytes => do
      let content ← .check (rawBytes value direction path)
      .take (.checkBuffer content.length path)
      .take (.reserve content.length path)
      return copiedBytes content direction

def walkItems (walkItem : Value → String → ConversionWalk Value) (path : String) :
    Nat → List Value → ConversionWalk (List Value)
  | _, [] => pure []
  | index, item :: items => do
      .check (require (¬ item.isArrayHole)
        ⟨.type, indexPath path index, "sparse array hole is invalid"⟩)
      let converted ← walkItem item (indexPath path index)
      let rest ← walkItems walkItem path (index + 1) items
      return converted :: rest

/-- The native object that a value is. -/
def Value.token? : Value → Option NativeObjectToken
  | .object (.nativeObject token) _ _ => some token
  | _ => none

/-- The own properties of a mapping. -/
def Value.mapping? : Value → Option (List (String × Value))
  | .object .mapping own _ => some own
  | _ => none

/-- The text is one of the constants of an enumeration. -/
def IsConstant (constants : List String) (text : Text) : Prop :=
  text ∈ constants.map Text.ofString

instance (constants : List String) (text : Text) : Decidable (IsConstant constants text) :=
  inferInstanceAs (Decidable (text ∈ constants.map Text.ofString))

mutual

def walk (direction : ConversionDirection) :
    ConversionNode → Value → String → Nat → ConversionWalk Value
  | node, value, path, depth => do
      .take (.visit path depth)
      .check (require (¬ value.isUndefined) (typeError path node.expected "undefined"))
      match node with
      | .void => do
          .check (require (direction = .output ∧ value.isNull)
            (typeError path "void" value.actual))
          return .null
      | .nullable element =>
          if value.isNull then return .null
          else walk direction element value path (depth + 1)
      | .scalar kind => do
          .check (require (¬ value.isNull) (typeError path node.expected "null"))
          walkScalar kind value direction path
      | .enum _ _ constants => do
          .check (require (¬ value.isNull) (typeError path node.expected "null"))
          let text ← .check (demand value.text? (typeError path node.expected value.actual))
          .check (require (IsConstant constants text)
            (typeError path node.expected value.actual))
          walkText text path
      | .object typeId _ => do
          .check (require (¬ value.isNull) (typeError path node.expected "null"))
          let token ← .check (demand value.token? (typeError path node.expected value.actual))
          .check (require (token.typeId = typeId) (typeError path node.expected value.actual))
          .take (.reserve pointerSize path)
          .take (.retain token)
          return value
      | .array element => do
          .check (require (¬ value.isNull) (typeError path node.expected "null"))
          let items ← .check (demand (arrayItems? direction value)
            (typeError path node.expected value.actual))
          .take (.checkArray items.length path)
          .take (.reserve (24 + items.length * pointerSize) path)
          let converted ← walkItems
            (fun item itemPath => walk direction element item itemPath (depth + 1)) path 0 items
          return arrayOf direction converted
      | .value _ _ fields => do
          .check (require (¬ value.isNull) (typeError path node.expected "null"))
          let own ← .check (demand value.mapping? (typeError path node.expected value.actual))
          .take (.reserve (32 + fields.length * 16) path)
          let result ← walkFields direction own path depth fields []
          return .object .mapping result []

def walkFields (direction : ConversionDirection) (own : List (String × Value)) (path : String)
    (depth : Nat) : List (String × ConversionNode) → List (String × Value) →
      ConversionWalk (List (String × Value))
  | [], result => pure result
  | (name, node) :: fields, result => do
      let raw ← .check (demand (own.lookup name)
        ⟨.type, fieldPath path name, "required field is missing"⟩)
      let converted ← walk direction node raw (fieldPath path name) (depth + 1)
      walkFields direction own path depth fields (assign result name converted)

end

/-! ### Inhabitants -/

/-- The number that a scalar leaf reads, when it is one that a double can hold. -/
def number? : Value → Option Double
  | .int integer => Double.ofInt integer
  | .float double => some double
  | _ => none

def InhabitsScalar (direction : ConversionDirection) (kind : ScalarKind) (value : Value) : Prop :=
  match kind with
  | .bool => ∃ flag, value = .bool flag
  | .int32 => ∃ numeric integer, number? value = some numeric ∧ integral? numeric = some integer ∧
      inInt32 integer = true
  | .int64 =>
      match direction with
      | .input => ∃ integer, value = .bigint integer ∧ inInt64 integer = true
      | .output => ∃ integer, value = .int integer ∧ inInt64 integer = true
  | .float32 => ∃ numeric, number? value = some numeric ∧ inFloat32 numeric = true
  | .float64 => ∃ numeric, number? value = some numeric
  | .string => ∃ text characters, value = .text text ∧ text.wellFormed? = some characters
  | .bytes =>
      match direction with
      | .input => ∃ view own inherited, value = .object (.uint8Array view) own inherited
      | .output => ∃ kind content, value = .buffer kind content

mutual

/-- The value is one of the type, whatever its size. -/
def Inhabits (direction : ConversionDirection) : ConversionNode → Value → Prop
  | .void, value => direction = .output ∧ value = .null
  | .nullable element, value => value = .null ∨ Inhabits direction element value
  | .scalar kind, value => InhabitsScalar direction kind value
  | .enum _ _ constants, value => ∃ constant ∈ constants, value = .text (.ofString constant)
  | .object typeId _, value =>
      ∃ token own inherited, value = .object (.nativeObject token) own inherited ∧
        token.typeId = typeId
  | .array element, value => ∃ items, arrayItems? direction value = some items ∧
      ∀ item ∈ items, item ≠ .arrayHole ∧ Inhabits direction element item
  | .value _ _ fields, value => ∃ own inherited, value = .object .mapping own inherited ∧
      InhabitsFields direction own fields

def InhabitsFields (direction : ConversionDirection) (own : List (String × Value)) :
    List (String × ConversionNode) → Prop
  | [] => True
  | (name, node) :: fields =>
      (∃ raw, own.lookup name = some raw ∧ Inhabits direction node raw) ∧
        InhabitsFields direction own fields

end

/-! ### Measures -/

/-- How many nodes a value has along its type and how deep they lie, the lengths of its arrays,
strings and buffers, the bytes a conversion reserves for it and how often, and its objects. -/
structure Measure where
  nodes : Nat := 0
  height : Nat := 0
  arrays : List Nat := []
  strings : List Nat := []
  buffers : List Nat := []
  bytes : Nat := 0
  reservations : Nat := 0
  objects : List NativeObjectToken := []

namespace Measure

/-- Two values beside each other. -/
def beside (first next : Measure) : Measure where
  nodes := first.nodes + next.nodes
  height := max first.height next.height
  arrays := first.arrays ++ next.arrays
  strings := first.strings ++ next.strings
  buffers := first.buffers ++ next.buffers
  bytes := first.bytes + next.bytes
  reservations := first.reservations + next.reservations
  objects := first.objects ++ next.objects

/-- A node above what lies below it. -/
def under (below : Measure) : Measure :=
  { below with nodes := below.nodes + 1, height := below.height + 1 }

/-- One reservation. -/
def room (bytes : Nat) : Measure where
  bytes := bytes
  reservations := 1

def ofText (text : Text) : Measure :=
  { room (text.utf8Size.getD 0) with strings := [text.utf8Size.getD 0] }

def ofBuffer (length : Nat) : Measure :=
  { room length with buffers := [length] }

def ofArray (length : Nat) : Measure :=
  { room (24 + length * pointerSize) with arrays := [length] }

def ofObject (token : NativeObjectToken) : Measure :=
  { room pointerSize with objects := [token] }

def sum : List Measure → Measure
  | [] => {}
  | first :: rest => first.beside (sum rest)

end Measure

def measureScalar (kind : ScalarKind) (value : Value) : Measure :=
  match kind, value with
  | .string, .text text => .ofText text
  | .bytes, .object (.uint8Array view) _ _ => .ofBuffer view.visibleBytes.length
  | .bytes, .buffer _ content => .ofBuffer content.length
  | _, _ => {}

mutual

/-- The structural sums of a value along its type. -/
def measure (direction : ConversionDirection) : ConversionNode → Value → Measure
  | .void, _ => Measure.under {}
  | .nullable element, value =>
      (if value.isNull then {} else measure direction element value).under
  | .scalar kind, value => (measureScalar kind value).under
  | .enum _ _ _, value =>
      match value with
      | .text text => (Measure.ofText text).under
      | _ => Measure.under {}
  | .object _ _, value =>
      match value with
      | .object (.nativeObject token) _ _ => (Measure.ofObject token).under
      | _ => Measure.under {}
  | .array element, value =>
      match arrayItems? direction value with
      | some items =>
          ((Measure.ofArray items.length).beside
            (.sum (items.map fun item => measure direction element item))).under
      | none => Measure.under {}
  | .value _ _ fields, value =>
      match value with
      | .object .mapping own _ =>
          ((Measure.room (32 + fields.length * 16)).beside
            (measureFields direction own fields)).under
      | _ => Measure.under {}

def measureFields (direction : ConversionDirection) (own : List (String × Value)) :
    List (String × ConversionNode) → Measure
  | [] => {}
  | (name, node) :: fields =>
      (match own.lookup name with
        | some raw => measure direction node raw
        | none => {}).beside (measureFields direction own fields)

end

/-- The measure of a value is within the limits, at a depth. -/
structure Measure.Within (limits : ConversionLimits) (depth : Nat) (measure : Measure) : Prop where
  depth : depth + measure.height ≤ limits.maxDepth + 1
  arrays : ∀ length ∈ measure.arrays, length ≤ limits.maxArrayLength
  strings : ∀ length ∈ measure.strings, length ≤ limits.maxStringBytes
  buffers : ∀ length ∈ measure.buffers, length ≤ limits.maxByteBufferBytes
  nodes : measure.nodes ≤ limits.maxVisitedNodes
  bytes : measure.bytes ≤ limits.maxTemporaryBytes

/-! ### Values that cannot be held -/

/-- The failure is none of the three classes of conversion errors. -/
def Failure.Foreign (failure : Failure) : Prop :=
  failure.kind = .encoding ∨ failure.kind = .overflow

/-- A text that no UTF-8 encodes, or an integer that no double holds. -/
def Unheld (kind : ScalarKind) (value : Value) : Prop :=
  match kind with
  | .string => ∃ text, value = .text text ∧ text.wellFormed? = none
  | .int32 | .float32 | .float64 => ∃ integer, value = .int integer ∧ Double.ofInt integer = none
  | _ => False

mutual

/-- Along the type, the first that is wrong with the value is a leaf that cannot be held, and up to
that leaf the value measures so much. -/
def Trips (direction : ConversionDirection) : ConversionNode → Value → Measure → Prop
  | .nullable element, value, reached =>
      value.isNull = false ∧ ∃ below, Trips direction element value below ∧ reached = below.under
  | .scalar kind, value, reached => Unheld kind value ∧ reached = Measure.under {}
  | .array element, value, reached =>
      ∃ before item after below, arrayItems? direction value = some (before ++ item :: after) ∧
        (∀ other ∈ before, other ≠ .arrayHole ∧ Inhabits direction element other) ∧
        Trips direction element item below ∧
        reached = ((Measure.ofArray (before ++ item :: after).length).beside
          ((Measure.sum (before.map fun other => measure direction element other)).beside
            below)).under
  | .value _ _ fields, value, reached =>
      ∃ own inherited below, value = .object .mapping own inherited ∧
        TripsFields direction own fields below ∧
        reached = ((Measure.room (32 + fields.length * 16)).beside below).under
  | _, _, _ => False

def TripsFields (direction : ConversionDirection) (own : List (String × Value)) :
    List (String × ConversionNode) → Measure → Prop
  | [], _ => False
  | (name, node) :: fields, reached =>
      ∃ raw, own.lookup name = some raw ∧
        (Trips direction node raw reached ∨
          Inhabits direction node raw ∧ ∃ below, TripsFields direction own fields below ∧
            reached = (measure direction node raw).beside below)

end

end SupernoteModule.Conversion
