import SupernoteModule.Codegen.ObjectBinding
import SupernoteModule.Lib.Metered

/-!
# What a value asks of a conversion

A conversion is a metered walk. Along the type it demands visits, room for text, buffers and
containers, and it stops at the first place where the value does not fit the type. Both depend on
the type and the value only; the limits and the price list of a particular conversion decide whether
the demands up to that place can be met.
-/

namespace SupernoteModule.Conversion

open SupernoteModule.Lib SupernoteModule.Semantic SupernoteModule.Codegen

inductive Demand where
  | visit (depth : Nat)
  | text (size : Nat)
  | constant (size : Nat)
  | buffer (length : Nat)
  | object
  | array (length : Nat)
  | value (fieldCount : Nat)
deriving DecidableEq

/-- Why a value does not fit. -/
inductive Misfit where
  | mismatch
  | outOfRange
  | unknownConstant
  | illFormedText
  | overflow
  /-- The constructor of a value type throws. -/
  | rejected
deriving DecidableEq

/-- How one side reads the values it is given. -/
structure Reading where
  number : Value → Except Misfit Double
  /-- The characters of a text, or why it has none. -/
  characters : Text → Except Misfit (List Char)
  /-- The size of a text is demanded before the constants are compared. -/
  sizesFirst : Bool
  object : String → Value → Bool
  /-- A field of a value that is taken for an object. -/
  fields : Value → Option (String → Option Value)
  /-- Buffers are copied by a function with a cap of its own. -/
  copies : Bool
  /-- A value object is made of the values of its fields. -/
  admits : String → List (ConversionNode × Value) → Bool

/-! ### Surveys -/

namespace Reading

variable (reading : Reading)

def surveyScalar (kind : ScalarKind) (value : Value) : Survey Demand Misfit :=
  match kind, value with
  | .bool, .bool _ => .done
  | .int32, value =>
      Survey.given (reading.number value) fun number =>
        Survey.given (demand (integral? number) .outOfRange) fun integer =>
          Survey.provided (inInt32 integer) .outOfRange .done
  | .int64, .bigint integer => Survey.provided (inInt64 integer) .outOfRange .done
  | .float32, value =>
      Survey.given (reading.number value) fun number =>
        Survey.provided (inFloat32 number) .outOfRange .done
  | .float64, value => Survey.given (reading.number value) fun _ => .done
  | .string, .text text =>
      Survey.given (reading.characters text) fun characters => .ask (.text (utf8Length characters))
  | .bytes, value =>
      Survey.given (demand (Jsi.uint8Array? value) .mismatch) fun view =>
        (Survey.ask (.buffer view.visibleBytes.length)).andThen <|
          Survey.provided (!reading.copies || view.visibleBytes.length ≤ Lowering.copyCap)
            .outOfRange .done
  | _, _ => .stop .mismatch

def surveyConstant (constants : List String) (text : Text) : Survey Demand Misfit :=
  if reading.sizesFirst then
    Survey.given (reading.characters text) fun characters =>
      (Survey.ask (.constant (utf8Length characters))).andThen <|
        Survey.provided (∃ constant ∈ constants, constant.toList = characters) .unknownConstant
          .done
  else
    Survey.provided (∃ constant ∈ constants, Text.ofString constant = text) .unknownConstant <|
      Survey.given (reading.characters text) fun characters =>
        .ask (.constant (utf8Length characters))

/-- What is found in the fields of an object. -/
def fieldValues (read : String → Option Value) (fields : List (String × ConversionNode)) :
    List (ConversionNode × Value) :=
  fields.map fun (name, node) => (node, (read name).getD .undefined)

def surveyItems (surveyItem : Value → Survey Demand Misfit) : List Value → Survey Demand Misfit
  | [] => .done
  | item :: items =>
      Survey.provided (!item.isArrayHole) .mismatch <|
        (surveyItem item).andThen (surveyItems surveyItem items)

mutual

/-- The demands of a value along a type; depth counts from the argument. -/
def survey : ConversionNode → Value → Nat → Survey Demand Misfit
  | node, value, depth =>
      (Survey.ask (.visit depth)).andThen <| Survey.provided (!value.isUndefined) .mismatch <|
        match node with
        | .void => .stop .mismatch
        | .nullable element => if value.isNull then .done else survey element value (depth + 1)
        | .scalar kind =>
            Survey.provided (!value.isNull) .mismatch (reading.surveyScalar kind value)
        | .object typeId _ =>
            Survey.provided (!value.isNull) .mismatch <|
              Survey.provided (reading.object typeId value) .mismatch (.ask .object)
        | .enum _ _ constants =>
            Survey.provided (!value.isNull) .mismatch <|
              Survey.given (demand value.text? .mismatch) (reading.surveyConstant constants)
        | .array element =>
            Survey.provided (!value.isNull) .mismatch <|
              Survey.given (demand (Jsi.array? value) .mismatch) fun items =>
                (Survey.ask (.array items.length)).andThen <|
                  surveyItems (fun item => survey element item (depth + 1)) items
        | .value typeId _ fields =>
            Survey.provided (!value.isNull) .mismatch <|
              Survey.given (demand (reading.fields value) .mismatch) fun read =>
                (Survey.ask (.value fields.length)).andThen <|
                  (surveyFields read depth fields).andThen <|
                    Survey.provided (reading.admits typeId (fieldValues read fields)) .rejected
                      .done

def surveyFields (read : String → Option Value) (depth : Nat) :
    List (String × ConversionNode) → Survey Demand Misfit
  | [] => .done
  | (name, node) :: fields =>
      Survey.given (demand (read name) .mismatch) fun value =>
        (survey node value (depth + 1)).andThen (surveyFields read depth fields)

end

/-- The demands of a list of arguments. -/
def surveyArguments : List ConversionNode → List Value → Survey Demand Misfit
  | node :: nodes, value :: values =>
      (reading.survey node value 0).andThen (surveyArguments nodes values)
  | _, _ => .done

end Reading

/-! ### Loads -/

/-- What demands come to: how many nodes and how many levels of them, the longest of what has a
limit of its own, and the bytes for each kind. -/
structure Load where
  nodes : Nat := 0
  height : Nat := 0
  longestText : Nat := 0
  longestBuffer : Nat := 0
  longestArray : Nat := 0
  textBytes : Nat := 0
  constantBytes : Nat := 0
  bufferBytes : Nat := 0
  objectBytes : Nat := 0
  arrayBytes : Nat := 0
  valueBytes : Nat := 0

namespace Load

def add (demand : Demand) (load : Load) : Load :=
  match demand with
  | .visit depth =>
      { load with nodes := load.nodes + 1, height := max load.height (depth + 1) }
  | .text size =>
      { load with
        longestText := max load.longestText size
        textBytes := load.textBytes + size }
  | .constant size =>
      { load with
        longestText := max load.longestText size
        constantBytes := load.constantBytes + size }
  | .buffer length =>
      { load with
        longestBuffer := max load.longestBuffer length
        bufferBytes := load.bufferBytes + length }
  | .object => { load with objectBytes := load.objectBytes + pointerSize }
  | .array length =>
      { load with
        longestArray := max load.longestArray length
        arrayBytes := load.arrayBytes + (24 + length * pointerSize) }
  | .value fieldCount =>
      { load with valueBytes := load.valueBytes + (32 + fieldCount * 16) }

def of (demands : List Demand) : Load :=
  demands.foldr add {}

/-- The bytes for everything. -/
def bytes (load : Load) : Nat :=
  load.textBytes + load.constantBytes + load.bufferBytes + load.objectBytes + load.arrayBytes +
    load.valueBytes

/-- Starting at a depth, the load keeps to the limits, when so many bytes are reserved for it. -/
structure Within (limits : ConversionLimits) (start reserved : Nat) (load : Load) : Prop where
  nodes : load.nodes ≤ limits.maxVisitedNodes
  depth : start + load.height ≤ limits.maxDepth + 1
  texts : load.longestText ≤ limits.maxStringBytes
  buffers : load.longestBuffer ≤ limits.maxByteBufferBytes
  arrays : load.longestArray ≤ limits.maxArrayLength
  bytes : reserved ≤ limits.maxTemporaryBytes

end Load

/-! ### Meters -/

inductive Counter where
  | visits
  | bytes
deriving DecidableEq

/-- Which demands cost temporary bytes. -/
structure Tariff where
  text : Bool
  buffer : Bool
  constant : Bool
  object : Bool
  array : Bool
  value : Bool

def Tariff.bytes (tariff : Tariff) : Demand → Nat
  | .visit _ => 0
  | .text size => if tariff.text then size else 0
  | .constant size => if tariff.constant then size else 0
  | .buffer length => if tariff.buffer then length else 0
  | .object => if tariff.object then pointerSize else 0
  | .array length => if tariff.array then 24 + length * pointerSize else 0
  | .value fieldCount => if tariff.value then 32 + fieldCount * 16 else 0

/-- The bytes of a load that are reserved. -/
def Tariff.price (tariff : Tariff) (load : Load) : Nat :=
  (if tariff.text then load.textBytes else 0) +
    (if tariff.constant then load.constantBytes else 0) +
    (if tariff.buffer then load.bufferBytes else 0) +
    (if tariff.object then load.objectBytes else 0) +
    (if tariff.array then load.arrayBytes else 0) +
    (if tariff.value then load.valueBytes else 0)

/-- The limits, for arguments that start at a depth and under a price list. -/
def ConversionLimits.meter (limits : ConversionLimits) (start : Nat) (tariff : Tariff) :
    Meter Counter Demand where
  allows
    | .visit depth => start + depth ≤ limits.maxDepth
    | .text size | .constant size => size ≤ limits.maxStringBytes
    | .buffer length => length ≤ limits.maxByteBufferBytes
    | .array length => length ≤ limits.maxArrayLength
    | .object | .value _ => True
  cost
    | .visits, .visit _ => 1
    | .visits, _ => 0
    | .bytes, demand => tariff.bytes demand
  cap
    | .visits => limits.maxVisitedNodes
    | .bytes => limits.maxTemporaryBytes

end SupernoteModule.Conversion
