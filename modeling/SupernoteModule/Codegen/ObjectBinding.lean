import SupernoteModule.Codegen.Jsi

/-!
# Generated argument conversion

For every type the renderers emit a function that validates a JavaScript value and one that
converts it. All four are the same walk: they visit the node, look at the value, and recurse. They
differ in what they reserve, in how they read the fields of an object, in what they throw, and in
whether they build the value objects, which is what a `Lowering` records. A void node has no
function; parameters are never void.
-/

namespace SupernoteModule.Codegen

open SupernoteModule.Lib SupernoteModule.Semantic SupernoteModule.Conversion

/-- What a conversion gives to the implementation; `single` stands for the nearest single. -/
inductive Native where
  | absent
  | bool (value : Bool)
  | int32 (value : Int)
  | int64 (value : Int)
  | single (value : Double)
  | double (value : Double)
  | string (characters : List Char)
  | bytes (content : List UInt8)
  | constant (typeId : String) (name : List Char)
  | managed (token : NativeObjectToken)
  | list (items : List Native)
  | record (typeId : String) (fields : List Native)

/-- The budget of one call, and the objects it keeps alive. -/
structure Progress where
  budget : Budget := {}
  retained : List NativeObjectToken := []
deriving DecidableEq

/-- The constructors of the value types, which their authors have written: with which message one
throws on the fields of a value, if it throws. -/
abbrev ValueConstructor := String → List Native → Option String

structure Lowering where
  backend : BackendFamily
  /-- Which reservations follow the checks of a kind. -/
  reservesText : Bool
  reservesBuffer : Bool
  reservesConstant : Bool
  reservesObject : Bool
  reservesArray : Bool
  reservesValue : Bool
  /-- Objects are retained. -/
  retains : Bool
  /-- Buffers are copied, by `supernote_copy_uint8_array`. -/
  copies : Bool
  /-- A field must be an own property. -/
  ownFields : Bool
  expected : ScalarKind → String
  rangeError : ScalarKind → String → Value → Thrown
  nominalError : String → String → Value → Thrown
  unknownConstant : String → String → Value → Thrown
  /-- What becomes of the fields of a value object. -/
  build : String → List Native → Except Thrown Native

namespace Lowering

/-- The exception of a constructor is the error of the conversion. -/
def construct (constructor : ValueConstructor) (error : String → Thrown) (typeId : String)
    (fields : List Native) : Except Thrown Native :=
  match constructor typeId fields with
  | none => .ok (.record typeId fields)
  | some message => .error (error message)

variable (lowering : Lowering) (limits : ConversionLimits) (engine : Engine)

/-- `_input_type_error` and `_type_error`. -/
def mismatch (path expected : String) (value : Value) : Thrown :=
  .builtin {
    constructor := .typeError
    message := s!"{path}: expected {expected}"
    reason := "TYPE_MISMATCH"
    path := path
    expected := expected
    actual := Jsi.describe value }

def missingField (path : String) : Thrown :=
  .builtin {
    constructor := .typeError
    message := s!"{path}: expected a present field"
    reason := "MISSING_FIELD"
    path := path
    expected := "present field"
    actual := "missing" }

def missingElement (path : String) : Thrown :=
  .builtin {
    constructor := .typeError
    message := s!"{path}: expected a present array element"
    reason := "TYPE_MISMATCH"
    path := path
    expected := "present array element"
    actual := "missing" }

/-! ### What a node asks of the budget -/

def visit (progress : Progress) (path : String) (depth : Nat) : Except Thrown Progress := do
  let budget ← progress.budget.visit limits path depth
  return { progress with budget := budget }

/-- A reservation that the lowering may leave out. -/
def reserveIf (reserves : Bool) (progress : Progress) (path : String) (amount : Nat) :
    Except Thrown Progress :=
  if reserves then do
    let budget ← progress.budget.reserve limits path amount
    return { progress with budget := budget }
  else .ok progress

def takeText (progress : Progress) (path : String) (size : Nat) : Except Thrown Progress := do
  Budget.checkStringBytes limits path size
  reserveIf limits lowering.reservesText progress path size

def takeConstant (progress : Progress) (path : String) (size : Nat) :
    Except Thrown Progress := do
  Budget.checkStringBytes limits path size
  reserveIf limits lowering.reservesConstant progress path size

def takeBuffer (progress : Progress) (path : String) (length : Nat) :
    Except Thrown Progress := do
  Budget.checkByteBuffer limits path length
  reserveIf limits lowering.reservesBuffer progress path length

def takeObject (progress : Progress) (path : String) : Except Thrown Progress :=
  reserveIf limits lowering.reservesObject progress path pointerSize

def takeArray (progress : Progress) (path : String) (length : Nat) :
    Except Thrown Progress := do
  Budget.checkArrayLength limits path length
  reserveIf limits lowering.reservesArray progress path (24 + length * pointerSize)

def takeValue (progress : Progress) (path : String) (fieldCount : Nat) : Except Thrown Progress :=
  reserveIf limits lowering.reservesValue progress path (32 + fieldCount * 16)

/-- `kMaxByteBufferBytes`. -/
def copyCap : Nat := 32 * 1024 * 1024

/-- `supernote_copy_uint8_array`. -/
def copyUint8Array (content : List UInt8) : Except Thrown (List UInt8) := do
  require (content.length ≤ copyCap) (.builtin {
    constructor := .rangeError
    message := "Uint8Array byteLength exceeds the generated conversion limit"
    reason := "LIMIT_EXCEEDED"
    path := "Uint8Array.byteLength"
    expected := "at most 33554432 bytes"
    actual := s!"{content.length} bytes" })
  return content

/-! ### Scalars -/

def walkScalar (kind : ScalarKind) (value : Value) (progress : Progress) (path : String) :
    Except Thrown (Native × Progress) :=
  match kind with
  | .bool =>
      match value with
      | .bool flag => .ok (.bool flag, progress)
      | value => .error (mismatch path (lowering.expected .bool) value)
  | .int32 => do
      let number ← demand (Jsi.number? value) (mismatch path (lowering.expected .int32) value)
      let integer ← demand (integral? number) (lowering.rangeError .int32 path value)
      require (inInt32 integer) (lowering.rangeError .int32 path value)
      return (.int32 integer, progress)
  | .int64 =>
      match value with
      | .bigint integer => do
          require (inInt64 integer) (lowering.rangeError .int64 path value)
          return (.int64 integer, progress)
      | value => .error (mismatch path (lowering.expected .int64) value)
  | .float32 => do
      let number ← demand (Jsi.number? value) (mismatch path (lowering.expected .float32) value)
      require (inFloat32 number) (lowering.rangeError .float32 path value)
      return (.single number, progress)
  | .float64 => do
      let number ← demand (Jsi.number? value) (mismatch path (lowering.expected .float64) value)
      return (.double number, progress)
  | .string =>
      match value with
      | .text text => do
          let progress ← lowering.takeText limits progress path (utf8Length (engine.utf8 text))
          return (.string (engine.utf8 text), progress)
      | value => .error (mismatch path (lowering.expected .string) value)
  | .bytes => do
      let view ← demand (Jsi.uint8Array? value) (mismatch path (lowering.expected .bytes) value)
      let progress ← lowering.takeBuffer limits progress path view.visibleBytes.length
      if lowering.copies then
        let content ← copyUint8Array view.visibleBytes
        return (.bytes content, progress)
      else return (.bytes view.visibleBytes, progress)

/-! ### The walk -/

/-- The elements of an array in order, each an own property of it. -/
def walkItems (walkItem : Value → Progress → String → Except Thrown (Native × Progress))
    (path : String) : Nat → List Value → Progress → Except Thrown (List Native × Progress)
  | _, [], progress => .ok ([], progress)
  | index, item :: items, progress => do
      require (¬ item.isArrayHole) (missingElement (indexPath path index))
      let (converted, progress) ← walkItem item progress (indexPath path index)
      let (rest, progress) ← walkItems walkItem path (index + 1) items progress
      return (converted :: rest, progress)

mutual

/-- The function of a type. -/
def walk : ConversionNode → Value → Progress → String → Nat → Except Thrown (Native × Progress)
  | node, value, progress, path, depth => do
      let progress ← visit limits progress path depth
      require (¬ value.isUndefined) (mismatch path "a defined value" value)
      match node with
      | .void => .error (.standard "void has no conversion")
      | .nullable element =>
          if value.isNull then return (.absent, progress)
          else walk element value progress path (depth + 1)
      | .scalar kind => do
          require (¬ value.isNull) (mismatch path "a non-null value" value)
          lowering.walkScalar limits engine kind value progress path
      | .object typeId publicName => do
          require (¬ value.isNull) (mismatch path "a non-null value" value)
          let token ← demand (Jsi.managedObject? lowering.backend typeId value)
            (lowering.nominalError path publicName value)
          let progress ← lowering.takeObject limits progress path
          return (.managed token,
            if lowering.retains then { progress with retained := progress.retained ++ [token] }
            else progress)
      | .enum typeId publicName constants => do
          require (¬ value.isNull) (mismatch path "a non-null value" value)
          match value with
          | .text text => do
              let progress ←
                lowering.takeConstant limits progress path (utf8Length (engine.utf8 text))
              require (engine.utf8 text ∈ constants.map String.toList)
                (lowering.unknownConstant path publicName value)
              return (.constant typeId (engine.utf8 text), progress)
          | value => .error (mismatch path publicName value)
      | .array element => do
          require (¬ value.isNull) (mismatch path "a non-null value" value)
          let items ← demand (Jsi.array? value) (mismatch path "a dense Array" value)
          let progress ← lowering.takeArray limits progress path items.length
          let (converted, progress) ← walkItems
            (fun item progress itemPath => walk element item progress itemPath (depth + 1))
            path 0 items progress
          return (.list converted, progress)
      | .value typeId publicName fields => do
          require (¬ value.isNull) (mismatch path "a non-null value" value)
          let properties ← demand (Jsi.object? value) (mismatch path publicName value)
          let progress ← lowering.takeValue limits progress path fields.length
          let (converted, progress) ← walkFields properties path depth fields progress
          let built ← lowering.build typeId converted
          return (built, progress)

/-- The declared fields of an object, in order. -/
def walkFields (properties : List (String × Value) × List (String × Value)) (path : String)
    (depth : Nat) :
    List (String × ConversionNode) → Progress → Except Thrown (List Native × Progress)
  | [], progress => .ok ([], progress)
  | (name, node) :: fields, progress => do
      require (lowering.ownFields → Jsi.hasOwnProperty properties name)
        (missingField (fieldPath path name))
      let (converted, progress) ← walk node (Jsi.getProperty properties name) progress
        (fieldPath path name) (depth + 1)
      let (rest, progress) ← walkFields properties path depth fields progress
      return (converted :: rest, progress)

end

/-- The parameters of a route in order, sharing one budget; `path` names each of them. -/
def walkArguments (path : Nat → String → String) (start : Nat) :
    Nat → List (String × ConversionNode) → List Value → Progress →
      Except Thrown (List Native × Progress)
  | index, (name, node) :: parameters, value :: values, progress => do
      let (converted, progress) ←
        lowering.walk limits engine node value progress (path index name) start
      let (rest, progress) ← walkArguments path start (index + 1) parameters values progress
      return (converted :: rest, progress)
  | _, _, _, progress => .ok ([], progress)

end Lowering

/-! ### The four functions -/

def outOfRange (message path expected actual : String) : Thrown :=
  .builtin {
    constructor := .rangeError
    message := message
    reason := "OUT_OF_RANGE"
    path := path
    expected := expected
    actual := actual }

def nominalMismatch (path publicName : String) (value : Value) : Thrown :=
  .builtin {
    constructor := .typeError
    message := s!"{path}: expected {publicName}"
    reason := "NOMINAL_MISMATCH"
    path := path
    expected := publicName
    actual := Jsi.describe value }

def invalidEnum (path publicName actual : String) : Thrown :=
  .builtin {
    constructor := .typeError
    message := s!"{path}: expected {publicName}"
    reason := "INVALID_ENUM"
    path := path
    expected := publicName
    actual := actual }

namespace Cpp

def expected : ScalarKind → String
  | .bool => "boolean"
  | .int32 => "an int32 number"
  | .int64 => "an int64 bigint"
  | .float32 => "a float32 number"
  | .float64 => "a float64 number"
  | .string => "a string"
  | .bytes => "a Uint8Array"

/-- Only the three numbers that have a range are asked for. -/
def rangeError (kind : ScalarKind) (path : String) (value : Value) : Thrown :=
  match kind with
  | .int32 => outOfRange s!"{path}: int32 value is out of range" path "int32" (Jsi.describe value)
  | .int64 => outOfRange s!"{path}: int64 value is out of range" path "int64 bigint" "bigint"
  | _ => outOfRange s!"{path}: float32 value is out of range" path "float32" "number"

/-- `_validate_js_definition`. -/
def validateJs : Lowering where
  backend := .cpp
  reservesText := false
  reservesBuffer := false
  reservesConstant := false
  reservesObject := true
  reservesArray := false
  reservesValue := false
  retains := false
  copies := false
  ownFields := true
  expected := expected
  rangeError := rangeError
  nominalError := nominalMismatch
  unknownConstant path publicName _ := invalidEnum path publicName "string"
  build typeId fields := .ok (.record typeId fields)

/-- `_from_js_definition`. What a constructor throws is a `std::exception`. -/
def fromJs (constructor : ValueConstructor) : Lowering where
  backend := .cpp
  reservesText := true
  reservesBuffer := true
  reservesConstant := true
  reservesObject := true
  reservesArray := true
  reservesValue := true
  retains := true
  copies := true
  ownFields := true
  expected := expected
  rangeError := rangeError
  nominalError := nominalMismatch
  unknownConstant path publicName value := invalidEnum path publicName (Jsi.describe value)
  build := Lowering.construct constructor .standard

end Cpp

namespace Jvm

def expected : ScalarKind → String
  | .float64 => "a number"
  | kind => Cpp.expected kind

def rangeText : ScalarKind → String
  | .int32 => "int32"
  | .int64 => "int64"
  | _ => "float32"

/-- `_validate_definition`. -/
def validate : Lowering where
  backend := .jvm
  reservesText := false
  reservesBuffer := false
  reservesConstant := false
  reservesObject := true
  reservesArray := false
  reservesValue := false
  retains := false
  copies := false
  ownFields := false
  expected := expected
  rangeError kind path _ :=
    outOfRange s!"{path} is outside {rangeText kind} range" path
      (if kind = .int64 then "int64 bigint" else rangeText kind)
      (if kind = .int64 then "bigint" else "number")
  nominalError := nominalMismatch
  unknownConstant path publicName _ := invalidEnum path publicName "string"
  build typeId fields := .ok (.record typeId fields)

/-- `require_no_implementation_exception`. -/
def implementationFailure (message : String) : Thrown :=
  .implementation
    (if message.isEmpty then "Kotlin/Java implementation failed"
      else "Kotlin/Java implementation failed: " ++ message)

/-- `_from_definition`. The adapter of an enum throws on names that are not constants. -/
def fromJs (constructor : ValueConstructor) : Lowering where
  backend := .jvm
  reservesText := true
  reservesBuffer := true
  reservesConstant := false
  reservesObject := false
  reservesArray := false
  reservesValue := false
  retains := false
  copies := true
  ownFields := false
  expected := expected
  rangeError kind path _ :=
    outOfRange s!"{path} is outside {rangeText kind} range" "" "" "unknown"
  nominalError path _ value :=
    Lowering.mismatch path "the exact nominal JVM object type" value
  unknownConstant _ _ _ := implementationFailure "no such enum constant"
  build := Lowering.construct constructor implementationFailure

end Jvm

/-! ### Callables -/

inductive CallableMode where
  | sync
  | async
  | suspend
deriving DecidableEq

/-- What JavaScript catches. -/
inductive JsError where
  | builtin (error : BuiltinError)
  | supernote (code message : String)
deriving DecidableEq

def arityMismatch (diagnostic : String) (expected actual : Nat) : BuiltinError where
  constructor := .typeError
  message := s!"{diagnostic}: wrong argument count"
  reason := "ARITY_MISMATCH"
  path := diagnostic
  expected := s!"{expected} arguments"
  actual := s!"{actual} arguments"

def oneValue (diagnostic : String) (actual : Nat) : BuiltinError where
  constructor := .typeError
  message := s!"{diagnostic}: expected one value"
  reason := "ARITY_MISMATCH"
  path := diagnostic
  expected := "1 argument"
  actual := s!"{actual} arguments"

def limitExceeded (expected : String) (failure : Failure) : BuiltinError where
  constructor := if failure.kind = .range then .rangeError else .typeError
  message := failure.what
  reason := if failure.kind = .range then "LIMIT_EXCEEDED" else "TYPE_MISMATCH"
  path := failure.path
  expected := expected
  actual := "rejected"

/-- The handlers around the validation of a preflight function. -/
def preflightError (expected : String) : Thrown → JsError
  | .builtin error => .builtin error
  | .failure failure =>
      if failure.kind = .allocation then .supernote "RESOURCE_EXHAUSTED" failure.what
      else .builtin (limitExceeded expected failure)
  | .implementation message | .standard message => .supernote "INTERNAL" message

namespace Cpp

def argumentPath (diagnostic : String) (index : Nat) (name : String) : String :=
  s!"{diagnostic}.argument[{index}]({name})"

/-- The handlers of `_callable_body` and `_async_host_function`. -/
def callableError (mode : CallableMode) (diagnostic : String) : Thrown → JsError
  | .builtin error => .builtin error
  | .failure failure =>
      match failure.kind with
      | .type => .builtin (limitExceeded "valid generated value" failure)
      | .range => .builtin (limitExceeded "within generated conversion limits" failure)
      | _ => .supernote "INTERNAL" failure.what
  | .implementation message | .standard message =>
      .supernote (if mode = .sync then "IMPLEMENTATION_ERROR" else "INTERNAL")
        s!"{diagnostic}: {message}"

/-- `_preflight_host_function`: the error that `checkArguments` reports, and for which `accepts` is
false. -/
def preflight (limits : ConversionLimits) (engine : Engine) (diagnostic : String)
    (parameters : List (String × ConversionNode)) (arguments : List Value) :
    Except JsError Unit := do
  require (arguments.length = parameters.length)
    (.builtin (arityMismatch diagnostic parameters.length arguments.length))
  let _ ← (validateJs.walkArguments limits engine (argumentPath diagnostic) 1 0 parameters
    arguments {}).mapError (preflightError "within generated conversion limits")
  return ()

/-- `_type_guard_host_function`: the error that `check` reports, and for which `is` is false. -/
def typeGuard (limits : ConversionLimits) (engine : Engine) (diagnostic : String)
    (node : ConversionNode) (arguments : List Value) : Except JsError Unit := do
  require (arguments.length = 1) (.builtin (oneValue diagnostic arguments.length))
  let _ ← (validateJs.walkArguments limits engine (fun _ _ => diagnostic) 1 0 [("", node)]
    arguments {}).mapError (preflightError "valid declared value")
  return ()

/-- The conversions of a generated callable. -/
def callArguments (limits : ConversionLimits) (engine : Engine) (constructor : ValueConstructor)
    (mode : CallableMode) (diagnostic : String) (parameters : List (String × ConversionNode))
    (arguments : List Value) : Except JsError (List Native × Progress) := do
  require (arguments.length = parameters.length)
    (.builtin (arityMismatch diagnostic parameters.length arguments.length))
  ((fromJs constructor).walkArguments limits engine (argumentPath diagnostic) 1 0 parameters
    arguments {}).mapError (callableError mode diagnostic)

end Cpp

namespace Jvm

/-- The handlers of `_callable_body`, and those of the asynchronous host functions, which know no
conversion failure. -/
def callableError (mode : CallableMode) : Thrown → JsError
  | .builtin error => .builtin error
  | .failure failure =>
      match mode, failure.kind with
      | .sync, .type =>
          .builtin { constructor := .typeError, message := failure.what, reason := "TYPE_MISMATCH" }
      | .sync, .range =>
          .builtin { constructor := .rangeError, message := failure.what, reason := "OUT_OF_RANGE" }
      | .sync, _ => .supernote "RESOURCE_EXHAUSTED" failure.what
      | .async, _ | .suspend, _ => .supernote "INTERNAL" failure.what
  | .implementation message =>
      .supernote (if mode = .sync then "IMPLEMENTATION_ERROR" else "INTERNAL") message
  | .standard message => .supernote "INTERNAL" message

/-- `_jvm_preflight_host_function`. -/
def preflight (limits : ConversionLimits) (engine : Engine) (diagnostic : String)
    (parameters : List (String × ConversionNode)) (arguments : List Value) :
    Except JsError Unit := do
  require (arguments.length = parameters.length)
    (.builtin (arityMismatch diagnostic parameters.length arguments.length))
  let _ ← (validate.walkArguments limits engine
    (fun index _ => s!"{diagnostic}.argument[{index}]") 1 0 parameters arguments {}).mapError
      (preflightError "within generated conversion limits")
  return ()

/-- `_jvm_type_guard_host_function`. -/
def typeGuard (limits : ConversionLimits) (engine : Engine) (diagnostic : String)
    (node : ConversionNode) (arguments : List Value) : Except JsError Unit := do
  require (arguments.length = 1) (.builtin (oneValue diagnostic arguments.length))
  let _ ← (validate.walkArguments limits engine (fun _ _ => diagnostic) 1 0 [("", node)]
    arguments {}).mapError (preflightError "valid declared value")
  return ()

/-- The conversions of `_callable_body`, `_async_host_function` and `_suspend_host_function`. -/
def callArguments (limits : ConversionLimits) (engine : Engine) (constructor : ValueConstructor)
    (mode : CallableMode) (diagnostic : String) (parameters : List (String × ConversionNode))
    (arguments : List Value) : Except JsError (List Native × Progress) := do
  require (arguments.length = parameters.length)
    (.builtin (arityMismatch diagnostic parameters.length arguments.length))
  ((fromJs constructor).walkArguments limits engine
    (fun index _ => s!"{diagnostic}: argument {index + 1}") 0 0 parameters arguments {}).mapError
      (callableError mode)

end Jvm

end SupernoteModule.Codegen
