import SupernoteModule.Conversion.Engine

/-!
# What generated code sees of JavaScript

Generated code reads values through JSI, throws the built-in error constructors, and counts its
work in the budget of the native runtime. The engine decides how ill-formed text is encoded; for
text that is well formed it gives the characters.
-/

namespace SupernoteModule.Codegen

open SupernoteModule.Lib SupernoteModule.Semantic SupernoteModule.Conversion

/-! ### Reading values -/

/-- `String::utf8` of the engine, as the characters that its bytes encode. -/
structure Engine where
  utf8 : Text → List Char
  faithful : ∀ text characters, text.wellFormed? = some characters → utf8 text = characters

/-- Lone surrogates become replacement characters. -/
def Engine.replacing : Engine where
  utf8 text := text.map fun
    | .scalar character => character
    | .surrogate _ => '\uFFFD'
  faithful text characters hwellFormed := by
    induction text generalizing characters with
    | nil => simpa [Text.wellFormed?] using hwellFormed
    | cons point text ih =>
        cases point with
        | surrogate unit => simp [Text.wellFormed?] at hwellFormed
        | scalar character =>
            simp only [Text.wellFormed?, Option.map_eq_some_iff] at hwellFormed
            obtain ⟨rest, hrest, rfl⟩ := hwellFormed
            rw [List.map_cons, ih rest hrest]

namespace Jsi

/-- `asNumber`, of the values for which `isNumber` holds. -/
def number? : Value → Option Double
  | .int integer => Double.ofInt integer
  | .float double => some double
  | _ => none

/-- `getArray`, of the values for which `isArray` holds; an index without a value is a hole. -/
def array? : Value → Option (List Value)
  | .list items => some items
  | _ => none

/-- `getObject`, of the values for which `isObject` holds and `isArray` does not. -/
def object? : Value → Option (List (String × Value) × List (String × Value))
  | .object _ own inherited => some (own, inherited)
  | _ => none

/-- `getProperty`, which looks for an inherited property when there is no own one. -/
def getProperty (properties : List (String × Value) × List (String × Value)) (name : String) :
    Value :=
  (properties.1.lookup name).getD ((properties.2.lookup name).getD .undefined)

/-- `supernote_object_has_own_property`. -/
def hasOwnProperty (properties : List (String × Value) × List (String × Value)) (name : String) :
    Bool :=
  (properties.1.lookup name).isSome

/-- `supernote_is_uint8_array` and the snapshot of the view. -/
def uint8Array? : Value → Option JsUint8Array
  | .object (.uint8Array view) _ _ => some view
  | _ => none

/-- `try_extract_cpp_object` and `try_extract_jvm_object`: a handle of the family and the type. -/
def managedObject? (backend : BackendFamily) (typeId : String) : Value → Option NativeObjectToken
  | .object (.nativeObject token) _ _ =>
      if token.backendFamily = backend ∧ token.typeId = typeId then some token else none
  | _ => none

/-- `supernote_describe_value`. -/
def describe : Value → String
  | .undefined => "undefined"
  | .null => "null"
  | .bool _ => "boolean"
  | .int _ | .float _ => "number"
  | .bigint _ => "bigint"
  | .text _ => "string"
  | .list _ => "Array"
  | .object .function _ _ => "function"
  | .object _ _ _ => "object"
  | .arrayHole | .buffer _ _ | .tuple _ | .foreign _ => "unknown"

end Jsi

/-! ### Errors -/

inductive BuiltinConstructor where
  | typeError
  | rangeError
deriving DecidableEq

/-- An error of `supernote_make_builtin_error`. -/
structure BuiltinError where
  constructor : BuiltinConstructor
  message : String
  reason : String
  path : String := ""
  expected : String := ""
  actual : String := "unknown"
deriving DecidableEq

/-- What leaves a generated conversion: a JavaScript error, a failure of the budget, an exception of
the implementation's adapter, or any other native exception. -/
inductive Thrown where
  | builtin (error : BuiltinError)
  | failure (failure : Failure)
  | implementation (message : String)
  | standard (message : String)
deriving DecidableEq

/-! ### The budget -/

/-- `supernote::conversion::Budget`, without a gate. -/
structure Budget where
  visitedNodes : Nat := 0
  temporaryBytes : Nat := 0
deriving DecidableEq

namespace Budget

/-- `checked_add`. -/
def checkedAdd (left right : Nat) (path label : String) : Except Thrown Nat := do
  require (left ≤ maxCounter ∧ right ≤ maxCounter - left)
    (.failure ⟨.range, path, s!"{label} counter overflow"⟩)
  return left + right

def visit (limits : ConversionLimits) (budget : Budget) (path : String) (depth : Nat) :
    Except Thrown Budget := do
  require (depth ≤ limits.maxDepth)
    (.failure ⟨.range, path, "conversion depth exceeds configured limit"⟩)
  let visitedNodes ← checkedAdd budget.visitedNodes 1 path "visited-node"
  require (visitedNodes ≤ limits.maxVisitedNodes)
    (.failure ⟨.range, path, "conversion visits exceed configured limit"⟩)
  return { budget with visitedNodes := visitedNodes }

def checkArrayLength (limits : ConversionLimits) (path : String) (length : Nat) :
    Except Thrown Unit :=
  require (length ≤ limits.maxArrayLength)
    (.failure ⟨.range, path, "array length exceeds configured limit"⟩)

def checkStringBytes (limits : ConversionLimits) (path : String) (size : Nat) :
    Except Thrown Unit :=
  require (size ≤ limits.maxStringBytes)
    (.failure ⟨.range, path, "UTF-8 string exceeds configured limit"⟩)

def checkByteBuffer (limits : ConversionLimits) (path : String) (size : Nat) :
    Except Thrown Unit :=
  require (size ≤ limits.maxByteBufferBytes)
    (.failure ⟨.range, path, "byte buffer exceeds configured limit"⟩)

def reserve (limits : ConversionLimits) (budget : Budget) (path : String) (amount : Nat) :
    Except Thrown Budget := do
  let temporaryBytes ← checkedAdd budget.temporaryBytes amount path "temporary-byte"
  require (temporaryBytes ≤ limits.maxTemporaryBytes)
    (.failure ⟨.range, path, "temporary allocation exceeds configured limit"⟩)
  return { budget with temporaryBytes := temporaryBytes }

end Budget

end SupernoteModule.Codegen
