import Mathlib.Algebra.Group.Int.Defs
import Mathlib.Data.Rat.Defs
import SupernoteModule.Semantic.Model

/-!
# Values on both sides of the bridge

One universe holds the JavaScript values and the native values of `conversion.py`. A finite double
is its value, so that every rational stands for itself, and text is a sequence of code points in
which a surrogate may stand alone. The properties of an object are what JavaScript reads from it:
its own ones and those it inherits. The reference engine sees the own properties of a mapping only.
-/

namespace SupernoteModule.Conversion

open SupernoteModule.Semantic

/-! ### Numbers -/

inductive Double where
  | nan
  | infinity (negative : Bool)
  | negativeZero
  | finite (value : Rat)
deriving DecidableEq

namespace Double

/-- The number, when `math.isfinite` holds. -/
def value? : Double → Option Rat
  | .nan | .infinity _ => none
  | .negativeZero => some 0
  | .finite value => some value

/-- The magnitude with at most 53 significant bits next to it, halves to even. -/
def roundMagnitude (magnitude : Nat) : Nat :=
  if magnitude < 2 ^ 53 then magnitude
  else
    let shift := magnitude.log2 + 1 - 53
    let quotient := magnitude / 2 ^ shift
    let remainder := magnitude % 2 ^ shift
    let half := 2 ^ (shift - 1)
    if remainder > half ∨ remainder = half ∧ quotient % 2 = 1 then
      (quotient + 1) * 2 ^ shift
    else quotient * 2 ^ shift

/-- From here on there is no finite double. -/
def overflow : Nat := 2 ^ 1024

/-- `float(integer)`. -/
def ofInt (integer : Int) : Option Double :=
  let magnitude := roundMagnitude integer.natAbs
  if magnitude < overflow then some (.finite (integer.sign * magnitude : Int)) else none

/-- An integer with a short magnitude is a double. -/
theorem ofInt_of_lt {integer : Int} (hshort : integer.natAbs < 2 ^ 53) :
    ofInt integer = some (.finite integer) := by
  have hround : roundMagnitude integer.natAbs = integer.natAbs := by
    rw [roundMagnitude, if_pos hshort]
  have hrange : integer.natAbs < overflow := hshort.trans (by decide +kernel)
  rw [ofInt, hround, if_pos hrange, Int.sign_mul_natAbs]

/-- Rounding keeps a long magnitude long. -/
theorem le_roundMagnitude {magnitude : Nat} (hlong : 2 ^ 53 ≤ magnitude) :
    2 ^ 53 ≤ roundMagnitude magnitude := by
  have hpositive : magnitude ≠ 0 := by omega
  have hlog : 53 ≤ magnitude.log2 := (Nat.le_log2 hpositive).mpr hlong
  have hfloor : 2 ^ magnitude.log2 ≤ magnitude := Nat.log2_self_le hpositive
  have hsplit : 2 ^ magnitude.log2 = 2 ^ 52 * 2 ^ (magnitude.log2 + 1 - 53) := by
    rw [← Nat.pow_add]
    congr 1
    omega
  have hquotient : 2 ^ 52 ≤ magnitude / 2 ^ (magnitude.log2 + 1 - 53) := by
    rw [Nat.le_div_iff_mul_le (Nat.two_pow_pos _), ← hsplit]
    exact hfloor
  have hlower : 2 ^ 53 ≤ magnitude / 2 ^ (magnitude.log2 + 1 - 53) *
      2 ^ (magnitude.log2 + 1 - 53) := by
    calc
      2 ^ 53 ≤ 2 ^ magnitude.log2 := Nat.pow_le_pow_right (by omega) hlog
      _ = 2 ^ 52 * 2 ^ (magnitude.log2 + 1 - 53) := hsplit
      _ ≤ _ := Nat.mul_le_mul_right _ hquotient
  rw [roundMagnitude, if_neg (by omega)]
  dsimp only
  split
  · rw [Nat.add_mul]
    omega
  · exact hlower

theorem exists_of_ofInt {integer : Int} {double : Double} (hdouble : ofInt integer = some double) :
    ∃ rounded : Int, double = .finite rounded := by
  rw [ofInt] at hdouble
  split at hdouble
  · exact ⟨_, (Option.some.inj hdouble).symm⟩
  · cases hdouble

/-- A short double comes from the integer it equals. -/
theorem eq_of_ofInt {integer short : Int} (hshort : short.natAbs < 2 ^ 53)
    (hdouble : ofInt integer = some (.finite short)) : integer = short := by
  rw [ofInt] at hdouble
  split at hdouble
  · simp only [Option.some.injEq, Double.finite.injEq, Rat.intCast_inj] at hdouble
    have hround : roundMagnitude integer.natAbs = integer.natAbs := by
      by_contra hne
      have hlong : 2 ^ 53 ≤ integer.natAbs := by
        by_contra hlt
        exact hne (by rw [roundMagnitude, if_pos (by omega)])
      have hrounded := le_roundMagnitude hlong
      have hmagnitude := congrArg Int.natAbs hdouble
      rw [Int.natAbs_mul, Int.natAbs_natCast, Int.natAbs_sign_of_ne_zero (by omega)] at hmagnitude
      omega
    rw [hround, Int.sign_mul_natAbs] at hdouble
    exact hdouble
  · cases hdouble

end Double

/-! ### Text -/

inductive CodePoint where
  | scalar (character : Char)
  | surrogate (unit : Fin 2048)
deriving DecidableEq

abbrev Text := List CodePoint

def Text.ofString (text : String) : Text :=
  text.toList.map .scalar

/-- The characters of a text in which no surrogate stands alone. -/
def Text.wellFormed? : Text → Option (List Char)
  | [] => some []
  | .scalar character :: rest => (Text.wellFormed? rest).map (character :: ·)
  | .surrogate _ :: _ => none

theorem Text.wellFormed?_ofString (text : String) :
    (Text.ofString text).wellFormed? = some text.toList := by
  rw [ofString]
  induction text.toList with
  | nil => rfl
  | cons character characters ih =>
      rw [List.map_cons, wellFormed?, ih]
      rfl

/-- How many bytes encode the characters. -/
def utf8Length : List Char → Nat
  | [] => 0
  | character :: rest => character.utf8Size + utf8Length rest

/-- `len(text.encode("utf-8"))`, unless a surrogate stands alone. -/
def Text.utf8Size (text : Text) : Option Nat :=
  text.wellFormed?.map utf8Length

/-! ### Values -/

inductive BufferKind where
  | bytes
  | bytearray
  | memoryview
deriving DecidableEq

structure JsUint8Array where
  buffer : List UInt8
  byteOffset : Nat
  byteLength : Nat
  valid : byteOffset + byteLength ≤ buffer.length
deriving DecidableEq

/-- `JsUint8Array.visible_bytes`. -/
def JsUint8Array.visibleBytes (view : JsUint8Array) : List UInt8 :=
  (view.buffer.drop view.byteOffset).take view.byteLength

/-- `JsUint8Array(buffer)`. -/
def JsUint8Array.whole (buffer : List UInt8) : JsUint8Array where
  buffer := buffer
  byteOffset := 0
  byteLength := buffer.length
  valid := by simp

@[simp] theorem JsUint8Array.visibleBytes_whole (buffer : List UInt8) :
    (JsUint8Array.whole buffer).visibleBytes = buffer := by
  simp [visibleBytes, whole]

structure NativeObjectToken where
  typeId : String
  backendFamily : BackendFamily
  identity : Nat
  valid : typeId ≠ ""
deriving DecidableEq

inductive ObjectForm where
  | mapping
  | uint8Array (view : JsUint8Array)
  | nativeObject (token : NativeObjectToken)
  | function
deriving DecidableEq

inductive Value where
  | undefined
  | arrayHole
  | null
  | bool (value : Bool)
  | int (value : Int)
  | float (value : Double)
  | text (text : Text)
  | bigint (value : Int)
  | buffer (kind : BufferKind) (content : List UInt8)
  | list (items : List Value)
  | tuple (items : List Value)
  | object (form : ObjectForm) (own inherited : List (String × Value))
  | foreign (typeName : String)

namespace Value

def isUndefined : Value → Bool
  | .undefined => true
  | _ => false

def isArrayHole : Value → Bool
  | .arrayHole => true
  | _ => false

def isNull : Value → Bool
  | .null => true
  | _ => false

def text? : Value → Option Text
  | .text content => some content
  | _ => none

/-- `_actual`. -/
def actual : Value → String
  | .undefined => "undefined"
  | .arrayHole => "array hole"
  | .null => "null"
  | .bool _ => "boolean"
  | .int _ | .float _ => "number"
  | .text _ => "string"
  | .bigint _ => "bigint"
  | .buffer .bytes _ => "bytes"
  | .buffer .bytearray _ => "bytearray"
  | .buffer .memoryview _ => "memoryview"
  | .list _ => "Array"
  | .tuple _ => "tuple"
  | .object .mapping _ _ => "object"
  | .object (.uint8Array _) _ _ => "Uint8Array"
  | .object (.nativeObject token) _ _ => s!"native object {token.typeId}"
  | .object .function _ _ => "function"
  | .foreign typeName => typeName

end Value

end SupernoteModule.Conversion
