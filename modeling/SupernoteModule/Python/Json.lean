import Mathlib.Data.Rat.Defs

/-!
# Decoded JSON

What `json.loads` returns: a dictionary is its items in order, a number without a fraction is an
integer and any other finite number is its value. Equality is the one of Python, where numbers of
different types compare by value, booleans are numbers, and dictionaries do not care for order.
-/

namespace SupernoteModule.Python

inductive Json where
  | null
  | bool (value : Bool)
  | integer (value : Int)
  | real (value : Rat)
  | string (value : String)
  | array (items : List Json)
  | object (fields : List (String × Json))

namespace Json

abbrev Fields := List (String × Json)

/-- `fields.get(key)`. -/
def get (fields : Fields) (key : String) : Json :=
  (fields.lookup key).getD .null

def keys (fields : Fields) : List String :=
  fields.map Prod.fst

/-- `set(fields) == expected`. -/
def hasExactly (fields : Fields) (expected : List String) : Bool :=
  expected.all (· ∈ keys fields) && (keys fields).all (· ∈ expected)

/-- The number a value compares as. -/
def number? : Json → Option Rat
  | .bool value => some (if value then 1 else 0)
  | .integer value => some value
  | .real value => some value
  | .null | .string _ | .array _ | .object _ => none

/-- `isinstance(value, str)`. -/
def string? : Json → Option String
  | .string value => some value
  | _ => none

/-- `isinstance(value, list)`. -/
def array? : Json → Option (List Json)
  | .array items => some items
  | _ => none

/-- `isinstance(value, dict)`. -/
def object? : Json → Option Fields
  | .object fields => some fields
  | _ => none

/-- A list or a dictionary has no hash, and cannot be looked up in a set. -/
def hashable : Json → Bool
  | .array _ | .object _ => false
  | .null | .bool _ | .integer _ | .real _ | .string _ => true

mutual

/-- `left == right`. -/
def equals : Json → Json → Bool
  | .null, .null => true
  | .string left, .string right => left = right
  | .array left, .array right => equalsItems left right
  | .object left, .object right => left.length = right.length && equalsFields left right
  | left, right =>
      match left.number?, right.number? with
      | some leftNumber, some rightNumber => leftNumber = rightNumber
      | _, _ => false

def equalsItems : List Json → List Json → Bool
  | [], [] => true
  | left :: lefts, right :: rights => equals left right && equalsItems lefts rights
  | _, _ => false

/-- Every item of the first dictionary is in the second. -/
def equalsFields : Fields → Fields → Bool
  | [], _ => true
  | (key, left) :: lefts, rights =>
      (match rights.lookup key with
        | some right => equals left right
        | none => false) && equalsFields lefts rights

end

@[simp] theorem equals_string {value : Json} {text : String} :
    value.equals (.string text) ↔ value = .string text := by
  cases value <;> simp [equals, number?]

@[simp] theorem string?_eq_some {value : Json} {text : String} :
    value.string? = some text ↔ value = .string text := by
  cases value <;> simp [string?]

@[simp] theorem array?_eq_some {value : Json} {items : List Json} :
    value.array? = some items ↔ value = .array items := by
  cases value <;> simp [array?]

@[simp] theorem object?_eq_some {value : Json} {fields : Fields} :
    value.object? = some fields ↔ value = .object fields := by
  cases value <;> simp [object?]

end Json

end SupernoteModule.Python
