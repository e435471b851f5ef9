import SupernoteModule.Python.Collections
import SupernoteModule.Python.Json
import SupernoteModule.Python.Text

/-!
# Rendered JSON

`json.dumps(value, indent=2, sort_keys=True)`: every item on a line of its own, the keys of a
dictionary in order, and nothing but ASCII. How a float is written is left to the interpreter.
-/

namespace SupernoteModule.Python.Json

/-- `\u` and four digits. -/
def escapeUnit (code : Nat) : List Char :=
  let digits := Nat.toDigits 16 code
  backslash :: 'u' :: (List.replicate (4 - digits.length) '0' ++ digits)

/-- A character beyond the basic plane is written as a surrogate pair. -/
def escapeChar (char : Char) : List Char :=
  let code := char.toNat
  if char = doubleQuote ∨ char = backslash then [backslash, char]
  else if 0x20 ≤ code ∧ code ≤ 0x7e then [char]
  else if code = 0x0a then [backslash, 'n']
  else if code = 0x0d then [backslash, 'r']
  else if code = 0x09 then [backslash, 't']
  else if code = 0x0c then [backslash, 'f']
  else if code = 0x08 then [backslash, 'b']
  else if code < 0x10000 then escapeUnit code
  else
    escapeUnit (0xd800 + (code - 0x10000) / 0x400) ++
      escapeUnit (0xdc00 + (code - 0x10000) % 0x400)

def renderString (text : String) : List Char :=
  doubleQuote :: text.toList.flatMap escapeChar ++ [doubleQuote]

/-- A line break, and the indentation of a level. -/
def newline (level : Nat) : List Char :=
  Char.ofNat 0x0a :: List.replicate (2 * level) ' '

/-- The items of a level between two brackets. -/
def bracketed (opening closing : Char) (level : Nat) (items : List (List Char)) : List Char :=
  match items with
  | [] => [opening, closing]
  | first :: rest =>
      opening :: newline (level + 1) ++ first ++
        rest.flatMap (fun item => ',' :: newline (level + 1) ++ item) ++
        newline level ++ [closing]

section Render

variable (floatRepr : Rat → String)

mutual

def render (level : Nat) : Json → List Char
  | .null => "null".toList
  | .bool value => (if value then "true" else "false").toList
  | .integer value => (toString value).toList
  | .real value => (floatRepr value).toList
  | .string text => renderString text
  | .array items => bracketed '[' ']' level (renderItems (level + 1) items)
  | .object fields =>
      let rows := sortedBy Prod.fst (renderFields (level + 1) fields)
      bracketed (Char.ofNat 0x7b) (Char.ofNat 0x7d) level
        (rows.map fun (key, value) => renderString key ++ [':', ' '] ++ value)

def renderItems (level : Nat) : List Json → List (List Char)
  | [] => []
  | item :: items => render level item :: renderItems level items

def renderFields (level : Nat) : List (String × Json) → List (String × List Char)
  | [] => []
  | (key, value) :: fields => (key, render level value) :: renderFields level fields

end

/-- The bytes of `json.dumps(value, indent=2, sort_keys=True)` and a line break. -/
def dumpsLine (value : Json) : List UInt8 :=
  (render floatRepr 0 value ++ newline 0).map Char.toUInt8

end Render

/-! ### In a message -/

mutual

/-- `repr(value)`. A decoded float has its value and not its text, so it is shown as a fraction. -/
def shown : Json → String
  | .null => "None"
  | .bool value => if value then "True" else "False"
  | .integer value => toString value
  | .real value => toString value
  | .string text => Python.repr text
  | .array items => "[" ++ ", ".intercalate (shownItems items) ++ "]"
  | .object fields => "\x7b" ++ ", ".intercalate (shownFields fields) ++ "\x7d"

def shownItems : List Json → List String
  | [] => []
  | item :: items => shown item :: shownItems items

def shownFields : List (String × Json) → List String
  | [] => []
  | (key, value) :: fields => (Python.repr key ++ ": " ++ shown value) :: shownFields fields

end

end SupernoteModule.Python.Json
