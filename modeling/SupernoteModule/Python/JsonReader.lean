import SupernoteModule.Python.Collections
import SupernoteModule.Python.Json
import SupernoteModule.Python.Text

/-!
# Read JSON

`json.loads`: one value with nothing but white space around it. Control characters are refused
inside strings, and of two items of a dictionary with one key the later one counts. How a float is
read is left to the interpreter. A text that escapes half of a surrogate pair has no value here, and
no text is nested too deep for the interpreter.
-/

namespace SupernoteModule.Python.Json

/-- `WHITESPACE`. -/
def isSpace (char : Char) : Bool :=
  char = ' ' ∨ char = '\t' ∨ char = '\n' ∨ char = '\r'

def skip (text : List Char) : List Char :=
  text.dropWhile isSpace

/-- The rest of a text that starts with a given character. -/
def afterChar (expected : Char) : List Char → Option (List Char)
  | [] => none
  | first :: rest => if first = expected then some rest else none

/-- The rest of a text that starts with a given word. -/
def afterWord : List Char → List Char → Option (List Char)
  | [], text => some text
  | expected :: word, text => do
      let rest ← afterChar expected text
      afterWord word rest

/-! ### Strings -/

def hexDigit (char : Char) : Option Nat :=
  if '0' ≤ char ∧ char ≤ '9' then some (char.toNat - '0'.toNat)
  else if 'a' ≤ char ∧ char ≤ 'f' then some (char.toNat - 'a'.toNat + 10)
  else if 'A' ≤ char ∧ char ≤ 'F' then some (char.toNat - 'A'.toNat + 10)
  else none

def hexNumber (digits : List Char) : Option Nat :=
  digits.foldlM (fun number char => (hexDigit char).map (16 * number + ·)) 0

/-- `_decode_uXXXX`. -/
def decodeUnit (text : List Char) : Option (Nat × List Char) := do
  let number ← hexNumber (text.take 4)
  if (text.take 4).length = 4 then some (number, text.drop 4) else none

/-- The character of an escape with four digits, or of two of them that make a pair. -/
def decodeUnits (text : List Char) : Option (Char × List Char) := do
  let (unit, rest) ← decodeUnit text
  if 0xd800 ≤ unit ∧ unit < 0xdc00 then do
    let rest ← afterWord [backslash, 'u'] rest
    let (low, rest) ← decodeUnit rest
    if 0xdc00 ≤ low ∧ low < 0xe000 then
      some (Char.ofNat (0x10000 + (unit - 0xd800) * 0x400 + (low - 0xdc00)), rest)
    else none
  else if 0xdc00 ≤ unit ∧ unit < 0xe000 then none
  else some (Char.ofNat unit, rest)

/-- What stands after a backslash. -/
def scanEscape : List Char → Option (Char × List Char)
  | [] => none
  | first :: rest =>
      if first = 'u' then decodeUnits rest
      else if first = doubleQuote ∨ first = backslash ∨ first = '/' then some (first, rest)
      else if first = 'b' then some (Char.ofNat 0x08, rest)
      else if first = 'f' then some (Char.ofNat 0x0c, rest)
      else if first = 'n' then some ('\n', rest)
      else if first = 'r' then some ('\r', rest)
      else if first = 't' then some ('\t', rest)
      else none

/-- One character inside a string. -/
def scanChar : List Char → Option (Char × List Char)
  | [] => none
  | first :: rest =>
      if first = backslash then scanEscape rest
      else if first.toNat < 0x20 then none
      else some (first, rest)

/-- `scanstring`, behind the opening quote. Every character takes some of the text, so its length is
enough fuel. -/
def scanString : Nat → List Char → Option (List Char × List Char)
  | 0, _ => none
  | fuel + 1, text =>
      match afterChar doubleQuote text with
      | some rest => some ([], rest)
      | none => do
          let (char, rest) ← scanChar text
          let (chars, rest) ← scanString fuel rest
          some (char :: chars, rest)

/-- A key of a dictionary, up to the value behind it. -/
def scanKey (text : List Char) : Option (String × List Char) := do
  let rest ← afterChar doubleQuote text
  let (chars, rest) ← scanString (rest.length + 1) rest
  let rest ← afterChar ':' (skip rest)
  some (String.ofList chars, skip rest)

/-! ### Numbers -/

def isDigit (char : Char) : Bool :=
  '0' ≤ char ∧ char ≤ '9'

/-- `(\.[0-9]+)?`. -/
def fraction (text : List Char) : List Char :=
  match afterChar '.' text with
  | some rest => if rest.takeWhile isDigit = [] then [] else '.' :: rest.takeWhile isDigit
  | none => []

/-- `([eE][-+]?[0-9]+)?`. -/
def exponent : List Char → List Char
  | [] => []
  | first :: rest =>
      let sign := (rest.take 1).filter fun char => char = '-' ∨ char = '+'
      let digits := (rest.drop sign.length).takeWhile isDigit
      if (first = 'e' ∨ first = 'E') ∧ digits ≠ [] then first :: sign ++ digits else []

/-- `0|[1-9][0-9]*`. -/
def integral (text : List Char) : List Char :=
  if text.head? = some '0' then ['0'] else text.takeWhile isDigit

variable (parseFloat : List Char → Json)

/-- `match_number`. -/
def scanNumber (text : List Char) : Option (Json × List Char) :=
  let negative := text.head? = some '-'
  let unsigned := if negative then text.drop 1 else text
  let digits := integral unsigned
  let rest := unsigned.drop digits.length
  let decimals := fraction rest
  let power := exponent (rest.drop decimals.length)
  if digits = [] then none
  else if decimals = [] ∧ power = [] then
    let number := Nat.ofDigitChars 10 digits 0
    some (.integer (if negative then -number else number), rest)
  else
    let sign := if negative then ['-'] else []
    some (parseFloat (sign ++ digits ++ decimals ++ power),
      rest.drop (decimals.length + power.length))

/-- A constant, in the order they are tried. -/
def scanConstant (text : List Char) : Option (Json × List Char) :=
  let constants := [("null".toList, Json.null), ("true".toList, .bool true),
    ("false".toList, .bool false)]
  let floats := ["NaN".toList, "Infinity".toList, "-Infinity".toList]
  (constants ++ floats.map fun word => (word, parseFloat word)).firstM fun (word, value) =>
    (afterWord word text).map (value, ·)

/-! ### Values -/

mutual

/-- `scan_once`. -/
def scanOnce : Nat → List Char → Option (Json × List Char)
  | 0, _ => none
  | fuel + 1, text =>
      match afterChar doubleQuote text with
      | some rest => do
          let (chars, rest) ← scanString (rest.length + 1) rest
          some (.string (String.ofList chars), rest)
      | none =>
          match afterChar '[' text with
          | some rest =>
              match afterChar ']' (skip rest) with
              | some rest => some (.array [], rest)
              | none => do
                  let (items, rest) ← scanItems fuel (skip rest)
                  some (.array items, rest)
          | none =>
              match afterChar (Char.ofNat 0x7b) text with
              | some rest =>
                  match afterChar (Char.ofNat 0x7d) (skip rest) with
                  | some rest => some (.object [], rest)
                  | none => do
                      let (pairs, rest) ← scanPairs fuel (skip rest)
                      let dictionary := pairs.foldl
                        (fun fields (key, value) => dictInsert fields key value) []
                      some (.object dictionary, rest)
              | none => (scanConstant parseFloat text).or (scanNumber parseFloat text)

/-- The items of a list, up to the closing bracket. -/
def scanItems : Nat → List Char → Option (List Json × List Char)
  | 0, _ => none
  | fuel + 1, text => do
      let (item, rest) ← scanOnce fuel text
      match afterChar ',' (skip rest) with
      | some rest => do
          let (items, rest) ← scanItems fuel (skip rest)
          some (item :: items, rest)
      | none => do
          let rest ← afterChar ']' (skip rest)
          some ([item], rest)

/-- The items of a dictionary, up to the closing brace. -/
def scanPairs : Nat → List Char → Option (Fields × List Char)
  | 0, _ => none
  | fuel + 1, text => do
      let (key, rest) ← scanKey text
      let (value, rest) ← scanOnce fuel rest
      match afterChar ',' (skip rest) with
      | some rest => do
          let (pairs, rest) ← scanPairs fuel (skip rest)
          some ((key, value) :: pairs, rest)
      | none => do
          let rest ← afterChar (Char.ofNat 0x7d) (skip rest)
          some ([(key, value)], rest)

end

/-- `json.loads(text)`. A value is nested no deeper than its text is long. -/
def loads (text : List Char) : Option Json := do
  let (value, rest) ← scanOnce parseFloat (text.length + 1) (skip text)
  if skip rest = [] then some value else none

end SupernoteModule.Python.Json
