import SupernoteModule.Python.Text

/-!
# The lexer of C++ sources

`cpp_lexer.py` finds line comments, directives and tokens in the text of a source. It walks an index
over the text and keeps the number of the line, where that line starts, and how deep conditionals
and braces are nested.
-/

namespace SupernoteModule.Frontend

open SupernoteModule.Python

/-! ### Text -/

/-- What `str.isalpha` and `str.isalnum` say of a character. -/
structure Alphabet where
  isAlpha : Char → Bool
  isAlnum : Char → Bool
  newline : isAlnum '\n' = false

/-- `text[start:stop]`. -/
def slice (text : List Char) (start stop : Nat) : List Char :=
  (text.take stop).drop start

/-- `text.startswith(part, start)`. -/
def startsAt (text part : List Char) (start : Nat) : Bool :=
  part.isPrefixOf (text.drop start)

def findFrom (part : List Char) : Nat → List Char → Option Nat
  | index, [] => if part.isEmpty then some index else none
  | index, char :: rest =>
      if part.isPrefixOf (char :: rest) then some index else findFrom part (index + 1) rest

/-- `text.find(part, start)`, and nothing where that is negative. -/
def find (text part : List Char) (start : Nat) : Option Nat :=
  findFrom part start (text.drop start)

/-- `text.find(part, start, stop)`. -/
def findWithin (text part : List Char) (start stop : Nat) : Option Nat :=
  find (text.take stop) part start

/-! ### What is recorded -/

inductive TokenKind where
  | string
  | identifier
  | punctuation
deriving DecidableEq

structure CppToken where
  value : List Char
  start : Nat
  end_ : Nat
  line : Nat
  kind : TokenKind
  conditionalDepth : Nat
  braceDepth : Nat

structure LineComment where
  text : List Char
  start : Nat
  end_ : Nat
  line : Nat
  lineOnly : Bool
  conditionalDepth : Nat
  braceDepth : Nat

structure Directive where
  start : Nat
  end_ : Nat
  line : Nat
  name : List Char

/-- `_Lexer`. -/
structure CppLexer where
  text : List Char
  tokens : List CppToken := []
  comments : List LineComment := []
  directives : List Directive := []
  index : Nat := 0
  line : Nat := 1
  lineStart : Nat := 0
  conditionalDepth : Nat := 0
  braceDepth : Nat := 0

/-! ### Helpers -/

/-- The loop of `_consume_newlines`, over the characters from an index on. -/
def countNewlines : List Char → Nat → Nat → Nat → Nat × Nat
  | [], _, line, lineStart => (line, lineStart)
  | char :: rest, index, line, lineStart =>
      if char = '\n' then countNewlines rest (index + 1) (line + 1) (index + 1)
      else countNewlines rest (index + 1) line lineStart

/-- `_consume_newlines`. -/
def consumeNewlines (text : List Char) (start stop line lineStart : Nat) : Nat × Nat :=
  countNewlines (slice text start stop) start line lineStart

def rawStringOpeners : List (List Char) :=
  ["u8R\"", "uR\"", "UR\"", "LR\"", "R\""].map String.toList

/-- `_raw_string_end`. -/
def rawStringEnd (text : List Char) (start : Nat) : Option Nat := do
  let opener ← rawStringOpeners.find? fun candidate => startsAt text candidate start
  let delimiterStart := start + opener.length
  let opening ← findWithin text ['('] delimiterStart (delimiterStart + 17)
  let delimiter := slice text delimiterStart opening
  if delimiter.any fun char => isSpace char || char ∈ ['\\', '(', ')'] then none
  else
    let terminator := ')' :: (delimiter ++ ['"'])
    match find text terminator (opening + 1) with
    | none => some text.length
    | some closing => some (closing + terminator.length)

/-- How many backslashes are next to a newline, back to where the directive starts. -/
def slashCount (text : List Char) (start newline : Nat) : Nat :=
  ((slice text start newline).reverse.takeWhile (· = '\\')).length

/-- Where a directive ends, behind the first newline that is not continued. The fuel is the length
of the text. -/
def directiveEnd (text : List Char) (start : Nat) : Nat → Nat → Nat
  | 0, stop => stop
  | fuel + 1, stop =>
      if stop < text.length then
        match find text ['\n'] stop with
        | none => text.length
        | some newline =>
            if slashCount text start newline % 2 = 0 then newline + 1
            else directiveEnd text start fuel (newline + 1)
      else stop

def isWordStart (char : Char) : Bool :=
  char.isAlpha || char = '_'

def isWordPart (char : Char) : Bool :=
  char.isAlphanum || char = '_'

/-- The name in `#[ \t]*(?P<name>[A-Za-z_][A-Za-z0-9_]*)`, and nothing without a match. -/
def directiveName : List Char → List Char
  | '#' :: rest =>
      match rest.dropWhile (fun char => char = ' ' || char = '\t') with
      | char :: word => if isWordStart char then char :: word.takeWhile isWordPart else []
      | [] => []
  | _ => []

/-- Where the lexer is in a quoted string. -/
structure QuoteCursor where
  index : Nat
  line : Nat
  lineStart : Nat

/-- The loop of `_consume_quoted_string`, over the characters behind the quote. A backslash takes
the next character with it, if there is one. -/
def quotedEnd (quote : Char) : Bool → List Char → QuoteCursor → QuoteCursor
  | _, [], cursor => cursor
  | true, _ :: rest, cursor => quotedEnd quote false rest { cursor with index := cursor.index + 1 }
  | false, char :: rest, cursor =>
      if char = '\\' then quotedEnd quote true rest { cursor with index := cursor.index + 1 }
      else if char = quote then { cursor with index := cursor.index + 1 }
      else if char = '\n' then
        quotedEnd quote false rest
          { index := cursor.index + 1, line := cursor.line + 1, lineStart := cursor.index + 1 }
      else quotedEnd quote false rest { cursor with index := cursor.index + 1 }

namespace CppLexer

variable (alphabet : Alphabet) (lexer : CppLexer)

/-! ### Handlers -/

/-- Nothing but space is in front of the index on its line. -/
def lineBlank : Bool :=
  (strip (slice lexer.text lexer.lineStart lexer.index)).isEmpty

/-- `_update_conditional_depth`. -/
def updatedConditionalDepth (depth : Nat) (name : List Char) : Nat :=
  if ["if".toList, "ifdef".toList, "ifndef".toList].contains name then depth + 1
  else if name = "endif".toList then depth - 1
  else depth

/-- `_consume_directive`. -/
def consumeDirective : CppLexer :=
  let start := lexer.index
  let stop := directiveEnd lexer.text start lexer.text.length start
  let firstLineEnd := (findWithin lexer.text ['\n'] start stop).getD stop
  let name := directiveName (slice lexer.text start firstLineEnd)
  let (line, lineStart) := consumeNewlines lexer.text start stop lexer.line lexer.lineStart
  { lexer with
    directives := lexer.directives ++ [⟨start, stop, lexer.line, name⟩]
    conditionalDepth := updatedConditionalDepth lexer.conditionalDepth name
    line := line
    lineStart := lineStart
    index := stop }

def lineCommentEnd (text : List Char) (start : Nat) : Nat :=
  (find text ['\n'] (start + 2)).getD text.length

/-- `_consume_line_comment`. -/
def consumeLineComment : CppLexer :=
  let stop := lineCommentEnd lexer.text lexer.index
  { lexer with
    comments := lexer.comments ++ [{
      text := slice lexer.text (lexer.index + 2) stop
      start := lexer.index
      end_ := stop
      line := lexer.line
      lineOnly := lexer.lineBlank
      conditionalDepth := lexer.conditionalDepth
      braceDepth := lexer.braceDepth }]
    index := stop }

def blockCommentEnd (text : List Char) (start : Nat) : Nat :=
  match find text ['*', '/'] (start + 2) with
  | none => text.length
  | some marker => marker + 2

/-- `_consume_block_comment`. -/
def consumeBlockComment : CppLexer :=
  let stop := blockCommentEnd lexer.text lexer.index
  let (line, lineStart) :=
    consumeNewlines lexer.text lexer.index stop lexer.line lexer.lineStart
  { lexer with line := line, lineStart := lineStart, index := stop }

/-- A token of the text up to an index. -/
def token (value : List Char) (start stop line : Nat) (kind : TokenKind) : CppToken :=
  ⟨value, start, stop, line, kind, lexer.conditionalDepth, lexer.braceDepth⟩

/-- `_consume_raw_string`. -/
def consumeRawString (stop : Nat) : CppLexer :=
  let (line, lineStart) :=
    consumeNewlines lexer.text lexer.index stop lexer.line lexer.lineStart
  { lexer with
    tokens := lexer.tokens ++
      [lexer.token "<string>".toList lexer.index stop lexer.line .string]
    line := line
    lineStart := lineStart
    index := stop }

/-- `_consume_quoted_string`. -/
def consumeQuotedString (quote : Char) : CppLexer :=
  let cursor := quotedEnd quote false (lexer.text.drop (lexer.index + 1))
    ⟨lexer.index + 1, lexer.line, lexer.lineStart⟩
  { lexer with
    tokens := lexer.tokens ++
      [lexer.token "<string>".toList lexer.index cursor.index cursor.line .string]
    line := cursor.line
    lineStart := cursor.lineStart
    index := cursor.index }

def identifierEnd (text : List Char) (start : Nat) : Nat :=
  start + 1 +
    ((text.drop (start + 1)).takeWhile fun char => alphabet.isAlnum char || char = '_').length

/-- `_consume_identifier`. -/
def consumeIdentifier : CppLexer :=
  let stop := identifierEnd alphabet lexer.text lexer.index
  { lexer with
    tokens := lexer.tokens ++
      [lexer.token (slice lexer.text lexer.index stop) lexer.index stop lexer.line .identifier]
    index := stop }

def punctuators : List (List Char) :=
  ["...", "::", "[[", "]]", "->"].map String.toList

def punctuation (text : List Char) (start : Nat) (char : Char) : List Char :=
  (punctuators.find? fun candidate => startsAt text candidate start).getD [char]

/-- `_consume_punctuation`. -/
def consumePunctuation (char : Char) : CppLexer :=
  let value := punctuation lexer.text lexer.index char
  let stop := lexer.index + value.length
  let braceDepth :=
    if lexer.conditionalDepth = 0 then
      if value = ['\x7b'] then lexer.braceDepth + 1
      else if value = ['\x7d'] then lexer.braceDepth - 1
      else lexer.braceDepth
    else lexer.braceDepth
  { lexer with
    tokens := lexer.tokens ++ [lexer.token value lexer.index stop lexer.line .punctuation]
    braceDepth := braceDepth
    index := stop }

/-! ### The loop -/

/-- `_consume_token_or_trivia`, at the character of the index. -/
def consumeTokenOrTrivia (char : Char) : CppLexer :=
  if char = '\n' then
    { lexer with line := lexer.line + 1, lineStart := lexer.index + 1, index := lexer.index + 1 }
  else if isSpace char then { lexer with index := lexer.index + 1 }
  else if char = '#' && lexer.lineBlank then lexer.consumeDirective
  else if startsAt lexer.text ['/', '/'] lexer.index then lexer.consumeLineComment
  else if startsAt lexer.text ['/', '*'] lexer.index then lexer.consumeBlockComment
  else
    match rawStringEnd lexer.text lexer.index with
    | some stop => lexer.consumeRawString stop
    | none =>
        if char = '"' || char = '\'' then lexer.consumeQuotedString char
        else if alphabet.isAlpha char || char = '_' then lexer.consumeIdentifier alphabet
        else lexer.consumePunctuation char

/-- The loop of `lex`. -/
def run : Nat → CppLexer → CppLexer
  | 0, lexer => lexer
  | fuel + 1, lexer =>
      match lexer.text[lexer.index]? with
      | none => lexer
      | some char => run fuel (lexer.consumeTokenOrTrivia alphabet char)

/-- `_lex_source`. Each round goes at least one character further. -/
def lex (text : List Char) : CppLexer :=
  run alphabet text.length { text := text }

end CppLexer

end SupernoteModule.Frontend
