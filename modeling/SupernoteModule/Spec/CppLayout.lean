import SupernoteModule.Frontend.CppLexer

/-!
# The layout of a C++ source

A text as the pieces the lexer takes one after the other, without lines and without depths: which
piece comes next depends on the text from there on and on whether the line has been blank so far.
-/

namespace SupernoteModule.Frontend

open SupernoteModule.Python

inductive PieceKind where
  | newline
  | space
  | directive
  | lineComment
  | blockComment
  | rawString
  | quotedString
  | identifier
  | punctuation
deriving DecidableEq

structure Piece where
  kind : PieceKind
  start : Nat
  end_ : Nat

namespace Piece

/-- The lexer records a token, a line comment or a directive for the piece. -/
def Recorded (piece : Piece) : Prop :=
  piece.kind ≠ .newline ∧ piece.kind ≠ .space ∧ piece.kind ≠ .blockComment

/-- Whether the line is still blank behind the piece. -/
def leavesBlank (piece : Piece) (blank : Bool) : Bool :=
  match piece.kind with
  | .newline | .directive => true
  | .space => blank
  | _ => false

end Piece

/-- Where a quoted string ends. -/
def quotedStringEnd (text : List Char) (start : Nat) (quote : Char) : Nat :=
  (quotedEnd quote false (text.drop (start + 1)) ⟨start + 1, 0, 0⟩).index

/-- The piece that begins at an index. -/
def pieceAt (alphabet : Alphabet) (text : List Char) (blank : Bool) (index : Nat) (char : Char) :
    Piece :=
  if char = '\n' then ⟨.newline, index, index + 1⟩
  else if isSpace char then ⟨.space, index, index + 1⟩
  else if char = '#' && blank then
    ⟨.directive, index, directiveEnd text index text.length index⟩
  else if startsAt text ['/', '/'] index then
    ⟨.lineComment, index, CppLexer.lineCommentEnd text index⟩
  else if startsAt text ['/', '*'] index then
    ⟨.blockComment, index, CppLexer.blockCommentEnd text index⟩
  else
    match rawStringEnd text index with
    | some stop => ⟨.rawString, index, stop⟩
    | none =>
        if char = '"' || char = '\'' then
          ⟨.quotedString, index, quotedStringEnd text index char⟩
        else if alphabet.isAlpha char || char = '_' then
          ⟨.identifier, index, CppLexer.identifierEnd alphabet text index⟩
        else
          ⟨.punctuation, index, index + (CppLexer.punctuation text index char).length⟩

def layoutFrom (alphabet : Alphabet) (text : List Char) : Nat → Bool → Nat → List Piece
  | 0, _, _ => []
  | fuel + 1, blank, index =>
      match text[index]? with
      | none => []
      | some char =>
          let piece := pieceAt alphabet text blank index char
          piece :: layoutFrom alphabet text fuel (piece.leavesBlank blank) piece.end_

def layout (alphabet : Alphabet) (text : List Char) : List Piece :=
  layoutFrom alphabet text text.length true 0

/-! ### Newlines in quoted strings -/

/-- The newlines that no backslash escapes, behind a backslash or not. -/
def bareNewlines : Bool → List Char → Nat
  | _, [] => 0
  | true, _ :: rest => bareNewlines false rest
  | false, char :: rest =>
      if char = '\\' then bareNewlines true rest
      else (if char = '\n' then 1 else 0) + bareNewlines false rest

/-- The newlines that a backslash escapes, behind a backslash or not. -/
def escapedNewlines : Bool → List Char → Nat
  | _, [] => 0
  | true, char :: rest => (if char = '\n' then 1 else 0) + escapedNewlines false rest
  | false, char :: rest =>
      if char = '\\' then escapedNewlines true rest else escapedNewlines false rest

namespace Piece

variable (text : List Char) (piece : Piece)

/-- What is behind the quote, up to the end of a quoted string. -/
def quoted : List Char :=
  if piece.kind = .quotedString then slice text (piece.start + 1) piece.end_ else []

def bare : Nat :=
  bareNewlines false (piece.quoted text)

def escaped : Nat :=
  escapedNewlines false (piece.quoted text)

end Piece

/-- The escaped newlines in the quoted strings among the pieces. -/
def escapedIn (text : List Char) : List Piece → Nat
  | [] => 0
  | piece :: pieces => piece.escaped text + escapedIn text pieces

/-- Every piece with a record has as many bare newlines in it as there are escaped newlines in the
quoted strings in front of it. -/
def Calibrated (text : List Char) (pieces : List Piece) : Prop :=
  ∀ earlier piece later, pieces = earlier ++ piece :: later → piece.Recorded →
    piece.bare text = escapedIn text earlier

/-- The line of an index. -/
def lineOf (text : List Char) (index : Nat) : Nat :=
  1 + (text.take index).count '\n'

/-- Where the records of a lexer start, and their lines. -/
def CppLexer.marks (lexer : CppLexer) : List (Nat × Nat) :=
  lexer.tokens.map (fun token => (token.start, token.line)) ++
    (lexer.comments.map (fun comment => (comment.start, comment.line)) ++
      lexer.directives.map (fun directive => (directive.start, directive.line)))

end SupernoteModule.Frontend
