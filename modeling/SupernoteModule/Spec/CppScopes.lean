import SupernoteModule.Frontend.CppDeclarations
import SupernoteModule.Lib.Brackets

/-!
# Scopes of a C++ source

The namespaces whose braces enclose an offset, the depths of a place in a text, and what it means
that the marker stacks of a class are bound to its members.
-/

namespace SupernoteModule.Frontend

open SupernoteModule.Lib SupernoteModule.Python

/-- An alphabet in which no brace is a letter. -/
structure SourceAlphabet extends Alphabet where
  opening : isAlpha '\x7b' = false
  closing : isAlpha '\x7d' = false

namespace CppToken

def isOpening (token : CppToken) : Bool :=
  token.value = ['\x7b']

def isClosing (token : CppToken) : Bool :=
  token.value = ['\x7d']

end CppToken

abbrev BalancedBraces : List CppToken → Prop :=
  Balanced CppToken.isOpening CppToken.isClosing

/-! ### Namespaces -/

/-- The names of a namespace as they are written, `a::b`. -/
inductive NamesOf : List CppToken → List (List Char) → Prop
  | last {name : CppToken} (hname : name.kind = .identifier) : NamesOf [name] [name.value]
  | qualified {name separator : CppToken} {rest : List CppToken} {names : List (List Char)}
      (hname : name.kind = .identifier) (hseparator : separator.value = "::".toList)
      (hrest : NamesOf rest names) : NamesOf (name :: separator :: rest) (name.value :: names)

/-- A definition `namespace a::b \x7b … \x7d` among the tokens. -/
structure DefinedAs (tokens : List CppToken) (range : NamespaceRange)
    (before : List CppToken) (keyword : CppToken) (names inner after : List CppToken) : Prop where
  tokens : tokens =
    before ++ keyword :: (names ++ range.opening :: (inner ++ range.closing :: after))
  keyword : keyword.value = "namespace".toList
  names : NamesOf names range.names
  opening : range.opening.isOpening = true
  closing : range.closing.isClosing = true
  inner : BalancedBraces inner

def Defines (tokens : List CppToken) (range : NamespaceRange) : Prop :=
  ∃ before keyword names inner after, DefinedAs tokens range before keyword names inner after

namespace NamespaceRange

/-- The offset is between the braces. -/
def Encloses (range : NamespaceRange) (offset : Nat) : Prop :=
  range.opening.end_ ≤ offset ∧ offset < range.closing.start

/-- The braces of a range are within those of another one. -/
def Within (inner outer : NamespaceRange) : Prop :=
  outer.opening.start < inner.opening.start ∧ inner.closing.start < outer.closing.start

end NamespaceRange

/-- These are the definitions that enclose an offset, from the outermost to the innermost. -/
structure EnclosedBy (tokens : List CppToken) (offset : Nat) (definitions : List NamespaceRange) :
    Prop where
  mem : ∀ range, range ∈ definitions ↔ Defines tokens range ∧ range.Encloses offset
  nested : definitions.Pairwise fun outer inner => inner.Within outer

/-! ### Places in a text -/

/-- How deep conditionals are nested behind these directives. -/
def conditionalDepthAfter (directives : List Directive) : Nat :=
  directives.foldl (fun depth directive => CppLexer.updatedConditionalDepth depth directive.name) 0

/-- How deep braces are nested behind these tokens. -/
def braceDepthAfter (tokens : List CppToken) : Nat :=
  depthAfter CppToken.isOpening CppToken.isClosing 0 tokens

def IsLineStart (text : List Char) (index : Nat) : Prop :=
  index = 0 ∨ text[index - 1]? = some '\n'

/-- Nothing but space is between the start of a line and the offset. -/
def StartsLine (text : List Char) (offset : Nat) : Prop :=
  ∃ lineStart ≤ offset, IsLineStart text lineStart ∧
    (slice text lineStart offset).all isSpace = true

namespace CppLexer

variable (lexer : CppLexer)

/-- How many conditionals are open at an offset. -/
def conditionalsAt (offset : Nat) : Nat :=
  conditionalDepthAfter (lexer.directives.filter fun directive => directive.end_ ≤ offset)

/-- How many braces outside of conditionals are open at an offset. -/
def bracesAt (offset : Nat) : Nat :=
  braceDepthAfter (lexer.activeTokens.filter fun token => token.end_ ≤ offset)

end CppLexer

/-! ### Markers of members -/

/-- A marker of a member is on a line of its own, in no conditional, and next to the members. -/
structure AcceptedAt (lexer : CppLexer) (memberDepth : Nat) (comment : LineComment) : Prop where
  line : StartsLine lexer.text comment.start
  conditionals : lexer.conditionalsAt comment.start = 0
  braces : lexer.bracesAt comment.start = memberDepth

/-- The declaration that a stack belongs to: the first one that starts behind it, and there is
nothing but space between the two. -/
structure BelongsTo (text : List Char) (declarations : List MemberDeclaration)
    (stack : MarkerStack) (start : Nat) : Prop where
  declared : declarations.countP (fun declaration => declaration.start? = some start) = 1
  behind : stack.last.end_ ≤ start
  first : ∀ declaration ∈ declarations, ∀ other, declaration.start? = some other →
    stack.last.end_ ≤ other → start ≤ other
  adjacent : (slice text stack.last.end_ start).all isSpace = true

/-- The bindings of a class: every stack of it belongs to the one declaration it is bound to, and no
declaration has two stacks. -/
structure Bound (lexer : CppLexer) (body : ClassBody) (declarations : List MemberDeclaration)
    (found : List MarkerStack) (bindings : MemberMarkerBindings) : Prop where
  complete : bindings.stacksByDeclaration.map Prod.snd = found.filter body.owns
  belongs : ∀ start stack, (start, stack) ∈ bindings.stacksByDeclaration →
    BelongsTo lexer.text declarations stack start
  single : (bindings.stacksByDeclaration.map Prod.fst).Nodup
  consumed : ∀ stack ∈ found, body.owns stack = true → ∀ comment ∈ stack.comments,
    comment.start ∈ bindings.consumedCommentOffsets
  accepted : ∀ stack ∈ found, body.owns stack = true → ∀ comment ∈ stack.comments,
    AcceptedAt lexer body.memberDepth comment

/-- Declarations in the order of the source. -/
def InSourceOrder (declarations : List MemberDeclaration) : Prop :=
  (declarations.filterMap (·.start?)).Pairwise (· < ·)

end SupernoteModule.Frontend
