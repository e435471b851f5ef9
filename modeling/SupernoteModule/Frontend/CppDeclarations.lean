import SupernoteModule.Frontend.CppLexer
import SupernoteModule.Frontend.SourceIntent
import SupernoteModule.Python.Collections

/-!
# Markers and namespaces of C++ sources

`cpp_declarations.py` groups the marker comments of a source into stacks, binds those of a class to
its members, and finds the namespaces around an offset. `cpp_members.py` cuts the tokens of a class
into the declarations of its members.
-/

namespace SupernoteModule.Frontend

open SupernoteModule.Lib SupernoteModule.Python

/-- `CppDeclarationError`. -/
structure CppDeclarationError where
  line : Nat
  exportName : Option String
  message : String
deriving DecidableEq

/-! ### Member declarations -/

/-- The access of a member and the tokens of its declaration. -/
structure MemberDeclaration where
  access : List Char
  tokens : List CppToken

/-- `_nested_delimiter_depths`. -/
def nestedDelimiterDepths (value : List Char) (parenDepth bracketDepth : Nat) : Nat × Nat :=
  if value = "(".toList then (parenDepth + 1, bracketDepth)
  else if value = ")".toList then (parenDepth - 1, bracketDepth)
  else if value = "[".toList || value = "[[".toList then (parenDepth, bracketDepth + 1)
  else if value = "]".toList || value = "]]".toList then (parenDepth, bracketDepth - 1)
  else (parenDepth, bracketDepth)

/-- `_skip_braced_body`, behind its opening brace. -/
def skipBracedBody : Nat → List CppToken → List CppToken
  | 0, tokens => tokens
  | _, [] => []
  | depth + 1, token :: tokens =>
      if token.value = ['\x7b'] then skipBracedBody (depth + 2) tokens
      else if token.value = ['\x7d'] then skipBracedBody depth tokens
      else skipBracedBody (depth + 1) tokens

/-- What ends a declaration. -/
inductive DeclarationEnd where
  | semicolon
  | body
  | source
deriving DecidableEq

/-- The loop of `_consume_declaration`: the tokens in front of what ends the declaration, and those
behind it. -/
def declarationExtent : Nat → Nat → List CppToken → List CppToken × DeclarationEnd × List CppToken
  | _, _, [] => ([], .source, [])
  | parenDepth, bracketDepth, token :: tokens =>
      let (parenDepth, bracketDepth) :=
        nestedDelimiterDepths token.value parenDepth bracketDepth
      if token.value = ";".toList && parenDepth = 0 && bracketDepth = 0 then
        ([], .semicolon, tokens)
      else if token.value = ['\x7b'] && parenDepth = 0 && bracketDepth = 0 then
        ([], .body, tokens)
      else
        let (taken, ending, rest) := declarationExtent parenDepth bracketDepth tokens
        (token :: taken, ending, rest)

/-- `_finish_body_declaration`, behind the body. -/
def skipSemicolon : List CppToken → List CppToken
  | token :: tokens => if token.value = ";".toList then tokens else token :: tokens
  | [] => []

/-- `_consume_declaration`: the declaration, if there is one, and the tokens behind it. -/
def consumeDeclaration (body : List CppToken) : Option (List CppToken) × List CppToken :=
  match declarationExtent 0 0 body with
  | (declaration, .semicolon, rest) => (some declaration, rest)
  | (signature, .body, rest) =>
      (if signature.any (·.value = "(".toList) then some signature else none,
        skipSemicolon (skipBracedBody 1 rest))
  | (tail, .source, rest) => (if tail.isEmpty then none else some tail, rest)

def accessLabels : List (List Char) :=
  ["public", "private", "protected"].map String.toList

/-- `_MemberScanner.scan`. The fuel is the number of tokens. -/
def scanMembers : Nat → List Char → List CppToken → List MemberDeclaration
  | 0, _, _ => []
  | _, _, [] => []
  | fuel + 1, access, token :: tokens =>
      let labelled := accessLabels.contains token.value &&
        tokens.head?.any fun next => next.value = ":".toList
      if labelled then scanMembers fuel token.value tokens.tail
      else
        let (declaration, rest) := consumeDeclaration (token :: tokens)
        (declaration.map fun found => ⟨access, found⟩).toList ++ scanMembers fuel access rest

/-- `member_declarations`. -/
def memberDeclarations (body : List CppToken) (defaultAccess : List Char) :
    List MemberDeclaration :=
  scanMembers body.length defaultAccess body

/-! ### Marker stacks -/

/-- `MarkerStack`, an object of its own: two stacks of the same comments are not the same stack. -/
structure MarkerStack where
  identity : Nat
  comments : List LineComment
  markers : List SupernoteMarker
  nonempty : comments ≠ []

namespace MarkerStack

variable (stack : MarkerStack)

def first : LineComment :=
  stack.comments.head stack.nonempty

def last : LineComment :=
  stack.comments.getLast stack.nonempty

end MarkerStack

/-- Nothing but space is in this part of the text. -/
def onlySpace (text : List Char) (start stop : Nat) : Bool :=
  (strip (slice text start stop)).isEmpty

/-- A stack of the entries that are adjacent, if there are any. -/
def stackOf (identity : Nat) (entries : List (LineComment × SupernoteMarker)) :
    Option MarkerStack :=
  if hempty : entries = [] then none
  else some {
    identity := identity
    comments := entries.map Prod.fst
    markers := entries.map Prod.snd
    nonempty := fun hnil => hempty (List.map_eq_nil_iff.mp hnil) }

/-- The loop of `marker_stacks`, with the entries of the stack that is still open. -/
def groupEntries (text : List Char) : List MarkerStack → List (LineComment × SupernoteMarker) →
    List (LineComment × SupernoteMarker) → List MarkerStack
  | groups, pending, [] => groups ++ (stackOf groups.length pending).toList
  | groups, pending, entry :: entries =>
      let apart := pending.getLast?.any fun last => !onlySpace text last.1.end_ entry.1.start
      if apart then
        groupEntries text (groups ++ (stackOf groups.length pending).toList) [entry] entries
      else groupEntries text groups (pending ++ [entry]) entries

/-- `marker_stacks`. -/
def markerStacks (text : List Char) (entries : List (LineComment × SupernoteMarker)) :
    List MarkerStack :=
  groupEntries text [] [] entries

/-- `_validate_marker_location`. -/
def validateMarkerLocation (comment : LineComment) (braceDepth : Nat) (description : String)
    (exportName braceMessage : Option String) : Except CppDeclarationError Unit := do
  require comment.lineOnly
    ⟨comment.line, exportName, "a Supernote marker must be a // comment on its own line"⟩
  require (comment.conditionalDepth = 0)
    ⟨comment.line, exportName, "Supernote markers are not allowed inside a preprocessor " ++
      "conditional (#if, #ifdef, or #ifndef block)"⟩
  require (comment.braceDepth = braceDepth)
    ⟨comment.line, exportName,
      braceMessage.getD s!"a {description} marker must be at brace depth {braceDepth}"⟩

/-- `validate_marker_stack_location`. -/
def validateMarkerStackLocation (stack : MarkerStack) (braceDepth : Nat) (description : String)
    (exportName braceMessage : Option String) : Except CppDeclarationError Unit :=
  checkEach stack.comments fun comment =>
    validateMarkerLocation comment braceDepth description exportName braceMessage

/-! ### Bindings -/

/-- `MemberMarkerBindings`: each stack under the offset of its declaration. -/
structure MemberMarkerBindings where
  stacksByDeclaration : List (Nat × MarkerStack)
  consumedCommentOffsets : List Nat

/-- Where a declaration starts, if it has a token. -/
def MemberDeclaration.start? (declaration : MemberDeclaration) : Option Nat :=
  declaration.tokens.head?.map (·.start)

/-- What `member_marker_bindings` is asked about a class. -/
structure ClassBody where
  classStack : Option MarkerStack
  openingEnd : Nat
  closingStart : Nat
  memberDepth : Nat
  className : String

namespace ClassBody

variable (text : List Char) (body : ClassBody)

/-- The stack is inside the braces of the class, and not that of the class itself. -/
def owns (stack : MarkerStack) : Bool :=
  decide (body.openingEnd ≤ stack.first.start) && decide (stack.first.start < body.closingStart) &&
    !body.classStack.any (·.identity = stack.identity)

/-- A round of the loop over the stacks of a class. -/
def bindStack (declarations : List MemberDeclaration) (bindings : MemberMarkerBindings)
    (stack : MarkerStack) : Except CppDeclarationError MemberMarkerBindings := do
  validateMarkerStackLocation stack body.memberDepth "class member" none none
  let behind := declarations.filterMap (·.start?) |>.find? fun start => stack.last.end_ ≤ start
  let start ← demand behind ⟨stack.first.line, some body.className,
    "a member marker stack must be followed by a member declaration"⟩
  require (onlySpace text stack.last.end_ start) ⟨stack.first.line, some body.className,
    "only whitespace may appear between the final member marker and its declaration"⟩
  require (start ∉ bindings.stacksByDeclaration.map Prod.fst)
    ⟨stack.first.line, some body.className,
      "separate marker stacks cannot target the same member"⟩
  return {
    stacksByDeclaration := bindings.stacksByDeclaration ++ [(start, stack)]
    consumedCommentOffsets := bindings.consumedCommentOffsets ++ stack.comments.map (·.start) }

/-- `member_marker_bindings`. -/
def memberMarkerBindings (declarations : List MemberDeclaration) (groups : List MarkerStack) :
    Except CppDeclarationError MemberMarkerBindings :=
  (groups.filter body.owns).foldlM (body.bindStack text declarations) {
    stacksByDeclaration := []
    consumedCommentOffsets :=
      (body.classStack.map fun stack => stack.comments.map (·.start)).getD [] }

end ClassBody

/-! ### Namespaces -/

/-- `_namespace_opening`: the names in front of an opening brace, the brace, and what is behind. -/
def namespaceOpening : List (List Char) → Bool → List CppToken →
    Option (List (List Char) × CppToken × List CppToken)
  | _, _, [] => none
  | names, expectName, token :: tokens =>
      if token.value = ['\x7b'] then
        if names.isEmpty || expectName then none else some (names, token, tokens)
      else if expectName && token.kind = .identifier then
        namespaceOpening (names ++ [token.value]) false tokens
      else if !expectName && token.value = "::".toList then namespaceOpening names true tokens
      else none

/-- The braces of a namespace and its names. -/
structure NamespaceRange where
  opening : CppToken
  closing : CppToken
  names : List (List Char)

/-- `_namespace_range`, of a token and those behind it. -/
def namespaceRange (offset : Nat) (token : CppToken) (tokens : List CppToken) :
    Option NamespaceRange := do
  if token.value = "namespace".toList && decide (token.start < offset) then
    let (names, opening, inside) ← namespaceOpening [] true tokens
    let closing ← inside.find? fun item =>
      item.value = ['\x7d'] && item.braceDepth = opening.braceDepth + 1
    if opening.end_ ≤ offset ∧ offset < closing.start then some ⟨opening, closing, names⟩ else none
  else none

def namespaceRanges (offset : Nat) : List CppToken → List NamespaceRange
  | [] => []
  | token :: tokens =>
      (namespaceRange offset token tokens).toList ++ namespaceRanges offset tokens

/-- The tokens outside every conditional. -/
def CppLexer.activeTokens (lexer : CppLexer) : List CppToken :=
  lexer.tokens.filter (·.conditionalDepth = 0)

/-- `namespace_at`. -/
def namespaceAt (lexer : CppLexer) (offset : Nat) : List (List Char) × Nat :=
  let ranges := sortedBy (·.opening.start) (namespaceRanges offset lexer.activeTokens)
  (ranges.flatMap (·.names), ranges.length)

end SupernoteModule.Frontend
