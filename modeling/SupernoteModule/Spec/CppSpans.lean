import SupernoteModule.Frontend.CppLexer
import SupernoteModule.Lib.Spans

/-!
# The spans of a C++ source

Which stretches of a text the lexer records, and what may lie between them.
-/

namespace SupernoteModule.Frontend

open SupernoteModule.Lib SupernoteModule.Python

namespace CppLexer

variable (lexer : CppLexer)

def tokenSpans : List Span :=
  lexer.tokens.map fun token => ⟨token.start, token.end_⟩

def commentSpans : List Span :=
  lexer.comments.map fun comment => ⟨comment.start, comment.end_⟩

def directiveSpans : List Span :=
  lexer.directives.map fun directive => ⟨directive.start, directive.end_⟩

def spans : List Span :=
  lexer.tokenSpans ++ (lexer.commentSpans ++ lexer.directiveSpans)

end CppLexer

/-- A block comment ends with the first `*/` behind its `/*`, or with the text when there is none.
-/
structure IsBlockComment (text : List Char) (span : Span) : Prop where
  opened : startsAt text ['/', '*'] span.start = true
  inside : ∀ index, span.start + 2 ≤ index → index + 2 < span.end_ →
    startsAt text ['*', '/'] index = false
  ended : span.start + 4 ≤ span.end_ ∧ startsAt text ['*', '/'] (span.end_ - 2) = true ∨
    span.end_ = text.length ∧
      ∀ index, span.start + 2 ≤ index → startsAt text ['*', '/'] index = false

/-- What has been recorded of a text in front of a bound: spans that ascend and are all disjoint,
tokens that read as the text does, and only whitespace and block comments left out. -/
structure Spanned (text : List Char) (bound : Nat) (lexer : CppLexer) : Prop where
  tokens : Ascending bound lexer.tokenSpans
  comments : Ascending bound lexer.commentSpans
  directives : Ascending bound lexer.directiveSpans
  disjoint : lexer.spans.Pairwise Span.Apart
  values : ∀ token ∈ lexer.tokens, token.kind ≠ .string →
    token.value = slice text token.start token.end_
  outside : ∀ index char, text[index]? = some char → index < bound →
    (∀ span ∈ lexer.spans, ¬ span.Has index) →
      isSpace char = true ∨
        ∃ comment, IsBlockComment text comment ∧ comment.Has index ∧ comment.end_ ≤ bound ∧
          ∀ span ∈ lexer.spans, comment.Apart span

end SupernoteModule.Frontend
