import SupernoteModule.Frontend.CppLexer

/-!
# The spelling of a C++ type

`cpp_type_syntax.py` writes the tokens of a type as one text, without spaces around its punctuation.
-/

namespace SupernoteModule.Frontend

/-- `allowed_punctuation`. -/
def allowedPunctuation : List (List Char) :=
  ["::", "<", ">", "&"].map String.toList

namespace CppToken

/-- A token that a type may have. -/
def isAllowed (token : CppToken) : Bool :=
  decide (token.kind = .identifier) || allowedPunctuation.contains token.value

def spells (text : String) (token : CppToken) : Bool :=
  token.value = text.toList

end CppToken

/-- `cpp_type_spelling`. -/
def cppTypeSpelling (tokens : List CppToken) : Option String :=
  if tokens.isEmpty then none
  else if tokens.any (!·.isAllowed) then none
  else if tokens.countP (CppToken.spells "<") ≠ tokens.countP (CppToken.spells ">") then none
  else if tokens.dropLast.any (CppToken.spells "&") then none
  else
    let around (token : String) (text : List Char) :=
      Python.subAround token.toList text.length text
    some <| String.ofList <| around "&" <| around ">" <| around "<" <| around "::" <|
      [' '].intercalate (tokens.map (·.value))

end SupernoteModule.Frontend
