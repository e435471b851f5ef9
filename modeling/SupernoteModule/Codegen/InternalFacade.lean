import SupernoteModule.Frontend.CppSource

/-!
# The internal C++ facade

`render_cpp_internal_facade` forwards to the internal functions and service classes of a feature.
Its text is kept as a list of pieces, so that the names in it can be told from the text around them;
the bodies of the definitions are kept as what they look up and what they call.
-/

namespace SupernoteModule.Codegen

open SupernoteModule.Semantic SupernoteModule.Frontend

/-- A piece of generated C++. -/
inductive Piece where
  | text (content : String)
  /-- A name declared outside every namespace. -/
  | declared (name : String)
  /-- A name behind a leading `::`. -/
  | referred (name : String)
  /-- The identity of a service, which is written with `json.dumps`. -/
  | slot (declarationId : String)
deriving DecidableEq

abbrev Pieces := List Piece

/-- The symbol a name in the text stands for. Both kinds of name are looked up globally. -/
def Piece.symbol? : Piece → Option String
  | .declared name | .referred name => some ("::" ++ name)
  | .text _ | .slot _ => none

def Piece.slot? : Piece → Option String
  | .slot declarationId => some declarationId
  | .text _ | .declared _ | .referred _ => none

def Pieces.symbols (pieces : Pieces) : List String :=
  pieces.filterMap (·.symbol?)

def Pieces.slots (pieces : Pieces) : List String :=
  pieces.filterMap (·.slot?)

namespace InternalFacade

/-- `_parameters`. -/
def parameterList (parameters : List CppParameterSource) : String :=
  ", ".intercalate (parameters.map fun parameter => s!"{parameter.typeSpelling} {parameter.name}")

def argumentList (parameters : List CppParameterSource) : String :=
  ", ".intercalate (parameters.map (·.name))

/-- `_append_parameter`. -/
def appendParameter (parameters added : String) : String :=
  if parameters = "" then added else s!"{parameters}, {added}"

/-- `_callback`. -/
def callback (result : String) : String :=
  let semanticResult :=
    if result = "void" then "supernote::Result<void>" else s!"supernote::Result<{result}>"
  s!"std::function<void({semanticResult})>"

/-- What a definition of the facade looks up and calls. -/
structure Definition where
  execution : ExecutionMode
  signature : String
  serviceSetup : Pieces
  call : Pieces
deriving DecidableEq

/-- The facade's own signature of a function or method. -/
def signature (execution : ExecutionMode) (result name : String)
    (parameters : List CppParameterSource) : String :=
  match execution with
  | .sync => s!"{result} {name}({parameterList parameters})"
  | .async =>
      let completion := s!"{callback result} completion"
      s!"void {name}({appendParameter (parameterList parameters) completion})"

/-- `_function_forward`. -/
def functionForward (item : CppFunctionSource) : Pieces :=
  [.text s!"{item.returnTypeSpelling} ", .declared item.cppName,
    .text s!"({parameterList item.parameters});"]

/-- `_function_definition`. -/
def functionDefinition (item : CppFunctionSource) : Definition where
  execution := item.intent.execution
  signature := signature item.intent.execution item.returnTypeSpelling item.cppName item.parameters
  serviceSetup := []
  call := [.referred item.cppName, .text s!"({argumentList item.parameters})"]

/-- The lookup of a service, `feature->service<::T>(id, [] { return std::make_shared<::T>(); })`. -/
def serviceLookup (item : CppClassSource) : Pieces :=
  [.text "feature->service<", .referred item.cppName, .text ">(",
    .slot item.provenance.declarationId, .text ", [] \x7b\n      return std::make_shared<",
    .referred item.cppName, .text ">();\n    \x7d)"]

/-- The definition of one method in `_service_definition`. -/
def serviceMethodDefinition (item : CppClassSource) (method : CppMethodSource) : Definition where
  execution := method.intent.execution
  signature :=
    signature method.intent.execution method.returnTypeSpelling
      s!"{item.cppName}::{method.cppName}" method.parameters
  serviceSetup := .text "    auto service = " :: serviceLookup item ++ [.text ";\n"]
  call := [.text s!"service->{method.cppName}({argumentList method.parameters})"]

def internalMethods (item : CppClassSource) : List CppMethodSource :=
  item.methods.filter fun method => method.intent.role = .internal

/-- `_service_definition`. -/
def serviceDefinition (item : CppClassSource) : List Definition :=
  (internalMethods item).map (serviceMethodDefinition item)

/-- The functions the facade is rendered for. -/
def internalFunctions (functions : List CppFunctionSource) : List CppFunctionSource :=
  functions.filter fun item => item.intent.role = .internal

/-- The classes the facade is rendered for. -/
def serviceClasses (classes : List CppClassSource) : List CppClassSource :=
  classes.filter fun item =>
    item.methods.any fun method => method.intent.role = .internal && !method.static

end InternalFacade

open InternalFacade

/-- The source text of the facade. -/
structure InternalFacade where
  forwards : List Pieces
  functionDefinitions : List InternalFacade.Definition
  serviceDefinitions : List (List InternalFacade.Definition)
deriving DecidableEq

/-- `render_cpp_internal_facade`, without the declarations of its header. -/
def renderCppInternalFacade (functions : List CppFunctionSource) (classes : List CppClassSource) :
    InternalFacade where
  forwards := (internalFunctions functions).map functionForward
  functionDefinitions := (internalFunctions functions).map functionDefinition
  serviceDefinitions := (serviceClasses classes).map serviceDefinition

end SupernoteModule.Codegen
