import SupernoteModule.Proof.Preflight
import SupernoteModule.Proof.ReferenceConversion

/-!
# The renderers and the reference engine

The reference engine says how an argument is converted. The two renderers should accept the same
values, count the same visits and bytes, and reject with the same error class. The three surveys of
a value are compared: unless it stops, the reference engine asks what C++ asks, and unless it stops,
C++ asks what the JVM asks. Where the three read the arguments alike, what is left are differences
in prices, in starting depths and in what callables do with a refusal.
-/

namespace SupernoteModule.Codegen

open SupernoteModule.Lib SupernoteModule.Semantic SupernoteModule.Conversion

/-! ### What is compared -/

section Surveys

variable (engine : Engine)

end Surveys

/-! ### Answers and usage -/

section Settled

variable {meter : Meter Counter Demand} {survey : Survey Demand Misfit} {exceeded : Answer}
  {stopped : Misfit → Answer}

end Settled

section Agreement

variable (limits : ConversionLimits) (engine : Engine) (cpp jvm : ValueConstructor)
  (mode : CallableMode) (parameters : List (String × ConversionNode)) (arguments : List Value)

variable {limits engine cpp jvm mode parameters arguments}

section Each

variable {survey : Survey Demand Misfit}

end Each

variable (limits engine cpp jvm mode) (hplanned : ∀ parameter ∈ parameters, parameter.2.Planned)
  (hlength : arguments.length = parameters.length) (diagnostic publicPath : String)

include hplanned hlength

end Agreement

def marks : SemanticParameter where
  name := "marks"
  type := { node := .array (.scalar .int32), valid := by decide }
  valid := by decide

end SupernoteModule.Codegen
