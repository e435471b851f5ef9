import SupernoteModule.Semantic.Model

/-!
# Marker intent

The markers a language front end found on one declaration. An intent is checked when it is built, so
the markers of one that exists fit its declaration.
-/

namespace SupernoteModule.Frontend

open SupernoteModule.Lib SupernoteModule.Semantic

/-- What the language front ends raise. The first three are `ValueError`s of their own; the last one
carries an error of the semantic layer. -/
inductive FrontendError where
  | source (message : String)
  | projection (message : String)
  | route (message : String)
  | semantic (error : SemanticError)
deriving DecidableEq

/-- A check of the semantic layer, run by a front end. -/
def semantically {Value : Type} (body : Except SemanticError Value) :
    Except FrontendError Value :=
  body.mapError .semantic

@[simp] theorem semantically_eq_ok {Value : Type} {body : Except SemanticError Value}
    {value : Value} : semantically body = .ok value ↔ body = .ok value :=
  mapError_eq_ok

inductive SupernoteMarker where
  | object
  | value
  | exported
  | internal
  | async
  | constructor
deriving DecidableEq, Repr

instance : Enumeration SupernoteMarker where
  className := "SupernoteMarker"
  members := [.object, .value, .exported, .internal, .async, .constructor]
  value
    | .object => "SupernotePluginObject"
    | .value => "SupernotePluginValue"
    | .exported => "SupernotePluginExport"
    | .internal => "SupernotePluginInternal"
    | .async => "SupernotePluginAsync"
    | .constructor => "SupernoteConstructor"
  complete member := by cases member <;> decide
  injective left right := by cases left <;> cases right <;> decide
  named member := by cases member <;> decide

inductive DeclarationTarget where
  | function
  | class_
  | enum
  | method
  | field
  | constructor
deriving DecidableEq, Repr

/-- One use of a marker, where the source has it. -/
structure MarkerOccurrence where
  marker : SupernoteMarker
  line : Int
  column : Int := 1
  positive : 1 ≤ line ∧ 1 ≤ column
deriving DecidableEq

/-- A marker at the start of the line after the first `lines` ones. -/
def MarkerOccurrence.after (lines : Nat) (marker : SupernoteMarker) : MarkerOccurrence where
  marker := marker
  line := lines + 1
  positive := by omega

structure SourceIntent.Fields where
  target : DeclarationTarget
  occurrences : List MarkerOccurrence := []
deriving DecidableEq

namespace SourceIntent

def Fields.markers (intent : Fields) : List SupernoteMarker :=
  intent.occurrences.map (·.marker)

/-- The checks on the markers of one target, which are known to be distinct. -/
def Fields.checkTarget (intent : Fields) : Except FrontendError Unit :=
  match intent.target with
  | .constructor =>
      require (∀ marker ∈ intent.markers, marker = .constructor)
        (.source "constructors accept only SupernoteConstructor")
  | .class_ =>
      require (intent.markers ∈ [[], [.object], [.value]])
        (.source ("classes require exactly one of SupernotePluginObject or " ++
          "SupernotePluginValue; reachability markers belong on members"))
  | .enum =>
      require (intent.markers = [.value])
        (.source "a generated string enum requires exactly SupernotePluginValue")
  | .field =>
      require (intent.markers ∈ [[], [.exported]])
        (.source "generated fields accept only SupernotePluginExport")
  | .function | .method => do
      require (.constructor ∉ intent.markers)
        (.source "SupernoteConstructor is valid only on a constructor")
      require (.object ∉ intent.markers ∧ .value ∉ intent.markers)
        (.source ("SupernotePluginObject and SupernotePluginValue are valid only " ++
          "on type declarations"))
      require
        (.async ∈ intent.markers → .exported ∈ intent.markers ∨ .internal ∈ intent.markers)
        (.source "SupernotePluginAsync requires SupernotePluginExport or SupernotePluginInternal")
      require
        (intent.markers ≠ [] → .exported ∈ intent.markers ∨ .internal ∈ intent.markers)
        (.source ("generated functions and methods require " ++
          "SupernotePluginExport or SupernotePluginInternal"))

def Fields.postInit (intent : Fields) : Except FrontendError Unit := do
  match intent.markers.find? fun marker => 1 < intent.markers.count marker with
  | some duplicate => .error (.source s!"duplicate {value duplicate} marker")
  | none =>
      require (¬ (.exported ∈ intent.markers ∧ .internal ∈ intent.markers))
        (.source
          "SupernotePluginExport and SupernotePluginInternal cannot mark one declaration")
      intent.checkTarget

end SourceIntent

/-- The markers of one declaration. -/
structure SourceIntent extends SourceIntent.Fields where
  valid : toFields.postInit = .ok ()
deriving DecidableEq

namespace SourceIntent

def make (intent : Fields) : Except FrontendError SourceIntent :=
  verified intent.postInit fun hvalid => { intent with valid := hvalid }

@[simp] theorem make_eq_ok {fields : Fields} {intent : SourceIntent} :
    make fields = .ok intent ↔ intent.toFields = fields :=
  verified_eq_ok_of_fields (fun _ => rfl) (by rintro rfl; exact ⟨intent.valid, rfl⟩)

variable (intent : SourceIntent)

/-- The intent of a declaration without markers, which no target but an enum refuses. -/
def unmarked (target : DeclarationTarget) (htarget : target ≠ .enum) : SourceIntent where
  target := target
  valid := by
    cases target with
    | enum => exact absurd rfl htarget
    | _ => rfl

def unmarkedClass : SourceIntent :=
  unmarked .class_ (by decide)

def unmarkedConstructor : SourceIntent :=
  unmarked .constructor (by decide)

theorem unmarkedClass_target : unmarkedClass.target = .class_ :=
  rfl

theorem unmarkedConstructor_target : unmarkedConstructor.target = .constructor :=
  rfl

def role : DeclarationRole :=
  if .exported ∈ intent.markers then .exported
  else if .internal ∈ intent.markers then .internal
  else .ordinary

def execution : ExecutionMode :=
  if .async ∈ intent.markers then .async else .sync

def selectsConstructor : Bool :=
  .constructor ∈ intent.markers

def declaresObject : Bool :=
  .object ∈ intent.markers

def declaresValue : Bool :=
  .value ∈ intent.markers

/-! ### What a target admits -/

variable {intent}

theorem checkTarget_of_valid : intent.checkTarget = .ok () := by
  have hvalid := intent.valid
  unfold Fields.postInit at hvalid
  cases hfind : intent.markers.find? fun marker => 1 < intent.markers.count marker with
  | some duplicate => simp [hfind] at hvalid
  | none =>
      simp only [hfind, bind_eq_ok] at hvalid
      exact hvalid.choose_spec.2

theorem markers_of_class (htarget : intent.target = .class_) :
    intent.markers = [] ∨ intent.markers = [.object] ∨ intent.markers = [.value] := by
  have hcheck := @checkTarget_of_valid intent
  simpa [Fields.checkTarget, htarget] using hcheck

/-- No marker gives a class a role of its own. -/
theorem role_of_class (htarget : intent.target = .class_) : intent.role = .ordinary := by
  rcases markers_of_class htarget with hmarkers | hmarkers | hmarkers <;> simp [role, hmarkers]

end SourceIntent

end SupernoteModule.Frontend
