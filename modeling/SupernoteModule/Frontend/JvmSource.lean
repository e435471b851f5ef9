import SupernoteModule.Frontend.SourceIntent

/-!
# JVM source records

What the compiler plugin reports of Kotlin and Java declarations. An owner holds its members, and
its checks tie them to it.
-/

namespace SupernoteModule.Frontend

open SupernoteModule.Semantic

inductive JvmLanguage where
  | kotlin
  | java
deriving DecidableEq, Repr

instance : Enumeration JvmLanguage where
  className := "JvmLanguage"
  members := [.kotlin, .java]
  value
    | .kotlin => "kotlin"
    | .java => "java"
  complete member := by cases member <;> decide
  injective left right := by cases left <;> cases right <;> decide
  named member := by cases member <;> decide

inductive JvmOwnerForm where
  | class_
  | kotlinObject
  | kotlinTopLevel
  | javaStatic
deriving DecidableEq, Repr

instance : Enumeration JvmOwnerForm where
  className := "JvmOwnerForm"
  members := [.class_, .kotlinObject, .kotlinTopLevel, .javaStatic]
  value
    | .class_ => "class"
    | .kotlinObject => "kotlin_object"
    | .kotlinTopLevel => "kotlin_top_level"
    | .javaStatic => "java_static"
  complete member := by cases member <;> decide
  injective left right := by cases left <;> cases right <;> decide
  named member := by cases member <;> decide

inductive JvmInjectedDependency where
  | context
  | reactApplicationContext
deriving DecidableEq, Repr

instance : Enumeration JvmInjectedDependency where
  className := "JvmInjectedDependency"
  members := [.context, .reactApplicationContext]
  value
    | .context => "android.content.Context"
    | .reactApplicationContext => "com.facebook.react.bridge.ReactApplicationContext"
  complete member := by cases member <;> decide
  injective left right := by cases left <;> cases right <;> decide
  named member := by cases member <;> decide

/-- A type as it is spelled, with the arguments of a generic one. -/
inductive JvmTypeSource where
  | mk (jvmType : String) (nullable : Bool) (arguments : List JvmTypeSource)

structure JvmParameterSource where
  jvmType : String
  name : String
  nullable : Bool := false
  injected : Option JvmInjectedDependency := none
  typeArguments : List JvmTypeSource := []

def JvmParameterSource.typeSource (parameter : JvmParameterSource) : JvmTypeSource :=
  .mk parameter.jvmType parameter.nullable parameter.typeArguments

structure JvmConstructorSource where
  provenance : SourceProvenance
  jvmDescriptor : String
  parameters : List JvmParameterSource
  visibility : String
  intent : SourceIntent
  adapterIdentity : String
  target : intent.target = .constructor
  adapted : adapterIdentity ≠ ""

def JvmConstructorSource.selected (constructor : JvmConstructorSource) : Bool :=
  constructor.intent.selectsConstructor

/-- The parameters JavaScript supplies. -/
def JvmConstructorSource.visible (constructor : JvmConstructorSource) : List JvmParameterSource :=
  constructor.parameters.filter (·.injected.isNone)

structure JvmDeclarationSource where
  provenance : SourceProvenance
  ownerDeclarationId : String
  ownerClass : String
  jvmName : String
  jvmDescriptor : String
  parameters : List JvmParameterSource
  resultJvmType : String
  resultNullable : Bool
  intent : SourceIntent
  visibility : String
  adapterIdentity : String
  language : JvmLanguage
  isSuspend : Bool := false
  isStatic : Bool := false
  resultTypeArguments : List JvmTypeSource := []
  target : intent.target = .function ∨ intent.target = .method
  adapted : ownerDeclarationId ≠ "" ∧ adapterIdentity ≠ ""
  suspending : isSuspend → language = .kotlin ∧ intent.execution = .async
  notInjected : ∀ parameter ∈ parameters, parameter.injected = none

def JvmDeclarationSource.resultTypeSource (declaration : JvmDeclarationSource) : JvmTypeSource :=
  .mk declaration.resultJvmType declaration.resultNullable declaration.resultTypeArguments

structure JvmFieldSource where
  provenance : SourceProvenance
  ownerDeclarationId : String
  name : String
  type : JvmTypeSource
  intent : SourceIntent
  visibility : String
  mutable : Bool
  isStatic : Bool := false
  accessorIdentity : String := ""
  target : intent.target = .field
  owned : ownerDeclarationId ≠ ""

structure JvmOwnerSource.Fields where
  provenance : SourceProvenance
  language : JvmLanguage
  ownerClass : String
  sourceName : String
  form : JvmOwnerForm
  intent : SourceIntent
  constructors : List JvmConstructorSource
  declarations : List JvmDeclarationSource
  visibility : String := "public"
  fields : List JvmFieldSource := []
  enumConstants : List String := []
  isData : Bool := false
  isRecord : Bool := false
  isFinal : Bool := true
  typeParameterCount : Nat := 0
  supertypes : List String := []

/-- A class of Kotlin or Java, a Kotlin object, or the functions of a file or of static methods. -/
structure JvmOwnerSource extends JvmOwnerSource.Fields where
  target : intent.target = .class_
  kotlinForm : form = .kotlinObject ∨ form = .kotlinTopLevel → language = .kotlin
  javaForm : form = .javaStatic → language = .java
  constructionFree : form ≠ .class_ → constructors = []
  ownConstructors : ∀ constructor ∈ constructors,
    constructor.provenance.language = value language ∧
      ∀ parameter ∈ constructor.parameters, ∀ dependency ∈ parameter.injected,
        parameter.jvmType = value dependency
  ownDeclarations : ∀ declaration ∈ declarations,
    declaration.ownerDeclarationId = provenance.declarationId ∧
      declaration.ownerClass = ownerClass ∧ declaration.language = language
  ownFields : ∀ field ∈ fields,
    field.ownerDeclarationId = provenance.declarationId ∧
      field.provenance.language = value language

namespace JvmOwnerSource

variable {owner : JvmOwnerSource}

@[simp] theorem role_eq_ordinary : owner.intent.role = .ordinary :=
  SourceIntent.role_of_class owner.target

end JvmOwnerSource

end SupernoteModule.Frontend
