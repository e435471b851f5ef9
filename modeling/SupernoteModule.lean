import SupernoteModule.Lib.Custody
import SupernoteModule.Lib.Exclusive
import SupernoteModule.Lib.Machine
import SupernoteModule.Proof.BoundedExecutor
import SupernoteModule.Proof.DeferredDestruction
import SupernoteModule.Proof.FeatureSession
import SupernoteModule.Proof.GenerationPlan
import SupernoteModule.Proof.GenerationService
import SupernoteModule.Proof.IntegrityManifest
import SupernoteModule.Proof.PendingOperation
import SupernoteModule.Proof.Retirement
import SupernoteModule.Proof.RuntimeSession
import SupernoteModule.Proof.ServiceSlot
import SupernoteModule.Proof.SuspendCall
import SupernoteModule.Lib.Guard
import SupernoteModule.Lib.Territory
import SupernoteModule.Python.Path
import SupernoteModule.Python.Json
import SupernoteModule.Generation.IntegrityManifest
import SupernoteModule.Generation.FileTree
import SupernoteModule.Generation.GenerationPlan
import SupernoteModule.Generation.GenerationService
import SupernoteModule.Semantic.Types
import SupernoteModule.Semantic.Model
import SupernoteModule.Semantic.Api
import SupernoteModule.Semantic.Manifest
import SupernoteModule.Python.JsonOrder
import SupernoteModule.Proof.SemanticRecord
import SupernoteModule.Semantic.Order
import SupernoteModule.Proof.SemanticManifest
import SupernoteModule.Lib.Loop
import SupernoteModule.Semantic.Reachability
import SupernoteModule.Proof.Reachability
import SupernoteModule.Conversion.Engine
import SupernoteModule.Proof.ConversionRoundTrip
import SupernoteModule.Codegen.Jsi
import SupernoteModule.Lib.Metered
import SupernoteModule.Codegen.ObjectBinding
import SupernoteModule.Spec.ConversionSurvey
import SupernoteModule.Proof.GeneratedConversion
import SupernoteModule.Proof.SurveyComparison
import SupernoteModule.Proof.Preflight
import SupernoteModule.Proof.BackendAgreement
import SupernoteModule.Frontend.SourceIntent
import SupernoteModule.Frontend.CppProjection
import SupernoteModule.Codegen.InternalFacade
import SupernoteModule.Proof.InternalFacade
import SupernoteModule.Frontend.JvmProjection
import SupernoteModule.Spec.MarkerAccount
import SupernoteModule.Proof.MarkerAccount
import SupernoteModule.Semantic.Route
import SupernoteModule.Frontend.CppRoutes
import SupernoteModule.Lib.Join
import SupernoteModule.Spec.CppRoutes
import SupernoteModule.Proof.CppRoutes
import SupernoteModule.Lib.PathResolution
import SupernoteModule.Npm.PackageTree
import SupernoteModule.Npm.ResolvePackages
import SupernoteModule.Npm.PackageInputs
import SupernoteModule.Proof.HashedSourceTree
import SupernoteModule.Proof.PackageInputs
import SupernoteModule.Generation.EntryHash
import SupernoteModule.Lib.RecordStream
import SupernoteModule.Proof.EntryHash
import SupernoteModule.Conversion.ApiPlan
import SupernoteModule.Proof.ConversionPlan
import SupernoteModule.Python.JsonReader
import SupernoteModule.Python.JsonLayout
import SupernoteModule.Python.JsonDumps
import SupernoteModule.Frontend.JvmManifest
import SupernoteModule.Proof.JvmManifest
import SupernoteModule.Proof.JvmRoundTrip
import SupernoteModule.Frontend.JvmFacts
import SupernoteModule.Proof.JvmFacts
import SupernoteModule.Filesystem.WindowsAuthority
import SupernoteModule.Proof.WindowsAuthority
import SupernoteModule.Proof.WindowsClaims
import SupernoteModule.Proof.CppObjects
import SupernoteModule.Lib.History
import SupernoteModule.Proof.ModuleLifecycle
import SupernoteModule.Proof.RouteValidation
import SupernoteModule.Lib.StepWalk
import SupernoteModule.Spec.ConversionWalk
import SupernoteModule.Proof.ConversionWalk
import SupernoteModule.Proof.ForeignFailures
import SupernoteModule.Proof.ConversionLimits
import SupernoteModule.Frontend.CppLexer
import SupernoteModule.Spec.CppLayout
import SupernoteModule.Proof.CppLexer
import SupernoteModule.Frontend.JavaSourceType
import SupernoteModule.Spec.JavaSpelling
import SupernoteModule.Proof.JavaSourceType
import SupernoteModule.Filesystem.RestoreEntry
import SupernoteModule.Proof.RestoreEntry
import SupernoteModule.Filesystem.ProtectedSources
import SupernoteModule.Proof.ProtectedSources
import SupernoteModule.Codegen.TypeScript
import SupernoteModule.Lib.Spans
import SupernoteModule.Proof.CppSpans
import SupernoteModule.Spec.TypeScriptTypes
import SupernoteModule.Generation.FeatureModel
import SupernoteModule.Npm.Discover
import SupernoteModule.Proof.TypeScript
import SupernoteModule.Proof.PackageConflicts
import SupernoteModule.Frontend.CppDeclarations
import SupernoteModule.Lib.Brackets
import SupernoteModule.Spec.CppScopes
import SupernoteModule.Proof.CppDepths
import SupernoteModule.Proof.CppNamespaces
import SupernoteModule.Proof.MemberMarkers
import SupernoteModule.Spec.JvmDefects
import SupernoteModule.Proof.JvmDefects
import SupernoteModule.Frontend.CppTypeSyntax
import SupernoteModule.Python.TokenText
import SupernoteModule.Spec.CppTypeGrammar
import SupernoteModule.Proof.CppTypeTexts
import SupernoteModule.Proof.CppTypeNames
import SupernoteModule.Proof.CppTypes
import SupernoteModule.Proof.CppTypeReading
import SupernoteModule.Lib.Effects
import SupernoteModule.Filesystem.Disk
import SupernoteModule.Filesystem.GeneratedEntries
import SupernoteModule.Generation.GenerationExecution
import SupernoteModule.Proof.Disk
import SupernoteModule.Proof.GeneratedEntries
import SupernoteModule.Generation.Publication
import SupernoteModule.Proof.PublicationNotes
import SupernoteModule.Proof.GenerationExecution
import SupernoteModule.Generation.OperationLock
import SupernoteModule.Proof.OperationLock
import SupernoteModule.Filesystem.LinuxAdd
import SupernoteModule.Spec.LinuxAdd
import SupernoteModule.Proof.LinuxAddCalls
import SupernoteModule.Proof.LinuxAddScaffold
import SupernoteModule.Proof.LinuxAddChecks
import SupernoteModule.Proof.LinuxAdd
import SupernoteModule.Runtime.JvmObjects
import SupernoteModule.Proof.JvmObjects
