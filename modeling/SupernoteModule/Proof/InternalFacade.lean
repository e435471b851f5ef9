import SupernoteModule.Codegen.InternalFacade
import SupernoteModule.Frontend.CppProjection

/-!
# What the internal facade designates

The facade spells every name behind a leading `::` or outside all namespaces, without the namespace
of its source. It therefore designates the right symbols exactly for sources of the global
namespace, and there the identities of the service slots tell the classes apart.
-/

namespace SupernoteModule.Codegen

open SupernoteModule.Lib SupernoteModule.Semantic SupernoteModule.Frontend
open InternalFacade

/-- Two records of the same class: one header, one qualified name. -/
def SameClass (left right : CppClassSource) : Prop :=
  left.provenance.path = right.provenance.path ∧ left.qualifiedName = right.qualifiedName

instance (left right : CppClassSource) : Decidable (SameClass left right) :=
  inferInstanceAs (Decidable (_ ∧ _))

namespace InternalFacade

def Definition.slots (definitions : List Definition) : List String :=
  definitions.flatMap fun definition => Pieces.slots definition.serviceSetup

/-- Every name in the facade is the symbol of the source it stands for, and classes that share a
slot are the same class. -/
structure Designates (functions : List CppFunctionSource) (classes : List CppClassSource)
    (facade : InternalFacade) : Prop where
  forwards : facade.forwards.map Pieces.symbols =
    (internalFunctions functions).map fun item => [item.symbol]
  calls : facade.functionDefinitions.map (fun definition => Pieces.symbols definition.call) =
    (internalFunctions functions).map fun item => [item.symbol]
  services : facade.serviceDefinitions.map
      (fun definitions => definitions.map fun definition =>
        Pieces.symbols definition.serviceSetup) =
    (serviceClasses classes).map fun item =>
      (internalMethods item).map fun _ => [item.symbol, item.symbol]
  slots : ∀ left ∈ (serviceClasses classes).zip facade.serviceDefinitions,
    ∀ right ∈ (serviceClasses classes).zip facade.serviceDefinitions,
      ∀ slot ∈ Definition.slots left.2, slot ∈ Definition.slots right.2 →
        SameClass left.1 right.1

/-! ### Names -/

variable {item other : CppClassSource} {function : CppFunctionSource} {method : CppMethodSource}

theorem symbols_functionForward :
    Pieces.symbols (functionForward function) = ["::" ++ function.cppName] :=
  rfl

theorem symbols_call : Pieces.symbols (functionDefinition function).call =
    ["::" ++ function.cppName] :=
  rfl

theorem symbols_serviceSetup :
    Pieces.symbols (serviceMethodDefinition item method).serviceSetup =
      ["::" ++ item.cppName, "::" ++ item.cppName] :=
  rfl

theorem slots_serviceSetup :
    Pieces.slots (serviceMethodDefinition item method).serviceSetup =
      [item.provenance.declarationId] :=
  rfl

theorem function_symbol_iff :
    "::" ++ function.cppName = function.symbol ↔ function.cppNamespace = [] := by
  rw [CppFunctionSource.symbol, CppFunctionSource.qualifiedName, String.append_right_inj, eq_comm]
  exact joinNames_eq_last

theorem class_symbol_iff : "::" ++ item.cppName = item.symbol ↔ item.cppNamespace = [] := by
  rw [CppClassSource.symbol, CppClassSource.qualifiedName, String.append_right_inj, eq_comm]
  exact joinNames_eq_last

/-- A service has a method that looks it up. -/
theorem exists_internalMethod {classes : List CppClassSource}
    (hservice : item ∈ serviceClasses classes) : ∃ method, method ∈ internalMethods item := by
  obtain ⟨_, hany⟩ := List.mem_filter.mp hservice
  obtain ⟨method, hmethod, hrole⟩ := List.any_eq_true.mp hany
  rw [Bool.and_eq_true] at hrole
  exact ⟨method, List.mem_filter.mpr ⟨hmethod, hrole.1⟩⟩

/-! ### Slots -/

theorem mem_slots_iff {slot : String} : slot ∈ Definition.slots (serviceDefinition item) ↔
    slot = item.provenance.declarationId ∧ internalMethods item ≠ [] := by
  simp only [Definition.slots, serviceDefinition, List.mem_flatMap, List.mem_map]
  constructor
  · rintro ⟨_, ⟨method, hmethod, rfl⟩, hslot⟩
    rw [slots_serviceSetup, List.mem_singleton] at hslot
    exact ⟨hslot, List.ne_nil_of_mem hmethod⟩
  · rintro ⟨rfl, hmethods⟩
    obtain ⟨method, hmethod⟩ := List.exists_mem_of_ne_nil _ hmethods
    refine ⟨_, ⟨method, hmethod, rfl⟩, ?_⟩
    rw [slots_serviceSetup]
    exact List.mem_singleton_self _

/-- The identity of a class gives its header and its name, but not its namespace. -/
theorem scannedId_inj (hitem : item.Scanned) (hother : other.Scanned)
    (hid : item.provenance.declarationId = other.provenance.declarationId) :
    item.provenance.path = other.provenance.path ∧ item.cppName = other.cppName := by
  rw [hitem.declarationId, hother.declarationId, ← String.toList_inj] at hid
  have hcolon : ':' ∉ item.cppName.toList := not_mem_of_isCppName hitem.name (by decide)
  have hotherColon : ':' ∉ other.cppName.toList := not_mem_of_isCppName hother.name (by decide)
  have hsplit : ∀ path name : String, (s!"cpp:{path}:class:{name}").toList =
      ("cpp:".toList ++ path.toList ++ ":class".toList) ++ ':' :: name.toList := by
    intro path name
    simp [toString]
  rw [hsplit, hsplit, Python.append_cons_inj hcolon hotherColon] at hid
  obtain ⟨hpath, hname⟩ := hid
  refine ⟨String.toList_inj.mp ?_, String.toList_inj.mp hname⟩
  simpa using hpath

theorem sameClass_of_global (hitem : item.Scanned) (hother : other.Scanned)
    (hglobal : item.cppNamespace = []) (hotherGlobal : other.cppNamespace = [])
    (hid : item.provenance.declarationId = other.provenance.declarationId) :
    SameClass item other := by
  obtain ⟨hpath, hname⟩ := scannedId_inj hitem hother hid
  refine ⟨hpath, ?_⟩
  rw [CppClassSource.qualifiedName, CppClassSource.qualifiedName, hglobal, hotherGlobal, hname]

end InternalFacade

variable {functions : List CppFunctionSource} {classes : List CppClassSource}

/-- **The facade designates its sources exactly when they are all in the global namespace.** -/
theorem internalFacade_designates_iff (hscanned : ∀ item ∈ classes, item.Scanned) :
    Designates functions classes (renderCppInternalFacade functions classes) ↔
      (∀ item ∈ internalFunctions functions, item.cppNamespace = []) ∧
        ∀ item ∈ serviceClasses classes, item.cppNamespace = [] := by
  constructor
  · intro hdesignates
    constructor
    · intro item hitem
      have hforwards := hdesignates.forwards
      rw [renderCppInternalFacade, List.map_map, List.map_inj_left] at hforwards
      have hnames := hforwards item hitem
      rw [Function.comp_apply, symbols_functionForward, List.singleton_inj] at hnames
      exact function_symbol_iff.mp hnames
    · intro item hitem
      obtain ⟨method, hmethod⟩ := exists_internalMethod hitem
      have hservices := hdesignates.services
      rw [renderCppInternalFacade, List.map_map, List.map_inj_left] at hservices
      have hnames := hservices item hitem
      rw [Function.comp_apply, serviceDefinition, List.map_map, List.map_inj_left] at hnames
      have hname := hnames method hmethod
      rw [Function.comp_apply, symbols_serviceSetup, List.cons.injEq] at hname
      exact class_symbol_iff.mp hname.1
  · rintro ⟨hfunctions, hservices⟩
    refine ⟨?_, ?_, ?_, ?_⟩
    · rw [renderCppInternalFacade, List.map_map, List.map_inj_left]
      intro item hitem
      rw [Function.comp_apply, symbols_functionForward,
        function_symbol_iff.mpr (hfunctions item hitem)]
    · rw [renderCppInternalFacade, List.map_map, List.map_inj_left]
      intro item hitem
      rw [Function.comp_apply, symbols_call, function_symbol_iff.mpr (hfunctions item hitem)]
    · rw [renderCppInternalFacade, List.map_map, List.map_inj_left]
      intro item hitem
      rw [Function.comp_apply, serviceDefinition, List.map_map, List.map_inj_left]
      intro method _
      rw [Function.comp_apply, symbols_serviceSetup, class_symbol_iff.mpr (hservices item hitem)]
    · intro left hleft right hright slot hslot hother
      have hzip : (serviceClasses classes).zip
          (renderCppInternalFacade functions classes).serviceDefinitions =
            (serviceClasses classes).map fun item => (item, serviceDefinition item) := by
        rw [renderCppInternalFacade, ← List.zip_map', List.map_id']
      rw [hzip] at hleft hright
      obtain ⟨item, hitem, rfl⟩ := List.mem_map.mp hleft
      obtain ⟨other, hother', rfl⟩ := List.mem_map.mp hright
      rw [mem_slots_iff] at hslot hother
      have hclass := (List.mem_filter.mp hitem).1
      have hotherClass := (List.mem_filter.mp hother').1
      exact sameClass_of_global (hscanned _ hclass) (hscanned _ hotherClass)
        (hservices _ hitem) (hservices _ hother') (hslot.1.symm.trans hother.1)

/-! ### Two stores of one header -/

/-- `// @SupernotePluginInternal` above a method. -/
def internalMethodIntent : SourceIntent :=
  ⟨⟨.method, [.after 3 .internal]⟩, by decide⟩

/-- `namespace util { … std::int32_t twice(std::int32_t value) { … } }` in `util.cpp`. -/
def twiceSource (enclosing : List String) : CppFunctionSource where
  provenance :=
    ⟨⟨"cpp:android/src/main/cpp/util.cpp:twice(std::int32_t)", "cpp",
      "android/src/main/cpp/util.cpp", 3, 1⟩, by decide⟩
  cppName := "twice"
  returnTypeSpelling := "std::int32_t"
  parameters := [⟨"std::int32_t", "value"⟩]
  intent := ⟨⟨.function, [.after 2 .internal]⟩, by decide⟩
  cppNamespace := enclosing
  target := rfl

def loadSource : CppMethodSource where
  provenance :=
    ⟨⟨"cpp:android/src/main/cpp/store.hpp:Store.load()", "cpp",
      "android/src/main/cpp/store.hpp", 4, 1⟩, by decide⟩
  cppName := "load"
  returnTypeSpelling := "void"
  parameters := []
  intent := internalMethodIntent
  access := "public"
  target := rfl

def saveSource : CppMethodSource :=
  { loadSource with
    provenance :=
      ⟨⟨"cpp:android/src/main/cpp/store.hpp:Store.save()", "cpp",
        "android/src/main/cpp/store.hpp", 10, 1⟩, by decide⟩
    cppName := "save" }

/-- `class Store` of `store.hpp`, with one marked method, in a namespace. -/
def storeSource (enclosing : List String) (method : CppMethodSource) : CppClassSource where
  provenance :=
    ⟨⟨"cpp:android/src/main/cpp/store.hpp:class:Store", "cpp",
      "android/src/main/cpp/store.hpp", 2, 1⟩, by decide⟩
  cppName := "Store"
  includePath := "store.hpp"
  intent := SourceIntent.unmarkedClass
  constructors := [{
    provenance :=
      ⟨⟨"cpp:android/src/main/cpp/store.hpp:constructor:Store()#implicit", "cpp",
        "android/src/main/cpp/store.hpp", 2, 1⟩, by decide⟩
    parameters := []
    access := "public"
    intent := SourceIntent.unmarkedConstructor
    implicit := true
    target := SourceIntent.unmarkedConstructor_target }]
  methods := [method]
  cppNamespace := enclosing
  target := SourceIntent.unmarkedClass_target
  kind := class_mem_kinds

theorem storeSource_scanned (enclosing : List String) (method : CppMethodSource) :
    (storeSource enclosing method).Scanned where
  name := (by decide : isCppName "Store" = true)
  declarationId := by
    change "cpp:android/src/main/cpp/store.hpp:class:Store" =
      "cpp:" ++ "android/src/main/cpp/store.hpp" ++ ":class:" ++ "Store"
    decide

/-- `class Index` of the same header. -/
def indexSource : CppClassSource :=
  { storeSource [] saveSource with
    provenance :=
      ⟨⟨"cpp:android/src/main/cpp/store.hpp:class:Index", "cpp",
        "android/src/main/cpp/store.hpp", 8, 1⟩, by decide⟩
    cppName := "Index" }

theorem indexSource_scanned : indexSource.Scanned where
  name := (by decide : isCppName "Index" = true)
  declarationId := by
    change "cpp:android/src/main/cpp/store.hpp:class:Index" =
      "cpp:" ++ "android/src/main/cpp/store.hpp" ++ ":class:" ++ "Index"
    decide

/-- In the global namespace the names are right, and the two services have slots of their own. -/
theorem internalFacade_designates_store :
    Designates [twiceSource []] [storeSource [] loadSource, indexSource]
        (renderCppInternalFacade [twiceSource []] [storeSource [] loadSource, indexSource]) ∧
      Definition.slots (serviceDefinition (storeSource [] loadSource)) =
        ["cpp:android/src/main/cpp/store.hpp:class:Store"] ∧
      Definition.slots (serviceDefinition indexSource) =
        ["cpp:android/src/main/cpp/store.hpp:class:Index"] := by
  have hscanned : ∀ item ∈ [storeSource [] loadSource, indexSource], item.Scanned := by
    intro item hitem
    rcases List.mem_cons.mp hitem with rfl | hrest
    · exact storeSource_scanned [] loadSource
    · rw [List.mem_singleton.mp hrest]
      exact indexSource_scanned
  exact ⟨(internalFacade_designates_iff hscanned).mpr ⟨by decide, by decide⟩, rfl, rfl⟩

/-- Two stores in different namespaces of one header, and a function in a third. The front end
accepts them, the facade calls `::twice` and `::Store`, and both stores share one slot. -/
theorem internalFacade_confuses_stores :
    (projectCppApi "supernote:feature:0123456789abcdef" [twiceSource ["util"]]
        [storeSource ["first"] loadSource, storeSource ["second"] saveSource] []).isOk = true ∧
      ¬ Designates [twiceSource ["util"]]
        [storeSource ["first"] loadSource, storeSource ["second"] saveSource]
        (renderCppInternalFacade [twiceSource ["util"]]
          [storeSource ["first"] loadSource, storeSource ["second"] saveSource]) := by
  refine ⟨by decide, fun hdesignates => ?_⟩
  have hslots := hdesignates.slots
    (storeSource ["first"] loadSource, serviceDefinition (storeSource ["first"] loadSource))
    (by decide)
    (storeSource ["second"] saveSource, serviceDefinition (storeSource ["second"] saveSource))
    (by decide)
    "cpp:android/src/main/cpp/store.hpp:class:Store" (by decide) (by decide)
  exact absurd hslots (by decide)

end SupernoteModule.Codegen
