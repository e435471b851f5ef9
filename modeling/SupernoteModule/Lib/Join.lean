import Mathlib.Data.List.ReduceOption
import SupernoteModule.Lib.Guard

/-!
# Three lists side by side

A translation in two passes has three lists to compare: what the first pass read, what it wrote, and
what the second pass made of that. They are joined when they agree place by place.
-/

namespace SupernoteModule.Lib

variable {Source Record Route OtherSource OtherRecord OtherRoute Error : Type}

inductive Joined (relation : Source → Record → Route → Prop) :
    List Source → List Record → List Route → Prop
  | nil : Joined relation [] [] []
  | cons {source : Source} {record : Record} {route : Route} {sources : List Source}
      {records : List Record} {routes : List Route} :
      relation source record route → Joined relation sources records routes →
        Joined relation (source :: sources) (record :: records) (route :: routes)

namespace Joined

variable {relation : Source → Record → Route → Prop} {sources : List Source}
  {records : List Record} {routes : List Route}

theorem single {source : Source} {record : Record} {route : Route}
    (hrelation : relation source record route) : Joined relation [source] [record] [route] :=
  .cons hrelation .nil

variable (relation) in
/-- The second pass succeeds on what the first one wrote, when it does so record by record. -/
theorem exists_of_mapM {first : Source → Record → Prop} (step : Record → Except Error Route)
    (hfirst : List.Forall₂ first sources records)
    (hstep : ∀ source ∈ sources, ∀ record ∈ records, first source record →
      ∃ route, step record = .ok route ∧ relation source record route) :
    ∃ routes, records.mapM step = .ok routes ∧ Joined relation sources records routes := by
  induction hfirst with
  | nil => exact ⟨[], rfl, .nil⟩
  | cons hhead _ ih =>
      obtain ⟨route, hroute, hrelation⟩ :=
        hstep _ List.mem_cons_self _ List.mem_cons_self hhead
      obtain ⟨routes, hroutes, hjoined⟩ := ih fun source hsource record hrecord =>
        hstep source (List.mem_cons_of_mem _ hsource) record (List.mem_cons_of_mem _ hrecord)
      refine ⟨route :: routes, ?_, .cons hrelation hjoined⟩
      rw [List.mapM_cons, bind_eq_ok]
      refine ⟨route, hroute, ?_⟩
      rw [bind_eq_ok]
      exact ⟨routes, hroutes, rfl⟩

/-- Routes that are all there. -/
theorem reduceOption {outputs : List (Option Route)}
    (hjoined : Joined (fun source record output => ∃ route, output = some route ∧
      relation source record route) sources records outputs) :
    Joined relation sources records outputs.reduceOption := by
  induction hjoined with
  | nil => exact .nil
  | cons hhead _ ih =>
      obtain ⟨route, rfl, hrelation⟩ := hhead
      rw [List.reduceOption_cons_of_some]
      exact .cons hrelation ih

/-- What all three lists leave out in the same places can be left out. -/
theorem filterMap {other : OtherSource → OtherRecord → OtherRoute → Prop}
    {ofSource : Source → Option OtherSource} {ofRecord : Record → Option OtherRecord}
    {ofRoute : Route → Option OtherRoute}
    (hselect : ∀ source record route, relation source record route →
      (ofSource source = none ∧ ofRecord record = none ∧ ofRoute route = none) ∨
        ∃ source' record' route', ofSource source = some source' ∧
          ofRecord record = some record' ∧ ofRoute route = some route' ∧
          other source' record' route')
    (hjoined : Joined relation sources records routes) :
    Joined other (sources.filterMap ofSource) (records.filterMap ofRecord)
      (routes.filterMap ofRoute) := by
  induction hjoined with
  | nil => exact .nil
  | cons hhead _ ih =>
      rcases hselect _ _ _ hhead with ⟨hsource, hrecord, hroute⟩ |
        ⟨source, record, route, hsource, hrecord, hroute, hother⟩
      · rwa [List.filterMap_cons_none hsource, List.filterMap_cons_none hrecord,
          List.filterMap_cons_none hroute]
      · rw [List.filterMap_cons_some hsource, List.filterMap_cons_some hrecord,
          List.filterMap_cons_some hroute]
        exact .cons hother ih

/-- The routes seen through a view of them. -/
theorem map_routes {other : Source → Record → OtherRoute → Prop} {view : Route → OtherRoute}
    (hview : ∀ source record route, relation source record route →
      other source record (view route))
    (hjoined : Joined relation sources records routes) :
    Joined other sources records (routes.map view) := by
  induction hjoined with
  | nil => exact .nil
  | cons hhead _ ih => exact .cons (hview _ _ _ hhead) ih

end Joined

end SupernoteModule.Lib
