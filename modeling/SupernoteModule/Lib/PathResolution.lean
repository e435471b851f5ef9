import Mathlib.Data.List.Basic

/-!
# Resolving paths through links

A tree of names with links in it. Resolving walks a path segment by segment and takes up the target
of every link on the way; a bound on the number of links ends every walk. Where it arrives is a
physical path: its own resolution, with no link on it.
-/

namespace SupernoteModule.Lib

inductive Segment (Name : Type) where
  | here
  | up
  | down (name : Name)
deriving DecidableEq

/-- What a link says: a path from the root, or from the directory of the link. -/
structure LinkTarget (Name : Type) where
  absolute : Bool
  segments : List (Segment Name)
deriving DecidableEq

/-- What is found at a place, without following it. -/
inductive Seen (Name : Type) where
  | leaf
  | directory
  | link (target : LinkTarget Name)
deriving DecidableEq

variable {Name : Type}

def LinkTarget.start (target : LinkTarget Name) (current : List Name) : List Name :=
  if target.absolute then [] else current

/-- Walk along the segments, and hand over to `follow` at the first link. -/
def walk (seen : List Name → Option (Seen Name))
    (follow : List Name → List (Segment Name) → Option (List Name)) :
    List Name → List (Segment Name) → Option (List Name)
  | current, [] => some current
  | current, segment :: rest =>
      match seen current with
      | some .directory =>
          match segment with
          | .here => walk seen follow current rest
          | .up => walk seen follow current.dropLast rest
          | .down name =>
              match seen (current ++ [name]) with
              | none => none
              | some (.link target) => follow (target.start current) (target.segments ++ rest)
              | some .leaf | some .directory => walk seen follow (current ++ [name]) rest
      | some .leaf | some (.link _) | none => none

/-- The place a path leads to, through at most so many links. -/
def resolve (seen : List Name → Option (Seen Name)) :
    Nat → List Name → List (Segment Name) → Option (List Name)
  | 0 => walk seen fun _ _ => none
  | links + 1 => walk seen (resolve seen links)

/-- Every place above the path is a directory, and it does not end in a link. -/
structure Physical (seen : List Name → Option (Seen Name)) (path : List Name) : Prop where
  above : ∀ before after, path = before ++ after → after ≠ [] → seen before = some .directory
  ends : seen path = some .leaf ∨ seen path = some .directory

variable {seen : List Name → Option (Seen Name)} {current final : List Name}
  {segments first rest : List (Segment Name)}

theorem Physical.front {before after : List Name} (hphysical : Physical seen (before ++ after)) :
    Physical seen before := by
  by_cases hafter : after = []
  · simpa [hafter] using hphysical
  · refine ⟨?_, .inr (hphysical.above before after rfl hafter)⟩
    rintro start between rfl hbetween
    exact hphysical.above start (between ++ after) (by simp) (by simp [hbetween])

theorem Physical.dropLast (hphysical : Physical seen current) : Physical seen current.dropLast := by
  rcases List.eq_nil_or_concat' current with rfl | ⟨before, name, rfl⟩
  · exact hphysical
  · rw [List.dropLast_concat]
    exact hphysical.front

theorem Physical.concat {name : Name} (hphysical : Physical seen current)
    (hdirectory : seen current = some .directory)
    (hends : seen (current ++ [name]) = some .leaf ∨ seen (current ++ [name]) = some .directory) :
    Physical seen (current ++ [name]) := by
  refine ⟨?_, hends⟩
  intro before after hsplit hafter
  obtain ⟨between, last, rfl⟩ := (List.eq_nil_or_concat' after).resolve_left hafter
  rw [← List.append_assoc] at hsplit
  obtain ⟨rfl, -⟩ := List.append_inj' hsplit rfl
  by_cases hbetween : between = []
  · simpa [hbetween] using hdirectory
  · exact hphysical.above before between rfl hbetween

/-! ### One segment -/

section Walk

variable {follow : List Name → List (Segment Name) → Option (List Name)}

/-- What the first segment of a walk that arrives was. -/
theorem walk_cons_eq_some {segment : Segment Name} :
    walk seen follow current (segment :: rest) = some final ↔
      seen current = some .directory ∧
        match segment with
        | .here => walk seen follow current rest = some final
        | .up => walk seen follow current.dropLast rest = some final
        | .down name =>
            (∃ target, seen (current ++ [name]) = some (.link target) ∧
              follow (target.start current) (target.segments ++ rest) = some final) ∨
            ((seen (current ++ [name]) = some .leaf ∨
                seen (current ++ [name]) = some .directory) ∧
              walk seen follow (current ++ [name]) rest = some final) := by
  rw [walk.eq_def]
  simp only
  cases hcurrent : seen current with
  | none => simp
  | some kind =>
      cases kind with
      | leaf => simp
      | link target => simp
      | directory =>
          cases segment with
          | here => simp
          | up => simp
          | down name =>
              cases hnext : seen (current ++ [name]) with
              | none => simp [hnext]
              | some next => cases next <;> simp [hnext]

/-- What a walk keeps of its place, as long as the names it goes down by are admitted. -/
structure Keeps (seen : List Name → Option (Seen Name)) (admits : Name → Prop)
    (inv : List Name → Prop) : Prop where
  root : inv []
  up : ∀ current, inv current → inv current.dropLast
  down : ∀ current name, inv current → admits name → seen current = some .directory →
    seen (current ++ [name]) = some .leaf ∨ seen (current ++ [name]) = some .directory →
    inv (current ++ [name])
  links : ∀ path target, seen path = some (.link target) →
    ∀ name, .down name ∈ target.segments → admits name

/-- A walk arrives where the invariant holds, when following a link does. -/
theorem Keeps.of_walk {admits : Name → Prop} {inv : List Name → Prop}
    (hkeeps : Keeps seen admits inv)
    (hfollow : ∀ {start segments final}, inv start →
      (∀ name, Segment.down name ∈ segments → admits name) →
      follow start segments = some final → inv final)
    (hcurrent : inv current) (hsegments : ∀ name, Segment.down name ∈ segments → admits name)
    (hwalk : walk seen follow current segments = some final) : inv final := by
  induction segments generalizing current with
  | nil =>
      obtain rfl : current = final := by simpa [walk] using hwalk
      exact hcurrent
  | cons segment rest ih =>
      obtain ⟨hdirectory, hwalk⟩ := walk_cons_eq_some.mp hwalk
      have hrest : ∀ name, Segment.down name ∈ rest → admits name :=
        fun name hname => hsegments name (List.mem_cons_of_mem _ hname)
      cases segment with
      | here => exact ih hcurrent hrest hwalk
      | up => exact ih (hkeeps.up current hcurrent) hrest hwalk
      | down name =>
          rcases hwalk with ⟨target, htarget, hlink⟩ | ⟨hends, hwalk⟩
          · refine hfollow ?_ ?_ hlink
            · unfold LinkTarget.start
              split
              · exact hkeeps.root
              · exact hcurrent
            · intro other hother
              rcases List.mem_append.mp hother with hnamed | hlater
              · exact hkeeps.links _ target htarget other hnamed
              · exact hrest other hlater
          · have hadmits := hsegments name List.mem_cons_self
            exact ih (hkeeps.down current name hcurrent hadmits hdirectory hends) hrest hwalk

/-- A walk passes through the place that the first part of its path leads to. -/
theorem walk_append {arrives : List Name → Prop}
    (hfollow : ∀ {start before}, follow start (before ++ rest) = some final →
      ∃ middle, follow start before = some middle ∧ arrives middle)
    (hdirect : ∀ {middle}, walk seen follow middle rest = some final → arrives middle)
    (hwalk : walk seen follow current (first ++ rest) = some final) :
    ∃ middle, walk seen follow current first = some middle ∧ arrives middle := by
  induction first generalizing current with
  | nil => exact ⟨current, rfl, hdirect hwalk⟩
  | cons segment first ih =>
      rw [List.cons_append] at hwalk
      obtain ⟨hdirectory, hwalk⟩ := walk_cons_eq_some.mp hwalk
      cases segment with
      | here =>
          obtain ⟨middle, hmiddle, harrives⟩ := ih hwalk
          exact ⟨middle, walk_cons_eq_some.mpr ⟨hdirectory, hmiddle⟩, harrives⟩
      | up =>
          obtain ⟨middle, hmiddle, harrives⟩ := ih hwalk
          exact ⟨middle, walk_cons_eq_some.mpr ⟨hdirectory, hmiddle⟩, harrives⟩
      | down name =>
          rcases hwalk with ⟨target, htarget, hlink⟩ | ⟨hends, hwalk⟩
          · rw [← List.append_assoc] at hlink
            obtain ⟨middle, hmiddle, harrives⟩ := hfollow hlink
            exact ⟨middle, walk_cons_eq_some.mpr ⟨hdirectory, .inl ⟨target, htarget, hmiddle⟩⟩,
              harrives⟩
          · obtain ⟨middle, hmiddle, harrives⟩ := ih hwalk
            exact ⟨middle, walk_cons_eq_some.mpr ⟨hdirectory, .inr ⟨hends, hmiddle⟩⟩, harrives⟩

/-- Along a physical path nothing is followed. -/
theorem walk_physical {before after : List Name} (hphysical : Physical seen (before ++ after)) :
    walk seen follow before (after.map .down) = some (before ++ after) := by
  induction after generalizing before with
  | nil => simp [walk]
  | cons name after ih =>
      have hdirectory := hphysical.above before (name :: after) rfl (by simp)
      rw [List.append_cons] at hphysical ⊢
      rw [List.map_cons, walk_cons_eq_some]
      exact ⟨hdirectory, .inr ⟨hphysical.front.ends, ih hphysical⟩⟩

end Walk

/-! ### Resolution -/

@[simp] theorem resolve_nil {links : Nat} : resolve seen links current [] = some current := by
  cases links with
  | zero => rfl
  | succ links => rfl

theorem resolve_physical {links : Nat} {path : List Name} (hphysical : Physical seen path) :
    resolve seen links [] (path.map .down) = some path := by
  cases links with
  | zero => exact walk_physical hphysical
  | succ links => exact walk_physical hphysical

/-- A resolution keeps what each of its walks keeps. -/
theorem Keeps.of_resolve {admits : Name → Prop} {inv : List Name → Prop} {links : Nat}
    (hkeeps : Keeps seen admits inv) (hcurrent : inv current)
    (hsegments : ∀ name, Segment.down name ∈ segments → admits name)
    (hresolve : resolve seen links current segments = some final) : inv final := by
  induction links generalizing current segments final with
  | zero =>
      exact hkeeps.of_walk (fun _ _ hnone => absurd hnone (by simp)) hcurrent hsegments hresolve
  | succ links ih =>
      exact hkeeps.of_walk (fun hstart hnames hfollow => ih hstart hnames hfollow) hcurrent
        hsegments hresolve

/-- **Where a path leads is physical.** -/
theorem physical_of_resolve {links : Nat} (hroot : Physical seen [])
    (hcurrent : Physical seen current)
    (hresolve : resolve seen links current segments = some final) : Physical seen final := by
  have hkeeps : Keeps seen (fun _ => True) (Physical seen) := {
    root := hroot
    up := fun _ hphysical => hphysical.dropLast
    down := fun _ _ hphysical _ hdirectory hends => hphysical.concat hdirectory hends
    links := fun _ _ _ _ _ => trivial
  }
  exact hkeeps.of_resolve hcurrent (fun _ _ => trivial) hresolve

/-- The names of the place a path leads to are names of the path or of links. -/
theorem names_of_resolve {links : Nat} {admits : Name → Prop}
    (hlinks : ∀ path target, seen path = some (.link target) →
      ∀ name, .down name ∈ target.segments → admits name)
    (hcurrent : ∀ name ∈ current, admits name)
    (hsegments : ∀ name, Segment.down name ∈ segments → admits name)
    (hresolve : resolve seen links current segments = some final) :
    ∀ name ∈ final, admits name := by
  have hkeeps : Keeps seen admits fun path => ∀ name ∈ path, admits name := {
    root := by simp
    up := fun path hpath name hname => hpath name ((List.dropLast_sublist path).subset hname)
    down := by
      intro current name hpath hname _ _ other hother
      rcases List.mem_append.mp hother with hfront | hlast
      · exact hpath other hfront
      · obtain rfl : other = name := by simpa using hlast
        exact hname
    links := hlinks
  }
  exact hkeeps.of_resolve hcurrent hsegments hresolve

/-- **A path leads through the place its first part leads to**, with the links that are left. -/
theorem resolve_append {links : Nat}
    (hresolve : resolve seen links current (first ++ rest) = some final) :
    ∃ middle, resolve seen links current first = some middle ∧
      ∃ left, left ≤ links ∧ resolve seen left middle rest = some final := by
  induction links generalizing current first with
  | zero =>
      exact walk_append (fun hnone => absurd hnone (by simp))
        (fun hwalk => ⟨0, Nat.le_refl _, hwalk⟩) hresolve
  | succ links ih =>
      refine walk_append ?_ (fun hwalk => ⟨links + 1, Nat.le_refl _, hwalk⟩) hresolve
      intro start before hfollow
      obtain ⟨middle, hmiddle, left, hleft, hrest⟩ := ih hfollow
      exact ⟨middle, hmiddle, left, by omega, hrest⟩

/-- The first name of a path that resolves is in the directory it starts from. -/
theorem seen_of_resolve {links : Nat} {name : Name}
    (hresolve : resolve seen links current (.down name :: rest) = some final) :
    seen current = some .directory ∧ seen (current ++ [name]) ≠ none := by
  have hstep : ∀ follow, walk seen follow current (.down name :: rest) = some final →
      seen current = some .directory ∧ seen (current ++ [name]) ≠ none := by
    intro follow hwalk
    obtain ⟨hdirectory, hnext⟩ := walk_cons_eq_some.mp hwalk
    refine ⟨hdirectory, ?_⟩
    rcases hnext with ⟨target, htarget, _⟩ | ⟨hends, _⟩
    · simp [htarget]
    · rcases hends with hleaf | hfound
      · simp [hleaf]
      · simp [hfound]
  cases links with
  | zero => exact hstep _ hresolve
  | succ links => exact hstep _ hresolve

end SupernoteModule.Lib
