import SupernoteModule.Filesystem.ProtectedSources
import SupernoteModule.Lib.Territory
import Mathlib.Tactic.Tauto

/-!
# Snapshot roots and the inventory

The exclusions are patterns at the front of a path. A directory that no pattern goes on below has
nothing excluded in it, so it is a root as a whole; every other directory is split.
-/

namespace SupernoteModule.Filesystem

open SupernoteModule.Generation SupernoteModule.Lib SupernoteModule.Python

/-! ### Patterns -/

/-- Some pattern stands at the front of the path. -/
def Covered (patterns : List SourcePath) (parts : SourcePath) : Prop :=
  ∃ pattern ∈ patterns, pattern <+: parts

/-- Some pattern goes on where the path ends. -/
def Continued (patterns : List SourcePath) (parts : SourcePath) : Prop :=
  ∃ pattern ∈ patterns, parts <+: pattern

section Patterns

variable {patterns : List SourcePath} {parts below pattern : SourcePath}

theorem not_covered_append (hcovered : ¬ Covered patterns parts)
    (hcontinued : ¬ Continued patterns parts) : ¬ Covered patterns (parts ++ below) := by
  rintro ⟨pattern, hpattern, hleads⟩
  rcases List.prefix_or_prefix_of_prefix hleads (List.prefix_append parts below) with
    hshorter | hlonger
  · exact hcovered ⟨pattern, hpattern, hshorter⟩
  · exact hcontinued ⟨pattern, hpattern, hlonger⟩

theorem take_beq_iff (pattern parts : SourcePath) :
    (parts.take pattern.length == pattern) = true ↔ pattern <+: parts := by
  rw [beq_iff_eq, List.prefix_iff_eq_take, eq_comm]

theorem contains_take_iff {length : Nat} (hlength : ∀ pattern ∈ patterns, pattern.length = length) :
    patterns.contains (parts.take length) = true ↔ Covered patterns parts := by
  rw [List.contains_iff_mem]
  constructor
  · intro hmem
    exact ⟨_, hmem, List.take_prefix ..⟩
  · rintro ⟨pattern, hpattern, hleads⟩
    have htake := List.prefix_iff_eq_take.mp hleads
    rw [hlength pattern hpattern] at htake
    exact htake ▸ hpattern

end Patterns

def pairPatterns : List SourcePath :=
  [["android", "build"], ["android", ".gradle"], ["android", ".cxx"], ["android", ".kotlin"],
    ["android", ".supernote-module"], ["android", "supernote-runtime"]]

def androidPatterns : List SourcePath :=
  ["android", "app", "build"] :: pairPatterns

def outputPatterns : List SourcePath :=
  [["android", "build"], ["android", ".gradle"], ["android", ".cxx"], ["android", ".kotlin"]]

/-- The patterns below a feature. -/
def featurePatterns : List SourcePath :=
  [".supernote-generated"] :: outputPatterns

section Exclusions

variable {patterns : List SourcePath} {parts pattern : SourcePath}

theorem covered_cons :
    Covered (pattern :: patterns) parts ↔ pattern <+: parts ∨ Covered patterns parts :=
  List.exists_mem_cons_iff ..

/-- The longer patterns below `.supernote-module` say nothing new. -/
theorem isAndroidOutput_iff : isAndroidOutput parts = true ↔ Covered androidPatterns parts := by
  have hpairs : pairPatterns.contains (parts.take 2) = true ↔ Covered pairPatterns parts :=
    contains_take_iff (by simp [pairPatterns])
  have happ : (parts.take 3 == ["android", "app", "build"]) = true ↔
      ["android", "app", "build"] <+: parts := take_beq_iff ["android", "app", "build"] parts
  have hbuild := take_beq_iff ["android", ".supernote-module", "runtime", "build"] parts
  have hruntime := take_beq_iff ["android", ".supernote-module", "runtime"] parts
  have hmanaged : ∀ pattern : SourcePath, ["android", ".supernote-module"] <+: pattern →
      pattern <+: parts → Covered pairPatterns parts :=
    fun pattern hshorter hleads => ⟨_, by simp [pairPatterns], hshorter.trans hleads⟩
  rw [androidPatterns, covered_cons, isAndroidOutput]
  simp only [Bool.or_eq_true, Bool.and_eq_true]
  constructor
  · rintro (((hpair | happlied) | hlong) | ⟨⟨hlong, _⟩, _⟩)
    · exact .inr (hpairs.mp hpair)
    · exact .inl (happ.mp happlied)
    · exact .inr (hmanaged _ ⟨["runtime", "build"], rfl⟩ (hbuild.mp hlong))
    · exact .inr (hmanaged _ ⟨["runtime"], rfl⟩ (hruntime.mp hlong))
  · rintro (happlied | hpair)
    · exact .inl (.inl (.inr (happ.mpr happlied)))
    · exact .inl (.inl (.inl (hpairs.mpr hpair)))

theorem isFeatureOutput_iff :
    isFeatureOutput parts = true ↔ ∃ offset, featureComponentCount parts = some offset ∧
      Covered featurePatterns (parts.drop offset) := by
  rw [isFeatureOutput, Option.any_eq_true]
  apply exists_congr
  intro offset
  apply and_congr_right
  intro _
  have hone := take_beq_iff [".supernote-generated"] (parts.drop offset)
  have htwo : outputPatterns.contains ((parts.drop offset).take 2) = true ↔
      Covered outputPatterns (parts.drop offset) := contains_take_iff (by simp [outputPatterns])
  rw [featurePatterns, covered_cons, Bool.or_eq_true]
  exact or_congr hone htwo

/-- What the exclusions come to. -/
theorem isBuildOrCacheParts_iff (first : String) (rest : SourcePath) :
    isBuildOrCacheParts (first :: rest) = true ↔
      (isManagedRootName first = true ∨ Covered androidPatterns (first :: rest)) ∨
        ∃ offset, featureComponentCount (first :: rest) = some offset ∧
          Covered featurePatterns ((first :: rest).drop offset) := by
  rw [isBuildOrCacheParts, Bool.or_eq_true, Bool.or_eq_true, isAndroidOutput_iff,
    isFeatureOutput_iff]

/-! ### Features -/

theorem featureComponentCount_long (scope name : String) (rest : SourcePath) :
    featureComponentCount ("local_modules" :: scope :: name :: rest) =
      some (if startsWith scope "@" = true then 3 else 2) := by
  rw [featureComponentCount, if_pos List.head?_cons]
  by_cases hscope : startsWith scope "@" = true
  · rw [if_pos hscope, if_pos ⟨by simp, hscope⟩]
  · rw [if_neg hscope, if_neg fun hboth => hscope hboth.2, if_pos (by simp)]

theorem featureComponentCount_pair (name : String) :
    featureComponentCount ["local_modules", name] = some 2 := by
  simp [featureComponentCount]

theorem featureComponentCount_cases {offset : Nat}
    (hcount : featureComponentCount parts = some offset) :
    (∃ name, parts = ["local_modules", name] ∧ offset = 2) ∨
      ∃ scope name rest, parts = "local_modules" :: scope :: name :: rest ∧
        offset = if startsWith scope "@" = true then 3 else 2 := by
  cases parts with
  | nil => simp [featureComponentCount] at hcount
  | cons first rest =>
      by_cases hfirst : first = "local_modules"
      · subst hfirst
        cases rest with
        | nil => simp [featureComponentCount] at hcount
        | cons scope rest =>
            cases rest with
            | nil =>
                rw [featureComponentCount_pair] at hcount
                exact .inl ⟨scope, rfl, (Option.some.inj hcount).symm⟩
            | cons name rest =>
                rw [featureComponentCount_long] at hcount
                exact .inr ⟨scope, name, rest, rfl, (Option.some.inj hcount).symm⟩
      · have hother : (first :: rest).head? ≠ some "local_modules" := fun hhead =>
          hfirst (Option.some.inj hhead)
        rw [featureComponentCount, if_neg hother] at hcount
        cases hcount

/-! ### Directories that are not split -/

/-- What a path must be for a directory there to be split. -/
theorem maySplitParts_iff :
    maySplitParts parts = true ↔
      (parts = ["android"] ∨ parts ∈ [["android", "app"], ["android", ".supernote-module"],
        ["android", ".supernote-module", "runtime"],
        ["android", ".supernote-module", "runtime", "annotations"],
        ["android", ".supernote-module", "runtime", "processor"], ["local_modules"]]) ∨
      ∃ offset, featureComponentCount parts = some offset ∧
        (parts.length ≤ offset ∨ parts.drop offset = ["android"]) := by
  rw [maySplitParts, Bool.or_eq_true, Bool.or_eq_true, beq_iff_eq, List.contains_iff_mem,
    Option.any_eq_true]
  simp only [Bool.or_eq_true, decide_eq_true_eq, beq_iff_eq]

theorem not_continued_android (hnonempty : parts ≠ []) (hkept : ¬ Covered androidPatterns parts)
    (hwhole : ¬ maySplitParts parts = true) : ¬ Continued androidPatterns parts := by
  rintro ⟨pattern, hpattern, hleads⟩
  rw [maySplitParts_iff] at hwhole
  have hfront : parts = ["android"] ∨ parts = ["android", "app"] ∨ parts = pattern := by
    have hinits := (List.mem_inits _ _).mpr hleads
    simp only [androidPatterns, pairPatterns, List.mem_cons, List.not_mem_nil, or_false] at hpattern
    rcases hpattern with rfl | rfl | rfl | rfl | rfl | rfl | rfl <;>
      simp [hnonempty] at hinits <;> tauto
  rcases hfront with rfl | rfl | rfl
  · exact hwhole (.inl (.inl rfl))
  · exact hwhole (.inl (.inr (by simp)))
  · exact hkept ⟨parts, hpattern, List.prefix_rfl⟩

theorem not_continued_feature (hnonempty : parts ≠ []) (hkept : ¬ Covered featurePatterns parts)
    (handroid : parts ≠ ["android"]) : ¬ Continued featurePatterns parts := by
  rintro ⟨pattern, hpattern, hleads⟩
  have hfront : parts = ["android"] ∨ parts = pattern := by
    have hinits := (List.mem_inits _ _).mpr hleads
    simp only [featurePatterns, outputPatterns, List.mem_cons, List.not_mem_nil, or_false]
      at hpattern
    rcases hpattern with rfl | rfl | rfl | rfl | rfl <;> simp [hnonempty] at hinits <;> tauto
  rcases hfront with rfl | rfl
  · exact handroid rfl
  · exact hkept ⟨parts, hpattern, List.prefix_rfl⟩

/-- Below a directory that is not split nothing is left out. -/
theorem kept_below {below : SourcePath} (hnonempty : parts ≠ [])
    (hkept : isBuildOrCacheParts parts = false) (hwhole : maySplitParts parts = false) :
    isBuildOrCacheParts (parts ++ below) = false := by
  have hsplit : ¬ maySplitParts parts = true := by rw [hwhole]; exact Bool.false_ne_true
  obtain ⟨first, rest, rfl⟩ := List.exists_cons_of_ne_nil hnonempty
  rw [Bool.eq_false_iff, ne_eq, isBuildOrCacheParts_iff] at hkept
  rw [Bool.eq_false_iff, ne_eq, List.cons_append, isBuildOrCacheParts_iff, ← List.cons_append]
  rintro ((hmanaged | hcovered) | ⟨offset, hcount, hcovered⟩)
  · exact hkept (.inl (.inl hmanaged))
  · have hown : ¬ Covered androidPatterns (first :: rest) :=
      fun hbelow => hkept (.inl (.inr hbelow))
    exact not_covered_append hown (not_continued_android hnonempty hown hsplit) hcovered
  · -- the feature of a longer path is that of a path that is not split
    have hsame : featureComponentCount (first :: rest) = some offset := by
      rcases featureComponentCount_cases hcount with ⟨name, hparts, rfl⟩ |
        ⟨scope, name, tail, hparts, rfl⟩
      · cases rest with
        | nil =>
            obtain ⟨rfl, _⟩ := List.cons.inj hparts
            exact absurd (maySplitParts_iff.mpr (.inl (.inr (by simp)))) hsplit
        | cons second rest =>
            obtain ⟨rfl, hrest⟩ := List.cons.inj hparts
            obtain ⟨rfl, hnil⟩ := List.cons.inj hrest
            obtain ⟨rfl, _⟩ := List.append_eq_nil_iff.mp hnil
            rfl
      · cases rest with
        | nil =>
            obtain ⟨rfl, _⟩ := List.cons.inj hparts
            exact absurd (maySplitParts_iff.mpr (.inl (.inr (by simp)))) hsplit
        | cons second rest =>
            obtain ⟨rfl, hrest⟩ := List.cons.inj hparts
            obtain ⟨rfl, hrest⟩ := List.cons.inj hrest
            cases rest with
            | nil =>
                have hpair := featureComponentCount_pair second
                exact absurd (maySplitParts_iff.mpr (.inr ⟨2, hpair, .inl (by simp)⟩)) hsplit
            | cons third rest => exact featureComponentCount_long second third rest
    have hshape : ¬ ((first :: rest).length ≤ offset ∨ (first :: rest).drop offset = ["android"]) :=
      fun heither => hsplit (maySplitParts_iff.mpr (.inr ⟨offset, hsame, heither⟩))
    rw [not_or, Nat.not_le] at hshape
    have hown : ¬ Covered featurePatterns ((first :: rest).drop offset) := fun hbelow =>
      hkept (.inr ⟨offset, hsame, hbelow⟩)
    have hdrop : (first :: rest).drop offset ≠ [] := by
      rw [ne_eq, List.drop_eq_nil_iff]
      omega
    rw [List.drop_append_of_le_length (Nat.le_of_lt hshape.1)] at hcovered
    exact not_covered_append hown (not_continued_feature hdrop hown hshape.2) hcovered

/-- Below a directory that is split something is left out. -/
theorem excluded_below (hkept : isBuildOrCacheParts parts = false)
    (hsplit : maySplitParts parts = true) :
    ∃ below, below ≠ [] ∧ (∀ part ∈ below, IsComponent part) ∧
      isBuildOrCacheParts (parts ++ below) = true := by
  have hbuild : ∀ part ∈ ["build"], IsComponent part := by simp [IsComponent]
  have hgenerated : ∀ part ∈ [".supernote-generated"], IsComponent part := by simp [IsComponent]
  have hfeature : ∀ part ∈ ["feature", ".supernote-generated"], IsComponent part := by
    simp [IsComponent]
  rcases maySplitParts_iff.mp hsplit with (rfl | hmem) | ⟨offset, hcount, hshape⟩
  · exact ⟨["build"], by simp, hbuild, by decide⟩
  · simp only [List.mem_cons, List.not_mem_nil, or_false] at hmem
    rcases hmem with rfl | rfl | rfl | rfl | rfl | rfl
    · exact ⟨["build"], by simp, hbuild, by decide⟩
    · exact absurd hkept (by decide)
    · exact absurd hkept (by decide)
    · exact absurd hkept (by decide)
    · exact absurd hkept (by decide)
    · exact ⟨["feature", ".supernote-generated"], by simp, hfeature, by decide⟩
  · rcases featureComponentCount_cases hcount with ⟨name, rfl, rfl⟩ |
      ⟨scope, name, rest, rfl, hoffset⟩
    · by_cases hscope : startsWith name "@" = true
      · refine ⟨["feature", ".supernote-generated"], by simp, hfeature, ?_⟩
        rw [List.cons_append, isBuildOrCacheParts_iff]
        refine .inr ⟨3, ?_, [".supernote-generated"], by simp [featurePatterns], List.prefix_rfl⟩
        exact (featureComponentCount_long _ _ _).trans (by rw [if_pos hscope])
      · refine ⟨[".supernote-generated"], by simp, hgenerated, ?_⟩
        rw [List.cons_append, isBuildOrCacheParts_iff]
        refine .inr ⟨2, ?_, [".supernote-generated"], by simp [featurePatterns], List.prefix_rfl⟩
        exact (featureComponentCount_long _ _ _).trans (by rw [if_neg hscope])
    · have hcountBelow : ∀ below, featureComponentCount
          (("local_modules" :: scope :: name :: rest) ++ below) = some offset := by
        intro below
        rw [hoffset]
        exact featureComponentCount_long scope name (rest ++ below)
      rcases hshape with hshort | handroid
      · have hthree : offset = 3 ∧ rest = [] := by
          have hlength : rest.length + 3 ≤ offset := by
            simp only [List.length_cons] at hshort
            omega
          split at hoffset
          · exact ⟨hoffset, List.eq_nil_of_length_eq_zero (by omega)⟩
          · omega
        obtain ⟨rfl, rfl⟩ := hthree
        refine ⟨[".supernote-generated"], by simp, hgenerated, ?_⟩
        have hcountLong := hcountBelow [".supernote-generated"]
        rw [List.cons_append] at hcountLong ⊢
        rw [isBuildOrCacheParts_iff]
        exact .inr ⟨3, hcountLong, [".supernote-generated"], by simp [featurePatterns],
          List.prefix_rfl⟩
      · refine ⟨["build"], by simp, hbuild, ?_⟩
        have hcountLong := hcountBelow ["build"]
        have hlength : offset ≤ ("local_modules" :: scope :: name :: rest).length := by
          have hdrop := congrArg List.length handroid
          rw [List.length_drop] at hdrop
          have hone : ["android"].length = 1 := rfl
          omega
        have hdrop : (("local_modules" :: scope :: name :: rest) ++ ["build"]).drop offset =
            ["android", "build"] := by
          rw [List.drop_append_of_le_length hlength, handroid]
          rfl
        rw [List.cons_append] at hcountLong hdrop ⊢
        rw [isBuildOrCacheParts_iff]
        refine .inr ⟨offset, hcountLong, ["android", "build"],
          by simp [featurePatterns, outputPatterns], ?_⟩
        rw [hdrop]

end Exclusions

/-! ### Paths as text -/

theorem isBuildOrCachePath_join {path : SourcePath} (hpath : ∀ part ∈ path, IsComponent part) :
    isBuildOrCachePath (PurePosixPath.joinComponents path) = isBuildOrCacheParts path := by
  cases path with
  | nil => decide
  | cons first rest => rw [isBuildOrCachePath, PurePosixPath.pathParts_joinComponents hpath]

theorem mayContainCanonicalExclusion_join {path : SourcePath}
    (hpath : ∀ part ∈ path, IsComponent part) :
    mayContainCanonicalExclusion (PurePosixPath.joinComponents path) = maySplitParts path := by
  cases path with
  | nil => decide
  | cons first rest =>
      rw [mayContainCanonicalExclusion, PurePosixPath.pathParts_joinComponents hpath]

/-! ### Gathering -/

section Gathering

variable {Found : Type} {rows : List (String × Except String (List Found))} {found : List Found}

theorem gather_eq_ok (hgather : gather rows = .ok found) :
    ∃ lists, List.Forall₂ (fun row list => row.2 = .ok list) (sortedBy Prod.fst rows) lists ∧
      lists.flatten = found := by
  rw [gather, bind_eq_ok] at hgather
  obtain ⟨lists, hlists, hflatten⟩ := hgather
  exact ⟨lists, mapM_eq_ok.mp hlists, pure_eq_ok.mp hflatten⟩

/-- What is gathered from one row is found. -/
theorem mem_gather_of_row (hgather : gather rows = .ok found)
    {row : String × Except String (List Found)} (hrow : row ∈ rows) :
    ∃ list, row.2 = .ok list ∧ ∀ item ∈ list, item ∈ found := by
  obtain ⟨lists, hlists, rfl⟩ := gather_eq_ok hgather
  obtain ⟨list, hlist, hok⟩ := exists_output_of_mem hlists (mem_sortedBy.mpr hrow)
  exact ⟨list, hok, fun item hitem => List.mem_flatten_of_mem hlist hitem⟩

theorem exists_row_of_mem_gather (hgather : gather rows = .ok found) {item : Found}
    (hitem : item ∈ found) : ∃ row ∈ rows, ∃ list, row.2 = .ok list ∧ item ∈ list := by
  obtain ⟨lists, hlists, rfl⟩ := gather_eq_ok hgather
  obtain ⟨list, hlist, hmem⟩ := List.mem_flatten.mp hitem
  obtain ⟨row, hrow, hok⟩ := exists_item_of_mem hlists hlist
  exact ⟨row, mem_sortedBy.mp hrow, list, hok, hmem⟩

theorem pairwise_of_forall₂ {Row Output : Type} {step : Row → Output → Prop}
    {apart : Row → Row → Prop}
    {kept : Output → Output → Prop} {items : List Row} {lists : List Output}
    (hsteps : List.Forall₂ step items lists) (hitems : items.Pairwise apart)
    (hkept : ∀ left right first next, apart left right → step left first → step right next →
      kept first next) : lists.Pairwise kept := by
  induction hsteps with
  | nil => exact .nil
  | @cons item list items lists hstep hsteps ih =>
      obtain ⟨hitem, hrest⟩ := List.pairwise_cons.mp hitems
      refine List.pairwise_cons.mpr ⟨fun next hnext => ?_, ih hrest⟩
      obtain ⟨other, hother, hnextStep⟩ := exists_item_of_mem hsteps hnext
      exact hkept item other list next (hitem other hother) hstep hnextStep

theorem pairwise_gather {apart : Found → Found → Prop} (hgather : gather rows = .ok found)
    (hnodup : (rows.map Prod.fst).Nodup)
    (hwithin : ∀ row ∈ rows, ∀ list, row.2 = .ok list → list.Pairwise apart)
    (hbetween : ∀ left ∈ rows, ∀ right ∈ rows, left.1 ≠ right.1 → ∀ first next,
      left.2 = .ok first → right.2 = .ok next → ∀ item ∈ first, ∀ other ∈ next, apart item other) :
    found.Pairwise apart := by
  obtain ⟨lists, hlists, rfl⟩ := gather_eq_ok hgather
  have hsorted : (sortedBy Prod.fst rows).Pairwise fun left right =>
      left ∈ rows ∧ right ∈ rows ∧ left.1 ≠ right.1 := by
    have hnames : ((sortedBy Prod.fst rows).map Prod.fst).Nodup :=
      ((sortedBy_perm Prod.fst rows).map Prod.fst).nodup_iff.mpr hnodup
    refine (List.pairwise_map.mp hnames).imp_of_mem ?_
    exact fun hleft hright hne => ⟨mem_sortedBy.mp hleft, mem_sortedBy.mp hright, hne⟩
  rw [List.pairwise_flatten]
  constructor
  · intro list hlist
    obtain ⟨row, hrow, hok⟩ := exists_item_of_mem hlists hlist
    exact hwithin row (mem_sortedBy.mp hrow) list hok
  · exact pairwise_of_forall₂ hlists hsorted fun left right first next hapart hfirst hnext =>
      hbetween left hapart.1 right hapart.2.1 hapart.2.2 first next hfirst hnext

end Gathering

/-! ### Roots -/

theorem overlap_append {front left right : SourcePath}
    (hoverlap : Overlap (front ++ left) (front ++ right)) : Overlap left right := by
  rcases hoverlap with hleads | hleads
  · exact .inl ((List.prefix_append_right_inj front).mp hleads)
  · exact .inr ((List.prefix_append_right_inj front).mp hleads)

section Roots

variable {host : HostView} {path : SourcePath} {entry : FileTree} {roots : List SourcePath}
  {children : List (String × FileTree)}

theorem collectChildren_eq_map :
    collectChildren host path children = children.map fun (name, child) =>
      (name, collectChild host (path ++ [name]) child) := by
  induction children with
  | nil => rfl
  | cons child children ih =>
      rw [collectChildren, ih]
      rfl

/-- A root at or below a path: it is kept, and it is no directory that would be split. -/
structure RootBelow (path : SourcePath) (entry : FileTree) (root : SourcePath) : Prop where
  kept : isBuildOrCachePath (PurePosixPath.joinComponents root) = false
  found : ∃ below inside, root = path ++ below ∧ entry.find below = some inside ∧
    (inside.kind = .directory →
      mayContainCanonicalExclusion (PurePosixPath.joinComponents root) = false)

/-- The roots at or below a path. -/
structure RootsBelow (path : SourcePath) (entry : FileTree) (roots : List SourcePath) : Prop where
  all : ∀ root ∈ roots, RootBelow path entry root
  apart : roots.Pairwise fun left right => ¬ Overlap left right

theorem RootsBelow.nil : RootsBelow path entry [] :=
  ⟨List.forall_mem_nil _, .nil⟩

theorem RootsBelow.single (hkept : isBuildOrCachePath (PurePosixPath.joinComponents path) = false)
    (hwhole : entry.kind = .directory →
      mayContainCanonicalExclusion (PurePosixPath.joinComponents path) = false) :
    RootsBelow path entry [path] := by
  refine ⟨?_, List.pairwise_singleton ..⟩
  intro root hroot
  obtain rfl := List.mem_singleton.mp hroot
  exact ⟨hkept, [], entry, (List.append_nil _).symm, rfl, hwhole⟩

/-- The roots of the children of a directory are roots of it. -/
theorem rootsBelow_of_children {mode : Nat} (hnodup : (children.map Prod.fst).Nodup)
    (hchildren : ∀ name child, (name, child) ∈ children → ∀ found,
      collectChild host (path ++ [name]) child = .ok found →
        RootsBelow (path ++ [name]) child found)
    (hgather : gather (collectChildren host path children) = .ok roots) :
    RootsBelow path (.directory mode children) roots := by
  rw [collectChildren_eq_map] at hgather
  have hrows : ∀ row ∈ children.map (fun (name, child) =>
      (name, collectChild host (path ++ [name]) child)), ∀ list, row.2 = .ok list →
        ∃ child, (row.1, child) ∈ children ∧ RootsBelow (path ++ [row.1]) child list := by
    intro row hrow list hlist
    obtain ⟨⟨name, child⟩, hmem, rfl⟩ := List.mem_map.mp hrow
    exact ⟨child, hmem, hchildren name child hmem list hlist⟩
  constructor
  · intro root hroot
    obtain ⟨row, hrow, list, hlist, hmem⟩ := exists_row_of_mem_gather hgather hroot
    obtain ⟨child, hchild, hbelow⟩ := hrows row hrow list hlist
    obtain ⟨hkept, below, inside, rfl, hfind, hwhole⟩ := hbelow.all root hmem
    refine ⟨hkept, row.1 :: below, inside, by simp, ?_, hwhole⟩
    have hlookup : children.lookup row.1 = some child := (lookup_eq_some_iff hnodup).mpr hchild
    rw [FileTree.find, hlookup]
    exact hfind
  · apply pairwise_gather hgather
    · rw [List.map_map]
      exact hnodup
    · intro row hrow list hlist
      obtain ⟨_, _, hbelow⟩ := hrows row hrow list hlist
      exact hbelow.apart
    · intro left hleft right hright hne first next hfirst hnext item hitem other hother hoverlap
      obtain ⟨_, _, hleftBelow⟩ := hrows left hleft first hfirst
      obtain ⟨_, _, hrightBelow⟩ := hrows right hright next hnext
      obtain ⟨_, below, _, rfl, _⟩ := hleftBelow.all item hitem
      obtain ⟨_, beside, _, rfl, _⟩ := hrightBelow.all other hother
      rw [List.append_assoc, List.append_assoc] at hoverlap
      have hnames := overlap_append hoverlap
      rw [List.singleton_append, List.singleton_append, overlap_cons_cons] at hnames
      exact hne hnames.1

theorem collectChild_of_excluded
    (hexcluded : isBuildOrCachePath (PurePosixPath.joinComponents path) = true) :
    collectChild host path entry = .ok [] := by
  cases entry <;> rw [collectChild, if_pos hexcluded]

/-- An entry that is kept is a root, unless it is a directory that is split. -/
theorem collectChild_of_kept
    (hkept : isBuildOrCachePath (PurePosixPath.joinComponents path) = false)
    (hcollect : collectChild host path entry = .ok roots) :
    roots = [path] ∧ (entry.kind = .directory →
        mayContainCanonicalExclusion (PurePosixPath.joinComponents path) = false) ∨
      mayContainCanonicalExclusion (PurePosixPath.joinComponents path) = true ∧
        ∃ mode children, entry = .directory mode children ∧
          gather (collectChildren host path children) = .ok roots := by
  have hnot : ¬ isBuildOrCachePath (PurePosixPath.joinComponents path) = true := by
    rw [hkept]
    exact Bool.false_ne_true
  cases entry with
  | directory mode children =>
      rw [collectChild, if_neg hnot] at hcollect
      by_cases hsplit : mayContainCanonicalExclusion (PurePosixPath.joinComponents path) = true
      · rw [if_pos hsplit, bind_eq_ok] at hcollect
        obtain ⟨_, _, hgather⟩ := hcollect
        exact .inr ⟨hsplit, mode, children, rfl, hgather⟩
      · rw [if_neg hsplit] at hcollect
        exact .inl ⟨(Except.ok.inj hcollect).symm, fun _ => by simpa using hsplit⟩
  | file mode content =>
      rw [collectChild, if_neg hnot] at hcollect
      exact .inl ⟨(Except.ok.inj hcollect).symm, fun hkind => by cases hkind⟩
  | symlink mode target =>
      rw [collectChild, if_neg hnot] at hcollect
      exact .inl ⟨(Except.ok.inj hcollect).symm, fun hkind => by cases hkind⟩
  | other mode =>
      rw [collectChild, if_neg hnot] at hcollect
      exact .inl ⟨(Except.ok.inj hcollect).symm, fun hkind => by cases hkind⟩

theorem rootsBelow_leaf (hleaf : entry.kind ≠ .directory)
    (hcollect : collectChild host path entry = .ok roots) : RootsBelow path entry roots := by
  cases hexcluded : isBuildOrCachePath (PurePosixPath.joinComponents path) with
  | true =>
      rw [collectChild_of_excluded hexcluded] at hcollect
      obtain rfl := Except.ok.inj hcollect
      exact .nil
  | false =>
      rcases collectChild_of_kept hexcluded hcollect with ⟨rfl, hwhole⟩ | ⟨_, _, _, rfl, _⟩
      · exact .single hexcluded hwhole
      · exact absurd rfl hleaf

mutual

theorem rootsBelow_collectChild (host : HostView) : ∀ (entry : FileTree) (path : SourcePath)
    (roots : List SourcePath), entry.WellNamed → collectChild host path entry = .ok roots →
      RootsBelow path entry roots
  | .directory mode children, path, roots, hnamed, hcollect => by
      cases hexcluded : isBuildOrCachePath (PurePosixPath.joinComponents path) with
      | true =>
          rw [collectChild_of_excluded hexcluded] at hcollect
          obtain rfl := Except.ok.inj hcollect
          exact .nil
      | false =>
          rcases collectChild_of_kept hexcluded hcollect with ⟨rfl, hwhole⟩ |
            ⟨_, _, _, hentry, hgather⟩
          · exact .single hexcluded hwhole
          · obtain ⟨rfl, rfl⟩ := FileTree.directory.inj hentry
            exact rootsBelow_of_children hnamed.1
              (fun name child hmem found hfound =>
                rootsBelow_collectAll host children hnamed.2 name child hmem _ found hfound) hgather
  | .file mode content, path, roots, _, hcollect =>
      rootsBelow_leaf (by simp [FileTree.kind]) hcollect
  | .symlink mode target, path, roots, _, hcollect =>
      rootsBelow_leaf (by simp [FileTree.kind]) hcollect
  | .other mode, path, roots, _, hcollect => rootsBelow_leaf (by simp [FileTree.kind]) hcollect

theorem rootsBelow_collectAll (host : HostView) : ∀ children : List (String × FileTree),
    FileTree.WellNamedAll children → ∀ name child, (name, child) ∈ children →
      ∀ (path : SourcePath) (roots : List SourcePath),
        collectChild host path child = .ok roots → RootsBelow path child roots
  | [], _, _, _, hmem, _, _, _ => absurd hmem (List.not_mem_nil)
  | (first, entry) :: children, hnamed, name, child, hmem, path, roots, hcollect => by
      rcases List.mem_cons.mp hmem with heq | htail
      · obtain ⟨rfl, rfl⟩ := Prod.mk.inj heq
        exact rootsBelow_collectChild host child path roots hnamed.2.1 hcollect
      · exact rootsBelow_collectAll host children hnamed.2.2 name child htail path roots hcollect

end

end Roots

/-! ### What the inventory records -/

/-- An entry that is reached from another without passing anything that is left out. -/
inductive Inventoried : SourcePath → FileTree → SourcePath → FileTree → Prop where
  | self {path : SourcePath} {entry : FileTree}
      (hkept : isBuildOrCachePath (PurePosixPath.joinComponents path) = false) :
      Inventoried path entry path entry
  | inside {path target : SourcePath} {mode : Nat} {children : List (String × FileTree)}
      {name : String} {child found : FileTree}
      (hkept : isBuildOrCachePath (PurePosixPath.joinComponents path) = false)
      (hmem : (name, child) ∈ children)
      (hchild : Inventoried (path ++ [name]) child target found) :
      Inventoried path (.directory mode children) target found

/-- Reached from a child of the project root. -/
def ProjectTree.Inventories (project : ProjectTree) (target : SourcePath) (found : FileTree) :
    Prop :=
  ∃ name child, (name, child) ∈ project.children ∧ Inventoried [name] child target found

section Recording

variable {host : HostView} {sha256 : Bytes → String} {path target : SourcePath}
  {entry found : FileTree} {roots : List SourcePath}

theorem Inventoried.leads (hreached : Inventoried path entry target found) : path <+: target := by
  induction hreached with
  | self => exact List.prefix_rfl
  | inside _ _ _ ih => exact (List.prefix_append _ _).trans ih

theorem Inventoried.kept (hreached : Inventoried path entry target found) :
    isBuildOrCachePath (PurePosixPath.joinComponents target) = false := by
  induction hreached with
  | self hkept => exact hkept
  | inside _ _ _ ih => exact ih

/-- What is reached lies at or below a root, or is a directory that is split. -/
theorem Inventoried.covered (hreached : Inventoried path entry target found) :
    ∀ {roots}, collectChild host path entry = .ok roots →
      (∃ root ∈ roots, root <+: target) ∨
        found.kind = .directory ∧
          mayContainCanonicalExclusion (PurePosixPath.joinComponents target) = true := by
  induction hreached with
  | self hkept =>
      intro roots hcollect
      rcases collectChild_of_kept hkept hcollect with ⟨rfl, _⟩ | ⟨hsplit, _, _, rfl, _⟩
      · exact .inl ⟨_, List.mem_singleton_self _, List.prefix_rfl⟩
      · exact .inr ⟨rfl, hsplit⟩
  | @inside path target mode children name child found hkept hmem hchild ih =>
      intro roots hcollect
      rcases collectChild_of_kept hkept hcollect with ⟨rfl, _⟩ | ⟨_, _, _, hentry, hgather⟩
      · exact .inl ⟨path, List.mem_singleton_self _,
          (@Inventoried.inside _ _ mode _ _ _ _ hkept hmem hchild).leads⟩
      · obtain ⟨rfl, rfl⟩ := FileTree.directory.inj hentry
        rw [collectChildren_eq_map] at hgather
        obtain ⟨list, hlist, hall⟩ := mem_gather_of_row hgather (List.mem_map_of_mem hmem)
        rcases ih hlist with ⟨root, hroot, hleads⟩ | hsplit
        · exact .inl ⟨root, hall root hroot, hleads⟩
        · exact .inr hsplit

/-- An item of an inventory is the record of an entry that is reached. -/
def Records (project : ProjectTree) (item : String × InventoryRecord) : Prop :=
  ∃ target found, project.Inventories target found ∧
    item.1 = PurePosixPath.joinComponents target ∧ item.2.kind = found.kind

theorem inventoryRecord_kind : (inventoryRecord host sha256 path entry).kind = entry.kind := by
  cases entry <;> rfl

/-! ### The walk by descriptors -/

theorem walkChildren_eq_map {children : List (String × FileTree)} :
    walkChildren host sha256 path children = children.map fun (name, child) =>
      (name, walkChild host sha256 (path ++ [name]) child) := by
  induction children with
  | nil => rfl
  | cons child children ih =>
      rw [walkChildren, ih]
      rfl

theorem walkChild_of_excluded
    (hexcluded : isBuildOrCachePath (PurePosixPath.joinComponents path) = true) :
    walkChild host sha256 path entry = .ok [] := by
  cases entry <;> rw [walkChild, if_pos hexcluded]

/-- What is found below a name. -/
def Reaches (path : SourcePath) (entry : FileTree) (item : String × InventoryRecord) : Prop :=
  ∃ target found, Inventoried path entry target found ∧
    item.1 = PurePosixPath.joinComponents target ∧ item.2.kind = found.kind

theorem Reaches.self (hkept : isBuildOrCachePath (PurePosixPath.joinComponents path) = false) :
    Reaches path entry
      (PurePosixPath.joinComponents path, inventoryRecord host sha256 path entry) :=
  ⟨path, entry, .self hkept, rfl, inventoryRecord_kind⟩

mutual

theorem reaches_of_walkChild (host : HostView) (sha256 : Bytes → String) :
    ∀ (entry : FileTree) (path : SourcePath) (items : List (String × InventoryRecord)),
      walkChild host sha256 path entry = .ok items → ∀ item ∈ items, Reaches path entry item
  | .directory mode children, path, items, hwalk, item, hitem => by
      cases hexcluded : isBuildOrCachePath (PurePosixPath.joinComponents path) with
      | true =>
          rw [walkChild_of_excluded hexcluded] at hwalk
          obtain rfl := Except.ok.inj hwalk
          cases hitem
      | false =>
          have hnot : ¬ isBuildOrCachePath (PurePosixPath.joinComponents path) = true := by
            rw [hexcluded]
            exact Bool.false_ne_true
          rw [walkChild, if_neg hnot, bind_eq_ok] at hwalk
          obtain ⟨_, _, hwalk⟩ := hwalk
          obtain ⟨below, hgather, hitems⟩ := bind_eq_ok.mp hwalk
          obtain rfl := pure_eq_ok.mp hitems
          rcases List.mem_cons.mp hitem with rfl | hbelow
          · exact .self hexcluded
          · rw [walkChildren_eq_map] at hgather
            obtain ⟨row, hrow, list, hlist, hmem⟩ := exists_row_of_mem_gather hgather hbelow
            obtain ⟨⟨name, child⟩, hchild, rfl⟩ := List.mem_map.mp hrow
            obtain ⟨target, found, hreached, hkey, hkind⟩ :=
              reaches_of_walkAll host sha256 children name child hchild _ list hlist item hmem
            exact ⟨target, found, .inside hexcluded hchild hreached, hkey, hkind⟩
  | .file mode content, path, items, hwalk, item, hitem => by
      cases hexcluded : isBuildOrCachePath (PurePosixPath.joinComponents path) with
      | true =>
          rw [walkChild_of_excluded hexcluded] at hwalk
          obtain rfl := Except.ok.inj hwalk
          cases hitem
      | false =>
          rw [walkChild, hexcluded] at hwalk
          obtain rfl := Except.ok.inj hwalk
          obtain rfl := List.mem_singleton.mp hitem
          exact .self hexcluded
  | .symlink mode target, path, items, hwalk, item, hitem => by
      cases hexcluded : isBuildOrCachePath (PurePosixPath.joinComponents path) with
      | true =>
          rw [walkChild_of_excluded hexcluded] at hwalk
          obtain rfl := Except.ok.inj hwalk
          cases hitem
      | false =>
          rw [walkChild, hexcluded] at hwalk
          obtain rfl := Except.ok.inj hwalk
          obtain rfl := List.mem_singleton.mp hitem
          exact .self hexcluded
  | .other mode, path, items, hwalk, item, hitem => by
      cases hexcluded : isBuildOrCachePath (PurePosixPath.joinComponents path) with
      | true =>
          rw [walkChild_of_excluded hexcluded] at hwalk
          obtain rfl := Except.ok.inj hwalk
          cases hitem
      | false =>
          rw [walkChild, hexcluded] at hwalk
          obtain rfl := Except.ok.inj hwalk
          obtain rfl := List.mem_singleton.mp hitem
          exact .self hexcluded

theorem reaches_of_walkAll (host : HostView) (sha256 : Bytes → String) :
    ∀ (children : List (String × FileTree)) (name : String) (child : FileTree),
      (name, child) ∈ children → ∀ (path : SourcePath) (items : List (String × InventoryRecord)),
        walkChild host sha256 path child = .ok items → ∀ item ∈ items, Reaches path child item
  | [], _, _, hmem => absurd hmem List.not_mem_nil
  | (first, entry) :: children, name, child, hmem => by
      intro path items hwalk item hitem
      rcases List.mem_cons.mp hmem with heq | htail
      · obtain ⟨rfl, rfl⟩ := Prod.mk.inj heq
        exact reaches_of_walkChild host sha256 child path items hwalk item hitem
      · exact reaches_of_walkAll host sha256 children name child htail path items hwalk item hitem

end

theorem records_of_posix {project : ProjectTree} {items : List (String × InventoryRecord)}
    (hinventory : inventoryPosixTree host sha256 project = .ok items) :
    ∀ item ∈ items, Records project item := by
  intro item hitem
  rw [inventoryPosixTree, bind_eq_ok] at hinventory
  obtain ⟨_, _, hgather⟩ := hinventory
  rw [walkChildren_eq_map] at hgather
  obtain ⟨row, hrow, list, hlist, hmem⟩ := exists_row_of_mem_gather hgather hitem
  obtain ⟨⟨name, child⟩, hchild, rfl⟩ := List.mem_map.mp hrow
  obtain ⟨target, found, hreached, hitemFacts⟩ :=
    reaches_of_walkChild host sha256 child _ list hlist item hmem
  exact ⟨target, found, ⟨name, child, hchild, hreached⟩, hitemFacts⟩

/-! ### The loop -/

/-- What is reached below a pending directory is reached from the project root. -/
def Known (project : ProjectTree) (pending : Pending) : Prop :=
  ∀ name child, (name, child) ∈ pending.2 → ∀ target found,
    Inventoried (pending.1 ++ [name]) child target found → project.Inventories target found

theorem mem_keptChildren {children : List (String × FileTree)} {name : String} {child : FileTree}
    (hmem : (name, child) ∈ keptChildren path children) :
    (name, child) ∈ children ∧
      isBuildOrCachePath (PurePosixPath.joinComponents (path ++ [name])) = false := by
  rw [keptChildren, List.mem_filter, List.mem_reverse, mem_sortedBy] at hmem
  exact ⟨hmem.1, by simpa using hmem.2⟩

theorem mem_pushedDirectories {kept : List (String × FileTree)} {pending : Pending}
    (hmem : pending ∈ pushedDirectories path kept) :
    ∃ name mode, (name, FileTree.directory mode pending.2) ∈ kept ∧ pending.1 = path ++ [name] := by
  induction kept with
  | nil => cases hmem
  | cons row kept ih =>
      obtain ⟨name, child⟩ := row
      cases child with
      | directory mode children =>
          rw [pushedDirectories] at hmem
          rcases List.mem_cons.mp hmem with rfl | htail
          · exact ⟨name, mode, List.mem_cons_self, rfl⟩
          · obtain ⟨other, found, hkept, hpath⟩ := ih htail
            exact ⟨other, found, List.mem_cons_of_mem _ hkept, hpath⟩
      | _ =>
          rw [pushedDirectories] at hmem
          obtain ⟨other, found, hkept, hpath⟩ := ih hmem
          exact ⟨other, found, List.mem_cons_of_mem _ hkept, hpath⟩

/-- One turn of the loop keeps what is known of the stack and of the records. -/
theorem records_of_loop {project : ProjectTree} (pending : List Pending)
    (inventory : List (String × InventoryRecord)) :
    (∀ item ∈ pending, Known project item) → (∀ item ∈ inventory, Records project item) →
      ∀ {items}, inventoryLoop host sha256 pending inventory = .ok items →
        ∀ item ∈ items, Records project item := by
  induction pending, inventory using inventoryLoop.induct host sha256 with
  | case1 inventory =>
      intro _ hrecorded items hloop
      rw [inventoryLoop] at hloop
      obtain rfl := Except.ok.inj hloop
      exact hrecorded
  | case2 path children pending inventory ih =>
      intro hknown hrecorded items hloop
      obtain ⟨hfirst, hpending⟩ := List.forall_mem_cons.mp hknown
      rw [inventoryLoop, bind_eq_ok] at hloop
      obtain ⟨_, _, hrest⟩ := hloop
      dsimp only at hrest
      refine ih ?_ ?_ hrest
      · intro item hitem
        rcases List.mem_append.mp hitem with hpushed | hold
        · obtain ⟨name, mode, hkept, hpath⟩ := mem_pushedDirectories (List.mem_reverse.mp hpushed)
          obtain ⟨hmem, hincluded⟩ := mem_keptChildren hkept
          intro inner child hchild target found hreached
          rw [hpath] at hreached
          exact hfirst name _ hmem target found (.inside hincluded hchild hreached)
        · exact hpending item hold
      · intro item hitem
        rcases List.mem_append.mp hitem with hold | hnew
        · exact hrecorded item hold
        · obtain ⟨⟨name, child⟩, hkept, rfl⟩ := List.mem_map.mp hnew
          obtain ⟨hmem, hincluded⟩ := mem_keptChildren hkept
          exact ⟨path ++ [name], child, hfirst name child hmem _ _ (.self hincluded), rfl,
            inventoryRecord_kind⟩

theorem records_of_inventory {project : ProjectTree} {descriptorBound : Bool}
    {items : List (String × InventoryRecord)}
    (hinventory : sourceTreeInventory host sha256 descriptorBound project = .ok items) :
    ∀ item ∈ items, Records project item := by
  have hunsorted : ∃ unsorted, (if descriptorBound then inventoryPosixTree host sha256 project
      else inventoryLoop host sha256 [([], project.children)] []) = .ok unsorted ∧
        sortedBy Prod.fst unsorted = items := by
    cases descriptorBound with
    | true => exact bind_eq_ok.mp hinventory |>.imp fun _ hboth => ⟨hboth.1, pure_eq_ok.mp hboth.2⟩
    | false => exact bind_eq_ok.mp hinventory |>.imp fun _ hboth => ⟨hboth.1, pure_eq_ok.mp hboth.2⟩
  obtain ⟨unsorted, hwalk, rfl⟩ := hunsorted
  intro item hitem
  rw [mem_sortedBy] at hitem
  cases descriptorBound with
  | true => exact records_of_posix hwalk item hitem
  | false =>
      refine records_of_loop _ _ ?_ (List.forall_mem_nil _) hwalk item hitem
      intro pending hpending
      obtain rfl := List.mem_singleton.mp hpending
      exact fun name child hmem target found hreached => ⟨name, child, hmem, hreached⟩

end Recording

/-! ### The two walks together -/

theorem wellNamed_child : ∀ {children : List (String × FileTree)}, FileTree.WellNamedAll children →
    ∀ {name child}, (name, child) ∈ children → IsFileName name ∧ child.WellNamed
  | [], _, _, _, hmem => absurd hmem List.not_mem_nil
  | (first, entry) :: children, hnamed, name, child, hmem => by
      rcases List.mem_cons.mp hmem with heq | htail
      · obtain ⟨rfl, rfl⟩ := Prod.mk.inj heq
        exact ⟨hnamed.1, hnamed.2.1⟩
      · exact wellNamed_child hnamed.2.2 htail

theorem components_of_find {path : SourcePath} :
    ∀ {entry found : FileTree}, entry.WellNamed → entry.find path = some found →
      ∀ part ∈ path, IsComponent part := by
  induction path with
  | nil => exact fun _ _ => List.forall_mem_nil _
  | cons part path ih =>
      intro entry found hnamed hfind
      cases entry with
      | directory mode children =>
          rw [FileTree.find] at hfind
          cases hlookup : children.lookup part with
          | none =>
              rw [hlookup] at hfind
              cases hfind
          | some child =>
              rw [hlookup] at hfind
              have hmem := (lookup_eq_some_iff hnamed.1).mp hlookup
              obtain ⟨hname, hchild⟩ := wellNamed_child hnamed.2 hmem
              exact List.forall_mem_cons.mpr ⟨hname.1, ih hchild hfind⟩
      | file mode content => cases hfind
      | symlink mode target => cases hfind
      | other mode => cases hfind

theorem components_of_inventoried {path target : SourcePath} {entry found : FileTree}
    (hreached : Inventoried path entry target found) :
    entry.WellNamed → (∀ part ∈ path, IsComponent part) → ∀ part ∈ target, IsComponent part := by
  induction hreached with
  | self => exact fun _ hpath => hpath
  | inside _ hmem _ ih =>
      intro hnamed hpath
      obtain ⟨hname, hchild⟩ := wellNamed_child hnamed.2 hmem
      refine ih hchild ?_
      rw [List.forall_mem_append]
      exact ⟨hpath, List.forall_mem_singleton.mpr hname.1⟩

section Together

variable {host : HostView} {sha256 : Bytes → String} {project : ProjectTree}
  {roots : List SourcePath} {items : List (String × InventoryRecord)} {descriptorBound : Bool}

theorem rootsBelow_project (hroots : protectedSourceSnapshotRoots host project = .ok roots) :
    RootsBelow [] (.directory project.mode project.children) roots := by
  rw [protectedSourceSnapshotRoots, bind_eq_ok] at hroots
  obtain ⟨_, _, hgather⟩ := hroots
  refine rootsBelow_of_children project.wellNamed.1 ?_ hgather
  intro name child hmem found hfound
  exact rootsBelow_collectAll host project.children project.wellNamed.2 name child hmem _ found
    hfound

/-- Nothing at or below a root is left out. -/
theorem kept_of_root (hroots : protectedSourceSnapshotRoots host project = .ok roots)
    {root path : SourcePath} (hroot : root ∈ roots) (hleads : root <+: path)
    (hpath : (project.find path).isSome = true) :
    isBuildOrCachePath (PurePosixPath.joinComponents path) = false := by
  obtain ⟨hkept, below, inside, hbelow, hfind, hwhole⟩ := (rootsBelow_project hroots).all root hroot
  obtain ⟨rest, rfl⟩ := hleads
  rw [List.nil_append] at hbelow
  obtain rfl := hbelow
  obtain ⟨found, hfound⟩ := Option.isSome_iff_exists.mp hpath
  have hparts := components_of_find project.wellNamed hfound
  have hrootParts : ∀ part ∈ root, IsComponent part := fun part hpart =>
    hparts part (List.mem_append_left _ hpart)
  have hinside : inside.find rest = some found := by
    rw [ProjectTree.find, FileTree.find_append, hfind] at hfound
    exact hfound
  cases rest with
  | nil => rwa [List.append_nil]
  | cons part rest =>
      have hdirectory : inside.kind = .directory := by
        cases inside with
        | directory mode children => rfl
        | file mode content => cases hinside
        | symlink mode target => cases hinside
        | other mode => cases hinside
      by_cases hnil : root = []
      · subst hnil
        -- the project root is no root of its own
        rw [protectedSourceSnapshotRoots, bind_eq_ok] at hroots
        obtain ⟨_, _, hgather⟩ := hroots
        obtain ⟨row, hrow, list, hlist, hmem⟩ := exists_row_of_mem_gather hgather hroot
        rw [collectChildren_eq_map] at hrow
        obtain ⟨⟨name, child⟩, hchild, rfl⟩ := List.mem_map.mp hrow
        obtain ⟨_, _, _, heq, _⟩ := (rootsBelow_collectAll host project.children
          project.wellNamed.2 name child hchild _ list hlist).all [] hmem
        simp at heq
      · rw [isBuildOrCachePath_join hparts]
        rw [isBuildOrCachePath_join hrootParts] at hkept
        have hsplit := hwhole hdirectory
        rw [mayContainCanonicalExclusion_join hrootParts] at hsplit
        exact kept_below hnil hkept hsplit

/-- **Snapshot roots.** The roots do not overlap, nothing that is left out lies at or below one, and
what the inventory records lies at or below a root or is a directory with something below it that is
left out. -/
theorem protectedSourceSnapshotRoots_cover
    (hroots : protectedSourceSnapshotRoots host project = .ok roots) :
    (roots.Pairwise fun left right => ¬ Overlap left right) ∧
      (∀ root ∈ roots, ∀ path, root <+: path → (project.find path).isSome = true →
        isBuildOrCachePath (PurePosixPath.joinComponents path) = false) ∧
      ∀ sha256 descriptorBound items,
        sourceTreeInventory host sha256 descriptorBound project = .ok items →
          ∀ item ∈ items, ∃ path, item.1 = PurePosixPath.joinComponents path ∧
            ((∃ root ∈ roots, root <+: path) ∨
              item.2.kind = .directory ∧ ∃ below, below ≠ [] ∧
                isBuildOrCachePath (PurePosixPath.joinComponents (path ++ below)) = true) := by
  refine ⟨(rootsBelow_project hroots).apart, fun root hroot path hleads hpath =>
    kept_of_root hroots hroot hleads hpath, ?_⟩
  intro sha256 descriptorBound items hinventory item hitem
  obtain ⟨target, found, ⟨name, child, hchild, hreached⟩, hkey, hkind⟩ :=
    records_of_inventory hinventory item hitem
  refine ⟨target, hkey, ?_⟩
  obtain ⟨hname, hnamed⟩ := wellNamed_child project.wellNamed.2 hchild
  have hparts := components_of_inventoried hreached hnamed (List.forall_mem_singleton.mpr hname.1)
  rw [protectedSourceSnapshotRoots, bind_eq_ok] at hroots
  obtain ⟨_, _, hgather⟩ := hroots
  rw [collectChildren_eq_map] at hgather
  obtain ⟨list, hlist, hall⟩ := mem_gather_of_row hgather (List.mem_map_of_mem hchild)
  rcases hreached.covered hlist with ⟨root, hroot, hleads⟩ | ⟨hdirectory, hsplit⟩
  · exact .inl ⟨root, hall root hroot, hleads⟩
  · have hkept := hreached.kept
    rw [isBuildOrCachePath_join hparts] at hkept
    rw [mayContainCanonicalExclusion_join hparts] at hsplit
    obtain ⟨below, hnonempty, hbelow, hexcluded⟩ := excluded_below hkept hsplit
    refine .inr ⟨hkind.trans hdirectory, below, hnonempty, ?_⟩
    rwa [isBuildOrCachePath_join (List.forall_mem_append.mpr ⟨hparts, hbelow⟩)]

/-- A project with a source file, a feature and what Gradle leaves behind. -/
def sampleProject : ProjectTree where
  mode := 493
  children := [
    ("App.tsx", .file 420 [65]),
    ("android", .directory 493 [("build", .directory 493 []), ("app", .directory 493 [])]),
    ("local_modules", .directory 493 [("pen", .directory 493 [("src", .directory 493 [])])])]
  wellNamed := by simp [FileTree.WellNamed, FileTree.WellNamedAll, IsFileName, IsComponent]

theorem protectedSourceSnapshotRoots_cover_sample :
    ∃ roots, protectedSourceSnapshotRoots ⟨"/project", fun _ => none, fun _ => 0⟩ sampleProject =
        .ok roots ∧
      (roots.Pairwise fun left right => ¬ Overlap left right) ∧
      (∀ root ∈ roots, ∀ path, root <+: path → (sampleProject.find path).isSome = true →
        isBuildOrCachePath (PurePosixPath.joinComponents path) = false) ∧
      ∀ sha256 descriptorBound items,
        sourceTreeInventory ⟨"/project", fun _ => none, fun _ => 0⟩ sha256 descriptorBound
            sampleProject = .ok items →
          ∀ item ∈ items, ∃ path, item.1 = PurePosixPath.joinComponents path ∧
            ((∃ root ∈ roots, root <+: path) ∨
              item.2.kind = .directory ∧ ∃ below, below ≠ [] ∧
                isBuildOrCachePath (PurePosixPath.joinComponents (path ++ below)) = true) := by
  have hroots : ∃ roots,
      protectedSourceSnapshotRoots ⟨"/project", fun _ => none, fun _ => 0⟩ sampleProject =
        .ok roots := ⟨[["App.tsx"], ["local_modules", "pen", "src"]], by decide⟩
  obtain ⟨roots, hok⟩ := hroots
  exact ⟨roots, hok, protectedSourceSnapshotRoots_cover hok⟩

end Together

end SupernoteModule.Filesystem
