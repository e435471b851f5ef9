import SupernoteModule.Generation.EntryHash
import SupernoteModule.Npm.PackageInputs
import Mathlib.Data.List.ReduceOption

/-!
# Coverage of a hashed source tree

A walk that ends has given every entry of every directory its turn, so every file below the
directory it started from is hashed or allowed.
-/

namespace SupernoteModule.Npm

open SupernoteModule.Generation SupernoteModule.Lib SupernoteModule.Python

/-! ### Paths below paths -/

theorem components_of_isComponent {part : String} (hpart : IsComponent part) :
    PurePosixPath.components part = [part] := by
  have hjoin : PurePosixPath.joinComponents [part] = part := by
    rw [← String.toList_inj]
    simp [PurePosixPath.toList_joinComponents_cons]
  have hparts : ∀ other ∈ [part], IsComponent other := by simpa using hpart
  rw [← PurePosixPath.components_join hparts, hjoin]

variable {installation : Installation}

theorem lexical_child {relative name : String} (hname : IsComponent name) :
    installation.lexical (relative ++ "/" ++ name) = installation.lexical relative ++ [name] := by
  rw [Installation.lexical, PurePosixPath.components_append, components_of_isComponent hname,
    Installation.lexical, List.append_assoc]

theorem lexical_below {relative : String} {names : List String}
    (hnames : ∀ name ∈ names, IsName name) :
    installation.lexical (below relative names) = installation.lexical relative ++ names := by
  induction names generalizing relative with
  | nil => simp [below]
  | cons name names ih =>
      obtain ⟨hname, hrest⟩ := List.forall_mem_cons.mp hnames
      have hstep : below relative (name :: names) = below (relative ++ "/" ++ name) names := rfl
      rw [hstep, ih hrest, lexical_child hname.1, List.append_assoc, List.singleton_append]

theorem place_below {relative : String} {names : List String}
    (hnames : ∀ name ∈ names, IsName name) :
    installation.place (below relative names) [] = installation.place relative names := by
  rw [Installation.place, lexical_below hnames, List.append_nil, Installation.place]

/-! ### What is found on the disk -/

theorem seen_eq_directory {disk : FileTree} {path : List String}
    (hseen : seen disk path = some .directory) :
    ∃ mode children, disk.find path = some (.directory mode children) := by
  unfold seen at hseen
  cases hfind : disk.find path with
  | none => simp [hfind] at hseen
  | some entry =>
      cases entry with
      | directory mode children => exact ⟨mode, children, rfl⟩
      | file mode content => simp [hfind] at hseen
      | symlink mode target => simp [hfind] at hseen
      | other mode => simp [hfind] at hseen

/-- An entry of a directory is one of its children. -/
theorem mem_children_of_seen {disk : FileTree} {path : List String} {name : String} {mode : Nat}
    {children : List (String × FileTree)} (hfind : disk.find path = some (.directory mode children))
    (hseen : seen disk (path ++ [name]) ≠ none) : name ∈ children.map Prod.fst := by
  rw [seen, FileTree.find_append, hfind] at hseen
  simp only [Option.bind_some, FileTree.find] at hseen
  cases hlookup : children.lookup name with
  | none => simp [hlookup] at hseen
  | some child =>
      obtain ⟨before, after, rfl, -⟩ := List.lookup_eq_some_iff.mp hlookup
      simp

theorem mem_descendantsOf {children : List (String × FileTree)} {name : String} {child : FileTree}
    (hchild : (name, child) ∈ children) {entry : List String × FileTree}
    (hentry : entry ∈ ([], child) :: child.descendants) :
    (name :: entry.1, entry.2) ∈ FileTree.descendantsOf children := by
  induction children with
  | nil => simp at hchild
  | cons first children ih =>
      obtain ⟨firstName, firstChild⟩ := first
      rw [FileTree.descendantsOf, List.mem_append, List.mem_cons, List.mem_map]
      rcases List.mem_cons.mp hchild with hfirst | hlater
      · obtain ⟨rfl, rfl⟩ := Prod.mk.inj hfirst
        rcases List.mem_cons.mp hentry with rfl | hbelow
        · exact .inl (.inl rfl)
        · exact .inl (.inr ⟨entry, hbelow, rfl⟩)
      · exact .inr (ih hlater)

/-- What is found at a path is listed with it. -/
theorem mem_descendants_of_find {tree entry : FileTree} {path : List String}
    (hfind : tree.find path = some entry) : (path, entry) ∈ ([], tree) :: tree.descendants := by
  induction path generalizing tree with
  | nil =>
      obtain rfl : tree = entry := by simpa [FileTree.find] using hfind
      exact List.mem_cons_self
  | cons part rest ih =>
      cases tree with
      | directory mode children =>
          rw [FileTree.find] at hfind
          cases hlookup : children.lookup part with
          | none => simp [hlookup] at hfind
          | some child =>
              rw [hlookup] at hfind
              have hchild : (part, child) ∈ children := by
                obtain ⟨before, after, rfl, -⟩ := List.lookup_eq_some_iff.mp hlookup
                simp
              rw [FileTree.descendants]
              exact List.mem_cons_of_mem _ (mem_descendantsOf hchild (ih hfind))
      | file mode content => simp [FileTree.find] at hfind
      | symlink mode target => simp [FileTree.find] at hfind
      | other mode => simp [FileTree.find] at hfind

theorem mem_contents {disk : FileTree} {path : List String} {mode : Nat} {content : Bytes}
    (hfind : disk.find path = some (.file mode content)) : content ∈ contents disk := by
  rw [contents, List.mem_filterMap]
  exact ⟨_, mem_descendants_of_find hfind, rfl⟩

/-- A place further down goes through a directory that lists the next name. -/
theorem exists_directory_of_realpath {disk : FileTree} {path rest middle final : List String}
    {name : String} (hmiddle : realpath disk path = some middle)
    (hfinal : realpath disk (path ++ name :: rest) = some final) :
    ∃ mode children, disk.find middle = some (.directory mode children) ∧
      name ∈ children.map Prod.fst := by
  rw [realpath, List.map_append, List.map_cons] at hfinal
  obtain ⟨through, hthrough, left, _, hrest⟩ := resolve_append hfinal
  obtain rfl : through = middle := Option.some.inj (hthrough.symm.trans hmiddle)
  obtain ⟨hdirectory, hnext⟩ := seen_of_resolve hrest
  obtain ⟨mode, children, hfind⟩ := seen_eq_directory hdirectory
  exact ⟨mode, children, hfind, mem_children_of_seen hfind hnext⟩

/-! ### Payload paths -/

theorem canonicalRelative_eq_ok {value : Json} {code label text : String}
    (hok : canonicalRelative value code label = .ok text) : value = .string text := by
  cases value with
  | string given =>
      simp only [canonicalRelative, bind_eq_ok, pure_eq_ok] at hok
      obtain ⟨_, _, _, _, rfl⟩ := hok
      rfl
  | null => simp [canonicalRelative] at hok
  | bool value => simp [canonicalRelative] at hok
  | integer value => simp [canonicalRelative] at hok
  | real value => simp [canonicalRelative] at hok
  | array items => simp [canonicalRelative] at hok
  | object fields => simp [canonicalRelative] at hok

/-- What a resolved payload path is. -/
theorem resolvePayload_eq_ok {relative : Json} {code label : String} {kind : ExpectedKind}
    {physical : List String}
    (hok : installation.resolvePayload relative code label kind = .ok physical) :
    ∃ text, canonicalRelative relative code label = .ok text ∧
      realpath installation.disk (installation.lexical text) = some physical ∧
      installation.root <+: physical ∧
      ∃ entry, installation.disk.find physical = some entry ∧
        checkKind entry code label kind = .ok () := by
  simp only [Installation.resolvePayload, bind_eq_ok, require_eq_ok, demand_eq_ok, pure_eq_ok,
    exists_unit] at hok
  obtain ⟨text, htext, _, physical, hrealpath, hinside, entry, hentry, hkind, rfl⟩ := hok
  exact ⟨text, htext, hrealpath, by simpa [relationInside] using hinside, entry, hentry, hkind⟩

/-- A resolved payload file has a content. -/
theorem resolvePayload_file {relative : Json} {code label : String} {physical : List String}
    (hok : installation.resolvePayload relative code label .file = .ok physical) :
    ∃ text mode content, relative = .string text ∧ installation.place text [] = some physical ∧
      installation.root <+: physical ∧
      installation.disk.find physical = some (.file mode content) := by
  obtain ⟨text, htext, hrealpath, hinside, entry, hentry, hkind⟩ := resolvePayload_eq_ok hok
  cases entry with
  | file mode content =>
      refine ⟨text, mode, content, canonicalRelative_eq_ok htext, ?_, hinside, hentry⟩
      rw [Installation.place, List.append_nil, hrealpath]
  | directory mode children => simp [checkKind, FileTree.kind] at hkind
  | symlink mode target => simp [checkKind, FileTree.kind] at hkind
  | other mode => simp [checkKind, FileTree.kind] at hkind

/-! ### The walk -/

section Walk

variable {paths allowed : List String} {label : String}

/-- What the turn of one child says about it. -/
theorem visitChild_eq_ok {current : WalkItem} {name : String} {next : Option WalkItem}
    (hok : visitChild installation paths label allowed current name = .ok next) :
    ∃ physical, realpath installation.disk
        (installation.lexical (current.relative ++ "/" ++ name)) = some physical ∧
      ((∃ mode children, installation.disk.find physical = some (.directory mode children) ∧
          next = some ⟨current.relative ++ "/" ++ name, physical⟩) ∨
        ∃ mode content, installation.disk.find physical = some (.file mode content) ∧
          (current.relative ++ "/" ++ name ∈ paths ∨
            current.relative ++ "/" ++ name ∈ allowed)) := by
  simp only [visitChild, bind_eq_ok] at hok
  obtain ⟨physical, hphysical, hkind⟩ := hok
  obtain ⟨text, htext, hrealpath, _, entry, hentry, _⟩ := resolvePayload_eq_ok hphysical
  obtain rfl : current.relative ++ "/" ++ name = text := by
    simpa using canonicalRelative_eq_ok htext
  refine ⟨physical, hrealpath, ?_⟩
  rw [hentry] at hkind
  cases entry with
  | directory mode children =>
      simp only [pure_eq_ok] at hkind
      exact .inl ⟨mode, children, hentry, hkind.symm⟩
  | file mode content =>
      simp only [bind_eq_ok, require_eq_ok] at hkind
      obtain ⟨_, hlisted, _⟩ := hkind
      exact .inr ⟨mode, content, hentry, hlisted⟩
  | symlink mode target => simp at hkind
  | other mode => simp at hkind

/-- Every child of a directory has had its turn, and the directories among them are known. -/
def Visited (installation : Installation) (paths : List String) (label : String)
    (allowed : List String) (known : List WalkItem) (item : WalkItem) : Prop :=
  ∃ mode children, installation.disk.find item.physical = some (.directory mode children) ∧
    ∀ name ∈ children.map Prod.fst, ∃ next,
      visitChild installation paths label allowed item name = .ok next ∧
        ∀ child, next = some child → child ∈ known

/-- Directories that have been visited, with all that is known below them. -/
def Progress (installation : Installation) (paths : List String) (label : String)
    (allowed : List String) (first : WalkItem) (state : WalkState) : Prop :=
  ∃ handled, first ∈ handled ++ state.pending ∧
    ∀ item ∈ handled, Visited installation paths label allowed (handled ++ state.pending) item

theorem Visited.mono {known more : List WalkItem} {item : WalkItem}
    (hvisited : Visited installation paths label allowed known item) (hmore : known ⊆ more) :
    Visited installation paths label allowed more item := by
  obtain ⟨mode, children, hfind, hturns⟩ := hvisited
  refine ⟨mode, children, hfind, ?_⟩
  intro name hname
  obtain ⟨next, hnext, hknown⟩ := hturns name hname
  exact ⟨next, hnext, fun child hchild => hmore (hknown child hchild)⟩

theorem readDirectory_eq_ok {physical : List String} {code label : String} {names : List String}
    (hok : installation.readDirectory physical code label = .ok names) :
    ∃ mode children, installation.disk.find physical = some (.directory mode children) ∧
      names = children.map Prod.fst := by
  unfold Installation.readDirectory at hok
  split at hok
  case h_1 mode children hfind =>
    exact ⟨mode, children, hfind, by simpa using hok.symm⟩
  case h_2 => simp at hok

/-- A round visits the directory on top of the stack. -/
theorem Progress.walkRound {first : WalkItem} {state next : WalkState}
    (hprogress : Progress installation paths label allowed first state)
    (hround : walkRound installation paths label allowed state = .ok (some next)) :
    Progress installation paths label allowed first next := by
  obtain ⟨handled, hfirst, hhandled⟩ := hprogress
  unfold Npm.walkRound at hround
  cases hpending : state.pending with
  | nil => simp [hpending] at hround
  | cons current pending =>
      rw [hpending] at hround hfirst hhandled
      simp only [bind_eq_ok, pure_eq_ok, Option.some.injEq] at hround
      obtain ⟨_, _, names, hnames, turns, hturns, rfl⟩ := hround
      have hmore : handled ++ current :: pending ⊆
          (current :: handled) ++ (turns.reduceOption.reverse ++ pending) := by
        intro item hitem
        simp only [List.mem_append, List.mem_cons] at hitem ⊢
        tauto
      refine ⟨current :: handled, hmore hfirst, ?_⟩
      intro item hitem
      rcases List.mem_cons.mp hitem with rfl | holder
      · obtain ⟨mode, children, hfind, rfl⟩ := readDirectory_eq_ok hnames
        refine ⟨mode, children, hfind, ?_⟩
        intro name hname
        obtain ⟨turn, hturn, hvisit⟩ := exists_output_of_mem (mapM_eq_ok.mp hturns) hname
        refine ⟨turn, hvisit, ?_⟩
        rintro child rfl
        have hlisted : child ∈ turns.reduceOption := List.reduceOption_mem_iff.mpr hturn
        simp [hlisted]
      · exact (hhandled item holder).mono hmore

theorem pending_of_done {state : WalkState}
    (hdone : walkRound installation paths label allowed state = .ok none) : state.pending = [] := by
  cases hpending : state.pending with
  | nil => rfl
  | cons current pending =>
      simp only [walkRound, hpending, bind_eq_ok, pure_eq_ok, reduceCtorEq, and_false,
        exists_false] at hdone

/-- A walk that ends has visited its directory, and every directory it found on the way. -/
theorem exists_visited_of_ok {relative : Json}
    (hok : requireHashedSourceTree installation relative paths label allowed = .ok ()) :
    ∃ text first handled, relative = .string text ∧
      realpath installation.disk (installation.lexical text) = some first ∧
      ⟨text, first⟩ ∈ handled ∧
      ∀ item ∈ handled, Visited installation paths label allowed handled item := by
  simp only [requireHashedSourceTree, bind_eq_ok, demand_eq_ok] at hok
  obtain ⟨first, hfirst, text, htext, outcome, hloop, final, rfl, _⟩ := hok
  obtain ⟨given, hgiven, hrealpath, _⟩ := resolvePayload_eq_ok hfirst
  obtain rfl : text = given := by
    simpa [canonicalRelative_eq_ok htext] using canonicalRelative_eq_ok hgiven
  have hstart : Progress installation paths label allowed ⟨text, first⟩ ⟨[⟨text, first⟩], []⟩ :=
    ⟨[], by simp, by simp⟩
  have hnext : ∀ {state next : WalkState},
      Progress installation paths label allowed ⟨text, first⟩ state →
      some (walkRound installation paths label allowed state) = some (.ok (some next)) →
      Progress installation paths label allowed ⟨text, first⟩ next :=
    fun hprogress hround => hprogress.walkRound (Option.some.inj hround)
  obtain ⟨⟨handled, hknown, hhandled⟩, hdone⟩ := exit_of_loop hnext hstart hloop
  have hempty := pending_of_done (Option.some.inj hdone)
  rw [hempty, List.append_nil] at hknown hhandled
  exact ⟨text, first, handled, canonicalRelative_eq_ok htext, hrealpath, hknown, hhandled⟩

/-- Below a visited directory every file is listed under its own path. -/
theorem listed_of_visited {handled : List WalkItem}
    (hhandled : ∀ item ∈ handled, Visited installation paths label allowed handled item)
    {item : WalkItem} (hitem : item ∈ handled)
    (hplace : realpath installation.disk (installation.lexical item.relative) =
      some item.physical)
    {names : List String} (hnames : ∀ name ∈ names, IsName name) {content : Bytes}
    (hholds : installation.Holds item.relative names content) :
    below item.relative names ∈ paths ∨ below item.relative names ∈ allowed := by
  induction names generalizing item with
  | nil =>
      obtain ⟨physical, mode, hphysical, hfile⟩ := hholds
      rw [Installation.place, List.append_nil, hplace, Option.some.injEq] at hphysical
      obtain ⟨_, _, hdirectory, _⟩ := hhandled item hitem
      rw [hphysical, hfile] at hdirectory
      simp at hdirectory
  | cons name names ih =>
      obtain ⟨hname, hrest⟩ := List.forall_mem_cons.mp hnames
      obtain ⟨physical, mode, hphysical, hfile⟩ := hholds
      obtain ⟨_, children, hdirectory, hturns⟩ := hhandled item hitem
      obtain ⟨_, others, hother, hlisted⟩ := exists_directory_of_realpath hplace hphysical
      rw [hdirectory, Option.some.injEq, FileTree.directory.injEq] at hother
      obtain ⟨next, hvisit, hknown⟩ := hturns name (hother.2 ▸ hlisted)
      obtain ⟨middle, hmiddle, hkind⟩ := visitChild_eq_ok hvisit
      have hstep : below item.relative (name :: names) =
          below (item.relative ++ "/" ++ name) names := rfl
      have hdown : installation.place (item.relative ++ "/" ++ name) names = some physical := by
        rw [Installation.place, lexical_child hname.1, List.append_assoc, List.singleton_append]
        exact hphysical
      rw [hstep]
      rcases hkind with ⟨_, _, _, rfl⟩ | ⟨_, _, hfound, hlisted⟩
      · exact ih (hknown _ rfl) hmiddle hrest ⟨physical, mode, hdown, hfile⟩
      · cases names with
        | nil => exact hlisted
        | cons other names =>
            obtain ⟨_, _, hbetween, _⟩ := exists_directory_of_realpath hmiddle hdown
            rw [hfound] at hbetween
            simp at hbetween

/-- **Every file below a hashed source tree is a payload path or an allowed one.** -/
theorem listed_of_mem_filesUnder {relative : Json}
    (hok : requireHashedSourceTree installation relative paths label allowed = .ok ()) :
    ∃ text, relative = .string text ∧ ∀ file ∈ installation.filesUnder text,
      below text file.1 ∈ paths ∨ below text file.1 ∈ allowed := by
  obtain ⟨text, first, handled, htext, hplace, hknown, hhandled⟩ := exists_visited_of_ok hok
  refine ⟨text, htext, ?_⟩
  rintro ⟨names, content⟩ ⟨hnames, hholds⟩
  exact listed_of_visited hhandled hknown hplace hnames hholds

end Walk

end SupernoteModule.Npm
