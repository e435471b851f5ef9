import SupernoteModule.Python.Text

/-!
# Pure paths

`PurePosixPath` reads a string into a root and its components, without touching a filesystem. Of
`PureWindowsPath` only the anchor is used: a path that Windows would take as absolute, rooted or on
a drive is not accepted as relative.
-/

namespace SupernoteModule.Python

/-- A component is not empty, is not the current directory, and contains no separator. -/
def IsComponent (part : String) : Prop :=
  part ≠ "" ∧ part ≠ "." ∧ '/' ∉ part.toList

theorem IsComponent.toList_ne_nil {part : String} (hpart : IsComponent part) :
    part.toList ≠ [] := by
  rw [ne_eq, String.toList_eq_nil_iff]
  exact hpart.1

theorem IsComponent.head?_ne_slash {part : String} (hpart : IsComponent part) :
    part.toList.head? ≠ some '/' := by
  intro hhead
  exact hpart.2.2 (List.mem_of_head? hhead)

structure PurePosixPath where
  root : String
  tail : List String
  isComponent : ∀ part ∈ tail, IsComponent part

namespace PurePosixPath

/-- The components of a string: what lies between separators, without the empty ones and `.`. -/
def components (value : String) : List String :=
  (split value '/').filter fun part => part ≠ "" ∧ part ≠ "."

/-- Exactly two leading slashes are kept as they are, any other number is one. -/
def rootOf (value : String) : String :=
  if startsWith value "//" ∧ ¬ startsWith value "///" then "//"
  else if startsWith value "/" then "/" else ""

theorem isComponent_of_mem_components {value part : String} (hpart : part ∈ components value) :
    IsComponent part := by
  rw [components, List.mem_filter] at hpart
  obtain ⟨hpiece, hkept⟩ := hpart
  simp only [ne_eq, decide_eq_true_eq] at hkept
  exact ⟨hkept.1, hkept.2, not_mem_of_mem_split hpiece⟩

def parse (value : String) : PurePosixPath where
  root := rootOf value
  tail := components value
  isComponent := fun _ hpart => isComponent_of_mem_components hpart

def parts (path : PurePosixPath) : List String :=
  if path.root = "" then path.tail else path.root :: path.tail

def isAbsolute (path : PurePosixPath) : Bool :=
  path.root ≠ ""

/-- `"/".join(parts)`. -/
def joinComponents (parts : List String) : String :=
  String.ofList (['/'].intercalate (parts.map String.toList))

def asPosix (path : PurePosixPath) : String :=
  if path.root = "" ∧ path.tail = [] then "." else path.root ++ joinComponents path.tail

/-- `posixpath.join`: an absolute segment starts over. -/
def joinSegment (path segment : String) : String :=
  if startsWith segment "/" then segment
  else if path = "" ∨ path.toList.getLast? = some '/' then path ++ segment
  else path ++ "/" ++ segment

/-- `PurePosixPath(first, *rest)`. -/
def ofSegments (first : String) (rest : List String) : PurePosixPath :=
  parse (rest.foldl joinSegment first)

end PurePosixPath

/-- `PureWindowsPath(value)` has a drive or a root. From Python 3.12 on any character before a colon
is a drive; before that, only a letter is. -/
def windowsAnchored (value : String) : Bool :=
  match value.toList with
  | [] => false
  | [first] => first = '/' || first = backslash
  | first :: second :: _ => first = '/' || first = backslash || second = ':'

/-- The parts of a path given as a string. -/
def pathParts (value : String) : List String :=
  (PurePosixPath.parse value).parts

namespace PurePosixPath

variable {value part first : String} {parts' rest : List String}

/-! ### Rendering components -/

theorem components_join (hparts : ∀ part ∈ parts', IsComponent part) :
    components (joinComponents parts') = parts' := by
  by_cases hnil : parts' = []
  · subst hnil
    decide
  have hsplit : split (joinComponents parts') '/' = parts' := by
    rw [split, joinComponents, String.toList_ofList,
      List.splitOn_intercalate '/' (by simpa using fun part hpart => (hparts part hpart).2.2)
        (by simpa using hnil)]
    simp [Function.comp_def]
  rw [components, hsplit, List.filter_eq_self]
  intro part hpart
  simpa using ⟨(hparts part hpart).1, (hparts part hpart).2.1⟩

theorem toList_joinComponents_cons :
    (joinComponents (first :: rest)).toList =
      first.toList ++ (rest.flatMap fun part => '/' :: part.toList) := by
  rw [joinComponents, String.toList_ofList, List.map_cons]
  induction rest generalizing first with
  | nil => simp
  | cons part rest ih =>
      rw [List.map_cons, List.intercalate_cons_cons, ih]
      simp

theorem joinComponents_concat :
    joinComponents (first :: (rest ++ [part])) = joinComponents (first :: rest) ++ "/" ++ part := by
  rw [← String.toList_inj]
  simp [toList_joinComponents_cons]

/-- A component never ends with a separator, so neither does what components join to. -/
theorem getLast?_joinComponents (hparts : ∀ part ∈ first :: rest, IsComponent part) :
    (joinComponents (first :: rest)).toList.getLast? ≠ some '/' := by
  intro hlast
  obtain ⟨front, last, hfront⟩ := List.eq_nil_or_concat' (first :: rest) |>.resolve_left (by simp)
  have hcomponent : IsComponent last := hparts last (by simp [hfront])
  have hend : (joinComponents (first :: rest)).toList.getLast? = last.toList.getLast? := by
    cases front with
    | nil =>
        simp only [List.nil_append, List.cons.injEq] at hfront
        obtain ⟨rfl, rfl⟩ := hfront
        simp [toList_joinComponents_cons]
    | cons head front =>
        rw [hfront, List.cons_append, joinComponents_concat, String.toList_append,
          List.getLast?_append_of_ne_nil _ hcomponent.toList_ne_nil]
  rw [hend] at hlast
  exact hcomponent.2.2 (List.mem_of_getLast? hlast)

theorem head?_joinComponents (hfirst : IsComponent first) :
    (joinComponents (first :: rest)).toList.head? = first.toList.head? := by
  rw [toList_joinComponents_cons, List.head?_append_of_ne_nil _ hfirst.toList_ne_nil]

theorem not_startsWith_slash_of_head? (hhead : value.toList.head? ≠ some '/') (tail : String)
    (htail : startsWith tail "/") : ¬ startsWith value tail := by
  intro hstart
  obtain ⟨after, rfl⟩ := startsWith_iff.mp htail
  obtain ⟨more, rfl⟩ := startsWith_iff.mp hstart
  exact hhead (by simp)

theorem rootOf_of_head? (hhead : value.toList.head? ≠ some '/') : rootOf value = "" := by
  have hslash := not_startsWith_slash_of_head? hhead "/" (by decide)
  have hslashes := not_startsWith_slash_of_head? hhead "//" (by decide)
  simp [rootOf, hslash, hslashes]

/-- **Components joined by separators parse to a relative path of exactly those components.** -/
theorem parse_joinComponents (hparts : ∀ part ∈ first :: rest, IsComponent part) :
    (parse (joinComponents (first :: rest))).root = "" ∧
      (parse (joinComponents (first :: rest))).tail = first :: rest := by
  refine ⟨?_, components_join hparts⟩
  have hhead : (joinComponents (first :: rest)).toList.head? ≠ some '/' := by
    rw [head?_joinComponents (hparts first List.mem_cons_self)]
    exact (hparts first List.mem_cons_self).head?_ne_slash
  exact rootOf_of_head? hhead

theorem pathParts_joinComponents (hparts : ∀ part ∈ first :: rest, IsComponent part) :
    pathParts (joinComponents (first :: rest)) = first :: rest := by
  obtain ⟨hroot, htail⟩ := parse_joinComponents hparts
  rw [pathParts, parts, if_pos hroot, htail]

/-- Segments that are single components are joined by separators. -/
theorem foldl_joinSegment (parts' : List String)
    (hparts : ∀ part ∈ first :: (parts' ++ rest), IsComponent part) :
    rest.foldl joinSegment (joinComponents (first :: parts')) =
      joinComponents (first :: (parts' ++ rest)) := by
  induction rest generalizing parts' with
  | nil => simp
  | cons part rest ih =>
      have hfront : ∀ part ∈ first :: parts', IsComponent part := by
        intro other hother
        exact hparts other (by simp at hother ⊢; tauto)
      have hpart : IsComponent part := hparts part (by simp)
      have hstep : joinSegment (joinComponents (first :: parts')) part =
          joinComponents (first :: (parts' ++ [part])) := by
        have hempty : joinComponents (first :: parts') ≠ "" := by
          rw [ne_eq, ← String.toList_eq_nil_iff, toList_joinComponents_cons]
          simp [(hfront first List.mem_cons_self).toList_ne_nil]
        have hrelative := not_startsWith_slash_of_head? hpart.head?_ne_slash "/" (by decide)
        simp [joinSegment, hrelative, hempty, getLast?_joinComponents hfront,
          joinComponents_concat]
      rw [List.foldl_cons, hstep, ih _ (by simpa using hparts)]
      simp

theorem ofSegments_eq_parse (hparts : ∀ part ∈ first :: rest, IsComponent part) :
    ofSegments first rest = parse (joinComponents (first :: rest)) := by
  have hfirst : joinComponents [first] = first := by
    rw [← String.toList_inj]
    simp [toList_joinComponents_cons]
  have hjoin := foldl_joinSegment [] hparts
  rw [hfirst] at hjoin
  rw [ofSegments, hjoin, List.nil_append]

theorem asPosix_ofSegments (hparts : ∀ part ∈ first :: rest, IsComponent part) :
    (ofSegments first rest).asPosix = joinComponents (first :: rest) := by
  obtain ⟨hroot, htail⟩ := parse_joinComponents hparts
  rw [ofSegments_eq_parse hparts, asPosix, hroot, htail]
  simp

/-! ### Paths below a path -/

theorem components_append (left right : String) :
    components (left ++ "/" ++ right) = components left ++ components right := by
  have hsplit : split (left ++ "/" ++ right) '/' = split left '/' ++ split right '/' := by
    have htext : (left ++ "/" ++ right).toList = left.toList ++ '/' :: right.toList := by simp
    rw [split, htext, List.splitOn_append_cons_self, List.map_append, split, split]
  rw [components, hsplit, List.filter_append, components, components]

theorem pathParts_of_head? (hhead : value.toList.head? ≠ some '/') :
    pathParts value = components value := by
  rw [pathParts, parts, parse, if_pos (rootOf_of_head? hhead)]

/-- A path below a relative path has the parts of both. -/
theorem pathParts_append {left right : String} (hleft : left ≠ "")
    (hleftHead : left.toList.head? ≠ some '/') (hrightHead : right.toList.head? ≠ some '/') :
    pathParts (left ++ "/" ++ right) = pathParts left ++ pathParts right := by
  have hnonempty : left.toList ≠ [] := by rwa [ne_eq, String.toList_eq_nil_iff]
  have hhead : (left ++ "/" ++ right).toList.head? ≠ some '/' := by
    rwa [String.append_assoc, String.toList_append, List.head?_append_of_ne_nil _ hnonempty]
  rw [pathParts_of_head? hhead, pathParts_of_head? hleftHead, pathParts_of_head? hrightHead,
    components_append]

/-! ### Canonical paths -/

/-- A canonical relative path is its own rendering, so its parts determine it. -/
theorem eq_of_pathParts_eq {left right : String} (hleft : (parse left).asPosix = left)
    (hleftRelative : (parse left).isAbsolute = false) (hright : (parse right).asPosix = right)
    (hrightRelative : (parse right).isAbsolute = false)
    (hparts : pathParts left = pathParts right) :
    left = right := by
  simp only [isAbsolute, ne_eq, decide_not, Bool.not_eq_eq_eq_not, Bool.not_false,
    decide_eq_true_eq] at hleftRelative hrightRelative
  simp only [pathParts, parts, hleftRelative, hrightRelative, if_true] at hparts
  rw [← hleft, ← hright, asPosix, asPosix, hleftRelative, hrightRelative, hparts]

end PurePosixPath

end SupernoteModule.Python
