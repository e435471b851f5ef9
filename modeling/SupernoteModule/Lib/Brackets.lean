import Mathlib.Data.List.Basic

/-!
# Brackets

Sequences of items of which some open a block and some close one, and items that carry the depth
they have been found at. Where the blocks of a sequence are closed, the depths tell which item
closes which.
-/

namespace SupernoteModule.Lib

variable {Item : Type} (opens closes : Item → Bool)

/-- Every block is closed, and none is closed that has not been opened. -/
inductive Balanced : List Item → Prop
  | nil : Balanced []
  | item {first : Item} {rest : List Item} (hopens : opens first = false)
      (hcloses : closes first = false) (hrest : Balanced rest) : Balanced (first :: rest)
  | block {opening closing : Item} {inner rest : List Item} (hopens : opens opening = true)
      (hcloses : closes closing = true) (hinner : Balanced inner) (hrest : Balanced rest) :
      Balanced (opening :: (inner ++ closing :: rest))

/-- The depth behind an item. -/
def depthBehind (depth : Nat) (item : Item) : Nat :=
  if opens item then depth + 1 else if closes item then depth - 1 else depth

/-- Every item carries the depth it is found at. -/
def DepthsFrom (depthOf : Item → Nat) : Nat → List Item → Prop
  | _, [] => True
  | depth, item :: items =>
      depthOf item = depth ∧ DepthsFrom depthOf (depthBehind opens closes depth item) items

/-- The depth behind a sequence. -/
def depthAfter (depth : Nat) (items : List Item) : Nat :=
  items.foldl (depthBehind opens closes) depth

/-- A sequence closes so many blocks more than it opens, and every block it opens. -/
def closesAll : Nat → List Item → Bool
  | depth, [] => depth = 0
  | depth, item :: items =>
      if opens item then closesAll (depth + 1) items
      else if closes item then depth ≠ 0 && closesAll (depth - 1) items
      else closesAll depth items

variable {opens closes} {depthOf : Item → Nat}

theorem depthBehind_inert {item : Item} (hopens : opens item = false)
    (hcloses : closes item = false)
    (depth : Nat) : depthBehind opens closes depth item = depth := by
  rw [depthBehind, hopens, hcloses]
  rfl

theorem depthsFrom_append {before rest : List Item} : ∀ {depth : Nat},
    DepthsFrom opens closes depthOf depth (before ++ rest) ↔
      DepthsFrom opens closes depthOf depth before ∧
        DepthsFrom opens closes depthOf (depthAfter opens closes depth before) rest := by
  induction before with
  | nil =>
      intro depth
      exact ⟨fun hrest => ⟨trivial, hrest⟩, fun hboth => hboth.2⟩
  | cons first before ih =>
      intro depth
      rw [List.cons_append, DepthsFrom, ih, DepthsFrom, and_assoc]
      rfl

theorem depthAfter_append (before rest : List Item) (depth : Nat) :
    depthAfter opens closes depth (before ++ rest) =
      depthAfter opens closes (depthAfter opens closes depth before) rest :=
  List.foldl_append

/-! ### Balanced sequences -/

/-- A sequence that closes a block comes to where the block is closed. -/
theorem exists_closing (size : Nat) : ∀ {depth : Nat} {items : List Item}, items.length ≤ size →
    closesAll opens closes (depth + 1) items = true → ∃ inner closing rest,
      items = inner ++ closing :: rest ∧ opens closing = false ∧ closes closing = true ∧
        Balanced opens closes inner ∧ closesAll opens closes depth rest = true := by
  induction size with
  | zero =>
      intro depth items hsize hcloses
      rw [List.length_eq_zero_iff.mp (Nat.le_zero.mp hsize), closesAll] at hcloses
      exact absurd (of_decide_eq_true hcloses) (Nat.succ_ne_zero depth)
  | succ size ih =>
      intro depth items hsize hcloses
      cases items with
      | nil => exact absurd (of_decide_eq_true hcloses) (Nat.succ_ne_zero depth)
      | cons item items =>
          rw [List.length_cons] at hsize
          have hshorter : items.length ≤ size := by omega
          cases hopening : opens item with
          | true =>
              rw [closesAll, hopening, if_pos rfl] at hcloses
              obtain ⟨inner, closing, rest, rfl, hother, hclosing, hinner, hrest⟩ :=
                ih hshorter hcloses
              rw [List.length_append, List.length_cons] at hshorter
              obtain ⟨next, last, after, rfl, hlastOpens, hlast, hnext, hafter⟩ :=
                ih (show rest.length ≤ size by omega) hrest
              exact ⟨item :: (inner ++ closing :: next), last, after, by simp, hlastOpens, hlast,
                .block hopening hclosing hinner hnext, hafter⟩
          | false =>
              cases hclosing : closes item with
              | true =>
                  rw [closesAll, hopening, hclosing, if_neg Bool.false_ne_true, if_pos rfl,
                    Bool.and_eq_true] at hcloses
                  exact ⟨[], item, items, rfl, hopening, hclosing, .nil, hcloses.2⟩
              | false =>
                  rw [closesAll, hopening, hclosing, if_neg Bool.false_ne_true,
                    if_neg Bool.false_ne_true] at hcloses
                  obtain ⟨inner, closing, rest, rfl, hother, hlast, hinner, hrest⟩ :=
                    ih hshorter hcloses
                  exact ⟨item :: inner, closing, rest, rfl, hother, hlast,
                    .item hopening hclosing hinner, hrest⟩

/-- A sequence that closes what it opens is balanced. -/
theorem balanced_of_closesAll (size : Nat) : ∀ {items : List Item}, items.length ≤ size →
    closesAll opens closes 0 items = true → Balanced opens closes items := by
  induction size with
  | zero =>
      intro items hsize _
      rw [List.length_eq_zero_iff.mp (Nat.le_zero.mp hsize)]
      exact .nil
  | succ size ih =>
      intro items hsize hcloses
      cases items with
      | nil => exact .nil
      | cons item items =>
          rw [List.length_cons] at hsize
          have hshorter : items.length ≤ size := by omega
          cases hopening : opens item with
          | true =>
              rw [closesAll, hopening, if_pos rfl] at hcloses
              obtain ⟨inner, closing, rest, rfl, _, hclosing, hinner, hrest⟩ :=
                exists_closing size hshorter hcloses
              rw [List.length_append, List.length_cons] at hshorter
              exact .block hopening hclosing hinner (ih (by omega) hrest)
          | false =>
              cases hclosing : closes item with
              | true =>
                  rw [closesAll, hopening, hclosing, if_neg Bool.false_ne_true, if_pos rfl,
                    Bool.and_eq_true] at hcloses
                  exact absurd rfl (of_decide_eq_true hcloses.1)
              | false =>
                  rw [closesAll, hopening, hclosing, if_neg Bool.false_ne_true,
                    if_neg Bool.false_ne_true] at hcloses
                  exact .item hopening hclosing (ih hshorter hcloses)

/-- A block of a balanced sequence is closed within it. -/
theorem Balanced.closed (hapart : ∀ item, opens item = true → closes item = false)
    {items : List Item} (hbalanced : Balanced opens closes items) :
    ∀ {before rest : List Item} {opening : Item}, opens opening = true →
      items = before ++ opening :: rest → ∃ inner closing after,
        rest = inner ++ closing :: after ∧ closes closing = true ∧ Balanced opens closes inner := by
  induction hbalanced with
  | nil =>
      intro before rest opening _ hsplit
      simp at hsplit
  | @item first items hopens _ _ ih =>
      intro before rest opening hopening hsplit
      cases before with
      | nil =>
          obtain ⟨rfl, rfl⟩ := List.cons.inj hsplit
          rw [hopens] at hopening
          cases hopening
      | cons other before => exact ih hopening (List.cons.inj hsplit).2
  | @block first closing inner items hopens hcloses hinner _ ihInner ih =>
      intro before rest opening hopening hsplit
      have hother : opening ≠ closing := by
        rintro rfl
        rw [hapart opening hopening] at hcloses
        cases hcloses
      cases before with
      | nil =>
          obtain ⟨rfl, rfl⟩ := List.cons.inj hsplit
          exact ⟨inner, closing, items, rfl, hcloses, hinner⟩
      | cons other before =>
          have htail := (List.cons.inj hsplit).2
          rcases List.append_eq_append_iff.mp htail with ⟨between, hbefore, hlater⟩ |
            ⟨between, hwithin, hlater⟩
          · cases between with
            | nil => exact absurd (List.cons.inj hlater).1.symm hother
            | cons last between => exact ih hopening (List.cons.inj hlater).2
          · cases between with
            | nil => exact absurd (List.cons.inj hlater).1 hother
            | cons last between =>
                obtain ⟨rfl, rfl⟩ := List.cons.inj hlater
                obtain ⟨within, found, after, rfl, hfound, hbalanced⟩ := ihInner hopening hwithin
                exact ⟨within, found, after ++ closing :: items, by simp, hfound, hbalanced⟩

/-- A balanced sequence ends at the depth where it started, and no block outside it is closed in
between. -/
theorem Balanced.depths (hapart : ∀ item, opens item = true → closes item = false)
    {items : List Item} (hbalanced : Balanced opens closes items) :
    ∀ {depth : Nat} {rest : List Item},
      DepthsFrom opens closes depthOf depth (items ++ rest) →
        DepthsFrom opens closes depthOf depth rest ∧
          ∀ item ∈ items, closes item = true → depth + 1 ≤ depthOf item := by
  induction hbalanced with
  | nil =>
      intro depth rest hdepths
      exact ⟨hdepths, fun item hmem => absurd hmem List.not_mem_nil⟩
  | @item first items hopens hcloses _ ih =>
      intro depth rest hdepths
      have hsame := depthBehind_inert hopens hcloses depth
      have htail := hdepths.2
      rw [hsame] at htail
      obtain ⟨hrest, hdeep⟩ := ih htail
      refine ⟨hrest, fun item hmem hclosing => ?_⟩
      cases List.mem_cons.mp hmem with
      | inl hfirst =>
          rw [hfirst, hcloses] at hclosing
          cases hclosing
      | inr hlater => exact hdeep item hlater hclosing
  | @block opening closing inner items hopens hcloses _ _ ihInner ih =>
      intro depth rest hdepths
      rw [List.cons_append, List.append_assoc, List.cons_append] at hdepths
      have hbehind : depthBehind opens closes depth opening = depth + 1 := by
        rw [depthBehind, hopens]
        rfl
      have hwithin := hdepths.2
      rw [hbehind] at hwithin
      obtain ⟨hclosed, hinner⟩ := ihInner hwithin
      have hclosingOpens : opens closing = false := by
        cases hboth : opens closing with
        | false => rfl
        | true =>
            rw [hapart closing hboth] at hcloses
            cases hcloses
      have hback : depthBehind opens closes (depth + 1) closing = depth := by
        rw [depthBehind, hclosingOpens, hcloses]
        rfl
      have hlater := hclosed.2
      rw [hback] at hlater
      obtain ⟨hrest, hdeep⟩ := ih hlater
      refine ⟨hrest, fun item hmem hclosing => ?_⟩
      rcases List.mem_cons.mp hmem with rfl | hmem
      · rw [hapart item hopens] at hclosing
        cases hclosing
      · rcases List.mem_append.mp hmem with hmem | hmem
        · exact Nat.le_of_succ_le (hinner item hmem hclosing)
        · rcases List.mem_cons.mp hmem with rfl | hmem
          · exact Nat.le_of_eq hclosed.1.symm
          · exact hdeep item hmem hclosing

/-- **The depth of an opening item finds the item that closes it.** -/
theorem find_closing (hapart : ∀ item, opens item = true → closes item = false) {depth : Nat}
    {opening closing : Item} {inner after : List Item} (hopening : opens opening = true)
    (hclosing : closes closing = true) (hinner : Balanced opens closes inner)
    (hdepths : DepthsFrom opens closes depthOf depth (opening :: (inner ++ closing :: after))) :
    (inner ++ closing :: after).find? (fun item =>
      closes item && decide (depthOf item = depthOf opening + 1)) = some closing := by
  have hbehind : depthBehind opens closes depth opening = depth + 1 := by
    rw [depthBehind, hopening]
    rfl
  have hwithin := hdepths.2
  rw [hbehind] at hwithin
  obtain ⟨hclosed, hdeep⟩ := hinner.depths hapart hwithin
  have hnone : inner.find? (fun item =>
      closes item && decide (depthOf item = depthOf opening + 1)) = none := by
    apply List.find?_eq_none.mpr
    intro item hmem hfound
    rw [Bool.and_eq_true] at hfound
    have hless := hdeep item hmem hfound.1
    have hsame := of_decide_eq_true hfound.2
    rw [hdepths.1] at hsame
    omega
  rw [List.find?_append, hnone, Option.none_or, List.find?_cons_of_pos]
  rw [hclosing, hclosed.1, hdepths.1]
  exact decide_eq_true rfl

end SupernoteModule.Lib
