import Mathlib.Data.List.Basic
import Mathlib.Data.Set.Basic

/-!
# Paths, territories and their owners

A path is a list of parts, and the territory of a path is everything at or below it. Two
territories meet exactly when one of the two paths is an ancestor of the other or the two are
equal, so questions about ownership of a whole tree come down to comparing finitely many paths.
-/

namespace SupernoteModule.Lib

variable {Part : Type*} {left right root path : List Part}

/-! ### Overlap -/

/-- The paths are equal, or one is an ancestor of the other. -/
def Overlap (left right : List Part) : Prop :=
  left <+: right ∨ right <+: left

instance [DecidableEq Part] : Decidable (Overlap left right) :=
  inferInstanceAs (Decidable (_ ∨ _))

@[simp] theorem Overlap.refl (path : List Part) : Overlap path path :=
  Or.inl List.prefix_rfl

theorem Overlap.symm (hoverlap : Overlap left right) : Overlap right left :=
  Or.symm hoverlap

/-- Two paths overlap exactly when some path lies at or below both. -/
theorem overlap_iff_exists_below : Overlap left right ↔ ∃ path, left <+: path ∧ right <+: path := by
  constructor
  · rintro (hleft | hright)
    · exact ⟨right, hleft, List.prefix_rfl⟩
    · exact ⟨left, List.prefix_rfl, hright⟩
  · rintro ⟨path, hleft, hright⟩
    exact List.prefix_or_prefix_of_prefix hleft hright

/-- Going up from either path keeps an overlap. -/
theorem Overlap.of_below {left' right' : List Part} (hoverlap : Overlap left right)
    (hleft : left' <+: left) (hright : right' <+: right) : Overlap left' right' := by
  obtain ⟨path, hl, hr⟩ := overlap_iff_exists_below.mp hoverlap
  exact overlap_iff_exists_below.mpr ⟨path, hleft.trans hl, hright.trans hr⟩

@[simp] theorem overlap_nil_left : Overlap [] right :=
  Or.inl List.nil_prefix

@[simp] theorem overlap_nil_right : Overlap left [] :=
  Or.inr List.nil_prefix

@[simp] theorem overlap_cons_cons {a b : Part} :
    Overlap (a :: left) (b :: right) ↔ a = b ∧ Overlap left right := by
  simp only [Overlap, List.cons_prefix_cons, eq_comm (a := b), and_or_left]

/-- The comparison of the common leading parts decides overlap. -/
theorem overlap_iff_take :
    Overlap left right ↔
      left.take (min left.length right.length) = right.take (min left.length right.length) := by
  induction left generalizing right with
  | nil => simp
  | cons a left ih =>
      cases right with
      | nil => simp
      | cons b right => simp [ih, Nat.succ_min_succ]

/-! ### Strict descent -/

/-- The path lies strictly below the root. -/
def Below (root path : List Part) : Prop :=
  root <+: path ∧ root ≠ path

instance [DecidableEq Part] : Decidable (Below root path) :=
  inferInstanceAs (Decidable (_ ∧ _))

theorem Below.not_prefix (hbelow : Below root path) : ¬ path <+: root := by
  intro hleads
  have hle := hleads.length_le
  exact hbelow.2 (hbelow.1.eq_of_length_le hle)

/-- A strict descendant is longer than the root and repeats the root's parts. -/
theorem below_iff_take :
    Below root path ↔ root.length < path.length ∧ path.take root.length = root := by
  constructor
  · rintro hbelow
    refine ⟨?_, (List.prefix_iff_eq_take.mp hbelow.1).symm⟩
    rcases Nat.lt_or_ge root.length path.length with hlt | hge
    · exact hlt
    · exact absurd (hbelow.1.eq_of_length_le hge) hbelow.2
  · rintro ⟨hlt, htake⟩
    refine ⟨List.prefix_iff_eq_take.mpr htake.symm, ?_⟩
    rintro rfl
    omega

/-- A path that is neither below the root nor above or at it does not meet it. -/
theorem overlap_iff_below_or_prefix : Overlap root path ↔ Below root path ∨ path <+: root := by
  constructor
  · rintro (hroot | hpath)
    · by_cases heq : root = path
      · exact Or.inr (heq ▸ List.prefix_rfl)
      · exact Or.inl ⟨hroot, heq⟩
    · exact Or.inr hpath
  · rintro (hbelow | hpath)
    · exact Or.inl hbelow.1
    · exact Or.inr hpath

/-! ### Ownership -/

variable {Owner : Type*}

/-- A claimed path, with everything below it, and who claims it. -/
structure Claim (Part Owner : Type*) where
  path : List Part
  owner : Owner

/-- Some claim of the owner covers the path. -/
def Owns (claims : Set (Claim Part Owner)) (owner : Owner) (path : List Part) : Prop :=
  ∃ claim ∈ claims, claim.owner = owner ∧ claim.path <+: path

/-- Only claims of one owner overlap. -/
def Separated (claims : Set (Claim Part Owner)) : Prop :=
  ∀ ⦃left⦄, left ∈ claims → ∀ ⦃right⦄, right ∈ claims →
    Overlap left.path right.path → left.owner = right.owner

variable {claims regions : Set (Claim Part Owner)} {rest : Owner}

/-- **Every path of the infinite tree has at most one owner exactly when claims of different owners
do not overlap.** -/
theorem separated_iff_owner_unique :
    Separated claims ↔
      ∀ path first second, Owns claims first path → Owns claims second path → first = second := by
  constructor
  · rintro hseparated path _ _ ⟨left, hleft, rfl, hleftPath⟩ ⟨right, hright, rfl, hrightPath⟩
    exact hseparated hleft hright (List.prefix_or_prefix_of_prefix hleftPath hrightPath)
  · intro hunique left hleft right hright hoverlap
    obtain ⟨path, hleftPath, hrightPath⟩ := overlap_iff_exists_below.mp hoverlap
    exact hunique path _ _ ⟨left, hleft, rfl, hleftPath⟩ ⟨right, hright, rfl, hrightPath⟩

/-- A claim is granted when it lies in a region of its owner, or belongs to the owner of the rest
of the tree and meets no region. -/
def Granted (regions : Set (Claim Part Owner)) (rest : Owner) (claim : Claim Part Owner) : Prop :=
  (∃ region ∈ regions, region.owner = claim.owner ∧ region.path <+: claim.path) ∨
    (claim.owner = rest ∧ ∀ region ∈ regions, ¬ Overlap region.path claim.path)

/-- **Separated regions hand out separated claims**: when every claim is granted, the claims and
the regions together are separated. -/
theorem Separated.union_granted (hregions : Separated regions)
    (hgranted : ∀ claim ∈ claims, Granted regions rest claim) : Separated (regions ∪ claims) := by
  -- Every member of the union is in a region of its owner or is one of the claims on the rest.
  have hcases : ∀ claim ∈ regions ∪ claims, Granted regions rest claim := by
    rintro claim (hregion | hclaim)
    · exact Or.inl ⟨claim, hregion, rfl, List.prefix_rfl⟩
    · exact hgranted claim hclaim
  intro left hleft right hright hoverlap
  rcases hcases left hleft with ⟨leftRegion, hleftRegion, hleftOwner, hleftPath⟩ | hleftRest
  · rcases hcases right hright with ⟨rightRegion, hrightRegion, hrightOwner, hrightPath⟩ |
      hrightRest
    · rw [← hleftOwner, ← hrightOwner]
      exact hregions hleftRegion hrightRegion (hoverlap.of_below hleftPath hrightPath)
    · have hmeets := hoverlap.of_below hleftPath List.prefix_rfl
      exact absurd hmeets (hrightRest.2 leftRegion hleftRegion)
  · rcases hcases right hright with ⟨rightRegion, hrightRegion, hrightOwner, hrightPath⟩ |
      hrightRest
    · have hmeets := hoverlap.symm.of_below hrightPath List.prefix_rfl
      exact absurd hmeets (hleftRest.2 rightRegion hrightRegion)
    · rw [hleftRest.1, hrightRest.1]

end SupernoteModule.Lib
