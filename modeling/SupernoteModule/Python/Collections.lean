import Mathlib.Data.List.Dedup
import Mathlib.Data.List.Forall2
import Mathlib.Data.List.Induction
import Mathlib.Data.List.Pairwise
import Mathlib.Data.List.Sort
import Mathlib.Data.String.Basic

/-!
# Sorting and dictionaries

`sorted` with a key, and over a set, and a dictionary as the list of its items. Two lists of the
same items sort alike as soon as their keys tell the items apart.
-/

namespace SupernoteModule.Python

variable {Item Key : Type} [LinearOrder Key]

/-- `sorted(items, key=key)`. -/
def sortedBy (key : Item → Key) (items : List Item) : List Item :=
  items.insertionSort fun left right => key left ≤ key right

/-- `sorted(set(values))`. -/
def sortedSet (values : List Key) : List Key :=
  sortedBy id values.dedup

variable {key : Item → Key} {items others : List Item}

theorem sortedBy_perm (key : Item → Key) (items : List Item) :
    (sortedBy key items).Perm items :=
  List.perm_insertionSort _ items

@[simp] theorem mem_sortedBy {item : Item} : item ∈ sortedBy key items ↔ item ∈ items :=
  (sortedBy_perm key items).mem_iff

theorem pairwise_sortedBy (key : Item → Key) (items : List Item) :
    (sortedBy key items).Pairwise fun left right => key left ≤ key right := by
  have : Std.Total fun left right : Item => key left ≤ key right :=
    ⟨fun left right => le_total (key left) (key right)⟩
  have : IsTrans Item fun left right => key left ≤ key right :=
    ⟨fun _ _ _ => le_trans⟩
  exact List.pairwise_insertionSort _ items

/-- A sorted list stays as it is. -/
theorem sortedBy_eq_self (hsorted : items.Pairwise fun left right => key left ≤ key right) :
    sortedBy key items = items :=
  hsorted.insertionSort_eq

/-- Sorting does not see the order of the items, when no two of them have the same key. -/
theorem sortedBy_eq_of_perm (hnodup : (items.map key).Nodup) (hperm : items.Perm others) :
    sortedBy key items = sortedBy key others := by
  refine List.Perm.eq_of_pairwise ?_ (pairwise_sortedBy key items) (pairwise_sortedBy key others) ?_
  · intro left right hleft hright hle hge
    have hkeys : key left = key right := le_antisymm hle hge
    exact List.inj_on_of_nodup_map hnodup (by simpa using hleft)
      (by simpa [hperm.mem_iff] using hright) hkeys
  · calc (sortedBy key items).Perm items := sortedBy_perm key items
      List.Perm _ others := hperm
      List.Perm _ (sortedBy key others) := (sortedBy_perm key others).symm

/-- Related lists are sorted alike when related items have one key. -/
theorem forall₂_sortedBy {Other : Type} {relation : Item → Other → Prop} {otherKey : Other → Key}
    {items : List Item} {others : List Other}
    (hkey : ∀ item other, relation item other → otherKey other = key item)
    (hrelated : List.Forall₂ relation items others) :
    List.Forall₂ relation (sortedBy key items) (sortedBy otherKey others) := by
  have hinsert : ∀ {item other items others}, relation item other →
      List.Forall₂ relation items others →
        List.Forall₂ relation (items.orderedInsert (fun left right => key left ≤ key right) item)
          (others.orderedInsert (fun left right => otherKey left ≤ otherKey right) other) := by
    intro item other items others hhead htail
    induction htail with
    | nil => exact .cons hhead .nil
    | @cons first second items others hfirst hrest ih =>
        rw [List.orderedInsert_cons, List.orderedInsert_cons, hkey _ _ hhead, hkey _ _ hfirst]
        split_ifs
        · exact .cons hhead (.cons hfirst hrest)
        · exact .cons hfirst ih
  unfold sortedBy
  induction hrelated with
  | nil => exact .nil
  | cons hhead _ ih =>
      rw [List.insertionSort_cons, List.insertionSort_cons]
      exact hinsert hhead ih

@[simp] theorem mem_sortedSet {values : List Key} {entry : Key} :
    entry ∈ sortedSet values ↔ entry ∈ values := by
  simp [sortedSet]

/-- A symmetric relation holds along a sorted set when it holds of any two different members. -/
theorem pairwise_sortedSet {values : List Key} {relation : Key → Key → Prop}
    (hsymm : ∀ {left right}, relation left right → relation right left) :
    (sortedSet values).Pairwise relation ↔
      ∀ left ∈ values, ∀ right ∈ values, left ≠ right → relation left right := by
  rw [sortedSet, (sortedBy_perm id values.dedup).pairwise_iff hsymm]
  constructor
  · intro hpairwise left hleft right hright hne
    have : Std.Symm relation := ⟨fun _ _ => hsymm⟩
    exact hpairwise.forall (List.mem_dedup.mpr hleft) (List.mem_dedup.mpr hright) hne
  · intro hall
    refine (List.nodup_dedup values).pairwise_of_forall_ne fun left hleft right hright hne => ?_
    exact hall left (List.mem_dedup.mp hleft) right (List.mem_dedup.mp hright) hne

/-- A set is sorted the same way in whatever order its members are listed. -/
theorem sortedSet_eq_of_mem_iff {lefts rights : List Key}
    (hmem : ∀ entry, entry ∈ lefts ↔ entry ∈ rights) : sortedSet lefts = sortedSet rights := by
  apply sortedBy_eq_of_perm
  · simpa using List.nodup_dedup lefts
  · rw [List.perm_ext_iff_of_nodup (List.nodup_dedup lefts) (List.nodup_dedup rights)]
    simpa using hmem

/-- A dictionary gives each key the value it is listed with. -/
theorem lookup_eq_some_iff {Name Value : Type} [BEq Name] [LawfulBEq Name]
    {dictionary : List (Name × Value)} (hnodup : (dictionary.map Prod.fst).Nodup) {name : Name}
    {value : Value} : dictionary.lookup name = some value ↔ (name, value) ∈ dictionary := by
  induction dictionary with
  | nil => simp
  | cons entry dictionary ih =>
      obtain ⟨first, found⟩ := entry
      simp only [List.map_cons, List.nodup_cons] at hnodup
      rw [List.lookup_cons, List.mem_cons, Prod.mk.injEq]
      by_cases hname : name = first
      · subst hname
        have hothers : (name, value) ∉ dictionary := by
          intro hmem
          exact hnodup.1 (List.mem_map_of_mem hmem)
        simp [hothers, eq_comm]
      · have hbeq : (name == first) = false := by simpa using hname
        simp [hbeq, hname, ih hnodup.2]

/-! ### Dictionaries of records -/

section Dictionaries

variable {Record Name : Type} [DecidableEq Name]

/-- `dictionary[name] = record`. -/
def dictInsert (dictionary : List (Name × Record)) (name : Name) (record : Record) :
    List (Name × Record) :=
  match dictionary with
  | [] => [(name, record)]
  | entry :: rest =>
      if entry.1 = name then (name, record) :: rest else entry :: dictInsert rest name record

/-- `{name(record): record for record in records}`. -/
def dictOf (name : Record → Name) (records : List Record) : List (Name × Record) :=
  records.foldl (fun dictionary record => dictInsert dictionary (name record) record) []

theorem lookup_dictInsert {dictionary : List (Name × Record)} {name other : Name}
    {record : Record} :
    (dictInsert dictionary name record).lookup other =
      if other = name then some record else dictionary.lookup other := by
  induction dictionary with
  | nil =>
      by_cases hname : other = name
      · simp [dictInsert, hname]
      · have hbeq : (other == name) = false := by simpa using hname
        simp [dictInsert, List.lookup_cons, hname, hbeq]
  | cons entry rest ih =>
      obtain ⟨first, found⟩ := entry
      rw [dictInsert]
      by_cases hfirst : first = name
      · subst hfirst
        by_cases hother : other = first
        · simp [hother]
        · have hbeq : (other == first) = false := by simpa using hother
          simp [List.lookup_cons, hother, hbeq]
      · rw [if_neg hfirst, List.lookup_cons, List.lookup_cons, ih]
        by_cases hother : other = first
        · simp [hother, hfirst]
        · have hbeq : (other == first) = false := by simpa using hother
          simp [hbeq]

/-- A new name is put behind the others. -/
theorem dictInsert_of_not_mem {dictionary : List (Name × Record)} {name : Name} {record : Record}
    (hnew : name ∉ dictionary.map Prod.fst) :
    dictInsert dictionary name record = dictionary ++ [(name, record)] := by
  induction dictionary with
  | nil => rfl
  | cons entry rest ih =>
      rw [List.map_cons, List.mem_cons, not_or] at hnew
      rw [dictInsert, if_neg (Ne.symm hnew.1), ih hnew.2, List.cons_append]

theorem dictOf_concat {name : Record → Name} {records : List Record} {record : Record} :
    dictOf name (records ++ [record]) = dictInsert (dictOf name records) (name record) record := by
  rw [dictOf, List.foldl_append]
  rfl

/-- What a dictionary finds is one of its records, under its own name. -/
theorem of_lookup_dictOf {name : Record → Name} {records : List Record} {record : Record}
    {key : Name} (hfound : (dictOf name records).lookup key = some record) :
    record ∈ records ∧ name record = key := by
  induction records using List.reverseRecOn with
  | nil => simp [dictOf] at hfound
  | append_singleton records last ih =>
      rw [dictOf_concat, lookup_dictInsert] at hfound
      by_cases hkey : key = name last
      · rw [if_pos hkey, Option.some.injEq] at hfound
        subst hfound
        exact ⟨List.mem_append_right _ (List.mem_singleton_self _), hkey.symm⟩
      · rw [if_neg hkey] at hfound
        obtain ⟨hmem, hname⟩ := ih hfound
        exact ⟨List.mem_append_left _ hmem, hname⟩

/-- A record that no later one takes the name of is found. -/
theorem lookup_dictOf {name : Record → Name} {kept : Record → Prop} {records : List Record}
    (hkept : records.Pairwise fun earlier later => kept earlier → name later ≠ name earlier)
    {record : Record} (hmem : record ∈ records) (hrecord : kept record) :
    (dictOf name records).lookup (name record) = some record := by
  induction records using List.reverseRecOn with
  | nil => simp at hmem
  | append_singleton records last ih =>
      rw [List.pairwise_append] at hkept
      rw [dictOf_concat, lookup_dictInsert]
      rcases List.mem_append.mp hmem with hearlier | hlast
      · have hne := hkept.2.2 record hearlier last (List.mem_singleton_self _) hrecord
        rw [if_neg (Ne.symm hne)]
        exact ih hkept.1 hearlier
      · obtain rfl := List.mem_singleton.mp hlast
        rw [if_pos rfl]

theorem lookup_dictOf_of_nodup {name : Record → Name} {records : List Record}
    (hnodup : (records.map name).Nodup) {record : Record} (hmem : record ∈ records) :
    (dictOf name records).lookup (name record) = some record := by
  rw [List.Nodup, List.pairwise_map] at hnodup
  have hkept : records.Pairwise fun earlier later => True → name later ≠ name earlier :=
    hnodup.imp fun hne _ => Ne.symm hne
  exact lookup_dictOf hkept hmem trivial

/-- `dictionary.values()`. -/
def dictValues (dictionary : List (Name × Record)) : List Record :=
  dictionary.map Prod.snd

theorem mem_dictValues_of_lookup {dictionary : List (Name × Record)} {name : Name} {record : Record}
    (hfound : dictionary.lookup name = some record) : record ∈ dictValues dictionary := by
  obtain ⟨before, after, rfl, _⟩ := List.lookup_eq_some_iff.mp hfound
  simp [dictValues]

end Dictionaries

end SupernoteModule.Python
