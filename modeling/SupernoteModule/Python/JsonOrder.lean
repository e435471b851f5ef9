import SupernoteModule.Python.Collections
import SupernoteModule.Python.Json
import Mathlib.Data.List.Forall2
import Mathlib.Data.List.Perm.Basic

/-!
# JSON up to the order of some lists

Two decoded values are the same up to the lists under some keys when they differ in nothing but the
order of the items of those lists. Dictionaries are compared as maps, as Python does.
-/

namespace SupernoteModule.Python.Json

variable (unordered : List String)

mutual

inductive Reordered : Json → Json → Prop where
  | same (value : Json) : Reordered value value
  | array {lefts rights : List Json} :
      List.Forall₂ Reordered lefts rights → Reordered (.array lefts) (.array rights)
  | object {lefts rights : Fields} :
      (∀ key, key ∈ keys lefts ↔ key ∈ keys rights) →
      (∀ key ∈ keys rights, ReorderedField key (get lefts key) (get rights key)) →
      Reordered (.object lefts) (.object rights)

/-- The values under one key. Only under the given keys may the items of a list change places. -/
inductive ReorderedField : String → Json → Json → Prop where
  | ordered {key : String} {left right : Json} : Reordered left right →
      ReorderedField key left right
  | unordered {key : String} {lefts middles rights : List Json} : key ∈ unordered →
      lefts.Perm middles → List.Forall₂ Reordered middles rights →
      ReorderedField key (.array lefts) (.array rights)

end

variable {unordered}

/-- `set(fields) == expected`. -/
theorem hasExactly_iff {fields : Fields} {expected : List String} :
    hasExactly fields expected ↔ ∀ key, key ∈ keys fields ↔ key ∈ expected := by
  simp only [hasExactly, Bool.and_eq_true, List.all_eq_true, decide_eq_true_eq]
  constructor
  · rintro ⟨hexpected, hkeys⟩ key
    exact ⟨hkeys key, hexpected key⟩
  · intro hsame
    exact ⟨fun key => (hsame key).mpr, fun key => (hsame key).mp⟩

@[simp] theorem keys_nil : keys [] = [] := rfl

@[simp] theorem keys_cons {name : String} {first : Json} {fields : Fields} :
    keys ((name, first) :: fields) = name :: keys fields := rfl

@[simp] theorem keys_append {lefts rights : Fields} :
    keys (lefts ++ rights) = keys lefts ++ keys rights :=
  List.map_append

/-- A dictionary with distinct keys gives each key its own value. -/
theorem get_of_mem {fields : Fields} (hnodup : (keys fields).Nodup) {key : String} {value : Json}
    (hmem : (key, value) ∈ fields) : get fields key = value := by
  rw [get, (lookup_eq_some_iff hnodup).mpr hmem]
  rfl

/-- A dictionary with the keys of another one, and the same values up to order, is that one up to
order. -/
theorem Reordered.of_entries {fields entries : Fields} (hnodup : (keys entries).Nodup)
    (hkeys : hasExactly fields (keys entries))
    (hentries : ∀ entry ∈ entries,
      ReorderedField unordered entry.1 (get fields entry.1) entry.2) :
    Reordered unordered (.object fields) (.object entries) := by
  apply Reordered.object
  · exact hasExactly_iff.mp hkeys
  · intro key hkey
    obtain ⟨entry, hentry, rfl⟩ := List.mem_map.mp hkey
    have hget : get entries entry.1 = entry.2 := get_of_mem hnodup hentry
    rw [hget]
    exact hentries entry hentry

theorem ReorderedField.of_eq {key : String} {left right : Json} (heq : left = right) :
    ReorderedField unordered key left right :=
  heq ▸ .ordered (.same left)

end SupernoteModule.Python.Json
