import Mathlib.Data.List.Basic

/-!
# What a history may hold at each point

A condition on what comes before an event, for every event of a history.
-/

namespace SupernoteModule.Lib

variable {Event : Type*} {allowed : List Event → Event → Prop} {history : List Event}
    {event : Event}

/-- Every event is allowed after the ones that come before it. -/
def Ordered (allowed : List Event → Event → Prop) (history : List Event) : Prop :=
  ∀ before event after, history = before ++ event :: after → allowed before event

theorem Ordered.nil : Ordered allowed [] := by
  intro before event after hsplit
  exact absurd hsplit.symm (List.append_ne_nil_of_right_ne_nil _ (List.cons_ne_nil _ _))

theorem Ordered.concat (hordered : Ordered allowed history) (hallowed : allowed history event) :
    Ordered allowed (history ++ [event]) := by
  intro before other after hsplit
  rcases List.eq_nil_or_concat after with rfl | ⟨initial, last, rfl⟩
  · obtain ⟨rfl, hevent⟩ := List.append_inj' hsplit rfl
    exact List.cons.inj hevent |>.1 ▸ hallowed
  · have hassoc : before ++ other :: initial.concat last =
      (before ++ other :: initial) ++ [last] := by
      rw [List.concat_eq_append, List.append_assoc, List.cons_append]
    rw [hassoc] at hsplit
    exact hordered before other initial (List.append_inj' hsplit rfl).1

end SupernoteModule.Lib
