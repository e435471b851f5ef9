import Mathlib.Data.List.Perm.Basic

/-!
# Spans

Stretches of a sequence, given by where they start and by where they end.
-/

namespace SupernoteModule.Lib

structure Span where
  start : Nat
  end_ : Nat
deriving DecidableEq

namespace Span

/-- The index is in the span. -/
def Has (span : Span) (index : Nat) : Prop :=
  span.start ≤ index ∧ index < span.end_

def Apart (first next : Span) : Prop :=
  first.end_ ≤ next.start ∨ next.end_ ≤ first.start

theorem Apart.symm {first next : Span} (hapart : first.Apart next) : next.Apart first :=
  Or.symm hapart

end Span

/-- No span is empty, each ends before the next one starts, and all end in front of a bound. -/
structure Ascending (bound : Nat) (spans : List Span) : Prop where
  ordered : spans.Pairwise fun first next => first.end_ ≤ next.start
  proper : ∀ span ∈ spans, span.start < span.end_ ∧ span.end_ ≤ bound

namespace Ascending

variable {bound limit : Nat} {spans next : List Span}

theorem nil (bound : Nat) : Ascending bound [] where
  ordered := List.Pairwise.nil
  proper _ hspan := absurd hspan List.not_mem_nil

theorem single {span : Span} (hproper : span.start < span.end_) (hbound : span.end_ ≤ bound) :
    Ascending bound [span] where
  ordered := List.pairwise_singleton _ _
  proper other hother := by
    rw [List.mem_singleton.mp hother]
    exact ⟨hproper, hbound⟩

theorem append (hspans : Ascending bound spans) (hle : bound ≤ limit)
    (hnext : Ascending limit next) (hbehind : ∀ span ∈ next, bound ≤ span.start) :
    Ascending limit (spans ++ next) where
  ordered := by
    apply List.pairwise_append.mpr
    refine ⟨hspans.ordered, hnext.ordered, ?_⟩
    intro first hfirst second hsecond
    exact Nat.le_trans (hspans.proper first hfirst).2 (hbehind second hsecond)
  proper span hspan := by
    cases List.mem_append.mp hspan with
    | inl hold => exact ⟨(hspans.proper span hold).1, Nat.le_trans (hspans.proper span hold).2 hle⟩
    | inr hnew => exact hnext.proper span hnew

theorem mono (hspans : Ascending bound spans) (hle : bound ≤ limit) : Ascending limit spans where
  ordered := hspans.ordered
  proper span hspan :=
    ⟨(hspans.proper span hspan).1, Nat.le_trans (hspans.proper span hspan).2 hle⟩

end Ascending

/-- Spans behind a bound are apart from spans in front of it. -/
theorem pairwise_apart_append {bound : Nat} {spans next : List Span}
    (hspans : spans.Pairwise Span.Apart) (hbefore : ∀ span ∈ spans, span.end_ ≤ bound)
    (hnext : next.Pairwise Span.Apart) (hbehind : ∀ span ∈ next, bound ≤ span.start) :
    (spans ++ next).Pairwise Span.Apart := by
  apply List.pairwise_append.mpr
  refine ⟨hspans, hnext, ?_⟩
  intro first hfirst second hsecond
  exact .inl (Nat.le_trans (hbefore first hfirst) (hbehind second hsecond))

end SupernoteModule.Lib
