import Mathlib.Data.List.Basic

/-!
# Streams of records

Records are written one after the other, each as a header and a body. A header can be told apart
from what follows it; a body carries no length and no end. Two streams can then only be confused
where a body of the one is longer than the body of the other at the same header.
-/

namespace SupernoteModule.Lib

/-- A text that ends at the first mark can be read off the front of a stream. -/
theorem closed_inj {Symbol : Type} {mark : Symbol} {left right before after : List Symbol}
    (hleft : mark ∉ left) (hright : mark ∉ right)
    (hstream : left ++ mark :: before = right ++ mark :: after) :
    left = right ∧ before = after := by
  induction left generalizing right with
  | nil =>
      cases right with
      | nil => exact ⟨rfl, by simpa using hstream⟩
      | cons symbol right =>
          have hmark : mark = symbol := (List.cons.inj hstream).1
          exact absurd (hmark ▸ List.mem_cons_self) hright
  | cons symbol left ih =>
      cases right with
      | nil =>
          have hmark : symbol = mark := (List.cons.inj hstream).1
          exact absurd (hmark ▸ List.mem_cons_self) hleft
      | cons other right =>
          obtain ⟨rfl, htails⟩ := List.cons.inj hstream
          obtain ⟨rfl, hrest⟩ := ih (fun hmem => hleft (List.mem_cons_of_mem _ hmem))
            (fun hmem => hright (List.mem_cons_of_mem _ hmem)) htails
          exact ⟨rfl, hrest⟩

/-- How items are written. `Valid` says which headers occur. -/
structure RecordFormat (Symbol Item Header : Type) where
  header : Item → Header
  body : Item → List Symbol
  encode : Header → List Symbol
  Valid : Header → Prop
  determined : ∀ {left right : Item}, header left = header right → body left = body right →
    left = right
  nonempty : ∀ header, encode header ≠ []
  separate : ∀ {left right : Header} {before after : List Symbol}, Valid left → Valid right →
    encode left ++ before = encode right ++ after → left = right ∧ before = after

namespace RecordFormat

variable {Symbol Item Header : Type} (format : RecordFormat Symbol Item Header)

def record (item : Item) : List Symbol :=
  format.encode (format.header item) ++ format.body item

def stream (items : List Item) : List Symbol :=
  items.flatMap format.record

/-- The first difference between two sequences is a body of `longer` that goes on with what
`shorter` has in its later records. -/
def Absorbs (longer shorter : List Item) : Prop :=
  ∃ front long short laterLong laterShort extra,
    longer = front ++ long :: laterLong ∧ shorter = front ++ short :: laterShort ∧
      format.header long = format.header short ∧ extra ≠ [] ∧
        format.body long = format.body short ++ extra ∧
          format.stream laterShort = extra ++ format.stream laterLong

@[simp] theorem stream_nil : format.stream [] = [] :=
  rfl

@[simp] theorem stream_cons (item : Item) (items : List Item) :
    format.stream (item :: items) = format.record item ++ format.stream items :=
  rfl

@[simp] theorem stream_append (left right : List Item) :
    format.stream (left ++ right) = format.stream left ++ format.stream right :=
  List.flatMap_append

theorem record_ne_nil (item : Item) : format.record item ≠ [] := by
  intro hnil
  exact format.nonempty _ (List.append_eq_nil_iff.mp hnil).1

theorem stream_eq_nil {items : List Item} : format.stream items = [] ↔ items = [] := by
  cases items with
  | nil => simp
  | cons item items => simp [format.record_ne_nil item]

variable {format} {left right : List Item}

theorem Absorbs.cons (item : Item) (habsorbs : format.Absorbs left right) :
    format.Absorbs (item :: left) (item :: right) := by
  obtain ⟨front, long, short, laterLong, laterShort, extra, rfl, rfl, hrest⟩ := habsorbs
  exact ⟨item :: front, long, short, laterLong, laterShort, extra, rfl, rfl, hrest⟩

/-- Absorbing does not change the stream. -/
theorem Absorbs.stream_eq (habsorbs : format.Absorbs left right) :
    format.stream left = format.stream right := by
  obtain ⟨front, long, short, laterLong, laterShort, extra, rfl, rfl, hheader, _, hbody, hlater⟩ :=
    habsorbs
  simp only [stream_append, stream_cons, record, hheader, hbody, hlater, List.append_assoc]

/-- One body goes on where the other one ends. -/
theorem absorbs_of_body {first second : Item} (hheader : format.header first = format.header second)
    (hdifferent : first ≠ second)
    (hrest : format.body first ++ format.stream left = format.body second ++ format.stream right) :
    format.Absorbs (first :: left) (second :: right) ∨
      format.Absorbs (second :: right) (first :: left) := by
  have hbodies : format.body first ≠ format.body second := fun hbody =>
    hdifferent (format.determined hheader hbody)
  obtain ⟨extra, hlong, hlater⟩ | ⟨extra, hlong, hlater⟩ := List.append_eq_append_iff.mp hrest
  · have hextra : extra ≠ [] := by
      rintro rfl
      exact hbodies (by simpa using hlong.symm)
    exact .inr
      ⟨[], second, first, right, left, extra, rfl, rfl, hheader.symm, hextra, hlong, hlater⟩
  · have hextra : extra ≠ [] := by
      rintro rfl
      exact hbodies (by simpa using hlong)
    exact .inl ⟨[], first, second, left, right, extra, rfl, rfl, hheader, hextra, hlong, hlater⟩

/-- **Two sequences have one stream exactly when they are equal or one absorbs records of the
other.** -/
theorem stream_eq_iff (hleft : ∀ item ∈ left, format.Valid (format.header item))
    (hright : ∀ item ∈ right, format.Valid (format.header item)) :
    format.stream left = format.stream right ↔
      left = right ∨ format.Absorbs left right ∨ format.Absorbs right left := by
  constructor
  · intro hstream
    induction left generalizing right with
    | nil =>
        have hnil : right = [] := format.stream_eq_nil.mp hstream.symm
        exact .inl hnil.symm
    | cons first left ih =>
        cases right with
        | nil =>
            have hnil := format.stream_eq_nil.mp hstream
            cases hnil
        | cons second right =>
            obtain ⟨hfirst, hlefts⟩ := List.forall_mem_cons.mp hleft
            obtain ⟨hsecond, hrights⟩ := List.forall_mem_cons.mp hright
            simp only [stream_cons, record, List.append_assoc] at hstream
            obtain ⟨hheader, hrest⟩ := format.separate hfirst hsecond hstream
            by_cases hsame : first = second
            · subst hsame
              have htails : format.stream left = format.stream right := by simpa using hrest
              obtain rfl | habsorbs | habsorbs := ih hlefts hrights htails
              · exact .inl rfl
              · exact .inr (.inl (habsorbs.cons first))
              · exact .inr (.inr (habsorbs.cons first))
            · exact .inr (absorbs_of_body hheader hsame hrest)
  · rintro (rfl | habsorbs | habsorbs)
    · rfl
    · exact habsorbs.stream_eq
    · exact habsorbs.stream_eq.symm

end RecordFormat

end SupernoteModule.Lib
