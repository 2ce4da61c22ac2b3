import Mathlib.Data.List.DropRight

/-!
# Trimming and splitting

What is left of a text between the blanks at its two ends, and the words of a
text that separators set apart. Both are over any alphabet; which characters
are blanks or separators is a parameter.
-/
namespace Text

variable {α : Type*} {p : α → Bool}

/-! ### Trimming -/

/-- `core` is what `l` leaves between the blanks at its two ends. -/
structure Trimmed (p : α → Bool) (l core : List α) : Prop where
  around : ∃ front back, l = front ++ core ++ back ∧ (∀ c ∈ front, p c) ∧ ∀ c ∈ back, p c
  first : ∀ c ∈ core.head?, p c = false
  last : ∀ c ∈ core.getLast?, p c = false

theorem rdropWhile_blanks {back : List α} (blank : ∀ c ∈ back, p c) (l : List α) :
    (l ++ back).rdropWhile p = l.rdropWhile p := by
  have reversed : ∀ c ∈ back.reverse, p c := fun c member => blank c (List.mem_reverse.mp member)
  rw [List.rdropWhile, List.reverse_append, List.dropWhile_append_of_pos reversed,
    List.rdropWhile]

/-- What is left of a front of blanks and a text that ends with none. -/
theorem dropWhile_last {l : List α} (last : ∀ c ∈ l.getLast?, p c = false) :
    ∀ c ∈ (l.dropWhile p).getLast?, p c = false := by
  intro c member
  apply last
  obtain ⟨front, whole⟩ := List.dropWhile_suffix p (l := l)
  cases rest : l.dropWhile p with
  | nil =>
    rw [rest] at member
    cases member
  | cons d rest' =>
    rw [rest] at member whole
    rw [← whole, List.getLast?_append, member]
    rfl

/-- Dropping the blanks at the end and then those at the front is what trimming means. -/
theorem trimmed_iff {l core : List α} :
    Trimmed p l core ↔ (l.rdropWhile p).dropWhile p = core := by
  constructor
  · rintro ⟨⟨front, back, rfl, frontBlank, backBlank⟩, first, last⟩
    rw [rdropWhile_blanks backBlank]
    cases core with
    | nil =>
      rw [List.append_nil, List.rdropWhile_eq_nil_iff.mpr frontBlank, List.dropWhile_nil]
    | cons c core =>
      have firstStays : ¬p c := by simp [first c rfl]
      have lastStays : ∀ nonempty, ¬p ((front ++ c :: core).getLast nonempty) := by
        intro nonempty
        rw [List.getLast_append_of_ne_nil nonempty (List.cons_ne_nil c core)]
        simp [last _ (List.getLast?_eq_some_getLast (List.cons_ne_nil c core))]
      rw [List.rdropWhile_eq_self_iff.mpr lastStays, List.dropWhile_append_of_pos frontBlank,
        List.dropWhile_cons_of_neg firstStays]
  · rintro rfl
    have kept := List.rdropWhile_append_rtakeWhile (p := p) (l := l)
    have left := List.takeWhile_append_dropWhile (p := p) (l := l.rdropWhile p)
    constructor
    case around =>
      refine ⟨(l.rdropWhile p).takeWhile p, l.rtakeWhile p, ?_, ?_, ?_⟩
      · rw [left, kept]
      · exact fun c member => List.mem_takeWhile_imp member
      · exact fun c member => List.mem_rtakeWhile_imp member
    case first =>
      intro c member
      have := List.head?_dropWhile_not p (l.rdropWhile p)
      rw [member] at this
      simpa using this
    case last =>
      apply dropWhile_last
      intro c member
      cases rest : l.rdropWhile p with
      | nil =>
        rw [rest] at member
        cases member
      | cons d rest' =>
        have ends := List.rdropWhile_last_not p l (by rw [rest]; exact List.cons_ne_nil d rest')
        rw [List.getLast?_eq_some_getLast (by rw [rest]; exact List.cons_ne_nil d rest')] at member
        cases member
        simpa using ends

/-! ### Words -/

/-- The maximal runs of characters that are no separators, in order. -/
def words (sep : α → Bool) (l : List α) : List (List α) :=
  (l.splitOnP sep).filter (!·.isEmpty)

variable {sep : α → Bool}

theorem words_nil : words sep ([] : List α) = [] := rfl

theorem words_separator {c : α} (separates : sep c = true) (rest : List α) :
    words sep (c :: rest) = words sep rest := by
  have pieces := List.splitOnP_append_cons [] rest separates
  rw [List.nil_append] at pieces
  rw [words, pieces, List.filter_append]
  rfl

theorem words_separators {gap : List α} (separate : ∀ c ∈ gap, sep c = true) (rest : List α) :
    words sep (gap ++ rest) = words sep rest := by
  induction gap with
  | nil => rfl
  | cons c gap ih =>
    rw [List.cons_append, words_separator (separate c List.mem_cons_self)]
    exact ih fun d member => separate d (List.mem_cons_of_mem c member)

theorem words_single {w : List α} (inside : ∀ c ∈ w, sep c = false) (nonempty : w ≠ []) :
    words sep w = [w] := by
  rw [words, List.splitOnP_eq_singleton inside]
  simp [nonempty]

/-- A word ends at the first separator after it. -/
theorem words_cons {w : List α} {c : α} (inside : ∀ c ∈ w, sep c = false) (nonempty : w ≠ [])
    (separates : sep c = true) (rest : List α) :
    words sep (w ++ c :: rest) = w :: words sep rest := by
  rw [words, List.splitOnP_append_cons_of_forall_mem inside c separates, List.filter_cons,
    if_pos (by simpa using nonempty)]
  rfl

end Text
