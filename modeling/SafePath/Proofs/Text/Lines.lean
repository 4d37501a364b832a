import Mathlib.Data.List.Basic
import SafePath.Text.Lines

/-!
# What the lines are

`LinesOf` says which lines a sequence has, by its terminators alone: a line feed, a carriage return with the
line feed behind it, or a carriage return without one.  Cutting finds these lines and no others:

    LinesOf cr lf s lines ↔ cutLines cr lf s = lines                                    (linesOf_iff)

The lines of two sequences are those of both together if the first one ends with its last line
(`cutLines_append`).  Only where a carriage return comes before a line feed, the two are one terminator and
the empty line between them is lost.
-/

namespace SafePath

section
variable {α : Type} {cr lf : α}

/-- No terminator is in the line. -/
def Unbroken (cr lf : α) (line : List α) : Prop := cr ∉ line ∧ lf ∉ line

/-- The lines of a sequence.  Each ends with a terminator, except for the last one if something stands
behind the last terminator. -/
inductive LinesOf (cr lf : α) : List α → List (List α) → Prop
  | nil : LinesOf cr lf [] []
  | unended {line : List α} (ne : line ≠ []) (unbroken : Unbroken cr lf line) : LinesOf cr lf line [line]
  | feed {line rest : List α} {lines : List (List α)} (unbroken : Unbroken cr lf line)
    (tail : LinesOf cr lf rest lines) : LinesOf cr lf (line ++ lf :: rest) (line :: lines)
  | returnFeed {line rest : List α} {lines : List (List α)} (unbroken : Unbroken cr lf line)
    (tail : LinesOf cr lf rest lines) : LinesOf cr lf (line ++ cr :: lf :: rest) (line :: lines)
  | loneReturn {line rest : List α} {lines : List (List α)} (unbroken : Unbroken cr lf line)
    (lone : rest.head? ≠ some lf) (tail : LinesOf cr lf rest lines) :
    LinesOf cr lf (line ++ cr :: rest) (line :: lines)

theorem unbroken_nil : Unbroken cr lf [] := ⟨List.not_mem_nil, List.not_mem_nil⟩

theorem unbroken_cons_iff {c : α} {line : List α} :
    Unbroken cr lf (c :: line) ↔ (c ≠ cr ∧ c ≠ lf) ∧ Unbroken cr lf line := by
  simp only [Unbroken, List.mem_cons, not_or, ne_eq, eq_comm]
  exact and_and_and_comm

/-- The first line of a sequence grows with what stands in front. -/
theorem LinesOf.cons {c : α} (hc : c ≠ cr ∧ c ≠ lf) {s line : List α} {lines : List (List α)}
    (h : LinesOf cr lf s (line :: lines)) : LinesOf cr lf (c :: s) ((c :: line) :: lines) := by
  cases h with
  | unended ne unbroken => exact .unended (List.cons_ne_nil c _) (unbroken_cons_iff.mpr ⟨hc, unbroken⟩)
  | feed unbroken tail => exact .feed (unbroken_cons_iff.mpr ⟨hc, unbroken⟩) tail
  | returnFeed unbroken tail => exact .returnFeed (unbroken_cons_iff.mpr ⟨hc, unbroken⟩) tail
  | loneReturn unbroken lone tail => exact .loneReturn (unbroken_cons_iff.mpr ⟨hc, unbroken⟩) lone tail

variable [DecidableEq α]

theorem afterReturn_feed (rest : List α) : afterReturn lf (lf :: rest) = rest := if_pos rfl

theorem afterReturn_of_ne {rest : List α} (h : rest.head? ≠ some lf) : afterReturn lf rest = rest := if_neg h

/-! ## Cutting finds the lines -/

theorem cutLines_nil : cutLines cr lf [] = [] := by rw [cutLines]

theorem cutLines_feed (rest : List α) : cutLines cr lf (lf :: rest) = [] :: cutLines cr lf rest := by
  rw [cutLines, if_pos rfl]

theorem cutLines_return (hne : cr ≠ lf) (rest : List α) :
    cutLines cr lf (cr :: rest) = [] :: cutLines cr lf (afterReturn lf rest) := by
  rw [cutLines, if_neg hne, if_pos rfl]

theorem linesOf_cutLines (s : List α) : LinesOf cr lf s (cutLines cr lf s) := by
  induction s using cutLines.induct cr lf with
  | case1 => rw [cutLines]; exact .nil
  | case2 rest ih =>
    rw [cutLines_feed]
    exact .feed unbroken_nil ih
  | case3 rest hne ih =>
    rw [cutLines_return hne]
    by_cases h : rest.head? = some lf
    · obtain ⟨more, rfl⟩ := List.head?_eq_some_iff.mp h
      rw [afterReturn_feed] at ih ⊢
      exact .returnFeed unbroken_nil ih
    · rw [afterReturn_of_ne h] at ih ⊢
      exact .loneReturn unbroken_nil h ih
  | case4 c rest hlf hcr hnone ih =>
    rw [cutLines, if_neg hlf, if_neg hcr, hnone]
    rw [hnone] at ih
    cases ih
    exact .unended (List.cons_ne_nil c []) (unbroken_cons_iff.mpr ⟨⟨hcr, hlf⟩, unbroken_nil⟩)
  | case5 c rest hlf hcr line lines hsome ih =>
    rw [cutLines, if_neg hlf, if_neg hcr, hsome]
    rw [hsome] at ih
    exact ih.cons ⟨hcr, hlf⟩

/-- What stands in front of the first line, without a terminator, belongs to it. -/
theorem cutLines_append_of_unbroken {line : List α} (h : Unbroken cr lf line) {s first : List α}
    {lines : List (List α)} (hs : cutLines cr lf s = first :: lines) :
    cutLines cr lf (line ++ s) = (line ++ first) :: lines := by
  induction line with
  | nil => exact hs
  | cons c line ih =>
    obtain ⟨⟨hcr, hlf⟩, hline⟩ := unbroken_cons_iff.mp h
    rw [List.cons_append, cutLines, if_neg hlf, if_neg hcr, ih hline]
    rfl

theorem cutLines_of_unbroken {line : List α} (h : Unbroken cr lf line) (hne : line ≠ []) :
    cutLines cr lf line = [line] := by
  induction line with
  | nil => exact absurd rfl hne
  | cons c line ih =>
    obtain ⟨⟨hcr, hlf⟩, hline⟩ := unbroken_cons_iff.mp h
    rw [cutLines, if_neg hlf, if_neg hcr]
    cases line with
    | nil => rw [cutLines_nil]
    | cons d line => rw [ih hline (List.cons_ne_nil d line)]

section
variable (hne : cr ≠ lf)

include hne

theorem LinesOf.cutLines_eq {s : List α} {lines : List (List α)} (h : LinesOf cr lf s lines) :
    cutLines cr lf s = lines := by
  induction h with
  | nil => exact cutLines_nil
  | unended ne unbroken => exact cutLines_of_unbroken unbroken ne
  | @feed line rest lines unbroken tail ih =>
    rw [cutLines_append_of_unbroken unbroken (cutLines_feed rest), List.append_nil, ih]
  | @returnFeed line rest lines unbroken tail ih =>
    rw [cutLines_append_of_unbroken unbroken (cutLines_return hne (lf :: rest)), List.append_nil,
      afterReturn_feed, ih]
  | @loneReturn line rest lines unbroken lone tail ih =>
    rw [cutLines_append_of_unbroken unbroken (cutLines_return hne rest), List.append_nil,
      afterReturn_of_ne lone, ih]

/-- **Cutting finds the lines and no others.** -/
theorem linesOf_iff {s : List α} {lines : List (List α)} :
    LinesOf cr lf s lines ↔ cutLines cr lf s = lines :=
  ⟨LinesOf.cutLines_eq hne, fun h => h ▸ linesOf_cutLines s⟩

end

/-! ## Two sequences together -/

/-- Nothing stands behind the last terminator. -/
def Ended (cr lf : α) (s : List α) : Prop := s = [] ∨ s.getLast? = some lf ∨ s.getLast? = some cr

omit [DecidableEq α] in
theorem not_ended_of_unbroken {line : List α} (h : Unbroken cr lf line) (hne : line ≠ []) :
    ¬Ended cr lf line := by
  rintro (hnil | hlast | hlast)
  · exact hne hnil
  · exact h.2 (List.mem_of_getLast? hlast)
  · exact h.1 (List.mem_of_getLast? hlast)

omit [DecidableEq α] in
theorem Ended.of_append_cons {front rest : List α} {c : α} (h : Ended cr lf (front ++ c :: rest)) :
    Ended cr lf rest := by
  by_cases hne : rest = []
  · exact Or.inl hne
  · rw [List.append_cons, Ended, List.getLast?_append_of_ne_nil _ hne] at h
    rcases h with hnil | hlast
    · exact Or.inl (List.append_eq_nil_iff.mp hnil).2
    · exact Or.inr hlast

/-- **The lines of two sequences**, the first of which ends with its last line, are those of both together.
A line feed at the front of the second may belong to a carriage return at the end of the first; it then ends
no empty line. -/
theorem cutLines_append (hne : cr ≠ lf) {a : List α} (hended : Ended cr lf a) (b : List α) :
    cutLines cr lf (a ++ b) = cutLines cr lf a ++ cutLines cr lf b ∨
      ∃ lines, cutLines cr lf b = [] :: lines ∧ cutLines cr lf (a ++ b) = cutLines cr lf a ++ lines := by
  have ha : LinesOf cr lf a (cutLines cr lf a) := linesOf_cutLines a
  generalize cutLines cr lf a = la at ha
  simp only [← linesOf_iff hne (s := a ++ b)]
  induction ha with
  | nil => exact Or.inl (linesOf_cutLines b)
  | unended ne unbroken => exact absurd hended (not_ended_of_unbroken unbroken ne)
  | feed unbroken tail ih =>
    rw [List.append_assoc]
    rcases ih hended.of_append_cons with h | ⟨lines, hb, h⟩
    · exact Or.inl (.feed unbroken h)
    · exact Or.inr ⟨lines, hb, .feed unbroken h⟩
  | @returnFeed line rest _ unbroken tail ih =>
    have hrest : Ended cr lf ([] ++ lf :: rest) := hended.of_append_cons
    rw [List.append_assoc]
    rcases ih hrest.of_append_cons with h | ⟨lines, hb, h⟩
    · exact Or.inl (.returnFeed unbroken h)
    · exact Or.inr ⟨lines, hb, .returnFeed unbroken h⟩
  | @loneReturn line rest _ unbroken lone tail ih =>
    rw [List.append_assoc]
    cases rest with
    | cons d rest =>
      have lone : ((d :: rest) ++ b).head? ≠ some lf := lone
      rcases ih hended.of_append_cons with h | ⟨lines, hb, h⟩
      · exact Or.inl (.loneReturn unbroken lone h)
      · exact Or.inr ⟨lines, hb, .loneReturn unbroken lone h⟩
    | nil =>
      obtain rfl := cutLines_nil.symm.trans (tail.cutLines_eq hne)
      -- the return ends the first sequence, so the second one decides whether it stands alone
      by_cases hfeed : b.head? = some lf
      · obtain ⟨more, rfl⟩ := List.head?_eq_some_iff.mp hfeed
        exact Or.inr ⟨cutLines cr lf more, cutLines_feed more, .returnFeed unbroken (linesOf_cutLines more)⟩
      · exact Or.inl (.loneReturn unbroken hfeed (linesOf_cutLines b))

end

end SafePath
