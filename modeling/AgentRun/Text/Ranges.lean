/-!
# Ranges of code points

A class of characters that a standard gives as a table is kept here as a list of closed ranges of
code points, ascending and disjoint, and a class is asked about through `inRanges`.
-/

namespace AgentRun.Text

/-- Whether `n` lies in one of the ranges. The list ascends, so the search stops at the first range
that starts above `n`. -/
def inRanges (n : Nat) : List (Nat × Nat) → Bool
  | [] => false
  | (lo, hi) :: rest => decide (lo ≤ n) && (decide (n ≤ hi) || inRanges n rest)

/-- A hit of the search is a hit of one of the ranges. -/
theorem exists_of_inRanges {n : Nat} {ranges : List (Nat × Nat)} (h : inRanges n ranges = true) :
    ∃ r ∈ ranges, r.1 ≤ n ∧ n ≤ r.2 := by
  induction ranges with
  | nil => simp [inRanges] at h
  | cons r rest ih =>
    obtain ⟨lo, hi⟩ := r
    simp only [inRanges, Bool.and_eq_true, Bool.or_eq_true, decide_eq_true_eq] at h
    obtain ⟨hlo, hhi | hrest⟩ := h
    · exact ⟨(lo, hi), by simp, hlo, hhi⟩
    · obtain ⟨r, hr, hb⟩ := ih hrest
      exact ⟨r, by simp [hr], hb⟩

end AgentRun.Text
