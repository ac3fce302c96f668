/-!
# Sets of characters as ranges of code points

A Unicode property is given by the inclusive ranges of the code points that have it.

* `inRanges` decides whether a code point lies in one of the ranges;
* `inRanges_iff`: it does exactly if some listed range bounds it from both sides;
* `inRanges_of_lt`: it does not if every range starts above it.
-/

namespace ObjcBinding.Text

/-- Whether `code` lies in one of the inclusive `ranges`. -/
def inRanges (ranges : List (Nat × Nat)) (code : Nat) : Bool :=
  ranges.any fun r => r.1 ≤ code && code ≤ r.2

theorem inRanges_iff {ranges : List (Nat × Nat)} {code : Nat} :
    inRanges ranges code = true ↔ ∃ r ∈ ranges, r.1 ≤ code ∧ code ≤ r.2 := by
  simp [inRanges]

theorem inRanges_of_lt {ranges : List (Nat × Nat)} {code : Nat}
    (h : ∀ r ∈ ranges, code < r.1) : inRanges ranges code = false := by
  rw [Bool.eq_false_iff]
  intro hc
  obtain ⟨r, hr, hl, -⟩ := inRanges_iff.1 hc
  exact Nat.not_lt.2 hl (h r hr)

end ObjcBinding.Text
