import ObjcBinding.Text.Ranges

/-!
# Blank characters and trimming

Blank are the characters of the Unicode property `White_Space`, among them the no-break space
and the ideographic space, but not the zero-width space.

* `trim` removes the blanks at both ends of a text;
* `trimEnd_append`: what is removed at the end is a run of the given class, and what stays does
  not end in it (`getLast?_trimEnd`);
* `trimEnd_append_run`, `trim_ofList`: nothing else is left of a text and a run after it, or of a
  text and blanks around it.
-/

namespace ObjcBinding.Text

/-- Code points with the property `White_Space`. -/
def blankRanges : List (Nat × Nat) :=
  [(0x9, 0xD), (0x20, 0x20), (0x85, 0x85), (0xA0, 0xA0), (0x1680, 0x1680), (0x2000, 0x200A),
  (0x2028, 0x2029), (0x202F, 0x202F), (0x205F, 0x205F), (0x3000, 0x3000)]

/-- Whether `c` separates words without being seen. -/
def isBlank (c : Char) : Bool := inRanges blankRanges c.toNat

/-- Core's blanks, a subset of ASCII, are blank. -/
theorem isBlank_of_isWhitespace {c : Char} (h : c.isWhitespace = true) : isBlank c = true := by
  simp only [Char.isWhitespace, Bool.or_eq_true, decide_eq_true_eq] at h
  rcases h with ((h | h) | h) | h <;> subst h <;> decide

/-- `cs` without the longest run of `p` at its end. -/
def trimEnd (p : Char → Bool) (cs : List Char) : List Char := (cs.reverse.dropWhile p).reverse

theorem trimEnd_append (p : Char → Bool) (cs : List Char) :
    trimEnd p cs ++ (cs.reverse.takeWhile p).reverse = cs := by
  rw [trimEnd, ← List.reverse_append, List.takeWhile_append_dropWhile, List.reverse_reverse]

/-- What is left after trimming the end does not end in the class. -/
theorem getLast?_trimEnd {p : Char → Bool} {cs : List Char} {c : Char}
    (h : (trimEnd p cs).getLast? = some c) : p c = false := by
  rw [trimEnd, List.getLast?_reverse] at h
  have := List.head?_dropWhile_not p cs.reverse
  rw [h] at this
  exact this

theorem forall_mem_takeWhile_reverse (p : Char → Bool) (cs : List Char) :
    ∀ c ∈ (cs.reverse.takeWhile p).reverse, p c = true := by
  intro c hc
  exact List.all_eq_true.1 List.all_takeWhile c (List.mem_reverse.1 hc)

/-- A run of the class is trimmed down to what stands before it. -/
theorem trimEnd_append_run {p : Char → Bool} {cs run : List Char}
    (hcs : ∀ c, cs.getLast? = some c → p c = false) (hrun : ∀ c ∈ run, p c = true) :
    trimEnd p (cs ++ run) = cs := by
  have hrun : ∀ c ∈ run.reverse, p c = true := fun c hc => hrun c (List.mem_reverse.1 hc)
  rw [trimEnd, List.reverse_append, List.dropWhile_append_of_pos hrun, List.reverse_eq_iff]
  rw [← List.head?_reverse] at hcs
  cases h : cs.reverse with
  | nil => rfl
  | cons c cs' =>
    rw [h] at hcs
    rw [List.dropWhile_cons_of_neg (by rw [hcs c rfl]; exact Bool.false_ne_true)]

theorem head?_trimEnd {p : Char → Bool} {cs : List Char} {c : Char}
    (h : (trimEnd p cs).head? = some c) : cs.head? = some c := by
  rw [← trimEnd_append p cs, List.head?_append, h]
  rfl

/-- `s` without the blanks at its ends. -/
def trim (s : String) : String := String.ofList (trimEnd isBlank (s.toList.dropWhile isBlank))

/-- A text without blanks has none at its ends. -/
theorem trim_eq_self {s : String} (h : ∀ c ∈ s.toList, isBlank c = false) :
    trim s = s := by
  have hnone : ∀ cs : List Char, (∀ c ∈ cs, isBlank c = false) → cs.dropWhile isBlank = cs := by
    intro cs hcs
    cases cs with
    | nil => rfl
    | cons c cs => rw [List.dropWhile_cons_of_neg (by simp [hcs c])]
  rw [trim, trimEnd, hnone _ h, hnone _ (by simpa using h), List.reverse_reverse,
    String.ofList_toList]

/-- A text that neither starts nor ends with a blank is what is left of it and blanks around. -/
theorem trim_ofList {before core after : List Char} (hbefore : ∀ c ∈ before, isBlank c = true)
    (hafter : ∀ c ∈ after, isBlank c = true)
    (hhead : ∀ c, core.head? = some c → isBlank c = false)
    (hlast : ∀ c, core.getLast? = some c → isBlank c = false) :
    trim (String.ofList (before ++ core ++ after)) = String.ofList core := by
  rw [trim, String.toList_ofList, List.append_assoc, List.dropWhile_append_of_pos hbefore]
  cases core with
  | nil =>
    rw [List.nil_append, ← List.append_nil after, List.dropWhile_append_of_pos hafter]
    rfl
  | cons c cs =>
    have hc : ¬ isBlank c = true := Bool.eq_false_iff.1 (hhead c rfl)
    rw [List.cons_append, List.dropWhile_cons_of_neg hc, ← List.cons_append,
      trimEnd_append_run hlast hafter]

end ObjcBinding.Text
