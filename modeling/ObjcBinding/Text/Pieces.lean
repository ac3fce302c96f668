/-!
# Splitting a text at a separator

A text with `n` separators has `n + 1` pieces, some of them possibly empty.

* `intercalate_pieces`: the pieces joined by the separator are the text again;
* `notMem_of_mem_pieces`: no piece holds the separator;
* `pieces_append_cons`: a text up to its first separator is its first piece;
* `length_pieces`: there is one piece more than there are separators;
* `flatMap_pieces`, `pieces_dropLast_flatMap`: between pieces and parts that each end with a
  separator;
* `pieces_intercalate`: parts without the separator are the pieces of what they are joined to.
-/

namespace ObjcBinding.Text

/-- The maximal parts of `cs` between the occurrences of `sep`. -/
def pieces (sep : Char) : List Char → List (List Char)
  | [] => [[]]
  | c :: cs =>
    if c = sep then [] :: pieces sep cs
    else match pieces sep cs with
      | [] => [[c]]
      | p :: ps => (c :: p) :: ps

theorem pieces_ne_nil (sep : Char) (cs : List Char) : pieces sep cs ≠ [] := by
  cases cs with
  | nil => simp [pieces]
  | cons c cs =>
    unfold pieces
    split
    · simp
    · split <;> simp

/-- The first piece of a text that starts with `c`, the separator excluded, starts with `c`. -/
theorem pieces_cons {sep c : Char} (h : c ≠ sep) (cs : List Char) :
    ∃ p ps, pieces sep cs = p :: ps ∧ pieces sep (c :: cs) = (c :: p) :: ps := by
  cases hp : pieces sep cs with
  | nil => exact absurd hp (pieces_ne_nil sep cs)
  | cons p ps => exact ⟨p, ps, rfl, by simp [pieces, h, hp]⟩

theorem pieces_cons_self (sep : Char) (cs : List Char) :
    pieces sep (sep :: cs) = [] :: pieces sep cs := by
  simp [pieces]

theorem pieces_of_notMem {sep : Char} {cs : List Char} (h : sep ∉ cs) : pieces sep cs = [cs] := by
  induction cs with
  | nil => rfl
  | cons c cs ih =>
    rw [List.mem_cons, not_or] at h
    rw [pieces, if_neg (Ne.symm h.1), ih h.2]

theorem pieces_append_cons {sep : Char} {p : List Char} (h : sep ∉ p) (rest : List Char) :
    pieces sep (p ++ sep :: rest) = p :: pieces sep rest := by
  induction p with
  | nil => exact pieces_cons_self sep rest
  | cons c cs ih =>
    rw [List.mem_cons, not_or] at h
    rw [List.cons_append, pieces, if_neg (Ne.symm h.1), ih h.2]

theorem length_pieces (sep : Char) (cs : List Char) :
    (pieces sep cs).length = cs.count sep + 1 := by
  induction cs with
  | nil => rfl
  | cons c cs ih =>
    by_cases h : c = sep
    · subst h
      rw [pieces_cons_self, List.length_cons, ih, List.count_cons_self]
    · obtain ⟨p, ps, hp, hc⟩ := pieces_cons h cs
      rw [hp] at ih
      rw [hc, List.count_cons_of_ne h]
      exact ih

theorem intercalate_pieces (sep : Char) (cs : List Char) :
    [sep].intercalate (pieces sep cs) = cs := by
  induction cs with
  | nil => rfl
  | cons c cs ih =>
    by_cases h : c = sep
    · subst h
      rw [pieces_cons_self]
      cases hp : pieces c cs with
      | nil => exact absurd hp (pieces_ne_nil c cs)
      | cons p ps => rw [hp] at ih; simpa [List.intercalate, List.intersperse] using ih
    · obtain ⟨p, ps, hp, hc⟩ := pieces_cons h cs
      rw [hp] at ih
      rw [hc]
      cases ps with
      | nil => simpa [List.intercalate, List.intersperse] using ih
      | cons q qs => simpa [List.intercalate, List.intersperse] using ih

theorem notMem_of_mem_pieces {sep : Char} {cs p : List Char} (h : p ∈ pieces sep cs) :
    sep ∉ p := by
  induction cs generalizing p with
  | nil => simp_all [pieces]
  | cons c cs ih =>
    by_cases hc : c = sep
    · subst hc
      rw [pieces_cons_self, List.mem_cons] at h
      rcases h with rfl | h
      · simp
      · exact ih h
    · obtain ⟨q, qs, hq, hcs⟩ := pieces_cons hc cs
      rw [hcs, List.mem_cons] at h
      rcases h with rfl | h
      · intro hm
        rcases List.mem_cons.1 hm with e | hm
        · exact hc e.symm
        · exact ih (hq ▸ List.mem_cons_self) hm
      · exact ih (hq ▸ List.mem_cons_of_mem _ h)

/-- The pieces, each with a separator after it, are the text and one more separator. -/
theorem flatMap_pieces (sep : Char) (cs : List Char) :
    (pieces sep cs).flatMap (· ++ [sep]) = cs ++ [sep] := by
  induction cs with
  | nil => simp [pieces]
  | cons c cs ih =>
    by_cases h : c = sep
    · subst h
      rw [pieces_cons_self, List.flatMap_cons, ih]
      rfl
    · obtain ⟨p, ps, hp, hc⟩ := pieces_cons h cs
      rw [hp, List.flatMap_cons] at ih
      rw [hc, List.flatMap_cons, List.cons_append, List.cons_append, List.cons_append, ih]

/-- A text of parts that each end with a separator, and a rest without one. -/
theorem pieces_flatMap_append {sep : Char} {parts : List (List Char)} {last : List Char}
    (h : ∀ p ∈ parts, sep ∉ p) (hlast : sep ∉ last) :
    pieces sep (parts.flatMap (· ++ [sep]) ++ last) = parts ++ [last] := by
  induction parts with
  | nil => exact pieces_of_notMem hlast
  | cons p parts ih =>
    obtain ⟨hp, hparts⟩ := List.forall_mem_cons.1 h
    rw [List.flatMap_cons, List.append_assoc, List.append_assoc, List.singleton_append,
      pieces_append_cons hp, ih hparts, List.cons_append]

theorem intercalate_cons (sep : Char) (p : List Char) {parts : List (List Char)}
    (hne : parts ≠ []) : [sep].intercalate (p :: parts) = p ++ sep :: [sep].intercalate parts := by
  cases parts with
  | nil => exact absurd rfl hne
  | cons q qs => simp [List.intercalate, List.intersperse]

theorem pieces_intercalate {sep : Char} {parts : List (List Char)} (hne : parts ≠ [])
    (h : ∀ p ∈ parts, sep ∉ p) : pieces sep ([sep].intercalate parts) = parts := by
  induction parts with
  | nil => exact absurd rfl hne
  | cons p parts ih =>
    obtain ⟨hp, hparts⟩ := List.forall_mem_cons.1 h
    cases parts with
    | nil => simpa [List.intercalate] using pieces_of_notMem hp
    | cons q qs =>
      rw [intercalate_cons sep p (List.cons_ne_nil q qs), pieces_append_cons hp,
        ih (List.cons_ne_nil q qs) hparts]

/-- Parts that each end with a separator are the pieces of the text without its last character. -/
theorem pieces_dropLast_flatMap {sep : Char} {parts : List (List Char)} (hne : parts ≠ [])
    (h : ∀ p ∈ parts, sep ∉ p) :
    pieces sep (parts.flatMap (· ++ [sep])).dropLast = parts := by
  obtain rfl | ⟨before, last, rfl⟩ := List.eq_nil_or_concat parts
  · exact absurd rfl hne
  · rw [List.concat_eq_append] at h ⊢
    rw [List.forall_mem_append, List.forall_mem_singleton] at h
    rw [List.flatMap_append, List.flatMap_singleton, ← List.append_assoc, List.dropLast_concat,
      pieces_flatMap_append h.1 h.2]

end ObjcBinding.Text
