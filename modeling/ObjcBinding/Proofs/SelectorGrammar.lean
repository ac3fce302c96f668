import ObjcBinding.Selector.Grammar

/-!
# The texts that are selectors

The grammar of selectors, written down by itself: an identifier, or at least one identifier each
with a colon after it. Reading a text as a selector accepts exactly the texts of the grammar.

* `Selector.isIdentifier_iff`: the check of a word decides the grammar of identifiers;
* `Selector.arity_of_words`: words that each have a colon after them are read as these words;
* `arity_grammar`: the answer to every text.
-/

namespace ObjcBinding

namespace Selector

/-! ## Words -/

/-- An ASCII letter or an underscore. -/
def WordStart (c : Char) : Prop := 'A' ≤ c ∧ c ≤ 'Z' ∨ 'a' ≤ c ∧ c ≤ 'z' ∨ c = '_'

/-- A letter or underscore first, then letters, underscores and ASCII digits. -/
inductive IsWord : List Char → Prop where
  | mk {c : Char} {cs : List Char} (first : WordStart c)
      (rest : ∀ d ∈ cs, WordStart d ∨ '0' ≤ d ∧ d ≤ '9') : IsWord (c :: cs)

/-- The words, each with a colon after it. -/
def keywords (words : List (List Char)) : List Char := words.flatMap (· ++ [':'])

/-- The grammar: a text of characters is a selector of so many arguments. -/
inductive IsSelector : Nat → List Char → Prop where
  | word {cs : List Char} : IsWord cs → IsSelector 0 cs
  | keywords {words : List (List Char)} : 1 ≤ words.length → (∀ w ∈ words, IsWord w) →
      IsSelector words.length (keywords words)

theorem wordStart_iff (c : Char) : (c.isAlpha || c == '_') = true ↔ WordStart c := by
  delta Char.isAlpha Char.isUpper Char.isLower
  simp only [Bool.or_eq_true, Bool.and_eq_true, decide_eq_true_eq, beq_iff_eq, or_assoc]
  exact Iff.rfl

theorem wordRest_iff (c : Char) :
    (c.isAlphanum || c == '_') = true ↔ WordStart c ∨ '0' ≤ c ∧ c ≤ '9' := by
  rw [← wordStart_iff, Char.isAlphanum, Bool.or_right_comm, Bool.or_eq_true]
  refine or_congr_right ?_
  simp only [Char.isDigit, Bool.and_eq_true, decide_eq_true_eq]
  exact Iff.rfl

theorem isIdentifier_iff (cs : List Char) : isIdentifier cs = true ↔ IsWord cs := by
  cases cs with
  | nil => exact ⟨nofun, nofun⟩
  | cons c cs =>
    simp only [isIdentifier, Bool.and_eq_true, List.all_eq_true, wordStart_iff, wordRest_iff]
    constructor
    · rintro ⟨first, rest⟩
      exact ⟨first, rest⟩
    · rintro ⟨first, rest⟩
      exact ⟨first, rest⟩

instance : DecidablePred IsWord := fun cs => decidable_of_iff _ (isIdentifier_iff cs)

theorem IsWord.colon_notMem {cs : List Char} (h : IsWord cs) : ':' ∉ cs :=
  colon_notMem_of_isIdentifier ((isIdentifier_iff cs).2 h)

theorem segmentFault?_eq_none_iff {segment : List Char} :
    segmentFault? segment = none ↔ isIdentifier segment = true := by
  cases segment with
  | nil => exact ⟨nofun, nofun⟩
  | cons c cs =>
    rw [segmentFault?, if_neg (List.cons_ne_nil c cs)]
    by_cases h : isIdentifier (c :: cs) = true
    · simp [h]
    · simp [h]

/-! ## Reading -/

theorem arity_of_colon_notMem {text : String} {n : Nat} (h : ':' ∉ text.toList) :
    arity text = .ok n ↔ n = 0 ∧ isIdentifier text.toList = true := by
  simp only [arity, h, not_false_eq_true, if_true]
  by_cases hne : text.toList = []
  · rw [if_pos hne, hne]
    refine iff_of_false (fun hread => ?_) fun hword => ?_
    · cases hread
    · cases hword.2
  · rw [if_neg hne]
    by_cases hw : isIdentifier text.toList = true
    · rw [if_pos hw]
      simp [hw, eq_comm]
    · rw [if_neg hw]
      simp [hw]

theorem getLast?_keywords {words : List (List Char)} (hne : words ≠ []) :
    (keywords words).getLast? = some ':' := by
  obtain rfl | ⟨before, last, rfl⟩ := List.eq_nil_or_concat words
  · exact absurd rfl hne
  · rw [keywords, List.concat_eq_append, List.flatMap_append, List.flatMap_singleton,
      ← List.append_assoc, List.getLast?_concat]

/-- A text of words without colons, each with a colon after it, has one argument for each word,
provided that the words are identifiers. -/
theorem arity_of_words {text : String} {words : List (List Char)} {n : Nat} (hne : words ≠ [])
    (hwords : ∀ w ∈ words, ':' ∉ w) (htext : text.toList = keywords words) :
    arity text = .ok n ↔ n = words.length ∧ ∀ w ∈ words, isIdentifier w = true := by
  have hlast := getLast?_keywords hne
  have hcolon : ':' ∈ keywords words := List.mem_of_getLast? hlast
  have hpieces : Text.pieces ':' (keywords words).dropLast = words :=
    Text.pieces_dropLast_flatMap hne hwords
  simp only [arity, htext, List.ne_nil_of_mem hcolon, hcolon, hlast, hpieces, not_true_eq_false,
    ne_eq, if_false]
  cases hfault : words.findSome? segmentFault? with
  | none =>
    simp only [List.findSome?_eq_none_iff, segmentFault?_eq_none_iff] at hfault
    simp only [Except.ok.injEq]
    exact ⟨fun h => ⟨h.symm, hfault⟩, fun h => h.1.symm⟩
  | some fault =>
    refine iff_of_false (fun hread => ?_) fun h => ?_
    · cases hread
    · obtain ⟨w, hw, hf⟩ := List.exists_of_findSome?_eq_some hfault
      rw [segmentFault?_eq_none_iff.2 (h.2 w hw)] at hf
      cases hf

/-- Whatever is read as a selector follows the grammar. -/
theorem isSelector_of_arity {text : String} {n : Nat} (h : arity text = .ok n) :
    IsSelector n text.toList := by
  by_cases hcolon : ':' ∈ text.toList
  · -- The last colon closes the last word; the words are the pieces of the rest.
    have hlast : text.toList.getLast? = some ':' := by
      refine Decidable.byContradiction fun hlast => ?_
      simp [arity, List.ne_nil_of_mem hcolon, hcolon, hlast] at h
    obtain ⟨before, hbefore⟩ := List.getLast?_eq_some_iff.1 hlast
    have htext : text.toList = keywords (Text.pieces ':' before) := by
      rw [hbefore, keywords, Text.flatMap_pieces]
    obtain ⟨rfl, hwords⟩ := (arity_of_words (Text.pieces_ne_nil ':' before)
      (fun _ => Text.notMem_of_mem_pieces) htext).1 h
    rw [htext]
    exact .keywords (List.length_pos_iff.2 (Text.pieces_ne_nil ':' before))
      fun w hw => (isIdentifier_iff w).1 (hwords w hw)
  · obtain ⟨rfl, hw⟩ := (arity_of_colon_notMem hcolon).1 h
    exact .word ((isIdentifier_iff _).1 hw)

/-- Whatever follows the grammar is read as a selector. -/
theorem arity_of_isSelector {text : String} {n : Nat} (h : IsSelector n text.toList) :
    arity text = .ok n := by
  generalize hcs : text.toList = cs at h
  cases h with
  | word hw =>
    subst hcs
    exact (arity_of_colon_notMem hw.colon_notMem).2 ⟨rfl, (isIdentifier_iff _).2 hw⟩
  | keywords hpos hwords =>
    exact (arity_of_words (List.ne_nil_of_length_pos hpos)
      (fun w hw => (hwords w hw).colon_notMem) hcs).2
      ⟨rfl, fun w hw => (isIdentifier_iff w).2 (hwords w hw)⟩

end Selector

open Selector in
/-- A text is read as a selector of `n` arguments exactly if it is one by the grammar: one
identifier without arguments, or `n` identifiers, at least one, each with a colon after it. Every
other text is refused, and the number of arguments is the number of colons. -/
theorem arity_grammar (text : String) :
    (∀ n, arity text = .ok n ↔ IsSelector n text.toList) ∧
    ((∃ fault, arity text = .error fault) ↔ ∀ n, ¬IsSelector n text.toList) ∧
    ∀ n, arity text = .ok n → n = text.toList.count ':' := by
  have hread : ∀ n, arity text = .ok n ↔ IsSelector n text.toList :=
    fun n => ⟨isSelector_of_arity, arity_of_isSelector⟩
  refine ⟨hread, ?_, fun n => arity_eq_count⟩
  simp only [← hread]
  cases arity text with
  | ok n => simp
  | error fault => simp

open Selector in
theorem arity_grammar_insert :
    arity "insert:at_1:" = .ok 2 ∧ IsSelector 2 "insert:at_1:".toList ∧
      2 = "insert:at_1:".toList.count ':' := by
  have hread : arity "insert:at_1:" = .ok 2 := by rfl
  obtain ⟨hgrammar, -, hcount⟩ := arity_grammar "insert:at_1:"
  exact ⟨hread, (hgrammar 2).1 hread, hcount 2 hread⟩

end ObjcBinding
