import ObjcBinding.Store.Interner

/-!
# The symbols of an interner

Whatever is interned in a new interner, texts and symbols correspond to each other. The texts of
all calls, in order and behind the reserved names, tell the whole interner: its symbols number the
distinct ones among them in the order of their first appearance.

* `Interner.texts_intern`: a call puts its text at the end, unless it is kept already;
* `Interner.Kept`: what the calls tell of the interner, kept by every call;
* `interner_bijective`: the texts and the symbols correspond, through all later calls.
-/

namespace ObjcBinding

/-- Appending one element adds it to the distinct ones, unless it is among them. -/
theorem eraseDups_concat {α : Type} [DecidableEq α] (l : List α) (a : α) :
    (l ++ [a]).eraseDups = if a ∈ l.eraseDups then l.eraseDups else l.eraseDups ++ [a] := by
  rw [List.eraseDups_append]
  simp only [List.mem_eraseDups]
  by_cases ha : a ∈ l
  · simp [List.removeAll, ha]
  · simp [List.removeAll, List.eraseDups_cons, ha]

namespace Interner

/-! ## Calls -/

theorem texts_intern (t : Interner) (s : String) :
    (t.intern s).2.texts.toList =
      if s ∈ t.texts.toList then t.texts.toList else t.texts.toList ++ [s] := by
  cases h : t.find? s with
  | some k =>
    have hs : s ∈ t.texts.toList :=
      Array.mem_toList_iff.2 (Array.mem_of_getElem? (find?_eq_some_iff.1 h))
    rw [intern_of_some h, if_pos hs]
  | none => rw [(intern_of_none h).2, if_neg (find?_eq_none_iff.1 h), Array.toList_push]

theorem lt_size_of_resolve {t : Interner} {k : Symbol} {s : String} (h : t.resolve k = some s) :
    k.id < t.size :=
  (Array.getElem?_eq_some_iff.1 h).1

/-- The texts that were interned so far, in order and each with its symbol, and the interner that
the calls leave behind. -/
structure Ledger where
  answered : List (String × Symbol) := []
  names : Interner := .initial

namespace Ledger

/-- Interns one more text. -/
def call (l : Ledger) (s : String) : Ledger where
  answered := l.answered ++ [(s, (l.names.intern s).1)]
  names := (l.names.intern s).2

/-- The ledger of texts that are interned one after another in a new interner. -/
def ofTexts (texts : List String) : Ledger := texts.foldl call {}

theorem answered_subset (l : Ledger) (later : List String) :
    l.answered ⊆ (later.foldl call l).answered := by
  induction later generalizing l with
  | nil => exact List.Subset.refl _
  | cons s later ih => exact List.Subset.trans (List.subset_append_left ..) (ih (l.call s))

end Ledger

/-! ## What the calls tell of the interner -/

/-- After the calls for `texts` each symbol of a call stands for the text of the call, and the
interner keeps the reserved names and these texts, each where it first appeared. -/
structure Kept (texts : List String) (l : Ledger) : Prop where
  calls : l.answered.map Prod.fst = texts
  stands (s : String) (k : Symbol) : (s, k) ∈ l.answered → l.names.resolve k = some s
  listed : l.names.texts.toList = (reservedNames ++ texts).eraseDups

namespace Kept

variable {texts : List String} {l : Ledger} {s : String} {k : Symbol}

theorem start : Kept [] {} where
  calls := rfl
  stands _ _ hm := nomatch hm
  listed := by decide

theorem call (h : Kept texts l) (s : String) : Kept (texts ++ [s]) (l.call s) where
  calls := by rw [Ledger.call, List.map_append, h.calls, List.map_singleton]
  stands r k hm := by
    rcases List.mem_append.1 hm with hm | hm
    · exact resolve_intern_of_some (h.stands r k hm) s
    · rw [List.mem_singleton, Prod.mk.injEq] at hm
      obtain ⟨rfl, rfl⟩ := hm
      exact l.names.resolve_intern r
  listed := by
    rw [← List.append_assoc, eraseDups_concat, ← h.listed]
    exact l.names.texts_intern s

theorem calls_append (h : Kept texts l) (later : List String) :
    Kept (texts ++ later) (later.foldl Ledger.call l) := by
  induction later generalizing texts l with
  | nil => rwa [List.append_nil]
  | cons s later ih =>
    rw [List.append_cons]
    exact ih (h.call s)

theorem size_eq (h : Kept texts l) :
    l.names.size = (reservedNames ++ texts).eraseDups.length := by
  rw [size, ← Array.length_toList, h.listed]

/-- A symbol is the position of its text among the distinct ones. -/
theorem resolve_eq (h : Kept texts l) (k : Symbol) :
    l.names.resolve k = (reservedNames ++ texts).eraseDups[k.id]? := by
  rw [resolve, ← Array.getElem?_toList, h.listed]

theorem find?_eq_none_iff (h : Kept texts l) :
    l.names.find? s = none ↔ s ∉ reservedNames ∧ s ∉ texts := by
  rw [Interner.find?_eq_none_iff, h.listed, List.mem_eraseDups, List.mem_append, not_or]

/-- Two calls have one symbol exactly if they are for one text. -/
theorem symbol_eq_iff (h : Kept texts l) {a b : String × Symbol} (ha : a ∈ l.answered)
    (hb : b ∈ l.answered) : a.2 = b.2 ↔ a.1 = b.1 := by
  have hra := h.stands a.1 a.2 ha
  have hrb := h.stands b.1 b.2 hb
  constructor
  · intro heq
    rw [heq] at hra
    exact Option.some.inj (hra.symm.trans hrb)
  · intro heq
    rw [heq] at hra
    exact Option.some.inj ((find?_eq_some_iff.2 hra).symm.trans (find?_eq_some_iff.2 hrb))

theorem lt_placeholder (h : Kept texts l)
    (hfew : (reservedNames ++ texts).eraseDups.length < 0xFFFFFFFF) (hk : (s, k) ∈ l.answered) :
    k.id < Symbol.placeholder.id := by
  have hlt := lt_size_of_resolve (h.stands s k hk)
  rw [h.size_eq] at hlt
  exact Nat.lt_trans hlt hfew

end Kept

theorem kept_ofTexts (texts : List String) : Kept texts (Ledger.ofTexts texts) :=
  Kept.start.calls_append texts

end Interner

open Interner in
/-- For any calls to a new interner that leave it with less than 2³² - 1 distinct texts: every call
is answered, and two calls have one symbol exactly if they are for one text; the symbol of a call
gives back the text, then and after any later calls; a text is found under exactly the symbol that
gives it back, and under none exactly if it is neither reserved nor interned; there are as many
symbols as distinct texts, the reserved ones among them, numbered in the order in which the texts
first appeared; the placeholder is never issued; and exactly the symbols of reserved names are
reserved. -/
theorem interner_bijective (texts : List String)
    (hfew : (reservedNames ++ texts).eraseDups.length < 0xFFFFFFFF) :
    let l := Ledger.ofTexts texts
    l.answered.map Prod.fst = texts ∧
    (∀ a ∈ l.answered, ∀ b ∈ l.answered, a.2 = b.2 ↔ a.1 = b.1) ∧
    (∀ earlier later, earlier ++ later = texts → ∀ a ∈ (Ledger.ofTexts earlier).answered,
      a ∈ l.answered ∧ (Ledger.ofTexts earlier).names.resolve a.2 = some a.1 ∧
        l.names.resolve a.2 = some a.1) ∧
    (∀ s k, l.names.find? s = some k ↔ l.names.resolve k = some s) ∧
    (∀ s, l.names.find? s = none ↔ s ∉ reservedNames ∧ s ∉ texts) ∧
    l.names.size = (reservedNames ++ texts).eraseDups.length ∧
    (∀ k, l.names.resolve k = (reservedNames ++ texts).eraseDups[k.id]?) ∧
    (∀ a ∈ l.answered, a.2.id < Symbol.placeholder.id ∧ a.2.isPlaceholder = false) ∧
    ∀ k, l.names.isReserved k = true ↔ ∃ s ∈ reservedNames, l.names.resolve k = some s := by
  intro l
  have hl : Kept texts l := kept_ofTexts texts
  refine ⟨hl.calls, fun a ha b hb => hl.symbol_eq_iff ha hb, ?_, fun s k => find?_eq_some_iff,
    fun s => hl.find?_eq_none_iff, hl.size_eq, hl.resolve_eq, fun a ha => ?_,
    fun k => isReserved_iff⟩
  · rintro earlier later rfl a ha
    have hmem : a ∈ l.answered := by
      have hsub := (Ledger.ofTexts earlier).answered_subset later
      rw [Ledger.ofTexts, ← List.foldl_append] at hsub
      exact hsub ha
    exact ⟨hmem, (kept_ofTexts earlier).stands a.1 a.2 ha, hl.stands a.1 a.2 hmem⟩
  · have hlt := hl.lt_placeholder hfew ha
    refine ⟨hlt, decide_eq_false fun heq => ?_⟩
    rw [heq] at hlt
    exact Nat.lt_irrefl _ hlt

/-- A new text, a reserved name, the same text again, and the empty one. -/
def repeatedTexts : List String := ["frame", "init", "frame", ""]

open Interner in
theorem interner_bijective_repeated :
    let l := Ledger.ofTexts repeatedTexts
    (reservedNames ++ repeatedTexts).eraseDups.length < 0xFFFFFFFF ∧
      l.answered.map Prod.snd = [⟨5⟩, ⟨2⟩, ⟨5⟩, ⟨6⟩] ∧ l.names.size = 7 ∧
      ∀ k, l.names.isReserved k = true ↔ ∃ s ∈ reservedNames, l.names.resolve k = some s := by
  have hfew : (reservedNames ++ repeatedTexts).eraseDups.length < 0xFFFFFFFF := by decide +kernel
  obtain ⟨-, -, -, -, -, hsize, -, -, hreserved⟩ := interner_bijective repeatedTexts hfew
  exact ⟨hfew, by decide +kernel, hsize.trans (by decide +kernel), hreserved⟩

end ObjcBinding
