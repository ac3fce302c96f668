/-!
# Interned names

Equal names get equal symbols, so that names are compared by number. The texts are kept in the
order of their symbols, and a map leads back from a text to its symbol. A few names that every
compilation needs are interned first.

* `find?_eq_some_iff`: looking a text up and reading a symbol back are inverse to each other;
* `indexed_push`: this remains so when a new text is put at the end;
* `isReserved_iff`: exactly the reserved names have reserved symbols;
* `resolve_intern`, `resolve_intern_of_some`: interning a text gives a symbol that reads back as
  that text, and disturbs no other symbol.
-/

namespace ObjcBinding

/-- The number of an interned text. -/
@[ext]
structure Symbol where
  id : Nat
  deriving DecidableEq, Repr, Inhabited

namespace Symbol

/-- The symbol of a declaration without a name; the largest one of 32 bits. -/
def placeholder : Symbol := ⟨0xFFFFFFFF⟩

def isPlaceholder (s : Symbol) : Bool := s = placeholder

/-- The text of a symbol, as messages show it. -/
def text (s : Symbol) : String := s!"Symbol({s.id})"

/-- Symbols are ordered by number, hence by the time of their first interning. -/
def compare (a b : Symbol) : Ordering := Ord.compare a.id b.id

end Symbol

/-- The names that are interned before all others. -/
def reservedNames : List String := ["_cmd", "self", "init", "alloc", "class"]

/-- Looking a text up among the numbered elements of a list finds its place. -/
theorem lookup_zipIdx {l : List String} (h : l.Nodup) (n : Nat) (s : String) (k : Symbol) :
    ((l.zipIdx n).map fun e => (e.1, Symbol.mk e.2)).lookup s = some k ↔
      n ≤ k.id ∧ l[k.id - n]? = some s := by
  induction l generalizing n with
  | nil => simp
  | cons a l ih =>
    obtain ⟨ha, hl⟩ := List.nodup_cons.1 h
    rw [List.zipIdx_cons, List.map_cons, List.lookup_cons]
    by_cases hs : s = a
    · -- the later places hold other texts
      subst hs
      have hlater (i : Nat) : l[i]? ≠ some s := fun hi => ha (List.mem_of_getElem? hi)
      simp only [beq_self_eq_true, Option.some.injEq, Symbol.ext_iff, List.getElem?_cons]
      constructor
      · intro hk
        simp [← hk]
      · rintro ⟨hle, hk⟩
        split at hk
        · omega
        · exact absurd hk (hlater _)
    · simp only [beq_eq_false_iff_ne.2 hs, ih hl, List.getElem?_cons]
      by_cases hk : k.id - n = 0
      · have hlt : ¬ n + 1 ≤ k.id := by omega
        simp [hk, hlt, Ne.symm hs]
      · have hle : n + 1 ≤ k.id ↔ n ≤ k.id := by omega
        rw [hle, if_neg hk, Nat.sub_add_eq]

/-- The interned texts in order of first interning, and a map that leads from a text to its
symbol. -/
structure Interner where
  texts : Array String := reservedNames.toArray
  symbols : List (String × Symbol) := reservedNames.zipIdx.map fun e => (e.1, ⟨e.2⟩)
  /-- The map leads from each text to the place where it is kept, and to no other one. -/
  indexed (s : String) (k : Symbol) : symbols.lookup s = some k ↔ texts[k.id]? = some s := by
    intro s k
    simpa using lookup_zipIdx (by decide) 0 s k
  reserved_le : reservedNames <+: texts.toList := by decide

namespace Interner

/-- The interner of a new compilation: only the reserved names. -/
def initial : Interner := {}

instance : Inhabited Interner := ⟨initial⟩

/-- The number of distinct texts. -/
def size (t : Interner) : Nat := t.texts.size

def isEmpty (t : Interner) : Bool := t.texts.isEmpty

/-- The symbol of a text that is already interned. -/
@[irreducible]
def find? (t : Interner) (s : String) : Option Symbol := t.symbols.lookup s

/-- The text of a symbol, if it was issued here. -/
def resolve (t : Interner) (k : Symbol) : Option String := t.texts[k.id]?

/-- Whether `k` stands for one of the reserved names. -/
def isReserved (_ : Interner) (k : Symbol) : Bool := k.id < reservedNames.length

theorem find?_eq_some_iff {t : Interner} {s : String} {k : Symbol} :
    t.find? s = some k ↔ t.resolve k = some s := by
  rw [find?, t.indexed, resolve]

theorem find?_eq_none_iff {t : Interner} {s : String} :
    t.find? s = none ↔ s ∉ t.texts.toList := by
  rw [Option.eq_none_iff_forall_ne_some, List.mem_iff_getElem?, not_exists]
  simp only [ne_eq, find?_eq_some_iff, resolve, Array.getElem?_toList]
  exact ⟨fun h i => h ⟨i⟩, fun h k => h k.id⟩

/-- No text is kept twice: the map leads to one place only. -/
theorem nodup (t : Interner) : t.texts.toList.Nodup := by
  refine List.pairwise_iff_getElem.2 fun i j hi hj hlt he => ?_
  have hfind (n : Nat) (hn : n < t.texts.toList.length) :
      t.find? t.texts.toList[n] = some ⟨n⟩ := by
    rw [find?_eq_some_iff, resolve, ← Array.getElem?_toList, List.getElem?_eq_getElem hn]
  have hij := hfind j hj
  rw [← he, hfind i hi, Option.some.injEq, Symbol.mk.injEq] at hij
  omega

/-- A text that is kept in no place yet is put at the end. -/
theorem indexed_push {t : Interner} {s : String} (h : t.find? s = none) (r : String)
    (k : Symbol) :
    ((s, Symbol.mk t.size) :: t.symbols).lookup r = some k ↔
      (t.texts.push s)[k.id]? = some r := by
  rw [List.lookup_cons, Array.getElem?_push]
  by_cases hk : k.id = t.texts.size
  · -- The new place: the map has led to older ones only.
    have hold : t.symbols.lookup r ≠ some k := by
      rw [ne_eq, t.indexed, hk]
      simp
    have hself : Symbol.mk t.size = k := Symbol.ext hk.symm
    by_cases hr : r = s
    · simp [hr, hk, hself]
    · rw [beq_eq_false_iff_ne.2 hr]
      simp [hk, hold, Ne.symm hr]
  · -- An older place: it does not hold the new text.
    have hself : Symbol.mk t.size ≠ k := fun he => hk (Symbol.ext_iff.1 he).symm
    rw [if_neg hk, ← t.indexed r k]
    by_cases hr : r = s
    · subst hr
      rw [find?] at h
      simp [hself, h]
    · rw [beq_eq_false_iff_ne.2 hr]

/-- The symbol of `s`, issued now if `s` was not interned before. -/
def intern (t : Interner) (s : String) : Symbol × Interner :=
  match h : t.find? s with
  | some k => (k, t)
  | none =>
    (⟨t.size⟩,
      { texts := t.texts.push s
        symbols := (s, ⟨t.size⟩) :: t.symbols
        indexed := indexed_push h
        reserved_le := by
          rw [Array.toList_push]
          exact t.reserved_le.trans (List.prefix_append ..) })

theorem intern_of_some {t : Interner} {s : String} {k : Symbol} (h : t.find? s = some k) :
    t.intern s = (k, t) := by
  unfold intern
  split
  · rename_i j hj
    rw [h] at hj
    cases hj
    rfl
  · rename_i hn
    rw [h] at hn
    cases hn

theorem intern_of_none {t : Interner} {s : String} (h : t.find? s = none) :
    (t.intern s).1 = ⟨t.size⟩ ∧ (t.intern s).2.texts = t.texts.push s := by
  unfold intern
  split
  · rename_i j hj
    rw [h] at hj
    cases hj
  · exact ⟨rfl, rfl⟩

/-- The reserved names are the first ones, and are kept nowhere else. -/
theorem isReserved_iff {t : Interner} {k : Symbol} :
    t.isReserved k = true ↔ ∃ s ∈ reservedNames, t.resolve k = some s := by
  have hfirst (i : Nat) (hi : i < reservedNames.length) :
      t.resolve ⟨i⟩ = some reservedNames[i] := by
    rw [resolve, ← Array.getElem?_toList]
    exact List.prefix_iff_getElem?.1 t.reserved_le i hi
  rw [isReserved, decide_eq_true_iff]
  constructor
  · intro hk
    exact ⟨reservedNames[k.id], List.getElem_mem hk, hfirst k.id hk⟩
  · rintro ⟨s, hs, hk⟩
    obtain ⟨i, hi, rfl⟩ := List.getElem_of_mem hs
    have heq := (find?_eq_some_iff.2 hk).symm.trans (find?_eq_some_iff.2 (hfirst i hi))
    cases heq
    exact hi

theorem size_intern_le (t : Interner) (s : String) : (t.intern s).2.size ≤ t.size + 1 := by
  cases h : t.find? s with
  | some k =>
    rw [intern_of_some h]
    exact Nat.le_succ t.size
  | none =>
    rw [size, (intern_of_none h).2, Array.size_push]
    exact Nat.le_refl _

theorem mem_texts_intern {t : Interner} {s r : String} :
    r ∈ (t.intern s).2.texts.toList → r ∈ t.texts.toList ∨ r = s := by
  cases h : t.find? s with
  | some k =>
    rw [intern_of_some h]
    exact .inl
  | none =>
    rw [(intern_of_none h).2, Array.toList_push, List.mem_append, List.mem_singleton]
    exact id

theorem resolve_intern (t : Interner) (s : String) :
    (t.intern s).2.resolve (t.intern s).1 = some s := by
  cases h : t.find? s with
  | some k =>
    rw [intern_of_some h]
    exact find?_eq_some_iff.1 h
  | none =>
    obtain ⟨hk, ht⟩ := intern_of_none h
    rw [resolve, hk, ht]
    simp [size]

theorem resolve_intern_of_some {t : Interner} {k : Symbol} {r : String}
    (h : t.resolve k = some r) (s : String) : (t.intern s).2.resolve k = some r := by
  cases hs : t.find? s with
  | some j => rwa [intern_of_some hs]
  | none =>
    obtain ⟨hlt, -⟩ := Array.getElem?_eq_some_iff.1 h
    rw [resolve, (intern_of_none hs).2, Array.getElem?_push, if_neg (Nat.ne_of_lt hlt)]
    exact h

end Interner

end ObjcBinding
