import ObjcBinding.Selector.Grammar
import ObjcBinding.Store.Interner

/-!
# The selector table

A selector is interned with its number of arguments; the table hands out one handle for each
pair, so that handles compare by number. The texts are interned as names of their own, so that a
text with several numbers of arguments is kept once; an index leads from a name and a number to
the handle.

* `find?_eq_some_iff`: a pair is found under a handle exactly if the handle stands for the pair;
* `get?_intern`, `get?_intern_of_some`: interning gives a handle that stands for the pair,
  and disturbs no other handle;
* `handles_intern`: interning lists the handle last, unless it is listed already.
-/

namespace ObjcBinding

/-- A handle of the selector table. -/
@[ext]
structure Selector where
  id : Nat
  deriving DecidableEq, Repr, Inhabited

namespace Selector

/-- The text of a selector and the number of its arguments. -/
structure Entry where
  text : String
  arity : Nat
  deriving DecidableEq, Repr

/-- What the table keeps of a selector: the name of its text, the number of the text's bytes, and
the number of arguments. -/
structure Record where
  name : Symbol
  length : Nat
  arity : Nat
  deriving DecidableEq, Repr

/-- The interned selectors in order of first interning, each pair once. -/
structure Table where
  names : Interner := .initial
  records : Array Record := #[]
  index : List ((Symbol × Nat) × Selector) := []
  /-- Every name is known, and its text is as long as the record says. -/
  named (r : Record) : r ∈ records.toList →
    ∃ text, names.resolve r.name = some text ∧ r.length = text.utf8ByteSize := by simp
  /-- The index leads to the records of its keys, and to all of them. -/
  indexed (key : Symbol × Nat) (s : Selector) :
    index.lookup key = some s ↔ ∃ r, records[s.id]? = some r ∧ (r.name, r.arity) = key := by simp

namespace Table

/-- The table without selectors. -/
def empty : Table := {}

instance : Inhabited Table := ⟨empty⟩

/-- The number of selectors. -/
def size (t : Table) : Nat := t.records.size

def isEmpty (t : Table) : Bool := t.records.isEmpty

/-- What a handle stands for, if it was issued here. -/
def get? (t : Table) (s : Selector) : Option Entry := do
  let r ← t.records[s.id]?
  let text ← t.names.resolve r.name
  return ⟨text, r.arity⟩

/-- The text of a selector; a marker for a foreign handle. -/
def text (t : Table) (s : Selector) : String :=
  (t.records[s.id]?.bind fun r => t.names.resolve r.name).getD "<unknown>"

/-- The number of bytes of a selector's text. -/
def textLength (t : Table) (s : Selector) : Nat := (t.records[s.id]?.map Record.length).getD 0

/-- The number of arguments of a selector. -/
def arity (t : Table) (s : Selector) : Nat := (t.records[s.id]?.map Record.arity).getD 0

/-- All issued handles, in order of first interning. -/
def handles (t : Table) : List Selector := (List.range t.size).map Selector.mk

/-- The handle of a pair that is already interned. -/
def find? (t : Table) (text : String) (arity : Nat) : Option Selector := do
  let name ← t.names.find? text
  t.index.lookup (name, arity)

/-! ## What a handle stands for -/

theorem get?_eq_some_iff {t : Table} {s : Selector} {e : Entry} :
    t.get? s = some e ↔ ∃ r, t.records[s.id]? = some r ∧
      t.names.resolve r.name = some e.text ∧ r.arity = e.arity := by
  cases hr : t.records[s.id]? with
  | none => simp [get?, hr]
  | some r =>
    cases hn : t.names.resolve r.name with
    | none => simp [get?, hr, hn]
    | some text =>
      obtain ⟨etext, earity⟩ := e
      simp [get?, hr, hn]

theorem text_of_get? {t : Table} {s : Selector} {e : Entry} (h : t.get? s = some e) :
    t.text s = e.text := by
  obtain ⟨r, hr, hn, -⟩ := get?_eq_some_iff.1 h
  simp [text, hr, hn]

theorem arity_of_get? {t : Table} {s : Selector} {e : Entry} (h : t.get? s = some e) :
    t.arity s = e.arity := by
  obtain ⟨r, hr, -, ha⟩ := get?_eq_some_iff.1 h
  simp [arity, hr, ha]

theorem textLength_of_get? {t : Table} {s : Selector} {e : Entry} (h : t.get? s = some e) :
    t.textLength s = e.text.utf8ByteSize := by
  obtain ⟨r, hr, hn, -⟩ := get?_eq_some_iff.1 h
  obtain ⟨text, htext, hlen⟩ := t.named r (Array.mem_toList_iff.2 (Array.mem_of_getElem? hr))
  rw [hn, Option.some.injEq] at htext
  simp [textLength, hr, hlen, htext]

theorem mem_handles {t : Table} {s : Selector} : s ∈ t.handles ↔ s.id < t.size := by
  simp only [handles, List.mem_map, List.mem_range]
  exact ⟨fun ⟨n, hn, hs⟩ => hs ▸ hn, fun hlt => ⟨s.id, hlt, rfl⟩⟩

/-- Exactly the issued handles stand for something. -/
theorem mem_handles_iff_get? {t : Table} {s : Selector} :
    s ∈ t.handles ↔ ∃ e, t.get? s = some e := by
  rw [mem_handles]
  constructor
  · intro hlt
    have hr : t.records[s.id]? = some t.records[s.id] := Array.getElem?_eq_getElem hlt
    obtain ⟨text, htext, -⟩ := t.named _ (Array.mem_toList_iff.2 (Array.mem_of_getElem? hr))
    exact ⟨⟨text, _⟩, get?_eq_some_iff.2 ⟨_, hr, htext, rfl⟩⟩
  · rintro ⟨e, he⟩
    obtain ⟨r, hr, -⟩ := get?_eq_some_iff.1 he
    exact (Array.getElem?_eq_some_iff.1 hr).1

theorem find?_eq_some_iff {t : Table} {text : String} {arity : Nat} {s : Selector} :
    t.find? text arity = some s ↔ t.get? s = some ⟨text, arity⟩ := by
  rw [get?_eq_some_iff, find?, Option.bind_eq_bind, Option.bind_eq_some_iff]
  constructor
  · rintro ⟨name, hname, hs⟩
    obtain ⟨r, hr, hkey⟩ := (t.indexed _ _).1 hs
    cases hkey
    exact ⟨r, hr, Interner.find?_eq_some_iff.1 hname, rfl⟩
  · rintro ⟨r, hr, hname, rfl⟩
    exact ⟨r.name, Interner.find?_eq_some_iff.2 hname, (t.indexed _ _).2 ⟨r, hr, rfl⟩⟩

/-! ## Interning -/

/-- The name of a text, and the table that knows it. -/
def internName (t : Table) (text : String) : Symbol × Table :=
  ((t.names.intern text).1,
    { t with
      names := (t.names.intern text).2
      named := fun r hr =>
        let ⟨known, hknown, hlen⟩ := t.named r hr
        ⟨known, Interner.resolve_intern_of_some hknown text, hlen⟩ })

theorem internName_resolve (t : Table) (text : String) :
    (t.internName text).2.names.resolve (t.internName text).1 = some text :=
  Interner.resolve_intern t.names text

/-- Adds a record for a key that the index does not have. -/
def add (t : Table) (name : Symbol) (text : String) (arity : Nat)
    (hname : t.names.resolve name = some text) (hnew : t.index.lookup (name, arity) = none) :
    Table where
  names := t.names
  records := t.records.push ⟨name, text.utf8ByteSize, arity⟩
  index := ((name, arity), ⟨t.size⟩) :: t.index
  named r hr := by
    rw [Array.toList_push, List.mem_append, List.mem_singleton] at hr
    rcases hr with hr | rfl
    · exact t.named r hr
    · exact ⟨text, hname, rfl⟩
  indexed key s := by
    rw [List.lookup_cons, Array.getElem?_push]
    by_cases hs : s.id = t.records.size
    · -- The new handle: no older key leads to it.
      have hold : t.records[s.id]? = none := by simp [hs]
      have hkey : t.index.lookup key ≠ some s := fun h => by
        obtain ⟨r, hr, -⟩ := (t.indexed key s).1 h
        rw [hold] at hr
        cases hr
      have hself : (⟨t.size⟩ : Selector) = s := Selector.ext hs.symm
      by_cases hk : key = (name, arity)
      · simp [hk, hs, hself]
      · rw [beq_eq_false_iff_ne.2 hk]
        simp [hs, hkey, Ne.symm hk]
    · -- An older handle: its record does not have the new key.
      have hself : (⟨t.size⟩ : Selector) ≠ s := fun h => hs (Selector.ext_iff.1 h).symm
      rw [if_neg hs, ← t.indexed key s]
      by_cases hk : key = (name, arity)
      · simp [hk, hself, hnew]
      · rw [beq_eq_false_iff_ne.2 hk]

/-- The handle of a pair, issued now if the pair is new. The text is not checked. -/
def intern (t : Table) (text : String) (arity : Nat) : Selector × Table :=
  match h : (t.internName text).2.index.lookup ((t.internName text).1, arity) with
  | some s => (s, (t.internName text).2)
  | none =>
    (⟨t.size⟩, (t.internName text).2.add _ text arity (t.internName_resolve text) h)

/-- The handle of a text that follows the grammar, with one argument for each colon. -/
def lookup (t : Table) (text : String) : Except Fault (Selector × Table) :=
  match Selector.arity text with
  | .error fault => .error fault
  | .ok n => .ok (t.intern text n)

theorem get?_internName (t : Table) (text : String) {s : Selector} {e : Entry}
    (h : t.get? s = some e) : (t.internName text).2.get? s = some e := by
  obtain ⟨r, hr, hn, ha⟩ := get?_eq_some_iff.1 h
  exact get?_eq_some_iff.2 ⟨r, hr, Interner.resolve_intern_of_some hn text, ha⟩

theorem get?_intern_of_some {t : Table} {s : Selector} {e : Entry} (h : t.get? s = some e)
    (text : String) (arity : Nat) : (t.intern text arity).2.get? s = some e := by
  have h' := t.get?_internName text h
  unfold intern
  split
  · exact h'
  · obtain ⟨r, hr, hn, ha⟩ := get?_eq_some_iff.1 h'
    refine get?_eq_some_iff.2 ⟨r, ?_, hn, ha⟩
    rw [add, Array.getElem?_push, if_neg (Nat.ne_of_lt (Array.getElem?_eq_some_iff.1 hr).1)]
    exact hr

theorem get?_intern (t : Table) (text : String) (arity : Nat) :
    (t.intern text arity).2.get? (t.intern text arity).1 = some ⟨text, arity⟩ := by
  have hname := t.internName_resolve text
  unfold intern
  split
  · rename_i s hs
    obtain ⟨r, hr, hkey⟩ := ((t.internName text).2.indexed _ s).1 hs
    rw [Prod.mk.injEq] at hkey
    exact get?_eq_some_iff.2 ⟨r, hr, hkey.1 ▸ hname, hkey.2⟩
  · exact get?_eq_some_iff.2 ⟨_, Array.getElem?_push_size, hname, rfl⟩

theorem intern_of_some {t : Table} {text : String} {arity : Nat} {s : Selector}
    (h : t.find? text arity = some s) : t.intern text arity = (s, t) := by
  obtain ⟨name, hname, hs⟩ := Option.bind_eq_some_iff.1 h
  have hi : t.names.intern text = (name, t.names) := Interner.intern_of_some hname
  have hn : t.internName text = (name, t) := by simp [internName, hi]
  unfold intern
  split
  · rename_i j hj
    rw [hn, hs] at hj
    cases hj
    rw [hn]
  · rename_i hj
    rw [hn, hs] at hj
    cases hj

/-- A new pair gets the next handle. -/
theorem intern_of_none {t : Table} {text : String} {arity : Nat}
    (h : t.find? text arity = none) :
    (t.intern text arity).1 = ⟨t.size⟩ ∧ (t.intern text arity).2.size = t.size + 1 := by
  unfold intern
  split
  · rename_i s hs
    -- The record that the index leads to was there before, so that `text` had a name already.
    obtain ⟨r, hr, hkey⟩ := ((t.internName text).2.indexed _ s).1 hs
    rw [Prod.mk.injEq] at hkey
    obtain ⟨known, hknown, -⟩ := t.named r (Array.mem_toList_iff.2 (Array.mem_of_getElem? hr))
    have hsame := (t.internName_resolve text).symm.trans
      (hkey.1 ▸ Interner.resolve_intern_of_some hknown text)
    rw [Option.some.injEq] at hsame
    subst hsame
    have hfound : t.find? text arity = some s :=
      find?_eq_some_iff.2 (get?_eq_some_iff.2 ⟨r, hr, hknown, hkey.2⟩)
    rw [hfound] at h
    cases h
  · exact ⟨rfl, Array.size_push ..⟩

theorem handles_intern (t : Table) (text : String) (arity : Nat) :
    (t.intern text arity).2.handles =
      if (t.intern text arity).1 ∈ t.handles then t.handles
      else t.handles ++ [(t.intern text arity).1] := by
  cases h : t.find? text arity with
  | some s =>
    rw [intern_of_some h, if_pos (mem_handles_iff_get?.2 ⟨_, find?_eq_some_iff.1 h⟩)]
  | none =>
    obtain ⟨hs, hsize⟩ := intern_of_none h
    have hnew : (⟨t.size⟩ : Selector) ∉ t.handles := fun hm => Nat.lt_irrefl _ (mem_handles.1 hm)
    rw [hs, if_neg hnew, handles, hsize, List.range_succ, List.map_append]
    rfl

end Table

end Selector

end ObjcBinding
