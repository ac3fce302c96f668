/-!
# Handles and arenas

Declarations live in arenas and refer to each other by handles. An arena only grows: a handle it
has issued stays valid and keeps its meaning. A handle is tagged with the kind of thing it
names, so that handles of different arenas cannot be confused.

* `ne_fresh`, `contains_of_lt`: handles are issued in order, and none twice;
* `mem_handles`, `entries_eq`: exactly the issued handles are listed, with their elements;
* `get?_alloc_self`, `get?_alloc_of_ne`: a new element is found under its own handle, and every
  other handle finds what it found before;
* `get?_modify`: a change of one element is seen under its handle only;
* `get_alloc`, `get_modify`: the same for the element under any handle, issued or not;
* `modify_congr`, `modify_eq_self`: a change is what it does to the element.
-/

namespace ObjcBinding

/-- What the elements of an arena are. -/
inductive Kind where
  | text | classDecl | funcDecl | groupDecl | scope
  deriving DecidableEq, Repr

/-- The name of a kind, as messages show it. -/
def Kind.name : Kind → String
  | text => "String"
  | classDecl => "ClassDecl"
  | funcDecl => "FuncDecl"
  | groupDecl => "AttribDecl"
  | scope => "Scope"

/-- The position of an element in the arena of its kind. -/
@[ext]
structure Handle (kind : Kind) where
  index : Nat
  deriving DecidableEq, Repr, Inhabited

namespace Handle

variable {kind : Kind}

/-- The text of a handle, as messages show it. -/
def text (h : Handle kind) : String := s!"Idx::<{kind.name}>({h.index})"

/-- Handles of one kind are ordered by position. -/
def compare (a b : Handle kind) : Ordering := Ord.compare a.index b.index

theorem compare_eq_eq {a b : Handle kind} : compare a b = .eq ↔ a = b := by
  rw [compare, Nat.compare_eq_eq, Handle.ext_iff]

end Handle

/-- Elements addressed by handles, in order of creation. -/
structure Arena (kind : Kind) (α : Type) where
  items : Array α := #[]

namespace Arena

variable {kind : Kind} {α : Type}

instance : Inhabited (Arena kind α) := ⟨{}⟩

/-- The number of elements. -/
def size (a : Arena kind α) : Nat := a.items.size

def isEmpty (a : Arena kind α) : Bool := a.items.isEmpty

/-- Whether `h` was issued by this arena. -/
def contains (a : Arena kind α) (h : Handle kind) : Bool := h.index < a.size

/-- The element under `h`, if the arena has issued it. -/
def get? (a : Arena kind α) (h : Handle kind) : Option α := a.items[h.index]?

/-- The element under an issued handle. -/
def get [Inhabited α] (a : Arena kind α) (h : Handle kind) : α := (a.get? h).getD default

/-- Puts `x` at the end and returns its handle. -/
def alloc (a : Arena kind α) (x : α) : Handle kind × Arena kind α :=
  (⟨a.size⟩, ⟨a.items.push x⟩)

/-- Changes the element under `h`, if there is one. -/
def modify (a : Arena kind α) (h : Handle kind) (f : α → α) : Arena kind α :=
  ⟨a.items.modify h.index f⟩

/-- All issued handles, in order of creation. -/
def handles (a : Arena kind α) : List (Handle kind) := (List.range a.size).map Handle.mk

/-- All elements with their handles, in order of creation. -/
def entries (a : Arena kind α) : List (Handle kind × α) := a.handles.zip a.items.toList

theorem contains_iff_lt {a : Arena kind α} {h : Handle kind} :
    a.contains h = true ↔ h.index < a.size :=
  decide_eq_true_iff

/-- The handle that is issued next has not been issued yet. -/
theorem not_contains_fresh (a : Arena kind α) : a.contains ⟨a.size⟩ = false :=
  decide_eq_false (Nat.lt_irrefl _)

theorem ne_fresh {a : Arena kind α} {h : Handle kind} (hc : a.contains h = true) :
    h ≠ ⟨a.size⟩ := by
  rintro rfl
  cases hc.symm.trans a.not_contains_fresh

/-- Handles are issued in order. -/
theorem contains_of_lt {a : Arena kind α} {h k : Handle kind} (hc : a.contains h = true)
    (hlt : k.index < h.index) : a.contains k = true :=
  contains_iff_lt.2 (Nat.lt_trans hlt (contains_iff_lt.1 hc))

theorem mem_handles {a : Arena kind α} {h : Handle kind} :
    h ∈ a.handles ↔ a.contains h = true := by
  simp only [handles, contains, List.mem_map, List.mem_range, decide_eq_true_eq]
  constructor
  · rintro ⟨n, hn, rfl⟩
    exact hn
  · intro hn
    exact ⟨h.index, hn, rfl⟩

theorem entries_eq [Inhabited α] (a : Arena kind α) :
    a.entries = a.handles.map fun h => (h, a.get h) := by
  refine List.ext_getElem ?_ fun n hn hn' => ?_
  · simp [entries, handles, size]
  · have hlt : n < a.items.size := by simpa [handles, size] using hn'
    simp [entries, handles, get, get?, hlt]

/-- Arenas that find the same under every handle are the same. -/
theorem eq_of_get? {a b : Arena kind α} (h : ∀ k, a.get? k = b.get? k) : a = b := by
  have hitems : a.items = b.items := Array.ext_getElem? fun i => h ⟨i⟩
  cases a
  cases b
  exact congrArg Arena.mk hitems

/-! ## What a change does to the elements -/

theorem contains_iff_get? {a : Arena kind α} {h : Handle kind} :
    a.contains h = true ↔ ∃ x, a.get? h = some x := by
  rw [contains, decide_eq_true_iff]
  exact ⟨fun hlt => ⟨_, Array.getElem?_eq_getElem hlt⟩,
    fun ⟨_, hx⟩ => (Array.getElem?_eq_some_iff.1 hx).1⟩

theorem get_of_get? [Inhabited α] {a : Arena kind α} {h : Handle kind} {x : α}
    (hx : a.get? h = some x) : a.get h = x := by
  rw [get, hx, Option.getD_some]

theorem get?_eq_some_get [Inhabited α] {a : Arena kind α} {h : Handle kind}
    (hc : a.contains h = true) : a.get? h = some (a.get h) := by
  obtain ⟨x, hx⟩ := contains_iff_get?.1 hc
  rw [hx, get_of_get? hx]

theorem size_alloc (a : Arena kind α) (x : α) : (a.alloc x).2.size = a.size + 1 := by
  simp [alloc, size]

theorem get?_alloc_self (a : Arena kind α) (x : α) :
    (a.alloc x).2.get? (a.alloc x).1 = some x := by
  simp [alloc, get?, size]

theorem get?_alloc_of_ne (a : Arena kind α) (x : α) {h : Handle kind}
    (hne : h ≠ (a.alloc x).1) : (a.alloc x).2.get? h = a.get? h := by
  have hi : h.index ≠ a.items.size := fun e => hne (Handle.ext e)
  simp only [alloc, get?, Array.getElem?_push]
  rw [if_neg hi]

theorem get?_alloc_of_contains {a : Arena kind α} {h : Handle kind} (hc : a.contains h = true)
    (x : α) : (a.alloc x).2.get? h = a.get? h := by
  refine get?_alloc_of_ne a x fun e => ?_
  subst e
  simp [contains, alloc] at hc

theorem size_modify (a : Arena kind α) (h : Handle kind) (f : α → α) :
    (a.modify h f).size = a.size := by
  simp [modify, size]

theorem get?_modify (a : Arena kind α) (h k : Handle kind) (f : α → α) :
    (a.modify h f).get? k = if h = k then (a.get? k).map f else a.get? k := by
  simp only [modify, get?, Array.getElem?_modify, Handle.ext_iff]

theorem get_modify_self [Inhabited α] {a : Arena kind α} {h : Handle kind}
    (hc : a.contains h = true) (f : α → α) : (a.modify h f).get h = f (a.get h) := by
  obtain ⟨x, hx⟩ := contains_iff_get?.1 hc
  rw [get, get?_modify, if_pos rfl, hx, get_of_get? hx]
  rfl

theorem get_modify_of_ne [Inhabited α] (a : Arena kind α) {h k : Handle kind} (hne : h ≠ k)
    (f : α → α) : (a.modify h f).get k = a.get k := by
  rw [get, get?_modify, if_neg hne, get]

/-! ## The same for handles that need not be issued -/

theorem get_of_not_contains [Inhabited α] {a : Arena kind α} {h : Handle kind}
    (hc : a.contains h = false) : a.get h = default := by
  rw [contains, decide_eq_false_iff_not, Nat.not_lt] at hc
  rw [get, get?, Array.getElem?_eq_none hc, Option.getD_none]

theorem modify_of_not_contains {a : Arena kind α} {h : Handle kind}
    (hc : a.contains h = false) (f : α → α) : a.modify h f = a := by
  rw [contains, decide_eq_false_iff_not, Nat.not_lt] at hc
  have hi : a.items.modify h.index f = a.items := by
    refine Array.ext_getElem? fun i => ?_
    rw [Array.getElem?_modify]
    split
    · rename_i he
      rw [← he, Array.getElem?_eq_none hc, Option.map_none]
    · rfl
  rw [modify, hi]

theorem get_alloc [Inhabited α] (a : Arena kind α) (x : α) (h : Handle kind) :
    (a.alloc x).2.get h = if h = ⟨a.size⟩ then x else a.get h := by
  by_cases he : h = ⟨a.size⟩
  · subst he
    rw [if_pos rfl]
    exact get_of_get? (get?_alloc_self a x)
  · rw [if_neg he, get, get?_alloc_of_ne a x he, get]

theorem get_modify [Inhabited α] (a : Arena kind α) (h k : Handle kind) (f : α → α) :
    (a.modify h f).get k =
      if k = h ∧ a.contains h = true then f (a.get k) else a.get k := by
  by_cases he : k = h
  · subst he
    by_cases hc : a.contains k = true
    · rw [if_pos ⟨rfl, hc⟩, get_modify_self hc]
    · rw [if_neg fun h => hc h.2, get_of_not_contains (Bool.eq_false_iff.2 hc),
        get_of_not_contains]
      rw [contains, size_modify]
      exact Bool.eq_false_iff.2 hc
  · rw [if_neg fun h => he h.1, get_modify_of_ne a (Ne.symm he)]

/-- Two changes that come to the same for the element under `h`. -/
theorem modify_congr [Inhabited α] {a : Arena kind α} {h : Handle kind} {f g : α → α}
    (hfg : f (a.get h) = g (a.get h)) : a.modify h f = a.modify h g := by
  refine eq_of_get? fun k => ?_
  rw [get?_modify, get?_modify]
  split
  · rename_i he
    subst he
    cases hx : a.get? h with
    | none => rfl
    | some x =>
      rw [get_of_get? hx] at hfg
      exact congrArg some hfg
  · rfl

theorem modify_eq_self [Inhabited α] {a : Arena kind α} {h : Handle kind} {f : α → α}
    (hf : f (a.get h) = a.get h) : a.modify h f = a := by
  rw [modify_congr (g := id) hf]
  refine eq_of_get? fun k => ?_
  rw [get?_modify, Option.map_id_fun, id, ite_self]

/-- A new element that is changed might as well have been put there changed. -/
theorem modify_alloc_self (a : Arena kind α) (x : α) (f : α → α) :
    (a.alloc x).2.modify (a.alloc x).1 f = (a.alloc (f x)).2 := by
  refine eq_of_get? fun k => ?_
  rw [get?_modify]
  split
  · rename_i hk
    subst hk
    rw [get?_alloc_self, Option.map_some]
    exact (get?_alloc_self a (f x)).symm
  · rename_i hk
    rw [get?_alloc_of_ne a x (Ne.symm hk)]
    exact (get?_alloc_of_ne a (f x) (Ne.symm hk)).symm

theorem contains_modify (a : Arena kind α) (h k : Handle kind) (f : α → α) :
    (a.modify h f).contains k = a.contains k := by
  rw [contains, contains, size_modify]

theorem contains_alloc (a : Arena kind α) (x : α) (h : Handle kind) :
    (a.alloc x).2.contains h = true ↔ h = ⟨a.size⟩ ∨ a.contains h = true := by
  simp only [contains, size_alloc, decide_eq_true_eq, Handle.ext_iff]
  omega

end Arena

end ObjcBinding
