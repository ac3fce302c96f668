import Mathlib.Data.List.Perm.Subperm
import Mathlib.Tactic.ByContra
import ObjcBinding.Proofs.Steps.Roles

/-!
# The order in which classes are bound

A class is marked only after its base and its interfaces, so that the bound classes can be listed
with each class before those it is derived from, whatever the order of their declarations. What
a class is derived from comes after it in the list; hence no class is derived from itself, and
every way up is shorter than the list.

* `Change.inOrder`: there is such a list at all times;
* `Marked.parent`: from a class in the list every way up leads on within a shorter one;
* `Marked.not_derivedFrom_self`: no class is derived from itself.
-/

namespace ObjcBinding

/-- The classes of the list have been marked in the order from its end to its start. Those that a
class is derived from stand after it; an interface may also be a metaclass. -/
inductive Program.Marked (p : Program) : List ClassId → Prop where
  | nil : p.Marked []
  | cons {cls : ClassId} {rest : List ClassId} :
      p.Marked rest → cls ∉ rest → p.HasRole cls .ordinary →
      (∀ base, (p.classAt cls).base = some base → base ∈ rest) →
      (∀ i ∈ (p.classAt cls).interfaces, i ∈ rest ∨ p.HasRole i .metaclass) →
      p.Marked (cls :: rest)

/-- The bound classes stand in a list that they were marked in. -/
def Program.InOrder (p : Program) : Prop :=
  ∃ order, p.Marked order ∧ ∀ x, p.HasRole x .ordinary → x ∈ order

/-- The class stands in a list of at most `height` classes that were marked one after the other:
so many classes can be met on a way up from it. -/
def Program.Within (p : Program) (height : Nat) (cls : ClassId) : Prop :=
  ∃ order, p.Marked order ∧ cls ∈ order ∧ order.length ≤ height

namespace Program

variable {p q : Program} {order : List ClassId} {x y : ClassId}

theorem hasRole_unique {role role' : Role} (h : p.HasRole x role) (h' : p.HasRole x role') :
    role = role' := by
  obtain ⟨i, hi, rfl⟩ := h
  obtain ⟨j, hj, rfl⟩ := h'
  rw [hi] at hj
  cases hj
  rfl

namespace Marked

theorem nodup (h : p.Marked order) : order.Nodup := by
  induction h with
  | nil => exact List.nodup_nil
  | cons _ hnew _ _ _ ih => exact List.nodup_cons.2 ⟨hnew, ih⟩

theorem ordinary (h : p.Marked order) (hx : x ∈ order) : p.HasRole x .ordinary := by
  induction h with
  | nil => cases hx
  | cons _ _ ho _ _ ih =>
    rcases List.mem_cons.1 hx with rfl | hx
    · exact ho
    · exact ih hx

theorem length_le (h : p.Marked order) : order.length ≤ p.classes.size := by
  have hsub : order ⊆ p.classes.handles := fun x hx =>
    Arena.mem_handles.2 (contains_of_hasRole (h.ordinary hx))
  have hle := (List.subperm_of_subset h.nodup hsub).length_le
  rwa [Arena.handles, List.length_map, List.length_range] at hle

theorem of_extends (h : p.Marked order) (hext : p.Extends q) : q.Marked order := by
  induction h with
  | nil => exact .nil
  | cons _ hnew ho hbase his ih =>
    have hc := contains_of_hasRole ho
    refine .cons ih hnew (hext.hasRole ho) (fun base hb => ?_) fun i hi => ?_
    · rw [hext.base hc] at hb
      exact hbase base hb
    · rw [hext.interfaces hc] at hi
      exact (his i hi).imp_right hext.hasRole

/-- What is declared above a marked class was marked before it, unless it is a metaclass. -/
theorem parent (h : p.Marked order) (hx : x ∈ order) (hxy : p.IsParent x y) :
    p.HasRole y .metaclass ∨ ∃ rest, p.Marked rest ∧ y ∈ rest ∧ rest.length < order.length := by
  induction h with
  | nil => cases hx
  | @cons cls rest hm _ _ hbase his ih =>
    have hlt : rest.length < (cls :: rest).length := by simp
    rcases List.mem_cons.1 hx with rfl | hx
    · rcases hxy with hb | hi
      · exact .inr ⟨rest, hm, hbase y hb, hlt⟩
      · rcases his y hi with hy | hy
        · exact .inr ⟨rest, hm, hy, hlt⟩
        · exact .inl hy
    · refine (ih hx).imp_right fun ⟨rest', hm', hy, hlt'⟩ => ⟨rest', hm', hy, ?_⟩
      exact Nat.lt_trans hlt' hlt

theorem parent_bound (h : p.Marked order) (hx : x ∈ order) (hxy : p.IsParent x y) :
    ∃ role, p.HasRole y role := by
  rcases h.parent hx hxy with hy | ⟨rest, hm, hy, -⟩
  · exact ⟨.metaclass, hy⟩
  · exact ⟨.ordinary, hm.ordinary hy⟩

theorem derivedFrom (h : p.Marked order) (hx : x ∈ order) (hxy : p.DerivedFrom x y)
    (hy : p.HasRole y .ordinary) :
    ∃ rest, p.Marked rest ∧ y ∈ rest ∧ rest.length < order.length := by
  have hstep {order : List ClassId} {x z : ClassId} (hm : p.Marked order) (hx : x ∈ order)
      (hxz : p.IsParent x z) (hz : p.HasRole z .ordinary) :
      ∃ rest, p.Marked rest ∧ z ∈ rest ∧ rest.length < order.length :=
    (hm.parent hx hxz).resolve_left fun hmeta => nomatch hasRole_unique hz hmeta
  induction hxy using Relation.TransGen.head_induction_on generalizing order with
  | single hxy => exact hstep h hx hxy.2 hy
  | head hxz hzy ih =>
    obtain ⟨w, ⟨hz, -⟩, -⟩ := Relation.TransGen.head'_iff.1 hzy
    obtain ⟨rest, hm, hz, hlt⟩ := hstep h hx hxz.2 hz
    obtain ⟨rest', hm', hy', hlt'⟩ := ih hm hz
    exact ⟨rest', hm', hy', Nat.lt_trans hlt' hlt⟩

/-- Otherwise there were shorter and shorter lists with the class. -/
theorem not_derivedFrom_self (h : p.Marked order) (hx : x ∈ order) : ¬ p.DerivedFrom x x := by
  intro hxx
  generalize hn : order.length = n
  induction n using Nat.strongRecOn generalizing order with
  | ind n ih =>
    obtain ⟨rest, hm, hx', hlt⟩ := h.derivedFrom hx hxx (h.ordinary hx)
    exact ih rest.length (hn ▸ hlt) hm hx' rfl

end Marked

namespace Within

variable {height : Nat}

theorem of_extends (h : p.Within height x) (hext : p.Extends q) : q.Within height x := by
  obtain ⟨order, hm, hx, hle⟩ := h
  exact ⟨order, hm.of_extends hext, hx, hle⟩

theorem not_derivedFrom_self (h : p.Within height x) : ¬ p.DerivedFrom x x := by
  obtain ⟨order, hm, hx, -⟩ := h
  exact hm.not_derivedFrom_self hx

theorem succ (h : p.Within height x) : p.Within (height + 1) x := by
  obtain ⟨order, hm, hx, hle⟩ := h
  exact ⟨order, hm, hx, Nat.le_succ_of_le hle⟩

theorem not_zero : ¬ p.Within 0 x := by
  rintro ⟨order, -, hx, hle⟩
  rw [List.length_eq_zero_iff.1 (Nat.le_zero.1 hle)] at hx
  cases hx

theorem parent (h : p.Within (height + 1) x) (hxy : p.IsParent x y) :
    p.HasRole y .metaclass ∨ p.Within height y := by
  obtain ⟨order, hm, hx, hle⟩ := h
  refine (hm.parent hx hxy).imp_right fun ⟨rest, hm', hy, hlt⟩ => ⟨rest, hm', hy, ?_⟩
  exact Nat.le_of_lt_succ (Nat.lt_of_lt_of_le hlt hle)

theorem parent_bound (h : p.Within height x) (hxy : p.IsParent x y) :
    ∃ role, p.HasRole y role := by
  obtain ⟨order, hm, hx, -⟩ := h
  exact hm.parent_bound hx hxy

theorem ordinary (h : p.Within height x) : p.HasRole x .ordinary := by
  obtain ⟨order, hm, hx, -⟩ := h
  exact hm.ordinary hx

/-- A class directly above is bound, and has one class less above it. -/
theorem parent_of_extends (h : p.Within (height + 1) x) (hxy : p.IsParent x y)
    (hext : p.Extends q) :
    (∃ role, q.HasRole y role) ∧ (q.HasRole y .ordinary → q.Within height y) := by
  rcases (h.of_extends hext).parent (hext.isParent hxy) with hm | hw
  · exact ⟨⟨_, hm⟩, fun ho => nomatch hasRole_unique ho hm⟩
  · exact ⟨⟨_, hw.ordinary⟩, fun _ => hw⟩

end Within

namespace InOrder

theorem of_unbound (h : ∀ x, (p.classAt x).info = none) : p.InOrder := by
  refine ⟨[], .nil, ?_⟩
  rintro x ⟨i, hi, -⟩
  rw [h] at hi
  cases hi

theorem of_extends (h : p.InOrder) (hext : p.Extends q)
    (hq : ∀ x, q.HasRole x .ordinary → p.HasRole x .ordinary) : q.InOrder := by
  obtain ⟨order, hm, hall⟩ := h
  exact ⟨order, hm.of_extends hext, fun x hx => hall x (hq x hx)⟩

theorem within (h : p.InOrder) (hx : p.HasRole x .ordinary) : p.Within p.classes.size x := by
  obtain ⟨order, hm, hall⟩ := h
  exact ⟨order, hm, hall x hx, hm.length_le⟩

/-- There is room enough for the classes above also when there are more classes. -/
theorem within_of_extends (h : p.InOrder) (hext : p.Extends q) (hx : p.HasRole x .ordinary) :
    p.Within q.classes.size x := by
  obtain ⟨order, hm, hall⟩ := h
  exact ⟨order, hm, hall x hx, (hm.of_extends hext).length_le⟩

/-- What is declared above a bound class is bound as well. -/
theorem parent (h : p.InOrder) (hx : p.HasRole x .ordinary) (hxy : p.IsParent x y) :
    ∃ role, p.HasRole y role := by
  obtain ⟨order, hm, hall⟩ := h
  exact hm.parent_bound (hall x hx) hxy

theorem contains_of_atOrAbove (h : p.InOrder) (hx : p.HasRole x .ordinary)
    (hxy : p.AtOrAbove x y) : p.classes.contains y = true := by
  rcases hxy with rfl | hxy
  · exact contains_of_hasRole hx
  · obtain ⟨z, -, hz, hzy⟩ := Relation.TransGen.tail'_iff.1 hxy
    obtain ⟨role, hy⟩ := h.parent hz hzy
    exact contains_of_hasRole hy

end InOrder

end Program

open Program

variable {deed : Deed} {c d : Compilation}

/-- A class that is marked comes before all others. -/
theorem Change.inOrder (h : Change deed c d) (hc : c.program.InOrder) : d.program.InOrder := by
  by_cases hnew : ∃ cls, deed = .mark cls ∧ ¬ c.program.HasRole cls .ordinary ∧
      d.program.HasRole cls .ordinary
  · obtain ⟨cls, rfl, hold, hcls⟩ := hnew
    obtain ⟨order, hm, hall⟩ := hc
    have hext := h.extends.program
    cases h with
    | mark _ hi hfault =>
      have hcc : c.program.classes.contains cls = true := by
        have hcd := contains_of_hasRole hcls
        change (c.program.classes.modify cls _).contains cls = true at hcd
        rwa [Arena.contains_modify] at hcd
      obtain ⟨hbase, his⟩ := hierarchyFault?_eq_none_iff.1 hfault
      refine ⟨cls :: order, .cons (hm.of_extends hext) (fun hmem => hold (hm.ordinary hmem)) hcls
        (fun base hb => ?_) fun i hi => ?_, fun x hx => ?_⟩
      · rw [hext.base hcc] at hb
        exact hall base (hasRole_of_isBoundBase (hbase base hb))
      · rw [hext.interfaces hcc] at hi
        obtain ⟨role, hrole⟩ := hasRole_of_isBoundInterface (his i hi)
        cases role with
        | ordinary => exact .inl (hall i hrole)
        | metaclass => exact .inr (hext.hasRole hrole)
      · rcases Change.ordinary_of_ordinary (.mark cls hi hfault) hx with hx | hx
        · exact List.mem_cons_of_mem _ (hall x hx)
        · cases hx
          exact List.mem_cons_self
  · refine hc.of_extends h.extends.program fun x hx => ?_
    rcases h.ordinary_of_ordinary hx with hold | rfl
    · exact hold
    · by_contra hold
      exact hnew ⟨x, rfl, hold, hx⟩

/-- What the ways up from bound classes rely on: the superclass of a class is its declared base,
the classes above it were bound before, and the metaclasses among them belong to classes. -/
structure Program.Layered (p : Program) : Prop where
  superclasses : p.SuperclassesDeclared
  inOrder : p.InOrder
  partnered : p.Partnered

theorem Program.Layered.of_unbound {p : Program} (h : ∀ x, (p.classAt x).info = none) :
    p.Layered :=
  ⟨.of_unbound h, .of_unbound h, .of_unbound h⟩

theorem Change.layered (h : Change deed c d) (hc : c.program.Layered) : d.program.Layered :=
  ⟨h.superclassesDeclared hc.superclasses, h.inOrder hc.inOrder, h.partnered hc.partnered⟩

theorem Trail.layered {permits : Compilation → Deed → Prop} (h : Trail permits c d)
    (hc : c.program.Layered) : d.program.Layered :=
  h.invariant (fun _ _ _ _ hstep => hstep.layered) hc

end ObjcBinding
