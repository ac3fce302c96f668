import ObjcBinding.Proofs.Steps.Order

/-!
# Walks along superclasses

A walk along the superclasses of a bound class comes to an end, because the bound classes stand
in the order in which they were marked, the base of each after it.

* `mem_chain_iff`: a walk that ends meets everything above its start;
* `Marked.ends`: a walk along bases ends within the list of bound classes.
-/

namespace ObjcBinding

/-! ## Walks -/

theorem Ends.succ {α : Type} {next : α → Option α} {bound : Nat} {a : α}
    (h : Ends next bound a) : Ends next (bound + 1) a := by
  induction h with
  | here hn => exact .here hn
  | step hn _ ih => exact .step hn ih

theorem Ends.mono {α : Type} {next : α → Option α} {bound bound' : Nat} {a : α}
    (h : Ends next bound a) (hle : bound ≤ bound') : Ends next bound' a := by
  induction hle with
  | refl => exact h
  | step _ ih => exact ih.succ

/-- A walk that comes to an end meets everything that is reached by following links. -/
theorem mem_chain_iff {α : Type} {next : α → Option α} {bound : Nat} {a b : α}
    (h : Ends next bound a) :
    b ∈ chain next bound a ↔ Relation.ReflTransGen (fun x y => next x = some y) a b := by
  induction h with
  | here hn =>
    rw [chain_succ, hn, List.mem_singleton, Relation.ReflTransGen.cases_head_iff]
    constructor
    · rintro rfl
      exact .inl rfl
    · rintro (rfl | ⟨z, hz, -⟩)
      · rfl
      · rw [hn] at hz
        cases hz
  | step hn _ ih =>
    rw [chain_succ, hn, List.mem_cons, Relation.ReflTransGen.cases_head_iff, ih]
    constructor
    · rintro (rfl | hb)
      · exact .inl rfl
      · exact .inr ⟨_, hn, hb⟩
    · rintro (rfl | ⟨z, hz, hb⟩)
      · exact .inl rfl
      · rw [hn] at hz
        cases hz
        exact .inr hb

/-- A walk that comes to an end leads to an element without a link, the last one. -/
theorem Ends.last {α : Type} {next : α → Option α} {bound : Nat} {a : α}
    (h : Ends next bound a) (b : α) :
    Relation.ReflTransGen (fun x y => next x = some y) a ((chain next bound a).getLastD b) ∧
      next ((chain next bound a).getLastD b) = none := by
  induction h generalizing b with
  | here hn =>
    rw [chain_succ, hn]
    exact ⟨.refl, hn⟩
  | @step bound a a' hn _ ih =>
    obtain ⟨hpath, hlast⟩ := ih a
    rw [chain_succ, hn]
    rw [List.getLastD_cons]
    exact ⟨.head hn hpath, hlast⟩

/-! ## Classes in order -/

namespace Program.Marked

variable {p : Program} {order : List ClassId} {x y : ClassId}

/-- The base of a marked class is marked. -/
theorem base_mem (h : p.Marked order) (hx : x ∈ order) (hb : (p.classAt x).base = some y) :
    y ∈ order := by
  induction h with
  | nil => cases hx
  | cons _ _ _ hbase _ ih =>
    rcases List.mem_cons.1 hx with rfl | hx
    · exact List.mem_cons_of_mem _ (hbase y hb)
    · exact List.mem_cons_of_mem _ (ih hx)

/-- A walk along bases ends within the list. -/
theorem ends (h : p.Marked order) {next : ClassId → Option ClassId}
    (hnext : ∀ x ∈ order, next x = (p.classAt x).base) (hx : x ∈ order) :
    Ends next order.length x := by
  induction h generalizing x with
  | nil => cases hx
  | @cons cls rest _ _ _ hbase _ ih =>
    have hrest (y : ClassId) (hy : y ∈ rest) : Ends next rest.length y :=
      ih (fun z hz => hnext z (List.mem_cons_of_mem _ hz)) hy
    rcases List.mem_cons.1 hx with rfl | hx
    · cases hn : next x with
      | none => exact .here hn
      | some base => exact .step hn (hrest base (hbase base ((hnext x hx).symm.trans hn)))
    · exact (hrest x hx).succ

end Program.Marked

/-! ## Ancestors -/

theorem Ends.not_transGen_self {α : Type} {next : α → Option α} {bound : Nat} {a : α}
    (h : Ends next bound a) : ¬ Relation.TransGen (fun x y => next x = some y) a a := by
  induction h with
  | here hn =>
    intro hcycle
    obtain ⟨b, hb, -⟩ := Relation.TransGen.head'_iff.1 hcycle
    rw [hn] at hb
    cases hb
  | step hn _ ih =>
    intro hcycle
    obtain ⟨b, hb, hback⟩ := Relation.TransGen.head'_iff.1 hcycle
    rw [hn] at hb
    cases hb
    exact ih (Relation.TransGen.tail' hback hn)

namespace Program

/-- `above` is reached from `cls` through superclasses. -/
def Ancestor (p : Program) (cls above : ClassId) : Prop :=
  Relation.TransGen (fun x y => p.superclass? x = some y) cls above

variable {p q : Program} {cls above : ClassId}

theorem SuperclassesDeclared.superclass?_eq (h : p.SuperclassesDeclared)
    (ho : p.HasRole cls .ordinary) : p.superclass? cls = (p.classAt cls).base := by
  obtain ⟨i, hi, hio⟩ := ho
  rw [superclass?, ClassDecl.superclass, hi, Option.bind_some, h cls i hi hio]

theorem Layered.ends (h : p.Layered) (ho : p.HasRole cls .ordinary) :
    Ends p.superclass? (p.classes.size + 1) cls := by
  obtain ⟨order, hm, hall⟩ := h.inOrder
  have hends := hm.ends (fun x hx => h.superclasses.superclass?_eq (hm.ordinary hx)) (hall cls ho)
  exact hends.mono (Nat.le_succ_of_le hm.length_le)

theorem Ancestor.ne (h : p.Ancestor cls above) (hp : p.Layered) (ho : p.HasRole cls .ordinary) :
    above ≠ cls := by
  rintro rfl
  exact (hp.ends ho).not_transGen_self h

theorem Layered.superclass_ordinary (h : p.Layered) (ho : p.HasRole cls .ordinary)
    (hsup : p.superclass? cls = some above) : p.HasRole above .ordinary := by
  obtain ⟨order, hm, hall⟩ := h.inOrder
  rw [h.superclasses.superclass?_eq ho] at hsup
  exact hm.ordinary (hm.base_mem (hall cls ho) hsup)

/-- The superclass of a bound class stays, and so do those above it. -/
theorem Ancestor.of_extends (h : p.Ancestor cls above) (hext : p.Extends q) (hp : p.Layered)
    (ho : p.HasRole cls .ordinary) :
    q.Ancestor cls above ∧ p.HasRole above .ordinary := by
  have hkeep {x y : ClassId} (hx : p.HasRole x .ordinary) (hxy : p.superclass? x = some y) :
      q.superclass? x = some y :=
    (hext.superclass hx).trans hxy
  induction h with
  | single hxy => exact ⟨.single (hkeep ho hxy), hp.superclass_ordinary ho hxy⟩
  | tail _ hxy ih => exact ⟨ih.1.tail (hkeep ih.2 hxy), hp.superclass_ordinary ih.2 hxy⟩

end Program

end ObjcBinding
