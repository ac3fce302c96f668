import ObjcBinding.Proofs.Run

/-!
# Bases and interfaces of bound classes

A bound class has been checked against its base and its interfaces once, when it was marked, and
what was found then stays so. The base is asked for its role, the interfaces are asked for their
kind only: the metaclass of a protocol is an interface as well, and can be taken for a protocol.

* `Program.HierarchyFits`: what the check has found holds at all times;
* `Operation.fits_of_marked`: the check is made before anything else is done;
* `homogeneous_iff`: a bound class stands among bound classes and protocols only, unless it or one
  above it was given a metaclass for an interface before it was bound.
-/

namespace ObjcBinding

open Program Resolve

/-! ## What fits stays fitting -/

namespace Program

variable {p q : Program} {cls x : ClassId}

theorem isBoundBase_iff :
    p.isBoundBase x = true ↔ (p.classAt x).kind = .concrete ∧ p.HasRole x .ordinary := by
  constructor
  · intro h
    have hk := h
    simp only [isBoundBase, Bool.and_eq_true, decide_eq_true_eq] at hk
    exact ⟨hk.1, hasRole_of_isBoundBase h⟩
  · rintro ⟨hk, i, hi, hr⟩
    simp [isBoundBase, hk, hi, ClassInfo.isMetaclass, hr]

theorem isBoundInterface_iff :
    p.isBoundInterface x = true ↔ (p.classAt x).kind = .interface ∧ ∃ role, p.HasRole x role := by
  constructor
  · intro h
    have hk := h
    simp only [isBoundInterface, Bool.and_eq_true, decide_eq_true_eq] at hk
    exact ⟨hk.1, hasRole_of_isBoundInterface h⟩
  · rintro ⟨hk, role, hr⟩
    simp [isBoundInterface, hk, isBound_of_hasRole hr]

theorem Extends.isBoundBase (h : p.Extends q) (hx : p.isBoundBase x = true) :
    q.isBoundBase x = true := by
  obtain ⟨hk, ho⟩ := isBoundBase_iff.1 hx
  exact isBoundBase_iff.2 ⟨(h.kind (contains_of_hasRole ho)).trans hk, h.hasRole ho⟩

theorem Extends.isBoundInterface (h : p.Extends q) (hx : p.isBoundInterface x = true) :
    q.isBoundInterface x = true := by
  obtain ⟨hk, role, hr⟩ := isBoundInterface_iff.1 hx
  exact isBoundInterface_iff.2 ⟨(h.kind (contains_of_hasRole hr)).trans hk, role, h.hasRole hr⟩

theorem Extends.hierarchyFault?_eq_none (h : p.Extends q)
    (hc : p.classes.contains cls = true) (hfit : p.hierarchyFault? cls = none) :
    q.hierarchyFault? cls = none := by
  obtain ⟨hbase, hinterfaces⟩ := hierarchyFault?_eq_none_iff.1 hfit
  refine hierarchyFault?_eq_none_iff.2 ⟨fun base hb => ?_, fun i hi => ?_⟩
  · rw [h.base hc] at hb
    exact h.isBoundBase (hbase base hb)
  · rw [h.interfaces hc] at hi
    exact h.isBoundInterface (hinterfaces i hi)

/-- Every bound class fits into the bound hierarchy. -/
def HierarchyFits (p : Program) : Prop :=
  ∀ cls, p.HasRole cls .ordinary → p.hierarchyFault? cls = none

end Program

theorem Change.hierarchyFits {deed : Deed} {c d : Compilation} (h : Change deed c d)
    (hc : c.program.HierarchyFits) : d.program.HierarchyFits := by
  intro cls hd
  rcases h.ordinary_of_ordinary hd with ho | rfl
  · exact h.extends.program.hierarchyFault?_eq_none (contains_of_hasRole ho) (hc cls ho)
  · have hcls := contains_of_hasRole hd
    have hext := h.extends.program
    cases h with
    | mark _ _ hfit =>
      rw [modifyClass, Arena.contains_modify] at hcls
      exact hext.hierarchyFault?_eq_none hcls hfit

theorem Growth.hierarchyFits {g : Growth} (hg : g.Unbound) {p : Program}
    (hp : p.HierarchyFits) : (g.apply p).HierarchyFits := by
  intro cls hcls
  have ho := hasRole_of_pairing_eq (g.pairing_apply hg p cls) hcls
  exact (g.apply_extends p).hierarchyFault?_eq_none (contains_of_hasRole ho) (hp cls ho)

theorem Run.hierarchyFits {past : List Compilation} {c : Compilation}
    (h : Run (fun _ e => e.Unbound) past c) : c.program.HierarchyFits := by
  refine h.changes (fun _ _ hU => hU) (fun renders cls hcls => ?_)
    (fun _ _ hg => Growth.hierarchyFits hg) fun _ _ _ => Change.hierarchyFits
  obtain ⟨i, hi, -⟩ := hcls
  rw [info_new] at hi
  cases hi

/-! ## When a class is marked -/

variable {c d : Compilation} {cls : ClassId}

/-- A class that does not fit is not marked, and keeps the role it has. -/
theorem mark_fits (cls : ClassId) (kind : ClassKind) (hf : c.session.strategy = .functional) :
    Outcome (guarded () (mark cls kind)) c (fun _ _ => c.program.hierarchyFault? cls = none)
      fun _ d => d.program.pairing cls = c.program.pairing cls := by
  cases ha : c.session.aborted with
  | true => exact (outcome_of_error (guarded_of_aborted ha)).2 rfl
  | false =>
    refine (outcome_guarded _ ha hf).2 (outcome_bind.2 (outcome_program.2 ?_))
    dsimp only
    split
    · exact outcome_refuse.2 rfl
    · split
      · exact outcome_reject.2 ((Change.rejectClass cls _ _ rfl).pairing_eq nofun nofun cls)
      · split
        · exact outcome_reject.2 ((Change.rejectClass cls _ _ rfl).pairing_eq nofun nofun cls)
        · rename_i hfit
          exact outcome_bind.2 hfit

/-- What a step makes is a metaclass, so that a bound class was declared before. -/
theorem Phases.contains_of_ordinary {marks : ClassId → Prop}
    {lists : FuncId → ClassId → Bool → Prop} (h : Phases marks lists c d)
    (hd : d.program.HasRole cls .ordinary) : c.program.classes.contains cls = true := by
  refine (h.invariant (I := fun d => d.program.classes.contains cls = true →
    c.program.classes.contains cls = true ∨ d.program.HasRole cls .metaclass) ?_ .inl
      (contains_of_hasRole hd)).resolve_right fun hm => nomatch hasRole_unique hd hm
  intro d e deed hstep ih he
  rcases hstep.contains_cases he with hold | ⟨x, hmakes⟩
  · exact (ih hold).imp_right hstep.extends.program.hasRole
  · exact .inr (hasRole_iff.2 ⟨_, hmakes.pairing⟩)

/-- From `p` to `q` the class was not bound, unless it has fitted before. -/
def Program.BoundIfFit (p q : Program) (cls : ClassId) : Prop :=
  q.HasRole cls .ordinary → p.HasRole cls .ordinary ∨ p.hierarchyFault? cls = none

/-- It does not matter what is done after the class has been found fit. -/
theorem mark_boundIfFit {α : Type} (cls : ClassId) (kind : ClassKind)
    (hf : c.session.strategy = .functional) (rest : Unit → Resolve α) :
    Outcome (guarded () (mark cls kind) >>= rest) c
      (fun _ d => c.program.BoundIfFit d.program cls)
      fun _ d => c.program.BoundIfFit d.program cls := by
  refine outcome_bind.2 (outcome_mono (mark_fits cls kind hf) (fun _ _ hfit => ?_) ?_)
  · exact outcome_finish.2 fun _ => .inr hfit
  · exact fun _ d hd ho => .inl (hasRole_of_pairing_eq hd ho)

theorem bindClass_boundIfFit (cls : ClassId) (scope : ScopeId)
    (hf : c.session.strategy = .functional) :
    Outcome (Session.bindClass cls scope) c (fun _ d => c.program.BoundIfFit d.program cls)
      fun _ d => c.program.BoundIfFit d.program cls := by
  refine outcome_bind.2 (outcome_program.2 ?_)
  split
  · exact mark_boundIfFit cls .concrete hf _
  · exact mark_boundIfFit cls .interface hf _

/-- An operation that binds a class has found at its beginning that the class fits. -/
theorem Operation.fits_of_marked (op : Operation) (hf : c.session.strategy = .functional)
    (hl : c.program.Layered) (hnew : ¬ c.program.HasRole cls .ordinary)
    (ho : (finish op.run c).program.HasRole cls .ordinary) :
    c.program.hierarchyFault? cls = none := by
  have hmarks : op.Marks cls := ((op.phases hf hl).ordinary ho).resolve_left hnew
  have hfit : Outcome op.run c (fun _ d => c.program.BoundIfFit d.program cls)
      fun _ d => c.program.BoundIfFit d.program cls := by
    cases op with
    | markClass x =>
      cases hmarks
      exact mark_boundIfFit cls .concrete hf _
    | markInterface x =>
      cases hmarks
      exact mark_boundIfFit cls .interface hf _
    | bindClass x scope =>
      cases hmarks
      exact outcome_bind.2 (outcome_mono (bindClass_boundIfFit cls scope hf) (fun _ _ h => h)
        fun _ _ h => h)
    | _ => exact hmarks.elim
  exact (outcome_finish.1 hfit ho).resolve_left hnew

/-! ## Bound classes among their like -/

/-- The parents of `cls` are bound as its kind calls for: the base is a bound class, and recorded
as the superclass, and the interfaces are bound protocols. -/
structure Program.Homogeneous (p : Program) (cls : ClassId) : Prop where
  superclass : (p.classAt cls).superclass = (p.classAt cls).base
  base : ∀ x, (p.classAt cls).base = some x →
    (p.classAt x).kind = .concrete ∧ p.HasRole x .ordinary
  interfaces : ∀ x ∈ (p.classAt cls).interfaces,
    (p.classAt x).kind = .interface ∧ p.HasRole x .ordinary

/-- The class is not bound yet, and one of its interfaces is a metaclass. -/
def Program.AwaitsMetaclass (p : Program) (cls : ClassId) : Prop :=
  ¬ p.HasRole cls .ordinary ∧ ∃ x ∈ (p.classAt cls).interfaces, p.HasRole x .metaclass

/-- A metaclass among the interfaces of a bound class has been there, as a metaclass, before the
class was bound. -/
theorem Run.awaited {past : List Compilation} (h : Run (fun _ e => e.Unbound) past c)
    (ho : c.program.HasRole cls .ordinary) {x : ClassId}
    (hx : x ∈ (c.program.classAt cls).interfaces) (hm : c.program.HasRole x .metaclass) :
    ∃ k ∈ past, k.program.AwaitsMetaclass cls := by
  induction h with
  | start renders =>
    obtain ⟨i, hi, -⟩ := ho
    rw [info_new] at hi
    cases hi
  | @step past c e h he ih =>
    obtain ⟨hf, hl⟩ := h.functional fun _ _ hU => hU
    have hext := ((h.step he).extends_past (fun _ _ hU => hU)
      (List.mem_cons_of_mem _ List.mem_cons_self)).program
    -- An interface that has been found fit had its role then.
    have hback (hc : c.program.classes.contains cls = true)
        (hfit : c.program.hierarchyFault? cls = none) :
        x ∈ (c.program.classAt cls).interfaces ∧ c.program.HasRole x .metaclass := by
      rw [hext.interfaces hc] at hx
      have hbound := (hierarchyFault?_eq_none_iff.1 hfit).2 x hx
      obtain ⟨-, role, hrole⟩ := isBoundInterface_iff.1 hbound
      cases hasRole_unique (hext.hasRole hrole) hm
      exact ⟨hx, hrole⟩
    by_cases hold : c.program.HasRole cls .ordinary
    · obtain ⟨hx, hm⟩ := hback (contains_of_hasRole hold) (h.hierarchyFits cls hold)
      obtain ⟨k, hk, hawaits⟩ := ih hold hx hm
      exact ⟨k, List.mem_cons_of_mem c hk, hawaits⟩
    · cases e with
      | grow g => exact absurd (hasRole_of_pairing_eq (g.pairing_apply he c.program cls) ho) hold
      | run op =>
        obtain ⟨hx, hm⟩ := hback ((op.phases hf hl).contains_of_ordinary ho)
          (op.fits_of_marked hf hl hold ho)
        exact ⟨c, List.mem_cons_self, hold, x, hx, hm⟩

theorem Run.homogeneous_iff_not_awaits {past : List Compilation}
    (h : Run (fun _ e => e.Unbound) past c) (ho : c.program.HasRole cls .ordinary) :
    c.program.Homogeneous cls ↔ ∀ k ∈ past, ¬ k.program.AwaitsMetaclass cls := by
  obtain ⟨hbase, hinterfaces⟩ := hierarchyFault?_eq_none_iff.1 (h.hierarchyFits cls ho)
  constructor
  · rintro hom k hk ⟨-, x, hx, hm⟩
    have hext := (h.extends_past (fun _ _ hU => hU) (List.mem_cons_of_mem c hk)).program
    have hc : k.program.classes.contains cls = true := by
      refine contains_of_ne fun hd => ?_
      rw [hd] at hx
      cases hx
    rw [← hext.interfaces hc] at hx
    cases hasRole_unique (hom.interfaces x hx).2 (hext.hasRole hm)
  · intro hnever
    obtain ⟨i, hi, hio⟩ := ho
    refine ⟨?_, fun x hx => isBoundBase_iff.1 (hbase x hx), fun x hx => ?_⟩
    · rw [ClassDecl.superclass, hi, Option.bind_some]
      exact (h.functional fun _ _ hU => hU).2.superclasses cls i hi hio
    · obtain ⟨hk, role, hrole⟩ := isBoundInterface_iff.1 (hinterfaces x hx)
      cases role with
      | ordinary => exact ⟨hk, hrole⟩
      | metaclass =>
        obtain ⟨k, hk, hawaits⟩ := h.awaited ⟨i, hi, hio⟩ hx hrole
        exact absurd hawaits (hnever k hk)

/-- If all bound classes at and above `cls` are homogeneous, then what is above is bound. -/
theorem Program.ordinary_above {p : Program} {x : ClassId} (ho : p.HasRole cls .ordinary)
    (hom : ∀ x, x = cls ∨ p.Above cls x → p.HasRole x .ordinary → p.Homogeneous x)
    (hx : p.Above cls x) : p.HasRole x .ordinary := by
  have hparent {y z : ClassId} (hy : p.Homogeneous y) (hyz : p.IsParent y z) :
      p.HasRole z .ordinary := by
    rcases hyz with hz | hz
    · exact (hy.base z hz).2
    · exact (hy.interfaces z hz).2
  induction hx with
  | single hz => exact hparent (hom cls (.inl rfl) ho) hz
  | tail hy hz ih => exact hparent (hom _ (.inr hy) ih) hz

/-- The base of a bound class is a bound class, recorded as its superclass, and its interfaces are
of the kind of protocols and bound. They are bound as protocols exactly if the class was never
seen, before it was bound, with an interface that was a metaclass. Everything above a bound class
is bound as a class or protocol, among its like, and no metaclass, exactly if this holds of the
class and of all those above it. -/
theorem homogeneous_iff {past : List Compilation} (h : Run (fun _ e => e.Unbound) past c)
    (ho : c.program.HasRole cls .ordinary) :
    ((c.program.classAt cls).superclass = (c.program.classAt cls).base ∧
      (∀ x, (c.program.classAt cls).base = some x →
        (c.program.classAt x).kind = .concrete ∧ c.program.HasRole x .ordinary) ∧
      ∀ x ∈ (c.program.classAt cls).interfaces,
        (c.program.classAt x).kind = .interface ∧ ∃ role, c.program.HasRole x role) ∧
    (c.program.Homogeneous cls ↔ ∀ k ∈ past, ¬ k.program.AwaitsMetaclass cls) ∧
    ((∀ x, x = cls ∨ c.program.Above cls x →
        c.program.HasRole x .ordinary ∧ ¬ c.program.HasRole x .metaclass ∧
          c.program.Homogeneous x) ↔
      ∀ x, x = cls ∨ c.program.Above cls x → ∀ k ∈ past, ¬ k.program.AwaitsMetaclass x) := by
  obtain ⟨hbase, hinterfaces⟩ := hierarchyFault?_eq_none_iff.1 (h.hierarchyFits cls ho)
  refine ⟨⟨?_, fun x hx => isBoundBase_iff.1 (hbase x hx),
    fun x hx => isBoundInterface_iff.1 (hinterfaces x hx)⟩, h.homogeneous_iff_not_awaits ho, ?_⟩
  · obtain ⟨i, hi, hio⟩ := ho
    rw [ClassDecl.superclass, hi, Option.bind_some]
    exact (h.functional fun _ _ hU => hU).2.superclasses cls i hi hio
  · constructor
    · intro hall x hx
      obtain ⟨hxo, -, hom⟩ := hall x hx
      exact (h.homogeneous_iff_not_awaits hxo).1 hom
    · intro hnever x hx
      have hom {y : ClassId} (hy : y = cls ∨ c.program.Above cls y)
          (hyo : c.program.HasRole y .ordinary) : c.program.Homogeneous y :=
        (h.homogeneous_iff_not_awaits hyo).2 (hnever y hy)
      have hxo : c.program.HasRole x .ordinary := by
        rcases hx with rfl | hx
        · exact ho
        · exact ordinary_above ho (fun y => hom) hx
      exact ⟨hxo, fun hm => Role.noConfusion (hasRole_unique hxo hm), hom hx hxo⟩

/-- `P` is a protocol whose metaclass has been made, and `D` has that metaclass for its only
interface. -/
def takenInterfaceEvents : List Event :=
  [.grow (.addScope none), .grow (.intern "P"), .grow (.intern "D"),
    .grow (.addClass { name := ⟨5⟩, kind := .interface, span := .point 0 1 1 }),
    .run (.markInterface ⟨0⟩), .run (.resolveMetaclass ⟨0⟩ ⟨0⟩),
    .grow (.addClass
      { name := ⟨6⟩, kind := .concrete, span := .point 0 2 1, interfaces := [⟨1⟩] }),
    .run (.markClass ⟨2⟩)]

theorem not_homogeneous_takenInterface :
    let c := (Event.play [] (.new .functional false) takenInterfaceEvents).2
    c.program.HasRole ⟨2⟩ .ordinary ∧ ¬ c.program.Homogeneous ⟨2⟩ ∧
      c.program.HasRole ⟨1⟩ .metaclass ∧ c.session.sink.items = [] := by
  intro c
  have hrun : Run (fun _ e => e.Unbound)
      (Event.play [] (.new .functional false) takenInterfaceEvents).1 c :=
    (Run.start false).play (by decide +kernel)
  have ho : c.program.HasRole ⟨2⟩ .ordinary := hasRole_iff.2 ⟨none, by decide +kernel⟩
  have hm : c.program.HasRole ⟨1⟩ .metaclass := hasRole_iff.2 ⟨some ⟨0⟩, by decide +kernel⟩
  obtain ⟨-, hiff, -⟩ := homogeneous_iff hrun ho
  obtain ⟨k, hk, hawaits⟩ := hrun.awaited ho (x := ⟨1⟩) (by decide +kernel) hm
  exact ⟨ho, fun hom => hiff.1 hom k hk hawaits, hm, by decide +kernel⟩

end ObjcBinding
