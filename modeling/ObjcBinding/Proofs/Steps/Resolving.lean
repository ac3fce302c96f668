import ObjcBinding.Proofs.Steps.Order

/-!
# Resolving metaclasses

Metaclasses are resolved from a class upward, those above before the class itself. `Resolving`
names the deeds by which this is done. A class that was stuck at the start is not paired; nothing
becomes bound; no name gets a meaning but those of the metaclasses that are made; and the session
is ended only if the bindings contradict themselves.

* `Stuck.step`: a class is stuck until it is paired itself;
* `FreeFor.trail`: while the classes above `cls` are paired, the metaclass of its header is taken
  by none but those;
* `Trail.unpaired`: the class itself is left unpaired meanwhile.
-/

namespace ObjcBinding

open Program

variable {deed : Deed} {c d : Compilation} {cls metaclass x : ClassId} {start : Program}
  {within within' : Compilation → ClassId → Prop}

/-- The deeds by which the classes in `within` get their metaclasses. -/
def Resolving (start : Program) (within : Compilation → ClassId → Prop) (c : Compilation) :
    Deed → Prop
  | .say => True
  | .abort => c.program.Corrupt
  | .declare name entry => ∃ x, within c x ∧ c.program.DeclaresMetaclassOf x name entry
  | .pair x => within c x ∧ ¬ start.Stuck x
  | .rejectClass x => within c x
  | _ => False

theorem Resolving.mono (hw : ∀ x, within c x → within' c x) (h : Resolving start within c deed) :
    Resolving start within' c deed := by
  cases deed with
  | pair x => exact ⟨hw x h.1, h.2⟩
  | rejectClass x => exact hw x h
  | declare name entry => exact h.imp fun x hx => ⟨hw x hx.1, hx.2⟩
  | _ => exact h

theorem Resolving.ne_mark (h : Resolving start within c deed) : deed ≠ .mark x := by
  rintro rfl
  exact h

/-- Nothing becomes bound while metaclasses are resolved. -/
theorem Trail.ordinary_iff (h : Trail (Resolving start within) c d) :
    d.program.HasRole x .ordinary ↔ c.program.HasRole x .ordinary := by
  refine ⟨fun hd => ?_, h.extends.program.hasRole⟩
  refine h.invariant (I := fun d => d.program.HasRole x .ordinary →
    c.program.HasRole x .ordinary) ?_ id hd
  intro d e deed hp hstep ih he
  exact ih ((hstep.ordinary_of_ordinary he).resolve_right hp.ne_mark)

/-! ## Stuck classes -/

/-- A class is stuck until it is paired itself. -/
theorem Program.Stuck.step (h : Change deed c d) (hp : deed ≠ .pair x)
    (hx : c.program.Stuck x) : d.program.Stuck x := by
  have hext := h.extends.program
  have hc := contains_of_pairing hx.unpaired
  have hord := hext.hasRole (hasRole_iff.2 ⟨_, hx.unpaired⟩)
  refine ⟨?_, (hext.foreign hc).trans hx.foreign, fun m hm => ?_⟩
  · rcases h.pairing_of_some hx.unpaired with he | he | ⟨y, -, he⟩
    · exact he
    · exact absurd he hp
    · exact nomatch hasRole_unique hord (hasRole_iff.2 ⟨_, he⟩)
  · have hheader := congrArg ClassDecl.foreignMetaclass (hext.classSource x hc)
    obtain ⟨r, hr, hne⟩ := hx.header m (hheader.symm.trans hm)
    rcases h.pairing_of_some hr with he | rfl | ⟨y, rfl, he⟩
    · exact ⟨r, he, hne⟩
    · obtain ⟨partner, he⟩ := hasRole_iff.1 h.pair_ordinary
      exact ⟨_, he, nofun⟩
    · refine ⟨_, he, fun heq => hp ?_⟩
      cases heq
      rfl

/-- What resolving relies on: superclasses are as declared, metaclasses belong to classes, and what
was stuck at the start still is. -/
structure Ready (start : Program) (c : Compilation) : Prop where
  superclasses : c.program.SuperclassesDeclared
  partnered : c.program.Partnered
  stuck : ∀ x, start.Stuck x → c.program.Stuck x

theorem Ready.of_layered (h : c.program.Layered) : Ready c.program c :=
  ⟨h.superclasses, h.partnered, fun _ hx => hx⟩

/-! ## The class whose parents are resolved -/

/-- A class is not paired while those are that it is derived from. -/
theorem Trail.unpaired (h : Trail (Resolving start fun c => c.program.DerivedFrom cls) c d)
    {height : Nat} (hin : c.program.Within height cls)
    (hc : c.program.pairing cls = some (.ordinary, none)) :
    d.program.pairing cls = some (.ordinary, none) := by
  refine (h.invariant (I := fun d => c.Extends d ∧
    d.program.pairing cls = some (.ordinary, none)) ?_ ⟨.refl c, hc⟩).2
  rintro d e deed hp hstep ⟨hext, hd⟩
  have hext' := hext.trans hstep.extends
  refine ⟨hext', ?_⟩
  rcases hstep.pairing_of_some hd with he | rfl | ⟨y, -, he⟩
  · exact he
  · exact absurd hp.1 (hin.of_extends hext.program).not_derivedFrom_self
  · have hord := hext'.program.hasRole (hasRole_iff.2 ⟨_, hc⟩)
    exact nomatch hasRole_unique hord (hasRole_iff.2 ⟨_, he⟩)

theorem Program.FreeFor.step
    (hp : Resolving start (fun c => c.program.DerivedFrom cls) c deed) (h : Change deed c d)
    (hc : metaclass.index < cls.index → c.program.classes.contains metaclass = true)
    (hf : c.program.FreeFor cls metaclass) : d.program.FreeFor cls metaclass := by
  have hext := h.extends.program
  have hkeep : d.program.pairing metaclass = c.program.pairing metaclass →
      d.program.FreeFor cls metaclass := by
    intro he r hr
    rw [he] at hr
    obtain ⟨x, rfl, hx, hn⟩ := hf r hr
    exact ⟨x, rfl, hext.above hx, fun hlt => hext.headerNames (hn hlt)⟩
  rcases h.pairing_cases metaclass with he | ⟨hmark, -⟩ | ⟨-, ho, -⟩ | ⟨y, rfl, he, -, hn⟩
  · exact hkeep he
  · exact absurd hmark hp.ne_mark
  · exact absurd ho hf.not_ordinary
  · intro r hr
    rw [he] at hr
    cases hr
    refine ⟨y, rfl, hext.above hp.1.above, fun hlt => ?_⟩
    rcases hn with hn | hn
    · rw [hc hlt] at hn
      cases hn
    · exact hext.headerNames hn

theorem Program.FreeFor.trail
    (h : Trail (Resolving start fun c => c.program.DerivedFrom cls) c d)
    (hc : metaclass.index < cls.index → c.program.classes.contains metaclass = true)
    (hf : c.program.FreeFor cls metaclass) : d.program.FreeFor cls metaclass := by
  have hall := h.invariant (I := fun d =>
    (metaclass.index < cls.index → d.program.classes.contains metaclass = true) ∧
      d.program.FreeFor cls metaclass) ?_ ⟨hc, hf⟩
  · exact hall.2
  · intro c d deed hp hstep ⟨hc, hf⟩
    exact ⟨fun hlt => hstep.extends.program.containsClass _ (hc hlt), hf.step hp hstep hc⟩

end ObjcBinding
