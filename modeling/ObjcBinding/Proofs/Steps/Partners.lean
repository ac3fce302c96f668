import ObjcBinding.Proofs.Steps.Entries
import ObjcBinding.Proofs.Steps.Order

/-!
# Partners under changes

The other half of a class is recorded for good. That of a metaclass could be replaced by a class
whose header names the metaclass as well; where no two headers name one metaclass, it is not.

* `Change.classAt_pair`: making a pair rewrites no metaclass but one that a header names;
* `Trail.partner`: where headers are apart, partners are kept;
* `Change.superclass_eq_of_not_free`: a metaclass keeps its superclass unless it is given away.
-/

namespace ObjcBinding

open Program

variable {deed : Deed} {c d : Compilation} {cls m x y : ClassId}

theorem Change.headersApart_iff (h : Change deed c d) :
    d.program.HeadersApart ↔ c.program.HeadersApart := by
  refine ⟨fun hd => hd.of_extends h.extends.program, fun ⟨hb, hu⟩ => ⟨fun x m hx => ?_,
    fun x y m hx hy => ?_⟩⟩
  · exact hb x m (h.headerNames_iff.1 hx)
  · exact hu x y m (h.headerNames_iff.1 hx) (h.headerNames_iff.1 hy)

theorem Trail.headersApart_iff {permits : Compilation → Deed → Prop} (h : Trail permits c d) :
    d.program.HeadersApart ↔ c.program.HeadersApart :=
  h.invariant (I := fun d => d.program.HeadersApart ↔ c.program.HeadersApart)
    (fun _ _ _ _ hstep he => hstep.headersApart_iff.trans he) .rfl

/-- Making a pair for `cls` leaves the metaclasses that there are as they were, but for one that
is free for `cls`, and that the header of `cls` names. -/
theorem Change.classAt_pair (h : Change (.pair cls) c d) (hm : c.program.HasRole m .metaclass) :
    d.program.classAt m = c.program.classAt m ∨
      c.program.HeaderNames cls m ∧ c.program.FreeFor cls m := by
  have hne : m ≠ cls := by
    rintro rfl
    exact nomatch hasRole_unique hm h.pair_was_ordinary
  have hold : m ≠ ⟨c.program.classes.size⟩ := ne_fresh_of_contains (contains_of_hasRole hm)
  cases h with
  | synthesize =>
    exact .inl (by rw [classAt_setInfo_of_ne _ hne, classAt_makeMetaclass, if_neg hold])
  | @linkForeign _ _ m' i j sm _ _ hn _ hfree =>
    by_cases he : m = m'
    · subst he
      exact .inr ⟨hn, hfree⟩
    · exact .inl (by rw [classAt_setInfo_of_ne _ hne, classAt_setMetaclass_of_ne _ _ he])
  | relink => exact .inl (classAt_setInfo_of_ne _ hne)
  | orphan => exact .inl (by rw [classAt_makeMetaclass, if_neg hold])
  | halfLink => exact .inl (classAt_setInfo_of_ne _ hne)

theorem Trail.partnered {permits : Compilation → Deed → Prop} (h : Trail permits c d)
    (hc : c.program.Partnered) : d.program.Partnered :=
  h.invariant (fun _ _ _ _ hstep => hstep.partnered) hc

theorem Change.partner (h : Change deed c d) (hc : c.program.HeadersApart)
    (hxy : c.program.Partner x y) : d.program.Partner x y := by
  obtain ⟨role, hp⟩ := partner_iff.1 hxy
  refine partner_iff.2 ⟨role, ?_⟩
  cases role with
  | ordinary => exact h.extends.program.pairing_eq hp
  | metaclass =>
    rcases h.pairing_of_some hp with he | rfl | ⟨cls, rfl, he⟩
    · exact he
    · exact nomatch hasRole_unique (hasRole_iff.2 ⟨_, hp⟩) h.pair_was_ordinary
    · rcases h.classAt_pair (hasRole_iff.2 ⟨_, hp⟩) with hkeep | ⟨hn, hfree⟩
      · rw [pairing, hkeep]
        exact hp
      · -- the class that the metaclass has belonged to has a header that names it, too
        obtain ⟨y', heq, -, hn'⟩ := hfree _ hp
        cases heq
        rw [he, hc.unique cls y x hn (hn' (hc.backward cls x hn))]

/-- Where headers are apart, partners are kept. -/
theorem Trail.partner {permits : Compilation → Deed → Prop} (h : Trail permits c d)
    (hc : c.program.HeadersApart) (hxy : c.program.Partner x y) : d.program.Partner x y :=
  (h.invariant (I := fun d => d.program.HeadersApart ∧ d.program.Partner x y)
    (fun _ _ _ _ hstep hd => ⟨hstep.headersApart_iff.2 hd.1, hstep.partner hd.1 hd.2⟩)
    ⟨hc, hxy⟩).2

/-- A metaclass keeps its superclass unless it is given to a class that it is free for. -/
theorem Change.superclass_eq_of_not_free (h : Change deed c d) (hm : c.program.HasRole m .metaclass)
    (hfree : ∀ cls, deed = .pair cls → c.program.HeaderNames cls m →
      ¬ c.program.FreeFor cls m) : d.program.superclass? m = c.program.superclass? m := by
  by_cases hp : ∃ cls, deed = .pair cls
  · obtain ⟨cls, rfl⟩ := hp
    rcases h.classAt_pair hm with hkeep | ⟨hn, hf⟩
    · rw [superclass?, hkeep, superclass?]
    · exact absurd hf (hfree cls rfl hn)
  · by_cases hmark : ∃ cls, deed = .mark cls
    · obtain ⟨cls, rfl⟩ := hmark
      cases h with
      | mark _ hi _ =>
        have hne : m ≠ cls := by
          rintro rfl
          obtain ⟨i, hi', -⟩ := hm
          cases hi.symm.trans hi'
        change ((c.program.modifyClass cls _).classAt m).superclass = _
        rw [classAt_modifyClass, if_neg fun h => hne h.1]
        rfl
    · exact h.superclass?_eq (fun x hx => hmark ⟨x, hx⟩) (fun x hx => hp ⟨x, hx⟩) m

/-- The metaclass of a class that is not foreign keeps its superclass. -/
theorem Change.superclass_eq (h : Change deed c d) (hb : c.program.HeadersBackward)
    (hm : c.program.pairing m = some (.metaclass, some x))
    (hx : (c.program.classAt x).foreign = false) :
    (d.program.classAt m).superclass = (c.program.classAt m).superclass := by
  refine h.superclass_eq_of_not_free (hasRole_iff.2 ⟨_, hm⟩) fun cls _ hn hfree => ?_
  obtain ⟨x', heq, -, hn'⟩ := hfree _ hm
  cases heq
  cases hx.symm.trans (hn' (hb cls m hn)).1

end ObjcBinding
