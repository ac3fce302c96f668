import ObjcBinding.Proofs.Consistency

/-!
# The hierarchy of metaclasses

The metaclasses that are made mirror the classes they are made for. Each has the name of its class
behind a prefix and the kind of its class, and where the class inherits from a superclass and from
interfaces, the metaclass inherits from the other halves of these, which have been paired before.
This holds in whatever order classes are resolved, and if some of the attempts fail.

* `Mirrors.of_extends`: a metaclass goes on to mirror its class while partners are kept;
* `Mirrors.of_made`: it does so from the beginning;
* `metaclasses_mirror`: the metaclasses that were made are one for each paired class that is not
  foreign, and mirror these.
-/

namespace ObjcBinding

namespace Program

/-- The class is paired with `m`, and no header stands for it. -/
structure Owns (p : Program) (cls m : ClassId) : Prop where
  pairing : p.pairing cls = some (.ordinary, some m)
  own : (p.classAt cls).foreign = false

/-- `m` was made in the image of `cls`. -/
structure Mirrors (p : Program) (cls m : ClassId) : Prop where
  synthesized : (p.classAt m).synthesized = true
  name : p.names.resolve (p.classAt m).name = some ("OBJC_METACLASS_$_" ++ p.className cls)
  kind : (p.classAt m).kind = (p.classAt cls).kind
  base : Option.Rel p.Partner (p.classAt cls).superclass (p.classAt m).base
  superclass : (p.classAt m).superclass = (p.classAt m).base
  interfaces : List.Forall₂ p.Partner (p.classAt cls).interfaces (p.classAt m).interfaces

variable {p q : Program} {cls m : ClassId}

theorem Owns.of_extends (h : p.Owns cls m) (hext : p.Extends q) : q.Owns cls m where
  pairing := hext.pairing_eq h.pairing
  own := (hext.foreign (contains_of_pairing h.pairing)).trans h.own

/-- Only the metaclass of a header could name another class. -/
theorem PairsLinked.pairing_of_owns (h : p.PairsLinked) (ho : p.Owns cls m) :
    p.pairing m = some (.metaclass, some cls) := by
  obtain ⟨x, hm, hx⟩ := h.ofClass cls m ho.pairing
  rcases hx with rfl | ⟨-, -, hn⟩
  · exact hm
  · cases hn.1.symm.trans ho.own

/-- A metaclass goes on to mirror its class while partners are kept. -/
theorem Mirrors.of_extends (h : p.Mirrors cls m) (hext : p.Extends q)
    (ho : p.HasRole cls .ordinary) (hkeep : ∀ x y, p.Partner x y → q.Partner x y)
    (hname : q.className cls = p.className cls)
    (hsuper : (q.classAt m).superclass = (p.classAt m).superclass) : q.Mirrors cls m := by
  have hc := contains_of_hasRole ho
  have hm := contains_of_synthesized h.synthesized
  exact
    { synthesized := (hext.synthesized hm).trans h.synthesized
      name := by
        rw [hext.name hm, hname]
        exact hext.names _ _ h.name
      kind := by rw [hext.kind hm, hext.kind hc, h.kind]
      base := by
        rw [hext.superclass ho, hext.base hm]
        exact rel_partner hkeep h.base
      superclass := by rw [hsuper, hext.base hm, h.superclass]
      interfaces := by
        rw [hext.interfaces hc, hext.interfaces hm]
        exact h.interfaces.imp hkeep }

/-- The metaclass that is made for a class mirrors it. -/
theorem Mirrors.of_made {superMetaclass : Option ClassId} {interfaces : List ClassId}
    (hext : p.Extends q) (ho : p.HasRole cls .ordinary)
    (hm : q.classAt m = p.madeMetaclass cls superMetaclass interfaces)
    (hmade : p.Makes q cls m) (hres : p.Resolved cls superMetaclass interfaces)
    (hp : p.HeadersApart) (hkeep : ∀ x y, p.Partner x y → q.Partner x y)
    (hname : q.className cls = p.className cls) : q.Mirrors cls m := by
  have hc := contains_of_hasRole ho
  exact
    { synthesized := by rw [hm, madeMetaclass]
      name := by
        rw [hname]
        exact hmade.name
      kind := by rw [hm, hext.kind hc, madeMetaclass]
      base := by
        rw [hext.superclass ho, hm]
        exact rel_partner hkeep (hres.superclass hp)
      superclass := by
        rw [hm]
        rfl
      interfaces := by
        rw [hext.interfaces hc, hm]
        exact (hres.interfaces hp).imp hkeep }

end Program

open Program

variable {deed : Deed} {c d : Compilation} {cls m : ClassId}

/-- A class that comes to own a metaclass has been given one that mirrors it. -/
theorem Change.mirrors_of_pair (h : Change (.pair cls) c d) (hd : d.session.aborted = false)
    (hp : c.program.HeadersApart) (hname : d.program.className cls = c.program.className cls)
    (hnew : d.program.Owns cls m) : d.program.Mirrors cls m := by
  have hext := h.extends.program
  have hkeep (x y : ClassId) (hxy : c.program.Partner x y) : d.program.Partner x y :=
    h.partner hp hxy
  have hown : (c.program.classAt cls).foreign = false :=
    (hext.foreign (contains_of_hasRole h.pair_was_ordinary)).symm.trans hnew.own
  cases h with
  | @synthesize _ _ i j sm is hi ho _ hres hj =>
    have hc := contains_of_info hi
    have hc' := (extends_makeMetaclass c.program cls sm is).containsClass cls hc
    have hne := (ne_fresh_of_contains hc).symm
    obtain rfl := partner_of_setInfo hc' hj hnew.pairing
    have hmade := (makes_makeMetaclass ⟨i, hi, ho⟩ sm is).setInfo hc' hne j
    refine .of_made hext ⟨i, hi, ho⟩ ?_ hmade hres hp hkeep hname
    rw [classAt_setInfo_of_ne _ hne, classAt_makeMetaclass, if_pos rfl]
  | linkForeign _ _ _ hn => cases hn.1.symm.trans hown
  | relink _ _ hn => cases hn.1.symm.trans hown
  | orphan _ _ ha => cases ha.symm.trans hd
  | halfLink ha => cases ha.symm.trans hd

/-- What holds at all times: while the session goes on, every metaclass that was made is owned, and
where headers are apart, it mirrors its owner. -/
structure Compilation.Reflects (c : Compilation) : Prop where
  named : c.program.NamesIssued
  backward : c.program.HeadersBackward
  linked : c.session.aborted = false → c.program.PairsLinked
  owned : c.session.aborted = false → ∀ m, (c.program.classAt m).synthesized = true →
    ∃ cls, c.program.Owns cls m
  mirrors : c.session.aborted = false → c.program.HeadersApart →
    c.program.names.size ≤ Symbol.placeholder.id →
      ∀ cls m, c.program.Owns cls m → c.program.Mirrors cls m

namespace Compilation.Reflects

theorem owned_change (h : c.Reflects) (hstep : Change deed c d)
    (hd : d.session.aborted = false) (hs : (d.program.classAt m).synthesized = true) :
    ∃ cls, d.program.Owns cls m := by
  have hext := hstep.extends.program
  have ha := hstep.extends.running hd
  cases hc : c.program.classes.contains m with
  | true =>
    obtain ⟨cls, ho⟩ := h.owned ha m ((hext.synthesized hc).symm.trans hs)
    exact ⟨cls, ho.of_extends hext⟩
  | false =>
    rcases hstep.contains_cases (contains_of_synthesized hs) with hold | ⟨cls, hmakes⟩
    · cases hc.symm.trans hold
    · have hlinked := hstep.pairsLinked hd h.backward (h.linked ha)
      obtain ⟨cls', he, hpair⟩ := hlinked.ofMetaclass m _ hmakes.pairing
      cases he
      refine ⟨cls, hpair, ?_⟩
      rw [← Bool.not_eq_true]
      intro hf
      -- no header names what has only just been made
      have hlt := h.backward cls m
        (hstep.headerNames_iff.1 (hlinked.ofForeign cls m hpair hf))
      have hold := Arena.contains_of_lt (contains_of_hasRole hmakes.ordinary) hlt
      cases hold.symm.trans hc

theorem mirrors_change (h : c.Reflects) (hstep : Change deed c d)
    (hd : d.session.aborted = false) (hp : d.program.HeadersApart)
    (hroom : d.program.names.size ≤ Symbol.placeholder.id) (ho : d.program.Owns cls m) :
    d.program.Mirrors cls m := by
  have hext := hstep.extends.program
  have ha := hstep.extends.running hd
  have hpc := hstep.headersApart_iff.1 hp
  by_cases hpair : c.program.pairing cls = some (.ordinary, some m)
  · have hcls := contains_of_pairing hpair
    have hold : c.program.Owns cls m := ⟨hpair, (hext.foreign hcls).symm.trans ho.own⟩
    have hmirrors := h.mirrors ha hpc (Nat.le_trans hext.names_size_le hroom) cls m hold
    exact hmirrors.of_extends hext (hasRole_iff.2 ⟨_, hpair⟩) (fun _ _ => hstep.partner hpc)
      (h.named.className_eq hext hroom hcls)
      (hstep.superclass_eq h.backward ((h.linked ha).pairing_of_owns hold) hold.own)
  · obtain rfl := hstep.pair_of_new hpair ho.pairing
    have hcls := contains_of_hasRole hstep.pair_was_ordinary
    exact hstep.mirrors_of_pair hd hpc (h.named.className_eq hext hroom hcls) ho

theorem change (h : c.Reflects) (hstep : Change deed c d) : d.Reflects where
  named := hstep.namesIssued h.named
  backward := fun cls m hm => h.backward cls m (hstep.headerNames_iff.1 hm)
  linked := fun hd => hstep.pairsLinked hd h.backward (h.linked (hstep.extends.running hd))
  owned := fun hd _ => h.owned_change hstep hd
  mirrors := fun hd hp hroom _ _ => h.mirrors_change hstep hd hp hroom

end Compilation.Reflects

/-! ## Runs -/

/-- A class that is added is written in the source, under a name that was issued. -/
def Event.ClassWritten (p : Program) : Event → Prop
  | .grow (.addClass d) => d.synthesized = false ∧ p.Issued d.name
  | _ => True

instance (p : Program) : DecidablePred (Event.ClassWritten p)
  | .grow (.addClass d) => inferInstanceAs (Decidable (d.synthesized = false ∧ p.Issued d.name))
  | .grow (.intern _) | .grow (.addScope _) | .grow (.declare ..) | .grow (.addFunction _)
  | .grow (.addMethod ..) | .grow (.addGroup _) | .grow (.addGroupMember ..) | .run _ =>
    .isTrue trivial

/-- Declarations are added as they are written, and their headers name metaclasses that are declared
already. Any operation may be run at any time, and a name may mean anything in a scope. -/
def Event.Authored (p : Program) (e : Event) : Prop :=
  e.Unbound ∧ e.HeaderDeclared p ∧ e.ClassWritten p

instance (p : Program) : DecidablePred (Event.Authored p) :=
  fun _ => inferInstanceAs (Decidable (_ ∧ _ ∧ _))

namespace Compilation.Reflects

variable {g : Growth}

theorem owned_grow (h : c.Reflects) (ha : c.session.aborted = false)
    (hw : Event.ClassWritten c.program (.grow g))
    (hs : ((g.apply c.program).classAt m).synthesized = true) :
    ∃ cls, (g.apply c.program).Owns cls m := by
  have hext := g.apply_extends c.program
  rcases g.contains_cases (contains_of_synthesized hs) with hc | ⟨d, rfl, he⟩
  · obtain ⟨cls, ho⟩ := h.owned ha m ((hext.synthesized hc).symm.trans hs)
    exact ⟨cls, ho.of_extends hext⟩
  · rw [he] at hs
    cases hw.1.symm.trans hs

theorem mirrors_grow (h : c.Reflects) (ha : c.session.aborted = false) (hu : g.Unbound)
    (hp : (g.apply c.program).HeadersApart)
    (hroom : (g.apply c.program).names.size ≤ Symbol.placeholder.id)
    (ho : (g.apply c.program).Owns cls m) : (g.apply c.program).Mirrors cls m := by
  have hext := g.apply_extends c.program
  have hinfo (x : ClassId) := Growth.classInfo_apply hu c.program x
  have hpair := (Growth.pairing_apply hu c.program cls).symm.trans ho.pairing
  have hcls := contains_of_pairing hpair
  have hold : c.program.Owns cls m := ⟨hpair, (hext.foreign hcls).symm.trans ho.own⟩
  have hmirrors := h.mirrors ha (hp.of_extends hext) (Nat.le_trans hext.names_size_le hroom)
    cls m hold
  refine hmirrors.of_extends hext (hasRole_iff.2 ⟨_, hpair⟩) (fun x y hxy => ?_)
    (h.named.className_eq hext hroom hcls) ?_
  · rw [Partner, ClassDecl.paired, hinfo x]
    exact hxy
  · rw [ClassDecl.superclass, hinfo m, ClassDecl.superclass]

theorem grow (h : c.Reflects) (hg : Event.Authored c.program (.grow g)) :
    ({ c with program := g.apply c.program } : Compilation).Reflects where
  named := by
    refine Growth.namesIssued ?_ h.named
    rintro d rfl
    exact hg.2.2.2
  backward := Growth.headersBackward hg.2.1 h.backward
  linked := fun ha => (h.linked ha).unpaired (g.apply_extends c.program) fun x =>
    .inl (Growth.pairing_apply hg.1 c.program x)
  owned := fun ha _ => h.owned_grow ha hg.2.2
  mirrors := fun ha hp hroom _ _ => h.mirrors_grow ha hg.1 hp hroom

end Compilation.Reflects

open Run in
theorem Compilation.Reflects.of_start (renders : Bool) :
    (Compilation.new .functional renders).Reflects where
  named := by
    intro x hx
    cases hx
  backward := headersBackward_new renders
  linked := fun _ => .of_unbound (info_new renders)
  owned := by
    intro _ m hs
    cases contains_of_synthesized hs
  mirrors := by
    intro _ _ _ cls m ho
    cases contains_of_pairing ho.pairing

theorem Run.reflects {past : List Compilation} (h : Run Event.Authored past c) : c.Reflects :=
  h.changes (fun _ _ he => he.1) (fun renders => .of_start renders) (fun _ _ hg hc => hc.grow hg)
    fun _ _ _ hstep hc => hc.change hstep

/-- As long as the session goes on and no two headers name one metaclass, the metaclasses that were
made are one for each paired class that is not foreign, and each mirrors its class. -/
theorem metaclasses_mirror {past : List Compilation} (h : Run Event.Authored past c)
    (ha : c.session.aborted = false) (hroom : c.program.names.size ≤ Symbol.placeholder.id)
    (hheaders : ∀ x y m, c.program.HeaderNames x m → c.program.HeaderNames y m → x = y) :
    (∀ cls m, c.program.Owns cls m → c.program.Mirrors cls m) ∧
      ∀ m, (c.program.classAt m).synthesized = true → ∃! cls, c.program.Owns cls m := by
  have hall := h.reflects
  refine ⟨hall.mirrors ha ⟨hall.backward, hheaders⟩ hroom, fun m hs => ?_⟩
  obtain ⟨cls, ho⟩ := hall.owned ha m hs
  have hlinked := hall.linked ha
  refine ⟨cls, ho, fun y hy => ?_⟩
  have he := (hlinked.pairing_of_owns hy).symm.trans (hlinked.pairing_of_owns ho)
  cases he
  rfl

/-- `Derived` is below `Base`, whose header names `Meta`, and implements `Proto`. It is resolved
first, and again after that. -/
def mirroredEvents : List Event :=
  let shape (name : Symbol) (kind : ClassKind) : ClassDecl := { name, kind, span := .point 0 1 1 }
  [.grow (.addScope none), .grow (.intern "Meta"), .grow (.intern "Base"),
    .grow (.intern "Proto"), .grow (.intern "Derived"),
    .grow (.addClass (shape ⟨5⟩ .concrete)),
    .grow (.addClass { shape ⟨6⟩ .concrete with foreign := true, foreignMetaclass := some ⟨0⟩ }),
    .grow (.addClass (shape ⟨7⟩ .interface)),
    .grow (.addClass { shape ⟨8⟩ .concrete with base := some ⟨1⟩, interfaces := [⟨2⟩] }),
    .run (.markClass ⟨1⟩), .run (.markInterface ⟨2⟩), .run (.markClass ⟨3⟩),
    .run (.resolveMetaclass ⟨3⟩ ⟨0⟩), .run (.resolveMetaclass ⟨3⟩ ⟨0⟩)]

theorem metaclasses_mirror_derived :
    let c := (Event.play [] (.new .functional false) mirroredEvents).2
    c.program.Mirrors ⟨3⟩ ⟨5⟩ ∧ ∃! cls, c.program.Owns cls ⟨5⟩ := by
  intro c
  have hrun : Run Event.Authored (Event.play [] (.new .functional false) mirroredEvents).1 c :=
    (Run.start false).play (by decide +kernel)
  have hone : ∀ x ∈ c.program.classes.handles, ∀ y ∈ c.program.classes.handles,
      (c.program.classAt x).foreign = true → (c.program.classAt y).foreign = true → x = y := by
    decide +kernel
  have hall := metaclasses_mirror hrun (by decide +kernel) (by decide +kernel) fun x y m hx hy =>
    hone x (Arena.mem_handles.2 (contains_of_headerNames hx))
      y (Arena.mem_handles.2 (contains_of_headerNames hy)) hx.1 hy.1
  exact ⟨hall.1 ⟨3⟩ ⟨5⟩ ⟨by decide +kernel, by decide +kernel⟩, hall.2 ⟨5⟩ (by decide +kernel)⟩

end ObjcBinding
