import ObjcBinding.Proofs.Ancestry
import ObjcBinding.Proofs.MutualPairs

/-!
# Root metaclasses

The metaclass of a metaclass is found by way of the classes: up from the class to its root, and
from there over to the other half. Metaclasses have superclasses of their own, which are recorded
apart from those of the classes. The two ways meet, because at every level the superclass of the
metaclass is the other half of the superclass of the class.

* `Change.parallel`: this is so when a pair is made, and remains so;
* `Parallel.follow`: what is reached from a class has its other half above the metaclass;
* `runtimeMetaclass_root`: both ways lead from a metaclass to one root.
-/

namespace ObjcBinding

namespace Program

/-- The superclass of a metaclass is the other half of the superclass of its class. -/
def Parallel (p : Program) : Prop :=
  ∀ cls m, p.pairing cls = some (.ordinary, some m) →
    Option.Rel p.Partner (p.superclass? cls) (p.superclass? m)

/-- From superclass to superclass a way leads from `cls` to `root`, which has none. -/
structure LeadsTo (p : Program) (cls root : ClassId) : Prop where
  path : Relation.ReflTransGen (fun x y => p.superclass? x = some y) cls root
  last : p.superclass? root = none

variable {p q : Program} {cls m x y : ClassId}

theorem Parallel.of_unbound (h : ∀ x, (p.classAt x).info = none) : p.Parallel := by
  intro cls m hp
  rw [pairing, h] at hp
  cases hp

/-- What is reached from a class has its other half above the metaclass of the class. -/
theorem Parallel.follow (h : p.Parallel) (hl : p.Layered) (hpairs : p.PairsMutual)
    (hm : p.mutual cls m = true)
    (hpath : Relation.ReflTransGen (fun x y => p.superclass? x = some y) cls x) :
    ∃ y, Relation.ReflTransGen (fun x y => p.superclass? x = some y) m y ∧
      p.mutual x y = true := by
  induction hpath with
  | refl => exact ⟨m, .refl, hm⟩
  | @tail x x' _ hxx' ih =>
    obtain ⟨y, hpath, hxy⟩ := ih
    have hx := (mutual_iff.1 hxy).1
    have hrel := h x y hx
    rw [hxx'] at hrel
    cases hyy' : p.superclass? y with
    | none =>
      rw [hyy'] at hrel
      cases hrel
    | some y' =>
      rw [hyy'] at hrel
      cases hrel with
      | some hpartner =>
        obtain ⟨role, hp⟩ := partner_iff.1 hpartner
        obtain rfl := hasRole_unique (hasRole_iff.2 ⟨_, hp⟩)
          (hl.superclass_ordinary (hasRole_iff.2 ⟨_, hx⟩) hxx')
        exact ⟨y', hpath.tail hyy', mutual_iff.2 ⟨hp, hpairs.ofClass x' y' hp⟩⟩

/-- The metaclass of a root is a root. -/
theorem Parallel.leadsTo (h : p.Parallel) (hl : p.Layered) (hpairs : p.PairsMutual)
    (hm : p.mutual cls m = true) (hroot : p.LeadsTo cls x) :
    ∃ r, p.LeadsTo m r ∧ p.mutual x r = true := by
  obtain ⟨r, hpath, hr⟩ := h.follow hl hpairs hm hroot.path
  refine ⟨r, ⟨hpath, ?_⟩, hr⟩
  have hrel := h x r (mutual_iff.1 hr).1
  rw [hroot.last] at hrel
  cases hsup : p.superclass? r with
  | none => rfl
  | some y =>
    rw [hsup] at hrel
    cases hrel

theorem Layered.leadsTo_rootOf (h : p.Layered) (ho : p.HasRole cls .ordinary) :
    p.LeadsTo cls (p.rootOf cls) := by
  obtain ⟨hpath, hlast⟩ := (h.ends ho).last cls
  exact ⟨hpath, hlast⟩

theorem rootOf_of_last (h : p.superclass? cls = none) : p.rootOf cls = cls := by
  rw [rootOf, lineage_eq, h]
  rfl

end Program

open Program

variable {deed : Deed} {c d : Compilation} {cls m r : ClassId}

/-! ## Pairs are parallel -/

/-- When a class is given a metaclass, this inherits from the other half of its superclass. -/
theorem Change.parallel_pair (h : Change (.pair cls) c d) (hd : d.session.aborted = false)
    (hp : c.program.HeadersApart) (hl : c.program.PairsLinked) (hc : c.program.Parallel)
    (hm : d.program.pairing cls = some (.ordinary, some m)) :
    Option.Rel d.program.Partner (d.program.superclass? cls) (d.program.superclass? m) := by
  have hkeep (x y : ClassId) (hxy : c.program.Partner x y) : d.program.Partner x y :=
    h.partner hp hxy
  have hsuper : d.program.superclass? cls = c.program.superclass? cls :=
    h.extends.program.superclass h.pair_was_ordinary
  rw [hsuper]
  cases h with
  | @synthesize _ _ i j sm is hi ho _ hres hj =>
    have hc' := (extends_makeMetaclass c.program cls sm is).containsClass cls (contains_of_info hi)
    have hne := (ne_fresh_of_contains (contains_of_info hi)).symm
    obtain rfl := partner_of_setInfo hc' hj hm
    have hsm : ((c.program.makeMetaclass cls sm is).setInfo cls j).superclass?
        ⟨c.program.classes.size⟩ = sm := by
      rw [superclass?, classAt_setInfo_of_ne _ hne, classAt_makeMetaclass, if_pos rfl]
      rfl
    dsimp only
    rw [hsm]
    exact rel_partner hkeep (hres.superclass hp)
  | @linkForeign _ _ m' i j sm hi ho _ hcm hfree hres hj =>
    have hne : m' ≠ cls := by
      rintro rfl
      exact hfree.not_ordinary ⟨i, hi, ho⟩
    have hc' := (extends_setMetaclass hfree.not_ordinary cls sm).containsClass cls
      (contains_of_info hi)
    obtain rfl := partner_of_setInfo hc' hj hm
    obtain ⟨is, hres⟩ := hres
    have hsm : ((c.program.setMetaclass m cls sm).setInfo cls j).superclass? m = sm := by
      rw [superclass?, classAt_setInfo_of_ne _ hne, setMetaclass, classAt_modifyClass,
        if_pos ⟨rfl, hcm⟩]
      rfl
    dsimp only
    rw [hsm]
    exact rel_partner hkeep (hres.superclass hp)
  | @relink _ _ m' i j hi ho _ hback hj =>
    -- the metaclass names the class only if the class has been paired with it before
    obtain ⟨cls', he, hold⟩ := hl.ofMetaclass _ _ hback
    cases he
    have hne : m' ≠ cls := by
      rintro rfl
      cases hback.symm.trans hold
    obtain rfl := partner_of_setInfo (contains_of_info hi) hj hm
    have hsm : (c.program.setInfo cls j).superclass? m = c.program.superclass? m := by
      rw [superclass?, classAt_setInfo_of_ne _ hne, superclass?]
    dsimp only
    rw [hsm]
    exact rel_partner hkeep (hc cls m hold)
  | orphan _ _ ha => cases ha.symm.trans hd
  | halfLink ha => cases ha.symm.trans hd

/-- Where headers are apart, metaclasses remain parallel to their classes. -/
theorem Change.parallel (h : Change deed c d) (hd : d.session.aborted = false)
    (hp : c.program.HeadersApart) (hl : c.program.PairsLinked) (hc : c.program.Parallel) :
    d.program.Parallel := by
  intro cls m hm
  by_cases hpair : deed = .pair cls
  · subst hpair
    exact h.parallel_pair hd hp hl hc hm
  · have hold : c.program.pairing cls = some (.ordinary, some m) := by
      by_contra hold
      exact hpair (h.pair_of_new hold hm)
    have hmeta := (hl.pairsMutual hp.unique).ofClass cls m hold
    have hsuper : d.program.superclass? m = c.program.superclass? m := by
      refine h.superclass_eq_of_not_free (hasRole_iff.2 ⟨_, hmeta⟩) fun x hx hn hfree => ?_
      -- a class that the metaclass is free for has the header of `cls`
      obtain ⟨y, he, -, hy⟩ := hfree _ hmeta
      cases he
      exact hpair (hp.unique x cls m hn (hy (hp.backward x m hn)) ▸ hx)
    rw [show d.program.superclass? cls = c.program.superclass? cls from
      h.extends.program.superclass (hasRole_iff.2 ⟨_, hold⟩), hsuper]
    exact rel_partner (fun _ _ => h.partner hp) (hc cls m hold)

/-- Nothing but declarations that are not bound has been added. -/
theorem Growth.parallel {g : Growth} (hg : g.Unbound) {p : Program} (hp : p.Parallel) :
    (g.apply p).Parallel := by
  intro cls m hm
  rw [pairing_apply hg] at hm
  rw [superclass?, superclass?, ClassDecl.superclass, ClassDecl.superclass, classInfo_apply hg,
    classInfo_apply hg]
  refine rel_partner (fun x y hxy => ?_) (hp cls m hm)
  rw [Partner, ClassDecl.paired, classInfo_apply hg]
  exact hxy

open Run in
theorem Run.parallel {past : List Compilation}
    (h : Run (fun p e => e.Unbound ∧ e.HeaderDeclared p) past c)
    (ha : c.session.aborted = false) (hp : c.program.HeadersApart) : c.program.Parallel := by
  have hinv := h.changes (I := fun c => c.Linked ∧ (c.session.aborted = false →
    c.program.HeadersApart → c.program.Parallel)) (fun _ _ he => he.1) ?_ ?_ ?_
  · exact hinv.2 ha hp
  · intro renders
    exact ⟨.of_start renders, fun _ _ => .of_unbound (info_new renders)⟩
  · rintro c g ⟨hu, hh⟩ ⟨hlinked, hc⟩
    refine ⟨hlinked.grow hu hh, fun ha hp => ?_⟩
    exact Growth.parallel hu (hc ha (hp.of_extends (g.apply_extends _)))
  · rintro c d deed hstep ⟨hlinked, hc⟩
    refine ⟨hlinked.change hstep, fun hd hp => ?_⟩
    have ha := hstep.extends.running hd
    have hpc := hstep.headersApart_iff.1 hp
    exact hstep.parallel hd hpc (hlinked.pairs ha) (hc ha hpc)

/-! ## The metaclass of a metaclass -/

theorem Resolve.runtimeMetaclass_of_metaclass
    (hm : c.program.pairing m = some (.metaclass, some cls))
    (hr : c.program.Partner (c.program.rootOf cls) r) :
    runtimeMetaclass m c = .ok (some r) c := by
  obtain ⟨i, hi, hrole, hpaired⟩ := info_of_pairing hm
  rw [runtimeMetaclass, bind_apply, program_apply]
  simp only [hi, ClassInfo.isMetaclass, hrole, decide_true, Bool.not_true, Bool.false_eq_true,
    if_false, hpaired]
  rw [Partner] at hr
  rw [hr]
  rfl

theorem Session.runtimeMetaclass_of_partner (hf : c.session.strategy = .functional)
    (ha : c.session.aborted = false) (hm : c.program.pairing m = some (.metaclass, some cls))
    (hr : c.program.Partner (c.program.rootOf cls) r) :
    Session.runtimeMetaclass m c = .ok (some r) c := by
  rw [Session.runtimeMetaclass, guarded_of_functional ha hf]
  exact Resolve.runtimeMetaclass_of_metaclass hm hr

/-- As long as the session goes on and no two headers name one metaclass, the metaclass of a
metaclass is the end of the way along its own superclasses, and the other half of the end of the
way along those of its class. It is its own metaclass. -/
theorem runtimeMetaclass_root {past : List Compilation}
    (h : Run (fun p e => e.Unbound ∧ e.HeaderDeclared p) past c)
    (ha : c.session.aborted = false)
    (hheaders : ∀ x y m, c.program.HeaderNames x m → c.program.HeaderNames y m → x = y)
    (hm : c.program.HasRole m .metaclass) :
    ∃ cls root r, c.program.mutual cls m = true ∧ c.program.LeadsTo cls root ∧
      c.program.LeadsTo m r ∧ c.program.mutual root r = true ∧
      Session.runtimeMetaclass m c = .ok (some r) c ∧
      Session.runtimeMetaclass r c = .ok (some r) c := by
  obtain ⟨hf, hl⟩ := h.functional fun _ _ he => he.1
  have hlinked := h.linked.pairs ha
  have hpairs := hlinked.pairsMutual hheaders
  have hparallel := h.parallel ha ⟨h.linked.backward, hheaders⟩
  obtain ⟨partner, hp⟩ := hasRole_iff.1 hm
  obtain ⟨cls, rfl, hcls⟩ := hlinked.ofMetaclass m partner hp
  have hmut := mutual_iff.2 ⟨hcls, hp⟩
  have hroot := hl.leadsTo_rootOf (hasRole_iff.2 ⟨_, hcls⟩)
  obtain ⟨r, hr, hmutr⟩ := hparallel.leadsTo hl hpairs hmut hroot
  have hpartner : c.program.Partner (c.program.rootOf cls) r :=
    partner_iff.2 ⟨_, (mutual_iff.1 hmutr).1⟩
  refine ⟨cls, c.program.rootOf cls, r, hmut, hroot, hr, hmutr,
    Session.runtimeMetaclass_of_partner hf ha hp hpartner,
    Session.runtimeMetaclass_of_partner hf ha (mutual_iff.1 hmutr).2 ?_⟩
  rwa [rootOf_of_last hroot.last]

/-- The headers of `Base` and `Leaf` name `Meta` and `LeafMeta`, and for `Middle`, which is between
the two, a metaclass is made. `Leaf` is resolved first. -/
def mixedLineEvents : List Event :=
  let shape (name : Symbol) (base metaclass : Option ClassId) : ClassDecl :=
    { name, kind := .concrete, span := .point 0 1 1, base, foreign := metaclass.isSome
      foreignMetaclass := metaclass }
  [.grow (.addScope none), .grow (.intern "Meta"), .grow (.intern "LeafMeta"),
    .grow (.intern "Base"), .grow (.intern "Middle"), .grow (.intern "Leaf"),
    .grow (.addClass (shape ⟨5⟩ none none)), .grow (.addClass (shape ⟨6⟩ none none)),
    .grow (.addClass (shape ⟨7⟩ none (some ⟨0⟩))),
    .grow (.addClass (shape ⟨8⟩ (some ⟨2⟩) none)),
    .grow (.addClass (shape ⟨9⟩ (some ⟨3⟩) (some ⟨1⟩))),
    .run (.markClass ⟨2⟩), .run (.markClass ⟨3⟩), .run (.markClass ⟨4⟩),
    .run (.resolveMetaclass ⟨4⟩ ⟨0⟩)]

/-- From `LeafMeta` the way leads over a metaclass that was made to `Meta`. -/
theorem runtimeMetaclass_root_mixedLine :
    let c := (Event.play [] (.new .functional false) mixedLineEvents).2
    c.program.HasRole ⟨1⟩ .metaclass ∧ c.program.superclass? ⟨1⟩ = some ⟨5⟩ ∧
      c.program.LeadsTo ⟨1⟩ ⟨0⟩ ∧ Session.runtimeMetaclass ⟨1⟩ c = .ok (some ⟨0⟩) c ∧
      Session.runtimeMetaclass ⟨0⟩ c = .ok (some ⟨0⟩) c := by
  intro c
  have hrun : Run (fun p e => e.Unbound ∧ e.HeaderDeclared p)
      (Event.play [] (.new .functional false) mixedLineEvents).1 c :=
    (Run.start false).play (by decide +kernel)
  have hone : ∀ x ∈ c.program.classes.handles, ∀ y ∈ c.program.classes.handles,
      (c.program.classAt x).foreign = true → (c.program.classAt y).foreign = true →
      (c.program.classAt x).foreignMetaclass = (c.program.classAt y).foreignMetaclass →
      x = y := by decide +kernel
  have hheaders (x y m : ClassId) (hx : c.program.HeaderNames x m)
      (hy : c.program.HeaderNames y m) : x = y :=
    hone x (Arena.mem_handles.2 (contains_of_headerNames hx))
      y (Arena.mem_handles.2 (contains_of_headerNames hy)) hx.1 hy.1 (hx.2.trans hy.2.symm)
  have hm : c.program.HasRole ⟨1⟩ .metaclass :=
    hasRole_iff.2 ⟨some ⟨4⟩, by decide +kernel⟩
  obtain ⟨cls, root, r, -, -, hr, -, hruntime, hagain⟩ :=
    runtimeMetaclass_root hrun (by decide +kernel) hheaders hm
  have hanswer : (match Session.runtimeMetaclass ⟨1⟩ c with
    | .ok answer _ => answer
    | .error .. => none) = some ⟨0⟩ := by decide +kernel
  rw [hruntime] at hanswer
  cases hanswer
  exact ⟨hm, by decide +kernel, hr, hruntime, hagain⟩

end ObjcBinding
