import ObjcBinding.Proofs.Run

/-!
# Mutual pairs

A class and its metaclass name each other. This can be lost in a single way: the header of a
foreign class and that of a class above it declare the same metaclass, and the lower class is
resolved first. Its metaclass is found free, the class above takes it in the course of the
resolution, and then it is given to the lower class as well.

* `pairsMutual_iff`: as long as the session goes on, all pairs are mutual unless two classes of
  one line have been paired whose headers name one metaclass.
-/

namespace ObjcBinding

namespace Program

/-- The halves of every pair name each other, and no metaclass belongs to two classes. -/
structure PairsMutual (p : Program) : Prop where
  ofClass : ∀ cls m, p.pairing cls = some (.ordinary, some m) →
    p.pairing m = some (.metaclass, some cls)
  ofMetaclass : ∀ m partner, p.pairing m = some (.metaclass, partner) →
    ∃ cls, partner = some cls ∧ p.pairing cls = some (.ordinary, some m)
  unique : ∀ x y m, p.pairing x = some (.ordinary, some m) →
    p.pairing y = some (.ordinary, some m) → x = y

/-- A class and another one above it are both paired, and their headers name one metaclass. -/
def SharesMetaclass (p : Program) : Prop :=
  ∃ cls above m, cls ≠ above ∧ p.Above cls above ∧ p.HeaderNames cls m ∧
    p.HeaderNames above m ∧ p.IsPaired cls ∧ p.IsPaired above

/-- What holds of the pairs of every session that goes on. The metaclass of a class names the
class, or else one below it with which the class shares the metaclass. -/
structure PairsLinked (p : Program) : Prop where
  ofClass : ∀ y m, p.pairing y = some (.ordinary, some m) →
    ∃ x, p.pairing m = some (.metaclass, some x) ∧
      (x = y ∨ p.Above x y ∧ p.HeaderNames x m ∧ p.HeaderNames y m)
  ofMetaclass : ∀ m partner, p.pairing m = some (.metaclass, partner) →
    ∃ cls, partner = some cls ∧ p.pairing cls = some (.ordinary, some m)
  ofForeign : ∀ y m, p.pairing y = some (.ordinary, some m) → (p.classAt y).foreign = true →
    p.HeaderNames y m

/-- Without shared metaclasses the pairs of a session that goes on are mutual. -/
theorem PairsLinked.mutual_iff {p : Program} (h : p.PairsLinked) :
    p.PairsMutual ↔ ¬ p.SharesMetaclass := by
  constructor
  · rintro hm ⟨x, y, m, hne, -, hx, hy, ⟨mx, hpx⟩, my, hpy⟩
    have hmx := (h.ofForeign x mx hpx hx.1).2
    have hmy := (h.ofForeign y my hpy hy.1).2
    rw [hx.2] at hmx
    rw [hy.2] at hmy
    cases hmx
    cases hmy
    exact hne (hm.unique x y m hpx hpy)
  · intro hs
    have hclass (cls m : ClassId) (hp : p.pairing cls = some (.ordinary, some m)) :
        p.pairing m = some (.metaclass, some cls) := by
      obtain ⟨x, hm, hx⟩ := h.ofClass cls m hp
      by_cases hxy : x = cls
      · rwa [hxy] at hm
      · obtain ⟨habove, hxm, hym⟩ := hx.resolve_left hxy
        obtain ⟨x', he, hpx⟩ := h.ofMetaclass m _ hm
        cases he
        exact absurd ⟨x, cls, m, hxy, habove, hxm, hym, ⟨m, hpx⟩, m, hp⟩ hs
    refine ⟨hclass, h.ofMetaclass, fun x y m hx hy => ?_⟩
    have he := (hclass x m hx).symm.trans (hclass y m hy)
    cases he
    rfl

theorem PairsLinked.pairsMutual {p : Program} (h : p.PairsLinked)
    (hu : ∀ x y m, p.HeaderNames x m → p.HeaderNames y m → x = y) : p.PairsMutual := by
  refine h.mutual_iff.2 ?_
  rintro ⟨cls, above, m, hne, -, hcls, habove, -⟩
  exact hne (hu cls above m hcls habove)

/-- Linking a class to a metaclass that is free for it, in one step. -/
theorem PairsLinked.link {p q : Program} {cls m : ClassId} (h : p.PairsLinked)
    (hext : p.Extends q) (hne : m ≠ cls)
    (hpair : ∀ x, q.pairing x = if x = cls then some (.ordinary, some m)
      else if x = m then some (.metaclass, some cls) else p.pairing x)
    (hcls : ∀ m', p.pairing cls = some (.ordinary, some m') → m' = m)
    (hordinary : p.HasRole cls .ordinary) (hmeta : ¬ p.HasRole m .ordinary)
    (hfree : ∀ x, p.pairing m = some (.metaclass, some x) →
      x = cls ∨ p.Above cls x ∧ p.HeaderNames cls m ∧ p.HeaderNames x m)
    (hheader : (p.classAt cls).foreign = true → p.HeaderNames cls m) : q.PairsLinked := by
  have hqm : q.pairing m = some (.metaclass, some cls) := by
    rw [hpair, if_neg hne, if_pos rfl]
  -- an ordinary class other than `cls` is paired as before
  have hold {y m' : ClassId} (hy : y ≠ cls) (hp : q.pairing y = some (.ordinary, some m')) :
      p.pairing y = some (.ordinary, some m') := by
    rw [hpair, if_neg hy] at hp
    split at hp
    · cases hp
    · exact hp
  refine ⟨fun y m' hp => ?_, fun m' partner hp => ?_, fun y m' hp hf => ?_⟩
  · by_cases hy : y = cls
    · subst hy
      rw [hpair, if_pos rfl] at hp
      cases hp
      exact ⟨y, hqm, .inl rfl⟩
    · obtain ⟨x, hm', hx⟩ := h.ofClass y m' (hold hy hp)
      by_cases hmm : m' = m
      · subst hmm
        refine ⟨cls, hqm, .inr ?_⟩
        rcases hfree x hm' with rfl | ⟨ha, hcm, hxm⟩
        · obtain ⟨ha, hcm, hym⟩ := hx.resolve_left (Ne.symm hy)
          exact ⟨hext.above ha, hext.headerNames hcm, hext.headerNames hym⟩
        · rcases hx with rfl | ⟨hxy, -, hym⟩
          · exact ⟨hext.above ha, hext.headerNames hcm, hext.headerNames hxm⟩
          · exact ⟨hext.above (ha.trans hxy), hext.headerNames hcm, hext.headerNames hym⟩
      · have hmc : m' ≠ cls := by
          rintro rfl
          obtain ⟨partner, ho⟩ := hasRole_iff.1 hordinary
          rw [ho] at hm'
          cases hm'
        refine ⟨x, by rw [hpair, if_neg hmc, if_neg hmm, hm'], ?_⟩
        exact hx.imp_right fun ⟨ha, hxm, hym⟩ =>
          ⟨hext.above ha, hext.headerNames hxm, hext.headerNames hym⟩
  · by_cases hmc : m' = cls
    · rw [hpair, if_pos hmc] at hp
      cases hp
    · rw [hpair, if_neg hmc] at hp
      by_cases hmm : m' = m
      · rw [if_pos hmm] at hp
        cases hp
        exact ⟨cls, rfl, by rw [hpair, if_pos rfl, hmm]⟩
      · rw [if_neg hmm] at hp
        obtain ⟨x, rfl, hx⟩ := h.ofMetaclass m' partner hp
        have hxc : x ≠ cls := by
          rintro rfl
          exact hmm (hcls m' hx)
        have hxm : x ≠ m := by
          rintro rfl
          exact hmeta (hasRole_iff.2 ⟨_, hx⟩)
        exact ⟨x, rfl, by rw [hpair, if_neg hxc, if_neg hxm, hx]⟩
  · by_cases hy : y = cls
    · subst hy
      rw [hpair, if_pos rfl] at hp
      cases hp
      refine hext.headerNames (hheader ?_)
      rw [← hext.foreign (contains_of_hasRole hordinary), hf]
    · have hp' := hold hy hp
      refine hext.headerNames (h.ofForeign y m' hp' ?_)
      rw [← hext.foreign (contains_of_pairing hp'), hf]

theorem PairsLinked.of_unbound {p : Program} (h : ∀ x, (p.classAt x).info = none) :
    p.PairsLinked := by
  have hnone (x : ClassId) : p.pairing x = none := by
    rw [pairing, h]
    rfl
  refine ⟨fun y m hp => ?_, fun m partner hp => ?_, fun y m hp => ?_⟩
  · rw [hnone] at hp
    cases hp
  · rw [hnone] at hp
    cases hp
  · rw [hnone] at hp
    cases hp

/-- Nothing but unpaired classes has been added. -/
theorem PairsLinked.unpaired {p q : Program} (h : p.PairsLinked) (hext : p.Extends q)
    (hpair : ∀ x, q.pairing x = p.pairing x ∨
      p.pairing x = none ∧ q.pairing x = some (.ordinary, none)) : q.PairsLinked := by
  have hold {x : ClassId} {role : Role} {m : ClassId} (hp : q.pairing x = some (role, some m)) :
      p.pairing x = some (role, some m) := by
    rcases hpair x with he | ⟨-, he⟩
    · rw [← he, hp]
    · rw [he] at hp
      cases hp
  have hnew {x : ClassId} {r : Role × Option ClassId} (hp : p.pairing x = some r) :
      q.pairing x = some r := by
    rcases hpair x with he | ⟨he, -⟩
    · rw [he, hp]
    · rw [he] at hp
      cases hp
  refine ⟨fun y m hp => ?_, fun m partner hp => ?_, fun y m hp hf => ?_⟩
  · obtain ⟨x, hm, hx⟩ := h.ofClass y m (hold hp)
    exact ⟨x, hnew hm, hx.imp_right fun ⟨ha, hxm, hym⟩ =>
      ⟨hext.above ha, hext.headerNames hxm, hext.headerNames hym⟩⟩
  · rcases hpair m with he | ⟨-, he⟩
    · obtain ⟨x, rfl, hx⟩ := h.ofMetaclass m partner (he ▸ hp)
      exact ⟨x, rfl, hnew hx⟩
    · rw [he] at hp
      cases hp
  · refine hext.headerNames (h.ofForeign y m (hold hp) ?_)
    rw [← hext.foreign (contains_of_pairing (hold hp)), hf]

end Program

open Program Run

variable {deed : Deed} {c d : Compilation}

theorem Program.partner_eq_of_setPaired {p : Program} {cls m m' : ClassId} {i j : ClassInfo}
    (hi : (p.classAt cls).info = some i) (hj : i.setPaired m = .ok j)
    (hp : p.pairing cls = some (.ordinary, some m')) : m' = m := by
  obtain ⟨k, hk, -, hkp⟩ := info_of_pairing hp
  rw [hi] at hk
  cases hk
  rcases (ClassInfo.setPaired_eq_ok_iff.1 hj).1 with hpi | hpi
  · rw [hpi] at hkp
    cases hkp
  · rw [hpi] at hkp
    cases hkp
    rfl

/-- Making a pair links the class to a metaclass that is free for it. -/
theorem Change.pairsLinked_pair {cls : ClassId} (h : Change (.pair cls) c d)
    (hd : d.session.aborted = false) (hb : c.program.HeadersBackward)
    (hc : c.program.PairsLinked) : d.program.PairsLinked := by
  have hext := h.extends.program
  cases h with
  | @synthesize _ _ i j sm is hi ho hf _ hj =>
    have hcls := contains_of_info hi
    have hne := ne_fresh_of_contains hcls
    have hc' := (extends_makeMetaclass c.program cls sm is).containsClass cls hcls
    have hfresh : c.program.pairing ⟨c.program.classes.size⟩ = none := by
      rw [pairing, classAt, Arena.get_of_not_contains (not_contains_fresh _)]
      rfl
    have hrole : ¬ c.program.HasRole ⟨c.program.classes.size⟩ .ordinary := fun hr =>
      ne_fresh_of_contains (contains_of_hasRole hr) rfl
    refine hc.link hext (Ne.symm hne) (fun x => ?_) (fun m' => partner_eq_of_setPaired hi hj)
      ⟨i, hi, ho⟩ hrole (fun x hx => ?_) fun hforeign => ?_
    · obtain ⟨-, rfl⟩ := ClassInfo.setPaired_eq_ok_iff.1 hj
      rw [pairing_setInfo hc', pairing_makeMetaclass, ho]
    · rw [hfresh] at hx
      cases hx
    · rw [hf] at hforeign
      cases hforeign
  | @linkForeign _ _ m i j sm hi ho hn hm hfree _ hj =>
    have hne : m ≠ cls := by
      rintro rfl
      exact hfree.not_ordinary ⟨i, hi, ho⟩
    have hc' := (extends_setMetaclass hfree.not_ordinary cls sm).containsClass cls
      (contains_of_info hi)
    refine hc.link hext hne (fun x => ?_) (fun m' => partner_eq_of_setPaired hi hj)
      ⟨i, hi, ho⟩ hfree.not_ordinary (fun x hx => ?_) fun _ => hn
    · obtain ⟨-, rfl⟩ := ClassInfo.setPaired_eq_ok_iff.1 hj
      rw [pairing_setInfo hc', pairing_setMetaclass, ho]
      simp only [hm, and_true]
    · obtain ⟨x', he, ha, hx'⟩ := hfree _ hx
      cases he
      exact .inr ⟨ha, hn, hx' (hb cls m hn)⟩
  | @relink _ _ m i j hi ho hn hm hj =>
    have hne : m ≠ cls := by
      rintro rfl
      rw [pairing_of_info hi, ho] at hm
      cases hm
    have hmeta : ¬ c.program.HasRole m .ordinary := by
      intro hr
      obtain ⟨partner, hp⟩ := hasRole_iff.1 hr
      rw [hm] at hp
      cases hp
    refine hc.link hext hne (fun x => ?_) (fun m' => partner_eq_of_setPaired hi hj)
      ⟨i, hi, ho⟩ hmeta (fun x hx => ?_) fun _ => hn
    · obtain ⟨-, rfl⟩ := ClassInfo.setPaired_eq_ok_iff.1 hj
      rw [pairing_setInfo (contains_of_info hi), ho]
      by_cases hx : x = m
      · rw [hx, if_neg hne, if_neg hne, if_pos rfl, hm]
      · rw [if_neg hx]
    · rw [hm] at hx
      cases hx
      exact .inl rfl
  | orphan _ _ ha => cases ha.symm.trans hd
  | halfLink ha => cases ha.symm.trans hd

theorem Change.pairsLinked (h : Change deed c d) (hd : d.session.aborted = false)
    (hb : c.program.HeadersBackward) (hc : c.program.PairsLinked) : d.program.PairsLinked := by
  by_cases hp : ∃ x, deed = .pair x
  · obtain ⟨x, rfl⟩ := hp
    exact h.pairsLinked_pair hd hb hc
  · refine hc.unpaired h.extends.program fun x => ?_
    rcases h.pairing_cases x with he | ⟨-, hmark⟩ | ⟨hpair, -⟩ | ⟨y, hpair, -⟩
    · exact .inl he
    · exact .inr hmark
    · exact absurd ⟨x, hpair⟩ hp
    · exact absurd ⟨y, hpair⟩ hp

/-! ## Runs -/

/-- The header of a class that is added names a metaclass that is declared already. -/
def Event.HeaderDeclared (p : Program) : Event → Prop
  | .grow (.addClass d) => d.foreign = true → ∀ m ∈ d.foreignMetaclass,
      p.classes.contains m = true
  | _ => True

instance (p : Program) : DecidablePred (Event.HeaderDeclared p)
  | .grow (.addClass d) => inferInstanceAs (Decidable (d.foreign = true →
      ∀ m ∈ d.foreignMetaclass, p.classes.contains m = true))
  | .grow (.intern _) | .grow (.addScope _) | .grow (.declare ..) | .grow (.addFunction _)
  | .grow (.addMethod ..) | .grow (.addGroup _) | .grow (.addGroupMember ..) | .run _ =>
    .isTrue trivial

open Growth in
theorem Growth.headersBackward {p : Program} {g : Growth} (hg : Event.HeaderDeclared p (.grow g))
    (hp : p.HeadersBackward) : (g.apply p).HeadersBackward := by
  intro x m hx
  cases g with
  | addClass d =>
    change HeaderNames (p.addClass d).2 x m at hx
    rw [HeaderNames, classAt_addClass_eq] at hx
    split at hx
    · rename_i he
      have hm := hg hx.1 m hx.2
      rw [he]
      exact Arena.contains_iff_lt.1 hm
    · exact hp x m hx
  | addMethod cls d =>
    have hf := read_addMethod ClassDecl.foreign (fun _ _ => rfl) p cls d x
    have hm := read_addMethod ClassDecl.foreignMetaclass (fun _ _ => rfl) p cls d x
    exact hp x m ⟨hf.symm.trans hx.1, hm.symm.trans hx.2⟩
  | declare scope name entry =>
    obtain ⟨scopes, hp'⟩ := apply_declare p scope name entry
    rw [hp'] at hx
    exact hp x m hx
  | _ => exact hp x m hx

theorem Run.headersBackward_new (renders : Bool) :
    (Compilation.new .functional renders).program.HeadersBackward := by
  intro x m hx
  cases contains_of_headerNames hx

/-- What holds at all times: headers name what was declared before, and while the session goes on,
pairs are linked. -/
structure Compilation.Linked (c : Compilation) : Prop where
  backward : c.program.HeadersBackward
  pairs : c.session.aborted = false → c.program.PairsLinked

namespace Compilation.Linked

theorem of_start (renders : Bool) : (Compilation.new .functional renders).Linked :=
  ⟨headersBackward_new renders, fun _ => .of_unbound (info_new renders)⟩

theorem grow (h : c.Linked) {g : Growth} (hu : g.Unbound)
    (hh : Event.HeaderDeclared c.program (.grow g)) :
    ({ c with program := g.apply c.program } : Compilation).Linked where
  backward := Growth.headersBackward hh h.backward
  pairs := fun ha => (h.pairs ha).unpaired (g.apply_extends _) fun x =>
    .inl (Growth.pairing_apply hu _ x)

theorem change (h : c.Linked) (hstep : Change deed c d) : d.Linked where
  backward := fun x m hx => h.backward x m (hstep.headerNames_iff.1 hx)
  pairs := fun hd => hstep.pairsLinked hd h.backward (h.pairs (hstep.extends.running hd))

theorem trail (h : c.Linked) {permits : Compilation → Deed → Prop} (ht : Trail permits c d) :
    d.Linked :=
  ht.invariant (fun _ _ _ _ hstep hc => hc.change hstep) h

end Compilation.Linked

theorem Run.linked {past : List Compilation}
    (h : Run (fun p e => e.Unbound ∧ e.HeaderDeclared p) past c) : c.Linked :=
  h.changes (fun _ _ he => he.1) .of_start (fun _ _ hg hc => hc.grow hg.1 hg.2)
    fun _ _ _ hstep hc => hc.change hstep

theorem Run.pairsLinked {past : List Compilation}
    (h : Run (fun p e => e.Unbound ∧ e.HeaderDeclared p) past c)
    (hc : c.session.aborted = false) : c.program.PairsLinked :=
  h.linked.pairs hc

/-- The pairs of a session that goes on are mutual unless a class and another one above it have
been paired whose headers name one metaclass. -/
theorem pairsMutual_iff {past : List Compilation}
    (h : Run (fun p e => e.Unbound ∧ e.HeaderDeclared p) past c)
    (hc : c.session.aborted = false) :
    c.program.PairsMutual ↔ ¬ c.program.SharesMetaclass :=
  (Run.pairsLinked h hc).mutual_iff

/-- The headers of `Base` and of `Derived`, which is below `Base`, both name `Meta`, and `Derived`
is resolved first. -/
def sharedMetaclassEvents : List Event :=
  let header (name : Symbol) (base metaclass : Option ClassId) : ClassDecl :=
    { name, kind := .concrete, span := .point 0 1 1, base, foreign := metaclass.isSome
      foreignMetaclass := metaclass }
  [.grow (.addScope none),
    .grow (.intern "Meta"), .grow (.addClass (header ⟨5⟩ none none)),
    .grow (.intern "Base"), .grow (.addClass (header ⟨6⟩ none (some ⟨0⟩))),
    .grow (.intern "Derived"), .grow (.addClass (header ⟨7⟩ (some ⟨1⟩) (some ⟨0⟩))),
    .run (.markClass ⟨1⟩), .run (.markClass ⟨2⟩), .run (.resolveMetaclass ⟨2⟩ ⟨0⟩)]

theorem not_pairsMutual_sharedMetaclass :
    let c := (Event.play [] (.new .functional false) sharedMetaclassEvents).2
    c.session.aborted = false ∧ ¬ c.program.PairsMutual := by
  have ha : (Event.play [] (.new .functional false) sharedMetaclassEvents).2.session.aborted =
      false := by decide +kernel
  refine ⟨ha, fun h => ?_⟩
  refine (pairsMutual_iff ((Run.start false).play (by decide +kernel)) ha).1 h ?_
  refine ⟨⟨2⟩, ⟨1⟩, ⟨0⟩, by decide, .single (.inl ?_), ⟨?_, ?_⟩, ⟨?_, ?_⟩, ⟨⟨0⟩, ?_⟩, ⟨0⟩, ?_⟩ <;>
    decide +kernel

end ObjcBinding
