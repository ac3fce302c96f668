import ObjcBinding.Proofs.HalfBound
import ObjcBinding.Proofs.ResolutionOutcomes

/-!
# Resolutions that fail

A class is given its metaclass after those above it have been given theirs. Where one of these
cannot have any, the attempt fails before anything is written at the class itself: it is left
without a metaclass, and the metaclass of its header as it was. What has been made for the classes
above by then stays, each metaclass with its class, and the error is charged to one of them or to
the class itself.

A class that is not foreign has no header, and the metaclass that is entered for it means nothing.
If this is one of the classes above, then it may have been given a metaclass of its own.

* `Trail.within_of_new`: what comes about in a resolution concerns the class or one above it;
* `Trail.unclaimed`: the metaclass of a header is left alone unless the class is paired;
* `Trail.info_of_unnamed`: what no header names is left alone unless it is paired itself;
* `resolveMetaclass_nothingHalfMade`: what is left behind by a failure that does not end the
  session.
-/

namespace ObjcBinding

open Program Resolve

variable {deed : Deed} {c d : Compilation} {e : BindError} {cls m x y : ClassId} {scope : ScopeId}
  {start : Program} {within : Compilation → ClassId → Prop}

/-! ## What a resolution adds -/

/-- The only classes that are made are metaclasses. -/
theorem Trail.made_of_new {permits : Compilation → Deed → Prop} (h : Trail permits c d)
    (hx : d.program.classes.contains x = true) (hnew : c.program.classes.contains x = false) :
    (d.program.classAt x).synthesized = true ∧ d.program.HasRole x .metaclass := by
  have hinv := h.invariant (I := fun d => d.program.classes.contains x = true →
    c.program.classes.contains x = true ∨
      (d.program.classAt x).synthesized = true ∧ d.program.HasRole x .metaclass) ?_ .inl hx
  · refine hinv.resolve_left fun hold => ?_
    cases hold.symm.trans hnew
  · intro d e deed _ hstep ih he
    have hext := hstep.extends.program
    rcases hstep.contains_cases he with hd | ⟨y, hmakes⟩
    · exact (ih hd).imp_right fun ⟨hs, hm⟩ => ⟨(hext.synthesized hd).trans hs, hext.hasRole hm⟩
    · exact .inr ⟨hmakes.synthesized, hasRole_iff.2 ⟨_, hmakes.pairing⟩⟩

/-- What comes about in a resolution only by pairing `x`, or by an error that is charged to `x`,
concerns the class that is resolved or one that it is derived from. -/
theorem Trail.within_of_new {P : Compilation → Prop}
    (h : Trail (Resolving start fun c => c.program.AtOrAbove cls) c d)
    (hP : ∀ c d deed, Change deed c d → ¬ P c → P d → deed = .pair x ∨ deed = .rejectClass x)
    (hd : P d) : P c ∨ d.program.AtOrAbove cls x := by
  refine h.invariant (I := fun d => P d → P c ∨ d.program.AtOrAbove cls x) ?_ .inl hd
  intro d e deed hp hstep ih he
  have hext := hstep.extends.program
  by_cases hd : P d
  · exact (ih hd).imp_right hext.atOrAbove
  · rcases hP d e deed hstep hd he with rfl | rfl
    · exact .inr (hext.atOrAbove hp.1)
    · exact .inr (hext.atOrAbove hp)

/-- Each metaclass that was made belongs to the class that is resolved or to one that it is derived
from. -/
theorem Trail.made_within (h : Trail (Resolving start fun c => c.program.AtOrAbove cls) c d)
    (hc : c.program.PairsLinked) (hd : d.program.PairsLinked)
    (hx : d.program.classes.contains x = true) (hnew : c.program.classes.contains x = false) :
    (d.program.classAt x).synthesized = true ∧
      ∃ y, d.program.AtOrAbove cls y ∧ d.program.mutual y x = true := by
  obtain ⟨hs, hm⟩ := h.made_of_new hx hnew
  obtain ⟨partner, hpx⟩ := hasRole_iff.1 hm
  obtain ⟨y, rfl, hy⟩ := hd.ofMetaclass x partner hpx
  have hwithin := h.within_of_new (x := y)
    (P := fun d => d.program.pairing y = some (.ordinary, some x))
    (fun _ _ _ hstep hold hnew => .inl (hstep.pair_of_new hold hnew)) hy
  refine ⟨hs, y, hwithin.resolve_left fun hold => ?_, mutual_iff.2 ⟨hy, hpx⟩⟩
  obtain ⟨z, hz, -⟩ := hc.ofClass y x hold
  cases hnew.symm.trans (contains_of_pairing hz)

/-- A class becomes invalid only if an error is charged to it. -/
theorem Change.rejectClass_of_new (h : Change deed c d)
    (hold : (c.program.classAt x).invalid = false) (hnew : (d.program.classAt x).invalid = true) :
    deed = .rejectClass x := by
  by_cases hr : ∃ y, deed = .rejectClass y
  · obtain ⟨y, rfl⟩ := hr
    cases h with
    | rejectClass _ e log _ =>
      change ((c.program.modifyClass y _).classAt x).invalid = true at hnew
      rw [classAt_modifyClass] at hnew
      split at hnew
      · rename_i hx
        rw [hx.1]
      · cases hold.symm.trans hnew
  · rw [h.classInvalid_eq fun y hy => hr ⟨y, hy⟩, hold] at hnew
    cases hnew

/-- At most one class became invalid, and this is the class that is resolved or one that it is
derived from. -/
theorem Trail.charged_within (h : Trail (Resolving start fun c => c.program.AtOrAbove cls) c d)
    (hreported : c.Reported d e) : ∃ x, d.program.AtOrAbove cls x ∧
      ∀ y, y ≠ x → (d.program.classAt y).invalid = (c.program.classAt y).invalid := by
  obtain ⟨culprit, -, hclass, -⟩ := hreported.culprit
  by_cases hnew : ∃ x, (d.program.classAt x).invalid = true ∧
      (c.program.classAt x).invalid = false
  · obtain ⟨x, hx, hold⟩ := hnew
    have hwithin := h.within_of_new (x := x) (P := fun d => (d.program.classAt x).invalid = true)
      (fun _ _ _ hstep hold hnew =>
        .inr (hstep.rejectClass_of_new (Bool.eq_false_iff.2 hold) hnew)) hx
    have hculprit : culprit = some (.classDecl x) := by
      by_contra hne
      cases hold.symm.trans ((hclass x hne).symm.trans hx)
    refine ⟨x, hwithin.resolve_left (Bool.eq_false_iff.1 hold), fun y hy => hclass y ?_⟩
    rw [hculprit]
    rintro ⟨⟩
    exact hy rfl
  · refine ⟨cls, .inl rfl, fun y _ => ?_⟩
    cases hold : (c.program.classAt y).invalid with
    | true => exact hreported.classInvalid y hold
    | false => exact Bool.eq_false_iff.2 fun hy => hnew ⟨y, hy, hold⟩

/-- The metaclass of a header that is not bound is left alone unless the class is paired. -/
theorem Trail.unclaimed (h : Trail (Resolving start within) c d) (hlinked : c.Linked)
    (hp : c.program.HeadersApart) (hn : c.program.HeaderNames cls m)
    (hm : c.program.pairing m = none) (hd : d.session.aborted = false)
    (hu : ¬ d.program.IsPaired cls) : d.program.pairing m = none := by
  have hlt := hp.backward cls m hn
  have hcls := contains_of_headerNames hn
  have hinv := h.invariant (I := fun d => (c.Extends d ∧ d.Linked ∧ d.program.HeadersApart) ∧
    (d.session.aborted = false → d.program.IsPaired cls ∨ d.program.pairing m = none)) ?_
    ⟨⟨.refl c, hlinked, hp⟩, fun _ => .inr hm⟩
  · exact (hinv.2 hd).resolve_left hu
  rintro d e deed hpermit hstep ⟨⟨hext, hlinked, hp⟩, ih⟩
  have hlinked' := hlinked.change hstep
  refine ⟨⟨hext.trans hstep.extends, hlinked', hstep.headersApart_iff.2 hp⟩, fun he => ?_⟩
  rcases ih (hstep.extends.running he) with hpaired | hnone
  · exact .inl (hstep.extends.program.isPaired hpaired)
  rcases hstep.pairing_cases m with hkeep | ⟨hmark, -⟩ | ⟨-, ho, -⟩ | ⟨y, -, hclaim, -, hy⟩
  · exact .inr (hkeep.trans hnone)
  · exact absurd hmark hpermit.ne_mark
  · obtain ⟨partner, ho⟩ := hasRole_iff.1 ho
    cases hnone.symm.trans ho
  · -- only the class whose header names it can claim it
    have hny : d.program.HeaderNames y m := by
      refine hy.resolve_left fun hfresh => ?_
      have hold := Arena.contains_of_lt (hext.program.containsClass cls hcls) hlt
      cases hold.symm.trans hfresh
    obtain rfl := hp.unique y cls m hny (hext.program.headerNames hn)
    obtain ⟨y', heq, hpaired⟩ := (hlinked'.pairs he).ofMetaclass m _ hclaim
    cases heq
    exact .inl ⟨m, hpaired⟩

/-- Between `p` and `q` the bound class `x` was given its metaclass. Nothing else has changed in its
annotation. -/
def Program.GainsMetaclass (p q : Program) (x : ClassId) : Prop :=
  ∃ i m, (p.classAt x).info = some i ∧ i.role = .ordinary ∧ i.paired = none ∧
    (q.classAt x).info = some { i with paired := some m }

theorem Program.GainsMetaclass.pairing {p q : Program} (h : p.GainsMetaclass q x) :
    p.pairing x = some (.ordinary, none) ∧ ∃ m, q.pairing x = some (.ordinary, some m) := by
  obtain ⟨i, m, hi, ho, hnone, hq⟩ := h
  refine ⟨?_, m, ?_⟩
  · rw [pairing_of_info hi, ho, hnone]
  · rw [pairing_of_info hq, ho]

/-- Recording a partner of one class shows in the annotation of that class only, and only if it had
none before. -/
theorem Program.info_setPaired {p q : Program} {i j : ClassInfo}
    (hx : (q.classAt x).info = (p.classAt x).info) (hi : (p.classAt y).info = some i)
    (ho : i.role = .ordinary) (hj : i.setPaired m = .ok j) :
    ((q.setInfo y j).classAt x).info = (p.classAt x).info ∨ p.GainsMetaclass (q.setInfo y j) x := by
  by_cases hxy : x = y ∧ q.classes.contains y = true
  · obtain ⟨hp, rfl⟩ := ClassInfo.setPaired_eq_ok_iff.1 hj
    have hset : ((q.setInfo y { i with paired := some m }).classAt x).info =
        some { i with paired := some m } := by
      rw [setInfo, classAt_modifyClass, if_pos hxy]
    rw [← hxy.1] at hi
    rcases hp with hp | hp
    · exact .inr ⟨i, m, hi, ho, hp, hset⟩
    · refine .inl ?_
      rw [hset, hi, ← hp]
  · refine .inl ?_
    rw [setInfo, classAt_modifyClass, if_neg hxy, hx]

/-- What no header names is left alone in a resolution, unless it is a class that is paired. -/
theorem Change.info_of_unnamed (h : Change deed c d) (hp : Resolving start within c deed)
    (hx : c.program.classes.contains x = true) (hn : ∀ y, ¬ c.program.HeaderNames y x) :
    (d.program.classAt x).info = (c.program.classAt x).info ∨
      c.program.GainsMetaclass d.program x := by
  have hmade (cls : ClassId) (sm : Option ClassId) (is : List ClassId) :
      ((c.program.makeMetaclass cls sm is).classAt x).info = (c.program.classAt x).info := by
    rw [classAt_makeMetaclass, if_neg (ne_fresh_of_contains hx)]
  cases h with
  | mark | record => exact hp.elim
  | synthesize sm is hi ho _ _ hj => exact info_setPaired (hmade _ sm is) hi ho hj
  | @linkForeign _ cls m i j sm hi ho hm _ _ _ hj =>
    have hne : x ≠ m := by
      rintro rfl
      exact hn cls hm
    exact info_setPaired (by rw [classAt_setMetaclass_of_ne cls sm hne]) hi ho hj
  | relink hi ho _ _ hj => exact info_setPaired rfl hi ho hj
  | halfLink _ hi ho hj => exact info_setPaired rfl hi ho hj
  | orphan => exact .inl (hmade _ _ _)
  | rejectClass cls =>
    refine .inl (read_modifyClass ClassDecl.info (fun _ => ?_) cls x)
    rfl
  | declare scope name entry h =>
    obtain ⟨scopes, rfl⟩ := scopes_of_declare h
    exact .inl rfl
  | _ => exact .inl rfl

theorem Trail.info_of_unnamed (h : Trail (Resolving start within) c d)
    (hx : c.program.classes.contains x = true) (hn : ∀ y, ¬ c.program.HeaderNames y x) :
    (d.program.classAt x).info = (c.program.classAt x).info ∨
      c.program.GainsMetaclass d.program x := by
  refine (h.invariant (I := fun d => (d.program.classes.contains x = true ∧
    ∀ y, ¬ d.program.HeaderNames y x) ∧ ((d.program.classAt x).info = (c.program.classAt x).info ∨
      c.program.GainsMetaclass d.program x)) ?_ ⟨⟨hx, hn⟩, .inl rfl⟩).2
  rintro d e deed hp hstep ⟨⟨hx, hn⟩, ih⟩
  refine ⟨⟨hstep.extends.program.containsClass x hx, fun y => ?_⟩, ?_⟩
  · rw [hstep.headerNames_iff]
    exact hn y
  rcases hstep.info_of_unnamed hp hx hn with hkeep | ⟨i, m, hi, ho, hnone, he⟩
  · rw [hkeep]
    rcases ih with hsame | ⟨i, m, hi, ho, hnone, hd⟩
    · exact .inl hsame
    · exact .inr ⟨i, m, hi, ho, hnone, hkeep.trans hd⟩
  · -- what has a partner is given no other
    rcases ih with hsame | ⟨i', m', -, -, -, hd⟩
    · exact .inr ⟨i, m, hsame.symm.trans hi, ho, hnone, he⟩
    · cases hi.symm.trans hd
      cases hnone

/-- A class that was given its metaclass is the one that is resolved, or one that it is derived
from. -/
theorem Trail.gains_within (h : Trail (Resolving start fun c => c.program.AtOrAbove cls) c d)
    (hx : c.program.GainsMetaclass d.program x) : d.program.AtOrAbove cls x := by
  obtain ⟨hold, m, hnew⟩ := hx.pairing
  have hwithin := h.within_of_new (x := x)
    (P := fun d => d.program.pairing x = some (.ordinary, some m))
    (fun _ _ _ hstep hold hnew => .inl (hstep.pair_of_new hold hnew)) hnew
  refine hwithin.resolve_left fun he => ?_
  cases he.symm.trans hold

/-- If the class is not paired, then what no header names is left alone, or it is a class above that
was given its metaclass. -/
theorem Trail.info_of_unpaired
    (h : Trail (Resolving start fun c => c.program.AtOrAbove cls) c d)
    (hx : c.program.classes.contains x = true) (hn : ∀ y, ¬ c.program.HeaderNames y x)
    (hu : ¬ d.program.IsPaired cls) :
    (d.program.classAt x).info = (c.program.classAt x).info ∨
      d.program.DerivedFrom cls x ∧ c.program.GainsMetaclass d.program x := by
  refine (h.info_of_unnamed hx hn).imp_right fun hgains => ?_
  refine ⟨(h.gains_within hgains).resolve_left ?_, hgains⟩
  rintro rfl
  exact hu hgains.pairing.2

/-! ## A failure -/

/-- A class whose header names a metaclass that belongs to something else is rejected at once. -/
theorem Resolve.linkForeign_of_taken {resolve : ClassId → Resolve Unit} {i : ClassInfo}
    (hi : (c.program.classAt m).info = some i)
    (hno : c.program.pairing m ≠ some (.metaclass, some x)) :
    ∃ e d, linkForeign resolve x m c = .error e d ∧
      ∀ y, (d.program.classAt y).info = (c.program.classAt y).info := by
  rw [linkForeign, bind_apply, program_apply]
  simp only [hi]
  split
  · rename_i hback
    rw [Bool.and_eq_true, ClassInfo.isMetaclass, decide_eq_true_iff, decide_eq_true_iff] at hback
    refine absurd ?_ hno
    rw [pairing_of_info hi, hback.1, hback.2]
  · refine ⟨_, _, rfl, fun y => ?_⟩
    refine read_modifyClass ClassDecl.info (fun _ => ?_) x y
    rfl

/-- Between `c` and `d` it was tried in vain to give `cls` its metaclass. Nothing is left that is
half made. -/
structure Compilation.NothingHalfMade (cls : ClassId) (c d : Compilation) : Prop where
  unpaired : d.program.pairing cls = some (.ordinary, none)
  unmirrored : ∀ m, d.program.pairing m ≠ some (.metaclass, some cls)
  /-- Without a header the entry means nothing: it may be a class above that was paired itself. -/
  header : ∀ m, (c.program.classAt cls).foreignMetaclass = some m →
    (d.program.classAt m).info = (c.program.classAt m).info ∨
      (c.program.classAt cls).foreign = false ∧ d.program.DerivedFrom cls m ∧
        c.program.GainsMetaclass d.program m
  made : ∀ x, d.program.classes.contains x = true → c.program.classes.contains x = false →
    (d.program.classAt x).synthesized = true ∧
      ∃ y, y ≠ cls ∧ d.program.DerivedFrom cls y ∧ d.program.mutual y x = true
  others : d.program.funcs = c.program.funcs ∧ d.program.groups = c.program.groups ∧
    d.program.scopes.size = c.program.scopes.size
  charged : ∃ x, d.program.AtOrAbove cls x ∧
    ∀ y, y ≠ x → (d.program.classAt y).invalid = (c.program.classAt y).invalid

/-- Whether the metaclass of its header was bound or not, it is as it was. -/
theorem Resolve.header_of_error (hlinked : c.Linked) (hp : c.program.HeadersApart)
    (hu : c.program.pairing cls = some (.ordinary, none)) (hn : c.program.HeaderNames cls m)
    (ha : c.session.aborted = false) (hrun : resolveMetaclass cls scope c = .error e d)
    (ht : Trail (Resolving start within) c d) (hd : d.session.aborted = false)
    (hunpaired : ¬ d.program.IsPaired cls) :
    (d.program.classAt m).info = (c.program.classAt m).info := by
  cases hi : (c.program.classAt m).info with
  | none =>
    have hm : c.program.pairing m = none := by
      rw [pairing, hi]
      rfl
    exact Option.map_eq_none_iff.1 (ht.unclaimed hlinked hp hn hm hd hunpaired)
  | some i =>
    have hno : c.program.pairing m ≠ some (.metaclass, some cls) := by
      intro hm
      obtain ⟨x, he, hx⟩ := (hlinked.pairs ha).ofMetaclass m _ hm
      cases he
      cases hu.symm.trans hx
    obtain ⟨e', d', htaken, hsame⟩ := linkForeign_of_taken hi hno
    rw [resolveMetaclass_eq, resolveStep_of_header hu hn, htaken] at hrun
    cases hrun
    exact (hsame m).trans hi

/-- What is entered as the metaclass of the class is as it was, or the class is not foreign and is
derived from it. -/
theorem Resolve.entered_of_error (hlinked : c.Linked)
    (hentered : ∀ x y m, (c.program.classAt x).foreignMetaclass = some m →
      (c.program.classAt y).foreignMetaclass = some m → x = y)
    (hu : c.program.pairing cls = some (.ordinary, none))
    (hm : (c.program.classAt cls).foreignMetaclass = some m)
    (hc : c.program.classes.contains m = true) (ha : c.session.aborted = false)
    (hrun : resolveMetaclass cls scope c = .error e d)
    (ht : Trail (Resolving start fun c => c.program.AtOrAbove cls) c d)
    (hd : d.session.aborted = false) (hunpaired : ¬ d.program.IsPaired cls) :
    (d.program.classAt m).info = (c.program.classAt m).info ∨
      (c.program.classAt cls).foreign = false ∧ d.program.DerivedFrom cls m ∧
        c.program.GainsMetaclass d.program m := by
  cases hforeign : (c.program.classAt cls).foreign with
  | true =>
    have hheaders : c.program.HeadersApart :=
      ⟨hlinked.backward, fun x y m hx hy => hentered x y m hx.2 hy.2⟩
    exact .inl (header_of_error hlinked hheaders hu ⟨hforeign, hm⟩ ha hrun ht hd hunpaired)
  | false =>
    have hunnamed (y : ClassId) (hy : c.program.HeaderNames y m) : False := by
      rw [hentered y cls m hy.2 hm, HeaderNames, hforeign] at hy
      cases hy.1
    exact (ht.info_of_unpaired hc hunnamed hunpaired).imp_right fun habove => ⟨rfl, habove⟩

/-! ## Runs -/

/-- The metaclass that is entered for a class that is added is declared already, whether or not the
class is foreign. -/
def Event.MetaclassDeclared (p : Program) : Event → Prop
  | .grow (.addClass d) => ∀ m ∈ d.foreignMetaclass, p.classes.contains m = true
  | _ => True

instance (p : Program) : DecidablePred (Event.MetaclassDeclared p)
  | .grow (.addClass d) =>
    inferInstanceAs (Decidable (∀ m ∈ d.foreignMetaclass, p.classes.contains m = true))
  | .grow (.intern _) | .grow (.addScope _) | .grow (.declare ..) | .grow (.addFunction _)
  | .grow (.addMethod ..) | .grow (.addGroup _) | .grow (.addGroupMember ..) | .run _ =>
    .isTrue trivial

theorem Event.MetaclassDeclared.headerDeclared {p : Program} {e : Event}
    (h : e.MetaclassDeclared p) : e.HeaderDeclared p := by
  unfold HeaderDeclared
  split
  · exact fun _ => h
  · trivial

theorem Program.contains_of_entered {p : Program} (h : (p.classAt x).foreignMetaclass = some m) :
    p.classes.contains x = true := by
  refine contains_of_ne fun hd => ?_
  rw [hd] at h
  cases h

/-- All metaclasses that are entered for classes are declared. -/
theorem Run.metaclass_declared {past : List Compilation}
    (h : Run (fun p e => e.Unbound ∧ e.MetaclassDeclared p) past c)
    (hm : (c.program.classAt x).foreignMetaclass = some m) :
    c.program.classes.contains m = true := by
  refine h.changes (I := fun c => ∀ x m, (c.program.classAt x).foreignMetaclass = some m →
    c.program.classes.contains m = true) (fun _ _ he => he.1) ?_ ?_ ?_ x m hm
  · intro renders x m hm
    rw [classAt_new] at hm
    cases hm
  · rintro c g ⟨-, hg⟩ hc x m hm
    have hext := g.apply_extends c.program
    refine hext.containsClass m ?_
    rcases g.contains_cases (contains_of_entered hm) with hold | ⟨d, rfl, he⟩
    · have hsource := congrArg ClassDecl.foreignMetaclass (hext.classSource x hold)
      exact hc x m (hsource.symm.trans hm)
    · rw [he] at hm
      exact hg m hm
  · intro c d deed hstep hc x m hm
    rw [hstep.read_class ClassDecl.foreignMetaclass (fun _ _ _ => rfl) (fun _ _ _ _ => rfl)] at hm
    exact hstep.extends.program.containsClass m (hc x m hm)

open Run in
theorem Run.pairedAbove {past : List Compilation}
    (h : Run (fun p e => e.Unbound ∧ e.HeaderDeclared p) past c)
    (ha : c.session.aborted = false) : c.program.PairedAbove := by
  have hinv := h.changes (I := fun c => (c.program.Layered ∧ c.Linked) ∧
    (c.session.aborted = false → c.program.PairedAbove)) (fun _ _ he => he.1) ?_ ?_ ?_
  · exact hinv.2 ha
  · intro renders
    refine ⟨⟨.of_unbound (info_new renders), .of_start renders⟩, ?_⟩
    rintro - x ⟨m, hm⟩
    rw [pairing, info_new] at hm
    cases hm
  · rintro c g ⟨hu, hh⟩ ⟨⟨hl, hlinked⟩, hp⟩
    exact ⟨⟨Growth.layered hu hl, hlinked.grow hu hh⟩, fun ha => Growth.pairedAbove hu (hp ha)⟩
  · rintro c d deed hstep ⟨⟨hl, hlinked⟩, hp⟩
    refine ⟨⟨hstep.layered hl, hlinked.change hstep⟩, fun hd => ?_⟩
    have ha := hstep.extends.running hd
    exact hstep.pairedAbove hd hl (hlinked.pairs ha) (hp ha)

/-- A resolution that failed is a part of the run. -/
theorem Run.resolved {Admits : Program → Event → Prop} {past : List Compilation}
    (h : Run Admits past c) (hA : Admits c.program (.run (.resolveMetaclass cls scope)))
    (hrun : Session.resolveMetaclass cls scope c = .error e d) : Run Admits (c :: past) d := by
  have hd : (Event.run (.resolveMetaclass cls scope)).apply c = d := by
    rw [Event.apply, Operation.run, finish, bind_apply, hrun]
  exact hd ▸ h.step hA

/-- If no metaclass is entered for two classes, and a class that has no metaclass cannot be given
one while the session goes on, then nothing is left that is half made. -/
theorem resolveMetaclass_nothingHalfMade {past : List Compilation}
    (h : Run (fun p e => e.Unbound ∧ e.MetaclassDeclared p) past c)
    (hentered : ∀ x y m, (c.program.classAt x).foreignMetaclass = some m →
      (c.program.classAt y).foreignMetaclass = some m → x = y)
    (hu : c.program.pairing cls = some (.ordinary, none))
    (hrun : Session.resolveMetaclass cls scope c = .error e d) (he : e.isFatal = false) :
    c.NothingHalfMade cls d := by
  have hdeclared {m : ClassId} (hm : (c.program.classAt cls).foreignMetaclass = some m) :=
    h.metaclass_declared hm
  replace h : Run (fun p e => e.Unbound ∧ e.HeaderDeclared p) past c :=
    h.mono fun _ _ he => ⟨he.1, he.2.headerDeclared⟩
  obtain ⟨hf, hl⟩ := h.functional fun _ _ he => he.1
  have hrund := h.resolved (e := e) ⟨trivial, trivial⟩ hrun
  obtain ⟨ha, hrun⟩ := error_of_guarded hf he hrun
  obtain ⟨hspares, hreported⟩ :=
    (outcome_of_error hrun).1 (resolveMetaclass_accounts cls scope c)
  obtain ⟨ht, hfailed⟩ := (outcome_of_error hrun).1
    (resolveMetaclass_leaves cls scope (.of_layered hl) hl.inOrder)
  have hd : d.session.aborted = false := by
    rw [hreported.aborted, ha, BindError.isCorruption_of_isFatal he]
    rfl
  have hord := ht.extends.program.hasRole (hasRole_iff.2 ⟨_, hu⟩)
  have hblocked := hfailed.cause hd (isBound_of_hasRole hord)
  have hunpaired := (hrund.pairedAbove hd).not_isPaired hblocked
  have hlinked := hrund.linked.pairs hd
  have hunmirrored (m : ClassId) : d.program.pairing m ≠ some (.metaclass, some cls) := by
    intro hm
    obtain ⟨x, hx, hpaired⟩ := hlinked.ofMetaclass m _ hm
    cases hx
    exact hunpaired ⟨m, hpaired⟩
  refine ⟨?_, hunmirrored, fun m hm => ?_, fun x hx hnew => ?_, hspares.1,
    ht.charged_within hreported⟩
  · obtain ⟨partner, hp⟩ := hasRole_iff.1 hord
    cases partner with
    | none => exact hp
    | some m => exact absurd ⟨m, hp⟩ hunpaired
  · exact entered_of_error h.linked hentered hu hm (hdeclared hm) ha hrun ht hd hunpaired
  · obtain ⟨hs, y, hy, hmut⟩ := ht.made_within (h.linked.pairs ha) hlinked hx hnew
    have hne : y ≠ cls := by
      rintro rfl
      exact hunmirrored x (mutual_iff.1 hmut).2
    exact ⟨hs, y, hne, hy.resolve_left hne, hmut⟩

/-- Where only one class has a metaclass entered for it, this is the class. -/
theorem Program.eq_of_entered {p : Program}
    (h : ∀ z ∈ p.classes.handles, (p.classAt z).foreignMetaclass.isSome → z = y)
    (hm : (p.classAt x).foreignMetaclass = some m) : x = y :=
  h x (Arena.mem_handles.2 (contains_of_entered hm)) (by rw [hm, Option.isSome_some])

/-- `Leaf` is below `Base` and implements `Broken`, whose header names no metaclass; its own header
names `Meta`. -/
def brokenInterfaceEvents : List Event :=
  let shape (name : Symbol) (kind : ClassKind) : ClassDecl := { name, kind, span := .point 0 1 1 }
  [.grow (.addScope none), .grow (.intern "Meta"), .grow (.intern "Base"),
    .grow (.intern "Broken"), .grow (.intern "Leaf"),
    .grow (.addClass (shape ⟨5⟩ .concrete)), .grow (.addClass (shape ⟨6⟩ .concrete)),
    .grow (.addClass { shape ⟨7⟩ .interface with foreign := true }),
    .grow (.addClass { shape ⟨8⟩ .concrete with
      base := some ⟨1⟩, interfaces := [⟨2⟩], foreign := true, foreignMetaclass := some ⟨0⟩ }),
    .run (.markClass ⟨1⟩), .run (.markInterface ⟨2⟩), .run (.markClass ⟨3⟩)]

/-- The metaclass of `Base` is made before the attempt fails, and `Meta` is left alone. -/
theorem resolveMetaclass_nothingHalfMade_brokenInterface :
    let c := (Event.play [] (.new .functional false) brokenInterfaceEvents).2
    ∃ e d, Session.resolveMetaclass ⟨3⟩ ⟨0⟩ c = .error e d ∧ e.isFatal = false ∧
      c.program.HeaderNames ⟨3⟩ ⟨0⟩ ∧ c.program.classes.contains ⟨4⟩ = false ∧
      d.program.mutual ⟨1⟩ ⟨4⟩ = true ∧ c.NothingHalfMade ⟨3⟩ d := by
  intro c
  have hc : Run (fun p e => e.Unbound ∧ e.MetaclassDeclared p)
      (Event.play [] (.new .functional false) brokenInterfaceEvents).1 c :=
    (Run.start false).play (by decide +kernel)
  have hleaf {x m : ClassId} (hx : (c.program.classAt x).foreignMetaclass = some m) : x = ⟨3⟩ :=
    eq_of_entered (by decide +kernel) hx
  have hends : Outcome (Session.resolveMetaclass ⟨3⟩ ⟨0⟩) c (fun _ _ => False)
      fun e d => e.isFatal = false ∧ d.program.mutual ⟨1⟩ ⟨4⟩ = true := by decide +kernel
  cases hrun : Session.resolveMetaclass ⟨3⟩ ⟨0⟩ c with
  | ok _ d => exact ((outcome_of_ok hrun).1 hends).elim
  | error e d =>
    obtain ⟨he, hbase⟩ := (outcome_of_error hrun).1 hends
    refine ⟨e, d, rfl, he, ⟨by decide +kernel, by decide +kernel⟩, by decide +kernel, hbase, ?_⟩
    exact resolveMetaclass_nothingHalfMade hc
      (fun x y m hx hy => (hleaf hx).trans (hleaf hy).symm) (by decide +kernel) hrun he

/-- `Leaf` is below `Base` and implements `Broken`, whose header names no metaclass. `Leaf` has no
header itself, but `Base` is entered as its metaclass. -/
def enteredBaseEvents : List Event :=
  let shape (name : Symbol) (kind : ClassKind) : ClassDecl := { name, kind, span := .point 0 1 1 }
  [.grow (.addScope none), .grow (.intern "Base"), .grow (.intern "Broken"),
    .grow (.intern "Leaf"), .grow (.addClass (shape ⟨5⟩ .concrete)),
    .grow (.addClass { shape ⟨6⟩ .interface with foreign := true }),
    .grow (.addClass { shape ⟨7⟩ .concrete with
      base := some ⟨0⟩, interfaces := [⟨1⟩], foreignMetaclass := some ⟨0⟩ }),
    .run (.markClass ⟨0⟩), .run (.markInterface ⟨1⟩), .run (.markClass ⟨2⟩)]

/-- What is entered as the metaclass of a class is not always as it was when the attempt on the
class has failed: by then `Base` has been given its own metaclass. -/
theorem not_entered_unchanged_base :
    let c := (Event.play [] (.new .functional false) enteredBaseEvents).2
    ((∃ past, Run (fun p e => e.Unbound ∧ e.MetaclassDeclared p) past c) ∧
      (∀ x y m, (c.program.classAt x).foreignMetaclass = some m →
        (c.program.classAt y).foreignMetaclass = some m → x = y) ∧
      c.program.pairing ⟨2⟩ = some (.ordinary, none)) ∧
    ∃ e d, Session.resolveMetaclass ⟨2⟩ ⟨0⟩ c = .error e d ∧ e.isFatal = false ∧
      ¬ ∀ m, (c.program.classAt ⟨2⟩).foreignMetaclass = some m →
        (d.program.classAt m).info = (c.program.classAt m).info := by
  intro c
  have hleaf {x m : ClassId} (hx : (c.program.classAt x).foreignMetaclass = some m) : x = ⟨2⟩ :=
    eq_of_entered (by decide +kernel) hx
  have hends : Outcome (Session.resolveMetaclass ⟨2⟩ ⟨0⟩) c (fun _ _ => False)
      fun e d => e.isFatal = false ∧
        (d.program.classAt ⟨0⟩).info ≠ (c.program.classAt ⟨0⟩).info := by decide +kernel
  refine ⟨⟨⟨_, (Run.start false).play (by decide +kernel)⟩,
    fun x y m hx hy => (hleaf hx).trans (hleaf hy).symm, by decide +kernel⟩, ?_⟩
  cases hrun : Session.resolveMetaclass ⟨2⟩ ⟨0⟩ c with
  | ok _ d => exact ((outcome_of_ok hrun).1 hends).elim
  | error e d =>
    obtain ⟨he, hbase⟩ := (outcome_of_error hrun).1 hends
    exact ⟨e, d, rfl, he, fun hall => hbase (hall ⟨0⟩ (by decide +kernel))⟩

end ObjcBinding
