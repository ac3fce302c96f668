import ObjcBinding.Proofs.ResolutionOutcomes

/-!
# Resolutions that do not interfere

Resolving one class can spoil the resolution of another one only through the scope: if it shows the
metaclass of a class there that has the name of another class which the other resolution comes to.
Otherwise the other resolution, made afterwards, goes the same way as it would have gone before,
and where it comes to a class that has been resolved in the meantime, it goes no further.

* `Abreast`: how the two resolutions stand to each other, step by step;
* `Abreast.clear`: the name of a class is not in use where the first resolution has got through;
* `Keeps.step`, `Keeps.below`: where the first resolution ends well, so does the second;
* `resolves_after`: a class can be resolved after another one if the names above them differ;
* `not_resolves_after_sameBaseName`: it may fail if the names of two classes above them do not.
-/

namespace ObjcBinding

open Program Resolve

variable {b c d e : Compilation} {scope : ScopeId} {others : ClassId → Prop}
  {x z m : ClassId} {height : Nat}

/-! ## Two resolutions -/

/-- The two classes have different names, unless one of them is foreign or they are the same. -/
def Program.Distinct (p : Program) (x y : ClassId) : Prop :=
  (p.classAt x).foreign = false → (p.classAt y).foreign = false →
    p.className x = p.className y → x = y

/-- From `b` on, a resolution has come to `c`, and it has come to `d` if the classes in `others`
have been resolved before it. What is paired in `c` is so in `d`, and what is shown in `d` is so in
`c` but for those others. -/
structure Abreast (b : Compilation) (scope : ScopeId) (others : ClassId → Prop)
    (c d : Compilation) : Prop where
  left : Onward b c
  right : Onward b d
  leftFrame : b.program.SameBeyond scope c.program
  rightFrame : b.program.SameBeyond scope d.program
  paired (y : ClassId) : c.program.IsPaired y → d.program.IsPaired y
  shown (y : ClassId) : d.program.Shows scope y → c.program.Shows scope y ∨ others y

namespace Abreast

theorem refl (h : b.Open) : Abreast b scope others b b where
  left := .refl h
  right := .refl h
  leftFrame := .refl _ _
  rightFrame := .refl _ _
  paired _ hy := hy
  shown _ hy := .inl hy

/-- The others are resolved in the meantime. -/
theorem others_resolved (h : Abreast b scope others c d)
    {within : Compilation → ClassId → Prop} (hr : d.Resolves scope within e)
    (hw : ∀ k y, Onward b k → within k y → others y) : Abreast b scope others c e := by
  obtain ⟨start, ht⟩ := hr.trail
  obtain ⟨-, hshown⟩ := h.right.gains scope ht hr.running hw
  exact
    { left := h.left
      right := h.right.trail ht hr.running
      leftFrame := h.leftFrame
      rightFrame := h.rightFrame.trans hr.frame
      paired := fun y hy => ht.extends.program.isPaired (h.paired y hy)
      shown := fun y hy => (hshown y hy).elim (h.shown y) .inr }

/-- Both come to the end of resolving `x`, the second without any class above it. -/
theorem both (h : Abreast b scope others c d) {c' d' : Compilation}
    {within : Compilation → ClassId → Prop} (hc : c.Resolves scope within c')
    (hd : d.Resolves scope (fun _ y => y = x) d')
    (hpaired : ∀ y, c'.program.IsPaired y → d'.program.IsPaired y)
    (hs : d'.program.Shows scope x → c'.program.Shows scope x ∨ others x) :
    Abreast b scope others c' d' := by
  obtain ⟨start, ht⟩ := hc.trail
  obtain ⟨start', ht'⟩ := hd.trail
  obtain ⟨-, hshown⟩ := h.right.gains scope ht' hd.running (W := (· = x)) fun _ _ _ hy => hy
  refine
    { left := h.left.trail ht hc.running
      right := h.right.trail ht' hd.running
      leftFrame := h.leftFrame.trans hc.frame
      rightFrame := h.rightFrame.trans hd.frame
      paired := hpaired
      shown := fun y hy => ?_ }
  rcases hshown y hy with hold | rfl
  · exact (h.shown y hold).imp_left (h.left.shows_of_trail ht)
  · exact hs hy

/-- Both give `x` its metaclass. -/
theorem step (h : Abreast b scope others c d) {c' d' : Compilation}
    (hc : c.Resolves scope (fun _ y => y = x) c') (hd : d.Resolves scope (fun _ y => y = x) d')
    (hx : d'.program.IsPaired x)
    (hs : d'.program.Shows scope x → c'.program.Shows scope x ∨ others x) :
    Abreast b scope others c' d' := by
  obtain ⟨start, ht⟩ := hc.trail
  obtain ⟨start', ht'⟩ := hd.trail
  obtain ⟨hgain, -⟩ := h.left.gains scope ht hc.running (W := (· = x)) fun _ _ _ hy => hy
  refine h.both hc hd (fun y hy => ?_) hs
  rcases hgain y hy with hold | rfl
  · exact ht'.extends.program.isPaired (h.paired y hold)
  · exact hx

/-- What is not paired for the second resolution is not paired for the first. -/
theorem unpaired (h : Abreast b scope others c d) (ho : b.program.HasRole x .ordinary)
    (hu : d.program.pairing x = some (.ordinary, none)) :
    c.program.pairing x = some (.ordinary, none) := by
  obtain ⟨partner, hp⟩ := hasRole_iff.1 (h.left.extension.hasRole ho)
  cases partner with
  | none => exact hp
  | some m =>
    obtain ⟨m', hm'⟩ := h.paired x ⟨m, hp⟩
    cases hu.symm.trans hm'

/-- What is paired on the way to `x` is above `x`, and so it is paired together with `x`. -/
theorem paired_above (h : Abreast b scope others c d)
    (hr : c.Resolves scope (fun c y => c.program.AtOrAbove x y) e) (hx : d.program.IsPaired x)
    (hz : e.program.IsPaired z) : d.program.IsPaired z := by
  obtain ⟨start, ht⟩ := hr.trail
  obtain ⟨hgain, -⟩ := h.left.gains scope ht hr.running (W := b.program.AtOrAbove x)
    fun _ _ hk hy => hk.atOrAbove hy
  rcases hgain z hz with hold | rfl | hxz
  · exact h.paired z hold
  · exact hx
  · obtain ⟨m, hm⟩ := hz
    have ho := (h.left.resolves hr).ordinary z (hasRole_iff.2 ⟨_, hm⟩)
    exact (h.right.anchored.above h.right.running).derivedFrom hx
      (h.right.extension.derivedFrom hxz) (h.right.extension.hasRole ho)

/-- Where the first resolution has got through to the end `e`, the name of `x` is not in use. -/
theorem clear (h : Abreast b scope others c d) (hap : ∀ y, others y → b.program.Distinct x y)
    (hr : ∃ within, c.Resolves scope within e) (hk : e.program.Knows scope x)
    (hx : e.program.Owns x m) (hz : d.program.Shows scope z)
    (hname : d.program.className z = d.program.className x) : z = x := by
  obtain ⟨within, hr⟩ := hr
  have he := h.left.resolves hr
  obtain ⟨m', hzo, hlocal⟩ := hz
  have hbx := he.ordinary x (hasRole_iff.2 ⟨_, hx.pairing⟩)
  have hbz := h.right.ordinary z (hasRole_iff.2 ⟨_, hzo.pairing⟩)
  rw [h.right.className_eq hbz, h.right.className_eq hbx] at hname
  rcases h.shown z ⟨m', hzo, hlocal⟩ with hz | hother
  · obtain ⟨start, ht⟩ := hr.trail
    refine he.eq_of_shows hk hx (h.left.shows_of_trail ht hz) ?_
    rw [he.className_eq hbz, he.className_eq hbx, hname]
  · exact (hap z hother (he.native_of_owns hx) (h.right.native_of_owns hzo) hname.symm).symm

/-- A metaclass that is not found from the scope where the second resolution has come to is one
that the scope itself shows in the end of the first. -/
theorem shows_of_unknown (h : Abreast b scope others c d) {within : Compilation → ClassId → Prop}
    (hr : c.Resolves scope within e) (hk : e.program.Knows scope x) {me : ClassId}
    (hx : e.program.Owns x me) (hd : d.program.Owns x m)
    (hlocal : (d.program.scopeAt scope).local? (d.program.classAt m).name = none)
    (hlookup : d.program.lookup scope (d.program.classAt m).name ≠ some (.classDecl m)) :
    e.program.Shows scope x := by
  have he := h.left.resolves hr
  have hframe := h.leftFrame.trans hr.frame
  refine (he.shows_or_old hframe hk hx).resolve_right ?_
  rintro ⟨hb, hnone⟩
  have hsame : m = me := by
    have hpair := hd.pairing.symm.trans (hb.of_extends h.right.extension).pairing
    cases hpair
    rfl
  subst hsame
  -- the scope itself does not know the name, and beyond the scope nothing has changed
  have hc := contains_of_synthesized ((Onward.refl h.left.base).mirrors hb).synthesized
  have hname : (d.program.classAt m).name = (e.program.classAt m).name := by
    rw [h.right.extension.name hc, he.extension.name hc]
  rw [hname] at hlocal hlookup
  refine hlookup (Eq.trans ?_ (hk m hx))
  exact (hframe.symm.trans h.rightFrame).lookup_eq hnone hlocal

/-- A class that is paired already is made known in the scope. -/
theorem of_paired (h : Abreast b scope others c d)
    (hap : ∀ y, others y → b.program.Distinct x y)
    {within : Compilation → ClassId → Prop} (hr : c.Resolves scope within e)
    (hk : e.program.Knows scope x) (hx : e.program.IsPaired x)
    (hpaired : ∀ y, e.program.IsPaired y → d.program.IsPaired y)
    (hd : d.program.pairing x = some (.ordinary, some m)) (resolve : ClassId → Resolve Unit) :
    ∃ d', resolveStep resolve x scope d = .ok () d' ∧ Abreast b scope others e d' := by
  have hmutual : d.program.mutual x m = true :=
    mutual_iff.2 ⟨hd, h.right.pairsMutual.ofClass x m hd⟩
  obtain ⟨me, hme⟩ := hx
  have howns (ho : d.program.Owns x m) : e.program.Owns x me :=
    (h.left.resolves hr).owns hme (h.right.native_of_owns ho)
  rw [resolveStep_of_paired hd, bind_of_ok (verifyPair_apply hmutual)]
  have hout := declareMetaclass_outcome m scope d
  cases hrun : declareMetaclass m scope d with
  | error err d' =>
    obtain ⟨-, hs, existing, hlocal, hne⟩ := (outcome_of_error hrun).1 hout
    have ho := h.right.owns_of_synthesized hd hs
    obtain ⟨z, m', rfl, hz, hm, hname⟩ := h.right.shown_of_local hlocal (h.right.mirrors ho).name
    have hshows : d.program.Shows scope z := ⟨m', hz, by rw [hm, hlocal]⟩
    obtain rfl := h.clear hap ⟨_, hr⟩ hk (howns ho) hshows hname
    cases hd.symm.trans hz.pairing
    exact absurd rfl hne
  | ok _ d' =>
    have htrail : Trail (Resolving b.program fun _ y => y = x) d d' :=
      ((outcome_of_ok hrun).1 (declareMetaclass_leaves (E := fun _ => True) scope hmutual rfl)).1
    have hquiet := ((outcome_of_ok hrun).1 (declareMetaclass_accounts m scope d)).2
    have hresolves : d.Resolves scope (fun _ y => y = x) d' :=
      ⟨⟨_, htrail⟩, hquiet.aborted.trans h.right.running, (declareMetaclass_frames m d).of_ok hrun⟩
    refine ⟨d', rfl, h.both hr hresolves
      (fun y hy => htrail.extends.program.isPaired (hpaired y hy)) fun hs => ?_⟩
    rcases (outcome_of_ok hrun).1 hout with ⟨rfl, -⟩ | ⟨hsyn, hlookup, q, rfl, hq⟩
    · obtain ⟨start, ht⟩ := hr.trail
      exact (h.shown x hs).imp_left (h.left.shows_of_trail ht)
    · have ho := h.right.owns_of_synthesized hd hsyn
      exact .inl (h.shows_of_unknown hr hk (howns ho) ho (local?_none_of_declare hq) hlookup)

/-- A metaclass that the first resolution has found free is free for the second one. -/
theorem info_none (h : Abreast b scope others c d) (hn : b.program.HeaderNames x m)
    (hu : d.program.pairing x = some (.ordinary, none))
    (hm : (c.program.classAt m).info = none) : (d.program.classAt m).info = none := by
  have hnone {role : Role} : ¬ b.program.HasRole m role := by
    intro hrole
    obtain ⟨i, hi, -⟩ := h.left.extension.hasRole hrole
    cases hm.symm.trans hi
  cases hi : (d.program.classAt m).info with
  | none => rfl
  | some i =>
    cases hr : i.role with
    | ordinary => exact absurd (h.right.ordinary m ⟨i, hi, hr⟩) hnone
    | metaclass =>
      obtain ⟨partner, hp⟩ := hasRole_iff.1 ⟨i, hi, hr⟩
      obtain ⟨y, -, hy⟩ := h.right.linked.ofMetaclass m partner hp
      cases hf : (d.program.classAt y).foreign with
      | true =>
        have hny := h.right.linked.ofForeign y m hy hf
        obtain rfl := h.right.apart.unique x y m (h.right.extension.headerNames hn) hny
        cases hu.symm.trans hy
      | false =>
        -- what a header names was there before, and so its class was paired before
        have hbase := h.left.base
        have hsyn := (h.right.mirrors ⟨hy, hf⟩).synthesized
        rw [h.right.extension.synthesized (hbase.anchored.steady.headers x m hn)] at hsyn
        obtain ⟨z, hz⟩ := hbase.anchored.reflects.owned hbase.running m hsyn
        exact absurd (hasRole_iff.2 ⟨_, (Onward.refl hbase).linked.pairing_of_owns hz⟩) hnone

end Abreast

/-! ## Step by step -/

/-- Where the first step ends well, so does the second one, and they stay abreast. -/
def Keeps (b : Compilation) (scope : ScopeId) (others : ClassId → Prop) {α : Type}
    (f g : Resolve α) : Prop :=
  ∀ c d, Abreast b scope others c d → ∀ v c', f c = .ok v c' →
    ∃ w d', g d = .ok w d' ∧ Abreast b scope others c' d'

namespace Keeps

variable {α β : Type}

theorem pure (v w : α) : Keeps b scope others (pure v) (pure w) := by
  rintro c d h _ c' hrun
  cases hrun
  exact ⟨w, d, rfl, h⟩

theorem bind {f g : Resolve α} {k l : α → Resolve β} (h : Keeps b scope others f g)
    (hk : ∀ v w, Keeps b scope others (k v) (l w)) :
    Keeps b scope others (f >>= k) (g >>= l) := by
  intro c d hcd v c' hrun
  obtain ⟨v₁, c₁, hf, hrest⟩ := ok_of_bind hrun
  obtain ⟨w₁, d₁, hg, hcd₁⟩ := h c d hcd v₁ c₁ hf
  obtain ⟨w, d', hl, hcd'⟩ := hk v₁ w₁ c₁ d₁ hcd₁ v c' hrest
  exact ⟨w, d', (bind_of_ok hg).trans hl, hcd'⟩

theorem pairedOf (y : ClassId) : Keeps b scope others (pairedOf y) (pairedOf y) := by
  rintro c d h _ c' hrun
  cases hrun
  exact ⟨_, d, rfl, h⟩

variable {f g : ClassId → Resolve Unit}

theorem interfaces {l : List ClassId}
    (h : ∀ y ∈ l, Keeps b scope others (f y) (g y)) :
    Keeps b scope others (interfaceMetaclasses f l) (interfaceMetaclasses g l) := by
  induction l with
  | nil => exact .pure [] []
  | cons y rest ih =>
    refine (h y List.mem_cons_self).bind fun _ _ => (pairedOf y).bind fun _ _ => ?_
    exact (ih fun z hz => h z (List.mem_cons_of_mem y hz)).bind fun _ _ => .pure _ _

/-- The classes above are the same for both. -/
theorem supers (ho : b.program.HasRole x .ordinary)
    (h : ∀ y, b.program.IsParent x y → Keeps b scope others (f y) (g y)) :
    Keeps b scope others (superMetaclasses f x) (superMetaclasses g x) := by
  intro c d hcd v c' hrun
  have hc := contains_of_hasRole ho
  have hinterfaces (m m' : Option ClassId) : Keeps b scope others
      (do return (m, ← interfaceMetaclasses f (b.program.classAt x).interfaces))
      (do return (m', ← interfaceMetaclasses g (b.program.classAt x).interfaces)) :=
    (interfaces fun y hy => h y (.inr hy)).bind fun _ _ => .pure _ _
  rw [superMetaclasses, bind_apply, program_apply] at hrun ⊢
  dsimp only at hrun ⊢
  rw [hcd.left.extension.superclass ho, hcd.left.extension.interfaces hc] at hrun
  rw [hcd.right.extension.superclass ho, hcd.right.extension.interfaces hc]
  cases hs : (b.program.classAt x).superclass with
  | none =>
    rw [hs] at hrun
    exact hinterfaces none none c d hcd v c' hrun
  | some y =>
    rw [hs] at hrun
    obtain ⟨i, hi, hio⟩ := ho
    rw [ClassDecl.superclass, hi, Option.bind_some,
      hcd.left.base.anchored.layered.superclasses x i hi hio] at hs
    exact ((h y (.inl hs)).bind fun _ _ => (pairedOf y).bind hinterfaces) c d hcd v c' hrun

end Keeps

namespace Abreast

variable {height' : Nat} {c' : Compilation}

/-- A class that is not foreign is given its metaclass by both. -/
theorem of_native (h : Abreast b scope others c d) (hap : ∀ y, others y → b.program.Distinct x y)
    (hscope : b.program.scopes.contains scope = true) (hin : b.program.Within (height + 1) x)
    (hin' : b.program.Within (height' + 1) x) (hf : (b.program.classAt x).foreign = false)
    (hu : d.program.pairing x = some (.ordinary, none))
    (habove : Keeps b scope others (superMetaclasses (resolveBelow scope height) x)
      (superMetaclasses (resolveBelow scope height') x))
    (hrun : resolveStep (resolveBelow scope height) x scope c = .ok () c') :
    ∃ d', resolveStep (resolveBelow scope height') x scope d = .ok () d' ∧
      Abreast b scope others c' d' := by
  have hcu := h.unpaired hin.ordinary hu
  have hfc : (c.program.classAt x).foreign = false := by
    rw [h.left.extension.foreign (contains_of_hasRole hin.ordinary), hf]
  have hfd : (d.program.classAt x).foreign = false := by
    rw [h.right.extension.foreign (contains_of_hasRole hin.ordinary), hf]
  obtain ⟨hresolves, hpaired⟩ := h.left.resolveStep_ok hin hrun
  have hknows := h.left.knows_of_ok h.leftFrame hscope hin hrun
  obtain ⟨r, c₁, hsuper⟩ := supers_of_native hcu hfc hrun
  obtain ⟨r', d₁, hsuper', h₁⟩ := habove c d h r c₁ hsuper
  have hleft := (outcome_of_ok hrun).1
    (native_outcome h.left.layered (hin.of_extends h.left.extension) hcu hfc hsuper)
  have hind := hin'.of_extends h.right.extension
  have hright := native_outcome h.right.layered hind hu hfd hsuper'
  have hlast := hresolves.last (superMetaclasses_below hsuper) hleft.1
  obtain ⟨m, hm⟩ := hpaired
  have hx := (h₁.left.resolves hlast).owns hm hf
  cases hrun' : resolveStep (resolveBelow scope height') x scope d with
  | error err d' =>
    obtain ⟨existing, hlocal⟩ := (outcome_of_error hrun').1 hright
    obtain ⟨z, hz, hname⟩ := h₁.right.shown_of_intern hlocal
    obtain rfl := h₁.clear hap ⟨_, hlast⟩ hknows hx hz hname
    obtain ⟨m', hz, -⟩ := hz
    cases (superMetaclasses_ok h.right.layered hind hu hsuper').2.2.symm.trans hz.pairing
  | ok _ d' =>
    obtain ⟨hresolves', hpaired'⟩ := h.right.resolveStep_ok hin' hrun'
    have hlast' := hresolves'.last (superMetaclasses_below hsuper')
      ((outcome_of_ok hrun').1 hright).1
    refine ⟨d', rfl, h₁.step hlast hlast' hpaired' fun _ => .inl ?_⟩
    refine ((h₁.left.resolves hlast).shows_or_old (h₁.leftFrame.trans hlast.frame) hknows
      hx).resolve_right ?_
    rintro ⟨hob, -⟩
    cases hu.symm.trans (hob.of_extends h.right.extension).pairing

/-- A foreign class is linked to the metaclass of its header by both. -/
theorem of_foreign (h : Abreast b scope others c d) (hin : b.program.Within (height + 1) x)
    (hin' : b.program.Within (height' + 1) x) (hf : (b.program.classAt x).foreign = true)
    (hu : d.program.pairing x = some (.ordinary, none))
    (habove : Keeps b scope others (superMetaclasses (resolveBelow scope height) x)
      (superMetaclasses (resolveBelow scope height') x))
    (hrun : resolveStep (resolveBelow scope height) x scope c = .ok () c') :
    ∃ d', resolveStep (resolveBelow scope height') x scope d = .ok () d' ∧
      Abreast b scope others c' d' := by
  have hcu := h.unpaired hin.ordinary hu
  have hcb := contains_of_hasRole hin.ordinary
  have hfc : (c.program.classAt x).foreign = true := by
    rw [h.left.extension.foreign hcb, hf]
  obtain ⟨m, hnc⟩ := header_of_ok hcu hfc hrun
  have hn : b.program.HeaderNames x m := by
    have hsource := congrArg ClassDecl.foreignMetaclass (h.left.extension.classSource x hcb)
    exact ⟨hf, hsource.symm.trans hnc.2⟩
  have hm := free_of_ok h.left.linked hcu ((resolveStep_of_header hcu hnc).symm.trans hrun)
  obtain ⟨hresolves, -⟩ := h.left.resolveStep_ok hin hrun
  obtain ⟨r, c₁, hsuper⟩ := supers_of_header hcu hnc hm hrun
  obtain ⟨r', d₁, hsuper', h₁⟩ := habove c d h r c₁ hsuper
  have hlast := hresolves.last (superMetaclasses_below hsuper)
    ((outcome_of_ok hrun).1 (h.left.foreign_outcome hin hcu hn hm hsuper))
  have hright := h.right.foreign_outcome hin' hu hn (h.info_none hn hu hm) hsuper'
  cases hrun' : resolveStep (resolveBelow scope height') x scope d with
  | error err d' => exact ((outcome_of_error hrun').1 hright).elim
  | ok _ d' =>
    obtain ⟨hresolves', hpaired'⟩ := h.right.resolveStep_ok hin' hrun'
    have hlast' := hresolves'.last (superMetaclasses_below hsuper')
      ((outcome_of_ok hrun').1 hright)
    refine ⟨d', rfl, h₁.step hlast hlast' hpaired' ?_⟩
    rintro ⟨m', ho, -⟩
    cases hf.symm.trans ((h₁.right.resolves hlast').native_of_owns ho)

end Abreast

namespace Keeps

variable {height' : Nat}

/-- A class that the second resolution finds paired is made known; otherwise both give it its
metaclass after those above it. -/
theorem step (hscope : b.program.scopes.contains scope = true)
    (hin : b.program.Within (height + 1) x) (hin' : b.program.Within (height' + 1) x)
    (hap : ∀ y, others y → b.program.Distinct x y)
    (habove : ∀ y, b.program.IsParent x y →
      Keeps b scope others (resolveBelow scope height y) (resolveBelow scope height' y)) :
    Keeps b scope others (resolveStep (resolveBelow scope height) x scope)
      (resolveStep (resolveBelow scope height') x scope) := by
  rintro c d h ⟨⟩ c' hrun
  have ho := hin.ordinary
  obtain ⟨hresolves, hpaired⟩ := h.left.resolveStep_ok hin hrun
  obtain ⟨partner, hp⟩ := hasRole_iff.1 (h.right.extension.hasRole ho)
  cases partner with
  | some m =>
    have hknows := h.left.knows_of_ok h.leftFrame hscope hin hrun
    obtain ⟨d', hd, h'⟩ := h.of_paired hap hresolves hknows hpaired
      (fun _ => h.paired_above hresolves ⟨m, hp⟩) hp (resolveBelow scope height')
    exact ⟨(), d', hd, h'⟩
  | none =>
    have hsupers := supers ho habove
    cases hf : (b.program.classAt x).foreign with
    | false =>
      obtain ⟨d', hd, h'⟩ := h.of_native hap hscope hin hin' hf hp hsupers hrun
      exact ⟨(), d', hd, h'⟩
    | true =>
      obtain ⟨d', hd, h'⟩ := h.of_foreign hin hin' hf hp hsupers hrun
      exact ⟨(), d', hd, h'⟩

/-- By induction on the room for classes above: the second resolution goes the way of the first. -/
theorem below (hscope : b.program.scopes.contains scope = true)
    (hx : b.program.HasRole x .metaclass ∨
      b.program.Within height x ∧ b.program.Within height' x)
    (hap : ∀ y, b.program.AtOrAbove x y → ∀ z, others z → b.program.Distinct y z) :
    Keeps b scope others (resolveBelow scope height x) (resolveBelow scope height' x) := by
  have hmetaclass {height height' : Nat} {x : ClassId} (hm : b.program.HasRole x .metaclass) :
      Keeps b scope others (resolveBelow scope height x) (resolveBelow scope height' x) := by
    rintro c d h v c' hrun
    cases (resolveBelow_of_metaclass (h.left.extension.hasRole hm) height).symm.trans hrun
    exact ⟨(), d, resolveBelow_of_metaclass (h.right.extension.hasRole hm) height', h⟩
  induction height generalizing height' x with
  | zero =>
    rcases hx with hm | ⟨hin, -⟩
    · exact hmetaclass hm
    · exact absurd hin Within.not_zero
  | succ height ih =>
    rcases hx with hm | ⟨hin, hin'⟩
    · exact hmetaclass hm
    · cases height' with
      | zero => exact absurd hin' Within.not_zero
      | succ height' =>
        refine step hscope hin hin' (hap x (.inl rfl)) fun y hxy => ih ?_ fun z hz => ?_
        · rcases hin.parent hxy, hin'.parent hxy with ⟨hm | hy, hm' | hy'⟩
          · exact .inl hm
          · exact .inl hm
          · exact .inl hm'
          · exact .inr ⟨hy, hy'⟩
        · exact hap z (.inr (hz.derivedFrom hin.ordinary hxy))

end Keeps

/-! ## Runs -/

theorem Operation.run_resolveMetaclass_iff (hf : c.session.strategy = .functional)
    (ha : c.session.aborted = false) :
    (Operation.resolveMetaclass x scope).run c = .ok .done d ↔
      resolveBelow scope (c.program.classes.size + 1) x c = .ok () d := by
  have hsession : Session.resolveMetaclass x scope c =
      resolveBelow scope (c.program.classes.size + 1) x c := by
    rw [Session.resolveMetaclass, guarded_of_functional ha hf, Resolve.resolveMetaclass,
      bind_apply, program_apply]
  constructor
  · intro h
    obtain ⟨_, k, hk, hend⟩ := ok_of_bind h
    cases hend
    exact hsession.symm.trans hk
  · intro h
    exact bind_of_ok (hsession.trans h)

/-- Whether the operation ends well, without a value to answer. -/
def Operation.succeeds (op : Operation) (c : Compilation) : Bool :=
  match op.run c with
  | .ok .done _ => true
  | _ => false

theorem Operation.run_of_succeeds {op : Operation} (h : op.succeeds c = true) :
    op.run c = .ok .done (finish op.run c) := by
  unfold succeeds at h
  split at h
  · rename_i d hd
    rw [finish, hd]
  · cases h

/-- A class can be resolved from a scope after another one, if each of the two could be resolved in
the first place, and if no class at or above the one has the name of a different class at or
above the other; foreign classes do not count for that. -/
theorem resolves_after {past : List Compilation} {cls other : ClassId} (h : Run Event.Sane past c)
    (ha : c.session.aborted = false)
    (hroom : c.program.names.size + c.program.classes.size < Symbol.placeholder.id)
    (hheaders : ∀ x y m, c.program.HeaderNames x m → c.program.HeaderNames y m → x = y)
    (hscope : c.program.scopes.contains scope = true) (ho : c.program.HasRole cls .ordinary)
    (hdistinct : ∀ x y, c.program.AtOrAbove cls x → c.program.AtOrAbove other y →
      c.program.Distinct x y)
    (hother : (Operation.resolveMetaclass other scope).run c = .ok .done d)
    (hcls : (Operation.resolveMetaclass cls scope).run c = .ok .done e) :
    ∃ k, (Operation.resolveMetaclass cls scope).run d = .ok .done k ∧
      k.session.aborted = false := by
  obtain ⟨hf, hl⟩ := h.functional fun _ _ he => he.1
  have hopen : c.Open := ⟨h.anchored, ha, ⟨h.anchored.steady.backward, hheaders⟩, hroom⟩
  rw [Operation.run_resolveMetaclass_iff hf ha] at hother hcls
  obtain ⟨hresolves, -⟩ := (Onward.refl hopen).resolveBelow_ok
    (fun ho => (hl.inOrder.within ho).succ) hother
  have hstart : Abreast c scope (c.program.AtOrAbove other) c d :=
    (Abreast.refl hopen).others_resolved hresolves fun _ _ hk hy => hk.atOrAbove hy
  have hext := hstart.right.extension
  have hkeeps : Keeps c scope (c.program.AtOrAbove other)
      (resolveBelow scope (c.program.classes.size + 1) cls)
      (resolveBelow scope (d.program.classes.size + 1) cls) :=
    .below hscope
      (.inr ⟨(hl.inOrder.within ho).succ, (hl.inOrder.within_of_extends hext ho).succ⟩)
      fun y hy z hz => hdistinct y z hy hz
  obtain ⟨_, k, hk, hend⟩ := hkeeps c d hstart () e hcls
  obtain ⟨start, ht⟩ := hresolves.trail
  refine ⟨k, ?_, hend.right.running⟩
  exact (Operation.run_resolveMetaclass_iff (ht.extends.strategy.trans hf) hresolves.running).2 hk

/-- `D` and `U` are below `Base`, which is below `Root`; the header of `Root` names `Meta`. -/
def sharedBaseEvents : List Event :=
  let shape (name : Symbol) (base : Option ClassId) : ClassDecl :=
    { name, kind := .concrete, span := .point 0 1 1, base }
  [.grow (.addScope none), .grow (.intern "Meta"), .grow (.intern "Root"),
    .grow (.intern "Base"), .grow (.intern "D"), .grow (.intern "U"),
    .grow (.addClass (shape ⟨5⟩ none)),
    .grow (.addClass { shape ⟨6⟩ none with foreign := true, foreignMetaclass := some ⟨0⟩ }),
    .grow (.addClass (shape ⟨7⟩ (some ⟨1⟩))), .grow (.addClass (shape ⟨8⟩ (some ⟨2⟩))),
    .grow (.addClass (shape ⟨9⟩ (some ⟨2⟩))), .run (.markClass ⟨1⟩), .run (.markClass ⟨2⟩),
    .run (.markClass ⟨3⟩), .run (.markClass ⟨4⟩)]

theorem resolves_after_sharedBase :
    let c := (Event.play [] (.new .functional false) sharedBaseEvents).2
    ∃ d k, (Operation.resolveMetaclass ⟨4⟩ ⟨0⟩).run c = .ok .done d ∧
      (Operation.resolveMetaclass ⟨3⟩ ⟨0⟩).run d = .ok .done k ∧ k.session.aborted = false := by
  intro c
  have hrun : Run Event.Sane (Event.play [] (.new .functional false) sharedBaseEvents).1 c :=
    (Run.start false).play (by decide +kernel)
  have hl := (hrun.functional fun _ _ he => he.1).2
  have hone : ∀ x ∈ c.program.classes.handles, ∀ y ∈ c.program.classes.handles,
      (c.program.classAt x).foreign = true → (c.program.classAt y).foreign = true → x = y := by
    decide +kernel
  have hnames : ∀ x ∈ c.program.classes.handles, ∀ y ∈ c.program.classes.handles,
      c.program.className x = c.program.className y → x = y := by decide +kernel
  have ho (x : ClassId) (hx : x ∈ [(⟨3⟩ : ClassId), ⟨4⟩]) : c.program.HasRole x .ordinary := by
    refine hasRole_iff.2 ⟨none, ?_⟩
    revert x
    decide +kernel
  have hd : (Operation.resolveMetaclass ⟨4⟩ ⟨0⟩).succeeds c = true := by decide +kernel
  have he : (Operation.resolveMetaclass ⟨3⟩ ⟨0⟩).succeeds c = true := by decide +kernel
  obtain ⟨k, hk, ha⟩ := resolves_after hrun (by decide +kernel) (by decide +kernel)
    (fun x y m hx hy => hone x (Arena.mem_handles.2 (contains_of_headerNames hx))
      y (Arena.mem_handles.2 (contains_of_headerNames hy)) hx.1 hy.1)
    (by decide +kernel) (ho _ (by decide))
    (fun x y hx hy _ _ hname => hnames x
      (Arena.mem_handles.2 (hl.inOrder.contains_of_atOrAbove (ho _ (by decide)) hx)) y
      (Arena.mem_handles.2 (hl.inOrder.contains_of_atOrAbove (ho _ (by decide)) hy)) hname)
    (Operation.run_of_succeeds hd) (Operation.run_of_succeeds he)
  exact ⟨_, k, Operation.run_of_succeeds hd, hk, ha⟩

/-- `D` and `U` are below different classes, which are both shown as `Base`. -/
def sameBaseNameEvents : List Event :=
  let shape (name : Symbol) (base : Option ClassId) : ClassDecl :=
    { name, kind := .concrete, span := .point 0 1 1, base }
  [.grow (.addScope none), .grow (.intern "Base"), .grow (.intern "D"), .grow (.intern "U"),
    .grow (.addClass (shape ⟨5⟩ none)), .grow (.addClass (shape ⟨5⟩ none)),
    .grow (.addClass (shape ⟨6⟩ (some ⟨0⟩))), .grow (.addClass (shape ⟨7⟩ (some ⟨1⟩))),
    .run (.markClass ⟨0⟩), .run (.markClass ⟨1⟩), .run (.markClass ⟨2⟩), .run (.markClass ⟨3⟩)]

/-- Each of the two classes can be resolved, and neither is above the other; but resolving `D` after
`U` ends the session. -/
theorem not_resolves_after_sameBaseName :
    let c := (Event.play [] (.new .functional false) sameBaseNameEvents).2
    let resolve (cls : ClassId) := Operation.resolveMetaclass cls ⟨0⟩
    ((∃ past, Run Event.Sane past c) ∧ c.session.aborted = false ∧
      (∀ x y m, c.program.HeaderNames x m → c.program.HeaderNames y m → x = y) ∧
      c.program.scopes.contains ⟨0⟩ = true) ∧
    (c.program.HasRole ⟨2⟩ .ordinary ∧ c.program.HasRole ⟨3⟩ .ordinary ∧
      ¬ c.program.Above ⟨2⟩ ⟨3⟩ ∧ ¬ c.program.Above ⟨3⟩ ⟨2⟩ ∧
      c.program.className ⟨2⟩ ≠ c.program.className ⟨3⟩) ∧
    (resolve ⟨3⟩).succeeds c = true ∧ (resolve ⟨2⟩).succeeds c = true ∧
      (resolve ⟨2⟩).succeeds (finish (resolve ⟨3⟩).run c) = false ∧
      (finish (resolve ⟨2⟩).run (finish (resolve ⟨3⟩).run c)).session.aborted = true := by
  intro c resolve
  have hparents : ∀ z ∈ c.program.classes.handles, ∀ y ∈ [(⟨2⟩ : ClassId), ⟨3⟩],
      (c.program.classAt z).base ≠ some y ∧ y ∉ (c.program.classAt z).interfaces := by
    decide +kernel
  have htop {x y : ClassId} (hy : y ∈ [(⟨2⟩ : ClassId), ⟨3⟩]) : ¬ c.program.Above x y := by
    intro hxy
    obtain ⟨z, -, hz⟩ := Relation.TransGen.tail'_iff.1 hxy
    have hc : c.program.classes.contains z = true := by
      refine contains_of_ne fun hd => ?_
      rw [IsParent, hd] at hz
      rcases hz with hz | hz <;> cases hz
    obtain ⟨hbase, hinterfaces⟩ := hparents z (Arena.mem_handles.2 hc) y hy
    exact hz.elim hbase hinterfaces
  have hnative : ∀ x ∈ c.program.classes.handles, (c.program.classAt x).foreign = false := by
    decide +kernel
  refine ⟨⟨⟨_, (Run.start false).play (by decide +kernel)⟩, by decide +kernel, fun x y m hx _ => ?_,
    by decide +kernel⟩, ⟨hasRole_iff.2 ⟨none, by decide +kernel⟩,
    hasRole_iff.2 ⟨none, by decide +kernel⟩, htop (by decide), htop (by decide),
    by decide +kernel⟩, by decide +kernel, by decide +kernel, by decide +kernel,
    by decide +kernel⟩
  cases (hnative x (Arena.mem_handles.2 (contains_of_headerNames hx))).symm.trans hx.1

end ObjcBinding
