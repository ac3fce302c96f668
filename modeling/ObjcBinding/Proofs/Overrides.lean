import ObjcBinding.Proofs.Ancestry
import ObjcBinding.Proofs.DeclaredSides

/-!
# Overriding methods

Whether a method overrides one of a class above is noted once, when it joins the list of its
class. The lists above may grow later, by a category or because a class above is bound in another
order, and then the note is not made up for.

* `isSome_declaringClass_iff`: what is noted is whether the selector is inherited at that time;
* `Run.notedOverride_iff`: a note says whether the selector was inherited at all times since;
* `overrides_iff`: an emitted method is an override exactly if its selector was inherited at all
  times at which the method was in the list.
-/

namespace ObjcBinding

/-! ## What is inherited -/

namespace Program

/-- The list of a class above `cls` has an entry for the selector on this side. -/
def Inherits (p : Program) (cls : ClassId) (s : Selector) (isClassMethod : Bool) : Prop :=
  ∃ above, p.Ancestor cls above ∧ ∃ e ∈ p.side above isClassMethod, e.selector = s

variable {p q : Program} {cls above : ClassId} {s : Selector} {isClassMethod : Bool}

theorem Inherits.of_extends (h : p.Inherits cls s isClassMethod) (hext : p.Extends q)
    (hp : p.Layered) (hl : p.ListsOwned) (ho : p.HasRole cls .ordinary) :
    q.Inherits cls s isClassMethod := by
  obtain ⟨above, ha, e, he, hsel⟩ := h
  obtain ⟨he, hside⟩ := mem_side.1 he
  exact ⟨above, (ha.of_extends hext hp ho).1, e, mem_side.2 ⟨hext.mem_entries hl he, hside⟩, hsel⟩

/-- What is inherited depends on the superclasses and on the lists above. -/
theorem inherits_congr (hs : ∀ x, q.superclass? x = p.superclass? x)
    (he : ∀ above, p.Ancestor cls above → q.entries above = p.entries above) :
    q.Inherits cls s isClassMethod ↔ p.Inherits cls s isClassMethod := by
  have ha (above : ClassId) : q.Ancestor cls above ↔ p.Ancestor cls above := by
    simp only [Ancestor, hs]
  constructor
  · rintro ⟨above, habove, e, hmem, hsel⟩
    rw [ha] at habove
    rw [side, he above habove] at hmem
    exact ⟨above, habove, e, hmem, hsel⟩
  · rintro ⟨above, habove, e, hmem, hsel⟩
    rw [side, ← he above habove] at hmem
    exact ⟨above, (ha above).2 habove, e, hmem, hsel⟩

theorem declares_iff {skip : FuncId} (hskip : ∀ e ∈ p.entries cls, e.func ≠ skip) :
    p.declares s isClassMethod skip cls = true ↔
      ∃ e ∈ p.side cls isClassMethod, e.selector = s := by
  cases hi : (p.classAt cls).info with
  | none => simp [declares, side, entries, hi]
  | some i =>
    rw [entries_of_info hi] at hskip
    rw [declares, hi, Option.any_some, Option.any_eq_true]
    constructor
    · rintro ⟨e, hfind, -⟩
      have hmatch := List.find?_some hfind
      rw [Bool.and_eq_true, beq_iff_eq, beq_iff_eq] at hmatch
      refine ⟨e, mem_side.2 ⟨?_, hmatch.2⟩, hmatch.1⟩
      rw [entries_of_info hi]
      exact List.mem_of_find?_eq_some hfind
    · rintro ⟨e, he, hsel⟩
      obtain ⟨he, hside⟩ := mem_side.1 he
      rw [entries_of_info hi] at he
      have hsome : (i.findMethod s isClassMethod).isSome = true := by
        rw [ClassInfo.findMethod, List.find?_isSome]
        exact ⟨e, he, by rw [hsel, hside, beq_self_eq_true, beq_self_eq_true, Bool.and_self]⟩
      obtain ⟨e', hfind⟩ := Option.isSome_iff_exists.1 hsome
      exact ⟨e', hfind, decide_eq_true (hskip e' (List.mem_of_find?_eq_some hfind))⟩

end Program

open Program Resolve

variable {deed : Deed} {c d mid : Compilation} {cls : ClassId} {func : FuncId}
  {marks : ClassId → Prop} {lists : FuncId → ClassId → Bool → Prop}

/-! ## What is noted -/

/-- What holds at all times of lists, superclasses and the order of marking. -/
structure Compilation.Regular (c : Compilation) : Prop where
  tables : c.TablesFit
  layered : c.program.Layered

theorem Compilation.Regular.change (h : c.Regular) (hstep : Change deed c d) : d.Regular where
  tables := h.tables.change hstep
  layered := hstep.layered h.layered

theorem Compilation.Regular.of_run {Admits : Program → Event → Prop} {past : List Compilation}
    (hU : ∀ p e, Admits p e → e.Unbound) (h : Run Admits past c) : c.Regular where
  tables := .of_run hU h
  layered := (h.functional hU).2

/-- What a function has noted when it joined a list: whether it overrides a method. -/
def Program.overridesAny (p : Program) (func : FuncId) : Bool :=
  (p.funcAt func).info.any (·.overrides.isSome)

/-- No list above the class of a function has an entry for the function. -/
theorem declares_above_iff (h : c.Regular) {s : Selector} {isClassMethod : Bool} {above : ClassId}
    (ho : c.program.HasRole cls .ordinary) (hparent : (c.program.funcAt func).parent = some cls)
    (ha : c.program.Ancestor cls above) :
    c.program.declares s isClassMethod func above = true ↔
      ∃ e ∈ c.program.side above isClassMethod, e.selector = s := by
  refine declares_iff fun e he heq => ?_
  have hfit := (h.tables.fits above e he).parent
  rw [heq, hparent, Option.some.injEq] at hfit
  exact ha.ne h.layered ho hfit.symm

/-- What is noted for a new member of the list of `cls` is whether its selector is inherited. -/
theorem isSome_declaringClass_iff (h : c.Regular) {s : Selector} {isClassMethod : Bool}
    (ho : c.program.HasRole cls .ordinary) (hparent : (c.program.funcAt func).parent = some cls) :
    ((c.program.classAt cls).superclass.bind fun superclass =>
      c.program.declaringClass? s isClassMethod superclass func).isSome = true ↔
        c.program.Inherits cls s isClassMethod := by
  change ((c.program.superclass? cls).bind _).isSome = true ↔ _
  cases hsup : c.program.superclass? cls with
  | none =>
    refine iff_of_false nofun ?_
    rintro ⟨above, ha, -⟩
    obtain ⟨x, hx, -⟩ := Relation.TransGen.head'_iff.1 ha
    rw [hsup] at hx
    cases hx
  | some superclass =>
    have hends := h.layered.ends (h.layered.superclass_ordinary ho hsup)
    have hlineage (above : ClassId) :
        above ∈ c.program.lineage superclass ↔ c.program.Ancestor cls above := by
      rw [lineage, mem_chain_iff hends, Ancestor, Relation.TransGen.head'_iff]
      simp only [hsup, Option.some.injEq, exists_eq_left']
    rw [Option.bind_some, declaringClass?, List.find?_isSome]
    constructor
    · rintro ⟨above, ha, hd⟩
      rw [hlineage] at ha
      exact ⟨above, ha, (declares_above_iff h ho hparent ha).1 hd⟩
    · rintro ⟨above, ha, hd⟩
      exact ⟨above, (hlineage above).2 ha, (declares_above_iff h ho hparent ha).2 hd⟩

/-- Only recording a function notes what it overrides. -/
theorem Change.overridesAny_eq (h : Change deed c d) (hs : (c.program.funcAt func).selector ≠ none)
    (hr : ∀ owner side, deed ≠ .record func owner side) :
    d.program.overridesAny func = c.program.overridesAny func := by
  have hcases := h.funcAt_cases func
  rw [overridesAny, overridesAny]
  generalize d.program.funcAt func = f at hcases ⊢
  cases hcases with
  | assign s _ hnone => exact absurd hnone hs
  | record owner side => exact absurd rfl (hr owner side)
  | reject | confirm => cases (c.program.funcAt func).info <;> rfl
  | _ => rfl

theorem Change.record_overridesAny {owner : ClassId} {side : Bool} {s : Selector}
    (h : Change (.record func owner side) c d) (hc : c.Regular)
    (hs : (c.program.funcAt func).selector = some s) :
    d.program.overridesAny func = true ↔ c.program.Inherits owner s side := by
  cases h with
  | @record _ _ _ s' i cls _ overrides hfit _ hlist hi _ _ hover =>
    obtain rfl : s = s' := Option.some.inj (hs.symm.trans hfit.selector)
    have hord := hc.tables.owned.listOwner hlist
    rw [← isSome_declaringClass_iff hc hord hfit.parent, ← hover, overridesAny]
    obtain ⟨j, hj, -⟩ := Option.map_eq_some_iff.1 hs
    change ((c.program.modifyFunc func _).funcAt func).info.any _ = true ↔ _
    rw [funcAt_modifyFunc, if_pos ⟨rfl, containsFunc_of_info hj⟩, hj]
    rfl

/-! ## While functions are listed -/

/-- Functions are listed by one operation: all of them join the same list, each on the side that
it is declared for. -/
structure OneList (p : Program) (lists : FuncId → ClassId → Bool → Prop) : Prop where
  owner : ∀ func owner side func' owner' side', lists func owner side →
    lists func' owner' side' → owner = owner'
  side : ∀ func owner side, lists func owner side → side = (p.funcAt func).isStatic

/-- What has been noted when functions have been listed from `mid` to `d`: nothing about those
listed before, and about each new one whether its selector is inherited. -/
structure Noted (lists : FuncId → ClassId → Bool → Prop) (mid d : Compilation) : Prop where
  regular : d.Regular
  extension : mid.Extends d
  isStatic : ∀ func, (d.program.funcAt func).isStatic = (mid.program.funcAt func).isStatic
  sides : d.program.SidesDeclared
  old : ∀ cls e, e ∈ mid.program.entries cls →
    d.program.overridesAny e.func = mid.program.overridesAny e.func
  permitted : ∀ cls e, e ∈ d.program.entries cls → e ∉ mid.program.entries cls →
    lists e.func cls e.isClassMethod
  new : ∀ cls e, e ∈ d.program.entries cls → e ∉ mid.program.entries cls →
    (d.program.overridesAny e.func = true ↔ d.program.Inherits cls e.selector e.isClassMethod)

namespace Noted

theorem refl (h : mid.Regular) (hs : mid.program.SidesDeclared) : Noted lists mid mid where
  regular := h
  extension := .refl mid
  isStatic := fun _ => rfl
  sides := hs
  old := fun _ _ _ => rfl
  permitted := fun _ _ he hn => absurd he hn
  new := fun _ _ he hn => absurd he hn

theorem mem_of_mem (h : Noted lists mid c) (howned : mid.program.ListsOwned) {e : MethodEntry}
    (he : e ∈ mid.program.entries cls) : e ∈ c.program.entries cls :=
  h.extension.program.mem_entries howned he

theorem isStatic_step (h : Noted lists mid c) (hstep : Change deed c d) (func : FuncId) :
    (d.program.funcAt func).isStatic = (mid.program.funcAt func).isStatic := by
  have hsource := congrArg FuncDecl.isStatic (hstep.funcSource_eq func)
  exact Eq.trans hsource (h.isStatic func)

/-- A deed that records nothing leaves lists and notes as they are. -/
theorem other (h : Noted lists mid c) (howned : mid.program.ListsOwned)
    (hp : Listing lists c deed) (hstep : Change deed c d)
    (hr : ∀ func owner side, deed ≠ .record func owner side) : Noted lists mid d := by
  have hentries (cls : ClassId) : d.program.entries cls = c.program.entries cls :=
    hstep.entries_eq h.regular.tables.owned fun func side => hr func cls side
  have hover {cls : ClassId} {e : MethodEntry} (he : e ∈ c.program.entries cls) :
      d.program.overridesAny e.func = c.program.overridesAny e.func := by
    refine hstep.overridesAny_eq ?_ (hr e.func)
    rw [(h.regular.tables.fits cls e he).selector]
    exact Option.some_ne_none _
  have hsuper (x : ClassId) : d.program.superclass? x = c.program.superclass? x := by
    refine hstep.superclass?_eq ?_ ?_ x
    · rintro y rfl
      exact hp
    · rintro y rfl
      exact hp
  refine ⟨h.regular.change hstep, h.extension.trans hstep.extends, h.isStatic_step hstep,
    fun cls e he => ?_, fun cls e he => ?_, fun cls e he => ?_, fun cls e he hn => ?_⟩
  · rw [hentries] at he
    rw [h.isStatic_step hstep, ← h.isStatic, h.sides cls e he]
  · rw [hover (h.mem_of_mem howned he), h.old cls e he]
  · rw [hentries] at he
    exact h.permitted cls e he
  · rw [hentries] at he
    rw [hover he, inherits_congr hsuper fun above _ => hentries above, h.new cls e he hn]

/-- Recording a function notes whether its selector is inherited. The lists above its class are
not touched, so that what was noted before stays true. -/
theorem record {owner : ClassId} {side : Bool} (h : Noted lists mid c)
    (howned : mid.program.ListsOwned) (hone : OneList mid.program lists)
    (hp : lists func owner side) (hstep : Change (.record func owner side) c d) :
    Noted lists mid d := by
  have hregular := h.regular
  obtain ⟨s, hfit, -, hnew, hentries⟩ := hstep.record_entries
  have hord : c.program.HasRole owner .ordinary := by
    cases hstep with
    | record _ _ _ _ _ hlist => exact hregular.tables.owned.listOwner hlist
  have hsuper := hstep.superclass?_eq nofun nofun
  have hinherits {s : Selector} {side : Bool} :
      d.program.Inherits owner s side ↔ c.program.Inherits owner s side := by
    refine inherits_congr hsuper fun above ha => ?_
    rw [hentries, if_neg (ha.ne hregular.layered hord)]
  have hother {cls : ClassId} {e : MethodEntry} (he : e ∈ c.program.entries cls) :
      d.program.overridesAny e.func = c.program.overridesAny e.func := by
    have hefit := hregular.tables.fits cls e he
    refine hstep.overridesAny_eq (by rw [hefit.selector]; exact Option.some_ne_none _) ?_
    rintro owner' side' heq
    cases heq
    -- the function is in the list already, on the side on which it was recorded
    have hparent := hefit.parent.symm.trans hfit.parent
    have hsel := hefit.selector.symm.trans hfit.selector
    rw [Option.some.injEq] at hparent hsel
    refine hnew e (hparent ▸ he) hsel ?_
    rw [h.sides cls e he, h.isStatic, hone.side _ _ _ hp]
  have hmem {cls : ClassId} {e : MethodEntry} (he : e ∈ d.program.entries cls) :
      e ∈ c.program.entries cls ∨ cls = owner ∧ e = ⟨s, func, side⟩ := by
    rw [hentries] at he
    split at he
    · rename_i hcls
      rcases List.mem_append.1 he with he | he
      · exact .inl he
      · exact .inr ⟨hcls, List.mem_singleton.1 he⟩
    · exact .inl he
  refine ⟨hregular.change hstep, h.extension.trans hstep.extends, h.isStatic_step hstep,
    fun cls e he => ?_, fun cls e he => ?_, fun cls e he hn => ?_, fun cls e he hn => ?_⟩
  · rw [h.isStatic_step hstep]
    rcases hmem he with he | ⟨-, rfl⟩
    · rw [← h.isStatic, h.sides cls e he]
    · exact hone.side _ _ _ hp
  · rw [hother (h.mem_of_mem howned he), h.old cls e he]
  · rcases hmem he with he | ⟨rfl, rfl⟩
    · exact h.permitted cls e he hn
    · exact hp
  · rcases hmem he with he | ⟨rfl, rfl⟩
    · obtain rfl := hone.owner _ _ _ _ _ _ (h.permitted cls e he hn) hp
      rw [hother he, hinherits, h.new cls e he hn]
    · rw [hinherits]
      exact hstep.record_overridesAny hregular hfit.selector

end Noted

theorem Trail.noted (h : Trail (Listing lists) mid d) (hmid : mid.Regular)
    (hs : mid.program.SidesDeclared) (hone : OneList mid.program lists) : Noted lists mid d := by
  refine h.invariant (I := Noted lists mid) (fun c d deed hp hstep hc => ?_) (.refl hmid hs)
  by_cases hr : ∃ func owner side, deed = .record func owner side
  · obtain ⟨func, owner, side, rfl⟩ := hr
    exact hc.record hmid.tables.owned hone hp hstep
  · exact hc.other hmid.tables.owned hp hstep fun func owner side hd =>
      hr ⟨func, owner, side, hd⟩

/-! ## While classes are bound -/

/-- Binding classes touches no function. -/
theorem Trail.funcAt_eq {start : Program} (h : Trail (Binding start marks) c d) (func : FuncId) :
    d.program.funcAt func = c.program.funcAt func := by
  refine h.invariant (I := fun d => d.program.funcAt func = c.program.funcAt func) ?_ rfl
  intro c' d deed hp hstep hc
  rw [← hc]
  have hcases := hstep.funcAt_cases func
  generalize d.program.funcAt func = f at hcases ⊢
  cases hcases with
  | keep => rfl
  | _ => exact hp.elim

/-! ## Over time -/

/-- Functions that are to be recorded are given for the sides that they are declared for. -/
def Event.SidesGiven (p : Program) : Event → Prop
  | .run (.recordMethods _ ofInstances ofClass) =>
    (∀ f ∈ ofInstances, (p.funcAt f).isStatic = false) ∧ ∀ f ∈ ofClass, (p.funcAt f).isStatic = true
  | _ => True

instance (p : Program) : DecidablePred (Event.SidesGiven p)
  | .run (.recordMethods _ ofInstances ofClass) =>
    inferInstanceAs (Decidable ((∀ f ∈ ofInstances, (p.funcAt f).isStatic = false) ∧
      ∀ f ∈ ofClass, (p.funcAt f).isStatic = true))
  | .grow _ | .run (.internSelector ..) | .run (.markClass _) | .run (.markInterface _)
  | .run (.assignSelector ..) | .run (.validateSelector _) | .run (.checkLinkage _)
  | .run (.recordMethod ..) | .run (.recordGroup _) | .run (.addSelectorParam ..)
  | .run (.resolveMetaclass ..) | .run (.runtimeMetaclass _) | .run (.bindMethod ..)
  | .run (.bindClass ..) => .isTrue trivial

theorem Operation.oneList {p : Program} (op : Operation) (hop : Event.SidesGiven p (.run op)) :
    OneList p (op.Lists p) := by
  constructor
  · intro func owner side func' owner' side' h h'
    cases op with
    | bindClass => exact h.1.trans h'.1.symm
    | recordMethod => exact Option.some.inj (h.1.symm.trans h'.1)
    | recordMethods => exact Option.some.inj (h.1.symm.trans h'.1)
    | recordGroup => exact Option.some.inj (h.1.symm.trans h'.1)
    | bindMethod => exact Option.some.inj (h.1.symm.trans h'.1)
    | _ => exact h.elim
  · intro func owner side h
    cases op with
    | recordMethods source ofInstances ofClass =>
      cases side with
      | false => exact (hop.1 func h.2).symm
      | true => exact (hop.2 func h.2).symm
    | bindClass => exact h.2
    | recordMethod => exact h.2
    | recordGroup => exact h.2
    | bindMethod => exact h.2
    | _ => exact h.elim

/-- What an event notes: nothing about functions listed before, and about each new one whether
its selector is inherited after the event. -/
theorem Event.noted {e : Event} (he : e.Unbound) (hg : e.SidesGiven c.program)
    (hf : c.session.strategy = .functional) (hc : c.Regular) (hs : c.program.SidesDeclared) :
    (e.apply c).program.SidesDeclared ∧
    (∀ cls entry, entry ∈ c.program.entries cls →
      (e.apply c).program.overridesAny entry.func = c.program.overridesAny entry.func) ∧
    ∀ cls entry, entry ∈ (e.apply c).program.entries cls → entry ∉ c.program.entries cls →
      ((e.apply c).program.overridesAny entry.func = true ↔
        (e.apply c).program.Inherits cls entry.selector entry.isClassMethod) := by
  cases e with
  | grow g =>
    change (g.apply c.program).SidesDeclared ∧ (∀ cls entry, entry ∈ c.program.entries cls →
      (g.apply c.program).overridesAny entry.func = _) ∧
      ∀ cls entry, entry ∈ (g.apply c.program).entries cls → _
    simp only [g.entries_apply he, overridesAny, g.funcInfo_apply he, SidesDeclared]
    refine ⟨fun cls entry hentry => ?_, fun _ _ _ => trivial,
      fun _ _ hentry hn => absurd hentry hn⟩
    rw [hs cls entry hentry, (g.apply_extends c.program).isStatic]
    exact containsFunc_of_objc (hc.tables.fits cls entry hentry).linkage
  | run op =>
    obtain ⟨mid, hb, hl⟩ := op.phases hf hc.layered
    have hentries (cls : ClassId) : mid.program.entries cls = c.program.entries cls :=
      hb.entries_eq hc.tables.owned fun _ _ _ hp => hp
    have hmid : mid.Regular := hb.invariant (fun _ _ _ _ hstep hc => hc.change hstep) hc
    have hnoted := hl.noted hmid (fun cls entry hentry => ?_) ?_
    · refine ⟨hnoted.sides, fun cls entry hentry => ?_, fun cls entry hentry hn => ?_⟩
      · rw [← hentries] at hentry
        refine (hnoted.old cls entry hentry).trans ?_
        rw [overridesAny, hb.funcAt_eq, overridesAny]
      · rw [← hentries] at hn
        exact hnoted.new cls entry hentry hn
    · rw [hentries] at hentry
      rw [hb.funcAt_eq, hs cls entry hentry]
    · have hone := op.oneList hg
      exact ⟨hone.owner, fun func owner side h => by rw [hb.funcAt_eq, hone.side _ _ _ h]⟩

theorem Run.of_mem {Admits : Program → Event → Prop} {past : List Compilation}
    (h : Run Admits past c) {k : Compilation} (hk : k ∈ c :: past) :
    ∃ earlier, Run Admits earlier k := by
  induction h with
  | start renders =>
    obtain rfl := List.mem_singleton.1 hk
    exact ⟨[], .start renders⟩
  | step h he ih =>
    rcases List.mem_cons.1 hk with rfl | hk
    · exact ⟨_, h.step he⟩
    · exact ih hk

/-- An entry that was in a list at some time is in it now. -/
theorem Run.mem_entries {Admits : Program → Event → Prop} {past : List Compilation}
    (hU : ∀ p e, Admits p e → e.Unbound) (h : Run Admits past c) {k : Compilation}
    (hk : k ∈ c :: past) {e : MethodEntry} (he : e ∈ k.program.entries cls) :
    e ∈ c.program.entries cls := by
  obtain ⟨earlier, hrun⟩ := h.of_mem hk
  exact (h.extends_past hU hk).program.mem_entries
    (Compilation.TablesFit.of_run hU hrun).owned he

/-- A function has noted that it overrides a method exactly if its selector was inherited at all
times at which it was in its list. -/
theorem Run.notedOverride_iff {past : List Compilation}
    (h : Run (fun p e => e.Unbound ∧ e.SidesGiven p) past c) :
    c.program.SidesDeclared ∧ ∀ cls e, e ∈ c.program.entries cls →
      (c.program.overridesAny e.func = true ↔ ∀ k ∈ c :: past, e ∈ k.program.entries cls →
        k.program.Inherits cls e.selector e.isClassMethod) := by
  have hU (p : Program) (e : Event) (he : e.Unbound ∧ e.SidesGiven p) := he.1
  induction h with
  | start renders =>
    have hnone (cls : ClassId) : (Compilation.new .functional renders).program.entries cls = [] :=
      entries_of_unbound (info_new renders cls)
    refine ⟨fun cls e he => ?_, fun cls e he => ?_⟩
    · rw [hnone] at he
      cases he
    · rw [hnone] at he
      cases he
  | @step past c event h he ih =>
    obtain ⟨hsides, ih⟩ := ih
    have hc := Compilation.Regular.of_run hU h
    have hstep := h.step he
    have hext := hstep.extends_past hU (List.mem_cons_of_mem _ List.mem_cons_self)
    obtain ⟨hsides', hold, hnew⟩ := Event.noted he.1 he.2 (h.functional hU).1 hc hsides
    refine ⟨hsides', fun cls e hmem => ?_⟩
    rw [List.forall_mem_cons]
    by_cases hbefore : e ∈ c.program.entries cls
    · rw [hold cls e hbefore, ih cls e hbefore]
      refine ⟨fun hall => ⟨fun _ => ?_, hall⟩, fun hall => hall.2⟩
      exact (hall c List.mem_cons_self hbefore).of_extends hext.program hc.layered
        hc.tables.owned (hc.tables.owned.list cls e hbefore)
    · rw [hnew cls e hmem hbefore]
      refine ⟨fun hi => ⟨fun _ => hi, fun k hk hke => ?_⟩, fun hall => hall.1 hmem⟩
      exact absurd (h.mem_entries hU hk hke) hbefore

/-! ## What is emitted -/

theorem Compilation.emission_eq_ok_iff (hf : c.session.strategy = .functional) {e : Emission} :
    c.emission = .ok e ↔
      c.session.aborted = false ∧ e = .collect c.program c.session.selectors := by
  cases ha : c.session.aborted <;> simp [emission, asked, hf, ha, eq_comm]

/-- The dispatch table of one side. -/
def ClassRecord.table (r : ClassRecord) (isClassMethod : Bool) : List MethodRecord :=
  if isClassMethod then r.classMethods else r.instanceMethods

namespace Emission

theorem mem_table {p : Program} {t : Selector.Table} {i : ClassInfo}
    (hi : (p.classAt cls).info = some i) {isClassMethod : Bool} {m : MethodRecord} :
    m ∈ (classRecord p t cls i).table isClassMethod ↔ ∃ e ∈ p.side cls isClassMethod,
      (p.funcAt e.func).invalid = false ∧ m = methodRecord p t e := by
  have hside : i.side isClassMethod = p.side cls isClassMethod := by
    rw [Program.side, entries_of_info hi, ClassInfo.side]
  have htable : (classRecord p t cls i).table isClassMethod =
      methodRecords p t i isClassMethod := by
    cases isClassMethod <;> rfl
  rw [htable, methodRecords, hside, List.mem_map]
  constructor
  · rintro ⟨e, he, rfl⟩
    obtain ⟨he, hv⟩ := List.mem_filter.1 he
    exact ⟨e, he, by simpa using hv, rfl⟩
  · rintro ⟨e, he, hv, rfl⟩
    exact ⟨e, List.mem_filter.2 ⟨he, by simpa using hv⟩, rfl⟩

end Emission

/-- An emitted method is an override exactly if its selector was inherited at all times at which
the method was in the list of its class. -/
theorem overrides_iff {past : List Compilation}
    (h : Run (fun p e => e.Unbound ∧ e.SidesGiven p) past c) {emission : Emission}
    (he : c.emission = .ok emission) {r : ClassRecord} (hr : r ∈ emission.classes)
    {isClassMethod : Bool} {m : MethodRecord} (hm : m ∈ r.table isClassMethod) :
    ∃ e ∈ c.program.side r.cls isClassMethod, e.func = m.func ∧
      c.session.selectors.text e.selector = m.selector ∧
      (m.overrides = true ↔ ∀ k ∈ c :: past, e ∈ k.program.entries r.cls →
        k.program.Inherits r.cls e.selector isClassMethod) := by
  obtain ⟨-, rfl⟩ := (Compilation.emission_eq_ok_iff (h.functional fun _ _ hU => hU.1).1).1 he
  obtain ⟨cls, i, -, hi, rfl⟩ := Emission.mem_collect_classes.1 hr
  obtain ⟨-, -, -, hi, -⟩ := Emission.recorded?_eq_some_iff.1 hi
  obtain ⟨e, hmem, -, rfl⟩ := (Emission.mem_table hi).1 hm
  refine ⟨e, hmem, rfl, rfl, ?_⟩
  obtain ⟨hentry, rfl⟩ := mem_side.1 hmem
  exact h.notedOverride_iff.2 cls e hentry

/-- `Circle` is derived from `Shape`. A category gives `Shape` a method `draw`, but only after
`Circle` has been bound with a method of that name. -/
def categoryLaterEvents : List Event :=
  let draw : FuncDecl := { name := ⟨7⟩, params := [], span := .point 0 2 1, linkage := .objc }
  [.grow (.addScope none), .grow (.intern "Shape"), .grow (.intern "Circle"),
    .grow (.intern "draw"),
    .grow (.addClass { name := ⟨5⟩, kind := .concrete, span := .point 0 1 1 }),
    .grow (.addClass { name := ⟨6⟩, kind := .concrete, span := .point 0 1 1, base := some ⟨0⟩ }),
    .grow (.addMethod ⟨1⟩ draw),
    .grow (.addGroup
      { kind := .category ⟨5⟩, target := ⟨0⟩, members := [], span := .point 0 3 1 }),
    .grow (.addGroupMember ⟨0⟩ draw),
    .run (.bindClass ⟨0⟩ ⟨0⟩), .run (.bindClass ⟨1⟩ ⟨0⟩),
    .run (.assignSelector ⟨1⟩ ⟨0⟩), .run (.recordGroup ⟨0⟩)]

/-- The method of `Circle` is no override, although `Shape` has the selector now: it was in the list
of `Circle` when `Shape` had not. -/
theorem not_overrides_categoryLater :
    let played := Event.play [] (.new .functional false) categoryLaterEvents
    ∃ emission, played.2.emission = .ok emission ∧ ∃ r ∈ emission.classes, r.cls = ⟨1⟩ ∧
      ∃ m ∈ r.table false, m.func = ⟨0⟩ ∧ m.overrides = false ∧
        played.2.program.Inherits ⟨1⟩ ⟨0⟩ false ∧
        ∃ k ∈ played.1, ¬ k.program.Inherits ⟨1⟩ ⟨0⟩ false := by
  intro played
  have hrun : Run (fun p e => e.Unbound ∧ e.SidesGiven p) played.1 played.2 :=
    (Run.start false).play (by decide +kernel)
  have hfound : (played.2.emission.toOption.any fun e => e.classes.any fun r => r.cls = ⟨1⟩ &&
      (r.table false).any fun m => m.func = ⟨0⟩ && !m.overrides) = true := by decide +kernel
  have hinherits : played.2.program.Inherits ⟨1⟩ ⟨0⟩ false := by
    refine ⟨⟨0⟩, .single ?_, ⟨⟨0⟩, ⟨1⟩, false⟩, ?_, rfl⟩ <;> decide +kernel
  simp only [Option.any_eq_true, List.any_eq_true, Bool.and_eq_true, decide_eq_true_eq,
    Bool.not_eq_true'] at hfound
  obtain ⟨emission, he, r, hr, hcls, m, hm, hfunc, hover⟩ := hfound
  have hemission : played.2.emission = .ok emission := by
    cases hem : played.2.emission with
    | ok e =>
      rw [hem] at he
      cases he
      rfl
    | error e =>
      rw [hem] at he
      cases he
  refine ⟨emission, hemission, r, hr, hcls, m, hm, hfunc, hover, hinherits, ?_⟩
  obtain ⟨e, hmem, -, -, hiff⟩ := overrides_iff hrun hemission hr hm
  have hside : played.2.program.side ⟨1⟩ false = [⟨⟨0⟩, ⟨0⟩, false⟩] := by decide +kernel
  rw [hcls, hside, List.mem_singleton] at hmem
  rw [hover, hcls, hmem] at hiff
  by_contra hnone
  refine Bool.false_ne_true (hiff.2 fun k hk _ => ?_)
  rcases List.mem_cons.1 hk with rfl | hk
  · exact hinherits
  · by_contra hnot
    exact hnone ⟨k, hk, hnot⟩

end ObjcBinding
