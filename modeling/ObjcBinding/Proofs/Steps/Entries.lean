import ObjcBinding.Proofs.Steps.Leaves
import ObjcBinding.Proofs.Steps.Roles

/-!
# Method lists under changes

The list of a bound class grows by single entries, each put there by a `record`.

* `Change.entries_eq`: no other deed touches the list;
* `Change.record_entries`: what a `record` does to it;
* `Trail.classValid`: an error that is charged to a class is reported, so that clean compilations
  have gained no invalid classes.
-/

namespace ObjcBinding

open Program

variable {deed : Deed} {c d : Compilation}

/-- The entries in the method list of a class; none if it is not bound. -/
def Program.entries (p : Program) (cls : ClassId) : List MethodEntry :=
  ((p.classAt cls).info.map (·.methods.items)).getD []

/-- The functions in the list of a class, each with its side. -/
def Program.listed (p : Program) (cls : ClassId) : List (FuncId × Bool) :=
  (p.entries cls).map fun e => (e.func, e.isClassMethod)

theorem Program.entries_of_info {p : Program} {cls : ClassId} {i : ClassInfo}
    (h : (p.classAt cls).info = some i) : p.entries cls = i.methods.items := by
  rw [entries, h]
  rfl

/-- The methods of a metaclass are in the list of its class: the other half of every metaclass is
a bound class, and every list is that of a bound class. -/
structure Program.ListsOwned (p : Program) : Prop where
  partner : ∀ m x, p.pairing m = some (.metaclass, some x) → p.HasRole x .ordinary
  list : ∀ cls e, e ∈ p.entries cls → p.HasRole cls .ordinary

theorem Program.ListsOwned.entries_eq_nil {p : Program} (h : p.ListsOwned) {cls : ClassId}
    (ho : ¬ p.HasRole cls .ordinary) : p.entries cls = [] := by
  rw [List.eq_nil_iff_forall_not_mem]
  intro e he
  exact ho (h.list cls e he)

theorem Program.entries_of_unbound {p : Program} {cls : ClassId}
    (h : (p.classAt cls).info = none) : p.entries cls = [] := by
  rw [entries, h]
  rfl

theorem Program.ListsOwned.of_unbound {p : Program} (h : ∀ x, (p.classAt x).info = none) :
    p.ListsOwned := by
  refine ⟨fun m x hm => ?_, fun cls e he => ?_⟩
  · rw [pairing, h] at hm
    cases hm
  · rw [entries_of_unbound (h cls)] at he
    cases he

theorem Program.entries_makeMetaclass (p : Program) (cls : ClassId)
    (superMetaclass : Option ClassId) (interfaces : List ClassId) (x : ClassId) :
    (p.makeMetaclass cls superMetaclass interfaces).entries x = p.entries x := by
  rw [entries, entries, classAt_makeMetaclass]
  split
  · rename_i hx
    rw [hx, classAt, Arena.get_of_not_contains (not_contains_fresh p)]
    rfl
  · rfl

theorem Program.entries_setInfo {p : Program} {cls : ClassId} {i j : ClassInfo}
    (hi : (p.classAt cls).info = some i) (hj : j.methods = i.methods) (x : ClassId) :
    (p.setInfo cls j).entries x = p.entries x := by
  rw [entries, entries, setInfo, classAt_modifyClass]
  split
  · rename_i hx
    rw [hx.1, hi]
    exact congrArg AppendOnlyList.items hj
  · rfl

theorem Program.entries_setMetaclass {p : Program} (hl : p.ListsOwned) {metaclass : ClassId}
    (ho : ¬ p.HasRole metaclass .ordinary) (cls : ClassId) (superMetaclass : Option ClassId)
    (x : ClassId) : (p.setMetaclass metaclass cls superMetaclass).entries x = p.entries x := by
  rw [entries, setMetaclass, classAt_modifyClass]
  split
  · rename_i hx
    rw [hx.1, hl.entries_eq_nil ho]
    rfl
  · rfl

theorem ClassInfo.setPaired_methods {i j : ClassInfo} {partner : ClassId}
    (h : i.setPaired partner = .ok j) : j.methods = i.methods := by
  obtain ⟨-, rfl⟩ := setPaired_eq_ok_iff.1 h
  rfl

theorem Program.Extends.mem_entries {p q : Program} (h : p.Extends q) (hp : p.ListsOwned)
    {cls : ClassId} {e : MethodEntry} (he : e ∈ p.entries cls) : e ∈ q.entries cls := by
  obtain ⟨i, hi, ho⟩ := hp.list cls e he
  obtain ⟨j, hj, hij⟩ := h.ordinary cls i hi ho
  rw [entries_of_info hi] at he
  rw [entries_of_info hj]
  exact hij.methods.subset he

theorem Program.Extends.mem_listed {p q : Program} (h : p.Extends q) (hp : p.ListsOwned)
    {cls : ClassId} {entry : FuncId × Bool} (he : entry ∈ p.listed cls) :
    entry ∈ q.listed cls := by
  obtain ⟨e, hmem, rfl⟩ := List.mem_map.1 he
  exact List.mem_map_of_mem (h.mem_entries hp hmem)

/-- No deed but recording in it touches the method list of a class. -/
theorem Change.entries_eq (h : Change deed c d) (hl : c.program.ListsOwned) {x : ClassId}
    (hr : ∀ func side, deed ≠ .record func x side) : d.program.entries x = c.program.entries x := by
  cases h with
  | @record _ func owner _ _ _ side =>
    have hx : x ≠ owner := by
      rintro rfl
      exact hr func side rfl
    rw [entries, classAt_modifyClass, if_neg fun h => hx h.1]
    rfl
  | mark cls hi _ =>
    change (c.program.modifyClass cls _).entries x = _
    rw [entries, entries, classAt_modifyClass]
    split
    · rename_i hx
      rw [hx.1, hi]
      rfl
    · rfl
  | @synthesize _ cls i j sm is hi _ _ _ hp =>
    have hc := ne_fresh_of_contains (contains_of_info hi)
    have hi' : ((c.program.makeMetaclass cls sm is).classAt cls).info = some i := by
      rw [classAt_makeMetaclass, if_neg hc, hi]
    rw [entries_setInfo hi' (ClassInfo.setPaired_methods hp), entries_makeMetaclass]
  | @linkForeign _ cls m i j sm hi ho _ _ hfree _ hp =>
    have hne : cls ≠ m := by
      rintro rfl
      exact hfree.not_ordinary ⟨i, hi, ho⟩
    have hi' : ((c.program.setMetaclass m cls sm).classAt cls).info = some i := by
      rw [classAt_setMetaclass_of_ne _ _ hne, hi]
    rw [entries_setInfo hi' (ClassInfo.setPaired_methods hp),
      entries_setMetaclass hl hfree.not_ordinary]
  | relink hi _ _ _ hp => exact entries_setInfo hi (ClassInfo.setPaired_methods hp) x
  | orphan => exact entries_makeMetaclass _ _ _ _ x
  | halfLink _ hi _ hp => exact entries_setInfo hi (ClassInfo.setPaired_methods hp) x
  | declare scope name entry h =>
    obtain ⟨scopes, rfl⟩ := scopes_of_declare h
    rfl
  | rejectClass cls e log _ =>
    refine congrArg (fun o => (Option.map _ o).getD [])
      (read_modifyClass ClassDecl.info (fun _ => ?_) cls x)
    rfl
  | _ => rfl

/-- Recording puts one entry at the end of the list of one class. -/
theorem Change.record_entries {func : FuncId} {owner : ClassId} {side : Bool}
    (h : Change (.record func owner side) c d) :
    ∃ s, c.Fits func owner s ∧ (c.program.funcAt func).invalid = false ∧
      (∀ e ∈ c.program.entries owner, e.selector = s → e.isClassMethod = side → False) ∧
      ∀ x, d.program.entries x =
        if x = owner then c.program.entries x ++ [⟨s, func, side⟩] else c.program.entries x := by
  cases h with
  | @record _ _ _ s i cls side overrides hfit hv _ hi _ hnew _ =>
    refine ⟨s, hfit, hv, fun e he hs hside => ?_, fun x => ?_⟩
    · rw [entries_of_info hi] at he
      have hfind := List.find?_eq_none.1 hnew e he
      simp [hs, hside] at hfind
    · change (modifyClass _ owner _).entries x = _
      rw [entries, classAt_modifyClass]
      by_cases hx : x = owner
      · subst hx
        rw [if_pos ⟨rfl, contains_of_info hi⟩, if_pos rfl, entries_of_info hi]
        change ((((c.program.classAt x).info.map _).map _).getD []) = _
        rw [hi]
        rfl
      · rw [if_neg fun h => hx h.1, if_neg hx]
        rfl

/-! ## Who owns a list -/

theorem Program.ListsOwned.listOwner {p : Program} (h : p.ListsOwned) {cls owner : ClassId}
    (hl : p.listOwner? cls = some owner) : p.HasRole owner .ordinary := by
  obtain ⟨i, hi, ho⟩ := Option.bind_eq_some_iff.1 hl
  cases hr : i.role with
  | ordinary =>
    simp only [ClassInfo.isMetaclass, hr, reduceCtorEq, decide_false, Bool.false_eq_true,
      if_false, Option.some.injEq] at ho
    rw [← ho]
    exact ⟨i, hi, hr⟩
  | metaclass =>
    simp only [ClassInfo.isMetaclass, hr, decide_true, if_true] at ho
    refine h.partner cls owner ?_
    rw [pairing_of_info hi, hr, ho]

theorem Program.listOwner_of_ordinary {p : Program} {cls : ClassId}
    (h : p.HasRole cls .ordinary) : p.listOwner? cls = some cls := by
  obtain ⟨i, hi, hr⟩ := h
  simp [listOwner?, hi, ClassInfo.isMetaclass, hr]

theorem Change.partner_ordinary (h : Change deed c d) (hc : c.program.ListsOwned)
    {m x : ClassId} (hm : d.program.pairing m = some (.metaclass, some x)) :
    d.program.HasRole x .ordinary := by
  have hext := h.extends.program
  have hkeep : d.program.pairing m = c.program.pairing m → d.program.HasRole x .ordinary := by
    intro he
    rw [he] at hm
    exact hext.hasRole (hc.partner m x hm)
  rcases h.pairing_cases m with he | ⟨-, -, he⟩ | ⟨-, -, ho⟩ | ⟨cls, rfl, he, -⟩
  · exact hkeep he
  · cases he.symm.trans hm
  · obtain ⟨partner, hp⟩ := hasRole_iff.1 ho
    cases hp.symm.trans hm
  · cases he.symm.trans hm
    exact h.pair_ordinary

theorem Change.list_ordinary (h : Change deed c d) (hc : c.program.ListsOwned) {x : ClassId}
    {e : MethodEntry} (he : e ∈ d.program.entries x) : d.program.HasRole x .ordinary := by
  have hext := h.extends.program
  by_cases hr : ∃ func owner side, deed = .record func owner side
  · obtain ⟨func, owner, side, rfl⟩ := hr
    obtain ⟨s, -, -, -, hentries⟩ := h.record_entries
    rw [hentries] at he
    by_cases hx : x = owner
    · subst hx
      cases h with
      | record _ _ _ _ _ hlist => exact hext.hasRole (hc.listOwner hlist)
    · rw [if_neg hx] at he
      exact hext.hasRole (hc.list x e he)
  · rw [h.entries_eq hc fun func side hd => hr ⟨func, x, side, hd⟩] at he
    exact hext.hasRole (hc.list x e he)

theorem Change.listsOwned (h : Change deed c d) (hc : c.program.ListsOwned) :
    d.program.ListsOwned where
  partner _ _ hm := h.partner_ordinary hc hm
  list _ _ he := h.list_ordinary hc he

theorem Trail.listsOwned {permits : Compilation → Deed → Prop} (h : Trail permits c d)
    (hc : c.program.ListsOwned) : d.program.ListsOwned :=
  h.invariant (fun _ _ _ _ hstep => hstep.listsOwned) hc

theorem Trail.entries_eq {permits : Compilation → Deed → Prop} (h : Trail permits c d)
    (hc : c.program.ListsOwned) {x : ClassId}
    (hp : ∀ e func side, ¬ permits e (.record func x side)) :
    d.program.entries x = c.program.entries x := by
  induction h with
  | refl => rfl
  | tail h hstep ih =>
    obtain ⟨deed, hd, hchange⟩ := hstep
    rw [hchange.entries_eq (Trail.listsOwned h hc), ih]
    rintro func side rfl
    exact hp _ func side hd

/-! ## What is written in the source -/

/-- What is neither part of the annotation nor the mark of an error is read as before; a metaclass
that was made reads like an undeclared class. -/
theorem Change.read_class {α : Type} (h : Change deed c d) (g : ClassDecl → α)
    (hg : ∀ (d : ClassDecl) (b : Bool) (i : Option ClassInfo),
      g { d with invalid := b, info := i } = g d)
    (hmade : ∀ (p : Program) (cls : ClassId) (superMetaclass : Option ClassId)
      (interfaces : List ClassId), g (p.madeMetaclass cls superMetaclass interfaces) = g default)
    (x : ClassId) : g (d.program.classAt x) = g (c.program.classAt x) := by
  have hadd (cls : ClassId) (sm : Option ClassId) (is : List ClassId) :
      g ((c.program.makeMetaclass cls sm is).classAt x) = g (c.program.classAt x) := by
    rw [classAt_makeMetaclass]
    split
    · rename_i hx
      rw [hmade, hx, classAt, Arena.get_of_not_contains (not_contains_fresh c.program)]
    · rfl
  have hset (p : Program) (cls : ClassId) (i : ClassInfo) :
      g ((p.setInfo cls i).classAt x) = g (p.classAt x) :=
    read_modifyClass g (fun d => hg d d.invalid _) cls x
  have hseize (m cls : ClassId) (sm : Option ClassId) :
      g ((c.program.setMetaclass m cls sm).classAt x) = g (c.program.classAt x) :=
    read_modifyClass g (fun d => hg d d.invalid _) m x
  cases h with
  | rejectClass cls => exact read_modifyClass g (fun d => hg d true d.info) cls x
  | mark cls => exact read_modifyClass g (fun d => hg d d.invalid _) cls x
  | @record _ func owner => exact read_modifyClass g (fun d => hg d d.invalid _) owner x
  | synthesize => rw [hset, hadd]
  | linkForeign => rw [hset, hseize]
  | relink => exact hset _ _ _
  | orphan => exact hadd _ _ _
  | halfLink => exact hset _ _ _
  | declare scope name entry h =>
    obtain ⟨scopes, rfl⟩ := scopes_of_declare h
    rfl
  | _ => rfl

theorem Change.members_eq (h : Change deed c d) (x : ClassId) :
    (d.program.classAt x).members = (c.program.classAt x).members :=
  h.read_class ClassDecl.members (fun _ _ _ => rfl) (fun _ _ _ _ => rfl) x

theorem Trail.members_eq {permits : Compilation → Deed → Prop} (h : Trail permits c d)
    (x : ClassId) : (d.program.classAt x).members = (c.program.classAt x).members :=
  h.invariant (I := fun d => (d.program.classAt x).members = (c.program.classAt x).members)
    (fun _ _ _ _ hstep he => (hstep.members_eq x).trans he) rfl

theorem Change.headerNames_iff (h : Change deed c d) {x m : ClassId} :
    d.program.HeaderNames x m ↔ c.program.HeaderNames x m := by
  have hf := h.read_class ClassDecl.foreign (fun _ _ _ => rfl) (fun _ _ _ _ => rfl) x
  have hm := h.read_class ClassDecl.foreignMetaclass (fun _ _ _ => rfl) (fun _ _ _ _ => rfl) x
  rw [HeaderNames, HeaderNames, hf, hm]

/-! ## Validity -/

theorem Program.invalid_setInfo (p : Program) (cls x : ClassId) (i : ClassInfo) :
    ((p.setInfo cls i).classAt x).invalid = (p.classAt x).invalid := by
  refine read_modifyClass ClassDecl.invalid (fun _ => ?_) cls x
  rfl

theorem Program.invalid_setMetaclass (p : Program) (metaclass cls x : ClassId)
    (superMetaclass : Option ClassId) :
    ((p.setMetaclass metaclass cls superMetaclass).classAt x).invalid =
      (p.classAt x).invalid := by
  refine read_modifyClass ClassDecl.invalid (fun _ => ?_) metaclass x
  rfl

theorem Program.invalid_makeMetaclass (p : Program) (cls x : ClassId)
    (superMetaclass : Option ClassId) (interfaces : List ClassId) :
    ((p.makeMetaclass cls superMetaclass interfaces).classAt x).invalid =
      (p.classAt x).invalid := by
  rw [classAt_makeMetaclass]
  split
  · rename_i hx
    rw [hx, classAt, Arena.get_of_not_contains (not_contains_fresh p)]
    rfl
  · rfl

/-- A class becomes invalid only if an error is charged to it. -/
theorem Change.classInvalid_eq (h : Change deed c d) (hr : ∀ x, deed ≠ .rejectClass x)
    (x : ClassId) : (d.program.classAt x).invalid = (c.program.classAt x).invalid := by
  cases h with
  | rejectClass cls => exact absurd rfl (hr cls)
  | mark cls _ _ =>
    refine read_modifyClass ClassDecl.invalid (fun _ => ?_) cls x
    rfl
  | synthesize => rw [invalid_setInfo, invalid_makeMetaclass]
  | linkForeign => rw [invalid_setInfo, invalid_setMetaclass]
  | relink => rw [invalid_setInfo]
  | orphan => rw [invalid_makeMetaclass]
  | halfLink => rw [invalid_setInfo]
  | @record _ func owner =>
    refine read_modifyClass ClassDecl.invalid (fun _ => ?_) owner x
    rfl
  | declare scope name entry h =>
    obtain ⟨scopes, rfl⟩ := scopes_of_declare h
    rfl
  | _ => rfl

theorem Change.classValid (h : Change deed c d) (hd : d.Clean) {x : ClassId}
    (hx : (c.program.classAt x).invalid = false) : (d.program.classAt x).invalid = false := by
  by_cases hr : ∃ y, deed = .rejectClass y
  · obtain ⟨y, rfl⟩ := hr
    cases h with
    | rejectClass _ e log => exact absurd hd (Compilation.not_clean_report _ e log)
  · rw [h.classInvalid_eq (fun y hy => hr ⟨y, hy⟩), hx]

/-- A class that is invalid stays so. -/
theorem Change.classValid_of (h : Change deed c d) {x : ClassId}
    (hd : (d.program.classAt x).invalid = false) : (c.program.classAt x).invalid = false := by
  by_cases hr : ∃ y, deed = .rejectClass y
  · obtain ⟨y, rfl⟩ := hr
    cases h with
    | rejectClass _ e log _ =>
      change ((c.program.modifyClass y _).classAt x).invalid = false at hd
      rw [classAt_modifyClass] at hd
      split at hd
      · cases hd
      · exact hd
  · rwa [h.classInvalid_eq fun y hy => hr ⟨y, hy⟩] at hd

theorem Trail.classValid {permits : Compilation → Deed → Prop} (h : Trail permits c d)
    (hd : d.Clean) {x : ClassId} (hx : (c.program.classAt x).invalid = false) :
    (d.program.classAt x).invalid = false := by
  induction h with
  | refl => exact hx
  | tail _ hstep ih =>
    obtain ⟨deed, -, hchange⟩ := hstep
    exact hchange.classValid hd (ih (hchange.extends.clean hd))

end ObjcBinding
