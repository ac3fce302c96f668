import ObjcBinding.Proofs.Steps.Extension

/-!
# Roles and partners under changes

Only two deeds touch the role or the partner of a declaration: a class becomes bound by being
marked, and a pair is made on behalf of one class at a time.

* `Change.pairing_eq`: all other deeds leave every pairing as it is;
* `Change.pairing_cases`: what becomes of the pairing of any declaration, whatever is done;
* `Change.contains_cases`: no classes are made but metaclasses;
* `Change.pairing_of_some`: what is recorded of a declaration may change in a pair only;
* `Change.superclassesDeclared`: the superclass of a bound class is its declared base.
-/

namespace ObjcBinding

namespace Program

variable {p : Program}

theorem not_contains_fresh (p : Program) : p.classes.contains ⟨p.classes.size⟩ = false :=
  Arena.not_contains_fresh _

theorem ne_fresh_of_contains {id : ClassId} (h : p.classes.contains id = true) :
    id ≠ ⟨p.classes.size⟩ :=
  Arena.ne_fresh h

theorem hasRole_of_isBoundBase {x : ClassId} (h : p.isBoundBase x = true) :
    p.HasRole x .ordinary := by
  simp only [isBoundBase, Bool.and_eq_true, Option.any_eq_true, Bool.not_eq_true'] at h
  obtain ⟨-, i, hi, hr⟩ := h
  cases hrole : i.role with
  | ordinary => exact ⟨i, hi, hrole⟩
  | metaclass => simp [ClassInfo.isMetaclass, hrole] at hr

theorem hasRole_of_isBoundInterface {x : ClassId} (h : p.isBoundInterface x = true) :
    ∃ role, p.HasRole x role := by
  simp only [isBoundInterface, Bool.and_eq_true] at h
  exact hasRole_of_isBound h.2

/-! ## Pairings after a change of one class -/

theorem pairing_addClass (p : Program) (d : ClassDecl) (id : ClassId) :
    (p.addClass d).2.pairing id =
      if id = ⟨p.classes.size⟩ then d.info.map fun i => (i.role, i.paired) else p.pairing id := by
  rw [pairing, classAt_addClass_eq]
  split <;> rfl

theorem pairing_makeMetaclass (p : Program) (cls : ClassId) (superMetaclass : Option ClassId)
    (interfaces : List ClassId) (id : ClassId) :
    (p.makeMetaclass cls superMetaclass interfaces).pairing id =
      if id = ⟨p.classes.size⟩ then some (.metaclass, some cls) else p.pairing id :=
  pairing_addClass _ _ id

theorem pairing_setInfo {cls : ClassId} (h : p.classes.contains cls = true) (i : ClassInfo)
    (id : ClassId) :
    (p.setInfo cls i).pairing id = if id = cls then some (i.role, i.paired) else p.pairing id := by
  rw [pairing, setInfo, classAt_modifyClass]
  by_cases hid : id = cls
  · rw [if_pos ⟨hid, h⟩, if_pos hid]
    rfl
  · rw [if_neg fun h' => hid h'.1, if_neg hid]
    rfl

theorem partner_of_setInfo {cls m m' : ClassId} {i j : ClassInfo} {role : Role}
    (h : p.classes.contains cls = true) (hj : i.setPaired m = .ok j)
    (hm : (p.setInfo cls j).pairing cls = some (role, some m')) : m' = m := by
  obtain ⟨-, rfl⟩ := ClassInfo.setPaired_eq_ok_iff.1 hj
  rw [pairing_setInfo h, if_pos rfl, Option.some_inj, Prod.mk.injEq, Option.some_inj] at hm
  exact hm.2.symm

theorem pairing_setMetaclass (p : Program) (metaclass cls : ClassId)
    (superMetaclass : Option ClassId) (id : ClassId) :
    (p.setMetaclass metaclass cls superMetaclass).pairing id =
      if id = metaclass ∧ p.classes.contains metaclass = true then some (.metaclass, some cls)
      else p.pairing id := by
  rw [pairing, setMetaclass, classAt_modifyClass]
  split <;> rfl

end Program

open Program

variable {deed : Deed} {c d : Compilation}

/-- No deed but marking and pairing touches anything in the annotation of a class but its method
list. -/
theorem Change.read_info {α : Type} (h : Change deed c d) (r : ClassInfo → α)
    (hr : ∀ i e, r (i.pushMethod e) = r i) (hm : ∀ x, deed ≠ .mark x) (hp : ∀ x, deed ≠ .pair x)
    (id : ClassId) : (d.program.classAt id).info.map r = (c.program.classAt id).info.map r := by
  cases h with
  | mark cls _ _ => exact absurd rfl (hm cls)
  | synthesize => exact absurd rfl (hp _)
  | linkForeign => exact absurd rfl (hp _)
  | relink => exact absurd rfl (hp _)
  | orphan => exact absurd rfl (hp _)
  | halfLink => exact absurd rfl (hp _)
  | declare scope name entry h =>
    obtain ⟨scopes, rfl⟩ := scopes_of_declare h
    rfl
  | rejectClass cls e log _ =>
    refine congrArg (Option.map _) (read_modifyClass ClassDecl.info (fun _ => ?_) cls id)
    rfl
  | @record _ func owner s i cls side overrides _ _ _ _ _ _ _ =>
    refine read_modifyClass (fun d => d.info.map r) (fun d => ?_) owner id
    cases d.info with
    | none => rfl
    | some i => exact congrArg some (hr i _)
  | _ => rfl

/-- No deed but marking and pairing touches a role or a partner. -/
theorem Change.pairing_eq (h : Change deed c d) (hm : ∀ x, deed ≠ .mark x)
    (hp : ∀ x, deed ≠ .pair x) (id : ClassId) : d.program.pairing id = c.program.pairing id :=
  h.read_info (fun i => (i.role, i.paired)) (fun _ _ => rfl) hm hp id

theorem Change.superclass?_eq (h : Change deed c d) (hm : ∀ x, deed ≠ .mark x)
    (hp : ∀ x, deed ≠ .pair x) (x : ClassId) :
    d.program.superclass? x = c.program.superclass? x := by
  have hinfo := h.read_info ClassInfo.superclass (fun _ _ => rfl) hm hp x
  have hbind := congrArg (Option.bind · id) hinfo
  simp only [Option.bind_map, Function.id_comp] at hbind
  exact hbind

theorem Change.pairing_mark {cls : ClassId} (h : Change (.mark cls) c d) (id : ClassId) :
    d.program.pairing id = c.program.pairing id ∨
      id = cls ∧ c.program.pairing cls = none ∧
        d.program.pairing cls = some (.ordinary, none) := by
  cases h with
  | mark _ hi _ =>
    by_cases hid : id = cls ∧ c.program.classes.contains cls = true
    · obtain ⟨rfl, hc⟩ := hid
      refine .inr ⟨rfl, by rw [pairing, hi]; rfl, ?_⟩
      rw [pairing, classAt_modifyClass, if_pos ⟨rfl, hc⟩]
      rfl
    · refine .inl ?_
      rw [pairing, classAt_modifyClass, if_neg hid]
      rfl

/-- Pairs are made for bound classes. -/
theorem Change.pair_was_ordinary {cls : ClassId} (h : Change (.pair cls) c d) :
    c.program.HasRole cls .ordinary := by
  cases h with
  | synthesize _ _ hi ho => exact ⟨_, hi, ho⟩
  | linkForeign _ hi ho => exact ⟨_, hi, ho⟩
  | relink hi ho => exact ⟨_, hi, ho⟩
  | orphan _ _ _ ho => exact ho
  | halfLink _ hi ho => exact ⟨_, hi, ho⟩

theorem Change.pair_ordinary {cls : ClassId} (h : Change (.pair cls) c d) :
    d.program.HasRole cls .ordinary :=
  h.extends.program.hasRole h.pair_was_ordinary

/-- Making a pair for `cls` touches `cls`, which stays a bound class, and a declaration that
becomes its metaclass. -/
theorem Change.pairing_pair {cls : ClassId} (h : Change (.pair cls) c d) (id : ClassId) :
    d.program.pairing id = c.program.pairing id ∨
      (id = cls ∧ c.program.HasRole cls .ordinary ∧ d.program.HasRole cls .ordinary) ∨
      (d.program.pairing id = some (.metaclass, some cls) ∧
        ¬ c.program.HasRole id .ordinary ∧
        (c.program.classes.contains id = false ∨ c.program.HeaderNames cls id)) := by
  by_cases hid : id = cls
  · exact .inr (.inl ⟨hid, h.pair_was_ordinary, h.pair_ordinary⟩)
  have hfresh : ¬ c.program.HasRole ⟨c.program.classes.size⟩ .ordinary := by
    rintro ⟨i, hi, -⟩
    exact ne_fresh_of_contains (contains_of_info hi) rfl
  cases h with
  | @synthesize _ _ i j sm is hi _ _ _ hp =>
    have hc := (extends_makeMetaclass c.program cls sm is).containsClass cls (contains_of_info hi)
    rw [pairing_setInfo hc, if_neg hid, pairing_makeMetaclass]
    by_cases hm : id = ⟨c.program.classes.size⟩
    · subst hm
      rw [if_pos rfl]
      exact .inr (.inr ⟨rfl, hfresh, .inl (not_contains_fresh _)⟩)
    · rw [if_neg hm]
      exact .inl rfl
  | @linkForeign _ _ m i j sm hi _ hn hm hfree _ hp =>
    have hc := (extends_setMetaclass hfree.not_ordinary cls sm).containsClass cls
      (contains_of_info hi)
    rw [pairing_setInfo hc, if_neg hid, pairing_setMetaclass]
    by_cases he : id = m
    · subst he
      rw [if_pos ⟨rfl, hm⟩]
      exact .inr (.inr ⟨rfl, hfree.not_ordinary, .inr hn⟩)
    · rw [if_neg fun h => he h.1]
      exact .inl rfl
  | relink hi =>
    rw [pairing_setInfo (contains_of_info hi), if_neg hid]
    exact .inl rfl
  | orphan =>
    rw [pairing_makeMetaclass]
    by_cases hm : id = ⟨c.program.classes.size⟩
    · subst hm
      rw [if_pos rfl]
      exact .inr (.inr ⟨rfl, hfresh, .inl (not_contains_fresh _)⟩)
    · rw [if_neg hm]
      exact .inl rfl
  | halfLink _ hi =>
    rw [pairing_setInfo (contains_of_info hi), if_neg hid]
    exact .inl rfl

/-- Whatever is done, a declaration keeps its role and its partner unless it is marked, or paired,
or becomes the metaclass of a class that is paired. -/
theorem Change.pairing_cases (h : Change deed c d) (id : ClassId) :
    d.program.pairing id = c.program.pairing id ∨
      (deed = .mark id ∧ c.program.pairing id = none ∧
        d.program.pairing id = some (.ordinary, none)) ∨
      (deed = .pair id ∧ c.program.HasRole id .ordinary ∧ d.program.HasRole id .ordinary) ∨
      ∃ cls, deed = .pair cls ∧ d.program.pairing id = some (.metaclass, some cls) ∧
        ¬ c.program.HasRole id .ordinary ∧
        (c.program.classes.contains id = false ∨ c.program.HeaderNames cls id) := by
  by_cases hm : ∃ x, deed = .mark x
  · obtain ⟨x, rfl⟩ := hm
    rcases h.pairing_mark id with he | ⟨rfl, hmark⟩
    · exact .inl he
    · exact .inr (.inl ⟨rfl, hmark⟩)
  by_cases hp : ∃ x, deed = .pair x
  · obtain ⟨x, rfl⟩ := hp
    rcases h.pairing_pair id with he | ⟨rfl, hpair⟩ | hmade
    · exact .inl he
    · exact .inr (.inr (.inl ⟨rfl, hpair⟩))
    · exact .inr (.inr (.inr ⟨x, rfl, hmade⟩))
  · exact .inl (h.pairing_eq (fun x hx => hm ⟨x, hx⟩) (fun x hx => hp ⟨x, hx⟩) id)

/-- What is recorded of a declaration changes only if it is one of those that are paired. -/
theorem Change.pairing_of_some (h : Change deed c d) {id : ClassId}
    {r : Role × Option ClassId} (hr : c.program.pairing id = some r) :
    d.program.pairing id = some r ∨ deed = .pair id ∨
      ∃ cls, deed = .pair cls ∧ d.program.pairing id = some (.metaclass, some cls) := by
  rcases h.pairing_cases id with he | ⟨-, hnone, -⟩ | ⟨hpair, -⟩ | ⟨cls, hpair, he, -⟩
  · exact .inl (he.trans hr)
  · cases hnone.symm.trans hr
  · exact .inr (.inl hpair)
  · exact .inr (.inr ⟨cls, hpair, he⟩)

/-- A class gets its metaclass in no other way than by being paired. -/
theorem Change.pair_of_new (h : Change deed c d) {cls m : ClassId}
    (hold : c.program.pairing cls ≠ some (.ordinary, some m))
    (hnew : d.program.pairing cls = some (.ordinary, some m)) : deed = .pair cls := by
  rcases h.pairing_cases cls with he | ⟨-, -, he⟩ | ⟨hpair, -⟩ | ⟨y, -, he, -⟩
  · exact absurd (he.symm.trans hnew) hold
  · cases he.symm.trans hnew
  · exact hpair
  · cases he.symm.trans hnew

theorem hasRole_of_pairing_eq {p q : Program} {id : ClassId} {role : Role}
    (h : q.pairing id = p.pairing id) (hq : q.HasRole id role) : p.HasRole id role := by
  rw [hasRole_iff] at hq ⊢
  rwa [h] at hq

/-- A class becomes bound in no other way than by being marked. -/
theorem Change.ordinary_of_ordinary (h : Change deed c d) {x : ClassId}
    (hd : d.program.HasRole x .ordinary) : c.program.HasRole x .ordinary ∨ deed = .mark x := by
  rcases h.pairing_cases x with he | ⟨hmark, -⟩ | ⟨-, ho, -⟩ | ⟨cls, -, he, -⟩
  · exact .inl (hasRole_of_pairing_eq he hd)
  · exact .inr hmark
  · exact .inl ho
  · obtain ⟨partner, hp⟩ := hasRole_iff.1 hd
    cases he.symm.trans hp

theorem Program.Partnered.of_unbound {p : Program} (h : ∀ x, (p.classAt x).info = none) :
    p.Partnered := by
  intro m hm
  rw [pairing, h] at hm
  cases hm

/-- Nothing becomes a metaclass but on behalf of a class. -/
theorem Change.partnered (h : Change deed c d) (hc : c.program.Partnered) :
    d.program.Partnered := by
  intro m hm
  rcases h.pairing_cases m with he | ⟨-, -, he⟩ | ⟨-, -, ho⟩ | ⟨cls, -, he, -⟩
  · exact hc m (he.symm.trans hm)
  · cases he.symm.trans hm
  · obtain ⟨partner, he⟩ := hasRole_iff.1 ho
    cases he.symm.trans hm
  · cases he.symm.trans hm

/-- Between `p` and `q` the metaclass `m` was made for the bound class `cls`. -/
structure Program.Makes (p q : Program) (cls m : ClassId) : Prop where
  ordinary : p.HasRole cls .ordinary
  synthesized : (q.classAt m).synthesized = true
  pairing : q.pairing m = some (.metaclass, some cls)
  name : q.names.resolve (q.classAt m).name = some (metaclassSymbol (p.className cls))

theorem Program.makes_makeMetaclass {p : Program} {cls : ClassId} (h : p.HasRole cls .ordinary)
    (superMetaclass : Option ClassId) (interfaces : List ClassId) :
    p.Makes (p.makeMetaclass cls superMetaclass interfaces) cls ⟨p.classes.size⟩ where
  ordinary := h
  synthesized := by rw [classAt_makeMetaclass, if_pos rfl, madeMetaclass]
  pairing := by rw [pairing_makeMetaclass, if_pos rfl]
  name := by
    rw [classAt_makeMetaclass, if_pos rfl]
    exact p.resolve_intern _

theorem Program.Makes.setInfo {p q : Program} {cls m : ClassId} (h : p.Makes q cls m)
    (hc : q.classes.contains cls = true) (hne : m ≠ cls) (i : ClassInfo) :
    p.Makes (q.setInfo cls i) cls m where
  ordinary := h.ordinary
  synthesized := by rw [classAt_setInfo_of_ne i hne, h.synthesized]
  pairing := by rw [pairing_setInfo hc, if_neg hne, h.pairing]
  name := by
    rw [classAt_setInfo_of_ne i hne]
    exact h.name

/-- The only classes that are made are metaclasses. -/
theorem Change.contains_cases (h : Change deed c d) {x : ClassId}
    (hx : d.program.classes.contains x = true) :
    c.program.classes.contains x = true ∨ ∃ cls, c.program.Makes d.program cls x := by
  have hmodify {p : Program} {id : ClassId} {f : ClassDecl → ClassDecl}
      (hx : (p.modifyClass id f).classes.contains x = true) : p.classes.contains x = true := by
    rwa [modifyClass, Arena.contains_modify] at hx
  cases h with
  | rejectClass => exact .inl (hmodify hx)
  | mark => exact .inl (hmodify hx)
  | record => exact .inl (hmodify hx)
  | relink => exact .inl (hmodify hx)
  | halfLink => exact .inl (hmodify hx)
  | linkForeign => exact .inl (hmodify (hmodify hx))
  | @synthesize _ cls i j sm is hi ho _ _ _ =>
    rcases (Arena.contains_alloc _ _ _).1 (hmodify hx) with rfl | hx
    · have hc := contains_of_info hi
      have hc' := (extends_makeMetaclass c.program cls sm is).containsClass cls hc
      have hmakes := makes_makeMetaclass ⟨i, hi, ho⟩ sm is
      exact .inr ⟨cls, hmakes.setInfo hc' (ne_fresh_of_contains hc).symm j⟩
    · exact .inl hx
  | @orphan _ cls sm is _ ho =>
    rcases (Arena.contains_alloc _ _ _).1 hx with rfl | hx
    · exact .inr ⟨cls, makes_makeMetaclass ho sm is⟩
    · exact .inl hx
  | declare scope name entry h =>
    obtain ⟨scopes, rfl⟩ := scopes_of_declare h
    exact .inl hx
  | _ => exact .inl hx

/-! ## Superclasses -/

/-- The superclass of every bound class is its declared base. -/
def Program.SuperclassesDeclared (p : Program) : Prop :=
  ∀ x i, (p.classAt x).info = some i → i.role = .ordinary →
    i.superclass = (p.classAt x).base

theorem Program.SuperclassesDeclared.of_unbound {p : Program}
    (h : ∀ x, (p.classAt x).info = none) : p.SuperclassesDeclared := by
  intro x i hi
  rw [h] at hi
  cases hi

theorem Change.superclassesDeclared (h : Change deed c d)
    (hc : c.program.SuperclassesDeclared) : d.program.SuperclassesDeclared := by
  intro x k hk ho
  rcases h.ordinary_of_ordinary ⟨k, hk, ho⟩ with ⟨i, hi, hio⟩ | rfl
  · obtain ⟨j, hj, hij⟩ := h.extends.program.ordinary x i hi hio
    rw [hk] at hj
    cases hj
    rw [hij.superclass, hc x i hi hio, h.extends.program.base (contains_of_info hi)]
  · cases h with
    | mark _ hi _ =>
      change ((c.program.modifyClass x _).classAt x).info = _ at hk
      change k.superclass = ((c.program.modifyClass x _).classAt x).base
      rw [classAt_modifyClass] at hk ⊢
      split at hk
      · rename_i hx
        rw [if_pos hx]
        cases hk
        rfl
      · rw [hi] at hk
        cases hk

theorem Trail.superclassesDeclared {permits : Compilation → Deed → Prop}
    (h : Trail permits c d) (hc : c.program.SuperclassesDeclared) :
    d.program.SuperclassesDeclared :=
  h.invariant (fun _ _ _ _ hstep => hstep.superclassesDeclared) hc

end ObjcBinding
