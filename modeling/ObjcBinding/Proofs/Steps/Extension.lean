import ObjcBinding.Proofs.Steps.Change

/-!
# What no change undoes

Declarations are added and annotated, never removed: `q` extends `p` if everything written in the
source of a declaration of `p` stands in `q` as well, and if what has been recorded about the
runtime is kept: a role, a selector, a partner once there is one, and the entries of a method list.

* `Program.Extends.trans`: extension is a preorder;
* `Change.extends`, `Trail.extends`: every change extends the compilation;
* `Program.Extends.above`: what is above a class stays above it.
-/

namespace ObjcBinding

/-! ## Extension -/

/-- What is written about a class in the source, apart from its members. -/
def ClassDecl.source (d : ClassDecl) : ClassDecl :=
  { d with members := [], invalid := false, info := none }

/-- What is written about a function in the source. -/
def FuncDecl.source (d : FuncDecl) : FuncDecl :=
  { d with params := d.explicitParams, invalid := false, info := none }

theorem FuncDecl.explicitCount_source (d : FuncDecl) :
    d.source.explicitCount = d.explicitCount := by
  simp [source, explicitCount, explicitParams]

/-- `j` is the annotation of a bound class that had the annotation `i`. -/
structure ClassInfo.Continues (i j : ClassInfo) : Prop where
  role : j.role = .ordinary
  name : j.name = i.name
  foreign : j.foreign = i.foreign
  superclass : j.superclass = i.superclass
  paired : ∀ m, i.paired = some m → j.paired = some m
  methods : i.methods.items <+: j.methods.items

/-- `q` has everything that is declared and recorded in `p`. -/
structure Program.Extends (p q : Program) : Prop where
  names : ∀ k t, p.names.resolve k = some t → q.names.resolve k = some t
  containsClass : ∀ id, p.classes.contains id = true → q.classes.contains id = true
  containsFunc : ∀ id, p.funcs.contains id = true → q.funcs.contains id = true
  classSource : ∀ id, p.classes.contains id = true →
    (q.classAt id).source = (p.classAt id).source
  members : ∀ id, p.classes.contains id = true →
    (p.classAt id).members <+: (q.classAt id).members
  funcSource : ∀ id, p.funcs.contains id = true → (q.funcAt id).source = (p.funcAt id).source
  ordinary : ∀ id i, (p.classAt id).info = some i → i.role = .ordinary →
    ∃ j, (q.classAt id).info = some j ∧ i.Continues j
  metaclass : ∀ id, p.HasRole id .metaclass → q.HasRole id .metaclass
  selector : ∀ id i, (p.funcAt id).info = some i → ∃ j, (q.funcAt id).info = some j ∧
    j.selector = i.selector ∧ j.needsSelectorParam = i.needsSelectorParam

/-- `d` has everything that is declared, recorded and reported in `c`. -/
structure Compilation.Extends (c d : Compilation) : Prop where
  program : c.program.Extends d.program
  selectors : ∀ s e, c.session.selectors.get? s = some e → d.session.selectors.get? s = some e
  sink : c.session.sink.items <+: d.session.sink.items
  aborted : c.session.aborted = true → d.session.aborted = true
  strategy : d.session.strategy = c.session.strategy

theorem ClassInfo.Continues.refl {i : ClassInfo} (h : i.role = .ordinary) : i.Continues i :=
  ⟨h, rfl, rfl, rfl, fun _ h => h, List.prefix_refl _⟩

theorem ClassInfo.Continues.trans {i j k : ClassInfo} (h : i.Continues j) (h' : j.Continues k) :
    i.Continues k where
  role := h'.role
  name := h'.name.trans h.name
  foreign := h'.foreign.trans h.foreign
  superclass := h'.superclass.trans h.superclass
  paired := fun m hm => h'.paired m (h.paired m hm)
  methods := h.methods.trans h'.methods

namespace Program

variable {p q r : Program}

theorem Extends.refl (p : Program) : p.Extends p where
  names := fun _ _ h => h
  containsClass := fun _ h => h
  containsFunc := fun _ h => h
  classSource := fun _ _ => rfl
  members := fun _ _ => List.prefix_refl _
  funcSource := fun _ _ => rfl
  ordinary := fun _ i h ho => ⟨i, h, .refl ho⟩
  metaclass := fun _ h => h
  selector := fun _ i h => ⟨i, h, rfl, rfl⟩

theorem Extends.trans (h : p.Extends q) (h' : q.Extends r) : p.Extends r where
  names := fun k t ht => h'.names k t (h.names k t ht)
  containsClass := fun id hc => h'.containsClass id (h.containsClass id hc)
  containsFunc := fun id hc => h'.containsFunc id (h.containsFunc id hc)
  classSource := fun id hc =>
    (h'.classSource id (h.containsClass id hc)).trans (h.classSource id hc)
  members := fun id hc => (h.members id hc).trans (h'.members id (h.containsClass id hc))
  funcSource := fun id hc =>
    (h'.funcSource id (h.containsFunc id hc)).trans (h.funcSource id hc)
  ordinary := fun id i hi ho => by
    obtain ⟨j, hj, hij⟩ := h.ordinary id i hi ho
    obtain ⟨k, hk, hjk⟩ := h'.ordinary id j hj hij.role
    exact ⟨k, hk, hij.trans hjk⟩
  metaclass := fun id hm => h'.metaclass id (h.metaclass id hm)
  selector := fun id i hi => by
    obtain ⟨j, hj, hs, hn⟩ := h.selector id i hi
    obtain ⟨k, hk, hs', hn'⟩ := h'.selector id j hj
    exact ⟨k, hk, hs'.trans hs, hn'.trans hn⟩

/-- Scopes and groups play no part in extension. -/
theorem Extends.of_eq (hn : q.names = p.names) (hc : q.classes = p.classes)
    (hf : q.funcs = p.funcs) : p.Extends q := by
  obtain ⟨names, classes, funcs, groups, scopes⟩ := p
  obtain ⟨names', classes', funcs', groups', scopes'⟩ := q
  cases hn
  cases hc
  cases hf
  exact { Extends.refl ⟨names, classes, funcs, groups, scopes⟩ with }

/-! ## Reading an extension -/

theorem Extends.name (h : p.Extends q) {id : ClassId} (hc : p.classes.contains id = true) :
    (q.classAt id).name = (p.classAt id).name := by
  have hs := congrArg ClassDecl.name (h.classSource id hc)
  exact hs

theorem Extends.kind (h : p.Extends q) {id : ClassId} (hc : p.classes.contains id = true) :
    (q.classAt id).kind = (p.classAt id).kind := by
  have hs := congrArg ClassDecl.kind (h.classSource id hc)
  exact hs

theorem Extends.span (h : p.Extends q) {id : ClassId} (hc : p.classes.contains id = true) :
    (q.classAt id).span = (p.classAt id).span := by
  have hs := congrArg ClassDecl.span (h.classSource id hc)
  exact hs

theorem Extends.base (h : p.Extends q) {id : ClassId} (hc : p.classes.contains id = true) :
    (q.classAt id).base = (p.classAt id).base := by
  have hs := congrArg ClassDecl.base (h.classSource id hc)
  exact hs

theorem Extends.interfaces (h : p.Extends q) {id : ClassId}
    (hc : p.classes.contains id = true) :
    (q.classAt id).interfaces = (p.classAt id).interfaces := by
  have hs := congrArg ClassDecl.interfaces (h.classSource id hc)
  exact hs

theorem Extends.isParent (h : p.Extends q) {x y : ClassId} (hxy : p.IsParent x y) :
    q.IsParent x y := by
  cases hc : p.classes.contains x with
  | true => rwa [IsParent, h.base hc, h.interfaces hc]
  | false =>
    rw [IsParent, classAt, Arena.get_of_not_contains hc] at hxy
    rcases hxy with hxy | hxy <;> cases hxy

theorem Extends.isParent_iff (h : p.Extends q) {x y : ClassId}
    (hc : p.classes.contains x = true) : q.IsParent x y ↔ p.IsParent x y := by
  rw [IsParent, IsParent, h.base hc, h.interfaces hc]

theorem Extends.parent (h : p.Extends q) {id : FuncId} (hc : p.funcs.contains id = true) :
    (q.funcAt id).parent = (p.funcAt id).parent := by
  have hs := congrArg FuncDecl.parent (h.funcSource id hc)
  exact hs

theorem Extends.linkage (h : p.Extends q) {id : FuncId} (hc : p.funcs.contains id = true) :
    (q.funcAt id).linkage = (p.funcAt id).linkage := by
  have hs := congrArg FuncDecl.linkage (h.funcSource id hc)
  exact hs

theorem Extends.isStatic (h : p.Extends q) {id : FuncId} (hc : p.funcs.contains id = true) :
    (q.funcAt id).isStatic = (p.funcAt id).isStatic := by
  have hs := congrArg FuncDecl.isStatic (h.funcSource id hc)
  exact hs

theorem Extends.selector_eq (h : p.Extends q) {id : FuncId} {s : Selector}
    (hs : (p.funcAt id).selector = some s) : (q.funcAt id).selector = some s := by
  obtain ⟨i, hi, rfl⟩ := Option.map_eq_some_iff.1 hs
  obtain ⟨j, hj, hji, -⟩ := h.selector id i hi
  rw [FuncDecl.selector, hj, Option.map_some, hji]

theorem Extends.above (h : p.Extends q) {x y : ClassId} (hxy : p.Above x y) : q.Above x y :=
  Above.mono (fun _ _ => h.isParent) hxy

theorem Extends.foreign (h : p.Extends q) {id : ClassId} (hc : p.classes.contains id = true) :
    (q.classAt id).foreign = (p.classAt id).foreign := by
  have hs := congrArg ClassDecl.foreign (h.classSource id hc)
  exact hs

theorem Extends.headerNames (h : p.Extends q) {x m : ClassId} (hx : p.HeaderNames x m) :
    q.HeaderNames x m := by
  cases hc : p.classes.contains x with
  | true =>
    have hm := congrArg ClassDecl.foreignMetaclass (h.classSource x hc)
    exact ⟨(h.foreign hc).trans hx.1, hm.trans hx.2⟩
  | false =>
    rw [HeaderNames, classAt, Arena.get_of_not_contains hc] at hx
    cases hx.1

theorem HeadersApart.of_extends (h : q.HeadersApart) (hext : p.Extends q) : p.HeadersApart where
  backward := fun _ _ hm => h.backward _ _ (hext.headerNames hm)
  unique := fun _ _ _ hx hy => h.unique _ _ _ (hext.headerNames hx) (hext.headerNames hy)

theorem Extends.hasRole (h : p.Extends q) {id : ClassId} {role : Role}
    (hr : p.HasRole id role) : q.HasRole id role := by
  cases role with
  | ordinary =>
    obtain ⟨i, hi, ho⟩ := hr
    obtain ⟨j, hj, hij⟩ := h.ordinary id i hi ho
    exact ⟨j, hj, hij.role⟩
  | metaclass => exact h.metaclass id hr

/-- The partner of a bound class is recorded for good. -/
theorem Extends.pairing_eq (h : p.Extends q) {id m : ClassId}
    (hp : p.pairing id = some (.ordinary, some m)) : q.pairing id = some (.ordinary, some m) := by
  obtain ⟨i, hi, ho, hm⟩ := info_of_pairing hp
  obtain ⟨j, hj, hij⟩ := h.ordinary id i hi ho
  rw [pairing_of_info hj, hij.role, hij.paired m hm]

theorem Extends.superclass (h : p.Extends q) {id : ClassId} (ho : p.HasRole id .ordinary) :
    (q.classAt id).superclass = (p.classAt id).superclass := by
  obtain ⟨i, hi, hio⟩ := ho
  obtain ⟨j, hj, hij⟩ := h.ordinary id i hi hio
  rw [ClassDecl.superclass, ClassDecl.superclass, hi, hj, Option.bind_some, Option.bind_some,
    hij.superclass]

theorem Extends.derivedFrom (h : p.Extends q) {x y : ClassId} (hxy : p.DerivedFrom x y) :
    q.DerivedFrom x y :=
  Relation.TransGen.mono (fun _ _ hxy => ⟨h.hasRole hxy.1, h.isParent hxy.2⟩) _ _ hxy

theorem Extends.atOrAbove (h : p.Extends q) {x y : ClassId} (hxy : p.AtOrAbove x y) :
    q.AtOrAbove x y :=
  hxy.imp_right h.derivedFrom

theorem Extends.isPaired (h : p.Extends q) {x : ClassId} (hx : p.IsPaired x) : q.IsPaired x :=
  hx.imp fun _ => h.pairing_eq

theorem hasRole_of_isBound {id : ClassId} (h : (p.classAt id).isBound = true) :
    ∃ role, p.HasRole id role := by
  obtain ⟨i, hi⟩ := Option.isSome_iff_exists.1 h
  exact ⟨i.role, i, hi, rfl⟩

theorem isBound_of_hasRole {id : ClassId} {role : Role} (h : p.HasRole id role) :
    (p.classAt id).isBound = true := by
  obtain ⟨i, hi, -⟩ := h
  exact Option.isSome_iff_exists.2 ⟨i, hi⟩

theorem Extends.isBound (h : p.Extends q) {id : ClassId} (hb : (p.classAt id).isBound = true) :
    (q.classAt id).isBound = true := by
  obtain ⟨role, hr⟩ := hasRole_of_isBound hb
  exact isBound_of_hasRole (h.hasRole hr)

/-! ## Extending a program -/

theorem extends_intern (p : Program) (text : String) : p.Extends (p.intern text).2 :=
  { Extends.refl p with names := fun _ _ h => Interner.resolve_intern_of_some h text }

theorem extends_addClass (p : Program) (d : ClassDecl) : p.Extends (p.addClass d).2 := by
  have hat {id : ClassId} (hc : p.classes.contains id = true) :
      (p.addClass d).2.classAt id = p.classAt id := by
    rw [classAt_addClass_eq, if_neg (Arena.ne_fresh hc)]
  exact
    { Extends.refl p with
      containsClass := fun id h => (Arena.contains_alloc _ _ _).2 (.inr h)
      classSource := fun id h => by rw [hat h]
      members := fun id h => ⟨[], by rw [hat h, List.append_nil]⟩
      ordinary := fun id i hi ho => ⟨i, by rwa [hat (contains_of_info hi)], .refl ho⟩
      metaclass := by
        rintro id ⟨i, hi, hr⟩
        exact ⟨i, by rwa [hat (contains_of_info hi)], hr⟩ }

/-- A class may be changed if its source stays and its annotation is continued. -/
theorem extends_modifyClass {id : ClassId} {f : ClassDecl → ClassDecl}
    (hs : (f (p.classAt id)).source = (p.classAt id).source)
    (hm : (p.classAt id).members <+: (f (p.classAt id)).members)
    (ho : ∀ i, (p.classAt id).info = some i → i.role = .ordinary →
      ∃ j, (f (p.classAt id)).info = some j ∧ i.Continues j)
    (hr : ∀ i, (p.classAt id).info = some i → i.role = .metaclass →
      ∃ j, (f (p.classAt id)).info = some j ∧ j.role = .metaclass) :
    p.Extends (p.modifyClass id f) := by
  refine { Extends.refl p with
    containsClass := fun x h => ?_, classSource := fun x _ => ?_, members := fun x _ => ?_
    ordinary := fun x i hi hio => ?_, metaclass := fun x hx => ?_ }
  · rwa [modifyClass, Arena.contains_modify]
  · rw [classAt_modifyClass]
    split
    · rename_i h
      rw [h.1, hs]
    · rfl
  · rw [classAt_modifyClass]
    split
    · rename_i h
      rw [h.1]
      exact hm
    · exact List.prefix_refl _
  · rw [classAt_modifyClass]
    split
    · rename_i h
      rw [h.1] at hi ⊢
      exact ho i hi hio
    · exact ⟨i, hi, .refl hio⟩
  · obtain ⟨i, hi, hir⟩ := hx
    rw [HasRole, classAt_modifyClass]
    split
    · rename_i h
      rw [h.1] at hi ⊢
      exact hr i hi hir
    · exact ⟨i, hi, hir⟩

/-- A new annotation may take the place of one with the same role that it continues. -/
theorem extends_setInfo {id : ClassId} {j : ClassInfo}
    (ho : ∀ i, (p.classAt id).info = some i → i.role = .ordinary → i.Continues j)
    (hr : ∀ i, (p.classAt id).info = some i → i.role = .metaclass → j.role = .metaclass) :
    p.Extends (p.setInfo id j) :=
  extends_modifyClass rfl (List.prefix_refl _) (fun i hi hio => ⟨j, rfl, ho i hi hio⟩)
    fun i hi hir => ⟨j, rfl, hr i hi hir⟩

theorem extends_addFunction (p : Program) (d : FuncDecl) : p.Extends (p.addFunction d).2 := by
  have hat {id : FuncId} (hc : p.funcs.contains id = true) :
      (p.addFunction d).2.funcAt id = p.funcAt id := by
    rw [funcAt_addFunction_eq, if_neg (Arena.ne_fresh hc)]
  exact
    { Extends.refl p with
      containsFunc := fun id h => (Arena.contains_alloc _ _ _).2 (.inr h)
      funcSource := fun id h => by rw [hat h]
      selector := fun id i hi => ⟨i, by rwa [hat (containsFunc_of_info hi)], rfl, rfl⟩ }

/-- A function may be changed if its source stays and its selector is kept. -/
theorem extends_modifyFunc {id : FuncId} {f : FuncDecl → FuncDecl}
    (hs : (f (p.funcAt id)).source = (p.funcAt id).source)
    (hi : ∀ i, (p.funcAt id).info = some i → ∃ j, (f (p.funcAt id)).info = some j ∧
      j.selector = i.selector ∧ j.needsSelectorParam = i.needsSelectorParam) :
    p.Extends (p.modifyFunc id f) := by
  refine { Extends.refl p with
    containsFunc := fun x h => ?_, funcSource := fun x _ => ?_, selector := fun x i hx => ?_ }
  · rwa [modifyFunc, Arena.contains_modify]
  · rw [funcAt_modifyFunc]
    split
    · rename_i h
      rw [h.1, hs]
    · rfl
  · rw [funcAt_modifyFunc]
    split
    · rename_i h
      rw [h.1] at hx ⊢
      exact hi i hx
    · exact ⟨i, hx, rfl, rfl⟩

end Program

/-! ## Changes extend -/

namespace Compilation

variable {b c d : Compilation}

theorem Extends.refl (c : Compilation) : c.Extends c :=
  ⟨.refl _, fun _ _ h => h, List.prefix_refl _, fun h => h, rfl⟩

theorem Extends.trans (h : b.Extends c) (h' : c.Extends d) : b.Extends d where
  program := h.program.trans h'.program
  selectors := fun s e hs => h'.selectors s e (h.selectors s e hs)
  sink := h.sink.trans h'.sink
  aborted := fun ha => h'.aborted (h.aborted ha)
  strategy := h'.strategy.trans h.strategy

theorem extends_of_program {p : Program} (h : c.program.Extends p) :
    c.Extends { c with program := p } :=
  { Extends.refl c with program := h }

theorem extends_report (c : Compilation) (e : BindError) (log : Array Log.Message) :
    c.Extends { c.report e with log } :=
  { Extends.refl c with
    sink := by
      change c.session.sink.items <+: (c.session.sink.report e.diagnostic).items
      rw [Sink.items_report]
      exact List.prefix_append _ _ }

theorem extends_charge (c : Compilation) (culprit : Culprit) :
    c.Extends (c.charge culprit) := by
  cases culprit with
  | classDecl id =>
    exact extends_of_program (Program.extends_modifyClass rfl (List.prefix_refl _)
      (fun i hi ho => ⟨i, hi, .refl ho⟩) fun i hi hr => ⟨i, hi, hr⟩)
  | funcDecl id =>
    refine extends_of_program (Program.extends_modifyFunc rfl fun i hi => ?_)
    exact ⟨_, congrArg (Option.map _) hi, rfl, rfl⟩

end Compilation

theorem Compilation.Fits.of_extends {c d : Compilation} {func : FuncId} {owner : ClassId}
    {s : Selector} (hf : c.Fits func owner s) (h : c.Extends d)
    (hs : d.session.selectors.arity s = c.session.selectors.arity s) : d.Fits func owner s := by
  have hsource := h.program.funcSource func (Program.containsFunc_of_objc hf.linkage)
  have hc := Program.containsFunc_of_objc hf.linkage
  exact
    { selector := h.program.selector_eq hf.selector
      parent := (h.program.parent hc).trans hf.parent
      linkage := (h.program.linkage hc).trans hf.linkage
      template := (congrArg FuncDecl.isTemplate hsource).trans hf.template
      arity := by
        rw [hs, hf.arity, ← FuncDecl.explicitCount_source, ← hsource,
          FuncDecl.explicitCount_source] }

theorem ClassInfo.setPaired_continues {i j : ClassInfo} {partner : ClassId}
    (h : i.setPaired partner = .ok j) (ho : i.role = .ordinary) : i.Continues j := by
  obtain ⟨hp, rfl⟩ := setPaired_eq_ok_iff.1 h
  refine ⟨ho, rfl, rfl, rfl, fun m hm => ?_, List.prefix_refl _⟩
  rcases hp with hp | hp
  · rw [hp] at hm
    cases hm
  · rwa [hp] at hm

theorem ClassInfo.setPaired_role {i j : ClassInfo} {partner : ClassId}
    (h : i.setPaired partner = .ok j) : j.role = i.role := by
  obtain ⟨-, rfl⟩ := setPaired_eq_ok_iff.1 h
  rfl

theorem Program.extends_setPaired {p : Program} {cls partner : ClassId} {i j : ClassInfo}
    (hi : (p.classAt cls).info = some i) (h : i.setPaired partner = .ok j) :
    p.Extends (p.setInfo cls j) := by
  refine extends_setInfo (fun k hk ho => ?_) fun k hk hr => ?_
  · rw [hi] at hk
    cases hk
    exact ClassInfo.setPaired_continues h ho
  · rw [hi] at hk
    cases hk
    rw [ClassInfo.setPaired_role h, hr]

theorem Program.extends_setMetaclass {p : Program} {metaclass : ClassId}
    (h : ¬ p.HasRole metaclass .ordinary) (cls : ClassId) (superMetaclass : Option ClassId) :
    p.Extends (p.setMetaclass metaclass cls superMetaclass) :=
  extends_modifyClass rfl (List.prefix_refl _) (fun k hk ho => absurd ⟨k, hk, ho⟩ h)
    fun _ _ _ => ⟨_, rfl, rfl⟩

theorem Program.classAt_makeMetaclass (p : Program) (cls : ClassId)
    (superMetaclass : Option ClassId) (interfaces : List ClassId) (id : ClassId) :
    (p.makeMetaclass cls superMetaclass interfaces).classAt id =
      if id = ⟨p.classes.size⟩ then p.madeMetaclass cls superMetaclass interfaces
      else p.classAt id :=
  classAt_addClass_eq _ _ id

theorem Program.extends_makeMetaclass (p : Program) (cls : ClassId)
    (superMetaclass : Option ClassId) (interfaces : List ClassId) :
    p.Extends (p.makeMetaclass cls superMetaclass interfaces) :=
  (extends_intern p _).trans (extends_addClass _ _)

theorem Program.classAt_setInfo_of_ne {p : Program} {cls other : ClassId} (i : ClassInfo)
    (h : other ≠ cls) : (p.setInfo cls i).classAt other = p.classAt other := by
  rw [setInfo, classAt_modifyClass, if_neg fun h' => h h'.1]

theorem Program.classAt_setMetaclass_of_ne {p : Program} {metaclass other : ClassId}
    (cls : ClassId) (superMetaclass : Option ClassId) (h : other ≠ metaclass) :
    (p.setMetaclass metaclass cls superMetaclass).classAt other = p.classAt other := by
  rw [setMetaclass, classAt_modifyClass, if_neg fun h' => h h'.1]

theorem Program.scopes_of_declare {p q : Program} {scope : ScopeId} {name : Symbol}
    {entry : ScopeEntry} (h : p.declare scope name entry = .ok q) :
    ∃ scopes, q = { p with scopes } := by
  unfold declare at h
  split at h
  · cases h
  · cases h
    exact ⟨_, rfl⟩

open Compilation Program in
theorem Change.extends {deed : Deed} {c d : Compilation} (h : Change deed c d) :
    c.Extends d := by
  cases h with
  | say log => exact { Extends.refl c with }
  | refuse e log _ => exact extends_report c e log
  | abort corruption span log =>
    exact { extends_report c (.corrupted corruption span) log with aborted := fun _ => rfl }
  | intern text => exact extends_of_program (extends_intern _ text)
  | addScope parent => exact extends_of_program (.of_eq rfl rfl rfl)
  | declare scope name entry h =>
    obtain ⟨scopes, rfl⟩ := scopes_of_declare h
    exact extends_of_program (.of_eq rfl rfl rfl)
  | adopt text arity =>
    exact { Extends.refl c with
      selectors := fun s e h => Selector.Table.get?_intern_of_some h text arity }
  | rejectClass cls e log _ => exact (extends_charge c _).trans (extends_report _ e log)
  | rejectFunc func e log _ _ => exact (extends_charge c _).trans (extends_report _ e log)
  | mark cls hi _ =>
    refine extends_of_program (extends_modifyClass rfl (List.prefix_refl _) ?_ ?_)
    · intro i h
      rw [hi] at h
      cases h
    · intro i h
      rw [hi] at h
      cases h
  | @synthesize _ cls i j sm is hi _ _ _ hp =>
    refine extends_of_program ((extends_makeMetaclass ..).trans (extends_setPaired ?_ hp))
    rw [classAt_makeMetaclass, if_neg (Arena.ne_fresh (contains_of_info hi)), hi]
  | @linkForeign _ cls m i j sm hi ho _ _ hk _ hp =>
    have hm := hk.not_ordinary
    have hne : cls ≠ m := by
      rintro rfl
      exact hm ⟨i, hi, ho⟩
    refine extends_of_program ((extends_setMetaclass hm cls sm).trans (extends_setPaired ?_ hp))
    rw [classAt_setMetaclass_of_ne _ _ hne, hi]
  | relink hi _ _ _ hp => exact extends_of_program (extends_setPaired hi hp)
  | orphan _ _ _ _ => exact extends_of_program (extends_makeMetaclass ..)
  | halfLink _ hi _ hp => exact extends_of_program (extends_setPaired hi hp)
  | assign hs _ _ _ =>
    refine extends_of_program (extends_modifyFunc rfl fun i hi => ?_)
    rw [FuncDecl.selector, hi] at hs
    cases hs
  | confirm _ _ =>
    refine extends_of_program (extends_modifyFunc rfl fun i hi => ?_)
    exact ⟨_, congrArg (Option.map _) hi, rfl, rfl⟩
  | addParam _ _ _ =>
    refine extends_of_program (extends_modifyFunc ?_ fun i hi => ⟨i, hi, rfl, rfl⟩)
    simp [FuncDecl.source, FuncDecl.explicitParams]
  | record cls side overrides _ _ _ hi _ _ _ =>
    refine extends_of_program (Extends.trans (extends_modifyFunc rfl fun i hi => ?_)
      (extends_modifyClass rfl (List.prefix_refl _) (fun i hi ho => ?_) fun i hi hr => ?_))
    · exact ⟨_, congrArg (Option.map _) hi, rfl, rfl⟩
    · exact ⟨_, congrArg (Option.map _) hi, ho, rfl, rfl, rfl, fun _ h => h,
        List.prefix_append _ _⟩
    · exact ⟨_, congrArg (Option.map _) hi, hr⟩

theorem Trail.extends {permits : Compilation → Deed → Prop} {c d : Compilation}
    (h : Trail permits c d) : c.Extends d :=
  h.invariant (fun _ _ _ _ hstep hc => hc.trans hstep.extends) (.refl c)

/-- More may be permitted on the way than at the start, as long as the declarations of the start
tell so. -/
theorem Trail.mono {permits permits' : Compilation → Deed → Prop} {c d : Compilation}
    (h : Trail permits c d)
    (hp : ∀ e deed, c.Extends e → permits e deed → permits' e deed) : Trail permits' c d := by
  induction h with
  | refl => exact .refl _ c
  | tail h hstep ih =>
    obtain ⟨deed, hd, hchange⟩ := hstep
    exact ih.tail hchange (hp _ deed (Trail.extends h) hd)

end ObjcBinding
