import ObjcBinding.Binding.Emission
import ObjcBinding.Proofs.Source

/-!
# Binding a whole source

The classes of a source are bound one after the other, in any order in which no error is
reported. Binding one class may make metaclasses of classes above it, but it fills no list and
binds no class but its own.

* `Follows.phases`: what holds of everything that follows from a source, whether or not errors
  are reported;
* `Bound.of_classBound`, `Bound.of_phases`: what has been bound, and that it stays so;
* `emission_complete`: if nothing is reported, exactly the classes that were bound and that are
  not foreign are emitted, each with its metaclass, its superclass and all of its methods.
-/

namespace ObjcBinding

open Program Resolve

variable {c d e : Compilation} {cls x : ClassId} {marks : ClassId → Prop}
  {lists : FuncId → ClassId → Bool → Prop}

/-! ## What follows from a source -/

/-- `d` has come from the source `c` by binding. -/
structure Follows (c d : Compilation) : Prop where
  extension : c.Extends d
  layered : d.program.Layered
  owned : d.program.ListsOwned
  reported : d.session.aborted = true → d.session.sink.items ≠ []
  made : ∀ x, d.program.classes.contains x = true →
    c.program.classes.contains x = true ∨ (d.program.classAt x).isBound = true
  members : ∀ x, (d.program.classAt x).members = (c.program.classAt x).members
  classValid : d.Clean → ∀ x, (d.program.classAt x).invalid = false
  funcValid : d.Clean → ∀ f, (d.program.funcAt f).invalid = false

namespace Follows

theorem refl (h : c.program.Source) (hc : c.Clean) : Follows c c where
  extension := .refl c
  layered := .of_unbound fun x => (h.classes x).info
  owned := .of_unbound fun x => (h.classes x).info
  reported := fun ha => by rw [hc.running] at ha; cases ha
  made := fun _ => .inl
  members := fun _ => rfl
  classValid := fun _ x => (h.classes x).valid
  funcValid := fun _ f => (h.funcs f).valid

theorem change {deed : Deed} (h : Follows c d) (hstep : Change deed d e) : Follows c e where
  extension := h.extension.trans hstep.extends
  layered := hstep.layered h.layered
  owned := hstep.listsOwned h.owned
  reported := hstep.reported h.reported
  made := by
    intro x hx
    rcases hstep.contains_cases hx with hx | hx
    · exact (h.made x hx).imp_right hstep.extends.program.isBound
    · obtain ⟨cls, hmade⟩ := hx
      exact .inr (isBound_of_hasRole (hasRole_iff.2 ⟨_, hmade.pairing⟩))
  members := fun x => (hstep.members_eq x).trans (h.members x)
  classValid := fun he x => hstep.classValid he (h.classValid (hstep.extends.clean he) x)
  funcValid := fun he f => hstep.funcValid he (h.funcValid (hstep.extends.clean he) f)

theorem phases (h : Follows c d) (hstep : Phases marks lists d e) : Follows c e :=
  hstep.invariant (fun _ _ _ hstep hd => hd.change hstep) h

theorem clean (h : Follows c d) (hs : d.session.sink.items = []) : d.Clean where
  sink := hs
  running := Bool.eq_false_iff.2 fun ha => h.reported ha hs

theorem className_eq (h : Follows c d) (hs : c.program.Source)
    (hx : c.program.classes.contains x = true) : d.program.className x = c.program.className x := by
  obtain ⟨t, ht⟩ := hs.named x hx
  rw [className, className, name, name, h.extension.program.name hx, ht,
    h.extension.program.names _ t ht]

end Follows

/-! ## Binding one class -/

theorem Phases.entries_eq (h : Phases marks lists c d) (hc : c.program.ListsOwned)
    (hx : ∀ func side, ¬ lists func x side) : d.program.entries x = c.program.entries x := by
  obtain ⟨mid, hb, hl⟩ := h
  rw [hl.entries_eq (hb.listsOwned hc) fun _ => hx, hb.entries_eq hc fun _ _ _ hp => hp]

/-- What binding the class `x` of the source `c` has come to if nothing was reported. -/
structure Bound (c : Compilation) (x : ClassId) (d : Compilation) : Prop where
  contains : c.program.classes.contains x = true
  base : ∀ b, (c.program.classAt x).base = some b → d.program.HasRole b .ordinary
  paired : ∃ m, d.program.pairing x = some (.ordinary, some m) ∧
    d.program.classes.contains m = true ∧ ((c.program.classAt x).foreign = false →
      d.program.names.resolve (d.program.classAt m).name =
        some (metaclassSymbol (c.program.className x)))
  listed : d.program.listed x = (c.program.classAt x).members.flatMap c.program.listing

/-- What has been bound stays so while other classes are bound. -/
theorem Bound.of_phases (h : Bound c x d) (hd : d.program.ListsOwned)
    (hstep : Phases marks lists d e) (hx : ∀ func side, ¬ lists func x side) : Bound c x e where
  contains := h.contains
  base := fun b hb => hstep.extends.program.hasRole (h.base b hb)
  paired := by
    obtain ⟨m, hm, hc, hname⟩ := h.paired
    have hext := hstep.extends.program
    refine ⟨m, hext.pairing_eq hm, hext.containsClass m hc, fun hf => ?_⟩
    rw [hext.name hc]
    exact hext.names _ _ (hname hf)
  listed := by
    rw [Program.listed, hstep.entries_eq hd hx]
    exact h.listed

/-- A class that was bound without a report is bound as the source says. -/
theorem Bound.of_classBound (hs : c.program.Source) (hd : Follows c d)
    (hstep : Phases marks lists d e) (he : e.Clean) (h : ClassBound cls d e) : Bound c cls e := by
  have hext := hd.extension.program
  have hclean := hstep.extends.clean he
  have hc : c.program.classes.contains cls = true := by
    rcases hd.made cls h.contains with hc | hb
    · exact hc
    · rw [ClassDecl.isBound, h.fresh] at hb
      cases hb
  obtain ⟨t, ht⟩ := hs.named cls hc
  refine ⟨hc, fun b hb => ?_, ?_, ?_⟩
  · obtain ⟨hbase, -⟩ := hierarchyFault?_eq_none_iff.1 h.fits
    rw [← hext.base hc] at hb
    exact hstep.extends.program.hasRole (hasRole_of_isBoundBase (hbase b hb))
  · obtain ⟨m, hm, hcm, hname⟩ := h.paired
    refine ⟨m, hm, hcm, fun hf => ?_⟩
    rw [className, name, ht, Option.getD_some]
    refine hname ((hext.foreign hc).trans hf) t ?_
    rw [hext.name hc]
    exact hext.names _ t ht
  · have hlisted := h.listed he hd.owned (hd.classValid hclean cls)
    rw [hd.members] at hlisted
    rw [hlisted ?_ (hs.nodup cls)]
    · exact List.flatMap_congr fun f hf => hext.listing_eq (hs.containsFunc_of_mem hf)
    · intro f hf
      exact ⟨(hext.parent (hs.containsFunc_of_mem hf)).trans (hs.parent cls f hf),
        hd.funcValid hclean f⟩

/-! ## Binding all classes -/

/-- Binds classes one after the other, each in its scope, until one fails. -/
def Session.bindClasses : List (ClassId × ScopeId) → Resolve Unit
  | [] => return ()
  | (cls, scope) :: rest => do
    bindClass cls scope
    bindClasses rest

/-- The classes in `done` are those of the source `c` that have been bound. -/
structure Progress (c : Compilation) (done : List ClassId) (d : Compilation) : Prop where
  follows : Follows c d
  ordinary : ∀ x, d.program.HasRole x .ordinary → x ∈ done
  bound : d.Clean → ∀ x ∈ done, Bound c x d

theorem Progress.bindClass {done : List ClassId} (hs : c.program.Source)
    (hf : c.session.strategy = .functional) (h : Progress c done d) (cls : ClassId)
    (scope : ScopeId) :
    Outcome (Session.bindClass cls scope) d (fun _ e => Progress c (done ++ [cls]) e)
      fun _ _ => True := by
  have hout := bindClass_outcome cls scope (h.follows.extension.strategy.trans hf)
    h.follows.layered
  refine outcome_mono hout ?_ fun _ _ _ => trivial
  rintro _ e ⟨hstep, hbound⟩
  refine ⟨h.follows.phases hstep, fun x hx => ?_, fun he x hx => ?_⟩
  · rw [List.mem_append, List.mem_singleton]
    exact (hstep.ordinary hx).imp_left (h.ordinary x)
  · by_cases hne : x = cls
    · rw [hne]
      exact .of_classBound hs h.follows hstep he hbound
    · have hx' : x ∈ done := by
        rw [List.mem_append, List.mem_singleton] at hx
        exact hx.resolve_right hne
      exact (h.bound (hstep.extends.clean he) x hx').of_phases h.follows.owned hstep
        fun _ _ hlists => hne hlists.1

theorem Progress.bindClasses {done : List ClassId} (hs : c.program.Source)
    (hf : c.session.strategy = .functional) (h : Progress c done d)
    (calls : List (ClassId × ScopeId)) :
    Outcome (Session.bindClasses calls) d
      (fun _ e => Progress c (done ++ calls.map Prod.fst) e) fun _ _ => True := by
  induction calls generalizing d done with
  | nil =>
    refine outcome_pure.2 ?_
    rwa [List.map_nil, List.append_nil]
  | cons call rest ih =>
    refine outcome_bind.2 (outcome_mono (h.bindClass hs hf call.1 call.2) ?_ fun _ _ h => h)
    intro _ e he
    have hrest := ih he
    rwa [List.append_assoc] at hrest

/-! ## The emission -/

/-- The members of a class on one side that are called by messages. -/
def Program.messaged (p : Program) (cls : ClassId) (isClassMethod : Bool) : List FuncId :=
  (p.classAt cls).members.filter fun f =>
    (p.funcAt f).linkage = .objc && (p.funcAt f).isStatic == isClassMethod

/-- The record of a class says what is written in the source. -/
structure ClassRecord.Describes (r : ClassRecord) (p : Program) : Prop where
  name : r.name = p.className r.cls
  metaclass : r.metaclassSymbol = some ("OBJC_METACLASS_$_" ++ p.className r.cls)
  superclass : r.superclass = (p.classAt r.cls).base.map p.className
  instanceMethods : r.instanceMethods.map (·.func) = p.messaged r.cls false
  classMethods : r.classMethods.map (·.func) = p.messaged r.cls true
  once : ((r.instanceMethods ++ r.classMethods).map (·.func)).Nodup

/-- Of the classes in `bound` exactly those that are not foreign are emitted, in order. -/
structure Emission.Covers (e : Emission) (p : Program) (bound : List ClassId) : Prop where
  sorted : e.classes.Pairwise fun r r' => r.cls.index < r'.cls.index
  mem_iff : ∀ x, x ∈ e.classes.map (·.cls) ↔ x ∈ bound ∧ (p.classAt x).foreign = false
  base : ∀ r ∈ e.classes, ∀ b, (p.classAt r.cls).base = some b →
    (p.classAt b).foreign = true ∨ b ∈ e.classes.map (·.cls)
  describes : ∀ r ∈ e.classes, r.Describes p

theorem Program.filter_listing (p : Program) (side : Bool) (funcs : List FuncId) :
    ((funcs.flatMap p.listing).filter fun q => q.2 == side).map Prod.fst =
      funcs.filter fun f => (p.funcAt f).linkage = .objc && (p.funcAt f).isStatic == side := by
  induction funcs with
  | nil => rfl
  | cons f rest ih =>
    rw [List.flatMap_cons, List.filter_append, List.map_append, ih, List.filter_cons, listing]
    by_cases hl : (p.funcAt f).linkage = .objc
    · cases hs : (p.funcAt f).isStatic == side <;> simp [hl, hs]
    · simp [hl]

theorem Emission.map_methodRecords {p : Program} {t : Selector.Table} {i : ClassInfo}
    (hi : (p.classAt x).info = some i) (hv : ∀ f, (p.funcAt f).invalid = false) (side : Bool) :
    (methodRecords p t i side).map (·.func) =
      ((p.listed x).filter fun q => q.2 == side).map Prod.fst := by
  have hfilter : (i.side side).filter (fun e => !(p.funcAt e.func).invalid) = i.side side := by
    refine List.filter_eq_self.2 fun e _ => ?_
    rw [hv, Bool.not_false]
  rw [methodRecords, hfilter, List.map_map, listed, entries_of_info hi, List.filter_map,
    List.map_map]
  rfl

theorem Program.nodup_messaged {p : Program} (h : (p.classAt x).members.Nodup) :
    (p.messaged x false ++ p.messaged x true).Nodup := by
  rw [List.nodup_append]
  refine ⟨h.filter _, h.filter _, fun f hf f' hf' heq => ?_⟩
  subst heq
  have hi := List.of_mem_filter hf
  have hc := List.of_mem_filter hf'
  simp only [Bool.and_eq_true, beq_iff_eq] at hi hc
  cases hi.2.symm.trans hc.2

namespace Bound

theorem describes (h : Bound c x d) (hs : c.program.Source) (hd : Follows c d) (hclean : d.Clean)
    (hf : (c.program.classAt x).foreign = false) {i : ClassInfo}
    (hi : (d.program.classAt x).info = some i) (ho : i.role = .ordinary) :
    (Emission.classRecord d.program d.session.selectors x i).Describes c.program := by
  have hmethods (side : Bool) :
      (Emission.methodRecords d.program d.session.selectors i side).map (·.func) =
        c.program.messaged x side := by
    rw [Emission.map_methodRecords hi (hd.funcValid hclean), h.listed, filter_listing]
    rfl
  refine ⟨hd.className_eq hs h.contains, ?_, ?_, hmethods false, hmethods true, ?_⟩
  · obtain ⟨m, hm, -, hname⟩ := h.paired
    obtain ⟨j, hj, -, hp⟩ := info_of_pairing hm
    rw [hi] at hj
    cases hj
    change i.paired.map d.program.className = _
    rw [hp, Option.map_some, className, name, hname hf]
    rfl
  · change i.superclass.map d.program.className = (c.program.classAt x).base.map _
    rw [hd.layered.superclasses x i hi ho, hd.extension.program.base h.contains]
    cases hb : (c.program.classAt x).base with
    | none => rfl
    | some b =>
      rw [Option.map_some, Option.map_some, hd.className_eq hs (hs.base x b hb)]
  · rw [List.map_append]
    change (List.map _ (Emission.methodRecords _ _ i false) ++
      List.map _ (Emission.methodRecords _ _ i true)).Nodup
    rw [hmethods, hmethods]
    exact nodup_messaged (hs.nodup x)

end Bound

theorem Progress.mem_collect {bound : List ClassId} (h : Progress c bound d)
    (hs : c.program.Source) (hclean : d.Clean) {i : ClassInfo} :
    Emission.recorded? (d.program.classAt x) = some i ↔
      (x ∈ bound ∧ (c.program.classAt x).foreign = false) ∧
        (d.program.classAt x).info = some i ∧ i.role = .ordinary := by
  rw [Emission.recorded?_eq_some_iff]
  constructor
  · rintro ⟨-, hf, -, hi, ho⟩
    have hx := h.ordinary x ⟨i, hi, ho⟩
    have hc := (h.bound hclean x hx).contains
    rw [h.follows.extension.program.foreign hc] at hf
    exact ⟨⟨hx, hf⟩, hi, ho⟩
  · rintro ⟨⟨hx, hf⟩, hi, ho⟩
    have hc := (h.bound hclean x hx).contains
    have hsource := congrArg ClassDecl.synthesized (h.follows.extension.program.classSource x hc)
    refine ⟨h.follows.classValid hclean x, (h.follows.extension.program.foreign hc).trans hf, ?_,
      hi, ho⟩
    exact hsource.trans (hs.classes x).written

theorem Progress.covers {bound : List ClassId} (h : Progress c bound d) (hs : c.program.Source)
    (hclean : d.Clean) :
    (Emission.collect d.program d.session.selectors).Covers c.program bound := by
  have hmem (x : ClassId) :
      x ∈ (Emission.collect d.program d.session.selectors).classes.map (·.cls) ↔
        x ∈ bound ∧ (c.program.classAt x).foreign = false := by
    rw [List.mem_map]
    constructor
    · rintro ⟨r, hr, rfl⟩
      obtain ⟨x, i, -, hrec, rfl⟩ := Emission.mem_collect_classes.1 hr
      exact ((h.mem_collect hs hclean).1 hrec).1
    · intro hx
      obtain ⟨m, hm, -, -⟩ := (h.bound hclean x hx.1).paired
      obtain ⟨i, hi, ho, -⟩ := info_of_pairing hm
      have hrec := (h.mem_collect hs hclean).2 ⟨hx, hi, ho⟩
      exact ⟨_, Emission.mem_collect_classes.2 ⟨x, i, contains_of_info hi, hrec, rfl⟩, rfl⟩
  refine ⟨Emission.collect_classes_pairwise _ _, hmem, fun r hr b hb => ?_, fun r hr => ?_⟩
  all_goals
    obtain ⟨x, i, -, hrec, rfl⟩ := Emission.mem_collect_classes.1 hr
    obtain ⟨⟨hx, hf⟩, hi, ho⟩ := (h.mem_collect hs hclean).1 hrec
    have hbound := h.bound hclean x hx
  · rw [hmem]
    have hxb := h.ordinary b (hbound.base b hb)
    cases hbf : (c.program.classAt b).foreign with
    | true => exact .inl rfl
    | false => exact .inr ⟨hxb, rfl⟩
  · exact hbound.describes hs h.follows hclean hf hi ho

/-- If classes of a source are bound one after the other and nothing is reported, then exactly
those that are not foreign are emitted, in the order of their declarations, each with its
metaclass, its superclass and all of its methods. -/
theorem emission_complete {past : List Compilation} (h : Run Event.Written past c)
    {calls : List (ClassId × ScopeId)} (hok : Session.bindClasses calls c = .ok () d)
    (hsink : d.session.sink.items = []) :
    ∃ e, d.emission = .ok e ∧ e.Covers c.program (calls.map Prod.fst) := by
  obtain ⟨hs, hc⟩ := h.source
  obtain ⟨hf, -⟩ := h.functional fun _ e he => by
    cases e with
    | grow g => exact Growth.Written.unbound he
    | run op => exact he.elim
  have hstart : Progress c [] c := by
    refine ⟨.refl hs hc, fun x hx => ?_, fun _ x hx => ?_⟩
    · obtain ⟨i, hi, -⟩ := hx
      rw [(hs.classes x).info] at hi
      cases hi
    · cases hx
  have hprogress : Progress c (calls.map Prod.fst) d :=
    (outcome_of_ok hok).1 (hstart.bindClasses hs hf calls)
  have hclean := hprogress.follows.clean hsink
  refine ⟨.collect d.program d.session.selectors, ?_, hprogress.covers hs hclean⟩
  rw [Compilation.emission, hclean.running, Compilation.asked,
    hprogress.follows.extension.strategy.trans hf]
  rfl

/-- `Shape` is the base of `Circle`, which has a method of its instances, one of its own, and a
member that is not called by messages. -/
def derivedEvents : List Event :=
  let method (name : Symbol) (linkage : Linkage) (isStatic : Bool) : FuncDecl :=
    { name, params := [], span := .point 0 1 1, linkage, isStatic }
  let shape (name : Symbol) (base : Option ClassId) : ClassDecl :=
    { name, kind := .concrete, span := .point 0 1 1, base }
  [.grow (.addScope none), .grow (.intern "Shape"), .grow (.intern "Circle"),
    .grow (.intern "draw"), .grow (.intern "make"), .grow (.addClass (shape ⟨5⟩ none)),
    .grow (.addClass (shape ⟨6⟩ (some ⟨0⟩))), .grow (.addMethod ⟨1⟩ (method ⟨7⟩ .objc false)),
    .grow (.addMethod ⟨1⟩ (method ⟨8⟩ .objc true)),
    .grow (.addMethod ⟨1⟩ (method ⟨8⟩ .native false))]

theorem emission_complete_derived :
    let c := (Event.play [] (.new .functional false) derivedEvents).2
    ∃ d, Session.bindClasses [(⟨0⟩, ⟨0⟩), (⟨1⟩, ⟨0⟩)] c = .ok () d ∧
      ∃ e, d.emission = .ok e ∧ e.Covers c.program [⟨0⟩, ⟨1⟩] := by
  intro c
  have hrun : Run Event.Written (Event.play [] (.new .functional false) derivedEvents).1 c :=
    (Run.start false).play (by decide +kernel)
  have hends : (match Session.bindClasses [(⟨0⟩, ⟨0⟩), (⟨1⟩, ⟨0⟩)] c with
    | .ok _ d => d.session.sink.items.isEmpty
    | .error _ _ => false) = true := by decide +kernel
  cases hok : Session.bindClasses [(⟨0⟩, ⟨0⟩), (⟨1⟩, ⟨0⟩)] c with
  | ok u d =>
    rw [hok] at hends
    exact ⟨d, rfl, emission_complete hrun hok (List.isEmpty_iff.1 hends)⟩
  | error e d =>
    rw [hok] at hends
    cases hends

end ObjcBinding
