import ObjcBinding.Proofs.RejectedFunctions
import ObjcBinding.Proofs.Steps.HiddenParam
import ObjcBinding.Proofs.Steps.Members
import ObjcBinding.Proofs.Steps.Recording

/-!
# Binding a method again

Each step of binding a method asks first whether it has been done. A function keeps the selector it
has, an invalid one passes every check, a hidden parameter that is there is found, and so is the
entry of the function in the list of its class. So once a method was bound, or was rejected on the
way, nothing is left to be done for it. Only the refusal of a method of another class is repeated,
since it is charged to nobody.

* `Compilation.Prepared`: the steps before the last have nothing to do for the function;
* `bindMethod_of_prepared`: binding a prepared method opens a scope and records the method;
* `Program.Stands`, `Program.Refuses`: recording the method finds it recorded, or refuses it;
* `bindMethod_settles`: what the first time leads to;
* `bindMethod_again`: what the second time does.
-/

namespace ObjcBinding

open Program Resolve

variable {c d : Compilation} {func : FuncId} {cls : ClassId} {scope : ScopeId} {s : Selector}

/-! ## Prepared functions -/

namespace Compilation

/-- The function is invalid, or has no selector and is not to get one. -/
def Idle (c : Compilation) (func : FuncId) : Prop :=
  (c.program.funcAt func).invalid = true ∨
    (c.program.funcAt func).info = none ∧ (c.program.funcAt func).attrs = [] ∧
      ((c.program.funcAt func).linkage = .objc && c.program.isBoundMember func) = false

/-- The function has passed the checks with its selector, and it is noted how it is called. -/
structure Passed (c : Compilation) (func : FuncId) (s : Selector) : Prop extends
    c.Carries func s, Validated c func s where
  linkage : (c.program.funcAt func).linkage = .objc
  dispatch (i : FuncInfo) : (c.program.funcAt func).info = some i →
    i.dispatch = (c.program.funcAt func).linkage.dispatch

/-- The function needs no selector, or has one and has passed the checks with it. -/
def Checked (c : Compilation) (func : FuncId) : Prop := c.Idle func ∨ ∃ s, c.Passed func s

/-- Nothing is left to be done for the function before it is recorded. -/
structure Prepared (c : Compilation) (func : FuncId) : Prop where
  checked : c.Checked func
  furnished : (c.program.funcAt func).takesHidden = true →
    (c.program.funcAt func).params.any (·.isHidden) = true

/-- The function looks the same in both, apart from its hidden parameter and what it overrides. -/
structure Resembles (func : FuncId) (c d : Compilation) : Prop where
  source : (d.program.funcAt func).source = (c.program.funcAt func).source
  invalid : (d.program.funcAt func).invalid = (c.program.funcAt func).invalid
  info : (d.program.funcAt func).info.map (fun i => (i.selector, i.dispatch)) =
    (c.program.funcAt func).info.map fun i => (i.selector, i.dispatch)
  bound (cls : ClassId) : (d.program.classAt cls).isBound = (c.program.classAt cls).isBound
  selectors : d.session.selectors = c.session.selectors

namespace Resembles

theorem of_program (hp : d.program = c.program)
    (ht : d.session.selectors = c.session.selectors) : c.Resembles func d :=
  ⟨by rw [hp], by rw [hp], by rw [hp], fun _ => by rw [hp], ht⟩

variable (h : Resembles func c d)

include h

theorem linkage : (d.program.funcAt func).linkage = (c.program.funcAt func).linkage := by
  have hs := congrArg FuncDecl.linkage h.source
  exact hs

theorem isBoundMember : d.program.isBoundMember func = c.program.isBoundMember func := by
  have hp : (d.program.funcAt func).parent = (c.program.funcAt func).parent := by
    have hs := congrArg FuncDecl.parent h.source
    exact hs
  simp only [Program.isBoundMember, hp, h.bound]

theorem idle (hc : c.Idle func) : d.Idle func := by
  rcases hc with hv | ⟨hi, ha, hb⟩
  · exact .inl (h.invalid.trans hv)
  · have hattrs : (d.program.funcAt func).attrs = (c.program.funcAt func).attrs := by
      have hs := congrArg FuncDecl.attrs h.source
      exact hs
    refine .inr ⟨?_, hattrs.trans ha, by rw [h.linkage, h.isBoundMember, hb]⟩
    have hinfo := h.info
    rw [hi, Option.map_none, Option.map_eq_none_iff] at hinfo
    exact hinfo

theorem passed (hc : c.Passed func s) : d.Passed func s where
  selector := by
    have hs := congrArg (Option.map Prod.fst) h.info
    rw [Option.map_map, Option.map_map] at hs
    exact Eq.trans hs hc.selector
  valid := h.invalid.trans hc.valid
  template := by
    have hs := congrArg FuncDecl.isTemplate h.source
    exact Eq.trans hs hc.template
  bound := h.isBoundMember.trans hc.bound
  arity := by
    have hs := congrArg FuncDecl.explicitCount h.source
    rw [FuncDecl.explicitCount_source, FuncDecl.explicitCount_source] at hs
    rw [h.selectors, hs, hc.arity]
  linkage := h.linkage.trans hc.linkage
  dispatch i hi := by
    have hinfo := h.info
    rw [hi, Option.map_some, eq_comm, Option.map_eq_some_iff] at hinfo
    obtain ⟨j, hj, hij⟩ := hinfo
    rw [h.linkage, ← hc.dispatch j hj]
    exact (congrArg Prod.snd hij).symm

end Resembles

theorem Resembles.checked (h : Resembles func c d) (hc : c.Checked func) : d.Checked func :=
  hc.imp h.idle fun ⟨s, hs⟩ => ⟨s, h.passed hs⟩

namespace Checked

variable (h : c.Checked func)

include h

theorem assignSelector (scope : ScopeId) : ∃ a, assignSelector func scope c = .ok a c := by
  cases hs : (c.program.funcAt func).selector with
  | some s => exact ⟨some s, assignSelector_of_some hs scope⟩
  | none =>
    rcases h with hidle | ⟨s, hpassed⟩
    · refine ⟨none, ?_⟩
      rw [Resolve.assignSelector, bind_apply, program_apply]
      dsimp only
      rw [hs]
      rcases hidle with hv | ⟨-, ha, hb⟩
      · rw [if_pos hv]
        rfl
      · dsimp only
        split
        · rfl
        · rw [bind_apply, chooseSelector, bind_apply, program_apply]
          simp only [ha, hb, Bool.false_eq_true, if_false]
          rfl
    · cases hs.symm.trans hpassed.selector

theorem validateSelector : validateSelector func c = .ok () c := by
  rcases h with (hv | ⟨hi, -⟩) | ⟨s, hpassed⟩
  · exact validateSelector_of_invalid hv
  · exact (unchecked_of_unannotated default hi).1
  · exact outcome_eq_iff.1 (outcome_validateSelector hpassed.selector hpassed.valid (fun _ => rfl)
      fun _ _ hn => absurd hpassed.toValidated hn)

theorem checkLinkage : checkLinkage func c = .ok () c := by
  rcases h with (hv | ⟨hi, -⟩) | ⟨s, hpassed⟩
  · exact checkLinkage_of_invalid hv
  · exact (unchecked_of_unannotated default hi).2.1
  · -- It is noted already how the function is called.
    have hsame : c.program.modifyFunc func (fun d =>
        { d with info := d.info.map fun i => { i with dispatch := d.linkage.dispatch } }) =
        c.program := by
      obtain ⟨i, hi, -⟩ := Option.map_eq_some_iff.1 hpassed.selector
      refine modifyFunc_eq_self ?_
      rw [hi, Option.map_some, ← hpassed.dispatch i hi, ← hi]
    refine outcome_eq_iff.1 (outcome_checkLinkage hpassed.selector hpassed.valid (fun _ => ?_)
      fun _ _ hl => absurd hpassed.linkage hl)
    rw [hsame]

end Checked

end Compilation

/-- What a prepared function is given another time is only a scope for its body. -/
theorem bindMethod_of_prepared (ha : c.session.aborted = false)
    (hs : c.session.strategy = .functional) (h : c.Prepared func) (cls : ClassId)
    (scope : ScopeId) :
    ∃ p, c.program.OneScopeMore scope p ∧
      Session.bindMethod func cls scope c = recordMethod func cls { c with program := p } := by
  have hguarded {α : Type} (neutral : α) (x : Resolve α) (p : Program) :
      guarded neutral x { c with program := p } = x { c with program := p } :=
    guarded_of_functional ha hs
  refine ⟨c.program.openBody func scope, openBody_of_furnished fun ht => ?_, ?_⟩
  · exact FuncDecl.furnish_of_any (h.furnished ht)
  obtain ⟨a, hassign⟩ := h.checked.assignSelector scope
  obtain ⟨ref, hadd⟩ := addSelectorParam_fresh func scope c
  have h₁ : Session.assignSelector func scope c = .ok a c := (hguarded ..).trans hassign
  have h₂ : Session.validateSelector func c = .ok () c :=
    (hguarded ..).trans h.checked.validateSelector
  have h₃ : Session.checkLinkage func c = .ok () c := (hguarded ..).trans h.checked.checkLinkage
  have h₄ : modifyGetProgram (·.addScope (some scope)) c =
      .ok (c.program.addScope (some scope)).1
        { c with program := (c.program.addScope (some scope)).2 } := rfl
  have h₅ := (hguarded none (addSelectorParam func _) _).trans hadd
  rw [Session.bindMethod, bind_apply, h₁]
  dsimp only
  rw [bind_apply, h₂]
  dsimp only
  rw [bind_apply, h₃]
  dsimp only
  rw [bind_apply, h₄]
  dsimp only
  rw [bind_apply, Session.addSelectorParam, h₅]
  exact hguarded ..

/-! ## Recording -/

namespace Program

variable {p q : Program} {e : BindError}

/-- The list of `owner`, a valid class, is the place for the methods of `cls`. -/
structure Hosts (p : Program) (cls owner : ClassId) : Prop where
  listOwner : p.listOwner? cls = some owner
  valid : (p.classAt owner).invalid = false
  bound : (p.classAt owner).isBound = true

/-- If the function is to be recorded, then it has been recorded. -/
def Stands (p : Program) (func : FuncId) (cls : ClassId) : Prop :=
  ∀ s owner, (p.funcAt func).selector = some s → (p.funcAt func).invalid = false →
    p.Hosts cls owner → (p.funcAt func).parent = some owner ∧
      ∃ entry, (p.classAt owner).info.bind (·.findMethod s (p.funcAt func).isStatic) = some entry ∧
        entry.func = func

/-- The function is to be recorded, but it is no member of the class; `e` says so. -/
def Refuses (p : Program) (func : FuncId) (cls : ClassId) (e : BindError) : Prop :=
  ∃ s owner, (p.funcAt func).selector = some s ∧ (p.funcAt func).invalid = false ∧
    p.Hosts cls owner ∧ (p.funcAt func).parent ≠ some owner ∧
      e = .notMember (p.name (p.funcAt func).name) (p.name (p.classAt owner).name)
        (p.funcAt func).span

namespace OneScopeMore

variable (h : p.OneScopeMore scope q)

include h

theorem funcAt_eq : q.funcAt = p.funcAt := by
  funext f
  rw [funcAt, h.funcs, funcAt]

theorem classAt_eq : q.classAt = p.classAt := by
  funext cls
  rw [classAt, h.classes, classAt]

theorem name_eq : q.name = p.name := by
  funext k
  rw [name, h.names, name]

theorem hosts {owner : ClassId} : q.Hosts cls owner ↔ p.Hosts cls owner := by
  have hlist : q.listOwner? cls = p.listOwner? cls := by
    rw [listOwner?, listOwner?, h.classAt_eq]
  have hclass := congrFun h.classAt_eq owner
  constructor
  · rintro ⟨hl, hv, hb⟩
    exact ⟨hlist ▸ hl, hclass ▸ hv, hclass ▸ hb⟩
  · rintro ⟨hl, hv, hb⟩
    exact ⟨hlist.trans hl, hclass ▸ hv, hclass ▸ hb⟩

theorem stands (hp : p.Stands func cls) : q.Stands func cls := by
  unfold Stands
  rw [h.funcAt_eq, h.classAt_eq]
  intro s owner hs hv ho
  exact hp s owner hs hv (h.hosts.1 ho)

theorem refuses (hp : p.Refuses func cls e) : q.Refuses func cls e := by
  obtain ⟨s, owner, hs, hv, ho, hm, rfl⟩ := hp
  refine ⟨s, owner, ?_⟩
  rw [h.name_eq, h.funcAt_eq, h.classAt_eq]
  exact ⟨hs, hv, h.hosts.2 ho, hm, rfl⟩

end OneScopeMore

end Program

theorem Compilation.Resembles.of_oneScopeMore {p : Program} (h : c.program.OneScopeMore scope p) :
    c.Resembles func { c with program := p } where
  source := by rw [h.funcAt_eq]
  invalid := by rw [h.funcAt_eq]
  info := by rw [h.funcAt_eq]
  bound cls := by rw [h.classAt_eq]
  selectors := rfl

namespace Resolve

/-- Recording a method of another class changes nothing, and says so. -/
theorem recordMethod_of_refuses {e : BindError} (h : c.program.Refuses func cls e) :
    recordMethod func cls c =
      .error e ((c.say .debug .strategy s!"refused: {e.message}").report e) := by
  obtain ⟨s, owner, hs, hv, ho, hm, rfl⟩ := h
  rw [recordMethod, bind_apply, program_apply]
  dsimp only
  rw [bind_apply, record, bind_apply, program_apply]
  simp only [hs, ho.listOwner, hv, ho.valid, ho.bound, Bool.not_true, Bool.or_self,
    Bool.false_eq_true, if_false, ne_eq, hm, not_false_eq_true, if_true]
  rfl

/-- A function that passed the checks is passed over if no list is the place for it. -/
theorem recordMethod_of_not_hosts (h : c.Passed func s)
    (hn : ∀ owner, ¬ c.program.Hosts cls owner) : recordMethod func cls c = .ok () c := by
  rw [recordMethod, bind_apply, program_apply]
  dsimp only
  rw [bind_apply, record, bind_apply, program_apply]
  dsimp only
  rw [h.selector]
  cases hl : c.program.listOwner? cls with
  | none => rfl
  | some owner =>
    dsimp only
    rw [if_pos]
    · rfl
    · by_contra hne
      simp only [h.valid, Bool.false_or, Bool.or_eq_true, Bool.not_eq_true', not_or,
        Bool.not_eq_true, Bool.not_eq_false] at hne
      exact hn owner ⟨hl, hne.1, hne.2⟩

/-- Otherwise it is checked once more, in vain, and then looked for in the list. -/
theorem outcome_recordMethod {owner : ClassId} {P : Unit → Compilation → Prop}
    {E : BindError → Compilation → Prop} (h : c.Passed func s) (ho : c.program.Hosts cls owner)
    (hm : (c.program.funcAt func).parent = some owner)
    (hfound : ∀ entry, (c.program.classAt owner).info.bind
      (·.findMethod s (c.program.funcAt func).isStatic) = some entry →
        if entry.func = func then P () c
        else ∀ e : BindError, e.blame = .method →
          Outcome (reject (.funcDecl func) e : Resolve Bool) c (fun _ d => P () d) E)
    (hnew : (c.program.classAt owner).info.bind
      (·.findMethod s (c.program.funcAt func).isStatic) = none →
        Outcome (pushMethod func owner s (c.program.funcAt func).isStatic) c P E) :
    Outcome (recordMethod func cls) c P E := by
  have hchecked : c.Checked func := .inr ⟨s, h⟩
  refine outcome_bind.2 (outcome_program.2 (outcome_bind.2 (outcome_bind.2 (outcome_program.2 ?_))))
  simp only [h.selector, ho.listOwner, h.valid, ho.valid, ho.bound, Bool.not_true, Bool.or_self,
    Bool.false_eq_true, if_false, ne_eq, hm, not_true_eq_false]
  refine outcome_bind.2 ((outcome_of_ok hchecked.validateSelector).2 ?_)
  refine outcome_bind.2 ((outcome_of_ok hchecked.checkLinkage).2 ?_)
  refine outcome_bind.2 (outcome_program.2 ?_)
  split
  · rename_i entry hentry
    have hcase := hfound entry hentry
    split
    · rename_i he
      rw [if_pos he] at hcase
      exact hcase
    · rename_i he
      rw [if_neg he] at hcase
      exact outcome_bind.2 (outcome_selectors.2 (hcase _ rfl))
  · rename_i hnone
    exact outcome_bind.2 (hnew hnone)

theorem recordMethod_of_stands (h : c.Checked func) (hs : c.program.Stands func cls) :
    recordMethod func cls c = .ok () c := by
  rcases h with (hv | ⟨hi, -⟩) | ⟨s, hpassed⟩
  · exact recordMethod_of_invalid hv cls
  · exact (unchecked_of_unannotated cls hi).2.2
  by_cases hn : ∀ owner, ¬ c.program.Hosts cls owner
  · exact recordMethod_of_not_hosts hpassed hn
  · simp only [not_forall, not_not] at hn
    obtain ⟨owner, ho⟩ := hn
    obtain ⟨hm, entry, hentry, hfunc⟩ := hs s owner hpassed.selector hpassed.valid ho
    refine outcome_eq_iff.1 (outcome_recordMethod hpassed ho hm (fun other hother => ?_)
      fun hnone => ?_)
    · cases hentry.symm.trans hother
      rw [if_pos hfunc]
    · cases hentry.symm.trans hnone

end Resolve

/-! ## The first time -/

/-- The error was charged to the function, which is invalid now. -/
structure Compilation.Spurns (d : Compilation) (func : FuncId) (e : BindError) : Prop where
  blame : e.blame = .method
  invalid : (d.program.funcAt func).invalid = true

/-- What the choice of a selector for the function means: the function is one of the compilation, or
it needs no selector. -/
def Compilation.Choice (c : Compilation) (func : FuncId) : Option Selector → Prop
  | some _ => c.program.funcs.contains func = true
  | none => (c.program.funcAt func).attrs = [] ∧
    ((c.program.funcAt func).linkage = .objc && c.program.isBoundMember func) = false

namespace Resolve

theorem outcome_spurns {α : Type} {e : BindError} {P : α → Compilation → Prop}
    {E : BindError → Compilation → Prop} (hc : c.program.funcs.contains func = true)
    (he : e.blame = .method) (hE : ∀ d, d.Spurns func e → E e d) :
    Outcome (reject (.funcDecl func) e : Resolve α) c P E := by
  refine outcome_reject.2 (hE _ ⟨he, ?_⟩)
  change ((c.program.modifyFunc func _).funcAt func).invalid = true
  rw [funcAt_modifyFunc, if_pos ⟨rfl, hc⟩]

/-- A valid function gets no selector only if it needs none. -/
theorem chooseSelector_settles (scope : ScopeId) :
    Outcome (chooseSelector func scope) c
      (fun a d => d.program = c.program ∧ c.Choice func a) fun e d => d.Spurns func e := by
  have hlookup (text : String) (span : Span) :
      Outcome (lookupSelector text span) c (fun _ d => d.program = c.program)
        fun e d => d = c ∧ e.blame = .method :=
    outcome_mono (lookupSelector_outcome (fun _ _ _ => True) text span c) (fun _ _ h => h.2.1)
      fun _ _ h => ⟨h.1, h.2.1⟩
  have hsome {x : Resolve Selector} (hc : c.program.funcs.contains func = true)
      (hx : Outcome x c (fun _ d => d.program = c.program) fun e d => d = c ∧ e.blame = .method) :
      Outcome (some <$> rejecting func x) c
        (fun a d => d.program = c.program ∧ c.Choice func a) fun e d => d.Spurns func e := by
    refine outcome_map.2 (outcome_tryCatch.2 (outcome_mono hx (fun _ _ h => ⟨h, hc⟩) ?_))
    rintro e d ⟨rfl, he⟩
    exact outcome_spurns hc he fun _ h => h
  refine outcome_bind.2 (outcome_program.2 ?_)
  dsimp only
  split
  · rename_i hattrs
    split
    · rename_i hb
      rw [Bool.and_eq_true, decide_eq_true_iff] at hb
      exact hsome (containsFunc_of_objc hb.1) (outcome_bind.2 (outcome_program.2 (hlookup ..)))
    · rename_i hb
      exact ⟨rfl, hattrs, Bool.eq_false_iff.2 hb⟩
  · rename_i attr hattrs
    have hmem : attr ∈ (c.program.funcAt func).attrs := by
      rw [hattrs]
      exact List.mem_cons_self
    have hc := containsFunc_of_attr hmem
    split
    · exact hsome hc (hlookup ..)
    · rename_i e he
      exact outcome_spurns hc (attrText_blame he).1 fun _ h => h
  · rename_i first second rest hattrs
    have hmem : first ∈ (c.program.funcAt func).attrs := by
      rw [hattrs]
      exact List.mem_cons_self
    exact outcome_spurns (containsFunc_of_attr hmem) rfl fun _ h => h

theorem assignSelector_settles (func : FuncId) (scope : ScopeId) (c : Compilation) :
    Outcome (assignSelector func scope) c (fun _ d => d.Idle func ∨ ∃ s, d.Carries func s)
      fun e d => d.Spurns func e := by
  refine outcome_bind.2 (outcome_program.2 ?_)
  dsimp only
  split
  · rename_i s hs
    cases hv : (c.program.funcAt func).invalid with
    | true => exact .inl (.inl hv)
    | false => exact .inr ⟨s, hs, hv⟩
  · rename_i hs
    split
    · rename_i hv
      exact .inl (.inl hv)
    · rename_i hv
      rw [Bool.not_eq_true] at hv
      refine outcome_bind.2 (outcome_mono (chooseSelector_settles scope) ?_ fun _ _ h => h)
      rintro a ⟨program, session, log⟩ ⟨hp, ha⟩
      obtain rfl : program = c.program := hp
      split
      · exact .inl (.inr ⟨Option.map_eq_none_iff.1 hs, ha⟩)
      · rename_i s
        refine outcome_bind.2 (outcome_updateProgram.2 (outcome_bind.2 (outcome_selectors.2
          (outcome_bind.2 (outcome_say.2 (.inr ⟨s, ?_, ?_⟩))))))
        · change ((c.program.modifyFunc func _).funcAt func).selector = some s
          rw [funcAt_modifyFunc, if_pos ⟨rfl, ha⟩]
          rfl
        · refine (read_modifyFunc FuncDecl.invalid (fun _ => ?_) func func).trans hv
          rfl

theorem validateSelector_settles (h : c.Carries func s) :
    Outcome (validateSelector func) c (fun _ d => d = c ∧ Validated c func s)
      fun e d => d.Spurns func e :=
  outcome_validateSelector h.selector h.valid (fun hv => ⟨rfl, hv⟩) fun _ he _ =>
    outcome_spurns (containsFunc_of_selector h.selector) he fun _ hd => hd

theorem checkLinkage_settles (h : c.Carries func s) (hv : Validated c func s) :
    Outcome (checkLinkage func) c (fun _ d => d.Passed func s) fun e d => d.Spurns func e := by
  have hc := containsFunc_of_selector h.selector
  refine outcome_checkLinkage h.selector h.valid (fun hl => ?_) fun _ he _ =>
    outcome_spurns hc he fun _ hd => hd
  obtain ⟨i, hi, rfl⟩ := Option.map_eq_some_iff.1 h.selector
  have hfunc : (c.program.modifyFunc func fun d =>
      { d with info := d.info.map fun i => { i with dispatch := d.linkage.dispatch } }).funcAt
        func = { c.program.funcAt func with
          info := some { i with dispatch := (c.program.funcAt func).linkage.dispatch } } := by
    rw [funcAt_modifyFunc, if_pos ⟨rfl, hc⟩, hi]
    rfl
  exact
    { selector := by rw [hfunc]; rfl
      valid := by rw [hfunc]; exact h.valid
      template := by rw [hfunc]; exact hv.template
      bound := by rw [isBoundMember, hfunc]; exact hv.bound
      arity := by rw [hfunc]; exact hv.arity
      linkage := by rw [hfunc]; exact hl
      dispatch := fun j hj => by
        rw [hfunc] at hj ⊢
        cases hj
        rfl }

/-- With a scope for its body the function gets its hidden parameter, and is prepared. -/
theorem prepared_openBody (h : c.Checked func) (scope : ScopeId) :
    Compilation.Prepared { c with program := c.program.openBody func scope } func := by
  have hclasses : (c.program.openBody func scope).classes = c.program.classes := by
    unfold openBody
    dsimp only
    split <;> rfl
  have hbound (cls : ClassId) :
      ((c.program.openBody func scope).classAt cls).isBound = (c.program.classAt cls).isBound := by
    rw [classAt, hclasses, classAt]
  rcases c.program.funcAt_openBody func scope with hf | ⟨ht, hf⟩
  · have hd : c.Resembles func { c with program := c.program.openBody func scope } :=
      { source := by rw [hf, FuncDecl.source_furnish]
        invalid := by rw [hf, FuncDecl.invalid_furnish]
        info := by rw [hf, FuncDecl.info_furnish]
        bound := hbound
        selectors := rfl }
    refine ⟨hd.checked h, fun _ => ?_⟩
    rw [hf]
    exact FuncDecl.any_furnish _
  · have hd : c.Resembles func { c with program := c.program.openBody func scope } :=
      { source := by rw [hf]
        invalid := by rw [hf]
        info := by rw [hf]
        bound := hbound
        selectors := rfl }
    refine ⟨hd.checked h, fun ht' => ?_⟩
    rw [hf, ht] at ht'
    cases ht'

/-- All that a function notes when it joins a list is what it overrides there. -/
theorem pushMethod_notes (owner : ClassId) (side : Bool) :
    Outcome (pushMethod func owner s side) c
      (fun _ d => ∃ overrides, d.program.funcs = (c.program.modifyFunc func fun f =>
        { f with info := f.info.map fun i => { i with overrides } }).funcs)
      fun _ _ => False := by
  refine outcome_bind.2 (outcome_program.2 (outcome_bind.2 (outcome_updateProgram.2 (outcome_bind.2
    (outcome_updateProgram.2 (outcome_bind.2 (outcome_selectors.2 (outcome_say.2 ?_))))))))
  exact ⟨_, rfl⟩

/-- A prepared function that joins the list is still prepared, and will be found there. -/
theorem pushMethod_settles {owner : ClassId} (h : c.Prepared func) (hs : c.Passed func s)
    (ho : c.program.Hosts cls owner) (hm : (c.program.funcAt func).parent = some owner)
    (hnew : (c.program.classAt owner).info.bind
      (·.findMethod s (c.program.funcAt func).isStatic) = none) :
    Outcome (pushMethod func owner s (c.program.funcAt func).isStatic) c
      (fun _ d => d.Prepared func ∧ d.program.Stands func cls) fun _ _ => False := by
  refine outcome_mono (outcome_and (pushMethod_notes owner (c.program.funcAt func).isStatic)
    (pushMethod_enlists ho.bound hs.selector)) ?_
    fun _ _ h => h.1
  rintro _ d ⟨⟨overrides, hfuncs⟩, henlists, -⟩
  have hread {α : Type} (read : FuncDecl → α)
      (hkeep : ∀ f : FuncDecl,
        read { f with info := f.info.map fun i => { i with overrides } } = read f) :
      read (d.program.funcAt func) = read (c.program.funcAt func) := by
    rw [funcAt, hfuncs]
    exact read_modifyFunc read hkeep func func
  have hresembles : c.Resembles func d := by
    refine ⟨henlists.source func, ?_, ?_, fun x => ?_, henlists.selectors⟩
    · exact hread (·.invalid) fun _ => rfl
    · refine hread (fun f => f.info.map fun i => (i.selector, i.dispatch)) fun f => ?_
      cases f.info <;> rfl
    · rw [isBound_eq, henlists.pairing, ← isBound_eq]
  refine ⟨⟨hresembles.checked h.checked, fun ht => ?_⟩, ?_⟩
  · have hparams := hread (·.params) fun _ => rfl
    have htakes := hread (·.takesHidden) fun f => by
      unfold FuncDecl.takesHidden
      cases f.info <;> rfl
    rw [hparams]
    exact h.furnished (htakes ▸ ht)
  · intro s' owner' hs' _ ho'
    obtain rfl : s = s' :=
      Option.some.inj ((hresembles.passed hs).selector.symm.trans hs')
    obtain rfl : owner = owner' := by
      refine Option.some.inj (ho.listOwner.symm.trans ?_)
      rw [← henlists.listOwner_eq, ho'.listOwner]
    have hparent := congrArg FuncDecl.parent hresembles.source
    refine ⟨Eq.trans hparent hm, ⟨s, func, (c.program.funcAt func).isStatic⟩, ?_, rfl⟩
    rw [henlists.isStatic, findMethod_eq, Program.side, henlists.entries, entriesOf, if_pos rfl,
      List.filter_append, List.find?_append]
    rw [findMethod_eq, Program.side] at hnew
    rw [hnew]
    simp

/-- A prepared function is recorded, refused or rejected once and for all. -/
theorem recordMethod_settles (h : c.Prepared func) (cls : ClassId) :
    Outcome (recordMethod func cls) c (fun _ d => d.Prepared func ∧ d.program.Stands func cls)
      fun e d => d.Spurns func e ∨ d.Prepared func ∧ d.program.Refuses func cls e := by
  by_cases hstands : c.program.Stands func cls
  · exact (outcome_of_ok (recordMethod_of_stands h.checked hstands)).2 ⟨h, hstands⟩
  simp only [Stands, not_forall] at hstands
  obtain ⟨s, owner, hs, hv, ho, hstands⟩ := hstands
  have hpassed : c.Passed func s := by
    rcases h.checked with (hinvalid | ⟨hi, -⟩) | ⟨s', hpassed⟩
    · cases hinvalid.symm.trans hv
    · rw [FuncDecl.selector, hi] at hs
      cases hs
    · cases hpassed.selector.symm.trans hs
      exact hpassed
  by_cases hm : (c.program.funcAt func).parent = some owner
  · refine outcome_recordMethod hpassed ho hm (fun entry hentry => ?_) fun hnew => ?_
    · rw [if_neg fun he => hstands ⟨hm, entry, hentry, he⟩]
      exact fun e he => outcome_spurns (containsFunc_of_selector hs) he fun _ hd => .inl hd
    · exact outcome_mono (pushMethod_settles h hpassed ho hm hnew) (fun _ _ h => h)
        fun _ _ => False.elim
  · have hrefuses : c.program.Refuses func cls (.notMember
        (c.program.name (c.program.funcAt func).name)
        (c.program.name (c.program.classAt owner).name) (c.program.funcAt func).span) :=
      ⟨s, owner, hs, hv, ho, hm, rfl⟩
    refine (outcome_of_error (recordMethod_of_refuses hrefuses)).2 (.inr ⟨?_, hrefuses⟩)
    exact ⟨Compilation.Resembles.checked (c := c) (.of_program rfl rfl) h.checked, h.furnished⟩

/-- A step of a functional session that goes on, and the steps after it. -/
theorem outcome_guarded_bind {α β : Type} {x : Resolve α} {f : α → Resolve β}
    {Q : α → Compilation → Prop} {P : β → Compilation → Prop}
    {E : BindError → Compilation → Prop} (neutral : α) (ha : c.session.aborted = false)
    (hs : c.session.strategy = .functional) (haccounts : Accounts .methods x c)
    (hx : Outcome x c Q E)
    (hf : ∀ a d, d.session.aborted = false → d.session.strategy = .functional → Q a d →
      Outcome (f a) d P E) :
    Outcome (guarded neutral x >>= f) c P E := by
  refine outcome_bind.2 ((outcome_guarded _ ha hs).2 (outcome_mono (outcome_and haccounts hx) ?_
    fun _ _ h => h.2))
  rintro a d ⟨⟨-, hquiet⟩, hd⟩
  exact hf a d (hquiet.aborted.trans ha) (hquiet.strategy.trans hs) hd

/-- Binding a method prepares and records it, rejects it, or prepares and does not record it. -/
theorem bindMethod_settles (ha : c.session.aborted = false)
    (hs : c.session.strategy = .functional) (func : FuncId) (cls : ClassId) (scope : ScopeId) :
    Outcome (Session.bindMethod func cls scope) c
      (fun _ d => d.Prepared func ∧ d.program.Stands func cls)
      fun e d => d.Spurns func e ∨ d.Prepared func ∧ d.program.Refuses func cls e := by
  -- The last steps, for a function that has been checked.
  have hrest (d : Compilation) (ha : d.session.aborted = false)
      (hs : d.session.strategy = .functional) (hd : d.Checked func) :
      Outcome (do
          let body ← Resolve.modifyGetProgram (·.addScope (some scope))
          let _ ← Session.addSelectorParam func body
          Session.recordMethod func cls) d
        (fun _ d => d.Prepared func ∧ d.program.Stands func cls)
        fun e d => d.Spurns func e ∨ d.Prepared func ∧ d.program.Refuses func cls e := by
    obtain ⟨ref, hadd⟩ := addSelectorParam_fresh func scope d
    refine outcome_bind.2 (outcome_modifyGetProgram.2 (outcome_bind.2 ?_))
    refine (outcome_guarded (c := { d with program := (d.program.addScope (some scope)).2 }) _
      ha hs).2 ((outcome_of_ok hadd).2 ?_)
    exact (outcome_guarded (c := { d with program := d.program.openBody func scope }) _ ha hs).2
      (recordMethod_settles (prepared_openBody hd scope) cls)
  refine outcome_guarded_bind _ ha hs (assignSelector_accounts func scope c)
    (outcome_mono (assignSelector_settles func scope c) (fun _ _ h => h) fun _ _ => .inl) ?_
  rintro - d ha hs (hidle | ⟨s, hcarries⟩)
  · have hd : d.Checked func := .inl hidle
    refine outcome_bind.2 ((outcome_guarded _ ha hs).2 ((outcome_of_ok hd.validateSelector).2 ?_))
    refine outcome_bind.2 ((outcome_guarded _ ha hs).2 ((outcome_of_ok hd.checkLinkage).2 ?_))
    exact hrest d ha hs hd
  · refine outcome_guarded_bind _ ha hs (validateSelector_accounts func d)
      (outcome_mono (validateSelector_settles hcarries) (fun _ _ h => h) fun _ _ => .inl) ?_
    rintro - d ha hs ⟨rfl, hvalidated⟩
    refine outcome_guarded_bind _ ha hs (checkLinkage_accounts func d)
      (outcome_mono (checkLinkage_settles hcarries hvalidated) (fun _ _ h => h)
        fun _ _ => .inl) ?_
    exact fun _ d ha hs hpassed => hrest d ha hs (.inr ⟨s, hpassed⟩)

end Resolve

/-! ## The second time -/

/-- Binding the method opens a scope for its body. It changes nothing else, ends well and says
nothing. -/
def Compilation.BindsIdly (c : Compilation) (func : FuncId) (cls : ClassId) (scope : ScopeId) :
    Prop :=
  ∃ p, c.program.OneScopeMore scope p ∧
    Session.bindMethod func cls scope c = .ok () { c with program := p }

theorem Compilation.Prepared.bindsIdly (h : c.Prepared func) (ha : c.session.aborted = false)
    (hs : c.session.strategy = .functional) (hstands : c.program.Stands func cls)
    (scope : ScopeId) : c.BindsIdly func cls scope := by
  obtain ⟨p, hp, hbind⟩ := bindMethod_of_prepared ha hs h cls scope
  have hchecked := (Resembles.of_oneScopeMore hp).checked h.checked
  exact ⟨p, hp, hbind.trans (recordMethod_of_stands hchecked (hp.stands hstands))⟩

/-- A rejected function is prepared for good, and is not to be recorded. -/
theorem Compilation.Spurns.bindsIdly {e : BindError} (h : d.Spurns func e)
    (ha : d.session.aborted = false) (hs : d.session.strategy = .functional) (cls : ClassId)
    (scope : ScopeId) : d.BindsIdly func cls scope := by
  have hprepared : d.Prepared func := by
    refine ⟨.inl (.inl h.invalid), fun ht => ?_⟩
    rw [FuncDecl.takesHidden, h.invalid, Bool.not_true, Bool.and_false] at ht
    cases ht
  refine hprepared.bindsIdly ha hs (fun s owner _ hv => ?_) scope
  cases hv.symm.trans h.invalid

/-- Once a method was bound, binding it again to the same class and in the same scope opens a scope
and does nothing else; and so it is if the method was rejected. If it belongs to another class, it
is refused again, and apart from the scope and the report nothing changes. -/
theorem bindMethod_again (ha : c.session.aborted = false)
    (hs : c.session.strategy = .functional) (func : FuncId) (cls : ClassId) (scope : ScopeId) :
    Outcome (Session.bindMethod func cls scope) c (fun _ d => d.BindsIdly func cls scope)
      fun e d => match e with
        | .notMember .. => ∃ p, d.program.OneScopeMore scope p ∧
          Session.bindMethod func cls scope d = .error e
            ((({ d with program := p }).say .debug .strategy s!"refused: {e.message}").report e)
        | _ => d.BindsIdly func cls scope := by
  refine outcome_mono (outcome_and (Session.bindMethod_accounts func cls scope ha)
    (bindMethod_settles ha hs func cls scope)) ?_ ?_
  · rintro _ d ⟨⟨-, hquiet⟩, hprepared, hstands⟩
    exact hprepared.bindsIdly (hquiet.aborted.trans ha) (hquiet.strategy.trans hs) hstands scope
  · rintro e d ⟨⟨haborted, hreported⟩, hd⟩
    replace ha : d.session.aborted = false := Eq.trans haborted ha
    replace hs := hreported.strategy.trans hs
    rcases hd with hspurns | ⟨hprepared, hrefuses⟩
    · have hidly := hspurns.bindsIdly ha hs cls scope
      have hblame := hspurns.blame
      cases e with
      | notMember => cases hblame
      | _ => exact hidly
    · obtain ⟨p, hp, hbind⟩ := bindMethod_of_prepared ha hs hprepared cls scope
      have hrefused := hbind.trans (recordMethod_of_refuses (c := { d with program := p })
        (hp.refuses hrefuses))
      obtain ⟨s, owner, -, -, -, -, rfl⟩ := hrefuses
      exact ⟨p, hp, hrefused⟩

/-- `Foo` has two methods `draw`, and `Bar` has one. -/
def sharedDrawEvents : List Event :=
  let draw : FuncDecl :=
    { name := ⟨6⟩, params := [], span := .point 0 2 1, linkage := .objc }
  [.grow (.addScope none), .grow (.intern "Foo"), .grow (.intern "draw"), .grow (.intern "Bar"),
    .grow (.addClass { name := ⟨5⟩, kind := .concrete, span := .point 0 1 1 }),
    .grow (.addClass { name := ⟨7⟩, kind := .concrete, span := .point 0 1 1 }),
    .grow (.addMethod ⟨0⟩ draw), .grow (.addMethod ⟨0⟩ draw), .grow (.addMethod ⟨1⟩ draw),
    .run (.markClass ⟨0⟩), .run (.markClass ⟨1⟩), .run (.bindMethod ⟨0⟩ ⟨0⟩ ⟨0⟩)]

/-- The first `draw` is bound, the second one is rejected, and that of `Bar` is refused. -/
theorem bindMethod_again_draw :
    let c := (Event.play [] (.new .functional false) sharedDrawEvents).2
    let bind (func : FuncId) := Session.bindMethod func ⟨0⟩ ⟨0⟩
    Outcome (bind ⟨0⟩) c (fun _ d => d.BindsIdly ⟨0⟩ ⟨0⟩ ⟨0⟩) (fun _ _ => False) ∧
      Outcome (bind ⟨1⟩) c (fun _ _ => False)
        (fun e d => e.code = "O0009" ∧ d.BindsIdly ⟨1⟩ ⟨0⟩ ⟨0⟩) ∧
      Outcome (bind ⟨2⟩) c (fun _ _ => False) fun e d =>
        e.code = "O0013" ∧ Outcome (bind ⟨2⟩) d (fun _ _ => False) fun e' _ => e' = e := by
  intro c bind
  have hagain := bindMethod_again (c := c) (by decide +kernel) (by decide +kernel)
  have hbound : Outcome (bind ⟨0⟩) c (fun _ _ => True) fun _ _ => False := by decide +kernel
  have hrejected : Outcome (bind ⟨1⟩) c (fun _ _ => False) fun e _ => e.code = "O0009" := by
    decide +kernel
  have hrefused : Outcome (bind ⟨2⟩) c (fun _ _ => False) fun e _ => e.code = "O0013" := by
    decide +kernel
  refine ⟨?_, ?_, ?_⟩
  · exact outcome_mono (outcome_and hbound (hagain ⟨0⟩ ⟨0⟩ ⟨0⟩)) (fun _ _ h => h.2) fun _ _ h => h.1
  · refine outcome_mono (outcome_and hrejected (hagain ⟨1⟩ ⟨0⟩ ⟨0⟩)) (fun _ _ h => h.1) ?_
    rintro e d ⟨hcode, hd⟩
    cases e with
    | selectorCollision => exact ⟨hcode, hd⟩
    | _ => simp [BindError.code] at hcode
  · refine outcome_mono (outcome_and hrefused (hagain ⟨2⟩ ⟨0⟩ ⟨0⟩)) (fun _ _ h => h.1) ?_
    rintro e d ⟨hcode, hd⟩
    cases e with
    | notMember =>
      obtain ⟨p, -, hrun⟩ := hd
      exact ⟨hcode, (outcome_of_error hrun).2 rfl⟩
    | _ => simp [BindError.code] at hcode

end ObjcBinding
