import ObjcBinding.Proofs.Steps.Extension

/-!
# What adding the hidden parameter does

A function that needs the hidden parameter gets it at the end of its parameters, unless it has one.
The name of the parameter is reserved, so that nothing is interned for it, and in the scope it gets
the parameter for its meaning unless it has another one there.

* `FuncDecl.findIdx?_furnish`: the parameter is at the place where it was to be;
* `addSelectorParam_of_takes`, `addSelectorParam_of_not_takes`: what the step does, exactly.
-/

namespace ObjcBinding

open Program Resolve

variable {c : Compilation} {func : FuncId} {scope : ScopeId}

/-- The symbol of the hidden parameter. -/
def hiddenSymbol : Symbol := ⟨0⟩

theorem Interner.find?_hidden (t : Interner) : t.find? selectorParamName = some hiddenSymbol := by
  rw [find?_eq_some_iff, resolve, ← Array.getElem?_toList]
  exact List.prefix_iff_getElem?.1 t.reserved_le 0 (by decide)

theorem Program.intern_hidden (p : Program) : p.intern selectorParamName = (hiddenSymbol, p) := by
  rw [intern, Interner.intern_of_some p.names.find?_hidden]

/-! ## The function and the scope -/

/-- Where the function has its hidden parameter, or will have it. -/
def FuncDecl.hiddenIndex (d : FuncDecl) : Nat :=
  (d.params.findIdx? (·.isHidden)).getD d.params.length

/-- Whether the hidden parameter is given to the function when it is asked for. -/
def FuncDecl.takesHidden (d : FuncDecl) : Bool := d.info.any (·.needsSelectorParam) && !d.invalid

/-- The function with its hidden parameter. -/
def FuncDecl.furnish (d : FuncDecl) : FuncDecl :=
  match d.params.findIdx? (·.isHidden) with
  | some _ => d
  | none =>
    { d with
      params := d.params ++
        [{ name := hiddenSymbol, label := none, type := .selector, span := d.span
           implicit := true }] }

namespace FuncDecl

theorem findIdx?_furnish (d : FuncDecl) :
    d.furnish.params.findIdx? (·.isHidden) = some d.hiddenIndex := by
  unfold furnish hiddenIndex
  cases h : d.params.findIdx? (·.isHidden) with
  | some index => exact h
  | none =>
    dsimp only
    rw [List.findIdx?_append, h, Option.none_or, Option.getD_none]
    simp [Param.isHidden]

theorem any_furnish (d : FuncDecl) : d.furnish.params.any (·.isHidden) = true := by
  rw [← List.findIdx?_isSome, findIdx?_furnish]
  rfl

theorem furnish_of_any {d : FuncDecl} (h : d.params.any (·.isHidden) = true) : d.furnish = d := by
  rw [← List.findIdx?_isSome, Option.isSome_iff_exists] at h
  obtain ⟨index, h⟩ := h
  rw [furnish, h]

/-- There may have been several such parameters, but none is put beside them. -/
theorem countP_furnish (d : FuncDecl) :
    d.furnish.params.countP (·.isHidden) = max 1 (d.params.countP (·.isHidden)) := by
  by_cases h : d.params.any (·.isHidden) = true
  · have hpos : 0 < d.params.countP (·.isHidden) := List.countP_pos_iff.2 (List.any_eq_true.1 h)
    rw [furnish_of_any h]
    omega
  · have hnone : ∀ p ∈ d.params, p.isHidden = false := by simpa using h
    have hzero : d.params.countP (·.isHidden) = 0 :=
      List.countP_eq_zero.2 fun p hp => Bool.eq_false_iff.1 (hnone p hp)
    rw [furnish, List.findIdx?_eq_none_iff.2 hnone]
    dsimp only
    rw [List.countP_append, hzero]
    rfl

theorem source_furnish (d : FuncDecl) : d.furnish.source = d.source := by
  unfold furnish
  split
  · rfl
  · simp [source, explicitParams]

theorem info_furnish (d : FuncDecl) : d.furnish.info = d.info := by
  unfold furnish
  split <;> rfl

theorem invalid_furnish (d : FuncDecl) : d.furnish.invalid = d.invalid := by
  unfold furnish
  split <;> rfl

end FuncDecl

/-- The scope with a meaning for the name. -/
def Scope.adopt (s : Scope) (name : Symbol) (entry : ScopeEntry) : Scope :=
  match s.declare name entry with
  | .ok t => t
  | .error _ => s

theorem Scope.local?_adopt (s : Scope) (name : Symbol) (entry : ScopeEntry) :
    (s.adopt name entry).local? name = some ((s.local? name).getD entry) := by
  unfold adopt
  split
  · rename_i t ht
    have hnone : s.local? name = none := by
      unfold declare at ht
      split at ht
      · cases ht
      · assumption
    rw [local?_declare ht, if_pos rfl, hnone]
    rfl
  · rename_i existing he
    rw [declare_eq_error_iff.1 he]
    rfl

/-- The program in which the scope has a meaning for the name. -/
def Program.adopt (p : Program) (scope : ScopeId) (name : Symbol) (entry : ScopeEntry) : Program :=
  { p with scopes := p.scopes.modify scope (·.adopt name entry) }

theorem Program.adopt_of_declare {p q : Program} {name : Symbol} {entry : ScopeEntry}
    (h : p.declare scope name entry = .ok q) : p.adopt scope name entry = q := by
  unfold declare at h
  split at h
  · cases h
  · rename_i s hs
    cases h
    have hadopt : (p.scopes.get scope).adopt name entry = s := by
      change (p.scopeAt scope).adopt name entry = s
      rw [Scope.adopt, hs]
    rw [adopt, Arena.modify_congr (g := fun _ => s) hadopt]

theorem Program.adopt_of_declare_error {p : Program} {name : Symbol} {entry existing : ScopeEntry}
    (h : p.declare scope name entry = .error existing) :
    (p.scopeAt scope).local? name = some existing ∧ p.adopt scope name entry = p := by
  unfold declare at h
  split at h
  · rename_i hs
    cases h
    have hadopt : (p.scopes.get scope).adopt name entry = p.scopes.get scope := by
      change (p.scopeAt scope).adopt name entry = p.scopeAt scope
      rw [Scope.adopt, hs]
    rw [adopt, Arena.modify_eq_self hadopt]
    exact ⟨Scope.declare_eq_error_iff.1 hs, rfl⟩
  · cases h

/-- The function has its hidden parameter, and the scope a meaning for its name. -/
def Program.furnish (p : Program) (func : FuncId) (scope : ScopeId) : Program :=
  (p.modifyFunc func (·.furnish)).adopt scope hiddenSymbol
    (.param func (p.funcAt func).hiddenIndex)

theorem Program.containsFunc_of_takes {p : Program} (h : (p.funcAt func).takesHidden = true) :
    p.funcs.contains func = true := by
  rw [FuncDecl.takesHidden, Bool.and_eq_true] at h
  obtain ⟨i, hi, -⟩ := (Option.any_eq_true _ _).1 h.1
  exact containsFunc_of_info hi

theorem Program.funcAt_furnish {p : Program} (hf : p.funcs.contains func = true)
    (scope : ScopeId) : (p.furnish func scope).funcAt func = (p.funcAt func).furnish := by
  change (p.modifyFunc func (·.furnish)).funcAt func = _
  rw [funcAt_modifyFunc, if_pos ⟨rfl, hf⟩]

/-- In the scope the name means the parameter, unless it has had a meaning there before. -/
theorem Program.local?_furnish {p : Program} (hs : p.scopes.contains scope = true)
    (func : FuncId) :
    ((p.furnish func scope).scopeAt scope).local? hiddenSymbol =
      some (((p.scopeAt scope).local? hiddenSymbol).getD
        (.param func (p.funcAt func).hiddenIndex)) := by
  have hadopt : (p.furnish func scope).scopeAt scope =
      (p.scopeAt scope).adopt hiddenSymbol (.param func (p.funcAt func).hiddenIndex) :=
    Arena.get_modify_self hs _
  rw [hadopt, Scope.local?_adopt]

/-! ## The step -/

namespace Resolve

theorem placeSelectorParam_apply (func : FuncId) (c : Compilation) :
    placeSelectorParam func hiddenSymbol c =
      .ok (c.program.funcAt func).hiddenIndex
        { c with program := c.program.modifyFunc func (·.furnish) } := by
  rw [placeSelectorParam, bind_apply, program_apply]
  dsimp only
  cases h : (c.program.funcAt func).params.findIdx? (·.isHidden) with
  | some index =>
    rw [modifyFunc_eq_self (by simp only [FuncDecl.furnish, h]), FuncDecl.hiddenIndex, h]
    rfl
  | none =>
    rw [FuncDecl.hiddenIndex, h]
    refine congrArg (fun p => EStateM.Result.ok _ { c with program := p }) ?_
    refine modifyFunc_congr ?_
    simp only [FuncDecl.furnish, h]

/-- Exactly a valid function that needs the hidden parameter gets it. Only if the scope has another
meaning for the name something is said about it. -/
theorem addSelectorParam_of_takes (h : (c.program.funcAt func).takesHidden = true)
    (scope : ScopeId) :
    ∃ log, addSelectorParam func scope c =
        .ok (some ⟨func, (c.program.funcAt func).hiddenIndex⟩)
          { c with program := c.program.furnish func scope, log } ∧
      ((c.program.scopeAt scope).local? hiddenSymbol = none → log = c.log) := by
  have hintern : modifyGetProgram (·.intern selectorParamName) c = .ok hiddenSymbol c := by
    change EStateM.Result.ok (c.program.intern selectorParamName).1
      { c with program := (c.program.intern selectorParamName).2 } = _
    rw [intern_hidden]
  rw [FuncDecl.takesHidden, Bool.and_eq_true, Bool.not_eq_true'] at h
  rw [addSelectorParam, bind_apply, program_apply]
  dsimp only
  rw [if_neg (by simp [h]), bind_apply, hintern]
  dsimp only
  rw [bind_apply, placeSelectorParam_apply]
  dsimp only
  rw [bind_apply, program_apply]
  dsimp only
  cases hd : (c.program.modifyFunc func (·.furnish)).declare scope hiddenSymbol
      (.param func (c.program.funcAt func).hiddenIndex) with
  | ok q =>
    rw [furnish, adopt_of_declare hd]
    exact ⟨c.log, rfl, fun _ => rfl⟩
  | error existing =>
    obtain ⟨hsome, hadopt⟩ := adopt_of_declare_error hd
    rw [furnish, hadopt]
    dsimp only
    split
    · refine ⟨_, rfl, fun hnone => ?_⟩
      cases hsome.symm.trans hnone
    · exact ⟨c.log, rfl, fun _ => rfl⟩

theorem addSelectorParam_of_not_takes (h : (c.program.funcAt func).takesHidden = false)
    (scope : ScopeId) : addSelectorParam func scope c = .ok none c := by
  rw [FuncDecl.takesHidden, Bool.and_eq_false_iff, Bool.not_eq_false'] at h
  rw [addSelectorParam, bind_apply, program_apply]
  dsimp only
  rw [if_pos]
  · rfl
  · rcases h with h | h <;> simp [h]

end Resolve

/-! ## The body of a method -/

/-- A scope for the body of a method is opened inside `scope`, and the method gets its hidden
parameter there. -/
def Program.openBody (p : Program) (func : FuncId) (scope : ScopeId) : Program :=
  let q := (p.addScope (some scope)).2
  if (p.funcAt func).takesHidden then q.furnish func (p.addScope (some scope)).1 else q

/-- From `p` to `q` one scope was opened inside `scope`, and nothing else was done. -/
structure Program.OneScopeMore (scope : ScopeId) (p q : Program) : Prop where
  names : q.names = p.names
  classes : q.classes = p.classes
  funcs : q.funcs = p.funcs
  groups : q.groups = p.groups
  scopes : ∃ entries, q.scopes = (p.scopes.alloc { parent := some scope, entries }).2

theorem Program.funcAt_openBody (p : Program) (func : FuncId) (scope : ScopeId) :
    (p.openBody func scope).funcAt func = (p.funcAt func).furnish ∨
      (p.funcAt func).takesHidden = false ∧
        (p.openBody func scope).funcAt func = p.funcAt func := by
  unfold openBody
  dsimp only
  split
  · rename_i ht
    exact .inl (funcAt_furnish (p := (p.addScope (some scope)).2) (containsFunc_of_takes ht) _)
  · rename_i ht
    exact .inr ⟨Bool.eq_false_iff.2 ht, rfl⟩

theorem Program.openBody_of_furnished {p : Program}
    (h : (p.funcAt func).takesHidden = true → (p.funcAt func).furnish = p.funcAt func) :
    p.OneScopeMore scope (p.openBody func scope) := by
  unfold openBody
  dsimp only
  split
  · rename_i ht
    have hmodify : (p.addScope (some scope)).2.modifyFunc func (·.furnish) =
        (p.addScope (some scope)).2 := modifyFunc_eq_self (h ht)
    rw [furnish, hmodify]
    exact ⟨rfl, rfl, rfl, rfl, _, Arena.modify_alloc_self ..⟩
  · exact ⟨rfl, rfl, rfl, rfl, [], rfl⟩

theorem Resolve.addSelectorParam_fresh (func : FuncId) (scope : ScopeId) (c : Compilation) :
    ∃ a, addSelectorParam func (c.program.addScope (some scope)).1
        { c with program := (c.program.addScope (some scope)).2 } =
      .ok a { c with program := c.program.openBody func scope } := by
  unfold openBody
  dsimp only
  split
  · rename_i ht
    obtain ⟨log, hrun, hlog⟩ := addSelectorParam_of_takes
      (c := { c with program := (c.program.addScope (some scope)).2 }) ht
      (c.program.addScope (some scope)).1
    have hfresh : (c.program.addScope (some scope)).2.scopeAt (c.program.addScope (some scope)).1 =
        { parent := some scope } := Arena.get_of_get? (Arena.get?_alloc_self ..)
    rw [hlog (by rw [hfresh]; rfl)] at hrun
    exact ⟨_, hrun⟩
  · rename_i ht
    exact ⟨none, addSelectorParam_of_not_takes
      (c := { c with program := (c.program.addScope (some scope)).2 }) (Bool.eq_false_iff.2 ht) _⟩

end ObjcBinding
