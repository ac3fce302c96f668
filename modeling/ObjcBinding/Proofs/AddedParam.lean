import ObjcBinding.Proofs.Courses
import ObjcBinding.Proofs.Stability
import ObjcBinding.Proofs.Steps.HiddenParam

/-!
# The parameter that is added

A function is asked for its hidden parameter again and again: whenever it is bound, each time in a
scope of its own, and whenever someone asks. The parameter is put behind all others, and nothing
else is ever put there. So its place can be told from the function as it was declared, and stays the
same for as long as the session goes on.

* `Run.funcs_pairwise`: at all times functions are as they were before, but for that parameter;
* `Run.declared`: every function was declared by an addition, and is as it was declared then;
* `FuncDecl.Stable.hiddenIndex_eq`: the place of the parameter is the same before and after;
* `selectorParam_once`: what a function has got, and what it answers when it is asked for it.
-/

namespace ObjcBinding

open Program Resolve

variable {c d k : Compilation} {deed : Deed} {func : FuncId} {scope : ScopeId}

/-! ## Functions over time -/

theorem FuncDecl.Stable.refl (d : FuncDecl) : d.Stable d :=
  ⟨rfl, .inl rfl, id, fun i hi => ⟨i, hi, rfl, rfl⟩⟩

theorem Arena.Keeps.of_eq {a b : Arena .funcDecl FuncDecl} (h : b = a) :
    a.Keeps FuncDecl.Stable b := by
  intro f hf
  rw [h]
  exact ⟨hf, .refl _⟩

theorem Change.funcs_size (h : Change deed c d) :
    d.program.funcs.size = c.program.funcs.size := by
  cases h with
  | declare scope name entry h =>
    obtain ⟨scopes, rfl⟩ := scopes_of_declare h
    rfl
  | rejectFunc | assign | confirm | addParam | record => exact Arena.size_modify ..
  | _ => rfl

namespace Course

/-- Whatever is done, functions are added to only by what adds declarations. -/
theorem funcs_size (h : Course c d) : d.program.funcs.size = c.program.funcs.size := by
  refine h.invariant (I := fun d => d.program.funcs.size = c.program.funcs.size) ?_ rfl
  intro d e hstir hd
  cases hstir with
  | change hchange => exact hchange.funcs_size.trans hd
  | spare hspares => rw [hspares.1.1, hd]

theorem funcs_keeps (h : Course c d) :
    c.program.funcs.Keeps FuncDecl.Stable d.program.funcs := by
  refine h.invariant (I := fun d => c.program.funcs.Keeps FuncDecl.Stable d.program.funcs) ?_
    (.of_eq rfl)
  intro d e hstir hd
  refine hd.trans (fun _ _ _ => FuncDecl.Stable.trans) ?_
  cases hstir with
  | change hchange => exact hchange.stable.funcs
  | spare hspares => exact .of_eq hspares.1.1

end Course

namespace Growth

/-- An addition adds one function or none. -/
theorem funcs_apply (g : Growth) (p : Program) :
    (g.apply p).funcs = match g.func? p with
      | some d => (p.funcs.alloc d).2
      | none => p.funcs := by
  cases g with
  | declare scope name entry =>
    obtain ⟨scopes, hp⟩ := apply_declare p scope name entry
    rw [hp]
    rfl
  | _ => rfl

theorem funcs_keeps (g : Growth) (p : Program) :
    p.funcs.Keeps FuncDecl.Stable (g.apply p).funcs := by
  rw [g.funcs_apply]
  cases g.func? p with
  | none => exact .of_eq rfl
  | some d =>
    intro f hf
    refine ⟨(Arena.contains_alloc ..).2 (.inr hf), ?_⟩
    rw [Arena.get_alloc, if_neg (Arena.ne_fresh hf)]
    exact .refl _

end Growth

theorem Event.funcs_keeps (hf : c.session.strategy = .functional) (e : Event) :
    c.program.funcs.Keeps FuncDecl.Stable (e.apply c).program.funcs := by
  cases e with
  | grow g => exact g.funcs_keeps c.program
  | run op => exact Course.funcs_keeps (outcome_finish.1 (op.proceeds hf))

/-- The function was added to a compilation, and this is its declaration. -/
def DeclaredAs (times : List Compilation) (func : FuncId) (d : FuncDecl) : Prop :=
  ∃ k ∈ times, ∃ g : Growth, g.func? k.program = some d ∧ func = ⟨k.program.funcs.size⟩ ∧
    { k with program := g.apply k.program } ∈ times

namespace Run

variable {Admits : Program → Event → Prop} {past : List Compilation}

theorem strategy (h : Run Admits past c) : c.session.strategy = .functional :=
  (h.courses (I := fun _ => True) (fun _ => trivial) (fun _ _ _ _ => trivial)
    fun _ _ _ _ => trivial).1

/-- At each time all functions are as at every time before. -/
theorem funcs_pairwise (h : Run Admits past c) :
    (c :: past).Pairwise fun later earlier =>
      earlier.program.funcs.Keeps FuncDecl.Stable later.program.funcs := by
  induction h with
  | start renders => exact List.pairwise_singleton ..
  | @step past c e h _ ih =>
    have hstep := e.funcs_keeps h.strategy
    refine List.pairwise_cons.2 ⟨fun k hk => ?_, ih⟩
    rcases List.mem_cons.1 hk with rfl | hk
    · exact hstep
    · exact ((List.pairwise_cons.1 ih).1 k hk).trans (fun _ _ _ => FuncDecl.Stable.trans) hstep

/-- Every function was declared at some time, and at all times it is as it was declared. -/
theorem declared (h : Run Admits past c) (hc : c.program.funcs.contains func = true) :
    ∃ d, DeclaredAs (c :: past) func d ∧ ∀ k ∈ c :: past,
      k.program.funcs.contains func = true → d.Stable (k.program.funcAt func) := by
  induction h with
  | start renders => cases hc
  | @step past c e h he ih =>
    have hstep := e.funcs_keeps h.strategy
    by_cases hold : c.program.funcs.contains func = true
    · obtain ⟨d, ⟨k, hk, g, hg, hfunc, hkg⟩, hd⟩ := ih hold
      refine ⟨d, ⟨k, List.mem_cons_of_mem _ hk, g, hg, hfunc, List.mem_cons_of_mem _ hkg⟩, ?_⟩
      refine List.forall_mem_cons.2 ⟨fun _ => ?_, hd⟩
      exact (hd c List.mem_cons_self hold).trans (hstep func hold).2
    · -- Only an addition can have brought the function.
      cases e with
      | run op =>
        have hsize := Course.funcs_size (outcome_finish.1 (op.proceeds h.strategy))
        refine absurd ?_ hold
        rw [Arena.contains, ← hsize]
        exact hc
      | grow g =>
        change (g.apply c.program).funcs.contains func = true at hc
        rw [g.funcs_apply] at hc
        cases hg : g.func? c.program with
        | none =>
          rw [hg] at hc
          exact absurd hc hold
        | some d =>
          rw [hg] at hc
          obtain rfl := ((Arena.contains_alloc ..).1 hc).resolve_right hold
          refine ⟨d, ⟨c, List.mem_cons_of_mem _ List.mem_cons_self, g, hg, rfl,
            List.mem_cons_self⟩, List.forall_mem_cons.2 ⟨fun _ => ?_, fun k hk hkc => ?_⟩⟩
          · change d.Stable ((g.apply c.program).funcs.get _)
            rw [g.funcs_apply, hg, Arena.get_alloc, if_pos rfl]
            exact .refl d
          · refine absurd ?_ hold
            rcases List.mem_cons.1 hk with rfl | hk
            · exact hkc
            · exact ((List.pairwise_cons.1 h.funcs_pairwise).1 k hk _ hkc).1

end Run

/-! ## The place of the parameter -/

namespace FuncDecl.Stable

variable {d e : FuncDecl}

theorem explicitParams_eq (h : d.Stable e) : e.explicitParams = d.explicitParams := by
  have hparams := congrArg FuncDecl.params h.source
  exact hparams

theorem params_le (h : d.Stable e) : d.params <+: e.params := by
  rcases h.params with he | ⟨hidden, -, -, he⟩
  · exact ⟨[], by rw [List.append_nil, he]⟩
  · exact ⟨[hidden], he.symm⟩

/-- The hidden parameter is, or will be, where it was to be from the beginning. -/
theorem hiddenIndex_eq (h : d.Stable e) : e.hiddenIndex = d.hiddenIndex := by
  unfold FuncDecl.hiddenIndex
  rcases h.params with he | ⟨hidden, hh, hnone, he⟩
  · rw [he]
  · have hd := List.findIdx?_eq_none_iff.2 hnone
    rw [he, List.findIdx?_append, hd, Option.none_or]
    simp [List.findIdx?_singleton, hh]

/-- A function has as many hidden parameters as it was declared with, but at least one after it was
furnished with it. -/
theorem countP_furnish (h : d.Stable e) :
    e.furnish.params.countP (·.isHidden) = max 1 (d.params.countP (·.isHidden)) := by
  rw [FuncDecl.countP_furnish]
  rcases h.params with he | ⟨hidden, hh, hnone, he⟩
  · rw [he]
  · have hzero : d.params.countP (·.isHidden) = 0 :=
      List.countP_eq_zero.2 fun p hp => Bool.eq_false_iff.1 (hnone p hp)
    rw [he, List.countP_append, hzero, List.countP_singleton, if_pos hh]
    rfl

end FuncDecl.Stable

/-- Only the reserved symbol stands for the name of the parameter. -/
theorem Program.eq_hiddenSymbol {p : Program} {name : Symbol}
    (h : p.names.resolve name = some selectorParamName) : name = hiddenSymbol :=
  Option.some.inj ((Interner.find?_eq_some_iff.2 h).symm.trans p.names.find?_hidden)

/-! ## Asking for the parameter -/

/-- A function that answers with a parameter needs it, and has got it. -/
theorem addSelectorParam_eq_some {ref : ParamRef}
    (h : Session.addSelectorParam func scope c = .ok (some ref) d) :
    c.program.funcs.contains func = true ∧ ref = ⟨func, (c.program.funcAt func).hiddenIndex⟩ ∧
      d.program = c.program.furnish func scope := by
  have hrun : addSelectorParam func scope c = .ok (some ref) d := by
    cases ha : c.session.aborted with
    | true => cases (guarded_of_aborted ha).symm.trans h
    | false =>
      cases hs : c.session.strategy with
      | functional => exact (guarded_of_functional ha hs).symm.trans h
      | inert => cases (guarded_of_inert ha hs).symm.trans h
  cases hn : (c.program.funcAt func).takesHidden with
  | true =>
    obtain ⟨log, hsome, -⟩ := addSelectorParam_of_takes hn scope
    cases hsome.symm.trans hrun
    exact ⟨containsFunc_of_takes hn, rfl, rfl⟩
  | false => cases (addSelectorParam_of_not_takes hn scope).symm.trans hrun

/-- Nothing is interned for the parameter, whatever comes of the question. -/
theorem names_addSelectorParam (func : FuncId) (scope : ScopeId) (c : Compilation) :
    (finish (Session.addSelectorParam func scope) c).program.names = c.program.names := by
  refine outcome_finish.1 (outcome_guarded_of (P := fun _ d => d.program.names = c.program.names)
    ?_ rfl rfl)
  cases hn : (c.program.funcAt func).takesHidden with
  | true =>
    obtain ⟨log, hsome, -⟩ := addSelectorParam_of_takes hn scope
    exact (outcome_of_ok hsome).2 rfl
  | false => exact (outcome_of_ok (addSelectorParam_of_not_takes hn scope)).2 rfl

/-- The function has the parameters that it was declared with, and perhaps a hidden one after them;
but that only if it was declared with none. -/
structure FuncDecl.Extends (d e : FuncDecl) : Prop where
  explicit : e.explicitParams = d.explicitParams
  params : e.params = d.params ∨ ∃ hidden : Param, hidden.isHidden = true ∧
    (∀ p ∈ d.params, p.isHidden = false) ∧ e.params = d.params ++ [hidden]

/-- What a function that was declared as `d` answers when it is asked for its hidden parameter. -/
structure Furnished (d : FuncDecl) (func : FuncId) (scope : ScopeId) (c : Compilation)
    (ref : ParamRef) (e : Compilation) : Prop where
  ref : ref = ⟨func, d.hiddenIndex⟩
  hidden : HiddenAt e func d.hiddenIndex
  count : (e.program.funcAt func).params.countP (·.isHidden) =
    max 1 (d.params.countP (·.isHidden))
  meaning (name : Symbol) : c.program.scopes.contains scope = true →
    e.program.names.resolve name = some "_cmd" →
    (e.program.scopeAt scope).local? name =
      some (((c.program.scopeAt scope).local? name).getD (.param func d.hiddenIndex))

theorem FuncDecl.Stable.furnished {d : FuncDecl} (h : d.Stable (c.program.funcAt func))
    {ref : ParamRef} {e : Compilation}
    (hrun : Session.addSelectorParam func scope c = .ok (some ref) e) :
    Furnished d func scope c ref e := by
  obtain ⟨hf, href, hp⟩ := addSelectorParam_eq_some hrun
  rw [h.hiddenIndex_eq] at href
  have hfunc : e.program.funcAt func = (c.program.funcAt func).furnish := by
    rw [hp, funcAt_furnish hf]
  refine ⟨href, ?_, ?_, fun name hs hname => ?_⟩
  · have hfind := (c.program.funcAt func).findIdx?_furnish
    obtain ⟨hlt, hhidden, -⟩ := List.findIdx?_eq_some_iff_getElem.1 hfind
    unfold HiddenAt
    rw [hfunc, ← h.hiddenIndex_eq]
    exact ⟨_, List.getElem?_eq_getElem hlt, hhidden⟩
  · rw [hfunc, h.countP_furnish]
  · rw [eq_hiddenSymbol hname, hp, local?_furnish hs, h.hiddenIndex_eq]

/-- Every function was declared by an addition to some compilation. From then on, at all times and
also in the middle of an operation, its parameters are those of its declaration, and perhaps a
hidden one after them. Whenever it answers with its hidden parameter, it names the same place; the
parameter is there, and in the scope it is what the name means that is given to it, unless the name
had a meaning there. For no such question a name is interned. -/
theorem selectorParam_once {Admits : Program → Event → Prop} {past : List Compilation}
    (h : Run Admits past c) (hc : c.program.funcs.contains func = true) :
    (∃ d, DeclaredAs (c :: past) func d ∧
      ∀ k ∈ c :: past, k.program.funcs.contains func = true → ∀ mid, Course k mid →
        d.Extends (mid.program.funcAt func) ∧
        (k.program.funcAt func).params <+: (mid.program.funcAt func).params ∧
        ∀ scope ref e, Session.addSelectorParam func scope mid = .ok (some ref) e →
          Furnished d func scope mid ref e) ∧
    ((c :: past).Pairwise fun later earlier => earlier.program.funcs.contains func = true →
      (earlier.program.funcAt func).params <+: (later.program.funcAt func).params) ∧
    ∀ mid scope,
      (finish (Session.addSelectorParam func scope) mid).program.names = mid.program.names := by
  obtain ⟨d, hdeclared, hd⟩ := h.declared hc
  refine ⟨⟨d, hdeclared, fun k hk hkc mid hmid => ?_⟩, h.funcs_pairwise.imp fun hkeeps hf => ?_,
    fun mid scope => names_addSelectorParam func scope mid⟩
  · have hstable := (hmid.funcs_keeps func hkc).2
    have hall := (hd k hk hkc).trans hstable
    exact ⟨⟨hall.explicitParams_eq, hall.params⟩, hstable.params_le, fun _ _ _ => hall.furnished⟩
  · exact (hkeeps func hf).2.params_le

/-- `draw` of `Foo` takes one argument and is bound twice; in one scope `_cmd` means a constant. -/
def takenNameEvents : List Event :=
  [.grow (.addScope none), .grow (.addScope (some ⟨0⟩)), .grow (.intern "Foo"),
    .grow (.intern "draw"), .grow (.declare ⟨1⟩ ⟨0⟩ (.constant "taken")),
    .grow (.addClass { name := ⟨5⟩, kind := .concrete, span := .point 0 1 1 }),
    .grow (.addMethod ⟨0⟩
      { name := ⟨6⟩, params := [⟨⟨6⟩, none, .named ⟨6⟩, .point 0 2 1, false⟩]
        span := .point 0 2 1, linkage := .objc }),
    .run (.markClass ⟨0⟩), .run (.bindMethod ⟨0⟩ ⟨0⟩ ⟨0⟩), .run (.bindMethod ⟨0⟩ ⟨0⟩ ⟨0⟩)]

/-- Asked for it a third time, `draw` still has its hidden parameter behind its argument, and `_cmd`
is still the constant. -/
theorem selectorParam_once_takenName :
    let c := (Event.play [] (.new .functional false) takenNameEvents).2
    Outcome (Session.addSelectorParam ⟨0⟩ ⟨1⟩) c
      (fun a e => a = some ⟨⟨0⟩, 1⟩ ∧ HiddenAt e ⟨0⟩ 1 ∧
        (e.program.scopeAt ⟨1⟩).local? ⟨0⟩ = some (.constant "taken"))
      fun _ _ => False := by
  intro c
  have hrun : Run (fun _ _ => True)
      (Event.play [] (.new .functional false) takenNameEvents).1 c :=
    (Run.start false).play (by decide +kernel)
  have hasked : Outcome (Session.addSelectorParam ⟨0⟩ ⟨1⟩) c
      (fun a e => a = some ⟨⟨0⟩, 1⟩ ∧ e.program.names.resolve ⟨0⟩ = some "_cmd")
      fun _ _ => False := by decide +kernel
  have hadded : c.program.funcs.contains ⟨0⟩ = true := by decide +kernel
  obtain ⟨⟨d, -, hall⟩, -⟩ := selectorParam_once hrun hadded
  obtain ⟨-, -, hanswers⟩ := hall c List.mem_cons_self hadded c .refl
  unfold Outcome at hasked ⊢
  cases hask : Session.addSelectorParam ⟨0⟩ ⟨1⟩ c with
  | error err e =>
    rw [hask] at hasked
    exact hasked
  | ok a e =>
    rw [hask] at hasked
    obtain ⟨rfl, hname⟩ := hasked
    obtain ⟨href, hhidden, -, hmeaning⟩ := hanswers ⟨1⟩ _ e hask
    have hindex : d.hiddenIndex = 1 := (congrArg ParamRef.index href).symm
    refine ⟨rfl, hindex ▸ hhidden, (hmeaning ⟨0⟩ (by decide +kernel) hname).trans ?_⟩
    have hbefore : (c.program.scopeAt ⟨1⟩).local? ⟨0⟩ = some (.constant "taken") := by
      decide +kernel
    rw [hbefore, Option.getD_some]

end ObjcBinding
