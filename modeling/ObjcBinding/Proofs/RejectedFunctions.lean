import ObjcBinding.Proofs.AbortLatch
import ObjcBinding.Proofs.DeclaredSides

/-!
# Rejected functions

An error that is held against a function makes it invalid, and every step asks whether a function
is invalid before it looks for an error. So there is at most one such error for each function, and
from then on the function is left alone: its declaration stays as it is, it joins no list, and it
passes every check without a report.

* `Change.funcAt_of_invalid`: no change touches an invalid function;
* `Compilation.Charged`: the errors in the sink that are held against functions, and the functions;
* `rejected_once`: what a run tells of rejected functions, as long as the session goes on.
-/

namespace ObjcBinding

open Program Resolve

variable {deed : Deed} {c d k : Compilation} {func : FuncId}
  {charges : List (FuncId × BindError)}

/-! ## Errors of functions -/

/-- Whether the diagnostic has one of the codes of errors that are held against functions. -/
def Diagnostic.blamesFunction (r : Diagnostic) : Bool :=
  r.code.any (· ∈ ["O0001", "O0004", "O0005", "O0006", "O0009", "O0010", "O0011"])

theorem BindError.blamesFunction_diagnostic (e : BindError) :
    e.diagnostic.blamesFunction = decide (e.blame = .method) := by
  cases e <;> rfl

/-- A change reports nothing, or an error that it holds against a valid function, or an error that
is held against no function. -/
theorem Change.sink_cases (h : Change deed c d) :
    d.session.sink.items = c.session.sink.items ∨
    (∃ e : BindError, e.blame ≠ .method ∧
      d.session.sink.items = c.session.sink.items ++ [e.diagnostic]) ∨
    ∃ func e, deed = .rejectFunc func ∧ c.program.Blames func e ∧
      (c.program.funcAt func).invalid = false ∧
      d.session.sink.items = c.session.sink.items ++ [e.diagnostic] := by
  cases h with
  | refuse e log he =>
    exact .inr (.inl ⟨e, by rw [he]; nofun, Sink.items_report ..⟩)
  | rejectClass cls e log he =>
    exact .inr (.inl ⟨e, by rw [he]; nofun, Sink.items_report ..⟩)
  | abort corruption span log =>
    exact .inr (.inl ⟨.corrupted corruption span, nofun, Sink.items_report ..⟩)
  | rejectFunc func e log hb hv =>
    exact .inr (.inr ⟨func, e, rfl, hb, hv, Sink.items_report ..⟩)
  | _ => exact .inl rfl

/-! ## Invalid functions -/

/-- No change touches an invalid function. -/
theorem Change.funcAt_of_invalid (h : Change deed c d)
    (hv : (c.program.funcAt func).invalid = true) :
    d.program.funcAt func = c.program.funcAt func := by
  have hnot : ¬ (c.program.funcAt func).invalid = false := by
    rw [hv]
    exact Bool.noConfusion
  have hcases := h.funcAt_cases func
  generalize d.program.funcAt func = f at hcases
  cases hcases with
  | keep => rfl
  | reject hvalid => exact absurd hvalid hnot
  | assign _ hvalid => exact absurd hvalid hnot
  | confirm hvalid => exact absurd hvalid hnot
  | addParam _ hvalid => exact absurd hvalid hnot
  | record _ _ _ hvalid => exact absurd hvalid hnot

/-- A function becomes invalid by being rejected, and calls to it cannot be made any more. -/
theorem Change.rejected_of_new (h : Change deed c d)
    (hv : (c.program.funcAt func).invalid = false)
    (hd : (d.program.funcAt func).invalid = true) :
    deed = .rejectFunc func ∧ ∀ i, (d.program.funcAt func).info = some i →
      i.dispatch = .unsupported := by
  have hcases := h.funcAt_cases func
  generalize d.program.funcAt func = f at hcases hd ⊢
  cases hcases with
  | reject =>
    refine ⟨rfl, fun i hi => ?_⟩
    obtain ⟨j, -, rfl⟩ := Option.map_eq_some_iff.1 hi
    rfl
  | _ => cases hv.symm.trans hd

theorem Change.funcInvalid_eq (h : Change deed c d) (hne : deed ≠ .rejectFunc func) :
    (d.program.funcAt func).invalid = (c.program.funcAt func).invalid := by
  cases hv : (c.program.funcAt func).invalid with
  | true => rw [h.funcAt_of_invalid hv, hv]
  | false =>
    rw [← Bool.not_eq_true]
    exact fun hd => hne (h.rejected_of_new hv hd).1

/-! ## What is charged -/

/-- The errors that are held against functions, in the order of their report, and the functions:
those that are invalid, each named once. -/
structure Compilation.Charged (c : Compilation) (charges : List (FuncId × BindError)) :
    Prop where
  sink : c.session.sink.items.filter (·.blamesFunction) = charges.map (·.2.diagnostic)
  blames : ∀ x ∈ charges, c.program.Blames x.1 x.2
  nodup : (charges.map (·.1)).Nodup
  invalid (func : FuncId) : (c.program.funcAt func).invalid = true ↔ func ∈ charges.map (·.1)
  dispatch (func : FuncId) (i : FuncInfo) : (c.program.funcAt func).invalid = true →
    (c.program.funcAt func).info = some i → i.dispatch = .unsupported

theorem Program.Blames.of_extends {p q : Program} {e : BindError} (h : p.Blames func e)
    (hext : p.Extends q) : q.Blames func e := by
  have hsource := hext.funcSource func h.contains
  have hspan := congrArg FuncDecl.span hsource
  have hattrs := congrArg FuncDecl.attrs hsource
  change (q.funcAt func).span = (p.funcAt func).span at hspan
  change (q.funcAt func).attrs = (p.funcAt func).attrs at hattrs
  exact ⟨h.blame, hext.containsFunc func h.contains, by rw [hspan, hattrs]; exact h.place⟩

namespace Compilation.Charged

/-- Nothing is charged by a change that leaves the errors of functions and invalid functions. -/
theorem of_same (h : c.Charged charges) (hext : c.Extends d)
    (hsink : d.session.sink.items.filter (·.blamesFunction) =
      c.session.sink.items.filter (·.blamesFunction))
    (hinvalid : ∀ func, (d.program.funcAt func).invalid = (c.program.funcAt func).invalid)
    (hkeep : ∀ func, (c.program.funcAt func).invalid = true →
      d.program.funcAt func = c.program.funcAt func) : d.Charged charges where
  sink := hsink.trans h.sink
  blames x hx := (h.blames x hx).of_extends hext.program
  nodup := h.nodup
  invalid func := by rw [hinvalid, h.invalid]
  dispatch func i hv hi := by
    rw [hinvalid] at hv
    rw [hkeep func hv] at hi
    exact h.dispatch func i hv hi

/-- A function that is rejected is charged with the error. -/
theorem reject {e : BindError} (h : c.Charged charges) (hstep : Change (.rejectFunc func) c d)
    (hb : c.program.Blames func e) (hv : (c.program.funcAt func).invalid = false)
    (hsink : d.session.sink.items = c.session.sink.items ++ [e.diagnostic]) :
    d.Charged (charges ++ [(func, e)]) := by
  have hext := hstep.extends.program
  have hfunc : (d.program.funcAt func).invalid = true :=
    hstep.rejected (hext.containsFunc func hb.contains)
  have hother {f : FuncId} (hne : f ≠ func) :
      (d.program.funcAt f).invalid = (c.program.funcAt f).invalid :=
    hstep.funcInvalid_eq fun he => hne (Deed.rejectFunc.inj he).symm
  refine ⟨?_, fun x hx => ?_, ?_, fun f => ?_, fun f i hd hi => ?_⟩
  · have hblame : e.diagnostic.blamesFunction = true := by
      rw [e.blamesFunction_diagnostic, hb.blame, decide_eq_true rfl]
    rw [hsink, List.filter_append, h.sink, List.filter_singleton, hblame, List.map_append]
    rfl
  · rcases List.mem_append.1 hx with hx | hx
    · exact (h.blames x hx).of_extends hext
    · rw [List.mem_singleton] at hx
      rw [hx]
      exact hb.of_extends hext
  · have hnew : func ∉ charges.map (·.1) := by
      rw [← h.invalid, hv]
      exact Bool.noConfusion
    rw [List.map_append, List.nodup_append]
    refine ⟨h.nodup, List.nodup_singleton _, fun x hx y hy => ?_⟩
    obtain rfl := List.mem_singleton.1 hy
    rintro rfl
    exact hnew hx
  · rw [List.map_append, List.mem_append, ← h.invalid]
    by_cases hf : f = func
    · rw [hf]
      exact iff_of_true hfunc (.inr List.mem_cons_self)
    · rw [hother hf]
      exact ⟨.inl, fun hor => hor.resolve_right fun hm => hf (List.mem_singleton.1 hm)⟩
  · cases hc : (c.program.funcAt f).invalid with
    | true =>
      rw [hstep.funcAt_of_invalid hc] at hi
      exact h.dispatch f i hc hi
    | false => exact (hstep.rejected_of_new hc hd).2 i hi

theorem change (h : c.Charged charges) (hstep : Change deed c d) :
    ∃ more, d.Charged (charges ++ more) := by
  by_cases hr : ∃ func, deed = .rejectFunc func
  · obtain ⟨func, rfl⟩ := hr
    cases hstep with
    | rejectFunc _ e log hb hv =>
      exact ⟨[(func, e)], h.reject (.rejectFunc func e log hb hv) hb hv (Sink.items_report ..)⟩
  · refine ⟨[], ?_⟩
    rw [List.append_nil]
    refine h.of_same hstep.extends ?_ (fun func => ?_) fun func => hstep.funcAt_of_invalid
    · rcases hstep.sink_cases with hs | ⟨e, he, hs⟩ | ⟨func, e, he, -⟩
      · rw [hs]
      · rw [hs, List.filter_append, List.filter_singleton, e.blamesFunction_diagnostic,
          decide_eq_false he, cond_false, List.append_nil]
      · exact absurd ⟨func, he⟩ hr
    · exact hstep.funcInvalid_eq fun he => hr ⟨func, he⟩

end Compilation.Charged

/-! ## Additions -/

/-- A declaration that is added is not bound yet; if it is a function, it is also valid. -/
def Growth.Blameless : Growth → Prop
  | addClass d => d.info = none
  | addFunction d | addMethod _ d | addGroupMember _ d => d.info = none ∧ d.invalid = false
  | _ => True

instance : DecidablePred Growth.Blameless
  | .addClass d => inferInstanceAs (Decidable (d.info = none))
  | .addFunction d | .addMethod _ d | .addGroupMember _ d =>
    inferInstanceAs (Decidable (d.info = none ∧ d.invalid = false))
  | .intern _ | .addScope _ | .declare .. | .addGroup _ => .isTrue trivial

/-- Nothing that is added is bound yet, and no function that is added is invalid. -/
def Event.Blameless : Event → Prop
  | grow g => g.Blameless
  | run _ => True

instance : DecidablePred Event.Blameless
  | .grow g => inferInstanceAs (Decidable g.Blameless)
  | .run _ => .isTrue trivial

theorem Event.Blameless.unbound {e : Event} (h : e.Blameless) : e.Unbound := by
  cases e with
  | grow g =>
    cases g with
    | addFunction | addMethod | addGroupMember => exact h.1
    | _ => exact h
  | run op => trivial

namespace Growth

theorem Blameless.added {g : Growth} (hg : g.Blameless) {p : Program} {d : FuncDecl}
    (hd : g.func? p = some d) : d.invalid = false := by
  cases g with
  | addFunction | addMethod | addGroupMember =>
    cases hd
    exact hg.2
  | _ => cases hd

theorem funcAt_of_invalid (g : Growth) {p : Program} (hv : (p.funcAt func).invalid = true) :
    (g.apply p).funcAt func = p.funcAt func := by
  refine (g.funcAt_cases p func).resolve_right ?_
  rintro ⟨-, -, hnew, -⟩
  rw [hnew] at hv
  cases hv

theorem funcInvalid_apply {g : Growth} (hg : g.Blameless) (p : Program) (func : FuncId) :
    ((g.apply p).funcAt func).invalid = (p.funcAt func).invalid := by
  rcases g.funcAt_cases p func with he | ⟨d, hd, hnew, he⟩
  · rw [he]
  · rw [he, hnew, hg.added hd]
    rfl

end Growth

/-! ## Runs -/

theorem Event.charged {e : Event} (he : e.Blameless) (hf : c.session.strategy = .functional)
    (hl : c.program.Layered) (h : c.Charged charges) :
    ∃ more, (e.apply c).Charged (charges ++ more) := by
  cases e with
  | grow g =>
    refine ⟨[], ?_⟩
    rw [List.append_nil]
    exact h.of_same (Compilation.extends_of_program (g.apply_extends c.program)) rfl
      (g.funcInvalid_apply he c.program) fun _ => g.funcAt_of_invalid
  | run op =>
    refine (op.phases hf hl).invariant (I := fun d => ∃ more, d.Charged (charges ++ more)) ?_
      ⟨[], by rwa [List.append_nil]⟩
    rintro d e deed hstep ⟨more, hd⟩
    obtain ⟨last, he⟩ := hd.change hstep
    exact ⟨more ++ last, List.append_assoc .. ▸ he⟩

/-- What is charged at the end has been charged one after the other. -/
theorem Run.charged {past : List Compilation} (h : Run (fun _ e => e.Blameless) past c) :
    ∃ charges, c.Charged charges ∧ ∀ k ∈ past, ∃ before, before <+: charges ∧ k.Charged before := by
  induction h with
  | start renders =>
    have hvalid (func : FuncId) :
        ((Compilation.new .functional renders).program.funcAt func).invalid = false := by
      rw [funcAt_new]
      rfl
    refine ⟨[], ⟨rfl, nofun, List.nodup_nil, fun func => ?_, fun func i hv => ?_⟩, nofun⟩
    · rw [hvalid]
      exact iff_of_false Bool.noConfusion List.not_mem_nil
    · cases (hvalid func).symm.trans hv
  | @step past c e h he ih =>
    obtain ⟨hf, hl⟩ := h.functional fun _ _ hU => hU.unbound
    obtain ⟨charges, hc, hpast⟩ := ih
    obtain ⟨more, hd⟩ := Event.charged he hf hl hc
    refine ⟨charges ++ more, hd, fun k hk => ?_⟩
    rcases List.mem_cons.1 hk with rfl | hk
    · exact ⟨charges, List.prefix_append .., hc⟩
    · obtain ⟨before, hbefore, hk⟩ := hpast k hk
      exact ⟨before, hbefore.trans (List.prefix_append ..), hk⟩

/-- From `k` to `c` the function has been left alone: its declaration is the same, and it has no
entry that it had not then. -/
structure Untouched (k c : Compilation) (func : FuncId) : Prop where
  decl : c.program.funcAt func = k.program.funcAt func
  entries : ∀ cls e, e ∈ c.program.entries cls → e.func = func → e ∈ k.program.entries cls

theorem Untouched.change (h : Untouched k c func) (hv : (k.program.funcAt func).invalid = true)
    (hc : c.program.ListsOwned) (hstep : Change deed c d) : Untouched k d func := by
  rw [← h.decl] at hv
  refine ⟨(hstep.funcAt_of_invalid hv).trans h.decl, fun cls e he hfunc => ?_⟩
  by_cases hold : e ∈ c.program.entries cls
  · exact h.entries cls e hold hfunc
  · -- Only a valid function gets a new entry.
    obtain rfl := hstep.lists_of_new hc he hold
    cases hstep with
    | record _ _ _ _ hvalid =>
      rw [hfunc, hv] at hvalid
      cases hvalid

/-- A function that was invalid at some time has been left alone since. -/
theorem Run.untouched {past : List Compilation} (h : Run (fun _ e => e.Blameless) past c)
    (hk : k ∈ c :: past) (hv : (k.program.funcAt func).invalid = true) : Untouched k c func := by
  induction h with
  | start renders =>
    rw [List.mem_singleton] at hk
    rw [hk]
    exact ⟨rfl, fun _ _ he _ => he⟩
  | @step past c e h he ih =>
    rcases List.mem_cons.1 hk with rfl | hk
    · exact ⟨rfl, fun _ _ he _ => he⟩
    have hc := ih hk
    obtain ⟨hf, hl⟩ := h.functional fun _ _ hU => hU.unbound
    cases e with
    | grow g =>
      have hdecl := (g.funcAt_of_invalid (hc.decl ▸ hv)).trans hc.decl
      refine ⟨hdecl, fun cls entry hentry => ?_⟩
      rw [show ((Event.grow g).apply c).program.entries cls = c.program.entries cls from
        g.entries_apply he.unbound c.program cls] at hentry
      exact hc.entries cls entry hentry
    | run op =>
      have howned := (Compilation.TablesFit.of_run (fun _ _ hU => hU.unbound) h).owned
      refine ((op.phases hf hl).invariant
        (I := fun d => d.program.ListsOwned ∧ Untouched k d func) ?_ ⟨howned, hc⟩).2
      rintro d e deed hstep ⟨hd, hdk⟩
      exact ⟨hstep.listsOwned hd, hdk.change hv hd hstep⟩

/-! ## What a rejected function answers -/

/-- The operations that ask whether a function may be bound, and the one that records it. -/
def Operation.checks (func : FuncId) (cls : ClassId) : List Operation :=
  [validateSelector func, checkLinkage func, recordMethod func cls]

theorem checkLinkage_of_invalid (h : (c.program.funcAt func).invalid = true) :
    checkLinkage func c = .ok () c := by
  rw [checkLinkage, bind_apply, program_apply]
  simp only [h, Bool.or_true, if_true]
  rfl

theorem recordMethod_of_invalid (h : (c.program.funcAt func).invalid = true) (cls : ClassId) :
    recordMethod func cls c = .ok () c := by
  rw [recordMethod, bind_apply, program_apply]
  dsimp only
  rw [bind_apply, record_of_invalid h]
  rfl

/-- An invalid function passes every check, and nothing happens. -/
theorem Operation.run_of_invalid (hf : c.session.strategy = .functional)
    (ha : c.session.aborted = false) (hv : (c.program.funcAt func).invalid = true)
    {cls : ClassId} {op : Operation} (hop : op ∈ checks func cls) : op.run c = .ok .done c := by
  have hstep {x : Resolve Unit} (hx : x c = .ok () c) :
      (guarded () x >>= fun _ => pure Reply.done) c = .ok .done c := by
    rw [bind_apply, guarded_of_functional ha hf, hx]
    rfl
  simp only [checks, List.mem_cons, List.not_mem_nil, or_false] at hop
  rcases hop with rfl | rfl | rfl
  · exact hstep (validateSelector_of_invalid hv)
  · exact hstep (checkLinkage_of_invalid hv)
  · exact hstep (recordMethod_of_invalid hv cls)

theorem Program.isMessageSend_of_invalid {p : Program} (h : (p.funcAt func).invalid = true) :
    p.isMessageSend func = false := by
  simp [isMessageSend, h]

/-- All errors that are held against functions have been held against different functions, one
after the other, and these are the functions that are invalid. A function that was invalid at some
time has been left alone since; calls to it are no messages, and it passes every check without a
report, until the session is aborted. -/
theorem rejected_once {past : List Compilation} (h : Run (fun _ e => e.Blameless) past c) :
    (∃ charges : List (FuncId × BindError), (charges.map (·.1)).Nodup ∧
      ∀ k ∈ c :: past, ∃ before, before <+: charges ∧ k.Charged before) ∧
    ∀ k ∈ c :: past, ∀ func, (k.program.funcAt func).invalid = true →
      Untouched k c func ∧
      (∀ i, (c.program.funcAt func).info = some i → i.dispatch = .unsupported) ∧
      c.isMessageSend func = false ∧
      ∀ cls, ∀ op ∈ Operation.checks func cls, op.run c =
        if c.session.aborted then .error .sessionAborted c else .ok .done c := by
  obtain ⟨charges, hc, hpast⟩ := h.charged
  refine ⟨⟨charges, hc.nodup, fun k hk => ?_⟩, fun k hk func hv => ?_⟩
  · rcases List.mem_cons.1 hk with rfl | hk
    · exact ⟨charges, List.prefix_rfl, hc⟩
    · exact hpast k hk
  · obtain ⟨hf, -⟩ := h.functional fun _ _ hU => hU.unbound
    have huntouched := h.untouched hk hv
    rw [← huntouched.decl] at hv
    refine ⟨huntouched, fun i => hc.dispatch func i hv, ?_, fun cls op hop => ?_⟩
    · rw [Compilation.isMessageSend, isMessageSend_of_invalid hv]
      unfold Compilation.asked
      cases c.session.strategy <;> rfl
    · cases ha : c.session.aborted with
      | true => exact op.run_of_aborted ha
      | false => exact op.run_of_invalid hf ha hv hop

/-- `draw` takes no argument, but its selector does; the name of the metaclass of `Foo` stands for
a constant. -/
def wrongArityEvents : List Event :=
  [.grow (.addScope none), .grow (.intern "Foo"), .grow (.intern "draw"),
    .grow (.intern "OBJC_METACLASS_$_Foo"), .grow (.declare ⟨0⟩ ⟨7⟩ (.constant "taken")),
    .grow (.addClass { name := ⟨5⟩, kind := .concrete, span := .point 0 1 1 }),
    .grow (.addMethod ⟨0⟩
      { name := ⟨6⟩, params := [], span := .point 0 2 1, linkage := .objc
        attrs := [{ value := .literal "draw:", span := .point 0 2 1 }] }),
    .run (.markClass ⟨0⟩), .run (.assignSelector ⟨0⟩ ⟨0⟩), .run (.validateSelector ⟨0⟩)]

theorem rejected_once_wrongArity :
    let c := (Event.play [] (.new .functional false) wrongArityEvents).2
    (c.program.funcAt ⟨0⟩).invalid = true ∧
      c.session.sink.items.map (·.code) = [some "O0004"] ∧
      ∀ op ∈ Operation.checks ⟨0⟩ ⟨0⟩, op.run c = .ok .done c := by
  intro c
  have hrun : Run (fun _ e => e.Blameless)
      (Event.play [] (.new .functional false) wrongArityEvents).1 c :=
    (Run.start false).play (by decide +kernel)
  have hv : (c.program.funcAt ⟨0⟩).invalid = true := by decide +kernel
  have ha : c.session.aborted = false := by decide +kernel
  obtain ⟨-, hchecks⟩ := ((rejected_once hrun).2 c List.mem_cons_self ⟨0⟩ hv).2.2
  refine ⟨hv, by decide +kernel, fun op hop => ?_⟩
  rw [hchecks ⟨0⟩ op hop, ha]
  rfl

/-- A session that is aborted refuses the checks, also for functions that were rejected. -/
theorem not_rejected_passes_aborted :
    let played := Event.play [] (.new .functional false)
      (wrongArityEvents ++ [.run (.resolveMetaclass ⟨0⟩ ⟨0⟩)])
    let c := played.2
    Run (fun _ e => e.Blameless) played.1 c ∧ (c.program.funcAt ⟨0⟩).invalid = true ∧
      ∀ op ∈ Operation.checks ⟨0⟩ ⟨0⟩, op.run c ≠ .ok .done c := by
  intro played c
  refine ⟨(Run.start false).play (by decide +kernel), by decide +kernel, fun op _ heq => ?_⟩
  cases (op.run_of_aborted (c := c) (by decide +kernel)).symm.trans heq

end ObjcBinding
