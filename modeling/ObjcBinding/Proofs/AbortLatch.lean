import ObjcBinding.Proofs.Reporting

/-!
# The end of a session

A corruption ends a session for good. It is reported as the last diagnostic, no function is bound
and no scope is added in the operation that finds it, and from then on every operation is refused
and changes nothing at all.

* `Operation.run_of_aborted`: what an aborted session answers;
* `runAll_cases`: a session goes on, or exactly one of its operations has ended it;
* `abort_final`: the latch, for all sequences of operations.
-/

namespace ObjcBinding

open Resolve

/-- Does operations one after another, whatever comes of them. -/
def runAll (c : Compilation) (ops : List Operation) : Compilation :=
  ops.foldl (fun d op => finish op.run d) c

/-! ## After the end -/

theorem Operation.run_of_aborted (op : Operation) {c : Compilation}
    (h : c.session.aborted = true) : op.run c = .error .sessionAborted c := by
  -- A sequence of steps is refused with its first step.
  have hbind {α β : Type} {x : Resolve α} (f : α → Resolve β)
      (hx : x c = .error .sessionAborted c) : (x >>= f) c = .error .sessionAborted c := by
    rw [bind_apply, hx]
  cases op with
  | recordGroup group =>
    refine hbind _ ?_
    rw [Session.recordGroup, bind_apply, program_apply]
    exact guarded_of_aborted h
  | bindMethod func cls scope => exact hbind _ (hbind _ (guarded_of_aborted h))
  | bindClass cls scope =>
    refine hbind _ ?_
    rw [Session.bindClass_eq]
    refine hbind _ ?_
    rw [Session.prepareClass, bind_apply, program_apply]
    dsimp only
    cases (c.program.classAt cls).kind with
    | concrete => exact hbind _ (guarded_of_aborted h)
    | interface => exact hbind _ (guarded_of_aborted h)
  | _ => exact hbind _ (guarded_of_aborted h)

theorem runAll_of_aborted {c : Compilation} (h : c.session.aborted = true)
    (ops : List Operation) : runAll c ops = c := by
  induction ops with
  | nil => rfl
  | cons op rest ih =>
    have hstep : finish op.run c = c := by rw [finish, op.run_of_aborted h]
    rw [runAll, List.foldl_cons, hstep]
    exact ih

theorem Compilation.emission_of_aborted {c : Compilation} (h : c.session.aborted = true) :
    c.emission = .error .sessionAborted := by
  rw [emission, h]
  rfl

/-! ## Until the end -/

/-- The diagnostic of a corruption. -/
def Diagnostic.isCorruption (r : Diagnostic) : Bool := r.code = some "O0900"

theorem BindError.isCorruption_diagnostic (e : BindError) :
    e.diagnostic.isCorruption = e.isCorruption := by
  cases e <;> rfl

namespace Compilation

/-- The session goes on, and no corruption was reported. -/
structure Running (c : Compilation) : Prop where
  aborted : c.session.aborted = false
  sound (r : Diagnostic) : r ∈ c.session.sink.items → r.isCorruption = false

/-- The operation has found a corruption in a session that was going on: it has stopped where the
session was ended, with the error reported last, and up to there it has touched no function, group
or selector and has added no scope. -/
structure EndedBy (c : Compilation) (op : Operation) (e : BindError) (d : Compilation) :
    Prop where
  running : c.Running
  failed : op.run c = .error e d
  stopped : ∃ corruption span mid, (abort corruption span : Resolve Unit) mid = .error e d
  corruption : e.isCorruption = true
  sink : d.session.sink.items = c.session.sink.items ++ [e.diagnostic]
  spared : Realm.hierarchy.Spares c d

variable {c d : Compilation} {errors : List BindError}

theorem Running.reportedAll (h : c.Running) (hd : c.ReportedAll d errors) : d.Running where
  aborted := hd.aborted.trans h.aborted
  sound r hr := by
    rw [hd.sink, List.mem_append] at hr
    rcases hr with hr | hr
    · exact h.sound r hr
    · obtain ⟨e, he, rfl⟩ := List.mem_map.1 hr
      exact e.isCorruption_diagnostic.trans (hd.benign e he)

/-- After one operation the session goes on, unless the operation has ended it. -/
theorem Running.run_cases (h : c.Running) (op : Operation) :
    (finish op.run c).Running ∨ ∃ e, c.EndedBy op e (finish op.run c) := by
  have hreported := op.run_reported h.aborted
  unfold finish
  cases hrun : op.run c with
  | ok reply d =>
    obtain ⟨errors, hd⟩ := (outcome_of_ok hrun).1 hreported
    exact .inl (h.reportedAll hd)
  | error e d =>
    obtain ⟨⟨realm, hspares⟩, hd⟩ := (outcome_of_error hrun).1 hreported
    cases he : e.isCorruption with
    | false => exact .inl (h.reportedAll (hd.cons he (Quiet.refl d).reportedAll))
    | true =>
      refine .inr ⟨e, h, hrun, hd.ended he, he, hd.sink, ?_⟩
      cases realm with
      | hierarchy => exact hspares
      | methods =>
        -- A step on methods does not end the session.
        have haborted := hd.aborted
        rw [he, Bool.or_true, Eq.trans hspares h.aborted] at haborted
        cases haborted

theorem EndedBy.aborted {op : Operation} {e : BindError} (h : c.EndedBy op e d) :
    d.session.aborted = true := by
  have hd := ((outcome_of_error h.failed).1 (op.run_reported h.running.aborted)).2
  rw [hd.aborted, h.corruption, Bool.or_true]

/-- The diagnostic of the corruption is the only one of its kind. -/
theorem EndedBy.corruptions {op : Operation} {e : BindError} (h : c.EndedBy op e d) :
    d.session.sink.items.filter (·.isCorruption) = [e.diagnostic] := by
  have hbefore : c.session.sink.items.filter (·.isCorruption) = [] :=
    List.filter_eq_nil_iff.2 fun r hr => by simp [h.running.sound r hr]
  have hlast : e.diagnostic.isCorruption = true := e.isCorruption_diagnostic.trans h.corruption
  rw [h.sink, List.filter_append, hbefore, List.filter_singleton, hlast]
  rfl

end Compilation

/-- A session still goes on, or exactly one of its operations has ended it, and has left behind
what there is at the end. -/
theorem runAll_cases {c : Compilation} (h : c.Running) (ops : List Operation) :
    (runAll c ops).Running ∨ ∃ before op after e, ops = before ++ op :: after ∧
      (runAll c before).EndedBy op e (runAll c ops) := by
  induction ops generalizing c with
  | nil => exact .inl h
  | cons op rest ih =>
    rcases h.run_cases op with hnext | ⟨e, hended⟩
    · rcases ih hnext with hrunning | ⟨before, last, after, e, rfl, hended⟩
      · exact .inl hrunning
      · exact .inr ⟨op :: before, last, after, e, rfl, hended⟩
    · have hrest : runAll c (op :: rest) = finish op.run c :=
        runAll_of_aborted hended.aborted rest
      exact .inr ⟨[], op, rest, e, rfl, hrest ▸ hended⟩

/-- In a session that starts with an empty sink, whatever is asked of it: at most one corruption
is ever in the sink, it is then the last diagnostic, and it is there exactly if the session has
been aborted. Then one operation has reported it and has bound no function and added no scope, and
the whole compilation has stayed as that operation left it; every further operation and the
emission are refused, and change nothing. -/
theorem abort_final {c : Compilation} (hsink : c.session.sink.items = [])
    (ha : c.session.aborted = false) (ops : List Operation) :
    let d := runAll c ops
    (d.session.sink.items.filter (·.isCorruption)).length ≤ 1 ∧
    (∀ r ∈ d.session.sink.items, r.isCorruption = true →
      d.session.sink.items.getLast? = some r) ∧
    (d.session.aborted = true ↔ ∃ r ∈ d.session.sink.items, r.isCorruption = true) ∧
    (d.session.aborted = true →
      (∃ before op after e, ops = before ++ op :: after ∧ (runAll c before).EndedBy op e d) ∧
      (∀ op : Operation, op.run d = .error .sessionAborted d) ∧
      (∀ later, runAll d later = d) ∧ d.emission = .error .sessionAborted) := by
  intro d
  have hstart : c.Running := ⟨ha, fun r hr => by rw [hsink] at hr; cases hr⟩
  rcases runAll_cases hstart ops with hrunning | ⟨before, op, after, e, hops, hended⟩
  · have hnone : d.session.sink.items.filter (·.isCorruption) = [] :=
      List.filter_eq_nil_iff.2 fun r hr => by simp [hrunning.sound r hr]
    refine ⟨by simp [hnone], fun r hr hc => ?_, ⟨fun h => ?_, fun ⟨r, hr, hc⟩ => ?_⟩, fun h => ?_⟩
    · cases (hrunning.sound r hr).symm.trans hc
    · cases hrunning.aborted.symm.trans h
    · cases (hrunning.sound r hr).symm.trans hc
    · cases hrunning.aborted.symm.trans h
  · have haborted : d.session.aborted = true := hended.aborted
    have hlast : d.session.sink.items.getLast? = some e.diagnostic := by
      rw [hended.sink, List.getLast?_concat]
    refine ⟨Nat.le_of_eq (congrArg List.length hended.corruptions), fun r hr hc => ?_,
      ⟨fun _ => ?_, fun _ => haborted⟩,
      fun _ => ⟨⟨before, op, after, e, hops, hended⟩, fun op => op.run_of_aborted haborted,
        runAll_of_aborted haborted, Compilation.emission_of_aborted haborted⟩⟩
    · have hmem : r ∈ d.session.sink.items.filter (·.isCorruption) := List.mem_filter.2 ⟨hr, hc⟩
      rw [hended.corruptions, List.mem_singleton] at hmem
      rw [hlast, hmem]
    · exact ⟨e.diagnostic, List.mem_of_getLast? hlast,
        e.isCorruption_diagnostic.trans hended.corruption⟩

/-- The name of the metaclass of `Foo` stands for a constant; `Foo` has a method. -/
def takenEvents : List Event :=
  [.grow (.addScope none), .grow (.intern "Foo"), .grow (.intern "OBJC_METACLASS_$_Foo"),
    .grow (.declare ⟨0⟩ ⟨6⟩ (.constant "taken")),
    .grow (.addClass { name := ⟨5⟩, kind := .concrete, span := .point 0 1 1 }),
    .grow (.addMethod ⟨0⟩
      { name := ⟨2⟩, params := [], span := .point 0 2 1, linkage := .objc })]

theorem abort_final_taken :
    let d := runAll (Event.play [] (.new .functional false) takenEvents).2
      [.bindClass ⟨0⟩ ⟨0⟩, .internSelector "draw" 0, .bindMethod ⟨0⟩ ⟨0⟩ ⟨0⟩]
    d.session.sink.items.map (·.code) = [some "O0900"] ∧ d.program.scopes.size = 1 ∧
      ∀ op : Operation, op.run d = .error .sessionAborted d := by
  intro d
  have hfinal := abort_final (c := (Event.play [] (.new .functional false) takenEvents).2)
    (by decide +kernel) (by decide +kernel)
    [.bindClass ⟨0⟩ ⟨0⟩, .internSelector "draw" 0, .bindMethod ⟨0⟩ ⟨0⟩ ⟨0⟩]
  exact ⟨by decide +kernel, by decide +kernel, (hfinal.2.2.2 (by decide +kernel)).2.1⟩

end ObjcBinding
