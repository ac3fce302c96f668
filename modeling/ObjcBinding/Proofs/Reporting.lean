import ObjcBinding.Proofs.Run
import ObjcBinding.Proofs.Steps.Accounts

/-!
# Errors and diagnostics

Every error that an operation ends with has reached the sink once, and an operation that ends well
has reported nothing. Three operations go on after an error: those that record many methods, and
the one that binds a class with its members. They make attempts one after another, and the sink
has one diagnostic for each attempt that failed.

* `bindMethod_accounts`, `prepareClass_accounts`: the longer operations account for their errors;
* `attempts_reportedAll`: attempts report their errors in order;
* `diagnostics_match_errors`: errors and diagnostics correspond to each other.
-/

namespace ObjcBinding

open Resolve

/-! ## Operations that end with their first error -/

/-- Whether the operation ends with its first error. -/
def Operation.isSingle : Operation → Bool
  | .recordMethods .. | .recordGroup .. | .bindClass .. => false
  | _ => true

namespace Session

variable {α : Type} {realm : Realm} {c : Compilation}

theorem guarded_accounts (ha : c.session.aborted = false) (neutral : α) {x : Resolve α}
    (hx : Accounts realm x c) : Accounts realm (guarded neutral x) c := by
  cases hs : c.session.strategy with
  | functional => exact (outcome_guarded _ ha hs).2 hx
  | inert => exact (outcome_of_ok (guarded_of_inert ha hs)).2 ⟨.refl realm c, .refl c⟩

/-- What is offered by a session that goes on stays so after a step without a report. -/
theorem guarded_accounts_of_quiet {d : Compilation} (ha : c.session.aborted = false)
    (h : c.Quiet d) (neutral : α) {x : Resolve α} (hx : Accounts realm x d) :
    Accounts realm (guarded neutral x) d :=
  guarded_accounts (h.aborted.trans ha) neutral hx

theorem bindMethod_accounts (func : FuncId) (cls : ClassId) (scope : ScopeId)
    (ha : c.session.aborted = false) : Accounts .methods (bindMethod func cls scope) c := by
  refine accounts_bind (guarded_accounts ha _ (assignSelector_accounts func scope c))
    fun _ c₁ h₁ => ?_
  refine accounts_bind (guarded_accounts_of_quiet ha h₁ _ (validateSelector_accounts func c₁))
    fun _ c₂ h => ?_
  have h₂ := h₁.trans h
  refine accounts_bind (guarded_accounts_of_quiet ha h₂ _ (checkLinkage_accounts func c₂))
    fun _ c₃ h => ?_
  have h₃ := h₂.trans h
  refine accounts_bind (accounts_modifyGet (.of_eq rfl rfl) rfl) fun body c₄ h => ?_
  have h₄ := h₃.trans h
  refine accounts_bind (guarded_accounts_of_quiet ha h₄ _ (addSelectorParam_accounts func body c₄))
    fun _ c₅ h => ?_
  exact guarded_accounts_of_quiet ha (h₄.trans h) _ (recordMethod_accounts func cls c₅)

theorem prepareClass_accounts (cls : ClassId) (scope : ScopeId)
    (ha : c.session.aborted = false) : Accounts .hierarchy (prepareClass cls scope) c := by
  have hrest (d : Compilation) (h : c.Quiet d) :
      Accounts .hierarchy (resolveMetaclass cls scope) d :=
    guarded_accounts_of_quiet ha h _ (resolveMetaclass_accounts cls scope d)
  refine accounts_program ?_
  split
  · exact accounts_bind (guarded_accounts ha _ (mark_accounts cls .concrete c)) fun _ => hrest
  · exact accounts_bind (guarded_accounts ha _ (mark_accounts cls .interface c)) fun _ => hrest

end Session

theorem Operation.run_accounts {op : Operation} (hop : op.isSingle = true) {c : Compilation}
    (ha : c.session.aborted = false) : ∃ realm, Accounts realm op.run c := by
  have hdone {α : Type} {realm : Realm} {x : Resolve α} {f : α → Reply}
      (hx : Accounts realm x c) : ∃ realm, Accounts realm (x >>= fun a => pure (f a)) c :=
    ⟨realm, accounts_bind hx fun _ _ _ => accounts_pure _⟩
  have hguarded {α : Type} {realm : Realm} {neutral : α} {x : Resolve α} {f : α → Reply}
      (hx : Accounts realm x c) :
      ∃ realm, Accounts realm (guarded neutral x >>= fun a => pure (f a)) c :=
    hdone (Session.guarded_accounts ha neutral hx)
  cases op with
  | internSelector text arity =>
    exact hguarded (accounts_map (internSelector_accounts text arity c))
  | markClass cls => exact hguarded (mark_accounts cls .concrete c)
  | markInterface cls => exact hguarded (mark_accounts cls .interface c)
  | assignSelector func scope => exact hguarded (assignSelector_accounts func scope c)
  | validateSelector func => exact hguarded (validateSelector_accounts func c)
  | checkLinkage func => exact hguarded (checkLinkage_accounts func c)
  | recordMethod func cls => exact hguarded (recordMethod_accounts func cls c)
  | addSelectorParam func scope => exact hguarded (addSelectorParam_accounts func scope c)
  | resolveMetaclass cls scope => exact hguarded (resolveMetaclass_accounts cls scope c)
  | runtimeMetaclass cls => exact hguarded (runtimeMetaclass_accounts cls c)
  | bindMethod func cls scope => exact hdone (Session.bindMethod_accounts func cls scope ha)
  | recordMethods => cases hop
  | recordGroup => cases hop
  | bindClass => cases hop

/-! ## Attempts -/

section

variable {α : Type}

/-- Makes steps one after another, whatever comes of them. -/
def attempts : List (Resolve α) → Compilation → List (Except BindError α) × Compilation
  | [], c => ([], c)
  | x :: rest, c =>
    match x c with
    | .ok a d => (.ok a :: (attempts rest d).1, (attempts rest d).2)
    | .error e d => (.error e :: (attempts rest d).1, (attempts rest d).2)

/-- The errors among the answers, in order. -/
def failures (answers : List (Except BindError α)) : List BindError :=
  answers.filterMap fun
    | .ok _ => none
    | .error e => some e

/-- The errors were reported in order, each once, and the session goes on as before. -/
structure Compilation.ReportedAll (c d : Compilation) (errors : List BindError) : Prop where
  sink : d.session.sink.items = c.session.sink.items ++ errors.map (·.diagnostic)
  aborted : d.session.aborted = c.session.aborted
  benign (e : BindError) : e ∈ errors → e.isCorruption = false

namespace Compilation

variable {b c d : Compilation} {e : BindError} {errors : List BindError}

theorem Quiet.reportedAll (h : c.Quiet d) : c.ReportedAll d [] where
  sink := by rw [h.sink, List.map_nil, List.append_nil]
  aborted := h.aborted
  benign _ hm := nomatch hm

theorem Quiet.trans_reportedAll (h : b.Quiet c) (h' : c.ReportedAll d errors) :
    b.ReportedAll d errors where
  sink := by rw [h'.sink, h.sink]
  aborted := h'.aborted.trans h.aborted
  benign := h'.benign

theorem Reported.cons (h : b.Reported c e) (he : e.isCorruption = false)
    (h' : c.ReportedAll d errors) : b.ReportedAll d (e :: errors) where
  sink := by
    rw [h'.sink, h.sink, List.append_assoc]
    rfl
  aborted := by rw [h'.aborted, h.aborted, he, Bool.or_false]
  benign e' hm := by
    rcases List.mem_cons.1 hm with rfl | hm
    · exact he
    · exact h'.benign e' hm

end Compilation

/-- An error of a step on methods is no corruption. -/
theorem Resolve.Accounts.not_corruption {x : Resolve α} {c d : Compilation} {e : BindError}
    (h : Accounts .methods x c) (ha : c.session.aborted = false) (hx : x c = .error e d) :
    d.session.aborted = false ∧ c.Reported d e ∧ e.isCorruption = false := by
  obtain ⟨hspares, hreported⟩ := (outcome_of_error hx).1 h
  have hd : d.session.aborted = false := Eq.trans hspares ha
  refine ⟨hd, hreported, ?_⟩
  have hab := hreported.aborted
  rwa [hd, ha, Bool.false_or, eq_comm] at hab

theorem attempts_reportedAll {steps : List (Resolve α)}
    (hsteps : ∀ x ∈ steps, ∀ d : Compilation, d.session.aborted = false → Accounts .methods x d)
    {c : Compilation} (ha : c.session.aborted = false) :
    c.ReportedAll (attempts steps c).2 (failures (attempts steps c).1) := by
  induction steps generalizing c with
  | nil => exact (Compilation.Quiet.refl c).reportedAll
  | cons x rest ih =>
    have hx := hsteps x List.mem_cons_self c ha
    have hrest := fun y hy => hsteps y (List.mem_cons_of_mem x hy)
    unfold attempts
    cases hxc : x c with
    | ok a d =>
      obtain ⟨hspares, hquiet⟩ := (outcome_of_ok hxc).1 hx
      exact hquiet.trans_reportedAll (ih hrest (Eq.trans hspares ha))
    | error e d =>
      obtain ⟨hd, hreported, he⟩ := hx.not_corruption ha hxc
      exact hreported.cons he (ih hrest hd)

end

/-! ## Recording many methods -/

/-- The attempts to record the functions on their sides. -/
def recordings (cls : ClassId) (sides : List (FuncId × Bool)) : List (Resolve Bool) :=
  sides.map fun side => record side.1 cls side.2

/-- The attempts to record functions as methods of a class or group: none if the group takes no
part in the compilation. -/
def MethodSource.recordings (source : MethodSource) (p : Program)
    (ofInstances ofClass : List FuncId) : List (Resolve Bool) :=
  let sides := ofInstances.map (·, false) ++ ofClass.map (·, true)
  match source with
  | .body cls => ObjcBinding.recordings cls sides
  | .group id =>
    if (p.groupAt id).isActive then ObjcBinding.recordings (p.groupAt id).target sides else []

/-- The attempts of an operation that records many methods. -/
def Operation.recordings (p : Program) : Operation → List (Resolve Bool)
  | .recordMethods source ofInstances ofClass => source.recordings p ofInstances ofClass
  | .recordGroup group =>
    let members := (p.groupAt group).members
    (MethodSource.group group).recordings p (members.filter fun f => !(p.funcAt f).isStatic)
      (members.filter fun f => (p.funcAt f).isStatic)
  | _ => []

/-- Whether the operation records many methods. -/
def Operation.isBulk : Operation → Bool
  | .recordMethods .. | .recordGroup .. => true
  | _ => false

theorem recordAll_apply (cls : ClassId) (sides : List (FuncId × Bool)) (c : Compilation) :
    ∃ n, recordAll cls sides c = .ok n (attempts (recordings cls sides) c).2 := by
  induction sides generalizing c with
  | nil => exact ⟨0, rfl⟩
  | cons side rest ih =>
    obtain ⟨func, isClassMethod⟩ := side
    simp only [recordAll, recordings, List.map_cons, attempts, bind_apply, tryCatch_apply]
    cases record func cls isClassMethod c with
    | ok added d =>
      obtain ⟨n, hn⟩ := ih d
      simp only [hn]
      exact ⟨_, rfl⟩
    | error e d =>
      obtain ⟨n, hn⟩ := ih d
      have hskip : (pure false : Resolve Bool) d = .ok false d := rfl
      simp only [hskip, hn]
      exact ⟨_, rfl⟩

/-- Many methods are recorded by their attempts; besides, something may be said. -/
theorem recordMethods_apply (source : MethodSource) (ofInstances ofClass : List FuncId)
    (c : Compilation) :
    let tried := (attempts (source.recordings c.program ofInstances ofClass) c).2
    ∃ n d, recordMethods source ofInstances ofClass c = .ok n d ∧
      d.program = tried.program ∧ d.session = tried.session := by
  cases source with
  | body cls =>
    obtain ⟨n, hn⟩ := recordAll_apply cls
      (ofInstances.map (·, false) ++ ofClass.map (·, true)) c
    exact ⟨n, _, hn, rfl, rfl⟩
  | group id =>
    simp only [recordMethods, bind_apply, program_apply, MethodSource.recordings]
    cases (c.program.groupAt id).isActive with
    | true =>
      obtain ⟨n, hn⟩ := recordAll_apply (c.program.groupAt id).target
        (ofInstances.map (·, false) ++ ofClass.map (·, true)) c
      exact ⟨n, _, hn, rfl, rfl⟩
    | false => exact ⟨0, _, rfl, rfl, rfl⟩

theorem recordings_accounts {source : MethodSource} {p : Program}
    {ofInstances ofClass : List FuncId} :
    ∀ x ∈ source.recordings p ofInstances ofClass, ∀ d : Compilation,
      d.session.aborted = false → Accounts .methods x d := by
  have hall (cls : ClassId) (sides : List (FuncId × Bool)) :
      ∀ x ∈ recordings cls sides, ∀ d : Compilation, d.session.aborted = false →
        Accounts .methods x d := by
    intro x hx d _
    obtain ⟨side, -, rfl⟩ := List.mem_map.1 hx
    exact record_accounts side.1 cls side.2 d
  unfold MethodSource.recordings
  dsimp only
  split
  · exact hall _ _
  · split
    · exact hall _ _
    · exact fun _ hx => nomatch hx

/-- What an operation that records many methods does: the attempts that it stands for, which
report their errors in order. -/
structure Operation.Records (op : Operation) (c d : Compilation) : Prop where
  program : d.program = (attempts (op.recordings c.program) c).2.program
  session : d.session = (attempts (op.recordings c.program) c).2.session
  reported : c.ReportedAll d (failures (attempts (op.recordings c.program) c).1)

theorem Operation.records_of_recordMethods (op : Operation) (source : MethodSource)
    (ofInstances ofClass : List FuncId) {c : Compilation}
    (hop : op.recordings c.program = source.recordings c.program ofInstances ofClass)
    (ha : c.session.aborted = false) (hs : c.session.strategy = .functional) :
    ∃ n d, Session.recordMethods source ofInstances ofClass c = .ok n d ∧ op.Records c d := by
  obtain ⟨n, d, hrun, hprogram, hsession⟩ := recordMethods_apply source ofInstances ofClass c
  rw [← hop] at hprogram hsession
  have hall := attempts_reportedAll (hop ▸ recordings_accounts) ha
  refine ⟨n, d, (guarded_of_functional ha hs).trans hrun, hprogram, hsession, ?_⟩
  exact ⟨hsession ▸ hall.sink, hsession ▸ hall.aborted, hall.benign⟩

theorem Operation.run_records {op : Operation} (hop : op.isBulk = true) {c : Compilation}
    (ha : c.session.aborted = false) (hs : c.session.strategy = .functional) :
    ∃ n d, op.run c = .ok (.count n) d ∧ op.Records c d := by
  cases op with
  | recordMethods source ofInstances ofClass =>
    obtain ⟨n, d, hrun, hrecords⟩ := records_of_recordMethods
      (.recordMethods source ofInstances ofClass) source _ _ rfl ha hs
    refine ⟨n, d, ?_, hrecords⟩
    rw [run, bind_apply, hrun]
    rfl
  | recordGroup group =>
    obtain ⟨n, d, hrun, hrecords⟩ := records_of_recordMethods (.recordGroup group) (.group group)
      _ _ rfl ha hs
    refine ⟨n, d, ?_, hrecords⟩
    rw [run, bind_apply, Session.recordGroup, bind_apply, program_apply]
    simp only [List.partition_eq_filter_filter]
    have hfilter : (Bool.not ∘ fun f => (c.program.funcAt f).isStatic) =
        fun f => !(c.program.funcAt f).isStatic := rfl
    rw [hfilter, hrun]
    rfl
  | _ => cases hop

/-! ## Binding a class with its members -/

/-- The attempts to bind methods of a class. -/
def bindings (cls : ClassId) (scope : ScopeId) (funcs : List FuncId) : List (Resolve Unit) :=
  funcs.map fun func => Session.bindMethod func cls scope

theorem bindings_accounts {cls : ClassId} {scope : ScopeId} {funcs : List FuncId} :
    ∀ x ∈ bindings cls scope funcs, ∀ d : Compilation, d.session.aborted = false →
      Accounts .methods x d := by
  intro x hx d hd
  obtain ⟨func, -, rfl⟩ := List.mem_map.1 hx
  exact Session.bindMethod_accounts func cls scope hd

/-- Methods do not end the session, so that all members are visited. -/
theorem bindMethods_apply (cls : ClassId) (scope : ScopeId) (funcs : List FuncId)
    {c : Compilation} (ha : c.session.aborted = false) :
    Session.bindMethods cls scope funcs c = .ok () (attempts (bindings cls scope funcs) c).2 := by
  induction funcs generalizing c with
  | nil => rfl
  | cons func rest ih =>
    have hx := Session.bindMethod_accounts func cls scope ha
    simp only [Session.bindMethods, bindings, List.map_cons, attempts, bind_apply, tryCatch_apply]
    cases hxc : Session.bindMethod func cls scope c with
    | ok _ d =>
      obtain ⟨hspares, -⟩ := (outcome_of_ok hxc).1 hx
      exact ih (Eq.trans hspares ha)
    | error e d =>
      have hd := (hx.not_corruption ha hxc).1
      have hget : (get : Resolve Compilation) d = .ok d d := rfl
      have hskip : (pure () : Resolve Unit) d = .ok () d := rfl
      simp only [hget, hd, Bool.false_eq_true, if_false, hskip]
      exact ih hd

/-- What binding a class does that ends well: the class is prepared without a report, and then
each member is tried. -/
structure Binds (cls : ClassId) (scope : ScopeId) (c mid d : Compilation) : Prop where
  prepared : Session.prepareClass cls scope c = .ok () mid
  quiet : c.Quiet mid
  tried : d = (attempts (bindings cls scope (c.program.classAt cls).members) mid).2
  reported : c.ReportedAll d
    (failures (attempts (bindings cls scope (c.program.classAt cls).members) mid).1)

theorem bindClass_binds (cls : ClassId) (scope : ScopeId) {c : Compilation}
    (ha : c.session.aborted = false) :
    Outcome (Session.bindClass cls scope) c (fun _ d => ∃ mid, Binds cls scope c mid d)
      fun e d => Realm.hierarchy.Spares c d ∧ c.Reported d e := by
  have hprepare := Session.prepareClass_accounts cls scope ha
  rw [Session.bindClass_eq, outcome_bind]
  cases hmid : Session.prepareClass cls scope c with
  | error e d => exact (outcome_of_error hmid).2 ((outcome_of_error hmid).1 hprepare)
  | ok _ mid =>
    obtain ⟨-, hquiet⟩ := (outcome_of_ok hmid).1 hprepare
    have hrunning : mid.session.aborted = false := hquiet.aborted.trans ha
    refine (outcome_of_ok hmid).2 (outcome_bind.2 (outcome_program.2 ?_))
    rw [hquiet.program.members]
    refine (outcome_of_ok (bindMethods_apply cls scope _ hrunning)).2 ⟨mid, hmid, hquiet, rfl, ?_⟩
    exact hquiet.trans_reportedAll (attempts_reportedAll bindings_accounts hrunning)

/-! ## All operations -/

/-- An operation that ends well has reported errors that end no session; one that fails has
reported its error. -/
theorem Operation.run_reported (op : Operation) {c : Compilation}
    (ha : c.session.aborted = false) :
    Outcome op.run c (fun _ d => ∃ errors, c.ReportedAll d errors)
      fun e d => (∃ realm : Realm, realm.Spares c d) ∧ c.Reported d e := by
  by_cases hsingle : op.isSingle = true
  · obtain ⟨realm, h⟩ := op.run_accounts hsingle ha
    exact outcome_mono h (fun _ _ hd => ⟨[], hd.2.reportedAll⟩) fun _ _ hd => ⟨⟨_, hd.1⟩, hd.2⟩
  · by_cases hbulk : op.isBulk = true
    · cases hs : c.session.strategy with
      | functional =>
        obtain ⟨n, d, hrun, hrecords⟩ := op.run_records hbulk ha hs
        exact (outcome_of_ok hrun).2 ⟨_, hrecords.reported⟩
      | inert =>
        have hrun : op.run c = .ok (.count 0) c := by
          cases op with
          | recordMethods source ofInstances ofClass =>
            rw [run, bind_apply, Session.recordMethods, guarded_of_inert ha hs]
            rfl
          | recordGroup group =>
            rw [run, bind_apply, Session.recordGroup, bind_apply, program_apply]
            dsimp only
            rw [Session.recordMethods, guarded_of_inert ha hs]
            rfl
          | _ => cases hbulk
        exact (outcome_of_ok hrun).2 ⟨[], (Compilation.Quiet.refl c).reportedAll⟩
    · cases op with
      | bindClass cls scope =>
        refine outcome_bind.2 (outcome_mono (bindClass_binds cls scope ha) ?_ ?_)
        · exact fun _ _ ⟨_, h⟩ => ⟨_, h.reported⟩
        · exact fun _ _ h => ⟨⟨_, h.1⟩, h.2⟩
      | recordMethods => exact absurd rfl hbulk
      | recordGroup => exact absurd rfl hbulk
      | _ => exact absurd rfl hsingle

/-- In a functional session that goes on: an operation that ends with its first error has reported
nothing if it ends well, and has reported exactly its error if it fails, with its code, text and
place and with the other place that the error names; it has ended the session exactly if the error
is a corruption; and at most one declaration has become invalid, none for errors that are charged
to none. Recording many methods reports one error for each attempt that failed, and so does
binding a class with its members, unless it fails before it comes to them: then it has reported
that error. -/
theorem diagnostics_match_errors {c : Compilation} (ha : c.session.aborted = false)
    (hs : c.session.strategy = .functional) :
    (∀ op : Operation, op.isSingle = true →
      Outcome op.run c (fun _ d => c.Quiet d) fun e d => c.Reported d e) ∧
    (∀ op : Operation, op.isBulk = true →
      ∃ n d, op.run c = .ok (.count n) d ∧ op.Records c d) ∧
    ∀ cls scope, Outcome (Operation.bindClass cls scope).run c
      (fun _ d => ∃ mid, Binds cls scope c mid d) fun e d => c.Reported d e := by
  refine ⟨fun op hop => ?_, fun op hop => op.run_records hop ha hs, fun cls scope => ?_⟩
  · obtain ⟨realm, h⟩ := op.run_accounts hop ha
    exact outcome_mono h (fun _ _ hd => hd.2) fun _ _ hd => hd.2
  · refine outcome_bind.2 (outcome_mono (bindClass_binds cls scope ha) ?_ fun _ _ h => h.2)
    exact fun _ _ h => outcome_pure.2 h

/-- `Foo` has two methods `draw`. -/
def collisionEvents : List Event :=
  let draw (line : Nat) : FuncDecl :=
    { name := ⟨6⟩, params := [], span := .point 0 line 1, linkage := .objc }
  [.grow (.addScope none), .grow (.intern "Foo"), .grow (.intern "draw"),
    .grow (.addClass { name := ⟨5⟩, kind := .concrete, span := .point 0 1 1 }),
    .grow (.addMethod ⟨0⟩ (draw 2)), .grow (.addMethod ⟨0⟩ (draw 3))]

theorem diagnostics_match_errors_collision :
    let c := (Event.play [] (.new .functional false) collisionEvents).2
    Outcome (Operation.bindClass ⟨0⟩ ⟨0⟩).run c
      (fun _ d => (∃ mid, Binds ⟨0⟩ ⟨0⟩ c mid d) ∧
        d.session.sink.items.map (fun r => (r.code, r.notes.map (·.span))) =
          [(some "O0009", [.point 0 2 1])])
      fun _ _ => False := by
  intro c
  have hbinds := (diagnostics_match_errors (c := c) (by decide +kernel) (by decide +kernel)).2.2
    ⟨0⟩ ⟨0⟩
  have hitems : (match (Operation.bindClass ⟨0⟩ ⟨0⟩).run c with
      | .ok _ d => d.session.sink.items.map fun r => (r.code, r.notes.map (·.span))
      | .error _ _ => []) = [(some "O0009", [Span.point 0 2 1])] := by decide +kernel
  clear_value c
  cases hrun : (Operation.bindClass ⟨0⟩ ⟨0⟩).run c with
  | ok a d =>
    rw [hrun] at hitems
    exact (outcome_of_ok hrun).2 ⟨(outcome_of_ok hrun).1 hbinds, hitems⟩
  | error e d =>
    rw [hrun] at hitems
    cases hitems

end ObjcBinding
