import ObjcBinding.Proofs.AbortLatch

/-!
# Sessions under the inert strategy

Where there is no runtime to bind to, every operation is accepted and answered with a neutral
value. All that is left of it are scopes: binding a method opens one for its body before it is
asked whether there is anything to bind, and binding a class does so for each of its members.

* `Inert.run`: what one operation answers, and which scopes it leaves;
* `Inert.runAll`: the same for all operations of a session, one after another;
* `inert_frame`: a session leaves the compilation alone exactly if it opens no scope.
-/

namespace ObjcBinding

open Resolve

/-- The value that answers an operation that does nothing. -/
def Operation.neutral : Operation → Reply
  | internSelector .. | assignSelector .. => .selector none
  | recordMethods .. | recordGroup _ => .count 0
  | addSelectorParam .. => .param none
  | runtimeMetaclass _ => .classRef none
  | _ => .done

/-- The scopes that an operation opens for the bodies of methods, whatever the strategy. -/
def Operation.bodies (p : Program) : Operation → List Scope
  | bindMethod _ _ scope => [{ parent := some scope }]
  | bindClass cls scope => (p.classAt cls).members.map fun _ => { parent := some scope }
  | _ => []

namespace Compilation

/-- The compilation with further scopes, in the order in which they were opened. -/
def openScopes (c : Compilation) (bodies : List Scope) : Compilation :=
  { c with program := { c.program with scopes := ⟨c.program.scopes.items ++ bodies.toArray⟩ } }

/-- A session under the inert strategy. -/
structure Inert (c : Compilation) : Prop where
  strategy : c.session.strategy = .inert
  running : c.session.aborted = false

variable {c : Compilation}

@[simp] theorem openScopes_nil (c : Compilation) : c.openScopes [] = c := by
  simp [openScopes]

@[simp] theorem openScopes_openScopes (c : Compilation) (first second : List Scope) :
    (c.openScopes first).openScopes second = c.openScopes (first ++ second) := by
  simp [openScopes, Array.append_assoc]

theorem addScope_eq_openScopes (c : Compilation) (parent : Option ScopeId) :
    { c with program := (c.program.addScope parent).2 } = c.openScopes [{ parent }] := by
  simp [openScopes, Program.addScope, Arena.alloc]

/-- Opening scopes shows exactly if any is opened. -/
theorem program_openScopes_eq_iff {bodies : List Scope} :
    (c.openScopes bodies).program = c.program ↔ bodies = [] := by
  constructor
  · intro h
    have hsize := congrArg (fun p => p.scopes.items.size) h
    simpa [openScopes] using hsize
  · rintro rfl
    rw [openScopes_nil]

theorem Inert.openScopes (h : c.Inert) (bodies : List Scope) : (c.openScopes bodies).Inert :=
  ⟨h.strategy, h.running⟩

/-! ## One operation -/

theorem Inert.guarded {α : Type} (h : c.Inert) (neutral : α) (x : Resolve α) :
    guarded neutral x c = .ok neutral c :=
  guarded_of_inert h.running h.strategy

/-- The scope of the body is opened between two steps that do nothing. -/
theorem Inert.bindMethod (h : c.Inert) (func : FuncId) (cls : ClassId) (scope : ScopeId) :
    Session.bindMethod func cls scope c = .ok () (c.openScopes [{ parent := some scope }]) := by
  have hbody : (modifyGetProgram (·.addScope (some scope)) : Resolve ScopeId) c =
      .ok ⟨c.program.scopes.size⟩ (c.openScopes [{ parent := some scope }]) := by
    rw [← addScope_eq_openScopes]
    rfl
  have hopen := h.openScopes [{ parent := some scope }]
  simp only [Session.bindMethod, bind_apply, Session.assignSelector, Session.validateSelector,
    Session.checkLinkage, h.guarded, hbody, Session.addSelectorParam, Session.recordMethod,
    hopen.guarded]

theorem Inert.bindMethods (h : c.Inert) (cls : ClassId) (scope : ScopeId) (funcs : List FuncId) :
    Session.bindMethods cls scope funcs c =
      .ok () (c.openScopes (funcs.map fun _ => { parent := some scope })) := by
  induction funcs generalizing c with
  | nil => rw [List.map_nil, openScopes_nil]; rfl
  | cons func rest ih =>
    rw [Session.bindMethods, bind_apply, tryCatch_apply, h.bindMethod]
    dsimp only
    rw [ih (h.openScopes _), openScopes_openScopes]
    rfl

theorem Inert.bindClass (h : c.Inert) (cls : ClassId) (scope : ScopeId) :
    Session.bindClass cls scope c =
      .ok () (c.openScopes ((c.program.classAt cls).members.map
        fun _ => { parent := some scope })) := by
  have hmark (x : Resolve Unit) (rest : Resolve Unit) :
      (ObjcBinding.guarded () x >>= fun _ => rest) c = rest c := by
    rw [bind_apply, h.guarded]
  rw [Session.bindClass, bind_apply, program_apply]
  dsimp only
  cases (c.program.classAt cls).kind with
  | concrete => exact ((hmark _ _).trans (hmark _ _)).trans (h.bindMethods cls scope _)
  | interface => exact ((hmark _ _).trans (hmark _ _)).trans (h.bindMethods cls scope _)

/-- An operation is accepted, answered with its neutral value, and leaves the scopes of bodies. -/
theorem Inert.run (h : c.Inert) (op : Operation) :
    op.run c = .ok op.neutral (c.openScopes (op.bodies c.program)) := by
  -- A step that does nothing, and the reply that is made of its value.
  have hstep {α : Type} {neutral : α} {x : Resolve α} (hx : x c = .ok neutral c)
      (reply : α → Reply) :
      (x >>= fun a => pure (reply a)) c = .ok (reply neutral) (c.openScopes []) := by
    rw [bind_apply, hx, openScopes_nil]
    rfl
  cases op with
  | recordGroup group =>
    refine hstep ?_ .count
    rw [Session.recordGroup, bind_apply, program_apply]
    exact h.guarded 0 _
  | bindMethod func cls scope =>
    rw [Operation.run, bind_apply, h.bindMethod]
    rfl
  | bindClass cls scope =>
    rw [Operation.run, bind_apply, h.bindClass]
    rfl
  | _ => exact hstep (h.guarded _ _) _

/-! ## A whole session -/

/-- Afterwards there are the scopes of the bodies that were asked for, in their order. Which these
are does not depend on the scopes opened before. -/
theorem Inert.runAll (h : c.Inert) (ops : List Operation) :
    runAll c ops = c.openScopes (ops.flatMap (·.bodies c.program)) := by
  induction ops generalizing c with
  | nil => exact (openScopes_nil c).symm
  | cons op rest ih =>
    have hstep : finish op.run c = c.openScopes (op.bodies c.program) := by
      rw [finish, h.run]
    rw [ObjcBinding.runAll, List.foldl_cons, hstep, ← ObjcBinding.runAll, ih (h.openScopes _),
      openScopes_openScopes]
    rfl

end Compilation

theorem runAll_concat (c : Compilation) (before : List Operation) (op : Operation) :
    runAll c (before ++ [op]) = finish op.run (runAll c before) :=
  List.foldl_concat ..

/-- Whatever is asked of a session under the inert strategy: every operation ends well and is
answered with its neutral value. Afterwards everything is as before but for the scopes that
were opened for bodies of methods: the program is the same exactly if none was. The questions
have their neutral answers, and nothing is emitted. -/
theorem inert_frame {c : Compilation} (hs : c.session.strategy = .inert)
    (ha : c.session.aborted = false) (ops : List Operation) :
    let d := runAll c ops
    (∀ before op after, ops = before ++ op :: after →
      op.run (runAll c before) = .ok op.neutral (runAll c (before ++ [op]))) ∧
    d = c.openScopes (ops.flatMap (·.bodies c.program)) ∧
    (d.program = c.program ↔ ∀ op ∈ ops, op.bodies c.program = []) ∧
    (∀ func cls, d.isMessageSend func = false ∧ d.nearestDeclaring func cls = none ∧
      d.receiver? func = none) ∧
    d.emission = .ok {} := by
  intro d
  have h : c.Inert := ⟨hs, ha⟩
  have hd : d = c.openScopes (ops.flatMap (·.bodies c.program)) := h.runAll ops
  have hinert : d.Inert := hd ▸ h.openScopes _
  refine ⟨fun before op after _ => ?_, hd, ?_, fun func cls => ?_, ?_⟩
  · have hbefore : (runAll c before).Inert := h.runAll before ▸ h.openScopes _
    rw [runAll_concat, finish, hbefore.run]
  · rw [hd, Compilation.program_openScopes_eq_iff, List.flatMap_eq_nil_iff]
  · simp only [Compilation.isMessageSend, Compilation.nearestDeclaring, Compilation.receiver?,
      Compilation.asked, hinert.strategy, and_self]
  · simp only [Compilation.emission, hinert.running, Compilation.asked, hinert.strategy,
      Bool.false_eq_true, if_false]

/-- `Foo` has a method. -/
def inertEvents : List Event :=
  [.grow (.addScope none), .grow (.intern "Foo"), .grow (.intern "run"),
    .grow (.addClass { name := ⟨5⟩, kind := .concrete, span := .point 0 1 1 }),
    .grow (.addMethod ⟨0⟩ { name := ⟨6⟩, params := [], span := .point 0 2 1, linkage := .objc })]

theorem not_inert_unchanged_method :
    let c := (Event.play [] (.new .inert false) inertEvents).2
    let d := runAll c [.bindMethod ⟨0⟩ ⟨0⟩ ⟨0⟩]
    d.program ≠ c.program ∧ d.program.scopes.size = c.program.scopes.size + 1 ∧
      d.emission = .ok {} := by
  intro c d
  obtain ⟨-, hd, hprogram, -, hemission⟩ :=
    inert_frame (c := c) rfl rfl [.bindMethod ⟨0⟩ ⟨0⟩ ⟨0⟩]
  refine ⟨fun heq => ?_, by decide +kernel, hemission⟩
  cases hprogram.1 heq (.bindMethod ⟨0⟩ ⟨0⟩ ⟨0⟩) List.mem_cons_self

end ObjcBinding
