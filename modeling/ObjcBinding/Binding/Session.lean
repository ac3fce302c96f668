import ObjcBinding.Binding.Emission
import ObjcBinding.Binding.Marking
import ObjcBinding.Binding.MethodLists

/-!
# Sessions

What a session offers. A session that was aborted refuses every step, and under the inert
strategy a step is accepted and does nothing; otherwise the step is the one of `Resolve`.

* `bindMethod` and `bindClass` do everything that has to be done for a method or class;
* `guarded_of_aborted`, `guarded_of_inert`, `guarded_of_functional` tell the three cases apart.
-/

namespace ObjcBinding

/-- The step `x` as the session offers it; `neutral` is the value of a step that does nothing. -/
def guarded {α : Type} (neutral : α) (x : Resolve α) : Resolve α := do
  let s := (← get).session
  if s.aborted then throw .sessionAborted
  else match s.strategy with
    | .functional => x
    | .inert => return neutral

theorem guarded_of_aborted {α : Type} {neutral : α} {x : Resolve α} {c : Compilation}
    (h : c.session.aborted = true) : guarded neutral x c = .error .sessionAborted c := by
  have hg : (get : Resolve Compilation) c = .ok c c := rfl
  rw [guarded, Resolve.bind_apply, hg]
  simp only [h, if_true]
  rfl

theorem guarded_of_inert {α : Type} {neutral : α} {x : Resolve α} {c : Compilation}
    (h : c.session.aborted = false) (hs : c.session.strategy = .inert) :
    guarded neutral x c = .ok neutral c := by
  have hg : (get : Resolve Compilation) c = .ok c c := rfl
  rw [guarded, Resolve.bind_apply, hg]
  simp only [h, hs, Bool.false_eq_true, if_false]
  rfl

theorem guarded_of_functional {α : Type} {neutral : α} {x : Resolve α} {c : Compilation}
    (h : c.session.aborted = false) (hs : c.session.strategy = .functional) :
    guarded neutral x c = x c := by
  have hg : (get : Resolve Compilation) c = .ok c c := rfl
  rw [guarded, Resolve.bind_apply, hg]
  simp only [h, hs, Bool.false_eq_true, if_false]

namespace Session

/-! ## Single steps -/

/-- Interns a selector, unless the strategy is inert. -/
def internSelector (text : String) (arity : Nat) : Resolve (Option Selector) :=
  guarded none (some <$> Resolve.internSelector text arity)

/-- Marks a class as bound. -/
def markClass (cls : ClassId) : Resolve Unit := guarded () (Resolve.mark cls .concrete)

/-- Marks an interface as a bound protocol. -/
def markInterface (cls : ClassId) : Resolve Unit := guarded () (Resolve.mark cls .interface)

/-- Gives a function its selector. -/
def assignSelector (func : FuncId) (scope : ScopeId) : Resolve (Option Selector) :=
  guarded none (Resolve.assignSelector func scope)

/-- Checks a function's selector against its signature and its class. -/
def validateSelector (func : FuncId) : Resolve Unit := guarded () (Resolve.validateSelector func)

/-- Checks a function's linkage and records how calls to it are made. -/
def checkLinkage (func : FuncId) : Resolve Unit := guarded () (Resolve.checkLinkage func)

/-- Puts a function into the method list of a class. -/
def recordMethod (func : FuncId) (cls : ClassId) : Resolve Unit :=
  guarded () (Resolve.recordMethod func cls)

/-- Puts functions of a class body or group into a method list, and counts the new entries. -/
def recordMethods (source : MethodSource) (ofInstances ofClass : List FuncId) : Resolve Nat :=
  guarded 0 (Resolve.recordMethods source ofInstances ofClass)

/-- Puts the members of a group into a method list, each on its own side. -/
def recordGroup (group : GroupId) : Resolve Nat := do
  let p ← Resolve.program
  let (ofClass, ofInstances) := (p.groupAt group).members.partition fun f => (p.funcAt f).isStatic
  recordMethods (.group group) ofInstances ofClass

/-- Gives a function the hidden parameter, if it needs one. -/
def addSelectorParam (func : FuncId) (scope : ScopeId) : Resolve (Option ParamRef) :=
  guarded none (Resolve.addSelectorParam func scope)

/-- Links a class to its metaclass. -/
def resolveMetaclass (cls : ClassId) (scope : ScopeId) : Resolve Unit :=
  guarded () (Resolve.resolveMetaclass cls scope)

/-- The metaclass of a class, or the root metaclass for a metaclass. -/
def runtimeMetaclass (cls : ClassId) : Resolve (Option ClassId) :=
  guarded none (Resolve.runtimeMetaclass cls)

/-! ## Whole declarations -/

/-- Binds a method: its selector, its linkage, its hidden parameter in a new scope inside
`scope`, and its place in the method list of `cls`. -/
def bindMethod (func : FuncId) (cls : ClassId) (scope : ScopeId) : Resolve Unit := do
  let _ ← assignSelector func scope
  validateSelector func
  checkLinkage func
  let body ← Resolve.modifyGetProgram (·.addScope (some scope))
  let _ ← addSelectorParam func body
  recordMethod func cls

/-- Binds methods one after the other. An error that does not end the session was charged to
its method and is passed over. -/
def bindMethods (cls : ClassId) (scope : ScopeId) : List FuncId → Resolve Unit
  | [] => return ()
  | func :: rest => do
    tryCatch (bindMethod func cls scope) fun e => do
      if (← get).session.aborted then throw e
    bindMethods cls scope rest

/-- Binds a class or protocol with all its members. -/
def bindClass (cls : ClassId) (scope : ScopeId) : Resolve Unit := do
  match ((← Resolve.program).classAt cls).kind with
  | .concrete => markClass cls
  | .interface => markInterface cls
  resolveMetaclass cls scope
  bindMethods cls scope ((← Resolve.program).classAt cls).members

end Session

/-! ## Questions -/

namespace Compilation

/-- The answer `x` of the functional strategy; the inert one answers `neutral`. -/
def asked {α : Type} (c : Compilation) (neutral x : α) : α :=
  match c.session.strategy with
  | .functional => x
  | .inert => neutral

/-- Whether calls to the function are messages. -/
def isMessageSend (c : Compilation) (func : FuncId) : Bool :=
  c.asked false (c.program.isMessageSend func)

/-- The nearest class, from `cls` upward, that has the function's selector already. -/
def nearestDeclaring (c : Compilation) (func : FuncId) (cls : ClassId) : Option ClassId :=
  c.asked none (some (c.program.nearestDeclaring func cls))

/-- The type of the function's receiver. -/
def receiver? (c : Compilation) (func : FuncId) : Option ClassId :=
  c.asked none (c.program.receiver? func)

/-- What the code generator is to emit; nothing after the session was aborted. -/
def emission (c : Compilation) : Except BindError Emission :=
  if c.session.aborted then .error .sessionAborted
  else .ok (c.asked {} (.collect c.program c.session.selectors))

end Compilation

end ObjcBinding
