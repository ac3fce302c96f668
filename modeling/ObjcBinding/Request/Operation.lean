import ObjcBinding.Binding.Session

/-!
# Operations and questions

What can be asked of a session, as data: an operation may change the compilation, a question
only reads it. Both are answered with a reply.

* `Operation.run` is the step that an operation stands for;
* `Query.ask` answers a question;
* `Program.isSome_methodsOf`: exactly the bound classes have a method list.
-/

namespace ObjcBinding

/-- What a session can be told to do. -/
inductive Operation where
  | internSelector (text : String) (arity : Nat)
  | markClass (cls : ClassId)
  | markInterface (cls : ClassId)
  | assignSelector (func : FuncId) (scope : ScopeId)
  | validateSelector (func : FuncId)
  | checkLinkage (func : FuncId)
  | recordMethod (func : FuncId) (cls : ClassId)
  | recordMethods (source : MethodSource) (ofInstances ofClass : List FuncId)
  | recordGroup (group : GroupId)
  | addSelectorParam (func : FuncId) (scope : ScopeId)
  | resolveMetaclass (cls : ClassId) (scope : ScopeId)
  | runtimeMetaclass (cls : ClassId)
  | bindMethod (func : FuncId) (cls : ClassId) (scope : ScopeId)
  | bindClass (cls : ClassId) (scope : ScopeId)
  deriving DecidableEq, Repr

/-- What can be asked about a compilation. -/
inductive Query where
  | isMessageSend (func : FuncId)
  | nearestDeclaring (func : FuncId) (cls : ClassId)
  | receiver (func : FuncId)
  | emission (name : Option String)
  | derivedSelector (func : FuncId)
  | findSelector (text : String) (arity : Nat)
  | selectorEntry (selector : Selector)
  | methods (cls : ClassId)
  | names (cls : Option ClassId) (func : Option FuncId)
  | strategy
  | aborted
  | rendered (colored : Bool)
  | snapshot
  deriving DecidableEq, Repr

/-- The value that answers a request. -/
inductive Reply where
  | done
  | flag (value : Bool)
  | count (n : Nat)
  | text (s : Option String)
  | symbol (s : Symbol)
  | selector (s : Option Selector)
  | classRef (id : Option ClassId)
  | funcRef (id : FuncId)
  | groupRef (id : GroupId)
  | scopeRef (id : ScopeId)
  | param (ref : Option ParamRef)
  | entry (e : Option ScopeEntry)
  | selectorEntry (text : String) (length arity : Nat)
  | methods (sides : Option (List FuncId × List FuncId))
  | names (cls func : Option String)
  | emission (e : Emission) (found : Option (Option ClassId))
  | snapshot (c : Compilation)

/-- The step that an operation stands for. -/
def Operation.run : Operation → Resolve Reply
  | internSelector text arity => return .selector (← Session.internSelector text arity)
  | markClass cls => do
    Session.markClass cls
    return .done
  | markInterface cls => do
    Session.markInterface cls
    return .done
  | assignSelector func scope => return .selector (← Session.assignSelector func scope)
  | validateSelector func => do
    Session.validateSelector func
    return .done
  | checkLinkage func => do
    Session.checkLinkage func
    return .done
  | recordMethod func cls => do
    Session.recordMethod func cls
    return .done
  | recordMethods source ofInstances ofClass =>
    return .count (← Session.recordMethods source ofInstances ofClass)
  | recordGroup group => return .count (← Session.recordGroup group)
  | addSelectorParam func scope => return .param (← Session.addSelectorParam func scope)
  | resolveMetaclass cls scope => do
    Session.resolveMetaclass cls scope
    return .done
  | runtimeMetaclass cls => return .classRef (← Session.runtimeMetaclass cls)
  | bindMethod func cls scope => do
    Session.bindMethod func cls scope
    return .done
  | bindClass cls scope => do
    Session.bindClass cls scope
    return .done

/-- The functions in the method list of a class, by side; none if the class is not bound. -/
def Program.methodsOf (p : Program) (cls : ClassId) : Option (List FuncId × List FuncId) :=
  (p.classAt cls).info.map fun i => ((i.side false).map (·.func), (i.side true).map (·.func))

theorem Program.isSome_methodsOf (p : Program) (cls : ClassId) :
    (p.methodsOf cls).isSome = (p.classAt cls).isBound := by
  rw [methodsOf, Option.isSome_map, ClassDecl.isBound]

/-- Answers a question. -/
def Query.ask (q : Query) (c : Compilation) : Except BindError Reply :=
  match q with
  | isMessageSend func => .ok (.flag (c.isMessageSend func))
  | nearestDeclaring func cls => .ok (.classRef (c.nearestDeclaring func cls))
  | receiver func => .ok (.classRef (c.receiver? func))
  | emission name => do
    let e ← c.emission
    return .emission e (name.map fun n => (e.find? n).map (·.cls))
  | derivedSelector func => .ok (.text (some (c.program.derivedSelector func)))
  | findSelector text arity => .ok (.selector (c.session.selectors.find? text arity))
  | selectorEntry s =>
    let t := c.session.selectors
    .ok (.selectorEntry (t.text s) (t.textLength s) (t.arity s))
  | methods cls => .ok (.methods (c.program.methodsOf cls))
  | names cls func => .ok (.names (cls.map c.program.className) (func.map c.program.funcName))
  | strategy => .ok (.text (some c.session.strategy.name))
  | aborted => .ok (.flag c.session.aborted)
  | rendered colored => .ok (.text (c.session.sink.render? colored))
  | snapshot => .ok (.snapshot c)

end ObjcBinding
