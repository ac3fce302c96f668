import ObjcBinding.Request.Operation
import ObjcBinding.Request.Source

/-!
# Requests

Everything a caller can do with a compilation: hand in declarations and edit them, run
operations, ask questions. A request that refers to something that does not exist is refused
and changes nothing, whatever the state of the session.

* `Compilation.answer` answers a request;
* `answer_of_unknown`: a request with an unknown reference has no effect.
-/

namespace ObjcBinding

/-- Something a request refers to. What a number refers to is not checked, but it must fit into
32 bits as every handle does. -/
inductive Reference where
  | classDecl (id : ClassId)
  | funcDecl (id : FuncId)
  | groupDecl (id : GroupId)
  | scope (id : ScopeId)
  | number (n : Nat)
  deriving DecidableEq, Repr

/-- Whether what is referred to exists. -/
def Program.has (p : Program) : Reference → Bool
  | .classDecl id => p.classes.contains id
  | .funcDecl id => p.funcs.contains id
  | .groupDecl id => p.groups.contains id
  | .scope id => p.scopes.contains id
  | .number n => n < 0x100000000

/-- What a caller can do with a compilation. -/
inductive Request where
  | addScope (parent : Option ScopeId)
  | declare (scope : ScopeId) (name : String) (entry : ScopeEntry)
  | lookup (scope : ScopeId) (name : String)
  | intern (name : String)
  | addClass (source : ClassSource)
  | addFunc (source : FuncSource)
  | addGroup (source : GroupSource)
  | editClass (cls : ClassId) (edit : ClassEdit)
  | editFunc (func : FuncId) (edit : FuncEdit)
  | editInfo (cls : ClassId) (edit : InfoEdit)
  | run (op : Operation)
  | ask (query : Query)

/-- Why a request has no reply. -/
inductive Refusal where
  | unknownReference
  | redeclared (existing : ScopeEntry)
  | binding (error : BindError)
  deriving DecidableEq, Repr

/-! ## References -/

/-- The handle in a scope entry. -/
def ScopeEntry.references : ScopeEntry → List Reference
  | .classDecl id => [.number id.index]
  | .funcDecl id => [.number id.index]
  | .param func _ => [.number func.index]
  | .constant _ => []

def MethodSource.references : MethodSource → List Reference
  | .body cls => [.classDecl cls]
  | .group id => [.groupDecl id]

def Operation.references : Operation → List Reference
  | internSelector .. => []
  | markClass cls | markInterface cls | runtimeMetaclass cls => [.classDecl cls]
  | assignSelector func scope | addSelectorParam func scope => [.funcDecl func, .scope scope]
  | validateSelector func | checkLinkage func => [.funcDecl func]
  | recordMethod func cls => [.funcDecl func, .classDecl cls]
  | recordMethods source ofInstances ofClass =>
    source.references ++ (ofInstances ++ ofClass).map .funcDecl
  | recordGroup group => [.groupDecl group]
  | resolveMetaclass cls scope | bindClass cls scope => [.classDecl cls, .scope scope]
  | bindMethod func cls scope => [.funcDecl func, .classDecl cls, .scope scope]

def Query.references : Query → List Reference
  | isMessageSend func | receiver func | derivedSelector func => [.funcDecl func]
  | nearestDeclaring func cls => [.funcDecl func, .classDecl cls]
  | methods cls => [.classDecl cls]
  | names cls func => (cls.map .classDecl).toList ++ (func.map .funcDecl).toList
  | emission _ | findSelector .. | selectorEntry _ | strategy | aborted | rendered _ | snapshot =>
    []

def ClassSource.references (s : ClassSource) : List Reference :=
  (s.base.toList ++ s.interfaces ++ s.foreignMetaclass.toList).map .classDecl

def FuncSource.references (s : FuncSource) : List Reference :=
  (s.parent.map .classDecl).toList ++ (s.group.map .groupDecl).toList

def ClassEdit.references (e : ClassEdit) : List Reference :=
  ((e.base.bind id).toList ++ e.interfaces.getD [] ++ (e.foreignMetaclass.bind id).toList).map
    .classDecl

def FuncEdit.references (e : FuncEdit) : List Reference :=
  ((e.parent.bind id).map .classDecl).toList

def InfoEdit.references (e : InfoEdit) : List Reference :=
  (e.paired.toList ++ e.superclass.toList).map .classDecl

/-- Everything that a request refers to. -/
def Request.references : Request → List Reference
  | addScope parent => (parent.map fun s => .number s.index).toList
  | declare scope _ entry => .scope scope :: entry.references
  | lookup scope _ => [.number scope.index]
  | intern _ => []
  | addClass source => source.references
  | addFunc source => source.references
  | addGroup source => [.classDecl source.target]
  | editClass cls edit => .classDecl cls :: edit.references
  | editFunc func edit => .funcDecl func :: edit.references
  | editInfo cls edit => .classDecl cls :: edit.references
  | run op => op.references
  | ask query => query.references

/-! ## Answers -/

namespace Compilation

/-- Changes the declarations of a compilation; this cannot fail. -/
def edit (c : Compilation) (x : StateM Program Reply) : Except Refusal Reply × Compilation :=
  let (reply, program) := x c.program
  (.ok reply, { c with program })

/-- Gives a name a meaning in a scope. -/
def declareName (c : Compilation) (scope : ScopeId) (name : String) (entry : ScopeEntry) :
    Except Refusal Reply × Compilation :=
  let (k, p) := c.program.intern name
  match p.declare scope k entry with
  | .ok p => (.ok .done, { c with program := p })
  | .error existing => (.error (.redeclared existing), { c with program := p })

/-- Answers a request all of whose references exist. -/
def perform (c : Compilation) : Request → Except Refusal Reply × Compilation
  | .addScope parent => c.edit (.scopeRef <$> modifyGet (·.addScope parent))
  | .declare scope name entry => c.declareName scope name entry
  | .lookup scope name => c.edit do
    let k ← modifyGet (·.intern name)
    return .entry ((← get).lookup scope k)
  | .intern name => c.edit (.symbol <$> modifyGet (·.intern name))
  | .addClass source => c.edit ((fun id => .classRef (some id)) <$> source.declare)
  | .addFunc source => c.edit (.funcRef <$> source.declare)
  | .addGroup source => c.edit (.groupRef <$> source.declare)
  | .editClass cls e => c.edit ((fun _ => .done) <$> e.apply cls)
  | .editFunc func e => c.edit ((fun _ => .done) <$> e.apply func)
  | .editInfo cls e => c.edit ((fun _ => .done) <$> e.apply cls)
  | .run op =>
    match op.run c with
    | .ok reply d => (.ok reply, d)
    | .error e d => (.error (.binding e), d)
  | .ask query =>
    match query.ask c with
    | .ok reply => (.ok reply, c)
    | .error e => (.error (.binding e), c)

/-- Answers a request. -/
def answer (c : Compilation) (r : Request) : Except Refusal Reply × Compilation :=
  if r.references.all c.program.has then c.perform r else (.error .unknownReference, c)

theorem answer_of_unknown {c : Compilation} {r : Request} {x : Reference}
    (hx : x ∈ r.references) (h : c.program.has x = false) :
    c.answer r = (.error .unknownReference, c) := by
  rw [answer, if_neg]
  intro hall
  rw [List.all_eq_true] at hall
  rw [hall x hx] at h
  cases h

end Compilation

/-- An answer, with the diagnostics that were reported and the messages that were said for it. -/
structure Exchange where
  reply : Except Refusal Reply
  diagnostics : List Diagnostic
  messages : List Log.Message

/-- Answers a request and reads off what was reported and said. -/
def Compilation.exchange (c : Compilation) (r : Request) : Exchange × Compilation :=
  let (reply, d) := { c with log := #[] }.answer r
  ({ reply
     diagnostics := d.session.sink.items.drop c.session.sink.items.length
     messages := d.log.toList }, d)

end ObjcBinding
