import ObjcBinding.Binding.Error
import ObjcBinding.Config.Target
import ObjcBinding.Decl.Program
import ObjcBinding.Report.Diagnostic
import ObjcBinding.Report.Log

/-!
# Compilations and sessions

A compilation is its declarations together with the session that binds them: the strategy, the
interned selectors, the sink for diagnostics, and whether a corruption has ended the session.
What is said along the way is kept beside them.

A binding step (`Resolve`) reads and changes a compilation and ends with a value or an error; an
error does not undo what was changed before it. Each error is reported before it is raised, in
one of three ways:

* `reject` charges it to a declaration, which becomes invalid;
* `refuse` charges it to none;
* `abort` also ends the session.

What a step does to a compilation is said by the lemmas whose names end in `apply`.
-/

namespace ObjcBinding

/-- The state of binding, apart from the declarations. -/
structure Session where
  strategy : Strategy
  sink : Sink
  selectors : Selector.Table := .empty
  aborted : Bool := false

/-- The declarations of a compilation, the session that binds them, and what was said since the
log was last read. -/
structure Compilation where
  program : Program := {}
  session : Session
  log : Array Log.Message := #[]

/-- The declaration that an error is charged to. -/
inductive Culprit where
  | classDecl (id : ClassId)
  | funcDecl (id : FuncId)
  deriving DecidableEq, Repr

/-- A step that reads and changes a compilation and may fail. -/
abbrev Resolve (α : Type) : Type := EStateM BindError Compilation α

/-- The diagnostic of an error: its text, code and place, and the other place if it has one. -/
def BindError.diagnostic (e : BindError) : Diagnostic where
  severity := .error
  code := some e.code
  message := e.message
  span := e.span
  notes := (e.related?.map fun span => ⟨"previously declared here", span⟩).toList

namespace Compilation

/-- An empty compilation. -/
def new (strategy : Strategy) (renders : Bool) : Compilation :=
  { session := { strategy, sink := { renders } }
    log := #[.of .debug .session s!"new interop session ({strategy.name})"] }

/-- Adds a message to the log. -/
def say (c : Compilation) (level : Log.Level) (origin : Log.Origin) (text : String) :
    Compilation :=
  { c with log := c.log.push (.of level origin text) }

/-- Hands an error to the sink. -/
def report (c : Compilation) (e : BindError) : Compilation :=
  { c with session := { c.session with sink := c.session.sink.report e.diagnostic } }

/-- Makes a declaration invalid; calls to an invalid function cannot be made. -/
def charge (c : Compilation) : Culprit → Compilation
  | .classDecl id =>
    { c with program := c.program.modifyClass id fun d => { d with invalid := true } }
  | .funcDecl id =>
    let invalidate (d : FuncDecl) : FuncDecl :=
      { d with
        invalid := true
        info := d.info.map fun i => { i with dispatch := .unsupported } }
    { c with program := c.program.modifyFunc id invalidate }

end Compilation

namespace Resolve

variable {α : Type}

/-- The declarations as they are now. -/
def program : Resolve Program := do return (← get).program

/-- The selectors interned so far. -/
def selectors : Resolve Selector.Table := do return (← get).session.selectors

/-- Changes the declarations. -/
def updateProgram (f : Program → Program) : Resolve Unit :=
  modify fun c => { c with program := f c.program }

/-- Changes the declarations and gives a value. -/
def modifyGetProgram (f : Program → α × Program) : Resolve α :=
  modifyGet fun c =>
    let (a, program) := f c.program
    (a, { c with program })

/-- Adds a message to the log. -/
def say (level : Log.Level) (origin : Log.Origin) (text : String) : Resolve Unit :=
  modify (·.say level origin text)

/-- Reports an error, charges it to `culprit`, and raises it. -/
def reject (culprit : Culprit) (e : BindError) : Resolve α := do
  modify fun c => ((c.charge culprit).say .debug .strategy s!"rejected: {e.message}").report e
  throw e

/-- Reports an error of the request rather than of a declaration, and raises it. -/
def refuse (e : BindError) : Resolve α := do
  modify fun c => (c.say .debug .strategy s!"refused: {e.message}").report e
  throw e

/-- Ends the session with a corruption found at `span`. -/
def abort (corruption : Corruption) (span : Span) : Resolve α := do
  let e := BindError.corrupted corruption span
  modify fun c =>
    ({ c with session := { c.session with aborted := true } }.say .error .strategy
      s!"{e.message} at {span.place}").report e
  throw e

theorem program_apply (c : Compilation) : program c = .ok c.program c := rfl

theorem selectors_apply (c : Compilation) : selectors c = .ok c.session.selectors c := rfl

/-- A sequence of steps runs the second from where the first has ended well. -/
theorem bind_apply {β : Type} (x : Resolve α) (f : α → Resolve β) (c : Compilation) :
    (x >>= f) c = match x c with
      | .ok a d => f a d
      | .error e d => .error e d := by
  simp only [bind, EStateM.bind]
  cases x c <;> rfl

/-- A handler goes on from where the step has failed. -/
theorem tryCatch_apply (x : Resolve α) (handler : BindError → Resolve α) (c : Compilation) :
    tryCatch x handler c = match x c with
      | .ok a d => .ok a d
      | .error e d => handler e d := by
  change EStateM.tryCatch x handler c = _
  delta EStateM.tryCatch
  dsimp only
  cases x c <;> rfl

theorem reject_apply (culprit : Culprit) (e : BindError) (c : Compilation) :
    (reject culprit e : Resolve α) c =
      .error e
        (((c.charge culprit).say .debug .strategy s!"rejected: {e.message}").report e) := rfl

theorem refuse_apply (e : BindError) (c : Compilation) :
    (refuse e : Resolve α) c =
      .error e ((c.say .debug .strategy s!"refused: {e.message}").report e) := rfl

end Resolve

end ObjcBinding
