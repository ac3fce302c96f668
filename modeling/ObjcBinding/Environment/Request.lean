import ObjcBinding.Environment.Basic

/-!
# Requests to the environment

What a process can be asked to do besides binding: choosing a strategy, reading settings, logging,
and opening compilations.

* `Environment.answer` answers a request and gives the lines that were written meanwhile.
-/

namespace ObjcBinding

/-- What can be asked of the environment. -/
inductive EnvironmentRequest where
  | choose (triple : String)
  | active
  | setVariable (name : String) (value : Option String)
  | settings (apply : Bool)
  | setLevel (text : String)
  | level
  | enabled (level : Log.Level)
  | readLevel (name : String)
  | log (level : Log.Level) (target text : String)
  | openCompilation (triple : String) (level : Option String) (renders : Bool)

/-- The value that answers a request to the environment. -/
inductive EnvironmentReply where
  | done
  | strategy (s : Option Strategy)
  | settings (s : Settings)
  | level (l : Log.Level)
  | flag (b : Bool)
  | opened (c : Compilation)

/-- Why a request to the environment has no reply. -/
inductive EnvironmentRefusal where
  | config (e : ConfigError)
  | level (e : Log.UnknownLevel)
  deriving DecidableEq, Repr

namespace Environment

/-- A step that reads and changes the environment, may be refused, and says messages. -/
abbrev Step (α : Type) : Type :=
  ExceptT EnvironmentRefusal (StateM (Environment × List Log.Message)) α

namespace Step

/-- Reads the name of a level. -/
def readLevelName (text : String) : Step Log.Level :=
  match Log.Level.parse text with
  | .ok l => return l
  | .error e => throw (.level e)

/-- Reads a target triple. -/
def readTarget (triple : String) : Step Target :=
  match Settings.parseTarget triple with
  | .ok t => return t
  | .error e => throw (.config e)

/-- The environment as it is. -/
def environment : Step Environment := do return (← get).1

/-- Changes the environment. -/
def update (f : Environment → Environment) : Step Unit := modify fun s => (f s.1, s.2)

/-- Says messages. -/
def say (messages : List Log.Message) : Step Unit := modify fun s => (s.1, s.2 ++ messages)

/-- Takes over the outcome of a change that may fail because of the configuration. -/
def settle {α : Type} (f : Environment → Except ConfigError α × Environment) : Step α := do
  let (outcome, e) := f (← environment)
  update fun _ => e
  match outcome with
  | .ok a => return a
  | .error e => throw (.config e)

/-- The step that answers a request. -/
def of : EnvironmentRequest → Step EnvironmentReply
  | .choose triple => do
    let t ← readTarget triple
    say ((← environment).choiceMessages t)
    return .strategy (some (← settle (·.choose t)))
  | .active => return .strategy (← environment).active
  | .setVariable name value => do
    update (·.setVariable name value)
    return .done
  | .settings apply => do
    let s ← settle fun e => (e.settings, e)
    if apply then update (·.apply s)
    return .settings s
  | .setLevel text => do
    let l ← readLevelName text
    update (·.setLevel l)
    return .done
  | .level => do
    update (·.withLogger)
    return .level (← environment).level
  | .enabled level => do
    update (·.withLogger)
    return .flag ((← environment).currentLogger.enabled level)
  | .readLevel name => do
    match (← environment).readLevel name with
    | .ok e =>
      update fun _ => e
      return .level e.level
    | .error e => throw (.level e)
  | .log level target text => do
    say [⟨level, target, text⟩]
    return .done
  | .openCompilation triple level renders => do
    let target ← readTarget triple
    let logLevel ← level.mapM readLevelName
    let s : Settings := { target, logLevel }
    say ((← environment).choiceMessages target)
    let c ← settle (·.openCompilation s renders)
    say c.log.toList
    return .opened { c with log := #[] }

end Step

/-- Answers a request and gives the lines written meanwhile. -/
def answer (e : Environment) (r : EnvironmentRequest) :
    Except EnvironmentRefusal EnvironmentReply × List String × Environment :=
  let (reply, e, messages) := (Step.of r).run (e, [])
  let (lines, e) := e.write messages
  (reply, lines, e)

end Environment

end ObjcBinding
