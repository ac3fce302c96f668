import ObjcBinding.Binding.Compilation
import ObjcBinding.Config.Settings

/-!
# The environment of compilations

What lives as long as the process: the environment variables, the strategy once it is chosen, and
the logger. The logger is made when it is first needed; whether it writes in colour depends on
the variables at that moment and does not change afterwards.

* `choose_of_active`: a chosen strategy stays;
* `write_nil`: a silent step does not make the logger.
-/

namespace ObjcBinding

/-- The variable that holds the target triple. -/
def targetVariable : String := "OBJCX_TARGET"

/-- The variable that holds the log level. -/
def levelVariable : String := "OBJCX_LOG"

/-- The variable that turns colours off, whatever it holds. -/
def plainVariable : String := "NO_COLOR"

/-- What lives as long as the process. -/
structure Environment where
  vars : List (String × String) := []
  /-- The target of the process itself, taken where no other is named. -/
  host : Target := ⟨.x86_64, .linux⟩
  active : Option Strategy := none
  logger : Option Log.Logger := none

namespace Environment

/-- The value of a variable. -/
def value? (e : Environment) (name : String) : Option String := e.vars.lookup name

/-- Sets a variable, or removes it. -/
def setVariable (e : Environment) (name : String) (value : Option String) : Environment :=
  let others := e.vars.filter (·.1 != name)
  { e with vars := others ++ (value.map (name, ·)).toList }

/-! ## The logger -/

/-- The logger as it is, or as it would be made now. -/
def currentLogger (e : Environment) : Log.Logger :=
  e.logger.getD ⟨.warn, (e.value? plainVariable).isNone⟩

/-- Makes the logger if there is none. -/
def withLogger (e : Environment) : Environment := { e with logger := some e.currentLogger }

/-- The level up to which messages are written. -/
def level (e : Environment) : Log.Level := e.currentLogger.level

/-- Changes the level. -/
def setLevel (e : Environment) (l : Log.Level) : Environment :=
  { e with logger := some { e.currentLogger with level := l } }

/-- Changes the level to the one that a variable names, if it is set. -/
def readLevel (e : Environment) (name : String) : Except Log.UnknownLevel Environment :=
  match e.value? name with
  | none => .ok e.withLogger
  | some value => (Log.Level.parse value).map e.setLevel

/-- Writes messages: the lines written. Any message, also one that is not written, needs the
logger. -/
def write (e : Environment) (messages : List Log.Message) : List String × Environment :=
  if messages.isEmpty then ([], e)
  else (e.currentLogger.transcript messages, e.withLogger)

theorem write_nil (e : Environment) : e.write [] = ([], e) := rfl

/-! ## Settings and strategy -/

/-- The settings that the variables give. -/
def settings (e : Environment) : Except ConfigError Settings := do
  let target ← match e.value? targetVariable with
    | some triple => Settings.parseTarget triple
    | none => pure e.host
  let logLevel ← match e.value? levelVariable with
    | some value => some <$> Settings.parseLevel value
    | none => pure none
  return { target, logLevel }

/-- Changes the log level to that of the settings, if they have one. -/
def apply (e : Environment) (s : Settings) : Environment :=
  match s.logLevel with
  | some l => e.setLevel l
  | none => e

/-- What is said when a strategy is chosen for the first time. -/
def choiceMessages (e : Environment) (t : Target) : List Log.Message :=
  match e.active with
  | some _ => []
  | none =>
    [.of .info .strategy
      s!"Objective-C strategy for {t.display}: {(Strategy.forTarget t).name}"]

/-- Chooses the strategy that a target calls for. The first choice counts; later ones must agree
with it. -/
def choose (e : Environment) (t : Target) : Except ConfigError Strategy × Environment :=
  let requested := Strategy.forTarget t
  match e.active with
  | none => (.ok requested, { e with active := some requested })
  | some active =>
    if active = requested then (.ok active, e)
    else (.error (.strategyConflict active requested), e)

theorem choose_of_active {e : Environment} {s : Strategy} (h : e.active = some s) (t : Target) :
    (e.choose t).2 = e ∧
      ((e.choose t).1 = .ok s ↔ Strategy.forTarget t = s) := by
  unfold choose
  simp only [h]
  split
  · rename_i hs
    exact ⟨rfl, fun _ => hs.symm, fun _ => rfl⟩
  · rename_i hs
    exact ⟨rfl, (nomatch ·), fun e => absurd e.symm hs⟩

/-- Opens a compilation with the strategy of the process. The log level of the settings comes
into force first. -/
def openCompilation (e : Environment) (s : Settings) (renders : Bool) :
    Except ConfigError Compilation × Environment :=
  let (chosen, e) := (e.apply s).choose s.target
  (chosen.map (Compilation.new · renders), e)

end Environment

end ObjcBinding
