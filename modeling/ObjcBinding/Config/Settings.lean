import ObjcBinding.Config.Target
import ObjcBinding.Report.Log

/-!
# Settings

What a compilation is told from outside: its target, and possibly a log level.

* `Settings.parseTarget_eq_ok_iff`, `Settings.parseLevel_eq_ok_iff`: settings read targets and
  levels as those are read by themselves, and only word the failure differently.
-/

namespace ObjcBinding

/-- Why a compilation cannot be set up. -/
inductive ConfigError where
  | invalidTriple (triple : String)
  | invalidLogLevel (value : String)
  | strategyConflict (active requested : Strategy)
  deriving DecidableEq, Repr

/-- The error in words. -/
def ConfigError.message : ConfigError → String
  | invalidTriple triple => "invalid target triple: " ++ Text.quote triple
  | invalidLogLevel value => "invalid log level: " ++ Text.quote value
  | strategyConflict active requested =>
    "Objective-C strategy already initialised as " ++ active.name ++ ", cannot switch to " ++
      requested.name

/-- The target of a compilation, and the log level if it is to be changed. -/
structure Settings where
  target : Target
  logLevel : Option Log.Level := none
  deriving DecidableEq, Repr

/-- Reads a target triple as part of the settings. -/
def Settings.parseTarget (triple : String) : Except ConfigError Target :=
  match Target.parse triple with
  | .ok t => .ok t
  | .error e => .error (.invalidTriple e.triple)

/-- Reads a log level as part of the settings. -/
def Settings.parseLevel (value : String) : Except ConfigError Log.Level :=
  match Log.Level.parse value with
  | .ok l => .ok l
  | .error _ => .error (.invalidLogLevel value)

namespace Settings

theorem parseTarget_eq_ok_iff {s : String} {t : Target} :
    parseTarget s = .ok t ↔ Target.parse s = .ok t := by
  unfold parseTarget
  cases Target.parse s <;> simp

theorem parseLevel_eq_ok_iff {s : String} {l : Log.Level} :
    parseLevel s = .ok l ↔ Log.Level.parse s = .ok l := by
  unfold parseLevel
  cases Log.Level.parse s <;> simp

end Settings

end ObjcBinding
