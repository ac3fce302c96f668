import ObjcBinding.Text.Blank
import ObjcBinding.Text.Pieces

/-!
# Logging

What is decided along the way is logged as messages. A logger writes those that are at least as
severe as its level, each on a line that starts with the level and the part of the program that
speaks.

* `Level.parse_name`: the name of a level is read as that level;
* `Logger.enabled_iff`: more severe levels have smaller numbers, and a message is written if its
  number does not exceed the logger's.
-/

namespace ObjcBinding.Log

/-- How severe a message is. -/
inductive Level where
  | error | warn | info | debug | trace
  deriving DecidableEq, Repr

namespace Level

/-- All levels, the most severe first. -/
def all : List Level := [error, warn, info, debug, trace]

/-- The upper-case name of a level. -/
def name : Level → String
  | error => "ERROR"
  | warn => "WARN"
  | info => "INFO"
  | debug => "DEBUG"
  | trace => "TRACE"

/-- The place of a level in the order of severity. -/
def number : Level → Nat
  | error => 0
  | warn => 1
  | info => 2
  | debug => 3
  | trace => 4

/-- The escape sequence that starts the colour of a level. -/
def colorCode : Level → String
  | error => "\x1b[31m"
  | warn => "\x1b[33m"
  | info => "\x1b[32m"
  | debug => "\x1b[36m"
  | trace => "\x1b[35m"

end Level

/-- A text that was to name a level and does not. -/
structure UnknownLevel where
  text : String
  deriving DecidableEq, Repr

def UnknownLevel.message (e : UnknownLevel) : String := "Invalid log level: " ++ e.text

/-- A text in lower case, as far as it is ASCII. -/
def foldCase (s : String) : String := String.ofList (s.toList.map Char.toLower)

/-- Reads the name of a level; the case of ASCII letters and blanks at the ends do not count. -/
def Level.parse (s : String) : Except UnknownLevel Level :=
  match Level.all.find? fun l => foldCase l.name == foldCase (Text.trim s) with
  | some l => .ok l
  | none => .error ⟨s⟩

theorem Level.parse_name (l : Level) : Level.parse l.name = .ok l := by
  cases l <;> rfl

/-- The parts of the program that speak. -/
inductive Origin where
  | annotations | metaclasses | methodLists | strategy | selectors | session
  deriving DecidableEq, Repr

/-- The path that stands for a part of the program in a log line. -/
def Origin.path : Origin → String
  | annotations => "objcx_interop::supported::annotate"
  | metaclasses => "objcx_interop::supported::metaclass"
  | methodLists => "objcx_interop::supported::methods"
  | strategy => "objcx_interop::strategy"
  | selectors => "objcx_interop::selector"
  | session => "objcx_interop::session"

/-- Something said along the way. -/
structure Message where
  level : Level
  target : String
  text : String
  deriving DecidableEq, Repr

/-- A message of one of the program's own parts. -/
def Message.of (level : Level) (origin : Origin) (text : String) : Message :=
  ⟨level, origin.path, text⟩

/-- The line of a message, the level in colour if asked for. -/
def Message.line (m : Message) (colored : Bool) : String :=
  let head := "[" ++ m.level.name ++ "]"
  (if colored then m.level.colorCode ++ head ++ "\x1b[0m" else head) ++
    " " ++ m.target ++ ": " ++ m.text

/-- The level up to which messages are written, and whether in colour. -/
structure Logger where
  level : Level
  colored : Bool
  deriving DecidableEq, Repr

namespace Logger

/-- Whether messages of level `l` are written. -/
def enabled (logger : Logger) (l : Level) : Bool := l.number ≤ logger.level.number

theorem enabled_iff {logger : Logger} {l : Level} :
    logger.enabled l = true ↔ l.number ≤ logger.level.number := by
  simp [enabled]

/-- The lines that the logger writes for `messages`. -/
def transcript (logger : Logger) (messages : List Message) : List String :=
  (messages.filter (logger.enabled ·.level)).flatMap fun m =>
    (Text.pieces '\n' (m.line logger.colored).toList).map String.ofList

end Logger

end ObjcBinding.Log
