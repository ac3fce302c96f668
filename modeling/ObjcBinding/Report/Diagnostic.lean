import ObjcBinding.Report.Span

/-!
# Diagnostics

Problems found in the source are handed to a sink, which keeps them in the order of their
report. One kind of sink can also write them out as text, one line for each diagnostic and one
for each of its notes.

* `Severity.rank_milder`: the less severe of two is the one that comes later;
* `Sink.items_report`: reporting puts one diagnostic at the end;
* `Diagnostics.errorCount_push`: the number of errors grows exactly with an error.
-/

namespace ObjcBinding

/-- How grave a diagnostic is. -/
inductive Severity where
  | error | warning | note
  deriving DecidableEq, Repr

namespace Severity

/-- The word for a severity. -/
def name : Severity → String
  | error => "error"
  | warning => "warning"
  | note => "note"

/-- The escape sequence that starts the colour of a severity. -/
def colorCode : Severity → String
  | error => "\x1b[31m"
  | warning => "\x1b[33m"
  | note => "\x1b[36m"

/-- The word for a severity, in its colour if asked for. -/
def display (s : Severity) (colored : Bool) : String :=
  if colored then s.colorCode ++ s.name ++ "\x1b[0m" else s.name

/-- The most severe kind comes first. -/
def rank : Severity → Nat
  | error => 0
  | warning => 1
  | note => 2

/-- The less severe of two. -/
def milder (a b : Severity) : Severity := if a.rank < b.rank then b else a

theorem rank_milder (a b : Severity) : (a.milder b).rank = max a.rank b.rank := by
  cases a <;> cases b <;> rfl

end Severity

/-- A further place that a diagnostic points at. -/
structure Note where
  message : String
  span : Span
  deriving DecidableEq, Repr

/-- A problem, its place, and a stable code if it has one. -/
structure Diagnostic where
  severity : Severity
  code : Option String
  message : String
  span : Span
  notes : List Note
  deriving DecidableEq, Repr

namespace Diagnostic

/-- An error without code and notes. -/
def error (message : String) (span : Span) : Diagnostic := ⟨.error, none, message, span, []⟩

def isError (d : Diagnostic) : Bool := d.severity = .error

/-- The line of a diagnostic and the lines of its notes. -/
def render (d : Diagnostic) (colored : Bool) : String :=
  let code := match d.code with
    | some c => "[" ++ c ++ "]"
    | none => ""
  let note (n : Note) : String :=
    "   " ++ Severity.note.display colored ++ " at " ++ n.span.place ++ ": " ++ n.message ++ "\n"
  d.span.place ++ ": " ++ d.severity.display colored ++ code ++ ": " ++ d.message ++ "\n" ++
    String.join (d.notes.map note)

end Diagnostic

/-- Diagnostics in the order of their report. -/
structure Diagnostics where
  items : Array Diagnostic := #[]
  deriving DecidableEq, Repr

namespace Diagnostics

instance : Inhabited Diagnostics := ⟨{}⟩

def size (ds : Diagnostics) : Nat := ds.items.size

def isEmpty (ds : Diagnostics) : Bool := ds.items.isEmpty

def push (ds : Diagnostics) (d : Diagnostic) : Diagnostics := ⟨ds.items.push d⟩

/-- The number of errors among the diagnostics. -/
def errorCount (ds : Diagnostics) : Nat := ds.items.countP (·.isError)

def hasErrors (ds : Diagnostics) : Bool := 0 < ds.errorCount

/-- All diagnostics as text. -/
def render (ds : Diagnostics) (colored : Bool) : String :=
  String.join (ds.items.toList.map (·.render colored))

/-- The least severe kind that occurs. -/
def mildest (ds : Diagnostics) : Option Severity :=
  ds.items.foldl (fun acc d => some ((acc.getD d.severity).milder d.severity)) none

theorem errorCount_push (ds : Diagnostics) (d : Diagnostic) :
    (ds.push d).errorCount = ds.errorCount + if d.isError then 1 else 0 := by
  simp [errorCount, push, Array.countP_push]

end Diagnostics

/-- Where diagnostics go: `renders` tells a collector, which can write them out, from a plain
list. -/
structure Sink where
  renders : Bool
  collected : Diagnostics := {}
  deriving DecidableEq, Repr

namespace Sink

/-- The diagnostics that have reached the sink. -/
def items (s : Sink) : List Diagnostic := s.collected.items.toList

/-- Takes one diagnostic in. -/
def report (s : Sink) (d : Diagnostic) : Sink := { s with collected := s.collected.push d }

/-- The diagnostics as text, if the sink can write them out. -/
def render? (s : Sink) (colored : Bool) : Option String :=
  if s.renders then some (s.collected.render colored) else none

theorem items_report (s : Sink) (d : Diagnostic) : (s.report d).items = s.items ++ [d] := by
  simp [items, report, Diagnostics.push]

end Sink

end ObjcBinding
