/-!
# Source positions

A span says which bytes of the source a declaration or a complaint is about, and at which line
and column they start. What the compiler makes itself has line zero.

* `merge_length`: merging covers the source from the start of the one to the end of the other.
-/

namespace ObjcBinding

/-- Bytes from `start` to before `stop`, starting at `line` and `col`. -/
@[ext]
structure Span where
  start : Nat
  stop : Nat
  line : Nat
  col : Nat
  deriving DecidableEq, Repr, Inhabited

namespace Span

/-- The span of what the compiler makes itself. -/
def synthesized : Span := ⟨0, 0, 0, 0⟩

/-- An empty span at one position. -/
def point (offset line col : Nat) : Span := ⟨offset, offset, line, col⟩

/-- From the start of `left` to the end of `right`. -/
def merge (left right : Span) : Span := { left with stop := right.stop }

/-- The number of bytes covered; zero if the end lies before the start. -/
def length (s : Span) : Nat := s.stop - s.start

def isEmpty (s : Span) : Bool := s.start = s.stop

def isSynthesized (s : Span) : Bool := s.line = 0

/-- Where the span starts, as messages show it. -/
def place (s : Span) : String :=
  if s.isSynthesized then "<synthesized>" else s!"{s.line}:{s.col}"

/-- All fields of the span, as messages show it. -/
def text (s : Span) : String :=
  s!"Span \x7b start: {s.start}, end: {s.stop}, line: {s.line}, col: {s.col} \x7d"

theorem merge_length {a b : Span} (h : a.start ≤ b.start) (hb : b.start ≤ b.stop) :
    (merge a b).length = b.start - a.start + b.length := by
  simp only [merge, length]
  omega

end Span

end ObjcBinding
