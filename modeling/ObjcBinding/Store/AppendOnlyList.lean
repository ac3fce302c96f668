import ObjcBinding.Text.Quoted

/-!
# Lists that only grow at their end

The order in which values were put in is the order every reader sees, and a position once
issued keeps its value.

* `get?_push_self`, `get?_push_of_lt`: what a push does to the positions.
-/

namespace ObjcBinding

/-- A sequence without removal, insertion in the middle, or reordering. -/
structure AppendOnlyList (α : Type) where
  items : List α := []
  deriving DecidableEq, Repr

namespace AppendOnlyList

variable {α : Type}

instance : Inhabited (AppendOnlyList α) := ⟨{}⟩

/-- The number of values. -/
def length (l : AppendOnlyList α) : Nat := l.items.length

def isEmpty (l : AppendOnlyList α) : Bool := l.items.isEmpty

/-- The value at a position, if one was put there. -/
def get? (l : AppendOnlyList α) (pos : Nat) : Option α := l.items[pos]?

/-- Puts `x` at the end and returns its position. -/
def push (l : AppendOnlyList α) (x : α) : Nat × AppendOnlyList α :=
  (l.length, ⟨l.items ++ [x]⟩)

/-- The text of a list of texts, as messages show it. -/
def text (l : AppendOnlyList String) : String :=
  "AppendOnlyList \x7b items: " ++ Text.quoteList l.items ++ " \x7d"

theorem get?_push_self (l : AppendOnlyList α) (x : α) :
    (l.push x).2.get? (l.push x).1 = some x := by
  simp [push, get?, length]

theorem get?_push_of_lt (l : AppendOnlyList α) (x : α) {pos : Nat} (h : pos < l.length) :
    (l.push x).2.get? pos = l.get? pos := by
  simp only [push, get?]
  rw [List.getElem?_append_left h]

end AppendOnlyList

end ObjcBinding
