import ObjcBinding.Decl.Annotation

/-!
# Scopes

A scope gives names a meaning and may be nested in another one. A name is declared once in a
scope; a second declaration is refused and changes nothing.

* `local?_declare`: a new declaration is seen under its name only;
* `declare_eq_error_iff`: it is refused exactly if the name has a meaning there already.
-/

namespace ObjcBinding

/-- What a name stands for. -/
inductive ScopeEntry where
  | classDecl (id : ClassId)
  | funcDecl (id : FuncId)
  | param (func : FuncId) (index : Nat)
  | constant (text : String)
  deriving DecidableEq, Repr

/-- The text of an entry, as messages show it. -/
def ScopeEntry.text : ScopeEntry → String
  | classDecl id => "Class(" ++ id.text ++ ")"
  | funcDecl id => "Func(" ++ id.text ++ ")"
  | param func index => "Param \x7b func: " ++ func.text ++ s!", index: {index} \x7d"
  | constant text => "StringConst(" ++ Text.quote text ++ ")"

/-- Names and their meaning, in the order of declaration, and the enclosing scope. -/
structure Scope where
  parent : Option ScopeId
  entries : List (Symbol × ScopeEntry) := []
  deriving DecidableEq, Repr, Inhabited

namespace Scope

/-- The number of names declared here. -/
def size (s : Scope) : Nat := s.entries.length

def isEmpty (s : Scope) : Bool := s.entries.isEmpty

/-- The meaning that this scope itself gives to a name. -/
def local? (s : Scope) (name : Symbol) : Option ScopeEntry := s.entries.lookup name

/-- Gives a name its meaning, or returns the one it has already. -/
def declare (s : Scope) (name : Symbol) (entry : ScopeEntry) : Except ScopeEntry Scope :=
  match s.local? name with
  | some existing => .error existing
  | none => .ok { s with entries := s.entries ++ [(name, entry)] }

theorem declare_eq_error_iff {s : Scope} {name : Symbol} {entry existing : ScopeEntry} :
    s.declare name entry = .error existing ↔ s.local? name = some existing := by
  unfold declare
  cases s.local? name <;> simp

theorem lookup_append_singleton {α β : Type} [BEq α] [LawfulBEq α] (l : List (α × β)) (k m : α)
    (v : β) : (l ++ [(k, v)]).lookup m = (l.lookup m).or (if m == k then some v else none) := by
  induction l with
  | nil =>
    simp only [List.nil_append, List.lookup_cons, List.lookup_nil, Option.none_or]
    split <;> simp_all
  | cons e l ih =>
    obtain ⟨a, w⟩ := e
    simp only [List.cons_append, List.lookup_cons]
    by_cases h : m == a
    · simp [h]
    · simpa [h] using ih

theorem local?_declare {s t : Scope} {name : Symbol} {entry : ScopeEntry}
    (h : s.declare name entry = .ok t) (other : Symbol) :
    t.local? other = if other = name then some entry else s.local? other := by
  unfold declare at h
  split at h
  · cases h
  · rename_i hn
    cases h
    rw [local?, lookup_append_singleton]
    by_cases he : other = name
    · subst he
      rw [local?] at hn
      simp [hn]
    · simp [he, local?]

end Scope

end ObjcBinding
