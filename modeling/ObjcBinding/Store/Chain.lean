/-!
# Following links

Superclasses and enclosing scopes are reached by following a link again and again. Links form
no cycles, so a walk never meets an element twice and is as long as the table of elements at
most; that length bounds the walk.

* `chain_succ`: a walk is its start and, one link further, a shorter walk;
* `chain_eq_of_ends`: once a walk has met an element without a link, more room changes nothing.
-/

namespace ObjcBinding

variable {α : Type}

/-- The elements met from `a` on along `next`, at most `bound` of them. -/
def chain (next : α → Option α) : Nat → α → List α
  | 0, _ => []
  | bound + 1, a =>
    a :: match next a with
      | some b => chain next bound b
      | none => []

theorem chain_succ (next : α → Option α) (bound : Nat) (a : α) :
    chain next (bound + 1) a =
      a :: match next a with
        | some b => chain next bound b
        | none => [] := rfl

/-- The walk from `a` meets an element without a link within `bound` elements. -/
inductive Ends (next : α → Option α) : Nat → α → Prop where
  | here {bound : Nat} {a : α} : next a = none → Ends next (bound + 1) a
  | step {bound : Nat} {a b : α} : next a = some b → Ends next bound b → Ends next (bound + 1) a

theorem chain_eq_of_ends {next : α → Option α} {bound : Nat} {a : α} (h : Ends next bound a) :
    ∀ more, chain next (bound + more) a = chain next bound a := by
  induction h with
  | here hn =>
    intro more
    rw [Nat.add_right_comm, chain_succ, chain_succ, hn]
  | step hn _ ih =>
    intro more
    rw [Nat.add_right_comm, chain_succ, chain_succ, hn]
    simp only [ih more]

end ObjcBinding
