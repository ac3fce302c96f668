import ObjcBinding.Text.Pieces

/-!
# The grammar of selectors

A selector is the name a method answers to at run time: one identifier for a method without
arguments, or one identifier and a colon for each argument.

* `arity` reads a text as a selector and gives the number of its arguments, or the first fault;
* `arity_eq_zero_iff`: exactly the identifiers are selectors without arguments;
* `arity_eq_count`: a selector has one argument for each colon.
-/

namespace ObjcBinding.Selector

/-- Why a text, or the name of a constant in its place, gives no selector. -/
inductive Fault where
  | empty
  | notIdentifier
  | unterminated
  | emptySegment
  | segmentNotIdentifier
  | notStringConstant
  deriving DecidableEq, Repr

/-- A fault in words. -/
def Fault.reason : Fault → String
  | empty => "selector is empty"
  | notIdentifier => "selector is not an identifier"
  | unterminated => "keyword selector must end with ':'"
  | emptySegment => "selector has an empty segment"
  | segmentNotIdentifier => "selector segment is not an identifier"
  | notStringConstant => "does not name a string constant"

/-- An ASCII letter or underscore, then ASCII letters, digits or underscores. -/
def isIdentifier : List Char → Bool
  | [] => false
  | c :: cs => (c.isAlpha || c == '_') && cs.all fun d => d.isAlphanum || d == '_'

/-- What is wrong with the text before one of the colons. -/
def segmentFault? (segment : List Char) : Option Fault :=
  if segment = [] then some .emptySegment
  else if isIdentifier segment then none
  else some .segmentNotIdentifier

/-- The number of arguments of the selector `text`, or its first fault. -/
def arity (text : String) : Except Fault Nat :=
  let cs := text.toList
  if cs = [] then .error .empty
  else if ':' ∉ cs then
    if isIdentifier cs then .ok 0 else .error .notIdentifier
  else if cs.getLast? ≠ some ':' then .error .unterminated
  else
    let segments := Text.pieces ':' cs.dropLast
    match segments.findSome? segmentFault? with
    | some fault => .error fault
    | none => .ok segments.length

theorem colon_notMem_of_isIdentifier {cs : List Char} (h : isIdentifier cs = true) :
    ':' ∉ cs := by
  cases cs with
  | nil => simp
  | cons c cs =>
    simp only [isIdentifier, Bool.and_eq_true, List.all_eq_true] at h
    intro hm
    rcases List.mem_cons.1 hm with rfl | hm
    · exact absurd h.1 (by decide)
    · exact absurd (h.2 _ hm) (by decide)

theorem arity_eq_zero_iff {text : String} :
    arity text = .ok 0 ↔ isIdentifier text.toList = true := by
  unfold arity
  constructor
  · intro h
    dsimp only at h
    split at h
    · cases h
    · split at h
      · split at h
        · assumption
        · cases h
      · split at h
        · cases h
        · split at h
          · cases h
          · exact absurd (List.length_eq_zero_iff.1 (Except.ok.inj h)) (Text.pieces_ne_nil _ _)
  · intro h
    have hn : text.toList ≠ [] := by
      intro e
      rw [e] at h
      cases h
    simp [hn, colon_notMem_of_isIdentifier h, h]

/-- A text that ends with a colon has as many pieces before it as it has colons. -/
theorem length_pieces_dropLast {cs : List Char} (h : cs.getLast? = some ':') :
    (Text.pieces ':' cs.dropLast).length = cs.count ':' := by
  obtain ⟨before, rfl⟩ := List.getLast?_eq_some_iff.1 h
  rw [List.dropLast_concat, Text.length_pieces, List.count_append, List.count_singleton_self]

theorem arity_eq_count {text : String} {n : Nat} (h : arity text = .ok n) :
    n = text.toList.count ':' := by
  simp only [arity] at h
  split at h
  · cases h
  · split at h
    case isTrue hcolon =>
      split at h
      · injection h with h
        rw [← h, List.count_eq_zero_of_not_mem hcolon]
      · cases h
    case isFalse hcolon =>
      split at h
      · cases h
      case isFalse hlast =>
        split at h
        · cases h
        · injection h with h
          rw [← h, length_pieces_dropLast (Decidable.not_not.1 hlast)]

end ObjcBinding.Selector
