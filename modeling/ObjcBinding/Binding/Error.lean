import ObjcBinding.Decl.Declaration
import ObjcBinding.Decl.Scope
import ObjcBinding.Selector.Grammar

/-!
# Binding errors

Why a declaration cannot be bound to the runtime. Every cause but two concerns a declaration and
lets the work go on; a corruption of the bindings ends the session, and a session that has ended
refuses everything.

* `BindError.message` gives an error in words, `BindError.code` a code that stays the same when
  the words change;
* `BindError.isFatal` tells the two causes that end a session (`isFatal_iff`).
-/

namespace ObjcBinding

/-- Why a declaration cannot stand in the hierarchy of bound classes. -/
inductive HierarchyFault where
  | isConcrete
  | isInterface
  | nativeBase (name : String)
  | nativeInterface (name : String)
  deriving DecidableEq, Repr

/-- The fault in words. -/
def HierarchyFault.detail : HierarchyFault → String
  | isConcrete => "it is a class, not an interface"
  | isInterface => "it is an interface, not a class"
  | nativeBase name => s!"base class `{name}` is not an Objective-C class"
  | nativeInterface name => s!"interface `{name}` is not an Objective-C protocol"

/-- Why the header of a foreign class gives it no metaclass. -/
inductive HeaderFault where
  | undeclared
  | taken
  deriving DecidableEq, Repr

/-- The fault in words. -/
def HeaderFault.detail : HeaderFault → String
  | undeclared => "its header declares no metaclass"
  | taken => "its declared metaclass belongs to another class"

/-- How the bindings contradict themselves. -/
inductive Corruption where
  | symbolTaken (symbol : String) (existing : ScopeEntry)
  | pairedAlready (cls partner : String)
  | notMutual (cls metaclass : String)
  | pairsNothing (metaclass : String)
  deriving DecidableEq, Repr

/-- The contradiction in words. -/
def Corruption.detail : Corruption → String
  | symbolTaken symbol existing =>
    s!"metaclass symbol `{symbol}` is already declared as {existing.text}"
  | pairedAlready cls partner => s!"`{cls}` is already paired with `{partner}`"
  | notMutual cls metaclass =>
    s!"metaclass back-reference between `{cls}` and `{metaclass}` is not mutual"
  | pairsNothing metaclass => s!"metaclass `{metaclass}` mirrors no class"

/-- Why something cannot be bound. Names are given as texts, places as spans. -/
inductive BindError where
  | invalidSelector (text : String) (fault : Selector.Fault) (span : Span)
  | alreadyBound (name : String) (span : Span)
  | unsupportedBase (name : String) (fault : HierarchyFault) (span : Span)
  | arityMismatch (selector : String) (expected found : Nat) (span : Span)
  | selectorOutsideClass (func : String) (span : Span)
  | linkageConflict (func : String) (linkage : Linkage) (span : Span)
  | missingMetaclass (cls : String) (fault : HeaderFault) (span : Span)
  | unresolvedMetaclass (cls : String) (span : Span)
  | selectorCollision (selector cls : String) (isClassMethod : Bool) (span previous : Span)
  | multipleSelectors (func : String) (span : Span)
  | selectorOnTemplate (func : String) (span : Span)
  | notBound (name : String) (span : Span)
  | notMember (func cls : String) (span : Span)
  | corrupted (corruption : Corruption) (span : Span)
  | sessionAborted
  deriving DecidableEq, Repr

namespace BindError

/-- The place of the error. -/
def span : BindError → Span
  | invalidSelector _ _ span
  | alreadyBound _ span
  | unsupportedBase _ _ span
  | arityMismatch _ _ _ span
  | selectorOutsideClass _ span
  | linkageConflict _ _ span
  | missingMetaclass _ _ span
  | unresolvedMetaclass _ span
  | selectorCollision _ _ _ span _
  | multipleSelectors _ span
  | selectorOnTemplate _ span
  | notBound _ span
  | notMember _ _ span
  | corrupted _ span => span
  | sessionAborted => .synthesized

/-- A further place that the error points at. -/
def related? : BindError → Option Span
  | selectorCollision _ _ _ _ previous => some previous
  | _ => none

/-- The stable code of the cause. -/
def code : BindError → String
  | invalidSelector .. => "O0001"
  | alreadyBound .. => "O0002"
  | unsupportedBase .. => "O0003"
  | arityMismatch .. => "O0004"
  | selectorOutsideClass .. => "O0005"
  | linkageConflict .. => "O0006"
  | missingMetaclass .. => "O0007"
  | unresolvedMetaclass .. => "O0008"
  | selectorCollision .. => "O0009"
  | multipleSelectors .. => "O0010"
  | selectorOnTemplate .. => "O0011"
  | notBound .. => "O0012"
  | notMember .. => "O0013"
  | corrupted .. => "O0900"
  | sessionAborted => "O0901"

/-- The cause in a few words. -/
def description : BindError → String
  | invalidSelector .. => "invalid selector syntax"
  | alreadyBound .. => "duplicate Objective-C annotation"
  | unsupportedBase .. => "unsupported base for Objective-C type"
  | arityMismatch .. => "selector arity mismatch"
  | selectorOutsideClass .. => "selector on non-Objective-C type"
  | linkageConflict .. => "linkage conflict"
  | missingMetaclass .. => "missing extern metaclass"
  | unresolvedMetaclass .. => "metaclass not resolved"
  | selectorCollision .. => "selector collision"
  | multipleSelectors .. => "multiple selectors"
  | selectorOnTemplate .. => "selector on template"
  | notBound .. => "not an Objective-C type"
  | notMember .. => "method of another class"
  | corrupted .. => "internal invariant violated"
  | sessionAborted => "session aborted"

/-- Whether the error ends the session. -/
def isFatal : BindError → Bool
  | corrupted .. | sessionAborted => true
  | _ => false

theorem isFatal_iff {e : BindError} :
    e.isFatal = true ↔
      (∃ corruption span, e = .corrupted corruption span) ∨ e = .sessionAborted := by
  cases e <;> simp [isFatal]

/-- The error in words. -/
def message : BindError → String
  | invalidSelector text fault _ => s!"invalid Objective-C selector `{text}`: {fault.reason}"
  | alreadyBound name _ => s!"`{name}` is already an Objective-C declaration"
  | unsupportedBase name fault _ =>
    s!"`{name}` cannot be an Objective-C type: {fault.detail}"
  | arityMismatch selector expected found _ =>
    s!"selector `{selector}` takes {expected} argument(s) but the function has {found} " ++
      "parameter(s)"
  | selectorOutsideClass func _ =>
    s!"`{func}` has a selector but is not a member of an Objective-C class or interface"
  | linkageConflict func linkage _ =>
    s!"`{func}` must have Objective-C linkage to carry a selector, found {linkage.name} linkage"
  | missingMetaclass cls fault _ => s!"extern Objective-C class `{cls}`: {fault.detail}"
  | unresolvedMetaclass cls _ => s!"metaclass of `{cls}` requested before it was resolved"
  | selectorCollision selector cls isClassMethod _ _ =>
    let side := if isClassMethod then "class" else "instance"
    s!"{side} method selector `{selector}` is already declared in `{cls}`"
  | multipleSelectors func _ => s!"`{func}` can only have one Objective-C selector"
  | selectorOnTemplate func _ => s!"template `{func}` cannot have an Objective-C selector"
  | notBound name _ => s!"`{name}` is not an Objective-C class or interface"
  | notMember func cls _ =>
    s!"`{func}` is not a member of `{cls}` and cannot join its method list"
  | corrupted corruption _ => s!"internal error: {corruption.detail}"
  | sessionAborted => "interop session aborted by an earlier internal error"

end BindError

end ObjcBinding
