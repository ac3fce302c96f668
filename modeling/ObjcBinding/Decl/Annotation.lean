import ObjcBinding.Selector.Table
import ObjcBinding.Store.AppendOnlyList
import ObjcBinding.Store.Arena
import ObjcBinding.Store.Interner

/-!
# Annotations of declarations

A class or function that is bound to the Objective-C runtime carries an annotation. That of a
class names its other half in the class/metaclass pair, its superclass, and its method list;
that of a function its selector and how calls to it are made.

* `ClassInfo.setPaired_eq_ok_iff`: a partner is recorded exactly if none or the same one was;
* `ClassInfo.findMethod_pushMethod`: a new entry is found last.
-/

namespace ObjcBinding

/-- The handle of a class or protocol. -/
abbrev ClassId := Handle .classDecl
/-- The handle of a function. -/
abbrev FuncId := Handle .funcDecl
/-- The handle of a declaration group. -/
abbrev GroupId := Handle .groupDecl
/-- The handle of a scope. -/
abbrev ScopeId := Handle .scope

/-- The two halves of a class: the one with the instances, and the one that holds the methods
of the class itself. -/
inductive Role where
  | ordinary | metaclass
  deriving DecidableEq, Repr

/-- A method in the list of a class: what it answers to, and on which side. -/
structure MethodEntry where
  selector : Selector
  func : FuncId
  isClassMethod : Bool
  deriving DecidableEq, Repr

/-- The annotation of a class, protocol or metaclass. -/
structure ClassInfo where
  name : Symbol
  role : Role
  foreign : Bool
  paired : Option ClassId
  superclass : Option ClassId
  methods : AppendOnlyList MethodEntry := {}
  deriving DecidableEq, Repr

namespace ClassInfo

/-- The annotation of a class or protocol, not yet paired. -/
def ofClass (name : Symbol) (foreign : Bool) (superclass : Option ClassId) : ClassInfo :=
  { name, role := .ordinary, foreign, paired := none, superclass }

/-- The annotation of the metaclass of `cls`. -/
def ofMetaclass (name : Symbol) (foreign : Bool) (cls : ClassId) (superclass : Option ClassId) :
    ClassInfo :=
  { name, role := .metaclass, foreign, paired := some cls, superclass }

def isMetaclass (i : ClassInfo) : Bool := i.role = .metaclass

/-- Whether there is no superclass. -/
def isRoot (i : ClassInfo) : Bool := i.superclass.isNone

/-- Records the other half, unless another one is recorded already: then gives that one. -/
def setPaired (i : ClassInfo) (partner : ClassId) : Except ClassId ClassInfo :=
  match i.paired with
  | some existing =>
    if existing = partner then .ok { i with paired := some partner } else .error existing
  | none => .ok { i with paired := some partner }

/-- The entry for `selector` on one side. -/
def findMethod (i : ClassInfo) (selector : Selector) (isClassMethod : Bool) :
    Option MethodEntry :=
  i.methods.items.find? fun e => e.selector == selector && e.isClassMethod == isClassMethod

/-- Puts an entry at the end of the method list. -/
def pushMethod (i : ClassInfo) (e : MethodEntry) : ClassInfo :=
  { i with methods := (i.methods.push e).2 }

/-- The entries of one side. -/
def side (i : ClassInfo) (isClassMethod : Bool) : List MethodEntry :=
  i.methods.items.filter fun e => e.isClassMethod == isClassMethod

theorem setPaired_eq_ok_iff {i j : ClassInfo} {partner : ClassId} :
    i.setPaired partner = .ok j ↔
      (i.paired = none ∨ i.paired = some partner) ∧ j = { i with paired := some partner } := by
  unfold setPaired
  cases i.paired with
  | none => simp [eq_comm]
  | some existing =>
    by_cases h : existing = partner
    · simp [h, eq_comm]
    · simp [h]

theorem findMethod_pushMethod (i : ClassInfo) (e : MethodEntry) (selector : Selector)
    (isClassMethod : Bool) :
    (i.pushMethod e).findMethod selector isClassMethod =
      (i.findMethod selector isClassMethod).or
        (if e.selector = selector ∧ e.isClassMethod = isClassMethod then some e else none) := by
  simp [findMethod, pushMethod, AppendOnlyList.push, List.find?_append, List.find?_singleton]

end ClassInfo

/-- How calls to a function are made: directly, by a message that the runtime looks up, or not
at all because the declaration was refused. -/
inductive Dispatch where
  | direct | message | unsupported
  deriving DecidableEq, Repr

/-- The annotation of a function. -/
structure FuncInfo where
  selector : Selector
  dispatch : Dispatch
  needsSelectorParam : Bool
  overrides : Option ClassId := none
  deriving DecidableEq, Repr

end ObjcBinding
