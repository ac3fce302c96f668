import ObjcBinding.Decl.Annotation
import ObjcBinding.Report.Span

/-!
# Declarations

Classes and protocols, functions, and groups of functions that are contributed to a class
together. Declarations refer to each other by handles, to names by symbols, and have a place for
the annotation that binds them to the runtime.

* `FuncDecl.explicitCount_append_implicit`: a hidden parameter does not count.
-/

namespace ObjcBinding

/-- A class has instances, an interface only says which methods to expect. -/
inductive ClassKind where
  | concrete | interface
  deriving DecidableEq, Repr, Inhabited

/-- The convention by which a declaration is linked: that of the source language, that of
Objective-C, or that of C. -/
inductive Linkage where
  | native | objc | plainC
  deriving DecidableEq, Repr, Inhabited

/-- The name of a linkage in messages. -/
def Linkage.name : Linkage → String
  | native => "native"
  | objc => "Objective-C"
  | plainC => "C"

/-- How calls to a bound function of this linkage are made. -/
def Linkage.dispatch : Linkage → Dispatch
  | native => .unsupported
  | objc => .message
  | plainC => .direct

/-- Where a member may be used: everywhere, in its module, or in its class only. -/
inductive Visibility where
  | everywhere | inModule | inClass
  deriving DecidableEq, Repr, Inhabited

/-- A class or protocol, or a metaclass. -/
structure ClassDecl where
  name : Symbol
  kind : ClassKind
  span : Span
  base : Option ClassId := none
  interfaces : List ClassId := []
  linkage : Linkage := .native
  /-- Defined in a foreign header rather than in this compilation. -/
  foreign : Bool := false
  /-- The metaclass that the foreign header declares. -/
  foreignMetaclass : Option ClassId := none
  /-- Made by the compiler. -/
  synthesized : Bool := false
  members : List FuncId := []
  /-- Whether an error was charged to the declaration. -/
  invalid : Bool := false
  info : Option ClassInfo := none
  deriving DecidableEq, Repr, Inhabited

namespace ClassDecl

def isInterface (d : ClassDecl) : Bool := d.kind = .interface

/-- Whether the declaration is bound to the runtime. -/
def isBound (d : ClassDecl) : Bool := d.info.isSome

/-- The other half of the class/metaclass pair. -/
def paired (d : ClassDecl) : Option ClassId := d.info.bind (·.paired)

/-- The superclass as far as the runtime knows it. -/
def superclass (d : ClassDecl) : Option ClassId := d.info.bind (·.superclass)

end ClassDecl

/-- The type of a parameter: a named one, or the type of selectors. -/
inductive ParamType where
  | named (name : Symbol)
  | selector
  deriving DecidableEq, Repr

/-- A parameter; its label is the part of the selector that stands before the argument. -/
structure Param where
  name : Symbol
  label : Option Symbol
  type : ParamType
  span : Span
  /-- Added by the compiler. -/
  implicit : Bool := false
  deriving DecidableEq, Repr

/-- Whether the parameter carries the selector of a call. -/
def Param.isHidden (p : Param) : Bool := p.implicit && p.type = .selector

/-- What is written in a selector attribute: the text, or the name of a string constant. -/
inductive SelectorValue where
  | literal (text : String)
  | constant (name : Symbol)
  deriving DecidableEq, Repr

/-- A selector attribute of a function. -/
structure SelectorAttr where
  value : SelectorValue
  span : Span
  deriving DecidableEq, Repr

/-- A function, free or a member of a class. -/
structure FuncDecl where
  name : Symbol
  params : List Param
  span : Span
  parent : Option ClassId := none
  linkage : Linkage := .native
  isStatic : Bool := false
  isFinal : Bool := false
  isProperty : Bool := false
  isTemplate : Bool := false
  visibility : Visibility := .everywhere
  attrs : List SelectorAttr := []
  /-- Whether an error was charged to the declaration. -/
  invalid : Bool := false
  info : Option FuncInfo := none
  deriving DecidableEq, Repr, Inhabited

namespace FuncDecl

/-- The parameters that are written in the source. -/
def explicitParams (d : FuncDecl) : List Param := d.params.filter (!·.implicit)

def explicitCount (d : FuncDecl) : Nat := d.explicitParams.length

/-- The assigned selector. -/
def selector (d : FuncDecl) : Option Selector := d.info.map (·.selector)

theorem explicitCount_append_implicit (d : FuncDecl) {p : Param} (h : p.implicit = true) :
    { d with params := d.params ++ [p] }.explicitCount = d.explicitCount := by
  simp [explicitCount, explicitParams, h]

end FuncDecl

/-- Why functions stand together: a condition on the compilation, or a category of the class. -/
inductive GroupKind where
  | conditional (enabled : Bool)
  | category (name : Symbol)
  deriving DecidableEq, Repr

/-- Functions contributed to the class `target` together. -/
structure GroupDecl where
  kind : GroupKind
  target : ClassId
  members : List FuncId
  span : Span
  deriving DecidableEq, Repr

instance : Inhabited GroupDecl := ⟨.conditional false, default, [], default⟩

/-- Whether the group takes part in the compilation. -/
def GroupDecl.isActive (g : GroupDecl) : Bool := g.kind ≠ .conditional false

end ObjcBinding
