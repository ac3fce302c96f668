import ObjcBinding.Decl.Program

/-!
# Declarations as they are handed in

A caller names things by texts. Handing a declaration in interns these texts and puts the
declaration in its place; editing replaces single fields of a declaration that is there.

* `ClassSource.declare`, `FuncSource.declare`, `GroupSource.declare` add declarations;
* `ClassEdit.apply`, `FuncEdit.apply`, `InfoEdit.apply` change them;
* `ClassSource.info_declare`: a class that is handed in is not bound yet.
-/

namespace ObjcBinding

/-- The symbol of a text, and the placeholder where there is none. -/
def internName : Option String → StateM Program Symbol
  | none => return .placeholder
  | some s => modifyGet (·.intern s)

/-- The symbol of a text, if there is one. -/
def internOption : Option String → StateM Program (Option Symbol)
  | none => return none
  | some s => some <$> modifyGet (·.intern s)

/-- A parameter; without a type name it has the type of selectors. -/
structure ParamSource where
  name : Option String
  label : Option String
  typeName : Option String
  implicit : Bool
  span : Span

/-- Interns the texts of a parameter. -/
def ParamSource.intern (s : ParamSource) : StateM Program Param := do
  let name ← internName s.name
  let label ← internOption s.label
  let type ← match s.typeName with
    | none => pure .selector
    | some t => ParamType.named <$> internName (some t)
  return { name, label, type, span := s.span, implicit := s.implicit }

/-- A selector attribute: a text, or the name of a constant. -/
inductive AttrSource where
  | literal (text : String) (span : Span)
  | constant (name : Option String) (span : Span)

/-- Interns the name in an attribute. -/
def AttrSource.intern : AttrSource → StateM Program SelectorAttr
  | .literal text span => return ⟨.literal text, span⟩
  | .constant name span => return ⟨.constant (← internName name), span⟩

/-- A class or interface. -/
structure ClassSource where
  name : Option String
  kind : ClassKind
  base : Option ClassId
  interfaces : List ClassId
  linkage : Linkage
  foreign : Bool
  foreignMetaclass : Option ClassId
  span : Span

/-- Adds a class. Only a foreign class has a metaclass from its header. -/
def ClassSource.declare (s : ClassSource) : StateM Program ClassId := do
  let name ← internName s.name
  modifyGet (·.addClass
    { name, kind := s.kind, span := s.span, base := s.base, interfaces := s.interfaces
      linkage := s.linkage, foreign := s.foreign
      foreignMetaclass := if s.foreign then s.foreignMetaclass else none })

theorem ClassSource.declare_apply (s : ClassSource) (p : Program) :
    s.declare p = (internName s.name p).2.addClass
      { name := (internName s.name p).1, kind := s.kind, span := s.span, base := s.base
        interfaces := s.interfaces, linkage := s.linkage, foreign := s.foreign
        foreignMetaclass := if s.foreign then s.foreignMetaclass else none } := rfl

theorem ClassSource.info_declare (s : ClassSource) (p : Program) :
    ((s.declare p).2.classAt (s.declare p).1).info = none := by
  rw [declare_apply, Program.classAt_addClass]

/-- A function: free, a member of a class, or else a member of a group. -/
structure FuncSource where
  name : Option String
  params : List ParamSource
  parent : Option ClassId
  group : Option GroupId
  linkage : Linkage
  isStatic : Bool
  isFinal : Bool
  isProperty : Bool
  isTemplate : Bool
  visibility : Visibility
  attrs : List AttrSource
  span : Span

/-- Adds a function where it belongs. -/
def FuncSource.declare (s : FuncSource) : StateM Program FuncId := do
  let d : FuncDecl :=
    { name := ← internName s.name
      params := ← s.params.mapM (·.intern)
      attrs := ← s.attrs.mapM (·.intern)
      span := s.span, linkage := s.linkage, isStatic := s.isStatic, isFinal := s.isFinal
      isProperty := s.isProperty, isTemplate := s.isTemplate, visibility := s.visibility }
  match s.parent, s.group with
  | some cls, _ => modifyGet (·.addMethod cls d)
  | none, some group => modifyGet (·.addGroupMember group d)
  | none, none => modifyGet (·.addFunction d)

/-- A group of functions: a category of the given name, or a conditional block. -/
structure GroupSource where
  category : Option String
  enabled : Bool
  target : ClassId
  span : Span

/-- Adds a group without members. -/
def GroupSource.declare (s : GroupSource) : StateM Program GroupId := do
  let kind ← match s.category with
    | some name => GroupKind.category <$> internName (some name)
    | none => pure (.conditional s.enabled)
  modifyGet (·.addGroup { kind, target := s.target, members := [], span := s.span })

/-! ## Editing -/

/-- New values for fields of a class; fields without one stay as they are. -/
structure ClassEdit where
  name : Option (Option String)
  kind : Option ClassKind
  base : Option (Option ClassId)
  interfaces : Option (List ClassId)
  linkage : Option Linkage
  foreign : Option Bool
  foreignMetaclass : Option (Option ClassId)
  synthesized : Option Bool
  invalid : Option Bool
  span : Option Span

/-- Changes a class. -/
def ClassEdit.apply (e : ClassEdit) (id : ClassId) : StateM Program Unit := do
  let name ← e.name.mapM internName
  modify fun p => p.modifyClass id fun d =>
    { d with
      name := name.getD d.name
      kind := e.kind.getD d.kind
      base := e.base.getD d.base
      interfaces := e.interfaces.getD d.interfaces
      linkage := e.linkage.getD d.linkage
      foreign := e.foreign.getD d.foreign
      foreignMetaclass := e.foreignMetaclass.getD d.foreignMetaclass
      synthesized := e.synthesized.getD d.synthesized
      invalid := e.invalid.getD d.invalid
      span := e.span.getD d.span }

/-- New values for fields of a function; fields without one stay as they are. -/
structure FuncEdit where
  name : Option (Option String)
  params : Option (List ParamSource)
  parent : Option (Option ClassId)
  linkage : Option Linkage
  isStatic : Option Bool
  isFinal : Option Bool
  isProperty : Option Bool
  isTemplate : Option Bool
  visibility : Option Visibility
  invalid : Option Bool
  attrs : Option (List AttrSource)
  span : Option Span

/-- Changes a function. A new parent does not make it a member there. -/
def FuncEdit.apply (e : FuncEdit) (id : FuncId) : StateM Program Unit := do
  let name ← e.name.mapM internName
  let params ← e.params.mapM fun ps => ps.mapM (·.intern)
  let attrs ← e.attrs.mapM fun xs => xs.mapM (·.intern)
  modify fun p => p.modifyFunc id fun d =>
    { d with
      name := name.getD d.name
      params := params.getD d.params
      parent := e.parent.getD d.parent
      linkage := e.linkage.getD d.linkage
      isStatic := e.isStatic.getD d.isStatic
      isFinal := e.isFinal.getD d.isFinal
      isProperty := e.isProperty.getD d.isProperty
      isTemplate := e.isTemplate.getD d.isTemplate
      visibility := e.visibility.getD d.visibility
      invalid := e.invalid.getD d.invalid
      attrs := attrs.getD d.attrs
      span := e.span.getD d.span }

/-- A new annotation of a class, or none if there is no role, or if the role is that of a
metaclass and there is no class to be paired with. -/
structure InfoEdit where
  role : Option Role
  foreign : Bool
  paired : Option ClassId
  superclass : Option ClassId

/-- The annotation of a class with the given name. -/
def InfoEdit.info (e : InfoEdit) (name : Symbol) : Option ClassInfo :=
  match e.role with
  | none => none
  | some .ordinary => some { ClassInfo.ofClass name e.foreign e.superclass with paired := e.paired }
  | some .metaclass => e.paired.map fun cls => .ofMetaclass name e.foreign cls e.superclass

/-- Replaces the annotation of a class. -/
def InfoEdit.apply (e : InfoEdit) (id : ClassId) : StateM Program Unit :=
  modify fun p => p.modifyClass id fun d => { d with info := e.info d.name }

end ObjcBinding
