import ObjcBinding.Binding.Compilation

/-!
# Marking classes and protocols

A class or interface is bound by marking it with an annotation. Its base and its interfaces must
be bound before, so that a hierarchy is bound as a whole or not at all.

* `Program.hierarchyFault?_eq_none_iff`: when a declaration fits into the bound hierarchy.
-/

namespace ObjcBinding

/-- The fault of a declaration of one kind that was to be of the other. -/
def ClassKind.mismatch : ClassKind → HierarchyFault
  | .concrete => .isConcrete
  | .interface => .isInterface

namespace Program

/-- Whether `id` can be the base of a bound class: it is a bound class itself. -/
def isBoundBase (p : Program) (id : ClassId) : Bool :=
  let d := p.classAt id
  d.kind = .concrete && d.info.any (!·.isMetaclass)

/-- Whether `id` can be an interface of a bound class: it is a bound protocol. -/
def isBoundInterface (p : Program) (id : ClassId) : Bool :=
  let d := p.classAt id
  d.kind = .interface && d.isBound

/-- The fault of the base, or else of the first faulty interface. -/
def hierarchyFault? (p : Program) (id : ClassId) : Option HierarchyFault :=
  let d := p.classAt id
  match d.base.filter (!p.isBoundBase ·) with
  | some base => some (.nativeBase (p.className base))
  | none =>
    (d.interfaces.find? (!p.isBoundInterface ·)).map fun i => .nativeInterface (p.className i)

theorem hierarchyFault?_eq_none_iff {p : Program} {id : ClassId} :
    p.hierarchyFault? id = none ↔
      (∀ base, (p.classAt id).base = some base → p.isBoundBase base = true) ∧
        ∀ i ∈ (p.classAt id).interfaces, p.isBoundInterface i = true := by
  unfold hierarchyFault?
  dsimp only
  cases hb : (p.classAt id).base with
  | none => simp
  | some base => cases hf : p.isBoundBase base <;> simp [Option.filter, hf]

end Program

/-- Marks a class or interface as bound to the runtime; `kind` is what it is expected to be. -/
def Resolve.mark (id : ClassId) (kind : ClassKind) : Resolve Unit := do
  let p ← program
  let d := p.classAt id
  let name := p.name d.name
  if d.isBound then
    refuse (.alreadyBound name d.span)
  else if d.kind ≠ kind then
    reject (.classDecl id) (.unsupportedBase name d.kind.mismatch d.span)
  else
    match p.hierarchyFault? id with
    | some fault => reject (.classDecl id) (.unsupportedBase name fault d.span)
    | none =>
      updateProgram fun p => p.modifyClass id fun d =>
        { d with info := some (.ofClass d.name d.foreign d.base) }
      let word := if kind = .interface then "protocol" else "class"
      say .debug .annotations s!"marked `{name}` as Objective-C {word}"

end ObjcBinding
