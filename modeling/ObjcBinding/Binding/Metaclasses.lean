import ObjcBinding.Binding.Compilation

/-!
# Metaclasses

Every bound class has a metaclass, which holds the methods of the class itself. The header of a
foreign class names its metaclass; for every other class one is made here. A metaclass inherits
from the metaclasses of the superclass and of the interfaces, so these are resolved first. The
two halves of a pair name each other, and a pair once made does not change.

* `resolveMetaclass` makes the pair of a class and those above it;
* `runtimeMetaclass` gives the metaclass of a class, and the root metaclass of a metaclass;
* `verifyPair_apply`: the check of a pair changes nothing if the halves name each other.
-/

namespace ObjcBinding

/-- The symbol of the class object of `cls`. -/
def classSymbol (cls : String) : String := "OBJC_CLASS_$_" ++ cls

/-- The symbol of the metaclass of `cls`. -/
def metaclassSymbol (cls : String) : String := "OBJC_METACLASS_$_" ++ cls

/-- Whether the class names the metaclass as its other half, and the metaclass the class. -/
def Program.mutual (p : Program) (cls metaclass : ClassId) : Bool :=
  (p.classAt cls).info.any (fun i => !i.isMetaclass && i.paired = some metaclass) &&
    (p.classAt metaclass).info.any fun i => i.isMetaclass && i.paired = some cls

namespace Resolve

/-- The other half of a class, as recorded now. -/
def pairedOf (id : ClassId) : Resolve (Option ClassId) := do
  return ((← program).classAt id).paired

/-- Makes the metaclass known by its name in `scope`, if it was made by the compiler. It may be
known there already, also from a scope around. -/
def declareMetaclass (metaclass : ClassId) (scope : ScopeId) : Resolve Unit := do
  let p ← program
  let d := p.classAt metaclass
  if !d.synthesized || p.lookup scope d.name = some (.classDecl metaclass) then return ()
  else match p.declare scope d.name (.classDecl metaclass) with
    | .ok p => updateProgram fun _ => p
    | .error existing => abort (.symbolTaken (p.name d.name) existing) d.span

/-- Ends the session unless the two halves name each other. -/
def verifyPair (cls metaclass : ClassId) : Resolve Unit := do
  let p ← program
  if p.mutual cls metaclass then return ()
  else abort (.notMutual (p.className cls) (p.className metaclass)) (p.classAt cls).span

theorem verifyPair_apply {cls metaclass : ClassId} {c : Compilation}
    (h : c.program.mutual cls metaclass = true) :
    verifyPair cls metaclass c = .ok () c := by
  rw [verifyPair, bind_apply, program_apply]
  simp only [h, if_true]
  rfl

/-- Records the metaclass on the class and checks the pair from both sides. -/
def link (cls metaclass : ClassId) : Resolve Unit := do
  let p ← program
  let d := p.classAt cls
  match d.info with
  | none => verifyPair cls metaclass
  | some i =>
    match i.setPaired metaclass with
    | .error existing =>
      abort (.pairedAlready (p.className cls) (p.className existing)) d.span
    | .ok i =>
      updateProgram fun p => p.modifyClass cls fun d => { d with info := some i }
      verifyPair cls metaclass

/-- The metaclasses of protocols, each resolved by `resolve` first. -/
def interfaceMetaclasses (resolve : ClassId → Resolve Unit) :
    List ClassId → Resolve (List ClassId)
  | [] => return []
  | i :: rest => do
    resolve i
    let metaclass ← pairedOf i
    return metaclass.toList ++ (← interfaceMetaclasses resolve rest)

/-- The metaclasses that the metaclass of `cls` inherits from: that of the superclass, and those
of the interfaces. -/
def superMetaclasses (resolve : ClassId → Resolve Unit) (cls : ClassId) :
    Resolve (Option ClassId × List ClassId) := do
  let d := (← program).classAt cls
  let superMetaclass ← match d.superclass with
    | none => pure none
    | some superclass => do
      resolve superclass
      pairedOf superclass
  let interfaces ← interfaceMetaclasses resolve d.interfaces
  return (superMetaclass, interfaces)

/-- Makes a metaclass for `cls`, declares it in `scope`, and links the two. -/
def synthesize (resolve : ClassId → Resolve Unit) (cls : ClassId) (scope : ScopeId) :
    Resolve Unit := do
  let (superMetaclass, interfaces) ← superMetaclasses resolve cls
  let p ← program
  let d := p.classAt cls
  let symbol := metaclassSymbol (p.name d.name)
  let name ← modifyGetProgram (·.intern symbol)
  let metaclass ← modifyGetProgram (·.addClass
    { name, kind := d.kind, span := d.span, base := superMetaclass, interfaces
      linkage := .objc, synthesized := true
      info := some (.ofMetaclass name false cls superMetaclass) })
  declareMetaclass metaclass scope
  link cls metaclass
  say .debug .metaclasses s!"synthesized `{symbol}`"

/-- Links a foreign class to the metaclass that its header declares. -/
def linkForeign (resolve : ClassId → Resolve Unit) (cls metaclass : ClassId) : Resolve Unit := do
  let p ← program
  match (p.classAt metaclass).info with
  | some i =>
    if i.isMetaclass && i.paired = some cls then link cls metaclass
    else
      reject (.classDecl cls) (.missingMetaclass (p.className cls) .taken (p.classAt cls).span)
  | none =>
    let (superMetaclass, _) ← superMetaclasses resolve cls
    updateProgram fun p => p.modifyClass metaclass fun d =>
      { d with info := some (.ofMetaclass d.name true cls superMetaclass) }
    link cls metaclass
    let p ← program
    say .debug .metaclasses
      s!"linked extern `{p.className cls}` to `{p.className metaclass}`"

/-- One step of `resolveMetaclass`: the classes above are left to `resolve`. -/
def resolveStep (resolve : ClassId → Resolve Unit) (cls : ClassId) (scope : ScopeId) :
    Resolve Unit := do
  let p ← program
  let d := p.classAt cls
  match d.info with
  | none => reject (.classDecl cls) (.notBound (p.name d.name) d.span)
  | some i =>
    if i.isMetaclass then return ()
    else match i.paired with
      | some metaclass =>
        verifyPair cls metaclass
        declareMetaclass metaclass scope
      | none =>
        if !d.foreign then synthesize resolve cls scope
        else match d.foreignMetaclass with
          | some metaclass => linkForeign resolve cls metaclass
          | none =>
            reject (.classDecl cls) (.missingMetaclass (p.name d.name) .undeclared d.span)

/-- `resolveMetaclass` for a class that has less than `height` classes above it. -/
def resolveBelow (scope : ScopeId) : Nat → ClassId → Resolve Unit
  | 0, _ => return ()
  | height + 1, cls => resolveStep (resolveBelow scope height) cls scope

/-- Links `cls` and the classes and protocols above it to their metaclasses, making those that
are missing. A metaclass made by the compiler becomes known in `scope`. -/
def resolveMetaclass (cls : ClassId) (scope : ScopeId) : Resolve Unit := do
  let p ← program
  resolveBelow scope (p.classes.size + 1) cls

/-- The metaclass of a class; of a metaclass, that of the root of the class it belongs to. -/
def runtimeMetaclass (cls : ClassId) : Resolve (Option ClassId) := do
  let p ← program
  let d := p.classAt cls
  let metaclassOf (target : ClassId) : Resolve (Option ClassId) := do
    let t := p.classAt target
    match t.paired with
    | some metaclass => return some metaclass
    | none => reject (.classDecl target) (.unresolvedMetaclass (p.name t.name) t.span)
  match d.info with
  | none => reject (.classDecl cls) (.notBound (p.name d.name) d.span)
  | some i =>
    if !i.isMetaclass then metaclassOf cls
    else match i.paired with
      | none => abort (.pairsNothing (p.name d.name)) d.span
      | some c => metaclassOf (p.rootOf c)

end Resolve

end ObjcBinding
