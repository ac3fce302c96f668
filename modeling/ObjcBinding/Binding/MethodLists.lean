import ObjcBinding.Binding.Methods

/-!
# Method lists

A method joins the list of its class, on the side of the class or of its instances. On each side
a selector occurs once in a list; a method whose selector occurs in the list of a class above
overrides that one.

* `Program.declaringClass?` finds the nearest class whose list has a selector;
* `recordMethod` puts one method into the list of its class, `recordMethods` many;
* `Program.declaringClass?_eq_none_iff`: there is no such class exactly if no list on the way up
  has the selector;
* `Resolve.record_of_invalid`: an invalid function joins no list.
-/

namespace ObjcBinding

namespace Program

/-- Whether the list of `cls` has an entry for `selector` on one side that is not `skip`. -/
def declares (p : Program) (selector : Selector) (isClassMethod : Bool) (skip : FuncId)
    (cls : ClassId) : Bool :=
  (p.classAt cls).info.any fun i =>
    (i.findMethod selector isClassMethod).any fun e => e.func ≠ skip

/-- The nearest class from `cls` upward whose list has an entry for `selector` on one side for a
function other than `skip`. -/
def declaringClass? (p : Program) (selector : Selector) (isClassMethod : Bool) (cls : ClassId)
    (skip : FuncId) : Option ClassId :=
  (p.lineage cls).find? (p.declares selector isClassMethod skip)

theorem declaringClass?_eq_none_iff {p : Program} {selector : Selector} {isClassMethod : Bool}
    {cls : ClassId} {skip : FuncId} :
    p.declaringClass? selector isClassMethod cls skip = none ↔
      ∀ c ∈ p.lineage cls, p.declares selector isClassMethod skip c = false := by
  simp [declaringClass?]

/-- The class whose list holds the methods of `cls`. Both sides are kept in the list of the
class; a metaclass has none of its own. -/
def listOwner? (p : Program) (cls : ClassId) : Option ClassId :=
  (p.classAt cls).info.bind fun i => if i.isMetaclass then i.paired else some cls

/-- The nearest class, from `cls` upward, whose list has the selector of the function for
another function on the same side; `cls` itself if there is none. -/
def nearestDeclaring (p : Program) (id : FuncId) (cls : ClassId) : ClassId :=
  let d := p.funcAt id
  match d.selector, p.listOwner? cls with
  | some selector, some owner =>
    (p.declaringClass? selector d.isStatic owner id).getD cls
  | _, _ => cls

end Program

/-- Where methods that are recorded together come from: the body of a class, or a group. -/
inductive MethodSource where
  | body (cls : ClassId)
  | group (id : GroupId)
  deriving DecidableEq, Repr

namespace Resolve

/-- Puts a checked method at the end of the list of its class, noting what it overrides. -/
def pushMethod (id : FuncId) (owner : ClassId) (selector : Selector) (isClassMethod : Bool) :
    Resolve Unit := do
  let p ← program
  let overrides := (p.classAt owner).superclass.bind fun superclass =>
    p.declaringClass? selector isClassMethod superclass id
  let position := ((p.classAt owner).info.map (·.methods.length)).getD 0
  updateProgram fun p => p.modifyFunc id fun d =>
    { d with info := d.info.map fun i => { i with overrides } }
  updateProgram fun p => p.modifyClass owner fun d =>
    { d with info := d.info.map (·.pushMethod { selector, func := id, isClassMethod }) }
  let side := if isClassMethod then "+" else "-"
  let mark := if overrides.isSome then " (override)" else ""
  let text := (← selectors).text selector
  say .trace .methodLists s!"`{p.className owner}` #{position}: {side}{text}{mark}"

/-- Records a valid member of `owner` that has a selector, after checking it. A method that is in
the list already is left there; a second method with the same selector is rejected. -/
def recordMember (id : FuncId) (owner : ClassId) (selector : Selector) (isClassMethod : Bool) :
    Resolve Bool := do
  validateSelector id
  checkLinkage id
  let p ← program
  match (p.classAt owner).info.bind (·.findMethod selector isClassMethod) with
  | some existing =>
    if existing.func = id then return false
    else
      reject (.funcDecl id)
        (.selectorCollision ((← selectors).text selector) (p.className owner) isClassMethod
          (p.funcAt id).span (p.funcAt existing.func).span)
  | none =>
    pushMethod id owner selector isClassMethod
    return true

/-- Records a method on one side of a class, and tells whether it was added. Invalid functions,
functions without a selector, and classes that are invalid or not bound are passed over; a
function that is no member of the class is refused. -/
def record (id : FuncId) (cls : ClassId) (isClassMethod : Bool) : Resolve Bool := do
  let p ← program
  let d := p.funcAt id
  match d.selector, p.listOwner? cls with
  | some selector, some owner =>
    let o := p.classAt owner
    if d.invalid || o.invalid || !o.isBound then return false
    else if d.parent ≠ some owner then
      refuse (.notMember (p.name d.name) (p.name o.name) d.span)
    else recordMember id owner selector isClassMethod
  | _, _ => return false

theorem record_of_invalid {c : Compilation} {id : FuncId}
    (h : (c.program.funcAt id).invalid = true) (cls : ClassId) (isClassMethod : Bool) :
    record id cls isClassMethod c = .ok false c := by
  rw [record, bind_apply, program_apply]
  simp only [h]
  cases (c.program.funcAt id).selector <;> cases c.program.listOwner? cls <;> rfl

/-- Records a method on the side it is declared for. -/
def recordMethod (id : FuncId) (cls : ClassId) : Resolve Unit := do
  let p ← program
  let _ ← record id cls (p.funcAt id).isStatic

/-- Records methods one after the other and counts those that were added. A method that fails has
been reported, and does not keep the others from being recorded. -/
def recordAll (cls : ClassId) : List (FuncId × Bool) → Resolve Nat
  | [] => return 0
  | (id, isClassMethod) :: rest => do
    let added ← tryCatch (record id cls isClassMethod) fun _ => return false
    return (if added then 1 else 0) + (← recordAll cls rest)

/-- Records the methods of instances and then those of the class itself. The methods of a group
that takes no part in the compilation are passed over. -/
def recordMethods (source : MethodSource) (ofInstances ofClass : List FuncId) : Resolve Nat := do
  let sides := ofInstances.map (·, false) ++ ofClass.map (·, true)
  match source with
  | .body cls => recordAll cls sides
  | .group id =>
    let g := (← program).groupAt id
    if g.isActive then recordAll g.target sides
    else
      say .debug .methodLists s!"skipping disabled group at {g.span.place}"
      return 0

end Resolve

end ObjcBinding
