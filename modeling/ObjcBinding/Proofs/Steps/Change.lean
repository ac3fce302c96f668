import ObjcBinding.Binding.Session
import ObjcBinding.Proofs.Hierarchy

/-!
# What a binding step can change

A binding step reads a compilation and changes it here and there. `Change` lists the single
changes, each with the conditions under which it is made and with the `Deed` that it is part of.
A `Trail` is a sequence of changes. That every step leaves a trail is shown step by step in the
modules beside this one; what holds of all compilations is then shown change by change.

The two halves of a pair are recorded together: no other step sees a metaclass whose class does
not know it. Only when the session has been aborted in between are they recorded apart.

* `Trail.invariant`: what every permitted change keeps is kept by a trail.
-/

namespace ObjcBinding

/-- What a change is part of. -/
inductive Deed where
  /-- Writing to the log. -/
  | say
  /-- Reporting an error that is charged to no declaration. -/
  | refuse
  /-- Ending the session. -/
  | abort
  /-- Interning a name. -/
  | intern (text : String)
  /-- Adding a scope. -/
  | scope
  /-- Giving a name a meaning in a scope. -/
  | declare (name : Symbol) (entry : ScopeEntry)
  /-- Interning a selector. -/
  | adopt
  /-- Marking a class or protocol as bound. -/
  | mark (cls : ClassId)
  /-- Giving a class its metaclass. -/
  | pair (cls : ClassId)
  /-- Reporting an error that is charged to a class. -/
  | rejectClass (cls : ClassId)
  /-- Reporting an error that is charged to a function. -/
  | rejectFunc (func : FuncId)
  /-- Giving a function its selector. -/
  | assign (func : FuncId)
  /-- Recording how calls to a function are made. -/
  | confirm (func : FuncId)
  /-- Giving a function its hidden parameter. -/
  | addParam (func : FuncId)
  /-- Putting a function into the method list of a class, on one side. -/
  | record (func : FuncId) (owner : ClassId) (isClassMethod : Bool)

/-- The metaclass that is made for `cls`; it is named after the class. -/
def Program.madeMetaclass (p : Program) (cls : ClassId) (superMetaclass : Option ClassId)
    (interfaces : List ClassId) : ClassDecl where
  name := (p.intern (metaclassSymbol (p.className cls))).1
  kind := (p.classAt cls).kind
  span := (p.classAt cls).span
  base := superMetaclass
  interfaces := interfaces
  linkage := .objc
  synthesized := true
  info := some (.ofMetaclass (p.intern (metaclassSymbol (p.className cls))).1 false cls
    superMetaclass)

/-- Makes a metaclass for `cls`. -/
def Program.makeMetaclass (p : Program) (cls : ClassId) (superMetaclass : Option ClassId)
    (interfaces : List ClassId) : Program :=
  ((p.intern (metaclassSymbol (p.className cls))).2.addClass
    (p.madeMetaclass cls superMetaclass interfaces)).2

/-- Replaces the annotation of a class. -/
def Program.setInfo (p : Program) (cls : ClassId) (i : ClassInfo) : Program :=
  p.modifyClass cls fun d => { d with info := some i }

/-- Makes the declaration of a header the metaclass of `cls`. -/
def Program.setMetaclass (p : Program) (metaclass cls : ClassId)
    (superMetaclass : Option ClassId) : Program :=
  p.modifyClass metaclass fun d =>
    { d with info := some (.ofMetaclass d.name true cls superMetaclass) }

/-- The compilation in which a corruption has ended the session. -/
def Compilation.afterAbort (c : Compilation) (corruption : Corruption) (span : Span)
    (log : Array Log.Message) : Compilation :=
  { ({ c with session := { c.session with aborted := true } } : Compilation).report
      (.corrupted corruption span) with log }

/-- What a function and its class must be for the function to stand in the list of the class
under the selector `s`. -/
structure Compilation.Fits (c : Compilation) (func : FuncId) (owner : ClassId) (s : Selector) :
    Prop where
  selector : (c.program.funcAt func).selector = some s
  parent : (c.program.funcAt func).parent = some owner
  linkage : (c.program.funcAt func).linkage = .objc
  template : (c.program.funcAt func).isTemplate = false
  arity : c.session.selectors.arity s = (c.program.funcAt func).explicitCount

/-- What an error is held against: a function, a class, the request itself, or the whole session. -/
inductive Blame where
  | method
  | type
  | request
  | session
  deriving DecidableEq, Repr

/-- What an error of each cause is held against. -/
def BindError.blame : BindError → Blame
  | .invalidSelector .. | .arityMismatch .. | .selectorOutsideClass .. | .linkageConflict ..
  | .selectorCollision .. | .multipleSelectors .. | .selectorOnTemplate .. => .method
  | .unsupportedBase .. | .missingMetaclass .. | .unresolvedMetaclass .. | .notBound .. => .type
  | .alreadyBound .. | .notMember .. => .request
  | .corrupted .. | .sessionAborted => .session

/-- Only what is held against the session ends it. -/
theorem BindError.isFatal_of_blame {e : BindError} {b : Blame} (h : e.blame = b)
    (hb : b ≠ .session) : e.isFatal = false := by
  subst h
  cases e <;> first | rfl | exact absurd rfl hb

/-- The error is held against the function, and stands at its place or at that of one of its
attributes. -/
structure Program.Blames (p : Program) (func : FuncId) (e : BindError) : Prop where
  blame : e.blame = .method
  contains : p.funcs.contains func = true
  place : e.span = (p.funcAt func).span ∨ ∃ attr ∈ (p.funcAt func).attrs, e.span = attr.span

/-- `change deed c d`: the deed leads from `c` to `d` by a single change. -/
inductive Change : Deed → Compilation → Compilation → Prop where
  | say {c : Compilation} (log : Array Log.Message) : Change .say c { c with log }
  | refuse {c : Compilation} (e : BindError) (log : Array Log.Message) :
      e.blame = .request → Change .refuse c { c.report e with log }
  | abort {c : Compilation} (corruption : Corruption) (span : Span) (log : Array Log.Message) :
      Change .abort c (c.afterAbort corruption span log)
  | intern {c : Compilation} (text : String) :
      Change (.intern text) c { c with program := (c.program.intern text).2 }
  | addScope {c : Compilation} (parent : Option ScopeId) :
      Change .scope c { c with program := (c.program.addScope parent).2 }
  | declare {c : Compilation} {p : Program} (scope : ScopeId) (name : Symbol)
      (entry : ScopeEntry) :
      c.program.declare scope name entry = .ok p →
      Change (.declare name entry) c { c with program := p }
  | adopt {c : Compilation} (text : String) (arity : Nat) :
      Change .adopt c
        { c with
          session := { c.session with selectors := (c.session.selectors.intern text arity).2 } }
  | rejectClass {c : Compilation} (cls : ClassId) (e : BindError) (log : Array Log.Message) :
      e.blame = .type →
      Change (.rejectClass cls) c { (c.charge (.classDecl cls)).report e with log }
  | rejectFunc {c : Compilation} (func : FuncId) (e : BindError) (log : Array Log.Message) :
      c.program.Blames func e → (c.program.funcAt func).invalid = false →
      Change (.rejectFunc func) c { (c.charge (.funcDecl func)).report e with log }
  /-- A class fits into the bound hierarchy and is marked. -/
  | mark {c : Compilation} (cls : ClassId) :
      (c.program.classAt cls).info = none → c.program.hierarchyFault? cls = none →
      Change (.mark cls) c
        { c with
          program := c.program.modifyClass cls fun d =>
            { d with info := some (.ofClass d.name d.foreign d.base) } }
  /-- A metaclass is made for a class, and the two are linked. -/
  | synthesize {c : Compilation} {cls : ClassId} {i j : ClassInfo}
      (superMetaclass : Option ClassId) (interfaces : List ClassId) :
      (c.program.classAt cls).info = some i → i.role = .ordinary →
      (c.program.classAt cls).foreign = false →
      c.program.Resolved cls superMetaclass interfaces →
      i.setPaired ⟨c.program.classes.size⟩ = .ok j →
      Change (.pair cls) c
        { c with
          program := (c.program.makeMetaclass cls superMetaclass interfaces).setInfo cls j }
  /-- A foreign class is linked to the metaclass that its header names. -/
  | linkForeign {c : Compilation} {cls metaclass : ClassId} {i j : ClassInfo}
      (superMetaclass : Option ClassId) :
      (c.program.classAt cls).info = some i → i.role = .ordinary →
      c.program.HeaderNames cls metaclass →
      c.program.classes.contains metaclass = true →
      c.program.FreeFor cls metaclass → (∃ is, c.program.Resolved cls superMetaclass is) →
      i.setPaired metaclass = .ok j →
      Change (.pair cls) c
        { c with program := (c.program.setMetaclass metaclass cls superMetaclass).setInfo cls j }
  /-- A class is linked to a metaclass that names it already. -/
  | relink {c : Compilation} {cls metaclass : ClassId} {i j : ClassInfo} :
      (c.program.classAt cls).info = some i → i.role = .ordinary →
      c.program.HeaderNames cls metaclass →
      c.program.pairing metaclass = some (.metaclass, some cls) → i.setPaired metaclass = .ok j →
      Change (.pair cls) c { c with program := c.program.setInfo cls j }
  /-- After an abort: a metaclass whose class does not know it. -/
  | orphan {c : Compilation} {cls : ClassId} (superMetaclass : Option ClassId)
      (interfaces : List ClassId) :
      c.session.aborted = true → c.program.HasRole cls .ordinary →
      Change (.pair cls) c
        { c with program := c.program.makeMetaclass cls superMetaclass interfaces }
  /-- After an abort: a class whose metaclass does not know it. -/
  | halfLink {c : Compilation} {cls metaclass : ClassId} {i j : ClassInfo} :
      c.session.aborted = true → (c.program.classAt cls).info = some i → i.role = .ordinary →
      i.setPaired metaclass = .ok j →
      Change (.pair cls) c { c with program := c.program.setInfo cls j }
  /-- A selector that follows the grammar is given to a function that has none. -/
  | assign {c : Compilation} {func : FuncId} {s : Selector} {e : Selector.Entry} :
      (c.program.funcAt func).selector = none → (c.program.funcAt func).invalid = false →
      c.session.selectors.get? s = some e → Selector.arity e.text = .ok e.arity →
      Change (.assign func) c
        { c with
          program := c.program.modifyFunc func fun d =>
            { d with
              info := some
                { selector := s
                  dispatch := (c.program.funcAt func).linkage.dispatch
                  needsSelectorParam :=
                    (c.program.funcAt func).linkage = .objc && c.program.isBoundMember func } } }
  | confirm {c : Compilation} {func : FuncId} :
      (c.program.funcAt func).invalid = false → (c.program.funcAt func).linkage = .objc →
      Change (.confirm func) c
        { c with
          program := c.program.modifyFunc func fun d =>
            { d with info := d.info.map fun i => { i with dispatch := d.linkage.dispatch } } }
  | addParam {c : Compilation} {func : FuncId} {name : Symbol} :
      (c.program.funcAt func).invalid = false →
      (c.program.funcAt func).info.any (·.needsSelectorParam) = true →
      (c.program.funcAt func).params.findIdx? (·.isHidden) = none →
      Change (.addParam func) c
        { c with
          program := c.program.modifyFunc func fun d =>
            { d with
              params := d.params ++
                [{ name, label := none, type := .selector
                   span := (c.program.funcAt func).span, implicit := true }] } }
  /-- A valid member that passed all checks joins the list of its class. -/
  | record {c : Compilation} {func : FuncId} {owner : ClassId} {s : Selector} {i : ClassInfo}
      (cls : ClassId) (isClassMethod : Bool) (overrides : Option ClassId) :
      c.Fits func owner s → (c.program.funcAt func).invalid = false →
      c.program.listOwner? cls = some owner →
      (c.program.classAt owner).info = some i → (c.program.classAt owner).invalid = false →
      i.findMethod s isClassMethod = none →
      overrides = ((c.program.classAt owner).superclass.bind fun superclass =>
        c.program.declaringClass? s isClassMethod superclass func) →
      Change (.record func owner isClassMethod) c
        { c with
          program := (c.program.modifyFunc func fun d =>
              { d with info := d.info.map fun i => { i with overrides } }).modifyClass owner
            fun d =>
              { d with info := d.info.map (·.pushMethod { selector := s, func, isClassMethod }) } }

/-- A sequence of changes; `permits` says in which compilation a deed may be done. -/
def Trail (permits : Compilation → Deed → Prop) : Compilation → Compilation → Prop :=
  Relation.ReflTransGen fun c d => ∃ deed, permits c deed ∧ Change deed c d

namespace Trail

variable {permits : Compilation → Deed → Prop} {b c d : Compilation}

theorem refl (permits : Compilation → Deed → Prop) (c : Compilation) : Trail permits c c :=
  Relation.ReflTransGen.refl

theorem single {deed : Deed} (h : Change deed c d) (hp : permits c deed) : Trail permits c d :=
  Relation.ReflTransGen.single ⟨deed, hp, h⟩

theorem trans (h : Trail permits b c) (h' : Trail permits c d) : Trail permits b d :=
  Relation.ReflTransGen.trans h h'

theorem tail {deed : Deed} (h : Trail permits b c) (h' : Change deed c d)
    (hp : permits c deed) : Trail permits b d :=
  h.trans (single h' hp)

/-- What every permitted change keeps is kept by a trail. -/
theorem invariant {I : Compilation → Prop}
    (hI : ∀ c d deed, permits c deed → Change deed c d → I c → I d) (h : Trail permits c d)
    (hc : I c) : I d := by
  induction h with
  | refl => exact hc
  | tail _ hstep ih =>
    obtain ⟨deed, hp, hchange⟩ := hstep
    exact hI _ _ deed hp hchange ih

end Trail

end ObjcBinding
