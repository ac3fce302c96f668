import ObjcBinding.Binding.Compilation

/-!
# Methods

A method gets its selector from an attribute or from its signature. The selector must fit the
method: its place, its linkage, and the number of its parameters. A method that is called by
messages carries a hidden parameter for the selector of the call.

* `Program.isMessageSend` tells which functions are called by messages;
* `Program.receiver?` gives the type of a method's receiver;
* `Resolve.assignSelector_of_some`: a selector once assigned stays;
* `Resolve.validateSelector_of_invalid`: an invalid function is not complained about again.
-/

namespace ObjcBinding

namespace Program

/-- Whether calls to the function are messages that the runtime looks up. -/
def isMessageSend (p : Program) (id : FuncId) : Bool :=
  let d := p.funcAt id
  !d.invalid && d.linkage = .objc && !d.isStatic && !d.isFinal && d.visibility ≠ .inClass &&
    d.info.any (·.dispatch = .message) && p.isBoundMember id

/-- The type of the receiver of a member: its class, or the metaclass if the member belongs to
the class itself. -/
def receiver? (p : Program) (id : FuncId) : Option ClassId :=
  let d := p.funcAt id
  match d.parent with
  | none => none
  | some parent =>
    if !d.isStatic then some parent
    else (p.classAt parent).info.map fun i =>
      if i.isMetaclass then parent else i.paired.getD parent

/-- The text that a selector attribute stands for in a scope: its own, or that of the string
constant it names. -/
def attrText (p : Program) (scope : ScopeId) (attr : SelectorAttr) : Except BindError String :=
  match attr.value with
  | .literal text => .ok text
  | .constant name =>
    match p.lookup scope name with
    | some (.constant text) => .ok text
    | _ => .error (.invalidSelector (p.name name) .notStringConstant attr.span)

end Program

namespace Resolve

/-- Takes over a table in which `s` was interned, and says so if `s` is new. -/
def adopt (s : Selector) (t : Selector.Table) : Resolve Selector := do
  if (← selectors).size < t.size then
    say .trace .selectors s!"interned selector `{t.text s}` ({t.arity s} args) as #{s.id}"
  modify fun c => { c with session := { c.session with selectors := t } }
  return s

/-- Interns a selector, without a check of its text. -/
def internSelector (text : String) (arity : Nat) : Resolve Selector := do
  let (s, t) := (← selectors).intern text arity
  adopt s t

/-- Interns a selector whose text follows the grammar. The error is not reported. -/
def lookupSelector (text : String) (span : Span) : Resolve Selector := do
  match (← selectors).lookup text with
  | .error fault => throw (.invalidSelector text fault span)
  | .ok (s, t) => adopt s t

/-- Interns the selector derived from a function's signature. The error is not reported. -/
def deriveSelector (id : FuncId) : Resolve Selector := do
  let p ← program
  lookupSelector (p.derivedSelector id) (p.funcAt id).span

/-- Reports an error that `x` raises, charging it to a function. -/
def rejecting {α : Type} (id : FuncId) (x : Resolve α) : Resolve α :=
  tryCatch x fun e => reject (.funcDecl id) e

/-- The selector that a function is to get, from its attribute or its signature. A function
without an attribute gets one only as an Objective-C member of a bound class. -/
def chooseSelector (id : FuncId) (scope : ScopeId) : Resolve (Option Selector) := do
  let p ← program
  let d := p.funcAt id
  match d.attrs with
  | [] =>
    if d.linkage = .objc && p.isBoundMember id then some <$> rejecting id (deriveSelector id)
    else return none
  | [attr] =>
    match p.attrText scope attr with
    | .ok text => some <$> rejecting id (lookupSelector text attr.span)
    | .error e => reject (.funcDecl id) e
  | _ :: second :: _ =>
    reject (.funcDecl id) (.multipleSelectors (p.funcName id) second.span)

/-- Gives a function its selector, named constants being looked up in `scope`. A function that
has one keeps it; an invalid function gets none. -/
def assignSelector (id : FuncId) (scope : ScopeId) : Resolve (Option Selector) := do
  let p ← program
  let d := p.funcAt id
  match d.selector with
  | some s => return some s
  | none =>
    if d.invalid then return none
    else match ← chooseSelector id scope with
    | none => return none
    | some s =>
      let info : FuncInfo :=
        { selector := s
          dispatch := d.linkage.dispatch
          needsSelectorParam := d.linkage = .objc && p.isBoundMember id }
      updateProgram fun p => p.modifyFunc id fun d => { d with info := some info }
      say .trace .annotations
        s!"`{p.funcName id}` answers to `{(← selectors).text s}` at {d.span.place}"
      return some s

/-- Checks that the function may have its selector and has as many parameters as it says. -/
def validateSelector (id : FuncId) : Resolve Unit := do
  let p ← program
  let t ← selectors
  let d := p.funcAt id
  match d.selector with
  | none => return ()
  | some s =>
    if d.invalid then return ()
    else if d.isTemplate then
      reject (.funcDecl id) (.selectorOnTemplate (p.name d.name) d.span)
    else if !p.isBoundMember id then
      reject (.funcDecl id) (.selectorOutsideClass (p.name d.name) d.span)
    else if t.arity s ≠ d.explicitCount then
      reject (.funcDecl id) (.arityMismatch (t.text s) (t.arity s) d.explicitCount d.span)
    else return ()

theorem assignSelector_of_some {c : Compilation} {id : FuncId} {s : Selector}
    (h : (c.program.funcAt id).selector = some s) (scope : ScopeId) :
    assignSelector id scope c = .ok (some s) c := by
  rw [assignSelector, bind_apply, program_apply]
  simp only [h]
  rfl

theorem validateSelector_of_invalid {c : Compilation} {id : FuncId}
    (h : (c.program.funcAt id).invalid = true) : validateSelector id c = .ok () c := by
  rw [validateSelector, bind_apply, program_apply]
  simp only [bind_apply, selectors_apply, h]
  cases (c.program.funcAt id).selector <;> rfl

/-- Checks that the linkage of a function with a selector allows messages, and records how calls
to it are made. -/
def checkLinkage (id : FuncId) : Resolve Unit := do
  let p ← program
  let d := p.funcAt id
  if d.info.isNone || d.invalid then return ()
  else if d.linkage ≠ .objc then
    reject (.funcDecl id) (.linkageConflict (p.name d.name) d.linkage d.span)
  else
    updateProgram fun p => p.modifyFunc id fun d =>
      { d with info := d.info.map fun i => { i with dispatch := d.linkage.dispatch } }

end Resolve

/-- A parameter of a function, by its position. -/
structure ParamRef where
  func : FuncId
  index : Nat
  deriving DecidableEq, Repr

/-- The name of the hidden parameter. -/
def selectorParamName : String := "_cmd"

namespace Resolve

/-- The position of the hidden parameter of a function, which is added if it is missing. -/
def placeSelectorParam (id : FuncId) (name : Symbol) : Resolve Nat := do
  let d := (← program).funcAt id
  match d.params.findIdx? (·.isHidden) with
  | some index => return index
  | none =>
    let param : Param :=
      { name, label := none, type := .selector, span := d.span, implicit := true }
    updateProgram fun p => p.modifyFunc id fun d => { d with params := d.params ++ [param] }
    return d.params.length

/-- Gives a function that needs it the hidden parameter, and declares it in `scope` unless its
name has another meaning there. -/
def addSelectorParam (id : FuncId) (scope : ScopeId) : Resolve (Option ParamRef) := do
  let p ← program
  let d := p.funcAt id
  if !d.info.any (·.needsSelectorParam) || d.invalid then return none
  else
    let name ← modifyGetProgram (·.intern selectorParamName)
    let index ← placeSelectorParam id name
    let entry := ScopeEntry.param id index
    match (← program).declare scope name entry with
    | .ok p => updateProgram fun _ => p
    | .error existing =>
      if existing ≠ entry then
        say .warn .annotations
          s!"`{selectorParamName}` of `{p.funcName id}` is shadowed by an earlier declaration"
    return some ⟨id, index⟩

end Resolve

end ObjcBinding
