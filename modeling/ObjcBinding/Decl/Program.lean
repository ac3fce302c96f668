import ObjcBinding.Decl.Declaration
import ObjcBinding.Decl.Scope
import ObjcBinding.Selector.Derived
import ObjcBinding.Store.Chain

/-!
# The declarations of a compilation

All classes, functions, groups and scopes of one compilation, and the names they use.

* `lookup` finds the meaning of a name from a scope outward;
* `lineage` is a class and its superclasses, the nearest first;
* `lineage_eq`: it starts with the class itself and goes on from its superclass;
* `mem_namedEntries`: a scope shows exactly the entries whose names have a text;
* `sortedEntries_perm`: sorting a scope by name loses no such entry and adds none;
* `classAt_addClass`, `funcAt_addMethod`: a new declaration is found under its own handle;
* `classAt_addClass_eq`, `classAt_modifyClass`, `funcAt_modifyFunc`: what a change does to the
  declaration under any handle;
* `read_modifyClass`, `read_modifyFunc`: what is not changed is read as before.
-/

namespace ObjcBinding

/-- All declarations of one compilation. -/
structure Program where
  names : Interner := .initial
  classes : Arena .classDecl ClassDecl := {}
  funcs : Arena .funcDecl FuncDecl := {}
  groups : Arena .groupDecl GroupDecl := {}
  scopes : Arena .scope Scope := {}

namespace Program

instance : Inhabited Program := ⟨{}⟩

/-! ## Reading -/

/-- The class under a handle. -/
def classAt (p : Program) (id : ClassId) : ClassDecl := p.classes.get id

/-- The function under a handle. -/
def funcAt (p : Program) (id : FuncId) : FuncDecl := p.funcs.get id

/-- The group under a handle. -/
def groupAt (p : Program) (id : GroupId) : GroupDecl := p.groups.get id

/-- The scope under a handle. -/
def scopeAt (p : Program) (id : ScopeId) : Scope := p.scopes.get id

/-- The text of a name; a marker for a symbol that was not issued. -/
def name (p : Program) (s : Symbol) : String := (p.names.resolve s).getD "<anonymous>"

/-- The name of a class. -/
def className (p : Program) (id : ClassId) : String := p.name (p.classAt id).name

/-- The name of a function. -/
def funcName (p : Program) (id : FuncId) : String := p.name (p.funcAt id).name

/-- Whether the function is a member of a bound class. -/
def isBoundMember (p : Program) (id : FuncId) : Bool :=
  (p.funcAt id).parent.any fun parent => (p.classAt parent).isBound

/-- The text of the selector that a function gets if none is written. -/
def derivedSelector (p : Program) (id : FuncId) : String :=
  let d := p.funcAt id
  Selector.derivedText (p.name d.name) (d.explicitParams.map fun q => q.label.map p.name)
    d.isProperty

/-- The entries of a scope under the texts of their names. What was declared without a name has
no text to stand under and is left out. -/
def namedEntries (p : Program) (s : Scope) : List (String × ScopeEntry) :=
  s.entries.filterMap fun e => (p.names.resolve e.1).map (·, e.2)

theorem mem_namedEntries {p : Program} {s : Scope} {t : String} {e : ScopeEntry} :
    (t, e) ∈ p.namedEntries s ↔ ∃ k, p.names.resolve k = some t ∧ (k, e) ∈ s.entries := by
  simp only [namedEntries, List.mem_filterMap, Option.map_eq_some_iff, Prod.mk.injEq]
  constructor
  · rintro ⟨⟨k, _⟩, hm, _, hk, rfl, rfl⟩
    exact ⟨k, hk, hm⟩
  · rintro ⟨k, hk, hm⟩
    exact ⟨(k, e), hm, t, hk, rfl, rfl⟩

/-- The named entries of a scope, in the order of their names. -/
def sortedEntries (p : Program) (s : Scope) : List (String × ScopeEntry) :=
  (p.namedEntries s).mergeSort fun a b => a.1 ≤ b.1

theorem sortedEntries_perm (p : Program) (s : Scope) :
    (p.sortedEntries s).Perm (p.namedEntries s) :=
  List.mergeSort_perm ..

/-! ## Following links -/

/-- The superclass of a class, as its annotation gives it. -/
def superclass? (p : Program) (id : ClassId) : Option ClassId := (p.classAt id).superclass

/-- A class and its superclasses, the nearest first. -/
def lineage (p : Program) (id : ClassId) : List ClassId :=
  chain p.superclass? (p.classes.size + 1) id

theorem lineage_eq (p : Program) (id : ClassId) :
    p.lineage id = id :: (p.superclass? id).elim [] (chain p.superclass? p.classes.size) := by
  unfold lineage
  rw [chain_succ]
  cases p.superclass? id <;> rfl

/-- The last class on the way up from `id`. -/
def rootOf (p : Program) (id : ClassId) : ClassId := (p.lineage id).getLastD id

/-- The enclosing scope of a scope. -/
def outer? (p : Program) (id : ScopeId) : Option ScopeId :=
  (p.scopes.get? id).bind (·.parent)

/-- A scope and those around it, the innermost first. -/
def scopesFrom (p : Program) (id : ScopeId) : List ScopeId :=
  chain p.outer? (p.scopes.size + 1) id

/-- What `name` stands for in the scope `id`: the meaning given by the nearest scope outward. -/
def lookup (p : Program) (id : ScopeId) (name : Symbol) : Option ScopeEntry :=
  (p.scopesFrom id).findSome? fun s => (p.scopes.get? s).bind (·.local? name)

/-! ## Growing -/

/-- Interns a name. -/
def intern (p : Program) (s : String) : Symbol × Program :=
  let (k, names) := p.names.intern s
  (k, { p with names })

theorem resolve_intern (p : Program) (s : String) :
    (p.intern s).2.names.resolve (p.intern s).1 = some s :=
  Interner.resolve_intern p.names s

/-- Adds a class or protocol. -/
def addClass (p : Program) (d : ClassDecl) : ClassId × Program :=
  let (id, classes) := p.classes.alloc d
  (id, { p with classes })

theorem classAt_addClass (p : Program) (d : ClassDecl) :
    (p.addClass d).2.classAt (p.addClass d).1 = d :=
  Arena.get_of_get? (Arena.get?_alloc_self p.classes d)

/-- Adds a free function. -/
def addFunction (p : Program) (d : FuncDecl) : FuncId × Program :=
  let (id, funcs) := p.funcs.alloc d
  (id, { p with funcs })

theorem funcAt_addFunction (p : Program) (d : FuncDecl) :
    (p.addFunction d).2.funcAt (p.addFunction d).1 = d :=
  Arena.get_of_get? (Arena.get?_alloc_self p.funcs d)

/-- Changes one class. -/
def modifyClass (p : Program) (id : ClassId) (f : ClassDecl → ClassDecl) : Program :=
  { p with classes := p.classes.modify id f }

/-- Changes one function. -/
def modifyFunc (p : Program) (id : FuncId) (f : FuncDecl → FuncDecl) : Program :=
  { p with funcs := p.funcs.modify id f }

/-- Adds a function as the last member of a class. -/
def addMethod (p : Program) (cls : ClassId) (d : FuncDecl) : FuncId × Program :=
  let (id, p) := p.addFunction { d with parent := some cls }
  (id, p.modifyClass cls fun c => { c with members := c.members ++ [id] })

theorem funcAt_addMethod (p : Program) (cls : ClassId) (d : FuncDecl) :
    (p.addMethod cls d).2.funcAt (p.addMethod cls d).1 = { d with parent := some cls } :=
  p.funcAt_addFunction { d with parent := some cls }

/-- Adds a group of functions. -/
def addGroup (p : Program) (d : GroupDecl) : GroupId × Program :=
  let (id, groups) := p.groups.alloc d
  (id, { p with groups })

/-- Adds a function as the last member of a group. Its class is the group's target, which does
not list it among its own members. -/
def addGroupMember (p : Program) (group : GroupId) (d : FuncDecl) : FuncId × Program :=
  let (id, p) := p.addFunction { d with parent := some (p.groupAt group).target }
  (id, { p with groups := p.groups.modify group fun g => { g with members := g.members ++ [id] } })

/-- Adds a scope nested in `parent`, which may name no scope. -/
def addScope (p : Program) (parent : Option ScopeId) : ScopeId × Program :=
  let (id, scopes) := p.scopes.alloc { parent }
  (id, { p with scopes })

/-! ## The declarations after a change -/

/-- Under a handle that was not issued there is an empty declaration. -/
theorem contains_of_ne {p : Program} {id : ClassId} (h : p.classAt id ≠ default) :
    p.classes.contains id = true := by
  cases hc : p.classes.contains id with
  | true => rfl
  | false => exact absurd (Arena.get_of_not_contains hc) h

theorem containsFunc_of_ne {p : Program} {id : FuncId} (h : p.funcAt id ≠ default) :
    p.funcs.contains id = true := by
  cases hc : p.funcs.contains id with
  | true => rfl
  | false => exact absurd (Arena.get_of_not_contains hc) h

theorem contains_of_info {p : Program} {id : ClassId} {i : ClassInfo}
    (h : (p.classAt id).info = some i) : p.classes.contains id = true := by
  refine contains_of_ne fun hd => ?_
  rw [hd] at h
  cases h

theorem containsFunc_of_info {p : Program} {id : FuncId} {i : FuncInfo}
    (h : (p.funcAt id).info = some i) : p.funcs.contains id = true := by
  refine containsFunc_of_ne fun hd => ?_
  rw [hd] at h
  cases h

theorem containsFunc_of_objc {p : Program} {id : FuncId}
    (h : (p.funcAt id).linkage = .objc) : p.funcs.contains id = true := by
  refine containsFunc_of_ne fun hd => ?_
  rw [hd] at h
  cases h

theorem containsFunc_of_parent {p : Program} {id : FuncId} {cls : ClassId}
    (h : (p.funcAt id).parent = some cls) : p.funcs.contains id = true := by
  refine containsFunc_of_ne fun hd => ?_
  rw [hd] at h
  cases h

theorem classAt_addClass_eq (p : Program) (d : ClassDecl) (id : ClassId) :
    (p.addClass d).2.classAt id = if id = ⟨p.classes.size⟩ then d else p.classAt id :=
  Arena.get_alloc p.classes d id

theorem funcAt_addFunction_eq (p : Program) (d : FuncDecl) (id : FuncId) :
    (p.addFunction d).2.funcAt id = if id = ⟨p.funcs.size⟩ then d else p.funcAt id :=
  Arena.get_alloc p.funcs d id

theorem classAt_modifyClass (p : Program) (id : ClassId) (f : ClassDecl → ClassDecl)
    (other : ClassId) :
    (p.modifyClass id f).classAt other =
      if other = id ∧ p.classes.contains id = true then f (p.classAt other)
      else p.classAt other :=
  Arena.get_modify p.classes id other f

theorem funcAt_modifyFunc (p : Program) (id : FuncId) (f : FuncDecl → FuncDecl)
    (other : FuncId) :
    (p.modifyFunc id f).funcAt other =
      if other = id ∧ p.funcs.contains id = true then f (p.funcAt other)
      else p.funcAt other :=
  Arena.get_modify p.funcs id other f

/-- A change of one class shows in no reading that it keeps. -/
theorem read_modifyClass {p : Program} {α : Type} (g : ClassDecl → α) {f : ClassDecl → ClassDecl}
    (h : ∀ d, g (f d) = g d) (id other : ClassId) :
    g ((p.modifyClass id f).classAt other) = g (p.classAt other) := by
  rw [classAt_modifyClass]
  split
  · exact h _
  · rfl

/-- A change of one function shows in no reading that it keeps. -/
theorem read_modifyFunc {p : Program} {α : Type} (g : FuncDecl → α) {f : FuncDecl → FuncDecl}
    (h : ∀ d, g (f d) = g d) (id other : FuncId) :
    g ((p.modifyFunc id f).funcAt other) = g (p.funcAt other) := by
  rw [funcAt_modifyFunc]
  split
  · exact h _
  · rfl

theorem modifyFunc_congr {p : Program} {id : FuncId} {f g : FuncDecl → FuncDecl}
    (h : f (p.funcAt id) = g (p.funcAt id)) : p.modifyFunc id f = p.modifyFunc id g := by
  rw [modifyFunc, Arena.modify_congr h, modifyFunc]

theorem modifyFunc_eq_self {p : Program} {id : FuncId} {f : FuncDecl → FuncDecl}
    (h : f (p.funcAt id) = p.funcAt id) : p.modifyFunc id f = p := by
  rw [modifyFunc, Arena.modify_eq_self h]

/-- Gives a name a meaning in one scope, or returns the one it has there. -/
def declare (p : Program) (scope : ScopeId) (name : Symbol) (entry : ScopeEntry) :
    Except ScopeEntry Program :=
  match (p.scopeAt scope).declare name entry with
  | .error existing => .error existing
  | .ok s => .ok { p with scopes := p.scopes.modify scope fun _ => s }

/-- A declaration shows in its scope and under its name only, if the scope has been issued. -/
theorem local?_declare {p q : Program} {scope : ScopeId} {name : Symbol} {entry : ScopeEntry}
    (h : p.declare scope name entry = .ok q) (other : ScopeId) (k : Symbol) :
    (q.scopeAt other).local? k =
      if (other = scope ∧ p.scopes.contains scope = true) ∧ k = name then some entry
      else (p.scopeAt other).local? k := by
  unfold declare at h
  split at h
  · cases h
  · rename_i s hs
    cases h
    change ((p.scopes.modify scope fun _ => s).get other).local? k = _
    rw [Arena.get_modify]
    split
    · rename_i hscope
      rw [Scope.local?_declare hs, hscope.1]
      simp only [true_and, hscope.2]
    · rename_i hscope
      rw [if_neg fun hk => hscope hk.1, scopeAt]

end Program

end ObjcBinding
