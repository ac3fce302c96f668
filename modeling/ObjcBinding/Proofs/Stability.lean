import ObjcBinding.Proofs.DispatchTables

/-!
# Stable records

Operations add to what is on record and take nothing back. A declaration that is there stays as it
was written, only that a function may get its hidden parameter at the end; an invalid declaration
stays invalid; the annotations of classes and functions are continued; scopes and the table of
selectors grow at their ends.

* `FuncDecl.Stable.trans`: however many operations are run, a function gets one parameter at most;
* `Change.stable`: every single change keeps what is on record;
* `records_stable`: so does every operation, whether it ends well or not.
-/

namespace ObjcBinding

open Program

/-! ## What is kept of a declaration -/

/-- The class `e` is written like `d`, and has all that was recorded about `d`. -/
structure ClassDecl.Stable (d e : ClassDecl) : Prop where
  source : e.source = d.source
  members : e.members = d.members
  invalid : d.invalid = true → e.invalid = true
  info : ∀ i, d.info = some i → i.role = .ordinary → ∃ j, e.info = some j ∧ i.Continues j

/-- The function `e` is written like `d`, and has all that was recorded about `d`. It may have got
the hidden parameter, unless `d` has one. -/
structure FuncDecl.Stable (d e : FuncDecl) : Prop where
  source : e.source = d.source
  params : e.params = d.params ∨ ∃ hidden : Param, hidden.isHidden = true ∧
    (∀ p ∈ d.params, p.isHidden = false) ∧ e.params = d.params ++ [hidden]
  invalid : d.invalid = true → e.invalid = true
  info : ∀ i, d.info = some i → ∃ j, e.info = some j ∧ j.selector = i.selector ∧
    j.needsSelectorParam = i.needsSelectorParam

/-- The scope `t` is nested like `s`, and has the entries of `s` before all others. -/
structure Scope.Stable (s t : Scope) : Prop where
  parent : t.parent = s.parent
  entries : s.entries <+: t.entries

theorem ClassDecl.Stable.trans {d e f : ClassDecl} (h : d.Stable e) (h' : e.Stable f) :
    d.Stable f where
  source := h'.source.trans h.source
  members := h'.members.trans h.members
  invalid := fun hd => h'.invalid (h.invalid hd)
  info := fun i hi ho => by
    obtain ⟨j, hj, hij⟩ := h.info i hi ho
    obtain ⟨k, hk, hjk⟩ := h'.info j hj hij.role
    exact ⟨k, hk, hij.trans hjk⟩

namespace FuncDecl.Stable

variable {d e f : FuncDecl}

/-- The hidden parameter is added once. -/
theorem trans (h : d.Stable e) (h' : e.Stable f) : d.Stable f where
  source := h'.source.trans h.source
  params := by
    rcases h.params with he | ⟨hidden, hh, hnone, he⟩
    · rw [← he]
      exact h'.params
    · rcases h'.params with hf | ⟨again, -, hnone', -⟩
      · exact .inr ⟨hidden, hh, hnone, hf.trans he⟩
      · have hmem : hidden ∈ e.params := by
          rw [he]
          exact List.mem_append_right _ List.mem_cons_self
        cases hh.symm.trans (hnone' hidden hmem)
  invalid := fun hd => h'.invalid (h.invalid hd)
  info := fun i hi => by
    obtain ⟨j, hj, hs, hn⟩ := h.info i hi
    obtain ⟨k, hk, hs', hn'⟩ := h'.info j hj
    exact ⟨k, hk, hs'.trans hs, hn'.trans hn⟩

end FuncDecl.Stable

namespace Scope.Stable

variable {s t u : Scope}

theorem refl (s : Scope) : s.Stable s := ⟨rfl, List.prefix_refl _⟩

theorem trans (h : s.Stable t) (h' : t.Stable u) : s.Stable u :=
  ⟨h'.parent.trans h.parent, h.entries.trans h'.entries⟩

theorem declare {name : Symbol} {entry : ScopeEntry} (h : s.declare name entry = .ok t) :
    s.Stable t := by
  unfold Scope.declare at h
  split at h
  · cases h
  · cases h
    exact ⟨rfl, List.prefix_append _ _⟩

end Scope.Stable

/-- What `a` has issued, `b` has as well, and the elements are as `R` says. -/
def Arena.Keeps {kind : Kind} {α : Type} [Inhabited α] (R : α → α → Prop) (a b : Arena kind α) :
    Prop :=
  ∀ h, a.contains h = true → b.contains h = true ∧ R (a.get h) (b.get h)

theorem Arena.Keeps.trans {kind : Kind} {α : Type} [Inhabited α] {R : α → α → Prop}
    {a b c : Arena kind α} (hR : ∀ x y z, R x y → R y z → R x z) (h : a.Keeps R b)
    (h' : b.Keeps R c) : a.Keeps R c := by
  intro id hc
  obtain ⟨hb, hab⟩ := h id hc
  obtain ⟨hc, hbc⟩ := h' id hb
  exact ⟨hc, hR _ _ _ hab hbc⟩

/-- `d` has all declarations of `c`, written as in `c`, and all that is on record in `c`. -/
structure Compilation.Stable (c d : Compilation) : Prop where
  classes : c.program.classes.Keeps ClassDecl.Stable d.program.classes
  funcs : c.program.funcs.Keeps FuncDecl.Stable d.program.funcs
  groups : d.program.groups = c.program.groups
  scopes : c.program.scopes.Keeps Scope.Stable d.program.scopes
  names : ∀ k t, c.program.names.resolve k = some t → d.program.names.resolve k = some t
  selectors : ∀ s e, c.session.selectors.get? s = some e → d.session.selectors.get? s = some e

theorem Compilation.Stable.refl (c : Compilation) : c.Stable c where
  classes := fun _ hc => ⟨hc, rfl, rfl, id, fun i hi ho => ⟨i, hi, .refl ho⟩⟩
  funcs := fun _ hc => ⟨hc, rfl, .inl rfl, id, fun i hi => ⟨i, hi, rfl, rfl⟩⟩
  groups := rfl
  scopes := fun _ hc => ⟨hc, .refl _⟩
  names := fun _ _ h => h
  selectors := fun _ _ h => h

theorem Compilation.Stable.trans {b c d : Compilation} (h : b.Stable c) (h' : c.Stable d) :
    b.Stable d where
  classes := h.classes.trans (fun _ _ _ => ClassDecl.Stable.trans) h'.classes
  funcs := h.funcs.trans (fun _ _ _ => FuncDecl.Stable.trans) h'.funcs
  groups := h'.groups.trans h.groups
  scopes := h.scopes.trans (fun _ _ _ => Scope.Stable.trans) h'.scopes
  names := fun k t ht => h'.names k t (h.names k t ht)
  selectors := fun s e hs => h'.selectors s e (h.selectors s e hs)

/-! ## Changes -/

variable {deed : Deed} {c d : Compilation}

/-- A function gets the hidden parameter if it has none, and no other. -/
theorem Change.params_cases (h : Change deed c d) (func : FuncId) :
    (d.program.funcAt func).params = (c.program.funcAt func).params ∨
      ∃ hidden : Param, hidden.isHidden = true ∧
        (∀ p ∈ (c.program.funcAt func).params, p.isHidden = false) ∧
        (d.program.funcAt func).params = (c.program.funcAt func).params ++ [hidden] := by
  by_cases hd : deed = .addParam func
  · subst hd
    cases h with
    | @addParam _ _ name _ _ hnone =>
      change ((c.program.modifyFunc func _).funcAt func).params = _ ∨ ∃ hidden : Param, _ ∧ _ ∧
        ((c.program.modifyFunc func _).funcAt func).params = _
      rw [funcAt_modifyFunc]
      split
      · refine .inr ⟨_, ?_, List.findIdx?_eq_none_iff.1 hnone, rfl⟩
        rfl
      · exact .inl rfl
  · have hcases := h.funcAt_cases func
    generalize d.program.funcAt func = f at hcases ⊢
    cases hcases with
    | addParam => exact absurd rfl hd
    | _ => exact .inl rfl

theorem Program.scopes_keeps_declare {p q : Program} {scope : ScopeId} {name : Symbol}
    {entry : ScopeEntry} (h : p.declare scope name entry = .ok q) :
    p.scopes.Keeps Scope.Stable q.scopes := by
  unfold Program.declare at h
  split at h
  · cases h
  · rename_i t ht
    cases h
    refine fun s hs => ⟨(Arena.contains_modify ..).trans hs, ?_⟩
    rw [Arena.get_modify]
    split
    · rename_i he
      rw [he.1]
      exact .declare ht
    · exact .refl _

theorem Program.scopes_keeps_addScope (p : Program) (parent : Option ScopeId) :
    p.scopes.Keeps Scope.Stable (p.addScope parent).2.scopes := by
  refine fun s hs => ⟨(Arena.contains_alloc ..).2 (.inr hs), ?_⟩
  change (p.scopes.get s).Stable ((p.scopes.alloc { parent }).2.get s)
  rw [Arena.get_alloc, if_neg (Arena.ne_fresh hs)]
  exact .refl _

theorem Change.scopes_keeps (h : Change deed c d) :
    c.program.scopes.Keeps Scope.Stable d.program.scopes := by
  cases h with
  | addScope parent => exact scopes_keeps_addScope c.program parent
  | declare scope name entry h => exact scopes_keeps_declare h
  | _ => exact fun s hs => ⟨hs, .refl _⟩

theorem Change.groups_eq (h : Change deed c d) : d.program.groups = c.program.groups := by
  cases h with
  | declare scope name entry h =>
    obtain ⟨scopes, rfl⟩ := scopes_of_declare h
    rfl
  | _ => rfl

/-- Every change keeps what is on record. -/
theorem Change.stable (h : Change deed c d) : c.Stable d := by
  have hext := h.extends
  refine ⟨fun cls hc => ⟨hext.program.containsClass cls hc, ?_⟩,
    fun func hc => ⟨hext.program.containsFunc func hc, ?_⟩, h.groups_eq, h.scopes_keeps,
    hext.program.names, hext.selectors⟩
  · refine ⟨hext.program.classSource cls hc, h.members_eq cls, fun hv => ?_,
      hext.program.ordinary cls⟩
    by_contra hd
    cases hv.symm.trans (h.classValid_of (Bool.eq_false_iff.2 hd))
  · refine ⟨hext.program.funcSource func hc, h.params_cases func, fun hv => ?_,
      hext.program.selector func⟩
    by_contra hd
    cases hv.symm.trans (h.funcValid_of (Bool.eq_false_iff.2 hd))

/-! ## Operations -/

/-- No metaclass has a method list of its own. -/
def Program.MetaclassesBare (p : Program) : Prop :=
  ∀ m i, (p.classAt m).info = some i → i.role = .metaclass → i.methods.items = []

theorem Program.ListsOwned.metaclassesBare {p : Program} (h : p.ListsOwned) :
    p.MetaclassesBare := by
  intro m i hi hr
  rw [← entries_of_info hi]
  exact h.entries_eq_nil fun ho => nomatch hasRole_unique ho ⟨i, hi, hr⟩

/-- An operation, whether it ends well or not, leaves all declarations as they were written and all
that is on record about them; at most one parameter, a hidden one, is added at the end of the
parameters of each function; scopes and the table of selectors lose no entry; and at all times the
method lists of metaclasses are empty. -/
theorem records_stable {past : List Compilation} (h : Run (fun _ e => e.Unbound) past c)
    (op : Operation) :
    c.Stable (Resolve.finish op.run c) ∧ c.program.MetaclassesBare ∧
      (Resolve.finish op.run c).program.MetaclassesBare := by
  have hU : ∀ (p : Program) (e : Event), e.Unbound → e.Unbound := fun _ _ => id
  obtain ⟨hf, hl⟩ := h.functional hU
  have howned := (Compilation.TablesFit.of_run hU h).owned
  have hphases := op.phases hf hl
  refine ⟨hphases.invariant (fun _ _ _ hstep hc => hc.trans hstep.stable) (.refl c),
    howned.metaclassesBare, ?_⟩
  exact (hphases.invariant (I := fun d => d.program.ListsOwned)
    (fun _ _ _ hstep => hstep.listsOwned) howned).metaclassesBare

/-- `Foo` has two methods `draw`, one for its instances and one that takes an argument too many. -/
def drawnTwiceEvents : List Event :=
  let draw (params : List Param) : FuncDecl :=
    { name := ⟨6⟩, params, span := .point 0 1 1, linkage := .objc
      attrs := [{ value := .literal "draw", span := .point 0 1 1 }] }
  [.grow (.addScope none), .grow (.intern "Foo"), .grow (.intern "draw"),
    .grow (.addClass { name := ⟨5⟩, kind := .concrete, span := .point 0 1 1 }),
    .grow (.addMethod ⟨0⟩ (draw [])),
    .grow (.addMethod ⟨0⟩ (draw [⟨⟨6⟩, none, .named ⟨6⟩, .point 0 2 1, false⟩]))]

/-- Binding `Foo` makes its metaclass, gives the first method the hidden parameter, and rejects the
second one, whose parameters stay as they are. -/
theorem records_stable_drawnTwice :
    let c := (Event.play [] (.new .functional false) drawnTwiceEvents).2
    let d := Resolve.finish (Operation.bindClass ⟨0⟩ ⟨0⟩).run c
    (d.program.classes.size = 2 ∧ (d.program.funcAt ⟨0⟩).params.map (·.isHidden) = [true] ∧
      (d.program.funcAt ⟨1⟩).params.map (·.isHidden) = [false] ∧
      (d.program.funcAt ⟨1⟩).invalid = true) ∧
    c.Stable d ∧ c.program.MetaclassesBare ∧ d.program.MetaclassesBare := by
  intro c d
  have hrun : Run (fun _ e => e.Unbound) (Event.play [] (.new .functional false)
      drawnTwiceEvents).1 c :=
    (Run.start false).play (by decide +kernel)
  exact ⟨by decide +kernel, records_stable hrun (.bindClass ⟨0⟩ ⟨0⟩)⟩

end ObjcBinding
