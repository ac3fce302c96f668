import ObjcBinding.Proofs.Steps.Leaves

/-!
# Functions under changes

A function is touched by no deed but those that name it. It gets its selector once, and the
selector that it gets follows the grammar.

* `Selector.Table.Valid.text_inj`: the text of a valid selector gives its handle;
* `Change.funcAt_cases`: all that a change can do to a function;
* `Change.info_cases`: a function is annotated as before, or just now;
* `Trail.funcSource_eq`: binding edits no function;
* `Trail.funcValid`: an error that is charged to a function is reported.
-/

namespace ObjcBinding

/-! ## Valid selectors -/

/-- The selector belongs to a text that follows the grammar and to the number of its colons. -/
def Selector.Table.Valid (t : Selector.Table) (s : Selector) : Prop :=
  ∃ e, t.get? s = some e ∧ Selector.arity e.text = .ok e.arity

namespace Selector.Table

variable {t : Table} {s : Selector}

theorem Valid.arity_text (h : t.Valid s) : Selector.arity (t.text s) = .ok (t.arity s) := by
  obtain ⟨e, he, ha⟩ := h
  rw [text_of_get? he, arity_of_get? he]
  exact ha

/-- The text of a valid selector gives its number of arguments, and with it the handle. -/
theorem Valid.text_inj {s' : Selector} (h : t.Valid s) (h' : t.Valid s')
    (he : t.text s = t.text s') : s = s' := by
  have hn : t.arity s = t.arity s' := by
    have ha := h.arity_text
    rw [he, h'.arity_text] at ha
    injection ha with ha
    exact ha.symm
  obtain ⟨e, hs, -⟩ := h
  obtain ⟨e', hs', -⟩ := h'
  rw [text_of_get? hs, text_of_get? hs'] at he
  rw [arity_of_get? hs, arity_of_get? hs'] at hn
  obtain ⟨txt, n⟩ := e
  obtain ⟨txt', n'⟩ := e'
  cases he
  cases hn
  have hf := find?_eq_some_iff.2 hs
  rw [find?_eq_some_iff.2 hs'] at hf
  cases hf
  rfl

/-- The marker for a foreign handle does not follow the grammar. -/
theorem Valid.text_ne_unknown (h : t.Valid s) : t.text s ≠ "<unknown>" := by
  intro he
  have ha := h.arity_text
  have hf : (Selector.arity "<unknown>").toOption = none := by decide +kernel
  rw [he] at ha
  rw [ha] at hf
  cases hf

theorem Valid.text_mem (h : t.Valid s) : t.text s ∈ t.handles.map t.text := by
  obtain ⟨e, he, -⟩ := h
  exact List.mem_map_of_mem (mem_handles_iff_get?.2 ⟨e, he⟩)

end Selector.Table

variable {deed : Deed} {c d : Compilation}

theorem Compilation.Extends.valid (h : c.Extends d) {s : Selector}
    (hs : c.session.selectors.Valid s) : d.session.selectors.Valid s := by
  obtain ⟨e, he, ha⟩ := hs
  exact ⟨e, h.selectors s e he, ha⟩

theorem Compilation.Extends.arity_eq (h : c.Extends d) {s : Selector}
    (hs : c.session.selectors.Valid s) :
    d.session.selectors.arity s = c.session.selectors.arity s := by
  obtain ⟨e, he, -⟩ := hs
  rw [Selector.Table.arity_of_get? he, Selector.Table.arity_of_get? (h.selectors s e he)]

/-! ## What a change does to a function -/

/-- What the function is after a change by a deed. An invalid one is kept as it is. -/
inductive FuncChange (c : Compilation) (func : FuncId) : Deed → FuncDecl → Prop where
  | keep (deed : Deed) : FuncChange c func deed (c.program.funcAt func)
  | reject :
      (c.program.funcAt func).invalid = false →
      FuncChange c func (.rejectFunc func)
        { c.program.funcAt func with
          invalid := true
          info := (c.program.funcAt func).info.map fun i => { i with dispatch := .unsupported } }
  | assign (s : Selector) :
      (c.program.funcAt func).invalid = false →
      (c.program.funcAt func).selector = none → c.session.selectors.Valid s →
      FuncChange c func (.assign func)
        { c.program.funcAt func with
          info := some
            { selector := s
              dispatch := (c.program.funcAt func).linkage.dispatch
              needsSelectorParam :=
                (c.program.funcAt func).linkage = .objc && c.program.isBoundMember func } }
  | confirm :
      (c.program.funcAt func).invalid = false →
      FuncChange c func (.confirm func)
        { c.program.funcAt func with
          info := (c.program.funcAt func).info.map fun i =>
            { i with dispatch := (c.program.funcAt func).linkage.dispatch } }
  | addParam (param : Param) :
      (c.program.funcAt func).invalid = false → param.implicit = true →
      FuncChange c func (.addParam func)
        { c.program.funcAt func with params := (c.program.funcAt func).params ++ [param] }
  | record (owner : ClassId) (isClassMethod : Bool) (overrides : Option ClassId) :
      (c.program.funcAt func).invalid = false →
      FuncChange c func (.record func owner isClassMethod)
        { c.program.funcAt func with
          info := (c.program.funcAt func).info.map fun i => { i with overrides } }

theorem FuncChange.modify {func id : FuncId} {f : FuncDecl → FuncDecl}
    (h : func = id → FuncChange c func deed (f (c.program.funcAt func))) :
    FuncChange c func deed ((c.program.modifyFunc id f).funcAt func) := by
  rw [Program.funcAt_modifyFunc]
  split
  · rename_i hx
    exact h hx.1
  · exact .keep deed

/-- All that a change can do to a function. -/
theorem Change.funcAt_cases (h : Change deed c d) (func : FuncId) :
    FuncChange c func deed (d.program.funcAt func) := by
  cases h with
  | rejectFunc _ _ _ _ hv =>
    refine FuncChange.modify ?_
    rintro rfl
    exact .reject hv
  | @assign _ id s e hs hv he ha =>
    refine FuncChange.modify ?_
    rintro rfl
    exact .assign s hv hs ⟨e, he, ha⟩
  | confirm hv =>
    refine FuncChange.modify ?_
    rintro rfl
    exact .confirm hv
  | addParam hv =>
    refine FuncChange.modify ?_
    rintro rfl
    exact .addParam _ hv rfl
  | record cls side overrides _ hv =>
    refine FuncChange.modify ?_
    rintro rfl
    exact .record _ side overrides hv
  | declare scope name entry h =>
    obtain ⟨scopes, rfl⟩ := Program.scopes_of_declare h
    exact .keep _
  | _ => exact .keep _

/-- Only an `assign` annotates a function, with a valid selector. Whether the function needs the
hidden parameter is decided by what its class is at that time. -/
theorem Change.info_of_none (h : Change deed c d) {func : FuncId} {j : FuncInfo}
    (hn : (c.program.funcAt func).info = none) (hj : (d.program.funcAt func).info = some j) :
    deed = .assign func ∧ c.session.selectors.Valid j.selector ∧
      j.needsSelectorParam =
        ((c.program.funcAt func).linkage = .objc && c.program.isBoundMember func) := by
  have hcases := h.funcAt_cases func
  generalize d.program.funcAt func = f at hcases hj
  cases hcases with
  | assign s _ _ hs =>
    cases hj
    exact ⟨rfl, hs, rfl⟩
  | keep => cases hn.symm.trans hj
  | addParam => cases hn.symm.trans hj
  | reject | confirm | record =>
    simp only [hn, Option.map_none, reduceCtorEq] at hj

theorem Change.info_cases (h : Change deed c d) {func : FuncId} {j : FuncInfo}
    (hj : (d.program.funcAt func).info = some j) :
    (∃ i, (c.program.funcAt func).info = some i ∧ j.selector = i.selector ∧
      j.needsSelectorParam = i.needsSelectorParam) ∨
    (c.program.funcAt func).info = none ∧ c.session.selectors.Valid j.selector := by
  cases hi : (c.program.funcAt func).info with
  | none =>
    obtain ⟨-, hvalid, -⟩ := h.info_of_none hi hj
    exact .inr ⟨rfl, hvalid⟩
  | some i =>
    obtain ⟨j', hj', hs, hn⟩ := h.extends.program.selector func i hi
    rw [hj] at hj'
    cases hj'
    exact .inl ⟨i, rfl, hs, hn⟩

/-! ## What stays -/

theorem Change.funcSource_eq (h : Change deed c d) (func : FuncId) :
    (d.program.funcAt func).source = (c.program.funcAt func).source := by
  have hcases := h.funcAt_cases func
  generalize d.program.funcAt func = f at hcases ⊢
  cases hcases with
  | addParam param _ hp => simp [FuncDecl.source, FuncDecl.explicitParams, hp]
  | _ => rfl

theorem Change.funcValid (h : Change deed c d) (hd : d.Clean) {func : FuncId}
    (hv : (c.program.funcAt func).invalid = false) : (d.program.funcAt func).invalid = false := by
  have hcases := h.funcAt_cases func
  generalize d.program.funcAt func = f at hcases ⊢
  cases hcases with
  | reject =>
    cases h with
    | rejectFunc _ e log => exact absurd hd (Compilation.not_clean_report _ e log)
  | _ => exact hv

/-- A function that is invalid stays so. -/
theorem Change.funcValid_of (h : Change deed c d) {func : FuncId}
    (hd : (d.program.funcAt func).invalid = false) : (c.program.funcAt func).invalid = false := by
  have hcases := h.funcAt_cases func
  generalize d.program.funcAt func = f at hcases hd
  cases hcases with
  | reject => cases hd
  | _ => exact hd

/-- The error was charged to the function, unless there is no such function. -/
def Compilation.Rejected (d : Compilation) (func : FuncId) : Prop :=
  d.program.funcs.contains func = true → (d.program.funcAt func).invalid = true

theorem Change.rejected {func : FuncId} (h : Change (.rejectFunc func) c d) : d.Rejected func := by
  cases h with
  | rejectFunc _ e log =>
    intro hc
    change (c.program.funcs.modify func _).contains func = true at hc
    rw [Arena.contains_modify] at hc
    change ((c.program.modifyFunc func _).funcAt func).invalid = true
    rw [Program.funcAt_modifyFunc, if_pos ⟨rfl, hc⟩]

variable {permits : Compilation → Deed → Prop}

/-- Binding edits nothing that is written in the source of a function. -/
theorem Trail.funcSource_eq (h : Trail permits c d) (func : FuncId) :
    (d.program.funcAt func).source = (c.program.funcAt func).source :=
  h.invariant (I := fun d => (d.program.funcAt func).source = (c.program.funcAt func).source)
    (fun _ _ _ _ hstep he => (hstep.funcSource_eq func).trans he) rfl

theorem Trail.linkage_eq (h : Trail permits c d) (func : FuncId) :
    (d.program.funcAt func).linkage = (c.program.funcAt func).linkage := by
  have hs := congrArg FuncDecl.linkage (h.funcSource_eq func)
  exact hs

theorem Trail.isStatic_eq (h : Trail permits c d) (func : FuncId) :
    (d.program.funcAt func).isStatic = (c.program.funcAt func).isStatic := by
  have hs := congrArg FuncDecl.isStatic (h.funcSource_eq func)
  exact hs

theorem Trail.funcValid (h : Trail permits c d) (hd : d.Clean) {func : FuncId}
    (hv : (c.program.funcAt func).invalid = false) : (d.program.funcAt func).invalid = false := by
  induction h with
  | refl => exact hv
  | tail _ hstep ih =>
    obtain ⟨deed, -, hchange⟩ := hstep
    exact hchange.funcValid hd (ih (hchange.extends.clean hd))

theorem Trail.funcValid_of (h : Trail permits c d) {func : FuncId}
    (hd : (d.program.funcAt func).invalid = false) : (c.program.funcAt func).invalid = false := by
  induction h with
  | refl => exact hd
  | tail _ hstep ih =>
    obtain ⟨deed, -, hchange⟩ := hstep
    exact ih (hchange.funcValid_of hd)

end ObjcBinding
