import Mathlib.Data.List.Nodup
import ObjcBinding.Proofs.DispatchTables

/-!
# The side of a method

A function is declared for one side, for instances or for the class itself, and the side of an
entry in a method list is that of its function. One operation does not ask the declaration: it
records functions that are given for either side as they are given. So a function may come to
stand on the other side, and even on both.

* `Phases.lists_of_new`: a new entry was permitted by the operation that brought it;
* `sidesDeclared_iff`: all entries stand on the declared sides exactly if no function was ever
  recorded on the other one because it was given for it; then every function is recorded once.
-/

namespace ObjcBinding

open Program Resolve

variable {c d : Compilation} {cls : ClassId} {marks : ClassId → Prop}
  {lists : FuncId → ClassId → Bool → Prop}

/-! ## Where entries come from -/

theorem Change.lists_of_new {deed : Deed} (h : Change deed c d) (hc : c.program.ListsOwned)
    {e : MethodEntry} (he : e ∈ d.program.entries cls) (hn : e ∉ c.program.entries cls) :
    deed = .record e.func cls e.isClassMethod := by
  by_cases hr : ∃ func side, deed = .record func cls side
  · obtain ⟨func, side, rfl⟩ := hr
    obtain ⟨s, -, -, -, hentries⟩ := h.record_entries
    rw [hentries, if_pos rfl] at he
    rcases List.mem_append.1 he with he | he
    · exact absurd he hn
    · obtain rfl := List.mem_singleton.1 he
      rfl
  · rw [h.entries_eq hc fun func side hd => hr ⟨func, side, hd⟩] at he
    exact absurd he hn

/-- Every new entry is one that the listing was permitted to make. -/
theorem Phases.lists_of_new (h : Phases marks lists c d) (hc : c.program.ListsOwned)
    {e : MethodEntry} (he : e ∈ d.program.entries cls) (hn : e ∉ c.program.entries cls) :
    lists e.func cls e.isClassMethod := by
  obtain ⟨mid, hb, hl⟩ := h
  rw [← hb.entries_eq hc fun _ _ _ hp => hp] at hn
  have hinv := hl.invariant (I := fun d => d.program.ListsOwned ∧
    (e ∈ d.program.entries cls → lists e.func cls e.isClassMethod)) ?_
    ⟨hb.listsOwned hc, fun he => absurd he hn⟩
  · exact hinv.2 he
  · intro d d' deed hp hstep ⟨hd, ih⟩
    refine ⟨hstep.listsOwned hd, fun he => ?_⟩
    by_cases hed : e ∈ d.program.entries cls
    · exact ih hed
    · obtain rfl := hstep.lists_of_new hd he hed
      exact hp

/-! ## Sides -/

/-- Every entry stands on the side that its function is declared for. -/
def Program.SidesDeclared (p : Program) : Prop :=
  ∀ cls e, e ∈ p.entries cls → e.isClassMethod = (p.funcAt e.func).isStatic

/-- Functions were given for either side and recorded so, and one of them has come to stand on
the side that it is not declared for. -/
def Misplaces (c d : Compilation) : Prop :=
  ∃ source ofInstances ofClass,
    d = finish (Operation.recordMethods source ofInstances ofClass).run c ∧
    ∃ cls e, e ∈ d.program.entries cls ∧ e ∉ c.program.entries cls ∧
      e.func ∈ (if e.isClassMethod then ofClass else ofInstances) ∧
      e.isClassMethod ≠ (d.program.funcAt e.func).isStatic

/-- At one of the times, the latest first, this has happened. -/
def Misplaced : List Compilation → Prop
  | d :: c :: past => Misplaces c d ∨ Misplaced (c :: past)
  | _ => False

theorem Phases.isStatic_eq (h : Phases marks lists c d) (func : FuncId) :
    (d.program.funcAt func).isStatic = (c.program.funcAt func).isStatic := by
  obtain ⟨mid, hb, hl⟩ := h
  rw [hl.isStatic_eq, hb.isStatic_eq]

/-- An operation puts functions on the sides that they are declared for, unless it misplaces
one. -/
theorem Operation.side_of_new (op : Operation) (hf : c.session.strategy = .functional)
    (hl : c.program.Layered) (hc : c.program.ListsOwned) {e : MethodEntry}
    (he : e ∈ (finish op.run c).program.entries cls) (hn : e ∉ c.program.entries cls) :
    e.isClassMethod = ((finish op.run c).program.funcAt e.func).isStatic ∨
      Misplaces c (finish op.run c) := by
  have hphases := op.phases hf hl
  have hlists := hphases.lists_of_new hc he hn
  have hown (hside : e.isClassMethod = (c.program.funcAt e.func).isStatic) :
      e.isClassMethod = ((finish op.run c).program.funcAt e.func).isStatic := by
    rw [hphases.isStatic_eq, hside]
  cases op with
  | recordMethods source ofInstances ofClass =>
    refine or_iff_not_imp_left.2 fun hside => ?_
    exact ⟨source, ofInstances, ofClass, rfl, cls, e, he, hn, hlists.2, hside⟩
  | recordMethod => exact .inl (hown hlists.2)
  | recordGroup => exact .inl (hown hlists.2)
  | bindMethod => exact .inl (hown hlists.2)
  | bindClass => exact .inl (hown hlists.2)
  | _ => exact hlists.elim

theorem Event.side_of_new {e : Event} (he : e.Unbound) (hf : c.session.strategy = .functional)
    (hl : c.program.Layered) (hc : c.program.ListsOwned) {entry : MethodEntry}
    (hentry : entry ∈ (e.apply c).program.entries cls) (hn : entry ∉ c.program.entries cls) :
    entry.isClassMethod = ((e.apply c).program.funcAt entry.func).isStatic ∨
      Misplaces c (e.apply c) := by
  cases e with
  | grow g =>
    change entry ∈ (g.apply c.program).entries cls at hentry
    rw [g.entries_apply he] at hentry
    exact absurd hentry hn
  | run op => exact op.side_of_new hf hl hc hentry hn

theorem Run.sidesDeclared_iff_not_misplaced {past : List Compilation}
    (h : Run (fun _ e => e.Unbound) past c) :
    c.program.SidesDeclared ↔ ¬ Misplaced (c :: past) := by
  induction h with
  | start renders =>
    refine iff_of_true (fun cls e he => ?_) id
    rw [entries_of_unbound (info_new renders cls)] at he
    cases he
  | @step past c e h he ih =>
    obtain ⟨hf, hl⟩ := h.functional fun _ _ hU => hU
    have hfit := Compilation.TablesFit.of_run (fun _ _ hU => hU) h
    have hext := ((h.step he).extends_past (fun _ _ hU => hU)
      (List.mem_cons_of_mem _ List.mem_cons_self)).program
    have hstatic {cls : ClassId} {entry : MethodEntry} (hentry : entry ∈ c.program.entries cls) :
        ((e.apply c).program.funcAt entry.func).isStatic =
          (c.program.funcAt entry.func).isStatic :=
      hext.isStatic (containsFunc_of_objc (hfit.fits cls entry hentry).linkage)
    rw [Misplaced, not_or, ← ih]
    constructor
    · intro hd
      constructor
      · rintro ⟨-, -, -, -, cls, entry, hentry, -, -, hside⟩
        exact hside (hd cls entry hentry)
      · intro cls entry hentry
        rw [← hstatic hentry]
        exact hd cls entry (hext.mem_entries hfit.owned hentry)
    · rintro ⟨hnot, hc⟩ cls entry hentry
      by_cases hold : entry ∈ c.program.entries cls
      · rw [hc cls entry hold, hstatic hold]
      · exact (Event.side_of_new he hf hl hfit.owned hentry hold).resolve_right hnot

/-! ## Functions that are recorded twice -/

theorem Arena.handles_nodup {kind : Kind} {α : Type} (a : Arena kind α) : a.handles.Nodup := by
  refine List.nodup_range.map fun n n' heq => ?_
  injection heq

/-- The functions of all entries, list by list. -/
def Program.recorded (p : Program) : List FuncId :=
  p.classes.handles.flatMap fun cls => (p.entries cls).map (·.func)

/-- The function has entries on either side of a list. -/
def Program.OnBothSides (p : Program) (func : FuncId) : Prop :=
  ∃ cls, ∀ isClassMethod, ∃ e ∈ p.side cls isClassMethod, e.func = func

theorem Program.mem_side {p : Program} {isClassMethod : Bool} {e : MethodEntry} :
    e ∈ p.side cls isClassMethod ↔ e ∈ p.entries cls ∧ e.isClassMethod = isClassMethod := by
  rw [side, List.mem_filter, beq_iff_eq]

theorem Program.SidesDeclared.not_onBothSides {p : Program} (h : p.SidesDeclared)
    (func : FuncId) : ¬ p.OnBothSides func := by
  rintro ⟨cls, hboth⟩
  obtain ⟨e, he, hfunc⟩ := hboth true
  obtain ⟨e', he', hfunc'⟩ := hboth false
  obtain ⟨he, hside⟩ := mem_side.1 he
  obtain ⟨he', hside'⟩ := mem_side.1 he'
  have hs := h cls e he
  have hs' := h cls e' he'
  rw [hfunc, hside] at hs
  rw [hfunc', hside', ← hs] at hs'
  cases hs'

/-- Two entries of a list differ in the selector or in the side. -/
theorem Compilation.TablesFit.entries_pairwise (h : c.TablesFit) (cls : ClassId) :
    (c.program.entries cls).Pairwise fun e e' =>
      e.isClassMethod = e'.isClassMethod → e.selector ≠ e'.selector := by
  have hside (isClassMethod : Bool) := h.nodup cls isClassMethod
  simp only [List.Nodup, List.pairwise_map, Program.side, List.pairwise_filter, beq_iff_eq]
    at hside
  refine ((hside false).and (hside true)).imp ?_
  rintro e e' ⟨hfalse, htrue⟩ heq
  cases hs : e'.isClassMethod with
  | false => exact hfalse (heq.trans hs) hs
  | true => exact htrue (heq.trans hs) hs

theorem Compilation.TablesFit.recorded_nodup_iff (h : c.TablesFit) :
    c.program.recorded.Nodup ↔ ∀ func, ¬ c.program.OnBothSides func := by
  rw [recorded, List.nodup_flatMap]
  constructor
  · rintro ⟨hnodup, -⟩ func ⟨cls, hboth⟩
    obtain ⟨e, he, rfl⟩ := hboth true
    obtain ⟨e', he', hfunc⟩ := hboth false
    obtain ⟨he, hside⟩ := mem_side.1 he
    obtain ⟨he', hside'⟩ := mem_side.1 he'
    have hcls := contains_of_hasRole (h.owned.list cls e he)
    have heq := List.inj_on_of_nodup_map (hnodup cls (Arena.mem_handles.2 hcls)) he' he hfunc
    rw [heq, hside] at hside'
    cases hside'
  · intro hone
    constructor
    · intro cls _
      rw [List.Nodup, List.pairwise_map]
      refine (h.entries_pairwise cls).imp_of_mem fun {e e'} he he' hdiff heq => ?_
      have hsel := (h.fits cls e he).selector
      rw [heq, (h.fits cls e' he').selector, Option.some.injEq] at hsel
      refine hone e.func ⟨cls, fun isClassMethod => ?_⟩
      by_cases hside : e.isClassMethod = isClassMethod
      · exact ⟨e, mem_side.2 ⟨he, hside⟩, rfl⟩
      · refine ⟨e', mem_side.2 ⟨he', ?_⟩, heq.symm⟩
        have hne : e.isClassMethod ≠ e'.isClassMethod := fun hs => hdiff hs hsel.symm
        exact (Bool.eq_not.2 (Ne.symm hne)).trans (Bool.eq_not.2 (Ne.symm hside)).symm
    · refine c.program.classes.handles_nodup.imp fun {cls cls'} hne => ?_
      -- a function is recorded in the list of its own class only
      intro func hf hf'
      obtain ⟨e, he, rfl⟩ := List.mem_map.1 hf
      obtain ⟨e', he', heq⟩ := List.mem_map.1 hf'
      have hparent := (h.fits cls' e' he').parent
      rw [heq, (h.fits cls e he).parent, Option.some.injEq] at hparent
      exact hne hparent

/-- All entries stand on the sides that their functions are declared for exactly if none was ever
recorded on the other side because it was given for it. A function is recorded more than once
exactly if it stands on either side of a list, which it does not in the first case. -/
theorem sidesDeclared_iff {past : List Compilation} (h : Run (fun _ e => e.Unbound) past c) :
    (c.program.SidesDeclared ↔ ¬ Misplaced (c :: past)) ∧
    (c.program.recorded.Nodup ↔ ∀ func, ¬ c.program.OnBothSides func) ∧
    (c.program.SidesDeclared → c.program.recorded.Nodup) := by
  have hnodup := (Compilation.TablesFit.of_run (fun _ _ hU => hU) h).recorded_nodup_iff
  exact ⟨h.sidesDeclared_iff_not_misplaced, hnodup, fun hs => hnodup.2 hs.not_onBothSides⟩

/-- `draw` is declared for instances of `Foo`, and is given for either side. -/
def bothSidesEvents : List Event :=
  [.grow (.addScope none), .grow (.intern "Foo"), .grow (.intern "draw"),
    .grow (.addClass { name := ⟨5⟩, kind := .concrete, span := .point 0 1 1 }),
    .grow (.addMethod ⟨0⟩ { name := ⟨6⟩, params := [], span := .point 0 2 1, linkage := .objc }),
    .run (.markClass ⟨0⟩), .run (.assignSelector ⟨0⟩ ⟨0⟩),
    .run (.recordMethods (.body ⟨0⟩) [⟨0⟩] [⟨0⟩])]

theorem not_sidesDeclared_bothSides :
    let c := (Event.play [] (.new .functional false) bothSidesEvents).2
    ¬ c.program.SidesDeclared ∧ ¬ c.program.recorded.Nodup := by
  intro c
  have hrun : Run (fun _ e => e.Unbound)
      (Event.play [] (.new .functional false) bothSidesEvents).1 c :=
    (Run.start false).play (by decide +kernel)
  obtain ⟨hsides, hnodup, -⟩ := sidesDeclared_iff hrun
  constructor
  · intro h
    refine hsides.1 h (.inl ⟨.body ⟨0⟩, [⟨0⟩], [⟨0⟩], rfl, ⟨0⟩, ⟨⟨0⟩, ⟨0⟩, true⟩, ?_⟩)
    decide +kernel
  · exact fun h => hnodup.1 h ⟨0⟩ ⟨⟨0⟩, by decide +kernel⟩

end ObjcBinding
