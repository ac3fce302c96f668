import ObjcBinding.Proofs.DispatchTables

/-!
# Who needs the hidden parameter

Whether a function needs the hidden parameter is decided once, when it gets its selector, by
whether its class is bound at that time. A selector that is written in an attribute may be
assigned before the class is bound: then the function joins the method list of its class later
and is called by messages, but does not get the parameter that messages pass.

* `Run.needs_iff`: whether a function needs the parameter is a matter of its past;
* `needsSelectorParam_iff`: a function that is called by messages, or is in a method list, needs
  the parameter, and gets it, exactly if its class was bound whenever it had a selector.
-/

namespace ObjcBinding

open Program Resolve

variable {c d : Compilation} {func : FuncId} {marks : ClassId → Prop}
  {lists : FuncId → ClassId → Bool → Prop}

/-! ## While functions are bound -/

theorem Program.isBoundMember_eq (p : Program) (func : FuncId) :
    p.isBoundMember func =
      (p.funcAt func).source.parent.any fun cls => (p.pairing cls).isSome := by
  simp only [isBoundMember, FuncDecl.source, pairing, ClassDecl.isBound, Option.isSome_map]

theorem Program.Extends.isBoundMember {p q : Program} (h : p.Extends q)
    (hb : p.isBoundMember func = true) : q.isBoundMember func = true := by
  obtain ⟨cls, hp, hcls⟩ := (Option.any_eq_true _ _).1 hb
  have hparent := (h.parent (containsFunc_of_parent hp)).trans hp
  exact (Option.any_eq_true _ _).2 ⟨cls, hparent, h.isBound hcls⟩

/-- While functions are bound no class is. -/
theorem Trail.isBoundMember_eq (h : Trail (Listing lists) c d) (func : FuncId) :
    d.program.isBoundMember func = c.program.isBoundMember func := by
  rw [Program.isBoundMember_eq, Program.isBoundMember_eq, h.funcSource_eq]
  simp only [h.pairing_eq]

/-- While classes are bound no function gets a selector. -/
theorem Trail.info_eq_none {start : Program} (h : Trail (Binding start marks) c d)
    (hn : (c.program.funcAt func).info = none) : (d.program.funcAt func).info = none := by
  refine h.invariant (I := fun d => (d.program.funcAt func).info = none) ?_ hn
  intro c d deed hp hstep hn
  cases hj : (d.program.funcAt func).info with
  | none => rfl
  | some j =>
    obtain ⟨rfl, -, -⟩ := hstep.info_of_none hn hj
    exact hp.elim

theorem Trail.needs_eq (h : Trail (Listing lists) c d) {j : FuncInfo}
    (hn : (c.program.funcAt func).info = none) (hj : (d.program.funcAt func).info = some j) :
    j.needsSelectorParam =
      ((c.program.funcAt func).linkage = .objc && c.program.isBoundMember func) := by
  induction h generalizing j with
  | refl =>
    rw [hn] at hj
    cases hj
  | @tail e d h hstep ih =>
    obtain ⟨deed, -, hchange⟩ := hstep
    have ht : Trail (Listing lists) c e := h
    cases hi : (e.program.funcAt func).info with
    | none =>
      obtain ⟨-, -, hneeds⟩ := hchange.info_of_none hi hj
      rw [hneeds, ht.linkage_eq, ht.isBoundMember_eq]
    | some i =>
      obtain ⟨k, hk, -, hki⟩ := hchange.extends.program.selector func i hi
      rw [hj] at hk
      cases hk
      rw [hki, ih hi]

/-- An operation that gives a function its selector binds no class after that. -/
theorem Phases.needs_eq (h : Phases marks lists c d) {j : FuncInfo}
    (hn : (c.program.funcAt func).info = none) (hj : (d.program.funcAt func).info = some j) :
    j.needsSelectorParam =
      ((d.program.funcAt func).linkage = .objc && d.program.isBoundMember func) := by
  obtain ⟨mid, hb, hl⟩ := h
  rw [hl.needs_eq (hb.info_eq_none hn) hj, hl.linkage_eq, hl.isBoundMember_eq]

/-! ## Over time -/

/-- At all of the times at which the function had a selector its class was bound. -/
def BoundWhenNamed (times : List Compilation) (func : FuncId) : Prop :=
  ∀ k ∈ times, (k.program.funcAt func).selector ≠ none → k.program.isBoundMember func = true

instance (times : List Compilation) (func : FuncId) : Decidable (BoundWhenNamed times func) :=
  inferInstanceAs (Decidable (∀ k ∈ times, (k.program.funcAt func).selector ≠ none →
    k.program.isBoundMember func = true))

theorem boundWhenNamed_cons {times : List Compilation} :
    BoundWhenNamed (c :: times) func ↔
      ((c.program.funcAt func).selector ≠ none → c.program.isBoundMember func = true) ∧
        BoundWhenNamed times func := by
  simp only [BoundWhenNamed, List.forall_mem_cons]

namespace Event

variable {e : Event}

/-- An event that gives a function its selector decides whether it needs the parameter. -/
theorem needs_eq (he : e.Unbound) (hf : c.session.strategy = .functional)
    (hl : c.program.Layered) {j : FuncInfo}
    (hn : (c.program.funcAt func).info = none)
    (hj : ((e.apply c).program.funcAt func).info = some j) :
    j.needsSelectorParam = (((e.apply c).program.funcAt func).linkage = .objc &&
      (e.apply c).program.isBoundMember func) := by
  cases e with
  | grow g =>
    change ((g.apply c.program).funcAt func).info = some j at hj
    rw [g.funcInfo_apply he, hn] at hj
    cases hj
  | run op => exact (op.phases hf hl).needs_eq hn hj

end Event

/-- A function needs the parameter exactly if it is an Objective-C one and its class was bound
whenever it had a selector. -/
theorem Run.needs_iff {Admits : Program → Event → Prop} {past : List Compilation}
    (hU : ∀ p e, Admits p e → e.Unbound) (h : Run Admits past c) {i : FuncInfo}
    (hi : (c.program.funcAt func).info = some i) :
    i.needsSelectorParam = true ↔
      (c.program.funcAt func).linkage = .objc ∧ BoundWhenNamed (c :: past) func := by
  induction h generalizing i with
  | start renders =>
    rw [Run.funcAt_new] at hi
    cases hi
  | @step past c e h he ih =>
    obtain ⟨hf, hl⟩ := h.functional hU
    have hext : c.Extends (e.apply c) :=
      (h.step he).extends_past hU (List.mem_cons_of_mem _ List.mem_cons_self)
    have hnamed : ((e.apply c).program.funcAt func).selector ≠ none := by
      rw [FuncDecl.selector, hi]
      simp
    rw [boundWhenNamed_cons]
    cases hj : (c.program.funcAt func).info with
    | none =>
      -- nothing that came before had a selector
      have hpast : BoundWhenNamed (c :: past) func := by
        intro k hk hsel
        obtain ⟨s, hsel⟩ := Option.ne_none_iff_exists'.1 hsel
        have hc := (h.extends_past hU hk).program.selector_eq hsel
        rw [FuncDecl.selector, hj] at hc
        cases hc
      rw [e.needs_eq (hU _ _ he) hf hl hj hi, Bool.and_eq_true, decide_eq_true_iff]
      constructor
      · rintro ⟨hl, hb⟩
        exact ⟨hl, fun _ => hb, hpast⟩
      · rintro ⟨hl, hb, -⟩
        exact ⟨hl, hb hnamed⟩
    | some j =>
      obtain ⟨k, hk, -, hkj⟩ := hext.program.selector func j hj
      rw [hi] at hk
      cases hk
      have hsel : (c.program.funcAt func).selector ≠ none := by
        rw [FuncDecl.selector, hj]
        simp
      rw [hkj, ih hj, hext.program.linkage (containsFunc_of_info hj)]
      constructor
      · rintro ⟨hl, hb⟩
        exact ⟨hl, fun _ => hext.program.isBoundMember (hb c List.mem_cons_self hsel), hb⟩
      · rintro ⟨hl, -, hb⟩
        exact ⟨hl, hb⟩

/-! ## Functions that are called by messages -/

/-- The function is called by messages, or is in a method list. -/
def Compilation.Messaged (c : Compilation) (func : FuncId) : Prop :=
  c.isMessageSend func = true ∨ ∃ cls, ∃ e ∈ c.program.entries cls, e.func = func

theorem Compilation.TablesFit.info_of_messaged (h : c.TablesFit) (hm : c.Messaged func) :
    ∃ i, (c.program.funcAt func).info = some i ∧ (c.program.funcAt func).linkage = .objc := by
  rcases hm with hm | ⟨cls, e, he, rfl⟩
  · unfold Compilation.isMessageSend Compilation.asked at hm
    cases hs : c.session.strategy with
    | inert =>
      rw [hs] at hm
      cases hm
    | functional =>
      rw [hs] at hm
      simp only [Program.isMessageSend, Bool.and_eq_true, decide_eq_true_eq] at hm
      obtain ⟨⟨⟨⟨⟨⟨-, hl⟩, -⟩, -⟩, -⟩, hi⟩, -⟩ := hm
      obtain ⟨i, hi, -⟩ := (Option.any_eq_true _ _).1 hi
      exact ⟨i, hi, hl⟩
  · have hfit := h.fits cls e he
    obtain ⟨i, hi, -⟩ := Option.map_eq_some_iff.1 hfit.selector
    exact ⟨i, hi, hfit.linkage⟩

/-- A session that goes on gives exactly those valid functions the parameter that need it. -/
theorem addSelectorParam_iff (hf : c.session.strategy = .functional)
    (ha : c.session.aborted = false) (hv : (c.program.funcAt func).invalid = false)
    (scope : ScopeId) :
    (∃ index d, Session.addSelectorParam func scope c = .ok (some ⟨func, index⟩) d ∧
      HiddenAt d func index) ↔
        (c.program.funcAt func).info.any (·.needsSelectorParam) = true := by
  rw [Session.addSelectorParam, guarded_of_functional ha hf]
  have hout := addSelectorParam_outcome (fun _ _ _ => True) func scope c
  constructor
  · rintro ⟨index, d, hok, -⟩
    obtain ⟨-, -, hnone⟩ := (outcome_of_ok hok).1 hout
    by_contra hn
    obtain ⟨he, -⟩ := hnone (Bool.eq_false_iff.2 hn)
    cases he
  · intro hn
    unfold Outcome at hout
    cases hok : Resolve.addSelectorParam func scope c with
    | ok a d =>
      rw [hok] at hout
      obtain ⟨-, hsome, -⟩ := hout
      obtain ⟨index, rfl, hhidden⟩ := hsome hn hv
      exact ⟨index, d, rfl, hhidden⟩
    | error e d =>
      rw [hok] at hout
      exact hout.elim

/-- A function that is called by messages, or is in a method list, needs the hidden parameter
exactly if its class was bound whenever it had a selector. If it is valid, then in a session that
goes on it gets the parameter exactly under this condition. -/
theorem needsSelectorParam_iff {past : List Compilation}
    (h : Run (fun _ e => e.Unbound) past c) (hm : c.Messaged func) :
    ((c.program.funcAt func).info.any (·.needsSelectorParam) = true ↔
      BoundWhenNamed (c :: past) func) ∧
    (c.session.aborted = false → (c.program.funcAt func).invalid = false → ∀ scope,
      ((∃ index d, Session.addSelectorParam func scope c = .ok (some ⟨func, index⟩) d ∧
        HiddenAt d func index) ↔ BoundWhenNamed (c :: past) func)) := by
  obtain ⟨hf, -⟩ := h.functional fun _ _ hU => hU
  obtain ⟨i, hi, hl⟩ := (Compilation.TablesFit.of_run (fun _ _ hU => hU) h).info_of_messaged hm
  have hiff : (c.program.funcAt func).info.any (·.needsSelectorParam) = true ↔
      BoundWhenNamed (c :: past) func := by
    rw [hi, Option.any_some, h.needs_iff (fun _ _ hU => hU) hi, and_iff_right hl]
  exact ⟨hiff, fun ha hv scope => (addSelectorParam_iff hf ha hv scope).trans hiff⟩

/-- The selector of `draw` is written in an attribute, and is assigned before `Foo` is marked. -/
def namedEarlyEvents : List Event :=
  [.grow (.addScope none), .grow (.intern "Foo"), .grow (.intern "draw"),
    .grow (.addClass { name := ⟨5⟩, kind := .concrete, span := .point 0 1 1 }),
    .grow (.addMethod ⟨0⟩
      { name := ⟨6⟩, params := [], span := .point 0 2 1, linkage := .objc
        attrs := [⟨.literal "draw", .point 0 2 1⟩] }),
    .run (.assignSelector ⟨0⟩ ⟨0⟩), .run (.markClass ⟨0⟩), .run (.recordMethod ⟨0⟩ ⟨0⟩)]

theorem not_needsSelectorParam_namedEarly :
    let c := (Event.play [] (.new .functional false) namedEarlyEvents).2
    c.isMessageSend ⟨0⟩ = true ∧ (c.program.entries ⟨0⟩).map (·.func) = [⟨0⟩] ∧
      ¬ ∃ index d, Session.addSelectorParam ⟨0⟩ ⟨0⟩ c = .ok (some ⟨⟨0⟩, index⟩) d ∧
        HiddenAt d ⟨0⟩ index := by
  intro c
  have hrun : Run (fun _ e => e.Unbound)
      (Event.play [] (.new .functional false) namedEarlyEvents).1 c :=
    (Run.start false).play (by decide +kernel)
  have hsend : c.isMessageSend ⟨0⟩ = true := by decide +kernel
  refine ⟨hsend, by decide +kernel, ?_⟩
  rw [(needsSelectorParam_iff hrun (.inl hsend)).2 (by decide +kernel) (by decide +kernel)]
  decide +kernel

end ObjcBinding
