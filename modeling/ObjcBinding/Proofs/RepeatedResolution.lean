import ObjcBinding.Proofs.ResolutionOutcomes

/-!
# Resolving a class again

A class that has been resolved from a scope is settled there: it is one half of a pair, and if the
other half was made, its name means it in the scope. It does not matter whether it was made just
now or for another scope before, nor whether the scope itself or one around it knows the name. In
a settled class a resolution finds nothing to do.

* `Change.madeBound`: what was made is a metaclass from the beginning;
* `settled_of_ok`: a bound class that was resolved is settled;
* `resolveMetaclass_again`: resolving a class once more changes nothing at all.
-/

namespace ObjcBinding

open Program Resolve

variable {deed : Deed} {c d : Compilation} {cls m : ClassId} {scope : ScopeId}

/-! ## Classes that were made -/

/-- Every class that was made is a metaclass. -/
def Program.MadeBound (p : Program) : Prop :=
  ∀ m, (p.classAt m).synthesized = true → p.HasRole m .metaclass

theorem Change.madeBound (h : Change deed c d) (hc : c.program.MadeBound) :
    d.program.MadeBound := by
  have hext := h.extends.program
  intro m hs
  rcases h.contains_cases (contains_of_synthesized hs) with hold | ⟨cls, hmakes⟩
  · exact hext.hasRole (hc m ((hext.synthesized hold).symm.trans hs))
  · exact hasRole_iff.2 ⟨_, hmakes.pairing⟩

/-- A class that is added was not made. -/
def Event.ClassUnmade : Event → Prop
  | .grow (.addClass d) => d.synthesized = false
  | _ => True

instance : DecidablePred Event.ClassUnmade
  | .grow (.addClass d) => inferInstanceAs (Decidable (d.synthesized = false))
  | .grow (.intern _) | .grow (.addScope _) | .grow (.declare ..) | .grow (.addFunction _)
  | .grow (.addMethod ..) | .grow (.addGroup _) | .grow (.addGroupMember ..) | .run _ =>
    .isTrue trivial

theorem Growth.madeBound {g : Growth} (hg : Event.ClassUnmade (.grow g)) {p : Program}
    (hp : p.MadeBound) : (g.apply p).MadeBound := by
  have hext := g.apply_extends p
  intro m hs
  rcases g.contains_cases (contains_of_synthesized hs) with hold | ⟨d, rfl, he⟩
  · exact hext.hasRole (hp m ((hext.synthesized hold).symm.trans hs))
  · rw [he] at hs
    cases hg.symm.trans hs

theorem Run.madeBound {Admits : Program → Event → Prop} {past : List Compilation}
    (h : Run Admits past c) (hA : ∀ p e, Admits p e → e.Unbound ∧ e.ClassUnmade) :
    c.program.MadeBound := by
  refine h.changes (I := fun c => c.program.MadeBound) (fun p e he => (hA p e he).1) ?_ ?_
    fun _ _ _ hstep => hstep.madeBound
  · intro renders m hs
    cases contains_of_synthesized hs
  · intro c g hg hc
    exact Growth.madeBound (hA _ _ hg).2 hc

/-! ## Settled classes -/

namespace Resolve

theorem declareMetaclass_of_known (h : (c.program.classAt m).synthesized = true →
    c.program.lookup scope (c.program.classAt m).name = some (.classDecl m)) :
    declareMetaclass m scope c = .ok () c := by
  rw [declareMetaclass, bind_apply, program_apply]
  dsimp only
  rw [if_pos]
  · rfl
  · cases hs : (c.program.classAt m).synthesized with
    | false => rfl
    | true => simp [h hs]

/-- Where a class is settled, there is nothing to do. -/
theorem resolveMetaclass_of_settled (h : c.program.SettledIn scope cls m) :
    resolveMetaclass cls scope c = .ok () c := by
  rw [resolveMetaclass_eq, resolveStep_of_paired (mutual_iff.1 h.pair).1,
    bind_of_ok (verifyPair_apply h.pair), declareMetaclass_of_known h.known]

/-- Nothing is resolved that is not bound. -/
theorem bound_of_ok (h : resolveMetaclass cls scope c = .ok () d) :
    ∃ role, c.program.HasRole cls role := by
  cases hi : (c.program.classAt cls).info with
  | some i => exact ⟨i.role, i, hi, rfl⟩
  | none =>
    rw [resolveMetaclass_eq, resolveStep, bind_apply, program_apply] at h
    simp only [hi] at h
    cases h

/-- A foreign class has been given the metaclass of its header, which was not made. -/
theorem settled_of_foreign (hlinked : c.Linked) (hmade : c.program.MadeBound)
    (hl : c.program.Layered) (ha : c.session.aborted = false)
    (hu : c.program.pairing cls = some (.ordinary, none))
    (hf : (c.program.classAt cls).foreign = true)
    (hrun : resolveMetaclass cls scope c = .ok () d) : ∃ m, d.program.SettledIn scope cls m := by
  have hcls := contains_of_pairing hu
  have hstep := (resolveMetaclass_eq ..).symm.trans hrun
  obtain ⟨m, hn⟩ := header_of_ok hu hf hstep
  have hfree := free_of_ok (hlinked.pairs ha) hu ((resolveStep_of_header hu hn).symm.trans hstep)
  obtain ⟨ht, -, hpaired⟩ := (outcome_of_ok hrun).1
    (resolveMetaclass_leaves cls scope (.of_layered hl) hl.inOrder)
  obtain ⟨m', hmut, -⟩ := hpaired (hasRole_iff.2 ⟨_, hu⟩)
  have hext := ht.extends.program
  have hd : d.session.aborted = false :=
    ((outcome_of_ok hrun).1 (resolveMetaclass_accounts cls scope c)).2.aborted.trans ha
  have hn' := ((hlinked.trail ht).pairs hd).ofForeign cls m' (mutual_iff.1 hmut).1
    ((hext.foreign hcls).trans hf)
  obtain rfl : m = m' := Option.some_inj.1 ((hext.headerNames hn).2.symm.trans hn'.2)
  have hm : c.program.classes.contains m = true :=
    Arena.contains_of_lt hcls (hlinked.backward cls m hn)
  refine ⟨m, hmut, fun hs => ?_⟩
  obtain ⟨i, hi, -⟩ := hmade m ((hext.synthesized hm).symm.trans hs)
  cases hfree.symm.trans hi

/-- A bound class that was resolved is settled. -/
theorem settled_of_ok (hlinked : c.Linked) (hmade : c.program.MadeBound) (hl : c.program.Layered)
    (ha : c.session.aborted = false) (hscope : c.program.scopes.contains scope = true)
    (ho : c.program.HasRole cls .ordinary) (hrun : resolveMetaclass cls scope c = .ok () d) :
    ∃ m, d.program.SettledIn scope cls m := by
  have hstep := (resolveMetaclass_eq ..).symm.trans hrun
  obtain ⟨partner, hp⟩ := hasRole_iff.1 ho
  cases partner with
  | some m => exact ⟨m, settled_of_paired hp hscope hstep⟩
  | none =>
    cases hf : (c.program.classAt cls).foreign with
    | false => exact settled_of_native hl (hl.inOrder.within ho).succ hp hf hscope hstep
    | true => exact settled_of_foreign hlinked hmade hl ha hp hf hrun

end Resolve

/-! ## Resolving again -/

/-- If the metaclass of a class is resolved from a scope with success, then doing so once more
succeeds and changes nothing, and if the class has a metaclass that was made, then its name means it
in the scope. -/
theorem resolveMetaclass_again {past : List Compilation}
    (h : Run (fun p e => e.Unbound ∧ e.HeaderDeclared p ∧ e.ClassUnmade) past c)
    (hscope : c.program.scopes.contains scope = true)
    (hrun : Session.resolveMetaclass cls scope c = .ok () d) :
    Session.resolveMetaclass cls scope d = .ok () d ∧
      (d.program.HasRole cls .ordinary → ∃ m, d.program.mutual cls m = true ∧
        ((d.program.classAt m).synthesized = true →
          d.program.lookup scope (d.program.classAt m).name = some (.classDecl m))) := by
  obtain ⟨hf, hl⟩ := h.functional fun _ _ he => he.1
  have hlinked := (h.mono fun _ _ he => ⟨he.1, he.2.1⟩ : Run (fun p e => e.Unbound ∧
    e.HeaderDeclared p) past c).linked
  have hmade := h.madeBound fun _ _ he => ⟨he.1, he.2.2⟩
  obtain ⟨ha, hrun⟩ := ok_of_guarded hf hrun
  have hquiet := ((outcome_of_ok hrun).1 (resolveMetaclass_accounts cls scope c)).2
  rw [Session.resolveMetaclass, guarded_of_functional (hquiet.aborted.trans ha)
    (hquiet.strategy.trans hf)]
  obtain ⟨role, hrole⟩ := bound_of_ok hrun
  cases role with
  | metaclass =>
    have hsame : resolveMetaclass cls scope c = .ok () c :=
      (resolveMetaclass_eq ..).trans (resolveStep_of_metaclass hrole)
    cases hsame.symm.trans hrun
    exact ⟨hsame, fun ho => nomatch hasRole_unique ho hrole⟩
  | ordinary =>
    obtain ⟨m, hm⟩ := settled_of_ok hlinked hmade hl ha hscope hrole hrun
    exact ⟨resolveMetaclass_of_settled hm, fun _ => ⟨m, hm.pair, hm.known⟩⟩

/-- `Derived` is below `Base`, and is resolved from the first of two scopes. -/
def twoScopesEvents : List Event :=
  let shape (name : Symbol) (base : Option ClassId) : ClassDecl :=
    { name, kind := .concrete, span := .point 0 1 1, base }
  [.grow (.addScope none), .grow (.addScope none), .grow (.intern "Base"),
    .grow (.intern "Derived"), .grow (.addClass (shape ⟨5⟩ none)),
    .grow (.addClass (shape ⟨6⟩ (some ⟨0⟩))), .run (.markClass ⟨0⟩), .run (.markClass ⟨1⟩),
    .run (.resolveMetaclass ⟨1⟩ ⟨0⟩)]

/-- Resolving `Derived` from the second scope makes its metaclass known there as well. -/
theorem resolveMetaclass_again_twoScopes :
    let c := (Event.play [] (.new .functional false) twoScopesEvents).2
    c.program.lookup ⟨1⟩ (c.program.classAt ⟨3⟩).name = none ∧
      ∃ d, Session.resolveMetaclass ⟨1⟩ ⟨1⟩ c = .ok () d ∧
        Session.resolveMetaclass ⟨1⟩ ⟨1⟩ d = .ok () d ∧
        d.program.lookup ⟨1⟩ (d.program.classAt ⟨3⟩).name = some (.classDecl ⟨3⟩) := by
  intro c
  have hc : Run (fun p e => e.Unbound ∧ e.HeaderDeclared p ∧ e.ClassUnmade)
      (Event.play [] (.new .functional false) twoScopesEvents).1 c :=
    (Run.start false).play (by decide +kernel)
  have hends : Outcome (Session.resolveMetaclass ⟨1⟩ ⟨1⟩) c
      (fun _ d => d.program.pairing ⟨1⟩ = some (.ordinary, some ⟨3⟩) ∧
        (d.program.classAt ⟨3⟩).synthesized = true)
      fun _ _ => False := by decide +kernel
  cases hrun : Session.resolveMetaclass ⟨1⟩ ⟨1⟩ c with
  | error e d => exact ((outcome_of_error hrun).1 hends).elim
  | ok _ d =>
    obtain ⟨hp, hs⟩ := (outcome_of_ok hrun).1 hends
    obtain ⟨hagain, hknown⟩ := resolveMetaclass_again hc (by decide +kernel) hrun
    obtain ⟨m, hm, hlookup⟩ := hknown (hasRole_iff.2 ⟨_, hp⟩)
    cases hp.symm.trans (mutual_iff.1 hm).1
    exact ⟨by decide +kernel, d, rfl, hagain, hlookup hs⟩

end ObjcBinding
