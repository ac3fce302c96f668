import ObjcBinding.Proofs.KnownMetaclasses
import ObjcBinding.Proofs.Steps.Accounts

/-!
# Resolutions that end well

What it takes for the metaclass of a class to be resolved, and what has come of it then. A class
that is not foreign can fail only where the name for its metaclass is in use, once the classes above
it are resolved; a foreign class cannot fail any more once the metaclass of its header has been
found free.

* `native_outcome`, `Onward.foreign_outcome`: the last part of resolving a class;
* `Onward.resolveBelow_ok`: the scope is the only one that is touched, and the class is paired;
* `Onward.knows_of_ok`: the scope knows the metaclass of the class.
-/

namespace ObjcBinding

open Program Resolve

variable {b c d e : Compilation} {scope : ScopeId} {x m : ClassId} {height : Nat}

/-- The class is one half of a pair, and if the other half was made, its name means it in the
scope. -/
structure Program.SettledIn (p : Program) (scope : ScopeId) (cls m : ClassId) : Prop where
  pair : p.mutual cls m = true
  known : (p.classAt m).synthesized = true →
    p.lookup scope (p.classAt m).name = some (.classDecl m)

/-! ## Steps that end well -/

namespace Resolve

variable {α β : Type}

theorem ok_of_bind {x : Resolve α} {f : α → Resolve β} {v : β} (h : (x >>= f) c = .ok v e) :
    ∃ a d, x c = .ok a d ∧ f a d = .ok v e := by
  rw [bind_apply] at h
  cases hx : x c with
  | ok a d =>
    rw [hx] at h
    exact ⟨a, d, rfl, h⟩
  | error err d =>
    rw [hx] at h
    cases h

theorem bind_of_ok {x : Resolve α} {f : α → Resolve β} {a : α} (h : x c = .ok a d) :
    (x >>= f) c = f a d := by
  rw [bind_apply, h]

variable {resolve : ClassId → Resolve Unit}

/-- The height that a resolution starts with is one more than the number of classes. -/
theorem resolveMetaclass_eq (cls : ClassId) (scope : ScopeId) (c : Compilation) :
    resolveMetaclass cls scope c =
      resolveStep (resolveBelow scope c.program.classes.size) cls scope c := by
  rw [resolveMetaclass, bind_apply, program_apply]
  rfl

theorem resolveStep_of_metaclass (h : c.program.HasRole x .metaclass) :
    resolveStep resolve x scope c = .ok () c := by
  obtain ⟨i, hi, hr⟩ := h
  rw [resolveStep, bind_apply, program_apply]
  simp only [hi, ClassInfo.isMetaclass, hr, decide_true, if_true]
  rfl

theorem resolveStep_of_paired (h : c.program.pairing x = some (.ordinary, some m)) :
    resolveStep resolve x scope c = (do verifyPair x m; declareMetaclass m scope) c := by
  obtain ⟨i, hi, hr, hp⟩ := info_of_pairing h
  rw [resolveStep, bind_apply, program_apply]
  simp [hi, ClassInfo.isMetaclass, hr, hp]

theorem resolveStep_of_native (h : c.program.pairing x = some (.ordinary, none))
    (hf : (c.program.classAt x).foreign = false) :
    resolveStep resolve x scope c = synthesize resolve x scope c := by
  obtain ⟨i, hi, hr, hp⟩ := info_of_pairing h
  rw [resolveStep, bind_apply, program_apply]
  simp [hi, ClassInfo.isMetaclass, hr, hp, hf]

theorem resolveStep_of_header (h : c.program.pairing x = some (.ordinary, none))
    (hn : c.program.HeaderNames x m) :
    resolveStep resolve x scope c = linkForeign resolve x m c := by
  obtain ⟨i, hi, hr, hp⟩ := info_of_pairing h
  rw [resolveStep, bind_apply, program_apply]
  simp [hi, ClassInfo.isMetaclass, hr, hp, hn.1, hn.2]

/-- A foreign class that is resolved has a header. -/
theorem header_of_ok (h : c.program.pairing x = some (.ordinary, none))
    (hf : (c.program.classAt x).foreign = true)
    (hrun : resolveStep resolve x scope c = .ok () d) : ∃ m, c.program.HeaderNames x m := by
  obtain ⟨i, hi, hr, hp⟩ := info_of_pairing h
  cases hm : (c.program.classAt x).foreignMetaclass with
  | some m => exact ⟨m, hf, hm⟩
  | none =>
    rw [resolveStep, bind_apply, program_apply] at hrun
    simp only [hi, ClassInfo.isMetaclass, hr, hp, hf, hm, decide_eq_true_eq, reduceCtorEq,
      if_false, Bool.not_true, Bool.false_eq_true] at hrun
    cases hrun

theorem synthesize_of_ok {superMetaclass : Option ClassId} {interfaces : List ClassId}
    (h : superMetaclasses resolve x c = .ok (superMetaclass, interfaces) d) :
    synthesize resolve x scope c =
      attach x ⟨d.program.classes.size⟩ scope
        s!"synthesized `{metaclassSymbol (d.program.className x)}`"
        { d with program := d.program.makeMetaclass x superMetaclass interfaces } := by
  rw [synthesize, bind_of_ok h]
  rfl

/-- Where a class that is not foreign is resolved, so are those above it. -/
theorem supers_of_native (h : c.program.pairing x = some (.ordinary, none))
    (hf : (c.program.classAt x).foreign = false)
    (hrun : resolveStep resolve x scope c = .ok () e) :
    ∃ r d, superMetaclasses resolve x c = .ok r d := by
  rw [resolveStep_of_native h hf, synthesize] at hrun
  obtain ⟨r, d, hsuper, -⟩ := ok_of_bind hrun
  exact ⟨r, d, hsuper⟩

theorem linkForeign_of_ok {superMetaclass : Option ClassId} {interfaces : List ClassId}
    (hm : (c.program.classAt m).info = none)
    (h : superMetaclasses resolve x c = .ok (superMetaclass, interfaces) d) :
    linkForeign resolve x m c = seize x m superMetaclass d := by
  rw [linkForeign, bind_apply, program_apply]
  simp only [hm]
  rw [bind_of_ok h]
  rfl

/-- Where a foreign class is linked to a metaclass that was free, those above it are resolved. -/
theorem supers_of_header (h : c.program.pairing x = some (.ordinary, none))
    (hn : c.program.HeaderNames x m) (hm : (c.program.classAt m).info = none)
    (hrun : resolveStep resolve x scope c = .ok () e) :
    ∃ r d, superMetaclasses resolve x c = .ok r d := by
  rw [resolveStep_of_header h hn, linkForeign, bind_apply, program_apply] at hrun
  simp only [hm] at hrun
  obtain ⟨r, d, hsuper, -⟩ := ok_of_bind hrun
  exact ⟨r, d, hsuper⟩

theorem superMetaclasses_below {r : Option ClassId × List ClassId}
    (h : superMetaclasses (resolveBelow scope height) x c = .ok r d) :
    SameBeyond scope c.program d.program :=
  (superMetaclasses_frames (fun y k => resolveBelow_frames height y k) x c).of_ok h

theorem resolveBelow_of_metaclass (h : c.program.HasRole x .metaclass) (height : Nat) :
    resolveBelow scope height x c = .ok () c := by
  cases height with
  | zero => rfl
  | succ height => exact resolveStep_of_metaclass h

/-! ## One class -/

theorem resolvesParents (hl : c.program.Layered) (hin : c.program.Within (height + 1) x) :
    ResolvesParents c.program (resolveBelow scope height) x c :=
  .of_within (.of_layered hl) hin fun y _ => resolveBelow_leaves scope height y

/-- What comes of resolving the classes above. -/
theorem superMetaclasses_ok (hl : c.program.Layered) (hin : c.program.Within (height + 1) x)
    (hu : c.program.pairing x = some (.ordinary, none)) {r : Option ClassId × List ClassId}
    (hrun : superMetaclasses (resolveBelow scope height) x c = .ok r d) :
    Trail (Resolving c.program fun c => c.program.DerivedFrom x) c d ∧
      d.program.Resolved x r.1 r.2 ∧ d.program.pairing x = some (.ordinary, none) :=
  ((outcome_of_ok hrun).1 (superMetaclasses_unpaired (.of_layered hl) hin hu
    (resolvesParents hl hin))).2

/-- Of what is done for a class that is not foreign, only the last part can fail, and only where the
name for its metaclass is in use. -/
theorem native_outcome (hl : c.program.Layered) (hin : c.program.Within (height + 1) x)
    (hu : c.program.pairing x = some (.ordinary, none))
    (hf : (c.program.classAt x).foreign = false) {r : Option ClassId × List ClassId}
    (hrun : superMetaclasses (resolveBelow scope height) x c = .ok r d) :
    Outcome (resolveStep (resolveBelow scope height) x scope) c
      (fun _ e => Trail (Resolving c.program fun _ y => y = x) d e ∧
        Made scope x ⟨d.program.classes.size⟩ d e)
      fun _ _ => ∃ existing, (d.program.scopeAt scope).local?
        (d.program.intern (metaclassSymbol (d.program.className x))).1 = some existing := by
  obtain ⟨ht, hres, hud⟩ := superMetaclasses_ok hl hin hu hrun
  have hfd : (d.program.classAt x).foreign = false := by
    rw [ht.extends.program.foreign (contains_of_pairing hu), hf]
  have hstart : ¬ c.program.Stuck x := fun hstuck => by
    cases hf.symm.trans hstuck.foreign
  rw [Outcome, resolveStep_of_native hu hf, synthesize_of_ok hrun]
  exact outcome_mono (made_outcome (E := fun _ => True) r.1 r.2 scope _ hud hfd hstart hres)
    (fun _ _ he => he) fun _ _ he => he.2

/-- The metaclass of the header of a class that is resolved was free. -/
theorem free_of_ok (hlinked : c.program.PairsLinked)
    (hu : c.program.pairing x = some (.ordinary, none))
    (hrun : linkForeign resolve x m c = .ok () d) : (c.program.classAt m).info = none := by
  rw [linkForeign, bind_apply, program_apply] at hrun
  cases hi : (c.program.classAt m).info with
  | none => rfl
  | some i =>
    simp only [hi] at hrun
    split at hrun
    · rename_i hback
      rw [Bool.and_eq_true, ClassInfo.isMetaclass, decide_eq_true_iff, decide_eq_true_iff] at hback
      have hm := pairing_of_info hi
      rw [hback.1, hback.2] at hm
      obtain ⟨x', he, hx⟩ := hlinked.ofMetaclass m _ hm
      cases he
      cases hu.symm.trans hx
    · cases hrun

/-- A class that was paired still is, and if its metaclass was made, it is known now. -/
theorem settled_of_paired (hp : c.program.pairing x = some (.ordinary, some m))
    (hscope : c.program.scopes.contains scope = true)
    (hrun : resolveStep resolve x scope c = .ok () d) : d.program.SettledIn scope x m := by
  rw [resolveStep_of_paired hp] at hrun
  obtain ⟨_, c', hverify, hdeclare⟩ := ok_of_bind hrun
  obtain ⟨rfl, hmut⟩ := (outcome_of_ok hverify).1 (verifyPair_outcome x m c)
  rcases (outcome_of_ok hdeclare).1 (declareMetaclass_outcome m scope c') with
    ⟨rfl, hknown⟩ | ⟨-, -, q, rfl, hq⟩
  · exact ⟨hmut, hknown⟩
  · have hlookup := lookup_of_declare hq hscope
    obtain ⟨scopes, rfl⟩ := scopes_of_declare hq
    exact ⟨hmut, fun _ => hlookup⟩

/-- A class that is not foreign has been given a metaclass that is known. -/
theorem settled_of_native (hl : c.program.Layered) (hin : c.program.Within (height + 1) x)
    (hu : c.program.pairing x = some (.ordinary, none))
    (hf : (c.program.classAt x).foreign = false)
    (hscope : c.program.scopes.contains scope = true)
    (hrun : resolveStep (resolveBelow scope height) x scope c = .ok () d) :
    ∃ m, d.program.SettledIn scope x m := by
  obtain ⟨r, c', hsuper⟩ := supers_of_native hu hf hrun
  obtain ⟨-, hmade⟩ := (outcome_of_ok hrun).1 (native_outcome hl hin hu hf hsuper)
  refine ⟨_, hmade.pair, fun _ => hmade.known ?_⟩
  rw [(superMetaclasses_below hsuper).contains, hscope]

end Resolve

/-! ## One resolution -/

/-- From `c` to `d` classes in `within` have been resolved from the scope, and the session goes
on. -/
structure Compilation.Resolves (scope : ScopeId) (within : Compilation → ClassId → Prop)
    (c d : Compilation) : Prop where
  trail : ∃ start, Trail (Resolving start within) c d
  running : d.session.aborted = false
  frame : c.program.SameBeyond scope d.program

/-- The last part of a resolution. -/
theorem Compilation.Resolves.last {within within' : Compilation → ClassId → Prop} {start : Program}
    (h : c.Resolves scope within e) (hd : c.program.SameBeyond scope d.program)
    (ht : Trail (Resolving start within') d e) : d.Resolves scope within' e :=
  ⟨⟨start, ht⟩, h.running, hd.symm.trans h.frame⟩

namespace Onward

theorem resolves {within : Compilation → ClassId → Prop} (h : Onward b c)
    (hr : c.Resolves scope within d) : Onward b d := by
  obtain ⟨start, ht⟩ := hr.trail
  exact h.trail ht hr.running

theorem owns (h : Onward b c) (hp : c.program.pairing x = some (.ordinary, some m))
    (hf : (b.program.classAt x).foreign = false) : c.program.Owns x m where
  pairing := hp
  own := by
    have ho := h.ordinary x (hasRole_iff.2 ⟨_, hp⟩)
    rw [h.extension.foreign (contains_of_hasRole ho), hf]

theorem native_of_owns (h : Onward b c) (ho : c.program.Owns x m) :
    (b.program.classAt x).foreign = false := by
  have hx := h.ordinary x (hasRole_iff.2 ⟨_, ho.pairing⟩)
  rw [← h.extension.foreign (contains_of_hasRole hx), ho.own]

theorem layered (h : Onward b c) : c.program.Layered := h.anchored.layered

/-- A foreign class is given the metaclass of its header without fail if that is free. -/
theorem foreign_outcome (h : Onward b c) (hin : b.program.Within (height + 1) x)
    (hu : c.program.pairing x = some (.ordinary, none)) (hn : b.program.HeaderNames x m)
    (hm : (c.program.classAt m).info = none) {r : Option ClassId × List ClassId}
    (hrun : superMetaclasses (resolveBelow scope height) x c = .ok r d) :
    Outcome (resolveStep (resolveBelow scope height) x scope) c
      (fun _ e => Trail (Resolving c.program fun _ y => y = x) d e) fun _ _ => False := by
  have hnone (r : Role × Option ClassId) : c.program.pairing m ≠ some r := by
    simp [pairing, hm]
  have hheader := h.extension.headerNames hn
  have hcm := h.anchored.steady.headers x m hheader
  obtain ⟨ht, hres, hud⟩ :=
    superMetaclasses_ok h.layered (hin.of_extends h.extension) hu hrun
  have hstart : ¬ c.program.Stuck x := by
    intro hstuck
    obtain ⟨r, hr, -⟩ := hstuck.header m hheader.2
    exact hnone r hr
  have hfree : d.program.FreeFor x m :=
    FreeFor.trail ht (fun _ => hcm) fun r hr => absurd hr (hnone r)
  rw [Outcome, resolveStep_of_header hu hheader, linkForeign_of_ok hm hrun]
  refine outcome_mono (seize_outcome (E := fun _ => True) r.1 hud
    (ht.extends.program.headerNames hheader) hfree ⟨r.2, hres⟩ hstart)
    (fun _ _ he => he.1) ?_
  rintro _ e ⟨-, hc⟩
  rw [ht.extends.program.containsClass m hcm] at hc
  cases hc

/-- What comes of resolving any class, if that ends well. -/
theorem resolveBelow_ok (h : Onward b c)
    (hin : b.program.HasRole x .ordinary → b.program.Within height x)
    (hrun : resolveBelow scope height x c = .ok () d) :
    c.Resolves scope (fun c y => c.program.AtOrAbove x y) d ∧
      (b.program.HasRole x .ordinary → d.program.IsPaired x) := by
  have hleaves := (outcome_of_ok hrun).1 (resolveBelow_leaves scope height x
    (.of_layered h.layered) fun ho => (hin (h.ordinary x ho)).of_extends h.extension)
  have haccounts := (outcome_of_ok hrun).1 (resolveBelow_accounts scope height x c)
  refine ⟨⟨⟨_, hleaves.1⟩, haccounts.2.aborted.trans h.running,
    (resolveBelow_frames height x c).of_ok hrun⟩, fun ho => hleaves.2 ?_⟩
  exact hleaves.1.extends.program.hasRole (h.extension.hasRole ho)

/-- A bound class that is resolved is paired. -/
theorem resolveStep_ok (h : Onward b c) (hin : b.program.Within (height + 1) x)
    (hrun : resolveStep (resolveBelow scope height) x scope c = .ok () d) :
    c.Resolves scope (fun c y => c.program.AtOrAbove x y) d ∧ d.program.IsPaired x :=
  (h.resolveBelow_ok (fun _ => hin) hrun).imp_right fun hpaired => hpaired hin.ordinary

/-- Resolving a bound class pairs it and makes its metaclass known. -/
theorem knows_of_ok (h : Onward b c) (hs : b.program.SameBeyond scope c.program)
    (hscope : b.program.scopes.contains scope = true) (hin : b.program.Within (height + 1) x)
    (hrun : resolveStep (resolveBelow scope height) x scope c = .ok () d) :
    d.program.Knows scope x := by
  have hcontains : c.program.scopes.contains scope = true := (hs.contains scope).trans hscope
  have hresolves := (h.resolveStep_ok hin hrun).1
  obtain ⟨partner, hp⟩ := hasRole_iff.1 (h.extension.hasRole hin.ordinary)
  intro m' ho
  have hsettled : ∃ m, d.program.SettledIn scope x m := by
    cases partner with
    | some m => exact ⟨m, settled_of_paired hp hcontains hrun⟩
    | none =>
      have hf : (c.program.classAt x).foreign = false := by
        obtain ⟨start, ht⟩ := hresolves.trail
        rw [← ht.extends.program.foreign (contains_of_pairing hp), ho.own]
      exact settled_of_native h.layered (hin.of_extends h.extension) hp hf hcontains hrun
  obtain ⟨m, hm⟩ := hsettled
  cases (mutual_iff.1 hm.pair).1.symm.trans ho.pairing
  exact hm.known ((h.resolves hresolves).mirrors ho).synthesized

end Onward

end ObjcBinding
