import ObjcBinding.Proofs.Steps.Partners
import ObjcBinding.Proofs.Steps.Resolving

/-!
# The trails of binding classes

Marking a class touches that class only. Giving a class its metaclass touches the class, those it
is derived from, and their metaclasses. It ends the session only if the bindings contradict
themselves, and otherwise fails only if a class on the way up is stuck.

* `superMetaclasses_leaves`: the parents of a class are paired before the class itself, and their
  other halves are what its metaclass inherits from;
* `resolveMetaclass_leaves`: a bound class becomes one half of a pair, or else it is blocked.
-/

namespace ObjcBinding

open Program

variable {c d : Compilation} {cls metaclass : ClassId} {start : Program}
  {within : Compilation → ClassId → Prop}

/-- The metaclass of a header need not be declared; then nothing is written. -/
theorem Program.setMetaclass_of_not_contains {p : Program}
    (h : p.classes.contains metaclass = false) (cls : ClassId) (superMetaclass : Option ClassId) :
    p.setMetaclass metaclass cls superMetaclass = p := by
  rw [setMetaclass, modifyClass, Arena.modify_of_not_contains h]

theorem Program.lookup_of_local? {p : Program} {scope : ScopeId} {name : Symbol}
    {entry : ScopeEntry} (h : (p.scopeAt scope).local? name = some entry) :
    p.lookup scope name = some entry := by
  have hc : p.scopes.contains scope = true := by
    by_contra hc
    rw [scopeAt, Arena.get_of_not_contains (Bool.not_eq_true _ ▸ hc)] at h
    cases h
  have hlocal : (p.scopes.get scope).local? name = some entry := h
  rw [lookup, scopesFrom, chain_succ, List.findSome?_cons, Arena.get?_eq_some_get hc,
    Option.bind_some, hlocal]

/-- A name that has just been declared in a scope means what it was declared for. -/
theorem Program.lookup_of_declare {p q : Program} {scope : ScopeId} {name : Symbol}
    {entry : ScopeEntry} (h : p.declare scope name entry = .ok q)
    (hc : p.scopes.contains scope = true) : q.lookup scope name = some entry := by
  refine lookup_of_local? ?_
  rw [local?_declare h, if_pos ⟨⟨rfl, hc⟩, rfl⟩]

/-- Names can be declared before or after annotations are made. -/
theorem Program.declare_setInfo {p q : Program} {scope : ScopeId} {name : Symbol}
    {entry : ScopeEntry} (h : p.declare scope name entry = .ok q) (cls : ClassId)
    (i : ClassInfo) : (p.setInfo cls i).declare scope name entry = .ok (q.setInfo cls i) := by
  have hscope : (p.setInfo cls i).scopeAt scope = p.scopeAt scope := rfl
  unfold declare at h ⊢
  rw [hscope]
  cases hs : (p.scopeAt scope).declare name entry with
  | error existing =>
    rw [hs] at h
    cases h
  | ok s =>
    rw [hs] at h
    cases h
    rfl

/-- The deeds by which classes and protocols are bound, those in `marks` being marked, if the
declarations were `start` at first. -/
def Binding (start : Program) (marks : ClassId → Prop) (c : Compilation) : Deed → Prop
  | .say | .refuse | .intern _ | .rejectClass _ => True
  | .abort => c.program.Corrupt
  | .declare name entry => c.program.DeclaresMetaclass name entry
  | .mark x => marks x
  | .pair x => ¬ start.Stuck x
  | _ => False

theorem Resolving.binding {deed : Deed} (h : Resolving start within c deed)
    (marks : ClassId → Prop) : Binding start marks c deed := by
  cases deed with
  | say | rejectClass => trivial
  | abort => exact h
  | declare =>
    obtain ⟨x, -, hx⟩ := h
    exact hx.declares
  | pair => exact h.2
  | _ => exact h.elim

/-- No class that was stuck at the start is paired. -/
theorem Ready.of_binding {marks : ClassId → Prop} (h : Trail (Binding start marks) c d)
    (hc : Ready start c) : Ready start d where
  superclasses := h.superclassesDeclared hc.superclasses
  partnered := h.partnered hc.partnered
  stuck := by
    refine h.invariant (I := fun d => ∀ x, start.Stuck x → d.program.Stuck x) ?_ hc.stuck
    intro d e deed hp hstep hd x hx
    refine (hd x hx).step hstep ?_
    rintro rfl
    exact hp hx

theorem Ready.trail (h : Trail (Resolving start within) c d) (hc : Ready start c) :
    Ready start d :=
  .of_binding (h.mono fun _ _ _ hp => hp.binding fun _ => False) hc

/-- What concerns the class alone concerns the classes at or above it. -/
theorem Trail.atOrAbove (h : Trail (Resolving start fun _ x => x = cls) c d) :
    Trail (Resolving start fun c => c.program.AtOrAbove cls) c d :=
  h.mono fun _ _ _ => Resolving.mono fun _ => .inl

namespace Resolve

/-! ## Marking -/

/-- Only a class that is not bound yet and fits into the bound hierarchy is marked. -/
theorem mark_leaves (cls : ClassId) (kind : ClassKind) (c : Compilation) :
    LeavesOr (Binding start (· = cls)) (mark cls kind) c
      (fun _ d => (c.program.classAt cls).info = none ∧ c.program.hierarchyFault? cls = none ∧
        (d.program.classes.contains cls = true → c.program.classes.contains cls = true ∧
          d.program.pairing cls = some (.ordinary, none)))
      fun d => d.program.HasRole cls .ordinary → c.program.HasRole cls .ordinary := by
  have hkeep {deed : Deed} (hm : deed ≠ .mark cls) (d : Compilation) (h : Change deed c d)
      (hd : d.program.HasRole cls .ordinary) : c.program.HasRole cls .ordinary :=
    (h.ordinary_of_ordinary hd).resolve_right hm
  refine leaves_program ?_
  dsimp only
  split
  · exact leaves_refuse trivial rfl (hkeep nofun)
  · rename_i hb
    have hi : (c.program.classAt cls).info = none := by
      simpa [ClassDecl.isBound] using hb
    split
    · exact leaves_reject_class trivial rfl (hkeep nofun)
    · split
      · exact leaves_reject_class trivial rfl (hkeep nofun)
      · rename_i hf
        refine leaves_change_bind rfl (.mark cls hi hf) rfl ?_
        refine leaves_say trivial ⟨hi, hf, fun hc => ?_⟩
        change (c.program.classes.modify cls _).contains cls = true at hc
        rw [Arena.contains_modify] at hc
        refine ⟨hc, ?_⟩
        change (c.program.modifyClass cls _).pairing cls = _
        rw [pairing, classAt_modifyClass, if_pos ⟨rfl, hc⟩]
        rfl

/-! ## Parts of a pair -/

/-- Declaring a metaclass gives its name a meaning if it was made and is not known yet, and ends the
session if the name has another one. -/
theorem declareMetaclass_outcome (metaclass : ClassId) (scope : ScopeId) (c : Compilation) :
    Outcome (declareMetaclass metaclass scope) c
      (fun _ d => d = c ∧ ((c.program.classAt metaclass).synthesized = true →
          c.program.lookup scope (c.program.classAt metaclass).name =
            some (.classDecl metaclass)) ∨
        (c.program.classAt metaclass).synthesized = true ∧
          c.program.lookup scope (c.program.classAt metaclass).name ≠
            some (.classDecl metaclass) ∧ ∃ p, d = { c with program := p } ∧
          c.program.declare scope (c.program.classAt metaclass).name (.classDecl metaclass) = .ok p)
      (fun _ d => (∃ corruption span log, d = c.afterAbort corruption span log) ∧
        (c.program.classAt metaclass).synthesized = true ∧ ∃ existing,
          (c.program.scopeAt scope).local? (c.program.classAt metaclass).name = some existing ∧
            existing ≠ .classDecl metaclass) := by
  unfold declareMetaclass
  simp only [outcome_bind, outcome_program]
  split
  · rename_i hknown
    refine .inl ⟨rfl, fun hsyn => ?_⟩
    simpa [hsyn] using hknown
  · rename_i hnot
    simp only [Bool.or_eq_true, Bool.not_eq_true', decide_eq_true_eq, not_or, Bool.not_eq_false]
      at hnot
    obtain ⟨hsyn, hlookup⟩ := hnot
    split
    · rename_i p hp
      exact .inr ⟨hsyn, hlookup, p, rfl, hp⟩
    · rename_i existing hp
      have hlocal : (c.program.scopeAt scope).local? (c.program.classAt metaclass).name =
          some existing := by
        unfold declare at hp
        split at hp
        · rename_i hs
          cases hp
          exact Scope.declare_eq_error_iff.1 hs
        · cases hp
      refine ⟨⟨_, _, _, rfl⟩, hsyn, existing, hlocal, ?_⟩
      rintro rfl
      exact hlookup (lookup_of_local? hlocal)

theorem verifyPair_outcome (cls metaclass : ClassId) (c : Compilation) :
    Outcome (verifyPair cls metaclass) c
      (fun _ d => d = c ∧ c.program.mutual cls metaclass = true)
      (fun _ d => c.program.mutual cls metaclass = false ∧
        ∃ corruption span log, d = c.afterAbort corruption span log) := by
  unfold verifyPair
  simp only [outcome_bind, outcome_program]
  split
  · rename_i h
    exact ⟨rfl, h⟩
  · rename_i h
    exact ⟨Bool.eq_false_iff.2 h, _, _, _, rfl⟩

/-- Linking an unpaired class to a metaclass records the metaclass on it. If the metaclass does
not name the class, the session ends after that. -/
theorem link_outcome {i : ClassInfo} (hi : (c.program.classAt cls).info = some i)
    (hu : i.paired = none) (metaclass : ClassId) :
    Outcome (link cls metaclass) c
      (fun _ d => ∃ j, i.setPaired metaclass = .ok j ∧
        d = { c with program := c.program.setInfo cls j } ∧
        d.program.mutual cls metaclass = true)
      (fun _ d => ∃ j, i.setPaired metaclass = .ok j ∧
        (c.program.setInfo cls j).mutual cls metaclass = false ∧ ∃ corruption span log,
          d = ({ c with program := c.program.setInfo cls j } : Compilation).afterAbort
            corruption span log) := by
  unfold link
  simp only [outcome_bind, outcome_program, hi]
  split
  · rename_i existing hj
    simp [ClassInfo.setPaired, hu] at hj
  · rename_i j hj
    simp only [outcome_bind, outcome_updateProgram]
    refine outcome_mono (verifyPair_outcome cls metaclass _) ?_ ?_
    · rintro _ d ⟨rfl, hm⟩
      exact ⟨j, hj, rfl, hm⟩
    · rintro _ d ⟨hm, habort⟩
      exact ⟨j, hj, hm, habort⟩

theorem verifyPair_leaves {E : Compilation → Prop}
    (hp : c.program.pairing cls = some (.ordinary, some metaclass)) :
    LeavesOr (Resolving start within) (verifyPair cls metaclass) c
      (fun _ d => d = c ∧ c.program.mutual cls metaclass = true) E := by
  refine outcome_mono (verifyPair_outcome cls metaclass c) ?_ ?_
  · rintro _ d ⟨rfl, hm⟩
    exact ⟨.refl _ _, rfl, hm⟩
  · rintro _ d ⟨hm, corruption, span, log, rfl⟩
    exact ⟨.single (.abort corruption span log) (.notMutual hp hm),
      Compilation.failed_of_aborted rfl _ _⟩

theorem declareMetaclass_leaves {E : Compilation → Prop} (scope : ScopeId)
    (hm : c.program.mutual cls metaclass = true) (hw : within c cls) :
    LeavesOr (Resolving start within) (declareMetaclass metaclass scope) c
      (fun _ d => ∃ scopes, d = { c with program := { c.program with scopes } }) E := by
  refine outcome_mono (declareMetaclass_outcome metaclass scope c) ?_ ?_
  · rintro _ d (⟨rfl, -⟩ | ⟨hsyn, -, q, rfl, hq⟩)
    · exact ⟨.refl _ _, _, rfl⟩
    · obtain ⟨scopes, rfl⟩ := scopes_of_declare hq
      refine ⟨.single (.declare scope _ _ hq) ?_, scopes, rfl⟩
      exact ⟨cls, hw, metaclass, rfl, hsyn, rfl, (mutual_iff.1 hm).1⟩
  · rintro _ d ⟨⟨corruption, span, log, rfl⟩, hsyn, existing, hlocal, hne⟩
    exact ⟨.single (.abort corruption span log) (.symbolTaken hm hsyn hlocal hne),
      Compilation.failed_of_aborted rfl _ _⟩

/-! ## The classes above -/

/-- What resolving `cls` may assume of `resolve`: it pairs the parents of `cls`, or else `cls` is
blocked. -/
def ResolvesParents (start : Program) (resolve : ClassId → Resolve Unit) (cls : ClassId)
    (c : Compilation) : Prop :=
  ∀ x, c.program.IsParent cls x →
    ∀ d, Trail (Resolving start fun c => c.program.DerivedFrom cls) c d →
      LeavesOr (Resolving start fun c => c.program.DerivedFrom cls) (resolve x) d
        (fun _ e => e.program.HasRole x .ordinary → e.program.IsPaired x)
        fun e => e.program.Blocked cls

theorem leaves_pairedOf {α : Type} {permits : Compilation → Deed → Prop}
    {f : Option ClassId → Resolve α} {P : α → Compilation → Prop} {E : Compilation → Prop}
    (h : LeavesOr permits (f (c.program.classAt cls).paired) c P E) :
    LeavesOr permits (pairedOf cls >>= f) c P E := h

theorem interfaceMetaclasses_leaves {E : Compilation → Prop} {resolve : ClassId → Resolve Unit}
    {l : List ClassId} {c : Compilation} (hpart : c.program.Partnered)
    (hbound : ∀ x ∈ l, ∃ role, c.program.HasRole x role)
    (hr : ∀ x ∈ l, ∀ d, Trail (Resolving start within) c d →
      LeavesOr (Resolving start within) (resolve x) d
        (fun _ e => e.program.HasRole x .ordinary → e.program.IsPaired x) E) :
    LeavesOr (Resolving start within) (interfaceMetaclasses resolve l) c
      (fun metaclasses d => (∀ x ∈ l, d.program.HasRole x .ordinary → d.program.IsPaired x) ∧
        (d.program.HeadersApart → List.Forall₂ d.program.Partner l metaclasses)) E := by
  induction l generalizing c with
  | nil => exact leaves_pure ⟨nofun, fun _ => .nil⟩
  | cons x rest ih =>
    refine leaves_bind (hr x List.mem_cons_self c (.refl _ c)) fun _ d hd hx => ?_
    have hpartd := hd.partnered hpart
    obtain ⟨role, hrole⟩ := hbound x List.mem_cons_self
    obtain ⟨m, hm⟩ := hpartd.partner (hd.extends.program.hasRole hrole) hx
    refine leaves_pairedOf ?_
    rw [show (d.program.classAt x).paired = some m from hm]
    refine leaves_bind (ih hpartd (fun y hy => ?_) fun y hy e he => ?_)
      fun metaclasses e he hrest => ?_
    · exact (hbound y (List.mem_cons_of_mem x hy)).imp fun _ => hd.extends.program.hasRole
    · exact hr y (List.mem_cons_of_mem x hy) e (hd.trans he)
    · refine leaves_pure ⟨fun y hy ho => ?_, fun happ => ?_⟩
      · rcases List.mem_cons.1 hy with rfl | hy
        · exact he.extends.program.isPaired (hx (he.ordinary_iff.1 ho))
        · exact hrest.1 y hy ho
      · exact .cons (he.partner (he.headersApart_iff.1 happ) hm) (hrest.2 happ)

/-- After the superclass has been resolved, so are the interfaces. -/
theorem afterSuperclass_leaves {resolve : ClassId → Resolve Unit} {height : Nat}
    (hready : Ready start c) (hin : c.program.Within height cls)
    (hr : ResolvesParents start resolve cls c) (superMetaclass : Option ClassId)
    (hd : Trail (Resolving start fun c => c.program.DerivedFrom cls) c d)
    (hbase : ∀ x, (c.program.classAt cls).base = some x →
      d.program.HasRole x .ordinary → d.program.IsPaired x)
    (hsuper : Option.Rel d.program.Partner (c.program.classAt cls).superclass superMetaclass) :
    LeavesOr (Resolving start fun c => c.program.DerivedFrom cls) (do
      let interfaces ← interfaceMetaclasses resolve (c.program.classAt cls).interfaces
      return (superMetaclass, interfaces)) d (fun r d => d.program.Resolved cls r.1 r.2)
        fun d => d.program.Blocked cls := by
  have ho := hin.ordinary
  have hc := contains_of_hasRole ho
  have hbound (x : ClassId) (hx : x ∈ (c.program.classAt cls).interfaces) :
      ∃ role, d.program.HasRole x role :=
    (hin.parent_bound (.inr hx)).imp fun _ => hd.extends.program.hasRole
  refine leaves_bind (interfaceMetaclasses_leaves (hd.partnered hready.partnered) hbound
    fun x hx e he => hr x (.inr hx) e (hd.trans he)) fun interfaces e he hi => leaves_pure ?_
  have hext := (hd.trans he).extends.program
  refine ⟨fun x hx hxo => ?_, fun happ => ?_, fun happ => ?_⟩
  · rcases (hext.isParent_iff hc).1 hx with hx | hx
    · exact he.extends.program.isPaired (hbase x hx (he.ordinary_iff.1 hxo))
    · exact hi.1 x hx hxo
  · rw [hext.superclass ho]
    exact rel_partner (fun _ _ => he.partner (he.headersApart_iff.1 happ)) hsuper
  · rw [hext.interfaces hc]
    exact hi.2 happ

/-- The parents of a class are paired before the class itself, and their other halves are what its
metaclass inherits from. -/
theorem superMetaclasses_leaves {resolve : ClassId → Resolve Unit} {height : Nat}
    (hready : Ready start c) (hin : c.program.Within height cls)
    (hr : ResolvesParents start resolve cls c) :
    LeavesOr (Resolving start fun c => c.program.DerivedFrom cls) (superMetaclasses resolve cls) c
      (fun r d => d.program.Resolved cls r.1 r.2) fun d => d.program.Blocked cls := by
  have hbase : (c.program.classAt cls).superclass = (c.program.classAt cls).base := by
    obtain ⟨i, hi, hio⟩ := hin.ordinary
    rw [ClassDecl.superclass, hi, Option.bind_some, hready.superclasses cls i hi hio]
  refine leaves_program ?_
  dsimp only
  split
  · rename_i hsup
    refine afterSuperclass_leaves hready hin hr none (.refl _ c) (fun x hx => ?_) ?_
    · rw [← hbase, hsup] at hx
      cases hx
    · rw [hsup]
      exact .none
  · rename_i superclass hsup
    have hparent : c.program.IsParent cls superclass := .inl (hbase.symm.trans hsup)
    refine leaves_bind (hr superclass hparent c (.refl _ c)) fun _ d hd hpaired => ?_
    obtain ⟨role, hrole⟩ := hin.parent_bound hparent
    obtain ⟨m, hm⟩ := (hd.partnered hready.partnered).partner (hd.extends.program.hasRole hrole)
      hpaired
    refine leaves_pairedOf ?_
    rw [show (d.program.classAt superclass).paired = some m from hm]
    refine afterSuperclass_leaves hready hin hr (some m) hd (fun x hx => ?_) ?_
    · rw [← hbase, hsup] at hx
      cases hx
      exact hpaired
    · rw [hsup]
      exact .some hm

/-- The class itself is left as it is meanwhile. -/
theorem superMetaclasses_unpaired {resolve : ClassId → Resolve Unit} {height : Nat}
    (hready : Ready start c) (hin : c.program.Within height cls)
    (hu : c.program.pairing cls = some (.ordinary, none))
    (hr : ResolvesParents start resolve cls c) :
    LeavesOr (Resolving start fun c => c.program.AtOrAbove cls) (superMetaclasses resolve cls) c
      (fun r d => Trail (Resolving start fun c => c.program.DerivedFrom cls) c d ∧
        d.program.Resolved cls r.1 r.2 ∧ d.program.pairing cls = some (.ordinary, none))
      fun d => d.program.Blocked cls :=
  (superMetaclasses_leaves hready hin hr).mono (fun _ _ _ => Resolving.mono fun _ => .inr)
    (fun _ _ ht hres => ⟨ht, hres, ht.unpaired hin hu⟩) fun _ _ h => h

/-! ## Making a pair -/

/-- The class has become one half of a pair, the other half being called by a name that `P` holds
of. -/
def Paired (cls : ClassId) (P : Symbol → Prop) (d : Compilation) : Prop :=
  ∃ m, d.program.mutual cls m = true ∧ P (d.program.classAt m).name

theorem Paired.isPaired {P : Symbol → Prop} (h : Paired cls P d) : d.program.IsPaired cls := by
  obtain ⟨m, hm, -⟩ := h
  exact isPaired_of_mutual hm

/-- The metaclass that has just been made for a class is linked to it. -/
theorem link_made (superMetaclass : Option ClassId) (interfaces : List ClassId)
    {i : ClassInfo} (hi : (c.program.classAt cls).info = some i) (ho : i.role = .ordinary)
    (hu : i.paired = none) :
    Outcome (link cls ⟨c.program.classes.size⟩)
      { c with program := c.program.makeMetaclass cls superMetaclass interfaces }
      (fun _ d => ∃ j, i.setPaired ⟨c.program.classes.size⟩ = .ok j ∧
        d = { c with
          program := (c.program.makeMetaclass cls superMetaclass interfaces).setInfo cls j } ∧
        d.program.mutual cls ⟨c.program.classes.size⟩ = true)
      fun _ _ => False := by
  have hc := contains_of_info hi
  have hne := ne_fresh_of_contains hc
  have hi' : ((c.program.makeMetaclass cls superMetaclass interfaces).classAt cls).info =
      some i := by
    rw [classAt_makeMetaclass, if_neg hne, hi]
  have hlink := link_outcome
    (c := { c with program := c.program.makeMetaclass cls superMetaclass interfaces }) hi' hu
    ⟨c.program.classes.size⟩
  refine outcome_mono hlink (fun _ _ h => h) ?_
  rintro _ _ ⟨j, hj, hm, -⟩
  refine Bool.eq_false_iff.1 hm ?_
  have hc' := (extends_makeMetaclass c.program cls superMetaclass interfaces).containsClass cls hc
  obtain ⟨-, rfl⟩ := ClassInfo.setPaired_eq_ok_iff.1 hj
  rw [mutual_iff, pairing_setInfo hc', pairing_setInfo hc', if_pos rfl, if_neg (Ne.symm hne),
    pairing_makeMetaclass, if_pos rfl, ho]
  exact ⟨rfl, rfl⟩

/-- Between `c` and `d` the class got the metaclass `m`, which is called after the class and known
by its name in `scope`. -/
structure Made (scope : ScopeId) (cls m : ClassId) (c d : Compilation) : Prop where
  pair : d.program.mutual cls m = true
  name : d.program.names.resolve (d.program.classAt m).name =
    some (metaclassSymbol (c.program.className cls))
  known : c.program.scopes.contains scope = true →
    d.program.lookup scope (d.program.classAt m).name = some (.classDecl m)

/-- What is done with a metaclass that has been made for a class. -/
def attach (cls metaclass : ClassId) (scope : ScopeId) (text : String) : Resolve Unit := do
  declareMetaclass metaclass scope
  link cls metaclass
  say .debug .metaclasses text

/-- The name of a metaclass that was made for a class is declared; it could as well be declared
after the two are linked. Should it be in use, then the session ends. -/
theorem declareMade_outcome (start : Program) (superMetaclass : Option ClassId)
    (interfaces : List ClassId) (scope : ScopeId) (hc : c.program.classes.contains cls = true) :
    Outcome (declareMetaclass ⟨c.program.classes.size⟩ scope)
      { c with program := c.program.makeMetaclass cls superMetaclass interfaces }
      (fun _ d => ∃ scopes,
        d = { c with program :=
          ({ c.program with scopes } : Program).makeMetaclass cls superMetaclass interfaces } ∧
        (c.program.scopes.contains scope = true →
          d.program.lookup scope (c.program.madeMetaclass cls superMetaclass interfaces).name =
            some (.classDecl ⟨c.program.classes.size⟩)) ∧
        ∀ j, ((c.program.makeMetaclass cls superMetaclass interfaces).setInfo cls j).mutual cls
            ⟨c.program.classes.size⟩ = true →
          Trail (Resolving start fun _ x => x = cls)
            { c with
              program := (c.program.makeMetaclass cls superMetaclass interfaces).setInfo cls j }
            { c with program := d.program.setInfo cls j })
      fun _ d => ∃ corruption span log,
        d = ({ c with
          program := c.program.makeMetaclass cls superMetaclass interfaces } :
            Compilation).afterAbort corruption span log ∧
        ∃ existing, (c.program.scopeAt scope).local?
          (c.program.intern (metaclassSymbol (c.program.className cls))).1 = some existing := by
  have hmade : (c.program.makeMetaclass cls superMetaclass interfaces).classAt
      ⟨c.program.classes.size⟩ = c.program.madeMetaclass cls superMetaclass interfaces := by
    rw [classAt_makeMetaclass, if_pos rfl]
  refine outcome_mono (declareMetaclass_outcome _ scope _) ?_ ?_
  · rintro _ d (⟨rfl, hfound⟩ | ⟨-, -, q, rfl, hq⟩)
    · rw [hmade] at hfound
      exact ⟨c.program.scopes, rfl, fun _ => hfound rfl, fun j _ => .refl _ _⟩
    · have hlookup := lookup_of_declare hq
      rw [hmade] at hlookup
      obtain ⟨scopes, rfl⟩ := scopes_of_declare hq
      refine ⟨scopes, rfl, hlookup, fun j hmut => ?_⟩
      have hdeclare : Change (.declare _ _) _ _ :=
        .declare (c := { c with
          program := (c.program.makeMetaclass cls superMetaclass interfaces).setInfo cls j })
          scope _ _ (declare_setInfo hq cls j)
      have hmade' := (classAt_setInfo_of_ne j (ne_fresh_of_contains hc).symm).trans hmade
      exact .single hdeclare ⟨cls, rfl, _, rfl, by rw [hmade']; rfl, by rw [hmade', hmade],
        (mutual_iff.1 hmut).1⟩
  · rintro e d ⟨⟨corruption, span, log, rfl⟩, -, existing, hlocal, -⟩
    rw [hmade] at hlocal
    exact ⟨corruption, span, log, rfl, existing, hlocal⟩

/-- A metaclass that was made for a class is declared, and the two are linked. Should its name be
in use, then the session ends. -/
theorem made_outcome {E : Compilation → Prop} (superMetaclass : Option ClassId)
    (interfaces : List ClassId) (scope : ScopeId) (text : String)
    (hu : c.program.pairing cls = some (.ordinary, none))
    (hf : (c.program.classAt cls).foreign = false) (hstart : ¬ start.Stuck cls)
    (hres : c.program.Resolved cls superMetaclass interfaces) :
    Outcome (attach cls ⟨c.program.classes.size⟩ scope text)
      { c with program := c.program.makeMetaclass cls superMetaclass interfaces }
      (fun _ d => Trail (Resolving start fun _ x => x = cls) c d ∧
        Made scope cls ⟨c.program.classes.size⟩ c d)
      fun e d => (Trail (Resolving start fun _ x => x = cls) c d ∧ d.Failed e (E d)) ∧
        ∃ existing, (c.program.scopeAt scope).local?
          (c.program.intern (metaclassSymbol (c.program.className cls))).1 = some existing := by
  obtain ⟨i, hi, ho, hnone⟩ := info_of_pairing hu
  have hc := contains_of_info hi
  refine outcome_bind.2 (outcome_mono
    (declareMade_outcome start superMetaclass interfaces scope hc) ?_ ?_)
  · rintro _ d ⟨scopes, rfl, hknown, hlate⟩
    have hlink := link_made (c := { c with program := { c.program with scopes } }) superMetaclass
      interfaces hi ho hnone
    refine outcome_bind.2 (outcome_mono hlink ?_ fun _ _ => False.elim)
    rintro _ _ ⟨j, hj, rfl, hmut⟩
    have hpair : Trail (Resolving start fun _ x => x = cls) c _ :=
      .single (.synthesize superMetaclass interfaces hi ho hf hres hj) ⟨rfl, hstart⟩
    have hmade : ((c.program.makeMetaclass cls superMetaclass interfaces).setInfo cls j).classAt
        ⟨c.program.classes.size⟩ = c.program.madeMetaclass cls superMetaclass interfaces := by
      rw [classAt_setInfo_of_ne _ (ne_fresh_of_contains hc).symm, classAt_makeMetaclass,
        if_pos rfl]
    refine ⟨(hpair.trans (hlate j hmut)).tail (.say _) trivial, hmut, ?_, fun hc => ?_⟩
    · exact (congrArg (fun d => Interner.resolve _ (ClassDecl.name d)) hmade).trans
        (c.program.resolve_intern _)
    · exact (congrArg (fun d => lookup _ scope (ClassDecl.name d)) hmade).trans (hknown hc)
  · rintro e _ ⟨corruption, span, log, rfl, existing, hname⟩
    have horphan : Change (.pair cls) (c.afterAbort corruption span log) _ :=
      .orphan superMetaclass interfaces rfl ⟨i, hi, ho⟩
    refine ⟨⟨.tail (.single (.abort corruption span log) ?_) horphan ⟨rfl, hstart⟩,
      Compilation.failed_of_aborted rfl _ _⟩, existing, hname⟩
    exact .symbolInUse hu hf hname

/-! ## Resolving metaclasses -/

/-- A metaclass that is made for a class is named after it. -/
theorem synthesize_leaves {resolve : ClassId → Resolve Unit} {height : Nat} (scope : ScopeId)
    (hready : Ready start c) (hin : c.program.Within height cls)
    (hu : c.program.pairing cls = some (.ordinary, none))
    (hf : (c.program.classAt cls).foreign = false) (hr : ResolvesParents start resolve cls c) :
    LeavesOr (Resolving start fun c => c.program.AtOrAbove cls) (synthesize resolve cls scope) c
      (fun _ d => Paired cls (fun name => ∀ t,
        c.program.names.resolve (c.program.classAt cls).name = some t →
          d.program.names.resolve name = some (metaclassSymbol t)) d)
      fun d => d.program.Blocked cls := by
  have hc := contains_of_pairing hu
  refine leaves_bind (superMetaclasses_unpaired hready hin hu hr) ?_
  rintro ⟨superMetaclass, interfaces⟩ d hd ⟨-, hres, hud⟩
  have hext := hd.extends.program
  have hfd : (d.program.classAt cls).foreign = false := by rw [hext.foreign hc, hf]
  have hstart : ¬ start.Stuck cls := by
    intro hstuck
    cases hf.symm.trans (hready.stuck cls hstuck).foreign
  refine leaves_program (outcome_bind.2 (outcome_modifyGetProgram.2 (outcome_bind.2
    (outcome_modifyGetProgram.2 ?_))))
  have hmade := made_outcome (E := fun d => d.program.Blocked cls) superMetaclass interfaces scope
    s!"synthesized `{metaclassSymbol (d.program.className cls)}`" hud hfd hstart hres
  refine outcome_mono hmade ?_ fun _ _ h => ⟨h.1.1.atOrAbove, h.1.2⟩
  rintro _ e ⟨he, hm⟩
  refine ⟨he.atOrAbove, _, hm.pair, fun t ht => ?_⟩
  have hcls : d.program.className cls = t := by
    rw [className, name, hext.name hc, hext.names _ t ht, Option.getD_some]
  rw [hm.name, hcls]

/-- A class is linked to a declaration that has just been made its metaclass. Should the
declaration not exist, then the session ends. -/
theorem link_seized {E : Compilation → Prop} (superMetaclass : Option ClassId)
    (hu : c.program.pairing cls = some (.ordinary, none)) (hn : c.program.HeaderNames cls metaclass)
    (hk : c.program.FreeFor cls metaclass)
    (hres : ∃ is, c.program.Resolved cls superMetaclass is)
    (hstart : ¬ start.Stuck cls) :
    Outcome (link cls metaclass)
      { c with program := c.program.setMetaclass metaclass cls superMetaclass }
      (fun _ d => Trail (Resolving start fun _ x => x = cls) c d ∧ Paired cls (fun _ => True) d)
      (fun e d => (Trail (Resolving start fun _ x => x = cls) c d ∧ d.Failed e (E d)) ∧
        c.program.classes.contains metaclass = false) := by
  obtain ⟨i, hi, ho, hnone⟩ := info_of_pairing hu
  have hne : cls ≠ metaclass := by
    rintro rfl
    exact hk.not_ordinary ⟨i, hi, ho⟩
  have hc := contains_of_info hi
  cases hm : c.program.classes.contains metaclass with
  | false =>
    rw [setMetaclass_of_not_contains hm]
    refine outcome_mono (link_outcome hi hnone metaclass) ?_ ?_
    · rintro _ d ⟨j, -, rfl, hmut⟩
      have hcm := contains_of_pairing (mutual_iff.1 hmut).2
      change (c.program.classes.modify cls _).contains metaclass = true at hcm
      rw [Arena.contains_modify, hm] at hcm
      cases hcm
    · rintro _ d ⟨j, hj, -, corruption, span, log, rfl⟩
      have hhalf : Change (.pair cls) (c.afterAbort corruption span log) _ :=
        .halfLink rfl hi ho hj
      refine ⟨⟨.tail (.single (.abort corruption span log) ?_) hhalf ⟨rfl, hstart⟩,
        Compilation.failed_of_aborted rfl _ _⟩, rfl⟩
      exact .undeclaredHeader hn hm
  | true =>
    have hi' : ((c.program.setMetaclass metaclass cls superMetaclass).classAt cls).info =
        some i := by
      rw [classAt_setMetaclass_of_ne _ _ hne, hi]
    have hlink := link_outcome
      (c := { c with program := c.program.setMetaclass metaclass cls superMetaclass }) hi' hnone
      metaclass
    refine outcome_mono hlink ?_ ?_
    · rintro _ d ⟨j, hj, rfl, hmut⟩
      exact ⟨.single (.linkForeign superMetaclass hi ho hn hm hk hres hj) ⟨rfl, hstart⟩,
        metaclass, hmut, trivial⟩
    · rintro _ d ⟨j, hj, hmut, -⟩
      refine absurd ?_ (Bool.eq_false_iff.1 hmut)
      have hc' := (extends_setMetaclass hk.not_ordinary cls superMetaclass).containsClass cls hc
      obtain ⟨-, rfl⟩ := ClassInfo.setPaired_eq_ok_iff.1 hj
      rw [mutual_iff, pairing_setInfo hc', pairing_setInfo hc', if_pos rfl, if_neg (Ne.symm hne),
        pairing_setMetaclass, if_pos ⟨rfl, hm⟩, ho]
      exact ⟨rfl, rfl⟩

/-- What is done with the metaclass of a header once it has been found free. -/
def seize (cls metaclass : ClassId) (superMetaclass : Option ClassId) : Resolve Unit := do
  updateProgram fun p => p.setMetaclass metaclass cls superMetaclass
  link cls metaclass
  let p ← program
  say .debug .metaclasses
    s!"linked extern `{p.className cls}` to `{p.className metaclass}`"

theorem seize_outcome {E : Compilation → Prop} (superMetaclass : Option ClassId)
    (hu : c.program.pairing cls = some (.ordinary, none)) (hn : c.program.HeaderNames cls metaclass)
    (hk : c.program.FreeFor cls metaclass)
    (hres : ∃ is, c.program.Resolved cls superMetaclass is)
    (hstart : ¬ start.Stuck cls) :
    Outcome (seize cls metaclass superMetaclass) c
      (fun _ d => Trail (Resolving start fun _ x => x = cls) c d ∧ Paired cls (fun _ => True) d)
      (fun e d => (Trail (Resolving start fun _ x => x = cls) c d ∧ d.Failed e (E d)) ∧
        c.program.classes.contains metaclass = false) := by
  refine outcome_bind.2 (outcome_updateProgram.2 (outcome_bind.2 ?_))
  refine outcome_mono (link_seized superMetaclass hu hn hk hres hstart) ?_ fun _ _ h => h
  intro _ d hd
  exact ⟨hd.1.tail (.say _) trivial, hd.2⟩

theorem link_again {E : Compilation → Prop}
    (hu : c.program.pairing cls = some (.ordinary, none)) (hn : c.program.HeaderNames cls metaclass)
    (hm : c.program.pairing metaclass = some (.metaclass, some cls)) (hstart : ¬ start.Stuck cls) :
    LeavesOr (Resolving start fun c => c.program.AtOrAbove cls) (link cls metaclass) c
      (fun _ d => Paired cls (fun _ => True) d) E := by
  obtain ⟨i, hi, ho, hnone⟩ := info_of_pairing hu
  refine outcome_mono (link_outcome hi hnone metaclass) ?_ ?_
  · rintro _ d ⟨j, hj, rfl, hmut⟩
    exact ⟨.single (.relink hi ho hn hm hj) ⟨.inl rfl, hstart⟩, metaclass, hmut, trivial⟩
  · rintro _ d ⟨j, hj, hmut, -⟩
    refine absurd ?_ (Bool.eq_false_iff.1 hmut)
    have hne : metaclass ≠ cls := by
      rintro rfl
      rw [hu] at hm
      cases hm
    obtain ⟨-, rfl⟩ := ClassInfo.setPaired_eq_ok_iff.1 hj
    have hc := contains_of_info hi
    rw [mutual_iff, pairing_setInfo hc, pairing_setInfo hc, if_pos rfl, if_neg hne, ho, hm]
    exact ⟨rfl, rfl⟩

/-- A foreign class is linked to the metaclass of its header, if that is free or the class's own. -/
theorem linkForeign_leaves {resolve : ClassId → Resolve Unit} {height : Nat}
    (hready : Ready start c) (hin : c.program.Within height cls)
    (hu : c.program.pairing cls = some (.ordinary, none))
    (hn : c.program.HeaderNames cls metaclass) (hr : ResolvesParents start resolve cls c) :
    LeavesOr (Resolving start fun c => c.program.AtOrAbove cls) (linkForeign resolve cls metaclass)
      c (fun _ d => Paired cls (fun _ => True) d) fun d => d.program.Blocked cls := by
  have hc := contains_of_pairing hu
  -- unless the metaclass of the header is bound to another class, the class is not stuck
  have hstart (h : ∀ r, c.program.pairing metaclass = some r → r = (.metaclass, some cls)) :
      ¬ start.Stuck cls := by
    intro hstuck
    obtain ⟨r, hr, hne⟩ := (hready.stuck cls hstuck).header metaclass hn.2
    exact hne (h r hr)
  refine leaves_program ?_
  split
  · rename_i k hk
    have hm := pairing_of_info hk
    split
    · rename_i hback
      rw [Bool.and_eq_true, ClassInfo.isMetaclass, decide_eq_true_iff, decide_eq_true_iff] at hback
      rw [hback.1, hback.2] at hm
      refine link_again hu hn hm (hstart fun r hr => ?_)
      rw [hm] at hr
      cases hr
      rfl
    · rename_i hback
      refine leaves_reject_class (.inl rfl) rfl fun d h => ⟨cls, .inl rfl, ?_⟩
      refine Stuck.step h (by simp) ⟨hu, hn.1, fun m hm' =>
        ⟨(k.role, k.paired), ?_, fun he => hback ?_⟩⟩
      · rw [hn.2] at hm'
        cases hm'
        exact hm
      · obtain ⟨hrole, hpaired⟩ := Prod.mk.inj he
        simp [ClassInfo.isMetaclass, hrole, hpaired]
  · rename_i hm
    have hnone (r : Role × Option ClassId) : c.program.pairing metaclass ≠ some r := by
      simp [pairing, hm]
    have hfree : c.program.FreeFor cls metaclass := fun r hr => absurd hr (hnone r)
    refine leaves_bind (superMetaclasses_unpaired hready hin hu hr) ?_
    rintro ⟨superMetaclass, interfaces⟩ d - ⟨ht, hres, hud⟩
    have hlt (h : metaclass.index < cls.index) : c.program.classes.contains metaclass = true :=
      Arena.contains_of_lt hc h
    have hseize := seize_outcome (E := fun d => d.program.Blocked cls) superMetaclass hud
      (ht.extends.program.headerNames hn) (FreeFor.trail ht hlt hfree) ⟨interfaces, hres⟩
      (hstart fun r hr => absurd hr (hnone r))
    exact outcome_mono hseize (fun _ _ he => ⟨he.1.atOrAbove, he.2⟩)
      fun _ _ he => ⟨he.1.1.atOrAbove, he.1.2⟩

/-! ## The recursion -/

/-- A bound class becomes one half of a pair; a metaclass made for it is named after it. -/
theorem resolveStep_leaves {resolve : ClassId → Resolve Unit} {height : Nat} (scope : ScopeId)
    (hready : Ready start c)
    (hin : c.program.HasRole cls .ordinary → c.program.Within height cls)
    (hr : c.program.HasRole cls .ordinary → ResolvesParents start resolve cls c) :
    LeavesOr (Resolving start fun c => c.program.AtOrAbove cls) (resolveStep resolve cls scope) c
      (fun _ d => c.program.classes.contains cls = true ∧
        (c.program.HasRole cls .ordinary → Paired cls (fun name =>
          c.program.pairing cls = some (.ordinary, none) →
          (c.program.classAt cls).foreign = false → ∀ t,
            c.program.names.resolve (c.program.classAt cls).name = some t →
              d.program.names.resolve name = some (metaclassSymbol t)) d))
      fun d => (d.program.classAt cls).isBound = true → d.program.Blocked cls := by
  refine leaves_program ?_
  dsimp only
  split
  · rename_i hi
    refine leaves_reject_class (.inl rfl) rfl fun d h hb => ?_
    obtain ⟨role, hrole⟩ := hasRole_of_isBound hb
    obtain ⟨i, hi', -⟩ := hasRole_of_pairing_eq (h.pairing_eq (by simp) (by simp) cls) hrole
    cases hi.symm.trans hi'
  · rename_i i hi
    have hc := contains_of_info hi
    split
    · rename_i hm
      refine leaves_pure ⟨hc, fun ho => ?_⟩
      obtain ⟨j, hj, hjo⟩ := ho
      rw [hi] at hj
      cases hj
      simp [ClassInfo.isMetaclass, hjo] at hm
    · rename_i hm
      have hio : i.role = .ordinary := by
        cases hrole : i.role with
        | ordinary => rfl
        | metaclass => simp [ClassInfo.isMetaclass, hrole] at hm
      have ho : c.program.HasRole cls .ordinary := ⟨i, hi, hio⟩
      have hpair := pairing_of_info hi
      rw [hio] at hpair
      split
      · rename_i m hp
        rw [hp] at hpair
        refine leaves_bind (verifyPair_leaves hpair) ?_
        rintro _ _ - ⟨rfl, hmut⟩
        refine (declareMetaclass_leaves scope hmut (.inl rfl)).post ?_
        rintro _ _ - ⟨scopes, rfl⟩
        refine ⟨hc, fun _ => ⟨m, hmut, fun hnone => ?_⟩⟩
        cases hpair.symm.trans hnone
      · rename_i hp
        rw [hp] at hpair
        split
        · rename_i hf
          have hsyn := synthesize_leaves scope hready (hin ho) hpair (by simpa using hf) (hr ho)
          refine hsyn.mono (fun _ _ _ h => h) ?_ fun _ _ h _ => h
          rintro _ d - ⟨m, hm, hname⟩
          exact ⟨hc, fun _ => ⟨m, hm, fun _ _ => hname⟩⟩
        · rename_i hf
          have hf' : (c.program.classAt cls).foreign = true := by simpa using hf
          split
          · rename_i m hh
            have hlink := linkForeign_leaves hready (hin ho) hpair ⟨hf', hh⟩ (hr ho)
            refine hlink.mono (fun _ _ _ h => h) ?_ fun _ _ h _ => h
            rintro _ d - ⟨m, hm, -⟩
            refine ⟨hc, fun _ => ⟨m, hm, fun _ hff => ?_⟩⟩
            cases hf'.symm.trans hff
          · rename_i hh
            refine leaves_reject_class (.inl rfl) rfl fun d h _ => ⟨cls, .inl rfl, ?_⟩
            refine Stuck.step h (by simp) ⟨hpair, hf', fun m hm => ?_⟩
            cases hh.symm.trans hm

/-- What is known of resolving any class with room for `height` classes above it holds of the
parents of a class that has one more above it. -/
theorem ResolvesParents.of_within {resolve : ClassId → Resolve Unit} {height : Nat}
    (hready : Ready start c) (hin : c.program.Within (height + 1) cls)
    (h : ∀ x d, Ready start d → (d.program.HasRole x .ordinary → d.program.Within height x) →
      LeavesOr (Resolving start fun c => c.program.AtOrAbove x) (resolve x) d
        (fun _ e => e.program.HasRole x .ordinary → e.program.IsPaired x)
        fun e => (e.program.classAt x).isBound = true → e.program.Blocked x) :
    ResolvesParents start resolve cls c := by
  intro x hx d hd
  have hind := hin.of_extends hd.extends.program
  have hxd := hd.extends.program.isParent hx
  obtain ⟨⟨role, hrole⟩, hwithin⟩ := hin.parent_of_extends hx hd.extends.program
  have hup {e : Compilation} (he : d.Extends e) {y : ClassId} (hy : e.program.AtOrAbove x y) :
      e.program.DerivedFrom cls y :=
    hy.derivedFrom (he.program.hasRole hind.ordinary) (he.program.isParent hxd)
  refine (h x d (hready.trail hd) hwithin).mono (fun e _ he => Resolving.mono fun y => hup he)
    (fun _ _ _ h => h) fun e he hblocked => ?_
  obtain ⟨y, hy, hstuck⟩ := hblocked (isBound_of_hasRole (he.extends.program.hasRole hrole))
  exact ⟨y, .inr (hup he.extends hy), hstuck⟩

/-- Wherever there is room for all classes above, a bound class is paired or else blocked. -/
theorem resolveBelow_leaves (scope : ScopeId) (height : Nat) (cls : ClassId) {c : Compilation}
    (hready : Ready start c)
    (hin : c.program.HasRole cls .ordinary → c.program.Within height cls) :
    LeavesOr (Resolving start fun c => c.program.AtOrAbove cls) (resolveBelow scope height cls) c
      (fun _ d => d.program.HasRole cls .ordinary → d.program.IsPaired cls)
      fun d => (d.program.classAt cls).isBound = true → d.program.Blocked cls := by
  induction height generalizing cls c with
  | zero => exact leaves_pure fun ho => absurd (hin ho) Within.not_zero
  | succ height ih =>
    have hstep := resolveStep_leaves scope hready hin fun ho =>
      .of_within hready (hin ho) fun x d hd => ih x hd
    refine hstep.post fun _ d hd hpaired ho => ?_
    exact (hpaired.2 (hd.ordinary_iff.1 ho)).isPaired

theorem resolveMetaclass_leaves (cls : ClassId) (scope : ScopeId) (hready : Ready start c)
    (hin : c.program.InOrder) :
    LeavesOr (Resolving start fun c => c.program.AtOrAbove cls) (resolveMetaclass cls scope) c
      (fun _ d => c.program.classes.contains cls = true ∧
        (c.program.HasRole cls .ordinary → Paired cls (fun name =>
          c.program.pairing cls = some (.ordinary, none) →
          (c.program.classAt cls).foreign = false → ∀ t,
            c.program.names.resolve (c.program.classAt cls).name = some t →
              d.program.names.resolve name = some (metaclassSymbol t)) d))
      fun d => (d.program.classAt cls).isBound = true → d.program.Blocked cls := by
  have hwithin (ho : c.program.HasRole cls .ordinary) := (hin.within ho).succ
  exact leaves_program (resolveStep_leaves scope hready hwithin fun ho =>
    .of_within hready (hwithin ho) fun x d hd => resolveBelow_leaves scope _ x hd)

theorem runtimeMetaclass_leaves (cls : ClassId) (c : Compilation) :
    Leaves (Resolving start fun _ _ => True) (runtimeMetaclass cls) c fun _ _ => True := by
  have hreject {e : BindError} {x : ClassId} (he : e.blame = .type) :
      Leaves (Resolving start fun _ _ => True)
        (reject (.classDecl x) e : Resolve (Option ClassId)) c fun _ _ => True :=
    leaves_reject_class trivial he fun _ _ => trivial
  refine leaves_program ?_
  dsimp only
  split
  · exact hreject rfl
  · rename_i i hi
    split
    · split
      · exact leaves_pure trivial
      · exact hreject rfl
    · rename_i hm
      split
      · rename_i hp
        have hpair := pairing_of_info hi
        rw [show i.role = .metaclass by simpa [ClassInfo.isMetaclass] using hm, hp] at hpair
        exact leaves_abort (.pairsNothing hpair)
      · split
        · exact leaves_pure trivial
        · exact hreject rfl

end Resolve

end ObjcBinding
