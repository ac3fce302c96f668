import ObjcBinding.Proofs.Steps.Accounts
import ObjcBinding.Proofs.Steps.Binding

/-!
# Whom an error on the way up is charged to

While the metaclass of a class is resolved, so are those of the classes above. The first error ends
all of it. If the session goes on, then a foreign class has turned out to have no metaclass, and
the error is charged to that class, be it the one that was asked for or one above.

* `Program.headerFault`: the error of a foreign class without a metaclass;
* `resolveMetaclass_faults`: there is no other error that is not fatal.
-/

namespace ObjcBinding

open Program

variable {c d : Compilation} {cls metaclass : ClassId} {start : Program}

/-- The error of a foreign class whose header gives it no metaclass. -/
def Program.headerFault (p : Program) (cls : ClassId) : BindError :=
  .missingMetaclass (p.className cls)
    (if (p.classAt cls).foreignMetaclass = none then .undeclared else .taken) (p.classAt cls).span

theorem Program.headerFault_eq {p q : Program} (hnames : q.names = p.names)
    (hname : (q.classAt cls).name = (p.classAt cls).name)
    (hheader : (q.classAt cls).foreignMetaclass = (p.classAt cls).foreignMetaclass)
    (hspan : (q.classAt cls).span = (p.classAt cls).span) :
    q.headerFault cls = p.headerFault cls := by
  rw [headerFault, headerFault, className, className, name, name, hnames, hname, hheader, hspan]

/-- The last thing on the way from `c` to `d` was that the error `e` was charged to `cls`. -/
def Compilation.ChargedLast (cls : ClassId) (e : BindError) (c d : Compilation) : Prop :=
  ∃ mid log, c.Quiet mid ∧ d = { (mid.charge (.classDecl cls)).report e with log }

theorem Compilation.Quiet.chargedLast {b : Compilation} {e : BindError} (h : b.Quiet c)
    (h' : c.ChargedLast cls e d) : b.ChargedLast cls e d := by
  obtain ⟨mid, log, hmid, hd⟩ := h'
  exact ⟨mid, log, h.trans hmid, hd⟩

namespace Resolve

variable {α β : Type} {E : Compilation → Prop}

/-- If the step fails and the session goes on, then a bound class without a metaclass has been
charged with that. -/
def Faults (x : Resolve α) (c : Compilation) : Prop :=
  Outcome x c (fun _ _ => True) fun e d => d.session.aborted = true ∨
    ∃ w, c.ChargedLast w e d ∧ d.program.pairing w = some (.ordinary, none) ∧
      e = d.program.headerFault w

/-! ## Parts of steps -/

theorem faults_bind {x : Resolve α} {f : α → Resolve β} (hx : Faults x c)
    (hf : ∀ a d, x c = .ok a d → c.Quiet d ∧ Faults (f a) d) : Faults (x >>= f) c := by
  unfold Faults
  rw [outcome_bind]
  cases hxc : x c with
  | error e d => exact (outcome_of_error hxc).2 ((outcome_of_error hxc).1 hx)
  | ok a d =>
    obtain ⟨hquiet, hrest⟩ := hf a d hxc
    refine (outcome_of_ok hxc).2 (outcome_mono hrest (fun _ _ _ => trivial) ?_)
    exact fun e k h => h.imp_right fun ⟨w, hw, hfault⟩ => ⟨w, hquiet.chargedLast hw, hfault⟩

theorem faults_program {f : Program → Resolve β} (h : Faults (f c.program) c) :
    Faults (program >>= f) c := h

theorem faults_headless (h : c.program.pairing cls = some (.ordinary, none)) {e : BindError}
    (he : e = c.program.headerFault cls) :
    Faults (reject (.classDecl cls) e : Resolve α) c := by
  let p := c.program.modifyClass cls fun d => { d with invalid := true }
  have hread {β : Type} (g : ClassDecl → β)
      (hg : ∀ d : ClassDecl, g { d with invalid := true } = g d) :
      g (p.classAt cls) = g (c.program.classAt cls) := read_modifyClass g hg cls cls
  have hpairing : p.pairing cls = some (.ordinary, none) := by
    rw [← h, pairing, hread ClassDecl.info fun _ => rfl, pairing]
  have hfault : e = p.headerFault cls :=
    he.trans (headerFault_eq (p := c.program) (q := p) rfl (hread ClassDecl.name fun _ => rfl)
      (hread ClassDecl.foreignMetaclass fun _ => rfl) (hread ClassDecl.span fun _ => rfl)).symm
  exact outcome_reject.2 (.inr ⟨cls, ⟨c, _, .refl c, rfl⟩, hpairing, hfault⟩)

theorem faults_pairedOf {x : ClassId} {f : Option ClassId → Resolve β}
    (h : Faults (f (c.program.classAt x).paired) c) : Faults (pairedOf x >>= f) c := h

/-- The step fails only if the session ends. -/
def Fatal (x : Resolve α) (c : Compilation) : Prop :=
  Outcome x c (fun _ _ => True) fun _ d => d.session.aborted = true

theorem Fatal.faults {x : Resolve α} (h : Fatal x c) : Faults x c :=
  outcome_mono h (fun _ _ _ => trivial) fun _ _ => .inl

theorem fatal_bind {x : Resolve α} {f : α → Resolve β} (hx : Fatal x c)
    (hf : ∀ a d, Fatal (f a) d) : Fatal (x >>= f) c :=
  outcome_bind.2 (outcome_mono hx (fun a d _ => hf a d) fun _ _ h => h)

theorem verifyPair_fatal (cls metaclass : ClassId) (c : Compilation) :
    Fatal (verifyPair cls metaclass) c := by
  refine outcome_mono (verifyPair_outcome cls metaclass c) (fun _ _ _ => trivial) ?_
  rintro _ d ⟨-, _, _, _, rfl⟩
  rfl

theorem declareMetaclass_fatal (metaclass : ClassId) (scope : ScopeId) (c : Compilation) :
    Fatal (declareMetaclass metaclass scope) c := by
  refine outcome_mono (declareMetaclass_outcome metaclass scope c) (fun _ _ _ => trivial) ?_
  rintro _ d ⟨⟨_, _, _, rfl⟩, -⟩
  rfl

theorem link_fatal (cls metaclass : ClassId) (c : Compilation) :
    Fatal (link cls metaclass) c := by
  unfold link
  refine outcome_bind.2 (outcome_program.2 ?_)
  dsimp only
  split
  · exact verifyPair_fatal cls metaclass c
  · split
    · exact outcome_abort.2 rfl
    · exact outcome_bind.2 (outcome_updateProgram.2 (verifyPair_fatal cls metaclass _))

/-! ## The classes above -/

/-- What resolving `cls` may assume of `resolve` when it fails. -/
def FaultsAbove (start : Program) (resolve : ClassId → Resolve Unit) (cls : ClassId)
    (c : Compilation) : Prop :=
  ∀ x, c.program.IsParent cls x →
    ∀ d, Trail (Resolving start fun c => c.program.DerivedFrom cls) c d → Faults (resolve x) d

section

variable {resolve : ClassId → Resolve Unit} {height : Nat}
  (haccounts : ∀ x d, Accounts .hierarchy (resolve x) d)

include haccounts

theorem interfaceMetaclasses_faults {l : List ClassId}
    (hr : ResolvesParents start resolve cls c) (hfaults : FaultsAbove start resolve cls c)
    (hl : ∀ x ∈ l, c.program.IsParent cls x)
    (hd : Trail (Resolving start fun c => c.program.DerivedFrom cls) c d) :
    Faults (interfaceMetaclasses resolve l) d := by
  induction l generalizing d with
  | nil => exact trivial
  | cons x rest ih =>
    have hx := hl x List.mem_cons_self
    refine faults_bind (hfaults x hx d hd) fun _ e he => ?_
    have hquiet := ((outcome_of_ok he).1 (haccounts x d)).2
    have htrail := ((outcome_of_ok he).1 (hr x hx d hd)).1
    have hrest := ih (fun y hy => hl y (List.mem_cons_of_mem x hy)) (hd.trans htrail)
    refine ⟨hquiet, faults_pairedOf ?_⟩
    exact faults_bind hrest fun _ k hk =>
      ⟨((outcome_of_ok hk).1 (interfaceMetaclasses_accounts haccounts rest e)).2, trivial⟩

theorem superMetaclasses_faults (hready : Ready start c) (hin : c.program.Within height cls)
    (hr : ResolvesParents start resolve cls c) (hfaults : FaultsAbove start resolve cls c) :
    Faults (superMetaclasses resolve cls) c := by
  have hbase : (c.program.classAt cls).superclass = (c.program.classAt cls).base := by
    obtain ⟨i, hi, hio⟩ := hin.ordinary
    rw [ClassDecl.superclass, hi, Option.bind_some, hready.superclasses cls i hi hio]
  have hrest (superMetaclass : Option ClassId) {d : Compilation}
      (hd : Trail (Resolving start fun c => c.program.DerivedFrom cls) c d) :
      Faults (do
        let interfaces ← interfaceMetaclasses resolve (c.program.classAt cls).interfaces
        return (superMetaclass, interfaces)) d :=
    faults_bind (interfaceMetaclasses_faults haccounts hr hfaults (fun _ => .inr) hd)
      fun _ e he =>
        ⟨((outcome_of_ok he).1 (interfaceMetaclasses_accounts haccounts _ d)).2, trivial⟩
  refine faults_program ?_
  dsimp only
  split
  · exact hrest none (.refl _ c)
  · rename_i superclass hsup
    have hparent : c.program.IsParent cls superclass := .inl (hbase.symm.trans hsup)
    refine faults_bind (hfaults superclass hparent c (.refl _ c)) fun _ d hd => ?_
    exact ⟨((outcome_of_ok hd).1 (haccounts superclass c)).2,
      faults_pairedOf (hrest _ ((outcome_of_ok hd).1 (hr superclass hparent c (.refl _ c))).1)⟩

/-- A header that names a metaclass of another class names none for this one. -/
theorem linkForeign_faults (hu : c.program.pairing cls = some (.ordinary, none))
    (hm : (c.program.classAt cls).foreignMetaclass = some metaclass)
    (hsuper : Faults (superMetaclasses resolve cls) c) :
    Faults (linkForeign resolve cls metaclass) c := by
  refine faults_program ?_
  dsimp only
  split
  · split
    · exact (link_fatal cls metaclass c).faults
    · refine faults_headless hu ?_
      rw [headerFault, if_neg (by rw [hm]; nofun)]
  · refine faults_bind hsuper fun r d hd => ?_
    refine ⟨((outcome_of_ok hd).1 (superMetaclasses_accounts haccounts cls c)).2, ?_⟩
    refine Fatal.faults (outcome_bind.2 (outcome_updateProgram.2 ?_))
    exact fatal_bind (link_fatal ..) fun _ _ => trivial

theorem resolveStep_faults (scope : ScopeId) (hready : Ready start c)
    (hb : (c.program.classAt cls).isBound = true)
    (hin : c.program.HasRole cls .ordinary → c.program.Within height cls)
    (hr : c.program.HasRole cls .ordinary → ResolvesParents start resolve cls c)
    (hfaults : c.program.HasRole cls .ordinary → FaultsAbove start resolve cls c) :
    Faults (resolveStep resolve cls scope) c := by
  refine faults_program ?_
  dsimp only
  split
  · rename_i hi
    rw [ClassDecl.isBound, hi] at hb
    cases hb
  · rename_i i hi
    split
    · exact trivial
    · rename_i hm
      have hio : i.role = .ordinary := by
        cases hrole : i.role with
        | ordinary => rfl
        | metaclass => simp [ClassInfo.isMetaclass, hrole] at hm
      have ho : c.program.HasRole cls .ordinary := ⟨i, hi, hio⟩
      have hpair := pairing_of_info hi
      have hsuper := superMetaclasses_faults haccounts hready (hin ho) (hr ho) (hfaults ho)
      rw [hio] at hpair
      split
      · exact (fatal_bind (verifyPair_fatal ..) fun _ d => declareMetaclass_fatal ..).faults
      · rename_i hp
        rw [hp] at hpair
        split
        · refine faults_bind hsuper fun r d hd => ?_
          refine ⟨((outcome_of_ok hd).1 (superMetaclasses_accounts haccounts cls c)).2, ?_⟩
          refine Fatal.faults (outcome_bind.2 (outcome_program.2 (outcome_bind.2
            (outcome_modifyGetProgram.2 (outcome_bind.2 (outcome_modifyGetProgram.2 ?_))))))
          refine fatal_bind (declareMetaclass_fatal ..) fun _ d => ?_
          exact fatal_bind (link_fatal ..) fun _ _ => trivial
        · split
          · rename_i m hm
            exact linkForeign_faults haccounts hpair hm hsuper
          · rename_i hm
            refine faults_headless hpair ?_
            rw [headerFault, if_pos hm]
            rfl

end

/-! ## The recursion -/

theorem resolveBelow_faults (scope : ScopeId) (height : Nat) (cls : ClassId) {c : Compilation}
    (hready : Ready start c) (hb : (c.program.classAt cls).isBound = true)
    (hin : c.program.HasRole cls .ordinary → c.program.Within height cls) :
    Faults (resolveBelow scope height cls) c := by
  induction height generalizing cls c with
  | zero => exact trivial
  | succ height ih =>
    refine resolveStep_faults (resolveBelow_accounts scope height) scope hready hb hin
      (fun ho => ?_) fun ho x hx d hd => ?_
    · exact .of_within hready (hin ho) fun x d hd => resolveBelow_leaves scope height x hd
    · obtain ⟨⟨role, hrole⟩, hwithin⟩ := (hin ho).parent_of_extends hx hd.extends.program
      exact ih x (hready.trail hd) (isBound_of_hasRole hrole) hwithin

/-- Resolving the metaclass of a bound class fails only with the end of the session, or because a
class has no metaclass. -/
theorem resolveMetaclass_faults (cls : ClassId) (scope : ScopeId) (hready : Ready start c)
    (hin : c.program.InOrder) (hb : (c.program.classAt cls).isBound = true) :
    Faults (resolveMetaclass cls scope) c :=
  faults_program (resolveBelow_faults scope _ cls hready hb fun ho => (hin.within ho).succ)

end Resolve

end ObjcBinding
