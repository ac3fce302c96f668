import ObjcBinding.Proofs.Run
import ObjcBinding.Proofs.Steps.Accounts

/-!
# Courses

What is done to classes is a trail of changes only from declarations that no one has annotated
before. Functions are in no such need: a step on classes leaves them alone whatever it finds. So
there is a `Course` from every compilation of a functional session to the one after an operation,
and what is said of functions can be shown for all runs, also for those in which classes come
annotated.

* `Operation.proceeds`: every operation takes its course, however it ends;
* `Run.courses`: what is kept by every addition and by every stir holds at the end of every run.
-/

namespace ObjcBinding

open Resolve

variable {α β : Type} {c d : Compilation}

/-! ## Stirs -/

/-- A single change, or whatever a step on classes does. -/
inductive Stir (c d : Compilation) : Prop where
  | change {deed : Deed} (h : Change deed c d)
  | spare (h : Realm.hierarchy.Spares c d) (hs : d.session.strategy = c.session.strategy)

theorem Stir.strategy (h : Stir c d) : d.session.strategy = c.session.strategy := by
  cases h with
  | change h => exact h.extends.strategy
  | spare _ hs => exact hs

/-- A sequence of stirs. -/
def Course : Compilation → Compilation → Prop := Relation.ReflTransGen Stir

namespace Course

theorem single (h : Stir c d) : Course c d := Relation.ReflTransGen.single h

theorem trans {b : Compilation} (h : Course b c) (h' : Course c d) : Course b d :=
  Relation.ReflTransGen.trans h h'

theorem of_trail {permits : Compilation → Deed → Prop} (h : Trail permits c d) : Course c d := by
  refine h.invariant (I := Course c) ?_ .refl
  intro _ _ _ _ hstep hc
  exact hc.trans (.single (.change hstep))

theorem of_phases {marks : ClassId → Prop} {lists : FuncId → ClassId → Bool → Prop}
    (h : Phases marks lists c d) : Course c d := by
  obtain ⟨mid, hb, hl⟩ := h
  exact (of_trail hb).trans (of_trail hl)

/-- What every stir keeps is kept by a course. -/
theorem invariant {I : Compilation → Prop} (hI : ∀ c d, Stir c d → I c → I d) (h : Course c d)
    (hc : I c) : I d := by
  induction h with
  | refl => exact hc
  | tail _ hstep ih => exact hI _ _ hstep ih

theorem strategy (h : Course c d) : d.session.strategy = c.session.strategy :=
  h.invariant (I := fun d => d.session.strategy = c.session.strategy)
    (fun _ _ hstir hd => hstir.strategy.trans hd) rfl

end Course

/-! ## Steps -/

namespace Resolve

/-- However the step ends, it takes its course from `c`. -/
def Proceeds (x : Resolve α) (c : Compilation) : Prop :=
  Outcome x c (fun _ d => Course c d) fun _ d => Course c d

theorem proceeds_bind {x : Resolve α} {f : α → Resolve β} (hx : Proceeds x c)
    (hf : ∀ a d, Course c d → Proceeds (f a) d) : Proceeds (x >>= f) c := by
  refine outcome_bind.2 (outcome_mono hx (fun a d hd => ?_) fun _ _ hd => hd)
  exact outcome_mono (hf a d hd) (fun _ _ h => hd.trans h) fun _ _ h => hd.trans h

theorem Proceeds.bind_pure {x : Resolve α} (h : Proceeds x c) (f : α → β) :
    Proceeds (x >>= fun a => pure (f a)) c :=
  proceeds_bind h fun _ _ _ => outcome_pure.2 .refl

theorem proceeds_guarded (neutral : α) {x : Resolve α} (h : Proceeds x c) :
    Proceeds (guarded neutral x) c :=
  outcome_guarded_of h .refl .refl

theorem LeavesOr.proceeds {permits : Compilation → Deed → Prop} {x : Resolve α}
    {P : α → Compilation → Prop} {E : Compilation → Prop} (h : LeavesOr permits x c P E) :
    Proceeds x c :=
  outcome_mono h (fun _ _ h => .of_trail h.1) fun _ _ h => .of_trail h.1

theorem Accounts.proceeds {x : Resolve α} (h : Accounts .hierarchy x c) : Proceeds x c :=
  outcome_mono h (fun _ _ h => .single (.spare h.1 h.2.strategy))
    fun _ _ h => .single (.spare h.1 h.2.strategy)

end Resolve

theorem Runs.proceeds {marks : ClassId → Prop} {lists : FuncId → ClassId → Bool → Prop}
    {x : Resolve α} (h : Runs marks lists x c) : Proceeds x c :=
  outcome_mono h (fun _ _ h => .of_phases h) fun _ _ h => .of_phases h.1

namespace Session

theorem prepareClass_proceeds (cls : ClassId) (scope : ScopeId) :
    Proceeds (prepareClass cls scope) c := by
  have hrest (kind : ClassKind) : Proceeds (do
      guarded () (mark cls kind)
      Session.resolveMetaclass cls scope) c :=
    proceeds_bind (proceeds_guarded () (mark_accounts cls kind c).proceeds) fun _ d _ =>
      proceeds_guarded () (resolveMetaclass_accounts cls scope d).proceeds
  refine outcome_bind.2 (outcome_program.2 ?_)
  split
  · exact hrest .concrete
  · exact hrest .interface

theorem bindClass_proceeds (cls : ClassId) (scope : ScopeId)
    (hf : c.session.strategy = .functional) : Proceeds (bindClass cls scope) c := by
  rw [bindClass_eq]
  refine proceeds_bind (prepareClass_proceeds cls scope) fun _ d hd => ?_
  have hmembers : LeavesOr (Listing fun _ _ _ => True)
      (bindMethods cls scope (d.program.classAt cls).members) d _ _ :=
    bindMethods_leaves cls scope _ (hd.strategy.trans hf) fun _ _ _ => trivial
  exact outcome_bind.2 (outcome_program.2 hmembers.proceeds)

end Session

theorem Operation.proceeds (op : Operation) (hf : c.session.strategy = .functional) :
    Proceeds op.run c := by
  cases op with
  | markClass cls =>
    exact (proceeds_guarded () (mark_accounts cls .concrete c).proceeds).bind_pure _
  | markInterface cls =>
    exact (proceeds_guarded () (mark_accounts cls .interface c).proceeds).bind_pure _
  | resolveMetaclass cls scope =>
    exact (proceeds_guarded () (resolveMetaclass_accounts cls scope c).proceeds).bind_pure _
  | runtimeMetaclass cls =>
    exact (proceeds_guarded none (runtimeMetaclass_accounts cls c).proceeds).bind_pure _
  | bindClass cls scope => exact (Session.bindClass_proceeds cls scope hf).bind_pure _
  | _ => exact (runs_of_sparesClasses rfl hf).proceeds

/-! ## Runs -/

/-- What is kept by every addition and by every stir holds at the end of a run, whatever
additions it admits. -/
theorem Run.courses {Admits : Program → Event → Prop} {past : List Compilation}
    {I : Compilation → Prop} (h0 : ∀ renders, I (.new .functional renders))
    (hG : ∀ c g, Admits c.program (.grow g) → I c → I { c with program := g.apply c.program })
    (hS : ∀ c d, Stir c d → I c → I d) (h : Run Admits past c) :
    c.session.strategy = .functional ∧ I c := by
  refine h.invariant (I := fun c => c.session.strategy = .functional ∧ I c)
    (fun renders => ⟨rfl, h0 renders⟩) ?_
  rintro c (g | op) he ⟨hf, hc⟩
  · exact ⟨hf, hG c g he hc⟩
  · have hcourse : Course c (finish op.run c) := outcome_finish.1 (op.proceeds hf)
    exact ⟨hcourse.strategy.trans hf, hcourse.invariant hS hc⟩

end ObjcBinding
