import ObjcBinding.Proofs.Steps.Extension
import ObjcBinding.Proofs.Steps.Outcome

/-!
# The trails that steps leave

`Leaves permits x c P`: started in `c`, the step `x` does permitted deeds only; if it ends well,
then with `P`, and if it fails, then the error was reported, and it ends the session or comes
without one that was fatal. `LeavesOr` also tells the cause of the failure. Trails of longer steps
are put together from those of their parts.

* `leaves_bind`: a sequence of steps;
* `Change.reported`: the end of a session is reported.
-/

namespace ObjcBinding

/-! ## Clean compilations -/

/-- Nothing has been reported, and the session goes on. -/
structure Compilation.Clean (c : Compilation) : Prop where
  sink : c.session.sink.items = []
  running : c.session.aborted = false

theorem Compilation.Extends.running {c d : Compilation} (h : c.Extends d)
    (hd : d.session.aborted = false) : c.session.aborted = false := by
  rw [← Bool.not_eq_true]
  intro ha
  rw [h.aborted ha] at hd
  cases hd

theorem Compilation.Extends.clean {c d : Compilation} (h : c.Extends d) (hd : d.Clean) :
    c.Clean where
  sink := List.prefix_nil.1 (hd.sink ▸ h.sink)
  running := h.running hd.running

theorem Compilation.report_ne_nil (c : Compilation) (e : BindError) (log : Array Log.Message) :
    ({ c.report e with log } : Compilation).session.sink.items ≠ [] := by
  change (c.session.sink.report e.diagnostic).items ≠ []
  rw [Sink.items_report]
  simp

theorem Compilation.not_clean_report (c : Compilation) (e : BindError)
    (log : Array Log.Message) : ¬ ({ c.report e with log } : Compilation).Clean :=
  fun h => c.report_ne_nil e log h.sink

theorem Change.reported {deed : Deed} {c d : Compilation} (h : Change deed c d)
    (hc : c.session.aborted = true → c.session.sink.items ≠ [])
    (hd : d.session.aborted = true) : d.session.sink.items ≠ [] := by
  have hkeep (ha : c.session.aborted = true) : d.session.sink.items ≠ [] := by
    intro he
    exact hc ha (List.prefix_nil.1 (he ▸ h.extends.sink))
  cases h with
  | abort corruption span log =>
    exact Compilation.report_ne_nil _ (.corrupted corruption span) log
  | rejectClass => exact hkeep hd
  | rejectFunc => exact hkeep hd
  | _ => exact hkeep hd

/-- A step has failed with the error `e` and left `d` behind: the error was reported, and it is
fatal only if the session has ended. Otherwise `cause` holds. -/
structure Compilation.Failed (d : Compilation) (e : BindError) (cause : Prop) : Prop where
  reported : ¬ d.Clean
  fatal : e.isFatal = true → d.session.aborted = true
  cause : d.session.aborted = false → cause

namespace Compilation

theorem Failed.mono {d : Compilation} {e : BindError} {cause cause' : Prop}
    (h : d.Failed e cause) (hc : cause → cause') : d.Failed e cause' :=
  ⟨h.reported, h.fatal, fun ha => hc (h.cause ha)⟩

theorem failed_report (c : Compilation) {e : BindError} (he : e.isFatal = false)
    (log : Array Log.Message) {cause : Prop} (hc : cause) :
    ({ c.report e with log } : Compilation).Failed e cause := by
  refine ⟨c.not_clean_report e log, fun hf => ?_, fun _ => hc⟩
  rw [he] at hf
  cases hf

theorem failed_of_aborted {d : Compilation} (h : d.session.aborted = true) (e : BindError)
    (cause : Prop) : d.Failed e cause := by
  refine ⟨fun hd => ?_, fun _ => h, fun ha => ?_⟩
  · cases h.symm.trans hd.running
  · cases h.symm.trans ha

end Compilation

namespace Resolve

variable {α β : Type} {permits permits' : Compilation → Deed → Prop} {c : Compilation}
  {E E' : Compilation → Prop}

/-- From `c` the step `x` does permitted deeds only, and ends well with `P`, or fails with the
cause `E`. -/
def LeavesOr (permits : Compilation → Deed → Prop) (x : Resolve α) (c : Compilation)
    (P : α → Compilation → Prop) (E : Compilation → Prop) : Prop :=
  Outcome x c (fun a d => Trail permits c d ∧ P a d) fun e d =>
    Trail permits c d ∧ d.Failed e (E d)

/-- From `c` the step `x` does permitted deeds only, and ends well with `P`, or fails. -/
abbrev Leaves (permits : Compilation → Deed → Prop) (x : Resolve α) (c : Compilation)
    (P : α → Compilation → Prop) : Prop := LeavesOr permits x c P fun _ => True

namespace LeavesOr

variable {x : Resolve α} {P P' : α → Compilation → Prop}

theorem mono (h : LeavesOr permits x c P E)
    (hp : ∀ d deed, c.Extends d → permits d deed → permits' d deed)
    (hP : ∀ a d, Trail permits c d → P a d → P' a d)
    (hE : ∀ d, Trail permits c d → E d → E' d) : LeavesOr permits' x c P' E' :=
  outcome_mono h (fun a d hd => ⟨hd.1.mono hp, hP a d hd.1 hd.2⟩)
    fun _ d hd => ⟨hd.1.mono hp, hd.2.mono (hE d hd.1)⟩

theorem post (h : LeavesOr permits x c P E) (hP : ∀ a d, Trail permits c d → P a d → P' a d) :
    LeavesOr permits x c P' E :=
  h.mono (fun _ _ _ hp => hp) hP fun _ _ h => h

theorem permit (h : LeavesOr permits x c P E)
    (hp : ∀ d deed, c.Extends d → permits d deed → permits' d deed) : LeavesOr permits' x c P E :=
  h.mono hp (fun _ _ _ h => h) fun _ _ h => h

theorem cause (h : LeavesOr permits x c P E) (hE : ∀ d, Trail permits c d → E d → E' d) :
    LeavesOr permits x c P E' :=
  h.mono (fun _ _ _ hp => hp) (fun _ _ _ h => h) hE

end LeavesOr

/-! ## Parts of steps -/

theorem leaves_pure {a : α} {P : α → Compilation → Prop} (h : P a c) :
    LeavesOr permits (pure a) c P E :=
  ⟨.refl _ c, h⟩

theorem leaves_bind {x : Resolve α} {f : α → Resolve β} {Q : α → Compilation → Prop}
    {P : β → Compilation → Prop} (hx : LeavesOr permits x c Q E)
    (hf : ∀ a d, Trail permits c d → Q a d → LeavesOr permits (f a) d P E) :
    LeavesOr permits (x >>= f) c P E := by
  refine outcome_bind.2 (outcome_mono hx (fun a d hd => ?_) fun _ _ hd => hd)
  exact outcome_mono (hf a d hd.1 hd.2) (fun _ _ h => ⟨hd.1.trans h.1, h.2⟩)
    fun _ _ h => ⟨hd.1.trans h.1, h.2⟩

theorem leaves_then {x : Resolve α} {f : α → Resolve β} {P : β → Compilation → Prop}
    (hx : LeavesOr permits x c (fun _ _ => True) E)
    (hf : ∀ a d, Trail permits c d → LeavesOr permits (f a) d P E) :
    LeavesOr permits (x >>= f) c P E :=
  leaves_bind hx fun a d hd _ => hf a d hd

theorem leaves_map {x : Resolve α} {f : α → β} (hx : LeavesOr permits x c (fun _ _ => True) E) :
    LeavesOr permits (f <$> x) c (fun _ _ => True) E :=
  outcome_map.2 hx

theorem leaves_program {f : Program → Resolve β} {P : β → Compilation → Prop}
    (h : LeavesOr permits (f c.program) c P E) : LeavesOr permits (program >>= f) c P E := h

theorem leaves_selectors {f : Selector.Table → Resolve β} {P : β → Compilation → Prop}
    (h : LeavesOr permits (f c.session.selectors) c P E) :
    LeavesOr permits (selectors >>= f) c P E := h

theorem leaves_change {x : Resolve α} {a : α} {d : Compilation} {deed : Deed}
    {P : α → Compilation → Prop} (hx : x c = .ok a d) (h : Change deed c d)
    (hp : permits c deed) (hP : P a d) : LeavesOr permits x c P E :=
  (outcome_of_ok hx).2 ⟨.single h hp, hP⟩

theorem leaves_change_bind {x : Resolve α} {f : α → Resolve β} {a : α} {d : Compilation}
    {deed : Deed} {P : β → Compilation → Prop} (hx : x c = .ok a d) (h : Change deed c d)
    (hp : permits c deed) (hf : LeavesOr permits (f a) d P E) :
    LeavesOr permits (x >>= f) c P E := by
  refine outcome_bind.2 ((outcome_of_ok hx).2 ?_)
  exact outcome_mono hf (fun _ _ hd => ⟨(Trail.single h hp).trans hd.1, hd.2⟩)
    fun _ _ hd => ⟨(Trail.single h hp).trans hd.1, hd.2⟩

theorem leaves_addScope {parent : Option ScopeId} {f : ScopeId → Resolve β}
    {P : β → Compilation → Prop} (hp : permits c .scope)
    (h : LeavesOr permits (f (c.program.addScope parent).1)
      { c with program := (c.program.addScope parent).2 } P E) :
    LeavesOr permits (modifyGetProgram (·.addScope parent) >>= f) c P E :=
  leaves_change_bind rfl (.addScope parent) hp h

theorem leaves_say {level : Log.Level} {origin : Log.Origin} {text : String}
    {P : Unit → Compilation → Prop} (hp : permits c .say)
    (hP : P () (c.say level origin text)) : LeavesOr permits (say level origin text) c P E :=
  leaves_change rfl (.say _) hp hP

/-! ## Failing steps -/

theorem leaves_reject_class {cls : ClassId} {e : BindError} {P : α → Compilation → Prop}
    (hp : permits c (.rejectClass cls)) (he : e.blame = .type)
    (hE : ∀ d, Change (.rejectClass cls) c d → E d) :
    LeavesOr permits (reject (.classDecl cls) e : Resolve α) c P E :=
  have h := Change.rejectClass cls e _ he
  outcome_reject.2 ⟨.single h hp,
    Compilation.failed_report _ (e.isFatal_of_blame he nofun) _ (hE _ h)⟩

theorem leaves_reject_func {func : FuncId} {e : BindError} {P : α → Compilation → Prop}
    (hp : permits c (.rejectFunc func)) (he : c.program.Blames func e)
    (hv : (c.program.funcAt func).invalid = false)
    (hE : ∀ d, Change (.rejectFunc func) c d → E d) :
    LeavesOr permits (reject (.funcDecl func) e : Resolve α) c P E :=
  have h := Change.rejectFunc func e _ he hv
  outcome_reject.2 ⟨.single h hp,
    Compilation.failed_report _ (e.isFatal_of_blame he.blame nofun) _ (hE _ h)⟩

theorem leaves_refuse {e : BindError} {P : α → Compilation → Prop} (hp : permits c .refuse)
    (he : e.blame = .request) (hE : ∀ d, Change .refuse c d → E d) :
    LeavesOr permits (refuse e : Resolve α) c P E :=
  have h := Change.refuse e _ he
  outcome_refuse.2 ⟨.single h hp,
    Compilation.failed_report _ (e.isFatal_of_blame he nofun) _ (hE _ h)⟩

theorem leaves_abort {corruption : Corruption} {span : Span} {P : α → Compilation → Prop}
    (hp : permits c .abort) : LeavesOr permits (abort corruption span : Resolve α) c P E :=
  outcome_abort.2 ⟨.single (.abort corruption span _) hp, Compilation.failed_of_aborted rfl _ _⟩

end Resolve

end ObjcBinding
