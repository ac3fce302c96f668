import ObjcBinding.Binding.Session

/-!
# Outcomes of binding steps

A step ends with a value or with an error, and in both cases with a compilation.
`Outcome x c P E` says what holds of them: `P` of a value and the compilation it comes with, `E`
of an error and the compilation it leaves behind. The equivalences below take a step apart into
its parts, the last one first, so that an outcome of a long step is an outcome of its first part.

* `outcome_bind`: a sequence of steps;
* `outcome_tryCatch`: a step with a handler;
* `outcome_guarded`: an operation of a functional session that goes on;
* `outcome_guarded_of`: an operation of any session;
* `outcome_mono`, `outcome_and`: a weaker statement about the same step, and two at once.
-/

namespace ObjcBinding.Resolve

variable {α β : Type} {c : Compilation} {P : α → Compilation → Prop}
  {E : BindError → Compilation → Prop}

/-- From `c` the step `x` ends well with `P`, or fails with `E`. -/
def Outcome (x : Resolve α) (c : Compilation) (P : α → Compilation → Prop)
    (E : BindError → Compilation → Prop) : Prop :=
  match x c with
  | .ok a d => P a d
  | .error e d => E e d

/-- The compilation that the step leaves behind, whether it ends well or not. -/
def finish (x : Resolve α) (c : Compilation) : Compilation :=
  match x c with
  | .ok _ d => d
  | .error _ d => d

theorem outcome_of_ok {x : Resolve α} {a : α} {d : Compilation} (h : x c = .ok a d) :
    Outcome x c P E ↔ P a d := by
  rw [Outcome, h]

theorem outcome_of_error {x : Resolve α} {e : BindError} {d : Compilation}
    (h : x c = .error e d) : Outcome x c P E ↔ E e d := by
  rw [Outcome, h]

instance Outcome.decidable (x : Resolve α) (c : Compilation) [∀ a d, Decidable (P a d)]
    [∀ e d, Decidable (E e d)] : Decidable (Outcome x c P E) :=
  match h : x c with
  | .ok a d => decidable_of_iff (P a d) (outcome_of_ok h).symm
  | .error e d => decidable_of_iff (E e d) (outcome_of_error h).symm

theorem outcome_finish {x : Resolve α} {P : Compilation → Prop} :
    Outcome x c (fun _ d => P d) (fun _ d => P d) ↔ P (finish x c) := by
  unfold Outcome finish
  cases x c <;> rfl

/-- The exact result of a step as an outcome. -/
theorem outcome_eq_iff {x : Resolve Unit} {d : Compilation} :
    Outcome x c (fun _ e => e = d) (fun _ _ => False) ↔ x c = .ok () d := by
  unfold Outcome
  cases x c with
  | ok u e => simp
  | error e k => simp

theorem outcome_mono {x : Resolve α} {P' : α → Compilation → Prop}
    {E' : BindError → Compilation → Prop} (h : Outcome x c P E) (hP : ∀ a d, P a d → P' a d)
    (hE : ∀ e d, E e d → E' e d) : Outcome x c P' E' := by
  unfold Outcome at h ⊢
  cases hx : x c with
  | ok a d =>
    rw [hx] at h
    exact hP a d h
  | error e d =>
    rw [hx] at h
    exact hE e d h

theorem outcome_and {x : Resolve α} {P' : α → Compilation → Prop}
    {E' : BindError → Compilation → Prop} (h : Outcome x c P E) (h' : Outcome x c P' E') :
    Outcome x c (fun a d => P a d ∧ P' a d) fun e d => E e d ∧ E' e d := by
  unfold Outcome at h h' ⊢
  cases hx : x c with
  | ok a d =>
    rw [hx] at h h'
    exact ⟨h, h'⟩
  | error e d =>
    rw [hx] at h h'
    exact ⟨h, h'⟩

/-! ## Parts of steps -/

theorem outcome_pure {a : α} : Outcome (pure a) c P E ↔ P a c := Iff.rfl

theorem outcome_bind {x : Resolve α} {f : α → Resolve β} {P : β → Compilation → Prop} :
    Outcome (x >>= f) c P E ↔ Outcome x c (fun a d => Outcome (f a) d P E) E := by
  unfold Outcome
  rw [bind_apply]
  cases x c <;> rfl

theorem outcome_map {x : Resolve α} {f : α → β} {P : β → Compilation → Prop} :
    Outcome (f <$> x) c P E ↔ Outcome x c (fun a d => P (f a) d) E := by
  rw [← bind_pure_comp, outcome_bind]
  rfl

theorem outcome_tryCatch {x : Resolve α} {handler : BindError → Resolve α} :
    Outcome (tryCatch x handler) c P E ↔ Outcome x c P fun e d => Outcome (handler e) d P E := by
  unfold Outcome
  rw [tryCatch_apply]
  cases x c <;> rfl

theorem outcome_get {P : Compilation → Compilation → Prop} :
    Outcome (get : Resolve Compilation) c P E ↔ P c c := Iff.rfl

theorem outcome_modify {f : Compilation → Compilation} {P : PUnit → Compilation → Prop} :
    Outcome (modify f) c P E ↔ P ⟨⟩ (f c) := Iff.rfl

theorem outcome_program {P : Program → Compilation → Prop} :
    Outcome program c P E ↔ P c.program c := Iff.rfl

theorem outcome_selectors {P : Selector.Table → Compilation → Prop} :
    Outcome selectors c P E ↔ P c.session.selectors c := Iff.rfl

theorem outcome_updateProgram {f : Program → Program} {P : Unit → Compilation → Prop} :
    Outcome (updateProgram f) c P E ↔ P () { c with program := f c.program } := Iff.rfl

theorem outcome_modifyGetProgram {f : Program → α × Program} :
    Outcome (modifyGetProgram f) c P E ↔
      P (f c.program).1 { c with program := (f c.program).2 } := Iff.rfl

theorem outcome_say {level : Log.Level} {origin : Log.Origin} {text : String}
    {P : Unit → Compilation → Prop} :
    Outcome (say level origin text) c P E ↔ P () (c.say level origin text) := Iff.rfl

/-! ## Failing steps -/

theorem outcome_reject {culprit : Culprit} {e : BindError} :
    Outcome (reject culprit e : Resolve α) c P E ↔
      E e (((c.charge culprit).say .debug .strategy s!"rejected: {e.message}").report e) := Iff.rfl

theorem outcome_refuse {e : BindError} :
    Outcome (refuse e : Resolve α) c P E ↔
      E e ((c.say .debug .strategy s!"refused: {e.message}").report e) := Iff.rfl

theorem outcome_abort {corruption : Corruption} {span : Span} :
    Outcome (abort corruption span : Resolve α) c P E ↔
      E (.corrupted corruption span)
        ((({ c with session := { c.session with aborted := true } }).say .error .strategy
          s!"{(BindError.corrupted corruption span).message} at {span.place}").report
          (.corrupted corruption span)) := Iff.rfl

theorem outcome_guarded (neutral : α) {x : Resolve α} (ha : c.session.aborted = false)
    (hf : c.session.strategy = .functional) :
    Outcome (guarded neutral x) c P E ↔ Outcome x c P E := by
  unfold Outcome
  rw [guarded_of_functional ha hf]

/-- A step that the session has done with success is one of a session that goes on. -/
theorem ok_of_guarded {neutral : α} {x : Resolve α} {a : α} {d : Compilation}
    (hf : c.session.strategy = .functional) (h : guarded neutral x c = .ok a d) :
    c.session.aborted = false ∧ x c = .ok a d := by
  cases ha : c.session.aborted with
  | true =>
    rw [guarded_of_aborted ha] at h
    cases h
  | false => exact ⟨rfl, (guarded_of_functional ha hf).symm.trans h⟩

/-- A session that goes on has done a step that failed with an error that is not fatal. -/
theorem error_of_guarded {neutral : α} {x : Resolve α} {e : BindError} {d : Compilation}
    (hf : c.session.strategy = .functional) (he : e.isFatal = false)
    (h : guarded neutral x c = .error e d) :
    c.session.aborted = false ∧ x c = .error e d := by
  cases ha : c.session.aborted with
  | true =>
    rw [guarded_of_aborted ha] at h
    cases h
    cases he
  | false => exact ⟨rfl, (guarded_of_functional ha hf).symm.trans h⟩

/-- What the step ensures, the step as the session offers it ensures as well, if it also holds
where the session refuses the step or passes it over. -/
theorem outcome_guarded_of {neutral : α} {x : Resolve α} (h : Outcome x c P E) (hn : P neutral c)
    (ha : E .sessionAborted c) : Outcome (guarded neutral x) c P E := by
  unfold Outcome at h ⊢
  cases haborted : c.session.aborted with
  | true =>
    rw [guarded_of_aborted haborted]
    exact ha
  | false =>
    cases hs : c.session.strategy with
    | functional =>
      rw [guarded_of_functional haborted hs]
      exact h
    | inert =>
      rw [guarded_of_inert haborted hs]
      exact hn

end ObjcBinding.Resolve
