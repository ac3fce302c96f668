import ObjcBinding.Proofs.Steps.Declarations

/-!
# Runs

A compilation starts empty. From then on declarations are added to it and operations are run, in
any order; nothing that was declared is edited. A run knows all compilations it has gone through.

* `Growth.funcAt_cases`: an addition leaves a function as it was, or has just added it;
* `Run.extends_past`: what was there at some time is there at the end;
* `Run.invariant`: what every event keeps holds at the end of every run.
-/

namespace ObjcBinding

/-! ## Growth -/

/-- What can be added to the declarations of a compilation. -/
inductive Growth where
  | intern (text : String)
  | addScope (parent : Option ScopeId)
  | declare (scope : ScopeId) (name : Symbol) (entry : ScopeEntry)
  | addClass (d : ClassDecl)
  | addFunction (d : FuncDecl)
  | addMethod (cls : ClassId) (d : FuncDecl)
  | addGroup (d : GroupDecl)
  | addGroupMember (group : GroupId) (d : FuncDecl)

namespace Growth

/-- The declarations with the addition. A name that has a meaning in its scope keeps it. -/
def apply (p : Program) : Growth → Program
  | intern text => (p.intern text).2
  | addScope parent => (p.addScope parent).2
  | declare scope name entry =>
    match p.declare scope name entry with
    | .ok q => q
    | .error _ => p
  | addClass d => (p.addClass d).2
  | addFunction d => (p.addFunction d).2
  | addMethod cls d => (p.addMethod cls d).2
  | addGroup d => (p.addGroup d).2
  | addGroupMember group d => (p.addGroupMember group d).2

/-- A declaration that is added is not bound yet. -/
def Unbound : Growth → Prop
  | addClass d => d.info = none
  | addFunction d | addMethod _ d | addGroupMember _ d => d.info = none
  | _ => True

instance : DecidablePred Unbound
  | addClass d => inferInstanceAs (Decidable (d.info = none))
  | addFunction d | addMethod _ d | addGroupMember _ d =>
    inferInstanceAs (Decidable (d.info = none))
  | intern _ | addScope _ | declare .. | addGroup _ => .isTrue trivial

open Program

theorem apply_declare_cases (p : Program) (scope : ScopeId) (name : Symbol) (entry : ScopeEntry) :
    p.declare scope name entry = .ok ((declare scope name entry).apply p) ∨
      (declare scope name entry).apply p = p := by
  unfold apply
  dsimp only
  split
  · rename_i q hq
    exact .inl hq
  · exact .inr rfl

theorem apply_declare (p : Program) (scope : ScopeId) (name : Symbol) (entry : ScopeEntry) :
    ∃ scopes, (declare scope name entry).apply p = { p with scopes } := by
  rcases apply_declare_cases p scope name entry with h | h
  · exact scopes_of_declare h
  · exact ⟨p.scopes, h⟩

theorem extends_addMethod (p : Program) (cls : ClassId) (d : FuncDecl) :
    p.Extends (p.addMethod cls d).2 :=
  (extends_addFunction p { d with parent := some cls }).trans
    (extends_modifyClass rfl (List.prefix_append _ _) (fun i hi ho => ⟨i, hi, .refl ho⟩)
      fun i hi hr => ⟨i, hi, hr⟩)

theorem apply_extends (g : Growth) (p : Program) : p.Extends (g.apply p) := by
  cases g with
  | intern text => exact extends_intern p text
  | addScope parent => exact .of_eq rfl rfl rfl
  | declare scope name entry =>
    obtain ⟨scopes, hp⟩ := apply_declare p scope name entry
    rw [hp]
    exact .of_eq rfl rfl rfl
  | addClass d => exact extends_addClass p d
  | addFunction d => exact extends_addFunction p d
  | addMethod cls d => exact extends_addMethod p cls d
  | addGroup d => exact .of_eq rfl rfl rfl
  | addGroupMember group d =>
    exact (extends_addFunction p _).trans (.of_eq rfl rfl rfl)

theorem read_addMethod {α : Type} (g : ClassDecl → α)
    (hg : ∀ (d : ClassDecl) (l : List FuncId), g { d with members := l } = g d) (p : Program)
    (cls : ClassId) (d : FuncDecl) (x : ClassId) :
    g ((p.addMethod cls d).2.classAt x) = g (p.classAt x) :=
  read_modifyClass g (fun d => hg d _) cls x

theorem classInfo_apply {g : Growth} (hg : g.Unbound) (p : Program) (x : ClassId) :
    ((g.apply p).classAt x).info = (p.classAt x).info := by
  cases g with
  | declare scope name entry =>
    obtain ⟨scopes, hp⟩ := apply_declare p scope name entry
    rw [hp]
    rfl
  | addClass d =>
    change ((p.addClass d).2.classAt x).info = _
    rw [classAt_addClass_eq]
    split
    · rename_i hx
      rw [hx, classAt, Arena.get_of_not_contains (not_contains_fresh p)]
      exact hg
    · rfl
  | addMethod cls d => exact read_addMethod ClassDecl.info (fun _ _ => rfl) p cls d x
  | _ => rfl

/-- The function that is added, if one is. -/
def func? (p : Program) : Growth → Option FuncDecl
  | addFunction d => some d
  | addMethod cls d => some { d with parent := some cls }
  | addGroupMember group d => some { d with parent := some (p.groupAt group).target }
  | _ => none

/-- A function is as it was, or has just been added. -/
theorem funcAt_cases (g : Growth) (p : Program) (x : FuncId) :
    (g.apply p).funcAt x = p.funcAt x ∨
      ∃ d, g.func? p = some d ∧ p.funcAt x = default ∧ (g.apply p).funcAt x = d := by
  have hadd (d : FuncDecl) (hd : g.func? p = some d) :
      (p.addFunction d).2.funcAt x = p.funcAt x ∨
        ∃ e, g.func? p = some e ∧ p.funcAt x = default ∧ (p.addFunction d).2.funcAt x = e := by
    rw [funcAt_addFunction_eq]
    split
    · rename_i hx
      rw [hx]
      exact .inr ⟨d, hd, Arena.get_of_not_contains (Arena.not_contains_fresh _), rfl⟩
    · exact .inl rfl
  cases g with
  | declare scope name entry =>
    obtain ⟨scopes, hp⟩ := apply_declare p scope name entry
    rw [hp]
    exact .inl rfl
  | addFunction d => exact hadd d rfl
  | addMethod cls d => exact hadd { d with parent := some cls } rfl
  | addGroupMember group d => exact hadd { d with parent := some (p.groupAt group).target } rfl
  | _ => exact .inl rfl

theorem Unbound.added {g : Growth} (hg : g.Unbound) {p : Program} {d : FuncDecl}
    (hd : g.func? p = some d) : d.info = none := by
  cases g with
  | addFunction | addMethod | addGroupMember =>
    cases hd
    exact hg
  | _ => cases hd

theorem funcInfo_apply {g : Growth} (hg : g.Unbound) (p : Program) (x : FuncId) :
    ((g.apply p).funcAt x).info = (p.funcAt x).info := by
  rcases g.funcAt_cases p x with he | ⟨d, hd, hnew, he⟩
  · rw [he]
  · rw [he, hnew, hg.added hd]
    rfl

theorem pairing_apply {g : Growth} (hg : g.Unbound) (p : Program) (x : ClassId) :
    (g.apply p).pairing x = p.pairing x := by
  rw [pairing, classInfo_apply hg, pairing]

theorem entries_apply {g : Growth} (hg : g.Unbound) (p : Program) (x : ClassId) :
    (g.apply p).entries x = p.entries x := by
  rw [entries, classInfo_apply hg, entries]

theorem layered {g : Growth} (hg : g.Unbound) {p : Program} (hp : p.Layered) :
    (g.apply p).Layered := by
  have hext := g.apply_extends p
  refine ⟨fun x i hi ho => ?_, hp.inOrder.of_extends hext fun x hx => ?_, fun m hm => ?_⟩
  · have hi' : (p.classAt x).info = some i := (classInfo_apply hg p x).symm.trans hi
    rw [hp.superclasses x i hi' ho]
    exact (hext.base (contains_of_info hi')).symm
  · exact hasRole_of_pairing_eq (pairing_apply hg p x) hx
  · exact hp.partnered m ((pairing_apply hg p m).symm.trans hm)

end Growth

/-! ## Events -/

/-- What can happen to a compilation. -/
inductive Event where
  | grow (g : Growth)
  | run (op : Operation)

namespace Event

/-- The compilation after the event, whether or not an operation ended well. -/
def apply (c : Compilation) : Event → Compilation
  | grow g => { c with program := g.apply c.program }
  | run op => Resolve.finish op.run c

/-- Nothing that is added is bound yet. -/
def Unbound : Event → Prop
  | grow g => g.Unbound
  | run _ => True

instance : DecidablePred Unbound
  | grow g => inferInstanceAs (Decidable g.Unbound)
  | run _ => .isTrue trivial

/-- The compilations that the events lead through, the latest first, and the last one. -/
def play (past : List Compilation) (c : Compilation) :
    List Event → List Compilation × Compilation
  | [] => (past, c)
  | e :: rest => play (c :: past) (e.apply c) rest

/-- All events are admitted at their time. -/
def Admitted (Admits : Program → Event → Prop) (c : Compilation) : List Event → Prop
  | [] => True
  | e :: rest => Admits c.program e ∧ Admitted Admits (e.apply c) rest

instance Admitted.decidable (Admits : Program → Event → Prop)
    [∀ p e, Decidable (Admits p e)] (c : Compilation) :
    ∀ events, Decidable (Admitted Admits c events)
  | [] => .isTrue trivial
  | e :: rest =>
    have := decidable Admits (e.apply c) rest
    inferInstanceAs (Decidable (Admits c.program e ∧ Admitted Admits (e.apply c) rest))

end Event

/-- `Run Admits past c`: started from an empty compilation, events that are admitted at their time
have led through the compilations `past`, the latest first, to `c`. -/
inductive Run (Admits : Program → Event → Prop) : List Compilation → Compilation → Prop where
  | start (renders : Bool) : Run Admits [] (.new .functional renders)
  | step {past : List Compilation} {c : Compilation} {e : Event} :
      Run Admits past c → Admits c.program e → Run Admits (c :: past) (e.apply c)

namespace Run

open Program

variable {Admits : Program → Event → Prop} {past : List Compilation} {c : Compilation}

theorem classAt_new (renders : Bool) (x : ClassId) :
    (Compilation.new .functional renders).program.classAt x = default :=
  Arena.get_of_not_contains rfl

theorem info_new (renders : Bool) (x : ClassId) :
    ((Compilation.new .functional renders).program.classAt x).info = none := by
  rw [classAt_new]
  rfl

theorem funcAt_new (renders : Bool) (x : FuncId) :
    (Compilation.new .functional renders).program.funcAt x = default :=
  Arena.get_of_not_contains rfl

theorem invariant {I : Compilation → Prop} (h0 : ∀ renders, I (.new .functional renders))
    (hI : ∀ c e, Admits c.program e → I c → I (e.apply c)) (h : Run Admits past c) : I c := by
  induction h with
  | start renders => exact h0 renders
  | step _ he ih => exact hI _ _ he ih

theorem mono {Admits' : Program → Event → Prop} (h : Run Admits past c)
    (hA : ∀ p e, Admits p e → Admits' p e) : Run Admits' past c := by
  induction h with
  | start renders => exact .start renders
  | step _ he ih => exact ih.step (hA _ _ he)

theorem play (h : Run Admits past c) {events : List Event}
    (hA : Event.Admitted Admits c events) :
    Run Admits (Event.play past c events).1 (Event.play past c events).2 := by
  induction events generalizing past c with
  | nil => exact h
  | cons e rest ih => exact ih (h.step hA.1) hA.2

theorem functional (h : Run Admits past c) (hU : ∀ p e, Admits p e → e.Unbound) :
    c.session.strategy = .functional ∧ c.program.Layered := by
  refine h.invariant (I := fun c => c.session.strategy = .functional ∧ c.program.Layered) ?_ ?_
  · intro renders
    exact ⟨rfl, .of_unbound (info_new renders)⟩
  · rintro c (g | op) he ⟨hf, hl⟩
    · exact ⟨hf, Growth.layered (hU _ _ he) hl⟩
    · have hphases := op.phases hf hl
      exact ⟨hphases.extends.strategy.trans hf,
        hphases.invariant (fun _ _ _ hstep => hstep.layered) hl⟩

theorem extends_past (hU : ∀ p e, Admits p e → e.Unbound) (h : Run Admits past c)
    {k : Compilation} (hk : k ∈ c :: past) : k.Extends c := by
  induction h with
  | start renders =>
    rw [List.mem_singleton] at hk
    rw [hk]
    exact .refl _
  | @step past c e h he ih =>
    have hstep : c.Extends (e.apply c) := by
      cases e with
      | grow g => exact Compilation.extends_of_program (g.apply_extends c.program)
      | run op =>
        obtain ⟨hf, hl⟩ := h.functional hU
        exact (op.phases hf hl).extends
    rcases List.mem_cons.1 hk with rfl | hk
    · exact .refl _
    · exact (ih hk).trans hstep

/-- What is kept by every addition and by every single change holds at the end. -/
theorem changes {I : Compilation → Prop} (hU : ∀ p e, Admits p e → e.Unbound)
    (h0 : ∀ renders, I (.new .functional renders))
    (hG : ∀ c g, Admits c.program (.grow g) → I c → I { c with program := g.apply c.program })
    (hC : ∀ c d deed, Change deed c d → I c → I d) (h : Run Admits past c) : I c := by
  induction h with
  | start renders => exact h0 renders
  | @step past c e h he ih =>
    cases e with
    | grow g => exact hG c g he ih
    | run op =>
      obtain ⟨hf, hl⟩ := h.functional hU
      exact (op.phases hf hl).invariant hC ih

end Run

end ObjcBinding
