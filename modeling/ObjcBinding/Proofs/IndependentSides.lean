import ObjcBinding.Proofs.DispatchTables
import ObjcBinding.Proofs.Reporting
import ObjcBinding.Proofs.Steps.Recording

/-!
# The two sides of a method list

The methods of the instances and those of the class itself are kept in one list, but they do not
take notice of each other: what becomes of a method that is recorded on one side does not depend
on what was recorded on the other side just before.

* `record_within`: recording a method changes its function and one side of a list, nothing else;
* `record_matches`: what comes of it depends on that function and on that side only;
* `recordMethod_commute`: methods of different sides can be recorded in any order.
-/

namespace ObjcBinding

open Program Resolve

variable {c d e c' d' : Compilation} {func : FuncId} {cls : ClassId} {side : Bool}

/-- The declaration without its method list. -/
def ClassDecl.bare (d : ClassDecl) : ClassDecl :=
  { d with info := d.info.map fun i => { i with methods := {} } }

/-- The same declarations and the same lists on each side, and the same reports in some order. -/
structure Compilation.AgreesBySides (c d : Compilation) : Prop where
  names : d.program.names = c.program.names
  funcs : d.program.funcs = c.program.funcs
  groups : d.program.groups = c.program.groups
  scopes : d.program.scopes = c.program.scopes
  classCount : d.program.classes.size = c.program.classes.size
  classes (x : ClassId) : (d.program.classAt x).bare = (c.program.classAt x).bare
  sides (x : ClassId) (side : Bool) : d.program.side x side = c.program.side x side
  strategy : d.session.strategy = c.session.strategy
  aborted : d.session.aborted = c.session.aborted
  selectors : d.session.selectors = c.session.selectors
  renders : d.session.sink.renders = c.session.sink.renders
  reports : d.session.sink.items.Perm c.session.sink.items

/-- From `c` to `d` only the function was changed, and that side of the lists. -/
structure Compilation.Within (func : FuncId) (side : Bool) (c d : Compilation) : Prop where
  names : d.program.names = c.program.names
  funcs (f : FuncId) : f ≠ func → d.program.funcs.get? f = c.program.funcs.get? f
  span (f : FuncId) : (d.program.funcAt f).span = (c.program.funcAt f).span
  groups : d.program.groups = c.program.groups
  scopes : d.program.scopes = c.program.scopes
  classCount : d.program.classes.size = c.program.classes.size
  classes (x : ClassId) : (d.program.classAt x).bare = (c.program.classAt x).bare
  otherSide (x : ClassId) : d.program.side x (!side) = c.program.side x (!side)
  strategy : d.session.strategy = c.session.strategy
  aborted : d.session.aborted = c.session.aborted
  selectors : d.session.selectors = c.session.selectors
  renders : d.session.sink.renders = c.session.sink.renders

/-- The two show the same to who records the function on that side. -/
structure Compilation.AlikeFor (func : FuncId) (side : Bool) (c d : Compilation) : Prop where
  names : d.program.names = c.program.names
  func : d.program.funcs.get? func = c.program.funcs.get? func
  span (f : FuncId) : (d.program.funcAt f).span = (c.program.funcAt f).span
  classCount : d.program.classes.size = c.program.classes.size
  classes (x : ClassId) : (d.program.classAt x).bare = (c.program.classAt x).bare
  side (x : ClassId) : d.program.side x side = c.program.side x side
  strategy : d.session.strategy = c.session.strategy
  aborted : d.session.aborted = c.session.aborted
  selectors : d.session.selectors = c.session.selectors

/-! ## One side of a list -/

/-- Puts an entry at the end of the list of a class. -/
def ClassDecl.push (d : ClassDecl) (e : MethodEntry) : ClassDecl :=
  { d with info := d.info.map (·.pushMethod e) }

theorem ClassDecl.bare_push (d : ClassDecl) (e : MethodEntry) : (d.push e).bare = d.bare := by
  unfold push bare
  cases d.info <;> rfl

namespace Program

theorem declares_eq (p : Program) (s : Selector) (side : Bool) (skip : FuncId) (cls : ClassId) :
    p.declares s side skip cls =
      ((p.side cls side).find? fun e => e.selector == s).any fun e => e.func ≠ skip := by
  rw [← findMethod_eq, declares]
  cases (p.classAt cls).info <;> rfl

theorem entries_push (p : Program) (owner : ClassId) (entry : MethodEntry) (x : ClassId) :
    (p.modifyClass owner (·.push entry)).entries x =
      p.entries x ++ if x = owner ∧ (p.classAt x).isBound = true then [entry] else [] := by
  have hpush : ((p.modifyClass owner (·.push entry)).classAt x).info =
      if x = owner then (p.classAt x).info.map (·.pushMethod entry) else (p.classAt x).info := by
    rw [classAt_modifyClass]
    by_cases hx : x = owner
    · subst hx
      rw [if_pos rfl]
      split
      · rfl
      · rename_i hc
        have hd : p.classAt x = default := by
          by_contra hne
          exact hc ⟨rfl, contains_of_ne hne⟩
        rw [hd]
        rfl
    · rw [if_neg fun h => hx h.1, if_neg hx]
  rw [entries, entries, hpush]
  by_cases hx : x = owner
  · subst hx
    cases hi : (p.classAt x).info with
    | none => simp [ClassDecl.isBound, hi]
    | some i => simp [ClassDecl.isBound, hi, ClassInfo.pushMethod, AppendOnlyList.push]
  · simp [hx]

theorem side_push (p : Program) (owner : ClassId) (entry : MethodEntry) (x : ClassId)
    (side : Bool) :
    (p.modifyClass owner (·.push entry)).side x side =
      p.side x side ++ if x = owner ∧ (p.classAt x).isBound = true ∧ entry.isClassMethod = side
        then [entry] else [] := by
  rw [Program.side, entries_push, List.filter_append, Program.side]
  by_cases hx : x = owner ∧ (p.classAt x).isBound = true
  · rw [if_pos hx]
    by_cases hs : entry.isClassMethod = side
    · rw [if_pos ⟨hx.1, hx.2, hs⟩]
      simp [hs]
    · rw [if_neg fun h => hs h.2.2]
      simp [hs]
  · rw [if_neg hx, if_neg fun h => hx ⟨h.1, h.2.1⟩]
    rfl

end Program

/-! ## What a recording leaves alone -/

namespace Compilation.Within

theorem refl (func : FuncId) (side : Bool) (c : Compilation) : c.Within func side c where
  names := rfl
  funcs _ _ := rfl
  span _ := rfl
  groups := rfl
  scopes := rfl
  classCount := rfl
  classes _ := rfl
  otherSide _ := rfl
  strategy := rfl
  aborted := rfl
  selectors := rfl
  renders := rfl

theorem trans (h : c.Within func side d) (h' : d.Within func side e) : c.Within func side e where
  names := h'.names.trans h.names
  funcs f hf := (h'.funcs f hf).trans (h.funcs f hf)
  span f := (h'.span f).trans (h.span f)
  groups := h'.groups.trans h.groups
  scopes := h'.scopes.trans h.scopes
  classCount := h'.classCount.trans h.classCount
  classes x := (h'.classes x).trans (h.classes x)
  otherSide x := (h'.otherSide x).trans (h.otherSide x)
  strategy := h'.strategy.trans h.strategy
  aborted := h'.aborted.trans h.aborted
  selectors := h'.selectors.trans h.selectors
  renders := h'.renders.trans h.renders

theorem modifyFunc (c : Compilation) {g : FuncDecl → FuncDecl} (hg : ∀ d, (g d).span = d.span) :
    c.Within func side { c with program := c.program.modifyFunc func g } :=
  { refl func side c with
    funcs := fun f hf => by
      change (c.program.funcs.modify func g).get? f = _
      rw [Arena.get?_modify, if_neg (Ne.symm hf)]
    span := fun f => read_modifyFunc FuncDecl.span hg func f }

theorem push (c : Compilation) (owner : ClassId) {entry : MethodEntry}
    (he : entry.isClassMethod = side) :
    c.Within func side { c with program := c.program.modifyClass owner (·.push entry) } :=
  { refl func side c with
    classCount := Arena.size_modify ..
    classes := fun x => read_modifyClass ClassDecl.bare (fun d => d.bare_push entry) owner x
    otherSide := fun x => by
      change (c.program.modifyClass owner _).side x (!side) = _
      rw [side_push, he, if_neg fun h => (Bool.eq_not_self side).1 h.2.2, List.append_nil] }

theorem say (c : Compilation) (log : Array Log.Message) : c.Within func side { c with log } :=
  { refl func side c with }

theorem report (c : Compilation) (e : BindError) : c.Within func side (c.report e) :=
  { refl func side c with }

theorem reject (c : Compilation) (e : BindError) (log : Array Log.Message) :
    c.Within func side { (c.charge (.funcDecl func)).report e with log } := by
  have hcharge : c.Within func side (c.charge (.funcDecl func)) := modifyFunc c fun _ => rfl
  exact hcharge.trans ((report _ e).trans (say _ log))

/-- Whoever records another function on the other side sees the same. -/
theorem alikeFor (h : c.Within func side d) {other : FuncId} (ho : other ≠ func) :
    c.AlikeFor other (!side) d where
  names := h.names
  func := h.funcs other ho
  span := h.span
  classCount := h.classCount
  classes := h.classes
  side := h.otherSide
  strategy := h.strategy
  aborted := h.aborted
  selectors := h.selectors

end Compilation.Within

namespace Resolve

variable {α : Type}

/-- The step changes only the function and that side of the lists. -/
def StaysWithin (func : FuncId) (side : Bool) (x : Resolve α) (c : Compilation) : Prop :=
  Outcome x c (fun _ d => c.Within func side d) fun _ d => c.Within func side d

variable {β : Type}

theorem within_pure (a : α) : StaysWithin func side (pure a) c := .refl func side c

theorem within_bind {x : Resolve α} {f : α → Resolve β} (hx : StaysWithin func side x c)
    (hf : ∀ a d, StaysWithin func side (f a) d) : StaysWithin func side (x >>= f) c :=
  outcome_bind.2 (outcome_mono hx (fun a d hd =>
    outcome_mono (hf a d) (fun _ _ h => hd.trans h) fun _ _ h => hd.trans h) fun _ _ hd => hd)

theorem within_program {f : Program → Resolve β} (h : StaysWithin func side (f c.program) c) :
    StaysWithin func side (program >>= f) c := h

theorem within_selectors {f : Selector.Table → Resolve β}
    (h : StaysWithin func side (f c.session.selectors) c) :
    StaysWithin func side (selectors >>= f) c := h

theorem within_reject (e : BindError) :
    StaysWithin func side (reject (.funcDecl func) e : Resolve α) c :=
  outcome_reject.2 (.reject c e _)

theorem within_modifyFunc {g : FuncDecl → FuncDecl} (hg : ∀ d, (g d).span = d.span) :
    StaysWithin func side (updateProgram fun p => p.modifyFunc func g) c :=
  outcome_updateProgram.2 (.modifyFunc c hg)

theorem validateSelector_within (func : FuncId) (side : Bool) (c : Compilation) :
    StaysWithin func side (validateSelector func) c := by
  refine within_program (within_selectors ?_)
  dsimp only
  split
  · exact within_pure _
  · split
    · exact within_pure _
    · split
      · exact within_reject _
      · split
        · exact within_reject _
        · split
          · exact within_reject _
          · exact within_pure _

theorem checkLinkage_within (func : FuncId) (side : Bool) (c : Compilation) :
    StaysWithin func side (checkLinkage func) c := by
  refine within_program ?_
  dsimp only
  split
  · exact within_pure _
  · split
    · exact within_reject _
    · exact within_modifyFunc fun _ => rfl

theorem pushMethod_within (func : FuncId) (owner : ClassId) (s : Selector) (side : Bool)
    (c : Compilation) : StaysWithin func side (pushMethod func owner s side) c := by
  refine within_program (within_bind (within_modifyFunc fun _ => rfl) fun _ d => ?_)
  refine within_bind ?_ fun _ d => within_selectors (outcome_say.2 (.say d _))
  exact outcome_updateProgram.2 (.push d owner rfl)

theorem recordMember_within (func : FuncId) (owner : ClassId) (s : Selector) (side : Bool)
    (c : Compilation) : StaysWithin func side (recordMember func owner s side) c := by
  refine within_bind (validateSelector_within func side c) fun _ d => ?_
  refine within_bind (checkLinkage_within func side d) fun _ d => within_program ?_
  split
  · split
    · exact within_pure _
    · exact within_selectors (within_reject _)
  · exact within_bind (pushMethod_within func owner s side d) fun _ d => within_pure _

theorem record_within (func : FuncId) (cls : ClassId) (side : Bool) (c : Compilation) :
    StaysWithin func side (record func cls side) c := by
  refine within_program ?_
  dsimp only
  split
  · split
    · exact within_pure _
    · split
      · exact outcome_refuse.2 ((Compilation.Within.say c _).trans (.report _ _))
      · exact recordMember_within ..
  · exact within_pure _

/-! ## What a recording depends on -/

/-- The two steps come to the same result, and what they leave behind is in the relation. -/
def Matches (R : Compilation → Compilation → Prop) (x y : Resolve α) (c d : Compilation) : Prop :=
  Outcome x c (fun a c' => Outcome y d (fun b d' => b = a ∧ R c' d') fun _ _ => False)
    fun e c' => Outcome y d (fun _ _ => False) fun e' d' => e' = e ∧ R c' d'

variable {R : Compilation → Compilation → Prop}

theorem matches_pure (a : α) (h : R c d) : Matches R (pure a) (pure a) c d := ⟨rfl, h⟩

theorem matches_bind {x y : Resolve α} {f g : α → Resolve β} (hx : Matches R x y c d)
    (hf : ∀ a c' d', R c' d' → Matches R (f a) (g a) c' d') :
    Matches R (x >>= f) (y >>= g) c d := by
  refine outcome_bind.2 (outcome_mono hx ?_ ?_)
  · intro a c' ha
    cases hy : y d with
    | ok b d' =>
      obtain ⟨rfl, hR⟩ := (outcome_of_ok hy).1 ha
      refine outcome_mono (hf b c' d' hR) ?_ ?_
      · exact fun _ _ h => outcome_bind.2 ((outcome_of_ok hy).2 h)
      · exact fun _ _ h => outcome_bind.2 ((outcome_of_ok hy).2 h)
    | error e d' => exact ((outcome_of_error hy).1 ha).elim
  · intro e c' he
    exact outcome_bind.2 (outcome_mono he (fun _ _ h => h.elim) fun _ _ h => h)

theorem matches_program {f g : Program → Resolve β}
    (h : Matches R (f c.program) (g d.program) c d) :
    Matches R (program >>= f) (program >>= g) c d := h

theorem matches_selectors {f g : Selector.Table → Resolve β}
    (h : Matches R (f c.session.selectors) (g d.session.selectors) c d) :
    Matches R (selectors >>= f) (selectors >>= g) c d := h

end Resolve

namespace Compilation.AlikeFor

variable (h : c.AlikeFor func side d)

include h

theorem funcAt : d.program.funcAt func = c.program.funcAt func := by
  rw [Program.funcAt, Arena.get, h.func, Program.funcAt, Arena.get]

theorem name (s : Symbol) : d.program.name s = c.program.name s := by
  rw [Program.name, h.names, Program.name]

/-- What is read of a class without its method list is the same. -/
theorem read {β : Type} (g : ClassDecl → β) (hg : ∀ e, g e.bare = g e) (x : ClassId) :
    g (d.program.classAt x) = g (c.program.classAt x) := by
  rw [← hg, h.classes, hg]

theorem className (x : ClassId) : d.program.className x = c.program.className x := by
  rw [Program.className, h.name, h.read ClassDecl.name (fun _ => rfl), Program.className]

theorem invalid (x : ClassId) :
    (d.program.classAt x).invalid = (c.program.classAt x).invalid :=
  h.read ClassDecl.invalid (fun _ => rfl) x

theorem isBound (x : ClassId) :
    (d.program.classAt x).isBound = (c.program.classAt x).isBound :=
  h.read ClassDecl.isBound (fun _ => Option.isSome_map) x

theorem isBoundMember : d.program.isBoundMember func = c.program.isBoundMember func := by
  rw [Program.isBoundMember, h.funcAt, Program.isBoundMember]
  exact congrArg (Option.any · _) (funext h.isBound)

theorem superclass (x : ClassId) : d.program.superclass? x = c.program.superclass? x := by
  refine h.read ClassDecl.superclass (fun e => ?_) x
  unfold ClassDecl.bare ClassDecl.superclass
  cases e.info <;> rfl

theorem listOwner? (x : ClassId) : d.program.listOwner? x = c.program.listOwner? x := by
  refine h.read (fun e => e.info.bind fun i => if i.isMetaclass then i.paired else some x)
    (fun e => ?_) x
  unfold ClassDecl.bare
  cases e.info <;> rfl

theorem findMethod (x : ClassId) (s : Selector) :
    (d.program.classAt x).info.bind (·.findMethod s side) =
      (c.program.classAt x).info.bind (·.findMethod s side) := by
  rw [findMethod_eq, h.side, findMethod_eq]

theorem declaredAbove? (s : Selector) (owner : ClassId) (skip : FuncId) :
    d.program.declaredAbove? s side owner skip = c.program.declaredAbove? s side owner skip := by
  have hsuper : d.program.superclass? = c.program.superclass? := funext h.superclass
  have hdeclares : d.program.declares s side skip = c.program.declares s side skip := by
    funext x
    rw [declares_eq, h.side, declares_eq]
  simp only [Program.declaredAbove?, declaringClass?, lineage, hsuper, hdeclares, h.classCount]

/-- The function is changed in the same way. -/
theorem modifyFunc {g : FuncDecl → FuncDecl} (hg : ∀ d, (g d).span = d.span) :
    AlikeFor func side { c with program := c.program.modifyFunc func g }
      { d with program := d.program.modifyFunc func g } :=
  { h with
    func := by
      change (d.program.funcs.modify func g).get? func = (c.program.funcs.modify func g).get? func
      rw [Arena.get?_modify, Arena.get?_modify, h.func]
    span := fun f => by
      change ((d.program.modifyFunc func g).funcAt f).span =
        ((c.program.modifyFunc func g).funcAt f).span
      rw [read_modifyFunc FuncDecl.span hg, h.span, read_modifyFunc FuncDecl.span hg] }

/-- The same entry is put into the list of the same class. -/
theorem push (owner : ClassId) (entry : MethodEntry) :
    AlikeFor func side { c with program := c.program.modifyClass owner (·.push entry) }
      { d with program := d.program.modifyClass owner (·.push entry) } :=
  { h with
    classCount := by
      change (d.program.classes.modify owner _).size = (c.program.classes.modify owner _).size
      rw [Arena.size_modify, Arena.size_modify, h.classCount]
    classes := fun x => by
      change ((d.program.modifyClass owner _).classAt x).bare =
        ((c.program.modifyClass owner _).classAt x).bare
      rw [read_modifyClass ClassDecl.bare (fun e => e.bare_push entry), h.classes,
        read_modifyClass ClassDecl.bare fun e => e.bare_push entry]
    side := fun x => by
      change (d.program.modifyClass owner _).side x side =
        (c.program.modifyClass owner _).side x side
      rw [side_push, side_push, h.side, h.isBound] }

theorem matches_reject {α : Type} (e : BindError) :
    Matches (AlikeFor func side) (reject (.funcDecl func) e : Resolve α)
      (reject (.funcDecl func) e) c d := by
  have hcharge : AlikeFor func side (c.charge (.funcDecl func)) (d.charge (.funcDecl func)) :=
    h.modifyFunc fun _ => rfl
  exact ⟨rfl, { hcharge with }⟩

theorem matches_say (level : Log.Level) (origin : Log.Origin) (text text' : String) :
    Matches (AlikeFor func side) (Resolve.say level origin text) (Resolve.say level origin text')
      c d :=
  ⟨rfl, { h with }⟩

end Compilation.AlikeFor

namespace Resolve

open Compilation

theorem validateSelector_matches (h : c.AlikeFor func side d) :
    Matches (AlikeFor func side) (validateSelector func) (validateSelector func) c d := by
  refine matches_program (matches_selectors ?_)
  simp only [h.funcAt, h.isBoundMember, h.name, h.selectors]
  cases (c.program.funcAt func).selector with
  | none => exact matches_pure () h
  | some s =>
    dsimp only
    split
    · exact matches_pure () h
    · split
      · exact h.matches_reject _
      · split
        · exact h.matches_reject _
        · split
          · exact h.matches_reject _
          · exact matches_pure () h

theorem checkLinkage_matches (h : c.AlikeFor func side d) :
    Matches (AlikeFor func side) (checkLinkage func) (checkLinkage func) c d := by
  refine matches_program ?_
  simp only [h.funcAt, h.name]
  split
  · exact matches_pure () h
  · split
    · exact h.matches_reject _
    · exact ⟨rfl, h.modifyFunc fun _ => rfl⟩

theorem pushMethod_matches (h : c.AlikeFor func side d) (owner : ClassId) (s : Selector) :
    Matches (AlikeFor func side) (pushMethod func owner s side) (pushMethod func owner s side)
      c d := by
  have hover := h.declaredAbove? s owner func
  refine matches_program ?_
  dsimp only
  refine matches_bind (R := AlikeFor func side) ⟨rfl, ?_⟩ fun _ c d h => ?_
  · change AlikeFor func side
      { c with program := c.program.modifyFunc func fun e => { e with info := e.info.map fun i =>
          { i with overrides := c.program.declaredAbove? s side owner func } } }
      { d with program := d.program.modifyFunc func fun e => { e with info := e.info.map fun i =>
          { i with overrides := d.program.declaredAbove? s side owner func } } }
    rw [hover]
    exact h.modifyFunc fun _ => rfl
  · refine matches_bind (R := AlikeFor func side) ⟨rfl, h.push owner _⟩ fun _ c d h => ?_
    exact matches_selectors (h.matches_say _ _ _ _)

theorem recordMember_matches (h : c.AlikeFor func side d) (owner : ClassId) (s : Selector) :
    Matches (AlikeFor func side) (recordMember func owner s side) (recordMember func owner s side)
      c d := by
  refine matches_bind (validateSelector_matches h) fun _ c d h => ?_
  refine matches_bind (checkLinkage_matches h) fun _ c d h => matches_program ?_
  rw [h.findMethod]
  split
  · rename_i existing _
    split
    · exact matches_pure false h
    · refine matches_selectors ?_
      rw [h.selectors, h.className, h.span, h.span]
      exact h.matches_reject _
  · exact matches_bind (pushMethod_matches h owner s) fun _ c d h => matches_pure true h

/-- What comes of recording a function on one side depends on the function and that side. -/
theorem record_matches (h : c.AlikeFor func side d) (cls : ClassId) :
    Matches (AlikeFor func side) (record func cls side) (record func cls side) c d := by
  refine matches_program ?_
  simp only [h.funcAt, h.listOwner?]
  cases (c.program.funcAt func).selector with
  | none => exact matches_pure false h
  | some s =>
    cases c.program.listOwner? cls with
    | none => exact matches_pure false h
    | some owner =>
      have hname : (d.program.classAt owner).name = (c.program.classAt owner).name :=
        h.read ClassDecl.name (fun _ => rfl) owner
      simp only [h.invalid, h.isBound, h.name, hname]
      split
      · exact matches_pure false h
      · split
        · exact ⟨rfl, { h with }⟩
        · exact recordMember_matches h owner s

theorem recordMethod_matches (h : c.AlikeFor func side d)
    (hside : (c.program.funcAt func).isStatic = side) (cls : ClassId) :
    Matches (AlikeFor func side) (recordMethod func cls) (recordMethod func cls) c d := by
  refine matches_program ?_
  rw [h.funcAt, hside]
  exact matches_bind (record_matches h cls) fun _ _ _ h => matches_pure () h

theorem recordMethod_within (hside : (c.program.funcAt func).isStatic = side) (cls : ClassId) :
    StaysWithin func side (recordMethod func cls) c := by
  refine within_program ?_
  rw [hside]
  exact within_bind (record_within func cls side c) fun _ _ => within_pure ()

end Resolve

namespace Session

open Compilation

theorem recordMethod_matches (h : c.AlikeFor func side d)
    (hside : (c.program.funcAt func).isStatic = side) (cls : ClassId) :
    Matches (AlikeFor func side) (recordMethod func cls) (recordMethod func cls) c d := by
  unfold recordMethod
  cases ha : c.session.aborted with
  | true =>
    refine (outcome_of_error (guarded_of_aborted ha)).2 ?_
    exact (outcome_of_error (guarded_of_aborted (h.aborted.trans ha))).2 ⟨rfl, h⟩
  | false =>
    cases hs : c.session.strategy with
    | functional =>
      have hrun := Resolve.recordMethod_matches h hside cls
      unfold Matches Outcome at hrun ⊢
      rw [guarded_of_functional ha hs,
        guarded_of_functional (h.aborted.trans ha) (h.strategy.trans hs)]
      exact hrun
    | inert =>
      refine (outcome_of_ok (guarded_of_inert ha hs)).2 ?_
      exact (outcome_of_ok (guarded_of_inert (h.aborted.trans ha) (h.strategy.trans hs))).2 ⟨rfl, h⟩

theorem recordMethod_within (hside : (c.program.funcAt func).isStatic = side) (cls : ClassId) :
    StaysWithin func side (recordMethod func cls) c :=
  outcome_guarded_of (Resolve.recordMethod_within hside cls) (.refl func side c)
    (.refl func side c)

theorem recordMethod_accounts (ha : c.session.aborted = false) (func : FuncId) (cls : ClassId) :
    Accounts .methods (recordMethod func cls) c :=
  guarded_accounts ha () (Resolve.recordMethod_accounts func cls c)

end Session

/-! ## In any order -/

section

variable {α : Type}

/-- The result of a step. -/
def answer (x : Resolve α) (c : Compilation) : Except BindError α :=
  match x c with
  | .ok a _ => .ok a
  | .error e _ => .error e

theorem attempts_pair (x y : Resolve α) (c : Compilation) :
    attempts [x, y] c = ([answer x c, answer y (finish x c)], finish y (finish x c)) := by
  have hcons (x : Resolve α) (rest : List (Resolve α)) (c : Compilation) : attempts (x :: rest) c =
      (answer x c :: (attempts rest (finish x c)).1, (attempts rest (finish x c)).2) := by
    unfold answer finish
    rw [attempts]
    cases x c <;> rfl
  rw [hcons, hcons]
  rfl

theorem Resolve.Matches.answer_eq {R : Compilation → Compilation → Prop} {x y : Resolve α}
    (h : Matches R x y c d) : answer y d = answer x c ∧ R (finish x c) (finish y d) := by
  unfold Matches Outcome at h
  unfold answer finish
  cases hx : x c with
  | ok a c' =>
    rw [hx] at h
    cases hy : y d with
    | ok b d' =>
      rw [hy] at h
      exact ⟨congrArg Except.ok h.1, h.2⟩
    | error e d' =>
      rw [hy] at h
      exact h.elim
  | error e c' =>
    rw [hx] at h
    cases hy : y d with
    | ok b d' =>
      rw [hy] at h
      exact h.elim
    | error e' d' =>
      rw [hy] at h
      exact ⟨congrArg Except.error h.1, h.2⟩

end

theorem answer_of_aborted (ha : c.session.aborted = true) (func : FuncId) (cls : ClassId) :
    answer (Session.recordMethod func cls) c = .error .sessionAborted ∧
      finish (Session.recordMethod func cls) c = c := by
  unfold answer finish Session.recordMethod
  rw [guarded_of_aborted ha]
  exact ⟨rfl, rfl⟩

/-- Two recordings report their errors, whichever is made first. -/
theorem reports_perm {f g : FuncId} {x y : ClassId} {rf rg : Except BindError Unit}
    (hd : attempts [Session.recordMethod f x, Session.recordMethod g y] c = ([rf, rg], d))
    (he : attempts [Session.recordMethod g y, Session.recordMethod f x] c = ([rg, rf], e)) :
    e.session.sink.items.Perm d.session.sink.items := by
  cases ha : c.session.aborted with
  | true =>
    have hfinish (func : FuncId) (cls : ClassId) := (answer_of_aborted ha func cls).2
    rw [attempts_pair, hfinish, hfinish, Prod.mk.injEq] at hd he
    rw [← hd.2, ← he.2]
  | false =>
    have hsteps (f g : FuncId) (x y : ClassId) :
        ∀ z ∈ [Session.recordMethod f x, Session.recordMethod g y], ∀ k : Compilation,
          k.session.aborted = false → Accounts .methods z k := by
      intro z hz k hk
      rw [List.mem_pair] at hz
      rcases hz with rfl | rfl <;> exact Session.recordMethod_accounts hk _ _
    have hrd := (attempts_reportedAll (hsteps f g x y) ha).sink
    have hre := (attempts_reportedAll (hsteps g f y x) ha).sink
    rw [hd] at hrd
    rw [he] at hre
    rw [hrd, hre]
    exact (((List.Perm.swap rf rg []).filterMap _).map _).append_left _

/-- Where each of two recordings on different sides sees the same as if it were made alone. -/
theorem Compilation.Within.agrees {f g : FuncId} {c₁ c₂ : Compilation} (hne : g ≠ f)
    (hf : c.Within f false c₁) (hg : c.Within g true c₂) (hd : c₁.Within g true d)
    (he : c₂.Within f false e) (hg' : c₂.AlikeFor g true d) (hf' : c₁.AlikeFor f false e)
    (hreports : e.session.sink.items.Perm d.session.sink.items) : d.AgreesBySides e where
  names := by rw [hf'.names, hd.names]
  funcs := by
    refine Arena.eq_of_get? fun h => ?_
    by_cases hhf : h = f
    · subst hhf
      rw [hf'.func, hd.funcs h (Ne.symm hne)]
    · by_cases hhg : h = g
      · subst hhg
        rw [he.funcs h hne, hg'.func]
      · rw [he.funcs h hhf, hg.funcs h hhg, hd.funcs h hhg, hf.funcs h hhf]
  groups := by rw [he.groups, hg.groups, hd.groups, hf.groups]
  scopes := by rw [he.scopes, hg.scopes, hd.scopes, hf.scopes]
  classCount := by rw [hf'.classCount, hd.classCount]
  classes x := by rw [hf'.classes, hd.classes]
  sides x side := by
    cases side with
    | false => exact (hf'.side x).trans (hd.otherSide x).symm
    | true => exact (he.otherSide x).trans (hg'.side x).symm
  strategy := by rw [hf'.strategy, hd.strategy]
  aborted := by rw [hf'.aborted, hd.aborted]
  selectors := by rw [hf'.selectors, hd.selectors]
  renders := by rw [he.renders, hg.renders, hd.renders, hf.renders]
  reports := hreports

/-- In any compilation: a method of the instances of a class and a method of a class itself can be
recorded in either order. Each of the two recordings has the same result, and what both leave
behind differs in the order of the entries of different sides and of the reports only. -/
theorem recordMethod_commute (c : Compilation) {f g : FuncId} (x y : ClassId)
    (hf : (c.program.funcAt f).isStatic = false) (hg : (c.program.funcAt g).isStatic = true) :
    ∃ rf rg d e,
      attempts [Session.recordMethod f x, Session.recordMethod g y] c = ([rf, rg], d) ∧
      attempts [Session.recordMethod g y, Session.recordMethod f x] c = ([rg, rf], e) ∧
      d.AgreesBySides e := by
  have hne : g ≠ f := by
    rintro rfl
    exact Bool.false_ne_true (hf.symm.trans hg)
  have hafterF := outcome_finish.1 (Session.recordMethod_within hf x)
  have hafterG := outcome_finish.1 (Session.recordMethod_within hg y)
  have hseenG := hafterF.alikeFor hne
  have hseenF := hafterG.alikeFor (Ne.symm hne)
  obtain ⟨hanswerG, hg'⟩ := (Session.recordMethod_matches hseenG hg y).answer_eq
  obtain ⟨hanswerF, hf'⟩ := (Session.recordMethod_matches hseenF hf x).answer_eq
  have hd := outcome_finish.1 (Session.recordMethod_within (hseenG.funcAt ▸ hg) y)
  have he := outcome_finish.1 (Session.recordMethod_within (hseenF.funcAt ▸ hf) x)
  have hfirst := attempts_pair (Session.recordMethod f x) (Session.recordMethod g y) c
  have hsecond := attempts_pair (Session.recordMethod g y) (Session.recordMethod f x) c
  rw [hanswerG] at hfirst
  rw [hanswerF] at hsecond
  exact ⟨_, _, _, _, hfirst, hsecond,
    hafterF.agrees hne hafterG hd he hg' hf' (reports_perm hfirst hsecond)⟩

/-- `Foo` lists a method `draw`, and has two more, for its instances and for itself. -/
def threeDrawEvents : List Event :=
  let draw (isStatic : Bool) : FuncDecl :=
    { name := ⟨6⟩, params := [], span := .point 0 2 1, linkage := .objc, isStatic }
  [.grow (.addScope none), .grow (.intern "Foo"), .grow (.intern "draw"),
    .grow (.addClass { name := ⟨5⟩, kind := .concrete, span := .point 0 1 1 }),
    .grow (.addMethod ⟨0⟩ (draw false)), .grow (.addMethod ⟨0⟩ (draw false)),
    .grow (.addMethod ⟨0⟩ (draw true)), .run (.markClass ⟨0⟩), .run (.assignSelector ⟨0⟩ ⟨0⟩),
    .run (.assignSelector ⟨1⟩ ⟨0⟩), .run (.assignSelector ⟨2⟩ ⟨0⟩), .run (.recordMethod ⟨0⟩ ⟨0⟩)]

/-- The second `draw` for instances is rejected, the one for `Foo` itself is taken. -/
theorem recordMethod_commute_draw :
    let c := (Event.play [] (.new .functional false) threeDrawEvents).2
    let draw := Session.recordMethod ⟨1⟩ ⟨0⟩
    let drawSelf := Session.recordMethod ⟨2⟩ ⟨0⟩
    (failures (attempts [draw, drawSelf] c).1).length = 1 ∧
      ((attempts [drawSelf, draw] c).2.program.side ⟨0⟩ true).map (·.func) = [⟨2⟩] ∧
      (attempts [draw, drawSelf] c).2.AgreesBySides (attempts [drawSelf, draw] c).2 := by
  intro c draw drawSelf
  obtain ⟨rf, rg, d, e, hd, he, hagree⟩ := recordMethod_commute c (f := ⟨1⟩) (g := ⟨2⟩) ⟨0⟩ ⟨0⟩
    (by decide +kernel) (by decide +kernel)
  refine ⟨by decide +kernel, by decide +kernel, ?_⟩
  rw [hd, he]
  exact hagree

end ObjcBinding
