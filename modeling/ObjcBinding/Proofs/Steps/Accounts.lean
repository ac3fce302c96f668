import ObjcBinding.Proofs.Steps.Outcome

/-!
# What steps report

A step that ends well reports nothing, and a step that fails reports its error: once, to the sink,
and charges it to at most one declaration. `Accounts realm x c` says so of the step `x` from `c`,
and also what a step of its realm leaves alone. It asks nothing of the declarations, so that it
holds from every compilation.

* `accounts_bind`: a sequence of steps accounts for its errors if the parts do;
* `resolveMetaclass_accounts`: an error from a class above is reported there and nowhere else;
* `record_accounts`: so is an error of a check that is made before a method joins its list.
-/

namespace ObjcBinding

/-- Whether the error is charged to a declaration. -/
def BindError.isCharged : BindError → Bool
  | .alreadyBound .. | .notMember .. | .corrupted .. | .sessionAborted => false
  | _ => true

/-- Whether the error is a corruption, which ends the session. -/
def BindError.isCorruption : BindError → Bool
  | .corrupted .. => true
  | _ => false

theorem BindError.isCorruption_of_isCharged {e : BindError} (h : e.isCharged = true) :
    e.isCorruption = false := by
  cases e <;> first | rfl | cases h

theorem BindError.isCorruption_of_isFatal {e : BindError} (h : e.isFatal = false) :
    e.isCorruption = false := by
  cases e <;> first | rfl | cases h

theorem Program.attrText_isCharged {p : Program} {scope : ScopeId} {attr : SelectorAttr}
    {e : BindError} (h : p.attrText scope attr = .error e) : e.isCharged = true := by
  unfold Program.attrText at h
  split at h
  · cases h
  · split at h
    · cases h
    · cases h
      rfl

namespace Program

/-- Every declaration of `q` is as valid or invalid as it is in `p`, and every class has the same
members. -/
structure Alike (p q : Program) : Prop where
  classInvalid (id : ClassId) : (q.classAt id).invalid = (p.classAt id).invalid
  members (id : ClassId) : (q.classAt id).members = (p.classAt id).members
  funcInvalid (id : FuncId) : (q.funcAt id).invalid = (p.funcAt id).invalid

namespace Alike

variable {p q r : Program}

theorem of_eq (hc : q.classes = p.classes) (hf : q.funcs = p.funcs) : Alike p q where
  classInvalid id := by rw [classAt, hc, classAt]
  members id := by rw [classAt, hc, classAt]
  funcInvalid id := by rw [funcAt, hf, funcAt]

theorem refl (p : Program) : Alike p p := of_eq rfl rfl

theorem trans (h : Alike p q) (h' : Alike q r) : Alike p r where
  classInvalid id := (h'.classInvalid id).trans (h.classInvalid id)
  members id := (h'.members id).trans (h.members id)
  funcInvalid id := (h'.funcInvalid id).trans (h.funcInvalid id)

theorem modifyClass (p : Program) (id : ClassId) {f : ClassDecl → ClassDecl}
    (hf : ∀ d, (f d).invalid = d.invalid ∧ (f d).members = d.members) :
    Alike p (p.modifyClass id f) where
  classInvalid other := read_modifyClass (·.invalid) (fun d => (hf d).1) id other
  members other := read_modifyClass (·.members) (fun d => (hf d).2) id other
  funcInvalid _ := rfl

theorem modifyFunc (p : Program) (id : FuncId) {f : FuncDecl → FuncDecl}
    (hf : ∀ d, (f d).invalid = d.invalid) : Alike p (p.modifyFunc id f) where
  classInvalid _ := rfl
  members _ := rfl
  funcInvalid other := read_modifyFunc (·.invalid) hf id other

/-- A handle that was not issued before stood for an empty, valid declaration. -/
theorem addClass (p : Program) {d : ClassDecl} (hd : d.invalid = false) (hm : d.members = []) :
    Alike p (p.addClass d).2 := by
  have hfresh : p.classAt ⟨p.classes.size⟩ = default :=
    Arena.get_of_not_contains (Arena.not_contains_fresh _)
  refine ⟨fun id => ?_, fun id => ?_, fun _ => rfl⟩
  · rw [classAt_addClass_eq]
    split
    case isTrue h => rw [h, hd, hfresh]; rfl
    case isFalse => rfl
  · rw [classAt_addClass_eq]
    split
    case isTrue h => rw [h, hm, hfresh]; rfl
    case isFalse => rfl

theorem declare {scope : ScopeId} {name : Symbol} {entry : ScopeEntry}
    (h : p.declare scope name entry = .ok q) : Alike p q := by
  unfold Program.declare at h
  split at h
  · cases h
  · cases h
    exact of_eq rfl rfl

end Alike

theorem size_scopes_of_declare {p q : Program} {scope : ScopeId} {name : Symbol}
    {entry : ScopeEntry} (h : p.declare scope name entry = .ok q) :
    q.funcs = p.funcs ∧ q.groups = p.groups ∧ q.scopes.size = p.scopes.size := by
  unfold Program.declare at h
  split at h
  · cases h
  · cases h
    exact ⟨rfl, rfl, Arena.size_modify ..⟩

end Program

namespace Compilation

/-! ## Quiet steps and reported errors -/

/-- Nothing was reported between the two, and no declaration became invalid. -/
structure Quiet (c d : Compilation) : Prop where
  sink : d.session.sink = c.session.sink
  strategy : d.session.strategy = c.session.strategy
  aborted : d.session.aborted = c.session.aborted
  program : c.program.Alike d.program

/-- The error `e` was reported once between the two, and ended the session if it is a corruption:
then the compilation is left as the end of the session leaves it. At most one declaration became
invalid, and none if the error is not charged to any. -/
structure Reported (c d : Compilation) (e : BindError) : Prop where
  sink : d.session.sink.items = c.session.sink.items ++
    [{ severity := .error
       code := some e.code
       message := e.message
       span := e.span
       notes := (e.related?.map fun span => ⟨"previously declared here", span⟩).toList }]
  strategy : d.session.strategy = c.session.strategy
  aborted : d.session.aborted = (c.session.aborted || e.isCorruption)
  ended : e.isCorruption = true → ∃ corruption span mid,
    (Resolve.abort corruption span : Resolve Unit) mid = .error e d
  culprit : ∃ culprit : Option Culprit, (e.isCharged = false → culprit = none) ∧
    (∀ id, culprit ≠ some (.classDecl id) →
      (d.program.classAt id).invalid = (c.program.classAt id).invalid) ∧
    ∀ id, culprit ≠ some (.funcDecl id) →
      (d.program.funcAt id).invalid = (c.program.funcAt id).invalid
  classInvalid (id : ClassId) :
    (c.program.classAt id).invalid = true → (d.program.classAt id).invalid = true
  funcInvalid (id : FuncId) :
    (c.program.funcAt id).invalid = true → (d.program.funcAt id).invalid = true

variable {b c d : Compilation} {e : BindError}

theorem Quiet.refl (c : Compilation) : c.Quiet c := ⟨rfl, rfl, rfl, .refl _⟩

theorem Quiet.trans (h : b.Quiet c) (h' : c.Quiet d) : b.Quiet d where
  sink := h'.sink.trans h.sink
  strategy := h'.strategy.trans h.strategy
  aborted := h'.aborted.trans h.aborted
  program := h.program.trans h'.program

theorem Quiet.reported (h : b.Quiet c) (h' : c.Reported d e) : b.Reported d e where
  sink := by rw [h'.sink, h.sink]
  strategy := h'.strategy.trans h.strategy
  aborted := by rw [h'.aborted, h.aborted]
  ended := h'.ended
  culprit := by
    obtain ⟨culprit, hnone, hclass, hfunc⟩ := h'.culprit
    exact ⟨culprit, hnone, fun id hne => (hclass id hne).trans (h.program.classInvalid id),
      fun id hne => (hfunc id hne).trans (h.program.funcInvalid id)⟩
  classInvalid id hi := h'.classInvalid id ((h.program.classInvalid id).trans hi)
  funcInvalid id hi := h'.funcInvalid id ((h.program.funcInvalid id).trans hi)

theorem Quiet.of_program {p : Program} (h : c.program.Alike p) :
    c.Quiet { c with program := p } := ⟨rfl, rfl, rfl, h⟩

/-- An error that is reported without a change of the declarations. -/
theorem Reported.of_alike (hsink : d.session.sink = c.session.sink.report e.diagnostic)
    (hstrategy : d.session.strategy = c.session.strategy)
    (haborted : d.session.aborted = (c.session.aborted || e.isCorruption))
    (hended : e.isCorruption = true → ∃ corruption span mid,
      (Resolve.abort corruption span : Resolve Unit) mid = .error e d)
    (h : c.program.Alike d.program) : c.Reported d e where
  sink := by
    rw [hsink, Sink.items_report]
    rfl
  strategy := hstrategy
  aborted := haborted
  ended := hended
  culprit := ⟨none, fun _ => rfl, fun id _ => h.classInvalid id, fun id _ => h.funcInvalid id⟩
  classInvalid id hi := (h.classInvalid id).trans hi
  funcInvalid id hi := (h.funcInvalid id).trans hi

theorem reported_reject (c : Compilation) (culprit : Culprit) (he : e.isCharged = true)
    (log : Array Log.Message) :
    c.Reported { (c.charge culprit).report e with log } e := by
  have hbenign := BindError.isCorruption_of_isCharged he
  have haborted : c.session.aborted = (c.session.aborted || e.isCorruption) := by
    rw [hbenign, Bool.or_false]
  have hnone : e.isCharged = false → some culprit = none := fun h => by
    rw [he] at h
    cases h
  have hsink (sink : Sink) : (sink.report e.diagnostic).items = sink.items ++ [e.diagnostic] :=
    Sink.items_report ..
  cases culprit with
  | classDecl cls =>
    refine ⟨hsink _, rfl, haborted, fun h => ?_, ⟨_, hnone, fun id hne => ?_, fun _ _ => rfl⟩,
      fun id hi => ?_, fun _ hi => hi⟩
    · cases hbenign.symm.trans h
    · change (Program.classAt (Program.modifyClass _ cls _) id).invalid = _
      rw [Program.classAt_modifyClass, if_neg fun h => hne (by rw [h.1])]
    · change (Program.classAt (Program.modifyClass _ cls _) id).invalid = true
      rw [Program.classAt_modifyClass]
      split
      · rfl
      · exact hi
  | funcDecl func =>
    refine ⟨hsink _, rfl, haborted, fun h => ?_, ⟨_, hnone, fun _ _ => rfl, fun id hne => ?_⟩,
      fun _ hi => hi, fun id hi => ?_⟩
    · cases hbenign.symm.trans h
    · change (Program.funcAt (Program.modifyFunc _ func _) id).invalid = _
      rw [Program.funcAt_modifyFunc, if_neg fun h => hne (by rw [h.1])]
    · change (Program.funcAt (Program.modifyFunc _ func _) id).invalid = true
      rw [Program.funcAt_modifyFunc]
      split
      · rfl
      · exact hi

end Compilation

/-! ## Two realms -/

/-- The declarations that a step is about: classes with their metaclasses, or methods. -/
inductive Realm where
  | hierarchy
  | methods

/-- What a step of a realm leaves alone. One on the hierarchy touches no function, group or
selector and adds no scope; one on methods does not end the session. -/
def Realm.Spares : Realm → Compilation → Compilation → Prop
  | hierarchy, c, d =>
    (d.program.funcs = c.program.funcs ∧ d.program.groups = c.program.groups ∧
      d.program.scopes.size = c.program.scopes.size) ∧
    d.session.selectors = c.session.selectors
  | methods, c, d => d.session.aborted = c.session.aborted

namespace Realm

variable {realm : Realm} {b c d : Compilation}

theorem Spares.refl (realm : Realm) (c : Compilation) : realm.Spares c c := by
  cases realm with
  | hierarchy => exact ⟨⟨rfl, rfl, rfl⟩, rfl⟩
  | methods => rfl

theorem Spares.trans (h : realm.Spares b c) (h' : realm.Spares c d) : realm.Spares b d := by
  cases realm with
  | hierarchy =>
    obtain ⟨⟨hf, hg, hs⟩, ht⟩ := h
    obtain ⟨⟨hf', hg', hs'⟩, ht'⟩ := h'
    exact ⟨⟨hf'.trans hf, hg'.trans hg, hs'.trans hs⟩, ht'.trans ht⟩
  | methods => exact Eq.trans h' h

/-- A step of any realm may write to the log and the sink. -/
theorem Spares.of_eq (hp : d.program = c.program)
    (ht : d.session.selectors = c.session.selectors)
    (ha : d.session.aborted = c.session.aborted) : realm.Spares c d := by
  cases realm with
  | hierarchy => exact ⟨hp ▸ ⟨rfl, rfl, rfl⟩, ht⟩
  | methods => exact ha

/-- Whom a step of the realm may charge. -/
def mayCharge : Realm → Culprit → Bool
  | hierarchy, .classDecl _ => true
  | hierarchy, .funcDecl _ => false
  | methods, _ => true

theorem spares_reject {culprit : Culprit} (h : realm.mayCharge culprit = true) (c : Compilation)
    (e : BindError) (log : Array Log.Message) :
    realm.Spares c { (c.charge culprit).report e with log } := by
  cases culprit with
  | classDecl =>
    cases realm with
    | hierarchy => exact ⟨⟨rfl, rfl, rfl⟩, rfl⟩
    | methods => rfl
  | funcDecl =>
    cases realm with
    | hierarchy => cases h
    | methods => rfl

end Realm

namespace Resolve

open Compilation

variable {α β : Type} {realm : Realm} {c : Compilation}

/-- From `c` the step `x` ends well without a report, or fails with an error that was reported
once; in both cases it leaves alone what its realm tells. -/
def Accounts (realm : Realm) (x : Resolve α) (c : Compilation) : Prop :=
  Outcome x c (fun _ d => realm.Spares c d ∧ c.Quiet d)
    fun e d => realm.Spares c d ∧ c.Reported d e

/-! ## Parts of steps -/

theorem accounts_pure (a : α) : Accounts realm (pure a) c := ⟨.refl realm c, .refl c⟩

theorem accounts_bind {x : Resolve α} {f : α → Resolve β} (hx : Accounts realm x c)
    (hf : ∀ a d, c.Quiet d → Accounts realm (f a) d) : Accounts realm (x >>= f) c := by
  refine outcome_bind.2 (outcome_mono hx (fun a d hd => ?_) fun _ _ hd => hd)
  exact outcome_mono (hf a d hd.2) (fun _ _ h => ⟨hd.1.trans h.1, hd.2.trans h.2⟩)
    fun _ _ h => ⟨hd.1.trans h.1, hd.2.reported h.2⟩

theorem accounts_map {x : Resolve α} {f : α → β} (hx : Accounts realm x c) :
    Accounts realm (f <$> x) c :=
  outcome_map.2 hx

theorem accounts_program {f : Program → Resolve β} (h : Accounts realm (f c.program) c) :
    Accounts realm (program >>= f) c := h

theorem accounts_selectors {f : Selector.Table → Resolve β}
    (h : Accounts realm (f c.session.selectors) c) : Accounts realm (selectors >>= f) c := h

theorem accounts_say (level : Log.Level) (origin : Log.Origin) (text : String) :
    Accounts realm (say level origin text) c :=
  outcome_say.2 ⟨.of_eq rfl rfl rfl, rfl, rfl, rfl, .refl _⟩

/-- A change of the declarations that makes none invalid and keeps what the realm leaves alone. -/
theorem accounts_update {f : Program → Program} (hf : c.program.Alike (f c.program))
    (hs : realm.Spares c { c with program := f c.program }) :
    Accounts realm (updateProgram f) c :=
  outcome_updateProgram.2 ⟨hs, .of_program hf⟩

theorem accounts_modifyGet {f : Program → α × Program}
    (hf : c.program.Alike (f c.program).2)
    (hs : realm.Spares c { c with program := (f c.program).2 }) :
    Accounts realm (modifyGetProgram f) c :=
  outcome_modifyGetProgram.2 ⟨hs, .of_program hf⟩

theorem accounts_reject {culprit : Culprit} {e : BindError}
    (hr : realm.mayCharge culprit = true) (he : e.isCharged = true) :
    Accounts realm (reject culprit e : Resolve α) c :=
  outcome_reject.2 ⟨Realm.spares_reject hr c e _, c.reported_reject culprit he _⟩

theorem accounts_refuse {e : BindError} (he : e.isCorruption = false) :
    Accounts realm (refuse e : Resolve α) c := by
  refine outcome_refuse.2 ⟨.of_eq rfl rfl rfl, .of_alike rfl rfl ?_ (fun h => ?_) (.refl _)⟩
  · rw [he, Bool.or_false]
    rfl
  · cases he.symm.trans h

theorem accounts_abort (corruption : Corruption) (span : Span) :
    Accounts .hierarchy (abort corruption span : Resolve α) c :=
  outcome_abort.2 ⟨⟨⟨rfl, rfl, rfl⟩, rfl⟩,
    .of_alike rfl rfl (Bool.or_true _).symm (fun _ => ⟨corruption, span, c, rfl⟩) (.refl _)⟩

/-! ## Classes and metaclasses -/

theorem mark_accounts (cls : ClassId) (kind : ClassKind) (c : Compilation) :
    Accounts .hierarchy (mark cls kind) c := by
  refine accounts_program ?_
  dsimp only
  split
  · exact accounts_refuse rfl
  · split
    · exact accounts_reject rfl rfl
    · split
      · exact accounts_reject rfl rfl
      · refine accounts_bind (accounts_update (.modifyClass _ cls fun _ => ⟨rfl, rfl⟩) ?_)
          fun _ _ _ => accounts_say ..
        exact ⟨⟨rfl, rfl, rfl⟩, rfl⟩

theorem pairedOf_accounts (id : ClassId) (c : Compilation) :
    Accounts .hierarchy (pairedOf id) c :=
  accounts_program (accounts_pure _)

theorem declareMetaclass_accounts (metaclass : ClassId) (scope : ScopeId) (c : Compilation) :
    Accounts .hierarchy (declareMetaclass metaclass scope) c := by
  refine accounts_program ?_
  dsimp only
  split
  · exact accounts_pure _
  · split
    case h_1 p hp =>
      exact accounts_update (.declare hp) ⟨Program.size_scopes_of_declare hp, rfl⟩
    case h_2 => exact accounts_abort ..

theorem verifyPair_accounts (cls metaclass : ClassId) (c : Compilation) :
    Accounts .hierarchy (verifyPair cls metaclass) c := by
  refine accounts_program ?_
  split
  · exact accounts_pure _
  · exact accounts_abort ..

theorem link_accounts (cls metaclass : ClassId) (c : Compilation) :
    Accounts .hierarchy (link cls metaclass) c := by
  refine accounts_program ?_
  dsimp only
  split
  · exact verifyPair_accounts ..
  · split
    · exact accounts_abort ..
    · refine accounts_bind (accounts_update (.modifyClass _ cls fun _ => ⟨rfl, rfl⟩) ?_)
        fun _ _ _ => verifyPair_accounts ..
      exact ⟨⟨rfl, rfl, rfl⟩, rfl⟩

section

-- The classes above are resolved by a step that accounts for its errors itself.
variable {resolve : ClassId → Resolve Unit}
  (hresolve : ∀ cls d, Accounts .hierarchy (resolve cls) d)

include hresolve

theorem interfaceMetaclasses_accounts (interfaces : List ClassId) (c : Compilation) :
    Accounts .hierarchy (interfaceMetaclasses resolve interfaces) c := by
  induction interfaces generalizing c with
  | nil => exact accounts_pure _
  | cons i rest ih =>
    refine accounts_bind (hresolve i c) fun _ d _ => ?_
    refine accounts_bind (pairedOf_accounts i d) fun _ d' _ => ?_
    exact accounts_bind (ih d') fun _ _ _ => accounts_pure _

theorem superMetaclasses_accounts (cls : ClassId) (c : Compilation) :
    Accounts .hierarchy (superMetaclasses resolve cls) c := by
  have hrest (superMetaclass : Option ClassId) (d : Compilation) :
      Accounts .hierarchy
        (do
          let interfaces ← interfaceMetaclasses resolve (c.program.classAt cls).interfaces
          return (superMetaclass, interfaces)) d :=
    accounts_bind (interfaceMetaclasses_accounts hresolve _ d) fun _ _ _ => accounts_pure _
  refine accounts_program ?_
  dsimp only
  split
  · exact hrest none c
  · refine accounts_bind (hresolve _ c) fun _ d _ => ?_
    exact accounts_bind (pairedOf_accounts _ d) fun superMetaclass d _ => hrest superMetaclass d

theorem synthesize_accounts (cls : ClassId) (scope : ScopeId) (c : Compilation) :
    Accounts .hierarchy (synthesize resolve cls scope) c := by
  refine accounts_bind (superMetaclasses_accounts hresolve cls c) fun parents d _ => ?_
  obtain ⟨superMetaclass, interfaces⟩ := parents
  refine accounts_program ?_
  refine accounts_bind (accounts_modifyGet (.of_eq rfl rfl) ⟨⟨rfl, rfl, rfl⟩, rfl⟩) fun _ d _ => ?_
  refine accounts_bind (accounts_modifyGet (.addClass _ rfl rfl) ⟨⟨rfl, rfl, rfl⟩, rfl⟩)
    fun _ d _ => ?_
  refine accounts_bind (declareMetaclass_accounts _ scope d) fun _ d _ => ?_
  exact accounts_bind (link_accounts cls _ d) fun _ _ _ => accounts_say ..

theorem linkForeign_accounts (cls metaclass : ClassId) (c : Compilation) :
    Accounts .hierarchy (linkForeign resolve cls metaclass) c := by
  refine accounts_program ?_
  dsimp only
  split
  · split
    · exact link_accounts ..
    · exact accounts_reject rfl rfl
  · refine accounts_bind (superMetaclasses_accounts hresolve cls c) fun parents d _ => ?_
    refine accounts_bind
      (accounts_update (.modifyClass _ metaclass fun _ => ⟨rfl, rfl⟩) ⟨⟨rfl, rfl, rfl⟩, rfl⟩)
      fun _ d _ => ?_
    exact accounts_bind (link_accounts cls metaclass d) fun _ _ _ =>
      accounts_program (accounts_say ..)

theorem resolveStep_accounts (cls : ClassId) (scope : ScopeId) (c : Compilation) :
    Accounts .hierarchy (resolveStep resolve cls scope) c := by
  refine accounts_program ?_
  dsimp only
  split
  · exact accounts_reject rfl rfl
  · split
    · exact accounts_pure _
    · split
      · exact accounts_bind (verifyPair_accounts ..) fun _ d _ => declareMetaclass_accounts _ _ d
      · split
        · exact synthesize_accounts hresolve cls scope c
        · split
          · exact linkForeign_accounts hresolve cls _ c
          · exact accounts_reject rfl rfl

end

theorem resolveBelow_accounts (scope : ScopeId) (height : Nat) (cls : ClassId)
    (c : Compilation) : Accounts .hierarchy (resolveBelow scope height cls) c := by
  induction height generalizing cls c with
  | zero => exact accounts_pure _
  | succ height ih => exact resolveStep_accounts ih cls scope c

theorem resolveMetaclass_accounts (cls : ClassId) (scope : ScopeId) (c : Compilation) :
    Accounts .hierarchy (resolveMetaclass cls scope) c :=
  accounts_program (resolveBelow_accounts ..)

theorem runtimeMetaclass_accounts (cls : ClassId) (c : Compilation) :
    Accounts .hierarchy (runtimeMetaclass cls) c := by
  refine accounts_program ?_
  dsimp only
  split
  · exact accounts_reject rfl rfl
  · split
    · split
      · exact accounts_pure _
      · exact accounts_reject rfl rfl
    · split
      · exact accounts_abort ..
      · split
        · exact accounts_pure _
        · exact accounts_reject rfl rfl

/-! ## Methods -/

theorem adopt_quiet (s : Selector) (t : Selector.Table) (c : Compilation) :
    Outcome (adopt s t) c (fun _ d => Realm.methods.Spares c d ∧ c.Quiet d)
      fun _ _ => False := by
  unfold adopt
  simp only [outcome_bind, outcome_selectors]
  split
  · simp only [outcome_bind, outcome_say, outcome_modify, outcome_pure]
    exact ⟨rfl, rfl, rfl, rfl, .refl _⟩
  · simp only [outcome_bind, outcome_modify, outcome_pure]
    exact ⟨rfl, rfl, rfl, rfl, .refl _⟩

theorem internSelector_accounts (text : String) (arity : Nat) (c : Compilation) :
    Accounts .methods (internSelector text arity) c :=
  accounts_selectors (outcome_mono (adopt_quiet ..) (fun _ _ h => h) fun _ _ => False.elim)

/-- The step ends well without a report, or fails without one and without any change. -/
def Silent (x : Resolve α) (c : Compilation) : Prop :=
  Outcome x c (fun _ d => Realm.methods.Spares c d ∧ c.Quiet d)
    fun e d => d = c ∧ e.isCharged = true

theorem lookupSelector_silent (text : String) (span : Span) (c : Compilation) :
    Silent (lookupSelector text span) c := by
  unfold Silent lookupSelector Selector.Table.lookup
  simp only [outcome_bind, outcome_selectors]
  cases Selector.arity text with
  | error fault => exact ⟨rfl, rfl⟩
  | ok n => exact outcome_mono (adopt_quiet ..) (fun _ _ h => h) fun _ _ => False.elim

theorem deriveSelector_silent (func : FuncId) (c : Compilation) :
    Silent (deriveSelector func) c :=
  outcome_bind.2 (outcome_program.2 (lookupSelector_silent ..))

/-- The error of a step that does not report it is charged to a function. -/
theorem rejecting_accounts {x : Resolve α} (func : FuncId) (hx : Silent x c) :
    Accounts .methods (rejecting func x) c := by
  refine outcome_tryCatch.2 (outcome_mono hx (fun _ _ h => h) ?_)
  rintro e d ⟨rfl, he⟩
  exact (accounts_reject rfl he : Accounts .methods (reject (.funcDecl func) e : Resolve α) d)

theorem chooseSelector_accounts (func : FuncId) (scope : ScopeId) (c : Compilation) :
    Accounts .methods (chooseSelector func scope) c := by
  refine accounts_program ?_
  dsimp only
  split
  · split
    · exact accounts_map (rejecting_accounts func (deriveSelector_silent func c))
    · exact accounts_pure _
  · split
    · exact accounts_map (rejecting_accounts func (lookupSelector_silent _ _ c))
    case h_2 he => exact accounts_reject rfl (Program.attrText_isCharged he)
  · exact accounts_reject rfl rfl

theorem assignSelector_accounts (func : FuncId) (scope : ScopeId) (c : Compilation) :
    Accounts .methods (assignSelector func scope) c := by
  refine accounts_program ?_
  dsimp only
  split
  · exact accounts_pure _
  · split
    · exact accounts_pure _
    · refine accounts_bind (chooseSelector_accounts func scope c) fun s d _ => ?_
      cases s with
      | none => exact accounts_pure _
      | some s =>
        refine accounts_bind (accounts_update (.modifyFunc _ func fun _ => rfl) rfl) fun _ d _ => ?_
        refine accounts_selectors ?_
        exact accounts_bind (accounts_say ..) fun _ _ _ => accounts_pure _

theorem validateSelector_accounts (func : FuncId) (c : Compilation) :
    Accounts .methods (validateSelector func) c := by
  refine accounts_program (accounts_selectors ?_)
  dsimp only
  split
  · exact accounts_pure _
  · split
    · exact accounts_pure _
    · split
      · exact accounts_reject rfl rfl
      · split
        · exact accounts_reject rfl rfl
        · split
          · exact accounts_reject rfl rfl
          · exact accounts_pure _

theorem checkLinkage_accounts (func : FuncId) (c : Compilation) :
    Accounts .methods (checkLinkage func) c := by
  refine accounts_program ?_
  dsimp only
  split
  · exact accounts_pure _
  · split
    · exact accounts_reject rfl rfl
    · exact accounts_update (.modifyFunc _ func fun _ => rfl) rfl

theorem placeSelectorParam_accounts (func : FuncId) (name : Symbol) (c : Compilation) :
    Accounts .methods (placeSelectorParam func name) c := by
  refine accounts_program ?_
  dsimp only
  split
  · exact accounts_pure _
  · exact accounts_bind (accounts_update (.modifyFunc _ func fun _ => rfl) rfl) fun _ _ _ =>
      accounts_pure _

theorem addSelectorParam_accounts (func : FuncId) (scope : ScopeId) (c : Compilation) :
    Accounts .methods (addSelectorParam func scope) c := by
  refine accounts_program ?_
  dsimp only
  split
  · exact accounts_pure _
  · refine accounts_bind (accounts_modifyGet (.of_eq rfl rfl) rfl) fun name d _ => ?_
    refine accounts_bind (placeSelectorParam_accounts func name d) fun index d _ => ?_
    refine accounts_program ?_
    split
    case h_1 p hp =>
      exact accounts_bind (accounts_update (.declare hp) rfl) fun _ _ _ => accounts_pure _
    case h_2 =>
      split
      · exact accounts_bind (accounts_say ..) fun _ _ _ => accounts_pure _
      · exact accounts_pure _

theorem pushMethod_accounts (func : FuncId) (owner : ClassId) (s : Selector)
    (isClassMethod : Bool) (c : Compilation) :
    Accounts .methods (pushMethod func owner s isClassMethod) c := by
  refine accounts_program ?_
  refine accounts_bind (accounts_update (.modifyFunc _ func fun _ => rfl) rfl) fun _ d _ => ?_
  refine accounts_bind (accounts_update (.modifyClass _ owner fun _ => ⟨rfl, rfl⟩) rfl)
    fun _ d _ => ?_
  exact accounts_selectors (accounts_say ..)

theorem recordMember_accounts (func : FuncId) (owner : ClassId) (s : Selector)
    (isClassMethod : Bool) (c : Compilation) :
    Accounts .methods (recordMember func owner s isClassMethod) c := by
  refine accounts_bind (validateSelector_accounts func c) fun _ d _ => ?_
  refine accounts_bind (checkLinkage_accounts func d) fun _ d _ => ?_
  refine accounts_program ?_
  split
  · split
    · exact accounts_pure _
    · exact accounts_selectors (accounts_reject rfl rfl)
  · exact accounts_bind (pushMethod_accounts ..) fun _ _ _ => accounts_pure _

theorem record_accounts (func : FuncId) (cls : ClassId) (isClassMethod : Bool)
    (c : Compilation) : Accounts .methods (record func cls isClassMethod) c := by
  refine accounts_program ?_
  dsimp only
  split
  · split
    · exact accounts_pure _
    · split
      · exact accounts_refuse rfl
      · exact recordMember_accounts ..
  · exact accounts_pure _

theorem recordMethod_accounts (func : FuncId) (cls : ClassId) (c : Compilation) :
    Accounts .methods (recordMethod func cls) c :=
  accounts_program (accounts_bind (record_accounts ..) fun _ _ _ => accounts_pure _)

end Resolve

end ObjcBinding
