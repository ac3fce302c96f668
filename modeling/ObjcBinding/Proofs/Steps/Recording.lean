import ObjcBinding.Proofs.Steps.Listing

/-!
# What recording a method does

Recording a method puts it into the list of its class, or changes no list. Which of the two
happens is decided by a few facts about the function, the class and the list. Recording other
methods can only turn the decision from the first to the second, so that a function which was
tried once is never put into the list later.

* `Compilation.Takes`: the list of a class takes a function on one side;
* `Compilation.Enlists`: some entries were added, and nothing else that counts was changed;
* `Compilation.Enlists.takes`: a list takes no function later that it does not take now;
* `record_recorded`: a function joins the list that takes it, and else no list changes.
-/

namespace ObjcBinding

open Program Resolve

variable {c d e : Compilation} {func : FuncId} {cls owner : ClassId} {side : Bool} {s : Selector}

/-! ## When a list takes a function -/

/-- The method that a function overrides, as noted when it joined a list. -/
def Program.overrides? (p : Program) (func : FuncId) : Option ClassId :=
  (p.funcAt func).info.bind (·.overrides)

/-- The nearest class above `owner` whose list has the selector on this side for a function other
than `func`. -/
def Program.declaredAbove? (p : Program) (s : Selector) (isClassMethod : Bool) (owner : ClassId)
    (func : FuncId) : Option ClassId :=
  (p.superclass? owner).bind fun superclass => p.declaringClass? s isClassMethod superclass func

theorem Program.isBound_eq (p : Program) (cls : ClassId) :
    (p.classAt cls).isBound = (p.pairing cls).isSome := by
  rw [pairing, Option.isSome_map, ClassDecl.isBound]

/-- Given for `cls` on one side, the function joins the list of `owner` under the selector `s`. -/
structure Compilation.Takes (c : Compilation) (func : FuncId) (cls : ClassId) (side : Bool)
    (owner : ClassId) (s : Selector) : Prop where
  fits : c.Fits func owner s
  valid : (c.program.funcAt func).invalid = false
  listOwner : c.program.listOwner? cls = some owner
  bound : (c.program.classAt owner).isBound = true
  ownerValid : (c.program.classAt owner).invalid = false
  new : ∀ e ∈ c.program.entries owner, ¬(e.selector = s ∧ e.isClassMethod = side)

/-- The entries for one list, and none for any other. -/
def entriesOf (owner : ClassId) (entries : List MethodEntry) (x : ClassId) : List MethodEntry :=
  if x = owner then entries else []

/-- From `c` to `d` the entries `added` were put at the ends of the lists. Functions may have
become invalid, but nothing else was changed that decides over lists. -/
structure Compilation.Enlists (added : ClassId → List MethodEntry) (c d : Compilation) :
    Prop where
  names : d.program.names = c.program.names
  source (f : FuncId) : (d.program.funcAt f).source = (c.program.funcAt f).source
  selector (f : FuncId) : (d.program.funcAt f).selector = (c.program.funcAt f).selector
  invalid (f : FuncId) :
    (c.program.funcAt f).invalid = true → (d.program.funcAt f).invalid = true
  pairing (x : ClassId) : d.program.pairing x = c.program.pairing x
  classInvalid (x : ClassId) :
    (d.program.classAt x).invalid = (c.program.classAt x).invalid
  entries (x : ClassId) : d.program.entries x = c.program.entries x ++ added x
  groups : d.program.groups = c.program.groups
  selectors : d.session.selectors = c.session.selectors
  aborted : d.session.aborted = c.session.aborted
  strategy : d.session.strategy = c.session.strategy

/-- No entry was added to any list. -/
abbrev Compilation.Unlisted (c d : Compilation) : Prop := Compilation.Enlists (fun _ => []) c d

/-- How the attempt to record a function has ended: with the function in the list that takes it,
where it has noted what it overrides, or with all lists as they were. -/
inductive Recorded (func : FuncId) (cls : ClassId) (side : Bool) (c d : Compilation) :
    Bool → Prop where
  | joined {owner : ClassId} {s : Selector} : c.Takes func cls side owner s →
      c.Enlists (entriesOf owner [⟨s, func, side⟩]) d →
      d.program.overrides? func = c.program.declaredAbove? s side owner func →
      Recorded func cls side c d true
  | passed : (∀ owner s, ¬c.Takes func cls side owner s) → c.Unlisted d →
      Recorded func cls side c d false

namespace Compilation.Enlists

variable {added added' : ClassId → List MethodEntry}

theorem refl (c : Compilation) : c.Unlisted c where
  names := rfl
  source _ := rfl
  selector _ := rfl
  invalid _ h := h
  pairing _ := rfl
  classInvalid _ := rfl
  entries _ := (List.append_nil _).symm
  groups := rfl
  selectors := rfl
  aborted := rfl
  strategy := rfl

theorem trans (h : c.Enlists added d) (h' : d.Enlists added' e) :
    c.Enlists (fun x => added x ++ added' x) e where
  names := h'.names.trans h.names
  source f := (h'.source f).trans (h.source f)
  selector f := (h'.selector f).trans (h.selector f)
  invalid f hf := h'.invalid f (h.invalid f hf)
  pairing x := (h'.pairing x).trans (h.pairing x)
  classInvalid x := (h'.classInvalid x).trans (h.classInvalid x)
  entries x := by rw [h'.entries, h.entries, List.append_assoc]
  groups := h'.groups.trans h.groups
  selectors := h'.selectors.trans h.selectors
  aborted := h'.aborted.trans h.aborted
  strategy := h'.strategy.trans h.strategy

theorem unlisted_trans (h : c.Unlisted d) (h' : d.Enlists added e) : c.Enlists added e := h.trans h'

/-- A change of one function that keeps its source and its selector. -/
theorem modifyFunc {g : FuncDecl → FuncDecl} (hp : d.program = c.program.modifyFunc func g)
    (ht : d.session.selectors = c.session.selectors) (ha : d.session.aborted = c.session.aborted)
    (hs : d.session.strategy = c.session.strategy) (hsource : ∀ d, (g d).source = d.source)
    (hselector : ∀ d, (g d).selector = d.selector)
    (hinvalid : ∀ d, d.invalid = true → (g d).invalid = true) : c.Unlisted d where
  names := by rw [hp]; rfl
  source f := by
    rw [hp]
    exact read_modifyFunc FuncDecl.source hsource func f
  selector f := by
    rw [hp]
    exact read_modifyFunc FuncDecl.selector hselector func f
  invalid f hf := by
    rw [hp, funcAt_modifyFunc]
    split
    · exact hinvalid _ hf
    · exact hf
  pairing x := by rw [hp]; rfl
  classInvalid x := by rw [hp]; rfl
  entries x := by rw [hp, List.append_nil]; rfl
  groups := by rw [hp]; rfl
  selectors := ht
  aborted := ha
  strategy := hs

/-- An entry is put at the end of the list of a bound class. -/
theorem push {entry : MethodEntry} (log : Array Log.Message)
    (hb : (c.program.classAt owner).isBound = true) :
    c.Enlists (entriesOf owner [entry])
      { c with
        program := c.program.modifyClass owner fun d =>
          { d with info := d.info.map (·.pushMethod entry) }
        log } where
  names := rfl
  source _ := rfl
  selector _ := rfl
  invalid _ h := h
  pairing x := by
    refine read_modifyClass (fun d => d.info.map fun i => (i.role, i.paired)) (fun d => ?_) owner x
    cases d.info <;> rfl
  classInvalid x := by
    refine read_modifyClass ClassDecl.invalid (fun d => ?_) owner x
    rfl
  entries x := by
    obtain ⟨i, hi⟩ := Option.isSome_iff_exists.1 hb
    change (c.program.modifyClass owner _).entries x = _
    rw [Program.entries, classAt_modifyClass, entriesOf]
    by_cases hx : x = owner
    · subst hx
      rw [if_pos ⟨rfl, contains_of_info hi⟩, if_pos rfl, entries_of_info hi]
      change ((((c.program.classAt x).info.map _).map _).getD []) = _
      rw [hi]
      rfl
    · rw [if_neg fun h => hx h.1, if_neg hx, List.append_nil]
      rfl
  groups := rfl
  selectors := rfl
  aborted := rfl
  strategy := rfl

theorem isStatic (h : c.Enlists added d) (f : FuncId) :
    (d.program.funcAt f).isStatic = (c.program.funcAt f).isStatic := by
  have hs := congrArg FuncDecl.isStatic (h.source f)
  exact hs

theorem listOwner_eq (h : c.Enlists added d) (cls : ClassId) :
    d.program.listOwner? cls = c.program.listOwner? cls := by
  rw [listOwner?_eq, h.pairing, ← listOwner?_eq]

/-- A list that takes a function now would have taken it before. -/
theorem takes (h : c.Enlists added d) (ht : d.Takes func cls side owner s) :
    c.Takes func cls side owner s where
  fits := by
    obtain ⟨hselector, hparent, hlinkage, htemplate, harity⟩ := ht.fits
    have hsource := h.source func
    refine ⟨?_, ?_, ?_, ?_, ?_⟩
    · rw [← h.selector, hselector]
    · exact (congrArg FuncDecl.parent hsource).symm.trans hparent
    · exact (congrArg FuncDecl.linkage hsource).symm.trans hlinkage
    · exact (congrArg FuncDecl.isTemplate hsource).symm.trans htemplate
    · have hcount := congrArg FuncDecl.explicitCount hsource
      rw [FuncDecl.explicitCount_source, FuncDecl.explicitCount_source] at hcount
      rw [← h.selectors, harity, hcount]
  valid := by
    rw [← Bool.not_eq_true]
    exact fun hv => Bool.false_ne_true (ht.valid.symm.trans (h.invalid func hv))
  listOwner := by rw [← h.listOwner_eq, ht.listOwner]
  bound := by rw [isBound_eq, ← h.pairing, ← isBound_eq, ht.bound]
  ownerValid := by rw [← h.classInvalid, ht.ownerValid]
  new e he := ht.new e (h.entries owner ▸ List.mem_append_left _ he)

end Compilation.Enlists

/-! ## Checks -/

namespace Resolve

variable {α : Type} {P : α → Compilation → Prop}

theorem reject_unlisted {err : BindError} {E : BindError → Compilation → Prop}
    (hs : (c.program.funcAt func).selector = some s)
    (hE : ∀ d, c.Unlisted d → (d.program.funcAt func).invalid = true → E err d) :
    Outcome (reject (.funcDecl func) err : Resolve α) c P E := by
  refine outcome_reject.2 (hE _ (.modifyFunc rfl rfl rfl rfl (fun _ => rfl) (fun f => ?_)
    fun _ _ => rfl) ?_)
  · cases hi : f.info <;> simp [FuncDecl.selector, hi]
  · change ((c.program.modifyFunc func _).funcAt func).invalid = true
    rw [funcAt_modifyFunc, if_pos ⟨rfl, containsFunc_of_selector hs⟩]

/-- The check of a valid function that has a selector leaves everything as it is, unless the
selector does not suit the function. -/
theorem validateSelector_unlisted (hs : (c.program.funcAt func).selector = some s)
    (hv : (c.program.funcAt func).invalid = false) :
    Outcome (validateSelector func) c (fun _ d => d = c ∧ Validated c func s)
      fun _ d => ¬Validated c func s ∧ c.Unlisted d :=
  outcome_validateSelector hs hv (fun h => ⟨rfl, h⟩) fun _ _ hn =>
    reject_unlisted hs fun _ hd _ => ⟨hn, hd⟩

/-- The check of the linkage of a valid function that has a selector. -/
theorem checkLinkage_unlisted (hs : (c.program.funcAt func).selector = some s)
    (hv : (c.program.funcAt func).invalid = false) :
    Outcome (checkLinkage func) c
      (fun _ d => (c.program.funcAt func).linkage = .objc ∧ c.Unlisted d ∧
        d.program.classes = c.program.classes ∧ (d.program.funcAt func).invalid = false)
      fun _ d => (c.program.funcAt func).linkage ≠ .objc ∧ c.Unlisted d := by
  refine outcome_checkLinkage hs hv (fun hl => ?_) fun _ _ hl =>
    reject_unlisted hs fun _ hd _ => ⟨hl, hd⟩
  refine ⟨hl, .modifyFunc rfl rfl rfl rfl (fun _ => rfl) (fun f => ?_) fun _ h => h, rfl, ?_⟩
  · cases hi : f.info <;> simp [FuncDecl.selector, hi]
  · refine (read_modifyFunc FuncDecl.invalid (fun _ => ?_) func func).trans hv
    rfl

/-! ## Joining -/

theorem pushMethod_enlists (hb : (c.program.classAt owner).isBound = true)
    (hs : (c.program.funcAt func).selector = some s) :
    Outcome (pushMethod func owner s side) c
      (fun _ d => c.Enlists (entriesOf owner [⟨s, func, side⟩]) d ∧
        d.program.overrides? func = c.program.declaredAbove? s side owner func)
      fun _ _ => False := by
  obtain ⟨i, hi, -⟩ := Option.map_eq_some_iff.1 hs
  have hnoted : c.Unlisted
      { c with
        program := c.program.modifyFunc func fun d =>
          { d with
            info := d.info.map fun i =>
              { i with overrides := c.program.declaredAbove? s side owner func } } } := by
    refine .modifyFunc rfl rfl rfl rfl (fun _ => rfl) (fun f => ?_) fun _ h => h
    cases hf : f.info <;> simp [FuncDecl.selector, hf]
  refine outcome_bind.2 (outcome_program.2 (outcome_bind.2 (outcome_updateProgram.2 (outcome_bind.2
    (outcome_updateProgram.2 (outcome_bind.2 (outcome_selectors.2 (outcome_say.2 ?_))))))))
  refine ⟨hnoted.unlisted_trans (.push _ hb), ?_⟩
  · change ((c.program.modifyFunc func _).funcAt func).info.bind _ = _
    rw [funcAt_modifyFunc, if_pos ⟨rfl, containsFunc_of_info hi⟩, hi]
    rfl

theorem declaredAbove?_of_classes {p q : Program} (h : q.classes = p.classes) :
    q.declaredAbove? s side owner func = p.declaredAbove? s side owner func := by
  have hclassAt : q.classAt = p.classAt := by
    funext x
    rw [classAt, classAt, h]
  have hsuper : q.superclass? = p.superclass? := by
    funext x
    rw [superclass?, superclass?, hclassAt]
  have hdeclares : q.declares s side func = p.declares s side func := by
    funext x
    rw [declares, declares, hclassAt]
  simp only [declaredAbove?, declaringClass?, lineage, hsuper, hdeclares, h]

theorem recordMember_recorded (hs : (c.program.funcAt func).selector = some s)
    (hv : (c.program.funcAt func).invalid = false)
    (hp : (c.program.funcAt func).parent = some owner)
    (hl : c.program.listOwner? cls = some owner)
    (hb : (c.program.classAt owner).isBound = true)
    (ho : (c.program.classAt owner).invalid = false) :
    Outcome (recordMember func owner s side) c
      (fun added d => Recorded func cls side c d added)
      fun _ d => Recorded func cls side c d false := by
  have hpassed {d : Compilation} (hd : c.Unlisted d) (hnot : ¬c.Takes func cls side owner s) :
      Recorded func cls side c d false := by
    refine .passed (fun owner' s' h => hnot ?_) hd
    obtain rfl : s = s' := Option.some.inj (hs.symm.trans h.fits.selector)
    obtain rfl : owner = owner' := Option.some.inj (hl.symm.trans h.listOwner)
    exact h
  have hmember : c.program.isBoundMember func = true := by
    rw [isBoundMember, hp, Option.any_some, hb]
  refine outcome_bind.2 (outcome_mono (validateSelector_unlisted hs hv) ?_ fun _ d hd =>
    hpassed hd.2 fun h => hd.1 ⟨h.fits.template, hmember, h.fits.arity⟩)
  rintro _ c ⟨rfl, htemplate, -, harity⟩
  refine outcome_bind.2 (outcome_mono (checkLinkage_unlisted hs hv) ?_ fun _ d hd =>
    hpassed hd.2 fun h => hd.1 h.fits.linkage)
  rintro _ d ⟨hlinkage, hd, hclasses, hvd⟩
  have hclassAt : d.program.classAt owner = c.program.classAt owner := by
    rw [classAt, hclasses, classAt]
  obtain ⟨i, hi⟩ := Option.isSome_iff_exists.1 hb
  refine outcome_bind.2 (outcome_program.2 ?_)
  rw [hclassAt, hi, Option.bind_some]
  split
  · rename_i existing hfind
    have hnot : ¬c.Takes func cls side owner s := by
      intro h
      have hmem := List.mem_of_find?_eq_some hfind
      have hkey := List.find?_some hfind
      rw [← entries_of_info hi] at hmem
      rw [Bool.and_eq_true, beq_iff_eq, beq_iff_eq] at hkey
      exact h.new existing hmem hkey
    split
    · exact hpassed hd hnot
    · exact outcome_bind.2 (outcome_selectors.2
        (reject_unlisted (hd.selector func ▸ hs) fun e he _ =>
          hpassed (hd.unlisted_trans he) hnot))
  · rename_i hfind
    have htakes : c.Takes func cls side owner s := by
      refine ⟨⟨hs, hp, hlinkage, htemplate, harity⟩, hv, hl, hb, ho, fun e he hkey => ?_⟩
      rw [entries_of_info hi] at he
      have hnone := List.find?_eq_none.1 hfind e he
      rw [Bool.and_eq_true, beq_iff_eq, beq_iff_eq] at hnone
      exact hnone hkey
    refine outcome_bind.2 (outcome_mono (pushMethod_enlists (hclassAt ▸ hb) ?_) ?_
      fun _ _ => False.elim)
    · rw [hd.selector, hs]
    · rintro _ e ⟨he, hover⟩
      exact .joined htakes (hd.unlisted_trans he)
        (hover.trans (declaredAbove?_of_classes hclasses))

/-- In any compilation: a function joins the list that takes it, and else no list changes. -/
theorem record_recorded (func : FuncId) (cls : ClassId) (side : Bool) (c : Compilation) :
    Outcome (record func cls side) c (fun added d => Recorded func cls side c d added)
      fun _ d => Recorded func cls side c d false := by
  refine outcome_bind.2 (outcome_program.2 ?_)
  dsimp only
  split
  · rename_i s owner hs hl
    split
    · rename_i h
      refine .passed (fun owner' s' ht => ?_) (.refl c)
      obtain rfl : owner = owner' := Option.some.inj (hl.symm.trans ht.listOwner)
      rw [ht.valid, ht.ownerValid, ht.bound] at h
      cases h
    · rename_i h
      simp only [Bool.or_eq_true, not_or, Bool.not_eq_true, Bool.not_eq_true', Bool.not_eq_false]
        at h
      obtain ⟨⟨hv, ho⟩, hb⟩ := h
      split
      · rename_i hp
        refine outcome_refuse.2
          (.passed (fun owner' s' ht => hp ?_) { Compilation.Enlists.refl c with })
        obtain rfl : owner = owner' := Option.some.inj (hl.symm.trans ht.listOwner)
        exact ht.fits.parent
      · rename_i hp
        rw [ne_eq, Decidable.not_not] at hp
        exact recordMember_recorded hs hv hp hl hb ho
  · rename_i hnone
    exact .passed (fun owner s ht => hnone s owner ht.fits.selector ht.listOwner) (.refl c)

theorem finish_recordMethod (func : FuncId) (cls : ClassId) (c : Compilation) :
    finish (recordMethod func cls) c =
      finish (record func cls (c.program.funcAt func).isStatic) c := by
  unfold finish recordMethod
  simp only [bind_apply, program_apply]
  cases record func cls (c.program.funcAt func).isStatic c <;> rfl

theorem finish_session_recordMethod (ha : c.session.aborted = false)
    (hs : c.session.strategy = .functional) (func : FuncId) (cls : ClassId) :
    finish (Session.recordMethod func cls) c =
      finish (record func cls (c.program.funcAt func).isStatic) c := by
  rw [← finish_recordMethod, finish, finish, Session.recordMethod, guarded_of_functional ha hs]

theorem finish_record_recorded (func : FuncId) (cls : ClassId) (side : Bool) (c : Compilation) :
    ∃ added, Recorded func cls side c (finish (record func cls side) c) added := by
  refine (outcome_finish (P := fun d => ∃ added, Recorded func cls side c d added)).1
    (outcome_mono (record_recorded func cls side c) ?_ ?_)
  · exact fun added _ h => ⟨added, h⟩
  · exact fun _ _ h => ⟨false, h⟩

end Resolve

end ObjcBinding
