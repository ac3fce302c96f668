import ObjcBinding.Proofs.Steps.Entries
import ObjcBinding.Proofs.Steps.Functions

/-!
# The trails of binding functions

Binding a function touches that function only, until it joins the list of its class. `Listing`
names the deeds by which functions are bound, given which of them join which lists on which side.

* `assignSelector_leaves`: a valid Objective-C member of a bound class ends up with a selector;
* `record_leaves`: a valid member that has a selector joins the list of its class, or is rejected.
-/

namespace ObjcBinding

variable {c d : Compilation} {func : FuncId}

/-- The deeds by which functions are bound; `lists func owner isClassMethod` tells which functions
may join the list of which class on which side. No name gets a meaning but that of the hidden
parameter. -/
def Listing (lists : FuncId → ClassId → Bool → Prop) (c : Compilation) : Deed → Prop
  | .record func owner isClassMethod => lists func owner isClassMethod
  | .declare name entry =>
    c.program.names.resolve name = some selectorParamName ∧ ∃ func index, entry = .param func index
  | .abort | .mark _ | .pair _ | .rejectClass _ => False
  | _ => True

theorem Program.containsFunc_of_selector {p : Program} {s : Selector}
    (h : (p.funcAt func).selector = some s) : p.funcs.contains func = true := by
  obtain ⟨i, hi, -⟩ := Option.map_eq_some_iff.1 h
  exact containsFunc_of_info hi

theorem Program.containsFunc_of_attr {p : Program} {attr : SelectorAttr}
    (h : attr ∈ (p.funcAt func).attrs) : p.funcs.contains func = true := by
  refine containsFunc_of_ne fun hd => ?_
  rw [hd] at h
  cases h

/-- The error of an attribute that stands for no text is found at the attribute. -/
theorem Program.attrText_blame {p : Program} {scope : ScopeId} {attr : SelectorAttr}
    {e : BindError} (h : p.attrText scope attr = .error e) :
    e.blame = .method ∧ e.span = attr.span := by
  unfold attrText at h
  split at h
  · cases h
  · split at h
    · cases h
    · cases h
      exact ⟨rfl, rfl⟩

variable {lists : FuncId → ClassId → Bool → Prop}

/-- The class in whose list the methods are recorded. -/
def MethodSource.target (p : Program) : MethodSource → ClassId
  | .body cls => cls
  | .group id => (p.groupAt id).target

theorem Program.listOwner?_eq (p : Program) (cls : ClassId) :
    p.listOwner? cls = (p.pairing cls).bind fun r =>
      if r.1 = .metaclass then r.2 else some cls := by
  rw [listOwner?, pairing]
  cases (p.classAt cls).info with
  | none => rfl
  | some i => simp [ClassInfo.isMetaclass]

/-- Listing deeds change nobody's role or partner. -/
theorem Trail.pairing_eq (h : Trail (Listing lists) c d) (cls : ClassId) :
    d.program.pairing cls = c.program.pairing cls := by
  refine h.invariant (I := fun d => d.program.pairing cls = c.program.pairing cls) ?_ rfl
  intro c d deed hp hstep hc
  rw [← hc, hstep.pairing_eq]
  · rintro x rfl
    exact hp
  · rintro x rfl
    exact hp

theorem Trail.classInvalid_eq (h : Trail (Listing lists) c d) (cls : ClassId) :
    (d.program.classAt cls).invalid = (c.program.classAt cls).invalid := by
  refine h.invariant (I := fun d => (d.program.classAt cls).invalid =
    (c.program.classAt cls).invalid) ?_ rfl
  intro d e deed hp hstep hd
  rw [← hd, hstep.classInvalid_eq]
  rintro x rfl
  exact hp

/-- From `c` to `d` the function has joined the list of the class on the given side, unless it was
there before. -/
structure Joins (c d : Compilation) (func : FuncId) (cls : ClassId) (isClassMethod : Bool) :
    Prop where
  mem : (func, isClassMethod) ∈ d.program.listed cls
  last : (∀ e ∈ c.program.entries cls, e.func ≠ func) →
    d.program.listed cls = c.program.listed cls ++ [(func, isClassMethod)]

theorem Joins.of_entries {cls : ClassId} {s : Selector} {isClassMethod : Bool}
    (h : d.program.entries cls = c.program.entries cls ++ [⟨s, func, isClassMethod⟩]) :
    Joins c d func cls isClassMethod := by
  have hlisted : d.program.listed cls = c.program.listed cls ++ [(func, isClassMethod)] := by
    rw [Program.listed, h, List.map_append]
    rfl
  refine ⟨?_, fun _ => hlisted⟩
  rw [hlisted]
  exact List.mem_append_right _ List.mem_cons_self

theorem Joins.of_eq {b : Compilation} {cls : ClassId} {isClassMethod : Bool}
    (h : Joins c d func cls isClassMethod) (hb : c.program.entries cls = b.program.entries cls) :
    Joins b d func cls isClassMethod where
  mem := h.mem
  last := fun hnew => by
    rw [h.last (hb ▸ hnew), Program.listed, hb]
    rfl

theorem Trail.listOwner_eq (h : Trail (Listing lists) c d) (cls : ClassId) :
    d.program.listOwner? cls = c.program.listOwner? cls := by
  rw [Program.listOwner?_eq, h.pairing_eq, ← Program.listOwner?_eq]

namespace Resolve

/-! ## Selectors -/

/-- Taking over a table in which a pair was interned does not fail. -/
theorem adopt_outcome (lists : FuncId → ClassId → Bool → Prop) (text : String) (arity : Nat)
    (c : Compilation) :
    Outcome
      (adopt (c.session.selectors.intern text arity).1 (c.session.selectors.intern text arity).2)
      c (fun s d => Trail (Listing lists) c d ∧ d.program = c.program ∧
        d.session.selectors.get? s = some ⟨text, arity⟩)
      fun _ _ => False := by
  have hget := c.session.selectors.get?_intern text arity
  have hsay (level : Log.Level) (origin : Log.Origin) (text : String) :
      Trail (Listing lists) c (c.say level origin text) := .single (.say _) trivial
  refine outcome_bind.2 (outcome_selectors.2 ?_)
  dsimp only
  split
  · refine outcome_bind.2 (outcome_say.2 (outcome_bind.2 (outcome_modify.2 ?_)))
    exact ⟨(hsay ..).tail (.adopt text arity) trivial, rfl, hget⟩
  · refine outcome_bind.2 (outcome_modify.2 ?_)
    exact ⟨.single (.adopt text arity) trivial, rfl, hget⟩

theorem internSelector_leaves (text : String) (arity : Nat) (c : Compilation) :
    Leaves (Listing lists) (internSelector text arity) c fun _ _ => True :=
  leaves_selectors (outcome_mono (adopt_outcome lists text arity c) (fun _ _ h => ⟨h.1, trivial⟩)
    fun _ _ => False.elim)

/-- A selector is looked up by a text that follows the grammar. The error is not reported. -/
theorem lookupSelector_outcome (lists : FuncId → ClassId → Bool → Prop) (text : String)
    (span : Span) (c : Compilation) :
    Outcome (lookupSelector text span) c
      (fun s d => Trail (Listing lists) c d ∧ d.program = c.program ∧
        d.session.selectors.Valid s)
      (fun e d => d = c ∧ e.blame = .method ∧ e.span = span) := by
  unfold lookupSelector Selector.Table.lookup
  simp only [outcome_bind, outcome_selectors]
  cases ha : Selector.arity text with
  | error fault => exact ⟨rfl, rfl, rfl⟩
  | ok n =>
    refine outcome_mono (adopt_outcome lists text n c) ?_ fun _ _ => False.elim
    rintro s d ⟨ht, hp, hs⟩
    exact ⟨ht, hp, _, hs, ha⟩

/-- An error that is charged to a valid function is reported. -/
theorem rejecting_leaves {α : Type} {x : Resolve α} {P : α → Compilation → Prop}
    (hv : (c.program.funcAt func).invalid = false)
    (hx : Outcome x c (fun a d => Trail (Listing lists) c d ∧ P a d)
      fun e d => d = c ∧ c.program.Blames func e) :
    LeavesOr (Listing lists) (rejecting func x) c P (·.Rejected func) := by
  refine outcome_tryCatch.2 (outcome_mono hx (fun _ _ h => h) ?_)
  rintro e d ⟨rfl, he⟩
  exact leaves_reject_func trivial he hv fun _ => Change.rejected

/-- A function gets no selector only if it has no attribute and is not to be called by messages. -/
theorem chooseSelector_leaves (scope : ScopeId) (hv : (c.program.funcAt func).invalid = false) :
    LeavesOr (Listing lists) (chooseSelector func scope) c
      (fun a d => d.program = c.program ∧ (∀ s, a = some s → d.session.selectors.Valid s) ∧
        (a = none → ((c.program.funcAt func).linkage = .objc && c.program.isBoundMember func) =
          false))
      (·.Rejected func) := by
  have hsome {x : Resolve Selector} {span : Span}
      (hc : c.program.funcs.contains func = true)
      (hspan : span = (c.program.funcAt func).span ∨
        ∃ attr ∈ (c.program.funcAt func).attrs, span = attr.span)
      (hx : Outcome x c
        (fun s d => Trail (Listing lists) c d ∧ d.program = c.program ∧
          d.session.selectors.Valid s)
        fun e d => d = c ∧ e.blame = .method ∧ e.span = span) :
      LeavesOr (Listing lists) (some <$> rejecting func x) c
        (fun a d => d.program = c.program ∧ (∀ s, a = some s → d.session.selectors.Valid s) ∧
          (a = none → ((c.program.funcAt func).linkage = .objc &&
            c.program.isBoundMember func) = false))
        (·.Rejected func) := by
    have hblames : Outcome x c
        (fun s d => Trail (Listing lists) c d ∧ d.program = c.program ∧
          d.session.selectors.Valid s)
        fun e d => d = c ∧ c.program.Blames func e :=
      outcome_mono hx (fun _ _ h => h) fun _ _ ⟨hd, hb, hs⟩ => ⟨hd, hb, hc, hs ▸ hspan⟩
    refine outcome_map.2 ?_
    refine outcome_mono (rejecting_leaves hv hblames) ?_ fun _ _ h => h
    rintro s d ⟨ht, hp, hs⟩
    refine ⟨ht, hp, ?_, fun h => by cases h⟩
    rintro _ ⟨⟩
    exact hs
  refine leaves_program ?_
  dsimp only
  split
  · split
    · rename_i hb
      rw [Bool.and_eq_true, decide_eq_true_iff] at hb
      exact hsome (Program.containsFunc_of_objc hb.1) (.inl rfl)
        (outcome_bind.2 (outcome_program.2 (lookupSelector_outcome lists _ _ c)))
    · rename_i hb
      refine leaves_pure ⟨rfl, fun _ h => (by cases h), fun _ => ?_⟩
      exact Bool.eq_false_iff.2 hb
  · rename_i attr hattr
    have hmem : attr ∈ (c.program.funcAt func).attrs := by
      rw [hattr]
      exact List.mem_cons_self
    have hc := Program.containsFunc_of_attr hmem
    split
    · exact hsome hc (.inr ⟨attr, hmem, rfl⟩) (lookupSelector_outcome lists _ _ c)
    · rename_i e he
      obtain ⟨hb, hs⟩ := Program.attrText_blame he
      exact leaves_reject_func trivial ⟨hb, hc, .inr ⟨attr, hmem, hs⟩⟩ hv fun _ => Change.rejected
  · rename_i first second rest hattrs
    have hmem : second ∈ (c.program.funcAt func).attrs := by
      rw [hattrs]
      exact List.mem_cons_of_mem first List.mem_cons_self
    exact leaves_reject_func trivial
      ⟨rfl, Program.containsFunc_of_attr hmem, .inr ⟨second, hmem, rfl⟩⟩ hv fun _ => Change.rejected

/-- A valid Objective-C member of a bound class ends up with a selector. -/
theorem assignSelector_leaves (func : FuncId) (scope : ScopeId) (c : Compilation) :
    LeavesOr (Listing lists) (assignSelector func scope) c
      (fun _ d => (c.program.funcAt func).invalid = false →
        (c.program.funcAt func).linkage = .objc → c.program.isBoundMember func = true →
          ∃ s, (d.program.funcAt func).selector = some s)
      (·.Rejected func) := by
  refine leaves_program ?_
  dsimp only
  split
  · rename_i s hs
    exact leaves_pure fun _ _ _ => ⟨s, hs⟩
  · rename_i hs
    split
    · rename_i hv
      refine leaves_pure fun hv' => ?_
      rw [hv] at hv'
      cases hv'
    · rename_i hv
      rw [Bool.not_eq_true] at hv
      refine leaves_bind (chooseSelector_leaves scope hv) ?_
      rintro a ⟨program, session, log⟩ - ⟨hp, hvalid, hnone⟩
      obtain rfl : program = c.program := hp
      split
      · refine leaves_pure fun _ ho hb => ?_
        rw [ho, hb] at hnone
        cases hnone rfl
      · rename_i s
        obtain ⟨e, he, har⟩ := hvalid s rfl
        refine leaves_change_bind rfl (.assign hs hv he har) trivial ?_
        refine leaves_selectors (leaves_change_bind rfl (.say _) trivial (leaves_pure ?_))
        intro _ ho _
        refine ⟨s, ?_⟩
        have hc := Program.containsFunc_of_objc ho
        change FuncDecl.selector ((c.program.modifyFunc func _).funcAt func) = some s
        rw [Program.funcAt_modifyFunc, if_pos ⟨rfl, hc⟩]
        rfl

/-! ## Checks -/

/-- What a function has passed that was validated. -/
structure Validated (c : Compilation) (func : FuncId) (s : Selector) : Prop where
  template : (c.program.funcAt func).isTemplate = false
  bound : c.program.isBoundMember func = true
  arity : c.session.selectors.arity s = (c.program.funcAt func).explicitCount

/-- A valid function that has a selector passes the check, or is rejected. -/
theorem outcome_validateSelector {s : Selector} {P : Unit → Compilation → Prop}
    {E : BindError → Compilation → Prop} (hs : (c.program.funcAt func).selector = some s)
    (hv : (c.program.funcAt func).invalid = false) (hpass : Validated c func s → P () c)
    (hreject : ∀ e : BindError, e.blame = .method → ¬Validated c func s →
      Outcome (reject (.funcDecl func) e : Resolve Unit) c P E) :
    Outcome (validateSelector func) c P E := by
  refine outcome_bind.2 (outcome_program.2 (outcome_bind.2 (outcome_selectors.2 ?_)))
  simp only [hs, hv, Bool.false_eq_true, if_false]
  split
  · rename_i ht
    exact hreject _ rfl fun h => Bool.false_ne_true (h.template.symm.trans ht)
  · rename_i ht
    split
    · rename_i hb
      refine hreject _ rfl fun h => ?_
      rw [h.bound] at hb
      cases hb
    · rename_i hb
      split
      · rename_i ha
        exact hreject _ rfl fun h => ha h.arity
      · rename_i ha
        exact hpass ⟨by simpa using ht, by simpa using hb, by simpa using ha⟩

/-- If its linkage is that of Objective-C, then it is noted, and else the function is rejected. -/
theorem outcome_checkLinkage {s : Selector} {P : Unit → Compilation → Prop}
    {E : BindError → Compilation → Prop} (hs : (c.program.funcAt func).selector = some s)
    (hv : (c.program.funcAt func).invalid = false)
    (hpass : (c.program.funcAt func).linkage = .objc → P ()
      { c with
        program := c.program.modifyFunc func fun d =>
          { d with info := d.info.map fun i => { i with dispatch := d.linkage.dispatch } } })
    (hreject : ∀ e : BindError, e.blame = .method → (c.program.funcAt func).linkage ≠ .objc →
      Outcome (reject (.funcDecl func) e : Resolve Unit) c P E) :
    Outcome (checkLinkage func) c P E := by
  obtain ⟨i, hi, -⟩ := Option.map_eq_some_iff.1 hs
  refine outcome_bind.2 (outcome_program.2 ?_)
  simp only [hi, hv, Option.isNone_some, Bool.or_self, Bool.false_eq_true, if_false]
  split
  · rename_i hl
    exact hreject _ rfl hl
  · rename_i hl
    rw [ne_eq, Decidable.not_not] at hl
    exact outcome_updateProgram.2 (hpass hl)

theorem validateSelector_leaves (func : FuncId) (c : Compilation) :
    LeavesOr (Listing lists) (validateSelector func) c
      (fun _ d => d = c ∧ ∀ s, (c.program.funcAt func).selector = some s →
        (c.program.funcAt func).invalid = false → Validated c func s)
      (·.Rejected func) := by
  refine leaves_program (leaves_selectors ?_)
  dsimp only
  split
  · rename_i hs
    refine leaves_pure ⟨rfl, fun s hs' => ?_⟩
    rw [hs] at hs'
    cases hs'
  · rename_i s hs
    split
    · rename_i hv
      refine leaves_pure ⟨rfl, fun _ _ hv' => ?_⟩
      rw [hv] at hv'
      cases hv'
    · rename_i hv
      rw [Bool.not_eq_true] at hv
      have hc := Program.containsFunc_of_selector hs
      split
      · exact leaves_reject_func trivial ⟨rfl, hc, .inl rfl⟩ hv fun _ => Change.rejected
      · rename_i ht
        split
        · exact leaves_reject_func trivial ⟨rfl, hc, .inl rfl⟩ hv fun _ => Change.rejected
        · rename_i hb
          split
          · exact leaves_reject_func trivial ⟨rfl, hc, .inl rfl⟩ hv fun _ => Change.rejected
          · rename_i ha
            refine leaves_pure ⟨rfl, fun s' hs' _ => ?_⟩
            rw [hs] at hs'
            cases hs'
            exact ⟨by simpa using ht, by simpa using hb, by simpa using ha⟩

/-- The linkage of a valid function that has a selector is recorded with it. -/
theorem checkLinkage_leaves (func : FuncId) (c : Compilation) :
    LeavesOr (Listing lists) (checkLinkage func) c
      (fun _ d => ((c.program.funcAt func).info ≠ none → (c.program.funcAt func).invalid = false →
          (c.program.funcAt func).linkage = .objc) ∧
        (d = c ∨ d = { c with
          program := c.program.modifyFunc func fun d =>
            { d with info := d.info.map fun i => { i with dispatch := d.linkage.dispatch } } }))
      (·.Rejected func) := by
  refine leaves_program ?_
  dsimp only
  split
  · rename_i h
    refine leaves_pure ⟨fun hi hv => ?_, .inl rfl⟩
    simp [hi, hv] at h
  · rename_i h
    simp only [Bool.or_eq_true, not_or, Bool.not_eq_true, Option.isNone_eq_false_iff,
      Option.isSome_iff_exists] at h
    obtain ⟨⟨i, hi⟩, hv⟩ := h
    have hc := Program.containsFunc_of_info hi
    split
    · exact leaves_reject_func trivial ⟨rfl, hc, .inl rfl⟩ hv fun _ => Change.rejected
    · rename_i hl
      have ho : (c.program.funcAt func).linkage = .objc := by simpa using hl
      exact leaves_change rfl (.confirm hv ho) trivial ⟨fun _ _ => ho, .inr rfl⟩

/-! ## The hidden parameter -/

/-- At this position the function has its hidden parameter. -/
def HiddenAt (c : Compilation) (func : FuncId) (index : Nat) : Prop :=
  ∃ param, (c.program.funcAt func).params[index]? = some param ∧ param.isHidden = true

theorem placeSelectorParam_outcome (lists : FuncId → ClassId → Bool → Prop) (name : Symbol)
    (hv : (c.program.funcAt func).invalid = false)
    (hn : (c.program.funcAt func).info.any (·.needsSelectorParam) = true) :
    Outcome (placeSelectorParam func name) c
      (fun index d => Trail (Listing lists) c d ∧ HiddenAt d func index) fun _ _ => False := by
  refine outcome_bind.2 (outcome_program.2 ?_)
  dsimp only
  split
  · rename_i index hi
    obtain ⟨hlt, hp, -⟩ := List.findIdx?_eq_some_iff_getElem.1 hi
    exact ⟨.refl _ c, _, List.getElem?_eq_getElem hlt, hp⟩
  · rename_i hi
    refine outcome_bind.2 (outcome_updateProgram.2 ?_)
    refine ⟨.single (.addParam hv hn hi) trivial,
      { name, label := none, type := .selector, span := (c.program.funcAt func).span
        implicit := true }, ?_, rfl⟩
    obtain ⟨i, hinfo, -⟩ := Option.any_eq_true _ _ |>.1 hn
    have hc := Program.containsFunc_of_info hinfo
    change ((c.program.modifyFunc func _).funcAt func).params[_]? = _
    rw [Program.funcAt_modifyFunc, if_pos ⟨rfl, hc⟩]
    exact List.getElem?_concat_length

/-- Exactly the valid functions that need it get the hidden parameter. -/
theorem addSelectorParam_outcome (lists : FuncId → ClassId → Bool → Prop) (func : FuncId)
    (scope : ScopeId) (c : Compilation) :
    Outcome (addSelectorParam func scope) c
      (fun a d => Trail (Listing lists) c d ∧
        ((c.program.funcAt func).info.any (·.needsSelectorParam) = true →
          (c.program.funcAt func).invalid = false →
            ∃ index, a = some ⟨func, index⟩ ∧ HiddenAt d func index) ∧
        ((c.program.funcAt func).info.any (·.needsSelectorParam) = false → a = none ∧ d = c))
      fun _ _ => False := by
  refine outcome_bind.2 (outcome_program.2 ?_)
  dsimp only
  split
  · rename_i h
    refine ⟨.refl _ c, fun hn hv => ?_, fun _ => ⟨rfl, rfl⟩⟩
    simp [hn, hv] at h
  · rename_i h
    simp only [Bool.or_eq_true, Bool.not_eq_true', not_or, Bool.not_eq_false, Bool.not_eq_true] at h
    obtain ⟨hn, hv⟩ := h
    refine outcome_bind.2 (outcome_modifyGetProgram.2 (outcome_bind.2 ?_))
    have hintern : Trail (Listing lists) c
        { c with program := (c.program.intern selectorParamName).2 } :=
      .single (.intern _) trivial
    refine outcome_mono (placeSelectorParam_outcome lists _ hv hn) ?_ fun _ _ => False.elim
    rintro index d ⟨ht, hhid⟩
    have hname := ht.extends.program.names _ _ (c.program.resolve_intern selectorParamName)
    refine outcome_bind.2 (outcome_program.2 ?_)
    have hdone (e : Compilation) (he : Trail (Listing lists) d e)
        (hf : e.program.funcs = d.program.funcs) :
        Trail (Listing lists) c e ∧
          ((c.program.funcAt func).info.any (·.needsSelectorParam) = true →
            (c.program.funcAt func).invalid = false →
              ∃ i, some (ParamRef.mk func index) = some ⟨func, i⟩ ∧ HiddenAt e func i) ∧
          ((c.program.funcAt func).info.any (·.needsSelectorParam) = false →
            some (ParamRef.mk func index) = none ∧ e = c) := by
      refine ⟨(hintern.trans ht).trans he, fun _ _ => ⟨index, rfl, ?_⟩, fun hn' => ?_⟩
      · obtain ⟨param, hp, hhidden⟩ := hhid
        exact ⟨param, by rw [Program.funcAt, hf]; exact hp, hhidden⟩
      · rw [hn] at hn'
        cases hn'
    split
    · rename_i q hq
      obtain ⟨scopes, rfl⟩ := Program.scopes_of_declare hq
      exact hdone _ (.single (.declare _ _ _ hq) ⟨hname, func, index, rfl⟩) rfl
    · split
      · exact hdone _ (.single (.say _) trivial) rfl
      · exact hdone _ (.refl _ d) rfl

/-! ## Method lists -/

theorem pushMethod_leaves {E : Compilation → Prop} {owner cls : ClassId} {s : Selector}
    {i : ClassInfo} {side : Bool}
    (hw : lists func owner side) (hfit : c.Fits func owner s)
    (hv : (c.program.funcAt func).invalid = false)
    (hl : c.program.listOwner? cls = some owner) (hi : (c.program.classAt owner).info = some i)
    (ho : (c.program.classAt owner).invalid = false) (hnew : i.findMethod s side = none) :
    LeavesOr (Listing lists) (pushMethod func owner s side) c
      (fun _ d => d.program.entries owner = c.program.entries owner ++ [⟨s, func, side⟩]) E := by
  refine leaves_program (outcome_bind.2 (outcome_updateProgram.2 (outcome_bind.2
    (outcome_updateProgram.2 ?_))))
  refine ⟨.tail (.single (.record cls side _ hfit hv hl hi ho hnew rfl) hw) (.say _) trivial, ?_⟩
  change Program.entries (Program.modifyClass _ owner _) owner = _
  rw [Program.entries, Program.classAt_modifyClass, if_pos ⟨rfl, Program.contains_of_info hi⟩,
    Program.entries_of_info hi]
  change ((((c.program.classAt owner).info.map _).map _).getD []) = _
  rw [hi]
  rfl

theorem recordMember_leaves {owner cls : ClassId} {s : Selector} {i : ClassInfo} (side : Bool)
    (hw : lists func owner side) (hs : (c.program.funcAt func).selector = some s)
    (hv : (c.program.funcAt func).invalid = false)
    (hp : (c.program.funcAt func).parent = some owner)
    (hl : c.program.listOwner? cls = some owner) (hi : (c.program.classAt owner).info = some i)
    (ho : (c.program.classAt owner).invalid = false) :
    LeavesOr (Listing lists) (recordMember func owner s side) c
      (fun _ d => Joins c d func owner side) (·.Rejected func) := by
  refine leaves_bind (validateSelector_leaves func c) ?_
  rintro _ c - ⟨rfl, hvalidated⟩
  obtain ⟨htemplate, -, harity⟩ := hvalidated s hs hv
  refine leaves_bind (checkLinkage_leaves func c) ?_
  rintro _ d ht ⟨hlinkage, hd⟩
  have hobjc := hlinkage (fun h => by simp [FuncDecl.selector, h] at hs) hv
  -- recording the linkage changes nothing that is asked from here on
  obtain ⟨hclasses, hsession, hvd⟩ : d.program.classes = c.program.classes ∧
      d.session = c.session ∧ (d.program.funcAt func).invalid = false := by
    rcases hd with rfl | rfl
    · exact ⟨rfl, rfl, hv⟩
    · refine ⟨rfl, rfl, (Program.read_modifyFunc FuncDecl.invalid (fun _ => ?_) func func).trans hv⟩
      rfl
  have hfit : d.Fits func owner s :=
    Compilation.Fits.of_extends ⟨hs, hp, hobjc, htemplate, harity⟩ ht.extends (by rw [hsession])
  have hclassAt : d.program.classAt = c.program.classAt := by
    funext x
    rw [Program.classAt, Program.classAt, hclasses]
  rw [← hclassAt] at hi ho
  have hld : d.program.listOwner? cls = some owner := by
    rw [Program.listOwner?, hclassAt]
    exact hl
  have hentries : c.program.entries owner = d.program.entries owner := by
    rw [Program.entries, Program.entries, hclassAt]
  refine leaves_program ?_
  split
  · rename_i existing hfind
    rw [hi, Option.bind_some] at hfind
    split
    · rename_i he
      have hmem := List.mem_of_find?_eq_some hfind
      have hside := List.find?_some hfind
      rw [Bool.and_eq_true, beq_iff_eq, beq_iff_eq] at hside
      rw [← Program.entries_of_info hi] at hmem
      refine leaves_pure ⟨List.mem_map.2 ⟨existing, hmem, ?_⟩, fun hnew => ?_⟩
      · rw [he, hside.2]
      · rw [hentries] at hnew
        exact absurd he (hnew existing hmem)
    · have hc := Program.containsFunc_of_objc hfit.linkage
      exact leaves_selectors
        (leaves_reject_func trivial ⟨rfl, hc, .inl rfl⟩ hvd fun _ => Change.rejected)
  · rename_i hfind
    rw [hi, Option.bind_some] at hfind
    refine leaves_bind (pushMethod_leaves hw hfit hvd hld hi ho hfind) ?_
    rintro _ e - hpushed
    exact leaves_pure (Joins.of_eq (.of_entries hpushed) hentries.symm)

/-- A valid member of a valid class that has a selector joins the list, or else it is rejected. -/
theorem record_leaves (func : FuncId) (cls : ClassId) (side : Bool)
    (hw : ∀ owner, c.program.listOwner? cls = some owner → lists func owner side) :
    LeavesOr (Listing lists) (record func cls side) c
      (fun _ d => ((c.program.funcAt func).selector = none → d = c) ∧
        ∀ s, (c.program.funcAt func).selector = some s → (c.program.funcAt func).invalid = false →
          c.program.listOwner? cls = some cls → (c.program.classAt cls).invalid = false →
            Joins c d func cls side)
      fun d => (c.program.funcAt func).parent = c.program.listOwner? cls → d.Rejected func := by
  refine leaves_program ?_
  dsimp only
  split
  · rename_i s owner hs hl
    split
    · rename_i h
      refine leaves_pure ⟨fun hs' => absurd (hs.symm.trans hs') nofun, fun s' _ hv hl' ho => ?_⟩
      rw [hl] at hl'
      cases hl'
      obtain ⟨i, hi, -⟩ := Option.bind_eq_some_iff.1 hl
      simp [hv, ho, ClassDecl.isBound, hi] at h
    · rename_i h
      simp only [Bool.or_eq_true, not_or, Bool.not_eq_true, Bool.not_eq_true', Bool.not_eq_false]
        at h
      obtain ⟨⟨hv, ho⟩, hb⟩ := h
      obtain ⟨i, hi⟩ := Option.isSome_iff_exists.1 hb
      split
      · rename_i hp
        exact leaves_refuse trivial rfl fun _ _ hown => absurd (hown.trans hl) hp
      · rename_i hp
        rw [ne_eq, Decidable.not_not] at hp
        have hmember := recordMember_leaves side (hw owner hl) hs hv hp hl hi ho
        refine hmember.mono (fun _ _ _ h => h) ?_ fun _ _ h _ => h
        intro _ d _ hjoins
        refine ⟨fun hs' => absurd (hs.symm.trans hs') nofun, fun s' hs' _ hl' _ => ?_⟩
        rw [hl] at hl'
        cases hl'
        exact hjoins
  · rename_i hnone
    refine leaves_pure ⟨fun _ => rfl, fun s hs _ hl => ?_⟩
    exact absurd hl (hnone s cls hs)

theorem recordMethod_leaves (func : FuncId) (cls : ClassId)
    (hw : ∀ owner, c.program.listOwner? cls = some owner →
      lists func owner (c.program.funcAt func).isStatic) :
    LeavesOr (Listing lists) (recordMethod func cls) c
      (fun _ d => ((c.program.funcAt func).selector = none → d = c) ∧
        ∀ s, (c.program.funcAt func).selector = some s → (c.program.funcAt func).invalid = false →
          c.program.listOwner? cls = some cls → (c.program.classAt cls).invalid = false →
            Joins c d func cls (c.program.funcAt func).isStatic)
      fun d => (c.program.funcAt func).parent = c.program.listOwner? cls → d.Rejected func := by
  refine leaves_program (leaves_bind (record_leaves func cls _ hw) ?_)
  intro _ d _ hd
  exact leaves_pure hd

theorem recordAll_leaves (cls : ClassId) (l : List (FuncId × Bool)) (c : Compilation)
    (hw : ∀ owner, c.program.listOwner? cls = some owner → ∀ e ∈ l, lists e.1 owner e.2) :
    Leaves (Listing lists) (recordAll cls l) c fun _ _ => True := by
  induction l generalizing c with
  | nil => exact leaves_pure trivial
  | cons head rest ih =>
    obtain ⟨func, side⟩ := head
    refine leaves_then ?_ fun _ d ht => leaves_then (ih d ?_) fun _ _ _ => leaves_pure trivial
    · have hrecord : LeavesOr (Listing lists) _ c _ _ :=
        record_leaves func cls side fun owner ho => hw owner ho (func, side) List.mem_cons_self
      refine outcome_tryCatch.2 (outcome_mono hrecord ?_ ?_)
      · exact fun _ _ h => ⟨h.1, trivial⟩
      · exact fun _ _ h => ⟨h.1, trivial⟩
    · intro owner ho e he
      rw [ht.listOwner_eq] at ho
      exact hw owner ho e (List.mem_cons_of_mem _ he)

theorem recordMethods_leaves (source : MethodSource) (ofInstances ofClass : List FuncId)
    (c : Compilation)
    (hw : ∀ owner, c.program.listOwner? (source.target c.program) = some owner →
      ∀ func side, func ∈ (if side then ofClass else ofInstances) → lists func owner side) :
    Leaves (Listing lists) (recordMethods source ofInstances ofClass) c fun _ _ => True := by
  have hall (owner : ClassId)
      (ho : c.program.listOwner? (source.target c.program) = some owner) :
      ∀ e ∈ ofInstances.map (·, false) ++ ofClass.map (·, true), lists e.1 owner e.2 := by
    intro e he
    rcases List.mem_append.1 he with he | he
    · obtain ⟨func, hf, rfl⟩ := List.mem_map.1 he
      exact hw owner ho func false hf
    · obtain ⟨func, hf, rfl⟩ := List.mem_map.1 he
      exact hw owner ho func true hf
  unfold recordMethods
  dsimp only
  split
  · exact recordAll_leaves _ _ c hall
  · refine leaves_program ?_
    split
    · exact recordAll_leaves _ _ c hall
    · exact leaves_change_bind rfl (.say _) trivial (leaves_pure trivial)

end Resolve

end ObjcBinding
