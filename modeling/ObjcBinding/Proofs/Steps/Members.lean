import ObjcBinding.Proofs.Steps.InnerScopes
import ObjcBinding.Proofs.Steps.Listing

/-!
# What becomes of a member

A member of a bound class is given a selector, checked, given its hidden parameter in a scope of
its own, and put into the list of the class. Nothing else is touched meanwhile, so that a member
that is rejected leaves nothing behind that the others could see.

* `Program.methodText?`: the text under which a member may be listed;
* `Compilation.Attends`: what all steps of the way leave as it is;
* `assignSelector_attends`, `validateSelector_of_carries`, `checkLinkage_of_carries`,
  `addSelectorParam_furnishes`, `recordMethod_attends`: what the steps do, and why they fail.
-/

namespace ObjcBinding

open Program Resolve

variable {c d e : Compilation} {func : FuncId} {cls : ClassId} {scope : ScopeId} {s : Selector}
  {text : String}

/-! ## Texts -/

/-- The text that the selector of a function is to have: what its attribute stands for, or what is
derived from its signature if it has no attribute. -/
def Program.selectorText? (p : Program) (scope : ScopeId) (func : FuncId) : Option String :=
  match (p.funcAt func).attrs with
  | [] => some (p.derivedSelector func)
  | [attr] => (p.attrText scope attr).toOption
  | _ => none

/-- Whether a member of a bound class may be listed under the text: the text follows the grammar and
has an argument for each parameter, and the member is called by messages and is no template. -/
def Program.admits (p : Program) (func : FuncId) (text : String) : Bool :=
  let d := p.funcAt func
  d.linkage = .objc && !d.isTemplate &&
    match Selector.arity text with
    | .ok n => n = d.explicitCount
    | .error _ => false

/-- The text under which a member of a bound class may be listed. -/
def Program.methodText? (p : Program) (scope : ScopeId) (func : FuncId) : Option String :=
  (p.selectorText? scope func).filter (p.admits func)

/-- A member that is passed over: it has no attribute, and is not called by messages. -/
def FuncDecl.IsPassedOver (d : FuncDecl) : Prop := d.attrs = [] ∧ d.linkage ≠ .objc

theorem Program.admits_iff {p : Program} :
    p.admits func text = true ↔ (p.funcAt func).linkage = .objc ∧
      (p.funcAt func).isTemplate = false ∧
        Selector.arity text = .ok (p.funcAt func).explicitCount := by
  unfold admits
  dsimp only
  rw [Bool.and_eq_true, Bool.and_eq_true, decide_eq_true_iff, Bool.not_eq_true', and_assoc]
  cases Selector.arity text <;> simp

theorem Program.methodText?_eq_some_iff {p : Program} :
    p.methodText? scope func = some text ↔
      p.selectorText? scope func = some text ∧ p.admits func text = true :=
  Option.filter_eq_some_iff

/-- A member that asks for no text that follows the grammar may not be listed. -/
theorem Program.methodText?_eq_none {p : Program}
    (h : ∀ text, p.selectorText? scope func = some text → ∀ n, Selector.arity text ≠ .ok n) :
    p.methodText? scope func = none := by
  refine Option.eq_none_iff_forall_ne_some.2 fun text htext => ?_
  obtain ⟨ht, hadmits⟩ := methodText?_eq_some_iff.1 htext
  exact h text ht _ (admits_iff.1 hadmits).2.2

theorem Program.attrText_eq_ok_iff {p : Program} {attr : SelectorAttr} :
    p.attrText scope attr = .ok text ↔ attr.value = .literal text ∨
      ∃ name, attr.value = .constant name ∧ p.lookup scope name = some (.constant text) := by
  unfold attrText
  cases attr.value with
  | literal t => simp
  | constant name =>
    simp only [reduceCtorEq, SelectorValue.constant.injEq, exists_eq_left', false_or]
    split
    · rename_i t ht
      simp [ht]
    · rename_i hne
      simp only [reduceCtorEq, false_iff]
      exact hne text

/-- The handle stands for the text, which follows the grammar. -/
def Selector.Table.Spells (t : Selector.Table) (s : Selector) (text : String) : Prop :=
  ∃ n, Selector.arity text = .ok n ∧ t.get? s = some ⟨text, n⟩

namespace Selector.Table.Spells

variable {t : Selector.Table} {s' : Selector}

theorem arity (h : t.Spells s text) : Selector.arity text = .ok (t.arity s) := by
  obtain ⟨n, hn, hs⟩ := h
  rw [arity_of_get? hs, hn]

theorem handle_eq (h : t.Spells s text) (h' : t.Spells s' text) : s = s' := by
  obtain ⟨n, hn, hs⟩ := h
  obtain ⟨m, hm, hs'⟩ := h'
  cases hn.symm.trans hm
  exact Option.some.inj ((find?_eq_some_iff.2 hs).symm.trans (find?_eq_some_iff.2 hs'))

theorem text_eq {text' : String} (h : t.Spells s text) (h' : t.Spells s text') : text = text' := by
  obtain ⟨n, -, hs⟩ := h
  obtain ⟨m, -, hs'⟩ := h'
  cases hs.symm.trans hs'
  rfl

end Selector.Table.Spells

/-- Reserved names have been interned. -/
theorem Program.intern_of_reserved {p : Program} {t : String} (ht : t ∈ reservedNames) :
    (p.intern t).2 = p := by
  rw [intern]
  cases hf : p.names.find? t with
  | none => exact absurd (p.names.reserved_le.subset ht) (Interner.find?_eq_none_iff.1 hf)
  | some k => rw [Interner.intern_of_some hf]

/-! ## What is left as it is -/

theorem Program.entries_of_classes {p q : Program} (h : q.classes = p.classes) (cls : ClassId) :
    q.entries cls = p.entries cls := by
  rw [entries, classAt, h, entries, classAt]

theorem Program.hasRole_of_classes {p q : Program} (h : q.classes = p.classes) {role : Role}
    (ho : p.HasRole cls role) : q.HasRole cls role := by
  rwa [HasRole, classAt, h]

/-- From `c` to `d` nothing but the function `func` was attended to, apart from lists: scopes were
opened in `scope`, selectors were interned, and what is written about functions stays. -/
structure Compilation.Attends (func : FuncId) (scope : ScopeId) (c d : Compilation) : Prop where
  names : d.program.names = c.program.names
  sources (f : FuncId) : (d.program.funcAt f).source = (c.program.funcAt f).source
  others (f : FuncId) : f ≠ func → d.program.funcAt f = c.program.funcAt f
  scopes : c.program.Opens scope d.program
  aborted : d.session.aborted = c.session.aborted
  strategy : d.session.strategy = c.session.strategy
  selectors (s : Selector) (e : Selector.Entry) :
    c.session.selectors.get? s = some e → d.session.selectors.get? s = some e

/-- From `c` to `d` the function has become invalid, and no class has changed. -/
structure Compilation.Rejects (func : FuncId) (scope : ScopeId) (c d : Compilation) : Prop where
  attends : c.Attends func scope d
  classes : d.program.classes = c.program.classes
  invalid : (d.program.funcAt func).invalid = true

/-- The function is valid and has the selector `s`. -/
structure Compilation.Carries (c : Compilation) (func : FuncId) (s : Selector) : Prop where
  selector : (c.program.funcAt func).selector = some s
  valid : (c.program.funcAt func).invalid = false

namespace Compilation

namespace Attends

theorem refl (func : FuncId) (scope : ScopeId) (c : Compilation) : c.Attends func scope c where
  names := rfl
  sources _ := rfl
  others _ _ := rfl
  scopes := .refl ..
  aborted := rfl
  strategy := rfl
  selectors _ _ h := h

theorem trans (h : c.Attends func scope d) (h' : d.Attends func scope e) :
    c.Attends func scope e where
  names := h'.names.trans h.names
  sources f := (h'.sources f).trans (h.sources f)
  others f hf := (h'.others f hf).trans (h.others f hf)
  scopes := h.scopes.trans h'.scopes
  aborted := h'.aborted.trans h.aborted
  strategy := h'.strategy.trans h.strategy
  selectors s e hs := h'.selectors s e (h.selectors s e hs)

/-- A change of the function itself that keeps what is written about it; classes may change. -/
theorem modifyFunc {g : FuncDecl → FuncDecl} {classes : Arena .classDecl ClassDecl}
    (hp : d.program = { c.program.modifyFunc func g with classes })
    (ha : d.session.aborted = c.session.aborted) (hs : d.session.strategy = c.session.strategy)
    (ht : d.session.selectors = c.session.selectors) (hg : ∀ d, (g d).source = d.source) :
    c.Attends func scope d where
  names := by rw [hp]; rfl
  sources f := by rw [hp]; exact read_modifyFunc FuncDecl.source hg func f
  others f hf := by
    rw [hp]
    refine (funcAt_modifyFunc c.program func g f).trans (if_neg fun h => hf h.1)
  scopes := by rw [hp]; exact .of_scopes rfl
  aborted := ha
  strategy := hs
  selectors s e h := by rw [ht]; exact h

theorem addScope (func : FuncId) (scope : ScopeId) (c : Compilation) :
    c.Attends func scope { c with program := (c.program.addScope (some scope)).2 } where
  names := rfl
  sources _ := rfl
  others _ _ := rfl
  scopes := .addScope ..
  aborted := rfl
  strategy := rfl
  selectors _ _ h := h

variable (h : c.Attends func scope d)

include h

/-- A parameter is declared in a scope that was opened. -/
theorem declare {p : Program} {body : ScopeId} {name : Symbol} {f : FuncId} {index : Nat}
    (hbody : c.program.scopes.contains body = false)
    (hp : d.program.declare body name (.param f index) = .ok p) :
    c.Attends func scope { d with program := p } := by
  have hopens := h.scopes.declare hbody hp
  obtain ⟨scopes, rfl⟩ := scopes_of_declare hp
  exact { names := h.names, sources := h.sources, others := h.others, scopes := hopens
          aborted := h.aborted, strategy := h.strategy, selectors := h.selectors }

/-- Messages may be added. -/
theorem logged (log : Array Log.Message) : c.Attends func scope { d with log } :=
  { names := h.names, sources := h.sources, others := h.others, scopes := h.scopes
    aborted := h.aborted, strategy := h.strategy, selectors := h.selectors }

theorem linkage (f : FuncId) : (d.program.funcAt f).linkage = (c.program.funcAt f).linkage := by
  have hs := congrArg FuncDecl.linkage (h.sources f)
  exact hs

theorem isStatic (f : FuncId) : (d.program.funcAt f).isStatic = (c.program.funcAt f).isStatic := by
  have hs := congrArg FuncDecl.isStatic (h.sources f)
  exact hs

theorem isTemplate (f : FuncId) :
    (d.program.funcAt f).isTemplate = (c.program.funcAt f).isTemplate := by
  have hs := congrArg FuncDecl.isTemplate (h.sources f)
  exact hs

theorem parent (f : FuncId) : (d.program.funcAt f).parent = (c.program.funcAt f).parent := by
  have hs := congrArg FuncDecl.parent (h.sources f)
  exact hs

theorem explicitCount (f : FuncId) :
    (d.program.funcAt f).explicitCount = (c.program.funcAt f).explicitCount := by
  have hs := congrArg FuncDecl.explicitCount (h.sources f)
  rwa [FuncDecl.explicitCount_source, FuncDecl.explicitCount_source] at hs

theorem spells (hs : c.session.selectors.Spells s text) : d.session.selectors.Spells s text := by
  obtain ⟨n, hn, hget⟩ := hs
  exact ⟨n, hn, h.selectors _ _ hget⟩

/-- What the selector of another function is to be does not depend on this one. -/
theorem selectorText?_eq {f : FuncId} (hf : f ≠ func)
    (hs : c.program.scopes.contains scope = true) :
    d.program.selectorText? scope f = c.program.selectorText? scope f := by
  have hname (k : Symbol) : d.program.name k = c.program.name k := by
    rw [Program.name, Program.name, h.names]
  have hderived : d.program.derivedSelector f = c.program.derivedSelector f := by
    rw [derivedSelector, derivedSelector, h.others f hf, funext hname]
  have hattr (attr : SelectorAttr) :
      (d.program.attrText scope attr).toOption = (c.program.attrText scope attr).toOption := by
    refine Option.ext fun t => ?_
    have hok {p : Program} :
        (p.attrText scope attr).toOption = some t ↔ p.attrText scope attr = .ok t := by
      cases p.attrText scope attr <;> simp [Except.toOption]
    simp only [hok, attrText_eq_ok_iff, h.scopes.lookup_constant_iff hs]
  rw [selectorText?, selectorText?, h.others f hf, hderived, funext hattr]

theorem methodText?_eq {f : FuncId} (hf : f ≠ func)
    (hs : c.program.scopes.contains scope = true) :
    d.program.methodText? scope f = c.program.methodText? scope f := by
  have hadmits : d.program.admits f = c.program.admits f := by
    funext t
    rw [admits, admits, h.others f hf]
  rw [methodText?, methodText?, h.selectorText?_eq hf hs, hadmits]

end Attends

theorem Attends.admits_eq (h : c.Attends func scope d) (f : FuncId) :
    d.program.admits f = c.program.admits f := by
  funext t
  rw [admits, admits, h.linkage, h.isTemplate, h.explicitCount]

theorem Attends.rejects (h : c.Attends func scope d) (hc : d.program.classes = c.program.classes)
    (h' : d.Rejects func scope e) : c.Rejects func scope e where
  attends := h.trans h'.attends
  classes := h'.classes.trans hc
  invalid := h'.invalid

end Compilation

namespace Resolve

variable {α : Type} {P : α → Compilation → Prop} {E : Compilation → Prop}

/-! ## Selectors -/

theorem reject_rejects {err : BindError} (hc : c.program.funcs.contains func = true)
    (hE : ∀ d, c.Rejects func scope d → E d) :
    Outcome (reject (.funcDecl func) err : Resolve α) c P fun _ d => E d := by
  refine outcome_reject.2 (hE _ ⟨.modifyFunc rfl rfl rfl rfl fun _ => rfl, rfl, ?_⟩)
  change ((c.program.modifyFunc func _).funcAt func).invalid = true
  rw [funcAt_modifyFunc, if_pos ⟨rfl, hc⟩]

theorem adopt_attends (func : FuncId) (scope : ScopeId) (s : Selector) {t : Selector.Table}
    (ht : ∀ s e, c.session.selectors.get? s = some e → t.get? s = some e) :
    Outcome (adopt s t) c
      (fun s' d => s' = s ∧ c.Attends func scope d ∧ d.program = c.program ∧
        d.session.selectors = t)
      fun _ _ => False := by
  have hattends (log : Array Log.Message) : c.Attends func scope
      { c with session := { c.session with selectors := t }, log } :=
    ⟨rfl, fun _ => rfl, fun _ _ => rfl, .refl .., rfl, rfl, ht⟩
  refine outcome_bind.2 (outcome_selectors.2 ?_)
  dsimp only
  split
  · refine outcome_bind.2 (outcome_say.2 (outcome_bind.2 (outcome_modify.2 ?_)))
    exact ⟨rfl, hattends _, rfl, rfl⟩
  · refine outcome_bind.2 (outcome_modify.2 ?_)
    exact ⟨rfl, hattends _, rfl, rfl⟩

theorem lookupSelector_attends (func : FuncId) (scope : ScopeId) (text : String) (span : Span)
    (c : Compilation) :
    Outcome (lookupSelector text span) c
      (fun s d => c.Attends func scope d ∧ d.program = c.program ∧
        d.session.selectors.Spells s text)
      fun _ d => d = c ∧ ∀ n, Selector.arity text ≠ .ok n := by
  unfold lookupSelector Selector.Table.lookup
  simp only [outcome_bind, outcome_selectors]
  cases ha : Selector.arity text with
  | error fault => exact ⟨rfl, nofun⟩
  | ok n =>
    have hkeep (s : Selector) (e : Selector.Entry) (hs : c.session.selectors.get? s = some e) :=
      Selector.Table.get?_intern_of_some hs text n
    refine outcome_mono (adopt_attends func scope _ hkeep) ?_ fun _ _ => False.elim
    rintro s d ⟨rfl, hd, hp, ht⟩
    refine ⟨hd, hp, n, ha, ?_⟩
    rw [ht]
    exact c.session.selectors.get?_intern text n

/-- What choosing a selector for a member comes to: a selector that spells the text which the member
asks for, or none if the member is passed over. -/
structure Chosen (func : FuncId) (scope : ScopeId) (c : Compilation) (a : Option Selector)
    (d : Compilation) : Prop where
  attends : c.Attends func scope d
  program : d.program = c.program
  spells (s : Selector) : a = some s → ¬ (c.program.funcAt func).IsPassedOver ∧
    ∃ text, c.program.selectorText? scope func = some text ∧ d.session.selectors.Spells s text
  passedOver : a = none → (c.program.funcAt func).IsPassedOver

theorem rejecting_chosen {x : Resolve Selector} {text : String}
    (hc : c.program.funcs.contains func = true)
    (ht : c.program.selectorText? scope func = some text)
    (hpass : ¬ (c.program.funcAt func).IsPassedOver)
    (hx : Outcome x c
      (fun s d => c.Attends func scope d ∧ d.program = c.program ∧
        d.session.selectors.Spells s text)
      fun _ d => d = c ∧ ∀ n, Selector.arity text ≠ .ok n) :
    Outcome (some <$> rejecting func x) c (Chosen func scope c) fun _ d =>
      c.Rejects func scope d ∧ ¬ (c.program.funcAt func).IsPassedOver ∧
        c.program.methodText? scope func = none := by
  refine outcome_map.2 (outcome_tryCatch.2 (outcome_mono hx ?_ ?_))
  · rintro s d ⟨hd, hp, hs⟩
    refine ⟨hd, hp, ?_, nofun⟩
    rintro _ ⟨⟩
    exact ⟨hpass, text, ht, hs⟩
  · rintro err d ⟨rfl, hfault⟩
    refine reject_rejects hc fun e he => ⟨he, hpass, methodText?_eq_none fun t ht' => ?_⟩
    cases ht.symm.trans ht'
    exact hfault

/-- A member gets no selector only if it is passed over. -/
theorem chooseSelector_attends (hb : c.program.isBoundMember func = true)
    (hc : c.program.funcs.contains func = true) :
    Outcome (chooseSelector func scope) c (Chosen func scope c) fun _ d =>
      c.Rejects func scope d ∧ ¬ (c.program.funcAt func).IsPassedOver ∧
        c.program.methodText? scope func = none := by
  refine outcome_bind.2 (outcome_program.2 ?_)
  dsimp only
  split
  · rename_i hattrs
    split
    · rename_i hl
      rw [hb, Bool.and_true, decide_eq_true_iff] at hl
      have ht : c.program.selectorText? scope func = some (c.program.derivedSelector func) := by
        rw [selectorText?, hattrs]
      exact rejecting_chosen hc ht (fun h => h.2 hl)
        (outcome_bind.2 (outcome_program.2 (lookupSelector_attends ..)))
    · rename_i hl
      rw [hb, Bool.and_true, decide_eq_true_iff] at hl
      exact ⟨.refl .., rfl, nofun, fun _ => ⟨hattrs, hl⟩⟩
  · rename_i attr hattrs
    have hpass : ¬ (c.program.funcAt func).IsPassedOver := by
      intro h
      cases hattrs.symm.trans h.1
    split
    · rename_i text htext
      refine rejecting_chosen hc ?_ hpass (lookupSelector_attends ..)
      rw [selectorText?, hattrs]
      dsimp only
      rw [htext]
      rfl
    · rename_i err herr
      refine reject_rejects hc fun d hd => ⟨hd, hpass, methodText?_eq_none fun text htext => ?_⟩
      rw [selectorText?, hattrs] at htext
      dsimp only at htext
      rw [herr] at htext
      cases htext
  · rename_i first second rest hattrs
    refine reject_rejects hc fun d hd => ⟨hd, fun h => ?_, methodText?_eq_none fun text htext => ?_⟩
    · cases hattrs.symm.trans h.1
    · rw [selectorText?, hattrs] at htext
      cases htext

/-- What a member is given that has no selector yet. -/
theorem assignSelector_attends (scope : ScopeId) (hb : c.program.isBoundMember func = true)
    (hc : c.program.funcs.contains func = true) (hi : (c.program.funcAt func).info = none)
    (hv : (c.program.funcAt func).invalid = false) :
    Outcome (assignSelector func scope) c
      (fun _ d => c.Attends func scope d ∧ d.program.classes = c.program.classes ∧
        ((c.program.funcAt func).IsPassedOver ∧ d.program = c.program ∨
          ¬ (c.program.funcAt func).IsPassedOver ∧
            ∃ s text, c.program.selectorText? scope func = some text ∧
              d.session.selectors.Spells s text ∧ d.Carries func s))
      fun _ d => c.Rejects func scope d ∧ ¬ (c.program.funcAt func).IsPassedOver ∧
        c.program.methodText? scope func = none := by
  refine outcome_bind.2 (outcome_program.2 ?_)
  dsimp only
  split
  · rename_i s hs
    rw [FuncDecl.selector, hi] at hs
    cases hs
  · rw [hv, if_neg Bool.false_ne_true]
    refine outcome_bind.2 (outcome_mono (chooseSelector_attends hb hc) ?_ fun _ _ h => h)
    rintro a ⟨program, session, log⟩ ⟨hd, hp, hsome, hnone⟩
    obtain rfl : program = c.program := hp
    split
    · exact ⟨hd, rfl, .inl ⟨hnone rfl, rfl⟩⟩
    · rename_i s
      obtain ⟨hpass, text, ht, hs⟩ := hsome s rfl
      refine outcome_bind.2 (outcome_updateProgram.2 (outcome_bind.2 (outcome_selectors.2
        (outcome_bind.2 (outcome_say.2 ?_)))))
      refine ⟨hd.trans (.modifyFunc rfl rfl rfl rfl fun _ => rfl), rfl,
        .inr ⟨hpass, s, text, ht, hs, ?_, ?_⟩⟩
      · change ((c.program.modifyFunc func _).funcAt func).selector = some s
        rw [funcAt_modifyFunc, if_pos ⟨rfl, hc⟩]
        rfl
      · refine (read_modifyFunc FuncDecl.invalid (fun _ => ?_) func func).trans hv
        rfl

/-! ## Checks -/

theorem validateSelector_of_carries (scope : ScopeId) (h : c.Carries func s)
    (hb : c.program.isBoundMember func = true) (hs : c.session.selectors.Spells s text) :
    Outcome (validateSelector func) c
      (fun _ d => d = c ∧ (c.program.funcAt func).isTemplate = false ∧
        Selector.arity text = .ok (c.program.funcAt func).explicitCount)
      fun _ d => c.Rejects func scope d ∧ c.program.admits func text = false := by
  refine outcome_validateSelector h.selector h.valid (fun hv => ?_) fun _ _ hn =>
    reject_rejects (containsFunc_of_selector h.selector) fun _ hd => ⟨hd, ?_⟩
  · exact ⟨rfl, hv.template, hv.arity ▸ hs.arity⟩
  · rw [← Bool.not_eq_true, admits_iff]
    rintro ⟨-, htemplate, harity⟩
    rw [hs.arity] at harity
    exact hn ⟨htemplate, hb, Except.ok.inj harity⟩

theorem checkLinkage_of_carries (scope : ScopeId) (text : String) (h : c.Carries func s) :
    Outcome (checkLinkage func) c
      (fun _ d => (c.program.funcAt func).linkage = .objc ∧ c.Attends func scope d ∧
        d.program.classes = c.program.classes ∧ d.Carries func s)
      fun _ d => c.Rejects func scope d ∧ c.program.admits func text = false := by
  have hc := containsFunc_of_selector h.selector
  refine outcome_checkLinkage h.selector h.valid (fun hl => ?_) fun _ _ hl =>
    reject_rejects hc fun _ hd => ⟨hd, ?_⟩
  · obtain ⟨i, hi, rfl⟩ := Option.map_eq_some_iff.1 h.selector
    refine ⟨hl, .modifyFunc rfl rfl rfl rfl fun _ => rfl, rfl, ?_, ?_⟩
    · change ((c.program.modifyFunc func _).funcAt func).selector = _
      rw [funcAt_modifyFunc, if_pos ⟨rfl, hc⟩]
      change Option.map _ (Option.map _ _) = _
      rw [hi]
      rfl
    · refine (read_modifyFunc FuncDecl.invalid (fun _ => ?_) func func).trans h.valid
      rfl
  · rw [← Bool.not_eq_true, admits_iff]
    exact fun hadmits => hl hadmits.1

/-- What has no selector is neither checked nor recorded. -/
theorem unchecked_of_unannotated (cls : ClassId) (hi : (c.program.funcAt func).info = none) :
    validateSelector func c = .ok () c ∧ checkLinkage func c = .ok () c ∧
      recordMethod func cls c = .ok () c := by
  refine ⟨?_, ?_, ?_⟩
  · rw [validateSelector, bind_apply, program_apply]
    simp only [bind_apply, selectors_apply, FuncDecl.selector, hi, Option.map_none]
    rfl
  · rw [checkLinkage, bind_apply, program_apply]
    simp only [hi, Option.isNone_none, Bool.true_or, if_true]
    rfl
  · rw [recordMethod, bind_apply, program_apply]
    simp only [bind_apply, record, program_apply, FuncDecl.selector, hi, Option.map_none]
    rfl

/-! ## The hidden parameter -/

/-- What the hidden parameter, declared in a scope of its own, leaves as it is. -/
structure Furnishes (func : FuncId) (scope : ScopeId) (c d : Compilation) : Prop where
  attends : c.Attends func scope d
  classes : d.program.classes = c.program.classes
  info : (d.program.funcAt func).info = (c.program.funcAt func).info
  invalid : (d.program.funcAt func).invalid = (c.program.funcAt func).invalid

theorem placeSelectorParam_furnishes {name : Symbol} (hd : Furnishes func scope c d) :
    Outcome (placeSelectorParam func name) d (fun _ e => Furnishes func scope c e)
      fun _ _ => False := by
  refine outcome_bind.2 (outcome_program.2 ?_)
  dsimp only
  split
  · exact hd
  · refine outcome_bind.2 (outcome_updateProgram.2 ⟨hd.attends.trans
      (.modifyFunc rfl rfl rfl rfl fun _ => ?_), hd.classes, ?_, ?_⟩)
    · simp [FuncDecl.source, FuncDecl.explicitParams]
    · refine (read_modifyFunc FuncDecl.info (fun _ => ?_) func func).trans hd.info
      rfl
    · refine (read_modifyFunc FuncDecl.invalid (fun _ => ?_) func func).trans hd.invalid
      rfl

theorem addSelectorParam_furnishes (func : FuncId) (scope : ScopeId) (c : Compilation) :
    Outcome (addSelectorParam func (c.program.addScope (some scope)).1)
      { c with program := (c.program.addScope (some scope)).2 }
      (fun _ d => Furnishes func scope c d ∧ ((c.program.funcAt func).info = none →
        d.program.funcAt func = c.program.funcAt func))
      fun _ _ => False := by
  have hopened : Furnishes func scope c
      { c with program := (c.program.addScope (some scope)).2 } := ⟨.addScope .., rfl, rfl, rfl⟩
  have hbody : c.program.scopes.contains (c.program.addScope (some scope)).1 = false := by
    simp [Program.addScope, Arena.alloc, Arena.contains]
  refine outcome_bind.2 (outcome_program.2 ?_)
  dsimp only
  split
  · exact ⟨hopened, fun _ => rfl⟩
  · rename_i hneeds
    have hi : (c.program.funcAt func).info ≠ none := by
      intro hi
      change ¬ (!(c.program.funcAt func).info.any _ || _) = true at hneeds
      rw [hi] at hneeds
      exact hneeds rfl
    refine outcome_bind.2 (outcome_modifyGetProgram.2 (outcome_bind.2 ?_))
    rw [intern_of_reserved (by decide)]
    refine outcome_mono (placeSelectorParam_furnishes hopened) ?_ fun _ _ => False.elim
    rintro index d hd
    refine outcome_bind.2 (outcome_program.2 ?_)
    split
    · rename_i q hq
      have hattends := hd.attends.declare hbody hq
      obtain ⟨scopes, rfl⟩ := scopes_of_declare hq
      exact ⟨⟨hattends, hd.classes, hd.info, hd.invalid⟩, fun h => absurd h hi⟩
    · split
      · exact ⟨⟨hd.attends.logged _, hd.classes, hd.info, hd.invalid⟩, fun h => absurd h hi⟩
      · exact ⟨hd, fun h => absurd h hi⟩

/-! ## The list -/

theorem pushMethod_attends {i : ClassInfo} (scope : ScopeId) (side : Bool)
    (hi : (c.program.classAt cls).info = some i) (hv : (c.program.funcAt func).invalid = false) :
    Outcome (pushMethod func cls s side) c
      (fun _ d => c.Attends func scope d ∧ (d.program.funcAt func).invalid = false ∧
        d.program.entries cls = c.program.entries cls ++ [⟨s, func, side⟩])
      fun _ _ => False := by
  refine outcome_bind.2 (outcome_program.2 (outcome_bind.2 (outcome_updateProgram.2 (outcome_bind.2
    (outcome_updateProgram.2 (outcome_bind.2 (outcome_selectors.2 (outcome_say.2 ?_))))))))
  refine ⟨.modifyFunc rfl rfl rfl rfl fun _ => rfl, ?_, ?_⟩
  · refine (read_modifyFunc FuncDecl.invalid (fun _ => ?_) func func).trans hv
    rfl
  · change Program.entries (Program.modifyClass _ cls _) cls = _
    rw [entries, classAt_modifyClass, if_pos ⟨rfl, contains_of_info hi⟩, entries_of_info hi]
    change ((((c.program.classAt cls).info.map _).map _).getD []) = _
    rw [hi]
    rfl

/-- A member that may be listed is listed, unless its selector is taken on its side. -/
theorem recordMethod_attends (scope : ScopeId) (h : c.Carries func s)
    (hs : c.session.selectors.Spells s text)
    (hadmits : c.program.admits func text = true)
    (hp : (c.program.funcAt func).parent = some cls) (ho : c.program.HasRole cls .ordinary)
    (hv : (c.program.classAt cls).invalid = false)
    (hnew : ∀ e ∈ c.program.entries cls, e.func ≠ func) :
    Outcome (recordMethod func cls) c
      (fun _ d => c.Attends func scope d ∧ (d.program.funcAt func).invalid = false ∧
        (∀ e ∈ c.program.entries cls,
          ¬ (e.selector = s ∧ e.isClassMethod = (c.program.funcAt func).isStatic)) ∧
        d.program.entries cls =
          c.program.entries cls ++ [⟨s, func, (c.program.funcAt func).isStatic⟩])
      fun _ d => c.Rejects func scope d ∧ ∃ e ∈ c.program.entries cls,
        e.selector = s ∧ e.isClassMethod = (c.program.funcAt func).isStatic := by
  have hc := containsFunc_of_selector h.selector
  have hb : c.program.isBoundMember func = true := by
    rw [isBoundMember, hp]
    exact isBound_of_hasRole ho
  have howner := listOwner_of_ordinary ho
  obtain ⟨i, hi, -⟩ := ho
  refine outcome_bind.2 (outcome_program.2 (outcome_bind.2 (outcome_bind.2 (outcome_program.2 ?_))))
  simp only [h.selector, h.valid, howner, hv, ClassDecl.isBound, hi, hp, Option.isSome_some,
    Bool.not_true, Bool.or_self, Bool.false_eq_true, if_false, ne_eq, not_true_eq_false]
  refine outcome_bind.2 (outcome_mono (validateSelector_of_carries scope h hb hs) ?_
    fun _ d hd => absurd (hd.2.symm.trans hadmits) Bool.false_ne_true)
  rintro _ c ⟨rfl, -, -⟩
  refine outcome_bind.2 (outcome_mono (checkLinkage_of_carries scope text h) ?_
    fun _ d hd => absurd (hd.2.symm.trans hadmits) Bool.false_ne_true)
  rintro _ d ⟨-, hd, hclasses, hcarries⟩
  have hentries := entries_of_classes hclasses cls
  have hid : (d.program.classAt cls).info = some i := by
    rw [classAt, hclasses]
    exact hi
  have hitems : i.methods.items = c.program.entries cls := (entries_of_info hi).symm
  refine outcome_bind.2 (outcome_program.2 ?_)
  rw [hid, Option.bind_some]
  split
  · rename_i existing hfind
    have hmem := List.mem_of_find?_eq_some hfind
    have hkey := List.find?_some hfind
    rw [Bool.and_eq_true, beq_iff_eq, beq_iff_eq] at hkey
    rw [hitems] at hmem
    rw [if_neg (hnew existing hmem)]
    refine outcome_bind.2 (outcome_selectors.2 ?_)
    exact reject_rejects (E := fun e => c.Rejects func scope e ∧ _)
      (containsFunc_of_selector hcarries.selector)
      fun e he => ⟨hd.rejects hclasses he, existing, hmem, hkey⟩
  · rename_i hfind
    refine outcome_bind.2 (outcome_mono (pushMethod_attends scope _ hid hcarries.valid) ?_
      fun _ _ => False.elim)
    rintro _ e ⟨he, hve, hpushed⟩
    refine ⟨hd.trans he, hve, fun entry hentry hkey => ?_, by rw [hpushed, hentries]⟩
    have hnone := List.find?_eq_none.1 hfind entry (hitems ▸ hentry)
    rw [Bool.and_eq_true, beq_iff_eq, beq_iff_eq] at hnone
    exact hnone hkey

end Resolve

end ObjcBinding
