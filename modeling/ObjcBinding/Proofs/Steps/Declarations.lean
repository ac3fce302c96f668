import ObjcBinding.Proofs.Steps.Binding
import ObjcBinding.Proofs.Steps.Listing
import ObjcBinding.Request.Operation
import Mathlib.Data.List.Basic
import Mathlib.Tactic.ByContra

/-!
# The trails of operations

An operation binds classes first and functions after that, so that nothing is marked any more
once a function has got its selector.

* `bindMethods_leaves`: binding members puts exactly the Objective-C ones into the list;
* `prepareClass_outcome`, `bindClass_outcome`: what binding a class does to it;
* `Operation.runs_of_sparesClasses`: an operation on functions leaves them whatever the classes are;
* `Operation.phases`: every operation leaves the two trails.
-/

namespace ObjcBinding

open Program Resolve

variable {c d : Compilation} {func : FuncId} {cls : ClassId} {marks : ClassId → Prop}
  {lists : FuncId → ClassId → Bool → Prop}

/-! ## Sessions -/

theorem guarded_leaves {α : Type} {permits : Compilation → Deed → Prop} {E : Compilation → Prop}
    (neutral : α) {x : Resolve α} {P : α → Compilation → Prop}
    (hs : c.session.strategy = .functional) (hx : LeavesOr permits x c P E) :
    LeavesOr permits (guarded neutral x) c P E := by
  cases ha : c.session.aborted with
  | true =>
    exact (outcome_of_error (guarded_of_aborted ha)).2
      ⟨.refl _ c, Compilation.failed_of_aborted ha _ _⟩
  | false => exact (outcome_guarded _ ha hs).2 hx

/-! ## Members on their way into the list -/

/-- A valid member of a valid bound class. -/
structure Waits (c : Compilation) (func : FuncId) (cls : ClassId) : Prop where
  owned : c.program.ListsOwned
  bound : c.program.HasRole cls .ordinary
  parent : (c.program.funcAt func).parent = some cls
  funcValid : (c.program.funcAt func).invalid = false
  classValid : (c.program.classAt cls).invalid = false

theorem Waits.contains (h : Waits c func cls) : c.program.funcs.contains func = true :=
  Program.containsFunc_of_parent h.parent

/-- While functions are bound, a member waits until it is rejected. -/
theorem Waits.of_trail (h : Waits c func cls) (ht : Trail (Listing lists) c d)
    (hv : (d.program.funcAt func).invalid = false) : Waits d func cls where
  owned := ht.listsOwned h.owned
  bound := ht.extends.program.hasRole h.bound
  parent := (ht.extends.program.parent h.contains).trans h.parent
  funcValid := hv
  classValid := (ht.classInvalid_eq cls).trans h.classValid

/-- A step that lists nothing may be part of one that does. -/
theorem Resolve.LeavesOr.unlisted {α : Type} {x : Resolve α} {P : α → Compilation → Prop}
    {E : Compilation → Prop} (h : LeavesOr (Listing fun _ _ _ => False) x c P E) :
    LeavesOr (Listing lists) x c
      (fun a d => Trail (Listing fun _ _ _ => False) c d ∧ P a d) E := by
  refine h.mono (fun _ deed _ hp => ?_) (fun _ _ ht hP => ⟨ht, hP⟩) fun _ _ h => h
  cases deed with
  | record => exact hp.elim
  | _ => exact hp

/-- How a member stands in the list of its class: not at all unless it is called by messages. -/
def Program.listing (p : Program) (func : FuncId) : List (FuncId × Bool) :=
  if (p.funcAt func).linkage = .objc then [(func, (p.funcAt func).isStatic)] else []

theorem Program.Extends.listing_eq {p q : Program} (h : p.Extends q)
    (hc : p.funcs.contains func = true) : q.listing func = p.listing func := by
  rw [listing, listing, h.linkage hc, h.isStatic hc]

/-- From `c` to `d` a member has come to where it belongs: it stands in the list of its class if
it is called by messages, at the end unless it has been there before. -/
structure Settles (c d : Compilation) (func : FuncId) (cls : ClassId) : Prop where
  mem : ∀ e ∈ c.program.listing func, e ∈ d.program.listed cls
  last : (∀ e ∈ c.program.entries cls, e.func ≠ func) →
    d.program.listed cls = c.program.listed cls ++ c.program.listing func

theorem Settles.of_joins (hl : (c.program.funcAt func).linkage = .objc)
    (h : Joins c d func cls (c.program.funcAt func).isStatic) : Settles c d func cls where
  mem := by
    intro e he
    rw [Program.listing, if_pos hl, List.mem_singleton] at he
    rw [he]
    exact h.mem
  last := by
    intro hnew
    rw [Program.listing, if_pos hl]
    exact h.last hnew

/-- A member that is not called by messages belongs to no list. -/
theorem Settles.of_entries_eq (hl : (c.program.funcAt func).linkage ≠ .objc)
    (h : d.program.entries cls = c.program.entries cls) : Settles c d func cls where
  mem := by
    intro e he
    rw [Program.listing, if_neg hl] at he
    cases he
  last := by
    intro _
    rw [Program.listing, if_neg hl, List.append_nil, Program.listed, h]
    rfl

/-- Settling one member puts no other one into the list. -/
theorem Settles.ne_of_mem {f : FuncId} (h : Settles c d func cls) (hf : f ≠ func)
    (hnew : ∀ e ∈ c.program.entries cls, e.func ≠ func)
    (hnewf : ∀ e ∈ c.program.entries cls, e.func ≠ f) :
    ∀ e ∈ d.program.entries cls, e.func ≠ f := by
  intro entry hentry heq
  have hmem : (entry.func, entry.isClassMethod) ∈ d.program.listed cls :=
    List.mem_map_of_mem hentry
  rw [h.last hnew, heq, List.mem_append] at hmem
  rcases hmem with hmem | hmem
  · obtain ⟨old, hold, hpair⟩ := List.mem_map.1 hmem
    exact hnewf old hold (congrArg Prod.fst hpair)
  · unfold Program.listing at hmem
    split at hmem
    · exact hf (congrArg Prod.fst (List.mem_singleton.1 hmem))
    · cases hmem

/-- Nothing changes if the hidden parameter is not needed. -/
theorem addSelectorParam_leaves {E : Compilation → Prop} (func : FuncId) (scope : ScopeId)
    (hf : c.session.strategy = .functional) :
    LeavesOr (Listing lists) (Session.addSelectorParam func scope) c
      (fun _ d => (c.program.funcAt func).info.any (·.needsSelectorParam) = false →
        d.program = c.program) E := by
  have hparam := addSelectorParam_outcome lists func scope c
  refine guarded_leaves _ hf (outcome_mono hparam ?_ fun _ _ => False.elim)
  intro _ d h
  refine ⟨h.1, fun hn => ?_⟩
  rw [(h.2.2 hn).2]

/-- Binding a member settles it, or else it is rejected. -/
theorem bindMethod_leaves (func : FuncId) (cls : ClassId) (scope : ScopeId)
    (hf : c.session.strategy = .functional)
    (hw : ∀ owner, c.program.listOwner? cls = some owner →
      lists func owner (c.program.funcAt func).isStatic) :
    LeavesOr (Listing lists) (Session.bindMethod func cls scope) c
      (fun _ d => Waits c func cls → (d.program.funcAt func).invalid = false →
        Settles c d func cls)
      fun d => Waits c func cls → (d.program.funcAt func).invalid = true := by
  have hreject {d : Compilation} (ht : c.Extends d) (hd : d.Rejected func) (h : Waits c func cls) :
      (d.program.funcAt func).invalid = true :=
    hd (ht.program.containsFunc func h.contains)
  refine leaves_bind ((guarded_leaves _ hf (assignSelector_leaves func scope c)).unlisted.cause
    fun _ ht => hreject ht.extends) ?_
  rintro _ c₁ - ⟨t₁, hassigned⟩
  have hf₁ := t₁.extends.strategy.trans hf
  refine leaves_bind ((guarded_leaves _ hf₁ (validateSelector_leaves func c₁)).cause
    fun _ ht => hreject (t₁.extends.trans ht.extends)) ?_
  rintro _ c₁ - ⟨rfl, -⟩
  refine leaves_bind ((guarded_leaves _ hf₁ (checkLinkage_leaves func c₁)).unlisted.cause
    fun _ ht => hreject (t₁.extends.trans ht.extends)) ?_
  rintro _ c₂ - ⟨t₂, hlinkage, hc₂⟩
  have hf₂ := t₂.extends.strategy.trans hf₁
  refine leaves_addScope trivial ?_
  have hscoped : ({ c₂ with program := (c₂.program.addScope (some scope)).2 } :
      Compilation).session.strategy = .functional := hf₂
  refine leaves_bind (addSelectorParam_leaves func _ hscoped).unlisted ?_
  rintro _ c₃ - ⟨t₃, hneeds⟩
  have t₂₃ : Trail (Listing fun _ _ _ => False) c₂ c₃ :=
    .trans (.single (.addScope (some scope)) trivial) t₃
  have t : Trail (Listing fun _ _ _ => False) c c₃ := (t₁.trans t₂).trans t₂₃
  have hf₃ := t.extends.strategy.trans hf
  have hw₃ (owner : ClassId) (ho : c₃.program.listOwner? cls = some owner) :
      lists func owner (c₃.program.funcAt func).isStatic := by
    rw [t.listOwner_eq] at ho
    rw [t.isStatic_eq]
    exact hw owner ho
  refine (guarded_leaves _ hf₃ (recordMethod_leaves func cls hw₃)).mono (fun _ _ _ h => h) ?_ ?_
  · rintro _ d t₄ ⟨hnone, hrecorded⟩ hwait hv
    have hv₃ := t₄.funcValid_of hv
    have hv₁ := (t₂.trans t₂₃).funcValid_of hv₃
    have hwait₃ := hwait.of_trail t hv₃
    have hentries := t.entries_eq hwait.owned (x := cls) fun _ _ _ h => h
    by_cases hobjc : (c.program.funcAt func).linkage = .objc
    · have hb : c.program.isBoundMember func = true := by
        rw [Program.isBoundMember, hwait.parent]
        exact Program.isBound_of_hasRole hwait.bound
      obtain ⟨s, hs⟩ := hassigned hwait.funcValid hobjc hb
      have hjoins := hrecorded s ((t₂.trans t₂₃).extends.program.selector_eq hs) hv₃
        (Program.listOwner_of_ordinary hwait₃.bound) hwait₃.classValid
      rw [t.extends.program.isStatic hwait.contains] at hjoins
      exact .of_joins hobjc (hjoins.of_eq hentries)
    · -- a selector would have been rejected for the linkage, so there is none
      have hinfo₁ : (c₁.program.funcAt func).info = none := by
        by_contra hi
        refine hobjc ?_
        rw [← t₁.extends.program.linkage hwait.contains]
        exact hlinkage hi hv₁
      have hinfo₂ : (c₂.program.funcAt func).info = none := by
        rcases hc₂ with rfl | rfl
        · exact hinfo₁
        · rw [Program.funcAt_modifyFunc]
          split
          · exact congrArg (Option.map _) hinfo₁
          · exact hinfo₁
      have hprogram := hneeds (congrArg (Option.any (·.needsSelectorParam)) hinfo₂)
      have hs₃ : (c₃.program.funcAt func).selector = none := by
        rw [hprogram]
        exact congrArg (Option.map _) hinfo₂
      refine .of_entries_eq hobjc ?_
      rw [hnone hs₃, hentries]
  · intro d t₄ hrejected hwait
    have hext := t.extends
    refine hreject (hext.trans t₄.extends) (hrejected ?_) hwait
    rw [hext.program.parent hwait.contains, hwait.parent,
      Program.listOwner_of_ordinary (hext.program.hasRole hwait.bound)]

/-- Binding members settles those that are still valid at the end. It fails only in a session that
has ended. -/
theorem bindMethods_leaves (cls : ClassId) (scope : ScopeId) (funcs : List FuncId)
    (hf : c.session.strategy = .functional)
    (hw : ∀ owner, c.program.listOwner? cls = some owner →
      ∀ func, lists func owner (c.program.funcAt func).isStatic) :
    LeavesOr (Listing lists) (Session.bindMethods cls scope funcs) c
      (fun _ d =>
        (∀ func ∈ funcs, Waits c func cls → (d.program.funcAt func).invalid = false →
          ∀ e ∈ c.program.listing func, e ∈ d.program.listed cls) ∧
        ((∀ func ∈ funcs, Waits c func cls ∧ (d.program.funcAt func).invalid = false ∧
            ∀ e ∈ c.program.entries cls, e.func ≠ func) → funcs.Nodup →
          d.program.listed cls = c.program.listed cls ++ funcs.flatMap c.program.listing))
      fun _ => False := by
  induction funcs generalizing c with
  | nil =>
    refine leaves_pure ⟨fun _ hfunc => (nomatch hfunc), fun _ _ => ?_⟩
    rw [List.flatMap_nil, List.append_nil]
  | cons func rest ih =>
    refine leaves_bind (Q := fun _ d => Waits c func cls →
      (d.program.funcAt func).invalid = false → Settles c d func cls) ?_ ?_
    · refine outcome_tryCatch.2 (outcome_mono
        (bindMethod_leaves func cls scope hf fun owner ho => hw owner ho func)
        (fun _ _ h => h) ?_)
      rintro e d ⟨ht, hd⟩
      refine outcome_bind.2 (outcome_get.2 ?_)
      split
      · rename_i ha
        exact ⟨ht, Compilation.failed_of_aborted ha _ _⟩
      · rename_i ha
        refine ⟨ht, fun hwait hv => ?_⟩
        cases (hd.cause (Bool.eq_false_iff.2 ha) hwait).symm.trans hv
    · intro _ d ht hfirst
      have hw' (owner : ClassId) (ho : d.program.listOwner? cls = some owner) (f : FuncId) :
          lists f owner (d.program.funcAt f).isStatic := by
        rw [ht.listOwner_eq] at ho
        rw [ht.isStatic_eq]
        exact hw owner ho f
      refine (ih (ht.extends.strategy.trans hf) hw').post ?_
      rintro _ e ht' ⟨hmem, hrest⟩
      have hlisting {f : FuncId} (hwait : Waits c f cls) :
          d.program.listing f = c.program.listing f :=
        ht.extends.program.listing_eq hwait.contains
      refine ⟨fun f hf hwait hv entry hentry => ?_, fun hall hn => ?_⟩
      · have hvd := ht'.funcValid_of hv
        rcases List.mem_cons.1 hf with rfl | hf
        · have hlisted := (hfirst hwait hvd).mem entry hentry
          exact ht'.extends.program.mem_listed (ht.listsOwned hwait.owned) hlisted
        · rw [← hlisting hwait] at hentry
          exact hmem f hf (hwait.of_trail ht hvd) hv entry hentry
      · obtain ⟨hnot, hn⟩ := List.nodup_cons.1 hn
        obtain ⟨hwait, hv, hnew⟩ := hall func List.mem_cons_self
        have hsettles := hfirst hwait (ht'.funcValid_of hv)
        rw [hrest ?_ hn, hsettles.last hnew, List.flatMap_cons, List.append_assoc,
          List.flatMap_congr fun f hf => hlisting (hall f (List.mem_cons_of_mem func hf)).1]
        intro f hf
        obtain ⟨hwaitf, hvf, hnewf⟩ := hall f (List.mem_cons_of_mem func hf)
        refine ⟨hwaitf.of_trail ht (ht'.funcValid_of hvf), hvf, hsettles.ne_of_mem ?_ hnew hnewf⟩
        rintro rfl
        exact hnot hf

/-! ## Whole classes -/

/-- The first trail binds classes, the second one functions. -/
def Phases (marks : ClassId → Prop) (lists : FuncId → ClassId → Bool → Prop)
    (c d : Compilation) : Prop :=
  ∃ mid, Trail (Binding c.program marks) c mid ∧ Trail (Listing lists) mid d

/-- The function joins the list of `cls`, on the side that it is declared for. -/
def Program.JoinsOwn (p : Program) (cls : ClassId) (func : FuncId) (owner : ClassId)
    (isClassMethod : Bool) : Prop :=
  owner = cls ∧ isClassMethod = (p.funcAt func).isStatic

/-- What binding a class has come to if it ended well. -/
structure ClassBound (cls : ClassId) (c d : Compilation) : Prop where
  fresh : (c.program.classAt cls).info = none
  fits : c.program.hierarchyFault? cls = none
  contains : c.program.classes.contains cls = true
  paired : ∃ m, d.program.pairing cls = some (.ordinary, some m) ∧
    d.program.classes.contains m = true ∧ ((c.program.classAt cls).foreign = false → ∀ t,
      c.program.names.resolve (c.program.classAt cls).name = some t →
        d.program.names.resolve (d.program.classAt m).name = some (metaclassSymbol t))
  settled : c.program.ListsOwned → (d.program.classAt cls).invalid = false →
    ∀ func ∈ (c.program.classAt cls).members, (c.program.funcAt func).parent = some cls →
      (d.program.funcAt func).invalid = false →
        ∀ e ∈ c.program.listing func, e ∈ d.program.listed cls
  listed : d.Clean → c.program.ListsOwned → (c.program.classAt cls).invalid = false →
    (∀ func ∈ (c.program.classAt cls).members, (c.program.funcAt func).parent = some cls ∧
      (c.program.funcAt func).invalid = false) → (c.program.classAt cls).members.Nodup →
    d.program.listed cls = (c.program.classAt cls).members.flatMap c.program.listing

namespace Session

/-- The first part of binding a class: all but its members. -/
def prepareClass (cls : ClassId) (scope : ScopeId) : Resolve Unit := do
  match ((← program).classAt cls).kind with
  | .concrete => markClass cls
  | .interface => markInterface cls
  resolveMetaclass cls scope

theorem bindClass_eq (cls : ClassId) (scope : ScopeId) :
    bindClass cls scope =
      (prepareClass cls scope >>= fun _ => program >>= fun p =>
        bindMethods cls scope (p.classAt cls).members) := by
  refine funext fun c => ?_
  unfold bindClass prepareClass
  rw [bind_assoc, bind_apply, bind_apply, program_apply]
  dsimp only
  cases (c.program.classAt cls).kind with
  | concrete => exact congrFun (bind_assoc ..).symm c
  | interface => exact congrFun (bind_assoc ..).symm c

end Session

/-- What is known of a class that has been prepared. -/
structure ClassPrepared (cls : ClassId) (c d : Compilation) : Prop where
  fresh : (c.program.classAt cls).info = none
  fits : c.program.hierarchyFault? cls = none
  contains : c.program.classes.contains cls = true
  paired : ∃ m, d.program.pairing cls = some (.ordinary, some m) ∧
    d.program.classes.contains m = true ∧ ((c.program.classAt cls).foreign = false → ∀ t,
      c.program.names.resolve (c.program.classAt cls).name = some t →
        d.program.names.resolve (d.program.classAt m).name = some (metaclassSymbol t))

theorem ClassPrepared.ordinary (h : ClassPrepared cls c d) : d.program.HasRole cls .ordinary := by
  obtain ⟨m, hm, -⟩ := h.paired
  exact hasRole_iff.2 ⟨_, hm⟩

theorem prepareClass_outcome (cls : ClassId) (scope : ScopeId)
    (hf : c.session.strategy = .functional) (hl : c.program.Layered) :
    LeavesOr (Binding c.program (· = cls)) (Session.prepareClass cls scope) c
      (fun _ d => ClassPrepared cls c d)
      fun d => d.program.HasRole cls .ordinary →
        c.program.HasRole cls .ordinary ∨ d.program.Blocked cls := by
  have hrest (kind : ClassKind) : LeavesOr (Binding c.program (· = cls)) (do
        guarded () (mark cls kind)
        Session.resolveMetaclass cls scope) c
      (fun _ d => ClassPrepared cls c d)
      fun d => d.program.HasRole cls .ordinary →
        c.program.HasRole cls .ordinary ∨ d.program.Blocked cls := by
    refine outcome_bind.2 (outcome_mono (guarded_leaves _ hf (mark_leaves cls kind c)) ?_
      fun _ d h => ⟨h.1, h.2.mono fun ho hd => .inl (ho hd)⟩)
    rintro _ d ⟨td, hfresh, hfits, hmarked⟩
    have hready : Ready c.program d := .of_binding td (.of_layered hl)
    have hresolve := (guarded_leaves () (td.extends.strategy.trans hf)
      (resolveMetaclass_leaves cls scope hready (td.layered hl).inOrder)).permit
        fun _ _ _ h => h.binding (· = cls)
    refine outcome_mono hresolve ?_ fun _ e h => ⟨td.trans h.1, h.2.mono fun hb he => .inr (hb ?_)⟩
    · rintro _ e ⟨te, hcd, hpaired⟩
      obtain ⟨hc, hpair⟩ := hmarked hcd
      obtain ⟨m, hmut, hname⟩ := hpaired (hasRole_iff.2 ⟨_, hpair⟩)
      obtain ⟨hm, hback⟩ := mutual_iff.1 hmut
      refine ⟨td.trans te, hfresh, hfits, hc,
        ⟨m, hm, contains_of_pairing hback, fun hforeign t hres => hname hpair ?_ t ?_⟩⟩
      · rw [td.extends.program.foreign hc, hforeign]
      · rw [td.extends.program.name hc]
        exact td.extends.program.names _ _ hres
    · exact isBound_of_hasRole he
  refine leaves_program ?_
  split
  · exact hrest .concrete
  · exact hrest .interface

/-- A class that has been prepared is bound as soon as its members are. -/
theorem bindMembers_leaves {mid : Compilation} (cls : ClassId) (scope : ScopeId)
    (hf : mid.session.strategy = .functional) (ht : Trail (Binding c.program (· = cls)) c mid)
    (hprepared : ClassPrepared cls c mid) :
    LeavesOr (Listing (c.program.JoinsOwn cls))
      (Session.bindMethods cls scope (mid.program.classAt cls).members) mid
      (fun _ d => ClassBound cls c d) fun _ => False := by
  have hord := hprepared.ordinary
  have hw (owner : ClassId) (ho : mid.program.listOwner? cls = some owner) (func : FuncId) :
      c.program.JoinsOwn cls func owner (mid.program.funcAt func).isStatic := by
    rw [Program.listOwner_of_ordinary hord] at ho
    cases ho
    exact ⟨rfl, ht.isStatic_eq func⟩
  have hmethods := bindMethods_leaves cls scope (mid.program.classAt cls).members hf hw
  rw [ht.members_eq cls] at hmethods ⊢
  refine hmethods.post ?_
  rintro _ d td ⟨hmem, hlisted⟩
  have hlisting {func : FuncId} (hparent : (c.program.funcAt func).parent = some cls) :
      mid.program.listing func = c.program.listing func :=
    ht.extends.program.listing_eq (containsFunc_of_parent hparent)
  have hwait {func : FuncId} (howned : c.program.ListsOwned)
      (hvalid : (d.program.classAt cls).invalid = false)
      (hparent : (c.program.funcAt func).parent = some cls)
      (hv : (d.program.funcAt func).invalid = false) : Waits mid func cls :=
    ⟨ht.listsOwned howned, hord,
      (ht.extends.program.parent (containsFunc_of_parent hparent)).trans hparent,
      td.funcValid_of hv, (td.classInvalid_eq cls).symm.trans hvalid⟩
  refine ⟨hprepared.fresh, hprepared.fits, hprepared.contains, ?_, ?_, ?_⟩
  · obtain ⟨m, hm, hcm, hname⟩ := hprepared.paired
    refine ⟨m, td.extends.program.pairing_eq hm, td.extends.program.containsClass m hcm,
      fun hforeign t hres => ?_⟩
    rw [td.extends.program.name hcm]
    exact td.extends.program.names _ _ (hname hforeign t hres)
  · intro howned hvalid func hfunc hparent hv e he
    rw [← hlisting hparent] at he
    exact hmem func hfunc (hwait howned hvalid hparent hv) hv e he
  · intro hclean howned hvalid hall hnodup
    have hempty : mid.program.entries cls = [] := by
      rw [ht.entries_eq howned (fun _ _ _ h => h), entries, hprepared.fresh]
      rfl
    have hvd := td.classValid hclean (ht.classValid (td.extends.clean hclean) hvalid)
    rw [hlisted ?_ hnodup, listed, hempty, List.map_nil, List.nil_append,
      List.flatMap_congr fun func hfunc => hlisting (hall func hfunc).1]
    intro func hfunc
    obtain ⟨hparent, hfv⟩ := hall func hfunc
    have hv := td.funcValid hclean (ht.funcValid (td.extends.clean hclean) hfv)
    refine ⟨hwait howned hvd hparent hv, hv, fun entry hentry => ?_⟩
    rw [hempty] at hentry
    cases hentry

theorem bindClass_outcome (cls : ClassId) (scope : ScopeId)
    (hf : c.session.strategy = .functional) (hl : c.program.Layered) :
    Outcome (Session.bindClass cls scope) c
      (fun _ d => Phases (· = cls) (c.program.JoinsOwn cls) c d ∧ ClassBound cls c d)
      (fun e d => Phases (· = cls) (c.program.JoinsOwn cls) c d ∧
        d.Failed e (Trail (Binding c.program (· = cls)) c d ∧
          (d.program.HasRole cls .ordinary →
            c.program.HasRole cls .ordinary ∨ d.program.Blocked cls))) := by
  rw [Session.bindClass_eq]
  refine outcome_bind.2 (outcome_mono (prepareClass_outcome cls scope hf hl) ?_
    fun _ d h => ⟨⟨d, h.1, .refl _ d⟩, h.2.mono fun ho => ⟨h.1, ho⟩⟩)
  rintro _ mid ⟨ht, hprepared⟩
  have hmembers := bindMembers_leaves cls scope (ht.extends.strategy.trans hf) ht hprepared
  refine outcome_bind.2 (outcome_program.2 (outcome_mono hmembers ?_ ?_))
  · exact fun _ d hd => ⟨⟨mid, ht, hd.1⟩, hd.2⟩
  · exact fun _ d hd => ⟨⟨mid, ht, hd.1⟩, hd.2.mono False.elim⟩

/-! ## Operations -/

theorem Phases.extends (h : Phases marks lists c d) : c.Extends d := by
  obtain ⟨mid, hb, hl⟩ := h
  exact hb.extends.trans hl.extends

/-- What every change keeps is kept in both phases. -/
theorem Phases.invariant {I : Compilation → Prop} (hI : ∀ c d deed, Change deed c d → I c → I d)
    (h : Phases marks lists c d) (hc : I c) : I d := by
  obtain ⟨mid, hb, hl⟩ := h
  have hmid := hb.invariant (fun c d deed _ hstep => hI c d deed hstep) hc
  exact hl.invariant (fun c d deed _ hstep => hI c d deed hstep) hmid

/-- A class that is bound in the course of the two trails is one of those marked. -/
theorem Phases.ordinary (h : Phases marks lists c d) {x : ClassId}
    (hx : d.program.HasRole x .ordinary) : c.program.HasRole x .ordinary ∨ marks x := by
  obtain ⟨mid, hb, hl⟩ := h
  have hmid := hasRole_of_pairing_eq (hl.pairing_eq x) hx
  refine hb.invariant (I := fun d => d.program.HasRole x .ordinary →
    c.program.HasRole x .ordinary ∨ marks x) ?_ .inl hmid
  intro d e deed hp hstep ih he
  rcases hstep.ordinary_of_ordinary he with hd | rfl
  · exact ih hd
  · exact .inr hp

/-- However a step ends, it leaves the two trails, and it fails with a fatal error only if the
session has ended. -/
def Runs {α : Type} (marks : ClassId → Prop) (lists : FuncId → ClassId → Bool → Prop)
    (x : Resolve α) (c : Compilation) : Prop :=
  Outcome x c (fun _ d => Phases marks lists c d) fun e d =>
    Phases marks lists c d ∧ (e.isFatal = true → d.session.aborted = true)

theorem Runs.of_binding {α : Type} {x : Resolve α} {P : α → Compilation → Prop}
    {E : Compilation → Prop} (h : LeavesOr (Binding c.program marks) x c P E) :
    Runs marks lists x c :=
  outcome_mono h (fun _ d h => ⟨d, h.1, .refl _ d⟩)
    fun _ d h => ⟨⟨d, h.1, .refl _ d⟩, h.2.fatal⟩

theorem Runs.of_listing {α : Type} {x : Resolve α} {P : α → Compilation → Prop}
    {E : Compilation → Prop} (h : LeavesOr (Listing lists) x c P E) : Runs marks lists x c :=
  outcome_mono h (fun _ _ h => ⟨c, .refl _ c, h.1⟩)
    fun _ _ h => ⟨⟨c, .refl _ c, h.1⟩, h.2.fatal⟩

theorem Runs.bind_pure {α β : Type} {x : Resolve α} (h : Runs marks lists x c) (f : α → β) :
    Runs marks lists (x >>= fun a => pure (f a)) c :=
  outcome_bind.2 (outcome_mono h (fun _ _ h => h) fun _ _ h => h)

/-- The classes that an operation may mark. -/
def Operation.Marks : Operation → ClassId → Prop
  | markClass cls | markInterface cls | bindClass cls _ => (· = cls)
  | _ => fun _ => False

/-- Which functions an operation may put into which list, and on which side: always the one that
the function is declared for, unless functions are recorded that were given for a side. -/
def Operation.Lists (p : Program) : Operation → FuncId → ClassId → Bool → Prop
  | recordMethod _ cls | bindMethod _ cls _ => fun func owner isClassMethod =>
    p.listOwner? cls = some owner ∧ isClassMethod = (p.funcAt func).isStatic
  | recordGroup group => fun func owner isClassMethod =>
    p.listOwner? (p.groupAt group).target = some owner ∧
      isClassMethod = (p.funcAt func).isStatic
  | recordMethods source ofInstances ofClass => fun func owner isClassMethod =>
    p.listOwner? (source.target p) = some owner ∧
      func ∈ if isClassMethod then ofClass else ofInstances
  | bindClass cls _ => p.JoinsOwn cls
  | _ => fun _ _ _ => False

theorem recordGroup_leaves (group : GroupId) (hf : c.session.strategy = .functional) :
    Leaves (Listing ((Operation.recordGroup group).Lists c.program)) (Session.recordGroup group) c
      fun _ _ => True := by
  refine leaves_program (guarded_leaves _ hf (recordMethods_leaves _ _ _ c ?_))
  intro owner ho func side hfunc
  have hmem : func ∈ if side then (List.partition _ _).1 else (List.partition _ _).2 := hfunc
  simp only [List.partition_eq_filter_filter] at hmem
  refine ⟨ho, ?_⟩
  cases side with
  | true => exact (List.mem_filter.1 hmem).2.symm
  | false => simpa using (List.mem_filter.1 hmem).2

/-- Whether the operation binds functions and no classes. -/
def Operation.sparesClasses : Operation → Bool
  | markClass .. | markInterface .. | resolveMetaclass .. | runtimeMetaclass .. | bindClass .. =>
    false
  | _ => true

/-- Binding functions asks nothing of the classes. -/
theorem Operation.runs_of_sparesClasses {op : Operation} (hop : op.sparesClasses = true)
    (hf : c.session.strategy = .functional) : Runs op.Marks (op.Lists c.program) op.run c := by
  cases op with
  | internSelector text arity =>
    exact (Runs.of_listing
      (guarded_leaves _ hf (leaves_map (internSelector_leaves text arity c)))).bind_pure _
  | assignSelector func scope =>
    exact (Runs.of_listing (guarded_leaves _ hf (assignSelector_leaves func scope c))).bind_pure _
  | validateSelector func =>
    exact (Runs.of_listing (guarded_leaves _ hf (validateSelector_leaves func c))).bind_pure _
  | checkLinkage func =>
    exact (Runs.of_listing (guarded_leaves _ hf (checkLinkage_leaves func c))).bind_pure _
  | recordMethod func cls =>
    have hrecord : LeavesOr (Listing ((recordMethod func cls).Lists c.program)) _ c _ _ :=
      recordMethod_leaves func cls fun _ ho => ⟨ho, rfl⟩
    exact (Runs.of_listing (guarded_leaves _ hf hrecord)).bind_pure _
  | recordMethods source ofInstances ofClass =>
    have hrecord : Leaves (Listing ((recordMethods source ofInstances ofClass).Lists c.program))
        _ c _ :=
      recordMethods_leaves source ofInstances ofClass c fun _ ho _ _ hfunc => ⟨ho, hfunc⟩
    exact (Runs.of_listing (guarded_leaves _ hf hrecord)).bind_pure _
  | recordGroup group => exact (Runs.of_listing (recordGroup_leaves group hf)).bind_pure _
  | addSelectorParam func scope =>
    have hparam : Leaves (Listing fun _ _ _ => False) (Resolve.addSelectorParam func scope) c
        fun _ _ => True :=
      outcome_mono (addSelectorParam_outcome _ func scope c) (fun _ _ h => ⟨h.1, trivial⟩)
        fun _ _ => False.elim
    exact (Runs.of_listing (guarded_leaves _ hf hparam)).bind_pure _
  | bindMethod func cls scope =>
    have hbind : LeavesOr (Listing ((bindMethod func cls scope).Lists c.program)) _ c _ _ :=
      bindMethod_leaves func cls scope hf fun _ ho => ⟨ho, rfl⟩
    exact (Runs.of_listing hbind).bind_pure _
  | markClass | markInterface | resolveMetaclass | runtimeMetaclass | bindClass => cases hop

theorem Operation.runs (op : Operation) (hf : c.session.strategy = .functional)
    (hl : c.program.Layered) : Runs op.Marks (op.Lists c.program) op.run c := by
  have hready : Ready c.program c := .of_layered hl
  cases op with
  | markClass cls =>
    exact (Runs.of_binding (guarded_leaves _ hf (mark_leaves cls .concrete c))).bind_pure _
  | markInterface cls =>
    exact (Runs.of_binding (guarded_leaves _ hf (mark_leaves cls .interface c))).bind_pure _
  | resolveMetaclass cls scope =>
    have hresolve := guarded_leaves () hf (resolveMetaclass_leaves cls scope hready hl.inOrder)
    exact (Runs.of_binding (hresolve.permit fun _ _ _ h => h.binding _)).bind_pure _
  | runtimeMetaclass cls =>
    have hruntime : LeavesOr (Resolving c.program _) _ c _ _ := runtimeMetaclass_leaves cls c
    have hguarded := guarded_leaves none hf hruntime
    exact (Runs.of_binding (hguarded.permit fun _ _ _ h => h.binding _)).bind_pure _
  | bindClass cls scope =>
    refine Runs.bind_pure (outcome_mono (bindClass_outcome cls scope hf hl) ?_ ?_) _
    · exact fun _ _ h => h.1
    · exact fun _ _ h => ⟨h.1, h.2.fatal⟩
  | _ => exact runs_of_sparesClasses rfl hf

/-- Whatever an operation does and however it ends, it leaves the two trails. -/
theorem Operation.phases (op : Operation) (hf : c.session.strategy = .functional)
    (hl : c.program.Layered) : Phases op.Marks (op.Lists c.program) c (finish op.run c) :=
  outcome_finish.1 (outcome_mono (op.runs hf hl) (fun _ _ h => h) fun _ _ h => h.1)

/-- An operation fails with a fatal error only if the session has ended. -/
theorem Operation.aborted_of_fatal (op : Operation) (hf : c.session.strategy = .functional)
    (hl : c.program.Layered) {e : BindError} (h : op.run c = .error e d)
    (he : e.isFatal = true) : d.session.aborted = true :=
  ((outcome_of_error h).1 (op.runs hf hl)).2 he

end ObjcBinding
