import ObjcBinding.Proofs.Overrides
import ObjcBinding.Proofs.ResolutionOutcomes
import ObjcBinding.Proofs.RootMetaclass

/-!
# Walks over the hierarchy

Superclasses are followed from bound classes only. There every link leads to an older class, since
the base of a class is declared before the class; so each walk ends. The links of metaclasses are
another matter: the metaclass that a header names may be older than its superclass, or be its own
superclass, but no walk follows such a link. Resolving a class goes on to its base and interfaces,
which are older as well, and whatever is made or linked meanwhile, this remains so.

* `Growth.parentsOlder`, `Change.parentsOlder`: all but metaclasses have older parents;
* `Grounded.walkEnds`: a walk that starts at a bound class ends;
* `resolveStep_congr`: a resolution depends on those of the parents only;
* `resolveOver_eq`: a resolution ends, having had room enough;
* `walks_end`: all walks end, although there are links that lead nowhere.
-/

namespace ObjcBinding

/-! ## Descents -/

section

variable {α : Type} {next : α → Option α} {rank : α → Nat} {P : α → Prop}
  (hnext : ∀ a b, P a → next a = some b → rank b < rank a ∧ P b)

include hnext

/-- A walk on which the rank gets smaller at each link is no longer than the rank of its start. -/
theorem ends_of_descent {a : α} (ha : P a) : Ends next (rank a + 1) a := by
  generalize hn : rank a = n
  induction n using Nat.strongRecOn generalizing a with
  | ind n ih =>
    cases hb : next a with
    | none => exact .here hb
    | some b =>
      obtain ⟨hlt, hPb⟩ := hnext a b ha hb
      rw [hn] at hlt
      exact .step hb ((ih (rank b) hlt hPb rfl).mono hlt)

theorem descent_of_mem {a : α} (ha : P a) (bound : Nat) :
    ∀ x ∈ chain next bound a, P x ∧ rank x ≤ rank a := by
  induction bound generalizing a with
  | zero => nofun
  | succ bound ih =>
    rw [chain_succ, List.forall_mem_cons]
    refine ⟨⟨ha, Nat.le_refl _⟩, ?_⟩
    cases hb : next a with
    | none => nofun
    | some b =>
      obtain ⟨hlt, hPb⟩ := hnext a b ha hb
      exact fun x hx => (ih hPb x hx).imp_right fun hle => Nat.le_trans hle (Nat.le_of_lt hlt)

theorem pairwise_descent {a : α} (ha : P a) (bound : Nat) :
    (chain next bound a).Pairwise fun x y => rank y < rank x := by
  induction bound generalizing a with
  | zero => exact .nil
  | succ bound ih =>
    rw [chain_succ]
    cases hb : next a with
    | none => exact List.pairwise_singleton _ _
    | some b =>
      obtain ⟨hlt, hPb⟩ := hnext a b ha hb
      refine .cons (fun x hx => ?_) (ih hPb)
      exact Nat.lt_of_le_of_lt (descent_of_mem hnext hPb bound x hx).2 hlt

end

/-! ## Older parents -/

/-- The base and the interfaces of a class that is added are declared already. -/
def Event.ParentsDeclared (p : Program) : Event → Prop
  | .grow (.addClass d) => d.base.all p.classes.contains = true ∧
      d.interfaces.all p.classes.contains = true
  | _ => True

instance (p : Program) : DecidablePred (Event.ParentsDeclared p)
  | .grow (.addClass d) => inferInstanceAs (Decidable (d.base.all p.classes.contains = true ∧
      d.interfaces.all p.classes.contains = true))
  | .grow (.intern _) | .grow (.addScope _) | .grow (.declare ..) | .grow (.addFunction _)
  | .grow (.addMethod ..) | .grow (.addGroup _) | .grow (.addGroupMember ..) | .run _ =>
    .isTrue trivial

/-- The parents of every declaration that is no metaclass were declared before it. -/
def Program.ParentsOlder (p : Program) : Prop :=
  ∀ x y, p.IsParent x y → ¬ p.HasRole x .metaclass → y.index < x.index

/-- What walks rely on: superclasses are as declared, the other halves of metaclasses are classes,
and parents are older. -/
structure Compilation.Grounded (c : Compilation) : Prop where
  regular : c.Regular
  older : c.program.ParentsOlder

open Program

variable {deed : Deed} {c d : Compilation} {cls : ClassId} {scope : ScopeId}

theorem Program.index_lt_size {p : Program} {x : ClassId} {role : Role} (h : p.HasRole x role) :
    x.index < p.classes.size :=
  Arena.contains_iff_lt.1 (contains_of_hasRole h)

theorem Program.contains_of_isParent {p : Program} {x y : ClassId} (h : p.IsParent x y) :
    p.classes.contains x = true := by
  refine contains_of_ne fun hd => ?_
  rw [IsParent, hd] at h
  rcases h with h | h <;> cases h

/-- The only classes that a change makes are metaclasses. -/
theorem Change.parentsOlder (h : Change deed c d) (hc : c.program.ParentsOlder) :
    d.program.ParentsOlder := by
  intro x y hxy hx
  have hext := h.extends.program
  rcases h.contains_cases (contains_of_isParent hxy) with hold | ⟨cls, hmakes⟩
  · exact hc x y ((hext.isParent_iff hold).1 hxy) fun hm => hx (hext.hasRole hm)
  · exact absurd (hasRole_iff.2 ⟨_, hmakes.pairing⟩) hx

theorem Trail.grounded {permits : Compilation → Deed → Prop} (h : Trail permits c d)
    (hc : c.Grounded) : d.Grounded :=
  h.invariant (fun _ _ _ _ hstep hg => ⟨hg.regular.change hstep, hstep.parentsOlder hg.older⟩) hc

theorem Growth.parentsOlder {g : Growth} {p : Program}
    (hg : Event.ParentsDeclared p (.grow g)) (hp : p.ParentsOlder) :
    (g.apply p).ParentsOlder := by
  intro x y hxy hx
  have hext := g.apply_extends p
  by_cases hold : p.classes.contains x = true
  · exact hp x y ((hext.isParent_iff hold).1 hxy) fun hm => hx (hext.hasRole hm)
  · obtain ⟨d, rfl, he⟩ := (g.contains_cases (contains_of_isParent hxy)).resolve_left hold
    have hy : p.classes.contains y = true := by
      rw [IsParent, he] at hxy
      rcases hxy with hb | hi
      · have hbase := hg.1
        rwa [hb, Option.all_some] at hbase
      · exact List.all_eq_true.1 hg.2 y hi
    rw [Arena.contains_iff_lt] at hy hold
    exact Nat.lt_of_lt_of_le hy (Nat.le_of_not_lt hold)

theorem Run.grounded {past : List Compilation}
    (h : Run (fun p e => e.Unbound ∧ e.ParentsDeclared p) past c) : c.Grounded where
  regular := .of_run (fun _ _ he => he.1) h
  older := by
    refine h.changes (I := fun c => c.program.ParentsOlder) (fun _ _ he => he.1) ?_
      (fun _ _ hg => Growth.parentsOlder hg.2) fun _ _ _ hstep => hstep.parentsOlder
    intro renders x y hxy
    cases contains_of_isParent hxy

namespace Compilation.Grounded

theorem parent (h : c.Grounded) {x y : ClassId} (hx : c.program.HasRole x .ordinary)
    (hxy : c.program.IsParent x y) : y.index < x.index :=
  h.older x y hxy fun hm => nomatch hasRole_unique hx hm

/-- Superclasses are followed from bound classes to bound classes that are older. -/
theorem superclass (h : c.Grounded) {x y : ClassId} (hx : c.program.HasRole x .ordinary)
    (hxy : c.program.superclass? x = some y) :
    y.index < x.index ∧ c.program.HasRole y .ordinary := by
  have hbase := h.regular.layered.superclasses.superclass?_eq hx
  exact ⟨h.parent hx (.inl (hbase.symm.trans hxy)),
    h.regular.layered.superclass_ordinary hx hxy⟩

end Compilation.Grounded

/-! ## Walks along superclasses -/

/-- The walk along superclasses from `cls` ends, after no more classes than the id of `cls` allows.
It meets bound classes only, each older than those before it, and has room enough. -/
structure Program.WalkEnds (p : Program) (cls : ClassId) : Prop where
  ends : Ends p.superclass? (cls.index + 1) cls
  ordinary : ∀ x ∈ p.lineage cls, p.HasRole x .ordinary
  older : (p.lineage cls).Pairwise fun x y => y.index < x.index
  room : ∀ bound, cls.index < bound → chain p.superclass? bound cls = p.lineage cls

theorem Compilation.Grounded.walkEnds (h : c.Grounded)
    (hcls : c.program.HasRole cls .ordinary) : c.program.WalkEnds cls := by
  have hnext (x y : ClassId) (hx : c.program.HasRole x .ordinary) := h.superclass hx (y := y)
  have hends := ends_of_descent hnext hcls
  have hroom (bound : Nat) (hlt : cls.index < bound) :
      chain c.program.superclass? bound cls =
        chain c.program.superclass? (cls.index + 1) cls := by
    obtain ⟨more, rfl⟩ := Nat.exists_eq_add_of_le hlt
    exact chain_eq_of_ends hends more
  refine ⟨hends, fun x hx => (descent_of_mem hnext hcls _ x hx).1,
    pairwise_descent hnext hcls _, fun bound hlt => ?_⟩
  rw [hroom bound hlt, lineage, hroom _ (Nat.lt_succ_of_lt (index_lt_size hcls))]

/-! ## The recursion of a resolution -/

namespace Resolve

variable {α β : Type}

/-- From every compilation that is grounded both steps do the same. If they end well, then what they
leave behind is grounded. -/
def Alike (x y : Resolve α) : Prop :=
  ∀ c : Compilation, c.Grounded →
    x c = y c ∧ Outcome x c (fun _ d => d.Grounded) fun _ _ => True

theorem bind_congr_of_alike {x y : Resolve α} {f g : α → Resolve β} (h : Alike x y)
    (hfg : ∀ a d, d.Grounded → f a d = g a d) (hc : c.Grounded) :
    (x >>= f) c = (y >>= g) c := by
  obtain ⟨heq, hout⟩ := h c hc
  rw [bind_apply, bind_apply, ← heq]
  unfold Outcome at hout
  cases hx : x c with
  | ok a d =>
    rw [hx] at hout
    exact hfg a d hout
  | error e d => rfl

section

variable {resolve resolve' : ClassId → Resolve Unit}

theorem interfaceMetaclasses_congr {l : List ClassId}
    (h : ∀ i ∈ l, Alike (resolve i) (resolve' i)) (hc : c.Grounded) :
    interfaceMetaclasses resolve l c = interfaceMetaclasses resolve' l c := by
  induction l generalizing c with
  | nil => rfl
  | cons i rest ih =>
    refine bind_congr_of_alike (h i List.mem_cons_self) (fun _ d hd => ?_) hc
    have hrest := ih (fun j hj => h j (List.mem_cons_of_mem i hj)) hd
    change (interfaceMetaclasses resolve rest >>= _) d =
      (interfaceMetaclasses resolve' rest >>= _) d
    rw [bind_apply, bind_apply, hrest]

theorem superMetaclasses_congr
    (h : ∀ x, c.program.superclass? cls = some x ∨ x ∈ (c.program.classAt cls).interfaces →
      Alike (resolve x) (resolve' x)) (hc : c.Grounded) :
    superMetaclasses resolve cls c = superMetaclasses resolve' cls c := by
  have hrest (superMetaclass : Option ClassId) (d : Compilation) (hd : d.Grounded) :
      (do
        let interfaces ← interfaceMetaclasses resolve (c.program.classAt cls).interfaces
        return (superMetaclass, interfaces) : Resolve _) d =
      (do
        let interfaces ← interfaceMetaclasses resolve' (c.program.classAt cls).interfaces
        return (superMetaclass, interfaces) : Resolve _) d := by
    rw [bind_apply, bind_apply, interfaceMetaclasses_congr (fun i hi => h i (.inr hi)) hd]
  unfold superMetaclasses
  rw [bind_apply, bind_apply, program_apply]
  dsimp only
  cases hsup : (c.program.classAt cls).superclass with
  | none => exact hrest none c hc
  | some superclass =>
    exact bind_congr_of_alike (h superclass (.inl hsup)) (fun _ d hd => hrest _ d hd) hc

theorem synthesize_congr (h : superMetaclasses resolve cls c = superMetaclasses resolve' cls c) :
    synthesize resolve cls scope c = synthesize resolve' cls scope c := by
  rw [synthesize, synthesize, bind_apply, bind_apply, h]

theorem linkForeign_congr {metaclass : ClassId}
    (h : superMetaclasses resolve cls c = superMetaclasses resolve' cls c) :
    linkForeign resolve cls metaclass c = linkForeign resolve' cls metaclass c := by
  rw [linkForeign, linkForeign, bind_apply, bind_apply, program_apply]
  dsimp only
  cases (c.program.classAt metaclass).info with
  | some i => rfl
  | none =>
    dsimp only
    rw [bind_apply, bind_apply, h]

/-- What the resolution of a class does depends on the resolutions of its base and its interfaces,
and of no other class. -/
theorem resolveStep_congr
    (h : c.program.HasRole cls .ordinary → ∀ x, c.program.IsParent cls x →
      Alike (resolve x) (resolve' x)) (hc : c.Grounded) :
    resolveStep resolve cls scope c = resolveStep resolve' cls scope c := by
  rw [resolveStep, resolveStep, bind_apply, bind_apply, program_apply]
  dsimp only
  cases hi : (c.program.classAt cls).info with
  | none => rfl
  | some i =>
    cases hr : i.role with
    | metaclass => simp only [ClassInfo.isMetaclass, hr, decide_true, if_true]
    | ordinary =>
      have ho : c.program.HasRole cls .ordinary := ⟨i, hi, hr⟩
      have hsupers : superMetaclasses resolve cls c = superMetaclasses resolve' cls c := by
        refine superMetaclasses_congr (fun x hx => h ho x ?_) hc
        rwa [hc.regular.layered.superclasses.superclass?_eq ho] at hx
      simp only [ClassInfo.isMetaclass, hr, reduceCtorEq, decide_false, Bool.false_eq_true,
        if_false]
      cases i.paired with
      | some metaclass => rfl
      | none =>
        cases (c.program.classAt cls).foreign with
        | false => exact synthesize_congr hsupers
        | true =>
          cases (c.program.classAt cls).foreignMetaclass with
          | none => rfl
          | some metaclass => exact linkForeign_congr hsupers

end

/-- `resolveBelow` with something else to be done where there is no room left. -/
def resolveOver (beyond : ClassId → Resolve Unit) (scope : ScopeId) : Nat → ClassId → Resolve Unit
  | 0, cls => beyond cls
  | height + 1, cls => resolveStep (resolveOver beyond scope height) cls scope

theorem resolveBelow_eq_over (scope : ScopeId) (height : Nat) :
    resolveBelow scope height = resolveOver (fun _ => return ()) scope height := by
  induction height with
  | zero => rfl
  | succ height ih =>
    funext cls
    rw [resolveBelow, resolveOver, ih]

/-- A resolution with room for all bound classes leaves a grounded compilation behind. -/
theorem resolveBelow_grounded {height : Nat} (hle : c.program.classes.size ≤ height)
    (hc : c.Grounded) (cls : ClassId) (scope : ScopeId) :
    Outcome (resolveBelow scope height cls) c (fun _ d => d.Grounded) fun _ _ => True := by
  have hlayered := hc.regular.layered
  have hin (ho : c.program.HasRole cls .ordinary) : c.program.Within height cls := by
    obtain ⟨order, hm, hall⟩ := hlayered.inOrder
    exact ⟨order, hm, hall cls ho, Nat.le_trans hm.length_le hle⟩
  exact outcome_mono (resolveBelow_leaves scope height cls (.of_layered hlayered) hin)
    (fun _ _ hd => hd.1.grounded hc) fun _ _ _ => trivial

/-- With room for `cls` and the older classes, it does not matter how much room there is, nor what
would be done without it. -/
theorem resolveOver_alike (beyond beyond' : ClassId → Resolve Unit) {height height' : Nat}
    (h : cls.index < height) (h' : cls.index < height') :
    Alike (resolveOver beyond scope height cls) (resolveOver beyond' scope height' cls) := by
  induction height generalizing cls beyond' height' with
  | zero => exact absurd h (Nat.not_lt_zero _)
  | succ height ih =>
    have heq (beyond' : ClassId → Resolve Unit) {height' : Nat} (h' : cls.index < height')
        {c : Compilation} (hc : c.Grounded) :
        resolveOver beyond scope (height + 1) cls c = resolveOver beyond' scope height' cls c := by
      cases height' with
      | zero => exact absurd h' (Nat.not_lt_zero _)
      | succ height' =>
        refine resolveStep_congr (fun ho x hx => ?_) hc
        have hlt := hc.parent ho hx
        exact ih beyond' (Nat.lt_of_lt_of_le hlt (Nat.le_of_lt_succ h))
          (Nat.lt_of_lt_of_le hlt (Nat.le_of_lt_succ h'))
    intro c hc
    refine ⟨heq beyond' h' hc, ?_⟩
    -- what is left behind is known where there is room for all classes
    have hroom := heq (fun _ => return ()) (Nat.lt_succ_of_le
      (Nat.le_max_left cls.index c.program.classes.size)) hc
    rw [Outcome, hroom, ← resolveBelow_eq_over]
    exact resolveBelow_grounded (Nat.le_succ_of_le (Nat.le_max_right ..)) hc cls scope

theorem resolveOver_eq (hc : c.Grounded) (beyond : ClassId → Resolve Unit) {height : Nat}
    (h : c.program.HasRole cls .ordinary → cls.index ≤ height) :
    resolveOver beyond scope (height + 1) cls c = resolveMetaclass cls scope c := by
  rw [resolveMetaclass_eq, resolveBelow_eq_over]
  refine resolveStep_congr (fun ho x hx => ?_) hc
  have hlt := hc.parent ho hx
  exact resolveOver_alike _ _ (Nat.lt_of_lt_of_le hlt (h ho)) (Nat.lt_trans hlt (index_lt_size ho))

/-- A resolution is one step, in which those of the parents take place. -/
theorem resolveMetaclass_unfold (hc : c.Grounded) (cls : ClassId) (scope : ScopeId) :
    resolveMetaclass cls scope c =
      resolveStep (fun x => resolveMetaclass x scope) cls scope c := by
  rw [resolveMetaclass_eq, resolveBelow_eq_over]
  refine resolveStep_congr (fun ho x hx d hd => ?_) hc
  obtain ⟨heq, hout⟩ := resolveOver_alike _ (fun _ => return ())
    (Nat.lt_trans (hc.parent ho hx) (index_lt_size ho)) (Nat.lt_succ_self _) d hd
  exact ⟨heq.trans (resolveOver_eq hd _ fun _ => Nat.le_refl _), hout⟩

end Resolve

/-! ## All walks -/

/-- The declaration of a header that has become a metaclass. -/
def Program.IsForeignMetaclass (p : Program) (m : ClassId) : Prop :=
  (p.classAt m).info.any (fun i => i.isMetaclass && i.foreign) = true

instance (p : Program) : DecidablePred p.IsForeignMetaclass :=
  fun _ => inferInstanceAs (Decidable (_ = true))

/-- The header of `Derived` names the metaclass of `Base`, which is above it, and that of `Leaf` an
old declaration; for `Middle`, which is between these two, a metaclass is made. `Tip`, below `Leaf`,
is not resolved. -/
def strayLinkEvents : List Event :=
  let shape (name : Symbol) (base metaclass : Option ClassId) : ClassDecl :=
    { name, kind := .concrete, span := .point 0 1 1, base, foreign := metaclass.isSome
      foreignMetaclass := metaclass }
  [.grow (.addScope none), .grow (.intern "Meta"), .grow (.intern "LeafMeta"),
    .grow (.intern "Base"), .grow (.intern "Derived"), .grow (.intern "Middle"),
    .grow (.intern "Leaf"), .grow (.intern "Tip"),
    .grow (.addClass (shape ⟨5⟩ none none)), .grow (.addClass (shape ⟨6⟩ none none)),
    .grow (.addClass (shape ⟨7⟩ none (some ⟨0⟩))),
    .grow (.addClass (shape ⟨8⟩ (some ⟨2⟩) (some ⟨0⟩))),
    .grow (.addClass (shape ⟨9⟩ (some ⟨3⟩) none)),
    .grow (.addClass (shape ⟨10⟩ (some ⟨4⟩) (some ⟨1⟩))),
    .grow (.addClass (shape ⟨11⟩ (some ⟨5⟩) none)),
    .run (.markClass ⟨2⟩), .run (.markClass ⟨3⟩), .run (.markClass ⟨4⟩), .run (.markClass ⟨5⟩),
    .run (.markClass ⟨6⟩),
    .run (.resolveMetaclass ⟨3⟩ ⟨0⟩), .run (.resolveMetaclass ⟨5⟩ ⟨0⟩)]

theorem run_strayLink :
    Run (fun p e => e.Unbound ∧ e.ParentsDeclared p)
      (Event.play [] (.new .functional false) strayLinkEvents).1
      (Event.play [] (.new .functional false) strayLinkEvents).2 :=
  (Run.start false).play (by decide +kernel)

open Resolve in
/-- At all times every walk over the hierarchy ends: the superclass of a bound class is an older
bound class, and the other half of a metaclass is a bound class; so do the search for the root of
the class that a metaclass belongs to, the searches from the class that has the list of a class or
metaclass and from its superclass, and the resolution of any class or metaclass, which is one step
around those of its parents and never runs out of room. This is so although the superclass of a
metaclass that a header names may be that metaclass itself, or be younger. -/
theorem walks_end :
    (∀ past c, Run (fun p e => e.Unbound ∧ e.ParentsDeclared p) past c →
      (∀ x y, c.program.HasRole x .ordinary → c.program.superclass? x = some y →
        y.index < x.index ∧ c.program.HasRole y .ordinary) ∧
      (∀ m partner, c.program.pairing m = some (.metaclass, partner) →
        ∃ x, partner = some x ∧ c.program.HasRole x .ordinary ∧ c.program.WalkEnds x ∧
          c.program.LeadsTo x (c.program.rootOf x)) ∧
      (∀ cls owner, c.program.listOwner? cls = some owner → c.program.WalkEnds owner ∧
        ∀ x, c.program.superclass? owner = some x → c.program.WalkEnds x) ∧
      ∀ cls scope,
        resolveMetaclass cls scope c =
          resolveStep (fun x => resolveMetaclass x scope) cls scope c ∧
        ∀ beyond height, (c.program.HasRole cls .ordinary → cls.index ≤ height) →
          resolveOver beyond scope (height + 1) cls c = resolveMetaclass cls scope c) ∧
    ∃ past c m m' y, Run (fun p e => e.Unbound ∧ e.ParentsDeclared p) past c ∧
      c.session.aborted = false ∧
      c.program.IsForeignMetaclass m ∧ c.program.superclass? m = some m ∧
      c.program.IsForeignMetaclass m' ∧ c.program.superclass? m' = some y ∧
      m'.index < y.index := by
  refine ⟨fun past c h => ?_, _, _, ⟨0⟩, ⟨1⟩, ⟨7⟩, run_strayLink, ?_⟩
  · have hc := h.grounded
    have howned := hc.regular.tables.owned
    have hlayered := hc.regular.layered
    refine ⟨fun x y hx => hc.superclass hx, fun m partner hm => ?_, fun cls owner ho => ?_,
      fun cls scope => ⟨resolveMetaclass_unfold hc cls scope, fun beyond height =>
        resolveOver_eq hc beyond⟩⟩
    · cases partner with
      | none => exact absurd hm (hlayered.partnered m)
      | some x =>
        have hx := howned.partner m x hm
        exact ⟨x, rfl, hx, hc.walkEnds hx, hlayered.leadsTo_rootOf hx⟩
    · have hordinary := howned.listOwner ho
      exact ⟨hc.walkEnds hordinary, fun x hx => hc.walkEnds (hc.superclass hordinary hx).2⟩
  · decide +kernel

/-- The metaclass of `Leaf` is older than its superclass, which was made for `Middle`. The search
for the root ends all the same, at `Base`, and so does the resolution of `Tip`. -/
theorem walks_end_strayLink :
    let c := (Event.play [] (.new .functional false) strayLinkEvents).2
    c.program.superclass? ⟨1⟩ = some ⟨7⟩ ∧ c.program.pairing ⟨1⟩ = some (.metaclass, some ⟨5⟩) ∧
      c.program.WalkEnds ⟨5⟩ ∧ c.program.LeadsTo ⟨5⟩ ⟨2⟩ ∧
      ∀ beyond, Resolve.resolveOver beyond ⟨0⟩ 7 ⟨6⟩ c = Resolve.resolveMetaclass ⟨6⟩ ⟨0⟩ c := by
  intro c
  have hpair : c.program.pairing ⟨1⟩ = some (.metaclass, some ⟨5⟩) := by decide +kernel
  obtain ⟨-, hpartner, -, hresolution⟩ := walks_end.1 _ _ run_strayLink
  obtain ⟨x, hx, -, hwalk, hroot⟩ := hpartner ⟨1⟩ _ hpair
  cases hx
  rw [show c.program.rootOf ⟨5⟩ = ⟨2⟩ by decide +kernel] at hroot
  exact ⟨by decide +kernel, hpair, hwalk, hroot,
    fun beyond => (hresolution ⟨6⟩ ⟨0⟩).2 beyond 6 fun _ => Nat.le_refl _⟩

end ObjcBinding
