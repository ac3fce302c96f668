import ObjcBinding.Proofs.Completeness
import ObjcBinding.Proofs.MutualPairs
import ObjcBinding.Proofs.Overrides

/-!
# Classes that are bound by half

Classes are bound one after the other, and those that fail are passed over. A class is marked
before its metaclass is resolved. If then a foreign class above it turns out to have no metaclass,
the error is charged to that class: the one below stays marked and valid, without a metaclass and
without methods, and is emitted as such.

* `Attempts.bindEach`: a bound class is complete, or else it is blocked by a class above it, and
  then nothing more is ever done for it;
* `halfBound_iff`: exactly the emitted classes that are derived from a stuck class were not bound.
-/

namespace ObjcBinding

open Program Resolve

variable {p : Program} {deed : Deed} {c d e : Compilation} {cls x y : ClassId}
  {marks : ClassId → Prop} {lists : FuncId → ClassId → Bool → Prop} {done : List ClassId}

/-! ## Pairs are made from above -/

/-- The bound classes that a paired class is directly derived from are paired. -/
def Program.PairedAbove (p : Program) : Prop := ∀ x, p.IsPaired x → p.ParentsPaired x

theorem Program.PairedAbove.derivedFrom (h : p.PairedAbove) (hx : p.IsPaired x)
    (hxy : p.DerivedFrom x y) (hy : p.HasRole y .ordinary) : p.IsPaired y := by
  induction hxy using Relation.TransGen.head_induction_on with
  | single hxy => exact h _ hx _ hxy.2 hy
  | head hxz hzy ih =>
    obtain ⟨w, ⟨hz, -⟩, -⟩ := Relation.TransGen.head'_iff.1 hzy
    exact ih (h _ hx _ hxz.2 hz)

/-- A class that is blocked is not paired. -/
theorem Program.PairedAbove.not_isPaired (h : p.PairedAbove) (hb : p.Blocked x) :
    ¬ p.IsPaired x := by
  obtain ⟨y, hy, hstuck⟩ := hb
  intro hx
  have hpaired : p.IsPaired y := by
    rcases hy with rfl | hy
    · exact hx
    · exact h.derivedFrom hx hy (hasRole_iff.2 ⟨_, hstuck.unpaired⟩)
  obtain ⟨m, hm⟩ := hpaired
  rw [hstuck.unpaired] at hm
  cases hm

/-- When a class becomes paired, those that it is directly derived from are paired already. -/
theorem Change.parentsPaired_of_new (h : Change deed c d) (hd : d.session.aborted = false)
    (hc : c.program.PairsLinked) (hold : ¬ c.program.IsPaired x) (hnew : d.program.IsPaired x) :
    c.program.HasRole x .ordinary ∧ c.program.ParentsPaired x := by
  obtain ⟨m, hm⟩ := hnew
  obtain rfl := h.pair_of_new (fun he => hold ⟨m, he⟩) hm
  refine ⟨h.pair_was_ordinary, ?_⟩
  cases h with
  | synthesize _ _ _ _ _ hresolved => exact hresolved.parents
  | linkForeign _ _ _ _ _ _ hresolved => exact hresolved.choose_spec.parents
  | relink _ _ _ hback _ =>
    -- the metaclass names the class only if the class has been paired with it before
    obtain ⟨x', he, hx⟩ := hc.ofMetaclass _ _ hback
    cases he
    exact absurd ⟨_, hx⟩ hold
  | orphan _ _ ha => cases ha.symm.trans hd
  | halfLink ha => cases ha.symm.trans hd

theorem Change.pairedAbove (h : Change deed c d) (hd : d.session.aborted = false)
    (hl : c.program.Layered) (hc : c.program.PairsLinked) (hp : c.program.PairedAbove) :
    d.program.PairedAbove := by
  have hext := h.extends.program
  intro x hx
  have hparents : c.program.HasRole x .ordinary ∧ c.program.ParentsPaired x := by
    by_cases hold : c.program.IsPaired x
    · obtain ⟨m, hm⟩ := hold
      exact ⟨hasRole_iff.2 ⟨_, hm⟩, hp x ⟨m, hm⟩⟩
    · exact h.parentsPaired_of_new hd hc hold hx
  obtain ⟨ho, hparents⟩ := hparents
  intro y hxy hy
  rw [hext.isParent_iff (contains_of_hasRole ho)] at hxy
  rcases h.ordinary_of_ordinary hy with hy | rfl
  · exact hext.isPaired (hparents y hxy hy)
  · -- what is above a bound class was bound before it, so that it is not marked now
    obtain ⟨role, i, hi, -⟩ := hl.inOrder.parent ho hxy
    cases h with
    | mark _ hnone _ =>
      rw [hnone] at hi
      cases hi

theorem Growth.pairedAbove {g : Growth} (hg : g.Unbound) (hp : p.PairedAbove) :
    (g.apply p).PairedAbove := by
  have hext := g.apply_extends p
  rintro x ⟨m, hm⟩ y hxy hy
  rw [pairing_apply hg] at hm
  rw [hext.isParent_iff (contains_of_pairing hm)] at hxy
  exact hext.isPaired (hp x ⟨m, hm⟩ y hxy (hasRole_of_pairing_eq (pairing_apply hg p y) hy))

/-- Pairs are linked and made from above as long as the session goes on. -/
structure Compilation.Ranked (c : Compilation) : Prop where
  layered : c.program.Layered
  owned : c.program.ListsOwned
  backward : c.program.HeadersBackward
  linked : c.session.aborted = false → c.program.PairsLinked
  above : c.session.aborted = false → c.program.PairedAbove

theorem Compilation.Ranked.change (h : c.Ranked) (hstep : Change deed c d) : d.Ranked where
  layered := hstep.layered h.layered
  owned := hstep.listsOwned h.owned
  backward := fun x m hx => h.backward x m (hstep.headerNames_iff.1 hx)
  linked := fun hd => hstep.pairsLinked hd h.backward (h.linked (hstep.extends.running hd))
  above := fun hd =>
    have hc := hstep.extends.running hd
    hstep.pairedAbove hd h.layered (h.linked hc) (h.above hc)

/-! ## Classes that stay as they are -/

/-- A class that is blocked at the start is blocked at the end. -/
theorem Phases.blocked (h : Phases marks lists c d) (hl : c.program.Layered)
    (hx : c.program.Blocked x) : d.program.Blocked x := by
  have hext := h.extends.program
  obtain ⟨mid, hb, ht⟩ := h
  obtain ⟨y, hy, hstuck⟩ := hx
  have hready : Ready c.program mid := .of_binding hb (.of_layered hl)
  refine ⟨y, hext.atOrAbove hy, ?_⟩
  refine ht.invariant (I := fun d => d.program.Stuck y) ?_ (hready.stuck y hstuck)
  intro d e deed hp hstep hd
  refine hd.step hstep ?_
  rintro rfl
  exact hp

/-- The valid members of a class that are called by messages are in its list, on their sides; `c`
has what was written, and `d` what has become of it. -/
def Visited (c d : Compilation) (x : ClassId) : Prop :=
  (d.program.classAt x).invalid = false → ∀ func ∈ (c.program.classAt x).members,
    (c.program.funcAt func).parent = some x → (d.program.funcAt func).invalid = false →
      ∀ entry ∈ c.program.listing func, entry ∈ d.program.listed x

theorem Visited.of_phases (h : Visited c d x) (hd : d.program.ListsOwned)
    (hstep : Phases marks lists d e) : Visited c e x := by
  intro hvalid func hfunc hparent hv entry hentry
  have hback := hstep.invariant (I := fun e =>
    ((e.program.classAt x).invalid = false → (d.program.classAt x).invalid = false) ∧
      ((e.program.funcAt func).invalid = false → (d.program.funcAt func).invalid = false))
    (fun _ _ _ hchange ih => ⟨fun he => ih.1 (hchange.classValid_of he),
      fun he => ih.2 (hchange.funcValid_of he)⟩) ⟨id, id⟩
  exact hstep.extends.program.mem_listed hd
    (h (hback.1 hvalid) func hfunc hparent (hback.2 hv) entry hentry)

/-! ## Binding classes one after the other -/

/-- Binds classes one after the other, each in its scope, and passes over those that fail; the
classes in `done` have been bound before. -/
def Session.bindEach (done : List ClassId) (c : Compilation) :
    List (ClassId × ScopeId) → List ClassId × Compilation
  | [] => (done, c)
  | (cls, scope) :: rest =>
    match bindClass cls scope c with
    | .ok _ d => bindEach (cls :: done) d rest
    | .error _ d => bindEach done d rest

/-- From `c` on, the classes in `done` have been bound; the others that are marked are blocked,
and their lists are empty. -/
structure Attempts (c : Compilation) (done : List ClassId) (d : Compilation) : Prop where
  extension : c.Extends d
  members : ∀ x, (d.program.classAt x).members = (c.program.classAt x).members
  ranked : d.Ranked
  paired : ∀ x ∈ done, d.program.IsPaired x
  visited : ∀ x ∈ done, Visited c d x
  blocked : d.session.aborted = false → ∀ x, d.program.HasRole x .ordinary → x ∉ done →
    d.program.Blocked x
  empty : d.session.aborted = false → ∀ x ∉ done, d.program.entries x = []

namespace Attempts

theorem start (h : c.Ranked) (hc : ∀ x, (c.program.classAt x).info = none) :
    Attempts c [] c where
  extension := .refl c
  members := fun _ => rfl
  ranked := h
  paired := nofun
  visited := nofun
  blocked := by
    rintro - x ⟨i, hi, -⟩
    rw [hc] at hi
    cases hi
  empty := fun _ x _ => entries_of_unbound (hc x)

/-- Binding `cls` concerns no other class. -/
theorem phases {done' : List ClassId} (h : Attempts c done d)
    (hstep : Phases (· = cls) (d.program.JoinsOwn cls) d e)
    (hdone : ∀ x, x ≠ cls → (x ∈ done' ↔ x ∈ done))
    (hpaired : cls ∈ done' → e.program.IsPaired cls) (hvisited : cls ∈ done' → Visited c e cls)
    (hblocked : e.session.aborted = false → e.program.HasRole cls .ordinary → cls ∉ done' →
      e.program.Blocked cls)
    (hempty : e.session.aborted = false → cls ∉ done' → e.program.entries cls = []) :
    Attempts c done' e where
  extension := h.extension.trans hstep.extends
  members := by
    refine hstep.invariant (I := fun e => ∀ x,
      (e.program.classAt x).members = (c.program.classAt x).members) ?_ h.members
    exact fun _ _ _ hchange ih x => (hchange.members_eq x).trans (ih x)
  ranked := hstep.invariant (fun _ _ _ hchange ih => ih.change hchange) h.ranked
  paired := by
    intro x hx
    by_cases hne : x = cls
    · subst hne
      exact hpaired hx
    · exact hstep.extends.program.isPaired (h.paired x ((hdone x hne).1 hx))
  visited := by
    intro x hx
    by_cases hne : x = cls
    · subst hne
      exact hvisited hx
    · exact (h.visited x ((hdone x hne).1 hx)).of_phases h.ranked.owned hstep
  blocked := by
    intro he x ho hx
    by_cases hne : x = cls
    · subst hne
      exact hblocked he ho hx
    · have hd := (hstep.ordinary ho).resolve_right hne
      rw [hdone x hne] at hx
      exact hstep.blocked h.ranked.layered (h.blocked (hstep.extends.running he) x hd hx)
  empty := by
    intro he x hx
    by_cases hne : x = cls
    · subst hne
      exact hempty he hx
    · rw [hdone x hne] at hx
      rw [hstep.entries_eq h.ranked.owned fun _ _ hlists => hne hlists.1]
      exact h.empty (hstep.extends.running he) x hx

/-- A class whose binding ended well is paired, and its members have been visited. -/
theorem ok (h : Attempts c done d) (hstep : Phases (· = cls) (d.program.JoinsOwn cls) d e)
    (hbound : ClassBound cls d e) : Attempts c (cls :: done) e := by
  have hext := h.extension.program
  refine h.phases hstep (fun x hne => by rw [List.mem_cons, or_iff_right hne]) (fun _ => ?_)
    (fun _ => ?_) (fun _ _ hx => absurd List.mem_cons_self hx)
    fun _ hx => absurd List.mem_cons_self hx
  · exact hbound.paired.imp fun _ hm => hm.1
  · intro hvalid func hfunc hparent hv entry hentry
    have hc := containsFunc_of_parent hparent
    rw [← hext.listing_eq hc] at hentry
    rw [← h.members] at hfunc
    exact hbound.settled h.ranked.owned hvalid func hfunc ((hext.parent hc).trans hparent) hv
      entry hentry

/-- A class whose binding failed while the session went on has not been marked, or it is
blocked. -/
theorem error (h : Attempts c done d) (hstep : Phases (· = cls) (d.program.JoinsOwn cls) d e)
    (hfailed : e.session.aborted = false → Trail (Binding d.program (· = cls)) d e ∧
      (e.program.HasRole cls .ordinary →
        d.program.HasRole cls .ordinary ∨ e.program.Blocked cls)) : Attempts c done e := by
  refine h.phases hstep (fun _ _ => .rfl) (fun hx => ?_) (fun hx => ?_) (fun he ho hx => ?_)
    fun he hx => ?_
  · exact hstep.extends.program.isPaired (h.paired cls hx)
  · exact (h.visited cls hx).of_phases h.ranked.owned hstep
  · rcases (hfailed he).2 ho with hd | hb
    · exact hstep.blocked h.ranked.layered (h.blocked (hstep.extends.running he) cls hd hx)
    · exact hb
  · rw [(hfailed he).1.entries_eq h.ranked.owned fun _ _ _ hp => hp]
    exact h.empty (hstep.extends.running he) cls hx

theorem bindEach (hf : c.session.strategy = .functional) (calls : List (ClassId × ScopeId))
    (h : Attempts c done d) :
    Attempts c (Session.bindEach done d calls).1 (Session.bindEach done d calls).2 := by
  induction calls generalizing done d with
  | nil => exact h
  | cons call rest ih =>
    obtain ⟨cls, scope⟩ := call
    have hout := bindClass_outcome cls scope (h.extension.strategy.trans hf) h.ranked.layered
    rw [Session.bindEach]
    split
    · rename_i u e hok
      obtain ⟨hstep, hbound⟩ := (outcome_of_ok hok).1 hout
      exact ih (h.ok hstep hbound)
    · rename_i err e herr
      obtain ⟨hstep, hfailed⟩ := (outcome_of_error herr).1 hout
      exact ih (h.error hstep hfailed.cause)

end Attempts

/-! ## The emission -/

/-- Declarations are added, none of which is bound, and the metaclasses that headers name are
declared already. No operation is run. -/
def Event.Added (p : Program) : Event → Prop
  | .grow g => g.Unbound ∧ Event.HeaderDeclared p (.grow g)
  | .run _ => False

instance (p : Program) : DecidablePred (Event.Added p)
  | .grow g => inferInstanceAs (Decidable (g.Unbound ∧ Event.HeaderDeclared p (.grow g)))
  | .run _ => .isFalse id

open Run in
theorem Run.added {past : List Compilation} (h : Run Event.Added past c) :
    c.session.strategy = .functional ∧ (∀ x, (c.program.classAt x).info = none) ∧
      c.program.HeadersBackward := by
  refine h.invariant (I := fun c => c.session.strategy = .functional ∧
    (∀ x, (c.program.classAt x).info = none) ∧ c.program.HeadersBackward) ?_ ?_
  · intro renders
    exact ⟨rfl, info_new renders, headersBackward_new renders⟩
  · rintro c (g | op) he ⟨hf, hi, hb⟩
    · exact ⟨hf, fun x => (Growth.classInfo_apply he.1 _ x).trans (hi x),
        Growth.headersBackward he.2 hb⟩
    · exact he.elim

theorem Compilation.Ranked.of_unbound (hc : ∀ x, (c.program.classAt x).info = none)
    (hb : c.program.HeadersBackward) : c.Ranked where
  layered := .of_unbound hc
  owned := .of_unbound hc
  backward := hb
  linked := fun _ => .of_unbound hc
  above := by
    rintro - x ⟨m, hm⟩
    rw [pairing, hc] at hm
    cases hm

/-- The record tells the metaclass and has all valid members that are called by messages; `c` has
what was written, and `d` what has become of it. -/
structure ClassRecord.Complete (r : ClassRecord) (c d : Compilation) : Prop where
  metaclass : r.metaclassSymbol.isSome = true
  members : ∀ func ∈ (c.program.classAt r.cls).members,
    (c.program.funcAt func).parent = some r.cls → (c.program.funcAt func).linkage = .objc →
      (d.program.funcAt func).invalid = false →
        func ∈ (r.table (c.program.funcAt func).isStatic).map (·.func)

/-- The record has neither a metaclass nor any method. -/
structure ClassRecord.Hollow (r : ClassRecord) : Prop where
  metaclass : r.metaclassSymbol = none
  methods : ∀ side, r.table side = []

namespace Attempts

variable {i : ClassInfo}

theorem complete (h : Attempts c done d) (hx : x ∈ done)
    (hi : (d.program.classAt x).info = some i) (hv : (d.program.classAt x).invalid = false) :
    (Emission.classRecord d.program d.session.selectors x i).Complete c d where
  metaclass := by
    obtain ⟨m, hm⟩ := h.paired x hx
    obtain ⟨j, hj, -, hp⟩ := info_of_pairing hm
    rw [hi] at hj
    cases hj
    change (i.paired.map _).isSome = true
    rw [hp]
    rfl
  members := by
    intro func hfunc hparent hlinkage hvalid
    have hlisting : (func, (c.program.funcAt func).isStatic) ∈ c.program.listing func := by
      rw [listing, if_pos hlinkage]
      exact List.mem_singleton_self _
    obtain ⟨entry, hentry, he⟩ :=
      List.mem_map.1 (h.visited x hx hv func hfunc hparent hvalid _ hlisting)
    obtain ⟨rfl, hside⟩ := Prod.mk.inj he
    have hrecord := (Emission.mem_table (t := d.session.selectors) hi).2
      ⟨entry, mem_side.2 ⟨hentry, hside⟩, hvalid, rfl⟩
    exact List.mem_map_of_mem hrecord

theorem hollow (h : Attempts c done d) (ha : d.session.aborted = false) (hx : x ∉ done)
    (hi : (d.program.classAt x).info = some i) (ho : i.role = .ordinary) :
    (Emission.classRecord d.program d.session.selectors x i).Hollow where
  metaclass := by
    have hunpaired := (h.ranked.above ha).not_isPaired (h.blocked ha x ⟨i, hi, ho⟩ hx)
    change i.paired.map _ = none
    cases hp : i.paired with
    | none => rfl
    | some m => exact absurd ⟨m, by rw [pairing_of_info hi, ho, hp]⟩ hunpaired
  methods := by
    intro side
    rw [List.eq_nil_iff_forall_not_mem]
    intro r hr
    obtain ⟨entry, hentry, -⟩ := (Emission.mem_table hi).1 hr
    have hmem := (mem_side.1 hentry).1
    rw [h.empty ha x hx] at hmem
    cases hmem

end Attempts

/-- If classes are bound one after the other and the session goes on, then the record of a class
that was bound is complete. The record of a class that was not bound is hollow, and a class that
has a record was not bound exactly if it is derived from a class that is stuck. -/
theorem halfBound_iff {past : List Compilation} (h : Run Event.Added past c)
    {calls : List (ClassId × ScopeId)} (hd : Session.bindEach [] c calls = (done, d))
    {emission : Emission} (he : d.emission = .ok emission) {r : ClassRecord}
    (hr : r ∈ emission.classes) :
    (r.cls ∈ done → r.Complete c d) ∧ (r.cls ∉ done → r.Hollow) ∧
      (r.cls ∉ done ↔ ∃ x, d.program.DerivedFrom r.cls x ∧ d.program.Stuck x) := by
  obtain ⟨hf, hc, hb⟩ := h.added
  have hall := (Attempts.start (.of_unbound hc hb) hc).bindEach hf calls
  rw [hd] at hall
  obtain ⟨ha, rfl⟩ := (Compilation.emission_eq_ok_iff (hall.extension.strategy.trans hf)).1 he
  obtain ⟨x, i, -, hrec, rfl⟩ := Emission.mem_collect_classes.1 hr
  obtain ⟨hv, hforeign, -, hi, ho⟩ := Emission.recorded?_eq_some_iff.1 hrec
  refine ⟨fun hx => hall.complete hx hi hv, fun hx => hall.hollow ha hx hi ho, ?_⟩
  constructor
  · intro hx
    obtain ⟨y, rfl | hy, hstuck⟩ := hall.blocked ha x ⟨i, hi, ho⟩ hx
    · rw [hstuck.foreign] at hforeign
      cases hforeign
    · exact ⟨y, hy, hstuck⟩
  · rintro ⟨y, hy, hstuck⟩ hx
    exact (hall.ranked.above ha).not_isPaired ⟨y, .inr hy, hstuck⟩ (hall.paired x hx)

/-- `Base` is foreign and its header names no metaclass; `Derived` is below it. -/
def headlessEvents : List Event :=
  let shape (name : Symbol) (base : Option ClassId) : ClassDecl :=
    { name, kind := .concrete, span := .point 0 1 1, base, foreign := base.isNone }
  [.grow (.addScope none), .grow (.intern "Base"), .grow (.intern "Derived"),
    .grow (.intern "draw"), .grow (.addClass (shape ⟨5⟩ none)),
    .grow (.addClass (shape ⟨6⟩ (some ⟨0⟩))),
    .grow (.addMethod ⟨1⟩ { name := ⟨7⟩, params := [], span := .point 0 1 1, linkage := .objc })]

/-- Neither class is bound, and yet `Derived` is emitted. -/
theorem halfBound_headless :
    let c := (Event.play [] (.new .functional false) headlessEvents).2
    let (done, d) := Session.bindEach [] c [(⟨0⟩, ⟨0⟩), (⟨1⟩, ⟨0⟩)]
    ∃ e, d.emission = .ok e ∧ ∃ r ∈ e.classes, r.cls ∉ done ∧ r.Hollow ∧
      ∃ x, d.program.DerivedFrom r.cls x ∧ d.program.Stuck x := by
  intro c
  have hrun : Run Event.Added (Event.play [] (.new .functional false) headlessEvents).1 c :=
    (Run.start false).play (by decide +kernel)
  have hdone : (Session.bindEach [] c [(⟨0⟩, ⟨0⟩), (⟨1⟩, ⟨0⟩)]).1 = [] := by decide +kernel
  have hends : (match (Session.bindEach [] c [(⟨0⟩, ⟨0⟩), (⟨1⟩, ⟨0⟩)]).2.emission with
    | .ok e => decide (e.classes.map (·.cls) = [⟨1⟩])
    | .error _ => false) = true := by decide +kernel
  cases hd : Session.bindEach [] c [(⟨0⟩, ⟨0⟩), (⟨1⟩, ⟨0⟩)] with
  | mk done d =>
    rw [hd] at hdone hends
    cases hdone
    cases he : d.emission with
    | error e =>
      rw [he] at hends
      cases hends
    | ok e =>
      rw [he] at hends
      have hcls : (⟨1⟩ : ClassId) ∈ e.classes.map (·.cls) := by
        rw [of_decide_eq_true hends]
        exact List.mem_singleton_self _
      obtain ⟨r, hr, -⟩ := List.mem_map.1 hcls
      obtain ⟨-, hhollow, hiff⟩ := halfBound_iff hrun hd he hr
      exact ⟨e, he, r, hr, List.not_mem_nil, hhollow List.not_mem_nil, hiff.1 List.not_mem_nil⟩

end ObjcBinding
