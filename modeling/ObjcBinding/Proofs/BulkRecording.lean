import ObjcBinding.Proofs.Reporting
import ObjcBinding.Proofs.Steps.Recording

/-!
# Recording many methods

The methods of a class body or of a group are recorded one after another, and an error of one of
them keeps no other from being recorded. What is left behind is what single recordings would have
left behind. The entries that were added are counted, and none is added a second time: a list that
does not take a function at some time will not take it later.

* `Resolve.recordAll_cons`: the first of many methods;
* `recordAll_batch`: what was added by all of them, in which order, and that nothing is left to add;
* `attempts_recordMethod`: single recordings leave the same behind;
* `recordMethods_eq_fold`: many methods are recorded like each of them alone.
-/

namespace ObjcBinding

open Resolve

variable {c d : Compilation} {cls : ClassId} {func : FuncId} {side : Bool}

/-! ## First occurrences -/

/-- A selection from the first occurrences consists of those in the selection. -/
theorem filter_eraseDups {α : Type} [BEq α] [LawfulBEq α] (P : α → Bool) :
    ∀ l : List α, (l.filter P).eraseDups = l.eraseDups.filter P
  | [] => rfl
  | a :: rest => by
    have hlength : (rest.filter fun b => !b == a).length < rest.length + 1 :=
      Nat.lt_succ_of_le (List.length_filter_le _ _)
    have hrest := filter_eraseDups P (rest.filter fun b => !b == a)
    rw [List.eraseDups_cons]
    by_cases ha : P a = true
    · rw [List.filter_cons_of_pos ha, List.filter_cons_of_pos ha, List.eraseDups_cons, ← hrest,
        List.filter_filter, List.filter_filter]
      simp only [Bool.and_comm]
    · rw [List.filter_cons_of_neg ha, List.filter_cons_of_neg ha, ← hrest, List.filter_filter]
      -- what is selected differs from the head, which is not
      have hsame : rest.filter P = rest.filter fun b => P b && !b == a := by
        refine List.filter_congr fun b _ => ?_
        by_cases hb : P b = true
        · have hne : b ≠ a := fun hba => ha (hba ▸ hb)
          simp [hne]
        · simp [hb]
      rw [hsame]
termination_by l => l.length

/-- A new head comes before all first occurrences but its own. -/
theorem sublist_eraseDups_cons {α : Type} [BEq α] [LawfulBEq α] {a : α} {l rest : List α}
    (h : l.Sublist rest.eraseDups) (ha : a ∉ l) :
    (a :: l).Sublist (a :: rest).eraseDups := by
  rw [List.eraseDups_cons, filter_eraseDups]
  refine List.Sublist.cons_cons a ?_
  have hl : l.filter (fun b => !b == a) = l := by
    refine List.filter_eq_self.2 fun b hb => ?_
    have hne : b ≠ a := fun hba => ha (hba ▸ hb)
    simp [hne]
  rw [← hl]
  exact h.filter _

/-! ## One of many -/

theorem attempts_cons_snd {α : Type} (x : Resolve α) (rest : List (Resolve α)) (c : Compilation) :
    (attempts (x :: rest) c).2 = (attempts rest (finish x c)).2 := by
  rw [attempts, finish]
  cases x c <;> rfl

theorem Resolve.recordAll_cons (cls : ClassId) (func : FuncId) (side : Bool)
    (rest : List (FuncId × Bool)) (c : Compilation) :
    ∃ added, Recorded func cls side c (finish (record func cls side) c) added ∧
      ∀ n d, recordAll cls rest (finish (record func cls side) c) = .ok n d →
        recordAll cls ((func, side) :: rest) c = .ok ((if added then 1 else 0) + n) d := by
  have hrecorded := record_recorded func cls side c
  simp only [recordAll, bind_apply, tryCatch_apply, finish]
  cases hx : record func cls side c with
  | ok added d =>
    refine ⟨added, (outcome_of_ok hx).1 hrecorded, fun n e hrest => ?_⟩
    simp only [hrest]
    rfl
  | error err d =>
    refine ⟨false, (outcome_of_error hx).1 hrecorded, fun n e hrest => ?_⟩
    have hskip : (pure false : Resolve Bool) d = .ok false d := rfl
    simp only [hskip, hrest]
    rfl

theorem Recorded.enlists {added : Bool} (h : Recorded func cls side c d added) :
    ∃ lists, c.Enlists lists d := by
  cases h with
  | joined _ hd _ => exact ⟨_, hd⟩
  | passed _ hd => exact ⟨_, hd⟩

/-- Once tried, a function is not taken any more. -/
theorem Recorded.spent {added : Bool} (h : Recorded func cls side c d added) (owner : ClassId)
    (s : Selector) : ¬d.Takes func cls side owner s := by
  intro ht
  cases h with
  | @joined owner' s' htakes hd _ =>
    have hback := hd.takes ht
    obtain rfl := Option.some.inj (htakes.listOwner.symm.trans hback.listOwner)
    obtain rfl := Option.some.inj (htakes.fits.selector.symm.trans hback.fits.selector)
    refine ht.new ⟨s', func, side⟩ ?_ ⟨rfl, rfl⟩
    rw [hd.entries, entriesOf, if_pos rfl]
    exact List.mem_append_right _ List.mem_cons_self
  | passed hnot hd => exact hnot owner s (hd.takes ht)

/-! ## All of them -/

/-- Functions were tried for a class on their sides, each at its time. The entries `new` came to the
end of the list of the class, in the order of the functions, and now none of them is taken. -/
structure Batch (cls : ClassId) (sides : List (FuncId × Bool)) (c d : Compilation)
    (new : List MethodEntry) : Prop where
  enlists : c.Enlists (fun x => if c.program.listOwner? cls = some x then new else []) d
  order : (new.map fun e => (e.func, e.isClassMethod)).Sublist sides.eraseDups
  taken (e : MethodEntry) : e ∈ new →
    ∃ owner, c.Takes e.func cls e.isClassMethod owner e.selector
  spent (func : FuncId) (side : Bool) : (func, side) ∈ sides →
    ∀ owner s, ¬d.Takes func cls side owner s

namespace Batch

variable {sides rest : List (FuncId × Bool)} {new : List MethodEntry}

theorem nil (cls : ClassId) (c : Compilation) : Batch cls [] c c [] where
  enlists := by
    simp only [ite_self]
    exact .refl c
  order := List.Sublist.refl []
  taken _ h := nomatch h
  spent _ _ h := nomatch h

/-- A function that was tried before is not among those that are added. -/
theorem not_mem (h : Batch cls rest c d new) (hspent : ∀ owner s, ¬c.Takes func cls side owner s) :
    (func, side) ∉ new.map fun e => (e.func, e.isClassMethod) := by
  intro hmem
  obtain ⟨e, he, heq⟩ := List.mem_map.1 hmem
  obtain ⟨rfl, rfl⟩ := Prod.mk.inj heq
  obtain ⟨owner, htakes⟩ := h.taken e he
  exact hspent owner _ htakes

theorem cons {added : Bool} {mid : Compilation} (hfirst : Recorded func cls side c mid added)
    (h : Batch cls rest mid d new) :
    ∃ new', Batch cls ((func, side) :: rest) c d new' ∧
      new'.length = (if added then 1 else 0) + new.length := by
  have hnot := h.not_mem hfirst.spent
  have hspent (f : FuncId) (b : Bool) (hmem : (f, b) ∈ (func, side) :: rest) (owner : ClassId)
      (s : Selector) : ¬d.Takes f cls b owner s := by
    intro ht
    rcases List.mem_cons.1 hmem with heq | hmem
    · obtain ⟨rfl, rfl⟩ := Prod.mk.inj heq
      exact hfirst.spent owner s (h.enlists.takes ht)
    · exact h.spent f b hmem owner s ht
  have horder := sublist_eraseDups_cons h.order hnot
  cases hfirst with
  | @joined owner s htakes hd _ =>
    refine ⟨⟨s, func, side⟩ :: new, ⟨?_, horder, ?_, hspent⟩, Nat.add_comm ..⟩
    · have htrans := hd.trans h.enlists
      have hlists : (fun x => entriesOf owner [⟨s, func, side⟩] x ++
          if mid.program.listOwner? cls = some x then new else []) =
          fun x => if c.program.listOwner? cls = some x then ⟨s, func, side⟩ :: new else [] := by
        funext x
        rw [hd.listOwner_eq, htakes.listOwner, entriesOf]
        by_cases hx : x = owner
        · rw [if_pos hx, if_pos (congrArg some hx.symm), if_pos (congrArg some hx.symm)]
          rfl
        · have hne : ¬some owner = some x := fun h => hx (Option.some.inj h).symm
          rw [if_neg hx, if_neg hne, if_neg hne]
          rfl
      exact hlists ▸ htrans
    · intro e he
      rcases List.mem_cons.1 he with rfl | he
      · exact ⟨owner, htakes⟩
      · obtain ⟨owner', ht⟩ := h.taken e he
        exact ⟨owner', hd.takes ht⟩
  | passed _ hd =>
    refine ⟨new, ⟨?_, (List.sublist_cons_self _ _).trans horder, ?_, hspent⟩, (Nat.zero_add _).symm⟩
    · have htrans := hd.unlisted_trans h.enlists
      rwa [hd.listOwner_eq] at htrans
    · intro e he
      obtain ⟨owner', ht⟩ := h.taken e he
      exact ⟨owner', hd.takes ht⟩

/-- Without a list for the class nothing is added. -/
theorem eq_nil_of_listOwner (h : Batch cls sides c d new) (hl : c.program.listOwner? cls = none) :
    new = [] := by
  refine List.eq_nil_iff_forall_not_mem.2 fun e he => ?_
  obtain ⟨owner, ht⟩ := h.taken e he
  cases hl.symm.trans ht.listOwner

/-- A second time nothing is added. -/
theorem again {e : Compilation} {more : List MethodEntry} (h : Batch cls sides c d new)
    (h' : Batch cls sides d e more) : more = [] := by
  refine List.eq_nil_iff_forall_not_mem.2 fun entry hentry => ?_
  obtain ⟨owner, ht⟩ := h'.taken entry hentry
  have hmem := h'.order.subset (List.mem_map_of_mem hentry)
  exact h.spent _ _ (List.mem_eraseDups.1 hmem) owner _ ht

end Batch

theorem recordAll_batch (cls : ClassId) (sides : List (FuncId × Bool)) (c : Compilation) :
    ∃ new, recordAll cls sides c = .ok new.length (attempts (recordings cls sides) c).2 ∧
      Batch cls sides c (attempts (recordings cls sides) c).2 new := by
  induction sides generalizing c with
  | nil => exact ⟨[], rfl, .nil cls c⟩
  | cons first rest ih =>
    obtain ⟨func, side⟩ := first
    obtain ⟨added, hfirst, hrun⟩ := recordAll_cons cls func side rest c
    obtain ⟨new, hrest, hbatch⟩ := ih (finish (record func cls side) c)
    obtain ⟨new', hbatch', hlength⟩ := Batch.cons hfirst hbatch
    rw [recordings, List.map_cons, attempts_cons_snd]
    exact ⟨new', hlength ▸ hrun _ _ hrest, hbatch'⟩

/-! ## Single recordings -/

/-- Functions that are tried on the sides that they are declared for are recorded like each of them
alone. -/
theorem attempts_recordMethod (cls : ClassId) (sides : List (FuncId × Bool))
    (ha : c.session.aborted = false) (hs : c.session.strategy = .functional)
    (hsides : ∀ func side, (func, side) ∈ sides → (c.program.funcAt func).isStatic = side) :
    (attempts (recordings cls sides) c).2 =
      (attempts ((sides.map Prod.fst).map (Session.recordMethod · cls)) c).2 := by
  induction sides generalizing c with
  | nil => rfl
  | cons first rest ih =>
    obtain ⟨func, side⟩ := first
    obtain ⟨added, hfirst⟩ := finish_record_recorded func cls side c
    obtain ⟨lists, hd⟩ := hfirst.enlists
    rw [recordings, List.map_cons, List.map_cons, List.map_cons, attempts_cons_snd,
      attempts_cons_snd, finish_session_recordMethod ha hs,
      hsides func side List.mem_cons_self]
    refine ih (hd.aborted.trans ha) (hd.strategy.trans hs) fun f b hmem => ?_
    rw [hd.isStatic, hsides f b (List.mem_cons_of_mem _ hmem)]

/-! ## Sources of methods -/

/-- The functions on their sides, those of instances first. -/
def onSides (ofInstances ofClass : List FuncId) : List (FuncId × Bool) :=
  ofInstances.map (·, false) ++ ofClass.map (·, true)

variable {source : MethodSource} {ofInstances ofClass : List FuncId}

theorem map_fst_onSides (ofInstances ofClass : List FuncId) :
    (onSides ofInstances ofClass).map Prod.fst = ofInstances ++ ofClass := by
  simp [onSides, Function.comp_def]

theorem mem_onSides : (func, side) ∈ onSides ofInstances ofClass ↔
    if side then func ∈ ofClass else func ∈ ofInstances := by
  cases side <;> simp [onSides]

namespace MethodSource

/-- Whether the class or group takes part in the compilation. -/
def isActive (p : Program) : MethodSource → Bool
  | body _ => true
  | group id => (p.groupAt id).isActive

theorem isActive_eq {p q : Program} (h : q.groups = p.groups) (source : MethodSource) :
    source.isActive q = source.isActive p := by
  cases source <;> simp only [isActive, Program.groupAt, h]

theorem target_eq {p q : Program} (h : q.groups = p.groups) (source : MethodSource) :
    source.target q = source.target p := by
  cases source <;> simp only [target, Program.groupAt, h]

end MethodSource

theorem Session.recordMethods_batch (ha : c.session.aborted = false)
    (hs : c.session.strategy = .functional) (hactive : source.isActive c.program = true)
    (ofInstances ofClass : List FuncId) :
    let cls := source.target c.program
    let d := (attempts (recordings cls (onSides ofInstances ofClass)) c).2
    ∃ new, Session.recordMethods source ofInstances ofClass c = .ok new.length d ∧
      Batch cls (onSides ofInstances ofClass) c d new := by
  intro cls d
  have hall : Session.recordMethods source ofInstances ofClass c =
      recordAll cls (onSides ofInstances ofClass) c := by
    rw [Session.recordMethods, guarded_of_functional ha hs]
    cases source with
    | body => rfl
    | group id =>
      change (c.program.groupAt id).isActive = true at hactive
      simp only [Resolve.recordMethods, bind_apply, program_apply, hactive, if_true]
      rfl
  rw [hall]
  exact recordAll_batch cls _ c

/-- In a functional session that goes on: the methods of a class, or of a group that takes part in
the compilation, are recorded as if each of them, declared for its side, were recorded alone, those
of instances first, and the errors ignored. The count is that of the new entries, which come in
this order to the end of the list of the class, or of the one whose metaclass it is; no other list
changes; and to do the same again adds nothing. A group that takes no part changes nothing, reports
nothing and counts nothing. To record a group is to record its members, each on its side. -/
theorem recordMethods_eq_fold (ha : c.session.aborted = false)
    (hs : c.session.strategy = .functional) :
    (∀ source ofInstances ofClass, source.isActive c.program = true →
      (∀ func ∈ ofInstances, (c.program.funcAt func).isStatic = false) →
      (∀ func ∈ ofClass, (c.program.funcAt func).isStatic = true) →
      let cls := source.target c.program
      let d := (attempts ((ofInstances ++ ofClass).map (Session.recordMethod · cls)) c).2
      ∃ new, Session.recordMethods source ofInstances ofClass c = .ok new.length d ∧
        (∀ x, d.program.entries x =
          c.program.entries x ++ if c.program.listOwner? cls = some x then new else []) ∧
        (c.program.listOwner? cls = none → new = []) ∧
        (new.map fun e => (e.func, e.isClassMethod)).Sublist
          (onSides ofInstances ofClass).eraseDups ∧
        ∃ again, Session.recordMethods source ofInstances ofClass d = .ok 0 again ∧
          ∀ x, again.program.entries x = d.program.entries x) ∧
    (∀ group ofInstances ofClass, (c.program.groupAt group).isActive = false →
      ∃ log, Session.recordMethods (.group group) ofInstances ofClass c = .ok 0 { c with log }) ∧
    ∀ group, Session.recordGroup group c =
      Session.recordMethods (.group group)
        ((c.program.groupAt group).members.filter fun f => !(c.program.funcAt f).isStatic)
        ((c.program.groupAt group).members.filter fun f => (c.program.funcAt f).isStatic) c := by
  refine ⟨fun source ofInstances ofClass hactive hinstances hclass => ?_, ?_, fun group => ?_⟩
  · intro cls d
    have hsides (func : FuncId) (side : Bool) (hmem : (func, side) ∈ onSides ofInstances ofClass) :
        (c.program.funcAt func).isStatic = side := by
      have hside := mem_onSides.1 hmem
      cases side with
      | false => exact hinstances func hside
      | true => exact hclass func hside
    have htried := attempts_recordMethod cls _ ha hs hsides
    rw [map_fst_onSides] at htried
    obtain ⟨new, hrun, hbatch⟩ :=
      Session.recordMethods_batch ha hs hactive ofInstances ofClass
    rw [htried] at hrun hbatch
    have hd := hbatch.enlists
    obtain ⟨more, hagain, hbatch'⟩ := Session.recordMethods_batch (c := d) (hd.aborted.trans ha)
      (hd.strategy.trans hs) ((source.isActive_eq hd.groups).trans hactive) ofInstances ofClass
    rw [source.target_eq hd.groups] at hagain hbatch'
    obtain rfl := hbatch.again hbatch'
    refine ⟨new, hrun, hd.entries, hbatch.eq_nil_of_listOwner, hbatch.order, _, hagain,
      fun x => ?_⟩
    rw [hbatch'.enlists.entries, ite_self, List.append_nil]
  · intro group ofInstances ofClass hinactive
    rw [Session.recordMethods, guarded_of_functional ha hs]
    simp only [Resolve.recordMethods, bind_apply, program_apply, hinactive, Bool.false_eq_true,
      if_false]
    exact ⟨_, rfl⟩
  · rw [Session.recordGroup, bind_apply, program_apply]
    simp only [List.partition_eq_filter_filter]
    rfl

/-- `Foo` has two methods `draw` of its instances and one of its own, and `Bar` has one as well.
All have got their selector. -/
def strayMemberEvents : List Event :=
  let shape (name : Symbol) : ClassDecl := { name, kind := .concrete, span := .point 0 1 1 }
  let draw (isStatic : Bool) : FuncDecl :=
    { name := ⟨7⟩, params := [], span := .point 0 2 1, linkage := .objc, isStatic }
  [.grow (.addScope none), .grow (.intern "Foo"), .grow (.intern "Bar"), .grow (.intern "draw"),
    .grow (.addClass (shape ⟨5⟩)), .grow (.addClass (shape ⟨6⟩)),
    .grow (.addMethod ⟨0⟩ (draw false)), .grow (.addMethod ⟨0⟩ (draw false)),
    .grow (.addMethod ⟨0⟩ (draw true)), .grow (.addMethod ⟨1⟩ (draw false)),
    .run (.markClass ⟨0⟩), .run (.markClass ⟨1⟩),
    .run (.assignSelector ⟨0⟩ ⟨0⟩), .run (.assignSelector ⟨1⟩ ⟨0⟩),
    .run (.assignSelector ⟨2⟩ ⟨0⟩), .run (.assignSelector ⟨3⟩ ⟨0⟩)]

/-- The method of `Bar` is refused, the second one of `Foo` is rejected, and none is added twice. -/
theorem recordMethods_eq_fold_strayMember :
    let c := (Event.play [] (.new .functional false) strayMemberEvents).2
    let ofInstances : List FuncId := [⟨3⟩, ⟨0⟩, ⟨1⟩, ⟨0⟩]
    let ofClass : List FuncId := [⟨2⟩]
    let d := (attempts ((ofInstances ++ ofClass).map (Session.recordMethod · ⟨0⟩)) c).2
    Session.recordMethods (.body ⟨0⟩) ofInstances ofClass c = .ok 2 d ∧
      (d.program.entries ⟨0⟩).map (·.func) = [⟨0⟩, ⟨2⟩] ∧
      ∃ again, Session.recordMethods (.body ⟨0⟩) ofInstances ofClass d = .ok 0 again := by
  intro c ofInstances ofClass d
  obtain ⟨new, hrun, hentries, -, -, again, hagain, -⟩ :=
    (recordMethods_eq_fold (c := c) (by decide +kernel) (by decide +kernel)).1 (.body ⟨0⟩)
      ofInstances ofClass rfl (by decide +kernel) (by decide +kernel)
  have hfuncs : (d.program.entries ⟨0⟩).map (·.func) = [⟨0⟩, ⟨2⟩] := by decide +kernel
  have hbefore : c.program.entries ⟨0⟩ = [] := by decide +kernel
  have hnew : d.program.entries ⟨0⟩ = new := by
    have howner : c.program.listOwner? ⟨0⟩ = some ⟨0⟩ := by decide +kernel
    have hzero := hentries ⟨0⟩
    rw [hbefore, List.nil_append] at hzero
    exact hzero.trans (if_pos howner)
  have hlength : new.length = 2 := by
    rw [← hnew, ← List.length_map (·.func), hfuncs]
    rfl
  rw [hlength] at hrun
  exact ⟨hrun, hfuncs, again, hagain⟩

end ObjcBinding
