import ObjcBinding.Proofs.AbortLatch
import ObjcBinding.Proofs.HalfBound
import ObjcBinding.Proofs.Steps.Faults

/-!
# Errors that are charged to classes

An attempt to bind a class reports at most one error about a class and charges it to that class,
which then is invalid. A foreign class without a metaclass is not invalid in the eyes of the
classes below: whichever of them is bound later runs into it again, and it is charged again, while
the class that is bound stays valid.

* `bindClass_failed`: what comes of an attempt that fails, as far as classes are concerned;
* `Tally.step`: what is known of a series of attempts goes on with one more;
* `chargedOnce_iff`: no class is charged twice exactly if every charge is held against the class
  that is being bound, and that is, if no class has been bound by half.
-/

namespace ObjcBinding

open Program Resolve

variable {c d e : Compilation} {cls x w : ClassId} {scope : ScopeId} {r : Diagnostic}

/-! ## Errors of classes -/

/-- Whether the diagnostic has one of the codes of errors that are held against classes. -/
def Diagnostic.blamesType (r : Diagnostic) : Bool :=
  r.code.any (· ∈ ["O0003", "O0007", "O0008", "O0012"])

theorem BindError.blamesType_diagnostic (e : BindError) :
    e.diagnostic.blamesType = decide (e.blame = .type) := by
  cases e <;> rfl

namespace Compilation

/-- What has been reported about classes. -/
def typeReports (c : Compilation) : List Diagnostic := c.session.sink.items.filter (·.blamesType)

/-- Between `c` and `d` nothing was held against any class. -/
structure Spared (c d : Compilation) : Prop where
  reports : d.typeReports = c.typeReports
  invalid : ∀ x, (d.program.classAt x).invalid = (c.program.classAt x).invalid

/-- Between `c` and `d` exactly `r` was reported about classes, and it was held against `w`. -/
structure ChargedTo (w : ClassId) (r : Diagnostic) (c d : Compilation) : Prop where
  reports : d.typeReports = c.typeReports ++ [r]
  invalid : ∀ x, (d.program.classAt x).invalid = ((c.program.classAt x).invalid || decide (x = w))

theorem Spared.refl (c : Compilation) : c.Spared c := ⟨rfl, fun _ => rfl⟩

theorem Spared.trans {b : Compilation} (h : b.Spared c) (h' : c.Spared d) : b.Spared d :=
  ⟨h'.reports.trans h.reports, fun x => (h'.invalid x).trans (h.invalid x)⟩

theorem Spared.chargedTo {b : Compilation} (h : b.Spared c) (h' : c.ChargedTo w r d) :
    b.ChargedTo w r d :=
  ⟨by rw [h'.reports, h.reports], fun x => by rw [h'.invalid, h.invalid]⟩

theorem Quiet.spared (h : c.Quiet d) : c.Spared d :=
  ⟨by rw [typeReports, h.sink, typeReports], h.program.classInvalid⟩

/-- An error that is charged to no declaration is not held against a class. -/
theorem Reported.spared {e : BindError} (h : c.Reported d e) (he : e.isCharged = false) :
    c.Spared d where
  reports := by
    have hblame : e.diagnostic.blamesType = false := by
      rw [e.blamesType_diagnostic]
      cases e <;> first | rfl | cases he
    rw [typeReports, h.sink, List.filter_append, List.filter_singleton]
    change c.typeReports ++ (bif e.diagnostic.blamesType then _ else _) = _
    rw [hblame]
    exact List.append_nil _
  invalid := by
    obtain ⟨culprit, hnone, hclass, -⟩ := h.culprit
    intro x
    exact hclass x (by rw [hnone he]; nofun)

theorem chargedTo_reject {e : BindError} (he : e.blame = .type)
    (hw : c.program.classes.contains w = true) (log : Array Log.Message) :
    c.ChargedTo w e.diagnostic { (c.charge (.classDecl w)).report e with log } where
  reports := by
    have hblame : e.diagnostic.blamesType = true := by
      rw [e.blamesType_diagnostic, he, decide_eq_true rfl]
    change ((c.session.sink.report e.diagnostic).items).filter _ = _
    rw [Sink.items_report, List.filter_append, List.filter_singleton, hblame]
    rfl
  invalid := by
    intro x
    change ((c.program.modifyClass w _).classAt x).invalid = _
    rw [classAt_modifyClass]
    by_cases hx : x = w
    · rw [if_pos ⟨hx, hw⟩, decide_eq_true hx, Bool.or_true]
    · rw [if_neg fun h => hx h.1, decide_eq_false hx, Bool.or_false]

theorem ChargedLast.chargedTo {e : BindError} (h : c.ChargedLast w e d) (he : e.blame = .type)
    (hw : d.program.classes.contains w = true) : c.ChargedTo w e.diagnostic d := by
  obtain ⟨mid, log, hquiet, rfl⟩ := h
  refine hquiet.spared.chargedTo (chargedTo_reject he ?_ log)
  rwa [← Arena.contains_modify]

end Compilation

/-- Only errors of classes are held against classes. -/
theorem Change.spared {deed : Deed} (h : Change deed c d) (hx : ∀ x, deed ≠ .rejectClass x) :
    c.Spared d where
  reports := by
    have hreport {e : BindError} (he : e.blame ≠ .type)
        (hs : d.session.sink.items = c.session.sink.items ++ [e.diagnostic]) :
        d.typeReports = c.typeReports := by
      rw [Compilation.typeReports, hs, List.filter_append, List.filter_singleton,
        e.blamesType_diagnostic, decide_eq_false he]
      exact List.append_nil _
    cases h with
    | refuse e log he => exact hreport (by rw [he]; nofun) (Sink.items_report ..)
    | rejectClass x => exact absurd rfl (hx x)
    | abort corruption span log =>
      exact hreport (e := .corrupted corruption span) nofun (Sink.items_report ..)
    | rejectFunc func e log hb hv =>
      exact hreport (by rw [hb.blame]; nofun) (Sink.items_report ..)
    | _ => rfl
  invalid := h.classInvalid_eq hx

/-- While functions are bound, nothing is held against a class. -/
theorem Trail.spared {lists : FuncId → ClassId → Bool → Prop} (h : Trail (Listing lists) c d) :
    c.Spared d := by
  refine h.invariant (I := fun d => c.Spared d) ?_ (.refl c)
  intro d e deed hp hstep hd
  refine hd.trans (hstep.spared ?_)
  rintro x rfl
  exact hp

/-! ## Binding one class -/

/-- What comes of a failed attempt to bind `cls`, as far as classes are concerned. -/
inductive FailedBinding (cls : ClassId) (c d : Compilation) : Prop where
  /-- The session has ended. -/
  | ended : d.session.aborted = true → c.Spared d → FailedBinding cls c d
  /-- The class was bound before. -/
  | bound : (c.program.classAt cls).isBound = true → c.Spared d → FailedBinding cls c d
  /-- The class cannot be marked. -/
  | misfit {r : Diagnostic} : (c.program.classAt cls).info = none →
      (d.program.classAt cls).info = none → c.ChargedTo cls r d → FailedBinding cls c d
  /-- The class was marked, and then a class turned out to have no metaclass. -/
  | headless {w : ClassId} : c.session.aborted = false → (c.program.classAt cls).info = none →
      d.program.HasRole cls .ordinary → d.program.pairing w = some (.ordinary, none) →
      c.ChargedTo w (d.program.headerFault w).diagnostic d → FailedBinding cls c d

theorem mark_failed (kind : ClassKind) (hc : c.program.classes.contains cls = true) :
    Outcome (mark cls kind) c (fun _ _ => True) fun _ d => FailedBinding cls c d := by
  have hreject {e : BindError} (he : e.blame = .type) (hi : (c.program.classAt cls).info = none) :
      Outcome (reject (.classDecl cls) e : Resolve Unit) c (fun _ _ => True)
        fun _ d => FailedBinding cls c d := by
    refine outcome_reject.2 (.misfit hi ?_ (Compilation.chargedTo_reject he hc _))
    rw [← hi]
    refine read_modifyClass ClassDecl.info (fun _ => ?_) cls cls
    rfl
  refine outcome_bind.2 (outcome_program.2 ?_)
  dsimp only
  split
  · rename_i hb
    refine outcome_refuse.2 (.bound hb ?_)
    exact (Change.refuse (BindError.alreadyBound _ _) _ rfl).spared nofun
  · rename_i hb
    have hi : (c.program.classAt cls).info = none := by
      simpa [ClassDecl.isBound] using hb
    split
    · exact hreject rfl hi
    · split
      · exact hreject rfl hi
      · exact trivial

/-- Resolving the metaclass of a class that has been marked holds nothing against any class if it
ends well or ends the session; else it is charged to a class that turns out to have no metaclass. -/
theorem resolveMetaclass_charged {start : Program} (scope : ScopeId) (hready : Ready start c)
    (hin : c.program.InOrder) (ha : c.session.aborted = false)
    (ho : c.program.HasRole cls .ordinary) :
    Outcome (Resolve.resolveMetaclass cls scope) c (fun _ d => c.Spared d)
      fun _ d => d.session.aborted = true ∧ c.Spared d ∨ d.program.HasRole cls .ordinary ∧
        ∃ w, d.program.pairing w = some (.ordinary, none) ∧
          c.ChargedTo w (d.program.headerFault w).diagnostic d := by
  have hfaults := resolveMetaclass_faults cls scope hready hin (isBound_of_hasRole ho)
  have hleaves := resolveMetaclass_leaves cls scope hready hin
  have haccounts := resolveMetaclass_accounts cls scope c
  refine outcome_mono (outcome_and hfaults (outcome_and hleaves haccounts))
    (fun _ _ h => h.2.2.2.spared) ?_
  rintro err d ⟨hd | ⟨w, hlast, hw, rfl⟩, ⟨hleft, -⟩, -, hreported⟩
  · refine .inl ⟨hd, hreported.spared ?_⟩
    have hcorruption := hreported.aborted
    rw [hd, ha, Bool.false_or] at hcorruption
    rw [← Bool.not_eq_true]
    intro hcharged
    cases hcorruption.trans (BindError.isCorruption_of_isCharged hcharged)
  · refine .inr ⟨hleft.extends.program.hasRole ho, w, hw, hlast.chargedTo rfl ?_⟩
    exact contains_of_pairing hw

theorem prepareClass_failed (cls : ClassId) (scope : ScopeId)
    (hf : c.session.strategy = .functional) (hl : c.program.Layered)
    (hc : c.program.classes.contains cls = true) :
    Outcome (Session.prepareClass cls scope) c
      (fun _ d => c.Spared d ∧ d.session.strategy = .functional)
      fun _ d => FailedBinding cls c d := by
  have hrest (kind : ClassKind) : Outcome (do
        guarded () (mark cls kind)
        Session.resolveMetaclass cls scope) c
      (fun _ d => c.Spared d ∧ d.session.strategy = .functional)
      fun _ d => FailedBinding cls c d := by
    cases ha : c.session.aborted with
    | true =>
      rw [outcome_bind, Outcome, guarded_of_aborted ha]
      exact .ended ha (.refl c)
    | false =>
      have hleaves : LeavesOr (Binding c.program (· = cls)) (mark cls kind) c _ _ :=
        mark_leaves cls kind c
      refine outcome_bind.2 ((outcome_guarded _ ha hf).2 (outcome_mono
        (outcome_and (mark_failed kind hc) (outcome_and hleaves (mark_accounts cls kind c))) ?_
        fun _ _ h => h.1))
      rintro _ d ⟨-, ⟨td, hi, -, hmarked⟩, -, hquiet⟩
      have hd := hquiet.aborted.trans ha
      have hfd := hquiet.strategy.trans hf
      have ho := hasRole_iff.2 ⟨_, (hmarked (td.extends.program.containsClass cls hc)).2⟩
      have hready : Ready c.program d := .of_binding td (.of_layered hl)
      have hcharged := resolveMetaclass_charged scope hready (td.layered hl).inOrder hd ho
      refine (outcome_guarded _ hd hfd).2 (outcome_mono
        (outcome_and hcharged (resolveMetaclass_accounts cls scope d)) ?_ ?_)
      · rintro _ e ⟨hspared, -, hresolved⟩
        exact ⟨hquiet.spared.trans hspared, hresolved.strategy.trans hfd⟩
      · rintro _ e ⟨⟨he, hspared⟩ | ⟨ho, w, hw, hto⟩, -⟩
        · exact .ended he (hquiet.spared.trans hspared)
        · exact .headless ha hi ho hw (hquiet.spared.chargedTo hto)
  refine outcome_bind.2 (outcome_program.2 ?_)
  split
  · exact hrest .concrete
  · exact hrest .interface

/-- An attempt that ends well holds nothing against any class. -/
theorem bindClass_failed (cls : ClassId) (scope : ScopeId)
    (hf : c.session.strategy = .functional) (hl : c.program.Layered)
    (hc : c.program.classes.contains cls = true) :
    Outcome (Session.bindClass cls scope) c (fun _ d => c.Spared d)
      fun _ d => FailedBinding cls c d := by
  rw [Session.bindClass_eq]
  refine outcome_bind.2 (outcome_mono (prepareClass_failed cls scope hf hl hc) ?_ fun _ _ h => h)
  rintro _ d ⟨hspared, hfd⟩
  have hmembers : LeavesOr (Listing fun _ _ _ => True)
      (Session.bindMethods cls scope (d.program.classAt cls).members) d _ _ :=
    bindMethods_leaves cls scope _ hfd fun _ _ _ => trivial
  refine outcome_bind.2 (outcome_program.2 (outcome_mono hmembers ?_ ?_))
  · exact fun _ _ h => hspared.trans h.1.spared
  · intro _ e ⟨he, hfailed⟩
    refine .ended ?_ (hspared.trans he.spared)
    rw [← Bool.not_eq_false]
    exact hfailed.cause

/-! ## What is booked -/

/-- A report that was held against the class `culprit` when the class `call` was bound. -/
structure Charge where
  call : ClassId
  culprit : ClassId
  report : Diagnostic

/-- What is booked of an attempt to bind `cls` that has led from `c` to `d`, after `charges`:
nothing if nothing was held against a class, and otherwise the report and the class that has become
invalid by it, or has been charged before with an error of that code at that place. -/
inductive Booked (charges : List Charge) (cls : ClassId) (c d : Compilation) :
    List Charge → Prop where
  | nothing : c.Spared d → Booked charges cls c d []
  | first {w : ClassId} {r : Diagnostic} : c.ChargedTo w r d →
      (c.program.classAt w).invalid = false → Booked charges cls c d [⟨cls, w, r⟩]
  | again {q : Charge} {r : Diagnostic} : c.ChargedTo q.culprit r d → q ∈ charges →
      q.report.code = r.code → q.report.span = r.span →
      Booked charges cls c d [⟨cls, q.culprit, r⟩]

/-- Declared classes are bound from `c` to `d` one after the other, whatever comes of them, and
`charges` is what is booked meanwhile. -/
inductive Session.Charging (c : Compilation) :
    List (ClassId × ScopeId) → List Charge → Compilation → Prop where
  | start : Charging c [] [] c
  | call {calls : List (ClassId × ScopeId)} {charges more : List Charge} {d : Compilation}
      {cls : ClassId} {scope : ScopeId} : Charging c calls charges d →
      d.program.classes.contains cls = true →
      Booked charges cls d (finish (bindClass cls scope) d) more →
      Charging c (calls ++ [(cls, scope)]) (charges ++ more) (finish (bindClass cls scope) d)

variable {charges more : List Charge}

theorem Compilation.Spared.not_chargedTo (h : c.Spared d) : ¬ c.ChargedTo w r d := by
  intro h'
  have hlength := congrArg List.length (h.reports.symm.trans h'.reports)
  simp at hlength

theorem Compilation.ChargedTo.report_eq {r' : Diagnostic} (h : c.ChargedTo w r d)
    (h' : c.ChargedTo x r' d) : r = r' :=
  List.singleton_injective (List.append_cancel_left (h.reports.symm.trans h'.reports))

theorem Booked.of_spared (hn : Booked charges cls c d more) (h : c.Spared d) : more = [] := by
  cases hn with
  | nothing => rfl
  | first h' => exact absurd h' h.not_chargedTo
  | again h' => exact absurd h' h.not_chargedTo

/-- Of the classes that were valid, the one that has become invalid is the one that was charged. -/
theorem Compilation.ChargedTo.eq_of_valid {r' : Diagnostic} (h : c.ChargedTo w r d)
    (h' : c.ChargedTo x r' d) (hx : (c.program.classAt x).invalid = false) : w = x := by
  have hw := h.invalid x
  rw [h'.invalid, hx, Bool.false_or, Bool.false_or, decide_eq_true rfl] at hw
  exact (of_decide_eq_true hw.symm).symm

/-- What has been held against `x` is booked for `x`, or for another class that has been charged
before with the like. -/
theorem Booked.of_chargedTo (hb : Booked charges cls c d more) (h : c.ChargedTo x r d) :
    ∃ w, more = [⟨cls, w, r⟩] ∧ c.ChargedTo w r d ∧ (w = x ∨
      ∃ q ∈ charges, q.culprit = w ∧ q.report.code = r.code ∧ q.report.span = r.span) := by
  cases hb with
  | nothing hs => exact absurd h hs.not_chargedTo
  | @first w r' h' hv =>
    obtain rfl := h'.report_eq h
    exact ⟨w, rfl, h', .inl (h.eq_of_valid h' hv).symm⟩
  | @again q r' h' hq hcode hspan =>
    obtain rfl := h'.report_eq h
    exact ⟨q.culprit, rfl, h', .inr ⟨q, hq, rfl, hcode, hspan⟩⟩

/-! ## The tally -/

/-- What is known when the classes in `calls` have been tried, those in `done` with success. -/
structure Tally (c : Compilation) (calls done : List ClassId) (charges : List Charge)
    (d : Compilation) : Prop where
  attempts : Attempts c done d
  called : ∀ x, d.program.HasRole x .ordinary → x ∈ calls
  culprits : ∀ q ∈ charges, q.culprit ∈ calls
  callers : (charges.map (·.call)).Sublist calls
  invalid : ∀ x, (d.program.classAt x).invalid = true ↔ x ∈ charges.map (·.culprit)
  reports : ∀ q ∈ charges, d.program.HasRole q.culprit .ordinary →
    q.report.code = some "O0007" ∧ q.report.span = (d.program.classAt q.culprit).span
  answered : d.session.aborted = false → ∀ x, d.program.HasRole x .ordinary →
    x ∈ done ∨ x ∈ charges.map (·.call)
  half : (∃ q ∈ charges, q.culprit ≠ q.call) →
    ∃ x ∉ done, d.program.HasRole x .ordinary ∧ (d.program.classAt x).invalid = false
  once : (charges.map (·.culprit)).Nodup → ∀ q ∈ charges, q.culprit = q.call

/-- What comes of an attempt to bind `cls`, given what has come of those before. -/
structure Attempted (c : Compilation) (done : List ClassId) (cls : ClassId)
    (d e : Compilation) : Prop where
  phases : Phases (· = cls) (d.program.JoinsOwn cls) d e
  outcome : Attempts c (cls :: done) e ∧ d.Spared e ∨ Attempts c done e ∧ FailedBinding cls d e

theorem Attempts.bind {done : List ClassId} (h : Attempts c done d)
    (hf : c.session.strategy = .functional) (hc : d.program.classes.contains cls = true)
    (scope : ScopeId) :
    Attempted c done cls d (finish (Session.bindClass cls scope) d) := by
  have hfd := h.extension.strategy.trans hf
  have hout := bindClass_outcome cls scope hfd h.ranked.layered
  have hfailed := bindClass_failed cls scope hfd h.ranked.layered hc
  rw [finish]
  split
  · rename_i u e hok
    obtain ⟨hstep, hbound⟩ := (outcome_of_ok hok).1 hout
    exact ⟨hstep, .inl ⟨h.ok hstep hbound, (outcome_of_ok hok).1 hfailed⟩⟩
  · rename_i err e herr
    obtain ⟨hstep, hcause⟩ := (outcome_of_error herr).1 hout
    exact ⟨hstep, .inr ⟨h.error hstep hcause.cause, (outcome_of_error herr).1 hfailed⟩⟩

namespace Tally

variable {calls done done' : List ClassId}

theorem start (h : Attempts c [] c) (hi : ∀ x, (c.program.classAt x).info = none)
    (hv : ∀ x, (c.program.classAt x).invalid = false) : Tally c [] [] [] c where
  attempts := h
  called := by
    rintro x ⟨i, hx, -⟩
    cases (hi x).symm.trans hx
  culprits := nofun
  callers := .slnil
  invalid := fun x => iff_of_false (by rw [hv]; nofun) List.not_mem_nil
  reports := nofun
  answered := by
    rintro - x ⟨i, hx, -⟩
    cases (hi x).symm.trans hx
  half := nofun
  once := nofun

theorem mem_calls (h : Tally c calls done charges d) (hx : x ∈ done) : x ∈ calls := by
  obtain ⟨m, hm⟩ := h.attempts.paired x hx
  exact h.called x (hasRole_iff.2 ⟨_, hm⟩)

theorem valid (h : Tally c calls done charges d) (hx : x ∉ calls) :
    (d.program.classAt x).invalid = false := by
  rw [← Bool.not_eq_true, h.invalid]
  intro hm
  obtain ⟨q, hq, rfl⟩ := List.mem_map.1 hm
  exact hx (h.culprits q hq)

section

variable (h : Tally c calls done charges d) (hx : cls ∉ calls)
  (hstep : Phases (· = cls) (d.program.JoinsOwn cls) d e)

include h hx hstep

theorem reports_of_phases {q : Charge} (hq : q ∈ charges)
    (ho : e.program.HasRole q.culprit .ordinary) :
    q.report.code = some "O0007" ∧ q.report.span = (e.program.classAt q.culprit).span := by
  have hne : q.culprit ≠ cls := ne_of_mem_of_not_mem (h.culprits q hq) hx
  have hd := (hstep.ordinary ho).resolve_right hne
  rw [hstep.extends.program.span (contains_of_hasRole hd)]
  exact h.reports q hq hd

omit hx in
theorem called_of_phases (ho : e.program.HasRole x .ordinary) : x ∈ calls ++ [cls] := by
  rw [List.mem_append, List.mem_singleton]
  exact (hstep.ordinary ho).imp_left (h.called x)

/-- One more attempt, by which no class has become invalid. -/
theorem spared (hattempts : Attempts c done' e)
    (hdone : ∀ y, y ≠ cls → (y ∈ done' ↔ y ∈ done)) (hspared : d.Spared e)
    (hcls : e.session.aborted = false → e.program.HasRole cls .ordinary → cls ∈ done') :
    Tally c (calls ++ [cls]) done' charges e where
  attempts := hattempts
  called := fun _ => h.called_of_phases hstep
  culprits := fun q hq => List.mem_append_left _ (h.culprits q hq)
  callers := h.callers.trans (List.sublist_append_left ..)
  invalid := fun y => by rw [hspared.invalid, h.invalid]
  reports := fun q hq => h.reports_of_phases hx hstep hq
  answered := by
    intro he y ho
    by_cases hne : y = cls
    · subst hne
      exact .inl (hcls he ho)
    · rw [hdone y hne]
      exact h.answered (hstep.extends.running he) y ((hstep.ordinary ho).resolve_right hne)
  half := by
    intro hq
    obtain ⟨y, hy, ho, hv⟩ := h.half hq
    refine ⟨y, ?_, hstep.extends.program.hasRole ho, (hspared.invalid y).trans hv⟩
    rwa [hdone y (ne_of_mem_of_not_mem (h.called y ho) hx)]
  once := h.once

/-- One more attempt, by which `r` was held against `w`. -/
theorem charged (hattempts : Attempts c done e) (hcharged : d.ChargedTo w r e)
    (hother : w ≠ cls → e.program.HasRole cls .ordinary ∧
      (w ∈ charges.map (·.culprit) ∨ w ∈ charges.map (·.call)))
    (hreport : e.program.HasRole w .ordinary →
      r.code = some "O0007" ∧ r.span = (e.program.classAt w).span) :
    Tally c (calls ++ [cls]) done (charges ++ [⟨cls, w, r⟩]) e where
  attempts := hattempts
  called := fun _ => h.called_of_phases hstep
  culprits := by
    intro q hq
    rw [List.mem_append, List.mem_singleton]
    rcases List.mem_append.1 hq with hq | hq
    · exact .inl (h.culprits q hq)
    · rw [List.mem_singleton.1 hq]
      by_cases hne : w = cls
      · exact .inr hne
      · refine .inl ?_
        rcases (hother hne).2 with hw | hw
        · obtain ⟨q', hq', rfl⟩ := List.mem_map.1 hw
          exact h.culprits q' hq'
        · exact h.callers.subset hw
  callers := by
    rw [List.map_append]
    exact h.callers.append (.refl _)
  invalid := by
    intro y
    rw [hcharged.invalid, Bool.or_eq_true, decide_eq_true_iff, h.invalid, List.map_append,
      List.mem_append, List.map_singleton, List.mem_singleton]
  reports := by
    intro q hq
    rcases List.mem_append.1 hq with hq | hq
    · exact h.reports_of_phases hx hstep hq
    · rw [List.mem_singleton.1 hq]
      exact hreport
  answered := by
    intro he y ho
    rw [List.map_append, List.mem_append, List.map_singleton, List.mem_singleton]
    rcases hstep.ordinary ho with hd | rfl
    · exact (h.answered (hstep.extends.running he) y hd).imp_right .inl
    · exact .inr (.inr rfl)
  half := by
    -- unless the charge is the class's own, the class has been bound by half
    have hcls (hne : w ≠ cls) :
        ∃ x ∉ done, e.program.HasRole x .ordinary ∧ (e.program.classAt x).invalid = false := by
      refine ⟨cls, fun hm => hx (h.mem_calls hm), (hother hne).1, ?_⟩
      rw [hcharged.invalid, h.valid hx, decide_eq_false hne.symm, Bool.or_self]
    rintro ⟨q, hq, hne⟩
    rcases List.mem_append.1 hq with hq | hq
    · obtain ⟨y, hy, ho, hv⟩ := h.half ⟨q, hq, hne⟩
      by_cases hyw : y = w
      · exact hcls (hyw ▸ ne_of_mem_of_not_mem (h.called y ho) hx)
      · refine ⟨y, hy, hstep.extends.program.hasRole ho, ?_⟩
        rw [hcharged.invalid, hv, decide_eq_false hyw, Bool.or_self]
    · rw [List.mem_singleton.1 hq] at hne
      exact hcls hne
  once := by
    intro hnodup
    rw [List.map_append, List.map_singleton, List.nodup_append] at hnodup
    obtain ⟨hold, -, hnew⟩ := hnodup
    have hown := h.once hold
    intro q hq
    rcases List.mem_append.1 hq with hq | hq
    · exact hown q hq
    · rw [List.mem_singleton.1 hq]
      by_contra hne
      have heq : charges.map (·.culprit) = charges.map (·.call) := List.map_congr_left hown
      have hw := (hother hne).2
      rw [heq, or_self, ← heq] at hw
      exact hnew w hw w (List.mem_singleton_self w) rfl

/-- What was held against the class itself is booked for it. -/
theorem charged_misfit (hattempts : Attempts c done e) (hi : (e.program.classAt cls).info = none)
    (hcharged : d.ChargedTo cls r e) (hb : Booked charges cls d e more) :
    Tally c (calls ++ [cls]) done (charges ++ more) e := by
  obtain ⟨w, rfl, hw, -⟩ := hb.of_chargedTo hcharged
  obtain rfl := hw.eq_of_valid hcharged (h.valid hx)
  refine h.charged hx hstep hattempts hcharged (fun hne => absurd rfl hne) ?_
  rintro ⟨i, hi', -⟩
  cases hi.symm.trans hi'

/-- What was held against a class without a metaclass is booked for a class that has been tried. -/
theorem charged_headless (hattempts : Attempts c done e) (hd : d.session.aborted = false)
    (ho : e.program.HasRole cls .ordinary) (hx' : e.program.pairing x = some (.ordinary, none))
    (hcharged : d.ChargedTo x (e.program.headerFault x).diagnostic e)
    (hb : Booked charges cls d e more) :
    Tally c (calls ++ [cls]) done (charges ++ more) e := by
  obtain ⟨w, rfl, hw, hor⟩ := hb.of_chargedTo hcharged
  refine h.charged hx hstep hattempts hw (fun hne => ⟨ho, ?_⟩) fun how => ?_
  · rcases hor with rfl | ⟨q, hq, rfl, -⟩
    · have hwd := (hstep.ordinary (hasRole_iff.2 ⟨_, hx'⟩)).resolve_right hne
      refine .inr ((h.answered hd w hwd).resolve_left fun hdone => ?_)
      obtain ⟨m, hm⟩ := hattempts.paired w hdone
      rw [hx'] at hm
      cases hm
    · exact .inl (List.mem_map_of_mem hq)
  · rcases hor with rfl | ⟨q, hq, rfl, hcode, hspan⟩
    · exact ⟨rfl, rfl⟩
    · obtain ⟨hqcode, hqspan⟩ := h.reports_of_phases hx hstep hq how
      exact ⟨hcode.symm.trans hqcode, hspan.symm.trans hqspan⟩

end

/-- The tally goes on with every attempt to bind a class that has not been tried. -/
theorem step (h : Tally c calls done charges d) (hx : cls ∉ calls)
    (ha : Attempted c done cls d e) (hb : Booked charges cls d e more) :
    ∃ done', Tally c (calls ++ [cls]) done' (charges ++ more) e := by
  rcases ha.outcome with ⟨hattempts, hspared⟩ | ⟨hattempts, hfailed⟩
  · rw [hb.of_spared hspared, List.append_nil]
    refine ⟨cls :: done, h.spared hx ha.phases hattempts (fun y hne => ?_) hspared
      fun _ _ => List.mem_cons_self⟩
    rw [List.mem_cons, or_iff_right hne]
  · refine ⟨done, ?_⟩
    cases hfailed with
    | ended he hspared =>
      rw [hb.of_spared hspared, List.append_nil]
      exact h.spared hx ha.phases hattempts (fun _ _ => .rfl) hspared
        fun he' => by rw [he] at he'; cases he'
    | bound hbound hspared =>
      rw [hb.of_spared hspared, List.append_nil]
      refine h.spared hx ha.phases hattempts (fun _ _ => .rfl) hspared fun _ ho => ?_
      obtain ⟨role, hrole⟩ := hasRole_of_isBound hbound
      cases hasRole_unique ho (ha.phases.extends.program.hasRole hrole)
      exact absurd (h.called cls hrole) hx
    | misfit _ hi hcharged => exact h.charged_misfit hx ha.phases hattempts hi hcharged hb
    | headless hd _ ho hx' hcharged =>
      exact h.charged_headless hx ha.phases hattempts hd ho hx' hcharged hb

/-- Something can be booked for every attempt. -/
theorem exists_booked (h : Tally c calls done charges d) (hx : cls ∉ calls)
    (ha : Attempted c done cls d e) : ∃ more, Booked charges cls d e more := by
  rcases ha.outcome with ⟨-, hspared⟩ | ⟨-, hfailed⟩
  · exact ⟨_, .nothing hspared⟩
  · cases hfailed with
    | ended _ hspared => exact ⟨_, .nothing hspared⟩
    | bound _ hspared => exact ⟨_, .nothing hspared⟩
    | misfit _ _ hcharged => exact ⟨_, .first hcharged (h.valid hx)⟩
    | @headless w _ _ _ hw hcharged =>
      cases hv : (d.program.classAt w).invalid with
      | false => exact ⟨_, .first hcharged hv⟩
      | true =>
        obtain ⟨q, hq, rfl⟩ := List.mem_map.1 ((h.invalid w).1 hv)
        obtain ⟨hcode, hspan⟩ := h.reports_of_phases hx ha.phases hq (hasRole_iff.2 ⟨_, hw⟩)
        exact ⟨_, .again hcharged hq hcode hspan⟩

end Tally

/-! ## Runs -/

/-- A class that is added is valid. -/
def Event.ClassValid : Event → Prop
  | .grow (.addClass d) => d.invalid = false
  | _ => True

instance : DecidablePred Event.ClassValid
  | .grow (.addClass d) => inferInstanceAs (Decidable (d.invalid = false))
  | .grow (.intern _) | .grow (.addScope _) | .grow (.declare ..) | .grow (.addFunction _)
  | .grow (.addMethod ..) | .grow (.addGroup _) | .grow (.addGroupMember ..) | .run _ =>
    .isTrue trivial

theorem Growth.classValid_apply {g : Growth} (hg : Event.ClassValid (.grow g)) {p : Program}
    (hx : (p.classAt x).invalid = false) : ((g.apply p).classAt x).invalid = false := by
  rcases g.classAt_cases p x with he | ⟨d, rfl, he⟩ | ⟨d, -, he⟩
  · rwa [he]
  · rw [he]
    exact hg
  · rw [he]
    exact hx

section

variable {past : List Compilation} {calls : List (ClassId × ScopeId)}

open Run in
theorem Run.tally (h : Run (fun p e => e.Added p ∧ e.ClassValid) past c) : Tally c [] [] [] c := by
  obtain ⟨-, hi, hb⟩ := (h.mono fun _ _ he => he.1).added
  refine .start (.start (.of_unbound hi hb) hi) hi ?_
  refine h.invariant (I := fun c => ∀ x, (c.program.classAt x).invalid = false) ?_ ?_
  · intro renders x
    rw [classAt_new]
    rfl
  · rintro c (g | op) ⟨he, hv⟩ hc
    · exact fun x => Growth.classValid_apply hv (hc x)
    · exact he.elim

theorem Session.Charging.tally (h : Run (fun p e => e.Added p ∧ e.ClassValid) past c)
    (hd : Session.Charging c calls charges d) (hcalls : (calls.map Prod.fst).Nodup) :
    ∃ done, Tally c (calls.map Prod.fst) done charges d := by
  obtain ⟨hf, -⟩ := (h.mono fun _ _ he => he.1).added
  induction hd with
  | start => exact ⟨[], h.tally⟩
  | @call calls charges more d cls scope _ hc hb ih =>
    rw [List.map_append, List.map_singleton] at hcalls ⊢
    obtain ⟨hold, -, hnew⟩ := List.nodup_append.1 hcalls
    obtain ⟨done, ht⟩ := ih hold
    exact ht.step (fun hx => hnew cls hx cls (List.mem_singleton_self cls) rfl)
      (ht.attempts.bind hf hc scope) hb

/-- Every class is charged once exactly if all that is held against classes is held against those
that are being bound, and that is, if no class is left marked and valid without a metaclass. -/
theorem chargedOnce_iff (h : Run (fun p e => e.Added p ∧ e.ClassValid) past c)
    (hd : Session.Charging c calls charges d) (hcalls : (calls.map Prod.fst).Nodup) :
    (∀ cls scope, cls ∉ calls.map Prod.fst → d.program.classes.contains cls = true →
      ∃ more, Session.Charging c (calls ++ [(cls, scope)]) (charges ++ more)
        (finish (Session.bindClass cls scope) d)) ∧
      ((charges.map (·.culprit)).Nodup ↔ ∀ q ∈ charges, q.culprit = q.call) ∧
      (d.session.aborted = false → ((charges.map (·.culprit)).Nodup ↔
        ∀ x, d.program.HasRole x .ordinary → (d.program.classAt x).invalid = false →
          d.program.IsPaired x)) := by
  obtain ⟨hf, -⟩ := (h.mono fun _ _ he => he.1).added
  obtain ⟨done, ht⟩ := hd.tally h hcalls
  have hown : (charges.map (·.culprit)).Nodup ↔ ∀ q ∈ charges, q.culprit = q.call := by
    refine ⟨ht.once, fun hown => ?_⟩
    rw [show charges.map (·.culprit) = charges.map (·.call) from List.map_congr_left hown]
    exact ht.callers.nodup hcalls
  refine ⟨fun cls scope hx hc => ?_, hown,
    fun ha => hown.trans ⟨fun hown x ho hv => ?_, fun hp => ?_⟩⟩
  · obtain ⟨more, hmore⟩ := ht.exists_booked hx (ht.attempts.bind hf hc scope)
    exact ⟨more, .call hd hc hmore⟩
  · rcases ht.answered ha x ho with hdone | hcalled
    · exact ht.attempts.paired x hdone
    · obtain ⟨q, hq, rfl⟩ := List.mem_map.1 hcalled
      rw [(ht.invalid _).2 (List.mem_map.2 ⟨q, hq, hown q hq⟩)] at hv
      cases hv
  · by_contra hown
    push Not at hown
    obtain ⟨x, hx, ho, hv⟩ := ht.half hown
    exact (ht.attempts.ranked.above ha).not_isPaired (ht.attempts.blocked ha x ho hx) (hp x ho hv)

end

/-- When the class below a foreign class without a metaclass is bound after it, the foreign class is
charged twice. -/
theorem not_chargedOnce_headless :
    let c := (Event.play [] (.new .functional false) headlessEvents).2
    let d := finish (Session.bindClass ⟨1⟩ ⟨0⟩) (finish (Session.bindClass ⟨0⟩ ⟨0⟩) c)
    ∃ charges, Session.Charging c [(⟨0⟩, ⟨0⟩), (⟨1⟩, ⟨0⟩)] charges d ∧
      ¬ (charges.map (·.culprit)).Nodup := by
  intro c d
  have hrun : Run (fun p e => e.Added p ∧ e.ClassValid)
      (Event.play [] (.new .functional false) headlessEvents).1 c :=
    (Run.start false).play (by decide +kernel)
  obtain ⟨q₀, h₀⟩ := (chargedOnce_iff hrun .start List.nodup_nil).1 ⟨0⟩ ⟨0⟩ List.not_mem_nil
    (by decide +kernel)
  obtain ⟨q₁, h₁⟩ : ∃ charges, Session.Charging c [(⟨0⟩, ⟨0⟩), (⟨1⟩, ⟨0⟩)] (q₀ ++ charges) d :=
    (chargedOnce_iff hrun h₀ (by decide)).1 ⟨1⟩ ⟨0⟩ (by decide) (by decide +kernel)
  refine ⟨_, h₁, fun hnodup => ?_⟩
  have hhalf : d.session.aborted = false ∧ d.program.pairing ⟨1⟩ = some (.ordinary, none) ∧
      (d.program.classAt ⟨1⟩).invalid = false := by decide +kernel
  obtain ⟨ha, hpair, hv⟩ := hhalf
  obtain ⟨m, hm⟩ := ((chargedOnce_iff hrun h₁ (by decide)).2.2 ha).1 hnodup ⟨1⟩
    (hasRole_iff.2 ⟨_, hpair⟩) hv
  rw [hpair] at hm
  cases hm

end ObjcBinding
