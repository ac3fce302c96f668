import ObjcBinding.Binding.Session
import ObjcBinding.Proofs.Run

/-!
# Dispatch tables

A method list is read as two tables, one for each side, from the texts of selectors to functions.
A function gets its selector by a look-up that checks the text, so that the text gives the number
of arguments and with it the handle; and a list has no handle twice on one side.

* `Compilation.TablesFit.text_nodup`: on one side of a list no text occurs twice;
* `dispatchTables_sound`: at all times all entries fit their class and their function, and the
  tables that are emitted are sound.
-/

namespace ObjcBinding

/-! ## The invariant -/

/-- The entries of one side of a method list. -/
def Program.side (p : Program) (cls : ClassId) (isClassMethod : Bool) : List MethodEntry :=
  (p.entries cls).filter fun e => e.isClassMethod == isClassMethod

theorem Program.findMethod_eq (p : Program) (cls : ClassId) (s : Selector) (side : Bool) :
    (p.classAt cls).info.bind (·.findMethod s side) =
      (p.side cls side).find? fun e => e.selector == s := by
  rw [Program.side, entries, List.find?_filter]
  cases (p.classAt cls).info with
  | none => rfl
  | some i =>
    rw [Option.bind_some, ClassInfo.findMethod]
    refine congrArg (List.find? · _) (funext fun e => ?_)
    rw [Bool.and_comm, Bool.decide_and, Bool.decide_eq_true, Bool.decide_eq_true]

/-- What holds of the method lists and of the selectors of functions at all times. -/
structure Compilation.TablesFit (c : Compilation) : Prop where
  owned : c.program.ListsOwned
  fits : ∀ cls e, e ∈ c.program.entries cls → c.Fits e.func cls e.selector
  valid : ∀ func s, (c.program.funcAt func).selector = some s → c.session.selectors.Valid s
  nodup : ∀ cls isClassMethod, ((c.program.side cls isClassMethod).map (·.selector)).Nodup

variable {deed : Deed} {c d : Compilation}

namespace Compilation.TablesFit

theorem of_start (renders : Bool) : (new .functional renders).TablesFit := by
  have hentries (cls : ClassId) : (new .functional renders).program.entries cls = [] :=
    Program.entries_of_unbound (Run.info_new renders cls)
  refine ⟨.of_unbound (Run.info_new renders), fun cls e h => ?_, fun func s h => ?_,
    fun cls side => ?_⟩
  · rw [hentries] at h
    cases h
  · rw [Run.funcAt_new] at h
    cases h
  · rw [Program.side, hentries]
    exact List.nodup_nil

theorem grow (h : c.TablesFit) {g : Growth} (hg : g.Unbound) :
    ({ c with program := g.apply c.program } : Compilation).TablesFit := by
  have hext := extends_of_program (g.apply_extends c.program)
  have hentries := g.entries_apply hg c.program
  refine ⟨⟨fun m x hm => ?_, fun cls e he => ?_⟩, fun cls e he => ?_, fun func s hs => ?_,
    fun cls side => ?_⟩
  · rw [g.pairing_apply hg] at hm
    exact hext.program.hasRole (h.owned.partner m x hm)
  · rw [hentries] at he
    exact hext.program.hasRole (h.owned.list cls e he)
  · change e ∈ (g.apply c.program).entries cls at he
    rw [hentries] at he
    exact (h.fits cls e he).of_extends hext rfl
  · change ((g.apply c.program).funcAt func).selector = some s at hs
    rw [FuncDecl.selector, g.funcInfo_apply hg] at hs
    exact h.valid func s hs
  · change (((g.apply c.program).side cls side).map _).Nodup
    rw [Program.side, hentries]
    exact h.nodup cls side

theorem nodup_append {cls : ClassId} {entry : MethodEntry} (h : c.TablesFit)
    (hnew : ∀ e ∈ c.program.entries cls, e.selector = entry.selector →
      e.isClassMethod = entry.isClassMethod → False) (side : Bool) :
    (((c.program.entries cls ++ [entry]).filter fun e => e.isClassMethod == side).map
      (·.selector)).Nodup := by
  rw [List.filter_append, List.map_append, List.nodup_append]
  refine ⟨h.nodup cls side, ?_, ?_⟩
  · rw [List.filter_singleton]
    cases entry.isClassMethod == side <;> simp
  · intro s hs s' hs' heq
    obtain ⟨e, he, rfl⟩ := List.mem_map.1 hs
    obtain ⟨e', he', rfl⟩ := List.mem_map.1 hs'
    obtain ⟨hmem, hside⟩ := List.mem_filter.1 he
    obtain ⟨hmem', hside'⟩ := List.mem_filter.1 he'
    rw [List.mem_singleton] at hmem'
    subst hmem'
    exact hnew e hmem heq ((eq_of_beq hside).trans (eq_of_beq hside').symm)

theorem change (h : c.TablesFit) (hstep : Change deed c d) : d.TablesFit := by
  have hext := hstep.extends
  have hkeep {cls : ClassId} {e : MethodEntry} (he : e ∈ c.program.entries cls) :
      d.Fits e.func cls e.selector :=
    have hfit := h.fits cls e he
    hfit.of_extends hext (hext.arity_eq (h.valid e.func e.selector hfit.selector))
  have hvalid (func : FuncId) (s : Selector) (hs : (d.program.funcAt func).selector = some s) :
      d.session.selectors.Valid s := by
    obtain ⟨j, hj, rfl⟩ := Option.map_eq_some_iff.1 hs
    rcases hstep.info_cases hj with ⟨i, hi, hij, -⟩ | ⟨-, hvalid⟩
    · rw [hij]
      exact hext.valid (h.valid func i.selector (congrArg (Option.map _) hi))
    · exact hext.valid hvalid
  by_cases hr : ∃ func owner side, deed = .record func owner side
  · obtain ⟨func, owner, side, rfl⟩ := hr
    obtain ⟨s, hfit, -, hnew, hentries⟩ := hstep.record_entries
    refine ⟨hstep.listsOwned h.owned, fun cls e he => ?_, hvalid, fun cls side' => ?_⟩
    · rw [hentries] at he
      split at he
      · rename_i hx
        subst hx
        rcases List.mem_append.1 he with he | he
        · exact hkeep he
        · rw [List.mem_singleton] at he
          subst he
          exact hfit.of_extends hext (hext.arity_eq (h.valid func s hfit.selector))
      · exact hkeep he
    · rw [Program.side, hentries]
      split
      · rename_i hx
        subst hx
        exact h.nodup_append hnew side'
      · exact h.nodup cls side'
  · have hentries (cls : ClassId) : d.program.entries cls = c.program.entries cls :=
      hstep.entries_eq h.owned fun func side hd => hr ⟨func, cls, side, hd⟩
    refine ⟨hstep.listsOwned h.owned, fun cls e he => ?_, hvalid, fun cls side => ?_⟩
    · rw [hentries] at he
      exact hkeep he
    · rw [Program.side, hentries]
      exact h.nodup cls side

theorem of_run {Admits : Program → Event → Prop} {past : List Compilation}
    (hU : ∀ p e, Admits p e → e.Unbound) (h : Run Admits past c) : c.TablesFit :=
  h.changes hU of_start (fun _ _ hg hc => hc.grow (hU _ _ hg)) fun _ _ _ hstep hc => hc.change hstep

/-! ## The tables -/

theorem selector_valid (h : c.TablesFit) {cls : ClassId} {e : MethodEntry}
    (he : e ∈ c.program.entries cls) : c.session.selectors.Valid e.selector :=
  h.valid e.func e.selector (h.fits cls e he).selector

theorem text_nodup (h : c.TablesFit) (cls : ClassId) (side : Bool) :
    ((c.program.side cls side).map fun e => c.session.selectors.text e.selector).Nodup := by
  have hn := h.nodup cls side
  rw [List.Nodup, List.pairwise_map] at hn ⊢
  refine hn.imp_of_mem fun {e e'} he he' hne heq => hne ?_
  have hv := h.selector_valid (List.mem_of_mem_filter he)
  exact hv.text_inj (h.selector_valid (List.mem_of_mem_filter he')) heq

end Compilation.TablesFit

/-- The entries of all lists fit, and no two entries on one side of a list have one text. -/
structure Compilation.TablesSound (c : Compilation) : Prop where
  owner : ∀ cls e, e ∈ c.program.entries cls → c.program.HasRole cls .ordinary
  fits : ∀ cls e, e ∈ c.program.entries cls → c.Fits e.func cls e.selector
  grammar : ∀ cls e, e ∈ c.program.entries cls →
    Selector.arity (c.session.selectors.text e.selector) =
      .ok (c.program.funcAt e.func).explicitCount
  distinct : ∀ cls isClassMethod,
    ((c.program.side cls isClassMethod).map fun e => c.session.selectors.text e.selector).Nodup

namespace Emission

/-- The selectors of a table are different from each other, and the emission knows them. -/
structure TableSound (e : Emission) (table : List MethodRecord) : Prop where
  distinct : (table.map (·.selector)).Nodup
  known : ∀ m ∈ table, m.selector ∈ e.selectors ∧ m.selector ≠ "<unknown>"

theorem tableSound_collect (h : c.TablesFit) {cls : ClassId} {i : ClassInfo}
    (hi : (c.program.classAt cls).info = some i) (side : Bool) :
    (collect c.program c.session.selectors).TableSound
      (methodRecords c.program c.session.selectors i side) := by
  have hside : i.side side = c.program.side cls side := by
    rw [Program.side, Program.entries_of_info hi, ClassInfo.side]
  constructor
  · rw [methodRecords, List.map_map, hside]
    exact (h.text_nodup cls side).sublist (List.Sublist.map _ List.filter_sublist)
  · intro m hm
    obtain ⟨e, he, rfl⟩ := List.mem_map.1 hm
    rw [hside] at he
    have hv := h.selector_valid (List.mem_of_mem_filter (List.mem_of_mem_filter he))
    exact ⟨hv.text_mem, hv.text_ne_unknown⟩

end Emission

/-- At all times the method lists are sound, and so are the tables that are emitted. -/
theorem dispatchTables_sound {past : List Compilation}
    (h : Run (fun _ e => e.Unbound) past c) :
    c.TablesSound ∧ ∀ e, c.emission = .ok e → ∀ r ∈ e.classes,
      e.TableSound r.instanceMethods ∧ e.TableSound r.classMethods := by
  have hfit := Compilation.TablesFit.of_run (fun _ _ hU => hU) h
  refine ⟨⟨hfit.owned.list, hfit.fits, fun cls e he => ?_, hfit.text_nodup⟩, fun e he r hr => ?_⟩
  · rw [(hfit.selector_valid he).arity_text, (hfit.fits cls e he).arity]
  · obtain ⟨hf, -⟩ := h.functional fun _ _ hU => hU
    rw [Compilation.emission, Compilation.asked, hf] at he
    split at he
    · cases he
    · cases he
      rw [Emission.collect_classes] at hr
      obtain ⟨cls, -, hcls⟩ := List.mem_filterMap.1 hr
      obtain ⟨i, hi, rfl⟩ := Option.map_eq_some_iff.1 hcls
      obtain ⟨-, -, -, hi, -⟩ := Emission.recorded?_eq_some_iff.1 hi
      exact ⟨Emission.tableSound_collect hfit hi false, Emission.tableSound_collect hfit hi true⟩

/-- `Foo` has a method of its instances and one of its own, both called `draw`. -/
def twoSidedEvents : List Event :=
  let draw (isStatic : Bool) : FuncDecl :=
    { name := ⟨6⟩, params := [], span := .point 0 1 1, linkage := .objc, isStatic }
  [.grow (.addScope none), .grow (.intern "Foo"), .grow (.intern "draw"),
    .grow (.addClass { name := ⟨5⟩, kind := .concrete, span := .point 0 1 1 }),
    .grow (.addMethod ⟨0⟩ (draw false)), .grow (.addMethod ⟨0⟩ (draw true)),
    .run (.bindClass ⟨0⟩ ⟨0⟩)]

theorem dispatchTables_sound_twoSided :
    let c := (Event.play [] (.new .functional false) twoSidedEvents).2
    c.emission.toOption.map (·.classes.map fun r => (r.instanceMethods.map (·.selector),
        r.classMethods.map (·.selector))) = some [(["draw"], ["draw"])] ∧
      c.TablesSound ∧ ∀ e, c.emission = .ok e → ∀ r ∈ e.classes,
        e.TableSound r.instanceMethods ∧ e.TableSound r.classMethods := by
  intro c
  refine ⟨?_, dispatchTables_sound ((Run.start false).play ?_)⟩
  · decide +kernel
  · decide +kernel

end ObjcBinding
