import ObjcBinding.Proofs.Overrides
import ObjcBinding.Proofs.Steps.Recording

/-!
# The nearest class above that has a selector

What a function overrides is noted when it joins the list of its class, by a search that starts at
the superclass. The question which class has the function's selector is answered by a search that
starts at the class itself. Both find the nearest class above with an entry for the selector, and
the answer stays as long as the lists above do.

* `find?_chain`: a search along a walk finds the nearest element that is looked for;
* `Program.IsNearest`: there is one nearest class above, or none at all;
* `isNearest_declaredAbove?`, `nearestDeclaring_eq`: what the two searches find;
* `recordMember_collides`: a function whose selector is taken is rejected;
* `nearestDeclaring_agrees`: the note and the answers agree, before and after.
-/

namespace ObjcBinding

/-! ## Searches along walks -/

/-- Along a walk that ends, a search finds an element that is looked for, and none before it is. -/
theorem find?_chain {α : Type} {next : α → Option α} {bound : Nat} {a b : α} {P : α → Bool}
    (h : Ends next bound a) (hb : (chain next bound a).find? P = some b) :
    Relation.ReflTransGen (fun x y => next x = some y) a b ∧ P b = true ∧
      ∀ x, Relation.ReflTransGen (fun x y => next x = some y) a x →
        Relation.TransGen (fun x y => next x = some y) x b → P x = false := by
  induction h with
  | @here bound a hn =>
    rw [chain_succ, hn, List.find?_singleton, Option.ite_none_right_eq_some,
      Option.some.injEq] at hb
    obtain ⟨hP, rfl⟩ := hb
    have hend : Ends next 1 a := .here hn
    refine ⟨.refl, hP, fun x hx hxb => ?_⟩
    -- nothing is reached from an element without a link
    obtain rfl | ⟨y, hy, -⟩ := Relation.ReflTransGen.cases_head_iff.1 hx
    · exact absurd hxb hend.not_transGen_self
    · cases hn.symm.trans hy
  | @step bound a next' hn hends ih =>
    have hstep := Ends.step hn hends
    rw [chain_succ, hn, List.find?_cons] at hb
    cases hP : P a with
    | true =>
      rw [hP] at hb
      obtain rfl := Option.some.inj hb
      refine ⟨.refl, hP, fun x hx hxa => ?_⟩
      exact absurd (Relation.TransGen.trans_right hx hxa) hstep.not_transGen_self
    | false =>
      rw [hP] at hb
      obtain ⟨hreach, hPb, hnone⟩ := ih hb
      refine ⟨.head hn hreach, hPb, fun x hx hxb => ?_⟩
      obtain rfl | ⟨y, hy, hyx⟩ := Relation.ReflTransGen.cases_head_iff.1 hx
      · exact hP
      · rw [hn, Option.some.injEq] at hy
        exact hnone x (hy ▸ hyx) hxb

/-! ## The nearest class -/

namespace Program

/-- The list of the class has an entry for the selector on this side. -/
def Lists (p : Program) (cls : ClassId) (s : Selector) (isClassMethod : Bool) : Prop :=
  ∃ e ∈ p.side cls isClassMethod, e.selector = s

/-- Of the classes above `cls` whose lists have an entry for the selector, `above` is the
nearest. -/
structure NearestAbove (p : Program) (cls : ClassId) (s : Selector) (isClassMethod : Bool)
    (above : ClassId) : Prop where
  ancestor : p.Ancestor cls above
  lists : p.Lists above s isClassMethod
  nearest (x : ClassId) : p.Ancestor cls x → p.Ancestor x above → ¬p.Lists x s isClassMethod

/-- The nearest class above `cls` whose list has an entry for the selector, if any has one. -/
def IsNearest (p : Program) (cls : ClassId) (s : Selector) (isClassMethod : Bool) :
    Option ClassId → Prop
  | some above => p.NearestAbove cls s isClassMethod above
  | none => ¬p.Inherits cls s isClassMethod

variable {p q : Program} {cls above : ClassId} {s : Selector} {isClassMethod : Bool}

theorem NearestAbove.unique {above' : ClassId} (h : p.NearestAbove cls s isClassMethod above)
    (h' : p.NearestAbove cls s isClassMethod above') : above = above' := by
  -- of two classes above one class, one is above the other
  obtain ⟨x, hx, hxa⟩ := Relation.TransGen.head'_iff.1 h.ancestor
  obtain ⟨y, hy, hya⟩ := Relation.TransGen.head'_iff.1 h'.ancestor
  obtain rfl := Option.some.inj (hx.symm.trans hy)
  have htotal := Relation.ReflTransGen.total_of_right_unique
    (fun _ _ _ hy hz => Option.some.inj (hy.symm.trans hz)) hxa hya
  rcases htotal with hle | hle
  · rcases Relation.reflTransGen_iff_eq_or_transGen.1 hle with heq | hlt
    · exact heq.symm
    · exact absurd h.lists (h'.nearest above h.ancestor hlt)
  · rcases Relation.reflTransGen_iff_eq_or_transGen.1 hle with heq | hlt
    · exact heq
    · exact absurd h'.lists (h.nearest above' h'.ancestor hlt)

theorem IsNearest.unique {a b : Option ClassId} (h : p.IsNearest cls s isClassMethod a)
    (h' : p.IsNearest cls s isClassMethod b) : a = b := by
  cases a with
  | none =>
    cases b with
    | none => rfl
    | some above => exact absurd ⟨above, h'.ancestor, h'.lists⟩ h
  | some above =>
    cases b with
    | none => exact absurd ⟨above, h.ancestor, h.lists⟩ h'
    | some above' => exact congrArg some (NearestAbove.unique h h')

/-- No class comes above a bound class later. -/
theorem Ancestor.of_extended (h : q.Ancestor cls above) (hext : p.Extends q) (hp : p.Layered)
    (ho : p.HasRole cls .ordinary) : p.Ancestor cls above := by
  have hkeep {x y : ClassId} (hx : p.HasRole x .ordinary) (hxy : q.superclass? x = some y) :
      p.superclass? x = some y :=
    (hext.superclass hx).symm.trans hxy
  induction h with
  | single hxy => exact .single (hkeep ho hxy)
  | tail _ hxy ih => exact ih.tail (hkeep (ih.of_extends hext hp ho).2 hxy)

/-- The nearest class stays the nearest while the lists above stay as they are. -/
theorem IsNearest.of_extends {nearest : Option ClassId}
    (h : p.IsNearest cls s isClassMethod nearest) (hext : p.Extends q) (hp : p.Layered)
    (ho : p.HasRole cls .ordinary)
    (hlists : ∀ above, p.Ancestor cls above → q.entries above = p.entries above) :
    q.IsNearest cls s isClassMethod nearest := by
  have hiff {x : ClassId} (hx : p.Ancestor cls x) :
      q.Lists x s isClassMethod ↔ p.Lists x s isClassMethod := by
    rw [Lists, Lists, side, hlists x hx, side]
  cases nearest with
  | none =>
    rintro ⟨above, ha, hl⟩
    have ha' := ha.of_extended hext hp ho
    exact h ⟨above, ha', (hiff ha').1 hl⟩
  | some above =>
    obtain ⟨ha, hl, hnone⟩ := h
    refine ⟨(ha.of_extends hext hp ho).1, (hiff ha).2 hl, fun x hx hxa hxl => ?_⟩
    have hx' := hx.of_extended hext hp ho
    have hord := (hx'.of_extends hext hp ho).2
    exact hnone x hx' (hxa.of_extended hext hp hord) ((hiff hx').1 hxl)

end Program

/-! ## What the searches find -/

open Program Resolve

variable {c d : Compilation} {cls owner : ClassId} {func : FuncId} {s : Selector}
  {isClassMethod : Bool}

/-- The search from the superclass of a function's class finds the nearest class above. -/
theorem isNearest_declaredAbove? (h : c.Regular) (ho : c.program.HasRole cls .ordinary)
    (hparent : (c.program.funcAt func).parent = some cls) (s : Selector) (isClassMethod : Bool) :
    c.program.IsNearest cls s isClassMethod
      (c.program.declaredAbove? s isClassMethod cls func) := by
  have hsome : (c.program.declaredAbove? s isClassMethod cls func).isSome = true ↔
      c.program.Inherits cls s isClassMethod := isSome_declaringClass_iff h ho hparent
  cases hfound : c.program.declaredAbove? s isClassMethod cls func with
  | none =>
    rw [hfound] at hsome
    exact fun hinherits => Bool.false_ne_true (hsome.2 hinherits)
  | some above =>
    obtain ⟨superclass, hsup, hfind⟩ := Option.bind_eq_some_iff.1 hfound
    obtain ⟨hreach, hdeclares, hnone⟩ :=
      find?_chain (h.layered.ends (h.layered.superclass_ordinary ho hsup)) hfind
    have ha : c.program.Ancestor cls above := Relation.TransGen.head' hsup hreach
    refine ⟨ha, (declares_above_iff h ho hparent ha).1 hdeclares, fun x hx hxa hl => ?_⟩
    obtain ⟨y, hy, hyx⟩ := Relation.TransGen.head'_iff.1 hx
    obtain rfl := Option.some.inj (hsup.symm.trans hy)
    have hd := (declares_above_iff h ho hparent hx).2 hl
    rw [hnone x hyx hxa] at hd
    cases hd

theorem exists_of_declares {p : Program} (h : p.declares s isClassMethod func cls = true) :
    ∃ e ∈ p.entries cls, e.selector = s ∧ e.isClassMethod = isClassMethod ∧ e.func ≠ func := by
  obtain ⟨i, hi, hany⟩ := (Option.any_eq_true ..).1 h
  obtain ⟨e, hfind, hne⟩ := (Option.any_eq_true ..).1 hany
  have hkey := List.find?_some hfind
  rw [Bool.and_eq_true, beq_iff_eq, beq_iff_eq] at hkey
  refine ⟨e, ?_, hkey.1, hkey.2, of_decide_eq_true hne⟩
  rw [entries_of_info hi]
  exact List.mem_of_find?_eq_some hfind

/-- A class has one entry for a selector on each side of its list. -/
theorem entry_unique (h : c.TablesFit) {e e' : MethodEntry} (he : e ∈ c.program.entries cls)
    (he' : e' ∈ c.program.entries cls) (hs : e.selector = e'.selector)
    (hside : e.isClassMethod = e'.isClassMethod) : e = e' :=
  List.inj_on_of_nodup_map (h.nodup cls e'.isClassMethod) (mem_side.2 ⟨he, hside⟩)
    (mem_side.2 ⟨he', rfl⟩) hs

/-- The entry that is found for a selector is the one that there is. -/
theorem findMethod_eq_some_of_mem (h : c.TablesFit) {i : ClassInfo} {e : MethodEntry}
    (hi : (c.program.classAt cls).info = some i) (he : e ∈ c.program.entries cls) :
    i.findMethod e.selector e.isClassMethod = some e := by
  cases hfind : i.findMethod e.selector e.isClassMethod with
  | none =>
    have hnone := List.find?_eq_none.1 hfind e (entries_of_info hi ▸ he)
    simp at hnone
  | some e' =>
    have hkey := List.find?_some hfind
    rw [Bool.and_eq_true, beq_iff_eq, beq_iff_eq] at hkey
    have he' : e' ∈ c.program.entries cls := entries_of_info hi ▸ List.mem_of_find?_eq_some hfind
    rw [entry_unique h he' he hkey.1 hkey.2]

/-- The search from a class whose own list has the selector for no other function goes on to the
classes above. -/
theorem nearestDeclaring_eq (h : c.Regular) (ho : c.program.HasRole cls .ordinary)
    (hs : (c.program.funcAt func).selector = some s)
    (hown : ∀ e ∈ c.program.entries cls, e.selector = s →
      e.isClassMethod = (c.program.funcAt func).isStatic → e.func = func) :
    c.program.nearestDeclaring func cls =
      (c.program.declaredAbove? s (c.program.funcAt func).isStatic cls func).getD cls := by
  have hself : c.program.declares s (c.program.funcAt func).isStatic func cls = false := by
    rw [← Bool.not_eq_true]
    intro hd
    obtain ⟨e, he, hsel, hside, hne⟩ := exists_of_declares hd
    exact hne (hown e he hsel hside)
  simp only [nearestDeclaring, hs, listOwner_of_ordinary ho]
  rw [declaringClass?, lineage_eq, List.find?_cons, hself, declaredAbove?]
  cases hsup : c.program.superclass? cls with
  | none => rfl
  | some superclass =>
    -- one class further up, a walk needs one class less
    have hends : Ends c.program.superclass? c.program.classes.size superclass := by
      cases h.layered.ends ho with
      | here hn => cases hsup.symm.trans hn
      | step hn hends => exact Option.some.inj (hn.symm.trans hsup) ▸ hends
    rw [Option.bind_some, declaringClass?, lineage, chain_eq_of_ends hends 1]
    rfl

/-- The search from a class whose list has the selector for another function ends there. -/
theorem nearestDeclaring_of_mem (h : c.TablesFit) {e : MethodEntry}
    (he : e ∈ c.program.entries cls) (hs : (c.program.funcAt func).selector = some e.selector)
    (hside : e.isClassMethod = (c.program.funcAt func).isStatic) (hne : e.func ≠ func) :
    c.program.nearestDeclaring func cls = cls := by
  have ho := h.owned.list cls e he
  obtain ⟨i, hi, -⟩ := id ho
  have hself : c.program.declares e.selector e.isClassMethod func cls = true := by
    rw [declares, hi, Option.any_some, findMethod_eq_some_of_mem h hi he, Option.any_some]
    exact decide_eq_true hne
  simp only [nearestDeclaring, hs, listOwner_of_ordinary ho, ← hside]
  rw [declaringClass?, lineage_eq, List.find?_cons, hself]
  rfl

/-! ## Recording -/

theorem finish_recordMethod_event (func : FuncId) (cls : ClassId) (c : Compilation) :
    (Event.run (.recordMethod func cls)).apply c = finish (Session.recordMethod func cls) c := by
  change finish (Session.recordMethod func cls >>= fun _ => pure Reply.done) c = _
  rw [finish, bind_apply, finish]
  cases Session.recordMethod func cls c <;> rfl

/-- When recording a function adds an entry to a list, the list has taken the function. -/
theorem joined_of_entries_ne (hf : c.session.strategy = .functional)
    (hne : (finish (Session.recordMethod func cls) c).program.entries owner ≠
      c.program.entries owner) :
    ∃ s, c.Takes func cls (c.program.funcAt func).isStatic owner s ∧
      c.Enlists (entriesOf owner [⟨s, func, (c.program.funcAt func).isStatic⟩])
        (finish (Session.recordMethod func cls) c) ∧
      (finish (Session.recordMethod func cls) c).program.overrides? func =
        c.program.declaredAbove? s (c.program.funcAt func).isStatic owner func := by
  cases ha : c.session.aborted with
  | true =>
    have hsame : finish (Session.recordMethod func cls) c = c := by
      rw [finish, Session.recordMethod, guarded_of_aborted ha]
    exact absurd (by rw [hsame]) hne
  | false =>
    rw [finish_session_recordMethod ha hf] at hne ⊢
    obtain ⟨added, hrecorded⟩ :=
      finish_record_recorded func cls (c.program.funcAt func).isStatic c
    cases hrecorded with
    | passed _ hd => exact absurd (by rw [hd.entries, List.append_nil]) hne
    | @joined owner' s htakes hd hover =>
      have howner : owner = owner' := by
        by_contra hx
        refine hne ?_
        rw [hd.entries, entriesOf, if_neg hx, List.append_nil]
      subst howner
      exact ⟨s, htakes, hd, hover⟩

/-- What is reported of a function whose selector an entry of the list has for another one. -/
def Compilation.collision (c : Compilation) (func : FuncId) (owner : ClassId) (e : MethodEntry) :
    BindError :=
  .selectorCollision (c.session.selectors.text e.selector) (c.program.className owner)
    e.isClassMethod (c.program.funcAt func).span (c.program.funcAt e.func).span

theorem Compilation.Enlists.collision_eq {added : ClassId → List MethodEntry}
    (h : c.Enlists added d) (hclasses : d.program.classes = c.program.classes) (e : MethodEntry) :
    d.collision func owner e = c.collision func owner e := by
  have hclassAt : d.program.classAt owner = c.program.classAt owner := by
    rw [classAt, hclasses, classAt]
  have hname : d.program.className owner = c.program.className owner := by
    rw [className, hclassAt, Program.name, h.names, className, Program.name]
  have hspan (f : FuncId) : (d.program.funcAt f).span = (c.program.funcAt f).span := by
    have hsource := congrArg FuncDecl.span (h.source f)
    exact hsource
  rw [collision, h.selectors, hname, hspan, hspan, collision]

/-- A member that passes the checks, but whose selector is taken in the list, is rejected. -/
theorem recordMember_collides (h : c.TablesFit) {e : MethodEntry}
    (he : e ∈ c.program.entries owner) (hs : (c.program.funcAt func).selector = some e.selector)
    (hne : e.func ≠ func) (hv : (c.program.funcAt func).invalid = false)
    (hcheck : Outcome (validateSelector func) c (fun _ _ => True) fun _ _ => False)
    (hlink : Outcome (checkLinkage func) c (fun _ _ => True) fun _ _ => False) :
    Outcome (recordMember func owner e.selector e.isClassMethod) c (fun _ _ => False)
      fun err d => err = c.collision func owner e ∧ (d.program.funcAt func).invalid = true ∧
        c.Unlisted d := by
  obtain ⟨i, hi, -⟩ := h.owned.list owner e he
  refine outcome_bind.2 (outcome_mono (outcome_and (validateSelector_unlisted hs hv) hcheck) ?_
    fun _ _ h => h.2.elim)
  rintro _ c ⟨⟨rfl, -⟩, -⟩
  refine outcome_bind.2 (outcome_mono (outcome_and (checkLinkage_unlisted hs hv) hlink) ?_
    fun _ _ h => h.2.elim)
  rintro _ mid ⟨⟨-, hmid, hclasses, -⟩, -⟩
  refine outcome_bind.2 (outcome_program.2 ?_)
  have hclassAt : mid.program.classAt owner = c.program.classAt owner := by
    rw [classAt, hclasses, classAt]
  rw [hclassAt, hi, Option.bind_some, findMethod_eq_some_of_mem h hi he]
  simp only [hne, if_false]
  exact outcome_bind.2 (outcome_selectors.2 (reject_unlisted (hmid.selector func ▸ hs)
    fun d hd hinvalid => ⟨hmid.collision_eq hclasses e, hinvalid, hmid.unlisted_trans hd⟩))

/-- A member that may be listed and passes the checks, but whose selector is taken in the list of
its class, is rejected. -/
theorem recordMethod_collides (h : c.TablesFit) (hf : c.session.strategy = .functional)
    {e : MethodEntry} (he : e ∈ c.program.entries owner)
    (hs : (c.program.funcAt func).selector = some e.selector)
    (hside : e.isClassMethod = (c.program.funcAt func).isStatic) (hne : e.func ≠ func)
    (hv : (c.program.funcAt func).invalid = false)
    (hp : (c.program.funcAt func).parent = some owner)
    (ho : (c.program.classAt owner).invalid = false)
    (hl : c.program.listOwner? cls = some owner) {checked linked : Compilation}
    (hchecked : Session.validateSelector func c = .ok () checked)
    (hlinked : Session.checkLinkage func c = .ok () linked) :
    ∃ d, Session.recordMethod func cls c = .error (c.collision func owner e) d ∧
      (d.program.funcAt func).invalid = true ∧ c.Unlisted d := by
  have ha : c.session.aborted = false := by
    rw [← Bool.not_eq_true]
    intro ha
    cases hchecked.symm.trans (guarded_of_aborted ha)
  have hcheck : Outcome (validateSelector func) c (fun _ _ => True) fun _ _ => False :=
    (outcome_guarded () ha hf).1 ((outcome_of_ok hchecked).2 trivial)
  have hlink : Outcome (checkLinkage func) c (fun _ _ => True) fun _ _ => False :=
    (outcome_guarded () ha hf).1 ((outcome_of_ok hlinked).2 trivial)
  have hmember := recordMember_collides h he hs hne hv hcheck hlink
  obtain ⟨i, hi, -⟩ := h.owned.list owner e he
  have hrecord : Outcome (Session.recordMethod func cls) c (fun _ _ => False) fun err d =>
      err = c.collision func owner e ∧ (d.program.funcAt func).invalid = true ∧ c.Unlisted d := by
    refine (outcome_guarded () ha hf).2 (outcome_bind.2 (outcome_program.2 (outcome_bind.2
      (outcome_bind.2 (outcome_program.2 ?_)))))
    simp only [hs, hl, hv, ho, hp, ← hside, ClassDecl.isBound, hi, Option.isSome_some,
      Bool.not_true, Bool.or_self, Bool.false_eq_true, if_false, ne_eq, not_true_eq_false]
    exact outcome_mono hmember (fun _ _ => False.elim) fun _ _ h => h
  cases hrun : Session.recordMethod func cls c with
  | ok _ d => exact ((outcome_of_ok hrun).1 hrecord).elim
  | error err d =>
    obtain ⟨rfl, hd⟩ := (outcome_of_error hrun).1 hrecord
    exact ⟨d, rfl, hd⟩

/-! ## Answers -/

/-- A function that no other one keeps from its selector gets the nearest class above as the answer
for its class, or else the class itself. -/
theorem answer_of_isNearest (h : c.Regular) (hf : c.session.strategy = .functional)
    (ho : c.program.HasRole cls .ordinary)
    (hs : (c.program.funcAt func).selector = some s)
    (hparent : (c.program.funcAt func).parent = some cls)
    (hown : ∀ e ∈ c.program.entries cls, e.selector = s →
      e.isClassMethod = (c.program.funcAt func).isStatic → e.func = func)
    {nearest : Option ClassId}
    (hnearest : c.program.IsNearest cls s (c.program.funcAt func).isStatic nearest) :
    c.nearestDeclaring func cls = some (nearest.getD cls) := by
  rw [Compilation.nearestDeclaring, Compilation.asked, hf]
  simp only [nearestDeclaring_eq h ho hs hown]
  rw [(isNearest_declaredAbove? h ho hparent s _).unique hnearest]

/-- A function that is listed on its own side goes on to get that answer while the lists above its
class stay as they are. -/
theorem Run.answer_stays {past : List Compilation} {entry : MethodEntry} {nearest : Option ClassId}
    (h : Run (fun _ event => event.Unbound) past d) (hc : c.Regular) (hext : c.Extends d)
    (ho : c.program.HasRole owner .ordinary) (hentry : entry ∈ d.program.entries owner)
    (hside : (d.program.funcAt entry.func).isStatic = entry.isClassMethod)
    (hnearest : c.program.IsNearest owner entry.selector entry.isClassMethod nearest)
    (hlists : ∀ above, c.program.Ancestor owner above →
      d.program.entries above = c.program.entries above) :
    d.nearestDeclaring entry.func owner = some (nearest.getD owner) := by
  have hregular : d.Regular := .of_run (fun _ _ hU => hU) h
  obtain ⟨hf, -⟩ := h.functional fun _ _ hU => hU
  have hfit := hregular.tables.fits owner entry hentry
  refine answer_of_isNearest hregular hf (hext.program.hasRole ho) hfit.selector hfit.parent ?_ ?_
  · intro e he hs hside'
    rw [entry_unique hregular.tables he hentry hs (hside'.trans hside)]
  · rw [hside]
    exact hnearest.of_extends hext.program hc.layered ho hlists

/-- A function that joins the list of its class gets the nearest class above as the answer, before
and after, and as long as no list above gets an entry. -/
theorem Run.joined_answers {past : List Compilation}
    (h : Run (fun _ event => event.Unbound) past c)
    (h' : Run (fun _ event => event.Unbound) (c :: past) d)
    (htakes : c.Takes func cls (c.program.funcAt func).isStatic owner s)
    (hd : c.Enlists (entriesOf owner [⟨s, func, (c.program.funcAt func).isStatic⟩]) d) :
    let nearest := c.program.declaredAbove? s (c.program.funcAt func).isStatic owner func
    c.program.IsNearest owner s (c.program.funcAt func).isStatic nearest ∧
      c.nearestDeclaring func owner = some (nearest.getD owner) ∧
      ∀ later e, Run (fun _ event => event.Unbound) later e → d ∈ e :: later →
        (∀ above, d.program.Ancestor owner above →
          e.program.entries above = d.program.entries above) →
        e.nearestDeclaring func owner = some (nearest.getD owner) := by
  intro nearest
  have hregular : c.Regular := .of_run (fun _ _ hU => hU) h
  have hregular' : d.Regular := .of_run (fun _ _ hU => hU) h'
  obtain ⟨hf, -⟩ := h.functional fun _ _ hU => hU
  have hcd : c.Extends d :=
    h'.extends_past (fun _ _ hU => hU) (List.mem_cons_of_mem _ List.mem_cons_self)
  have ho := hregular.tables.owned.listOwner htakes.listOwner
  have hnearest : c.program.IsNearest owner s (c.program.funcAt func).isStatic nearest :=
    isNearest_declaredAbove? hregular ho htakes.fits.parent s _
  have hentry : ⟨s, func, (c.program.funcAt func).isStatic⟩ ∈ d.program.entries owner := by
    rw [hd.entries, entriesOf, if_pos rfl]
    exact List.mem_append_right _ List.mem_cons_self
  refine ⟨hnearest, ?_, fun later e hlater hmem hlists => ?_⟩
  · refine answer_of_isNearest hregular hf ho htakes.fits.selector htakes.fits.parent ?_ hnearest
    exact fun e he hs hside => absurd ⟨hs, hside⟩ (htakes.new e he)
  · have hde := hlater.extends_past (fun _ _ hU => hU) hmem
    have hce := hcd.trans hde
    refine hlater.answer_stays hregular hce ho
      (hde.program.mem_entries hregular'.tables.owned hentry)
      (hce.program.isStatic (containsFunc_of_selector htakes.fits.selector)) hnearest
      fun above ha => ?_
    -- the function has joined the list of its own class, which is not above itself
    rw [hlists above (ha.of_extends hcd.program hregular.layered ho).1, hd.entries, entriesOf,
      if_neg (ha.ne hregular.layered ho), List.append_nil]

/-- In any run: when recording a function adds an entry to a list, then one entry for it, to the
list of its class; the function has noted the nearest class above with an entry for its selector,
if there is one; and which class has its selector is answered by that class, or else by its own,
before and after, and as long as no list above gets an entry. If its class has an entry for the
selector already that is another function's, then the answer is the class, and a valid member that
passes the checks cannot be recorded: it is rejected because of the other function. -/
theorem nearestDeclaring_agrees {past : List Compilation}
    (h : Run (fun _ event => event.Unbound) past c) (func : FuncId) (cls : ClassId) :
    let isStatic := (c.program.funcAt func).isStatic
    let d := finish (Session.recordMethod func cls) c
    (∀ p, d.program.entries p ≠ c.program.entries p →
      ∃ s nearest, (c.program.funcAt func).parent = some p ∧
        (c.program.funcAt func).selector = some s ∧
        d.program.entries p = c.program.entries p ++ [⟨s, func, isStatic⟩] ∧
        c.program.IsNearest p s isStatic nearest ∧ d.program.overrides? func = nearest ∧
        c.nearestDeclaring func p = some (nearest.getD p) ∧
        d.nearestDeclaring func p = some (nearest.getD p) ∧
        ∀ later e, Run (fun _ event => event.Unbound) later e → d ∈ e :: later →
          (∀ above, d.program.Ancestor p above →
            e.program.entries above = d.program.entries above) →
          e.nearestDeclaring func p = some (nearest.getD p)) ∧
    ∀ p, ∀ other ∈ c.program.entries p,
      (c.program.funcAt func).selector = some other.selector → other.isClassMethod = isStatic →
      other.func ≠ func →
        c.nearestDeclaring func p = some p ∧
        ((c.program.funcAt func).invalid = false → (c.program.funcAt func).parent = some p →
          (c.program.classAt p).invalid = false → c.program.listOwner? cls = some p →
          (∃ checked, Session.validateSelector func c = .ok () checked) →
          (∃ linked, Session.checkLinkage func c = .ok () linked) →
          ∃ d, Session.recordMethod func cls c =
              .error (.selectorCollision (c.session.selectors.text other.selector)
                (c.program.className p) isStatic (c.program.funcAt func).span
                (c.program.funcAt other.func).span) d ∧
            (d.program.funcAt func).invalid = true ∧
            ∀ x, d.program.entries x = c.program.entries x) := by
  intro isStatic d
  have hregular : c.Regular := .of_run (fun _ _ hU => hU) h
  obtain ⟨hf, -⟩ := h.functional fun _ _ hU => hU
  constructor
  · intro p hne
    obtain ⟨s, htakes, hd, hover⟩ := joined_of_entries_ne hf hne
    have h' := h.step (e := .run (.recordMethod func cls)) trivial
    rw [finish_recordMethod_event] at h'
    obtain ⟨hnearest, hbefore, hafter⟩ := h.joined_answers h' htakes hd
    refine ⟨s, _, htakes.fits.parent, htakes.fits.selector, ?_, hnearest, hover, hbefore, ?_,
      hafter⟩
    · rw [hd.entries, entriesOf, if_pos rfl]
    · exact hafter (c :: past) d h' List.mem_cons_self fun _ _ => rfl
  · intro p other hother hs hside hne
    refine ⟨?_, fun hv hp ho hl hchecks hlinks => ?_⟩
    · rw [Compilation.nearestDeclaring, Compilation.asked, hf]
      exact congrArg some (nearestDeclaring_of_mem hregular.tables hother hs hside hne)
    · obtain ⟨checked, hchecked⟩ := hchecks
      obtain ⟨linked, hlinked⟩ := hlinks
      obtain ⟨d, hd, hinvalid, hunlisted⟩ := recordMethod_collides hregular.tables hf hother hs
        hside hne hv hp ho hl hchecked hlinked
      rw [Compilation.collision, hside] at hd
      refine ⟨d, hd, hinvalid, fun x => ?_⟩
      rw [hunlisted.entries, List.append_nil]

/-- `Circle` is derived from `Shape`, which is bound with a method `draw`. `Circle` has two methods
of that name, which have got their selector. -/
def secondDrawEvents : List Event :=
  let draw (line : Nat) : FuncDecl :=
    { name := ⟨7⟩, params := [], span := .point 0 line 1, linkage := .objc }
  [.grow (.addScope none), .grow (.intern "Shape"), .grow (.intern "Circle"),
    .grow (.intern "draw"),
    .grow (.addClass { name := ⟨5⟩, kind := .concrete, span := .point 0 1 1 }),
    .grow (.addClass { name := ⟨6⟩, kind := .concrete, span := .point 0 3 1, base := some ⟨0⟩ }),
    .grow (.addMethod ⟨0⟩ (draw 2)), .grow (.addMethod ⟨1⟩ (draw 4)),
    .grow (.addMethod ⟨1⟩ (draw 5)),
    .run (.bindClass ⟨0⟩ ⟨0⟩), .run (.markClass ⟨1⟩),
    .run (.assignSelector ⟨1⟩ ⟨0⟩), .run (.assignSelector ⟨2⟩ ⟨0⟩)]

theorem nearestDeclaring_agrees_secondDraw :
    let c := (Event.play [] (.new .functional false) secondDrawEvents).2
    let d := finish (Session.recordMethod ⟨1⟩ ⟨1⟩) c
    (d.program.overrides? ⟨1⟩ = some ⟨0⟩ ∧ c.nearestDeclaring ⟨1⟩ ⟨1⟩ = some ⟨0⟩ ∧
      d.nearestDeclaring ⟨1⟩ ⟨1⟩ = some ⟨0⟩) ∧
    d.nearestDeclaring ⟨2⟩ ⟨1⟩ = some ⟨1⟩ ∧
      ∃ e, Session.recordMethod ⟨2⟩ ⟨1⟩ d =
        .error (.selectorCollision "draw" "Circle" false (.point 0 5 1) (.point 0 4 1)) e := by
  intro c d
  have hrun : Run (fun _ event => event.Unbound)
      (Event.play [] (.new .functional false) secondDrawEvents).1 c :=
    (Run.start false).play (by decide +kernel)
  constructor
  · have hover : d.program.overrides? ⟨1⟩ = some ⟨0⟩ := by decide +kernel
    obtain ⟨s, nearest, -, -, -, -, hnearest, hbefore, hafter, -⟩ :=
      (nearestDeclaring_agrees hrun ⟨1⟩ ⟨1⟩).1 ⟨1⟩ (by decide +kernel)
    obtain rfl := hover.symm.trans hnearest
    exact ⟨hover, hbefore, hafter⟩
  · have hrun' := hrun.step (e := .run (.recordMethod ⟨1⟩ ⟨1⟩)) trivial
    rw [finish_recordMethod_event] at hrun'
    obtain ⟨hanswer, hrejected⟩ := (nearestDeclaring_agrees hrun' ⟨2⟩ ⟨1⟩).2 ⟨1⟩ ⟨⟨0⟩, ⟨1⟩, false⟩
      (by decide +kernel) (by decide +kernel) (by decide +kernel) (by decide +kernel)
    have hpasses (x : Resolve Unit) (h : Outcome x d (fun _ _ => True) fun _ _ => False) :
        ∃ e, x d = .ok () e := by
      cases hx : x d with
      | ok _ e => exact ⟨e, rfl⟩
      | error _ _ => exact ((outcome_of_error hx).1 h).elim
    obtain ⟨e, he, -⟩ := hrejected (by decide +kernel) (by decide +kernel) (by decide +kernel)
      (by decide +kernel) (hpasses _ (by decide +kernel)) (hpasses _ (by decide +kernel))
    refine ⟨hanswer, e, he.trans (congrArg (EStateM.Result.error · e) ?_)⟩
    decide +kernel

end ObjcBinding
