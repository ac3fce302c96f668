import ObjcBinding.Proofs.Run
import ObjcBinding.Proofs.SelectorGrammar
import ObjcBinding.Proofs.Steps.Members

/-!
# Derived selectors and the check of their arguments

A selector that is derived from a signature has an argument for each explicit parameter, so that
the check of a function's selector has nothing to say about its arguments, whatever is added to
the function or to the compilation meanwhile. The names and labels are supposed to have no colon.

* `Selector.arity_derivedText`: which derived texts are selectors, and of how many arguments;
* `Compilation.Suits`: a handle that stands for as many arguments as the function has parameters;
* `derivedSelector_agrees`: derivation and check agree, at the time and at any later time.
-/

namespace ObjcBinding

namespace Selector

/-! ## Derived texts -/

/-- Neither the name nor a label has a colon. -/
structure ColonFree (name : String) (labels : List (Option String)) : Prop where
  name : ':' ∉ name.toList
  labels : ∀ label ∈ labels, ':' ∉ (label.getD "").toList

/-- The text of a setter without its colon. -/
def setterWord (property : String) : List Char :=
  's' :: 'e' :: 't' :: match property.toList with
    | [] => []
    | c :: cs => Text.upperCase c ++ cs

/-- The words of the derived text: the name and the labels of the later parameters. A setter has
one word. -/
def derivedWords (name : String) (labels : List (Option String)) (isProperty : Bool) :
    List (List Char) :=
  if isProperty && labels.length == 1 then [setterWord name]
  else name.toList :: labels.tail.map fun label => (label.getD "").toList

variable {name : String} {labels : List (Option String)} {isProperty : Bool}

theorem toList_setterText (property : String) :
    (setterText property).toList = setterWord property ++ [':'] := by
  simp only [setterText, String.toList_append, String.toList_ofList]
  rfl

theorem colon_notMem_setterWord (h : ':' ∉ name.toList) : ':' ∉ setterWord name := by
  unfold setterWord
  cases hn : name.toList with
  | nil => decide
  | cons c cs =>
    rw [hn, List.mem_cons, not_or] at h
    simp [Text.upperCase_ne_colon (Ne.symm h.1), h.2]

theorem colon_notMem_derivedWords (h : ColonFree name labels) :
    ∀ w ∈ derivedWords name labels isProperty, ':' ∉ w := by
  unfold derivedWords
  split
  · exact List.forall_mem_singleton.2 (colon_notMem_setterWord h.name)
  · refine List.forall_mem_cons.2 ⟨h.name, fun w hw => ?_⟩
    obtain ⟨label, hlabel, rfl⟩ := List.mem_map.1 hw
    exact h.labels label (List.mem_of_mem_tail hlabel)

/-- A derived text without parameters is the name; any other one consists of the words, each with
a colon after it. -/
theorem toList_derivedText (name : String) (labels : List (Option String)) (isProperty : Bool) :
    (derivedText name labels isProperty).toList =
      if labels = [] then name.toList else keywords (derivedWords name labels isProperty) := by
  cases labels with
  | nil => rw [derivedText_nil, if_pos rfl]
  | cons first rest =>
    rw [if_neg (List.cons_ne_nil _ _)]
    unfold derivedText derivedWords
    split
    · rw [toList_setterText, keywords, List.flatMap_singleton]
    · simp only [keywords, String.toList_append, String.toList_join, List.flatMap_cons,
        List.flatMap_map, List.tail_cons]
      rfl

theorem length_derivedWords (hne : labels ≠ []) :
    (derivedWords name labels isProperty).length = labels.length := by
  unfold derivedWords
  split
  · rename_i h
    rw [Bool.and_eq_true, beq_iff_eq] at h
    rw [h.2]
    rfl
  · rw [List.length_cons, List.length_map, List.length_tail]
    have := List.length_pos_iff.2 hne
    omega

theorem derivedWords_ne_nil : derivedWords name labels isProperty ≠ [] := by
  unfold derivedWords
  split
  · exact List.cons_ne_nil _ _
  · exact List.cons_ne_nil _ _

/-- A derived text is a selector exactly if all its words are identifiers, and then it has one
argument for each parameter. -/
theorem arity_derivedText (h : ColonFree name labels) {n : Nat} :
    arity (derivedText name labels isProperty) = .ok n ↔
      n = labels.length ∧ ∀ w ∈ derivedWords name labels isProperty, IsWord w := by
  have htext := toList_derivedText name labels isProperty
  simp only [← isIdentifier_iff]
  by_cases hne : labels = []
  · subst hne
    rw [derivedText_nil, arity_of_colon_notMem h.name]
    simp [derivedWords]
  · rw [if_neg hne] at htext
    rw [arity_of_words derivedWords_ne_nil (colon_notMem_derivedWords h) htext,
      length_derivedWords hne]

/-- The characters of a text without the colon that it may end with. -/
def uncolon (text : String) : List Char :=
  if text.toList.getLast? = some ':' then text.toList.dropLast else text.toList

/-- Split at its colons, a derived text gives back its words. -/
theorem pieces_derivedText (h : ColonFree name labels) :
    Text.pieces ':' (uncolon (derivedText name labels isProperty)) =
      derivedWords name labels isProperty := by
  have htext := toList_derivedText name labels isProperty
  unfold uncolon
  by_cases hne : labels = []
  · subst hne
    have hlast : name.toList.getLast? ≠ some ':' := fun e => h.name (List.mem_of_getLast? e)
    rw [htext, if_pos rfl, if_neg hlast, Text.pieces_of_notMem h.name]
    simp [derivedWords]
  · rw [if_neg hne] at htext
    rw [htext, if_pos (getLast?_keywords derivedWords_ne_nil)]
    exact Text.pieces_dropLast_flatMap derivedWords_ne_nil (colon_notMem_derivedWords h)

/-- Unless the function is a setter, its words are identifiers exactly if its name is one and each
later parameter has a label that is one. -/
theorem derivedWords_isWord_iff (hset : ¬(isProperty = true ∧ labels.length = 1)) :
    (∀ w ∈ derivedWords name labels isProperty, IsWord w) ↔
      IsWord name.toList ∧
        ∀ label? ∈ labels.tail, ∃ label, label? = some label ∧ IsWord label.toList := by
  rw [derivedWords, if_neg (by simpa using hset), List.forall_mem_cons]
  refine and_congr_right fun _ => ?_
  rw [List.forall_mem_map]
  refine forall₂_congr fun label? _ => ?_
  cases label? with
  | none => exact ⟨nofun, nofun⟩
  | some label => simp

theorem derivedWords_eq (hset : ¬(isProperty = true ∧ labels.length = 1))
    (h : ∀ w ∈ derivedWords name labels isProperty, IsWord w) :
    ∃ texts : List String, labels.tail = texts.map some ∧
      derivedWords name labels isProperty = (name :: texts).map String.toList := by
  obtain ⟨-, hlabels⟩ := (derivedWords_isWord_iff hset).1 h
  refine ⟨labels.tail.map (·.getD ""), ?_, ?_⟩
  · rw [List.map_map]
    refine (List.map_id' _).symm.trans (List.map_congr_left fun label? hl => ?_)
    obtain ⟨label, rfl, -⟩ := hlabels label? hl
    rfl
  · rw [derivedWords, if_neg (by simpa using hset), List.map_cons, List.map_map]
    rfl

end Selector

/-! ## Functions -/

/-- The labels of the explicit parameters of a function. -/
def Program.labels (p : Program) (func : FuncId) : List (Option String) :=
  (p.funcAt func).explicitParams.map fun q => q.label.map p.name

/-- The handle stands for as many arguments as the function has explicit parameters. -/
def Compilation.Suits (c : Compilation) (func : FuncId) (s : Selector) : Prop :=
  ∃ text, c.session.selectors.get? s = some ⟨text, (c.program.funcAt func).explicitCount⟩

/-- The check of the function's selector does not find a wrong number of parameters. -/
def Compilation.CountsRight (c : Compilation) (func : FuncId) : Prop :=
  ∀ text expected found span d,
    Session.validateSelector func c ≠ .error (.arityMismatch text expected found span) d

/-- The check does not find one either after the function was given its hidden parameter. -/
def Compilation.KeepsRight (c : Compilation) (func : FuncId) : Prop :=
  c.CountsRight func ∧
    ∀ scope param d, Session.addSelectorParam func scope c = .ok param d → d.CountsRight func

open Program Resolve Selector

variable {c d : Compilation} {func : FuncId} {s : Selector}

theorem Program.length_labels (p : Program) (func : FuncId) :
    (p.labels func).length = (p.funcAt func).explicitCount := List.length_map _

namespace Compilation

theorem Suits.arity (h : c.Suits func s) :
    c.session.selectors.arity s = (c.program.funcAt func).explicitCount := by
  obtain ⟨text, hs⟩ := h
  exact Table.arity_of_get? hs

theorem Suits.of_source (h : c.Suits func s)
    (hsource : (d.program.funcAt func).source = (c.program.funcAt func).source)
    (ht : ∀ e, c.session.selectors.get? s = some e → d.session.selectors.get? s = some e) :
    d.Suits func s := by
  obtain ⟨text, hs⟩ := h
  have hcount := congrArg FuncDecl.explicitCount hsource
  rw [FuncDecl.explicitCount_source, FuncDecl.explicitCount_source] at hcount
  exact ⟨text, hcount ▸ ht _ hs⟩

/-- What suits goes on to suit. -/
theorem Suits.extends (h : c.Suits func s) (hc : c.program.funcs.contains func = true)
    (hd : c.Extends d) : d.Suits func s :=
  h.of_source (hd.program.funcSource func hc) (hd.selectors s)

theorem Suits.countsRight (h : c.Suits func s) (hs : (c.program.funcAt func).selector = some s) :
    c.CountsRight func := by
  have hcheck : Outcome (Session.validateSelector func) c (fun _ _ => True)
      fun err _ => ∀ text expected found span, err ≠ .arityMismatch text expected found span := by
    refine outcome_guarded_of ?_ trivial nofun
    refine outcome_bind.2 (outcome_program.2 (outcome_bind.2 (outcome_selectors.2 ?_)))
    simp only [hs, h.arity, ne_eq, not_true_eq_false, if_false]
    split
    · trivial
    · split
      · exact outcome_reject.2 nofun
      · split
        · exact outcome_reject.2 nofun
        · trivial
  intro text expected found span d herr
  exact (outcome_of_error herr).1 hcheck text expected found span rfl

end Compilation

namespace Resolve

/-- The selector that is derived stands for the derived text. -/
theorem deriveSelector_outcome (func : FuncId) (c : Compilation) :
    Outcome (deriveSelector func) c
      (fun s d => d.program = c.program ∧
        d.session.selectors.Spells s (c.program.derivedSelector func))
      fun _ _ => ∀ n, Selector.arity (c.program.derivedSelector func) ≠ .ok n := by
  refine outcome_bind.2 (outcome_program.2 ?_)
  exact outcome_mono (lookupSelector_attends func default _ _ c) (fun _ _ h => h.2)
    fun _ _ h => h.2

theorem deriveSelector_suits (hfree : ColonFree (c.program.funcName func) (c.program.labels func)) :
    Outcome (deriveSelector func) c (fun s d => d.program = c.program ∧ d.Suits func s)
      fun _ _ => True := by
  refine outcome_mono (deriveSelector_outcome func c) ?_ fun _ _ _ => trivial
  rintro s d ⟨hp, n, hn, hs⟩
  obtain ⟨rfl, -⟩ := (arity_derivedText hfree).1 hn
  rw [length_labels, ← hp] at hs
  exact ⟨hp, _, hs⟩

/-- A function without attribute and selector is given the derived one, if any. -/
theorem assignSelector_suits (scope : ScopeId)
    (hfree : ColonFree (c.program.funcName func) (c.program.labels func))
    (hc : c.program.funcs.contains func = true) (hattrs : (c.program.funcAt func).attrs = [])
    (hnew : (c.program.funcAt func).selector = none) :
    Outcome (assignSelector func scope) c
      (fun r d => ∀ s, r = some s →
        (d.program.funcAt func).selector = some s ∧ d.Suits func s)
      fun _ _ => True := by
  refine outcome_bind.2 (outcome_program.2 ?_)
  simp only [hnew]
  split
  · exact nofun
  · have hchoose : Outcome (chooseSelector func scope) c
        (fun r d => d.program = c.program ∧ ∀ s, r = some s → d.Suits func s)
        fun _ _ => True := by
      refine outcome_bind.2 (outcome_program.2 ?_)
      simp only [hattrs]
      split
      · refine outcome_map.2 (outcome_tryCatch.2
          (outcome_mono (deriveSelector_suits hfree) ?_ fun _ _ _ => outcome_reject.2 trivial))
        rintro s d ⟨hp, hs⟩
        exact ⟨hp, fun _ h => Option.some.inj h ▸ hs⟩
      · exact ⟨rfl, nofun⟩
    refine outcome_bind.2 (outcome_mono hchoose ?_ fun _ _ h => h)
    rintro r ⟨program, session, log⟩ ⟨hp, hr⟩
    obtain rfl : program = c.program := hp
    split
    · exact nofun
    · rename_i s
      refine outcome_bind.2 (outcome_updateProgram.2 (outcome_bind.2 (outcome_selectors.2
        (outcome_bind.2 (outcome_say.2 ?_)))))
      rintro _ ⟨⟩
      refine ⟨?_, (hr s rfl).of_source (read_modifyFunc FuncDecl.source (fun _ => ?_) func func)
        fun _ h => h⟩
      · change ((c.program.modifyFunc func _).funcAt func).selector = some s
        rw [funcAt_modifyFunc, if_pos ⟨rfl, hc⟩]
        rfl
      · rfl

/-- The hidden parameter changes neither the selector nor the number of explicit parameters. -/
theorem addSelectorParam_suits (scope : ScopeId) (h : c.Suits func s) :
    Outcome (addSelectorParam func scope) c
      (fun _ d => (d.program.funcAt func).info = (c.program.funcAt func).info ∧ d.Suits func s)
      fun _ _ => False := by
  have hplaced {d : Compilation} (hd : Furnishes func scope c d) :
      (d.program.funcAt func).info = (c.program.funcAt func).info ∧ d.Suits func s :=
    ⟨hd.info, h.of_source (hd.attends.sources func) (hd.attends.selectors s)⟩
  refine outcome_bind.2 (outcome_program.2 ?_)
  dsimp only
  split
  · exact ⟨rfl, h⟩
  · refine outcome_bind.2 (outcome_modifyGetProgram.2 (outcome_bind.2 ?_))
    rw [intern_of_reserved (by decide)]
    refine outcome_mono (placeSelectorParam_furnishes ⟨.refl func scope c, rfl, rfl, rfl⟩)
      ?_ fun _ _ => False.elim
    rintro index d hd
    obtain ⟨hinfo, hsuits⟩ := hplaced hd
    refine outcome_bind.2 (outcome_program.2 ?_)
    split
    · rename_i q hq
      obtain ⟨scopes, rfl⟩ := scopes_of_declare hq
      exact ⟨hinfo, hsuits⟩
    · split
      · exact ⟨hinfo, hsuits⟩
      · exact ⟨hinfo, hsuits⟩

end Resolve

theorem Compilation.Suits.keepsRight (h : c.Suits func s)
    (hs : (c.program.funcAt func).selector = some s) : c.KeepsRight func := by
  refine ⟨h.countsRight hs, fun scope param d hd => ?_⟩
  have hadd : Outcome (Session.addSelectorParam func scope) c
      (fun _ d => (d.program.funcAt func).info = (c.program.funcAt func).info ∧ d.Suits func s)
      fun _ _ => True :=
    outcome_guarded_of (outcome_mono (addSelectorParam_suits scope h) (fun _ _ h => h)
      fun _ _ _ => trivial) ⟨rfl, h⟩ trivial
  obtain ⟨hinfo, hd⟩ := (outcome_of_ok hd).1 hadd
  refine hd.countsRight ?_
  rw [FuncDecl.selector, hinfo]
  exact hs

/-- The selector that is derived for a function without colons in its name and labels has an
argument for each explicit parameter; wherever it is kept, with the function, as the function's
selector, no wrong number of arguments is found, with or without the hidden parameter, and
so it is throughout a run once the session has given the function that selector. Setters apart,
there is such a selector exactly if the name and all labels of later parameters are identifiers,
and its words are then the name and these labels. -/
theorem derivedSelector_agrees (hc : c.program.funcs.contains func = true)
    (hfree : ColonFree (c.program.funcName func) (c.program.labels func)) :
    let f := c.program.funcAt func
    (∀ s d, deriveSelector func c = .ok s d →
      d.session.selectors.arity s = f.explicitCount ∧
        ∀ e, d.Extends e → (e.program.funcAt func).selector = some s → e.KeepsRight func) ∧
    (f.attrs = [] → f.selector = none → ∀ scope s d,
      Session.assignSelector func scope c = .ok (some s) d →
        ∀ past e, Run (fun _ event => event.Unbound) past e → d ∈ e :: past → e.KeepsRight func) ∧
    (¬(f.isProperty = true ∧ f.explicitCount = 1) →
      ((∃ s d, deriveSelector func c = .ok s d) ↔
        IsWord (c.program.funcName func).toList ∧
          ∀ label? ∈ (c.program.labels func).tail,
            ∃ label, label? = some label ∧ IsWord label.toList) ∧
      ∀ s d, deriveSelector func c = .ok s d →
        ∃ labels : List String, (c.program.labels func).tail = labels.map some ∧
          Text.pieces ':' (uncolon (d.session.selectors.text s)) =
            (c.program.funcName func :: labels).map String.toList) := by
  intro f
  refine ⟨fun s d hd => ?_, fun hattrs hnew scope s d hd past e he hmem => ?_, fun hset => ⟨?_, ?_⟩⟩
  · obtain ⟨hp, hs⟩ := (outcome_of_ok hd).1 (deriveSelector_suits hfree)
    refine ⟨?_, fun e he hsel => (hs.extends ?_ he).keepsRight hsel⟩
    · rw [hs.arity, hp]
    · rw [hp]
      exact hc
  · have hassign : Outcome (Session.assignSelector func scope) c
        (fun r d => ∀ s, r = some s → (d.program.funcAt func).selector = some s ∧ d.Suits func s)
        fun _ _ => True :=
      outcome_guarded_of (assignSelector_suits scope hfree hc hattrs hnew) nofun trivial
    obtain ⟨hsel, hs⟩ := (outcome_of_ok hd).1 hassign s rfl
    have hext : d.Extends e := he.extends_past (fun _ _ h => h) hmem
    exact (hs.extends (containsFunc_of_selector hsel) hext).keepsRight
      (hext.program.selector_eq hsel)
  · rw [← derivedWords_isWord_iff (length_labels .. ▸ hset)]
    constructor
    · rintro ⟨s, d, hd⟩
      obtain ⟨-, n, hn, -⟩ := (outcome_of_ok hd).1 (deriveSelector_outcome func c)
      exact ((arity_derivedText hfree).1 hn).2
    · intro hwords
      cases hd : deriveSelector func c with
      | ok s d => exact ⟨s, d, rfl⟩
      | error err d =>
        exact absurd ((arity_derivedText hfree).2 ⟨rfl, hwords⟩)
          ((outcome_of_error hd).1 (deriveSelector_outcome func c) _)
  · intro s d hd
    obtain ⟨-, n, hn, hs⟩ := (outcome_of_ok hd).1 (deriveSelector_outcome func c)
    obtain ⟨labels, hlabels, hwords⟩ := derivedWords_eq (length_labels .. ▸ hset)
      ((arity_derivedText hfree).1 hn).2
    refine ⟨labels, hlabels, ?_⟩
    rw [Table.text_of_get? hs, ← hwords]
    exact pieces_derivedText hfree

/-- `Foo` has a method `insert` with a parameter, an implicit one, and one with the label `at`. -/
def insertEvents : List Event :=
  let param (label : Option Symbol) (implicit : Bool) : Param :=
    { name := ⟨8⟩, label, type := .named ⟨5⟩, span := .point 0 2 1, implicit }
  [.grow (.addScope none), .grow (.intern "Foo"), .grow (.intern "insert"), .grow (.intern "at"),
    .grow (.intern "obj"),
    .grow (.addClass { name := ⟨5⟩, kind := .concrete, span := .point 0 1 1 }),
    .grow (.addMethod ⟨0⟩
      { name := ⟨6⟩, span := .point 0 2 1, linkage := .objc
        params := [param none false, param none true, param (some ⟨7⟩) false] }),
    .run (.markClass ⟨0⟩)]

theorem derivedSelector_agrees_insert :
    let c := (Event.play [] (.new .functional false) insertEvents).2
    (∃ s d, Session.assignSelector ⟨0⟩ ⟨0⟩ c = .ok (some s) d ∧ d.KeepsRight ⟨0⟩) ∧
    ∃ s d, deriveSelector ⟨0⟩ c = .ok s d ∧ d.session.selectors.arity s = 2 ∧
      Text.pieces ':' (uncolon (d.session.selectors.text s)) = ["insert".toList, "at".toList] := by
  intro c
  have hrun : Run (fun _ event => event.Unbound)
      (Event.play [] (.new .functional false) insertEvents).1 c :=
    (Run.start false).play (by decide +kernel)
  have hc : c.program.funcs.contains ⟨0⟩ = true := by decide +kernel
  have hname : c.program.funcName ⟨0⟩ = "insert" := by decide +kernel
  have hlabels : c.program.labels ⟨0⟩ = [none, some "at"] := by decide +kernel
  obtain ⟨hattrs, hnew, hset⟩ : (c.program.funcAt ⟨0⟩).attrs = [] ∧
      (c.program.funcAt ⟨0⟩).selector = none ∧
        ¬((c.program.funcAt ⟨0⟩).isProperty = true ∧ (c.program.funcAt ⟨0⟩).explicitCount = 1) := by
    decide +kernel
  have hassign : Outcome (Session.assignSelector ⟨0⟩ ⟨0⟩) c (fun s _ => s.isSome = true)
      fun _ _ => False := by decide +kernel
  clear_value c
  have hfree : ColonFree (c.program.funcName ⟨0⟩) (c.program.labels ⟨0⟩) := by
    rw [hname, hlabels]
    exact ⟨by decide +kernel, by decide +kernel⟩
  obtain ⟨harity, hlater, hwords⟩ := derivedSelector_agrees hc hfree
  obtain ⟨hderive, hpieces⟩ := hwords hset
  rw [hname, hlabels] at hderive
  constructor
  · cases hd : Session.assignSelector ⟨0⟩ ⟨0⟩ c with
    | error => exact ((outcome_of_error hd).1 hassign).elim
    | ok answer d =>
      obtain ⟨s, rfl⟩ := Option.isSome_iff_exists.1 ((outcome_of_ok hd).1 hassign)
      have hstep : Resolve.finish (Operation.run (.assignSelector ⟨0⟩ ⟨0⟩)) c = d := by
        rw [finish, Operation.run, bind_apply, hd]
        rfl
      have hrun' := hrun.step (e := .run (.assignSelector ⟨0⟩ ⟨0⟩)) trivial
      rw [Event.apply, hstep] at hrun'
      exact ⟨s, d, rfl, hlater hattrs hnew ⟨0⟩ s d hd _ d hrun' List.mem_cons_self⟩
  · obtain ⟨s, d, hd⟩ := hderive.2
      ⟨by decide +kernel, List.forall_mem_singleton.2 ⟨"at", rfl, by decide +kernel⟩⟩
    refine ⟨s, d, hd, ?_, ?_⟩
    · rw [(harity s d hd).1, ← length_labels, hlabels]
      rfl
    · obtain ⟨labels, hl, hpieces⟩ := hpieces s d hd
      rw [hlabels] at hl
      have hat : ["at"] = labels := List.map_injective_iff.2 (fun _ _ => Option.some.inj) hl
      rw [hpieces, hname, ← hat]
      rfl

end ObjcBinding
