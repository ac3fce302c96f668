import ObjcBinding.Proofs.Courses

/-!
# Message sends

How calls to a function are made is recorded together with its selector, again when its linkage is
checked, and again when an error is charged to it. Whatever the order of these steps, and whichever
of them fail, the record agrees with the linkage of the function and with its validity. So the
functions that are called by messages can be told from their declarations, their selectors and
their classes alone.

* `Change.classified`: every change that records how calls are made leaves a record that agrees;
* `isMessageSend_iff`: which functions are called by messages.
-/

namespace ObjcBinding

open Program

variable {deed : Deed} {c d : Compilation} {func : FuncId}

/-! ## Records that agree -/

/-- If it is recorded how calls to the function are made, then it is as its linkage has it, or not
at all if the function is invalid. -/
def FuncDecl.Classified (d : FuncDecl) : Prop :=
  ∀ i, d.info = some i → i.dispatch = if d.invalid then .unsupported else d.linkage.dispatch

theorem FuncDecl.Classified.of_unbound {d : FuncDecl} (h : d.info = none) : d.Classified := by
  intro i hi
  cases h.symm.trans hi

/-- A function that gets a record by a change is valid, or is rejected by that very change. -/
theorem Change.classified (h : Change deed c d) (hc : (c.program.funcAt func).Classified) :
    (d.program.funcAt func).Classified := by
  have hcases := h.funcAt_cases func
  generalize d.program.funcAt func = f at hcases
  intro j hj
  cases hcases with
  | keep => exact hc j hj
  | addParam => exact hc j hj
  | assign _ hv =>
    cases hj
    exact (if_neg (Bool.eq_false_iff.1 hv)).symm
  | reject =>
    obtain ⟨i, -, rfl⟩ := Option.map_eq_some_iff.1 hj
    rfl
  | confirm hv =>
    obtain ⟨i, -, rfl⟩ := Option.map_eq_some_iff.1 hj
    exact (if_neg (Bool.eq_false_iff.1 hv)).symm
  | record =>
    obtain ⟨i, hi, rfl⟩ := Option.map_eq_some_iff.1 hj
    exact hc i hi

theorem Stir.classified (h : Stir c d) (hc : (c.program.funcAt func).Classified) :
    (d.program.funcAt func).Classified := by
  cases h with
  | change h => exact h.classified hc
  | spare h =>
    have hfuncs : d.program.funcs = c.program.funcs := h.1.1
    rwa [funcAt, hfuncs]

/-! ## Runs -/

/-- A function that is added is not bound yet. -/
def Growth.FuncUnbound : Growth → Prop
  | addFunction d | addMethod _ d | addGroupMember _ d => d.info = none
  | _ => True

instance : DecidablePred Growth.FuncUnbound
  | .addFunction d | .addMethod _ d | .addGroupMember _ d =>
    inferInstanceAs (Decidable (d.info = none))
  | .intern _ | .addScope _ | .declare .. | .addClass _ | .addGroup _ => .isTrue trivial

/-- No function that is added is bound yet; a class may be. -/
def Event.FuncUnbound : Event → Prop
  | grow g => g.FuncUnbound
  | run _ => True

instance : DecidablePred Event.FuncUnbound
  | .grow g => inferInstanceAs (Decidable g.FuncUnbound)
  | .run _ => .isTrue trivial

theorem Growth.FuncUnbound.added {g : Growth} (hg : g.FuncUnbound) {p : Program} {d : FuncDecl}
    (hd : g.func? p = some d) : d.info = none := by
  cases g with
  | addFunction | addMethod | addGroupMember =>
    cases hd
    exact hg
  | _ => cases hd

theorem Growth.classified {g : Growth} (hg : g.FuncUnbound) {p : Program}
    (hp : (p.funcAt func).Classified) : ((g.apply p).funcAt func).Classified := by
  rcases g.funcAt_cases p func with he | ⟨d, hd, -, he⟩
  · rwa [he]
  · rw [he]
    exact .of_unbound (hg.added hd)

theorem Run.classified {past : List Compilation} (h : Run (fun _ e => e.FuncUnbound) past c) :
    c.session.strategy = .functional ∧ ∀ func, (c.program.funcAt func).Classified := by
  refine h.courses (I := fun c => ∀ func, (c.program.funcAt func).Classified) ?_ ?_ ?_
  · intro renders func
    rw [funcAt_new]
    exact .of_unbound rfl
  · exact fun _ g he hc func => g.classified he (hc func)
  · exact fun _ _ hstir hc func => hstir.classified (hc func)

/-! ## Calls by messages -/

/-- The function has a selector, and calls to it are looked up in its class at run time. The
definition does not ask what is recorded of its calls. -/
structure Program.LooksUp (p : Program) (func : FuncId) : Prop where
  selector : (p.funcAt func).selector ≠ none
  linkage : (p.funcAt func).linkage = .objc
  member : ∃ cls, (p.funcAt func).parent = some cls ∧ (p.classAt cls).isBound = true
  isStatic : (p.funcAt func).isStatic = false
  isFinal : (p.funcAt func).isFinal = false
  visibility : (p.funcAt func).visibility ≠ .inClass
  invalid : (p.funcAt func).invalid = false

/-- Of a valid function with the linkage of Objective-C the record tells no more than that there is
a selector. -/
theorem FuncDecl.Classified.message_iff {d : FuncDecl} (h : d.Classified)
    (hl : d.linkage = .objc) (hv : d.invalid = false) :
    (∃ i, d.info = some i ∧ i.dispatch = .message) ↔ d.selector ≠ none := by
  rw [selector, ne_eq, Option.map_eq_none_iff, ← ne_eq, Option.ne_none_iff_exists']
  constructor
  · rintro ⟨i, hi, -⟩
    exact ⟨i, hi⟩
  · rintro ⟨i, hi⟩
    refine ⟨i, hi, ?_⟩
    rw [h i hi, if_neg (Bool.eq_false_iff.1 hv), hl]
    rfl

/-- In a functional session, whatever was done in whatever order and with whatever outcome, and
even if classes were annotated when they were added: a function is called by messages exactly if
it has a selector, the linkage of Objective-C and a class that is annotated, and is not static, not
final, not private and not invalid. What is recorded of its calls makes no difference, since it is
what the linkage calls for as long as the function is valid, and "unsupported" from then on. -/
theorem isMessageSend_iff {past : List Compilation}
    (h : Run (fun _ e => e.FuncUnbound) past c) (func : FuncId) :
    (c.isMessageSend func = true ↔ c.program.LooksUp func) ∧
      ∀ i, (c.program.funcAt func).info = some i →
        i.dispatch = if (c.program.funcAt func).invalid then .unsupported
          else (c.program.funcAt func).linkage.dispatch := by
  obtain ⟨hf, hclassified⟩ := h.classified
  refine ⟨?_, hclassified func⟩
  rw [Compilation.isMessageSend, Compilation.asked, hf]
  dsimp only
  rw [Program.isMessageSend, isBoundMember]
  simp only [Bool.and_eq_true, Bool.not_eq_true', decide_eq_true_eq, Option.any_eq_true]
  constructor
  · rintro ⟨⟨⟨⟨⟨⟨hv, hl⟩, hs⟩, hfinal⟩, hvis⟩, hmessage⟩, hmember⟩
    have hselector := ((hclassified func).message_iff hl hv).1 hmessage
    exact ⟨hselector, hl, hmember, hs, hfinal, hvis, hv⟩
  · rintro ⟨hselector, hl, hmember, hs, hfinal, hvis, hv⟩
    have hmessage := ((hclassified func).message_iff hl hv).2 hselector
    exact ⟨⟨⟨⟨⟨⟨hv, hl⟩, hs⟩, hfinal⟩, hvis⟩, hmessage⟩, hmember⟩

/-- `Foo` is annotated when it is added. Its methods get their selectors, the second one and the
third one from attributes; the second one is final, and the third one has the linkage of C. -/
def annotatedClassEvents : List Event :=
  let method (line : Nat) (linkage : Linkage) (isFinal : Bool) (attrs : List SelectorAttr) :
      FuncDecl :=
    { name := ⟨6⟩, params := [], span := .point 0 line 1, linkage, isFinal, attrs }
  [.grow (.addScope none), .grow (.intern "Foo"), .grow (.intern "draw"),
    .grow (.addClass
      { name := ⟨5⟩, kind := .concrete, span := .point 0 1 1
        info := some (.ofClass ⟨5⟩ false none) }),
    .grow (.addMethod ⟨0⟩ (method 2 .objc false [])),
    .grow (.addMethod ⟨0⟩ (method 3 .objc true [⟨.literal "fill", .point 0 3 1⟩])),
    .grow (.addMethod ⟨0⟩ (method 4 .plainC false [⟨.literal "erase", .point 0 4 1⟩])),
    .run (.assignSelector ⟨0⟩ ⟨0⟩), .run (.assignSelector ⟨1⟩ ⟨0⟩),
    .run (.assignSelector ⟨2⟩ ⟨0⟩), .run (.checkLinkage ⟨2⟩), .run (.checkLinkage ⟨0⟩)]

theorem isMessageSend_iff_annotatedClass :
    let c := (Event.play [] (.new .functional false) annotatedClassEvents).2
    c.isMessageSend ⟨0⟩ = true ∧ c.isMessageSend ⟨1⟩ = false ∧
      (c.program.funcAt ⟨2⟩).invalid = true ∧
      (c.program.funcAt ⟨2⟩).info.map (·.dispatch) = some .unsupported := by
  intro c
  have hrun : Run (fun _ e => e.FuncUnbound)
      (Event.play [] (.new .functional false) annotatedClassEvents).1 c :=
    (Run.start false).play (by decide +kernel)
  have hinvalid : (c.program.funcAt ⟨2⟩).invalid = true := by decide +kernel
  have hbound : (c.program.funcAt ⟨2⟩).info.isSome = true := by decide +kernel
  refine ⟨?_, ?_, hinvalid, ?_⟩
  · exact (isMessageSend_iff hrun ⟨0⟩).1.2 ⟨by decide +kernel, by decide +kernel,
      ⟨⟨0⟩, by decide +kernel, by decide +kernel⟩, by decide +kernel, by decide +kernel,
      by decide +kernel, by decide +kernel⟩
  · rw [← Bool.not_eq_true, (isMessageSend_iff hrun ⟨1⟩).1]
    intro hlooks
    exact absurd hlooks.isFinal (by decide +kernel)
  · obtain ⟨i, hi⟩ := Option.isSome_iff_exists.1 hbound
    rw [hi, Option.map_some, (isMessageSend_iff hrun ⟨2⟩).2 i hi, if_pos hinvalid]

end ObjcBinding
