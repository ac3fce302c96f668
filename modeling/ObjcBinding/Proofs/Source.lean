import ObjcBinding.Proofs.Run

/-!
# Sources

A source is what is there before any operation: nothing is bound or rejected, all names are
interned, all bases are declared, and the members of a class are functions of that class.

* `Program.Source.grow`: writing one more declaration makes a source from a source;
* `Run.source`: what has only been written is a source.
-/

namespace ObjcBinding

open Program

/-- A declaration as it is written: not bound, valid, and not made by the compiler; its name is
interned and its base is declared. Members are added to a class one by one. -/
def Growth.Written (p : Program) : Growth → Prop
  | addClass d => (d.info = none ∧ d.invalid = false ∧ d.synthesized = false ∧ d.members = []) ∧
      (p.names.resolve d.name).isSome = true ∧ d.base.all p.classes.contains = true
  | addFunction d | addMethod _ d | addGroupMember _ d => d.info = none ∧ d.invalid = false
  | _ => True

instance (p : Program) : DecidablePred (Growth.Written p)
  | .addClass d => inferInstanceAs (Decidable ((d.info = none ∧ d.invalid = false ∧
      d.synthesized = false ∧ d.members = []) ∧
        (p.names.resolve d.name).isSome = true ∧ d.base.all p.classes.contains = true))
  | .addFunction d | .addMethod _ d | .addGroupMember _ d =>
    inferInstanceAs (Decidable (d.info = none ∧ d.invalid = false))
  | .intern _ | .addScope _ | .declare .. | .addGroup _ => .isTrue trivial

/-- Declarations are written, and no operation is run. -/
def Event.Written (p : Program) : Event → Prop
  | grow g => g.Written p
  | run _ => False

instance (p : Program) : DecidablePred (Event.Written p)
  | .grow g => inferInstanceAs (Decidable (g.Written p))
  | .run _ => .isFalse id

/-- A class without annotation that is valid and was not made by the compiler. -/
structure ClassDecl.Plain (d : ClassDecl) : Prop where
  info : d.info = none
  valid : d.invalid = false
  written : d.synthesized = false

/-- A function without annotation that is valid. -/
structure FuncDecl.Plain (d : FuncDecl) : Prop where
  info : d.info = none
  valid : d.invalid = false

/-- What is written before anything is bound. -/
structure Program.Source (p : Program) : Prop where
  classes : ∀ x, (p.classAt x).Plain
  funcs : ∀ f, (p.funcAt f).Plain
  named : ∀ x, p.classes.contains x = true → ∃ t, p.names.resolve (p.classAt x).name = some t
  base : ∀ x b, (p.classAt x).base = some b → p.classes.contains b = true
  parent : ∀ x, ∀ f ∈ (p.classAt x).members, (p.funcAt f).parent = some x
  nodup : ∀ x, (p.classAt x).members.Nodup

namespace Growth

theorem Written.unbound {g : Growth} {p : Program} (h : g.Written p) : g.Unbound := by
  cases g with
  | addClass d => exact h.1.1
  | addFunction d | addMethod _ d | addGroupMember _ d => exact h.1
  | _ => trivial

/-- A class after an addition is as before, or it is new, or it has got one more member. -/
theorem classAt_cases (g : Growth) (p : Program) (x : ClassId) :
    (g.apply p).classAt x = p.classAt x ∨
      (∃ d, g = addClass d ∧ (g.apply p).classAt x = d) ∨
      ∃ d, g = addMethod x d ∧ (g.apply p).classAt x =
        { p.classAt x with members := (p.classAt x).members ++ [⟨p.funcs.size⟩] } := by
  cases g with
  | declare scope name entry =>
    obtain ⟨scopes, hp⟩ := apply_declare p scope name entry
    rw [hp]
    exact .inl rfl
  | addClass d =>
    change (p.addClass d).2.classAt x = _ ∨ _
    by_cases hx : x = ⟨p.classes.size⟩
    · refine .inr (.inl ⟨d, rfl, ?_⟩)
      change (p.addClass d).2.classAt x = d
      rw [classAt_addClass_eq, if_pos hx]
    · rw [classAt_addClass_eq, if_neg hx]
      exact .inl rfl
  | addMethod cls d =>
    have hc : (addMethod cls d).apply p =
        modifyClass (p.addFunction { d with parent := some cls }).2 cls fun c =>
          { c with members := c.members ++ [⟨p.funcs.size⟩] } := rfl
    rw [hc, classAt_modifyClass]
    split
    · rename_i hx
      rw [hx.1]
      exact .inr (.inr ⟨d, rfl, rfl⟩)
    · exact .inl rfl
  | _ => exact .inl rfl

theorem contains_cases (g : Growth) {p : Program} {x : ClassId}
    (hx : (g.apply p).classes.contains x = true) :
    p.classes.contains x = true ∨ ∃ d, g = addClass d ∧ (g.apply p).classAt x = d := by
  cases g with
  | declare scope name entry =>
    obtain ⟨scopes, hp⟩ := apply_declare p scope name entry
    rw [hp] at hx
    exact .inl hx
  | addClass d =>
    rcases (Arena.contains_alloc _ _ _).1 hx with rfl | hx
    · exact .inr ⟨d, rfl, p.classAt_addClass d⟩
    · exact .inl hx
  | addMethod cls d =>
    refine .inl ?_
    rw [← Arena.contains_modify]
    exact hx
  | _ => exact .inl hx

theorem Written.added {g : Growth} {p : Program} (h : g.Written p) {d : FuncDecl}
    (hd : g.func? p = some d) : d.Plain := by
  cases g with
  | addFunction | addMethod | addGroupMember =>
    cases hd
    exact ⟨h.1, h.2⟩
  | _ => cases hd

theorem Written.funcPlain {g : Growth} {p : Program} (h : g.Written p) {f : FuncId}
    (hf : (p.funcAt f).Plain) : ((g.apply p).funcAt f).Plain := by
  rcases g.funcAt_cases p f with he | ⟨d, hd, -, he⟩
  · rwa [he]
  · rw [he]
    exact h.added hd

end Growth

namespace Program.Source

variable {p : Program} {g : Growth} {x : ClassId}

theorem containsFunc_of_mem (h : p.Source) {f : FuncId} (hf : f ∈ (p.classAt x).members) :
    p.funcs.contains f = true :=
  containsFunc_of_parent (h.parent x f hf)

theorem not_mem_fresh (h : p.Source) : ⟨p.funcs.size⟩ ∉ (p.classAt x).members := by
  intro hf
  exact Arena.ne_fresh (h.containsFunc_of_mem hf) rfl

theorem classPlain_apply (h : p.Source) (hg : g.Written p) (x : ClassId) :
    ((g.apply p).classAt x).Plain := by
  have hx := h.classes x
  rcases g.classAt_cases p x with he | ⟨d, rfl, he⟩ | ⟨d, -, he⟩
  · rwa [he]
  · obtain ⟨⟨hi, hv, hs, -⟩, -⟩ := hg
    rw [he]
    exact ⟨hi, hv, hs⟩
  · rw [he]
    exact ⟨hx.info, hx.valid, hx.written⟩

theorem named_apply (h : p.Source) (hg : g.Written p)
    (hx : (g.apply p).classes.contains x = true) :
    ∃ t, (g.apply p).names.resolve ((g.apply p).classAt x).name = some t := by
  have hext := g.apply_extends p
  rcases g.contains_cases hx with hc | ⟨d, rfl, he⟩
  · obtain ⟨t, ht⟩ := h.named x hc
    rw [hext.name hc]
    exact ⟨t, hext.names _ t ht⟩
  · obtain ⟨-, hname, -⟩ := hg
    obtain ⟨t, ht⟩ := Option.isSome_iff_exists.1 hname
    rw [he]
    exact ⟨t, ht⟩

theorem base_apply (h : p.Source) (hg : g.Written p) {b : ClassId}
    (hb : ((g.apply p).classAt x).base = some b) : (g.apply p).classes.contains b = true := by
  refine (g.apply_extends p).containsClass b ?_
  rcases g.classAt_cases p x with he | ⟨d, rfl, he⟩ | ⟨d, -, he⟩
  · rw [he] at hb
    exact h.base x b hb
  · obtain ⟨-, -, hbase⟩ := hg
    rw [he] at hb
    rwa [hb] at hbase
  · rw [he] at hb
    exact h.base x b hb

theorem parent_apply (h : p.Source) (hg : g.Written p) {f : FuncId}
    (hf : f ∈ ((g.apply p).classAt x).members) : ((g.apply p).funcAt f).parent = some x := by
  have hold (hf : f ∈ (p.classAt x).members) : ((g.apply p).funcAt f).parent = some x :=
    ((g.apply_extends p).parent (h.containsFunc_of_mem hf)).trans (h.parent x f hf)
  rcases g.classAt_cases p x with he | ⟨d, rfl, he⟩ | ⟨d, rfl, he⟩
  · rw [he] at hf
    exact hold hf
  · obtain ⟨⟨-, -, -, hm⟩, -⟩ := hg
    rw [he, hm] at hf
    cases hf
  · rw [he] at hf
    rcases List.mem_append.1 hf with hf | hf
    · exact hold hf
    · rw [List.mem_singleton] at hf
      rw [hf]
      exact congrArg FuncDecl.parent (p.funcAt_addMethod x d)

theorem nodup_apply (h : p.Source) (hg : g.Written p) (x : ClassId) :
    ((g.apply p).classAt x).members.Nodup := by
  rcases g.classAt_cases p x with he | ⟨d, rfl, he⟩ | ⟨d, -, he⟩
  · rw [he]
    exact h.nodup x
  · obtain ⟨⟨-, -, -, hm⟩, -⟩ := hg
    rw [he, hm]
    exact List.nodup_nil
  · rw [he, List.nodup_append]
    refine ⟨h.nodup x, by simp, fun f hf f' hf' heq => ?_⟩
    rw [List.mem_singleton] at hf'
    rw [heq, hf'] at hf
    exact h.not_mem_fresh hf

theorem grow (h : p.Source) (hg : g.Written p) : (g.apply p).Source where
  classes := h.classPlain_apply hg
  funcs := fun f => hg.funcPlain (h.funcs f)
  named := fun _ => h.named_apply hg
  base := fun _ _ => h.base_apply hg
  parent := fun _ _ => h.parent_apply hg
  nodup := h.nodup_apply hg

end Program.Source

/-- What has only been written is a source, and nothing has been reported about it. -/
theorem Run.source {past : List Compilation} {c : Compilation}
    (h : Run Event.Written past c) : c.program.Source ∧ c.Clean := by
  refine h.invariant (I := fun c => c.program.Source ∧ c.Clean) ?_ ?_
  · intro renders
    refine ⟨⟨fun x => ?_, fun f => ?_, fun x hx => ?_, fun x b hb => ?_, fun x f hf => ?_,
      fun x => ?_⟩, rfl, rfl⟩
    · rw [classAt_new]
      exact ⟨rfl, rfl, rfl⟩
    · rw [funcAt_new]
      exact ⟨rfl, rfl⟩
    · cases hx
    · rw [classAt_new] at hb
      cases hb
    · rw [classAt_new] at hf
      cases hf
    · rw [classAt_new]
      exact List.nodup_nil
  · rintro c (g | op) he ⟨hs, hc⟩
    · exact ⟨hs.grow he, hc.sink, hc.running⟩
    · exact he.elim

end ObjcBinding
