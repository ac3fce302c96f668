import ObjcBinding.Proofs.Steps.Outcome

/-!
# The scope of a resolution

Resolving metaclasses gives names a meaning in a single scope. The other scopes, and the way from
each scope outward, stay as they are, so that a name that the scope does not know itself means what
it meant before.

* `Program.SameBeyond.lookup_eq`: what is looked up beyond the scope is found as before;
* `resolveBelow_frames`: resolving from a scope touches that scope only.
-/

namespace ObjcBinding

open Program

/-- No scope but `scope` differs, and every scope has the same scope around it. -/
structure Program.SameBeyond (scope : ScopeId) (p q : Program) : Prop where
  size : q.scopes.size = p.scopes.size
  outer (s : ScopeId) : q.outer? s = p.outer? s
  other (s : ScopeId) : s ≠ scope → q.scopes.get? s = p.scopes.get? s

namespace Program

variable {p q r : Program} {scope : ScopeId} {name : Symbol} {entry : ScopeEntry}

namespace SameBeyond

theorem of_scopes (h : q.scopes = p.scopes) : SameBeyond scope p q where
  size := by rw [h]
  outer _ := by rw [outer?, outer?, h]
  other _ _ := by rw [h]

theorem refl (scope : ScopeId) (p : Program) : SameBeyond scope p p := of_scopes rfl

theorem symm (h : SameBeyond scope p q) : SameBeyond scope q p where
  size := h.size.symm
  outer s := (h.outer s).symm
  other s hs := (h.other s hs).symm

theorem trans (h : SameBeyond scope p q) (h' : SameBeyond scope q r) : SameBeyond scope p r where
  size := h'.size.trans h.size
  outer s := (h'.outer s).trans (h.outer s)
  other s hs := (h'.other s hs).trans (h.other s hs)

theorem declare (h : p.declare scope name entry = .ok q) : SameBeyond scope p q := by
  unfold Program.declare at h
  split at h
  · cases h
  · rename_i t ht
    cases h
    have hparent : t.parent = (p.scopeAt scope).parent := by
      unfold Scope.declare at ht
      split at ht
      · cases ht
      · cases ht
        rfl
    refine ⟨Arena.size_modify .., fun s => ?_, fun s hs => ?_⟩
    · change ((p.scopes.modify scope fun _ => t).get? s).bind _ = (p.scopes.get? s).bind _
      rw [Arena.get?_modify]
      split
      · rename_i hs
        cases hget : p.scopes.get? s with
        | none => rfl
        | some u =>
          have hu : p.scopeAt scope = u := hs ▸ Arena.get_of_get? hget
          rw [hu] at hparent
          exact hparent
      · rfl
    · change (p.scopes.modify scope fun _ => t).get? s = _
      rw [Arena.get?_modify, if_neg (Ne.symm hs)]

theorem contains (h : SameBeyond scope p q) (s : ScopeId) :
    q.scopes.contains s = p.scopes.contains s := by
  rw [Arena.contains, Arena.contains, h.size]

/-- What a scope means by a name, whether or not the scope has been issued. -/
theorem get?_local (p : Program) (s : ScopeId) (name : Symbol) :
    ((p.scopes.get? s).bind (·.local? name)) = (p.scopeAt s).local? name := by
  unfold scopeAt Arena.get
  cases p.scopes.get? s <;> rfl

/-- A name that the scope itself does not know has the meaning that it has beyond. -/
theorem lookup_eq (h : SameBeyond scope p q) (hp : (p.scopeAt scope).local? name = none)
    (hq : (q.scopeAt scope).local? name = none) : q.lookup scope name = p.lookup scope name := by
  have hscopes : q.scopesFrom scope = p.scopesFrom scope := by
    rw [scopesFrom, scopesFrom, h.size, funext h.outer]
  have hlocal : (fun s => (q.scopes.get? s).bind (·.local? name)) =
      fun s => (p.scopes.get? s).bind (·.local? name) := by
    funext s
    by_cases hs : s = scope
    · rw [hs, get?_local, get?_local, hp, hq]
    · rw [h.other s hs]
  rw [lookup, lookup, hscopes, hlocal]

end SameBeyond

/-- A name means what the scope itself says, or what another scope says. -/
theorem lookup_cases (h : p.lookup scope name = some entry) :
    (p.scopeAt scope).local? name = some entry ∨
      (p.scopeAt scope).local? name = none ∧
        ∃ s, s ≠ scope ∧ (p.scopeAt s).local? name = some entry := by
  have hcons := h
  rw [lookup, scopesFrom, chain_succ, List.findSome?_cons, SameBeyond.get?_local] at hcons
  cases hlocal : (p.scopeAt scope).local? name with
  | some found =>
    rw [hlocal] at hcons
    exact .inl hcons
  | none =>
    obtain ⟨s, -, hs⟩ := List.exists_of_findSome?_eq_some h
    rw [SameBeyond.get?_local] at hs
    refine .inr ⟨rfl, s, ?_, hs⟩
    rintro rfl
    cases hlocal.symm.trans hs

end Program

namespace Resolve

variable {α β : Type} {scope : ScopeId} {c : Compilation}

/-- Whatever comes of the step, it touches no scope but `scope`. -/
def Frames (scope : ScopeId) (x : Resolve α) (c : Compilation) : Prop :=
  Outcome x c (fun _ d => SameBeyond scope c.program d.program)
    fun _ d => SameBeyond scope c.program d.program

theorem Frames.of_ok {x : Resolve α} (h : Frames scope x c) {d : Compilation} {a : α}
    (hx : x c = .ok a d) : SameBeyond scope c.program d.program :=
  (outcome_of_ok hx).1 h

/-! ## Parts of steps -/

theorem frames_pure (a : α) : Frames scope (pure a) c := SameBeyond.refl _ _

theorem frames_bind {x : Resolve α} {f : α → Resolve β} (hx : Frames scope x c)
    (hf : ∀ a d, Frames scope (f a) d) : Frames scope (x >>= f) c := by
  refine outcome_bind.2 (outcome_mono hx (fun a d hd => ?_) fun _ _ hd => hd)
  exact outcome_mono (hf a d) (fun _ _ he => hd.trans he) fun _ _ he => hd.trans he

theorem frames_program {f : Program → Resolve β} (h : Frames scope (f c.program) c) :
    Frames scope (program >>= f) c := h

theorem frames_say (level : Log.Level) (origin : Log.Origin) (text : String) :
    Frames scope (say level origin text) c := outcome_say.2 (.of_scopes rfl)

theorem frames_update {f : Program → Program} (hf : (f c.program).scopes = c.program.scopes) :
    Frames scope (updateProgram f) c := outcome_updateProgram.2 (.of_scopes hf)

theorem frames_modifyGet {f : Program → α × Program}
    (hf : (f c.program).2.scopes = c.program.scopes) : Frames scope (modifyGetProgram f) c :=
  outcome_modifyGetProgram.2 (.of_scopes hf)

theorem frames_reject (cls : ClassId) (e : BindError) :
    Frames scope (reject (.classDecl cls) e : Resolve α) c := outcome_reject.2 (.of_scopes rfl)

theorem frames_abort (corruption : Corruption) (span : Span) :
    Frames scope (abort corruption span : Resolve α) c := outcome_abort.2 (.of_scopes rfl)

/-! ## Resolving -/

theorem pairedOf_frames (id : ClassId) (c : Compilation) : Frames scope (pairedOf id) c :=
  frames_program (frames_pure _)

theorem declareMetaclass_frames (metaclass : ClassId) (c : Compilation) :
    Frames scope (declareMetaclass metaclass scope) c := by
  refine frames_program ?_
  dsimp only
  split
  · exact frames_pure _
  · split
    · rename_i p hp
      exact outcome_updateProgram.2 (.declare hp)
    · exact frames_abort ..

theorem verifyPair_frames (cls metaclass : ClassId) (c : Compilation) :
    Frames scope (verifyPair cls metaclass) c := by
  refine frames_program ?_
  split
  · exact frames_pure _
  · exact frames_abort ..

theorem link_frames (cls metaclass : ClassId) (c : Compilation) :
    Frames scope (link cls metaclass) c := by
  refine frames_program ?_
  dsimp only
  split
  · exact verifyPair_frames cls metaclass c
  · split
    · exact frames_abort ..
    · exact frames_bind (frames_update rfl) fun _ => verifyPair_frames cls metaclass

section

-- The classes above are resolved by a step that touches the scope only.
variable {resolve : ClassId → Resolve Unit} (hresolve : ∀ cls d, Frames scope (resolve cls) d)

include hresolve

theorem interfaceMetaclasses_frames (interfaces : List ClassId) (c : Compilation) :
    Frames scope (interfaceMetaclasses resolve interfaces) c := by
  induction interfaces generalizing c with
  | nil => exact frames_pure _
  | cons i rest ih =>
    refine frames_bind (hresolve i c) fun _ d => frames_bind (pairedOf_frames i d) fun _ e => ?_
    exact frames_bind (ih e) fun _ _ => frames_pure _

theorem superMetaclasses_frames (cls : ClassId) (c : Compilation) :
    Frames scope (superMetaclasses resolve cls) c := by
  have hrest (superMetaclass : Option ClassId) (d : Compilation) : Frames scope (do
      let interfaces ← interfaceMetaclasses resolve (c.program.classAt cls).interfaces
      return (superMetaclass, interfaces)) d :=
    frames_bind (interfaceMetaclasses_frames hresolve _ d) fun _ _ => frames_pure _
  refine frames_program ?_
  dsimp only
  split
  · exact hrest none c
  · rename_i superclass _
    refine frames_bind (hresolve superclass c) fun _ d => ?_
    exact frames_bind (pairedOf_frames superclass d) fun _ => hrest _

theorem synthesize_frames (cls : ClassId) (c : Compilation) :
    Frames scope (synthesize resolve cls scope) c := by
  refine frames_bind (superMetaclasses_frames hresolve cls c) fun _ d => frames_program ?_
  refine frames_bind (frames_modifyGet rfl) fun _ d => ?_
  refine frames_bind (frames_modifyGet rfl) fun m d => ?_
  refine frames_bind (declareMetaclass_frames m d) fun _ d => ?_
  exact frames_bind (link_frames cls m d) fun _ _ => frames_say ..

theorem linkForeign_frames (cls metaclass : ClassId) (c : Compilation) :
    Frames scope (linkForeign resolve cls metaclass) c := by
  refine frames_program ?_
  split
  · split
    · exact link_frames cls metaclass c
    · exact frames_reject ..
  · refine frames_bind (superMetaclasses_frames hresolve cls c) fun _ d => ?_
    refine frames_bind (frames_update rfl) fun _ d => ?_
    exact frames_bind (link_frames cls metaclass d) fun _ _ => frames_program (frames_say ..)

theorem resolveStep_frames (cls : ClassId) (c : Compilation) :
    Frames scope (resolveStep resolve cls scope) c := by
  refine frames_program ?_
  dsimp only
  split
  · exact frames_reject ..
  · split
    · exact frames_pure _
    · split
      · rename_i metaclass _
        exact frames_bind (verifyPair_frames cls metaclass c) fun _ =>
          declareMetaclass_frames metaclass
      · split
        · exact synthesize_frames hresolve cls c
        · split
          · exact linkForeign_frames hresolve cls _ c
          · exact frames_reject ..

end

/-- Resolving from a scope touches that scope only. -/
theorem resolveBelow_frames (height : Nat) (cls : ClassId) (c : Compilation) :
    Frames scope (resolveBelow scope height cls) c := by
  induction height generalizing cls c with
  | zero => exact frames_pure _
  | succ height ih => exact resolveStep_frames (fun x d => ih x d) cls c

end Resolve

end ObjcBinding
