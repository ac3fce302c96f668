import ObjcBinding.Proofs.Ancestry
import ObjcBinding.Proofs.Run
import ObjcBinding.Proofs.Steps.InnerScopes

/-!
# Lexical scopes

Where no scope is around itself, the way outward from a scope ends, be it at a scope without one
around it or at a link that leads to no scope. A name means what the first scope on the way says
that knows it. A declaration changes one scope, and so the meaning of one name in those scopes
from which that scope is in view.

* `ends_of_acyclic`: a walk without cycles ends, for want of elements to go on to;
* `Program.lookup_eq_some_iff_inView`: a name is found in a scope in view, and nowhere else;
* `Program.InView.transfer`: what is in view depends on the scopes in view only;
* `declare_lexical`: what a declaration does to every look-up.
-/

namespace ObjcBinding

/-- The walk from `a` goes on from elements of `l` only, and from each of them once. -/
theorem ends_of_acyclic {α : Type} [DecidableEq α] {next : α → Option α}
    (hacyclic : ∀ x, ¬ Relation.TransGen (fun x y => next x = some y) x x) {l : List α} {a : α}
    (hl : ∀ x y, Relation.ReflTransGen (fun x y => next x = some y) a x → next x = some y →
      x ∈ l) : Ends next (l.length + 1) a := by
  induction hn : l.length generalizing l a with
  | zero =>
    refine .here ?_
    cases ha : next a with
    | none => rfl
    | some b =>
      have hmem := hl a b .refl ha
      rw [List.length_eq_zero_iff.1 hn] at hmem
      cases hmem
  | succ n ih =>
    cases ha : next a with
    | none => exact .here ha
    | some b =>
      have hmem := hl a b .refl ha
      refine .step ha (ih (l := l.erase a) (fun x y hx hxy => ?_) ?_)
      · refine (List.mem_erase_of_ne ?_).2 (hl x y (.head ha hx) hxy)
        rintro rfl
        exact hacyclic x (Relation.TransGen.head' ha hx)
      · rw [List.length_erase_of_mem hmem, hn, Nat.add_sub_cancel]

namespace Program

/-! ## What is in view -/

/-- `outer` is `inner` itself or a scope around it. The last scope on the way may have a link that
leads to no scope. -/
def Outward (p : Program) (inner outer : ScopeId) : Prop :=
  Relation.ReflTransGen (fun x y => p.outer? x = some y) inner outer

/-- `outer` is a scope around `inner`. -/
def Around (p : Program) (inner outer : ScopeId) : Prop :=
  Relation.TransGen (fun x y => p.outer? x = some y) inner outer

/-- No scope is around itself. -/
def ScopesNested (p : Program) : Prop := ∀ s, ¬ p.Around s s

/-- On the way from `inner` outward to `outer`, no scope before `outer` knows the name. -/
structure InView (p : Program) (inner : ScopeId) (name : Symbol) (outer : ScopeId) : Prop where
  outward : p.Outward inner outer
  unshadowed (s : ScopeId) : p.Outward inner s → p.Around s outer →
    (p.scopeAt s).local? name = none

variable {p q : Program} {scope inner outer s t u : ScopeId} {name m : Symbol}
  {entry found : ScopeEntry}

/-- Scopes whose links lead to older scopes, or to none, are nested. -/
theorem nested_of_older (h : ∀ s outer, p.outer? s = some outer →
    p.scopes.contains outer = true → outer.index < s.index) : p.ScopesNested := by
  have hlt (x y z : ScopeId) (hxy : p.Around x y) (hyz : p.outer? y = some z) :
      y.index < x.index := by
    induction hxy generalizing z with
    | single hlink => exact h x _ hlink (contains_of_outer? hyz)
    | tail _ hlink ih =>
      exact Nat.lt_trans (h _ _ hlink (contains_of_outer? hyz)) (ih _ hlink)
  intro s hs
  obtain ⟨z, hz, -⟩ := Relation.TransGen.head'_iff.1 hs
  exact Nat.lt_irrefl _ (hlt s s z hs hz)

/-- The way outward from a scope is no longer than there are scopes. -/
theorem ScopesNested.ends (h : p.ScopesNested) (s : ScopeId) :
    Ends p.outer? (p.scopes.size + 1) s := by
  have hends := ends_of_acyclic (l := p.scopes.handles) (a := s) h fun x y _ hxy =>
    Arena.mem_handles.2 (contains_of_outer? hxy)
  rwa [Arena.handles, List.length_map, List.length_range] at hends

namespace InView

theorem here (h : p.ScopesNested) (s : ScopeId) (name : Symbol) : p.InView s name s where
  outward := .refl
  unshadowed _ hx hxs := absurd (Relation.TransGen.trans_right hx hxs) (h s)

theorem beyond (ho : p.outer? s = some t) (hnone : (p.scopeAt s).local? name = none)
    (h : p.InView t name outer) : p.InView s name outer where
  outward := .head ho h.outward
  unshadowed x hx hxo := by
    obtain rfl | ⟨y, hy, hyx⟩ := Relation.ReflTransGen.cases_head_iff.1 hx
    · exact hnone
    · obtain rfl := Option.some.inj (ho.symm.trans hy)
      exact h.unshadowed x hyx hxo

/-- What comes before a scope in view is in view. -/
theorem before (h : p.InView inner name outer) (hs : p.Outward inner s)
    (hso : p.Outward s outer) : p.InView inner name s where
  outward := hs
  unshadowed x hx hxs := h.unshadowed x hx (Relation.TransGen.trans_left hxs hso)

/-- What is in view depends on the links, and on what the scopes in view say of the name. -/
theorem transfer (houter : q.outer? = p.outer?)
    (hlocal : ∀ s, p.InView inner name s →
      (q.scopeAt s).local? name = (p.scopeAt s).local? name)
    (h : p.InView inner name outer) : q.InView inner name outer := by
  constructor
  · rw [Outward, houter]
    exact h.outward
  · intro x hx hxo
    rw [Outward, houter] at hx
    rw [Around, houter] at hxo
    rw [hlocal x (h.before hx hxo.to_reflTransGen)]
    exact h.unshadowed x hx hxo

theorem foundAt (h : p.InView inner name outer)
    (hl : (p.scopeAt outer).local? name = some found) :
    ∃ n, p.FoundAt name found n inner := by
  obtain ⟨hpath, hnone⟩ := h
  induction hpath using Relation.ReflTransGen.head_induction_on with
  | refl => exact ⟨0, .here hl⟩
  | head hlink hpath ih =>
    obtain ⟨n, hn⟩ := ih fun x hx => hnone x (.head hlink hx)
    exact ⟨n + 1, .beyond (hnone _ .refl (Relation.TransGen.head' hlink hpath)) hlink hn⟩

end InView

/-- A name means what the first scope on the way outward says that knows it. -/
theorem lookup_eq_some_iff_inView (h : p.ScopesNested) :
    p.lookup inner name = some found ↔
      ∃ outer, p.InView inner name outer ∧ (p.scopeAt outer).local? name = some found := by
  rw [lookup_eq_some_iff]
  constructor
  · rintro ⟨n, hn⟩
    induction hn with
    | here hl => exact ⟨_, .here h _ name, hl⟩
    | beyond hnone ho _ ih =>
      obtain ⟨outer, hview, hl⟩ := ih
      exact ⟨outer, hview.beyond ho hnone, hl⟩
  · rintro ⟨outer, hview, hl⟩
    exact hview.foundAt hl

/-- If all scopes in view say the same, then so do the look-ups. -/
theorem lookup_of_inView (hp : p.ScopesNested) (hq : q.ScopesNested)
    (houter : q.outer? = p.outer?)
    (hlocal : ∀ s, p.InView inner name s →
      (q.scopeAt s).local? name = (p.scopeAt s).local? name)
    (h : p.lookup inner name = some found) : q.lookup inner name = some found := by
  obtain ⟨outer, hview, hl⟩ := (lookup_eq_some_iff_inView hp).1 h
  exact (lookup_eq_some_iff_inView hq).2
    ⟨outer, hview.transfer houter hlocal, (hlocal outer hview).trans hl⟩

/-- A look-up that comes to a link to no scope has found nothing. -/
theorem lookup_of_dangling (h : p.ScopesNested) (hview : p.InView inner name outer)
    (hc : p.scopes.contains outer = false) : p.lookup inner name = none := by
  rw [Option.eq_none_iff_forall_ne_some]
  intro found hfound
  obtain ⟨s, hs, hl⟩ := (lookup_eq_some_iff_inView h).1 hfound
  have hne : s ≠ outer := by
    rintro rfl
    cases hc.symm.trans (contains_of_local? hl)
  -- of two scopes on one way, one is before the other; nothing is after the last one
  have htotal := Relation.ReflTransGen.total_of_right_unique
    (fun _ _ _ hy hz => Option.some.inj (hy.symm.trans hz)) hs.outward hview.outward
  rcases htotal with hso | hos
  · rcases Relation.reflTransGen_iff_eq_or_transGen.1 hso with heq | hso
    · exact hne heq.symm
    · cases hl.symm.trans (hview.unshadowed s hs.outward hso)
  · obtain heq | ⟨x, hx, -⟩ := Relation.ReflTransGen.cases_head_iff.1 hos
    · exact hne heq.symm
    · cases hc.symm.trans (contains_of_outer? hx)

/-! ## Declarations -/

theorem declare_of_some (h : (p.scopeAt scope).local? name = some found) (entry : ScopeEntry) :
    p.declare scope name entry = .error found := by
  rw [declare, Scope.declare_eq_error_iff.2 h]

theorem declare_of_none (h : (p.scopeAt scope).local? name = none) (entry : ScopeEntry) :
    ∃ q, p.declare scope name entry = .ok q := by
  unfold declare
  cases hd : (p.scopeAt scope).declare name entry with
  | error found => cases h.symm.trans (Scope.declare_eq_error_iff.1 hd)
  | ok s => exact ⟨_, rfl⟩

theorem ScopesNested.declare (h : p.ScopesNested) (hd : p.declare scope name entry = .ok q) :
    q.ScopesNested := by
  intro s hs
  rw [Around, funext (SameBeyond.declare hd).outer] at hs
  exact h s hs

/-- Whether a scope is in view does not depend on what it says itself. -/
theorem inView_declare_iff (hp : p.ScopesNested) (h : p.declare scope name entry = .ok q)
    (hc : p.scopes.contains scope = true) :
    q.InView inner name scope ↔ p.InView inner name scope := by
  have houter : q.outer? = p.outer? := funext (SameBeyond.declare h).outer
  have hsame (s : ScopeId) (hs : p.Around s scope) :
      (q.scopeAt s).local? name = (p.scopeAt s).local? name := by
    rw [local?_declare h, if_neg]
    rintro ⟨⟨rfl, -⟩, -⟩
    exact hp s hs
  constructor
  · rintro ⟨hout, hnone⟩
    rw [Outward, houter] at hout
    simp only [Outward, Around, houter] at hnone
    exact ⟨hout, fun s hs hss => (hsame s hss).symm.trans (hnone s hs hss)⟩
  · rintro ⟨hout, hnone⟩
    constructor
    · rw [Outward, houter]
      exact hout
    · simp only [Outward, Around, houter]
      exact fun s hs hss => (hsame s hss).trans (hnone s hs hss)

/-- From where its scope is in view, a name means what it was declared for. -/
theorem lookup_declare_of_inView (hp : p.ScopesNested) (h : p.declare scope name entry = .ok q)
    (hc : p.scopes.contains scope = true) (hview : p.InView inner name scope) :
    q.lookup inner name = some entry := by
  refine (lookup_eq_some_iff_inView (hp.declare h)).2
    ⟨scope, (inView_declare_iff hp h hc).2 hview, ?_⟩
  rw [local?_declare h, if_pos ⟨⟨rfl, hc⟩, rfl⟩]

/-- From elsewhere it means what it meant, and so do all other names. -/
theorem lookup_declare_of_not_inView (hp : p.ScopesNested)
    (h : p.declare scope name entry = .ok q) (hc : p.scopes.contains scope = true)
    (hnot : ¬ (m = name ∧ p.InView inner name scope)) : q.lookup inner m = p.lookup inner m := by
  have hq := hp.declare h
  have houter : q.outer? = p.outer? := funext (SameBeyond.declare h).outer
  have hsame (s : ScopeId) (hs : p.InView inner m s ∨ q.InView inner m s) :
      (q.scopeAt s).local? m = (p.scopeAt s).local? m := by
    rw [local?_declare h, if_neg]
    rintro ⟨⟨rfl, -⟩, rfl⟩
    exact hnot ⟨rfl, hs.elim id (inView_declare_iff hp h hc).1⟩
  refine Option.ext fun found => ⟨fun hfound => ?_, fun hfound => ?_⟩
  · exact lookup_of_inView hq hp houter.symm (fun s hs => (hsame s (.inr hs)).symm) hfound
  · exact lookup_of_inView hp hq houter (fun s hs => hsame s (.inl hs)) hfound

end Program

open Program in
/-- Where no scope is around itself, every look-up ends, with what the first scope on the way
outward says that knows the name, and with nothing at a link that leads to no scope. A name that a
scope knows is not declared in it again, and nothing changes. Any other name is, and means the new
entry in exactly those scopes from which there is no scope before this one that knows the name; all
else means what it meant. -/
theorem declare_lexical {p : Program} (hp : p.ScopesNested) {scope : ScopeId}
    (hc : p.scopes.contains scope = true) (name : Symbol) (entry : ScopeEntry) :
    (∀ existing, (p.scopeAt scope).local? name = some existing →
      p.declare scope name entry = .error existing ∧
        (Growth.declare scope name entry).apply p = p) ∧
    ((p.scopeAt scope).local? name = none →
      ∃ q, p.declare scope name entry = .ok q ∧ q.ScopesNested ∧ ∀ t m,
        (m = name ∧ p.InView t name scope → q.lookup t m = some entry) ∧
        (¬ (m = name ∧ p.InView t name scope) → q.lookup t m = p.lookup t m)) ∧
    (∀ t m found, p.lookup t m = some found ↔
      ∃ u, p.InView t m u ∧ (p.scopeAt u).local? m = some found) ∧
    (∀ t m u, p.InView t m u → p.scopes.contains u = false → p.lookup t m = none) ∧
    ∀ t, Ends p.outer? (p.scopes.size + 1) t := by
  refine ⟨fun existing hknown => ?_, fun hnew => ?_, fun _ _ _ => lookup_eq_some_iff_inView hp,
    fun _ _ _ => lookup_of_dangling hp, hp.ends⟩
  · have herror := declare_of_some hknown entry
    exact ⟨herror, by rw [Growth.apply, herror]⟩
  · obtain ⟨q, hq⟩ := declare_of_none hnew entry
    refine ⟨q, hq, hp.declare hq, fun t m => ⟨?_, lookup_declare_of_not_inView hp hq hc⟩⟩
    rintro ⟨rfl, hview⟩
    exact lookup_declare_of_inView hp hq hc hview

/-- Three scopes in each other, of which the one in the middle knows a name, and one whose link
leads to no scope. -/
def shadowedProgram : Program where
  scopes := ⟨#[{ parent := none }, { parent := some ⟨0⟩, entries := [(⟨5⟩, .constant "inner")] },
    { parent := some ⟨1⟩ }, { parent := some ⟨7⟩ }]⟩

open Program in
theorem declare_lexical_shadowed :
    shadowedProgram.ScopesNested ∧
      ∃ q, shadowedProgram.declare ⟨0⟩ ⟨5⟩ (.constant "outer") = .ok q ∧
        q.lookup ⟨0⟩ ⟨5⟩ = some (.constant "outer") ∧
        q.lookup ⟨2⟩ ⟨5⟩ = some (.constant "inner") ∧ q.lookup ⟨3⟩ ⟨5⟩ = none := by
  have hnested : shadowedProgram.ScopesNested := by
    have hall : ∀ s ∈ shadowedProgram.scopes.handles, ∀ outer ∈ shadowedProgram.outer? s,
        shadowedProgram.scopes.contains outer = true → outer.index < s.index := by decide
    exact nested_of_older fun s outer ho =>
      hall s (Arena.mem_handles.2 (contains_of_outer? ho)) outer ho
  obtain ⟨-, hdeclare, -⟩ := @declare_lexical _ hnested ⟨0⟩ (by decide) ⟨5⟩ (.constant "outer")
  obtain ⟨q, hq, -, heffect⟩ := hdeclare (by decide)
  -- the scope in the middle is before the outermost one, and knows the name
  have hshadowed : ¬ shadowedProgram.InView ⟨2⟩ ⟨5⟩ ⟨0⟩ := by
    intro hview
    have hnone := hview.unshadowed ⟨1⟩ (.single (by decide)) (.single (by decide))
    revert hnone
    decide
  have hbeside : ¬ shadowedProgram.InView ⟨3⟩ ⟨5⟩ ⟨0⟩ := by
    intro hview
    obtain heq | ⟨x, hx, hpath⟩ := Relation.ReflTransGen.cases_head_iff.1 hview.outward
    · cases heq
    · obtain rfl : ⟨7⟩ = x := Option.some.inj hx
      obtain heq | ⟨y, hy, -⟩ := Relation.ReflTransGen.cases_head_iff.1 hpath
      · cases heq
      · cases hy
  refine ⟨hnested, q, hq, (heffect ⟨0⟩ ⟨5⟩).1 ⟨rfl, .here hnested ⟨0⟩ ⟨5⟩⟩, ?_, ?_⟩
  · rw [(heffect ⟨2⟩ ⟨5⟩).2 fun h => hshadowed h.2]
    decide
  · rw [(heffect ⟨3⟩ ⟨5⟩).2 fun h => hbeside h.2]
    decide

end ObjcBinding
