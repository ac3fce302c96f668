import ObjcBinding.Proofs.Steps.ScopeFrame
import Mathlib.Data.List.Perm.Subperm

/-!
# Scopes inside a scope

While the methods of a class are bound, a scope is opened for each of them inside the scope of the
class, and the hidden parameter is declared in it. Whatever scopes are nested in each other, no
constant is found in any other place by that.

* `Program.lookup_eq_some_iff`: a name is found in the nearest scope that knows it, however far;
* `Program.Opens.lookup_constant_iff`: opened scopes change no constant that is found from outside.
-/

namespace ObjcBinding.Program

variable {p q r : Program} {scope s : ScopeId} {name : Symbol} {entry : ScopeEntry} {n m : Nat}

/-! ## Distances -/

/-- From a scope outward the name is found, with the meaning `entry`, after so many scopes that do
not know it. -/
inductive FoundAt (p : Program) (name : Symbol) (entry : ScopeEntry) : Nat → ScopeId → Prop where
  | here {s : ScopeId} : (p.scopeAt s).local? name = some entry → FoundAt p name entry 0 s
  | beyond {n : Nat} {s outer : ScopeId} : (p.scopeAt s).local? name = none →
      p.outer? s = some outer → FoundAt p name entry n outer → FoundAt p name entry (n + 1) s

theorem contains_of_local? (h : (p.scopeAt s).local? name = some entry) :
    p.scopes.contains s = true := by
  rw [← Bool.not_eq_false]
  intro hc
  rw [scopeAt, Arena.get_of_not_contains hc] at h
  cases h

theorem contains_of_outer? {outer : ScopeId} (h : p.outer? s = some outer) :
    p.scopes.contains s = true := by
  obtain ⟨t, ht, -⟩ := Option.bind_eq_some_iff.1 h
  exact Arena.contains_iff_get?.2 ⟨t, ht⟩

namespace FoundAt

theorem contains (h : p.FoundAt name entry n s) : p.scopes.contains s = true := by
  cases h with
  | here hl => exact contains_of_local? hl
  | beyond _ ho _ => exact contains_of_outer? ho

theorem unique (h : p.FoundAt name entry n s) (h' : p.FoundAt name entry m s) : n = m := by
  induction h generalizing m with
  | here hl =>
    cases h' with
    | here => rfl
    | beyond hn _ _ => cases hl.symm.trans hn
  | beyond hn ho _ ih =>
    cases h' with
    | here hl => cases hl.symm.trans hn
    | beyond _ ho' h' =>
      cases ho.symm.trans ho'
      rw [ih h']

/-- No scope is met twice on the way. -/
theorem path (h : p.FoundAt name entry n s) :
    ∃ l : List ScopeId, l.length = n + 1 ∧ l.Nodup ∧
      ∀ x ∈ l, ∃ k ≤ n, p.FoundAt name entry k x := by
  induction h with
  | @here s hl =>
    refine ⟨[s], rfl, List.pairwise_singleton _ s, fun x hx => ⟨0, Nat.le_refl 0, ?_⟩⟩
    rw [List.mem_singleton.1 hx]
    exact .here hl
  | @beyond n s outer hn ho hfound ih =>
    obtain ⟨l, hlength, hnodup, hl⟩ := ih
    refine ⟨s :: l, by rw [List.length_cons, hlength], List.nodup_cons.2 ⟨fun hs => ?_, hnodup⟩,
      fun x hx => ?_⟩
    · obtain ⟨k, hk, hfound'⟩ := hl s hs
      have hlt := (FoundAt.beyond hn ho hfound).unique hfound'
      omega
    · rcases List.mem_cons.1 hx with rfl | hx
      · exact ⟨n + 1, Nat.le_refl _, .beyond hn ho hfound⟩
      · obtain ⟨k, hk, hfound'⟩ := hl x hx
        exact ⟨k, Nat.le_succ_of_le hk, hfound'⟩

theorem lt_size (h : p.FoundAt name entry n s) : n < p.scopes.size := by
  obtain ⟨l, hlength, hnodup, hl⟩ := h.path
  have hsub : l ⊆ p.scopes.handles := by
    intro x hx
    obtain ⟨k, -, hk⟩ := hl x hx
    exact Arena.mem_handles.2 hk.contains
  have hle := (List.subperm_of_subset hnodup hsub).length_le
  rw [hlength, Arena.handles, List.length_map, List.length_range] at hle
  exact hle

end FoundAt

theorem findSome?_chain_eq_some_iff {bound : Nat} :
    ((chain p.outer? bound s).findSome? fun t => (p.scopes.get? t).bind (·.local? name)) =
      some entry ↔ ∃ n < bound, p.FoundAt name entry n s := by
  induction bound generalizing s with
  | zero => exact ⟨nofun, fun ⟨n, hn, _⟩ => absurd hn (Nat.not_lt_zero n)⟩
  | succ bound ih =>
    rw [chain_succ, List.findSome?_cons, SameBeyond.get?_local]
    cases hl : (p.scopeAt s).local? name with
    | some found =>
      refine ⟨fun h => ⟨0, Nat.succ_pos bound, .here (hl.trans h)⟩, ?_⟩
      · rintro ⟨n, -, hn⟩
        cases hn with
        | here hl' => exact hl.symm.trans hl'
        | beyond hnone _ _ => cases hl.symm.trans hnone
    | none =>
      dsimp only
      cases ho : p.outer? s with
      | none =>
        refine ⟨nofun, ?_⟩
        rintro ⟨n, -, hn⟩
        cases hn with
        | here hl' => cases hl.symm.trans hl'
        | beyond _ ho' _ => cases ho.symm.trans ho'
      | some outer =>
        dsimp only
        rw [ih]
        constructor
        · rintro ⟨n, hlt, hn⟩
          exact ⟨n + 1, Nat.succ_lt_succ hlt, .beyond hl ho hn⟩
        · rintro ⟨n, hlt, hn⟩
          cases hn with
          | here hl' => cases hl.symm.trans hl'
          | beyond _ ho' hn =>
            cases ho.symm.trans ho'
            exact ⟨_, Nat.lt_of_succ_lt_succ hlt, hn⟩

theorem lookup_eq_some_iff :
    p.lookup scope name = some entry ↔ ∃ n, p.FoundAt name entry n scope := by
  rw [lookup, scopesFrom, findSome?_chain_eq_some_iff]
  constructor
  · rintro ⟨n, -, hn⟩
    exact ⟨n, hn⟩
  · rintro ⟨n, hn⟩
    exact ⟨n, Nat.lt_succ_of_lt hn.lt_size, hn⟩

/-! ## Opened scopes -/

/-- From `p` to `q` scopes were opened inside `scope` that know parameters only; the scopes of `p`
stay as they are. -/
structure Opens (scope : ScopeId) (p q : Program) : Prop where
  size : p.scopes.size ≤ q.scopes.size
  old (s : ScopeId) : p.scopes.contains s = true → q.scopes.get? s = p.scopes.get? s
  inside (s : ScopeId) : p.scopes.contains s = false → q.scopes.contains s = true →
    q.outer? s = some scope
  params (s : ScopeId) : p.scopes.contains s = false → ∀ name entry,
    (q.scopeAt s).local? name = some entry → ∃ func index, entry = .param func index

namespace Opens

theorem of_scopes (h : q.scopes = p.scopes) : Opens scope p q where
  size := Nat.le_of_eq (congrArg Arena.size h.symm)
  old s _ := by rw [h]
  inside s hs hs' := by
    rw [h, hs] at hs'
    cases hs'
  params s hs name entry hl := by
    rw [scopeAt, h, ← scopeAt] at hl
    rw [contains_of_local? hl] at hs
    cases hs

theorem refl (scope : ScopeId) (p : Program) : Opens scope p p := of_scopes rfl

theorem contains (h : Opens scope p q) (hs : p.scopes.contains s = true) :
    q.scopes.contains s = true := by
  rw [Arena.contains_iff_lt] at hs ⊢
  exact Nat.lt_of_lt_of_le hs h.size

theorem outer?_old (h : Opens scope p q) (hs : p.scopes.contains s = true) :
    q.outer? s = p.outer? s := by
  rw [outer?, h.old s hs, outer?]

theorem scopeAt_old (h : Opens scope p q) (hs : p.scopes.contains s = true) :
    q.scopeAt s = p.scopeAt s := by
  rw [scopeAt, Arena.get, h.old s hs, scopeAt, Arena.get]

theorem trans (h : Opens scope p q) (h' : Opens scope q r) : Opens scope p r where
  size := Nat.le_trans h.size h'.size
  old s hs := (h'.old s (h.contains hs)).trans (h.old s hs)
  inside s hs hs' := by
    cases hq : q.scopes.contains s with
    | true => exact (h'.outer?_old hq).trans (h.inside s hs hq)
    | false => exact h'.inside s hq hs'
  params s hs name entry hl := by
    cases hq : q.scopes.contains s with
    | true =>
      rw [h'.scopeAt_old hq] at hl
      exact h.params s hs name entry hl
    | false => exact h'.params s hq name entry hl

theorem addScope (p : Program) (scope : ScopeId) : Opens scope p (p.addScope (some scope)).2 where
  size := by
    change p.scopes.size ≤ (p.scopes.alloc _).2.size
    rw [Arena.size_alloc]
    exact Nat.le_succ _
  old s hs := Arena.get?_alloc_of_contains hs _
  inside s hs hs' := by
    obtain rfl := ((Arena.contains_alloc ..).1 hs').resolve_right (by rw [hs]; nofun)
    exact congrArg (Option.bind · Scope.parent) (Arena.get?_alloc_self p.scopes _)
  params s hs name entry hl := by
    change ((p.scopes.alloc { parent := some scope }).2.get s).local? name = _ at hl
    rw [Arena.get_alloc] at hl
    split at hl
    · cases hl
    · rw [Arena.get_of_not_contains hs] at hl
      cases hl

/-- A parameter may be declared in a scope that was opened. -/
theorem declare {body : ScopeId} {func : FuncId} {index : Nat} (h : Opens scope p q)
    (hbody : p.scopes.contains body = false)
    (hr : q.declare body name (.param func index) = .ok r) : Opens scope p r where
  size := (SameBeyond.declare hr).size ▸ h.size
  old s hs := by
    rw [(SameBeyond.declare hr).other s, h.old s hs]
    rintro rfl
    cases hs.symm.trans hbody
  inside s hs hs' := by
    rw [(SameBeyond.declare hr).outer s]
    exact h.inside s hs ((SameBeyond.declare hr).contains s ▸ hs')
  params s hs k entry hl := by
    by_cases hsb : s = body
    · unfold Program.declare at hr
      split at hr
      · cases hr
      · rename_i t ht
        cases hr
        change ((q.scopes.modify body fun _ => t).get s).local? k = _ at hl
        rw [Arena.get_modify] at hl
        split at hl
        · rw [Scope.local?_declare ht] at hl
          split at hl
          · cases hl
            exact ⟨func, index, rfl⟩
          · exact h.params body hbody k entry hl
        · exact h.params s hs k entry hl
    · have hother : r.scopeAt s = q.scopeAt s := by
        rw [scopeAt, Arena.get, (SameBeyond.declare hr).other s hsb, scopeAt, Arena.get]
      rw [hother] at hl
      exact h.params s hs k entry hl

/-- What is found among the scopes that were there before is found there again. -/
theorem foundAt (h : Opens scope p q) (hn : p.FoundAt name entry n s) :
    q.FoundAt name entry n s := by
  induction hn with
  | here hl => exact .here (h.scopeAt_old (contains_of_local? hl) ▸ hl)
  | beyond hnone ho _ ih =>
    have hc := contains_of_outer? ho
    exact .beyond (h.scopeAt_old hc ▸ hnone) ((h.outer?_old hc).trans ho) ih

/-- A constant is found where it was, unless the way leads through `scope` again. -/
theorem foundAt_constant {text : String} (h : Opens scope p q) (hs : p.scopes.contains s = true)
    (hn : q.FoundAt name (.constant text) n s) :
    p.FoundAt name (.constant text) n s ∨ ∃ k < n, q.FoundAt name (.constant text) k scope := by
  induction n generalizing s with
  | zero =>
    cases hn with
    | here hl => exact .inl (.here (h.scopeAt_old hs ▸ hl))
  | succ n ih =>
    cases hn with
    | @beyond _ _ outer hnone ho hn =>
      rw [h.scopeAt_old hs] at hnone
      rw [h.outer?_old hs] at ho
      cases hc : p.scopes.contains outer with
      | true =>
        rcases ih hc hn with hp | ⟨k, hk, hq⟩
        · exact .inl (.beyond hnone ho hp)
        · exact .inr ⟨k, Nat.lt_succ_of_lt hk, hq⟩
      | false =>
        -- the scope around is an opened one, which knows no constant and lies in `scope`
        cases hn with
        | here hl =>
          obtain ⟨func, index, he⟩ := h.params outer hc _ _ hl
          cases he
        | @beyond k _ _ _ ho' hn =>
          rw [h.inside outer hc (contains_of_outer? ho')] at ho'
          cases ho'
          exact .inr ⟨k, by omega, hn⟩

theorem lookup_constant_iff {text : String} (h : Opens scope p q)
    (hs : p.scopes.contains scope = true) :
    q.lookup scope name = some (.constant text) ↔ p.lookup scope name = some (.constant text) := by
  rw [lookup_eq_some_iff, lookup_eq_some_iff]
  constructor
  · rintro ⟨n, hn⟩
    rcases h.foundAt_constant hs hn with hp | ⟨k, hk, hq⟩
    · exact ⟨n, hp⟩
    · rw [hn.unique hq] at hk
      exact absurd hk (Nat.lt_irrefl _)
  · rintro ⟨n, hn⟩
    exact ⟨n, h.foundAt hn⟩

end Opens

end ObjcBinding.Program
