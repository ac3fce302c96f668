import ObjcBinding.Proofs.InternedNames
import ObjcBinding.Proofs.Steps.Outcome

/-!
# The handles of a selector table

Whatever is asked of a new selector table, its handles and the pairs of a text and a number of
arguments that it was asked for correspond to each other. The calls that were answered, in order
and with their handles, tell the whole table: each handle stands, then and later, for the pair of
its call, and the table lists the handles in the order in which they were first given out.

* `Selector.Call.run_outcome`: an answered call has interned its pair, any other one has changed
  nothing;
* `Selector.Kept`: what the answered calls tell of the table, kept by every call;
* `selectorTable_bijective`: the handles and the pairs correspond, through all later calls.
-/

namespace ObjcBinding

open Resolve

namespace Selector

/-! ## Calls -/

/-- What can be asked of a selector table. -/
inductive Call where
  /-- The handle of a text as it is. -/
  | intern (text : String) (arity : Nat)
  /-- The handle of a text that has to follow the grammar. -/
  | lookup (text : String) (span : Span)
  /-- The handle of the selector that a function's signature gives. -/
  | create (program : Program) (func : FuncId)

/-- The step that a call stands for. -/
def Call.run : Call → Resolve Selector
  | intern text arity => internSelector text arity
  | lookup text span => lookupSelector text span
  | create p func => do
    updateProgram fun _ => p
    deriveSelector func

/-- The pair of a text that follows the grammar, with one argument for each colon. -/
def wellFormed? (text : String) : Option Entry :=
  if (Selector.arity text).isOk then some ⟨text, text.toList.count ':'⟩ else none

/-- The pair that a call is for; none if its text does not follow the grammar. -/
def Call.pair? : Call → Option Entry
  | intern text arity => some ⟨text, arity⟩
  | lookup text _ => wellFormed? text
  | create p func => wellFormed? (p.derivedSelector func)

theorem wellFormed?_of_ok {text : String} {n : Nat} (h : Selector.arity text = .ok n) :
    wellFormed? text = some ⟨text, n⟩ := by
  rw [wellFormed?, h, arity_eq_count h]
  rfl

theorem wellFormed?_of_error {text : String} {fault : Fault}
    (h : Selector.arity text = .error fault) : wellFormed? text = none := by
  rw [wellFormed?, h]
  rfl

/-- From `c`, the call for `entry` gives the handle of the entry's pair, interned now if it is
new; without an entry it fails, and the table stays. -/
def Serves (x : Resolve Selector) (c : Compilation) (entry : Option Entry) : Prop :=
  Outcome x c
    (fun s d => ∃ e, entry = some e ∧
      c.session.selectors.intern e.text e.arity = (s, d.session.selectors))
    fun _ d => entry = none ∧ d.session.selectors = c.session.selectors

theorem adopt_serves (text : String) (arity : Nat) (c : Compilation) :
    Serves
      (adopt (c.session.selectors.intern text arity).1 (c.session.selectors.intern text arity).2)
      c (some ⟨text, arity⟩) := by
  unfold Serves adopt
  simp only [outcome_bind, outcome_selectors]
  split
  · simp only [outcome_bind, outcome_say, outcome_modify, outcome_pure]
    exact ⟨_, rfl, rfl⟩
  · simp only [outcome_bind, outcome_modify, outcome_pure]
    exact ⟨_, rfl, rfl⟩

theorem lookupSelector_serves (text : String) (span : Span) (c : Compilation) :
    Serves (lookupSelector text span) c (wellFormed? text) := by
  unfold Serves lookupSelector Table.lookup
  simp only [outcome_bind, outcome_selectors]
  cases ha : Selector.arity text with
  | error fault => exact ⟨wellFormed?_of_error ha, rfl⟩
  | ok n =>
    rw [wellFormed?_of_ok ha]
    exact adopt_serves text n c

theorem Call.run_outcome (call : Call) (c : Compilation) : Serves call.run c call.pair? := by
  cases call with
  | intern text arity => exact outcome_bind.2 (outcome_selectors.2 (adopt_serves text arity c))
  | lookup text span => exact lookupSelector_serves text span c
  | create p func =>
    exact outcome_bind.2 (outcome_updateProgram.2
      (outcome_bind.2 (outcome_program.2 (lookupSelector_serves ..))))

/-! ## Sequences of calls -/

/-- The calls that were answered so far, in order and each with its handle, and the compilation
they leave behind. -/
structure Ledger where
  answered : List (Call × Selector)
  compilation : Compilation

namespace Ledger

/-- The table as the calls leave it. -/
def table (l : Ledger) : Table := l.compilation.session.selectors

/-- Makes one more call. -/
def call (l : Ledger) (call : Call) : Ledger :=
  match call.run l.compilation with
  | .ok s d => ⟨l.answered ++ [(call, s)], d⟩
  | .error _ d => ⟨l.answered, d⟩

/-- The ledger of calls that are made one after another from `c`. -/
def ofCalls (calls : List Call) (c : Compilation) : Ledger := calls.foldl Ledger.call ⟨[], c⟩

/-- A call that is answered enters the ledger; any other one leaves the table as it was. -/
theorem call_cases (l : Ledger) (call : Call) :
    (∃ s e, (l.call call).answered = l.answered ++ [(call, s)] ∧ call.pair? = some e ∧
      l.table.intern e.text e.arity = (s, (l.call call).table)) ∨
    (l.call call).answered = l.answered ∧ (l.call call).table = l.table := by
  have h := call.run_outcome l.compilation
  unfold Ledger.call
  unfold Serves Outcome at h
  cases hx : call.run l.compilation with
  | ok s d =>
    rw [hx] at h
    obtain ⟨e, he, ht⟩ := h
    exact .inl ⟨s, e, rfl, he, ht⟩
  | error err d =>
    rw [hx] at h
    exact .inr ⟨rfl, h.2⟩

theorem answered_subset (l : Ledger) (later : List Call) :
    l.answered ⊆ (later.foldl Ledger.call l).answered := by
  induction later generalizing l with
  | nil => exact List.Subset.refl _
  | cons call later ih =>
    refine List.Subset.trans ?_ (ih (l.call call))
    rcases l.call_cases call with ⟨s, e, ha, -⟩ | ⟨ha, -⟩
    · exact ha ▸ List.subset_append_left ..
    · exact ha ▸ List.Subset.refl _

end Ledger

/-! ## What the answered calls tell of the table -/

/-- Every answered call has a pair, for which its handle stands; the handles of the answered calls
are those of the table, in order of first appearance. -/
structure Kept (l : Ledger) : Prop where
  stands (call : Call) (s : Selector) : (call, s) ∈ l.answered →
    ∃ e, call.pair? = some e ∧ l.table.get? s = some e
  listed : l.table.handles = (l.answered.map Prod.snd).eraseDups

namespace Kept

variable {l : Ledger}

theorem start {c : Compilation} (h : c.session.selectors = .empty) : Kept ⟨[], c⟩ where
  stands _ _ hm := nomatch hm
  listed := by
    rw [Ledger.table, h]
    rfl

theorem call (h : Kept l) (call : Call) : Kept (l.call call) := by
  rcases l.call_cases call with ⟨s, e, hanswered, he, ht⟩ | ⟨hanswered, ht⟩
  · have htable : (l.call call).table = (l.table.intern e.text e.arity).2 := by rw [ht]
    have hs : s = (l.table.intern e.text e.arity).1 := by rw [ht]
    constructor
    · intro earlier s' hm
      rw [hanswered, List.mem_append, List.mem_singleton, Prod.mk.injEq] at hm
      rw [htable]
      rcases hm with hm | ⟨rfl, rfl⟩
      · obtain ⟨e', he', hget⟩ := h.stands earlier s' hm
        exact ⟨e', he', Table.get?_intern_of_some hget e.text e.arity⟩
      · exact ⟨e, he, hs ▸ l.table.get?_intern e.text e.arity⟩
    · rw [htable, hanswered, List.map_append, List.map_singleton, eraseDups_concat, ← h.listed,
        hs, Table.handles_intern]
  · constructor
    · rw [hanswered, ht]
      exact h.stands
    · rw [hanswered, ht]
      exact h.listed

theorem calls (h : Kept l) (calls : List Call) : Kept (calls.foldl Ledger.call l) := by
  induction calls generalizing l with
  | nil => exact h
  | cons call calls ih => exact ih (h.call call)

/-- A pair is found under exactly the handle of the calls for it. -/
theorem find?_iff (h : Kept l) {text : String} {arity : Nat} {s : Selector} :
    l.table.find? text arity = some s ↔
      ∃ call, (call, s) ∈ l.answered ∧ call.pair? = some ⟨text, arity⟩ := by
  rw [Table.find?_eq_some_iff]
  constructor
  · intro hget
    have hm : s ∈ (l.answered.map Prod.snd).eraseDups :=
      h.listed ▸ Table.mem_handles_iff_get?.2 ⟨_, hget⟩
    obtain ⟨⟨call, s'⟩, hcall, rfl⟩ := List.mem_map.1 (List.mem_eraseDups.1 hm)
    obtain ⟨e, he, hget'⟩ := h.stands call s' hcall
    exact ⟨call, hcall, he.trans (hget'.symm.trans hget)⟩
  · rintro ⟨call, hcall, he⟩
    obtain ⟨e, he', hget⟩ := h.stands call s hcall
    rw [hget, ← he', he]

/-- Two calls have one handle exactly if they are for one pair. -/
theorem handle_eq_iff (h : Kept l) {a b : Call × Selector} (ha : a ∈ l.answered)
    (hb : b ∈ l.answered) : a.2 = b.2 ↔ a.1.pair? = b.1.pair? := by
  obtain ⟨e, hae, hget⟩ := h.stands a.1 a.2 ha
  obtain ⟨e', hbe, hget'⟩ := h.stands b.1 b.2 hb
  rw [hae, hbe]
  constructor
  · intro heq
    rw [← hget, ← hget', heq]
  · intro heq
    rw [heq] at hget
    exact Option.some.inj
      ((Table.find?_eq_some_iff.2 hget).symm.trans (Table.find?_eq_some_iff.2 hget'))

end Kept

end Selector

open Selector in
/-- For any calls to a new selector table: two answered calls have one handle exactly if they are
for the same text and number of arguments; such a pair is found under a handle exactly if a call
for it was answered with that handle; each handle gives back the text, its length and the number
of arguments, also after any later calls; the table lists the handles in the order in which they
were first given out, each once; and a call fails only if its text does not follow the grammar,
and then leaves the table as it is. -/
theorem selectorTable_bijective {c : Compilation} (hnew : c.session.selectors = .empty)
    (calls : List Call) :
    let l := Ledger.ofCalls calls c
    (∀ a ∈ l.answered, ∀ b ∈ l.answered, a.2 = b.2 ↔ a.1.pair? = b.1.pair?) ∧
    (∀ text arity s, l.table.find? text arity = some s ↔
      ∃ call, (call, s) ∈ l.answered ∧ call.pair? = some ⟨text, arity⟩) ∧
    (∀ later call s, (call, s) ∈ l.answered →
      let t := (Ledger.ofCalls (calls ++ later) c).table
      ∃ e, call.pair? = some e ∧ t.text s = e.text ∧
        t.textLength s = e.text.utf8ByteSize ∧ t.arity s = e.arity) ∧
    l.table.handles = (l.answered.map Prod.snd).eraseDups ∧ l.table.handles.Nodup ∧
    l.table.size = l.table.handles.length ∧
    ∀ call : Call, match call.run l.compilation with
      | .ok _ _ => call.pair?.isSome
      | .error _ d => call.pair? = none ∧ d.session.selectors = l.table := by
  intro l
  have hl : Kept l := (Kept.start hnew).calls calls
  refine ⟨fun a ha b hb => hl.handle_eq_iff ha hb, fun _ _ _ => hl.find?_iff, ?_, hl.listed, ?_, ?_,
    ?_⟩
  · intro later call s hm t
    have hlater : Kept (Ledger.ofCalls (calls ++ later) c) := (Kept.start hnew).calls _
    have hm' : (call, s) ∈ (Ledger.ofCalls (calls ++ later) c).answered := by
      rw [Ledger.ofCalls, List.foldl_append]
      exact l.answered_subset later hm
    obtain ⟨e, he, hget⟩ := hlater.stands call s hm'
    exact ⟨e, he, Table.text_of_get? hget, Table.textLength_of_get? hget,
      Table.arity_of_get? hget⟩
  · exact List.Pairwise.map _ (fun _ _ hne he => hne (congrArg Selector.id he)) List.nodup_range
  · rw [Table.handles, List.length_map, List.length_range]
  · intro call
    have h := call.run_outcome l.compilation
    unfold Serves Outcome at h
    cases hx : call.run l.compilation with
    | ok s d =>
      rw [hx] at h
      obtain ⟨e, he, -⟩ := h
      exact he ▸ rfl
    | error err d =>
      rw [hx] at h
      exact h

/-- A function `init` without parameters. -/
def initProgram : Program :=
  (({} : Program).addFunction { name := ⟨2⟩, params := [], span := .point 0 1 1 }).2

/-- One text with two numbers of arguments, looked up, derived, and a text that is no selector. -/
def mixedCalls : List Selector.Call :=
  [.intern "at:" 2, .lookup "at:" (.point 0 1 1), .lookup "at" (.point 0 2 1),
    .lookup "at:put" (.point 0 3 1), .create initProgram ⟨0⟩, .intern "at:" 1, .intern "init" 0]

open Selector in
theorem selectorTable_bijective_mixed :
    let l := Ledger.ofCalls mixedCalls (.new .functional false)
    l.answered.map Prod.snd = [⟨0⟩, ⟨1⟩, ⟨2⟩, ⟨3⟩, ⟨1⟩, ⟨3⟩] ∧
      l.table.handles = (l.answered.map Prod.snd).eraseDups :=
  ⟨by decide +kernel, (selectorTable_bijective rfl _).2.2.2.1⟩

end ObjcBinding
