import ObjcBinding.Proofs.HalfBound
import ObjcBinding.Proofs.MetaclassMirror
import ObjcBinding.Proofs.Steps.ScopeFrame

/-!
# Metaclasses that scopes know

A scope may show the metaclass that was made for a class, or know it from a scope around. Under the
name of a metaclass a scope shows nothing else, so that two classes of one name compete for it.
What a scope shows is kept, and more is shown only of classes whose metaclasses are resolved.

* `Onward.shown_of_local`: under the name of a metaclass a scope shows the metaclass of a class;
* `Onward.eq_of_shows`: of two classes of one name, a scope knows the one that it shows;
* `Onward.shows_or_old`: what a scope knows and does not show was known there from the beginning;
* `Onward.gains`: which classes are paired and shown by a resolution.
-/

namespace ObjcBinding

namespace Program

/-- The scope itself shows the metaclass that was made for the class. -/
def Shows (p : Program) (scope : ScopeId) (cls : ClassId) : Prop :=
  ∃ m, p.Owns cls m ∧ (p.scopeAt scope).local? (p.classAt m).name = some (.classDecl m)

/-- The metaclass that was made for the class, if it was, is found from the scope. -/
def Knows (p : Program) (scope : ScopeId) (cls : ClassId) : Prop :=
  ∀ m, p.Owns cls m → p.lookup scope (p.classAt m).name = some (.classDecl m)

/-- Every name in `q` is one in `p`, or that of the metaclass of a class that is bound in `p`. -/
def NamesFrom (p q : Program) : Prop :=
  ∀ t ∈ q.names.texts.toList, t ∈ p.names.texts.toList ∨
    ∃ x, p.HasRole x .ordinary ∧ t = metaclassSymbol (p.className x)

/-- Each bound class accounts for at most one name. -/
theorem NamesFrom.size_le {p q : Program} (h : p.NamesFrom q) :
    q.names.size ≤ p.names.size + p.classes.size := by
  have hsub : q.names.texts.toList ⊆ p.names.texts.toList ++
      p.classes.handles.map fun x => metaclassSymbol (p.className x) := by
    intro t ht
    rw [List.mem_append]
    refine (h t ht).imp_right ?_
    rintro ⟨x, ho, rfl⟩
    exact List.mem_map_of_mem (Arena.mem_handles.2 (contains_of_hasRole ho))
  have hle := (List.subperm_of_subset q.names.nodup hsub).length_le
  simpa [Arena.handles, Interner.size] using hle

end Program

open Program

variable {b c d : Compilation} {deed : Deed} {scope : ScopeId} {x z m : ClassId}

/-! ## Changes -/

theorem Change.names_cases (h : Change deed c d) {t : String}
    (ht : t ∈ d.program.names.texts.toList) :
    t ∈ c.program.names.texts.toList ∨ deed = .intern t ∨
      ∃ x, deed = .pair x ∧ t = metaclassSymbol (c.program.className x) := by
  cases h with
  | intern text =>
    refine (Interner.mem_texts_intern ht).imp_right ?_
    rintro rfl
    exact .inl rfl
  | declare _ _ _ h =>
    obtain ⟨scopes, rfl⟩ := scopes_of_declare h
    exact .inl ht
  | @synthesize _ cls =>
    exact (Interner.mem_texts_intern ht).imp_right fun he => .inr ⟨cls, rfl, he⟩
  | @orphan _ cls => exact (Interner.mem_texts_intern ht).imp_right fun he => .inr ⟨cls, rfl, he⟩
  | _ => exact .inl ht

theorem Program.local?_none_of_declare {p q : Program} {scope : ScopeId} {name : Symbol}
    {entry : ScopeEntry} (h : p.declare scope name entry = .ok q) :
    (p.scopeAt scope).local? name = none := by
  cases hl : (p.scopeAt scope).local? name with
  | none => rfl
  | some existing =>
    rw [declare, Scope.declare_eq_error_iff.2 hl] at h
    cases h

theorem Program.local?_of_declare_of_some {p q : Program} {scope other : ScopeId}
    {name k : Symbol} {entry found : ScopeEntry} (h : p.declare scope name entry = .ok q)
    (hl : (p.scopeAt other).local? k = some found) :
    (q.scopeAt other).local? k = some found := by
  rw [local?_declare h, if_neg, hl]
  rintro ⟨⟨rfl, -⟩, rfl⟩
  cases (local?_none_of_declare h).symm.trans hl

/-- What a scope shows is kept. -/
theorem Change.local?_of_some (h : Change deed c d) {name : Symbol} {entry : ScopeEntry}
    (hl : (c.program.scopeAt scope).local? name = some entry) :
    (d.program.scopeAt scope).local? name = some entry := by
  cases h with
  | addScope parent => exact (local?_addScope c.program parent scope name).trans hl
  | declare _ _ _ h => exact local?_of_declare_of_some h hl
  | _ => exact hl

theorem Trail.local?_of_some {permits : Compilation → Deed → Prop} (h : Trail permits c d)
    {name : Symbol} {entry : ScopeEntry}
    (hl : (c.program.scopeAt scope).local? name = some entry) :
    (d.program.scopeAt scope).local? name = some entry :=
  h.invariant (fun _ _ _ _ hstep hl => hstep.local?_of_some hl) hl

/-! ## Sessions that may go on -/

/-- What holds at all times of a sane run, whether or not names are used twice. -/
structure Compilation.Anchored (c : Compilation) : Prop where
  steady : c.Steady
  reflects : c.Reflects
  layered : c.program.Layered
  above : c.session.aborted = false → c.program.PairedAbove
  symbols : c.program.names.size ≤ Symbol.placeholder.id → c.program.SymbolsReserved

theorem Event.Sane.authored {p : Program} {e : Event} (h : Event.Sane p e) :
    Event.Authored p e := by
  obtain ⟨hu, hh, hw⟩ := h
  refine ⟨hu, hh, ?_⟩
  cases e with
  | grow g =>
    cases g with
    | addClass d => exact hw
    | _ => trivial
  | run op => trivial

namespace Compilation.Anchored

theorem change (h : c.Anchored) (hp : Decent c deed) (hstep : Change deed c d) : d.Anchored where
  steady := h.steady.change hp hstep
  reflects := h.reflects.change hstep
  layered := hstep.layered h.layered
  above := fun hd =>
    have hc := hstep.extends.running hd
    hstep.pairedAbove hd h.layered (h.reflects.linked hc) (h.above hc)
  symbols := fun hroom => hstep.symbolsReserved hp h.steady.named hroom
    (h.symbols (Nat.le_trans hstep.extends.program.names_size_le hroom))

theorem grow (h : c.Anchored) {g : Growth} (hg : Event.Sane c.program (.grow g)) :
    ({ c with program := g.apply c.program } : Compilation).Anchored where
  steady := h.steady.grow hg
  reflects := h.reflects.grow hg.authored
  layered := Growth.layered hg.1 h.layered
  above := fun ha => Growth.pairedAbove hg.1 (h.above ha)
  symbols := fun hroom => Growth.symbolsReserved hg.2.2 h.steady.named hroom
    (h.symbols (Nat.le_trans (g.apply_extends _).names_size_le hroom))

open Run in
theorem of_start (renders : Bool) : (Compilation.new .functional renders).Anchored where
  steady := .of_start renders
  reflects := .of_start renders
  layered := .of_unbound (info_new renders)
  above := by
    rintro - x ⟨m, hm⟩
    rw [pairing, info_new] at hm
    cases hm
  symbols := by
    intro _ scope name entry hl
    rw [scopeAt, Arena.get_of_not_contains rfl] at hl
    cases hl

end Compilation.Anchored

theorem Run.anchored {past : List Compilation} (h : Run Event.Sane past c) : c.Anchored := by
  induction h with
  | start renders => exact .of_start renders
  | @step past c e h he ih =>
    cases e with
    | grow g => exact ih.grow he
    | run op =>
      obtain ⟨hf, hl⟩ := h.functional fun _ _ he => he.1
      exact (op.phases hf hl).steps (fun _ _ _ hp hstep hc => hc.change hp hstep) ih

/-! ## Going on from a session -/

/-- The session goes on, no two headers name one metaclass, and there is room for the names of
all metaclasses. -/
structure Compilation.Open (b : Compilation) : Prop where
  anchored : b.Anchored
  running : b.session.aborted = false
  apart : b.program.HeadersApart
  room : b.program.names.size + b.program.classes.size < Symbol.placeholder.id

/-- From `b` on metaclasses have been resolved, and the session goes on in `c`. -/
structure Onward (b c : Compilation) : Prop where
  base : b.Open
  anchored : c.Anchored
  running : c.session.aborted = false
  apart : c.program.HeadersApart
  extension : b.program.Extends c.program
  ordinary (x : ClassId) : c.program.HasRole x .ordinary → b.program.HasRole x .ordinary
  names : b.program.NamesFrom c.program

theorem Resolving.decent {start : Program} {within : Compilation → ClassId → Prop}
    (h : Resolving start within c deed) : Decent c deed := by
  cases deed with
  | abort => exact h
  | declare =>
    obtain ⟨x, -, hx⟩ := h
    exact .inl hx.declares
  | _ => trivial

namespace Onward

theorem refl (h : b.Open) : Onward b b where
  base := h
  anchored := h.anchored
  running := h.running
  apart := h.apart
  extension := .refl _
  ordinary _ ho := ho
  names _ ht := .inl ht

theorem room (h : Onward b c) : c.program.names.size < Symbol.placeholder.id :=
  Nat.lt_of_le_of_lt h.names.size_le h.base.room

theorem className_eq (h : Onward b c) (hx : b.program.HasRole x .ordinary) :
    c.program.className x = b.program.className x :=
  h.base.anchored.steady.named.className_eq h.extension (Nat.le_of_lt h.room)
    (contains_of_hasRole hx)

theorem change (h : Onward b c) {start : Program} {within : Compilation → ClassId → Prop}
    (hp : Resolving start within c deed) (hstep : Change deed c d)
    (hd : d.session.aborted = false) : Onward b d where
  base := h.base
  anchored := h.anchored.change hp.decent hstep
  running := hd
  apart := hstep.headersApart_iff.2 h.apart
  extension := h.extension.trans hstep.extends.program
  ordinary x ho := h.ordinary x ((hstep.ordinary_of_ordinary ho).resolve_right hp.ne_mark)
  names := by
    intro t ht
    rcases hstep.names_cases ht with hold | rfl | ⟨x, rfl, rfl⟩
    · exact h.names t hold
    · exact hp.elim
    · have ho := h.ordinary x hstep.pair_was_ordinary
      exact .inr ⟨x, ho, by rw [h.className_eq ho]⟩

theorem trail (h : Onward b c) {start : Program} {within : Compilation → ClassId → Prop}
    (ht : Trail (Resolving start within) c d) (hd : d.session.aborted = false) : Onward b d :=
  ht.invariant (I := fun d => d.session.aborted = false → Onward b d)
    (fun _ _ _ hp hstep ih he => (ih (hstep.extends.running he)).change hp hstep he)
    (fun _ => h) hd

/-- What was above a class when it was bound is all that is ever above it. -/
theorem atOrAbove (h : Onward b c) (hx : c.program.AtOrAbove x z) : b.program.AtOrAbove x z := by
  refine hx.imp_right fun hx => Relation.TransGen.mono (fun y w hyw => ?_) _ _ hx
  have ho := h.ordinary y hyw.1
  exact ⟨ho, (h.extension.isParent_iff (contains_of_hasRole ho)).1 hyw.2⟩

/-! ## Pairs -/

theorem linked (h : Onward b c) : c.program.PairsLinked := h.anchored.reflects.linked h.running

theorem pairsMutual (h : Onward b c) : c.program.PairsMutual :=
  h.linked.pairsMutual h.apart.unique

theorem mirrors (h : Onward b c) (ho : c.program.Owns x m) : c.program.Mirrors x m :=
  h.anchored.reflects.mirrors h.running h.apart (Nat.le_of_lt h.room) x m ho

/-- A class whose other half was made owns it. -/
theorem owns_of_synthesized (h : Onward b c)
    (hp : c.program.pairing x = some (.ordinary, some m))
    (hs : (c.program.classAt m).synthesized = true) : c.program.Owns x m := by
  obtain ⟨cls, ho⟩ := h.anchored.reflects.owned h.running m hs
  rwa [h.pairsMutual.unique x cls m hp ho.pairing]

/-- Metaclasses of classes of one name have one name. -/
theorem name_eq (h : Onward b c) {m' : ClassId} (hx : c.program.Owns x m)
    (hz : c.program.Owns z m') (hname : c.program.className x = c.program.className z) :
    (c.program.classAt m).name = (c.program.classAt m').name := by
  have hm := (h.mirrors hx).name
  have hm' := (h.mirrors hz).name
  rw [hname] at hm
  exact Option.some_inj.1
    ((Interner.find?_eq_some_iff.2 hm).symm.trans (Interner.find?_eq_some_iff.2 hm'))

/-! ## What scopes show -/

/-- Under the name of a metaclass a scope shows the metaclass of a class that has the name. -/
theorem shown_of_local (h : Onward b c) {name : Symbol} {entry : ScopeEntry} {t : String}
    (hl : (c.program.scopeAt scope).local? name = some entry)
    (hname : c.program.names.resolve name = some (metaclassSymbol t)) :
    ∃ z m, entry = .classDecl m ∧ c.program.Owns z m ∧ (c.program.classAt m).name = name ∧
      c.program.className z = t := by
  obtain ⟨m, rfl, hs, hm⟩ :=
    h.anchored.symbols (Nat.le_of_lt h.room) scope name entry hl t hname
  obtain ⟨z, ho⟩ := h.anchored.reflects.owned h.running m hs
  refine ⟨z, m, rfl, ho, hm, ?_⟩
  have htext := (h.mirrors ho).name
  rw [hm, hname, Option.some_inj] at htext
  exact (metaclassSymbol_inj.1 htext).symm

/-- Where the name for a metaclass is in use, the metaclass of a class of that name is shown. -/
theorem shown_of_intern (h : Onward b c) {t : String} {entry : ScopeEntry}
    (hl : (c.program.scopeAt scope).local? (c.program.intern (metaclassSymbol t)).1 =
      some entry) : ∃ z, c.program.Shows scope z ∧ c.program.className z = t := by
  have hroom : (c.program.intern (metaclassSymbol t)).2.names.size ≤ Symbol.placeholder.id :=
    Nat.le_trans (c.program.names.size_intern_le _) h.room
  have hname := (h.anchored.steady.named.scopes _ _ _ hl).resolve_eq
    (extends_intern c.program _) hroom
  rw [c.program.resolve_intern] at hname
  obtain ⟨z, m, rfl, ho, hm, ht⟩ := h.shown_of_local hl hname.symm
  exact ⟨z, ⟨m, ho, by rw [hm, hl]⟩, ht⟩

/-- Of two classes of one name, a scope knows the one that it shows. -/
theorem eq_of_shows (h : Onward b c) (hk : c.program.Knows scope x) (hx : c.program.Owns x m)
    (hz : c.program.Shows scope z) (hname : c.program.className z = c.program.className x) :
    z = x := by
  obtain ⟨m', hz, hl⟩ := hz
  have hlookup := hk m hx
  rw [h.name_eq hx hz hname.symm, lookup_of_local? hl] at hlookup
  cases hlookup
  exact h.pairsMutual.unique z x m hz.pairing hx.pairing

/-- What a scope knows and does not show was known from a scope around from the beginning. -/
theorem shows_or_old (h : Onward b c) (hs : b.program.SameBeyond scope c.program)
    (hk : c.program.Knows scope x) (hx : c.program.Owns x m) :
    c.program.Shows scope x ∨ b.program.Owns x m ∧
      (c.program.scopeAt scope).local? (c.program.classAt m).name = none := by
  rcases lookup_cases (hk m hx) with hl | ⟨hnone, s, hne, hl⟩
  · exact .inl ⟨m, hx, hl⟩
  · refine .inr ⟨?_, hnone⟩
    have hlb : (b.program.scopeAt s).local? (c.program.classAt m).name = some (.classDecl m) := by
      rw [← SameBeyond.get?_local, ← hs.other s hne, SameBeyond.get?_local, hl]
    have hname := (h.mirrors hx).name
    rw [(h.base.anchored.steady.named.scopes _ _ _ hlb).resolve_eq h.extension
      (Nat.le_of_lt h.room)] at hname
    obtain ⟨z, m', he, hz, -⟩ := (refl h.base).shown_of_local hlb hname
    cases he
    rwa [h.pairsMutual.unique x z m hx.pairing (hz.of_extends h.extension).pairing]

theorem shows_of_trail (h : Onward b c) {permits : Compilation → Deed → Prop}
    (ht : Trail permits c d) (hz : c.program.Shows scope z) : d.program.Shows scope z := by
  obtain ⟨m, ho, hl⟩ := hz
  have hm := contains_of_synthesized (h.mirrors ho).synthesized
  refine ⟨m, ho.of_extends ht.extends.program, ?_⟩
  rw [ht.extends.program.name hm]
  exact ht.local?_of_some hl

/-- More is shown only of classes whose metaclasses are resolved. -/
theorem shows_of_change (h : Onward b c) {start : Program}
    {within : Compilation → ClassId → Prop} (hp : Resolving start within c deed)
    (hstep : Change deed c d) (hd : Onward b d) (hz : d.program.Shows scope z) :
    c.program.Shows scope z ∨ within c z := by
  have hext := hstep.extends.program
  obtain ⟨m, ho, hl⟩ := hz
  rcases hstep.local?_cases hl with hold | rfl
  · have hname := (hd.mirrors ho).name
    rw [(h.anchored.steady.named.scopes _ _ _ hold).resolve_eq hext (Nat.le_of_lt hd.room)] at hname
    obtain ⟨z', m', he, ho', hm, -⟩ := h.shown_of_local hold hname
    cases he
    obtain rfl := hd.pairsMutual.unique z' z m (hext.pairing_eq ho'.pairing) ho.pairing
    exact .inl ⟨m, ho', by rw [hm, hold]⟩
  · obtain ⟨y, hy, m', he, -, -, hpair⟩ := hp
    cases he
    obtain rfl := hd.pairsMutual.unique y z m (hext.pairing_eq hpair) ho.pairing
    exact .inr hy

/-- Only classes whose metaclasses are resolved come to be paired or shown. -/
theorem gains (h : Onward b c) (scope : ScopeId) {start : Program}
    {within : Compilation → ClassId → Prop} (ht : Trail (Resolving start within) c d)
    (hd : d.session.aborted = false) {W : ClassId → Prop}
    (hW : ∀ k y, Onward b k → within k y → W y) :
    (∀ y, d.program.IsPaired y → c.program.IsPaired y ∨ W y) ∧
      ∀ y, d.program.Shows scope y → c.program.Shows scope y ∨ W y := by
  refine (ht.invariant (I := fun d => d.session.aborted = false → Onward b d ∧
    (∀ y, d.program.IsPaired y → c.program.IsPaired y ∨ W y) ∧
      ∀ y, d.program.Shows scope y → c.program.Shows scope y ∨ W y) ?_
    (fun _ => ⟨h, fun _ => .inl, fun _ => .inl⟩) hd).2
  intro d e deed hp hstep ih he
  obtain ⟨hd, hpaired, hshown⟩ := ih (hstep.extends.running he)
  have honward := hd.change hp hstep he
  refine ⟨honward, fun y hy => ?_, fun y hy => ?_⟩
  · by_cases hold : d.program.IsPaired y
    · exact hpaired y hold
    · obtain ⟨m, hm⟩ := hy
      obtain rfl := hstep.pair_of_new (fun he => hold ⟨m, he⟩) hm
      exact .inr (hW d y hd hp.1)
  · rcases hd.shows_of_change hp hstep honward hy with hold | hnew
    · exact hshown y hold
    · exact .inr (hW d y hd hnew)

end Onward

end ObjcBinding
