import ObjcBinding.Proofs.MutualPairs
import ObjcBinding.Proofs.Source

/-!
# Sessions that go on

Only bindings that contradict themselves end a session, and sane declarations give rise to none:
two classes of one name would share the name of their metaclass, two headers that name one
metaclass would break a pair, and a name with the prefix of metaclasses could be taken before the
metaclass is made. Without these, names with that prefix mean metaclasses only, in every scope.

* `Consistent.not_corrupt`: consistent bindings do not contradict themselves;
* `Consistent.of_extends`: they stay consistent when declarations are added and bound;
* `not_aborted_of_sane`: no step of a sane run ends the session.
-/

namespace ObjcBinding

/-! ## Names -/

namespace Program

/-- The name is interned, or it is that of a declaration without a name. -/
def Issued (p : Program) (name : Symbol) : Prop :=
  (p.names.resolve name).isSome = true ∨ name = .placeholder

instance (p : Program) : DecidablePred p.Issued := fun _ => inferInstanceAs (Decidable (_ ∨ _))

/-- The classes that were written; the others are metaclasses made by the compiler. -/
def written (p : Program) : List ClassId :=
  p.classes.handles.filter fun x => !(p.classAt x).synthesized

instance (p : Program) (cls m : ClassId) : Decidable (p.HeaderNames cls m) :=
  inferInstanceAs (Decidable (_ ∧ _))

/-- The written classes are shown under different names, no two headers name one metaclass, and
the placeholder has not become the symbol of a text. -/
structure Tame (p : Program) : Prop where
  room : p.names.size < Symbol.placeholder.id
  names : ∀ x ∈ p.written, ∀ y ∈ p.written, p.className x = p.className y → x = y
  headers : ∀ x ∈ p.classes.handles, ∀ y ∈ p.classes.handles, ∀ m ∈ p.classes.handles,
    p.HeaderNames x m → p.HeaderNames y m → x = y

instance (p : Program) : Decidable p.Tame :=
  decidable_of_iff (_ ∧ _ ∧ _)
    ⟨fun h => ⟨h.1, h.2.1, h.2.2⟩, fun h => ⟨h.room, h.names, h.headers⟩⟩

variable {p q : Program} {name : Symbol} {x y m cls : ClassId}

theorem mem_written :
    x ∈ p.written ↔ p.classes.contains x = true ∧ (p.classAt x).synthesized = false := by
  rw [written, List.mem_filter, Arena.mem_handles, Bool.not_eq_true']

theorem contains_of_synthesized (h : (p.classAt x).synthesized = true) :
    p.classes.contains x = true := by
  refine contains_of_ne fun hd => ?_
  rw [hd] at h
  cases h

theorem Extends.synthesized (h : p.Extends q) (hc : p.classes.contains x = true) :
    (q.classAt x).synthesized = (p.classAt x).synthesized := by
  have hs := congrArg ClassDecl.synthesized (h.classSource x hc)
  exact hs

theorem resolve_placeholder (h : p.names.size ≤ Symbol.placeholder.id) :
    p.names.resolve .placeholder = none :=
  Array.getElem?_eq_none h

theorem Extends.names_size_le (h : p.Extends q) : p.names.size ≤ q.names.size := by
  by_contra hlt
  rw [Nat.not_le] at hlt
  have hsome : p.names.resolve ⟨q.names.size⟩ = some p.names.texts[q.names.size] :=
    Array.getElem?_eq_getElem hlt
  obtain ⟨hlt', -⟩ := Array.getElem?_eq_some_iff.1 (h.names _ _ hsome)
  exact Nat.lt_irrefl _ hlt'

namespace Issued

theorem of_resolve {t : String} (h : p.names.resolve name = some t) : p.Issued name :=
  .inl (Option.isSome_iff_exists.2 ⟨t, h⟩)

theorem of_extends (h : p.Issued name) (hext : p.Extends q) : q.Issued name := by
  refine h.imp_left fun hsome => ?_
  obtain ⟨t, ht⟩ := Option.isSome_iff_exists.1 hsome
  exact Option.isSome_iff_exists.2 ⟨t, hext.names _ t ht⟩

/-- A name that is issued keeps its text, and the placeholder gets none. -/
theorem resolve_eq (h : p.Issued name) (hext : p.Extends q)
    (hroom : q.names.size ≤ Symbol.placeholder.id) :
    q.names.resolve name = p.names.resolve name := by
  rcases h with hsome | rfl
  · obtain ⟨t, ht⟩ := Option.isSome_iff_exists.1 hsome
    rw [ht, hext.names _ t ht]
  · rw [resolve_placeholder hroom, resolve_placeholder (Nat.le_trans hext.names_size_le hroom)]

end Issued

/-- The names of all classes are issued. -/
def NamesIssued (p : Program) : Prop :=
  ∀ x, p.classes.contains x = true → p.Issued (p.classAt x).name

theorem NamesIssued.className_eq (h : p.NamesIssued) (hext : p.Extends q)
    (hroom : q.names.size ≤ Symbol.placeholder.id) (hx : p.classes.contains x = true) :
    q.className x = p.className x := by
  rw [className, className, Program.name, Program.name, hext.name hx,
    (h x hx).resolve_eq hext hroom]

/-- All names of classes, and all names in scopes, are issued. -/
structure Named (p : Program) : Prop where
  classes : ∀ x, p.classes.contains x = true → p.Issued (p.classAt x).name
  scopes : ∀ scope name entry, (p.scopeAt scope).local? name = some entry → p.Issued name

theorem Named.className_eq (h : p.Named) (hext : p.Extends q)
    (hroom : q.names.size ≤ Symbol.placeholder.id) (hx : p.classes.contains x = true) :
    q.className x = p.className x :=
  NamesIssued.className_eq h.classes hext hroom hx

/-- What is tame was tame before. -/
theorem Tame.of_extends (h : q.Tame) (hp : p.Named) (hext : p.Extends q) : p.Tame where
  room := Nat.lt_of_le_of_lt hext.names_size_le h.room
  names := by
    intro x hx y hy he
    have hup {z : ClassId} (hz : z ∈ p.written) :
        z ∈ q.written ∧ q.className z = p.className z := by
      obtain ⟨hc, hw⟩ := mem_written.1 hz
      exact ⟨mem_written.2 ⟨hext.containsClass z hc, (hext.synthesized hc).trans hw⟩,
        hp.className_eq hext (Nat.le_of_lt h.room) hc⟩
    obtain ⟨hqx, hnx⟩ := hup hx
    obtain ⟨hqy, hny⟩ := hup hy
    exact h.names x hqx y hqy (hnx.trans (he.trans hny.symm))
  headers := by
    intro x hx y hy m hm hxm hym
    have hup {z : ClassId} (hz : z ∈ p.classes.handles) : z ∈ q.classes.handles :=
      Arena.mem_handles.2 (hext.containsClass z (Arena.mem_handles.1 hz))
    exact h.headers x (hup hx) y (hup hy) m (hup hm) (hext.headerNames hxm)
      (hext.headerNames hym)

/-! ## Consistent bindings -/

/-- The metaclasses that headers name are declared. -/
def HeadersDeclared (p : Program) : Prop :=
  ∀ cls m, p.HeaderNames cls m → p.classes.contains m = true

/-- `m` was made as the metaclass of the written class `cls`, and is named after it. -/
structure MadeFor (p : Program) (m cls : ClassId) : Prop where
  pairing : p.pairing m = some (.metaclass, some cls)
  written : (p.classAt cls).synthesized = false
  name : p.names.resolve (p.classAt m).name = some (metaclassSymbol (p.className cls))

/-- In every scope the names of metaclasses mean metaclasses that were made. -/
def SymbolsReserved (p : Program) : Prop :=
  ∀ scope name entry, (p.scopeAt scope).local? name = some entry →
    ∀ t, p.names.resolve name = some (metaclassSymbol t) → p.DeclaresMetaclass name entry

/-- The bindings are linked; every metaclass that was made belongs to a written class, after which
it is named; and the names of metaclasses mean nothing else. -/
structure Consistent (p : Program) : Prop where
  linked : p.PairsLinked
  made : ∀ m, (p.classAt m).synthesized = true → ∃ cls, p.MadeFor m cls
  symbols : p.SymbolsReserved

theorem metaclassSymbol_inj {s t : String} : metaclassSymbol s = metaclassSymbol t ↔ s = t :=
  String.append_right_inj _

/-- What was reserved stays reserved while no name of a metaclass gets another meaning. -/
theorem SymbolsReserved.of_extends (h : p.SymbolsReserved) (hn : p.Named) (hext : p.Extends q)
    (hroom : q.names.size ≤ Symbol.placeholder.id)
    (hscopes : ∀ scope name entry, (q.scopeAt scope).local? name = some entry →
      (p.scopeAt scope).local? name = some entry ∨
        ∀ t, q.names.resolve name = some (metaclassSymbol t) → q.DeclaresMetaclass name entry) :
    q.SymbolsReserved := by
  intro scope name entry hlocal t hname
  rcases hscopes scope name entry hlocal with hold | hnew
  · have heq := (hn.scopes _ _ _ hold).resolve_eq hext hroom
    obtain ⟨m, rfl, hs, hm⟩ := h scope name entry hold t (heq.symm.trans hname)
    have hc := contains_of_synthesized hs
    exact ⟨m, rfl, (hext.synthesized hc).trans hs, (hext.name hc).trans hm⟩
  · exact hnew t hname

theorem Tame.header_unique (h : p.Tame) (hd : p.HeadersDeclared) (hx : p.HeaderNames x m)
    (hy : p.HeaderNames y m) : x = y :=
  h.headers x (Arena.mem_handles.2 (contains_of_headerNames hx))
    y (Arena.mem_handles.2 (contains_of_headerNames hy))
    m (Arena.mem_handles.2 (hd x m hx)) hx hy

theorem Tame.pairsMutual (h : p.Tame) (hd : p.HeadersDeclared) (hl : p.PairsLinked) :
    p.PairsMutual :=
  hl.pairsMutual fun _ _ _ hx hy => h.header_unique hd hx hy

namespace Consistent

/-- The class of a metaclass that was made knows the metaclass. -/
theorem pairing_of_made (h : p.Consistent) (hm : p.MadeFor m cls) :
    p.pairing cls = some (.ordinary, some m) := by
  obtain ⟨cls', he, hp⟩ := h.linked.ofMetaclass m _ hm.pairing
  cases he
  exact hp

/-- A class that was bound was written. -/
theorem written_of_ordinary (h : p.Consistent) (ho : p.HasRole cls .ordinary) :
    (p.classAt cls).synthesized = false := by
  cases hs : (p.classAt cls).synthesized with
  | false => rfl
  | true =>
    obtain ⟨x, hmade⟩ := h.made cls hs
    exact nomatch hasRole_unique ho (hasRole_iff.2 ⟨_, hmade.pairing⟩)

/-- What the name of the metaclass of `cls` means in a scope is the metaclass of `cls`. -/
theorem made_of_symbol (h : p.Consistent) (ht : p.Tame) {scope : ScopeId} {entry : ScopeEntry}
    (hcls : p.HasRole cls .ordinary) (hlocal : (p.scopeAt scope).local? name = some entry)
    (hname : p.names.resolve name = some (metaclassSymbol (p.className cls))) :
    ∃ m, entry = .classDecl m ∧ p.pairing cls = some (.ordinary, some m) := by
  obtain ⟨m, rfl, hs, hm⟩ := h.symbols scope name entry hlocal _ hname
  obtain ⟨cls', hmade⟩ := h.made m hs
  have hpaired := h.pairing_of_made hmade
  have hsame : p.className cls' = p.className cls := by
    have he := hmade.name
    rw [hm, hname, Option.some_inj, metaclassSymbol_inj] at he
    exact he.symm
  have hmem := mem_written.2 ⟨contains_of_pairing hpaired, hmade.written⟩
  have hmem' := mem_written.2 ⟨contains_of_hasRole hcls, h.written_of_ordinary hcls⟩
  obtain rfl := ht.names cls' hmem cls hmem' hsame
  exact ⟨m, rfl, hpaired⟩

/-- Consistent bindings do not contradict themselves. -/
theorem not_corrupt (h : p.Consistent) (hn : p.Named) (hd : p.HeadersDeclared) (ht : p.Tame) :
    ¬ p.Corrupt := by
  intro hcorrupt
  cases hcorrupt with
  | @notMutual cls m hp hmutual =>
    have hm := (ht.pairsMutual hd h.linked).ofClass cls m hp
    rw [mutual_iff.2 ⟨hp, hm⟩] at hmutual
    cases hmutual
  | @symbolTaken cls m scope existing hmutual hs hlocal hne =>
    obtain ⟨cls', hmade⟩ := h.made m hs
    have hpaired := h.pairing_of_made hmade
    have ho := hasRole_iff.2 ⟨_, hpaired⟩
    obtain ⟨m', rfl, hp⟩ := h.made_of_symbol ht ho hlocal hmade.name
    rw [hpaired] at hp
    cases hp
    exact hne rfl
  | @symbolInUse cls scope existing hp hf hlocal =>
    have hintern := p.resolve_intern (metaclassSymbol (p.className cls))
    have hroom : (p.intern (metaclassSymbol (p.className cls))).2.names.size ≤
        Symbol.placeholder.id :=
      Nat.le_trans (p.names.size_intern_le _) ht.room
    have hname := (hn.scopes _ _ _ hlocal).resolve_eq (extends_intern p _) hroom
    rw [hintern] at hname
    obtain ⟨m, -, hp'⟩ := h.made_of_symbol ht (hasRole_iff.2 ⟨_, hp⟩) hlocal hname.symm
    rw [hp] at hp'
    cases hp'
  | undeclaredHeader hm hc =>
    rw [hd _ _ hm] at hc
    cases hc
  | pairsNothing hm =>
    obtain ⟨cls, he, -⟩ := h.linked.ofMetaclass _ _ hm
    cases he

/-- Bindings stay consistent while the pairs are linked, the classes that are added are written or
made as metaclasses, and no name with their prefix gets another meaning. -/
theorem of_extends (h : p.Consistent) (hn : p.Named) (hext : p.Extends q) (ht : q.Tame)
    (hd : q.HeadersDeclared) (hl : q.PairsLinked)
    (hclasses : ∀ x, (q.classAt x).synthesized = true →
      p.classes.contains x = true ∨ ∃ cls, p.Makes q cls x)
    (hsymbols : q.SymbolsReserved) : q.Consistent where
  linked := hl
  made := by
    have hroom := Nat.le_of_lt ht.room
    have hwritten {cls : ClassId} (hc : p.classes.contains cls = true)
        (hw : (p.classAt cls).synthesized = false) : (q.classAt cls).synthesized = false :=
      (hext.synthesized hc).trans hw
    intro m hs
    rcases hclasses m hs with hc | ⟨cls, hmakes⟩
    · obtain ⟨cls, hmade⟩ := h.made m ((hext.synthesized hc).symm.trans hs)
      have hpaired := h.pairing_of_made hmade
      have hcls := contains_of_pairing hpaired
      -- the pair is still there, and mutual
      refine ⟨cls, (ht.pairsMutual hd hl).ofClass cls m (hext.pairing_eq hpaired),
        hwritten hcls hmade.written, ?_⟩
      rw [hext.name hc, hn.className_eq hext hroom hcls]
      exact hext.names _ _ hmade.name
    · have hcls := contains_of_hasRole hmakes.ordinary
      refine ⟨cls, hmakes.pairing, hwritten hcls (h.written_of_ordinary hmakes.ordinary), ?_⟩
      rw [hn.className_eq hext hroom hcls]
      exact hmakes.name
  symbols := hsymbols

end Consistent

/-! ## What scopes say -/

theorem local?_addScope (p : Program) (parent : Option ScopeId) (scope : ScopeId)
    (name : Symbol) :
    ((p.addScope parent).2.scopeAt scope).local? name = (p.scopeAt scope).local? name := by
  change ((p.scopes.alloc { parent }).2.get scope).local? name = _
  rw [Arena.get_alloc]
  split
  · rename_i hfresh
    rw [scopeAt, hfresh, Arena.get_of_not_contains (Arena.not_contains_fresh _)]
    rfl
  · rfl

theorem local?_of_declare {scope other : ScopeId} {k : Symbol} {entry found : ScopeEntry}
    (h : p.declare scope name entry = .ok q)
    (hl : (q.scopeAt other).local? k = some found) :
    (p.scopeAt other).local? k = some found ∨ k = name ∧ found = entry := by
  rw [local?_declare h] at hl
  split at hl
  · rename_i hk
    cases hl
    exact .inr ⟨hk.2, rfl⟩
  · exact .inl hl

end Program

open Program

variable {deed : Deed} {c d : Compilation}

theorem Change.local?_cases (h : Change deed c d) {scope : ScopeId} {name : Symbol}
    {entry : ScopeEntry} (hl : (d.program.scopeAt scope).local? name = some entry) :
    (c.program.scopeAt scope).local? name = some entry ∨ deed = .declare name entry := by
  cases h with
  | addScope parent => exact .inl ((local?_addScope c.program parent scope name).symm.trans hl)
  | declare _ _ _ h =>
    refine (local?_of_declare h hl).imp_right ?_
    rintro ⟨rfl, rfl⟩
    rfl
  | _ => exact .inl hl

theorem Growth.local?_cases (g : Growth) {p : Program} {scope : ScopeId} {name : Symbol}
    {entry : ScopeEntry} (hl : ((g.apply p).scopeAt scope).local? name = some entry) :
    (p.scopeAt scope).local? name = some entry ∨ ∃ scope', g = declare scope' name entry := by
  cases g with
  | addScope parent => exact .inl ((local?_addScope p parent scope name).symm.trans hl)
  | declare scope' name' entry' =>
    rcases apply_declare_cases p scope' name' entry' with h | h
    · refine (local?_of_declare h hl).imp_right ?_
      rintro ⟨rfl, rfl⟩
      exact ⟨scope', rfl⟩
    · rw [h] at hl
      exact .inl hl
  | _ => exact .inl hl

theorem Change.aborted_eq (h : Change deed c d) (hd : deed ≠ .abort) :
    d.session.aborted = c.session.aborted := by
  cases h with
  | abort => exact absurd rfl hd
  | _ => rfl

theorem Change.namesIssued (h : Change deed c d) (hc : c.program.NamesIssued) :
    d.program.NamesIssued := by
  have hext := h.extends.program
  intro x hx
  rcases h.contains_cases hx with hold | ⟨cls, hmakes⟩
  · rw [hext.name hold]
    exact (hc x hold).of_extends hext
  · exact .of_resolve hmakes.name

theorem Growth.namesIssued {g : Growth} {p : Program}
    (hg : ∀ d, g = .addClass d → p.Issued d.name) (hp : p.NamesIssued) :
    (g.apply p).NamesIssued := by
  have hext := g.apply_extends p
  intro x hx
  rcases g.contains_cases hx with hc | ⟨d, rfl, he⟩
  · rw [hext.name hc]
    exact (hp x hc).of_extends hext
  · rw [he]
    exact (hg d rfl).of_extends hext

/-! ## Steps -/

/-- The session is ended only if the bindings contradict themselves, and no name gets a meaning
but those of metaclasses that were made and that of the hidden parameter. -/
def Decent (c : Compilation) : Deed → Prop
  | .abort => c.program.Corrupt
  | .declare name entry => c.program.DeclaresMetaclass name entry ∨
      c.program.names.resolve name = some selectorParamName
  | _ => True

theorem Phases.steps {marks : ClassId → Prop} {lists : FuncId → ClassId → Bool → Prop}
    {I : Compilation → Prop} (h : Phases marks lists c d)
    (hI : ∀ c d deed, Decent c deed → Change deed c d → I c → I d) (hc : I c) : I d := by
  obtain ⟨mid, hb, hl⟩ := h
  refine hl.invariant (fun c d deed hp hstep => hI c d deed ?_ hstep)
    (hb.invariant (fun c d deed hp hstep => hI c d deed ?_ hstep) hc)
  · cases deed with
    | declare => exact .inr hp.1
    | abort => exact hp.elim
    | _ => trivial
  · cases deed with
    | declare => exact .inl hp
    | abort => exact hp
    | _ => trivial

/-- The symbols of all metaclasses begin alike. -/
theorem metaclassSymbol_begins (t : String) :
    "OBJC_METACLASS_$_".toList <+: (metaclassSymbol t).toList := by
  have htext : (metaclassSymbol t).toList = "OBJC_METACLASS_$_".toList ++ t.toList :=
    String.toList_append
  rw [htext]
  exact List.prefix_append _ _

theorem selectorParamName_ne (t : String) : selectorParamName ≠ metaclassSymbol t := by
  intro he
  have hprefix := metaclassSymbol_begins t
  rw [← he] at hprefix
  exact absurd hprefix (by decide)

/-- What holds at all times of a sane run: all names are issued and all headers are declared, and
as long as the declarations are tame, the session goes on and the bindings are consistent. -/
structure Compilation.Steady (c : Compilation) : Prop where
  named : c.program.Named
  headers : c.program.HeadersDeclared
  backward : c.program.HeadersBackward
  consistent : c.program.Tame → c.session.aborted = false ∧ c.program.Consistent

theorem Program.DeclaresMetaclass.of_extends {p q : Program} {name : Symbol} {entry : ScopeEntry}
    (h : p.DeclaresMetaclass name entry) (hext : p.Extends q) :
    q.DeclaresMetaclass name entry := by
  obtain ⟨m, rfl, hs, hm⟩ := h
  have hc := contains_of_synthesized hs
  exact ⟨m, rfl, (hext.synthesized hc).trans hs, (hext.name hc).trans hm⟩

theorem Change.named (h : Change deed c d) (hp : Decent c deed) (hc : c.program.Named) :
    d.program.Named where
  classes := h.namesIssued hc.classes
  scopes := by
    have hext := h.extends.program
    intro scope name entry hl
    rcases h.local?_cases hl with hold | rfl
    · exact (hc.scopes _ _ _ hold).of_extends hext
    · rcases hp with ⟨m, -, hs, rfl⟩ | hparam
      · exact (hc.classes m (contains_of_synthesized hs)).of_extends hext
      · exact .of_resolve (hext.names _ _ hparam)

theorem Change.symbolsReserved (h : Change deed c d) (hp : Decent c deed)
    (hn : c.program.Named) (hroom : d.program.names.size ≤ Symbol.placeholder.id)
    (hc : c.program.SymbolsReserved) : d.program.SymbolsReserved := by
  have hext := h.extends.program
  refine hc.of_extends hn hext hroom fun scope name entry hl => ?_
  refine (h.local?_cases hl).imp_right ?_
  rintro rfl t hname
  refine (hp.resolve_right fun hparam => ?_).of_extends hext
  have he := hext.names _ _ hparam
  rw [hname, Option.some_inj] at he
  exact selectorParamName_ne t he.symm

namespace Compilation.Steady

theorem change (h : c.Steady) (hp : Decent c deed) (hstep : Change deed c d) : d.Steady where
  named := hstep.named hp h.named
  headers := fun cls m hm =>
    hstep.extends.program.containsClass m (h.headers cls m (hstep.headerNames_iff.1 hm))
  backward := fun cls m hm => h.backward cls m (hstep.headerNames_iff.1 hm)
  consistent := by
    have hext := hstep.extends.program
    intro ht
    have htc := ht.of_extends h.named hext
    obtain ⟨ha, hcons⟩ := h.consistent htc
    have hd : d.session.aborted = false := by
      rw [hstep.aborted_eq, ha]
      rintro rfl
      exact hcons.not_corrupt h.named h.headers htc hp
    have hheaders : d.program.HeadersDeclared := fun cls m hm =>
      hext.containsClass m (h.headers cls m (hstep.headerNames_iff.1 hm))
    refine ⟨hd, hcons.of_extends h.named hext ht hheaders
      (hstep.pairsLinked hd h.backward hcons.linked) (fun x hs => ?_)
      (hstep.symbolsReserved hp h.named (Nat.le_of_lt ht.room) hcons.symbols)⟩
    exact hstep.contains_cases (contains_of_synthesized hs)

end Compilation.Steady

/-! ## Runs -/

/-- What is added has an issued name: a class that is written, and a meaning in a scope under a
name that does not begin like the symbol of a metaclass. -/
def Event.WellNamed (p : Program) : Event → Prop
  | .grow (.addClass d) => d.synthesized = false ∧ p.Issued d.name
  | .grow (.declare _ name _) =>
    p.Issued name ∧ ¬ "OBJC_METACLASS_$_".toList <+: (p.name name).toList
  | _ => True

instance (p : Program) : DecidablePred (Event.WellNamed p)
  | .grow (.addClass d) => inferInstanceAs (Decidable (d.synthesized = false ∧ p.Issued d.name))
  | .grow (.declare _ name _) => inferInstanceAs (Decidable (p.Issued name ∧
      ¬ "OBJC_METACLASS_$_".toList <+: (p.name name).toList))
  | .grow (.intern _) | .grow (.addScope _) | .grow (.addFunction _) | .grow (.addMethod ..)
  | .grow (.addGroup _) | .grow (.addGroupMember ..) | .run _ => .isTrue trivial

/-- Declarations are added as they are written, under names that were issued, and their headers name
metaclasses that are declared already. Any operation may be run at any time. -/
def Event.Sane (p : Program) (e : Event) : Prop := e.Unbound ∧ e.HeaderDeclared p ∧ e.WellNamed p

instance (p : Program) : DecidablePred (Event.Sane p) :=
  fun _ => inferInstanceAs (Decidable (_ ∧ _ ∧ _))

namespace Growth

variable {g : Growth} {p : Program}

theorem named (hw : Event.WellNamed p (.grow g)) (hp : p.Named) : (g.apply p).Named where
  classes := by
    refine namesIssued ?_ hp.classes
    rintro d rfl
    exact hw.2
  scopes := by
    have hext := g.apply_extends p
    intro scope name entry hl
    rcases g.local?_cases hl with hold | ⟨_, rfl⟩
    · exact (hp.scopes _ _ _ hold).of_extends hext
    · exact hw.1.of_extends hext

theorem headersDeclared (hh : Event.HeaderDeclared p (.grow g)) (hp : p.HeadersDeclared) :
    (g.apply p).HeadersDeclared := by
  intro x m hx
  have hext := g.apply_extends p
  refine hext.containsClass m ?_
  rcases g.contains_cases (contains_of_headerNames hx) with hc | ⟨d, rfl, he⟩
  · refine hp x m ⟨(hext.foreign hc).symm.trans hx.1, ?_⟩
    have hm := congrArg ClassDecl.foreignMetaclass (hext.classSource x hc)
    exact hm.symm.trans hx.2
  · rw [HeaderNames, he] at hx
    exact hh hx.1 m hx.2

/-- What is added has other names than metaclasses. -/
theorem symbolsReserved (hw : Event.WellNamed p (.grow g)) (hn : p.Named)
    (hroom : (g.apply p).names.size ≤ Symbol.placeholder.id) (hp : p.SymbolsReserved) :
    (g.apply p).SymbolsReserved := by
  have hext := g.apply_extends p
  refine hp.of_extends hn hext hroom fun scope name entry hl => ?_
  refine (g.local?_cases hl).imp_right ?_
  rintro ⟨_, rfl⟩ t hname
  rw [hw.1.resolve_eq hext hroom] at hname
  refine absurd (metaclassSymbol_begins t) ?_
  have htext : p.name name = metaclassSymbol t := by
    rw [Program.name, hname, Option.getD_some]
  rw [← htext]
  exact hw.2

/-- What is added under other names leaves the bindings consistent. -/
theorem consistent (hu : g.Unbound) (hw : Event.WellNamed p (.grow g)) (hn : p.Named)
    (ht : (g.apply p).Tame) (hd : (g.apply p).HeadersDeclared) (hp : p.Consistent) :
    (g.apply p).Consistent := by
  have hext := g.apply_extends p
  refine hp.of_extends hn hext ht hd
    (hp.linked.unpaired hext fun x => .inl (pairing_apply hu p x)) (fun x hs => ?_)
    (symbolsReserved hw hn (Nat.le_of_lt ht.room) hp.symbols)
  rcases g.contains_cases (contains_of_synthesized hs) with hc | ⟨d, rfl, he⟩
  · exact .inl hc
  · rw [he, hw.1] at hs
    cases hs

end Growth

theorem Compilation.Steady.grow (h : c.Steady) {g : Growth}
    (hg : Event.Sane c.program (.grow g)) :
    ({ c with program := g.apply c.program } : Compilation).Steady where
  named := Growth.named hg.2.2 h.named
  headers := Growth.headersDeclared hg.2.1 h.headers
  backward := Growth.headersBackward hg.2.1 h.backward
  consistent := by
    intro ht
    obtain ⟨ha, hcons⟩ := h.consistent (ht.of_extends h.named (g.apply_extends _))
    exact ⟨ha, Growth.consistent hg.1 hg.2.2 h.named ht
      (Growth.headersDeclared hg.2.1 h.headers) hcons⟩

open Run in
theorem Compilation.Steady.of_start (renders : Bool) :
    (Compilation.new .functional renders).Steady where
  named := by
    refine ⟨fun x hx => ?_, fun scope name entry hl => ?_⟩
    · cases hx
    · rw [scopeAt, Arena.get_of_not_contains rfl] at hl
      cases hl
  headers := by
    intro x m hx
    cases contains_of_headerNames hx
  backward := headersBackward_new renders
  consistent := by
    refine fun _ => ⟨rfl, .of_unbound (info_new renders), fun m hs => ?_,
      fun scope name entry hl => ?_⟩
    · cases contains_of_synthesized hs
    · rw [scopeAt, Arena.get_of_not_contains rfl] at hl
      cases hl

theorem Run.steady {past : List Compilation} (h : Run Event.Sane past c) : c.Steady := by
  induction h with
  | start renders => exact .of_start renders
  | @step past c e h he ih =>
    cases e with
    | grow g => exact ih.grow he
    | run op =>
      obtain ⟨hf, hl⟩ := h.functional fun _ _ he => he.1
      exact (op.phases hf hl).steps (fun _ _ _ hp hstep hc => hc.change hp hstep) ih

/-- As long as no two written classes are shown under one name and no two headers name one
metaclass, nothing ends the session: it goes on, and no operation fails with a fatal error. -/
theorem not_aborted_of_sane {past : List Compilation} (h : Run Event.Sane past c)
    (ht : c.program.Tame) :
    c.session.aborted = false ∧
      ∀ (op : Operation) (e : BindError) (d : Compilation), op.run c = .error e d →
        d.program.Tame → e.isFatal = false := by
  refine ⟨(h.steady.consistent ht).1, fun op e d hrun htd => ?_⟩
  have hd : Resolve.finish op.run c = d := by rw [Resolve.finish, hrun]
  have hnext : d.Steady := hd ▸ (h.step (e := .run op) ⟨trivial, trivial, trivial⟩).steady
  obtain ⟨hf, hl⟩ := h.functional fun _ _ he => he.1
  rw [← Bool.not_eq_true]
  intro hfatal
  have ha := op.aborted_of_fatal hf hl hrun hfatal
  rw [(hnext.consistent htd).1] at ha
  cases ha

/-- `Base` has a header, which names `Meta`; the class below it has no name. Both are bound in a
scope in which `Base` means a constant. -/
def headerEvents : List Event :=
  let shape (name : Symbol) (base metaclass : Option ClassId) : ClassDecl :=
    { name, kind := .concrete, span := .point 0 1 1, base, foreign := metaclass.isSome
      foreignMetaclass := metaclass }
  [.grow (.addScope none), .grow (.intern "Meta"), .grow (.intern "Base"),
    .grow (.declare ⟨0⟩ ⟨6⟩ (.constant "base")),
    .grow (.addClass (shape ⟨5⟩ none none)), .grow (.addClass (shape ⟨6⟩ none (some ⟨0⟩))),
    .grow (.addClass (shape .placeholder (some ⟨1⟩) none)),
    .run (.bindClass ⟨1⟩ ⟨0⟩), .run (.bindClass ⟨2⟩ ⟨0⟩)]

theorem not_aborted_of_sane_header :
    let c := (Event.play [] (.new .functional false) headerEvents).2
    c.session.aborted = false ∧
      ∃ e d, (Operation.markClass ⟨1⟩).run c = .error e d ∧ e.isFatal = false := by
  intro c
  have hrun : Run Event.Sane (Event.play [] (.new .functional false) headerEvents).1 c :=
    (Run.start false).play (by decide +kernel)
  have hsane := not_aborted_of_sane hrun (by decide +kernel)
  have hfails : (match (Operation.markClass ⟨1⟩).run c with
    | .ok _ _ => false
    | .error _ d => decide d.program.Tame) = true := by decide +kernel
  refine ⟨hsane.1, ?_⟩
  cases hmark : (Operation.markClass ⟨1⟩).run c with
  | ok a d =>
    rw [hmark] at hfails
    cases hfails
  | error e d =>
    rw [hmark] at hfails
    exact ⟨e, d, rfl, hsane.2 _ e d hmark (of_decide_eq_true hfails)⟩

end ObjcBinding
