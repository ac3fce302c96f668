import Mathlib.Data.List.Forall2
import ObjcBinding.Proofs.StickyStrategy

/-!
# Target triples

A triple is read by its components, the parts between its dashes. The blanks around it do not
count. The first component names the architecture; the system is that of the first later component
that spells one, whatever version stands after the name.

* `Triple.splits_trim`, `Triple.Splits.unique`: every text is split in exactly one way;
* `Triple.Splits.parse_eq`: what a text is read as, told by its components;
* `Triple.systemOf_findSome?`: the search for a system, told without the search;
* `Triple.Splits.versioned`: a triple with versions after its components is split at the same
  places;
* `Triple.parseTarget_exact`: which texts are triples, of what, and where the runtime exists.
-/

namespace ObjcBinding

/-- The names of a system in triples. -/
def Os.spellings : Os → List String
  | macOs => ["darwin", "macos", "macosx"]
  | iOs => ["ios"]
  | tvOs => ["tvos"]
  | watchOs => ["watchos"]
  | linux => ["linux"]
  | windows => ["windows", "win"]
  | freeBsd => ["freebsd"]
  | unknown => []

namespace Triple

/-- Digits and dots. -/
def IsVersion (version : List Char) : Prop := ∀ c ∈ version, ('0' ≤ c ∧ c ≤ '9') ∨ c = '.'

/-- The component is a name of `o`, possibly with a version after it. -/
def Spells (component : List Char) (o : Os) : Prop :=
  ∃ stem version, component = stem ++ version ∧ IsVersion version ∧
    (∀ c, stem.getLast? = some c → ¬ IsVersion [c]) ∧ String.ofList stem ∈ o.spellings

/-- The system of the first component that spells one, and the unknown one if there is none. -/
def SystemOf (later : List (List Char)) (o : Os) : Prop :=
  (∃ before component after, later = before ++ component :: after ∧ Spells component o ∧
      ∀ q ∈ before, ∀ o', ¬ Spells q o') ∨
    (o = .unknown ∧ ∀ q ∈ later, ∀ o', ¬ Spells q o')

/-- `core` is the text without the blanks around it, and `parts` are what the dashes in it
separate. -/
structure Splits (s : String) (core : List Char) (parts : List (List Char)) : Prop where
  around : ∃ before after, s.toList = before ++ core ++ after ∧
    ∀ c ∈ before ++ after, Text.isBlank c = true
  starts : ∀ c, core.head? = some c → Text.isBlank c = false
  ends : ∀ c, core.getLast? = some c → Text.isBlank c = false
  parts_ne_nil : parts ≠ []
  noDash : ∀ p ∈ parts, '-' ∉ p
  joined : ['-'].intercalate parts = core

/-- `q` is `p`, or `p` and a version. -/
def Versioned (p q : List Char) : Prop := ∃ version, IsVersion version ∧ q = p ++ version

/-- There are two components or more, all of them with some text. -/
def Complete (parts : List (List Char)) : Prop := 2 ≤ parts.length ∧ [] ∉ parts

/-- The target of which `first` and `later` are the components. -/
def read (first : List Char) (later : List (List Char)) : Target :=
  ⟨.parse (String.ofList first), (later.findSome? Os.parse?).getD .unknown⟩

/-- The architectures and systems on which the Objective-C runtime exists. -/
def HasRuntime (t : Target) : Prop :=
  (t.arch = .x86_64 ∨ t.arch = .aarch64) ∧
    (t.os = .macOs ∨ t.os = .iOs ∨ t.os = .tvOs ∨ t.os = .watchOs)

/-! ## Systems and their versions -/

theorem isVersionChar_iff {c : Char} :
    Os.isVersionChar c = true ↔ ('0' ≤ c ∧ c ≤ '9') ∨ c = '.' := by
  simp [Os.isVersionChar, Char.isDigit, Char.le_def]

theorem isVersion_singleton {c : Char} : IsVersion [c] ↔ Os.isVersionChar c = true := by
  rw [isVersionChar_iff, IsVersion, List.forall_mem_singleton]

/-- What is left of a component is its name, whatever version stands after it. -/
theorem parse?_append {stem version : List Char} (hv : IsVersion version)
    (hstem : ∀ c, stem.getLast? = some c → ¬ IsVersion [c]) :
    Os.parse? (stem ++ version) = Os.named? (String.ofList stem) := by
  rw [Os.parse?, Text.trimEnd_append_run]
  · intro c hc
    rw [← Bool.not_eq_true, ← isVersion_singleton]
    exact hstem c hc
  · intro c hc
    exact isVersionChar_iff.2 (hv c hc)

theorem named?_eq_some_iff {name : String} {o : Os} :
    Os.named? name = some o ↔ name ∈ o.spellings := by
  constructor
  · intro h
    unfold Os.named? at h
    repeat' split at h
    all_goals (cases h <;> simp_all [Os.spellings])
  · intro h
    cases o <;> simp only [Os.spellings, List.mem_cons, List.not_mem_nil, or_false] at h
    case macOs => rcases h with rfl | rfl | rfl <;> rfl
    case windows => rcases h with rfl | rfl <;> rfl
    all_goals subst h; rfl

/-- Every component is a name and the longest version at its end. -/
theorem exists_stem (component : List Char) :
    ∃ stem version, component = stem ++ version ∧ IsVersion version ∧
      ∀ c, stem.getLast? = some c → ¬ IsVersion [c] := by
  refine ⟨Text.trimEnd Os.isVersionChar component, _, (Text.trimEnd_append _ _).symm, ?_, ?_⟩
  · intro c hc
    exact isVersionChar_iff.1 (Text.forall_mem_takeWhile_reverse _ _ c hc)
  · intro c hc
    rw [isVersion_singleton, Text.getLast?_trimEnd hc]
    exact Bool.false_ne_true

theorem parse?_eq_some_iff {component : List Char} {o : Os} :
    Os.parse? component = some o ↔ Spells component o := by
  constructor
  · intro h
    obtain ⟨stem, version, rfl, hv, hstem⟩ := exists_stem component
    rw [parse?_append hv hstem] at h
    exact ⟨stem, version, rfl, hv, hstem, named?_eq_some_iff.1 h⟩
  · rintro ⟨stem, version, rfl, hv, hstem, hname⟩
    rw [parse?_append hv hstem]
    exact named?_eq_some_iff.2 hname

theorem parse?_eq_none_iff {component : List Char} :
    Os.parse? component = none ↔ ∀ o, ¬ Spells component o := by
  simp only [← parse?_eq_some_iff, Option.eq_none_iff_forall_ne_some, ne_eq]

/-- A version more at the end of a component does not change what it spells. -/
theorem parse?_append_version (component : List Char) {version : List Char}
    (hv : IsVersion version) : Os.parse? (component ++ version) = Os.parse? component := by
  obtain ⟨stem, run, rfl, hrun, hstem⟩ := exists_stem component
  have hboth : IsVersion (run ++ version) := List.forall_mem_append.2 ⟨hrun, hv⟩
  rw [List.append_assoc, parse?_append hboth hstem, parse?_append hrun hstem]

/-- The search for a system finds that of the first component that spells one. -/
theorem systemOf_findSome? (later : List (List Char)) :
    SystemOf later ((later.findSome? Os.parse?).getD .unknown) := by
  cases h : later.findSome? Os.parse? with
  | none =>
    refine .inr ⟨rfl, fun q hq => parse?_eq_none_iff.1 ?_⟩
    exact List.findSome?_eq_none_iff.1 h q hq
  | some o =>
    obtain ⟨before, component, after, rfl, ho, hbefore⟩ := List.findSome?_eq_some_iff.1 h
    exact .inl ⟨before, component, after, rfl, parse?_eq_some_iff.1 ho,
      fun q hq => parse?_eq_none_iff.1 (hbefore q hq)⟩

theorem findSome?_versioned {later later' : List (List Char)}
    (h : List.Forall₂ Versioned later later') :
    later'.findSome? Os.parse? = later.findSome? Os.parse? := by
  induction h with
  | nil => rfl
  | cons hq hrest ih =>
    obtain ⟨version, hv, rfl⟩ := hq
    rw [List.findSome?_cons, List.findSome?_cons, parse?_append_version _ hv, ih]

/-! ## The components of a text -/

namespace Splits

variable {s : String} {core : List Char} {parts : List (List Char)}

theorem trim_eq (h : Splits s core parts) : Text.trim s = String.ofList core := by
  obtain ⟨before, after, hs, hblank⟩ := h.around
  rw [← String.ofList_toList (s := s), hs]
  exact Text.trim_ofList (fun c hc => hblank c (List.mem_append_left _ hc))
    (fun c hc => hblank c (List.mem_append_right _ hc)) h.starts h.ends

theorem pieces_eq (h : Splits s core parts) : Text.pieces '-' core = parts := by
  rw [← h.joined]
  exact Text.pieces_intercalate h.parts_ne_nil h.noDash

theorem unique {core' : List Char} {parts' : List (List Char)} (h : Splits s core parts)
    (h' : Splits s core' parts') : core' = core ∧ parts' = parts := by
  have hcore : core' = core := by
    have heq := h'.trim_eq.symm.trans h.trim_eq
    rw [← String.toList_ofList (l := core'), heq, String.toList_ofList]
  subst hcore
  exact ⟨rfl, h'.pieces_eq.symm.trans h.pieces_eq⟩

end Splits

theorem splits_trim (s : String) :
    Splits s (Text.trim s).toList (Text.pieces '-' (Text.trim s).toList) := by
  have hcore : (Text.trim s).toList =
      Text.trimEnd Text.isBlank (s.toList.dropWhile Text.isBlank) := String.toList_ofList
  refine ⟨⟨s.toList.takeWhile Text.isBlank,
    ((s.toList.dropWhile Text.isBlank).reverse.takeWhile Text.isBlank).reverse, ?_, ?_⟩, ?_, ?_,
    Text.pieces_ne_nil _ _, fun p hp => Text.notMem_of_mem_pieces hp,
    Text.intercalate_pieces _ _⟩
  · rw [hcore, List.append_assoc, Text.trimEnd_append, List.takeWhile_append_dropWhile]
  · rw [List.forall_mem_append]
    exact ⟨List.all_eq_true.1 List.all_takeWhile, Text.forall_mem_takeWhile_reverse _ _⟩
  · intro c hc
    rw [hcore] at hc
    have hnot := List.head?_dropWhile_not Text.isBlank s.toList
    rw [Text.head?_trimEnd hc] at hnot
    exact hnot
  · intro c hc
    rw [hcore] at hc
    exact Text.getLast?_trimEnd hc

theorem exists_splits (s : String) : ∃ core first later, Splits s core (first :: later) := by
  have h := splits_trim s
  cases hp : Text.pieces '-' (Text.trim s).toList with
  | nil => exact absurd hp (Text.pieces_ne_nil _ _)
  | cons first later => exact ⟨_, first, later, hp ▸ h⟩

/-! ## What a text is read as -/

theorem complete_cons_iff {first : List Char} {later : List (List Char)} :
    Complete (first :: later) ↔ ¬ (first = [] ∨ later = [] ∨ [] ∈ later) := by
  rw [Complete, List.mem_cons, not_or, not_or, not_or, List.length_cons, eq_comm]
  have : 2 ≤ later.length + 1 ↔ later ≠ [] := by
    rw [← List.length_pos_iff]
    omega
  tauto

namespace Splits

variable {s : String} {core first : List Char} {later : List (List Char)}

theorem parse_eq (h : Splits s core (first :: later)) :
    Target.parse s = if first = [] ∨ later = [] ∨ [] ∈ later then .error ⟨String.ofList core⟩
      else .ok (read first later) := by
  unfold Target.parse
  simp only [h.trim_eq, String.toList_ofList, h.pieces_eq, read]

theorem parseTarget_of_complete (h : Splits s core (first :: later))
    (hc : Complete (first :: later)) : Settings.parseTarget s = .ok (read first later) := by
  rw [Settings.parseTarget, h.parse_eq, if_neg (complete_cons_iff.1 hc)]

theorem parseTarget_of_not_complete (h : Splits s core (first :: later))
    (hc : ¬ Complete (first :: later)) :
    Settings.parseTarget s = .error (.invalidTriple (String.ofList core)) := by
  rw [complete_cons_iff, not_not] at hc
  rw [Settings.parseTarget, h.parse_eq, if_pos hc]

theorem parseTarget_eq_ok_iff (h : Splits s core (first :: later)) {t : Target} :
    Settings.parseTarget s = .ok t ↔ Complete (first :: later) ∧ t = read first later := by
  by_cases hc : Complete (first :: later)
  · rw [h.parseTarget_of_complete hc, Except.ok.injEq, eq_comm]
    exact ⟨fun ht => ⟨hc, ht⟩, And.right⟩
  · rw [h.parseTarget_of_not_complete hc]
    exact ⟨(nomatch ·), fun ht => absurd ht.1 hc⟩

end Splits

/-! ## Versions after the components -/

theorem IsVersion.noDash {version : List Char} (hv : IsVersion version) : '-' ∉ version := by
  intro hc
  exact absurd (hv '-' hc) (by decide)

theorem IsVersion.not_blank {version : List Char} (hv : IsVersion version) {c : Char}
    (hc : c ∈ version) : Text.isBlank c = false := by
  rw [Bool.eq_false_iff]
  intro hblank
  obtain ⟨r, hr, hlow, hhigh⟩ := Text.inRanges_iff.1 hblank
  have hcode : (48 ≤ c.toNat ∧ c.toNat ≤ 57) ∨ c.toNat = 46 := by
    rcases hv c hc with ⟨h0, h9⟩ | rfl
    · exact .inl ⟨h0, h9⟩
    · exact .inr rfl
  have hapart : ∀ r ∈ Text.blankRanges, r.2 < 46 ∨ 57 < r.1 := by decide
  have := hapart r hr
  omega

section Versions

variable {parts parts' : List (List Char)} (h : List.Forall₂ Versioned parts parts')

include h

theorem forall_mem_versioned {P : List Char → Prop} (hparts : ∀ p ∈ parts, P p)
    (hP : ∀ p version, P p → IsVersion version → P (p ++ version)) : ∀ p ∈ parts', P p := by
  induction h with
  | nil => exact hparts
  | cons hq _ ih =>
    obtain ⟨version, hv, rfl⟩ := hq
    rw [List.forall_mem_cons] at hparts ⊢
    exact ⟨hP _ _ hparts.1 hv, ih hparts.2⟩

theorem complete_versioned (hc : Complete parts) : Complete parts' := by
  refine ⟨h.length_eq ▸ hc.1, fun hmem => ?_⟩
  have hne : ∀ p ∈ parts', p ≠ [] := by
    refine forall_mem_versioned h ?_ ?_
    · intro p hp hnil
      exact hc.2 (hnil ▸ hp)
    · intro p version hp _ hnil
      exact hp (List.append_eq_nil_iff.1 hnil).1
  exact hne [] hmem rfl

omit h in
theorem getLast?_join (p rest : List Char) :
    (p ++ '-' :: rest).getLast? = some (rest.getLast?.getD '-') := by
  rw [List.getLast?_append, List.getLast?_cons, Option.some_or]

/-- If the parts joined do not end in a blank, they do not with versions either. -/
theorem ends_versioned
    (hends : ∀ c, (['-'].intercalate parts).getLast? = some c → Text.isBlank c = false) :
    ∀ c, (['-'].intercalate parts').getLast? = some c → Text.isBlank c = false := by
  induction h with
  | nil => exact hends
  | @cons p q parts parts' hq hrest ih =>
    obtain ⟨version, hv, rfl⟩ := hq
    intro c hc
    cases hrest with
    | nil =>
      rw [List.intercalate_singleton, List.getLast?_append, Option.or_eq_some_iff] at hc
      rcases hc with hc | ⟨-, hc⟩
      · exact hv.not_blank (List.mem_of_getLast? hc)
      · exact hends c (by rwa [List.intercalate_singleton])
    | cons _ _ =>
      rw [Text.intercalate_cons _ _ (List.cons_ne_nil _ _), getLast?_join] at hends hc
      rw [← Option.some.inj hc]
      cases hlast : (['-'].intercalate (_ :: _)).getLast? with
      | none => rfl
      | some d => exact ih (fun c hc => hends c (by rw [hc]; rfl)) d hlast

end Versions

/-- A triple with versions after its later components and blanks around it is split at the same
places. -/
theorem Splits.versioned {s : String} {core first : List Char} {later later' : List (List Char)}
    (h : Splits s core (first :: later)) (hc : Complete (first :: later))
    (hv : List.Forall₂ Versioned later later') {before after : List Char}
    (hblank : ∀ c ∈ before ++ after, Text.isBlank c = true) :
    Splits (String.ofList (before ++ ['-'].intercalate (first :: later') ++ after))
      (['-'].intercalate (first :: later')) (first :: later') := by
  have hparts : List.Forall₂ Versioned (first :: later) (first :: later') :=
    .cons ⟨[], nofun, (List.append_nil first).symm⟩ hv
  have hhead : ∀ parts : List (List Char),
      (['-'].intercalate (first :: parts)).head? = first.head? := by
    intro parts
    have hfirst : first ≠ [] := fun hnil => hc.2 (hnil ▸ List.mem_cons_self)
    cases parts with
    | nil => rw [List.intercalate_singleton]
    | cons q qs =>
      rw [Text.intercalate_cons _ _ (List.cons_ne_nil q qs), List.head?_append_of_ne_nil _ hfirst]
  refine ⟨⟨before, after, String.toList_ofList, hblank⟩, ?_, ?_, List.cons_ne_nil _ _, ?_, rfl⟩
  · intro c hc'
    rw [hhead, ← hhead later, h.joined] at hc'
    exact h.starts c hc'
  · refine ends_versioned hparts fun c hc' => h.ends c ?_
    rwa [← h.joined]
  · refine forall_mem_versioned hparts h.noDash fun p version hp hversion hmem => ?_
    rcases List.mem_append.1 hmem with hmem | hmem
    · exact hp hmem
    · exact hversion.noDash hmem

theorem forTarget_eq_functional_iff_hasRuntime (t : Target) :
    Strategy.forTarget t = .functional ↔ HasRuntime t := by
  rw [Strategy.forTarget_eq_functional_iff]
  obtain ⟨arch, os⟩ := t
  cases arch <;> cases os <;> simp [Target.supportsObjc, Os.isApple, HasRuntime]

/-- The first compilation of a process has the strategy that its target calls for. -/
theorem openCompilation_of_fresh {e : Environment} (h : e.active = none) (t : Target)
    (level : Option Log.Level) (renders : Bool) :
    (e.openCompilation ⟨t, level⟩ renders).1 =
      .ok (Compilation.new (Strategy.forTarget t) renders) := by
  rw [Environment.openCompilation, Environment.choose, Environment.active_apply, h]
  rfl

/-- Exactly the texts with two or more components, all with some text, are triples. The first
component gives the architecture, the first later one that spells a system the system; versions
after the later components and blanks around the text do not count, and the triple of the target
is read back. The declarations of a compilation are bound exactly if the runtime exists. -/
theorem parseTarget_exact (s : String) :
    ∃ core first later, Splits s core (first :: later) ∧
      (∀ core' parts', Splits s core' parts' → core' = core ∧ parts' = first :: later) ∧
      ((∃ t, Settings.parseTarget s = .ok t) ↔
        2 ≤ (first :: later).length ∧ [] ∉ first :: later) ∧
      (∀ e, Settings.parseTarget s = .error e → e = .invalidTriple (String.ofList core)) ∧
      ∀ t, Settings.parseTarget s = .ok t →
        t.arch = .parse (String.ofList first) ∧ SystemOf later t.os ∧
        (∀ later' before after, List.Forall₂ Versioned later later' →
          (∀ c ∈ before ++ after, Text.isBlank c = true) →
          Settings.parseTarget
            (String.ofList (before ++ ['-'].intercalate (first :: later') ++ after)) = .ok t) ∧
        Settings.parseTarget t.display = .ok t ∧
        (Strategy.forTarget t = .functional ↔ HasRuntime t) ∧
        ∀ (e : Environment) level renders, e.active = none →
          ∃ c, (e.openCompilation ⟨t, level⟩ renders).1 = .ok c ∧
            (c.session.strategy = .functional ↔ HasRuntime t) := by
  obtain ⟨core, first, later, h⟩ := exists_splits s
  refine ⟨core, first, later, h, fun core' parts' h' => h.unique h', ?_, ?_, ?_⟩
  · constructor
    · rintro ⟨t, ht⟩
      exact (h.parseTarget_eq_ok_iff.1 ht).1
    · intro hc
      exact ⟨_, h.parseTarget_of_complete hc⟩
  · intro e he
    have hc : ¬ Complete (first :: later) := by
      intro hc
      rw [h.parseTarget_of_complete hc] at he
      cases he
    rw [h.parseTarget_of_not_complete hc, Except.error.injEq] at he
    exact he.symm
  · intro t ht
    obtain ⟨hc, rfl⟩ := h.parseTarget_eq_ok_iff.1 ht
    refine ⟨rfl, systemOf_findSome? later, ?_, ?_, ?_, ?_⟩
    · intro later' before after hv hblank
      have hc' : Complete (first :: later') :=
        complete_versioned (.cons ⟨[], nofun, (List.append_nil first).symm⟩ hv) hc
      rw [(h.versioned hc hv hblank).parseTarget_of_complete hc', Triple.read,
        findSome?_versioned hv, Triple.read]
    · exact Settings.parseTarget_display _
    · exact forTarget_eq_functional_iff_hasRuntime _
    · intro e level renders he
      refine ⟨_, openCompilation_of_fresh he _ level renders, ?_⟩
      exact forTarget_eq_functional_iff_hasRuntime _

theorem parseTarget_ios :
    Settings.parseTarget " arm64-apple-ios17.0" = .ok ⟨.aarch64, .iOs⟩ ∧
      Settings.parseTarget (Target.display ⟨.aarch64, .iOs⟩) = .ok ⟨.aarch64, .iOs⟩ ∧
      Strategy.forTarget ⟨.aarch64, .iOs⟩ = .functional := by
  have ht : Settings.parseTarget " arm64-apple-ios17.0" = .ok ⟨.aarch64, .iOs⟩ := by
    decide +kernel
  obtain ⟨_, _, _, -, -, -, -, hok⟩ := parseTarget_exact " arm64-apple-ios17.0"
  obtain ⟨-, -, -, hdisplay, hstrategy, -⟩ := hok _ ht
  exact ⟨ht, hdisplay, hstrategy.2 ⟨.inr rfl, .inr (.inl rfl)⟩⟩

end Triple

end ObjcBinding
