import Mathlib.Data.List.Forall2
import Mathlib.Logic.Relation
import ObjcBinding.Binding.Metaclasses

/-!
# Hierarchy and pairs

The classes and protocols above a declaration are those it reaches through bases and interfaces
as they are declared, whether or not anything is bound yet; it is derived from those that it
reaches through bound classes. A bound declaration has a role, and a partner once it is paired;
`pairing` reads both at once.

* `Above.mono`: declarations that keep their bases and interfaces keep what is above them;
* `Stuck`: why a foreign class is never paired;
* `Corrupt`: why a step may end the session.
-/

namespace ObjcBinding.Program

/-- `above` is declared as the base or an interface of `cls`. -/
def IsParent (p : Program) (cls above : ClassId) : Prop :=
  (p.classAt cls).base = some above ∨ above ∈ (p.classAt cls).interfaces

/-- `above` is reached from `cls` through one or more bases and interfaces. -/
def Above (p : Program) (cls above : ClassId) : Prop := Relation.TransGen p.IsParent cls above

/-- The header of the foreign class `cls` names `metaclass`. -/
def HeaderNames (p : Program) (cls metaclass : ClassId) : Prop :=
  (p.classAt cls).foreign = true ∧ (p.classAt cls).foreignMetaclass = some metaclass

/-- The role and the other half of a bound declaration. -/
def pairing (p : Program) (cls : ClassId) : Option (Role × Option ClassId) :=
  (p.classAt cls).info.map fun i => (i.role, i.paired)

/-- The declaration is bound in the given role. -/
def HasRole (p : Program) (cls : ClassId) (role : Role) : Prop :=
  ∃ i, (p.classAt cls).info = some i ∧ i.role = role

/-- `above` is reached from `cls` through the bases and interfaces of bound classes: the metaclass
of `cls` inherits from that of `above`. -/
def DerivedFrom (p : Program) (cls above : ClassId) : Prop :=
  Relation.TransGen (fun x y => p.HasRole x .ordinary ∧ p.IsParent x y) cls above

/-- `above` is `cls` itself, or `cls` is derived from it. -/
def AtOrAbove (p : Program) (cls above : ClassId) : Prop := above = cls ∨ p.DerivedFrom cls above

/-- The class is one half of a pair. -/
def IsPaired (p : Program) (cls : ClassId) : Prop :=
  ∃ m, p.pairing cls = some (.ordinary, some m)

/-- All bound classes that `cls` is directly derived from are paired. -/
def ParentsPaired (p : Program) (cls : ClassId) : Prop :=
  ∀ x, p.IsParent cls x → p.HasRole x .ordinary → p.IsPaired x

/-- `partner` is recorded as the other half of `cls`, whichever the role of `cls`. -/
def Partner (p : Program) (cls partner : ClassId) : Prop := (p.classAt cls).paired = some partner

/-- Every metaclass is recorded together with its class. -/
def Partnered (p : Program) : Prop := ∀ m, p.pairing m ≠ some (.metaclass, none)

/-- The metaclass that a header names was declared before the class. -/
def HeadersBackward (p : Program) : Prop :=
  ∀ cls m, p.HeaderNames cls m → m.index < cls.index

/-- The metaclasses that headers name were declared before, and no two headers name one. -/
structure HeadersApart (p : Program) : Prop where
  backward : p.HeadersBackward
  unique : ∀ x y m, p.HeaderNames x m → p.HeaderNames y m → x = y

/-- The classes that `cls` is directly derived from are paired, and what its metaclass is to inherit
from are the other halves of the superclass and of the interfaces. -/
structure Resolved (p : Program) (cls : ClassId) (superMetaclass : Option ClassId)
    (interfaces : List ClassId) : Prop where
  parents : p.ParentsPaired cls
  superclass : p.HeadersApart → Option.Rel p.Partner (p.classAt cls).superclass superMetaclass
  interfaces : p.HeadersApart → List.Forall₂ p.Partner (p.classAt cls).interfaces interfaces

/-- A foreign class that is bound has no metaclass, and cannot be given one: its header names
none, or one that is bound already and does not belong to the class. -/
structure Stuck (p : Program) (cls : ClassId) : Prop where
  unpaired : p.pairing cls = some (.ordinary, none)
  foreign : (p.classAt cls).foreign = true
  header : ∀ m, (p.classAt cls).foreignMetaclass = some m →
    ∃ r, p.pairing m = some r ∧ r ≠ (.metaclass, some cls)

/-- The class or a class that it is derived from is stuck: the class is never paired. -/
def Blocked (p : Program) (cls : ClassId) : Prop := ∃ x, p.AtOrAbove cls x ∧ p.Stuck x

/-- `entry` is a metaclass that was made, and `name` is its name. -/
def DeclaresMetaclass (p : Program) (name : Symbol) (entry : ScopeEntry) : Prop :=
  ∃ m, entry = .classDecl m ∧ (p.classAt m).synthesized = true ∧ (p.classAt m).name = name

/-- `entry` is a metaclass that was made and is the other half of `cls`, and `name` is its name. -/
def DeclaresMetaclassOf (p : Program) (cls : ClassId) (name : Symbol) (entry : ScopeEntry) :
    Prop :=
  ∃ m, entry = .classDecl m ∧ (p.classAt m).synthesized = true ∧ (p.classAt m).name = name ∧
    p.pairing cls = some (.ordinary, some m)

/-- The bindings contradict themselves. -/
inductive Corrupt (p : Program) : Prop where
  | notMutual {cls metaclass : ClassId} :
      p.pairing cls = some (.ordinary, some metaclass) → p.mutual cls metaclass = false → p.Corrupt
  /-- The name of a metaclass that was made means something else in a scope. -/
  | symbolTaken {cls metaclass : ClassId} {scope : ScopeId} {existing : ScopeEntry} :
      p.mutual cls metaclass = true → (p.classAt metaclass).synthesized = true →
      (p.scopeAt scope).local? (p.classAt metaclass).name = some existing →
      existing ≠ .classDecl metaclass → p.Corrupt
  /-- The name for a metaclass that is yet to be made means something in a scope. -/
  | symbolInUse {cls : ClassId} {scope : ScopeId} {existing : ScopeEntry} :
      p.pairing cls = some (.ordinary, none) → (p.classAt cls).foreign = false →
      (p.scopeAt scope).local? (p.intern (metaclassSymbol (p.className cls))).1 =
        some existing → p.Corrupt
  /-- A header names a metaclass that is not declared. -/
  | undeclaredHeader {cls metaclass : ClassId} :
      p.HeaderNames cls metaclass → p.classes.contains metaclass = false → p.Corrupt
  | pairsNothing {metaclass : ClassId} :
      p.pairing metaclass = some (.metaclass, none) → p.Corrupt

/-- If another class has been linked to `metaclass` before `cls`, then it is above `cls`, and its
header names the metaclass as well. -/
def FreeFor (p : Program) (cls metaclass : ClassId) : Prop :=
  ∀ r, p.pairing metaclass = some r → ∃ x, r = (.metaclass, some x) ∧ p.Above cls x ∧
    (metaclass.index < cls.index → p.HeaderNames x metaclass)

theorem DeclaresMetaclassOf.declares {p : Program} {cls : ClassId} {name : Symbol}
    {entry : ScopeEntry} (h : p.DeclaresMetaclassOf cls name entry) :
    p.DeclaresMetaclass name entry := by
  obtain ⟨m, he, hs, hn, -⟩ := h
  exact ⟨m, he, hs, hn⟩

theorem pairing_of_info {p : Program} {cls : ClassId} {i : ClassInfo}
    (h : (p.classAt cls).info = some i) : p.pairing cls = some (i.role, i.paired) := by
  rw [pairing, h]
  rfl

theorem info_of_pairing {p : Program} {cls : ClassId} {role : Role} {partner : Option ClassId}
    (h : p.pairing cls = some (role, partner)) :
    ∃ i, (p.classAt cls).info = some i ∧ i.role = role ∧ i.paired = partner := by
  obtain ⟨i, hi, he⟩ := Option.map_eq_some_iff.1 h
  cases he
  exact ⟨i, hi, rfl, rfl⟩

theorem partner_iff {p : Program} {cls partner : ClassId} :
    p.Partner cls partner ↔ ∃ role, p.pairing cls = some (role, some partner) := by
  constructor
  · intro h
    obtain ⟨i, hi, hp⟩ := Option.bind_eq_some_iff.1 h
    exact ⟨i.role, by rw [pairing_of_info hi, hp]⟩
  · rintro ⟨role, h⟩
    obtain ⟨i, hi, -, hp⟩ := info_of_pairing h
    exact Option.bind_eq_some_iff.2 ⟨i, hi, hp⟩

theorem hasRole_iff {p : Program} {cls : ClassId} {role : Role} :
    p.HasRole cls role ↔ ∃ partner, p.pairing cls = some (role, partner) := by
  constructor
  · rintro ⟨i, hi, rfl⟩
    exact ⟨i.paired, pairing_of_info hi⟩
  · rintro ⟨partner, h⟩
    obtain ⟨i, hi, hr, -⟩ := info_of_pairing h
    exact ⟨i, hi, hr⟩

theorem contains_of_hasRole {p : Program} {cls : ClassId} {role : Role}
    (h : p.HasRole cls role) : p.classes.contains cls = true := by
  obtain ⟨i, hi, -⟩ := h
  exact contains_of_info hi

theorem contains_of_pairing {p : Program} {x : ClassId} {r : Role × Option ClassId}
    (h : p.pairing x = some r) : p.classes.contains x = true := by
  obtain ⟨i, hi, -⟩ := Option.map_eq_some_iff.1 h
  exact contains_of_info hi

theorem rel_partner {p q : Program} (h : ∀ x y, p.Partner x y → q.Partner x y)
    {cls partner : Option ClassId} (hr : Option.Rel p.Partner cls partner) :
    Option.Rel q.Partner cls partner := by
  cases hr with
  | none => exact .none
  | some hxy => exact .some (h _ _ hxy)

/-- A bound declaration has another half if it has one as a class. -/
theorem Partnered.partner {p : Program} {cls : ClassId} {role : Role} (h : p.Partnered)
    (hr : p.HasRole cls role) (ho : p.HasRole cls .ordinary → p.IsPaired cls) :
    ∃ partner, p.Partner cls partner := by
  cases role with
  | ordinary =>
    obtain ⟨m, hm⟩ := ho hr
    exact ⟨m, partner_iff.2 ⟨_, hm⟩⟩
  | metaclass =>
    obtain ⟨partner, hp⟩ := hasRole_iff.1 hr
    cases partner with
    | none => exact absurd hp (h cls)
    | some x => exact ⟨x, partner_iff.2 ⟨_, hp⟩⟩

theorem contains_of_headerNames {p : Program} {cls metaclass : ClassId}
    (h : p.HeaderNames cls metaclass) : p.classes.contains cls = true := by
  refine contains_of_ne fun hd => ?_
  rw [HeaderNames, hd] at h
  cases h.1

theorem mutual_iff {p : Program} {cls metaclass : ClassId} :
    p.mutual cls metaclass = true ↔
      p.pairing cls = some (.ordinary, some metaclass) ∧
        p.pairing metaclass = some (.metaclass, some cls) := by
  have hany (id other : ClassId) (role : Role) :
      p.pairing id = some (role, some other) ↔
        ∃ i, (p.classAt id).info = some i ∧ i.role = role ∧ i.paired = some other := by
    simp [pairing]
  have hrole (r : Role) : r = .metaclass ∨ r = .ordinary := by cases r <;> simp
  simp only [Program.mutual, hany, Bool.and_eq_true, Option.any_eq_true, ClassInfo.isMetaclass,
    Bool.not_eq_true', decide_eq_false_iff_not, decide_eq_true_eq]
  constructor
  · rintro ⟨⟨i, hi, hr, hp⟩, j, hj, hr', hp'⟩
    exact ⟨⟨i, hi, (hrole i.role).resolve_left hr, hp⟩, j, hj, hr', hp'⟩
  · rintro ⟨⟨i, hi, hr, hp⟩, j, hj, hr', hp'⟩
    refine ⟨⟨i, hi, ?_, hp⟩, j, hj, hr', hp'⟩
    rw [hr]
    exact Role.noConfusion

theorem FreeFor.not_ordinary {p : Program} {cls metaclass : ClassId}
    (h : p.FreeFor cls metaclass) : ¬ p.HasRole metaclass .ordinary := by
  intro ho
  obtain ⟨partner, hp⟩ := hasRole_iff.1 ho
  obtain ⟨x, he, -⟩ := h _ hp
  cases he

theorem Above.mono {p q : Program} (h : ∀ x y, p.IsParent x y → q.IsParent x y)
    {cls above : ClassId} (ha : p.Above cls above) : q.Above cls above :=
  Relation.TransGen.mono h _ _ ha

theorem Above.trans {p : Program} {x y z : ClassId} (hxy : p.Above x y) (hyz : p.Above y z) :
    p.Above x z :=
  Relation.TransGen.trans hxy hyz

theorem DerivedFrom.above {p : Program} {cls above : ClassId} (h : p.DerivedFrom cls above) :
    p.Above cls above :=
  Relation.TransGen.mono (fun _ _ hxy => hxy.2) _ _ h

theorem AtOrAbove.derivedFrom {p : Program} {cls parent above : ClassId}
    (ho : p.HasRole cls .ordinary) (h : p.IsParent cls parent) (ha : p.AtOrAbove parent above) :
    p.DerivedFrom cls above := by
  rcases ha with rfl | ha
  · exact .single ⟨ho, h⟩
  · exact .head ⟨ho, h⟩ ha

theorem isPaired_of_mutual {p : Program} {cls metaclass : ClassId}
    (h : p.mutual cls metaclass = true) : p.IsPaired cls :=
  ⟨metaclass, (mutual_iff.1 h).1⟩

end ObjcBinding.Program
