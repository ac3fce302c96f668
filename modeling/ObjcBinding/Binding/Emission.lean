import ObjcBinding.Binding.Metaclasses

/-!
# What is emitted

The code generator reads the bound classes of a compilation as records, in the order of their
declaration. Foreign, invalid and synthesized declarations have no record of their own.

* `Emission.collect` makes the records;
* `Emission.collect_classes`, `Emission.recorded?_eq_some_iff`: which classes have one;
* `Emission.collect_classes_pairwise`: the records stand in the order of the declarations.
-/

namespace ObjcBinding

/-- A method in a dispatch table. -/
structure MethodRecord where
  selector : String
  func : FuncId
  overrides : Bool
  deriving DecidableEq, Repr

/-- What the code generator needs to know of one class or protocol. -/
structure ClassRecord where
  cls : ClassId
  name : String
  symbol : String
  metaclassSymbol : Option String
  superclass : Option String
  isInterface : Bool
  instanceMethods : List MethodRecord
  classMethods : List MethodRecord
  deriving DecidableEq, Repr

/-- The records of a compilation, and the texts of its selectors in the order of interning. -/
structure Emission where
  classes : List ClassRecord := []
  selectors : List String := []
  deriving DecidableEq, Repr

namespace Emission

/-- The record of a method list entry. -/
def methodRecord (p : Program) (t : Selector.Table) (e : MethodEntry) : MethodRecord where
  selector := t.text e.selector
  func := e.func
  overrides := (p.funcAt e.func).info.any (·.overrides.isSome)

/-- The dispatch table of one side: its entries for valid functions. -/
def methodRecords (p : Program) (t : Selector.Table) (i : ClassInfo) (isClassMethod : Bool) :
    List MethodRecord :=
  ((i.side isClassMethod).filter fun e => !(p.funcAt e.func).invalid).map (methodRecord p t)

/-- The record of an annotated class. -/
def classRecord (p : Program) (t : Selector.Table) (id : ClassId) (i : ClassInfo) :
    ClassRecord where
  cls := id
  name := p.className id
  symbol := classSymbol (p.className id)
  metaclassSymbol := i.paired.map p.className
  superclass := i.superclass.map p.className
  isInterface := (p.classAt id).isInterface
  instanceMethods := methodRecords p t i false
  classMethods := methodRecords p t i true

/-- The annotation of a class that has a record. -/
def recorded? (d : ClassDecl) : Option ClassInfo :=
  if d.invalid || d.foreign || d.synthesized then none
  else d.info.filter (!·.isMetaclass)

/-- The records of all classes that have one, and all selectors. -/
def collect (p : Program) (t : Selector.Table) : Emission where
  classes := p.classes.entries.filterMap fun e => (recorded? e.2).map (classRecord p t e.1)
  selectors := t.handles.map t.text

/-- The first record of the given name. -/
def find? (e : Emission) (name : String) : Option ClassRecord :=
  e.classes.find? (·.name == name)

/-- Whether there is nothing to emit. -/
def isEmpty (e : Emission) : Bool := e.classes.isEmpty && e.selectors.isEmpty

theorem collect_classes (p : Program) (t : Selector.Table) :
    (collect p t).classes = p.classes.handles.filterMap fun cls =>
      (recorded? (p.classAt cls)).map (classRecord p t cls) := by
  rw [collect, Arena.entries_eq, List.filterMap_map]
  rfl

theorem recorded?_eq_some_iff {d : ClassDecl} {i : ClassInfo} :
    recorded? d = some i ↔ d.invalid = false ∧ d.foreign = false ∧ d.synthesized = false ∧
      d.info = some i ∧ i.role = .ordinary := by
  have hrole : i.isMetaclass = false ↔ i.role = .ordinary := by
    cases hr : i.role <;> simp [ClassInfo.isMetaclass, hr]
  cases hv : d.invalid <;> cases hf : d.foreign <;> cases hs : d.synthesized <;>
    simp [recorded?, hv, hf, hs, Option.filter_eq_some_iff, hrole]

theorem mem_collect_classes {p : Program} {t : Selector.Table} {r : ClassRecord} :
    r ∈ (collect p t).classes ↔ ∃ cls i, p.classes.contains cls = true ∧
      recorded? (p.classAt cls) = some i ∧ r = classRecord p t cls i := by
  rw [collect_classes, List.mem_filterMap]
  constructor
  · rintro ⟨cls, hcls, hr⟩
    obtain ⟨i, hi, rfl⟩ := Option.map_eq_some_iff.1 hr
    exact ⟨cls, i, Arena.mem_handles.1 hcls, hi, rfl⟩
  · rintro ⟨cls, i, hcls, hi, rfl⟩
    exact ⟨cls, Arena.mem_handles.2 hcls, Option.map_eq_some_iff.2 ⟨i, hi, rfl⟩⟩

/-- The records stand in the order of the declarations. -/
theorem collect_classes_pairwise (p : Program) (t : Selector.Table) :
    (collect p t).classes.Pairwise fun r r' => r.cls.index < r'.cls.index := by
  rw [collect_classes, Arena.handles, List.filterMap_map]
  refine List.Pairwise.filterMap _ (fun n n' hlt r hr r' hr' => ?_) List.pairwise_lt_range
  obtain ⟨i, -, rfl⟩ := Option.map_eq_some_iff.1 hr
  obtain ⟨i', -, rfl⟩ := Option.map_eq_some_iff.1 hr'
  exact hlt

end Emission

end ObjcBinding
