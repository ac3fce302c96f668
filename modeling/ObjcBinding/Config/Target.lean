import ObjcBinding.Text.Blank
import ObjcBinding.Text.Pieces
import ObjcBinding.Text.Quoted

/-!
# Compilation targets

A target triple names an architecture, possibly a vendor, and an operating system. The target
decides the strategy: declarations are bound only where the Objective-C runtime exists, on the
Apple systems with a 64-bit processor.

* `Arch.parse_name`, `Os.parse?_name`: an architecture and a system are read back from their names;
* `Target.parse_eq_error_iff`: a triple is refused exactly if it has a single component or an
  empty one;
* `Target.parse_display`: a target is read back from its triple;
* `Strategy.forTarget_eq_functional_iff`: where the runtime exists.
-/

namespace ObjcBinding

/-- Processor architectures, as far as they are told apart. -/
inductive Arch where
  | x86_64 | aarch64 | x86 | arm | wasm32 | other
  deriving DecidableEq, Repr

namespace Arch

/-- The architecture that the first component of a triple names. -/
def parse (s : String) : Arch :=
  if s ∈ ["x86_64", "amd64"] then x86_64
  else if s ∈ ["aarch64", "arm64", "arm64e"] then aarch64
  else if s ∈ ["i386", "i586", "i686", "x86"] then x86
  else if s = "wasm32" then wasm32
  else if "arm".toList.isPrefixOf s.toList || "thumb".toList.isPrefixOf s.toList then arm
  else other

/-- The spelling of an architecture in triples. -/
def name : Arch → String
  | x86_64 => "x86_64"
  | aarch64 => "aarch64"
  | x86 => "i686"
  | arm => "arm"
  | wasm32 => "wasm32"
  | other => "unknown"

theorem parse_name (a : Arch) : parse a.name = a := by
  cases a <;> decide

end Arch

/-- Operating systems, as far as they are told apart. -/
inductive Os where
  | macOs | iOs | tvOs | watchOs | linux | windows | freeBsd | unknown
  deriving DecidableEq, Repr

namespace Os

/-- Whether `c` may belong to a version number. -/
def isVersionChar (c : Char) : Bool := c.isDigit || c == '.'

/-- The system of the given name. -/
def named? (s : String) : Option Os :=
  if s ∈ ["darwin", "macos", "macosx"] then some macOs
  else if s = "ios" then some iOs
  else if s = "tvos" then some tvOs
  else if s = "watchos" then some watchOs
  else if s = "linux" then some linux
  else if s ∈ ["windows", "win"] then some windows
  else if s = "freebsd" then some freeBsd
  else none

/-- The system that a component of a triple names, the version at its end left aside. -/
def parse? (component : List Char) : Option Os :=
  named? (String.ofList (Text.trimEnd isVersionChar component))

/-- Whether the system is one of Apple's. -/
def isApple : Os → Bool
  | macOs | iOs | tvOs | watchOs => true
  | linux | windows | freeBsd | unknown => false

/-- The spelling of a system in triples. -/
def name : Os → String
  | macOs => "macos"
  | iOs => "ios"
  | tvOs => "tvos"
  | watchOs => "watchos"
  | linux => "linux"
  | windows => "windows"
  | freeBsd => "freebsd"
  | unknown => "unknown"

theorem parse?_name {o : Os} (h : o ≠ unknown) : parse? o.name.toList = some o := by
  cases o with
  | unknown => exact absurd rfl h
  | _ => rfl

end Os

/-- What is compiled for. -/
@[ext]
structure Target where
  arch : Arch
  os : Os
  deriving DecidableEq, Repr

/-- A text that is no target triple, without the blanks at its ends. -/
structure InvalidTriple where
  triple : String
  deriving DecidableEq, Repr

namespace Target

/-- Reads a triple: the first component gives the architecture, the first later one that names a
system the system. -/
def parse (s : String) : Except InvalidTriple Target :=
  let triple := Text.trim s
  match Text.pieces '-' triple.toList with
  | arch :: rest =>
    if arch = [] ∨ rest = [] ∨ [] ∈ rest then .error ⟨triple⟩
    else .ok ⟨.parse (String.ofList arch), (rest.findSome? Os.parse?).getD .unknown⟩
  | [] => .error ⟨triple⟩

/-- The triple of a target. -/
def display (t : Target) : String :=
  t.arch.name ++ "-" ++ (if t.os.isApple then "apple" else "unknown") ++ "-" ++ t.os.name

/-- Whether the Objective-C runtime exists on the target. -/
def supportsObjc (t : Target) : Bool := t.os.isApple && (t.arch = .x86_64 || t.arch = .aarch64)

theorem parse_eq_error_iff {s : String} {e : InvalidTriple} :
    parse s = .error e ↔
      e = ⟨Text.trim s⟩ ∧
        ((Text.pieces '-' (Text.trim s).toList).length < 2 ∨
          [] ∈ Text.pieces '-' (Text.trim s).toList) := by
  unfold parse
  dsimp only
  split
  · rename_i arch rest hp
    rw [hp, List.length_cons, List.mem_cons]
    split
    · rename_i h
      rw [Except.error.injEq, eq_comm]
      refine ⟨fun he => ⟨he, ?_⟩, And.left⟩
      rcases h with h | h | h
      · exact .inr (.inl h.symm)
      · exact .inl (by rw [h]; decide)
      · exact .inr (.inr h)
    · rename_i h
      refine ⟨(nomatch ·), fun ⟨_, hc⟩ => absurd ?_ h⟩
      rcases hc with hc | hc | hc
      · exact .inr (.inl (List.length_eq_zero_iff.1 (by omega)))
      · exact .inl hc.symm
      · exact .inr (.inr hc)
  · rename_i hp
    exact absurd hp (Text.pieces_ne_nil _ _)

/-- Whether `c` may stand inside a component of a triple. -/
def IsPlain (c : Char) : Prop := c ≠ '-' ∧ Text.isBlank c = false

instance (c : Char) : Decidable (IsPlain c) := inferInstanceAs (Decidable (_ ∧ _))

theorem isPlain_of_all {l : List Char} (h : l.all (fun c => decide (IsPlain c)) = true) :
    ∀ c ∈ l, IsPlain c :=
  fun c hc => of_decide_eq_true (List.all_eq_true.1 h c hc)

theorem isPlain_arch (a : Arch) : ∀ c ∈ a.name.toList, IsPlain c := by
  refine isPlain_of_all ?_
  cases a <;> decide

theorem isPlain_os (o : Os) : ∀ c ∈ o.name.toList, IsPlain c := by
  refine isPlain_of_all ?_
  cases o <;> decide

/-- A triple of plain components, of which the second one does not name a system. -/
theorem parse_of_plain {triple : String} {arch vendor os : List Char}
    (h : triple.toList = arch ++ '-' :: (vendor ++ '-' :: os))
    (ha : ∀ c ∈ arch, IsPlain c) (hv : ∀ c ∈ vendor, IsPlain c) (ho : ∀ c ∈ os, IsPlain c)
    (hne : arch ≠ [] ∧ vendor ≠ [] ∧ os ≠ []) (hnone : Os.parse? vendor = none) :
    parse triple = .ok ⟨.parse (String.ofList arch), (Os.parse? os).getD .unknown⟩ := by
  have htrim : Text.trim triple = triple := by
    refine Text.trim_eq_self fun c hc => ?_
    rw [h, List.mem_append, List.mem_cons, List.mem_append, List.mem_cons] at hc
    rcases hc with hc | rfl | hc | rfl | hc
    · exact (ha c hc).2
    · rfl
    · exact (hv c hc).2
    · rfl
    · exact (ho c hc).2
  have hpieces : Text.pieces '-' triple.toList = [arch, vendor, os] := by
    rw [h, Text.pieces_append_cons fun hc => (ha _ hc).1 rfl,
      Text.pieces_append_cons fun hc => (hv _ hc).1 rfl,
      Text.pieces_of_notMem fun hc => (ho _ hc).1 rfl]
  have hfull : ¬ (arch = [] ∨ [vendor, os] = [] ∨ [] ∈ [vendor, os]) := by
    simp [hne.1, Ne.symm hne.2.1, Ne.symm hne.2.2]
  unfold parse
  simp only [htrim, hpieces, if_neg hfull, List.findSome?_cons, hnone, List.findSome?_nil]
  cases Os.parse? os <;> rfl

theorem parse_display (t : Target) : parse t.display = .ok t := by
  have hparts : ∀ vendor : String, (∀ c ∈ vendor.toList, IsPlain c) → vendor.toList ≠ [] →
      Os.parse? vendor.toList = none →
      parse (t.arch.name ++ "-" ++ vendor ++ "-" ++ t.os.name) = .ok t := by
    intro vendor hv hne hnone
    have hos : (Os.parse? t.os.name.toList).getD .unknown = t.os := by
      cases t.os <;> rfl
    have htriple : (t.arch.name ++ "-" ++ vendor ++ "-" ++ t.os.name).toList =
        t.arch.name.toList ++ '-' :: (vendor.toList ++ '-' :: t.os.name.toList) := by simp
    have hpieces : t.arch.name.toList ≠ [] ∧ vendor.toList ≠ [] ∧ t.os.name.toList ≠ [] := by
      refine ⟨?_, hne, ?_⟩
      · cases t.arch <;> decide
      · cases t.os <;> decide
    rw [parse_of_plain htriple (isPlain_arch t.arch) hv (isPlain_os t.os) hpieces hnone, hos,
      String.ofList_toList, Arch.parse_name]
  unfold display
  split <;> exact hparts _ (isPlain_of_all (by decide)) (by decide) (by decide)

end Target

/-- What is done with declarations: they are bound, or every request is accepted and ignored. -/
inductive Strategy where
  | functional | inert
  deriving DecidableEq, Repr

namespace Strategy

/-- The word for a strategy. -/
def name : Strategy → String
  | functional => "functional"
  | inert => "inert"

/-- The strategy that a target calls for. -/
def forTarget (t : Target) : Strategy := if t.supportsObjc then functional else inert

theorem forTarget_eq_functional_iff {t : Target} :
    forTarget t = functional ↔ t.supportsObjc = true := by
  unfold forTarget
  split <;> simp_all

end Strategy

end ObjcBinding
