import ObjcBinding.Text.Combining
import ObjcBinding.Text.Printable

/-!
# Quoted texts

A quoted text stands between double quotes. Inside, the quote and the backslash are preceded by
a backslash, four control characters have a letter of their own, and every other character that
cannot be shown by itself is written by its code point.

* `quote` writes a text so;
* `escape_of_plain`: a printable ASCII character other than the quote and the backslash stands
  for itself.
-/

namespace ObjcBinding.Text

/-- A character by its code point, in lower-case hexadecimal digits. -/
def codeEscape (c : Char) : List Char :=
  ['\\', 'u', '{'] ++ Nat.toDigits 16 c.toNat ++ ['}']

/-- How one character is written between the quotes. -/
def escape (c : Char) : List Char :=
  if c = '"' then ['\\', '"']
  else if c = '\\' then ['\\', '\\']
  else if c = '\t' then ['\\', 't']
  else if c = '\r' then ['\\', 'r']
  else if c = '\n' then ['\\', 'n']
  else if c = '\x00' then ['\\', '0']
  else if isCombining c || !isPrintable c then codeEscape c
  else [c]

/-- The text between double quotes. -/
def quote (s : String) : String :=
  String.ofList (['"'] ++ s.toList.flatMap escape ++ ['"'])

/-- A list of quoted texts in brackets. -/
def quoteList (texts : List String) : String :=
  "[" ++ ", ".intercalate (texts.map quote) ++ "]"

theorem combiningRanges_lt : ∀ r ∈ combiningRanges, 0x80 ≤ r.1 := by decide +kernel

theorem escape_of_plain {c : Char} (hq : c ≠ '"') (hb : c ≠ '\\') (hl : 0x20 ≤ c.toNat)
    (hu : c.toNat < 0x7F) : escape c = [c] := by
  have h0 : ∀ d : Char, d.toNat < 0x20 → c ≠ d := fun d hd e => by subst e; omega
  have hp : isPrintable c = true := by
    rw [isPrintable_of_ascii (by omega)]
    simp only [Bool.not_or, Bool.and_eq_true, Bool.not_eq_true', decide_eq_false_iff_not,
      beq_eq_false_iff_ne]
    omega
  have hc : isCombining c = false :=
    inRanges_of_lt fun r hr => Nat.lt_of_lt_of_le (by omega) (combiningRanges_lt r hr)
  simp [escape, hq, hb, h0 '\t' (by decide), h0 '\r' (by decide), h0 '\n' (by decide),
    h0 '\x00' (by decide), hp, hc]

end ObjcBinding.Text
