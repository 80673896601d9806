import Cwist.Basic

/-!
# Decimal numbers

The character classes of the C library that the readers of decimal numbers use, and the texts that are such numbers.
-/

namespace Cwist
open List

/-- `isspace` in the C locale. -/
def isSpace (c : UInt8) : Bool := c == 0x20 || 0x09 ≤ c && c ≤ 0x0d

def isDigit (c : UInt8) : Bool := 0x30 ≤ c && c ≤ 0x39

def digitsValue (digits : Bytes) : Nat := digits.foldl (fun n c => n * 10 + (c.toNat - 0x30)) 0

def IsNumber (digits : Bytes) : Prop := digits ≠ [] ∧ digits.all isDigit = true

lemma digit_facts {c : UInt8} (digit : isDigit c = true) : c ≠ 0x00 ∧ c ≠ 0x2d ∧ c ≠ 0x2b ∧ isSpace c = false := by
  have all : ∀ i : Fin 256, isDigit (UInt8.ofFin i) = true → UInt8.ofFin i ≠ 0x00 ∧ UInt8.ofFin i ≠ 0x2d ∧
      UInt8.ofFin i ≠ 0x2b ∧ isSpace (UInt8.ofFin i) = false := by
    decide +kernel
  exact all c.toFin digit

namespace IsNumber

variable {digits : Bytes} (number : IsNumber digits)
include number

lemma takeWhile : digits.takeWhile isDigit = digits := by
  rw [takeWhile_eq_self_iff]
  exact all_eq_true.mp number.2

lemma dropWhile : digits.dropWhile isDigit = [] := by
  rw [dropWhile_eq_nil_iff]
  exact all_eq_true.mp number.2

lemma nulFree : 0x00 ∉ digits :=
  fun inside => (digit_facts (all_eq_true.mp number.2 _ inside)).1 rfl

lemma head : digits.dropWhile isSpace = digits ∧ digits.head? ≠ some 0x2d ∧ digits.head? ≠ some 0x2b := by
  obtain ⟨some_, all⟩ := number
  cases digits with
  | nil => exact absurd rfl some_
  | cons c rest =>
    obtain ⟨-, minus, plus, space⟩ := digit_facts (all_eq_true.mp all c mem_cons_self)
    simp [space, minus, plus]

end IsNumber

end Cwist
