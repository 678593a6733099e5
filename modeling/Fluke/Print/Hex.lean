import Fluke.Print.Printf

/-!
# Strings of hexadecimal digits

The digits that the kernel writes and reads are lower-case. A string of them is a number whose first
digit is the most significant.
-/

namespace Fluke

open Digits

/-- `0-9` or `a-f` -/
def IsHexDigit (ch : BitVec 8) : Prop :=
  0x30 ≤ ch ∧ ch ≤ 0x39 ∨ 0x61 ≤ ch ∧ ch ≤ 0x66

instance (ch : BitVec 8) : Decidable (IsHexDigit ch) := inferInstanceAs (Decidable (_ ∨ _))

/-- The value of a digit. -/
def hexValue (ch : BitVec 8) : ℕ := if ch ≤ 0x39 then ch.toNat - 0x30 else ch.toNat - 0x61 + 10

/-- The number that a string of digits stands for. -/
def hexNumber (text : List (BitVec 8)) : ℕ := value 16 (text.map hexValue)

end Fluke
