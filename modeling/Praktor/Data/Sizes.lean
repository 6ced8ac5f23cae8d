/-
# Sizes of 64 bits

Sums, differences and products of `size_t` wrap around at `SIZE_MAX`.
-/

import Praktor.Data.Bytes

namespace Praktor.Data

/-- A sum of `size_t`. -/
def sizeAdd (first second : Nat) : Nat := (first + second) % (sizeMax + 1)

/-- A difference of `size_t`. -/
def sizeSub (first second : Nat) : Nat := (first + (sizeMax + 1 - second)) % (sizeMax + 1)

/-- A product of `size_t`. -/
def sizeMul (first second : Nat) : Nat := first * second % (sizeMax + 1)

theorem sizeAdd_eq {first second : Nat} (hsum : first + second ≤ sizeMax) :
    sizeAdd first second = first + second :=
  Nat.mod_eq_of_lt (Nat.lt_succ_of_le hsum)

theorem sizeSub_eq {first second : Nat} (hle : second ≤ first) (hfirst : first ≤ sizeMax) :
    sizeSub first second = first - second := by
  have hsame : first + (sizeMax + 1 - second) = (first - second) + (sizeMax + 1) := by omega
  rw [sizeSub, hsame, Nat.add_mod_right]
  exact Nat.mod_eq_of_lt (by omega)

theorem sizeMul_eq {first second : Nat} (hproduct : first * second ≤ sizeMax) :
    sizeMul first second = first * second :=
  Nat.mod_eq_of_lt (Nat.lt_succ_of_le hproduct)

end Praktor.Data
