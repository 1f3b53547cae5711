import Mathlib.Algebra.Order.Group.Nat
import Mathlib.Data.Finset.Card
import Mathlib.Data.Nat.ModEq

/-!
# Blocks of addresses

- `roundUp n a` is `n` rounded up to a multiple of `a`; `roundUp_eq` says which one.
- `blocksTouched a m start size` are the blocks of `a` addresses that the `size` addresses from `start` on lie in, where
  addresses wrap at `m`. There are as many of them as if they did not wrap (`card_blocksTouched`).
-/

namespace Lib

variable {a n start size : Nat}

/-! ## Rounding -/

/-- `n`, or the next multiple of `a`. -/
def roundUp (n a : Nat) : Nat := if n % a ≠ 0 then n + a - n % a else n

/-- The rounded number counts the blocks up to the last address. -/
theorem roundUp_eq (ha : 0 < a) (hn : 0 < n) : roundUp n a = a * ((n - 1) / a + 1) := by
  have hdiv := Nat.div_add_mod n a
  by_cases h : n % a = 0
  · -- the last address is the last one of its block
    have hpos : 0 < n / a := Nat.div_pos (Nat.le_of_mod_lt (by omega)) ha
    have hlast : (n - 1) / a = n / a - 1 := by
      rw [Nat.div_eq_iff ha, Nat.sub_mul, Nat.mul_comm]
      have hle : a ≤ a * (n / a) := Nat.le_mul_of_pos_right a hpos
      omega
    rw [roundUp, if_neg (not_not_intro h), hlast, Nat.sub_add_cancel hpos]
    omega
  · have hlast : (n - 1) / a = n / a := by
      rw [Nat.div_eq_iff ha, Nat.mul_comm]
      have hlt := Nat.mod_lt n ha
      omega
    have hlt := Nat.mod_lt n ha
    rw [roundUp, if_pos h, hlast, Nat.mul_succ]
    omega

/-! ## Blocks -/

/-- The blocks that `size` addresses from `start` on lie in. -/
def blocksTouched (a m start size : Nat) : Finset Nat := (Finset.range size).image fun i => (start + i) % m / a

/-- The block of an address, counted from the block of the start. -/
theorem block_eq (ha : 0 < a) (start n i : Nat) :
    (start + i) % (a * n) / a = (start / a + (start % a + i) / a) % n := by
  have hstart : start + i = start % a + i + a * (start / a) := by
    have hdiv := Nat.div_add_mod start a
    omega
  rw [Nat.mod_mul_right_div_self, hstart, Nat.add_mul_div_left _ _ ha, Nat.add_comm (start / a)]

/-- From an offset in the first block, the blocks are visited one after the other. -/
theorem image_offset (ha : 0 < a) {o : Nat} (ho : o < a) (hsize : 0 < size) :
    ((Finset.range size).image fun i => (o + i) / a) = Finset.range ((o + size - 1) / a + 1) := by
  ext k
  rw [Finset.mem_image, Finset.mem_range, Nat.lt_succ_iff]
  constructor
  · rintro ⟨i, hi, rfl⟩
    rw [Finset.mem_range] at hi
    exact Nat.div_le_div_right (by omega)
  · intro hk
    have hle := (Nat.le_div_iff_mul_le ha).mp hk
    by_cases h0 : k = 0
    · subst h0
      exact ⟨0, Finset.mem_range.mpr hsize, Nat.div_eq_of_lt (by omega)⟩
    · -- the first address of the block
      have hfirst : a ≤ k * a := Nat.le_mul_of_pos_left a (Nat.pos_of_ne_zero h0)
      refine ⟨k * a - o, Finset.mem_range.mpr (by omega), ?_⟩
      have hsum : o + (k * a - o) = k * a := by omega
      rw [hsum, Nat.mul_div_cancel _ ha]

/-- **Counting blocks.** As long as the addresses do not come round to the first block, wrapping does not matter. -/
theorem card_blocksTouched (ha : 0 < a) (hsize : 0 < size) (hfit : start % a + size ≤ a * n) :
    (blocksTouched a (a * n) start size).card = (start % a + size - 1) / a + 1 := by
  have hcompose : blocksTouched a (a * n) start size =
      (Finset.range ((start % a + size - 1) / a + 1)).image fun k => (start / a + k) % n := by
    rw [← image_offset ha (Nat.mod_lt start ha) hsize, Finset.image_image]
    exact Finset.image_congr fun i _ => block_eq ha start n i
  have hcount : (start % a + size - 1) / a < n := by
    rw [Nat.div_lt_iff_lt_mul ha, Nat.mul_comm]
    omega
  rw [hcompose, Finset.card_image_of_injOn, Finset.card_range]
  intro k hk k' hk' h
  have hlt : k < n := Nat.lt_of_lt_of_le (Finset.mem_range.mp hk) hcount
  have hlt' : k' < n := Nat.lt_of_lt_of_le (Finset.mem_range.mp hk') hcount
  have hmod : k % n = k' % n := Nat.ModEq.add_left_cancel' (start / a) h
  rwa [Nat.mod_eq_of_lt hlt, Nat.mod_eq_of_lt hlt'] at hmod

end Lib
