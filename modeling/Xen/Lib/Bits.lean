import Mathlib.Algebra.Group.Int.Defs
import Mathlib.Algebra.Group.Nat.Defs
import Mathlib.Tactic.ByContra

/-!
# Words with one bit, and low bits

`1#w <<< i` is the word whose only bit is `i`. A program sets that bit with `x ||| 1#w <<< i`, clears it with
`x &&& ~~~(1#w <<< i)` and tests it with `x &&& 1#w <<< i ≠ 0`; what this does to each bit of `x`:
`or_bit_self`, `or_bit_others`, `andNot_bit_self`, `andNot_bit_others` and `and_bit_ne_zero_iff`. `writeBit` assigns
to a bit-field of one bit, `setWidth` truncates to one of several.

`2 ^ k - 1` is the word of the bits below `k`: masking with it is reduction modulo `2 ^ k`, of the signed reading too
(`and_lowMask_toInt`).

`LowestSet x k` says that `k` is the lowest set bit of `x`: every word but 0 has one (`exists_lowestSet`), a shift to
the right moves it and a truncation keeps it.
-/

namespace Lib

variable {w i j : Nat}

theorem getLsbD_bit (w i j : Nat) : (1#w <<< i).getLsbD j = (decide (j < w) && decide (j = i)) := by
  simp only [BitVec.getLsbD_shiftLeft, BitVec.getLsbD_one]
  by_cases h : j = i
  · subst h
    by_cases hj : j < w
    · have hw : 0 < w := by omega
      simp [hj, hw]
    · simp [hj]
  · have hne : i ≤ j → ¬j - i = 0 := by omega
    by_cases hij : j < i
    · simp [h, hij]
    · simp [h, hij, hne (Nat.le_of_not_lt hij)]

theorem or_bit_self (x : BitVec w) (h : i < w) : (x ||| 1#w <<< i).getLsbD i = true := by
  rw [BitVec.getLsbD_or, getLsbD_bit]
  simp [h]

theorem or_bit_others (x : BitVec w) (h : j ≠ i) : (x ||| 1#w <<< i).getLsbD j = x.getLsbD j := by
  rw [BitVec.getLsbD_or, getLsbD_bit]
  simp [h]

theorem andNot_bit_self (x : BitVec w) (i : Nat) : (x &&& ~~~(1#w <<< i)).getLsbD i = false := by
  rw [BitVec.getLsbD_and, BitVec.getLsbD_not, getLsbD_bit]
  by_cases h : i < w
  · simp [h]
  · simp [h]

theorem andNot_bit_others (x : BitVec w) (h : j ≠ i) : (x &&& ~~~(1#w <<< i)).getLsbD j = x.getLsbD j := by
  rw [BitVec.getLsbD_and, BitVec.getLsbD_not, getLsbD_bit]
  by_cases hj : j < w
  · simp [h, hj]
  · simp [BitVec.getLsbD_of_ge _ _ (Nat.le_of_not_lt hj)]

/-- **The test** finds the bit. -/
theorem and_bit_ne_zero_iff (x : BitVec w) (h : i < w) : x &&& 1#w <<< i ≠ 0 ↔ x.getLsbD i = true := by
  have hbit : (x &&& 1#w <<< i).getLsbD i = x.getLsbD i := by
    rw [BitVec.getLsbD_and, getLsbD_bit]
    simp [h]
  constructor
  · intro hne
    by_contra hx
    refine hne (BitVec.eq_of_getLsbD_eq fun j hj => ?_)
    by_cases hji : j = i
    · subst hji
      rw [hbit]
      simpa using hx
    · rw [BitVec.getLsbD_and, getLsbD_bit]
      simp [hji]
  · intro hx h0
    rw [h0] at hbit
    simp [hx] at hbit

/-! ## Bit-fields -/

/-- The word with bit `i` assigned to. -/
def writeBit (x : BitVec w) (i : Nat) (b : Bool) : BitVec w :=
  if b then x ||| 1#w <<< i else x &&& ~~~(1#w <<< i)

theorem writeBit_self (x : BitVec w) (b : Bool) (h : i < w) : (writeBit x i b).getLsbD i = b := by
  cases b with
  | false => exact andNot_bit_self x i
  | true => exact or_bit_self x h

theorem writeBit_others (x : BitVec w) (b : Bool) (h : j ≠ i) : (writeBit x i b).getLsbD j = x.getLsbD j := by
  cases b with
  | false => exact andNot_bit_others x h
  | true => exact or_bit_others x h

/-- Assigning a bit what it is does nothing. -/
theorem writeBit_eq_self {x : BitVec w} {b : Bool} (h : x.getLsbD i = b) : writeBit x i b = x := by
  apply BitVec.eq_of_getLsbD_eq
  intro j hj
  by_cases hji : j = i
  · subst hji
    rw [writeBit_self x b hj, h]
  · exact writeBit_others x b hji

/-- Without bits from `k` on, a word fits in `k` bits. -/
theorem setWidth_setWidth_of_shiftRight {k : Nat} (x : BitVec w) (h : x >>> k = 0) :
    (x.setWidth k).setWidth w = x := by
  apply BitVec.eq_of_getLsbD_eq
  intro j hj
  rw [BitVec.getLsbD_setWidth, BitVec.getLsbD_setWidth]
  by_cases hjk : j < k
  · simp [hj, hjk]
  · have hbit : (x >>> k).getLsbD (j - k) = x.getLsbD j := by
      rw [BitVec.getLsbD_ushiftRight, Nat.add_sub_cancel' (Nat.le_of_not_lt hjk)]
    rw [h] at hbit
    simp [hjk, ← hbit]

/-- A sign extension keeps the low bits. -/
theorem setWidth_signExtend {v : Nat} (x : BitVec w) (h : w ≤ v) : (x.signExtend v).setWidth w = x := by
  apply BitVec.eq_of_getLsbD_eq
  intro i hi
  have hv : i < v := Nat.lt_of_lt_of_le hi h
  rw [BitVec.getLsbD_setWidth, BitVec.getLsbD_signExtend, if_pos hi]
  simp [hi, hv]

/-- Words without a common bit. -/
theorem and_eq_zero_iff (x y : BitVec w) : x &&& y = 0 ↔ ∀ i, x.getLsbD i = true → y.getLsbD i = false := by
  constructor
  · intro h i hx
    have hbit := congrArg (·.getLsbD i) h
    simpa only [BitVec.getLsbD_and, hx, Bool.true_and, BitVec.ofNat_eq_ofNat, BitVec.getLsbD_zero] using hbit
  · intro h
    apply BitVec.eq_of_getLsbD_eq
    intro i _
    rw [BitVec.getLsbD_and]
    cases hx : x.getLsbD i with
    | false => simp
    | true => simp [h i hx]

/-- A word extended by zeros has only bits in common with the low part of the other one. -/
theorem and_setWidth_eq_zero_iff {v : Nat} (x : BitVec v) (y : BitVec w) (h : w ≤ v) :
    x &&& y.setWidth v = 0 ↔ y &&& x.setWidth w = 0 := by
  rw [and_eq_zero_iff, and_eq_zero_iff]
  constructor
  · intro hx i hy
    have hi : i < w := BitVec.lt_of_getLsbD hy
    rw [BitVec.getLsbD_setWidth, decide_eq_true hi, Bool.true_and, ← Bool.not_eq_true]
    intro hxi
    have hyi := hx i hxi
    rw [BitVec.getLsbD_setWidth, hy, decide_eq_true (Nat.lt_of_lt_of_le hi h)] at hyi
    cases hyi
  · intro hy i hx
    rw [BitVec.getLsbD_setWidth, ← Bool.not_eq_true]
    intro hyi
    obtain ⟨-, hyi⟩ := Bool.and_eq_true_iff.mp hyi
    have hxi := hy i hyi
    rw [BitVec.getLsbD_setWidth, hx, decide_eq_true (BitVec.lt_of_getLsbD hyi)] at hxi
    cases hxi

/-! ## Low bits -/

/-- Reducing to a word of `w` bits leaves the residue modulo `2 ^ k`. -/
theorem bmod_emod_two_pow (n : Int) {k : Nat} (hk : k ≤ w) : Int.bmod n (2 ^ w) % 2 ^ k = n % 2 ^ k := by
  have hdvd : (2 ^ k : Int) ∣ ((2 ^ w : Nat) : Int) := by
    have hnat : ((2 ^ k : Nat) : Int) ∣ ((2 ^ w : Nat) : Int) := Int.natCast_dvd_natCast.mpr (Nat.pow_dvd_pow 2 hk)
    rwa [Int.natCast_pow] at hnat
  rw [← Int.emod_emod_of_dvd _ hdvd, Int.bmod_emod, Int.emod_emod_of_dvd _ hdvd]

theorem getLsbD_lowMask (w k j : Nat) :
    (BitVec.ofNat w (2 ^ k - 1)).getLsbD j = (decide (j < w) && decide (j < k)) := by
  rw [BitVec.getLsbD_ofNat, Nat.testBit_two_pow_sub_one]

/-- Truncating to `k` bits is masking. -/
theorem setWidth_setWidth_eq_and (x : BitVec w) (k : Nat) :
    (x.setWidth k).setWidth w = x &&& BitVec.ofNat w (2 ^ k - 1) := by
  apply BitVec.eq_of_getLsbD_eq
  intro j hj
  rw [BitVec.getLsbD_setWidth, BitVec.getLsbD_setWidth, BitVec.getLsbD_and, getLsbD_lowMask]
  simp [hj, Bool.and_comm]

/-- With the low bits set to ones, it does not matter that they were shifted out. -/
theorem shiftRight_shiftLeft_or (x : BitVec w) (k : Nat) :
    ((x >>> k) <<< k) ||| BitVec.ofNat w (2 ^ k - 1) = x ||| BitVec.ofNat w (2 ^ k - 1) := by
  apply BitVec.eq_of_getLsbD_eq
  intro j hj
  rw [BitVec.getLsbD_or, BitVec.getLsbD_or, getLsbD_lowMask]
  by_cases hjk : j < k
  · simp [hj, hjk]
  · have hle : k ≤ j := Nat.le_of_not_lt hjk
    rw [BitVec.getLsbD_shiftLeft, BitVec.getLsbD_ushiftRight, Nat.add_sub_cancel' hle]
    simp [hj, hjk]

/-- **Masking** a word with `2 ^ k - 1` leaves its residue. -/
theorem and_lowMask_toInt (x : BitVec w) {k : Nat} (hk : k < w) :
    (x &&& BitVec.ofNat w (2 ^ k - 1)).toInt = x.toInt % 2 ^ k := by
  have hlt : 2 ^ k < 2 ^ w := Nat.pow_lt_pow_right Nat.one_lt_two hk
  have htwo : 2 * 2 ^ k ≤ 2 ^ w := by
    rw [← Nat.pow_succ']
    exact Nat.pow_le_pow_right (by omega) hk
  have hnat : (x &&& BitVec.ofNat w (2 ^ k - 1)).toNat = x.toNat % 2 ^ k := by
    rw [BitVec.toNat_and, BitVec.toNat_ofNat, Nat.mod_eq_of_lt (by omega), Nat.and_two_pow_sub_one_eq_mod]
  have hmod : x.toNat % 2 ^ k < 2 ^ k := Nat.mod_lt _ (Nat.two_pow_pos k)
  rw [BitVec.toInt_eq_toNat_of_lt (by omega), hnat, BitVec.toInt_eq_toNat_bmod, bmod_emod_two_pow _ (Nat.le_of_lt hk)]
  rfl

/-! ## The lowest set bit -/

/-- `k` is the lowest set bit of `x`. -/
structure LowestSet (x : BitVec w) (k : Nat) : Prop where
  set : x.getLsbD k = true
  clear : ∀ j < k, x.getLsbD j = false

section LowestSet

variable {x : BitVec w} {k : Nat}

theorem exists_lowestSet (h : x ≠ 0) : ∃ k, LowestSet x k :=
  ⟨x.ctz.toNat, BitVec.getLsbD_true_ctz_of_ne_zero h, fun _ hj => BitVec.getLsbD_false_of_lt_ctz hj⟩

theorem LowestSet.lt (h : LowestSet x k) : k < w := BitVec.lt_of_getLsbD h.set

theorem LowestSet.ne_zero (h : LowestSet x k) : x ≠ 0 := by
  rintro rfl
  have hset := h.set
  simp at hset

/-- A shift by `s` brings the bit down, whatever it moves in from above. -/
theorem LowestSet.sshiftRight {s : Nat} (h : LowestSet x (k + s)) : LowestSet (x.sshiftRight s) k := by
  have hlt := h.lt
  have hbit : ∀ j ≤ k, (x.sshiftRight s).getLsbD j = x.getLsbD (j + s) := by
    intro j hj
    rw [BitVec.getLsbD_sshiftRight, Nat.add_comm s j, if_pos (by omega)]
    have hw : ¬w ≤ j := by omega
    simp [hw]
  constructor
  · rw [hbit k (Nat.le_refl k)]
    exact h.set
  · intro j hj
    rw [hbit j (Nat.le_of_lt hj)]
    exact h.clear (j + s) (Nat.add_lt_add_right hj s)

theorem LowestSet.setWidth {v : Nat} (h : LowestSet x k) (hk : k < v) : LowestSet (x.setWidth v) k := by
  constructor
  · rw [BitVec.getLsbD_setWidth, h.set, decide_eq_true hk, Bool.and_self]
  · intro j hj
    rw [BitVec.getLsbD_setWidth, h.clear j hj, Bool.and_false]

/-- A truncation below the bit leaves nothing. -/
theorem LowestSet.setWidth_eq_zero {v : Nat} (h : LowestSet x k) (hv : v ≤ k) : x.setWidth v = 0 := by
  apply BitVec.eq_of_getLsbD_eq
  intro j hj
  rw [BitVec.getLsbD_setWidth, h.clear j (by omega), Bool.and_false]
  simp

/-- `x & 1` tests bit 0. -/
theorem and_one_ne_zero_iff (x : BitVec w) (hw : 0 < w) : x &&& 1#w ≠ 0 ↔ x.getLsbD 0 = true := by
  have hbit := and_bit_ne_zero_iff x hw
  rwa [BitVec.shiftLeft_zero] at hbit

end LowestSet

end Lib
