import Xen.Lib.Bits
import Xen.Lib.Logged

/-!
# The first set bit (`string_verified.c`)

- `ffs` shifts its argument to the right until bit 0 is set. The shift is arithmetic, so a negative argument does not
  become 0; the loop ends because the lowest set bit arrives first (`ffsLoop_lowest`).
- `ffsti2` (`__ffsti2`) takes a `long long int` apart: an `int` of its low half, then the high half (`tmpint_eq`).
- `ffs_ok`: both return 0 for 0, and else one more than the index of the lowest set bit.
-/

namespace Xen.Strings

open Lib

/-! ## The functions -/

/-- The body of `ffs` on `i` and `c`. -/
def ffsBody (s : BitVec 32 × Nat) : Logged Empty (Iter (BitVec 32 × Nat) Nat) :=
  let i := s.1
  let c := s.2
  if i &&& 1 ≠ 0 then
    pure (.leave c)
  else
    let i := i.sshiftRight 1
    let c := c + 1
    -- `while (i)`
    if i ≠ 0 then pure (.next (i, c)) else pure (.leave 0)

/-- `ffs`; `none` when `fuel` iterations do not end the loop. -/
def ffs (fuel : Nat) (i : BitVec 32) : Option Nat := (loop ffsBody fuel (i, 1)).val

/-- `sizeof(long long int) / sizeof(int)`. -/
def num : Nat := 8 / 4

/-- `sizeof(int) * 8`. -/
def len : Nat := 4 * 8

/-- `(int) (((lli >> len) << len) ^ lli)`. -/
def tmpint (lli : BitVec 64) : BitVec 32 := ((lli.sshiftRight len <<< len) ^^^ lli).setWidth 32

/-- The loop of `__ffsti2`, with `n` iterations left. -/
def ffsti2Loop (fuel : Nat) : (n : Nat) → (lli : BitVec 64) → (i : Nat) → Option Nat
  | 0, _, _ => some 0
  | n + 1, lli, i =>
    match ffs fuel (tmpint lli) with
    | none => none
    | some t => if t ≠ 0 then some (t + i * len) else ffsti2Loop fuel n (lli.sshiftRight len) (i + 1)

/-- `__ffsti2`. -/
def ffsti2 (fuel : Nat) (lli : BitVec 64) : Option Nat :=
  if num = 1 then ffs fuel (lli.setWidth 32) else ffsti2Loop fuel num lli 0

/-! ## `ffs` -/

/-- **The first set bit** of a word, counted from 1, or 0. -/
structure IsFfs {w : Nat} (x : BitVec w) (r : Nat) : Prop where
  zero : r = 0 ↔ x = 0
  lowest : x ≠ 0 → ∃ k, LowestSet x k ∧ r = k + 1

/-- A function that is right for 0 and for every lowest set bit. -/
theorem exists_isFfs {w : Nat} {f : BitVec w → Option Nat} (h0 : f 0 = some 0)
    (h : ∀ x k, LowestSet x k → f x = some (k + 1)) (x : BitVec w) : ∃ r, f x = some r ∧ IsFfs x r := by
  by_cases hx : x = 0
  · subst hx
    exact ⟨0, h0, iff_of_true rfl rfl, fun hne => absurd rfl hne⟩
  · obtain ⟨k, hk⟩ := exists_lowestSet hx
    exact ⟨k + 1, h x k hk, iff_of_false (Nat.succ_ne_zero k) hx, fun _ => ⟨k, hk, rfl⟩⟩

section Ffs

variable {i : BitVec 32} {c k fuel : Nat}

/-- Bit 0 is set. -/
theorem ffsBody_set (h : i.getLsbD 0 = true) : ffsBody (i, c) = ⟨.leave c, []⟩ := by
  have hbit : i &&& 1 ≠ 0 := (and_one_ne_zero_iff i (by decide)).mpr h
  simp only [ffsBody]
  rw [if_pos hbit]
  rfl

/-- Bit 0 is clear, and the rest is not 0. -/
theorem ffsBody_clear (h : i.getLsbD 0 = false) (hi : i.sshiftRight 1 ≠ 0) :
    ffsBody (i, c) = ⟨.next (i.sshiftRight 1, c + 1), []⟩ := by
  have hbit : ¬i &&& 1 ≠ 0 := fun hne => Bool.false_ne_true (h.symm.trans ((and_one_ne_zero_iff i (by decide)).mp hne))
  simp only [ffsBody]
  rw [if_neg hbit, if_pos hi]
  rfl

/-- **The loop of `ffs`** counts the shifts until the lowest set bit is bit 0. -/
theorem ffsLoop_lowest (h : LowestSet i k) (hf : k < fuel) : (loop ffsBody fuel (i, c)).val = some (c + k) := by
  induction k generalizing i c fuel with
  | zero => rw [loop_of_leave (ffsBody_set h.set) hf, Nat.add_zero]
  | succ k ih =>
    have hshift : LowestSet (i.sshiftRight 1) k := h.sshiftRight
    have hbody := ffsBody_clear (c := c) (h.clear 0 (Nat.succ_pos k)) hshift.ne_zero
    obtain ⟨fuel', hf', hloop⟩ := loop_of_next hbody hf
    rw [hloop]
    show (loop ffsBody fuel' (i.sshiftRight 1, c + 1)).val = some (c + (k + 1))
    rw [ih hshift hf', Nat.add_assoc, Nat.add_comm 1 k]

theorem ffs_lowest (h : LowestSet i k) (hf : 32 ≤ fuel) : ffs fuel i = some (k + 1) := by
  rw [ffs, ffsLoop_lowest h (Nat.lt_of_lt_of_le h.lt hf), Nat.add_comm]

theorem ffs_zero (hf : 32 ≤ fuel) : ffs fuel 0 = some 0 := by
  have hbody : ffsBody (0, 1) = ⟨.leave 0, []⟩ := rfl
  rw [ffs, loop_of_leave hbody (Nat.lt_of_lt_of_le (by decide) hf)]

end Ffs

/-! ## `__ffsti2` -/

section Ffsti2

variable {lli : BitVec 64} {i n k fuel : Nat}

/-- The bits above the low half are those that the shifts keep. -/
theorem tmpint_eq (lli : BitVec 64) : tmpint lli = lli.setWidth 32 := by
  apply BitVec.eq_of_getLsbD_eq
  intro j hj
  have hlen : j < len := hj
  simp [tmpint, hlen]

/-- **The loop of `__ffsti2`** looks for the lowest set bit in one `int` after the other. -/
theorem ffsti2Loop_lowest (h : LowestSet lli k) (hk : k < n * len) (hf : 32 ≤ fuel) :
    ffsti2Loop fuel n lli i = some (k + 1 + i * len) := by
  induction n generalizing lli i k with
  | zero => omega
  | succ n ih =>
    by_cases hlow : k < len
    · have hffs : ffs fuel (tmpint lli) = some (k + 1) := by
        rw [tmpint_eq]
        exact ffs_lowest (h.setWidth hlow) hf
      simp [ffsti2Loop, hffs]
    · obtain ⟨j, rfl⟩ := Nat.exists_eq_add_of_le (Nat.le_of_not_lt hlow)
      have hffs : ffs fuel (tmpint lli) = some 0 := by
        have hzero : lli.setWidth 32 = 0 := h.setWidth_eq_zero (Nat.le_of_not_lt hlow)
        rw [tmpint_eq, hzero]
        exact ffs_zero hf
      have hrest : ffsti2Loop fuel n (lli.sshiftRight len) (i + 1) = some (j + 1 + (i + 1) * len) := by
        apply ih
        · rw [Nat.add_comm] at h
          exact h.sshiftRight
        · rw [Nat.succ_mul] at hk
          omega
      simp only [ffsti2Loop, hffs]
      rw [if_neg (not_not_intro rfl), hrest, Nat.succ_mul]
      congr 1
      omega

theorem ffsti2Loop_zero (n i : Nat) (hf : 32 ≤ fuel) : ffsti2Loop fuel n 0 i = some 0 := by
  induction n generalizing i with
  | zero => rfl
  | succ n ih =>
    have hffs : ffs fuel (tmpint 0) = some 0 := by
      rw [tmpint_eq]
      exact ffs_zero hf
    have hshift : (0 : BitVec 64).sshiftRight len = 0 := by decide
    simp only [ffsti2Loop, hffs, hshift]
    exact ih (i + 1)

end Ffsti2

/-- **Both find the first set bit**, of negative words too, and end. -/
theorem ffs_ok (fuel : Nat) (hf : 32 ≤ fuel) :
    (∀ lli : BitVec 64, ∃ r, ffsti2 fuel lli = some r ∧ IsFfs lli r) ∧
    ∀ i : BitVec 32, ∃ r, ffs fuel i = some r ∧ IsFfs i r := by
  have hnum : ¬num = 1 := by decide
  constructor
  · apply exists_isFfs
    · rw [ffsti2, if_neg hnum]
      exact ffsti2Loop_zero num 0 hf
    · intro lli k h
      rw [ffsti2, if_neg hnum, ffsti2Loop_lowest h h.lt hf, Nat.zero_mul, Nat.add_zero]
  · apply exists_isFfs
    · exact ffs_zero hf
    · intro i k h
      exact ffs_lowest h hf

/-- With as many iterations as there are bits. -/
theorem ffs_ok_bits :
    (∀ lli : BitVec 64, ∃ r, ffsti2 32 lli = some r ∧ IsFfs lli r) ∧
    ∀ i : BitVec 32, ∃ r, ffs 32 i = some r ∧ IsFfs i r :=
  ffs_ok 32 (by decide)

example : ffsti2 32 (BitVec.ofInt 64 (-2 ^ 63)) = some 64 := by decide

end Xen.Strings
