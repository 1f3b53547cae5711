import Mathlib.Algebra.Group.Int.Defs
import Mathlib.Algebra.Group.Nat.Defs
import Xen.Lib.Bits

/-!
# The platform timer (`time_verified.c`)

- `readPitCount` widens the 16-bit down-counter of the PIT; `Pit` is the channel that hands it out byte by byte.
- `platformCount` is the count that `readPlatformStime` passes on; `advance` is how far a counter of `k` bits has come
  from its stamp.
- `read_pit_count` reads one byte, and takes the difference as a 32-bit one: `readPitCount_iff`, it is right exactly for
  a counter that has not passed zero and whose high byte is 0.
- `read_platform_stime` masks the sum: `platformCount_iff`, the counts are right exactly as long as they stay below
  `2 ^ k`.
-/

namespace Xen.Time

open Lib

/-! ## The PIT -/

/-- Channel 2 of the PIT: its counter, and whether the next read of `PIT_CH2` delivers the high byte. -/
structure Pit where
  counter : BitVec 16
  high : Bool
deriving DecidableEq, Repr

/-- `inb(PIT_CH2)`. -/
def Pit.inb (pit : Pit) : BitVec 32 × Pit :=
  let byte : BitVec 8 := if pit.high then (pit.counter >>> 8).setWidth 8 else pit.counter.setWidth 8
  (byte.setWidth 32, { pit with high := !pit.high })

/-- `read_pit_count` with the stamps `pit_stamp32` and `pit_stamp16`. -/
def readPitCount (pitStamp32 pitStamp16 : BitVec 32) (pit : Pit) : BitVec 32 × Pit :=
  let r := pit.inb
  let count16 := r.1
  let count32 := pitStamp32 + (pitStamp16 - count16)
  (count32, r.2)

/-- **The extension of the counter.** After `t` ticks from `stamp16`, the routine returns the 32-bit stamp and `t`. -/
def PitOk (stamp32 : BitVec 32) (stamp16 t : BitVec 16) : Prop :=
  (readPitCount stamp32 (stamp16.setWidth 32) ⟨stamp16 - t, false⟩).1 = stamp32 + t.setWidth 32

instance (stamp32 : BitVec 32) (stamp16 t : BitVec 16) : Decidable (PitOk stamp32 stamp16 t) :=
  inferInstanceAs (Decidable (_ = _))

section Pit

variable (stamp32 : BitVec 32) (stamp16 t : BitVec 16)

/-- The byte that is read. -/
theorem readPitCount_low : (readPitCount stamp32 (stamp16.setWidth 32) ⟨stamp16 - t, false⟩).1 =
    stamp32 + (stamp16.setWidth 32 - ((stamp16 - t).setWidth 8).setWidth 32) := rfl

/-- **The PIT** is extended properly exactly if it has not passed zero and is below 256. -/
theorem readPitCount_iff : PitOk stamp32 stamp16 t ↔ t.toNat ≤ stamp16.toNat ∧ stamp16.toNat - t.toNat < 256 := by
  have hs := stamp16.isLt
  have ht := t.isLt
  unfold PitOk
  rw [readPitCount_low, BitVec.add_right_inj]
  have hlow : (((stamp16 - t).setWidth 8).setWidth 32).toNat = (65536 - t.toNat + stamp16.toNat) % 65536 % 256 := by
    rw [BitVec.toNat_setWidth, BitVec.toNat_setWidth, BitVec.toNat_sub]
    omega
  rw [← BitVec.toNat_inj, BitVec.toNat_sub, hlow, BitVec.toNat_setWidth, BitVec.toNat_setWidth]
  omega

end Pit

/-- The counter has passed zero, from 16 to 65520. -/
theorem readPitCount_counterexample :
    ¬ ∀ (stamp32 : BitVec 32) (stamp16 t : BitVec 16), PitOk stamp32 stamp16 t := by
  intro h
  exact absurd (h 0#32 16#16 32#16) (by decide)

/-! ## The platform counter -/

/-- `read_platform_stime`; `readStime` is `__read_platform_stime`. -/
def readPlatformStime (readStime : BitVec 32 → BitVec 32) (pltStamp64 pltCounter pltStamp pltMask : BitVec 32) :
    BitVec 32 :=
  let count := (pltStamp64 + (pltCounter - pltStamp)) &&& pltMask
  readStime count

/-- The count that it passes on: what comes back from a function that returns its argument. -/
def platformCount (pltStamp64 pltCounter pltStamp pltMask : BitVec 32) : BitVec 32 :=
  readPlatformStime id pltStamp64 pltCounter pltStamp pltMask

/-- `plt_mask` of a counter of `k` bits. -/
def maskOf (k : Nat) : BitVec 32 := BitVec.ofNat 32 (2 ^ k - 1)

/-- How far a counter of `k` bits has advanced from its stamp. -/
def advance (k : Nat) (stamp counter : BitVec 32) : Int := (counter.toInt - stamp.toInt) % 2 ^ k

/-- The value of an `int`. -/
def IsInt (n : Int) : Prop := -2147483648 ≤ n ∧ n ≤ 2147483647

instance (n : Int) : Decidable (IsInt n) := inferInstanceAs (Decidable (_ ∧ _))

/-- **The platform time** at some readings of the counter, for fixed stamps: the count is the 64-bit stamp and the
advance, and it does not decrease as the counter advances. -/
structure StimeOk (k : Nat) (stamp64 stamp : BitVec 32) (counters : List (BitVec 32)) : Prop where
  count : ∀ c ∈ counters, (platformCount stamp64 c stamp (maskOf k)).toInt = stamp64.toInt + advance k stamp c
  mono : ∀ c ∈ counters, ∀ c' ∈ counters, advance k stamp c ≤ advance k stamp c' →
    (platformCount stamp64 c stamp (maskOf k)).toInt ≤ (platformCount stamp64 c' stamp (maskOf k)).toInt

section Stime

variable {k : Nat} (stamp64 stamp : BitVec 32)

/-- What the code computes: the whole sum is masked. -/
theorem platformCount_eq (hk : k < 32) (c : BitVec 32) :
    (platformCount stamp64 c stamp (maskOf k)).toInt = (stamp64.toInt + advance k stamp c) % 2 ^ k := by
  have hle : k ≤ 32 := Nat.le_of_lt hk
  rw [platformCount, readPlatformStime, id, maskOf, and_lowMask_toInt _ hk, BitVec.toInt_add, BitVec.toInt_sub,
    bmod_emod_two_pow _ hle, Int.add_emod, bmod_emod_two_pow _ hle, advance, ← Int.add_emod, Int.add_emod_emod]

/-- A sum below `2 ^ k` is the count. -/
theorem platformCount_of_lt (hk : k < 32) {c : BitVec 32} (h0 : 0 ≤ stamp64.toInt + advance k stamp c)
    (hlt : stamp64.toInt + advance k stamp c < 2 ^ k) :
    (platformCount stamp64 c stamp (maskOf k)).toInt = stamp64.toInt + advance k stamp c := by
  rw [platformCount_eq stamp64 stamp hk]
  exact Int.emod_eq_of_lt h0 hlt

/-- **The platform counter.** The counts are right exactly if they are below `2 ^ k`. -/
theorem platformCount_iff (k : Nat) (hk : k < 32) (stamp64 stamp : BitVec 32) (counters : List (BitVec 32)) :
    StimeOk k stamp64 stamp counters ↔
      ∀ c ∈ counters, 0 ≤ stamp64.toInt + advance k stamp c ∧ stamp64.toInt + advance k stamp c < 2 ^ k := by
  have hpos : (0 : Int) < 2 ^ k := Int.pow_pos (by decide)
  constructor
  · intro h c hc
    have hcount := h.count c hc
    rw [platformCount_eq stamp64 stamp hk] at hcount
    rw [← hcount]
    exact ⟨Int.emod_nonneg _ (Int.ne_of_gt hpos), Int.emod_lt_of_pos _ hpos⟩
  · intro h
    have hcount : ∀ c ∈ counters,
        (platformCount stamp64 c stamp (maskOf k)).toInt = stamp64.toInt + advance k stamp c := by
      intro c hc
      obtain ⟨h0, hlt⟩ := h c hc
      exact platformCount_of_lt stamp64 stamp hk h0 hlt
    refine ⟨hcount, ?_⟩
    intro c hc c' hc' hle
    rw [hcount c hc, hcount c' hc']
    omega

end Stime

/-- An 8-bit counter at 5, when 4096 ticks have been accumulated. -/
theorem platformCount_counterexample :
    ¬ ∀ (k : Nat) (stamp64 stamp : BitVec 32) (counters : List (BitVec 32)), k < 32 →
      (∀ c ∈ counters, IsInt (c.toInt - stamp.toInt) ∧ IsInt (stamp64.toInt + advance k stamp c)) →
      StimeOk k stamp64 stamp counters := by
  intro h
  have hcount := (h 8 4096#32 0#32 [5#32] (by decide) (by simp [advance, IsInt])).count 5#32 (by simp)
  exact absurd hcount (by decide +kernel)

/-- The same counter with nothing accumulated, at three readings. -/
theorem platformCount_start : StimeOk 8 0#32 250#32 [250#32, 3#32, 249#32] :=
  (platformCount_iff 8 (by decide) 0#32 250#32 [250#32, 3#32, 249#32]).mpr (by simp [advance])

end Xen.Time
