import Mathlib.Data.Nat.Bitwise
import Xen.Lib.Blocks

/-!
# Addresses and pages of the map cache (`mapcache_verified.c`)

- `addressIndex`, `addressOffset` and `testBitSize` are what `xen_map_cache_unlocked` computes, `testBits` is
  `test_bits` with `find_next_zero_bit`.
- The offset is masked with `MCACHE_BUCKET_SIZE`, and not with one less. `addressSplit_iff`: an address is split exactly
  if it is the start of a bucket with an even index.
- `testBitSize_pages`: the size is that of all pages that are touched.
- `find_next_zero_bit` does not look at the bitmap. `testBits_iff` says when `test_bits` is right all the same.

`MCACHE_BUCKET_SHIFT` has its second definition.
-/

namespace Xen.MapCache

open Lib

/-! ## The functions -/

def mcacheBucketShift : Nat := 20

def mcacheBucketSize : BitVec 64 := 1#64 <<< 20

def xcPageSize : BitVec 64 := 1#64 <<< 16

/-- `address_index` of `xen_map_cache_unlocked`. -/
def addressIndex (physAddr : BitVec 64) : BitVec 64 := physAddr >>> mcacheBucketShift

/-- `address_offset`. -/
def addressOffset (physAddr : BitVec 64) : BitVec 64 := physAddr &&& mcacheBucketSize

/-- `test_bit_size`. -/
def testBitSize (physAddr size : BitVec 64) : BitVec 64 :=
  if size ≠ 0 then
    let testBitSize := size + (physAddr &&& (xcPageSize - 1))
    if testBitSize % xcPageSize ≠ 0 then testBitSize + xcPageSize - testBitSize % xcPageSize else testBitSize
  else
    xcPageSize

/-- The loop of `find_next_zero_bit` over the `n` values that `i` still takes. -/
def countLoop : (n : Nat) → (cnt : BitVec 32) → BitVec 32
  | 0, cnt => cnt
  | n + 1, cnt => countLoop n (cnt + 1)

/-- `find_next_zero_bit`; its `addr` is a local, and `cnt` is not used. -/
def findNextZeroBit (endBit _size : BitVec 32) : BitVec 64 :=
  let _cnt := countLoop endBit.toNat 0
  1#64 <<< mcacheBucketShift

/-- `test_bits`, on the words of the bitmap. -/
def testBits (nr size : BitVec 64) (_addr : Nat → BitVec 64) (_result : BitVec 32) : BitVec 32 :=
  let res := findNextZeroBit ((size + nr).setWidth 32) (nr.setWidth 32)
  if res ≥ nr + size then 1 else 0

/-! ## Splitting addresses -/

/-- The address is its bucket and an offset in it. -/
structure SplitOk (physAddr : BitVec 64) : Prop where
  sum : physAddr.toNat = (addressIndex physAddr).toNat * 2 ^ mcacheBucketShift + (addressOffset physAddr).toNat
  offset : addressOffset physAddr < mcacheBucketSize

/-- **Two addresses are split**, and apart if they differ. -/
structure AddressSplit (a b : BitVec 64) : Prop where
  left : SplitOk a
  right : SplitOk b
  distinct : a ≠ b → (addressIndex a, addressOffset a) ≠ (addressIndex b, addressOffset b)

section Split

variable (a b : BitVec 64)

theorem addressIndex_toNat : (addressIndex a).toNat = a.toNat / 2 ^ 20 := by
  rw [addressIndex, mcacheBucketShift, BitVec.toNat_ushiftRight, Nat.shiftRight_eq_div_pow]

/-- The offset is the lowest bit of the index. -/
theorem addressOffset_toNat : (addressOffset a).toNat = a.toNat / 2 ^ 20 % 2 * 2 ^ 20 := by
  have hsize : mcacheBucketSize.toNat = 2 ^ 20 := rfl
  rw [addressOffset, BitVec.toNat_and, hsize, Nat.and_two_pow, Nat.toNat_testBit]

/-- Nothing of the address below the buckets is left. -/
theorem splitOk_iff : SplitOk a ↔ a.toNat % 2 ^ 21 = 0 := by
  have hindex := addressIndex_toNat a
  have hoffset := addressOffset_toNat a
  have hsize : mcacheBucketSize.toNat = 2 ^ 20 := rfl
  constructor
  · rintro ⟨hsum, hlt⟩
    rw [BitVec.lt_def, hsize] at hlt
    rw [hindex, mcacheBucketShift] at hsum
    omega
  · intro h
    constructor
    · rw [hindex, mcacheBucketShift]
      omega
    · rw [BitVec.lt_def, hsize]
      omega

/-- Addresses get the same pair exactly if they lie in the same bucket. -/
theorem split_eq_iff :
    (addressIndex a, addressOffset a) = (addressIndex b, addressOffset b) ↔ a.toNat / 2 ^ 20 = b.toNat / 2 ^ 20 := by
  rw [Prod.mk.injEq, ← BitVec.toNat_inj, ← BitVec.toNat_inj, addressIndex_toNat, addressIndex_toNat,
    addressOffset_toNat, addressOffset_toNat]
  exact and_iff_left_of_imp fun h => by rw [h]

/-- **Both addresses are split** exactly if both are the start of a bucket with an even index. -/
theorem addressSplit_iff : AddressSplit a b ↔ a.toNat % 2 ^ 21 = 0 ∧ b.toNat % 2 ^ 21 = 0 := by
  constructor
  · intro h
    exact ⟨(splitOk_iff a).mp h.left, (splitOk_iff b).mp h.right⟩
  · rintro ⟨ha, hb⟩
    refine ⟨(splitOk_iff a).mpr ha, (splitOk_iff b).mpr hb, fun hne heq => hne ?_⟩
    have hbucket := (split_eq_iff a b).mp heq
    apply BitVec.eq_of_toNat_eq
    omega

/-- The second byte of a bucket gets what the first one gets. -/
theorem addressSplit_counterexample : ¬(∀ a b : BitVec 64, AddressSplit a b) := by
  intro h
  have hzero := (splitOk_iff 1).mp (h 0 1).right
  revert hzero
  decide

end Split

/-! ## The size to test -/

section Size

variable (physAddr size : BitVec 64)

/-- Without wrapping, the size is rounded up together with what lies before it in the first page. -/
theorem testBitSize_toNat (h0 : 0 < size) (h : size.toNat + physAddr.toNat % 2 ^ 16 ≤ 2 ^ 64 - 2 ^ 16) :
    (testBitSize physAddr size).toNat = roundUp (size.toNat + physAddr.toNat % 2 ^ 16) (2 ^ 16) := by
  have hsize : xcPageSize.toNat = 2 ^ 16 := rfl
  have hmask : (xcPageSize - 1).toNat = 2 ^ 16 - 1 := rfl
  have hsum : (size + (physAddr &&& (xcPageSize - 1))).toNat = size.toNat + physAddr.toNat % 2 ^ 16 := by
    rw [BitVec.toNat_add, BitVec.toNat_and, hmask, Nat.and_two_pow_sub_one_eq_mod, Nat.mod_eq_of_lt (by omega)]
  have hmod : ((size + (physAddr &&& (xcPageSize - 1))) % xcPageSize).toNat =
      (size.toNat + physAddr.toNat % 2 ^ 16) % 2 ^ 16 := by
    rw [BitVec.toNat_umod, hsum, hsize]
  have hne : size ≠ 0 := by
    rintro rfl
    exact absurd h0 (by decide)
  rw [testBitSize, if_pos hne, roundUp]
  by_cases hround : (size.toNat + physAddr.toNat % 2 ^ 16) % 2 ^ 16 = 0
  · have hzero : (size + (physAddr &&& (xcPageSize - 1))) % xcPageSize = 0 := BitVec.eq_of_toNat_eq (hmod.trans hround)
    rw [if_neg (not_not_intro hzero), if_neg (not_not_intro hround), hsum]
  · have hnonzero : (size + (physAddr &&& (xcPageSize - 1))) % xcPageSize ≠ 0 := by
      intro hzero
      rw [hzero] at hmod
      exact hround hmod.symm
    rw [if_pos hnonzero, if_pos hround, BitVec.toNat_sub, BitVec.toNat_add, hmod, hsum, hsize]
    omega

/-- **The size that is tested is that of the pages touched.** -/
theorem testBitSize_pages (h0 : 0 < size) (h : size.toNat + physAddr.toNat % 2 ^ 16 ≤ 2 ^ 64 - 2 ^ 16) :
    (testBitSize physAddr size).toNat =
      2 ^ 16 * (blocksTouched (2 ^ 16) (2 ^ 64) physAddr.toNat size.toNat).card := by
  have hpos : 0 < size.toNat := h0
  have hcard : (blocksTouched (2 ^ 16) (2 ^ 16 * 2 ^ 48) physAddr.toNat size.toNat).card =
      (physAddr.toNat % 2 ^ 16 + size.toNat - 1) / 2 ^ 16 + 1 := card_blocksTouched (by omega) hpos (by omega)
  rw [testBitSize_toNat physAddr size h0 h, roundUp_eq (by omega) (by omega), Nat.add_comm size.toNat]
  exact congrArg (2 ^ 16 * ·) hcard.symm

/-- Two bytes on either side of a page boundary: two pages. -/
theorem testBitSize_pages_boundary : (testBitSize 0xffff 2).toNat =
    2 ^ 16 * (blocksTouched (2 ^ 16) (2 ^ 64) (0xffff#64).toNat (2#64).toNat).card :=
  testBitSize_pages 0xffff 2 (by decide) (by decide)

end Size

/-! ## Testing bits -/

section TestBits

variable (nr size : BitVec 64) (addr : Nat → BitVec 64) (result : BitVec 32)

/-- A bit of a bitmap. -/
def bitAt (addr : Nat → BitVec 64) (i : Nat) : Bool := (addr (i / 64)).getLsbD (i % 64)

/-- All bits from `nr` on. -/
def AllSet (addr : Nat → BitVec 64) (nr size : Nat) : Prop := ∀ i, nr ≤ i → i < nr + size → bitAt addr i = true

/-- What `test_bits` compares is the end of the range and a constant. -/
theorem testBits_eq_one_iff (h : nr.toNat + size.toNat < 2 ^ 64) :
    testBits nr size addr result = 1 ↔ nr.toNat + size.toNat ≤ 2 ^ 20 := by
  have hres : (findNextZeroBit ((size + nr).setWidth 32) (nr.setWidth 32)).toNat = 2 ^ 20 := rfl
  have hsum : (nr + size).toNat = nr.toNat + size.toNat := by rw [BitVec.toNat_add, Nat.mod_eq_of_lt h]
  rw [← hsum, ← hres, ← BitVec.le_def, testBits]
  split
  next hle => exact iff_of_true rfl hle
  next hle => exact iff_of_false (by decide) hle

/-- **`test_bits` is right** exactly if the bits happen to be what the end of the range says. -/
theorem testBits_iff (h : nr.toNat + size.toNat < 2 ^ 64) :
    (testBits nr size addr result = 1 ↔ AllSet addr nr.toNat size.toNat) ↔
      (nr.toNat + size.toNat ≤ 2 ^ 20 ∧ AllSet addr nr.toNat size.toNat) ∨
        (2 ^ 20 < nr.toNat + size.toNat ∧ ¬AllSet addr nr.toNat size.toNat) := by
  rw [testBits_eq_one_iff nr size addr result h, ← Nat.not_le]
  exact iff_iff_and_or_not_and_not

/-- A bitmap without a bit, and bit 0. -/
theorem testBits_empty :
    (testBits 0 1 (fun _ => 0) 0 = 1 ↔ AllSet (fun _ => 0) (0#64).toNat (1#64).toNat) ↔
      ((0#64).toNat + (1#64).toNat ≤ 2 ^ 20 ∧ AllSet (fun _ => 0) (0#64).toNat (1#64).toNat) ∨
        (2 ^ 20 < (0#64).toNat + (1#64).toNat ∧ ¬AllSet (fun _ => 0) (0#64).toNat (1#64).toNat) :=
  testBits_iff 0 1 (fun _ => 0) 0 (by decide)

/-- That bit is not set, and `test_bits` says that it is. -/
theorem testBits_counterexample : ¬(∀ (nr size : BitVec 64) (addr : Nat → BitVec 64) (result : BitVec 32),
    nr.toNat + size.toNat < 2 ^ 64 → (testBits nr size addr result = 1 ↔ AllSet addr nr.toNat size.toNat)) := by
  intro h
  have hone : testBits 0 1 (fun _ => 0) 0 = 1 := (testBits_eq_one_iff 0 1 (fun _ => 0) 0 (by decide)).mpr (by decide)
  have hset := (h 0 1 (fun _ => 0) 0 (by decide)).mp hone 0 (by decide) (by decide)
  exact absurd hset (by decide)

end TestBits

end Xen.MapCache
