import Mathlib.Data.Nat.Digits.Defs

/-!
# Packed structures

A field is its width in bits and its value. `packed` lays the fields out one after the other, the first one in the
lowest bits, without padding in between, and cuts the bits into bytes, the lowest first. `fieldsOf` reads them back.

- `fieldsOf_packed`: every field is read as it was written, cut to its width.
- `length_packed`: the bytes that the fields take.
-/

namespace Lib

/-! ## Fields in a number -/

/-- The fields, the first one in the lowest bits. -/
def packNat : List (Nat × Nat) → Nat
  | [] => 0
  | f :: fs => f.2 % 2 ^ f.1 + 2 ^ f.1 * packNat fs

/-- Fields of these widths. -/
def unpackNat : List Nat → Nat → List Nat
  | [], _ => []
  | w :: ws, n => n % 2 ^ w :: unpackNat ws (n / 2 ^ w)

/-- The bits of all fields. -/
def bitsOf (fs : List (Nat × Nat)) : Nat := (fs.map Prod.fst).sum

theorem packNat_lt : ∀ fs : List (Nat × Nat), packNat fs < 2 ^ bitsOf fs
  | [] => Nat.one_pos
  | f :: fs => by
    have hf : f.2 % 2 ^ f.1 < 2 ^ f.1 := Nat.mod_lt _ (Nat.two_pow_pos _)
    have hbits : bitsOf (f :: fs) = f.1 + bitsOf fs := by simp [bitsOf]
    calc packNat (f :: fs) < 2 ^ f.1 + 2 ^ f.1 * packNat fs := Nat.add_lt_add_right hf _
      _ = 2 ^ f.1 * (packNat fs + 1) := by rw [Nat.mul_succ, Nat.add_comm]
      _ ≤ 2 ^ f.1 * 2 ^ bitsOf fs := Nat.mul_le_mul_left _ (packNat_lt fs)
      _ = 2 ^ bitsOf (f :: fs) := by rw [hbits, Nat.pow_add]

/-- Fields in a number are read as they were written. -/
theorem unpackNat_packNat : ∀ fs : List (Nat × Nat),
    unpackNat (fs.map Prod.fst) (packNat fs) = fs.map fun f => f.2 % 2 ^ f.1
  | [] => rfl
  | f :: fs => by
    have hlow : packNat (f :: fs) % 2 ^ f.1 = f.2 % 2 ^ f.1 := by
      rw [packNat, Nat.add_mul_mod_self_left, Nat.mod_mod]
    have hhigh : packNat (f :: fs) / 2 ^ f.1 = packNat fs := by
      rw [packNat, Nat.add_mul_div_left _ _ (Nat.two_pow_pos _), Nat.div_eq_of_lt (Nat.mod_lt _ (Nat.two_pow_pos _)),
        Nat.zero_add]
    rw [List.map_cons, List.map_cons, unpackNat, hlow, hhigh, unpackNat_packNat fs]

/-! ## Bytes of a number -/

/-- The lowest `k` bytes, the lowest first. -/
def leBytes : Nat → Nat → List UInt8
  | 0, _ => []
  | k + 1, n => UInt8.ofNat n :: leBytes k (n / 256)

/-- The number with these bytes. -/
def ofLeBytes (bytes : List UInt8) : Nat := Nat.ofDigits 256 (bytes.map UInt8.toNat)

theorem length_leBytes (k n : Nat) : (leBytes k n).length = k := by
  induction k generalizing n with
  | zero => rfl
  | succ k ih => rw [leBytes, List.length_cons, ih]

theorem ofLeBytes_leBytes (k n : Nat) : ofLeBytes (leBytes k n) = n % 256 ^ k := by
  induction k generalizing n with
  | zero => exact (Nat.mod_one n).symm
  | succ k ih =>
    have hcons : ofLeBytes (leBytes (k + 1) n) = n % 256 + 256 * ofLeBytes (leBytes k (n / 256)) := by
      simp [leBytes, ofLeBytes, Nat.ofDigits_cons]
    rw [hcons, ih, Nat.pow_succ', Nat.mod_mul]

/-! ## Packed structures -/

/-- The fields as bytes. -/
def packed (fs : List (Nat × Nat)) : List UInt8 := leBytes ((bitsOf fs + 7) / 8) (packNat fs)

/-- Fields of these widths from bytes. -/
def fieldsOf (ws : List Nat) (bytes : List UInt8) : List Nat := unpackNat ws (ofLeBytes bytes)

theorem length_packed (fs : List (Nat × Nat)) : (packed fs).length = (bitsOf fs + 7) / 8 := length_leBytes _ _

/-- **Packed fields** are read as they were written, cut to their widths. -/
theorem fieldsOf_packed (fs : List (Nat × Nat)) :
    fieldsOf (fs.map Prod.fst) (packed fs) = fs.map fun f => f.2 % 2 ^ f.1 := by
  have hle : bitsOf fs ≤ 8 * ((bitsOf fs + 7) / 8) := by omega
  have hfits : packNat fs < 256 ^ ((bitsOf fs + 7) / 8) := by
    have hbytes : (256 : Nat) ^ ((bitsOf fs + 7) / 8) = 2 ^ (8 * ((bitsOf fs + 7) / 8)) := by rw [Nat.pow_mul]
    rw [hbytes]
    exact Nat.lt_of_lt_of_le (packNat_lt fs) (Nat.pow_le_pow_right (by omega) hle)
  rw [fieldsOf, packed, ofLeBytes_leBytes, Nat.mod_eq_of_lt hfits, unpackNat_packNat]

end Lib
