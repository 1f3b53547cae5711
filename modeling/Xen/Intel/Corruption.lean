import Xen.Intel.Validation

/-!
# Does the checksum find a changed byte? (`intel_verified.c`)

- `wordSum_update`: the sum of the words changes by as much as the byte does at its place in its word, which is less
  than `2 ^ 32`, so that a changed sum is not 0 again (`wordSum_ne_zero`).
- `microcode_sanity_check` divides the size of header and data by that of a word and leaves the rest out:
  `corruption_iff` says which bytes of the data are covered.
-/

namespace Xen.Intel

open Lib

section Sum

variable {b : Bytes} {v : UInt8} {j n : Nat}

/-- The bytes behind the words do not matter. -/
theorem wordSum_congr {c : Bytes} (h : ∀ i < n * 4, c i = b i) : wordSum c 0 n = wordSum b 0 n := by
  induction n with
  | zero => rfl
  | succ n ih =>
    have hword : leWord c (0 + n * 4) 4 = leWord b (0 + n * 4) 4 := leWord_congr fun k hk => h _ (by omega)
    rw [wordSum, wordSum, hword, ih fun i hi => h i (by omega)]

/-- A byte behind the words does not matter. -/
theorem wordSum_update_behind (v : UInt8) (hj : n * 4 ≤ j) : wordSum (Function.update b j v) 0 n = wordSum b 0 n :=
  wordSum_congr fun i hi => Function.update_of_ne (by omega) ..

/-- **A byte of the words** counts at its place in its word. -/
theorem wordSum_update (v : UInt8) (hj : j < n * 4) :
    wordSum (Function.update b j v) 0 n + (b j).toNat * 256 ^ (j % 4) =
      wordSum b 0 n + v.toNat * 256 ^ (j % 4) := by
  induction n with
  | zero => omega
  | succ n ih =>
    rw [wordSum, wordSum, Nat.zero_add]
    by_cases hlow : j < n * 4
    · have hword : leWord (Function.update b j v) (n * 4) 4 = leWord b (n * 4) 4 :=
        leWord_congr fun k _ => Function.update_of_ne (by omega) ..
      have hrest := ih hlow
      rw [hword]
      omega
    · have hle : n * 4 ≤ j := Nat.le_of_not_lt hlow
      have hplace : j - n * 4 = j % 4 := by omega
      have hword := leWord_update b v hle (by omega : j < n * 4 + 4)
      rw [hplace] at hword
      rw [wordSum_update_behind v hle]
      omega

/-- A byte at its place in a word. -/
theorem byte_lt (v : UInt8) (j : Nat) : v.toNat * 256 ^ (j % 4) < 2 ^ 32 := by
  have hv := v.toNat_lt
  have hplace : j % 4 = 0 ∨ j % 4 = 1 ∨ j % 4 = 2 ∨ j % 4 = 3 := by omega
  rcases hplace with h | h | h | h <;> rw [h] <;> omega

/-- **A changed sum** is not 0 again. -/
theorem wordSum_ne_zero (hj : j < n * 4) (hv : v ≠ b j) (h : wordSum b 0 n % 2 ^ 32 = 0) :
    wordSum (Function.update b j v) 0 n % 2 ^ 32 ≠ 0 := by
  intro h'
  have hsum := wordSum_update (b := b) v hj
  have hold := byte_lt (b j) j
  have hnew := byte_lt v j
  have heq : v.toNat * 256 ^ (j % 4) = (b j).toNat * 256 ^ (j % 4) := by omega
  exact hv (UInt8.toNat_inj.mp (Nat.eq_of_mul_eq_mul_right (Nat.pow_pos (by decide)) heq))

end Sum

section Corruption

variable {abi : Abi} {mc : Bytes} {j : Nat} {v : UInt8}

/-- An accepted image without an extended table, and the sum of its words. -/
theorem accepted_noTable {null : Bytes} (hulong : abi.ulong = 4) (h : (microcodeSanityCheck abi mc null).val = 0)
    (hext : extSize abi mc = 0) : NoTable abi mc ∧ wordSum mc 0 (headerAndData abi mc / 4) % 2 ^ 32 = 0 := by
  rcases check_ways abi mc with hearly | hno | htable
  · rw [(rejectedEarly_spec null 0 hearly).1] at h
    exact absurd h (by decide)
  · exact ⟨hno, (noTable_spec null hulong hno).1.mp h⟩
  · exact absurd hext htable.2.2.2.1

/-- A change behind the header leaves the sizes and the versions as they are. -/
theorem noTable_update (hj : Hdr.size ≤ j) (h : NoTable abi mc) :
    NoTable abi (Function.update mc j v) ∧ headerAndData abi (Function.update mc j v) = headerAndData abi mc := by
  have hkeep : ∀ i < Hdr.size, Function.update mc j v i = mc i := fun i hi => Function.update_of_ne (by omega) ..
  have hkeep0 : ∀ i < Hdr.size, Function.update mc j v (0 + i) = mc (0 + i) := fun i hi => by
    rw [Nat.zero_add]
    exact hkeep i hi
  have htotal : totalSize (Function.update mc j v) 0 = totalSize mc 0 := totalSize_congr hkeep0
  have hdata : dataSize (Function.update mc j v) 0 = dataSize mc 0 := dataSize_congr hkeep0
  have hword : ∀ i, i + 4 ≤ Hdr.size → leWord (Function.update mc j v) i 4 = leWord mc i 4 := fun i hi =>
    leWord_congr fun k hk => hkeep (i + k) (by omega)
  have hhd : headerAndData abi (Function.update mc j v) = headerAndData abi mc := by
    unfold headerAndData
    rw [hdata]
  obtain ⟨h1, h2, h3, h4⟩ := h
  refine ⟨⟨?_, ?_, ?_, ?_⟩, hhd⟩
  · rw [hhd, htotal]
    exact h1
  · rw [hword _ (by decide)]
    exact h2
  · rw [hword _ (by decide)]
    exact h3
  · unfold extSize at h4 ⊢
    rw [htotal, hdata]
    exact h4

/-- The words cover what the code computes as the end of the data, without the last bytes of an incomplete word. -/
theorem covered_iff (hj : Hdr.size ≤ j) : j < headerAndData abi mc / 4 * 4 ↔
    extStart mc < 2 ^ (8 * abi.sizeT) ∧ j < extStart mc / 4 * 4 := by
  have hdata : dataSize mc 0 < 2 ^ 32 := by
    have := leWord_lt mc (0 + Hdr.datasize) 4
    unfold dataSize
    split
    · exact this
    · decide
  unfold headerAndData extStart
  cases abi <;> simp only [Abi.sizeT, Hdr.size] at * <;> omega

/-- The verdict on the changed image is on the sum of the same words. -/
theorem changed_verdict {null : Bytes} (hulong : abi.ulong = 4) (hj : Hdr.size ≤ j) (hno : NoTable abi mc) :
    (microcodeSanityCheck abi (Function.update mc j v) null).val = 0 ↔
      wordSum (Function.update mc j v) 0 (headerAndData abi mc / 4) % 2 ^ 32 = 0 := by
  obtain ⟨hno', hhd⟩ := noTable_update (v := v) hj hno
  rw [(noTable_spec null hulong hno').1, hhd]

/-- A byte behind the words is not looked at. -/
theorem accepted_of_behind {null : Bytes} (hulong : abi.ulong = 4) (h : (microcodeSanityCheck abi mc null).val = 0)
    (hext : extSize abi mc = 0) (hj : Hdr.size ≤ j) (hbehind : headerAndData abi mc / 4 * 4 ≤ j) :
    (microcodeSanityCheck abi (Function.update mc j v) null).val = 0 := by
  obtain ⟨hno, hsum⟩ := accepted_noTable hulong h hext
  rw [changed_verdict hulong hj hno, wordSum_update_behind v hbehind]
  exact hsum

end Corruption

/-- **Corruption of a byte behind the header** of an accepted image without an extended table is detected exactly if the
size of header and data does not overflow and the byte is in one of the whole words there. -/
theorem corruption_iff (abi : Abi) (mc null : Bytes) (j : Nat) (v : UInt8) (hulong : abi.ulong = 4)
    (h : (microcodeSanityCheck abi mc null).val = 0) (hext : extSize abi mc = 0) (hj : Hdr.size ≤ j) (hv : v ≠ mc j) :
    (microcodeSanityCheck abi (Function.update mc j v) null).val ≠ 0 ↔
      extStart mc < 2 ^ (8 * abi.sizeT) ∧ j < extStart mc / 4 * 4 := by
  rw [← covered_iff hj]
  constructor
  · intro hfound
    by_contra hbehind
    exact hfound (accepted_of_behind hulong h hext hj (Nat.le_of_not_lt hbehind))
  · intro hcovered
    obtain ⟨hno, hsum⟩ := accepted_noTable hulong h hext
    rw [Ne, changed_verdict hulong hj hno]
    exact wordSum_ne_zero hcovered hv hsum

/-- A valid image with 5 bytes of data, the last of which is in no whole word. -/
def plain57 : Bytes := Bytes.ofList
  ([1, 0, 0, 0] ++ List.replicate 16 0 ++ [0xC0, 0xFF, 0xFF, 0xFF] ++ [1, 0, 0, 0] ++ [0, 0, 0, 0] ++ [5, 0, 0, 0] ++
    [57, 0, 0, 0] ++ List.replicate 17 0)

/-- Its last byte can be changed. -/
theorem corruption_counterexample :
    ¬ ∀ (abi : Abi) (mc null : Bytes) (j : Nat) (v : UInt8), abi.ulong = 4 →
      (microcodeSanityCheck abi mc null).val = 0 → extSize abi mc = 0 → Hdr.size ≤ j →
      j < Hdr.size + dataSize mc 0 → v ≠ mc j → (microcodeSanityCheck abi (Function.update mc j v) null).val ≠ 0 := by
  intro h
  have hfound := h .llp64 plain57 (fun _ => 0) 56 1 rfl (by decide +kernel) (by decide +kernel) (by decide)
    (by decide +kernel) (by decide +kernel)
  apply hfound
  exact accepted_of_behind rfl (by decide +kernel) (by decide +kernel) (by decide) (by decide +kernel)

/-- The byte before it can not. -/
theorem corruption_plain57 : (microcodeSanityCheck .llp64 (Function.update plain57 55 1) fun _ => 0).val ≠ 0 :=
  (corruption_iff .llp64 plain57 (fun _ => 0) 55 1 rfl (by decide +kernel) (by decide +kernel) (by decide)
    (by decide +kernel)).mpr (by decide +kernel)

end Xen.Intel
