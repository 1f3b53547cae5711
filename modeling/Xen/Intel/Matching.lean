import Xen.Intel.Image

/-!
# Which Intel update is cached (`intel_verified.c`)

- `Matches` is the test of `get_matching_microcode`: the CPU's signature, or one of the extended ones, and a revision
  above the CPU's (`getMatchingMicrocode_match`, `getMatchingMicrocode_noMatch`, `matches_newer`).
- `feedImages` gives images one after another to `get_matching_microcode`. The test looks at the CPU and never at what
  is cached, so that the last image that matches is cached, whatever its revision (`lastMatch_cached`).
-/

namespace Xen.Intel

open Lib

/-! ## The test -/

/-- The image matches the CPU; `extHeader` is what the uninitialised `ext_header` points to. -/
def Matches (abi : Abi) (uci : UcodeCpuInfo) (mc extHeader : Bytes) : Prop :=
  microcodeUpdateMatch uci (leWord mc Hdr.rev 4) (leWord mc Hdr.sig 4) (leWord mc Hdr.pf 4) = true ∨
    (dataSize mc 0 + Hdr.size) % 2 ^ (8 * abi.sizeT) < totalSize mc 0 ∧
      ∃ i < (int32 (leWord extHeader 0 4)).toNat, microcodeUpdateMatch uci (leWord mc Hdr.rev 4)
        (leWord extHeader (20 + 12 * i) 4) (leWord extHeader (20 + 12 * i + 4) 4) = true

instance (abi : Abi) (uci : UcodeCpuInfo) (mc extHeader : Bytes) : Decidable (Matches abi uci mc extHeader) :=
  inferInstanceAs (Decidable (_ ∨ _))

section Call

variable {abi : Abi} {uci : UcodeCpuInfo} {mc extHeader : Bytes} {newMc : Option Bytes}

/-- An image that matches is cached. -/
theorem getMatchingMicrocode_match (h : Matches abi uci mc extHeader) :
    getMatchingMicrocode abi uci mc extHeader newMc = cacheMicrocode uci mc newMc := by
  unfold getMatchingMicrocode
  by_cases hheader :
      microcodeUpdateMatch uci (leWord mc Hdr.rev 4) (leWord mc Hdr.sig 4) (leWord mc Hdr.pf 4) = true
  · rw [if_pos hheader]
  · obtain ⟨hsize, hext⟩ := h.resolve_left hheader
    rw [if_neg hheader, if_neg (Nat.not_le.mpr hsize)]
    exact if_pos (by simpa only [List.any_eq_true, List.mem_range] using hext)

/-- An image that does not match changes nothing. -/
theorem getMatchingMicrocode_noMatch (h : ¬Matches abi uci mc extHeader) :
    getMatchingMicrocode abi uci mc extHeader newMc = (0, uci) := by
  obtain ⟨hheader, hext⟩ := not_or.mp h
  unfold getMatchingMicrocode
  rw [if_neg hheader, ite_eq_left_iff]
  intro hsize
  refine if_neg fun hany => hext ⟨Nat.not_le.mp hsize, ?_⟩
  simpa only [List.any_eq_true, List.mem_range] using hany

/-- The test does not look at what is cached. -/
theorem matches_cached (cached : Option Bytes) :
    Matches abi { uci with mcIntel := cached } mc extHeader ↔ Matches abi uci mc extHeader := Iff.rfl

/-- A revision that matches is above the CPU's. -/
theorem match_newer {rev sig pf : Nat} (h : microcodeUpdateMatch uci rev sig pf = true) :
    uci.rev < rev := by
  simp only [microcodeUpdateMatch, Bool.and_eq_true, decide_eq_true_eq] at h
  exact h.2

theorem matches_newer (h : Matches abi uci mc extHeader) : uci.rev < leWord mc Hdr.rev 4 := by
  rcases h with h | ⟨-, i, -, h⟩
  · exact match_newer h
  · exact match_newer h

/-- Unless it returns 1, nothing changes. -/
theorem getMatchingMicrocode_ne_one (h : (getMatchingMicrocode abi uci mc extHeader newMc).1 ≠ 1) :
    (getMatchingMicrocode abi uci mc extHeader newMc).2 = uci := by
  rcases getMatchingMicrocode_cases abi uci mc extHeader newMc with hc | ⟨hc, -⟩ | ⟨dst, -, hc⟩
  · rw [hc]
  · rw [hc]
  · rw [hc] at h
    exact absurd rfl h

/-- If it returns 1, an image that is newer than the CPU is cached. -/
theorem getMatchingMicrocode_one (h : (getMatchingMicrocode abi uci mc extHeader newMc).1 = 1) :
    uci.rev < leWord mc Hdr.rev 4 ∧
      ∃ dst, (getMatchingMicrocode abi uci mc extHeader newMc).2 = (cacheMicrocode uci mc (some dst)).2 := by
  by_cases hm : Matches abi uci mc extHeader
  · refine ⟨matches_newer hm, ?_⟩
    rw [getMatchingMicrocode_match hm] at *
    cases newMc with
    | none => cases h
    | some dst => exact ⟨dst, rfl⟩
  · rw [getMatchingMicrocode_noMatch hm] at h
    cases h

end Call

/-! ## One image after another -/

/-- An image, with what `ext_header` points to and the block allocated for the copy. -/
structure Image where
  mc : Bytes
  extHeader : Bytes
  newMc : Bytes

/-- The copy of the image that is cached. -/
def Image.copy (i : Image) : Bytes := (copyLoop Obj.mc Obj.mc i.mc 0 (int32 (totalSize i.mc 0)).toNat 0 i.newMc).val

/-- Give the images to `get_matching_microcode`, one after another. -/
def feedImages (abi : Abi) (uci : UcodeCpuInfo) (images : List Image) : UcodeCpuInfo :=
  images.foldl (fun uci i => (getMatchingMicrocode abi uci i.mc i.extHeader (some i.newMc)).2) uci

/-- The last image that matches. -/
def lastMatch (abi : Abi) (uci : UcodeCpuInfo) (images : List Image) : Option Image :=
  (images.filter fun i => Matches abi uci i.mc i.extHeader).getLast?

/-- The copy has the bytes of the image. -/
theorem copy_bytes (i : Image) {k : Nat} (h : (k : Int) < int32 (totalSize i.mc 0)) : i.copy k = i.mc k := by
  unfold Image.copy
  rw [copyLoop_val, if_pos (by omega), Nat.zero_add]

/-- Behind them, and if the size is negative as an `int`, it is the block as it was allocated. -/
theorem copy_rest (i : Image) {k : Nat} (h : int32 (totalSize i.mc 0) ≤ k) : i.copy k = i.newMc k := by
  unfold Image.copy
  rw [copyLoop_val, if_neg (by omega)]

theorem lastMatch_append (abi : Abi) (uci : UcodeCpuInfo) (images : List Image) (i : Image) :
    lastMatch abi uci (images ++ [i]) =
      if Matches abi uci i.mc i.extHeader then some i else lastMatch abi uci images := by
  unfold lastMatch
  rw [List.filter_append, List.getLast?_append]
  by_cases h : Matches abi uci i.mc i.extHeader <;> simp [h]

/-- **The last match is cached**, and nothing else changes. -/
theorem feedImages_eq (abi : Abi) (uci : UcodeCpuInfo) (images : List Image) : feedImages abi uci images =
    { uci with mcIntel := (lastMatch abi uci images).elim uci.mcIntel fun i => some i.copy } := by
  induction images using List.reverseRecOn with
  | nil => rfl
  | append_singleton images i ih =>
    have hstep : feedImages abi uci (images ++ [i]) =
        (getMatchingMicrocode abi (feedImages abi uci images) i.mc i.extHeader (some i.newMc)).2 := by
      simp [feedImages]
    rw [hstep, ih, lastMatch_append]
    by_cases h : Matches abi uci i.mc i.extHeader
    · rw [if_pos h, getMatchingMicrocode_match ((matches_cached _).mpr h)]
      rfl
    · rw [if_neg h, getMatchingMicrocode_noMatch fun hm => h ((matches_cached _).mp hm)]

/-- **Which image is cached.** The CPU's signature stays; what is cached in the end is the block for the last image that
matches, which is newer than the CPU, with as many of its bytes as the `int` counts, or what was cached before if none
does. -/
theorem lastMatch_cached (abi : Abi) (uci : UcodeCpuInfo) (images : List Image) :
    (feedImages abi uci images).sig = uci.sig ∧ (feedImages abi uci images).pf = uci.pf ∧
    (feedImages abi uci images).rev = uci.rev ∧
      match lastMatch abi uci images with
      | none => (feedImages abi uci images).mcIntel = uci.mcIntel
      | some i => uci.rev < leWord i.mc Hdr.rev 4 ∧ ∃ cached, (feedImages abi uci images).mcIntel = some cached ∧
          (∀ k : Nat, k < int32 (totalSize i.mc 0) → cached k = i.mc k) ∧
          ∀ k : Nat, int32 (totalSize i.mc 0) ≤ k → cached k = i.newMc k := by
  rw [feedImages_eq]
  refine ⟨rfl, rfl, rfl, ?_⟩
  cases h : lastMatch abi uci images with
  | none => rfl
  | some i =>
    have hmem := List.mem_of_getLast? h
    rw [List.mem_filter, decide_eq_true_eq] at hmem
    exact ⟨matches_newer hmem.2, i.copy, rfl, fun k hk => copy_bytes i hk, fun k hk => copy_rest i hk⟩

/-! ### Two images -/

/-- An image of 56 bytes with revision `rev` for a CPU with signature 0. -/
def image56 (rev : UInt8) : Image :=
  ⟨fun i => if i = 4 then rev else if i = 36 then 56 else 0, fun _ => 0, fun _ => 0⟩

/-- Revision 3 is replaced by revision 2 on a CPU that has revision 1. -/
theorem lastMatch_counterexample :
    ¬ ∀ (abi : Abi) (uci : UcodeCpuInfo) (images : List Image), (∃ i ∈ images, Matches abi uci i.mc i.extHeader) →
      ∃ cached, (feedImages abi uci images).mcIntel = some cached ∧
        ∀ i ∈ images, Matches abi uci i.mc i.extHeader → leWord i.mc Hdr.rev 4 ≤ leWord cached Hdr.rev 4 := by
  intro h
  have h3 : Matches .lp64 ⟨0, 0, 1, none⟩ (image56 3).mc (image56 3).extHeader := by decide
  have h2 : lastMatch .lp64 ⟨0, 0, 1, none⟩ [image56 3, image56 2] = some (image56 2) :=
    (lastMatch_append _ _ [image56 3] (image56 2)).trans (if_pos (by decide))
  obtain ⟨cached, hcached, hmax⟩ := h .lp64 ⟨0, 0, 1, none⟩ [image56 3, image56 2] ⟨image56 3, by simp, h3⟩
  rw [feedImages_eq, h2] at hcached
  cases hcached
  have hle := hmax (image56 3) (by simp) h3
  revert hle
  decide +kernel

end Xen.Intel
