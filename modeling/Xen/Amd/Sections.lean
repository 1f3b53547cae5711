import Mathlib.Algebra.GroupWithZero.Nat
import Xen.Amd.Container

/-!
# How far a container is scanned (`microcode_amd_verified.c`)

- `SectionAt`: a section that `container_fast_forward` accepts, with the size in its header and no wrapping; `Sections`
  are those it goes behind one after the other.
- `fastForwardStep_section`, `fastForwardStep_other`: an iteration adds the size of its section to the offset, or ends
  the scan. Every section has at least 32 bytes and the rest has room for it, so that nothing wraps.
- `fast_forward_sections`: the number of iterations, the final offset and the result, from the sections.
-/

namespace Xen.Amd

open Lib

/-- The size of the section with the header at `offset`, which is read at four times that. -/
def headerSum (data : Bytes) (offset : Nat) : Nat := leWord data (4 * offset + 4) 4 + 8

/-- A patch section of at least 32 bytes, with room for it. -/
structure SectionAt (data : Bytes) (sizeLeft offset : Nat) : Prop where
  type : leWord data (4 * offset) 4 = 1
  min : 32 ≤ headerSum data offset
  room : headerSum data offset ≤ sizeLeft

/-- **The sections** that a scan goes behind, by their sizes. -/
inductive Sections (data : Bytes) : (sizeLeft offset : Nat) → List Nat → Prop
  | nil {sizeLeft offset : Nat} (h : ¬SectionAt data sizeLeft offset) : Sections data sizeLeft offset []
  | cons {sizeLeft offset : Nat} {sizes : List Nat} (h : SectionAt data sizeLeft offset)
      (rest : Sections data (sizeLeft - headerSum data offset) (offset + headerSum data offset) sizes) :
      Sections data sizeLeft offset (headerSum data offset :: sizes)

section Steps

variable {data : Bytes} {sizeLeft offset : Nat}

/-- The sum of the header does not wrap to a size that is accepted. -/
theorem headerSum_mod (hmin : 32 ≤ headerSum data offset % 2 ^ 32) :
    headerSum data offset % 2 ^ 32 = headerSum data offset := by
  have hlt : leWord data (4 * offset + 4) 4 < 2 ^ 32 := leWord_lt _ _ _
  unfold headerSum at hmin ⊢
  omega

/-- **An iteration at a section** goes behind it, and ends the scan at the end of the buffer. -/
theorem fastForwardStep_section (h : SectionAt data sizeLeft offset) (hwrap : offset + sizeLeft < 2 ^ 32) :
    (fastForwardStep 4 data ⟨sizeLeft, offset⟩).val =
      if headerSum data offset = sizeLeft then .leave (-4, offset + headerSum data offset)
      else .next ⟨sizeLeft - headerSum data offset, offset + headerSum data offset⟩ := by
  obtain ⟨htype, hmin, hroom⟩ := h
  have h8 : ¬sizeLeft < 8 := by omega
  have hmagic : ¬leWord data (4 * offset) 4 = ucodeMagic := by
    rw [htype]
    decide
  have hone : ¬leWord data (4 * offset) 4 ≠ 1 := not_not_intro htype
  have hsize : (leWord data (4 * offset + 4) 4 + 8) % 2 ^ 32 = headerSum data offset :=
    Nat.mod_eq_of_lt (by unfold headerSum at hroom; omega)
  have hfits : ¬(headerSum data offset < 32 ∨ sizeLeft < headerSum data offset) := by omega
  have hoff : (offset + headerSum data offset) % 2 ^ 32 = offset + headerSum data offset :=
    Nat.mod_eq_of_lt (by omega)
  simp only [fastForwardStep, if_neg h8, Logged.val_bind, val_load, if_neg hmagic, if_neg hone, hsize, if_neg hfits,
    hoff]
  by_cases hall : headerSum data offset = sizeLeft
  · have hzero : sizeLeft - headerSum data offset = 0 := by omega
    rw [if_pos hall, if_pos hzero]
    rfl
  · have hzero : ¬sizeLeft - headerSum data offset = 0 := by omega
    rw [if_neg hall, if_neg hzero]
    rfl

/-- **An iteration elsewhere** ends the scan where it is. -/
theorem fastForwardStep_other (h : ¬SectionAt data sizeLeft offset) :
    ∃ ret, ret ≠ -4 ∧ (fastForwardStep 4 data ⟨sizeLeft, offset⟩).val = .leave (ret, offset) := by
  simp only [fastForwardStep, Logged.val_bind, Logged.val_ite, Logged.val_pure, val_load]
  split_ifs with h8 hmagic hzero hone hsize hall
  · exact ⟨-101, by decide, rfl⟩
  · exact ⟨0, by decide, rfl⟩
  · exact ⟨-101, by decide, rfl⟩
  · exact ⟨-101, by decide, rfl⟩
  · exact ⟨-101, by decide, rfl⟩
  all_goals
    -- what is left would be a section
    have hmin : 32 ≤ headerSum data offset % 2 ^ 32 := Nat.le_of_not_lt fun hlt => hsize (Or.inl hlt)
    have hroom : headerSum data offset % 2 ^ 32 ≤ sizeLeft := Nat.le_of_not_lt fun hlt => hsize (Or.inr hlt)
    have hmod := headerSum_mod hmin
    rw [hmod] at hmin hroom
    exact absurd ⟨Decidable.not_not.mp hone, hmin, hroom⟩ h

/-- **At the head of an iteration** the offset has grown by as much as has been taken from the rest. -/
theorem fastForward_heads {t : Scan} (hwrap : offset + sizeLeft < 2 ^ 32)
    (ht : Heads (fastForwardStep 4 data) ⟨sizeLeft, offset⟩ t) :
    offset ≤ t.offset ∧ t.offset + t.sizeLeft = offset + sizeLeft := by
  refine ht.inv (I := fun t => offset ≤ t.offset ∧ t.offset + t.sizeLeft = offset + sizeLeft) ?_ ⟨Nat.le_refl _, rfl⟩
  rintro ⟨left, off⟩ u ⟨hle, hsum⟩ hnext
  simp only at hle hsum
  have hwrap' : off + left < 2 ^ 32 := by omega
  by_cases h : SectionAt data left off
  · have hroom := h.room
    rw [fastForwardStep_section h hwrap'] at hnext
    split at hnext
    · cases hnext
    · cases hnext
      constructor
      · show offset ≤ off + headerSum data off
        omega
      · show off + headerSum data off + (left - headerSum data off) = offset + sizeLeft
        omega
  · obtain ⟨ret, -, hleave⟩ := fastForwardStep_other h
    rw [hleave] at hnext
    cases hnext

end Steps

/-- **A scan** of `sizeLeft` bytes from `offset` over sections of these sizes, with its result: the sections are
accepted, their sizes are what the offset has been advanced by, and the result says if nothing was left behind them. -/
structure ScansSections (data : Bytes) (sizeLeft offset : Nat) (sizes : List Nat) (ret : Int) (stop : Nat) : Prop where
  sections : Sections data sizeLeft offset sizes
  advance : stop = offset + sizes.sum
  bound : sizes.sum ≤ sizeLeft
  all : ret = -4 ↔ sizes ≠ [] ∧ sizes.sum = sizeLeft

section Scans

variable {data : Bytes} {sizeLeft offset : Nat}

/-- No section, no step. -/
theorem scansSections_nil {ret : Int} (h : ¬SectionAt data sizeLeft offset) (hret : ret ≠ -4) :
    ScansSections data sizeLeft offset [] ret offset := by
  constructor
  · exact .nil h
  · rfl
  · exact Nat.zero_le sizeLeft
  · exact iff_of_false hret fun hall => hall.1 rfl

/-- A section that takes all that is left. -/
theorem scansSections_all (h : SectionAt data sizeLeft offset) (hall : headerSum data offset = sizeLeft) :
    ScansSections data sizeLeft offset [headerSum data offset] (-4) (offset + headerSum data offset) := by
  constructor
  · apply Sections.cons h
    apply Sections.nil
    intro hnext
    have hmin := hnext.min
    have hroom := hnext.room
    omega
  · simp
  · simp [hall]
  · simp [hall]

/-- A section with more behind it. -/
theorem scansSections_cons {sizes : List Nat} {ret : Int} {stop : Nat} (h : SectionAt data sizeLeft offset)
    (hmore : headerSum data offset ≠ sizeLeft)
    (hrest : ScansSections data (sizeLeft - headerSum data offset) (offset + headerSum data offset) sizes ret stop) :
    ScansSections data sizeLeft offset (headerSum data offset :: sizes) ret stop := by
  have hroom := h.room
  have hbound := hrest.bound
  constructor
  · exact .cons h hrest.sections
  · rw [hrest.advance, List.sum_cons, Nat.add_assoc]
  · rw [List.sum_cons]
    omega
  · rw [hrest.all, List.sum_cons]
    constructor
    · rintro ⟨-, hsum⟩
      exact ⟨List.cons_ne_nil _ _, by omega⟩
    · rintro ⟨-, hsum⟩
      refine ⟨?_, by omega⟩
      rintro rfl
      simp only [List.sum_nil] at hsum
      omega

variable (data) in
/-- **The loop**, with an iteration for every 32 bytes and one more. -/
theorem fastForwardLoop_sections (hwrap : offset + sizeLeft < 2 ^ 32) :
    ∃ sizes ret stop, ScansSections data sizeLeft offset sizes ret stop ∧ ∀ fuel, sizeLeft / 32 < fuel →
      (loop (fastForwardStep 4 data) fuel ⟨sizeLeft, offset⟩).val = some (ret, stop) := by
  induction sizeLeft using Nat.strong_induction_on generalizing offset with
  | _ sizeLeft ih =>
    by_cases h : SectionAt data sizeLeft offset
    · have hmin := h.min
      have hroom := h.room
      have hstep := fastForwardStep_section h hwrap
      by_cases hall : headerSum data offset = sizeLeft
      · rw [if_pos hall] at hstep
        refine ⟨_, _, _, scansSections_all h hall, fun fuel hf => ?_⟩
        obtain ⟨fuel, rfl⟩ := Nat.exists_eq_succ_of_ne_zero (Nat.ne_of_gt (Nat.zero_lt_of_lt hf))
        exact loop_leave hstep
      · rw [if_neg hall] at hstep
        have hwrap' : offset + headerSum data offset + (sizeLeft - headerSum data offset) < 2 ^ 32 := by omega
        obtain ⟨sizes, ret, stop, hscan, hloop⟩ := ih (sizeLeft - headerSum data offset) (by omega) hwrap'
        refine ⟨_, ret, stop, scansSections_cons h hall hscan, fun fuel hf => ?_⟩
        obtain ⟨fuel, rfl⟩ := Nat.exists_eq_succ_of_ne_zero (Nat.ne_of_gt (Nat.zero_lt_of_lt hf))
        rw [loop_next hstep]
        apply hloop
        omega
    · obtain ⟨ret, hret, hstep⟩ := fastForwardStep_other h
      refine ⟨[], ret, offset, scansSections_nil h hret, fun fuel hf => ?_⟩
      obtain ⟨fuel, rfl⟩ := Nat.exists_eq_succ_of_ne_zero (Nat.ne_of_gt (Nat.zero_lt_of_lt hf))
      exact loop_leave hstep

/-- **How far a container is scanned.** Over the sections that it accepts, the scan ends after at most an iteration for
every 32 bytes and one more, and stops where they end, inside what was left; on the way the offset only grows. -/
theorem fast_forward_sections (data : Bytes) (sizeLeft offset : Nat) (hwrap : offset + sizeLeft < 2 ^ 32) :
    ∃ sizes ret stop, ScansSections data sizeLeft offset sizes ret stop ∧ offset ≤ stop ∧ stop ≤ offset + sizeLeft ∧
      (loop (fastForwardStep 4 data) (sizeLeft / 32 + 1) ⟨sizeLeft, offset⟩).val = some (ret, stop) ∧
      (containerFastForward data sizeLeft offset).val = some (ret, stop) ∧
      ∀ t, Heads (fastForwardStep 4 data) ⟨sizeLeft, offset⟩ t →
        offset ≤ t.offset ∧ t.offset + t.sizeLeft = offset + sizeLeft := by
  obtain ⟨sizes, ret, stop, hscan, hloop⟩ := fastForwardLoop_sections data hwrap
  have hadvance := hscan.advance
  have hbound := hscan.bound
  refine ⟨sizes, ret, stop, hscan, by omega, by omega, ?_, ?_, fun t ht => fastForward_heads hwrap ht⟩
  · apply hloop
    exact Nat.lt_succ_self _
  · apply hloop
    show sizeLeft / 32 < sizeLeft + 1
    omega

end Scans

/-- Two sections of 32 bytes at the offsets 0 and 32, the second one read at 128. -/
def twoSections : Bytes := fun i => if i = 0 ∨ i = 128 then 1 else if i = 4 ∨ i = 132 then 24 else 0

/-- They are all of 64 bytes. -/
theorem fast_forward_sections_two :
    ∃ sizes ret stop, ScansSections twoSections 64 0 sizes ret stop ∧ 0 ≤ stop ∧ stop ≤ 0 + 64 ∧
      (loop (fastForwardStep 4 twoSections) (64 / 32 + 1) ⟨64, 0⟩).val = some (ret, stop) ∧
      (containerFastForward twoSections 64 0).val = some (ret, stop) ∧
      ∀ t, Heads (fastForwardStep 4 twoSections) ⟨64, 0⟩ t → 0 ≤ t.offset ∧ t.offset + t.sizeLeft = 0 + 64 :=
  fast_forward_sections twoSections 64 0 (by decide)

example : ((containerFastForward twoSections 64 0).val.map (·.2)) = some 64 := by decide +kernel

end Xen.Amd
