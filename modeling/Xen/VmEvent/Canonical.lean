import Xen.VmEvent.Segments

/-!
# Cooked segment registers are canonical (`vm_event_verified.c`)

- What the two stages of `hvm_get_segment_register` make of the bits of the attributes (`cookSegment_p`,
  `cookPresent_attr` and the lemmas beside them).
- `Canonical` says what the attributes are for a segment. Cooking leaves a canonical register as it is
  (`cookSegment_canonical`, `cookPresent_canonical`).
- `hvmGetSegmentRegister_cooked`: what is cooked is canonical, so that cooking it again changes nothing.
-/

namespace Xen.VmEvent

open Lib

namespace SegmentRegister

def s (reg : SegmentRegister) : Bool := reg.attr.getLsbD 4

def db (reg : SegmentRegister) : Bool := reg.attr.getLsbD 10

/-- The lowest bit of `type`, for a user segment. -/
def accessed (reg : SegmentRegister) : Bool := reg.attr.getLsbD 0

/-- The second bit of `type`, for `tr`. -/
def busy (reg : SegmentRegister) : Bool := reg.attr.getLsbD 1

end SegmentRegister

/-! ## The bits of the attributes -/

section Bits

variable (seg : X86Segment) (reg : SegmentRegister)

theorem orType_one : (reg.orType 1#4).attr = reg.attr ||| 1#16 <<< 0 := rfl

theorem orType_two : (reg.orType 2#4).attr = reg.attr ||| 1#16 <<< 1 := rfl

/-- What cooking a register that is present writes to the attributes. -/
theorem cookPresent_attr : (cookPresent seg reg).attr =
    if isX86UserSegment seg then
      writeBit (writeBit reg.attr 4 true) 11 (reg.limit >>> 20 != 0) ||| 1#16 <<< 0
    else writeBit (writeBit reg.attr 4 false) 11 (reg.limit >>> 20 != 0) := by
  cases h : isX86UserSegment seg <;> simp [cookPresent, h, SegmentRegister.setG, SegmentRegister.setS, orType_one]

/-- The system flag says whether it is a user segment. -/
theorem cookPresent_s : (cookPresent seg reg).s = isX86UserSegment seg := by
  have hs : ∀ b, (writeBit (writeBit reg.attr 4 b) 11 (reg.limit >>> 20 != 0)).getLsbD 4 = b := fun b =>
    (writeBit_others _ _ (by decide)).trans (writeBit_self _ _ (by decide))
  rw [SegmentRegister.s, cookPresent_attr]
  cases isX86UserSegment seg with
  | true => exact (or_bit_others _ (by decide)).trans (hs true)
  | false => exact hs false

/-- A user segment is marked as accessed. -/
theorem cookPresent_accessed (h : isX86UserSegment seg = true) : (cookPresent seg reg).accessed = true := by
  rw [SegmentRegister.accessed, cookPresent_attr, if_pos h]
  exact or_bit_self _ (by decide)

/-- The busy bit stays. -/
theorem cookPresent_busy : (cookPresent seg reg).busy = reg.busy := by
  have hbusy : ∀ b, (writeBit (writeBit reg.attr 4 b) 11 (reg.limit >>> 20 != 0)).getLsbD 1 = reg.attr.getLsbD 1 :=
    fun b => (writeBit_others _ _ (by decide)).trans (writeBit_others _ _ (by decide))
  rw [SegmentRegister.busy, cookPresent_attr]
  split
  · exact (or_bit_others _ (by decide)).trans (hbusy true)
  · exact hbusy false

/-- A `tr` is busy. -/
theorem cookSegment_busy : (cookSegment .tr reg).busy = true := by
  show (writeBit (reg.orType 2#4).attr 7 true).getLsbD 1 = true
  rw [writeBit_others _ _ (by decide), orType_two]
  exact or_bit_self reg.attr (by decide)

/-- The segments that are always present. -/
theorem cookSegment_p (h : seg ∈ [X86Segment.cs, .tr, .gdtr, .idtr]) : (cookSegment seg reg).p = true := by
  simp only [List.mem_cons, List.not_mem_nil, or_false] at h
  rcases h with rfl | rfl | rfl | rfl
  · exact writeBit_self _ _ (by decide)
  · exact writeBit_self _ _ (by decide)
  · show (0x80#16).getLsbD 7 = true
    decide
  · show (0x80#16).getLsbD 7 = true
    decide

/-- An absent `ss` has no `db`. -/
theorem cookSegment_ss_db (h : (cookSegment .ss reg).p = false) : (cookSegment .ss reg).db = false := by
  cases hp : reg.p with
  | false =>
    simp only [cookSegment, hp, Bool.not_false, if_true]
    exact writeBit_self _ _ (by decide)
  | true => simp [cookSegment, hp] at h

/-- The granularity in numbers. -/
theorem limit_shift (limit : BitVec 32) : (limit >>> 20 != 0) = decide (2 ^ 20 ≤ limit.toNat) := by
  have hshift : limit >>> 20 = 0 ↔ limit.toNat / 2 ^ 20 = 0 := by
    rw [← BitVec.toNat_inj, BitVec.toNat_ushiftRight, Nat.shiftRight_eq_div_pow]
    rfl
  rw [Bool.eq_iff_iff, bne_iff_ne, decide_eq_true_iff, Ne, hshift]
  omega

end Bits

/-! ## Canonical registers -/

/-- **The canonical attributes** of a register: what the segment and the limit fix is as they fix it. -/
structure Canonical (seg : X86Segment) (reg : SegmentRegister) : Prop where
  present : seg ∈ [X86Segment.cs, .tr, .gdtr, .idtr] → reg.p = true
  s : reg.p = true → reg.s = isX86UserSegment seg
  g : reg.p = true → reg.g = decide (2 ^ 20 ≤ reg.limit.toNat)
  accessed : reg.p = true → isX86UserSegment seg = true → reg.accessed = true
  busy : reg.p = true → seg = .tr → reg.busy = true
  db : seg = .ss → reg.p = false → reg.db = false

section Cooked

variable {seg : X86Segment} {reg : SegmentRegister}

/-- The attributes that a register has already. -/
theorem withAttr_self {attr : BitVec 16} (h : attr = reg.attr) : { reg with attr := attr } = reg := by rw [h]

/-- Cooking leaves a canonical register that is present. -/
theorem cookPresent_canonical (h : Canonical seg reg) (hp : reg.p = true) : cookPresent seg reg = reg := by
  have hs : reg.setS (isX86UserSegment seg) = reg := withAttr_self (writeBit_eq_self (h.s hp))
  have hg : reg.setG (reg.limit >>> 20 != 0) = reg :=
    withAttr_self (writeBit_eq_self ((h.g hp).trans (limit_shift _).symm))
  unfold cookPresent
  rw [hs]
  simp only [hg]
  cases hu : isX86UserSegment seg with
  | false => rfl
  | true =>
    have ha : reg.attr ||| 1#16 <<< 0 = reg.attr := writeBit_eq_self (b := true) (h.accessed hp hu)
    exact withAttr_self ha

/-- Nor does the `switch` change one, unless it overwrites the attributes. -/
theorem cookSegment_canonical (h : Canonical seg reg) (hseg : seg ≠ .gdtr ∧ seg ≠ .idtr) :
    cookSegment seg reg = reg := by
  have hpresent : reg.p = true → reg.setP true = reg := fun hp => withAttr_self (writeBit_eq_self hp)
  cases seg with
  | ss =>
    cases hp : reg.p with
    | true => simp only [cookSegment, hp, Bool.not_true, Bool.false_eq_true, if_false]
    | false =>
      simp only [cookSegment, hp, Bool.not_false, if_true]
      exact withAttr_self (writeBit_eq_self (h.db rfl hp))
  | tr =>
    have hp := h.present (by decide)
    have hbusy : reg.attr ||| 1#16 <<< 1 = reg.attr := writeBit_eq_self (b := true) (h.busy hp rfl)
    have htype : reg.orType 2#4 = reg := withAttr_self hbusy
    rw [cookSegment, htype]
    exact hpresent hp
  | cs => exact hpresent (h.present (by decide))
  | gdtr => exact absurd rfl hseg.1
  | idtr => exact absurd rfl hseg.2
  | es | ds | fs | gs | ldtr | none => rfl

variable (seg) (raw : X86Segment → SegmentRegister)

/-- **What is cooked** is canonical. -/
theorem hvmGetSegmentRegister_canonical : Canonical seg (hvmGetSegmentRegister raw seg) := by
  have hp := hvmGetSegmentRegister_p seg raw
  constructor
  · intro hseg
    rw [hp]
    exact cookSegment_p seg (raw seg) hseg
  · intro hpresent
    rw [hp] at hpresent
    simp only [hvmGetSegmentRegister, hpresent, if_true]
    exact cookPresent_s seg _
  · intro hpresent
    rw [hvmGetSegmentRegister_g seg raw hpresent]
    exact limit_shift _
  · intro hpresent hu
    rw [hp] at hpresent
    simp only [hvmGetSegmentRegister, hpresent, if_true]
    exact cookPresent_accessed seg _ hu
  · rintro hpresent rfl
    rw [hp] at hpresent
    simp only [hvmGetSegmentRegister, hpresent, if_true]
    exact (cookPresent_busy _ _).trans (cookSegment_busy _)
  · rintro rfl habsent
    rw [hp] at habsent
    simp only [hvmGetSegmentRegister, habsent, Bool.false_eq_true, if_false]
    exact cookSegment_ss_db _ habsent

/-- **Cooking again** changes nothing. -/
theorem hvmGetSegmentRegister_again :
    hvmGetSegmentRegister (fun _ => hvmGetSegmentRegister raw seg) seg = hvmGetSegmentRegister raw seg := by
  obtain ⟨hsel, hlimit, hbase⟩ := hvmGetSegmentRegister_frame seg raw
  by_cases hseg : seg = .gdtr ∨ seg = .idtr
  · -- the attributes are the same constant both times
    have hcook : cookSegment seg (hvmGetSegmentRegister raw seg) = cookSegment seg (raw seg) := by
      rcases hseg with rfl | rfl
      · rw [cookSegment, cookSegment, hsel, hlimit, hbase]
      · rw [cookSegment, cookSegment, hsel, hlimit, hbase]
    show (if (cookSegment seg (hvmGetSegmentRegister raw seg)).p then
      cookPresent seg (cookSegment seg (hvmGetSegmentRegister raw seg))
      else cookSegment seg (hvmGetSegmentRegister raw seg)) = _
    rw [hcook]
    rfl
  · have hcanonical := hvmGetSegmentRegister_canonical seg raw
    generalize hvmGetSegmentRegister raw seg = reg at hcanonical ⊢
    have hcook := cookSegment_canonical hcanonical (not_or.mp hseg)
    show (if (cookSegment seg reg).p then cookPresent seg (cookSegment seg reg) else cookSegment seg reg) = reg
    rw [hcook]
    cases hp : reg.p with
    | true => exact cookPresent_canonical hcanonical hp
    | false => rfl

end Cooked

/-- **A cooked register** has the selector, the limit and the base that were delivered, is canonical, and stays as it is
when it is cooked again. -/
structure CookedOk (seg : X86Segment) (raw : X86Segment → SegmentRegister) : Prop where
  frame : (hvmGetSegmentRegister raw seg).sel = (raw seg).sel ∧
    (hvmGetSegmentRegister raw seg).limit = (raw seg).limit ∧ (hvmGetSegmentRegister raw seg).base = (raw seg).base
  canonical : Canonical seg (hvmGetSegmentRegister raw seg)
  again : hvmGetSegmentRegister (fun _ => hvmGetSegmentRegister raw seg) seg = hvmGetSegmentRegister raw seg

/-- **Cooking**, for every segment and whatever is delivered for it. -/
theorem hvmGetSegmentRegister_cooked (seg : X86Segment) (raw : X86Segment → SegmentRegister) : CookedOk seg raw where
  frame := hvmGetSegmentRegister_frame seg raw
  canonical := hvmGetSegmentRegister_canonical seg raw
  again := hvmGetSegmentRegister_again seg raw

/-- A `tr` that is delivered absent and idle, with a limit of bytes. -/
example : (hvmGetSegmentRegister (fun _ => ⟨0x40#16, 0x809#16, 0x67#32, 0#64⟩) .tr).attr = 0x8b#16 := by decide

end Xen.VmEvent
