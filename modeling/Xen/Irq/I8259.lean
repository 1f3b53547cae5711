import Mathlib.Logic.Function.Basic
import Xen.Lib.Bits
import Xen.Lib.Runs

/-!
# The 8259A interrupt controllers (`irq_verified.c`)

- `Pic` is the cached mask with the history of port writes; the operations are `disable8259AIrq`, `enable8259AIrq`,
  `maskAndAck8259AIrq`, `end8259AIrq`, `mask8259A`, `unmask8259A` and `init8259A`. What a port reads back may depend
  on everything written before.
- A run is a list of `Op`s on the legacy lines; the ghost flag `masked` is set between `mask_8259A` and
  `unmask_8259A`.
- `Synced`: each controller was last given its byte of the cached mask.
- The port writes of `_mask_and_ack_8259A_irq` are commented out. `shadow_iff`: the controllers stay synced, as long as
  they are not masked globally, exactly in the runs where it is only called on lines that are masked already.
-/

namespace Xen.Irq

open Lib

/-! ## Data model -/

/-- A byte written to a port. -/
structure Outb where
  val : BitVec 8
  port : Nat
deriving DecidableEq, Repr

/-- `cached_irq_mask`, `spurious_irq_mask`, and the port writes, latest first. -/
structure Pic where
  cachedIrqMask : BitVec 32
  spuriousIrqMask : BitVec 32
  outs : List Outb
deriving DecidableEq, Repr

/-- What `inb` returns after the given port writes. -/
abbrev Device := List Outb → Nat → BitVec 32

/-- `1 << irq`. -/
def lineMask (irq : Nat) : BitVec 32 := 1#32 <<< irq

/-- `cached_21` and `cached_A1`: byte 0 and byte 1 of the cached mask. -/
def cached21 (mask : BitVec 32) : BitVec 8 := mask.setWidth 8

def cachedA1 (mask : BitVec 32) : BitVec 8 := (mask >>> 8).setWidth 8

/-- `outb`. -/
def Pic.outb (s : Pic) (val : BitVec 8) (port : Nat) : Pic := { s with outs := ⟨val, port⟩ :: s.outs }

@[simp] theorem outb_cached (s : Pic) (val : BitVec 8) (port : Nat) :
    (s.outb val port).cachedIrqMask = s.cachedIrqMask := rfl

/-- Give the controller of the line its byte of the cached mask. -/
def Pic.outbLine (s : Pic) (irq : Nat) : Pic :=
  if irq &&& 8 ≠ 0 then s.outb (cachedA1 s.cachedIrqMask) 0xA1 else s.outb (cached21 s.cachedIrqMask) 0x21

/-! ## The operations -/

/-- `_disable_8259A_irq`. -/
def disable8259AIrq (s : Pic) (irq : Nat) : Pic :=
  { s with cachedIrqMask := s.cachedIrqMask ||| lineMask irq }.outbLine irq

/-- `enable_8259A_irq`. -/
def enable8259AIrq (s : Pic) (irq : Nat) : Pic :=
  { s with cachedIrqMask := s.cachedIrqMask &&& ~~~lineMask irq }.outbLine irq

/-- `end_8259A_irq`; `flags` is `IRQ_DISABLED | IRQ_INPROGRESS`. -/
def end8259AIrq (s : Pic) (irq : Nat) (status flags : BitVec 32) : Pic :=
  if status &&& flags = 0 then enable8259AIrq s irq else s

/-- `mask_8259A`. -/
def mask8259A (s : Pic) : Pic := (s.outb 0xff 0xA1).outb 0xff 0x21

/-- `unmask_8259A`. -/
def unmask8259A (s : Pic) : Pic := (s.outb (cachedA1 s.cachedIrqMask) 0xA1).outb (cached21 s.cachedIrqMask) 0x21

/-- `i8259A_irq_real`: the in-service bit of the line. -/
def i8259AIrqReal (dev : Device) (s : Pic) (irq : Nat) : BitVec 32 × Pic :=
  let port := if irq < 8 then 0x20 else 0xA0
  let irqmask := if irq < 8 then lineMask irq else (lineMask irq).sshiftRight 8
  let s := s.outb 0x0B port
  let value := dev s.outs port &&& irqmask
  (value, s.outb 0x0A port)

/-- `_mask_and_ack_8259A_irq`: whether the interrupt is real. -/
def maskAndAck8259AIrq (dev : Device) (s : Pic) (irq : Nat) : Bool × Pic :=
  let r : Bool × Pic :=
    if s.cachedIrqMask &&& lineMask irq ≠ 0 then
      let real := i8259AIrqReal dev s irq
      if real.1 = 0 then
        (false, { real.2 with spuriousIrqMask := real.2.spuriousIrqMask ||| lineMask irq })
      else
        (true, real.2)
    else
      (true, s)
  (r.1, { r.2 with cachedIrqMask := r.2.cachedIrqMask ||| lineMask irq })

/-- `init_8259A`; `vector` is `FIRST_LEGACY_VECTOR`. -/
def init8259A (vector : BitVec 8) (autoEoi : Bool) (s : Pic) : Pic :=
  let s := (s.outb 0xff 0x21).outb 0xff 0xA1
  let s := ((s.outb 0x11 0x20).outb vector 0x21).outb 0x04 0x21
  let s := s.outb (if autoEoi then 0x03 else 0x01) 0x21
  let s := (((s.outb 0x11 0xA0).outb (vector + 8) 0xA1).outb 0x02 0xA1).outb 0x01 0xA1
  (s.outb (cached21 s.cachedIrqMask) 0x21).outb (cachedA1 s.cachedIrqMask) 0xA1

/-! ## Runs -/

/-- An operation on a legacy line or on both controllers. -/
inductive Op where
  | enable (irq : Fin 16)
  | disable (irq : Fin 16)
  | maskAndAck (irq : Fin 16)
  | endIrq (irq : Fin 16) (status flags : BitVec 32)
  | mask
  | unmask
deriving DecidableEq, Repr

/-- The controllers, and whether the last `mask_8259A` has not been undone. -/
structure Sys where
  pic : Pic
  masked : Bool
deriving DecidableEq, Repr

/-- One operation. -/
def step (dev : Device) (s : Sys) : Op → Sys
  | .enable irq => { s with pic := enable8259AIrq s.pic irq }
  | .disable irq => { s with pic := disable8259AIrq s.pic irq }
  | .maskAndAck irq => { s with pic := (maskAndAck8259AIrq dev s.pic irq).2 }
  | .endIrq irq status flags => { s with pic := end8259AIrq s.pic irq status flags }
  | .mask => ⟨mask8259A s.pic, true⟩
  | .unmask => ⟨unmask8259A s.pic, false⟩

/-- The byte last written to the port. -/
def lastOut (outs : List Outb) (port : Nat) : Option (BitVec 8) := (outs.find? (·.port = port)).map Outb.val

/-- **Shadow consistency.** Each controller was last given its byte of the cached mask. -/
def Synced (s : Pic) : Prop :=
  lastOut s.outs 0x21 = some (cached21 s.cachedIrqMask) ∧ lastOut s.outs 0xA1 = some (cachedA1 s.cachedIrqMask)

/-- The controllers are synced or masked globally. -/
def Shadow (s : Sys) : Prop := s.masked = false → Synced s.pic

/-- `_mask_and_ack_8259A_irq` is only called on a line that is masked already, or under the global mask. -/
def AckMasked (s : Sys) : Op → Prop
  | .maskAndAck irq => s.masked = true ∨ s.pic.cachedIrqMask &&& lineMask irq ≠ 0
  | _ => True

instance (s : Pic) : Decidable (Synced s) := inferInstanceAs (Decidable (_ ∧ _))

instance (s : Sys) : Decidable (Shadow s) := inferInstanceAs (Decidable (_ → _))

instance (s : Sys) : ∀ op : Op, Decidable (AckMasked s op)
  | .maskAndAck _ => inferInstanceAs (Decidable (_ ∨ _))
  | .enable _ | .disable _ | .endIrq .. | .mask | .unmask => .isTrue trivial

/-! ## Bits and bytes of the mask -/

section Bits

variable {c c' : BitVec 32} {irq : Nat}

theorem cached21_eq_iff : cached21 c = cached21 c' ↔ ∀ i < 8, c.getLsbD i = c'.getLsbD i := by
  constructor
  · intro h i hi
    simpa [cached21, BitVec.getLsbD_setWidth, hi] using congrArg (·.getLsbD i) h
  · intro h
    apply BitVec.eq_of_getLsbD_eq
    intro i hi
    simp [cached21, hi, h i hi]

theorem cachedA1_eq_iff : cachedA1 c = cachedA1 c' ↔ ∀ i < 8, c.getLsbD (8 + i) = c'.getLsbD (8 + i) := by
  constructor
  · intro h i hi
    simpa [cachedA1, BitVec.getLsbD_setWidth, hi] using congrArg (·.getLsbD i) h
  · intro h
    apply BitVec.eq_of_getLsbD_eq
    intro i hi
    simp [cachedA1, hi, h i hi]

/-- Masks that agree on every line but one agree on the byte of the other controller. -/
theorem other_byte (h : ∀ i ≠ irq, c.getLsbD i = c'.getLsbD i) :
    (8 ≤ irq → cached21 c = cached21 c') ∧ (irq < 8 → cachedA1 c = cachedA1 c') :=
  ⟨fun hi => cached21_eq_iff.mpr fun i hlt => h i (by omega),
    fun hi => cachedA1_eq_iff.mpr fun i hlt => h (8 + i) (by omega)⟩

/-- Setting or clearing the bit of a line leaves the other lines alone. -/
theorem or_lineMask (c : BitVec 32) (irq : Nat) :
    ∀ i ≠ irq, (c ||| lineMask irq).getLsbD i = c.getLsbD i := fun _ h => or_bit_others c h

theorem and_not_lineMask (c : BitVec 32) (irq : Nat) :
    ∀ i ≠ irq, (c &&& ~~~lineMask irq).getLsbD i = c.getLsbD i := fun _ h => andNot_bit_others c h

/-- The bit of a line is tested as the code tests it. -/
theorem masked_iff (c : BitVec 32) (h : irq < 32) : c &&& lineMask irq ≠ 0 ↔ c.getLsbD irq = true :=
  and_bit_ne_zero_iff c h

end Bits

/-! ## One operation -/

section Operations

variable {s : Pic} {c : BitVec 32} {irq : Nat}

@[simp] theorem lastOut_cons (o : Outb) (outs : List Outb) (port : Nat) :
    lastOut (o :: outs) port = if o.port = port then some o.val else lastOut outs port := by
  by_cases h : o.port = port <;> simp [lastOut, h]

/-- The controller of a line. -/
theorem line_and_8 (irq : Fin 16) : irq.val &&& 8 ≠ 0 ↔ 8 ≤ irq.val := by
  revert irq
  decide

/-- Writing the byte of the line's controller makes up for a change of the line's bit. -/
theorem synced_outbLine (irq : Fin 16) (hs : Synced s) (h : ∀ i ≠ irq.val, c.getLsbD i = s.cachedIrqMask.getLsbD i) :
    Synced ({ s with cachedIrqMask := c }.outbLine irq) := by
  obtain ⟨h21, hA1⟩ := hs
  obtain ⟨hlow, hhigh⟩ := other_byte h
  unfold Pic.outbLine
  by_cases hline : irq.val &&& 8 ≠ 0
  · rw [if_pos hline]
    have h21' : lastOut s.outs 0x21 = some (cached21 c) := by rw [h21, hlow ((line_and_8 irq).mp hline)]
    simp [Synced, Pic.outb, h21']
  · rw [if_neg hline]
    have hlt : irq.val < 8 := by
      have := (line_and_8 irq).not.mp hline
      omega
    have hA1' : lastOut s.outs 0xA1 = some (cachedA1 c) := by rw [hA1, hhigh hlt]
    simp [Synced, Pic.outb, hA1']

theorem synced_enable (irq : Fin 16) (hs : Synced s) : Synced (enable8259AIrq s irq) :=
  synced_outbLine irq hs (and_not_lineMask _ _)

theorem synced_disable (irq : Fin 16) (hs : Synced s) : Synced (disable8259AIrq s irq) :=
  synced_outbLine irq hs (or_lineMask _ _)

/-- Undoing the global mask syncs the controllers, whatever happened before. -/
theorem synced_unmask (s : Pic) : Synced (unmask8259A s) := by
  simp [Synced, unmask8259A, Pic.outb]

theorem synced_init (vector : BitVec 8) (autoEoi : Bool) (s : Pic) : Synced (init8259A vector autoEoi s) := by
  simp [Synced, init8259A, Pic.outb]

/-- `_mask_and_ack_8259A_irq` masks the line in the cached mask and does not write to the mask registers. -/
theorem maskAndAck_pic (dev : Device) (s : Pic) (irq : Nat) :
    (maskAndAck8259AIrq dev s irq).2.cachedIrqMask = s.cachedIrqMask ||| lineMask irq ∧
      lastOut (maskAndAck8259AIrq dev s irq).2.outs 0x21 = lastOut s.outs 0x21 ∧
      lastOut (maskAndAck8259AIrq dev s irq).2.outs 0xA1 = lastOut s.outs 0xA1 := by
  simp only [maskAndAck8259AIrq, i8259AIrqReal]
  split_ifs <;> simp [Pic.outb]

/-- Without a port write the controllers stay synced exactly if the line was masked already. -/
theorem synced_maskAndAck (dev : Device) (irq : Fin 16) (hs : Synced s) :
    Synced (maskAndAck8259AIrq dev s irq).2 ↔ s.cachedIrqMask &&& lineMask irq ≠ 0 := by
  obtain ⟨hmask, h21, hA1⟩ := maskAndAck_pic dev s irq
  have hirq := irq.isLt
  rw [Synced, hmask, h21, hA1, hs.1, hs.2, Option.some.injEq, Option.some.injEq, cached21_eq_iff, cachedA1_eq_iff,
    masked_iff _ (by omega)]
  have hself : (s.cachedIrqMask ||| lineMask irq).getLsbD irq = true := or_bit_self _ (by omega)
  constructor
  · rintro ⟨hlow, hhigh⟩
    rw [← hself]
    rcases Nat.lt_or_ge irq.val 8 with h | h
    · exact hlow irq h
    · have := hhigh (irq - 8) (by omega)
      rwa [Nat.add_sub_cancel' h] at this
  · intro hbit
    have hsame : ∀ i, s.cachedIrqMask.getLsbD i = (s.cachedIrqMask ||| lineMask irq).getLsbD i := fun i => by
      by_cases hi : i = irq.val
      · rw [hi, hself, hbit]
      · exact (or_lineMask _ _ i hi).symm
    exact ⟨fun i _ => hsame i, fun i _ => hsame (8 + i)⟩

/-- **One operation.** From a shadowed state, the next one is shadowed exactly if no unmasked line is acknowledged. -/
theorem shadow_step (dev : Device) {s : Sys} (op : Op) (hs : Shadow s) : Shadow (step dev s op) ↔ AckMasked s op := by
  cases op with
  | enable irq => exact iff_of_true (fun h => synced_enable irq (hs h)) trivial
  | disable irq => exact iff_of_true (fun h => synced_disable irq (hs h)) trivial
  | endIrq irq status flags =>
    refine iff_of_true (fun h => ?_) trivial
    simp only [step, end8259AIrq]
    split
    · exact synced_enable irq (hs h)
    · exact hs h
  | mask => exact iff_of_true (fun h => by cases h) trivial
  | unmask => exact iff_of_true (fun _ => synced_unmask s.pic) trivial
  | maskAndAck irq =>
    cases hm : s.masked with
    | true => exact iff_of_true (fun h => by rw [step, hm] at h; cases h) (Or.inl hm)
    | false =>
      simp only [Shadow, AckMasked, step, hm, forall_const, Bool.false_eq_true, false_or]
      exact synced_maskAndAck dev irq (hs hm)

end Operations

/-! ## Runs from `init_8259A` -/

/-- The controllers behind `init_8259A`. -/
def started (vector : BitVec 8) (autoEoi : Bool) (s : Pic) : Sys := ⟨init8259A vector autoEoi s, false⟩

/-- **Shadow consistency of a run.** Behind `init_8259A` the controllers stay synced whenever they are not masked
globally, exactly if only masked lines are acknowledged. -/
theorem shadow_iff (dev : Device) (vector : BitVec 8) (autoEoi : Bool) (s : Pic) (ops : List Op) :
    Throughout Shadow (step dev) (started vector autoEoi s) ops ↔
      Along AckMasked (step dev) (started vector autoEoi s) ops :=
  throughout_iff_along (I := fun _ => True) (L := fun _ _ => True) (fun _ _ _ _ _ _ => trivial)
    (fun _ op _ _ hs => shadow_step dev op hs) trivial (fun _ => synced_init vector autoEoi s)
    (along_of_forall (fun _ _ => trivial) _ ops)

/-- The timer interrupt, enabled and acknowledged. -/
theorem shadow_counterexample :
    ¬ ∀ (dev : Device) (vector : BitVec 8) (autoEoi : Bool) (s : Pic) (ops : List Op),
      Throughout Shadow (step dev) (started vector autoEoi s) ops := fun h =>
  absurd (h (fun _ _ => 0) 0x20 false ⟨0xffff, 0, []⟩ [.enable 0, .maskAndAck 0]) (by decide +kernel)

end Xen.Irq
