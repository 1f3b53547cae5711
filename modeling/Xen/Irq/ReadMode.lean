import Xen.Irq.I8259

/-!
# What the 8259A reads back (`irq_verified.c`)

- A command port of the 8259A reads back the in-service register or the interrupt request register (`ReadReg`),
  whichever was selected last by a control word to the port. `i8259` is a device that does so.
- A run is a list of `ReadOp`s on the legacy lines, each with what the two registers hold then.
- `i8259A_irq_real` selects ISR and then IRR again, and nothing else selects a register (`selectsIrr_step`).
  `readMode_along`: `_mask_and_ack_8259A_irq` and `i8259A_irq_pending` answer from the register that is meant.
-/

namespace Xen.Irq

open Lib

/-! ## The device -/

/-- A register that a command port reads back. -/
inductive ReadReg where
  | irr
  | isr
deriving DecidableEq, Repr

/-- The register that a control word selects: ICW1 has bit 4, and OCW3 selects with bits 1 and 0. -/
def selects (val : BitVec 8) : Option ReadReg :=
  if val.getLsbD 4 then some .irr
  else if val.getLsbD 3 && val.getLsbD 1 then some (if val.getLsbD 0 then .isr else .irr)
  else none

/-- The register that the port reads back after the given port writes, latest first. -/
def readReg (outs : List Outb) (port : Nat) : Option ReadReg :=
  outs.findSome? fun o => if o.port = port then selects o.val else none

/-- The contents of the two registers, a bit for each legacy line. -/
structure Contents where
  isr : BitVec 16
  irr : BitVec 16
deriving DecidableEq, Repr

/-- The register, of both controllers; without a selection it is IRR. -/
def Contents.get (r : Contents) : Option ReadReg → BitVec 16
  | some .isr => r.isr
  | some .irr | none => r.irr

/-- Two 8259A controllers; the other ports are `other`. -/
def i8259 (other : Device) (r : Contents) : Device := fun outs port =>
  let contents := r.get (readReg outs port)
  if port = 0x20 then (contents.setWidth 8).setWidth 32
  else if port = 0xA0 then ((contents >>> 8).setWidth 8).setWidth 32
  else other outs port

/-! ## Runs -/

/-- `i8259A_irq_pending`: the interrupt request bit of the line. -/
def i8259AIrqPending (dev : Device) (s : Pic) (irq : Nat) : BitVec 32 :=
  let mask := lineMask irq
  if irq < 8 then dev s.outs 0x20 &&& mask else dev s.outs 0xA0 &&& (mask >>> 8)

/-- The functions. -/
inductive ReadFn where
  | maskAndAck
  | enable
  | disable
  | pending
deriving DecidableEq, Repr

/-- A call of a function on a line, and what the registers hold then. -/
structure ReadOp where
  fn : ReadFn
  irq : Fin 16
  regs : Contents
deriving DecidableEq, Repr

variable {other : Device}

/-- One call. -/
def readStep (other : Device) (s : Pic) (op : ReadOp) : Pic :=
  match op.fn with
  | .maskAndAck => (maskAndAck8259AIrq (i8259 other op.regs) s op.irq).2
  | .enable => enable8259AIrq s op.irq
  | .disable => disable8259AIrq s op.irq
  | .pending => s

/-- **The answer is right**: `_mask_and_ack_8259A_irq` returns 0 exactly for a line that was masked and is not in
service, and `i8259A_irq_pending` returns non-zero exactly for a line with a request. -/
def AnswerOk (other : Device) (s : Pic) (op : ReadOp) : Prop :=
  match op.fn with
  | .maskAndAck => (maskAndAck8259AIrq (i8259 other op.regs) s op.irq).1 = false ↔
      s.cachedIrqMask.getLsbD op.irq = true ∧ op.regs.isr.getLsbD op.irq = false
  | .pending => i8259AIrqPending (i8259 other op.regs) s op.irq ≠ 0 ↔ op.regs.irr.getLsbD op.irq = true
  | .enable | .disable => True

/-- Both command ports read back IRR. -/
structure SelectsIrr (s : Pic) : Prop where
  low : readReg s.outs 0x20 = some .irr
  high : readReg s.outs 0xA0 = some .irr

/-! ## What is selected -/

section Selected

variable {s : Pic}

/-- The latest write selects, if it is to the port and a control word that does. -/
theorem readReg_cons (o : Outb) (outs : List Outb) (port : Nat) :
    readReg (o :: outs) port = (if o.port = port then selects o.val else none).or (readReg outs port) := by
  rw [readReg, List.findSome?_cons]
  split
  next r h => rw [h]; rfl
  next h => rw [h]; rfl

/-- Writing to another port selects nothing. -/
theorem readReg_of_ne {port port' : Nat} (h : port' ≠ port) (val : BitVec 8) (outs : List Outb) :
    readReg (⟨val, port'⟩ :: outs) port = readReg outs port := by
  rw [readReg_cons, if_neg h, Option.none_or]

/-- `0x0A` selects IRR again, on the port it is written to. -/
theorem selectsIrr_back (hs : SelectsIrr s) (port : Nat) : SelectsIrr ((s.outb 0x0B port).outb 0x0A port) := by
  have hirr : selects 0x0A = some .irr := by decide
  have hport : ∀ p, readReg s.outs p = some .irr → readReg (⟨0x0A, port⟩ :: ⟨0x0B, port⟩ :: s.outs) p = some .irr := by
    intro p hp
    by_cases h : port = p
    · rw [readReg_cons, if_pos h, hirr, Option.some_or]
    · rw [readReg_of_ne h, readReg_of_ne h, hp]
  exact ⟨hport _ hs.low, hport _ hs.high⟩

/-- The mask registers have other ports. -/
theorem selectsIrr_outbLine (hs : SelectsIrr s) (c : BitVec 32) (irq : Nat) :
    SelectsIrr ({ s with cachedIrqMask := c }.outbLine irq) := by
  unfold Pic.outbLine
  split
  all_goals
    constructor
    · exact (readReg_of_ne (by decide) _ _).trans hs.low
    · exact (readReg_of_ne (by decide) _ _).trans hs.high

/-- `_mask_and_ack_8259A_irq` writes to no port, or what `i8259A_irq_real` does. -/
theorem maskAndAck_outs (dev : Device) (s : Pic) (irq : Nat) :
    (maskAndAck8259AIrq dev s irq).2.outs = s.outs ∨
      ∃ port, (maskAndAck8259AIrq dev s irq).2.outs = ((s.outb 0x0B port).outb 0x0A port).outs := by
  simp only [maskAndAck8259AIrq]
  by_cases hmasked : s.cachedIrqMask &&& lineMask irq ≠ 0
  · refine Or.inr ⟨if irq < 8 then 0x20 else 0xA0, ?_⟩
    rw [if_pos hmasked]
    split <;> rfl
  · rw [if_neg hmasked]
    exact Or.inl rfl

/-- **One call** leaves IRR selected. -/
theorem selectsIrr_step (hs : SelectsIrr s) (op : ReadOp) : SelectsIrr (readStep other s op) := by
  unfold readStep
  split
  · rcases maskAndAck_outs (i8259 other op.regs) s op.irq with h | ⟨port, h⟩
    · exact ⟨h ▸ hs.low, h ▸ hs.high⟩
    · have hback := selectsIrr_back hs port
      exact ⟨h ▸ hback.low, h ▸ hback.high⟩
  · exact selectsIrr_outbLine hs _ _
  · exact selectsIrr_outbLine hs _ _
  · exact hs

end Selected

/-! ## What is read -/

section Read

variable {s : Pic} (other : Device) (r : Contents)

/-- The bit of a line at its controller, as `i8259A_irq_real` shifts it. -/
theorem real_mask : ∀ irq : Fin 16,
    (if irq.val < 8 then lineMask irq else (lineMask irq).sshiftRight 8) = lineMask (irq.val % 8) := by
  decide

/-- The bit of a line at its controller, as `i8259A_irq_pending` shifts it. -/
theorem pending_mask : ∀ irq : Fin 16, 8 ≤ irq.val → lineMask irq >>> 8 = lineMask (irq.val % 8) := by
  decide

/-- The command port of a line's controller reads back the line's bit of the selected register. -/
theorem i8259_bit (irq : Fin 16) (outs : List Outb) {port : Nat} (hport : port = if irq.val < 8 then 0x20 else 0xA0) :
    i8259 other r outs port &&& lineMask (irq.val % 8) ≠ 0 ↔ (r.get (readReg outs port)).getLsbD irq = true := by
  have hmod : irq.val % 8 < 8 := Nat.mod_lt _ (by omega)
  rw [masked_iff _ (by omega), i8259]
  by_cases hlow : irq.val < 8
  · rw [if_pos hlow] at hport
    rw [if_pos hport, Nat.mod_eq_of_lt hlow, BitVec.getLsbD_setWidth, BitVec.getLsbD_setWidth]
    simp [hlow, Nat.lt_trans hlow]
  · rw [if_neg hlow] at hport
    have hirq : 8 + irq.val % 8 = irq.val := by omega
    rw [if_neg (by omega), if_pos hport, BitVec.getLsbD_setWidth, BitVec.getLsbD_setWidth, BitVec.getLsbD_ushiftRight,
      hirq]
    simp [hmod, Nat.lt_trans hmod]

/-- `i8259A_irq_real` reads back ISR, whatever was selected before. -/
theorem irqReal_eq_zero_iff (irq : Fin 16) :
    (i8259AIrqReal (i8259 other r) s irq).1 = 0 ↔ r.isr.getLsbD irq = false := by
  have hisr : selects 0x0B = some .isr := by decide
  have hbit := i8259_bit other r irq (⟨0x0B, if irq.val < 8 then 0x20 else 0xA0⟩ :: s.outs) rfl
  rw [readReg_cons, if_pos rfl, hisr, Option.some_or, ← real_mask irq] at hbit
  rw [← Bool.not_eq_true]
  exact not_iff_not.mp (hbit.trans not_not.symm)

/-- `i8259A_irq_pending` reads back what is selected. -/
theorem irqPending_ne_zero_iff (hs : SelectsIrr s) (irq : Fin 16) :
    i8259AIrqPending (i8259 other r) s irq ≠ 0 ↔ r.irr.getLsbD irq = true := by
  rw [i8259AIrqPending]
  by_cases hlow : irq.val < 8
  · have hbit := i8259_bit other r irq s.outs (if_pos hlow).symm
    rw [hs.low, Nat.mod_eq_of_lt hlow] at hbit
    rwa [if_pos hlow]
  · have hbit := i8259_bit other r irq s.outs (if_neg hlow).symm
    rw [hs.high, ← pending_mask irq (Nat.le_of_not_lt hlow)] at hbit
    rwa [if_neg hlow]

/-- `_mask_and_ack_8259A_irq` answers that of `i8259A_irq_real` for a masked line. -/
theorem maskAndAck_eq_false_iff (dev : Device) (irq : Nat) :
    (maskAndAck8259AIrq dev s irq).1 = false ↔
      s.cachedIrqMask &&& lineMask irq ≠ 0 ∧ (i8259AIrqReal dev s irq).1 = 0 := by
  simp only [maskAndAck8259AIrq]
  by_cases hmasked : s.cachedIrqMask &&& lineMask irq ≠ 0
  · rw [if_pos hmasked]
    split
    next h => exact iff_of_true rfl ⟨hmasked, h⟩
    next h => exact iff_of_false Bool.true_eq_false.mp fun hreal => h hreal.2
  · rw [if_neg hmasked]
    exact iff_of_false Bool.true_eq_false.mp fun h => hmasked h.1

/-- **One call** answers right if IRR is selected before. -/
theorem answerOk (hs : SelectsIrr s) (op : ReadOp) : AnswerOk other s op := by
  have hirq : op.irq.val < 32 := by omega
  unfold AnswerOk
  split
  · rw [maskAndAck_eq_false_iff, masked_iff _ hirq, irqReal_eq_zero_iff]
  · exact irqPending_ne_zero_iff other op.regs hs op.irq
  · trivial
  · trivial

end Read

/-- **Spurious interrupts and the read mode.** If IRR is selected at the start, every answer of a run is right. -/
theorem readMode_along (other : Device) {s : Pic} (hs : SelectsIrr s) (ops : List ReadOp) :
    Along (AnswerOk other) (readStep other) s ops :=
  Along.of_inv (fun _ op hs _ => selectsIrr_step hs op) (fun _ op hs _ => answerOk other hs op) hs
    (along_of_forall (fun _ _ => trivial) s ops)

/-- `0x0A` to both command ports, and then a spurious interrupt on line 7, which is also requested. -/
theorem readMode_spurious : Along (AnswerOk fun _ _ => 0) (readStep fun _ _ => 0)
    ⟨0xffff, 0, [⟨0x0A, 0xA0⟩, ⟨0x0A, 0x20⟩]⟩ [⟨.maskAndAck, 7, ⟨0, 0x80⟩⟩, ⟨.pending, 7, ⟨0, 0x80⟩⟩] :=
  readMode_along (fun _ _ => 0) ⟨by decide, by decide⟩ _

end Xen.Irq
