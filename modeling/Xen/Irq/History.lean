import Xen.Irq.I8259

/-!
# The history of the cached mask (`irq_verified.c`)

- `enable_8259A_irq`, `_disable_8259A_irq` and `_mask_and_ack_8259A_irq` on the lines 0 to 31 of the cached mask, as
  `LineOp`s. Each of them writes the bit of its line, and what it writes depends on nothing else (`lineStep_bit`).
- `mask_history`: the bit of a line is what the last operation on the line wrote, and operations on different lines
  commute.
-/

namespace Xen.Irq

open Lib

/-- An operation on a line of the cached mask. -/
inductive LineOp where
  | enable (irq : Fin 32)
  | disable (irq : Fin 32)
  | maskAndAck (irq : Fin 32)
deriving DecidableEq, Repr

/-- The line of the operation. -/
def LineOp.line : LineOp → Fin 32
  | .enable irq | .disable irq | .maskAndAck irq => irq

/-- The operation is an enable. -/
def LineOp.Enables : LineOp → Prop
  | .enable _ => True
  | .disable _ | .maskAndAck _ => False

instance : ∀ op : LineOp, Decidable op.Enables
  | .enable _ => .isTrue trivial
  | .disable _ | .maskAndAck _ => .isFalse id

/-- One operation. -/
def lineStep (dev : Device) (s : Pic) : LineOp → Pic
  | .enable irq => enable8259AIrq s irq
  | .disable irq => disable8259AIrq s irq
  | .maskAndAck irq => (maskAndAck8259AIrq dev s irq).2

/-- The operation, if it is on the line `k`. -/
def onLine (k : Fin 32) (op : LineOp) : Option LineOp := if op.line = k then some op else none

/-- The last operation on the line `k`. -/
def lastOn (k : Fin 32) (ops : List LineOp) : Option LineOp := lastSet (onLine k) ops

/-- What the operation writes to the bit of the line `k`. -/
def bitOn (k : Fin 32) (op : LineOp) : Option Bool := (onLine k op).map fun op => !decide op.Enables

/-- **The mask after some operations.** The bit of a line is clear exactly if the last operation on it was an enable or,
without one, the line is not a legacy line; a further operation leaves the bits of the other lines, and two on different
lines commute. -/
structure MaskHistory (dev : Device) (start : Pic) (ops : List LineOp) : Prop where
  clear : ∀ k : Fin 32, (ops.foldl (lineStep dev) start).cachedIrqMask.getLsbD k = false ↔
    (∃ op, lastOn k ops = some op ∧ op.Enables) ∨ (lastOn k ops = none ∧ 16 ≤ k.val)
  others : ∀ (op : LineOp) (k : Fin 32), op.line ≠ k →
    ((ops ++ [op]).foldl (lineStep dev) start).cachedIrqMask.getLsbD k =
      (ops.foldl (lineStep dev) start).cachedIrqMask.getLsbD k
  comm : ∀ op op' : LineOp, op.line ≠ op'.line →
    ((ops ++ [op, op']).foldl (lineStep dev) start).cachedIrqMask =
      ((ops ++ [op', op]).foldl (lineStep dev) start).cachedIrqMask

/-! ## One operation -/

section Step

variable (dev : Device) {s : Pic} {k : Fin 32}

@[simp] theorem outbLine_cached (s : Pic) (irq : Nat) : (s.outbLine irq).cachedIrqMask = s.cachedIrqMask := by
  unfold Pic.outbLine
  split <;> rfl

/-- What an operation makes of the cached mask. -/
theorem lineStep_mask (s : Pic) (op : LineOp) : (lineStep dev s op).cachedIrqMask =
    if op.Enables then s.cachedIrqMask &&& ~~~lineMask op.line else s.cachedIrqMask ||| lineMask op.line := by
  cases op with
  | enable irq =>
    show ((Pic.outbLine _ irq).cachedIrqMask : BitVec 32) = s.cachedIrqMask &&& ~~~lineMask irq
    rw [outbLine_cached]
  | disable irq =>
    show ((Pic.outbLine _ irq).cachedIrqMask : BitVec 32) = s.cachedIrqMask ||| lineMask irq
    rw [outbLine_cached]
  | maskAndAck irq => exact (maskAndAck_pic dev s irq).1

/-- **One operation** writes the bit of its line. -/
theorem lineStep_bit (k : Fin 32) (s : Pic) (op : LineOp) : (lineStep dev s op).cachedIrqMask.getLsbD k =
    (bitOn k op).getD (s.cachedIrqMask.getLsbD k) := by
  rw [lineStep_mask]
  by_cases hk : op.line = k
  · have hbit : bitOn k op = some !decide op.Enables := by rw [bitOn, onLine, if_pos hk]; rfl
    rw [hbit, Option.getD_some, hk]
    by_cases he : op.Enables
    · rw [if_pos he, decide_eq_true he]
      exact andNot_bit_self _ _
    · rw [if_neg he, decide_eq_false he]
      exact or_bit_self _ k.isLt
  · have hbit : bitOn k op = none := by rw [bitOn, onLine, if_neg hk]; rfl
    have hne : k.val ≠ op.line.val := fun h => hk (Fin.ext h.symm)
    rw [hbit, Option.getD_none]
    split
    · exact andNot_bit_others _ hne
    · exact or_bit_others _ hne

/-- The bits of the other lines stay. -/
theorem lineStep_others {op : LineOp} (h : op.line ≠ k) :
    (lineStep dev s op).cachedIrqMask.getLsbD k = s.cachedIrqMask.getLsbD k := by
  rw [lineStep_bit, bitOn, onLine, if_neg h]
  rfl

/-- Operations on different lines commute. -/
theorem lineStep_comm {op op' : LineOp} (h : op.line ≠ op'.line) :
    (lineStep dev (lineStep dev s op) op').cachedIrqMask = (lineStep dev (lineStep dev s op') op).cachedIrqMask := by
  apply BitVec.eq_of_getLsbD_eq
  intro i hi
  have hbit : ∀ s op,
      (lineStep dev s op).cachedIrqMask.getLsbD i = (bitOn ⟨i, hi⟩ op).getD (s.cachedIrqMask.getLsbD i) :=
    lineStep_bit dev ⟨i, hi⟩
  rw [hbit, hbit, hbit, hbit]
  by_cases hop : op.line = ⟨i, hi⟩
  · have hnone : bitOn ⟨i, hi⟩ op' = none := by
      rw [bitOn, onLine, if_neg fun hop' => h (hop.trans hop'.symm)]
      rfl
    rw [hnone, Option.getD_none, Option.getD_none]
  · have hnone : bitOn ⟨i, hi⟩ op = none := by
      rw [bitOn, onLine, if_neg hop]
      rfl
    rw [hnone, Option.getD_none, Option.getD_none]

end Step

/-! ## Runs -/

/-- The lines whose bit is set in `0xffff`. -/
theorem legacy_bit (k : Fin 32) : (0xffff#32 : BitVec 32).getLsbD k = decide (k.val < 16) := by
  revert k
  decide

/-- **The history of the mask**, from `cached_irq_mask = 0xffff` and whatever was written to the ports. -/
theorem mask_history (dev : Device) (spurious : BitVec 32) (outs : List Outb) (ops : List LineOp) :
    MaskHistory dev ⟨0xffff, spurious, outs⟩ ops := by
  constructor
  · intro k
    rw [foldl_lastSet_getD (fun s : Pic => s.cachedIrqMask.getLsbD k) (lineStep_bit dev k)]
    have hmap : lastSet (bitOn k) ops = (lastOn k ops).map fun op => !decide op.Enables := lastSet_map _ ops
    rw [hmap]
    cases hlast : lastOn k ops with
    | none =>
      have hbit : (0xffff : BitVec 32).getLsbD k = decide (k.val < 16) := legacy_bit k
      rw [Option.map_none, Option.getD_none, hbit]
      simp
    | some op =>
      rw [Option.map_some, Option.getD_some]
      simp
  · intro op k h
    rw [List.foldl_append]
    exact lineStep_others dev h
  · intro op op' h
    rw [List.foldl_append, List.foldl_append]
    exact lineStep_comm dev h

end Xen.Irq
