import Xen.Irq.Programming

/-!
# Setting up the legacy interrupts, and suspending them (`irq_verified.c`)

- `initIRQ` runs `init_8259A` and then over the legacy lines; what `apic_intr_init` and `setup_irq`, which are not in
  the file, make of the descriptors is a parameter. `initIRQ_vectors`: the loop ends if some line is not legacy, and the
  vector that it writes to the descriptor of a line is the one programmed for it, exactly if `FIRST_LEGACY_VECTOR` is a
  multiple of 8 and the vector is a byte.
- `Board` is what is programmed into the two controllers, with the trigger registers (ELCR), whose reserved bits
  `i8259A_suspend` does not save. `resume_elcr`: what `i8259A_resume` brings back after whatever happened since
  `i8259A_suspend`; with `init_8259A` commented out it leaves the controllers as they are.
-/

namespace Xen.Irq

open Lib

/-! ## `init_IRQ` -/

/-- What `desc->handler` points to. -/
inductive Handler where
  | i8259AIrqType
  | other (p : Nat)
deriving DecidableEq, Repr

/-- The fields of `struct irq_desc` that are written here. -/
structure IrqDesc where
  handler : Handler
  vector : Int
deriving DecidableEq, Repr

/-- The body of the loop of `init_IRQ`; there is no line 2. -/
def setupLine (firstLegacyVector : Int) (irq : Nat) (desc : Nat → IrqDesc) : Nat → IrqDesc :=
  if irq = 2 then desc else Function.update desc irq ⟨.i8259AIrqType, firstLegacyVector + irq⟩

/-- The loop of `init_IRQ` from `irq`. -/
def setupLines (firstLegacyVector : Int) (platformLegacyIrq : Nat → Bool) :
    (fuel irq : Nat) → (Nat → IrqDesc) → Option (Nat → IrqDesc)
  | 0, _, _ => none
  | fuel + 1, irq, desc =>
    if platformLegacyIrq irq then
      setupLines firstLegacyVector platformLegacyIrq fuel (irq + 1) (setupLine firstLegacyVector irq desc)
    else some desc

/-- `init_IRQ`: the controllers, and the descriptors by line; `callees` is what `apic_intr_init()` and
`setup_irq(2, 0, &cascade)` make of these in the end. If every line is legacy, the `int` that counts them overflows:
`none`. -/
def initIRQ (firstLegacyVector : Int) (platformLegacyIrq : Nat → Bool) (callees : (Nat → IrqDesc) → Nat → IrqDesc)
    (s : Pic) (desc : Nat → IrqDesc) : Pic × Option (Nat → IrqDesc) :=
  let desc' := setupLines firstLegacyVector platformLegacyIrq (2 ^ 31) 0 desc
  (init8259A (BitVec.ofInt 8 firstLegacyVector) false s, desc'.map callees)

section Lines

variable {first : Int} {legacy : Nat → Bool} {n irq fuel : Nat}

theorem setupLine_get (first : Int) (irq : Nat) (desc : Nat → IrqDesc) (k : Nat) :
    setupLine first irq desc k = if k = irq ∧ k ≠ 2 then ⟨.i8259AIrqType, first + k⟩ else desc k := by
  unfold setupLine
  by_cases hk : k = irq
  · subst hk
    by_cases h2 : k = 2 <;> simp [h2]
  · by_cases h2 : irq = 2 <;> simp [h2, hk]

/-- The loop goes up to the first line that is not legacy. -/
theorem setupLines_get (hstop : legacy n = false) (hrun : ∀ k, irq ≤ k → k < n → legacy k = true) (hle : irq ≤ n)
    (hfuel : n < irq + fuel) (desc : Nat → IrqDesc) : ∃ desc', setupLines first legacy fuel irq desc = some desc' ∧
      ∀ k, desc' k = if irq ≤ k ∧ k < n ∧ k ≠ 2 then ⟨.i8259AIrqType, first + k⟩ else desc k := by
  induction fuel generalizing irq desc with
  | zero => omega
  | succ fuel ih =>
    rcases Nat.eq_or_lt_of_le hle with rfl | hlt
    · refine ⟨desc, by rw [setupLines, hstop]; rfl, fun k => ?_⟩
      rw [if_neg (by omega)]
    · obtain ⟨desc', hdesc', hget⟩ := ih (fun k hk => hrun k (by omega)) hlt (by omega) (setupLine first irq desc)
      refine ⟨desc', by rw [setupLines, hrun irq (Nat.le_refl _) hlt]; exact hdesc', fun k => ?_⟩
      rw [hget, setupLine_get]
      by_cases hk : k = irq
      · subst hk
        by_cases h2 : k = 2 <;> simp [h2, hlt]
      · have hiff : (irq.succ ≤ k ∧ k < n ∧ k ≠ 2) ↔ (irq ≤ k ∧ k < n ∧ k ≠ 2) := by omega
        have hother : ¬(k = irq ∧ k ≠ 2) := fun h => hk h.1
        rw [if_neg hother, if_congr hiff rfl rfl]

/-- The vector programmed for a line is the one counted from the base exactly if the base loses no bits, and the vector
is a byte. -/
theorem vector_eq_iff (first : Int) (line : Fin 16) :
    first + line = ((BitVec.ofInt 8 first &&& 0xF8) + BitVec.ofNat 8 line).toNat ↔
      8 ∣ first ∧ 0 ≤ first + line ∧ first + line < 256 := by
  have hbyte : ∀ x : BitVec 8, (x &&& 0xF8).toNat = x.toNat - x.toNat % 8 := by decide +kernel
  have hline := line.isLt
  rw [BitVec.toNat_add, hbyte, BitVec.toNat_ofInt, BitVec.toNat_ofNat]
  omega

/-- **The vectors of the legacy lines.** If `n` is the first line that is not legacy, the loop of `init_IRQ` ends, gives
the descriptors below `n` except that of line 2 the 8259A handler and a vector each, and leaves the others, before the
two last calls. In every run behind `init_8259A`, from any state of the controllers, the vector of such a line in its
descriptor is the one with which it is let through, exactly if `FIRST_LEGACY_VECTOR` is a multiple of 8 and the vector a
byte. -/
theorem initIRQ_vectors (first : Int) (legacy : Nat → Bool) (callees : (Nat → IrqDesc) → Nat → IrqDesc) (s : Pic)
    (desc : Nat → IrqDesc) (n : Nat) (hn : n < 2 ^ 31) (hstop : legacy n = false) (hrun : ∀ k < n, legacy k = true) :
    ∃ desc', (initIRQ first legacy callees s desc).2 = some (callees desc') ∧
      (∀ k, desc' k = if k < n ∧ k ≠ 2 then ⟨.i8259AIrqType, first + k⟩ else desc k) ∧
      ∀ (c : Controllers) (dev : Device) (ops : List Op) (line : Fin 16) (v : BitVec 8), line.val < n →
        (c.after (ops.foldl (step dev) ⟨(initIRQ first legacy callees s desc).1, false⟩).pic.outs).unmasked line =
          some v →
        ((desc' line).vector = v.toNat ↔ 8 ∣ first ∧ 0 ≤ first + line ∧ first + line < 256) := by
  obtain ⟨desc', hdesc', hget⟩ : ∃ desc', setupLines first legacy (2 ^ 31) 0 desc = some desc' ∧ ∀ k, desc' k =
      if 0 ≤ k ∧ k < n ∧ k ≠ 2 then ⟨.i8259AIrqType, first + k⟩ else desc k :=
    setupLines_get hstop (fun k _ => hrun k) (Nat.zero_le n) (by omega) desc
  have hdesc : ∀ k, desc' k = if k < n ∧ k ≠ 2 then ⟨.i8259AIrqType, first + k⟩ else desc k := fun k => by
    rw [hget]
    simp
  refine ⟨desc', congrArg (Option.map callees) hdesc', hdesc, fun c dev ops line v hline hv => ?_⟩
  have hinit : Programmed (BitVec.ofInt 8 first) false c (initIRQ first legacy callees s desc).1.outs :=
    configured_init (BitVec.ofInt 8 first) false c s
  have hprogrammed : Programmed (BitVec.ofInt 8 first) false c
      (ops.foldl (step dev) ⟨(initIRQ first legacy callees s desc).1, false⟩).pic.outs :=
    foldl_inv (Q := fun s : Sys => Programmed (BitVec.ofInt 8 first) false c s.pic.outs)
      (fun _ op hs => programmed_step dev hs op) hinit ops
  obtain ⟨rfl, hne, -⟩ := (unmasked_configured hprogrammed.configured line v).mp hv
  have hvector : (desc' line).vector = first + line := by rw [hdesc, if_pos ⟨hline, hne⟩]
  rw [hvector, vector_eq_iff]

/-- Sixteen legacy lines from vector 0xE0 on. -/
theorem initIRQ_vectors_sixteen :
    ∃ desc', (initIRQ 0xE0 (· < 16) id ⟨0xFFFF, 0, []⟩ fun _ => ⟨.other 0, 0⟩).2 = some (id desc') ∧
      (∀ k, desc' k = if k < 16 ∧ k ≠ 2 then ⟨.i8259AIrqType, 0xE0 + k⟩ else ⟨.other 0, 0⟩) ∧
      ∀ (c : Controllers) (dev : Device) (ops : List Op) (line : Fin 16) (v : BitVec 8), line.val < 16 →
        (c.after (ops.foldl (step dev)
          ⟨(initIRQ 0xE0 (· < 16) id ⟨0xFFFF, 0, []⟩ fun _ => ⟨.other 0, 0⟩).1, false⟩).pic.outs).unmasked line =
            some v →
        ((desc' line).vector = v.toNat ↔ (8 : Int) ∣ 0xE0 ∧ (0 : Int) ≤ 0xE0 + line ∧ (0xE0 : Int) + line < 256) :=
  initIRQ_vectors 0xE0 (· < 16) id ⟨0xFFFF, 0, []⟩ (fun _ => ⟨.other 0, 0⟩) 16 (by omega) (by decide)
    fun k hk => decide_eq_true hk

end Lines

/-! ## Suspend and resume -/

/-- The controllers, and the trigger registers behind the ports 0x4d0 and 0x4d1. -/
structure Board where
  controllers : Controllers
  elcr : BitVec 8 × BitVec 8
deriving DecidableEq, Repr

/-- A port write. -/
def Board.write (b : Board) (o : Outb) : Board :=
  if o.port = 0x4d0 then { b with elcr := (o.val, b.elcr.2) }
  else if o.port = 0x4d1 then { b with elcr := (b.elcr.1, o.val) }
  else { b with controllers := b.controllers.write o }

/-- `save_ELCR`: what is stored to `irq_trigger`, an array of `char`. -/
def saveELCR (b : Board) : BitVec 8 × BitVec 8 :=
  ((b.elcr.1.setWidth 32 &&& 0xF8).setWidth 8, (b.elcr.2.setWidth 32 &&& 0xDE).setWidth 8)

/-- `restore_ELCR`; a `char` is extended to an `int`, and a port takes the low byte of that. -/
def restoreELCR (trigger : BitVec 8 × BitVec 8) (b : Board) : Board :=
  (b.write ⟨(trigger.1.signExtend 32).setWidth 8, 0x4d0⟩).write ⟨(trigger.2.signExtend 32).setWidth 8, 0x4d1⟩

/-- The board and `irq_trigger`. -/
structure Power where
  board : Board
  irqTrigger : BitVec 8 × BitVec 8
deriving DecidableEq, Repr

/-- A suspend, a resume, or anything that happens to the board in between, such as a loss of power. -/
inductive PowerOp where
  | suspend
  | resume
  | lose (b : Board)
deriving DecidableEq, Repr

/-- `i8259A_suspend` and `i8259A_resume`, whose call of `init_8259A` is commented out. -/
def powerStep (s : Power) : PowerOp → Power
  | .suspend => { s with irqTrigger := saveELCR s.board }
  | .resume => { s with board := restoreELCR s.irqTrigger s.board }
  | .lose b => { s with board := b }

section Power

variable {s : Power}

/-- Without the reserved bits: lines 0, 1, 2, 8 and 13. -/
def unreserved (elcr : BitVec 8 × BitVec 8) : BitVec 8 × BitVec 8 := (elcr.1 &&& 0xF8, elcr.2 &&& 0xDE)

theorem saveELCR_eq (b : Board) : saveELCR b = unreserved b.elcr := by
  simp [saveELCR, unreserved, BitVec.setWidth_and]

theorem restoreELCR_eq (trigger : BitVec 8 × BitVec 8) (b : Board) :
    restoreELCR trigger b = ⟨b.controllers, trigger⟩ := by
  simp [restoreELCR, Board.write, setWidth_signExtend]

theorem unreserved_unreserved (elcr : BitVec 8 × BitVec 8) : unreserved (unreserved elcr) = unreserved elcr := by
  simp [unreserved, BitVec.and_assoc]

/-- Only a suspend stores to `irq_trigger`. -/
theorem irqTrigger_run (ops : List PowerOp) (h : .suspend ∉ ops) :
    (ops.foldl powerStep s).irqTrigger = s.irqTrigger := by
  induction ops generalizing s with
  | nil => rfl
  | cons op ops ih =>
    rw [List.foldl_cons, ih fun hmem => h (List.mem_cons_of_mem _ hmem)]
    cases op with
    | suspend => exact absurd List.mem_cons_self h
    | resume => rfl
    | lose b => rfl

/-- **Suspend and resume.** After whatever happened between the last suspend and a resume, the trigger registers hold
what they held at the suspend, without the reserved bits, and the controllers are as they were left. Further suspends
and resumes change nothing. -/
theorem resume_elcr (s : Power) (before between cycles : List PowerOp) (h : .suspend ∉ between)
    (hcycles : ∀ op ∈ cycles, op = .suspend ∨ op = .resume) :
    ((before ++ .suspend :: between ++ .resume :: cycles).foldl powerStep s).board =
      ⟨((before ++ .suspend :: between).foldl powerStep s).board.controllers,
        unreserved (before.foldl powerStep s).board.elcr⟩ := by
  rw [List.foldl_append (l := before ++ .suspend :: between), List.foldl_cons]
  have htrigger : ((before ++ .suspend :: between).foldl powerStep s).irqTrigger =
      unreserved (before.foldl powerStep s).board.elcr := by
    rw [List.foldl_append, List.foldl_cons, irqTrigger_run _ h]
    exact saveELCR_eq _
  generalize hmid : (before ++ .suspend :: between).foldl powerStep s = mid at htrigger
  generalize (before.foldl powerStep s).board.elcr = saved at htrigger
  have hresumed : powerStep mid .resume = ⟨⟨mid.board.controllers, unreserved saved⟩, unreserved saved⟩ := by
    rw [powerStep, restoreELCR_eq, htrigger]
  rw [hresumed]
  have hstay : ∀ op, op = .suspend ∨ op = .resume →
      powerStep ⟨⟨mid.board.controllers, unreserved saved⟩, unreserved saved⟩ op =
        ⟨⟨mid.board.controllers, unreserved saved⟩, unreserved saved⟩ := by
    rintro op (rfl | rfl)
    · rw [powerStep, saveELCR_eq, unreserved_unreserved]
    · rw [powerStep, restoreELCR_eq]
  clear hresumed
  induction cycles with
  | nil => rfl
  | cons op ops ih =>
    rw [List.foldl_cons, hstay op (hcycles op List.mem_cons_self)]
    exact ih fun op hop => hcycles op (List.mem_cons_of_mem _ hop)

/-- A loss of power that clears the registers, and a resume that is repeated. -/
theorem resume_elcr_lost :
    ([PowerOp.suspend, .lose ⟨⟨⟨.ready, 0, 0, 0, 0, 0⟩, ⟨.ready, 0, 0, 0, 0, 0⟩⟩, (0, 0)⟩, .resume, .suspend,
      .resume].foldl powerStep
      ⟨⟨⟨⟨.ready, 0x11, 0x20, 0x04, 0x01, 0xFB⟩, ⟨.ready, 0x11, 0x28, 0x02, 0x01, 0xFF⟩⟩, (0xFF, 0xFF)⟩,
        (0, 0)⟩).board =
        ⟨⟨⟨.ready, 0, 0, 0, 0, 0⟩, ⟨.ready, 0, 0, 0, 0, 0⟩⟩, (0xF8, 0xDE)⟩ :=
  resume_elcr _ [] [.lose _] [.suspend, .resume] (by simp) (by simp)

end Power

end Xen.Irq
