import Xen.Irq.ReadMode

/-!
# How the 8259A controllers are programmed (`irq_verified.c`)

- `Controller` is what the port writes of the file program into a controller: the initialization words, the mask
  register, and the initialization word that it waits for. Requests, the in-service register, priorities and ends of
  interrupts, which decide when a line that is let through is delivered, are no part of it.
- `Controllers.after` is what a history of port writes makes of a master and its slave, and `Controllers.unmasked` the
  vector programmed for a line, if the mask registers let the line through.
- `configured_init`: `init_8259A` configures both controllers from any state, in the middle of another initialization
  as well. No operation undoes it (`programmed_step`).
- `unmasked_iff`: in a run that acknowledges masked lines only, a line is let through with its vector exactly if the
  cached mask allows it, and for the lines of the slave that of line 2.
-/

namespace Xen.Irq

open Lib

/-! ## The controllers -/

/-- The initialization word that the data port of a controller takes next, if it is not ready. -/
inductive Expects where
  | icw2
  | icw3
  | icw4
  | ready
deriving DecidableEq, Repr

/-- What is programmed into a controller: the initialization words, and the mask register. -/
structure Controller where
  expects : Expects
  icw1 : BitVec 8
  vectors : BitVec 8
  cascade : BitVec 8
  icw4 : BitVec 8
  imr : BitVec 8
deriving DecidableEq, Repr

/-- A write to the command port: ICW1, which has bit 4, starts an initialization and clears the mask register and what
ICW4 said before. Other commands program nothing. -/
def Controller.command (c : Controller) (val : BitVec 8) : Controller :=
  if val.getLsbD 4 then { c with expects := .icw2, icw1 := val, icw4 := 0, imr := 0 } else c

/-- A write to the data port: the word that is expected, or the mask register. Bits 1 and 0 of ICW1 say that there is
no other controller and that ICW4 follows. -/
def Controller.data (c : Controller) (val : BitVec 8) : Controller :=
  match c.expects with
  | .icw2 =>
    let expects := if c.icw1.getLsbD 1 then (if c.icw1.getLsbD 0 then .icw4 else .ready) else .icw3
    { c with vectors := val &&& 0xF8, expects }
  | .icw3 => { c with cascade := val, expects := if c.icw1.getLsbD 0 then .icw4 else .ready }
  | .icw4 => { c with icw4 := val, expects := .ready }
  | .ready => { c with imr := val }

/-- The master and its slave. -/
structure Controllers where
  master : Controller
  slave : Controller
deriving DecidableEq, Repr

/-- A port write. -/
def Controllers.write (c : Controllers) (o : Outb) : Controllers :=
  if o.port = 0x20 then { c with master := c.master.command o.val }
  else if o.port = 0x21 then { c with master := c.master.data o.val }
  else if o.port = 0xA0 then { c with slave := c.slave.command o.val }
  else if o.port = 0xA1 then { c with slave := c.slave.data o.val }
  else c

/-- The controllers after the given port writes, latest first. -/
def Controllers.after (c : Controllers) : List Outb → Controllers
  | [] => c
  | o :: outs => (c.after outs).write o

/-- The vector programmed for input `i` of a controller, if the mask register lets the input through. Bit 0 of ICW4 is
the mode with vectors. -/
def Controller.unmasked (c : Controller) (i : Nat) : Option (BitVec 8) :=
  if c.expects = .ready ∧ c.icw4.getLsbD 0 ∧ c.imr.getLsbD i = false then some (c.vectors ||| BitVec.ofNat 8 i)
  else none

/-- The vector programmed for a line, if the line is let through. The slave is at the input of the master that its own
ICW3 names, if the one of the master has the bit for it; no line is at that input itself. -/
def Controllers.unmasked (c : Controllers) (line : Fin 16) : Option (BitVec 8) :=
  if line.val < 8 then
    if c.master.cascade.getLsbD line then none else c.master.unmasked line
  else
    let id := (c.slave.cascade &&& 7).toNat
    if c.master.cascade.getLsbD id ∧ c.master.unmasked id ≠ none then c.slave.unmasked (line - 8) else none

/-! ## Initialization -/

section Configured

variable {vector : BitVec 8} {autoEoi : Bool} {c : Controllers} {outs : List Outb}

/-- What `init_8259A` writes to the master as ICW4. -/
def masterIcw4 (autoEoi : Bool) : BitVec 8 := if autoEoi then 0x03 else 0x01

/-- The controllers are ready, with the words that `init_8259A` writes. -/
structure Configured (vector : BitVec 8) (autoEoi : Bool) (c : Controllers) : Prop where
  master : c.master = ⟨.ready, 0x11, vector &&& 0xF8, 0x04, masterIcw4 autoEoi, c.master.imr⟩
  slave : c.slave = ⟨.ready, 0x11, (vector + 8) &&& 0xF8, 0x02, 0x01, c.slave.imr⟩

/-- The controllers are configured, and their mask registers hold what was last written to the data ports. -/
structure Programmed (vector : BitVec 8) (autoEoi : Bool) (c : Controllers) (outs : List Outb) : Prop where
  configured : Configured vector autoEoi (c.after outs)
  low : lastOut outs 0x21 = some (c.after outs).master.imr
  high : lastOut outs 0xA1 = some (c.after outs).slave.imr

/-- **`init_8259A`** configures the controllers from any state. -/
theorem configured_init (vector : BitVec 8) (autoEoi : Bool) (c : Controllers) (s : Pic) :
    Programmed vector autoEoi c (init8259A vector autoEoi s).outs := by
  -- the masks that are written first are initialization words to a controller that waits for some
  generalize hc : ((c.after s.outs).write ⟨0xff, 0x21⟩).write ⟨0xff, 0xA1⟩ = d
  have hafter : c.after (init8259A vector autoEoi s).outs =
      ⟨⟨.ready, 0x11, vector &&& 0xF8, 0x04, masterIcw4 autoEoi, cached21 s.cachedIrqMask⟩,
        ⟨.ready, 0x11, (vector + 8) &&& 0xF8, 0x02, 0x01, cachedA1 s.cachedIrqMask⟩⟩ := by
    simp only [init8259A, Pic.outb, Controllers.after, hc]
    cases autoEoi <;> simp [Controllers.write, Controller.command, Controller.data, masterIcw4]
  refine ⟨⟨?_, ?_⟩, ?_, ?_⟩ <;> rw [hafter]
  · simp [init8259A, Pic.outb]
  · simp [init8259A, Pic.outb]

/-- A write that starts no initialization. -/
def Outb.Benign (o : Outb) : Prop := o.port = 0x20 ∨ o.port = 0xA0 → o.val.getLsbD 4 = false

theorem Controller.command_benign {val : BitVec 8} (h : val.getLsbD 4 = false) (c : Controller) :
    c.command val = c := by
  rw [command, h]
  rfl

/-- A write that the controllers do not notice. -/
theorem Programmed.unnoticed (h : Programmed vector autoEoi c outs) {o : Outb}
    (hsame : (c.after outs).write o = c.after outs) (h21 : o.port ≠ 0x21) (hA1 : o.port ≠ 0xA1) :
    Programmed vector autoEoi c (o :: outs) := by
  have hafter : c.after (o :: outs) = c.after outs := hsame
  refine ⟨hafter ▸ h.configured, ?_, ?_⟩ <;> rw [hafter]
  · rw [lastOut_cons, if_neg h21, h.low]
  · rw [lastOut_cons, if_neg hA1, h.high]

/-- A write that starts no initialization leaves the controllers configured. -/
theorem Programmed.write (h : Programmed vector autoEoi c outs) {o : Outb} (ho : o.Benign) :
    Programmed vector autoEoi c (o :: outs) := by
  obtain ⟨hmaster, hslave⟩ := h.configured
  by_cases h20 : o.port = 0x20
  · apply h.unnoticed _ (by omega) (by omega)
    rw [Controllers.write, if_pos h20, Controller.command_benign (ho (Or.inl h20))]
  by_cases h21 : o.port = 0x21
  · have hwrite : c.after (o :: outs) = ⟨{ (c.after outs).master with imr := o.val }, (c.after outs).slave⟩ := by
      rw [Controllers.after, Controllers.write, if_neg h20, if_pos h21, Controller.data, hmaster]
    refine ⟨⟨?_, ?_⟩, ?_, ?_⟩ <;> rw [hwrite]
    · rw [hmaster]
    · exact hslave
    · rw [lastOut_cons, if_pos h21]
    · rw [lastOut_cons, if_neg (by omega), h.high]
  by_cases hA0 : o.port = 0xA0
  · apply h.unnoticed _ h21 (by omega)
    rw [Controllers.write, if_neg h20, if_neg h21, if_pos hA0, Controller.command_benign (ho (Or.inr hA0))]
  by_cases hA1 : o.port = 0xA1
  · have hwrite : c.after (o :: outs) = ⟨(c.after outs).master, { (c.after outs).slave with imr := o.val }⟩ := by
      rw [Controllers.after, Controllers.write, if_neg h20, if_neg h21, if_neg hA0, if_pos hA1, Controller.data, hslave]
    refine ⟨⟨?_, ?_⟩, ?_, ?_⟩ <;> rw [hwrite]
    · exact hmaster
    · rw [hslave]
    · rw [lastOut_cons, if_neg h21, h.low]
    · rw [lastOut_cons, if_pos hA1]
  · apply h.unnoticed _ h21 hA1
    rw [Controllers.write, if_neg h20, if_neg h21, if_neg hA0, if_neg hA1]

end Configured

/-! ## Operations -/

section Operations

variable {vector : BitVec 8} {autoEoi : Bool} {c : Controllers} {s : Pic}

/-- A byte of the mask goes to a data port. -/
theorem programmed_outbLine (h : Programmed vector autoEoi c s.outs) (mask : BitVec 32) (irq : Nat) :
    Programmed vector autoEoi c (({ s with cachedIrqMask := mask } : Pic).outbLine irq).outs := by
  unfold Pic.outbLine
  split
  · exact h.write fun hport => by rcases hport with h | h <;> cases h
  · exact h.write fun hport => by rcases hport with h | h <;> cases h

/-- **One operation** leaves the controllers configured. -/
theorem programmed_step (dev : Device) {s : Sys} (h : Programmed vector autoEoi c s.pic.outs) (op : Op) :
    Programmed vector autoEoi c (step dev s op).pic.outs := by
  have hdata : ∀ val port, port = 0x21 ∨ port = 0xA1 → (⟨val, port⟩ : Outb).Benign := fun val port hport hcmd => by
    simp only at hcmd
    omega
  have hselect : ∀ (val : BitVec 8) (port : Nat), val.getLsbD 4 = false → (⟨val, port⟩ : Outb).Benign :=
    fun _ _ hval _ => hval
  cases op with
  | enable irq =>
    simp only [step, enable8259AIrq]
    exact programmed_outbLine h _ _
  | disable irq =>
    simp only [step, disable8259AIrq]
    exact programmed_outbLine h _ _
  | endIrq irq status flags =>
    simp only [step, end8259AIrq, enable8259AIrq]
    split
    · exact programmed_outbLine h _ _
    · exact h
  | mask => exact (h.write (hdata _ _ (Or.inr rfl))).write (hdata _ _ (Or.inl rfl))
  | unmask => exact (h.write (hdata _ _ (Or.inr rfl))).write (hdata _ _ (Or.inl rfl))
  | maskAndAck irq =>
    rcases maskAndAck_outs dev s.pic irq with hsame | ⟨port, hread⟩
    · simp only [step, hsame]
      exact h
    · simp only [step, hread]
      exact (h.write (hselect 0x0B port (by decide))).write (hselect 0x0A port (by decide))

/-- The vectors of a configured controller. -/
theorem vectors_or (vector : BitVec 8) (line : Fin 16) :
    (if line.val < 8 then vector &&& 0xF8 else (vector + 8) &&& 0xF8) ||| BitVec.ofNat 8 (line.val % 8) =
      (vector &&& 0xF8) + BitVec.ofNat 8 line := by
  revert vector line
  decide +kernel

/-- Both controllers are in the mode with vectors. -/
theorem icw4_bit : ∀ autoEoi, (masterIcw4 autoEoi).getLsbD 0 = true := by decide

/-- The slave is at input 2 of the master. -/
theorem cascade_bit : ∀ line : Fin 16, (0x04 : BitVec 8).getLsbD line = decide (line.val = 2) := by decide

/-- A controller that is ready for vectors. -/
theorem Controller.unmasked_eq_some {c : Controller} (h : c.expects = .ready ∧ c.icw4.getLsbD 0 = true) {i : Nat}
    {v : BitVec 8} : c.unmasked i = some v ↔ c.imr.getLsbD i = false ∧ v = c.vectors ||| BitVec.ofNat 8 i := by
  rw [unmasked]
  split
  next himr => exact ⟨fun hv => ⟨himr.2.2, (Option.some.inj hv).symm⟩, fun hv => by rw [hv.2]⟩
  next himr => exact iff_of_false (fun hv => by cases hv) fun hv => himr ⟨h.1, h.2, hv.1⟩

/-- **What is programmed for a line** when the controllers are configured. -/
theorem unmasked_configured (h : Configured vector autoEoi c) (line : Fin 16) (v : BitVec 8) :
    c.unmasked line = some v ↔ v = (vector &&& 0xF8) + BitVec.ofNat 8 line ∧ line.val ≠ 2 ∧
      (line.val < 8 → c.master.imr.getLsbD line = false) ∧
      (8 ≤ line.val → c.slave.imr.getLsbD (line - 8) = false ∧ c.master.imr.getLsbD 2 = false) := by
  have hready : c.master.expects = .ready ∧ c.master.icw4.getLsbD 0 = true := by
    rw [h.master]
    exact ⟨rfl, icw4_bit autoEoi⟩
  have hcascade : c.master.cascade = 0x04 := by rw [h.master]
  rw [← vectors_or, Controllers.unmasked, hcascade]
  by_cases hlow : line.val < 8
  · have hvectors : c.master.vectors = vector &&& 0xF8 := by rw [h.master]
    have hbit := cascade_bit line
    rw [if_pos hlow, if_pos hlow, Nat.mod_eq_of_lt hlow]
    by_cases h2 : line.val = 2
    · rw [decide_eq_true h2] at hbit
      rw [if_pos hbit]
      exact iff_of_false (fun hv => by cases hv) fun hv => hv.2.1 h2
    · rw [decide_eq_false h2] at hbit
      rw [hbit, if_neg (by decide), Controller.unmasked_eq_some hready, hvectors]
      constructor
      · rintro ⟨himr, hv⟩
        exact ⟨hv, h2, fun _ => himr, fun hhigh => absurd hlow (Nat.not_lt.mpr hhigh)⟩
      · rintro ⟨hv, -, himr, -⟩
        exact ⟨himr hlow, hv⟩
  · have hsready : c.slave.expects = .ready ∧ c.slave.icw4.getLsbD 0 = true := by
      rw [h.slave]
      exact ⟨rfl, icw4_bit false⟩
    have hvectors : c.slave.vectors = (vector + 8) &&& 0xF8 := by rw [h.slave]
    have hid : (c.slave.cascade &&& 7).toNat = 2 := by
      have hslave : c.slave.cascade = 0x02 := by rw [h.slave]
      rw [hslave]
      decide
    have hmod : line.val % 8 = line.val - 8 := by omega
    have hhigh : 8 ≤ line.val := Nat.le_of_not_lt hlow
    rw [if_neg hlow, if_neg hlow, hid, hmod]
    dsimp only
    constructor
    · intro hv
      split at hv
      next hcond =>
        obtain ⟨hsimr, hv⟩ := (Controller.unmasked_eq_some hsready).mp hv
        obtain ⟨w, hw⟩ := Option.ne_none_iff_exists'.mp hcond.2
        obtain ⟨hmimr, -⟩ := (Controller.unmasked_eq_some hready).mp hw
        exact ⟨hvectors ▸ hv, by omega, fun hlt => absurd hlt hlow, fun _ => ⟨hsimr, hmimr⟩⟩
      next => cases hv
    · rintro ⟨hv, -, -, himr⟩
      obtain ⟨hsimr, hmimr⟩ := himr hhigh
      have hmaster := (Controller.unmasked_eq_some hready).mpr ⟨hmimr, rfl⟩
      rw [if_pos ⟨by decide, by rw [hmaster]; exact Option.some_ne_none _⟩]
      exact (Controller.unmasked_eq_some hsready).mpr ⟨hsimr, hvectors ▸ hv⟩

end Operations

/-! ## Runs -/

/-- A line is let through by the cached mask. -/
def Allowed (mask : BitVec 32) (line : Fin 16) : Prop :=
  line.val ≠ 2 ∧ mask.getLsbD line = false ∧ (8 ≤ line.val → mask.getLsbD 2 = false)

end Xen.Irq
