import Mathlib.Data.Fintype.Basic
import Mathlib.Data.List.Count
import Mathlib.Logic.Function.Basic
import Xen.Lib.Bits
import Xen.Lib.Runs

/-!
# Clearing the local APIC (`apic_verified.c`)

- `clearLocalApic` is `clear_local_APIC` on the registers, with its writes logged.
- A `Lapic` takes writes and signals of its sources (`LapicEvent`). It delivers a signal whose entry of the local vector
  table is there and not masked; a write of an entry with vector 0 makes it signal an error.
- The function knows five entries. APICs have got more since: one for the thermal sensor, one for corrected machine
  checks.
- `clearLocalApic_quiet`: however signals come between the writes, no write of the function makes the APIC deliver an
  error, the entries it knows are masked afterwards and everything else is as before, and of what is signalled from
  there on only the other two entries deliver anything, if they are there and were not masked.

The numbers of the registers, `ERROR_APIC_VECTOR`, `APIC_LVT_MASKED` and `GET_APIC_MAXLVT` are parameters.
-/

namespace Xen.Apic

open Lib

/-! ## Data model -/

/-- The entries of the local vector table. -/
inductive Lvt where
  | timer | lint0 | lint1 | error | perf | thermal | cmci
deriving DecidableEq, Repr

instance : Fintype Lvt :=
  ⟨{.timer, .lint0, .lint1, .error, .perf, .thermal, .cmci}, by rintro (_ | _) <;> decide⟩

/-- `APIC_TMICT`, `APIC_LVR`, the registers of the entries (`APIC_LVTT`, `APIC_LVT0`, `APIC_LVT1`, `APIC_LVTERR` and
`APIC_LVTPC`, and those of the two that the file does not name), and the other parameters. -/
structure Params where
  tmict : BitVec 32
  lvr : BitVec 32
  lvt : Lvt → BitVec 32
  errorApicVector : BitVec 32
  lvtMasked : BitVec 32
  getApicMaxlvt : BitVec 32 → Int

/-- The registers. -/
abbrev Regs := BitVec 32 → BitVec 32

/-- The registers and the writes to them so far. -/
structure Access where
  reg : Regs
  writes : List (BitVec 32 × BitVec 32)

/-! ## The function -/

/-- `apic_read`, an `unsigned long`. -/
def Access.read (p : Access) (a : BitVec 32) : BitVec 64 := (p.reg a).setWidth 64

/-- `apic_write`, which takes an `unsigned int`. -/
def Access.write (p : Access) (a : BitVec 32) (v : BitVec 64) : Access :=
  ⟨Function.update p.reg a (v.setWidth 32), p.writes ++ [(a, v.setWidth 32)]⟩

variable (c : Params)

/-- `get_maxlvt`. -/
def getMaxlvt (p : Access) : Int := c.getApicMaxlvt ((p.read c.lvr).setWidth 32)

/-- `v = apic_read(a); apic_write(a, v | APIC_LVT_MASKED)`. -/
def maskEntry (p : Access) (e : Lvt) : Access :=
  let v := p.read (c.lvt e)
  p.write (c.lvt e) (v ||| c.lvtMasked.setWidth 64)

/-- `clear_local_APIC`. -/
def clearLocalApic (reg : Regs) : Access :=
  let p : Access := ⟨reg, []⟩
  let maxlvt := getMaxlvt c p
  let p := p.write c.tmict 0
  -- mask the error entry first: a masking write can trigger an error
  let p := if 3 ≤ maxlvt then
      let v := c.errorApicVector.setWidth 64
      p.write (c.lvt .error) (v ||| c.lvtMasked.setWidth 64)
    else p
  let p := maskEntry c p .timer
  let p := maskEntry c p .lint0
  let p := maskEntry c p .lint1
  if 4 ≤ maxlvt then maskEntry c p .perf else p

/-! ## The controller -/

/-- The registers, and the entries that have been delivered, latest first. -/
structure Lapic where
  reg : Regs
  delivered : List Lvt

/-- A write to a register, or a signal of a source. -/
inductive LapicEvent where
  | write (a v : BitVec 32)
  | signal (e : Lvt)

/-- The entries that there are, by the number of the last one. -/
def present (maxlvt : Int) : Lvt → Bool
  | .timer | .lint0 | .lint1 => true
  | .error => 3 ≤ maxlvt
  | .perf => 4 ≤ maxlvt
  | .thermal => 5 ≤ maxlvt
  | .cmci => 6 ≤ maxlvt

/-- The entries that `clear_local_APIC` knows. -/
def Lvt.known : Lvt → Bool
  | .thermal | .cmci => false
  | _ => true

/-- An entry delivers what its source signals. -/
def delivers (maxlvt : Int) (reg : Regs) (e : Lvt) : Bool :=
  present maxlvt e && reg (c.lvt e) &&& c.lvtMasked = 0#32

/-- A source signals. -/
def Lapic.signal (maxlvt : Int) (l : Lapic) (e : Lvt) : Lapic :=
  if delivers c maxlvt l.reg e then { l with delivered := e :: l.delivered } else l

/-- A write of an entry with vector 0. -/
def illegal (a v : BitVec 32) : Prop := (∃ e, a = c.lvt e) ∧ v &&& 255#32 = 0#32

instance (a v : BitVec 32) : Decidable (illegal c a v) := inferInstanceAs (Decidable (_ ∧ _))

/-- One event; the sources of the other entries than that for errors are outside. -/
def lapicStep (maxlvt : Int) (l : Lapic) : LapicEvent → Lapic
  | .signal e => l.signal c maxlvt e
  | .write a v =>
    let l' : Lapic := { l with reg := Function.update l.reg a v }
    if illegal c a v then l'.signal c maxlvt .error else l'

/-- What is written. -/
def LapicEvent.written : LapicEvent → Option (BitVec 32 × BitVec 32)
  | .write a v => some (a, v)
  | .signal _ => none

theorem written_write (a v : BitVec 32) : (LapicEvent.write a v).written = some (a, v) := rfl

/-- The registers are different ones, and the mask is at least a bit. -/
structure Params.Ok : Prop where
  lvt : Function.Injective c.lvt
  tmict : ∀ e, c.lvt e ≠ c.tmict
  masked : c.lvtMasked ≠ 0#32

/-- **The registers afterwards.** The timer is stopped, every known entry that is there is masked, and nothing else
changes. -/
structure Cleared (maxlvt : Int) (reg reg' : Regs) : Prop where
  tmict : reg' c.tmict = 0#32
  error : present maxlvt .error → reg' (c.lvt .error) = c.errorApicVector ||| c.lvtMasked
  entry : ∀ e, e ≠ .error → e.known → present maxlvt e → reg' (c.lvt e) = reg (c.lvt e) ||| c.lvtMasked
  others : ∀ a, a ≠ c.tmict → (∀ e : Lvt, e.known → present maxlvt e → a ≠ c.lvt e) → reg' a = reg a

/-! ## What the function writes -/

variable {c} {maxlvt : Int}

/-- `v | APIC_LVT_MASKED`, cut to a register. -/
theorem setWidth_or (x y : BitVec 32) : (x.setWidth 64 ||| y.setWidth 64).setWidth 32 = x ||| y := by
  ext i hi
  simp

/-- The write of an entry. -/
theorem maskEntry_eq (p : Access) (e : Lvt) :
    maskEntry c p e = ⟨Function.update p.reg (c.lvt e) (p.reg (c.lvt e) ||| c.lvtMasked),
      p.writes ++ [(c.lvt e, p.reg (c.lvt e) ||| c.lvtMasked)]⟩ := by
  rw [maskEntry, Access.read, Access.write, setWidth_or]

/-- Registers after some writes. -/
def afterWrites (reg : Regs) (ws : List (BitVec 32 × BitVec 32)) : Regs :=
  ws.foldl (fun reg w => Function.update reg w.1 w.2) reg

/-- The entries that the function masks by reading them first. -/
def readEntries (maxlvt : Int) : List Lvt :=
  [.timer, .lint0, .lint1] ++ if 4 ≤ maxlvt then [.perf] else []

/-- **The writes**: the timer's count, the error entry, and then the others. -/
theorem clearLocalApic_writes (hc : c.Ok) (reg : Regs) :
    (clearLocalApic c reg).writes = (c.tmict, 0#32) ::
      ((if 3 ≤ getMaxlvt c ⟨reg, []⟩ then [(c.lvt .error, c.errorApicVector ||| c.lvtMasked)] else []) ++
        (readEntries (getMaxlvt c ⟨reg, []⟩)).map fun e => (c.lvt e, reg (c.lvt e) ||| c.lvtMasked)) := by
  have hne : ∀ {e e' : Lvt}, e ≠ e' → c.lvt e ≠ c.lvt e' := fun h heq => h (hc.lvt heq)
  have hmasked : (c.errorApicVector.setWidth 64 ||| c.lvtMasked.setWidth 64).setWidth 32 =
      c.errorApicVector ||| c.lvtMasked := setWidth_or _ _
  -- every entry is read before it is written
  by_cases h3 : 3 ≤ getMaxlvt c ⟨reg, []⟩ <;> by_cases h4 : 4 ≤ getMaxlvt c ⟨reg, []⟩ <;>
    simp [clearLocalApic, readEntries, maskEntry_eq, Access.write, h3, h4, hmasked, hc.tmict, hne]

/-- The registers as the function leaves them. -/
theorem clearLocalApic_reg (reg : Regs) :
    (clearLocalApic c reg).reg = afterWrites reg (clearLocalApic c reg).writes := by
  by_cases h3 : 3 ≤ getMaxlvt c ⟨reg, []⟩ <;> by_cases h4 : 4 ≤ getMaxlvt c ⟨reg, []⟩ <;>
    simp [clearLocalApic, afterWrites, maskEntry_eq, Access.write, h3, h4]

/-- Writes of masked entries leave each of them masked, and the other registers. -/
theorem afterWrites_entries (hc : c.Ok) (f : Lvt → BitVec 32) (es : List Lvt) (reg : Regs) :
    (∀ e ∈ es, afterWrites reg (es.map fun e => (c.lvt e, f e)) (c.lvt e) = f e) ∧
      ∀ a, (∀ e ∈ es, a ≠ c.lvt e) → afterWrites reg (es.map fun e => (c.lvt e, f e)) a = reg a := by
  induction es generalizing reg with
  | nil => exact ⟨by simp, fun a _ => rfl⟩
  | cons e es ih =>
    obtain ⟨hmem, hother⟩ := ih (Function.update reg (c.lvt e) (f e))
    constructor
    · intro e' he'
      by_cases h : e' ∈ es
      · exact hmem e' h
      · obtain rfl := (List.mem_cons.mp he').resolve_right h
        refine (hother _ ?_).trans (Function.update_self _ _ _)
        intro e'' he'' heq
        exact h (hc.lvt heq ▸ he'')
    · intro a ha
      obtain ⟨hae, hall⟩ := List.forall_mem_cons.mp ha
      exact (hother a hall).trans (Function.update_of_ne hae _ _)

theorem mem_readEntries (e : Lvt) :
    e ∈ readEntries maxlvt ↔ e ≠ .error ∧ e.known = true ∧ present maxlvt e = true := by
  by_cases h4 : 4 ≤ maxlvt <;> cases e <;> simp [readEntries, present, Lvt.known, h4]

/-- **The registers** after the writes. -/
theorem clearLocalApic_cleared (hc : c.Ok) (reg : Regs) :
    Cleared c (getMaxlvt c ⟨reg, []⟩) reg (clearLocalApic c reg).reg := by
  rw [clearLocalApic_reg, clearLocalApic_writes hc]
  generalize getMaxlvt c ⟨reg, []⟩ = maxlvt
  rw [afterWrites, List.foldl_cons, List.foldl_append, ← afterWrites, ← afterWrites]
  obtain ⟨hmem, hother⟩ := afterWrites_entries hc (fun e => reg (c.lvt e) ||| c.lvtMasked) (readEntries maxlvt)
    (afterWrites (Function.update reg c.tmict 0#32)
      (if 3 ≤ maxlvt then [(c.lvt .error, c.errorApicVector ||| c.lvtMasked)] else []))
  have herror : ∀ e ∈ readEntries maxlvt, c.lvt .error ≠ c.lvt e := by
    intro e he heq
    exact ((mem_readEntries e).mp he).1 (hc.lvt heq).symm
  constructor
  · rw [hother _ fun e _ => (hc.tmict e).symm]
    split <;> simp [afterWrites, (hc.tmict .error).symm]
  · intro h
    rw [hother _ herror, if_pos (by simpa [present] using h)]
    simp [afterWrites]
  · intro e he hk hp
    exact hmem e ((mem_readEntries e).mpr ⟨he, hk, hp⟩)
  · intro a ht ha
    have hread : ∀ e ∈ readEntries maxlvt, a ≠ c.lvt e := by
      intro e he
      obtain ⟨-, hk, hp⟩ := (mem_readEntries e).mp he
      exact ha e hk hp
    rw [hother a hread]
    split
    · next h3 => simp [afterWrites, ht, ha .error rfl (by simpa [present] using h3)]
    · simp [afterWrites, ht]

/-! ## Signals between the writes -/

/-- A write that signals no error, or after which the error entry does not deliver one. -/
def QuietWrite (c : Params) (maxlvt : Int) (reg : Regs) (w : BitVec 32 × BitVec 32) : Prop :=
  illegal c w.1 w.2 → delivers c maxlvt (Function.update reg w.1 w.2) .error = false

/-- Signals leave the registers. -/
theorem signal_reg (l : Lapic) (e : Lvt) : (l.signal c maxlvt e).reg = l.reg := by
  rw [Lapic.signal]
  split <;> rfl

/-- Whatever is signalled, the registers are those of the writes. -/
theorem foldl_reg (l : Lapic) (es : List LapicEvent) :
    (es.foldl (lapicStep c maxlvt) l).reg = afterWrites l.reg (es.filterMap LapicEvent.written) := by
  induction es generalizing l with
  | nil => rfl
  | cons e es ih =>
    rw [List.foldl_cons, ih]
    cases e with
    | signal e =>
      rw [List.filterMap_cons_none rfl, lapicStep, signal_reg]
    | write a v =>
      have hreg : (lapicStep c maxlvt l (.write a v)).reg = Function.update l.reg a v := by
        rw [lapicStep]
        split
        · exact signal_reg _ _
        · rfl
      rw [List.filterMap_cons_some (written_write a v), hreg]
      rfl

/-- **Quiet writes** make the APIC deliver no error, however signals of the other sources come between them. -/
theorem count_error (l : Lapic) (es : List LapicEvent) (hes : .signal .error ∉ es)
    (hquiet : Along (QuietWrite c maxlvt) (fun reg w => Function.update reg w.1 w.2) l.reg
      (es.filterMap LapicEvent.written)) :
    (es.foldl (lapicStep c maxlvt) l).delivered.count .error = l.delivered.count .error := by
  induction es generalizing l with
  | nil => rfl
  | cons e es ih =>
    rw [List.mem_cons, not_or] at hes
    rw [List.foldl_cons]
    cases e with
    | signal e =>
      have hne : e ≠ .error := by
        rintro rfl
        exact hes.1 rfl
      rw [List.filterMap_cons_none rfl] at hquiet
      rw [lapicStep, ih _ hes.2 (by rw [signal_reg]; exact hquiet), Lapic.signal]
      split
      · exact List.count_cons_of_ne hne
      · rfl
    | write a v =>
      rw [List.filterMap_cons_some (written_write a v)] at hquiet
      have hstep : lapicStep c maxlvt l (.write a v) = ⟨Function.update l.reg a v, l.delivered⟩ := by
        rw [lapicStep]
        split
        · next h =>
          rw [Lapic.signal, if_neg]
          rw [hquiet.1 h]
          exact Bool.false_ne_true
        · rfl
      rw [hstep]
      exact ih _ hes.2 hquiet.2

/-- A masked entry delivers nothing. -/
theorem or_masked_ne_zero (hc : c.Ok) (x : BitVec 32) : (x ||| c.lvtMasked) &&& c.lvtMasked ≠ 0#32 := by
  have hor : (x ||| c.lvtMasked) &&& c.lvtMasked = c.lvtMasked := by
    ext i hi
    rw [BitVec.getElem_and, BitVec.getElem_or]
    cases x[i] <;> simp
  rw [hor]
  exact hc.masked

/-- Masking writes after that of the error entry are quiet. -/
theorem quiet_of_masked (hc : c.Ok) (f : Lvt → BitVec 32) (es : List Lvt) (hes : ∀ e ∈ es, e ≠ .error) (reg : Regs)
    (hreg : delivers c maxlvt reg .error = false) :
    Along (QuietWrite c maxlvt) (fun reg w => Function.update reg w.1 w.2) reg
      (es.map fun e => (c.lvt e, f e)) := by
  induction es generalizing reg with
  | nil => trivial
  | cons e es ih =>
    obtain ⟨he, hall⟩ := List.forall_mem_cons.mp hes
    have hsame : delivers c maxlvt (Function.update reg (c.lvt e) (f e)) .error = false := by
      rw [delivers, Function.update_of_ne (fun heq => he (hc.lvt heq).symm)]
      exact hreg
    exact ⟨fun _ => hsame, ih hall _ hsame⟩

/-- **The writes of the function** are quiet. -/
theorem clearLocalApic_quietWrites (hc : c.Ok) (reg : Regs) :
    Along (QuietWrite c (getMaxlvt c ⟨reg, []⟩)) (fun reg w => Function.update reg w.1 w.2) reg
      (clearLocalApic c reg).writes := by
  have hread : ∀ e ∈ readEntries (getMaxlvt c ⟨reg, []⟩), e ≠ .error := fun e he => ((mem_readEntries e).mp he).1
  have htimer : ∀ v, ¬illegal c c.tmict v := by
    rintro v ⟨⟨e, he⟩, -⟩
    exact hc.tmict e he.symm
  rw [clearLocalApic_writes hc]
  refine ⟨fun h => absurd h (htimer _), ?_⟩
  by_cases h3 : 3 ≤ getMaxlvt c ⟨reg, []⟩
  · rw [if_pos h3, List.singleton_append]
    have hmasked : delivers c (getMaxlvt c ⟨reg, []⟩) (Function.update (Function.update reg c.tmict 0#32) (c.lvt .error)
        (c.errorApicVector ||| c.lvtMasked)) .error = false := by
      rw [delivers, Function.update_self, decide_eq_false (or_masked_ne_zero hc _), Bool.and_false]
    exact ⟨fun _ => hmasked, quiet_of_masked hc _ _ hread _ hmasked⟩
  · rw [if_neg h3, List.nil_append]
    apply quiet_of_masked hc _ _ hread
    simp [delivers, present, h3]

/-- What is signalled while nothing is written: the entries that deliver it do so. -/
theorem foldl_signal (l : Lapic) (signals : List Lvt) : (signals.foldl (Lapic.signal c maxlvt) l).delivered =
    (signals.filter (delivers c maxlvt l.reg)).reverse ++ l.delivered := by
  induction signals generalizing l with
  | nil => rfl
  | cons e signals ih =>
    rw [List.foldl_cons, ih, signal_reg, Lapic.signal]
    by_cases h : delivers c maxlvt l.reg e = true
    · rw [List.filter_cons_of_pos h, if_pos h, List.reverse_cons, List.append_assoc]
      rfl
    · rw [List.filter_cons_of_neg h, if_neg h]

/-- **What still delivers** once the registers are cleared: the entries that the function does not know, as before. -/
theorem Cleared.delivers_eq (hc : c.Ok) {reg reg' : Regs} (h : Cleared c maxlvt reg reg') (e : Lvt) :
    delivers c maxlvt reg' e = (!e.known && delivers c maxlvt reg e) := by
  cases hk : e.known with
  | false =>
    have hsame : reg' (c.lvt e) = reg (c.lvt e) := by
      apply h.others _ (hc.tmict e)
      intro e' hk' _ heq
      rw [← hc.lvt heq, hk] at hk'
      cases hk'
    rw [delivers, hsame, Bool.not_false, Bool.true_and]
    rfl
  | true =>
    rw [Bool.not_true, Bool.false_and]
    cases hp : present maxlvt e with
    | false => rw [delivers, hp, Bool.false_and]
    | true =>
      by_cases he : e = .error
      · subst he
        rw [delivers, h.error hp, decide_eq_false (or_masked_ne_zero hc _), Bool.and_false]
      · rw [delivers, h.entry e he hk hp, decide_eq_false (or_masked_ne_zero hc _), Bool.and_false]

/-- **Clearing the local APIC.** Let the writes of `clear_local_APIC` come in their order, with signals of the sources
anywhere between them. The writes make the APIC deliver no error; afterwards the registers are cleared, and of what is
signalled from there on exactly the signals of entries that the function does not know are delivered, as they would
have been before it. -/
theorem clearLocalApic_quiet (hc : c.Ok) (l : Lapic) (es : List LapicEvent) (hes : .signal .error ∉ es)
    (hwrites : es.filterMap LapicEvent.written = (clearLocalApic c l.reg).writes) :
    let maxlvt := getMaxlvt c ⟨l.reg, []⟩
    let l' := es.foldl (lapicStep c maxlvt) l
    l'.delivered.count .error = l.delivered.count .error ∧ Cleared c maxlvt l.reg l'.reg ∧
      ∀ signals : List Lvt, (signals.foldl (Lapic.signal c maxlvt) l').delivered =
        (signals.filter fun e => !e.known && delivers c maxlvt l.reg e).reverse ++ l'.delivered := by
  intro maxlvt l'
  have hcleared : Cleared c maxlvt l.reg l'.reg := by
    rw [foldl_reg, hwrites, ← clearLocalApic_reg]
    exact clearLocalApic_cleared hc l.reg
  refine ⟨?_, hcleared, fun signals => ?_⟩
  · apply count_error l es hes
    rw [hwrites]
    exact clearLocalApic_quietWrites hc l.reg
  · rw [foldl_signal, List.filter_congr fun e _ => hcleared.delivers_eq hc e]

/-! ### An APIC with a thermal sensor -/

def someLvt : Lvt → BitVec 32
  | .timer => 0x320#32
  | .lint0 => 0x350#32
  | .lint1 => 0x360#32
  | .error => 0x370#32
  | .perf => 0x340#32
  | .thermal => 0x330#32
  | .cmci => 0x2f0#32

def someParams : Params :=
  ⟨0x380#32, 0x30#32, someLvt, 0xfe#32, 0x10000#32, fun v => ((v >>> 16) &&& 255#32).toNat⟩

/-- An APIC with six entries, each of them with vector 0 and not masked. -/
def sixEntries : Lapic := ⟨fun a => if a = 0x30#32 then 0x50014#32 else 0#32, []⟩

/-- The writes, and some signals between them. -/
def clearing : List LapicEvent :=
  [.signal .timer, .write 0x380#32 0#32, .write 0x370#32 0x100fe#32, .signal .lint0, .write 0x320#32 0x10000#32,
    .signal .thermal, .write 0x350#32 0x10000#32, .write 0x360#32 0x10000#32, .signal .perf,
    .write 0x340#32 0x10000#32]

theorem clearLocalApic_quiet_thermal :
    let maxlvt := getMaxlvt someParams ⟨sixEntries.reg, []⟩
    let l' := clearing.foldl (lapicStep someParams maxlvt) sixEntries
    l'.delivered.count .error = sixEntries.delivered.count .error ∧ Cleared someParams maxlvt sixEntries.reg l'.reg ∧
      ∀ signals : List Lvt, (signals.foldl (Lapic.signal someParams maxlvt) l').delivered =
        (signals.filter fun e => !e.known && delivers someParams maxlvt sixEntries.reg e).reverse ++ l'.delivered :=
  clearLocalApic_quiet ⟨by decide, by decide, by decide⟩ sixEntries clearing (by simp [clearing])
    (by decide +kernel)

end Xen.Apic
