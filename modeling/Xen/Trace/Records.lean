import Mathlib.Data.List.Nodup
import Xen.Lib.Bits
import Xen.Lib.Packed

/-!
# Trace records (`trace_verified.c`)

- `tracePvTrap`, `tracePvPageFault`, `traceTrapOneAddr`, `traceTrapTwoAddr` and `tracePtwrEmulation` pack a structure
  and pass it to `__trace_var` with an event (`TraceVar`). A 64-bit vCPU has `TRC_64_FLAG` in the event and
  `unsigned long` addresses in the structure, a 32-bit one `unsigned` ones.
- `decode` reads a record: the flag says of which kind the vCPU was, the rest of the event which function, and where the
  caller chose the event, the size says which of the two.
- `trace_roundtrip`: every record is read as what was traced, as far as the structure holds it (`Traced.seen`): the
  addresses of a 32-bit vCPU are cut to 32 bits, but for the `eip` of a PV trap, and `use_error_code` is one bit.

The event numbers and the flag are parameters, and so are `current` and `eip`, which are not set.
-/

namespace Xen.Trace

open Lib

/-! ## Data model -/

/-- What `__trace_var` gets; the size is the length of `extra`. -/
structure TraceVar where
  event : BitVec 32
  cycles : Bool
  extra : List UInt8
deriving DecidableEq, Repr

/-- `TRC_PV_TRAP` and the others, and `TRC_64_FLAG`, which is an `unsigned long`. -/
structure Events where
  trcPvTrap : BitVec 32
  trcPvPageFault : BitVec 32
  trcPvPtwrEmulation : BitVec 32
  trcPvPtwrEmulationPae : BitVec 32
  trc64Flag : BitVec 64
deriving DecidableEq, Repr

variable (c : Events)

/-- `event |= TRC_64_FLAG`. -/
def set64Flag (event : BitVec 32) : BitVec 32 := (event.setWidth 64 ||| c.trc64Flag).setWidth 32

/-! ## The functions

`pv32` is what `is_pv_32bit_vcpu(current)` returns. -/

/-- `__trace_pv_trap`; `eip` is an `unsigned long` in both structures. -/
def tracePvTrap (pv32 : Bool) (trapnr : BitVec 16) (eip : BitVec 64) (useErrorCode : BitVec 32)
    (errorCode : BitVec 16) : TraceVar :=
  let use := if useErrorCode = 0#32 then 0 else 1
  if pv32 then
    let d := packed [(64, eip.toNat), (16, trapnr.toNat), (1, use), (16, errorCode.toNat)]
    ⟨c.trcPvTrap, true, d⟩
  else
    let d := packed [(64, eip.toNat), (16, trapnr.toNat), (1, use), (16, errorCode.toNat)]
    ⟨set64Flag c c.trcPvTrap, true, d⟩

/-- `__trace_pv_page_fault`. -/
def tracePvPageFault (pv32 : Bool) (eip addr : BitVec 64) (errorCode : BitVec 32) : TraceVar :=
  if pv32 then
    let d := packed [(32, eip.toNat), (32, addr.toNat), (32, errorCode.toNat)]
    ⟨c.trcPvPageFault, true, d⟩
  else
    let d := packed [(64, eip.toNat), (64, addr.toNat), (32, errorCode.toNat)]
    ⟨set64Flag c c.trcPvPageFault, true, d⟩

/-- `__trace_trap_one_addr`. -/
def traceTrapOneAddr (pv32 : Bool) (event : BitVec 32) (va : BitVec 64) : TraceVar :=
  if pv32 then ⟨event, true, packed [(32, va.toNat)]⟩
  else ⟨set64Flag c event, true, packed [(64, va.toNat)]⟩

/-- `__trace_trap_two_addr`. -/
def traceTrapTwoAddr (pv32 : Bool) (event : BitVec 32) (va1 va2 : BitVec 64) : TraceVar :=
  if pv32 then ⟨event, true, packed [(32, va1.toNat), (32, va2.toNat)]⟩
  else ⟨set64Flag c event, true, packed [(64, va1.toNat), (64, va2.toNat)]⟩

/-- `__trace_ptwr_emulation`. The structure of a 64-bit vCPU is not `__packed`, and has no gaps all the same. -/
def tracePtwrEmulation (pv32 : Bool) (addr npte eip : BitVec 64) : TraceVar :=
  if pv32 then
    let d := packed [(64, npte.toNat), (32, addr.toNat), (32, eip.toNat)]
    ⟨c.trcPvPtwrEmulationPae, true, d⟩
  else
    let d := packed [(64, npte.toNat), (64, addr.toNat), (64, eip.toNat)]
    ⟨set64Flag c c.trcPvPtwrEmulation, true, d⟩

/-! ## What is traced -/

/-- A call of one of the functions. -/
inductive Traced where
  | pvTrap (trapnr : BitVec 16) (eip : BitVec 64) (useErrorCode : BitVec 32) (errorCode : BitVec 16)
  | pvPageFault (eip addr : BitVec 64) (errorCode : BitVec 32)
  | trapOneAddr (event : BitVec 32) (va : BitVec 64)
  | trapTwoAddr (event : BitVec 32) (va1 va2 : BitVec 64)
  | ptwrEmulation (addr npte eip : BitVec 64)
deriving DecidableEq, Repr

/-- The record of a call. -/
def trace (pv32 : Bool) : Traced → TraceVar
  | .pvTrap trapnr eip useErrorCode errorCode => tracePvTrap c pv32 trapnr eip useErrorCode errorCode
  | .pvPageFault eip addr errorCode => tracePvPageFault c pv32 eip addr errorCode
  | .trapOneAddr event va => traceTrapOneAddr c pv32 event va
  | .trapTwoAddr event va1 va2 => traceTrapTwoAddr c pv32 event va1 va2
  | .ptwrEmulation addr npte eip => tracePtwrEmulation c pv32 addr npte eip

/-- The bits of an address. -/
def addrBits (pv32 : Bool) : Nat := if pv32 then 32 else 64

/-- An address as it is traced. -/
def addrSeen (pv32 : Bool) (addr : BitVec 64) : BitVec 64 := BitVec.ofNat 64 (addr.toNat % 2 ^ addrBits pv32)

/-- What a reader can know of the call. -/
def Traced.seen (pv32 : Bool) : Traced → Traced
  | .pvTrap trapnr eip useErrorCode errorCode =>
    .pvTrap trapnr eip (if useErrorCode = 0#32 then 0#32 else 1#32) errorCode
  | .pvPageFault eip addr errorCode => .pvPageFault (addrSeen pv32 eip) (addrSeen pv32 addr) errorCode
  | .trapOneAddr event va => .trapOneAddr event (addrSeen pv32 va)
  | .trapTwoAddr event va1 va2 => .trapTwoAddr event (addrSeen pv32 va1) (addrSeen pv32 va2)
  | .ptwrEmulation addr npte eip => .ptwrEmulation (addrSeen pv32 addr) npte (addrSeen pv32 eip)

/-! ## Reading records -/

/-- The flag as far as the event has it. -/
def Events.flag : BitVec 32 := c.trc64Flag.setWidth 32

/-- The events of `__trace_pv_trap`, `__trace_pv_page_fault` and `__trace_ptwr_emulation`. -/
def Events.own : List (BitVec 32) :=
  [c.trcPvTrap, c.trcPvPageFault, c.trcPvPtwrEmulation, c.trcPvPtwrEmulationPae]

/-- An event without the flag. -/
def Events.Plain (event : BitVec 32) : Prop := event &&& c.flag = 0#32

/-- The events differ, and the flag is a bit that none of them has. -/
structure Events.Distinct : Prop where
  flag : c.flag ≠ 0#32
  plain : ∀ event ∈ c.own, c.Plain event
  nodup : c.own.Nodup

/-- A caller that chooses the event chooses one without the flag, and none of the others. -/
def Traced.EventOk : Traced → Prop
  | .trapOneAddr event _ => c.Plain event ∧ event ∉ c.own
  | .trapTwoAddr event _ _ => c.Plain event ∧ event ∉ c.own
  | _ => True

/-- The call that a record shows, and whether it was for a 32-bit vCPU. -/
def decode (r : TraceVar) : Option (Bool × Traced) :=
  let pv32 : Bool := r.event &&& c.flag = 0#32
  let event := r.event &&& ~~~c.flag
  let w := addrBits pv32
  if event = c.trcPvTrap then
    match fieldsOf [64, 16, 1, 16] r.extra with
    | [eip, trapnr, use, errorCode] =>
      some (pv32, .pvTrap (BitVec.ofNat 16 trapnr) (BitVec.ofNat 64 eip) (BitVec.ofNat 32 use)
        (BitVec.ofNat 16 errorCode))
    | _ => none
  else if event = c.trcPvPageFault then
    match fieldsOf [w, w, 32] r.extra with
    | [eip, addr, errorCode] =>
      some (pv32, .pvPageFault (BitVec.ofNat 64 eip) (BitVec.ofNat 64 addr) (BitVec.ofNat 32 errorCode))
    | _ => none
  else if event = c.trcPvPtwrEmulation ∨ event = c.trcPvPtwrEmulationPae then
    match fieldsOf [64, w, w] r.extra with
    | [npte, addr, eip] =>
      some (pv32, .ptwrEmulation (BitVec.ofNat 64 addr) (BitVec.ofNat 64 npte) (BitVec.ofNat 64 eip))
    | _ => none
  else if 8 * r.extra.length = w then
    match fieldsOf [w] r.extra with
    | [va] => some (pv32, .trapOneAddr event (BitVec.ofNat 64 va))
    | _ => none
  else
    match fieldsOf [w, w] r.extra with
    | [va1, va2] => some (pv32, .trapTwoAddr event (BitVec.ofNat 64 va1) (BitVec.ofNat 64 va2))
    | _ => none

/-! ### The event -/

section Event

variable {c} {event : BitVec 32}

/-- The flag is cut like the event. -/
theorem set64Flag_eq (event : BitVec 32) : set64Flag c event = event ||| c.flag := by
  ext i hi
  simp [set64Flag, Events.flag]

/-- A plain event has none of the bits of the flag. -/
theorem plain_iff : c.Plain event ↔ ∀ i, event.getLsbD i = true → c.flag.getLsbD i = false := and_eq_zero_iff _ _

/-- The event that is traced. -/
def eventOf (c : Events) (pv32 : Bool) (event : BitVec 32) : BitVec 32 := if pv32 then event else set64Flag c event

/-- The flag says of which kind the vCPU was. -/
theorem eventOf_flag (hc : c.Distinct) (h : c.Plain event) (pv32 : Bool) :
    decide (eventOf c pv32 event &&& c.flag = 0#32) = pv32 := by
  cases pv32 with
  | true => exact decide_eq_true h
  | false =>
    apply decide_eq_false
    have hor : (event ||| c.flag) &&& c.flag = c.flag := by
      ext i hi
      rw [BitVec.getElem_and, BitVec.getElem_or]
      cases event[i] <;> simp
    rw [eventOf, if_neg Bool.false_ne_true, set64Flag_eq, hor]
    exact hc.flag

/-- The rest is the event. -/
theorem eventOf_plain (h : c.Plain event) (pv32 : Bool) : eventOf c pv32 event &&& ~~~c.flag = event := by
  have hevent : event &&& ~~~c.flag = event := by
    ext i hi
    have hi' := plain_iff.mp h i
    rw [BitVec.getLsbD_eq_getElem hi, BitVec.getLsbD_eq_getElem hi] at hi'
    rw [BitVec.getElem_and, BitVec.getElem_not]
    cases hb : event[i] with
    | false => rfl
    | true => rw [hi' hb]; rfl
  cases pv32 with
  | true => exact hevent
  | false =>
    have hor : (event ||| c.flag) &&& ~~~c.flag = event &&& ~~~c.flag := by
      ext i hi
      rw [BitVec.getElem_and, BitVec.getElem_or, BitVec.getElem_and, BitVec.getElem_not]
      cases event[i] <;> simp
    rw [eventOf, if_neg Bool.false_ne_true, set64Flag_eq, hor, hevent]

end Event

/-! ### The structure -/

section Structure

variable {c} (hc : c.Distinct)

/-- A field that holds all of a value. -/
theorem ofNat_field {w : Nat} (x : BitVec w) : BitVec.ofNat w (x.toNat % 2 ^ w) = x := by
  rw [Nat.mod_eq_of_lt x.isLt, BitVec.ofNat_toNat, BitVec.setWidth_eq]

/-- The functions use the flag and the width of an address as the vCPU is. -/
theorem tracePvTrap_eq (pv32 : Bool) (trapnr : BitVec 16) (eip : BitVec 64) (useErrorCode : BitVec 32)
    (errorCode : BitVec 16) : tracePvTrap c pv32 trapnr eip useErrorCode errorCode =
      ⟨eventOf c pv32 c.trcPvTrap, true, packed [(64, eip.toNat), (16, trapnr.toNat),
        (1, if useErrorCode = 0#32 then 0 else 1), (16, errorCode.toNat)]⟩ := by
  cases pv32 <;> rfl

theorem tracePvPageFault_eq (pv32 : Bool) (eip addr : BitVec 64) (errorCode : BitVec 32) :
    tracePvPageFault c pv32 eip addr errorCode = ⟨eventOf c pv32 c.trcPvPageFault, true,
      packed [(addrBits pv32, eip.toNat), (addrBits pv32, addr.toNat), (32, errorCode.toNat)]⟩ := by
  cases pv32 <;> rfl

theorem traceTrapOneAddr_eq (pv32 : Bool) (event : BitVec 32) (va : BitVec 64) :
    traceTrapOneAddr c pv32 event va = ⟨eventOf c pv32 event, true, packed [(addrBits pv32, va.toNat)]⟩ := by
  cases pv32 <;> rfl

theorem traceTrapTwoAddr_eq (pv32 : Bool) (event : BitVec 32) (va1 va2 : BitVec 64) :
    traceTrapTwoAddr c pv32 event va1 va2 = ⟨eventOf c pv32 event, true,
      packed [(addrBits pv32, va1.toNat), (addrBits pv32, va2.toNat)]⟩ := by
  cases pv32 <;> rfl

theorem tracePtwrEmulation_eq (pv32 : Bool) (addr npte eip : BitVec 64) :
    tracePtwrEmulation c pv32 addr npte eip =
      ⟨eventOf c pv32 (if pv32 then c.trcPvPtwrEmulationPae else c.trcPvPtwrEmulation), true,
        packed [(64, npte.toNat), (addrBits pv32, addr.toNat), (addrBits pv32, eip.toNat)]⟩ := by
  cases pv32 <;> rfl

/-- An event of the caller is none of the others. -/
theorem eventOk_ne {event : BitVec 32} (h : event ∉ c.own) :
    event ≠ c.trcPvTrap ∧ event ≠ c.trcPvPageFault ∧
      ¬(event = c.trcPvPtwrEmulation ∨ event = c.trcPvPtwrEmulationPae) := by
  simp only [Events.own, List.mem_cons, List.not_mem_nil, not_or] at h
  exact ⟨h.1, h.2.1, not_or.mpr ⟨h.2.2.1, h.2.2.2.1⟩⟩

include hc

/-- The events that a reader tells apart. -/
theorem own_ne : c.trcPvTrap ≠ c.trcPvPageFault ∧ ∀ pv32 : Bool,
    c.trcPvTrap ≠ (if pv32 then c.trcPvPtwrEmulationPae else c.trcPvPtwrEmulation) ∧
      c.trcPvPageFault ≠ if pv32 then c.trcPvPtwrEmulationPae else c.trcPvPtwrEmulation := by
  have hnodup := hc.nodup
  simp only [Events.own, List.nodup_cons, List.mem_cons, not_or] at hnodup
  obtain ⟨⟨htp, ht, ht', -⟩, ⟨hp, hp', -⟩, -⟩ := hnodup
  refine ⟨htp, ?_⟩
  intro pv32
  cases pv32
  · exact ⟨ht, hp⟩
  · exact ⟨ht', hp'⟩

theorem decode_pvTrap (pv32 : Bool) (trapnr : BitVec 16) (eip : BitVec 64) (useErrorCode : BitVec 32)
    (errorCode : BitVec 16) : decode c (tracePvTrap c pv32 trapnr eip useErrorCode errorCode) =
      some (pv32, Traced.seen pv32 (.pvTrap trapnr eip useErrorCode errorCode)) := by
  have hplain := hc.plain c.trcPvTrap (by simp [Events.own])
  have huse : BitVec.ofNat 32 ((if useErrorCode = 0#32 then 0 else 1) % 2 ^ 1) =
      if useErrorCode = 0#32 then 0#32 else 1#32 := by
    split <;> rfl
  rw [tracePvTrap_eq, decode]
  simp only [eventOf_flag hc hplain, eventOf_plain hplain, if_true]
  have hfields := fieldsOf_packed [(64, eip.toNat), (16, trapnr.toNat), (1, if useErrorCode = 0#32 then 0 else 1),
    (16, errorCode.toNat)]
  simp only [List.map_cons, List.map_nil] at hfields
  rw [hfields]
  simp only [ofNat_field, huse, Traced.seen]

theorem decode_pvPageFault (pv32 : Bool) (eip addr : BitVec 64) (errorCode : BitVec 32) :
    decode c (tracePvPageFault c pv32 eip addr errorCode) =
      some (pv32, Traced.seen pv32 (.pvPageFault eip addr errorCode)) := by
  have hplain := hc.plain c.trcPvPageFault (by simp [Events.own])
  rw [tracePvPageFault_eq, decode]
  simp only [eventOf_flag hc hplain, eventOf_plain hplain, if_neg (Ne.symm (own_ne hc).1), if_true]
  have hfields := fieldsOf_packed [(addrBits pv32, eip.toNat), (addrBits pv32, addr.toNat), (32, errorCode.toNat)]
  simp only [List.map_cons, List.map_nil] at hfields
  rw [hfields]
  simp only [ofNat_field, Traced.seen, addrSeen]

theorem decode_ptwrEmulation (pv32 : Bool) (addr npte eip : BitVec 64) :
    decode c (tracePtwrEmulation c pv32 addr npte eip) =
      some (pv32, Traced.seen pv32 (.ptwrEmulation addr npte eip)) := by
  have hmem : (if pv32 then c.trcPvPtwrEmulationPae else c.trcPvPtwrEmulation) ∈ c.own := by
    cases pv32 <;> simp [Events.own]
  have hplain := hc.plain _ hmem
  have hptwr : (if pv32 then c.trcPvPtwrEmulationPae else c.trcPvPtwrEmulation) = c.trcPvPtwrEmulation ∨
      (if pv32 then c.trcPvPtwrEmulationPae else c.trcPvPtwrEmulation) = c.trcPvPtwrEmulationPae := by
    cases pv32 <;> simp
  obtain ⟨ht, hp⟩ := (own_ne hc).2 pv32
  rw [tracePtwrEmulation_eq, decode]
  simp only [eventOf_flag hc hplain, eventOf_plain hplain, if_neg (Ne.symm ht), if_neg (Ne.symm hp), if_pos hptwr]
  have hfields := fieldsOf_packed [(64, npte.toNat), (addrBits pv32, addr.toNat), (addrBits pv32, eip.toNat)]
  simp only [List.map_cons, List.map_nil] at hfields
  rw [hfields]
  simp only [ofNat_field, Traced.seen, addrSeen]

theorem decode_trapOneAddr (pv32 : Bool) (event : BitVec 32) (va : BitVec 64) (h : c.Plain event ∧ event ∉ c.own) :
    decode c (traceTrapOneAddr c pv32 event va) = some (pv32, Traced.seen pv32 (.trapOneAddr event va)) := by
  obtain ⟨ht, hf, hp⟩ := eventOk_ne h.2
  have hsize : 8 * (packed [(addrBits pv32, va.toNat)]).length = addrBits pv32 := by
    rw [length_packed]
    cases pv32 <;> simp [bitsOf, addrBits]
  rw [traceTrapOneAddr_eq, decode]
  simp only [eventOf_flag hc h.1, eventOf_plain h.1, if_neg ht, if_neg hf, if_neg hp, if_pos hsize]
  have hfields := fieldsOf_packed [(addrBits pv32, va.toNat)]
  simp only [List.map_cons, List.map_nil] at hfields
  rw [hfields]
  simp only [Traced.seen, addrSeen]

theorem decode_trapTwoAddr (pv32 : Bool) (event : BitVec 32) (va1 va2 : BitVec 64)
    (h : c.Plain event ∧ event ∉ c.own) :
    decode c (traceTrapTwoAddr c pv32 event va1 va2) =
      some (pv32, Traced.seen pv32 (.trapTwoAddr event va1 va2)) := by
  obtain ⟨ht, hf, hp⟩ := eventOk_ne h.2
  have hsize : 8 * (packed [(addrBits pv32, va1.toNat), (addrBits pv32, va2.toNat)]).length ≠ addrBits pv32 := by
    rw [length_packed]
    cases pv32 <;> simp [bitsOf, addrBits]
  rw [traceTrapTwoAddr_eq, decode]
  simp only [eventOf_flag hc h.1, eventOf_plain h.1, if_neg ht, if_neg hf, if_neg hp, if_neg hsize]
  have hfields := fieldsOf_packed [(addrBits pv32, va1.toNat), (addrBits pv32, va2.toNat)]
  simp only [List.map_cons, List.map_nil] at hfields
  rw [hfields]
  simp only [Traced.seen, addrSeen]

end Structure

/-- **Trace records.** The records of any calls are read, one by one, as the calls that were traced, as far as their
structures hold these. -/
theorem trace_roundtrip (hc : c.Distinct) (calls : List (Bool × Traced)) (hcalls : ∀ x ∈ calls, x.2.EventOk c) :
    (calls.map fun x => trace c x.1 x.2).map (decode c) = calls.map fun x => some (x.1, x.2.seen x.1) := by
  rw [List.map_map]
  apply List.map_congr_left
  rintro ⟨pv32, call⟩ hmem
  have hok := hcalls _ hmem
  cases call with
  | pvTrap trapnr eip useErrorCode errorCode => exact decode_pvTrap hc pv32 trapnr eip useErrorCode errorCode
  | pvPageFault eip addr errorCode => exact decode_pvPageFault hc pv32 eip addr errorCode
  | trapOneAddr event va => exact decode_trapOneAddr hc pv32 event va hok
  | trapTwoAddr event va1 va2 => exact decode_trapTwoAddr hc pv32 event va1 va2 hok
  | ptwrEmulation addr npte eip => exact decode_ptwrEmulation hc pv32 addr npte eip

/-! ### A few calls -/

/-- Event numbers of which only the flag has bit 8. -/
def someEvents : Events := ⟨0x20f003#32, 0x20f004#32, 0x20f009#32, 0x20f00c#32, 0x100#64⟩

theorem trace_roundtrip_mixed :
    ([(true, Traced.pvPageFault 0xffff800000001000#64 0xdeadbeef0#64 6#32), (false, .pvTrap 13#16 7#64 2#32 4#16),
      (true, .trapTwoAddr 0x20f00b#32 1#64 2#64), (false, .trapOneAddr 0x20f00b#32 0xffff800000001000#64)].map
        fun x => trace someEvents x.1 x.2).map (decode someEvents) =
      [(true, Traced.pvPageFault 0xffff800000001000#64 0xdeadbeef0#64 6#32), (false, .pvTrap 13#16 7#64 2#32 4#16),
      (true, .trapTwoAddr 0x20f00b#32 1#64 2#64), (false, .trapOneAddr 0x20f00b#32 0xffff800000001000#64)].map
        fun x => some (x.1, x.2.seen x.1) :=
  trace_roundtrip someEvents ⟨by decide, by simp [Events.own, Events.Plain, Events.flag, someEvents], by decide⟩ _
    (by simp [Traced.EventOk, Events.own, Events.Plain, Events.flag, someEvents])

end Xen.Trace
