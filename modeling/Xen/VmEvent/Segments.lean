import Xen.Lib.Bits

/-!
# Packing of segment registers (`vm_event_verified.c`)

- `hvmGetSegmentRegister` cooks what `hvm_funcs.get_segment_register` delivers (`cookSegment`, `cookPresent`), and
  `vmEventPackSegmentRegister` stores the result in the fields of the segment.
- The limit is packed with 20 bits, the attributes with 12. Nothing is lost: the cooked granularity says whether the
  limit needs more than 20 bits (`hvmGetSegmentRegister_g`), and then the upper 20 bits are stored
  (`unpackLimit_packSelector`).
-/

namespace Xen.VmEvent

open Lib

/-! ## The registers -/

/-- `enum x86_segment`. -/
inductive X86Segment where
  | es | cs | ss | ds | fs | gs | tr | ldtr | gdtr | idtr | none
deriving DecidableEq, Repr

def isX86UserSegment (seg : X86Segment) : Bool := seg.ctorIdx ≤ X86Segment.gs.ctorIdx

/-- `struct segment_register`. The bit-fields are those of `attr`. -/
structure SegmentRegister where
  sel : BitVec 16
  attr : BitVec 16
  limit : BitVec 32
  base : BitVec 64
deriving DecidableEq, Repr

namespace SegmentRegister

def p (reg : SegmentRegister) : Bool := reg.attr.getLsbD 7

def g (reg : SegmentRegister) : Bool := reg.attr.getLsbD 11

def setS (reg : SegmentRegister) (b : Bool) : SegmentRegister := { reg with attr := writeBit reg.attr 4 b }

def setP (reg : SegmentRegister) (b : Bool) : SegmentRegister := { reg with attr := writeBit reg.attr 7 b }

def setDb (reg : SegmentRegister) (b : Bool) : SegmentRegister := { reg with attr := writeBit reg.attr 10 b }

def setG (reg : SegmentRegister) (b : Bool) : SegmentRegister := { reg with attr := writeBit reg.attr 11 b }

/-- `type |= x`; the field is the low four bits. -/
def orType (reg : SegmentRegister) (x : BitVec 4) : SegmentRegister :=
  { reg with attr := reg.attr ||| x.setWidth 16 }

end SegmentRegister

/-- `struct vm_event_x86_selector_reg`. -/
structure VmEventX86SelectorReg where
  limit : BitVec 20
  ar : BitVec 12
deriving DecidableEq, Repr, Inhabited

/-- The fields of `struct vm_event_regs_x86` that belong to a segment. -/
structure VmEventRegsX86 where
  csBase : BitVec 32
  ssBase : BitVec 32
  dsBase : BitVec 32
  esBase : BitVec 32
  fsBase : BitVec 64
  gsBase : BitVec 64
  cs : VmEventX86SelectorReg
  ss : VmEventX86SelectorReg
  ds : VmEventX86SelectorReg
  es : VmEventX86SelectorReg
  fs : VmEventX86SelectorReg
  gs : VmEventX86SelectorReg
  csSel : BitVec 16
  ssSel : BitVec 16
  dsSel : BitVec 16
  esSel : BitVec 16
  fsSel : BitVec 16
  gsSel : BitVec 16
deriving DecidableEq, Repr, Inhabited

/-! ## Cooking -/

/-- The `switch` of `hvm_get_segment_register`. -/
def cookSegment (seg : X86Segment) (reg : SegmentRegister) : SegmentRegister :=
  match seg with
  | .ss => if !reg.p then reg.setDb false else reg
  -- falls through to `cs`
  | .tr => (reg.orType 2#4).setP true
  | .cs => reg.setP true
  | .gdtr | .idtr => { reg with attr := 0x80#16 }
  | _ => reg

/-- What is done to a register that is present. -/
def cookPresent (seg : X86Segment) (reg : SegmentRegister) : SegmentRegister :=
  let reg := reg.setS (isX86UserSegment seg)
  let reg := reg.setG (reg.limit >>> 20 != 0)
  if isX86UserSegment seg then reg.orType 1#4 else reg

/-- `hvm_get_segment_register`, with what `hvm_funcs.get_segment_register` delivers for each segment. -/
def hvmGetSegmentRegister (getSegmentRegister : X86Segment → SegmentRegister) (seg : X86Segment) : SegmentRegister :=
  let reg := cookSegment seg (getSegmentRegister seg)
  if reg.p then cookPresent seg reg else reg

section Cook

variable (seg : X86Segment) (reg : SegmentRegister)

/-- Cooking is about the attributes only. -/
theorem cookSegment_frame : (cookSegment seg reg).sel = reg.sel ∧ (cookSegment seg reg).limit = reg.limit ∧
    (cookSegment seg reg).base = reg.base := by
  cases seg with
  | ss =>
    rw [cookSegment]
    split
    · exact ⟨rfl, rfl, rfl⟩
    · exact ⟨rfl, rfl, rfl⟩
  | _ => exact ⟨rfl, rfl, rfl⟩

theorem cookPresent_frame : (cookPresent seg reg).sel = reg.sel ∧ (cookPresent seg reg).limit = reg.limit ∧
    (cookPresent seg reg).base = reg.base := by
  unfold cookPresent
  split
  · exact ⟨rfl, rfl, rfl⟩
  · exact ⟨rfl, rfl, rfl⟩

theorem hvmGetSegmentRegister_frame (raw : X86Segment → SegmentRegister) :
    (hvmGetSegmentRegister raw seg).sel = (raw seg).sel ∧ (hvmGetSegmentRegister raw seg).limit = (raw seg).limit ∧
      (hvmGetSegmentRegister raw seg).base = (raw seg).base := by
  obtain ⟨hsel, hlimit, hbase⟩ := cookSegment_frame seg (raw seg)
  by_cases hc : (cookSegment seg (raw seg)).p = true
  · obtain ⟨hsel', hlimit', hbase'⟩ := cookPresent_frame seg (cookSegment seg (raw seg))
    simp only [hvmGetSegmentRegister, hc, if_true]
    exact ⟨hsel'.trans hsel, hlimit'.trans hlimit, hbase'.trans hbase⟩
  · simp only [hvmGetSegmentRegister, hc]
    exact ⟨hsel, hlimit, hbase⟩

/-- The type is below the present bit and the granularity. -/
theorem orType_p (x : BitVec 4) : (reg.orType x).p = reg.p := by
  simp [SegmentRegister.p, SegmentRegister.orType]

theorem orType_g (x : BitVec 4) : (reg.orType x).g = reg.g := by
  simp [SegmentRegister.g, SegmentRegister.orType]

theorem cookPresent_g : (cookPresent seg reg).g = (reg.limit >>> 20 != 0) := by
  have hg : ((reg.setS (isX86UserSegment seg)).setG (reg.limit >>> 20 != 0)).g = (reg.limit >>> 20 != 0) :=
    writeBit_self _ _ (by decide)
  unfold cookPresent
  split
  · exact (orType_g _ _).trans hg
  · exact hg

theorem cookPresent_p : (cookPresent seg reg).p = reg.p := by
  have hp : ((reg.setS (isX86UserSegment seg)).setG (reg.limit >>> 20 != 0)).p = reg.p := by
    apply (writeBit_others _ _ (by decide)).trans
    exact writeBit_others _ _ (by decide)
  unfold cookPresent
  split
  · exact (orType_p _ _).trans hp
  · exact hp

/-- **The granularity** of a present register says whether the limit needs more than 20 bits. -/
theorem hvmGetSegmentRegister_g (raw : X86Segment → SegmentRegister) (hp : (hvmGetSegmentRegister raw seg).p = true) :
    (hvmGetSegmentRegister raw seg).g = ((hvmGetSegmentRegister raw seg).limit >>> 20 != 0) := by
  by_cases hc : (cookSegment seg (raw seg)).p = true
  · simp only [hvmGetSegmentRegister, hc, if_true]
    rw [cookPresent_g, (cookPresent_frame seg _).2.1]
  · simp only [hvmGetSegmentRegister, hc] at hp
    exact absurd hp hc

/-- Whether a register is present has been decided before. -/
theorem hvmGetSegmentRegister_p (raw : X86Segment → SegmentRegister) :
    (hvmGetSegmentRegister raw seg).p = (cookSegment seg (raw seg)).p := by
  cases hc : (cookSegment seg (raw seg)).p with
  | true =>
    simp only [hvmGetSegmentRegister, hc, if_true]
    rw [cookPresent_p, hc]
  | false => simp [hvmGetSegmentRegister, hc]

end Cook

/-! ## Packing -/

/-- `reg->X.limit` and `reg->X.ar`: the bit-fields truncate what is stored. -/
def packSelector (seg : SegmentRegister) : VmEventX86SelectorReg where
  limit := (if seg.g then seg.limit >>> 12 else seg.limit).setWidth 20
  ar := seg.attr.setWidth 12

/-- `vm_event_pack_segment_register`. -/
def vmEventPackSegmentRegister (getSegmentRegister : X86Segment → SegmentRegister) (segment : X86Segment)
    (reg : VmEventRegsX86) : VmEventRegsX86 :=
  let seg := hvmGetSegmentRegister getSegmentRegister segment
  match segment with
  | .ss => { reg with ssBase := seg.base.setWidth 32, ss := packSelector seg, ssSel := seg.sel }
  | .fs => { reg with fsBase := seg.base, fs := packSelector seg, fsSel := seg.sel }
  | .gs => { reg with gsBase := seg.base, gs := packSelector seg, gsSel := seg.sel }
  | .cs => { reg with csBase := seg.base.setWidth 32, cs := packSelector seg, csSel := seg.sel }
  | .ds => { reg with dsBase := seg.base.setWidth 32, ds := packSelector seg, dsSel := seg.sel }
  | .es => { reg with esBase := seg.base.setWidth 32, es := packSelector seg, esSel := seg.sel }
  | _ => reg

/-- The fields of one segment, the base as a 64-bit one. -/
structure PackedSegment where
  base : BitVec 64
  reg : VmEventX86SelectorReg
  sel : BitVec 16
deriving DecidableEq, Repr

/-- The fields of a user segment. -/
def VmEventRegsX86.packed (reg : VmEventRegsX86) : X86Segment → Option PackedSegment
  | .es => some ⟨reg.esBase.setWidth 64, reg.es, reg.esSel⟩
  | .cs => some ⟨reg.csBase.setWidth 64, reg.cs, reg.csSel⟩
  | .ss => some ⟨reg.ssBase.setWidth 64, reg.ss, reg.ssSel⟩
  | .ds => some ⟨reg.dsBase.setWidth 64, reg.ds, reg.dsSel⟩
  | .fs => some ⟨reg.fsBase, reg.fs, reg.fsSel⟩
  | .gs => some ⟨reg.gsBase, reg.gs, reg.gsSel⟩
  | _ => none

/-- The base that a segment's field can hold. -/
def keptBase (seg : X86Segment) (base : BitVec 64) : BitVec 64 :=
  match seg with
  | .fs | .gs => base
  | _ => (base.setWidth 32).setWidth 64

/-- The limit in bytes: the top bit of `ar` says whether the stored one counts pages. -/
def VmEventX86SelectorReg.unpackLimit (r : VmEventX86SelectorReg) : BitVec 32 :=
  if r.ar.msb then (r.limit.setWidth 32 <<< 12) ||| 0xfff#32 else r.limit.setWidth 32

/-- **Nothing is lost** of what was delivered and cooked. -/
structure Lossless (seg : X86Segment) (raw cooked : SegmentRegister) (f : PackedSegment) : Prop where
  limit : f.reg.unpackLimit = if f.reg.ar.msb then cooked.limit ||| 0xfff#32 else cooked.limit
  ar : f.reg.ar.setWidth 16 = cooked.attr &&& 0xfff#16
  sel : f.sel = raw.sel
  base : f.base = keptBase seg raw.base

section Pack

variable (raw : X86Segment → SegmentRegister) (seg : X86Segment) (reg : VmEventRegsX86)

/-- What is stored for a user segment. -/
theorem packed_self (hu : isX86UserSegment seg = true) :
    (vmEventPackSegmentRegister raw seg reg).packed seg =
      some ⟨keptBase seg (hvmGetSegmentRegister raw seg).base, packSelector (hvmGetSegmentRegister raw seg),
        (hvmGetSegmentRegister raw seg).sel⟩ := by
  cases seg with
  | es | cs | ss | ds | fs | gs => rfl
  | tr | ldtr | gdtr | idtr | none => cases hu

/-- The other segments. -/
theorem packed_others {other : X86Segment} (h : other ≠ seg) :
    (vmEventPackSegmentRegister raw seg reg).packed other = reg.packed other := by
  cases seg with
  | es | cs | ss | ds | fs | gs =>
    cases other with
    | es | cs | ss | ds | fs | gs | tr | ldtr | gdtr | idtr | none =>
      first
      | rfl
      | exact absurd rfl h
  | tr | ldtr | gdtr | idtr | none => rfl

/-- The top bit of `ar` is the granularity. -/
theorem packSelector_msb (r : SegmentRegister) : (packSelector r).ar.msb = r.g := by
  simp [packSelector, SegmentRegister.g, BitVec.msb_eq_getLsbD_last]

theorem packSelector_ar (r : SegmentRegister) : (packSelector r).ar.setWidth 16 = r.attr &&& 0xfff#16 :=
  setWidth_setWidth_eq_and r.attr 12

/-- **The limit** comes back, whatever it is, if the granularity is that of the cooked register. -/
theorem unpackLimit_packSelector (r : SegmentRegister) (hg : r.g = (r.limit >>> 20 != 0)) :
    (packSelector r).unpackLimit = if (packSelector r).ar.msb then r.limit ||| 0xfff#32 else r.limit := by
  rw [VmEventX86SelectorReg.unpackLimit, packSelector_msb]
  cases hr : r.g with
  | true =>
    have hfit : (r.limit >>> 12) >>> 20 = 0 := by
      rw [← BitVec.shiftRight_add]
      exact BitVec.ushiftRight_eq_zero (by decide)
    simp only [packSelector, hr, if_true]
    rw [setWidth_setWidth_of_shiftRight _ hfit]
    exact shiftRight_shiftLeft_or r.limit 12
  | false =>
    have hfit : r.limit >>> 20 = 0 := by
      rw [hr] at hg
      simpa using hg
    simp only [packSelector, hr]
    exact setWidth_setWidth_of_shiftRight _ hfit

/-- **Packing is lossless** for a user segment that is present, and keeps the fields of the others. -/
theorem vmEventPackSegmentRegister_lossless (hu : isX86UserSegment seg = true)
    (hp : (hvmGetSegmentRegister raw seg).p = true) :
    (∃ f, (vmEventPackSegmentRegister raw seg reg).packed seg = some f ∧
      Lossless seg (raw seg) (hvmGetSegmentRegister raw seg) f) ∧
    ∀ other, other ≠ seg → (vmEventPackSegmentRegister raw seg reg).packed other = reg.packed other := by
  obtain ⟨hsel, -, hbase⟩ := hvmGetSegmentRegister_frame seg raw
  constructor
  · refine ⟨_, packed_self raw seg reg hu, ?_⟩
    constructor
    · exact unpackLimit_packSelector _ (hvmGetSegmentRegister_g seg raw hp)
    · exact packSelector_ar _
    · exact hsel
    · show keptBase seg (hvmGetSegmentRegister raw seg).base = keptBase seg (raw seg).base
      rw [hbase]
  · intro other h
    exact packed_others raw seg reg h

end Pack

/-- A limit of `2 ^ 20`, the first that is packed in pages, delivered without the granularity bit. -/
def fsBeyond : SegmentRegister := ⟨0x53#16, 0xf093#16, 0x100000#32, 0x7fff00000000#64⟩

theorem vmEventPackSegmentRegister_lossless_fs :
    (∃ f, (vmEventPackSegmentRegister (fun _ => fsBeyond) .fs default).packed .fs = some f ∧
      Lossless .fs fsBeyond (hvmGetSegmentRegister (fun _ => fsBeyond) .fs) f) ∧
    ∀ other, other ≠ .fs →
      (vmEventPackSegmentRegister (fun _ => fsBeyond) .fs default).packed other = VmEventRegsX86.packed default other :=
  vmEventPackSegmentRegister_lossless (fun _ => fsBeyond) .fs default rfl (by decide)

end Xen.VmEvent
