import Mathlib.Data.List.Chain
import Xen.Amd.Resume

/-!
# The patch buffer of an AMD container (`microcode_amd_verified.c`)

- A `Buffer` is a `struct microcode_amd` with the blocks that its calls of `get_ucode_from_buffer_amd` hold, a run is a
  list of such calls. `load_cases` says what one of them does.
- `buffer_owned`: the buffer is the only live block and holds `mpb_size` bytes, in every run.
- `mpb_size` is the size of the block, and grows only; `microcode_fits` takes it for the size of the patch.
  `last_size_iff`: it is, exactly in runs whose sections do not get shorter.
- `header_inside_iff`: the header of the patch is inside the block exactly if the section is as long as one.
-/

namespace Xen.Amd

open Lib

/-! ## Runs of calls -/

/-- A call: the container, where it starts, and what `_xmalloc` returns. -/
structure Load where
  buf : Bytes
  bufsize : Nat
  offset : Nat
  xmalloc : Nat

/-- The call on the structure `mc`. -/
def Load.run (c : Load) (mc : MicrocodeAmd) : Logged (MemOp Obj) (Int × MicrocodeAmd × Nat) :=
  getUcodeFromBufferAmd mc c.buf c.bufsize c.offset c.xmalloc

/-- The return code. -/
def Load.ret (c : Load) (mc : MicrocodeAmd) : Int := (c.run mc).val.1

/-- The length of the section. -/
def Load.len (c : Load) : Nat := readLen c.buf c.offset

/-- The call is refused. -/
def Load.Refused (c : Load) (mc : MicrocodeAmd) : Prop := Refuses mc c.buf c.bufsize c.offset c.xmalloc

/-- An access to a block, or a request for one. -/
def onBlock : MemOp Obj → Option (MemOp Nat)
  | .read (.block p) off len => some (.read p off len)
  | .write (.block p) off len => some (.write p off len)
  | .ask len => some (.ask len)
  | .malloc (.block p) => some (.malloc p)
  | .free (.block p) => some (.free p)
  | _ => none

/-- What the call does to blocks. -/
def Load.ops (c : Load) (mc : MicrocodeAmd) : List (MemOp Nat) := (c.run mc).log.filterMap onBlock

/-- The structure, the live blocks that its calls have allocated, and the sizes of blocks. -/
structure Buffer where
  mc : MicrocodeAmd
  live : Finset Nat
  size : Nat → Nat

/-- One call; a new block is as large as was asked for. -/
def Buffer.load (s : Buffer) (c : Load) : Buffer where
  mc := (c.run s.mc).val.2.1
  live := liveAfter s.live (c.ops s.mc)
  size := sizesAfter s.size 0 (c.ops s.mc)

/-- The structure without its block, as a failed allocation leaves it. -/
def givenUp (mc : MicrocodeAmd) : MicrocodeAmd :=
  { mc with mpb := 0, mpbSize := if mc.mpb ≠ 0 then 0 else mc.mpbSize }

/-- The old block is freed if there is one. -/
def freed (mc : MicrocodeAmd) : List (MemOp Nat) := if mc.mpb = 0 then [] else [.free mc.mpb]

/-- The buffer is given up, and another one is asked for. -/
theorem growMpb_eq (mc : MicrocodeAmd) (len xmalloc : Nat) :
    (growMpb mc len xmalloc).val =
      (if xmalloc = 0 then givenUp mc else { mc with mpb := xmalloc, mpbSize := len }) ∧
    (growMpb mc len xmalloc).log.filterMap onBlock =
      freed mc ++ .ask len :: if xmalloc = 0 then [] else [.malloc xmalloc] := by
  by_cases h : mc.mpb = 0 <;> by_cases hx : xmalloc = 0 <;> simp [growMpb, givenUp, freed, onBlock, h, hx]

/-- **What a call does.** It is refused and changes nothing, it reuses the buffer, it gives up the buffer and gets no
other, or it gets one of the length of the section. -/
theorem load_cases (c : Load) (mc : MicrocodeAmd) :
    (c.ret mc ≠ 0 ∧ (c.run mc).val.2.1 = mc ∧ c.ops mc = []) ∨
    (c.len ≤ mc.mpbSize ∧ c.ret mc = 0 ∧ (c.run mc).val.2.1 = mc ∧ c.ops mc = []) ∨
    (c.ret mc ≠ 0 ∧ (c.run mc).val.2.1 = givenUp mc ∧ c.ops mc = freed mc ++ [.ask c.len]) ∨
    (mc.mpbSize < c.len ∧ c.xmalloc ≠ 0 ∧ c.ret mc = 0 ∧
      (c.run mc).val.2.1 = { mc with mpb := c.xmalloc, mpbSize := c.len } ∧
      c.ops mc = freed mc ++ [.ask c.len, .malloc c.xmalloc]) := by
  obtain ⟨hval, hlog⟩ := growMpb_eq mc c.len c.xmalloc
  have hload : ∀ off, (load Obj.buf c.buf off 4).log.filterMap onBlock = [] := fun _ => rfl
  unfold Load.len readLen at *
  unfold Load.ret Load.ops Load.run
  by_cases h1 : c.offset ≥ c.bufsize
  · simp [getUcodeFromBufferAmd, h1]
  by_cases h2 : leWord c.buf (mpbhdrSize * c.offset) 4 ≠ 1
  · simp only [getUcodeFromBufferAmd, if_neg h1, Logged.val_bind, val_load, if_pos h2, Logged.log_bind, Logged.val_pure,
      Logged.log_pure, List.filterMap_append, hload]
    exact Or.inl (by simp)
  by_cases h3 : (c.offset + leWord c.buf (mpbhdrSize * c.offset + 4) 4) % 2 ^ 32 > c.bufsize
  · simp only [getUcodeFromBufferAmd, if_neg h1, Logged.val_bind, val_load, if_neg h2, if_pos h3, Logged.log_bind,
      Logged.val_pure, Logged.log_pure, List.filterMap_append, hload]
    exact Or.inl (by simp)
  apply Or.inr
  by_cases h4 : mc.mpbSize < leWord c.buf (mpbhdrSize * c.offset + 4) 4
  · simp only [getUcodeFromBufferAmd, if_neg h1, Logged.val_bind, val_load, if_neg h2, if_neg h3, if_pos h4,
      Logged.log_bind, List.filterMap_append, hload, hval, hlog]
    by_cases hx : c.xmalloc = 0
    · have hmpb : (givenUp mc).mpb = 0 := rfl
      exact Or.inr (Or.inl (by simp [hx, hmpb]))
    · exact Or.inr (Or.inr (by simp [hx, h4]))
  · simp only [getUcodeFromBufferAmd, if_neg h1, Logged.val_bind, val_load, if_neg h2, if_neg h3, if_neg h4,
      Logged.log_bind, Logged.val_pure, Logged.log_pure, List.filterMap_append, hload]
    exact Or.inl (by simp [Nat.le_of_not_lt h4])

/-- A call succeeds unless it is refused. -/
theorem Load.ret_eq_zero_iff (c : Load) (mc : MicrocodeAmd) : c.ret mc = 0 ↔ ¬c.Refused mc := by
  constructor
  · intro h hrefused
    exact getUcode_refused _ _ _ _ _ hrefused h
  · intro h
    exact (getUcode_accepted _ _ _ _ _ h).1

/-! ## Who owns the buffer -/

/-- **The invariant.** Without a buffer there is no size; a buffer has at least its size, and is the only live block. -/
structure Buffer.Owned (s : Buffer) : Prop where
  null : s.mc.mpb = 0 → s.mc.mpbSize = 0
  block : s.mc.mpb ≠ 0 → s.mc.mpbSize ≤ s.size s.mc.mpb
  live : ∀ p, p ∈ s.live ↔ p = s.mc.mpb ∧ p ≠ 0

/-- What a call owes: it accesses no dead block and frees none twice, and a section it accepts has room. -/
structure LoadOk (s : Buffer) (c : Load) : Prop where
  valid : ValidOps 0 s.live (c.ops s.mc)
  room : c.ret s.mc = 0 → c.len ≤ (s.load c).mc.mpbSize

section Owned

variable {s : Buffer} {c : Load}

/-- Giving the buffer up frees the only live block. -/
theorem Buffer.Owned.freed_valid (h : s.Owned) :
    ValidOps 0 s.live (freed s.mc) ∧ liveAfter s.live (freed s.mc) = ∅ := by
  by_cases hnull : s.mc.mpb = 0
  · have hfreed : freed s.mc = [] := if_pos hnull
    rw [hfreed]
    refine ⟨trivial, Finset.eq_empty_of_forall_notMem fun p hp => ?_⟩
    obtain ⟨rfl, hp0⟩ := (h.live p).mp hp
    exact hp0 hnull
  · have hfreed : freed s.mc = [.free s.mc.mpb] := if_neg hnull
    rw [hfreed]
    refine ⟨⟨Or.inr ((h.live s.mc.mpb).mpr ⟨rfl, hnull⟩), trivial⟩, Finset.eq_empty_of_forall_notMem fun p hp => ?_⟩
    obtain ⟨hne, hp⟩ := Finset.mem_erase.mp hp
    exact hne ((h.live p).mp hp).1

/-- Giving the buffer up changes no size. -/
theorem sizesAfter_freed (size : Nat → Nat) (asked : Nat) (mc : MicrocodeAmd) (ops : List (MemOp Nat)) :
    sizesAfter size asked (freed mc ++ ops) = sizesAfter size asked ops := by
  unfold freed
  split <;> rfl

/-- **A step.** The blocks stay, the buffer is given up, or it is replaced by a block of the section's length. -/
theorem Buffer.load_cases (s : Buffer) (c : Load) :
    ((c.ret s.mc = 0 → c.len ≤ s.mc.mpbSize) ∧ s.load c = s ∧ c.ops s.mc = []) ∨
    (c.ret s.mc ≠ 0 ∧ s.load c = ⟨givenUp s.mc, liveAfter s.live (freed s.mc), s.size⟩ ∧
      c.ops s.mc = freed s.mc ++ [.ask c.len]) ∨
    (s.mc.mpbSize < c.len ∧ c.xmalloc ≠ 0 ∧ c.ret s.mc = 0 ∧
      s.load c = ⟨{ s.mc with mpb := c.xmalloc, mpbSize := c.len },
        insert c.xmalloc (liveAfter s.live (freed s.mc)), Function.update s.size c.xmalloc c.len⟩ ∧
      c.ops s.mc = freed s.mc ++ [.ask c.len, .malloc c.xmalloc]) := by
  rcases Xen.Amd.load_cases c s.mc with ⟨hret, hmc, hops⟩ | ⟨hle, -, hmc, hops⟩ | ⟨hret, hmc, hops⟩ |
    ⟨hlt, hx, hret, hmc, hops⟩
  · refine Or.inl ⟨fun h0 => absurd h0 hret, ?_, hops⟩
    rw [Buffer.load, hmc, hops]
    rfl
  · refine Or.inl ⟨fun _ => hle, ?_, hops⟩
    rw [Buffer.load, hmc, hops]
    rfl
  · refine Or.inr (Or.inl ⟨hret, ?_, hops⟩)
    rw [Buffer.load, hmc, hops, sizesAfter_freed, liveAfter_append]
    rfl
  · refine Or.inr (Or.inr ⟨hlt, hx, hret, ?_, hops⟩)
    rw [Buffer.load, hmc, hops, sizesAfter_freed, liveAfter_append]
    rfl

/-- Without a live block and a size, there is no buffer. -/
theorem Buffer.Owned.given_up (h : s.Owned) : Buffer.Owned ⟨givenUp s.mc, ∅, s.size⟩ := by
  constructor
  · intro _
    by_cases hnull : s.mc.mpb = 0
    · simp [givenUp, hnull, h.null hnull]
    · simp [givenUp, hnull]
  · intro hne
    exact absurd rfl hne
  · intro p
    simp [givenUp]

/-- A block of the size asked for is a buffer. -/
theorem owned_new (mc : MicrocodeAmd) (size : Nat → Nat) {p n : Nat} (hp : p ≠ 0) :
    Buffer.Owned ⟨{ mc with mpb := p, mpbSize := n }, insert p ∅, Function.update size p n⟩ := by
  constructor
  · intro hnull
    exact absurd hnull hp
  · intro _
    show n ≤ Function.update size p n p
    rw [Function.update_self]
  · intro q
    show q ∈ insert p ∅ ↔ q = p ∧ q ≠ 0
    simp only [Finset.mem_insert, Finset.notMem_empty, or_false]
    exact ⟨fun hq => ⟨hq, hq ▸ hp⟩, fun hq => hq.1⟩

/-- **One call** keeps the invariant. -/
theorem owned_load (h : s.Owned) : (s.load c).Owned ∧ LoadOk s c := by
  obtain ⟨hvalid, hlive⟩ := h.freed_valid
  rcases s.load_cases c with ⟨hle, hload, hops⟩ | ⟨hret, hload, hops⟩ | ⟨hlt, hx, -, hload, hops⟩
  · rw [hload]
    refine ⟨h, ?_, ?_⟩
    · rw [hops]
      trivial
    · rw [hload]
      exact hle
  · rw [hload, hlive]
    refine ⟨h.given_up, ?_, fun h0 => absurd h0 hret⟩
    rw [hops, validOps_append]
    exact ⟨hvalid, trivial, trivial⟩
  · rw [hload, hlive]
    refine ⟨owned_new s.mc s.size hx, ?_, fun _ => ?_⟩
    · rw [hops, validOps_append]
      exact ⟨hvalid, trivial, trivial, trivial⟩
    · rw [hload]

end Owned

/-- The structure without a buffer. -/
def Buffer.start (equivCpuTable equivCpuTableSize : Nat) (size : Nat → Nat) : Buffer :=
  ⟨⟨0, 0, equivCpuTable, equivCpuTableSize⟩, ∅, size⟩

/-- **The patch buffer.** In every run from `NULL`, with allocations failing anywhere, the buffer is the only live block
and at least as large as its size, no block is freed twice, and the sections accepted have room. -/
theorem buffer_owned (equivCpuTable equivCpuTableSize : Nat) (size : Nat → Nat) (cs : List Load) :
    Throughout Buffer.Owned Buffer.load (Buffer.start equivCpuTable equivCpuTableSize size) cs ∧
      Along LoadOk Buffer.load (Buffer.start equivCpuTable equivCpuTableSize size) cs := by
  have hstart : (Buffer.start equivCpuTable equivCpuTableSize size).Owned :=
    ⟨fun _ => rfl, fun hne => absurd rfl hne, fun p => by simp [Buffer.start]⟩
  have hall : Along (fun _ _ => True) Buffer.load (Buffer.start equivCpuTable equivCpuTableSize size) cs :=
    along_of_forall (fun _ _ => trivial) _ cs
  have hstep : ∀ (s : Buffer) (c : Load), s.Owned → True → (s.load c).Owned := fun s c hs _ => (owned_load hs).1
  have hok : ∀ (s : Buffer) (c : Load), s.Owned → True → LoadOk s c := fun s c hs _ => (owned_load hs).2
  exact ⟨throughout_of_along hstep hstart hall, Along.of_inv hstep hok hstart hall⟩

/-! ## The size that is checked -/

/-- **What `microcode_fits` should check** after the call: the size of the section it has accepted, so that the verdict
is that for this size. -/
structure LastSize (s : Buffer) (c : Load) : Prop where
  size : (s.load c).mc.mpbSize = c.len
  verdict : ∀ (x86 : Nat) (cpu : Cpu) (src currentCpuId : Nat),
    microcodeFits x86 { cpu with mem := cpu.mem.set src (s.load c).mc } src currentCpuId =
      microcodeFits x86 { cpu with mem := cpu.mem.set src { (s.load c).mc with mpbSize := c.len } } src currentCpuId

/-- The call succeeds. -/
def Accepted (s : Buffer) (c : Load) : Prop := c.ret s.mc = 0

instance : DecidableRel Accepted := fun s c => inferInstanceAs (Decidable (c.ret s.mc = 0))

section LastSize

variable {s : Buffer} {c : Load}

/-- After a successful call the size is the larger of the old one and the section's. -/
theorem mpbSize_load (h : Accepted s c) : (s.load c).mc.mpbSize = max s.mc.mpbSize c.len := by
  rcases s.load_cases c with ⟨hle, hload, -⟩ | ⟨hret, -, -⟩ | ⟨hlt, -, -, hload, -⟩
  · rw [hload, Nat.max_eq_left (hle h)]
  · exact absurd h hret
  · rw [hload, Nat.max_eq_right (Nat.le_of_lt hlt)]

/-- **One call.** The size is the section's exactly if it has not been larger. -/
theorem lastSize_iff (h : Accepted s c) : LastSize s c ↔ s.mc.mpbSize ≤ c.len := by
  have hsize := mpbSize_load h
  constructor
  · intro hlast
    rw [hlast.size] at hsize
    omega
  · intro hle
    have heq : (s.load c).mc.mpbSize = c.len := by omega
    refine ⟨heq, fun x86 cpu src currentCpuId => ?_⟩
    rw [← heq]

/-- **The size of the last section** is what `microcode_fits` checks after every call of a successful run, exactly if no
section is shorter than one before it. -/
theorem last_size_iff (s : Buffer) (cs : List Load) (h : Along Accepted Buffer.load s cs) :
    Along LastSize Buffer.load s cs ↔ List.IsChain (· ≤ ·) (s.mc.mpbSize :: cs.map Load.len) := by
  induction cs generalizing s with
  | nil => simp
  | cons c cs ih =>
    rw [along_cons, List.map_cons, List.isChain_cons_cons, lastSize_iff h.1, ih (s.load c) h.2]
    apply and_congr_right
    intro hle
    rw [mpbSize_load h.1, Nat.max_eq_right hle]

end LastSize

/-- A section with a length of `256 * hi + lo`. -/
def sectionOf (hi lo : UInt8) : Bytes := fun i => if i = 0 then 1 else if i = 4 then lo else if i = 5 then hi else 0

/-- A section of 100 bytes after one of 4096, which is the size then checked. -/
theorem last_size_counterexample :
    ¬ ∀ (s : Buffer) (cs : List Load), Along Accepted Buffer.load s cs → Along LastSize Buffer.load s cs := by
  intro h
  have hlast := h (Buffer.start 0 0 fun _ => 0) [⟨sectionOf 16 0, 5000, 0, 1⟩, ⟨sectionOf 0 100, 5000, 0, 2⟩]
    (by decide +kernel)
  have hsize := hlast.2.1.size
  exact absurd hsize (by decide +kernel)

/-- The two sections the other way round. -/
theorem last_size_ascending :
    Along LastSize Buffer.load (Buffer.start 0 0 fun _ => 0)
      [⟨sectionOf 0 100, 5000, 0, 1⟩, ⟨sectionOf 16 0, 5000, 0, 2⟩] :=
  (last_size_iff (Buffer.start 0 0 fun _ => 0) [⟨sectionOf 0 100, 5000, 0, 1⟩, ⟨sectionOf 16 0, 5000, 0, 2⟩]
    (by decide +kernel)).mpr (by decide +kernel)

/-! ## The header of the patch -/

/-- `sizeof(struct microcode_header_amd)`. -/
def headerSize : Nat := 64

/-- **The header is inside the block**, and with it what is read through `mpb`: `microcode_fits` and `apply_microcode`
of a CPU that holds the structure at an address apart from its blocks read nothing else there. -/
structure HeaderInside (s : Buffer) : Prop where
  notNull : s.mc.mpb ≠ 0
  room : headerSize ≤ s.size s.mc.mpb
  fits : ∀ (x86 : Nat) (cpu : Cpu) (src currentCpuId : Nat), cpu.mem.mcAmd src = s.mc → src ≠ s.mc.mpb →
    s.mc.equivCpuTable ≠ s.mc.mpb →
    (microcodeFits x86 cpu src currentCpuId).Only (MemOp.ReadsIn s.mc.mpb 0 (s.size s.mc.mpb))
  apply : ∀ (cpu : Cpu) (rev : Nat) (hwErr : Bool), cpu.mem.mcAmd cpu.mcAmd = s.mc → cpu.mcAmd ≠ s.mc.mpb →
    (applyMicrocode cpu rev hwErr).Only (MemOp.ReadsIn s.mc.mpb 0 (s.size s.mc.mpb))

section Header

variable {s : Buffer} {c : Load}

/-- An access elsewhere. -/
theorem readsIn_other {o p : Nat} (h : o ≠ p) (lo hi off len : Nat) : (MemOp.read o off len).ReadsIn p lo hi :=
  fun heq => absurd heq h

/-- A field of the header. -/
theorem header_field {off len n : Nat} (p : Nat) (hn : headerSize ≤ n) (h : off + len ≤ headerSize) :
    (MemOp.read p off len).ReadsIn p 0 n :=
  fun _ i _ hi => ⟨Nat.zero_le i, by omega⟩

/-- `microcode_fits` reads the header of the patch. -/
theorem microcodeFits_header {x86 src currentCpuId n : Nat} {cpu : Cpu} (hn : headerSize ≤ n)
    (hsrc : src ≠ (cpu.mem.mcAmd src).mpb) (htable : (cpu.mem.mcAmd src).equivCpuTable ≠ (cpu.mem.mcAmd src).mpb) :
    (microcodeFits x86 cpu src currentCpuId).Only (MemOp.ReadsIn (cpu.mem.mcAmd src).mpb 0 n) := by
  have hfield : ∀ off len, (MemOp.read src off len).ReadsIn (cpu.mem.mcAmd src).mpb 0 n := readsIn_other hsrc 0 n
  have hfind : ∀ b, (findEquivCpuId (cpu.mem.mcAmd src).equivCpuTable b currentCpuId).Only
      (MemOp.ReadsIn (cpu.mem.mcAmd src).mpb 0 n) := by
    intro b op hop
    have hof := findEquivCpuId_reads _ b currentCpuId op hop
    cases op with
    | read o off len =>
      obtain rfl : o = _ := hof
      exact readsIn_other htable 0 n off len
    | _ => exact absurd hof id
  have hrev := header_field (cpu.mem.mcAmd src).mpb hn (by decide : Fld.processorRevId + 2 ≤ headerSize)
  have hid := header_field (cpu.mem.mcAmd src).mpb hn (by decide : Fld.patchId + 4 ≤ headerSize)
  simp only [microcodeFits, Logged.only_bind, Logged.only_emit, hfield, hfind, true_and]
  split <;> simp [hfield, hrev, hid]

theorem applyMicrocode_header {rev n : Nat} {hwErr : Bool} {cpu : Cpu} (hn : headerSize ≤ n)
    (hself : cpu.mcAmd ≠ (cpu.mem.mcAmd cpu.mcAmd).mpb) :
    (applyMicrocode cpu rev hwErr).Only (MemOp.ReadsIn (cpu.mem.mcAmd cpu.mcAmd).mpb 0 n) := by
  have hfield := readsIn_other hself 0 n
  have hid := header_field (cpu.mem.mcAmd cpu.mcAmd).mpb hn (by decide : Fld.patchId + 4 ≤ headerSize)
  simp [applyMicrocode, hfield, hid]

/-- A buffer with room for the header. -/
theorem headerInside_of (hne : s.mc.mpb ≠ 0) (hroom : headerSize ≤ s.size s.mc.mpb) : HeaderInside s := by
  refine ⟨hne, hroom, fun x86 cpu src currentCpuId hmc hsrc htable => ?_, fun cpu rev hwErr hmc hself => ?_⟩
  · rw [← hmc] at hsrc htable hroom ⊢
    exact microcodeFits_header hroom hsrc htable
  · rw [← hmc] at hself hroom ⊢
    exact applyMicrocode_header hroom hself

/-- **The header of a patch accepted into a structure without a buffer** is inside its block exactly if the section is
as long as a header. -/
theorem header_inside_iff (s : Buffer) (c : Load) (hmpb : s.mc.mpb = 0) (hsize : s.mc.mpbSize = 0) :
    (c.ret s.mc = 0 → HeaderInside (s.load c)) ↔
      Refuses s.mc c.buf c.bufsize c.offset c.xmalloc ∨ headerSize ≤ readLen c.buf c.offset := by
  show _ ↔ c.Refused s.mc ∨ headerSize ≤ c.len
  by_cases hrefused : c.Refused s.mc
  · exact iff_of_true (fun h0 => absurd hrefused ((c.ret_eq_zero_iff s.mc).mp h0)) (Or.inl hrefused)
  · have hret := (c.ret_eq_zero_iff s.mc).mpr hrefused
    simp only [hret, hrefused, false_or, forall_const]
    rcases s.load_cases c with ⟨hle, hload, -⟩ | ⟨hne, -, -⟩ | ⟨-, hx, -, hload, -⟩
    · -- an empty section leaves the buffer `NULL`
      have hlen : c.len = 0 := by
        have := hle hret
        omega
      rw [hload, hlen]
      exact iff_of_false (fun h => h.notNull hmpb) (by decide)
    · exact absurd hret hne
    · have hsizeof : (s.load c).size (s.load c).mc.mpb = c.len := by
        rw [hload]
        exact Function.update_self ..
      constructor
      · intro h
        rw [← hsizeof]
        exact h.room
      · intro hlen
        apply headerInside_of
        · rw [hload]
          exact hx
        · rw [hsizeof]
          exact hlen

end Header

/-- An empty section: there is no block. -/
theorem header_inside_counterexample :
    ¬ ∀ (s : Buffer) (c : Load), s.mc.mpb = 0 → s.mc.mpbSize = 0 → c.ret s.mc = 0 → HeaderInside (s.load c) := by
  intro h
  have hinside := h (Buffer.start 0 0 fun _ => 0) ⟨sectionOf 0 0, 100, 0, 1⟩ rfl rfl (by decide +kernel)
  exact absurd hinside.notNull (by decide +kernel)

/-- A section of 64 bytes. -/
theorem header_inside_64 : HeaderInside ((Buffer.start 0 0 fun _ => 0).load ⟨sectionOf 0 64, 100, 0, 1⟩) :=
  (header_inside_iff (Buffer.start 0 0 fun _ => 0) ⟨sectionOf 0 64, 100, 0, 1⟩ rfl rfl).mpr
    (Or.inr (by decide +kernel)) (by decide +kernel)

end Xen.Amd
