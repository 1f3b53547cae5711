import Xen.Lib.Memory

/-!
# AMD microcode containers (`microcode_amd_verified.c`)

- `getUcodeFromBufferAmd`: `get_ucode_from_buffer_amd`, with the reads of the container and the heap blocks it frees
  and allocates. `section_inside_iff` says exactly when an accepted section lies in the container.
- `containerFastForward`: `container_fast_forward`, and `Container`, the grammar it is meant to accept.
  `scans_iff` says exactly for which inputs it does, whatever follows in the container.

Both functions compute addresses as `buf + *offset` on typed pointers, so that the byte they read at is 8 or 4 times
the offset, while they treat the offset itself as a number of bytes.
-/

namespace Xen.Amd

open Lib

/-! ## Data model -/

/-- `struct microcode_amd`; 0 is the pointer `NULL`. -/
structure MicrocodeAmd where
  mpb : Nat
  mpbSize : Nat
  equivCpuTable : Nat
  equivCpuTableSize : Nat
deriving DecidableEq, Repr

/-- The objects a container is read from and copied to. -/
inductive Obj where
  | buf
  | block (p : Nat)
deriving DecidableEq, Repr

/-- `sizeof(struct mpbhdr)`, the scale of `buf + *offset`. -/
def mpbhdrSize : Nat := 8

/-! ## `get_ucode_from_buffer_amd` -/

/-- Replace the patch buffer by one of `len` bytes; `xmalloc` is what `_xmalloc` returns. -/
def growMpb (mc : MicrocodeAmd) (len xmalloc : Nat) : Logged (MemOp Obj) MicrocodeAmd := do
  if mc.mpb ≠ 0 then
    Logged.emit (.free (.block mc.mpb))
  let mpbSize := if mc.mpb ≠ 0 then 0 else mc.mpbSize
  Logged.emit (.ask len)
  if xmalloc = 0 then
    return { mc with mpb := 0, mpbSize := mpbSize }
  Logged.emit (.malloc (.block xmalloc))
  return { mc with mpb := xmalloc, mpbSize := len }

/-- `get_ucode_from_buffer_amd`: the return code, the structure and `*offset` afterwards. -/
def getUcodeFromBufferAmd (mc : MicrocodeAmd) (buf : Bytes) (bufsize offset xmalloc : Nat) :
    Logged (MemOp Obj) (Int × MicrocodeAmd × Nat) := do
  let mpbuf := mpbhdrSize * offset
  if offset ≥ bufsize then
    return (-101, mc, offset)
  let type ← load .buf buf mpbuf 4
  if type ≠ 1 then
    return (-101, mc, offset)
  let len ← load .buf buf (mpbuf + 4) 4
  if (offset + len) % 2 ^ 32 > bufsize then
    return (-101, mc, offset)
  if mc.mpbSize < len then
    let mc ← growMpb mc len xmalloc
    if mc.mpb = 0 then
      return (-1, mc, offset)
    return (0, mc, (offset + len + 8) % 2 ^ 32)
  return (0, mc, (offset + len + 8) % 2 ^ 32)

/-- The length word the code reads. -/
def readLen (buf : Bytes) (offset : Nat) : Nat := leWord buf (mpbhdrSize * offset + 4) 4

/-- The length word of the section at `offset`. -/
def sectionLen (buf : Bytes) (offset : Nat) : Nat := leWord buf (offset + 4) 4

/-- The inputs that are refused: the offset is behind the container, the type is wrong, the length does not fit, or
the patch buffer cannot grow. -/
def Refuses (mc : MicrocodeAmd) (buf : Bytes) (bufsize offset xmalloc : Nat) : Prop :=
  bufsize ≤ offset ∨ leWord buf (mpbhdrSize * offset) 4 ≠ 1 ∨ bufsize < (offset + readLen buf offset) % 2 ^ 32 ∨
    mc.mpbSize < readLen buf offset ∧ xmalloc = 0

/-- What an accepted section owes: it lies in the container, so does everything that was read, and the new offset is
behind it and in the container. -/
def SectionInside (buf : Bytes) (bufsize offset : Nat) (r : Logged (MemOp Obj) (Int × MicrocodeAmd × Nat)) : Prop :=
  r.val.1 = 0 → offset + 8 + sectionLen buf offset ≤ bufsize ∧ r.Only (MemOp.ReadsIn .buf 0 bufsize) ∧
    r.val.2.2 = offset + 8 + sectionLen buf offset ∧ offset < r.val.2.2 ∧ r.val.2.2 ≤ bufsize

section GetUcode

variable (mc : MicrocodeAmd) (buf : Bytes) (bufsize offset xmalloc : Nat)

theorem growMpb_mpb (len : Nat) : (growMpb mc len xmalloc).val.mpb = xmalloc := by
  by_cases h : mc.mpb = 0 <;> by_cases hx : xmalloc = 0 <;> simp [growMpb, h, hx]

/-- The container is not read while the patch buffer grows. -/
theorem growMpb_readsIn (len lo hi : Nat) : (growMpb mc len xmalloc).Only (MemOp.ReadsIn .buf lo hi) := by
  have hfree : ∀ p, (MemOp.free (Obj.block p)).ReadsIn .buf lo hi := fun _ => trivial
  have hask : (MemOp.ask len : MemOp Obj).ReadsIn .buf lo hi := trivial
  have hmalloc : ∀ p, (MemOp.malloc (Obj.block p)).ReadsIn .buf lo hi := fun _ => trivial
  by_cases h : mc.mpb = 0 <;> by_cases hx : xmalloc = 0 <;> simp [growMpb, h, hx, hfree, hask, hmalloc]

/-- A refused input is answered by an error. -/
theorem getUcode_refused (h : Refuses mc buf bufsize offset xmalloc) :
    (getUcodeFromBufferAmd mc buf bufsize offset xmalloc).val.1 ≠ 0 := by
  simp only [getUcodeFromBufferAmd, Logged.val_bind, Logged.val_ite, Logged.val_pure, val_load, growMpb_mpb]
  split_ifs with h1 h2 h3 h4 h5
  · simp
  · simp
  · simp
  · simp
  · rcases h with h | h | h | ⟨-, h⟩
    · exact absurd h h1
    · exact absurd h h2
    · exact absurd h h3
    · exact absurd h h5
  · rcases h with h | h | h | ⟨h, -⟩
    · exact absurd h h1
    · exact absurd h h2
    · exact absurd h h3
    · exact absurd h h4

/-- An accepted input reads the two header words and moves on behind them. -/
theorem getUcode_accepted (h : ¬Refuses mc buf bufsize offset xmalloc) :
    (getUcodeFromBufferAmd mc buf bufsize offset xmalloc).val.1 = 0 ∧
      (getUcodeFromBufferAmd mc buf bufsize offset xmalloc).val.2.2 = (offset + readLen buf offset + 8) % 2 ^ 32 ∧
      ((getUcodeFromBufferAmd mc buf bufsize offset xmalloc).Only (MemOp.ReadsIn .buf 0 bufsize) ↔
        mpbhdrSize * offset + 8 ≤ bufsize) := by
  simp only [Refuses, not_or] at h
  obtain ⟨h1, h2, h3, h4⟩ := h
  have hreads : ((MemOp.read Obj.buf (mpbhdrSize * offset) 4).ReadsIn .buf 0 bufsize ∧
      (MemOp.read Obj.buf (mpbhdrSize * offset + 4) 4).ReadsIn .buf 0 bufsize) ↔
      mpbhdrSize * offset + 8 ≤ bufsize := by
    rw [MemOp.readsIn_read (by decide), MemOp.readsIn_read (by decide)]
    simp only [forall_const, Nat.zero_le, true_and]
    omega
  rw [← hreads]
  unfold readLen at *
  by_cases hlt : mc.mpbSize < leWord buf (mpbhdrSize * offset + 4) 4
  · have hx : xmalloc ≠ 0 := fun hx => h4 ⟨hlt, hx⟩
    simp only [getUcodeFromBufferAmd, if_neg h1, if_neg h2, if_neg h3, if_pos hlt, if_neg hx, Logged.val_bind,
      Logged.val_pure, val_load, growMpb_mpb, Logged.only_bind, Logged.only_pure, only_load, growMpb_readsIn, and_true]
  · simp only [getUcodeFromBufferAmd, if_neg h1, if_neg h2, if_neg h3, if_neg hlt, Logged.val_bind, Logged.val_pure,
      val_load, Logged.only_bind, Logged.only_pure, only_load, and_true]

/-- **Accepted sections.** The section, the header reads and the new offset are as they should be exactly if the input
is refused, or the header is read inside the container, shows the section's own length, and the section fits. -/
theorem section_inside_iff (hbuf : bufsize < 2 ^ 32) :
    SectionInside buf bufsize offset (getUcodeFromBufferAmd mc buf bufsize offset xmalloc) ↔
      Refuses mc buf bufsize offset xmalloc ∨
        mpbhdrSize * offset + 8 ≤ bufsize ∧ readLen buf offset = sectionLen buf offset ∧
          offset + 8 + sectionLen buf offset ≤ bufsize := by
  by_cases h : Refuses mc buf bufsize offset xmalloc
  · exact iff_of_true (fun h0 => absurd h0 (getUcode_refused _ _ _ _ _ h)) (Or.inl h)
  · obtain ⟨hret, hoff, hreads⟩ := getUcode_accepted _ _ _ _ _ h
    have hlen : readLen buf offset < 2 ^ 32 := leWord_lt _ _ _
    have hlen' : sectionLen buf offset < 2 ^ 32 := leWord_lt _ _ _
    simp only [SectionInside, hret, hoff, hreads, h, forall_const, false_or]
    constructor
    · rintro ⟨hfit, hin, heq, -⟩
      exact ⟨hin, by omega, hfit⟩
    · rintro ⟨hin, heq, hfit⟩
      have hnew : (offset + readLen buf offset + 8) % 2 ^ 32 = offset + 8 + sectionLen buf offset := by
        rw [Nat.mod_eq_of_lt (by omega)]
        omega
      exact ⟨hfit, hin, hnew, by omega, by omega⟩

end GetUcode

/-- A section whose data ends with the container leaves no room for its header. -/
theorem section_inside_counterexample :
    ¬ ∀ (mc : MicrocodeAmd) (buf : Bytes) (bufsize offset xmalloc : Nat), bufsize < 2 ^ 32 →
      SectionInside buf bufsize offset (getUcodeFromBufferAmd mc buf bufsize offset xmalloc) := by
  intro h
  have hbad := h ⟨1, 16, 0, 0⟩ (fun i => if i = 0 then 1 else if i = 4 then 16 else 0) 16 0 0 (by decide)
  have hfit := (hbad (by decide +kernel)).1
  exact absurd hfit (by decide +kernel)

/-- The same section in a container of 24 bytes is accepted as it should be. -/
theorem section_inside_example :
    SectionInside (fun i => if i = 0 then 1 else if i = 4 then 16 else 0) 24 0
      (getUcodeFromBufferAmd ⟨1, 16, 0, 0⟩ (fun i => if i = 0 then 1 else if i = 4 then 16 else 0) 24 0 0) :=
  (section_inside_iff _ _ _ _ _ (by decide)).mpr (Or.inr (by decide +kernel))

/-! ## `container_fast_forward` -/

/-- `UCODE_MAGIC`, the first word of a container. -/
def ucodeMagic : Nat := 0x00414d44

/-- The locals at the head of the loop: what is left of the buffer, and `*offset`. -/
structure Scan where
  sizeLeft : Nat
  offset : Nat
deriving DecidableEq, Repr

/-- One iteration; `data + *offset` counts elements of `scale` bytes. -/
def fastForwardStep (scale : Nat) (data : Bytes) (s : Scan) : Logged (MemOp Obj) (Iter Scan (Int × Nat)) := do
  if s.sizeLeft < 8 then
    return .leave (-101, s.offset)
  let header := scale * s.offset
  let word0 ← load .buf data header 4
  if word0 = ucodeMagic then
    let word1 ← load .buf data (header + 4) 4
    if word1 = 0 then
      return .leave (0, s.offset)
    return .leave (-101, s.offset)
  if word0 ≠ 1 then
    return .leave (-101, s.offset)
  let word1 ← load .buf data (header + 4) 4
  let size := (word1 + 8) % 2 ^ 32
  if size < 32 ∨ s.sizeLeft < size then
    return .leave (-101, s.offset)
  let offset := (s.offset + size) % 2 ^ 32
  if s.sizeLeft - size = 0 then
    return .leave (-4, offset)
  return .next ⟨s.sizeLeft - size, offset⟩

/-- The loop of `container_fast_forward` with elements of `scale` bytes: the return code and `*offset` afterwards. -/
def fastForward (scale : Nat) (data : Bytes) (sizeLeft offset : Nat) : Logged (MemOp Obj) (Option (Int × Nat)) :=
  loop (fastForwardStep scale data) (sizeLeft + 1) ⟨sizeLeft, offset⟩

/-- `container_fast_forward`: `data` points to words of four bytes. -/
def containerFastForward (data : Bytes) (sizeLeft offset : Nat) : Logged (MemOp Obj) (Option (Int × Nat)) :=
  fastForward 4 data sizeLeft offset

/-- **The grammar.** From `off`, with `left` bytes: patch sections, each followed by more data, and then the words that
open the next container, at `stop`. -/
inductive Container (data : Bytes) : (off left stop : Nat) → Prop where
  | stop {off left : Nat} (hleft : 8 ≤ left) (h0 : leWord data off 4 = ucodeMagic) (h1 : leWord data (off + 4) 4 = 0) :
      Container data off left off
  | patch {off left len stop : Nat} (h0 : leWord data off 4 = 1) (hlen : leWord data (off + 4) 4 = len)
      (hmin : 32 ≤ len + 8) (hwrap : len + 8 < 2 ^ 32) (hmore : len + 8 < left)
      (rest : Container data (off + (len + 8)) (left - (len + 8)) stop) : Container data off left stop

/-- The scan accepts exactly the grammar, ends at the words that close it, and reads only what is left. -/
def Scans (data : Bytes) (sizeLeft offset : Nat) (r : Logged (MemOp Obj) (Option (Int × Nat))) : Prop :=
  (∃ ret stop, r.val = some (ret, stop) ∧ (ret = 0 ↔ ∃ stop, Container data offset sizeLeft stop) ∧
    (ret = 0 → Container data offset sizeLeft stop)) ∧ r.Only (MemOp.ReadsIn .buf offset (offset + sizeLeft))

/-- The words the iteration reads. -/
def Scan.word (scale : Nat) (data : Bytes) (s : Scan) (k : Nat) : Nat := leWord data (scale * s.offset + 4 * k) 4

/-- The size of the section the iteration sees. -/
def Scan.size (scale : Nat) (data : Bytes) (s : Scan) : Nat := (s.word scale data 1 + 8) % 2 ^ 32

section FastForward

variable {scale : Nat} {data : Bytes} {s : Scan}

/-- **One iteration.** It refuses a short rest, finds the words it looks for, refuses a section, or goes behind it. -/
theorem fastForwardStep_cases (scale : Nat) (data : Bytes) (s : Scan) :
    (s.sizeLeft < 8 ∧ (fastForwardStep scale data s).val = .leave (-101, s.offset)) ∨
    (8 ≤ s.sizeLeft ∧ s.word scale data 0 = ucodeMagic ∧ s.word scale data 1 = 0 ∧
      (fastForwardStep scale data s).val = .leave (0, s.offset)) ∨
    (8 ≤ s.sizeLeft ∧ ¬(s.word scale data 0 = ucodeMagic ∧ s.word scale data 1 = 0) ∧
      (s.word scale data 0 = 1 → s.size scale data < 32 ∨ s.sizeLeft ≤ s.size scale data) ∧
      ∃ ret offset, ret ≠ 0 ∧ (fastForwardStep scale data s).val = .leave (ret, offset)) ∨
    (s.word scale data 0 = 1 ∧ 32 ≤ s.size scale data ∧ s.size scale data < s.sizeLeft ∧
      (fastForwardStep scale data s).val =
        .next ⟨s.sizeLeft - s.size scale data, (s.offset + s.size scale data) % 2 ^ 32⟩) := by
  have hmagic : ucodeMagic ≠ 1 := by decide
  unfold Scan.size Scan.word
  simp only [fastForwardStep, Logged.val_bind, Logged.val_ite, Logged.val_pure, val_load, Nat.mul_zero, Nat.add_zero,
    Nat.mul_one]
  split_ifs with h1 h2 h3 h4 h5 h6
  · exact Or.inl ⟨h1, rfl⟩
  · exact Or.inr (Or.inl ⟨by omega, h2, h3, rfl⟩)
  · exact Or.inr (Or.inr (Or.inl ⟨by omega, fun h => h3 h.2, fun h => absurd (h2 ▸ h) hmagic, _, _, by decide, rfl⟩))
  · exact Or.inr (Or.inr (Or.inl ⟨by omega, fun h => h2 h.1, fun h => absurd h h4, _, _, by decide, rfl⟩))
  · exact Or.inr (Or.inr (Or.inl ⟨by omega, fun h => h2 h.1, fun _ => by omega, _, _, by decide, rfl⟩))
  · exact Or.inr (Or.inr (Or.inl ⟨by omega, fun h => h2 h.1, fun _ => by omega, _, _, by decide, rfl⟩))
  · exact Or.inr (Or.inr (Or.inr ⟨Decidable.not_not.mp h4, by omega, by omega, rfl⟩))

/-- An iteration reads two words, and none of a short rest. -/
theorem fastForwardStep_reads (scale : Nat) (data : Bytes) (s : Scan) :
    (fastForwardStep scale data s).Only fun op => 8 ≤ s.sizeLeft ∧
      op.ReadsIn .buf (scale * s.offset) (scale * s.offset + 8) := by
  have h0 : (MemOp.read Obj.buf (scale * s.offset) 4).ReadsIn .buf (scale * s.offset) (scale * s.offset + 8) :=
    (MemOp.readsIn_read (by decide)).mpr fun _ => by omega
  have h1 : (MemOp.read Obj.buf (scale * s.offset + 4) 4).ReadsIn .buf (scale * s.offset) (scale * s.offset + 8) :=
    (MemOp.readsIn_read (by decide)).mpr fun _ => by omega
  by_cases h8 : s.sizeLeft < 8
  · simp [fastForwardStep, h8]
  · have h8' : 8 ≤ s.sizeLeft := Nat.le_of_not_lt h8
    simp only [fastForwardStep, Logged.only_bind, Logged.only_ite, Logged.only_pure, only_load, h0, h1, h8', and_self,
      implies_true]

/-- Where the offset is 0 or the rest is short, the scale of the addresses does not matter. -/
theorem fastForwardStep_scale (scale : Nat) (data : Bytes) (h : s.sizeLeft < 8 ∨ s.offset = 0) :
    fastForwardStep scale data s = fastForwardStep 1 data s := by
  rcases h with h | h
  · simp only [fastForwardStep, if_pos h]
  · simp only [fastForwardStep, h, Nat.mul_zero]

end FastForward

/-! ### The grammar -/

theorem Container.eight_le {data : Bytes} {off left stop : Nat} (h : Container data off left stop) : 8 ≤ left := by
  cases h with
  | stop hleft => exact hleft
  | patch h0 hlen hmin hwrap hmore rest => omega

/-- The grammar from `off`, by its first words. -/
theorem container_iff {data : Bytes} {off left stop : Nat} : Container data off left stop ↔
    8 ≤ left ∧ ((leWord data off 4 = ucodeMagic ∧ leWord data (off + 4) 4 = 0 ∧ stop = off) ∨
      (leWord data off 4 = 1 ∧ 32 ≤ leWord data (off + 4) 4 + 8 ∧ leWord data (off + 4) 4 + 8 < 2 ^ 32 ∧
        leWord data (off + 4) 4 + 8 < left ∧
        Container data (off + (leWord data (off + 4) 4 + 8)) (left - (leWord data (off + 4) 4 + 8)) stop)) := by
  constructor
  · intro h
    refine ⟨h.eight_le, ?_⟩
    cases h with
    | stop hleft h0 h1 => exact Or.inl ⟨h0, h1, rfl⟩
    | patch h0 hlen hmin hwrap hmore rest =>
      subst hlen
      exact Or.inr ⟨h0, hmin, hwrap, hmore, rest⟩
  · rintro ⟨h8, ⟨h0, h1, rfl⟩ | ⟨h0, hmin, hwrap, hmore, rest⟩⟩
    · exact .stop h8 h0 h1
    · exact .patch h0 rfl hmin hwrap hmore rest

/-- A section of the grammar, with the size computed as the code does it. -/
theorem container_section {data : Bytes} {off left stop size : Nat} (h0 : leWord data off 4 = 1)
    (hsize : (leWord data (off + 4) 4 + 8) % 2 ^ 32 = size) (hmin : 32 ≤ size) (hlt : size < left) :
    Container data off left stop ↔ Container data (off + size) (left - size) stop := by
  have hmagic : (1 : Nat) ≠ ucodeMagic := by decide
  have hw := leWord_lt data (off + 4) 4
  have hsum : leWord data (off + 4) 4 + 8 = size := by omega
  rw [container_iff, h0, hsum]
  constructor
  · rintro ⟨-, ⟨h, -⟩ | ⟨-, -, -, -, h⟩⟩
    · exact absurd h hmagic
    · exact h
  · intro h
    exact ⟨by omega, Or.inr ⟨rfl, hmin, by omega, hlt, h⟩⟩

/-- Words that open neither a container nor a section with more data behind it are not in the grammar. -/
theorem container_other {data : Bytes} {off left stop : Nat}
    (hno : ¬(leWord data off 4 = ucodeMagic ∧ leWord data (off + 4) 4 = 0))
    (hsize : leWord data off 4 = 1 → (leWord data (off + 4) 4 + 8) % 2 ^ 32 < 32 ∨
      left ≤ (leWord data (off + 4) 4 + 8) % 2 ^ 32) : ¬Container data off left stop := by
  rw [container_iff]
  rintro ⟨-, ⟨h0, h1, -⟩ | ⟨h0, hmin, hwrap, hmore, -⟩⟩
  · exact hno ⟨h0, h1⟩
  · rw [Nat.mod_eq_of_lt hwrap] at hsize
    have := hsize h0
    omega

section Scans

variable {scale : Nat} {data : Bytes} {fuel left off : Nat}

/-- A scan that ends in its first iteration. -/
theorem scans_of_leave {ret : Int} {stop : Nat} (h : (fastForwardStep scale data ⟨left, off⟩).val = .leave (ret, stop))
    (hin : (fastForwardStep scale data ⟨left, off⟩).Only (MemOp.ReadsIn .buf off (off + left)))
    (hiff : ret = 0 ↔ ∃ stop, Container data off left stop) (hstop : ret = 0 → Container data off left stop) :
    Scans data left off (loop (fastForwardStep scale data) (fuel + 1) ⟨left, off⟩) := by
  have hstep : fastForwardStep scale data ⟨left, off⟩ =
      ⟨.leave (ret, stop), (fastForwardStep scale data ⟨left, off⟩).log⟩ := Logged.ext h rfl
  rw [loop_eq_of_leave hstep]
  exact ⟨⟨ret, stop, rfl, hiff, hstop⟩, hin⟩

/-- A scan that goes on behind a section. -/
theorem scans_of_next {size : Nat}
    (h : (fastForwardStep scale data ⟨left, off⟩).val = .next ⟨left - size, off + size⟩) (hlt : size < left)
    (hin : (fastForwardStep scale data ⟨left, off⟩).Only (MemOp.ReadsIn .buf off (off + left)))
    (hiff : ∀ stop, Container data off left stop ↔ Container data (off + size) (left - size) stop)
    (hrest : Scans data (left - size) (off + size) (loop (fastForwardStep scale data) fuel ⟨left - size, off + size⟩)) :
    Scans data left off (loop (fastForwardStep scale data) (fuel + 1) ⟨left, off⟩) := by
  have hstep : fastForwardStep scale data ⟨left, off⟩ =
      ⟨.next ⟨left - size, off + size⟩, (fastForwardStep scale data ⟨left, off⟩).log⟩ := Logged.ext h rfl
  rw [loop_eq_of_next hstep]
  obtain ⟨⟨ret, stop, hval, hret, hstop⟩, hreads⟩ := hrest
  refine ⟨⟨ret, stop, hval, by simpa only [hiff] using hret, fun h0 => (hiff stop).mpr (hstop h0)⟩, fun op hop => ?_⟩
  rcases List.mem_append.mp hop with hop | hop
  · exact hin op hop
  · exact (hreads op hop).mono (by omega) (by omega)

/-- **What the scan is for.** With addresses in bytes, and as long as the offset does not wrap, it accepts exactly the
grammar. -/
theorem scans_bytes {data : Bytes} : ∀ {fuel left off : Nat}, left < fuel → (left < 8 ∨ off + left ≤ 2 ^ 32) →
    Scans data left off (loop (fastForwardStep 1 data) fuel ⟨left, off⟩)
  | 0, _, _, h, _ => absurd h (Nat.not_lt_zero _)
  | fuel + 1, left, off, hfuel, hwrap => by
    have hin : (fastForwardStep 1 data ⟨left, off⟩).Only (MemOp.ReadsIn .buf off (off + left)) := fun op hop => by
      obtain ⟨h8, hr⟩ := fastForwardStep_reads 1 data ⟨left, off⟩ op hop
      simp only at h8 hr
      exact hr.mono (by omega) (by omega)
    have hcases := fastForwardStep_cases 1 data ⟨left, off⟩
    simp only [Scan.size, Scan.word, Nat.one_mul, Nat.mul_zero, Nat.add_zero, Nat.mul_one] at hcases
    rcases hcases with ⟨h8, hr⟩ | ⟨h8, h0, h1, hr⟩ | ⟨h8, hno, hsize, ret, stop, hne, hr⟩ | ⟨h0, hmin, hlt, hr⟩
    · have hnone : ¬∃ stop, Container data off left stop := fun ⟨stop, h⟩ => absurd h.eight_le (by omega)
      exact scans_of_leave hr hin ⟨fun h => absurd h (by decide), fun h => absurd h hnone⟩ fun h => absurd h (by decide)
    · exact scans_of_leave hr hin ⟨fun _ => ⟨off, .stop h8 h0 h1⟩, fun _ => rfl⟩ fun _ => .stop h8 h0 h1
    · have hnone : ¬∃ stop, Container data off left stop := fun ⟨stop, h⟩ => container_other hno hsize h
      exact scans_of_leave hr hin ⟨fun h => absurd h hne, fun h => absurd h hnone⟩ fun h => absurd h hne
    · rw [Nat.mod_eq_of_lt (by omega : off + _ < 2 ^ 32)] at hr
      exact scans_of_next hr hlt hin (fun stop => container_section h0 rfl hmin hlt)
        (scans_bytes (by omega) (Or.inr (by omega)))

end Scans

/-! ### What the code accepts -/

/-- The inputs on which no header behind offset 0 is read: less than a header is left, or the scan starts at offset 0
and does not see a patch section there with at least a header behind it. -/
def ScanSafe (data : Bytes) (sizeLeft offset : Nat) : Prop :=
  sizeLeft < 8 ∨ offset = 0 ∧ ¬(leWord data 0 4 = 1 ∧ 32 ≤ (leWord data 4 4 + 8) % 2 ^ 32 ∧
    (leWord data 4 4 + 8) % 2 ^ 32 + 8 ≤ sizeLeft)

/-- On these inputs the code reads where a scan with addresses in bytes reads. -/
theorem containerFastForward_eq {data : Bytes} {left off : Nat} (h : ScanSafe data left off) :
    containerFastForward data left off = fastForward 1 data left off := by
  have hinv : ∀ t, Heads (fastForwardStep 1 data) ⟨left, off⟩ t → t.sizeLeft < 8 ∨ t = ⟨left, off⟩ := fun t ht =>
    ht.inv (I := fun t => t.sizeLeft < 8 ∨ t = ⟨left, off⟩) (fun s u hs hu => by
      have hcases := fastForwardStep_cases 1 data s
      rw [hu] at hcases
      simp only [reduceCtorEq, and_false, exists_const, false_or] at hcases
      obtain ⟨h0, hmin, hlt, hnext⟩ := hcases
      cases hnext
      rcases hs with hs | rfl
      · omega
      · rcases h with h | ⟨rfl, hno⟩
        · simp only at hlt
          omega
        · simp only [Scan.size, Scan.word, Nat.mul_zero, Nat.add_zero, Nat.mul_one, Nat.zero_add] at h0 hmin hlt ⊢
          omega) (Or.inr rfl)
  refine loop_congr fun t ht => fastForwardStep_scale 4 data ?_
  rcases hinv t ht with ht | rfl
  · exact Or.inl ht
  · rcases h with h | ⟨h, -⟩
    · exact Or.inl h
    · exact Or.inr h

/-- The contents `base` with the first bytes of a container at `k`. -/
def magicAt (base : Bytes) (k : Nat) : Bytes := fun i =>
  if i = k then 0x44 else if i = k + 1 then 0x4d else if i = k + 2 then 0x41 else base i

/-- The words that open a container are at `k`. -/
theorem magicAt_words (base : Bytes) (k : Nat) (hbase : ∀ i, k ≤ i → base i = 0) :
    leWord (magicAt base k) k 4 = ucodeMagic ∧ leWord (magicAt base k) (k + 4) 4 = 0 := by
  constructor <;> simp [leWord, magicAt, hbase, ucodeMagic, Nat.add_assoc]

/-- There is nothing but zeros behind them. -/
theorem magicAt_behind (base : Bytes) (k : Nat) {i : Nat} (hbase : ∀ i, k ≤ i → base i = 0) (hi : k + 3 ≤ i) :
    leWord (magicAt base k) i 4 = 0 := by
  have hz : ∀ n, magicAt base k (i + n) = 0 := fun n => by
    unfold magicAt
    rw [if_neg (by omega), if_neg (by omega), if_neg (by omega)]
    exact hbase _ (by omega)
  have h0 := hz 0
  rw [Nat.add_zero] at h0
  simp [leWord, Nat.add_assoc, h0, hz]

/-- A scan whose first word is 0 ends with an error. -/
theorem fastForward_zero (fuel left : Nat) {scale off : Nat} {data : Bytes} (h : leWord data (scale * off) 4 = 0) :
    ∃ ret stop, ret ≠ 0 ∧ (loop (fastForwardStep scale data) (fuel + 1) ⟨left, off⟩).val = some (ret, stop) := by
  have hmagic : (0 : Nat) ≠ ucodeMagic := by decide
  have hcases := fastForwardStep_cases scale data ⟨left, off⟩
  simp only [Scan.word, Nat.mul_zero, Nat.add_zero, h] at hcases
  rcases hcases with ⟨-, hr⟩ | ⟨-, h0, -⟩ | ⟨-, -, -, ret, stop, hne, hr⟩ | ⟨h0, -⟩
  · exact ⟨_, _, by decide, loop_leave hr⟩
  · exact absurd h0 hmagic
  · exact ⟨_, _, hne, loop_leave hr⟩
  · cases h0

/-- An error on an input of the grammar. -/
theorem not_scans {data : Bytes} {left off stop stop' : Nat} {ret : Int} {r : Logged (MemOp Obj) (Option (Int × Nat))}
    (hval : r.val = some (ret, stop)) (hne : ret ≠ 0) (hc : Container data off left stop') :
    ¬Scans data left off r := by
  rintro ⟨⟨ret', stop'', hval', hiff, -⟩, -⟩
  rw [hval, Option.some.injEq, Prod.mk.injEq] at hval'
  exact hne (hval'.1.trans (hiff.mpr ⟨stop', hc⟩))

/-- A container that opens at an offset other than 0 is not found. -/
theorem not_scans_offset {left off : Nat} (hleft : 8 ≤ left) (hoff : off ≠ 0) :
    ¬Scans (magicAt (fun _ => 0) off) left off (containerFastForward (magicAt (fun _ => 0) off) left off) := by
  obtain ⟨h0, h1⟩ := magicAt_words (fun _ => 0) off fun _ _ => rfl
  have hzero : leWord (magicAt (fun _ => 0) off) (4 * off) 4 = 0 :=
    magicAt_behind (fun _ => 0) off (fun _ _ => rfl) (by omega)
  obtain ⟨ret, stop, hne, hval⟩ := fastForward_zero left left hzero
  exact not_scans hval hne (.stop hleft h0 h1)

/-- A container that opens behind a patch section is not found. -/
theorem not_scans_patch (base : Bytes) (left size : Nat) (hbase : ∀ i, size ≤ i → base i = 0)
    (h0 : leWord base 0 4 = 1) (hsize : (leWord base 4 4 + 8) % 2 ^ 32 = size) (hmin : 32 ≤ size)
    (hleft : size + 8 ≤ left) :
    ¬Scans (magicAt base size) left 0 (containerFastForward (magicAt base size) left 0) := by
  have hsame : ∀ i < size, magicAt base size i = base i := fun i hi => by
    unfold magicAt
    rw [if_neg (by omega), if_neg (by omega), if_neg (by omega)]
  have hw0 : leWord (magicAt base size) 0 4 = leWord base 0 4 := leWord_congr fun n hn => hsame _ (by omega)
  have hw1 : leWord (magicAt base size) 4 4 = leWord base 4 4 := leWord_congr fun n hn => hsame _ (by omega)
  obtain ⟨hm0, hm1⟩ := magicAt_words base size hbase
  have hlt : size < 2 ^ 32 := by omega
  -- the first iteration goes on to the section's end
  have hcases := fastForwardStep_cases 4 (magicAt base size) ⟨left, 0⟩
  simp only [Scan.size, Scan.word, Nat.mul_zero, Nat.add_zero, Nat.mul_one, Nat.zero_add, hw0, hw1, h0, hsize] at hcases
  have hmagic : (1 : Nat) ≠ ucodeMagic := by decide
  have hnext : (fastForwardStep 4 (magicAt base size) ⟨left, 0⟩).val = .next ⟨left - size, size⟩ := by
    rcases hcases with ⟨h, -⟩ | ⟨-, h, -⟩ | ⟨-, -, h, -⟩ | ⟨-, -, -, hr⟩
    · omega
    · exact absurd h hmagic
    · have := h trivial
      omega
    · rwa [Nat.mod_eq_of_lt hlt] at hr
  -- the second one reads at four times that offset
  have hpos : 0 < left := by omega
  have hzero : leWord (magicAt base size) (4 * size) 4 = 0 := magicAt_behind base size hbase (by omega)
  obtain ⟨ret, stop, hne, hval⟩ := fastForward_zero (left - 1) (left - size) hzero
  rw [Nat.sub_add_cancel hpos, ← loop_next hnext] at hval
  have hc : Container (magicAt base size) 0 left size := by
    rw [container_section (by rw [hw0, h0]) (by rw [Nat.zero_add, hw1, hsize]) hmin (by omega), Nat.zero_add]
    exact .stop (by omega) hm0 hm1
  exact not_scans hval hne hc

/-- **Which containers are scanned as they should be.** Given where the scan starts, how much is left and the first
header if it starts at offset 0, `container_fast_forward` accepts exactly the grammar whatever else the container
holds, exactly if no header behind offset 0 is read. -/
theorem scans_iff (data : Bytes) (sizeLeft offset : Nat) (h : sizeLeft < 2 ^ 32) :
    (∀ data', (offset = 0 → ∀ i < 8, data' i = data i) →
      Scans data' sizeLeft offset (containerFastForward data' sizeLeft offset)) ↔ ScanSafe data sizeLeft offset := by
  constructor
  · intro hall
    by_contra hsafe
    simp only [ScanSafe, not_or, not_and, Nat.not_lt, Classical.not_imp, Decidable.not_not] at hsafe
    obtain ⟨h8, hpatch⟩ := hsafe
    by_cases hoff : offset = 0
    · obtain ⟨h0, hmin, hleft⟩ := hpatch hoff
      subst hoff
      have hw : ∀ i k, i + k ≤ 8 → leWord (fun i => if i < 8 then data i else 0) i k = leWord data i k :=
        fun i k hik => leWord_congr fun n hn => if_pos (by omega)
      refine not_scans_patch (fun i => if i < 8 then data i else 0) sizeLeft ((leWord data 4 4 + 8) % 2 ^ 32)
        (fun i hi => if_neg (by omega)) ?_ ?_ hmin hleft (hall _ fun _ i hi => ?_)
      · rw [hw 0 4 (by decide), h0]
      · rw [hw 4 4 (by decide)]
      · unfold magicAt
        rw [if_neg (by omega), if_neg (by omega), if_neg (by omega)]
        exact if_pos hi
    · exact not_scans_offset h8 hoff (hall _ fun h0 => absurd h0 hoff)
  · intro hsafe data' hsame
    have hsafe' : ScanSafe data' sizeLeft offset := by
      rcases hsafe with h8 | ⟨rfl, hno⟩
      · exact Or.inl h8
      · have hw : ∀ i k, i + k ≤ 8 → leWord data' i k = leWord data i k :=
          fun i k hik => leWord_congr fun n hn => hsame rfl _ (by omega)
        exact Or.inr ⟨rfl, by rwa [hw 0 4 (by decide), hw 4 4 (by decide)]⟩
    rw [containerFastForward_eq hsafe']
    apply scans_bytes (Nat.lt_succ_self sizeLeft)
    rcases hsafe with h8 | ⟨rfl, -⟩
    · exact Or.inl h8
    · exact Or.inr (by omega)

/-- One patch section of 32 bytes and the next container behind it. -/
theorem scans_counterexample :
    ¬ ∀ (data : Bytes) (sizeLeft offset : Nat), sizeLeft < 2 ^ 32 →
      Scans data sizeLeft offset (containerFastForward data sizeLeft offset) := fun h =>
  not_scans_patch (fun i => if i = 0 then 1 else if i = 4 then 24 else 0) 40 32
    (fun i hi => by rw [if_neg (by omega), if_neg (by omega)]) (by decide +kernel) (by decide +kernel) (by decide)
    (by decide) (h _ _ _ (by decide))

/-- A container that opens where the scan starts, at offset 0. -/
theorem scans_magic : Scans (magicAt (fun _ => 0) 0) 8 0 (containerFastForward (magicAt (fun _ => 0) 0) 8 0) :=
  (scans_iff (magicAt (fun _ => 0) 0) 8 0 (by decide)).mpr (Or.inr ⟨rfl, by decide +kernel⟩) _ fun _ _ _ => rfl

end Xen.Amd
