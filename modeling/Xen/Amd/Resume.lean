import Xen.Amd.Container

/-!
# Who owns the cached AMD patch (`microcode_amd_verified.c`)

- `findEquivCpuId`, `verifyPatchSize`, `microcodeFits`, `microcodeResumeMatch` and `applyMicrocode`, with every access
  to a heap block logged. What the allocators, `cpuid_eax` and the revision register deliver are parameters.
- `Sys` is a CPU with the live blocks; a run is a list of `Call`s. `Sys.Owned` is the invariant: the cached pointer is
  `NULL` or points to a live structure with live blocks.
- `microcodeResumeMatch` frees the cached structure and never stores the new one in its place. `ownership_of_safe`:
  in a run without such a call the invariant holds throughout and every access is valid.

`struct microcode_amd` is laid out with 64-bit pointers.
-/

namespace Xen.Amd

open Lib

/-! ## Data model -/

namespace Fld

@[simp] abbrev mpb : Nat := 0
@[simp] abbrev mpbSize : Nat := 8
@[simp] abbrev equivCpuTable : Nat := 16
@[simp] abbrev equivCpuTableSize : Nat := 24

/-- `sizeof(struct equiv_cpu_entry)`; `installed_cpu` is at offset 0. -/
@[simp] abbrev entrySize : Nat := 16
@[simp] abbrev equivCpu : Nat := 12

/-! `struct microcode_header_amd` -/

@[simp] abbrev patchId : Nat := 4
@[simp] abbrev processorRevId : Nat := 24

end Fld

/-- The memory: the structures and the bytes of the other blocks, by pointer. -/
structure Mem where
  mcAmd : Nat → MicrocodeAmd
  bytes : Nat → Bytes

/-- Overwrite the structure at `p`. -/
def Mem.set (mem : Mem) (p : Nat) (mc : MicrocodeAmd) : Mem := { mem with mcAmd := Function.update mem.mcAmd p mc }

/-- The CPU's `struct ucode_cpu_info` and the memory: `cpu_sig.rev` and `mc.h.mc_amd`. -/
structure Cpu where
  mem : Mem
  rev : Nat
  mcAmd : Nat

/-! ## `find_equiv_cpu_id`, `verify_patch_size`, `microcode_fits` -/

/-- One iteration over the entries of the table at `table`. -/
def findEquivStep (table : Nat) (b : Bytes) (currentCpuId i : Nat) : Logged (MemOp Nat) (Iter Nat (Option Nat)) := do
  let installedCpu ← load table b (Fld.entrySize * i) 4
  if installedCpu = 0 then
    return .leave none
  if currentCpuId = installedCpu then
    let equivCpu ← load table b (Fld.entrySize * i + Fld.equivCpu) 2
    return .leave (some equivCpu)
  return .next ((i + 1) % 2 ^ 32)

/-- `find_equiv_cpu_id`. The index wraps, so a search over `2 ^ 32` entries without an end never returns: `none`. -/
def findEquivCpuId (table : Nat) (b : Bytes) (currentCpuId : Nat) : Logged (MemOp Nat) (Option (Option Nat)) :=
  if table = 0 then pure (some none) else loop (findEquivStep table b currentCpuId) (2 ^ 32) 0

/-- `verify_patch_size`; `x86` is the boot CPU's family. -/
def verifyPatchSize (x86 patchSize : Nat) : Bool :=
  let maxSize :=
    match x86 with
    | 0x14 => 1824
    | 0x15 => 4096
    | 0x16 => 3458
    | 0x17 => 3200
    | _ => 2048
  patchSize ≤ maxSize

/-- `microcode_fits`; `none` if the search for the equivalent CPU never returns. -/
def microcodeFits (x86 : Nat) (s : Cpu) (src currentCpuId : Nat) : Logged (MemOp Nat) (Option Bool) := do
  let mc := s.mem.mcAmd src
  Logged.emit (.read src Fld.mpb 8)
  Logged.emit (.read src Fld.equivCpuTable 8)
  match ← findEquivCpuId mc.equivCpuTable (s.mem.bytes mc.equivCpuTable) currentCpuId with
  | none => return none
  | some none => return some false
  | some (some equivCpuId) =>
    let processorRevId ← load mc.mpb (s.mem.bytes mc.mpb) Fld.processorRevId 2
    if processorRevId ≠ equivCpuId then
      return some false
    Logged.emit (.read src Fld.mpbSize 4)
    if !verifyPatchSize x86 mc.mpbSize then
      return some false
    let patchId ← load mc.mpb (s.mem.bytes mc.mpb) Fld.patchId 4
    return some (decide (s.rev < patchId))

/-! ## `microcode_resume_match` -/

/-- What `malloc` and the two calls of `_xmalloc` return. -/
structure Allocs where
  mcAmd : Nat
  equivCpuTable : Nat
  mpb : Nat
deriving DecidableEq, Repr

/-- An allocation that returns `p`. -/
def xmalloc (p : Nat) : Logged (MemOp Nat) Nat := do
  if p ≠ 0 then
    Logged.emit (.malloc p)
  return p

/-- Free the structure at `p` and its blocks, if there is one. -/
def freeOld (mem : Mem) (p : Nat) : Logged (MemOp Nat) Unit := do
  if p ≠ 0 then
    Logged.emit (.read p Fld.equivCpuTable 8)
    Logged.emit (.free (mem.mcAmd p).equivCpuTable)
    Logged.emit (.read p Fld.mpb 8)
    Logged.emit (.free (mem.mcAmd p).mpb)
    Logged.emit (.free p)

/-- Build a structure with the sizes of the one at `src`; the labels `err1` and `err2` are the two early returns. -/
def buildNew (mem : Mem) (src : Nat) (a : Allocs) : Logged (MemOp Nat) (Int × Mem) := do
  let p ← xmalloc a.mcAmd
  if p = 0 then
    return (-1, mem)
  Logged.emit (.read src Fld.equivCpuTableSize 4)
  let table ← xmalloc a.equivCpuTable
  Logged.emit (.write p Fld.equivCpuTable 8)
  let mem := mem.set p { mem.mcAmd p with equivCpuTable := table }
  Logged.emit (.read p Fld.equivCpuTable 8)
  if table = 0 then
    Logged.emit (.free p)
    return (-1, mem)
  Logged.emit (.read src Fld.mpbSize 4)
  let mpb ← xmalloc a.mpb
  Logged.emit (.write p Fld.mpb 8)
  let mem := mem.set p { mem.mcAmd p with mpb := mpb }
  Logged.emit (.read p Fld.mpb 8)
  if mpb = 0 then
    Logged.emit (.read p Fld.equivCpuTable 8)
    Logged.emit (.free table)
    Logged.emit (.free p)
    return (-1, mem)
  Logged.emit (.read src Fld.equivCpuTableSize 4)
  Logged.emit (.write p Fld.equivCpuTableSize 4)
  Logged.emit (.read src Fld.mpbSize 4)
  Logged.emit (.write p Fld.mpbSize 4)
  return (1, mem.set p ⟨mpb, (mem.mcAmd src).mpbSize, table, (mem.mcAmd src).equivCpuTableSize⟩)

/-- `microcode_resume_match`. The new structure stays in the local `mc_amd`; `uci->mc.h.mc_amd` keeps its value. -/
def microcodeResumeMatch (x86 : Nat) (s : Cpu) (src currentCpuId : Nat) (a : Allocs) :
    Logged (MemOp Nat) (Option (Int × Cpu)) := do
  match ← microcodeFits x86 s src currentCpuId with
  | none => return none
  | some false => return some (0, s)
  | some true =>
    if src = s.mcAmd then
      return some (1, s)
    freeOld s.mem s.mcAmd
    let new ← buildNew s.mem src a
    return some (new.1, { s with mem := new.2 })

/-! ## `apply_microcode` -/

/-- `apply_microcode`; `rev` is what the revision register reads back, `hwErr` the result of `wrmsr_safe`. -/
def applyMicrocode (s : Cpu) (rev : Nat) (hwErr : Bool) : Logged (MemOp Nat) Int := do
  if s.mcAmd = 0 then
    return -101
  Logged.emit (.read s.mcAmd Fld.mpb 8)
  let hdr := (s.mem.mcAmd s.mcAmd).mpb
  if hdr = 0 then
    return -101
  if hwErr then
    return -2
  let patchId ← load hdr (s.mem.bytes hdr) Fld.patchId 4
  return if rev ≠ patchId then -2 else 0

/-! ## Runs -/

/-- A call on the CPU, with what its surroundings deliver. -/
inductive Call where
  | resume (src currentCpuId : Nat) (a : Allocs)
  | apply (rev : Nat) (hwErr : Bool)
deriving DecidableEq, Repr

/-- The CPU after the call; a call that never returns leaves it where it is. -/
def Call.run (x86 : Nat) (s : Cpu) : Call → Logged (MemOp Nat) Cpu
  | .resume src currentCpuId a => do
    match ← microcodeResumeMatch x86 s src currentCpuId a with
    | none => return s
    | some (_, s') => return s'
  | .apply rev hwErr => do
    let _ ← applyMicrocode s rev hwErr
    return s

/-- The CPU and the live blocks. -/
structure Sys where
  cpu : Cpu
  live : Finset Nat

/-- One call. -/
def step (x86 : Nat) (s : Sys) (c : Call) : Sys :=
  ⟨(c.run x86 s.cpu).val, liveAfter s.live (c.run x86 s.cpu).log⟩

/-- `p` points to a live structure with live blocks. -/
structure Sys.LiveAt (s : Sys) (p : Nat) : Prop where
  self : p ∈ s.live
  mpb : (s.cpu.mem.mcAmd p).mpb ∈ s.live
  equivCpuTable : (s.cpu.mem.mcAmd p).equivCpuTable ∈ s.live

/-- **Ownership.** The cached pointer is `NULL` or points to a live structure with live blocks. -/
def Sys.Owned (s : Sys) : Prop := s.cpu.mcAmd = 0 ∨ s.LiveAt s.cpu.mcAmd

/-- No access of the call is to a block that is not live, and none frees one twice. -/
def ValidCall (x86 : Nat) (s : Sys) (c : Call) : Prop := ValidOps 0 s.live (c.run x86 s.cpu).log

/-- What the call relies on: the patch handed over is live, and allocators deliver blocks that are not. -/
def Legal (x86 : Nat) (s : Sys) (c : Call) : Prop :=
  (match c with
    | .resume src _ _ => s.LiveAt src
    | .apply _ _ => True) ∧ FreshOps 0 s.live (c.run x86 s.cpu).log

/-- The call does not replace a cached patch: the one handed over does not fit, is the cached one, or none is cached. -/
def Safe (x86 : Nat) (s : Sys) : Call → Prop
  | .resume src currentCpuId _ =>
    (microcodeFits x86 s.cpu src currentCpuId).val ≠ some true ∨ src = s.cpu.mcAmd ∨ s.cpu.mcAmd = 0
  | .apply _ _ => True

/-! ## What the calls access -/

section Accesses

variable {x86 : Nat} {s : Sys} {src currentCpuId : Nat} {a : Allocs}

/-- The search reads its table only. -/
theorem findEquivCpuId_reads (table : Nat) (b : Bytes) (currentCpuId : Nat) :
    (findEquivCpuId table b currentCpuId).Only (MemOp.ReadsOf (· = table)) := by
  have hread : ∀ off len, (MemOp.read table off len).ReadsOf (· = table) := fun _ _ => rfl
  have hstep : ∀ i, (findEquivStep table b currentCpuId i).Only (MemOp.ReadsOf (· = table)) := fun i => by
    simp [findEquivStep, hread]
  unfold findEquivCpuId
  split
  · simp
  · exact loop_only (I := fun _ => True) (fun _ _ _ _ => trivial) (fun i _ => hstep i) trivial

/-- `microcode_fits` reads the patch it is given. -/
theorem microcodeFits_reads (h : s.LiveAt src) :
    (microcodeFits x86 s.cpu src currentCpuId).Only (MemOp.ReadsOf (· ∈ s.live)) := by
  have hsrc : ∀ off len, (MemOp.read src off len).ReadsOf (· ∈ s.live) := fun _ _ => h.self
  have hmpb : ∀ off len, (MemOp.read (s.cpu.mem.mcAmd src).mpb off len).ReadsOf (· ∈ s.live) := fun _ _ => h.mpb
  have hfind : ∀ b, (findEquivCpuId (s.cpu.mem.mcAmd src).equivCpuTable b currentCpuId).Only
      (MemOp.ReadsOf (· ∈ s.live)) := fun b op hop => by
    have := findEquivCpuId_reads _ b currentCpuId op hop
    cases op with
    | read o off len => exact this ▸ h.equivCpuTable
    | _ => exact this
  simp only [microcodeFits, Logged.only_bind, Logged.only_emit, hsrc, hfind, true_and]
  split <;> simp [hmpb, hsrc]

/-- `apply_microcode` reads the cached patch. -/
theorem applyMicrocode_reads (h : s.Owned) (rev : Nat) (hwErr : Bool) :
    (applyMicrocode s.cpu rev hwErr).Only (MemOp.ReadsOf (· ∈ s.live)) := by
  rcases h with h | h
  · simp [applyMicrocode, h]
  · have hself : ∀ off len, (MemOp.read s.cpu.mcAmd off len).ReadsOf (· ∈ s.live) := fun _ _ => h.self
    have hmpb : ∀ off len, (MemOp.read (s.cpu.mem.mcAmd s.cpu.mcAmd).mpb off len).ReadsOf (· ∈ s.live) :=
      fun _ _ => h.mpb
    simp [applyMicrocode, hself, hmpb]

/-- Building a new structure accesses the old one and its own blocks, and frees only its own. -/
theorem buildNew_valid {live : Finset Nat} {mem : Mem} (hsrc : src ∈ live)
    (hf : FreshOps 0 live (buildNew mem src a).log) : ValidOps 0 live (buildNew mem src a).log := by
  obtain ⟨p, table, mpb⟩ := a
  by_cases hp : p = 0
  · simp [buildNew, xmalloc, hp, ValidOps]
  · by_cases ht : table = 0
    · simp [buildNew, xmalloc, hp, ht, ValidOps, MemOp.Valid, MemOp.live, hsrc]
    · by_cases hm : mpb = 0
      · -- the second allocation is not the first block, so freeing it leaves that one to be freed
        have hne : p ≠ table := by
          rintro rfl
          simp [buildNew, xmalloc, hp, hm, FreshOps, MemOp.Fresh, MemOp.live] at hf
        simp [buildNew, xmalloc, hp, ht, hm, ValidOps, MemOp.Valid, MemOp.live, hsrc, hne]
      · simp [buildNew, xmalloc, hp, ht, hm, ValidOps, MemOp.Valid, MemOp.live, hsrc]

/-- A call that reads live blocks only and leaves the CPU as it is keeps the invariant. -/
theorem owned_of_reads {c : Call} (hs : s.Owned) (hval : (c.run x86 s.cpu).val = s.cpu)
    (hreads : (c.run x86 s.cpu).Only (MemOp.ReadsOf (· ∈ s.live))) : (step x86 s c).Owned ∧ ValidCall x86 s c := by
  obtain ⟨hvalid, hlive⟩ := validOps_of_reads 0 hreads
  refine ⟨?_, hvalid⟩
  have hstep : step x86 s c = s := by rw [step, hval, hlive]
  rwa [hstep]

/-- **What a resume does.** It only asks whether the patch fits, or it also frees the cached patch and builds a new
one, without storing it. -/
theorem resume_cases (x86 : Nat) (s : Cpu) (src currentCpuId : Nat) (a : Allocs) :
    (((microcodeFits x86 s src currentCpuId).val ≠ some true ∨ src = s.mcAmd) ∧
      ((Call.resume src currentCpuId a).run x86 s).val = s ∧
      ((Call.resume src currentCpuId a).run x86 s).log = (microcodeFits x86 s src currentCpuId).log) ∨
    ((microcodeFits x86 s src currentCpuId).val = some true ∧ src ≠ s.mcAmd ∧
      ((Call.resume src currentCpuId a).run x86 s).val = { s with mem := (buildNew s.mem src a).val.2 } ∧
      ((Call.resume src currentCpuId a).run x86 s).log = (microcodeFits x86 s src currentCpuId).log ++
        ((freeOld s.mem s.mcAmd).log ++ (buildNew s.mem src a).log)) := by
  match hfit : (microcodeFits x86 s src currentCpuId).val with
  | none => exact Or.inl ⟨by simp, by simp [Call.run, microcodeResumeMatch, hfit]⟩
  | some false => exact Or.inl ⟨by simp, by simp [Call.run, microcodeResumeMatch, hfit]⟩
  | some true =>
    by_cases hsrc : src = s.mcAmd
    · subst hsrc
      exact Or.inl ⟨Or.inr rfl, by simp [Call.run, microcodeResumeMatch, hfit]⟩
    · exact Or.inr ⟨rfl, hsrc, by simp [Call.run, microcodeResumeMatch, hfit, hsrc]⟩

/-- **One call.** A legal call that replaces no cached patch keeps the invariant, and its accesses are valid. -/
theorem owned_step {c : Call} (hs : s.Owned) (hl : Legal x86 s c) (hsafe : Safe x86 s c) :
    (step x86 s c).Owned ∧ ValidCall x86 s c := by
  cases c with
  | apply rev hwErr =>
    apply owned_of_reads hs rfl
    simpa [Call.run] using applyMicrocode_reads hs rev hwErr
  | resume src currentCpuId a =>
    obtain ⟨hsrc, hfresh⟩ := hl
    rcases resume_cases x86 s.cpu src currentCpuId a with ⟨-, hval, hlog⟩ | ⟨hfit, hne, hval, hlog⟩
    · apply owned_of_reads hs hval
      intro op hop
      rw [hlog] at hop
      exact microcodeFits_reads hsrc op hop
    · have hnone : s.cpu.mcAmd = 0 := (hsafe.resolve_left fun h => h hfit).resolve_left hne
      obtain ⟨hvalid, hlive⟩ := validOps_of_reads 0 (microcodeFits_reads hsrc)
      have hfree : (freeOld s.cpu.mem s.cpu.mcAmd).log = [] := by simp [freeOld, hnone]
      rw [hlog, hfree, List.nil_append, freshOps_append, hlive] at hfresh
      refine ⟨Or.inl (by rw [step, hval, hnone]), ?_⟩
      rw [ValidCall, hlog, hfree, List.nil_append, validOps_append, hlive]
      exact ⟨hvalid, buildNew_valid hsrc.self hfresh.2⟩

end Accesses

/-- **Ownership.** In a run whose resumes replace no cached patch, the cached pointer is `NULL` or points to a live
structure with live blocks after every call, and no call frees a block twice or accesses a freed one. -/
theorem ownership_of_safe (x86 : Nat) (s : Sys) (calls : List Call) (hs : s.Owned)
    (hl : Along (Legal x86) (step x86) s calls) (hsafe : Along (Safe x86) (step x86) s calls) :
    Throughout Sys.Owned (step x86) s calls ∧ Along (ValidCall x86) (step x86) s calls := by
  have hguard := hl.and hsafe
  exact ⟨throughout_of_along (fun s c hs h => (owned_step hs h.1 h.2).1) hs hguard,
    Along.of_inv (fun s c hs h => (owned_step hs h.1 h.2).1) (fun s c hs h => (owned_step hs h.1 h.2).2) hs hguard⟩

/-! ### Replacing a cached patch -/

/-- Two patches of one block each for the structure, the patch data and the table: the cached one at 1, another one
at 4. The table of the latter maps CPU 1 to CPU 0, and its patch level is 1. -/
def twoPatches (cached : Nat) : Sys :=
  ⟨⟨⟨fun p => ⟨p + 1, 0, p + 2, 0⟩, fun p i => if p = 6 ∧ i = 0 ∨ p = 5 ∧ i = 4 then 1 else 0⟩, 0, cached⟩,
    {1, 2, 3, 4, 5, 6}⟩

/-- A resume with the other patch, for which new blocks are allocated. -/
def resumeOther : Call := .resume 4 1 ⟨7, 8, 9⟩

theorem legal_resumeOther : Legal 0 (twoPatches 1) resumeOther :=
  ⟨⟨by decide, by decide, by decide⟩, by decide +kernel⟩

/-- The cached patch is freed and stays cached. -/
theorem ownership_counterexample :
    ¬ ∀ (x86 : Nat) (s : Sys) (calls : List Call), s.Owned → Along (Legal x86) (step x86) s calls →
      Throughout Sys.Owned (step x86) s calls ∧ Along (ValidCall x86) (step x86) s calls := by
  intro h
  have hs : (twoPatches 1).Owned := Or.inr ⟨by decide, by decide, by decide⟩
  obtain ⟨hown, -⟩ := h 0 (twoPatches 1) [resumeOther] hs ⟨legal_resumeOther, trivial⟩
  rcases hown.last with h0 | h1
  · exact absurd h0 (by decide +kernel)
  · exact absurd h1.self (by decide +kernel)

/-- The cached patch is handed over again and applied, and then one that does not fit. -/
def keptPatch : List Call := [.resume 1 1 ⟨7, 8, 9⟩, .apply 1 false, .resume 4 5 ⟨7, 8, 9⟩]

theorem ownership_kept : Throughout Sys.Owned (step 0) (twoPatches 1) keptPatch ∧
    Along (ValidCall 0) (step 0) (twoPatches 1) keptPatch :=
  ownership_of_safe 0 (twoPatches 1) keptPatch (Or.inr ⟨by decide, by decide, by decide⟩)
    ⟨⟨⟨by decide, by decide, by decide⟩, by decide +kernel⟩, ⟨trivial, by decide +kernel⟩,
      ⟨⟨by decide +kernel, by decide +kernel, by decide +kernel⟩, by decide +kernel⟩, trivial⟩
    ⟨Or.inr (Or.inl rfl), trivial, Or.inl (by decide +kernel), trivial⟩

end Xen.Amd
