import Mathlib.Data.Finset.Card
import Xen.Amd.Buffer

/-!
# Runs of the AMD microcode driver (`microcode_amd_verified.c`)

- `collectCpuInfo`, `checkFinalPatchLevels` and `cpuRequestMicrocode`, and with them all of `microcode_ops` as calls of
  a run on one CPU.
- `cpu_request_microcode` never gets to a patch: the offset it would install from stays 0. `request_cases` says what is
  left: the checks, and a structure that is freed again.
- `driver_idle`: without a cached patch at the start, no run of the driver ever applies one or learns a level.
- `driver_ledger`: such runs access live blocks only, free nothing that was there, and lose three blocks with every
  patch that `microcode_resume_match` adopts.
-/

namespace Xen.Amd

open Lib

/-! ## The functions -/

/-- `collect_cpu_info`; it does not write to `*csig`. -/
def collectCpuInfo (x86Vendor x86 : Nat) : Int := if x86Vendor ≠ 2 ∨ x86 < 0x10 then -101 else 0

/-- `final_levels`. -/
def finalLevels : List Nat := [0x01000098, 0x0100009f, 0x010000af]

/-- `check_final_patch_levels`; `x86` is the boot CPU's family. -/
def checkFinalPatchLevels (x86 rev : Nat) : Bool := if x86 ≠ 0x10 then false else finalLevels.contains rev

/-- The file that `cpu_request_microcode` is given, and what `malloc` and `_xmalloc` return. -/
structure Request where
  buf : Bytes
  bufsize : Nat
  mcAmd : Nat
  mpb : Nat

/-- `cpu_request_microcode`: the error, and the CPU. `applied_offset` is initialised with 0 and not written. -/
def cpuRequestMicrocode (x86 : Nat) (s : Cpu) (r : Request) : Logged (MemOp Obj) (Int × Cpu) := do
  let appliedOffset := 0
  let dataCode ← load .buf r.buf 0 4
  if dataCode ≠ 0x00414d44 then
    return (-101, s)
  if checkFinalPatchLevels x86 s.rev then
    return (-8, s)
  if r.mcAmd = 0 then
    return (-1, s)
  Logged.emit (.malloc (.block r.mcAmd))
  Logged.emit (.write (.block r.mcAmd) Fld.mpb 8)
  Logged.emit (.write (.block r.mcAmd) Fld.mpbSize 4)
  let mc := { s.mem.mcAmd r.mcAmd with mpb := 0, mpbSize := 0 }
  if appliedOffset ≠ 0 then
    let (saveError, mc, _) ← getUcodeFromBufferAmd mc r.buf r.bufsize appliedOffset r.mpb
    if saveError ≠ 0 then
      Logged.emit (.free (.block r.mcAmd))
      return (saveError, { s with mem := s.mem.set r.mcAmd mc })
    Logged.emit (.free (.block s.mcAmd))
    return (0, { s with mem := s.mem.set r.mcAmd mc })
  -- `save_error` is still 1
  Logged.emit (.free (.block r.mcAmd))
  return (0, { s with mem := s.mem.set r.mcAmd mc })

/-- The error for a file. -/
def requestError (x86 rev : Nat) (r : Request) : Int :=
  if leWord r.buf 0 4 ≠ 0x00414d44 then -101 else if checkFinalPatchLevels x86 rev then -8
  else if r.mcAmd = 0 then -1 else 0

/-- **What `cpu_request_microcode` does.** It reads the first word of the file, whatever the size. If that is right, the
level is not final and `malloc` works, it also allocates a structure, writes to it and frees it. -/
theorem request_cases (x86 : Nat) (s : Cpu) (r : Request) :
    (cpuRequestMicrocode x86 s r).val.1 = requestError x86 s.rev r ∧
      ((cpuRequestMicrocode x86 s r).log = [.read .buf 0 4] ∧ (cpuRequestMicrocode x86 s r).val.2 = s ∨
        r.mcAmd ≠ 0 ∧ (cpuRequestMicrocode x86 s r).val.2 =
            { s with mem := s.mem.set r.mcAmd { s.mem.mcAmd r.mcAmd with mpb := 0, mpbSize := 0 } } ∧
          (cpuRequestMicrocode x86 s r).log = [.read .buf 0 4, .malloc (.block r.mcAmd),
            .write (.block r.mcAmd) Fld.mpb 8, .write (.block r.mcAmd) Fld.mpbSize 4, .free (.block r.mcAmd)]) := by
  unfold requestError
  by_cases hcode : leWord r.buf 0 4 = 0x00414d44
  swap
  · simp [cpuRequestMicrocode, hcode, load]
  by_cases hfinal : checkFinalPatchLevels x86 s.rev = true
  · simp [cpuRequestMicrocode, hcode, hfinal, load]
  by_cases hmalloc : r.mcAmd = 0
  · simp [cpuRequestMicrocode, hcode, hfinal, hmalloc, load]
  · simp [cpuRequestMicrocode, hcode, hfinal, hmalloc, load]

/-! ## Runs -/

/-- A call of one of `microcode_ops`, with what its surroundings deliver. -/
inductive OpsCall where
  | resumeMatch (src currentCpuId : Nat) (a : Allocs)
  | request (r : Request)
  | collect (x86Vendor x86 : Nat)
  | apply (rev : Nat) (hwErr : Bool)
  | startUpdate

/-- What the call returns, if it does, and the CPU behind it. -/
def OpsCall.run (x86 : Nat) (s : Cpu) : OpsCall → Logged (MemOp Nat) (Option Int × Cpu)
  | .resumeMatch src currentCpuId a => do
    match ← microcodeResumeMatch x86 s src currentCpuId a with
    | none => return (none, s)
    | some (ret, s') => return (some ret, s')
  | .request r =>
    let x := cpuRequestMicrocode x86 s r
    ⟨(some x.val.1, x.val.2), x.log.filterMap onBlock⟩
  | .collect x86Vendor family => return (some (collectCpuInfo x86Vendor family), s)
  | .apply rev hwErr => do
    let ret ← applyMicrocode s rev hwErr
    return (some ret, s)
  | .startUpdate => return (some 0, s)

/-- One call. -/
def opsStep (x86 : Nat) (s : Sys) (c : OpsCall) : Sys :=
  ⟨(c.run x86 s.cpu).val.2, liveAfter s.live (c.run x86 s.cpu).log⟩

/-- The patch handed over is live, and allocators deliver blocks that are not. -/
def OpsLegal (x86 : Nat) (s : Sys) (c : OpsCall) : Prop :=
  (match c with
    | .resumeMatch src _ _ => s.LiveAt src
    | _ => True) ∧ FreshOps 0 s.live (c.run x86 s.cpu).log

/-- Every access of the call is to a live block. -/
def OpsValid (x86 : Nat) (s : Sys) (c : OpsCall) : Prop := ValidOps 0 s.live (c.run x86 s.cpu).log

/-- How many blocks the call loses: those of a patch that fits, is not the cached one and can be copied. -/
def lost (x86 : Nat) (s : Sys) : OpsCall → Nat
  | .resumeMatch src currentCpuId a =>
    if (microcodeFits x86 s.cpu src currentCpuId).val = some true ∧ src ≠ s.cpu.mcAmd ∧ a.mcAmd ≠ 0 ∧
      a.equivCpuTable ≠ 0 ∧ a.mpb ≠ 0 then 3 else 0
  | _ => 0

section Runs

variable {x86 : Nat} {s : Sys} {src currentCpuId : Nat} {a : Allocs}

/-- **What a resume does**: it only asks whether the patch fits, or builds a new one; without a cached patch it frees
none. -/
theorem resumeMatch_cases (x86 src currentCpuId : Nat) (a : Allocs) (h0 : s.cpu.mcAmd = 0) :
    (lost x86 s (.resumeMatch src currentCpuId a) = 0 ∧
      ((OpsCall.resumeMatch src currentCpuId a).run x86 s.cpu).val.2 = s.cpu ∧
      ((OpsCall.resumeMatch src currentCpuId a).run x86 s.cpu).log =
        (microcodeFits x86 s.cpu src currentCpuId).log) ∨
    (lost x86 s (.resumeMatch src currentCpuId a) =
        (if a.mcAmd ≠ 0 ∧ a.equivCpuTable ≠ 0 ∧ a.mpb ≠ 0 then 3 else 0) ∧
      ((OpsCall.resumeMatch src currentCpuId a).run x86 s.cpu).val.2 =
        { s.cpu with mem := (buildNew s.cpu.mem src a).val.2 } ∧
      ((OpsCall.resumeMatch src currentCpuId a).run x86 s.cpu).log =
        (microcodeFits x86 s.cpu src currentCpuId).log ++ (buildNew s.cpu.mem src a).log) := by
  match hfit : (microcodeFits x86 s.cpu src currentCpuId).val with
  | none => exact Or.inl (by simp [OpsCall.run, microcodeResumeMatch, lost, hfit])
  | some false => exact Or.inl (by simp [OpsCall.run, microcodeResumeMatch, lost, hfit])
  | some true =>
    by_cases hsrc : src = s.cpu.mcAmd
    · subst hsrc
      exact Or.inl (by simp [OpsCall.run, microcodeResumeMatch, lost, hfit])
    · have hnew : src ≠ 0 := h0 ▸ hsrc
      exact Or.inr (by simp [OpsCall.run, microcodeResumeMatch, lost, hfit, hnew, h0, freeOld])

/-- No call stores to the cached pointer or to the recorded revision. -/
theorem opsStep_cpu (x86 : Nat) (s : Sys) (c : OpsCall) :
    (opsStep x86 s c).cpu.mcAmd = s.cpu.mcAmd ∧ (opsStep x86 s c).cpu.rev = s.cpu.rev := by
  cases c with
  | resumeMatch src currentCpuId a =>
    match hfit : (microcodeFits x86 s.cpu src currentCpuId).val with
    | none => simp [opsStep, OpsCall.run, microcodeResumeMatch, hfit]
    | some false => simp [opsStep, OpsCall.run, microcodeResumeMatch, hfit]
    | some true =>
      by_cases hsrc : src = s.cpu.mcAmd
      · subst hsrc
        simp [opsStep, OpsCall.run, microcodeResumeMatch, hfit]
      · simp [opsStep, OpsCall.run, microcodeResumeMatch, hfit, hsrc]
  | request r =>
    rw [show (opsStep x86 s (.request r)).cpu = (cpuRequestMicrocode x86 s.cpu r).val.2 from rfl]
    rcases (request_cases x86 s.cpu r).2 with ⟨-, hcpu⟩ | ⟨-, hcpu, -⟩ <;> rw [hcpu] <;> exact ⟨rfl, rfl⟩
  | collect x86Vendor family => exact ⟨rfl, rfl⟩
  | apply rev hwErr => exact ⟨rfl, rfl⟩
  | startUpdate => exact ⟨rfl, rfl⟩

/-- The driver has no patch to apply, and takes `rev` for the level of the CPU. -/
structure Idle (rev : Nat) (s : Sys) : Prop where
  mcAmd : s.cpu.mcAmd = 0
  rev : s.cpu.rev = rev
  apply : ∀ read hwErr, applyMicrocode s.cpu read hwErr = ⟨-101, []⟩

/-- **The driver never applies a patch.** On a CPU without a cached patch, whatever calls of `microcode_ops` are made,
with any files, patches and allocations, every application fails with -101 before it writes to the revision register,
and the recorded level stays what it was. -/
theorem driver_idle (x86 : Nat) (s : Sys) (calls : List OpsCall) (h0 : s.cpu.mcAmd = 0) :
    Throughout (Idle s.cpu.rev) (opsStep x86) s calls := by
  have hidle : ∀ s' : Sys, s'.cpu.mcAmd = 0 → s'.cpu.rev = s.cpu.rev → Idle s.cpu.rev s' := fun s' hmc hrev =>
    ⟨hmc, hrev, fun read hwErr => by rw [applyMicrocode, if_pos hmc]; rfl⟩
  apply throughout_of_along (fun s' c hs _ => ?_) (hidle s h0 rfl) (along_of_forall (fun _ _ => trivial) s calls)
  obtain ⟨hmc, hrev⟩ := opsStep_cpu x86 s' c
  exact hidle _ (hmc.trans hs.mcAmd) (hrev.trans hs.rev)

/-! ## The blocks -/

/-- What building a new structure does to the blocks: all three stay, or none. -/
theorem buildNew_live {live : Finset Nat} {mem : Mem} (hf : FreshOps 0 live (buildNew mem src a).log) :
    live ⊆ liveAfter live (buildNew mem src a).log ∧ (liveAfter live (buildNew mem src a).log).card =
      live.card + if a.mcAmd ≠ 0 ∧ a.equivCpuTable ≠ 0 ∧ a.mpb ≠ 0 then 3 else 0 := by
  obtain ⟨p, table, mpb⟩ := a
  by_cases hp : p = 0
  · simp [buildNew, xmalloc, hp, liveAfter]
  by_cases ht : table = 0
  · have hfresh : p ∉ live := by
      simpa [buildNew, xmalloc, hp, ht, FreshOps, MemOp.Fresh, MemOp.live] using hf
    simp [buildNew, xmalloc, hp, ht, liveAfter, MemOp.live, Finset.erase_insert hfresh]
  by_cases hm : mpb = 0
  · obtain ⟨hfresh, hfresh'⟩ : p ∉ live ∧ table ∉ insert p live := by
      simpa [buildNew, xmalloc, hp, ht, hm, FreshOps, MemOp.Fresh, MemOp.live] using hf
    simp [buildNew, xmalloc, hp, ht, hm, liveAfter, MemOp.live, Finset.erase_insert hfresh',
      Finset.erase_insert hfresh]
  · obtain ⟨hfresh, hfresh', hfresh''⟩ : p ∉ live ∧ table ∉ insert p live ∧ mpb ∉ insert table (insert p live) := by
      simpa [buildNew, xmalloc, hp, ht, hm, FreshOps, MemOp.Fresh, MemOp.live] using hf
    have hlog : liveAfter live (buildNew mem src ⟨p, table, mpb⟩).log = insert mpb (insert table (insert p live)) := by
      simp [buildNew, xmalloc, hp, ht, hm, liveAfter, MemOp.live]
    rw [hlog, Finset.card_insert_of_notMem hfresh'', Finset.card_insert_of_notMem hfresh',
      Finset.card_insert_of_notMem hfresh, if_pos ⟨hp, ht, hm⟩]
    exact ⟨fun q hq => by simp [hq], rfl⟩

/-- **One call** without a cached patch accesses live blocks only, keeps those that were there, and loses `lost`. -/
theorem opsStep_live {c : OpsCall} (h0 : s.cpu.mcAmd = 0) (hl : OpsLegal x86 s c) :
    OpsValid x86 s c ∧ s.live ⊆ (opsStep x86 s c).live ∧
      (opsStep x86 s c).live.card = s.live.card + lost x86 s c := by
  obtain ⟨hsrc, hfresh⟩ := hl
  cases c with
  | resumeMatch src currentCpuId a =>
    have hreads : (microcodeFits x86 s.cpu src currentCpuId).Only (MemOp.ReadsOf (· ∈ s.live)) :=
      microcodeFits_reads hsrc
    obtain ⟨hvalid, hlive⟩ := validOps_of_reads 0 hreads
    rcases resumeMatch_cases x86 src currentCpuId a h0 with ⟨hlost, -, hlog⟩ | ⟨hlost, -, hlog⟩
    · rw [OpsValid, opsStep, hlost, hlog, hlive]
      exact ⟨hvalid, Finset.Subset.refl _, rfl⟩
    · rw [hlog, freshOps_append, hlive] at hfresh
      obtain ⟨hsub, hcard⟩ := buildNew_live hfresh.2
      rw [OpsValid, opsStep, hlost, hlog, validOps_append, liveAfter_append, hlive]
      exact ⟨⟨hvalid, buildNew_valid hsrc.self hfresh.2⟩, hsub, hcard⟩
  | request r =>
    have hlog : (OpsCall.request r).run x86 s.cpu =
        ⟨_, (cpuRequestMicrocode x86 s.cpu r).log.filterMap onBlock⟩ := rfl
    rw [OpsValid, opsStep, hlog]
    rw [hlog] at hfresh
    rcases (request_cases x86 s.cpu r).2 with ⟨hread, -⟩ | ⟨hne, -, halloc⟩
    · rw [hread]
      exact ⟨trivial, Finset.Subset.refl _, rfl⟩
    · have hops : (cpuRequestMicrocode x86 s.cpu r).log.filterMap onBlock = [.malloc r.mcAmd,
          .write r.mcAmd Fld.mpb 8, .write r.mcAmd Fld.mpbSize 4, .free r.mcAmd] := by
        rw [halloc]
        rfl
      rw [hops] at hfresh ⊢
      have hnew : r.mcAmd ∉ s.live := by
        simpa [FreshOps, MemOp.Fresh, MemOp.live, hne] using hfresh
      simp [ValidOps, MemOp.Valid, liveAfter, MemOp.live, Finset.erase_insert hnew, lost]
  | collect x86Vendor family => exact ⟨trivial, Finset.Subset.refl _, rfl⟩
  | apply rev hwErr =>
    have hlog : ((OpsCall.apply rev hwErr).run x86 s.cpu).log = [] := by
      rw [OpsCall.run, applyMicrocode, if_pos h0]
      rfl
    rw [OpsValid, opsStep, hlog]
    exact ⟨trivial, Finset.Subset.refl _, rfl⟩
  | startUpdate => exact ⟨trivial, Finset.Subset.refl _, rfl⟩

/-- **The ledger.** In every legal run from a CPU without a cached patch, the calls access live blocks only and free
nothing that was live at the start. The blocks that are live afterwards are those, and three more for every patch that a
resume adopted: no other call loses a block. -/
theorem driver_ledger (x86 : Nat) (s : Sys) (calls : List OpsCall) (h0 : s.cpu.mcAmd = 0)
    (hl : Along (OpsLegal x86) (opsStep x86) s calls) :
    Along (OpsValid x86) (opsStep x86) s calls ∧ Throughout (fun s' => s.live ⊆ s'.live) (opsStep x86) s calls ∧
      (calls.foldl (opsStep x86) s).live.card = s.live.card + sumAlong (lost x86) (opsStep x86) s calls := by
  have hkeep : ∀ (s : Sys) (c : OpsCall), s.cpu.mcAmd = 0 → (opsStep x86 s c).cpu.mcAmd = 0 := fun s c h0 =>
    (opsStep_cpu x86 s c).1.trans h0
  refine ⟨?_, ?_, ?_⟩
  · exact Along.of_inv (fun s c h0 _ => hkeep s c h0) (fun s c h0 hl => (opsStep_live h0 hl).1) h0 hl
  · have hboth : Throughout (fun s' : Sys => s'.cpu.mcAmd = 0 ∧ s.live ⊆ s'.live) (opsStep x86) s calls :=
      throughout_of_along
        (fun s' c hs hl => ⟨hkeep s' c hs.1, hs.2.trans (opsStep_live hs.1 hl).2.1⟩) ⟨h0, Finset.Subset.refl _⟩ hl
    exact hboth.mono fun _ h => h.2
  · exact foldl_sumAlong (I := fun s : Sys => s.cpu.mcAmd = 0) (fun s : Sys => s.live.card)
      (fun s c h0 _ => hkeep s c h0) (fun s c h0 hl => (opsStep_live h0 hl).2.2) h0 hl

/-- A resume that adopts the other patch, and a request that finds a file. -/
def adoptAndRequest : List OpsCall :=
  [.resumeMatch 4 1 ⟨7, 8, 9⟩, .request ⟨Bytes.ofList [0x44, 0x4d, 0x41, 0x00], 4, 10, 11⟩, .apply 1 false]

theorem driver_idle_adopt : Throughout (Idle 0) (opsStep 0) (twoPatches 0) adoptAndRequest :=
  driver_idle 0 (twoPatches 0) adoptAndRequest rfl

theorem driver_ledger_adopt : Along (OpsValid 0) (opsStep 0) (twoPatches 0) adoptAndRequest ∧
    Throughout (fun s' => (twoPatches 0).live ⊆ s'.live) (opsStep 0) (twoPatches 0) adoptAndRequest ∧
      (adoptAndRequest.foldl (opsStep 0) (twoPatches 0)).live.card =
        (twoPatches 0).live.card + sumAlong (lost 0) (opsStep 0) (twoPatches 0) adoptAndRequest :=
  driver_ledger 0 (twoPatches 0) adoptAndRequest rfl
    ⟨⟨⟨by decide, by decide, by decide⟩, by decide +kernel⟩, ⟨trivial, by decide +kernel⟩, ⟨trivial, by decide +kernel⟩,
      trivial⟩

end Runs

end Xen.Amd
