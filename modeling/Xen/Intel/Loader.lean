import Xen.Intel.Image

/-!
# The Intel microcode loader (`intel_verified.c`)

- `getNextUcodeFromBuffer` with every read of the file logged, `cpuRequestMicrocode` with every call of its loop
  logged. The local `mc` is never assigned: the block it points to is part of the loop's state.
- The bounds check compares the declared size with the whole buffer and not with what is left after the offset:
  `nextUcode_reads_iff` says exactly when all reads of the file stay inside it.
- The code that turns a negative offset into an error became the body of the test before it and never runs:
  `errorsReported_iff` says exactly when no error of the loop is lost.
-/

namespace Xen.Intel

open Lib

/-! ## `get_next_ucode_from_buffer` -/

/-- `get_next_ucode_from_buffer`: the return code and `*mc` afterwards. `mc` is the block `*mc` points to, `none` for
`NULL`. -/
def getNextUcodeFromBuffer (mc : Option Bytes) (buf : Bytes) (size offset : Nat) :
    Logged (MemOp Obj) (Int × Option Bytes) := do
  if (offset : Int) ≥ int32 size then
    return (0, mc)
  let total ← loadTotalSize .buf buf offset
  if int32 total > int32 size then
    return (-101, mc)
  match mc with
  | none => return (-12, none)
  | some dst =>
    let dst ← copyLoop .buf .mc buf offset (int32 total).toNat 0 dst
    return (int32 total, some dst)

/-- What one call can do: end of the buffer, a declared size over the buffer's, no memory, or a copy. -/
theorem nextUcode_cases (mc : Option Bytes) (buf : Bytes) (size offset : Nat) :
    (int32 size ≤ offset ∧ (getNextUcodeFromBuffer mc buf size offset).val = (0, mc)) ∨
    ((offset : Int) < int32 size ∧ int32 size < int32 (totalSize buf offset) ∧
      (getNextUcodeFromBuffer mc buf size offset).val = (-101, mc)) ∨
    ((offset : Int) < int32 size ∧ int32 (totalSize buf offset) ≤ int32 size ∧ mc = none ∧
      (getNextUcodeFromBuffer mc buf size offset).val = (-12, none)) ∨
    ((offset : Int) < int32 size ∧ int32 (totalSize buf offset) ≤ int32 size ∧ ∃ dst, mc = some dst ∧
      (getNextUcodeFromBuffer mc buf size offset).val = (int32 (totalSize buf offset),
        some (copyLoop Obj.buf Obj.mc buf offset (int32 (totalSize buf offset)).toNat 0 dst).val)) := by
  by_cases h1 : (offset : Int) ≥ int32 size
  · exact Or.inl ⟨h1, by simp [getNextUcodeFromBuffer, h1]⟩
  · have h1' : (offset : Int) < int32 size := by omega
    by_cases h2 : int32 (totalSize buf offset) > int32 size
    · exact Or.inr (Or.inl ⟨h1', h2, by simp [getNextUcodeFromBuffer, h1, h2]⟩)
    · have h2' : int32 (totalSize buf offset) ≤ int32 size := by omega
      cases mc with
      | none => exact Or.inr (Or.inr (Or.inl ⟨h1', h2', rfl, by simp [getNextUcodeFromBuffer, h1, h2]⟩))
      | some dst => exact Or.inr (Or.inr (Or.inr ⟨h1', h2', dst, rfl, by simp [getNextUcodeFromBuffer, h1, h2]⟩))

/-- The inputs on which `get_next_ucode_from_buffer` returns a negative code: the declared size is larger than the
buffer, there is no memory, or the declared size is negative as an `int`. -/
def Refused (mc : Option Bytes) (buf : Bytes) (size offset : Nat) : Prop :=
  (offset : Int) < int32 size ∧
    (int32 size < int32 (totalSize buf offset) ∨ mc = none ∨ int32 (totalSize buf offset) < 0)

theorem nextUcode_neg_iff (mc : Option Bytes) (buf : Bytes) (size offset : Nat) :
    (getNextUcodeFromBuffer mc buf size offset).val.1 < 0 ↔ Refused mc buf size offset := by
  unfold Refused
  rcases nextUcode_cases mc buf size offset with ⟨h1, hr⟩ | ⟨h1, h2, hr⟩ | ⟨h1, h2, hn, hr⟩ | ⟨h1, h2, dst, hd, hr⟩ <;>
    rw [hr]
  · simp only
    omega
  · simp only
    omega
  · simp [h1, hn]
  · subst hd
    simp only [h1, true_and, reduceCtorEq, false_or]
    omega

/-- **The reads of one call.** Every byte of `buf` that a call inside the buffer reads lies in the buffer exactly if
the `totalsize` field does and the declared size is refused, not copied, or no larger than what is left. -/
theorem nextUcode_reads_iff (mc : Option Bytes) (buf : Bytes) {size offset : Nat} (hsize : size < 2 ^ 31)
    (hoff : offset < size) :
    (getNextUcodeFromBuffer mc buf size offset).Only (MemOp.ReadsIn .buf 0 size) ↔
      offset + 40 ≤ size ∧ (mc = none ∨ (size : Int) < int32 (totalSize buf offset) ∨
        offset + int32 (totalSize buf offset) ≤ size) := by
  have hs : int32 size = size := int32_of_lt hsize
  have ho : ¬(offset : Int) ≥ size := by omega
  have hfield : (MemOp.read Obj.buf (offset + Hdr.totalsize) 4).ReadsIn .buf 0 size ↔ offset + 40 ≤ size := by
    rw [MemOp.readsIn_read (by decide)]
    simp [Nat.add_assoc]
  cases mc with
  | none =>
    simp only [getNextUcodeFromBuffer, hs, if_neg ho, Logged.only_bind, only_loadTotalSize, hfield, Logged.only_ite,
      Logged.only_pure, implies_true, and_self, and_true, true_or]
  | some dst =>
    simp only [getNextUcodeFromBuffer, hs, if_neg ho, Logged.only_bind, only_loadTotalSize, hfield, Logged.only_ite,
      Logged.only_pure, val_loadTotalSize, copyLoop_readsIn, implies_true, true_and, and_true, reduceCtorEq, false_or,
      forall_const, Nat.zero_le]
    apply and_congr_right
    intro _
    omega

/-- An update in the second half of the file that declares the size of the whole file is copied past the end. -/
theorem nextUcode_reads_counterexample :
    ¬ ∀ (mc : Option Bytes) (buf : Bytes) (size offset : Nat), size < 2 ^ 31 → offset < size →
      (getNextUcodeFromBuffer mc buf size offset).Only (MemOp.ReadsIn .buf 0 size) := by
  intro h
  have hbad := h (some fun _ => 0) (fun i => if i = 92 then 112 else 0) 112 56 (by decide) (by decide)
  simp [getNextUcodeFromBuffer, copyLoop_readsIn, totalSize, leWord, int32] at hbad

/-- The first of two updates of 56 bytes is read inside the file. -/
theorem nextUcode_reads_example :
    (getNextUcodeFromBuffer (some fun _ => 0) (fun i => if i = 36 then 56 else 0) 112 0).Only
      (MemOp.ReadsIn .buf 0 112) := by
  refine (nextUcode_reads_iff _ _ (by decide) (by decide)).mpr ⟨by decide, Or.inr (Or.inr ?_)⟩
  simp [totalSize, leWord, int32]

/-! ## `cpu_request_microcode` -/

/-- The calls of `cpu_request_microcode`, with what they return and the offset of the update they are about. -/
inductive Call where
  | getNextUcodeFromBuffer (offset : Nat) (ret : Int)
  | microcodeSanityCheck (offset : Nat) (ret : Int)
  | getMatchingMicrocode (offset : Nat) (ret : Int)
  | applyMicrocode (ret : Int)
deriving DecidableEq, Repr

/-- What a call returned. -/
def Call.ret : Call → Int
  | .getNextUcodeFromBuffer _ ret | .microcodeSanityCheck _ ret | .getMatchingMicrocode _ ret
  | .applyMicrocode ret => ret

/-- The call is `apply_microcode`, which comes after the loop. -/
def Call.IsApply : Call → Prop
  | .applyMicrocode _ => True
  | _ => False

/-- The surroundings of one run: the file, the bytes at `NULL`, what the uninitialised `ext_header` and `new_mc` of the
`n`-th call of `get_matching_microcode` point to, and the content of the revision register. -/
structure Env where
  abi : Abi
  buf : Bytes
  size : Nat
  null : Bytes
  extHeader : Nat → Bytes
  newMc : Nat → Option Bytes
  msrContent : Nat

/-- The locals at the head of the loop, with the CPU's state and the number of the iteration. -/
structure LoopState where
  offset : Nat
  error : Int
  matchingCount : Nat
  mc : Option Bytes
  uci : UcodeCpuInfo
  iter : Nat

/-- The locals behind the loop. -/
structure LoopEnd where
  offset : Int
  error : Int
  matchingCount : Nat
  uci : UcodeCpuInfo

/-- One iteration of the loop, its condition included. -/
def requestStep (env : Env) (s : LoopState) : Logged Call (Iter LoopState LoopEnd) := do
  let next := (getNextUcodeFromBuffer s.mc env.buf (env.size % 2 ^ (8 * env.abi.ulong)) s.offset).val
  Logged.emit (.getNextUcodeFromBuffer s.offset next.1)
  if next.1 ≤ 0 then
    return .leave ⟨next.1, s.error, s.matchingCount, s.uci⟩
  let mc := next.2.getD env.null
  let error := (microcodeSanityCheck env.abi mc env.null).val
  Logged.emit (.microcodeSanityCheck s.offset error)
  if error ≠ 0 then
    return .leave ⟨next.1, error, s.matchingCount, s.uci⟩
  let matching := getMatchingMicrocode env.abi s.uci mc (env.extHeader s.iter) (env.newMc s.iter)
  Logged.emit (.getMatchingMicrocode s.offset matching.1)
  if matching.1 < 0 then
    return .leave ⟨next.1, matching.1, s.matchingCount, matching.2⟩
  if matching.1 = 1 then
    return .next ⟨next.1.toNat, 0, (s.matchingCount + 1) % 2 ^ 32, next.2, matching.2, s.iter + 1⟩
  return .next ⟨next.1.toNat, matching.1, s.matchingCount, next.2, matching.2, s.iter + 1⟩

/-- The locals before the loop. -/
def requestStart (mc : Option Bytes) (uci : UcodeCpuInfo) : LoopState := ⟨0, 0, 0, mc, uci, 0⟩

/-- The error behind the loop. The statement guarded by `offset > 0` is commented out, and the next test took its
place. -/
def LoopEnd.finalError (e : LoopEnd) : Int :=
  if e.offset > 0 then (if e.offset < 0 then e.offset else e.error) else e.error

/-- `cpu_request_microcode` with at most `fuel` iterations. -/
def cpuRequestMicrocode (env : Env) (mc : Option Bytes) (uci : UcodeCpuInfo) (fuel : Nat) :
    Logged Call (Option (Int × UcodeCpuInfo)) := do
  match ← loop (requestStep env) fuel (requestStart mc uci) with
  | none => return none
  | some e =>
    if e.finalError = 0 ∧ e.matchingCount ≠ 0 then
      let apply := applyMicrocode e.uci env.msrContent
      Logged.emit (.applyMicrocode apply.1)
      return some apply
    return some (e.finalError, e.uci)

/-! ## What one iteration does -/

section Iteration

variable (env : Env) (s : LoopState)

/-- What the first call of the iteration delivers. -/
def nextCall : Int × Option Bytes :=
  (getNextUcodeFromBuffer s.mc env.buf (env.size % 2 ^ (8 * env.abi.ulong)) s.offset).val

/-- The verdict on the image it delivers. -/
def verdict : Int := (microcodeSanityCheck env.abi ((nextCall env s).2.getD env.null) env.null).val

/-- What the third call of the iteration delivers. -/
def matching : Int × UcodeCpuInfo :=
  getMatchingMicrocode env.abi s.uci ((nextCall env s).2.getD env.null) (env.extHeader s.iter) (env.newMc s.iter)

variable {env s}

theorem requestStep_end (h : (nextCall env s).1 ≤ 0) : requestStep env s =
    ⟨.leave ⟨(nextCall env s).1, s.error, s.matchingCount, s.uci⟩,
      [.getNextUcodeFromBuffer s.offset (nextCall env s).1]⟩ := by
  unfold nextCall at h ⊢
  ext1 <;> simp [requestStep, h]

theorem requestStep_rejected (h : 0 < (nextCall env s).1) (hv : verdict env s < 0) : requestStep env s =
    ⟨.leave ⟨(nextCall env s).1, verdict env s, s.matchingCount, s.uci⟩,
      [.getNextUcodeFromBuffer s.offset (nextCall env s).1, .microcodeSanityCheck s.offset (verdict env s)]⟩ := by
  have hn : ¬(nextCall env s).1 ≤ 0 := by omega
  have hv' : verdict env s ≠ 0 := by omega
  unfold verdict nextCall at *
  ext1 <;> simp [requestStep, hn, hv']

theorem requestStep_noMemory (h : 0 < (nextCall env s).1) (hv : verdict env s = 0) (hm : (matching env s).1 < 0) :
    requestStep env s =
      ⟨.leave ⟨(nextCall env s).1, (matching env s).1, s.matchingCount, (matching env s).2⟩,
        [.getNextUcodeFromBuffer s.offset (nextCall env s).1, .microcodeSanityCheck s.offset 0,
          .getMatchingMicrocode s.offset (matching env s).1]⟩ := by
  have hn : ¬(nextCall env s).1 ≤ 0 := by omega
  unfold verdict matching nextCall at *
  ext1 <;> simp [requestStep, hn, hv, hm]

theorem requestStep_goesOn (h : 0 < (nextCall env s).1) (hv : verdict env s = 0) (hm : 0 ≤ (matching env s).1) :
    ∃ count, requestStep env s =
      ⟨.next ⟨(nextCall env s).1.toNat, 0, count, (nextCall env s).2, (matching env s).2, s.iter + 1⟩,
        [.getNextUcodeFromBuffer s.offset (nextCall env s).1, .microcodeSanityCheck s.offset 0,
          .getMatchingMicrocode s.offset (matching env s).1]⟩ := by
  have hn : ¬(nextCall env s).1 ≤ 0 := by omega
  have hm' : ¬(matching env s).1 < 0 := by omega
  have hret : (matching env s).1 = 0 ∨ (matching env s).1 = 1 := by
    rcases getMatchingMicrocode_ret env.abi s.uci ((nextCall env s).2.getD env.null) (env.extHeader s.iter)
      (env.newMc s.iter) with h0 | h1 | ⟨h2, -⟩
    · exact Or.inl h0
    · exact Or.inr h1
    · unfold matching at hm
      omega
  unfold verdict matching nextCall at *
  rcases hret with h0 | h1
  · exact ⟨s.matchingCount, by ext1 <;> simp [requestStep, hn, hv, h0]⟩
  · exact ⟨(s.matchingCount + 1) % 2 ^ 32, by ext1 <;> simp [requestStep, hn, hv, h1]⟩

end Iteration

/-- The check returns 0 or a negative code. -/
theorem verdict_nonpos (env : Env) (s : LoopState) : verdict env s ≤ 0 := (sanityCheck_ret _ _ _).nonpos

/-- **The ways of an iteration**: nothing is delivered, what is delivered is rejected, there is no memory for the copy,
or the loop goes on. -/
theorem requestStep_ways (env : Env) (s : LoopState) : (nextCall env s).1 ≤ 0 ∨
    0 < (nextCall env s).1 ∧ verdict env s < 0 ∨
    0 < (nextCall env s).1 ∧ verdict env s = 0 ∧ (matching env s).1 < 0 ∨
    0 < (nextCall env s).1 ∧ verdict env s = 0 ∧ 0 ≤ (matching env s).1 := by
  have hv := verdict_nonpos env s
  omega

/-- An iteration that leaves does so at its first call, with the locals of the head, or with a negative error. -/
theorem requestStep_leave {env : Env} {s : LoopState} {e : LoopEnd} (h : (requestStep env s).val = .leave e) :
    ((nextCall env s).1 ≤ 0 ∧ e = ⟨(nextCall env s).1, s.error, s.matchingCount, s.uci⟩ ∧
      (requestStep env s).log = [.getNextUcodeFromBuffer s.offset (nextCall env s).1]) ∨
    (0 < (nextCall env s).1 ∧ e.offset = (nextCall env s).1 ∧ e.error < 0) := by
  rcases requestStep_ways env s with hn | ⟨hn, hv⟩ | ⟨hn, hv, hm⟩ | ⟨hn, hv, hm⟩
  · refine Or.inl ⟨hn, ?_⟩
    rw [requestStep_end hn, Iter.leave.injEq] at h
    exact ⟨h.symm, by rw [requestStep_end hn]⟩
  · rw [requestStep_rejected hn hv, Iter.leave.injEq] at h
    subst h
    exact Or.inr ⟨hn, rfl, hv⟩
  · rw [requestStep_noMemory hn hv hm, Iter.leave.injEq] at h
    subst h
    exact Or.inr ⟨hn, rfl, hm⟩
  · obtain ⟨count, hg⟩ := requestStep_goesOn hn hv hm
    rw [hg] at h
    cases h

/-- An iteration that goes on had no failing call and resets `error`. -/
theorem requestStep_next {env : Env} {s t : LoopState} (h : (requestStep env s).val = .next t) :
    0 < (nextCall env s).1 ∧ t.offset = (nextCall env s).1 ∧ t.error = 0 ∧
      ∀ c ∈ (requestStep env s).log, 0 ≤ c.ret := by
  rcases requestStep_ways env s with hn | ⟨hn, hv⟩ | ⟨hn, hv, hm⟩ | ⟨hn, hv, hm⟩
  · rw [requestStep_end hn] at h
    cases h
  · rw [requestStep_rejected hn hv] at h
    cases h
  · rw [requestStep_noMemory hn hv hm] at h
    cases h
  · obtain ⟨count, hg⟩ := requestStep_goesOn hn hv hm
    rw [hg, Iter.next.injEq] at h
    subst h
    refine ⟨hn, Int.toNat_of_nonneg (by omega), rfl, ?_⟩
    simp [hg, Call.ret, hm, Int.le_of_lt hn]

/-- The loop never calls `apply_microcode`. -/
theorem requestStep_noApply (env : Env) (s : LoopState) : (requestStep env s).Only fun c => ¬c.IsApply := by
  have hget : ∀ off ret, ¬(Call.getNextUcodeFromBuffer off ret).IsApply := fun _ _ => id
  have hcheck : ∀ off ret, ¬(Call.microcodeSanityCheck off ret).IsApply := fun _ _ => id
  have hmatch : ∀ off ret, ¬(Call.getMatchingMicrocode off ret).IsApply := fun _ _ => id
  simp [requestStep, hget, hcheck, hmatch]

/-! ## Lost errors -/

/-- Negative codes in the loop make the run fail without `apply_microcode`. -/
def ErrorsReported (calls : List Call) (ret : Int) : Prop :=
  (∃ c ∈ calls, ¬c.IsApply ∧ c.ret < 0) → ret ≠ 0 ∧ ∀ c ∈ calls, ¬c.IsApply

/-- `error` is 0 at every head of the loop. -/
theorem heads_error {env : Env} {mc : Option Bytes} {uci : UcodeCpuInfo} {s : LoopState}
    (h : Heads (requestStep env) (requestStart mc uci) s) : s.error = 0 :=
  h.inv (I := fun s => s.error = 0) (fun _ _ _ hn => (requestStep_next hn).2.2.1) rfl

/-- The test of `offset < 0` is only reached for `offset > 0`. -/
theorem finalError_eq (e : LoopEnd) : e.finalError = e.error := by
  unfold LoopEnd.finalError
  split_ifs
  · omega
  · rfl
  · rfl

/-- A run that ends is its loop, followed by `apply_microcode` if there was no error and a match. -/
theorem cpuRequest_some {env : Env} {mc : Option Bytes} {uci uci' : UcodeCpuInfo} {fuel : Nat} {ret : Int}
    (h : (cpuRequestMicrocode env mc uci fuel).val = some (ret, uci')) :
    ∃ e, (loop (requestStep env) fuel (requestStart mc uci)).val = some e ∧
      ((e.error = 0 ∧ (ret, uci') = applyMicrocode e.uci env.msrContent ∧ (cpuRequestMicrocode env mc uci fuel).log =
          (loop (requestStep env) fuel (requestStart mc uci)).log ++ [.applyMicrocode ret]) ∨
        (ret = e.error ∧ uci' = e.uci ∧ (cpuRequestMicrocode env mc uci fuel).log =
          (loop (requestStep env) fuel (requestStart mc uci)).log)) := by
  cases hl : (loop (requestStep env) fuel (requestStart mc uci)).val with
  | none => simp [cpuRequestMicrocode, hl] at h
  | some e =>
    refine ⟨e, rfl, ?_⟩
    by_cases hc : e.error = 0 ∧ e.matchingCount ≠ 0
    · simp only [cpuRequestMicrocode, Logged.val_bind, hl, finalError_eq, if_pos hc, Logged.val_pure,
        Option.some.injEq] at h
      exact Or.inl ⟨hc.1, h.symm, by simp [cpuRequestMicrocode, hl, finalError_eq, hc, h]⟩
    · simp only [cpuRequestMicrocode, Logged.val_bind, hl, finalError_eq, if_neg hc, Logged.val_pure,
        Option.some.injEq, Prod.mk.injEq] at h
      exact Or.inr ⟨h.1.symm, h.2.symm, by simp [cpuRequestMicrocode, hl, finalError_eq, hc]⟩

section Ended

variable {env : Env} {mc : Option Bytes} {uci : UcodeCpuInfo} {fuel : Nat} {e : LoopEnd}
  (hl : (loop (requestStep env) fuel (requestStart mc uci)).val = some e)

include hl

/-- The loop ends with a negative error, or with `error = 0` and the code of the first call in `offset`. -/
theorem loopEnd_cases : (0 < e.offset ∧ e.error < 0) ∨ (e.offset ≤ 0 ∧ e.error = 0) := by
  obtain ⟨u, hu, hleave, -⟩ := loop_exit hl
  rcases requestStep_leave hleave with ⟨hn, rfl, -⟩ | ⟨hn, ho, he⟩
  · exact Or.inr ⟨hn, heads_error hu⟩
  · exact Or.inl ⟨ho ▸ hn, he⟩

theorem loop_noApply : ∀ c ∈ (loop (requestStep env) fuel (requestStart mc uci)).log, ¬c.IsApply := fun c hc => by
  obtain ⟨t, -, ht⟩ := (loop_mem_log hl c).mp hc
  exact requestStep_noApply env t c ht

/-- A negative code of the loop ends it and is found behind it in `offset` or in `error`. -/
theorem loopEnd_of_negative {c : Call} (hc : c ∈ (loop (requestStep env) fuel (requestStart mc uci)).log)
    (hneg : c.ret < 0) : e.offset < 0 ∨ e.error < 0 := by
  obtain ⟨u, hu, hleave, hgo⟩ := loop_exit hl
  obtain ⟨t, ht, hct⟩ := (loop_mem_log hl c).mp hc
  rcases hgo t ht with rfl | ⟨t', ht'⟩
  · rcases requestStep_leave hleave with ⟨-, rfl, hlog⟩ | ⟨-, -, he⟩
    · rw [hlog, List.mem_singleton] at hct
      subst hct
      exact Or.inl hneg
    · exact Or.inr he
  · exact absurd ((requestStep_next ht').2.2.2 c hct) (by omega)

/-- A negative `offset` behind the loop is the code of a call. -/
theorem negative_of_loopEnd (h : e.offset < 0) :
    ∃ c ∈ (loop (requestStep env) fuel (requestStart mc uci)).log, c.ret < 0 := by
  obtain ⟨u, hu, hleave, -⟩ := loop_exit hl
  rcases requestStep_leave hleave with ⟨hn, rfl, hlog⟩ | ⟨hn, ho, -⟩
  · exact ⟨.getNextUcodeFromBuffer u.offset (nextCall env u).1, (loop_mem_log hl _).mpr ⟨u, hu, by simp [hlog]⟩, h⟩
  · omega

/-- The loop ends with a negative `offset` exactly if an iteration starts where the first call refuses. -/
theorem loopEnd_offset_neg_iff : e.offset < 0 ↔ ∃ s, Heads (requestStep env) (requestStart mc uci) s ∧
    Refused s.mc env.buf (env.size % 2 ^ (8 * env.abi.ulong)) s.offset := by
  obtain ⟨u, hu, hleave, hgo⟩ := loop_exit hl
  have hu' : (nextCall env u).1 = e.offset := by
    rcases requestStep_leave hleave with ⟨-, rfl, -⟩ | ⟨-, ho, -⟩
    · rfl
    · exact ho.symm
  constructor
  · intro h
    exact ⟨u, hu, (nextUcode_neg_iff _ _ _ _).mp (hu' ▸ h)⟩
  · rintro ⟨s, hs, href⟩
    have hns : (nextCall env s).1 < 0 := (nextUcode_neg_iff _ _ _ _).mpr href
    rcases hgo s hs with rfl | ⟨t, ht⟩
    · omega
    · exact absurd (requestStep_next ht).1 (by omega)

end Ended

/-- A run that leaves in the first iteration returns its error, and the calls are that iteration's. -/
theorem cpuRequest_leave {env : Env} {mc : Option Bytes} {uci uci' : UcodeCpuInfo} {offset error : Int}
    {calls : List Call} (h : requestStep env (requestStart mc uci) = ⟨.leave ⟨offset, error, 0, uci'⟩, calls⟩) :
    cpuRequestMicrocode env mc uci 1 = ⟨some (error, uci'), calls⟩ := by
  ext1 <;> simp [cpuRequestMicrocode, loop, h, finalError_eq]

/-- A file of `size` bytes, all 0 but for a declared size of 56, on a machine with nothing else in memory. -/
def fileOf56 (size : Nat) : Env :=
  ⟨.lp64, fun i => if i = 36 then 56 else 0, size, fun _ => 0, fun _ _ => 0, fun _ => none, 0⟩

/-- A CPU without a cached update. -/
def freshCpu : UcodeCpuInfo := ⟨0, 0, 0, none⟩

/-- **Which errors are lost.** A run that ends reports every negative code of its loop exactly if no iteration starts
at an offset where `get_next_ucode_from_buffer` refuses. -/
theorem errorsReported_iff (env : Env) (mc : Option Bytes) (uci uci' : UcodeCpuInfo) (fuel : Nat) (ret : Int)
    (h : (cpuRequestMicrocode env mc uci fuel).val = some (ret, uci')) :
    ErrorsReported (cpuRequestMicrocode env mc uci fuel).log ret ↔
      ∀ s, Heads (requestStep env) (requestStart mc uci) s →
        ¬Refused s.mc env.buf (env.size % 2 ^ (8 * env.abi.ulong)) s.offset := by
  obtain ⟨e, hl, hret⟩ := cpuRequest_some h
  have hnone : (∀ s, Heads (requestStep env) (requestStart mc uci) s →
      ¬Refused s.mc env.buf (env.size % 2 ^ (8 * env.abi.ulong)) s.offset) ↔ ¬e.offset < 0 := by
    rw [loopEnd_offset_neg_iff hl]
    simp only [not_exists, not_and]
  rw [hnone]
  constructor
  · -- a negative `offset` comes with `error = 0`: the run succeeds or applies what was cached before
    intro hrep hneg
    obtain ⟨c, hc, hcneg⟩ := negative_of_loopEnd hl hneg
    rcases hret with ⟨-, -, hlog⟩ | ⟨hret, -, hlog⟩ <;> rw [hlog] at hrep
    · exact (hrep ⟨c, List.mem_append_left _ hc, loop_noApply hl c hc, hcneg⟩).2 (.applyMicrocode ret)
        (List.mem_append_right _ (List.mem_singleton.mpr rfl)) trivial
    · have h0 := (hrep ⟨c, hc, loop_noApply hl c hc, hcneg⟩).1
      rcases loopEnd_cases hl with h1 | h1 <;> omega
  · rintro hpos ⟨c, hc, hca, hcneg⟩
    have hc' : c ∈ (loop (requestStep env) fuel (requestStart mc uci)).log := by
      rcases hret with ⟨-, -, hlog⟩ | ⟨-, -, hlog⟩ <;> rw [hlog] at hc
      · rw [List.mem_append, List.mem_singleton] at hc
        exact hc.resolve_right fun hc => hca (hc ▸ trivial)
      · exact hc
    have he : e.error < 0 := (loopEnd_of_negative hl hc' hcneg).resolve_left hpos
    rcases hret with ⟨h0, -⟩ | ⟨hret, -, hlog⟩
    · omega
    · exact ⟨by omega, hlog ▸ loop_noApply hl⟩

/-- The file cut off at 52 bytes is refused, but the refusal is lost and the run returns 0. -/
theorem errorsReported_counterexample :
    ¬ ∀ (env : Env) (mc : Option Bytes) (uci uci' : UcodeCpuInfo) (fuel : Nat) (ret : Int),
      (cpuRequestMicrocode env mc uci fuel).val = some (ret, uci') →
        ErrorsReported (cpuRequestMicrocode env mc uci fuel).log ret := by
  intro h
  have hn : (nextCall (fileOf56 52) (requestStart (some fun _ => 0) freshCpu)).1 = -101 := by
    simp [nextCall, requestStart, fileOf56, getNextUcodeFromBuffer, totalSize, leWord, int32, Abi.ulong]
  have hrun := cpuRequest_leave (requestStep_end (by rw [hn]; decide))
  have hrep := h (fileOf56 52) (some fun _ => 0) freshCpu freshCpu 1 0 (by rw [hrun]; rfl)
  rw [hrun, hn] at hrep
  exact (hrep ⟨_, List.mem_singleton.mpr rfl, id, by decide⟩).1 rfl

/-- The whole file has loader version 0: it is rejected in the first iteration, and the run says so. -/
theorem errorsReported_fileOf56 :
    ErrorsReported [.getNextUcodeFromBuffer 0 56, .microcodeSanityCheck 0 (-101)] (-101) := by
  have hn : (nextCall (fileOf56 56) (requestStart (some fun _ => 0) freshCpu)).1 = 56 := by
    simp [nextCall, requestStart, fileOf56, getNextUcodeFromBuffer, totalSize, leWord, int32, Abi.ulong]
  have hv : verdict (fileOf56 56) (requestStart (some fun _ => 0) freshCpu) = -101 := by
    simp [verdict, nextCall, requestStart, fileOf56, getNextUcodeFromBuffer, microcodeSanityCheck, copyLoop_val,
      totalSize, dataSize, leWord, int32, Abi.ulong, Abi.sizeT]
  have hstep := requestStep_rejected (by rw [hn]; decide) (by rw [hv]; decide)
  have hrun := cpuRequest_leave hstep
  rw [hn, hv] at hrun
  have hiff := errorsReported_iff (fileOf56 56) (some fun _ => 0) freshCpu freshCpu 1 (-101) (by rw [hrun]; rfl)
  rw [hrun] at hiff
  apply hiff.mpr
  intro s hs href
  rcases hs.cases_head with rfl | ⟨t, ht, -⟩
  · have hneg : (nextCall (fileOf56 56) (requestStart (some fun _ => 0) freshCpu)).1 < 0 :=
      (nextUcode_neg_iff _ _ _ _).mpr href
    omega
  · rw [hstep] at ht
    cases ht

end Xen.Intel
