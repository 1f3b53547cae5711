import Xen.Intel.Revision
import Xen.Intel.Signature

/-!
# Runs of the Intel microcode driver (`intel_verified.c`)

- An `OpsCall` is a call of one of `microcode_ops` on one CPU; `microcodeResumeMatch` is `microcode_resume_match` and
  `collectInfo` a call of `collect_cpu_info` on the CPU's own signature.
- `request_delivers`: what `cpu_request_microcode` caches is a copy of an image that passed the check and matched the
  CPU. `microcode_resume_match` matches, but does not check.
- `driver_provenance`: whatever a CPU has cached after a run was delivered so by one of the calls, and has been cached
  ever since; and the CPU's revision changes only to that of the cached update, or when it is read again.
-/

namespace Xen.Intel

open Lib

/-! ## The functions -/

/-- `microcode_resume_match`. -/
def microcodeResumeMatch (abi : Abi) (uci : UcodeCpuInfo) (mc extHeader : Bytes) (newMc : Option Bytes) :
    Int × UcodeCpuInfo :=
  getMatchingMicrocode abi uci mc extHeader newMc

/-- `start_update`. -/
def startUpdate : Int := 0

/-- The CPU's signature as `struct cpu_signature`. -/
def UcodeCpuInfo.csig (uci : UcodeCpuInfo) : Bytes :=
  storeWord (storeWord (storeWord (fun _ => 0) CpuSignature.sig 4 uci.sig) CpuSignature.pf 4 uci.pf) CpuSignature.rev 4
    uci.rev

/-- `collect_cpu_info(cpu, &uci->cpu_sig)`. -/
def collectInfo (c : CpuinfoX86) (msrContent : Nat) (uci : UcodeCpuInfo) : Int × UcodeCpuInfo :=
  let r := collectCpuInfo c msrContent uci.csig
  (r.1, { uci with
    sig := leWord r.2 CpuSignature.sig 4
    pf := leWord r.2 CpuSignature.pf 4
    rev := leWord r.2 CpuSignature.rev 4 })

/-! ## Runs -/

/-- A call of one of `microcode_ops`, with its surroundings. -/
inductive OpsCall where
  | request (env : Env) (mc : Option Bytes) (fuel : Nat)
  | resumeMatch (abi : Abi) (mc extHeader : Bytes) (newMc : Option Bytes)
  | collect (c : CpuinfoX86) (msrContent : Nat)
  | apply (msrContent : Nat)
  | startUpdate

/-- What the call returns, and the CPU's state after it; `none` if it does not end. -/
def OpsCall.run (uci : UcodeCpuInfo) : OpsCall → Option (Int × UcodeCpuInfo)
  | .request env mc fuel => (cpuRequestMicrocode env mc uci fuel).val
  | .resumeMatch abi mc extHeader newMc => some (microcodeResumeMatch abi uci mc extHeader newMc)
  | .collect c msrContent => some (collectInfo c msrContent uci)
  | .apply msrContent => some (applyMicrocode uci msrContent)
  | .startUpdate => some (Intel.startUpdate, uci)

/-- The CPU's state after the call. -/
def opsStep (uci : UcodeCpuInfo) (call : OpsCall) : UcodeCpuInfo := ((call.run uci).map Prod.snd).getD uci

/-- The CPU's state after the calls. -/
def afterCalls (uci : UcodeCpuInfo) (calls : List OpsCall) : UcodeCpuInfo := calls.foldl opsStep uci

/-- **A copy to be cached**: that of an image which matches the CPU. -/
structure Copied (abi : Abi) (uci : UcodeCpuInfo) (mc extHeader cached : Bytes) : Prop where
  matched : Matches abi uci mc extHeader
  bytes : ∀ k : Nat, (k : Int) < int32 (totalSize mc 0) → cached k = mc k

/-- The two states are the same but for what is cached. -/
def SameCpu (uci uci' : UcodeCpuInfo) : Prop := uci'.sig = uci.sig ∧ uci'.pf = uci.pf ∧ uci'.rev = uci.rev

/-- **The call delivers the update**: an image of the file, which passed the check, or the one to resume with. -/
def Delivers (uci : UcodeCpuInfo) (call : OpsCall) (cached : Bytes) : Prop :=
  match call with
  | .request env mc _ => ∃ s, Heads (requestStep env) (requestStart mc uci) s ∧ SameCpu uci s.uci ∧
    (microcodeSanityCheck env.abi (image env s) env.null).val = 0 ∧
    Copied env.abi s.uci (image env s) (env.extHeader s.iter) cached
  | .resumeMatch abi mc extHeader _ => Copied abi uci mc extHeader cached
  | _ => False

/-- **Where updates and revisions come from** in a run: what is cached was delivered by one of the calls, and a revision
is that of what is cached or has been read again. -/
structure Provenance (uci : UcodeCpuInfo) (calls : List OpsCall) : Prop where
  cached : ∀ cached, (afterCalls uci calls).mcIntel = some cached → ∃ pre call post, calls = pre ++ call :: post ∧
    Delivers (afterCalls uci pre) call cached ∧
    Throughout (fun t => t.mcIntel = some cached) opsStep (opsStep (afterCalls uci pre) call) post
  revision : Along (fun t call => (opsStep t call).rev = t.rev ∨ (∃ c msrContent, call = .collect c msrContent) ∨
    ∃ cached, (opsStep t call).mcIntel = some cached ∧ (opsStep t call).rev = leWord cached Hdr.rev 4) opsStep uci calls

section Delivery

variable {abi : Abi} {uci : UcodeCpuInfo} {env : Env} {mc : Option Bytes}

theorem SameCpu.refl (uci : UcodeCpuInfo) : SameCpu uci uci := ⟨rfl, rfl, rfl⟩

/-- **`get_matching_microcode`** leaves the CPU's state alone, or caches a copy of the image, which matches. -/
theorem getMatchingMicrocode_delivers (abi : Abi) (uci : UcodeCpuInfo) (image extHeader : Bytes)
    (newMc : Option Bytes) : (getMatchingMicrocode abi uci image extHeader newMc).2 = uci ∨
      ∃ cached, (getMatchingMicrocode abi uci image extHeader newMc).2 = { uci with mcIntel := some cached } ∧
        Copied abi uci image extHeader cached := by
  by_cases hm : Matches abi uci image extHeader
  · rw [getMatchingMicrocode_match hm]
    cases newMc with
    | none => exact Or.inl rfl
    | some dst =>
      refine Or.inr ⟨_, rfl, hm, fun k hk => ?_⟩
      exact copy_bytes ⟨image, extHeader, dst⟩ hk
  · rw [getMatchingMicrocode_noMatch hm]
    exact Or.inl rfl

/-- What the iterations so far have made of the CPU's state. -/
def Loaded (env : Env) (mc : Option Bytes) (uci uci' : UcodeCpuInfo) : Prop :=
  SameCpu uci uci' ∧ (uci'.mcIntel = uci.mcIntel ∨
    ∃ cached fuel, uci'.mcIntel = some cached ∧ Delivers uci (.request env mc fuel) cached)

/-- **One iteration** at a head of the loop. -/
theorem requestStep_loaded {s : LoopState} (hs : Heads (requestStep env) (requestStart mc uci) s)
    (h : Loaded env mc uci s.uci) : Loaded env mc uci (uciAfter (requestStep env s).val) := by
  rcases requestStep_uci env s with hsame | ⟨hcaches, hcall⟩
  · rw [hsame]
    exact h
  · have hmatching := getMatchingMicrocode_delivers env.abi s.uci (image env s) (env.extHeader s.iter)
      (env.newMc s.iter)
    have hcopy : (matching env s).2 = (getMatchingMicrocode env.abi s.uci (image env s) (env.extHeader s.iter)
      (env.newMc s.iter)).2 := rfl
    rw [hcall, hcopy]
    rcases hmatching with hleft | ⟨cached, hset, hcopied⟩
    · rw [hleft]
      exact h
    · rw [hset]
      exact ⟨h.1, Or.inr ⟨cached, 0, rfl, s, hs, h.1, hcaches.2.1, hcopied⟩⟩

/-- Behind the loop. -/
theorem loop_loaded {fuel : Nat} {e : LoopEnd} (hl : (loop (requestStep env) fuel (requestStart mc uci)).val = some e) :
    Loaded env mc uci e.uci := by
  obtain ⟨u, hu, hleave, -⟩ := loop_exit hl
  have hheads : ∀ t, Heads (requestStep env) (requestStart mc uci) t → Loaded env mc uci t.uci := by
    intro t ht
    induction ht with
    | start => exact ⟨SameCpu.refl uci, Or.inl rfl⟩
    | next ht hb ih =>
      have hloaded := requestStep_loaded ht ih
      rw [hb] at hloaded
      exact hloaded
  have hloaded := requestStep_loaded hu (hheads u hu)
  rw [hleave] at hloaded
  exact hloaded

/-- An application leaves what is cached, and a new revision is that of what is cached. -/
theorem applyMicrocode_provenance (uci : UcodeCpuInfo) (msrContent : Nat) :
    (applyMicrocode uci msrContent).2.mcIntel = uci.mcIntel ∧ ((applyMicrocode uci msrContent).2.rev = uci.rev ∨
      ∃ cached, (applyMicrocode uci msrContent).2.mcIntel = some cached ∧
        (applyMicrocode uci msrContent).2.rev = leWord cached Hdr.rev 4) := by
  rcases applyMicrocode_cases uci msrContent with hsame | ⟨cached, hcached, happly⟩
  · rw [hsame]
    exact ⟨rfl, Or.inl rfl⟩
  · rw [happly]
    exact ⟨rfl, Or.inr ⟨cached, hcached, rfl⟩⟩

/-- **`cpu_request_microcode`** leaves what is cached or delivers, and a new revision is that of what is cached. -/
theorem request_delivers {fuel : Nat} (ret : Int) {uci' : UcodeCpuInfo}
    (hrun : (cpuRequestMicrocode env mc uci fuel).val = some (ret, uci')) :
    (uci'.mcIntel = uci.mcIntel ∨
      ∃ cached, uci'.mcIntel = some cached ∧ Delivers uci (.request env mc fuel) cached) ∧
    (uci'.rev = uci.rev ∨ ∃ cached, uci'.mcIntel = some cached ∧ uci'.rev = leWord cached Hdr.rev 4) := by
  obtain ⟨e, hl, hend⟩ := cpuRequest_some hrun
  obtain ⟨⟨-, -, hrev⟩, hloaded⟩ := loop_loaded hl
  have hdelivered : e.uci.mcIntel = uci.mcIntel ∨
      ∃ cached, e.uci.mcIntel = some cached ∧ Delivers uci (.request env mc fuel) cached := by
    rcases hloaded with hleft | ⟨cached, _, hset, hd⟩
    · exact Or.inl hleft
    · exact Or.inr ⟨cached, hset, hd⟩
  rcases hend with ⟨-, happly, -⟩ | ⟨-, rfl, -⟩
  · obtain ⟨hmc, hrev'⟩ := applyMicrocode_provenance e.uci env.msrContent
    rw [← happly] at hmc hrev'
    rw [hmc]
    rw [hrev, hmc] at hrev'
    exact ⟨hdelivered, hrev'⟩
  · exact ⟨hdelivered, Or.inl hrev⟩

/-- **One call**: what it does to what is cached, and to the revision. -/
theorem opsStep_cases (uci : UcodeCpuInfo) (call : OpsCall) :
    ((opsStep uci call).mcIntel = uci.mcIntel ∨
      ∃ cached, (opsStep uci call).mcIntel = some cached ∧ Delivers uci call cached) ∧
    ((opsStep uci call).rev = uci.rev ∨ (∃ c msrContent, call = .collect c msrContent) ∨
      ∃ cached, (opsStep uci call).mcIntel = some cached ∧ (opsStep uci call).rev = leWord cached Hdr.rev 4) := by
  cases call with
  | request env mc fuel =>
    cases hrun : (cpuRequestMicrocode env mc uci fuel).val with
    | none =>
      have hstep : opsStep uci (.request env mc fuel) = uci := by simp only [opsStep, OpsCall.run, hrun]; rfl
      rw [hstep]
      exact ⟨Or.inl rfl, Or.inl rfl⟩
    | some r =>
      have hstep : opsStep uci (.request env mc fuel) = r.2 := by simp only [opsStep, OpsCall.run, hrun]; rfl
      rw [hstep]
      obtain ⟨hmc, hrev⟩ := request_delivers r.1 hrun
      exact ⟨hmc, hrev.imp_right Or.inr⟩
  | resumeMatch abi mc extHeader newMc =>
    have hstep : opsStep uci (.resumeMatch abi mc extHeader newMc) =
        (getMatchingMicrocode abi uci mc extHeader newMc).2 := rfl
    rw [hstep]
    rcases getMatchingMicrocode_delivers abi uci mc extHeader newMc with hleft | ⟨cached, hset, hcopied⟩
    · rw [hleft]
      exact ⟨Or.inl rfl, Or.inl rfl⟩
    · rw [hset]
      exact ⟨Or.inr ⟨cached, rfl, hcopied⟩, Or.inl rfl⟩
  | collect c msrContent => exact ⟨Or.inl rfl, Or.inr (Or.inl ⟨c, msrContent, rfl⟩)⟩
  | apply msrContent =>
    have hstep : opsStep uci (.apply msrContent) = (applyMicrocode uci msrContent).2 := rfl
    obtain ⟨hmc, hrev⟩ := applyMicrocode_provenance uci msrContent
    rw [hstep]
    exact ⟨Or.inl hmc, hrev.imp_right Or.inr⟩
  | startUpdate => exact ⟨Or.inl rfl, Or.inl rfl⟩

end Delivery

/-- **Nothing is cached that was not delivered.** From a CPU without a cached update, a run of any calls of
`microcode_ops` caches only images of files that passed the check, and images to resume with, that matched the CPU. -/
theorem driver_provenance (uci : UcodeCpuInfo) (calls : List OpsCall) (h : uci.mcIntel = none) :
    Provenance uci calls where
  cached cached hcached := by
    have horigin := foldl_origin (D := Delivers) UcodeCpuInfo.mcIntel (fun s e => (opsStep_cases s e).1) hcached
    refine horigin.resolve_left fun hkept => ?_
    have hstart := hkept.head
    rw [h] at hstart
    cases hstart
  revision := along_of_forall (fun s e => (opsStep_cases s e).2) uci calls

/-- A file with an update of 56 bytes, and then the same update to resume with. -/
theorem driver_provenance_newer56 : Provenance cpu5
    [.request (fileOfHeader .llp64 newer56 56 9) (some fun _ => 0) 2, .startUpdate,
      .resumeMatch .llp64 (Bytes.ofList newer56) (fun _ => 0) (some fun _ => 0)] :=
  driver_provenance cpu5 _ rfl

end Xen.Intel
