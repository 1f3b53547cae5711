import Xen.VmEvent.Contents

/-!
# Responses to the vCPUs of a domain (`vm_event_verified.c`)

- `Handler`: `vmEventRegisterWriteResume`, `vmEventSetRegisters`, `vmEventSyncEvent` and `vmEventEmulateCheck`, each on
  the record of one vCPU. They use `v->arch.vm_event` without a check of their own.
- A run is a list of `Activity`s on a `Listener`: init and cleanup, handlers of any vCPUs, changes of their pause
  counts, and writes of others to memory that is not live. `ready`: the last `vm_event_init_domain` returned 0, and
  `vm_event_cleanup_domain` did not follow.
- `handlers_isolated`: in every run whose handlers run while the domain is ready, each of them finds a live record, and
  no activity changes the record of another vCPU.
- `responses_handled`: what the responses of one vCPU leave in its record, whatever is handled for the others. A write
  stays to be done exactly if no response denied it while the vCPU was paused.
-/

namespace Xen.VmEvent

open Lib

variable {α γ : Type}

/-! ## Data model -/

def VM_EVENT_REASON_WRITE_CTRLREG : BitVec 32 := 4#32
def VM_EVENT_REASON_MOV_TO_MSR : BitVec 32 := 5#32

def VM_EVENT_X86_CR0 : BitVec 32 := 0#32
def VM_EVENT_X86_CR3 : BitVec 32 := 1#32
def VM_EVENT_X86_CR4 : BitVec 32 := 2#32

def VM_EVENT_FLAG_DENY : BitVec 32 := 1#32 <<< 6

/-- `struct arch_vm_event` with its `gprs`, of type `γ`. -/
structure ArchVmEventRegs (γ : Type) extends ArchVmEvent where
  gprs : γ
deriving DecidableEq, Repr

/-- `vm_event_response_t` with `u.write_ctrlreg.index` and `data.regs.x86`. -/
structure VmEventResponseRegs (γ : Type) extends VmEventResponse where
  index : BitVec 32
  regs : γ
deriving DecidableEq, Repr

/-- The members of `do_write`. -/
inductive DoWriteField where
  | msr | cr0 | cr3 | cr4
deriving DecidableEq, Repr

def DoWrite.get (w : DoWrite) : DoWriteField → BitVec 32
  | .msr => w.msr
  | .cr0 => w.cr0
  | .cr3 => w.cr3
  | .cr4 => w.cr4

/-! ## The handlers -/

/-- The `switch` of `vm_event_register_write_resume`. -/
def denyWrite (rsp : VmEventResponseRegs γ) (w : DoWrite) : DoWrite :=
  if rsp.reason = VM_EVENT_REASON_MOV_TO_MSR then { w with msr := 0#32 }
  else if rsp.reason = VM_EVENT_REASON_WRITE_CTRLREG then
    if rsp.index = VM_EVENT_X86_CR0 then { w with cr0 := 0#32 }
    else if rsp.index = VM_EVENT_X86_CR3 then { w with cr3 := 0#32 }
    else if rsp.index = VM_EVENT_X86_CR4 then { w with cr4 := 0#32 }
    else w
  else w

/-- `vm_event_register_write_resume`; `pauseCount` is what `atomic_read(&v->vm_event_pause_count)` returns. -/
def vmEventRegisterWriteResume (pauseCount : Int) (rsp : VmEventResponseRegs γ) (r : ArchVmEventRegs γ) :
    ArchVmEventRegs γ :=
  if hasFlag rsp.flags VM_EVENT_FLAG_DENY then
    -- the deny flag requires the vCPU to be paused
    if pauseCount = 0 then r
    else { r with doWrite := denyWrite rsp r.doWrite }
  else r

/-- `vm_event_set_registers`. -/
def vmEventSetRegisters (rsp : VmEventResponseRegs γ) (r : ArchVmEventRegs γ) : ArchVmEventRegs γ :=
  { r with gprs := rsp.regs, setGprs := true }

/-- `vm_event_sync_event`. -/
def vmEventSyncEvent (value : Bool) (r : ArchVmEventRegs γ) : ArchVmEventRegs γ := { r with syncEvent := value }

/-- A handler and its arguments; `n` is the number of the response. -/
inductive Handler (γ : Type) where
  | registerWriteResume (rsp : VmEventResponseRegs γ)
  | setRegisters (rsp : VmEventResponseRegs γ)
  | syncEvent (value : Bool)
  | emulateCheck (n : Nat) (rsp : VmEventResponseRegs γ)

/-- What a handler does to the record of its vCPU. -/
def Handler.run (pauseCount : Int) (r : ArchVmEventRegs γ) : Handler γ → ArchVmEventRegs γ
  | .registerWriteResume rsp => vmEventRegisterWriteResume pauseCount rsp r
  | .setRegisters rsp => vmEventSetRegisters rsp r
  | .syncEvent value => vmEventSyncEvent value r
  | .emulateCheck n rsp => { r with toArchVmEvent := vmEventEmulateCheck n rsp.toVmEventResponse r.toArchVmEvent }

/-! ## Runs -/

/-- The domain, the addresses of the live records, the record at every address, `vm_event_pause_count` and
`monitor.next_interrupt_enabled` of every vCPU, and whether the listener may handle responses, a ghost. -/
structure Listener (α γ : Type) where
  dom : Domain α
  live : Finset Nat
  mem : Nat → ArchVmEventRegs γ
  pauseCount : α → Int
  nextInterrupt : α → Bool
  ready : Bool

/-- What may happen. -/
inductive Activity (α γ : Type) where
  | call (c : Call α)
  | handle (v : α) (h : Handler γ)
  | monitorNextInterrupt (v : α)
  | pause (v : α) (count : Int)
  | store (a : Nat) (r : ArchVmEventRegs γ)

def Listener.state (s : Listener α γ) : State α := ⟨s.dom, s.live⟩

/-- The record of a vCPU, if it has one. -/
def Listener.record (s : Listener α γ) (v : α) : Option (ArchVmEventRegs γ) :=
  if s.dom.vmEvent v = 0 then none else some (s.mem (s.dom.vmEvent v))

section Runs

variable [DecidableEq α]

/-- `vm_event_init_domain` returns 0. -/
def readyAfter (fuel : Nat) (d : Domain α) : Call α → Bool
  | .init malloc => (vmEventInitDomain fuel d malloc).val.map Prod.fst = some 0
  | .cleanup => false

/-- One activity. -/
def listenerStep (fuel : Nat) (s : Listener α γ) : Activity α γ → Listener α γ
  | .call c =>
    ⟨(step fuel s.state c).dom, (step fuel s.state c).live, s.mem, s.pauseCount, s.nextInterrupt,
      readyAfter fuel s.dom c⟩
  | .handle v h =>
    let a := s.dom.vmEvent v
    { s with mem := Function.update s.mem a (h.run (s.pauseCount v) (s.mem a)) }
  | .monitorNextInterrupt v => { s with nextInterrupt := Function.update s.nextInterrupt v true }
  | .pause v count => { s with pauseCount := Function.update s.pauseCount v count }
  | .store a r => { s with mem := Function.update s.mem a r }

/-- `malloc` returns no live record, handlers run for vCPUs of a domain that is ready, others write to memory that is
not live. -/
def Allowed (fuel : Nat) (l : List α) (s : Listener α γ) : Activity α γ → Prop
  | .call c => FreshCall fuel s.state c
  | .handle v _ => v ∈ l ∧ s.ready = true
  | .store a _ => a ∉ s.live
  | _ => True

instance (fuel : Nat) (l : List α) (s : Listener α γ) : (e : Activity α γ) → Decidable (Allowed fuel l s e)
  | .call c => inferInstanceAs (Decidable (FreshCall fuel s.state c))
  | .handle v _ => inferInstanceAs (Decidable (v ∈ l ∧ s.ready = true))
  | .store a _ => inferInstanceAs (Decidable (a ∉ s.live))
  | .monitorNextInterrupt _ => .isTrue trivial
  | .pause _ _ => .isTrue trivial

/-- Every live record is referenced by exactly one vCPU; in a domain that is ready, every vCPU has one. -/
structure Held (l : List α) (s : Listener α γ) : Prop where
  owned : Owned l s.state
  has : s.ready = true → ∀ v ∈ l, s.dom.vmEvent v ≠ 0

/-- **Isolated.** A handler finds a live record, its own; a vCPU that has a record keeps it as it is unless the activity
is a handler for it, or the cleanup. -/
structure Isolated (fuel : Nat) (l : List α) (s : Listener α γ) (e : Activity α γ) : Prop where
  found : ∀ v h, e = .handle v h → s.dom.vmEvent v ∈ s.live
  kept : ∀ v ∈ l, s.record v ≠ none → e ≠ .call .cleanup → (∀ h, e ≠ .handle v h) →
    (listenerStep fuel s e).record v = s.record v

variable {fuel : Nat} {l : List α} {s : Listener α γ} {v w : α}

omit [DecidableEq α] in
/-- Two vCPUs of the domain share no record. -/
theorem Held.vmEvent_ne (h : Held l s) (hv : v ∈ l) (hw : w ∈ l) (hne : v ≠ w) (hv0 : s.dom.vmEvent v ≠ 0) :
    s.dom.vmEvent v ≠ s.dom.vmEvent w := by
  intro heq
  have hlive := h.owned.once.owned v hv hv0
  exact hne ((h.owned.once.owner _ hlive).unique ⟨hv, rfl⟩ ⟨hw, heq.symm⟩)

/-! ### Init and cleanup -/

/-- **Init** does what it is for, and the domain is ready after it exactly if it returns 0. -/
theorem listenerStep_init (hf : l.length < fuel) {malloc : α → Nat} (h : Held l s)
    (hfresh : FreshCall fuel s.state (.init malloc)) :
    ∃ r, InitOk l s.dom.vmEvent (listenerStep fuel s (.call (.init malloc))).dom.vmEvent r ∧
      ((listenerStep fuel s (.call (.init malloc))).ready = true ↔ r = 0) := by
  obtain ⟨-, -, r, d', hval, hinit⟩ := step_owned hf h.owned hfresh
  have hval' : (vmEventInitDomain fuel s.dom malloc).val = some (r, d') := hval
  have hdom : (listenerStep fuel s (.call (.init malloc))).dom = d' := by
    simp [listenerStep, step, callDomain, hval]
  refine ⟨r, hdom ▸ hinit, ?_⟩
  simp [listenerStep, readyAfter, hval']

/-- **A call** keeps the ownership of the records. If the domain is ready after it, every vCPU has one. -/
theorem held_call (hf : l.length < fuel) {c : Call α} (h : Held l s) (hfresh : FreshCall fuel s.state c) :
    Held l (listenerStep fuel s (.call c)) := by
  refine ⟨(step_owned hf h.owned hfresh).1, ?_⟩
  intro hready
  cases c with
  | init malloc =>
    obtain ⟨r, hinit, hr⟩ := listenerStep_init hf h hfresh
    rcases hinit.result with ⟨-, hall, -⟩ | ⟨hfail, -⟩
    · exact hall
    · exact absurd ((hr.mp hready).symm.trans hfail) (by decide)
  | cleanup => exact absurd hready Bool.false_ne_true

/-- Init keeps the record of a vCPU that has one. -/
theorem record_init (hf : l.length < fuel) {malloc : α → Nat} (h : Held l s)
    (hfresh : FreshCall fuel s.state (.init malloc)) (hv : s.record v ≠ none) :
    (listenerStep fuel s (.call (.init malloc))).record v = s.record v := by
  obtain ⟨r, hinit, -⟩ := listenerStep_init hf h hfresh
  have hv0 : s.dom.vmEvent v ≠ 0 := by
    intro h0
    exact hv (if_pos h0)
  rw [Listener.record, Listener.record, hinit.kept v hv0]
  rfl

/-! ### Handlers -/

omit [DecidableEq α] in
/-- A write to memory that is no record of the vCPU. -/
theorem record_update {a : Nat} {r : ArchVmEventRegs γ} (hne : s.dom.vmEvent v ≠ 0 → s.dom.vmEvent v ≠ a) :
    Listener.record { s with mem := Function.update s.mem a r } v = s.record v := by
  by_cases h0 : s.dom.vmEvent v = 0
  · simp [Listener.record, h0]
  · simp [Listener.record, h0, Function.update_of_ne (hne h0)]

/-- A handler leaves the record of any other vCPU. -/
theorem record_handle_of_ne {h : Handler γ} (hheld : Held l s) (hv : v ∈ l) (hw : w ∈ l) (hne : v ≠ w) :
    (listenerStep fuel s (.handle w h)).record v = s.record v :=
  record_update fun hv0 => hheld.vmEvent_ne hv hw hne hv0

/-- A write to memory that is not live leaves every record. -/
theorem record_store {a : Nat} {r : ArchVmEventRegs γ} (hheld : Held l s) (ha : a ∉ s.live) (hv : v ∈ l) :
    (listenerStep fuel s (.store a r)).record v = s.record v :=
  record_update fun hv0 heq => ha (heq ▸ hheld.owned.once.owned v hv hv0)

/-! ### Every activity -/

/-- Every activity keeps the records held. -/
theorem listenerStep_held (hf : l.length < fuel) {e : Activity α γ} (h : Held l s) (ha : Allowed fuel l s e) :
    Held l (listenerStep fuel s e) := by
  cases e with
  | call c => exact held_call hf h ha
  | handle v hd => exact ⟨h.owned, h.has⟩
  | monitorNextInterrupt v => exact ⟨h.owned, h.has⟩
  | pause v count => exact ⟨h.owned, h.has⟩
  | store a r => exact ⟨h.owned, h.has⟩

/-- **One activity.** -/
theorem listenerStep_isolated (hf : l.length < fuel) {e : Activity α γ} (h : Held l s) (ha : Allowed fuel l s e) :
    Isolated fuel l s e := by
  constructor
  · rintro v hd rfl
    exact h.owned.once.owned v ha.1 (h.has ha.2 v ha.1)
  · intro v hv hrec hclean hhandle
    cases e with
    | call c =>
      cases c with
      | init malloc => exact record_init hf h ha hrec
      | cleanup => exact absurd rfl hclean
    | handle w hd =>
      refine record_handle_of_ne h hv ha.1 ?_
      rintro rfl
      exact hhandle hd rfl
    | monitorNextInterrupt w => rfl
    | pause w count => rfl
    | store a r => exact record_store h ha hv

/-! ## What the responses leave -/

/-- The response denies the write `f`, if its vCPU is paused. -/
def VmEventResponseRegs.denies (rsp : VmEventResponseRegs γ) (f : DoWriteField) : Bool :=
  hasFlag rsp.flags VM_EVENT_FLAG_DENY &&
    match f with
    | .msr => rsp.reason = VM_EVENT_REASON_MOV_TO_MSR
    | .cr0 => rsp.reason = VM_EVENT_REASON_WRITE_CTRLREG && rsp.index = VM_EVENT_X86_CR0
    | .cr3 => rsp.reason = VM_EVENT_REASON_WRITE_CTRLREG && rsp.index = VM_EVENT_X86_CR3
    | .cr4 => rsp.reason = VM_EVENT_REASON_WRITE_CTRLREG && rsp.index = VM_EVENT_X86_CR4

/-- The activity denies the write `f` of the vCPU, which is paused. -/
def Denies (v : α) (f : DoWriteField) (s : Listener α γ) : Activity α γ → Bool
  | .handle w (.registerWriteResume rsp) => w = v && s.pauseCount v ≠ 0 && rsp.denies f
  | _ => false

/-- The registers that a response stores for the vCPU. -/
def setsRegisters (v : α) : Activity α γ → Option γ
  | .handle w (.setRegisters rsp) => if w = v then some rsp.regs else none
  | _ => none

/-- `sync_event` as it is set for the vCPU. -/
def setsSyncEvent (v : α) : Activity α γ → Option Bool
  | .handle w (.syncEvent value) => if w = v then some value else none
  | _ => none

/-- The flags that a response stores, if it stores any. -/
def storedFlags (rsp : VmEventResponse) : Option (BitVec 32) :=
  if !hasFlag rsp.flags VM_EVENT_FLAG_EMULATE then some 0#32
  else if rsp.reason = VM_EVENT_REASON_DESCRIPTOR_ACCESS then some rsp.flags
  else if rsp.reason = VM_EVENT_REASON_SOFTWARE_BREAKPOINT &&
      hasFlag rsp.flags VM_EVENT_FLAG_SET_EMUL_INSN_DATA then some rsp.flags
  else none

/-- `emulate_flags` as they are set for the vCPU. -/
def setsFlags (v : α) : Activity α γ → Option (BitVec 32)
  | .handle w (.emulateCheck _ rsp) => if w = v then storedFlags rsp.toVmEventResponse else none
  | _ => none

/-- **Handled.** `r` is the record of the vCPU before the run and `r'` after it. Of the writes to be done those are left
that no response denied while the vCPU was paused; the rest is what was set last. -/
structure Handled (fuel : Nat) (v : α) (s : Listener α γ) (es : List (Activity α γ)) (r r' : ArchVmEventRegs γ) :
    Prop where
  doWrite : ∀ f, r'.doWrite.get f =
    if Along (fun s e => ¬Denies v f s e = true) (listenerStep fuel) s es then r.doWrite.get f else 0#32
  gprs : r'.gprs = (lastSet (setsRegisters v) es).getD r.gprs
  setGprs : r'.setGprs = (r.setGprs || (lastSet (setsRegisters v) es).isSome)
  syncEvent : r'.syncEvent = (lastSet (setsSyncEvent v) es).getD r.syncEvent
  emulateFlags : r'.emulateFlags = (lastSet (setsFlags v) es).getD r.emulateFlags

/-! ### One activity -/

/-- `denyWrite` clears the writes that the response denies. -/
theorem denyWrite_get {rsp : VmEventResponseRegs γ} (hflag : hasFlag rsp.flags VM_EVENT_FLAG_DENY = true)
    (w : DoWrite) (f : DoWriteField) :
    (denyWrite rsp w).get f = if rsp.denies f then 0#32 else w.get f := by
  have hne : VM_EVENT_REASON_WRITE_CTRLREG ≠ VM_EVENT_REASON_MOV_TO_MSR := by decide
  by_cases hmsr : rsp.reason = VM_EVENT_REASON_MOV_TO_MSR
  · cases f <;> simp [denyWrite, VmEventResponseRegs.denies, DoWrite.get, hflag, hmsr, hne.symm]
  by_cases hctrl : rsp.reason = VM_EVENT_REASON_WRITE_CTRLREG
  · have h03 : VM_EVENT_X86_CR0 ≠ VM_EVENT_X86_CR3 := by decide
    have h04 : VM_EVENT_X86_CR0 ≠ VM_EVENT_X86_CR4 := by decide
    have h34 : VM_EVENT_X86_CR3 ≠ VM_EVENT_X86_CR4 := by decide
    by_cases h0 : rsp.index = VM_EVENT_X86_CR0
    · cases f <;> simp [denyWrite, VmEventResponseRegs.denies, DoWrite.get, hflag, hctrl, hne, h0, h03, h04]
    by_cases h3 : rsp.index = VM_EVENT_X86_CR3
    · cases f <;> simp [denyWrite, VmEventResponseRegs.denies, DoWrite.get, hflag, hctrl, hne, h3, h03.symm, h34]
    by_cases h4 : rsp.index = VM_EVENT_X86_CR4
    · cases f <;> simp [denyWrite, VmEventResponseRegs.denies, DoWrite.get, hflag, hctrl, hne, h4, h04.symm, h34.symm]
    · cases f <;> simp [denyWrite, VmEventResponseRegs.denies, DoWrite.get, hflag, hctrl, hne, h0, h3, h4]
  · cases f <;> simp [denyWrite, VmEventResponseRegs.denies, DoWrite.get, hmsr, hctrl]

/-- The flags after a response. -/
theorem emulateCheck_flags (n : Nat) (rsp : VmEventResponse) (r : ArchVmEvent) :
    (vmEventEmulateCheck n rsp r).emulateFlags = (storedFlags rsp).getD r.emulateFlags := by
  have h1 : VM_EVENT_REASON_MEM_ACCESS ≠ VM_EVENT_REASON_DESCRIPTOR_ACCESS := by decide
  have h2 : VM_EVENT_REASON_MEM_ACCESS ≠ VM_EVENT_REASON_SOFTWARE_BREAKPOINT := by decide
  have h3 : VM_EVENT_REASON_SOFTWARE_BREAKPOINT ≠ VM_EVENT_REASON_DESCRIPTOR_ACCESS := by decide
  rw [vmEventEmulateCheck, storedFlags]
  cases hasFlag rsp.flags VM_EVENT_FLAG_EMULATE with
  | false => rfl
  | true =>
    by_cases hm : rsp.reason = VM_EVENT_REASON_MEM_ACCESS
    · simp [hm, h1, h2, p2mMemAccessEmulateCheck]
    by_cases hs : rsp.reason = VM_EVENT_REASON_SOFTWARE_BREAKPOINT
    · cases hasFlag rsp.flags VM_EVENT_FLAG_SET_EMUL_INSN_DATA <;> simp [hs, h2.symm, h3, setFlags]
    by_cases hd : rsp.reason = VM_EVENT_REASON_DESCRIPTOR_ACCESS
    · simp [hd, h1.symm, h3.symm, setFlags]
    · simp [hm, hs, hd]

/-- The rest of the record stays. -/
theorem emulateCheck_rest (n : Nat) (rsp : VmEventResponse) (r : ArchVmEvent) :
    (vmEventEmulateCheck n rsp r).setGprs = r.setGprs ∧ (vmEventEmulateCheck n rsp r).syncEvent = r.syncEvent ∧
      (vmEventEmulateCheck n rsp r).doWrite = r.doWrite := by
  have hread : (setEmulRead n rsp r).setGprs = r.setGprs ∧ (setEmulRead n rsp r).syncEvent = r.syncEvent ∧
      (setEmulRead n rsp r).doWrite = r.doWrite := by
    rw [setEmulRead]
    split <;> exact ⟨rfl, rfl, rfl⟩
  rcases vmEventEmulateCheck_cases n rsp r with ⟨-, h⟩ | ⟨-, h⟩ | ⟨-, -, h⟩ | ⟨-, h⟩
  · rw [h]
    exact ⟨rfl, rfl, rfl⟩
  · rw [h]
    exact ⟨rfl, rfl, rfl⟩
  · rw [h]
    exact ⟨rfl, rfl, rfl⟩
  · rw [h]
    exact hread

variable {e : Activity α γ}

/-- The record that `v->arch.vm_event` points to. -/
def Listener.pointee (s : Listener α γ) (v : α) : ArchVmEventRegs γ := s.mem (s.dom.vmEvent v)

/-- An activity that is no handler for the vCPU sets nothing in its record. -/
theorem handled_other (h : ∀ hd, e ≠ .handle v hd) (r : ArchVmEventRegs γ) : Handled fuel v s [e] r r := by
  cases e with
  | handle w hd =>
    have hne : w ≠ v := by
      rintro rfl
      exact h hd rfl
    cases hd <;> exact ⟨by simp [Denies, hne], by simp [lastSet, setsRegisters, hne],
      by simp [lastSet, setsRegisters, hne], by simp [lastSet, setsSyncEvent, hne], by simp [lastSet, setsFlags, hne]⟩
  | call c => exact ⟨fun f => rfl, rfl, (Bool.or_false _).symm, rfl, rfl⟩
  | monitorNextInterrupt w => exact ⟨fun f => rfl, rfl, (Bool.or_false _).symm, rfl, rfl⟩
  | pause w count => exact ⟨fun f => rfl, rfl, (Bool.or_false _).symm, rfl, rfl⟩
  | store a x => exact ⟨fun f => rfl, rfl, (Bool.or_false _).symm, rfl, rfl⟩

/-- **A handler** for the vCPU. -/
theorem handled_run (h : Handler γ) (r : ArchVmEventRegs γ) :
    Handled fuel v s [.handle v h] r (h.run (s.pauseCount v) r) := by
  cases h with
  | registerWriteResume rsp =>
    by_cases hflag : hasFlag rsp.flags VM_EVENT_FLAG_DENY = true
    · by_cases hp : s.pauseCount v = 0
      · simp only [Handler.run, vmEventRegisterWriteResume, hflag, hp, if_true]
        exact ⟨by simp [Denies, hp], rfl, (Bool.or_false _).symm, rfl, rfl⟩
      · simp only [Handler.run, vmEventRegisterWriteResume, hflag, hp, if_true, if_false]
        refine ⟨?_, rfl, (Bool.or_false _).symm, rfl, rfl⟩
        intro f
        rw [denyWrite_get hflag]
        cases hd : rsp.denies f <;> simp [Denies, hp, hd]
    · simp only [Handler.run, vmEventRegisterWriteResume, hflag]
      exact ⟨by simp [Denies, VmEventResponseRegs.denies, hflag], rfl, (Bool.or_false _).symm, rfl, rfl⟩
  | setRegisters rsp =>
    exact ⟨by simp [Denies, Handler.run, vmEventSetRegisters],
      by simp [lastSet, setsRegisters, Handler.run, vmEventSetRegisters],
      by simp [lastSet, setsRegisters, Handler.run, vmEventSetRegisters], rfl, rfl⟩
  | syncEvent value =>
    exact ⟨by simp [Denies, Handler.run, vmEventSyncEvent], rfl, (Bool.or_false _).symm,
      by simp [lastSet, setsSyncEvent, Handler.run, vmEventSyncEvent], rfl⟩
  | emulateCheck n rsp =>
    obtain ⟨hset, hsync, hwrite⟩ := emulateCheck_rest n rsp.toVmEventResponse r.toArchVmEvent
    refine ⟨?_, rfl, ?_, hsync, ?_⟩
    · intro f
      simp [Denies, Handler.run, hwrite]
    · simp [lastSet, setsRegisters, Handler.run, hset]
    · simp [lastSet, setsFlags, Handler.run, emulateCheck_flags]

/-- **One activity** that is no call, in a domain that is ready. -/
theorem listenerStep_handled (h : Held l s) (hready : s.ready = true) (ha : Allowed fuel l s e)
    (hcall : ∀ c, e ≠ .call c) (hv : v ∈ l) :
    Handled fuel v s [e] (s.pointee v) ((listenerStep fuel s e).pointee v) := by
  have hv0 := h.has hready v hv
  cases e with
  | call c => exact absurd rfl (hcall c)
  | handle w hd =>
    by_cases hwv : w = v
    · subst hwv
      have hown : (listenerStep fuel s (.handle w hd)).pointee w = hd.run (s.pauseCount w) (s.pointee w) :=
        Function.update_self _ _ _
      rw [hown]
      exact handled_run hd _
    · have hother : (listenerStep fuel s (.handle w hd)).pointee v = s.pointee v :=
        Function.update_of_ne (h.vmEvent_ne hv ha.1 (Ne.symm hwv) hv0) _ _
      rw [hother]
      exact handled_other (by rintro hd' ⟨⟩; exact hwv rfl) _
  | monitorNextInterrupt w => exact handled_other (by rintro hd ⟨⟩) _
  | pause w count => exact handled_other (by rintro hd ⟨⟩) _
  | store a r =>
    have hother : (listenerStep fuel s (.store a r)).pointee v = s.pointee v :=
      Function.update_of_ne (fun heq : s.dom.vmEvent v = a => ha (heq ▸ h.owned.once.owned v hv hv0)) _ _
    rw [hother]
    exact handled_other (by rintro hd ⟨⟩) _

/-- It keeps the domain ready. -/
theorem listenerStep_ready (hf : l.length < fuel) (h : Held l s ∧ s.ready = true)
    (hg : Allowed fuel l s e ∧ ∀ c, e ≠ .call c) :
    Held l (listenerStep fuel s e) ∧ (listenerStep fuel s e).ready = true := by
  refine ⟨listenerStep_held hf h.1 hg.1, ?_⟩
  cases e with
  | call c => exact absurd rfl (hg.2 c)
  | _ => exact h.2

/-! ## Every run -/

/-- In every run the records stay held. -/
theorem run_held (hf : l.length < fuel) {es : List (Activity α γ)} (hs : Held l s)
    (hallowed : Along (Allowed fuel l) (listenerStep fuel) s es) : Throughout (Held l) (listenerStep fuel) s es :=
  throughout_of_along (fun _ _ h ha => listenerStep_held hf h ha) hs hallowed

omit [DecidableEq α] in
/-- A domain that is not ready. -/
theorem held_of_owned (hs : Owned l s.state) (hready : s.ready = false) : Held l s :=
  ⟨hs, fun h => absurd (hready.symm.trans h) (by decide)⟩

/-- Interrupts are monitored from the first request on. -/
theorem nextInterrupt_iff (s : Listener α γ) (es : List (Activity α γ)) :
    (es.foldl (listenerStep fuel) s).nextInterrupt v = true ↔
      s.nextInterrupt v = true ∨ .monitorNextInterrupt v ∈ es := by
  induction es generalizing s with
  | nil => simp
  | cons e es ih =>
    rw [List.foldl_cons, ih, List.mem_cons, ← or_assoc]
    apply or_congr_left
    cases e with
    | monitorNextInterrupt w =>
      by_cases hw : v = w <;> simp [listenerStep, hw]
    | _ => simp [listenerStep]

/-- **Handlers are isolated.** From a domain whose vCPUs own the live records, in every run whose handlers run while the
domain is ready, every handler finds a live record, its own, and no activity but the cleanup changes the record of
another vCPU. -/
theorem handlers_isolated (fuel : Nat) (l : List α) (hf : l.length < fuel) (s : Listener α γ)
    (hs : Owned l s.state) (hready : s.ready = false) (es : List (Activity α γ))
    (hallowed : Along (Allowed fuel l) (listenerStep fuel) s es) :
    Throughout (Held l) (listenerStep fuel) s es ∧ Along (Isolated fuel l) (listenerStep fuel) s es := by
  have hheld := held_of_owned hs hready
  constructor
  · exact run_held hf hheld hallowed
  · exact Along.of_inv (fun _ _ h ha => listenerStep_held hf h ha) (fun _ _ h ha => listenerStep_isolated hf h ha) hheld
      hallowed

/-- **What the responses leave.** In a domain that is ready, after every run without init and cleanup. -/
theorem responses_handled (fuel : Nat) (l : List α) (hf : l.length < fuel) (s : Listener α γ) (hs : Held l s)
    (hready : s.ready = true) (es : List (Activity α γ)) (hallowed : Along (Allowed fuel l) (listenerStep fuel) s es)
    (hcalls : ∀ e ∈ es, ∀ c, e ≠ .call c) (v : α) (hv : v ∈ l) :
    ((es.foldl (listenerStep fuel) s).nextInterrupt v = true ↔
      s.nextInterrupt v = true ∨ .monitorNextInterrupt v ∈ es) ∧
    ∃ r r', s.record v = some r ∧ (es.foldl (listenerStep fuel) s).record v = some r' ∧ Handled fuel v s es r r' := by
  refine ⟨nextInterrupt_iff s es, ?_⟩
  have hguard := hallowed.and ((along_iff_forall_mem (listenerStep fuel) _ s es).mpr hcalls)
  have hI := fun (s : Listener α γ) e => listenerStep_ready (l := l) (s := s) (e := e) hf
  have hone : ∀ (s : Listener α γ) e, (Held l s ∧ s.ready = true) → (Allowed fuel l s e ∧ ∀ c, e ≠ .call c) →
      Handled fuel v s [e] (s.pointee v) ((listenerStep fuel s e).pointee v) :=
    fun s e hs hg => listenerStep_handled hs.1 hs.2 hg.1 hg.2 hv
  have hend : Held l (es.foldl (listenerStep fuel) s) ∧ (es.foldl (listenerStep fuel) s).ready = true :=
    (throughout_of_along (Q := fun s : Listener α γ => Held l s ∧ s.ready = true) hI ⟨hs, hready⟩ hguard).last
  refine ⟨s.pointee v, (es.foldl (listenerStep fuel) s).pointee v, if_neg (hs.has hready v hv),
    if_neg (hend.1.has hend.2 v hv), ?_, ?_, ?_, ?_, ?_⟩
  · intro f
    refine foldl_cleared (fun s : Listener α γ => (s.pointee v).doWrite.get f) hI ?_ ⟨hs, hready⟩ hguard
    intro s e hs hg
    have hf := (hone s e hs hg).doWrite f
    simp only [along_cons, along_nil, and_true] at hf
    rw [hf, ite_not]
  · exact foldl_lastSet_along (fun s : Listener α γ => (s.pointee v).gprs) hI
      (fun s e hs hg => by simpa [lastSet] using (hone s e hs hg).gprs) ⟨hs, hready⟩ hguard
  · have hset := foldl_lastSet_along (f := fun e => (setsRegisters v e).map fun _ => true)
      (fun s : Listener α γ => (s.pointee v).setGprs) hI (fun s e hs hg => by
        rw [(hone s e hs hg).setGprs]
        cases hr : setsRegisters v e <;> simp [lastSet, hr]) ⟨hs, hready⟩ hguard
    rw [hset, lastSet_map]
    cases lastSet (setsRegisters v) es <;> simp
  · exact foldl_lastSet_along (fun s : Listener α γ => (s.pointee v).syncEvent) hI
      (fun s e hs hg => by simpa [lastSet] using (hone s e hs hg).syncEvent) ⟨hs, hready⟩ hguard
  · exact foldl_lastSet_along (fun s : Listener α γ => (s.pointee v).emulateFlags) hI
      (fun s e hs hg => by simpa [lastSet] using (hone s e hs hg).emulateFlags) ⟨hs, hready⟩ hguard

end Runs

/-! ### Three vCPUs -/

/-- A new domain on a heap that was not cleared; no vCPU is paused. -/
def newListener : Listener Nat Nat :=
  ⟨newDomain, ∅, fun _ => ⟨⟨0#32, none, none, false, false, ⟨1#32, 1#32, 1#32, 1#32⟩⟩, 7⟩, fun _ => 0, fun _ => false,
    false⟩

/-- The second init succeeds. -/
def enabling : List (Activity Nat Nat) :=
  [.call (.init fun v => if v = 0 then 16 else 0), .call (.init fun v => 16 * (v + 1))]

/-- A response that denies a write of CR3, for vCPU 1 that is paused and for vCPU 2 that is not, and registers for both;
another owner writes to memory that is not live. -/
def handling : List (Activity Nat Nat) :=
  [.pause 1 1, .handle 1 (.registerWriteResume ⟨⟨64#32, 4#32⟩, 1#32, 0⟩), .store 64 ⟨idleRecord, 0⟩,
    .handle 2 (.registerWriteResume ⟨⟨64#32, 4#32⟩, 1#32, 0⟩), .handle 2 (.setRegisters ⟨⟨0#32, 0#32⟩, 0#32, 11⟩),
    .handle 1 (.setRegisters ⟨⟨0#32, 0#32⟩, 0#32, 12⟩), .handle 1 (.syncEvent true)]

theorem newListener_owned : Owned [0, 1, 2] newListener.state :=
  ⟨⟨rfl, rfl, rfl, rfl⟩, ownedOnce_empty fun _ _ => rfl⟩

theorem handlers_isolated_three :
    Throughout (Held [0, 1, 2]) (listenerStep 4) newListener (enabling ++ handling ++ [.call .cleanup]) ∧
      Along (Isolated 4 [0, 1, 2]) (listenerStep 4) newListener (enabling ++ handling ++ [.call .cleanup]) :=
  handlers_isolated 4 [0, 1, 2] (by decide) newListener newListener_owned rfl _ (by decide +kernel)

theorem responses_handled_three :
    ((handling.foldl (listenerStep 4) (enabling.foldl (listenerStep 4) newListener)).nextInterrupt 1 = true ↔
      (enabling.foldl (listenerStep 4) newListener).nextInterrupt 1 = true ∨ .monitorNextInterrupt 1 ∈ handling) ∧
    ∃ r r', (enabling.foldl (listenerStep 4) newListener).record 1 = some r ∧
      (handling.foldl (listenerStep 4) (enabling.foldl (listenerStep 4) newListener)).record 1 = some r' ∧
      Handled 4 1 (enabling.foldl (listenerStep 4) newListener) handling r r' :=
  responses_handled 4 [0, 1, 2] (by decide) (enabling.foldl (listenerStep 4) newListener)
    (run_held (by decide) (held_of_owned newListener_owned rfl) (by decide +kernel)).last (by decide +kernel) handling
    (by decide +kernel) (by rintro e he c rfl; simp [handling] at he) 1 (by decide)

end Xen.VmEvent
