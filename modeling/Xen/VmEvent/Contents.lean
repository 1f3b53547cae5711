import Xen.VmEvent.Records
import Xen.VmEvent.Emulate

/-!
# What new records contain (`vm_event_verified.c`)

- `memStep` runs the calls on a memory that holds the records, and lets anything else write to it (`Event`).
- A `Restart` is a history, `vm_event_cleanup_domain` and `vm_event_init_domain`, with what may be written in between.
- The block that `malloc` returns is not cleared: `restart_record`, a new record is what its block holds.
  `restart_iff`: of two restarts, the new records agree in what is `Pending` for a listener exactly if the blocks do.
-/

namespace Xen.VmEvent

open Lib

variable {α : Type} [DecidableEq α]

/-! ## Memory -/

/-- The domain, and the record at every address. -/
structure Memory (α : Type) where
  dom : Domain α
  mem : Nat → ArchVmEvent

/-- A call, or a write to memory: by a listener's response to the record of a vCPU, by the allocator or by another
owner to a block that is free. -/
inductive Event (α : Type) where
  | call (c : Call α)
  | store (a : Nat) (r : ArchVmEvent)

/-- One event. -/
def memStep (fuel : Nat) (m : Memory α) : Event α → Memory α
  | .call c => { m with dom := (callDomain fuel m.dom c).getD m.dom }
  | .store a r => { m with mem := Function.update m.mem a r }

/-- The record of a vCPU. -/
def Memory.record (m : Memory α) (v : α) : ArchVmEvent := m.mem (m.dom.vmEvent v)

/-- What is still to be done for a listener. -/
structure Pending where
  emulateFlags : BitVec 32
  setGprs : Bool
  syncEvent : Bool
  doWrite : DoWrite
deriving DecidableEq, Repr

def ArchVmEvent.pending (r : ArchVmEvent) : Pending := ⟨r.emulateFlags, r.setGprs, r.syncEvent, r.doWrite⟩

/-! ## Restarts -/

/-- A history from `start`, then `vm_event_cleanup_domain`, the writes `between`, and `vm_event_init_domain`. -/
structure Restart (α : Type) where
  start : Memory α
  history : List (Event α)
  between : List (Nat × ArchVmEvent)
  malloc : α → Nat

/-- The state after the history. -/
def Restart.stopped (fuel : Nat) (r : Restart α) : Memory α := r.history.foldl (memStep fuel) r.start

/-- The state that `vm_event_init_domain` finds. -/
def Restart.before (fuel : Nat) (r : Restart α) : Memory α :=
  (r.between.map fun w => .store w.1 w.2).foldl (memStep fuel) (memStep fuel (r.stopped fuel) (.call .cleanup))

/-- The state after `vm_event_init_domain`. -/
def Restart.after (fuel : Nat) (r : Restart α) : Memory α := memStep fuel (r.before fuel) (.call (.init r.malloc))

/-- `vm_event_init_domain` returns 0. -/
def Restart.Succeeds (fuel : Nat) (r : Restart α) : Prop :=
  (vmEventInitDomain fuel (r.before fuel).dom r.malloc).val.map Prod.fst = some 0

instance (fuel : Nat) (r : Restart α) : Decidable (r.Succeeds fuel) := inferInstanceAs (Decidable (_ = _))

/-- The vCPUs of the domain are `l`. -/
def Vcpus (l : List α) (m : Memory α) : Prop := Chain m.dom.nextInList m.dom.firstVcpu l

/-- **Nothing is left** of one restart or the other: the new records of the vCPUs agree in what is pending. -/
def Forgotten (fuel : Nat) (l : List α) (r r' : Restart α) : Prop :=
  ∀ v ∈ l, ((r.after fuel).record v).pending = ((r'.after fuel).record v).pending

/-! ## What the calls do -/

/-- A call keeps the vCPUs. -/
theorem callDomain_links {fuel : Nat} {d d' : Domain α} {c : Call α} (h : callDomain fuel d c = some d') :
    d'.vcpu = d.vcpu ∧ d'.nextInList = d.nextInList := by
  cases c with
  | init malloc =>
    simp only [callDomain, vmEventInitDomain, Logged.val_bind, Logged.val_pure, Option.map_map,
      Option.map_eq_some_iff] at h
    obtain ⟨r, -, rfl⟩ := h
    exact ⟨rfl, rfl⟩
  | cleanup =>
    simp only [callDomain, vmEventCleanupDomain, Logged.val_bind, Logged.val_pure, Option.map_eq_some_iff] at h
    obtain ⟨r, -, rfl⟩ := h
    exact ⟨rfl, rfl⟩

variable {fuel : Nat} {l : List α}

/-- Every event keeps the vCPUs. -/
theorem memStep_vcpus (m : Memory α) (e : Event α) (h : Vcpus l m) : Vcpus l (memStep fuel m e) := by
  cases e with
  | call c =>
    cases hd : callDomain fuel m.dom c with
    | none =>
      rw [memStep, hd]
      exact h
    | some d =>
      obtain ⟨hvcpu, hnext⟩ := callDomain_links hd
      rw [memStep, hd]
      show Chain d.nextInList d.firstVcpu l
      rw [Domain.firstVcpu, hvcpu, hnext]
      exact h
  | store a r => exact h

/-- Writes to memory leave the domain. -/
theorem foldl_store_dom (m : Memory α) (ws : List (Nat × ArchVmEvent)) :
    ((ws.map fun w => Event.store w.1 w.2).foldl (memStep fuel) m).dom = m.dom := by
  induction ws generalizing m with
  | nil => rfl
  | cons w ws ih => exact ih (memStep fuel m (.store w.1 w.2))

/-- **The walk of `vm_event_init_domain`**, when it returns 0: a vCPU without a record gets the block that `malloc`
returns for it. -/
theorem initRecords_val (malloc : α → Nat) (l : List α) (vmEvent : α → Nat)
    (h : (overList (initRecord malloc) l vmEvent).val.2.getD 0 = 0) (v : α) :
    (overList (initRecord malloc) l vmEvent).val.1 v = if v ∈ l ∧ vmEvent v = 0 then malloc v else vmEvent v := by
  induction l generalizing vmEvent with
  | nil => exact (if_neg fun h => absurd h.1 List.not_mem_nil).symm
  | cons a l ih =>
    rcases initRecord_cases malloc a vmEvent with ⟨ha, hb⟩ | ⟨ha, hm, hb⟩ | ⟨ha, -, hb⟩
    · rw [overList_next hb] at h ⊢
      rw [ih vmEvent h]
      by_cases hva : v = a
      · subst hva
        simp [ha]
      · simp [hva]
    · rw [overList_next hb] at h ⊢
      rw [ih _ h]
      by_cases hva : v = a
      · subst hva
        simp [ha, hm]
      · simp [hva]
    · rw [overList_return hb] at h
      cases h

/-- After `vm_event_cleanup_domain` no vCPU has a record. -/
theorem memStep_cleanup {m : Memory α} (hc : Vcpus l m) (hf : l.length < fuel) {v : α} (hv : v ∈ l) :
    (memStep fuel m (.call .cleanup)).dom.vmEvent v = 0 := by
  rw [memStep, callDomain, vmEventCleanupDomain_eq hc hf]
  show (overList cleanupRecord l m.dom.vmEvent).val.1 v = 0
  rw [cleanupRecords_val, if_pos hv]

/-- **The record** that `vm_event_init_domain` gives to a vCPU is what its block holds. -/
theorem memStep_init {m : Memory α} {malloc : α → Nat} (hc : Vcpus l m) (hf : l.length < fuel)
    (h0 : (vmEventInitDomain fuel m.dom malloc).val.map Prod.fst = some 0) {v : α} (hv : v ∈ l)
    (hnone : m.dom.vmEvent v = 0) : (memStep fuel m (.call (.init malloc))).record v = m.mem (malloc v) := by
  rw [vmEventInitDomain_eq malloc hc hf] at h0
  have hval := initRecords_val malloc l m.dom.vmEvent (Option.some.inj h0) v
  rw [if_pos ⟨hv, hnone⟩] at hval
  rw [memStep, callDomain, vmEventInitDomain_eq malloc hc hf]
  show m.mem ((overList (initRecord malloc) l m.dom.vmEvent).val.1 v) = m.mem (malloc v)
  rw [hval]

/-! ## After a restart -/

section Restart

variable {r : Restart α}

/-- `vm_event_init_domain` finds the vCPUs of the start, and no record. -/
theorem before_ok (hc : Vcpus l r.start) (hf : l.length < fuel) :
    Vcpus l (r.before fuel) ∧ ∀ v ∈ l, (r.before fuel).dom.vmEvent v = 0 := by
  have hstopped : Vcpus l (r.stopped fuel) := foldl_inv memStep_vcpus hc r.history
  constructor
  · exact foldl_inv memStep_vcpus (memStep_vcpus _ _ hstopped) _
  · intro v hv
    rw [Restart.before, foldl_store_dom]
    exact memStep_cleanup hstopped hf hv

/-- **A new record** is what its block holds, whatever the history. -/
theorem restart_record (hc : Vcpus l r.start) (hf : l.length < fuel) (h0 : r.Succeeds fuel) {v : α} (hv : v ∈ l) :
    (r.after fuel).record v = (r.before fuel).mem (r.malloc v) := by
  obtain ⟨hbefore, hnone⟩ := before_ok hc hf
  exact memStep_init hbefore hf h0 hv (hnone v hv)

/-- **New records** of two restarts agree in what is pending exactly if the blocks that `malloc` returned do. -/
theorem restart_iff (fuel : Nat) (l : List α) (hf : l.length < fuel) (r r' : Restart α) (hc : Vcpus l r.start)
    (hc' : Vcpus l r'.start) (h0 : r.Succeeds fuel) (h0' : r'.Succeeds fuel) :
    Forgotten fuel l r r' ↔
      ∀ v ∈ l, ((r.before fuel).mem (r.malloc v)).pending = ((r'.before fuel).mem (r'.malloc v)).pending := by
  constructor
  · intro h v hv
    rw [← restart_record hc hf h0 hv, ← restart_record hc' hf h0' hv]
    exact h v hv
  · intro h v hv
    rw [restart_record hc hf h0 hv, restart_record hc' hf h0' hv]
    exact h v hv

end Restart

/-! ### Three vCPUs -/

/-- A record without anything pending, and one with an emulation. -/
def idleRecord : ArchVmEvent := ⟨0#32, none, none, false, false, ⟨0#32, 0#32, 0#32, 0#32⟩⟩

def emulatedRecord : ArchVmEvent := { idleRecord with emulateFlags := 4#32 }

/-- A heap that is all zero, and no listener before. -/
def firstStart : Restart Nat := ⟨⟨newDomain, fun _ => idleRecord⟩, [], [], fun v => 16 * (v + 1)⟩

/-- A listener before left an emulation to vCPU 1, and `malloc` returns the same blocks again. -/
def restarted : Restart Nat :=
  { firstStart with history := [.call (.init firstStart.malloc), .store 32 emulatedRecord] }

theorem restart_counterexample :
    ¬ ∀ (fuel : Nat) (l : List Nat), l.length < fuel → ∀ r r' : Restart Nat, Vcpus l r.start → Vcpus l r'.start →
      r.Succeeds fuel → r'.Succeeds fuel → Forgotten fuel l r r' := by
  intro h
  have hlist : Vcpus [0, 1, 2] firstStart.start := ⟨rfl, rfl, rfl, rfl⟩
  have hforgot := h 4 [0, 1, 2] (by decide) firstStart restarted hlist hlist (by decide +kernel) (by decide +kernel)
  exact absurd (hforgot 1 (by simp)) (by decide +kernel)

/-- The same, with the freed blocks cleared in between. -/
theorem restart_cleared :
    Forgotten 4 [0, 1, 2] firstStart { restarted with between := [(32, idleRecord)] } :=
  (restart_iff 4 [0, 1, 2] (by decide) firstStart { restarted with between := [(32, idleRecord)] }
    ⟨rfl, rfl, rfl, rfl⟩ ⟨rfl, rfl, rfl, rfl⟩ (by decide +kernel) (by decide +kernel)).mpr (by decide +kernel)

end Xen.VmEvent
