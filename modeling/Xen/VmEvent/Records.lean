import Mathlib.Logic.Function.Basic
import Xen.Lib.LinkedList

/-!
# The vm_event records of a domain (`vm_event_verified.c`)

- `vmEventInitDomain` and `vmEventCleanupDomain` walk the list of the domain's vCPUs; `initRecord` and `cleanupRecord`
  are the bodies. A record is its address, `NULL` is 0; the log holds what is allocated and freed.
- A run is a list of `Call`s on a `State`: the domain and the addresses of the live records.
- `Owned`: every live record is referenced by exactly one vCPU of the list. `records_owned`: in every run it stays so,
  and every call does what it is for (`CallOk`).
-/

namespace Xen.VmEvent

open Lib

/-! ## Data model -/

/-- `struct domain` with the vCPUs of type `α`: the array `vcpu`, which may be `NULL`, `next_in_list` and
`arch.vm_event` of every vCPU. -/
structure Domain (α : Type) where
  vcpu : Option (Nat → Option α)
  nextInList : α → Option α
  vmEvent : α → Nat
  memAccessEmulateEachRep : Bool

variable {α : Type}

/-- `d->vcpu ? d->vcpu[0] : NULL`. -/
def Domain.firstVcpu (d : Domain α) : Option α := d.vcpu.bind fun vcpu => vcpu 0

/-! ## The functions -/

section Functions

variable [DecidableEq α]

/-- The body of `vm_event_init_domain`; `malloc v` is what `malloc` returns for the vCPU. -/
def initRecord (malloc : α → Nat) (v : α) (vmEvent : α → Nat) : Logged (MemOp Nat) ((α → Nat) × Option Int) :=
  if vmEvent v ≠ 0 then
    pure (vmEvent, none)
  else do
    if malloc v ≠ 0 then Logged.emit (.malloc (malloc v))
    let vmEvent := Function.update vmEvent v (malloc v)
    if vmEvent v = 0 then pure (vmEvent, some (-12)) else pure (vmEvent, none)

/-- `vm_event_init_domain`; `none` when `fuel` iterations do not end the walk. -/
def vmEventInitDomain (fuel : Nat) (d : Domain α) (malloc : α → Nat) :
    Logged (MemOp Nat) (Option (Int × Domain α)) := do
  let r ← loop (walk d.nextInList (initRecord malloc)) fuel (d.firstVcpu, d.vmEvent)
  pure (r.map fun r => (r.2.getD 0, { d with vmEvent := r.1 }))

/-- The body of `vm_event_cleanup_domain`, which never returns early. -/
def cleanupRecord (v : α) (vmEvent : α → Nat) : Logged (MemOp Nat) ((α → Nat) × Option Empty) := do
  Logged.emit (.free (vmEvent v))
  pure (Function.update vmEvent v 0, none)

/-- `vm_event_cleanup_domain`. -/
def vmEventCleanupDomain (fuel : Nat) (d : Domain α) : Logged (MemOp Nat) (Option (Domain α)) := do
  let r ← loop (walk d.nextInList cleanupRecord) fuel (d.firstVcpu, d.vmEvent)
  pure (r.map fun r => { d with vmEvent := r.1, memAccessEmulateEachRep := false })

end Functions

/-! ## What init is for -/

/-- **Init** on the records of the vCPUs `l` replaces none. It returns 0 with a record for every vCPU, or -12 with a
record for every vCPU before the first one that gets none; nothing else changes. -/
structure InitOk (l : List α) (before after : α → Nat) (r : Int) : Prop where
  kept : ∀ v, before v ≠ 0 → after v = before v
  result : (r = 0 ∧ (∀ v ∈ l, after v ≠ 0) ∧ ∀ v, v ∉ l → after v = before v) ∨
    (r = -12 ∧ ∃ l₁ a l₂, l = l₁ ++ a :: l₂ ∧ (∀ v ∈ l₁, after v ≠ 0) ∧ after a = 0 ∧
      ∀ v, v ∉ l₁ → after v = before v)

/-- A vCPU that has its record after its iteration joins the vCPUs behind it. -/
theorem InitOk.cons {l : List α} {a : α} {before mid after : α → Nat} {r : Int} (h : InitOk l mid after r)
    (ha : mid a ≠ 0) (hkept : ∀ v, before v ≠ 0 → mid v = before v) (hother : ∀ v, v ≠ a → mid v = before v) :
    InitOk (a :: l) before after r := by
  have haft : after a ≠ 0 := by
    rw [h.kept a ha]
    exact ha
  have hmem : ∀ {l' : List α}, (∀ v ∈ l', after v ≠ 0) → ∀ v ∈ a :: l', after v ≠ 0 := fun hl v hv => by
    rcases List.mem_cons.mp hv with rfl | hv
    · exact haft
    · exact hl v hv
  have hnot : ∀ {l' : List α}, (∀ v, v ∉ l' → after v = mid v) → ∀ v, v ∉ a :: l' → after v = before v :=
    fun hl v hv => by
      obtain ⟨hne, hv⟩ := not_or.mp (mt List.mem_cons.mpr hv)
      exact (hl v hv).trans (hother v hne)
  constructor
  · intro v hv
    have hmid := hkept v hv
    exact (h.kept v (hmid ▸ hv)).trans hmid
  · rcases h.result with ⟨hr, hhas, hrest⟩ | ⟨hr, l₁, b, l₂, rfl, hhas, hb, hrest⟩
    · exact Or.inl ⟨hr, hmem hhas, hnot hrest⟩
    · exact Or.inr ⟨hr, a :: l₁, b, l₂, rfl, hmem hhas, hb, hnot hrest⟩

/-! ## Runs -/

section Runs

variable [DecidableEq α]

/-- A call of `vm_event_init_domain`, with what `malloc` would return, or of `vm_event_cleanup_domain`. -/
inductive Call (α : Type) where
  | init (malloc : α → Nat)
  | cleanup

/-- The domain and the addresses of the live records. -/
structure State (α : Type) where
  dom : Domain α
  live : Finset Nat

/-- What a call allocates and frees. -/
def callLog (fuel : Nat) (d : Domain α) : Call α → List (MemOp Nat)
  | .init malloc => (vmEventInitDomain fuel d malloc).log
  | .cleanup => (vmEventCleanupDomain fuel d).log

/-- The domain after a call that ends. -/
def callDomain (fuel : Nat) (d : Domain α) : Call α → Option (Domain α)
  | .init malloc => (vmEventInitDomain fuel d malloc).val.map Prod.snd
  | .cleanup => (vmEventCleanupDomain fuel d).val

/-- One call. -/
def step (fuel : Nat) (s : State α) (c : Call α) : State α :=
  ⟨(callDomain fuel s.dom c).getD s.dom, liveAfter s.live (callLog fuel s.dom c)⟩

/-- `malloc` returns no live record. -/
def FreshCall (fuel : Nat) (s : State α) (c : Call α) : Prop := FreshOps 0 s.live (callLog fuel s.dom c)

instance (fuel : Nat) (s : State α) (c : Call α) : Decidable (FreshCall fuel s c) :=
  inferInstanceAs (Decidable (FreshOps _ _ _))

/-- The vCPUs of the domain are `l`; every live record is referenced by exactly one of them. -/
structure Owned (l : List α) (s : State α) : Prop where
  chain : Chain s.dom.nextInList s.dom.firstVcpu l
  once : OwnedOnce 0 (· ∈ l) s.dom.vmEvent s.live

/-- **A call** ends, frees only live records, and does what it is for: `InitOk`, or no vCPU keeps a record. -/
def CallOk (fuel : Nat) (l : List α) (s : State α) (c : Call α) : Prop :=
  ValidOps 0 s.live (callLog fuel s.dom c) ∧
  match c with
  | .init malloc => ∃ r d', (vmEventInitDomain fuel s.dom malloc).val = some (r, d') ∧
    InitOk l s.dom.vmEvent d'.vmEvent r
  | .cleanup => ∃ d', (vmEventCleanupDomain fuel s.dom).val = some d' ∧ (∀ v ∈ l, d'.vmEvent v = 0) ∧
      d'.memAccessEmulateEachRep = false ∧ liveAfter s.live (callLog fuel s.dom c) = ∅

/-! ## Allocating -/

variable (malloc : α → Nat) {l : List α} {v : α} {vmEvent : α → Nat} {live : Finset Nat}

/-- The vCPU has a record, gets one, or gets none. -/
theorem initRecord_cases (v : α) (vmEvent : α → Nat) :
    (vmEvent v ≠ 0 ∧ initRecord malloc v vmEvent = ⟨(vmEvent, none), []⟩) ∨
    (vmEvent v = 0 ∧ malloc v ≠ 0 ∧ initRecord malloc v vmEvent =
      ⟨(Function.update vmEvent v (malloc v), none), [.malloc (malloc v)]⟩) ∨
    (vmEvent v = 0 ∧ malloc v = 0 ∧ initRecord malloc v vmEvent = ⟨(vmEvent, some (-12)), []⟩) := by
  by_cases h : vmEvent v = 0
  · apply Or.inr
    by_cases hm : malloc v = 0
    · have hsame : Function.update vmEvent v 0 = vmEvent := by
        rw [← h, Function.update_eq_self]
      refine Or.inr ⟨h, hm, ?_⟩
      ext1 <;> simp [initRecord, h, hm, hsame]
    · refine Or.inl ⟨h, hm, ?_⟩
      ext1 <;> simp [initRecord, h, hm]
  · exact Or.inl ⟨h, by rw [initRecord, if_pos h]; rfl⟩

/-- **The walk of `vm_event_init_domain`.** -/
theorem initRecords_ok (l : List α) (vmEvent : α → Nat) :
    InitOk l vmEvent (overList (initRecord malloc) l vmEvent).val.1
      ((overList (initRecord malloc) l vmEvent).val.2.getD 0) := by
  induction l generalizing vmEvent with
  | nil => exact ⟨fun _ _ => rfl, Or.inl ⟨rfl, fun v hv => absurd hv List.not_mem_nil, fun _ _ => rfl⟩⟩
  | cons a l ih =>
    rcases initRecord_cases malloc a vmEvent with ⟨ha, hb⟩ | ⟨ha, hm, hb⟩ | ⟨ha, -, hb⟩
    · rw [overList_next hb]
      exact (ih vmEvent).cons ha (fun _ _ => rfl) fun _ _ => rfl
    · rw [overList_next hb]
      refine (ih _).cons ?_ (fun v hv => ?_) fun v hv => Function.update_of_ne hv _ _
      · rw [Function.update_self]
        exact hm
      · refine Function.update_of_ne ?_ _ _
        rintro rfl
        exact hv ha
    · rw [overList_return hb]
      exact ⟨fun _ _ => rfl, Or.inr ⟨rfl, [], a, l, rfl, fun v hv => absurd hv List.not_mem_nil, ha, fun _ _ => rfl⟩⟩

variable {malloc}

/-- An iteration keeps the ownership of the records. -/
theorem initRecord_owned (hv : v ∈ l) (h : OwnedOnce 0 (· ∈ l) vmEvent live)
    (hfresh : FreshOps 0 live (initRecord malloc v vmEvent).log) :
    ValidOps 0 live (initRecord malloc v vmEvent).log ∧
      OwnedOnce 0 (· ∈ l) (initRecord malloc v vmEvent).val.1
        (liveAfter live (initRecord malloc v vmEvent).log) := by
  rcases initRecord_cases malloc v vmEvent with ⟨-, hb⟩ | ⟨hv0, -, hb⟩ | ⟨-, -, hb⟩
  · rw [hb]
    exact ⟨trivial, h⟩
  · rw [hb] at hfresh ⊢
    exact ⟨⟨trivial, trivial⟩, h.acquire hv hv0 hfresh.1⟩
  · rw [hb]
    exact ⟨trivial, h⟩

/-! ## Freeing -/

/-- An iteration of `vm_event_cleanup_domain` keeps the ownership of the records. -/
theorem cleanupRecord_owned (hv : v ∈ l) (h : OwnedOnce 0 (· ∈ l) vmEvent live) :
    ValidOps 0 live (cleanupRecord v vmEvent).log ∧
      OwnedOnce 0 (· ∈ l) (cleanupRecord v vmEvent).val.1 (liveAfter live (cleanupRecord v vmEvent).log) :=
  ⟨⟨h.valid_free hv, trivial⟩, h.release hv⟩

/-- **The walk of `vm_event_cleanup_domain`.** -/
theorem cleanupRecords_val (v : α) (l : List α) (vmEvent : α → Nat) :
    (overList cleanupRecord l vmEvent).val.1 v = if v ∈ l then 0 else vmEvent v := by
  induction l generalizing vmEvent with
  | nil => exact (if_neg List.not_mem_nil).symm
  | cons a l ih =>
    have hb : cleanupRecord a vmEvent = ⟨(Function.update vmEvent a 0, none), [.free (vmEvent a)]⟩ := rfl
    rw [overList_next hb, ih]
    by_cases hva : v = a
    · rw [hva, Function.update_self, ite_self, if_pos List.mem_cons_self]
    · rw [Function.update_of_ne hva]
      simp only [List.mem_cons, hva, false_or]

/-! ## Every run -/

variable {fuel : Nat} {d : Domain α}

variable (malloc) in
/-- On a list of vCPUs, `vm_event_init_domain` ends with the walk over it. -/
theorem vmEventInitDomain_eq (hc : Chain d.nextInList d.firstVcpu l) (hf : l.length < fuel) :
    vmEventInitDomain fuel d malloc =
      ⟨some ((overList (initRecord malloc) l d.vmEvent).val.2.getD 0,
          { d with vmEvent := (overList (initRecord malloc) l d.vmEvent).val.1 }),
        (overList (initRecord malloc) l d.vmEvent).log⟩ := by
  ext1 <;> simp [vmEventInitDomain, loop_walk hc hf]

/-- The same of `vm_event_cleanup_domain`. -/
theorem vmEventCleanupDomain_eq (hc : Chain d.nextInList d.firstVcpu l) (hf : l.length < fuel) :
    vmEventCleanupDomain fuel d =
      ⟨some { d with vmEvent := (overList cleanupRecord l d.vmEvent).val.1, memAccessEmulateEachRep := false },
        (overList cleanupRecord l d.vmEvent).log⟩ := by
  ext1 <;> simp [vmEventCleanupDomain, loop_walk hc hf]

/-- **One call** keeps the ownership of the records and does what it is for. -/
theorem step_owned (hf : l.length < fuel) {s : State α} {c : Call α} (h : Owned l s) (hfresh : FreshCall fuel s c) :
    Owned l (step fuel s c) ∧ CallOk fuel l s c := by
  cases c with
  | init malloc =>
    have heq := vmEventInitDomain_eq malloc h.chain hf
    have hlog : callLog fuel s.dom (.init malloc) = (overList (initRecord malloc) l s.dom.vmEvent).log := by
      rw [callLog, heq]
    rw [FreshCall, hlog] at hfresh
    obtain ⟨hvalid, honce⟩ := overList_ledger (I := OwnedOnce 0 (· ∈ l))
      (fun v hv _ _ h hfresh => initRecord_owned hv h hfresh) h.once hfresh
    constructor
    · rw [step, hlog, callDomain, heq]
      exact ⟨h.chain, honce⟩
    · refine ⟨by rw [hlog]; exact hvalid, _, _, by rw [heq], initRecords_ok malloc l s.dom.vmEvent⟩
  | cleanup =>
    have heq := vmEventCleanupDomain_eq h.chain hf
    have hlog : callLog fuel s.dom .cleanup = (overList cleanupRecord l s.dom.vmEvent).log := by
      rw [callLog, heq]
    rw [FreshCall, hlog] at hfresh
    obtain ⟨hvalid, honce⟩ := overList_ledger (I := OwnedOnce 0 (· ∈ l))
      (fun v hv _ _ h _ => cleanupRecord_owned hv h) h.once hfresh
    have hnone : ∀ v ∈ l, (overList cleanupRecord l s.dom.vmEvent).val.1 v = 0 := fun v hv => by
      rw [cleanupRecords_val, if_pos hv]
    constructor
    · rw [step, hlog, callDomain, heq]
      exact ⟨h.chain, honce⟩
    · refine ⟨by rw [hlog]; exact hvalid, _, by rw [heq], hnone, rfl, ?_⟩
      rw [hlog]
      exact honce.eq_empty hnone

/-- **The records are owned once.** From a domain whose vCPUs are linked in a list and own the live records, in every
run of `vm_event_init_domain` and `vm_event_cleanup_domain` every live record stays referenced by exactly one vCPU, and
every call ends, frees only live records and does what it is for. -/
theorem records_owned (fuel : Nat) (l : List α) (hf : l.length < fuel) (s : State α) (hs : Owned l s)
    (calls : List (Call α)) (hfresh : Along (FreshCall fuel) (step fuel) s calls) :
    Throughout (Owned l) (step fuel) s calls ∧ Along (CallOk fuel l) (step fuel) s calls :=
  ⟨throughout_of_along (fun _ _ h hc => (step_owned hf h hc).1) hs hfresh,
    Along.of_inv (fun _ _ h hc => (step_owned hf h hc).1) (fun _ _ h hc => (step_owned hf h hc).2) hs hfresh⟩

end Runs

/-! ### Three vCPUs -/

/-- A new domain with the vCPUs 0, 1 and 2. -/
def newDomain : Domain Nat :=
  ⟨some fun i => if i = 0 then some 0 else none, fun v => if v < 2 then some (v + 1) else none, fun _ => 0, false⟩

/-- The allocation for vCPU 1 fails, the second call makes up for it, and two calls clean up. -/
def retried : List (Call Nat) :=
  [.init fun v => if v = 0 then 16 else 0, .init fun v => if v = 1 then 32 else 48, .cleanup, .cleanup]

theorem records_owned_retried :
    Throughout (Owned [0, 1, 2]) (step 4) ⟨newDomain, ∅⟩ retried ∧
      Along (CallOk 4 [0, 1, 2]) (step 4) ⟨newDomain, ∅⟩ retried :=
  records_owned 4 [0, 1, 2] (by decide) ⟨newDomain, ∅⟩
    ⟨⟨rfl, rfl, rfl, rfl⟩, ownedOnce_empty fun _ _ => rfl⟩ retried (by decide +kernel)

end Xen.VmEvent
