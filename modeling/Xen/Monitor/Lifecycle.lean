import Xen.Lib.Memory
import Xen.Monitor.Msr

/-!
# The monitor of a domain, from its creation on (`monitor_verified.c`)

- `archMonitorInitDomain` and `archMonitorCleanupDomain`, with the block that they allocate and free, and runs of these
  and of `arch_monitor_domctl_event`.
- `monitored_msr` is commented out in the file; `monitoredMsr` is what the comment says.
- `dormant` is a domain in which nothing is monitored. A request leaves it so, but for the bits that say how a control
  register would be monitored (`dormant_request`).
- `monitor_dormant`: from a new domain nothing is ever monitored, every request that asks for it fails, and the block
  is allocated and freed once.

A request for a control register is to have an index of at least 0: with index -1 the code writes to `msr_bitmap`.
-/

namespace Xen.Monitor

open Lib

/-! ## The functions -/

def enomem : Int := 12

/-- What `memset` makes of `d->arch.monitor`. -/
def ArchMonitor.zero : ArchMonitor := ⟨0, fun _ => 0, 0, 0, 0, 0, 0, 0, 0, 0, 0, 0, 0⟩

/-- `struct domain`, with the array `d->monitor`. -/
structure MonitorDomain where
  d : Domain
  monitor : Nat → Int

/-- `arch_monitor_init_domain`; `xzalloc` is what `xzalloc_array` returns. `ENOMEM` is returned as it is. -/
def archMonitorInitDomain (s : MonitorDomain) (xzalloc : Int) : Logged (MemOp Int) (Int × MonitorDomain) := do
  if s.d.monitor.msrBitmap = 0 then
    if xzalloc ≠ 0 then
      Logged.emit (.malloc xzalloc)
    let s := { s with d := { s.d with monitor := { s.d.monitor with msrBitmap := xzalloc } } }
    if s.d.monitor.msrBitmap = 0 then
      return (enomem, s)
    return (0, s)
  return (0, s)

/-- `arch_monitor_cleanup_domain`. -/
def archMonitorCleanupDomain (s : MonitorDomain) : Logged (MemOp Int) MonitorDomain := do
  Logged.emit (.free s.d.monitor.msrBitmap)
  return ⟨{ s.d with monitor := .zero }, fun _ => 0⟩

/-- `monitored_msr`. -/
def monitoredMsr (d : Domain) (msr : Nat) : Bool :=
  if d.monitor.msrBitmap = 0 then false
  else match monitorBitmapForMsr msr with
  | none => false
  | some (b, index) => d.bit b index = some true

/-! ## Runs -/

/-- A call, with what the allocator delivers. A request writes to no cell below `write_ctrlreg_mask`. -/
inductive LifeCall where
  | init (xzalloc : Int)
  | cleanup
  | request (mop : MonitorOp) (hindex : mop.event = 0 → 0 ≤ mop.movToCrIndex)

/-- The domain, and the blocks that are live. -/
structure MonitorSys where
  dom : MonitorDomain
  live : Finset Int

/-- What the call allocates and frees. -/
def LifeCall.ops (s : MonitorDomain) : LifeCall → List (MemOp Int)
  | .init xzalloc => (archMonitorInitDomain s xzalloc).log
  | .cleanup => (archMonitorCleanupDomain s).log
  | .request .. => []

/-- The domain after the call. -/
def LifeCall.run (env : Env) (s : MonitorDomain) : LifeCall → MonitorDomain
  | .init xzalloc => (archMonitorInitDomain s xzalloc).val.2
  | .cleanup => (archMonitorCleanupDomain s).val
  | .request mop _ => { s with d := (archMonitorDomctlEvent env s.d mop).val.2 }

/-- One call. -/
def lifeStep (env : Env) (s : MonitorSys) (c : LifeCall) : MonitorSys :=
  ⟨c.run env s.dom, liveAfter s.live (c.ops s.dom)⟩

/-- No block is freed that is not live, and a request for monitoring is refused and changes nothing. -/
structure LifeOk (env : Env) (s : MonitorSys) (c : LifeCall) : Prop where
  valid : ValidOps 0 s.live (c.ops s.dom)
  refused : ∀ mop hindex, c = .request mop hindex → mop.requested = true →
    ∃ e ∈ [eexist, einval, eopnotsupp], (archMonitorDomctlEvent env s.dom.d mop).val = (-e, s.dom.d)

/-! ## A domain without monitoring -/

/-- Nothing is monitored; `sync` and `onchangeonly` are for control registers that are not. -/
def dormant (bitmap : Bank → Option (Nat → Bool)) (p : Int) (sync onchangeonly : BitVec 32) : Domain :=
  ⟨⟨p, fun _ => 0, sync, onchangeonly, 0, 0, 0, 0, 0, 0, 0, 0, 0⟩, bitmap⟩

/-- The bitmaps have no bit set. -/
def Clear (bitmap : Bank → Option (Nat → Bool)) : Prop := ∀ b bits nr, bitmap b = some bits → bits nr = false

section Dormant

variable {env : Env} {bitmap : Bank → Option (Nat → Bool)} {p : Int} {sync onchangeonly : BitVec 32}

/-- Nothing has the status of being monitored. -/
theorem status_dormant (hclear : Clear bitmap) (henv : env.monitoredMsr = monitoredMsr) (mop : MonitorOp) :
    status env (dormant bitmap p sync onchangeonly) mop = false := by
  have hbit : ∀ b nr, (dormant bitmap p sync onchangeonly).bit b nr ≠ some true := by
    intro b nr h
    obtain ⟨bits, hbits, hset⟩ := Option.map_eq_some_iff.mp h
    exact absurd hset (by simp [hclear b bits nr hbits])
  have hmsr : ∀ msr, monitoredMsr (dormant bitmap p sync onchangeonly) msr = false := by
    intro msr
    unfold monitoredMsr
    split
    · rfl
    · split
      · rfl
      · exact decide_eq_false (hbit _ _)
  unfold status
  rw [henv]
  split
  · simp [dormant]
  · exact hmsr _
  all_goals rfl

/-- A flag that is clear is cleared. -/
theorem toggle_dormant {get : ArchMonitor → Int} {put : ArchMonitor → Int → ArchMonitor} {d : Domain}
    (hget : get d.monitor = 0) (hput : put d.monitor 0 = d.monitor) : (toggle get put d false).val.2 = d := by
  simp [toggle, hget, ofBool, hput]

/-- A bit that is clear is cleared. -/
theorem setBit_dormant (hclear : Clear bitmap) (b : Bank) (nr : Nat) :
    (dormant bitmap p sync onchangeonly).setBit b nr false = dormant bitmap p sync onchangeonly := by
  have hsame : (bitmap b).map (fun bits => Function.update bits nr false) = bitmap b := by
    cases hb : bitmap b with
    | none => rfl
    | some bits => rw [Option.map_some, ← hclear b bits nr hb, Function.update_eq_self]
  simp only [Domain.setBit, dormant, hsame, Function.update_eq_self]

/-- No bit is set without having been. -/
theorem movToMsr_dormant (hclear : Clear bitmap) (mop : MonitorOp) :
    (movToMsr env mop (dormant bitmap p sync onchangeonly) false).val.2 = dormant bitmap p sync onchangeonly := by
  have hdisable : ∀ behind : Nat, (monitorDisableMsr env behind (dormant bitmap p sync onchangeonly)
      mop.movToMsr).val.2 = dormant bitmap p sync onchangeonly := by
    intro behind
    rcases monitorDisableMsr_ways env behind (dormant bitmap p sync onchangeonly) mop.movToMsr with
      ⟨-, h⟩ | ⟨-, h⟩ | ⟨b, index, -, -, h⟩
    · rw [h, Logged.val_pure]
    · rw [h, Logged.val_pure]
    · rw [h]
      exact setBit_dormant hclear b index
  unfold movToMsr
  by_cases hstatus : env.monitoredMsr (dormant bitmap p sync onchangeonly) mop.movToMsr = false
  · simp [hstatus, hdisable]
  · simp [hstatus]

/-- A control register that is not monitored gets other settings, or none. -/
theorem writeCtrlreg_dormant (mop : MonitorOp) : ∃ sync' onchangeonly',
    (writeCtrlreg env mop (dormant bitmap p sync onchangeonly) false).val.2 =
      dormant bitmap p sync' onchangeonly' := by
  by_cases hinvalid : InvalidCtrlreg mop
  · exact ⟨sync, onchangeonly, by rw [writeCtrlreg_invalid hinvalid, Logged.val_pure]⟩
  · have hstatus : decide ((dormant bitmap p sync onchangeonly).monitor.writeCtrlregEnabled &&&
        ctrlregBitmask env mop ≠ 0) = false := by
      simp [dormant]
    refine ⟨putBits sync (ctrlregBitmask env mop) (mop.movToCrSync ≠ 0),
      putBits onchangeonly (ctrlregBitmask env mop) (mop.movToCrOnchangeonly ≠ 0), ?_⟩
    rw [writeCtrlreg_same hinvalid hstatus]
    simp [dormant, putCtrlreg, putBits]

/-- **A request** that stops monitoring leaves nothing but other settings for control registers. -/
theorem dormant_request (hclear : Clear bitmap) {mop : MonitorOp} (hstop : mop.requested = false) :
    ∃ sync' onchangeonly', (archMonitorDomctlEvent env (dormant bitmap p sync onchangeonly) mop).val.2 =
      dormant bitmap p sync' onchangeonly' := by
  by_cases hevent : mop.event = 0
  · unfold archMonitorDomctlEvent
    rw [hstop, hevent]
    exact writeCtrlreg_dormant mop
  · refine ⟨sync, onchangeonly, ?_⟩
    unfold archMonitorDomctlEvent
    rw [hstop]
    split
    · next h => exact absurd h hevent
    · exact movToMsr_dormant hclear mop
    · exact toggle_dormant rfl rfl
    · exact toggle_dormant rfl rfl
    · rfl
    · exact toggle_dormant rfl rfl
    · cases henv : env.setDescriptorAccessExiting <;> simp [descAccess, henv, dormant, ofBool]
    · exact toggle_dormant rfl rfl
    · exact toggle_dormant rfl rfl
    · rfl

end Dormant

/-! ## The run -/

section Run

variable {env : Env} {bitmap : Bank → Option (Nat → Bool)}

/-- Nothing is monitored, and the block for the bitmaps is the only one that is live. -/
def Sleeping (bitmap : Bank → Option (Nat → Bool)) (s : MonitorSys) : Prop :=
  ∃ p sync onchangeonly, s.dom.d = dormant bitmap p sync onchangeonly ∧ s.live = if p = 0 then ∅ else {p}

/-- A new domain. -/
def newDomain (bitmap : Bank → Option (Nat → Bool)) (monitor : Nat → Int) : MonitorSys :=
  ⟨⟨dormant bitmap 0 0 0, monitor⟩, ∅⟩

/-- **One call** leaves the domain without monitoring. -/
theorem sleeping_step (hclear : Clear bitmap) (henv : env.monitoredMsr = monitoredMsr) {s : MonitorSys} {c : LifeCall}
    (hs : Sleeping bitmap s) : Sleeping bitmap (lifeStep env s c) ∧ LifeOk env s c := by
  obtain ⟨⟨d, monitor⟩, live⟩ := s
  obtain ⟨p, sync, onchangeonly, hd, hlive⟩ := hs
  dsimp only at hd hlive
  subst hd hlive
  cases c with
  | init xzalloc =>
    refine ⟨?_, ?_, fun mop _ hmop => by cases hmop⟩
    · by_cases hp : p = 0
      · subst hp
        refine ⟨xzalloc, sync, onchangeonly, ?_, ?_⟩
        · by_cases hx : xzalloc = 0 <;> simp [lifeStep, LifeCall.run, archMonitorInitDomain, dormant, hx]
        · by_cases hx : xzalloc = 0 <;>
            simp [lifeStep, LifeCall.ops, archMonitorInitDomain, dormant, hx, liveAfter, MemOp.live]
      · refine ⟨p, sync, onchangeonly, ?_, ?_⟩
        · simp [lifeStep, LifeCall.run, archMonitorInitDomain, dormant, hp]
        · simp [lifeStep, LifeCall.ops, archMonitorInitDomain, dormant, hp, liveAfter]
    · by_cases hp : p = 0 <;> by_cases hx : xzalloc = 0 <;>
        simp [LifeCall.ops, archMonitorInitDomain, dormant, hp, hx, ValidOps, MemOp.Valid]
  | cleanup =>
    refine ⟨⟨0, 0, 0, rfl, ?_⟩, ?_, fun mop _ hmop => by cases hmop⟩
    · by_cases hp : p = 0 <;>
        simp [lifeStep, LifeCall.ops, archMonitorCleanupDomain, dormant, hp, liveAfter, MemOp.live]
    · by_cases hp : p = 0 <;> simp [LifeCall.ops, archMonitorCleanupDomain, dormant, hp, ValidOps, MemOp.Valid]
  | request mop hindex =>
    have hrefused : mop.requested = true → ∃ e ∈ [eexist, einval, eopnotsupp],
        (archMonitorDomctlEvent env (dormant bitmap p sync onchangeonly) mop).val =
          (-e, dormant bitmap p sync onchangeonly) := fun hstart =>
      domctl_differs (by rw [status_dormant hclear henv, hstart]; decide)
    refine ⟨?_, trivial, ?_⟩
    · cases hreq : mop.requested with
      | true =>
        obtain ⟨e, -, he⟩ := hrefused hreq
        exact ⟨p, sync, onchangeonly, by rw [lifeStep, LifeCall.run, he], rfl⟩
      | false =>
        obtain ⟨sync', onchangeonly', hstop⟩ : ∃ sync' onchangeonly',
            (archMonitorDomctlEvent env (dormant bitmap p sync onchangeonly) mop).val.2 =
              dormant bitmap p sync' onchangeonly' := dormant_request hclear hreq
        exact ⟨p, sync', onchangeonly', hstop, rfl⟩
    · rintro mop' - ⟨⟩ hstart
      exact hrefused hstart

/-- **The monitor never wakes up.** From a new domain, whatever calls of `arch_monitor_init_domain`,
`arch_monitor_cleanup_domain` and `arch_monitor_domctl_event` are made, and whatever the allocator delivers: nothing is
ever monitored, a request for monitoring fails and changes nothing, and the block for the bitmaps is freed before
another one is allocated, and only once. -/
theorem monitor_dormant (env : Env) (henv : env.monitoredMsr = monitoredMsr) (hclear : Clear bitmap)
    (monitor : Nat → Int) (calls : List LifeCall) :
    Throughout (Sleeping bitmap) (lifeStep env) (newDomain bitmap monitor) calls ∧
      Along (LifeOk env) (lifeStep env) (newDomain bitmap monitor) calls := by
  have hnew : Sleeping bitmap (newDomain bitmap monitor) := ⟨0, 0, 0, rfl, rfl⟩
  have hall : Along (fun _ _ => True) (lifeStep env) (newDomain bitmap monitor) calls :=
    along_of_forall (fun _ _ => trivial) _ calls
  exact ⟨throughout_of_along (fun s c hs _ => (sleeping_step hclear henv hs).1) hnew hall,
    Along.of_inv (fun s c hs _ => (sleeping_step hclear henv hs).1)
      (fun s c hs _ => (sleeping_step hclear henv hs).2) hnew hall⟩

/-- An MSR and single steps are asked for, with and without the bitmaps. -/
def askedFor : List LifeCall :=
  [.request ⟨opEnable, 2, 0, 0, 0, 0, 0, 0, 0, 0, 0⟩ (by decide), .init 7,
    .request ⟨opEnable, 1, 0, 0, 0, 0, 0, 0, 0x1fff, 0, 0⟩ (by decide),
    .request ⟨0, 0, 0, 0, 3, 1, 1, 5, 0, 0, 0⟩ (by decide), .cleanup]

/-- Hardware without restrictions. -/
def capable : Env := ⟨fun _ => 1, monitoredMsr, true, 3072, .lp64, fun _ _ => 0⟩

theorem monitor_dormant_asked :
    Throughout (Sleeping fun _ => none) (lifeStep capable) (newDomain (fun _ => none) fun _ => 0) askedFor ∧
      Along (LifeOk capable) (lifeStep capable) (newDomain (fun _ => none) fun _ => 0) askedFor :=
  monitor_dormant capable rfl (fun _ _ _ h => by cases h) (fun _ => 0) askedFor

end Run

end Xen.Monitor
