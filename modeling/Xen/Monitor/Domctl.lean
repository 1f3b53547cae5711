import Xen.Lib.Memory

/-!
# Monitor requests of a domain (`monitor_verified.c`)

- `monitorBitmapForMsr`, `monitorEnableMsr`, `monitorDisableMsr` and `archMonitorDomctlEvent`, with the pauses of the
  domain and the writes to its state logged. The six events that are one flag are one definition, `toggle`.
- `status` is the current status of the event a request is about; `ProtocolOk` says what the request owes.
- Every branch tests `!(old_status == requested_status)` where it means to refuse a request that changes nothing:
  `domctl_differs` and `domctl_same` say what this does, and `protocol_never` that no request is served as it should be.

`monitored_msr`, `monitor_ctrlreg_bitmask`, `hvm_funcs` and `sizeof(struct monitor_msr_bitmap)` are not in the file and
are taken from an `Env`, as is the data model: `monitor_disable_msr` passes the address of an `unsigned int` where an
`unsigned long` is read.
-/

namespace Xen.Monitor

open Lib

/-! ## Data model -/

/-- `d->arch.monitor`. The cells of `writeCtrlregMask` from 0 to 24 are the array; the others are outside of it, cell
-1 where the struct has `msr_bitmap`. -/
structure ArchMonitor where
  msrBitmap : Int
  writeCtrlregMask : Int → Int
  writeCtrlregSync : BitVec 32
  writeCtrlregOnchangeonly : BitVec 32
  writeCtrlregEnabled : BitVec 32
  singlestepEnabled : Int
  inguestPagefaultDisabled : Int
  softwareBreakpointEnabled : Int
  debugExceptionEnabled : Int
  debugExceptionSync : Int
  cpuidEnabled : Int
  emulUnimplementedEnabled : Int
  descriptorAccessEnabled : Int

/-- The three MSR bitmaps. -/
inductive Bank where
  | low
  | hypervisor
  | high
deriving DecidableEq, Repr

/-- `struct domain`: the monitor state, and the bits behind `low`, `hypervisor` and `high`, `none` for `NULL`. -/
structure Domain where
  monitor : ArchMonitor
  bitmap : Bank → Option (Nat → Bool)

/-- `struct xen_domctl_monitor_op`. -/
structure MonitorOp where
  op : Int
  event : Int
  movToCrPad1 : Int
  movToCrPad2 : Int
  movToCrIndex : Int
  movToCrSync : BitVec 32
  movToCrOnchangeonly : BitVec 32
  movToCrBitmask : Int
  movToMsr : Nat
  movToMsrOnchangeonly : Int
  debugExceptionSync : Int

/-- What the file declares but does not define. `monitor_ctrlreg_bitmask` takes a `bool`. `behindMsr` is the word behind
the parameter `msr` of `monitor_disable_msr` when a request calls it. -/
structure Env where
  monitorCtrlregBitmask : Bool → BitVec 32
  monitoredMsr : Domain → Nat → Bool
  setDescriptorAccessExiting : Bool
  msrBitmapSize : Nat
  abi : Abi
  behindMsr : Domain → MonitorOp → Nat

/-- What a request does besides computing: pauses, writes to the monitor state and the bitmaps, and calls out. -/
inductive Event where
  | domainPause
  | domainUnpause
  | write
  | writeMask (index : Int)
  | setBit (b : Bank) (nr : Nat) (val : Bool)
  | hvmUpdateGuestCr
  | hvmSetIcebpInterception (requested : Bool)
deriving DecidableEq, Repr

def enxio : Int := 6
def eexist : Int := 17
def einval : Int := 22
def eopnotsupp : Int := 95

/-- `XEN_DOMCTL_MONITOR_OP_ENABLE`. -/
def opEnable : Int := 13

/-- `ARRAY_SIZE(ad->monitor.write_ctrlreg_mask)`. -/
def writeCtrlregMaskSize : Int := 25

/-- A `bool` stored in an `int`. -/
def ofBool (b : Bool) : Int := if b then 1 else 0

/-! ## MSR bitmaps -/

/-- `monitor_bitmap_for_msr`: the bitmap, and `*msr` afterwards. -/
def monitorBitmapForMsr (msr : Nat) : Option (Bank × Nat) :=
  if msr = 0x1fff then some (.low, msr)
  else if msr = 0x40000000 then some (.hypervisor, msr &&& 0x1fff)
  else if msr = 0xc0001fff then some (.high, msr &&& 0x1fff)
  else none

/-- `__set_bit` and `__clear_bit`. -/
def Domain.setBit (d : Domain) (b : Bank) (nr : Nat) (val : Bool) : Domain :=
  { d with bitmap := Function.update d.bitmap b ((d.bitmap b).map fun bits => Function.update bits nr val) }

/-- `monitor_enable_msr`. -/
def monitorEnableMsr (env : Env) (d : Domain) (msr : Nat) (onchangeonly : Bool) : Logged Event (Int × Domain) := do
  if d.monitor.msrBitmap = 0 then
    return (-enxio, d)
  match monitorBitmapForMsr msr with
  | none => return (-einval, d)
  | some (b, index) =>
    if d.bitmap b = none then
      return (-einval, d)
    Logged.emit (.setBit b index true)
    Logged.emit (.setBit b (index + env.msrBitmapSize * 8) onchangeonly)
    return (0, (d.setBit b index true).setBit b (index + env.msrBitmapSize * 8) onchangeonly)

/-- What `monitor_bitmap_for_msr` reads through the address of an `unsigned int` with the word `behind` behind it: an
`unsigned long`. -/
def readMsr (abi : Abi) (msr behind : Nat) : Nat := if abi.ulong = 4 then msr else msr + 2 ^ 32 * behind

/-- `monitor_disable_msr`. -/
def monitorDisableMsr (env : Env) (behind : Nat) (d : Domain) (msr : Nat) : Logged Event (Int × Domain) := do
  if d.monitor.msrBitmap = 0 then
    return (-enxio, d)
  match monitorBitmapForMsr (readMsr env.abi msr behind) with
  | none => return (-einval, d)
  | some (b, index) =>
    if d.bitmap b = none then
      return (-einval, d)
    Logged.emit (.setBit b index false)
    return (0, d.setBit b index false)

/-! ## `arch_monitor_domctl_event` -/

/-- `requested_status`. -/
def MonitorOp.requested (mop : MonitorOp) : Bool := mop.op = opEnable

/-- An event that is one flag, read by `get` and written by `put`. -/
def toggle (get : ArchMonitor → Int) (put : ArchMonitor → Int → ArchMonitor) (d : Domain) (requested : Bool) :
    Logged Event (Int × Domain) := do
  let oldStatus : Bool := get d.monitor ≠ 0
  if !(oldStatus == requested) then
    return (-eexist, d)
  Logged.emit .domainPause
  Logged.emit .write
  let d := { d with monitor := put d.monitor (ofBool requested) }
  Logged.emit .domainUnpause
  return (0, d)

/-- `XEN_DOMCTL_MONITOR_EVENT_SINGLESTEP`. -/
def singlestep : Domain → Bool → Logged Event (Int × Domain) :=
  toggle ArchMonitor.singlestepEnabled fun m v => { m with singlestepEnabled := v }

/-- `XEN_DOMCTL_MONITOR_EVENT_INGUEST_PAGEFAULT`. -/
def inguestPagefault : Domain → Bool → Logged Event (Int × Domain) :=
  toggle ArchMonitor.inguestPagefaultDisabled fun m v => { m with inguestPagefaultDisabled := v }

/-- `XEN_DOMCTL_MONITOR_EVENT_SOFTWARE_BREAKPOINT`. -/
def softwareBreakpoint : Domain → Bool → Logged Event (Int × Domain) :=
  toggle ArchMonitor.softwareBreakpointEnabled fun m v => { m with softwareBreakpointEnabled := v }

/-- `XEN_DOMCTL_MONITOR_EVENT_CPUID`. -/
def cpuid : Domain → Bool → Logged Event (Int × Domain) :=
  toggle ArchMonitor.cpuidEnabled fun m v => { m with cpuidEnabled := v }

/-- `XEN_DOMCTL_MONITOR_EVENT_EMUL_UNIMPLEMENTED`. -/
def emulUnimplemented : Domain → Bool → Logged Event (Int × Domain) :=
  toggle ArchMonitor.emulUnimplementedEnabled fun m v => { m with emulUnimplementedEnabled := v }

/-- `XEN_DOMCTL_MONITOR_EVENT_DESC_ACCESS`, which needs the exits of the hardware. -/
def descAccess (env : Env) (d : Domain) (requested : Bool) : Logged Event (Int × Domain) := do
  let oldStatus : Bool := d.monitor.descriptorAccessEnabled ≠ 0
  if !(oldStatus == requested) then
    return (-eexist, d)
  if !env.setDescriptorAccessExiting then
    return (-eopnotsupp, d)
  Logged.emit .domainPause
  Logged.emit .write
  let d := { d with monitor := { d.monitor with descriptorAccessEnabled := ofBool requested } }
  Logged.emit .domainUnpause
  return (0, d)

/-- `XEN_DOMCTL_MONITOR_EVENT_DEBUG_EXCEPTION`, which sets a second field. -/
def debugException (mop : MonitorOp) (d : Domain) (requested : Bool) : Logged Event (Int × Domain) := do
  let oldStatus : Bool := d.monitor.debugExceptionEnabled ≠ 0
  if !(oldStatus == requested) then
    return (-eexist, d)
  Logged.emit .domainPause
  Logged.emit .write
  let d := { d with monitor := { d.monitor with debugExceptionEnabled := ofBool requested } }
  Logged.emit .write
  let d := { d with monitor :=
    { d.monitor with debugExceptionSync := if requested then mop.debugExceptionSync else 0 } }
  Logged.emit (.hvmSetIcebpInterception requested)
  Logged.emit .domainUnpause
  return (0, d)

/-- The bit of the request's control register; the index is converted to the `bool` of the prototype. -/
def ctrlregBitmask (env : Env) (mop : MonitorOp) : BitVec 32 := env.monitorCtrlregBitmask (mop.movToCrIndex ≠ 0)

/-- `x |= mask` or `x &= ~mask`. -/
def putBits (x mask : BitVec 32) (val : Bool) : BitVec 32 := if val then x ||| mask else x &&& ~~~mask

/-- The writes of `XEN_DOMCTL_MONITOR_EVENT_WRITE_CTRLREG` to the monitor state. -/
def putCtrlreg (env : Env) (mop : MonitorOp) (requested : Bool) (m : ArchMonitor) : ArchMonitor :=
  { m with
    writeCtrlregSync := putBits m.writeCtrlregSync (ctrlregBitmask env mop) (mop.movToCrSync ≠ 0)
    writeCtrlregOnchangeonly :=
      putBits m.writeCtrlregOnchangeonly (ctrlregBitmask env mop) (mop.movToCrOnchangeonly ≠ 0)
    writeCtrlregMask :=
      Function.update m.writeCtrlregMask mop.movToCrIndex (if requested then mop.movToCrBitmask else 0)
    writeCtrlregEnabled := putBits m.writeCtrlregEnabled (ctrlregBitmask env mop) requested }

/-- `XEN_DOMCTL_MONITOR_EVENT_WRITE_CTRLREG`. -/
def writeCtrlreg (env : Env) (mop : MonitorOp) (d : Domain) (requested : Bool) : Logged Event (Int × Domain) := do
  if mop.movToCrIndex ≥ writeCtrlregMaskSize then
    return (-einval, d)
  if mop.movToCrPad1 ≠ 0 ∨ mop.movToCrPad2 ≠ 0 then
    return (-einval, d)
  let oldStatus : Bool := d.monitor.writeCtrlregEnabled &&& ctrlregBitmask env mop ≠ 0
  if !(oldStatus == requested) then
    return (-eexist, d)
  Logged.emit .domainPause
  Logged.emit .write
  Logged.emit .write
  Logged.emit (.writeMask mop.movToCrIndex)
  Logged.emit .write
  -- CR3 and CR4 are latched through the CR0 code
  if mop.movToCrIndex = 1 ∨ mop.movToCrIndex = 2 then
    Logged.emit .hvmUpdateGuestCr
  Logged.emit .domainUnpause
  return (0, { d with monitor := putCtrlreg env mop requested d.monitor })

/-- `XEN_DOMCTL_MONITOR_EVENT_MOV_TO_MSR`, which pauses first and returns what the helpers return. -/
def movToMsr (env : Env) (mop : MonitorOp) (d : Domain) (requested : Bool) : Logged Event (Int × Domain) := do
  Logged.emit .domainPause
  if !(env.monitoredMsr d mop.movToMsr == requested) then
    Logged.emit .domainUnpause
    return (-eexist, d)
  let rc ← (if requested then monitorEnableMsr env d mop.movToMsr (mop.movToMsrOnchangeonly ≠ 0)
    else monitorDisableMsr env (env.behindMsr d mop) d mop.movToMsr)
  Logged.emit .domainUnpause
  return rc

/-- `arch_monitor_domctl_event`: the return code and the domain afterwards. -/
def archMonitorDomctlEvent (env : Env) (d : Domain) (mop : MonitorOp) : Logged Event (Int × Domain) :=
  match mop.event with
  | 0 => writeCtrlreg env mop d mop.requested
  | 1 => movToMsr env mop d mop.requested
  | 2 => singlestep d mop.requested
  | 3 => softwareBreakpoint d mop.requested
  | 5 => debugException mop d mop.requested
  | 6 => cpuid d mop.requested
  | 9 => descAccess env d mop.requested
  | 11 => inguestPagefault d mop.requested
  | 12 => emulUnimplemented d mop.requested
  | _ => pure (-eopnotsupp, d)

/-! ## The protocol -/

/-- The current status of the event the request is about. -/
def status (env : Env) (d : Domain) (mop : MonitorOp) : Bool :=
  match mop.event with
  | 0 => d.monitor.writeCtrlregEnabled &&& ctrlregBitmask env mop ≠ 0
  | 1 => env.monitoredMsr d mop.movToMsr
  | 2 => d.monitor.singlestepEnabled ≠ 0
  | 3 => d.monitor.softwareBreakpointEnabled ≠ 0
  | 5 => d.monitor.debugExceptionEnabled ≠ 0
  | 6 => d.monitor.cpuidEnabled ≠ 0
  | 9 => d.monitor.descriptorAccessEnabled ≠ 0
  | 11 => d.monitor.inguestPagefaultDisabled ≠ 0
  | 12 => d.monitor.emulUnimplementedEnabled ≠ 0
  | _ => false

/-- The events that can be toggled. -/
def toggleEvents : List Int := [0, 1, 2, 3, 5, 6, 9, 11, 12]

/-- A request the domain supports, with its index in range. -/
structure Supported (env : Env) (d : Domain) (mop : MonitorOp) : Prop where
  event : mop.event ∈ toggleEvents
  index : mop.event = 0 → 0 ≤ mop.movToCrIndex ∧ mop.movToCrIndex < writeCtrlregMaskSize
  pads : mop.event = 0 → mop.movToCrPad1 = 0 ∧ mop.movToCrPad2 = 0
  msr : mop.event = 1 → d.monitor.msrBitmap ≠ 0 ∧
    ∃ b index, monitorBitmapForMsr mop.movToMsr = some (b, index) ∧ d.bitmap b ≠ none
  descAccess : mop.event = 9 → env.setDescriptorAccessExiting = true

/-- **The protocol.** A request for the current status gets `-EEXIST` and changes nothing; any other one succeeds and
sets the status. -/
def ProtocolOk (env : Env) (d : Domain) (mop : MonitorOp) : Prop :=
  if status env d mop = mop.requested then (archMonitorDomctlEvent env d mop).val = (-eexist, d)
  else (archMonitorDomctlEvent env d mop).val.1 = 0 ∧
    status env (archMonitorDomctlEvent env d mop).val.2 mop = mop.requested

section Branches

variable {env : Env} {d : Domain} {mop : MonitorOp} {requested old : Bool}

theorem refused_iff : (!(old == requested)) = true ↔ old ≠ requested := by simp

/-- A flag that differs from the request is refused. -/
theorem toggle_differs {get : ArchMonitor → Int} {put : ArchMonitor → Int → ArchMonitor}
    (h : decide (get d.monitor ≠ 0) ≠ requested) : (toggle get put d requested).val = (-eexist, d) := by
  simp only [toggle, refused_iff.mpr h, if_true, Logged.val_pure]

/-! No other return code is `-EEXIST`. -/

theorem success_ne_eexist : 0 ≠ -eexist := by decide

theorem enxio_ne_eexist : -enxio ≠ -eexist := by decide

theorem einval_ne_eexist : -einval ≠ -eexist := by decide

theorem eopnotsupp_ne_eexist : -eopnotsupp ≠ -eexist := by decide

/-- A flag that is as requested is written again, and the request succeeds. -/
theorem toggle_same {get : ArchMonitor → Int} {put : ArchMonitor → Int → ArchMonitor}
    (h : decide (get d.monitor ≠ 0) = requested) : (toggle get put d requested).val.1 ≠ -eexist := by
  simp only [toggle, refused_iff, not_true_eq_false, h, ne_eq, if_false, Logged.val_bind, Logged.val_pure]
  exact success_ne_eexist

/-- The checks the MSR helpers begin with do not fail with `-EEXIST`. -/
theorem msr_ret (o : Option (Bank × Nat)) (put : Bank → Nat → Logged Event (Int × Domain))
    (hput : ∀ b index, (put b index).val.1 ≠ -eexist) :
    (if d.monitor.msrBitmap = 0 then (pure (-enxio, d) : Logged Event (Int × Domain)) else
      match o with
      | none => pure (-einval, d)
      | some (b, index) => if d.bitmap b = none then pure (-einval, d) else put b index).val.1 ≠ -eexist := by
  by_cases h : d.monitor.msrBitmap = 0
  · rw [if_pos h]
    exact enxio_ne_eexist
  · rw [if_neg h]
    cases o with
    | none => exact einval_ne_eexist
    | some bi =>
      by_cases hb : d.bitmap bi.1 = none
      · simp only [if_pos hb, Logged.val_pure]
        exact einval_ne_eexist
      · simp only [if_neg hb]
        exact hput bi.1 bi.2

theorem monitorEnableMsr_ret (env : Env) (d : Domain) (msr : Nat) (onchangeonly : Bool) :
    (monitorEnableMsr env d msr onchangeonly).val.1 ≠ -eexist := by
  unfold monitorEnableMsr
  exact msr_ret _ _ fun _ _ => success_ne_eexist

theorem monitorDisableMsr_ret (env : Env) (behind : Nat) (d : Domain) (msr : Nat) :
    (monitorDisableMsr env behind d msr).val.1 ≠ -eexist := by
  unfold monitorDisableMsr
  exact msr_ret _ _ fun _ _ => success_ne_eexist

/-- The index is too large, or there is a pad. -/
def InvalidCtrlreg (mop : MonitorOp) : Prop :=
  mop.movToCrIndex ≥ writeCtrlregMaskSize ∨ mop.movToCrPad1 ≠ 0 ∨ mop.movToCrPad2 ≠ 0

/-- What `WRITE_CTRLREG` logs between the pause and the unpause. -/
def ctrlregWrites (mop : MonitorOp) : List Event :=
  [.write, .write, .writeMask mop.movToCrIndex, .write] ++
    if mop.movToCrIndex = 1 ∨ mop.movToCrIndex = 2 then [.hvmUpdateGuestCr] else []

theorem mem_ctrlregWrites {e : Event} : e ∈ ctrlregWrites mop ↔ e = .write ∨ e = .writeMask mop.movToCrIndex ∨
    e = .hvmUpdateGuestCr ∧ (mop.movToCrIndex = 1 ∨ mop.movToCrIndex = 2) := by
  have hwrites : e ∈ [.write, .write, .writeMask mop.movToCrIndex, .write] ↔
      e = .write ∨ e = .writeMask mop.movToCrIndex := by
    simp only [List.mem_cons, List.not_mem_nil, or_false]
    grind
  rw [ctrlregWrites, List.mem_append, hwrites, or_assoc]
  split
  · next hlatch => simp [hlatch]
  · next hlatch => simp [hlatch]

theorem writeCtrlreg_invalid (h : InvalidCtrlreg mop) : writeCtrlreg env mop d requested = pure (-einval, d) := by
  unfold writeCtrlreg
  by_cases hsize : mop.movToCrIndex ≥ writeCtrlregMaskSize
  · rw [if_pos hsize]
  · rw [if_neg hsize, if_pos (h.resolve_left hsize)]

theorem writeCtrlreg_differs (h : ¬InvalidCtrlreg mop)
    (hstatus : decide (d.monitor.writeCtrlregEnabled &&& ctrlregBitmask env mop ≠ 0) ≠ requested) :
    writeCtrlreg env mop d requested = pure (-eexist, d) := by
  obtain ⟨hsize, hpads⟩ := not_or.mp h
  simp only [writeCtrlreg, if_neg hsize, if_neg hpads, refused_iff.mpr hstatus, if_true]

theorem writeCtrlreg_same (h : ¬InvalidCtrlreg mop)
    (hstatus : decide (d.monitor.writeCtrlregEnabled &&& ctrlregBitmask env mop ≠ 0) = requested) :
    writeCtrlreg env mop d requested = ⟨(0, { d with monitor := putCtrlreg env mop requested d.monitor }),
      .domainPause :: (ctrlregWrites mop ++ [.domainUnpause])⟩ := by
  obtain ⟨hsize, hpads⟩ := not_or.mp h
  simp only [writeCtrlreg, if_neg hsize, if_neg hpads, refused_iff, hstatus, ne_eq, not_true_eq_false, if_false]
  -- CR3 and CR4 are latched
  by_cases hlatch : mop.movToCrIndex = 1 ∨ mop.movToCrIndex = 2
  · rw [ctrlregWrites, if_pos hlatch, if_pos hlatch]
    rfl
  · rw [ctrlregWrites, if_neg hlatch, if_neg hlatch]
    rfl

theorem movToMsr_differs (h : env.monitoredMsr d mop.movToMsr ≠ requested) :
    (movToMsr env mop d requested).val = (-eexist, d) := by
  simp only [movToMsr, refused_iff.mpr h, if_true, Logged.val_bind, Logged.val_pure]

theorem movToMsr_same (h : env.monitoredMsr d mop.movToMsr = requested) :
    (movToMsr env mop d requested).val.1 ≠ -eexist := by
  simp only [movToMsr, refused_iff, not_true_eq_false, h, ne_eq, if_false, Logged.val_bind, Logged.val_pure]
  split
  · exact monitorEnableMsr_ret _ _ _ _
  · exact monitorDisableMsr_ret _ _ _ _

theorem descAccess_differs (h : decide (d.monitor.descriptorAccessEnabled ≠ 0) ≠ requested) :
    (descAccess env d requested).val = (-eexist, d) := by
  simp only [descAccess, refused_iff.mpr h, if_true, Logged.val_pure]

theorem descAccess_same (h : decide (d.monitor.descriptorAccessEnabled ≠ 0) = requested) :
    (descAccess env d requested).val.1 ≠ -eexist := by
  simp only [descAccess, refused_iff, not_true_eq_false, h, ne_eq, if_false]
  cases env.setDescriptorAccessExiting
  · exact eopnotsupp_ne_eexist
  · exact success_ne_eexist

theorem debugException_differs (h : decide (d.monitor.debugExceptionEnabled ≠ 0) ≠ requested) :
    (debugException mop d requested).val = (-eexist, d) := by
  simp only [debugException, refused_iff.mpr h, if_true, Logged.val_pure]

theorem debugException_same (h : decide (d.monitor.debugExceptionEnabled ≠ 0) = requested) :
    (debugException mop d requested).val.1 ≠ -eexist := by
  simp only [debugException, refused_iff, not_true_eq_false, h, ne_eq, if_false, Logged.val_bind, Logged.val_pure]
  exact success_ne_eexist

/-- **A request that differs.** It is refused and nothing changes. -/
theorem domctl_differs (h : status env d mop ≠ mop.requested) :
    ∃ e ∈ [eexist, einval, eopnotsupp], (archMonitorDomctlEvent env d mop).val = (-e, d) := by
  have hrefused : eexist ∈ [eexist, einval, eopnotsupp] := List.mem_cons_self
  unfold status at h
  unfold archMonitorDomctlEvent
  split <;> rename_i heq <;> simp only [heq] at h
  · by_cases hinvalid : InvalidCtrlreg mop
    · exact ⟨einval, by decide, congrArg Logged.val (writeCtrlreg_invalid hinvalid)⟩
    · exact ⟨eexist, hrefused, congrArg Logged.val (writeCtrlreg_differs hinvalid h)⟩
  · exact ⟨eexist, hrefused, movToMsr_differs h⟩
  · exact ⟨eexist, hrefused, toggle_differs h⟩
  · exact ⟨eexist, hrefused, toggle_differs h⟩
  · exact ⟨eexist, hrefused, debugException_differs h⟩
  · exact ⟨eexist, hrefused, toggle_differs h⟩
  · exact ⟨eexist, hrefused, descAccess_differs h⟩
  · exact ⟨eexist, hrefused, toggle_differs h⟩
  · exact ⟨eexist, hrefused, toggle_differs h⟩
  · exact ⟨eopnotsupp, by decide, rfl⟩

/-- **A request for the current status.** It never gets `-EEXIST`. -/
theorem domctl_same (h : status env d mop = mop.requested) :
    (archMonitorDomctlEvent env d mop).val.1 ≠ -eexist := by
  unfold status at h
  unfold archMonitorDomctlEvent
  split <;> rename_i heq <;> simp only [heq] at h
  · by_cases hinvalid : InvalidCtrlreg mop
    · rw [writeCtrlreg_invalid hinvalid]
      exact einval_ne_eexist
    · rw [writeCtrlreg_same hinvalid h]
      exact success_ne_eexist
  · exact movToMsr_same h
  · exact toggle_same h
  · exact toggle_same h
  · exact debugException_same h
  · exact toggle_same h
  · exact descAccess_same h
  · exact toggle_same h
  · exact toggle_same h
  · exact eopnotsupp_ne_eexist

end Branches

/-- **No request is served as it should be.** One that differs is refused, one for the current status is not. -/
theorem protocol_never (env : Env) (d : Domain) (mop : MonitorOp) : ¬ProtocolOk env d mop := by
  unfold ProtocolOk
  split
  · next h =>
    intro hr
    exact domctl_same h (by rw [hr])
  · next h =>
    rintro ⟨hr, -⟩
    obtain ⟨e, he, hval⟩ := domctl_differs h
    replace hr : -e = 0 := by rwa [hval] at hr
    simp only [List.mem_cons, List.not_mem_nil, or_false] at he
    rcases he with rfl | rfl | rfl <;> exact absurd hr (by decide)

/-- Switching single-step events on in a domain without any. -/
theorem protocol_counterexample :
    ¬ ∀ (env : Env) (d : Domain) (mop : MonitorOp), Supported env d mop → ProtocolOk env d mop := by
  intro h
  let env : Env := ⟨fun _ => 0, fun _ _ => false, true, 0, .lp64, fun _ _ => 0⟩
  let d : Domain := ⟨⟨0, fun _ => 0, 0, 0, 0, 0, 0, 0, 0, 0, 0, 0, 0⟩, fun _ => none⟩
  let mop : MonitorOp := ⟨opEnable, 2, 0, 0, 0, 0, 0, 0, 0, 0, 0⟩
  have hs : Supported env d mop :=
    ⟨by decide, by decide, by decide, fun h => absurd h (by decide), by decide⟩
  have hp : (archMonitorDomctlEvent env d mop).val.1 = 0 := (h env d mop hs).1
  exact absurd hp (by decide)

end Xen.Monitor
