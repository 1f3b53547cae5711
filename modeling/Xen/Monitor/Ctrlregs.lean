import Xen.Lib.Bits
import Xen.Lib.Runs
import Xen.Monitor.Domctl

/-!
# Control registers that share a bit (`monitor_verified.c`)

- `requestStep_eq`: a `WRITE_CTRLREG` request is refused (`Refused`), or makes the writes of `putCtrlreg`.
- `Separate`: a request for one control register leaves the bits and the mask entry of every other one.
- `monitor_ctrlreg_bitmask` takes a `bool`, so that every index but 0 gets the bit of index 1. `ctrlregs_iff`: in a run
  the requests are separate exactly if those for other indices write to bit 1 what it holds already (`KeepsBit1`).
- The index is an `int` that is compared with the size of the mask only. `index_iff`: it is checked as it should be
  exactly if it is not negative, or the request has a pad.
-/

namespace Xen.Monitor

open Lib

/-! ## Requests -/

/-- The domain after a request. -/
def requestStep (env : Env) (d : Domain) (mop : MonitorOp) : Domain := (archMonitorDomctlEvent env d mop).val.2

/-- A `WRITE_CTRLREG` request that returns early. -/
def Refused (env : Env) (d : Domain) (mop : MonitorOp) : Prop :=
  mop.movToCrIndex ≥ writeCtrlregMaskSize ∨ (mop.movToCrPad1 ≠ 0 ∨ mop.movToCrPad2 ≠ 0) ∨
    decide (d.monitor.writeCtrlregEnabled &&& ctrlregBitmask env mop ≠ 0) ≠ mop.requested

instance (env : Env) (d : Domain) (mop : MonitorOp) : Decidable (Refused env d mop) :=
  inferInstanceAs (Decidable (_ ∨ _ ∨ _))

/-- The monitor states agree on the control register `j`. -/
structure SameCtrlreg (j : Int) (m m' : ArchMonitor) : Prop where
  enabled : m'.writeCtrlregEnabled.getLsbD j.toNat = m.writeCtrlregEnabled.getLsbD j.toNat
  sync : m'.writeCtrlregSync.getLsbD j.toNat = m.writeCtrlregSync.getLsbD j.toNat
  onchangeonly : m'.writeCtrlregOnchangeonly.getLsbD j.toNat = m.writeCtrlregOnchangeonly.getLsbD j.toNat
  mask : m'.writeCtrlregMask j = m.writeCtrlregMask j

/-- **Separate control registers.** A `WRITE_CTRLREG` request leaves every register but its own. -/
def Separate (env : Env) (d : Domain) (mop : MonitorOp) : Prop :=
  mop.event = 0 → ∀ j : Int, 0 ≤ j → j < writeCtrlregMaskSize → j ≠ mop.movToCrIndex →
    SameCtrlreg j d.monitor (requestStep env d mop).monitor

/-- A `WRITE_CTRLREG` request is refused, is about the register 0 or 1, or writes to the bit 1 what it holds already. -/
def KeepsBit1 (env : Env) (d : Domain) (mop : MonitorOp) : Prop :=
  mop.event = 0 → Refused env d mop ∨ mop.movToCrIndex = 0 ∨ mop.movToCrIndex = 1 ∨
    (d.monitor.writeCtrlregSync.getLsbD 1 = decide (mop.movToCrSync ≠ 0) ∧
      d.monitor.writeCtrlregOnchangeonly.getLsbD 1 = decide (mop.movToCrOnchangeonly ≠ 0))

instance (env : Env) (d : Domain) (mop : MonitorOp) : Decidable (KeepsBit1 env d mop) :=
  inferInstanceAs (Decidable (_ → _ ∨ _ ∨ _ ∨ _))

section Request

variable {env : Env} {d : Domain} {mop : MonitorOp} {x : BitVec 32} {i j : Nat} {val : Bool}

/-- **A request** is refused, or writes. -/
theorem requestStep_eq (hevent : mop.event = 0) : requestStep env d mop =
    if Refused env d mop then d else { d with monitor := putCtrlreg env mop mop.requested d.monitor } := by
  have hbranch : requestStep env d mop = (writeCtrlreg env mop d mop.requested).val.2 := by
    unfold requestStep archMonitorDomctlEvent
    rw [hevent]
    rfl
  rw [hbranch]
  by_cases hinvalid : InvalidCtrlreg mop
  · have hrefused : Refused env d mop := hinvalid.imp_right Or.inl
    rw [if_pos hrefused, writeCtrlreg_invalid hinvalid, Logged.val_pure]
  by_cases hstatus : decide (d.monitor.writeCtrlregEnabled &&& ctrlregBitmask env mop ≠ 0) = mop.requested
  · have hserved : ¬Refused env d mop := fun h => h.elim (fun hsize => hinvalid (Or.inl hsize)) fun h' =>
      h'.elim (fun hpads => hinvalid (Or.inr hpads)) fun hdiffers => hdiffers hstatus
    rw [if_neg hserved, writeCtrlreg_same hinvalid hstatus]
  · have hrefused : Refused env d mop := Or.inr (Or.inr hstatus)
    rw [if_pos hrefused, writeCtrlreg_differs hinvalid hstatus, Logged.val_pure]

/-- The bit that is written. -/
theorem putBits_self (h : i < 32) : (putBits x (1#32 <<< i) val).getLsbD i = val := by
  cases val with
  | true => exact or_bit_self x h
  | false => exact andNot_bit_self x i

/-- The bits that are not. -/
theorem putBits_others (h : j ≠ i) : (putBits x (1#32 <<< i) val).getLsbD j = x.getLsbD j := by
  cases val with
  | true => exact or_bit_others x h
  | false => exact andNot_bit_others x h

/-- The writes leave every register whose bit is not written, except for the mask entry of the index. -/
theorem putCtrlreg_same {k : Int} {requested : Bool} {m : ArchMonitor} (hmask : ctrlregBitmask env mop = 1#32 <<< i)
    (hk : k.toNat ≠ i) (hindex : k ≠ mop.movToCrIndex) : SameCtrlreg k m (putCtrlreg env mop requested m) where
  enabled := by rw [putCtrlreg, hmask, putBits_others hk]
  sync := by rw [putCtrlreg, hmask, putBits_others hk]
  onchangeonly := by rw [putCtrlreg, hmask, putBits_others hk]
  mask := Function.update_of_ne hindex ..

variable (mop) in
/-- The mask of index 0, and the one of all the others. -/
theorem ctrlregBitmask_eq (hmask : ∀ x : Bool, env.monitorCtrlregBitmask x = 1#32 <<< x.toNat) :
    ctrlregBitmask env mop = 1#32 <<< (if mop.movToCrIndex = 0 then 0 else 1) := by
  rw [ctrlregBitmask, hmask]
  by_cases h : mop.movToCrIndex = 0 <;> simp [h]

/-- A request that is not refused asks for the status its bit has. -/
theorem enabled_of_served (hmask : ctrlregBitmask env mop = 1#32 <<< i) (hi : i < 32) (h : ¬Refused env d mop) :
    d.monitor.writeCtrlregEnabled.getLsbD i = mop.requested := by
  have hstatus := not_not.mp (not_or.mp (not_or.mp h).2).2
  rw [hmask] at hstatus
  rw [← hstatus]
  exact Bool.eq_iff_iff.mpr ((and_bit_ne_zero_iff _ hi).symm.trans (decide_eq_true_iff).symm)

/-- **One request** is separate exactly if it does not write to the bit of register 1 from elsewhere. -/
theorem separate_iff (hmask : ∀ x : Bool, env.monitorCtrlregBitmask x = 1#32 <<< x.toNat) :
    Separate env d mop ↔ KeepsBit1 env d mop := by
  apply imp_congr_right
  intro hevent
  have hbit := ctrlregBitmask_eq mop hmask
  rw [requestStep_eq hevent]
  by_cases hrefused : Refused env d mop
  · rw [if_pos hrefused]
    exact iff_of_true (fun _ _ _ _ => ⟨rfl, rfl, rfl, rfl⟩) (Or.inl hrefused)
  rw [if_neg hrefused]
  by_cases h0 : mop.movToCrIndex = 0
  · rw [if_pos h0] at hbit
    refine iff_of_true (fun j hj _ hne => putCtrlreg_same hbit (by omega) hne) (Or.inr (Or.inl h0))
  rw [if_neg h0] at hbit
  by_cases h1 : mop.movToCrIndex = 1
  · refine iff_of_true (fun j hj _ hne => putCtrlreg_same hbit (by omega) hne) (Or.inr (Or.inr (Or.inl h1)))
  constructor
  · intro hsep
    have hone : SameCtrlreg 1 d.monitor (putCtrlreg env mop mop.requested d.monitor) :=
      hsep 1 (by decide) (by decide) (Ne.symm h1)
    have hsync := hone.sync
    have hon := hone.onchangeonly
    rw [putCtrlreg, hbit] at hsync hon
    exact Or.inr (Or.inr (Or.inr ⟨hsync.symm.trans (putBits_self (by decide)),
      hon.symm.trans (putBits_self (by decide))⟩))
  · rintro hkeeps j hj - hne
    obtain ⟨hsync, hon⟩ := ((hkeeps.resolve_left hrefused).resolve_left h0).resolve_left h1
    by_cases hj1 : j = 1
    · subst hj1
      refine ⟨?_, ?_, ?_, Function.update_of_ne hne ..⟩
      · rw [putCtrlreg, hbit]
        exact (putBits_self (by decide)).trans (enabled_of_served hbit (by decide) hrefused).symm
      · rw [putCtrlreg, hbit]
        exact (putBits_self (by decide)).trans hsync.symm
      · rw [putCtrlreg, hbit]
        exact (putBits_self (by decide)).trans hon.symm
    · exact putCtrlreg_same hbit (by omega) hne

end Request

/-- **Which runs keep the control registers apart.** With `monitor_ctrlreg_bitmask(x) = 1 << x`, the `WRITE_CTRLREG`
requests of a run are separate exactly if each of them is refused, is about the register 0 or 1, or writes to the bit 1
what it holds already. -/
theorem ctrlregs_iff (env : Env) (hmask : ∀ x : Bool, env.monitorCtrlregBitmask x = 1#32 <<< x.toNat) (d : Domain)
    (mops : List MonitorOp) :
    Along (Separate env) (requestStep env) d mops ↔ Along (KeepsBit1 env) (requestStep env) d mops :=
  along_congr fun _ _ => separate_iff hmask

/-- `monitor_ctrlreg_bitmask` is a shift; CR3 is monitored. -/
def shiftEnv : Env := ⟨fun x => 1#32 <<< x.toNat, fun _ _ => false, true, 0, .lp64, fun _ _ => 0⟩

def cr3Monitored : Domain := ⟨⟨0, fun _ => 0, 0, 0, 2, 0, 0, 0, 0, 0, 0, 0, 0⟩, fun _ => none⟩

/-- A request for the control register `index`, with or without `sync`. -/
def ctrlregOp (index : Int) (sync : BitVec 32) : MonitorOp := ⟨opEnable, 0, 0, 0, index, sync, 0, 0, 0, 0, 0⟩

theorem ctrlregs_cr3 :
    Along (Separate shiftEnv) (requestStep shiftEnv) cr3Monitored [ctrlregOp 1 1, ctrlregOp 25 0] :=
  (ctrlregs_iff shiftEnv (fun _ => rfl) _ _).mpr (by decide)

/-- A request for CR4 makes the events of CR3 synchronous. -/
theorem ctrlregs_counterexample : ¬ ∀ (env : Env) (d : Domain) (mops : List MonitorOp),
    (∀ x : Bool, env.monitorCtrlregBitmask x = 1#32 <<< x.toNat) → (∀ mop ∈ mops, mop.event = 0) →
      Along (Separate env) (requestStep env) d mops := by
  intro h
  have hseparate := (h shiftEnv cr3Monitored [ctrlregOp 2 1] (fun _ => rfl) (by simp [ctrlregOp])).1
  have hkeeps := (separate_iff fun _ => rfl).mp hseparate
  exact absurd (hkeeps rfl) (by decide)

/-! ## The index of the mask -/

/-- **The index is checked.** The mask is written between its bounds only, and a request with another index gets
`-EINVAL` and changes nothing. -/
structure IndexOk (env : Env) (d : Domain) (mop : MonitorOp) : Prop where
  inside : (archMonitorDomctlEvent env d mop).Only fun e =>
    ∀ i, e = .writeMask i → 0 ≤ i ∧ i < writeCtrlregMaskSize
  refused : ¬(0 ≤ mop.movToCrIndex ∧ mop.movToCrIndex < writeCtrlregMaskSize) →
    (archMonitorDomctlEvent env d mop).val = (-einval, d)

/-- Past the checks a request does not get `-EINVAL`, and writes at its index only. -/
theorem writeCtrlreg_late (env : Env) (d : Domain) {mop : MonitorOp} (h : ¬InvalidCtrlreg mop) (requested : Bool) :
    (writeCtrlreg env mop d requested).val.1 ≠ -einval ∧
      ∀ i, .writeMask i ∈ (writeCtrlreg env mop d requested).log → i = mop.movToCrIndex := by
  by_cases hstatus : decide (d.monitor.writeCtrlregEnabled &&& ctrlregBitmask env mop ≠ 0) = requested
  · have hret : (0 : Int) ≠ -einval := by decide
    rw [writeCtrlreg_same h hstatus]
    refine ⟨hret, fun i hi => ?_⟩
    simpa [mem_ctrlregWrites] using hi
  · have hret : -eexist ≠ -einval := by decide
    rw [writeCtrlreg_differs h hstatus]
    exact ⟨hret, fun i hi => absurd hi List.not_mem_nil⟩

/-- **The index of the mask** is checked as it should be exactly for the indices that are not negative, and for those
that come with a pad. -/
theorem index_iff (env : Env) (d : Domain) (mop : MonitorOp) (hevent : mop.event = 0) : IndexOk env d mop ↔
    0 ≤ mop.movToCrIndex ∨ mop.movToCrPad1 ≠ 0 ∨ mop.movToCrPad2 ≠ 0 := by
  have hbranch : archMonitorDomctlEvent env d mop = writeCtrlreg env mop d mop.requested := by
    rw [archMonitorDomctlEvent, hevent]
    rfl
  have hsize : (0 : Int) ≤ writeCtrlregMaskSize := by decide
  by_cases hinvalid : InvalidCtrlreg mop
  · have hret := hbranch.trans (writeCtrlreg_invalid hinvalid)
    refine iff_of_true ⟨?_, fun _ => by rw [hret, Logged.val_pure]⟩ ?_
    · rw [hret]
      exact Logged.only_pure _
    · exact hinvalid.imp_left fun hlarge => Int.le_trans hsize hlarge
  obtain ⟨hret, hmask⟩ := writeCtrlreg_late env d hinvalid mop.requested
  obtain ⟨hle, hpads⟩ := not_or.mp hinvalid
  have hlt : mop.movToCrIndex < writeCtrlregMaskSize := Int.lt_of_not_ge hle
  rw [or_iff_left hpads]
  constructor
  · intro hok
    by_contra hneg
    have hval := hok.refused fun hin => hneg hin.1
    rw [hbranch] at hval
    exact hret (congrArg Prod.fst hval)
  · intro h0
    refine ⟨?_, fun hout => absurd ⟨h0, hlt⟩ hout⟩
    rintro e he i rfl
    rw [hbranch] at he
    rw [hmask i he]
    exact ⟨h0, hlt⟩

/-- The last index of the mask. -/
theorem index_last : IndexOk shiftEnv cr3Monitored (ctrlregOp 24 0) :=
  (index_iff shiftEnv cr3Monitored (ctrlregOp 24 0) rfl).mpr (by decide)

/-- The index before the mask. -/
theorem index_counterexample : ¬ ∀ (env : Env) (d : Domain) (mop : MonitorOp), mop.event = 0 → IndexOk env d mop := by
  intro h
  have hval := (h shiftEnv cr3Monitored (ctrlregOp (-1) 0) rfl).refused (by decide)
  have hret : (archMonitorDomctlEvent shiftEnv cr3Monitored (ctrlregOp (-1) 0)).val.1 = -einval := by rw [hval]
  exact absurd hret (by decide)

end Xen.Monitor
