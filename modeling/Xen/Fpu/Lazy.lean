import Mathlib.Logic.Function.Basic
import Xen.Lib.Runs

/-!
# Lazy switching of the FPU (`i387_verified.c`)

- `vcpuRestoreFpuLazy` and `vcpuSaveFpu` on the FPU registers and the vCPUs' xsave areas, component by component;
  `xsave` and `xrstor` transfer the components of the mask.
- `had v` is a ghost: the register values the vCPU `v` last had. A run is a list of `Event`s, each of them of one vCPU;
  `Legal` says which one is running and that its writes trap before the restore.
- `XSTATE_LAZY` is 0, so that the restore loads nothing, and a vCPU without nonlazy state is never saved (`save_area`).
- `restoreLazy_iff`: the restore finds what was written last, by whatever vCPU. It gives a vCPU the values it last had
  exactly if these are the same.
-/

namespace Xen.Fpu

open Lib

/-! ## Data model -/

/-- A component of the extended state: a bit of the mask, which is an `int`. -/
abbrev Component := Fin 32

/-- What `struct vcpu` holds of the FPU. -/
structure Vcpu (ν : Type) where
  xsaveArea : Component → ν
  nonlazyXstateUsed : Bool
  fpuInitialised : Bool
  fpuDirtied : Bool

/-- The vCPUs, the FPU registers and the vCPU that is running; `had` is the ghost. -/
structure State (V ν : Type) where
  vcpu : V → Vcpu ν
  regs : Component → ν
  running : V
  had : V → Component → ν

/-- `XSTATE_ALL`, `XSTATE_LAZY` and `XSTATE_NONLAZY`. -/
def Mask.all : BitVec 32 := 1#32

def Mask.lazy : BitVec 32 := 0#32

def Mask.nonlazy : BitVec 32 := 1#32

variable {V ν : Type} [DecidableEq V]

/-- Change what is held of one vCPU. -/
def State.setVcpu (s : State V ν) (v : V) (u : Vcpu ν) : State V ν := { s with vcpu := Function.update s.vcpu v u }

/-! ## Restoring -/

/-- The components of the mask from `src`, the others from `dst`. -/
def transfer (mask : BitVec 32) (src dst : Component → ν) : Component → ν :=
  fun c => if mask.getLsbD c then src c else dst c

/-- `xrstor`. -/
def xrstor (s : State V ν) (v : V) (mask : BitVec 32) : State V ν :=
  { s with regs := transfer mask (s.vcpu v).xsaveArea s.regs }

/-- `fpu_xrstor`. -/
def fpuXrstor (s : State V ν) (v : V) (mask : BitVec 32) : State V ν := xrstor s v mask

/-- `vcpu_restore_fpu_lazy`, which sets `cpu_has_xsave`. -/
def vcpuRestoreFpuLazy (s : State V ν) (v : V) : State V ν :=
  if (s.vcpu v).fpuDirtied then
    s
  else
    let s' := fpuXrstor s v Mask.lazy
    s'.setVcpu v { s'.vcpu v with fpuInitialised := true, fpuDirtied := true }

/-! ## Saving -/

/-- `xstate_all`. -/
def xstateAll (_ : Vcpu ν) : Int := 1

/-- `vcpu_xsave_mask`. -/
def vcpuXsaveMask (u : Vcpu ν) : BitVec 32 :=
  if u.fpuDirtied then
    if u.nonlazyXstateUsed then Mask.all else Mask.lazy
  else if xstateAll u ≠ 0 then
    Mask.all
  else
    Mask.nonlazy

/-- `xsave`. -/
def xsave (s : State V ν) (v : V) (mask : BitVec 32) : State V ν :=
  s.setVcpu v { s.vcpu v with xsaveArea := transfer mask s.regs (s.vcpu v).xsaveArea }

/-- `fpu_xsave`. -/
def fpuXsave (s : State V ν) (v : V) : State V ν := xsave s v (vcpuXsaveMask (s.vcpu v))

/-- `fpu_fxsave`, which is empty. -/
def fpuFxsave (s : State V ν) (_ : V) : State V ν := s

/-- `_vcpu_save_fpu`; `cpu_has_xsave` is not set there. -/
def vcpuSaveFpuCore (s : State V ν) (v : V) (cpuHasXsave : Bool) : Int × State V ν :=
  if !(s.vcpu v).fpuDirtied && !(s.vcpu v).nonlazyXstateUsed then
    (0, s)
  else
    let s' := if cpuHasXsave then fpuXsave s v else fpuFxsave s v
    (1, s'.setVcpu v { s'.vcpu v with fpuDirtied := false })

/-- `vcpu_save_fpu`. -/
def vcpuSaveFpu (s : State V ν) (v : V) (cpuHasXsave : Bool) : State V ν := (vcpuSaveFpuCore s v cpuHasXsave).2

/-! ## Runs -/

/-- A call of `vcpu_restore_fpu_lazy`, a guest's write to a component of the FPU registers, or the switch from a vCPU to
the next with `vcpu_save_fpu`. -/
inductive Event (V ν : Type) where
  | restore (v : V)
  | write (v : V) (c : Component) (x : ν)
  | switch (v next : V) (cpuHasXsave : Bool)

/-- One event. -/
def step (s : State V ν) : Event V ν → State V ν
  | .restore v => vcpuRestoreFpuLazy s v
  | .write v c x =>
    { s with
      regs := Function.update s.regs c x
      had := Function.update s.had v (Function.update (s.had v) c x) }
  | .switch v next cpuHasXsave => { vcpuSaveFpu s v cpuHasXsave with running := next }

/-- The event is one of the running vCPU, which writes after its restore: before it, the write traps. -/
def Legal (s : State V ν) : Event V ν → Prop
  | .restore v => v = s.running
  | .write v _ _ => v = s.running ∧ (s.vcpu v).fpuDirtied = true
  | .switch v _ _ => v = s.running

instance (s : State V ν) : ∀ e : Event V ν, Decidable (Legal s e)
  | .restore v => inferInstanceAs (Decidable (v = s.running))
  | .write v _ _ => inferInstanceAs (Decidable (v = s.running ∧ (s.vcpu v).fpuDirtied = true))
  | .switch v _ _ => inferInstanceAs (Decidable (v = s.running))

/-- A start: a vCPU has its values in the registers if it has dirtied them, else in its xsave area. -/
def initial (vcpu : V → Vcpu ν) (regs : Component → ν) (running : V) : State V ν :=
  ⟨vcpu, regs, running, fun v => if (vcpu v).fpuDirtied then regs else (vcpu v).xsaveArea⟩

/-- **Nothing is lost.** The restore gives the vCPU the values it last had. -/
def RestoreOk (s : State V ν) (v : V) : Prop := (vcpuRestoreFpuLazy s v).regs = s.had v

/-- What the event writes to a component. -/
def writeTo (c : Component) : Event V ν → Option ν
  | .write _ c' x => if c' = c then some x else none
  | _ => none

/-- What the event writes to a component for a vCPU. -/
def writeBy (v : V) (c : Component) : Event V ν → Option ν
  | .write v' c' x => if v' = v ∧ c' = c then some x else none
  | _ => none

/-- Each component was last given, by any vCPU, the value that the vCPU last gave it; without a write, the value at the
start counts. -/
def LastIsOwn (s : State V ν) (es : List (Event V ν)) (v : V) : Prop :=
  ∀ c, (lastSet (writeTo c) es).getD (s.regs c) = (lastSet (writeBy v c) es).getD (s.had v c)

/-! ## What the steps change -/

variable (s : State V ν) (v : V)

theorem transfer_lazy (src dst : Component → ν) : transfer Mask.lazy src dst = dst := by
  funext c
  simp [transfer, Mask.lazy]

/-- **The restore** loads nothing. -/
theorem restore_regs : (vcpuRestoreFpuLazy s v).regs = s.regs := by
  unfold vcpuRestoreFpuLazy
  split
  · rfl
  · exact transfer_lazy _ _

theorem restore_had : (vcpuRestoreFpuLazy s v).had = s.had := by
  unfold vcpuRestoreFpuLazy
  split <;> rfl

/-- Saving leaves the registers and the ghost. -/
theorem save_regs (cpuHasXsave : Bool) :
    (vcpuSaveFpu s v cpuHasXsave).regs = s.regs ∧ (vcpuSaveFpu s v cpuHasXsave).had = s.had := by
  unfold vcpuSaveFpu vcpuSaveFpuCore
  split
  · exact ⟨rfl, rfl⟩
  · cases cpuHasXsave <;> exact ⟨rfl, rfl⟩

/-- Of a vCPU without nonlazy state, nothing is saved: it is skipped, or saved with the mask 0. -/
theorem save_area (h : (s.vcpu v).nonlazyXstateUsed = false) (cpuHasXsave : Bool) :
    ((vcpuSaveFpu s v cpuHasXsave).vcpu v).xsaveArea = (s.vcpu v).xsaveArea := by
  cases hd : (s.vcpu v).fpuDirtied with
  | false => simp [vcpuSaveFpu, vcpuSaveFpuCore, hd, h]
  | true =>
    have hmask : vcpuXsaveMask (s.vcpu v) = Mask.lazy := by simp [vcpuXsaveMask, hd, h]
    cases cpuHasXsave with
    | false => simp [vcpuSaveFpu, vcpuSaveFpuCore, State.setVcpu, fpuFxsave, hd]
    | true => simp [vcpuSaveFpu, vcpuSaveFpuCore, State.setVcpu, fpuXsave, xsave, hmask, transfer_lazy, hd]

/-- **The registers** hold what was written last. -/
theorem step_regs (c : Component) (e : Event V ν) : (step s e).regs c = (writeTo c e).getD (s.regs c) := by
  cases e with
  | restore v => exact congrFun (restore_regs s v) c
  | switch v next cpuHasXsave => exact congrFun (save_regs s v cpuHasXsave).1 c
  | write v c' x =>
    by_cases h : c' = c
    · subst h
      simp [step, writeTo]
    · simp [step, writeTo, h, Function.update_of_ne (Ne.symm h)]

/-- **The values of a vCPU** are what it wrote last. -/
theorem step_had (c : Component) (e : Event V ν) : (step s e).had v c = (writeBy v c e).getD (s.had v c) := by
  cases e with
  | restore v' => exact congrFun (congrFun (restore_had s v') v) c
  | switch v' next cpuHasXsave => exact congrFun (congrFun (save_regs s v' cpuHasXsave).2 v) c
  | write v' c' x =>
    by_cases hv : v' = v
    · subst hv
      by_cases hc : c' = c
      · subst hc
        simp [step, writeBy]
      · simp [step, writeBy, hc, Function.update_of_ne (Ne.symm hc)]
    · simp [step, writeBy, hv, Function.update_of_ne (Ne.symm hv)]

/-- The registers after a run. -/
theorem run_regs (c : Component) (es : List (Event V ν)) :
    (es.foldl step s).regs c = (lastSet (writeTo c) es).getD (s.regs c) :=
  foldl_lastSet_getD (fun s => s.regs c) (fun s e => step_regs s c e) s es

/-- The values of a vCPU after a run. -/
theorem run_had (c : Component) (es : List (Event V ν)) :
    (es.foldl step s).had v c = (lastSet (writeBy v c) es).getD (s.had v c) :=
  foldl_lastSet_getD (fun s => s.had v c) (fun s e => step_had s v c e) s es

/-- **Lazy restore.** After any run, `vcpu_restore_fpu_lazy` gives a vCPU the values it last had exactly if every
component was last given just this value, by whatever vCPU. -/
theorem restoreLazy_iff (vcpu : V → Vcpu ν) (regs : Component → ν) (running : V) (es : List (Event V ν)) (v : V) :
    RestoreOk (es.foldl step (initial vcpu regs running)) v ↔ LastIsOwn (initial vcpu regs running) es v := by
  unfold RestoreOk LastIsOwn
  rw [restore_regs, funext_iff]
  apply forall_congr'
  intro c
  rw [run_regs, run_had]

/-! ### Two vCPUs -/

/-- The vCPU `false` writes 1, the vCPU `true` writes 2, and the vCPU `false` runs again. -/
def handOver : List (Event Bool Nat) :=
  [.restore false, .write false 0 1, .switch false true true, .restore true, .write true 0 2, .switch true false true]

/-- The vCPU `false` finds 2. -/
theorem restoreLazy_counterexample :
    ¬ ∀ (V ν : Type) (_ : DecidableEq V) (vcpu : V → Vcpu ν) (regs : Component → ν) (running : V)
      (es : List (Event V ν)), Along Legal step (initial vcpu regs running) es →
        RestoreOk (es.foldl step (initial vcpu regs running)) (es.foldl step (initial vcpu regs running)).running := by
  intro h
  have hok := h Bool Nat inferInstance (fun _ => ⟨fun _ => 0, false, false, false⟩) (fun _ => 0) false handOver
    (by decide +kernel)
  exact absurd (congrFun hok 0) (by decide +kernel)

end Xen.Fpu
