import Xen.Fpu.Lazy

/-!
# Who has the FPU and what is saved (`i387_verified.c`)

- `saveFpuEnable` is `save_fpu_enable`, with which Xen takes the FPU for itself. A run is a list of `FpuEvent`s: those
  of the guests, such calls, and Xen's own writes to the registers, for which the running vCPU must not be dirty.
- `dirty_running`: in every run only the running vCPU is ever dirty, and a dirty one is initialised.
- `areas_saved`: the xsave areas after any run. Of a vCPU with nonlazy state component 0 is what the registers held at
  its last save with `cpu_has_xsave`, also if this is what Xen wrote there; no other component, and none of any other
  vCPU, is ever saved.
-/

namespace Xen.Fpu

open Lib

variable {V ν : Type} [DecidableEq V]

/-! ## Runs -/

/-- `save_fpu_enable`. -/
def saveFpuEnable (s : State V ν) (current : V) (cpuHasXsave : Bool) : State V ν :=
  -- `clts` is empty, so that both cases of the test are the same
  (vcpuSaveFpuCore s current cpuHasXsave).2

/-- An event of a guest, a call of `save_fpu_enable`, or a write of Xen to the registers. -/
inductive FpuEvent (V ν : Type) where
  | guest (e : Event V ν)
  | enable (v : V) (cpuHasXsave : Bool)
  | xen (c : Component) (x : ν)

/-- One event. -/
def fpuStep (s : State V ν) : FpuEvent V ν → State V ν
  | .guest e => step s e
  | .enable v cpuHasXsave => saveFpuEnable s v cpuHasXsave
  | .xen c x => { s with regs := Function.update s.regs c x }

/-- The running vCPU saves itself, and it is not dirty when Xen writes. -/
def FpuLegal (s : State V ν) : FpuEvent V ν → Prop
  | .guest e => Legal s e
  | .enable v _ => v = s.running
  | .xen _ _ => (s.vcpu s.running).fpuDirtied = false

instance (s : State V ν) : ∀ e : FpuEvent V ν, Decidable (FpuLegal s e)
  | .guest e => inferInstanceAs (Decidable (Legal s e))
  | .enable v _ => inferInstanceAs (Decidable (v = s.running))
  | .xen _ _ => inferInstanceAs (Decidable (_ = _))

/-- **The owner of the FPU.** Only the running vCPU is dirty, and a vCPU that is dirty is initialised. -/
structure Owner (s : State V ν) : Prop where
  running : ∀ v, (s.vcpu v).fpuDirtied = true → v = s.running
  initialised : ∀ v, (s.vcpu v).fpuDirtied = true → (s.vcpu v).fpuInitialised = true

/-- The event saves the vCPU with `xsave`. -/
def FpuEvent.saves (v : V) : FpuEvent V ν → Bool
  | .guest (.switch w _ cpuHasXsave) => w = v && cpuHasXsave
  | .enable w cpuHasXsave => w = v && cpuHasXsave
  | _ => false

omit [DecidableEq V] in
/-- What the event writes to a component. -/
def FpuEvent.writes (c : Component) : FpuEvent V ν → Option ν
  | .guest e => writeTo c e
  | .xen c' x => if c' = c then some x else none
  | _ => none

/-! ## One save -/

section Save

variable (s : State V ν) (v w : V) (cpuHasXsave : Bool)

/-- **`_vcpu_save_fpu`** on any vCPU: the one that is saved is not dirty afterwards, the others stay as they are. -/
theorem save_vcpu :
    ((vcpuSaveFpuCore s v cpuHasXsave).2.vcpu v).fpuDirtied = false ∧
      ((vcpuSaveFpuCore s v cpuHasXsave).2.vcpu v).nonlazyXstateUsed = (s.vcpu v).nonlazyXstateUsed ∧
      ∀ w, w ≠ v → (vcpuSaveFpuCore s v cpuHasXsave).2.vcpu w = s.vcpu w := by
  unfold vcpuSaveFpuCore
  split
  · next h =>
    simp only [Bool.and_eq_true, Bool.not_eq_true'] at h
    exact ⟨h.1, rfl, fun _ _ => rfl⟩
  · cases cpuHasXsave with
    | false =>
      refine ⟨by simp [State.setVcpu], by simp [State.setVcpu, fpuFxsave], ?_⟩
      intro w hw
      simp [State.setVcpu, fpuFxsave, Function.update_of_ne hw]
    | true =>
      refine ⟨by simp [State.setVcpu], by simp [State.setVcpu, fpuXsave, xsave], ?_⟩
      intro w hw
      simp [State.setVcpu, fpuXsave, xsave, Function.update_of_ne hw]

/-- The rest of the state stays. -/
theorem save_rest : (vcpuSaveFpuCore s v cpuHasXsave).2.regs = s.regs ∧
    (vcpuSaveFpuCore s v cpuHasXsave).2.running = s.running := by
  unfold vcpuSaveFpuCore
  split
  · exact ⟨rfl, rfl⟩
  · cases cpuHasXsave <;> exact ⟨rfl, rfl⟩

/-- `XSTATE_ALL` has component 0 only. -/
theorem transfer_all (src dst : Component → ν) (c : Component) :
    transfer Mask.all src dst c = if c = 0 then src c else dst c := by
  have hbit : Mask.all.getLsbD c = decide (c = 0) := by
    revert c
    decide
  rw [transfer, hbit]
  by_cases hc : c = 0 <;> simp [hc]

/-- **What is saved**: component 0, if the vCPU has nonlazy state and `xsave` is used. -/
theorem save_component (c : Component) :
    ((vcpuSaveFpuCore s v cpuHasXsave).2.vcpu v).xsaveArea c =
      if c = 0 ∧ (s.vcpu v).nonlazyXstateUsed = true ∧ cpuHasXsave = true then s.regs c
      else (s.vcpu v).xsaveArea c := by
  cases hn : (s.vcpu v).nonlazyXstateUsed with
  | false =>
    rw [if_neg (by simp)]
    exact congrFun (save_area s v hn cpuHasXsave) c
  | true =>
    have hmask : vcpuXsaveMask (s.vcpu v) = Mask.all := by simp [vcpuXsaveMask, hn, xstateAll]
    have hskip : (!(s.vcpu v).fpuDirtied && !(s.vcpu v).nonlazyXstateUsed) = false := by simp [hn]
    cases cpuHasXsave with
    | false => simp [vcpuSaveFpuCore, hskip, State.setVcpu, fpuFxsave]
    | true => simp [vcpuSaveFpuCore, hskip, State.setVcpu, fpuXsave, xsave, hmask, transfer_all]

end Save

/-! ## Every run -/

section Runs

variable {s : State V ν} {e : FpuEvent V ν}

/-- **One event** keeps the owner. -/
theorem fpuStep_owner (h : Owner s) (hlegal : FpuLegal s e) : Owner (fpuStep s e) := by
  have hsave : ∀ (cpuHasXsave : Bool) (v : V),
      v = s.running → ∀ w, ((vcpuSaveFpuCore s v cpuHasXsave).2.vcpu w).fpuDirtied = false := by
    rintro cpuHasXsave v rfl w
    by_cases hw : w = s.running
    · subst hw
      exact (save_vcpu s _ cpuHasXsave).1
    · rw [(save_vcpu s _ cpuHasXsave).2.2 w hw]
      exact Bool.eq_false_iff.mpr fun hd => hw (h.running w hd)
  cases e with
  | guest e =>
    cases e with
    | restore v =>
      obtain rfl : v = s.running := hlegal
      cases hd : (s.vcpu s.running).fpuDirtied with
      | true =>
        have hsame : fpuStep s (.guest (.restore s.running)) = s := by simp [fpuStep, step, vcpuRestoreFpuLazy, hd]
        rw [hsame]
        exact h
      | false =>
        have hstep : fpuStep s (.guest (.restore s.running)) = (fpuXrstor s s.running Mask.lazy).setVcpu s.running
            { s.vcpu s.running with fpuInitialised := true, fpuDirtied := true } := by
          simp [fpuStep, step, vcpuRestoreFpuLazy, hd, fpuXrstor, xrstor]
        have hother : ∀ w, w ≠ s.running → (fpuStep s (.guest (.restore s.running))).vcpu w = s.vcpu w := by
          intro w hw
          rw [hstep]
          exact Function.update_of_ne hw _ _
        constructor
        · intro w hw
          rw [hstep]
          by_contra hne
          rw [hother w hne] at hw
          exact hne (h.running w hw)
        · intro w hw
          by_cases hne : w = s.running
          · subst hne
            simp [hstep, State.setVcpu]
          · rw [hother w hne] at hw ⊢
            exact h.initialised w hw
    | write v c x => exact ⟨h.running, h.initialised⟩
    | switch v next cpuHasXsave =>
      have hclean := hsave cpuHasXsave v hlegal
      exact ⟨fun w hw => absurd (hw.symm.trans (hclean w)) (by decide),
        fun w hw => absurd (hw.symm.trans (hclean w)) (by decide)⟩
  | enable v cpuHasXsave =>
    have hclean := hsave cpuHasXsave v hlegal
    exact ⟨fun w hw => absurd (hw.symm.trans (hclean w)) (by decide),
      fun w hw => absurd (hw.symm.trans (hclean w)) (by decide)⟩
  | xen c x => exact ⟨h.running, h.initialised⟩

/-- **The FPU has one owner.** In every legal run, at most the running vCPU is dirty, and a dirty one is initialised. -/
theorem dirty_running (s : State V ν) (hs : Owner s) (es : List (FpuEvent V ν)) (hlegal : Along FpuLegal fpuStep s es) :
    Throughout Owner fpuStep s es :=
  throughout_of_along (fun _ _ h hl => fpuStep_owner h hl) hs hlegal

/-- The registers hold what was written last. -/
theorem fpuStep_regs (c : Component) : (fpuStep s e).regs c = (e.writes c).getD (s.regs c) := by
  cases e with
  | guest e => exact step_regs s c e
  | enable v cpuHasXsave => exact congrFun (save_rest s v cpuHasXsave).1 c
  | xen c' x =>
    by_cases h : c' = c
    · subst h
      simp [fpuStep, FpuEvent.writes]
    · simp [fpuStep, FpuEvent.writes, h, Function.update_of_ne (Ne.symm h)]

/-- **One event** on the area of a vCPU. -/
theorem fpuStep_area (v : V) (c : Component) :
    ((fpuStep s e).vcpu v).nonlazyXstateUsed = (s.vcpu v).nonlazyXstateUsed ∧
      ((fpuStep s e).vcpu v).xsaveArea c =
        if c = 0 ∧ (s.vcpu v).nonlazyXstateUsed = true ∧ e.saves v = true then s.regs c
        else (s.vcpu v).xsaveArea c := by
  have hsave : ∀ (w : V) (cpuHasXsave : Bool),
      ((vcpuSaveFpuCore s w cpuHasXsave).2.vcpu v).nonlazyXstateUsed = (s.vcpu v).nonlazyXstateUsed ∧
        ((vcpuSaveFpuCore s w cpuHasXsave).2.vcpu v).xsaveArea c =
          if c = 0 ∧ (s.vcpu v).nonlazyXstateUsed = true ∧ (w = v && cpuHasXsave : Bool) = true then s.regs c
          else (s.vcpu v).xsaveArea c := by
    intro w cpuHasXsave
    by_cases hw : w = v
    · subst hw
      refine ⟨(save_vcpu s w cpuHasXsave).2.1, ?_⟩
      rw [save_component]
      simp
    · rw [(save_vcpu s w cpuHasXsave).2.2 v (Ne.symm hw)]
      simp [hw]
  cases e with
  | guest e =>
    cases e with
    | restore w =>
      by_cases hw : w = v
      · subst hw
        cases hd : (s.vcpu w).fpuDirtied <;>
          simp [fpuStep, step, vcpuRestoreFpuLazy, hd, fpuXrstor, xrstor, State.setVcpu, FpuEvent.saves]
      · cases hd : (s.vcpu w).fpuDirtied <;>
          simp [fpuStep, step, vcpuRestoreFpuLazy, hd, fpuXrstor, xrstor, State.setVcpu, FpuEvent.saves,
            Function.update_of_ne (Ne.symm hw)]
    | write w c' x => simp [fpuStep, step, FpuEvent.saves]
    | switch w next cpuHasXsave => exact hsave w cpuHasXsave
  | enable w cpuHasXsave => exact hsave w cpuHasXsave
  | xen c' x => simp [fpuStep, FpuEvent.saves]

/-- What component `c` of the registers, `x` at the start, holds at the last save of the vCPU. -/
def lastSaved (c : Component) (v : V) : ν → List (FpuEvent V ν) → Option ν
  | _, [] => none
  | x, e :: es => (lastSaved c v ((e.writes c).getD x) es).or (if e.saves v then some x else none)

/-- **What is saved** in a run: component 0 of the vCPUs with nonlazy state, as the registers are at the last save. -/
theorem areas_saved (s : State V ν) (es : List (FpuEvent V ν)) (v : V) (c : Component) :
    ((es.foldl fpuStep s).vcpu v).xsaveArea c =
      if c = 0 ∧ (s.vcpu v).nonlazyXstateUsed = true then
        (lastSaved 0 v (s.regs 0) es).getD ((s.vcpu v).xsaveArea c)
      else (s.vcpu v).xsaveArea c := by
  induction es generalizing s with
  | nil => simp [lastSaved]
  | cons e es ih =>
    obtain ⟨hnonlazy, harea⟩ := fpuStep_area (s := s) (e := e) v c
    rw [List.foldl_cons, ih, hnonlazy, harea, fpuStep_regs, lastSaved]
    by_cases h : c = 0 ∧ (s.vcpu v).nonlazyXstateUsed = true
    · obtain ⟨rfl, hn⟩ := h
      cases lastSaved 0 v ((e.writes 0).getD (s.regs 0)) es <;> cases e.saves v <;> simp [hn]
    · rw [if_neg h, if_neg h, if_neg fun h' => h ⟨h'.1, h'.2.1⟩]

end Runs

/-! ### Two vCPUs -/

/-- The vCPU `true` has nonlazy state; Xen takes the FPU between the two. All of them write to the same component. -/
def takeOver (c : Component) : List (FpuEvent Bool Nat) :=
  [.guest (.restore true), .guest (.write true c 7), .enable true true, .xen c 9, .guest (.switch true false true),
    .guest (.restore false), .guest (.write false c 8)]

theorem dirty_running_takeOver :
    Throughout Owner fpuStep (initial (fun v => ⟨fun _ => 0, v, false, false⟩) (fun _ => 0) true) (takeOver 0) :=
  dirty_running _ ⟨(by rintro v ⟨⟩), (by rintro v ⟨⟩)⟩ (takeOver 0) (by decide +kernel)

end Xen.Fpu
