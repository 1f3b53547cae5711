import Xen.Fpu.Lazy
import Xen.Lib.Logged

/-!
# XCR0 around saving and restoring (`i387_verified.c`)

- `fpuXsaveLogged` and `fpuXrstorLogged` are `fpu_xsave` and `fpu_xrstor` with their calls of `set_xcr0`, `xsave` and
  `xrstor` logged. Without the log they are `fpuXsave` and `fpuXrstor`.
- A run is a list of `FpuCall`s for any vCPUs, each with what the vCPU holds of XCR0 then. `GivenBack` compares what was
  last passed to `set_xcr0` with that.
- `fpu_xsave` and `fpu_xrstor` give back `XSTATE_FP_SSE`, and `fpu_xrstor` also restores with it. `xcr0_iff`: XCR0 is
  given back in a run exactly if this is what the vCPUs have.
-/

namespace Xen.Fpu

open Lib

variable {V ν : Type} [DecidableEq V]

/-! ## The functions -/

/-- What `struct vcpu` holds of XCR0. -/
structure VcpuXcr0 where
  xcr0 : BitVec 32
  xcr0Accum : BitVec 32
deriving DecidableEq, Repr

/-- `XSTATE_FP_SSE`. -/
def xstateFpSse : BitVec 32 := 1#32

/-- A call of `set_xcr0`, `xsave` or `xrstor`. -/
inductive HwCall where
  | setXcr0 (x : BitVec 32)
  | xsave (mask : BitVec 32)
  | xrstor (mask : BitVec 32)
deriving DecidableEq, Repr

/-- `fpu_xrstor`; it does not look at what the vCPU holds of XCR0. -/
def fpuXrstorLogged (s : State V ν) (v : V) (mask : BitVec 32) : Logged HwCall (State V ν) := do
  Logged.emit (.setXcr0 xstateFpSse)
  Logged.emit (.xrstor mask)
  Logged.emit (.setXcr0 xstateFpSse)
  return xrstor s v mask

/-- `fpu_xsave`. -/
def fpuXsaveLogged (s : State V ν) (v : V) (x : VcpuXcr0) : Logged HwCall (State V ν) := do
  let mask := vcpuXsaveMask (s.vcpu v)
  Logged.emit (.setXcr0 (x.xcr0Accum ||| xstateFpSse))
  Logged.emit (.xsave mask)
  Logged.emit (.setXcr0 (if x.xcr0 ≠ 0 then xstateFpSse else xstateFpSse))
  return xsave s v mask

omit [DecidableEq V] in
theorem fpuXrstorLogged_val (s : State V ν) (v : V) (mask : BitVec 32) :
    (fpuXrstorLogged s v mask).val = fpuXrstor s v mask := rfl

theorem fpuXsaveLogged_val (s : State V ν) (v : V) (x : VcpuXcr0) : (fpuXsaveLogged s v x).val = fpuXsave s v := rfl

/-! ## Runs -/

/-- A call of `fpu_xsave` or `fpu_xrstor` for a vCPU, and what that holds of XCR0 then. -/
inductive FpuCall (V : Type) where
  | fpuXsave (v : V) (x : VcpuXcr0)
  | fpuXrstor (v : V) (x : VcpuXcr0) (mask : BitVec 32)
deriving DecidableEq, Repr

/-- What the vCPU of the call holds of XCR0. -/
def FpuCall.held : FpuCall V → VcpuXcr0
  | .fpuXsave _ x => x
  | .fpuXrstor _ x _ => x

/-- The state after the call, and the calls it makes. -/
def FpuCall.run (s : State V ν) : FpuCall V → Logged HwCall (State V ν)
  | .fpuXsave v x => fpuXsaveLogged s v x
  | .fpuXrstor v _ mask => fpuXrstorLogged s v mask

/-- The vCPUs, and all calls so far, oldest first. -/
structure XcrState (V ν : Type) where
  sys : State V ν
  calls : List HwCall

/-- One call. -/
def xcrStep (s : XcrState V ν) (c : FpuCall V) : XcrState V ν := ⟨(c.run s.sys).val, s.calls ++ (c.run s.sys).log⟩

/-- The value passed to `set_xcr0`. -/
def passed : HwCall → Option (BitVec 32)
  | .setXcr0 x => some x
  | .xsave _ | .xrstor _ => none

/-- **XCR0 is given back.** At each `xsave` and `xrstor` that the call makes, the value last passed to `set_xcr0` is
`xcr0_accum | XSTATE_FP_SSE`, and after it the guest's `xcr0`, or `XSTATE_FP_SSE` if that is 0. -/
structure GivenBack (s : XcrState V ν) (c : FpuCall V) : Prop where
  during : ∀ pre op post, (c.run s.sys).log = pre ++ op :: post → passed op = none →
    lastSet passed (s.calls ++ pre) = some (c.held.xcr0Accum ||| xstateFpSse)
  after : lastSet passed (xcrStep s c).calls = some (if c.held.xcr0 ≠ 0 then c.held.xcr0 else xstateFpSse)

/-- The vCPU has no other features in XCR0 than `XSTATE_FP_SSE` and, for `fpu_xrstor`, no others accumulated. -/
def Plain : FpuCall V → Prop
  | .fpuXsave _ x => x.xcr0 = 0 ∨ x.xcr0 = xstateFpSse
  | .fpuXrstor _ x _ => (x.xcr0 = 0 ∨ x.xcr0 = xstateFpSse) ∧ x.xcr0Accum ||| xstateFpSse = xstateFpSse

instance : ∀ c : FpuCall V, Decidable (Plain c)
  | .fpuXsave .. => inferInstanceAs (Decidable (_ ∨ _))
  | .fpuXrstor .. => inferInstanceAs (Decidable ((_ ∨ _) ∧ _))

section Calls

variable {s : XcrState V ν}

/-- Both functions set XCR0, access the xsave area and set XCR0 again. -/
theorem givenBack_iff {c : FpuCall V} {enter leave : BitVec 32} {op : HwCall} (hop : passed op = none)
    (hlog : (c.run s.sys).log = [.setXcr0 enter, op, .setXcr0 leave]) : GivenBack s c ↔
      enter = c.held.xcr0Accum ||| xstateFpSse ∧ leave = if c.held.xcr0 ≠ 0 then c.held.xcr0 else xstateFpSse := by
  have hafter : lastSet passed (xcrStep s c).calls = some leave := by
    rw [xcrStep, hlog, lastSet_append]
    rfl
  have hduring : lastSet passed (s.calls ++ [.setXcr0 enter]) = some enter := by
    rw [lastSet_append]
    rfl
  constructor
  · intro h
    have henter := h.during [.setXcr0 enter] op [.setXcr0 leave] hlog hop
    have hleave := h.after
    rw [hduring, Option.some.injEq] at henter
    rw [hafter, Option.some.injEq] at hleave
    exact ⟨henter, hleave⟩
  · rintro ⟨henter, hleave⟩
    refine ⟨fun pre op' post hsplit hop' => ?_, by rw [hafter, hleave]⟩
    -- the hardware operation is the second of the three calls
    rw [hlog] at hsplit
    rcases pre with _ | ⟨first, _ | ⟨second, _ | ⟨third, pre⟩⟩⟩
    · cases hsplit
      cases hop'
    · cases hsplit
      rw [hduring, henter]
    · cases hsplit
      cases hop'
    · simp at hsplit

/-- What the guest has is given back as `XSTATE_FP_SSE`. -/
theorem fpSse_eq_iff (x : BitVec 32) :
    (xstateFpSse = if x ≠ 0 then x else xstateFpSse) ↔ x = 0 ∨ x = xstateFpSse := by
  by_cases h : x = 0
  · rw [if_neg (not_not_intro h)]
    exact iff_of_true rfl (Or.inl h)
  · rw [if_pos h, or_iff_right h]
    exact eq_comm

/-- **One call.** -/
theorem givenBack_iff_plain (s : XcrState V ν) (c : FpuCall V) : GivenBack s c ↔ Plain c := by
  cases c with
  | fpuXsave v x =>
    have hlog : ((FpuCall.fpuXsave v x).run s.sys).log =
        [.setXcr0 (x.xcr0Accum ||| xstateFpSse), .xsave (vcpuXsaveMask (s.sys.vcpu v)), .setXcr0 xstateFpSse] := by
      simp [FpuCall.run, fpuXsaveLogged]
    rw [givenBack_iff rfl hlog, FpuCall.held, fpSse_eq_iff]
    exact and_iff_right rfl
  | fpuXrstor v x mask =>
    have hlog : ((FpuCall.fpuXrstor v x mask).run s.sys).log =
        [.setXcr0 xstateFpSse, .xrstor mask, .setXcr0 xstateFpSse] := rfl
    rw [givenBack_iff rfl hlog, FpuCall.held, fpSse_eq_iff]
    exact and_comm.trans (and_congr_right fun _ => eq_comm)

end Calls

/-- **XCR0** is given back in a run exactly if no vCPU of it has more than `XSTATE_FP_SSE`, neither in XCR0 nor, where
it is restored, accumulated. -/
theorem xcr0_iff (s : XcrState V ν) (cs : List (FpuCall V)) :
    Along GivenBack xcrStep s cs ↔ ∀ c ∈ cs, Plain c := by
  rw [along_congr givenBack_iff_plain]
  exact along_iff_forall_mem xcrStep Plain s cs

/-- One vCPU without anything in the registers. -/
def oneVcpu : XcrState Unit Nat := ⟨⟨fun _ => ⟨fun _ => 0, true, true, true⟩, fun _ => 0, (), fun _ _ => 0⟩, []⟩

/-- A guest with AVX: it gets back `XSTATE_FP_SSE`. -/
theorem xcr0_counterexample : ¬ ∀ (x : VcpuXcr0) (cs : List (FpuCall Unit)), (∀ c ∈ cs, c.held = x) →
    Along GivenBack xcrStep oneVcpu cs := by
  intro h
  have hgiven : GivenBack oneVcpu (.fpuXsave () ⟨7, 7⟩) := (h ⟨7, 7⟩ [.fpuXsave () ⟨7, 7⟩] (by decide)).1
  exact absurd ((givenBack_iff_plain _ _).mp hgiven) (by decide)

end Xen.Fpu
