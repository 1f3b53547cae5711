import Mathlib.Logic.Function.Iterate
import Xen.VmEvent.Emulate

/-!
# Toggling single-step mode (`vm_event_verified.c`)

- `vmEventToggleSinglestep` flips `single_step` of a vCPU for a response that carries the flag on an HVM domain
  (`Response.toggles`). A run is a list of responses for any vCPUs.
- `hvm_is_singlestep_supported` returns the pointer to the callback, and does not call it, so that every such response
  flips, whatever the callback says (`after_eq`).
- `singlestep_iff`: the run flips as the callback allows exactly if it allows flips, or no response asks for one.
-/

namespace Xen.VmEvent

open Lib

/-! ## Data model -/

def VM_EVENT_FLAG_TOGGLE_SINGLESTEP : BitVec 32 := 1#32 <<< 4

/-- `enum guest_type`. -/
inductive GuestType where
  | pv | hvm
deriving DecidableEq, Repr

/-- `struct hvm_function_table`: what the callback returns, or `none` if the pointer to it is `NULL`. -/
structure HvmFunctionTable where
  isSinglestepSupported : Option Bool
deriving DecidableEq, Repr

/-- A call of `vm_event_toggle_singlestep`: the type of the domain, the vCPU and the flags of the response. -/
structure Response (α : Type) where
  guestType : GuestType
  vcpu : α
  flags : BitVec 32
deriving DecidableEq, Repr

/-! ## The functions -/

section Functions

variable {α : Type} [DecidableEq α]

def isHvmDomain (guestType : GuestType) : Bool := guestType = .hvm

/-- `hvm_is_singlestep_supported`: the pointer, converted to a `bool_t`. -/
def hvmIsSinglestepSupported (hvmFuncs : HvmFunctionTable) : Bool := hvmFuncs.isSinglestepSupported.isSome

/-- `hvm_toggle_singlestep`, on `single_step` of every vCPU. -/
def hvmToggleSinglestep (hvmFuncs : HvmFunctionTable) (singleStep : α → Bool) (v : α) : α → Bool :=
  if !hvmIsSinglestepSupported hvmFuncs then singleStep
  else Function.update singleStep v (!singleStep v)

/-- `vm_event_toggle_singlestep`. -/
def vmEventToggleSinglestep (hvmFuncs : HvmFunctionTable) (singleStep : α → Bool) (rsp : Response α) : α → Bool :=
  if !hasFlag rsp.flags VM_EVENT_FLAG_TOGGLE_SINGLESTEP then singleStep
  else if !isHvmDomain rsp.guestType then singleStep
  else hvmToggleSinglestep hvmFuncs singleStep rsp.vcpu

/-- `single_step` of every vCPU after some responses. -/
def afterResponses (hvmFuncs : HvmFunctionTable) (singleStep : α → Bool) (rsps : List (Response α)) : α → Bool :=
  rsps.foldl (vmEventToggleSinglestep hvmFuncs) singleStep

end Functions

/-! ## Runs -/

section Runs

variable {α : Type} [DecidableEq α]

omit [DecidableEq α] in
/-- The response carries the flag on an HVM domain. -/
def Response.toggles (rsp : Response α) : Bool :=
  hasFlag rsp.flags VM_EVENT_FLAG_TOGGLE_SINGLESTEP && isHvmDomain rsp.guestType

/-- How many of the responses ask to toggle the vCPU. -/
def toggleCount (rsps : List (Response α)) (v : α) : Nat := rsps.countP fun rsp => rsp.vcpu = v && rsp.toggles

/-- **Toggles as supported.** At every point of the run, `single_step` of a vCPU is what it was at the start, flipped
once for every response that asks for it if the callback returns true, and not at all if it returns false. -/
def TogglesAsSupported (supported : Bool) (hvmFuncs : HvmFunctionTable) (singleStep : α → Bool)
    (rsps : List (Response α)) : Prop :=
  ∀ pre, pre <+: rsps → ∀ v, afterResponses hvmFuncs singleStep pre v =
    not^[if supported then toggleCount pre v else 0] (singleStep v)

variable {hvmFuncs : HvmFunctionTable} {supported : Bool} {singleStep : α → Bool} {rsps : List (Response α)}

/-- **One response** flips the vCPU if it asks for it, and leaves the others. -/
theorem vmEventToggleSinglestep_eq (h : hvmFuncs.isSinglestepSupported = some supported) (rsp : Response α) (v : α) :
    vmEventToggleSinglestep hvmFuncs singleStep rsp v =
      if rsp.vcpu = v && rsp.toggles then !singleStep v else singleStep v := by
  have hsupported : hvmIsSinglestepSupported hvmFuncs = true := by rw [hvmIsSinglestepSupported, h, Option.isSome_some]
  cases hflag : hasFlag rsp.flags VM_EVENT_FLAG_TOGGLE_SINGLESTEP with
  | false => simp [vmEventToggleSinglestep, Response.toggles, hflag]
  | true =>
    cases hhvm : isHvmDomain rsp.guestType with
    | false => simp [vmEventToggleSinglestep, Response.toggles, hflag, hhvm]
    | true =>
      by_cases hv : rsp.vcpu = v
      · subst hv
        simp [vmEventToggleSinglestep, hvmToggleSinglestep, Response.toggles, hflag, hhvm, hsupported]
      · simp [vmEventToggleSinglestep, hvmToggleSinglestep, Response.toggles, hflag, hhvm, hsupported, hv,
          Function.update_of_ne (Ne.symm hv)]

/-- **All responses** flip the vCPU once for every one that asks for it, whatever the callback returns. -/
theorem after_eq (h : hvmFuncs.isSinglestepSupported = some supported) (singleStep : α → Bool)
    (rsps : List (Response α)) (v : α) :
    afterResponses hvmFuncs singleStep rsps v = not^[toggleCount rsps v] (singleStep v) := by
  induction rsps generalizing singleStep with
  | nil => rfl
  | cons rsp rsps ih =>
    rw [afterResponses, List.foldl_cons]
    refine (ih (vmEventToggleSinglestep hvmFuncs singleStep rsp)).trans ?_
    rw [vmEventToggleSinglestep_eq h, toggleCount, toggleCount, List.countP_cons]
    cases (rsp.vcpu = v && rsp.toggles : Bool) with
    | true => exact (Function.iterate_succ_apply not _ _).symm
    | false => rfl

/-- Without a response that asks for it, nothing flips. -/
theorem toggleCount_eq_zero (h : ∀ rsp ∈ rsps, rsp.toggles = false) (v : α) : toggleCount rsps v = 0 := by
  apply List.countP_eq_zero.mpr
  intro rsp hrsp
  simp [h rsp hrsp]

end Runs

/-- **Single-step mode** is toggled as the callback allows, in every run on any vCPUs, exactly if the callback returns
true or no response of the run carries the flag on an HVM domain. -/
theorem singlestep_iff {α : Type} [DecidableEq α] (hvmFuncs : HvmFunctionTable) (supported : Bool)
    (singleStep : α → Bool) (rsps : List (Response α)) (h : hvmFuncs.isSinglestepSupported = some supported) :
    TogglesAsSupported supported hvmFuncs singleStep rsps ↔
      supported = true ∨ ∀ rsp ∈ rsps, rsp.toggles = false := by
  cases supported with
  | true => exact iff_of_true (fun pre _ v => after_eq h singleStep pre v) (Or.inl rfl)
  | false =>
    simp only [Bool.false_eq_true, false_or]
    constructor
    · intro hok rsp hrsp
      rw [← Bool.not_eq_true]
      intro htoggles
      -- the state before this response and the one behind it cannot both be the first one
      obtain ⟨pre, post, rfl⟩ := List.append_of_mem hrsp
      have hbefore := hok pre (List.prefix_append _ _) rsp.vcpu
      have hafter := hok (pre ++ [rsp]) (by simp) rsp.vcpu
      have hstep : afterResponses hvmFuncs singleStep (pre ++ [rsp]) rsp.vcpu =
          !afterResponses hvmFuncs singleStep pre rsp.vcpu := by
        rw [afterResponses, List.foldl_append]
        refine (vmEventToggleSinglestep_eq h rsp rsp.vcpu).trans ?_
        rw [htoggles, decide_eq_true rfl]
        rfl
      rw [hafter, hbefore] at hstep
      simp at hstep
    · intro hnone pre hpre v
      rw [after_eq h, toggleCount_eq_zero fun rsp hrsp => hnone rsp (hpre.subset hrsp)]
      rfl

/-- Two responses for one vCPU and one for another, on HVM and PV domains. -/
def threeResponses : List (Response Bool) := [⟨.hvm, true, 16#32⟩, ⟨.pv, false, 16#32⟩, ⟨.hvm, true, 20#32⟩]

theorem singlestep_supported : TogglesAsSupported true ⟨some true⟩ (fun _ => false) threeResponses :=
  (singlestep_iff ⟨some true⟩ true (fun _ => false) threeResponses rfl).mpr (Or.inl rfl)

/-- The callback returns false, and the first response flips all the same. -/
theorem singlestep_counterexample : ¬ ∀ (hvmFuncs : HvmFunctionTable) (supported : Bool) (singleStep : Bool → Bool)
    (rsps : List (Response Bool)), hvmFuncs.isSinglestepSupported = some supported →
      TogglesAsSupported supported hvmFuncs singleStep rsps := by
  intro h
  have hfirst := h ⟨some false⟩ false (fun _ => false) threeResponses rfl [⟨.hvm, true, 16#32⟩] (by decide) true
  exact absurd hfirst (by decide)

end Xen.VmEvent
