import Xen.Amd.Resume

/-!
# Does the AMD driver know which patch runs? (`microcode_amd_verified.c`)

- A run is a list of `PatchCall`s on one CPU: `microcode_fits`, `apply_microcode`, and the caching of a patch in
  between. `Tracked` also notes the level of the last patch that was applied.
- `LevelKnown`: the CPU's recorded revision is that level, so that `microcode_fits` rejects every patch that is not
  newer (`microcodeFits_newer`).
- `apply_microcode` never stores the level it has read back. `levelKnown_iff` says which runs keep `LevelKnown` all the
  same: those that only apply the level that is recorded already.
-/

namespace Xen.Amd

open Lib

/-! ## Runs -/

/-- The level of the patch that the structure at `p` holds. -/
def Mem.patchId (mem : Mem) (p : Nat) : Nat := leWord (mem.bytes (mem.mcAmd p).mpb) Fld.patchId 4

/-- A call on the CPU, with what its surroundings deliver; `cache` puts a patch in the place of the cached one. -/
inductive PatchCall where
  | microcodeFits (src currentCpuId : Nat)
  | applyMicrocode (rev : Nat) (hwErr : Bool)
  | cache (mem : Mem) (mcAmd : Nat)

/-- The CPU, and the level of the last patch for which `apply_microcode` returned 0. -/
structure Tracked where
  cpu : Cpu
  applied : Option Nat

/-- One call; neither function writes to the CPU's state. -/
def track (s : Tracked) : PatchCall → Tracked
  | .microcodeFits _ _ => s
  | .applyMicrocode rev hwErr =>
    if (applyMicrocode s.cpu rev hwErr).val = 0 then { s with applied := some (s.cpu.mem.patchId s.cpu.mcAmd) } else s
  | .cache mem mcAmd => { s with cpu := { s.cpu with mem := mem, mcAmd := mcAmd } }

/-- **The level is known.** The recorded revision is the level of the last patch applied, and no patch of that level or
of a smaller one fits. -/
def LevelKnown (x86 : Nat) (s : Tracked) : Prop := ∀ level, s.applied = some level → s.cpu.rev = level ∧
  ∀ (mem : Mem) (src currentCpuId : Nat), mem.patchId src ≤ level →
    (microcodeFits x86 { s.cpu with mem := mem } src currentCpuId).val ≠ some true

/-- A failing application leaves the recorded revision. -/
def FailureKeeps (s : Tracked) : PatchCall → Prop
  | .applyMicrocode rev hwErr => (applyMicrocode s.cpu rev hwErr).val ≠ 0 →
      (track s (.applyMicrocode rev hwErr)).cpu.rev = s.cpu.rev
  | _ => True

/-- An application that succeeds is one of the recorded level. -/
def AppliesRecorded (s : Tracked) : PatchCall → Prop
  | .applyMicrocode rev hwErr => s.cpu.mcAmd ≠ 0 → (s.cpu.mem.mcAmd s.cpu.mcAmd).mpb ≠ 0 → hwErr = false →
      rev = s.cpu.mem.patchId s.cpu.mcAmd → s.cpu.mem.patchId s.cpu.mcAmd = s.cpu.rev
  | _ => True

/-! ## The calls -/

/-- **Which applications succeed**: there is a patch, the write works, and the level read back is the patch's. -/
theorem applyMicrocode_zero_iff (s : Cpu) (rev : Nat) (hwErr : Bool) : (applyMicrocode s rev hwErr).val = 0 ↔
    s.mcAmd ≠ 0 ∧ (s.mem.mcAmd s.mcAmd).mpb ≠ 0 ∧ hwErr = false ∧ rev = s.mem.patchId s.mcAmd := by
  unfold Mem.patchId
  by_cases hmc : s.mcAmd = 0
  · simp [applyMicrocode, hmc]
  · by_cases hmpb : (s.mem.mcAmd s.mcAmd).mpb = 0
    · simp [applyMicrocode, hmc, hmpb]
    · cases hwErr with
      | true => simp [applyMicrocode, hmc, hmpb]
      | false => simp [applyMicrocode, hmc, hmpb]

/-- A patch that fits is newer than the recorded revision. -/
theorem microcodeFits_newer {x86 : Nat} {s : Cpu} {src currentCpuId : Nat}
    (h : (microcodeFits x86 s src currentCpuId).val = some true) : s.rev < s.mem.patchId src := by
  unfold Mem.patchId
  simp only [microcodeFits, Logged.val_bind] at h
  split at h
  · cases h
  · cases h
  · simp only [Logged.val_bind, Logged.val_ite, val_load, Logged.val_pure] at h
    split_ifs at h
    · cases h
    · cases h
    · simpa using h

/-- The recorded revision is enough for the level to be known. -/
theorem levelKnown_of_rev {x86 : Nat} {s : Tracked} (h : ∀ level, s.applied = some level → s.cpu.rev = level) :
    LevelKnown x86 s := by
  intro level hlevel
  refine ⟨h level hlevel, fun mem src currentCpuId hle hfits => ?_⟩
  have hnewer := microcodeFits_newer hfits
  have hrev := h level hlevel
  simp only at hnewer
  omega

/-- **One call** keeps the level known exactly if it applies no other level than the recorded one. -/
theorem track_known (x86 : Nat) (s : Tracked) (c : PatchCall) (h : LevelKnown x86 s) :
    LevelKnown x86 (track s c) ↔ AppliesRecorded s c := by
  cases c with
  | microcodeFits src currentCpuId => exact iff_of_true h trivial
  | cache mem mcAmd => exact iff_of_true (levelKnown_of_rev fun level hlevel => (h level hlevel).1) trivial
  | applyMicrocode rev hwErr =>
    have hzero := applyMicrocode_zero_iff s.cpu rev hwErr
    by_cases hret : (applyMicrocode s.cpu rev hwErr).val = 0
    · obtain ⟨hmc, hmpb, hhw, hrev⟩ := hzero.mp hret
      have htrack : track s (.applyMicrocode rev hwErr) =
          { s with applied := some (s.cpu.mem.patchId s.cpu.mcAmd) } := if_pos hret
      rw [htrack]
      constructor
      · intro hknown _ _ _ _
        exact (hknown _ rfl).1.symm
      · intro happlies
        apply levelKnown_of_rev
        intro level hlevel
        rw [Option.some.injEq] at hlevel
        rw [← hlevel]
        exact (happlies hmc hmpb hhw hrev).symm
    · have htrack : track s (.applyMicrocode rev hwErr) = s := if_neg hret
      rw [htrack]
      exact iff_of_true h fun hmc hmpb hhw hrev => absurd (hzero.mpr ⟨hmc, hmpb, hhw, hrev⟩) hret

theorem track_failure (s : Tracked) (c : PatchCall) : FailureKeeps s c := by
  cases c with
  | microcodeFits src currentCpuId => trivial
  | cache mem mcAmd => trivial
  | applyMicrocode rev hwErr =>
    intro hret
    rw [track, if_neg hret]

/-! ## The run -/

/-- **Which runs know the level.** From a CPU on which nothing was applied, the level is known throughout, and failing
applications leave the recorded revision, exactly if every application that succeeds is one of the recorded level. -/
theorem levelKnown_iff (x86 : Nat) (cpu : Cpu) (calls : List PatchCall) :
    Throughout (LevelKnown x86) track ⟨cpu, none⟩ calls ∧ Along FailureKeeps track ⟨cpu, none⟩ calls ↔
      Along AppliesRecorded track ⟨cpu, none⟩ calls := by
  have hstart : LevelKnown x86 ⟨cpu, none⟩ := fun _ hlevel => by cases hlevel
  rw [and_iff_left (along_of_forall track_failure _ calls)]
  exact throughout_iff_along (I := fun _ => True) (L := fun _ _ => True) (fun _ _ _ _ _ _ => trivial)
    (fun s c _ _ h => track_known x86 s c h) trivial hstart (along_of_forall (fun _ _ => trivial) _ calls)

/-- A CPU of revision 0 that caches a patch of level 1. -/
def levelOne : Cpu := ⟨⟨fun p => ⟨p + 1, 0, p + 2, 0⟩, fun p i => if p = 2 ∧ i = 4 then 1 else 0⟩, 0, 1⟩

/-- The patch is applied, and the recorded revision stays 0. -/
theorem levelKnown_counterexample :
    ¬ ∀ (x86 : Nat) (cpu : Cpu) (calls : List PatchCall),
      Throughout (LevelKnown x86) track ⟨cpu, none⟩ calls ∧ Along FailureKeeps track ⟨cpu, none⟩ calls := by
  intro h
  have hstart : LevelKnown 0 ⟨levelOne, none⟩ := fun _ hlevel => by cases hlevel
  have hknown := (h 0 levelOne [.applyMicrocode 1 false]).1.last
  have hrecorded := (track_known 0 ⟨levelOne, none⟩ (.applyMicrocode 1 false) hstart).mp hknown
  exact absurd (hrecorded (by decide) (by decide) rfl (by decide)) (by decide)

end Xen.Amd
