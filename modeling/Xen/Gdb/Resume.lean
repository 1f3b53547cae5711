/-!
# Resuming from the debugger (`gdbstub_verified.c`, `gdstub.c`)

- The repository has `gdb_arch_resume` twice: `Vcc.gdbArchResume` and `Gdstub.gdbArchResume` are `resume` with the
  address that means "continue here", `1UL` in the one and `-1UL` in the other.
- `resume_eq_iff`: two such routines leave the same registers exactly if their addresses are the same, or `addr` is
  neither, or `rip` is at `addr` already. `gdbArchResume_iff` says it of the two in the repository.
-/

namespace Xen.Gdb

/-! ## Data model -/

/-- `struct cpu_user_regs`. -/
@[ext] structure CpuUserRegs where
  rip : BitVec 64
  eflags : BitVec 64
deriving DecidableEq, Repr

/-- `X86_EFLAGS_TF`, `X86_EFLAGS_RF` and `GDB_STEP`, an `unsigned int`. -/
structure Constants where
  tf : BitVec 64
  rf : BitVec 64
  gdbStep : BitVec 32

/-! ## The routine -/

/-- Go on from `addr` unless it is the address `here`. -/
def setRip (here : BitVec 64) (regs : CpuUserRegs) (addr : BitVec 64) : CpuUserRegs :=
  if addr ≠ here then { regs with rip := addr } else regs

/-- Clear the trap flag and set the resume flag, and set the trap flag again for a single step. -/
def setFlags (k : Constants) (regs : CpuUserRegs) (type : BitVec 64) : CpuUserRegs :=
  let regs := { regs with eflags := regs.eflags &&& ~~~k.tf }
  let regs := { regs with eflags := regs.eflags ||| k.rf }
  if type = k.gdbStep.setWidth 64 then { regs with eflags := regs.eflags ||| k.tf } else regs

/-- `gdb_arch_resume` with the address that means "continue here". -/
def resume (here : BitVec 64) (k : Constants) (regs : CpuUserRegs) (addr type : BitVec 64) : CpuUserRegs :=
  setFlags k (setRip here regs addr) type

/-- `gdb_arch_resume` of `gdbstub_verified.c`. -/
def Vcc.gdbArchResume (k : Constants) (regs : CpuUserRegs) (addr type : BitVec 64) : CpuUserRegs :=
  resume 1#64 k regs addr type

/-- `gdb_arch_resume` of `gdstub.c`. -/
def Gdstub.gdbArchResume (k : Constants) (regs : CpuUserRegs) (addr type : BitVec 64) : CpuUserRegs :=
  resume (-1#64) k regs addr type

/-! ## Agreement -/

section Agreement

variable (here here' : BitVec 64) (k : Constants) (regs : CpuUserRegs) (addr type : BitVec 64)

@[simp] theorem setFlags_rip : (setFlags k regs type).rip = regs.rip := by
  unfold setFlags
  dsimp only
  split <;> rfl

/-- The flags do not depend on where the CPU goes on. -/
theorem resume_eflags : (resume here k regs addr type).eflags = (setFlags k regs type).eflags := by
  unfold resume setRip
  split
  · unfold setFlags
    dsimp only
    split <;> rfl
  · rfl

theorem resume_rip : (resume here k regs addr type).rip = if addr ≠ here then addr else regs.rip := by
  rw [resume, setFlags_rip, setRip]
  split <;> rfl

/-- **Two routines.** They leave the same registers exactly if they have the same address, or `addr` is neither, or the
CPU is there already. -/
theorem resume_eq_iff : resume here k regs addr type = resume here' k regs addr type ↔
    here = here' ∨ (addr = here ∨ addr = here' → regs.rip = addr) := by
  have hrip : resume here k regs addr type = resume here' k regs addr type ↔
      (if addr ≠ here then addr else regs.rip) = if addr ≠ here' then addr else regs.rip := by
    rw [CpuUserRegs.ext_iff, resume_rip, resume_rip, resume_eflags, resume_eflags]
    exact and_iff_left rfl
  rw [hrip]
  by_cases h : addr = here
  · by_cases h' : addr = here'
    · exact iff_of_true (by rw [if_neg (not_not_intro h), if_neg (not_not_intro h')]) (Or.inl (h.symm.trans h'))
    · have hne : here ≠ here' := fun heq => h' (h.trans heq)
      rw [if_neg (not_not_intro h), if_pos h']
      simp only [h, hne, true_or, false_or, forall_const]
  · by_cases h' : addr = here'
    · have hne : here ≠ here' := fun heq => h (h'.trans heq.symm)
      rw [if_pos h, if_neg (not_not_intro h')]
      simp only [h', hne, or_true, false_or, forall_const]
      exact eq_comm
    · rw [if_pos h, if_pos h']
      exact iff_of_true rfl (Or.inr fun hor => absurd hor (not_or_intro h h'))

end Agreement

/-- **The two versions of `gdb_arch_resume`** leave the same `rip` and `eflags` exactly if `addr` is neither `1` nor
`-1`, or the CPU is at `addr` already. -/
theorem gdbArchResume_iff (k : Constants) (regs : CpuUserRegs) (addr type : BitVec 64) :
    Vcc.gdbArchResume k regs addr type = Gdstub.gdbArchResume k regs addr type ↔
      (addr = 1#64 ∨ addr = -1#64 → regs.rip = addr) := by
  have hne : (1#64 : BitVec 64) ≠ -1#64 := by decide
  rw [Vcc.gdbArchResume, Gdstub.gdbArchResume, resume_eq_iff]
  exact or_iff_right hne

/-- Told to continue here, the verified version jumps to `-1`. -/
theorem gdbArchResume_counterexample :
    ¬ ∀ (k : Constants) (regs : CpuUserRegs) (addr type : BitVec 64),
      Vcc.gdbArchResume k regs addr type = Gdstub.gdbArchResume k regs addr type := by
  intro h
  exact absurd (h ⟨0x100#64, 0x10000#64, 1#32⟩ ⟨0x1000#64, 0x202#64⟩ (-1#64) 0#64) (by decide)

end Xen.Gdb
