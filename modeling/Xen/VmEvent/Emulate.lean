import Xen.Lib.Runs

/-!
# Emulation data and its flags (`vm_event_verified.c`)

- `vmEventEmulateCheck` stores the flags of a response and the emulation data that comes with it. The data is one
  union: `emul` says as which member it was written last, and by which response.
- `Matches`: the flags that announce data are those of the response that wrote it, as that member.
- The flags are stored whole, so a response can announce data that it does not store (`AnnouncesOther`).
  `emulateCheck_iff`: flags and data match throughout a run exactly if no response does.
-/

namespace Xen.VmEvent

open Lib

/-! ## Data model -/

def VM_EVENT_REASON_MEM_ACCESS : BitVec 32 := 1#32
def VM_EVENT_REASON_SOFTWARE_BREAKPOINT : BitVec 32 := 6#32
def VM_EVENT_REASON_DESCRIPTOR_ACCESS : BitVec 32 := 13#32

def VM_EVENT_FLAG_EMULATE : BitVec 32 := 1#32 <<< 2
def VM_EVENT_FLAG_SET_EMUL_READ_DATA : BitVec 32 := 1#32 <<< 5
def VM_EVENT_FLAG_SET_EMUL_INSN_DATA : BitVec 32 := 1#32 <<< 9

/-- `flags & flag`. -/
def hasFlag (flags flag : BitVec 32) : Bool := flags &&& flag != 0

/-- The members of the union `emul`. -/
inductive EmulKind where
  | read | insn
deriving DecidableEq, Repr

/-- `do_write` of `struct monitor_write_data`. -/
structure DoWrite where
  msr : BitVec 32
  cr0 : BitVec 32
  cr3 : BitVec 32
  cr4 : BitVec 32
deriving DecidableEq, Repr

/-- `struct arch_vm_event`. The emulation data is known by the member it was written as and the number of the response
that wrote it; `flagsOf` is the number of the response whose flags are stored, a ghost. -/
structure ArchVmEvent where
  emulateFlags : BitVec 32
  flagsOf : Option Nat
  emul : Option (EmulKind × Nat)
  setGprs : Bool
  syncEvent : Bool
  doWrite : DoWrite
deriving DecidableEq, Repr

/-- `vm_event_response_t`. -/
structure VmEventResponse where
  flags : BitVec 32
  reason : BitVec 32
deriving DecidableEq, Repr

/-! ## The function -/

/-- `p2m_mem_access_emulate_check`, which is not supported. -/
def p2mMemAccessEmulateCheck (_ : VmEventResponse) : Bool := false

/-- `emul.read = rsp->data.emul.read` if the response `n` has the flag for it. -/
def setEmulRead (n : Nat) (rsp : VmEventResponse) (r : ArchVmEvent) : ArchVmEvent :=
  if hasFlag rsp.flags VM_EVENT_FLAG_SET_EMUL_READ_DATA then { r with emul := some (.read, n) } else r

/-- `emulate_flags = rsp->flags`. -/
def setFlags (n : Nat) (rsp : VmEventResponse) (r : ArchVmEvent) : ArchVmEvent :=
  { r with emulateFlags := rsp.flags, flagsOf := some n }

/-- `vm_event_emulate_check` of the response number `n`. -/
def vmEventEmulateCheck (n : Nat) (rsp : VmEventResponse) (r : ArchVmEvent) : ArchVmEvent :=
  if !hasFlag rsp.flags VM_EVENT_FLAG_EMULATE then
    { r with emulateFlags := 0#32, flagsOf := none }
  else if rsp.reason = VM_EVENT_REASON_MEM_ACCESS then
    if p2mMemAccessEmulateCheck rsp then setFlags n rsp (setEmulRead n rsp r) else r
  else if rsp.reason = VM_EVENT_REASON_SOFTWARE_BREAKPOINT then
    if hasFlag rsp.flags VM_EVENT_FLAG_SET_EMUL_INSN_DATA then setFlags n rsp { r with emul := some (.insn, n) } else r
  else if rsp.reason = VM_EVENT_REASON_DESCRIPTOR_ACCESS then
    setFlags n rsp (setEmulRead n rsp r)
  else
    r

/-- **Flags and data match.** Data that the flags announce was written last, as that member, by the response whose
flags are stored. -/
structure Matches (r : ArchVmEvent) : Prop where
  read : hasFlag r.emulateFlags VM_EVENT_FLAG_SET_EMUL_READ_DATA = true →
    ∃ n, r.flagsOf = some n ∧ r.emul = some (.read, n)
  insn : hasFlag r.emulateFlags VM_EVENT_FLAG_SET_EMUL_INSN_DATA = true →
    ∃ n, r.flagsOf = some n ∧ r.emul = some (.insn, n)

/-- The response announces data of a kind that is not stored for its reason. -/
def AnnouncesOther (rsp : VmEventResponse) : Prop :=
  hasFlag rsp.flags VM_EVENT_FLAG_EMULATE = true ∧ hasFlag rsp.flags VM_EVENT_FLAG_SET_EMUL_INSN_DATA = true ∧
    (rsp.reason = VM_EVENT_REASON_DESCRIPTOR_ACCESS ∨ rsp.reason = VM_EVENT_REASON_SOFTWARE_BREAKPOINT ∧
      hasFlag rsp.flags VM_EVENT_FLAG_SET_EMUL_READ_DATA = true)

instance (rsp : VmEventResponse) : Decidable (AnnouncesOther rsp) := inferInstanceAs (Decidable (_ ∧ _ ∧ _))

/-! ## Runs -/

/-- The record, and how many responses have been given. -/
structure EmulState where
  record : ArchVmEvent
  count : Nat
deriving DecidableEq, Repr

/-- One response. -/
def emulStep (s : EmulState) (rsp : VmEventResponse) : EmulState :=
  ⟨vmEventEmulateCheck s.count rsp s.record, s.count + 1⟩

/-- A record with `emulate_flags` 0, which no response has touched yet. -/
def emulStart (r : ArchVmEvent) : EmulState :=
  ⟨{ r with emulateFlags := 0#32, flagsOf := none, emul := none }, 0⟩

/-- The data is from an earlier response. -/
def Earlier (s : EmulState) : Prop := ∀ kind n, s.record.emul = some (kind, n) → n < s.count

section Step

variable {n : Nat} {rsp : VmEventResponse} {r : ArchVmEvent}

/-- **One response** clears the flags, changes nothing, stores instruction data with its flags, or stores its flags
and the data to read that it may have. -/
theorem vmEventEmulateCheck_cases (n : Nat) (rsp : VmEventResponse) (r : ArchVmEvent) :
    (¬AnnouncesOther rsp ∧ vmEventEmulateCheck n rsp r = { r with emulateFlags := 0#32, flagsOf := none }) ∨
    (¬AnnouncesOther rsp ∧ vmEventEmulateCheck n rsp r = r) ∨
    (hasFlag rsp.flags VM_EVENT_FLAG_SET_EMUL_INSN_DATA = true ∧
      (AnnouncesOther rsp ↔ hasFlag rsp.flags VM_EVENT_FLAG_SET_EMUL_READ_DATA = true) ∧
      vmEventEmulateCheck n rsp r = setFlags n rsp { r with emul := some (.insn, n) }) ∨
    ((AnnouncesOther rsp ↔ hasFlag rsp.flags VM_EVENT_FLAG_SET_EMUL_INSN_DATA = true) ∧
      vmEventEmulateCheck n rsp r = setFlags n rsp (setEmulRead n rsp r)) := by
  by_cases he : hasFlag rsp.flags VM_EVENT_FLAG_EMULATE = true
  · by_cases hm : rsp.reason = VM_EVENT_REASON_MEM_ACCESS
    · refine Or.inr (Or.inl ⟨?_, by simp [vmEventEmulateCheck, he, hm, p2mMemAccessEmulateCheck]⟩)
      rintro ⟨-, -, hd | ⟨hs, -⟩⟩
      · exact absurd (hm.symm.trans hd) (by decide)
      · exact absurd (hm.symm.trans hs) (by decide)
    by_cases hs : rsp.reason = VM_EVENT_REASON_SOFTWARE_BREAKPOINT
    · have hne : VM_EVENT_REASON_SOFTWARE_BREAKPOINT ≠ VM_EVENT_REASON_DESCRIPTOR_ACCESS := by decide
      by_cases hi : hasFlag rsp.flags VM_EVENT_FLAG_SET_EMUL_INSN_DATA = true
      · refine Or.inr (Or.inr (Or.inl ⟨hi, ?_, ?_⟩))
        · simp only [AnnouncesOther, he, hi, hs, hne, true_and, false_or]
        · rw [vmEventEmulateCheck, he, if_neg hm, if_pos hs, if_pos hi]
          rfl
      · refine Or.inr (Or.inl ⟨fun h => hi h.2.1, ?_⟩)
        rw [vmEventEmulateCheck, he, if_neg hm, if_pos hs, if_neg hi]
        rfl
    by_cases hd : rsp.reason = VM_EVENT_REASON_DESCRIPTOR_ACCESS
    · refine Or.inr (Or.inr (Or.inr ⟨?_, ?_⟩))
      · simp only [AnnouncesOther, he, hd, true_and, true_or, and_true]
      · rw [vmEventEmulateCheck, he, if_neg hm, if_neg hs, if_pos hd]
        rfl
    · refine Or.inr (Or.inl ⟨?_, ?_⟩)
      · rintro ⟨-, -, hd' | ⟨hs', -⟩⟩
        · exact hd hd'
        · exact hs hs'
      · rw [vmEventEmulateCheck, he, if_neg hm, if_neg hs, if_neg hd]
        rfl
  · exact Or.inl ⟨fun h => he h.1, by simp [vmEventEmulateCheck, he]⟩

/-- With the flags of one response, flags and data match if it has written all data that it announces. -/
theorem matches_setFlags : Matches (setFlags n rsp r) ↔
    (hasFlag rsp.flags VM_EVENT_FLAG_SET_EMUL_READ_DATA = true → r.emul = some (.read, n)) ∧
      (hasFlag rsp.flags VM_EVENT_FLAG_SET_EMUL_INSN_DATA = true → r.emul = some (.insn, n)) := by
  constructor
  · intro h
    constructor
    · intro hr
      obtain ⟨m, hm, he⟩ := h.read hr
      cases hm
      exact he
    · intro hi
      obtain ⟨m, hm, he⟩ := h.insn hi
      cases hm
      exact he
  · rintro ⟨hr, hi⟩
    exact ⟨fun h => ⟨n, rfl, hr h⟩, fun h => ⟨n, rfl, hi h⟩⟩

/-- Without flags nothing is announced. -/
theorem matches_cleared (r : ArchVmEvent) : Matches { r with emulateFlags := 0#32, flagsOf := none } := by
  constructor
  · intro (h : hasFlag 0#32 _ = true)
    exact absurd h (by decide)
  · intro (h : hasFlag 0#32 _ = true)
    exact absurd h (by decide)

/-- **A response** after which flags and data match is one that announces no other data. -/
theorem matches_emulateCheck (hr : Matches r) (hn : ∀ kind m, r.emul = some (kind, m) → m < n) :
    Matches (vmEventEmulateCheck n rsp r) ↔ ¬AnnouncesOther rsp := by
  rcases vmEventEmulateCheck_cases n rsp r with ⟨ha, h⟩ | ⟨ha, h⟩ | ⟨hi, ha, h⟩ | ⟨ha, h⟩
  · rw [h]
    exact iff_of_true (matches_cleared r) ha
  · rw [h]
    exact iff_of_true hr ha
  · rw [h, matches_setFlags, ha]
    constructor
    · rintro ⟨hread, -⟩ hrd
      exact absurd (hread hrd) (by simp)
    · intro hrd
      exact ⟨fun h => absurd h hrd, fun _ => rfl⟩
  · rw [h, matches_setFlags, ha]
    by_cases hrd : hasFlag rsp.flags VM_EVENT_FLAG_SET_EMUL_READ_DATA = true
    · simp [setEmulRead, hrd]
    · rw [setEmulRead, if_neg hrd]
      constructor
      · rintro ⟨-, hinsn⟩ hi
        exact absurd (hn _ _ (hinsn hi)) (Nat.lt_irrefl n)
      · intro hi
        exact ⟨fun h => absurd h hrd, fun h => absurd h hi⟩

end Step

/-- A response writes its own data. -/
theorem earlier_emulStep (s : EmulState) (rsp : VmEventResponse) (h : Earlier s) : Earlier (emulStep s rsp) := by
  intro kind m hm
  show m < s.count + 1
  have hold : s.record.emul = some (kind, m) → m < s.count + 1 := fun hm => Nat.lt_succ_of_lt (h kind m hm)
  have hnew : ∀ kind', some (kind', s.count) = some (kind, m) → m < s.count + 1 := by
    rintro kind' ⟨⟩
    exact Nat.lt_succ_self _
  rw [emulStep] at hm
  rcases vmEventEmulateCheck_cases s.count rsp s.record with ⟨-, h⟩ | ⟨-, h⟩ | ⟨-, -, h⟩ | ⟨-, h⟩
  · rw [h] at hm
    exact hold hm
  · rw [h] at hm
    exact hold hm
  · rw [h] at hm
    exact hnew _ hm
  · rw [h] at hm
    by_cases hrd : hasFlag rsp.flags VM_EVENT_FLAG_SET_EMUL_READ_DATA = true
    · rw [setEmulRead, if_pos hrd] at hm
      exact hnew _ hm
    · rw [setEmulRead, if_neg hrd] at hm
      exact hold hm

/-- **Emulation data and its flags** match throughout a run from a record without flags exactly if no response
announces data that it does not store. -/
theorem emulateCheck_iff (r : ArchVmEvent) (responses : List VmEventResponse) :
    Throughout (fun s => Matches s.record) emulStep (emulStart r) responses ↔
      ∀ rsp ∈ responses, ¬AnnouncesOther rsp := by
  have hstart : Earlier (emulStart r) := fun kind m hm => by cases hm
  rw [← along_iff_forall_mem emulStep (fun rsp => ¬AnnouncesOther rsp) (emulStart r)]
  have hmatches : Matches (emulStart r).record := matches_cleared { r with emul := none }
  refine throughout_iff_along (I := Earlier) (L := fun _ _ => True) ?_ ?_ hstart hmatches
    (along_of_forall (fun _ _ => trivial) _ _)
  · intro s rsp hs _ _ _
    exact earlier_emulStep s rsp hs
  · intro s rsp hs _ hm
    exact matches_emulateCheck hm hs

/-- A descriptor access whose response announces an instruction, and brings none. -/
theorem emulateCheck_counterexample :
    ¬ ∀ (r : ArchVmEvent) (responses : List VmEventResponse),
      Throughout (fun s => Matches s.record) emulStep (emulStart r) responses := by
  intro h
  have hm := (h ⟨0#32, none, none, false, false, ⟨0#32, 0#32, 0#32, 0#32⟩⟩ [⟨0x204#32, 13#32⟩]).last
  obtain ⟨n, -, he⟩ := hm.insn (by decide)
  cases he

end Xen.VmEvent
