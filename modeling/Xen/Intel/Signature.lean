import Xen.Lib.Memory

/-!
# The signature of an Intel CPU (`intel_verified.c`)

- `collectCpuInfo`: `collect_cpu_info`, on the bytes of `*csig`.
- The loop that is to clear them does not advance its pointer, so that it clears the first one only (`clearLoop_succ`).
- `Independent` compares two calls for the same CPU on different old contents. `collectCpuInfo_iff` says when what they
  leave is the same, and clear for a CPU that is refused.

`msr_content` is never read from the CPU, as `rdmsrl` is commented out: it is a parameter. `struct cpu_signature` is
defined behind the function.
-/

namespace Xen.Intel

open Lib

/-! ## `struct cpu_signature` -/

namespace CpuSignature

abbrev sig : Nat := 0
abbrev pf : Nat := 4
abbrev rev : Nat := 8

/-- `sizeof(*csig)`. -/
abbrev size : Nat := 12

end CpuSignature

/-! ## `collect_cpu_info` -/

/-- The fields of `struct cpuinfo_x86` that the function reads. -/
structure CpuinfoX86 where
  x86 : UInt8
  x86Vendor : UInt8
  x86Model : UInt8
deriving DecidableEq, Repr

/-- Not an Intel CPU, or an old one. -/
def CpuinfoX86.Refused (c : CpuinfoX86) : Prop := c.x86Vendor ≠ 1 ∨ c.x86 < 6

/-- The CPU has platform flags. -/
def CpuinfoX86.HasPf (c : CpuinfoX86) : Prop := c.x86Model ≥ 5 ∨ c.x86 > 6

instance (c : CpuinfoX86) : Decidable c.Refused := inferInstanceAs (Decidable (_ ∨ _))

instance (c : CpuinfoX86) : Decidable c.HasPf := inferInstanceAs (Decidable (_ ∨ _))

/-- `for(;ptrid < sizeof(*csig); ptrid++) *ptrsd=0;` over the `n` values that `ptrid` still takes. -/
def clearLoop (ptrsd : Nat) : (n : Nat) → (csig : Bytes) → Bytes
  | 0, csig => csig
  | n + 1, csig => clearLoop ptrsd n (Function.update csig ptrsd 0)

/-- `collect_cpu_info`: what it returns, and `*csig` afterwards. -/
def collectCpuInfo (c : CpuinfoX86) (msrContent : Nat) (csig : Bytes) : Int × Bytes :=
  let csig := clearLoop 0 CpuSignature.size csig
  if c.Refused then
    (-1, csig)
  else
    let csig := storeWord csig CpuSignature.sig 4 0
    let csig := if c.HasPf then storeWord csig CpuSignature.pf 4 (1 <<< (msrContent >>> 50 &&& 7)) else csig
    (0, storeWord csig CpuSignature.rev 4 (msrContent >>> 32))

/-! ## What it leaves -/

section Contents

variable {c : CpuinfoX86} (msrContent : Nat)

/-- The loop clears the byte that it starts at. -/
theorem clearLoop_succ (ptrsd n : Nat) (csig : Bytes) :
    clearLoop ptrsd (n + 1) csig = Function.update csig ptrsd 0 := by
  induction n generalizing csig with
  | zero => rfl
  | succ n ih =>
    rw [clearLoop, ih, Function.update_idem]

/-- For a CPU that is refused. -/
theorem collectCpuInfo_refused (h : c.Refused) (csig : Bytes) :
    collectCpuInfo c msrContent csig = (-1, Function.update csig 0 0) := by
  unfold collectCpuInfo
  rw [if_pos h, clearLoop_succ]

/-- For the others: the signature and the revision are written, and the platform flags if there are any. -/
theorem collectCpuInfo_bytes (h : ¬c.Refused) (csig : Bytes) : (collectCpuInfo c msrContent csig).1 = 0 ∧
    ∀ i < CpuSignature.size, (collectCpuInfo c msrContent csig).2 i =
      if i < 4 then 0
      else if i < 8 then
        if c.HasPf then UInt8.ofNat ((1 <<< (msrContent >>> 50 &&& 7)) / 256 ^ (i - 4)) else csig i
      else UInt8.ofNat ((msrContent >>> 32) / 256 ^ (i - 8)) := by
  unfold collectCpuInfo
  rw [if_neg h, clearLoop_succ]
  refine ⟨rfl, fun i hi => ?_⟩
  simp only
  by_cases h8 : i < 8
  · rw [storeWord_outside _ _ (Or.inl h8), if_pos h8]
    by_cases h4 : i < 4
    · -- the signature is 0
      have hsig : storeWord (Function.update csig 0 0) CpuSignature.sig 4 0 i = 0 := by
        rw [storeWord_inside _ _ ⟨Nat.zero_le i, by omega⟩, Nat.zero_div]
        rfl
      rw [if_pos h4]
      split
      · exact (storeWord_outside _ _ (Or.inl h4)).trans hsig
      · exact hsig
    · rw [if_neg h4]
      by_cases hpf : c.HasPf
      · rw [if_pos hpf, if_pos hpf]
        exact storeWord_inside _ _ ⟨Nat.le_of_not_lt h4, h8⟩
      · rw [if_neg hpf, if_neg hpf, storeWord_outside _ _ (Or.inr (Nat.le_of_not_lt h4))]
        exact Function.update_of_ne (by omega) ..
  · have h4 : ¬i < 4 := by omega
    rw [if_neg h4, if_neg h8]
    exact storeWord_inside _ _ ⟨Nat.le_of_not_lt h8, hi⟩

end Contents

/-- **The old content does not show.** Two calls for the same CPU return the same and leave the same, all bytes clear if
it is refused. -/
structure Independent (c : CpuinfoX86) (msrContent : Nat) (csig csig' : Bytes) : Prop where
  ret : (collectCpuInfo c msrContent csig).1 = (collectCpuInfo c msrContent csig').1
  bytes : ∀ i < CpuSignature.size,
    (collectCpuInfo c msrContent csig).2 i = (collectCpuInfo c msrContent csig').2 i
  clear : (collectCpuInfo c msrContent csig).1 = -1 → ∀ i < CpuSignature.size,
    (collectCpuInfo c msrContent csig).2 i = 0 ∧ (collectCpuInfo c msrContent csig').2 i = 0

/-- What the loop misses is clear before if the CPU is refused, and the platform flags are the same if they are not
written. -/
def ClearBefore (c : CpuinfoX86) (csig csig' : Bytes) : Prop :=
  (c.Refused → ∀ i, 0 < i → i < CpuSignature.size → csig i = 0 ∧ csig' i = 0) ∧
    (¬c.Refused → ¬c.HasPf → ∀ i, CpuSignature.pf ≤ i → i < CpuSignature.rev → csig i = csig' i)

section Contents

variable {c : CpuinfoX86} (msrContent : Nat) {csig csig' : Bytes}

/-- For a CPU that is refused, the loop was to clear what it misses. -/
theorem independent_refused (h : c.Refused) : Independent c msrContent csig csig' ↔
    ∀ i, 0 < i → i < CpuSignature.size → csig i = 0 ∧ csig' i = 0 := by
  have hcall := collectCpuInfo_refused msrContent h
  constructor
  · intro hok i h0 hi
    have hclear := hok.clear (by rw [hcall]) i hi
    rw [hcall, hcall] at hclear
    simpa only [Function.update_of_ne (Nat.ne_of_gt h0)] using hclear
  · intro hbefore
    have hclear : ∀ i < CpuSignature.size, Function.update csig 0 0 i = 0 ∧ Function.update csig' 0 0 i = 0 := by
      intro i hi
      by_cases h0 : i = 0
      · subst h0
        exact ⟨Function.update_self .., Function.update_self ..⟩
      · rw [Function.update_of_ne h0, Function.update_of_ne h0]
        exact hbefore i (Nat.pos_of_ne_zero h0) hi
    constructor
    · rw [hcall, hcall]
    · intro i hi
      rw [hcall, hcall]
      exact (hclear i hi).1.trans (hclear i hi).2.symm
    · intro _ i hi
      rw [hcall, hcall]
      exact hclear i hi

/-- For the others, what is not written are the platform flags of a CPU without any. -/
theorem independent_served (h : ¬c.Refused) : Independent c msrContent csig csig' ↔
    (¬c.HasPf → ∀ i, CpuSignature.pf ≤ i → i < CpuSignature.rev → csig i = csig' i) := by
  obtain ⟨hret, hbytes⟩ := collectCpuInfo_bytes msrContent h csig
  obtain ⟨hret', hbytes'⟩ := collectCpuInfo_bytes msrContent h csig'
  constructor
  · intro hok hpf i h4 h8
    have hi : i < CpuSignature.size := Nat.lt_trans h8 (by decide)
    have hsame := hok.bytes i hi
    rw [hbytes i hi, hbytes' i hi, if_neg (Nat.not_lt.mpr h4), if_neg (Nat.not_lt.mpr h4), if_pos h8, if_pos h8,
      if_neg hpf, if_neg hpf] at hsame
    exact hsame
  · intro hbefore
    refine ⟨hret.trans hret'.symm, fun i hi => ?_, fun hrefused => absurd (hret.symm.trans hrefused) (by decide)⟩
    rw [hbytes i hi, hbytes' i hi]
    refine ite_congr rfl (fun _ => rfl) fun h4 => ite_congr rfl (fun h8 => ?_) fun _ => rfl
    exact ite_congr rfl (fun _ => rfl) fun hpf => hbefore hpf i (Nat.le_of_not_lt h4) h8

end Contents

/-- **The old content** does not show exactly if there is none where the loop was to clear it. -/
theorem collectCpuInfo_iff (c : CpuinfoX86) (msrContent : Nat) (csig csig' : Bytes) :
    Independent c msrContent csig csig' ↔ ClearBefore c csig csig' := by
  by_cases hrefused : c.Refused
  · rw [independent_refused msrContent hrefused]
    exact ⟨fun hbefore => ⟨fun _ => hbefore, fun h => absurd hrefused h⟩, fun hbefore => hbefore.1 hrefused⟩
  · rw [independent_served msrContent hrefused]
    exact ⟨fun hbefore => ⟨fun h => absurd h hrefused, fun _ => hbefore⟩, fun hbefore => hbefore.2 hrefused⟩

/-- A CPU of another vendor: the second byte stays. -/
theorem collectCpuInfo_counterexample : ¬ ∀ (c : CpuinfoX86) (msrContent : Nat) (csig csig' : Bytes),
    Independent c msrContent csig csig' := by
  intro h
  have hbytes := (h ⟨6, 2, 5⟩ 0 (fun _ => 0) fun _ => 1).bytes 1 (by decide)
  exact absurd hbytes (by decide)

end Xen.Intel
