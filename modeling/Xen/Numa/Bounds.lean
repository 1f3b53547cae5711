import Xen.Lib.Runs
import Xen.Numa.Domains

/-!
# Accesses to the table of proximity domains (`srat_verified.c`)

The loops over `pxm2node` and the tests before a direct access are bounded by `sizeof(pxm2node)`, the bytes of the
table, where the slots are meant.

- `clearNodes` is the loop of `bad_srat` over the table; a run is a list of `Call`s of the functions that use the table.
- A scan stays in the table exactly if it finds what it looks for there (`scanSlots_inside`).
- `accesses_iff`: every access of a run lies in the table exactly if every call is one of `StaysInside`.

The slots from `MAX_NUMNODES` on are the memory behind the table.
-/

namespace Xen.Numa

open Lib

/-- `sizeof(pxm2node)`: a slot has two words of four bytes. -/
def sizeofPxm2node : Nat := 8 * maxNumnodes

/-- The loop of `bad_srat` over `n` slots from `i` on. -/
def clearNodes : (n i : Nat) → Tables → Logged Nat Tables
  | 0, _, s => pure s
  | n + 1, i, s => do
    Logged.emit i
    clearNodes n (i + 1)
      { s with pxm2node := Function.update s.pxm2node i { s.pxm2node i with node := numaNoNode } }

/-- A call of one of the functions that use the table. -/
inductive Call where
  | pxmToNode (pxm : Nat)
  | setupNode (pxm : Nat)
  | nodeToPxm (n : Int)
  | badSrat
deriving DecidableEq, Repr

/-- The globals after the call, with the index of every slot it accesses. -/
def Call.run (s : Tables) : Call → Logged Nat Tables
  | .pxmToNode pxm => do
    let _ ← Numa.pxmToNode sizeofPxm2node s pxm
    return s
  | .setupNode pxm => do
    let r ← Numa.setupNode sizeofPxm2node s pxm
    return r.2
  | .nodeToPxm n => do
    let _ ← Numa.nodeToPxm sizeofPxm2node s n
    return s
  | .badSrat => clearNodes sizeofPxm2node 0 s

/-- One call. -/
def stepCall (s : Tables) (c : Call) : Tables := (c.run s).val

/-- Every access of the call lies in the table. -/
def AccessesInside (s : Tables) (c : Call) : Prop := (c.run s).Only (· < maxNumnodes)

/-- The slot's number is free: it says `NUMA_NO_NODE`. -/
def Free (s : Tables) (i : Nat) : Prop := (s.pxm2node i).node = numaNoNode

/-- The calls that stay in the table: the number handed over is not one of a slot behind the table, and the table holds
what the call looks for: the domain, a free slot if the domain is not in its own slot, or the node. -/
def StaysInside (s : Tables) : Call → Prop
  | .pxmToNode pxm => (pxm < maxNumnodes ∨ sizeofPxm2node ≤ pxm) ∧ ∃ i < maxNumnodes, nodeFound s i pxm = true
  | .setupNode pxm => (pxm < maxNumnodes ∨ sizeofPxm2node ≤ pxm) ∧
      (pxm < maxNumnodes ∧ nodeFound s pxm pxm = true ∨ ∃ i < maxNumnodes, Free s i)
  | .nodeToPxm n => (n < maxNumnodes ∨ sizeofPxm2node ≤ n) ∧ ∃ i < maxNumnodes, (s.pxm2node i).node = n
  | .badSrat => False

/-! ## Scans -/

section Scans

variable {test : Nat → Bool} {m : Nat}

/-- The slot a scan finds is one it accessed. -/
theorem scanSlots_mem : ∀ {n i k : Nat}, (scanSlots test n i).val = some k → k ∈ (scanSlots test n i).log
  | 0, _, _, h => by cases h
  | n + 1, i, k, h => by
    by_cases ht : test i = true
    · simp only [scanSlots, ht, if_true, Logged.val_bind, Logged.val_pure, Option.some.injEq] at h
      simp [scanSlots, h]
    · simp only [scanSlots, ht, Logged.val_bind] at h
      simp [scanSlots, ht, scanSlots_mem h]

/-- **A scan that could leave the table** stays in it exactly if it finds a slot there. -/
theorem scanSlots_inside {n i : Nat} (h : i ≤ m) (h' : m < i + n) :
    (scanSlots test n i).Only (· < m) ↔ ∃ k, i ≤ k ∧ k < m ∧ test k = true := by
  induction n generalizing i with
  | zero => omega
  | succ n ih =>
    by_cases hi : i < m
    · by_cases ht : test i = true
      · exact iff_of_true (by simp [scanSlots, ht, hi]) ⟨i, Nat.le_refl i, hi, ht⟩
      · simp only [scanSlots, ht, Logged.only_bind, Logged.only_emit, hi, true_and]
        refine Iff.trans (ih hi (by omega)) ⟨?_, ?_⟩
        · rintro ⟨k, hk, hkm, htest⟩
          exact ⟨k, by omega, hkm, htest⟩
        · rintro ⟨k, hk, hkm, htest⟩
          rcases Nat.eq_or_lt_of_le hk with rfl | hk
          · exact absurd htest ht
          · exact ⟨k, hk, hkm, htest⟩
    · refine iff_of_false ?_ ?_
      · intro hall
        exact hi (hall i (by simp [scanSlots]))
      · rintro ⟨k, hk, hkm, -⟩
        omega

/-- The scans of the table start at its first slot and run over its bytes. -/
theorem scan_inside (test : Nat → Bool) : (scanSlots test sizeofPxm2node 0).Only (· < maxNumnodes) ↔
    ∃ k < maxNumnodes, test k = true := by
  rw [scanSlots_inside (by decide) (by decide)]
  simp only [Nat.zero_le, true_and]

end Scans

/-! ## The functions -/

section Functions

variable (s : Tables)

/-- A direct access, and a scan if that is no hit. -/
theorem lookup_inside {direct scan : Prop} {k : Nat} (hit : Prop) (hhit : direct → k < maxNumnodes → hit → scan) :
    ((direct → k < maxNumnodes ∧ (¬hit → scan)) ∧ (¬direct → scan)) ↔ (direct → k < maxNumnodes) ∧ scan := by
  constructor
  · rintro ⟨hdirect, hscan⟩
    refine ⟨fun hd => (hdirect hd).1, ?_⟩
    by_cases hd : direct
    · obtain ⟨hlt, hrest⟩ := hdirect hd
      by_cases hh : hit
      · exact hhit hd hlt hh
      · exact hrest hh
    · exact hscan hd
  · rintro ⟨hlt, hscan⟩
    exact ⟨fun hd => ⟨hlt hd, fun _ => hscan⟩, fun _ => hscan⟩

theorem pxmToNode_inside (pxm : Nat) : (pxmToNode sizeofPxm2node s pxm).Only (· < maxNumnodes) ↔
    (pxm < maxNumnodes ∨ sizeofPxm2node ≤ pxm) ∧ ∃ i < maxNumnodes, nodeFound s i pxm = true := by
  have hguard : (pxm < maxNumnodes ∨ sizeofPxm2node ≤ pxm) ↔ (pxm < sizeofPxm2node → pxm < maxNumnodes) := by omega
  have hscan := scan_inside fun i => nodeFound s i pxm
  rw [hguard, ← hscan, ← lookup_inside (nodeFound s pxm pxm = true) fun _ hlt hh => hscan.mpr ⟨pxm, hlt, hh⟩]
  simp only [pxmToNode, Logged.only_ite, Logged.only_bind, Logged.only_emit, Logged.only_pure, implies_true, true_and]
  cases (scanSlots (fun i => nodeFound s i pxm) sizeofPxm2node 0).val <;> simp only [Logged.only_pure, and_true]

theorem nodeToPxm_inside (n : Int) : (nodeToPxm sizeofPxm2node s n).Only (· < maxNumnodes) ↔
    (n < maxNumnodes ∨ sizeofPxm2node ≤ n) ∧ ∃ i < maxNumnodes, (s.pxm2node i).node = n := by
  have hguard : (n < maxNumnodes ∨ sizeofPxm2node ≤ n) ↔
      (0 ≤ n ∧ n < sizeofPxm2node → n.toNat < maxNumnodes) := by omega
  have hscan := scan_inside fun i => decide ((s.pxm2node i).node = n)
  simp only [decide_eq_true_eq] at hscan
  rw [hguard, ← hscan, ← lookup_inside ((s.pxm2node n.toNat).node = n)
    fun _ hlt hh => hscan.mpr ⟨n.toNat, hlt, hh⟩]
  simp only [nodeToPxm, Logged.only_ite, Logged.only_bind, Logged.only_emit, Logged.only_pure, implies_true, true_and]
  cases (scanSlots (fun i => decide ((s.pxm2node i).node = n)) sizeofPxm2node 0).val <;>
    simp only [Logged.only_pure, and_true]

theorem finish_inside {idx : Nat} (pxm : Nat) (h : idx < maxNumnodes) :
    (finish s idx pxm).Only (· < maxNumnodes) := by
  simp [finish, h]

/-- The search for a free slot stays in the table exactly if there is one. -/
theorem setupFree_inside (pxm : Nat) : (setupFree sizeofPxm2node s pxm).Only (· < maxNumnodes) ↔
    ∃ i < maxNumnodes, Free s i := by
  have hscan := scan_inside fun i => decide ((s.pxm2node i).node = numaNoNode)
  simp only [decide_eq_true_eq] at hscan
  refine Iff.trans ?_ hscan
  simp only [setupFree, Logged.only_bind]
  apply and_iff_left_of_imp
  intro hall
  cases hval : (scanSlots (fun i => decide ((s.pxm2node i).node = numaNoNode)) sizeofPxm2node 0).val with
  | none => simp
  | some idx => exact finish_inside s pxm (hall idx (scanSlots_mem hval))

theorem setupNode_inside (pxm : Nat) : (setupNode sizeofPxm2node s pxm).Only (· < maxNumnodes) ↔
    (pxm < maxNumnodes ∨ sizeofPxm2node ≤ pxm) ∧
      (pxm < maxNumnodes ∧ nodeFound s pxm pxm = true ∨ ∃ i < maxNumnodes, Free s i) := by
  have hfree : (s.pxm2node pxm).node = numaNoNode ↔ Free s pxm := Iff.rfl
  simp only [setupNode, Logged.only_ite, Logged.only_bind, Logged.only_emit, Logged.only_pure, implies_true, true_and,
    setupFree_inside, hfree]
  constructor
  · rintro ⟨hdirect, hscan⟩
    by_cases hd : pxm < sizeofPxm2node
    · obtain ⟨hlt, hrest⟩ := hdirect hd
      refine ⟨Or.inl hlt, ?_⟩
      by_cases hh : nodeFound s pxm pxm = true
      · exact Or.inl ⟨hlt, hh⟩
      · by_cases hf : Free s pxm
        · exact Or.inr ⟨pxm, hlt, hf⟩
        · exact Or.inr ((hrest hh).2 hf)
    · exact ⟨Or.inr (Nat.le_of_not_lt hd), Or.inr (hscan hd)⟩
  · rintro ⟨hguard, hslot⟩
    refine ⟨fun hd => ?_, fun hd => ?_⟩
    · have hlt : pxm < maxNumnodes := hguard.resolve_right (Nat.not_le.mpr hd)
      refine ⟨hlt, fun hh => ⟨fun _ => finish_inside s pxm hlt, fun _ => ?_⟩⟩
      exact hslot.resolve_left fun h => hh h.2
    · refine hslot.resolve_left fun h => hd (Nat.lt_of_lt_of_le h.1 ?_)
      decide

theorem clearNodes_log : ∀ (n i : Nat) (s : Tables), (clearNodes n i s).log = List.range' i n
  | 0, _, _ => rfl
  | n + 1, i, s => by
    rw [List.range'_succ, ← clearNodes_log n (i + 1)]
    rfl

/-- `bad_srat` clears all bytes of the table as if they were slots. -/
theorem badSrat_outside : ¬(clearNodes sizeofPxm2node 0 s).Only (· < maxNumnodes) := fun h => by
  have hmem : maxNumnodes ∈ (clearNodes sizeofPxm2node 0 s).log := by
    rw [clearNodes_log, List.mem_range'_1]
    exact ⟨Nat.zero_le _, by decide⟩
  exact Nat.lt_irrefl _ (h maxNumnodes hmem)

end Functions

/-- **One call** stays in the table exactly if it is one of `StaysInside`. -/
theorem call_inside (s : Tables) (c : Call) : AccessesInside s c ↔ StaysInside s c := by
  cases c with
  | pxmToNode pxm => exact (Logged.only_bind_of_only fun _ => Logged.only_pure _).trans (pxmToNode_inside s pxm)
  | setupNode pxm => exact (Logged.only_bind_of_only fun _ => Logged.only_pure _).trans (setupNode_inside s pxm)
  | nodeToPxm n => exact (Logged.only_bind_of_only fun _ => Logged.only_pure _).trans (nodeToPxm_inside s n)
  | badSrat => exact iff_of_false (badSrat_outside s) id

/-- **The accesses of a run** from any table all lie in it exactly if every call of the run stays inside. -/
theorem accesses_iff (s : Tables) (calls : List Call) :
    Along AccessesInside stepCall s calls ↔ Along StaysInside stepCall s calls :=
  along_congr call_inside

/-- Looking up a domain nobody has registered runs over the end of the table. -/
theorem accesses_counterexample : ¬ ∀ calls : List Call, Along AccessesInside stepCall init calls := by
  intro h
  have hcall := (call_inside init (.pxmToNode 0)).mp (h [.pxmToNode 0]).1
  obtain ⟨-, i, -, hi⟩ := hcall
  simp [nodeFound, init] at hi

end Xen.Numa
