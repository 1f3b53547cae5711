import Xen.Numa.Affinity

/-!
# Registering the nodes (`srat_verified.c`)

- `acpiScanNodes`: `acpi_scan_nodes`, with the calls it makes logged. `cutoffNode` clips a node to the window
  (`cutoffNode_ok`), `cutoffNodes` the whole table.
- `bootmemRanges i` are the ranges with which `setup_node_bootmem` is called for node `i`. The call is the body of the
  test for an empty node, since the message that stood there is commented out (`registerNodes_ranges`).
- `registers_iff`: all nodes are registered exactly if the scan fails or every clipped node is empty.

The locals that are used uninitialised, and `node_isset`, which the file does not define, are parameters.
-/

namespace Xen.Numa

open Lib

/-! ## Data model -/

/-- What `acpi_scan_nodes` reads besides the globals in `Srat`; from `nodesParsed` on these are locals, the first one
the `memory_nodes_parsed` of `nodes_cover_memory`. -/
structure ScanEnv where
  e820 : E820Map
  processorNodesParsed : Nat
  nodeIsset : Int → Nat → Bool
  nodesParsed : Nat
  memnodeShift : Nat
  allNodesParsed : Int
  nrCpuIds : Int
  cpuToNode : Nat → Int

/-- A call of a function outside the file. -/
inductive ScanCall where
  | setupNodeBootmem (i : Nat) (start stop : Nat)
  | numaSetNode (cpu : Nat) (node : Int)
  | numaInitArray
deriving DecidableEq, Repr

/-! ## The functions -/

/-- `cutoff_node`, for the node `nd`. -/
def cutoffNode (nd : Node) (start stop : Nat) : Node :=
  let nd :=
    if nd.start < start then
      let nd := { nd with start := start }
      if nd.stop < nd.start then { nd with start := nd.stop } else nd
    else nd
  if nd.stop > stop then
    let nd := { nd with stop := stop }
    if nd.start > nd.stop then { nd with start := nd.stop } else nd
  else nd

/-- The loop of `acpi_scan_nodes` that clips `n` nodes from `i` on. -/
def cutoffNodes (start stop : Nat) : (n i : Nat) → (nodes : Nat → Node) → Nat → Node
  | 0, _, nodes => nodes
  | n + 1, i, nodes =>
    cutoffNodes start stop n (i + 1) (Function.update nodes i (cutoffNode (nodes i) start stop))

/-- `nodes[i].end - nodes[i].start`. -/
def Node.size (nd : Node) : Nat := toUnsigned ((nd.stop : Int) - nd.start)

/-- The loop over `n` nodes from `i` on that registers them. -/
def registerNodes (nodes : Nat → Node) : (n i : Nat) → Logged ScanCall Unit
  | 0, _ => pure ()
  | n + 1, i => do
    if (nodes i).size = 0 then
      Logged.emit (.setupNodeBootmem i (nodes i).start (nodes i).stop)
    registerNodes nodes n (i + 1)

/-- The loop over `n` CPUs from `i` on that takes them off nodes without one. -/
def clearCpus (env : ScanEnv) : (n i : Nat) → Logged ScanCall Unit
  | 0, _ => pure ()
  | n + 1, i => do
    if env.cpuToNode i ≠ numaNoNode ∧ !env.nodeIsset (env.cpuToNode i) env.processorNodesParsed then
      Logged.emit (.numaSetNode i numaNoNode)
    clearCpus env n (i + 1)

/-- `acpi_scan_nodes`: what it returns and the globals afterwards; `none` would be a coverage check that does not
end. -/
def acpiScanNodes (env : ScanEnv) (s : Srat) (start stop : Nat) : Logged ScanCall (Option Int × Srat) := do
  let s := { s with nodes := cutoffNodes start stop maxNumnodes 0 s.nodes }
  if s.acpiNuma ≤ 0 then
    return (some (-1), s)
  match (nodesCoverMemory env.e820 s.nodes env.nodesParsed).val with
  | none => return (none, s)
  | some false => return (some (-1), (badSrat s).val)
  | some true =>
    if env.memnodeShift < 0 then
      return (some (-1), (badSrat s).val)
    registerNodes s.nodes env.allNodesParsed.toNat 0
    clearCpus env env.nrCpuIds.toNat 0
    Logged.emit .numaInitArray
    return (some 0, s)

/-! ## Clipping -/

section Clipping

variable {start stop : Nat}

/-- **Clipping.** What is left of a node are its addresses in the window. -/
theorem cutoffNode_toSet (nd : Node) (start stop : Nat) :
    (cutoffNode nd start stop).span.toSet = nd.span.toSet ∩ (⟨start, stop⟩ : Span Nat).toSet := by
  ext x
  simp only [Set.mem_inter_iff, Span.mem_toSet, Node.span, cutoffNode, apply_ite Node.start, apply_ite Node.stop]
  split_ifs <;> omega

/-- The ends of a clipped node are words if those of the node are. -/
theorem cutoffNode_le (nd : Node) (start stop : Nat) :
    (cutoffNode nd start stop).start ≤ max nd.start nd.stop ∧ (cutoffNode nd start stop).stop ≤ nd.stop := by
  simp only [cutoffNode, apply_ite Node.start, apply_ite Node.stop]
  split_ifs <;> omega

/-- The ends stay in order. -/
theorem cutoffNode_ordered {nd : Node} (h : nd.start ≤ nd.stop) (hw : start ≤ stop) :
    (cutoffNode nd start stop).start ≤ (cutoffNode nd start stop).stop := by
  simp only [cutoffNode, apply_ite Node.start, apply_ite Node.stop]
  split_ifs <;> omega

/-- **Where a clipped node lies.** It is empty and outside, where the node was, or inside the window. -/
theorem cutoffNode_cases {nd : Node} (h : nd.start ≤ nd.stop) (hw : start ≤ stop) :
    nd.stop < start ∧ cutoffNode nd start stop = ⟨nd.stop, nd.stop⟩ ∨
    start ≤ (cutoffNode nd start stop).start ∧ (cutoffNode nd start stop).stop ≤ stop := by
  by_cases hbelow : nd.stop < start
  · have hstart : nd.start < start := by omega
    have hstop : ¬nd.stop > stop := by omega
    exact Or.inl ⟨hbelow, by simp [cutoffNode, hstart, hbelow, hstop]⟩
  · apply Or.inr
    simp only [cutoffNode, apply_ite Node.start, apply_ite Node.stop]
    split_ifs <;> omega

/-- A node inside the window is not clipped. -/
theorem cutoffNode_of_inside {nd : Node} (hstart : start ≤ nd.start) (hstop : nd.stop ≤ stop) :
    cutoffNode nd start stop = nd := by
  rw [cutoffNode, if_neg (Nat.not_lt.mpr hstart)]
  exact if_neg (Nat.not_lt.mpr hstop)

/-- **Clipping again** changes nothing. -/
theorem cutoffNode_again {nd : Node} (h : nd.start ≤ nd.stop) (hw : start ≤ stop) :
    cutoffNode (cutoffNode nd start stop) start stop = cutoffNode nd start stop := by
  rcases cutoffNode_cases h hw with ⟨hbelow, heq⟩ | ⟨hstart, hstop⟩
  · have hstop : ¬nd.stop > stop := by omega
    rw [heq]
    simp [cutoffNode, hbelow, hstop]
  · exact cutoffNode_of_inside hstart hstop

/-- **What clipping owes** for a window: the ends stay in order, exactly the addresses in the window are left, doing it
again changes nothing, and windows can be changed in their order. -/
structure CutoffOk (nd : Node) (start stop : Nat) : Prop where
  ordered : (cutoffNode nd start stop).start ≤ (cutoffNode nd start stop).stop
  inside : ∀ x, (cutoffNode nd start stop).start ≤ x ∧ x < (cutoffNode nd start stop).stop ↔
    (nd.start ≤ x ∧ x < nd.stop) ∧ start ≤ x ∧ x < stop
  again : cutoffNode (cutoffNode nd start stop) start stop = cutoffNode nd start stop
  order : ∀ start' stop', start' ≤ stop' →
    (cutoffNode (cutoffNode nd start stop) start' stop').span.toSet =
      (cutoffNode (cutoffNode nd start' stop') start stop).span.toSet

/-- **Clipping a node** to a window works for every position of the two. -/
theorem cutoffNode_ok (nd : Node) (start stop : Nat) (h : nd.start ≤ nd.stop) (hw : start ≤ stop) :
    CutoffOk nd start stop where
  ordered := cutoffNode_ordered h hw
  inside x := Set.ext_iff.mp (cutoffNode_toSet nd start stop) x
  again := cutoffNode_again h hw
  order start' stop' _ := by
    rw [cutoffNode_toSet, cutoffNode_toSet, cutoffNode_toSet, cutoffNode_toSet]
    exact Set.inter_right_comm _ _ _

/-- A node that begins before the window and ends behind it. -/
theorem cutoffNode_ok_both : CutoffOk ⟨0, 100⟩ 10 20 := cutoffNode_ok ⟨0, 100⟩ 10 20 (by decide) (by decide)

theorem cutoffNodes_eq (n i : Nat) (nodes : Nat → Node) (k : Nat) : cutoffNodes start stop n i nodes k =
    if i ≤ k ∧ k < i + n then cutoffNode (nodes k) start stop else nodes k := by
  induction n generalizing i nodes with
  | zero =>
    rw [if_neg (by omega)]
    rfl
  | succ n ih =>
    rw [cutoffNodes, ih]
    by_cases hk : k = i
    · subst hk
      rw [if_neg (by omega), if_pos (by omega), Function.update_self]
    · rw [Function.update_of_ne hk]
      by_cases h : i + 1 ≤ k ∧ k < i + 1 + n
      · rw [if_pos h, if_pos (by omega)]
      · rw [if_neg h, if_neg (by omega)]

end Clipping

/-! ## Registering -/

/-- The range of a registration of node `i`. -/
def ScanCall.bootmemRange (i : Nat) : ScanCall → Option Node
  | .setupNodeBootmem k start stop => if k = i then some ⟨start, stop⟩ else none
  | _ => none

/-- The ranges with which node `i` is registered. -/
def bootmemRanges (i : Nat) (calls : List ScanCall) : List Node := calls.filterMap (ScanCall.bootmemRange i)

@[simp] theorem bootmemRanges_append (i : Nat) (calls calls' : List ScanCall) :
    bootmemRanges i (calls ++ calls') = bootmemRanges i calls ++ bootmemRanges i calls' := List.filterMap_append

/-- The addresses of the node are machine words. -/
def Node.Words (nd : Node) : Prop := nd.start < 2 ^ 32 ∧ nd.stop < 2 ^ 32

theorem size_eq_zero {nd : Node} (h : nd.Words) : nd.size = 0 ↔ nd.start = nd.stop := by
  obtain ⟨hstart, hstop⟩ := h
  unfold Node.size toUnsigned
  omega

/-- **The loop that registers.** A node is registered, once, if it is empty. -/
theorem registerNodes_ranges (nodes : Nat → Node) (k n i : Nat) : bootmemRanges k (registerNodes nodes n i).log =
    if i ≤ k ∧ k < i + n ∧ (nodes k).size = 0 then [nodes k] else [] := by
  induction n generalizing i with
  | zero =>
    rw [if_neg (by omega)]
    rfl
  | succ n ih =>
    have hcall : bootmemRanges k [.setupNodeBootmem i (nodes i).start (nodes i).stop] =
        if i = k then [nodes i] else [] := by
      by_cases hk : i = k <;> simp [bootmemRanges, ScanCall.bootmemRange, hk]
    by_cases hsize : (nodes i).size = 0
    · simp only [registerNodes, hsize, if_true, Logged.log_bind, Logged.log_emit, bootmemRanges_append, hcall, ih]
      by_cases hk : i = k
      · subst hk
        rw [if_pos rfl, if_neg (by omega), if_pos ⟨by omega, by omega, hsize⟩]
        rfl
      · rw [if_neg hk, List.nil_append]
        exact if_congr (by omega) rfl rfl
    · simp only [registerNodes, hsize, if_false, ih]
      refine if_congr ⟨?_, ?_⟩ rfl rfl
      · rintro ⟨h1, h2, h3⟩
        exact ⟨by omega, by omega, h3⟩
      · rintro ⟨h1, h2, h3⟩
        refine ⟨?_, by omega, h3⟩
        rcases Nat.eq_or_lt_of_le h1 with rfl | h1
        · exact absurd h3 hsize
        · exact h1

/-- The CPUs register nothing. -/
theorem clearCpus_ranges (env : ScanEnv) (k n i : Nat) : bootmemRanges k (clearCpus env n i).log = [] := by
  induction n generalizing i with
  | zero => rfl
  | succ n ih =>
    by_cases h : env.cpuToNode i ≠ numaNoNode ∧ !env.nodeIsset (env.cpuToNode i) env.processorNodesParsed
    · simp only [clearCpus, if_pos h, Logged.log_bind, Logged.log_emit, bootmemRanges_append, ih, List.append_nil]
      rfl
    · simp only [clearCpus, if_neg h, ih]

/-! ## The scan -/

section Scan

variable {env : ScanEnv} {s : Srat} {start stop : Nat}

/-- The nodes after clipping. -/
def clipped (s : Srat) (start stop : Nat) : Nat → Node := cutoffNodes start stop maxNumnodes 0 s.nodes

/-- The scan gets to the registration: NUMA is on and the clipped nodes cover the memory. -/
def Registers (env : ScanEnv) (s : Srat) (start stop : Nat) : Prop :=
  0 < s.acpiNuma ∧ (nodesCoverMemory env.e820 (clipped s start stop) env.nodesParsed).val = some true

/-- It returns 0 exactly if it gets there. -/
theorem scan_zero : (acpiScanNodes env s start stop).val.1 = some 0 ↔ Registers env s start stop := by
  unfold Registers
  by_cases hnuma : s.acpiNuma ≤ 0
  · simp [acpiScanNodes, hnuma, Int.not_lt.mpr hnuma]
  · have hpos : 0 < s.acpiNuma := by omega
    simp only [acpiScanNodes, hnuma, hpos, if_false, true_and]
    unfold clipped
    rcases (nodesCoverMemory env.e820 (cutoffNodes start stop maxNumnodes 0 s.nodes) env.nodesParsed).val with
      _ | _ | _ <;> simp

/-- What it registers then. -/
theorem scan_ranges (h : Registers env s start stop) (k : Nat) :
    bootmemRanges k (acpiScanNodes env s start stop).log =
      if (k : Int) < env.allNodesParsed ∧ (clipped s start stop k).size = 0 then [clipped s start stop k] else [] := by
  obtain ⟨hnuma, hcover⟩ := h
  unfold clipped at *
  have hinit : bootmemRanges k [ScanCall.numaInitArray] = [] := rfl
  simp only [acpiScanNodes, Int.not_le.mpr hnuma, if_false, hcover, Nat.not_lt_zero, Logged.log_bind,
    Logged.log_pure, Logged.log_emit, List.append_nil, bootmemRanges_append, registerNodes_ranges, clearCpus_ranges,
    hinit]
  exact if_congr (by omega) rfl rfl

/-- **What the scan owes.** If it returns 0, every parsed node has been registered once, with its addresses in the
window. -/
def RegistersAll (env : ScanEnv) (s : Srat) (start stop : Nat) : Prop :=
  (acpiScanNodes env s start stop).val.1 = some 0 → ∀ i : Nat, i < env.allNodesParsed →
    ∃ nd : Node, bootmemRanges i (acpiScanNodes env s start stop).log = [nd] ∧
      nd.span.toSet = (s.nodes i).span.toSet ∩ (⟨start, stop⟩ : Span Nat).toSet

/-- The addresses of clipped nodes are words. -/
theorem clipped_words (h : ∀ i, (s.nodes i).Words) (i : Nat) : (clipped s start stop i).Words := by
  have hle := cutoffNode_le (s.nodes i) start stop
  obtain ⟨hstart, hstop⟩ := h i
  unfold clipped
  rw [cutoffNodes_eq]
  by_cases hi : 0 ≤ i ∧ i < 0 + maxNumnodes
  · rw [if_pos hi]
    exact ⟨by omega, by omega⟩
  · rw [if_neg hi]
    exact ⟨hstart, hstop⟩

/-- A clipped node that is empty has its addresses in the window; behind the table nodes are not clipped. -/
theorem clipped_toSet {i : Nat} (h : (clipped s start stop i).start = (clipped s start stop i).stop) :
    (clipped s start stop i).span.toSet = (s.nodes i).span.toSet ∩ (⟨start, stop⟩ : Span Nat).toSet := by
  unfold clipped at *
  rw [cutoffNodes_eq] at *
  by_cases hi : 0 ≤ i ∧ i < 0 + maxNumnodes
  · rw [if_pos hi]
    exact cutoffNode_toSet (s.nodes i) start stop
  · rw [if_neg hi] at *
    have hempty : (s.nodes i).span.toSet = ∅ := Set.Ico_eq_empty (by simp [Node.span, h])
    rw [hempty, Set.empty_inter]

/-- A node that is registered is the clipped one, and it is only if it is empty. -/
theorem registersAll_iff {env : ScanEnv} {s : Srat} {start stop : Nat} (h : ∀ i, (s.nodes i).Words) :
    RegistersAll env s start stop ↔ (Registers env s start stop →
      ∀ i : Nat, i < env.allNodesParsed → (clipped s start stop i).start = (clipped s start stop i).stop) := by
  unfold RegistersAll
  rw [scan_zero]
  refine imp_congr_right fun hgets => forall_congr' fun i => imp_congr_right fun hi => ?_
  rw [scan_ranges hgets, ← size_eq_zero (clipped_words h i)]
  constructor
  · rintro ⟨nd, hnd, -⟩
    by_contra hsize
    rw [if_neg fun h => hsize h.2] at hnd
    cases hnd
  · intro hsize
    refine ⟨clipped s start stop i, if_pos ⟨hi, hsize⟩, clipped_toSet ?_⟩
    exact (size_eq_zero (clipped_words h i)).mp hsize

/-- **When all nodes are registered.** Exactly if the scan does not get to the registration or every parsed node is
empty after clipping. -/
theorem registers_iff (env : ScanEnv) (s : Srat) (start stop : Nat) (h : ∀ i, (s.nodes i).Words) :
    RegistersAll env s start stop ↔ s.acpiNuma ≤ 0 ∨
      (nodesCoverMemory env.e820 (clipped s start stop) env.nodesParsed).val ≠ some true ∨
      ∀ i : Nat, i < env.allNodesParsed → (clipped s start stop i).start = (clipped s start stop i).stop := by
  have hreg : s.acpiNuma ≤ 0 ∨ (nodesCoverMemory env.e820 (clipped s start stop) env.nodesParsed).val ≠ some true ↔
      ¬Registers env s start stop := by
    unfold Registers
    rw [not_and_or, Int.not_lt]
  rw [← or_assoc, hreg, ← imp_iff_not_or]
  exact registersAll_iff h

end Scan

/-- A node from 0 to 4096, and RAM there. -/
def oneNode : ScanEnv × Srat :=
  (⟨⟨1, fun _ => ⟨0, 4096, true⟩⟩, 1, fun _ _ => true, 1, 0, 1, 0, fun _ => 0⟩,
    { start 2 with acpiNuma := 1, nodes := fun i => if i = 0 then ⟨0, 4096⟩ else ⟨0, 0⟩ })

theorem oneNode_words (i : Nat) : (oneNode.2.nodes i).Words := by
  unfold oneNode Node.Words
  by_cases hi : i = 0 <;> simp [hi]

/-- The window leaves the node as it is. -/
theorem oneNode_clipped : clipped oneNode.2 0 8192 = oneNode.2.nodes := by
  funext i
  unfold clipped
  rw [cutoffNodes_eq, ite_eq_right_iff]
  intro _
  by_cases hi : i = 0
  · rw [hi]
    rfl
  · simp [oneNode, hi, cutoffNode]

/-- The node is not registered. The statement is over states: no record of this file leaves `acpi_numa` positive, but
other code may set the global. -/
theorem registers_counterexample :
    ¬ ∀ (env : ScanEnv) (s : Srat) (start stop : Nat), (∀ i, (s.nodes i).Words) → RegistersAll env s start stop := by
  intro h
  have hok := h oneNode.1 oneNode.2 0 8192 oneNode_words
  rw [registersAll_iff oneNode_words, Registers, oneNode_clipped] at hok
  have hempty := hok ⟨by decide, rfl⟩ 0 (by decide)
  exact absurd hempty (by decide)

theorem registers_oneNode : RegistersAll oneNode.1 oneNode.2 0 8192 ↔ oneNode.2.acpiNuma ≤ 0 ∨
    (nodesCoverMemory oneNode.1.e820 (clipped oneNode.2 0 8192) oneNode.1.nodesParsed).val ≠ some true ∨
    ∀ i : Nat, i < oneNode.1.allNodesParsed →
      (clipped oneNode.2 0 8192 i).start = (clipped oneNode.2 0 8192 i).stop :=
  registers_iff oneNode.1 oneNode.2 0 8192 oneNode_words

end Xen.Numa
