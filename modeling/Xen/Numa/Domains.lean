import Mathlib.Algebra.Group.Int.Defs
import Mathlib.Algebra.Group.Nat.Defs
import Xen.Lib.Logged

/-!
# NUMA proximity domains (`srat_verified.c`)

- `Tables` is the table `pxm2node` with the statics of `setup_node`; `pxmToNode`, `setupNode` and `nodeToPxm` log the
  index of every slot they access.
- A run is a list of calls of `setup_node` (`afterCalls`), and `idAt` the id its `i`-th call returns.
- `NumberingOk` is what a numbering of the domains owes. `NUMA_NO_NODE` is 0 and so is the first id:
  `numbering_iff` says that only the run without calls is numbered as it should be.

`sizeof(pxm2node)` is a parameter, `entries`: its bytes and its slots are different numbers.
-/

namespace Xen.Numa

open Lib

def maxNumnodes : Nat := 1000

def numaNoNode : Nat := 0

/-- `struct pxm2node`. -/
structure Pxm2Node where
  pxm : Nat
  node : Int
deriving DecidableEq, Repr

/-- The table `pxm2node`, and the static locals of `setup_node`. -/
structure Tables where
  pxm2node : Nat → Pxm2Node
  nodesFound : Nat
  warned : Bool

/-- The zeroed globals. -/
def init : Tables := ⟨fun _ => ⟨0, 0⟩, 0, false⟩

/-- The conversion `(unsigned) n` of an `int`. -/
def toUnsigned (n : Int) : Nat := (n % 2 ^ 32).toNat

/-! ## The functions -/

/-- `for ( i = 0; i < …; i++ ) if ( test(i) ) …`: the first of `n` slots from `i` on that passes the test. -/
def scanSlots (test : Nat → Bool) : (n i : Nat) → Logged Nat (Option Nat)
  | 0, _ => pure none
  | n + 1, i => do
    Logged.emit i
    if test i then
      return some i
    scanSlots test n (i + 1)

/-- `node_found`. -/
def nodeFound (s : Tables) (idx pxm : Nat) : Bool := (s.pxm2node idx).pxm = pxm && (s.pxm2node idx).node ≠ 0

/-- `pxm_to_node`. -/
def pxmToNode (entries : Nat) (s : Tables) (pxm : Nat) : Logged Nat Nat := do
  if pxm < entries then
    Logged.emit pxm
    if nodeFound s pxm pxm then
      return toUnsigned (s.pxm2node pxm).node
  match ← scanSlots (nodeFound s · pxm) entries 0 with
  | some i => return toUnsigned (s.pxm2node i).node
  | none => return 0

/-- `node_to_pxm`; a negative `n` is not below `sizeof(pxm2node)`. -/
def nodeToPxm (entries : Nat) (s : Tables) (n : Int) : Logged Nat Nat := do
  if 0 ≤ n ∧ n < entries then
    Logged.emit n.toNat
    if (s.pxm2node n.toNat).node = n then
      return (s.pxm2node n.toNat).pxm
  match ← scanSlots (fun i => (s.pxm2node i).node = n) entries 0 with
  | some i => return (s.pxm2node i).pxm
  | none => return 0

/-- The label `finish` of `setup_node`: number the domain in slot `idx`. -/
def finish (s : Tables) (idx pxm : Nat) : Logged Nat (Nat × Tables) := do
  let node := s.nodesFound
  let s := { s with nodesFound := (s.nodesFound + 1) % 2 ^ 32 }
  if node ≥ maxNumnodes then
    return (numaNoNode, s)
  Logged.emit idx
  return (node, { s with pxm2node := Function.update s.pxm2node idx ⟨pxm, node⟩ })

/-- The search of `setup_node` for a free slot. -/
def setupFree (entries : Nat) (s : Tables) (pxm : Nat) : Logged Nat (Nat × Tables) := do
  match ← scanSlots (fun idx => (s.pxm2node idx).node = numaNoNode) entries 0 with
  | some idx => finish s idx pxm
  | none => return (numaNoNode, { s with warned := true })

/-- `setup_node`: the id it returns and the globals afterwards. -/
def setupNode (entries : Nat) (s : Tables) (pxm : Nat) : Logged Nat (Nat × Tables) := do
  if pxm < entries then
    Logged.emit pxm
    if nodeFound s pxm pxm then
      return (toUnsigned (s.pxm2node pxm).node, s)
    if (s.pxm2node pxm).node = numaNoNode then
      finish s pxm pxm
    else
      setupFree entries s pxm
  else
    setupFree entries s pxm

/-! ## Runs -/

/-- The globals after a run of calls of `setup_node`, with one slot for each node. -/
def afterCalls (calls : List Nat) : Tables := calls.foldl (fun s pxm => (setupNode maxNumnodes s pxm).val.2) init

/-- The id the `i`-th call of the run returns. -/
def idAt (calls : List Nat) (i : Nat) : Nat :=
  (setupNode maxNumnodes (afterCalls (calls.take i)) (calls.getD i 0)).val.1

/-- **A numbering of the domains.** Every call returns an id, the same one for the same domain without a further
change, different ones for different domains, and the two lookups invert each other. -/
structure NumberingOk (calls : List Nat) : Prop where
  assigned : ∀ i < calls.length, idAt calls i ≠ numaNoNode
  again : ∀ i j, i < j → j < calls.length → calls.getD i 0 = calls.getD j 0 →
    idAt calls j = idAt calls i ∧ afterCalls (calls.take (j + 1)) = afterCalls (calls.take j)
  distinct : ∀ i j, i < j → j < calls.length → calls.getD i 0 ≠ calls.getD j 0 → idAt calls i ≠ idAt calls j
  pxmToNode : ∀ i < calls.length,
    (pxmToNode maxNumnodes (afterCalls calls) (calls.getD i 0)).val = idAt calls i
  nodeToPxm : ∀ i < calls.length, (nodeToPxm maxNumnodes (afterCalls calls) (idAt calls i)).val = calls.getD i 0

/-- `finish` hands out the number of nodes found so far. -/
theorem finish_id {s : Tables} (h : s.nodesFound < maxNumnodes) (idx pxm : Nat) :
    (finish s idx pxm).val.1 = s.nodesFound := by
  simp [finish, Nat.not_le.mpr h]

/-- A scan finds the first slot if that passes the test. -/
theorem scanSlots_first {test : Nat → Bool} {n i : Nat} (h : test i = true) :
    (scanSlots test (n + 1) i).val = some i := by
  simp [scanSlots, h]

/-- The first call hands out the id 0, whatever the domain. -/
theorem setupNode_init (pxm : Nat) : (setupNode maxNumnodes init pxm).val.1 = 0 := by
  have hfinish : ∀ idx, (finish init idx pxm).val.1 = 0 := fun idx => finish_id (by decide) idx pxm
  have hfound : nodeFound init pxm pxm = false := by simp [nodeFound, init]
  have hfree : (init.pxm2node pxm).node = numaNoNode := rfl
  have hscan : (scanSlots (fun idx => (init.pxm2node idx).node = numaNoNode) maxNumnodes 0).val = some 0 :=
    scanSlots_first (by simp [init, numaNoNode])
  by_cases h : pxm < maxNumnodes
  · simp [setupNode, h, hfound, hfree, hfinish]
  · simp [setupNode, setupFree, h, hscan, hfinish]

/-- The first call of a run returns `NUMA_NO_NODE`. -/
theorem idAt_first (pxm : Nat) (calls : List Nat) : idAt (pxm :: calls) 0 = numaNoNode := setupNode_init pxm

/-- **Which runs are numbered as they should be.** None that makes a call. -/
theorem numbering_iff (calls : List Nat) : NumberingOk calls ↔ calls = [] := by
  constructor
  · intro h
    cases calls with
    | nil => rfl
    | cons pxm calls => exact absurd (idAt_first pxm calls) (h.assigned 0 (Nat.succ_pos _))
  · rintro rfl
    exact ⟨fun i h => absurd h (Nat.not_lt_zero i), fun i j _ h => absurd h (Nat.not_lt_zero j),
      fun i j _ h => absurd h (Nat.not_lt_zero j), fun i h => absurd h (Nat.not_lt_zero i),
      fun i h => absurd h (Nat.not_lt_zero i)⟩

/-- One call for domain 0. -/
theorem numbering_counterexample :
    ¬ ∀ calls : List Nat, calls.dedup.length < maxNumnodes → NumberingOk calls := fun h =>
  (h [0] (by decide)).assigned 0 (by decide) (idAt_first 0 [])

end Xen.Numa
