import Xen.Numa.Bounds
import Xen.Numa.Coverage

/-!
# SRAT affinity records (`srat_verified.c`)

- `Srat` are the globals of the file, `badSrat` is `bad_srat`.
- `x2apicAffinityInit` and `processorAffinityInit` take CPU records, `memoryAffinityInit` memory records, with
  `conflictingMemblks`, the search for a block that overlaps. Calls of `bad_srat` and reads of `memblk_nodeid` are
  logged.
- Each of the three compares `sizeof(pa->header)`, a word, with the size of the whole record, so that no record of an
  enabled SRAT gets past the comparison (`feed_enabled`).
- `cpuRecords_iff`: CPU records are taken as they should be only if there are none. `memRecord_never`: no memory record
  is.

`srat_disabled`, `node_test_and_set` and `test_bit` are declared but not defined in the file: they are parameters.
-/

namespace Xen.Numa

open Lib

/-! ## Data model -/

def nrNodeMemblks : Int := 2000

/-- `sizeof(pa->header)`: the header is an `unsigned`. -/
def sizeofHeader : Nat := 4

/-- `struct acpi_srat_x2apic_cpu_affinity`. -/
structure X2apicCpuAffinity where
  flags : BitVec 32
  apicId : Int
  proximityDomain : BitVec 32
deriving DecidableEq, Repr

def sizeofX2apicCpuAffinity : Nat := 16

/-- `struct acpi_srat_cpu_affinity`. -/
structure CpuAffinity where
  flags : BitVec 32
  apicId : Int
  proximityDomainLo : BitVec 32
  proximityDomainHi : Fin 3 → BitVec 32

def sizeofCpuAffinity : Nat := 28

/-- `struct acpi_srat_mem_affinity`. -/
structure MemAffinity where
  flags : BitVec 32
  baseAddress : Nat
  length : Nat
  proximityDomain : BitVec 32
deriving DecidableEq, Repr

def sizeofMemAffinity : Nat := 20

/-- The globals of the file. -/
structure Srat where
  tables : Tables
  acpiNuma : Int
  apicidToNode : Int → Int
  sratRev : Int
  nodes : Nat → Node
  memoryNodesParsed : Nat
  numNodeMemblks : Int
  nodeMemblkRange : Int → Node
  memblkNodeid : Int → Nat
  memHotplug : Nat

/-- What the file declares but does not define, and the uninitialised local `memblk_hotplug`. -/
structure Env where
  sratDisabled : Srat → Bool
  nodeTestAndSet : Nat → Nat → Bool
  testBit : Int → Nat → Bool
  memblkHotplug : Nat

/-- A call of `bad_srat`, or a read of `memblk_nodeid`. -/
inductive Event where
  | badSrat
  | memblkNodeid (i : Int)
deriving DecidableEq, Repr

/-! ## The functions -/

/-- `bad_srat`; its `mem_hotplug` is a local. The slots behind the table are memory of their own here: which globals
they overlay is up to the linker. -/
def badSrat (s : Srat) : Logged Event Srat := do
  Logged.emit .badSrat
  return { s with
    acpiNuma := -1
    apicidToNode := fun i => if 0 ≤ i ∧ i < 256 then numaNoNode else s.apicidToNode i
    tables := (clearNodes sizeofPxm2node 0 s.tables).val }

/-- The end of the two callbacks for CPU records: give the APIC the node of its domain. -/
def setApicNode (s : Srat) (apicId : Int) (pxm : Nat) : Logged Event Srat := do
  let r := (setupNode sizeofPxm2node s.tables pxm).val
  let s := { s with tables := r.2 }
  if r.1 = numaNoNode then
    badSrat s
  else
    return { s with apicidToNode := Function.update s.apicidToNode apicId r.1, acpiNuma := 1 }

/-- `acpi_numa_x2apic_affinity_init`. -/
def x2apicAffinityInit (env : Env) (s : Srat) (pa : X2apicCpuAffinity) : Logged Event Srat := do
  if env.sratDisabled s then
    return s
  if sizeofHeader < sizeofX2apicCpuAffinity then
    badSrat s
  else if pa.flags &&& 1 = 0 then
    return s
  else if pa.apicId ≥ 256 then
    return s
  else
    setApicNode s pa.apicId pa.proximityDomain.toNat

/-- The domain of a CPU record; the high bytes count from revision 2 on. -/
def CpuAffinity.pxm (sratRev : Int) (pa : CpuAffinity) : Nat :=
  if sratRev ≥ 2 then
    (pa.proximityDomainLo ||| pa.proximityDomainHi 0 <<< 8 ||| pa.proximityDomainHi 1 <<< 16 |||
      pa.proximityDomainHi 2 <<< 24).toNat
  else
    pa.proximityDomainLo.toNat

/-- `acpi_numa_processor_affinity_init`, with `&&` in the test of the flags. -/
def processorAffinityInit (env : Env) (s : Srat) (pa : CpuAffinity) : Logged Event Srat := do
  if env.sratDisabled s then
    return s
  if sizeofHeader ≠ sizeofCpuAffinity then
    badSrat s
  else if pa.flags = 0 then
    return s
  else
    setApicNode s pa.apicId (pa.pxm s.sratRev)

/-- The body of the loop of `conflicting_memblks`, over `n` blocks from `i` on. -/
def conflictFrom (range : Int → Node) (start stop : Nat) : (n : Nat) → (i : Int) → Int
  | 0, _ => -1
  | n + 1, i =>
    if (range i).start = (range i).stop then
      conflictFrom range start stop n (i + 1)
    else if (range i).stop > start ∧ (range i).start < stop then
      i
    else if (range i).stop = stop ∧ (range i).start = start then
      i
    else
      conflictFrom range start stop n (i + 1)

/-- `conflicting_memblks`. -/
def conflictingMemblks (s : Srat) (start stop : Nat) : Int :=
  conflictFrom s.nodeMemblkRange start stop s.numNodeMemblks.toNat 0

/-- The update of `nodes[node]` for a block that is not hot-pluggable. -/
def growNode (env : Env) (s : Srat) (node start stop : Nat) : Srat :=
  let nd := s.nodes node
  let nd' : Node :=
    if !env.nodeTestAndSet node s.memoryNodesParsed then
      ⟨start, stop⟩
    else
      ⟨if start < nd.start then start else nd.start, if nd.stop < stop then stop else nd.stop⟩
  { s with nodes := Function.update s.nodes node nd' }

/-- `acpi_numa_memory_affinity_init`; the local `ACPI_SRAT_MEM_HOT_PLUGGABLE` is 1. -/
def memoryAffinityInit (env : Env) (s : Srat) (ma : MemAffinity) : Logged Event Srat := do
  if env.sratDisabled s then
    return s
  if sizeofHeader ≠ sizeofMemAffinity then
    badSrat s
  else if ma.flags &&& 1 = 0 then
    return s
  else
    let start := ma.baseAddress
    let stop := (start + ma.length) % 2 ^ 32
    if s.numNodeMemblks ≥ nrNodeMemblks then
      badSrat s
    else
      let pxm := if s.sratRev < 2 then ma.proximityDomain &&& 0xff else ma.proximityDomain
      let r := (setupNode sizeofPxm2node s.tables pxm.toNat).val
      let node := r.1
      let s := { s with tables := r.2 }
      if node = numaNoNode then
        badSrat s
      else
        let i := conflictingMemblks s start stop
        Logged.emit (.memblkNodeid i)
        let hotPluggable : Bool := ma.flags &&& 1 ≠ 0
        -- a block without a conflict has `i = -1`
        if s.memblkNodeid i ≠ node then
          badSrat s
        else if (!hotPluggable) ≠ (!env.testBit i env.memblkHotplug) then
          badSrat s
        else
          let s := if !hotPluggable then growNode env s node start stop else s
          return { s with
            nodeMemblkRange := Function.update s.nodeMemblkRange s.numNodeMemblks ⟨start, stop⟩
            memblkNodeid := Function.update s.memblkNodeid s.numNodeMemblks node
            memHotplug := if hotPluggable ∧ stop > s.memHotplug then stop else s.memHotplug
            numNodeMemblks := s.numNodeMemblks + 1 }

/-! ## Runs of records -/

/-- A record for one of the two callbacks for CPU records. -/
inductive CpuRecord where
  | x2apic (pa : X2apicCpuAffinity)
  | processor (pa : CpuAffinity)

/-- A record for one of the three callbacks. -/
inductive Record where
  | cpu (r : CpuRecord)
  | memory (ma : MemAffinity)

/-- Hand the record to its callback. -/
def feed (env : Env) (s : Srat) : Record → Logged Event Srat
  | .cpu (.x2apic pa) => x2apicAffinityInit env s pa
  | .cpu (.processor pa) => processorAffinityInit env s pa
  | .memory ma => memoryAffinityInit env s ma

/-- The globals after a record. -/
def stepRecord (env : Env) (s : Srat) (r : Record) : Srat := (feed env s r).val

/-- The globals after some records. -/
def afterRecords (env : Env) (s : Srat) (records : List Record) : Srat := records.foldl (stepRecord env) s

/-- **No record passes.** An enabled SRAT answers every record with `bad_srat`. -/
theorem feed_enabled {env : Env} {s : Srat} (h : env.sratDisabled s = false) (r : Record) :
    feed env s r = badSrat s := by
  have hx2apic : sizeofHeader < sizeofX2apicCpuAffinity := by decide
  have hcpu : sizeofHeader ≠ sizeofCpuAffinity := by decide
  have hmem : sizeofHeader ≠ sizeofMemAffinity := by decide
  match r with
  | .cpu (.x2apic pa) => simp only [feed, x2apicAffinityInit, h, if_pos hx2apic, Bool.false_eq_true, if_false]
  | .cpu (.processor pa) => simp only [feed, processorAffinityInit, h, if_pos hcpu, Bool.false_eq_true, if_false]
  | .memory ma => simp only [feed, memoryAffinityInit, h, if_pos hmem, Bool.false_eq_true, if_false]

/-- The firmware of the file: SRAT is disabled when `acpi_numa` is negative. -/
def plainEnv : Env := ⟨fun s => s.acpiNuma < 0, fun _ _ => false, fun _ _ => false, 0⟩

/-- The globals at the start, with tables of revision `sratRev`. -/
def start (sratRev : Int) : Srat :=
  ⟨init, 0, fun _ => numaNoNode, sratRev, fun _ => ⟨0, 0⟩, 0, 0, fun _ => ⟨0, 0⟩, fun _ => 0, 0⟩

/-! ## CPU records -/

/-- The APIC of a CPU record, bit 0 of its flags, and its domain. -/
structure CpuEntry where
  apicId : Int
  enabled : Bool
  domain : Nat
deriving DecidableEq, Repr

/-- What a CPU record says, in a table of revision `sratRev`. -/
def CpuRecord.entry (sratRev : Int) : CpuRecord → CpuEntry
  | .x2apic pa => ⟨pa.apicId, pa.flags &&& 1 ≠ 0, pa.proximityDomain.toNat⟩
  | .processor pa => ⟨pa.apicId, pa.flags &&& 1 ≠ 0, pa.pxm sratRev⟩

/-- The last enabled record for the APIC. -/
def lastEnabled (sratRev : Int) (records : List CpuRecord) (apicId : Int) : Option CpuEntry :=
  ((records.map (CpuRecord.entry sratRev)).filter fun e => e.enabled && e.apicId = apicId).getLast?

/-- **What CPU records owe.** `bad_srat` is not called, a record that is not enabled changes nothing, and in the end
every APIC has the node of the domain its last enabled record names, another one for another domain. -/
structure CpuRecordsOk (env : Env) (s : Srat) (records : List CpuRecord) : Prop where
  noBadSrat : Along (fun s r => ¬Event.badSrat ∈ (feed env s r).log) (stepRecord env) s (records.map .cpu)
  skipped : ∀ pre r post, records = pre ++ r :: post → (r.entry s.sratRev).enabled = false →
    stepRecord env (afterRecords env s (pre.map .cpu)) (.cpu r) = afterRecords env s (pre.map .cpu)
  last : ∀ a e, lastEnabled s.sratRev records a = some e →
    (afterRecords env s (records.map .cpu)).apicidToNode a =
      (pxmToNode maxNumnodes (afterRecords env s (records.map .cpu)).tables e.domain).val
  distinct : ∀ a b e f, lastEnabled s.sratRev records a = some e → lastEnabled s.sratRev records b = some f →
    ((afterRecords env s (records.map .cpu)).apicidToNode a = (afterRecords env s (records.map .cpu)).apicidToNode b ↔
      e.domain = f.domain)

/-- The first record disables SRAT. -/
theorem CpuRecordsOk.eq_nil {env : Env} {s : Srat} {records : List CpuRecord} (hok : CpuRecordsOk env s records)
    (h : env.sratDisabled s = false) : records = [] := by
  cases records with
  | nil => rfl
  | cons r records =>
    have hno : ¬Event.badSrat ∈ (feed env s (.cpu r)).log := hok.noBadSrat.1
    rw [feed_enabled h] at hno
    exact absurd (by simp [badSrat]) hno

/-- **Which CPU records are taken as they should be.** With SRAT enabled, only the empty list of them. -/
theorem cpuRecords_iff (env : Env) (s : Srat) (records : List CpuRecord) (h : env.sratDisabled s = false) :
    CpuRecordsOk env s records ↔ records = [] := by
  constructor
  · intro hok
    exact hok.eq_nil h
  · rintro rfl
    refine ⟨trivial, fun pre r post h => ?_, fun a e he => ?_, fun a b e f he => ?_⟩
    · simp at h
    · simp [lastEnabled] at he
    · simp [lastEnabled] at he

/-- One enabled record, for APIC 0 in domain 1. -/
theorem cpuRecords_counterexample :
    ¬ ∀ (env : Env) (sratRev : Int) (records : List CpuRecord), env.sratDisabled (start sratRev) = false →
      (∀ r ∈ records, 0 ≤ (r.entry sratRev).apicId ∧ (r.entry sratRev).apicId < 256) →
      (records.map fun r => (r.entry sratRev).domain).dedup.length < maxNumnodes →
        CpuRecordsOk env (start sratRev) records := by
  intro h
  have hok := h plainEnv 2 [.x2apic ⟨1, 0, 1⟩] (by decide) (by decide) (by decide)
  have hnil := hok.eq_nil (by decide)
  cases hnil

theorem cpuRecords_nil : CpuRecordsOk plainEnv (start 2) [] :=
  (cpuRecords_iff plainEnv (start 2) [] (by decide)).mpr rfl

/-! ## Memory records -/

/-- **What a memory record owes.** Its range is appended with the node of its domain, the conflict search looks at
recorded blocks only, and SRAT stays enabled. -/
structure MemRecordOk (env : Env) (s : Srat) (ma : MemAffinity) : Prop where
  count : (memoryAffinityInit env s ma).val.numNodeMemblks = s.numNodeMemblks + 1
  range : (memoryAffinityInit env s ma).val.nodeMemblkRange =
    Function.update s.nodeMemblkRange s.numNodeMemblks ⟨ma.baseAddress, ma.baseAddress + ma.length⟩
  nodeid : ∃ node, node ≠ numaNoNode ∧ (memoryAffinityInit env s ma).val.memblkNodeid =
    Function.update s.memblkNodeid s.numNodeMemblks node
  indices : ∀ i, Event.memblkNodeid i ∈ (memoryAffinityInit env s ma).log → 0 ≤ i ∧ i < s.numNodeMemblks
  enabled : env.sratDisabled (memoryAffinityInit env s ma).val = false

/-- The records that are to be taken: enabled, with a range that is not empty, does not wrap and overlaps no block, in
a state with room for another block and another domain. -/
structure Admissible (env : Env) (s : Srat) (ma : MemAffinity) : Prop where
  sratEnabled : env.sratDisabled s = false
  room : s.numNodeMemblks < nrNodeMemblks
  slot : s.tables.nodesFound < maxNumnodes ∧ ∃ i < maxNumnodes, Free s.tables i
  flag : ma.flags &&& 1 ≠ 0
  nonempty : 0 < ma.length
  noWrap : ma.baseAddress + ma.length < 2 ^ 32
  noOverlap : ∀ i, 0 ≤ i → i < s.numNodeMemblks →
    (s.nodeMemblkRange i).stop ≤ ma.baseAddress ∨ ma.baseAddress + ma.length ≤ (s.nodeMemblkRange i).start

/-- A memory record disables SRAT and is not counted. -/
theorem memoryAffinityInit_count {env : Env} {s : Srat} (h : env.sratDisabled s = false) (ma : MemAffinity) :
    (memoryAffinityInit env s ma).val.numNodeMemblks = s.numNodeMemblks := by
  have hbad : memoryAffinityInit env s ma = badSrat s := feed_enabled h (.memory ma)
  rw [hbad]
  simp only [badSrat, Logged.val_bind, Logged.val_pure]

/-- **No memory record is taken.** With SRAT enabled, none is appended. -/
theorem memRecord_never (env : Env) (s : Srat) (ma : MemAffinity) (h : env.sratDisabled s = false) :
    ¬MemRecordOk env s ma := by
  intro hok
  have hcount := hok.count
  rw [memoryAffinityInit_count h] at hcount
  omega

/-- The first block of all. -/
theorem memRecord_counterexample :
    ¬ ∀ (env : Env) (sratRev : Int) (records : List Record) (ma : MemAffinity),
      Admissible env (afterRecords env (start sratRev) records) ma →
        MemRecordOk env (afterRecords env (start sratRev) records) ma := by
  intro h
  have hadm : Admissible plainEnv (start 2) ⟨1, 0, 4096, 1⟩ :=
    ⟨by decide, by decide, ⟨by decide, 0, by decide, rfl⟩, by decide, by decide, by decide,
      fun i h0 hi => absurd hi (by simp only [start]; omega)⟩
  have hcount := (h plainEnv 2 [] ⟨1, 0, 4096, 1⟩ hadm).count
  rw [memoryAffinityInit_count (by decide)] at hcount
  omega

theorem memRecord_first : ¬MemRecordOk plainEnv (start 2) ⟨1, 0, 4096, 1⟩ :=
  memRecord_never plainEnv (start 2) ⟨1, 0, 4096, 1⟩ (by decide)

end Xen.Numa
