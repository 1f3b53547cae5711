import Xen.Numa.Forget

/-!
# NUMA stays off (`srat_verified.c`)

- `validNumaRange`: `valid_numa_range`, the search for a block that holds a range (`validNumaRange_iff`).
- `sratParseRegions`: `srat_parse_regions`, with its call of `pfn_pdx_hole_setup` logged. `pdx_region_mask` is declared
  `bool`, so that only bit 0 of the mask is ever compared: `sratParseRegions_log` says when the mask survives.
- `bad_srat` stores zeros behind `pxm2node`, and so does `setup_node` its numbers when it finds no slot there. Which
  globals these are is up to the linker: an `OffEvent` carries what it spills.
- `numa_staysOff`: since no record is taken while SRAT is enabled, NUMA that is off stays off in every run of records,
  scans, calls of `bad_srat`, and calls of `setup_node` that stay in the table. Every scan returns -1 and calls nothing.
  As long as nothing is spilled, the table of blocks stays as it is, and a node is left with its addresses in all
  windows that were scanned.

`acpi_disabled`, `acpi_table_parse`, `pdx_init_mask` and `pdx_region_mask` are declared but not defined in the file, and
`acpi_numa` is an uninitialised local pointer in `srat_parse_regions`: they are parameters.
-/

namespace Xen.Numa

open Lib

/-! ## Blocks -/

/-- The body of the loop of `valid_numa_range`, over `n` blocks from `i` on. -/
def validFrom (range : Int → Node) (nodeid : Int → Nat) (start stop node : Nat) : (n : Nat) → (i : Int) → Int
  | 0, _ => 0
  | n + 1, i =>
    if (range i).start ≤ start ∧ (range i).stop ≥ stop ∧ nodeid i = node then
      1
    else
      validFrom range nodeid start stop node n (i + 1)

/-- `valid_numa_range`. -/
def validNumaRange (s : Srat) (start stop node : Nat) : Int :=
  validFrom s.nodeMemblkRange s.memblkNodeid start stop node s.numNodeMemblks.toNat 0

/-- Block `i` of the table holds the range and belongs to the node. -/
def Holds (range : Int → Node) (nodeid : Int → Nat) (start stop node : Nat) (i : Int) : Prop :=
  (range i).start ≤ start ∧ stop ≤ (range i).stop ∧ nodeid i = node

/-- What the loop finds. -/
theorem validFrom_iff {range : Int → Node} {nodeid : Int → Nat} {start stop node : Nat} (n : Nat) (i : Int) :
    validFrom range nodeid start stop node n i = 1 ↔
      ∃ j, i ≤ j ∧ j < i + n ∧ Holds range nodeid start stop node j := by
  induction n generalizing i with
  | zero =>
    constructor
    · intro h
      cases h
    · rintro ⟨j, hij, hji, -⟩
      omega
  | succ n ih =>
    rw [validFrom]
    by_cases hhere : (range i).start ≤ start ∧ (range i).stop ≥ stop ∧ nodeid i = node
    · rw [if_pos hhere]
      exact ⟨fun _ => ⟨i, by omega, by omega, hhere⟩, fun _ => rfl⟩
    · rw [if_neg hhere, ih]
      constructor
      · rintro ⟨j, hij, hji, hj⟩
        exact ⟨j, by omega, by omega, hj⟩
      · rintro ⟨j, hij, hji, hj⟩
        have hne : j ≠ i := by
          rintro rfl
          exact hhere hj
        exact ⟨j, by omega, by omega, hj⟩

/-- **A range is valid** for a node exactly if a recorded block of the node holds it. -/
theorem validNumaRange_iff (s : Srat) (start stop node : Nat) : validNumaRange s start stop node = 1 ↔
    ∃ i, 0 ≤ i ∧ i < s.numNodeMemblks ∧ Holds s.nodeMemblkRange s.memblkNodeid start stop node i := by
  rw [validNumaRange, validFrom_iff]
  refine exists_congr fun i => ?_
  constructor
  · rintro ⟨h0, hi, hhold⟩
    exact ⟨h0, by omega, hhold⟩
  · rintro ⟨h0, hi, hhold⟩
    exact ⟨h0, by omega, hhold⟩

/-! ## The mask of the regions -/

/-- What `srat_parse_regions` uses and the file does not define; `acpiNumaNegative` is its comparison of the local
`acpi_numa` with 0, `acpiTableParse` the result of looking for the table. -/
structure PdxEnv where
  acpiDisabled : Bool
  acpiNumaNegative : Bool
  acpiTableParse : Bool
  pdxInitMask : Nat → BitVec 32
  pdxRegionMask : Nat → Nat → Bool

/-- The arguments are cut to words, and the result is a `bool`. -/
def PdxEnv.entryMask (env : PdxEnv) (e : MapEntry) : Bool := env.pdxRegionMask (e.addr % 2 ^ 32) (e.size % 2 ^ 32)

/-- The loop of `srat_parse_regions` over `n` entries from `i` on; it ends when the mask is 0. -/
def regionMask (env : PdxEnv) (map : Nat → MapEntry) : (n i : Nat) → (mask : BitVec 32) → BitVec 32
  | 0, _, mask => mask
  | n + 1, i, mask =>
    if mask = 0 then
      mask
    else if !(map i).isRam then
      regionMask env map n (i + 1) mask
    else if ~~~mask &&& (if env.entryMask (map i) then 1 else 0) ≠ 0 then
      regionMask env map n (i + 1) 0
    else
      regionMask env map n (i + 1) mask

/-- `srat_parse_regions`, with the calls of `pfn_pdx_hole_setup`; `PAGE_SHIFT` is 13. -/
def sratParseRegions (env : PdxEnv) (e820 : E820Map) (addr : Nat) : Logged (BitVec 32) Unit := do
  if env.acpiDisabled || env.acpiNumaNegative || env.acpiTableParse then
    return
  let mask := regionMask env e820.map (toUnsigned e820.nrMap) 0 (env.pdxInitMask addr)
  Logged.emit (mask >>> 13)

/-- A RAM entry with a region mask. -/
def Masked (env : PdxEnv) (e : MapEntry) : Prop := e.isRam = true ∧ env.entryMask e = true

instance (env : PdxEnv) (e : MapEntry) : Decidable (Masked env e) := inferInstanceAs (Decidable (_ ∧ _))

section Regions

variable {env : PdxEnv} {map : Nat → MapEntry} {mask : BitVec 32}

/-- Only bit 0 is compared. -/
theorem not_and_bool_eq_zero (mask : BitVec 32) (b : Bool) :
    ~~~mask &&& (if b then 1 else 0) = 0 ↔ (mask[0] = true ∨ b = false) := by
  cases b with
  | false => simp
  | true =>
    constructor
    · intro h
      have hbit := congrArg (fun m => m[0]) h
      simpa using hbit
    · rintro (h | h)
      · ext i hi
        by_cases h0 : i = 0
        · subst h0
          simpa using h
        · simp [h0, BitVec.getElem_one]
      · cases h

theorem regionMask_zero (n i : Nat) : regionMask env map n i 0 = 0 := by
  cases n with
  | zero => rfl
  | succ n => exact if_pos rfl

/-- **The loop.** The mask is kept if its bit 0 is set or no RAM entry has a region mask, and is 0 otherwise. -/
theorem regionMask_eq (n i : Nat) (mask : BitVec 32) : regionMask env map n i mask =
    if mask[0] = true ∨ ∀ k < n, ¬Masked env (map (i + k)) then mask else 0 := by
  induction n generalizing i with
  | zero => exact (if_pos (Or.inr fun k hk => absurd hk (Nat.not_lt_zero k))).symm
  | succ n ih =>
    have hsplit : (∀ k < n + 1, ¬Masked env (map (i + k))) ↔
        ¬Masked env (map i) ∧ ∀ k < n, ¬Masked env (map (i + 1 + k)) := by
      rw [Nat.forall_lt_succ_left]
      exact and_congr_right fun _ => forall₂_congr fun k _ => by rw [Nat.add_right_comm i 1 k, Nat.add_assoc]
    by_cases hzero : mask = 0
    · rw [hzero, regionMask_zero, ite_self]
    rw [regionMask, if_neg hzero, if_congr (or_congr_right hsplit) rfl rfl]
    by_cases hram : (map i).isRam = true
    · rw [if_neg (by simp [hram])]
      by_cases hbit : mask[0] = true
      · rw [if_neg (not_not.mpr ((not_and_bool_eq_zero _ _).mpr (Or.inl hbit))), ih, if_pos (Or.inl hbit),
          if_pos (Or.inl hbit)]
      · cases hentry : env.entryMask (map i) with
        | true =>
          have hne : ~~~mask &&& (if true then 1 else 0) ≠ 0 := by
            rw [Ne, not_and_bool_eq_zero]
            simp [hbit]
          rw [if_pos hne, regionMask_zero, if_neg]
          simp [hbit, Masked, hram, hentry]
        | false =>
          rw [if_neg (not_not.mpr ((not_and_bool_eq_zero _ _).mpr (Or.inr rfl))), ih]
          simp [Masked, hentry]
    · rw [if_pos (by simp [hram]), ih]
      simp [Masked, hram]

/-- **The one call.** Unless it returns at once, `srat_parse_regions` hands on the initial mask without its low 13 bits,
if bit 0 of it is set or no RAM entry has a region mask, and 0 otherwise. -/
theorem sratParseRegions_log (env : PdxEnv) (e820 : E820Map) (addr : Nat) : (sratParseRegions env e820 addr).log =
    if env.acpiDisabled = true ∨ env.acpiNumaNegative = true ∨ env.acpiTableParse = true then []
    else if (env.pdxInitMask addr)[0] = true ∨ ∀ k < toUnsigned e820.nrMap, ¬Masked env (e820.map k) then
      [env.pdxInitMask addr >>> 13]
    else [0] := by
  have hguard : (env.acpiDisabled || env.acpiNumaNegative || env.acpiTableParse) = true ↔
      env.acpiDisabled = true ∨ env.acpiNumaNegative = true ∨ env.acpiTableParse = true := by
    rw [Bool.or_eq_true, Bool.or_eq_true, or_assoc]
  by_cases h : env.acpiDisabled = true ∨ env.acpiNumaNegative = true ∨ env.acpiTableParse = true
  · rw [sratParseRegions, if_pos (hguard.mpr h), if_pos h]
    rfl
  · rw [sratParseRegions, if_neg (mt hguard.mp h), if_neg h]
    simp only [Logged.log_emit, regionMask_eq, Nat.zero_add]
    split_ifs <;> rfl

end Regions

/-! ## Runs -/

section Runs

variable {env : Env} {s : Srat} {e : SratEvent}

/-- The window of a scan. -/
def SratEvent.window : SratEvent → Option (Span Nat)
  | .scan _ start stop => some ⟨start, stop⟩
  | _ => none

/-- The windows that the run scans, in their order. -/
def windows (es : List SratEvent) : List (Span Nat) := es.filterMap SratEvent.window

/-- A scan of it returns -1 and calls nothing. -/
def ScanRefused (s : Srat) : SratEvent → Prop
  | .scan scanEnv start stop =>
    (acpiScanNodes scanEnv s start stop).val.1 = some (-1) ∧ (acpiScanNodes scanEnv s start stop).log = []
  | _ => True

/-- **A scan while NUMA is off** only clips the nodes. -/
theorem acpiScanNodes_off (scanEnv : ScanEnv) (h : s.acpiNuma ≤ 0) (start stop : Nat) :
    acpiScanNodes scanEnv s start stop = ⟨(some (-1), { s with nodes := clipped s start stop }), []⟩ := by
  rw [acpiScanNodes]
  exact if_pos h

/-- The table of blocks is the same in the two states. -/
structure SameBlocks (s s' : Srat) : Prop where
  count : s'.numNodeMemblks = s.numNodeMemblks
  range : s'.nodeMemblkRange = s.nodeMemblkRange
  nodeid : s'.memblkNodeid = s.memblkNodeid

/-- `bad_srat` switches NUMA off, and leaves blocks and nodes. -/
theorem badSrat_off (s : Srat) :
    (badSrat s).val.acpiNuma ≤ 0 ∧ SameBlocks s (badSrat s).val ∧ (badSrat s).val.nodes = s.nodes := by
  simp only [badSrat, Logged.val_bind, Logged.val_pure]
  exact ⟨by omega, ⟨rfl, rfl, rfl⟩, trivial⟩

/-- **What one event can do** while NUMA is off: it stays off, and the blocks are left. -/
theorem sratStep_off (env : Env) (h : s.acpiNuma ≤ 0) (e : SratEvent) :
    (sratStep env s e).acpiNuma ≤ 0 ∧ SameBlocks s (sratStep env s e) := by
  have hsame : SameBlocks s s := ⟨rfl, rfl, rfl⟩
  obtain ⟨hoff, hblocks, -⟩ := badSrat_off s
  cases e with
  | record r =>
    rcases stepRecord_cases env s r with hr | hr
    · rw [sratStep, hr]
      exact ⟨h, hsame⟩
    · rw [sratStep, hr]
      exact ⟨hoff, hblocks⟩
  | scan scanEnv start stop =>
    simp only [sratStep, acpiScanNodes_off scanEnv h]
    exact ⟨h, rfl, rfl, rfl⟩
  | setupNode pxm => exact ⟨h, rfl, rfl, rfl⟩
  | badSrat => exact ⟨hoff, hblocks⟩

/-- A scan is refused, and clips the nodes of the table to its window; no other event changes a node. -/
theorem sratStep_nodes (h : s.acpiNuma ≤ 0) (e : SratEvent) : (sratStep env s e).nodes =
    e.window.elim s.nodes fun w => clipped s w.lo w.hi := by
  cases e with
  | record r =>
    rcases stepRecord_cases env s r with hr | hr
    · rw [sratStep, hr]
      rfl
    · rw [sratStep, hr]
      exact (badSrat_off s).2.2
  | scan scanEnv start stop =>
    rw [sratStep, acpiScanNodes_off scanEnv h, SratEvent.window, Option.elim_some]
  | setupNode pxm => rfl
  | badSrat => exact (badSrat_off s).2.2

/-- The addresses of a clipped node of the table. -/
theorem clipped_span {i : Nat} (hi : i < maxNumnodes) (start stop : Nat) :
    (clipped s start stop i).span.toSet = (s.nodes i).span.toSet ∩ (⟨start, stop⟩ : Span Nat).toSet := by
  rw [clipped, cutoffNodes_eq, if_pos ⟨Nat.zero_le i, by omega⟩]
  exact cutoffNode_toSet (s.nodes i) start stop

/-- **The nodes after a run** have the addresses that every window left them. -/
theorem foldl_nodes (h : s.acpiNuma ≤ 0) (es : List SratEvent) {i : Nat} (hi : i < maxNumnodes) :
    ((es.foldl (sratStep env) s).nodes i).span.toSet =
      (s.nodes i).span.toSet ∩ {x | ∀ w ∈ windows es, x ∈ w.toSet} := by
  induction es generalizing s with
  | nil => simp [windows]
  | cons e es ih =>
    rw [List.foldl_cons, ih (sratStep_off env h e).1, sratStep_nodes h]
    cases hw : e.window with
    | none => simp [windows, hw]
    | some w =>
      have hwindows : windows (e :: es) = w :: windows es := List.filterMap_cons_some hw
      rw [Option.elim_some, clipped_span hi, hwindows]
      ext x
      simp only [Set.mem_inter_iff, Set.mem_ofPred_eq, List.forall_mem_cons, and_assoc]

/-- A table behind which the nodes are left. -/
theorem foldl_nodes_behind (h : s.acpiNuma ≤ 0) (es : List SratEvent) {i : Nat} (hi : maxNumnodes ≤ i) :
    (es.foldl (sratStep env) s).nodes i = s.nodes i := by
  induction es generalizing s with
  | nil => rfl
  | cons e es ih =>
    rw [List.foldl_cons, ih (sratStep_off env h e).1, sratStep_nodes h]
    cases e.window with
    | none => rfl
    | some w =>
      rw [Option.elim_some, clipped, cutoffNodes_eq, if_neg]
      omega

theorem scanRefused_off (h : s.acpiNuma ≤ 0) (e : SratEvent) : ScanRefused s e := by
  cases e with
  | scan scanEnv start stop =>
    rw [ScanRefused, acpiScanNodes_off scanEnv h]
    exact ⟨rfl, rfl⟩
  | record r => trivial
  | setupNode pxm => trivial
  | badSrat => trivial

/-- The blocks after a run. -/
theorem foldl_blocks (env : Env) (h : s.acpiNuma ≤ 0) (es : List SratEvent) :
    SameBlocks s (es.foldl (sratStep env) s) := by
  have hinv : (es.foldl (sratStep env) s).acpiNuma ≤ 0 ∧ SameBlocks s (es.foldl (sratStep env) s) := by
    refine foldl_inv (Q := fun t => t.acpiNuma ≤ 0 ∧ SameBlocks s t) ?_ ⟨h, rfl, rfl, rfl⟩ es
    rintro t e ⟨hoff, hblocks⟩
    obtain ⟨hoff', hstep⟩ := sratStep_off env hoff e
    exact ⟨hoff', hstep.count.trans hblocks.count, hstep.range.trans hblocks.range, hstep.nodeid.trans hblocks.nodeid⟩
  exact hinv.2

/-! ## Spills -/

/-- The event stores behind `pxm2node`: it reaches `bad_srat`, or it is a call of `setup_node` that leaves the table. -/
def Spills (env : Env) (s : Srat) : SratEvent → Prop
  | .record _ => env.sratDisabled s = false
  | .scan scanEnv start stop => 0 < s.acpiNuma ∧ (acpiScanNodes scanEnv s start stop).val.1 = some (-1)
  | .setupNode pxm => ¬StaysInside s.tables (.setupNode pxm)
  | .badSrat => True

/-- An event, and what its stores behind `pxm2node` make of the globals. -/
structure OffEvent where
  event : SratEvent
  spill : Srat → Srat

/-- One event. -/
def offStep (env : Env) (s : Srat) (e : OffEvent) : Srat := e.spill (sratStep env s e.event)

/-- What the stores can be: none without a spill, and zeros if `bad_srat` makes them. A call of `setup_node` stays in
the table. -/
structure OffLegal (env : Env) (s : Srat) (e : OffEvent) : Prop where
  none : ¬Spills env s e.event → offStep env s e = sratStep env s e.event
  zeros : Spills env s e.event → (∀ pxm, e.event ≠ .setupNode pxm) →
    (offStep env s e).acpiNuma = (sratStep env s e.event).acpiNuma ∨ (offStep env s e).acpiNuma = 0
  inside : ∀ pxm, e.event = .setupNode pxm → ¬Spills env s e.event

/-- **One event** leaves NUMA off, whatever it spills. -/
theorem offStep_off {e : OffEvent} (h : s.acpiNuma ≤ 0) (he : OffLegal env s e) : (offStep env s e).acpiNuma ≤ 0 := by
  obtain ⟨hoff, -⟩ := sratStep_off env h e.event
  by_cases hspill : Spills env s e.event
  · rcases he.zeros hspill (fun pxm hpxm => he.inside pxm hpxm hspill) with hsame | hzero
    · rw [hsame]
      exact hoff
    · rw [hzero]
  · rw [he.none hspill]
    exact hoff

/-- A run that spills nothing. -/
theorem foldl_unspilled {es : List OffEvent} (h : Along (OffLegal env) (offStep env) s es)
    (hnone : Along (fun s e => ¬Spills env s e.event) (offStep env) s es) :
    es.foldl (offStep env) s = (es.map OffEvent.event).foldl (sratStep env) s := by
  induction es generalizing s with
  | nil => rfl
  | cons e es ih =>
    rw [List.foldl_cons, ih h.2 hnone.2, h.1.none hnone.1]
    rfl

/-- **NUMA is off for good**: in every state of the run it is off, and every scan is refused. -/
structure StaysOff (env : Env) (s : Srat) (es : List OffEvent) : Prop where
  off : Throughout (fun t => t.acpiNuma ≤ 0) (offStep env) s es
  scans : Along (fun t e => ScanRefused t e.event) (offStep env) s es

/-- **The tables are left**: the ranges that are valid after the run are the same, and the nodes are only ever
clipped. -/
structure TablesLeft (env : Env) (s : Srat) (es : List OffEvent) : Prop where
  ranges : ∀ start stop node, validNumaRange (es.foldl (offStep env) s) start stop node = 1 ↔
    ∃ i, 0 ≤ i ∧ i < s.numNodeMemblks ∧ Holds s.nodeMemblkRange s.memblkNodeid start stop node i
  nodes : ∀ i < maxNumnodes, ((es.foldl (offStep env) s).nodes i).span.toSet =
    (s.nodes i).span.toSet ∩ {x | ∀ w ∈ windows (es.map OffEvent.event), x ∈ w.toSet}
  behind : ∀ i, maxNumnodes ≤ i → (es.foldl (offStep env) s).nodes i = s.nodes i

end Runs

/-- **NUMA never comes on.** From any state in which it is off, as the zeroed globals are, every run of records, scans
and calls of `setup_node` and `bad_srat` leaves it off, whatever globals `bad_srat` overlays; and one that does not get
there leaves the tables. -/
theorem numa_staysOff (env : Env) (s : Srat) (es : List OffEvent) (h : s.acpiNuma ≤ 0)
    (hlegal : Along (OffLegal env) (offStep env) s es) : StaysOff env s es ∧
      (Along (fun s e => ¬Spills env s e.event) (offStep env) s es → TablesLeft env s es) := by
  have hstep : ∀ t e, t.acpiNuma ≤ 0 → OffLegal env t e → (offStep env t e).acpiNuma ≤ 0 := fun _ _ ht he =>
    offStep_off ht he
  have hscan : ∀ (t : Srat) (e : OffEvent), t.acpiNuma ≤ 0 → OffLegal env t e → ScanRefused t e.event := fun _ e ht _ =>
    scanRefused_off ht e.event
  refine ⟨⟨throughout_of_along hstep h hlegal, Along.of_inv hstep hscan h hlegal⟩, fun hnone => ?_⟩
  have hrun := foldl_unspilled hlegal hnone
  constructor
  · intro start stop node
    obtain ⟨hcount, hrange, hnodeid⟩ := foldl_blocks env h (es.map OffEvent.event)
    rw [hrun, validNumaRange_iff, hcount, hrange, hnodeid]
  · intro i hi
    rw [hrun]
    exact foldl_nodes h _ hi
  · intro i hi
    rw [hrun]
    exact foldl_nodes_behind h _ hi

/-- A domain, a CPU record whose `bad_srat` clears the number of blocks, a memory record and a scan. -/
def bootRecords : List OffEvent :=
  [⟨.setupNode 0, id⟩, ⟨.record (.cpu (.x2apic ⟨1, 0, 1⟩)), fun s => { s with numNodeMemblks := 0 }⟩,
    ⟨.record (.memory ⟨1, 0, 4096, 1⟩), id⟩, ⟨.scan oneNode.1 0 8192, id⟩]

theorem numa_staysOff_boot : StaysOff plainEnv (start 2) bootRecords ∧
    (Along (fun s e => ¬Spills plainEnv s e.event) (offStep plainEnv) (start 2) bootRecords →
      TablesLeft plainEnv (start 2) bootRecords) :=
  numa_staysOff plainEnv (start 2) bootRecords (le_refl 0)
    ⟨⟨fun _ => rfl, fun _ h => absurd rfl (h 0), fun _ _ h => h ⟨Or.inl (by decide), Or.inr ⟨0, by decide, rfl⟩⟩⟩,
      ⟨fun h => absurd rfl h, fun _ _ => Or.inl rfl, fun _ h => by cases h⟩,
      ⟨fun _ => rfl, fun _ _ => Or.inl rfl, fun _ h => by cases h⟩,
      ⟨fun _ => rfl, fun _ _ => Or.inl rfl, fun _ h => by cases h⟩, trivial⟩

end Xen.Numa
