import Mathlib.Data.Nat.Find
import Mathlib.Order.Bounds.Defs
import Xen.Amd.Resume

/-!
# The search in the table of equivalent CPUs (`microcode_amd_verified.c`)

- `installEquivCpuTable`: `install_equiv_cpu_table`, which records the size of the table.
- `find_equiv_cpu_id` does not look at that size: it stops at an entry that is zero or has the CPU's id (`StopsEntry`).
  `findEquivCpuId_inside_iff`: it ends inside the table exactly if there is such an entry; `equiv_search_iff` says so of
  a table as it was installed and the search of `microcode_fits`.
- `findEquivCpuIdOut` is the search with `*equiv_cpu_id` (`findEquivCpuIdOut_eq`). In a table with a zero entry it finds
  the first of the CPU's entries before that one (`findEquivCpuIdOut_ok`).
-/

namespace Xen.Amd

open Lib

/-! ## `install_equiv_cpu_table` -/

/-- `install_equiv_cpu_table`: the return code, the structure and `*offset` afterwards. `data + *offset + 4` counts
headers. -/
def installEquivCpuTable (mc : MicrocodeAmd) (data : Bytes) (offset : Nat) :
    Logged (MemOp Obj) (Int × MicrocodeAmd × Nat) := do
  let mpbuf := mpbhdrSize * (offset + 4)
  let len ← load .buf data (mpbuf + 4) 4
  let offset := (offset + len + 12) % 2 ^ 32
  let type ← load .buf data mpbuf 4
  if type ≠ 0 then
    return (-101, mc, offset)
  let len ← load .buf data (mpbuf + 4) 4
  if len = 0 then
    return (-101, mc, offset)
  if mc.equivCpuTable = 0 then
    return (-1, mc, offset)
  let len ← load .buf data (mpbuf + 4) 4
  return (0, { mc with equivCpuTableSize := len }, offset)

/-- The length word that it reads. -/
def tableLen (data : Bytes) (offset : Nat) : Nat := leWord data (mpbhdrSize * (offset + 4) + 4) 4

/-- **A table that is installed** is there, and its size is the length read. -/
theorem installed_of_ret {mc : MicrocodeAmd} {data : Bytes} {offset : Nat}
    (h : (installEquivCpuTable mc data offset).val.1 = 0) : mc.equivCpuTable ≠ 0 ∧
      (installEquivCpuTable mc data offset).val.2.1 = { mc with equivCpuTableSize := tableLen data offset } := by
  simp only [installEquivCpuTable, Logged.val_bind, Logged.val_ite, Logged.val_pure, val_load] at h ⊢
  split_ifs at h ⊢ with htype hlen htable
  · simp at h
  · simp at h
  · simp at h
  · exact ⟨htable, rfl⟩

/-! ## `find_equiv_cpu_id` -/

/-- `equiv_cpu_table[i].installed_cpu`. -/
def installedCpu (b : Bytes) (i : Nat) : Nat := leWord b (Fld.entrySize * i) 4

theorem leWord_entry (b : Bytes) (i : Nat) : leWord b (Fld.entrySize * i) 4 = installedCpu b i := rfl

/-- The search stops at entry `i`. -/
def StopsEntry (b : Bytes) (currentCpuId i : Nat) : Prop := installedCpu b i = 0 ∨ currentCpuId = installedCpu b i

instance (b : Bytes) (currentCpuId : Nat) : DecidablePred (StopsEntry b currentCpuId) := fun i =>
  inferInstanceAs (Decidable (installedCpu b i = 0 ∨ currentCpuId = installedCpu b i))

/-- The access reads a field of entry `i`. -/
def ReadsEntry (table i : Nat) (op : MemOp Nat) : Prop :=
  op = .read table (Fld.entrySize * i) 4 ∨ op = .read table (Fld.entrySize * i + Fld.equivCpu) 2

/-- The entry whose `installed_cpu` is read. -/
theorem ReadsEntry.eq_of_installedCpu {table i u : Nat} (h : ReadsEntry table i (.read table (Fld.entrySize * u) 4)) :
    u = i := by
  rcases h with heq | heq
  · simp only [MemOp.read.injEq, Fld.entrySize] at heq
    omega
  · simp at heq

/-- The access reads an entry that lies in the first `size` bytes. -/
def EntryInside (table size : Nat) (op : MemOp Nat) : Prop :=
  ∃ i, Fld.entrySize * (i + 1) ≤ size ∧ ReadsEntry table i op

section Search

variable {table size currentCpuId i n fuel : Nat} {b : Bytes}

variable (table) in
/-- An iteration at an entry where the search stops. -/
theorem findEquivStep_stop (h : StopsEntry b currentCpuId i) :
    ∃ r, (findEquivStep table b currentCpuId i).val = .leave r := by
  by_cases h0 : installedCpu b i = 0
  · exact ⟨none, by simp [findEquivStep, leWord_entry, h0]⟩
  · have hid : currentCpuId = installedCpu b i := h.resolve_left h0
    exact ⟨some (leWord b (Fld.entrySize * i + Fld.equivCpu) 2), by simp [findEquivStep, leWord_entry, hid, h0]⟩

variable (table) in
/-- An iteration at another entry. -/
theorem findEquivStep_next (h : ¬StopsEntry b currentCpuId i) :
    (findEquivStep table b currentCpuId i).val = .next ((i + 1) % 2 ^ 32) := by
  obtain ⟨h0, hid⟩ := not_or.mp h
  simp [findEquivStep, leWord_entry, h0, hid]

/-- An iteration reads its entry, and `installed_cpu` in any case. -/
theorem findEquivStep_reads (table : Nat) (b : Bytes) (currentCpuId i : Nat) :
    (findEquivStep table b currentCpuId i).Only (ReadsEntry table i) ∧
      MemOp.read table (Fld.entrySize * i) 4 ∈ (findEquivStep table b currentCpuId i).log := by
  have hcpu : ReadsEntry table i (.read table (Fld.entrySize * i) 4) := Or.inl rfl
  have hequiv : ReadsEntry table i (.read table (Fld.entrySize * i + Fld.equivCpu) 2) := Or.inr rfl
  constructor
  · simp only [findEquivStep, Logged.only_bind, only_load, Logged.only_ite, Logged.only_pure, hcpu, hequiv, and_self,
      implies_true]
  · simp [findEquivStep, load]

/-- The first entry at which the search stops, if it stops at all. -/
theorem exists_first_stop (h : StopsEntry b currentCpuId i) :
    ∃ n ≤ i, StopsEntry b currentCpuId n ∧ ∀ j < n, ¬StopsEntry b currentCpuId j :=
  have hex : ∃ i, StopsEntry b currentCpuId i := ⟨i, h⟩
  ⟨Nat.find hex, Nat.find_min' hex h, Nat.find_spec hex, fun _ => Nat.find_min hex⟩

variable (table) in
/-- **The search**, where the first entry at which it stops is the `n`th. -/
theorem findEquivLoop_ok (hstop : StopsEntry b currentCpuId n) (hbefore : ∀ j < n, ¬StopsEntry b currentCpuId j)
    (hwrap : n < 2 ^ 32) (hf : n < fuel) :
    (∃ r, (loop (findEquivStep table b currentCpuId) fuel 0).val = some r) ∧
      (loop (findEquivStep table b currentCpuId) fuel 0).Only fun op => ∃ j ≤ n, ReadsEntry table j op := by
  have hnext : ∀ j < n, (findEquivStep table b currentCpuId j).val = .next (j + 1) := by
    intro j hj
    rw [findEquivStep_next table (hbefore j hj), Nat.mod_eq_of_lt (by omega)]
  obtain ⟨r, hleave⟩ := findEquivStep_stop table hstop
  obtain ⟨hval, hlog⟩ := loop_through (f := fun j => j) hnext hleave hf
  refine ⟨⟨r, hval⟩, fun op hop => ?_⟩
  obtain ⟨j, hj, hop⟩ := hlog op hop
  exact ⟨j, hj, (findEquivStep_reads table b currentCpuId j).1 op hop⟩

/-- **What the search needs.** It ends and reads only entries inside the first `size` bytes exactly if it stops at one
of them. -/
theorem findEquivCpuId_inside_iff (htable : table ≠ 0) (hsize : size < 2 ^ 32) :
    ((findEquivCpuId table b currentCpuId).val ≠ none ∧
      (findEquivCpuId table b currentCpuId).Only (EntryInside table size)) ↔
      ∃ i, Fld.entrySize * (i + 1) ≤ size ∧ StopsEntry b currentCpuId i := by
  rw [findEquivCpuId, if_neg htable]
  constructor
  · rintro ⟨hends, hinside⟩
    obtain ⟨r, hr⟩ := Option.ne_none_iff_exists'.mp hends
    obtain ⟨u, hu, hleave, -⟩ := loop_exit hr
    -- the entry where it stops is read, so it is inside
    have hread := (loop_mem_log hr _).mpr ⟨u, hu, (findEquivStep_reads table b currentCpuId u).2⟩
    obtain ⟨i, hi, hentry⟩ := hinside _ hread
    obtain rfl := hentry.eq_of_installedCpu
    refine ⟨u, hi, ?_⟩
    by_contra hstop
    rw [findEquivStep_next table hstop] at hleave
    cases hleave
  · rintro ⟨i, hi, hstop⟩
    obtain ⟨n, hle, hfirst, hbefore⟩ := exists_first_stop hstop
    unfold Fld.entrySize at hi
    obtain ⟨⟨r, hr⟩, hreads⟩ := findEquivLoop_ok table hfirst hbefore (by omega) (by omega : _ < 2 ^ 32)
    constructor
    · rw [hr]
      exact Option.some_ne_none r
    · intro op hop
      obtain ⟨j, hj, hentry⟩ := hreads op hop
      refine ⟨j, ?_, hentry⟩
      unfold Fld.entrySize
      omega

end Search

/-! ## The search of `microcode_fits` -/

/-- **What the search owes**: `microcode_fits` comes to an end, and its search reads only entries inside the table. -/
structure SearchInside (x86 : Nat) (cpu : Cpu) (src currentCpuId : Nat) : Prop where
  ends : (microcodeFits x86 cpu src currentCpuId).val ≠ none
  inside : (findEquivCpuId (cpu.mem.mcAmd src).equivCpuTable (cpu.mem.bytes (cpu.mem.mcAmd src).equivCpuTable)
    currentCpuId).Only (EntryInside (cpu.mem.mcAmd src).equivCpuTable (cpu.mem.mcAmd src).equivCpuTableSize)

/-- `microcode_fits` comes to an end if its search does. -/
theorem microcodeFits_ends_iff (x86 : Nat) (cpu : Cpu) (src currentCpuId : Nat) :
    (microcodeFits x86 cpu src currentCpuId).val ≠ none ↔
      (findEquivCpuId (cpu.mem.mcAmd src).equivCpuTable (cpu.mem.bytes (cpu.mem.mcAmd src).equivCpuTable)
        currentCpuId).val ≠ none := by
  match hfind : (findEquivCpuId (cpu.mem.mcAmd src).equivCpuTable (cpu.mem.bytes (cpu.mem.mcAmd src).equivCpuTable)
      currentCpuId).val with
  | none => simp [microcodeFits, hfind]
  | some none => simp [microcodeFits, hfind]
  | some (some equivCpuId) =>
    simp only [microcodeFits, Logged.val_bind, hfind]
    split_ifs <;> simp

/-- A table of `size` bytes, which is there. -/
theorem searchInside_iff {x86 src currentCpuId : Nat} {cpu : Cpu} (htable : (cpu.mem.mcAmd src).equivCpuTable ≠ 0)
    (hsize : (cpu.mem.mcAmd src).equivCpuTableSize < 2 ^ 32) :
    SearchInside x86 cpu src currentCpuId ↔
      ∃ i, Fld.entrySize * (i + 1) ≤ (cpu.mem.mcAmd src).equivCpuTableSize ∧
        StopsEntry (cpu.mem.bytes (cpu.mem.mcAmd src).equivCpuTable) currentCpuId i := by
  rw [← findEquivCpuId_inside_iff htable hsize, ← microcodeFits_ends_iff x86]
  constructor
  · rintro ⟨hends, hinside⟩
    exact ⟨hends, hinside⟩
  · rintro ⟨hends, hinside⟩
    exact ⟨hends, hinside⟩

/-- **The search in an installed table**, whatever it contains, ends and stays inside exactly if an entry that lies in
the table is zero or has the CPU's id. -/
theorem equiv_search_iff (mc : MicrocodeAmd) (data : Bytes) (offset x86 : Nat) (cpu : Cpu) (src currentCpuId : Nat)
    (hret : (installEquivCpuTable mc data offset).val.1 = 0)
    (hmc : cpu.mem.mcAmd src = (installEquivCpuTable mc data offset).val.2.1) :
    SearchInside x86 cpu src currentCpuId ↔
      ∃ i, Fld.entrySize * (i + 1) ≤ tableLen data offset ∧
        StopsEntry (cpu.mem.bytes mc.equivCpuTable) currentCpuId i := by
  obtain ⟨htable, hinst⟩ := installed_of_ret hret
  rw [hinst] at hmc
  have hlen : tableLen data offset < 2 ^ 32 := leWord_lt _ _ _
  rw [searchInside_iff, hmc]
  · rw [hmc]
    exact htable
  · rw [hmc]
    exact hlen

/-- A file with a table of `len` bytes. -/
def tableFile (len : UInt8) : Bytes := fun i => if i = 36 then len else 0

/-- A CPU with the installed structure at 1 and the table at 2, whose first entry is of CPU 1. -/
def cpuOne (len : UInt8) : Cpu :=
  ⟨⟨fun _ => (installEquivCpuTable ⟨0, 0, 2, 0⟩ (tableFile len) 0).val.2.1, fun _ i => if i = 0 then 1 else 0⟩, 0, 1⟩

/-- A table whose only entry is of CPU 1, and CPU 3. -/
theorem equiv_search_counterexample :
    ¬ ∀ (mc : MicrocodeAmd) (data : Bytes) (offset x86 : Nat) (cpu : Cpu) (src currentCpuId : Nat),
      (installEquivCpuTable mc data offset).val.1 = 0 →
      cpu.mem.mcAmd src = (installEquivCpuTable mc data offset).val.2.1 → SearchInside x86 cpu src currentCpuId := by
  intro h
  have hsearch := h ⟨0, 0, 2, 0⟩ (tableFile 16) 0 0 (cpuOne 16) 1 3 (by decide +kernel) rfl
  obtain ⟨i, hi, hstop⟩ := (searchInside_iff (by decide +kernel) (by decide +kernel)).mp hsearch
  have hi0 : i = 0 := by
    have hlen : ((cpuOne 16).mem.mcAmd 1).equivCpuTableSize = 16 := by decide +kernel
    rw [hlen] at hi
    unfold Fld.entrySize at hi
    omega
  subst hi0
  exact absurd hstop (by decide +kernel)

/-- With an entry of zeros behind it. -/
theorem equiv_search_zero : SearchInside 0 (cpuOne 32) 1 3 :=
  (equiv_search_iff ⟨0, 0, 2, 0⟩ (tableFile 32) 0 0 (cpuOne 32) 1 3 (by decide +kernel) rfl).mpr
    ⟨1, by decide +kernel, Or.inl (by decide +kernel)⟩

/-! ## What the search returns -/

/-- `findEquivStep` with `*equiv_cpu_id`, on the index and that. Where it leaves, it has the return value too. -/
def findEquivOutStep (table : Nat) (b : Bytes) (currentCpuId : Nat) (s : Nat × Nat) :
    Logged (MemOp Nat) (Iter (Nat × Nat) (Bool × Nat)) := do
  let i := s.1
  let equivCpuId := s.2
  let installedCpu ← load table b (Fld.entrySize * i) 4
  if installedCpu = 0 then
    return .leave (false, equivCpuId)
  if currentCpuId = installedCpu then
    let equivCpu ← load table b (Fld.entrySize * i + Fld.equivCpu) 2
    return .leave (true, equivCpu &&& 0xffff)
  return .next ((i + 1) % 2 ^ 32, equivCpuId)

/-- `find_equiv_cpu_id`: the return value and `*equiv_cpu_id` afterwards, or `none` if it never returns. -/
def findEquivCpuIdOut (table : Nat) (b : Bytes) (currentCpuId equivCpuId : Nat) :
    Logged (MemOp Nat) (Option (Bool × Nat)) :=
  if table = 0 then pure (some (false, equivCpuId))
  else loop (findEquivOutStep table b currentCpuId) (2 ^ 32) (0, equivCpuId)

/-- `equiv_cpu_table[i].equiv_cpu`. -/
def equivCpu (b : Bytes) (i : Nat) : Nat := leWord b (Fld.entrySize * i + Fld.equivCpu) 2

theorem leWord_equivCpu (b : Bytes) (i : Nat) : leWord b (Fld.entrySize * i + Fld.equivCpu) 2 = equivCpu b i := rfl

/-- The entries with the CPU's id that lie before the first zero entry. -/
def MatchingEntries (b : Bytes) (currentCpuId : Nat) : Set Nat :=
  {i | installedCpu b i = currentCpuId ∧ ∀ j ≤ i, installedCpu b j ≠ 0}

/-- **The result** is 1 if there is such an entry, with the `equiv_cpu` of the first one, and else 0. -/
structure FindEquivOk (b : Bytes) (currentCpuId equivCpuId : Nat) (r : Bool × Nat) : Prop where
  found : r.1 = true ↔ ∃ i, i ∈ MatchingEntries b currentCpuId
  first : ∀ i, IsLeast (MatchingEntries b currentCpuId) i → r.2 = equivCpu b i
  unchanged : r.1 = false → r.2 = equivCpuId

section Result

variable {b : Bytes} {currentCpuId equivCpuId i n : Nat}

/-- An entry of two bytes is not changed by the mask. -/
theorem equivCpu_and (b : Bytes) (i : Nat) : equivCpu b i &&& 0xffff = equivCpu b i := by
  have hlt : equivCpu b i < 2 ^ 16 := leWord_lt _ _ 2
  have hmask : (0xffff : Nat) = 2 ^ 16 - 1 := rfl
  rw [hmask, Nat.and_two_pow_sub_one_eq_mod, Nat.mod_eq_of_lt hlt]

section Step

variable (table : Nat)

/-- An iteration at a zero entry. -/
theorem findEquivOutStep_zero (h : installedCpu b i = 0) :
    (findEquivOutStep table b currentCpuId (i, equivCpuId)).val = .leave (false, equivCpuId) := by
  simp [findEquivOutStep, leWord_entry, h]

/-- An iteration at an entry with the CPU's id. -/
theorem findEquivOutStep_match (h0 : installedCpu b i ≠ 0) (h : installedCpu b i = currentCpuId) :
    (findEquivOutStep table b currentCpuId (i, equivCpuId)).val = .leave (true, equivCpu b i) := by
  have hid : currentCpuId = installedCpu b i := h.symm
  simp only [findEquivOutStep, Logged.val_bind, val_load, leWord_entry, leWord_equivCpu, if_neg h0, if_pos hid,
    Logged.val_pure, equivCpu_and]

/-- An iteration at another entry. -/
theorem findEquivOutStep_next (h : ¬StopsEntry b currentCpuId i) :
    (findEquivOutStep table b currentCpuId (i, equivCpuId)).val = .next ((i + 1) % 2 ^ 32, equivCpuId) := by
  obtain ⟨h0, hid⟩ := not_or.mp h
  simp [findEquivOutStep, leWord_entry, h0, hid]

end Step

/-- An iteration and the same one with `*equiv_cpu_id`. -/
theorem findEquivOutStep_eq (table : Nat) (b : Bytes) (currentCpuId i equivCpuId : Nat) :
    (findEquivOutStep table b currentCpuId (i, equivCpuId)).val = match (findEquivStep table b currentCpuId i).val with
      | .next j => .next (j, equivCpuId)
      | .leave r => .leave (r.isSome, r.getD equivCpuId) := by
  by_cases hstop : StopsEntry b currentCpuId i
  · by_cases h0 : installedCpu b i = 0
    · rw [findEquivOutStep_zero table h0]
      simp [findEquivStep, leWord_entry, h0]
    · have hid := hstop.resolve_left h0
      rw [findEquivOutStep_match table h0 hid.symm]
      simp [findEquivStep, leWord_entry, leWord_equivCpu, hid, h0]
  · rw [findEquivOutStep_next table hstop, findEquivStep_next table hstop]

/-- **The search of `microcode_fits`** is this one. -/
theorem findEquivCpuIdOut_eq (table : Nat) (b : Bytes) (currentCpuId equivCpuId : Nat) :
    (findEquivCpuIdOut table b currentCpuId equivCpuId).val =
      (findEquivCpuId table b currentCpuId).val.map fun r => (r.isSome, r.getD equivCpuId) := by
  have hloop : ∀ fuel i, (loop (findEquivOutStep table b currentCpuId) fuel (i, equivCpuId)).val =
      (loop (findEquivStep table b currentCpuId) fuel i).val.map fun r => (r.isSome, r.getD equivCpuId) := by
    intro fuel
    induction fuel with
    | zero => exact fun i => rfl
    | succ fuel ih =>
      intro i
      have hstep := findEquivOutStep_eq table b currentCpuId i equivCpuId
      cases hi : (findEquivStep table b currentCpuId i).val with
      | next j =>
        rw [hi] at hstep
        rw [loop_next hstep, loop_next hi]
        exact ih j
      | leave r =>
        rw [hi] at hstep
        rw [loop_leave hstep, loop_leave hi]
        rfl
  unfold findEquivCpuIdOut findEquivCpuId
  split_ifs with htable
  · rfl
  · exact hloop _ 0

/-- The search does not stop before an entry with the CPU's id. -/
theorem MatchingEntries.le (h : i ∈ MatchingEntries b currentCpuId) (hbefore : ∀ j < n, ¬StopsEntry b currentCpuId j) :
    n ≤ i := by
  by_contra hlt
  exact hbefore i (Nat.lt_of_not_le hlt) (Or.inr h.1.symm)

/-- It stops at a zero entry. -/
theorem findEquivOk_zero (hbefore : ∀ j < n, ¬StopsEntry b currentCpuId j) (h0 : installedCpu b n = 0) :
    FindEquivOk b currentCpuId equivCpuId (false, equivCpuId) := by
  have hnone : ∀ i, i ∉ MatchingEntries b currentCpuId := by
    intro i hi
    exact hi.2 n (MatchingEntries.le hi hbefore) h0
  constructor
  · apply iff_of_false
    · exact Bool.false_ne_true
    · rintro ⟨i, hi⟩
      exact hnone i hi
  · intro i hi
    exact absurd hi.1 (hnone i)
  · exact fun _ => rfl

/-- It stops at an entry with the CPU's id, which is the first one. -/
theorem findEquivOk_match (hbefore : ∀ j < n, ¬StopsEntry b currentCpuId j) (h0 : installedCpu b n ≠ 0)
    (h : installedCpu b n = currentCpuId) : FindEquivOk b currentCpuId equivCpuId (true, equivCpu b n) := by
  have hmem : n ∈ MatchingEntries b currentCpuId := by
    refine ⟨h, fun j hj => ?_⟩
    rcases Nat.lt_or_eq_of_le hj with hlt | rfl
    · exact fun hj0 => hbefore j hlt (Or.inl hj0)
    · exact h0
  constructor
  · exact iff_of_true rfl ⟨n, hmem⟩
  · intro i hi
    have hin : i = n := Nat.le_antisymm (hi.2 hmem) (MatchingEntries.le hi.1 hbefore)
    rw [hin]
  · intro hfalse
    cases hfalse

/-- **The search** in a table with a zero entry, at an index that an `unsigned int` reaches. -/
theorem findEquivCpuIdOut_ok (table : Nat) (b : Bytes) (currentCpuId equivCpuId : Nat) (htable : table ≠ 0)
    (hzero : ∃ i < 2 ^ 32, installedCpu b i = 0) :
    ∃ r, (findEquivCpuIdOut table b currentCpuId equivCpuId).val = some r ∧
      FindEquivOk b currentCpuId equivCpuId r := by
  obtain ⟨z, hz, hz0⟩ := hzero
  have hend : StopsEntry b currentCpuId z := Or.inl hz0
  obtain ⟨n, hnz, hstop, hbefore⟩ := exists_first_stop hend
  have hn : n < 2 ^ 32 := Nat.lt_of_le_of_lt hnz hz
  -- the index does not wrap before the search stops
  have hnext : ∀ j < n, (findEquivOutStep table b currentCpuId (j, equivCpuId)).val = .next (j + 1, equivCpuId) := by
    intro j hj
    rw [findEquivOutStep_next table (hbefore j hj), Nat.mod_eq_of_lt (by omega)]
  rw [findEquivCpuIdOut, if_neg htable]
  by_cases h0 : installedCpu b n = 0
  · have hleave : (findEquivOutStep table b currentCpuId (n, equivCpuId)).val = .leave (false, equivCpuId) :=
      findEquivOutStep_zero table h0
    have hrun := loop_through (f := fun j => (j, equivCpuId)) hnext hleave hn
    exact ⟨_, hrun.1, findEquivOk_zero hbefore h0⟩
  · have hid := (hstop.resolve_left h0).symm
    have hleave : (findEquivOutStep table b currentCpuId (n, equivCpuId)).val = .leave (true, equivCpu b n) :=
      findEquivOutStep_match table h0 hid
    have hrun := loop_through (f := fun j => (j, equivCpuId)) hnext hleave hn
    exact ⟨_, hrun.1, findEquivOk_match hbefore h0 hid⟩

end Result

/-- A table with entries of the CPUs 3 and 1, and a zero entry behind them. -/
def twoEntries : Bytes := fun i => if i = 0 then 3 else if i = 16 then 1 else if i = 28 then 9 else 0

/-- The search for CPU 1. -/
theorem findEquivCpuIdOut_two : ∃ r, (findEquivCpuIdOut 2 twoEntries 1 0).val = some r ∧ FindEquivOk twoEntries 1 0 r :=
  findEquivCpuIdOut_ok 2 twoEntries 1 0 (by omega) ⟨2, by omega, by decide⟩

end Xen.Amd
