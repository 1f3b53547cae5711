import Xen.Lib.Memory
import Xen.Numa.Affinity

/-!
# The table of distances (`srat_verified.c`)

- `slitValid`: `slit_valid`; it accepts exactly the tables with 10 on the diagonal and more elsewhere
  (`slitValid_iff`). Up to 65536 localities it looks at the entries of the table and at no other (`slitValid_exact`).
- `acpiNumaSlitInit` and `nodeDistance`: the callback and the lookup. The callback does not ask `slit_valid`, and its
  `memcpy` gets the target by value, so that what it installs is what the new page held. The lookup does not set the
  start of the row.
- `slitUse_iff`: when the tables are used as they should be, depending on the page, on what lies behind `acpi_slit` and
  on the uninitialised local; `slitUse_unsure`: none is whatever these are.

The struct has 16 bytes and declares one entry. The entries 1, 2 and 3 are the storage of its other fields, those from 4
on lie behind it. The functions of the boot allocator are parameters, and so is the uninitialised `index`.
-/

namespace Xen.Numa

open Lib

/-! ## Data model -/

/-- `struct acpi_table_slit`, by the words from its start on. -/
structure AcpiTableSlit where
  entry : Nat → Nat

namespace AcpiTableSlit

/-- The byte after the declared entry; three bytes of padding follow. -/
def valid (slit : AcpiTableSlit) : Bool := slit.entry 1 % 256 != 0

/-- Word 2 is `header`. -/
def localityCount (slit : AcpiTableSlit) : Nat := slit.entry 3

/-- An assignment copies the 16 bytes of the struct and nothing that lies behind. -/
def assign (target source : AcpiTableSlit) : AcpiTableSlit :=
  ⟨fun k => if k < 4 then source.entry k else target.entry k⟩

end AcpiTableSlit

def numaNoDistance : Nat := 0

/-- The functions with which the callback gets a page. -/
structure BootMemory where
  pfnUp : Nat → Int
  allocBootPages : Int → Int → Nat
  mfnX : Int → Int
  mfnToVirt : Int → AcpiTableSlit

/-! ## The functions -/

/-- The inner loop of `slit_valid`, over `n` entries of row `i` from `j` on. -/
def slitRow (entry : Nat → Nat) (d i : Nat) : (n j : Nat) → Bool
  | 0, _ => true
  | n + 1, j =>
    let val := entry ((d * i + j) % 2 ^ 32)
    if i = j then
      if val ≠ 10 then false else slitRow entry d i n (j + 1)
    else if val ≤ 10 then false
    else slitRow entry d i n (j + 1)

/-- The outer loop, over `n` rows from `i` on. -/
def slitRows (entry : Nat → Nat) (d : Nat) : (n i : Nat) → Bool
  | 0, _ => true
  | n + 1, i => if slitRow entry d i d 0 then slitRows entry d n (i + 1) else false

/-- `slit_valid`. -/
def slitValid (slit : AcpiTableSlit) : Bool :=
  let d := slit.localityCount
  slitRows slit.entry d d 0

/-- The struct at the start of the page the callback allocates. -/
def BootMemory.page (m : BootMemory) : AcpiTableSlit :=
  let mfn := int32 (m.allocBootPages (m.pfnUp sizeofHeader) 1)
  m.mfnToVirt (m.mfnX mfn)

/-- `acpi_numa_slit_init`: `acpi_slit` afterwards. -/
def acpiNumaSlitInit (m : BootMemory) (acpiSlit _slit : AcpiTableSlit) : AcpiTableSlit :=
  -- `memcpy` gets a copy of `acpi_slit`
  acpiSlit.assign m.page

/-- The end of `__node_distance`: the distance an entry stands for. -/
def entryDistance (slitVal : Nat) : Nat := if slitVal = 0xff ∨ slitVal ≤ 9 then numaNoDistance else slitVal

/-- `__node_distance`. -/
def nodeDistance (s : Tables) (acpiSlit : AcpiTableSlit) (index a b : Nat) : Nat :=
  if acpiSlit.valid = false then
    if a = b then 10 else 20
  else
    entryDistance (acpiSlit.entry ((index + (nodeToPxm sizeofPxm2node s (int32 b)).val) % 2 ^ 32))

/-! ## Validation -/

/-- What an entry is in a valid table: 10 on the diagonal, more elsewhere. -/
def EntryOk (entry : Nat → Nat) (d i j : Nat) : Prop :=
  if i = j then entry ((d * i + j) % 2 ^ 32) = 10 else 10 < entry ((d * i + j) % 2 ^ 32)

theorem slitRow_iff (entry : Nat → Nat) (d i : Nat) {n j : Nat} :
    slitRow entry d i n j = true ↔ ∀ k, j ≤ k → k < j + n → EntryOk entry d i k := by
  induction n generalizing j with
  | zero =>
    apply iff_of_true rfl
    intro k h1 h2
    omega
  | succ n ih =>
    have hrow : slitRow entry d i (n + 1) j = true ↔ EntryOk entry d i j ∧ slitRow entry d i n (j + 1) = true := by
      unfold EntryOk
      by_cases hd : i = j <;> simp [slitRow, hd]
    rw [hrow, ih, forall_from_succ]

theorem slitRows_iff (entry : Nat → Nat) (d : Nat) {n i : Nat} : slitRows entry d n i = true ↔
    ∀ k, i ≤ k → k < i + n → ∀ j < d, EntryOk entry d k j := by
  induction n generalizing i with
  | zero =>
    apply iff_of_true rfl
    intro k h1 h2
    omega
  | succ n ih =>
    have hrow : slitRow entry d i d 0 = true ↔ ∀ j < d, EntryOk entry d i j := by
      rw [slitRow_iff]
      simp
    have hrows : slitRows entry d (n + 1) i = true ↔
        (∀ j < d, EntryOk entry d i j) ∧ slitRows entry d n (i + 1) = true := by
      rw [← hrow]
      simp [slitRows]
    rw [hrows, ih, forall_from_succ]

/-- **Validation.** The loops accept the tables with 10 on the diagonal and more elsewhere. -/
theorem slitValid_iff (entry : Nat → Nat) (d : Nat) : slitRows entry d d 0 = true ↔
    ∀ i < d, ∀ j < d, EntryOk entry d i j := by
  rw [slitRows_iff]
  simp

/-! ## Use -/

/-- The node is registered. -/
def Registered (s : Tables) (n : Nat) : Prop := n ≠ numaNoNode ∧ ∃ i < maxNumnodes, (s.pxm2node i).node = n

/-- The distance without a table. -/
def localDistance (a b : Nat) : Nat := if a = b then 10 else 20

/-- The distance the table says: that of the entry in the row of `a` and the column of `b`. -/
def slitDistance (s : Tables) (slit : AcpiTableSlit) (a b : Nat) : Nat :=
  entryDistance (slit.entry ((slit.localityCount * (nodeToPxm sizeofPxm2node s (int32 a)).val +
    (nodeToPxm sizeofPxm2node s (int32 b)).val) % 2 ^ 32))

/-- **How a table is to be used.** A table that is rejected is not installed and the distances stay as without one,
one that is accepted gives the distances. `acpiSlit` is what lies in memory from the global on. -/
structure SlitUseOk (m : BootMemory) (acpiSlit : AcpiTableSlit) (index : Nat) (s : Tables) (slit : AcpiTableSlit)
    (a b : Nat) : Prop where
  rejected : slitValid slit = false → (acpiNumaSlitInit m acpiSlit slit).valid = false ∧
    nodeDistance s (acpiNumaSlitInit m acpiSlit slit) index a b = localDistance a b
  accepted : slitValid slit = true →
    nodeDistance s (acpiNumaSlitInit m acpiSlit slit) index a b = slitDistance s slit a b

section Use

variable {m : BootMemory} {index a b : Nat} {s : Tables} {acpiSlit slit : AcpiTableSlit}

/-- Where the entry for `b` is looked up. -/
def lookupAt (s : Tables) (index b : Nat) : Nat := (index + (nodeToPxm sizeofPxm2node s (int32 b)).val) % 2 ^ 32

/-- The entry that is looked up: of the page if the struct has it, else of what lies behind `acpi_slit`. -/
def entryFound (m : BootMemory) (acpiSlit : AcpiTableSlit) (k : Nat) : Nat :=
  if k < 4 then m.page.entry k else acpiSlit.entry k

theorem nodeDistance_none (h : m.page.valid = false) :
    nodeDistance s (acpiNumaSlitInit m acpiSlit slit) index a b = localDistance a b := if_pos h

theorem nodeDistance_page (h : m.page.valid = true) :
    nodeDistance s (acpiNumaSlitInit m acpiSlit slit) index a b =
      entryDistance (entryFound m acpiSlit (lookupAt s index b)) := by
  have hvalid : (acpiNumaSlitInit m acpiSlit slit).valid = true := h
  exact if_neg (by simp [hvalid])

end Use

/-- **When a table is used so.** If the new page happens to hold no table, unless this one is accepted and gives the two
nodes another distance; or if the page holds a table where the uninitialised local happens to point at the distance that
this one gives. -/
theorem slitUse_iff (m : BootMemory) (acpiSlit : AcpiTableSlit) (index : Nat) (s : Tables) (slit : AcpiTableSlit)
    (a b : Nat) : SlitUseOk m acpiSlit index s slit a b ↔
      m.page.valid = false ∧ (slitValid slit = true → localDistance a b = slitDistance s slit a b) ∨
      m.page.valid = true ∧ slitValid slit = true ∧
        entryDistance (entryFound m acpiSlit (lookupAt s index b)) = slitDistance s slit a b := by
  constructor
  · rintro ⟨hrejected, haccepted⟩
    cases hpage : m.page.valid with
    | false =>
      rw [nodeDistance_none hpage] at haccepted
      exact Or.inl ⟨rfl, haccepted⟩
    | true =>
      rw [nodeDistance_page hpage] at haccepted
      have hvalid : slitValid slit = true := by
        by_contra hno
        have hnone : m.page.valid = false := (hrejected (by simpa using hno)).1
        rw [hpage] at hnone
        cases hnone
      exact Or.inr ⟨rfl, hvalid, haccepted hvalid⟩
  · rintro (⟨hpage, h⟩ | ⟨hpage, hvalid, h⟩)
    · refine ⟨fun _ => ⟨hpage, nodeDistance_none hpage⟩, fun hvalid => ?_⟩
      rw [nodeDistance_none hpage]
      exact h hvalid
    · refine ⟨fun hno => ?_, fun _ => ?_⟩
      · rw [hvalid] at hno
        cases hno
      · rw [nodeDistance_page hpage]
        exact h

/-- A boot allocator whose page holds the word `v` everywhere. -/
def pageOf (v : Nat) : BootMemory := ⟨fun _ => 1, fun _ _ => 1, id, fun _ => ⟨fun _ => v⟩⟩

/-- **No table is sure to be used so**: there are a page, words behind `acpi_slit` and a local with which it is not. -/
theorem slitUse_unsure (s : Tables) (slit : AcpiTableSlit) (a b : Nat) :
    ∃ (m : BootMemory) (acpiSlit : AcpiTableSlit) (index : Nat), ¬SlitUseOk m acpiSlit index s slit a b := by
  -- the word `v` everywhere: a table of the one distance `v`, which is not that of `slit`
  obtain ⟨v, hvalid, hv, hne⟩ : ∃ v, v % 256 = 1 ∧ entryDistance v = v ∧ v ≠ slitDistance s slit a b := by
    by_cases h : slitDistance s slit a b = 257
    · exact ⟨513, by decide, by decide, by omega⟩
    · exact ⟨257, by decide, by decide, fun h' => h h'.symm⟩
  have hpage : (pageOf v).page.valid = true := by simp [BootMemory.page, pageOf, AcpiTableSlit.valid, hvalid]
  refine ⟨pageOf v, ⟨fun _ => v⟩, 0, fun hok => ?_⟩
  cases haccepted : slitValid slit with
  | false =>
    have hnone : (pageOf v).page.valid = false := (hok.rejected haccepted).1
    rw [hpage] at hnone
    cases hnone
  | true =>
    have h := hok.accepted haccepted
    have hfound : entryFound (pageOf v) ⟨fun _ => v⟩ (lookupAt s 0 b) = v := ite_self v
    rw [nodeDistance_page hpage, hfound, hv] at h
    exact hne h

/-- A table for eleven domains: 10 on the diagonal and 21 elsewhere, up to the storage of `valid` and
`locality_count`. -/
def elevenLocalities : AcpiTableSlit :=
  ⟨fun k => if k = 1 then 257 else if k = 3 then 11 else if k % 12 = 0 then 10 else 21⟩

/-- The table is accepted, and with a zeroed page the distances stay as without it. -/
theorem slitUse_counterexample :
    ¬ ∀ (m : BootMemory) (acpiSlit : AcpiTableSlit) (index : Nat) (calls : List Call) (slit : AcpiTableSlit)
      (a b : Nat), Registered (calls.foldl stepCall init) a → Registered (calls.foldl stepCall init) b →
        SlitUseOk m acpiSlit index (calls.foldl stepCall init) slit a b := by
  intro h
  have hok := h (pageOf 0) ⟨fun _ => 0⟩ 0 [.setupNode 0, .setupNode 1, .setupNode 2] elevenLocalities 1 2
    ⟨by decide, 1, by decide, by decide⟩ ⟨by decide, 2, by decide, by decide⟩
  have hdistance := hok.accepted (by decide +kernel)
  revert hdistance
  decide

/-! ## Reads -/

/-- `slit_valid` reads the entry at `index` for row `i` and column `j`. -/
structure SlitRead where
  i : Nat
  j : Nat
  index : Nat
deriving DecidableEq, Repr

/-- `slitRow` with its reads logged. -/
def slitRowLogged (entry : Nat → Nat) (d i : Nat) : (n j : Nat) → Logged SlitRead Bool
  | 0, _ => pure true
  | n + 1, j => do
    let a := (d * i + j) % 2 ^ 32
    Logged.emit ⟨i, j, a⟩
    let val := entry a
    if i = j then
      if val ≠ 10 then pure false else slitRowLogged entry d i n (j + 1)
    else if val ≤ 10 then pure false
    else slitRowLogged entry d i n (j + 1)

/-- `slitRows` with its reads logged. -/
def slitRowsLogged (entry : Nat → Nat) (d : Nat) : (n i : Nat) → Logged SlitRead Bool
  | 0, _ => pure true
  | n + 1, i => do
    if ← slitRowLogged entry d i d 0 then slitRowsLogged entry d n (i + 1) else pure false

/-- `slit_valid` with its reads logged, for `d` localities and any table of entries: the layout of the struct is not
used. -/
def slitValidLogged (entry : Nat → Nat) (d : Nat) : Logged SlitRead Bool := slitRowsLogged entry d d 0

/-- The read is that of an entry of the table, in row-major order up to 32 bits. -/
def SlitRead.OfTable (d : Nat) (r : SlitRead) : Prop := r.i < d ∧ r.j < d ∧ r.index = (d * r.i + r.j) % 2 ^ 32

/-- **Exact validation.** Only entries of the table are read, each for one row and column, and those on the diagonal
are to be 10 and the others more. -/
structure SlitExact (entry : Nat → Nat) (d : Nat) : Prop where
  inside : ∀ r ∈ (slitValidLogged entry d).log, r.index < d * d
  distinct : ∀ r ∈ (slitValidLogged entry d).log, ∀ r' ∈ (slitValidLogged entry d).log,
    r.index = r'.index → r.i = r'.i ∧ r.j = r'.j
  accepts : (slitValidLogged entry d).val = true ↔ ∀ i < d, ∀ j < d,
    if i = j then entry (d * i + j) = 10 else 10 < entry (d * i + j)

section Reads

variable {entry : Nat → Nat} {d : Nat}

theorem slitRowLogged_val (entry : Nat → Nat) (d i : Nat) : ∀ n j : Nat,
    (slitRowLogged entry d i n j).val = slitRow entry d i n j
  | 0, _ => rfl
  | n + 1, j => by
    simp only [slitRowLogged, slitRow, Logged.val_bind, Logged.val_ite, Logged.val_pure, slitRowLogged_val entry d i n]

theorem slitRowsLogged_val (entry : Nat → Nat) (d : Nat) : ∀ n i : Nat,
    (slitRowsLogged entry d n i).val = slitRows entry d n i
  | 0, _ => rfl
  | n + 1, i => by
    simp only [slitRowsLogged, slitRows, Logged.val_bind, Logged.val_ite, Logged.val_pure, slitRowLogged_val,
      slitRowsLogged_val entry d n]

/-- Without the log it is what `slitValid` computes. -/
theorem slitValidLogged_val (entry : Nat → Nat) (d : Nat) : (slitValidLogged entry d).val = slitRows entry d d 0 :=
  slitRowsLogged_val entry d d 0

/-- What a row reads. -/
theorem slitRowLogged_only {i : Nat} (hi : i < d) : ∀ {n j : Nat}, j + n ≤ d →
    (slitRowLogged entry d i n j).Only (SlitRead.OfTable d)
  | 0, _, _ => by simp [slitRowLogged]
  | n + 1, j, h => by
    have hfirst : SlitRead.OfTable d ⟨i, j, (d * i + j) % 2 ^ 32⟩ := ⟨hi, by simp only; omega, rfl⟩
    have hrest := slitRowLogged_only hi (by omega : j + 1 + n ≤ d)
    simp only [slitRowLogged, Logged.only_bind, Logged.only_emit, Logged.only_ite, Logged.only_pure, hfirst, hrest,
      implies_true, and_self]

/-- What all rows read. -/
theorem slitRowsLogged_only : ∀ {n i : Nat}, i + n ≤ d → (slitRowsLogged entry d n i).Only (SlitRead.OfTable d)
  | 0, _, _ => by simp [slitRowsLogged]
  | n + 1, i, h => by
    have hrow : (slitRowLogged entry d i d 0).Only (SlitRead.OfTable d) := slitRowLogged_only (by omega) (by omega)
    have hrest := slitRowsLogged_only (by omega : i + 1 + n ≤ d)
    simp only [slitRowsLogged, Logged.only_bind, Logged.only_ite, Logged.only_pure, hrow, hrest, implies_true, and_self]

/-- The index of an entry is inside the table. -/
theorem rowMajor_lt {i j : Nat} (hi : i < d) (hj : j < d) : d * i + j < d * d := by
  have hrow : d * i + d ≤ d * d := Nat.mul_le_mul_left d hi
  omega

/-- Entries have different indices. -/
theorem rowMajor_inj {i j i' j' : Nat} (hj : j < d) (hj' : j' < d) (h : d * i + j = d * i' + j') :
    i = i' ∧ j = j' := by
  have hd : 0 < d := Nat.zero_lt_of_lt hj
  have hdiv := congrArg (· / d) h
  have hmod := congrArg (· % d) h
  simp only [Nat.mul_add_div hd, Nat.div_eq_of_lt hj, Nat.div_eq_of_lt hj', Nat.add_zero] at hdiv
  simp only [Nat.mul_add_mod, Nat.mod_eq_of_lt hj, Nat.mod_eq_of_lt hj'] at hmod
  exact ⟨hdiv, hmod⟩

/-- Up to 65536 localities no index wraps. -/
theorem rowMajor_mod (h : d ≤ 65536) {i j : Nat} (hi : i < d) (hj : j < d) : (d * i + j) % 2 ^ 32 = d * i + j := by
  have hsquare : d * d ≤ 65536 * 65536 := Nat.mul_le_mul h h
  exact Nat.mod_eq_of_lt (Nat.lt_of_lt_of_le (rowMajor_lt hi hj) hsquare)

/-- **Validation is exact** for up to 65536 localities. -/
theorem slitValid_exact (entry : Nat → Nat) (d : Nat) (h : d ≤ 65536) : SlitExact entry d := by
  have hreads : (slitValidLogged entry d).Only (SlitRead.OfTable d) := slitRowsLogged_only (Nat.zero_add _).le
  constructor
  · intro r hr
    obtain ⟨hi, hj, hindex⟩ := hreads r hr
    rw [hindex, rowMajor_mod h hi hj]
    exact rowMajor_lt hi hj
  · intro r hr r' hr' heq
    obtain ⟨hi, hj, hindex⟩ := hreads r hr
    obtain ⟨hi', hj', hindex'⟩ := hreads r' hr'
    rw [hindex, hindex', rowMajor_mod h hi hj, rowMajor_mod h hi' hj'] at heq
    exact rowMajor_inj hj hj' heq
  · rw [slitValidLogged_val, slitValid_iff]
    refine forall₂_congr fun i hi => forall₂_congr fun j hj => ?_
    rw [EntryOk, rowMajor_mod h hi hj]

theorem slitValid_exact_eleven : SlitExact elevenLocalities.entry elevenLocalities.localityCount :=
  slitValid_exact elevenLocalities.entry elevenLocalities.localityCount (by decide)

end Reads

end Xen.Numa
