import Xen.Lib.Memory

/-!
# Intel microcode images (`intel_verified.c`)

- The header `struct microcode_header_intel` by field offsets, and `totalSize`, `dataSize` with their defaults.
- `microcodeSanityCheck`: `microcode_sanity_check`, with every read logged.
- `microcodeUpdateMatch`, `getMatchingMicrocode`, `applyMicrocode` on the per-CPU state `UcodeCpuInfo`.
- The results: `sanityCheck_ret` and `getMatchingMicrocode_cases` list what the functions return,
  `sanityCheck_congr` says that the verdict on an image without an extended table depends only on its bytes.

`unsigned long` and `size_t` differ between data models, so the functions that compute with them take an `Abi`.
`microcode_sanity_check` leaves `ext_header` at `NULL`; `get_matching_microcode` leaves it uninitialised. Both objects
are parameters.
-/

namespace Xen.Intel

open Lib

/-! ## Data model -/

/-- The objects the loader's pointers point to. -/
inductive Obj where
  | buf
  | mc
  | null
deriving DecidableEq, Repr

/-! ## `struct microcode_header_intel` -/

namespace Hdr

@[simp] abbrev hdrver : Nat := 0
@[simp] abbrev rev : Nat := 4
@[simp] abbrev sig : Nat := 16
@[simp] abbrev cksum : Nat := 20
@[simp] abbrev ldrver : Nat := 24
@[simp] abbrev pf : Nat := 28
@[simp] abbrev datasize : Nat := 32
@[simp] abbrev totalsize : Nat := 36

/-- `sizeof(struct microcode_header_intel)`: `date` lies behind `year`, `day` and `month`, not over them. -/
@[simp] abbrev size : Nat := 52

end Hdr

/-- The declared total size of the image at offset `i`, with its default. -/
def totalSize (b : Bytes) (i : Nat) : Nat :=
  if leWord b (i + Hdr.totalsize) 4 ≠ 0 then leWord b (i + Hdr.totalsize) 4 else 2000 + Hdr.size

/-- The declared data size of the image at offset `i`, with its default. -/
def dataSize (b : Bytes) (i : Nat) : Nat :=
  if leWord b (i + Hdr.datasize) 4 ≠ 0 then leWord b (i + Hdr.datasize) 4 else 2000

/-- The total size depends only on the bytes of its field. -/
theorem totalSize_congr {b c : Bytes} {i j : Nat} (h : ∀ n < Hdr.size, b (i + n) = c (j + n)) :
    totalSize b i = totalSize c j := by
  have hw : leWord b (i + Hdr.totalsize) 4 = leWord c (j + Hdr.totalsize) 4 :=
    leWord_congr fun n hn => by simpa only [Nat.add_assoc] using h (36 + n) (by simp only [Hdr.size]; omega)
  simp only [totalSize, hw]

/-- The data size depends only on the bytes of its field. -/
theorem dataSize_congr {b c : Bytes} {i j : Nat} (h : ∀ n < Hdr.size, b (i + n) = c (j + n)) :
    dataSize b i = dataSize c j := by
  have hw : leWord b (i + Hdr.datasize) 4 = leWord c (j + Hdr.datasize) 4 :=
    leWord_congr fun n hn => by simpa only [Nat.add_assoc] using h (32 + n) (by simp only [Hdr.size]; omega)
  simp only [dataSize, hw]

/-- `mc_header->hdr.totalsize ? … : …`. -/
def loadTotalSize (o : Obj) (b : Bytes) (i : Nat) : Logged (MemOp Obj) Nat := do
  let t ← load o b (i + Hdr.totalsize) 4
  pure (if t ≠ 0 then t else 2000 + Hdr.size)

/-- `mc_header->hdr.datasize ? … : …`. -/
def loadDataSize (o : Obj) (b : Bytes) (i : Nat) : Logged (MemOp Obj) Nat := do
  let d ← load o b (i + Hdr.datasize) 4
  pure (if d ≠ 0 then d else 2000)

@[simp] theorem val_loadTotalSize (o : Obj) (b : Bytes) (i : Nat) : (loadTotalSize o b i).val = totalSize b i := by
  simp [loadTotalSize, totalSize]

@[simp] theorem val_loadDataSize (o : Obj) (b : Bytes) (i : Nat) : (loadDataSize o b i).val = dataSize b i := by
  simp [loadDataSize, dataSize]

@[simp] theorem only_loadTotalSize {P : MemOp Obj → Prop} (o : Obj) (b : Bytes) (i : Nat) :
    (loadTotalSize o b i).Only P ↔ P (.read o (i + Hdr.totalsize) 4) := by
  simp [loadTotalSize]

/-! ## `microcode_sanity_check` -/

/-- `total_size - (sizeof(header) + data_size)`, computed in `size_t` and stored in an `unsigned long`. -/
def extTableSize (abi : Abi) (total data : Nat) : Nat :=
  (total + 2 ^ (8 * abi.sizeT) - (Hdr.size + data) % 2 ^ (8 * abi.sizeT)) % 2 ^ (8 * abi.sizeT) % 2 ^ (8 * abi.ulong)

/-- `while ( i-- ) sum += ((unsigned long *)p)[i]`. -/
def sumWords (abi : Abi) (o : Obj) (b : Bytes) : (i sum : Nat) → Logged (MemOp Obj) Nat
  | 0, sum => pure sum
  | i + 1, sum => do
    let w ← load o b (i * abi.ulong) abi.ulong
    sumWords abi o b i ((sum + w) % 2 ^ (8 * abi.ulong))

/-- The two blocks on the extended table: its size against its count, and its checksum. -/
def extTableCheck (abi : Abi) (null : Bytes) (size : Nat) : Logged (MemOp Obj) Int := do
  if size < 20 ∨ (size - 20) % 12 ≠ 0 then
    return -101
  let count ← load .null null 0 4
  if size ≠ (count * 12 + 20) % 2 ^ (8 * abi.sizeT) then
    return -14
  let sum ← sumWords abi .null null (size / abi.ulong) 0
  return if sum ≠ 0 then -101 else 0

/-- The loop over the extended signatures; `ext_header + …` counts in tables of 20 bytes. -/
def extSigsCheck (abi : Abi) (mc null : Bytes) : (n i : Nat) → Logged (MemOp Obj) Int
  | 0, _ => pure 0
  | n + 1, i => do
    let sig ← load .mc mc Hdr.sig 4
    let pf ← load .mc mc Hdr.pf 4
    let cksum ← load .mc mc Hdr.cksum 4
    let extSig := (20 + 12 * i) * 20
    let sig' ← load .null null extSig 4
    let pf' ← load .null null (extSig + 4) 4
    let cksum' ← load .null null (extSig + 8) 4
    -- `orig_sum` is 0 here
    let sum :=
      (2 ^ (8 * abi.ulong) - (sig + pf + cksum) % 2 ^ 32 + (sig' + pf' + cksum') % 2 ^ 32) % 2 ^ (8 * abi.ulong)
    if sum ≠ 0 then
      return -101
    extSigsCheck abi mc null n (i + 1)

/-- `microcode_sanity_check`; `null` is what a read through `ext_header = NULL` finds. -/
def microcodeSanityCheck (abi : Abi) (mc null : Bytes) : Logged (MemOp Obj) Int := do
  let total ← loadTotalSize .mc mc 0
  let data ← loadDataSize .mc mc 0
  if (data + Hdr.size) % 2 ^ (8 * abi.sizeT) > total then
    return -101
  let ldrver ← load .mc mc Hdr.ldrver 4
  if ldrver ≠ 1 then
    return -101
  let hdrver ← load .mc mc Hdr.hdrver 4
  if hdrver ≠ 1 then
    return -101
  let ext := extTableSize abi total data
  let extRet ← (if ext ≠ 0 then extTableCheck abi null ext else pure 0)
  if extRet ≠ 0 then
    return extRet
  let origSum ← sumWords abi .mc mc ((Hdr.size + data) % 2 ^ (8 * abi.sizeT) / abi.ulong) 0
  if origSum ≠ 0 then
    return -101
  if ext = 0 then
    return 0
  extSigsCheck abi mc null (leWord null 0 4) 0

/-- What `microcode_sanity_check` and its blocks return: 0, `-EINVAL` or `-EFAULT`. -/
def CheckRet (ret : Int) : Prop := ret = 0 ∨ ret = -101 ∨ ret = -14

theorem checkRet_zero : CheckRet 0 := Or.inl rfl

theorem checkRet_einval : CheckRet (-101) := Or.inr (Or.inl rfl)

theorem checkRet_efault : CheckRet (-14) := Or.inr (Or.inr rfl)

theorem CheckRet.nonpos {ret : Int} (h : CheckRet ret) : ret ≤ 0 := by
  rcases h with rfl | rfl | rfl <;> omega

theorem extTableCheck_ret (abi : Abi) (null : Bytes) (size : Nat) : CheckRet (extTableCheck abi null size).val := by
  simp only [extTableCheck, Logged.val_bind, Logged.val_ite, Logged.val_pure]
  refine iteInduction (fun _ => checkRet_einval) fun _ => iteInduction (fun _ => checkRet_efault) fun _ => ?_
  exact iteInduction (fun _ => checkRet_einval) fun _ => checkRet_zero

theorem extSigsCheck_ret (abi : Abi) (mc null : Bytes) : ∀ n i : Nat, CheckRet (extSigsCheck abi mc null n i).val
  | 0, _ => checkRet_zero
  | n + 1, i => by
    simp only [extSigsCheck, Logged.val_bind, Logged.val_ite, Logged.val_pure]
    exact iteInduction (fun _ => checkRet_einval) fun _ => extSigsCheck_ret abi mc null n (i + 1)

/-- The check returns 0 or one of its two error codes. -/
theorem sanityCheck_ret (abi : Abi) (mc null : Bytes) : CheckRet (microcodeSanityCheck abi mc null).val := by
  simp only [microcodeSanityCheck, Logged.val_bind, Logged.val_ite, Logged.val_pure]
  refine iteInduction (fun _ => checkRet_einval) fun _ => iteInduction (fun _ => checkRet_einval) fun _ => ?_
  refine iteInduction (fun _ => checkRet_einval) fun _ => iteInduction (fun _ => ?_) fun _ => ?_
  · exact iteInduction (fun _ => extTableCheck_ret abi null _) fun _ => checkRet_zero
  · refine iteInduction (fun _ => checkRet_einval) fun _ => iteInduction (fun _ => checkRet_zero) fun _ => ?_
    exact extSigsCheck_ret abi mc null _ _

theorem sumWords_congr (abi : Abi) (o : Obj) {b c : Bytes} : ∀ {n : Nat} (sum : Nat),
    (∀ i < n * abi.ulong, b i = c i) → (sumWords abi o b n sum).val = (sumWords abi o c n sum).val
  | 0, _, _ => rfl
  | n + 1, sum, h => by
    rw [Nat.succ_mul] at h
    have hw : leWord b (n * abi.ulong) abi.ulong = leWord c (n * abi.ulong) abi.ulong :=
      leWord_congr fun k hk => h _ (by omega)
    simp only [sumWords, Logged.val_bind, val_load, hw]
    exact sumWords_congr abi o _ fun i hi => h i (by omega)

/-- An image whose data ends where it ends has no extended table. -/
theorem extTableSize_eq_zero (abi : Abi) {total data : Nat} (h : total = Hdr.size + data) (hlt : total < 2 ^ 32) :
    extTableSize abi total data = 0 := by
  subst h
  cases abi <;> simp only [extTableSize, Abi.sizeT, Abi.ulong] <;> omega

/-- **The verdict depends only on the image.** Without an extended table, two images with the same header and data
pass the check together, whatever the objects hold behind them. -/
theorem sanityCheck_congr (abi : Abi) {mc mc' : Bytes} (null null' : Bytes)
    (hext : extTableSize abi (totalSize mc 0) (dataSize mc 0) = 0)
    (h : ∀ i < Hdr.size + dataSize mc 0, mc i = mc' i) :
    (microcodeSanityCheck abi mc null).val = (microcodeSanityCheck abi mc' null').val := by
  have hh : ∀ n < Hdr.size, mc (0 + n) = mc' (0 + n) := fun n hn => by
    simpa only [Nat.zero_add] using h n (by omega)
  have hword : ∀ i, i + 4 ≤ Hdr.size → leWord mc i 4 = leWord mc' i 4 := fun i hi =>
    leWord_congr fun n hn => h (i + n) (by omega)
  have hsum : (sumWords abi .mc mc ((Hdr.size + dataSize mc 0) % 2 ^ (8 * abi.sizeT) / abi.ulong) 0).val =
      (sumWords abi .mc mc' ((Hdr.size + dataSize mc 0) % 2 ^ (8 * abi.sizeT) / abi.ulong) 0).val := by
    refine sumWords_congr abi .mc 0 fun i hi => h i ?_
    have h1 := Nat.div_mul_le_self ((Hdr.size + dataSize mc 0) % 2 ^ (8 * abi.sizeT)) abi.ulong
    have h2 := Nat.mod_le (Hdr.size + dataSize mc 0) (2 ^ (8 * abi.sizeT))
    omega
  simp only [microcodeSanityCheck, Logged.val_bind, Logged.val_ite, Logged.val_pure, val_loadTotalSize,
    val_loadDataSize, val_load, ← totalSize_congr hh, ← dataSize_congr hh, hext, hsum,
    ← hword Hdr.ldrver (by decide), ← hword Hdr.hdrver (by decide), ne_eq, not_true_eq_false, if_false, if_true]

/-! ## `microcode_update_match`, `get_matching_microcode`, `apply_microcode` -/

/-- `struct ucode_cpu_info`: the CPU's signature and the cached update, `none` for `NULL`. -/
structure UcodeCpuInfo where
  sig : Nat
  pf : Nat
  rev : Nat
  mcIntel : Option Bytes

/-- `microcode_update_match`; the casts to `int` keep the words' bits. -/
def microcodeUpdateMatch (uci : UcodeCpuInfo) (rev sig pf : Nat) : Bool :=
  sig = uci.sig && (pf &&& uci.pf ≠ 0 || pf = 0 && uci.pf = 0) && uci.rev < rev

/-- The code at label `find`: cache a copy of the image in `new_mc`. -/
def cacheMicrocode (uci : UcodeCpuInfo) (mc : Bytes) : (newMc : Option Bytes) → Int × UcodeCpuInfo
  | none => (-12, uci)
  | some dst =>
    (1, { uci with mcIntel := some (copyLoop Obj.mc Obj.mc mc 0 (int32 (totalSize mc 0)).toNat 0 dst).val })

/-- `get_matching_microcode`; `extHeader` and `newMc` are what its uninitialised pointers point to. -/
def getMatchingMicrocode (abi : Abi) (uci : UcodeCpuInfo) (mc extHeader : Bytes) (newMc : Option Bytes) :
    Int × UcodeCpuInfo :=
  let rev := leWord mc Hdr.rev 4
  if microcodeUpdateMatch uci rev (leWord mc Hdr.sig 4) (leWord mc Hdr.pf 4) then
    cacheMicrocode uci mc newMc
  else if totalSize mc 0 ≤ (dataSize mc 0 + Hdr.size) % 2 ^ (8 * abi.sizeT) then
    (0, uci)
  else if (List.range (int32 (leWord extHeader 0 4)).toNat).any fun i =>
      microcodeUpdateMatch uci rev (leWord extHeader (20 + 12 * i) 4) (leWord extHeader (20 + 12 * i + 4) 4) then
    cacheMicrocode uci mc newMc
  else
    (0, uci)

/-- `apply_microcode`; `msrContent` is what the revision register reads back. -/
def applyMicrocode (uci : UcodeCpuInfo) (msrContent : Nat) : Int × UcodeCpuInfo :=
  match uci.mcIntel with
  | none => (-101, uci)
  | some mc =>
    let val1 := msrContent / 2 ^ 32 % 2 ^ 32
    if val1 ≠ leWord mc Hdr.rev 4 then (-5, uci) else (0, { uci with rev := val1 })

/-- No match and nothing changes, no memory and nothing changes, or a match that is cached. -/
theorem getMatchingMicrocode_cases (abi : Abi) (uci : UcodeCpuInfo) (mc extHeader : Bytes) (newMc : Option Bytes) :
    getMatchingMicrocode abi uci mc extHeader newMc = (0, uci) ∨
      getMatchingMicrocode abi uci mc extHeader newMc = (-12, uci) ∧ newMc = none ∨
      ∃ dst, newMc = some dst ∧ getMatchingMicrocode abi uci mc extHeader newMc = cacheMicrocode uci mc (some dst) := by
  have hcache : cacheMicrocode uci mc newMc = (-12, uci) ∧ newMc = none ∨
      ∃ dst, newMc = some dst ∧ cacheMicrocode uci mc newMc = cacheMicrocode uci mc (some dst) := by
    cases newMc with
    | none => exact Or.inl ⟨rfl, rfl⟩
    | some dst => exact Or.inr ⟨dst, rfl, rfl⟩
  simp only [getMatchingMicrocode]
  split_ifs
  · exact Or.inr hcache
  · exact Or.inl rfl
  · exact Or.inr hcache
  · exact Or.inl rfl

/-- The return code is 0, 1 or `-ENOMEM`. -/
theorem getMatchingMicrocode_ret (abi : Abi) (uci : UcodeCpuInfo) (mc extHeader : Bytes) (newMc : Option Bytes) :
    (getMatchingMicrocode abi uci mc extHeader newMc).1 = 0 ∨ (getMatchingMicrocode abi uci mc extHeader newMc).1 = 1 ∨
      (getMatchingMicrocode abi uci mc extHeader newMc).1 = -12 ∧ newMc = none := by
  rcases getMatchingMicrocode_cases abi uci mc extHeader newMc with h | ⟨h, hn⟩ | ⟨dst, -, h⟩
  · exact Or.inl (by rw [h])
  · exact Or.inr (Or.inr ⟨by rw [h], hn⟩)
  · exact Or.inr (Or.inl (by rw [h]; rfl))

end Xen.Intel
