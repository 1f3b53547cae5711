import Xen.Intel.Image

/-!
# Is the validation of an Intel image exact? (`intel_verified.c`)

- `Valid` says what a valid image is, in arithmetic without overflow: sizes, versions, checksums, and an extended table
  right behind the data.
- `RejectedEarly`, `ReachesTable`, `NoTable`: the three ways an image takes through `microcode_sanity_check`, with one
  lemma on what it reads and returns for each.
- `ext_header` stays `NULL`, and nothing looks at the size before the header is read: `validation_iff` says exactly on
  which images the validation is exact.
-/

namespace Xen.Intel

open Lib

/-! ## Valid images -/

/-- The sum of `n` words of 32 bits from offset `i` on. -/
def wordSum (b : Bytes) (i : Nat) : (n : Nat) → Nat
  | 0 => 0
  | n + 1 => wordSum b i n + leWord b (i + n * 4) 4

/-- Where the extended table starts: right behind the data. -/
def extStart (mc : Bytes) : Nat := Hdr.size + dataSize mc 0

/-- The count of the extended table. -/
def extCount (mc : Bytes) : Nat := leWord mc (extStart mc) 4

/-- The sum of a signature, its processor flags and its checksum, three words at the given offsets. -/
def signatureSum (mc : Bytes) (sig pf cksum : Nat) : Nat := leWord mc sig 4 + leWord mc pf 4 + leWord mc cksum 4

/-- The words of the image with the header's signature replaced by the `i`-th extended one sum to 0. -/
def SignatureOk (mc : Bytes) (i : Nat) : Prop :=
  (wordSum mc 0 (extStart mc / 4) + signatureSum mc (extStart mc + 20 + 12 * i) (extStart mc + 20 + 12 * i + 4)
    (extStart mc + 20 + 12 * i + 8)) % 2 ^ 32 = signatureSum mc Hdr.sig Hdr.pf Hdr.cksum % 2 ^ 32

instance (mc : Bytes) (i : Nat) : Decidable (SignatureOk mc i) := inferInstanceAs (Decidable (_ = _))

/-- **A valid image.** -/
structure Valid (mc : Bytes) : Prop where
  fits : extStart mc ≤ totalSize mc 0
  ldrver : leWord mc Hdr.ldrver 4 = 1
  hdrver : leWord mc Hdr.hdrver 4 = 1
  table : extStart mc < totalSize mc 0 → totalSize mc 0 = extStart mc + 20 + 12 * extCount mc ∧
    wordSum mc (extStart mc) ((totalSize mc 0 - extStart mc) / 4) % 2 ^ 32 = 0
  words : wordSum mc 0 (extStart mc / 4) % 2 ^ 32 = 0
  signatures : extStart mc < totalSize mc 0 → ∀ i < extCount mc, SignatureOk mc i

/-- The access reads inside the first `size` bytes of the image. -/
def InsideImage (size : Nat) : MemOp Obj → Prop
  | .read .mc off len => off + len ≤ size
  | _ => False

/-- **What the validation owes**: it reads only inside the image, and it returns 0 exactly on the valid ones. -/
structure ValidationOk (abi : Abi) (mc null : Bytes) : Prop where
  reads : (microcodeSanityCheck abi mc null).Only (InsideImage (totalSize mc 0))
  exact : (microcodeSanityCheck abi mc null).val = 0 ↔ Valid mc

/-! ## Sums and sizes -/

section Sums

variable {abi : Abi} {b : Bytes}

/-- With words of 32 bits, the loop sums them. -/
theorem sumWords_val (hulong : abi.ulong = 4) (o : Obj) (b : Bytes) {n sum : Nat} (h : sum < 2 ^ 32) :
    (sumWords abi o b n sum).val = (sum + wordSum b 0 n) % 2 ^ 32 := by
  induction n generalizing sum with
  | zero => exact (Nat.mod_eq_of_lt h).symm
  | succ n ih =>
    rw [wordSum, sumWords, hulong, Logged.val_bind, val_load, ih (Nat.mod_lt _ (by decide)), Nat.zero_add]
    omega

/-- It reads the words it sums. -/
theorem sumWords_inside (hulong : abi.ulong = 4) {size n : Nat} (sum : Nat) (h : n * 4 ≤ size) :
    (sumWords abi .mc b n sum).Only (InsideImage size) := by
  induction n generalizing sum with
  | zero => exact Logged.only_pure _
  | succ n ih =>
    have hword : InsideImage size (.read Obj.mc (n * 4) 4) := show n * 4 + 4 ≤ size by omega
    rw [sumWords, hulong, Logged.only_bind, only_load]
    exact ⟨hword, ih _ (by omega)⟩

theorem totalSize_lt (mc : Bytes) (i : Nat) : totalSize mc i < 2 ^ 32 := by
  have := leWord_lt mc (i + Hdr.totalsize) 4
  unfold totalSize
  split
  · exact this
  · decide

end Sums

/-! ## The ways through the check -/

/-- The size of the header and the data as the code computes it. -/
def headerAndData (abi : Abi) (mc : Bytes) : Nat := (dataSize mc 0 + Hdr.size) % 2 ^ (8 * abi.sizeT)

/-- The size of the extended table as the code computes it. -/
def extSize (abi : Abi) (mc : Bytes) : Nat := extTableSize abi (totalSize mc 0) (dataSize mc 0)

/-- The image is rejected before the code looks at the extended table or the words. -/
def RejectedEarly (abi : Abi) (mc : Bytes) : Prop :=
  totalSize mc 0 < headerAndData abi mc ∨ leWord mc Hdr.ldrver 4 ≠ 1 ∨ leWord mc Hdr.hdrver 4 ≠ 1 ∨
    extSize abi mc ≠ 0 ∧ (extSize abi mc < 20 ∨ (extSize abi mc - 20) % 12 ≠ 0)

instance (abi : Abi) (mc : Bytes) : Decidable (RejectedEarly abi mc) := inferInstanceAs (Decidable (_ ∨ _))

/-- The code looks at the words and there is no extended table. -/
def NoTable (abi : Abi) (mc : Bytes) : Prop :=
  headerAndData abi mc ≤ totalSize mc 0 ∧ leWord mc Hdr.ldrver 4 = 1 ∧ leWord mc Hdr.hdrver 4 = 1 ∧
    extSize abi mc = 0

instance (abi : Abi) (mc : Bytes) : Decidable (NoTable abi mc) := inferInstanceAs (Decidable (_ ∧ _))

/-- The code looks at the extended table. -/
def ReachesTable (abi : Abi) (mc : Bytes) : Prop :=
  headerAndData abi mc ≤ totalSize mc 0 ∧ leWord mc Hdr.ldrver 4 = 1 ∧ leWord mc Hdr.hdrver 4 = 1 ∧
    extSize abi mc ≠ 0 ∧ 20 ≤ extSize abi mc ∧ (extSize abi mc - 20) % 12 = 0

/-- The extended table is what lies behind the header and the data. -/
theorem extSize_eq {abi : Abi} {mc : Bytes} (hulong : abi.ulong = 4) (h : headerAndData abi mc ≤ totalSize mc 0) :
    extSize abi mc = totalSize mc 0 - headerAndData abi mc := by
  have hlt := totalSize_lt mc 0
  unfold headerAndData extSize extTableSize at *
  cases abi <;> simp only [Abi.ulong, Abi.sizeT] at * <;> omega

/-- If it ends inside the image, the code computes where the data ends. -/
theorem headerAndData_eq {abi : Abi} {mc : Bytes} (h : extStart mc < 2 ^ 32) : headerAndData abi mc = extStart mc := by
  unfold headerAndData extStart at *
  cases abi <;> simp only [Abi.sizeT, Hdr.size] at * <;> omega

theorem NoTable.not_early {abi : Abi} {mc : Bytes} (h : NoTable abi mc) : ¬RejectedEarly abi mc := by
  obtain ⟨h1, h2, h3, h4⟩ := h
  rintro (hsize | hldrver | hhdrver | ⟨hne, -⟩)
  · omega
  · exact hldrver h2
  · exact hhdrver h3
  · exact hne h4

theorem ReachesTable.not_early {abi : Abi} {mc : Bytes} (h : ReachesTable abi mc) : ¬RejectedEarly abi mc := by
  obtain ⟨h1, h2, h3, h4, h5, h6⟩ := h
  rintro (hsize | hldrver | hhdrver | ⟨-, htable⟩)
  · omega
  · exact hldrver h2
  · exact hhdrver h3
  · omega

theorem ReachesTable.not_noTable {abi : Abi} {mc : Bytes} (h : ReachesTable abi mc) : ¬NoTable abi mc := by
  obtain ⟨-, -, -, hne, -, -⟩ := h
  rintro ⟨-, -, -, h0⟩
  exact hne h0

theorem check_ways (abi : Abi) (mc : Bytes) : RejectedEarly abi mc ∨ NoTable abi mc ∨ ReachesTable abi mc := by
  unfold RejectedEarly NoTable ReachesTable
  by_cases h1 : totalSize mc 0 < headerAndData abi mc
  · exact Or.inl (Or.inl h1)
  by_cases h2 : leWord mc Hdr.ldrver 4 = 1
  · by_cases h3 : leWord mc Hdr.hdrver 4 = 1
    · by_cases h4 : extSize abi mc = 0
      · exact Or.inr (Or.inl ⟨Nat.le_of_not_lt h1, h2, h3, h4⟩)
      · by_cases h5 : extSize abi mc < 20 ∨ (extSize abi mc - 20) % 12 ≠ 0
        · exact Or.inl (Or.inr (Or.inr (Or.inr ⟨h4, h5⟩)))
        · obtain ⟨h5, h6⟩ := not_or.mp h5
          exact Or.inr (Or.inr ⟨Nat.le_of_not_lt h1, h2, h3, h4, Nat.le_of_not_lt h5, not_not.mp h6⟩)
    · exact Or.inl (Or.inr (Or.inr (Or.inl h3)))
  · exact Or.inl (Or.inr (Or.inl h2))

section Ways

variable {abi : Abi} {mc null : Bytes} {size : Nat}

@[simp] theorem only_loadDataSize {P : MemOp Obj → Prop} (o : Obj) (b : Bytes) (i : Nat) :
    (loadDataSize o b i).Only P ↔ P (.read o (i + Hdr.datasize) 4) := by
  simp [loadDataSize]

/-- The four fields that the check reads lie in the first 40 bytes. -/
theorem inside_field (h40 : 40 ≤ size) {off : Nat} (hoff : off ≤ 36) : InsideImage size (.read Obj.mc off 4) :=
  show off + 4 ≤ size by omega

/-- It begins with `totalsize`, the last of them. -/
theorem microcodeSanityCheck_totalsize (h : (microcodeSanityCheck abi mc null).Only (InsideImage size)) :
    40 ≤ size := by
  unfold microcodeSanityCheck at h
  exact (only_loadTotalSize Obj.mc mc 0).mp ((Logged.only_bind _ _).mp h).1

/-- An early rejection reads the fields only. -/
theorem rejectedEarly_spec (null : Bytes) (size : Nat) (h : RejectedEarly abi mc) :
    (microcodeSanityCheck abi mc null).val = -101 ∧
    ((microcodeSanityCheck abi mc null).Only (InsideImage size) ↔ 40 ≤ size) := by
  unfold RejectedEarly headerAndData extSize at h
  by_cases h1 : totalSize mc 0 < (dataSize mc 0 + Hdr.size) % 2 ^ (8 * abi.sizeT)
  · refine ⟨by simp [microcodeSanityCheck, h1], microcodeSanityCheck_totalsize, fun h40 => ?_⟩
    simp [microcodeSanityCheck, h1, inside_field h40]
  by_cases h2 : leWord mc Hdr.ldrver 4 = 1
  · by_cases h3 : leWord mc Hdr.hdrver 4 = 1
    · obtain ⟨h4, h5⟩ := ((h.resolve_left h1).resolve_left fun h => h h2).resolve_left fun h => h h3
      have hret : (extTableCheck abi null (extTableSize abi (totalSize mc 0) (dataSize mc 0))) = pure (-101) := by
        unfold extTableCheck
        rw [if_pos h5]
      refine ⟨by simp [microcodeSanityCheck, h1, h2, h3, h4, hret], microcodeSanityCheck_totalsize, fun h40 => ?_⟩
      simp [microcodeSanityCheck, h1, h2, h3, h4, hret, inside_field h40]
    · refine ⟨by simp [microcodeSanityCheck, h1, h2, h3], microcodeSanityCheck_totalsize, fun h40 => ?_⟩
      simp [microcodeSanityCheck, h1, h2, h3, inside_field h40]
  · refine ⟨by simp [microcodeSanityCheck, h1, h2], microcodeSanityCheck_totalsize, fun h40 => ?_⟩
    simp [microcodeSanityCheck, h1, h2, inside_field h40]

/-- The extended table is read at `NULL`. -/
theorem reachesTable_spec (h : ReachesTable abi mc) :
    ¬(microcodeSanityCheck abi mc null).Only (InsideImage size) := by
  obtain ⟨h1, h2, h3, h4, h5, h6⟩ := h
  unfold headerAndData extSize at *
  have hnull : ¬InsideImage size (.read Obj.null 0 4) := id
  simp [microcodeSanityCheck, Nat.not_lt.mpr h1, h2, h3, h4, extTableCheck, Nat.not_lt.mpr h5, h6, hnull]

/-- Without an extended table, the words decide. -/
theorem noTable_spec (null : Bytes) (hulong : abi.ulong = 4) (h : NoTable abi mc) :
    ((microcodeSanityCheck abi mc null).val = 0 ↔ wordSum mc 0 (headerAndData abi mc / 4) % 2 ^ 32 = 0) ∧
    ((microcodeSanityCheck abi mc null).Only (InsideImage (totalSize mc 0)) ↔ 40 ≤ totalSize mc 0) := by
  obtain ⟨h1, h2, h3, h4⟩ := h
  have hsum : (sumWords abi .mc mc ((Hdr.size + dataSize mc 0) % 2 ^ (8 * abi.sizeT) / abi.ulong) 0).val =
      wordSum mc 0 (headerAndData abi mc / 4) % 2 ^ 32 := by
    rw [sumWords_val hulong .mc mc (by decide), hulong, Nat.zero_add, Nat.add_comm Hdr.size]
    rfl
  have hreads : (sumWords abi .mc mc ((Hdr.size + dataSize mc 0) % 2 ^ (8 * abi.sizeT) / abi.ulong) 0).Only
      (InsideImage (totalSize mc 0)) := by
    refine sumWords_inside hulong 0 ?_
    rw [hulong, Nat.add_comm Hdr.size]
    exact (Nat.div_mul_le_self _ 4).trans h1
  unfold headerAndData at h1
  unfold extSize at h4
  have h1' := Nat.not_lt.mpr h1
  refine ⟨by simp [microcodeSanityCheck, h1', h2, h3, h4, hsum], microcodeSanityCheck_totalsize, fun h40 => ?_⟩
  simp [microcodeSanityCheck, h1', h2, h3, h4, inside_field h40, hreads]

/-! ## The verdicts -/

/-- What is rejected early is not valid. -/
theorem RejectedEarly.not_valid (hulong : abi.ulong = 4) (h : RejectedEarly abi mc) : ¬Valid mc := by
  intro hvalid
  have hfits := hvalid.fits
  have hlt := totalSize_lt mc 0
  have hhd : headerAndData abi mc = extStart mc := headerAndData_eq (by omega)
  have hext : extSize abi mc = totalSize mc 0 - extStart mc := by rw [extSize_eq hulong (by omega), hhd]
  rcases h with hsize | hldrver | hhdrver | ⟨hne, htable⟩
  · omega
  · exact hldrver hvalid.ldrver
  · exact hhdrver hvalid.hdrver
  · have := (hvalid.table (by omega)).1
    omega

/-- Without an extended table, a valid image is one whose words sum to 0 and whose sizes do not overflow. -/
theorem NoTable.valid_iff (hulong : abi.ulong = 4) (h : NoTable abi mc) :
    Valid mc ↔ extStart mc < 2 ^ 32 ∧ wordSum mc 0 (headerAndData abi mc / 4) % 2 ^ 32 = 0 := by
  obtain ⟨h1, h2, h3, h4⟩ := h
  have hlt := totalSize_lt mc 0
  rw [extSize_eq hulong h1] at h4
  constructor
  · intro hvalid
    have hfits := hvalid.fits
    have hstart : extStart mc < 2 ^ 32 := by omega
    exact ⟨hstart, by rw [headerAndData_eq hstart]; exact hvalid.words⟩
  · rintro ⟨hstart, hwords⟩
    rw [headerAndData_eq hstart] at *
    have hends : ¬extStart mc < totalSize mc 0 := by omega
    exact ⟨by omega, h2, h3, fun h => absurd h hends, hwords, fun h => absurd h hends⟩

end Ways

/-- **Which images are validated exactly**: of those that hold their fields, the ones rejected early, and the ones
without an extended table unless their sizes overflow and their words sum to 0. -/
theorem validation_iff (abi : Abi) (mc null : Bytes) (hulong : abi.ulong = 4) : ValidationOk abi mc null ↔
    40 ≤ totalSize mc 0 ∧ (RejectedEarly abi mc ∨
      NoTable abi mc ∧ (extStart mc < 2 ^ 32 ∨ wordSum mc 0 (headerAndData abi mc / 4) % 2 ^ 32 ≠ 0)) := by
  rcases check_ways abi mc with hearly | hno | htable
  · obtain ⟨hval, hreads⟩ := rejectedEarly_spec null (totalSize mc 0) hearly
    have hexact : (microcodeSanityCheck abi mc null).val = 0 ↔ Valid mc :=
      iff_of_false (by rw [hval]; decide) (hearly.not_valid hulong)
    exact ⟨fun hok => ⟨hreads.mp hok.reads, Or.inl hearly⟩, fun h => ⟨hreads.mpr h.1, hexact⟩⟩
  · obtain ⟨hval, hreads⟩ := noTable_spec null hulong hno
    constructor
    · intro hok
      refine ⟨hreads.mp hok.reads, Or.inr ⟨hno, ?_⟩⟩
      have hexact := hok.exact
      rw [hval, hno.valid_iff hulong] at hexact
      by_cases hwords : wordSum mc 0 (headerAndData abi mc / 4) % 2 ^ 32 = 0
      · exact Or.inl (hexact.mp hwords).1
      · exact Or.inr hwords
    · rintro ⟨h40, hearly | ⟨-, hover⟩⟩
      · exact absurd hearly hno.not_early
      · refine ⟨hreads.mpr h40, ?_⟩
        rw [hval, hno.valid_iff hulong]
        exact ⟨fun hwords => ⟨hover.resolve_right fun h => h hwords, hwords⟩, And.right⟩
  · apply iff_of_false (fun hok => reachesTable_spec htable hok.reads)
    rintro ⟨-, hearly | ⟨hno, -⟩⟩
    · exact htable.not_early hearly
    · exact htable.not_noTable hno

/-! ### Two images -/

/-- A valid image with 4 bytes of data and an extended table of one signature. -/
def signed88 : Bytes := Bytes.ofList
  ([1, 0, 0, 0] ++ List.replicate 16 0 ++ [0xA2, 0xFF, 0xFF, 0xFF] ++ [1, 0, 0, 0] ++ [0, 0, 0, 0] ++ [4, 0, 0, 0] ++
    [88, 0, 0, 0] ++ List.replicate 16 0 ++ [1, 0, 0, 0] ++ [0x5D, 0, 0, 0] ++ List.replicate 20 0 ++
    [0xA2, 0xFF, 0xFF, 0xFF])

example : Valid signed88 :=
  ⟨by decide +kernel, by decide +kernel, by decide +kernel, by decide +kernel, by decide +kernel, by decide +kernel⟩

/-- Its table is not the one that is read. -/
theorem validation_counterexample :
    ¬ ∀ (abi : Abi) (mc null : Bytes), abi.ulong = 4 → ValidationOk abi mc null := by
  intro h
  have htable : ReachesTable .llp64 signed88 :=
    ⟨by decide +kernel, by decide +kernel, by decide +kernel, by decide +kernel, by decide +kernel, by decide +kernel⟩
  exact reachesTable_spec htable (h .llp64 signed88 (fun _ => 0) rfl).reads

/-- The same data without a table. -/
def plain56 : Bytes := Bytes.ofList
  ([1, 0, 0, 0] ++ List.replicate 16 0 ++ [0xC2, 0xFF, 0xFF, 0xFF] ++ [1, 0, 0, 0] ++ [0, 0, 0, 0] ++ [4, 0, 0, 0] ++
    [56, 0, 0, 0] ++ List.replicate 16 0)

theorem validation_plain56 : ValidationOk .llp64 plain56 fun _ => 0 :=
  (validation_iff .llp64 plain56 (fun _ => 0) rfl).mpr (by decide +kernel)

end Xen.Intel
