import Mathlib.Algebra.Group.Int.Defs
import Mathlib.Algebra.Group.Nat.Defs
import Mathlib.Data.Finset.Basic
import Xen.Lib.Logged
import Xen.Lib.Runs

/-!
# Memory objects, machine words and lifetimes

- `Bytes` are the bytes of one memory object by offset; `leWord b i k` is the little-endian word of `k` bytes at `i`
  (`leWord_lt`, `leWord_congr`, `leWord_update`, `leWord_byte`), `storeWord` stores one (`leWord_storeWord_self`,
  `leWord_storeWord_apart`), `int32` is the signed reading of a 32-bit word. An `Abi` says how wide `unsigned long` and
  `size_t` are.
- `MemOp ω` are the accesses to objects named by `ω` and the changes of their lifetimes. `load` and `copyLoop` are the
  logged reads and the byte loop `*d++ = *s++` (`copyLoop_val`, `leWord_copyLoop`, `copyLoop_readsIn`).
- `MemOp.ReadsIn o lo hi` bounds the bytes an access reads from `o`.
- A list of accesses is a run whose states are the live objects: `Valid` is the absence of a use after free and of a
  double free, `Fresh` is what an allocator guarantees. Reads of live objects are valid (`validOps_of_reads`).
- `OwnedOnce`: every live object is referenced by exactly one owner; `acquire` and `release` keep it.
-/

namespace Lib

/-- The bytes of one memory object, by offset from its start. Nothing says where the object ends. -/
abbrev Bytes := Nat → UInt8

/-- The object that starts with the bytes of `l`. -/
def Bytes.ofList (l : List UInt8) : Bytes := fun i => l.getD i 0

theorem Bytes.ofList_append_left {l m : List UInt8} {i : Nat} (h : i < l.length) :
    Bytes.ofList (l ++ m) i = Bytes.ofList l i := by
  simp [Bytes.ofList, List.getD_eq_getElem?_getD, List.getElem?_append_left h]

theorem Bytes.ofList_append_right (l m : List UInt8) (i : Nat) :
    Bytes.ofList (l ++ m) (l.length + i) = Bytes.ofList m i := by
  simp [Bytes.ofList, List.getD_eq_getElem?_getD, List.getElem?_append_right]

/-! ## Words -/

/-- The C data model a file is compiled for. -/
inductive Abi where
  | ilp32
  | llp64
  | lp64
deriving DecidableEq, Repr

/-- `sizeof(unsigned long)`. -/
def Abi.ulong : Abi → Nat
  | .ilp32 | .llp64 => 4
  | .lp64 => 8

/-- `sizeof(size_t)`. -/
def Abi.sizeT : Abi → Nat
  | .ilp32 => 4
  | .llp64 | .lp64 => 8

/-- The little-endian word of `k` bytes at offset `i`. -/
def leWord (b : Bytes) : (i k : Nat) → Nat
  | _, 0 => 0
  | i, k + 1 => (b i).toNat + 256 * leWord b (i + 1) k

theorem leWord_lt (b : Bytes) : ∀ (i k : Nat), leWord b i k < 256 ^ k
  | _, 0 => by simp [leWord]
  | i, k + 1 => by
    have := leWord_lt b (i + 1) k
    have := (b i).toNat_lt
    simp only [leWord, Nat.pow_succ]
    omega

/-- A word depends only on its bytes. -/
theorem leWord_congr {b c : Bytes} : ∀ {i j k : Nat}, (∀ n < k, b (i + n) = c (j + n)) → leWord b i k = leWord c j k
  | _, _, 0, _ => rfl
  | i, j, k + 1, h => by
    have h0 : b i = c j := h 0 (by omega)
    have ht : ∀ n < k, b (i + 1 + n) = c (j + 1 + n) := fun n hn => by
      simpa only [Nat.add_assoc, Nat.add_comm 1 n] using h (n + 1) (by omega)
    simp only [leWord, h0, leWord_congr ht]

/-- **One byte** of a word is replaced: the word changes by as much as the byte does at its place. -/
theorem leWord_update (b : Bytes) (v : UInt8) {j : Nat} : ∀ {i k : Nat}, i ≤ j → j < i + k →
    leWord (Function.update b j v) i k + (b j).toNat * 256 ^ (j - i) = leWord b i k + v.toNat * 256 ^ (j - i)
  | i, 0, hi, hj => by omega
  | i, k + 1, hi, hj => by
    by_cases hij : i = j
    · subst hij
      have hrest : leWord (Function.update b i v) (i + 1) k = leWord b (i + 1) k :=
        leWord_congr fun n _ => Function.update_of_ne (by omega) ..
      simp only [leWord, hrest, Function.update_self, Nat.sub_self, Nat.pow_zero]
      omega
    · have hfirst : Function.update b j v i = b i := Function.update_of_ne hij ..
      have hrest := leWord_update b v (by omega : i + 1 ≤ j) (by omega : j < i + 1 + k)
      have hpow : 256 ^ (j - i) = 256 * 256 ^ (j - (i + 1)) := by
        rw [← Nat.pow_succ']
        congr 1
        omega
      rw [leWord, leWord, hfirst, hpow, Nat.mul_left_comm, Nat.mul_left_comm v.toNat]
      omega

/-- The bytes of a word. -/
theorem leWord_byte (b : Bytes) {i k j : Nat} (h : j < k) : UInt8.ofNat (leWord b i k / 256 ^ j) = b (i + j) := by
  induction k generalizing i j with
  | zero => exact absurd h (Nat.not_lt_zero j)
  | succ k ih =>
    have hb := (b i).toNat_lt
    rw [leWord]
    cases j with
    | zero =>
      show UInt8.ofNat (((b i).toNat + 256 * leWord b (i + 1) k) / 1) = b i
      rw [Nat.div_one, ← UInt8.toNat_inj, UInt8.toNat_ofNat']
      omega
    | succ j =>
      have hrest : ((b i).toNat + 256 * leWord b (i + 1) k) / 256 = leWord b (i + 1) k := by omega
      rw [Nat.pow_succ', ← Nat.div_div_eq_div_mul, hrest, ih (Nat.lt_of_succ_lt_succ h), Nat.add_assoc,
        Nat.add_comm 1 j]

/-- The bytes after the little-endian word `v` of `k` bytes has been stored at offset `i`. -/
def storeWord (b : Bytes) (i k v : Nat) : Bytes :=
  fun j => if i ≤ j ∧ j < i + k then UInt8.ofNat (v / 256 ^ (j - i)) else b j

theorem storeWord_inside (b : Bytes) (v : Nat) {i k j : Nat} (h : i ≤ j ∧ j < i + k) :
    storeWord b i k v j = UInt8.ofNat (v / 256 ^ (j - i)) := if_pos h

theorem storeWord_outside (b : Bytes) (v : Nat) {i k j : Nat} (h : j < i ∨ i + k ≤ j) : storeWord b i k v j = b j :=
  if_neg (by omega)

/-- A word of the bytes of `v`. -/
theorem leWord_eq_mod {b : Bytes} : ∀ {i k v : Nat}, (∀ n < k, b (i + n) = UInt8.ofNat (v / 256 ^ n)) →
    leWord b i k = v % 256 ^ k
  | _, 0, v, _ => (Nat.mod_one v).symm
  | i, k + 1, v, h => by
    have hfirst : (b i).toNat = v % 256 := by
      rw [show b i = UInt8.ofNat (v / 256 ^ 0) from h 0 (Nat.succ_pos k), Nat.pow_zero, Nat.div_one]
      rfl
    have hrest : leWord b (i + 1) k = v / 256 % 256 ^ k := leWord_eq_mod fun n hn => by
      rw [Nat.add_assoc, Nat.add_comm 1 n, h (n + 1) (Nat.succ_lt_succ hn), Nat.pow_succ', Nat.div_div_eq_div_mul]
    rw [leWord, hfirst, hrest, Nat.pow_succ', Nat.mod_mul]

/-- The word that was stored. -/
theorem leWord_storeWord_self (b : Bytes) (i k v : Nat) : leWord (storeWord b i k v) i k = v % 256 ^ k := by
  apply leWord_eq_mod
  intro n hn
  rw [storeWord_inside b v ⟨Nat.le_add_right i n, Nat.add_lt_add_left hn i⟩, Nat.add_sub_cancel_left]

/-- A word apart from the one that was stored. -/
theorem leWord_storeWord_apart (b : Bytes) (v : Nat) {i k j n : Nat} (h : j + n ≤ i ∨ i + k ≤ j) :
    leWord (storeWord b i k v) j n = leWord b j n :=
  leWord_congr fun m hm => storeWord_outside b v (by omega)

/-- `(int) n` for a 32-bit `n`: two's complement. -/
def int32 (n : Nat) : Int := if n % 2 ^ 32 < 2 ^ 31 then (n % 2 ^ 32 : Nat) else (n % 2 ^ 32 : Nat) - 2 ^ 32

theorem int32_of_lt {n : Nat} (h : n < 2 ^ 31) : int32 n = n := by
  unfold int32
  split <;> omega

/-! ## Accesses -/

/-- An access to an object, a change of an object's lifetime, or a request for an object of `len` bytes. -/
inductive MemOp (ω : Type) where
  | read (o : ω) (off len : Nat)
  | write (o : ω) (off len : Nat)
  | ask (len : Nat)
  | malloc (o : ω)
  | free (o : ω)
deriving DecidableEq, Repr

section Accesses

variable {ω : Type}

/-- The bytes the access reads from `o`, if any, are at offsets `lo ≤ i < hi`. -/
def MemOp.ReadsIn (o : ω) (lo hi : Nat) : MemOp ω → Prop
  | .read o' off len => o' = o → ∀ i, off ≤ i → i < off + len → lo ≤ i ∧ i < hi
  | _ => True

theorem MemOp.readsIn_read {o o' : ω} {lo hi off len : Nat} (hlen : 0 < len) :
    (MemOp.read o' off len).ReadsIn o lo hi ↔ (o' = o → lo ≤ off ∧ off + len ≤ hi) := by
  refine imp_congr_right fun _ => ⟨fun h => ?_, fun h i h1 h2 => by omega⟩
  have h1 := h off (Nat.le_refl _) (by omega)
  have h2 := h (off + len - 1) (by omega) (by omega)
  omega

theorem MemOp.ReadsIn.mono {o : ω} {lo hi lo' hi' : Nat} (hlo : lo' ≤ lo) (hhi : hi ≤ hi') {op : MemOp ω}
    (hr : op.ReadsIn o lo hi) : op.ReadsIn o lo' hi' := by
  cases op with
  | read o' off len => exact fun ho i h1 h2 => by have := hr ho i h1 h2; omega
  | _ => trivial

/-- Read the word of `k` bytes at offset `i` of `o`, whose bytes are `b`. -/
def load (o : ω) (b : Bytes) (i k : Nat) : Logged (MemOp ω) Nat := do
  Logged.emit (.read o i k)
  pure (leWord b i k)

@[simp] theorem val_load (o : ω) (b : Bytes) (i k : Nat) : (load o b i k).val = leWord b i k := by
  simp [load]

@[simp] theorem only_load {P : MemOp ω → Prop} (o : ω) (b : Bytes) (i k : Nat) :
    (load o b i k).Only P ↔ P (.read o i k) := by simp [load]

/-- `for (; n; n--) *d++ = *s++`, from offset `i` of the target `dst` and offset `base + i` of the source `src`. -/
def copyLoop (o d : ω) (src : Bytes) (base : Nat) : (n i : Nat) → (dst : Bytes) → Logged (MemOp ω) Bytes
  | 0, _, dst => pure dst
  | n + 1, i, dst => do
    Logged.emit (.read o (base + i) 1)
    Logged.emit (.write d i 1)
    copyLoop o d src base n (i + 1) (Function.update dst i (src (base + i)))

/-- The copied bytes are the source's, the others stay. -/
theorem copyLoop_val (o d : ω) (src : Bytes) (base : Nat) : ∀ (n i : Nat) (dst : Bytes) (j : Nat),
    (copyLoop o d src base n i dst).val j = if i ≤ j ∧ j < i + n then src (base + j) else dst j
  | 0, i, dst, j => by
    rw [if_neg (by omega)]
    rfl
  | n + 1, i, dst, j => by
    simp only [copyLoop, Logged.val_bind]
    rw [copyLoop_val o d src base n (i + 1)]
    by_cases hj : j = i
    · subst hj
      rw [if_neg (by omega), if_pos (by omega), Function.update_self]
    · rw [Function.update_of_ne hj]
      by_cases h : i + 1 ≤ j ∧ j < i + 1 + n
      · rw [if_pos h, if_pos (by omega)]
      · rw [if_neg h, if_neg (by omega)]

/-- A word inside the copy is the source's. -/
theorem leWord_copyLoop (o d : ω) (src : Bytes) (base : Nat) (dst : Bytes) {n i k : Nat} (h : i + k ≤ n) :
    leWord (copyLoop o d src base n 0 dst).val i k = leWord src (base + i) k :=
  leWord_congr fun m hm => by rw [copyLoop_val, if_pos (by omega), Nat.add_assoc]

/-- The copy reads the source at `base + i` up to `base + i + n`. -/
theorem copyLoop_readsIn {o d o' : ω} {src : Bytes} {base lo hi : Nat} : ∀ {n i : Nat} {dst : Bytes},
    (copyLoop o d src base n i dst).Only (MemOp.ReadsIn o' lo hi) ↔
      (0 < n → o = o' → lo ≤ base + i ∧ base + i + n ≤ hi)
  | 0, i, dst => by simp [copyLoop]
  | n + 1, i, dst => by
    have hw : (MemOp.write d i 1).ReadsIn o' lo hi := trivial
    simp only [copyLoop, Logged.only_bind, Logged.only_emit, MemOp.readsIn_read Nat.one_pos, hw,
      copyLoop_readsIn (n := n) (i := i + 1), true_and]
    constructor
    · rintro ⟨h1, h2⟩ - ho
      have := h1 ho
      rcases Nat.eq_zero_or_pos n with rfl | hn
      · omega
      · have := h2 hn ho
        omega
    · intro h
      exact ⟨fun ho => by have := h (by omega) ho; omega, fun hn ho => by have := h (by omega) ho; omega⟩

end Accesses

/-! ## Lifetimes -/

section Lifetimes

variable {ω : Type} [DecidableEq ω]

/-- The live objects after an access. -/
def MemOp.live (live : Finset ω) : MemOp ω → Finset ω
  | .malloc o => insert o live
  | .free o => live.erase o
  | _ => live

/-- No access to a dead object and no second `free`; freeing `null` does nothing. -/
def MemOp.Valid (null : ω) (live : Finset ω) : MemOp ω → Prop
  | .read o _ _ => o ∈ live
  | .write o _ _ => o ∈ live
  | .ask _ | .malloc _ => True
  | .free o => o = null ∨ o ∈ live

/-- An allocator hands out objects that are not live, and never `null`. -/
def MemOp.Fresh (null : ω) (live : Finset ω) : MemOp ω → Prop
  | .malloc o => o ≠ null ∧ o ∉ live
  | _ => True

instance (null : ω) (live : Finset ω) : ∀ op : MemOp ω, Decidable (op.Valid null live)
  | .read o _ _ => inferInstanceAs (Decidable (o ∈ live))
  | .write o _ _ => inferInstanceAs (Decidable (o ∈ live))
  | .ask _ | .malloc _ => .isTrue trivial
  | .free o => inferInstanceAs (Decidable (o = null ∨ o ∈ live))

instance (null : ω) (live : Finset ω) : ∀ op : MemOp ω, Decidable (op.Fresh null live)
  | .malloc o => inferInstanceAs (Decidable (o ≠ null ∧ o ∉ live))
  | .read .. | .write .. | .ask _ | .free _ => .isTrue trivial

/-- The live objects after a list of accesses. -/
def liveAfter (live : Finset ω) (ops : List (MemOp ω)) : Finset ω := ops.foldl MemOp.live live

/-- The sizes of objects after a list of accesses: a new object is as large as was asked for last, and that is `asked`
before the list. -/
def sizesAfter : (size : ω → Nat) → (asked : Nat) → List (MemOp ω) → ω → Nat
  | size, _, [] => size
  | size, _, .ask len :: ops => sizesAfter size len ops
  | size, asked, .malloc o :: ops => sizesAfter (Function.update size o asked) asked ops
  | size, asked, _ :: ops => sizesAfter size asked ops

/-- Every access of the list is valid when it is made. -/
def ValidOps (null : ω) (live : Finset ω) (ops : List (MemOp ω)) : Prop :=
  Along (MemOp.Valid null) MemOp.live live ops

/-- Every allocation of the list is fresh when it is made. -/
def FreshOps (null : ω) (live : Finset ω) (ops : List (MemOp ω)) : Prop :=
  Along (MemOp.Fresh null) MemOp.live live ops

@[simp] theorem liveAfter_append (live : Finset ω) (ops ops' : List (MemOp ω)) :
    liveAfter live (ops ++ ops') = liveAfter (liveAfter live ops) ops' := List.foldl_append

@[simp] theorem validOps_append (null : ω) (live : Finset ω) (ops ops' : List (MemOp ω)) :
    ValidOps null live (ops ++ ops') ↔ ValidOps null live ops ∧ ValidOps null (liveAfter live ops) ops' :=
  along_append live ops ops'

@[simp] theorem freshOps_append (null : ω) (live : Finset ω) (ops ops' : List (MemOp ω)) :
    FreshOps null live (ops ++ ops') ↔ FreshOps null live ops ∧ FreshOps null (liveAfter live ops) ops' :=
  along_append live ops ops'

/-- The access only reads, from an object of `S`. -/
def MemOp.ReadsOf (S : ω → Prop) : MemOp ω → Prop
  | .read o _ _ => S o
  | _ => False

/-- **Reads.** Reading live objects is valid and changes no lifetime. -/
theorem validOps_of_reads {live : Finset ω} (null : ω) : ∀ {ops : List (MemOp ω)},
    (∀ op ∈ ops, op.ReadsOf (· ∈ live)) → ValidOps null live ops ∧ liveAfter live ops = live
  | [], _ => ⟨trivial, rfl⟩
  | .read o off len :: ops, h => by
    obtain ⟨ho, hops⟩ := List.forall_mem_cons.mp h
    have ih := validOps_of_reads null hops
    exact ⟨⟨ho, ih.1⟩, ih.2⟩
  | .write .. :: _, h => absurd (h _ List.mem_cons_self) id
  | .ask _ :: _, h => absurd (h _ List.mem_cons_self) id
  | .malloc _ :: _, h => absurd (h _ List.mem_cons_self) id
  | .free _ :: _, h => absurd (h _ List.mem_cons_self) id

instance (null : ω) (live : Finset ω) (ops : List (MemOp ω)) : Decidable (ValidOps null live ops) :=
  inferInstanceAs (Decidable (Along _ _ _ _))

instance (null : ω) (live : Finset ω) (ops : List (MemOp ω)) : Decidable (FreshOps null live ops) :=
  inferInstanceAs (Decidable (Along _ _ _ _))

end Lifetimes

/-! ## Ownership -/

/-- The references `ref` of the owners in `S` are `null` or lead to live objects, each referenced exactly once. -/
structure OwnedOnce {α ω : Type} (null : ω) (S : α → Prop) (ref : α → ω) (live : Finset ω) : Prop where
  owner : ∀ o ∈ live, ∃! a, S a ∧ ref a = o
  owned : ∀ a, S a → ref a ≠ null → ref a ∈ live
  notNull : null ∉ live

section Ownership

variable {α ω : Type} {null : ω} {S : α → Prop} {ref : α → ω} {live : Finset ω}

/-- Nobody owns anything. -/
theorem ownedOnce_empty (h : ∀ a, S a → ref a = null) : OwnedOnce null S ref ∅ :=
  ⟨fun o ho => absurd ho (Finset.notMem_empty o), fun a ha hne => absurd (h a ha) hne, Finset.notMem_empty null⟩

/-- What nobody references is not live. -/
theorem OwnedOnce.eq_empty (h : OwnedOnce null S ref live) (hnone : ∀ a, S a → ref a = null) : live = ∅ := by
  apply Finset.eq_empty_of_forall_notMem
  intro o ho
  obtain ⟨a, ⟨ha, rfl⟩, -⟩ := h.owner o ho
  rw [hnone a ha] at ho
  exact h.notNull ho

/-- An owner may free its object. -/
theorem OwnedOnce.valid_free (h : OwnedOnce null S ref live) {a : α} (ha : S a) :
    (MemOp.free (ref a)).Valid null live := by
  by_cases hnull : ref a = null
  · exact Or.inl hnull
  · exact Or.inr (h.owned a ha hnull)

variable [DecidableEq α]

/-- An object keeps its owner when another reference is changed. -/
theorem OwnedOnce.owner_update (h : OwnedOnce null S ref live) {a : α} {x o : ω} (ho : o ∈ live) (hold : ref a ≠ o)
    (hnew : x ≠ o) : ∃! b, S b ∧ Function.update ref a x b = o := by
  obtain ⟨b, ⟨hb, rfl⟩, honly⟩ := h.owner o ho
  have hba : b ≠ a := fun heq => hold (heq ▸ rfl)
  refine ⟨b, ⟨hb, Function.update_of_ne hba _ _⟩, ?_⟩
  rintro c ⟨hc, href⟩
  by_cases hca : c = a
  · rw [hca, Function.update_self] at href
    exact absurd href hnew
  · rw [Function.update_of_ne hca] at href
    exact honly c ⟨hc, href⟩

variable [DecidableEq ω]

/-- **Acquiring.** An owner without an object takes a fresh one. -/
theorem OwnedOnce.acquire (h : OwnedOnce null S ref live) {a : α} {o : ω} (ha : S a) (hnone : ref a = null)
    (hfresh : (MemOp.malloc o).Fresh null live) : OwnedOnce null S (Function.update ref a o) (insert o live) := by
  obtain ⟨hne, hnew⟩ := hfresh
  constructor
  · intro o' ho'
    rcases Finset.mem_insert.mp ho' with rfl | hold
    · refine ⟨a, ⟨ha, Function.update_self _ _ _⟩, ?_⟩
      rintro b ⟨hb, href⟩
      by_contra hba
      rw [Function.update_of_ne hba] at href
      exact hnew (href ▸ h.owned b hb (href ▸ hne))
    · refine h.owner_update hold (fun heq => h.notNull ?_) fun heq => hnew (heq ▸ hold)
      rw [← hnone, heq]
      exact hold
  · intro b hb href
    by_cases hba : b = a
    · rw [hba, Function.update_self]
      exact Finset.mem_insert_self o live
    · rw [Function.update_of_ne hba] at href ⊢
      exact Finset.mem_insert_of_mem (h.owned b hb href)
  · intro hmem
    rcases Finset.mem_insert.mp hmem with heq | hold
    · exact hne heq.symm
    · exact h.notNull hold

/-- **Releasing.** An owner frees its object and forgets it. -/
theorem OwnedOnce.release (h : OwnedOnce null S ref live) {a : α} (ha : S a) :
    OwnedOnce null S (Function.update ref a null) (live.erase (ref a)) := by
  constructor
  · intro o ho
    obtain ⟨hne, hold⟩ := Finset.mem_erase.mp ho
    exact h.owner_update hold (Ne.symm hne) fun heq => h.notNull (heq ▸ hold)
  · intro b hb href
    by_cases hba : b = a
    · exact absurd (by rw [hba, Function.update_self]) href
    · rw [Function.update_of_ne hba] at href ⊢
      have hlive := h.owned b hb href
      refine Finset.mem_erase.mpr ⟨fun heq => hba ?_, hlive⟩
      exact (h.owner _ hlive).unique ⟨hb, rfl⟩ ⟨ha, heq.symm⟩
  · exact fun hmem => h.notNull (Finset.mem_of_mem_erase hmem)

end Ownership

end Lib
