import Mathlib.Algebra.Group.Int.Defs
import Xen.Lib.CString

/-!
# Comparison of memory blocks and strings (`string_verified.c`)

- `memcmp`, `strcmp` and `strncmp` return the difference of the bytes where they stop, as a `signed char` (`byteDiff`);
  what they read is logged.
- `memcmp_iff`: the sign of `memcmp` is right exactly for differences that a `signed char` holds.
- `strcmp_order_iff`: `gap` is how far apart two bytes are modulo 256, and `strcmp` is negative for gaps of 1 to 128. It
  is an order exactly as long as no gap is 128 and no two gaps at one index sum up to more.
- `strncmp_agrees`: up to its bound, `strncmp` is `strcmp`.
-/

namespace Xen.Strings

open Lib

variable {ω : Type}

/-! ## The functions -/

/-- A number as a `signed char`. -/
def signedChar (n : Int) : Int := Int.bmod n 256

/-- A `char` as an `int`; it is signed. -/
def charToInt (c : UInt8) : Int := signedChar c.toNat

/-- The loop of `memcmp`. -/
def memcmpLoop : (count : Nat) → (su1 su2 : Ptr ω) → (res : Int) → Logged (MemOp ω) Int
  | 0, _, _, res => pure res
  | count + 1, su1, su2, _ => do
    let c1 ← su1.deref
    let c2 ← su2.deref
    let res := signedChar (c1.toNat - c2.toNat)
    if res ≠ 0 then pure res else memcmpLoop count (su1.add 1) (su2.add 1) res

def memcmp (cs ct : Ptr ω) (count : Nat) : Logged (MemOp ω) Int := memcmpLoop count cs ct 0

/-- `(__res = *cs - *ct++) != 0 || !*cs++`: `__res`, and whether the loop is left. -/
def compareChars (cs ct : Ptr ω) : Logged (MemOp ω) (Int × Bool) := do
  let c ← cs.deref
  let d ← ct.deref
  let res := signedChar (charToInt c - charToInt d)
  if res ≠ 0 then pure (res, true) else do
    let c ← cs.deref
    pure (res, c == 0)

/-- The loop of `strncmp`. -/
def strncmpLoop : (count : Nat) → (cs ct : Ptr ω) → (res : Int) → Logged (MemOp ω) Int
  | 0, _, _, res => pure res
  | count + 1, cs, ct, _ => do
    let r ← compareChars cs ct
    if r.2 then pure r.1 else strncmpLoop count (cs.add 1) (ct.add 1) r.1

def strncmp (cs ct : Ptr ω) (count : Nat) : Logged (MemOp ω) Int := strncmpLoop count cs ct 0

/-- The body of `strcmp`. -/
def strcmpBody (s : Ptr ω × Ptr ω) : Logged (MemOp ω) (Iter (Ptr ω × Ptr ω) Int) := do
  let r ← compareChars s.1 s.2
  if r.2 then pure (.leave r.1) else pure (.next (s.1.add 1, s.2.add 1))

/-- `strcmp`; `none` when `fuel` iterations do not end the loop. -/
def strcmp (fuel : Nat) (cs ct : Ptr ω) : Logged (MemOp ω) (Option Int) := loop strcmpBody fuel (cs, ct)

/-! ## Differences of bytes -/

/-- What the functions return for the bytes where they stop. -/
def byteDiff (a b : UInt8) : Int := signedChar (a.toNat - b.toNat)

/-- How far `b` is ahead of `a`, modulo 256. -/
def gap (a b : UInt8) : Nat := (b - a).toNat

section Bytes

variable (a b c : UInt8)

/-- Whether `char` is signed does not matter. -/
theorem signedChar_charToInt : signedChar (charToInt a - charToInt b) = byteDiff a b := by
  unfold charToInt byteDiff signedChar
  rw [Int.sub_bmod_bmod, Int.bmod_sub_bmod]

theorem gap_eq : gap a b = (256 - a.toNat + b.toNat) % 256 := UInt8.toNat_sub b a

/-- The gap and the difference are the same, modulo 256. -/
theorem byteDiff_eq : byteDiff a b = if gap a b ≤ 128 then -(gap a b : Int) else 256 - gap a b := by
  have ha := a.toNat_lt
  have hb := b.toNat_lt
  rw [gap_eq, byteDiff, signedChar, Int.bmod_def]
  split <;> split <;> omega

theorem byteDiff_eq_zero_iff : byteDiff a b = 0 ↔ a = b := by
  have ha := a.toNat_lt
  have hb := b.toNat_lt
  rw [byteDiff_eq, gap_eq, ← UInt8.toNat_inj]
  split <;> omega

theorem byteDiff_neg_iff : byteDiff a b < 0 ↔ 1 ≤ gap a b ∧ gap a b ≤ 128 := by
  have hg : gap a b < 256 := (b - a).toNat_lt
  rw [byteDiff_eq]
  split <;> omega

theorem byteDiff_pos_iff : 0 < byteDiff a b ↔ 128 < gap a b := by
  have hg : gap a b < 256 := (b - a).toNat_lt
  rw [byteDiff_eq]
  split <;> omega

/-- Back from `b` to `a`. -/
theorem gap_swap : gap b a = (256 - gap a b) % 256 := by
  have ha := a.toNat_lt
  have hb := b.toNat_lt
  rw [gap_eq, gap_eq]
  omega

/-- From `a` on to `c` by `b`. -/
theorem gap_trans : gap a c = (gap a b + gap b c) % 256 := by
  have ha := a.toNat_lt
  have hb := b.toNat_lt
  have hc := c.toNat_lt
  rw [gap_eq, gap_eq, gap_eq]
  omega

/-- The sign is that of the exact difference if that fits. -/
theorem byteDiff_sign_iff : (byteDiff a b < 0 ↔ a < b) ∧ (0 < byteDiff a b ↔ b < a) ↔
    (-128 : Int) ≤ a.toNat - b.toNat ∧ (a.toNat - b.toNat : Int) ≤ 127 := by
  have ha := a.toNat_lt
  have hb := b.toNat_lt
  rw [byteDiff_eq, gap_eq, UInt8.lt_iff_toNat_lt, UInt8.lt_iff_toNat_lt]
  split <;> omega

theorem gap_eq_zero_iff : gap a b = 0 ↔ a = b := by
  have ha := a.toNat_lt
  have hb := b.toNat_lt
  rw [gap_eq, ← UInt8.toNat_inj]
  omega

end Bytes

/-! ## `memcmp` -/

section Memcmp

variable {cs ct : Ptr ω} {count k : Nat}

/-- An iteration on different bytes. -/
theorem memcmpLoop_leave (res : Int) (h : cs.get 0 ≠ ct.get 0) :
    (memcmpLoop (count + 1) cs ct res).val = byteDiff (cs.get 0) (ct.get 0) := by
  have hne : signedChar ((cs.get 0).toNat - (ct.get 0).toNat) ≠ 0 := mt (byteDiff_eq_zero_iff _ _).mp h
  simp [memcmpLoop, hne, byteDiff]

/-- An iteration on the same byte. -/
theorem memcmpLoop_next (res : Int) (h : cs.get 0 = ct.get 0) :
    (memcmpLoop (count + 1) cs ct res).val = (memcmpLoop count (cs.add 1) (ct.add 1) 0).val := by
  have heq : signedChar ((cs.get 0).toNat - (ct.get 0).toNat) = 0 := (byteDiff_eq_zero_iff _ _).mpr h
  simp [memcmpLoop, heq]

/-- **The loop of `memcmp`** goes past equal bytes. -/
theorem memcmpLoop_skip (n count : Nat) (h : ∀ i < n, cs.get i = ct.get i) :
    (memcmpLoop (n + count) cs ct 0).val = (memcmpLoop count (cs.add n) (ct.add n) 0).val := by
  induction n generalizing cs ct with
  | zero => rw [Nat.zero_add, Ptr.add_zero, Ptr.add_zero]
  | succ n ih =>
    rw [Nat.add_right_comm, memcmpLoop_next 0 (h 0 (Nat.succ_pos n)), ih, Ptr.add_add, Ptr.add_add, Nat.add_comm 1 n]
    intro i hi
    rw [Ptr.get_add, Ptr.get_add]
    exact h (1 + i) (by omega)

/-- Equal blocks. -/
theorem memcmp_of_eq (h : ∀ i < count, cs.get i = ct.get i) : (memcmp cs ct count).val = 0 :=
  memcmpLoop_skip count 0 h

/-- Blocks that differ. -/
theorem memcmp_of_differs (hk : k < count) (h : DiffersAt cs.get ct.get k) :
    (memcmp cs ct count).val = byteDiff (cs.get k) (ct.get k) := by
  obtain ⟨n, rfl⟩ := Nat.exists_eq_add_of_lt hk
  have hne : (cs.add k).get 0 ≠ (ct.add k).get 0 := h.ne
  rw [memcmp, Nat.add_assoc, memcmpLoop_skip k (n + 1) h.before, memcmpLoop_leave 0 hne]
  rfl

/-- **`memcmp`** returns 0 for equal blocks only. -/
theorem memcmp_eq_zero_iff : (memcmp cs ct count).val = 0 ↔ ∀ i < count, cs.get i = ct.get i := by
  rcases eq_or_differsAt cs.get ct.get count with heq | ⟨k, hk, hd⟩
  · exact iff_of_true (memcmp_of_eq heq) heq
  · rw [memcmp_of_differs hk hd, byteDiff_eq_zero_iff]
    exact iff_of_false hd.ne fun h => hd.ne (h k hk)

/-- `memcmp` reads the blocks only. -/
theorem memcmpLoop_reads (count : Nat) (cs ct : Ptr ω) (res : Int) :
    (memcmpLoop count cs ct res).Only fun op => cs.ReadsBelow count op ∨ ct.ReadsBelow count op := by
  induction count generalizing cs ct res with
  | zero => simp [memcmpLoop]
  | succ count ih =>
    have hnext : (memcmpLoop count (cs.add 1) (ct.add 1) (byteDiff (cs.get 0) (ct.get 0))).Only fun op =>
        cs.ReadsBelow (count + 1) op ∨ ct.ReadsBelow (count + 1) op := by
      intro op hop
      rw [Nat.add_comm count 1]
      exact (ih _ _ _ op hop).imp Ptr.ReadsBelow.of_add Ptr.ReadsBelow.of_add
    have hpos : 0 < count + 1 := Nat.succ_pos count
    rw [memcmpLoop, Logged.only_bind, Ptr.only_deref, Logged.only_bind, Ptr.only_deref]
    refine ⟨Or.inl (cs.readsBelow_deref hpos), Or.inr (ct.readsBelow_deref hpos), ?_⟩
    rw [Logged.only_ite]
    exact ⟨fun _ => Logged.only_pure _, fun _ => hnext⟩

/-- **The order of blocks**: the result has the sign of the difference at the first differing index. -/
structure MemcmpOk (a b : Bytes) (count : Nat) (r : Int) : Prop where
  eq : r = 0 ↔ ∀ i < count, a i = b i
  neg : r < 0 ↔ ∃ k < count, DiffersAt a b k ∧ a k < b k
  pos : 0 < r ↔ ∃ k < count, DiffersAt a b k ∧ b k < a k

/-- **`memcmp`** orders blocks properly exactly if a `signed char` holds the difference where they differ first. -/
theorem memcmp_iff (cs ct : Ptr ω) (count : Nat) :
    MemcmpOk cs.get ct.get count (memcmp cs ct count).val ↔
      ∀ k < count, DiffersAt cs.get ct.get k →
        (-128 : Int) ≤ (cs.get k).toNat - (ct.get k).toNat ∧ ((cs.get k).toNat - (ct.get k).toNat : Int) ≤ 127 := by
  rcases eq_or_differsAt cs.get ct.get count with heq | ⟨k, hk, hd⟩
  · have hnone : ∀ i < count, ¬DiffersAt cs.get ct.get i := fun i hi h => h.ne (heq i hi)
    refine iff_of_true ?_ fun i hi h => absurd h (hnone i hi)
    rw [memcmp_of_eq heq]
    constructor
    · exact iff_of_true rfl heq
    · exact iff_of_false (by decide) fun ⟨i, hi, h, _⟩ => hnone i hi h
    · exact iff_of_false (by decide) fun ⟨i, hi, h, _⟩ => hnone i hi h
  · have hval := memcmp_of_differs hk hd
    have hfirst : (∀ i < count, DiffersAt cs.get ct.get i → (-128 : Int) ≤ (cs.get i).toNat - (ct.get i).toNat ∧
        ((cs.get i).toNat - (ct.get i).toNat : Int) ≤ 127) ↔
        (-128 : Int) ≤ (cs.get k).toNat - (ct.get k).toNat ∧ ((cs.get k).toNat - (ct.get k).toNat : Int) ≤ 127 := by
      constructor
      · intro h
        exact h k hk hd
      · intro h i _ hi
        rwa [hi.unique hd]
    rw [hfirst, ← byteDiff_sign_iff, hval]
    constructor
    · intro h
      exact ⟨h.neg.trans (hd.exists_iff hk fun i => cs.get i < ct.get i),
        h.pos.trans (hd.exists_iff hk fun i => ct.get i < cs.get i)⟩
    · rintro ⟨hneg, hpos⟩
      constructor
      · rw [← hval]
        exact memcmp_eq_zero_iff
      · exact hneg.trans (hd.exists_iff hk fun i => cs.get i < ct.get i).symm
      · exact hpos.trans (hd.exists_iff hk fun i => ct.get i < cs.get i).symm

/-- 255 against 0, a difference of -1. -/
theorem memcmp_counterexample :
    ¬ ∀ (cs ct : Ptr Bool) (count : Nat), MemcmpOk cs.get ct.get count (memcmp cs ct count).val := by
  intro h
  have hneg := (h ⟨true, fun _ => 255, 0⟩ ⟨false, fun _ => 0, 0⟩ 1).neg.mp (by decide)
  obtain ⟨k, -, -, hlt⟩ := hneg
  exact absurd hlt (by decide : ¬(255 : UInt8) < 0)

end Memcmp

/-! ## `strcmp` and `strncmp` -/

section Strcmp

variable {cs ct : Ptr ω} {count k : Nat}

/-- The characters differ, or both strings end. -/
theorem compareChars_stop (h : cs.get 0 ≠ ct.get 0 ∨ cs.get 0 = 0) :
    (compareChars cs ct).val = (byteDiff (cs.get 0) (ct.get 0), true) := by
  by_cases heq : cs.get 0 = ct.get 0
  · have h0 : cs.get 0 = 0 := h.resolve_left (not_not_intro heq)
    have hdiff : byteDiff 0 (ct.get 0) = 0 := by
      rw [← h0, heq]
      exact (byteDiff_eq_zero_iff _ _).mpr rfl
    simp [compareChars, signedChar_charToInt, h0, hdiff]
  · have hdiff : byteDiff (cs.get 0) (ct.get 0) ≠ 0 := mt (byteDiff_eq_zero_iff _ _).mp heq
    simp [compareChars, signedChar_charToInt, hdiff]

/-- They go on. -/
theorem compareChars_next (h : cs.get 0 = ct.get 0 ∧ cs.get 0 ≠ 0) : (compareChars cs ct).val = (0, false) := by
  have hdiff : byteDiff (cs.get 0) (ct.get 0) = 0 := (byteDiff_eq_zero_iff _ _).mpr h.1
  simp [compareChars, signedChar_charToInt, hdiff, h.2]

/-- `compareChars` reads the first characters only. -/
theorem compareChars_reads {n : Nat} (hn : 0 < n) :
    (compareChars cs ct).Only fun op => cs.ReadsBelow n op ∨ ct.ReadsBelow n op := by
  have hcs := cs.readsBelow_deref hn
  have hct := ct.readsBelow_deref hn
  rw [compareChars, Logged.only_bind, Ptr.only_deref, Logged.only_bind, Ptr.only_deref, Logged.only_ite]
  refine ⟨Or.inl hcs, Or.inr hct, fun _ => Logged.only_pure _, fun _ => ?_⟩
  rw [Logged.only_bind, Ptr.only_deref]
  exact ⟨Or.inl hcs, Logged.only_pure _⟩

/-- **`strcmp`** returns the difference where the strings stop. -/
theorem strcmp_val {fuel : Nat} (h : StopsAt cs.get ct.get k) (hf : k < fuel) :
    (strcmp fuel cs ct).val = some (byteDiff (cs.get k) (ct.get k)) := by
  have hnext : ∀ j < k, (strcmpBody (cs.add j, ct.add j)).val = .next (cs.add (j + 1), ct.add (j + 1)) := by
    intro j hj
    have hchars : (compareChars (cs.add j) (ct.add j)).val = (0, false) := by
      apply compareChars_next
      rw [Ptr.get_add_zero, Ptr.get_add_zero]
      exact h.before j hj
    simp [strcmpBody, hchars]
  have hleave : (strcmpBody (cs.add k, ct.add k)).val = .leave (byteDiff (cs.get k) (ct.get k)) := by
    have hchars : (compareChars (cs.add k) (ct.add k)).val =
        (byteDiff ((cs.add k).get 0) ((ct.add k).get 0), true) := by
      apply compareChars_stop
      rw [Ptr.get_add_zero, Ptr.get_add_zero]
      exact h.stop
    simp [strcmpBody, hchars]
  exact (loop_through (f := fun j => (cs.add j, ct.add j)) hnext hleave hf).1

/-- **`strncmp`** does so up to its bound. -/
theorem strncmpLoop_val (count : Nat) (h : StopsAt cs.get ct.get k) :
    (strncmpLoop count cs ct 0).val = if k < count then byteDiff (cs.get k) (ct.get k) else 0 := by
  induction count generalizing cs ct k with
  | zero => rfl
  | succ count ih =>
    cases k with
    | zero => simp [strncmpLoop, compareChars_stop h.stop]
    | succ k =>
      have hnext := compareChars_next (h.before 0 (Nat.succ_pos k))
      have hrest := ih h.tail
      rw [Ptr.get_add, Ptr.get_add, Nat.add_comm 1 k] at hrest
      simp only [strncmpLoop, Logged.val_bind, hnext]
      rw [if_neg (by decide), hrest]
      simp only [Nat.add_lt_add_iff_right]

/-- `strncmp` reads no character at its bound or behind. -/
theorem strncmpLoop_reads (count : Nat) (cs ct : Ptr ω) (res : Int) :
    (strncmpLoop count cs ct res).Only fun op => cs.ReadsBelow count op ∨ ct.ReadsBelow count op := by
  induction count generalizing cs ct res with
  | zero => simp [strncmpLoop]
  | succ count ih =>
    rw [strncmpLoop, Logged.only_bind, Logged.only_ite]
    refine ⟨compareChars_reads (Nat.succ_pos count), fun _ => Logged.only_pure _, fun _ op hop => ?_⟩
    rw [Nat.add_comm count 1]
    exact (ih _ _ _ op hop).imp Ptr.ReadsBelow.of_add Ptr.ReadsBelow.of_add

/-- **Up to its bound, `strncmp` is `strcmp`** on strings that stop at `k`: it returns what `strcmp` does if the bound
is behind `k`, else 0, and it reads nothing at its bound or behind. -/
structure StrncmpOk (cs ct : Ptr ω) (count k : Nat) : Prop where
  value : ∃ r, (∀ fuel, k < fuel → (strcmp fuel cs ct).val = some r) ∧
    (strncmp cs ct count).val = if k < count then r else 0
  reads : (strncmp cs ct count).Only fun op => cs.ReadsBelow count op ∨ ct.ReadsBelow count op

theorem strncmp_agrees (cs ct : Ptr ω) (n : Nat) (hcs : IsString cs.get n) (count : Nat) :
    ∃ k, StopsAt cs.get ct.get k ∧ StrncmpOk cs ct count k := by
  obtain ⟨k, -, hk⟩ := hcs.stopsAt ct.get
  refine ⟨k, hk, ?_, strncmpLoop_reads count cs ct 0⟩
  exact ⟨byteDiff (cs.get k) (ct.get k), fun fuel hf => strcmp_val hk hf, strncmpLoop_val count hk⟩

end Strcmp

/-- "ab" and "ac", up to the second character. -/
theorem strncmp_agrees_ab :
    ∃ k, StopsAt (Ptr.ofList true [97, 98]).get (Ptr.ofList false [97, 99]).get k ∧
      StrncmpOk (Ptr.ofList true [97, 98]) (Ptr.ofList false [97, 99]) 1 k :=
  strncmp_agrees (Ptr.ofList true [97, 98]) (Ptr.ofList false [97, 99]) 2 ⟨rfl, by decide⟩ 1

/-! ## The order of `strcmp` -/

section Order

def Negative (x : Option Int) : Prop := ∃ r, x = some r ∧ r < 0

def Positive (x : Option Int) : Prop := ∃ r, x = some r ∧ 0 < r

@[simp] theorem negative_some (r : Int) : Negative (some r) ↔ r < 0 := by simp [Negative]

@[simp] theorem positive_some (r : Int) : Positive (some r) ↔ 0 < r := by simp [Positive]

/-- **`strcmp` is a total order** on three strings. -/
structure StrcmpOrder (fuel : Nat) (a b c : Ptr ω) : Prop where
  eq : (strcmp fuel a b).val = some 0 ↔ SameString a.get b.get
  antisymm : Negative (strcmp fuel a b).val ↔ Positive (strcmp fuel b a).val
  trans : Negative (strcmp fuel a b).val → Negative (strcmp fuel b c).val → Negative (strcmp fuel a c).val

/-- Where `a` and `b` stop the gap is not 128, and if `b` and `c` stop there too, gaps up to 128 do not sum up to more
than 128. -/
def GapsOk (a b c : Bytes) : Prop :=
  ∀ i j, StopsAt a b i → StopsAt b c j → gap (a i) (b i) ≠ 128 ∧
    ¬(i = j ∧ gap (a i) (b i) ≤ 128 ∧ gap (b i) (c i) ≤ 128 ∧ 128 < gap (a i) (b i) + gap (b i) (c i))

variable {a b c : Ptr ω} {fuel i j : Nat}

/-- `strcmp` is antisymmetric but for a gap of 128. -/
theorem strcmp_antisymm_iff (h : StopsAt a.get b.get i) (hf : i < fuel) :
    (Negative (strcmp fuel a b).val ↔ Positive (strcmp fuel b a).val) ↔ gap (a.get i) (b.get i) ≠ 128 := by
  have hlt : gap (a.get i) (b.get i) < 256 := UInt8.toNat_lt _
  rw [strcmp_val h hf, strcmp_val h.symm hf, negative_some, positive_some, byteDiff_neg_iff, byteDiff_pos_iff,
    gap_swap (a.get i) (b.get i)]
  omega

/-- Where `a` and `b` stop first, `c` is like `b`; where `b` and `c` stop first, `a` is like `b`. -/
theorem strcmp_trans_ne (hab : StopsAt a.get b.get i) (hbc : StopsAt b.get c.get j) (hij : i ≠ j) (hi : i < fuel)
    (hj : j < fuel) (h : byteDiff (a.get i) (b.get i) < 0) (h' : byteDiff (b.get j) (c.get j) < 0) :
    Negative (strcmp fuel a c).val := by
  rcases Nat.lt_or_gt_of_ne hij with hlt | hgt
  · obtain ⟨hac, heq⟩ := hab.trans_lt hbc hlt
    rw [strcmp_val hac hi, negative_some, heq]
    exact h
  · obtain ⟨hca, heq⟩ := hbc.symm.trans_lt hab.symm hgt
    rw [strcmp_val hca.symm hj, negative_some, heq]
    exact h'

/-- Where all three stop, the gaps sum up. -/
theorem strcmp_trans_self (hab : StopsAt a.get b.get i) (hbc : StopsAt b.get c.get i) (hi : i < fuel)
    (hne : gap (a.get i) (b.get i) ≠ 128) (h : byteDiff (a.get i) (b.get i) < 0)
    (h' : byteDiff (b.get i) (c.get i) < 0) :
    Negative (strcmp fuel a c).val ↔ gap (a.get i) (b.get i) + gap (b.get i) (c.get i) ≤ 128 := by
  rw [byteDiff_neg_iff] at h h'
  have hgap := gap_trans (a.get i) (b.get i) (c.get i)
  have hac : a.get i ≠ c.get i := by
    rw [Ne, ← gap_eq_zero_iff, hgap]
    omega
  rw [strcmp_val (hab.trans_self hbc hac) hi, negative_some, byteDiff_neg_iff, hgap]
  omega

/-- **The order of `strcmp`** is one exactly if the gaps are right. -/
theorem strcmp_order_iff (fuel : Nat) (a b c : Ptr ω) {m n : Nat} (ha : IsString a.get m) (hb : IsString b.get n)
    (hm : m < fuel) (hn : n < fuel) : StrcmpOrder fuel a b c ↔ GapsOk a.get b.get c.get := by
  obtain ⟨i, him, hab⟩ := ha.stopsAt b.get
  obtain ⟨j, hjn, hbc⟩ := hb.stopsAt c.get
  have hi : i < fuel := Nat.lt_of_le_of_lt him hm
  have hj : j < fuel := Nat.lt_of_le_of_lt hjn hn
  constructor
  · intro h i' j' hi' hj'
    obtain rfl := hi'.unique hab
    obtain rfl := hj'.unique hbc
    have hne := (strcmp_antisymm_iff hab hi).mp h.antisymm
    refine ⟨hne, ?_⟩
    rintro ⟨rfl, hx, hy, hsum⟩
    have hx' : byteDiff (a.get i') (b.get i') < 0 := by
      rw [byteDiff_neg_iff]
      omega
    have hy' : byteDiff (b.get i') (c.get i') < 0 := by
      rw [byteDiff_neg_iff]
      omega
    have htrans := h.trans (by rwa [strcmp_val hab hi, negative_some]) (by rwa [strcmp_val hbc hi, negative_some])
    have hle := (strcmp_trans_self hab hbc hi hne hx' hy').mp htrans
    omega
  · intro h
    obtain ⟨hne, hsum⟩ := h i j hab hbc
    constructor
    · rw [strcmp_val hab hi, Option.some.injEq, byteDiff_eq_zero_iff]
      exact hab.same_iff
    · exact (strcmp_antisymm_iff hab hi).mpr hne
    · intro hx hy
      rw [strcmp_val hab hi, negative_some] at hx
      rw [strcmp_val hbc hj, negative_some] at hy
      by_cases hij : i = j
      · subst hij
        refine (strcmp_trans_self hab hbc hi hne hx hy).mpr ?_
        rw [byteDiff_neg_iff] at hx hy
        omega
      · exact strcmp_trans_ne hab hbc hij hi hj hx hy

end Order

/-- The character 128 and the empty string: both ways, the result is -128. -/
theorem strcmp_order_counterexample :
    ¬ ∀ (fuel : Nat) (a b c : Ptr Nat) (l m n : Nat), IsString a.get l → IsString b.get m → IsString c.get n →
      l < fuel → m < fuel → n < fuel → StrcmpOrder fuel a b c := by
  intro h
  have hempty : IsString (Ptr.ofList 1 []).get 0 := ⟨rfl, by decide⟩
  have horder := h 2 (Ptr.ofList 0 [128]) (Ptr.ofList 1 []) (Ptr.ofList 1 []) 1 0 0 ⟨rfl, by decide⟩ hempty hempty
    (by decide) (by decide) (by decide)
  obtain ⟨r, hr, hpos⟩ := horder.antisymm.mp ⟨-128, by decide, by decide⟩
  have hval : (strcmp 2 (Ptr.ofList 1 []) (Ptr.ofList 0 [128])).val = some (-128) := by decide
  rw [hval] at hr
  cases hr
  exact absurd hpos (by decide)

/-- "a", "b" and "bc". -/
theorem strcmp_order_abc : StrcmpOrder 3 (Ptr.ofList 0 [97]) (Ptr.ofList 1 [98]) (Ptr.ofList 2 [98, 99]) := by
  refine (strcmp_order_iff 3 (Ptr.ofList 0 [97]) (Ptr.ofList 1 [98]) (Ptr.ofList 2 [98, 99]) ⟨rfl, by decide⟩
    ⟨rfl, by decide⟩ (by decide : 1 < 3) (by decide : 1 < 3)).mpr ?_
  intro i j hi hj
  have hi0 : i = 0 := hi.unique ⟨by decide, by decide⟩
  have hj1 : j = 1 := hj.unique ⟨by decide, by decide⟩
  subst hi0 hj1
  decide

end Xen.Strings
