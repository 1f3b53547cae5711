import Mathlib.Order.Bounds.Defs
import Xen.Lib.Memory

/-!
# Pointers and strings

- A `Ptr` is a position in an object; `get i` is its byte at index `i`, `deref` the logged read of the first.
  `Ptr.ReadsBelow n` bounds the index of a read, also in a loop that walks along (`Ptr.walk_ok`).
- `IsString s n`: the bytes `s` are a string of length `n` with its terminator.
- `DiffersAt s t i`: `i` is the first index where `s` and `t` differ; `StopsAt s t i`: or where both end. Two strings
  stop at exactly one index (`IsString.stopsAt`, `StopsAt.unique`), and are the same string exactly if they do not
  differ there (`StopsAt.same_iff`).
- `OccursAt s n t m i`: the string `t` of length `m` occurs in `s` at index `i`.
- `lastBelow P n` is the last index below `n` with the property `P`, as a walk finds it (`lastBelow_cases`).
-/

namespace Lib

/-! ## Pointers -/

/-- The position `off` in the object `obj` with the bytes `mem`. -/
structure Ptr (ω : Type) where
  obj : ω
  mem : Bytes
  off : Nat

namespace Ptr

variable {ω : Type}

/-- The start of an object with the bytes of `l`. -/
def ofList (o : ω) (l : List UInt8) : Ptr ω := ⟨o, Bytes.ofList l, 0⟩

/-- The byte at index `i`. -/
def get (p : Ptr ω) : Bytes := fun i => p.mem (p.off + i)

/-- `p + n`. -/
def add (p : Ptr ω) (n : Nat) : Ptr ω := { p with off := p.off + n }

/-- `*p`. -/
def deref (p : Ptr ω) : Logged (MemOp ω) UInt8 := do
  Logged.emit (.read p.obj p.off 1)
  pure (p.mem p.off)

theorem get_add (p : Ptr ω) (n i : Nat) : (p.add n).get i = p.get (n + i) := by
  simp only [get, add, Nat.add_assoc]

@[simp] theorem get_add_zero (p : Ptr ω) (n : Nat) : (p.add n).get 0 = p.get n := p.get_add n 0

@[simp] theorem add_zero (p : Ptr ω) : p.add 0 = p := rfl

@[simp] theorem add_add (p : Ptr ω) (m n : Nat) : (p.add m).add n = p.add (m + n) := by
  simp only [add, Nat.add_assoc]

@[simp] theorem val_deref (p : Ptr ω) : p.deref.val = p.get 0 := rfl

@[simp] theorem only_deref {P : MemOp ω → Prop} (p : Ptr ω) : p.deref.Only P ↔ P (.read p.obj p.off 1) := by
  simp [deref]

/-- The access reads a byte of `p` at an index below `n`. -/
def ReadsBelow (p : Ptr ω) (n : Nat) (op : MemOp ω) : Prop := ∃ i < n, op = .read p.obj (p.off + i) 1

theorem readsBelow_deref (p : Ptr ω) {n : Nat} (h : 0 < n) : p.ReadsBelow n (.read p.obj p.off 1) := ⟨0, h, rfl⟩

/-- What is read behind `p + k`. -/
theorem ReadsBelow.of_add {p : Ptr ω} {k n : Nat} {op : MemOp ω} (h : (p.add k).ReadsBelow n op) :
    p.ReadsBelow (k + n) op := by
  obtain ⟨i, hi, rfl⟩ := h
  refine ⟨k + i, by omega, ?_⟩
  simp only [add, Nat.add_assoc]

theorem ReadsBelow.mono {p : Ptr ω} {m n : Nat} (hmn : m ≤ n) {op : MemOp ω} (h : p.ReadsBelow m op) :
    p.ReadsBelow n op := by
  obtain ⟨i, hi, rfl⟩ := h
  exact ⟨i, by omega, rfl⟩

/-- **A walk** of a loop from a position to the `k`th behind it, where each iteration reads no other character. -/
theorem walk_ok {σ ρ : Type} {body : σ → Logged (MemOp ω) (Iter σ ρ)} {f : Nat → σ} {s : Ptr ω} {r : ρ} {k n fuel : Nat}
    (hk : k ≤ n) (hnext : ∀ j < k, (body (f j)).val = .next (f (j + 1))) (hleave : (body (f k)).val = .leave r)
    (hreads : ∀ j, (body (f j)).Only ((s.add j).ReadsBelow 1)) (hf : n < fuel) :
    (loop body fuel (f 0)).val = some r ∧ (loop body fuel (f 0)).Only (s.ReadsBelow (n + 1)) := by
  obtain ⟨hval, hlog⟩ := loop_through hnext hleave (Nat.lt_of_le_of_lt hk hf)
  refine ⟨hval, fun op hop => ?_⟩
  obtain ⟨j, hj, hop⟩ := hlog op hop
  have hread : s.ReadsBelow (j + 1) op := (hreads j op hop).of_add
  exact hread.mono (Nat.succ_le_succ (Nat.le_trans hj hk))

end Ptr

/-! ## Strings -/

/-- The bytes start with `n` characters and a terminator. -/
structure IsString (s : Bytes) (n : Nat) : Prop where
  nul : s n = 0
  char : ∀ i < n, s i ≠ 0

/-- The first index where the bytes differ. -/
structure DiffersAt (s t : Bytes) (k : Nat) : Prop where
  ne : s k ≠ t k
  before : ∀ i < k, s i = t i

/-- The first index where the strings differ or both end. -/
structure StopsAt (s t : Bytes) (k : Nat) : Prop where
  stop : s k ≠ t k ∨ s k = 0
  before : ∀ i < k, s i = t i ∧ s i ≠ 0

/-- The strings have the same length and characters. -/
def SameString (s t : Bytes) : Prop := ∃ n, IsString s n ∧ ∀ i ≤ n, s i = t i

/-- The string `t` of length `m` occurs in the string `s` of length `n` at index `i`. -/
structure OccursAt (s : Bytes) (n : Nat) (t : Bytes) (m i : Nat) : Prop where
  fits : i + m ≤ n
  same : ∀ j < m, s (i + j) = t j

section Strings

variable {s t u : Bytes} {n k l : Nat}

/-- A string has one length. -/
theorem IsString.unique {m : Nat} (h : IsString s n) (h' : IsString s m) : n = m := by
  rcases Nat.lt_trichotomy n m with hlt | heq | hgt
  · exact absurd h.nul (h'.char n hlt)
  · exact heq
  · exact absurd h'.nul (h.char m hgt)

/-- A string that is not empty goes on behind its first character. -/
theorem IsString.tail {ω : Type} {p : Ptr ω} (h : IsString p.get (n + 1)) : IsString (p.add 1).get n := by
  constructor
  · rw [Ptr.get_add, Nat.add_comm 1 n]
    exact h.nul
  · intro i hi
    rw [Ptr.get_add, Nat.add_comm 1 i]
    exact h.char (i + 1) (Nat.succ_lt_succ hi)

/-- Occurrences behind the first character. -/
theorem occursAt_tail {ω : Type} {p : Ptr ω} {m i : Nat} :
    OccursAt (p.add 1).get n t m i ↔ OccursAt p.get (n + 1) t m (i + 1) := by
  have hget : ∀ j, (p.add 1).get (i + j) = p.get (i + 1 + j) := fun j => by
    rw [Ptr.get_add]
    congr 1
    omega
  constructor
  · rintro ⟨hfits, hsame⟩
    exact ⟨by omega, fun j hj => (hget j).symm.trans (hsame j hj)⟩
  · rintro ⟨hfits, hsame⟩
    exact ⟨by omega, fun j hj => (hget j).trans (hsame j hj)⟩

theorem DiffersAt.symm (h : DiffersAt s t k) : DiffersAt t s k :=
  ⟨h.ne.symm, fun i hi => (h.before i hi).symm⟩

theorem DiffersAt.unique (h : DiffersAt s t k) (h' : DiffersAt s t l) : k = l := by
  rcases Nat.lt_trichotomy k l with hlt | heq | hgt
  · exact absurd (h'.before k hlt) h.ne
  · exact heq
  · exact absurd (h.before l hgt) h'.ne

/-- Blocks of `n` bytes are equal or differ first at one index. -/
theorem eq_or_differsAt (s t : Bytes) (n : Nat) : (∀ i < n, s i = t i) ∨ ∃ k < n, DiffersAt s t k := by
  induction n with
  | zero => exact Or.inl fun i hi => absurd hi (Nat.not_lt_zero i)
  | succ n ih =>
    rcases ih with heq | ⟨k, hk, hd⟩
    · by_cases h : s n = t n
      · apply Or.inl
        intro i hi
        rcases Nat.lt_succ_iff_lt_or_eq.mp hi with hlt | rfl
        · exact heq i hlt
        · exact h
      · exact Or.inr ⟨n, Nat.lt_succ_self n, h, heq⟩
    · exact Or.inr ⟨k, Nat.lt_succ_of_lt hk, hd⟩

/-- What holds at the first index where blocks differ. -/
theorem DiffersAt.exists_iff (h : DiffersAt s t k) (hk : k < n) (P : Nat → Prop) :
    (∃ i < n, DiffersAt s t i ∧ P i) ↔ P k := by
  constructor
  · rintro ⟨i, -, hi, hp⟩
    rwa [h.unique hi]
  · intro hp
    exact ⟨k, hk, h, hp⟩

/-- A string stops against any bytes. -/
theorem IsString.stopsAt (h : IsString s n) (t : Bytes) : ∃ k ≤ n, StopsAt s t k := by
  rcases eq_or_differsAt s t n with heq | ⟨k, hk, hd⟩
  · exact ⟨n, Nat.le_refl n, Or.inr h.nul, fun i hi => ⟨heq i hi, h.char i hi⟩⟩
  · exact ⟨k, Nat.le_of_lt hk, Or.inl hd.ne, fun i hi => ⟨hd.before i hi, h.char i (Nat.lt_trans hi hk)⟩⟩

theorem StopsAt.symm (h : StopsAt s t k) : StopsAt t s k := by
  constructor
  · rcases h.stop with hne | h0
    · exact Or.inl hne.symm
    · by_cases heq : s k = t k
      · exact Or.inr (heq ▸ h0)
      · exact Or.inl (Ne.symm heq)
  · intro i hi
    obtain ⟨heq, h0⟩ := h.before i hi
    exact ⟨heq.symm, heq ▸ h0⟩

/-- Strings that go on stop behind their first characters. -/
theorem StopsAt.tail {ω : Type} {p q : Ptr ω} (h : StopsAt p.get q.get (k + 1)) :
    StopsAt (p.add 1).get (q.add 1).get k := by
  constructor
  · rw [Ptr.get_add, Ptr.get_add, Nat.add_comm 1 k]
    exact h.stop
  · intro i hi
    rw [Ptr.get_add, Ptr.get_add, Nat.add_comm 1 i]
    exact h.before (i + 1) (Nat.succ_lt_succ hi)

theorem StopsAt.unique (h : StopsAt s t k) (h' : StopsAt s t l) : k = l := by
  have hle : ∀ {a b : Nat}, StopsAt s t a → StopsAt s t b → ¬a < b := by
    intro a b ha hb hlt
    obtain ⟨heq, h0⟩ := hb.before a hlt
    rcases ha.stop with hne | hz
    · exact hne heq
    · exact h0 hz
  have h1 := hle h h'
  have h2 := hle h' h
  omega

/-- **The same string** is one that does not differ where it stops. -/
theorem StopsAt.same_iff (h : StopsAt s t k) : s k = t k ↔ SameString s t := by
  constructor
  · intro heq
    have h0 : s k = 0 := h.stop.resolve_left (not_not_intro heq)
    refine ⟨k, ⟨h0, fun i hi => (h.before i hi).2⟩, fun i hi => ?_⟩
    rcases Nat.lt_or_eq_of_le hi with hlt | rfl
    · exact (h.before i hlt).1
    · exact heq
  · rintro ⟨n, hn, hall⟩
    obtain ⟨m, hm, hstop⟩ := hn.stopsAt t
    rw [h.unique hstop]
    exact hall m hm

/-- A third string: where it stops against the second one later, the first and the second decide. -/
theorem StopsAt.trans_lt (h : StopsAt s t k) (h' : StopsAt t u l) (hkl : k < l) : StopsAt s u k ∧ u k = t k := by
  obtain ⟨heq, h0⟩ := h'.before k hkl
  refine ⟨⟨?_, fun i hi => ?_⟩, heq.symm⟩
  · rcases h.stop with hne | hz
    · exact Or.inl (heq ▸ hne)
    · exact Or.inr hz
  · obtain ⟨hst, hs⟩ := h.before i hi
    exact ⟨hst.trans (h'.before i (Nat.lt_trans hi hkl)).1, hs⟩

/-- Where all three are equal up to an index, and the first and the third differ there. -/
theorem StopsAt.trans_self (h : StopsAt s t k) (h' : StopsAt t u k) (hne : s k ≠ u k) : StopsAt s u k :=
  ⟨Or.inl hne, fun i hi => ⟨(h.before i hi).1.trans (h'.before i hi).1, (h.before i hi).2⟩⟩

end Strings

/-! ## The last index -/

section LastBelow

variable (P : Nat → Prop) [DecidablePred P]

/-- The last index below `n` where `P` holds. -/
def lastBelow : Nat → Option Nat
  | 0 => none
  | n + 1 => if P n then some n else lastBelow n

theorem lastBelow_cases (n : Nat) :
    (lastBelow P n = none ∧ ∀ i < n, ¬P i) ∨ ∃ i, lastBelow P n = some i ∧ IsGreatest {j | j < n ∧ P j} i := by
  induction n with
  | zero => exact Or.inl ⟨rfl, fun i hi => absurd hi (Nat.not_lt_zero i)⟩
  | succ n ih =>
    by_cases h : P n
    · exact Or.inr ⟨n, if_pos h, ⟨Nat.lt_succ_self n, h⟩, fun j hj => Nat.le_of_lt_succ hj.1⟩
    · have hskip : lastBelow P (n + 1) = lastBelow P n := if_neg h
      rw [hskip]
      -- an index with the property is another one
      have hbelow : ∀ {j}, j < n + 1 → P j → j < n := by
        intro j hj hp
        rcases Nat.lt_succ_iff_lt_or_eq.mp hj with hlt | rfl
        · exact hlt
        · exact absurd hp h
      rcases ih with ⟨hnone, hall⟩ | ⟨i, hi, hmem, hle⟩
      · exact Or.inl ⟨hnone, fun i hi hp => hall i (hbelow hi hp) hp⟩
      · exact Or.inr ⟨i, hi, ⟨Nat.lt_succ_of_lt hmem.1, hmem.2⟩, fun j hj => hle ⟨hbelow hj.1 hj.2, hj.2⟩⟩

end LastBelow

end Lib
