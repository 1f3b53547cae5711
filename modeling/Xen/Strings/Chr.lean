import Mathlib.Data.Nat.Find
import Xen.Strings.Compare

/-!
# Characters in strings (`string_verified.c`)

- `strchr` tests for the character before it tests for the terminator, and `strrchr` keeps the last position where the
  first test succeeded. So both find the terminator for `c = 0`.
- `IndicesOf s n c` are the indices of `c` in the string, with that of the terminator. `ChrOk` is what a function owes
  that returns an extreme one, the least for `strchr` and the greatest for `strrchr`.
- `chr_ok`: both end, return that, and read nothing behind the terminator.
-/

namespace Xen.Strings

open Lib

variable {ω : Type}

/-! ## The functions -/

/-- The body of `strchr`. -/
def strchrBody (c : Int) (s : Ptr ω) : Logged (MemOp ω) (Iter (Ptr ω) (Option (Ptr ω))) := do
  let ch ← s.deref
  -- `*s == (char)c`: both sides are promoted to `int`
  if charToInt ch = signedChar c then
    return .leave (some s)
  let ch ← s.deref
  if ch = 0 then
    return .leave none
  return .next (s.add 1)

/-- `strchr`; `none` is `NULL`, and the outer `none` a loop that `fuel` iterations do not end. -/
def strchr (fuel : Nat) (s : Ptr ω) (c : Int) : Logged (MemOp ω) (Option (Option (Ptr ω))) :=
  loop (strchrBody c) fuel s

/-- The body of `strrchr`, on `s` and `res`. -/
def strrchrBody (c : Int) (st : Ptr ω × Option (Ptr ω)) :
    Logged (MemOp ω) (Iter (Ptr ω × Option (Ptr ω)) (Option (Ptr ω))) := do
  let s := st.1
  let ch ← s.deref
  let res := if charToInt ch = signedChar c then some s else st.2
  let ch ← s.deref
  if ch = 0 then
    return .leave res
  return .next (s.add 1, res)

/-- `strrchr`. -/
def strrchr (fuel : Nat) (s : Ptr ω) (c : Int) : Logged (MemOp ω) (Option (Option (Ptr ω))) :=
  loop (strrchrBody c) fuel (s, none)

/-! ## Characters -/

/-- The indices of `c` in the string of length `n` and its terminator. -/
def IndicesOf (s : Bytes) (n : Nat) (c : Int) : Set Nat := {i | i ≤ n ∧ charToInt (s i) = c}

/-- **The extreme index** of `c`: the position of that one, or `NULL` if there is none. -/
structure ChrOk (extreme : Set Nat → Nat → Prop) (s : Ptr ω) (n : Nat) (c : Int) (r : Option (Ptr ω)) : Prop where
  found : ∀ i, extreme (IndicesOf s.get n c) i → r = some (s.add i)
  null : r = none ↔ ∀ i, i ∉ IndicesOf s.get n c
  terminator : c = 0 → r = some (s.add n)

theorem charToInt_eq_zero_iff (b : UInt8) : charToInt b = 0 ↔ b = 0 := by
  have hb := b.toNat_lt
  rw [charToInt, signedChar, Int.bmod_def, ← UInt8.toNat_inj]
  simp only [UInt8.toNat_zero]
  split <;> omega

/-- `(char)c` is `c` if a `char` holds it. -/
theorem signedChar_of_lt {c : Int} (h0 : 0 ≤ c) (hlt : c < 128) : signedChar c = c := by
  rw [signedChar, Int.bmod_def]
  split <;> omega

section Spec

variable {s : Ptr ω} {n i : Nat} {c : Int} {extreme : Set Nat → Nat → Prop}

/-- The terminator is the only 0. -/
theorem mem_indicesOf_zero (h : IsString s.get n) : i ∈ IndicesOf s.get n 0 ↔ i = n := by
  constructor
  · rintro ⟨hle, hi⟩
    rcases Nat.lt_or_eq_of_le hle with hlt | heq
    · exact absurd ((charToInt_eq_zero_iff _).mp hi) (h.char i hlt)
    · exact heq
  · rintro rfl
    exact ⟨Nat.le_refl i, (charToInt_eq_zero_iff _).mpr h.nul⟩

/-- An index that is the only extreme one. -/
theorem chrOk_some (h : IsString s.get n) (hi : i ∈ IndicesOf s.get n c)
    (honly : ∀ j, extreme (IndicesOf s.get n c) j → j = i) : ChrOk extreme s n c (some (s.add i)) := by
  constructor
  · intro j hj
    rw [honly j hj]
  · apply iff_of_false
    · exact Option.some_ne_none _
    · exact fun hnone => hnone i hi
  · rintro rfl
    rw [(mem_indicesOf_zero h).mp hi]

/-- No index at all. -/
theorem chrOk_none (h : IsString s.get n) (hnone : ∀ i, i ∉ IndicesOf s.get n c)
    (hmem : ∀ j, extreme (IndicesOf s.get n c) j → j ∈ IndicesOf s.get n c) : ChrOk extreme s n c none := by
  constructor
  · intro j hj
    exact absurd (hmem j hj) (hnone j)
  · exact iff_of_true rfl hnone
  · rintro rfl
    exact absurd ((mem_indicesOf_zero h).mpr rfl) (hnone n)

end Spec

/-! ## `strchr` -/

section Strchr

variable {s : Ptr ω} {n k fuel : Nat} {c : Int}

/-- An iteration at the character. -/
theorem strchrBody_found (hc : signedChar c = c) (h : charToInt (s.get k) = c) :
    (strchrBody c (s.add k)).val = .leave (some (s.add k)) := by
  simp [strchrBody, hc, h]

/-- An iteration at the terminator, if that is another character. -/
theorem strchrBody_nul (hc : signedChar c = c) (hne : charToInt (s.get k) ≠ c) (h : s.get k = 0) :
    (strchrBody c (s.add k)).val = .leave none := by
  rw [h] at hne
  simp [strchrBody, hc, h, hne]

/-- An iteration at another character. -/
theorem strchrBody_next (hc : signedChar c = c) (hne : charToInt (s.get k) ≠ c) (h : s.get k ≠ 0) :
    (strchrBody c (s.add k)).val = .next (s.add (k + 1)) := by
  simp [strchrBody, hc, h, hne]

theorem strchrBody_reads (c : Int) (s : Ptr ω) : (strchrBody c s).Only (s.ReadsBelow 1) := by
  have hread : s.ReadsBelow 1 (.read s.obj s.off 1) := s.readsBelow_deref Nat.one_pos
  simp only [strchrBody, Logged.only_bind, Ptr.only_deref, Logged.only_ite, Logged.only_pure, hread, and_self,
    implies_true]

/-- It stops at the first index of the character, or at the terminator. -/
theorem exists_stop (h : IsString s.get n) (c : Int) : ∃ k ≤ n,
    (charToInt (s.get k) = c ∨ k = n) ∧ ∀ j < k, charToInt (s.get j) ≠ c ∧ s.get j ≠ 0 := by
  have hex : ∃ k, charToInt (s.get k) = c ∨ k = n := ⟨n, Or.inr rfl⟩
  have hle : Nat.find hex ≤ n := Nat.find_min' hex (Or.inr rfl)
  refine ⟨Nat.find hex, hle, Nat.find_spec hex, fun j hj => ?_⟩
  obtain ⟨hne, -⟩ := not_or.mp (Nat.find_min hex hj)
  exact ⟨hne, h.char j (Nat.lt_of_lt_of_le hj hle)⟩

/-- **The loop of `strchr`** goes on to the index where it stops. -/
theorem strchr_through {r : Option (Ptr ω)} (hc : signedChar c = c) (hk : k ≤ n)
    (hbefore : ∀ j < k, charToInt (s.get j) ≠ c ∧ s.get j ≠ 0) (hleave : (strchrBody c (s.add k)).val = .leave r)
    (hf : n < fuel) :
    (strchr fuel s c).val = some r ∧ (strchr fuel s c).Only (s.ReadsBelow (n + 1)) := by
  have hnext : ∀ j < k, (strchrBody c (s.add j)).val = .next (s.add (j + 1)) := by
    intro j hj
    obtain ⟨hne, h0⟩ := hbefore j hj
    exact strchrBody_next hc hne h0
  have hreads : ∀ j, (strchrBody c (s.add j)).Only ((s.add j).ReadsBelow 1) := fun j => strchrBody_reads c (s.add j)
  exact Ptr.walk_ok hk hnext hleave hreads hf

/-- **`strchr`** returns the first position of the character. -/
theorem strchr_ok (h : IsString s.get n) (hc : signedChar c = c) (hf : n < fuel) :
    ∃ r, (strchr fuel s c).val = some r ∧ ChrOk IsLeast s n c r ∧ (strchr fuel s c).Only (s.ReadsBelow (n + 1)) := by
  obtain ⟨k, hk, hstop, hbefore⟩ := exists_stop h c
  -- every index of the character is at `k` or behind it
  have hle : ∀ {i}, i ∈ IndicesOf s.get n c → k ≤ i := by
    intro i hi
    by_contra hlt
    exact (hbefore i (Nat.lt_of_not_le hlt)).1 hi.2
  by_cases hfound : charToInt (s.get k) = c
  · have hmem : k ∈ IndicesOf s.get n c := ⟨hk, hfound⟩
    obtain ⟨hval, hreads⟩ := strchr_through hc hk hbefore (strchrBody_found hc hfound) hf
    refine ⟨some (s.add k), hval, chrOk_some h hmem fun j hj => ?_, hreads⟩
    exact Nat.le_antisymm (hj.2 hmem) (hle hj.1)
  · obtain rfl := hstop.resolve_left hfound
    obtain ⟨hval, hreads⟩ := strchr_through hc hk hbefore (strchrBody_nul hc hfound h.nul) hf
    refine ⟨none, hval, chrOk_none h (fun i hi => ?_) fun j hj => hj.1, hreads⟩
    have hi' : i = k := Nat.le_antisymm hi.1 (hle hi)
    exact hfound (hi' ▸ hi.2)

end Strchr

/-! ## `strrchr` -/

/-- `res` at the head of the iteration at index `k`: the last position of `c` before it. -/
def lastPos (s : Ptr ω) (c : Int) (k : Nat) : Option (Ptr ω) :=
  (lastBelow (fun i => charToInt (s.get i) = c) k).map s.add

section Strrchr

variable {s : Ptr ω} {n k fuel : Nat} {c : Int}

/-- An iteration looks at one more character. -/
theorem lastPos_succ (s : Ptr ω) (c : Int) (k : Nat) :
    lastPos s c (k + 1) = if charToInt (s.get k) = c then some (s.add k) else lastPos s c k := by
  unfold lastPos
  rw [lastBelow]
  split <;> rfl

/-- An iteration at the terminator. -/
theorem strrchrBody_nul (hc : signedChar c = c) (h : s.get k = 0) :
    (strrchrBody c (s.add k, lastPos s c k)).val = .leave (lastPos s c (k + 1)) := by
  rw [lastPos_succ]
  simp [strrchrBody, hc, h]

/-- An iteration at another character. -/
theorem strrchrBody_next (hc : signedChar c = c) (h : s.get k ≠ 0) :
    (strrchrBody c (s.add k, lastPos s c k)).val = .next (s.add (k + 1), lastPos s c (k + 1)) := by
  rw [lastPos_succ]
  simp [strrchrBody, hc, h]

theorem strrchrBody_reads (c : Int) (s : Ptr ω) (res : Option (Ptr ω)) :
    (strrchrBody c (s, res)).Only (s.ReadsBelow 1) := by
  have hread : s.ReadsBelow 1 (.read s.obj s.off 1) := s.readsBelow_deref Nat.one_pos
  simp only [strrchrBody, Logged.only_bind, Ptr.only_deref, Logged.only_ite, Logged.only_pure, hread, and_self,
    implies_true]

/-- **The loop of `strrchr`** goes on to the terminator. -/
theorem strrchr_through (h : IsString s.get n) (hc : signedChar c = c) (hf : n < fuel) :
    (strrchr fuel s c).val = some (lastPos s c (n + 1)) ∧ (strrchr fuel s c).Only (s.ReadsBelow (n + 1)) := by
  have hnext : ∀ j < n, (strrchrBody c (s.add j, lastPos s c j)).val = .next (s.add (j + 1), lastPos s c (j + 1)) :=
    fun j hj => strrchrBody_next hc (h.char j hj)
  have hreads : ∀ j, (strrchrBody c (s.add j, lastPos s c j)).Only ((s.add j).ReadsBelow 1) :=
    fun j => strrchrBody_reads c (s.add j) _
  exact Ptr.walk_ok (f := fun j => (s.add j, lastPos s c j)) (Nat.le_refl n) hnext (strrchrBody_nul hc h.nul) hreads hf

/-- **`strrchr`** returns the last position of the character. -/
theorem strrchr_ok (h : IsString s.get n) (hc : signedChar c = c) (hf : n < fuel) :
    ∃ r, (strrchr fuel s c).val = some r ∧ ChrOk IsGreatest s n c r ∧
      (strrchr fuel s c).Only (s.ReadsBelow (n + 1)) := by
  obtain ⟨hval, hreads⟩ := strrchr_through h hc hf
  refine ⟨_, hval, ?_, hreads⟩
  have hset : {j | j < n + 1 ∧ charToInt (s.get j) = c} = IndicesOf s.get n c :=
    Set.ext fun j => and_congr_left' Nat.lt_succ_iff
  unfold lastPos
  rcases lastBelow_cases (fun i => charToInt (s.get i) = c) (n + 1) with ⟨hnone, hall⟩ | ⟨i, hi, hlast⟩
  · rw [hnone]
    exact chrOk_none h (fun i hi => hall i (Nat.lt_succ_of_le hi.1) hi.2) fun j hj => hj.1
  · rw [hi]
    rw [hset] at hlast
    exact chrOk_some h hlast.1 fun j hj => Nat.le_antisymm (hlast.2 hj.1) (hj.2 hlast.1)

end Strrchr

/-! ## Both -/

/-- **The first and the last position.** Both functions end, return it, or `NULL` if there is none, and read nothing
behind the terminator. -/
theorem chr_ok (fuel : Nat) (s : Ptr ω) (n : Nat) (c : Int) (h : IsString s.get n) (h0 : 0 ≤ c) (hc : c < 128)
    (hf : n < fuel) :
    (∃ r, (strchr fuel s c).val = some r ∧ ChrOk IsLeast s n c r ∧ (strchr fuel s c).Only (s.ReadsBelow (n + 1))) ∧
      ∃ r, (strrchr fuel s c).val = some r ∧ ChrOk IsGreatest s n c r ∧
        (strrchr fuel s c).Only (s.ReadsBelow (n + 1)) :=
  have hchar := signedChar_of_lt h0 hc
  ⟨strchr_ok h hchar hf, strrchr_ok h hchar hf⟩

/-- "aba". -/
def aba : Ptr Unit := .ofList () [97, 98, 97]

/-- The character `a` in it. -/
theorem chr_ok_aba :
    (∃ r, (strchr 4 aba 97).val = some r ∧ ChrOk IsLeast aba 3 97 r ∧ (strchr 4 aba 97).Only (aba.ReadsBelow 4)) ∧
      ∃ r, (strrchr 4 aba 97).val = some r ∧ ChrOk IsGreatest aba 3 97 r ∧
        (strrchr 4 aba 97).Only (aba.ReadsBelow 4) :=
  chr_ok 4 aba 3 97 ⟨by decide, by decide⟩ (by omega) (by omega) (by omega)

end Xen.Strings
