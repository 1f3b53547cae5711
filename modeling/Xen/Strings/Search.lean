import Xen.Strings.Compare

/-!
# Search in strings (`string_verified.c`)

- `strlen` walks to the terminator (`strlen_val`, `strlen_reads`).
- `strstr` compares at each position with `memcmp`; `l1` counts the characters from the position to the terminator
  (`strstrLoop_ok`).
- `strstr_ok`: it ends, returns the first occurrence or `NULL`, and reads nothing behind a terminator.
-/

namespace Xen.Strings

open Lib

variable {ω : Type}

/-! ## The functions -/

/-- The body of `strlen`. -/
def strlenBody (sc : Ptr ω) : Logged (MemOp ω) (Iter (Ptr ω) (Ptr ω)) := do
  let c ← sc.deref
  if c = 0 then pure (.leave sc) else pure (.next (sc.add 1))

/-- `strlen`; `none` when `fuel` iterations do not end the loop. -/
def strlen (fuel : Nat) (s : Ptr ω) : Logged (MemOp ω) (Option Nat) := do
  let r ← loop strlenBody fuel s
  pure (r.map fun sc => sc.off - s.off)

/-- The body of `strstr`. -/
def strstrBody (s2 : Ptr ω) (l2 : Nat) (s : Ptr ω × Nat) : Logged (MemOp ω) (Iter (Ptr ω × Nat) (Option (Ptr ω))) :=
  let s1 := s.1
  let l1 := s.2
  if l1 ≥ l2 then do
    -- `l2` is not 0, so `l1` does not wrap
    let l1 := l1 - 1
    let r ← memcmp s1 s2 l2
    if r = 0 then pure (.leave (some s1)) else pure (.next (s1.add 1, l1))
  else
    pure (.leave none)

/-- `strstr`; `none` is `NULL`, and the outer `none` a loop that `fuel` iterations do not end. -/
def strstr (fuel : Nat) (s1 s2 : Ptr ω) : Logged (MemOp ω) (Option (Option (Ptr ω))) := do
  match ← strlen fuel s2 with
  | none => pure none
  | some l2 =>
    if l2 = 0 then
      pure (some (some s1))
    else do
      match ← strlen fuel s1 with
      | none => pure none
      | some l1 => loop (strstrBody s2 l2) fuel (s1, l1)

/-! ## `strlen` -/

section Strlen

variable {s : Ptr ω} {n k fuel : Nat}

/-- An iteration at the terminator. -/
theorem strlenBody_nul (h : s.get k = 0) : (strlenBody (s.add k)).val = .leave (s.add k) := by
  simp [strlenBody, h]

/-- An iteration at a character. -/
theorem strlenBody_char (h : s.get k ≠ 0) : (strlenBody (s.add k)).val = .next (s.add (k + 1)) := by
  simp [strlenBody, h]

theorem strlenBody_reads (s : Ptr ω) : (strlenBody s).Only (s.ReadsBelow 1) := by
  have hread : s.ReadsBelow 1 (.read s.obj s.off 1) := s.readsBelow_deref Nat.one_pos
  simp only [strlenBody, Logged.only_bind, Ptr.only_deref, Logged.only_ite, Logged.only_pure, hread, implies_true,
    and_self]

/-- **The loop of `strlen`** ends at the terminator, the last character that it reads. -/
theorem strlenLoop_ok (h : IsString s.get n) (hf : n < fuel) :
    (loop strlenBody fuel s).val = some (s.add n) ∧ (loop strlenBody fuel s).Only (s.ReadsBelow (n + 1)) := by
  have hnext : ∀ j < n, (strlenBody (s.add j)).val = .next (s.add (j + 1)) := fun j hj => strlenBody_char (h.char j hj)
  have hreads : ∀ j, (strlenBody (s.add j)).Only ((s.add j).ReadsBelow 1) := fun j => strlenBody_reads (s.add j)
  exact Ptr.walk_ok (Nat.le_refl n) hnext (strlenBody_nul h.nul) hreads hf

/-- **`strlen`** returns the length. -/
theorem strlen_val (h : IsString s.get n) (hf : n < fuel) : (strlen fuel s).val = some n := by
  simp [strlen, (strlenLoop_ok h hf).1, Ptr.add]

theorem strlen_reads (h : IsString s.get n) (hf : n < fuel) : (strlen fuel s).Only (s.ReadsBelow (n + 1)) := by
  rw [strlen, Logged.only_bind]
  exact ⟨(strlenLoop_ok h hf).2, Logged.only_pure _⟩

end Strlen

/-! ## `strstr` -/

/-- **The first occurrence** of `s2` in `s1`, strings of the lengths `m` and `n`, or `NULL` if there is none. -/
structure StrstrOk (s1 : Ptr ω) (n : Nat) (s2 : Bytes) (m : Nat) (r : Option (Ptr ω)) : Prop where
  found : ∀ p, r = some p → ∃ i, p = s1.add i ∧ OccursAt s1.get n s2 m i ∧ ∀ j < i, ¬OccursAt s1.get n s2 m j
  null : r = none ↔ ∀ i, ¬OccursAt s1.get n s2 m i

section Strstr

variable {s1 s2 : Ptr ω} {n m fuel : Nat}

/-- `memcmp` finds out whether the pattern occurs at the position. -/
theorem memcmp_occursAt (hfits : m ≤ n) : (memcmp s1 s2 m).val = 0 ↔ OccursAt s1.get n s2.get m 0 := by
  rw [memcmp_eq_zero_iff]
  constructor
  · intro h
    exact ⟨by omega, fun j hj => (Nat.zero_add j).symm ▸ h j hj⟩
  · intro h i hi
    have hsame := h.same i hi
    rwa [Nat.zero_add] at hsame

/-- An occurrence here is the first one. -/
theorem strstrOk_here (h : OccursAt s1.get n s2.get m 0) : StrstrOk s1 n s2.get m (some s1) := by
  constructor
  · rintro p ⟨⟩
    exact ⟨0, rfl, h, fun j hj => absurd hj (Nat.not_lt_zero j)⟩
  · exact iff_of_false (fun h => by cases h) fun hnone => hnone 0 h

/-- Without an occurrence here, the first one is that behind the first character. -/
theorem strstrOk_next {r : Option (Ptr ω)} (h : ¬OccursAt s1.get (n + 1) s2.get m 0)
    (hr : StrstrOk (s1.add 1) n s2.get m r) : StrstrOk s1 (n + 1) s2.get m r := by
  constructor
  · intro p hp
    obtain ⟨i, rfl, hocc, hfirst⟩ := hr.found p hp
    refine ⟨i + 1, by rw [Ptr.add_add, Nat.add_comm], occursAt_tail.mp hocc, fun j hj => ?_⟩
    cases j with
    | zero => exact h
    | succ j => exact mt occursAt_tail.mpr (hfirst j (Nat.lt_of_succ_lt_succ hj))
  · rw [hr.null]
    constructor
    · intro hnone i
      cases i with
      | zero => exact h
      | succ i => exact mt occursAt_tail.mpr (hnone i)
    · intro hnone i
      exact mt occursAt_tail.mp (hnone (i + 1))

/-- A pattern that is too long does not occur. -/
theorem strstrOk_short (h : n < m) : StrstrOk s1 n s2.get m none := by
  constructor
  · rintro p ⟨⟩
  · apply iff_of_true rfl
    intro i hocc
    have hfits := hocc.fits
    omega

/-- **An iteration of `strstr`**: the pattern is too long for the rest, occurs here, or does not. -/
theorem strstrBody_cases (s1 s2 : Ptr ω) (n m : Nat) :
    (n < m ∧ strstrBody s2 m (s1, n) = ⟨.leave none, []⟩) ∨
    (m ≤ n ∧ OccursAt s1.get n s2.get m 0 ∧
      strstrBody s2 m (s1, n) = ⟨.leave (some s1), (memcmp s1 s2 m).log⟩) ∨
    (m ≤ n ∧ ¬OccursAt s1.get n s2.get m 0 ∧
      strstrBody s2 m (s1, n) = ⟨.next (s1.add 1, n - 1), (memcmp s1 s2 m).log⟩) := by
  by_cases hfits : m ≤ n
  · apply Or.inr
    by_cases hocc : OccursAt s1.get n s2.get m 0
    · have hzero := (memcmp_occursAt hfits).mpr hocc
      refine Or.inl ⟨hfits, hocc, ?_⟩
      ext1 <;> simp [strstrBody, hfits, hzero]
    · have hne := mt (memcmp_occursAt hfits).mp hocc
      refine Or.inr ⟨hfits, hocc, ?_⟩
      ext1 <;> simp [strstrBody, hfits, hne]
  · refine Or.inl ⟨Nat.lt_of_not_le hfits, ?_⟩
    ext1 <;> simp [strstrBody, hfits]

/-- An iteration reads inside both strings. -/
theorem memcmp_reads_inside (hfits : m ≤ n) {op : MemOp ω} (hop : op ∈ (memcmp s1 s2 m).log) :
    s1.ReadsBelow (n + 1) op ∨ s2.ReadsBelow (m + 1) op :=
  (memcmpLoop_reads m s1 s2 0 op hop).imp (Ptr.ReadsBelow.mono (Nat.le_succ_of_le hfits))
    (Ptr.ReadsBelow.mono (Nat.le_succ m))

variable (s1 s2) in
/-- **The loop of `strstr`**, at a position with `n` characters to the terminator. -/
theorem strstrLoop_ok (hm : 0 < m) (hf : n < fuel) :
    ∃ r, (loop (strstrBody s2 m) fuel (s1, n)).val = some r ∧ StrstrOk s1 n s2.get m r ∧
      (loop (strstrBody s2 m) fuel (s1, n)).Only fun op => s1.ReadsBelow (n + 1) op ∨ s2.ReadsBelow (m + 1) op := by
  induction n generalizing s1 fuel with
  | zero =>
    rcases strstrBody_cases s1 s2 0 m with ⟨hshort, hb⟩ | ⟨hfits, -, -⟩ | ⟨hfits, -, -⟩
    · rw [loop_of_leave hb hf]
      exact ⟨none, rfl, strstrOk_short hshort, fun op hop => absurd hop List.not_mem_nil⟩
    · omega
    · omega
  | succ n ih =>
    have hpos : 0 < fuel := Nat.zero_lt_of_lt hf
    rcases strstrBody_cases s1 s2 (n + 1) m with ⟨hshort, hb⟩ | ⟨hfits, hocc, hb⟩ | ⟨hfits, hocc, hb⟩
    · rw [loop_of_leave hb hpos]
      exact ⟨none, rfl, strstrOk_short hshort, fun op hop => absurd hop List.not_mem_nil⟩
    · rw [loop_of_leave hb hpos]
      exact ⟨some s1, rfl, strstrOk_here hocc, fun op hop => memcmp_reads_inside hfits hop⟩
    · obtain ⟨fuel', hf', hloop⟩ := loop_of_next hb hf
      obtain ⟨r, hval, hok, hreads⟩ := ih (s1.add 1) hf'
      rw [hloop]
      refine ⟨r, hval, strstrOk_next hocc hok, fun op hop => ?_⟩
      rcases List.mem_append.mp hop with hop | hop
      · exact memcmp_reads_inside hfits hop
      · rw [Nat.add_comm (n + 1) 1]
        exact (hreads op hop).imp_left Ptr.ReadsBelow.of_add

/-- **`strstr`** ends, finds the first occurrence, and reads nothing behind a terminator. -/
theorem strstr_ok (fuel : Nat) (s1 s2 : Ptr ω) (n m : Nat) (h1 : IsString s1.get n) (h2 : IsString s2.get m)
    (hn : n < fuel) (hm : m < fuel) :
    ∃ r, (strstr fuel s1 s2).val = some r ∧ StrstrOk s1 n s2.get m r ∧
      (strstr fuel s1 s2).Only fun op => s1.ReadsBelow (n + 1) op ∨ s2.ReadsBelow (m + 1) op := by
  have hlen2 := strlen_val h2 hm
  have hlen1 := strlen_val h1 hn
  have hreads2 : ∀ op ∈ (strlen fuel s2).log, s1.ReadsBelow (n + 1) op ∨ s2.ReadsBelow (m + 1) op :=
    fun op hop => Or.inr (strlen_reads h2 hm op hop)
  by_cases hm0 : m = 0
  · subst hm0
    refine ⟨some s1, by simp [strstr, hlen2], strstrOk_here ⟨by omega, fun j hj => by omega⟩, ?_⟩
    rw [strstr, Logged.only_bind, hlen2]
    exact ⟨hreads2, Logged.only_pure _⟩
  · obtain ⟨r, hval, hok, hreads⟩ := strstrLoop_ok s1 s2 (Nat.pos_of_ne_zero hm0) hn
    refine ⟨r, ?_, hok, ?_⟩
    · simp [strstr, hlen2, hlen1, hm0, hval]
    · rw [strstr, Logged.only_bind, hlen2]
      refine ⟨hreads2, ?_⟩
      simp only [hm0, if_false]
      rw [Logged.only_bind, hlen1]
      exact ⟨fun op hop => Or.inl (strlen_reads h1 hn op hop), hreads⟩

end Strstr

/-- "ab" in "aab", which begins with a part of it. -/
theorem strstr_ok_aab :
    ∃ r, (strstr 4 (Ptr.ofList true [97, 97, 98]) (Ptr.ofList false [97, 98])).val = some r ∧
      StrstrOk (Ptr.ofList true [97, 97, 98]) 3 (Ptr.ofList false [97, 98]).get 2 r ∧
      (strstr 4 (Ptr.ofList true [97, 97, 98]) (Ptr.ofList false [97, 98])).Only fun op =>
        (Ptr.ofList true [97, 97, 98]).ReadsBelow (3 + 1) op ∨ (Ptr.ofList false [97, 98]).ReadsBelow (2 + 1) op :=
  strstr_ok 4 (Ptr.ofList true [97, 97, 98]) (Ptr.ofList false [97, 98]) 3 2 ⟨rfl, by decide⟩ ⟨rfl, by decide⟩
    (by decide) (by decide)

end Xen.Strings
