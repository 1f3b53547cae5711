import Xen.Lib.CString

/-!
# Copies inside one memory

- `Ptr.ofAddr mem a` is the address `a` of a memory that is one object.
- `Copied mem mem' dest src n`: the `n` cells at `dest` are now those that were at `src`, and no other cell has changed.
- A cell moved from `src` to `dest`, and the rest from the next cells on, are a copy of the cells as they were before if
  the target starts before the source or behind it (`Copied.cons`). The other way round, the last cells first, the
  target may start inside the source or lie before it (`Copied.last`).
- A word that is stored as it was read is a copy of its bytes (`copied_word`), and in a copy every word is the one that
  was there (`Copied.leWord`).
- `Repeated mem mem' dest d n`: the last cells first, but with the target `d` below the source and reaching it, where
  the last `d` cells of the source end up over and over (`Repeated.last`). That is a copy exactly if the source has
  period `d` (`Repeated.copied_iff`).
- `moves dest src n` are the accesses of such a copy (`mem_moves`).
-/

namespace Lib

/-- The address `a` in the memory `mem`, which is one object. -/
def Ptr.ofAddr (mem : Bytes) (a : Nat) : Ptr Unit := ⟨(), mem, a⟩

@[simp] theorem Ptr.get_ofAddr (mem : Bytes) (a i : Nat) : (Ptr.ofAddr mem a).get i = mem (a + i) := rfl

/-- `mem'` is `mem` after the `n` cells at `src` have been copied to `dest`. -/
structure Copied {α : Type} (mem mem' : Nat → α) (dest src n : Nat) : Prop where
  copied : ∀ i < n, mem' (dest + i) = mem (src + i)
  frame : ∀ a, a < dest ∨ dest + n ≤ a → mem' a = mem a

section Copied

variable {α : Type} {mem mem' : Nat → α} {dest src n : Nat}

theorem Copied.nil (mem : Nat → α) (dest src : Nat) : Copied mem mem dest src 0 :=
  ⟨fun i hi => absurd hi (Nat.not_lt_zero i), fun _ _ => rfl⟩

/-- **The first cell**, then the others: what is still to be read has not been overwritten. -/
theorem Copied.cons (h : dest ≤ src ∨ src + (n + 1) ≤ dest)
    (hrest : Copied (Function.update mem dest (mem src)) mem' (dest + 1) (src + 1) n) :
    Copied mem mem' dest src (n + 1) := by
  constructor
  · intro i hi
    cases i with
    | zero =>
      -- the first cell of the target is not touched again
      rw [Nat.add_zero, Nat.add_zero, hrest.frame dest (Or.inl (Nat.lt_succ_self dest))]
      exact Function.update_self ..
    | succ i =>
      have hne : src + 1 + i ≠ dest := by omega
      have hi' := hrest.copied i (Nat.lt_of_succ_lt_succ hi)
      rw [Function.update_of_ne hne] at hi'
      rw [Nat.add_comm i 1, ← Nat.add_assoc, ← Nat.add_assoc]
      exact hi'
  · intro a ha
    have hne : a ≠ dest := by omega
    rw [hrest.frame a (by omega)]
    exact Function.update_of_ne hne ..

/-- **The last cells**, then the others: what is still to be read has not been overwritten. -/
theorem Copied.last {mid : Nat → α} {k : Nat} (h : src ≤ dest ∨ dest + (n + k) ≤ src)
    (hlast : Copied mem mid (dest + n) (src + n) k) (hrest : Copied mid mem' dest src n) :
    Copied mem mem' dest src (n + k) := by
  constructor
  · intro i hi
    by_cases hin : i < n
    · rw [hrest.copied i hin]
      exact hlast.frame (src + i) (by omega)
    · obtain ⟨j, rfl⟩ := Nat.exists_eq_add_of_le (Nat.le_of_not_lt hin)
      rw [hrest.frame (dest + (n + j)) (by omega), ← Nat.add_assoc, ← Nat.add_assoc]
      exact hlast.copied j (by omega)
  · intro a ha
    rw [hrest.frame a (by omega)]
    exact hlast.frame a (by omega)

/-- `mem'` is `mem` after the `n` cells from `d` above have been moved to `dest`, the last ones first: the last `d` of
them over and over. -/
structure Repeated {α : Type} (mem mem' : Nat → α) (dest d n : Nat) : Prop where
  repeated : ∀ i < n, mem' (dest + i) = mem (dest + d + (n - 1 - (n - 1 - i) % d))
  frame : ∀ a, a < dest ∨ dest + n ≤ a → mem' a = mem a

theorem Repeated.nil (mem : Nat → α) (dest d : Nat) : Repeated mem mem dest d 0 :=
  ⟨fun i hi => absurd hi (Nat.not_lt_zero i), fun _ _ => rfl⟩

/-- Going `k ≤ d` cells further goes as far, or starts over. -/
theorem add_mod_cases {d m k : Nat} (hd : 0 < d) (hk : k ≤ d) :
    m % d + k < d ∧ (m + k) % d = m % d + k ∨ d ≤ m % d + k ∧ (m + k) % d = m % d + k - d := by
  have hlt : m % d < d := Nat.mod_lt m hd
  by_cases h : m % d + k < d
  · exact Or.inl ⟨h, by rw [← Nat.mod_add_mod, Nat.mod_eq_of_lt h]⟩
  · have hge : d ≤ m % d + k := Nat.le_of_not_lt h
    refine Or.inr ⟨hge, ?_⟩
    rcases Nat.lt_or_ge (m % d + k - d) d with hless | hfull
    · rw [← Nat.mod_add_mod, Nat.mod_eq_sub_mod hge, Nat.mod_eq_of_lt hless]
    · omega

/-- **The last cells** of a source that the target reaches: the others read some of them again. -/
theorem Repeated.last {mid : Nat → α} {d k : Nat} (hd : 0 < d) (hk : k ≤ d)
    (hlast : Copied mem mid (dest + n) (dest + d + n) k) (hrest : Repeated mid mem' dest d n) :
    Repeated mem mem' dest d (n + k) := by
  constructor
  · intro i hi
    by_cases hin : i < n
    · have hlt : (n - 1 - i) % d < d := Nat.mod_lt _ hd
      have hle : (n - 1 - i) % d ≤ n - 1 - i := Nat.mod_le _ _
      have hnext : n + k - 1 - i = n - 1 - i + k := by omega
      rw [hrest.repeated i hin, hnext]
      rcases add_mod_cases (m := n - 1 - i) hd hk with ⟨hless, hmod⟩ | ⟨hover, hmod⟩
      · -- the cell read is behind the last ones
        rw [hmod, hlast.frame _ (by omega)]
        congr 1
        omega
      · -- the cell read is one of the last ones
        have hcell : dest + d + (n - 1 - (n - 1 - i) % d) = dest + n + (d - 1 - (n - 1 - i) % d) := by omega
        rw [hmod, hcell, hlast.copied _ (by omega)]
        congr 1
        omega
    · obtain ⟨j, rfl⟩ := Nat.exists_eq_add_of_le (Nat.le_of_not_lt hin)
      have hsmall : (n + k - 1 - (n + j)) % d = n + k - 1 - (n + j) := Nat.mod_eq_of_lt (by omega)
      rw [hrest.frame (dest + (n + j)) (by omega), ← Nat.add_assoc, hlast.copied j (by omega), hsmall]
      congr 1
      omega
  · intro a ha
    rw [hrest.frame a (by omega)]
    exact hlast.frame a (by omega)

/-- What is repeated is the same one period further. -/
theorem Repeated.next {d i : Nat} (h : Repeated mem mem' dest d n) (hi : i + d < n) :
    mem' (dest + (i + d)) = mem' (dest + i) := by
  have hmod : n - 1 - i = n - 1 - (i + d) + d := by omega
  rw [h.repeated (i + d) hi, h.repeated i (by omega), hmod, Nat.add_mod_right]

/-- **When the repetition is a copy.** Exactly if the source has the period `d` itself. -/
theorem Repeated.copied_iff {d : Nat} (hd : 0 < d) (h : Repeated mem mem' dest d n) :
    Copied mem mem' dest (dest + d) n ↔ ∀ i, i + d < n → mem (dest + d + i) = mem (dest + d + (i + d)) := by
  constructor
  · intro hc i hi
    rw [← hc.copied i (by omega), ← hc.copied (i + d) hi, h.next hi]
  · intro hperiod
    refine ⟨fun i hi => ?_, h.frame⟩
    -- from the last period downwards
    induction hm : n - i using Nat.strongRecOn generalizing i with
    | _ m ih =>
      by_cases hlast : i + d < n
      · rw [← h.next hlast, ih (n - (i + d)) (by omega) (i + d) hlast rfl, hperiod i hlast]
      · have hsmall : (n - 1 - i) % d = n - 1 - i := Nat.mod_eq_of_lt (by omega)
        have hcell : n - 1 - (n - 1 - i) = i := by omega
        rw [h.repeated i hi, hsmall, hcell]

/-- A source apart from the target is still there. -/
theorem Copied.source (h : Copied mem mem' dest src n) (hd : dest + n ≤ src ∨ src + n ≤ dest) {i : Nat} (hi : i < n) :
    mem' (src + i) = mem (src + i) :=
  h.frame (src + i) (by omega)

end Copied

/-- **A word** that is stored as it was read. -/
theorem copied_word (mem : Bytes) (dest src k : Nat) :
    Copied mem (storeWord mem dest k (leWord mem src k)) dest src k := by
  constructor
  · intro i hi
    rw [storeWord_inside mem _ ⟨Nat.le_add_right dest i, Nat.add_lt_add_left hi dest⟩, Nat.add_sub_cancel_left]
    exact leWord_byte mem hi
  · intro a ha
    exact storeWord_outside mem _ ha

/-- A word inside the copy. -/
theorem Copied.leWord {mem mem' : Bytes} {dest src n i k : Nat} (h : Copied mem mem' dest src n) (hik : i + k ≤ n) :
    leWord mem' (dest + i) k = leWord mem (src + i) k := by
  apply leWord_congr
  intro j hj
  rw [Nat.add_assoc, Nat.add_assoc]
  exact h.copied (i + j) (by omega)

/-- A string copied with its terminator. -/
theorem Copied.isString {mem mem' : Bytes} {dest src n : Nat} (h : Copied mem mem' dest src (n + 1))
    (hs : IsString (Ptr.ofAddr mem src).get n) : IsString (Ptr.ofAddr mem' dest).get n := by
  constructor
  · show mem' (dest + n) = 0
    rw [h.copied n (Nat.lt_succ_self n)]
    exact hs.nul
  · intro i hi
    show mem' (dest + i) ≠ 0
    rw [h.copied i (Nat.lt_succ_of_lt hi)]
    exact hs.char i hi

/-- A string that no write reaches. -/
theorem IsString.of_eq {s t : Bytes} {n : Nat} (h : IsString s n) (heq : ∀ i ≤ n, t i = s i) : IsString t n := by
  constructor
  · rw [heq n (Nat.le_refl n)]
    exact h.nul
  · intro i hi
    rw [heq i (Nat.le_of_lt hi)]
    exact h.char i hi

/-- The accesses of a copy of `n` bytes, one after the other. -/
def moves : (n dest src : Nat) → List (MemOp Unit)
  | 0, _, _ => []
  | n + 1, dest, src => .read () src 1 :: .write () dest 1 :: moves n (dest + 1) (src + 1)

/-- **The accesses** are a read and a write for each byte. -/
theorem mem_moves {n dest src : Nat} {op : MemOp Unit} :
    op ∈ moves n dest src ↔ ∃ i < n, op = .read () (src + i) 1 ∨ op = .write () (dest + i) 1 := by
  induction n generalizing dest src with
  | zero => simp [moves]
  | succ n ih =>
    rw [moves, List.mem_cons, List.mem_cons, ih]
    constructor
    · rintro (rfl | rfl | ⟨i, hi, hop⟩)
      · exact ⟨0, Nat.succ_pos n, Or.inl rfl⟩
      · exact ⟨0, Nat.succ_pos n, Or.inr rfl⟩
      · refine ⟨i + 1, Nat.succ_lt_succ hi, ?_⟩
        rw [Nat.add_comm i 1, ← Nat.add_assoc, ← Nat.add_assoc]
        exact hop
    · rintro ⟨i, hi, hop⟩
      cases i with
      | zero => exact hop.imp_right Or.inl
      | succ i =>
        refine Or.inr (Or.inr ⟨i, Nat.lt_of_succ_lt_succ hi, ?_⟩)
        rw [Nat.add_assoc, Nat.add_assoc, Nat.add_comm 1 i]
        exact hop

end Lib
