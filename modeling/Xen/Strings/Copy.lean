import Xen.Lib.Copy
import Xen.Strings.Search

/-!
# Copies of memory blocks and strings (`string_verified.c`)

- The memory is one object, and a pointer is an address in it; addresses do not wrap. `NULL` is 0.
- `memset_val`: `memset` fills a block, and changes nothing else.
- `memcpy_ok`: `memcpy` copies the bytes as they were before, also to a target that starts before the source and
  overlaps it.
- `strncpy_ok`, `strnlen_ok`: the bounded routines touch exactly the bytes up to the bound or the terminator.
- `strcat_val`: `strcat` puts the second string behind the first; what `strcpy` and `strdup` copy is the same string for
  `strcmp`.
-/

namespace Xen.Strings

open Lib

variable {ω : Type}

/-! ## The functions -/

/-- `*dest = *src`: the byte, and the memory afterwards. -/
def moveChar (mem : Bytes) (dest src : Nat) : Logged (MemOp Unit) (UInt8 × Bytes) := do
  let c ← (Ptr.ofAddr mem src).deref
  Logged.emit (.write () dest 1)
  pure (c, Function.update mem dest c)

/-- The loop of `memcpy`. -/
def memcpyLoop : (count tmp s : Nat) → (mem : Bytes) → Logged (MemOp Unit) Bytes
  | 0, _, _, mem => pure mem
  | count + 1, tmp, s, mem => do
    let r ← moveChar mem tmp s
    memcpyLoop count (tmp + 1) (s + 1) r.2

/-- `memcpy`: what it returns, and the memory afterwards. -/
def memcpy (mem : Bytes) (dest src count : Nat) : Logged (MemOp Unit) (Nat × Bytes) := do
  let mem ← memcpyLoop count dest src mem
  pure (dest, mem)

/-- The loop of `memset`. -/
def memsetLoop (c : UInt8) : (count xs : Nat) → (mem : Bytes) → Logged (MemOp Unit) Bytes
  | 0, _, mem => pure mem
  | count + 1, xs, mem => do
    Logged.emit (.write () xs 1)
    memsetLoop c count (xs + 1) (Function.update mem xs c)

/-- `memset`: what it returns, and the memory afterwards. -/
def memset (mem : Bytes) (s : Nat) (c : Int) (count : Nat) : Logged (MemOp Unit) (Nat × Bytes) := do
  let mem ← memsetLoop (UInt8.ofInt c) count s mem
  pure (s, mem)

/-- The variables of a loop `if ((*dest++ = *src++) == '\0') break;` and the memory. -/
structure CopyState where
  mem : Bytes
  dest : Nat
  src : Nat

/-- The body of `strcpy`. -/
def strcpyBody (s : CopyState) : Logged (MemOp Unit) (Iter CopyState Bytes) := do
  let r ← moveChar s.mem s.dest s.src
  if r.1 = 0 then pure (.leave r.2) else pure (.next ⟨r.2, s.dest + 1, s.src + 1⟩)

/-- `strcpy`; `none` when `fuel` iterations do not end the loop. -/
def strcpy (fuel : Nat) (mem : Bytes) (dest src : Nat) : Logged (MemOp Unit) (Option (Nat × Bytes)) := do
  let r ← loop strcpyBody fuel ⟨mem, dest, src⟩
  pure (r.map fun mem => (dest, mem))

/-- The loop of `strncpy`. -/
def strncpyLoop : (count dest src : Nat) → (mem : Bytes) → Logged (MemOp Unit) Bytes
  | 0, _, _, mem => pure mem
  | count + 1, dest, src, mem => do
    let r ← moveChar mem dest src
    if r.1 = 0 then pure r.2 else strncpyLoop count (dest + 1) (src + 1) r.2

def strncpy (mem : Bytes) (dest src count : Nat) : Logged (MemOp Unit) (Nat × Bytes) := do
  let mem ← strncpyLoop count dest src mem
  pure (dest, mem)

/-- The loop of `strnlen`. -/
def strnlenLoop : (count : Nat) → (sc : Ptr ω) → Logged (MemOp ω) (Ptr ω)
  | 0, sc => pure sc
  | count + 1, sc => do
    let c ← sc.deref
    if c = 0 then pure sc else strnlenLoop count (sc.add 1)

def strnlen (s : Ptr ω) (count : Nat) : Logged (MemOp ω) Nat := do
  let sc ← strnlenLoop count s
  pure (sc.off - s.off)

/-- `strcat`. Its first loop has the body of `strlen`, its second that of `strcpy`. -/
def strcat (fuel : Nat) (mem : Bytes) (dest src : Nat) : Logged (MemOp Unit) (Option (Nat × Bytes)) := do
  match ← loop strlenBody fuel (Ptr.ofAddr mem dest) with
  | none => pure none
  | some sc =>
    let r ← loop strcpyBody fuel ⟨mem, sc.off, src⟩
    pure (r.map fun mem => (dest, mem))

/-- `strdup`, where `malloc` returns the address of a block of the given size. -/
def strdup (malloc : Nat → Nat) (fuel : Nat) (mem : Bytes) (x : Nat) :
    Logged (MemOp Unit) (Option (Nat × Bytes)) := do
  match ← strlen fuel (Ptr.ofAddr mem x) with
  | none => pure none
  | some l =>
    let res := malloc (l + 1)
    if res = 0 then pure (some (0, mem)) else do
      let r ← memcpy mem res x (l + 1)
      pure (some (res, r.2))

/-! ## `memcpy` -/

section Memcpy

variable {mem : Bytes} {dest src : Nat}

@[simp] theorem moveChar_eq (mem : Bytes) (dest src : Nat) : moveChar mem dest src =
    ⟨(mem src, Function.update mem dest (mem src)), [.read () src 1, .write () dest 1]⟩ := rfl

/-- **The loop of `memcpy`** copies forwards, byte by byte. -/
theorem memcpyLoop_copied {count : Nat} (h : dest ≤ src ∨ src + count ≤ dest) :
    Copied mem (memcpyLoop count dest src mem).val dest src count := by
  induction count generalizing mem dest src with
  | zero => exact Copied.nil mem dest src
  | succ count ih =>
    show Copied mem (memcpyLoop count (dest + 1) (src + 1) (Function.update mem dest (mem src))).val dest src
      (count + 1)
    apply Copied.cons h
    apply ih
    omega

/-- **`memcpy`** copies the bytes as they were before, and changes no other byte. -/
theorem memcpy_ok (mem : Bytes) (dest src count : Nat) (h : dest ≤ src ∨ src + count ≤ dest) :
    (memcpy mem dest src count).val.1 = dest ∧ Copied mem (memcpy mem dest src count).val.2 dest src count := by
  constructor
  · rfl
  · exact memcpyLoop_copied h

/-- Three bytes to the byte before them. -/
theorem memcpy_ok_overlapping :
    (memcpy (Bytes.ofList [1, 2, 3, 4]) 0 1 3).val.1 = 0 ∧
      Copied (Bytes.ofList [1, 2, 3, 4]) (memcpy (Bytes.ofList [1, 2, 3, 4]) 0 1 3).val.2 0 1 3 :=
  memcpy_ok (Bytes.ofList [1, 2, 3, 4]) 0 1 3 (Or.inl (by decide))

end Memcpy

/-! ## `memset` -/

/-- **The loop of `memset`** fills the bytes, and changes no other one. -/
theorem memsetLoop_val (c : UInt8) (count xs : Nat) (mem : Bytes) : (memsetLoop c count xs mem).val =
    fun a => if xs ≤ a ∧ a < xs + count then c else mem a := by
  induction count generalizing xs mem with
  | zero =>
    funext a
    rw [if_neg (by omega)]
    rfl
  | succ count ih =>
    funext a
    simp only [memsetLoop, Logged.val_bind, ih]
    by_cases ha : a = xs
    · subst ha
      rw [if_neg (by omega), if_pos (by omega), Function.update_self]
    · rw [Function.update_of_ne ha]
      exact if_congr (by omega) rfl rfl

theorem memset_val (mem : Bytes) (s : Nat) (c : Int) (count : Nat) : (memset mem s c count).val =
    (s, fun a => if s ≤ a ∧ a < s + count then UInt8.ofInt c else mem a) := by
  simp only [memset, Logged.val_bind, Logged.val_pure, memsetLoop_val]

/-! ## `strncpy` and `strnlen` -/

/-- `r` is the first index below `count` with a terminator, or `count` if there is none. -/
structure FirstNul (s : Bytes) (count r : Nat) : Prop where
  le : r ≤ count
  char : ∀ i < r, s i ≠ 0
  nul : r < count → s r = 0

/-- The first `k` of at most `count` bytes: up to the bound, or up to the first terminator. -/
structure StopsAfter (s : Bytes) (count k : Nat) : Prop where
  le : k ≤ count
  char : ∀ i, i + 1 < k → s i ≠ 0
  last : k = count ∨ ∃ j, k = j + 1 ∧ s j = 0

/-- **What `strncpy` does** with a string of length `n`: it returns `dest`, moves `min count (n + 1)` bytes and touches
nothing else, and the target is terminated exactly if the bound is behind the last character. -/
structure StrncpyOk (mem : Bytes) (dest src n count : Nat) (r : Logged (MemOp Unit) (Nat × Bytes)) : Prop where
  ret : r.val.1 = dest
  copied : Copied mem r.val.2 dest src (min count (n + 1))
  touched : ∀ op, op ∈ r.log ↔ ∃ i < min count (n + 1), op = .read () (src + i) 1 ∨ op = .write () (dest + i) 1
  terminated : (∃ i < count, r.val.2 (dest + i) = 0) ↔ n < count

section Bounded

variable {mem : Bytes} {dest src n count k : Nat}

/-- A terminator is the last byte. -/
theorem StopsAfter.of_nul {s : Bytes} (h : StopsAfter s (count + 1) (k + 1)) (h0 : s 0 = 0) : k = 0 := by
  by_contra hk
  exact h.char 0 (by omega) h0

/-- Behind a character, as many bytes are left as of what comes after it. -/
theorem StopsAfter.tail {s t : Bytes} (h : StopsAfter s (count + 1) (k + 1)) (h0 : s 0 ≠ 0)
    (heq : ∀ i < k, t i = s (i + 1)) : StopsAfter t count k := by
  constructor
  · exact Nat.le_of_succ_le_succ h.le
  · intro i hi
    rw [heq i (by omega)]
    exact h.char (i + 1) (by omega)
  · rcases h.last with hbound | ⟨j, hj, hnul⟩
    · exact Or.inl (Nat.succ.inj hbound)
    · obtain rfl := Nat.succ.inj hj
      cases k with
      | zero => exact absurd hnul h0
      | succ j => exact Or.inr ⟨j, rfl, (heq j (Nat.lt_succ_self j)).trans hnul⟩

/-- A string stops after its terminator. -/
theorem stopsAfter_of_isString {s : Bytes} (h : IsString s n) (count : Nat) :
    StopsAfter s count (min count (n + 1)) := by
  constructor
  · exact Nat.min_le_left count (n + 1)
  · intro i hi
    exact h.char i (by omega)
  · by_cases hn : n < count
    · exact Or.inr ⟨n, Nat.min_eq_right hn, h.nul⟩
    · exact Or.inl (by omega)

/-- **The loop of `strncpy`** moves the bytes up to where it stops. -/
theorem strncpyLoop_ok (h : StopsAfter (Ptr.ofAddr mem src).get count k) (hd : dest ≤ src ∨ src + k ≤ dest) :
    ∃ mem', strncpyLoop count dest src mem = ⟨mem', moves k dest src⟩ ∧ Copied mem mem' dest src k := by
  induction count generalizing mem dest src k with
  | zero =>
    obtain rfl : k = 0 := Nat.le_zero.mp h.le
    exact ⟨mem, rfl, Copied.nil mem dest src⟩
  | succ count ih =>
    cases k with
    | zero =>
      rcases h.last with hbound | ⟨j, hj, -⟩
      · exact absurd hbound (Nat.succ_ne_zero count).symm
      · exact absurd hj (Nat.succ_ne_zero j).symm
    | succ k =>
      by_cases h0 : mem src = 0
      · obtain rfl : k = 0 := h.of_nul h0
        refine ⟨Function.update mem dest (mem src), ?_, Copied.cons hd (Copied.nil _ _ _)⟩
        ext1 <;> simp [strncpyLoop, h0, moves]
      · -- the write does not reach the bytes that are still to be moved
        have hrest : StopsAfter (Ptr.ofAddr (Function.update mem dest (mem src)) (src + 1)).get count k := by
          apply h.tail h0
          intro i hi
          rw [Ptr.get_ofAddr, Function.update_of_ne (by omega), Ptr.get_ofAddr, Nat.add_assoc, Nat.add_comm 1 i]
        have hd' : dest + 1 ≤ src + 1 ∨ src + 1 + k ≤ dest + 1 := by omega
        obtain ⟨mem', hloop, hcopied⟩ := ih hrest hd'
        refine ⟨mem', ?_, Copied.cons hd hcopied⟩
        ext1 <;> simp [strncpyLoop, h0, moves, hloop]

/-- The target of `strncpy` is terminated if the terminator has been moved. -/
theorem terminated_iff {mem' : Bytes} (h : IsString (Ptr.ofAddr mem src).get n)
    (hc : Copied mem mem' dest src (min count (n + 1))) : (∃ i < count, mem' (dest + i) = 0) ↔ n < count := by
  constructor
  · rintro ⟨i, hi, hnul⟩
    by_contra hle
    rw [hc.copied i (by omega)] at hnul
    exact h.char i (by omega) hnul
  · intro hn
    refine ⟨n, hn, ?_⟩
    rw [hc.copied n (by omega)]
    exact h.nul

/-- **`strncpy`** on a string and a target apart from it. -/
theorem strncpy_ok (h : IsString (Ptr.ofAddr mem src).get n)
    (hd : dest + min count (n + 1) ≤ src ∨ src + min count (n + 1) ≤ dest) :
    StrncpyOk mem dest src n count (strncpy mem dest src count) := by
  obtain ⟨mem', hval, hcopied⟩ := strncpyLoop_ok (stopsAfter_of_isString h count) (by omega : dest ≤ src ∨ _)
  have hrun : strncpy mem dest src count = ⟨(dest, mem'), moves (min count (n + 1)) dest src⟩ := by
    ext1 <;> simp [strncpy, hval]
  rw [hrun]
  constructor
  · rfl
  · exact hcopied
  · exact fun op => mem_moves
  · exact terminated_iff h hcopied

/-- Behind a character. -/
theorem FirstNul.cons {s : Ptr ω} {r : Nat} (h0 : s.get 0 ≠ 0) (h : FirstNul (s.add 1).get count r) :
    FirstNul s.get (count + 1) (r + 1) := by
  constructor
  · exact Nat.succ_le_succ h.le
  · intro i hi
    cases i with
    | zero => exact h0
    | succ i =>
      have hchar := h.char i (Nat.lt_of_succ_lt_succ hi)
      rwa [Ptr.get_add, Nat.add_comm 1 i] at hchar
  · intro hlt
    have hnul := h.nul (Nat.lt_of_succ_lt_succ hlt)
    rwa [Ptr.get_add, Nat.add_comm 1 r] at hnul

/-- **The loop of `strnlen`** stops at the first terminator below the bound, and reads nothing behind. -/
theorem strnlenLoop_ok (s : Ptr ω) (count : Nat) :
    ∃ r, (strnlenLoop count s).val = s.add r ∧ FirstNul s.get count r ∧
      (strnlenLoop count s).Only (s.ReadsBelow count) := by
  induction count generalizing s with
  | zero =>
    refine ⟨0, rfl, ⟨Nat.le_refl 0, ?_, ?_⟩, Logged.only_pure _⟩
    · intro i hi
      exact absurd hi (Nat.not_lt_zero i)
    · intro hlt
      exact absurd hlt (Nat.not_lt_zero 0)
  | succ count ih =>
    have hfirst := s.readsBelow_deref (Nat.succ_pos count)
    by_cases h0 : s.get 0 = 0
    · have hbody : strnlenLoop (count + 1) s = ⟨s, [.read s.obj s.off 1]⟩ := by
        have hchar : s.mem s.off = 0 := h0
        ext1 <;> simp [strnlenLoop, Ptr.deref, hchar]
      rw [hbody]
      refine ⟨0, rfl, ⟨Nat.zero_le _, fun i hi => absurd hi (Nat.not_lt_zero i), fun _ => h0⟩, ?_⟩
      rintro op (_ | ⟨_, ⟨⟩⟩)
      exact hfirst
    · obtain ⟨r, hval, hok, hreads⟩ := ih (s.add 1)
      have hbody : strnlenLoop (count + 1) s =
          ⟨s.add (r + 1), .read s.obj s.off 1 :: (strnlenLoop count (s.add 1)).log⟩ := by
        have hchar : s.mem s.off ≠ 0 := h0
        ext1 <;> simp [strnlenLoop, Ptr.deref, hchar, hval, Nat.add_comm 1 r]
      rw [hbody]
      refine ⟨r + 1, rfl, FirstNul.cons h0 hok, fun op hop => ?_⟩
      rcases List.mem_cons.mp hop with rfl | hop
      · exact hfirst
      · rw [Nat.add_comm count 1]
        exact (hreads op hop).of_add

/-- **`strnlen`** is the index of the first terminator, or the bound. -/
theorem strnlen_ok (s : Ptr ω) (count : Nat) :
    FirstNul s.get count (strnlen s count).val ∧ (strnlen s count).Only (s.ReadsBelow count) := by
  obtain ⟨r, hval, hok, hreads⟩ := strnlenLoop_ok s count
  constructor
  · have hr : (strnlen s count).val = r := by simp [strnlen, hval, Ptr.add]
    rw [hr]
    exact hok
  · rw [strnlen, Logged.only_bind]
    exact ⟨hreads, Logged.only_pure _⟩

end Bounded

/-- **The bounded routines** touch exactly what they say, for bounds before, at and behind the terminator. -/
theorem bounded_routines_ok :
    (∀ (mem : Bytes) (dest src n count : Nat), IsString (Ptr.ofAddr mem src).get n →
      dest + min count (n + 1) ≤ src ∨ src + min count (n + 1) ≤ dest →
      StrncpyOk mem dest src n count (strncpy mem dest src count)) ∧
    ∀ (ω : Type) (s : Ptr ω) (count : Nat),
      FirstNul s.get count (strnlen s count).val ∧ (strnlen s count).Only (s.ReadsBelow count) := by
  constructor
  · intro mem dest src n count h hd
    exact strncpy_ok h hd
  · intro ω s count
    exact strnlen_ok s count

/-- Two characters and their terminator with a bound of two. -/
theorem bounded_routines_ok_ab :
    StrncpyOk (Bytes.ofList [97, 98]) 3 0 2 2 (strncpy (Bytes.ofList [97, 98]) 3 0 2) :=
  bounded_routines_ok.1 (Bytes.ofList [97, 98]) 3 0 2 2 ⟨rfl, by decide⟩ (Or.inr (by decide))

/-! ## `strcpy`, `strcat` and `strdup` -/

section Strcpy

variable {mem mem' : Bytes} {dest src n fuel : Nat}

/-- An iteration at the terminator. -/
theorem strcpyBody_nul (h : mem src = 0) : strcpyBody ⟨mem, dest, src⟩ =
    ⟨.leave (Function.update mem dest (mem src)), [.read () src 1, .write () dest 1]⟩ := by
  ext1 <;> simp [strcpyBody, h]

/-- An iteration at a character. -/
theorem strcpyBody_char (h : mem src ≠ 0) : strcpyBody ⟨mem, dest, src⟩ =
    ⟨.next ⟨Function.update mem dest (mem src), dest + 1, src + 1⟩, [.read () src 1, .write () dest 1]⟩ := by
  ext1 <;> simp [strcpyBody, h]

/-- **The loop of `strcpy`** copies the string with its terminator. -/
theorem strcpyLoop_ok (h : IsString (Ptr.ofAddr mem src).get n) (hd : dest ≤ src ∨ src + (n + 1) ≤ dest)
    (hf : n < fuel) : ∃ mem', (loop strcpyBody fuel ⟨mem, dest, src⟩).val = some mem' ∧
      Copied mem mem' dest src (n + 1) := by
  induction n generalizing mem dest src fuel with
  | zero =>
    have hnul : mem src = 0 := h.nul
    rw [loop_of_leave (strcpyBody_nul hnul) hf]
    exact ⟨_, rfl, Copied.cons hd (Copied.nil _ _ _)⟩
  | succ n ih =>
    have hchar : mem src ≠ 0 := h.char 0 (Nat.succ_pos n)
    obtain ⟨fuel', hf', hloop⟩ := loop_of_next (strcpyBody_char hchar) hf
    -- the write does not reach the rest of the string
    have hrest : IsString (Ptr.ofAddr (Function.update mem dest (mem src)) (src + 1)).get n := by
      apply h.tail.of_eq
      intro i hi
      rw [Ptr.get_ofAddr, Function.update_of_ne (by omega)]
      rfl
    have hd' : dest + 1 ≤ src + 1 ∨ src + 1 + (n + 1) ≤ dest + 1 := by omega
    obtain ⟨mem', hval, hcopied⟩ := ih hrest hd' hf'
    rw [hloop]
    exact ⟨mem', hval, Copied.cons hd hcopied⟩

/-- **`strcpy`**. -/
theorem strcpy_val (h : IsString (Ptr.ofAddr mem src).get n) (hd : dest ≤ src ∨ src + (n + 1) ≤ dest)
    (hf : n < fuel) : ∃ mem', (strcpy fuel mem dest src).val = some (dest, mem') ∧
      Copied mem mem' dest src (n + 1) := by
  obtain ⟨mem', hval, hcopied⟩ := strcpyLoop_ok h hd hf
  exact ⟨mem', by simp [strcpy, hval], hcopied⟩

/-- A copy of a string is the same string for `strcmp`. -/
theorem strcmp_copied (h : IsString (Ptr.ofAddr mem src).get n) (hc : Copied mem mem' dest src (n + 1))
    (hd : dest + (n + 1) ≤ src ∨ src + (n + 1) ≤ dest) (hf : n < fuel) :
    (strcmp fuel (Ptr.ofAddr mem' dest) (Ptr.ofAddr mem' src)).val = some 0 := by
  have hsame : ∀ i ≤ n, mem' (dest + i) = mem' (src + i) := by
    intro i hi
    rw [hc.source hd (Nat.lt_succ_of_le hi)]
    exact hc.copied i (Nat.lt_succ_of_le hi)
  have hdest := hc.isString h
  have hstop : StopsAt (Ptr.ofAddr mem' dest).get (Ptr.ofAddr mem' src).get n :=
    ⟨Or.inr hdest.nul, fun i hi => ⟨hsame i (Nat.le_of_lt hi), hdest.char i hi⟩⟩
  have hdiff : byteDiff ((Ptr.ofAddr mem' dest).get n) ((Ptr.ofAddr mem' src).get n) = 0 :=
    (byteDiff_eq_zero_iff _ _).mpr (hsame n (Nat.le_refl n))
  rw [strcmp_val hstop hf, hdiff]

end Strcpy

/-- **What `strcat` does** with strings of the lengths `a` at `dest` and `b` at `src`: the second one with its
terminator is behind the first one, and nothing outside the bytes written has changed. -/
structure Concatenated (mem mem' : Bytes) (dest src a b : Nat) : Prop where
  first : ∀ i < a, mem' (dest + i) = mem (dest + i)
  second : ∀ i < b, mem' (dest + a + i) = mem (src + i)
  nul : mem' (dest + a + b) = 0
  frame : ∀ x, x < dest + a ∨ dest + a + b < x → mem' x = mem x

section Strcat

variable {mem : Bytes} {dest src a b fuel : Nat}

/-- **`strcat`** finds the end of the first string and copies the second one there. -/
theorem strcat_val (ha : IsString (Ptr.ofAddr mem dest).get a) (hb : IsString (Ptr.ofAddr mem src).get b)
    (hd : dest + (a + b + 1) ≤ src ∨ src + (b + 1) ≤ dest) (hf : a + b < fuel) :
    ∃ mem', (strcat fuel mem dest src).val = some (dest, mem') ∧ Copied mem mem' (dest + a) src (b + 1) := by
  have hend : (loop strlenBody fuel (Ptr.ofAddr mem dest)).val = some (Ptr.ofAddr mem (dest + a)) :=
    (strlenLoop_ok ha (by omega)).1
  have hcopy : ∃ mem', (loop strcpyBody fuel ⟨mem, dest + a, src⟩).val = some mem' ∧
      Copied mem mem' (dest + a) src (b + 1) := by
    apply strcpyLoop_ok hb
    · omega
    · omega
  obtain ⟨mem', hval, hcopied⟩ := hcopy
  refine ⟨mem', ?_, hcopied⟩
  simp only [strcat, Logged.val_bind, hend]
  show ((loop strcpyBody fuel ⟨mem, dest + a, src⟩).val.map fun mem => (dest, mem)) = some (dest, mem')
  rw [hval]
  rfl

/-- A string copied behind another one. -/
theorem concatenated_of_copied {mem' : Bytes} (hb : IsString (Ptr.ofAddr mem src).get b)
    (hc : Copied mem mem' (dest + a) src (b + 1)) : Concatenated mem mem' dest src a b := by
  constructor
  · intro i hi
    exact hc.frame (dest + i) (Or.inl (by omega))
  · intro i hi
    exact hc.copied i (Nat.lt_succ_of_lt hi)
  · rw [hc.copied b (Nat.lt_succ_self b)]
    exact hb.nul
  · intro x hx
    exact hc.frame x (by omega)

/-- The concatenation of strings is one. -/
theorem Concatenated.isString {mem' : Bytes} (ha : IsString (Ptr.ofAddr mem dest).get a)
    (hb : IsString (Ptr.ofAddr mem src).get b) (h : Concatenated mem mem' dest src a b) :
    IsString (Ptr.ofAddr mem' dest).get (a + b) := by
  constructor
  · rw [Ptr.get_ofAddr, ← Nat.add_assoc]
    exact h.nul
  · intro i hi
    rw [Ptr.get_ofAddr]
    by_cases hia : i < a
    · rw [h.first i hia]
      exact ha.char i hia
    · obtain ⟨j, rfl⟩ := Nat.exists_eq_add_of_le (Nat.le_of_not_lt hia)
      rw [← Nat.add_assoc, h.second j (by omega)]
      exact hb.char j (by omega)

end Strcat

section Strdup

variable {malloc : Nat → Nat} {mem : Bytes} {x n fuel : Nat}

/-- `strdup` without a block. -/
theorem strdup_null (h : IsString (Ptr.ofAddr mem x).get n) (hf : n < fuel) (hnull : malloc (n + 1) = 0) :
    (strdup malloc fuel mem x).val = some (0, mem) := by
  simp [strdup, strlen_val h hf, hnull]

/-- **`strdup`** copies the string to its block. -/
theorem strdup_val (h : IsString (Ptr.ofAddr mem x).get n) (hf : n < fuel) (hnull : malloc (n + 1) ≠ 0)
    (hd : malloc (n + 1) ≤ x ∨ x + (n + 1) ≤ malloc (n + 1)) :
    ∃ mem', (strdup malloc fuel mem x).val = some (malloc (n + 1), mem') ∧
      Copied mem mem' (malloc (n + 1)) x (n + 1) := by
  refine ⟨_, ?_, memcpyLoop_copied hd⟩
  simp [strdup, strlen_val h hf, hnull, memcpy]

end Strdup

/-- **Strings are built** as they should be: by `strcat` behind a string that no other byte of the result overlaps, by
`strcpy` at a target apart from the string, and by `strdup` in a block apart from it, or not at all. -/
theorem string_building (fuel : Nat) (mem : Bytes) (src b : Nat) (hb : IsString (Ptr.ofAddr mem src).get b)
    (hf : b < fuel) :
    (∀ dest a, IsString (Ptr.ofAddr mem dest).get a → dest + (a + b + 1) ≤ src ∨ src + (b + 1) ≤ dest →
      a + b < fuel → ∃ mem', (strcat fuel mem dest src).val = some (dest, mem') ∧
        Concatenated mem mem' dest src a b ∧ (strlen fuel (Ptr.ofAddr mem' dest)).val = some (a + b)) ∧
    (∀ dest, dest + (b + 1) ≤ src ∨ src + (b + 1) ≤ dest →
      ∃ mem', (strcpy fuel mem dest src).val = some (dest, mem') ∧ Copied mem mem' dest src (b + 1) ∧
        (strcmp fuel (Ptr.ofAddr mem' dest) (Ptr.ofAddr mem' src)).val = some 0) ∧
    ∀ malloc : Nat → Nat, (malloc (b + 1) = 0 → (strdup malloc fuel mem src).val = some (0, mem)) ∧
      (malloc (b + 1) ≠ 0 → malloc (b + 1) + (b + 1) ≤ src ∨ src + (b + 1) ≤ malloc (b + 1) →
        ∃ mem', (strdup malloc fuel mem src).val = some (malloc (b + 1), mem') ∧
          Copied mem mem' (malloc (b + 1)) src (b + 1) ∧
          (strcmp fuel (Ptr.ofAddr mem' (malloc (b + 1))) (Ptr.ofAddr mem' src)).val = some 0) := by
  refine ⟨?_, ?_, fun malloc => ⟨strdup_null hb hf, ?_⟩⟩
  · intro dest a ha hd hfuel
    obtain ⟨mem', hval, hcopied⟩ := strcat_val ha hb hd hfuel
    have hcat : Concatenated mem mem' dest src a b := concatenated_of_copied hb hcopied
    exact ⟨mem', hval, hcat, strlen_val (hcat.isString ha hb) hfuel⟩
  · intro dest hd
    obtain ⟨mem', hval, hcopied⟩ := strcpy_val hb (by omega : dest ≤ src ∨ src + (b + 1) ≤ dest) hf
    exact ⟨mem', hval, hcopied, strcmp_copied hb hcopied hd hf⟩
  · intro hnull hd
    obtain ⟨mem', hval, hcopied⟩ := strdup_val hb hf hnull (by omega)
    exact ⟨mem', hval, hcopied, strcmp_copied hb hcopied hd hf⟩

/-- "b" appended to "a", copied to 6 and duplicated at 8. -/
theorem string_building_ab :
    (∃ mem', (strcat 4 (Bytes.ofList [97, 0, 0, 0, 98]) 0 4).val = some (0, mem') ∧
      Concatenated (Bytes.ofList [97, 0, 0, 0, 98]) mem' 0 4 1 1 ∧
      (strlen 4 (Ptr.ofAddr mem' 0)).val = some (1 + 1)) ∧
    (∃ mem', (strcpy 4 (Bytes.ofList [97, 0, 0, 0, 98]) 6 4).val = some (6, mem') ∧
      Copied (Bytes.ofList [97, 0, 0, 0, 98]) mem' 6 4 (1 + 1) ∧
      (strcmp 4 (Ptr.ofAddr mem' 6) (Ptr.ofAddr mem' 4)).val = some 0) ∧
    ∃ mem', (strdup (fun _ => 8) 4 (Bytes.ofList [97, 0, 0, 0, 98]) 4).val = some (8, mem') ∧
      Copied (Bytes.ofList [97, 0, 0, 0, 98]) mem' 8 4 (1 + 1) ∧
      (strcmp 4 (Ptr.ofAddr mem' 8) (Ptr.ofAddr mem' 4)).val = some 0 := by
  have hb : IsString (Ptr.ofAddr (Bytes.ofList [97, 0, 0, 0, 98]) 4).get 1 := ⟨rfl, by decide⟩
  obtain ⟨hcat, hcpy, hdup⟩ := string_building 4 (Bytes.ofList [97, 0, 0, 0, 98]) 4 1 hb (by decide)
  refine ⟨?_, ?_, ?_⟩
  · exact hcat 0 1 ⟨rfl, by decide⟩ (Or.inl (by decide)) (by decide)
  · exact hcpy 6 (Or.inr (by decide))
  · exact (hdup fun _ => 8).2 (by decide) (Or.inr (by decide))

end Xen.Strings
