import Mathlib.Data.Nat.Size
import Mathlib.Order.Bounds.Defs
import Xen.Percpu.Areas
import Xen.Strings.Copy

/-!
# What an allocated per-CPU area contains and where it is (`percpu_verified.c`)

- `orderOfWidth` is `get_order_from_bytes` for a word of any size; it finds the least order whose allocation is large
  enough (`orderOfWidth_least`).
- `initPercpuAreaMem` is `init_percpu_area` with the memory in which it clears the new area.
- It clears as many bytes as the order of the allocation says (`percpuOrder`), which is the number of a power of two and
  less than the size (`percpuOrder_lt`). `cleared_iff`: the area is clear if the bytes from there on were so before.
- The offset of an area and the marker for none are both cut to 32 bits, so that they can be the same. `offset_iff`: an
  allocated area is found, and freed, exactly if its address is not a multiple of `2 ^ 32`.

`ulong` is `sizeof(unsigned long)`, which is 4 or 8.
-/

namespace Xen.Percpu

open Lib

/-! ## The order of the allocation -/

/-- The loop of `get_order_from_bytes`. -/
def orderLoop (size order : Nat) : Nat :=
  if size ≠ 0 then orderLoop (size >>> 1) ((order + 1) % 2 ^ 32) else order
termination_by size
decreasing_by
  rw [Nat.shiftRight_one]
  omega

/-- `get_order_from_bytes` for an `unsigned long` of `w` bits. -/
def orderOfWidth (w size : Nat) : Nat := orderLoop (((size + 2 ^ w - 1) % 2 ^ w) >>> 12) 0

/-- `get_order_from_bytes`. -/
def getOrderFromBytes (ulong size : Nat) : Nat :=
  orderLoop (((size + 2 ^ (8 * ulong) - 1) % 2 ^ (8 * ulong)) >>> 12) 0

/-- `PERCPU_ORDER`: the addresses are converted to `unsigned` before they are subtracted. -/
def percpuOrder (ulong start dataEnd : Nat) : Nat :=
  getOrderFromBytes ulong ((dataEnd % 2 ^ 32 + 2 ^ 32 - start % 2 ^ 32) % 2 ^ 32)

/-- The order is at most the number whose bits it counts. -/
theorem orderLoop_le (size order : Nat) : orderLoop size order ≤ order + size := by
  induction size, order using orderLoop.induct with
  | case1 size order h ih =>
    rw [orderLoop, if_pos h]
    rw [Nat.shiftRight_one] at ih ⊢
    have := Nat.mod_le (order + 1) (2 ^ 32)
    omega
  | case2 size order h =>
    rw [orderLoop, if_neg h]
    omega

/-- `size - 1` does not wrap. -/
theorem minusOne_mod {w size : Nat} (hpos : 1 ≤ size) (h : size < 2 ^ w) : (size + 2 ^ w - 1) % 2 ^ w = size - 1 := by
  have hcarry : size + 2 ^ w - 1 = size - 1 + 2 ^ w := by omega
  rw [hcarry, Nat.add_mod_right]
  exact Nat.mod_eq_of_lt (by omega)

/-- **The order is less than the size** of a section that is not empty. -/
theorem percpuOrder_lt {ulong start dataEnd : Nat} (h : start < dataEnd) (hsize : dataEnd - start < 2 ^ 32)
    (hulong : 4 ≤ ulong) : percpuOrder ulong start dataEnd < dataEnd - start := by
  have hpow : 2 ^ 32 ≤ 2 ^ (8 * ulong) := Nat.pow_le_pow_right (by decide) (by omega)
  have hword : (dataEnd % 2 ^ 32 + 2 ^ 32 - start % 2 ^ 32) % 2 ^ 32 = dataEnd - start := by omega
  have hminus : (dataEnd - start + 2 ^ (8 * ulong) - 1) % 2 ^ (8 * ulong) = dataEnd - start - 1 :=
    minusOne_mod (by omega) (Nat.lt_of_lt_of_le hsize hpow)
  have hle := orderLoop_le ((dataEnd - start - 1) >>> 12) 0
  rw [percpuOrder, hword, getOrderFromBytes, hminus]
  rw [Nat.shiftRight_eq_div_pow] at hle ⊢
  have := Nat.div_le_self (dataEnd - start - 1) (2 ^ 12)
  omega

/-! ### The least order -/

/-- A number that is not 0 has one bit more than its half. -/
theorem size_half {n : Nat} (h : n ≠ 0) : n.size = (n / 2).size + 1 := by
  have hbit : Nat.bit n.bodd n.div2 = n := Nat.bit_bodd_div2 n
  have hsize := Nat.size_bit (hbit.symm ▸ h)
  rwa [hbit, Nat.div2_val] at hsize

/-- **The loop** counts the bits, in an `unsigned int`. -/
theorem orderLoop_eq (size order : Nat) (h32 : order < 2 ^ 32) :
    orderLoop size order = (order + size.size) % 2 ^ 32 := by
  induction size, order using orderLoop.induct with
  | case1 size order h ih =>
    rw [orderLoop, if_pos h, ih (Nat.mod_lt _ (by omega)), Nat.shiftRight_one, size_half h, Nat.mod_add_mod,
      Nat.add_assoc, Nat.add_comm 1]
  | case2 size order h =>
    rw [orderLoop, if_neg h, not_not.mp h, Nat.size_zero, Nat.add_zero, Nat.mod_eq_of_lt h32]

/-- The bits that are left after a page's are shifted out. -/
theorem size_le_iff {size : Nat} (hpos : 1 ≤ size) (k : Nat) : ((size - 1) >>> 12).size ≤ k ↔ size ≤ 2 ^ (k + 12) := by
  rw [Nat.size_le, Nat.shiftRight_eq_div_pow, Nat.div_lt_iff_lt_mul (Nat.two_pow_pos 12), ← Nat.pow_add]
  omega

/-- The orders of which an allocation is large enough. -/
def Sufficient (size : Nat) : Set Nat := {order | size ≤ 2 ^ (order + 12)}

/-- **The result is the least sufficient order**, as an `unsigned int`. That holds the order of every size, unless a
word has more than `2 ^ 32` bits. -/
structure OrderLeast (w size : Nat) : Prop where
  wrapped : ∃ order ≤ w - 12, IsLeast (Sufficient size) order ∧ orderOfWidth w size = order % 2 ^ 32
  least : w < 2 ^ 32 + 12 → IsLeast (Sufficient size) (orderOfWidth w size)

theorem orderOfWidth_least (w size : Nat) (hw : 12 < w) (hpos : 1 ≤ size) (h : size < 2 ^ w) : OrderLeast w size := by
  have hresult : orderOfWidth w size = ((size - 1) >>> 12).size % 2 ^ 32 := by
    rw [orderOfWidth, minusOne_mod hpos h, orderLoop_eq _ 0 (by omega), Nat.zero_add]
  have hleast : IsLeast (Sufficient size) ((size - 1) >>> 12).size :=
    ⟨(size_le_iff hpos _).mp (Nat.le_refl _), fun k hk => (size_le_iff hpos k).mpr hk⟩
  have hle : ((size - 1) >>> 12).size ≤ w - 12 := by
    rw [size_le_iff hpos, Nat.sub_add_cancel (Nat.le_of_lt hw)]
    exact Nat.le_of_lt h
  refine ⟨⟨_, hle, hleast, hresult⟩, fun hw32 => ?_⟩
  rwa [hresult, Nat.mod_eq_of_lt (by omega)]

/-- One byte more than a page. -/
theorem orderOfWidth_least_page : OrderLeast 64 4097 := orderOfWidth_least 64 4097 (by omega) (by omega) (by omega)

/-! ## Clearing -/

section Clearing

variable {n : Nat}

/-- `init_percpu_area` on the areas and the memory. -/
def initPercpuAreaMem (ulong start dataEnd : Nat) (s : State n) (mem : Bytes) (cpu : Fin n) (p : Nat) :
    Int × State n × Bytes :=
  if s.perCpuOffset cpu ≠ invalidPercpuArea start then
    (0, s, mem)
  else
    let lim := percpuOrder ulong start dataEnd
    if p = 0 then
      (-1, s, mem)
    else
      (0, { s with
        perCpuOffset := Function.update s.perCpuOffset cpu ((p - start) % 2 ^ 32)
        live := insert p s.live }, (Strings.memset mem p 0 lim).val.2)

/-- Without the memory it is `initPercpuArea`. -/
theorem initPercpuAreaMem_areas (ulong start dataEnd : Nat) (s : State n) (mem : Bytes) (cpu : Fin n) (p : Nat) :
    ((initPercpuAreaMem ulong start dataEnd s mem cpu p).1, (initPercpuAreaMem ulong start dataEnd s mem cpu p).2.1) =
      initPercpuArea start s cpu p := by
  unfold initPercpuAreaMem initPercpuArea
  split
  · rfl
  · split <;> rfl

/-- All bytes of the area at `p` are 0. -/
def Cleared (start dataEnd p : Nat) (mem : Bytes) : Prop := ∀ i < dataEnd - start, mem (p + i) = 0

/-- **A new area is clear** exactly if it was so from the order of its allocation on. -/
theorem cleared_iff (ulong start dataEnd : Nat) (s : State n) (mem : Bytes) (cpu : Fin n) (p : Nat)
    (h : s.perCpuOffset cpu = invalidPercpuArea start) (hp : p ≠ 0) :
    ((initPercpuAreaMem ulong start dataEnd s mem cpu p).1 = 0 ∧
      Cleared start dataEnd p (initPercpuAreaMem ulong start dataEnd s mem cpu p).2.2) ↔
    ∀ i, percpuOrder ulong start dataEnd ≤ i → i < dataEnd - start → mem (p + i) = 0 := by
  have hinit : initPercpuAreaMem ulong start dataEnd s mem cpu p = (0, { s with
      perCpuOffset := Function.update s.perCpuOffset cpu ((p - start) % 2 ^ 32)
      live := insert p s.live }, (Strings.memset mem p 0 (percpuOrder ulong start dataEnd)).val.2) := by
    rw [initPercpuAreaMem, if_neg (not_not_intro h)]
    exact if_neg hp
  rw [hinit, Strings.memset_val]
  constructor
  · rintro ⟨-, hclear⟩ i hlim hi
    have hbyte := hclear i hi
    simp only at hbyte
    rwa [if_neg (by omega)] at hbyte
  · intro hrest
    refine ⟨rfl, fun i hi => ?_⟩
    by_cases hlim : i < percpuOrder ulong start dataEnd
    · exact if_pos (by omega)
    · exact (if_neg (by omega)).trans (hrest i (Nat.le_of_not_lt hlim) hi)

end Clearing

/-- CPU 0 without an area. -/
def noArea (start : Nat) : State 1 := ⟨fun _ => invalidPercpuArea start, 0, 0, ∅, false⟩

/-- A block that was clear before. -/
theorem cleared_blank : (initPercpuAreaMem 8 4096 4196 (noArea 4096) (fun _ => 0) 0 8192).1 = 0 ∧
    Cleared 4096 4196 8192 (initPercpuAreaMem 8 4096 4196 (noArea 4096) (fun _ => 0) 0 8192).2.2 :=
  (cleared_iff 8 4096 4196 (noArea 4096) (fun _ => 0) 0 8192 rfl (by decide)).mpr fun _ _ _ => rfl

/-- A section of one byte, for which no byte is cleared. -/
theorem cleared_counterexample : ¬ ∀ (n ulong start dataEnd : Nat) (s : State n) (mem : Bytes) (cpu : Fin n) (p : Nat),
    s.perCpuOffset cpu = invalidPercpuArea start → p ≠ 0 →
      (initPercpuAreaMem ulong start dataEnd s mem cpu p).1 = 0 ∧
        Cleared start dataEnd p (initPercpuAreaMem ulong start dataEnd s mem cpu p).2.2 := by
  intro h
  have hclear := (h 1 8 4096 4097 (noArea 4096) (fun _ => 1) 0 8192 rfl (by decide)).2 0 (by decide)
  have horder : percpuOrder 8 4096 4097 = 0 :=
    Nat.lt_one_iff.mp (percpuOrder_lt (by decide) (by decide) (by decide))
  have hval : (Strings.memset (fun _ => 1) 8192 0 (percpuOrder 8 4096 4097)).val.2 (8192 + 0) = 0 := hclear
  rw [horder] at hval
  exact absurd hval (by decide)

/-! ## Offsets -/

section Offsets

variable {n : Nat}

/-- **An area that has been allocated** for a CPU is seen by the next `init_percpu_area`, which allocates nothing, and
freed by `_free_percpu_area`, after which the CPU has none. -/
structure OffsetOk (start : Nat) (s : State n) (cpu : Fin n) (p : Nat) : Prop where
  present : ∀ q, initPercpuArea start (initPercpuArea start s cpu p).2 cpu q = (0, (initPercpuArea start s cpu p).2)
  freed : freedArea start (freePercpuArea (initPercpuArea start s cpu p).2 cpu) = p
  marked : (freePercpuAreaRcu start (freePercpuArea (initPercpuArea start s cpu p).2 cpu)).perCpuOffset cpu =
    invalidPercpuArea start

/-- An offset is the marker exactly if the area is at a multiple of `2 ^ 32`. -/
theorem offset_eq_invalid {start p : Nat} (hstart : start < 2 ^ 64) (h : start < p) :
    (p - start) % 2 ^ 32 = invalidPercpuArea start ↔ p % 2 ^ 32 = 0 := by
  unfold invalidPercpuArea
  omega

/-- **The offset of an area** works for every base and every block above it, exactly if the block is not at a multiple
of `2 ^ 32`. -/
theorem offset_iff (start : Nat) (s : State n) (cpu : Fin n) (p : Nat) (hstart : start < 2 ^ 64)
    (hs : s.perCpuOffset cpu = invalidPercpuArea start) (h : start < p) (hmax : p - start < 2 ^ 31 - 1) :
    OffsetOk start s cpu p ↔ p % 2 ^ 32 ≠ 0 := by
  have hp : p ≠ 0 := by omega
  have hinit : initPercpuArea start s cpu p = (0, { s with
      perCpuOffset := Function.update s.perCpuOffset cpu ((p - start) % 2 ^ 32)
      live := insert p s.live }) := by
    rw [initPercpuArea, if_neg (not_not_intro hs), if_neg hp]
  have hoffset : (initPercpuArea start s cpu p).2.perCpuOffset cpu = (p - start) % 2 ^ 32 := by
    rw [hinit]
    exact Function.update_self ..
  rw [Ne, ← offset_eq_invalid hstart h, ← hoffset]
  constructor
  · intro hok hinvalid
    -- the second call fails if there is no memory left
    have hpresent := hok.present 0
    rw [initPercpuArea, if_neg (not_not_intro hinvalid), if_pos rfl] at hpresent
    have hret : (-1 : Int) = 0 := congrArg Prod.fst hpresent
    exact absurd hret (by decide)
  · intro hvalid
    refine ⟨fun q => if_pos hvalid, ?_, Function.update_self ..⟩
    show start + (initPercpuArea start s cpu p).2.perCpuOffset cpu = p
    rw [hoffset]
    omega

end Offsets

theorem offset_next : OffsetOk 4096 (noArea 4096) 0 8192 :=
  (offset_iff 4096 (noArea 4096) 0 8192 (by decide) rfl (by decide) (by decide)).mpr (by decide)

/-- A page behind `__per_cpu_start`, at `2 ^ 32`. -/
theorem offset_counterexample : ¬ ∀ (n start : Nat) (s : State n) (cpu : Fin n) (p : Nat), start < 2 ^ 64 →
    s.perCpuOffset cpu = invalidPercpuArea start → start < p → p - start < 2 ^ 31 - 1 → OffsetOk start s cpu p := by
  intro h
  have hok := h 1 0xfffff000 (noArea 0xfffff000) 0 0x100000000 (by decide) rfl (by decide) (by decide)
  have hret := congrArg Prod.fst (hok.present 0)
  exact absurd hret (by decide)

end Xen.Percpu
