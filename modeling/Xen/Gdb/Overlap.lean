import Xen.Gdb.Copy

/-!
# Copying downwards for the debugger (`gdbstub_verified.c`)

- `gdbArchCopyFromUser` and `gdbArchCopyToUser` are `gdb_arch_copy_from_user` and `gdb_arch_copy_to_user`. Neither
  function that they call returns a value, and only the memory is looked at.
- The last elements are copied first. Where the target lies below the source and reaches it, elements are overwritten
  before they are read: `copyInts_repeated` says what is left, for any distance of at least one element.
- `copy_user_below`: both functions repeat the end of the source, and copy it exactly if the distance is a period of it.
-/

namespace Xen.Gdb

open Lib

/-- `gdb_arch_copy_from_user`. -/
def gdbArchCopyFromUser (mem : Bytes) (dest src len : Nat) : Bytes := copyFromUser mem dest src len

/-- `gdb_arch_copy_to_user`. -/
def gdbArchCopyToUser (mem : Bytes) (dest src len : Nat) : Bytes := copyToUser mem dest src len

/-- **The recursion** with the source `d` bytes above: the last element is in its place, and the others are taken from a
memory where it is. -/
theorem copyInts_repeated {mem : Bytes} {dest d len : Nat} (h : intSize ≤ d) :
    Repeated mem (copyInts dest (dest + d) len mem) dest d (intSize * len) := by
  have hpos : 0 < d := Nat.lt_of_lt_of_le (by decide) h
  induction len generalizing mem with
  | zero => exact Repeated.nil mem dest d
  | succ len ih =>
    have hstep : Copied mem (setInt mem dest len (intAt mem (dest + d) len)) (dest + intSize * len)
        (dest + d + intSize * len) intSize := copied_word mem _ _ _
    rw [Nat.mul_succ]
    exact Repeated.last hpos h hstep ih

/-- **Both functions**, with the source `d` bytes above the target: they repeat the last `d` bytes of the source, and
that is the copy exactly if the source has period `d`. -/
theorem copy_user_below (mem : Bytes) (dest d len : Nat) (h : intSize ≤ d) :
    Repeated mem (gdbArchCopyFromUser mem dest (dest + d) len) dest d (intSize * len) ∧
    Repeated mem (gdbArchCopyToUser mem dest (dest + d) len) dest d (intSize * len) ∧
    (Copied mem (gdbArchCopyFromUser mem dest (dest + d) len) dest (dest + d) (intSize * len) ↔
      ∀ i, i + d < intSize * len → mem (dest + d + i) = mem (dest + d + (i + d))) ∧
    (Copied mem (gdbArchCopyToUser mem dest (dest + d) len) dest (dest + d) (intSize * len) ↔
      ∀ i, i + d < intSize * len → mem (dest + d + i) = mem (dest + d + (i + d))) := by
  have hrepeated : Repeated mem (copyInts dest (dest + d) len mem) dest d (intSize * len) := copyInts_repeated h
  have hpos : 0 < d := Nat.lt_of_lt_of_le (by decide) h
  exact ⟨hrepeated, hrepeated, hrepeated.copied_iff hpos, hrepeated.copied_iff hpos⟩

/-- Three elements, five bytes down. -/
theorem copy_user_below_five :
    Repeated (fun i => UInt8.ofNat i) (gdbArchCopyFromUser (fun i => UInt8.ofNat i) 0 (0 + 5) 3) 0 5 (intSize * 3) ∧
    Repeated (fun i => UInt8.ofNat i) (gdbArchCopyToUser (fun i => UInt8.ofNat i) 0 (0 + 5) 3) 0 5 (intSize * 3) ∧
    (Copied (fun i => UInt8.ofNat i) (gdbArchCopyFromUser (fun i => UInt8.ofNat i) 0 (0 + 5) 3) 0 (0 + 5)
        (intSize * 3) ↔ ∀ i, i + 5 < intSize * 3 → UInt8.ofNat (0 + 5 + i) = UInt8.ofNat (0 + 5 + (i + 5))) ∧
    (Copied (fun i => UInt8.ofNat i) (gdbArchCopyToUser (fun i => UInt8.ofNat i) 0 (0 + 5) 3) 0 (0 + 5)
        (intSize * 3) ↔ ∀ i, i + 5 < intSize * 3 → UInt8.ofNat (0 + 5 + i) = UInt8.ofNat (0 + 5 + (i + 5))) :=
  copy_user_below (fun i => UInt8.ofNat i) 0 5 3 (by decide)

end Xen.Gdb
