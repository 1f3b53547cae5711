import Xen.Lib.Copy

/-!
# Copying for the debugger (`gdbstub_verified.c`)

- `__copy_from_user` and `__copy_to_user` copy the last `int` and call themselves for the others: both are `copyInts`.
  The recursion is on `len`, so it ends; neither function has a return statement, and only the memory is looked at.
- `copy_user_ok`: the target has the old elements of the source and nothing else has changed, also where the arrays
  overlap, as long as the target is not the lower one. Memory is bytes, and the arrays may be any distance apart.
-/

namespace Xen.Gdb

open Lib

/-! ## The functions -/

/-- `sizeof(int)`. -/
def intSize : Nat := 4

/-- `a[i]` of an array of `int`s, as its 32 bits. -/
def intAt (mem : Bytes) (a i : Nat) : Nat := leWord mem (a + intSize * i) intSize

/-- `a[i] = v`. -/
def setInt (mem : Bytes) (a i v : Nat) : Bytes := storeWord mem (a + intSize * i) intSize v

/-- The memory after `len` elements have been copied, the last one first. -/
def copyInts (dest src : Nat) : (len : Nat) → (mem : Bytes) → Bytes
  | 0, mem => mem
  | len + 1, mem => copyInts dest src len (setInt mem dest len (intAt mem src len))

/-- `__copy_from_user`. -/
def copyFromUser (mem : Bytes) (dest src len : Nat) : Bytes := copyInts dest src len mem

/-- `__copy_to_user`. -/
def copyToUser (mem : Bytes) (dest src len : Nat) : Bytes := copyInts dest src len mem

/-! ## What they copy -/

/-- **The copy** of an array of `len` elements: those of the source as they were, and nothing else has changed. -/
structure IntsCopied (mem mem' : Bytes) (dest src len : Nat) : Prop where
  elements : ∀ i < len, intAt mem' dest i = intAt mem src i
  frame : ∀ a, a < dest ∨ dest + intSize * len ≤ a → mem' a = mem a

section Copy

variable {mem mem' : Bytes} {dest src len : Nat}

/-- The elements of copied bytes. -/
theorem intsCopied_of_copied (h : Copied mem mem' dest src (intSize * len)) : IntsCopied mem mem' dest src len := by
  constructor
  · intro i hi
    apply h.leWord
    unfold intSize
    omega
  · exact h.frame

/-- **The recursion**: one element, and then the others in a memory where that one is in its place. -/
theorem copyInts_copied (h : src ≤ dest ∨ dest + intSize * len ≤ src) :
    Copied mem (copyInts dest src len mem) dest src (intSize * len) := by
  induction len generalizing mem with
  | zero => exact Copied.nil mem dest src
  | succ len ih =>
    have hstep : Copied mem (setInt mem dest len (intAt mem src len)) (dest + intSize * len) (src + intSize * len)
        intSize := copied_word mem _ _ _
    rw [Nat.mul_succ] at h ⊢
    -- the elements before the last one are also apart or not below the source
    exact Copied.last h hstep (ih (by omega))

end Copy

/-- **Both functions** copy the array, unless the target starts below the source and reaches it. -/
theorem copy_user_ok (mem : Bytes) (dest src len : Nat) (h : src ≤ dest ∨ dest + intSize * len ≤ src) :
    IntsCopied mem (copyFromUser mem dest src len) dest src len ∧
      IntsCopied mem (copyToUser mem dest src len) dest src len := by
  have hcopied : IntsCopied mem (copyInts dest src len mem) dest src len := intsCopied_of_copied (copyInts_copied h)
  exact ⟨hcopied, hcopied⟩

/-- Three elements, one byte further up. -/
theorem copy_user_ok_overlap :
    IntsCopied (fun i => UInt8.ofNat i) (copyFromUser (fun i => UInt8.ofNat i) 1 0 3) 1 0 3 ∧
      IntsCopied (fun i => UInt8.ofNat i) (copyToUser (fun i => UInt8.ofNat i) 1 0 3) 1 0 3 :=
  copy_user_ok (fun i => UInt8.ofNat i) 1 0 3 (by omega)

end Xen.Gdb
