import Xen.Lib.Memory

/-!
# The stack of a new thread (`sched_verified.c`)

- The memory is one object that starts at address 0; `struct thread` and the stack lie in it. `ulong` and `setUlong`
  access the `unsigned long` (of 8 bytes) at an address, `Thread` has the addresses of the structure's members.
- `stackPush` is `stack_push` and `archCreateThread` is `arch_create_thread`; what `alloc_pages` returns is a parameter.
- `Holds` describes a stack with some words on it, which a push extends (`Holds.push`). `initialStack` is what
  `arch_create_thread` makes of the memory, if the stack does not overlap the structure.
-/

namespace Xen.Sched

open Lib

/-! ## Memory -/

/-- The `unsigned long` at an address. -/
def ulong (m : Bytes) (a : Nat) : BitVec 64 := BitVec.ofNat 64 (leWord m a 8)

/-- Assign to the `unsigned long` at an address. -/
def setUlong (m : Bytes) (a : Nat) (v : BitVec 64) : Bytes := storeWord m a 8 v.toNat

theorem ulong_self (m : Bytes) (a : Nat) (v : BitVec 64) : ulong (setUlong m a v) a = v := by
  have hlt : v.toNat < 256 ^ 8 := by
    have := v.isLt
    omega
  rw [ulong, setUlong, leWord_storeWord_self, Nat.mod_eq_of_lt hlt, BitVec.ofNat_toNat, BitVec.setWidth_eq]

theorem ulong_apart (m : Bytes) (v : BitVec 64) {a a' : Nat} (h : a' + 8 ≤ a ∨ a + 8 ≤ a') :
    ulong (setUlong m a v) a' = ulong m a' := by
  rw [ulong, setUlong, leWord_storeWord_apart _ _ h, ulong]

theorem setUlong_apart (m : Bytes) (v : BitVec 64) {a j : Nat} (h : j < a ∨ a + 8 ≤ j) : setUlong m a v j = m j :=
  storeWord_outside _ _ h

/-! ## The functions -/

namespace Thread

/-! Offsets in `struct thread`. -/

def name : Nat := 0

def stack : Nat := 8

def sp : Nat := 16

def ip : Nat := 24

/-- The size, with `flags` and `wakeup_time`. -/
def size : Nat := 48

end Thread

/-- `STACK_SIZE`. -/
def stackSize : BitVec 64 := (1#64 <<< 12) * (1#64 <<< 4)

/-- `stack_push`. -/
def stackPush (m : Bytes) (thread value : BitVec 64) : Bytes :=
  let m := setUlong m (thread.toNat + Thread.sp) (ulong m (thread.toNat + Thread.sp) - 8)
  setUlong m (ulong m (thread.toNat + Thread.sp)).toNat value

/-- `arch_create_thread`, where `alloc_pages` returns `pages`; `threadStarter` is the address of that function. -/
def archCreateThread (m : Bytes) (name function data thread pages threadStarter : BitVec 64) : BitVec 64 × Bytes :=
  let t := thread.toNat
  let m := setUlong m (t + Thread.stack) pages
  let m := setUlong m (t + Thread.name) name
  let m := setUlong m (t + Thread.sp) (ulong m (t + Thread.stack) + stackSize)
  let m := setUlong m (ulong m (t + Thread.stack)).toNat thread
  let m := setUlong m (t + Thread.sp) (ulong m (t + Thread.sp) - 8)
  let m := stackPush m thread function
  let m := stackPush m thread data
  let m := setUlong m (t + Thread.ip) threadStarter
  (thread, m)

/-! ## The initial stack -/

/-- The stack does not wrap and does not overlap the thread structure. -/
structure Separate (base thread : BitVec 64) : Prop where
  fits : base.toNat + 65536 ≤ 2 ^ 64
  apart : thread.toNat + Thread.size ≤ base.toNat ∨ base.toNat + 65536 ≤ thread.toNat

/-- The stack is also page-aligned and not at 0. -/
structure Placed (base thread : BitVec 64) : Prop extends Separate base thread where
  aligned : base.toNat % 4096 = 0
  nonzero : base ≠ 0

/-- **The initial stack** at `base`, where the memory was `m`: `sp + 8` is a multiple of 16, `data` and `function` lie
at `sp` and the thread at the base, and the other bytes are what they were. -/
structure InitialStack (m m' : Bytes) (base thread function data : BitVec 64) : Prop where
  inside : base.toNat + 8 ≤ (ulong m' (thread.toNat + Thread.sp)).toNat ∧
    (ulong m' (thread.toNat + Thread.sp)).toNat + 16 ≤ base.toNat + 65536
  aligned : ((ulong m' (thread.toNat + Thread.sp)).toNat + 8) % 16 = 0
  data : ulong m' (ulong m' (thread.toNat + Thread.sp)).toNat = data
  function : ulong m' ((ulong m' (thread.toNat + Thread.sp)).toNat + 8) = function
  bottom : ulong m' base.toNat = thread
  others : ∀ j, base.toNat + 8 ≤ j → j < base.toNat + 65536 →
    j < (ulong m' (thread.toNat + Thread.sp)).toNat ∨ (ulong m' (thread.toNat + Thread.sp)).toNat + 16 ≤ j → m' j = m j

/-! ## Words on the stack -/

/-- The words from an address on. -/
def Words (m : Bytes) : (a : Nat) → List (BitVec 64) → Prop
  | _, [] => True
  | a, w :: ws => ulong m a = w ∧ Words m (a + 8) ws

/-- **The stack with the words `ws`**, the latest first. Behind them is the reserved slot, and the bytes that hold
neither a word nor the thread are what they were. -/
structure Holds (m₀ m : Bytes) (base thread : BitVec 64) (ws : List (BitVec 64)) : Prop where
  room : 8 * ws.length + 8 ≤ 65528
  sp : (ulong m (thread.toNat + Thread.sp)).toNat + 8 * ws.length = base.toNat + 65528
  words : Words m (base.toNat + 65528 - 8 * ws.length) ws
  bottom : ulong m base.toNat = thread
  others : ∀ j, base.toNat + 8 ≤ j → j < base.toNat + 65536 →
    j < base.toNat + 65528 - 8 * ws.length ∨ base.toNat + 65528 ≤ j → m j = m₀ j

section Stack

variable {m₀ m m' : Bytes} {base thread : BitVec 64} {ws : List (BitVec 64)}

theorem ulong_congr {a : Nat} (h : ∀ j, a ≤ j → j < a + 8 → m' j = m j) : ulong m' a = ulong m a := by
  rw [ulong, ulong, leWord_congr fun n hn => h (a + n) (by omega) (by omega)]

theorem Words.congr : ∀ {a : Nat} {ws : List (BitVec 64)}, Words m a ws →
    (∀ j, a ≤ j → j < a + 8 * ws.length → m' j = m j) → Words m' a ws
  | _, [], _, _ => trivial
  | a, w :: ws, ⟨hw, hws⟩, h => by
    rw [List.length_cons] at h
    exact ⟨(ulong_congr fun j h1 h2 => h j h1 (by omega)).trans hw, hws.congr fun j h1 h2 => h j (by omega) (by omega)⟩

/-- A member of the structure that is not `sp`. -/
theorem Holds.setMember (hp : Separate base thread) (h : Holds m₀ m base thread ws) {off : Nat} (v : BitVec 64)
    (hoff : off + 8 ≤ Thread.sp ∨ Thread.sp + 8 ≤ off) (hsize : off + 8 ≤ Thread.size) :
    Holds m₀ (setUlong m (thread.toNat + off) v) base thread ws := by
  have hroom := h.room
  have hapart := hp.apart
  have hstack : ∀ j, base.toNat ≤ j → j < base.toNat + 65536 → setUlong m (thread.toNat + off) v j = m j :=
    fun j h1 h2 => setUlong_apart m v (by omega)
  constructor
  · exact h.room
  · rw [ulong_apart m v (by omega), h.sp]
  · exact h.words.congr fun j h1 h2 => hstack j (by omega) (by omega)
  · rw [ulong_congr fun j h1 h2 => hstack j (by omega) (by omega), h.bottom]
  · intro j h1 h2 h3
    rw [hstack j (by omega) h2, h.others j h1 h2 h3]

/-- A push writes to `sp` and to the word below the old stack pointer. -/
theorem stackPush_eq (m : Bytes) (thread value : BitVec 64) : stackPush m thread value =
    setUlong (setUlong m (thread.toNat + Thread.sp) (ulong m (thread.toNat + Thread.sp) - 8))
      (ulong m (thread.toNat + Thread.sp) - 8).toNat value := by
  rw [stackPush, ulong_self]

/-- **One push.** -/
theorem Holds.push (hp : Separate base thread) (h : Holds m₀ m base thread ws) (value : BitVec 64)
    (hroom : 8 * (value :: ws).length + 8 ≤ 65528) : Holds m₀ (stackPush m thread value) base thread (value :: ws) := by
  have hsp := h.sp
  have hfits := hp.fits
  have hapart := hp.apart
  have hoff : Thread.sp + 8 ≤ Thread.size := by decide
  rw [List.length_cons] at hroom
  rw [stackPush_eq]
  generalize ulong m (thread.toNat + Thread.sp) = sp at hsp
  have htop : (sp - 8).toNat = base.toNat + 65528 - 8 * (ws.length + 1) := by
    have hle : 8 ≤ sp := by
      rw [BitVec.le_def]
      show 8 ≤ sp.toNat
      omega
    rw [BitVec.toNat_sub_of_le hle]
    show sp.toNat - 8 = _
    omega
  -- the stack changes in one word
  have hstack : ∀ j, base.toNat ≤ j → j < base.toNat + 65536 → j < (sp - 8).toNat ∨ (sp - 8).toNat + 8 ≤ j →
      setUlong (setUlong m (thread.toNat + Thread.sp) (sp - 8)) (sp - 8).toNat value j = m j := by
    intro j h1 h2 h3
    rw [setUlong_apart _ _ h3, setUlong_apart _ _ (by omega)]
  constructor
  · exact hroom
  · rw [ulong_apart _ _ (by omega), ulong_self, htop, List.length_cons]
    omega
  · have hnext : (sp - 8).toNat + 8 = base.toNat + 65528 - 8 * ws.length := by omega
    rw [List.length_cons, ← htop]
    refine ⟨ulong_self _ _ _, ?_⟩
    rw [hnext]
    exact h.words.congr fun j h1 h2 => hstack j (by omega) (by omega) (by omega)
  · rw [ulong_congr fun j h1 h2 => hstack j (by omega) (by omega) (by omega), h.bottom]
  · intro j h1 h2 h3
    rw [List.length_cons] at h3
    rw [hstack j (by omega) h2 (by omega), h.others j h1 h2 (by omega)]

/-! ## A new thread -/

/-- The memory before the pushes, where the loads in between are known. -/
def opened (m : Bytes) (name thread pages : BitVec 64) : Bytes :=
  let m := setUlong (setUlong m (thread.toNat + Thread.stack) pages) (thread.toNat + Thread.name) name
  let m := setUlong (setUlong m (thread.toNat + Thread.sp) (pages + stackSize)) pages.toNat thread
  setUlong m (thread.toNat + Thread.sp) (pages + stackSize - 8)

/-- `arch_create_thread` sets the stack up and pushes twice. -/
theorem archCreateThread_eq (hp : Separate base thread) (m : Bytes) (name function data threadStarter : BitVec 64) :
    archCreateThread m name function data thread base threadStarter =
      (thread, setUlong (stackPush (stackPush (opened m name thread base) thread function) thread data)
        (thread.toNat + Thread.ip) threadStarter) := by
  have hapart := hp.apart
  have hsize : Thread.sp + 8 ≤ Thread.size := by decide
  have hname : Thread.name + 8 ≤ Thread.stack := by decide
  have hstack : Thread.stack + 8 ≤ Thread.sp := by decide
  simp (disch := omega) only [archCreateThread, opened, ulong_self, ulong_apart]

/-- The stack is empty at first. -/
theorem holds_opened (hp : Separate base thread) (m : Bytes) (name : BitVec 64) :
    Holds m (opened m name thread base) base thread [] := by
  have hfits := hp.fits
  have hapart := hp.apart
  have hoff : Thread.stack + 8 ≤ Thread.size ∧ Thread.name + 8 ≤ Thread.size ∧ Thread.sp + 8 ≤ Thread.size := by decide
  have hsp : (base + stackSize - 8).toNat = base.toNat + 65528 := by
    have hsize : stackSize.toNat = 65536 := by decide
    rw [BitVec.toNat_sub, BitVec.toNat_add, hsize]
    show (2 ^ 64 - 8 + (base.toNat + 65536) % 2 ^ 64) % 2 ^ 64 = _
    omega
  constructor
  · decide
  · rw [opened, ulong_self, hsp]
    rfl
  · trivial
  · rw [opened, ulong_apart _ _ (by omega), ulong_self]
  · intro j h1 h2 _
    simp (disch := omega) only [opened, setUlong_apart]

/-- **The initial stack** of a new thread, which is returned. -/
theorem initialStack (hp : Placed base thread) (m : Bytes) (name function data threadStarter : BitVec 64) :
    (archCreateThread m name function data thread base threadStarter).1 = thread ∧
      InitialStack m (archCreateThread m name function data thread base threadStarter).2 base thread function data := by
  have hip : Thread.sp + 8 ≤ Thread.ip ∧ Thread.ip + 8 ≤ Thread.size := by decide
  have hsep := hp.toSeparate
  have hholds := (((holds_opened hsep m name).push hsep function (by simp)).push hsep data (by simp)).setMember hsep
    threadStarter (Or.inr hip.1) hip.2
  rw [archCreateThread_eq hsep]
  refine ⟨rfl, ?_⟩
  generalize setUlong _ (thread.toNat + Thread.ip) threadStarter = m' at hholds ⊢
  show InitialStack m m' base thread function data
  obtain ⟨-, hsp, ⟨hdata, hfunction, -⟩, hbottom, hothers⟩ := hholds
  have haligned := hp.aligned
  have htop : base.toNat + 65528 - 8 * [data, function].length =
      (ulong m' (thread.toNat + Thread.sp)).toNat := Nat.sub_eq_of_eq_add hsp.symm
  have hlen : [data, function].length = 2 := rfl
  rw [htop] at hdata hfunction hothers
  rw [hlen] at hsp
  constructor
  · omega
  · omega
  · exact hdata
  · exact hfunction
  · exact hbottom
  · intro j h1 h2 h3
    refine hothers j h1 h2 ?_
    omega

end Stack

/-- A stack right behind the structure's page. -/
theorem initialStack_low : (archCreateThread (fun _ => 0) 1 2 3 0x1000 0x2000 4).1 = 0x1000 ∧
    InitialStack (fun _ => 0) (archCreateThread (fun _ => 0) 1 2 3 0x1000 0x2000 4).2 0x2000 0x1000 2 3 :=
  initialStack ⟨⟨by decide, by decide⟩, by decide, by decide⟩ (fun _ => 0) 1 2 3 4

end Xen.Sched
