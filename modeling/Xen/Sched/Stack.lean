import Xen.Sched.Thread
import Xen.Lib.Logged

/-!
# Pushing on a thread's stack (`sched_verified.c`)

- `pushes` are calls of `stack_push`, one for each value. `Holds.pushes` is the step `Holds.push` repeated, and
  `pushes_outside` says that only `sp` and the stack are written.
- `dumpStack` is `dump_stack`, with what it prints logged. Its pointer goes up by a word at most 25 times
  (`dumpLoop_toNat`).
- `thread_stackOk`: a new thread takes 8188 more words. They lie on its stack above `data` and the function, latest
  first, and the dump goes on exactly if there are more than 25 words. The next push overwrites the thread at the base
  of the stack, by which `current` finds it.
-/

namespace Xen.Sched

open Lib

/-! ## The functions -/

/-- Push the values, one after the other. -/
def pushes (m : Bytes) (thread : BitVec 64) (values : List (BitVec 64)) : Bytes :=
  values.foldl (fun m value => stackPush m thread value) m

/-- A message of `dump_stack`. -/
inductive Printed where
  | stackFor (name : BitVec 64)
  | continues
deriving DecidableEq, Repr

/-- The loop of `dump_stack`, with `n` words left to print; the message for a word is commented out. -/
def dumpLoop (bottom : BitVec 64) : (n : Nat) → (pointer : BitVec 64) → BitVec 64
  | 0, pointer => pointer
  | n + 1, pointer => if pointer < bottom then dumpLoop bottom n (pointer + 8) else pointer

/-- `dump_stack`. The local `current` is 0, and the branch for it does nothing. -/
def dumpStack (m : Bytes) (thread : BitVec 64) : Logged Printed Unit := do
  let bottom := ulong m (thread.toNat + Thread.stack) + stackSize
  let pointer := ulong m (thread.toNat + Thread.sp)
  Logged.emit (.stackFor (ulong m (thread.toNat + Thread.name)))
  let pointer := dumpLoop bottom 25 pointer
  if pointer < bottom then
    Logged.emit .continues

section Pushes

variable {m₀ m m' : Bytes} {base thread : BitVec 64} {ws : List (BitVec 64)}

/-! ## Runs of pushes -/

theorem pushes_nil (m : Bytes) (thread : BitVec 64) : pushes m thread [] = m := by simp only [pushes, List.foldl_nil]

theorem pushes_cons (m : Bytes) (thread value : BitVec 64) (values : List (BitVec 64)) :
    pushes m thread (value :: values) = pushes (stackPush m thread value) thread values := by
  simp only [pushes, List.foldl_cons]

/-- **A run of pushes** puts the values on the words that are there, the latest first. -/
theorem Holds.pushes (hp : Separate base thread) (h : Holds m₀ m base thread ws) (values : List (BitVec 64))
    (hroom : 8 * (values.length + ws.length) + 8 ≤ 65528) :
    Holds m₀ (pushes m thread values) base thread (values.reverse ++ ws) := by
  induction values generalizing m ws with
  | nil => exact h
  | cons value values ih =>
    rw [List.length_cons] at hroom
    have hone := h.push hp value (by rw [List.length_cons]; omega)
    have hrest := ih hone (by rw [List.length_cons]; omega)
    rw [pushes_cons, List.reverse_cons, List.append_assoc, List.singleton_append]
    exact hrest

/-- The stack pointer goes down by a word. -/
theorem toNat_sub_eight {sp : BitVec 64} (h : 8 ≤ sp.toNat) : (sp - 8).toNat = sp.toNat - 8 := by
  have hle : 8 ≤ sp := by
    rw [BitVec.le_def]
    exact h
  rw [BitVec.toNat_sub_of_le hle]
  rfl

/-- One push writes to `sp` and to the stack. -/
theorem Holds.push_outside (h : Holds m₀ m base thread ws) (value : BitVec 64)
    (hroom : 8 * (value :: ws).length + 8 ≤ 65528) {j : Nat} (hbase : j < base.toNat ∨ base.toNat + 65536 ≤ j)
    (hthread : j < thread.toNat + Thread.sp ∨ thread.toNat + Thread.sp + 8 ≤ j) :
    stackPush m thread value j = m j := by
  have hsp := h.sp
  rw [List.length_cons] at hroom
  rw [stackPush_eq]
  generalize ulong m (thread.toNat + Thread.sp) = sp at hsp
  have htop : (sp - 8).toNat = sp.toNat - 8 := toNat_sub_eight (by omega)
  rw [setUlong_apart _ _ (by omega), setUlong_apart _ _ hthread]

/-- **The frame of a run of pushes.** -/
theorem pushes_outside (hp : Separate base thread) (h : Holds m₀ m base thread ws) (values : List (BitVec 64))
    (hroom : 8 * (values.length + ws.length) + 8 ≤ 65528) {j : Nat} (hbase : j < base.toNat ∨ base.toNat + 65536 ≤ j)
    (hthread : j < thread.toNat + Thread.sp ∨ thread.toNat + Thread.sp + 8 ≤ j) : pushes m thread values j = m j := by
  induction values generalizing m ws with
  | nil => rfl
  | cons value values ih =>
    rw [List.length_cons] at hroom
    have hone : 8 * (value :: ws).length + 8 ≤ 65528 := by
      rw [List.length_cons]
      omega
    have hrest := ih (h.push hp value hone) (by rw [List.length_cons]; omega)
    rw [pushes_cons, hrest]
    exact h.push_outside value hone hbase hthread

/-- A member of the structure that is not `sp` is left by a run of pushes. -/
theorem pushes_member (hp : Separate base thread) (h : Holds m₀ m base thread ws) (values : List (BitVec 64))
    (hroom : 8 * (values.length + ws.length) + 8 ≤ 65528) {off : Nat}
    (hoff : off + 8 ≤ Thread.sp ∨ Thread.sp + 8 ≤ off) (hsize : off + 8 ≤ Thread.size) :
    ulong (pushes m thread values) (thread.toNat + off) = ulong m (thread.toNat + off) := by
  have hapart := hp.apart
  exact ulong_congr fun j h1 h2 => pushes_outside hp h values hroom (by omega) (by omega)

/-- **A push on a full stack** overwrites the thread at its base. -/
theorem Holds.push_full (h : Holds m₀ m base thread ws) (hfull : 8 * ws.length + 8 = 65528) (value : BitVec 64) :
    ulong (stackPush m thread value) base.toNat = value := by
  have hsp := h.sp
  rw [stackPush_eq]
  generalize ulong m (thread.toNat + Thread.sp) = sp at hsp
  have htop : (sp - 8).toNat = base.toNat := (toNat_sub_eight (by omega)).trans (by omega)
  rw [htop]
  exact ulong_self _ _ _

/-! ## The dump -/

/-- The pointer goes up to the bottom, or as far as the loop lets it. -/
theorem dumpLoop_toNat {bottom : BitVec 64} (n k : Nat) (pointer : BitVec 64)
    (h : pointer.toNat + 8 * k = bottom.toNat) : (dumpLoop bottom n pointer).toNat = pointer.toNat + 8 * min n k := by
  have hbottom := bottom.isLt
  induction n generalizing k pointer with
  | zero => rw [Nat.zero_min]; rfl
  | succ n ih =>
    rw [dumpLoop]
    cases k with
    | zero =>
      have hend : ¬pointer < bottom := by
        rw [BitVec.lt_def]
        omega
      rw [if_neg hend, Nat.min_zero]
      rfl
    | succ k =>
      have hmore : pointer < bottom := by
        rw [BitVec.lt_def]
        omega
      have hnext : (pointer + 8).toNat = pointer.toNat + 8 := by
        rw [BitVec.toNat_add]
        show (pointer.toNat + 8) % 2 ^ 64 = _
        omega
      rw [if_pos hmore, ih k (pointer + 8) (by omega), hnext]
      omega

/-- What is printed, from where the loop ends. -/
theorem dumpStack_eq (m : Bytes) (thread : BitVec 64) : (dumpStack m thread).log =
    .stackFor (ulong m (thread.toNat + Thread.name)) ::
      if dumpLoop (ulong m (thread.toNat + Thread.stack) + stackSize) 25 (ulong m (thread.toNat + Thread.sp)) <
        ulong m (thread.toNat + Thread.stack) + stackSize then [.continues] else [] := by
  simp only [dumpStack, Logged.log_bind, Logged.log_emit, Logged.log_ite, Logged.log_pure, List.singleton_append]

/-- **The dump of a stack.** It says that the stack continues if there are more than 25 words, the reserved slot among
them, unless the stack ends at the end of memory. -/
theorem dumpStack_log (hp : Separate base thread) (h : Holds m₀ m base thread ws)
    (hstack : ulong m (thread.toNat + Thread.stack) = base) : (dumpStack m thread).log =
      .stackFor (ulong m (thread.toNat + Thread.name)) ::
        if 25 < ws.length + 1 ∧ base.toNat + 65536 < 2 ^ 64 then [.continues] else [] := by
  have hsp := h.sp
  have hroom := h.room
  have hfits := hp.fits
  have hsize : stackSize.toNat = 65536 := by decide
  rw [dumpStack_eq, hstack]
  generalize ulong m (thread.toNat + Thread.sp) = sp at hsp
  refine congrArg (List.cons _) (if_congr ?_ rfl rfl)
  by_cases hwrap : base.toNat + 65536 < 2 ^ 64
  · have hbottom : (base + stackSize).toNat = base.toNat + 65536 := by
      rw [BitVec.toNat_add, hsize, Nat.mod_eq_of_lt hwrap]
    have hloop : (dumpLoop (base + stackSize) 25 sp).toNat = sp.toNat + 8 * min 25 (ws.length + 1) :=
      dumpLoop_toNat 25 (ws.length + 1) sp (by omega)
    rw [BitVec.lt_def, hloop, hbottom]
    omega
  · have hbottom : base + stackSize = 0 := by
      apply BitVec.eq_of_toNat_eq
      rw [BitVec.toNat_add, hsize]
      show (base.toNat + 65536) % 2 ^ 64 = 0
      omega
    rw [hbottom]
    exact iff_of_false BitVec.not_lt_zero fun hand => hwrap hand.2

end Pushes

/-! ## A thread's stack -/

/-- **What the stack owes** after `values` have been pushed on it, in the memory `m'`: the values and the two words of
the new thread are on it and the thread at its base, the structure is set up, and nothing else has changed. -/
structure StackOk (m m' : Bytes) (base thread name threadStarter function data : BitVec 64)
    (values : List (BitVec 64)) : Prop where
  sp : (ulong m' (thread.toNat + Thread.sp)).toNat + 8 * (values.length + 2) = base.toNat + 65528
  words : Words m' (ulong m' (thread.toNat + Thread.sp)).toNat (values.reverse ++ [data, function])
  current : ulong m' base.toNat = thread
  named : ulong m' (thread.toNat + Thread.name) = name
  based : ulong m' (thread.toNat + Thread.stack) = base
  starts : ulong m' (thread.toNat + Thread.ip) = threadStarter
  frame : ∀ j, (j < base.toNat ∨ base.toNat + 65536 ≤ j) →
    (j < thread.toNat ∨ thread.toNat + Thread.ip + 8 ≤ j) → m' j = m j
  unused : ∀ j, base.toNat + 8 ≤ j → j < base.toNat + 65536 →
    j < (ulong m' (thread.toNat + Thread.sp)).toNat ∨ base.toNat + 65528 ≤ j → m' j = m j
  dump : (dumpStack m' thread).log =
    .stackFor name :: if 22 < values.length ∧ base.toNat + 65536 < 2 ^ 64 then [.continues] else []
  full : values.length = 8188 → ∀ value, ulong (stackPush m' thread value) base.toNat = value

section NewThread

variable {base thread : BitVec 64}

/-- A new thread has two words on its stack. -/
theorem holds_created (hp : Separate base thread) (m : Bytes) (name function data threadStarter : BitVec 64) :
    Holds m (archCreateThread m name function data thread base threadStarter).2 base thread [data, function] := by
  have hip : Thread.sp + 8 ≤ Thread.ip ∧ Thread.ip + 8 ≤ Thread.size := by decide
  rw [archCreateThread_eq hp]
  exact (((holds_opened hp m name).push hp function (by simp)).push hp data (by simp)).setMember hp threadStarter
    (Or.inr hip.1) hip.2

/-- The two words of a new thread as pushes. -/
theorem created_eq (hp : Separate base thread) (m : Bytes) (name function data threadStarter : BitVec 64) :
    (archCreateThread m name function data thread base threadStarter).2 =
      setUlong (pushes (opened m name thread base) thread [function, data]) (thread.toNat + Thread.ip)
        threadStarter := by
  rw [archCreateThread_eq hp, pushes_cons, pushes_cons, pushes_nil]

/-- The members of a new thread's structure. -/
theorem created_members (hp : Separate base thread) (m : Bytes) (name function data threadStarter : BitVec 64) :
    ulong (archCreateThread m name function data thread base threadStarter).2 (thread.toNat + Thread.name) = name ∧
    ulong (archCreateThread m name function data thread base threadStarter).2 (thread.toNat + Thread.stack) = base ∧
    ulong (archCreateThread m name function data thread base threadStarter).2 (thread.toNat + Thread.ip) =
      threadStarter := by
  have hapart := hp.apart
  have hoff : Thread.name + 8 ≤ Thread.stack ∧ Thread.stack + 8 ≤ Thread.sp ∧ Thread.sp + 8 ≤ Thread.ip ∧
    Thread.ip + 8 ≤ Thread.size := by decide
  have hopen := holds_opened hp m name
  rw [created_eq hp]
  refine ⟨?_, ?_, ulong_self _ _ _⟩
  · rw [ulong_apart _ _ (by omega), pushes_member hp hopen _ (by simp) (by omega) (by omega)]
    simp (disch := omega) only [opened, ulong_self, ulong_apart]
  · rw [ulong_apart _ _ (by omega), pushes_member hp hopen _ (by simp) (by omega) (by omega)]
    simp (disch := omega) only [opened, ulong_self, ulong_apart]

/-- A new thread changes its structure and its stack. -/
theorem created_outside (hp : Separate base thread) (m : Bytes) (name function data threadStarter : BitVec 64) {j : Nat}
    (hbase : j < base.toNat ∨ base.toNat + 65536 ≤ j)
    (hthread : j < thread.toNat ∨ thread.toNat + Thread.ip + 8 ≤ j) :
    (archCreateThread m name function data thread base threadStarter).2 j = m j := by
  have hoff : Thread.name + 8 ≤ Thread.stack ∧ Thread.stack + 8 ≤ Thread.sp ∧ Thread.sp + 8 ≤ Thread.ip := by decide
  rw [created_eq hp, setUlong_apart _ _ (by omega),
    pushes_outside hp (holds_opened hp m name) _ (by simp) hbase (by omega)]
  simp (disch := omega) only [opened, setUlong_apart]

/-- Pushing on the stack of a thread that has been set up. -/
theorem stackOk_pushes (hp : Separate base thread) {m m₁ : Bytes} {name threadStarter function data : BitVec 64}
    (hnew : Holds m m₁ base thread [data, function])
    (hmembers : ulong m₁ (thread.toNat + Thread.name) = name ∧ ulong m₁ (thread.toNat + Thread.stack) = base ∧
      ulong m₁ (thread.toNat + Thread.ip) = threadStarter)
    (houtside : ∀ j, (j < base.toNat ∨ base.toNat + 65536 ≤ j) →
      (j < thread.toNat ∨ thread.toNat + Thread.ip + 8 ≤ j) → m₁ j = m j)
    {values : List (BitVec 64)} (hlen : values.length ≤ 8188) :
    StackOk m (pushes m₁ thread values) base thread name threadStarter function data values := by
  obtain ⟨hname, hstack, hip⟩ := hmembers
  have hoff : Thread.name + 8 ≤ Thread.sp ∧ Thread.stack + 8 ≤ Thread.sp ∧ Thread.sp + 8 ≤ Thread.ip ∧
    Thread.ip + 8 ≤ Thread.size := by decide
  have hroom : 8 * (values.length + [data, function].length) + 8 ≤ 65528 := by
    simp only [List.length_cons, List.length_nil]
    omega
  have hcount : (values.reverse ++ [data, function]).length = values.length + 2 := by simp
  have hholds := hnew.pushes hp values hroom
  have hsp := hholds.sp
  have hwords := hholds.words
  have hothers := hholds.others
  rw [hcount] at hsp hwords hothers
  have htop : base.toNat + 65528 - 8 * (values.length + 2) =
      (ulong (pushes m₁ thread values) (thread.toNat + Thread.sp)).toNat := by omega
  rw [htop] at hwords hothers
  have hname' := (pushes_member hp hnew values hroom (Or.inl hoff.1) (by omega)).trans hname
  have hstack' := (pushes_member hp hnew values hroom (Or.inl hoff.2.1) (by omega)).trans hstack
  constructor
  · exact hsp
  · exact hwords
  · exact hholds.bottom
  · exact hname'
  · exact hstack'
  · exact (pushes_member hp hnew values hroom (Or.inr hoff.2.2.1) hoff.2.2.2).trans hip
  · intro j hbase hthread
    exact (pushes_outside hp hnew values hroom hbase (by omega)).trans (houtside j hbase hthread)
  · exact hothers
  · rw [dumpStack_log hp hholds hstack', hname', hcount]
    exact congrArg (List.cons _) (if_congr (by omega) rfl rfl)
  · intro hfull value
    exact hholds.push_full (by omega) value

end NewThread

/-- **The stack of a thread.** A new thread takes up to 8188 words. -/
theorem thread_stackOk (m : Bytes) (base thread name threadStarter function data : BitVec 64)
    (values : List (BitVec 64)) (hp : Separate base thread) (hlen : values.length ≤ 8188) :
    StackOk m (pushes (archCreateThread m name function data thread base threadStarter).2 thread values) base thread
      name threadStarter function data values :=
  stackOk_pushes hp (holds_created hp m name function data threadStarter)
    (created_members hp m name function data threadStarter)
    (fun _ hbase hthread => created_outside hp m name function data threadStarter hbase hthread) hlen

/-- A stack right behind the structure's page, and one word. -/
theorem thread_stackOk_one : StackOk (fun _ => 0)
    (pushes (archCreateThread (fun _ => 0) 1 2 3 0x1000 0x2000 4).2 0x1000 [5]) 0x2000 0x1000 1 4 2 3 [5] :=
  thread_stackOk (fun _ => 0) 0x2000 0x1000 1 4 2 3 [5] ⟨by decide, by decide⟩ (by decide)

end Xen.Sched
