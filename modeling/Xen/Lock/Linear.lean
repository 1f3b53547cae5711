import Xen.Lib.Atomic
import Xen.Lock.Recursive

/-!
# The recursive lock as one atomic object (`lock_verified.c`)

The calls of `Xen.Lock.Recursive` take several steps each, among those of other threads.

- `spec` says what a call is worth: what the function makes of the lock when nobody interrupts it.
- `recursiveLock_linearizable`: in every schedule the calls and returns are those of calls that run one after the other.
  An acquisition takes effect where it finds itself the owner or becomes it, a release where the count falls or, if it
  falls to zero, where the owner is cleared; the lock that the object holds is ahead of the memory in between
  (`seenLock`).
- `recursiveLock_available`: from wherever a schedule leads, its owner can give the lock back and any thread can take
  it, without a step of anyone else.
-/

namespace Xen.RecursiveLock

open Lib

section Atomic

variable {τ : Type} [DecidableEq τ]

/-! ## The object -/

/-- What the call of `t` returns and leaves; `none` if it waits. -/
def spec (t : τ) : Call → LockRecursiveT τ → Option (Int × LockRecursiveT τ)
  | .acquire, lock => lockAcquireRecursive t lock
  | .tryAcquire, lock => some (lockTryAcquireRecursive t lock)
  | .release, lock => some (lockReleaseRecursive lock)

/-- How far the object's count is ahead of the memory's, with the owner at that point: its acquisition has taken effect
and is not counted, or its last release is counted and has not taken effect. -/
def Pc.ahead : Pc → BitVec 32
  | .acquireLoad | .acquireStore _ | .releaseClear => 1
  | _ => 0

/-- The lock that the object holds. -/
def seenLock (lock : LockRecursiveT τ) (loc : τ → Local) : LockRecursiveT τ where
  owner := lock.owner
  count := lock.count + lock.owner.elim 0 fun t => (loc t).pc.ahead

/-- What the object knows of a thread. -/
def Pc.status : Pc → Status Call Int
  | .idle => .idle
  | .acquire | .acquireLoop => .pending .acquire
  | .acquireLoad | .acquireStore _ => .done .acquire 0
  | .tryAcquire => .pending .tryAcquire
  | .release | .releaseLoad | .releaseStore _ | .releaseClear => .pending .release

/-- The threads and their lock, as one object. -/
def object (s : Threads τ (LockRecursiveT τ) Local) : Atomic τ Call Int (LockRecursiveT τ) :=
  ⟨seenLock s.mem s.loc, fun t => (s.loc t).pc.status⟩

/-- What is seen of a step: a call, or a return. -/
def seenStep (s : Threads τ (LockRecursiveT τ) Local) (e : τ × Call) : List (τ × Event Call Int) :=
  if (s.loc e.1).pc = .idle then [(e.1, .call e.2)]
  else if ((s.step act e).loc e.1).pc = .idle then [(e.1, .ret ((s.step act e).loc e.1).ret)]
  else []

/-! ## Refinement -/

variable {t : τ} {call : Call} {lock lock' : LockRecursiveT τ} {count : BitVec 32} {loc : τ → Local} {l : Local}

omit [DecidableEq τ] in
theorem seenLock_free (h : lock.owner = none) : seenLock lock loc = lock := by
  rw [seenLock, h, Option.elim_none, ← h]
  exact congrArg _ (BitVec.add_zero _)

omit [DecidableEq τ] in
theorem seenLock_owned : seenLock ⟨some t, count⟩ loc = ⟨some t, count + (loc t).pc.ahead⟩ := rfl

/-- The lock behind a step of its owner. -/
theorem seenLock_mine : seenLock ⟨some t, count⟩ (Function.update loc t l) = ⟨some t, count + l.pc.ahead⟩ := by
  simp [seenLock]

/-- A step that leaves the memory, and the thread as far ahead of it. -/
theorem seenLock_read (h : l.pc.ahead = (loc t).pc.ahead) :
    seenLock lock (Function.update loc t l) = seenLock lock loc := by
  unfold seenLock
  cases howner : lock.owner with
  | none => rfl
  | some u =>
    by_cases hu : u = t
    · subst hu
      simp [h]
    · simp [Function.update_of_ne hu]

/-- The step `e` from `s` is a run of the object. -/
def Traced (s : Threads τ (LockRecursiveT τ) Local) (e : τ × Call) : Prop :=
  Atomic.Trace spec (object s) (seenStep s e) (object (s.step act e))

/-- What a step has to be shown to be. -/
theorem traced_of_act (h : act t call lock (loc t) = (lock', l))
    (htrace : Atomic.Trace spec (object ⟨lock, loc⟩)
      (if (loc t).pc = .idle then [(t, .call call)] else if l.pc = .idle then [(t, .ret l.ret)] else [])
      { (object ⟨lock, loc⟩).set t l.pc.status with obj := seenLock lock' (Function.update loc t l) }) :
    Traced ⟨lock, loc⟩ (t, call) := by
  have hstep : Threads.step act ⟨lock, loc⟩ (t, call) = ⟨lock', Function.update loc t l⟩ := by rw [Threads.step, h]
  have hobj : object (Threads.step act ⟨lock, loc⟩ (t, call)) =
      { (object ⟨lock, loc⟩).set t l.pc.status with obj := seenLock lock' (Function.update loc t l) } := by
    rw [hstep]
    simp only [object, Atomic.set, Atomic.mk.injEq, true_and]
    funext u
    by_cases hu : u = t
    · subst hu
      simp
    · simp [Function.update_of_ne hu]
  rw [Traced, hobj, seenStep, hstep]
  simpa using htrace

/-- A step that is not seen and has no effect. -/
theorem traced_silent (h : act t call lock (loc t) = (lock', l)) (hold : (loc t).pc ≠ .idle) (hnew : l.pc ≠ .idle)
    (hstatus : l.pc.status = (loc t).pc.status)
    (hlock : seenLock lock' (Function.update loc t l) = seenLock lock loc) : Traced ⟨lock, loc⟩ (t, call) := by
  apply traced_of_act h
  have hsame : ({ (object ⟨lock, loc⟩).set t (loc t).pc.status with obj := seenLock lock loc } : Atomic τ Call Int _) =
      object ⟨lock, loc⟩ := by
    simp [object, Atomic.set]
  rw [if_neg hold, if_neg hnew, hstatus, hlock, hsame]
  exact .refl _

/-- A step at which a call takes effect. -/
theorem traced_effect {c : Call} {r : Int} (h : act t call lock (loc t) = (lock', l)) (hold : (loc t).pc ≠ .idle)
    (hnew : l.pc ≠ .idle) (hpending : (loc t).pc.status = .pending c) (hdone : l.pc.status = .done c r)
    (hspec : spec t c (seenLock lock loc) = some (r, seenLock lock' (Function.update loc t l))) :
    Traced ⟨lock, loc⟩ (t, call) := by
  apply traced_of_act h
  rw [if_neg hold, if_neg hnew, hdone]
  exact (Atomic.Step.effect hpending hspec).trace

/-- A step at which a call takes effect and returns. -/
theorem traced_effect_ret {c : Call} (h : act t call lock (loc t) = (lock', l)) (hold : (loc t).pc ≠ .idle)
    (hnew : l.pc = .idle) (hpending : (loc t).pc.status = .pending c)
    (hspec : spec t c (seenLock lock loc) = some (l.ret, seenLock lock' (Function.update loc t l))) :
    Traced ⟨lock, loc⟩ (t, call) := by
  apply traced_of_act h
  rw [if_neg hold, if_pos hnew, hnew]
  exact Atomic.trace_effect_ret hpending hspec

/-- **One step** is a run of the object. -/
theorem traced_step {s : Threads τ (LockRecursiveT τ) Local} (hs : s.Invariant FreeCount Outline) (t : τ)
    (call : Call) : Traced s (t, call) := by
  obtain ⟨⟨owner, count⟩, loc⟩ := s
  obtain ⟨⟨⟩, -, hloc⟩ := hs
  have hhere : At t ⟨owner, count⟩ (loc t).held (loc t).pc := (hloc t).here
  cases hpc : (loc t).pc <;> rw [hpc] at hhere
  case idle =>
    have hact : act t call ⟨owner, count⟩ (loc t) = (⟨owner, count⟩, ⟨call.entry, (loc t).ret, (loc t).held⟩) := by
      rw [act, hpc]
    have hahead : call.entry.ahead = (loc t).pc.ahead := by
      rw [hpc]
      cases call <;> rfl
    have hstatus : call.entry.status = .pending call := by cases call <;> rfl
    apply traced_of_act hact
    rw [if_pos hpc, seenLock_read hahead, hstatus]
    exact (Atomic.Step.call call (congrArg Pc.status hpc)).trace
  case acquire =>
    by_cases howner : owner = some t
    · subst howner
      have hact : act t call ⟨some t, count⟩ (loc t) =
          (⟨some t, count⟩, ⟨.acquireLoad, (loc t).ret, (loc t).held⟩) := by
        simp [act, hpc]
      apply traced_effect hact (by simp [hpc]) (by simp) (congrArg Pc.status hpc) rfl
      rw [seenLock_mine, seenLock_owned, hpc, spec, acquire_owned rfl]
      exact congrArg (fun c => some (0, LockRecursiveT.mk (some t) (c + 1))) (BitVec.add_zero _)
    · have hact : act t call ⟨owner, count⟩ (loc t) =
          (⟨owner, count⟩, ⟨.acquireLoop, (loc t).ret, (loc t).held⟩) := by
        simp [act, hpc, howner]
      exact traced_silent hact (by simp [hpc]) (by simp) (by rw [hpc]; rfl) (seenLock_read (by rw [hpc]; rfl))
  case acquireLoop =>
    by_cases howner : owner = none
    · subst howner
      have hact : act t call ⟨none, count⟩ (loc t) =
          (⟨some t, count⟩, ⟨.acquireLoad, (loc t).ret, (loc t).held⟩) := by
        simp [act, hpc, takeOwner]
      apply traced_effect hact (by simp [hpc]) (by simp) (congrArg Pc.status hpc) rfl
      rw [seenLock_mine, seenLock_free rfl, spec, acquire_free rfl]
      rfl
    · have hact : act t call ⟨owner, count⟩ (loc t) = (⟨owner, count⟩, loc t) := by
        simp [act, hpc, takeOwner, howner]
      exact traced_silent hact (by simp [hpc]) (by simp [hpc]) rfl (seenLock_read rfl)
  case acquireLoad =>
    have hact : act t call ⟨owner, count⟩ (loc t) =
        (⟨owner, count⟩, ⟨.acquireStore count, (loc t).ret, (loc t).held⟩) := by
      rw [act, hpc]
    exact traced_silent hact (by simp [hpc]) (by simp) (by rw [hpc]; rfl) (seenLock_read (by rw [hpc]; rfl))
  case acquireStore loaded =>
    obtain ⟨hmine, -, hloaded⟩ := hhere
    obtain ⟨rfl, rfl⟩ : owner = some t ∧ count = loaded := ⟨hmine.1, hmine.2.trans hloaded.symm⟩
    have hact : act t call ⟨some t, count⟩ (loc t) = (⟨some t, count + 1⟩, ⟨.idle, 0, (loc t).held + 1⟩) := by
      rw [act, hpc]
    have hlock : seenLock ⟨some t, count + 1⟩ (Function.update loc t ⟨.idle, 0, (loc t).held + 1⟩) =
        seenLock ⟨some t, count⟩ loc := by
      rw [seenLock_mine, seenLock_owned, hpc]
      exact congrArg _ (BitVec.add_zero _)
    apply traced_of_act hact
    rw [if_neg (by simp [hpc]), if_pos rfl, hlock]
    exact (Atomic.Step.ret (congrArg Pc.status hpc)).trace
  case tryAcquire =>
    by_cases howner : owner = none
    · subst howner
      have hact : act t call ⟨none, count⟩ (loc t) = (⟨some t, count + 1⟩, ⟨.idle, 0, (loc t).held + 1⟩) := by
        simp [act, hpc, lockTryAcquireRecursive]
      apply traced_effect_ret hact (by simp [hpc]) rfl (congrArg Pc.status hpc)
      rw [seenLock_mine, seenLock_free rfl, spec, lockTryAcquireRecursive, if_pos rfl]
      exact congrArg (fun c => some (0, LockRecursiveT.mk (some t) c)) (BitVec.add_zero _).symm
    · have hact : act t call ⟨owner, count⟩ (loc t) = (⟨owner, count⟩, ⟨.idle, -1, (loc t).held⟩) := by
        simp [act, hpc, lockTryAcquireRecursive, howner]
      have hseen : (seenLock ⟨owner, count⟩ loc).owner ≠ none := howner
      apply traced_effect_ret hact (by simp [hpc]) rfl (congrArg Pc.status hpc)
      rw [seenLock_read (by rw [hpc]; rfl), spec, lockTryAcquireRecursive, if_neg hseen]
  case release =>
    have hact : act t call ⟨owner, count⟩ (loc t) =
        (⟨owner, count⟩, ⟨.releaseLoad, (loc t).ret, (loc t).held⟩) := by
      rw [act, hpc]
    exact traced_silent hact (by simp [hpc]) (by simp) (by rw [hpc]; rfl) (seenLock_read (by rw [hpc]; rfl))
  case releaseLoad =>
    have hact : act t call ⟨owner, count⟩ (loc t) =
        (⟨owner, count⟩, ⟨.releaseStore count, (loc t).ret, (loc t).held⟩) := by
      rw [act, hpc]
    exact traced_silent hact (by simp [hpc]) (by simp) (by rw [hpc]; rfl) (seenLock_read (by rw [hpc]; rfl))
  case releaseStore loaded =>
    obtain ⟨hmine, -, hloaded⟩ := hhere
    obtain ⟨rfl, rfl⟩ : owner = some t ∧ count = loaded := ⟨hmine.1, hmine.2.trans hloaded.symm⟩
    have hseen : seenLock ⟨some t, count⟩ loc = ⟨some t, count⟩ := by
      rw [seenLock_owned, hpc]
      exact congrArg _ (BitVec.add_zero _)
    by_cases hlast : count - 1 = 0
    · have hact : act t call ⟨some t, count⟩ (loc t) =
          (⟨some t, count - 1⟩, ⟨.releaseClear, (loc t).ret, (loc t).held⟩) := by
        simp only [act, hpc, if_neg (not_not_intro hlast)]
      apply traced_silent hact (by simp [hpc]) (by simp) (by rw [hpc]; rfl)
      rw [seenLock_mine, hseen]
      exact congrArg _ (BitVec.sub_add_cancel _ _)
    · have hact : act t call ⟨some t, count⟩ (loc t) = (⟨some t, count - 1⟩, ⟨.idle, 0, (loc t).held - 1⟩) := by
        simp only [act, hpc, if_pos hlast]
      apply traced_effect_ret hact (by simp [hpc]) rfl (congrArg Pc.status hpc)
      rw [seenLock_mine, hseen, spec, lockReleaseRecursive, if_pos hlast]
      exact congrArg (fun c => some (0, LockRecursiveT.mk (some t) c)) (BitVec.add_zero _).symm
  case releaseClear =>
    obtain ⟨hmine, -⟩ := hhere
    obtain ⟨rfl, rfl⟩ : owner = some t ∧ count = 0 := hmine
    have hact : act t call ⟨some t, 0⟩ (loc t) = (⟨none, 0⟩, ⟨.idle, 0, (loc t).held - 1⟩) := by rw [act, hpc]
    apply traced_effect_ret hact (by simp [hpc]) rfl (congrArg Pc.status hpc)
    have hone : (0 : BitVec 32) + Pc.releaseClear.ahead = 1 := by decide
    have hlast : (1 : BitVec 32) - 1 = 0 := by decide
    rw [seenLock_owned, hpc, hone, seenLock_free rfl, spec, lockReleaseRecursive, if_neg (not_not_intro hlast)]
    exact congrArg (fun c => some (0, LockRecursiveT.mk none c)) hlast

omit [DecidableEq τ] in
/-- The free lock, before any call. -/
theorem start_invariant : (start τ).Invariant FreeCount Outline :=
  ⟨(), fun _ => rfl, fun t => ⟨Nat.zero_le _, Or.inr ⟨rfl, fun hnone => by cases hnone⟩⟩⟩

/-- **Linearizability.** In every schedule from the free lock in which only the owner releases it and nesting stays in
the range of the count, the calls and returns are those of calls that run one after the other, each where it takes
effect, and lead to the lock in the memory, but for a call of its owner that is ahead of it. -/
theorem recursiveLock_linearizable (schedule : List (τ × Call))
    (h : Along (Threads.Actor Allowed) (Threads.step act) (start τ) schedule) :
    Linearizes spec ⟨none, 0⟩ (history seenStep (Threads.step act) (start τ) schedule)
      (seenLock (schedule.foldl (Threads.step act) (start τ)).mem
        (schedule.foldl (Threads.step act) (start τ)).loc) := by
  have htrace := Atomic.trace_of_refinement object seenStep (fun _ _ => Threads.invariant_step noInterference)
    (fun s e hs _ => traced_step hs e.1 e.2) start_invariant h
  exact htrace.linearizes fun _ => rfl

/-- Two threads that acquire the lock at the same time; the one that waits gets it from the other. -/
def contended : List (Bool × Call) :=
  [(true, .acquire), (false, .acquire), (true, .acquire), (false, .acquire), (true, .acquire), (false, .acquire),
    (true, .acquire), (true, .acquire)] ++ List.replicate 5 (true, .release) ++ List.replicate 3 (false, .acquire)

theorem recursiveLock_contended :
    Linearizes spec ⟨none, 0⟩ (history seenStep (Threads.step act) (start Bool) contended)
      (seenLock (contended.foldl (Threads.step act) (start Bool)).mem
        (contended.foldl (Threads.step act) (start Bool)).loc) :=
  recursiveLock_linearizable contended (by decide)

end Atomic

/-! ## Availability -/

section Available

variable {τ : Type} [DecidableEq τ] {s : Threads τ (LockRecursiveT τ) Local} {t : τ}

/-- The steps of the owner, with `n` acquisitions, in front of the one that gives the lock back, if all it calls is
`___lock_release_recursive`. -/
def Pc.untilFree (n : Nat) : Pc → Nat
  | .idle => 4 * n
  | .acquire | .acquireLoop => 4 * n + 7
  | .acquireLoad => 4 * n + 6
  | .acquireStore _ => 4 * n + 5
  | .tryAcquire => 4 * n + 1
  | .release => 4 * n - 1
  | .releaseLoad => 4 * n - 2
  | .releaseStore _ => 4 * n - 3
  | .releaseClear => 0

/-- The steps of a thread in front of the one with which it has acquired a free lock, if all it calls is
`___lock_acquire_recursive`. -/
def Pc.untilHeld : Pc → Nat
  | .idle => 4
  | .acquire => 3
  | .acquireLoop => 2
  | .acquireLoad => 1
  | _ => 0

theorem Pc.untilFree_le (n : Nat) (pc : Pc) : pc.untilFree n ≤ 4 * n + 7 := by
  cases pc <;> simp only [untilFree] <;> omega

theorem Pc.untilHeld_le (pc : Pc) : pc.untilHeld ≤ 4 := by
  cases pc <;> simp only [untilHeld] <;> omega

/-- **The owner** gives the lock back, or comes closer to it. -/
theorem owner_step (hs : s.Invariant FreeCount Outline) (howner : s.mem.owner = some t) :
    (s.step act (t, .release)).mem.owner = none ∨ (s.step act (t, .release)).mem.owner = some t ∧
      ((s.step act (t, .release)).loc t).pc.untilFree ((s.step act (t, .release)).loc t).held <
        (s.loc t).pc.untilFree (s.loc t).held := by
  obtain ⟨⟨⟩, -, hloc⟩ := hs
  have hhere := (hloc t).here
  have hheld : Rest t s.mem (s.loc t).held → 0 < (s.loc t).held := fun hrest => by
    rcases hrest with ⟨hpos, -⟩ | ⟨-, hother⟩
    · exact hpos
    · exact absurd howner hother
  rw [Threads.step_self]
  change (act t .release s.mem (s.loc t)).1.owner = none ∨ (act t .release s.mem (s.loc t)).1.owner = some t ∧ _
  cases hpc : (s.loc t).pc <;> rw [hpc] at hhere <;> simp only [act, hpc, Pc.untilFree]
  case idle =>
    have hpos := hheld hhere
    exact Or.inr ⟨howner, by simp only [Call.entry]; omega⟩
  case acquire =>
    rw [if_neg (not_not_intro howner)]
    exact Or.inr ⟨howner, by simp only; omega⟩
  case acquireLoop => exact absurd howner hhere.2
  case acquireLoad => exact Or.inr ⟨howner, by omega⟩
  case acquireStore => exact Or.inr ⟨howner, by omega⟩
  case tryAcquire =>
    have hne : s.mem.owner ≠ none := by simp [howner]
    simp only [lockTryAcquireRecursive, if_neg hne]
    exact Or.inr ⟨howner, by simp⟩
  case release =>
    obtain ⟨-, hpos⟩ := hhere
    exact Or.inr ⟨howner, by omega⟩
  case releaseLoad =>
    obtain ⟨-, hpos⟩ := hhere
    exact Or.inr ⟨howner, by omega⟩
  case releaseStore count =>
    obtain ⟨-, hpos, -⟩ := hhere
    refine Or.inr ⟨howner, ?_⟩
    by_cases hlast : count - 1 = 0
    · rw [if_neg (not_not_intro hlast)]
      simp only
      omega
    · rw [if_pos hlast]
      simp only
      omega
  case releaseClear => exact Or.inl trivial

/-- **A thread** in front of a free lock acquires it, or comes closer to it. -/
theorem taker_step (hs : s.Invariant FreeCount Outline) (hheld : (s.loc t).held = 0)
    (howner : s.mem.owner = none ∨ s.mem.owner = some t) :
    0 < ((s.step act (t, .acquire)).loc t).held ∨ ((s.step act (t, .acquire)).loc t).held = 0 ∧
      ((s.step act (t, .acquire)).mem.owner = none ∨ (s.step act (t, .acquire)).mem.owner = some t) ∧
      ((s.step act (t, .acquire)).loc t).pc.untilHeld < (s.loc t).pc.untilHeld := by
  obtain ⟨⟨⟩, -, hloc⟩ := hs
  have hhere := (hloc t).here
  have hrest : Rest t s.mem (s.loc t).held → s.mem.owner ≠ some t := fun hrest => by
    rcases hrest with ⟨hpos, -⟩ | ⟨-, hother⟩
    · omega
    · exact hother
  rw [Threads.step_self]
  change _ ∨ _ ∧ ((act t .acquire s.mem (s.loc t)).1.owner = none ∨
    (act t .acquire s.mem (s.loc t)).1.owner = some t) ∧ _
  cases hpc : (s.loc t).pc <;> rw [hpc] at hhere <;> simp only [act, hpc, Pc.untilHeld]
  case idle => exact Or.inr ⟨hheld, howner, by simp [Call.entry]⟩
  case acquire =>
    rw [if_pos (hrest hhere.1)]
    exact Or.inr ⟨hheld, howner, by simp⟩
  case acquireLoop =>
    have hfree : s.mem.owner = none := howner.resolve_right hhere.2
    simp only [takeOwner, if_pos hfree]
    exact Or.inr ⟨hheld, Or.inr trivial, by simp⟩
  case acquireLoad => exact Or.inr ⟨hheld, howner, by simp⟩
  case acquireStore => exact Or.inl (Nat.succ_pos _)
  case tryAcquire =>
    have hfree : s.mem.owner = none := howner.resolve_right (hrest hhere)
    simp only [lockTryAcquireRecursive, if_pos hfree, if_true]
    exact Or.inl (Nat.succ_pos _)
  case release => exact absurd hheld (Nat.pos_iff_ne_zero.mp hhere.2)
  case releaseLoad => exact absurd hheld (Nat.pos_iff_ne_zero.mp hhere.2)
  case releaseStore => exact absurd hheld (Nat.pos_iff_ne_zero.mp hhere.2.1)
  case releaseClear =>
    have hone := hhere.2
    omega

/-- The lock is free, or `t` owns it. -/
def FreeOrMine (t : τ) (s : Threads τ (LockRecursiveT τ) Local) : Prop :=
  s.Invariant FreeCount Outline ∧ (s.mem.owner = none ∨ s.mem.owner = some t)

/-- `t` has acquired the lock, or can: it is free, or `t` has just taken it. -/
def HeldOrFree (t : τ) (s : Threads τ (LockRecursiveT τ) Local) : Prop :=
  s.Invariant FreeCount Outline ∧
    (0 < (s.loc t).held ∨ (s.loc t).held = 0 ∧ (s.mem.owner = none ∨ s.mem.owner = some t))

/-- The lock comes free when its owner alone acts. -/
theorem exists_free (hs : s.Invariant FreeCount Outline) :
    ∃ more : List (τ × Call), more.length ≤ (s.mem.owner.elim 0 fun u => 4 * (s.loc u).held + 8) ∧
      (∀ e ∈ more, s.mem.owner = some e.1) ∧ Along (Threads.Actor Allowed) (Threads.step act) s more ∧
      (more.foldl (Threads.step act) s).Invariant FreeCount Outline ∧
      (more.foldl (Threads.step act) s).mem.owner = none := by
  cases howner : s.mem.owner with
  | none => exact ⟨[], by simp, by simp, trivial, hs, howner⟩
  | some u =>
    obtain ⟨more, hlen, hby, hal, ⟨hinv, -⟩, hfree⟩ := exists_run_of_rank (Threads.step act) (FreeOrMine u)
      (fun s => s.mem.owner = none) (Threads.Actor Allowed) (fun e => e.1 = u)
      (fun s => (s.loc u).pc.untilFree (s.loc u).held) (fun s hs hgoal => by
        obtain ⟨hinv, howner⟩ := hs
        have hmine := howner.resolve_left hgoal
        have hallowed : Threads.Actor Allowed s (u, .release) := fun _ => ⟨fun _ => hmine, (by cases ·)⟩
        have hnext := owner_step hinv hmine
        refine ⟨(u, .release), rfl, hallowed, ⟨Threads.invariant_step noInterference hinv hallowed, ?_⟩, ?_⟩
        · exact hnext.imp_right And.left
        · exact hnext.imp_right And.right) ⟨hs, Or.inr howner⟩
    refine ⟨more, ?_, fun e he => ?_, hal, hinv, hfree⟩
    · exact Nat.le_trans hlen (Nat.succ_le_succ (Pc.untilFree_le _ _))
    · rw [hby e he]

/-- A free lock is acquired by any thread that acts alone. -/
theorem exists_held (hs : s.Invariant FreeCount Outline) (hfree : s.mem.owner = none) (t : τ) :
    ∃ more : List (τ × Call), more.length ≤ 5 ∧ (∀ e ∈ more, e.1 = t) ∧
      Along (Threads.Actor Allowed) (Threads.step act) s more ∧
      (more.foldl (Threads.step act) s).Invariant FreeCount Outline ∧
      0 < ((more.foldl (Threads.step act) s).loc t).held := by
  have hzero : ¬0 < (s.loc t).held := fun hpos => by
    obtain ⟨⟨⟩, -, hloc⟩ := hs
    have howner := (hloc t).owner hpos
    rw [hfree] at howner
    cases howner
  have hstart : (s.loc t).held = 0 := by omega
  obtain ⟨more, hlen, hby, hal, ⟨hinv, -⟩, hheld⟩ := exists_run_of_rank (Threads.step act) (HeldOrFree t)
    (fun s => 0 < (s.loc t).held) (Threads.Actor Allowed) (fun e => e.1 = t) (fun s => (s.loc t).pc.untilHeld)
    (fun s hs hgoal => by
      obtain ⟨hinv, hor⟩ := hs
      obtain ⟨hheld, howner⟩ := hor.resolve_left hgoal
      have hlt : (s.loc t).held < intMax := by
        rw [hheld]
        decide
      have hallowed : Threads.Actor Allowed s (t, .acquire) := fun _ => ⟨(by cases ·), fun _ => hlt⟩
      have hnext := taker_step hinv hheld howner
      refine ⟨(t, .acquire), rfl, hallowed, ⟨Threads.invariant_step noInterference hinv hallowed, ?_⟩, ?_⟩
      · exact hnext.imp_right fun h => ⟨h.1, h.2.1⟩
      · exact hnext.imp_right fun h => h.2.2) ⟨hs, Or.inr ⟨hstart, Or.inl hfree⟩⟩
  exact ⟨more, Nat.le_trans hlen (Nat.succ_le_succ (Pc.untilHeld_le _)), hby, hal, hinv, hheld⟩

/-- **Availability.** Wherever a schedule leads from the free lock, any thread can have the lock: by steps of the owner
and of that thread alone, four for each acquisition of the owner and thirteen at most besides. -/
theorem recursiveLock_available (schedule : List (τ × Call))
    (h : Along (Threads.Actor Allowed) (Threads.step act) (start τ) schedule) (t : τ) :
    let s := schedule.foldl (Threads.step act) (start τ)
    ∃ more : List (τ × Call), more.length ≤ (s.mem.owner.elim 0 fun u => 4 * (s.loc u).held + 8) + 5 ∧
      (∀ e ∈ more, s.mem.owner = some e.1 ∨ e.1 = t) ∧ Along (Threads.Actor Allowed) (Threads.step act) s more ∧
      (more.foldl (Threads.step act) s).mem.owner = some t ∧
      0 < ((more.foldl (Threads.step act) s).loc t).held := by
  intro s
  have hs : s.Invariant FreeCount Outline := (Threads.invariant_run noInterference start_invariant h).last
  obtain ⟨freeing, hlen, hby, hal, hinv, hfree⟩ := exists_free hs
  obtain ⟨taking, hlen', hby', hal', ⟨⟨⟩, -, hloc⟩, hheld⟩ := exists_held hinv hfree t
  rw [← List.foldl_append] at hloc hheld
  refine ⟨freeing ++ taking, ?_, ?_, (along_append _ _ _).mpr ⟨hal, hal'⟩, (hloc t).owner hheld, hheld⟩
  · rw [List.length_append]
    exact Nat.add_le_add hlen hlen'
  · intro e he
    exact (List.mem_append.mp he).imp (hby e) (hby' e)

/-- The second thread polls for a lock that the first one holds twice. -/
theorem recursiveLock_available_nested :
    let s := nestedHandover.take 16 |>.foldl (Threads.step act) (start Bool)
    ∃ more : List (Bool × Call), more.length ≤ (s.mem.owner.elim 0 fun u => 4 * (s.loc u).held + 8) + 5 ∧
      (∀ e ∈ more, s.mem.owner = some e.1 ∨ e.1 = false) ∧ Along (Threads.Actor Allowed) (Threads.step act) s more ∧
      (more.foldl (Threads.step act) s).mem.owner = some false ∧
      0 < ((more.foldl (Threads.step act) s).loc false).held :=
  recursiveLock_available (nestedHandover.take 16) (by decide) false

end Available

end Xen.RecursiveLock
