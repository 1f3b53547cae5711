import Xen.Lib.Threads

/-!
# The plain lock of mini-os (`lock_verified.c`)

- `lockInit`, `lockAcquire`, `lockTryAcquire` and `lockRelease` on the `busy` flag; `lockAcquire` is one pass through
  the polling loop, which is left with interrupts still disabled, so that test and set are one section.
- Any number of threads call them in any order. A step of `act` is one section that runs with interrupts disabled, or
  the start of a call.
- A lock is an `Option τ`, the thread that holds it. `Busy` and `Held` relate the flag and the threads to it; every
  section takes a free lock, gives it back or leaves it (`noInterference`), in every schedule (`plainLock_exclusive`).

The wait queue is initialised and woken, and never read.
-/

namespace Xen.Lock

open Lib

/-! ## The functions -/

/-- `_LOCK_T`. -/
structure LockT where
  busy : Int
deriving DecidableEq, Repr

/-- `___lock_init`. -/
def lockInit (lock : LockT) : Int × LockT := (0, { lock with busy := 0 })

/-- One pass through the loop of `___lock_acquire`, and what follows if it breaks; `none` if it goes round again. -/
def lockAcquire (lock : LockT) : Option (Int × LockT) :=
  if lock.busy = 0 then some (0, { lock with busy := 1 }) else none

/-- `___lock_try_acquire`. -/
def lockTryAcquire (lock : LockT) : Int × LockT :=
  if lock.busy = 0 then (0, { lock with busy := 1 }) else (-1, lock)

/-- `___lock_release`. -/
def lockRelease (lock : LockT) : Int × LockT := (0, { lock with busy := 0 })

/-! ## Threads -/

/-- Between calls, or in front of the section of a call. -/
inductive Pc where
  | idle
  | acquire
  | tryAcquire
  | release
deriving DecidableEq, Repr

/-- Where the thread is, what its last call returned, and whether it holds the lock. -/
structure Local where
  pc : Pc
  ret : Int
  holds : Bool
deriving DecidableEq, Repr

/-- The thread starts the call `next`, or runs a section. -/
def act {τ : Type} (_ : τ) (next : Pc) (lock : LockT) (l : Local) : LockT × Local :=
  match l.pc with
  | .idle => (lock, { l with pc := next })
  | .acquire =>
    match lockAcquire lock with
    | some r => (r.2, ⟨.idle, r.1, true⟩)
    | none => (lock, l)
  | .tryAcquire => ((lockTryAcquire lock).2, ⟨.idle, (lockTryAcquire lock).1, l.holds || (lockTryAcquire lock).1 = 0⟩)
  | .release => ((lockRelease lock).2, ⟨.idle, (lockRelease lock).1, false⟩)

/-- Only a thread that holds the lock calls `___lock_release`. -/
def ByHolder {τ : Type} (_ : τ) (next : Pc) (_ : LockT) (l : Local) : Prop :=
  l.pc = .idle → next = .release → l.holds = true

instance {τ : Type} (t : τ) (next : Pc) (lock : LockT) (l : Local) : Decidable (ByHolder t next lock l) :=
  inferInstanceAs (Decidable (_ → _ → _))

/-- After `___lock_init` on any memory, with no call in progress. -/
def start (τ : Type) (memory : LockT) : Threads τ LockT Local := ⟨(lockInit memory).2, fun _ => ⟨.idle, 0, false⟩⟩

/-! ## Who holds the lock -/

section Exclusion

variable {τ : Type}

/-- The flag says whether `holder` is a thread. -/
def Busy (holder : Option τ) (lock : LockT) : Prop := lock.busy = if holder.isSome then 1 else 0

/-- What the thread `t` knows when `holder` holds the lock. -/
structure Held (holder : Option τ) (t : τ) (_ : LockT) (l : Local) : Prop where
  holds : l.holds = true ↔ holder = some t
  release : l.pc = .release → holder = some t

variable {holder : Option τ} {t u : τ} {lock lock' : LockT} {k : Local}

/-- A lock that is not busy has no holder. -/
theorem Busy.free (h : Busy holder lock) (hbusy : lock.busy = 0) : holder = none := by
  rw [h] at hbusy
  cases holder with
  | none => rfl
  | some _ => exact absurd hbusy Int.one_ne_zero

/-- The others do not notice that `t` takes a free lock. -/
theorem Held.taken (h : Held none u lock k) (hu : u ≠ t) : Held (some t) u lock' k where
  holds := by
    rw [h.holds]
    exact iff_of_false (fun hn => by cases hn) fun he => hu (Option.some.inj he).symm
  release hpc := by cases h.release hpc

/-- The others do not notice that `t` gives the lock back. -/
theorem Held.given (h : Held (some t) u lock k) (hu : u ≠ t) : Held none u lock' k where
  holds := by
    rw [h.holds]
    exact iff_of_false (fun he => hu (Option.some.inj he).symm) fun hn => by cases hn
  release hpc := absurd (Option.some.inj (h.release hpc)).symm hu

/-- **Every section** takes the free lock, gives it back, or leaves it. -/
theorem noInterference : Threads.NoInterference (τ := τ) act Busy Held ByHolder := by
  intro holder t next lock l hmem h hby
  unfold act
  cases hpc : l.pc with
  | idle =>
    refine ⟨holder, hmem, ⟨h.holds, fun hnext => ?_⟩, fun _ _ _ hk => hk⟩
    exact h.holds.mp (hby hpc hnext)
  | acquire =>
    by_cases hbusy : lock.busy = 0
    · cases hmem.free hbusy
      simp only [lockAcquire, if_pos hbusy]
      exact ⟨some t, rfl, ⟨by simp, fun hidle => by cases hidle⟩, fun u k hu hk => hk.taken hu⟩
    · simp only [lockAcquire, if_neg hbusy]
      exact ⟨holder, hmem, h, fun _ _ _ hk => hk⟩
  | tryAcquire =>
    by_cases hbusy : lock.busy = 0
    · cases hmem.free hbusy
      simp only [lockTryAcquire, if_pos hbusy]
      exact ⟨some t, rfl, ⟨by simp, fun hidle => by cases hidle⟩, fun u k hu hk => hk.taken hu⟩
    · simp only [lockTryAcquire, if_neg hbusy]
      exact ⟨holder, hmem, ⟨by simpa using h.holds, fun hidle => by cases hidle⟩, fun _ _ _ hk => hk⟩
  | release =>
    cases h.release hpc
    exact ⟨none, rfl, ⟨by simp, fun hidle => by cases hidle⟩, fun u k hu hk => hk.given hu⟩

/-- **Mutual exclusion.** At most one thread holds the lock, and `busy` says whether one does. -/
structure Exclusive (s : Threads τ LockT Local) : Prop where
  one : ∀ t u, (s.loc t).holds = true → (s.loc u).holds = true → t = u
  busy : s.mem.busy = 1 ↔ ∃ t, (s.loc t).holds = true
  free : s.mem.busy = 0 ↔ ∀ t, (s.loc t).holds ≠ true

theorem exclusive_of_invariant {s : Threads τ LockT Local} (hs : s.Invariant Busy Held) : Exclusive s := by
  obtain ⟨holder, hmem, hloc⟩ := hs
  have hholds : ∀ t, (s.loc t).holds = true ↔ holder = some t := fun t => (hloc t).holds
  cases holder with
  | none =>
    have hnone : ∀ t, (s.loc t).holds ≠ true := fun t ht => by cases (hholds t).mp ht
    have h0 : s.mem.busy = 0 := hmem
    refine ⟨fun t _ ht => absurd ht (hnone t), ?_, iff_of_true h0 hnone⟩
    rw [h0]
    exact iff_of_false (by decide) fun ht => ht.elim hnone
  | some t =>
    have ht : (s.loc t).holds = true := (hholds t).mpr rfl
    have h1 : s.mem.busy = 1 := hmem
    refine ⟨fun u v hu hv => ?_, iff_of_true h1 ⟨t, ht⟩, ?_⟩
    · exact Option.some.inj (((hholds u).mp hu).symm.trans ((hholds v).mp hv))
    · rw [h1]
      exact iff_of_false (by decide) fun hnone => hnone t ht

/-- **A try** returns 0 exactly if it takes a lock that no thread holds; otherwise it changes nothing. -/
def TryOk [DecidableEq τ] (s : Threads τ LockT Local) (e : τ × Pc) : Prop :=
  (s.loc e.1).pc = .tryAcquire →
    (((s.step act e).loc e.1).ret = 0 ↔ (∀ u, (s.loc u).holds ≠ true) ∧ ((s.step act e).loc e.1).holds = true) ∧
    (((s.step act e).loc e.1).ret ≠ 0 → (s.step act e).mem = s.mem ∧
      ∀ u, ((s.step act e).loc u).holds = (s.loc u).holds)

theorem tryOk_of_exclusive [DecidableEq τ] {s : Threads τ LockT Local} (hs : Exclusive s) (e : τ × Pc) :
    TryOk s e := by
  obtain ⟨t, next⟩ := e
  intro hpc
  simp only at hpc
  have hstep : act t next s.mem (s.loc t) = ((lockTryAcquire s.mem).2,
      ⟨.idle, (lockTryAcquire s.mem).1, (s.loc t).holds || (lockTryAcquire s.mem).1 = 0⟩) := by
    rw [act, hpc]
  have hself : (s.step act (t, next)).loc t =
      ⟨.idle, (lockTryAcquire s.mem).1, (s.loc t).holds || (lockTryAcquire s.mem).1 = 0⟩ := by
    rw [Threads.step_self, hstep]
  have hmem : (s.step act (t, next)).mem = (lockTryAcquire s.mem).2 := congrArg Prod.fst hstep
  rw [hmem, hself]
  by_cases hbusy : s.mem.busy = 0
  · have hret : (lockTryAcquire s.mem).1 = 0 := by rw [lockTryAcquire, if_pos hbusy]
    refine ⟨iff_of_true hret ⟨hs.free.mp hbusy, ?_⟩, fun hne => absurd hret hne⟩
    simp only [hret, decide_true, Bool.or_true]
  · have hret : lockTryAcquire s.mem = (-1, s.mem) := if_neg hbusy
    rw [hret]
    have hfailed : (-1 : Int) ≠ 0 := by decide
    refine ⟨iff_of_false hfailed fun hfree => hbusy (hs.free.mpr hfree.1), fun _ => ⟨rfl, fun u => ?_⟩⟩
    by_cases hu : u = t
    · subst hu
      rw [hself, hret]
      simp
    · rw [Threads.step_others hu]

end Exclusion

/-- **The plain lock.** After `___lock_init`, in every schedule in which only the holder releases the lock, at most one
thread holds it, `busy` says whether one does, and every try takes a free lock or changes nothing. -/
theorem plainLock_exclusive {τ : Type} [DecidableEq τ] (memory : LockT) (schedule : List (τ × Pc))
    (h : Along (Threads.Actor ByHolder) (Threads.step act) (start τ memory) schedule) :
    Throughout Exclusive (Threads.step act) (start τ memory) schedule ∧
      Along TryOk (Threads.step act) (start τ memory) schedule := by
  have hstart : (start τ memory).Invariant Busy Held :=
    ⟨none, rfl, fun t => ⟨by simp [start], fun hrelease => by cases hrelease⟩⟩
  have hrun := Threads.invariant_run noInterference hstart h
  refine ⟨hrun.mono fun _ => exclusive_of_invariant, ?_⟩
  exact Along.of_inv (I := Threads.Invariant Busy Held) (fun _ _ => Threads.invariant_step noInterference)
    (fun _ e hs _ => tryOk_of_exclusive (exclusive_of_invariant hs) e) hstart h

/-- Two threads: one holds the lock while the other polls and tries, then they change. -/
def handover : List (Bool × Pc) :=
  [(true, .acquire), (true, .idle), (false, .tryAcquire), (false, .idle), (false, .acquire), (false, .idle),
    (true, .release), (true, .idle), (false, .idle)]

theorem plainLock_handover :
    Throughout Exclusive (Threads.step act) (start Bool ⟨7⟩) handover ∧
      Along TryOk (Threads.step act) (start Bool ⟨7⟩) handover :=
  plainLock_exclusive ⟨7⟩ handover (by decide)

end Xen.Lock
