import Mathlib.Algebra.Group.Nat.Defs
import Xen.Lib.Threads

/-!
# The recursive lock of mini-os (`lock_verified.c`)

- `lockInitRecursive`, `lockAcquireRecursive`, `lockTryAcquireRecursive` and `lockReleaseRecursive` on the owner and the
  count of the lock, for a call that no other thread interrupts.
- `tryAgrees_iff`: the try returns what the acquisition would, except to the owner of the lock, which it refuses.
- `act` is one step of such a call among any number of threads: a section that runs with interrupts disabled, or one
  read or write of the owner or of the count outside of them; `acquire_alone`, `tryAcquire_alone` and `release_alone`
  say that without interruption the steps make the call.
- `Outline` is the proof outline: what a thread knows of the lock at each point of each call. No thread interferes with
  another's (`noInterference`), so that every schedule keeps the lock to one thread (`recursiveLock_exclusive`).
- `___lock_init_recursive` does not write the count: `nests_iff` says when a fresh lock nests properly all the same.

The wait queue is initialised and woken, and never read; `BUG_ON` is empty.
-/

namespace Xen.RecursiveLock

open Lib

/-! ## The functions -/

/-- `_LOCK_RECURSIVE_T`; no owner is `NULL`, and the count is a 32-bit `int`. -/
structure LockRecursiveT (τ : Type) where
  owner : Option τ
  count : BitVec 32
deriving DecidableEq

/-- `INT_MAX`. -/
def intMax : Nat := 2147483647

section Functions

variable {τ : Type} [DecidableEq τ]

/-- `___lock_init_recursive`. -/
def lockInitRecursive (lock : LockRecursiveT τ) : Int × LockRecursiveT τ := (0, { lock with owner := none })

/-- One pass through the loop of `___lock_acquire_recursive`, and the section that follows if it breaks; `none` if it
goes round again. -/
def takeOwner (current : τ) (lock : LockRecursiveT τ) : Option (LockRecursiveT τ) :=
  if lock.owner = none then some { lock with owner := some current } else none

/-- `___lock_acquire_recursive`; `none` if it waits. -/
def lockAcquireRecursive (current : τ) (lock : LockRecursiveT τ) : Option (Int × LockRecursiveT τ) := do
  let lock ← if lock.owner ≠ some current then takeOwner current lock else some lock
  return (0, { lock with count := lock.count + 1 })

/-- `___lock_try_acquire_recursive`. -/
def lockTryAcquireRecursive (current : τ) (lock : LockRecursiveT τ) : Int × LockRecursiveT τ :=
  if lock.owner = none then (0, { lock with owner := some current, count := lock.count + 1 }) else (-1, lock)

omit [DecidableEq τ] in
/-- `___lock_release_recursive`. -/
def lockReleaseRecursive (lock : LockRecursiveT τ) : Int × LockRecursiveT τ :=
  if lock.count - 1 ≠ 0 then (0, { lock with count := lock.count - 1 })
  else (0, { lock with owner := none, count := lock.count - 1 })

end Functions

section Acquire

variable {τ : Type} [DecidableEq τ] {t : τ} {lock : LockRecursiveT τ}

/-- The owner acquires the lock once more. -/
theorem acquire_owned (h : lock.owner = some t) :
    lockAcquireRecursive t lock = some (0, { lock with count := lock.count + 1 }) := by
  simp [lockAcquireRecursive, h]

/-- A free lock is acquired. -/
theorem acquire_free (h : lock.owner = none) :
    lockAcquireRecursive t lock = some (0, ⟨some t, lock.count + 1⟩) := by
  simp [lockAcquireRecursive, takeOwner, h]

/-- **Which calls wait**: those for a lock that another thread owns. -/
theorem acquire_eq_none : lockAcquireRecursive t lock = none ↔ ¬(lock.owner = none ∨ lock.owner = some t) := by
  by_cases hfree : lock.owner = none
  · rw [acquire_free hfree]
    exact iff_of_false (fun h => by cases h) (not_not_intro (Or.inl hfree))
  by_cases howned : lock.owner = some t
  · rw [acquire_owned howned]
    exact iff_of_false (fun h => by cases h) (not_not_intro (Or.inr howned))
  · simp [lockAcquireRecursive, takeOwner, hfree, howned]

end Acquire

/-! ## Threads -/

/-- The calls. -/
inductive Call where
  | acquire
  | tryAcquire
  | release
deriving DecidableEq, Repr

/-- Between calls, or in front of a step of one: `acquire` and `release` compare the owner, `acquireLoop` and
`tryAcquire` are sections, `Load` and `Store` are the halves of `lock->count++` and `--lock->count`, and `releaseClear`
is the section that clears the owner. -/
inductive Pc where
  | idle
  | acquire
  | acquireLoop
  | acquireLoad
  | acquireStore (count : BitVec 32)
  | tryAcquire
  | release
  | releaseLoad
  | releaseStore (count : BitVec 32)
  | releaseClear
deriving DecidableEq, Repr

/-- Where a call begins. -/
def Call.entry : Call → Pc
  | .acquire => .acquire
  | .tryAcquire => .tryAcquire
  | .release => .release

/-- Where the thread is, what its last call returned, and how many of its acquisitions are not released. -/
structure Local where
  pc : Pc
  ret : Int
  held : Nat
deriving DecidableEq, Repr

section Threads

variable {τ : Type} [DecidableEq τ]

/-- The thread `t` starts a call, or makes a step of the one it is in. -/
def act (t : τ) (call : Call) (lock : LockRecursiveT τ) (l : Local) : LockRecursiveT τ × Local :=
  match l.pc with
  | .idle => (lock, { l with pc := call.entry })
  | .acquire => (lock, { l with pc := if lock.owner ≠ some t then .acquireLoop else .acquireLoad })
  | .acquireLoop =>
    match takeOwner t lock with
    | some lock' => (lock', { l with pc := .acquireLoad })
    | none => (lock, l)
  | .acquireLoad => (lock, { l with pc := .acquireStore lock.count })
  | .acquireStore count => ({ lock with count := count + 1 }, ⟨.idle, 0, l.held + 1⟩)
  | .tryAcquire =>
    let r := lockTryAcquireRecursive t lock
    (r.2, ⟨.idle, r.1, if r.1 = 0 then l.held + 1 else l.held⟩)
  | .release => (lock, { l with pc := .releaseLoad })
  | .releaseLoad => (lock, { l with pc := .releaseStore lock.count })
  | .releaseStore count =>
    ({ lock with count := count - 1 },
      if count - 1 ≠ 0 then ⟨.idle, 0, l.held - 1⟩ else { l with pc := .releaseClear })
  | .releaseClear => ({ lock with owner := none }, ⟨.idle, 0, l.held - 1⟩)

/-- Only the owner calls `___lock_release_recursive`, and nesting stays in the range of the count. -/
def Allowed (t : τ) (call : Call) (lock : LockRecursiveT τ) (l : Local) : Prop :=
  l.pc = .idle → (call = .release → lock.owner = some t) ∧ (call = .acquire → l.held < intMax)

instance (t : τ) (call : Call) (lock : LockRecursiveT τ) (l : Local) : Decidable (Allowed t call lock l) :=
  inferInstanceAs (Decidable (_ → _ ∧ _))

variable (τ) in
/-- The free lock, with no call in progress. -/
def start : Threads τ (LockRecursiveT τ) Local := ⟨⟨none, 0⟩, fun _ => ⟨.idle, 0, 0⟩⟩

end Threads

/-! ## Calls without interruption -/

section Alone

variable {τ : Type} [DecidableEq τ] {t : τ} {lock : LockRecursiveT τ} {l : Local}

/-- The thread `t` alone goes through `call`: some steps of it make `r` of the lock, and leave the thread as `l'`. -/
def Makes (t : τ) (call : Call) (lock : LockRecursiveT τ) (l : Local) (r : LockRecursiveT τ) (l' : Local) : Prop :=
  ∃ k, Threads.alone act t call k (lock, l) = (r, l')

theorem acquire_alone (hidle : l.pc = .idle) {r : Int × LockRecursiveT τ} (h : lockAcquireRecursive t lock = some r) :
    Makes t .acquire lock l r.2 ⟨.idle, r.1, l.held + 1⟩ := by
  by_cases howned : lock.owner = some t
  · rw [acquire_owned howned, Option.some.injEq] at h
    subst h
    exact ⟨4, by simp [Threads.alone, act, hidle, Call.entry, howned]⟩
  by_cases hfree : lock.owner = none
  · rw [acquire_free hfree, Option.some.injEq] at h
    subst h
    exact ⟨5, by simp [Threads.alone, act, hidle, Call.entry, takeOwner, hfree]⟩
  · rw [acquire_eq_none.mpr (not_or.mpr ⟨hfree, howned⟩)] at h
    cases h

theorem tryAcquire_alone (hidle : l.pc = .idle) : Makes t .tryAcquire lock l (lockTryAcquireRecursive t lock).2
    ⟨.idle, (lockTryAcquireRecursive t lock).1,
      if (lockTryAcquireRecursive t lock).1 = 0 then l.held + 1 else l.held⟩ :=
  ⟨2, by simp [Threads.alone, act, hidle, Call.entry]⟩

theorem release_alone (hidle : l.pc = .idle) : Makes t .release lock l (lockReleaseRecursive lock).2
    ⟨.idle, (lockReleaseRecursive lock).1, l.held - 1⟩ := by
  by_cases hcount : lock.count - 1#32 = 0#32
  · exact ⟨5, by simp [Threads.alone, act, hidle, Call.entry, lockReleaseRecursive, hcount]⟩
  · exact ⟨4, by simp [Threads.alone, act, hidle, Call.entry, lockReleaseRecursive, hcount]⟩

/-- A schedule that makes the call: its thread acts, and no other one. -/
theorem Makes.schedule {call : Call} {r : LockRecursiveT τ} {l' : Local} (h : Makes t call lock l r l')
    (s : Threads τ (LockRecursiveT τ) Local) (hlock : s.mem = lock) (hl : s.loc t = l) :
    ∃ k, (List.replicate k (t, call)).foldl (Threads.step act) s = ⟨r, Function.update s.loc t l'⟩ := by
  obtain ⟨k, hk⟩ := h
  refine ⟨k, ?_⟩
  rw [Threads.foldl_replicate, hlock, hl, hk]

end Alone

/-! ## Trying -/

/-- **The try agrees** with `___lock_acquire_recursive`: where that returns, it returns 0 and leaves the same lock, and
where that waits, it returns -1 and changes nothing. -/
structure TryAgrees {τ : Type} [DecidableEq τ] (t : τ) (lock : LockRecursiveT τ) : Prop where
  returns : ∀ r, lockAcquireRecursive t lock = some r →
    (lockTryAcquireRecursive t lock).1 = 0 ∧ (lockTryAcquireRecursive t lock).2 = r.2
  waits : lockAcquireRecursive t lock = none → lockTryAcquireRecursive t lock = (-1, lock)

/-- **The try** agrees with `___lock_acquire_recursive` exactly for a thread that does not own the lock. -/
theorem tryAgrees_iff {τ : Type} [DecidableEq τ] (t : τ) (lock : LockRecursiveT τ) :
    TryAgrees t lock ↔ lock.owner ≠ some t := by
  constructor
  · intro hok howned
    have hne : lock.owner ≠ none := fun h => by
      rw [howned] at h
      cases h
    have hret := (hok.returns _ (acquire_owned howned)).1
    rw [lockTryAcquireRecursive, if_neg hne] at hret
    have hfailed : (-1 : Int) ≠ 0 := by decide
    exact hfailed hret
  · intro hother
    by_cases hfree : lock.owner = none
    · have htry : lockTryAcquireRecursive t lock = (0, ⟨some t, lock.count + 1⟩) := if_pos hfree
      refine ⟨fun r hr => ?_, fun hwait => ?_⟩
      · rw [acquire_free hfree, Option.some.injEq] at hr
        rw [htry, ← hr]
        exact ⟨rfl, rfl⟩
      · exact absurd (Or.inl hfree) (acquire_eq_none.mp hwait)
    · have hwait := acquire_eq_none.mpr (not_or.mpr ⟨hfree, hother⟩)
      refine ⟨fun r hr => ?_, fun _ => if_neg hfree⟩
      rw [hwait] at hr
      cases hr

/-- A thread that tries a lock it owns already. -/
theorem tryAgrees_counterexample : ¬ ∀ (t : Bool) (lock : LockRecursiveT Bool), TryAgrees t lock := by
  intro h
  have hret := ((h true ⟨some true, 1⟩).returns _ (acquire_owned rfl)).1
  exact absurd hret (by decide)

/-! ## The count -/

section Count

theorem count_succ (n : Nat) : BitVec.ofNat 32 n + 1 = BitVec.ofNat 32 (n + 1) :=
  (BitVec.ofNat_add n 1).symm

theorem count_pred {n : Nat} (h : 0 < n) : BitVec.ofNat 32 n - 1 = BitVec.ofNat 32 (n - 1) := by
  obtain ⟨m, rfl⟩ := Nat.exists_eq_add_of_lt h
  rw [Nat.zero_add, ← count_succ, Nat.add_sub_cancel]
  exact BitVec.add_sub_cancel _ _

theorem count_toInt {n : Nat} (h : n ≤ intMax) : (BitVec.ofNat 32 n).toInt = n := by
  have hlt : n < 4294967296 := Nat.lt_of_le_of_lt h (by decide)
  have hnat : (BitVec.ofNat 32 n).toNat = n := by rw [BitVec.toNat_ofNat, Nat.mod_eq_of_lt hlt]
  rw [BitVec.toInt_eq_toNat_of_lt ?_, hnat]
  rw [hnat]
  unfold intMax at h
  omega

theorem count_eq_zero {n : Nat} (h : n ≤ intMax) : BitVec.ofNat 32 n = 0 ↔ n = 0 := by
  constructor
  · intro h0
    have hint := count_toInt h
    rw [h0] at hint
    exact Int.ofNat.inj hint.symm
  · rintro rfl
    rfl

end Count

/-! ## The proof outline -/

section Outline

variable {τ : Type}

/-- The thread `t` owns the lock, and `n` of its acquisitions are counted. -/
def Mine (t : τ) (lock : LockRecursiveT τ) (n : Nat) : Prop := lock.owner = some t ∧ lock.count = BitVec.ofNat 32 n

/-- What `t` knows between two calls: the lock is its own if it has acquired it `n > 0` times. -/
def Rest (t : τ) (lock : LockRecursiveT τ) (n : Nat) : Prop := (0 < n ∧ Mine t lock n) ∨ (n = 0 ∧ lock.owner ≠ some t)

/-- What `t` knows at a point of a call. -/
def At (t : τ) (lock : LockRecursiveT τ) (n : Nat) : Pc → Prop
  | .idle | .tryAcquire => Rest t lock n
  | .acquire => Rest t lock n ∧ n < intMax
  | .acquireLoop => n = 0 ∧ lock.owner ≠ some t
  | .acquireLoad => Mine t lock n ∧ n < intMax
  | .acquireStore count => Mine t lock n ∧ n < intMax ∧ count = BitVec.ofNat 32 n
  | .release | .releaseLoad => Mine t lock n ∧ 0 < n
  | .releaseStore count => Mine t lock n ∧ 0 < n ∧ count = BitVec.ofNat 32 n
  | .releaseClear => Mine t lock 0 ∧ n = 1

/-- **The proof outline** of the thread `t`. -/
structure Outline (_ : Unit) (t : τ) (lock : LockRecursiveT τ) (l : Local) : Prop where
  bound : l.held ≤ intMax
  here : At t lock l.held l.pc

/-- A lock without an owner has the count 0. -/
def FreeCount (_ : Unit) (lock : LockRecursiveT τ) : Prop := lock.owner = none → lock.count = 0

variable {t u : τ} {lock lock' : LockRecursiveT τ} {l k : Local} {n : Nat}

theorem Rest.others (h : Rest u lock n) (hold : lock.owner ≠ some u) (hnew : lock'.owner ≠ some u) :
    Rest u lock' n := by
  rcases h with ⟨-, hmine⟩ | ⟨hn, -⟩
  · exact absurd hmine.1 hold
  · exact Or.inr ⟨hn, hnew⟩

/-- A thread that does not own the lock does not notice that another one writes to it. -/
theorem Outline.others (h : Outline () u lock k) (hold : lock.owner ≠ some u) (hnew : lock'.owner ≠ some u) :
    Outline () u lock' k := by
  refine ⟨h.bound, ?_⟩
  have hhere := h.here
  cases hpc : k.pc <;> rw [hpc] at hhere
  case idle => exact Rest.others hhere hold hnew
  case tryAcquire => exact Rest.others hhere hold hnew
  case acquire => exact ⟨Rest.others hhere.1 hold hnew, hhere.2⟩
  case acquireLoop => exact ⟨hhere.1, hnew⟩
  all_goals exact absurd hhere.1.1 hold

/-- The owner's writes are not noticed by the others. -/
theorem others_of_mine (hmine : Mine t lock n) (hnew : lock'.owner = some t ∨ lock'.owner = none) :
    ∀ u k, u ≠ t → Outline () u lock k → Outline () u lock' k := by
  intro u k hu h
  refine h.others ?_ ?_
  · rw [hmine.1]
    exact fun he => hu (Option.some.inj he).symm
  · rcases hnew with hnew | hnew <;> rw [hnew]
    · exact fun he => hu (Option.some.inj he).symm
    · exact fun he => by cases he

/-- Taking the free lock is not noticed by the others. -/
theorem others_of_free (hfree : lock.owner = none) (hnew : lock'.owner = some t) :
    ∀ u k, u ≠ t → Outline () u lock k → Outline () u lock' k := by
  intro u k hu h
  refine h.others ?_ ?_
  · rw [hfree]
    exact fun he => by cases he
  · rw [hnew]
    exact fun he => hu (Option.some.inj he).symm

/-- A thread that finds the lock free has not acquired it. -/
theorem Rest.of_free (h : Rest t lock n) (hfree : lock.owner = none) : n = 0 := by
  rcases h with ⟨-, hmine⟩ | ⟨hn, -⟩
  · have howner := hmine.1
    rw [hfree] at howner
    cases howner
  · exact hn

/-- What the thread knows lets it start the calls it is allowed to. -/
theorem Rest.entry {call : Call} (h : Rest t lock n) (hrelease : call = .release → lock.owner = some t)
    (hacquire : call = .acquire → n < intMax) : At t lock n call.entry := by
  cases call with
  | acquire => exact ⟨h, hacquire rfl⟩
  | tryAcquire => exact h
  | release =>
    rcases h with ⟨hn, hmine⟩ | ⟨-, hother⟩
    · exact ⟨hmine, hn⟩
    · exact absurd (hrelease rfl) hother

/-- What a step of `t` makes of the lock and of its local state keeps the count of a free lock and what every thread
knows. -/
def Keeps (t : τ) (lock : LockRecursiveT τ) (r : LockRecursiveT τ × Local) : Prop :=
  FreeCount () r.1 ∧ Outline () t r.1 r.2 ∧ ∀ u k, u ≠ t → Outline () u lock k → Outline () u r.1 k

/-- A step that does not write to the lock. -/
theorem keeps_read (hfree : FreeCount () lock) (hown : Outline () t lock l) : Keeps t lock (lock, l) :=
  ⟨hfree, hown, fun _ _ _ hk => hk⟩

/-- A step of the owner that writes to the count. -/
theorem keeps_write (hmine : Mine t lock n) (howner : lock'.owner = some t) (hown : Outline () t lock' l) :
    Keeps t lock (lock', l) := by
  refine ⟨fun hnone => ?_, hown, others_of_mine hmine (Or.inl howner)⟩
  rw [howner] at hnone
  cases hnone

/-- A step that takes the free lock. -/
theorem keeps_take (hfree : lock.owner = none) (howner : lock'.owner = some t) (hown : Outline () t lock' l) :
    Keeps t lock (lock', l) := by
  refine ⟨fun hnone => ?_, hown, others_of_free hfree howner⟩
  rw [howner] at hnone
  cases hnone

/-- What the owner knows behind its decrement: whether it was the last one. -/
theorem outline_release (hbound : l.held ≤ intMax) (howner : lock.owner = some t) (hpos : 0 < l.held)
    (hcount : lock.count = BitVec.ofNat 32 (l.held - 1)) :
    Outline () t lock (if lock.count ≠ 0 then ⟨.idle, 0, l.held - 1⟩ else { l with pc := .releaseClear }) := by
  have hpred : l.held - 1 ≤ intMax := Nat.le_trans (Nat.sub_le _ _) hbound
  by_cases h1 : l.held - 1 = 0
  · have h0 : lock.count = 0 := hcount.trans ((count_eq_zero hpred).mpr h1)
    have hlast : l.held = 1 := by omega
    rw [if_neg (not_not_intro h0)]
    exact ⟨hbound, ⟨howner, h0⟩, hlast⟩
  · have h0 : lock.count ≠ 0 := fun h0 => h1 ((count_eq_zero hpred).mp (hcount.symm.trans h0))
    rw [if_pos h0]
    exact ⟨hpred, Or.inl ⟨Nat.pos_of_ne_zero h1, howner, hcount⟩⟩

/-- **No step interferes** with what another thread knows. -/
theorem noInterference [DecidableEq τ] : Threads.NoInterference (τ := τ) act FreeCount Outline Allowed := by
  intro _ t call lock l hfree h hallowed
  obtain ⟨hbound, hhere⟩ := h
  refine ⟨(), ?_⟩
  show Keeps t lock (act t call lock l)
  unfold act
  cases hpc : l.pc <;> rw [hpc] at hhere <;> dsimp only
  case idle =>
    obtain ⟨hrelease, hacquire⟩ := hallowed hpc
    exact keeps_read hfree ⟨hbound, Rest.entry hhere hrelease hacquire⟩
  case acquire =>
    obtain ⟨hrest, hlt⟩ := hhere
    apply keeps_read hfree
    rcases hrest with ⟨-, hmine⟩ | ⟨h0, hother⟩
    · rw [if_neg (not_not_intro hmine.1)]
      exact ⟨hbound, hmine, hlt⟩
    · rw [if_pos hother]
      exact ⟨hbound, h0, hother⟩
  case acquireLoop =>
    by_cases howner : lock.owner = none
    · simp only [takeOwner, if_pos howner]
      refine keeps_take howner rfl ⟨hbound, ⟨rfl, ?_⟩, ?_⟩
      · simp only [hhere.1]
        exact hfree howner
      · simp only [hhere.1]
        decide
    · simp only [takeOwner, if_neg howner]
      exact keeps_read hfree ⟨hbound, by rw [hpc]; exact hhere⟩
  case acquireLoad => exact keeps_read hfree ⟨hbound, hhere.1, hhere.2, hhere.1.2⟩
  case acquireStore count =>
    obtain ⟨hmine, hlt, rfl⟩ := hhere
    exact keeps_write hmine hmine.1 ⟨hlt, Or.inl ⟨Nat.succ_pos _, hmine.1, count_succ _⟩⟩
  case tryAcquire =>
    by_cases howner : lock.owner = none
    · have h0 := Rest.of_free hhere howner
      simp only [lockTryAcquireRecursive, if_pos howner, if_true, h0, hfree howner]
      exact keeps_take howner rfl ⟨by decide, Or.inl ⟨Nat.one_pos, rfl, rfl⟩⟩
    · simp only [lockTryAcquireRecursive, if_neg howner]
      exact keeps_read hfree ⟨hbound, hhere⟩
  case release => exact keeps_read hfree ⟨hbound, hhere⟩
  case releaseLoad => exact keeps_read hfree ⟨hbound, hhere.1, hhere.2, hhere.1.2⟩
  case releaseStore count =>
    obtain ⟨hmine, hpos, rfl⟩ := hhere
    exact keeps_write hmine hmine.1 (outline_release hbound hmine.1 hpos (count_pred hpos))
  case releaseClear =>
    obtain ⟨hmine, h1⟩ := hhere
    refine ⟨fun _ => hmine.2, ⟨?_, Or.inr ⟨?_, fun hnone => by cases hnone⟩⟩, others_of_mine hmine (Or.inr rfl)⟩
    · exact Nat.le_trans (Nat.sub_le _ _) hbound
    · simp only [h1]

/-- The lock is the thread's own from its first acquisition to its last release. -/
theorem Outline.owner (h : Outline () t lock l) (hheld : 0 < l.held) : lock.owner = some t := by
  have hhere := h.here
  have hrest : Rest t lock l.held → lock.owner = some t := fun hrest => by
    rcases hrest with ⟨-, hmine⟩ | ⟨h0, -⟩
    · exact hmine.1
    · omega
  cases hpc : l.pc <;> rw [hpc] at hhere
  case idle => exact hrest hhere
  case tryAcquire => exact hrest hhere
  case acquire => exact hrest hhere.1
  case acquireLoop => exact absurd hhere.1 (Nat.pos_iff_ne_zero.mp hheld)
  all_goals exact hhere.1.1

/-- **The lock works.** At most one thread holds it. When no call is in progress, it has no owner exactly if its count
is 0, and otherwise the count is the number of its owner's acquisitions that are not released. -/
structure LockOk (s : Threads τ (LockRecursiveT τ) Local) : Prop where
  one : ∀ t u, 0 < (s.loc t).held → 0 < (s.loc u).held → t = u
  free : (∀ t, (s.loc t).pc = .idle) → (s.mem.owner = none ↔ s.mem.count = 0)
  count : (∀ t, (s.loc t).pc = .idle) → ∀ t, s.mem.owner = some t → s.mem.count.toInt = (s.loc t).held

theorem lockOk_of_outline {s : Threads τ (LockRecursiveT τ) Local} (hs : s.Invariant FreeCount Outline) : LockOk s := by
  obtain ⟨⟨⟩, hfree, hloc⟩ := hs
  have hmine : (∀ t, (s.loc t).pc = .idle) → ∀ t, s.mem.owner = some t →
      0 < (s.loc t).held ∧ s.mem.count = BitVec.ofNat 32 (s.loc t).held := by
    intro hidle t howner
    have hhere := (hloc t).here
    rw [hidle t] at hhere
    rcases hhere with ⟨hpos, hmine⟩ | ⟨-, hother⟩
    · exact ⟨hpos, hmine.2⟩
    · exact absurd howner hother
  refine ⟨fun t u ht hu => ?_, fun hidle => ⟨hfree, fun hcount => ?_⟩, fun hidle t howner => ?_⟩
  · exact Option.some.inj (((hloc t).owner ht).symm.trans ((hloc u).owner hu))
  · cases howner : s.mem.owner with
    | none => rfl
    | some t =>
      obtain ⟨hpos, hheld⟩ := hmine hidle t howner
      rw [hcount] at hheld
      exact absurd ((count_eq_zero (hloc t).bound).mp hheld.symm) (Nat.pos_iff_ne_zero.mp hpos)
  · rw [(hmine hidle t howner).2, count_toInt (hloc t).bound]

end Outline

/-- **The recursive lock.** From the free lock, in every schedule in which only the owner releases it and nesting stays
in the range of the count, the lock works throughout. -/
theorem recursiveLock_exclusive {τ : Type} [DecidableEq τ] (schedule : List (τ × Call))
    (h : Along (Threads.Actor Allowed) (Threads.step act) (start τ) schedule) :
    Throughout LockOk (Threads.step act) (start τ) schedule := by
  have hstart : (start τ).Invariant FreeCount Outline :=
    ⟨(), fun _ => rfl, fun t => ⟨Nat.zero_le _, Or.inr ⟨rfl, fun hnone => by cases hnone⟩⟩⟩
  exact (Threads.invariant_run noInterference hstart h).mono fun _ => lockOk_of_outline

/-- Two threads: one acquires the lock twice while the other waits for it, and releases it. -/
def nestedHandover : List (Bool × Call) :=
  List.replicate 5 (true, .acquire) ++ [(false, .acquire), (false, .acquire), (false, .acquire)] ++
    List.replicate 4 (true, .acquire) ++ List.replicate 9 (true, .release) ++ List.replicate 4 (false, .acquire)

theorem recursiveLock_nestedHandover : Throughout LockOk (Threads.step act) (start Bool) nestedHandover :=
  recursiveLock_exclusive nestedHandover (by decide)

/-! ## Nesting -/

section Nesting

variable {τ : Type} [DecidableEq τ]

/-- `n` calls of `___lock_acquire_recursive` by the thread `t`, which is alone. -/
def acquireTimes (t : τ) : (n : Nat) → LockRecursiveT τ → Option (LockRecursiveT τ)
  | 0, lock => some lock
  | n + 1, lock => (lockAcquireRecursive t lock).bind fun r => acquireTimes t n r.2

omit [DecidableEq τ] in
/-- `n` calls of `___lock_release_recursive`. -/
def releaseTimes : (n : Nat) → LockRecursiveT τ → LockRecursiveT τ
  | 0, lock => lock
  | n + 1, lock => (lockReleaseRecursive (releaseTimes n lock)).2

/-- **Nesting.** On a lock initialised in `memory`, `n` acquisitions by `t` and as many releases leave the lock free,
and before the last of the releases `t` still owns it. -/
def Nests (t : τ) (n : Nat) (memory : LockRecursiveT τ) : Prop :=
  ∃ taken, acquireTimes t n (lockInitRecursive memory).2 = some taken ∧ releaseTimes n taken = ⟨none, 0⟩ ∧
    ∀ k < n, (releaseTimes k taken).owner = some t

variable {t : τ} {lock : LockRecursiveT τ}

/-- The lock is free for `t`, or its own. -/
theorem lockAcquireRecursive_some (h : lock.owner = none ∨ lock.owner = some t) :
    lockAcquireRecursive t lock = some (0, ⟨some t, lock.count + 1⟩) := by
  rcases h with hfree | howned
  · exact acquire_free hfree
  · rw [acquire_owned howned, howned]

/-- The acquisitions are counted from what the count was. -/
theorem acquireTimes_succ (h : lock.owner = none ∨ lock.owner = some t) (n : Nat) :
    acquireTimes t (n + 1) lock = some ⟨some t, lock.count + BitVec.ofNat 32 (n + 1)⟩ := by
  induction n generalizing lock with
  | zero =>
    rw [acquireTimes, lockAcquireRecursive_some h]
    rfl
  | succ n ih =>
    rw [acquireTimes, lockAcquireRecursive_some h, Option.bind_some, ih (Or.inr rfl)]
    simp only [BitVec.add_assoc, BitVec.add_comm 1, count_succ]

omit [DecidableEq τ] in
/-- Every release counts down, whoever owns the lock. -/
theorem releaseTimes_count (lock : LockRecursiveT τ) (n : Nat) :
    (releaseTimes n lock).count + BitVec.ofNat 32 n = lock.count := by
  induction n with
  | zero => exact BitVec.add_zero _
  | succ n ih =>
    have hcount : (releaseTimes (n + 1) lock).count = (releaseTimes n lock).count - 1 := by
      rw [releaseTimes, lockReleaseRecursive]
      split <;> rfl
    rw [hcount, ← count_succ, BitVec.add_comm _ 1, ← BitVec.add_assoc, BitVec.sub_add_cancel]
    exact ih

omit [DecidableEq τ] in
/-- From a count of `n`, the owner stays until the last release. -/
theorem releaseTimes_owner {n k : Nat} (hn : n ≤ intMax) (hk : k < n) :
    releaseTimes k ⟨some t, BitVec.ofNat 32 n⟩ = ⟨some t, BitVec.ofNat 32 (n - k)⟩ := by
  induction k with
  | zero => rfl
  | succ k ih =>
    have hpred : BitVec.ofNat 32 (n - k) - 1 = BitVec.ofNat 32 (n - (k + 1)) := count_pred (by omega)
    have hne : BitVec.ofNat 32 (n - (k + 1)) ≠ 0 := fun h0 => by
      have := (count_eq_zero (by omega)).mp h0
      omega
    rw [releaseTimes, ih (by omega), lockReleaseRecursive, hpred, if_pos hne]

/-- As many releases as acquisitions leave the count that the memory held. -/
theorem Nests.count_eq_zero {memory : LockRecursiveT τ} {n : Nat} (h : Nests t n memory) (h1 : 1 ≤ n) :
    memory.count = 0 := by
  obtain ⟨m, rfl⟩ : ∃ m, n = m + 1 := ⟨n - 1, by omega⟩
  obtain ⟨taken, hacquired, hreleased, -⟩ := h
  have hfree : (lockInitRecursive memory).2.owner = none ∨ (lockInitRecursive memory).2.owner = some t := Or.inl rfl
  rw [acquireTimes_succ hfree m, Option.some.injEq] at hacquired
  have hcount := releaseTimes_count taken (m + 1)
  rw [hreleased, ← hacquired] at hcount
  exact (BitVec.add_left_inj _).mp hcount.symm

/-- **Which fresh locks nest.** Those in a memory where the count happens to be 0. -/
theorem nests_iff (t : τ) (memory : LockRecursiveT τ) {n : Nat} (h1 : 1 ≤ n) (hn : n < intMax) :
    Nests t n memory ↔ memory.count = 0 := by
  constructor
  · intro h
    exact h.count_eq_zero h1
  · intro h0
    obtain ⟨m, rfl⟩ : ∃ m, n = m + 1 := ⟨n - 1, by omega⟩
    have hfree : (lockInitRecursive memory).2.owner = none ∨ (lockInitRecursive memory).2.owner = some t := Or.inl rfl
    have htaken := acquireTimes_succ hfree m
    have hcount : (lockInitRecursive memory).2.count = 0 := h0
    have hzero : 0 + BitVec.ofNat 32 (m + 1) = BitVec.ofNat 32 (m + 1) := BitVec.zero_add _
    rw [hcount, hzero] at htaken
    refine ⟨_, htaken, ?_, fun k hk => ?_⟩
    · rw [releaseTimes, releaseTimes_owner (Nat.le_of_lt hn) (Nat.lt_succ_self m), Nat.add_sub_cancel_left]
      simp [lockReleaseRecursive]
    · rw [releaseTimes_owner (Nat.le_of_lt hn) hk]

theorem nests_three : Nests true 3 ⟨some false, 0⟩ := (nests_iff true ⟨some false, 0⟩ (by decide) (by decide)).mpr rfl

/-- In memory that holds 5, the lock is never given back. -/
theorem nests_counterexample : ¬ ∀ (τ : Type) [DecidableEq τ] (t : τ) (memory : LockRecursiveT τ) (n : Nat), 1 ≤ n →
    n < intMax → Nests t n memory := by
  intro h
  have hcount := (h Unit () ⟨none, 5⟩ 1 (by decide) (by decide)).count_eq_zero (Nat.le_refl 1)
  exact absurd hcount (by decide)

end Nesting

end Xen.RecursiveLock
