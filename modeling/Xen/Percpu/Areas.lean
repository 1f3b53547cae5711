import Mathlib.Algebra.Group.Nat.Defs
import Mathlib.Data.Finset.Basic
import Xen.Lib.Runs

/-!
# Lifetime of the per-CPU areas (`percpu_verified.c`)

- `initPercpuArea`, `freePercpuArea`, `freePercpuAreaRcu` and `cpuPercpuCallback` on the offsets, the one `free_info`
  and the areas that are allocated. `call_rcu` counts the callback as pending; it runs at any later time.
- A run of one CPU is a list of `Event`s, legal (`Legal`) in the state of the CPU and of the allocator.
- `HasArea`: a CPU that is up has an allocated area that no pending callback frees.
- `initPercpuArea` returns early if the CPU still has its area, even one that a pending callback is about to free.
  `lifetime_iff`: the area stays exactly in the runs where no CPU comes up over a pending callback.
-/

namespace Xen.Percpu

open Lib

/-! ## Data model -/

/-- What is fixed at boot: the address `__per_cpu_start` and `park_offline_cpus`. -/
structure Config where
  start : Nat
  park : Bool

/-- `__per_cpu_offset`, the `cpu` of the one `free_info`, the callbacks handed to `call_rcu` that have not run, and the
addresses of the allocated areas; `up` tells whether the CPU of the run is up. -/
structure State (n : Nat) where
  perCpuOffset : Fin n → Nat
  infoCpu : Fin n
  pending : Nat
  live : Finset Nat
  up : Bool

/-- `(unsigned) INVALID_PERCPU_AREA`. -/
def invalidPercpuArea (start : Nat) : Nat := (0x8000000000000000 + 2 ^ 64 - start) % 2 ^ 64 % 2 ^ 32

/-- `CPU_UP_PREPARE`, `CPU_UP_CANCELED`, `CPU_DEAD` and `CPU_REMOVE`. -/
inductive Action where
  | upPrepare
  | upCanceled
  | dead
  | remove
deriving DecidableEq, Repr

/-! ## The functions -/

section Functions

variable {n : Nat}

/-- `percpu_init_areas` on zeroed offsets. -/
def percpuInitAreas (start : Nat) : Fin n → Nat := fun cpu => if 1 ≤ cpu.val then invalidPercpuArea start else 0

/-- `init_percpu_area`; `p` is what `alloc_xenheap_pages` returns. -/
def initPercpuArea (start : Nat) (s : State n) (cpu : Fin n) (p : Nat) : Int × State n :=
  if s.perCpuOffset cpu ≠ invalidPercpuArea start then
    (0, s)
  else if p = 0 then
    (-1, s)
  else
    (0, { s with
      perCpuOffset := Function.update s.perCpuOffset cpu ((p - start) % 2 ^ 32)
      live := insert p s.live })

/-- `free_percpu_area`. -/
def freePercpuArea (s : State n) (cpu : Fin n) : State n := { s with infoCpu := cpu, pending := s.pending + 1 }

/-- The address `_free_percpu_area` frees. -/
def freedArea (start : Nat) (s : State n) : Nat := start + s.perCpuOffset s.infoCpu

/-- `_free_percpu_area`, run for one of the pending callbacks. -/
def freePercpuAreaRcu (start : Nat) (s : State n) : State n :=
  { s with
    perCpuOffset := Function.update s.perCpuOffset s.infoCpu (invalidPercpuArea start)
    live := s.live.erase (freedArea start s)
    pending := s.pending - 1 }

/-- `notifier_from_errno` for the error `-1`. -/
def notifierFromErrno (err : Int) : Nat := 0x8000 ||| (-err).toNat

/-- `cpu_percpu_callback`. -/
def cpuPercpuCallback (cfg : Config) (s : State n) (action : Action) (cpu : Fin n) (p : Nat) : Nat × State n :=
  match action with
  | .upPrepare =>
    let r := initPercpuArea cfg.start s cpu p
    (if r.1 = 0 then 0 else notifierFromErrno r.1, r.2)
  | .upCanceled | .dead => (0, if !cfg.park then freePercpuArea s cpu else s)
  | .remove => (0, if cfg.park then freePercpuArea s cpu else s)

end Functions

/-! ## Runs of one CPU -/

/-- A hotplug event, with what the allocator would return, or the run of a pending callback. -/
inductive Event where
  | notify (action : Action) (p : Nat)
  | rcu
deriving DecidableEq, Repr

section Runs

variable {n : Nat} (cfg : Config) (cpu : Fin n)

/-- The CPU is up after the event. -/
def upAfter (s : State n) : Action → Nat → Bool
  | .upPrepare, p => (cpuPercpuCallback cfg s .upPrepare cpu p).1 = 0
  | .upCanceled, _ | .dead, _ => false
  | .remove, _ => s.up

/-- One event of the CPU. -/
def step (s : State n) : Event → State n
  | .notify action p => { (cpuPercpuCallback cfg s action cpu p).2 with up := upAfter cfg cpu s action p }
  | .rcu => freePercpuAreaRcu cfg.start s

/-- The state after `percpu_init_areas`: CPU 0 runs on the static area, which is live from the start. -/
def initial : State n :=
  ⟨percpuInitAreas cfg.start, ⟨0, cpu.pos⟩, 0, {cfg.start}, cpu.val = 0⟩

/-- A CPU comes up when it is down, goes down when it is up and is removed when it is down; a callback runs when one is
pending; the allocator fails or returns a new block less than `INT_MAX` above `__per_cpu_start`. -/
def Legal (s : State n) : Event → Prop
  | .notify .upPrepare p => s.up = false ∧ (p = 0 ∨ p ∉ s.live ∧ cfg.start < p ∧ p - cfg.start < 2 ^ 31 - 1)
  | .notify .upCanceled _ | .notify .dead _ => s.up = true
  | .notify .remove _ => s.up = false
  | .rcu => 0 < s.pending

/-- **The lifetime of the area.** A CPU that is up has an allocated area that no pending callback frees. -/
def HasArea (s : State n) : Prop :=
  s.up = true → cfg.start + s.perCpuOffset cpu ∈ s.live ∧
    ¬(0 < s.pending ∧ freedArea cfg.start s = cfg.start + s.perCpuOffset cpu)

/-- A CPU only comes up when no callback is pending. -/
def UpWhenIdle (s : State n) : Event → Prop
  | .notify .upPrepare p => s.perCpuOffset cpu ≠ invalidPercpuArea cfg.start ∨ p ≠ 0 → s.pending = 0
  | _ => True

instance (s : State n) : ∀ e : Event, Decidable (Legal cfg s e)
  | .notify .upPrepare p =>
    inferInstanceAs (Decidable (s.up = false ∧ (p = 0 ∨ p ∉ s.live ∧ cfg.start < p ∧ p - cfg.start < 2 ^ 31 - 1)))
  | .notify .upCanceled _ | .notify .dead _ => inferInstanceAs (Decidable (s.up = true))
  | .notify .remove _ => inferInstanceAs (Decidable (s.up = false))
  | .rcu => inferInstanceAs (Decidable (0 < s.pending))

instance (s : State n) : ∀ e : Event, Decidable (UpWhenIdle cfg cpu s e)
  | .notify .upPrepare p =>
    inferInstanceAs (Decidable (s.perCpuOffset cpu ≠ invalidPercpuArea cfg.start ∨ p ≠ 0 → s.pending = 0))
  | .notify .upCanceled _ | .notify .dead _ | .notify .remove _ | .rcu => .isTrue trivial

/-! ## The invariant -/

/-- An offset that is not marked invalid leads to an allocated area, and pending callbacks are about this CPU. -/
structure Inv (s : State n) : Prop where
  area : s.perCpuOffset cpu ≠ invalidPercpuArea cfg.start → cfg.start + s.perCpuOffset cpu ∈ s.live
  info : 0 < s.pending → s.infoCpu = cpu

variable {cfg cpu} {s : State n}

variable (cfg cpu s) in
/-- **Coming up.** The CPU keeps the area it has, gets none, or gets the block of the allocator. -/
theorem step_upPrepare (p : Nat) :
    (s.perCpuOffset cpu ≠ invalidPercpuArea cfg.start ∧ step cfg cpu s (.notify .upPrepare p) = { s with up := true }) ∨
    (s.perCpuOffset cpu = invalidPercpuArea cfg.start ∧ p = 0 ∧
      step cfg cpu s (.notify .upPrepare p) = { s with up := false }) ∨
    (s.perCpuOffset cpu = invalidPercpuArea cfg.start ∧ p ≠ 0 ∧ step cfg cpu s (.notify .upPrepare p) =
      { s with
        perCpuOffset := Function.update s.perCpuOffset cpu ((p - cfg.start) % 2 ^ 32)
        live := insert p s.live
        up := true }) := by
  have herr : notifierFromErrno (-1) ≠ 0 := by decide
  by_cases h : s.perCpuOffset cpu = invalidPercpuArea cfg.start
  · by_cases hp : p = 0
    · exact Or.inr (Or.inl ⟨h, hp, by simp [step, upAfter, cpuPercpuCallback, initPercpuArea, h, hp, herr]⟩)
    · exact Or.inr (Or.inr ⟨h, hp, by simp [step, upAfter, cpuPercpuCallback, initPercpuArea, h, hp]⟩)
  · exact Or.inl ⟨h, by simp [step, upAfter, cpuPercpuCallback, initPercpuArea, h]⟩

/-- The block of the allocator is where the new offset leads. -/
theorem area_of_new {p : Nat} (h : cfg.start < p) (h' : p - cfg.start < 2 ^ 31 - 1) :
    cfg.start + Function.update s.perCpuOffset cpu ((p - cfg.start) % 2 ^ 32) cpu = p := by
  rw [Function.update_self, Nat.mod_eq_of_lt (by omega)]
  omega

variable (cfg cpu s) in
/-- **Going down.** The CPU gives up nothing, or queues the callback. -/
theorem step_down {action : Action} (p : Nat) (h : action ≠ .upPrepare) :
    ∃ up, (up = true → s.up = true ∧ action = .remove) ∧
      (step cfg cpu s (.notify action p) = { s with up := up } ∨
        step cfg cpu s (.notify action p) = { freePercpuArea s cpu with up := up }) := by
  cases action with
  | upPrepare => exact absurd rfl h
  | upCanceled =>
    refine ⟨false, fun h => absurd h (by decide), ?_⟩
    cases hp : cfg.park <;> simp [step, upAfter, cpuPercpuCallback, hp]
  | dead =>
    refine ⟨false, fun h => absurd h (by decide), ?_⟩
    cases hp : cfg.park <;> simp [step, upAfter, cpuPercpuCallback, hp]
  | remove =>
    refine ⟨s.up, fun hu => ⟨hu, rfl⟩, ?_⟩
    cases hp : cfg.park <;> simp [step, upAfter, cpuPercpuCallback, hp]

/-- The property of a CPU that is up, with the invariant. -/
theorem hasArea_iff (hi : Inv cfg cpu s) (hup : s.up = true) :
    HasArea cfg cpu s ↔ cfg.start + s.perCpuOffset cpu ∈ s.live ∧ s.pending = 0 := by
  have hfreed : 0 < s.pending → freedArea cfg.start s = cfg.start + s.perCpuOffset cpu := fun h => by
    rw [freedArea, hi.info h]
  constructor
  · intro h
    obtain ⟨hlive, hno⟩ := h hup
    exact ⟨hlive, Nat.eq_zero_of_not_pos fun hp => hno ⟨hp, hfreed hp⟩⟩
  · rintro ⟨hlive, h0⟩ -
    exact ⟨hlive, fun hp => by omega⟩

/-- A CPU that is down has the property. -/
theorem hasArea_down (h : s.up = false) : HasArea cfg cpu s := fun hup => by
  rw [h] at hup
  cases hup

/-- **The invariant.** A legal event keeps it. -/
theorem inv_step {e : Event} (hi : Inv cfg cpu s) (hl : Legal cfg s e) : Inv cfg cpu (step cfg cpu s e) := by
  cases e with
  | rcu =>
    have hinfo := hi.info hl
    refine ⟨fun h => absurd ?_ h, fun _ => hinfo⟩
    simp only [step, freePercpuAreaRcu, hinfo, Function.update_self]
  | notify action p =>
    by_cases ha : action = .upPrepare
    · subst ha
      obtain ⟨-, hp⟩ := hl
      rcases step_upPrepare cfg cpu s p with ⟨h, hs⟩ | ⟨h, -, hs⟩ | ⟨h, hp0, hs⟩
      · rw [hs]
        exact ⟨hi.area, hi.info⟩
      · rw [hs]
        exact ⟨hi.area, hi.info⟩
      · rw [hs]
        obtain ⟨-, hlt, hmax⟩ := hp.resolve_left hp0
        refine ⟨fun _ => ?_, hi.info⟩
        rw [area_of_new hlt hmax]
        exact Finset.mem_insert_self p s.live
    · obtain ⟨up, -, hs | hs⟩ := step_down cfg cpu s p ha
      · rw [hs]
        exact ⟨hi.area, hi.info⟩
      · rw [hs]
        exact ⟨hi.area, fun _ => rfl⟩

/-- **One event.** Behind a legal event the CPU has its area exactly if it did not come up over a pending callback. -/
theorem hasArea_step {e : Event} (hi : Inv cfg cpu s) (hl : Legal cfg s e) (hq : HasArea cfg cpu s) :
    HasArea cfg cpu (step cfg cpu s e) ↔ UpWhenIdle cfg cpu s e := by
  have hi' := inv_step hi hl
  cases e with
  | rcu =>
    -- a callback that is pending while the CPU is up would free its area
    refine iff_of_true (hasArea_down ?_) trivial
    cases hup : s.up with
    | false => exact hup
    | true =>
      have := ((hasArea_iff hi hup).mp hq).2
      exact absurd hl (by simp only [Legal]; omega)
  | notify action p =>
    by_cases ha : action = .upPrepare
    · subst ha
      obtain ⟨hdown, hp⟩ := hl
      rcases step_upPrepare cfg cpu s p with ⟨h, hs⟩ | ⟨h, hp0, hs⟩ | ⟨h, hp0, hs⟩
      · rw [hs] at hi' ⊢
        rw [hasArea_iff hi' rfl]
        exact ⟨fun h0 _ => h0.2, fun h0 => ⟨hi.area h, h0 (Or.inl h)⟩⟩
      · rw [hs]
        exact iff_of_true (hasArea_down rfl) fun h0 => absurd hp0 (h0.resolve_left (not_not_intro h))
      · rw [hs] at hi' ⊢
        rw [hasArea_iff hi' rfl]
        obtain ⟨-, hlt, hmax⟩ := hp.resolve_left hp0
        refine ⟨fun h0 _ => h0.2, fun h0 => ⟨?_, h0 (Or.inr hp0)⟩⟩
        rw [area_of_new hlt hmax]
        exact Finset.mem_insert_self p s.live
    · have hdown : (step cfg cpu s (.notify action p)).up = false := by
        cases action with
        | upPrepare => exact absurd rfl ha
        | upCanceled | dead => rfl
        | remove => exact hl
      apply iff_of_true (hasArea_down hdown)
      cases action with
      | upPrepare => exact absurd rfl ha
      | upCanceled | dead | remove => trivial

variable (cfg cpu) in
/-- The invariant and the property hold at boot. -/
theorem initial_inv : Inv cfg cpu (initial cfg cpu) ∧ HasArea cfg cpu (initial cfg cpu) := by
  have hstatic : cpu.val = 0 → cfg.start + (initial cfg cpu).perCpuOffset cpu ∈ (initial cfg cpu).live := fun h => by
    simp [initial, percpuInitAreas, h]
  constructor
  · refine ⟨fun h => hstatic ?_, fun h => absurd h (Nat.lt_irrefl 0)⟩
    by_contra h0
    exact h (if_pos (Nat.one_le_iff_ne_zero.mpr h0))
  · intro hup
    exact ⟨hstatic (of_decide_eq_true hup), fun h => absurd h.1 (Nat.lt_irrefl 0)⟩

/-- **The lifetime of the per-CPU area.** In a legal run the CPU has an allocated area that no pending callback frees
whenever it is up, exactly if it never comes up while a callback is pending. -/
theorem lifetime_iff (cfg : Config) (cpu : Fin n) (events : List Event)
    (hl : Along (Legal cfg) (step cfg cpu) (initial cfg cpu) events) :
    Throughout (HasArea cfg cpu) (step cfg cpu) (initial cfg cpu) events ↔
      Along (UpWhenIdle cfg cpu) (step cfg cpu) (initial cfg cpu) events :=
  throughout_iff_along (fun _ _ hi hl _ _ => inv_step hi hl) (fun _ _ hi hl hq => hasArea_step hi hl hq)
    (initial_inv cfg cpu).1 (initial_inv cfg cpu).2 hl

end Runs

/-! ### Coming up over a pending callback -/

/-- Without parking, CPU 1 comes up, goes down and comes up again; `late` events happen in between. -/
def upDownUp (late : List Event) : List Event :=
  [.notify .upPrepare 8192, .notify .dead 0] ++ late ++ [.notify .upPrepare 12288]

/-- The callback of the first life is still pending in the second one. -/
theorem lifetime_counterexample :
    ¬ ∀ (n : Nat) (cfg : Config) (cpu : Fin n) (events : List Event),
      Along (Legal cfg) (step cfg cpu) (initial cfg cpu) events →
        Throughout (HasArea cfg cpu) (step cfg cpu) (initial cfg cpu) events := by
  intro h
  have hl : Along (Legal ⟨4096, false⟩) (step ⟨4096, false⟩ 1) (initial ⟨4096, false⟩ (1 : Fin 2)) (upDownUp []) := by
    decide +kernel
  have hbad := (h 2 ⟨4096, false⟩ 1 (upDownUp []) hl).last
  exact (hbad (by decide +kernel)).2 (by decide +kernel)

/-- With the callback run in between, the second life gets an area of its own. -/
theorem lifetime_rcu :
    Throughout (HasArea ⟨4096, false⟩ (1 : Fin 2)) (step ⟨4096, false⟩ 1) (initial ⟨4096, false⟩ 1)
      (upDownUp [.rcu]) :=
  (lifetime_iff ⟨4096, false⟩ 1 (upDownUp [.rcu]) (by decide +kernel)).mpr (by decide +kernel)

end Xen.Percpu
