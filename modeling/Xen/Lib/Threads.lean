import Mathlib.Logic.Function.Basic
import Xen.Lib.Runs

/-!
# Threads over a shared memory

Threads are named by any type `τ`; each has a local state of its own, and all share a memory. What a thread does next
is a function `act` of its name, an input, the memory and its local state. A schedule is a list of threads with their
inputs, so that a run of `Threads.step` is one interleaving.

- `Threads.Invariant J I`: the memory's invariant `J` and every thread's assertion `I` hold for some value of an
  auxiliary variable.
- `Threads.invariant_step`: if a thread's own step keeps `J` and its own `I`, and does not interfere with the other
  threads' (`Threads.NoInterference`), all of them stay true; `Threads.invariant_run` is the rule for schedules.
- `Threads.step_others`: a step leaves the local states of the other threads; `Threads.alone` is what a thread does that
  no other one interrupts.
-/

namespace Lib

variable {τ σ π ι γ : Type}

/-- The shared memory, and the local state of every thread. -/
structure Threads (τ σ π : Type) where
  mem : σ
  loc : τ → π

namespace Threads

/-- What is asked of the thread that acts. -/
def Actor (G : τ → ι → σ → π → Prop) (s : Threads τ σ π) (e : τ × ι) : Prop := G e.1 e.2 s.mem (s.loc e.1)

instance {G : τ → ι → σ → π → Prop} [∀ t i m l, Decidable (G t i m l)] (s : Threads τ σ π) (e : τ × ι) :
    Decidable (Actor G s e) := inferInstanceAs (Decidable (G _ _ _ _))

variable [DecidableEq τ] (act : τ → ι → σ → π → σ × π)

/-! ## Steps -/

/-- One step of the thread `e.1`. -/
def step (s : Threads τ σ π) (e : τ × ι) : Threads τ σ π where
  mem := (act e.1 e.2 s.mem (s.loc e.1)).1
  loc := Function.update s.loc e.1 (act e.1 e.2 s.mem (s.loc e.1)).2

variable {act}

@[simp] theorem step_self (s : Threads τ σ π) (t : τ) (i : ι) :
    (s.step act (t, i)).loc t = (act t i s.mem (s.loc t)).2 := Function.update_self ..

theorem step_others {s : Threads τ σ π} {t u : τ} {i : ι} (h : u ≠ t) : (s.step act (t, i)).loc u = s.loc u :=
  Function.update_of_ne h ..

/-! ## A thread alone -/

variable (act) in
/-- What `k` steps of `t` alone make of the memory and its local state. -/
def alone (t : τ) (i : ι) : (k : Nat) → σ × π → σ × π
  | 0, x => x
  | k + 1, x => alone t i k (act t i x.1 x.2)

/-- A schedule in which only `t` acts. -/
theorem foldl_replicate (t : τ) (i : ι) (k : Nat) (s : Threads τ σ π) :
    (List.replicate k (t, i)).foldl (step act) s =
      ⟨(alone act t i k (s.mem, s.loc t)).1, Function.update s.loc t (alone act t i k (s.mem, s.loc t)).2⟩ := by
  induction k generalizing s with
  | zero => simp [alone]
  | succ k ih =>
    rw [List.replicate_succ, List.foldl_cons, ih, step_self]
    simp only [alone, step, Function.update_idem]

/-! ## Non-interference -/

section Rule

variable {J : γ → σ → Prop} {I : γ → τ → σ → π → Prop} {G : τ → ι → σ → π → Prop}

/-- For some value of the auxiliary variable, the invariant `J` of the memory and the assertion `I` of every thread. -/
def Invariant (J : γ → σ → Prop) (I : γ → τ → σ → π → Prop) (s : Threads τ σ π) : Prop :=
  ∃ g, J g s.mem ∧ ∀ t, I g t s.mem (s.loc t)

variable (act J I G) in
/-- A step of `t` keeps the invariant of the memory and `t`'s assertion, and interferes with no other thread's. -/
def NoInterference : Prop :=
  ∀ g t i m l, J g m → I g t m l → G t i m l →
    ∃ g', J g' (act t i m l).1 ∧ I g' t (act t i m l).1 (act t i m l).2 ∧
      ∀ u k, u ≠ t → I g u m k → I g' u (act t i m l).1 k

/-- **One step** keeps an invariant without interference. -/
theorem invariant_step (h : NoInterference act J I G) {s : Threads τ σ π} {e : τ × ι} (hs : s.Invariant J I)
    (hg : Actor G s e) : (s.step act e).Invariant J I := by
  obtain ⟨g, hmem, hloc⟩ := hs
  obtain ⟨t, i⟩ := e
  obtain ⟨g', hmem', hown, hothers⟩ := h g t i s.mem (s.loc t) hmem (hloc t) hg
  refine ⟨g', hmem', ?_⟩
  intro u
  by_cases hu : u = t
  · subst hu
    rw [step_self]
    exact hown
  · rw [step_others hu]
    exact hothers u (s.loc u) hu (hloc u)

/-- **Every schedule** keeps it. -/
theorem invariant_run (h : NoInterference act J I G) {s : Threads τ σ π} {schedule : List (τ × ι)}
    (hs : s.Invariant J I) (hg : Along (Actor G) (step act) s schedule) :
    Throughout (Invariant J I) (step act) s schedule :=
  throughout_of_along (fun _ _ => invariant_step h) hs hg

end Rule

end Threads

end Lib
