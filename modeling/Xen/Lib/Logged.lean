import Mathlib.Logic.Function.Basic
import Mathlib.Data.List.Basic

/-!
# Computations that log what they touch

`Logged ε α` is a value together with the events its computation emitted, oldest first. A program that reads
memory is written with it once, and then both its result (`val`) and its accesses (`log`) can be stated.

- The monad laws hold definitionally enough for `simp`: `val_bind`, `log_bind`, `val_ite`, `log_ite`.
- `Only P x` says that every event of `x` satisfies `P`; `only_bind`, `only_ite` split it along the program.
- `Iter` is the outcome of one loop iteration, `loop` iterates a logged body under a bound, `Heads` are the states
  at the head of an iteration. The rules: `loop_of_leave` and `loop_of_next` (one iteration), `Heads.inv`
  (invariants), `loop_only` (events), `loop_total` (termination by a measure), `loop_exit` (the last iteration),
  `loop_mem_log` (whose events they are), `loop_through` (known states, one after the other), `loop_congr` (another
  body that agrees at the heads).
-/

namespace Lib

/-- A value and the events emitted while computing it, oldest first. -/
@[ext] structure Logged (ε α : Type) where
  val : α
  log : List ε

namespace Logged

variable {ε α β : Type}

instance : Monad (Logged ε) where
  pure a := ⟨a, []⟩
  bind x f := ⟨(f x.val).val, x.log ++ (f x.val).log⟩

/-- Log one event. -/
def emit (e : ε) : Logged ε Unit := ⟨(), [e]⟩

@[simp] theorem val_pure (a : α) : (pure a : Logged ε α).val = a := rfl

@[simp] theorem log_pure (a : α) : (pure a : Logged ε α).log = [] := rfl

@[simp] theorem val_bind (x : Logged ε α) (f : α → Logged ε β) : (x >>= f).val = (f x.val).val := rfl

@[simp] theorem log_bind (x : Logged ε α) (f : α → Logged ε β) : (x >>= f).log = x.log ++ (f x.val).log := rfl

@[simp] theorem log_emit (e : ε) : (emit e).log = [e] := rfl

@[simp] theorem val_ite (c : Prop) [Decidable c] (x y : Logged ε α) :
    (if c then x else y).val = if c then x.val else y.val := by
  split <;> rfl

@[simp] theorem log_ite (c : Prop) [Decidable c] (x y : Logged ε α) :
    (if c then x else y).log = if c then x.log else y.log := by
  split <;> rfl

/-! ## Properties of every event -/

/-- Every event of `x` satisfies `P`. -/
def Only (P : ε → Prop) (x : Logged ε α) : Prop := ∀ e ∈ x.log, P e

variable {P : ε → Prop}

@[simp] theorem only_pure (a : α) : Only P (pure a : Logged ε α) := by simp [Only]

@[simp] theorem only_emit (e : ε) : Only P (emit e) ↔ P e := by simp [Only]

@[simp] theorem only_bind (x : Logged ε α) (f : α → Logged ε β) :
    Only P (x >>= f) ↔ Only P x ∧ Only P (f x.val) := by
  simp only [Only, log_bind, List.mem_append, or_imp, forall_and]

/-- Only the first part counts if the second emits nothing else. -/
theorem only_bind_of_only {x : Logged ε α} {f : α → Logged ε β} (h : ∀ a, Only P (f a)) :
    Only P (x >>= f) ↔ Only P x := by
  rw [only_bind]
  exact and_iff_left (h _)

@[simp] theorem only_ite (c : Prop) [Decidable c] (x y : Logged ε α) :
    Only P (if c then x else y) ↔ (c → Only P x) ∧ (¬c → Only P y) := by
  by_cases h : c <;> simp [h]

end Logged

/-! ## Loops -/

/-- The outcome of one iteration: go on from a new state, or leave the loop with a result. -/
inductive Iter (σ ρ : Type) where
  | next (s : σ)
  | leave (r : ρ)

variable {ε σ ρ : Type}

/-- The loop from `s`; `none` when `fuel` iterations do not end it. -/
def loop (body : σ → Logged ε (Iter σ ρ)) : Nat → σ → Logged ε (Option ρ)
  | 0, _ => pure none
  | fuel + 1, s => do
    match ← body s with
    | .next s' => loop body fuel s'
    | .leave r => pure (some r)

/-- The states at the head of an iteration of the loop that starts in `s`. -/
inductive Heads (body : σ → Logged ε (Iter σ ρ)) (s : σ) : σ → Prop where
  | start : Heads body s s
  | next {t t' : σ} : Heads body s t → (body t).val = .next t' → Heads body s t'

section Loop

variable {body : σ → Logged ε (Iter σ ρ)} {s t : σ} {r : ρ} {fuel : Nat}

theorem loop_next (h : (body s).val = .next t) :
    (loop body (fuel + 1) s).val = (loop body fuel t).val := by
  simp [loop, h]

theorem loop_leave (h : (body s).val = .leave r) : (loop body (fuel + 1) s).val = some r := by
  simp [loop, h]

/-- The values and events of a loop whose first iteration goes on. -/
theorem loop_eq_of_next {l : List ε} (h : body s = ⟨.next t, l⟩) :
    loop body (fuel + 1) s = ⟨(loop body fuel t).val, l ++ (loop body fuel t).log⟩ := by
  ext1 <;> simp [loop, h]

/-- The value and events of a loop whose first iteration leaves. -/
theorem loop_eq_of_leave {l : List ε} (h : body s = ⟨.leave r, l⟩) : loop body (fuel + 1) s = ⟨some r, l⟩ := by
  ext1 <;> simp [loop, h]

/-- A loop whose first iteration leaves, with the fuel for it. -/
theorem loop_of_leave {l : List ε} (h : body s = ⟨.leave r, l⟩) (hf : 0 < fuel) : loop body fuel s = ⟨some r, l⟩ := by
  obtain ⟨fuel, rfl⟩ := Nat.exists_eq_succ_of_ne_zero (Nat.ne_of_gt hf)
  exact loop_eq_of_leave h

/-- A loop whose first iteration goes on, with the fuel for `n` more. -/
theorem loop_of_next {l : List ε} {n : Nat} (h : body s = ⟨.next t, l⟩) (hf : n + 1 < fuel) :
    ∃ fuel', n < fuel' ∧ loop body fuel s = ⟨(loop body fuel' t).val, l ++ (loop body fuel' t).log⟩ := by
  obtain ⟨fuel, rfl⟩ := Nat.exists_eq_succ_of_ne_zero (Nat.ne_of_gt (Nat.zero_lt_of_lt hf))
  exact ⟨fuel, Nat.lt_of_succ_lt_succ hf, loop_eq_of_next h⟩

/-- The heads after the first iteration are heads. -/
theorem Heads.head {u : σ} (h : (body s).val = .next t) (hu : Heads body t u) : Heads body s u := by
  induction hu with
  | start => exact .next .start h
  | next _ hb ih => exact .next ih hb

/-- A head is the start or a head of the rest of the loop. -/
theorem Heads.cases_head {u : σ} (hu : Heads body s u) :
    u = s ∨ ∃ t, (body s).val = .next t ∧ Heads body t u := by
  induction hu with
  | start => exact Or.inl rfl
  | next _ hb ih =>
    rcases ih with rfl | ⟨t, ht, hu⟩
    · exact Or.inr ⟨_, hb, .start⟩
    · exact Or.inr ⟨t, ht, .next hu hb⟩

/-- An invariant of the iterations holds at every head. -/
theorem Heads.inv {I : σ → Prop} (hI : ∀ s t, I s → (body s).val = .next t → I t) (h0 : I s)
    (h : Heads body s t) : I t := by
  induction h with
  | start => exact h0
  | next _ hb ih => exact hI _ _ ih hb

/-- **Going through known states.** A loop that goes on from `f 0` to `f n` and leaves there. -/
theorem loop_through {f : Nat → σ} {n : Nat} (hnext : ∀ j < n, (body (f j)).val = .next (f (j + 1)))
    (hleave : (body (f n)).val = .leave r) (hf : n < fuel) :
    (loop body fuel (f 0)).val = some r ∧ ∀ e ∈ (loop body fuel (f 0)).log, ∃ j ≤ n, e ∈ (body (f j)).log := by
  induction n generalizing f fuel with
  | zero =>
    have hbody : body (f 0) = ⟨.leave r, (body (f 0)).log⟩ := Logged.ext hleave rfl
    rw [loop_of_leave hbody hf]
    exact ⟨rfl, fun e he => ⟨0, Nat.le_refl 0, he⟩⟩
  | succ n ih =>
    have hbody : body (f 0) = ⟨.next (f 1), (body (f 0)).log⟩ := Logged.ext (hnext 0 (Nat.succ_pos n)) rfl
    obtain ⟨fuel', hf', hloop⟩ := loop_of_next hbody hf
    obtain ⟨hval, hlog⟩ := ih (f := fun j => f (j + 1)) (fun j hj => hnext (j + 1) (Nat.succ_lt_succ hj)) hleave hf'
    rw [hloop]
    refine ⟨hval, fun e he => ?_⟩
    rcases List.mem_append.mp he with he | he
    · exact ⟨0, Nat.zero_le _, he⟩
    · obtain ⟨j, hj, he⟩ := hlog e he
      exact ⟨j + 1, Nat.succ_le_succ hj, he⟩

/-- Loops whose bodies agree at every head are the same. -/
theorem loop_congr {body' : σ → Logged ε (Iter σ ρ)} : ∀ {fuel : Nat} {s : σ},
    (∀ t, Heads body s t → body' t = body t) → loop body' fuel s = loop body fuel s
  | 0, _, _ => rfl
  | fuel + 1, s, h => by
    have hs := h s .start
    cases hb : (body s).val with
    | next t =>
      have hstep : body s = ⟨.next t, (body s).log⟩ := Logged.ext hb rfl
      rw [loop_eq_of_next hstep, loop_eq_of_next (hs.trans hstep)]
      rw [loop_congr fun u hu => h u (hu.head hb)]
    | leave r =>
      have hstep : body s = ⟨.leave r, (body s).log⟩ := Logged.ext hb rfl
      rw [loop_eq_of_leave hstep, loop_eq_of_leave (hs.trans hstep)]

/-- What every iteration's events satisfy from the invariant holds of the loop's events. -/
theorem loop_only {I : σ → Prop} {P : ε → Prop} (hI : ∀ s t, I s → (body s).val = .next t → I t)
    (hP : ∀ s, I s → (body s).Only P) : ∀ {fuel : Nat} {s : σ}, I s → (loop body fuel s).Only P
  | 0, _, _ => by simp [loop]
  | fuel + 1, s, hs => by
    rw [loop, Logged.only_bind]
    refine ⟨hP s hs, ?_⟩
    cases hb : (body s).val with
    | next t => exact loop_only hI hP (hI s t hs hb)
    | leave r => simp

/-- **Termination.** A measure that every iteration decreases bounds the number of iterations. -/
theorem loop_total {I : σ → Prop} (μ : σ → Nat) (hI : ∀ s t, I s → (body s).val = .next t → I t)
    (hμ : ∀ s t, I s → (body s).val = .next t → μ t < μ s) :
    ∀ {fuel : Nat} {s : σ}, I s → μ s < fuel → ∃ r, (loop body fuel s).val = some r
  | 0, _, _, h => absurd h (Nat.not_lt_zero _)
  | fuel + 1, s, hs, h => by
    cases hb : (body s).val with
    | next t =>
      rw [loop_next hb]
      have := hμ s t hs hb
      exact loop_total μ hI hμ (hI s t hs hb) (by omega)
    | leave r => exact ⟨r, loop_leave hb⟩

/-- A loop that ends does so in an iteration that leaves, and every head before it goes on. -/
theorem loop_exit : ∀ {fuel : Nat} {s : σ}, (loop body fuel s).val = some r →
    ∃ u, Heads body s u ∧ (body u).val = .leave r ∧
      ∀ t, Heads body s t → t = u ∨ ∃ t', (body t).val = .next t'
  | 0, _, h => by simp [loop] at h
  | fuel + 1, s, h => by
    cases hb : (body s).val with
    | next t =>
      rw [loop_next hb] at h
      obtain ⟨u, hu, hr, hall⟩ := loop_exit h
      refine ⟨u, hu.head hb, hr, fun v hv => ?_⟩
      rcases hv.cases_head with rfl | ⟨t', ht', hv⟩
      · exact Or.inr ⟨t, hb⟩
      · rw [hb, Iter.next.injEq] at ht'
        subst ht'
        exact hall v hv
    | leave r' =>
      rw [loop_leave hb, Option.some.injEq] at h
      subst h
      refine ⟨s, .start, hb, fun v hv => ?_⟩
      rcases hv.cases_head with rfl | ⟨t', ht', _⟩
      · exact Or.inl rfl
      · rw [hb] at ht'; cases ht'

/-- The events of a loop that ends are the events of the iterations at its heads. -/
theorem loop_mem_log : ∀ {fuel : Nat} {s : σ}, (loop body fuel s).val = some r → ∀ e : ε,
    e ∈ (loop body fuel s).log ↔ ∃ t, Heads body s t ∧ e ∈ (body t).log
  | 0, _, h, _ => by simp [loop] at h
  | fuel + 1, s, h, e => by
    have hlog : e ∈ (loop body (fuel + 1) s).log ↔
        e ∈ (body s).log ∨ ∃ t, (body s).val = .next t ∧ ∃ u, Heads body t u ∧ e ∈ (body u).log := by
      rw [loop, Logged.log_bind, List.mem_append]
      apply or_congr_right
      cases hb : (body s).val with
      | next t =>
        rw [loop_next hb] at h
        simp [loop_mem_log h]
      | leave r' => simp
    rw [hlog]
    constructor
    · rintro (he | ⟨t, ht, u, hu, he⟩)
      · exact ⟨s, .start, he⟩
      · exact ⟨u, hu.head ht, he⟩
    · rintro ⟨u, hu, he⟩
      rcases hu.cases_head with rfl | ⟨t, ht, hu⟩
      · exact Or.inl he
      · exact Or.inr ⟨t, ht, u, hu, he⟩

end Loop

end Lib
