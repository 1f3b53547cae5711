import Mathlib.Data.List.Basic

/-!
# Runs of a deterministic system

A system is a step function `step : σ → ε → σ`; a run is the list of events it takes from a state.

- `Along P step s es`: every step of the run satisfies `P` in the state before it (a guard, what a step promises).
- `Throughout Q step s es`: every state of the run satisfies `Q`, the first and the last included.
- `foldl_inv`: an invariant of every step holds after the run.
- `throughout_of_along`: an invariant that every guarded step keeps holds throughout a guarded run.
- `throughout_iff_along`: when a step keeps `Q` exactly if its guard holds, `Q` holds throughout exactly if the
  whole run is guarded.
- `exists_run_of_rank`: a goal is reached if, short of it, some step that is allowed lowers a rank.
- `sumAlong`: what the steps of a run add up to; `foldl_sumAlong` is the rule for a part of the state that counts it.
- `foldl_view`: a part of the state on which every guarded step acts alone runs by itself.
- `foldl_cleared`: a part that some events clear, and no other event changes, is there unless one of them occurred.
- `foldl_origin`: what a part of the state holds was there all the time, or was delivered by an event and kept since.
- `foldl_lastSet`: a part of the state that every event sets or leaves holds what was set last (`lastSet`);
  `foldl_lastSet_along` is the same of guarded runs.
-/

namespace Lib

variable {σ ε : Type} {step : σ → ε → σ}

/-- Every step of the run satisfies `P` in the state before it. -/
def Along (P : σ → ε → Prop) (step : σ → ε → σ) : σ → List ε → Prop
  | _, [] => True
  | s, e :: es => P s e ∧ Along P step (step s e) es

/-- Every state of the run satisfies `Q`. -/
def Throughout (Q : σ → Prop) (step : σ → ε → σ) : σ → List ε → Prop
  | s, [] => Q s
  | s, e :: es => Q s ∧ Throughout Q step (step s e) es

instance {P : σ → ε → Prop} [∀ s e, Decidable (P s e)] : ∀ s es, Decidable (Along P step s es)
  | _, [] => .isTrue trivial
  | s, e :: es => @instDecidableAnd _ _ _ (instDecidableAlong (step s e) es)

instance {Q : σ → Prop} [∀ s, Decidable (Q s)] : ∀ s es, Decidable (Throughout Q step s es)
  | _, [] => inferInstanceAs (Decidable (Q _))
  | s, e :: es => @instDecidableAnd _ _ _ (instDecidableThroughout (step s e) es)

section Along

variable {P P' : σ → ε → Prop}

@[simp] theorem along_nil (s : σ) : Along P step s [] := trivial

@[simp] theorem along_cons (s : σ) (e : ε) (es : List ε) :
    Along P step s (e :: es) ↔ P s e ∧ Along P step (step s e) es := Iff.rfl

@[simp] theorem along_append : ∀ (s : σ) (es es' : List ε),
    Along P step s (es ++ es') ↔ Along P step s es ∧ Along P step (es.foldl step s) es'
  | _, [], _ => by simp
  | s, e :: es, es' => by simp [along_append (step s e) es es', and_assoc]

theorem along_of_forall (h : ∀ s e, P s e) : ∀ (s : σ) (es : List ε), Along P step s es
  | _, [] => trivial
  | s, e :: es => ⟨h s e, along_of_forall h (step s e) es⟩

theorem Along.mono (h : ∀ s e, P s e → P' s e) : ∀ {s : σ} {es : List ε}, Along P step s es → Along P' step s es
  | _, [], _ => trivial
  | _, _ :: _, ha => ⟨h _ _ ha.1, Along.mono h ha.2⟩

theorem along_congr (h : ∀ s e, P s e ↔ P' s e) {s : σ} {es : List ε} : Along P step s es ↔ Along P' step s es :=
  ⟨Along.mono fun s e => (h s e).mp, Along.mono fun s e => (h s e).mpr⟩

variable (step) in
/-- A guard on the event alone. -/
theorem along_iff_forall_mem (G : ε → Prop) (s : σ) (es : List ε) :
    Along (fun _ e => G e) step s es ↔ ∀ e ∈ es, G e := by
  induction es generalizing s with
  | nil => simp
  | cons e es ih => rw [along_cons, ih, List.forall_mem_cons]

theorem Along.and : ∀ {s : σ} {es : List ε}, Along P step s es → Along P' step s es →
    Along (fun s e => P s e ∧ P' s e) step s es
  | _, [], _, _ => trivial
  | _, _ :: _, h, h' => ⟨⟨h.1, h'.1⟩, h.2.and h'.2⟩

/-- What a guarded step promises from an invariant holds along the run. -/
theorem Along.of_inv {I : σ → Prop} (hI : ∀ s e, I s → P s e → I (step s e)) (hP : ∀ s e, I s → P s e → P' s e) :
    ∀ {s : σ} {es : List ε}, I s → Along P step s es → Along P' step s es
  | _, [], _, _ => trivial
  | _, _ :: _, hs, h => ⟨hP _ _ hs h.1, Along.of_inv hI hP (hI _ _ hs h.1) h.2⟩

end Along

section Throughout

variable {Q : σ → Prop} {G L : σ → ε → Prop}

theorem Throughout.head : ∀ {s : σ} {es : List ε}, Throughout Q step s es → Q s
  | _, [], h => h
  | _, _ :: _, h => h.1

/-- The last state of the run satisfies `Q`. -/
theorem Throughout.last : ∀ {es : List ε} {s : σ}, Throughout Q step s es → Q (es.foldl step s)
  | [], _, h => h
  | e :: es, s, h => by
    rw [List.foldl_cons]
    exact Throughout.last h.2

theorem Throughout.mono {Q' : σ → Prop} (h : ∀ s, Q s → Q' s) :
    ∀ {s : σ} {es : List ε}, Throughout Q step s es → Throughout Q' step s es
  | _, [], hq => h _ hq
  | _, _ :: _, hq => ⟨h _ hq.1, Throughout.mono h hq.2⟩

/-- **The run rule.** An invariant of every step holds after every run. -/
theorem foldl_inv (hQ : ∀ s e, Q s → Q (step s e)) {s : σ} (hs : Q s) (es : List ε) : Q (es.foldl step s) := by
  induction es generalizing s with
  | nil => exact hs
  | cons e es ih => exact ih (hQ s e hs)

/-- **The invariant rule.** An invariant that every guarded step keeps holds throughout a guarded run. -/
theorem throughout_of_along (hQ : ∀ s e, Q s → G s e → Q (step s e)) :
    ∀ {s : σ} {es : List ε}, Q s → Along G step s es → Throughout Q step s es
  | _, [], hs, _ => hs
  | _, _ :: _, hs, h => ⟨hs, throughout_of_along hQ (hQ _ _ hs h.1) h.2⟩

/-- **The exactness rule.** Let `I` be what a legal run keeps as long as `Q` holds. If a legal step keeps `Q` exactly
when its guard `G` holds, then `Q` holds throughout a legal run exactly when the whole run is guarded. -/
theorem throughout_iff_along {I : σ → Prop} (hI : ∀ s e, I s → L s e → Q s → Q (step s e) → I (step s e))
    (hG : ∀ s e, I s → L s e → Q s → (Q (step s e) ↔ G s e)) :
    ∀ {s : σ} {es : List ε}, I s → Q s → Along L step s es → (Throughout Q step s es ↔ Along G step s es)
  | _, [], _, hq, _ => by simpa [Throughout] using hq
  | s, e :: es, hi, hq, hl => by
    simp only [Throughout, along_cons, hq, true_and]
    constructor
    · intro h
      have hq' := h.head
      exact ⟨(hG s e hi hl.1 hq).mp hq',
        (throughout_iff_along hI hG (hI s e hi hl.1 hq hq') hq' hl.2).mp h⟩
    · rintro ⟨hg, h⟩
      have hq' := (hG s e hi hl.1 hq).mpr hg
      exact (throughout_iff_along hI hG (hI s e hi hl.1 hq hq') hq' hl.2).mpr h

end Throughout

/-! ## Reaching a goal -/

/-- **The rank rule.** If every state short of the goal allows an event that keeps the invariant and reaches the goal or
lowers the rank, such events reach the goal, in one step more than the rank at most. -/
theorem exists_run_of_rank (step : σ → ε → σ) (I goal : σ → Prop) (G : σ → ε → Prop) (E : ε → Prop) (rank : σ → Nat)
    (h : ∀ s, I s → ¬goal s →
      ∃ e, E e ∧ G s e ∧ I (step s e) ∧ (goal (step s e) ∨ rank (step s e) < rank s)) :
    ∀ {s : σ}, I s → ∃ es, es.length ≤ rank s + 1 ∧ (∀ e ∈ es, E e) ∧ Along G step s es ∧ I (es.foldl step s) ∧
      goal (es.foldl step s) := by
  intro s
  induction hn : rank s using Nat.strongRecOn generalizing s with
  | _ n ih =>
    intro hs
    by_cases hgoal : goal s
    · exact ⟨[], Nat.zero_le _, by simp, trivial, hs, hgoal⟩
    · obtain ⟨e, hE, hG, hI, hreached | hlt⟩ := h s hs hgoal
      · exact ⟨[e], Nat.le_add_left _ _, by simpa using hE, ⟨hG, trivial⟩, hI, hreached⟩
      · obtain ⟨es, hlen, hEs, hGs, hIs, hgoals⟩ := ih _ (hn ▸ hlt) rfl hI
        refine ⟨e :: es, ?_, List.forall_mem_cons.mpr ⟨hE, hEs⟩, ⟨hG, hGs⟩, hIs, hgoals⟩
        rw [List.length_cons]
        omega

/-! ## Sums -/

/-- What the steps of the run contribute, each in the state before it. -/
def sumAlong (w : σ → ε → Nat) (step : σ → ε → σ) : σ → List ε → Nat
  | _, [] => 0
  | s, e :: es => w s e + sumAlong w step (step s e) es

/-- **The sum rule.** A part of the state to which every guarded step adds its contribution. -/
theorem foldl_sumAlong {I : σ → Prop} {G : σ → ε → Prop} {w : σ → ε → Nat} (count : σ → Nat)
    (hI : ∀ s e, I s → G s e → I (step s e)) (hw : ∀ s e, I s → G s e → count (step s e) = count s + w s e) :
    ∀ {s : σ} {es : List ε}, I s → Along G step s es → count (es.foldl step s) = count s + sumAlong w step s es
  | _, [], _, _ => rfl
  | s, e :: es, hs, hg => by
    rw [List.foldl_cons, foldl_sumAlong count hI hw (hI s e hs hg.1) hg.2, hw s e hs hg.1, sumAlong, Nat.add_assoc]

/-! ## Views -/

section View

variable {ν : Type} {I : σ → Prop} {G : σ → ε → Prop}

/-- **The view rule.** A part of the state that every guarded step changes as `viewStep` says, by itself. -/
theorem foldl_view (view : σ → ν) (viewStep : ν → ε → ν) (hI : ∀ s e, I s → G s e → I (step s e))
    (hview : ∀ s e, I s → G s e → view (step s e) = viewStep (view s) e) :
    ∀ {s : σ} {es : List ε}, I s → Along G step s es → view (es.foldl step s) = es.foldl viewStep (view s)
  | _, [], _, _ => rfl
  | s, e :: es, hs, hg => by
    rw [List.foldl_cons, List.foldl_cons, foldl_view view viewStep hI hview (hI s e hs hg.1) hg.2, hview s e hs hg.1]

/-- **The clearing rule.** A part of the state that an event of `K` clears, and no other guarded event changes. -/
theorem foldl_cleared {K : σ → ε → Prop} [∀ s e, Decidable (K s e)] {zero : ν} (obs : σ → ν)
    (hI : ∀ s e, I s → G s e → I (step s e))
    (hobs : ∀ s e, I s → G s e → obs (step s e) = if K s e then zero else obs s) :
    ∀ {s : σ} {es : List ε}, I s → Along G step s es →
      obs (es.foldl step s) = if Along (fun s e => ¬K s e) step s es then obs s else zero
  | _, [], _, _ => (if_pos trivial).symm
  | s, e :: es, hs, hg => by
    rw [List.foldl_cons, foldl_cleared obs hI hobs (hI s e hs hg.1) hg.2, hobs s e hs hg.1]
    by_cases hk : K s e
    · simp only [along_cons, hk, not_true_eq_false, false_and, if_true, if_false, ite_self]
    · simp only [along_cons, hk, not_false_eq_true, true_and, if_false]

/-- **The origin rule.** If an event leaves a part of the state or delivers its new value, then what the part holds
after a run has been there throughout, or one event delivered it and the others behind it have left it. -/
theorem foldl_origin {D : σ → ε → ν → Prop} (obs : σ → Option ν)
    (h : ∀ s e, obs (step s e) = obs s ∨ ∃ v, obs (step s e) = some v ∧ D s e v) {v : ν} {s : σ} {es : List ε}
    (hv : obs (es.foldl step s) = some v) :
    Throughout (fun t => obs t = some v) step s es ∨ ∃ pre e post, es = pre ++ e :: post ∧ D (pre.foldl step s) e v ∧
      Throughout (fun t => obs t = some v) step (step (pre.foldl step s) e) post := by
  induction es generalizing s with
  | nil => exact Or.inl hv
  | cons e es ih =>
    rcases ih hv with hkept | ⟨pre, e', post, rfl, hd, hkept⟩
    · rcases h s e with hleft | ⟨v', hset, hd⟩
      · exact Or.inl ⟨hleft.symm.trans hkept.head, hkept⟩
      · have heq : v' = v := Option.some.inj (hset.symm.trans hkept.head)
        exact Or.inr ⟨[], e, es, rfl, heq ▸ hd, hkept⟩
    · exact Or.inr ⟨e :: pre, e', post, rfl, hd, hkept⟩

end View

/-! ## Cells -/

section Cell

variable {ν : Type} {f : ε → Option ν}

/-- The last value that an event of the list sets, where `f` says what an event sets. -/
def lastSet (f : ε → Option ν) : List ε → Option ν
  | [] => none
  | e :: es => (lastSet f es).or (f e)

/-- What is set last by one list and then another. -/
theorem lastSet_append (f : ε → Option ν) (es es' : List ε) :
    lastSet f (es ++ es') = (lastSet f es').or (lastSet f es) := by
  induction es with
  | nil => exact (Option.or_none).symm
  | cons e es ih => rw [List.cons_append, lastSet, lastSet, ih, Option.or_assoc]

/-- What is set last, seen through a function. -/
theorem lastSet_map {μ : Type} (g : ν → μ) (es : List ε) :
    lastSet (fun e => (f e).map g) es = (lastSet f es).map g := by
  induction es with
  | nil => rfl
  | cons e es ih => rw [lastSet, lastSet, ih, Option.map_or]

/-- **The cell rule.** A part of the state that every event sets or leaves holds, after a run, what was set last, or
what it held at the start. -/
theorem foldl_lastSet {I : σ → Prop} (obs : σ → Option ν) (hI : ∀ s e, I s → I (step s e))
    (hobs : ∀ s e, I s → obs (step s e) = (f e).or (obs s)) {s : σ} (hs : I s) (es : List ε) :
    obs (es.foldl step s) = (lastSet f es).or (obs s) := by
  induction es generalizing s with
  | nil => rfl
  | cons e es ih => rw [List.foldl_cons, ih (hI s e hs), hobs s e hs, lastSet, Option.or_assoc]

/-- The cell rule for a part that every state has. -/
theorem foldl_lastSet_getD (obs : σ → ν) (hobs : ∀ s e, obs (step s e) = (f e).getD (obs s)) (s : σ) (es : List ε) :
    obs (es.foldl step s) = (lastSet f es).getD (obs s) := by
  induction es generalizing s with
  | nil => rfl
  | cons e es ih =>
    rw [List.foldl_cons, ih, hobs, lastSet]
    cases lastSet f es <;> rfl

/-- The cell rule in a guarded run. -/
theorem foldl_lastSet_along {I : σ → Prop} {G : σ → ε → Prop} (obs : σ → ν) (hI : ∀ s e, I s → G s e → I (step s e))
    (hobs : ∀ s e, I s → G s e → obs (step s e) = (f e).getD (obs s)) {s : σ} {es : List ε} (hs : I s)
    (hg : Along G step s es) : obs (es.foldl step s) = (lastSet f es).getD (obs s) := by
  rw [foldl_view obs (fun x e => (f e).getD x) hI hobs hs hg]
  exact foldl_lastSet_getD id (fun _ _ => rfl) (obs s) es

end Cell

end Lib
