import Mathlib.Logic.Function.Basic
import Xen.Lib.Runs

/-!
# Atomic objects

Threads make calls on a shared object. What a call is worth is said by a sequential specification: `spec t c a` is what
the call `c` of the thread `t` returns and leaves in the state `a`, and `none` if it waits there.

- `Atomic` is the object with the status of every thread; a `Step` of it is a call, the instant at which a call takes
  effect, or a return. A `Trace` is a run with the calls and returns that are seen from outside.
- `Linearizes`: a history of calls and returns comes from a sequential run of the object, every prefix of the one from
  a prefix of the other, so that a call which returns before another one starts also comes first in the sequential run.
- `Trace.linearizes`: what is seen of an atomic object is linearizable.
- `trace_of_refinement`: a system is seen as an atomic object if every step of it is one or several of the object's.
-/

namespace Lib

variable {τ κ ρ α σ ε : Type}

/-! ## Histories -/

/-- What is seen of a thread. -/
inductive Event (κ ρ : Type) where
  | call (c : κ)
  | ret (r : ρ)
deriving DecidableEq, Repr

/-- What a run emits, step by step. -/
def history {β : Type} (out : σ → ε → List β) (step : σ → ε → σ) : σ → List ε → List β
  | _, [] => []
  | s, e :: es => out s e ++ history out step (step s e) es

section Of

variable [DecidableEq τ] {β : Type}

/-- The part of a history that is `t`'s. -/
def ofThread (t : τ) (l : List (τ × β)) : List β := (l.filter fun e => e.1 = t).map Prod.snd

@[simp] theorem ofThread_nil (t : τ) : ofThread t ([] : List (τ × β)) = [] := rfl

@[simp] theorem ofThread_append (t : τ) (l l' : List (τ × β)) :
    ofThread t (l ++ l') = ofThread t l ++ ofThread t l' := by
  simp [ofThread]

@[simp] theorem ofThread_self (t : τ) (l : List β) : ofThread t (l.map (Prod.mk t)) = l := by
  simp [ofThread, List.filter_map, Function.comp_def]

theorem ofThread_others {t u : τ} (h : u ≠ t) (l : List β) : ofThread u (l.map (Prod.mk t)) = [] := by
  simp [ofThread, List.filter_map, Function.comp_def, Ne.symm h]

end Of

/-- A thread between two calls, with a call that has not taken effect, or with one that has and has not returned. -/
inductive Status (κ ρ : Type) where
  | idle
  | pending (c : κ)
  | done (c : κ) (r : ρ)
deriving DecidableEq, Repr

/-- A call that returns. -/
def performed (op : κ × ρ) : List (Event κ ρ) := [.call op.1, .ret op.2]

/-- What is seen of a thread whose calls `ops` took effect. -/
def Seen (ops : List (κ × ρ)) (es : List (Event κ ρ)) : Status κ ρ → Prop
  | .idle => es = ops.flatMap performed
  | .pending c => es = ops.flatMap performed ++ [.call c]
  | .done c r => ∃ before, ops = before ++ [(c, r)] ∧ es = before.flatMap performed ++ [.call c]

section Object

variable (spec : τ → κ → α → Option (ρ × α))

/-- The calls `ops`, one after the other, lead from `a` to `a'` and return what they say. -/
def Sequential : α → List (τ × κ × ρ) → α → Prop
  | a, [], a' => a = a'
  | a, (t, c, r) :: ops, a' => ∃ b, spec t c a = some (r, b) ∧ Sequential b ops a'

variable {spec} in
theorem Sequential.snoc {t : τ} {c : κ} {r : ρ} {b a' : α} (hstep : spec t c b = some (r, a')) :
    ∀ {ops : List (τ × κ × ρ)} {a : α}, Sequential spec a ops b → Sequential spec a (ops ++ [(t, c, r)]) a'
  | [], _, h => by
    cases (show _ = b from h)
    exact ⟨a', hstep, rfl⟩
  | (_, _, _) :: _, _, ⟨b', hb', hrest⟩ => ⟨b', hb', hrest.snoc hstep⟩

/-- **Linearizable.** The history is that of a sequential run from `a` to `a'`: every prefix of it is seen of threads
whose calls in a prefix of that run took effect. -/
def Linearizes [DecidableEq τ] (a : α) (es : List (τ × Event κ ρ)) (a' : α) : Prop :=
  ∃ ops, Sequential spec a ops a' ∧ ∀ es', es' <+: es → ∃ ops', ops' <+: ops ∧
    ∀ t, ∃ status, Seen (ofThread t ops') (ofThread t es') status

/-! ## Atomic objects -/

/-- The object, and the status of every thread. -/
structure Atomic (τ κ ρ α : Type) where
  obj : α
  status : τ → Status κ ρ

namespace Atomic

variable [DecidableEq τ]

/-- Set the status of `t`. -/
def set (s : Atomic τ κ ρ α) (t : τ) (status : Status κ ρ) : Atomic τ κ ρ α :=
  { s with status := Function.update s.status t status }

/-- A thread calls, its call takes effect, or it returns. -/
inductive Step : Atomic τ κ ρ α → List (τ × Event κ ρ) → Atomic τ κ ρ α → Prop
  | call {s t} (c : κ) (h : s.status t = .idle) : Step s [(t, .call c)] (s.set t (.pending c))
  | effect {s t c r a} (h : s.status t = .pending c) (hspec : spec t c s.obj = some (r, a)) :
      Step s [] { s.set t (.done c r) with obj := a }
  | ret {s t c r} (h : s.status t = .done c r) : Step s [(t, .ret r)] (s.set t .idle)

/-- A run, with what is seen of it. -/
inductive Trace : Atomic τ κ ρ α → List (τ × Event κ ρ) → Atomic τ κ ρ α → Prop
  | refl (s) : Trace s [] s
  | snoc {s es s' out s''} (h : Trace s es s') (hstep : Step spec s' out s'') : Trace s (es ++ out) s''

variable {spec}

theorem Step.trace {s s' : Atomic τ κ ρ α} {out : List (τ × Event κ ρ)} (h : Step spec s out s') :
    Trace spec s out s' := (Trace.refl s).snoc h

theorem Trace.trans {s s' s'' : Atomic τ κ ρ α} {es es' : List (τ × Event κ ρ)} (h : Trace spec s es s')
    (h' : Trace spec s' es' s'') : Trace spec s (es ++ es') s'' := by
  induction h' with
  | refl => simpa using h
  | snoc _ hstep ih =>
    rw [← List.append_assoc]
    exact ih.snoc hstep

/-- A call that takes effect and returns in one step of the system. -/
theorem trace_effect_ret {s : Atomic τ κ ρ α} {t : τ} {c : κ} {r : ρ} {a : α} (h : s.status t = .pending c)
    (hspec : spec t c s.obj = some (r, a)) : Trace spec s [(t, .ret r)] { s.set t .idle with obj := a } := by
  have hdone : ({ s.set t (.done c r) with obj := a } : Atomic τ κ ρ α).status t = .done c r :=
    Function.update_self ..
  have hret := (Step.effect h hspec).trace.snoc (Step.ret hdone)
  simpa only [List.nil_append, set, Function.update_idem] using hret

/-! ## What is seen of an atomic object -/

variable (spec) in
/-- The calls that took effect, and what is seen of every thread for its status. -/
structure Explained (a : α) (es : List (τ × Event κ ρ)) (s : Atomic τ κ ρ α) (ops : List (τ × κ × ρ)) : Prop where
  sequential : Sequential spec a ops s.obj
  seen : ∀ t, Seen (ofThread t ops) (ofThread t es) (s.status t)

variable {a : α} {es out : List (τ × Event κ ρ)} {s s' : Atomic τ κ ρ α} {ops : List (τ × κ × ρ)}

/-- A step of `t` shows nothing of the others. -/
theorem Explained.extend (h : Explained spec a es s ops) {t : τ} {status : Status κ ρ} {a' : α}
    (more : List (κ × ρ)) (own : List (Event κ ρ)) (hseq : Sequential spec a (ops ++ more.map (Prod.mk t)) a')
    (hown : Seen (ofThread t ops ++ more) (ofThread t es ++ own) status) :
    Explained spec a (es ++ own.map (Prod.mk t)) { s.set t status with obj := a' }
      (ops ++ more.map (Prod.mk t)) := by
  refine ⟨hseq, fun u => ?_⟩
  by_cases hut : u = t
  · subst hut
    simpa [set] using hown
  · simpa [set, Function.update_of_ne hut, ofThread_others hut] using h.seen u

/-- **One step** adds at most one call to those that took effect. -/
theorem Explained.step (h : Explained spec a es s ops) (hstep : Step spec s out s') :
    ∃ more, Explained spec a (es ++ out) s' (ops ++ more) := by
  cases hstep with
  | @call t c hidle =>
    have ht := h.seen t
    rw [hidle] at ht
    refine ⟨_, h.extend [] [.call c] (by simpa using h.sequential) ?_⟩
    rw [List.append_nil]
    exact congrArg (· ++ [Event.call c]) ht
  | @effect t c r a' hpending hspec =>
    have ht := h.seen t
    rw [hpending] at ht
    refine ⟨_, h.extend [(c, r)] [] (h.sequential.snoc hspec) ?_⟩
    rw [List.append_nil]
    exact ⟨_, rfl, ht⟩
  | @ret t c r hdone =>
    have ht := h.seen t
    rw [hdone] at ht
    obtain ⟨before, hops, hes⟩ := ht
    refine ⟨_, h.extend [] [.ret r] (by simpa using h.sequential) ?_⟩
    simp [Seen, hops, hes, performed]

/-- **What is seen of an atomic object is linearizable.** -/
theorem Trace.linearizes (h : Trace spec s es s') (hidle : ∀ t, s.status t = .idle) :
    Linearizes spec s.obj es s'.obj := by
  suffices hall : ∃ ops, Explained spec s.obj es s' ops ∧ ∀ es', es' <+: es → ∃ ops', ops' <+: ops ∧
      ∀ t, ∃ status, Seen (ofThread t ops') (ofThread t es') status by
    obtain ⟨ops, hops, hprefix⟩ := hall
    exact ⟨ops, hops.sequential, hprefix⟩
  induction h with
  | refl =>
    have hnil : ∀ t, Seen (ofThread t ([] : List (τ × κ × ρ))) (ofThread t []) (s.status t) := fun t => by
      rw [hidle t]
      rfl
    refine ⟨[], ⟨rfl, hnil⟩, fun es' hes' => ⟨[], List.prefix_rfl, fun t => ⟨s.status t, ?_⟩⟩⟩
    rw [List.prefix_nil.mp hes']
    exact hnil t
  | @snoc es s' out s'' _ hstep ih =>
    obtain ⟨ops, hops, hprefix⟩ := ih
    obtain ⟨more, hmore⟩ := hops.step hstep
    refine ⟨ops ++ more, hmore, fun es' hes' => ?_⟩
    -- a step shows one event at most, so a prefix is one of the run before it, or the whole
    have hcases : es' <+: es ∨ es' = es ++ out := by
      cases hstep with
      | effect => exact Or.inl (by simpa using hes')
      | call => exact (List.prefix_concat_iff.mp hes').symm
      | ret => exact (List.prefix_concat_iff.mp hes').symm
    rcases hcases with hold | rfl
    · obtain ⟨ops', hops', hseen⟩ := hprefix es' hold
      exact ⟨ops', hops'.trans (List.prefix_append _ _), hseen⟩
    · exact ⟨_, List.prefix_rfl, fun t => ⟨_, hmore.seen t⟩⟩

/-- **The refinement rule.** If every guarded step of a system is a run of the object, so is every guarded run. -/
theorem trace_of_refinement {step : σ → ε → σ} {I : σ → Prop} {G : σ → ε → Prop} (abs : σ → Atomic τ κ ρ α)
    (out : σ → ε → List (τ × Event κ ρ)) (hI : ∀ s e, I s → G s e → I (step s e))
    (habs : ∀ s e, I s → G s e → Trace spec (abs s) (out s e) (abs (step s e))) :
    ∀ {s : σ} {es : List ε}, I s → Along G step s es →
      Trace spec (abs s) (history out step s es) (abs (es.foldl step s))
  | _, [], _, _ => .refl _
  | s, e :: _, hs, hg => (habs s e hs hg.1).trans (trace_of_refinement abs out hI habs (hI s e hs hg.1) hg.2)

end Atomic

end Object

end Lib
