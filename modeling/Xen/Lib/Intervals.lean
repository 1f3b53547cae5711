import Mathlib.Order.Interval.Set.Basic

/-!
# Covering an interval by trimming it

A `Span` is a half-open interval of a linear order. `n.trim r` cuts the ends of `r` off as far as `n` covers them, and
`trimAll ns r` does so with every member of a list in turn.

- `uncovered ns r` are the points of `r` that no member of `ns` covers. Trimming keeps them (`uncovered_trimAll`).
- A span that is not empty and that no member trims has an uncovered point, its lower end (`lo_uncovered`).
- Together: trimming until nothing changes decides whether the members cover the span. An end that is trimmed moves
  inwards (`trim_cases`), which bounds the number of rounds.
- `forall_from_succ` splits the first number off a range that a loop counts through.
-/

namespace Lib

/-- The points from `lo` on and before `hi`. -/
@[ext] structure Span (α : Type) where
  lo : α
  hi : α
deriving DecidableEq, Repr

namespace Span

variable {α : Type} [LinearOrder α]

def toSet (r : Span α) : Set α := Set.Ico r.lo r.hi

theorem mem_toSet {r : Span α} {x : α} : x ∈ r.toSet ↔ r.lo ≤ x ∧ x < r.hi := Iff.rfl

/-- Cut off the ends of `r` that `n` covers. -/
def trim (n r : Span α) : Span α :=
  if r.lo < n.hi ∧ n.lo < r.hi then
    ⟨if n.lo ≤ r.lo then n.hi else r.lo, if r.hi ≤ n.hi then n.lo else r.hi⟩
  else r

/-- Trim with every member of the list in turn. -/
def trimAll (ns : List (Span α)) (r : Span α) : Span α := ns.foldl (fun r n => n.trim r) r

/-- The points of `r` that no member of the list covers. -/
def uncovered (ns : List (Span α)) (r : Span α) : Set α := {x | x ∈ r.toSet ∧ ∀ n ∈ ns, x ∉ n.toSet}

variable {n r : Span α} {ns : List (Span α)}

/-- **Trimming moves an end inwards**, or does nothing. -/
theorem trim_cases (n r : Span α) : n.trim r = r ∨ r.lo < (n.trim r).lo ∧ (n.trim r).hi ≤ r.hi ∨
    r.lo ≤ (n.trim r).lo ∧ (n.trim r).hi < r.hi := by
  unfold trim
  split_ifs with h h1 h2 h2
  · exact Or.inr (Or.inl ⟨h.1, h.2.le⟩)
  · exact Or.inr (Or.inl ⟨h.1, le_refl _⟩)
  · exact Or.inr (Or.inr ⟨le_refl _, h.2⟩)
  · exact Or.inl rfl
  · exact Or.inl rfl

/-- A trimmed span lies inside. -/
theorem trim_inside (n r : Span α) : r.lo ≤ (n.trim r).lo ∧ (n.trim r).hi ≤ r.hi := by
  rcases trim_cases n r with h | ⟨h1, h2⟩ | ⟨h1, h2⟩
  · rw [h]
    exact ⟨le_refl _, le_refl _⟩
  · exact ⟨h1.le, h2⟩
  · exact ⟨h1, h2.le⟩

/-- What is cut off is covered by `n`. -/
theorem mem_trim {x : α} (hx : x ∉ n.toSet) : x ∈ (n.trim r).toSet ↔ x ∈ r.toSet := by
  constructor
  · rintro ⟨hlo, hhi⟩
    obtain ⟨h1, h2⟩ := trim_inside n r
    exact ⟨h1.trans hlo, hhi.trans_le h2⟩
  · rintro ⟨hlo, hhi⟩
    have hout : n.lo ≤ x → n.hi ≤ x := fun h => not_lt.mp fun h' => hx ⟨h, h'⟩
    have hout' : x < n.hi → x < n.lo := fun h => not_le.mp fun h' => hx ⟨h', h⟩
    unfold trim
    split_ifs with h h1 h2 h2
    · exact ⟨hout (h1.trans hlo), hout' (hhi.trans_le h2)⟩
    · exact ⟨hout (h1.trans hlo), hhi⟩
    · exact ⟨hlo, hout' (hhi.trans_le h2)⟩
    · exact ⟨hlo, hhi⟩
    · exact ⟨hlo, hhi⟩

/-- **Trimming keeps the uncovered points.** -/
theorem uncovered_trim (h : n ∈ ns) : uncovered ns (n.trim r) = uncovered ns r := by
  ext x
  exact and_congr_left fun hx => mem_trim (hx n h)

theorem uncovered_trimAll : ∀ {ms : List (Span α)} {r : Span α}, ms ⊆ ns →
    uncovered ns (trimAll ms r) = uncovered ns r
  | [], _, _ => rfl
  | m :: ms, r, h => by
    obtain ⟨hm, hms⟩ := List.cons_subset.mp h
    have ih : uncovered ns (trimAll ms (m.trim r)) = uncovered ns (m.trim r) := uncovered_trimAll hms
    exact ih.trans (uncovered_trim hm)

/-- An empty span has no uncovered points. -/
theorem uncovered_of_le (h : r.hi ≤ r.lo) : ¬(uncovered ns r).Nonempty := by
  rintro ⟨x, ⟨hlo, hhi⟩, -⟩
  exact absurd (hlo.trans_lt hhi) (not_lt.mpr h)

/-- **A span that cannot be trimmed.** Its lower end is uncovered. -/
theorem lo_uncovered (hne : r.lo < r.hi) (h : ∀ n ∈ ns, n.trim r = r) : r.lo ∈ uncovered ns r := by
  refine ⟨⟨le_refl _, hne⟩, fun n hn hmem => ?_⟩
  obtain ⟨hlo, hhi⟩ := mem_toSet.mp hmem
  have hcut : (n.trim r).lo = n.hi := by
    unfold trim
    rw [if_pos ⟨hhi, hlo.trans_lt hne⟩]
    exact if_pos hlo
  rw [h n hn] at hcut
  exact absurd hhi (by rw [hcut]; exact lt_irrefl _)

end Span

/-- A property of `n + 1` numbers from `i` on is one of the first and of the `n` behind it. -/
theorem forall_from_succ {P : Nat → Prop} {i n : Nat} :
    (∀ k, i ≤ k → k < i + (n + 1) → P k) ↔ P i ∧ ∀ k, i + 1 ≤ k → k < i + 1 + n → P k := by
  constructor
  · intro h
    exact ⟨h i (Nat.le_refl i) (by omega), fun k h1 h2 => h k (by omega) (by omega)⟩
  · rintro ⟨h0, h⟩ k h1 h2
    rcases Nat.eq_or_lt_of_le h1 with rfl | h1
    · exact h0
    · exact h k h1 (by omega)

end Lib
