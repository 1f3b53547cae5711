import Xen.Lib.Memory

/-!
# Walks over linked lists

- `Chain next p l`: from the pointer `p`, the links `next` lead through the nodes `l` to the null pointer. A list that
  is linked in a circle has no chain.
- `walk next body` is the loop `for (v = p; v; v = v->next)` around a body that may return early; `overList` is the same
  over the list of nodes. `loop_walk`: along a chain the two agree, and the loop ends.
- `overList_ledger`: what each body keeps of the state and the live objects, the walk keeps.
-/

namespace Lib

variable {α σ ε ρ : Type}

/-- The nodes from `p` to the end of the list. -/
def Chain (next : α → Option α) : Option α → List α → Prop
  | p, [] => p = none
  | p, a :: l => p = some a ∧ Chain next (next a) l

/-- One iteration of `for (v = p; v; v = v->next)`: the body gives a new state and may return a value. -/
def walk (next : α → Option α) (body : α → σ → Logged ε (σ × Option ρ)) :
    Option α × σ → Logged ε (Iter (Option α × σ) (σ × Option ρ))
  | (none, s) => pure (.leave (s, none))
  | (some a, s) => do
    let r ← body a s
    match r.2 with
    | none => pure (.next (next a, r.1))
    | some x => pure (.leave (r.1, some x))

/-- The body for each node of a list, until one returns. -/
def overList (body : α → σ → Logged ε (σ × Option ρ)) : List α → σ → Logged ε (σ × Option ρ)
  | [], s => pure (s, none)
  | a :: l, s => do
    let r ← body a s
    match r.2 with
    | none => overList body l r.1
    | some x => pure (r.1, some x)

section Walk

variable {next : α → Option α} {body : α → σ → Logged ε (σ × Option ρ)} {a : α} {l : List α} {s t : σ} {x : ρ}
  {log : List ε}

/-- A node whose body goes on. -/
theorem overList_next (h : body a s = ⟨(t, none), log⟩) :
    overList body (a :: l) s = ⟨(overList body l t).val, log ++ (overList body l t).log⟩ := by
  ext1 <;> simp [overList, h]

/-- A node whose body returns. -/
theorem overList_return (h : body a s = ⟨(t, some x), log⟩) :
    overList body (a :: l) s = ⟨(t, some x), log⟩ := by
  ext1 <;> simp [overList, h]

/-- **Walking a chain** ends, and is the same as going through the list of its nodes. -/
theorem loop_walk {p : Option α} {fuel : Nat} (hc : Chain next p l) (hlen : l.length < fuel) :
    loop (walk next body) fuel (p, s) = ⟨some (overList body l s).val, (overList body l s).log⟩ := by
  induction l generalizing p s fuel with
  | nil =>
    obtain rfl : p = none := hc
    exact loop_of_leave rfl hlen
  | cons a l ih =>
    obtain ⟨rfl, hc⟩ : p = some a ∧ Chain next (next a) l := hc
    rcases hb : body a s with ⟨⟨t, o⟩, log⟩
    cases o with
    | none =>
      have hw : walk next body (some a, s) = ⟨.next (next a, t), log⟩ := by
        ext1 <;> simp [walk, hb]
      obtain ⟨fuel', hlen', hloop⟩ := loop_of_next hw hlen
      rw [hloop, ih hc hlen', overList_next hb]
    | some x =>
      have hw : walk next body (some a, s) = ⟨.leave (t, some x), log⟩ := by
        ext1 <;> simp [walk, hb]
      rw [loop_of_leave hw (Nat.zero_lt_of_lt hlen), overList_return hb]

end Walk

/-- **The ledger rule.** If every body keeps `I` of the state and the live objects, and its accesses are valid as long
as its allocations are fresh, the same holds of the walk. -/
theorem overList_ledger {ω : Type} [DecidableEq ω] {null : ω} {body : α → σ → Logged (MemOp ω) (σ × Option ρ)}
    {I : σ → Finset ω → Prop} {l : List α} {s : σ} {live : Finset ω}
    (hI : ∀ a ∈ l, ∀ s live, I s live → FreshOps null live (body a s).log →
      ValidOps null live (body a s).log ∧ I (body a s).val.1 (liveAfter live (body a s).log))
    (hs : I s live) (hfresh : FreshOps null live (overList body l s).log) :
    ValidOps null live (overList body l s).log ∧
      I (overList body l s).val.1 (liveAfter live (overList body l s).log) := by
  induction l generalizing s live with
  | nil => exact ⟨trivial, hs⟩
  | cons a l ih =>
    rcases hb : body a s with ⟨⟨t, o⟩, log⟩
    have ha := hI a List.mem_cons_self s live hs
    rw [hb] at ha
    cases o with
    | none =>
      rw [overList_next hb] at hfresh ⊢
      obtain ⟨hfresh, hrest⟩ := (freshOps_append null live log _).mp hfresh
      obtain ⟨hvalid, ht⟩ := ha hfresh
      obtain ⟨hvalid', hl⟩ := ih (fun b hb => hI b (List.mem_cons_of_mem a hb)) ht hrest
      exact ⟨(validOps_append null live log _).mpr ⟨hvalid, hvalid'⟩, liveAfter_append live log _ ▸ hl⟩
    | some x =>
      rw [overList_return hb] at hfresh ⊢
      exact ha hfresh

end Lib
