import Mathlib.Algebra.Group.Nat.Defs
import Xen.Lib.Intervals
import Xen.Lib.Logged

/-!
# Do the nodes cover the memory? (`srat_verified.c`)

- `nodesCoverMemory`: `nodes_cover_memory`, with the index of every node it looks at logged. Each RAM range is trimmed
  by the nodes, round after round, until it is empty or a round finds nothing.
- One round is the library's `Span.trimAll` (`scanNodes_span`), and it finds something exactly if it trims
  (`scanNodes_found`).
- `nodesCover_iff`: the function always returns, and it returns 1 exactly if the nodes cover every RAM range.

The local `memory_nodes_parsed`, which hides the global of that name, is a parameter. `nodes[i].end` is `stop` here.
-/

namespace Xen.Numa

open Lib

/-! ## Data model -/

/-- `struct node`: the addresses from `start` on and before `stop`. -/
structure Node where
  start : Nat
  stop : Nat
deriving DecidableEq, Repr

def Node.span (nd : Node) : Span Nat := ⟨nd.start, nd.stop⟩

/-- An entry of `e820.map`; `isRam` tells whether its type is `E820_RAM`. -/
structure MapEntry where
  addr : Nat
  size : Nat
  isRam : Bool
deriving DecidableEq, Repr

/-- `struct e820map`. -/
structure E820Map where
  nrMap : Int
  map : Nat → MapEntry

/-- The locals `start`, `end` and `found`. -/
structure Cover where
  start : Nat
  stop : Nat
  found : Bool
deriving DecidableEq, Repr

def Cover.span (s : Cover) : Span Nat := ⟨s.start, s.stop⟩

/-! ## `nodes_cover_memory` -/

/-- The body of the inner loop, for one node. -/
def coverNode (nd : Node) (s : Cover) : Cover :=
  if s.start < nd.stop ∧ s.stop > nd.start then
    let s := if s.start ≥ nd.start then { s with start := nd.stop, found := true } else s
    if s.stop ≤ nd.stop then { s with stop := nd.start, found := true } else s
  else s

/-- The inner loop over `n` nodes from `j` on. -/
def scanNodes (nodes : Nat → Node) : (n j : Nat) → Cover → Logged Nat Cover
  | 0, _, s => pure s
  | n + 1, j, s => do
    Logged.emit j
    scanNodes nodes n (j + 1) (coverNode (nodes j) s)

/-- One round of the `do … while` loop. -/
def coverStep (nodes : Nat → Node) (memoryNodesParsed : Nat) (s : Cover) : Logged Nat (Iter Cover Cover) := do
  let s ← scanNodes nodes memoryNodesParsed 0 { s with found := false }
  return if s.found ∧ s.start < s.stop then .next s else .leave s

/-- The `do … while` loop for one range. -/
def coverRange (nodes : Nat → Node) (memoryNodesParsed start stop : Nat) : Logged Nat (Option Cover) :=
  loop (coverStep nodes memoryNodesParsed) (stop - start + 1) ⟨start, stop, false⟩

/-- The loop over `n` entries of the map from `i` on. -/
def coverEntries (map : Nat → MapEntry) (nodes : Nat → Node) (memoryNodesParsed : Nat) :
    (n i : Nat) → Logged Nat (Option Bool)
  | 0, _ => pure (some true)
  | n + 1, i => do
    if !(map i).isRam then
      coverEntries map nodes memoryNodesParsed n (i + 1)
    else
      match ← coverRange nodes memoryNodesParsed (map i).addr (((map i).addr + (map i).size) % 2 ^ 64) with
      | none => return none
      | some s =>
        if s.start < s.stop then
          return some false
        coverEntries map nodes memoryNodesParsed n (i + 1)

/-- `nodes_cover_memory`, its 1 as `true`; `none` would be a loop that runs longer than its range is. -/
def nodesCoverMemory (e820 : E820Map) (nodes : Nat → Node) (memoryNodesParsed : Nat) : Logged Nat (Option Bool) :=
  coverEntries e820.map nodes memoryNodesParsed e820.nrMap.toNat 0

/-! ## One round -/

section Round

variable (nodes : Nat → Node)

/-- The spans of `n` nodes from `j` on. -/
def spans (nodes : Nat → Node) (n j : Nat) : List (Span Nat) := (List.range' j n).map fun k => (nodes k).span

theorem spans_succ (n j : Nat) :
    spans nodes (n + 1) j = (nodes j).span :: spans nodes n (j + 1) := by
  simp [spans, List.range'_succ]

/-- **One node.** The code trims the range by the node, and sets `found` if that changes it. -/
theorem coverNode_eq (nd : Node) (s : Cover) : coverNode nd s =
    ⟨(nd.span.trim s.span).lo, (nd.span.trim s.span).hi, s.found || decide (nd.span.trim s.span ≠ s.span)⟩ := by
  obtain ⟨start, stop, found⟩ := s
  by_cases h : start < nd.stop ∧ nd.start < stop
  · by_cases h1 : nd.start ≤ start <;> by_cases h2 : stop ≤ nd.stop
    · have hne : nd.stop ≠ start := by omega
      simp [coverNode, Span.trim, Cover.span, Node.span, h, h1, h2, hne]
    · have hne : nd.stop ≠ start := by omega
      simp [coverNode, Span.trim, Cover.span, Node.span, h, h1, h2, hne]
    · have hne : nd.start ≠ stop := by omega
      simp [coverNode, Span.trim, Cover.span, Node.span, h, h1, h2, hne]
    · simp [coverNode, Span.trim, Cover.span, Node.span, h, h1, h2]
  · simp [coverNode, Span.trim, Cover.span, Node.span, h]

theorem coverNode_span (nd : Node) (s : Cover) : (coverNode nd s).span = nd.span.trim s.span := by
  rw [coverNode_eq]
  rfl

theorem coverNode_found (nd : Node) (s : Cover) :
    (coverNode nd s).found = false ↔ s.found = false ∧ nd.span.trim s.span = s.span := by
  rw [coverNode_eq]
  simp

/-- **A round trims by all nodes.** -/
theorem scanNodes_span : ∀ (n j : Nat) (s : Cover),
    (scanNodes nodes n j s).val.span = (Span.trimAll (spans nodes n j) s.span)
  | 0, _, _ => rfl
  | n + 1, j, s => by
    have ih := scanNodes_span n (j + 1) (coverNode (nodes j) s)
    rw [coverNode_span] at ih
    rw [spans_succ]
    exact ih

/-- **A round finds nothing exactly if no node trims.** -/
theorem scanNodes_found : ∀ (n j : Nat) (s : Cover), (scanNodes nodes n j s).val.found = false ↔
    s.found = false ∧ ∀ m ∈ spans nodes n j, m.trim s.span = s.span
  | 0, _, s => by simp [scanNodes, spans]
  | n + 1, j, s => by
    have ih := scanNodes_found n (j + 1) (coverNode (nodes j) s)
    rw [coverNode_found, coverNode_span] at ih
    simp only [scanNodes, Logged.val_bind, ih, spans_succ, List.forall_mem_cons]
    constructor
    · rintro ⟨⟨hf, htrim⟩, hrest⟩
      rw [htrim] at hrest
      exact ⟨hf, htrim, hrest⟩
    · rintro ⟨hf, htrim, hrest⟩
      exact ⟨⟨hf, htrim⟩, by rwa [htrim]⟩

/-- The ends only move inwards, and one does if the round finds something. -/
theorem scanNodes_inside : ∀ (n j : Nat) (s : Cover),
    s.start ≤ (scanNodes nodes n j s).val.start ∧ (scanNodes nodes n j s).val.stop ≤ s.stop ∧
      ((scanNodes nodes n j s).val.found = true → s.found = true ∨
        s.start < (scanNodes nodes n j s).val.start ∨ (scanNodes nodes n j s).val.stop < s.stop)
  | 0, _, s => ⟨Nat.le_refl _, Nat.le_refl _, Or.inl⟩
  | n + 1, j, s => by
    obtain ⟨hstart, hstop, hfound⟩ := scanNodes_inside n (j + 1) (coverNode (nodes j) s)
    have hspan := coverNode_span (nodes j) s
    have hno := coverNode_found (nodes j) s
    have hcases := Span.trim_cases (nodes j).span s.span
    rw [← hspan] at hcases hno
    simp only [Cover.span, Span.mk.injEq] at hcases hno
    simp only [scanNodes, Logged.val_bind]
    refine ⟨by omega, by omega, fun h => ?_⟩
    by_cases hf : s.found = true
    · exact Or.inl hf
    · cases hc : (coverNode (nodes j) s).found with
      | false =>
        have := hno.mp hc
        rcases hfound h with h' | h'
        · rw [hc] at h'
          cases h'
        · omega
      | true =>
        have : ¬((coverNode (nodes j) s).start = s.start ∧ (coverNode (nodes j) s).stop = s.stop) := fun h' => by
          have := hno.mpr ⟨by simpa using hf, h'⟩
          rw [hc] at this
          cases this
        omega

end Round

/-! ## One range -/

section Range

variable {nodes : Nat → Node} {parsed : Nat}

/-- **One round.** It goes on with a smaller range that has the same uncovered addresses, or leaves, with a range that
is empty exactly if there are none. -/
theorem coverStep_cases (nodes : Nat → Node) (parsed : Nat) (s : Cover) :
    (∃ t, (coverStep nodes parsed s).val = .next t ∧ t.stop - t.start < s.stop - s.start ∧
      Span.uncovered (spans nodes parsed 0) t.span = Span.uncovered (spans nodes parsed 0) s.span) ∨
    ∃ t, (coverStep nodes parsed s).val = .leave t ∧
      (t.start < t.stop ↔ (Span.uncovered (spans nodes parsed 0) s.span).Nonempty) := by
  obtain ⟨hstart, hstop, hinside⟩ := scanNodes_inside nodes parsed 0 { s with found := false }
  have hspan := scanNodes_span nodes parsed 0 { s with found := false }
  have hfound := scanNodes_found nodes parsed 0 { s with found := false }
  have hval : (coverStep nodes parsed s).val =
      if (scanNodes nodes parsed 0 { s with found := false }).val.found = true ∧
        (scanNodes nodes parsed 0 { s with found := false }).val.start <
          (scanNodes nodes parsed 0 { s with found := false }).val.stop
      then .next (scanNodes nodes parsed 0 { s with found := false }).val
      else .leave (scanNodes nodes parsed 0 { s with found := false }).val := rfl
  generalize (scanNodes nodes parsed 0 { s with found := false }).val = t at *
  have hkeep : Span.uncovered (spans nodes parsed 0) t.span = Span.uncovered (spans nodes parsed 0) s.span := by
    rw [hspan]
    exact Span.uncovered_trimAll (List.Subset.refl _)
  simp only at hstart hstop hinside hfound
  by_cases h : t.found = true ∧ t.start < t.stop
  · rw [if_pos h] at hval
    have := hinside h.1
    simp only [Bool.false_eq_true, false_or] at this
    exact Or.inl ⟨t, hval, by omega, hkeep⟩
  · rw [if_neg h] at hval
    refine Or.inr ⟨t, hval, fun hlt => ?_, fun hne => ?_⟩
    · -- nothing was found, so the range could not be trimmed
      have hno : t.found = false := by
        by_contra hf
        exact h ⟨by simpa using hf, hlt⟩
      exact ⟨_, Span.lo_uncovered (r := s.span) (by simp only [Cover.span]; omega) (hfound.mp hno).2⟩
    · by_contra hle
      rw [← hkeep] at hne
      exact Span.uncovered_of_le (Nat.le_of_not_lt hle) hne

/-- **One range.** The loop ends, with a range that is empty exactly if the nodes cover the one it starts with. -/
theorem coverRange_spec (nodes : Nat → Node) (parsed start stop : Nat) :
    ∃ t, (coverRange nodes parsed start stop).val = some t ∧
      (t.start < t.stop ↔ (Span.uncovered (spans nodes parsed 0) ⟨start, stop⟩).Nonempty) := by
  have hnext : ∀ s u, (coverStep nodes parsed s).val = .next u → u.stop - u.start < s.stop - s.start ∧
      Span.uncovered (spans nodes parsed 0) u.span = Span.uncovered (spans nodes parsed 0) s.span := by
    intro s u hu
    rcases coverStep_cases nodes parsed s with ⟨t, ht, hsmall, hkeep⟩ | ⟨t, ht, -⟩
    · rw [ht, Iter.next.injEq] at hu
      subst hu
      exact ⟨hsmall, hkeep⟩
    · rw [ht] at hu
      cases hu
  obtain ⟨t, ht⟩ : ∃ t, (coverRange nodes parsed start stop).val = some t :=
    loop_total (I := fun _ => True) (fun s => s.stop - s.start) (fun _ _ _ _ => trivial)
      (fun s u _ hu => (hnext s u hu).1) trivial (Nat.lt_succ_self _)
  refine ⟨t, ht, ?_⟩
  obtain ⟨s, hs, hleave, -⟩ := loop_exit ht
  have hkeep : Span.uncovered (spans nodes parsed 0) s.span = Span.uncovered (spans nodes parsed 0) ⟨start, stop⟩ :=
    hs.inv (I := fun s => Span.uncovered (spans nodes parsed 0) s.span =
      Span.uncovered (spans nodes parsed 0) ⟨start, stop⟩) (fun s u h hu => (hnext s u hu).2.trans h) rfl
  rcases coverStep_cases nodes parsed s with ⟨u, hu, -⟩ | ⟨u, hu, hiff⟩
  · rw [hu] at hleave
    cases hleave
  · rw [hu, Iter.leave.injEq] at hleave
    subst hleave
    rwa [hkeep] at hiff

end Range

/-! ## The whole map -/

/-- Every address of the entry lies in one of the first `parsed` nodes. -/
def Covered (nodes : Nat → Node) (parsed : Nat) (e : MapEntry) : Prop :=
  ∀ x, e.addr ≤ x → x < e.addr + e.size → ∃ j < parsed, (nodes j).start ≤ x ∧ x < (nodes j).stop

theorem covered_iff (nodes : Nat → Node) (parsed : Nat) (e : MapEntry) : Covered nodes parsed e ↔
    ¬(Span.uncovered (spans nodes parsed 0) ⟨e.addr, e.addr + e.size⟩).Nonempty := by
  have hmem : ∀ x, (∀ m ∈ spans nodes parsed 0, x ∉ m.toSet) ↔
      ¬∃ j < parsed, (nodes j).start ≤ x ∧ x < (nodes j).stop := fun x => by
    simp [spans, Span.mem_toSet, Node.span]
  constructor
  · rintro h ⟨x, ⟨hlo, hhi⟩, hout⟩
    exact (hmem x).mp hout (h x hlo hhi)
  · intro h x hlo hhi
    by_contra hout
    exact h ⟨x, ⟨hlo, hhi⟩, (hmem x).mpr hout⟩

/-- An entry with RAM decides if its range is not covered, and else leaves it to the entries behind it. -/
theorem coverEntries_ram {map : Nat → MapEntry} {nodes : Nat → Node} {parsed n i : Nat} {t : Cover}
    (hram : (map i).isRam = true)
    (ht : (coverRange nodes parsed (map i).addr (((map i).addr + (map i).size) % 2 ^ 64)).val = some t) :
    (coverEntries map nodes parsed (n + 1) i).val =
      if t.start < t.stop then some false else (coverEntries map nodes parsed n (i + 1)).val := by
  have hstep : (coverEntries map nodes parsed (n + 1) i).val =
      (match (coverRange nodes parsed (map i).addr (((map i).addr + (map i).size) % 2 ^ 64)).val with
        | none => pure none
        | some s => if s.start < s.stop then pure (some false) else coverEntries map nodes parsed n (i + 1) :
          Logged Nat (Option Bool)).val := by
    rw [coverEntries, hram]
    rfl
  rw [hstep, ht]
  exact Logged.val_ite _ _ _

/-- **The entries.** The loop ends, and it returns 1 exactly if every range with RAM is covered. -/
theorem coverEntries_spec (map : Nat → MapEntry) (nodes : Nat → Node) (parsed : Nat) {n i : Nat}
    (hwrap : ∀ k, i ≤ k → k < i + n → (map k).isRam → (map k).addr + (map k).size < 2 ^ 64) :
    ∃ b, (coverEntries map nodes parsed n i).val = some b ∧
      (b = true ↔ ∀ k, i ≤ k → k < i + n → (map k).isRam → Covered nodes parsed (map k)) := by
  induction n generalizing i with
  | zero =>
    refine ⟨true, rfl, iff_of_true rfl ?_⟩
    intro k h1 h2
    omega
  | succ n ih =>
    obtain ⟨hfirst, hrest⟩ := forall_from_succ.mp hwrap
    obtain ⟨b, hb, hiff⟩ := ih hrest
    rw [forall_from_succ, ← hiff]
    cases hram : (map i).isRam with
    | false => exact ⟨b, by simp [coverEntries, hram, hb], by simp⟩
    | true =>
      obtain ⟨t, ht, hlt⟩ := coverRange_spec nodes parsed (map i).addr ((map i).addr + (map i).size)
      have hend : ((map i).addr + (map i).size) % 2 ^ 64 = (map i).addr + (map i).size :=
        Nat.mod_eq_of_lt (hfirst hram)
      rw [← not_iff_not, ← covered_iff] at hlt
      rw [← hend] at ht
      have hval := coverEntries_ram (n := n) hram ht
      by_cases h : t.start < t.stop
      · rw [if_pos h] at hval
        exact ⟨false, hval, by simp [← hlt, h]⟩
      · rw [if_neg h, hb] at hval
        exact ⟨b, hval, by simp [← hlt, h]⟩

/-- **The coverage check.** If no RAM range wraps, it returns, and what it returns is 1 exactly if every address of
every RAM range lies in a node. -/
theorem nodesCover_iff (e820 : E820Map) (nodes : Nat → Node) (memoryNodesParsed : Nat)
    (hwrap : ∀ i : Nat, i < e820.nrMap → (e820.map i).isRam → (e820.map i).addr + (e820.map i).size < 2 ^ 64) :
    ∃ ret, (nodesCoverMemory e820 nodes memoryNodesParsed).val = some ret ∧
      (ret = true ↔ ∀ i : Nat, i < e820.nrMap → (e820.map i).isRam →
        Covered nodes memoryNodesParsed (e820.map i)) := by
  have hlt : ∀ k : Nat, k < 0 + e820.nrMap.toNat ↔ (k : Int) < e820.nrMap := fun k => by omega
  obtain ⟨b, hb, hiff⟩ := coverEntries_spec e820.map nodes memoryNodesParsed (n := e820.nrMap.toNat) (i := 0)
    fun k _ h => hwrap k ((hlt k).mp h)
  refine ⟨b, hb, hiff.trans ?_⟩
  simp only [Nat.zero_le, forall_const, hlt]

/-- Two nodes in the wrong order. -/
def twoNodes (j : Nat) : Node := if j = 0 then ⟨10, 20⟩ else ⟨0, 10⟩

/-- They cover the RAM range between them. -/
theorem nodesCover_twoNodes : ∃ ret, (nodesCoverMemory ⟨1, fun _ => ⟨0, 20, true⟩⟩ twoNodes 2).val = some ret ∧
    (ret = true ↔ ∀ i : Nat, (i : Int) < 1 → true = true → Covered twoNodes 2 ⟨0, 20, true⟩) :=
  nodesCover_iff ⟨1, fun _ => ⟨0, 20, true⟩⟩ twoNodes 2 fun _ _ _ => show 0 + 20 < 2 ^ 64 by decide

end Xen.Numa
