import Mathlib.Data.List.Find
import Xen.Numa.Bounds

/-!
# Lookups with a direct index (`srat_verified.c`)

- A run is a list of `TableCall`s of `setup_node` and `bad_srat`; `tableStep` is one of them on the table.
- `setupNode_val` says what `setup_node` does: it finds the domain in the domain's own slot, or numbers it in a free
  one (`slotFor`), which is the domain's own one if that is free.
- `Indexed`: a domain that is not in its own slot has found another one there, and no two slots have the same node.
  Every call keeps it (`indexed_step`), as long as `nodes_found` does not wrap.
- `lookups_plain`: therefore the direct accesses of `pxm_to_node` and `node_to_pxm` never change what a scan of the
  table would find.

`sizeof(pxm2node)` is the parameter `entries`, the number of slots.
-/

namespace Xen.Numa

open Lib

/-! ## Scans -/

/-- The first slot that passes the test. -/
def firstSlot (entries : Nat) (test : Nat → Bool) : Option Nat := (List.range entries).find? test

theorem scanSlots_eq_find (test : Nat → Bool) (n i : Nat) :
    (scanSlots test n i).val = (List.range' i n).find? test := by
  induction n generalizing i with
  | zero => rfl
  | succ n ih =>
    rw [List.range'_succ, List.find?_cons]
    cases ht : test i with
    | true => simp [scanSlots, ht]
    | false => simpa [scanSlots, ht] using ih (i + 1)

theorem scanSlots_firstSlot (test : Nat → Bool) (entries : Nat) :
    (scanSlots test entries 0).val = firstSlot entries test := by
  rw [scanSlots_eq_find, firstSlot, List.range_eq_range']

section FirstSlot

variable {entries i : Nat} {test : Nat → Bool}

theorem firstSlot_eq_some : firstSlot entries test = some i ↔
    test i = true ∧ i < entries ∧ ∀ j < i, test j = false := by
  simp [firstSlot, List.find?_range_eq_some]

theorem firstSlot_congr {test' : Nat → Bool} (h : ∀ i < entries, test i = test' i) :
    firstSlot entries test = firstSlot entries test' :=
  List.find?_congr fun i hi => h i (List.mem_range.mp hi)

end FirstSlot

/-! ## What the calls do -/

/-- `setup_node` and `bad_srat` on the table. -/
inductive TableCall where
  | setupNode (pxm : Nat)
  | badSrat
deriving DecidableEq, Repr

/-- The table after the call. -/
def tableStep (entries : Nat) (s : Tables) : TableCall → Tables
  | .setupNode pxm => (setupNode entries s pxm).val.2
  | .badSrat => (clearNodes entries 0 s).val

section Calls

variable (entries : Nat) (s : Tables) (pxm : Nat)

/-- The slot in which `setup_node` numbers a domain: its own one if that is free, else the first free one. -/
def slotFor (entries : Nat) (s : Tables) (pxm : Nat) : Option Nat :=
  if pxm < entries ∧ (s.pxm2node pxm).node = numaNoNode then some pxm
  else firstSlot entries fun idx => (s.pxm2node idx).node = numaNoNode

theorem setupFree_val : (setupFree entries s pxm).val =
    (firstSlot entries fun idx => (s.pxm2node idx).node = numaNoNode).elim
      (numaNoNode, { s with warned := true }) fun idx => (finish s idx pxm).val := by
  rw [← scanSlots_firstSlot]
  simp only [setupFree, Logged.val_bind]
  cases (scanSlots (fun idx => decide ((s.pxm2node idx).node = numaNoNode)) entries 0).val <;> rfl

/-- **What `setup_node` does.** It finds the domain in its own slot, numbers it in another one, or finds none. -/
theorem setupNode_val : (setupNode entries s pxm).val =
    if pxm < entries ∧ nodeFound s pxm pxm = true then (toUnsigned (s.pxm2node pxm).node, s)
    else (slotFor entries s pxm).elim (numaNoNode, { s with warned := true }) fun idx => (finish s idx pxm).val := by
  by_cases hpxm : pxm < entries
  · cases hfound : nodeFound s pxm pxm with
    | true => simp [setupNode, hpxm, hfound]
    | false =>
      by_cases hfree : (s.pxm2node pxm).node = numaNoNode
      · simp [setupNode, slotFor, hpxm, hfound, hfree]
      · simp [setupNode, slotFor, setupFree_val, hpxm, hfound, hfree]
  · simp [setupNode, slotFor, setupFree_val, hpxm]

variable {entries s pxm} in
/-- The slot is free, and the domain's own one is not if it is another one. -/
theorem slotFor_free {idx : Nat} (h : slotFor entries s pxm = some idx) :
    idx < entries ∧ Free s idx ∧ (idx ≠ pxm → pxm < entries → ¬Free s pxm) := by
  unfold slotFor at h
  split at h
  · next hown =>
    cases h
    exact ⟨hown.1, hown.2, fun hne => absurd rfl hne⟩
  · next hown =>
    obtain ⟨htest, hidx, -⟩ := firstSlot_eq_some.mp h
    have hfree : (s.pxm2node idx).node = numaNoNode := of_decide_eq_true htest
    exact ⟨hidx, hfree, fun _ hpxm hown' => hown ⟨hpxm, hown'⟩⟩

/-- **What `finish` does.** There is no number left, or the slot gets the next one. -/
theorem finish_val (idx : Nat) : (finish s idx pxm).val =
    if maxNumnodes ≤ s.nodesFound then (numaNoNode, { s with nodesFound := (s.nodesFound + 1) % 2 ^ 32 })
    else (s.nodesFound, { s with
      nodesFound := (s.nodesFound + 1) % 2 ^ 32
      pxm2node := Function.update s.pxm2node idx ⟨pxm, s.nodesFound⟩ }) := by
  simp only [finish, Logged.val_ite, Logged.val_bind, Logged.val_pure]

/-- `bad_srat` clears the nodes of the slots, and nothing else. -/
theorem clearNodes_val (n i : Nat) (s : Tables) : (clearNodes n i s).val =
    { s with pxm2node := fun k =>
        if i ≤ k ∧ k < i + n then { s.pxm2node k with node := numaNoNode } else s.pxm2node k } := by
  induction n generalizing i s with
  | zero =>
    have hnone : ∀ k, ¬(i ≤ k ∧ k < i + 0) := fun k h => by omega
    simp only [clearNodes, Logged.val_pure, hnone, if_false]
  | succ n ih =>
    simp only [clearNodes, Logged.val_bind, ih]
    congr 1
    funext k
    by_cases hk : k = i
    · subst hk
      have hself : ¬(k + 1 ≤ k ∧ k < k + 1 + n) := fun h => by omega
      have hin : k ≤ k ∧ k < k + (n + 1) := by omega
      rw [if_neg hself, if_pos hin, Function.update_self]
    · have hiff : (i + 1 ≤ k ∧ k < i + 1 + n) ↔ (i ≤ k ∧ k < i + (n + 1)) := by omega
      rw [Function.update_of_ne hk]
      exact ite_congr (propext hiff) (fun _ => rfl) fun _ => rfl

end Calls

/-! ## The invariant -/

/-- **The invariant.** A domain that is elsewhere than in its own slot has left that to another one, a node is one of
the numbers handed out, and no two slots have the same one. -/
structure Indexed (entries : Nat) (s : Tables) : Prop where
  own : ∀ pxm < entries, ∀ i < entries, i ≠ pxm → nodeFound s i pxm = true →
    ¬Free s pxm ∧ (s.pxm2node pxm).pxm ≠ pxm
  range : ∀ i < entries, 0 ≤ (s.pxm2node i).node ∧ (s.pxm2node i).node < maxNumnodes
  older : ∀ i < entries, ¬Free s i → (s.pxm2node i).node < s.nodesFound
  unique : ∀ i < entries, ∀ j < entries, ¬Free s i → (s.pxm2node i).node = (s.pxm2node j).node → i = j

/-- `nodes_found` does not wrap in the call. -/
def NoWrap (entries : Nat) (s : Tables) (c : TableCall) : Prop := s.nodesFound ≤ (tableStep entries s c).nodesFound

instance (entries : Nat) (s : Tables) (c : TableCall) : Decidable (NoWrap entries s c) :=
  inferInstanceAs (Decidable (_ ≤ _))

section Invariant

variable {entries : Nat} {s t : Tables} {pxm idx : Nat}

theorem nodeFound_iff {i : Nat} : nodeFound s i pxm = true ↔ (s.pxm2node i).pxm = pxm ∧ ¬Free s i := by
  simp [nodeFound, Free, numaNoNode]

/-- The zeroed table. -/
theorem indexed_init (entries : Nat) : Indexed entries init where
  own _ _ _ _ _ hfound := absurd rfl (nodeFound_iff.mp hfound).2
  range _ _ := (by decide : 0 ≤ (0 : Int) ∧ (0 : Int) < maxNumnodes)
  older _ _ hused := absurd rfl hused
  unique _ _ _ _ hused := absurd rfl hused

/-- The table is all that counts, as long as the numbers handed out do not decrease. -/
theorem Indexed.congr (h : Indexed entries s) (htable : t.pxm2node = s.pxm2node) (hle : s.nodesFound ≤ t.nodesFound) :
    Indexed entries t where
  own pxm hpxm i hi hne hfound := by
    have hs : nodeFound s i pxm = true := by rwa [nodeFound, ← htable]
    rw [Free, htable]
    exact h.own pxm hpxm i hi hne hs
  range i hi := by
    rw [htable]
    exact h.range i hi
  older i hi hused := by
    rw [Free, htable] at hused
    have := h.older i hi hused
    rw [htable]
    omega
  unique i hi j hj hused heq := by
    rw [Free, htable] at hused
    rw [htable] at heq
    exact h.unique i hi j hj hused heq

/-- A cleared table has no domains. -/
theorem Indexed.cleared (hfree : ∀ i < entries, Free s i) : Indexed entries s where
  own _ _ i hi _ hfound := absurd (hfree i hi) (nodeFound_iff.mp hfound).2
  range i hi := by
    rw [hfree i hi]
    decide
  older i hi hused := absurd (hfree i hi) hused
  unique i hi _ _ hused := absurd (hfree i hi) hused

/-- The next number is none of those in the table. -/
theorem Indexed.node_ne (h : Indexed entries s) {i : Nat} (hi : i < entries) (hused : ¬Free s i) :
    (s.pxm2node i).node ≠ s.nodesFound := by
  have := h.older i hi hused
  omega

/-- A domain that takes a free slot which is not its own finds its own slot taken. -/
theorem Indexed.own_taken (h : Indexed entries s) (hnot : ¬(pxm < entries ∧ nodeFound s pxm pxm = true))
    (hslot : Free s idx) (hother : idx ≠ pxm → pxm < entries → ¬Free s pxm)
    (hself : (t.pxm2node idx).pxm = pxm) (hothers : ∀ i ≠ idx, t.pxm2node i = s.pxm2node i) :
    ∀ q < entries, ∀ i < entries, i ≠ q → nodeFound t i q = true → ¬Free t q ∧ (t.pxm2node q).pxm ≠ q := by
  intro q hq i hi hne hfound
  obtain ⟨hpxm, hused⟩ := nodeFound_iff.mp hfound
  by_cases hidx : i = idx
  · -- the domain is numbered elsewhere, and its own slot is not free
    subst hidx
    obtain rfl : pxm = q := hself.symm.trans hpxm
    have hown : ¬Free s pxm := hother hne hq
    rw [Free, hothers pxm (Ne.symm hne)]
    exact ⟨hown, fun heq => hnot ⟨hq, nodeFound_iff.mpr ⟨heq, hown⟩⟩⟩
  · rw [Free, hothers i hidx] at hused
    rw [hothers i hidx] at hpxm
    obtain ⟨hown, hdiff⟩ := h.own q hq i hi hne (nodeFound_iff.mpr ⟨hpxm, hused⟩)
    have hqidx : q ≠ idx := by
      rintro rfl
      exact hown hslot
    rw [Free, hothers q hqidx]
    exact ⟨hown, hdiff⟩

/-- A slot with the next number shares it with no other. -/
theorem Indexed.unique_taken (h : Indexed entries s) (hself : (t.pxm2node idx).node = s.nodesFound)
    (hothers : ∀ i ≠ idx, t.pxm2node i = s.pxm2node i) :
    ∀ i < entries, ∀ j < entries, ¬Free t i → (t.pxm2node i).node = (t.pxm2node j).node → i = j := by
  intro i hi j hj hused heq
  by_cases hi' : i = idx <;> by_cases hj' : j = idx
  · exact hi'.trans hj'.symm
  · subst hi'
    rw [hself, hothers j hj'] at heq
    rw [Free, hself] at hused
    have hold : ¬Free s j := fun hfree => hused (heq.trans hfree)
    exact absurd heq.symm (h.node_ne hj hold)
  · subst hj'
    rw [hself, hothers i hi'] at heq
    rw [Free, hothers i hi'] at hused
    exact absurd heq (h.node_ne hi hused)
  · rw [hothers i hi', hothers j hj'] at heq
    rw [Free, hothers i hi'] at hused
    exact h.unique i hi j hj hused heq

/-- **A free slot is taken** by a domain that is not in its own slot, which is then the slot itself or not free. -/
theorem Indexed.taken (h : Indexed entries s) (hnot : ¬(pxm < entries ∧ nodeFound s pxm pxm = true))
    (hslot : Free s idx) (hother : idx ≠ pxm → pxm < entries → ¬Free s pxm) (hnode : s.nodesFound < maxNumnodes)
    (hle : s.nodesFound < t.nodesFound)
    (htable : t.pxm2node = Function.update s.pxm2node idx ⟨pxm, s.nodesFound⟩) : Indexed entries t := by
  have hself : t.pxm2node idx = ⟨pxm, s.nodesFound⟩ := by rw [htable, Function.update_self]
  have hpxm : (t.pxm2node idx).pxm = pxm := by rw [hself]
  have hnumber : (t.pxm2node idx).node = s.nodesFound := by rw [hself]
  have hothers : ∀ i ≠ idx, t.pxm2node i = s.pxm2node i := fun i hi => by rw [htable, Function.update_of_ne hi]
  constructor
  · exact h.own_taken hnot hslot hother hpxm hothers
  · intro i hi
    by_cases hidx : i = idx
    · subst hidx
      rw [hnumber]
      omega
    · rw [hothers i hidx]
      exact h.range i hi
  · intro i hi hused
    by_cases hidx : i = idx
    · subst hidx
      rw [hnumber]
      omega
    · rw [Free, hothers i hidx] at hused
      have := h.older i hi hused
      rw [hothers i hidx]
      omega
  · exact h.unique_taken hnumber hothers

/-- **One call** keeps the invariant. -/
theorem indexed_step {c : TableCall} (h : Indexed entries s) (hwrap : NoWrap entries s c) :
    Indexed entries (tableStep entries s c) := by
  cases c with
  | badSrat =>
    apply Indexed.cleared
    intro i hi
    have hin : 0 ≤ i ∧ i < 0 + entries := by omega
    simp only [tableStep, clearNodes_val, Free, if_pos hin]
  | setupNode pxm =>
    simp only [NoWrap, tableStep, setupNode_val] at hwrap ⊢
    by_cases hfound : pxm < entries ∧ nodeFound s pxm pxm = true
    · simp only [if_pos hfound]
      exact h
    simp only [if_neg hfound] at hwrap ⊢
    cases hslot : slotFor entries s pxm with
    | none => exact h.congr rfl (Nat.le_refl _)
    | some idx =>
      obtain ⟨-, hfree, hother⟩ := slotFor_free hslot
      simp only [hslot, Option.elim_some, finish_val] at hwrap ⊢
      by_cases hnode : maxNumnodes ≤ s.nodesFound
      · simp only [if_pos hnode] at hwrap ⊢
        exact h.congr rfl hwrap
      · simp only [if_neg hnode] at hwrap ⊢
        refine h.taken hfound hfree hother (Nat.lt_of_not_le hnode) ?_ rfl
        simp only
        omega

end Invariant

/-! ## The lookups -/

/-- **Plain lookups.** `pxm_to_node` and `node_to_pxm` return what a scan of the table from its first slot finds, and 0
if it finds nothing. -/
structure PlainLookups (entries : Nat) (s : Tables) : Prop where
  pxmToNode : ∀ pxm : Nat, ((pxmToNode entries s pxm).val : Int) =
    ((firstSlot entries fun i => nodeFound s i pxm).elim 0 fun i => (s.pxm2node i).node)
  nodeToPxm : ∀ n : Nat, (nodeToPxm entries s n).val =
    ((firstSlot entries fun i => (s.pxm2node i).node = n).elim 0 fun i => (s.pxm2node i).pxm)

section Lookups

variable {entries : Nat} {s : Tables}

/-- A domain in its own slot is in no earlier one. -/
theorem Indexed.firstSlot_own (h : Indexed entries s) {pxm : Nat} (hpxm : pxm < entries)
    (hfound : nodeFound s pxm pxm = true) : firstSlot entries (fun i => nodeFound s i pxm) = some pxm := by
  refine firstSlot_eq_some.mpr ⟨hfound, hpxm, fun j hj => ?_⟩
  rw [← Bool.not_eq_true]
  intro hj'
  exact (h.own pxm hpxm j (Nat.lt_trans hj hpxm) (Nat.ne_of_lt hj) hj').2 (nodeFound_iff.mp hfound).1

/-- A node in the slot of its number is in no earlier one. -/
theorem Indexed.firstSlot_node (h : Indexed entries s) {n : Nat} (hn : n < entries)
    (heq : (s.pxm2node n).node = n) : firstSlot entries (fun i => (s.pxm2node i).node = (n : Int)) = some n := by
  refine firstSlot_eq_some.mpr ⟨decide_eq_true heq, hn, fun j hj => decide_eq_false fun hj' => ?_⟩
  have hused : ¬Free s j := fun hfree => by
    rw [hfree] at hj'
    have h0 : (0 : Int) = n := hj'
    omega
  exact Nat.ne_of_lt hj (h.unique j (Nat.lt_trans hj hn) n hn hused (hj'.trans heq.symm))

/-- The conversion to `unsigned` does nothing to a node. -/
theorem Indexed.toUnsigned_node (h : Indexed entries s) {i : Nat} (hi : i < entries) :
    (toUnsigned (s.pxm2node i).node : Int) = (s.pxm2node i).node := by
  have := h.range i hi
  unfold maxNumnodes at this
  unfold toUnsigned
  omega

theorem Indexed.pxmToNode (h : Indexed entries s) (pxm : Nat) : ((pxmToNode entries s pxm).val : Int) =
    ((firstSlot entries fun i => nodeFound s i pxm).elim 0 fun i => (s.pxm2node i).node) := by
  by_cases hown : pxm < entries ∧ nodeFound s pxm pxm = true
  · rw [h.firstSlot_own hown.1 hown.2]
    simp [Numa.pxmToNode, hown, h.toUnsigned_node hown.1]
  have hscan := scanSlots_firstSlot (fun i => nodeFound s i pxm) entries
  have hval : (Numa.pxmToNode entries s pxm).val =
      (firstSlot entries fun i => nodeFound s i pxm).elim 0 fun i => toUnsigned (s.pxm2node i).node := by
    rw [← hscan]
    by_cases hpxm : pxm < entries
    · have hmiss : nodeFound s pxm pxm = false := by simpa [hpxm] using hown
      simp only [Numa.pxmToNode, hpxm, hmiss, if_true, Logged.val_bind, Bool.false_eq_true, if_false]
      cases (scanSlots (fun i => nodeFound s i pxm) entries 0).val <;> rfl
    · simp only [Numa.pxmToNode, hpxm, if_false, Logged.val_bind]
      cases (scanSlots (fun i => nodeFound s i pxm) entries 0).val <;> rfl
  rw [hval]
  cases hfirst : firstSlot entries fun i => nodeFound s i pxm with
  | none => rfl
  | some i => exact h.toUnsigned_node (firstSlot_eq_some.mp hfirst).2.1

theorem Indexed.nodeToPxm (h : Indexed entries s) (n : Nat) : (nodeToPxm entries s n).val =
    ((firstSlot entries fun i => (s.pxm2node i).node = n).elim 0 fun i => (s.pxm2node i).pxm) := by
  by_cases hown : n < entries ∧ (s.pxm2node n).node = n
  · rw [h.firstSlot_node hown.1 hown.2]
    simp [Numa.nodeToPxm, hown]
  have hscan := scanSlots_firstSlot (fun i => (s.pxm2node i).node = (n : Int)) entries
  rw [← hscan]
  by_cases hn : n < entries
  · have hmiss : ¬(s.pxm2node n).node = n := by simpa [hn] using hown
    simp only [Numa.nodeToPxm, Int.ofNat_lt, Int.natCast_nonneg, hn, and_self, if_true, Logged.val_bind,
      Int.toNat_natCast, hmiss, if_false]
    cases (scanSlots (fun i => decide ((s.pxm2node i).node = n)) entries 0).val <;> rfl
  · simp only [Numa.nodeToPxm, Int.ofNat_lt, hn, and_false, if_false, Logged.val_bind]
    cases (scanSlots (fun i => decide ((s.pxm2node i).node = n)) entries 0).val <;> rfl

end Lookups

/-- **The lookups** in every table that calls of `setup_node` and `bad_srat` make of the zeroed one are those of a plain
scan, as long as `nodes_found` does not wrap. -/
theorem lookups_plain (entries : Nat) (calls : List TableCall)
    (h : Along (NoWrap entries) (tableStep entries) init calls) :
    PlainLookups entries (calls.foldl (tableStep entries) init) := by
  have hinv : Indexed entries (calls.foldl (tableStep entries) init) :=
    (throughout_of_along (fun _ _ => indexed_step) (indexed_init entries) h).last
  exact ⟨hinv.pxmToNode, hinv.nodeToPxm⟩

/-- Domain 7 has the slot of domain 0, which then leaves a stale number in the other slot. -/
theorem lookups_plain_collision :
    PlainLookups 2 ([.setupNode 7, .setupNode 7, .setupNode 0, .badSrat, .setupNode 0].foldl (tableStep 2) init) :=
  lookups_plain 2 [.setupNode 7, .setupNode 7, .setupNode 0, .badSrat, .setupNode 0] (by decide +kernel)

end Xen.Numa
