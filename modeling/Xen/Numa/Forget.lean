import Xen.Numa.Lookups
import Xen.Numa.Scan

/-!
# What `bad_srat` forgets (`srat_verified.c`)

- A run is a list of `SratEvent`s: records for the callbacks, scans, and calls of `setup_node` and `bad_srat`.
- `Forgets` compares two states: after `bad_srat` the globals that it is about are the same in both, and so are the ids
  that any calls of `setup_node` return from there on.
- Tables with the same numbers, of which only the used slots count, return the same ids (`SameUsed.setupIds`). Tables
  with a free slot and different numbers do not, for enough calls (`setupIds_ne`).
- `forgets_iff`: `bad_srat` forgets everything but `nodes_found`, a static local of `setup_node`, and `mem_hotplug`,
  which a local hides in it.
-/

namespace Xen.Numa

open Lib

/-- The ids that calls of `setup_node` return. -/
def setupIds (entries : Nat) : Tables → List Nat → List Nat
  | _, [] => []
  | s, pxm :: pxms =>
    (setupNode entries s pxm).val.1 :: setupIds entries (setupNode entries s pxm).val.2 pxms

/-! ## The same numbers -/

/-- The tables have handed out the same numbers, and their used slots are the same. -/
structure SameUsed (entries : Nat) (s s' : Tables) : Prop where
  found : s.nodesFound = s'.nodesFound
  node : ∀ i < entries, (s.pxm2node i).node = (s'.pxm2node i).node
  pxm : ∀ i < entries, ¬Free s i → (s.pxm2node i).pxm = (s'.pxm2node i).pxm

section SameUsed

variable {entries : Nat} {s s' : Tables}

theorem SameUsed.nodeFound (h : SameUsed entries s s') {i : Nat} (hi : i < entries) (pxm : Nat) :
    nodeFound s i pxm = nodeFound s' i pxm := by
  by_cases hfree : Free s i
  · have hfree' : Free s' i := (h.node i hi).symm.trans hfree
    rw [Bool.eq_iff_iff, nodeFound_iff, nodeFound_iff]
    exact iff_of_false (fun hused => hused.2 hfree) fun hused => hused.2 hfree'
  · simp only [Numa.nodeFound, h.node i hi, h.pxm i hi hfree]

theorem SameUsed.slotFor (h : SameUsed entries s s') (pxm : Nat) : slotFor entries s pxm = slotFor entries s' pxm := by
  have hfirst : firstSlot entries (fun idx => (s.pxm2node idx).node = numaNoNode) =
      firstSlot entries fun idx => (s'.pxm2node idx).node = numaNoNode :=
    firstSlot_congr fun i hi => by rw [h.node i hi]
  have hown : (pxm < entries ∧ (s.pxm2node pxm).node = numaNoNode) ↔
      (pxm < entries ∧ (s'.pxm2node pxm).node = numaNoNode) :=
    and_congr_right fun hpxm => by rw [h.node pxm hpxm]
  rw [Numa.slotFor, Numa.slotFor, hfirst]
  exact ite_congr (propext hown) (fun _ => rfl) fun _ => rfl

/-- The slot that is taken is the same one. -/
theorem SameUsed.finish (h : SameUsed entries s s') (idx pxm : Nat) :
    (finish s idx pxm).val.1 = (finish s' idx pxm).val.1 ∧
      SameUsed entries (finish s idx pxm).val.2 (finish s' idx pxm).val.2 := by
  rw [finish_val, finish_val, h.found]
  by_cases hnode : maxNumnodes ≤ s'.nodesFound
  · rw [if_pos hnode, if_pos hnode]
    exact ⟨rfl, rfl, h.node, h.pxm⟩
  · rw [if_neg hnode, if_neg hnode]
    refine ⟨rfl, rfl, fun i hi => ?_, fun i hi hused => ?_⟩
    · by_cases hidx : i = idx
      · subst hidx
        simp only [Function.update_self]
      · simpa only [Function.update_of_ne hidx] using h.node i hi
    · by_cases hidx : i = idx
      · subst hidx
        simp only [Function.update_self]
      · simp only [Free, Function.update_of_ne hidx] at hused ⊢
        exact h.pxm i hi hused

/-- **One call** returns the same id. -/
theorem SameUsed.setupNode (h : SameUsed entries s s') (pxm : Nat) :
    (setupNode entries s pxm).val.1 = (setupNode entries s' pxm).val.1 ∧
      SameUsed entries (setupNode entries s pxm).val.2 (setupNode entries s' pxm).val.2 := by
  have hown : (pxm < entries ∧ Numa.nodeFound s pxm pxm = true) ↔
      (pxm < entries ∧ Numa.nodeFound s' pxm pxm = true) :=
    and_congr_right fun hpxm => by rw [h.nodeFound hpxm]
  rw [setupNode_val, setupNode_val, h.slotFor pxm]
  by_cases hfound : pxm < entries ∧ Numa.nodeFound s' pxm pxm = true
  · rw [if_pos (hown.mpr hfound), if_pos hfound, h.node pxm hfound.1]
    exact ⟨rfl, h⟩
  · rw [if_neg (mt hown.mp hfound), if_neg hfound]
    cases Numa.slotFor entries s' pxm with
    | none => exact ⟨rfl, h.found, h.node, h.pxm⟩
    | some idx => exact h.finish idx pxm

/-- **All calls** do. -/
theorem SameUsed.setupIds (h : SameUsed entries s s') (pxms : List Nat) :
    setupIds entries s pxms = setupIds entries s' pxms := by
  induction pxms generalizing s s' with
  | nil => rfl
  | cons pxm pxms ih =>
    obtain ⟨hid, hsame⟩ := h.setupNode pxm
    rw [Numa.setupIds, Numa.setupIds, hid, ih hsame]

end SameUsed

/-! ## Different numbers -/

section Different

variable {entries : Nat} {s s' : Tables}

/-- **A domain with a free slot of its own**: it gets the next number there, unless that is too large. -/
theorem setupNode_free {pxm : Nat} (hpxm : pxm < entries) (h : Free s pxm) :
    (setupNode entries s pxm).val.1 = (if maxNumnodes ≤ s.nodesFound then numaNoNode else s.nodesFound) ∧
    (setupNode entries s pxm).val.2.nodesFound = (s.nodesFound + 1) % 2 ^ 32 ∧
    (s.nodesFound = 0 ∨ maxNumnodes ≤ s.nodesFound → Free (setupNode entries s pxm).val.2 pxm) := by
  have hmiss : ¬(pxm < entries ∧ nodeFound s pxm pxm = true) := fun hown => (nodeFound_iff.mp hown.2).2 h
  have hslot : slotFor entries s pxm = some pxm := if_pos ⟨hpxm, h⟩
  rw [setupNode_val, if_neg hmiss, hslot, Option.elim_some, finish_val]
  by_cases hnode : maxNumnodes ≤ s.nodesFound
  · rw [if_pos hnode, if_pos hnode]
    exact ⟨rfl, rfl, fun _ => h⟩
  · rw [if_neg hnode, if_neg hnode]
    refine ⟨rfl, rfl, fun h0 => ?_⟩
    simp only [Free, Function.update_self, h0.resolve_right hnode]
    rfl

/-- Ids that differ after a call differ with the call. -/
theorem setupIds_ne_cons (pxm : Nat) (h : ∃ pxms, setupIds entries (setupNode entries s pxm).val.2 pxms ≠
    setupIds entries (setupNode entries s' pxm).val.2 pxms) :
    ∃ pxms, setupIds entries s pxms ≠ setupIds entries s' pxms := by
  obtain ⟨pxms, hne⟩ := h
  exact ⟨pxm :: pxms, fun heq => hne (List.cons.inj heq).2⟩

/-- Ids that differ in the first call. -/
theorem setupIds_ne_head (pxm : Nat) (h : (setupNode entries s pxm).val.1 ≠ (setupNode entries s' pxm).val.1) :
    ∃ pxms, setupIds entries s pxms ≠ setupIds entries s' pxms :=
  ⟨[pxm], fun heq => h (List.cons.inj heq).1⟩

/-- A number that can be handed out, and a larger one: the first or the second call tells them apart. -/
theorem setupIds_ne_of_small (he : 0 < entries) (h : Free s 0) (h' : Free s' 0) (hlt : s.nodesFound < s'.nodesFound)
    (hs' : s'.nodesFound < 2 ^ 32) (hsmall : s.nodesFound < maxNumnodes) :
    ∃ pxms, setupIds entries s pxms ≠ setupIds entries s' pxms := by
  obtain ⟨hid, hfound, hfree⟩ := setupNode_free he h
  obtain ⟨hid', hfound', hfree'⟩ := setupNode_free he h'
  rw [if_neg (Nat.not_le.mpr hsmall)] at hid
  by_cases hlarge : maxNumnodes ≤ s'.nodesFound
  · rw [if_pos hlarge] at hid'
    by_cases h0 : s.nodesFound = 0
    · -- both return 0, but one of the numbers is now 1 and the other one is not
      refine setupIds_ne_cons 0 (setupIds_ne_head 0 ?_)
      have hnext := (setupNode_free he (hfree (Or.inl h0))).1
      have hnext' := (setupNode_free he (hfree' (Or.inr hlarge))).1
      rw [hnext, hnext', hfound, hfound', h0]
      unfold maxNumnodes numaNoNode at *
      split_ifs <;> omega
    · refine setupIds_ne_head 0 ?_
      rw [hid, hid']
      exact h0
  · rw [if_neg hlarge] at hid'
    refine setupIds_ne_head 0 ?_
    rw [hid, hid']
    exact Nat.ne_of_lt hlt

/-- **Any two numbers** are told apart by enough calls: too large ones are counted up until one of them wraps. -/
theorem setupIds_ne_of_lt (he : 0 < entries) {k : Nat} (h : Free s 0) (h' : Free s' 0)
    (hlt : s.nodesFound < s'.nodesFound) (hk : s'.nodesFound + (k + 1) = 2 ^ 32) :
    ∃ pxms, setupIds entries s pxms ≠ setupIds entries s' pxms := by
  induction k generalizing s s' with
  | zero =>
    by_cases hsmall : s.nodesFound < maxNumnodes
    · exact setupIds_ne_of_small he h h' hlt (by omega) hsmall
    have hlarge := Nat.le_of_not_lt hsmall
    obtain ⟨-, hfound, hfree⟩ := setupNode_free he h
    obtain ⟨-, hfound', hfree'⟩ := setupNode_free he h'
    have hwrap : (setupNode entries s' 0).val.2.nodesFound = 0 := by omega
    obtain ⟨pxms, hne⟩ := setupIds_ne_of_small he (hfree' (Or.inr (by omega))) (hfree (Or.inr hlarge))
      (by omega) (by omega) (by rw [hwrap]; decide)
    exact setupIds_ne_cons 0 ⟨pxms, Ne.symm hne⟩
  | succ k ih =>
    by_cases hsmall : s.nodesFound < maxNumnodes
    · exact setupIds_ne_of_small he h h' hlt (by omega) hsmall
    have hlarge := Nat.le_of_not_lt hsmall
    obtain ⟨-, hfound, hfree⟩ := setupNode_free he h
    obtain ⟨-, hfound', hfree'⟩ := setupNode_free he h'
    exact setupIds_ne_cons 0 (ih (hfree (Or.inr hlarge)) (hfree' (Or.inr (by omega))) (by omega) (by omega))

/-- Words that differ are told apart. -/
theorem setupIds_ne (he : 0 < entries) (h : Free s 0) (h' : Free s' 0) (hs : s.nodesFound < 2 ^ 32)
    (hs' : s'.nodesFound < 2 ^ 32) (hne : s.nodesFound ≠ s'.nodesFound) :
    ∃ pxms, setupIds entries s pxms ≠ setupIds entries s' pxms := by
  rcases Nat.lt_or_gt_of_ne hne with hlt | hlt
  · exact setupIds_ne_of_lt (k := 2 ^ 32 - s'.nodesFound - 1) he h h' hlt (by omega)
  · obtain ⟨pxms, hdiff⟩ := setupIds_ne_of_lt (k := 2 ^ 32 - s.nodesFound - 1) he h' h hlt (by omega)
    exact ⟨pxms, Ne.symm hdiff⟩

end Different

/-! ## Runs -/

/-- What changes the globals: a record for one of the callbacks, a scan, and calls of `setup_node` and `bad_srat`. -/
inductive SratEvent where
  | record (r : Record)
  | scan (env : ScanEnv) (start stop : Nat)
  | setupNode (pxm : Nat)
  | badSrat

/-- The globals after the event. -/
def sratStep (env : Env) (s : Srat) : SratEvent → Srat
  | .record r => stepRecord env s r
  | .scan scanEnv start stop => (acpiScanNodes scanEnv s start stop).val.2
  | .setupNode pxm => { s with tables := (setupNode sizeofPxm2node s.tables pxm).val.2 }
  | .badSrat => (badSrat s).val

/-- **`bad_srat` forgets** where the two states differ: its globals are the same afterwards, and so are the ids of any
further calls of `setup_node`. -/
structure Forgets (s s' : Srat) : Prop where
  acpiNuma : (badSrat s).val.acpiNuma = (badSrat s').val.acpiNuma
  apicidToNode : ∀ i, 0 ≤ i → i < 256 → (badSrat s).val.apicidToNode i = (badSrat s').val.apicidToNode i
  node : ∀ i < maxNumnodes,
    ((badSrat s).val.tables.pxm2node i).node = ((badSrat s').val.tables.pxm2node i).node
  memHotplug : (badSrat s).val.memHotplug = (badSrat s').val.memHotplug
  ids : ∀ pxms, setupIds sizeofPxm2node (badSrat s).val.tables pxms =
    setupIds sizeofPxm2node (badSrat s').val.tables pxms

section Forgets

variable {env : Env} {s s' : Srat}

/-- All slots are free afterwards. -/
theorem badSrat_free (s : Srat) {i : Nat} (hi : i < sizeofPxm2node) : Free (badSrat s).val.tables i := by
  have hin : 0 ≤ i ∧ i < 0 + sizeofPxm2node := by omega
  simp only [badSrat, Logged.val_bind, Logged.val_pure, clearNodes_val, Free, if_pos hin]

theorem badSrat_nodesFound (s : Srat) : (badSrat s).val.tables.nodesFound = s.tables.nodesFound := by
  simp only [badSrat, Logged.val_bind, Logged.val_pure, clearNodes_val]

theorem badSrat_memHotplug (s : Srat) : (badSrat s).val.memHotplug = s.memHotplug := by
  simp only [badSrat, Logged.val_bind, Logged.val_pure]

/-- **Two states** are the same afterwards exactly if they agree on what `bad_srat` leaves. -/
theorem forgets_of_words (h : s.tables.nodesFound < 2 ^ 32) (h' : s'.tables.nodesFound < 2 ^ 32) :
    Forgets s s' ↔ s.tables.nodesFound = s'.tables.nodesFound ∧ s.memHotplug = s'.memHotplug := by
  constructor
  · intro hok
    have hplug := hok.memHotplug
    rw [badSrat_memHotplug, badSrat_memHotplug] at hplug
    refine ⟨?_, hplug⟩
    by_contra hne
    rw [← badSrat_nodesFound s, ← badSrat_nodesFound s'] at hne
    rw [← badSrat_nodesFound] at h h'
    have hpos : 0 < sizeofPxm2node := by decide
    obtain ⟨pxms, hdiff⟩ := setupIds_ne hpos (badSrat_free s hpos) (badSrat_free s' hpos) h h' hne
    exact hdiff (hok.ids pxms)
  · rintro ⟨hfound, hplug⟩
    have hnode : ∀ i < sizeofPxm2node,
        ((badSrat s).val.tables.pxm2node i).node = ((badSrat s').val.tables.pxm2node i).node := fun i hi =>
      (badSrat_free s hi).trans (badSrat_free s' hi).symm
    have hsame : SameUsed sizeofPxm2node (badSrat s).val.tables (badSrat s').val.tables :=
      ⟨by rw [badSrat_nodesFound, badSrat_nodesFound, hfound], hnode,
        fun i hi hused => absurd (badSrat_free s hi) hused⟩
    constructor
    · simp only [badSrat, Logged.val_bind, Logged.val_pure]
    · intro i h0 hi
      simp only [badSrat, Logged.val_bind, Logged.val_pure, h0, hi, and_self, if_true]
    · intro i hi
      exact hnode i (Nat.lt_of_lt_of_le hi (by decide))
    · rw [badSrat_memHotplug, badSrat_memHotplug, hplug]
    · exact hsame.setupIds

/-- A record changes nothing or ends in `bad_srat`. -/
theorem stepRecord_cases (env : Env) (s : Srat) (r : Record) :
    stepRecord env s r = s ∨ stepRecord env s r = (badSrat s).val := by
  cases h : env.sratDisabled s with
  | false => exact Or.inr (congrArg Logged.val (feed_enabled h r))
  | true =>
    apply Or.inl
    match r with
    | .cpu (.x2apic pa) => simp [stepRecord, feed, x2apicAffinityInit, h]
    | .cpu (.processor pa) => simp [stepRecord, feed, processorAffinityInit, h]
    | .memory ma => simp [stepRecord, feed, memoryAffinityInit, h]

/-- A scan hands out no number. -/
theorem acpiScanNodes_nodesFound (scanEnv : ScanEnv) (s : Srat) (start stop : Nat) :
    (acpiScanNodes scanEnv s start stop).val.2.tables.nodesFound = s.tables.nodesFound := by
  rw [acpiScanNodes]
  simp only [Logged.val_ite]
  by_cases hnuma : s.acpiNuma ≤ 0
  · simp only [if_pos hnuma, Logged.val_pure]
  · rw [if_neg hnuma]
    cases (nodesCoverMemory scanEnv.e820 (cutoffNodes start stop maxNumnodes 0 s.nodes) scanEnv.nodesParsed).val with
    | none => simp only [Logged.val_pure]
    | some covered =>
      cases covered with
      | false => simp only [Logged.val_pure, badSrat_nodesFound]
      | true => simp only [Logged.val_bind, Logged.val_pure, Nat.not_lt_zero, if_false]

/-- `setup_node` counts in a word. -/
theorem setupNode_word {entries : Nat} {t : Tables} (h : t.nodesFound < 2 ^ 32) (pxm : Nat) :
    (setupNode entries t pxm).val.2.nodesFound < 2 ^ 32 := by
  have hcount : (t.nodesFound + 1) % 2 ^ 32 < 2 ^ 32 := Nat.mod_lt _ (by decide)
  rw [setupNode_val]
  split
  · exact h
  · cases slotFor entries t pxm with
    | none => exact h
    | some idx =>
      rw [Option.elim_some, finish_val]
      split
      · exact hcount
      · exact hcount

/-- **One event** keeps `nodes_found` a word. -/
theorem sratStep_word (h : s.tables.nodesFound < 2 ^ 32) (e : SratEvent) :
    (sratStep env s e).tables.nodesFound < 2 ^ 32 := by
  cases e with
  | record r =>
    rcases stepRecord_cases env s r with hr | hr
    · rw [sratStep, hr]
      exact h
    · rw [sratStep, hr, badSrat_nodesFound]
      exact h
  | scan scanEnv start stop =>
    rw [sratStep, acpiScanNodes_nodesFound]
    exact h
  | setupNode pxm => exact setupNode_word h pxm
  | badSrat =>
    rw [sratStep, badSrat_nodesFound]
    exact h

end Forgets

/-- **What `bad_srat` forgets.** For any two states that runs can reach from words, the globals and all further ids are
the same after it exactly if `nodes_found` and `mem_hotplug` were. -/
theorem forgets_iff (env env' : Env) (s s' : Srat) (h : s.tables.nodesFound < 2 ^ 32)
    (h' : s'.tables.nodesFound < 2 ^ 32) (es es' : List SratEvent) :
    Forgets (es.foldl (sratStep env) s) (es'.foldl (sratStep env') s') ↔
      (es.foldl (sratStep env) s).tables.nodesFound = (es'.foldl (sratStep env') s').tables.nodesFound ∧
      (es.foldl (sratStep env) s).memHotplug = (es'.foldl (sratStep env') s').memHotplug := by
  have hstep : ∀ (env : Env) (s : Srat) (e : SratEvent), s.tables.nodesFound < 2 ^ 32 →
      (sratStep env s e).tables.nodesFound < 2 ^ 32 := fun _ _ e hs => sratStep_word hs e
  exact forgets_of_words (foldl_inv (hstep env) h es) (foldl_inv (hstep env') h' es')

/-- Two runs from the zeroed globals that each number one domain, and not the same one. -/
theorem forgets_renumbered : Forgets ([SratEvent.setupNode 0, .badSrat].foldl (sratStep plainEnv) (start 2))
    ([SratEvent.setupNode 3].foldl (sratStep plainEnv) (start 2)) := by
  have hone : ∀ pxm < sizeofPxm2node, (setupNode sizeofPxm2node init pxm).val.2.nodesFound = 1 := fun pxm hpxm =>
    have hfree : Free init pxm := rfl
    (setupNode_free hpxm hfree).2.1
  refine (forgets_iff plainEnv plainEnv (start 2) (start 2) (by decide) (by decide) [.setupNode 0, .badSrat]
    [.setupNode 3]).mpr ⟨?_, badSrat_memHotplug _⟩
  exact (badSrat_nodesFound _).trans ((hone 0 (by decide)).trans (hone 3 (by decide)).symm)

/-- A domain that was numbered before: the next one does not get the id that it would. -/
theorem forgets_counterexample : ¬ ∀ (env : Env) (sratRev : Int) (es es' : List SratEvent),
    Forgets (es.foldl (sratStep env) (start sratRev)) (es'.foldl (sratStep env) (start sratRev)) := by
  intro h
  have hfree : Free init 0 := rfl
  have hone : (setupNode sizeofPxm2node init 0).val.2.nodesFound = 1 := (setupNode_free (by decide) hfree).2.1
  have hok : Forgets (start 2) (sratStep plainEnv (start 2) (.setupNode 0)) := h plainEnv 2 [] [.setupNode 0]
  have hfound := ((forgets_of_words (by decide) (sratStep_word (by decide) _)).mp hok).1
  have hzero : 0 = (setupNode sizeofPxm2node init 0).val.2.nodesFound := hfound
  rw [hone] at hzero
  cases hzero

end Xen.Numa
