import Mathlib.Data.List.Nodup
import Xen.Percpu.Areas

/-!
# Freeing the areas of several CPUs (`percpu_verified.c`)

- A schedule of `FreeEvent`s calls `free_percpu_area` once for each of some CPUs and runs the queued callbacks in
  between; `freed` are the addresses it frees.
- `per_cpu(&f, cpu)` is the same `free_info` for every CPU, so that a request overwrites the CPU number of one that is
  pending. `freeing_iff`: each area is freed exactly once, and no other, exactly if no request comes over a pending one.
- `freed_of_idle` says what such a schedule frees, `kept_of_overtaken` which offset any other one leaves.
-/

namespace Xen.Percpu

open Lib

/-- A call of `free_percpu_area`, or the run of a queued `_free_percpu_area`. -/
inductive FreeEvent (n : Nat) where
  | request (cpu : Fin n)
  | callback
deriving DecidableEq, Repr

section Freeing

variable {n : Nat} (start : Nat)

/-- One event. -/
def freeStep (s : State n) : FreeEvent n → State n
  | .request cpu => freePercpuArea s cpu
  | .callback => freePercpuAreaRcu start s

/-- The CPUs whose areas are to be freed. -/
def requests : List (FreeEvent n) → List (Fin n)
  | [] => []
  | .request cpu :: es => cpu :: requests es
  | .callback :: es => requests es

/-- The addresses handed to `free_xenheap_pages`, oldest first. -/
def freed : State n → List (FreeEvent n) → List Nat
  | _, [] => []
  | s, .request cpu :: es => freed (freeStep start s (.request cpu)) es
  | s, .callback :: es => freedArea start s :: freed (freeStep start s .callback) es

/-- The area of a CPU. -/
def area (s : State n) (cpu : Fin n) : Nat := start + s.perCpuOffset cpu

/-- A callback runs when one is pending. -/
def CallbackLegal (s : State n) : FreeEvent n → Prop
  | .request _ => True
  | .callback => 0 < s.pending

/-- No request comes over a pending one. -/
def RequestWhenIdle (s : State n) : FreeEvent n → Prop
  | .request _ => s.pending = 0
  | .callback => True

instance (s : State n) : ∀ e : FreeEvent n, Decidable (CallbackLegal s e)
  | .request _ => .isTrue trivial
  | .callback => inferInstanceAs (Decidable (0 < s.pending))

instance (s : State n) : ∀ e : FreeEvent n, Decidable (RequestWhenIdle s e)
  | .request _ => inferInstanceAs (Decidable (s.pending = 0))
  | .callback => .isTrue trivial

/-- A schedule that frees the areas of some CPUs, each allocated and shared with no other CPU: one request for each, and
as many callbacks. -/
structure Schedule (s : State n) (es : List (FreeEvent n)) : Prop where
  idle : s.pending = 0
  once : (requests es).Nodup
  allocated : ∀ c ∈ requests es, s.perCpuOffset c ≠ invalidPercpuArea start ∧ area start s c ∈ s.live
  distinct : ∀ c ∈ requests es, ∀ d, s.perCpuOffset d ≠ invalidPercpuArea start →
    area start s c = area start s d → c = d
  legal : Along CallbackLegal (freeStep start) s es
  complete : (es.foldl (freeStep start) s).pending = 0

/-- **Freeing.** Each of the areas is freed exactly once and its CPU's offset is marked invalid; the areas and offsets
of the other CPUs stay. -/
structure FreesOk (s : State n) (es : List (FreeEvent n)) : Prop where
  freed : ∀ c ∈ requests es, (freed start s es).count (area start s c) = 1
  marked : ∀ c ∈ requests es, (es.foldl (freeStep start) s).perCpuOffset c = invalidPercpuArea start
  others : ∀ d, d ∉ requests es → (es.foldl (freeStep start) s).perCpuOffset d = s.perCpuOffset d ∧
    (s.perCpuOffset d ≠ invalidPercpuArea start → area start s d ∉ Percpu.freed start s es)

variable {start} {s : State n}

variable (start) in
/-- A request and its callback. -/
theorem freeStep_pair (cpu : Fin n) (h : s.pending = 0) :
    (freeStep start (freeStep start s (.request cpu)) .callback).pending = 0 ∧
    (freeStep start (freeStep start s (.request cpu)) .callback).perCpuOffset =
      Function.update s.perCpuOffset cpu (invalidPercpuArea start) := by
  refine ⟨?_, rfl⟩
  show s.pending + 1 - 1 = 0
  omega

/-- The area of another CPU stays in place when one is freed. -/
theorem area_pair {cpu c : Fin n} (h : s.pending = 0) (hne : c ≠ cpu) :
    area start (freeStep start (freeStep start s (.request cpu)) .callback) c = area start s c := by
  rw [area, (freeStep_pair start cpu h).2, Function.update_of_ne hne, area]

/-- **Without overtaking**, the areas are freed in the order of the requests, and just these offsets are marked. -/
theorem freed_of_idle : ∀ {es : List (FreeEvent n)} {s : State n}, s.pending = 0 → (requests es).Nodup →
    Along CallbackLegal (freeStep start) s es → (es.foldl (freeStep start) s).pending = 0 →
    Along RequestWhenIdle (freeStep start) s es →
    freed start s es = (requests es).map (area start s) ∧
      (∀ c ∈ requests es, (es.foldl (freeStep start) s).perCpuOffset c = invalidPercpuArea start) ∧
      ∀ c, c ∉ requests es → (es.foldl (freeStep start) s).perCpuOffset c = s.perCpuOffset c
  | [], _, _, _, _, _, _ => ⟨rfl, fun _ hc => absurd hc List.not_mem_nil, fun _ _ => rfl⟩
  | .callback :: _, _, hidle, _, hlegal, _, _ => absurd hlegal.1 (by simp only [CallbackLegal]; omega)
  | [.request _], _, _, _, _, hcomplete, _ => absurd hcomplete (Nat.succ_ne_zero _)
  | .request _ :: .request _ :: _, _, _, _, _, _, hwhen => absurd hwhen.2.1 (Nat.succ_ne_zero _)
  | .request cpu :: .callback :: es, s, hidle, honce, hlegal, hcomplete, hwhen => by
    obtain ⟨hnew, honce'⟩ : cpu ∉ requests es ∧ (requests es).Nodup := List.nodup_cons.mp honce
    obtain ⟨hidle', hoffset⟩ := freeStep_pair start cpu hidle
    obtain ⟨hfreed, hmarked, hkept⟩ := freed_of_idle hidle' honce' hlegal.2.2 hcomplete hwhen.2.2
    refine ⟨?_, fun c hc => ?_, fun c hc => ?_⟩
    · show area start s cpu :: freed start _ es = area start s cpu :: (requests es).map (area start s)
      rw [hfreed]
      refine congrArg _ (List.map_congr_left fun c hc => area_pair hidle ?_)
      rintro rfl
      exact hnew hc
    · rcases List.mem_cons.mp hc with rfl | hc
      · refine (hkept c hnew).trans ?_
        rw [hoffset, Function.update_self]
      · exact hmarked c hc
    · obtain ⟨hne, hc⟩ := not_or.mp (mt List.mem_cons.mpr hc)
      refine (hkept c hc).trans ?_
      rw [hoffset, Function.update_of_ne hne]

/-- An offset stays if its CPU is neither noted nor requested. -/
theorem offset_kept {c : Fin n} {es : List (FreeEvent n)} (hinfo : s.infoCpu ≠ c) (hc : c ∉ requests es) :
    (es.foldl (freeStep start) s).perCpuOffset c = s.perCpuOffset c := by
  induction es generalizing s with
  | nil => rfl
  | cons e es ih =>
    rw [List.foldl_cons]
    cases e with
    | request cpu =>
      have hne : c ≠ cpu ∧ c ∉ requests es := not_or.mp (mt List.mem_cons.mpr hc)
      exact ih (s := freePercpuArea s cpu) (Ne.symm hne.1) hne.2
    | callback =>
      have hoffset : (freePercpuAreaRcu start s).perCpuOffset c = s.perCpuOffset c :=
        Function.update_of_ne (Ne.symm hinfo) _ _
      exact (ih (s := freePercpuAreaRcu start s) hinfo hc).trans hoffset

/-- **With overtaking**, the offset of the CPU that was overtaken stays. -/
theorem kept_of_overtaken : ∀ {es : List (FreeEvent n)} {s : State n}, s.pending = 0 → (requests es).Nodup →
    Along CallbackLegal (freeStep start) s es → ¬Along RequestWhenIdle (freeStep start) s es →
    ∃ c ∈ requests es, (es.foldl (freeStep start) s).perCpuOffset c = s.perCpuOffset c
  | [], _, _, _, _, hover => absurd trivial hover
  | .callback :: _, _, hidle, _, hlegal, _ => absurd hlegal.1 (by simp only [CallbackLegal]; omega)
  | [.request _], _, hidle, _, _, hover => absurd ⟨hidle, trivial⟩ hover
  | .request cpu :: .request other :: es, s, _, honce, _, _ => by
    have hnew : cpu ∉ other :: requests es := (List.nodup_cons.mp honce).1
    have hne : cpu ≠ other ∧ cpu ∉ requests es := not_or.mp (mt List.mem_cons.mpr hnew)
    exact ⟨cpu, List.mem_cons_self,
      offset_kept (s := freePercpuArea (freePercpuArea s cpu) other) (Ne.symm hne.1) hne.2⟩
  | .request cpu :: .callback :: es, s, hidle, honce, hlegal, hover => by
    obtain ⟨hnew, honce'⟩ : cpu ∉ requests es ∧ (requests es).Nodup := List.nodup_cons.mp honce
    obtain ⟨hidle', hoffset⟩ := freeStep_pair start cpu hidle
    obtain ⟨c, hc, hkept⟩ := kept_of_overtaken hidle' honce' hlegal.2.2 fun hwhen =>
      hover ⟨hidle, trivial, hwhen⟩
    refine ⟨c, List.mem_cons_of_mem _ hc, hkept.trans ?_⟩
    rw [hoffset, Function.update_of_ne]
    rintro rfl
    exact hnew hc

/-- **Freeing several areas.** Each area is freed exactly once and no other one, with its CPU's offset marked, exactly
if no request comes while the callback of an earlier one is pending. -/
theorem freeing_iff (start : Nat) (s : State n) (es : List (FreeEvent n)) (h : Schedule start s es) :
    FreesOk start s es ↔ Along RequestWhenIdle (freeStep start) s es := by
  constructor
  · intro hok
    by_contra hover
    obtain ⟨c, hc, hkept⟩ := kept_of_overtaken h.idle h.once h.legal hover
    exact (h.allocated c hc).1 (hkept.symm.trans (hok.marked c hc))
  · intro hwhen
    obtain ⟨hfreed, hmarked, hkept⟩ := freed_of_idle h.idle h.once h.legal h.complete hwhen
    have hareas : ((requests es).map (area start s)).Nodup :=
      List.Nodup.map_on (fun c hc d hd heq => h.distinct c hc d (h.allocated d hd).1 heq) h.once
    constructor
    · intro c hc
      rw [hfreed]
      exact List.count_eq_one_of_mem hareas (List.mem_map_of_mem hc)
    · exact hmarked
    · intro d hd
      refine ⟨hkept d hd, fun hvalid hmem => ?_⟩
      rw [hfreed] at hmem
      obtain ⟨c, hc, heq⟩ := List.mem_map.mp hmem
      exact hd (h.distinct c hc d hvalid heq ▸ hc)

end Freeing

/-! ### Two CPUs -/

/-- CPUs 0 and 1 with areas behind `__per_cpu_start = 4096`. -/
def twoAreas : State 2 := ⟨fun cpu => if cpu = 0 then 4096 else 8192, 0, 0, {8192, 12288}, true⟩

/-- Both requests come before the callbacks: the area of CPU 0 is never freed. -/
theorem freeing_counterexample :
    ¬ ∀ (n start : Nat) (s : State n) (es : List (FreeEvent n)), Schedule start s es → FreesOk start s es := by
  intro h
  have hs : Schedule 4096 twoAreas [.request 0, .request 1, .callback, .callback] :=
    ⟨by decide, by decide, by decide +kernel, by decide +kernel, by decide +kernel, by decide⟩
  have hfreed := (h 2 4096 twoAreas _ hs).freed 0 (by decide)
  exact absurd hfreed (by decide +kernel)

/-- Each callback runs before the next request. -/
theorem freeing_inTurn : FreesOk 4096 twoAreas [.request 0, .callback, .request 1, .callback] :=
  (freeing_iff 4096 twoAreas _
    ⟨by decide, by decide, by decide +kernel, by decide +kernel, by decide +kernel, by decide⟩).mpr (by decide +kernel)

end Xen.Percpu
