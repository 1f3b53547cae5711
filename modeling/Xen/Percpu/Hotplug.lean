import Mathlib.Data.Fintype.Basic
import Mathlib.Data.Finset.Card
import Xen.Percpu.Freeing

/-!
# Hotplug of all CPUs (`percpu_verified.c`)

- A run is a list of `HotplugEvent`s: `cpu_percpu_callback` for any CPU and any action, and queued callbacks that run.
- The static area, with offset 0, is none that `init_percpu_area` has allocated: a CPU owns one (`Own`) if its offset is
  another valid one.
- `Ledger` says who owns what: every CPU that owns an area has an allocated one, no two CPUs share one, and no other
  area is allocated. At most one callback is pending, and it is about a CPU that owns an area.
- `ledger_step`: an event keeps the ledger if a CPU gives its area up only when it owns one and no callback is pending,
  since there is one `free_info` for all of them, and if the allocator returns new blocks (`HotplugLegal`).
- `hotplug_ledger`: so no area is lost, shared or freed twice in a run of such events, with or without parked CPUs.
-/

namespace Xen.Percpu

open Lib

/-! ## Runs -/

/-- A notification about a CPU, with what the allocator would return, or the run of a queued callback. -/
inductive HotplugEvent (n : Nat) where
  | notify (action : Action) (cpu : Fin n) (p : Nat)
  | callback
deriving DecidableEq, Repr

section Hotplug

variable {n : Nat} (cfg : Config)

/-- One event. -/
def hotplugStep (s : State n) : HotplugEvent n → State n
  | .notify action cpu p => (cpuPercpuCallback cfg s action cpu p).2
  | .callback => freePercpuAreaRcu cfg.start s

/-- The action makes the CPU give up its area. -/
def Action.Frees : Action → Prop
  | .upPrepare => False
  | .upCanceled | .dead => cfg.park = false
  | .remove => cfg.park = true

instance : ∀ action : Action, Decidable (action.Frees cfg)
  | .upPrepare => .isFalse id
  | .upCanceled | .dead => inferInstanceAs (Decidable (cfg.park = false))
  | .remove => inferInstanceAs (Decidable (cfg.park = true))

/-- The offset of the CPU is not marked invalid. -/
def Valid (s : State n) (cpu : Fin n) : Prop := s.perCpuOffset cpu ≠ invalidPercpuArea cfg.start

instance (s : State n) (cpu : Fin n) : Decidable (Valid cfg s cpu) := inferInstanceAs (Decidable (_ ≠ _))

/-- The CPU owns an area, one that was allocated. -/
def Own (s : State n) (cpu : Fin n) : Prop := Valid cfg s cpu ∧ s.perCpuOffset cpu ≠ 0

instance (s : State n) (cpu : Fin n) : Decidable (Own cfg s cpu) := inferInstanceAs (Decidable (_ ∧ _))

/-- Behind `percpu_init_areas` CPU 0 runs on the static area, and nothing is allocated. -/
def booted (cpu : Fin n) : State n := { initial cfg cpu with live := ∅ }

/-- The allocator fails or returns a new block less than `INT_MAX` above `__per_cpu_start` whose offset is a valid one;
a CPU gives up an area that it owns while no callback is pending; a callback runs when one is. -/
def HotplugLegal (s : State n) : HotplugEvent n → Prop
  | .notify action cpu p =>
    (action = .upPrepare → p = 0 ∨ p ∉ s.live ∧ cfg.start < p ∧ p - cfg.start < 2 ^ 31 - 1 ∧
      p - cfg.start ≠ invalidPercpuArea cfg.start) ∧
    (action.Frees cfg → s.pending = 0 ∧ Own cfg s cpu)
  | .callback => 0 < s.pending

instance (s : State n) : ∀ e : HotplugEvent n, Decidable (HotplugLegal cfg s e)
  | .notify _ _ _ => inferInstanceAs (Decidable (_ ∧ _))
  | .callback => inferInstanceAs (Decidable (_ < _))

/-- **Who owns which area.** -/
structure Ledger (s : State n) : Prop where
  owned : ∀ c, Own cfg s c → area cfg.start s c ∈ s.live
  unshared : ∀ c d, Valid cfg s c → Valid cfg s d → area cfg.start s c = area cfg.start s d → c = d
  noLeak : ∀ a ∈ s.live, ∃ c, Own cfg s c ∧ area cfg.start s c = a
  pending : s.pending = 0 ∨ s.pending = 1 ∧ Own cfg s s.infoCpu

/-- A callback frees an area that is allocated. -/
def FreesLive (s : State n) : HotplugEvent n → Prop
  | .notify _ _ _ => True
  | .callback => freedArea cfg.start s ∈ s.live

variable {cfg} {s : State n}

/-! ## The steps -/

/-- What a CPU whose offset is set to another valid one, or marked invalid, leaves to the others. -/
theorem valid_update_of_ne {cpu c : Fin n} (hne : c ≠ cpu) {offset : Nat} {live : Finset Nat} {infoCpu : Fin n}
    {pending : Nat} {up : Bool} : Valid cfg ⟨Function.update s.perCpuOffset cpu offset, infoCpu, pending, live, up⟩ c ↔
      Valid cfg s c := by
  simp only [Valid, Function.update_of_ne hne]

theorem own_update_of_ne {cpu c : Fin n} (hne : c ≠ cpu) {offset : Nat} {live : Finset Nat} {infoCpu : Fin n}
    {pending : Nat} {up : Bool} : Own cfg ⟨Function.update s.perCpuOffset cpu offset, infoCpu, pending, live, up⟩ c ↔
      Own cfg s c := by
  simp only [Own, Valid, Function.update_of_ne hne]

theorem area_update_of_ne {cpu c : Fin n} (hne : c ≠ cpu) {offset : Nat} {live : Finset Nat} {infoCpu : Fin n}
    {pending : Nat} {up : Bool} :
    area cfg.start ⟨Function.update s.perCpuOffset cpu offset, infoCpu, pending, live, up⟩ c = area cfg.start s c := by
  simp only [area, Function.update_of_ne hne]

/-- **A new area** for a CPU without one. -/
theorem Ledger.alloc (h : Ledger cfg s) {cpu : Fin n} (hcpu : ¬Valid cfg s cpu) {p : Nat} (hnew : p ∉ s.live)
    (hlt : cfg.start < p) (hvalid : p - cfg.start ≠ invalidPercpuArea cfg.start) :
    Ledger cfg { s with
      perCpuOffset := Function.update s.perCpuOffset cpu (p - cfg.start), live := insert p s.live } := by
  have hself : area cfg.start { s with
      perCpuOffset := Function.update s.perCpuOffset cpu (p - cfg.start), live := insert p s.live } cpu = p := by
    simp only [area, Function.update_self]
    omega
  have hother : ∀ d, Valid cfg s d → area cfg.start s d ≠ p := by
    intro d hd heq
    by_cases hzero : s.perCpuOffset d = 0
    · -- the static area lies below
      rw [area, hzero] at heq
      omega
    · exact hnew (heq ▸ h.owned d ⟨hd, hzero⟩)
  constructor
  · intro c hc
    by_cases hcc : c = cpu
    · subst hcc
      rw [hself]
      exact Finset.mem_insert_self _ _
    · rw [area_update_of_ne hcc]
      exact Finset.mem_insert_of_mem (h.owned c ((own_update_of_ne hcc).mp hc))
  · intro c d hc hd heq
    by_cases hcc : c = cpu
    · by_cases hdc : d = cpu
      · exact hcc.trans hdc.symm
      · subst hcc
        rw [hself, area_update_of_ne hdc] at heq
        exact absurd heq.symm (hother d ((valid_update_of_ne hdc).mp hd))
    · by_cases hdc : d = cpu
      · subst hdc
        rw [hself, area_update_of_ne hcc] at heq
        exact absurd heq (hother c ((valid_update_of_ne hcc).mp hc))
      · rw [area_update_of_ne hcc, area_update_of_ne hdc] at heq
        exact h.unshared c d ((valid_update_of_ne hcc).mp hc) ((valid_update_of_ne hdc).mp hd) heq
  · intro a ha
    rcases Finset.mem_insert.mp ha with rfl | ha
    · refine ⟨cpu, ?_, hself⟩
      simp only [Own, Valid, Function.update_self]
      exact ⟨hvalid, by omega⟩
    · obtain ⟨c, hc, hac⟩ := h.noLeak a ha
      have hne : c ≠ cpu := fun heq => hcpu (heq ▸ hc.1)
      exact ⟨c, (own_update_of_ne hne).mpr hc, (area_update_of_ne hne).trans hac⟩
  · rcases h.pending with hnone | hpending
    · exact Or.inl hnone
    · have hne : s.infoCpu ≠ cpu := fun heq => hcpu (heq ▸ hpending.2.1)
      exact Or.inr ⟨hpending.1, (own_update_of_ne hne).mpr hpending.2⟩

/-- **A request** to free the area of a CPU. -/
theorem Ledger.request (h : Ledger cfg s) {cpu : Fin n} (hidle : s.pending = 0) (hcpu : Own cfg s cpu) :
    Ledger cfg (freePercpuArea s cpu) where
  owned := h.owned
  unshared := h.unshared
  noLeak := h.noLeak
  pending := Or.inr ⟨by rw [freePercpuArea, hidle], hcpu⟩

/-- **The callback** frees the area of the CPU that asked. -/
theorem Ledger.free (h : Ledger cfg s) (hpending : 0 < s.pending) :
    freedArea cfg.start s ∈ s.live ∧ Ledger cfg (freePercpuAreaRcu cfg.start s) := by
  obtain ⟨hone, hinfo⟩ := h.pending.resolve_left (by omega)
  have hmarked : ∀ c, Valid cfg (freePercpuAreaRcu cfg.start s) c → c ≠ s.infoCpu := by
    rintro c hc rfl
    exact hc (Function.update_self ..)
  refine ⟨h.owned _ hinfo, ?_, ?_, ?_, ?_⟩
  · intro c hc
    have hne := hmarked c hc.1
    have hold : Own cfg s c := (own_update_of_ne hne).mp hc
    rw [freePercpuAreaRcu, area_update_of_ne hne]
    exact Finset.mem_erase.mpr ⟨fun heq => hne (h.unshared c _ hold.1 hinfo.1 heq), h.owned c hold⟩
  · intro c d hc hd heq
    have hnec := hmarked c hc
    have hned := hmarked d hd
    rw [freePercpuAreaRcu, area_update_of_ne hnec, area_update_of_ne hned] at heq
    exact h.unshared c d ((valid_update_of_ne hnec).mp hc) ((valid_update_of_ne hned).mp hd) heq
  · intro a ha
    obtain ⟨hne, ha⟩ := Finset.mem_erase.mp ha
    obtain ⟨c, hc, hac⟩ := h.noLeak a ha
    have hnec : c ≠ s.infoCpu := by
      rintro rfl
      exact hne hac.symm
    exact ⟨c, (own_update_of_ne hnec).mpr hc, (area_update_of_ne hnec).trans hac⟩
  · apply Or.inl
    show s.pending - 1 = 0
    omega

/-- What the notifier does: nothing, a request, or a new area for a CPU without one. -/
theorem notify_cases (cfg : Config) (s : State n) (action : Action) (cpu : Fin n) (p : Nat) :
    (cpuPercpuCallback cfg s action cpu p).2 = s ∨
    action.Frees cfg ∧ (cpuPercpuCallback cfg s action cpu p).2 = freePercpuArea s cpu ∨
    action = .upPrepare ∧ ¬Valid cfg s cpu ∧ p ≠ 0 ∧ (cpuPercpuCallback cfg s action cpu p).2 =
      { s with
        perCpuOffset := Function.update s.perCpuOffset cpu ((p - cfg.start) % 2 ^ 32), live := insert p s.live } := by
  cases action with
  | upPrepare =>
    by_cases hvalid : s.perCpuOffset cpu ≠ invalidPercpuArea cfg.start
    · exact Or.inl (by simp only [cpuPercpuCallback, initPercpuArea, if_pos hvalid])
    · by_cases hp : p = 0
      · exact Or.inl (by simp only [cpuPercpuCallback, initPercpuArea, if_neg hvalid, if_pos hp])
      · exact Or.inr (Or.inr ⟨rfl, hvalid, hp,
          by simp only [cpuPercpuCallback, initPercpuArea, if_neg hvalid, if_neg hp]⟩)
  | upCanceled =>
    cases hpark : cfg.park with
    | false => exact Or.inr (Or.inl ⟨hpark, by simp [cpuPercpuCallback, hpark]⟩)
    | true => exact Or.inl (by simp [cpuPercpuCallback, hpark])
  | dead =>
    cases hpark : cfg.park with
    | false => exact Or.inr (Or.inl ⟨hpark, by simp [cpuPercpuCallback, hpark]⟩)
    | true => exact Or.inl (by simp [cpuPercpuCallback, hpark])
  | remove =>
    cases hpark : cfg.park with
    | false => exact Or.inl (by simp [cpuPercpuCallback, hpark])
    | true => exact Or.inr (Or.inl ⟨hpark, by simp [cpuPercpuCallback, hpark]⟩)

/-- **One event** keeps the ledger. -/
theorem ledger_step (h : Ledger cfg s) {e : HotplugEvent n} (hlegal : HotplugLegal cfg s e) :
    Ledger cfg (hotplugStep cfg s e) := by
  cases e with
  | callback => exact (h.free hlegal).2
  | notify action cpu p =>
    obtain ⟨halloc, hfree⟩ := hlegal
    rcases notify_cases cfg s action cpu p with hsame | ⟨hfrees, hrequest⟩ | ⟨rfl, hinvalid, hp, hnew⟩
    · rw [hotplugStep, hsame]
      exact h
    · obtain ⟨hidle, hown⟩ := hfree hfrees
      rw [hotplugStep, hrequest]
      exact h.request hidle hown
    · obtain ⟨hfresh, hlt, hmax, hvalid⟩ := (halloc rfl).resolve_left hp
      have hword : (p - cfg.start) % 2 ^ 32 = p - cfg.start := Nat.mod_eq_of_lt (by omega)
      rw [hotplugStep, hnew, hword]
      exact h.alloc hinvalid hfresh hlt hvalid

/-- A callback that runs frees an area that is allocated. -/
theorem freesLive_of_ledger (h : Ledger cfg s) {e : HotplugEvent n} (hlegal : HotplugLegal cfg s e) :
    FreesLive cfg s e := by
  cases e with
  | callback => exact (h.free hlegal).1
  | notify action cpu p => trivial

/-- There are as many areas as CPUs that own one. -/
theorem Ledger.card (h : Ledger cfg s) : s.live.card = (Finset.univ.filter (Own cfg s)).card := by
  have hlive : s.live = (Finset.univ.filter (Own cfg s)).image (area cfg.start s) := by
    ext a
    simp only [Finset.mem_image, Finset.mem_filter, Finset.mem_univ, true_and]
    constructor
    · exact h.noLeak a
    · rintro ⟨c, hc, rfl⟩
      exact h.owned c hc
  rw [hlive]
  apply Finset.card_image_of_injOn
  intro c hc d hd heq
  rw [Finset.mem_coe, Finset.mem_filter] at hc hd
  exact h.unshared c d hc.2.1 hd.2.1 heq

/-- At boot CPU 0 runs on the static area, and the others have none. -/
theorem ledger_booted (cfg : Config) (cpu : Fin n) : Ledger cfg (booted cfg cpu) := by
  have hzero : ∀ c : Fin n, Valid cfg (booted cfg cpu) c → c.val = 0 ∧ (booted cfg cpu).perCpuOffset c = 0 := by
    intro c hc
    by_cases hpos : 1 ≤ c.val
    · exact absurd (if_pos hpos) hc
    · exact ⟨by omega, if_neg hpos⟩
  have hnone : ∀ c : Fin n, ¬Own cfg (booted cfg cpu) c := fun c hc => hc.2 (hzero c hc.1).2
  refine ⟨fun c hc => absurd hc (hnone c), fun c d hc hd _ => ?_, fun a ha => ?_, Or.inl rfl⟩
  · exact Fin.ext ((hzero c hc).1.trans (hzero d hd).1.symm)
  · exact absurd ha (Finset.notMem_empty a)

end Hotplug

/-- **The areas of all CPUs.** In every run of legal events from boot, each CPU that owns an area has an allocated one,
no two CPUs share one, no other area is allocated, and what is freed was allocated. -/
theorem hotplug_ledger {n : Nat} (cfg : Config) (cpu : Fin n) (es : List (HotplugEvent n))
    (hlegal : Along (HotplugLegal cfg) (hotplugStep cfg) (booted cfg cpu) es) :
    Throughout (fun s => Ledger cfg s ∧ s.live.card = (Finset.univ.filter (Own cfg s)).card) (hotplugStep cfg)
        (booted cfg cpu) es ∧
      Along (FreesLive cfg) (hotplugStep cfg) (booted cfg cpu) es := by
  have hstep : ∀ (s : State n) (e : HotplugEvent n), Ledger cfg s → HotplugLegal cfg s e →
      Ledger cfg (hotplugStep cfg s e) := fun _ _ hs he => ledger_step hs he
  have hboot := ledger_booted cfg cpu
  exact ⟨(throughout_of_along hstep hboot hlegal).mono fun _ hs => ⟨hs, hs.card⟩,
    Along.of_inv hstep (fun _ _ hs he => freesLive_of_ledger hs he) hboot hlegal⟩

/-- Two CPUs come up, the first goes down and gives up its area, and comes up with another one. -/
def downAndUp (c d : Fin n) : List (HotplugEvent n) :=
  [.notify .upPrepare c 0x2000, .notify .upPrepare d 0x3000, .notify .dead c 0, .callback, .notify .upPrepare c 0x4000]

theorem hotplug_ledger_three :
    Throughout (fun s => Ledger ⟨0x1000, false⟩ s ∧
        s.live.card = (Finset.univ.filter (Own ⟨0x1000, false⟩ s)).card) (hotplugStep ⟨0x1000, false⟩)
        (booted ⟨0x1000, false⟩ (1 : Fin 3)) (downAndUp 1 2) ∧
      Along (FreesLive ⟨0x1000, false⟩) (hotplugStep ⟨0x1000, false⟩) (booted ⟨0x1000, false⟩ (1 : Fin 3))
        (downAndUp 1 2) :=
  hotplug_ledger ⟨0x1000, false⟩ 1 (downAndUp 1 2) (by decide)

end Xen.Percpu
