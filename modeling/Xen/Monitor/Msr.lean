import Xen.Lib.Runs
import Xen.Monitor.Domctl

/-!
# Monitored MSRs (`monitor_verified.c`)

- `InRange` are the MSRs the three bitmaps are for. Those that `monitor_bitmap_for_msr` knows select different bits
  (`select_inj`, `select_le`).
- `monitorEnableMsr_ways` and `monitorDisableMsr_ways` say what the helpers do, `run_known` what a call does on
  allocated bitmaps; it writes the enable bit of its own MSR and leaves those of the others (`msrStep_bit`).
- `monitor_bitmap_for_msr` compares with one MSR of each range, and `monitor_disable_msr` gives it the address of an
  `unsigned int` as that of an `unsigned long`. `msr_iff`: exactly these MSRs are monitored as they should be, and only
  as long as their calls pass the MSR on (`PassesOn`); what is called for the others does not matter.
-/

namespace Xen.Monitor

open Lib

/-! ## Bits -/

/-- A bit of a bitmap; `none` if there is no bitmap. -/
def Domain.bit (d : Domain) (b : Bank) (nr : Nat) : Option Bool := (d.bitmap b).map fun bits => bits nr

/-- The domain has its bitmaps. -/
structure Allocated (d : Domain) : Prop where
  msrBitmap : d.monitor.msrBitmap ≠ 0
  bitmap : ∀ b, d.bitmap b ≠ none

section Bits

variable {d : Domain} {b : Bank} {nr : Nat} {val : Bool}

theorem setBit_bit (h : d.bitmap b ≠ none) : (d.setBit b nr val).bit b nr = some val := by
  obtain ⟨bits, hbits⟩ := Option.ne_none_iff_exists'.mp h
  simp [Domain.bit, Domain.setBit, hbits]

/-- The other bits stay. -/
theorem setBit_others {c : Bank} {m : Nat} (h : ¬(c = b ∧ m = nr)) : (d.setBit b nr val).bit c m = d.bit c m := by
  unfold Domain.bit Domain.setBit
  by_cases hc : c = b
  · subst hc
    have hm : m ≠ nr := fun hm => h ⟨rfl, hm⟩
    simp [Function.comp_def, Function.update_of_ne hm]
  · simp [Function.update_of_ne hc]

theorem Allocated.setBit (h : Allocated d) (b : Bank) (nr : Nat) (val : Bool) : Allocated (d.setBit b nr val) := by
  refine ⟨h.msrBitmap, fun c => ?_⟩
  unfold Domain.setBit
  by_cases hc : c = b
  · subst hc
    simpa using h.bitmap c
  · simpa [Function.update_of_ne hc] using h.bitmap c

end Bits

/-! ## The MSRs -/

/-- The MSRs the bitmaps are for. -/
def InRange (msr : Nat) : Prop :=
  msr ≤ 0x1fff ∨ (0x40000000 ≤ msr ∧ msr ≤ 0x40001fff) ∨ (0xc0000000 ≤ msr ∧ msr ≤ 0xc0001fff)

/-- The MSRs `monitor_bitmap_for_msr` compares with. -/
def Known (msr : Nat) : Prop := msr = 0x1fff ∨ msr = 0x40000000 ∨ msr = 0xc0001fff

instance (msr : Nat) : Decidable (InRange msr) := inferInstanceAs (Decidable (_ ∨ _))

instance (msr : Nat) : Decidable (Known msr) := inferInstanceAs (Decidable (_ ∨ _))

section Select

variable {msr msr' : Nat}

/-- What is selected, case by case. -/
theorem select_cases (msr : Nat) : (¬Known msr ∧ monitorBitmapForMsr msr = none) ∨
    (msr = 0x1fff ∧ monitorBitmapForMsr msr = some (.low, 0x1fff)) ∨
    (msr = 0x40000000 ∧ monitorBitmapForMsr msr = some (.hypervisor, 0)) ∨
    (msr = 0xc0001fff ∧ monitorBitmapForMsr msr = some (.high, 0x1fff)) := by
  unfold monitorBitmapForMsr Known
  split_ifs with h1 h2 h3
  · exact Or.inr (Or.inl ⟨h1, by rw [h1]⟩)
  · exact Or.inr (Or.inr (Or.inl ⟨h2, by rw [h2]; rfl⟩))
  · exact Or.inr (Or.inr (Or.inr ⟨h3, by rw [h3]; rfl⟩))
  · exact Or.inl ⟨by omega, rfl⟩

theorem known_inRange (h : Known msr) : InRange msr := by
  unfold Known at h
  unfold InRange
  omega

theorem select_none_iff : monitorBitmapForMsr msr = none ↔ ¬Known msr := by
  rcases select_cases msr with ⟨hk, hs⟩ | ⟨rfl, hs⟩ | ⟨rfl, hs⟩ | ⟨rfl, hs⟩
  · exact iff_of_true hs hk
  all_goals
    rw [hs]
    exact iff_of_false (by simp) (by decide)

theorem select_inj {p : Bank × Nat} (h : monitorBitmapForMsr msr = some p) (h' : monitorBitmapForMsr msr' = some p) :
    msr = msr' := by
  rcases select_cases msr with ⟨-, hs⟩ | ⟨rfl, hs⟩ | ⟨rfl, hs⟩ | ⟨rfl, hs⟩ <;>
    rcases select_cases msr' with ⟨-, hs'⟩ | ⟨rfl, hs'⟩ | ⟨rfl, hs'⟩ | ⟨rfl, hs'⟩ <;>
    rw [hs] at h <;> rw [hs'] at h' <;> cases h <;> cases h'

theorem known_lt (h : Known msr) : msr < 2 ^ 32 := by
  unfold Known at h
  omega

/-- What is read and known is the MSR itself. -/
theorem readMsr_known {abi : Abi} {behind : Nat} (h : Known (readMsr abi msr behind)) :
    readMsr abi msr behind = msr := by
  have hlt := known_lt h
  unfold readMsr at hlt ⊢
  split_ifs at hlt ⊢
  · rfl
  · omega

theorem select_readMsr {abi : Abi} {behind : Nat} {p : Bank × Nat}
    (h : monitorBitmapForMsr (readMsr abi msr behind) = some p) : monitorBitmapForMsr msr = some p := by
  have hknown : Known (readMsr abi msr behind) := by
    by_contra hno
    rw [select_none_iff.mpr hno] at h
    cases h
  rwa [readMsr_known hknown] at h

theorem select_le {b : Bank} {index : Nat} (h : monitorBitmapForMsr msr = some (b, index)) : index ≤ 0x1fff := by
  rcases select_cases msr with ⟨-, hs⟩ | ⟨rfl, hs⟩ | ⟨rfl, hs⟩ | ⟨rfl, hs⟩ <;> rw [hs] at h <;> cases h <;> decide

end Select

/-! ## The helpers -/

/-- The bits that belong to an MSR: the one that enables it, and the one that asks for changes only. -/
def BitOf (env : Env) (msr : Nat) (b : Bank) (nr : Nat) : Prop :=
  ∃ index, monitorBitmapForMsr msr = some (b, index) ∧ (nr = index ∨ nr = index + env.msrBitmapSize * 8)

section Helpers

variable {env : Env} {d : Domain} {msr index : Nat} {b : Bank} {onchangeonly : Bool}

/-- The checks the helpers begin with. -/
theorem msr_ways (o : Option (Bank × Nat)) (put : Bank → Nat → Logged Event (Int × Domain))
    {r : Logged Event (Int × Domain)}
    (hr : r = if d.monitor.msrBitmap = 0 then pure (-enxio, d) else
      match o with
      | none => pure (-einval, d)
      | some (b, index) => if d.bitmap b = none then pure (-einval, d) else put b index) :
    (d.monitor.msrBitmap = 0 ∧ r = pure (-enxio, d)) ∨
    ((∀ b index, o = some (b, index) → d.bitmap b = none) ∧ r = pure (-einval, d)) ∨
    ∃ b index, o = some (b, index) ∧ d.bitmap b ≠ none ∧ r = put b index := by
  by_cases h0 : d.monitor.msrBitmap = 0
  · rw [if_pos h0] at hr
    exact Or.inl ⟨h0, hr⟩
  · rw [if_neg h0] at hr
    cases o with
    | none => exact Or.inr (Or.inl ⟨fun _ _ h => (by cases h), hr⟩)
    | some bi =>
      obtain ⟨b, index⟩ := bi
      by_cases hb : d.bitmap b = none
      · refine Or.inr (Or.inl ⟨?_, hr.trans (if_pos hb)⟩)
        rintro c i ⟨⟩
        exact hb
      · exact Or.inr (Or.inr ⟨b, index, rfl, hb, hr.trans (if_neg hb)⟩)

/-- `monitor_enable_msr` on a bitmap. -/
def enabled (env : Env) (d : Domain) (onchangeonly : Bool) (b : Bank) (index : Nat) : Logged Event (Int × Domain) :=
  ⟨(0, (d.setBit b index true).setBit b (index + env.msrBitmapSize * 8) onchangeonly),
    [.setBit b index true, .setBit b (index + env.msrBitmapSize * 8) onchangeonly]⟩

/-- `monitor_disable_msr` on a bitmap. -/
def disabled (d : Domain) (b : Bank) (index : Nat) : Logged Event (Int × Domain) :=
  ⟨(0, d.setBit b index false), [.setBit b index false]⟩

theorem monitorEnableMsr_ways (env : Env) (d : Domain) (msr : Nat) (onchangeonly : Bool) :
    (d.monitor.msrBitmap = 0 ∧ monitorEnableMsr env d msr onchangeonly = pure (-enxio, d)) ∨
    ((∀ b index, monitorBitmapForMsr msr = some (b, index) → d.bitmap b = none) ∧
      monitorEnableMsr env d msr onchangeonly = pure (-einval, d)) ∨
    ∃ b index, monitorBitmapForMsr msr = some (b, index) ∧ d.bitmap b ≠ none ∧
      monitorEnableMsr env d msr onchangeonly = enabled env d onchangeonly b index :=
  msr_ways _ (enabled env d onchangeonly) rfl

theorem monitorDisableMsr_ways (env : Env) (behind : Nat) (d : Domain) (msr : Nat) :
    (d.monitor.msrBitmap = 0 ∧ monitorDisableMsr env behind d msr = pure (-enxio, d)) ∨
    ((∀ b index, monitorBitmapForMsr (readMsr env.abi msr behind) = some (b, index) → d.bitmap b = none) ∧
      monitorDisableMsr env behind d msr = pure (-einval, d)) ∨
    ∃ b index, monitorBitmapForMsr (readMsr env.abi msr behind) = some (b, index) ∧ d.bitmap b ≠ none ∧
      monitorDisableMsr env behind d msr = disabled d b index :=
  msr_ways _ (disabled d) rfl

/-- Enabling changes the bits of the MSR only. -/
theorem enabled_others (hs : monitorBitmapForMsr msr = some (b, index)) {c : Bank} {nr : Nat}
    (h : ¬BitOf env msr c nr) : (enabled env d onchangeonly b index).val.2.bit c nr = d.bit c nr := by
  have h1 : ¬(c = b ∧ nr = index) := fun he => h ⟨index, by rw [he.1, hs], Or.inl he.2⟩
  have h2 : ¬(c = b ∧ nr = index + env.msrBitmapSize * 8) := fun he => h ⟨index, by rw [he.1, hs], Or.inr he.2⟩
  exact (setBit_others h2).trans (setBit_others h1)

theorem disabled_others (env : Env) (hs : monitorBitmapForMsr msr = some (b, index)) {c : Bank} {nr : Nat}
    (h : ¬BitOf env msr c nr) : (disabled d b index).val.2.bit c nr = d.bit c nr :=
  setBit_others fun he => h ⟨index, by rw [he.1, hs], Or.inl he.2⟩

end Helpers

/-! ## Runs -/

/-- A call of a helper; `behind` is the word behind the parameter of `monitor_disable_msr`. -/
inductive MsrCall where
  | enable (msr : Nat) (onchangeonly : Bool)
  | disable (msr behind : Nat)
deriving DecidableEq, Repr

/-- The MSR the call is about. -/
def MsrCall.msr : MsrCall → Nat
  | .enable msr _ => msr
  | .disable msr _ => msr

/-- The call enables its MSR. -/
def MsrCall.enables : MsrCall → Bool
  | .enable .. => true
  | .disable .. => false

/-- The call. -/
def MsrCall.run (env : Env) (d : Domain) : MsrCall → Logged Event (Int × Domain)
  | .enable msr onchangeonly => monitorEnableMsr env d msr onchangeonly
  | .disable msr behind => monitorDisableMsr env behind d msr

/-- What `monitor_bitmap_for_msr` compares. -/
def MsrCall.compared (env : Env) : MsrCall → Nat
  | .enable msr _ => msr
  | .disable msr behind => readMsr env.abi msr behind

/-- The MSR is compared and nothing behind it: always by `monitor_enable_msr`, and by `monitor_disable_msr` if an
`unsigned long` is no longer than the MSR or the word behind is 0. -/
def MsrCall.PassesOn (env : Env) : MsrCall → Prop
  | .enable .. => True
  | .disable _ behind => env.abi.ulong = 4 ∨ behind = 0

/-- The domain after the call. -/
def msrStep (env : Env) (d : Domain) (c : MsrCall) : Domain := (c.run env d).val.2

/-- Whether the call enables or disables `msr`; `none` if it is about another MSR. -/
def callOf (msr : Nat) (c : MsrCall) : Option Bool := if c.msr = msr then some c.enables else none

/-- **An MSR is monitored** in a run from `d`: the calls for it return 0, it selects a bit of its own, and in the end
that bit is what the last call for it asked for. -/
structure Monitored (env : Env) (d : Domain) (calls : List MsrCall) (msr : Nat) : Prop where
  returns : Along (fun d c => c.msr = msr → (c.run env d).val.1 = 0) (msrStep env) d calls
  selects : ∃ b index, monitorBitmapForMsr msr = some (b, index) ∧ index ≤ 0x1fff ∧
    (∀ msr', InRange msr' → msr' ≠ msr → monitorBitmapForMsr msr' ≠ some (b, index)) ∧
    (calls.foldl (msrStep env) d).bit b index = (lastSet (callOf msr) calls).or (d.bit b index)

/-- The MSRs in range are monitored, and the calls for the others are refused. -/
def MsrOk (env : Env) (d : Domain) (calls : List MsrCall) (msr : Nat) : Prop :=
  if InRange msr then Monitored env d calls msr
  else Along (fun d c => c.msr = msr → (c.run env d).val = (-einval, d)) (msrStep env) d calls

section Runs

variable {env : Env} {d : Domain} {c : MsrCall}

/-- On allocated bitmaps, a helper is refused if the MSR is not known, and else does its work. -/
theorem ways_allocated {msr : Nat} {r : Logged Event (Int × Domain)} {done : Bank → Nat → Logged Event (Int × Domain)}
    (h : Allocated d) (hways : (d.monitor.msrBitmap = 0 ∧ r = pure (-enxio, d)) ∨
      ((∀ b index, monitorBitmapForMsr msr = some (b, index) → d.bitmap b = none) ∧ r = pure (-einval, d)) ∨
      ∃ b index, monitorBitmapForMsr msr = some (b, index) ∧ d.bitmap b ≠ none ∧ r = done b index) :
    (monitorBitmapForMsr msr = none → r = pure (-einval, d)) ∧
      ∀ b index, monitorBitmapForMsr msr = some (b, index) → r = done b index := by
  rcases hways with ⟨h0, -⟩ | ⟨hnone, hr⟩ | ⟨b', index', hs', -, hr⟩
  · exact absurd h0 h.msrBitmap
  · exact ⟨fun _ => hr, fun b index hs => absurd (hnone b index hs) (h.bitmap b)⟩
  · constructor
    · intro hs
      cases hs.symm.trans hs'
    · intro b index hs
      cases hs.symm.trans hs'
      exact hr

theorem compared_known (hk : Known (c.compared env)) : c.compared env = c.msr := by
  cases c with
  | enable msr onchangeonly => rfl
  | disable msr behind => exact readMsr_known hk

theorem MsrCall.PassesOn.compared_eq (h : c.PassesOn env) : c.compared env = c.msr := by
  cases c with
  | enable msr onchangeonly => rfl
  | disable msr behind =>
    rcases h with h | rfl
    · exact if_pos h
    · exact ite_self _

/-- A call that compares more is not for a known MSR any more. -/
theorem compared_unknown (h : ¬c.PassesOn env) : ¬Known (c.compared env) := by
  intro hk
  cases c with
  | enable msr onchangeonly => exact h trivial
  | disable msr behind =>
    obtain ⟨hulong, hbehind⟩ := not_or.mp h
    have heq : (if env.abi.ulong = 4 then msr else msr + 2 ^ 32 * behind) = msr := compared_known hk
    rw [if_neg hulong] at heq
    omega

/-- On allocated bitmaps, a call is refused if what it compares is not known. -/
theorem run_unknown (h : Allocated d) (hk : ¬Known (c.compared env)) : c.run env d = pure (-einval, d) := by
  have hs : monitorBitmapForMsr (c.compared env) = none := select_none_iff.mpr hk
  cases c with
  | enable msr onchangeonly => exact (ways_allocated h (monitorEnableMsr_ways env d msr onchangeonly)).1 hs
  | disable msr behind => exact (ways_allocated h (monitorDisableMsr_ways env behind d msr)).1 hs

/-- On allocated bitmaps, a call for a known MSR succeeds, sets its enable bit and leaves the bits of the others. -/
theorem run_known (hsize : 0x1fff < env.msrBitmapSize * 8) (h : Allocated d) {b : Bank} {index : Nat}
    (hs : monitorBitmapForMsr (c.compared env) = some (b, index)) :
    (c.run env d).val.1 = 0 ∧ (msrStep env d c).bit b index = some c.enables ∧ Allocated (msrStep env d c) ∧
      ∀ b' nr, ¬BitOf env c.msr b' nr → (msrStep env d c).bit b' nr = d.bit b' nr := by
  unfold msrStep
  cases c with
  | enable msr onchangeonly =>
    have hr : monitorEnableMsr env d msr onchangeonly = enabled env d onchangeonly b index :=
      (ways_allocated h (monitorEnableMsr_ways env d msr onchangeonly)).2 b index hs
    rw [MsrCall.run, hr]
    refine ⟨rfl, ?_, (h.setBit ..).setBit .., fun _ _ => enabled_others hs⟩
    exact (setBit_others (fun he => by omega)).trans (setBit_bit (h.bitmap b))
  | disable msr behind =>
    have hr : monitorDisableMsr env behind d msr = disabled d b index :=
      (ways_allocated h (monitorDisableMsr_ways env behind d msr)).2 b index hs
    rw [MsrCall.run, hr]
    exact ⟨rfl, setBit_bit (h.bitmap b), h.setBit .., fun _ _ => disabled_others env (select_readMsr hs)⟩

/-- Calls keep the bitmaps allocated. -/
theorem msrStep_allocated (hsize : 0x1fff < env.msrBitmapSize * 8) (h : Allocated d) : Allocated (msrStep env d c) := by
  rcases hs : monitorBitmapForMsr (c.compared env) with _ | ⟨b, index⟩
  · rw [msrStep, run_unknown h (select_none_iff.mp hs)]
    exact h
  · exact (run_known hsize h hs).2.2.1

/-- **The enable bit** of an MSR after a call: what the call asks for if it passes the MSR on, or as it was if the call
is about another MSR. -/
theorem msrStep_bit (hsize : 0x1fff < env.msrBitmapSize * 8) (h : Allocated d) {msr index : Nat} {b : Bank}
    (hs : monitorBitmapForMsr msr = some (b, index)) (hpass : c.msr = msr → c.PassesOn env) :
    (msrStep env d c).bit b index = (callOf msr c).or (d.bit b index) := by
  unfold callOf
  by_cases hc : c.msr = msr
  · have hown : monitorBitmapForMsr (c.compared env) = some (b, index) := by
      rw [(hpass hc).compared_eq, hc, hs]
    rw [if_pos hc, Option.some_or]
    exact (run_known hsize h hown).2.1
  · rw [if_neg hc, Option.none_or]
    rcases hs' : monitorBitmapForMsr (c.compared env) with _ | ⟨b', index'⟩
    · rw [msrStep, run_unknown h (select_none_iff.mp hs')]
      rfl
    · refine (run_known hsize h hs').2.2.2 b index ?_
      -- neither bit of the other MSR is the enable bit of this one
      rintro ⟨i, hi, rfl | rfl⟩
      · exact hc (select_inj hi hs)
      · have := select_le hs
        omega

/-- **The calls for an MSR return 0** only if they all pass it on. -/
theorem passesOn_of_returns (hsize : 0x1fff < env.msrBitmapSize * 8) (h : Allocated d) {calls : List MsrCall}
    {msr : Nat} (hreturns : Along (fun d c => c.msr = msr → (c.run env d).val.1 = 0) (msrStep env) d calls) :
    ∀ c ∈ calls, c.msr = msr → c.PassesOn env := by
  apply (along_iff_forall_mem (msrStep env) (fun c => c.msr = msr → c.PassesOn env) d calls).mp
  refine Along.of_inv (fun _ _ hd _ => msrStep_allocated hsize hd) ?_ h hreturns
  -- a call that does not pass it on is refused
  intro d c hd hzero hc
  by_contra hno
  have heinval : -einval = 0 := by
    rw [← hzero hc, run_unknown hd (compared_unknown hno), Logged.val_pure]
  exact absurd heinval (by decide)

/-- **A known MSR is monitored** if all calls for it pass it on. -/
theorem monitored_of_passesOn (hsize : 0x1fff < env.msrBitmapSize * 8) (h : Allocated d) {calls : List MsrCall}
    {msr : Nat} (hknown : Known msr) (hpass : ∀ c ∈ calls, c.msr = msr → c.PassesOn env) :
    Monitored env d calls msr := by
  have hkeep : ∀ d c, Allocated d → (c.msr = msr → c.PassesOn env) → Allocated (msrStep env d c) :=
    fun _ _ hd _ => msrStep_allocated hsize hd
  have hall : Along (fun _ c => c.msr = msr → c.PassesOn env) (msrStep env) d calls :=
    (along_iff_forall_mem (msrStep env) _ d calls).mpr hpass
  obtain ⟨⟨b, index⟩, hs⟩ := Option.ne_none_iff_exists'.mp fun hnone => select_none_iff.mp hnone hknown
  refine ⟨?_, b, index, hs, select_le hs, fun msr' _ hne hs' => hne (select_inj hs' hs), ?_⟩
  · refine Along.of_inv hkeep ?_ h hall
    intro d c hd hpass hc
    have hown : monitorBitmapForMsr (c.compared env) = some (b, index) := by
      rw [(hpass hc).compared_eq, hc, hs]
    exact (run_known hsize hd hown).1
  · rw [foldl_view (fun d => d.bit b index) (fun x c => (callOf msr c).or x) hkeep
      (fun d c hd hpass => msrStep_bit hsize hd hs hpass) h hall]
    exact foldl_lastSet id (I := fun _ => True) (fun _ _ _ => trivial) (fun _ _ _ => rfl) trivial calls

/-- The calls for an MSR outside the ranges are refused. -/
theorem refused_of_outside (hsize : 0x1fff < env.msrBitmapSize * 8) (h : Allocated d) {calls : List MsrCall}
    {msr : Nat} (hrange : ¬InRange msr) :
    Along (fun d c => c.msr = msr → (c.run env d).val = (-einval, d)) (msrStep env) d calls := by
  have hall : Along (fun _ _ => True) (msrStep env) d calls := along_of_forall (fun _ _ => trivial) d calls
  refine Along.of_inv (fun _ _ hd _ => msrStep_allocated hsize hd) ?_ h hall
  rintro d c hd - rfl
  rw [run_unknown hd fun hk => hrange (known_inRange (compared_known hk ▸ hk))]
  rfl

end Runs

/-- An MSR in range that is monitored properly has a bitmap. -/
theorem MsrOk.known {env : Env} {d : Domain} {calls : List MsrCall} {msr : Nat} (h : MsrOk env d calls msr)
    (hrange : InRange msr) : Known msr := by
  unfold MsrOk at h
  rw [if_pos hrange] at h
  obtain ⟨-, b, index, hs, -⟩ := h
  by_contra hk
  rw [select_none_iff.mpr hk] at hs
  cases hs

/-- **Which MSRs are monitored.** On a domain with its bitmaps, whatever is called: those of the three that
`monitor_bitmap_for_msr` knows if the calls for them pass them on, and no other MSR in range; MSRs outside are always
refused. -/
theorem msr_iff (env : Env) (d : Domain) (calls : List MsrCall) (msr : Nat) (hsize : 0x1fff < env.msrBitmapSize * 8)
    (h : Allocated d) : MsrOk env d calls msr ↔
      (InRange msr → Known msr ∧ ∀ c ∈ calls, c.msr = msr → c.PassesOn env) := by
  by_cases hrange : InRange msr
  · constructor
    · intro hok _
      refine ⟨hok.known hrange, ?_⟩
      rw [MsrOk, if_pos hrange] at hok
      exact passesOn_of_returns hsize h hok.returns
    · intro hcondition
      obtain ⟨hknown, hpass⟩ := hcondition hrange
      rw [MsrOk, if_pos hrange]
      exact monitored_of_passesOn hsize h hknown hpass
  · rw [MsrOk, if_neg hrange]
    exact iff_of_true (refused_of_outside hsize h hrange) fun hin => absurd hin hrange

/-- A domain with empty bitmaps, and the size that three bitmaps of 8192 bits have. -/
def emptyBitmaps : Domain := ⟨⟨1, fun _ => 0, 0, 0, 0, 0, 0, 0, 0, 0, 0, 0, 0⟩, fun _ => some fun _ => false⟩

def msrEnv : Env := ⟨fun _ => 0, fun _ _ => false, true, 3072, .lp64, fun _ _ => 0⟩

theorem emptyBitmaps_allocated : Allocated emptyBitmaps := ⟨by decide, fun _ h => by cases h⟩

/-- The MSR 0x1fff is enabled and disabled, another disabling call reads more than its MSR. -/
def enabledAndDisabled : List MsrCall := [.enable 0x1fff true, .disable 0x1fff 0, .disable 0x40000000 1]

theorem msr_last : MsrOk msrEnv emptyBitmaps enabledAndDisabled 0x1fff :=
  (msr_iff msrEnv emptyBitmaps enabledAndDisabled 0x1fff (by decide) emptyBitmaps_allocated).mpr fun _ =>
    ⟨by decide, by simp [enabledAndDisabled, MsrCall.msr, MsrCall.PassesOn]⟩

/-- The MSR 0x10 is in the low range, and enabling it fails. -/
theorem msr_counterexample : ¬ ∀ (env : Env) (d : Domain) (calls : List MsrCall) (msr : Nat),
    0x1fff < env.msrBitmapSize * 8 → Allocated d → MsrOk env d calls msr := by
  intro h
  have hok := h msrEnv emptyBitmaps [.enable 0x10 false] 0x10 (by decide) emptyBitmaps_allocated
  exact absurd (hok.known (by decide)) (by decide)

end Xen.Monitor
