import Xen.Lib.Bits
import Xen.Lib.Logged

/-!
# Initialising the xsave area (`xstate_verified.c`)

- `xstateSetInit` is `xstate_set_init`, with `xsetbv` and `set_xcr0`. It is to enable the features of its mask in
  `xcr0`, call `xrstor` and set `xcr0` back (`InitOk`).
- What it takes for the old `xcr0` is a local of the same name, which is not initialised. `setInit_unneeded` and
  `setInit_enabled` say what comes of that; `xstateSetInit_iff`: when the content of the local does no harm.

`long` has 64 bits and `int` has 32. The content of the local is a parameter, and so is what `read_cr0` returns.
-/

namespace Xen.Xstate

open Lib

/-! ## Data model -/

/-- The globals. -/
structure Globals where
  xcr0 : BitVec 32
  xfeatureMask : BitVec 32
  xcrXfeatureEnabledMask : BitVec 32
  x86Cr0Ts : BitVec 64
deriving DecidableEq, Repr

/-- A call that `xstate_set_init` makes; `xrstor` with the `xcr0` it finds. -/
inductive Call where
  | memsetHdr
  | xrstor (mask : BitVec 64) (xcr0 : BitVec 32)
  | writeCr0 (cr0 : BitVec 64)
deriving DecidableEq, Repr

/-! ## The functions -/

/-- `xsetbv`; the instruction is commented out. -/
def xsetbv (_index : BitVec 32) (xfeatures : BitVec 64) : Bool :=
  let lo := xfeatures.setWidth 32
  lo ≠ 0

/-- `set_xcr0`. -/
def setXcr0 (g : Globals) (xfeatures : BitVec 64) : Bool × Globals :=
  if !xsetbv g.xcrXfeatureEnabledMask xfeatures then (false, g)
  else (true, { g with xcr0 := xfeatures.setWidth 32 })

/-- `xstate_set_init`; `xcr0` and `cr0` are the locals. -/
def xstateSetInit (g : Globals) (mask xcr0 cr0 : BitVec 64) : Logged Call Globals :=
  if (~~~g.xfeatureMask).signExtend 64 &&& mask ≠ 0 then
    return g
  else
    let enabled := if ~~~xcr0 &&& mask ≠ 0 then setXcr0 g (xcr0 ||| mask) else (true, g)
    if !enabled.1 then
      return enabled.2
    else do
      Logged.emit .memsetHdr
      Logged.emit (.xrstor mask enabled.2.xcr0)
      if cr0 &&& g.x86Cr0Ts ≠ 0 then
        Logged.emit (.writeCr0 cr0)
      return (if ~~~xcr0 &&& mask ≠ 0 then setXcr0 enabled.2 xcr0 else (true, enabled.2)).2

/-- The calls of `xrstor` among some calls. -/
def xrstors : List Call → List (BitVec 64 × BitVec 32)
  | [] => []
  | .xrstor mask xcr0 :: calls => (mask, xcr0) :: xrstors calls
  | .memsetHdr :: calls | .writeCr0 _ :: calls => xrstors calls

/-- **The initialisation.** `xcr0` is the same afterwards, and `xrstor` is called once with the mask, all features of
which are then enabled in `xcr0`. -/
structure InitOk (g : Globals) (mask : BitVec 32) (xcr0 cr0 : BitVec 64) : Prop where
  unchanged : (xstateSetInit g (mask.setWidth 64) xcr0 cr0).val.xcr0 = g.xcr0
  restored : ∃ x, xrstors (xstateSetInit g (mask.setWidth 64) xcr0 cr0).log = [(mask.setWidth 64, x)] ∧
    mask &&& ~~~x = 0

/-! ## What it does -/

section Init

variable {g : Globals} {mask : BitVec 32} {xcr0 : BitVec 64}

/-- The mask is contained in `xfeature_mask`, as a `long` too. -/
theorem contained_long (h : mask &&& ~~~g.xfeatureMask = 0) :
    (~~~g.xfeatureMask).signExtend 64 &&& mask.setWidth 64 = 0 := by
  rwa [and_setWidth_eq_zero_iff _ _ (by decide), setWidth_signExtend _ (by decide)]

/-- The features of the mask are all in the local exactly if they are in its low word. -/
theorem lacks_iff : ~~~xcr0 &&& mask.setWidth 64 = 0 ↔ mask &&& ~~~xcr0.setWidth 32 = 0 := by
  rw [and_setWidth_eq_zero_iff _ _ (by decide), BitVec.setWidth_not (by decide)]

theorem or_mask_low : (xcr0 ||| mask.setWidth 64).setWidth 32 = xcr0.setWidth 32 ||| mask := by
  rw [BitVec.setWidth_or, BitVec.setWidth_setWidth_of_le _ (by decide), BitVec.setWidth_eq]

/-- A mask with a feature that a word lacks is not 0, and the two together have all features of the mask. -/
theorem or_mask {x : BitVec 32} (h : mask &&& ~~~x ≠ 0) : x ||| mask ≠ 0 ∧ mask &&& ~~~(x ||| mask) = 0 := by
  constructor
  · intro h0
    obtain ⟨-, rfl⟩ := BitVec.or_eq_zero_iff.mp h0
    exact h (BitVec.zero_and ..)
  · rw [and_eq_zero_iff]
    intro i hi
    rw [BitVec.getLsbD_not, BitVec.getLsbD_or, hi]
    simp

/-- `set_xcr0` refuses the values without features in their low word. -/
theorem setXcr0_eq (g : Globals) (x : BitVec 64) : setXcr0 g x =
    if x.setWidth 32 = 0 then (false, g) else (true, { g with xcr0 := x.setWidth 32 }) := by
  by_cases h : x.setWidth 32 = 0
  · rw [if_pos h, setXcr0, xsetbv, decide_eq_false (not_not_intro h)]
    rfl
  · rw [if_neg h, setXcr0, xsetbv, decide_eq_true h]
    rfl

/-- What it does from the globals `g'` on, with the features enabled. -/
theorem setInit_run {g' : Globals} {long : BitVec 64} (cr0 : BitVec 64)
    (hmask : (~~~g.xfeatureMask).signExtend 64 &&& long = 0)
    (henable : (if ~~~xcr0 &&& long ≠ 0 then setXcr0 g (xcr0 ||| long) else (true, g)) = (true, g')) :
    (xstateSetInit g long xcr0 cr0).val = (if ~~~xcr0 &&& long ≠ 0 then setXcr0 g' xcr0 else (true, g')).2 ∧
      xrstors (xstateSetInit g long xcr0 cr0).log = [(long, g'.xcr0)] := by
  rw [xstateSetInit, if_neg (not_not_intro hmask), henable]
  by_cases hts : cr0 &&& g.x86Cr0Ts ≠ 0
  · simp only [if_pos hts]
    exact ⟨rfl, rfl⟩
  · simp only [if_neg hts]
    exact ⟨rfl, rfl⟩

/-- **Without a feature to enable**, `xcr0` is not touched. -/
theorem setInit_unneeded (cr0 : BitVec 64) (hmask : mask &&& ~~~g.xfeatureMask = 0)
    (h : mask &&& ~~~xcr0.setWidth 32 = 0) : (xstateSetInit g (mask.setWidth 64) xcr0 cr0).val = g ∧
      xrstors (xstateSetInit g (mask.setWidth 64) xcr0 cr0).log = [(mask.setWidth 64, g.xcr0)] := by
  have hlacks : ¬~~~xcr0 &&& mask.setWidth 64 ≠ 0 := not_not_intro (lacks_iff.mpr h)
  obtain ⟨hval, hcalls⟩ := setInit_run cr0 (contained_long hmask) (if_neg hlacks)
  rw [if_neg hlacks] at hval
  exact ⟨hval, hcalls⟩

/-- **With one**, `xcr0` gets what the local holds together with the mask, and afterwards what the local holds, if that
is not 0. -/
theorem setInit_enabled (cr0 : BitVec 64) (hmask : mask &&& ~~~g.xfeatureMask = 0)
    (h : mask &&& ~~~xcr0.setWidth 32 ≠ 0) : (xstateSetInit g (mask.setWidth 64) xcr0 cr0).val.xcr0 =
        (if xcr0.setWidth 32 = 0 then mask else xcr0.setWidth 32) ∧
      xrstors (xstateSetInit g (mask.setWidth 64) xcr0 cr0).log = [(mask.setWidth 64, xcr0.setWidth 32 ||| mask)] := by
  have hlacks : ~~~xcr0 &&& mask.setWidth 64 ≠ 0 := mt lacks_iff.mp h
  have henable : setXcr0 g (xcr0 ||| mask.setWidth 64) = (true, { g with xcr0 := xcr0.setWidth 32 ||| mask }) := by
    rw [setXcr0_eq, or_mask_low, if_neg (or_mask h).1]
  obtain ⟨hval, hcalls⟩ := setInit_run cr0 (contained_long hmask) ((if_pos hlacks).trans henable)
  refine ⟨?_, hcalls⟩
  rw [hval, if_pos hlacks, setXcr0_eq]
  by_cases h0 : xcr0.setWidth 32 = 0
  · rw [if_pos h0, if_pos h0, h0]
    exact BitVec.zero_or
  · rw [if_neg h0, if_neg h0]

end Init

/-- The local does no harm: it holds all features of the mask and so does `xcr0`, or it lacks one and holds `xcr0`, or 0
if the mask is `xcr0`. -/
def LocalHarmless (g : Globals) (mask : BitVec 32) (xcr0 : BitVec 64) : Prop :=
  mask &&& ~~~xcr0.setWidth 32 = 0 ∧ mask &&& ~~~g.xcr0 = 0 ∨
    mask &&& ~~~xcr0.setWidth 32 ≠ 0 ∧ (xcr0.setWidth 32 = g.xcr0 ∨ xcr0.setWidth 32 = 0 ∧ mask = g.xcr0)

instance (g : Globals) (mask : BitVec 32) (xcr0 : BitVec 64) : Decidable (LocalHarmless g mask xcr0) :=
  inferInstanceAs (Decidable (_ ∧ _ ∨ _ ∧ _))

/-- **Which initialisations** are as they should be: those where what the local holds does no harm. -/
theorem xstateSetInit_iff (g : Globals) (mask : BitVec 32) (xcr0 cr0 : BitVec 64)
    (hmask : mask &&& ~~~g.xfeatureMask = 0) (hxcr0 : g.xcr0 ≠ 0) :
    InitOk g mask xcr0 cr0 ↔ LocalHarmless g mask xcr0 := by
  by_cases h : mask &&& ~~~xcr0.setWidth 32 = 0
  · obtain ⟨hval, hcalls⟩ := setInit_unneeded cr0 hmask h
    constructor
    · rintro ⟨-, x, hx, hall⟩
      rw [hcalls, List.cons.injEq, Prod.mk.injEq] at hx
      obtain ⟨⟨-, rfl⟩, -⟩ := hx
      exact Or.inl ⟨h, hall⟩
    · rintro (⟨-, hall⟩ | ⟨hlacks, -⟩)
      · exact ⟨by rw [hval], g.xcr0, hcalls, hall⟩
      · exact absurd h hlacks
  · obtain ⟨hval, hcalls⟩ := setInit_enabled cr0 hmask h
    have hrestored := (or_mask h).2
    constructor
    · rintro ⟨hsame, -⟩
      rw [hval] at hsame
      refine Or.inr ⟨h, ?_⟩
      by_cases h0 : xcr0.setWidth 32 = 0
      · rw [if_pos h0] at hsame
        exact Or.inr ⟨h0, hsame⟩
      · rw [if_neg h0] at hsame
        exact Or.inl hsame
    · rintro (⟨hall, -⟩ | ⟨-, hlocal⟩)
      · exact absurd hall h
      · refine ⟨?_, xcr0.setWidth 32 ||| mask, hcalls, hrestored⟩
        rw [hval]
        rcases hlocal with hold | ⟨h0, hold⟩
        · rw [if_neg (hold ▸ hxcr0), hold]
        · rw [if_pos h0, hold]

/-- The local happens to hold `xcr0`, where a feature is to be enabled. -/
theorem xstateSetInit_same : InitOk ⟨3, 7, 0, 8⟩ 4 3 8 :=
  (xstateSetInit_iff ⟨3, 7, 0, 8⟩ 4 3 8 (by decide) (by decide)).mpr (by decide)

/-- The local holds `1`, which `xcr0` is afterwards. -/
theorem xstateSetInit_counterexample : ¬ ∀ (g : Globals) (mask : BitVec 32) (xcr0 cr0 : BitVec 64),
    mask &&& ~~~g.xfeatureMask = 0 → g.xcr0 ≠ 0 → InitOk g mask xcr0 cr0 := by
  intro h
  have hsame := (h ⟨3, 7, 0, 8⟩ 4 1 0 (by decide) (by decide)).unchanged
  exact absurd hsame (by decide)

end Xen.Xstate
