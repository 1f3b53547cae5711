import Xen.Lib.Logged

/-!
# Page references (`mm_verified.c`)

- `getPageAndTypeFromMfn` is `get_page_and_type_from_mfn` over any world `σ`. The functions it calls are a parameter
  (`Callees`); the log is the worlds that they leave, one after the other.
- `Counts` is what they do to the general reference count of a page.
- `refBalance`: the function keeps the reference that it takes or gives it back, and drops no other one.

`current` is a local that is not initialised, and therefore a parameter. `likely` and `unlikely` are the identity.
-/

namespace Xen.Mm

open Lib

variable {Page Domain σ : Type} [DecidableEq Page]

/-! ## The function -/

def einval : BitVec 32 := 22

/-- The functions that are called; those that look at the world leave another one. -/
structure Callees (Page Domain σ : Type) where
  mfnToPage : BitVec 32 → Page
  getPageFromMfn : BitVec 32 → Domain → σ → BitVec 32 × σ
  getPageType : Page → BitVec 64 → BitVec 32 → σ → BitVec 32 × σ
  putPage : Page → σ → σ

/-- A call that has left the world `r.2`. -/
def called (r : BitVec 32 × σ) : Logged σ (BitVec 32 × σ) := ⟨r, [r.2]⟩

/-- `get_page_and_type_from_mfn`: what it returns, and the world afterwards. -/
def getPageAndTypeFromMfn (c : Callees Page Domain σ) (current : Page) (mfn : BitVec 32) (type : BitVec 64)
    (d : Domain) (partialRef preemptible : BitVec 32) (s : σ) : Logged σ (BitVec 32 × σ) := do
  let page := c.mfnToPage mfn
  -- `get_page_from_mfn` is only called for `partial >= 0`; else nothing looks at `got`
  let got ← if 0 ≤ partialRef.toInt then called (c.getPageFromMfn mfn d s) else pure (1, s)
  if 0 ≤ partialRef.toInt ∧ got.1 = 0 then
    return (-einval, got.2)
  else do
    let rc ← called (c.getPageType page type preemptible got.2)
    if rc.1 ≠ 0 ∧ 0 ≤ partialRef.toInt ∧ (preemptible = 0 ∨ page ≠ current) then
      called (rc.1, c.putPage page rc.2)
    else
      return rc

/-! ## Reference counts -/

/-- What the functions do to the general reference count: `get_page_from_mfn` takes one reference if it succeeds,
`_get_page_type` takes none, and `put_page` drops one where there is one. -/
structure Counts (c : Callees Page Domain σ) (count : σ → Page → Nat) : Prop where
  taken : ∀ mfn d s, (c.getPageFromMfn mfn d s).1 ≠ 0 →
    ∀ q, count (c.getPageFromMfn mfn d s).2 q = count s q + if q = c.mfnToPage mfn then 1 else 0
  notTaken : ∀ mfn d s, (c.getPageFromMfn mfn d s).1 = 0 → ∀ q, count (c.getPageFromMfn mfn d s).2 q = count s q
  typed : ∀ page type preemptible s q, count (c.getPageType page type preemptible s).2 q = count s q
  dropped : ∀ page s, 0 < count s page → ∀ q, count (c.putPage page s) q = count s q - if q = page then 1 else 0

/-- It fails in `_get_page_type`: `get_page_from_mfn` has succeeded. -/
def FailsInType (c : Callees Page Domain σ) (mfn : BitVec 32) (type : BitVec 64) (d : Domain) (preemptible : BitVec 32)
    (s : σ) : Prop :=
  (c.getPageFromMfn mfn d s).1 ≠ 0 ∧
    (c.getPageType (c.mfnToPage mfn) type preemptible (c.getPageFromMfn mfn d s).2).1 ≠ 0

/-- The reference that was taken is kept. -/
def Keeps (c : Callees Page Domain σ) (current : Page) (mfn : BitVec 32) (type : BitVec 64) (d : Domain)
    (partialRef preemptible : BitVec 32) (s : σ) : Prop :=
  0 ≤ partialRef.toInt ∧
    ((getPageAndTypeFromMfn c current mfn type d partialRef preemptible s).val.1 = 0 ∨
      FailsInType c mfn type d preemptible s ∧ preemptible ≠ 0 ∧ c.mfnToPage mfn = current)

instance (c : Callees Page Domain σ) (current : Page) (mfn : BitVec 32) (type : BitVec 64) (d : Domain)
    (partialRef preemptible : BitVec 32) (s : σ) : Decidable (Keeps c current mfn type d partialRef preemptible s) :=
  inferInstanceAs (Decidable (_ ∧ (_ ∨ (_ ∧ _) ∧ _ ∧ _)))

/-- **The balance.** If a reference is kept, the page has one more, and otherwise all counts are what they were. In
between, no count is lower than at the start. -/
structure RefBalance (c : Callees Page Domain σ) (count : σ → Page → Nat) (current : Page) (mfn : BitVec 32)
    (type : BitVec 64) (d : Domain) (partialRef preemptible : BitVec 32) (s : σ) : Prop where
  change : ∀ q, count (getPageAndTypeFromMfn c current mfn type d partialRef preemptible s).val.2 q =
    count s q + if q = c.mfnToPage mfn ∧ Keeps c current mfn type d partialRef preemptible s then 1 else 0
  never : ∀ t ∈ (getPageAndTypeFromMfn c current mfn type d partialRef preemptible s).log, ∀ q, count s q ≤ count t q

section Balance

variable {c : Callees Page Domain σ} {count : σ → Page → Nat} {current : Page} {mfn : BitVec 32} {type : BitVec 64}
  {d : Domain} {partialRef preemptible : BitVec 32} {s : σ}

/-! ### The paths -/

/-- What follows a call starts from what it returns. -/
theorem called_bind {α : Type} (r : BitVec 32 × σ) (f : BitVec 32 × σ → Logged σ α) :
    (called r >>= f) = ⟨(f r).val, r.2 :: (f r).log⟩ := rfl

/-- A negative `partial`: only `_get_page_type` is called. -/
theorem run_of_neg (hp : partialRef.toInt < 0) :
    getPageAndTypeFromMfn c current mfn type d partialRef preemptible s =
      called (c.getPageType (c.mfnToPage mfn) type preemptible s) := by
  have hneg : ¬0 ≤ partialRef.toInt := Int.not_le.mpr hp
  ext1 <;> simp [getPageAndTypeFromMfn, called, hneg]

/-- `get_page_from_mfn` fails. -/
theorem run_of_notTaken (hp : 0 ≤ partialRef.toInt) (hgot : (c.getPageFromMfn mfn d s).1 = 0) :
    getPageAndTypeFromMfn c current mfn type d partialRef preemptible s =
      called (-einval, (c.getPageFromMfn mfn d s).2) := by
  ext1 <;> simp [getPageAndTypeFromMfn, called, hp, hgot]

/-- `get_page_from_mfn` succeeds: what is left to do behind `_get_page_type`. -/
theorem run_of_taken {s₁ : σ} {got : BitVec 32} {rc : BitVec 32 × σ} (hp : 0 ≤ partialRef.toInt)
    (hget : c.getPageFromMfn mfn d s = (got, s₁)) (hgot : got ≠ 0)
    (htype : c.getPageType (c.mfnToPage mfn) type preemptible s₁ = rc) {r : BitVec 32 × σ} {worlds : List σ}
    (hrest : (if rc.1 ≠ 0 ∧ 0 ≤ partialRef.toInt ∧ (preemptible = 0 ∨ c.mfnToPage mfn ≠ current) then
      called (rc.1, c.putPage (c.mfnToPage mfn) rc.2) else pure rc) = ⟨r, worlds⟩) :
    getPageAndTypeFromMfn c current mfn type d partialRef preemptible s = ⟨r, s₁ :: rc.2 :: worlds⟩ := by
  have hfound : ¬(0 ≤ partialRef.toInt ∧ got = 0) := fun h => hgot h.2
  simp only [getPageAndTypeFromMfn, if_pos hp, hget, called_bind, if_neg hfound, htype, hrest]

/-- What it takes is kept. -/
theorem run_of_kept {s₁ : σ} {got : BitVec 32} {rc : BitVec 32 × σ} (hp : 0 ≤ partialRef.toInt)
    (hget : c.getPageFromMfn mfn d s = (got, s₁)) (hgot : got ≠ 0)
    (htype : c.getPageType (c.mfnToPage mfn) type preemptible s₁ = rc)
    (hkeep : rc.1 = 0 ∨ preemptible ≠ 0 ∧ c.mfnToPage mfn = current) :
    getPageAndTypeFromMfn c current mfn type d partialRef preemptible s = ⟨rc, [s₁, rc.2]⟩ := by
  apply run_of_taken hp hget hgot htype
  apply if_neg
  tauto

/-- What it takes is dropped again. -/
theorem run_of_dropped {s₁ : σ} {got : BitVec 32} {rc : BitVec 32 × σ} (hp : 0 ≤ partialRef.toInt)
    (hget : c.getPageFromMfn mfn d s = (got, s₁)) (hgot : got ≠ 0)
    (htype : c.getPageType (c.mfnToPage mfn) type preemptible s₁ = rc)
    (hdrop : ¬(rc.1 = 0 ∨ preemptible ≠ 0 ∧ c.mfnToPage mfn = current)) :
    getPageAndTypeFromMfn c current mfn type d partialRef preemptible s =
      ⟨(rc.1, c.putPage (c.mfnToPage mfn) rc.2), [s₁, rc.2, c.putPage (c.mfnToPage mfn) rc.2]⟩ := by
  apply run_of_taken hp hget hgot htype
  apply if_pos
  tauto

/-! ### The counts -/

/-- Without a reference taken, none is kept. -/
theorem refBalance_of_called {r : BitVec 32 × σ}
    (hrun : getPageAndTypeFromMfn c current mfn type d partialRef preemptible s = called r)
    (hcount : ∀ q, count r.2 q = count s q) (hkeeps : ¬Keeps c current mfn type d partialRef preemptible s) :
    RefBalance c count current mfn type d partialRef preemptible s := by
  constructor
  · intro q
    rw [hrun, if_neg fun h => hkeeps h.2]
    exact hcount q
  · intro t ht q
    rw [hrun] at ht
    rw [List.mem_singleton.mp ht]
    exact Nat.le_of_eq (hcount q).symm

/-- A reference that has been taken is still there after `_get_page_type`. -/
theorem count_taken (h : Counts c count) {s₁ s₂ : σ} {got rc : BitVec 32}
    (hget : c.getPageFromMfn mfn d s = (got, s₁)) (hgot : got ≠ 0)
    (htype : c.getPageType (c.mfnToPage mfn) type preemptible s₁ = (rc, s₂)) (q : Page) :
    count s₁ q = count s q + (if q = c.mfnToPage mfn then 1 else 0) ∧
      count s₂ q = count s q + (if q = c.mfnToPage mfn then 1 else 0) := by
  have htaken := h.taken mfn d s
  have htyped := h.typed (c.mfnToPage mfn) type preemptible s₁ q
  rw [hget] at htaken
  rw [htype] at htyped
  have hfirst := htaken hgot q
  exact ⟨hfirst, htyped.trans hfirst⟩

/-- When it is kept. -/
theorem keeps_iff (hp : 0 ≤ partialRef.toInt) {s₁ s₂ : σ} {got rc : BitVec 32}
    (hget : c.getPageFromMfn mfn d s = (got, s₁)) (hgot : got ≠ 0)
    (htype : c.getPageType (c.mfnToPage mfn) type preemptible s₁ = (rc, s₂))
    (hret : (getPageAndTypeFromMfn c current mfn type d partialRef preemptible s).val.1 = rc) :
    Keeps c current mfn type d partialRef preemptible s ↔
      rc = 0 ∨ preemptible ≠ 0 ∧ c.mfnToPage mfn = current := by
  have hfails : FailsInType c mfn type d preemptible s ↔ rc ≠ 0 := by
    rw [FailsInType, hget, htype]
    exact and_iff_right hgot
  rw [Keeps, hret, hfails]
  tauto

/-- With a reference taken, it is kept or dropped. -/
theorem refBalance_of_taken (h : Counts c count) (hp : 0 ≤ partialRef.toInt) {s₁ s₂ : σ} {got rc : BitVec 32}
    (hget : c.getPageFromMfn mfn d s = (got, s₁)) (hgot : got ≠ 0)
    (htype : c.getPageType (c.mfnToPage mfn) type preemptible s₁ = (rc, s₂)) :
    RefBalance c count current mfn type d partialRef preemptible s := by
  have htaken := count_taken h hget hgot htype
  have hle : ∀ q, count s q ≤ count s₁ q ∧ count s q ≤ count s₂ q := by
    intro q
    rw [(htaken q).1, (htaken q).2]
    exact ⟨Nat.le_add_right _ _, Nat.le_add_right _ _⟩
  by_cases hkeep : rc = 0 ∨ preemptible ≠ 0 ∧ c.mfnToPage mfn = current
  · have hrun := run_of_kept hp hget hgot htype hkeep
    have hkeeps := (keeps_iff hp hget hgot htype (by rw [hrun])).mpr hkeep
    constructor
    · intro q
      rw [hrun, (htaken q).2]
      simp only [hkeeps, and_true]
    · intro t ht q
      rw [hrun, List.mem_pair] at ht
      rcases ht with rfl | rfl
      · exact (hle q).1
      · exact (hle q).2
  · have hrun := run_of_dropped hp hget hgot htype hkeep
    have hkeeps := (keeps_iff hp hget hgot htype (by rw [hrun])).not.mpr hkeep
    have hpos : 0 < count s₂ (c.mfnToPage mfn) := by
      rw [(htaken _).2, if_pos rfl]
      exact Nat.succ_pos _
    have hdropped : ∀ q, count (c.putPage (c.mfnToPage mfn) s₂) q = count s q := by
      intro q
      rw [h.dropped _ _ hpos, (htaken q).2, Nat.add_sub_cancel]
    constructor
    · intro q
      rw [hrun, if_neg fun hq => hkeeps hq.2]
      exact hdropped q
    · intro t ht q
      rw [hrun, List.mem_cons, List.mem_pair] at ht
      rcases ht with rfl | rfl | rfl
      · exact (hle q).1
      · exact (hle q).2
      · exact Nat.le_of_eq (hdropped q).symm

/-- **Reference balance.** -/
theorem refBalance (h : Counts c count) : RefBalance c count current mfn type d partialRef preemptible s := by
  by_cases hp : 0 ≤ partialRef.toInt
  · by_cases hgot : (c.getPageFromMfn mfn d s).1 = 0
    · apply refBalance_of_called (run_of_notTaken hp hgot) (h.notTaken mfn d s hgot)
      rintro ⟨-, hzero | ⟨hfails, -⟩⟩
      · rw [run_of_notTaken hp hgot] at hzero
        have hcode : -einval = 0 := hzero
        exact absurd hcode (by decide)
      · exact hfails.1 hgot
    · exact refBalance_of_taken h hp rfl hgot rfl
  · exact refBalance_of_called (run_of_neg (Int.not_le.mp hp)) (h.typed _ _ _ _) fun hk => hp hk.1

end Balance

/-- Functions that count in the world itself; frame 7 is not there, and no page is of type 1. -/
def counting : Callees Nat Unit (Nat → Nat) where
  mfnToPage mfn := mfn.toNat
  getPageFromMfn mfn _ s := if mfn = 7 then (0, s) else (1, Function.update s mfn.toNat (s mfn.toNat + 1))
  getPageType _ type _ s := (if type = 1 then -einval else 0, s)
  putPage page s := Function.update s page (s page - 1)

theorem counting_counts : Counts counting fun s => s := by
  constructor
  · intro mfn d s hgot q
    have hmfn : mfn ≠ 7 := by
      rintro rfl
      exact hgot rfl
    by_cases hq : q = counting.mfnToPage mfn
    · rw [if_pos hq, hq]
      simp only [counting, if_neg hmfn, Function.update_self]
    · rw [if_neg hq]
      simp only [counting, if_neg hmfn]
      exact Function.update_of_ne hq _ _
  · intro mfn d s hgot q
    by_cases hmfn : mfn = 7
    · simp only [counting, if_pos hmfn]
    · simp only [counting, if_neg hmfn] at hgot
      exact absurd hgot (by decide)
  · intros
    rfl
  · intro page s _ q
    by_cases hq : q = page
    · simp only [counting, hq, Function.update_self, if_true]
    · simp only [counting, Function.update_of_ne hq, if_neg hq, Nat.sub_zero]

/-- A page that is taken and dropped again. -/
theorem refBalance_counting : RefBalance counting (fun s => s) 5 3 1 () 0 1 fun _ => 2 :=
  refBalance counting_counts

end Xen.Mm
