import Xen.Intel.Loader

/-!
# Does the Intel loader get through a file of several updates?

The loop feeds the return value of `get_next_ucode_from_buffer` back as the next offset, and that value is the size of
the update and not the offset behind it.

- `UpdateFile env us`: the file is the concatenation of the well-formed updates `us`, and every allocation succeeds.
- `Traced env s asked handed`: the loop from `s` ends, asks for the updates at the offsets `asked` and hands those at
  `handed` to the sanity check. `traced_goesOn`, `traced_rejected`, `traced_end` follow it through one iteration.
- `step_at`: an iteration that starts at an update of the file behaves as the update alone decides.
- `progress_iff`: the loop gets through exactly the files in `KeepsUp`.
-/

namespace Xen.Intel

open Lib

/-! ## Files of updates -/

/-- An update of its declared size without an extended table. -/
structure WellFormed (u : List UInt8) : Prop where
  header : Hdr.size ≤ u.length
  total : totalSize (Bytes.ofList u) 0 = u.length
  data : Hdr.size + dataSize (Bytes.ofList u) 0 = u.length

/-- The file is the concatenation of the updates `us`, and every allocation succeeds. -/
structure UpdateFile (env : Env) (us : List (List UInt8)) : Prop where
  wellFormed : ∀ u ∈ us, WellFormed u
  bytes : ∀ i < us.flatten.length, env.buf i = Bytes.ofList us.flatten i
  size_eq : env.size = us.flatten.length
  size_lt : env.size < 2 ^ 31
  newMc : ∀ n, env.newMc n ≠ none

/-- `microcode_sanity_check` accepts the update. -/
def Accepted (env : Env) (u : List UInt8) : Prop :=
  (microcodeSanityCheck env.abi (Bytes.ofList u) env.null).val = 0

instance (env : Env) (u : List UInt8) : Decidable (Accepted env u) := inferInstanceAs (Decidable (_ = _))

/-- The offsets of the updates that are due for the sanity check: all of them, up to the first rejected one. -/
def toHand (env : Env) : Nat → List (List UInt8) → List Nat
  | _, [] => []
  | off, u :: us => off :: if Accepted env u then toHand env (off + u.length) us else []

/-- The offset a call of `get_next_ucode_from_buffer` is made with. -/
def Call.asked : Call → Option Nat
  | .getNextUcodeFromBuffer offset _ => some offset
  | _ => none

/-- The offset of the update a call of `microcode_sanity_check` is about. -/
def Call.handed : Call → Option Nat
  | .microcodeSanityCheck offset _ => some offset
  | _ => none

/-! ## The offsets of a run -/

/-- The loop from `s` ends, having asked for the updates at `asked` and handed over those at `handed`. -/
def Traced (env : Env) (s : LoopState) (asked handed : List Nat) : Prop :=
  ∃ fuel e, (loop (requestStep env) fuel s).val = some e ∧
    (loop (requestStep env) fuel s).log.filterMap Call.asked = asked ∧
    (loop (requestStep env) fuel s).log.filterMap Call.handed = handed

/-- **Progress.** The loop ends, the offsets it asks for increase, and the updates that are due are handed over, each
once and in order. -/
def Progress (env : Env) (mc : Option Bytes) (uci : UcodeCpuInfo) (us : List (List UInt8)) : Prop :=
  ∃ asked, Traced env (requestStart mc uci) asked (toHand env 0 us) ∧ asked.Pairwise (· < ·)

section Traces

variable {env : Env} {s t : LoopState} {e : LoopEnd} {l : List Call} {asked handed : List Nat}

/-- A loop that leaves at once has the trace of that iteration. -/
theorem traced_of_leave (h : requestStep env s = ⟨.leave e, l⟩) :
    Traced env s asked handed ↔ l.filterMap Call.asked = asked ∧ l.filterMap Call.handed = handed := by
  constructor
  · rintro ⟨fuel, e', hval, ha, hh⟩
    cases fuel with
    | zero => cases hval
    | succ fuel =>
      rw [loop_eq_of_leave h] at ha hh
      exact ⟨ha, hh⟩
  · intro hl
    exact ⟨1, e, by rw [loop_eq_of_leave h], by rwa [loop_eq_of_leave h]⟩

/-- A loop that goes on has the trace of that iteration, followed by the rest's. -/
theorem traced_of_next (h : requestStep env s = ⟨.next t, l⟩) :
    Traced env s asked handed ↔ ∃ asked' handed', Traced env t asked' handed' ∧
      asked = l.filterMap Call.asked ++ asked' ∧ handed = l.filterMap Call.handed ++ handed' := by
  constructor
  · rintro ⟨fuel, e, hval, ha, hh⟩
    cases fuel with
    | zero => cases hval
    | succ fuel =>
      rw [loop_eq_of_next h] at hval ha hh
      exact ⟨_, _, ⟨fuel, e, hval, rfl, rfl⟩, by rw [← ha, List.filterMap_append], by rw [← hh, List.filterMap_append]⟩
  · rintro ⟨asked', handed', ⟨fuel, e, hval, rfl, rfl⟩, rfl, rfl⟩
    refine ⟨fuel + 1, e, ?_⟩
    rw [loop_eq_of_next h]
    exact ⟨hval, List.filterMap_append, List.filterMap_append⟩

theorem traced_end (h : (nextCall env s).1 ≤ 0) : Traced env s asked handed ↔ asked = [s.offset] ∧ handed = [] := by
  rw [traced_of_leave (requestStep_end h)]
  exact and_congr eq_comm eq_comm

theorem traced_rejected (h : 0 < (nextCall env s).1) (hv : verdict env s < 0) :
    Traced env s asked handed ↔ asked = [s.offset] ∧ handed = [s.offset] := by
  rw [traced_of_leave (requestStep_rejected h hv)]
  exact and_congr eq_comm eq_comm

/-- Behind an accepted update the loop goes on at the offset the first call returned. -/
theorem traced_goesOn (h : 0 < (nextCall env s).1) (hv : verdict env s = 0) (hm : env.newMc s.iter ≠ none) :
    ∃ t : LoopState, t.offset = (nextCall env s).1 ∧ t.mc = (nextCall env s).2 ∧
      ∀ asked handed, Traced env s asked handed ↔ ∃ asked' handed', Traced env t asked' handed' ∧
        asked = s.offset :: asked' ∧ handed = s.offset :: handed' := by
  have hret : 0 ≤ (matching env s).1 := by
    rcases getMatchingMicrocode_ret env.abi s.uci ((nextCall env s).2.getD env.null) (env.extHeader s.iter)
      (env.newMc s.iter) with h0 | h1 | ⟨-, hn⟩
    · exact h0.ge
    · unfold matching
      omega
    · exact absurd hn hm
  obtain ⟨count, hstep⟩ := requestStep_goesOn h hv hret
  exact ⟨_, Int.toNat_of_nonneg (by omega), rfl, fun _ _ => traced_of_next hstep⟩

/-- Whatever the first iteration does, it asks once, and hands over what it got. -/
theorem traced_head (h : Traced env s asked handed) (hm : env.newMc s.iter ≠ none) :
    ∃ asked', asked = s.offset :: asked' ∧
      if 0 < (nextCall env s).1 then ∃ handed', handed = s.offset :: handed' else handed = [] := by
  split
  · next hn =>
    rcases Int.lt_or_eq_of_le (verdict_nonpos env s) with hv | hv
    · obtain ⟨rfl, rfl⟩ := (traced_rejected hn hv).mp h
      exact ⟨_, rfl, _, rfl⟩
    · obtain ⟨t, -, -, ht⟩ := traced_goesOn hn hv hm
      obtain ⟨_, _, -, ha, hh⟩ := (ht _ _).mp h
      exact ⟨_, ha, _, hh⟩
  · next hn =>
    obtain ⟨rfl, rfl⟩ := (traced_end (by omega)).mp h
    exact ⟨_, rfl, rfl⟩

end Traces

/-! ## One update -/

/-- The update `u` starts at the offset of the head `s`, inside the file. -/
structure At (env : Env) (s : LoopState) (u : List UInt8) : Prop where
  bytes : ∀ i < u.length, env.buf (s.offset + i) = Bytes.ofList u i
  inside : s.offset + u.length ≤ env.size

section OneUpdate

variable {env : Env} {s : LoopState} {u : List UInt8}

theorem size_mod (hlt : env.size < 2 ^ 31) : env.size % 2 ^ (8 * env.abi.ulong) = env.size := by
  apply Nat.mod_eq_of_lt
  cases env.abi <;> simp only [Abi.ulong] <;> omega

/-- The first call of an iteration at an update copies it. -/
theorem nextCall_at (hlt : env.size < 2 ^ 31) (hmc : s.mc ≠ none) (hu : WellFormed u) (hat : At env s u) :
    (nextCall env s).1 = u.length ∧ ∃ image, (nextCall env s).2 = some image ∧
      ∀ i < u.length, image i = Bytes.ofList u i := by
  have hlen := hu.header
  have hin := hat.inside
  have hsize : int32 env.size = env.size := int32_of_lt hlt
  have htotal : int32 (totalSize env.buf s.offset) = u.length := by
    have hc : totalSize env.buf s.offset = totalSize (Bytes.ofList u) 0 :=
      totalSize_congr fun n hn => by rw [Nat.zero_add]; exact hat.bytes n (by omega)
    rw [hc, hu.total]
    exact int32_of_lt (by omega)
  unfold nextCall
  rw [size_mod hlt]
  rcases nextUcode_cases s.mc env.buf env.size s.offset with ⟨h1, -⟩ | ⟨-, h2, -⟩ | ⟨-, -, hn, -⟩ | ⟨-, -, dst, -, hr⟩
  · simp only [Hdr.size] at hlen
    omega
  · omega
  · exact absurd hn hmc
  · rw [hr, htotal]
    refine ⟨rfl, _, rfl, fun i hi => ?_⟩
    rw [copyLoop_val, if_pos (by simp only [Int.toNat_natCast]; omega)]
    exact hat.bytes i hi

/-- The verdict on the copy is the verdict on the update. -/
theorem verdict_at (hlt : env.size < 2 ^ 31) (hmc : s.mc ≠ none) (hu : WellFormed u) (hat : At env s u) :
    verdict env s = 0 ↔ Accepted env u := by
  obtain ⟨-, image, hsome, himage⟩ := nextCall_at hlt hmc hu hat
  have hlen := hat.inside
  have hext : extTableSize env.abi (totalSize (Bytes.ofList u) 0) (dataSize (Bytes.ofList u) 0) = 0 := by
    rw [hu.total]
    exact extTableSize_eq_zero env.abi hu.data.symm (by omega)
  have hcongr := sanityCheck_congr env.abi env.null env.null hext
    fun i hi => (himage i (by rw [← hu.data]; exact hi)).symm
  simp only [verdict, Accepted, hsome, Option.getD_some, hcongr]

/-- **One update.** A rejected update ends the loop; behind an accepted one it goes on at the update's size. -/
theorem step_at (hlt : env.size < 2 ^ 31) (hnew : ∀ n, env.newMc n ≠ none) (hmc : s.mc ≠ none) (hu : WellFormed u)
    (hat : At env s u) :
    (¬Accepted env u → ∀ asked handed, Traced env s asked handed ↔ asked = [s.offset] ∧ handed = [s.offset]) ∧
    (Accepted env u → ∃ t : LoopState, t.offset = u.length ∧ t.mc ≠ none ∧
      ∀ asked handed, Traced env s asked handed ↔ ∃ asked' handed', Traced env t asked' handed' ∧
        asked = s.offset :: asked' ∧ handed = s.offset :: handed') := by
  obtain ⟨hn, image, hsome, -⟩ := nextCall_at hlt hmc hu hat
  have hlen := hu.header
  have hpos : 0 < (nextCall env s).1 := by
    simp only [Hdr.size] at hlen
    omega
  rw [← verdict_at hlt hmc hu hat]
  constructor
  · intro hv _ _
    exact traced_rejected hpos (by have := verdict_nonpos env s; omega)
  · intro hv
    obtain ⟨t, ho, ht, htr⟩ := traced_goesOn hpos hv (hnew s.iter)
    exact ⟨t, by omega, by rw [ht, hsome]; exact Option.some_ne_none _, htr⟩

/-- Inside the file, the first call delivers exactly the declared sizes between 1 and the file's. -/
theorem nextCall_pos_iff (hlt : env.size < 2 ^ 31) (hmc : s.mc ≠ none) (hoff : s.offset < env.size) :
    0 < (nextCall env s).1 ↔
      0 < int32 (totalSize env.buf s.offset) ∧ int32 (totalSize env.buf s.offset) ≤ env.size := by
  have hsize : int32 env.size = env.size := int32_of_lt hlt
  unfold nextCall
  rw [size_mod hlt]
  rcases nextUcode_cases s.mc env.buf env.size s.offset with
    ⟨h1, -⟩ | ⟨-, h2, hr⟩ | ⟨-, -, hn, -⟩ | ⟨-, h2, dst, -, hr⟩
  · omega
  · rw [hr]
    simp only
    omega
  · exact absurd hn hmc
  · rw [hr]
    simp only
    omega

end OneUpdate

/-! ## The whole file -/

section WholeFile

variable {env : Env} {mc : Option Bytes} {uci : UcodeCpuInfo} {u u₁ u₂ : List UInt8} {us : List (List UInt8)}

/-- The offset behind some updates of the file is where the next one starts. -/
theorem UpdateFile.at (pre : List (List UInt8)) (hf : UpdateFile env (pre ++ u :: us)) {s : LoopState}
    (hs : s.offset = pre.flatten.length) : At env s u := by
  have hflat : (pre ++ u :: us).flatten = pre.flatten ++ (u ++ us.flatten) := by simp
  have hlen : (pre ++ u :: us).flatten.length = pre.flatten.length + (u.length + us.flatten.length) := by
    rw [hflat, List.length_append, List.length_append]
  refine ⟨fun i hi => ?_, by rw [hf.size_eq, hlen]; omega⟩
  rw [hf.bytes _ (by rw [hlen]; omega), hflat, hs, Bytes.ofList_append_right, Bytes.ofList_append_left hi]

theorem UpdateFile.at_start (mc : Option Bytes) (uci : UcodeCpuInfo) (hf : UpdateFile env (u :: us)) :
    At env (requestStart mc uci) u := hf.at [] rfl

theorem UpdateFile.at_second (hf : UpdateFile env (u₁ :: u₂ :: us)) {s : LoopState} (hs : s.offset = u₁.length) :
    At env s u₂ := hf.at [u₁] (by simpa using hs)

/-- The files the loader gets through: at most one update, or one of the first two is rejected, or exactly two of
which the second is larger than the first and the bytes at the offset of its size do not declare a size of the file. -/
def KeepsUp (env : Env) : List (List UInt8) → Prop
  | u₁ :: u₂ :: us => Accepted env u₁ → Accepted env u₂ → us = [] ∧ u₁.length < u₂.length ∧
      ¬(0 < int32 (totalSize env.buf u₂.length) ∧ int32 (totalSize env.buf u₂.length) ≤ env.size)
  | _ => True

/-- The empty file ends the loop at once. -/
theorem progress_nil (hf : UpdateFile env []) : Progress env mc uci [] := by
  have hsize : env.size = 0 := hf.size_eq
  have hn : (nextCall env (requestStart mc uci)).1 ≤ 0 := by
    simp [nextCall, getNextUcodeFromBuffer, requestStart, hsize, int32]
  exact ⟨[0], (traced_end hn).mpr ⟨rfl, rfl⟩, List.pairwise_singleton _ _⟩

/-- A rejected first update is the only one handed over. -/
theorem progress_rejected (hf : UpdateFile env (u :: us)) (hmc : mc ≠ none) (hr : ¬Accepted env u) :
    Progress env mc uci (u :: us) := by
  have hat := hf.at_start mc uci
  have htr := (step_at hf.size_lt hf.newMc hmc (hf.wellFormed u (by simp)) hat).1 hr
  exact ⟨[0], (htr _ _).mpr ⟨rfl, by simp [toHand, hr, requestStart]⟩, List.pairwise_singleton _ _⟩

/-- The loop ends behind a single update. -/
theorem progress_singleton (hf : UpdateFile env [u]) (hmc : mc ≠ none) : Progress env mc uci [u] := by
  by_cases ha : Accepted env u
  · have hwf := hf.wellFormed u (by simp)
    have hlen := hwf.header
    have hsize : env.size = u.length := by simpa using hf.size_eq
    have hlt := hf.size_lt
    obtain ⟨t, ho, -, htr⟩ := (step_at hf.size_lt hf.newMc hmc hwf (hf.at_start mc uci)).2 ha
    have hn : (nextCall env t).1 ≤ 0 := by
      have hge : (t.offset : Int) ≥ int32 env.size := by
        rw [int32_of_lt hlt]
        omega
      simp [nextCall, getNextUcodeFromBuffer, size_mod hlt, hge]
    refine ⟨[0, u.length], (htr _ _).mpr ⟨[u.length], [], (traced_end hn).mpr ⟨by rw [ho], rfl⟩, rfl, ?_⟩, ?_⟩
    · simp [toHand, ha, requestStart]
    · simp only [Hdr.size] at hlen
      simp
      omega
  · exact progress_rejected hf hmc ha

/-- **The third iteration.** Behind two accepted updates the loop is at the offset of the second one's size. -/
theorem third_head (uci : UcodeCpuInfo) (hf : UpdateFile env (u₁ :: u₂ :: us)) (hmc : mc ≠ none)
    (h1 : Accepted env u₁) (h2 : Accepted env u₂) : ∃ t : LoopState, t.offset = u₂.length ∧ t.mc ≠ none ∧
      ∀ asked handed, Traced env (requestStart mc uci) asked handed ↔ ∃ asked' handed', Traced env t asked' handed' ∧
        asked = 0 :: u₁.length :: asked' ∧ handed = 0 :: u₁.length :: handed' := by
  obtain ⟨s, hs, hsmc, htr⟩ :=
    (step_at hf.size_lt hf.newMc hmc (hf.wellFormed u₁ (by simp)) (hf.at_start mc uci)).2 h1
  have hat := hf.at_second hs
  obtain ⟨t, ht, htmc, htr'⟩ := (step_at hf.size_lt hf.newMc hsmc (hf.wellFormed u₂ (by simp)) hat).2 h2
  refine ⟨t, ht, htmc, fun asked handed => ?_⟩
  rw [htr]
  constructor
  · rintro ⟨_, _, h, rfl, rfl⟩
    obtain ⟨asked', handed', h', rfl, rfl⟩ := (htr' _ _).mp h
    exact ⟨asked', handed', h', by rw [hs]; rfl, by rw [hs]; rfl⟩
  · rintro ⟨asked', handed', h', rfl, rfl⟩
    exact ⟨_, _, (htr' _ _).mpr ⟨asked', handed', h', rfl, rfl⟩, by rw [hs]; rfl, by rw [hs]; rfl⟩

/-- A rejected second update is the last one handed over. -/
theorem progress_rejected_second (hf : UpdateFile env (u₁ :: u₂ :: us)) (hmc : mc ≠ none) (h1 : Accepted env u₁)
    (h2 : ¬Accepted env u₂) : Progress env mc uci (u₁ :: u₂ :: us) := by
  obtain ⟨s, hs, hsmc, htr⟩ :=
    (step_at hf.size_lt hf.newMc hmc (hf.wellFormed u₁ (by simp)) (hf.at_start mc uci)).2 h1
  have hat := hf.at_second hs
  have htr' := (step_at hf.size_lt hf.newMc hsmc (hf.wellFormed u₂ (by simp)) hat).1 h2
  have hlen := (hf.wellFormed u₁ (by simp)).header
  refine ⟨[0, u₁.length], (htr _ _).mpr ⟨[u₁.length], [u₁.length], ?_, rfl, ?_⟩, ?_⟩
  · exact (htr' _ _).mpr ⟨by rw [hs], by rw [hs]⟩
  · simp [toHand, h1, h2, requestStart]
  · simp only [Hdr.size] at hlen
    simp
    omega

/-- Behind two accepted updates the loader gets through only if the file ends there and the offset it goes on with
lies behind the second update's start and delivers nothing. -/
theorem progress_accepted_iff (hf : UpdateFile env (u₁ :: u₂ :: us)) (hmc : mc ≠ none) (h1 : Accepted env u₁)
    (h2 : Accepted env u₂) : Progress env mc uci (u₁ :: u₂ :: us) ↔ us = [] ∧ u₁.length < u₂.length ∧
      ¬(0 < int32 (totalSize env.buf u₂.length) ∧ int32 (totalSize env.buf u₂.length) ≤ env.size) := by
  obtain ⟨t, ht, htmc, htr⟩ := third_head uci hf hmc h1 h2
  have hlen := (hf.wellFormed u₁ (by simp)).header
  have hsize : u₁.length + u₂.length ≤ env.size := (hf.at_second (s := { t with offset := u₁.length }) rfl).inside
  simp only [Hdr.size] at hlen
  have hpos := nextCall_pos_iff hf.size_lt htmc (by omega)
  rw [ht] at hpos
  rw [← hpos]
  constructor
  · rintro ⟨asked, htraced, hpw⟩
    obtain ⟨asked', handed', h', rfl, hhand⟩ := (htr _ _).mp htraced
    obtain ⟨asked'', rfl, hhead⟩ := traced_head h' (hf.newMc _)
    have hlt : u₁.length < u₂.length := by
      have := (List.pairwise_cons.mp (List.pairwise_cons.mp hpw).2).1 t.offset (by simp)
      omega
    simp only [toHand, h1, h2, if_true, List.cons.injEq, true_and, Nat.zero_add] at hhand
    by_cases hn : 0 < (nextCall env t).1
    · -- the third update handed over is at the wrong offset, or there is none
      rw [if_pos hn] at hhead
      obtain ⟨_, rfl⟩ := hhead
      cases us with
      | nil => simp [toHand] at hhand
      | cons u₃ us =>
        simp only [toHand, List.cons.injEq] at hhand
        omega
    · rw [if_neg hn] at hhead
      subst hhead
      cases us with
      | nil => exact ⟨rfl, hlt, hn⟩
      | cons u₃ us => simp [toHand] at hhand
  · rintro ⟨rfl, hlt, hn⟩
    refine ⟨[0, u₁.length, u₂.length], (htr _ _).mpr ⟨[u₂.length], [], (traced_end (by omega)).mpr ⟨by rw [ht], rfl⟩,
      rfl, by simp [toHand, h1, h2]⟩, ?_⟩
    simp
    omega

/-- **Progress of the Intel loader.** On a file of well-formed updates the loop ends, with increasing offsets and every
due update handed over once and in order, exactly if the file is one of `KeepsUp`. -/
theorem progress_iff (env : Env) (mc : Option Bytes) (uci : UcodeCpuInfo) (us : List (List UInt8))
    (hf : UpdateFile env us) (hmc : mc ≠ none) : Progress env mc uci us ↔ KeepsUp env us := by
  match us, hf with
  | [], hf => exact iff_of_true (progress_nil hf) trivial
  | [_], hf => exact iff_of_true (progress_singleton hf hmc) trivial
  | u₁ :: u₂ :: us, hf =>
    by_cases h1 : Accepted env u₁
    · by_cases h2 : Accepted env u₂
      · rw [progress_accepted_iff hf hmc h1 h2]
        simp only [KeepsUp, h1, h2, forall_const]
      · exact iff_of_true (progress_rejected_second hf hmc h1 h2) fun _ h => absurd h h2
    · exact iff_of_true (progress_rejected hf hmc h1) fun h => absurd h h1

/-! ### Two updates -/

/-- An update of 56 bytes with a correct checksum. -/
def update56 : List UInt8 :=
  [1, 0, 0, 0] ++ List.replicate 16 0 ++ [0xC2, 0xFF, 0xFF, 0xFF] ++ [1, 0, 0, 0] ++ [0, 0, 0, 0] ++ [4, 0, 0, 0] ++
    [56, 0, 0, 0] ++ List.replicate 16 0

/-- One of 60 bytes. -/
def update60 : List UInt8 :=
  [1, 0, 0, 0] ++ List.replicate 16 0 ++ [0xBA, 0xFF, 0xFF, 0xFF] ++ [1, 0, 0, 0] ++ [0, 0, 0, 0] ++ [8, 0, 0, 0] ++
    [60, 0, 0, 0] ++ List.replicate 20 0

/-- The file that consists of the updates `us`. -/
def fileOf (us : List (List UInt8)) : Env :=
  ⟨.llp64, Bytes.ofList us.flatten, us.flatten.length, fun _ => 0, fun _ _ => 0, fun _ => some fun _ => 0, 0⟩

theorem update56_wellFormed : WellFormed update56 := ⟨by decide, by decide +kernel, by decide +kernel⟩

theorem update56_accepted (us : List (List UInt8)) : Accepted (fileOf us) update56 :=
  show (microcodeSanityCheck .llp64 (Bytes.ofList update56) fun _ => 0).val = 0 by decide +kernel

theorem update60_wellFormed : WellFormed update60 := ⟨by decide, by decide +kernel, by decide +kernel⟩

theorem updateFile_fileOf {us : List (List UInt8)} (hu : ∀ u ∈ us, WellFormed u) (hlt : us.flatten.length < 2 ^ 31) :
    UpdateFile (fileOf us) us :=
  ⟨hu, fun _ _ => rfl, rfl, hlt, fun _ => Option.some_ne_none _⟩

/-- The loop never gets past the second of two equal updates. -/
theorem progress_counterexample :
    ¬ ∀ (env : Env) (mc : Option Bytes) (uci : UcodeCpuInfo) (us : List (List UInt8)),
      UpdateFile env us → mc ≠ none → Progress env mc uci us := by
  intro h
  have hf : UpdateFile (fileOf [update56, update56]) [update56, update56] :=
    updateFile_fileOf (by simp [update56_wellFormed]) (by decide)
  have hp := h _ (some fun _ => 0) freshCpu _ hf (Option.some_ne_none _)
  have hlt := ((progress_accepted_iff hf (Option.some_ne_none _) (update56_accepted _) (update56_accepted _)).mp hp).2.1
  exact Nat.lt_irrefl _ hlt

/-- It gets past a larger one: at the offset of its size the file declares the default total size. -/
theorem progress_growing :
    Progress (fileOf [update56, update60]) (some fun _ => 0) freshCpu [update56, update60] :=
  (progress_iff _ _ _ _ (updateFile_fileOf (by simp [update56_wellFormed, update60_wellFormed]) (by decide))
    (Option.some_ne_none _)).mpr fun _ _ => ⟨rfl, by decide, by decide +kernel⟩

end WholeFile

end Xen.Intel
