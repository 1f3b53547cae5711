import Xen.Intel.Loader
import Xen.Intel.Matching

/-!
# Does the CPU's revision ever fall? (`intel_verified.c`)

- A run is a list of `Event`s, calls of `cpu_request_microcode` and `apply_microcode` on one CPU. `RevisionOk` is what a
  call owes: the revision does not fall, and it changes only to that of the cached update.
- `CachedNotOlder` is the invariant that carries it: what is cached is not older than what runs. A call keeps it if the
  images it caches declare enough bytes for their revision to be copied (`RevisionsCopied`, `loop_keeps`).
- `revisions_along`: then the revision never falls in a run. Files whose updates declare 40 bytes or more are such
  (`revisionsCopied_of_declared`).
-/

namespace Xen.Intel

open Lib

/-! ## Runs -/

/-- A call, with its surroundings: the block of the local `mc` and the iterations that end the loop, or the content of
the revision register. -/
inductive Event where
  | cpuRequestMicrocode (env : Env) (mc : Option Bytes) (fuel : Nat)
  | applyMicrocode (msrContent : Nat)

/-- What the call returns, and the CPU's state after it; `none` if it does not end. -/
def Event.run (uci : UcodeCpuInfo) : Event → Option (Int × UcodeCpuInfo)
  | .cpuRequestMicrocode env mc fuel => (Intel.cpuRequestMicrocode env mc uci fuel).val
  | .applyMicrocode msrContent => some (Intel.applyMicrocode uci msrContent)

/-- The CPU's state after the call. -/
def stepEvent (uci : UcodeCpuInfo) (e : Event) : UcodeCpuInfo := ((e.run uci).map Prod.snd).getD uci

/-- The call ends. -/
def Terminates (uci : UcodeCpuInfo) (e : Event) : Prop := ∃ r, e.run uci = some r

/-- `apply_microcode` returned 0 in the call. -/
def Applied (uci : UcodeCpuInfo) : Event → Prop
  | .cpuRequestMicrocode env mc fuel => Call.applyMicrocode 0 ∈ (Intel.cpuRequestMicrocode env mc uci fuel).log
  | .applyMicrocode msrContent => (Intel.applyMicrocode uci msrContent).1 = 0

/-- **What a call owes.** The revision does not fall; if it changes, `apply_microcode` returned 0 and it is that of the
cached update. -/
structure RevisionOk (uci : UcodeCpuInfo) (e : Event) : Prop where
  grows : uci.rev ≤ (stepEvent uci e).rev
  applied : (stepEvent uci e).rev ≠ uci.rev → Applied uci e ∧
    ∃ cached, (stepEvent uci e).mcIntel = some cached ∧ (stepEvent uci e).rev = leWord cached Hdr.rev 4

/-- The image the iteration works on. -/
def image (env : Env) (s : LoopState) : Bytes := (nextCall env s).2.getD env.null

/-- The iteration caches its image. -/
def Caches (env : Env) (s : LoopState) : Prop :=
  0 < (nextCall env s).1 ∧ verdict env s = 0 ∧ (matching env s).1 = 1

/-- Every image the call caches declares enough bytes for its revision to be copied. -/
def RevisionsCopied (uci : UcodeCpuInfo) : Event → Prop
  | .cpuRequestMicrocode env mc _ => ∀ s, Heads (requestStep env) (requestStart mc uci) s → Caches env s →
      Hdr.rev + 4 ≤ int32 (totalSize (image env s) 0)
  | .applyMicrocode _ => True

/-- What is cached is not older than what runs. -/
def CachedNotOlder (uci : UcodeCpuInfo) : Prop :=
  ∀ cached, uci.mcIntel = some cached → uci.rev ≤ leWord cached Hdr.rev 4

/-! ## `apply_microcode` -/

/-- It fails and changes nothing, or the CPU has the revision of the cached update. -/
theorem applyMicrocode_cases (uci : UcodeCpuInfo) (msrContent : Nat) :
    (applyMicrocode uci msrContent).2 = uci ∨ ∃ cached, uci.mcIntel = some cached ∧
      applyMicrocode uci msrContent = (0, { uci with rev := leWord cached Hdr.rev 4 }) := by
  unfold applyMicrocode
  cases hmc : uci.mcIntel with
  | none => exact Or.inl rfl
  | some cached =>
    simp only
    split_ifs with hne
    · exact Or.inl rfl
    · exact Or.inr ⟨cached, rfl, by rw [not_not.mp hne]⟩

/-- **What an application does** to a CPU whose cached update is not older. -/
theorem apply_keeps {uci : UcodeCpuInfo} (h : CachedNotOlder uci) (msrContent : Nat) :
    CachedNotOlder (applyMicrocode uci msrContent).2 ∧ uci.rev ≤ (applyMicrocode uci msrContent).2.rev ∧
      ((applyMicrocode uci msrContent).2.rev ≠ uci.rev → (applyMicrocode uci msrContent).1 = 0 ∧
        ∃ cached, (applyMicrocode uci msrContent).2.mcIntel = some cached ∧
          (applyMicrocode uci msrContent).2.rev = leWord cached Hdr.rev 4) := by
  rcases applyMicrocode_cases uci msrContent with hsame | ⟨cached, hcached, happly⟩
  · rw [hsame]
    exact ⟨h, Nat.le_refl _, fun hne => absurd rfl hne⟩
  · rw [happly]
    refine ⟨fun c hc => ?_, h cached hcached, fun _ => ⟨rfl, cached, hcached, rfl⟩⟩
    rw [hcached, Option.some.injEq] at hc
    exact Nat.le_of_eq (by rw [hc])

/-! ## `cpu_request_microcode` -/

section Request

variable {env : Env} {mc : Option Bytes} {uci : UcodeCpuInfo} {s : LoopState}

/-- The CPU's state behind an iteration. -/
def uciAfter : Iter LoopState LoopEnd → UcodeCpuInfo
  | .next t => t.uci
  | .leave e => e.uci

/-- **One iteration** leaves the CPU's state alone or caches its image. -/
theorem requestStep_uci (env : Env) (s : LoopState) : uciAfter (requestStep env s).val = s.uci ∨
    Caches env s ∧ uciAfter (requestStep env s).val = (matching env s).2 := by
  rcases requestStep_ways env s with hn | ⟨hn, hv⟩ | ⟨hn, hv, hm⟩ | ⟨hn, hv, hm⟩
  · rw [requestStep_end hn]
    exact Or.inl rfl
  · rw [requestStep_rejected hn hv]
    exact Or.inl rfl
  · rw [requestStep_noMemory hn hv hm]
    exact Or.inl (getMatchingMicrocode_ne_one (show (matching env s).1 ≠ 1 by omega))
  · obtain ⟨count, hstep⟩ := requestStep_goesOn hn hv hm
    rw [hstep]
    by_cases h1 : (matching env s).1 = 1
    · exact Or.inr ⟨⟨hn, hv, h1⟩, rfl⟩
    · exact Or.inl (getMatchingMicrocode_ne_one h1)

/-- The revision of a copy that has its field is the image's. -/
theorem cached_revision {m dst : Bytes} (h : Hdr.rev + 4 ≤ int32 (totalSize m 0)) :
    leWord (copyLoop Obj.mc Obj.mc m 0 (int32 (totalSize m 0)).toNat 0 dst).val Hdr.rev 4 = leWord m Hdr.rev 4 := by
  rw [leWord_copyLoop _ _ m 0 dst (by omega), Nat.zero_add]

/-- The loop does not touch the CPU's revision, and what it caches is newer. -/
def LoopKeeps (uci uci' : UcodeCpuInfo) : Prop := uci'.rev = uci.rev ∧ CachedNotOlder uci'

/-- **One iteration keeps the invariant** if the image it may cache has its revision copied. -/
theorem requestStep_keeps (hcopied : Caches env s → Hdr.rev + 4 ≤ int32 (totalSize (image env s) 0))
    (h : LoopKeeps uci s.uci) : LoopKeeps uci (uciAfter (requestStep env s).val) := by
  rcases requestStep_uci env s with hsame | ⟨hcaches, hcall⟩
  · rw [hsame]
    exact h
  · obtain ⟨hnewer, dst, hcached⟩ : s.uci.rev < leWord (image env s) Hdr.rev 4 ∧
        ∃ dst, (matching env s).2 = (cacheMicrocode s.uci (image env s) (some dst)).2 :=
      getMatchingMicrocode_one hcaches.2.2
    rw [hcall, hcached]
    refine ⟨h.1, fun c hc => ?_⟩
    rw [cacheMicrocode, Option.some.injEq] at hc
    rw [← hc, cached_revision (hcopied hcaches)]
    exact Nat.le_of_lt hnewer

/-- Behind the loop the invariant holds. -/
theorem loop_keeps {fuel : Nat} {e : LoopEnd} (hcopied : RevisionsCopied uci (.cpuRequestMicrocode env mc fuel))
    (h : CachedNotOlder uci) (hl : (loop (requestStep env) fuel (requestStart mc uci)).val = some e) :
    LoopKeeps uci e.uci := by
  obtain ⟨u, hu, hleave, -⟩ := loop_exit hl
  have hheads : ∀ t, Heads (requestStep env) (requestStart mc uci) t → LoopKeeps uci t.uci := by
    intro t ht
    induction ht with
    | start => exact ⟨rfl, h⟩
    | next ht hb ih =>
      have hkeeps := requestStep_keeps (hcopied _ ht) ih
      rw [hb] at hkeeps
      exact hkeeps
  have hkeeps := requestStep_keeps (hcopied u hu) (hheads u hu)
  rw [hleave] at hkeeps
  exact hkeeps

/-- A first call behind the end of the file delivers nothing. -/
theorem nextCall_behind (h : int32 (env.size % 2 ^ (8 * env.abi.ulong)) ≤ s.offset) : (nextCall env s).1 = 0 := by
  simp [nextCall, getNextUcodeFromBuffer, h]

/-- A first call that delivers something copies as many bytes as the file declares. -/
theorem nextCall_copies (h : 0 < (nextCall env s).1) : ∃ dst, nextCall env s =
    (int32 (totalSize env.buf s.offset),
      some (copyLoop Obj.buf Obj.mc env.buf s.offset (int32 (totalSize env.buf s.offset)).toNat 0 dst).val) := by
  unfold nextCall at *
  rcases nextUcode_cases s.mc env.buf (env.size % 2 ^ (8 * env.abi.ulong)) s.offset with
    ⟨-, hr⟩ | ⟨-, -, hr⟩ | ⟨-, -, -, hr⟩ | ⟨-, -, dst, -, hr⟩
  · simp [hr] at h
  · simp [hr] at h
  · simp [hr] at h
  · exact ⟨dst, hr⟩

/-- A copy that has the `totalsize` field declares what its source does. -/
theorem totalSize_copyLoop (o d : Obj) (src : Bytes) (base : Nat) (dst : Bytes) {n : Nat} (h : Hdr.totalsize + 4 ≤ n) :
    totalSize (copyLoop o d src base n 0 dst).val 0 = totalSize src base := by
  unfold totalSize
  rw [leWord_copyLoop o d src base dst (by omega), Nat.zero_add]

/-- **Files.** A file whose updates declare at least their `totalsize` field has the revisions copied. -/
theorem revisionsCopied_of_declared (fuel : Nat) (h : ∀ s, Heads (requestStep env) (requestStart mc uci) s →
    0 < (nextCall env s).1 → Hdr.totalsize + 4 ≤ int32 (totalSize env.buf s.offset)) :
    RevisionsCopied uci (.cpuRequestMicrocode env mc fuel) := by
  intro s hs hcaches
  have hdeclared := h s hs hcaches.1
  obtain ⟨dst, hcall⟩ := nextCall_copies hcaches.1
  unfold image
  rw [hcall, Option.getD_some, totalSize_copyLoop _ _ _ _ _ (by omega)]
  simp only [Hdr.rev, Hdr.totalsize] at *
  omega

end Request

/-! ## Runs -/

/-- **One call** keeps the invariant and what it owes, if it ends and copies the revisions of the images it caches. -/
theorem event_keeps {uci : UcodeCpuInfo} {e : Event} (h : CachedNotOlder uci) (hends : Terminates uci e)
    (hcopied : RevisionsCopied uci e) : CachedNotOlder (stepEvent uci e) ∧ RevisionOk uci e := by
  obtain ⟨⟨ret, uci'⟩, hrun⟩ := hends
  have hstep : stepEvent uci e = uci' := by
    unfold stepEvent
    rw [hrun]
    rfl
  cases e with
  | applyMicrocode msrContent =>
    obtain ⟨hkeeps, hgrows, happlied⟩ := apply_keeps h msrContent
    exact ⟨hkeeps, hgrows, happlied⟩
  | cpuRequestMicrocode env mc fuel =>
    obtain ⟨e, hl, hend⟩ := cpuRequest_some hrun
    obtain ⟨hrev, hkeeps⟩ := loop_keeps hcopied h hl
    rw [hstep]
    rcases hend with ⟨-, happly, hlog⟩ | ⟨-, rfl, -⟩
    · obtain ⟨hkeeps', hgrows, happlied⟩ := apply_keeps hkeeps env.msrContent
      rw [← happly, hrev] at hgrows happlied
      rw [← happly] at hkeeps'
      refine ⟨hkeeps', by rw [hstep]; exact hgrows, ?_⟩
      intro hne
      rw [hstep] at hne ⊢
      obtain ⟨hret, hcached⟩ := happlied hne
      refine ⟨?_, hcached⟩
      show Call.applyMicrocode 0 ∈ (cpuRequestMicrocode env mc uci fuel).log
      rw [hlog, ← hret]
      exact List.mem_append_right _ (List.mem_singleton.mpr rfl)
    · refine ⟨hkeeps, by rw [hstep, hrev], ?_⟩
      intro hne
      rw [hstep] at hne
      exact absurd hrev hne

/-- **No downgrade.** A run from a CPU without a cached update whose calls all end, and copy the revisions of the
images they cache, never makes the revision fall, and changes it only by an application, to that of the cached
update. -/
theorem revisions_along {uci : UcodeCpuInfo} {events : List Event} (h : uci.mcIntel = none)
    (hends : Along Terminates stepEvent uci events) (hcopied : Along RevisionsCopied stepEvent uci events) :
    Along RevisionOk stepEvent uci events := by
  have hstart : CachedNotOlder uci := fun c hc => by
    rw [h] at hc
    cases hc
  exact Along.of_inv (fun _ _ hi hg => (event_keeps hi hg.1 hg.2).1) (fun _ _ hi hg => (event_keeps hi hg.1 hg.2).2)
    hstart (hends.and hcopied)

/-! ### Two files -/

/-- A header with revision 9 that declares the sizes and the checksum, each by its lowest byte and the others. -/
def header (cksum datasize totalsize : UInt8 × UInt8) : List UInt8 :=
  [1, 0, 0, 0, 9, 0, 0, 0] ++ List.replicate 12 0 ++ [cksum.1, cksum.2, cksum.2, cksum.2] ++ [1, 0, 0, 0] ++
    [0, 0, 0, 0] ++ [datasize.1, datasize.2, datasize.2, datasize.2] ++
    [totalsize.1, totalsize.2, totalsize.2, totalsize.2] ++ List.replicate 16 0

/-- A file of the first `size` bytes, with zeroed blocks for the copies. -/
def fileOfHeader (abi : Abi) (bytes : List UInt8) (size : Nat) (rev : Nat) : Env :=
  ⟨abi, Bytes.ofList bytes, size, fun _ => 0, fun _ _ => 0, fun _ => some fun _ => 0, rev * 2 ^ 32⟩

/-- An update that declares three bytes in all, and so many of data that the sum wraps to three. -/
def threeBytes : List UInt8 := header (0, 0) (0xCF, 0xFF) (3, 0)

/-- An update of 56 bytes with a correct checksum. -/
def newer56 : List UInt8 := header (0xB9, 0xFF) (4, 0) (56, 0)

/-- A CPU with revision 5. -/
def cpu5 : UcodeCpuInfo := ⟨0, 0, 5, none⟩

/-- A call with the update of three bytes, the block of `mc` holding the same header. -/
def requestThree : Event :=
  .cpuRequestMicrocode (fileOfHeader .ilp32 threeBytes 52 0) (some (Bytes.ofList threeBytes)) 2

/-- Three bytes of the image are cached; the block has revision 0 where its revision should be, and the CPU has that
then. -/
theorem revisions_counterexample :
    ¬ ∀ (uci : UcodeCpuInfo) (events : List Event), uci.mcIntel = none → Along Terminates stepEvent uci events →
      Along RevisionOk stepEvent uci events := by
  intro h
  have hrun : ((requestThree.run cpu5).map fun r => r.2.rev) = some 0 := by decide +kernel
  obtain ⟨r, hr, hrev⟩ := Option.map_eq_some_iff.mp hrun
  have hok := (h cpu5 [requestThree] rfl ⟨⟨r, hr⟩, trivial⟩).1.grows
  simp only [stepEvent, hr, Option.map_some, Option.getD_some, hrev] at hok
  exact absurd hok (by decide)

/-- The update of 56 bytes is cached and applied. -/
theorem revisions_newer56 : Along RevisionOk stepEvent cpu5
    [.cpuRequestMicrocode (fileOfHeader .llp64 newer56 56 9) (some fun _ => 0) 2] := by
  refine revisions_along rfl ⟨Option.isSome_iff_exists.mp ?_, trivial⟩ ⟨fun s hs hcaches => ?_, trivial⟩
  · decide +kernel
  · rcases hs.cases_head with rfl | ⟨t, ht, hs⟩
    · decide +kernel
    · -- behind the update the file ends
      have ho : (t.offset : Int) = 56 := (requestStep_next ht).2.1.trans (by decide +kernel)
      have hbehind : int32 (56 % 2 ^ (8 * Abi.llp64.ulong)) ≤ t.offset := by
        rw [ho]
        decide
      have hn : ¬0 < (nextCall (fileOfHeader .llp64 newer56 56 9) t).1 := by
        rw [nextCall_behind hbehind]
        exact Int.lt_irrefl 0
      rcases hs.cases_head with rfl | ⟨v, hv, -⟩
      · exact absurd hcaches.1 hn
      · exact absurd (requestStep_next hv).1 hn

end Xen.Intel
