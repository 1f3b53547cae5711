import Mathlib.Data.List.GetD
import Xen.Strings.Chr
import Xen.Strings.Copy

/-!
# How the string routines fit together (`string_verified.c`)

- `routines_agree`: searches, lengths and comparisons of the same strings say the same. `strchr` is `strstr` with a
  string of one character, the position of the terminator is `strlen`, `strnlen` is `strlen` up to its bound, a prefix
  is found at the start exactly if `strncmp` says so, and with a bound behind the string `strncmp` is `strcmp`.
- `build` is `strcpy` of a first piece and `strcat` of the others. `strings_built`: the result is the concatenation of
  the pieces, however many, nothing else has changed, and each piece is found in it, at its place or before.
-/

namespace Xen.Strings

open Lib

variable {ω : Type}

/-! ## Searches and comparisons -/

/-- The routines on a string of length `n` and one of length `m`. -/
structure RoutinesAgree (fuel : Nat) (s : Ptr ω) (n : Nat) (t : Ptr ω) (m : Nat) : Prop where
  terminator : (strlen fuel s).val = some n ∧ (strchr fuel s 0).val = some (some (s.add n)) ∧
    (strrchr fuel s 0).val = some (some (s.add n))
  strnlen : ∀ count, (strnlen s count).val = min count n
  strchr : ∀ b : UInt8, 0 < b → b < 128 → IsString t.get 1 → t.get 0 = b →
    (strstr fuel s t).val = (strchr fuel s b.toNat).val
  initial : (strstr fuel s t).val = some (some s) ↔ (strncmp s t m).val = 0
  strncmp : (strcmp fuel s t).val = some (strncmp s t (n + 1)).val

section Reading

variable {s t : Ptr ω} {n m fuel : Nat}

/-- What `strstr` returns. -/
theorem strstr_val (hs : IsString s.get n) (ht : IsString t.get m) (hn : n < fuel) (hm : m < fuel) :
    ∃ r, (strstr fuel s t).val = some r ∧ StrstrOk s n t.get m r := by
  have hlens := strlen_val hs hn
  have hlent := strlen_val ht hm
  by_cases hm0 : m = 0
  · subst hm0
    exact ⟨some s, by simp [Strings.strstr, hlent], strstrOk_here ⟨by omega, fun j hj => by omega⟩⟩
  · obtain ⟨r, hval, hok, -⟩ := strstrLoop_ok s t (Nat.pos_of_ne_zero hm0) hn
    exact ⟨r, by simp [Strings.strstr, hlens, hlent, hm0, hval], hok⟩

/-- There is one first occurrence. -/
theorem StrstrOk.unique {u : Bytes} {r r' : Option (Ptr ω)} (h : StrstrOk s n u m r) (h' : StrstrOk s n u m r') :
    r = r' := by
  cases hr : r with
  | none => exact ((h'.null).mpr (h.null.mp hr)).symm
  | some p =>
    obtain ⟨i, rfl, hi, hfirst⟩ := h.found p hr
    cases hr' : r' with
    | none => exact absurd hi (h'.null.mp hr' i)
    | some p' =>
      obtain ⟨j, rfl, hj, hfirst'⟩ := h'.found p' hr'
      rcases Nat.lt_trichotomy i j with hlt | rfl | hgt
      · exact absurd hi (hfirst' i hlt)
      · rfl
      · exact absurd hj (hfirst j hgt)

/-- A character as an `int` determines it. -/
theorem charToInt_inj {a b : UInt8} (h : charToInt a = charToInt b) : a = b := by
  have hdiff := signedChar_charToInt a b
  rw [h, Int.sub_self] at hdiff
  exact (byteDiff_eq_zero_iff a b).mp hdiff.symm

/-- The occurrences of a string of one character. -/
theorem occursAt_one {b : UInt8} (hs : IsString s.get n) (hb : b ≠ 0) (ht : t.get 0 = b) (i : Nat) :
    OccursAt s.get n t.get 1 i ↔ i ∈ IndicesOf s.get n (charToInt b) := by
  constructor
  · intro h
    have hsame := h.same 0 Nat.one_pos
    rw [Nat.add_zero, ht] at hsame
    exact ⟨Nat.le_of_succ_le h.fits, congrArg charToInt hsame⟩
  · rintro ⟨hle, hi⟩
    have hsame : s.get i = b := charToInt_inj hi
    have hne : i ≠ n := by
      rintro rfl
      exact hb (hsame.symm.trans hs.nul)
    refine ⟨by omega, ?_⟩
    intro j hj
    obtain rfl : j = 0 := by omega
    rw [Nat.add_zero, hsame, ht]

/-- **`strchr`** is `strstr` with a string of one character. -/
theorem strstr_char {b : UInt8} (hs : IsString s.get n) (hn : n < fuel) (hm : 1 < fuel) (h0 : 0 < b) (hb : b < 128)
    (ht : IsString t.get 1) (htb : t.get 0 = b) :
    (Strings.strstr fuel s t).val = (Strings.strchr fuel s b.toNat).val := by
  have hne : b ≠ 0 := by
    rintro rfl
    exact absurd h0 (by decide)
  have hlt : b.toNat < 128 := UInt8.lt_iff_toNat_lt.mp hb
  have hchar : charToInt b = b.toNat := signedChar_of_lt (by omega) (by omega)
  obtain ⟨r, hr, hok, -⟩ := strchr_ok hs (signedChar_of_lt (c := b.toNat) (by omega) (by omega)) hn
  obtain ⟨r', hr', hok'⟩ := strstr_val hs ht hn hm
  rw [hr, hr']
  -- the least index of the character is the first occurrence
  refine congrArg some (hok'.unique ⟨?_, ?_⟩)
  · rintro p rfl
    have hsome : ∃ i, i ∈ IndicesOf s.get n b.toNat := by
      by_contra hnone
      exact absurd (hok.null.mpr (not_exists.mp hnone)) (Option.some_ne_none p)
    classical
    have hleast : IsLeast (IndicesOf s.get n b.toNat) (Nat.find hsome) :=
      ⟨Nat.find_spec hsome, fun j hj => Nat.find_min' hsome hj⟩
    refine ⟨Nat.find hsome, Option.some.inj (hok.found _ hleast), ?_, ?_⟩
    · rw [occursAt_one hs hne htb, hchar]
      exact hleast.1
    · intro j hj hocc
      rw [occursAt_one hs hne htb, hchar] at hocc
      exact Nat.find_min hsome hj hocc
  · rw [hok.null]
    apply forall_congr'
    intro i
    rw [occursAt_one hs hne htb, hchar]

/-- `strnlen` is the length up to its bound. -/
theorem strnlen_min (hs : IsString s.get n) (count : Nat) : (Strings.strnlen s count).val = min count n := by
  have h := (strnlen_ok s count).1
  rcases Nat.lt_trichotomy (Strings.strnlen s count).val n with hlt | heq | hgt
  · -- before the terminator only the bound ends the search
    have hcount : (Strings.strnlen s count).val = count := by
      by_contra hne
      exact hs.char _ hlt (h.nul (Nat.lt_of_le_of_ne h.le hne))
    omega
  · have hle := h.le
    omega
  · exact absurd hs.nul (h.char n hgt)

/-- `strncmp` with the length of the second string says whether it is a prefix. -/
theorem strncmp_initial (hs : IsString s.get n) (ht : IsString t.get m) :
    (Strings.strncmp s t m).val = 0 ↔ OccursAt s.get n t.get m 0 := by
  obtain ⟨k, -, hk⟩ := hs.stopsAt t.get
  rw [Strings.strncmp, strncmpLoop_val m hk]
  by_cases hkm : k < m
  · have hne : s.get k ≠ t.get k := by
      intro heq
      have h0 := hk.stop.resolve_left (not_not_intro heq)
      exact ht.char k hkm (heq.symm.trans h0)
    rw [if_pos hkm, byteDiff_eq_zero_iff]
    apply iff_of_false hne
    intro hocc
    have hsame := hocc.same k hkm
    rw [Nat.zero_add] at hsame
    exact hne hsame
  · rw [if_neg hkm]
    apply iff_of_true rfl
    have hsame : ∀ i < m, s.get i = t.get i := fun i hi => (hk.before i (by omega)).1
    constructor
    · by_contra hlt
      have hn : n < m := by omega
      exact ht.char n hn ((hsame n hn).symm.trans hs.nul)
    · intro j hj
      rw [Nat.zero_add]
      exact hsame j hj

/-- **Reading routines agree.** -/
theorem routines_agree (fuel : Nat) (s t : Ptr ω) (n m : Nat) (hs : IsString s.get n) (ht : IsString t.get m)
    (hn : n < fuel) (hm : m < fuel) : RoutinesAgree fuel s n t m := by
  have hnul : signedChar 0 = 0 := by decide
  constructor
  · obtain ⟨r, hr, hok, -⟩ := strchr_ok hs hnul hn
    obtain ⟨r', hr', hok', -⟩ := strrchr_ok hs hnul hn
    rw [hr, hr', hok.terminator rfl, hok'.terminator rfl]
    exact ⟨strlen_val hs hn, rfl, rfl⟩
  · exact strnlen_min hs
  · intro b h0 hb ht1 htb
    exact strstr_char hs hn (ht.unique ht1 ▸ hm) h0 hb ht1 htb
  · obtain ⟨r, hr, hok⟩ := strstr_val hs ht hn hm
    rw [hr, strncmp_initial hs ht]
    constructor
    · intro h
      obtain ⟨i, hi, hocc, -⟩ := hok.found s (Option.some.inj h)
      obtain rfl : i = 0 := by
        have hoff : s.off = s.off + i := congrArg Ptr.off hi
        omega
      exact hocc
    · intro h
      exact congrArg some (hok.unique (strstrOk_here h))
  · obtain ⟨k, hk, hstop⟩ := hs.stopsAt t.get
    rw [strcmp_val hstop (by omega), Strings.strncmp, strncmpLoop_val (n + 1) hstop, if_pos (Nat.lt_succ_of_le hk)]

end Reading

/-- "banana", and "a" in it. -/
theorem routines_agree_banana :
    RoutinesAgree 8 (Ptr.ofList true [98, 97, 110, 97, 110, 97]) 6 (Ptr.ofList false [97]) 1 :=
  routines_agree 8 (Ptr.ofList true [98, 97, 110, 97, 110, 97]) (Ptr.ofList false [97]) 6 1 ⟨rfl, by decide⟩
    ⟨rfl, by decide⟩ (by decide) (by decide)

/-! ## Building strings -/

/-- `strcat` of one string after the other. -/
def appendAll (fuel : Nat) (dest : Nat) : Bytes → List Nat → Option Bytes
  | mem, [] => some mem
  | mem, src :: srcs => (strcat fuel mem dest src).val.bind fun r => appendAll fuel dest r.2 srcs

/-- `strcpy` of the first string, and `strcat` of the others. -/
def build (fuel : Nat) (mem : Bytes) (dest src : Nat) (srcs : List Nat) : Option Bytes :=
  (strcpy fuel mem dest src).val.bind fun r => appendAll fuel dest r.2 srcs

/-- The memory has these characters and a terminator at `a`. -/
structure HoldsString (mem : Bytes) (a : Nat) (l : List UInt8) : Prop where
  chars : ∀ x ∈ l, x ≠ 0
  bytes : ∀ i ≤ l.length, mem (a + i) = l.getD i 0

/-- Strings and where they are. -/
abbrev Piece := Nat × List UInt8

/-- The piece and its terminator are apart from the result at `dest`, of length `total`. -/
def Apart (dest total : Nat) (p : Piece) : Prop := dest + total + 1 ≤ p.1 ∨ p.1 + p.2.length + 1 ≤ dest

/-- **Built.** The memory holds the string at `dest`, and no other byte has changed. -/
structure Built (mem mem' : Bytes) (dest : Nat) (l : List UInt8) : Prop where
  holds : HoldsString mem' dest l
  frame : ∀ a, a < dest ∨ dest + l.length < a → mem' a = mem a

section Building

variable {mem mem' : Bytes} {dest src fuel : Nat} {l k : List UInt8}

theorem HoldsString.nil (h : mem src = 0) : HoldsString mem src [] := by
  refine ⟨fun x hx => absurd hx List.not_mem_nil, fun i hi => ?_⟩
  obtain rfl : i = 0 := Nat.le_zero.mp hi
  exact h

theorem HoldsString.cons {b : UInt8} (hb : b ≠ 0) (hhead : mem src = b) (h : HoldsString mem (src + 1) l) :
    HoldsString mem src (b :: l) := by
  refine ⟨List.forall_mem_cons.mpr ⟨hb, h.chars⟩, fun i hi => ?_⟩
  cases i with
  | zero => exact hhead
  | succ i =>
    rw [List.getD_cons_succ, ← h.bytes i (Nat.le_of_succ_le_succ hi), Nat.add_right_comm, Nat.add_assoc]

theorem HoldsString.isString (h : HoldsString mem src l) : IsString (Ptr.ofAddr mem src).get l.length := by
  constructor
  · rw [Ptr.get_ofAddr, h.bytes _ (Nat.le_refl _), List.getD_eq_default _ _ (Nat.le_refl _)]
  · intro i hi
    rw [Ptr.get_ofAddr, h.bytes i (Nat.le_of_lt hi), List.getD_eq_getElem _ _ hi]
    exact h.chars _ (List.getElem_mem hi)

/-- A string that no write reaches. -/
theorem HoldsString.of_frame (h : HoldsString mem src l) (hframe : ∀ i ≤ l.length, mem' (src + i) = mem (src + i)) :
    HoldsString mem' src l :=
  ⟨h.chars, fun i hi => (hframe i hi).trans (h.bytes i hi)⟩

/-- A string copied with its terminator. -/
theorem HoldsString.copied (h : HoldsString mem src l) (hc : Copied mem mem' dest src (l.length + 1)) :
    HoldsString mem' dest l :=
  ⟨h.chars, fun i hi => (hc.copied i (Nat.lt_succ_of_le hi)).trans (h.bytes i hi)⟩

/-- A string copied behind another one. -/
theorem HoldsString.append (hl : HoldsString mem dest l) (hk : HoldsString mem src k)
    (hc : Copied mem mem' (dest + l.length) src (k.length + 1)) : HoldsString mem' dest (l ++ k) := by
  constructor
  · intro x hx
    rcases List.mem_append.mp hx with hx | hx
    · exact hl.chars x hx
    · exact hk.chars x hx
  · intro i hi
    rw [List.length_append] at hi
    by_cases hil : i < l.length
    · rw [hc.frame _ (Or.inl (by omega)), hl.bytes i (Nat.le_of_lt hil), List.getD_append _ _ _ _ hil]
    · obtain ⟨j, rfl⟩ := Nat.exists_eq_add_of_le (Nat.le_of_not_lt hil)
      rw [← Nat.add_assoc, hc.copied j (by omega), hk.bytes j (by omega), List.getD_append_right _ _ _ _ (by omega),
        Nat.add_sub_cancel_left]

/-- A piece apart from the result is left alone. -/
theorem HoldsString.of_apart {p : Piece} {total : Nat} (h : HoldsString mem p.1 p.2) (ha : Apart dest total p)
    (hframe : ∀ a, a < dest ∨ dest + total < a → mem' a = mem a) : HoldsString mem' p.1 p.2 := by
  apply h.of_frame
  intro i hi
  apply hframe
  rcases ha with ha | ha <;> omega

/-- **Appending** all pieces, one after the other. -/
theorem appendAll_built (pieces : List Piece) (hl : HoldsString mem dest l)
    (hpieces : ∀ p ∈ pieces, HoldsString mem p.1 p.2 ∧ Apart dest (l ++ pieces.flatMap Prod.snd).length p)
    (hf : (l ++ pieces.flatMap Prod.snd).length < fuel) :
    ∃ mem', appendAll fuel dest mem (pieces.map Prod.fst) = some mem' ∧
      Built mem mem' dest (l ++ pieces.flatMap Prod.snd) := by
  induction pieces generalizing mem l with
  | nil =>
    rw [List.flatMap_nil, List.append_nil]
    exact ⟨mem, rfl, hl, fun _ _ => rfl⟩
  | cons p pieces ih =>
    obtain ⟨⟨hp, hapart⟩, hrest⟩ := List.forall_mem_cons.mp hpieces
    rw [List.flatMap_cons, ← List.append_assoc] at hapart hrest hf ⊢
    have hlen : (l ++ p.2 ++ pieces.flatMap Prod.snd).length =
        l.length + p.2.length + (pieces.flatMap Prod.snd).length := by
      rw [List.length_append, List.length_append]
    obtain ⟨mid, hval, hc⟩ : ∃ mem', (strcat fuel mem dest p.1).val = some (dest, mem') ∧
        Copied mem mem' (dest + l.length) p.1 (p.2.length + 1) :=
      strcat_val hl.isString hp.isString (by rcases hapart with h | h <;> omega) (by omega)
    have hframe : ∀ a, a < dest ∨ dest + (l ++ p.2 ++ pieces.flatMap Prod.snd).length < a → mid a = mem a :=
      fun a ha => hc.frame a (by omega)
    obtain ⟨mem', hall, hbuilt⟩ := ih (hl.append hp hc)
      (fun q hq => ⟨(hrest q hq).1.of_apart (hrest q hq).2 hframe, (hrest q hq).2⟩) hf
    refine ⟨mem', ?_, hbuilt.holds, ?_⟩
    · rw [List.map_cons, appendAll, hval]
      exact hall
    · intro a ha
      exact (hbuilt.frame a ha).trans (hframe a ha)

/-- A piece of the result is found at its place or before. -/
theorem strstr_built {pre post : List UInt8} (hl : HoldsString mem dest (pre ++ k ++ post)) (hk : HoldsString mem src k)
    (hf : (pre ++ k ++ post).length < fuel) :
    ∃ i ≤ pre.length, (strstr fuel (Ptr.ofAddr mem dest) (Ptr.ofAddr mem src)).val =
      some (some (Ptr.ofAddr mem (dest + i))) := by
  have hlen : (pre ++ k ++ post).length = pre.length + k.length + post.length := by
    rw [List.length_append, List.length_append]
  have hocc : OccursAt (Ptr.ofAddr mem dest).get (pre ++ k ++ post).length (Ptr.ofAddr mem src).get k.length
      pre.length := by
    constructor
    · omega
    · intro j hj
      rw [Ptr.get_ofAddr, Ptr.get_ofAddr, hl.bytes _ (by omega), hk.bytes j (Nat.le_of_lt hj), List.append_assoc,
        List.getD_append_right _ _ _ _ (Nat.le_add_right _ _), Nat.add_sub_cancel_left, List.getD_append _ _ _ _ hj]
  have hkf : k.length < fuel := by omega
  obtain ⟨r, hr, hok⟩ := strstr_val hl.isString hk.isString hf hkf
  cases hsome : r with
  | none => exact absurd hocc (hok.null.mp hsome _)
  | some p =>
    obtain ⟨i, rfl, -, hfirst⟩ := hok.found p hsome
    refine ⟨i, ?_, hr.trans (congrArg some hsome)⟩
    by_contra hlt
    exact hfirst _ (by omega) hocc

end Building

/-- **Strings from pieces.** `strcpy` of a first piece and `strcat` of any others, all of them apart from the result,
end and leave the concatenation, whose length `strlen` returns, and nothing else has changed. `strstr` finds each of the
pieces in it. -/
theorem strings_built (fuel : Nat) (mem : Bytes) (dest : Nat) (p : Piece) (pieces : List Piece)
    (hpieces : ∀ q ∈ p :: pieces,
      HoldsString mem q.1 q.2 ∧ Apart dest ((p :: pieces).flatMap Prod.snd).length q)
    (hf : ((p :: pieces).flatMap Prod.snd).length < fuel) :
    ∃ mem', build fuel mem dest p.1 (pieces.map Prod.fst) = some mem' ∧
      Built mem mem' dest ((p :: pieces).flatMap Prod.snd) ∧
      (strlen fuel (Ptr.ofAddr mem' dest)).val = some ((p :: pieces).flatMap Prod.snd).length ∧
      ∀ pre q post, p :: pieces = pre ++ q :: post → ∃ i ≤ (pre.flatMap Prod.snd).length,
        (strstr fuel (Ptr.ofAddr mem' dest) (Ptr.ofAddr mem' q.1)).val = some (some (Ptr.ofAddr mem' (dest + i))) := by
  obtain ⟨⟨hp, hapart⟩, hrest⟩ := List.forall_mem_cons.mp hpieces
  have hlen : ((p :: pieces).flatMap Prod.snd).length = p.2.length + (pieces.flatMap Prod.snd).length := by
    rw [List.flatMap_cons, List.length_append]
  obtain ⟨mid, hval, hc⟩ : ∃ mem', (strcpy fuel mem dest p.1).val = some (dest, mem') ∧
      Copied mem mem' dest p.1 (p.2.length + 1) :=
    strcpy_val hp.isString (by rcases hapart with h | h <;> omega) (by omega)
  have hframe : ∀ a, a < dest ∨ dest + ((p :: pieces).flatMap Prod.snd).length < a → mid a = mem a :=
    fun a ha => hc.frame a (by omega)
  obtain ⟨mem', hall, hbuilt⟩ := appendAll_built pieces (hp.copied hc)
    (fun q hq => ⟨(hrest q hq).1.of_apart (hrest q hq).2 hframe, (hrest q hq).2⟩) hf
  have hframe' : ∀ a, a < dest ∨ dest + ((p :: pieces).flatMap Prod.snd).length < a → mem' a = mem a :=
    fun a ha => (hbuilt.frame a ha).trans (hframe a ha)
  refine ⟨mem', ?_, ⟨hbuilt.holds, hframe'⟩, strlen_val hbuilt.holds.isString hf, ?_⟩
  · rw [build, hval]
    exact hall
  · intro pre q post heq
    have hq := hpieces q (by rw [heq]; simp)
    have hflat : (p :: pieces).flatMap Prod.snd = pre.flatMap Prod.snd ++ q.2 ++ post.flatMap Prod.snd := by
      rw [heq, List.flatMap_append, List.flatMap_cons, List.append_assoc]
    have hholds : HoldsString mem' dest (pre.flatMap Prod.snd ++ q.2 ++ post.flatMap Prod.snd) := hflat ▸ hbuilt.holds
    exact strstr_built hholds (hq.1.of_apart hq.2 hframe') (hflat ▸ hf)

/-- "ab" and "", "b" and "ab" again, at 8. -/
theorem strings_built_three :
    ∃ mem', build 6 (Bytes.ofList [97, 98, 0, 98, 0]) 8 0 [2, 3, 0] = some mem' ∧
      Built (Bytes.ofList [97, 98, 0, 98, 0]) mem' 8 [97, 98, 98, 97, 98] ∧
      (strlen 6 (Ptr.ofAddr mem' 8)).val = some 5 ∧
      ∀ (pre : List Piece) (q : Piece) (post : List Piece),
        [(0, [97, 98]), (2, []), (3, [98]), (0, [97, 98])] = pre ++ q :: post →
        ∃ i ≤ (pre.flatMap Prod.snd).length,
          (strstr 6 (Ptr.ofAddr mem' 8) (Ptr.ofAddr mem' q.1)).val = some (some (Ptr.ofAddr mem' (8 + i))) := by
  have hempty : HoldsString (Bytes.ofList [97, 98, 0, 98, 0]) 2 [] := .nil rfl
  have hb : HoldsString (Bytes.ofList [97, 98, 0, 98, 0]) 3 [98] := .cons (by decide) rfl (.nil rfl)
  have hab : HoldsString (Bytes.ofList [97, 98, 0, 98, 0]) 0 [97, 98] :=
    .cons (by decide) rfl (.cons (by decide) rfl (.nil rfl))
  refine strings_built 6 (Bytes.ofList [97, 98, 0, 98, 0]) 8 (0, [97, 98]) [(2, []), (3, [98]), (0, [97, 98])] ?_
    (by decide)
  intro q hq
  simp only [List.mem_cons, List.not_mem_nil, or_false] at hq
  rcases hq with rfl | rfl | rfl | rfl
  · exact ⟨hab, Or.inr (by decide)⟩
  · exact ⟨hempty, Or.inr (by decide)⟩
  · exact ⟨hb, Or.inr (by decide)⟩
  · exact ⟨hab, Or.inr (by decide)⟩

end Xen.Strings
