/- Unit: MuTegra/MemorySearch/Memmem
   source: Tegra30Pkg/Applications/UEFILoader/Memory.c
   digest: On every path the loader's memmem returns the first occurrence. -/

import MuTegra.Foundation.Words.Packing
import MuTegra.MemorySearch.WindowSearch

set_option autoImplicit false
set_option relaxedAutoImplicit false

namespace MuTegra.MemorySearch.Memmem

open MuTegra.Foundation.Loops (PassOk loop_total)
open MuTegra.Foundation.MachineWords
open MuTegra.Foundation.Words.Occurrence
open MuTegra.Foundation.Words.Packing
open MuTegra.MemorySearch.Memory
open MuTegra.MemorySearch.SuffixLoops
open MuTegra.MemorySearch.WindowSearch

theorem letters_lt (bytes : List UInt8) (i : ℕ) : letters bytes i < 256 :=
  UInt8.toNat_lt _

theorem packed_eq_iff_occursAt {hay n : List UInt8} {i : ℕ}
    (hfit : i + n.length ≤ hay.length) :
    packed (letters hay) n.length i = packed (letters n) n.length 0 ↔ OccursAt hay n i := by
  rw [packed_inj (letters_lt n) (letters_lt hay), occursAt_letters]
  simp only [Nat.zero_add, Carries, hfit, true_and]

variable {push : ℕ → ℕ → ℕ} {nw : ℕ} {hay n : List UInt8}

/-- What a rolling word has to satisfy: it tells occurrences apart and is kept by
the update. -/
structure Rolls (push : ℕ → ℕ → ℕ) (nw : ℕ) (hay n : List UInt8) (word : ℕ → ℕ) : Prop where
  matches_iff : ∀ i, i + n.length ≤ hay.length → (word i = nw ↔ OccursAt hay n i)
  push_eq : ∀ i, i + n.length < hay.length →
    push (word i) (letters hay (i + n.length)) = word (i + 1)

structure RollsTo (hay n : List UInt8) (word : ℕ → ℕ) (i : ℕ) (s : RollState) : Prop where
  h : s.h = i + n.length
  k : s.h + s.k = hay.length
  hw : s.hw = word i
  passed : ∀ j < i, ¬ OccursAt hay n j

private theorem rollPass_ok {word : ℕ → ℕ} (hroll : Rolls push nw hay n word) {i : ℕ}
    {s : RollState} (hs : RollsTo hay n word i s) :
    PassOk (rollPass push n.length nw hay) (fun s => ∃ i, RollsTo hay n word i s)
      RollState.k (FirstOccurrence hay n) s := by
  have hh := hs.h
  have hk := hs.k
  have hmatch := hroll.matches_iff i (by omega)
  have hback : s.h - n.length = i := by omega
  by_cases hword : s.hw = nw
  · have hocc : OccursAt hay n i := hmatch.mp (hs.hw ▸ hword)
    refine Or.inr ⟨some i, ?_, hocc, hs.passed⟩
    by_cases hend : s.k = 0
    · simp [rollPass, hend, hword, hback]
    · simp [rollPass, hend, hword, hback]
  · have hfail : ¬ OccursAt hay n i := fun hocc => hword (hs.hw.trans (hmatch.mpr hocc))
    have hpassed : ∀ j < i + 1, ¬ OccursAt hay n j := by
      intro j hj
      rcases Nat.eq_or_lt_of_le (Nat.le_of_lt_succ hj) with heq | hlt
      · exact heq ▸ hfail
      · exact hs.passed j hlt
    by_cases hend : s.k = 0
    · refine Or.inr ⟨none, by simp [rollPass, hend, hword], fun j hocc => ?_⟩
      have hfit := (occursAt_letters.mp hocc).1
      exact hpassed j (by omega) hocc
    · obtain ⟨b, hb, hlb⟩ := read_letter hay (show s.h < hay.length by omega)
      have hbody : rollPass push n.length nw hay s =
          some (.inl { h := s.h + 1, k := s.k - 1, hw := push s.hw b.toNat }) := by
        simp [rollPass, hend, hword, hb]
      refine Or.inl ⟨_, hbody, ⟨i + 1, ?_, ?_, ?_, hpassed⟩, ?_⟩
      · change s.h + 1 = i + 1 + n.length
        omega
      · change s.h + 1 + (s.k - 1) = hay.length
        omega
      · change push s.hw b.toNat = word (i + 1)
        rw [hs.hw, ← hlb, hh]
        exact hroll.push_eq i (by omega)
      · change s.k - 1 < s.k
        omega

private theorem roll_spec {word : ℕ → ℕ} (hroll : Rolls push nw hay n word) {h : ℕ}
    (hfit : h + n.length ≤ hay.length) (hpassed : ∀ j < h, ¬ OccursAt hay n j) {fuel : ℕ}
    (enough : hay.length < fuel) :
    ∃ r, MuTegra.Foundation.Loops.loop (rollPass push n.length nw hay) fuel
      { h := h + n.length, k := hay.length - h - n.length, hw := word h } = some r ∧
        FirstOccurrence hay n r := by
  apply loop_total (fun s => ∃ i, RollsTo hay n word i s) RollState.k
  · rintro s ⟨i, hs⟩
    exact rollPass_ok hroll hs
  · refine ⟨h, rfl, ?_, rfl, hpassed⟩
    change h + n.length + (hay.length - h - n.length) = hay.length
    omega
  · change hay.length - h - n.length < fuel
    omega

variable {h fuel : ℕ}

theorem twobyteMemmem_spec (hn : n.length = 2) (hfit : h + n.length ≤ hay.length)
    (hpassed : ∀ j < h, ¬ OccursAt hay n j) (enough : hay.length < fuel) :
    ∃ r, twobyteMemmem fuel hay h (hay.length - h) n = some r ∧ FirstOccurrence hay n r := by
  obtain ⟨n0, hn0, hln0⟩ := read_letter n (show 0 < n.length by omega)
  obtain ⟨n1, hn1, hln1⟩ := read_letter n (show 1 < n.length by omega)
  obtain ⟨h0, hh0, hlh0⟩ := read_letter hay (show h < hay.length by omega)
  obtain ⟨h1, hh1, hlh1⟩ := read_letter hay (show h + 1 < hay.length by omega)
  have hpack (a b : ℕ) (ha : a < 256) (hb : b < 256) :
      toUint16 (a <<< 8 ||| b) = a * 256 + b := by
    rw [shiftLeft_or_byte a hb, toUint16]
    omega
  have hroll : Rolls (fun hw b => toUint16 (hw <<< 8 ||| b)) (packed (letters n) 2 0) hay n
      (packed (letters hay) 2) := by
    refine ⟨fun i hi => hn ▸ packed_eq_iff_occursAt hi, fun i hi => ?_⟩
    rw [hn, ← packed_slide (letters_lt hay) 2 i, shiftLeft_or_byte _ (letters_lt hay _)]
    rfl
  have hspec := roll_spec hroll hfit hpassed enough
  simp only [hn, packed, Nat.zero_mul, Nat.zero_add, Nat.add_zero, hln0, hln1, hlh0, hlh1]
    at hspec
  simp only [twobyteMemmem, hn0, hn1, hh0, hh1, Option.bind_eq_bind, Option.bind_some,
    hpack _ _ (UInt8.toNat_lt _) (UInt8.toNat_lt _)]
  exact hspec

theorem threebyteMemmem_spec (hn : n.length = 3) (hfit : h + n.length ≤ hay.length)
    (hpassed : ∀ j < h, ¬ OccursAt hay n j) (enough : hay.length < fuel) :
    ∃ r, threebyteMemmem fuel hay h (hay.length - h) n = some r ∧ FirstOccurrence hay n r := by
  obtain ⟨n0, hn0, hln0⟩ := read_letter n (show 0 < n.length by omega)
  obtain ⟨n1, hn1, hln1⟩ := read_letter n (show 1 < n.length by omega)
  obtain ⟨n2, hn2, hln2⟩ := read_letter n (show 2 < n.length by omega)
  obtain ⟨h0, hh0, hlh0⟩ := read_letter hay (show h < hay.length by omega)
  obtain ⟨h1, hh1, hlh1⟩ := read_letter hay (show h + 1 < hay.length by omega)
  obtain ⟨h2, hh2, hlh2⟩ := read_letter hay (show h + 2 < hay.length by omega)
  have hpack (a b c : ℕ) (ha : a < 256) (hb : b < 256) (hc : c < 256) :
      toUint32 (a <<< 24 ||| b <<< 16 ||| c <<< 8) = ((a * 256 + b) * 256 + c) * 256 := by
    have hword : a <<< 24 ||| b <<< 16 ||| c <<< 8 = (((a <<< 8 ||| b) <<< 8) ||| c) <<< 8 := by
      simp only [Nat.shiftLeft_or_distrib, ← Nat.shiftLeft_add, Nat.reduceAdd]
    rw [hword, shiftLeft_or_byte a hb, shiftLeft_or_byte _ hc, Nat.shiftLeft_eq]
    exact toUint32_of_lt (by omega)
  have hroll : Rolls (fun hw b => toUint32 ((hw ||| b) <<< 8)) (packed (letters n) 3 0 * 256)
      hay n (fun i => packed (letters hay) 3 i * 256) := by
    refine ⟨fun i hi => ?_, fun i hi => ?_⟩
    · rw [← packed_eq_iff_occursAt hi, hn]
      exact Nat.mul_left_inj (by decide)
    · have hslide := packed_slide (letters_lt hay) 3 i
      have hor : packed (letters hay) 3 i * 256 ||| letters hay (i + n.length) =
          packed (letters hay) 3 i * 256 + letters hay (i + 3) := by
        rw [hn, ← shiftLeft_or_byte _ (letters_lt hay _), Nat.shiftLeft_eq]
      change toUint32 _ = packed (letters hay) 3 (i + 1) * 256
      have htop : (4294967296 : ℕ) = 256 ^ 3 * 2 ^ 8 := by decide
      rw [hor, Nat.shiftLeft_eq, ← hslide, toUint32, htop, Nat.mul_mod_mul_right]
  have hspec := roll_spec hroll hfit hpassed enough
  simp only [hn, packed, Nat.zero_mul, Nat.zero_add, Nat.add_zero, hln0, hln1, hln2, hlh0,
    hlh1, hlh2] at hspec
  simp only [threebyteMemmem, hn0, hn1, hn2, hh0, hh1, hh2, Option.bind_eq_bind,
    Option.bind_some, hpack _ _ _ (UInt8.toNat_lt _) (UInt8.toNat_lt _) (UInt8.toNat_lt _)]
  exact hspec

theorem fourbyteMemmem_spec (hn : n.length = 4) (hfit : h + n.length ≤ hay.length)
    (hpassed : ∀ j < h, ¬ OccursAt hay n j) (enough : hay.length < fuel) :
    ∃ r, fourbyteMemmem fuel hay h (hay.length - h) n = some r ∧ FirstOccurrence hay n r := by
  obtain ⟨n0, hn0, hln0⟩ := read_letter n (show 0 < n.length by omega)
  obtain ⟨n1, hn1, hln1⟩ := read_letter n (show 1 < n.length by omega)
  obtain ⟨n2, hn2, hln2⟩ := read_letter n (show 2 < n.length by omega)
  obtain ⟨n3, hn3, hln3⟩ := read_letter n (show 3 < n.length by omega)
  obtain ⟨h0, hh0, hlh0⟩ := read_letter hay (show h < hay.length by omega)
  obtain ⟨h1, hh1, hlh1⟩ := read_letter hay (show h + 1 < hay.length by omega)
  obtain ⟨h2, hh2, hlh2⟩ := read_letter hay (show h + 2 < hay.length by omega)
  obtain ⟨h3, hh3, hlh3⟩ := read_letter hay (show h + 3 < hay.length by omega)
  have hpack (a b c d : ℕ) (ha : a < 256) (hb : b < 256) (hc : c < 256) (hd : d < 256) :
      toUint32 (a <<< 24 ||| b <<< 16 ||| c <<< 8 ||| d) =
        ((a * 256 + b) * 256 + c) * 256 + d := by
    have hword : a <<< 24 ||| b <<< 16 ||| c <<< 8 ||| d =
        (((a <<< 8 ||| b) <<< 8) ||| c) <<< 8 ||| d := by
      simp only [Nat.shiftLeft_or_distrib, ← Nat.shiftLeft_add, Nat.reduceAdd]
    rw [hword, shiftLeft_or_byte a hb, shiftLeft_or_byte _ hc, shiftLeft_or_byte _ hd]
    exact toUint32_of_lt (by omega)
  have hroll : Rolls (fun hw b => toUint32 (hw <<< 8 ||| b)) (packed (letters n) 4 0) hay n
      (packed (letters hay) 4) := by
    refine ⟨fun i hi => hn ▸ packed_eq_iff_occursAt hi, fun i hi => ?_⟩
    rw [hn, ← packed_slide (letters_lt hay) 4 i, shiftLeft_or_byte _ (letters_lt hay _)]
    rfl
  have hspec := roll_spec hroll hfit hpassed enough
  simp only [hn, packed, Nat.zero_mul, Nat.zero_add, Nat.add_zero, hln0, hln1, hln2, hln3,
    hlh0, hlh1, hlh2, hlh3] at hspec
  simp only [fourbyteMemmem, hn0, hn1, hn2, hn3, hh0, hh1, hh2, hh3, Option.bind_eq_bind,
    Option.bind_some, hpack _ _ _ _ (UInt8.toNat_lt _) (UInt8.toNat_lt _) (UInt8.toNat_lt _)
    (UInt8.toNat_lt _)]
  exact hspec

variable {lib : BaseMemoryLib} {b : UInt8}

private theorem first_byte_of_occursAt (hb : n[0]? = some b) {i : ℕ}
    (hocc : OccursAt hay n i) : hay[i]? = some b := by
  obtain ⟨hpos, _⟩ := List.getElem?_eq_some_iff.mp hb
  have hread := (occursAt_iff.mp hocc).2 0 hpos
  rw [Nat.add_zero, hb] at hread
  exact hread

private theorem scan_none (hlib : ScanMem8Spec lib) (hb : n[0]? = some b)
    (hscan : lib.scanMem8 hay b = none) (i : ℕ) : ¬ OccursAt hay n i := by
  intro hocc
  rw [hlib, List.findIdx?_eq_none_iff] at hscan
  have hmem := List.mem_of_getElem? (first_byte_of_occursAt hb hocc)
  simpa using hscan b hmem

private theorem scan_some (hlib : ScanMem8Spec lib) (hb : n[0]? = some b) {h : ℕ}
    (hscan : lib.scanMem8 hay b = some h) :
    hay[h]? = some b ∧ ∀ j < h, ¬ OccursAt hay n j := by
  rw [hlib, List.findIdx?_eq_some_iff_getElem] at hscan
  obtain ⟨hlt, hat, hbefore⟩ := hscan
  refine ⟨?_, fun j hj hocc => ?_⟩
  · rw [List.getElem?_eq_getElem hlt, beq_iff_eq.mp hat]
  · have hread := first_byte_of_occursAt hb hocc
    rw [List.getElem?_eq_getElem (hj.trans hlt), Option.some_inj] at hread
    exact hbefore j hj (beq_iff_eq.mpr hread)

theorem firstOccurrence_none_iff {hay n : List UInt8} {r : Option ℕ}
    (hfirst : FirstOccurrence hay n r) : r = none ↔ ∀ i, ¬ OccursAt hay n i := by
  cases r with
  | none => exact ⟨fun _ => hfirst, fun _ => rfl⟩
  | some i => exact ⟨nofun, fun habsent => (habsent i hfirst.1).elim⟩

theorem firstOccurrence_one {hay n : List UInt8} {b : UInt8} {h : ℕ} (hone : n.length = 1)
    (hb : n[0]? = some b) (hat : hay[h]? = some b) (hlt : h < hay.length)
    (hpassed : ∀ j < h, ¬ OccursAt hay n j) : FirstOccurrence hay n (some h) := by
  refine ⟨occursAt_iff.mpr ⟨by omega, fun t ht => ?_⟩, hpassed⟩
  have ht0 : t = 0 := by omega
  rw [ht0, Nat.add_zero, hat, hb]

theorem firstOccurrence_noRoom {hay n : List UInt8} {h : ℕ} (hlt : h < hay.length)
    (hroom : hay.length - h < n.length) (hpassed : ∀ j < h, ¬ OccursAt hay n j) :
    FirstOccurrence hay n none := by
  intro i hocc
  rcases Nat.lt_or_ge i h with hih | hhi
  · exact hpassed i hih hocc
  · have hend := (occursAt_iff.mp hocc).1
    omega

theorem memmem_nonempty {lib : BaseMemoryLib} (hscan : ScanMem8Spec lib)
    (hcompare : CompareMemSpec lib) {hay n : List UInt8} (hhay : hay.length < 4294967296)
    (hfits : n.length < 4294967296) {fuel : ℕ} (enough : 2 * n.length + hay.length < fuel)
    (hpos : 0 < n.length) :
    ∃ r, memmem lib fuel ⟨hay, hhay⟩ ⟨n, hfits⟩ = some r ∧ FirstOccurrence hay n r := by
  unfold memmem
  simp only
  rw [if_neg (by omega)]
  by_cases hlong : hay.length < n.length
  · rw [if_pos hlong]
    refine ⟨none, rfl, fun i hocc => ?_⟩
    have hend := (occursAt_iff.mp hocc).1
    omega
  rw [if_neg hlong]
  obtain ⟨b, hb, _⟩ := read_letter n hpos
  rw [hb]
  simp only [Option.bind_eq_bind, Option.bind_some]
  cases hfound : lib.scanMem8 hay b with
  | none => exact ⟨none, rfl, scan_none hscan hb hfound⟩
  | some h =>
      obtain ⟨hat, hpassed⟩ := scan_some hscan hb hfound
      obtain ⟨hlt, _⟩ := List.getElem?_eq_some_iff.mp hat
      simp only
      by_cases hone : n.length = 1
      · rw [if_pos hone]
        exact ⟨some h, rfl, firstOccurrence_one hone hb hat hlt hpassed⟩
      rw [if_neg hone]
      by_cases hroom : hay.length - h < n.length
      · rw [if_pos hroom]
        exact ⟨none, rfl, firstOccurrence_noRoom hlt hroom hpassed⟩
      rw [if_neg hroom]
      have hfit : h + n.length ≤ hay.length := by omega
      have hfuel : hay.length < fuel := by omega
      by_cases htwo : n.length = 2
      · rw [if_pos htwo]
        exact twobyteMemmem_spec htwo hfit hpassed hfuel
      rw [if_neg htwo]
      by_cases hthree : n.length = 3
      · rw [if_pos hthree]
        exact threebyteMemmem_spec hthree hfit hpassed hfuel
      rw [if_neg hthree]
      by_cases hfour : n.length = 4
      · rw [if_pos hfour]
        exact fourbyteMemmem_spec hfour hfit hpassed hfuel
      rw [if_neg hfour, Nat.add_sub_cancel' hlt.le]
      exact twowayMemmem_spec hcompare hfits hhay hpos hlt.le hpassed enough

/-- With the two library services as documented, `memmem` runs without a fault and
returns the first occurrence; NULL means there is none, and the empty needle is
found at the start. -/
theorem memmem_first_occurrence (lib : BaseMemoryLib) (hscan : ScanMem8Spec lib)
    (hcompare : CompareMemSpec lib) (hay needle : Buffer) (fuel : ℕ)
    (enough : 2 * needle.bytes.length + hay.bytes.length < fuel) :
    ∃ r, memmem lib fuel hay needle = some r ∧ FirstOccurrence hay.bytes needle.bytes r ∧
      (r = none ↔ ∀ i, ¬ OccursAt hay.bytes needle.bytes i) ∧
      (needle.bytes = [] → r = some 0) := by
  obtain ⟨hay, hhay⟩ := hay
  obtain ⟨n, hfits⟩ := needle
  simp only at enough ⊢
  by_cases hempty : n = []
  · subst hempty
    have hfirst : FirstOccurrence hay [] (some 0) :=
      ⟨occursAt_nil hay, fun j hj => absurd hj (Nat.not_lt_zero j)⟩
    exact ⟨some 0, rfl, hfirst, firstOccurrence_none_iff hfirst, fun _ => rfl⟩
  · obtain ⟨r, hrun, hfirst⟩ := memmem_nonempty hscan hcompare hhay hfits enough
      (List.length_pos_iff.mpr hempty)
    exact ⟨r, hrun, hfirst, firstOccurrence_none_iff hfirst, fun h => (hempty h).elim⟩

def listLib : BaseMemoryLib where
  scanMem8 bytes value := bytes.findIdx? (· == value)
  compareMem a b := if a = b then 0 else 1

theorem listLib_scanMem8 : ScanMem8Spec listLib := fun _ _ => rfl

theorem listLib_compareMem : CompareMemSpec listLib := by
  intro a b _
  simp [listLib]

/-- A text with a near miss of `periodicNeedle` before its one occurrence. -/
def periodicText : Buffer := ⟨[97, 98, 97, 98, 98, 97, 98, 97, 98, 97], by decide⟩

def periodicNeedle : Buffer := ⟨[97, 98, 97, 98, 97], by decide⟩

theorem memmem_first_occurrence_periodic :
    ∃ r, memmem listLib 64 periodicText periodicNeedle = some r ∧
      FirstOccurrence periodicText.bytes periodicNeedle.bytes r ∧
      (r = none ↔ ∀ i, ¬ OccursAt periodicText.bytes periodicNeedle.bytes i) ∧
      (periodicNeedle.bytes = [] → r = some 0) :=
  memmem_first_occurrence listLib listLib_scanMem8 listLib_compareMem periodicText
    periodicNeedle 64 (by decide)

example : memmem listLib 64 periodicText periodicNeedle = some (some 5) := by decide

end MuTegra.MemorySearch.Memmem
