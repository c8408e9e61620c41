/- Unit: MuTegra/MemorySearch/CriticalCut
   source: Tegra30Pkg/Applications/UEFILoader/Memory.c
   digest: The loader's maximal-suffix loops end, and cut the needle where it shows its period. -/

import MuTegra.MemorySearch.Memmem

set_option autoImplicit false
set_option relaxedAutoImplicit false

namespace MuTegra.MemorySearch.CriticalCut

open MuTegra.Foundation.MachineWords
open MuTegra.Foundation.Words.Periods
open MuTegra.Foundation.Words.SuffixScan (Result)
open MuTegra.MemorySearch.Memory
open MuTegra.MemorySearch.SuffixLoops
open MuTegra.MemorySearch.TwoWay
open MuTegra.MemorySearch.Memmem (listLib listLib_compareMem periodicNeedle)

/-- `ms` and `p` as they are chosen: the cut `ms + 1` is inside the needle, `p` is a period of the
suffix there, and the local period there is the smallest period of the needle. -/
structure CutsCritically (n : List UInt8) (ms p : ℕ) : Prop where
  inside : toUint32 (ms + 1) < n.length
  suffix : Period (fun i => letters n (toUint32 (ms + 1) + i)) (n.length - toUint32 (ms + 1)) p
  shown : ∃ P, SmallestPeriod (letters n) n.length P ∧
    SmallestLocalPeriod (letters n) n.length (toUint32 (ms + 1)) P

/-- After the test `mem0` tells whether the `p` that was chosen is a period of the needle. -/
structure Remembers (n : List UInt8) (ms p : ℕ) (f : Factorization) : Prop where
  ms : f.ms = ms
  mem0_ne_zero_iff : f.mem0 ≠ 0 ↔ Period (letters n) n.length p
  mem0 : f.mem0 ≠ 0 → f.p = p ∧ f.mem0 = n.length - p

variable {n : List UInt8} {below : ℕ → ℕ → Prop} {c p : ℕ}

theorem cutsCritically_of_result (hres : Result below (letters n) n.length c p)
    (hcrit : Critical (letters n) n.length c) (hfits : n.length < 4294967296) :
    CutsCritically n (subUint32 c 1) p := by
  have hinside := hres.maximal.inside
  have hcut : toUint32 (subUint32 c 1 + 1) = c := subUint32_one_add (by omega)
  obtain ⟨P, hP, -⟩ := exists_smallestPeriod (letters n) (Nat.zero_lt_of_lt hinside)
  constructor
  · rwa [hcut]
  · rw [hcut]
    refine ⟨hres.pos, fun i hi => ?_⟩
    have hsuffix := hres.suffix (c + i) (Nat.le_add_right c i) (by omega)
    rwa [Nat.add_assoc] at hsuffix
  · rw [hcut]
    exact ⟨P, hP, hcrit.smallestLocalPeriod hP⟩

/-- A needle of two letters or more is longer than the period: a cut at its start means that all
its letters are the same. -/
theorem period_lt_of_result (hres : Result below (letters n) n.length c p)
    (hcrit : Critical (letters n) n.length c) (long : 2 ≤ n.length) : p < n.length := by
  have hfit := hres.fits
  rcases Nat.eq_zero_or_pos c with rfl | hpos
  · have hone : Period (letters n) n.length 1 := by
      apply hcrit
      exact ⟨Nat.one_pos, fun i hi => absurd hi (Nat.not_lt_zero i)⟩
    have hleast := hres.least 1 hone
    omega
  · omega

/-- For a needle of at least two letters the loops end with a critical cut, and the periodicity
test sees whether the period goes through the whole needle. -/
theorem factorize_critical (lib : BaseMemoryLib) (hcompare : CompareMemSpec lib) (needle : Buffer)
    (long : 2 ≤ needle.bytes.length) (fuel : ℕ) (enough : 2 * needle.bytes.length < fuel) :
    ∃ ms p f, chooseSuffix fuel needle.bytes = some (ms, p) ∧
      CutsCritically needle.bytes ms p ∧
      factorize lib fuel needle.bytes = some f ∧ Remembers needle.bytes ms p f := by
  obtain ⟨n, hfits⟩ := needle
  dsimp only at long enough ⊢
  obtain ⟨below, c, p, hchosen, hres, hcrit⟩ :=
    chooseSuffix_spec (show 0 < n.length by omega) hfits enough
  have hlt := period_lt_of_result hres hcrit long
  have hcompared := compareMem_eq_zero_iff hcompare hres
  refine ⟨_, p, _, hchosen, cutsCritically_of_result hres hcrit hfits,
    factorize_of_chosen hfits hchosen hres, ?_⟩
  by_cases hper : Period (letters n) n.length p
  · rw [if_neg (not_not_intro (hcompared.mpr hper))]
    constructor
    · rfl
    · exact iff_of_true (Nat.sub_ne_zero_of_lt hlt) hper
    · exact fun _ => ⟨rfl, rfl⟩
  · rw [if_pos fun hzero => hper (hcompared.mp hzero)]
    constructor
    · rfl
    · exact iff_of_false (not_not_intro rfl) hper
    · exact fun hmem => absurd rfl hmem

theorem factorize_critical_periodic :
    ∃ ms p f, chooseSuffix 64 periodicNeedle.bytes = some (ms, p) ∧
      CutsCritically periodicNeedle.bytes ms p ∧
      factorize listLib 64 periodicNeedle.bytes = some f ∧
      Remembers periodicNeedle.bytes ms p f :=
  factorize_critical listLib listLib_compareMem periodicNeedle (by decide) 64 (by decide)

end MuTegra.MemorySearch.CriticalCut
