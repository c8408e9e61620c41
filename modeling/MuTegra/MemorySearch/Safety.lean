/- Unit: MuTegra/MemorySearch/Safety
   source: Tegra30Pkg/Applications/UEFILoader/Memory.c
   digest: The two-way matcher ends without a stray read, whatever the comparison finds. -/

import MuTegra.MemorySearch.Memmem

/-!
Finding the right place needs `CompareMem` to be right. Staying inside the buffers needs only
that it finds no difference in nothing: the periodicity test of a needle cut at its start
compares no bytes, and a difference there would leave a shift of zero.
-/

set_option autoImplicit false
set_option relaxedAutoImplicit false

namespace MuTegra.MemorySearch.Safety

open MuTegra.Foundation.Loops (PassOk loop_total)
open MuTegra.Foundation.MachineWords
open MuTegra.Foundation.Words.SuffixScan (Result)
open MuTegra.MemorySearch.Memory
open MuTegra.MemorySearch.SuffixLoops
open MuTegra.MemorySearch.TwoWay
open MuTegra.MemorySearch.WindowSearch
open MuTegra.MemorySearch.Memmem (listLib periodicText periodicNeedle)

variable {n : List UInt8} {f : Factorization} {c : ℕ}

/-- The cut is inside the needle, the shift moves by at most its length, and a memory is what
the shift leaves of it. -/
structure Bounded (n : List UInt8) (f : Factorization) (c : ℕ) : Prop where
  ms : f.ms = subUint32 c 1
  inside : c < n.length
  pos : 0 < f.p
  shift : f.p ≤ n.length
  memory : f.mem0 = 0 ∨ f.mem0 = n.length - f.p

theorem Bounded.mem0_le (h : Bounded n f c) : f.mem0 ≤ n.length := by
  rcases h.memory with hzero | hrest
  · omega
  · omega

theorem bounded_choose {lib : BaseMemoryLib} (hempty : lib.compareMem [] [] = 0)
    (hfits : n.length < 4294967296) {below : ℕ → ℕ → Prop} {p : ℕ}
    (hres : Result below (letters n) n.length c p) :
    Bounded n (if lib.compareMem (n.take c) ((n.drop p).take c) ≠ 0 then
        { ms := subUint32 c 1,
          p := toUint32 (max (subUint32 c 1)
            (subUint32 (subUint32 n.length (subUint32 c 1)) 1) + 1), mem0 := 0 }
      else { ms := subUint32 c 1, p := p, mem0 := n.length - p }) c := by
  have hinside := hres.maximal.inside
  split
  · next hdiffer =>
      -- a difference needs a byte on the left of the cut
      have hcpos : 0 < c := by
        rcases Nat.eq_zero_or_pos c with rfl | hcpos
        · exact absurd hempty hdiffer
        · exact hcpos
      rw [restart_shift hfits hcpos hinside]
      refine ⟨rfl, hinside, Nat.succ_pos _, ?_, Or.inl rfl⟩
      change max (c - 1) (n.length - c) + 1 ≤ n.length
      omega
  · exact ⟨rfl, hinside, hres.pos, (Nat.le_add_left p c).trans hres.fits, Or.inr rfl⟩

theorem factorize_bounded {lib : BaseMemoryLib} (hempty : lib.compareMem [] [] = 0)
    (hpos : 0 < n.length) (hfits : n.length < 4294967296) {fuel : ℕ}
    (enough : 2 * n.length < fuel) :
    ∃ f c, factorize lib fuel n = some f ∧ Bounded n f c := by
  obtain ⟨first, hfirst, c, hc, hres⟩ :=
    maximalSuffix_spec decides_greater hpos hfits enough
  obtain ⟨second, hsecond, d, hd, hres'⟩ :=
    maximalSuffix_spec decides_less hpos hfits enough
  unfold factorize
  simp only [hfirst, hsecond, Option.bind_eq_bind, Option.bind_some]
  split
  · rw [hd]
    exact ⟨_, d, choose_eq lib hfits hres', bounded_choose hempty hfits hres'⟩
  · rw [hc]
    exact ⟨_, c, choose_eq lib hfits hres, bounded_choose hempty hfits hres⟩

variable {hay : List UInt8} {s : SearchState}

structure InBounds (hay n : List UInt8) (s : SearchState) : Prop where
  inside : s.h ≤ hay.length
  memory : s.mem ≤ n.length

/-- The obligation of a search pass: it ends the search, or it moves the window on. -/
abbrev AdvanceOk (body : SearchState → Option (SearchState ⊕ Option ℕ))
    (hay n : List UInt8) (s : SearchState) : Prop :=
  PassOk body (InBounds hay n) (fun s => hay.length - s.h) (fun _ => True) s

theorem advanceOk_shift {body} {k mem : ℕ}
    (hbody : body s = some (.inl { h := s.h + k, mem := mem })) (hk : 0 < k)
    (hkl : k ≤ n.length) (hmem : mem ≤ n.length) (hfit : s.h + n.length ≤ hay.length) :
    AdvanceOk body hay n s := by
  refine Or.inl ⟨_, hbody, ⟨?_, hmem⟩, ?_⟩
  · change s.h + k ≤ hay.length
    omega
  · change hay.length - (s.h + k) < hay.length - s.h
    omega

theorem advanceOk_compare (h : InBounds hay n s) (hf : Bounded n f c)
    (hfits : n.length < 4294967296) (hfit : s.h + n.length ≤ hay.length) {body}
    (hbody : body s = comparePass f hay n s) : AdvanceOk body hay n s := by
  have hinside := hf.inside
  have hmemory := h.memory
  obtain ⟨k, hright, hge, hle, -, -⟩ := compareRight_spec hfit
    (n.length - max c s.mem) (max c s.mem) (by omega)
  rw [comparePass_of_right hf.ms hfits hright (by omega) hle] at hbody
  by_cases hkl : k < n.length
  · rw [if_pos hkl] at hbody
    exact advanceOk_shift hbody (Nat.succ_pos _) (by omega) (Nat.zero_le _) hfit
  · obtain ⟨k', hleft, -, -, -⟩ := compareLeft_spec s.mem hfit c (by omega)
    rw [if_neg hkl, hleft, Option.bind_some] at hbody
    by_cases hfound : k' ≤ s.mem
    · rw [if_pos hfound] at hbody
      exact Or.inr ⟨_, hbody, trivial⟩
    · rw [if_neg hfound] at hbody
      exact advanceOk_shift hbody hf.pos hf.shift hf.mem0_le hfit

/-- A pass reads the byte under the needle's end, and a shift entry only when it was written. -/
theorem advanceOk_searchPass (h : InBounds hay n s) (hf : Bounded n f c)
    (hfits : n.length < 4294967296) (hhay : hay.length < 4294967296) {t : Tables}
    (ht : Marks t n) : AdvanceOk (searchPass f t hay n hay.length) hay n s := by
  have hcut := hf.inside
  have hsearched := searchPass_searched h.inside hhay (by omega) hfits hf.shift ht
  generalize hpass : searchPass f t hay n hay.length s = out at hsearched
  cases hsearched with
  | short => exact Or.inr ⟨none, hpass, trivial⟩
  | remembered fit before foreign memory =>
      have hrest := hf.memory.resolve_left memory.1
      have hmem := memory.1
      exact advanceOk_shift hpass (by omega) (by omega) (Nat.zero_le _) fit
  | shifted fit before =>
      exact advanceOk_shift hpass (by omega) (by omega) (Nat.zero_le _) fit
  | compared fit => exact advanceOk_compare h hf hfits fit hpass

/-- The two-way matcher ends without a fault: every read of the needle and of the haystack is
inside it, and every shift entry that it reads was written. The set holds exactly the bytes
whose entries were. -/
theorem twowayMemmem_safe (lib : BaseMemoryLib) (hempty : lib.compareMem [] [] = 0)
    (hay needle : Buffer) (hpos : 0 < needle.bytes.length) (fuel : ℕ)
    (enough : 2 * needle.bytes.length + hay.bytes.length < fuel) :
    (∃ r, twowayMemmem lib fuel hay.bytes 0 hay.bytes.length needle.bytes = some r) ∧
      ∀ b : UInt8, (fillTables 0 needle.bytes .blank).inSet b.toNat = true →
        ((fillTables 0 needle.bytes .blank).shift b.toNat).isSome = true := by
  obtain ⟨hay, hhay⟩ := hay
  obtain ⟨n, hfits⟩ := needle
  dsimp only at hpos enough ⊢
  have htables : Marks (fillTables 0 n .blank) n := fillTables_marks n [] _ marks_blank
  refine ⟨?_, fun b hset => ?_⟩
  · obtain ⟨f, c, hfactor, hf⟩ := factorize_bounded hempty hpos hfits
      (show 2 * n.length < fuel by omega)
    simp only [twowayMemmem, hfactor, Option.bind_eq_bind, Option.bind_some]
    have hstart : InBounds hay n { h := 0, mem := 0 } := ⟨Nat.zero_le _, Nat.zero_le _⟩
    obtain ⟨r, hrun, -⟩ := loop_total (InBounds hay n) (fun s => hay.length - s.h)
      (fun s hs => advanceOk_searchPass hs hf hfits hhay htables) fuel _ hstart
      (show hay.length - 0 < fuel by omega)
    exact ⟨r, hrun⟩
  · obtain ⟨e, hentry, -⟩ := htables.last b ((htables.member b).mp hset)
    rw [hentry]
    rfl

theorem twowayMemmem_safe_periodic :
    (∃ r, twowayMemmem listLib 64 periodicText.bytes 0 periodicText.bytes.length
      periodicNeedle.bytes = some r) ∧
      ∀ b : UInt8, (fillTables 0 periodicNeedle.bytes .blank).inSet b.toNat = true →
        ((fillTables 0 periodicNeedle.bytes .blank).shift b.toNat).isSome = true :=
  twowayMemmem_safe listLib rfl periodicText periodicNeedle (by decide) 64 (by decide)

end MuTegra.MemorySearch.Safety
