/- Unit: MuTegra/MemorySearch/TwoWay
   source: Tegra30Pkg/Applications/UEFILoader/Memory.c
   digest: The two-way matcher returns the first occurrence, by a window invariant. -/

import MuTegra.Foundation.Words.Occurrence
import MuTegra.MemorySearch.SuffixLoops

set_option autoImplicit false
set_option relaxedAutoImplicit false

namespace MuTegra.MemorySearch.TwoWay

open MuTegra.Foundation.Loops (PassOk loop_total)
open MuTegra.Foundation.MachineWords
open MuTegra.Foundation.Words.Periods
open MuTegra.Foundation.Words.Occurrence
open MuTegra.Foundation.Words.SuffixScan (Result)
open MuTegra.MemorySearch.Memory
open MuTegra.MemorySearch.SuffixLoops

/-- The tables describe the letters of a prefix: the set holds exactly them, and each
one's shift entry is the end of its last place. -/
structure Marks (t : Tables) (pre : List UInt8) : Prop where
  member : ∀ b : UInt8, t.inSet b.toNat = true ↔ b ∈ pre
  last : ∀ b ∈ pre, ∃ e, t.shift b.toNat = some e ∧ 0 < e ∧ e ≤ pre.length ∧
    pre[e - 1]? = some b ∧ ∀ i, e ≤ i → pre[i]? ≠ some b

theorem inSet_eq (t : Tables) (b : ℕ) :
    t.inSet b = (t.byteset (b / 32)).testBit (b % 32) := by
  rw [Bool.eq_iff_iff, ← and_one_shiftLeft_ne_zero]
  exact bne_iff_ne

@[simp] theorem inSet_mark (t : Tables) (b v c : ℕ) :
    (t.mark b v).inSet c = (t.inSet c || decide (b = c)) := by
  rw [inSet_eq, inSet_eq]
  by_cases hword : c / 32 = b / 32
  · have hbit : decide (b % 32 = c % 32) = decide (b = c) := by
      rw [decide_eq_decide]
      omega
    simp only [Tables.mark, if_pos hword]
    rw [testBit_or_one_shiftLeft, hbit]
  · have hne : decide (b = c) = false := by
      rw [decide_eq_false_iff_not]
      rintro rfl
      exact hword rfl
    simp only [Tables.mark, if_neg hword, hne, Bool.or_false]

@[simp] theorem shift_mark (t : Tables) (b v c : ℕ) :
    (t.mark b v).shift c = if c = b then some v else t.shift c := rfl

theorem marks_blank : Marks .blank [] where
  member b := by simp [inSet_eq, Tables.blank]
  last b hb := by cases hb

theorem Marks.step {t : Tables} {pre : List UInt8} (h : Marks t pre) (b : UInt8) :
    Marks (t.mark b.toNat (pre.length + 1)) (pre ++ [b]) where
  member c := by
    rw [inSet_mark, Bool.or_eq_true, decide_eq_true_iff, h.member, UInt8.toNat_inj,
      List.mem_append, List.mem_singleton]
    exact or_congr_right eq_comm
  last c hc := by
    by_cases hcb : c = b
    · subst hcb
      refine ⟨pre.length + 1, by simp, by omega, by simp, by simp, fun i hi => ?_⟩
      rw [List.getElem?_eq_none (by simp; omega)]
      simp
    · have hmem : c ∈ pre := by
        rcases List.mem_append.mp hc with hpre | hlast
        · exact hpre
        · exact (hcb (List.mem_singleton.mp hlast)).elim
      obtain ⟨e, hshift, hpos, hle, hat, hafter⟩ := h.last c hmem
      have hne : c.toNat ≠ b.toNat := fun hnat => hcb (UInt8.toNat_inj.mp hnat)
      refine ⟨e, by rw [shift_mark, if_neg hne, hshift], hpos, by simp; omega, ?_, ?_⟩
      · rw [List.getElem?_append_left (by omega), hat]
      · intro i hi hread
        rcases Nat.lt_trichotomy i pre.length with hlt | heq | hgt
        · rw [List.getElem?_append_left hlt] at hread
          exact hafter i hi hread
        · subst heq
          rw [List.getElem?_concat_length] at hread
          exact hcb (Option.some.inj hread).symm
        · rw [List.getElem?_eq_none (by simp; omega)] at hread
          cases hread

theorem fillTables_marks (n pre : List UInt8) (t : Tables) (h : Marks t pre) :
    Marks (fillTables pre.length n t) (pre ++ n) := by
  induction n generalizing pre t with
  | nil => simpa [fillTables] using h
  | cons b n ih =>
      have hstep := ih (pre ++ [b]) _ (h.step b)
      simpa [fillTables] using hstep

variable {n : List UInt8} {f : Factorization} {c : ℕ}

/-- A sound choice of cut, shift and memory: a critical cut, a shift not above the
smallest period, and a memory only where the shift is a period reaching past the cut. -/
structure Factored (n : List UInt8) (f : Factorization) (c : ℕ) : Prop where
  ms : f.ms = subUint32 c 1
  inside : c < n.length
  critical : Critical (letters n) n.length c
  pos : 0 < f.p
  safe : ∀ P, SmallestPeriod (letters n) n.length P → f.p ≤ P
  memory : f.mem0 ≠ 0 →
    f.mem0 = n.length - f.p ∧ Period (letters n) n.length f.p ∧ c ≤ f.p

private theorem slice_eq_iff {p : ℕ} (hfit : c + p ≤ n.length) :
    n.take c = (n.drop p).take c ↔ ∀ i < c, letters n i = letters n (i + p) := by
  constructor
  · intro heq i hi
    have hget := congrArg (fun bytes => bytes[i]?) heq
    simp only [List.getElem?_take_of_lt hi, List.getElem?_drop] at hget
    obtain ⟨b, hb, hlb⟩ := read_letter n (show i < n.length by omega)
    rw [hb, Nat.add_comm p] at hget
    rw [hlb, letters_eq hget.symm]
  · intro hall
    refine List.ext_getElem? fun i => ?_
    by_cases hi : i < c
    · obtain ⟨a, ha, hla⟩ := read_letter n (show i < n.length by omega)
      obtain ⟨b, hb, hlb⟩ := read_letter n (show i + p < n.length by omega)
      have hab : a = b := by
        rw [← UInt8.toNat_inj, ← hla, ← hlb]
        exact hall i hi
      rw [List.getElem?_take_of_lt hi, List.getElem?_take_of_lt hi, List.getElem?_drop,
        Nat.add_comm p, ha, hb, hab]
    · rw [List.getElem?_eq_none (by simp; omega), List.getElem?_eq_none (by simp; omega)]

private theorem slice_of_le {bytes : List UInt8} {start count : ℕ}
    (h : start + count ≤ bytes.length) :
    slice bytes start count = some ((bytes.drop start).take count) := if_pos h

theorem choose_eq (lib : BaseMemoryLib) (hfits : n.length < 4294967296)
    {below : ℕ → ℕ → Prop} {p : ℕ} (hres : Result below (letters n) n.length c p) :
    (do
      let head ← slice n 0 (toUint32 (subUint32 c 1 + 1))
      let shifted ← slice n p (toUint32 (subUint32 c 1 + 1))
      if lib.compareMem head shifted ≠ 0 then
        some { ms := subUint32 c 1,
               p := toUint32 (max (subUint32 c 1)
                 (subUint32 (subUint32 n.length (subUint32 c 1)) 1) + 1), mem0 := 0 }
      else
        some { ms := subUint32 c 1, p := p, mem0 := subUint32 n.length p }) =
      some (if lib.compareMem (n.take c) ((n.drop p).take c) ≠ 0 then
        { ms := subUint32 c 1,
          p := toUint32 (max (subUint32 c 1)
            (subUint32 (subUint32 n.length (subUint32 c 1)) 1) + 1), mem0 := 0 }
      else { ms := subUint32 c 1, p := p, mem0 := n.length - p } : Factorization) := by
  have hinside := hres.maximal.inside
  have hfit := hres.fits
  rw [subUint32_one_add (by omega), slice_of_le (by omega), slice_of_le (by omega),
    subUint32_of_le ((Nat.le_add_left p c).trans hfit) hfits]
  simp only [Option.bind_eq_bind, Option.bind_some, List.drop_zero]
  split <;> rfl

theorem restart_shift {l : ℕ} (hfits : l < 4294967296) (hcpos : 0 < c) (hinside : c < l) :
    toUint32 (max (subUint32 c 1) (subUint32 (subUint32 l (subUint32 c 1)) 1) + 1) =
      max (c - 1) (l - c) + 1 := by
  have hms : subUint32 c 1 = c - 1 := subUint32_of_le hcpos (by omega)
  have hright : subUint32 (subUint32 l (c - 1)) 1 = l - c := by
    rw [subUint32_of_le (a := l) (by omega) hfits, subUint32_of_le (by omega) (by omega)]
    omega
  rw [hms, hright, toUint32_of_lt (by omega)]

/-- The comparison finds no difference exactly when the period of the suffix is one of the whole
needle. -/
theorem compareMem_eq_zero_iff {lib : BaseMemoryLib} (hlib : CompareMemSpec lib)
    {below : ℕ → ℕ → Prop} {p : ℕ} (hres : Result below (letters n) n.length c p) :
    lib.compareMem (n.take c) ((n.drop p).take c) = 0 ↔ Period (letters n) n.length p := by
  have hfit := hres.fits
  have hlen : (n.take c).length = ((n.drop p).take c).length := by simp; omega
  rw [hlib _ _ hlen, slice_eq_iff hfit]
  constructor
  · intro hperiodic
    refine ⟨hres.pos, fun i hi => ?_⟩
    by_cases hic : i < c
    · exact hperiodic i hic
    · exact hres.suffix i (by omega) hi
  · intro hper i hi
    exact hper.2 i (by omega)

private theorem choose_spec {lib : BaseMemoryLib} (hlib : CompareMemSpec lib)
    (hfits : n.length < 4294967296) {below : ℕ → ℕ → Prop} {p : ℕ}
    (hres : Result below (letters n) n.length c p)
    (hcrit : Critical (letters n) n.length c) :
    Factored n (if lib.compareMem (n.take c) ((n.drop p).take c) ≠ 0 then
        { ms := subUint32 c 1,
          p := toUint32 (max (subUint32 c 1)
            (subUint32 (subUint32 n.length (subUint32 c 1)) 1) + 1), mem0 := 0 }
      else { ms := subUint32 c 1, p := p, mem0 := n.length - p }) c := by
  have hinside := hres.maximal.inside
  have hppos := hres.pos
  have hcompare := compareMem_eq_zero_iff hlib hres
  have hleast (P : ℕ) (hP : SmallestPeriod (letters n) n.length P) : p ≤ P :=
    hres.least P hP.1
  by_cases hper : Period (letters n) n.length p
  · have hcp := hres.maximal.lt_period hper
    rw [if_neg (not_not_intro (hcompare.mpr hper))]
    exact ⟨rfl, hinside, hcrit, hppos, hleast, fun _ => ⟨rfl, hper, hcp.le⟩⟩
  · rw [if_pos fun hzero => hper (hcompare.mp hzero)]
    have hcpos : 0 < c := by
      rcases Nat.eq_zero_or_pos c with hz | hpos
      · subst hz
        exact absurd ⟨hppos, fun i hi => hres.suffix i (Nat.zero_le i) hi⟩ hper
      · exact hpos
    rw [restart_shift hfits hcpos hinside]
    refine ⟨rfl, hinside, hcrit, Nat.succ_pos _, fun P hP => ?_, fun hmem => (hmem rfl).elim⟩
    have hcP := hres.maximal.lt_period hP.1
    have hlong : n.length < P + c := by
      by_contra hshort
      have heq := hcrit.suffix_period_eq hP (by omega) hppos hres.suffix (hleast P hP)
      exact hper (heq ▸ hP.1)
    change max (c - 1) (n.length - c) + 1 ≤ P
    omega

/-- The loops and the choice between them: `ms` and `p` before the needle is tested. -/
def chooseSuffix (fuel : ℕ) (n : List UInt8) : Option (ℕ × ℕ) := do
  let first ← maximalSuffix (fun a b => decide (a > b)) fuel n
  let second ← maximalSuffix (fun a b => decide (a < b)) fuel n
  if toUint32 (second.ip + 1) > toUint32 (first.ip + 1) then some (second.ip, second.p)
  else some (first.ip, first.p)

theorem chooseSuffix_spec (hpos : 0 < n.length) (hfits : n.length < 4294967296) {fuel : ℕ}
    (enough : 2 * n.length < fuel) :
    ∃ below c p, chooseSuffix fuel n = some (subUint32 c 1, p) ∧
      Result below (letters n) n.length c p ∧ Critical (letters n) n.length c := by
  obtain ⟨first, hfirst, c, hc, hres⟩ :=
    maximalSuffix_spec decides_greater hpos hfits enough
  obtain ⟨second, hsecond, d, hd, hres'⟩ :=
    maximalSuffix_spec decides_less hpos hfits enough
  have hinside := hres.maximal.inside
  have hinside' := hres'.maximal.inside
  have hcut : toUint32 (first.ip + 1) = c := by rw [hc]; exact subUint32_one_add (by omega)
  have hcut' : toUint32 (second.ip + 1) = d := by rw [hd]; exact subUint32_one_add (by omega)
  rw [chooseSuffix]
  simp only [hfirst, hsecond, Option.bind_eq_bind, Option.bind_some, hcut, hcut']
  by_cases hlater : d > c
  · rw [if_pos hlater, hd]
    exact ⟨_, d, _, rfl, hres', critical_of_maximal hres'.maximal hres.maximal hlater.le⟩
  · have hle := Nat.le_of_not_gt hlater
    rw [if_neg hlater, hc]
    exact ⟨_, c, _, rfl, hres, critical_of_maximal hres.maximal hres'.maximal hle⟩

theorem factorize_of_chosen {lib : BaseMemoryLib} {fuel : ℕ} (hfits : n.length < 4294967296)
    {below : ℕ → ℕ → Prop} {p : ℕ} (hchosen : chooseSuffix fuel n = some (subUint32 c 1, p))
    (hres : Result below (letters n) n.length c p) :
    factorize lib fuel n =
      some (if lib.compareMem (n.take c) ((n.drop p).take c) ≠ 0 then
        { ms := subUint32 c 1,
          p := toUint32 (max (subUint32 c 1)
            (subUint32 (subUint32 n.length (subUint32 c 1)) 1) + 1), mem0 := 0 }
      else { ms := subUint32 c 1, p := p, mem0 := n.length - p }) := by
  rw [← choose_eq lib hfits hres]
  rw [chooseSuffix] at hchosen
  rw [factorize]
  obtain ⟨first, hfirst, hchosen⟩ := Option.bind_eq_some_iff.mp hchosen
  obtain ⟨second, hsecond, hchosen⟩ := Option.bind_eq_some_iff.mp hchosen
  simp only [hfirst, hsecond, Option.bind_eq_bind, Option.bind_some]
  by_cases hlater : toUint32 (second.ip + 1) > toUint32 (first.ip + 1)
  · rw [if_pos hlater] at hchosen ⊢
    rw [Option.some.inj hchosen]
  · rw [if_neg hlater] at hchosen ⊢
    rw [Option.some.inj hchosen]

theorem factorize_spec {lib : BaseMemoryLib} (hlib : CompareMemSpec lib)
    (hpos : 0 < n.length) (hfits : n.length < 4294967296) {fuel : ℕ}
    (enough : 2 * n.length < fuel) :
    ∃ f c, factorize lib fuel n = some f ∧ Factored n f c := by
  obtain ⟨below, c, p, hchosen, hres, hcrit⟩ := chooseSuffix_spec hpos hfits enough
  exact ⟨_, c, factorize_of_chosen hfits hchosen hres, choose_spec hlib hfits hres hcrit⟩

end MuTegra.MemorySearch.TwoWay
