/- Unit: MuTegra/Foundation/Words/Periods
   scope: general library
   digest: Periods, local periods and maximal suffixes meet in a critical cut. -/

import Mathlib.Order.Bounds.Basic
import Mathlib.Order.Defs.Unbundled
import Mathlib.Order.RelClasses
import Mathlib.Data.Nat.Find
import Mathlib.Data.Int.ModEq
import Mathlib.Tactic.Push

/-!
A word is read through a total function `x` and a length `l`; letters at or
after `l` are never inspected. A cut `c` is critical when each of its local
periods is already a period of the whole word. A start that is maximal for a
strict order, and not before the maximal start of the converse order, is such
a cut.
-/

set_option autoImplicit false
set_option relaxedAutoImplicit false

namespace MuTegra.Foundation.Words.Periods

universe u

variable {α : Type u}

def Period (x : ℕ → α) (l p : ℕ) : Prop :=
  0 < p ∧ ∀ i, i + p < l → x i = x (i + p)

/-- Letters `r` apart agree whenever they lie in the word on both sides of the cut. -/
def LocalPeriod (x : ℕ → α) (l c r : ℕ) : Prop :=
  0 < r ∧ ∀ i, i < c → c ≤ i + r → i + r < l → x i = x (i + r)

def Critical (x : ℕ → α) (l c : ℕ) : Prop :=
  ∀ r, LocalPeriod x l c r → Period x l r

def SmallestPeriod (x : ℕ → α) (l p : ℕ) : Prop := IsLeast {q | Period x l q} p

def SmallestLocalPeriod (x : ℕ → α) (l c r : ℕ) : Prop := IsLeast {r | LocalPeriod x l c r} r

/-- The suffix at `c` is maximal for the letter order `below`: no suffix is above
it at its first difference, and no earlier suffix extends it. -/
structure MaximalSuffix (below : α → α → Prop) (x : ℕ → α) (l c : ℕ) : Prop where
  inside : c < l
  letters : ∀ t u, t + u < l → c + u < l → (∀ v < u, x (t + v) = x (c + v)) →
    ¬ below (x (c + u)) (x (t + u))
  shorter : ∀ t < c, ∃ v, c + v < l ∧ x (t + v) ≠ x (c + v)

theorem Period.mul_add {x : ℕ → α} {l p : ℕ} (h : Period x l p) (m i : ℕ)
    (hi : i + m * p < l) : x i = x (i + m * p) := by
  induction m with
  | zero => simp
  | succ m ih =>
      have hsplit : i + (m + 1) * p = i + m * p + p := by rw [Nat.succ_mul]; omega
      rw [hsplit] at hi ⊢
      exact (ih (by omega)).trans (h.2 _ hi)

theorem Period.mod_eq {x : ℕ → α} {l p : ℕ} (h : Period x l p) {i j : ℕ}
    (hi : i < l) (hj : j < l) (hmod : i % p = j % p) : x i = x j := by
  have hdiv (k : ℕ) (hk : k < l) : x (k % p) = x k := by
    have hk' : k % p + k / p * p = k := by rw [Nat.mul_comm]; exact Nat.mod_add_div k p
    have hstep := h.mul_add (k / p) (k % p) (by omega)
    rwa [hk'] at hstep
  rw [← hdiv i hi, ← hdiv j hj, hmod]

theorem Period.localPeriod {x : ℕ → α} {l p : ℕ} (h : Period x l p) (c : ℕ) :
    LocalPeriod x l c p :=
  ⟨h.1, fun i _ _ hi => h.2 i hi⟩

theorem Critical.smallestLocalPeriod {x : ℕ → α} {l c P : ℕ} (h : Critical x l c)
    (hP : SmallestPeriod x l P) : SmallestLocalPeriod x l c P := by
  constructor
  · exact hP.1.localPeriod c
  · intro r hr
    apply hP.2
    exact h r hr

theorem exists_smallestPeriod (x : ℕ → α) {l : ℕ} (hl : 0 < l) :
    ∃ p, SmallestPeriod x l p ∧ p ≤ l := by
  classical
  have htrivial : Period x l l := ⟨hl, fun i hi => by omega⟩
  have hex : ∃ p, Period x l p := ⟨l, htrivial⟩
  refine ⟨Nat.find hex, ⟨Nat.find_spec hex, fun q hq => ?_⟩, Nat.find_min' hex htrivial⟩
  exact Nat.find_min' hex hq

theorem MaximalSuffix.lt_period {below : α → α → Prop} {x : ℕ → α} {l c p : ℕ}
    (hmax : MaximalSuffix below x l c) (h : Period x l p) : c < p := by
  by_contra hle
  have hpos := h.1
  obtain ⟨v, hv, hne⟩ := hmax.shorter (c - p) (by omega)
  have hback := h.2 (c - p + v) (by omega)
  have hshift : c - p + v + p = c + v := by omega
  exact hne (hshift ▸ hback)

variable {below : α → α → Prop} [IsStrictTotalOrder α below]

/-- A local period that fits before the cut contradicts maximality: the suffix one
repetition later would be larger. -/
private theorem not_localPeriod_inside {x : ℕ → α} {l c r : ℕ}
    (hmax : MaximalSuffix below x l c) (hloc : LocalPeriod x l c r) (hr : r ≤ c) : False := by
  classical
  have hpos := hloc.1
  have hdiff := hmax.shorter (c - r) (by omega)
  obtain ⟨hlt, hne⟩ := Nat.find_spec hdiff
  have hmin : ∀ v < Nat.find hdiff, x (c - r + v) = x (c + v) := by
    intro v hv
    by_contra hn
    exact Nat.find_min hdiff hv ⟨by omega, hn⟩
  generalize Nat.find hdiff = u at hlt hne hmin
  have hge : r ≤ u := by
    by_contra hur
    have hrep := hloc.2 (c - r + u) (by omega) (by omega) (by omega)
    have hshift : c - r + u + r = c + u := by omega
    exact hne (hshift ▸ hrep)
  have hu : c - r + u = c + (u - r) := by omega
  have hbelow : below (x (c - r + u)) (x (c + u)) := by
    rcases trichotomous_of below (x (c - r + u)) (x (c + u)) with h | h | h
    · exact h
    · exact (hne h).elim
    · exact (hmax.letters (c - r) u (by omega) hlt hmin h).elim
  have hagree : ∀ v < u - r, x (c + r + v) = x (c + v) := by
    intro v hv
    have hv' := hmin (r + v) (by omega)
    have h1 : c - r + (r + v) = c + v := by omega
    have h2 : c + (r + v) = c + r + v := by omega
    rw [h1, h2] at hv'
    exact hv'.symm
  have hlast : c + r + (u - r) = c + u := by omega
  refine hmax.letters (c + r) (u - r) (by omega) (by omega) hagree ?_
  rw [hlast, ← hu]
  exact hbelow

/-- The critical cut: the later of the two maximal suffixes of an order and its
converse turns every local period into a period. -/
theorem critical_of_maximal {x : ℕ → α} {l c d : ℕ}
    (hmax : MaximalSuffix below x l c)
    (hconv : MaximalSuffix (Function.swap below) x l d) (hd : d ≤ c) : Critical x l c := by
  classical
  intro r hloc
  by_cases hr : r ≤ c
  · exact (not_localPeriod_inside hmax hloc hr).elim
  refine ⟨hloc.1, fun i hi => ?_⟩
  by_cases hic : i < c
  · exact hloc.2 i hic (by omega) hi
  -- A first disagreement after the cut would be an ascent for one of the two orders.
  by_contra hne
  have hdiff : ∃ v, c + r + v < l ∧ x (c + v) ≠ x (c + r + v) := by
    refine ⟨i - c, by omega, ?_⟩
    have h1 : c + (i - c) = i := by omega
    have h2 : c + r + (i - c) = i + r := by omega
    rw [h1, h2]
    exact hne
  obtain ⟨hlt, hneu⟩ := Nat.find_spec hdiff
  have hmin : ∀ v < Nat.find hdiff, x (c + v) = x (c + r + v) := by
    intro v hv
    by_contra hn
    exact Nat.find_min hdiff hv ⟨by omega, hn⟩
  generalize Nat.find hdiff = u at hlt hneu hmin
  have hbelow : below (x (c + r + u)) (x (c + u)) := by
    rcases trichotomous_of below (x (c + r + u)) (x (c + u)) with h | h | h
    · exact h
    · exact (hneu h.symm).elim
    · exact (hmax.letters (c + r) u hlt (by omega) (fun v hv => (hmin v hv).symm) h).elim
  have hagree : ∀ v < c - d + u, x (d + r + v) = x (d + v) := by
    intro v hv
    by_cases hvc : d + v < c
    · have hrep := hloc.2 (d + v) hvc (by omega) (by omega)
      have h1 : d + v + r = d + r + v := by omega
      rw [h1] at hrep
      exact hrep.symm
    · have hrep := hmin (d + v - c) (by omega)
      have h1 : c + (d + v - c) = d + v := by omega
      have h2 : c + r + (d + v - c) = d + r + v := by omega
      rw [h1, h2] at hrep
      exact hrep.symm
  have h1 : d + (c - d + u) = c + u := by omega
  have h2 : d + r + (c - d + u) = c + r + u := by omega
  refine hconv.letters (d + r) (c - d + u) (by omega) (by omega) hagree ?_
  rw [h1, h2]
  exact hbelow

/-- When the smallest period fits after a critical cut, it is the given period of
the part after the cut. -/
theorem Critical.suffix_period_eq {x : ℕ → α} {l c p P : ℕ} (hcrit : Critical x l c)
    (hP : SmallestPeriod x l P) (hfit : P + c ≤ l)
    (hp : 0 < p) (hsuffix : ∀ i, c ≤ i → i + p < l → x i = x (i + p)) (hle : p ≤ P) :
    p = P := by
  have hper : Period (fun i => x (c + i)) (l - c) p := by
    refine ⟨hp, fun i hi => ?_⟩
    have hstep := hsuffix (c + i) (by omega) (by omega)
    simpa only [Nat.add_assoc] using hstep
  have hlocal (e : ℕ) (he : 0 < e) (heP : e ≤ P) (hmod : e % p = P % p) :
      LocalPeriod x l c e := by
    refine ⟨he, fun i hic hci hil => ?_⟩
    have hfull : x i = x (i + P) := hP.1.2 i (by omega)
    have hcongr : (i + e - c) % p = (i + P - c) % p := by
      have h1 : i + e - c + c = i + e := by omega
      have h2 : i + P - c + c = i + P := by omega
      have hsum : (i + e) % p = (i + P) % p := by
        rw [Nat.add_mod, hmod, ← Nat.add_mod]
      have hsum' : Nat.ModEq p (i + e - c + c) (i + P - c + c) := by
        rw [h1, h2]
        exact hsum
      exact Nat.ModEq.add_right_cancel' c hsum'
    have hmid := hper.mod_eq (i := i + e - c) (j := i + P - c) (by omega) (by omega) hcongr
    have h1 : c + (i + e - c) = i + e := by omega
    have h2 : c + (i + P - c) = i + P := by omega
    simp only [h1, h2] at hmid
    exact hfull.trans hmid.symm
  have hleast (e : ℕ) (he : LocalPeriod x l c e) : P ≤ e := hP.2 (hcrit e he)
  by_cases hdvd : P % p = 0
  · have hPp := hleast p (hlocal p hp hle (by rw [Nat.mod_self, hdvd]))
    omega
  · have hlt := Nat.mod_lt P hp
    have hmodle := hleast (P % p)
      (hlocal (P % p) (by omega) (Nat.mod_le P p) (Nat.mod_mod P p))
    omega

end MuTegra.Foundation.Words.Periods
