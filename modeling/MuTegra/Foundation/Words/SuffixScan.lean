/- Unit: MuTegra/Foundation/Words/SuffixScan
   scope: general library
   digest: The four moves of a maximal-suffix scan keep one invariant that ends in a maximal suffix. -/

import MuTegra.Foundation.Words.Periods

/-!
The scan compares a candidate start `i` with a challenger `j`, both advanced by
the matched length `s`; `p` is the period of the part already read from `i`.
Each move of the scan is one lemma, so a concrete loop has only to identify
which move its pass makes.
-/

set_option autoImplicit false
set_option relaxedAutoImplicit false

namespace MuTegra.Foundation.Words.SuffixScan

open MuTegra.Foundation.Words.Periods (Period MaximalSuffix)

universe u

variable {α : Type u} {below : α → α → Prop} {x : ℕ → α} {l i j s p : ℕ}

/-- The starts `t` and `c` agree up to offset `u`, where `t` falls below `c`. -/
def FallsBelow (below : α → α → Prop) (x : ℕ → α) (t c u : ℕ) : Prop :=
  (∀ v < u, x (t + v) = x (c + v)) ∧ below (x (t + u)) (x (c + u))

/-- The scan invariant. Within one period block every shifted start has already
fallen below the candidate; every start before the candidate has too. -/
structure Scan (below : α → α → Prop) (x : ℕ → α) (l i j s p : ℕ) : Prop where
  order : i < j
  room : j + s ≤ l
  short : s < p
  span : p ∣ j - i
  window : ∀ t, i ≤ t → t + p < j + s → x t = x (t + p)
  root : ∀ d, 0 < d → d < p → ∃ u, d + u < p ∧ FallsBelow below x (i + d) i u
  before : ∀ t < i, ∃ u, i + u < l ∧ FallsBelow below x t i u

theorem Scan.start (hl : 0 < l) : Scan below x l 0 1 0 1 where
  order := by omega
  room := by omega
  short := by omega
  span := by simp
  window t _ ht := by omega
  root d hd hd' := by omega
  before t ht := by omega

theorem Scan.pos (h : Scan below x l i j s p) : 0 < p := by
  have := h.short
  omega

theorem Scan.block_le (h : Scan below x l i j s p) : i + p ≤ j := by
  have horder := h.order
  have hle := Nat.le_of_dvd (by omega) h.span
  omega

theorem Scan.residue (h : Scan below x l i j s p) {a b : ℕ} (ha : i + a < j + s)
    (hb : i + b < j + s) (hmod : a % p = b % p) : x (i + a) = x (i + b) := by
  have hper : Period (fun q => x (i + q)) (j + s - i) p := by
    refine ⟨h.pos, fun q hq => ?_⟩
    have hstep := h.window (i + q) (by omega) (by omega)
    simpa only [Nat.add_assoc] using hstep
  exact hper.mod_eq (i := a) (j := b) (by omega) (by omega) hmod

theorem Scan.challenger (h : Scan below x l i j s p) {v : ℕ} (hv : v < s) :
    x (j + v) = x (i + v) := by
  have horder := h.order
  have hmod : (j - i + v) % p = v % p := by
    obtain ⟨m, hm⟩ := h.span
    rw [hm, Nat.mul_add_mod]
  have hres := h.residue (a := j - i + v) (b := v) (by omega) (by omega) hmod
  have hshift : i + (j - i + v) = j + v := by omega
  rwa [hshift] at hres

private theorem Scan.previous_block (h : Scan below x l i j s p) :
    x (j + s - p) = x (i + s) := by
  have horder := h.order
  have hblock := h.block_le
  have hshort := h.short
  have hmod : (j - i + s - p) % p = s % p := by
    obtain ⟨m, hm⟩ := h.span
    have hmpos : 0 < m := by
      rcases Nat.eq_zero_or_pos m with hz | hz
      · rw [hz] at hm
        omega
      · exact hz
    obtain ⟨m', rfl⟩ := Nat.exists_eq_succ_of_ne_zero (Nat.ne_of_gt hmpos)
    have hsub : j - i + s - p = p * m' + s := by rw [hm, Nat.mul_succ]; omega
    rw [hsub, Nat.mul_add_mod]
  have hres := h.residue (a := j - i + s - p) (b := s) (by omega) (by omega) hmod
  have hshift : i + (j - i + s - p) = j + s - p := by omega
  rwa [hshift] at hres

private theorem Scan.window_succ (h : Scan below x l i j s p) (heq : x (i + s) = x (j + s)) :
    ∀ t, i ≤ t → t + p < j + s + 1 → x t = x (t + p) := by
  intro t hit htp
  by_cases hlast : t + p < j + s
  · exact h.window t hit hlast
  · have hblock := h.block_le
    have htp' : t + p = j + s := by omega
    have ht : t = j + s - p := by omega
    rw [htp', ht, h.previous_block, heq]

theorem Scan.extend (h : Scan below x l i j s p) (hroom : j + s < l)
    (heq : x (i + s) = x (j + s)) (hshort : s + 1 < p) : Scan below x l i j (s + 1) p where
  order := h.order
  room := by omega
  short := hshort
  span := h.span
  window := h.window_succ heq
  root := h.root
  before := h.before

theorem Scan.complete (h : Scan below x l i j s p) (hroom : j + s < l)
    (heq : x (i + s) = x (j + s)) (hfull : s + 1 = p) : Scan below x l i (j + p) 0 p where
  order := by have := h.order; omega
  room := by omega
  short := h.pos
  span := by
    have horder := h.order
    have hsum : j + p - i = j - i + p := by omega
    rw [hsum]
    exact Nat.dvd_add h.span (Nat.dvd_refl p)
  window t hit htp := h.window_succ heq t hit (by omega)
  root := h.root
  before := h.before

/-- A start inside the part already read, not a whole number of blocks away from
the candidate, falls below it within its own block. -/
private theorem Scan.falls_inside (h : Scan below x l i j s p) {d : ℕ} (hd : i + d < j)
    (hmod : d % p ≠ 0) : ∃ u, i + d + u < j ∧ FallsBelow below x (i + d) i u := by
  have hpos := h.pos
  have horder := h.order
  have hdlt := Nat.mod_lt d hpos
  obtain ⟨u, hu, hagree, hbelow⟩ := h.root (d % p) (by omega) hdlt
  have hend : d - d % p + p ≤ j - i := by
    obtain ⟨m, hm⟩ := h.span
    have hq : d - d % p = p * (d / p) := by have := Nat.div_add_mod d p; omega
    have hdiv : d / p < m := Nat.div_lt_of_lt_mul (by omega)
    calc d - d % p + p = p * (d / p + 1) := by rw [hq, Nat.mul_succ]
      _ ≤ p * m := Nat.mul_le_mul_left p hdiv
      _ = j - i := hm.symm
  have hmodle := Nat.mod_le d p
  have hcopy (v : ℕ) (hv : v ≤ u) : x (i + d + v) = x (i + d % p + v) := by
    have hres := h.residue (a := d + v) (b := d % p + v) (by omega) (by omega)
      (by rw [Nat.mod_add_mod])
    have h1 : i + (d + v) = i + d + v := by omega
    have h2 : i + (d % p + v) = i + d % p + v := by omega
    rwa [h1, h2] at hres
  refine ⟨u, by omega, fun v hv => ?_, ?_⟩
  · rw [hcopy v (by omega)]
    exact hagree v hv
  · rw [hcopy u le_rfl]
    exact hbelow

private theorem Scan.falls_multiple (h : Scan below x l i j s p)
    (hdown : below (x (j + s)) (x (i + s))) {d : ℕ} (hd : 0 < d) (hle : i + d ≤ j)
    (hmod : d % p = 0) : FallsBelow below x (i + d) i (j + s - (i + d)) := by
  have horder := h.order
  constructor
  · intro v hv
    have hres := h.residue (a := d + v) (b := v) (by omega) (by omega)
      (by rw [Nat.add_mod, hmod, Nat.zero_add, Nat.mod_mod])
    rwa [← Nat.add_assoc] at hres
  · have hlast : i + d + (j + s - (i + d)) = j + s := by omega
    have hsame : x (i + (j + s - (i + d))) = x (i + s) := by
      have hsum : j - i + s = d + (j + s - (i + d)) := by omega
      have hmods : (j + s - (i + d)) % p = s % p := by
        obtain ⟨m, hm⟩ := h.span
        have hwhole : (d + (j + s - (i + d))) % p = (j - i + s) % p := by rw [hsum]
        rw [hm, Nat.mul_add_mod, Nat.add_mod, hmod, Nat.zero_add, Nat.mod_mod] at hwhole
        exact hwhole
      exact h.residue (by omega) (by omega) hmods
    rw [hlast, hsame]
    exact hdown

variable [IsStrictTotalOrder α below]

/-- Compare a start that falls below the candidate with a third start sharing `s`
letters with the candidate and passing it there. -/
private theorem falls_transfer {t c d u s : ℕ} (hfall : FallsBelow below x t c u)
    (hshare : ∀ v < s, x (d + v) = x (c + v)) (hup : below (x (c + s)) (x (d + s))) :
    ∃ w, w ≤ s ∧ FallsBelow below x t d w := by
  obtain ⟨hagree, hbelow⟩ := hfall
  rcases Nat.lt_trichotomy u s with hus | hus | hus
  · refine ⟨u, by omega, fun v hv => ?_, ?_⟩
    · rw [hagree v hv, hshare v (by omega)]
    · rw [hshare u hus]
      exact hbelow
  · subst hus
    exact ⟨u, le_rfl, fun v hv => (hagree v hv).trans (hshare v hv).symm,
      trans_of below hbelow hup⟩
  · refine ⟨s, le_rfl, fun v hv => (hagree v (by omega)).trans (hshare v hv).symm, ?_⟩
    rw [hagree s hus]
    exact hup

/-- Compare a third start that shares `s` letters with a shifted start and falls
below it there: it falls below whatever the shifted start falls below. -/
private theorem falls_shifted {t e c u s : ℕ} (hfall : FallsBelow below x e c u)
    (hshare : ∀ v < s, x (t + v) = x (e + v)) (hdown : below (x (t + s)) (x (e + s))) :
    ∃ w, w ≤ u ∧ w ≤ s ∧ FallsBelow below x t c w := by
  obtain ⟨hagree, hbelow⟩ := hfall
  rcases Nat.lt_trichotomy u s with hus | hus | hus
  · refine ⟨u, le_rfl, by omega, fun v hv => ?_, ?_⟩
    · rw [hshare v (by omega), hagree v hv]
    · rw [hshare u hus]
      exact hbelow
  · subst hus
    exact ⟨u, le_rfl, le_rfl, fun v hv => (hshare v hv).trans (hagree v hv),
      trans_of below hdown hbelow⟩
  · refine ⟨s, by omega, le_rfl, fun v hv => (hshare v hv).trans (hagree v (by omega)), ?_⟩
    rw [← hagree s hus]
    exact hdown

/-- A start behind the challenger falls below the candidate, by what the challenger copies
of the candidate or at the difference. -/
private theorem Scan.falls_behind (h : Scan below x l i j s p)
    (hdown : below (x (j + s)) (x (i + s))) {e : ℕ} (he : 0 < e) (hes : e ≤ s) :
    ∃ w, w ≤ s - e ∧ FallsBelow below x (j + e) i w := by
  have hshort := h.short
  obtain ⟨u, -, hfall⟩ := h.root e he (by omega)
  have hshare : ∀ v < s - e, x (j + e + v) = x (i + e + v) := by
    intro v hv
    have hcopy := h.challenger (v := e + v) (by omega)
    simpa only [Nat.add_assoc] using hcopy
  have hdown' : below (x (j + e + (s - e))) (x (i + e + (s - e))) := by
    have hchallenger : j + e + (s - e) = j + s := by omega
    have hcandidate : i + e + (s - e) = i + s := by omega
    rw [hchallenger, hcandidate]
    exact hdown
  obtain ⟨w, -, hws, hw⟩ := falls_shifted hfall hshare hdown'
  exact ⟨w, hws, hw⟩

/-- The challenger falls below: every start up to the difference is eliminated and
the whole part read becomes one block. -/
theorem Scan.drop (h : Scan below x l i j s p) (hroom : j + s < l)
    (hdown : below (x (j + s)) (x (i + s))) : Scan below x l i (j + s + 1) 0 (j + s + 1 - i) where
  order := by have := h.order; omega
  room := by omega
  short := by have := h.order; omega
  span := Nat.dvd_refl _
  window t hit htp := by have := h.order; omega
  before := h.before
  root d hd hd' := by
    have horder := h.order
    by_cases hmultiple : i + d ≤ j ∧ d % p = 0
    · exact ⟨_, by omega, h.falls_multiple hdown hd hmultiple.1 hmultiple.2⟩
    · by_cases hij : i + d < j
      · obtain ⟨u, hu, hfall⟩ := h.falls_inside hij fun hz => hmultiple ⟨hij.le, hz⟩
        exact ⟨u, by omega, hfall⟩
      · have hbehind : j < i + d := by
          rcases Nat.lt_or_eq_of_le (not_lt.mp hij) with hlt | heq
          · exact hlt
          · have hspan : d = j - i := by omega
            exact absurd ⟨heq.ge, hspan ▸ Nat.mod_eq_zero_of_dvd h.span⟩ hmultiple
        obtain ⟨w, hws, hw⟩ := h.falls_behind hdown (e := i + d - j) (by omega) (by omega)
        have hstart : j + (i + d - j) = i + d := by omega
        rw [hstart] at hw
        exact ⟨w, by omega, hw⟩

theorem Scan.restart (h : Scan below x l i j s p) (hroom : j + s < l)
    (hup : below (x (i + s)) (x (j + s))) : Scan below x l j (j + 1) 0 1 where
  order := by omega
  room := by omega
  short := by omega
  span := by simp
  window t hit htp := by omega
  root d hd hd' := by omega
  before t ht := by
    have horder := h.order
    have hshare : ∀ v < s, x (j + v) = x (i + v) := fun v hv => h.challenger hv
    by_cases hti : t < i
    · obtain ⟨u, _, hfall⟩ := h.before t hti
      obtain ⟨w, hw, hfall'⟩ := falls_transfer hfall hshare hup
      exact ⟨w, by omega, hfall'⟩
    · obtain ⟨d, rfl⟩ : ∃ d, t = i + d := ⟨t - i, by omega⟩
      by_cases hmod : d % p = 0
      · have hcopy (v : ℕ) (hv : v ≤ s) : x (i + d + v) = x (i + v) := by
          have hres := h.residue (a := d + v) (b := v) (by omega) (by omega)
            (by rw [Nat.add_mod, hmod, Nat.zero_add, Nat.mod_mod])
          rwa [← Nat.add_assoc] at hres
        refine ⟨s, by omega, fun v hv => ?_, ?_⟩
        · rw [hcopy v (by omega), hshare v hv]
        · rw [hcopy s le_rfl]
          exact hup
      · obtain ⟨u, _, hfall⟩ := h.falls_inside ht hmod
        obtain ⟨w, hw, hfall'⟩ := falls_transfer hfall hshare hup
        exact ⟨w, by omega, hfall'⟩

structure Result (below : α → α → Prop) (x : ℕ → α) (l c p : ℕ) : Prop where
  maximal : MaximalSuffix below x l c
  pos : 0 < p
  fits : c + p ≤ l
  suffix : ∀ i, c ≤ i → i + p < l → x i = x (i + p)
  least : ∀ q, Period x l q → p ≤ q

theorem FallsBelow.ne {t c u : ℕ} (h : FallsBelow below x t c u) : x (t + u) ≠ x (c + u) := by
  intro heq
  exact irrefl_of below (x (c + u)) (heq ▸ h.2)

private theorem FallsBelow.not_above {t c u w : ℕ} (h : FallsBelow below x t c u)
    (hagree : ∀ v < w, x (t + v) = x (c + v)) : ¬ below (x (c + w)) (x (t + w)) := by
  intro hup
  rcases Nat.lt_trichotomy u w with huw | huw | huw
  · exact h.ne (hagree u huw)
  · subst huw
    exact irrefl_of below _ (trans_of below h.2 hup)
  · rw [h.1 w huw] at hup
    exact irrefl_of below _ hup

theorem Scan.finish (h : Scan below x l i j s p) (hend : j + s = l) : Result below x l i p where
  maximal := by
    have horder := h.order
    refine ⟨by omega, ?_, ?_⟩
    · intro t u htu hiu hagree
      rcases Nat.lt_or_ge t i with hti | hti
      · obtain ⟨w, _, hfall⟩ := h.before t hti
        exact hfall.not_above hagree
      · obtain ⟨d, rfl⟩ : ∃ d, t = i + d := ⟨t - i, by omega⟩
        by_cases hmod : d % p = 0
        · have hres := h.residue (a := d + u) (b := u) (by omega) (by omega)
            (by rw [Nat.add_mod, hmod, Nat.zero_add, Nat.mod_mod])
          rw [← Nat.add_assoc] at hres
          rw [hres]
          exact irrefl_of below _
        · have hpos := h.pos
          have hdlt := Nat.mod_lt d hpos
          have hblock := h.block_le
          have hmodle := Nat.mod_le d p
          obtain ⟨w, hw, hfall⟩ := h.root (d % p) (by omega) hdlt
          have hcopy (v : ℕ) (hv : i + d + v < l) : x (i + d + v) = x (i + d % p + v) := by
            have hres := h.residue (a := d + v) (b := d % p + v) (by omega) (by omega)
              (by rw [Nat.mod_add_mod])
            simpa only [Nat.add_assoc] using hres
          rw [hcopy u htu]
          refine hfall.not_above fun v hv => ?_
          rw [← hcopy v (by omega)]
          exact hagree v hv
    · intro t hti
      obtain ⟨u, hu, hfall⟩ := h.before t hti
      exact ⟨u, hu, hfall.ne⟩
  pos := h.pos
  fits := by have := h.block_le; omega
  suffix t hit htp := h.window t hit (by omega)
  least q hq := by
    by_contra hlt
    have hblock := h.block_le
    obtain ⟨u, hu, hfall⟩ := h.root q hq.1 (by omega)
    have hstep := hq.2 (i + u) (by omega)
    have hshift : i + u + q = i + q + u := by omega
    rw [hshift] at hstep
    exact hfall.ne hstep.symm

end MuTegra.Foundation.Words.SuffixScan
