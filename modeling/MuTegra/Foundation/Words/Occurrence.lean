/- Unit: MuTegra/Foundation/Words/Occurrence
   scope: general library
   digest: First occurrences of a word in a text, and the window shifts that skip none. -/

import MuTegra.Foundation.Words.Periods
import Mathlib.Data.List.Infix

set_option autoImplicit false
set_option relaxedAutoImplicit false

namespace MuTegra.Foundation.Words.Occurrence

open MuTegra.Foundation.Words.Periods

universe u

variable {α : Type u}

def OccursAt (text needle : List α) (i : ℕ) : Prop :=
  i ≤ text.length ∧ needle <+: text.drop i

/-- A search result: the least offset of an occurrence, or nothing when there is none. -/
def FirstOccurrence (text needle : List α) : Option ℕ → Prop
  | some i => OccursAt text needle i ∧ ∀ j < i, ¬ OccursAt text needle j
  | none => ∀ i, ¬ OccursAt text needle i

theorem occursAt_iff {text needle : List α} {i : ℕ} :
    OccursAt text needle i ↔ i + needle.length ≤ text.length ∧
      ∀ t < needle.length, text[i + t]? = needle[t]? := by
  constructor
  · rintro ⟨hi, hpre⟩
    have hlen := hpre.length_le
    rw [List.length_drop] at hlen
    refine ⟨by omega, fun t ht => ?_⟩
    have hget := List.prefix_iff_getElem?.mp hpre t ht
    rw [List.getElem?_drop] at hget
    rw [hget, List.getElem?_eq_getElem ht]
  · rintro ⟨hlen, hget⟩
    refine ⟨by omega, List.prefix_iff_getElem?.mpr fun t ht => ?_⟩
    rw [List.getElem?_drop, hget t ht, List.getElem?_eq_getElem ht]

theorem occursAt_nil (text : List α) : OccursAt text [] 0 :=
  ⟨Nat.zero_le _, List.nil_prefix⟩

theorem FirstOccurrence.unique {text needle : List α} {r r' : Option ℕ}
    (h : FirstOccurrence text needle r) (h' : FirstOccurrence text needle r') : r = r' := by
  cases r with
  | none =>
      cases r' with
      | none => rfl
      | some i => exact absurd h'.1 (h i)
  | some i =>
      cases r' with
      | none => exact absurd h.1 (h' i)
      | some j =>
          rcases Nat.lt_trichotomy i j with hlt | heq | hgt
          · exact absurd h.1 (h'.2 i hlt)
          · rw [heq]
          · exact absurd h'.1 (h.2 j hgt)

/-- Letters of a word read through functions: the text `y` carries `x` at `h`. -/
def Carries (x : ℕ → α) (l : ℕ) (y : ℕ → α) (h : ℕ) : Prop :=
  ∀ t < l, y (h + t) = x t

variable {x y : ℕ → α} {l c h : ℕ}

/-- A difference at `k` right of a critical cut rules out the next `k - c` offsets. -/
theorem skip_right (hcrit : Critical x l c) {k : ℕ} (hck : c ≤ k) (hkl : k < l)
    (hmatch : ∀ t, c ≤ t → t < k → y (h + t) = x t) (hne : y (h + k) ≠ x k) {d : ℕ}
    (hd : d < k - c + 1) : ¬ Carries x l y (h + d) := by
  intro hocc
  have hread (t : ℕ) (ht : d ≤ t) (htl : t < l) : y (h + t) = x (t - d) := by
    have hstep := hocc (t - d) (by omega)
    have hshift : h + d + (t - d) = h + t := by omega
    rwa [hshift] at hstep
  rcases Nat.eq_zero_or_pos d with hz | hpos
  · subst hz
    exact hne (by simpa using hocc k hkl)
  · have hloc : LocalPeriod x l c d := by
      refine ⟨hpos, fun i hic hci hil => ?_⟩
      have h1 := hmatch (i + d) hci (by omega)
      have h2 := hread (i + d) (by omega) hil
      rw [Nat.add_sub_cancel] at h2
      exact h2.symm.trans h1
    have hper := hcrit d hloc
    have hstep := hper.2 (k - d) (by omega)
    have hback : k - d + d = k := by omega
    rw [hback] at hstep
    exact hne ((hread k (by omega) hkl).trans hstep)

/-- A failed match with the part after a critical cut matched rules out every
offset short of the smallest period. -/
theorem skip_left (hcrit : Critical x l c) {P : ℕ} (hP : SmallestPeriod x l P)
    (hmatch : ∀ t, c ≤ t → t < l → y (h + t) = x t) (hfail : ¬ Carries x l y h) {d : ℕ}
    (hd : d < P) : ¬ Carries x l y (h + d) := by
  intro hocc
  rcases Nat.eq_zero_or_pos d with hz | hpos
  · subst hz
    exact hfail (by simpa using hocc)
  · have hloc : LocalPeriod x l c d := by
      refine ⟨hpos, fun i hic hci hil => ?_⟩
      have h1 := hmatch (i + d) hci hil
      have h2 := hocc i (by omega)
      have hshift : h + d + i = h + (i + d) := by omega
      rw [hshift] at h2
      exact h2.symm.trans h1
    have hle := hP.2 (hcrit d hloc)
    omega

/-- The last window letter, when its rightmost place in the needle ends at `e`,
rules out every offset below `l - e`; a letter foreign to the needle has `e = 0`. -/
theorem skip_last {e : ℕ} (hlast : ∀ t, e ≤ t → t < l → x t ≠ y (h + (l - 1))) {d : ℕ}
    (hd : d < l - e) : ¬ Carries x l y (h + d) := by
  intro hocc
  have hstep := hocc (l - 1 - d) (by omega)
  have hshift : h + d + (l - 1 - d) = h + (l - 1) := by omega
  rw [hshift] at hstep
  exact hlast (l - 1 - d) (by omega) (by omega) hstep.symm

/-- With a remembered prefix of length `l - p`, a wrong last letter rules out every
offset inside the memory. -/
theorem skip_memory {p : ℕ} (hper : Period x l p)
    (hmem : ∀ t < l - p, y (h + t) = x t) (hlast : y (h + (l - 1)) ≠ x (l - 1)) {d : ℕ}
    (hd : d < l - p) : ¬ Carries x l y (h + d) := by
  intro hocc
  have hpos := hper.1
  have h1 := hocc (l - 1 - d) (by omega)
  have h2 := hocc (l - p - 1 - d) (by omega)
  have hs1 : h + d + (l - 1 - d) = h + (l - 1) := by omega
  have hs2 : h + d + (l - p - 1 - d) = h + (l - p - 1) := by omega
  rw [hs1] at h1
  rw [hs2] at h2
  have hp1 := hper.2 (l - p - 1 - d) (by omega)
  have hp2 := hper.2 (l - p - 1) (by omega)
  have hs3 : l - p - 1 - d + p = l - 1 - d := by omega
  have hs4 : l - p - 1 + p = l - 1 := by omega
  rw [hs3] at hp1
  rw [hs4] at hp2
  refine hlast ?_
  calc y (h + (l - 1)) = x (l - 1 - d) := h1
    _ = x (l - p - 1 - d) := hp1.symm
    _ = y (h + (l - p - 1)) := h2.symm
    _ = x (l - p - 1) := hmem (l - p - 1) (by omega)
    _ = x (l - 1) := hp2

/-- A shift by a period beyond the cut keeps the matched right part as a prefix. -/
theorem keep_memory {p : ℕ} (hper : Period x l p) (hcp : c ≤ p)
    (hmatch : ∀ t, c ≤ t → t < l → y (h + t) = x t) :
    ∀ t < l - p, y (h + p + t) = x t := by
  intro t ht
  have h1 := hmatch (t + p) (by omega) (by omega)
  have h2 := hper.2 t (by omega)
  have hshift : h + (t + p) = h + p + t := by omega
  rw [hshift] at h1
  exact h1.trans h2.symm

end MuTegra.Foundation.Words.Occurrence
