/- Unit: MuTegra/Foundation/Inking
   scope: general library
   digest: What bytes a pointer-advancing operation leaves, through composition and iteration. -/

import MuTegra.Foundation.Plotting

/-!
An ink gives the bytes put at each offset from a pointer. Operations with inks compose,
the second shifted behind the first; that each address holds what some entry of the ink
puts there is all that is claimed where several entries share an address.
-/

set_option autoImplicit false
set_option relaxedAutoImplicit false

namespace MuTegra.Foundation.Inking

open MuTegra.Foundation.MachineWords
open MuTegra.Foundation.Plotting

abbrev Ink := ℕ → UInt8 → Prop

/-- The first ink and, `n` further on, the second. -/
def Ink.then (ink : Ink) (n : ℕ) (ink' : Ink) : Ink :=
  fun d b => ink d b ∨ ∃ e, ink' e b ∧ d = n + e

def spread (k n : ℕ) (ink : ℕ → Ink) : Ink :=
  fun d b => ∃ i < k, ∃ e, ink i e b ∧ d = i * n + e

variable {m k n d : ℕ} {b : UInt8} {ink ink' : ℕ → Ink}

theorem spread_congr (h : ∀ i < k, ∀ e, ink i e b ↔ ink' i e b) :
    spread k n ink d b ↔ spread k n ink' d b := by
  constructor
  · rintro ⟨i, hi, e, he, hd⟩
    exact ⟨i, hi, e, (h i hi e).mp he, hd⟩
  · rintro ⟨i, hi, e, he, hd⟩
    exact ⟨i, hi, e, (h i hi e).mpr he, hd⟩

theorem spread_succ : spread (k + 1) n ink d b ↔ (spread k n ink).then (k * n) (ink k) d b := by
  constructor
  · rintro ⟨i, hi, e, he, hd⟩
    rcases Nat.lt_succ_iff_lt_or_eq.mp hi with hlt | rfl
    · exact Or.inl ⟨i, hlt, e, he, hd⟩
    · exact Or.inr ⟨e, he, hd⟩
  · rintro (⟨i, hi, e, he, hd⟩ | ⟨e, he, hd⟩)
    · exact ⟨i, Nat.lt_succ_of_lt hi, e, he, hd⟩
    · exact ⟨k, Nat.lt_succ_self k, e, he, hd⟩

theorem and_spread {set : Prop} :
    (set ∧ spread k n ink d b) ↔ spread k n (fun i d b => set ∧ ink i d b) d b := by
  constructor
  · rintro ⟨hset, i, hi, e, he, hd⟩
    exact ⟨i, hi, e, ⟨hset, he⟩, hd⟩
  · rintro ⟨i, hi, e, ⟨hset, he⟩, hd⟩
    exact ⟨hset, i, hi, e, he, hd⟩

theorem spread_spread (ink : ℕ → ℕ → Ink) :
    spread m (k * n) (fun i => spread k n (ink i)) d b ↔
      spread (m * k) n (fun r => ink (r / k) (r % k)) d b := by
  constructor
  · rintro ⟨i, hi, e, ⟨j, hj, e', he', rfl⟩, rfl⟩
    have hdiv : (i * k + j) / k = i := by
      rw [Nat.mul_comm, Nat.mul_add_div (by omega), Nat.div_eq_of_lt hj, Nat.add_zero]
    have hmod : (i * k + j) % k = j := by
      rw [Nat.mul_comm, Nat.mul_add_mod, Nat.mod_eq_of_lt hj]
    refine ⟨i * k + j, (rows_adjacent _).mp ⟨i, hi, j, hj, rfl⟩, e', ?_, by ring⟩
    simpa only [hdiv, hmod] using he'
  · rintro ⟨r, hr, e, he, rfl⟩
    have hk : 0 < k := Nat.pos_of_ne_zero (by rintro rfl; simp at hr)
    have hsplit := Nat.div_add_mod r k
    refine ⟨r / k, Nat.div_lt_of_lt_mul (by rwa [Nat.mul_comm]), r % k * n + e,
      ⟨r % k, Nat.mod_lt r hk, e, he, rfl⟩, ?_⟩
    calc r * n + e = (k * (r / k) + r % k) * n + e := by rw [hsplit]
      _ = r / k * (k * n) + (r % k * n + e) := by ring

theorem then_spread : (spread m n ink).then (m * n) (spread k n ink') d b ↔
    spread (m + k) n (fun r => if r < m then ink r else ink' (r - m)) d b := by
  constructor
  · rintro (⟨i, hi, e, he, rfl⟩ | ⟨e, ⟨i, hi, e', he', rfl⟩, rfl⟩)
    · refine ⟨i, by omega, e, ?_, rfl⟩
      simpa only [if_pos hi] using he
    · have hsecond : ¬ m + i < m := by omega
      refine ⟨m + i, by omega, e', ?_, by ring⟩
      simpa only [if_neg hsecond, Nat.add_sub_cancel_left] using he'
  · rintro ⟨r, hr, e, he, rfl⟩
    by_cases hfirst : r < m
    · simp only [if_pos hfirst] at he
      exact Or.inl ⟨r, hfirst, e, he, rfl⟩
    · simp only [if_neg hfirst] at he
      obtain ⟨i, rfl⟩ := Nat.exists_eq_add_of_le (Nat.le_of_not_lt hfirst)
      rw [Nat.add_sub_cancel_left] at he
      exact Or.inr ⟨i * n + e, ⟨i, by omega, e, he, rfl⟩, by ring⟩

/-- Each address holds a byte that the ink puts there, or is none of its addresses and keeps
its byte. -/
def Inks (before after : Canvas) (p : ℕ) (ink : Ink) : Prop :=
  ∀ a, (∃ d, ink d (after.memory a) ∧ a = toUint32 (p + d)) ∨
    ((∀ d b, ink d b → a ≠ toUint32 (p + d)) ∧ after.memory a = before.memory a)

section Inks

variable {before middle after : Canvas} {p n : ℕ} {ink ink' : Ink}

theorem Inks.congr (h : Inks before after p ink) (hsame : ∀ d b, ink d b ↔ ink' d b) :
    Inks before after p ink' := by
  intro a
  rcases h a with ⟨d, hd, ha⟩ | ⟨hnone, hkept⟩
  · exact Or.inl ⟨d, (hsame d _).mp hd, ha⟩
  · exact Or.inr ⟨fun d b hd => hnone d b ((hsame d b).mpr hd), hkept⟩

theorem Inks.refl (p : ℕ) (before : Canvas) : Inks before before p (fun _ _ => False) :=
  fun _ => Or.inr ⟨fun _ _ hd => hd.elim, rfl⟩

theorem Inks.put (before : Canvas) (p : ℕ) (b : UInt8) :
    Inks before (before.put p b) p (fun d b' => d = 0 ∧ b' = b) := by
  intro a
  by_cases ha : a = toUint32 p
  · exact Or.inl ⟨0, ⟨rfl, if_pos ha⟩, ha⟩
  · refine Or.inr ⟨?_, if_neg ha⟩
    rintro d b' ⟨rfl, -⟩
    exact ha

theorem Inks.trans (h : Inks before middle p ink) (h' : Inks middle after (p + n) ink') :
    Inks before after p (ink.then n ink') := by
  intro a
  rcases h' a with ⟨e, he, ha⟩ | ⟨hnone', hkept'⟩
  · exact Or.inl ⟨n + e, Or.inr ⟨e, he, rfl⟩, by rw [ha, Nat.add_assoc]⟩
  · rcases h a with ⟨d, hd, ha⟩ | ⟨hnone, hkept⟩
    · exact Or.inl ⟨d, Or.inl (hkept' ▸ hd), ha⟩
    · refine Or.inr ⟨?_, hkept'.trans hkept⟩
      rintro d b (hd | ⟨e, he, rfl⟩)
      · exact hnone d b hd
      · rw [← Nat.add_assoc]
        exact hnone' e b he

end Inks

open Plotter

variable {σ : Type} [Plotter σ]

/-- From one state to the next the pointer advances by `n` and the ink is put. -/
structure Inked (s s' : σ) (n : ℕ) (ink : Ink) : Prop where
  advance : pointer s' = pointer s + n
  inks : Inks (canvas s) (canvas s') (pointer s) ink

section Inked

variable {s s' s'' : σ} {n m : ℕ} {ink ink' : Ink}

theorem Inked.congr (h : Inked s s' n ink) (hsame : ∀ d b, ink d b ↔ ink' d b) :
    Inked s s' n ink' :=
  ⟨h.advance, h.inks.congr hsame⟩

theorem Inked.trans (h : Inked s s' n ink) (h' : Inked s' s'' m ink') :
    Inked s s'' (n + m) (ink.then n ink') := by
  constructor
  · rw [h'.advance, h.advance, Nat.add_assoc]
  · have hinks := h'.inks
    rw [h.advance] at hinks
    exact h.inks.trans hinks

theorem Inked.skip (h : Inked s s' n ink) (hadvance : pointer s'' = pointer s' + m)
    (hcanvas : canvas s'' = canvas s') : Inked s s'' (n + m) ink := by
  constructor
  · rw [hadvance, h.advance, Nat.add_assoc]
  · rw [hcanvas]
    exact h.inks

/-- Repeating an operation whose ink depends on how often it has been made, while what it
reads off the state is known each time. -/
theorem Inked.iterate {f : σ → σ} (reads : ℕ → σ → Prop) {ink : ℕ → Ink}
    (step : ∀ i s, reads i s → reads (i + 1) (f s) ∧ Inked s (f s) n (ink i)) (h : reads 0 s)
    (k : ℕ) : reads k (f^[k] s) ∧ Inked s (f^[k] s) (k * n) (spread k n ink) := by
  induction k with
  | zero =>
      refine ⟨h, (Nat.zero_mul n).symm ▸ rfl, (Inks.refl _ _).congr ?_⟩
      intro d b
      exact ⟨False.elim, fun ⟨i, hi, _⟩ => absurd hi (Nat.not_lt_zero i)⟩
  | succ k ih =>
      obtain ⟨hreads, hinked⟩ := ih
      obtain ⟨hnext, hlast⟩ := step k _ hreads
      rw [Function.iterate_succ_apply']
      refine ⟨hnext, ?_⟩
      have hboth := hinked.trans hlast
      rw [← Nat.succ_mul] at hboth
      exact hboth.congr fun d b => spread_succ.symm

end Inked

end MuTegra.Foundation.Inking
