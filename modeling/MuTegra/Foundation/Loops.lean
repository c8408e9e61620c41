/- Unit: MuTegra/Foundation/Loops
   scope: general library
   digest: Fuelled loops whose passes may fault, continue or leave, with a variant rule. -/

import Mathlib.Data.Nat.Basic

set_option autoImplicit false
set_option relaxedAutoImplicit false

namespace MuTegra.Foundation.Loops

universe u v

variable {σ : Type u} {β : Type v}

/-- Run a loop body. A pass yields `none` on a fault, a new state to continue
with, or the value the loop leaves with. Running out of fuel is also `none`, so
a result `some b` means a faultless, terminating run. -/
def loop (body : σ → Option (σ ⊕ β)) : ℕ → σ → Option β
  | 0, _ => none
  | fuel + 1, s =>
      match body s with
      | none => none
      | some (.inl s') => loop body fuel s'
      | some (.inr b) => some b

theorem loop_next {body : σ → Option (σ ⊕ β)} {s s' : σ} (fuel : ℕ)
    (h : body s = some (.inl s')) : loop body (fuel + 1) s = loop body fuel s' := by
  simp [loop, h]

theorem loop_done {body : σ → Option (σ ⊕ β)} {s : σ} {b : β} (fuel : ℕ)
    (h : body s = some (.inr b)) : loop body (fuel + 1) s = some b := by
  simp [loop, h]

theorem loop_mono {body : σ → Option (σ ⊕ β)} {fuel fuel' : ℕ} {s : σ} {b : β}
    (h : loop body fuel s = some b) (hle : fuel ≤ fuel') : loop body fuel' s = some b := by
  induction fuel generalizing s fuel' with
  | zero => simp [loop] at h
  | succ fuel ih =>
      obtain ⟨k, rfl⟩ : ∃ k, fuel' = k + 1 := ⟨fuel' - 1, by omega⟩
      cases hbody : body s with
      | none => simp [loop, hbody] at h
      | some out =>
          cases out with
          | inl s' =>
              rw [loop_next fuel hbody] at h
              rw [loop_next k hbody]
              exact ih h (by omega)
          | inr c =>
              rw [loop_done fuel hbody] at h
              rw [loop_done k hbody, h]

def PassOk (body : σ → Option (σ ⊕ β)) (inv : σ → Prop) (variant : σ → ℕ)
    (post : β → Prop) (s : σ) : Prop :=
  (∃ s', body s = some (.inl s') ∧ inv s' ∧ variant s' < variant s) ∨
    ∃ b, body s = some (.inr b) ∧ post b

/-- The loop rule: an invariant kept by every pass together with a variant that
every continuing pass lowers gives a result satisfying the postcondition, for
every fuel above the variant. -/
theorem loop_total {body : σ → Option (σ ⊕ β)} (inv : σ → Prop) (variant : σ → ℕ)
    {post : β → Prop} (pass : ∀ s, inv s → PassOk body inv variant post s)
    (fuel : ℕ) (s : σ) (hs : inv s) (enough : variant s < fuel) :
    ∃ b, loop body fuel s = some b ∧ post b := by
  induction fuel generalizing s with
  | zero => omega
  | succ fuel ih =>
      rcases pass s hs with ⟨s', hbody, hs', hlt⟩ | ⟨b, hbody, hb⟩
      · rw [loop_next fuel hbody]
        exact ih s' hs' (by omega)
      · exact ⟨b, loop_done fuel hbody, hb⟩

inductive Visits (body : σ → Option (σ ⊕ β)) (s : σ) : σ → Prop
  | start : Visits body s s
  | next {t t' : σ} (before : Visits body s t) (pass : body t = some (.inl t')) :
      Visits body s t'

theorem exists_last_pass {body : σ → Option (σ ⊕ β)} {fuel : ℕ} {s : σ} {b : β}
    (h : loop body fuel s = some b) : ∃ t, Visits body s t ∧ body t = some (.inr b) := by
  suffices hfrom : ∀ t, Visits body s t → loop body fuel t = some b →
      ∃ u, Visits body s u ∧ body u = some (.inr b) from hfrom s .start h
  clear h
  induction fuel with
  | zero => exact fun t _ ht => absurd ht (by simp [loop])
  | succ fuel ih =>
      intro t hvisits ht
      cases hbody : body t with
      | none => simp [loop, hbody] at ht
      | some out =>
          cases out with
          | inl t' =>
              rw [loop_next fuel hbody] at ht
              exact ih t' (hvisits.next hbody) ht
          | inr c =>
              rw [loop_done fuel hbody, Option.some_inj] at ht
              exact ⟨t, hvisits, by rw [hbody, ht]⟩

theorem Visits.keeps {body : σ → Option (σ ⊕ β)} {inv : σ → Prop} {s t : σ}
    (h : Visits body s t) (hs : inv s)
    (step : ∀ u u', inv u → body u = some (.inl u') → inv u') : inv t := by
  induction h with
  | start => exact hs
  | next _ pass ih => exact step _ _ ih pass

end MuTegra.Foundation.Loops
