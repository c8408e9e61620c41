/- Unit: MuTegra/Foundation/Runs
   scope: general library
   digest: Runs of a machine that answers each call, with the invariant and simulation rules. -/

import Mathlib.Data.List.Basic

set_option autoImplicit false
set_option relaxedAutoImplicit false

namespace MuTegra.Foundation.Runs

variable {σ τ α β γ : Type}

def stateAfter (step : σ → α → β × σ) (s : σ) : List α → σ
  | [] => s
  | call :: calls => stateAfter step (step s call).2 calls

def answers (step : σ → α → β × σ) (s : σ) : List α → List β
  | [] => []
  | call :: calls => (step s call).1 :: answers step (step s call).2 calls

variable (step : σ → α → β × σ)

theorem stateAfter_append (s : σ) (before after : List α) :
    stateAfter step s (before ++ after) = stateAfter step (stateAfter step s before) after := by
  induction before generalizing s with
  | nil => rfl
  | cons call before ih => exact ih _

theorem answers_append (s : σ) (before after : List α) :
    answers step s (before ++ after) =
      answers step s before ++ answers step (stateAfter step s before) after := by
  induction before generalizing s with
  | nil => rfl
  | cons call before ih =>
      rw [List.cons_append, answers, ih]
      rfl

theorem stateAfter_keeps {step : σ → α → β × σ} {P : σ → Prop}
    (hstep : ∀ s call, P s → P (step s call).2) (calls : List α) {s : σ} (h : P s) :
    P (stateAfter step s calls) := by
  induction calls generalizing s with
  | nil => exact h
  | cons call calls ih =>
      apply ih
      exact hstep s call h

theorem forall_split_nil {P : List α → α → Prop} :
    ∀ before call after, [] = before ++ call :: after → P before call := by
  intro before call after hsplit
  cases before <;> cases hsplit

/-- What holds at every place of a list holds at its head and at every place behind it. -/
theorem forall_split_cons {P : List α → α → Prop} {first : α} {calls : List α} :
    (∀ before call after, first :: calls = before ++ call :: after → P before call) ↔
      P [] first ∧
        ∀ before call after, calls = before ++ call :: after → P (first :: before) call := by
  constructor
  · intro h
    refine ⟨h [] first calls rfl, ?_⟩
    rintro before other after rfl
    exact h (first :: before) other after rfl
  · rintro ⟨hfirst, hrest⟩ before other after hsplit
    cases before with
    | nil =>
        cases hsplit
        exact hfirst
    | cons head before =>
        cases hsplit
        exact hrest before other after rfl

/-- `P` holds of every call of a run, in the state the call is made in. -/
def AtCalls (step : σ → α → β × σ) (s : σ) (P : σ → α → Prop) (calls : List α) : Prop :=
  ∀ before call after, calls = before ++ call :: after → P (stateAfter step s before) call

section AtCalls

variable {step : σ → α → β × σ} {s : σ} {P C : σ → α → Prop} {Q : σ → Prop}

theorem atCalls_nil : AtCalls step s P [] := forall_split_nil

theorem atCalls_cons {call : α} {calls : List α} :
    AtCalls step s P (call :: calls) ↔ P s call ∧ AtCalls step (step s call).2 P calls :=
  forall_split_cons

/-- Where an invariant makes a property of a call and a condition the same, and the condition keeps
the invariant, a run has the property at every call exactly when it meets the condition. -/
theorem atCalls_iff (hs : Q s) (hstep : ∀ s call, Q s → C s call → Q (step s call).2)
    (hiff : ∀ s call, Q s → (P s call ↔ C s call)) (calls : List α) :
    AtCalls step s P calls ↔ AtCalls step s C calls := by
  induction calls generalizing s with
  | nil => exact iff_of_true atCalls_nil atCalls_nil
  | cons call calls ih =>
      rw [atCalls_cons, atCalls_cons, hiff s call hs]
      exact and_congr_right fun hcall => ih (hstep s call hs hcall)

end AtCalls

/-- A step of the machine on the left is a step of the one on the right, answer by answer. -/
def Simulates (step : σ → α → β × σ) (spec : τ → α → γ × τ) (R : σ → τ → Prop)
    (answer : γ → β) : Prop :=
  ∀ s t call, R s t →
    (step s call).1 = answer (spec t call).1 ∧ R (step s call).2 (spec t call).2

theorem Simulates.run {step : σ → α → β × σ} {spec : τ → α → γ × τ} {R : σ → τ → Prop}
    {answer : γ → β} (hsim : Simulates step spec R answer) {s : σ} {t : τ} (h : R s t)
    (calls : List α) :
    answers step s calls = (answers spec t calls).map answer ∧
      R (stateAfter step s calls) (stateAfter spec t calls) := by
  induction calls generalizing s t with
  | nil => exact ⟨rfl, h⟩
  | cons call calls ih =>
      obtain ⟨hanswer, hnext⟩ := hsim s t call h
      obtain ⟨hanswers, hlast⟩ := ih hnext
      refine ⟨?_, hlast⟩
      rw [answers, answers, List.map_cons, hanswer, hanswers]

end MuTegra.Foundation.Runs
