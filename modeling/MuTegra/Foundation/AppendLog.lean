/- Unit: MuTegra/Foundation/AppendLog
   scope: general library
   digest: A log that takes entries until it is full and keeps the first ones for good. -/

import MuTegra.Foundation.Runs

set_option autoImplicit false
set_option relaxedAutoImplicit false

namespace MuTegra.Foundation.AppendLog

open MuTegra.Foundation.Runs

variable {α : Type}

def appendStep (limit : ℕ) (log : List α) (entry : α) : Bool × List α :=
  if log.length < limit then (true, log ++ [entry]) else (false, log)

variable {limit : ℕ} {log entries : List α}

theorem appendStep_full (hfull : limit ≤ log.length) (entry : α) :
    appendStep limit log entry = (false, log) :=
  if_neg (Nat.not_lt.mpr hfull)

theorem append_full (hfull : limit ≤ log.length) :
    stateAfter (appendStep limit) log entries = log ∧
      answers (appendStep limit) log entries = List.replicate entries.length false := by
  induction entries with
  | nil => exact ⟨rfl, rfl⟩
  | cons entry entries ih =>
      rw [stateAfter, answers, appendStep_full hfull]
      exact ⟨ih.1, congrArg (false :: ·) ih.2⟩

/-- As many entries are taken as there is room for, in order; the others are refused. -/
theorem append_run (hroom : log.length ≤ limit) :
    stateAfter (appendStep limit) log entries = log ++ entries.take (limit - log.length) ∧
      answers (appendStep limit) log entries =
        List.replicate (min (limit - log.length) entries.length) true ++
          List.replicate (entries.length - (limit - log.length)) false := by
  induction entries generalizing log with
  | nil => simp [stateAfter, answers]
  | cons entry entries ih =>
      by_cases hfull : log.length < limit
      · have htaken : appendStep limit log entry = (true, log ++ [entry]) := if_pos hfull
        have hlength : (log ++ [entry]).length = log.length + 1 := by
          rw [List.length_append, List.length_singleton]
        obtain ⟨hlog, hanswers⟩ := @ih (log ++ [entry]) (by omega)
        obtain ⟨room, hrest⟩ : ∃ room, limit - log.length = room + 1 :=
          ⟨limit - log.length - 1, by omega⟩
        rw [hlength, show limit - (log.length + 1) = room by omega] at hlog hanswers
        rw [stateAfter, answers, htaken, hrest]
        refine ⟨?_, ?_⟩
        · rw [hlog, List.take_succ_cons, List.append_assoc, List.singleton_append]
        · rw [hanswers, List.length_cons, Nat.add_min_add_right, List.replicate_succ,
            List.cons_append, Nat.add_sub_add_right]
      · have hzero : limit - log.length = 0 := by omega
        obtain ⟨hlog, hanswers⟩ := @append_full α limit log (entry :: entries) (Nat.not_lt.mp hfull)
        rw [hlog, hanswers, hzero, List.take_zero, List.append_nil, Nat.zero_min, Nat.sub_zero]
        exact ⟨rfl, rfl⟩

theorem flatMap_slice {β : Type} {f : α → List β} {n : ℕ} {xs : List α}
    (hlength : ∀ x, (f x).length = n) {i : ℕ} {x : α} (hx : xs[i]? = some x) :
    ((xs.flatMap f).drop (i * n)).take n = f x := by
  induction xs generalizing i with
  | nil => cases hx
  | cons y xs ih =>
      rw [List.flatMap_cons]
      cases i with
      | zero =>
          obtain rfl := Option.some_inj.mp hx
          rw [Nat.zero_mul, List.drop_zero, ← hlength y, List.take_left]
      | succ i =>
          have hskip : (i + 1) * n = (f y).length + i * n := by
            rw [hlength, Nat.succ_mul, Nat.add_comm]
          rw [hskip, ← List.drop_drop, List.drop_left]
          exact ih hx

end MuTegra.Foundation.AppendLog
