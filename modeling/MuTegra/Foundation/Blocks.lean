/- Unit: MuTegra/Foundation/Blocks
   scope: general library
   digest: Blocks written piece by piece inside their bounds, and words packed with a delimiter. -/

import Mathlib.Data.List.TakeWhile

set_option autoImplicit false
set_option relaxedAutoImplicit false

namespace MuTegra.Foundation.Blocks

universe u

variable {α : Type u}

/-- The block with the words from `start` on replaced; nothing when they do not all lie in it. -/
def overwrite (block : List α) (start : ℕ) (new : List α) : Option (List α) :=
  if start + new.length ≤ block.length then
    some (block.take start ++ new ++ block.drop (start + new.length))
  else none

theorem overwrite_length {block block' new : List α} {start : ℕ}
    (h : overwrite block start new = some block') : block'.length = block.length := by
  unfold overwrite at h
  split at h
  · cases h
    simp only [List.length_append, List.length_take, List.length_drop]
    omega
  · cases h

theorem overwrite_eq_none {block new : List α} {start : ℕ}
    (h : block.length < start + new.length) : overwrite block start new = none := by
  rw [overwrite, if_neg (by omega)]

theorem overwrite_next {written free new : List α} (h : new.length ≤ free.length) :
    overwrite (written ++ free) written.length new =
      some ((written ++ new) ++ free.drop new.length) := by
  have hfit : written.length + new.length ≤ (written ++ free).length := by
    rw [List.length_append]
    omega
  rw [overwrite, if_pos hfit, List.take_left, List.drop_append, List.drop_of_length_le (by omega),
    List.nil_append, Nat.add_sub_cancel_left]

theorem overwrite_front {block new : List α} (h : new.length ≤ block.length) :
    overwrite block 0 new = some (new ++ block.drop new.length) := by
  simpa using @overwrite_next α [] block new h

theorem overwrite_next_eq_none {written free new : List α} (h : free.length < new.length) :
    overwrite (written ++ free) written.length new = none := by
  apply overwrite_eq_none
  rw [List.length_append]
  omega

def terminated (sep : α) (words : List (List α)) : List α := words.flatMap (· ++ [sep])

variable (sep : α)

@[simp] theorem terminated_nil : terminated sep [] = [] := rfl

@[simp] theorem terminated_cons (word : List α) (words : List (List α)) :
    terminated sep (word :: words) = word ++ sep :: terminated sep words := by
  simp [terminated]

variable [DecidableEq α]

theorem takeWhile_word {word : List α} (h : sep ∉ word) (rest : List α) :
    (word ++ sep :: rest).takeWhile (· ≠ sep) = word := by
  have hword : ∀ c ∈ word, decide (c ≠ sep) = true := by
    intro c hc
    simpa using fun hsep : c = sep => h (hsep ▸ hc)
  rw [List.takeWhile_append_of_pos hword]
  simp

end MuTegra.Foundation.Blocks
