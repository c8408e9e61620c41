/- Unit: MuTegra/Foundation/LastWrites
   scope: general library
   digest: A store after a series of writes holds the last one made to each of its keys. -/

import Mathlib.Logic.Function.Basic

set_option autoImplicit false
set_option relaxedAutoImplicit false

namespace MuTegra.Foundation.LastWrites

variable {κ β : Type} [DecidableEq κ]

def written (store : κ → β) (writes : List (κ × β)) : κ → β :=
  writes.foldl (fun store write => Function.update store write.1 write.2) store

def lastWrite (writes : List (κ × β)) (key : κ) : Option β :=
  (writes.reverse.find? fun write => write.1 = key).map Prod.snd

variable (store : κ → β) (writes later : List (κ × β)) (write : κ × β) (key : κ)

@[simp] theorem written_nil : written store [] = store := rfl

@[simp] theorem written_cons :
    written store (write :: writes) = written (Function.update store write.1 write.2) writes := rfl

theorem written_append : written store (writes ++ later) = written (written store writes) later :=
  List.foldl_append

@[simp] theorem lastWrite_nil : lastWrite ([] : List (κ × β)) key = none := rfl

theorem lastWrite_cons :
    lastWrite (write :: writes) key =
      (lastWrite writes key).or (if write.1 = key then some write.2 else none) := by
  rw [lastWrite, lastWrite, List.reverse_cons, List.find?_append]
  cases writes.reverse.find? fun write => write.1 = key with
  | some found => rfl
  | none =>
      by_cases same : write.1 = key <;> simp [same]

theorem written_apply :
    written store writes key = (lastWrite writes key).getD (store key) := by
  induction writes generalizing store with
  | nil => rfl
  | cons write writes ih =>
      rw [written_cons, ih, lastWrite_cons]
      cases lastWrite writes key with
      | some value => rfl
      | none =>
          by_cases same : write.1 = key
          · subst same
            simp
          · rw [if_neg same]
            exact Function.update_of_ne (Ne.symm same) _ _

theorem written_of_forall_ne (unwritten : ∀ write ∈ writes, write.1 ≠ key) :
    written store writes key = store key := by
  have none : lastWrite writes key = none := by
    rw [lastWrite, Option.map_eq_none_iff, List.find?_eq_none]
    intro write member
    simpa using unwritten write (List.mem_reverse.mp member)
  rw [written_apply, none, Option.getD_none]

end MuTegra.Foundation.LastWrites
