/- Unit: MuTegra/Foundation/BoundedFifo
   scope: general library
   digest: A first-in first-out queue that keeps the latest elements up to its capacity. -/

import Mathlib.Data.List.DropRight

set_option autoImplicit false
set_option relaxedAutoImplicit false

namespace MuTegra.Foundation.BoundedFifo

variable {α : Type}

inductive FifoCall (α : Type) where
  | push (x : α)
  | pop
  deriving DecidableEq, Repr

/-- What a call on the queue answers: nothing to a push, the oldest element to a pop. -/
inductive FifoAnswer (α : Type) where
  | pushed
  | popped (oldest : Option α)
  deriving DecidableEq, Repr

def fifoStep (capacity : ℕ) (kept : List α) : FifoCall α → FifoAnswer α × List α
  | .push x => (.pushed, (kept ++ [x]).rtake capacity)
  | .pop => (.popped kept.head?, kept.tail)

variable {capacity : ℕ} {kept : List α}

theorem push_room (x : α) (hroom : kept.length < capacity) :
    (kept ++ [x]).rtake capacity = kept ++ [x] := by
  have hlength : (kept ++ [x]).length - capacity = 0 := by
    rw [List.length_append, List.length_singleton]
    omega
  rw [List.rtake, hlength, List.drop_zero]

theorem push_full (x : α) (hfull : kept.length = capacity) (hpos : 0 < capacity) :
    (kept ++ [x]).rtake capacity = kept.tail ++ [x] := by
  have hlength : (kept ++ [x]).length - capacity = 1 := by
    rw [List.length_append, List.length_singleton]
    omega
  have hne : 1 ≤ kept.length := by omega
  rw [List.rtake, hlength, List.drop_append_of_le_length hne, List.drop_one]

end MuTegra.Foundation.BoundedFifo
