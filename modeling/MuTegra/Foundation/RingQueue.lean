/- Unit: MuTegra/Foundation/RingQueue
   scope: general library
   digest: A ring of cells with two cursors, one cell kept free, read as a list. -/

import Mathlib.Data.List.Basic
import Mathlib.Data.Int.ModEq
import Mathlib.Logic.Function.Basic

set_option autoImplicit false
set_option relaxedAutoImplicit false

namespace MuTegra.Foundation.RingQueue

universe u

variable {α : Type u}

def ringCount (size head tail : ℕ) : ℕ := (tail + size - head) % size

/-- The `n` cells from the head cursor on, in queue order. -/
def ringContents (buffer : ℕ → α) (size head n : ℕ) : List α :=
  (List.range n).map fun i => buffer ((head + i) % size)

@[simp] theorem ringContents_length (buffer : ℕ → α) (size head n : ℕ) :
    (ringContents buffer size head n).length = n := by
  simp [ringContents]

theorem ringContents_cons (buffer : ℕ → α) {size head : ℕ} (hhead : head < size) (n : ℕ) :
    ringContents buffer size head (n + 1) =
      buffer head :: ringContents buffer size ((head + 1) % size) n := by
  simp only [ringContents, List.range_succ_eq_map, List.map_cons, List.map_map, Nat.add_zero,
    Nat.mod_eq_of_lt hhead, List.cons.injEq, true_and]
  refine List.map_congr_left fun i _ => ?_
  simp only [Function.comp_apply, Nat.succ_eq_add_one]
  rw [Nat.mod_add_mod, Nat.add_assoc, Nat.add_comm 1 i]

theorem ringContents_append (buffer : ℕ → α) {size : ℕ} (head : ℕ) {n : ℕ} (hn : n < size)
    (x : α) :
    ringContents (Function.update buffer ((head + n) % size) x) size head (n + 1) =
      ringContents buffer size head n ++ [x] := by
  simp only [ringContents, List.range_succ, List.map_append, List.map_cons, List.map_nil,
    Function.update_self]
  congr 1
  refine List.map_congr_left fun i hi => Function.update_of_ne ?_ _ _
  have hlt := List.mem_range.mp hi
  intro heq
  have hmod : i % size = n % size := Nat.ModEq.add_left_cancel' head heq
  rw [Nat.mod_eq_of_lt (Nat.lt_trans hlt hn), Nat.mod_eq_of_lt hn] at hmod
  omega

private theorem wrap_mod {a size : ℕ} (h : a < 2 * size) :
    a % size = if a < size then a else a - size := by
  split
  · exact Nat.mod_eq_of_lt ‹_›
  · rw [Nat.mod_eq_sub_mod (by omega), Nat.mod_eq_of_lt (by omega)]

variable {size head tail : ℕ}

theorem ringCount_lt (hsize : 0 < size) (head tail : ℕ) : ringCount size head tail < size :=
  Nat.mod_lt _ hsize

theorem ringCount_eq_zero (hhead : head < size) (htail : tail < size) :
    ringCount size head tail = 0 ↔ head = tail := by
  rw [ringCount, wrap_mod (by omega)]
  split <;> omega

theorem ringCount_tail (hhead : head < size) (htail : tail < size) :
    (head + ringCount size head tail) % size = tail := by
  have hcount : ringCount size head tail = if head ≤ tail then tail - head
      else tail + size - head := by
    rw [ringCount, wrap_mod (by omega)]
    split <;> split <;> omega
  rw [hcount]
  split
  · rw [Nat.add_sub_cancel' ‹_›, Nat.mod_eq_of_lt htail]
  · rw [wrap_mod (by omega)]
    split <;> omega

theorem ringCount_full (hhead : head < size) (htail : tail < size) :
    (tail + 1) % size = head ↔ ringCount size head tail + 1 = size := by
  rw [ringCount, wrap_mod (a := tail + 1) (by omega), wrap_mod (by omega)]
  split <;> split <;> omega

theorem ringCount_pop (hhead : head < size) (htail : tail < size) (hne : head ≠ tail) :
    ringCount size ((head + 1) % size) tail + 1 = ringCount size head tail := by
  rw [ringCount, ringCount, wrap_mod (a := head + 1) (by omega)]
  split
  · rw [wrap_mod (by omega), wrap_mod (by omega)]
    split <;> split <;> omega
  · rw [wrap_mod (by omega), wrap_mod (by omega)]
    split <;> split <;> omega

theorem ringCount_push (hhead : head < size) (htail : tail < size)
    (hroom : ringCount size head tail + 1 ≠ size) :
    ringCount size head ((tail + 1) % size) = ringCount size head tail + 1 := by
  revert hroom
  rw [ringCount, ringCount, wrap_mod (a := tail + 1) (by omega)]
  split
  · rw [wrap_mod (by omega), wrap_mod (by omega)]
    split <;> split <;> omega
  · rw [wrap_mod (by omega), wrap_mod (by omega)]
    split <;> split <;> omega

end MuTegra.Foundation.RingQueue
