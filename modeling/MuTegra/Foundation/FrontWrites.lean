/- Unit: MuTegra/Foundation/FrontWrites
   scope: general library
   digest: Files that are written from their front on, in full or only in part. -/

import Mathlib.Data.List.Basic

set_option autoImplicit false
set_option relaxedAutoImplicit false

namespace MuTegra.Foundation.FrontWrites

variable {α : Type}

def writeFront (data contents : List α) : List α := data ++ contents.drop data.length

/-- The contents begin with some of the data and go on as another file does behind it. -/
def Started (data rest contents : List α) : Prop :=
  ∃ n ≤ data.length, contents = writeFront (data.take n) rest

variable {data rest contents : List α}

@[simp] theorem writeFront_nil (data : List α) : writeFront data [] = data := by
  simp [writeFront]

theorem started_refl (data rest : List α) : Started data rest rest :=
  ⟨0, Nat.zero_le _, rfl⟩

/-- Writing more of the data over less of it, or less of it over more. -/
theorem writeFront_take_take {m n : ℕ} (hm : m ≤ data.length) (hn : n ≤ data.length) :
    writeFront (data.take m) (writeFront (data.take n) rest) =
      writeFront (data.take (max m n)) rest := by
  rcases Nat.le_total m n with hle | hle
  · rw [Nat.max_eq_right hle]
    have hsplit : data.take n = data.take m ++ (data.drop m).take (n - m) := by
      rw [← List.take_add, Nat.add_sub_cancel' hle]
    rw [writeFront, writeFront, List.length_take_of_le hm, List.length_take_of_le hn, hsplit,
      List.append_assoc, List.drop_left' (List.length_take_of_le hm)]
  · rw [Nat.max_eq_left hle]
    have hbehind : (writeFront (data.take n) rest).drop m = rest.drop m := by
      rw [writeFront, List.drop_append, List.length_take_of_le hn, List.drop_drop,
        List.drop_eq_nil_of_le (by rw [List.length_take_of_le hn]; exact hle), List.nil_append,
        Nat.add_sub_cancel' hle]
    rw [writeFront, List.length_take_of_le hm, hbehind, writeFront, List.length_take_of_le hm]

theorem Started.write (h : Started data rest contents) (m : ℕ) :
    Started data rest (writeFront (data.take m) contents) := by
  obtain ⟨n, hn, rfl⟩ := h
  have hm : data.take m = data.take (min m data.length) := by
    rcases Nat.le_total m data.length with hle | hle
    · rw [Nat.min_eq_left hle]
    · rw [Nat.min_eq_right hle, List.take_of_length_le hle, List.take_length]
  rw [hm, writeFront_take_take (Nat.min_le_right _ _) hn]
  exact ⟨_, Nat.max_le.mpr ⟨Nat.min_le_right _ _, hn⟩, rfl⟩

theorem writeFront_writeFront : writeFront data (writeFront data rest) = writeFront data rest := by
  have htaken := @writeFront_take_take α data rest _ _ (Nat.le_refl _) (Nat.le_refl _)
  rwa [Nat.max_self, List.take_length] at htaken

/-- A full write leaves the data alone in the file, unless the file was longer. -/
theorem writeFront_eq_self_iff : writeFront data rest = data ↔ rest.length ≤ data.length := by
  rw [writeFront, List.append_right_eq_self, List.drop_eq_nil_iff]

end MuTegra.Foundation.FrontWrites
