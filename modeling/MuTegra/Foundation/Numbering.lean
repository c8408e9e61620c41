/- Unit: MuTegra/Foundation/Numbering
   scope: general library
   digest: Columns whose used entries are numbered in order, and closing the gap of a removal. -/

import Mathlib.Data.List.ReduceOption
import Mathlib.Data.List.Range
import Mathlib.Data.Nat.PSub

/-!
A column gives each row a number or none. Where the numbers in use count up in row order, the
column is known from which rows are in use.
-/

set_option autoImplicit false
set_option relaxedAutoImplicit false

namespace MuTegra.Foundation.Numbering

universe u

/-- The numbers in use are `k`, `k + 1`, ... in order. -/
def NumberedFrom (k : ℕ) (column : List (Option ℕ)) : Prop :=
  column.reduceOption = List.range' k column.reduceOption.length

abbrev Numbered (column : List (Option ℕ)) : Prop := NumberedFrom 0 column

instance (k : ℕ) (column : List (Option ℕ)) : Decidable (NumberedFrom k column) :=
  inferInstanceAs (Decidable (_ = _))

variable {k n p : ℕ} {column other : List (Option ℕ)}

@[simp] theorem numberedFrom_nil : NumberedFrom k [] := rfl

@[simp] theorem numberedFrom_none : NumberedFrom k (none :: column) ↔ NumberedFrom k column :=
  Iff.rfl

@[simp] theorem numberedFrom_some :
    NumberedFrom k (some n :: column) ↔ n = k ∧ NumberedFrom (k + 1) column := by
  rw [NumberedFrom, List.reduceOption_cons_of_some, List.length_cons, List.range'_succ,
    List.cons.injEq]
  rfl

theorem NumberedFrom.ext (h : NumberedFrom k column) (hother : NumberedFrom k other)
    (used : column.map Option.isSome = other.map Option.isSome) : column = other := by
  induction column generalizing other k with
  | nil => exact (List.map_eq_nil_iff.mp used.symm).symm
  | cons entry column ih =>
      cases other with
      | nil => cases used
      | cons entry' other =>
          obtain ⟨head, tail⟩ := List.cons.inj used
          cases entry with
          | none =>
              cases entry' with
              | none => rw [ih h (numberedFrom_none.mp hother) tail]
              | some _ => cases head
          | some _ =>
              cases entry' with
              | none => cases head
              | some _ =>
                  obtain ⟨rfl, h⟩ := numberedFrom_some.mp h
                  obtain ⟨rfl, hother⟩ := numberedFrom_some.mp hother
                  rw [ih h hother tail]

theorem Numbered.mem_iff (h : Numbered column) :
    some p ∈ column ↔ p < column.reduceOption.length := by
  rw [← List.reduceOption_mem_iff, h, List.length_range', List.mem_range'_1]
  omega

variable {α : Type u} {rows : List α} {entry : α → Option ℕ}

theorem Numbered.unique (h : Numbered (rows.map entry)) {row row' : α} (mem : row ∈ rows)
    (mem' : row' ∈ rows) (used : entry row = some p) (used' : entry row' = some p) :
    row = row' := by
  have distinct : (rows.map entry).reduceOption.Nodup := by
    rw [h]
    exact List.nodup_range'
  rw [List.reduceOption, List.filterMap_map] at distinct
  have differ := List.pairwise_filterMap.mp distinct
  have symmetric : Std.Symm fun row row' : α =>
      ∀ b, (id ∘ entry) row = some b → ∀ b', (id ∘ entry) row' = some b' → b ≠ b' :=
    ⟨fun _ _ differ b hb b' hb' eq => differ b' hb' b hb eq.symm⟩
  by_contra ne
  exact differ.forall mem mem' ne p used p used' rfl

/-- One pass over rows that are to be removed or not: the number of a removed row is dropped,
and once one was, the numbers that follow are lowered. -/
def renumber : Bool → List (Bool × Option ℕ) → List (Option ℕ)
  | _, [] => []
  | removed, (hit, entry) :: rest =>
      (if hit then none else if removed then entry.bind Nat.ppred else entry) ::
        renumber (removed || hit && entry.isSome) rest

variable {hit : α → Bool}

theorem renumber_numbered (rows : List α) (removed : Bool) (k : ℕ)
    (numbered : NumberedFrom (k + removed.toNat) (rows.map entry))
    (single : (rows.countP fun row => hit row && (entry row).isSome) + removed.toNat ≤ 1) :
    NumberedFrom k (renumber removed (rows.map fun row => (hit row, entry row))) ∧
      (renumber removed (rows.map fun row => (hit row, entry row))).map Option.isSome =
        rows.map fun row => (entry row).isSome && !hit row := by
  induction rows generalizing removed k with
  | nil => exact ⟨rfl, rfl⟩
  | cons row rows ih =>
      rw [List.map_cons] at numbered
      rw [List.countP_cons] at single
      simp only [List.map_cons, renumber]
      cases used : entry row with
      | none =>
          rw [used] at numbered
          have tail := ih removed k numbered (by simpa [used] using single)
          cases hit row <;> cases removed <;> simpa using tail
      | some n =>
          rw [used] at numbered
          obtain ⟨rfl, following⟩ := numberedFrom_some.mp numbered
          cases hits : hit row with
          | true =>
              -- this is the one row, so nothing has been removed before it
              obtain rfl : removed = false := by
                cases removed with
                | false => rfl
                | true => simp [used, hits] at single
              have tail := ih true k following (by simpa [used, hits] using single)
              simpa using tail
          | false =>
              have tail := ih removed (k + 1) (by rwa [Nat.add_right_comm] at following)
                (by simpa [used, hits] using single)
              cases removed <;> simpa using tail

end MuTegra.Foundation.Numbering
