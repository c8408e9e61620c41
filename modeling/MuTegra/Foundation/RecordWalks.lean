/- Unit: MuTegra/Foundation/RecordWalks
   scope: general library
   digest: Sequences of self-delimiting records as written, and the walk to the last one. -/

import MuTegra.Foundation.Records

set_option autoImplicit false
set_option relaxedAutoImplicit false

namespace MuTegra.Foundation.RecordWalks

open MuTegra.Foundation.ByteFields
open MuTegra.Foundation.Loops
open MuTegra.Foundation.Records

variable {L : Layout} {mem : ℕ → UInt8} {a e : ℕ} {rs : List (List UInt8)}

/-- A record whose header tells its own length and does not close the sequence. -/
structure IsRecord (L : Layout) (record : List UInt8) : Prop where
  fits : L.header ≤ record.length
  length : L.length (record.take L.header) = record.length
  opens : L.closes (record.take L.header) = false

def Holds (mem : ℕ → UInt8) (a : ℕ) (bytes : List UInt8) : Prop :=
  bytesAt mem a bytes.length = bytes

theorem holds_blit (mem : ℕ → UInt8) (a : ℕ) (bytes : List UInt8) :
    Holds (blit mem a bytes) a bytes := bytesAt_blit_self bytes

theorem Holds.append {first second : List UInt8} (h : Holds mem a (first ++ second)) :
    Holds mem a first ∧ Holds mem (a + first.length) second := by
  rw [Holds, List.length_append, bytesAt_add] at h
  exact List.append_inj h (bytesAt_length _ _ _)

theorem Holds.take {bytes : List UInt8} (h : Holds mem a bytes) {n : ℕ} (le : n ≤ bytes.length) :
    bytesAt mem a n = bytes.take n := by
  have split : bytes.take n ++ bytes.drop n = bytes := List.take_append_drop n bytes
  rw [← split] at h
  have first := h.append.1
  rwa [Holds, List.length_take_of_le le] at first

theorem spells_of_holds {close : List UInt8} (records : ∀ record ∈ rs, IsRecord L record)
    (fits : L.header ≤ close.length) (closes : L.closes (close.take L.header) = true)
    (h : Holds mem a (rs.flatten ++ close)) : Spells L mem a rs (a + rs.flatten.length) := by
  induction rs generalizing a with
  | nil =>
      apply Spells.close
      rw [List.flatten_nil, List.nil_append] at h
      rw [Layout.headAt, h.take fits]
      exact closes
  | cons record rs ih =>
      obtain ⟨long, length, opens⟩ := records record List.mem_cons_self
      rw [List.flatten_cons, List.append_assoc] at h
      obtain ⟨held, rest⟩ := h.append
      have head : L.headAt mem a = record.take L.header := held.take long
      have bytes : bytesAt mem a record.length = record := held
      have later := ih (fun r member => records r (List.mem_cons_of_mem _ member)) rest
      have first := @Spells.record L mem a record.length _ rs (by rw [head]; exact opens)
        (by rw [Layout.lengthAt, head]; exact length) long later
      rw [bytes] at first
      rw [List.flatten_cons, List.length_append, ← Nat.add_assoc]
      exact first

def LastAt (mem : ℕ → UInt8) (rs : List (List UInt8)) (default p : ℕ) : Prop :=
  match rs.getLast? with
  | none => p = default
  | some record => Holds mem p record

theorem LastAt.cons {record : List UInt8} {default p : ℕ} (held : Holds mem a record)
    (h : LastAt mem rs a p) : LastAt mem (record :: rs) default p := by
  rw [LastAt, List.getLast?_cons]
  rw [LastAt] at h
  cases last : rs.getLast? with
  | none =>
      rw [last] at h
      dsimp only at h
      subst h
      exact held
  | some found =>
      rw [last] at h
      exact h

theorem walk_last {body : ℕ × ℕ → Option ((ℕ × ℕ) ⊕ ℕ)} (h : Spells L mem a rs e)
    (close : ∀ x last, L.closes (L.headAt mem x) = true → body (x, last) = some (.inr last))
    (record : ∀ x last, L.closes (L.headAt mem x) = false →
      body (x, last) = some (.inl (x + L.lengthAt mem x, x)))
    {fuel : ℕ} (enough : rs.length < fuel) (default : ℕ) :
    ∃ p, loop body fuel (a, default) = some p ∧ LastAt mem rs default p := by
  induction h generalizing fuel default with
  | close closes =>
      obtain ⟨fuel, rfl⟩ := Nat.exists_eq_add_of_lt enough
      exact ⟨default, loop_done _ (close _ _ closes), rfl⟩
  | @record a n e rs opens length fits rest ih =>
      obtain ⟨fuel, rfl⟩ : ∃ k, fuel = k + 1 := ⟨fuel - 1, by omega⟩
      subst length
      rw [List.length_cons] at enough
      obtain ⟨p, run, last⟩ := @ih fuel (by omega) a
      refine ⟨p, ?_, LastAt.cons ?_ last⟩
      · rw [loop_next _ (record a default opens)]
        exact run
      · rw [Holds, bytesAt_length]

end MuTegra.Foundation.RecordWalks
