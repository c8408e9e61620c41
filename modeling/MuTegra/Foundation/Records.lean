/- Unit: MuTegra/Foundation/Records
   scope: general library
   digest: Sequences of self-delimiting records in memory, compared byte by byte and record by record. -/

import MuTegra.Foundation.ByteFields
import MuTegra.Foundation.Loops

set_option autoImplicit false
set_option relaxedAutoImplicit false

namespace MuTegra.Foundation.Records

open MuTegra.Foundation.ByteFields
open MuTegra.Foundation.Loops

/-- How the first bytes of a record tell its length and whether it closes a sequence. -/
structure Layout where
  header : ℕ
  header_pos : 0 < header
  length : List UInt8 → ℕ
  closes : List UInt8 → Bool

def Layout.headAt (L : Layout) (mem : ℕ → UInt8) (a : ℕ) : List UInt8 := bytesAt mem a L.header

def Layout.lengthAt (L : Layout) (mem : ℕ → UInt8) (a : ℕ) : ℕ := L.length (L.headAt mem a)

/-- The records from `a` up to the closing one, which stands at `e`. -/
inductive Spells (L : Layout) (mem : ℕ → UInt8) : ℕ → List (List UInt8) → ℕ → Prop
  | close {a : ℕ} : L.closes (L.headAt mem a) = true → Spells L mem a [] a
  | record {a n e : ℕ} {rs : List (List UInt8)} :
      L.closes (L.headAt mem a) = false → L.lengthAt mem a = n → L.header ≤ n →
      Spells L mem (a + n) rs e → Spells L mem a (bytesAt mem a n :: rs) e

variable {mem mem' : ℕ → UInt8} {a b m n : ℕ}

theorem bytesAt_split (h : bytesAt mem a (m + n) = bytesAt mem' b (m + n)) :
    bytesAt mem a m = bytesAt mem' b m ∧
      bytesAt mem (a + m) n = bytesAt mem' (b + m) n := by
  rw [bytesAt_add, bytesAt_add] at h
  apply List.append_inj h
  rw [bytesAt_length, bytesAt_length]

theorem bytesAt_shorter (h : bytesAt mem a n = bytesAt mem' b n) (hle : m ≤ n) :
    bytesAt mem a m = bytesAt mem' b m := by
  obtain ⟨k, rfl⟩ := Nat.exists_eq_add_of_le hle
  exact (bytesAt_split h).1

variable {L : Layout} {e f : ℕ} {rs qs : List (List UInt8)}

theorem Spells.closed (h : Spells L mem a rs e) : L.closes (L.headAt mem e) = true := by
  induction h with
  | close hclose => exact hclose
  | record _ _ _ _ ih => exact ih

theorem Spells.length_flatten (h : Spells L mem a rs e) : a + rs.flatten.length = e := by
  induction h with
  | close _ => rfl
  | record _ _ _ _ ih =>
      rw [List.flatten_cons, List.length_append, bytesAt_length]
      omega

theorem Spells.flatten (h : Spells L mem a rs e) : rs.flatten = bytesAt mem a rs.flatten.length := by
  induction h with
  | close _ => rfl
  | record _ _ _ _ ih =>
      rw [List.flatten_cons, List.length_append, bytesAt_length, bytesAt_add, ← ih]

theorem Spells.record_ne_nil (h : Spells L mem a rs e) : ∀ r ∈ rs, r ≠ [] := by
  induction h with
  | close _ => simp
  | @record a n _ _ _ _ hfits _ ih =>
      intro r hr
      rcases List.mem_cons.mp hr with rfl | hr
      · have hpos := L.header_pos
        intro hnil
        have hlength := congrArg List.length hnil
        rw [bytesAt_length, List.length_nil] at hlength
        omega
      · exact ih r hr

theorem Spells.header_mul_length_le (h : Spells L mem a rs e) :
    L.header * rs.length ≤ rs.flatten.length := by
  induction h with
  | close _ => exact Nat.le_refl _
  | record _ _ hfits _ ih =>
      rw [List.length_cons, List.flatten_cons, List.length_append, bytesAt_length, Nat.mul_succ]
      omega

theorem Spells.unique (h : Spells L mem a rs e) (h' : Spells L mem a qs f) : rs = qs ∧ e = f := by
  induction h generalizing qs with
  | close hclose =>
      cases h' with
      | close _ => exact ⟨rfl, rfl⟩
      | record hopen _ _ _ => simp [hclose] at hopen
  | record hopen hlen _ _ ih =>
      cases h' with
      | close hclose => simp [hclose] at hopen
      | record _ hlen' _ hrest =>
          obtain rfl := hlen.symm.trans hlen'
          obtain ⟨rfl, rfl⟩ := ih hrest
          exact ⟨rfl, rfl⟩

/-- Equal bytes hold equal records: a sequence whose bytes another one starts with is
a prefix of it, record by record. -/
theorem Spells.prefix_of_bytes (h : Spells L mem a rs e) (h' : Spells L mem' b qs f)
    (hlong : qs.flatten.length ≤ rs.flatten.length)
    (hbytes : bytesAt mem a qs.flatten.length = bytesAt mem' b qs.flatten.length) :
    qs <+: rs := by
  induction h' generalizing a rs with
  | close _ => exact List.nil_prefix
  | @record b n _ qs hopen hlen hfits hrest ih =>
      rw [List.flatten_cons, List.length_append, bytesAt_length] at hlong hbytes
      obtain ⟨hrecord, htail⟩ := bytesAt_split hbytes
      have hhead : L.headAt mem a = L.headAt mem' b := bytesAt_shorter hrecord hfits
      have hpos := L.header_pos
      cases h with
      | close _ =>
          simp only [List.flatten_nil, List.length_nil] at hlong
          omega
      | @record _ k _ rs _ hlen' _ hrest' =>
          obtain rfl : k = n := by
            rw [← hlen', ← hlen, Layout.lengthAt, Layout.lengthAt, hhead]
          rw [List.flatten_cons, List.length_append, bytesAt_length] at hlong
          rw [hrecord, List.prefix_cons_inj]
          exact ih hrest' (by omega) htail

theorem Spells.bytes_of_prefix (h : Spells L mem a rs e) (h' : Spells L mem' b qs f)
    (hwithin : qs <+: rs) :
    qs.flatten.length ≤ rs.flatten.length ∧
      bytesAt mem a qs.flatten.length = bytesAt mem' b qs.flatten.length := by
  obtain ⟨ts, rfl⟩ := hwithin
  have hall := h.flatten
  rw [List.flatten_append, List.length_append, bytesAt_add] at hall
  refine ⟨by rw [List.flatten_append, List.length_append]; omega, ?_⟩
  rw [← h'.flatten]
  exact (List.append_inj_left hall (by rw [bytesAt_length])).symm

theorem Spells.transfer (h : Spells L mem' b qs f)
    (hbytes : bytesAt mem a (qs.flatten.length + L.header) =
      bytesAt mem' b (qs.flatten.length + L.header)) :
    Spells L mem a qs (a + qs.flatten.length) := by
  induction h generalizing a with
  | @close b hclose =>
      have hhead : L.headAt mem a = L.headAt mem' b := bytesAt_shorter hbytes (Nat.le_add_left _ _)
      apply Spells.close
      rw [hhead]
      exact hclose
  | @record b n _ qs hopen hlen hfits _ ih =>
      rw [List.flatten_cons, List.length_append, bytesAt_length, Nat.add_assoc] at hbytes
      obtain ⟨hrecord, htail⟩ := bytesAt_split hbytes
      have hhead : L.headAt mem a = L.headAt mem' b := bytesAt_shorter hrecord hfits
      rw [List.flatten_cons, List.length_append, bytesAt_length, ← hrecord, ← Nat.add_assoc]
      apply Spells.record
      · rw [hhead]
        exact hopen
      · rw [Layout.lengthAt, hhead]
        exact hlen
      · exact hfits
      · exact ih htail

theorem Spells.eq_of_prefix (h : Spells L mem a rs e) (hwithin : qs <+: rs)
    (hlong : rs.flatten.length ≤ qs.flatten.length) : qs = rs := by
  obtain ⟨ts, rfl⟩ := hwithin
  cases ts with
  | nil => rw [List.append_nil]
  | cons t ts =>
      have hne := List.length_pos_iff.mpr (h.record_ne_nil t (by simp))
      rw [List.flatten_append, List.flatten_cons, List.length_append, List.length_append] at hlong
      omega

/-- The closing record, looked for over `count` records at most. -/
def closing (L : Layout) (mem : ℕ → UInt8) : ℕ → ℕ → Option ℕ
  | 0, _ => none
  | count + 1, a =>
      if L.closes (L.headAt mem a) then some a
      else if L.lengthAt mem a < L.header then none
      else closing L mem count (a + L.lengthAt mem a)

theorem spells_of_closing {count : ℕ} (h : closing L mem count a = some e) :
    ∃ rs, Spells L mem a rs e := by
  induction count generalizing a with
  | zero => simp [closing] at h
  | succ count ih =>
      rw [closing] at h
      split_ifs at h with hclose hshort
      · obtain rfl := Option.some_inj.mp h
        exact ⟨[], .close hclose⟩
      · obtain ⟨rs, hrs⟩ := ih h
        exact ⟨_, .record (Bool.eq_false_of_not_eq_true hclose) rfl (by omega) hrs⟩

theorem Spells.closing_eq (h : Spells L mem a rs e) {count : ℕ} (enough : rs.length < count) :
    closing L mem count a = some e := by
  induction h generalizing count with
  | close hclose =>
      obtain ⟨count, rfl⟩ : ∃ k, count = k + 1 := ⟨count - 1, by omega⟩
      rw [closing, if_pos hclose]
  | record hopen hlen hfits _ ih =>
      obtain ⟨count, rfl⟩ : ∃ k, count = k + 1 := ⟨count - 1, by omega⟩
      rw [List.length_cons] at enough
      rw [closing, hopen, if_neg Bool.false_ne_true, hlen, if_neg (by omega)]
      exact ih (by omega)

/-- A walk from record to record that leaves with `found` at the first one a test accepts. -/
theorem Spells.walk {body : ℕ → Option (ℕ ⊕ Bool)} {test : List UInt8 → Bool}
    (h : Spells L mem a rs e) (found : Bool)
    (hclose : ∀ x, L.closes (L.headAt mem x) = true → body x = some (.inr (!found)))
    (hrecord : ∀ x, L.closes (L.headAt mem x) = false → L.header ≤ L.lengthAt mem x →
      body x = some (if test (bytesAt mem x (L.lengthAt mem x)) then .inr found
        else .inl (x + L.lengthAt mem x)))
    {fuel : ℕ} (enough : rs.length < fuel) :
    loop body fuel a = some (rs.any test == found) := by
  induction h generalizing fuel with
  | close hend =>
      obtain ⟨fuel, rfl⟩ := Nat.exists_eq_add_of_lt enough
      rw [loop_done _ (hclose _ hend), List.any_nil, Bool.false_beq]
  | @record a n e rs hopen hlen hfits _ ih =>
      obtain ⟨fuel, rfl⟩ : ∃ k, fuel = k + 1 := ⟨fuel - 1, by omega⟩
      subst hlen
      have hbody := hrecord a hopen hfits
      cases htest : test (bytesAt mem a (L.lengthAt mem a)) with
      | true =>
          rw [htest, if_pos rfl] at hbody
          rw [loop_done _ hbody, List.any_cons, htest, Bool.true_or, Bool.true_beq]
      | false =>
          rw [htest, if_neg Bool.false_ne_true] at hbody
          rw [loop_next _ hbody, List.any_cons, htest, Bool.false_or]
          apply ih
          rw [List.length_cons] at enough
          omega

end MuTegra.Foundation.Records
