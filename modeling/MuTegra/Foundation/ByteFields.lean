/- Unit: MuTegra/Foundation/ByteFields
   scope: general library
   digest: Little-endian fields of byte blocks, 16-bit word sums and blocks in memory. -/

import Mathlib.Data.List.Basic
import Mathlib.Tactic.Ring

set_option autoImplicit false
set_option relaxedAutoImplicit false

namespace MuTegra.Foundation.ByteFields

def decodeLe : List UInt8 → ℕ
  | [] => 0
  | b :: bytes => b.toNat + 256 * decodeLe bytes

def encodeLe : ℕ → ℕ → List UInt8
  | 0, _ => []
  | n + 1, v => UInt8.ofNat v :: encodeLe n (v / 256)

@[simp] theorem encodeLe_length (n v : ℕ) : (encodeLe n v).length = n := by
  induction n generalizing v with
  | zero => rfl
  | succ n ih => simp [encodeLe, ih]

theorem decodeLe_encodeLe (n v : ℕ) : decodeLe (encodeLe n v) = v % 256 ^ n := by
  induction n generalizing v with
  | zero => simp [encodeLe, decodeLe, Nat.mod_one]
  | succ n ih =>
      have hbyte : (UInt8.ofNat v).toNat = v % 256 := UInt8.toNat_ofNat'
      rw [encodeLe, decodeLe, ih, hbyte, Nat.pow_succ', Nat.mod_mul]

def field (bytes : List UInt8) (pos n : ℕ) : ℕ := decodeLe ((bytes.drop pos).take n)

/-- The block with the field of `n` bytes at `pos` replaced. -/
def setField (bytes : List UInt8) (pos n v : ℕ) : List UInt8 :=
  bytes.take pos ++ encodeLe n v ++ bytes.drop (pos + n)

variable {bytes : List UInt8} {pos n : ℕ}

theorem setField_length (hfit : pos + n ≤ bytes.length) (v : ℕ) :
    (setField bytes pos n v).length = bytes.length := by
  simp only [setField, List.length_append, List.length_take, encodeLe_length, List.length_drop]
  omega

theorem setField_take (hfit : pos + n ≤ bytes.length) (v : ℕ) {m : ℕ} (hm : m ≤ pos) :
    (setField bytes pos n v).take m = bytes.take m := by
  rw [setField, List.append_assoc, List.take_append_of_le_length (by simp; omega),
    List.take_take, Nat.min_eq_left hm]

theorem setField_drop (hfit : pos + n ≤ bytes.length) (v : ℕ) {m : ℕ} (hm : pos + n ≤ m) :
    (setField bytes pos n v).drop m = bytes.drop m := by
  have hlen : (bytes.take pos ++ encodeLe n v).length = pos + n := by simp; omega
  rw [setField, List.drop_append, hlen, List.drop_of_length_le (by omega), List.nil_append,
    List.drop_drop]
  congr 1
  omega

theorem setField_middle (hfit : pos + n ≤ bytes.length) (v : ℕ) :
    ((setField bytes pos n v).drop pos).take n = encodeLe n v := by
  have hlen : (bytes.take pos).length = pos := by simp; omega
  rw [setField, List.append_assoc, List.drop_append_of_le_length (by omega),
    List.drop_of_length_le (by omega), List.nil_append,
    List.take_append_of_le_length (by simp), List.take_of_length_le (by simp)]

theorem field_setField_self (hfit : pos + n ≤ bytes.length) (v : ℕ) :
    field (setField bytes pos n v) pos n = v % 256 ^ n := by
  rw [field, setField_middle hfit, decodeLe_encodeLe]

theorem field_setField_before (hfit : pos + n ≤ bytes.length) (v : ℕ) {pos' n' : ℕ}
    (h : pos' + n' ≤ pos) : field (setField bytes pos n v) pos' n' = field bytes pos' n' := by
  unfold field
  rw [List.take_drop, List.take_drop, setField_take hfit v (by omega)]

theorem field_setField_after (hfit : pos + n ≤ bytes.length) (v : ℕ) {pos' n' : ℕ}
    (h : pos + n ≤ pos') : field (setField bytes pos n v) pos' n' = field bytes pos' n' := by
  unfold field
  rw [setField_drop hfit v h]

theorem setField_setField (hfit : pos + n ≤ bytes.length) (v w : ℕ) :
    setField (setField bytes pos n v) pos n w = setField bytes pos n w := by
  unfold setField
  have htake := setField_take hfit v (Nat.le_refl pos)
  have hdrop := setField_drop hfit v (Nat.le_refl (pos + n))
  unfold setField at htake hdrop
  rw [htake, hdrop]

theorem field_append_left (hfit : pos + n ≤ bytes.length) (rest : List UInt8) :
    field (bytes ++ rest) pos n = field bytes pos n := by
  have hdrop : (bytes ++ rest).drop pos = bytes.drop pos ++ rest :=
    List.drop_append_of_le_length (by omega)
  have htake : (bytes.drop pos ++ rest).take n = (bytes.drop pos).take n :=
    List.take_append_of_le_length (by simp; omega)
  rw [field, hdrop, htake, field]

theorem field_one_lt (bytes : List UInt8) (pos : ℕ) : field bytes pos 1 < 256 := by
  rw [field]
  cases bytes.drop pos with
  | nil => simp [decodeLe]
  | cons b rest => simpa [decodeLe] using b.toNat_lt

def wordSum : List UInt8 → ℕ
  | a :: b :: bytes => decodeLe [a, b] + wordSum bytes
  | _ => 0

theorem wordSum_append {a : List UInt8} (heven : 2 ∣ a.length) (b : List UInt8) :
    wordSum (a ++ b) = wordSum a + wordSum b := by
  induction a using wordSum.induct with
  | case1 x y rest ih =>
      have hrest : 2 ∣ rest.length := by
        simp only [List.length_cons] at heven
        omega
      simp only [List.cons_append, wordSum, ih hrest]
      omega
  | case2 a hshort =>
      match a with
      | [] => simp [wordSum]
      | [x] => simp at heven
      | x :: y :: rest => exact (hshort x y rest rfl).elim

theorem wordSum_setField {bytes : List UInt8} {pos : ℕ} (hpos : 2 ∣ pos)
    (hfit : pos + 2 ≤ bytes.length) (v : ℕ) :
    wordSum (setField bytes pos 2 v) =
      wordSum (bytes.take pos) + v % 65536 + wordSum (bytes.drop (pos + 2)) := by
  have htake : (bytes.take pos).length = pos := by simp; omega
  have hword : wordSum (encodeLe 2 v) = v % 65536 := by
    have hvalue := decodeLe_encodeLe 2 v
    simpa [encodeLe, wordSum] using hvalue
  rw [setField, List.append_assoc, wordSum_append (by rw [htake]; exact hpos),
    wordSum_append (by simp), hword, Nat.add_assoc]

def bytesAt (mem : ℕ → UInt8) (a n : ℕ) : List UInt8 := (List.range n).map fun i => mem (a + i)

def blit (mem : ℕ → UInt8) (a : ℕ) (data : List UInt8) : ℕ → UInt8 :=
  fun x => if a ≤ x then (data[x - a]?).getD (mem x) else mem x

variable {mem : ℕ → UInt8} {a : ℕ}

@[simp] theorem bytesAt_length (mem : ℕ → UInt8) (a n : ℕ) : (bytesAt mem a n).length = n := by
  simp [bytesAt]

theorem bytesAt_getElem? {mem : ℕ → UInt8} {a n i : ℕ} (hi : i < n) :
    (bytesAt mem a n)[i]? = some (mem (a + i)) := by
  simp [bytesAt, hi]

theorem bytesAt_add (mem : ℕ → UInt8) (a m n : ℕ) :
    bytesAt mem a (m + n) = bytesAt mem a m ++ bytesAt mem (a + m) n := by
  simp only [bytesAt, List.range_add, List.map_append, List.map_map]
  congr 1
  refine List.map_congr_left fun i _ => ?_
  simp [Nat.add_assoc]

theorem blit_inside {data : List UInt8} {i : ℕ} (hi : i < data.length) :
    blit mem a data (a + i) = data[i] := by
  simp [blit, hi]

theorem blit_outside {data : List UInt8} {x : ℕ} (hx : x < a ∨ a + data.length ≤ x) :
    blit mem a data x = mem x := by
  unfold blit
  split
  · rw [List.getElem?_eq_none (by omega)]
    rfl
  · rfl

theorem bytesAt_blit_self (data : List UInt8) :
    bytesAt (blit mem a data) a data.length = data := by
  refine List.ext_getElem (by simp) fun i hi hi' => ?_
  simp [bytesAt, blit_inside hi']

theorem bytesAt_blit_disjoint {data : List UInt8} {b n : ℕ}
    (h : b + n ≤ a ∨ a + data.length ≤ b) :
    bytesAt (blit mem a data) b n = bytesAt mem b n := by
  refine List.map_congr_left fun i hi => blit_outside ?_
  have := List.mem_range.mp hi
  omega

end MuTegra.Foundation.ByteFields
