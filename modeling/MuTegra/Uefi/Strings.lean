/- Unit: MuTegra/Uefi/Strings
   scope: the string functions of the base library that the network code calls
   digest: Counted and null terminated texts of 8-bit characters. -/

import Mathlib.Data.List.TakeWhile

set_option autoImplicit false
set_option relaxedAutoImplicit false

namespace MuTegra.Uefi.Strings

def ascii (s : String) : List UInt8 := s.toList.map fun c => c.toNat.toUInt8

def wide (s : String) : List UInt16 := s.toList.map fun c => c.toNat.toUInt16

structure AsciiString where
  chars : List UInt8
  noNull : 0 ∉ chars
  deriving DecidableEq

structure UnicodeString where
  chars : List UInt16
  noNull : 0 ∉ chars
  deriving DecidableEq

structure WideBuffer where
  address : ℕ
  chars : List UInt16
  deriving DecidableEq

def asciiText (bytes : List UInt8) : List UInt8 := bytes.takeWhile (· ≠ 0)

/-- `AsciiStrnLenS`: the place of the terminator, or the size when there is none. -/
def asciiStrnLenS (bytes : List UInt8) (maxSize : ℕ) : ℕ := (asciiText (bytes.take maxSize)).length

def asciiStrnCmp (first second : List UInt8) : ℕ → ℤ
  | 0 => 0
  | length + 1 =>
      let a := first.headD 0
      let b := second.headD 0
      if a ≠ 0 ∧ b ≠ 0 ∧ a = b ∧ length ≠ 0 then asciiStrnCmp first.tail second.tail length
      else (a.toNat : ℤ) - b.toNat

def asciiLower (c : UInt8) : UInt8 := if 65 ≤ c ∧ c ≤ 90 then c + 32 else c

def asciiStriEq (first second : List UInt8) : Bool :=
  (asciiText first).map asciiLower = (asciiText second).map asciiLower

def maxUintn : ℕ := 4294967295

/-- The value of the leading digits, at most `maxUintn`. -/
def decimalDigits (value : ℕ) : List UInt8 → ℕ
  | [] => value
  | c :: cs =>
      if 48 ≤ c ∧ c ≤ 57 then
        if (maxUintn - (c.toNat - 48)) / 10 < value then maxUintn
        else decimalDigits (value * 10 + (c.toNat - 48)) cs
      else value

def asciiStrDecimalToUintn (bytes : List UInt8) : ℕ :=
  decimalDigits 0 ((asciiText bytes).dropWhile fun c => c = 32 ∨ c = 9)

theorem asciiStrnLenS_eq_iff {bytes : List UInt8} :
    asciiStrnLenS bytes bytes.length = bytes.length ↔ 0 ∉ bytes := by
  have hself : asciiText bytes = bytes ↔ 0 ∉ bytes := by
    unfold asciiText
    rw [List.takeWhile_eq_self_iff]
    constructor
    · intro h hmem
      simpa using h 0 hmem
    · intro h c hc
      simpa using fun h0 : c = 0 => h (h0 ▸ hc)
  rw [asciiStrnLenS, List.take_length, ← hself]
  exact ⟨fun h => (List.takeWhile_prefix _).eq_of_length h, fun h => congrArg List.length h⟩

theorem asciiStrnCmp_cons (a b : UInt8) (first second : List UInt8) (length : ℕ) :
    asciiStrnCmp (a :: first) (b :: second) (length + 1) =
      if a ≠ 0 ∧ b ≠ 0 ∧ a = b ∧ length ≠ 0 then asciiStrnCmp first second length
      else (a.toNat : ℤ) - b.toNat := rfl

theorem asciiStrnCmp_eq_zero_iff :
    ∀ {first second : List UInt8}, 0 ∉ first → second.length = first.length →
      (asciiStrnCmp first second first.length = 0 ↔ first = second) := by
  intro first
  induction first with
  | nil =>
      intro second _ hlen
      simp [asciiStrnCmp, List.length_eq_zero_iff.mp hlen]
  | cons a first ih =>
      intro second hnull hlen
      cases second with
      | nil => cases hlen
      | cons b second =>
          have ha : a ≠ 0 := fun h => hnull (h ▸ List.mem_cons_self)
          have hlen' : second.length = first.length := by simpa using hlen
          rw [List.length_cons, asciiStrnCmp_cons, List.cons.injEq]
          by_cases hab : a = b
          · subst hab
            by_cases hfirst : first.length = 0
            · rw [if_neg (fun h => h.2.2.2 hfirst), List.length_eq_zero_iff.mp hfirst,
                List.length_eq_zero_iff.mp (hlen'.trans hfirst)]
              simp
            · rw [if_pos ⟨ha, ha, rfl, hfirst⟩, ih (fun h => hnull (List.mem_cons_of_mem _ h)) hlen']
              simp
          · rw [if_neg (fun h => hab h.2.2.1)]
            constructor
            · intro h
              exact absurd (UInt8.toNat_inj.mp (by omega)) hab
            · exact fun h => absurd h.1 hab

end MuTegra.Uefi.Strings
