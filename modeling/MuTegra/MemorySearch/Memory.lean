/- Unit: MuTegra/MemorySearch/Memory
   source: Tegra30Pkg/Applications/UEFILoader/Memory.c
   digest: The substring search of the UEFI loader, with checked reads and machine-word indices. -/

import MuTegra.Foundation.Loops
import MuTegra.Foundation.MachineWords

/-!
Addresses are offsets from the start of the haystack. A read outside a buffer,
or of a shift-table entry that was never written, is a fault. `UINTN` is 32 bits
wide on the target, so `-1` and the sums made with it are taken modulo `2 ^ 32`.
-/

set_option autoImplicit false
set_option relaxedAutoImplicit false

namespace MuTegra.MemorySearch.Memory

open MuTegra.Foundation.Loops (loop)
open MuTegra.Foundation.MachineWords

structure Buffer where
  bytes : List UInt8
  fits : bytes.length < 4294967296

structure BaseMemoryLib where
  /-- Offset of the first byte equal to the value, or nothing. -/
  scanMem8 : List UInt8 → UInt8 → Option ℕ
  /-- Difference of two equally long buffers. -/
  compareMem : List UInt8 → List UInt8 → ℤ

/-- `ScanMem8` returns the first byte equal to the value, or NULL. -/
def ScanMem8Spec (lib : BaseMemoryLib) : Prop :=
  ∀ bytes value, lib.scanMem8 bytes value = bytes.findIdx? (· == value)

def CompareMemSpec (lib : BaseMemoryLib) : Prop :=
  ∀ a b, a.length = b.length → (lib.compareMem a b = 0 ↔ a = b)

/-- The bytes `[start, start + count)`, a fault when they are not all inside. -/
def slice (bytes : List UInt8) (start count : ℕ) : Option (List UInt8) :=
  if start + count ≤ bytes.length then some ((bytes.drop start).take count) else none

/-- One rolling comparison: the offset after the window, the bytes left and the window. -/
structure RollState where
  h : ℕ
  k : ℕ
  hw : ℕ
  deriving DecidableEq, Repr

def rollPass (push : ℕ → ℕ → ℕ) (width nw : ℕ) (hay : List UInt8) (s : RollState) :
    Option (RollState ⊕ Option ℕ) :=
  if s.k = 0 then
    some (.inr (if s.hw = nw then some (s.h - width) else none))
  else if s.hw = nw then
    some (.inr (some (s.h - width)))
  else do
    let b ← hay[s.h]?
    some (.inl { h := s.h + 1, k := s.k - 1, hw := push s.hw b.toNat })

def twobyteMemmem (fuel : ℕ) (hay : List UInt8) (h k : ℕ) (n : List UInt8) :
    Option (Option ℕ) := do
  let n0 ← n[0]?
  let n1 ← n[1]?
  let h0 ← hay[h]?
  let h1 ← hay[h + 1]?
  let nw := toUint16 (n0.toNat <<< 8 ||| n1.toNat)
  let hw := toUint16 (h0.toNat <<< 8 ||| h1.toNat)
  loop (rollPass (fun hw b => toUint16 (hw <<< 8 ||| b)) 2 nw hay) fuel
    { h := h + 2, k := k - 2, hw := hw }

def threebyteMemmem (fuel : ℕ) (hay : List UInt8) (h k : ℕ) (n : List UInt8) :
    Option (Option ℕ) := do
  let n0 ← n[0]?
  let n1 ← n[1]?
  let n2 ← n[2]?
  let h0 ← hay[h]?
  let h1 ← hay[h + 1]?
  let h2 ← hay[h + 2]?
  let nw := toUint32 (n0.toNat <<< 24 ||| n1.toNat <<< 16 ||| n2.toNat <<< 8)
  let hw := toUint32 (h0.toNat <<< 24 ||| h1.toNat <<< 16 ||| h2.toNat <<< 8)
  loop (rollPass (fun hw b => toUint32 ((hw ||| b) <<< 8)) 3 nw hay) fuel
    { h := h + 3, k := k - 3, hw := hw }

def fourbyteMemmem (fuel : ℕ) (hay : List UInt8) (h k : ℕ) (n : List UInt8) :
    Option (Option ℕ) := do
  let n0 ← n[0]?
  let n1 ← n[1]?
  let n2 ← n[2]?
  let n3 ← n[3]?
  let h0 ← hay[h]?
  let h1 ← hay[h + 1]?
  let h2 ← hay[h + 2]?
  let h3 ← hay[h + 3]?
  let nw := toUint32 (n0.toNat <<< 24 ||| n1.toNat <<< 16 ||| n2.toNat <<< 8 ||| n3.toNat)
  let hw := toUint32 (h0.toNat <<< 24 ||| h1.toNat <<< 16 ||| h2.toNat <<< 8 ||| h3.toNat)
  loop (rollPass (fun hw b => toUint32 (hw <<< 8 ||| b)) 4 nw hay) fuel
    { h := h + 4, k := k - 4, hw := hw }

/-- The byte set, eight machine words, and the partly initialised shift table. -/
structure Tables where
  byteset : ℕ → ℕ
  shift : ℕ → Option ℕ

def Tables.blank : Tables := { byteset := fun _ => 0, shift := fun _ => none }

/-- `BITOP(byteset, b, |=)` followed by `shift[b] = value`. -/
def Tables.mark (t : Tables) (b value : ℕ) : Tables where
  byteset w := if w = b / 32 then t.byteset w ||| 1 <<< (b % 32) else t.byteset w
  shift v := if v = b then some value else t.shift v

/-- `BITOP(byteset, b, &)`. -/
def Tables.inSet (t : Tables) (b : ℕ) : Bool := (t.byteset (b / 32) &&& 1 <<< (b % 32)) != 0

def fillTables : ℕ → List UInt8 → Tables → Tables
  | _, [], t => t
  | i, b :: n, t => fillTables (i + 1) n (t.mark b.toNat (i + 1))

structure SuffixState where
  ip : ℕ
  jp : ℕ
  k : ℕ
  p : ℕ
  deriving DecidableEq, Repr

def SuffixState.initial : SuffixState := { ip := subUint32 0 1, jp := 0, k := 1, p := 1 }

/-- A pass of the maximal-suffix loop; `after` is the letter comparison of the copy. -/
def maximalSuffixPass (after : UInt8 → UInt8 → Bool) (n : List UInt8) (s : SuffixState) :
    Option (SuffixState ⊕ SuffixState) :=
  if toUint32 (s.jp + s.k) < n.length then do
    let a ← n[toUint32 (s.ip + s.k)]?
    let b ← n[toUint32 (s.jp + s.k)]?
    if a = b then
      if s.k = s.p then
        some (.inl { s with jp := toUint32 (s.jp + s.p), k := 1 })
      else
        some (.inl { s with k := toUint32 (s.k + 1) })
    else if after a b then
      let jp := toUint32 (s.jp + s.k)
      some (.inl { s with jp := jp, k := 1, p := subUint32 jp s.ip })
    else
      some (.inl { ip := s.jp, jp := toUint32 (s.jp + 1), k := 1, p := 1 })
  else
    some (.inr s)

def maximalSuffix (after : UInt8 → UInt8 → Bool) (fuel : ℕ) (n : List UInt8) :
    Option SuffixState :=
  loop (maximalSuffixPass after n) fuel .initial

/-- The cut `ms`, the shift period `p` and the memory `mem0` chosen for a needle. -/
structure Factorization where
  ms : ℕ
  p : ℕ
  mem0 : ℕ
  deriving DecidableEq, Repr

def factorize (lib : BaseMemoryLib) (fuel : ℕ) (n : List UInt8) : Option Factorization := do
  let l := n.length
  let first ← maximalSuffix (fun a b => decide (a > b)) fuel n
  let second ← maximalSuffix (fun a b => decide (a < b)) fuel n
  let (ms, p) :=
    if toUint32 (second.ip + 1) > toUint32 (first.ip + 1) then (second.ip, second.p)
    else (first.ip, first.p)
  let head ← slice n 0 (toUint32 (ms + 1))
  let shifted ← slice n p (toUint32 (ms + 1))
  if lib.compareMem head shifted ≠ 0 then
    some { ms := ms, p := toUint32 (max ms (subUint32 (subUint32 l ms) 1) + 1), mem0 := 0 }
  else
    some { ms := ms, p := p, mem0 := subUint32 l p }

structure SearchState where
  h : ℕ
  mem : ℕ
  deriving DecidableEq, Repr

/-- The right-half comparison from `k` with `count` letters to go: the first
difference, or the needle length. -/
def compareRight (hay n : List UInt8) (h : ℕ) : ℕ → ℕ → Option ℕ
  | 0, k => some k
  | count + 1, k => do
      let a ← n[k]?
      let b ← hay[h + k]?
      if a = b then compareRight hay n h count (k + 1) else some k

/-- The left-half comparison downwards from `k` to the remembered prefix. -/
def compareLeft (hay n : List UInt8) (h mem : ℕ) : ℕ → Option ℕ
  | 0 => some 0
  | k + 1 =>
      if k + 1 > mem then do
        let a ← n[k]?
        let b ← hay[h + k]?
        if a = b then compareLeft hay n h mem k else some (k + 1)
      else
        some (k + 1)

def comparePass (f : Factorization) (hay n : List UInt8) (s : SearchState) :
    Option (SearchState ⊕ Option ℕ) := do
  let l := n.length
  let start := max (toUint32 (f.ms + 1)) s.mem
  let k ← compareRight hay n s.h (l - start) start
  if k < l then
    some (.inl { h := s.h + subUint32 k f.ms, mem := 0 })
  else
    let k ← compareLeft hay n s.h s.mem (toUint32 (f.ms + 1))
    if k ≤ s.mem then some (.inr (some s.h))
    else some (.inl { h := s.h + f.p, mem := f.mem0 })

/-- A pass of the search loop over the haystack part ending at `z`. -/
def searchPass (f : Factorization) (t : Tables) (hay n : List UInt8) (z : ℕ)
    (s : SearchState) : Option (SearchState ⊕ Option ℕ) :=
  let l := n.length
  if subUint32 z s.h < l then
    some (.inr none)
  else do
    let last ← hay[s.h + (l - 1)]?
    if t.inSet last.toNat then
      let entry ← t.shift last.toNat
      let k := subUint32 l entry
      if k ≠ 0 then
        let k := if f.mem0 ≠ 0 ∧ s.mem ≠ 0 ∧ k < f.p then subUint32 l f.p else k
        some (.inl { h := s.h + k, mem := 0 })
      else
        comparePass f hay n s
    else
      some (.inl { h := s.h + l, mem := 0 })

def twowayMemmem (lib : BaseMemoryLib) (fuel : ℕ) (hay : List UInt8) (h z : ℕ)
    (n : List UInt8) : Option (Option ℕ) := do
  let f ← factorize lib fuel n
  loop (searchPass f (fillTables 0 n .blank) hay n z) fuel { h := h, mem := 0 }

/-- The public search. The outer option is the run (fault or too little fuel), the
inner one the returned address, `none` for NULL. -/
def memmem (lib : BaseMemoryLib) (fuel : ℕ) (hay needle : Buffer) : Option (Option ℕ) :=
  let k := hay.bytes.length
  let l := needle.bytes.length
  if l = 0 then some (some 0)
  else if k < l then some none
  else do
    let n0 ← needle.bytes[0]?
    match lib.scanMem8 hay.bytes n0 with
    | none => some none
    | some h =>
        if l = 1 then some (some h)
        else
          let k := k - h
          if k < l then some none
          else if l = 2 then twobyteMemmem fuel hay.bytes h k needle.bytes
          else if l = 3 then threebyteMemmem fuel hay.bytes h k needle.bytes
          else if l = 4 then fourbyteMemmem fuel hay.bytes h k needle.bytes
          else twowayMemmem lib fuel hay.bytes h (h + k) needle.bytes

end MuTegra.MemorySearch.Memory
