/- Unit: MuTegra/MemorySearch/SuffixLoops
   source: Tegra30Pkg/Applications/UEFILoader/Memory.c
   digest: Each maximal-suffix loop of the loader runs the scan, in wrapping registers. -/

import MuTegra.Foundation.Words.SuffixScan
import MuTegra.MemorySearch.Memory

set_option autoImplicit false
set_option relaxedAutoImplicit false

namespace MuTegra.MemorySearch.SuffixLoops

open MuTegra.Foundation.Loops (PassOk loop_total)
open MuTegra.Foundation.MachineWords
open MuTegra.Foundation.Words.SuffixScan
open MuTegra.MemorySearch.Memory

def letters (bytes : List UInt8) (i : ℕ) : ℕ := (bytes.getD i 0).toNat

theorem letters_eq {bytes : List UInt8} {i : ℕ} {b : UInt8} (h : bytes[i]? = some b) :
    letters bytes i = b.toNat := by
  simp [letters, List.getD_eq_getElem?_getD, h]

theorem read_letter (bytes : List UInt8) {i : ℕ} (h : i < bytes.length) :
    ∃ b, bytes[i]? = some b ∧ letters bytes i = b.toNat :=
  ⟨bytes[i], List.getElem?_eq_getElem h, letters_eq (List.getElem?_eq_getElem h)⟩

/-- The registers hold the scan position: `ip` is one before the candidate, with
wrap-around, and `jp`, `k` are one before and one after the scan's own counters. -/
structure Tracks (below : ℕ → ℕ → Prop) (n : List UInt8) (i j t : ℕ) (s : SuffixState) :
    Prop where
  ip : s.ip = subUint32 i 1
  jp : s.jp + 1 = j
  k : s.k = t + 1
  scan : Scan below (letters n) n.length i j t s.p

def Scanning (below : ℕ → ℕ → Prop) (n : List UInt8) (s : SuffixState) : Prop :=
  ∃ i j t, Tracks below n i j t s

def remaining (n : List UInt8) (s : SuffixState) : ℕ :=
  2 * n.length + 1 - (toUint32 (s.ip + 1) + s.jp + s.k)

def Decides (below : ℕ → ℕ → Prop) (after : UInt8 → UInt8 → Bool) : Prop :=
  ∀ a b, after a b = true ↔ below b.toNat a.toNat

theorem decides_greater : Decides (· < ·) (fun a b => decide (a > b)) := by
  intro a b
  rw [decide_eq_true_iff]
  exact UInt8.lt_iff_toNat_lt

theorem decides_less : Decides (Function.swap (· < ·)) (fun a b => decide (a < b)) := by
  intro a b
  rw [decide_eq_true_iff]
  exact UInt8.lt_iff_toNat_lt

variable {below : ℕ → ℕ → Prop} {after : UInt8 → UInt8 → Bool} {n : List UInt8} {i j t : ℕ}
    {s : SuffixState}

theorem subUint32_one_add {i : ℕ} (hi : i < 4294967296) : toUint32 (subUint32 i 1 + 1) = i := by
  unfold subUint32 toUint32
  omega

theorem Tracks.initial (hpos : 0 < n.length) : Tracks below n 0 1 0 .initial where
  ip := rfl
  jp := rfl
  k := rfl
  scan := Scan.start hpos

private theorem Tracks.addresses (h : Tracks below n i j t s) (hfits : n.length < 4294967296) :
    toUint32 (s.jp + s.k) = j + t ∧ toUint32 (s.ip + s.k) = i + t ∧
      toUint32 (s.ip + 1) = i := by
  have hroom := h.scan.room
  have horder := h.scan.order
  have hjp := h.jp
  have hsum : s.jp + s.k = j + t := by rw [h.k]; omega
  refine ⟨?_, ?_, ?_⟩
  · rw [hsum]
    exact toUint32_of_lt (by omega)
  · rw [h.ip, h.k]
    unfold subUint32 toUint32
    omega
  · rw [h.ip]
    exact subUint32_one_add (by omega)

private theorem Tracks.remaining_eq (h : Tracks below n i j t s)
    (hfits : n.length < 4294967296) : remaining n s = 2 * n.length + 1 - (i + j + t) := by
  have hjp := h.jp
  have hsum : s.jp + s.k = j + t := by rw [h.k]; omega
  unfold remaining
  rw [(h.addresses hfits).2.2, Nat.add_assoc, hsum, Nat.add_assoc]

private theorem Tracks.advance {s' : SuffixState} {i' j' t' : ℕ}
    (h : Tracks below n i j t s) (hfits : n.length < 4294967296)
    (hbody : maximalSuffixPass after n s = some (.inl s')) (h' : Tracks below n i' j' t' s')
    (hlater : i + j + t < i' + j' + t') {post : SuffixState → Prop} :
    PassOk (maximalSuffixPass after n) (Scanning below n) (remaining n) post s := by
  refine Or.inl ⟨s', hbody, ⟨i', j', t', h'⟩, ?_⟩
  have horder := h'.scan.order
  have hroom := h'.scan.room
  rw [h.remaining_eq hfits, h'.remaining_eq hfits]
  omega

/-- What the loop leaves in `ip` and `p`. -/
def Finished (below : ℕ → ℕ → Prop) (n : List UInt8) (s : SuffixState) : Prop :=
  ∃ c, s.ip = subUint32 c 1 ∧ Result below (letters n) n.length c s.p

private theorem Tracks.pass_eq (h : Tracks below n i j t s) (hfits : n.length < 4294967296)
    (hguard : j + t < n.length) :
    ∃ a b : UInt8, letters n (i + t) = a.toNat ∧ letters n (j + t) = b.toNat ∧
      maximalSuffixPass after n s =
        if a = b then
          if s.k = s.p then some (.inl { s with jp := toUint32 (s.jp + s.p), k := 1 })
          else some (.inl { s with k := toUint32 (s.k + 1) })
        else if after a b then
          some (.inl { s with jp := j + t, k := 1, p := subUint32 (j + t) s.ip })
        else some (.inl { ip := s.jp, jp := toUint32 (s.jp + 1), k := 1, p := 1 }) := by
  obtain ⟨hj, hi, _⟩ := h.addresses hfits
  have horder := h.scan.order
  obtain ⟨a, ha, hla⟩ := read_letter n (show i + t < n.length by omega)
  obtain ⟨b, hb, hlb⟩ := read_letter n hguard
  refine ⟨a, b, hla, hlb, ?_⟩
  unfold maximalSuffixPass
  rw [hj, hi, if_pos hguard, ha, hb]
  rfl

/-- Equal letters at the end of a block: the challenger moves on by the period. -/
private theorem Tracks.complete (h : Tracks below n i j t s) (hfits : n.length < 4294967296)
    (hguard : j + t < n.length) (heq : letters n (i + t) = letters n (j + t))
    (hfull : s.k = s.p) :
    Tracks below n i (j + s.p) 0 { s with jp := toUint32 (s.jp + s.p), k := 1 } := by
  have hjp := h.jp
  have hk := h.k
  have hshort := h.scan.short
  have hnowrap : toUint32 (s.jp + s.p) = s.jp + s.p := toUint32_of_lt (by omega)
  refine ⟨h.ip, ?_, rfl, h.scan.complete hguard heq (by omega)⟩
  change toUint32 (s.jp + s.p) + 1 = j + s.p
  omega

private theorem Tracks.extend (h : Tracks below n i j t s) (hfits : n.length < 4294967296)
    (hguard : j + t < n.length) (heq : letters n (i + t) = letters n (j + t))
    (hfull : s.k ≠ s.p) : Tracks below n i j (t + 1) { s with k := toUint32 (s.k + 1) } := by
  have hk := h.k
  have hshort := h.scan.short
  have hblock := h.scan.block_le
  have hnowrap : toUint32 (s.k + 1) = s.k + 1 := toUint32_of_lt (by omega)
  refine ⟨h.ip, h.jp, ?_, h.scan.extend hguard heq (by omega)⟩
  change toUint32 (s.k + 1) = t + 1 + 1
  rw [hnowrap, hk]

variable [IsStrictTotalOrder ℕ below]

private theorem Tracks.drop (h : Tracks below n i j t s) (hfits : n.length < 4294967296)
    (hguard : j + t < n.length) (hdown : below (letters n (j + t)) (letters n (i + t))) :
    Tracks below n i (j + t + 1) 0 { s with jp := j + t, k := 1, p := subUint32 (j + t) s.ip } := by
  have horder := h.scan.order
  have hperiod : subUint32 (j + t) s.ip = j + t + 1 - i := by
    rw [h.ip]
    unfold subUint32 toUint32
    omega
  rw [hperiod]
  exact ⟨h.ip, rfl, rfl, h.scan.drop hguard hdown⟩

private theorem Tracks.restart (h : Tracks below n i j t s) (hfits : n.length < 4294967296)
    (hguard : j + t < n.length) (hup : below (letters n (i + t)) (letters n (j + t))) :
    Tracks below n j (j + 1) 0 { ip := s.jp, jp := toUint32 (s.jp + 1), k := 1, p := 1 } := by
  have hjp := h.jp
  have horder := h.scan.order
  have hnowrap : toUint32 (s.jp + 1) = j := by
    rw [hjp]
    exact toUint32_of_lt (by omega)
  refine ⟨?_, by simp only [hnowrap], rfl, h.scan.restart hguard hup⟩
  change s.jp = subUint32 j 1
  rw [subUint32_of_le (by omega) (by omega)]
  omega

private theorem Tracks.pass (h : Tracks below n i j t s) (hfits : n.length < 4294967296)
    (hafter : Decides below after) :
    PassOk (maximalSuffixPass after n) (Scanning below n) (remaining n) (Finished below n) s := by
  have hshort := h.scan.short
  have hblock := h.scan.block_le
  by_cases hguard : j + t < n.length
  · obtain ⟨a, b, hla, hlb, hpass⟩ := @Tracks.pass_eq below after n i j t s h hfits hguard
    by_cases hab : a = b
    · have heq : letters n (i + t) = letters n (j + t) := by rw [hla, hlb, hab]
      rw [if_pos hab] at hpass
      by_cases hfull : s.k = s.p
      · rw [if_pos hfull] at hpass
        exact h.advance hfits hpass (h.complete hfits hguard heq hfull) (by have := h.k; omega)
      · rw [if_neg hfull] at hpass
        exact h.advance hfits hpass (h.extend hfits hguard heq hfull) (by omega)
    · rw [if_neg hab] at hpass
      cases hcmp : after a b with
      | true =>
          have hdown : below (letters n (j + t)) (letters n (i + t)) := by
            rw [hla, hlb]
            exact (hafter a b).mp hcmp
          rw [if_pos hcmp] at hpass
          exact h.advance hfits hpass (h.drop hfits hguard hdown) (by omega)
      | false =>
          have hup : below (letters n (i + t)) (letters n (j + t)) := by
            rcases trichotomous_of below (letters n (i + t)) (letters n (j + t)) with
              hlt | heq | hgt
            · exact hlt
            · rw [hla, hlb] at heq
              exact absurd (UInt8.toNat_inj.mp heq) hab
            · rw [hla, hlb] at hgt
              rw [(hafter a b).mpr hgt] at hcmp
              cases hcmp
          rw [if_neg (by rw [hcmp]; exact Bool.false_ne_true)] at hpass
          exact h.advance hfits hpass (h.restart hfits hguard hup) (by omega)
  · have hroom := h.scan.room
    obtain ⟨hj, _, _⟩ := h.addresses hfits
    refine Or.inr ⟨s, by simp [maximalSuffixPass, hj, hguard], i, h.ip, ?_⟩
    exact h.scan.finish (by omega)

/-- A maximal-suffix loop on a nonempty needle ends without a fault, one before the
maximal suffix and with that suffix's smallest period. -/
theorem maximalSuffix_spec (hafter : Decides below after) (hpos : 0 < n.length)
    (hfits : n.length < 4294967296) {fuel : ℕ} (enough : 2 * n.length < fuel) :
    ∃ s, maximalSuffix after fuel n = some s ∧ Finished below n s := by
  have hstart : Tracks below n 0 1 0 SuffixState.initial := Tracks.initial hpos
  apply loop_total (Scanning below n) (remaining n) _ fuel _ ⟨0, 1, 0, hstart⟩
  · rw [hstart.remaining_eq hfits]
    omega
  · rintro s ⟨i, j, t, h⟩
    exact h.pass hfits hafter

end MuTegra.MemorySearch.SuffixLoops
