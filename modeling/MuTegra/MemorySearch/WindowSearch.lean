/- Unit: MuTegra/MemorySearch/WindowSearch
   source: Tegra30Pkg/Applications/UEFILoader/Memory.c
   digest: The sliding window of the two-way matcher never passes an occurrence. -/

import MuTegra.MemorySearch.TwoWay

set_option autoImplicit false
set_option relaxedAutoImplicit false

namespace MuTegra.MemorySearch.WindowSearch

open MuTegra.Foundation.Loops (PassOk loop_total)
open MuTegra.Foundation.MachineWords
open MuTegra.Foundation.Words.Periods
open MuTegra.Foundation.Words.Occurrence
open MuTegra.MemorySearch.Memory
open MuTegra.MemorySearch.SuffixLoops
open MuTegra.MemorySearch.TwoWay

theorem letters_inj {a b : List UInt8} {i j : ℕ} (hi : i < a.length) (hj : j < b.length) :
    letters a i = letters b j ↔ a[i]? = b[j]? := by
  obtain ⟨u, hu, hlu⟩ := read_letter a hi
  obtain ⟨v, hv, hlv⟩ := read_letter b hj
  rw [hlu, hlv, hu, hv, UInt8.toNat_inj, Option.some_inj]

theorem occursAt_letters {hay n : List UInt8} {i : ℕ} :
    OccursAt hay n i ↔
      i + n.length ≤ hay.length ∧ Carries (letters n) n.length (letters hay) i := by
  rw [occursAt_iff]
  refine and_congr_right fun hfit => forall_congr' fun t => ?_
  refine imp_congr_right fun ht => ?_
  rw [letters_inj (show i + t < hay.length by omega) ht]

variable {hay n : List UInt8} {f : Factorization} {c : ℕ} {s : SearchState}

theorem compareRight_spec {h : ℕ} (hfit : h + n.length ≤ hay.length) (count k : ℕ)
    (hk : k + count = n.length) :
    ∃ k', compareRight hay n h count k = some k' ∧ k ≤ k' ∧ k' ≤ n.length ∧
      (∀ t, k ≤ t → t < k' → letters hay (h + t) = letters n t) ∧
      (k' < n.length → letters hay (h + k') ≠ letters n k') := by
  induction count generalizing k with
  | zero => exact ⟨k, rfl, le_rfl, by omega, fun t _ _ => by omega, fun _ => by omega⟩
  | succ count ih =>
      obtain ⟨a, ha, hla⟩ := read_letter n (show k < n.length by omega)
      obtain ⟨b, hb, hlb⟩ := read_letter hay (show h + k < hay.length by omega)
      simp only [compareRight, ha, hb, Option.bind_eq_bind, Option.bind_some]
      by_cases hab : a = b
      · obtain ⟨k', hrun, hle, hbound, hmatch, hstop⟩ := ih (k + 1) (by omega)
        rw [if_pos hab]
        refine ⟨k', hrun, by omega, hbound, fun t hkt htk => ?_, hstop⟩
        rcases Nat.eq_or_lt_of_le hkt with heq | hlt
        · rw [← heq, hla, hlb, hab]
        · exact hmatch t hlt htk
      · rw [if_neg hab]
        refine ⟨k, rfl, le_rfl, by omega, fun t _ _ => by omega, fun _ hread => hab ?_⟩
        rw [hla, hlb, UInt8.toNat_inj] at hread
        exact hread.symm

theorem compareLeft_spec {h : ℕ} (mem : ℕ) (hfit : h + n.length ≤ hay.length) (k : ℕ)
    (hk : k ≤ n.length) :
    ∃ k', compareLeft hay n h mem k = some k' ∧ k' ≤ k ∧
      (∀ t, k' ≤ t → t < k → letters hay (h + t) = letters n t) ∧
      (mem < k' → letters hay (h + (k' - 1)) ≠ letters n (k' - 1)) := by
  induction k with
  | zero => exact ⟨0, rfl, le_rfl, fun t _ _ => by omega, fun _ => by omega⟩
  | succ k ih =>
      unfold compareLeft
      by_cases hmem : k + 1 > mem
      · obtain ⟨a, ha, hla⟩ := read_letter n (show k < n.length by omega)
        obtain ⟨b, hb, hlb⟩ := read_letter hay (show h + k < hay.length by omega)
        simp only [if_pos hmem, ha, hb, Option.bind_eq_bind, Option.bind_some]
        by_cases hab : a = b
        · obtain ⟨k', hrun, hle, hmatch, hstop⟩ := ih (by omega)
          rw [if_pos hab]
          refine ⟨k', hrun, by omega, fun t hkt htk => ?_, hstop⟩
          rcases Nat.eq_or_lt_of_le (Nat.le_of_lt_succ htk) with heq | hlt
          · rw [heq, hla, hlb, hab]
          · exact hmatch t hkt hlt
        · rw [if_neg hab]
          refine ⟨k + 1, rfl, le_rfl, fun t _ _ => by omega, fun _ hread => hab ?_⟩
          rw [Nat.add_sub_cancel, hla, hlb, UInt8.toNat_inj] at hread
          exact hread.symm
      · rw [if_neg hmem]
        exact ⟨k + 1, rfl, le_rfl, fun t _ _ => by omega, fun hlt => by omega⟩

/-- The window invariant: nothing has been passed, and a nonzero memory is the
factorization's and is matched. -/
structure Window (hay n : List UInt8) (f : Factorization) (s : SearchState) : Prop where
  inside : s.h ≤ hay.length
  passed : ∀ j < s.h, ¬ OccursAt hay n j
  memory : s.mem = 0 ∨ (f.mem0 ≠ 0 ∧ s.mem = f.mem0)
  matched : ∀ t < s.mem, letters hay (s.h + t) = letters n t

abbrev WindowOk (body : SearchState → Option (SearchState ⊕ Option ℕ))
    (hay n : List UInt8) (f : Factorization) (s : SearchState) : Prop :=
  PassOk body (Window hay n f) (fun s => hay.length - s.h) (FirstOccurrence hay n) s

private theorem Window.shift (h : Window hay n f s) {body} {k mem : ℕ}
    (hbody : body s = some (.inl { h := s.h + k, mem := mem }))
    (hk : 0 < k) (hfit : s.h + n.length ≤ hay.length) (hkl : k ≤ n.length)
    (hskip : ∀ d < k, ¬ Carries (letters n) n.length (letters hay) (s.h + d))
    (hmem : mem = 0 ∨ (f.mem0 ≠ 0 ∧ mem = f.mem0))
    (hmatched : ∀ t < mem, letters hay (s.h + k + t) = letters n t) :
    WindowOk body hay n f s := by
  refine Or.inl ⟨_, hbody, ⟨?_, fun j hj hocc => ?_, hmem, hmatched⟩, ?_⟩
  · change s.h + k ≤ hay.length
    omega
  · rcases Nat.lt_or_ge j s.h with hlt | hge
    · exact h.passed j hlt hocc
    · obtain ⟨d, rfl⟩ := Nat.exists_eq_add_of_le hge
      change s.h + d < s.h + k at hj
      exact hskip d (by omega) (occursAt_letters.mp hocc).2
  · change hay.length - (s.h + k) < hay.length - s.h
    omega

private theorem Window.shift_forget (h : Window hay n f s) {body} {k : ℕ}
    (hbody : body s = some (.inl { h := s.h + k, mem := 0 }))
    (hk : 0 < k) (hfit : s.h + n.length ≤ hay.length) (hkl : k ≤ n.length)
    (hskip : ∀ d < k, ¬ Carries (letters n) n.length (letters hay) (s.h + d)) :
    WindowOk body hay n f s :=
  h.shift hbody hk hfit hkl hskip (Or.inl rfl) fun _ ht => absurd ht (Nat.not_lt_zero _)

theorem Factored.p_le (hf : Factored n f c) : f.p ≤ n.length := by
  have hinside := hf.inside
  obtain ⟨P, hP, hle⟩ := exists_smallestPeriod (letters n) (show 0 < n.length by omega)
  exact (hf.safe P hP).trans hle

/-- A comparison pass in terms of the cut: how far the right half agrees decides. -/
theorem comparePass_of_right (hms : f.ms = subUint32 c 1) (hfits : n.length < 4294967296) {k : ℕ}
    (hright : compareRight hay n s.h (n.length - max c s.mem) (max c s.mem) = some k)
    (hck : c ≤ k) (hk : k ≤ n.length) :
    comparePass f hay n s =
      if k < n.length then some (.inl { h := s.h + (k - c + 1), mem := 0 })
      else (compareLeft hay n s.h s.mem c).bind fun k =>
        if k ≤ s.mem then some (.inr (some s.h))
        else some (.inl { h := s.h + f.p, mem := f.mem0 }) := by
  have hcut : toUint32 (f.ms + 1) = c := by
    rw [hms]
    exact subUint32_one_add (by omega)
  simp only [comparePass, hcut, hright, Option.bind_eq_bind, Option.bind_some]
  by_cases hkl : k < n.length
  · have hadvance : subUint32 k f.ms = k - c + 1 := by
      rw [hms]
      unfold subUint32 toUint32
      omega
    rw [if_pos hkl, if_pos hkl, hadvance]
  · rw [if_neg hkl, if_neg hkl]

private theorem Window.compare (h : Window hay n f s) (hf : Factored n f c)
    (hfits : n.length < 4294967296) (hfit : s.h + n.length ≤ hay.length) {body}
    (hbody : body s = comparePass f hay n s) : WindowOk body hay n f s := by
  have hinside := hf.inside
  have hmemle : s.mem ≤ n.length := by
    rcases h.memory with hz | ⟨hne, hmem⟩
    · omega
    · have := (hf.memory hne).1
      omega
  obtain ⟨k, hright, hge, hle, hmatch, hstop⟩ := compareRight_spec hfit
    (n.length - max c s.mem) (max c s.mem) (by omega)
  have hread (t : ℕ) (hct : c ≤ t) (htk : t < k) : letters hay (s.h + t) = letters n t := by
    rcases Nat.lt_or_ge t s.mem with hlt | hmem
    · exact h.matched t hlt
    · exact hmatch t (max_le hct hmem) htk
  rw [comparePass_of_right hf.ms hfits hright (by omega) hle] at hbody
  by_cases hkl : k < n.length
  · rw [if_pos hkl] at hbody
    refine h.shift_forget hbody (Nat.succ_pos _) hfit (by omega) fun d hd => ?_
    exact skip_right hf.critical (by omega) hkl hread (hstop hkl) hd
  · have hkfull : k = n.length := by omega
    subst hkfull
    obtain ⟨k', hleft, hle', hmatch', hstop'⟩ := compareLeft_spec s.mem hfit c (by omega)
    rw [if_neg hkl, hleft, Option.bind_some] at hbody
    by_cases hfound : k' ≤ s.mem
    · rw [if_pos hfound] at hbody
      refine Or.inr ⟨_, hbody, occursAt_letters.mpr ⟨hfit, fun t ht => ?_⟩, h.passed⟩
      rcases Nat.lt_or_ge t c with htc | hct
      · rcases Nat.lt_or_ge t s.mem with htm | hmt
        · exact h.matched t htm
        · exact hmatch' t (by omega) htc
      · exact hread t hct ht
    · rw [if_neg hfound] at hbody
      obtain ⟨P, hP, _⟩ := exists_smallestPeriod (letters n) (show 0 < n.length by omega)
      have hsafe := hf.safe P hP
      have hfail : ¬ Carries (letters n) n.length (letters hay) s.h := fun hocc =>
        hstop' (by omega) (hocc (k' - 1) (by omega))
      refine h.shift hbody hf.pos hfit (Factored.p_le hf)
        (fun d hd => skip_left hf.critical hP hread hfail (by omega)) ?_ fun t ht => ?_
      · by_cases hzero : f.mem0 = 0
        · exact Or.inl hzero
        · exact Or.inr ⟨hzero, rfl⟩
      · obtain ⟨hmem0, hper, hcp⟩ := hf.memory (by omega)
        exact keep_memory hper hcp hread t (hmem0 ▸ ht)

/-- What a search pass comes to. Where it shifts, the letter under the needle's end does not occur
in the needle from `e` on. -/
inductive Searched (hay n : List UInt8) (f : Factorization) (s : SearchState) :
    Option (SearchState ⊕ Option ℕ) → Prop
  | short (nofit : hay.length < s.h + n.length) : Searched hay n f s (some (.inr none))
  | remembered {e : ℕ} (fit : s.h + n.length ≤ hay.length) (before : e < n.length)
      (foreign : ∀ i, e ≤ i → i < n.length →
        letters n i ≠ letters hay (s.h + (n.length - 1)))
      (memory : f.mem0 ≠ 0 ∧ s.mem ≠ 0 ∧ n.length - e < f.p) :
      Searched hay n f s (some (.inl { h := s.h + (n.length - f.p), mem := 0 }))
  | shifted {e : ℕ} (fit : s.h + n.length ≤ hay.length) (before : e < n.length)
      (foreign : ∀ i, e ≤ i → i < n.length →
        letters n i ≠ letters hay (s.h + (n.length - 1))) :
      Searched hay n f s (some (.inl { h := s.h + (n.length - e), mem := 0 }))
  | compared (fit : s.h + n.length ≤ hay.length) : Searched hay n f s (comparePass f hay n s)

theorem searchPass_searched (hinside : s.h ≤ hay.length) (hhay : hay.length < 4294967296)
    (hpos : 0 < n.length) (hfits : n.length < 4294967296) (hp : f.p ≤ n.length) {t : Tables}
    (ht : Marks t n) : Searched hay n f s (searchPass f t hay n hay.length s) := by
  have hrest : subUint32 hay.length s.h = hay.length - s.h := subUint32_of_le hinside hhay
  by_cases hshort : hay.length - s.h < n.length
  · rw [searchPass, hrest, if_pos hshort]
    exact .short (by omega)
  have hfit : s.h + n.length ≤ hay.length := by omega
  obtain ⟨b, hb, -⟩ := read_letter hay (show s.h + (n.length - 1) < hay.length by omega)
  have hother (i : ℕ) (hi : i < n.length) (hread : n[i]? ≠ some b) :
      letters n i ≠ letters hay (s.h + (n.length - 1)) := by
    rwa [Ne, letters_inj hi (by omega), hb]
  have hroom : ¬ subUint32 hay.length s.h < n.length := by
    rwa [hrest]
  simp only [searchPass, if_neg hroom, hb, Option.bind_eq_bind, Option.bind_some]
  by_cases hset : t.inSet b.toNat = true
  · obtain ⟨e, hentry, hepos, hele, -, hafter⟩ := ht.last b ((ht.member b).mp hset)
    have hforeign (i : ℕ) (hei : e ≤ i) (hi : i < n.length) := hother i hi (hafter i hei)
    rw [if_pos hset, hentry, Option.bind_some, subUint32_of_le hele hfits,
      subUint32_of_le hp hfits]
    by_cases hk : n.length - e ≠ 0
    · rw [if_pos hk]
      by_cases hmem : f.mem0 ≠ 0 ∧ s.mem ≠ 0 ∧ n.length - e < f.p
      · rw [if_pos hmem]
        exact .remembered hfit (by omega) hforeign hmem
      · rw [if_neg hmem]
        exact .shifted hfit (by omega) hforeign
    · rw [if_neg hk]
      exact .compared hfit
  · rw [if_neg hset]
    refine .shifted (e := 0) hfit hpos fun i _ hi => hother i hi fun hread => ?_
    exact hset ((ht.member b).mpr (List.mem_of_getElem? hread))

theorem searchPass_ok (h : Window hay n f s) (hf : Factored n f c)
    (hfits : n.length < 4294967296) (hhay : hay.length < 4294967296) {t : Tables}
    (ht : Marks t n) : WindowOk (searchPass f t hay n hay.length) hay n f s := by
  have hcut := hf.inside
  have hsearched := searchPass_searched h.inside hhay (by omega) hfits (Factored.p_le hf) ht
  generalize hpass : searchPass f t hay n hay.length s = out at hsearched
  cases hsearched with
  | short nofit =>
      refine Or.inr ⟨none, hpass, fun j hocc => ?_⟩
      rcases Nat.lt_or_ge j s.h with hlt | hge
      · exact h.passed j hlt hocc
      · have := (occursAt_letters.mp hocc).1
        omega
  | remembered fit before foreign memory =>
      obtain ⟨hmem0, hper, _⟩ := hf.memory memory.1
      have hmatched : ∀ t < n.length - f.p, letters hay (s.h + t) = letters n t := by
        rcases h.memory with hz | ⟨_, heq⟩
        · exact absurd hz memory.2.1
        · rw [← hmem0, ← heq]
          exact h.matched
      have hlast := (foreign (n.length - 1) (by omega) (by omega)).symm
      have hmem := memory.1
      refine h.shift_forget hpass (by omega) fit (by omega) fun d hd => ?_
      exact skip_memory hper hmatched hlast hd
  | shifted fit before foreign =>
      refine h.shift_forget hpass (by omega) fit (by omega) fun d hd => ?_
      exact skip_last foreign hd
  | compared fit => exact h.compare hf hfits fit hpass

theorem twowayMemmem_spec {lib : BaseMemoryLib} (hlib : CompareMemSpec lib)
    {hay n : List UInt8} (hfits : n.length < 4294967296) (hhay : hay.length < 4294967296)
    (hpos : 0 < n.length) {h : ℕ} (hinside : h ≤ hay.length)
    (hpassed : ∀ j < h, ¬ OccursAt hay n j) {fuel : ℕ}
    (enough : 2 * n.length + hay.length < fuel) :
    ∃ r, twowayMemmem lib fuel hay h hay.length n = some r ∧ FirstOccurrence hay n r := by
  obtain ⟨f, c, hfactor, hf⟩ := factorize_spec hlib hpos hfits
    (show 2 * n.length < fuel by omega)
  have htables : Marks (fillTables 0 n .blank) n := fillTables_marks n [] _ marks_blank
  simp only [twowayMemmem, hfactor, Option.bind_eq_bind, Option.bind_some]
  have hstart : Window hay n f { h := h, mem := 0 } :=
    ⟨hinside, hpassed, Or.inl rfl, fun t ht => absurd ht (Nat.not_lt_zero t)⟩
  apply loop_total (Window hay n f) (fun s => hay.length - s.h) _ fuel _ hstart
  · change hay.length - h < fuel
    omega
  · intro s hs
    exact searchPass_ok hs hf hfits hhay htables

end MuTegra.MemorySearch.WindowSearch
