/- Unit: MuTegra/Foundation/Plotting
   scope: general library
   digest: Which addresses a pointer-advancing operation writes, through composition and iteration. -/

import MuTegra.Foundation.ByteFields
import MuTegra.Foundation.MachineWords
import Mathlib.Logic.Function.Iterate
import Mathlib.Tactic.Ring

/-!
Addresses are 32 bits wide. A pointer is kept unreduced and taken modulo `2 ^ 32` where it is
used, which is where the machine's own reductions end up.
-/

set_option autoImplicit false
set_option relaxedAutoImplicit false

namespace MuTegra.Foundation.Plotting

open MuTegra.Foundation.ByteFields
open MuTegra.Foundation.MachineWords

def loadBytes (mem : ℕ → UInt8) (p : ℕ) : ℕ → List UInt8
  | 0 => []
  | n + 1 => mem (toUint32 p) :: loadBytes mem (p + 1) n

def storeBytes (mem : ℕ → UInt8) (p : ℕ) : List UInt8 → ℕ → UInt8
  | [], a => mem a
  | b :: bytes, a => if a = toUint32 p then b else storeBytes mem (p + 1) bytes a

variable {mem mem' : ℕ → UInt8} {p q n a : ℕ} {bytes : List UInt8}

theorem storeBytes_off (h : ∀ i < bytes.length, a ≠ toUint32 (p + i)) :
    storeBytes mem p bytes a = mem a := by
  induction bytes generalizing p with
  | nil => rfl
  | cons b bytes ih =>
      rw [List.length_cons] at h
      have hfirst := h 0 (by omega)
      rw [Nat.add_zero] at hfirst
      rw [storeBytes, if_neg hfirst]
      apply ih
      intro i hi
      rw [Nat.add_assoc, Nat.add_comm 1]
      exact h (i + 1) (by omega)

theorem loadBytes_congr (h : ∀ i < n, mem' (toUint32 (p + i)) = mem (toUint32 (p + i))) :
    loadBytes mem' p n = loadBytes mem p n := by
  induction n generalizing p with
  | zero => rfl
  | succ n ih =>
      have hrest : loadBytes mem' (p + 1) n = loadBytes mem (p + 1) n := by
        apply ih
        intro i hi
        rw [Nat.add_assoc, Nat.add_comm 1]
        exact h (i + 1) (by omega)
      have hfirst := h 0 (by omega)
      rw [Nat.add_zero] at hfirst
      rw [loadBytes, loadBytes, hrest, hfirst]

theorem loadBytes_storeBytes_self (hfit : bytes.length ≤ 4294967296) :
    loadBytes (storeBytes mem p bytes) p bytes.length = bytes := by
  induction bytes generalizing p with
  | nil => rfl
  | cons b bytes ih =>
      rw [List.length_cons] at hfit
      have hrest : loadBytes (storeBytes mem p (b :: bytes)) (p + 1) bytes.length =
          loadBytes (storeBytes mem (p + 1) bytes) (p + 1) bytes.length := by
        apply loadBytes_congr
        intro i hi
        rw [storeBytes, if_neg]
        unfold toUint32
        omega
      rw [List.length_cons, loadBytes, hrest, ih (by omega), storeBytes, if_pos rfl]

def loadWord (mem : ℕ → UInt8) (p : ℕ) : ℕ := decodeLe (loadBytes mem p 4)

def storeWord (mem : ℕ → UInt8) (p w : ℕ) : ℕ → UInt8 := storeBytes mem p (encodeLe 4 w)

variable {w : ℕ}

theorem loadWord_congr (h : ∀ i < 4, mem' (toUint32 (p + i)) = mem (toUint32 (p + i))) :
    loadWord mem' p = loadWord mem p := by
  rw [loadWord, loadWord, loadBytes_congr h]

theorem loadWord_storeWord_self : loadWord (storeWord mem p w) p = toUint32 w := by
  have hbytes : loadBytes (storeWord mem p w) p 4 = encodeLe 4 w :=
    loadBytes_storeBytes_self (by rw [encodeLe_length]; decide)
  rw [loadWord, hbytes, decodeLe_encodeLe]
  rfl

theorem loadWord_storeWord_other (h : ∀ i < 4, ∀ j < 4, toUint32 (q + i) ≠ toUint32 (p + j)) :
    loadWord (storeWord mem p w) q = loadWord mem q := by
  apply loadWord_congr
  intro i hi
  apply storeBytes_off
  intro j hj
  exact h i hi j hj

structure Canvas where
  memory : ℕ → UInt8
  stores : List ℕ

def Canvas.put (c : Canvas) (p : ℕ) (b : UInt8) : Canvas where
  memory a := if a = toUint32 p then b else c.memory a
  stores := toUint32 p :: c.stores

class Plotter (σ : Type) where
  pointer : σ → ℕ
  canvas : σ → Canvas

open Plotter

/-- The offsets of `k` rows `n` apart, each holding the offsets in `D`. -/
def Rows (k n : ℕ) (D : ℕ → Prop) : ℕ → Prop := fun d => ∃ r < k, ∃ c, D c ∧ d = r * n + c

variable {k m : ℕ} {D : ℕ → Prop}

theorem rows_adjacent (d : ℕ) : Rows k n (· < n) d ↔ d < k * n := by
  constructor
  · rintro ⟨r, hr, c, hc, rfl⟩
    calc r * n + c < r * n + n := by omega
      _ = (r + 1) * n := by ring
      _ ≤ k * n := Nat.mul_le_mul_right n hr
  · intro hd
    have hn : 0 < n := Nat.pos_of_ne_zero (by rintro rfl; simp at hd)
    refine ⟨d / n, ?_, d % n, Nat.mod_lt _ hn, ?_⟩
    · exact Nat.div_lt_of_lt_mul (by rwa [Nat.mul_comm])
    · rw [Nat.mul_comm, Nat.div_add_mod]

theorem rows_rows (d : ℕ) : Rows m (k * n) (Rows k n D) d ↔ Rows (m * k) n D d := by
  constructor
  · rintro ⟨i, hi, c, ⟨r, hr, c', hc', rfl⟩, rfl⟩
    refine ⟨i * k + r, ?_, c', hc', by ring⟩
    exact (rows_adjacent _).mp ⟨i, hi, r, hr, rfl⟩
  · rintro ⟨r, hr, c, hc, rfl⟩
    obtain ⟨i, hi, r', hr', rfl⟩ := (rows_adjacent r).mpr hr
    exact ⟨i, hi, r' * n + c, ⟨r', hr', c, hc, rfl⟩, by ring⟩

theorem rows_add (j : ℕ) (d : ℕ) :
    Rows (j + k) n D d ↔ Rows j n D d ∨ ∃ e, Rows k n D e ∧ d = j * n + e := by
  constructor
  · rintro ⟨r, hr, c, hc, rfl⟩
    by_cases hrj : r < j
    · exact .inl ⟨r, hrj, c, hc, rfl⟩
    · obtain ⟨i, rfl⟩ := Nat.exists_eq_add_of_le (Nat.le_of_not_lt hrj)
      exact .inr ⟨i * n + c, ⟨i, by omega, c, hc, rfl⟩, by ring⟩
  · rintro (⟨r, hr, c, hc, rfl⟩ | ⟨e, ⟨r, hr, c, hc, rfl⟩, rfl⟩)
    · exact ⟨r, by omega, c, hc, rfl⟩
    · exact ⟨j + r, by omega, c, hc, by ring⟩

theorem rows_one (d : ℕ) : Rows 1 n D d ↔ D d := by
  constructor
  · rintro ⟨r, hr, c, hc, rfl⟩
    obtain rfl : r = 0 := by omega
    simpa using hc
  · intro hd
    exact ⟨0, by omega, d, hd, by ring⟩

/-- Between two canvases every offset in `must` from `p` was plotted on, none outside `may`,
and nothing else changed. -/
def Plotted (before after : Canvas) (p : ℕ) (must may : ℕ → Prop) : Prop :=
  ∃ new, after.stores = new ++ before.stores ∧
    (∀ d, must d → toUint32 (p + d) ∈ new) ∧
    (∀ a ∈ new, ∃ d, may d ∧ a = toUint32 (p + d)) ∧
    ∀ a, a ∉ new → after.memory a = before.memory a

variable {before middle after : Canvas} {must may must' may' : ℕ → Prop}

theorem Plotted.weaken (h : Plotted before after p must may) (hmust : ∀ d, must' d → must d)
    (hmay : ∀ d, may d → may' d) : Plotted before after p must' may' := by
  obtain ⟨new, hstores, hcover, hwithin, hframe⟩ := h
  refine ⟨new, hstores, fun d hd => hcover d (hmust d hd), fun a ha => ?_, hframe⟩
  obtain ⟨d, hd, rfl⟩ := hwithin a ha
  exact ⟨d, hmay d hd, rfl⟩

theorem Plotted.trans (h : Plotted before middle p must may)
    (h' : Plotted middle after (p + n) must' may') :
    Plotted before after p (fun d => must d ∨ ∃ e, must' e ∧ d = n + e)
      (fun d => may d ∨ ∃ e, may' e ∧ d = n + e) := by
  obtain ⟨new, hstores, hcover, hwithin, hframe⟩ := h
  obtain ⟨new', hstores', hcover', hwithin', hframe'⟩ := h'
  refine ⟨new' ++ new, by rw [hstores', hstores, List.append_assoc], ?_, ?_, ?_⟩
  · rintro d (hd | ⟨e, he, rfl⟩)
    · exact List.mem_append_right _ (hcover d hd)
    · rw [← Nat.add_assoc]
      exact List.mem_append_left _ (hcover' e he)
  · intro a ha
    rcases List.mem_append.mp ha with ha | ha
    · obtain ⟨e, he, rfl⟩ := hwithin' a ha
      exact ⟨n + e, .inr ⟨e, he, rfl⟩, by rw [Nat.add_assoc]⟩
    · obtain ⟨d, hd, rfl⟩ := hwithin a ha
      exact ⟨d, .inl hd, rfl⟩
  · intro a ha
    rw [List.mem_append, not_or] at ha
    rw [hframe' a ha.1, hframe a ha.2]

theorem Plotted.over (h : Plotted before middle p must may)
    (h' : Plotted middle after p must' may) : Plotted before after p must may := by
  have hboth := Plotted.trans (n := 0) h h'
  refine hboth.weaken (fun d hd => .inl hd) ?_
  rintro d (hd | ⟨e, he, rfl⟩)
  · exact hd
  · rwa [Nat.zero_add]

theorem Plotted.mem_stores (h : Plotted before after p must may) {d : ℕ} (hd : must d) :
    toUint32 (p + d) ∈ after.stores := by
  obtain ⟨new, hstores, hcover, -, -⟩ := h
  rw [hstores]
  exact List.mem_append_left _ (hcover d hd)

theorem Plotted.stores_cases (h : Plotted before after p must may) (ha : a ∈ after.stores) :
    a ∈ before.stores ∨ ∃ d, may d ∧ a = toUint32 (p + d) := by
  obtain ⟨new, hstores, -, hwithin, -⟩ := h
  rw [hstores] at ha
  rcases List.mem_append.mp ha with ha | ha
  · exact .inr (hwithin a ha)
  · exact .inl ha

theorem Plotted.frame (h : Plotted before after p must may)
    (ha : ∀ d, may d → a ≠ toUint32 (p + d)) : after.memory a = before.memory a := by
  obtain ⟨new, -, -, hwithin, hframe⟩ := h
  apply hframe
  intro hnew
  obtain ⟨d, hd, rfl⟩ := hwithin a hnew
  exact ha d hd rfl

/-- An operation that advances the pointer by `n` and plots as told, from wherever it starts. -/
structure Footprint {σ : Type} [Plotter σ] (f : σ → σ) (n : ℕ) (must may : ℕ → Prop) : Prop where
  advance : ∀ s, pointer (f s) = pointer s + n
  plots : ∀ s, Plotted (canvas s) (canvas (f s)) (pointer s) must may

variable {σ : Type} [Plotter σ] {f g : σ → σ} {j : ℕ}

theorem Footprint.weaken (h : Footprint f n must may) (hmust : ∀ d, must' d → must d)
    (hmay : ∀ d, may d → may' d) : Footprint f n must' may' :=
  ⟨h.advance, fun s => (h.plots s).weaken hmust hmay⟩

theorem Footprint.comp (h : Footprint f n must may) (h' : Footprint g m must' may') :
    Footprint (fun s => g (f s)) (n + m) (fun d => must d ∨ ∃ e, must' e ∧ d = n + e)
      (fun d => may d ∨ ∃ e, may' e ∧ d = n + e) := by
  refine ⟨fun s => by rw [h'.advance, h.advance, Nat.add_assoc], fun s => ?_⟩
  have hsecond := h'.plots (f s)
  rw [h.advance s] at hsecond
  exact (h.plots s).trans hsecond

theorem Footprint.comp_rows (h : Footprint f (j * n) (Rows j n must) (Rows j n may))
    (h' : Footprint g (k * n) (Rows k n must) (Rows k n may)) :
    Footprint (fun s => g (f s)) ((j + k) * n) (Rows (j + k) n must) (Rows (j + k) n may) := by
  have hboth := h.comp h'
  rw [← Nat.add_mul] at hboth
  exact hboth.weaken (fun d => (rows_add j d).mp) (fun d => (rows_add j d).mpr)

theorem Footprint.comp_rows_plots (h : Footprint f (j * n) (Rows j n must) (Rows j n may))
    (h' : Footprint g (k * n) (Rows k n must) (Rows k n may)) (s : σ) :
    Plotted (canvas s) (canvas (g (f s))) (pointer s) (Rows (j + k) n must)
      (Rows (j + k) n may) :=
  (h.comp_rows h').plots s

theorem Footprint.iterate (h : Footprint f n must may) (k : ℕ) :
    Footprint f^[k] (k * n) (Rows k n must) (Rows k n may) := by
  induction k with
  | zero =>
      refine ⟨fun s => by simp, fun s => ⟨[], rfl, ?_, by simp, fun a _ => rfl⟩⟩
      rintro d ⟨r, hr, -⟩
      omega
  | succ k ih =>
      have hone : Footprint f (1 * n) (Rows 1 n must) (Rows 1 n may) := by
        rw [Nat.one_mul]
        exact h.weaken (fun d => (rows_one d).mp) (fun d => (rows_one d).mpr)
      have hboth := hone.comp_rows ih
      rw [Nat.add_comm 1 k] at hboth
      exact hboth

/-- Repeating an operation that plots within the bytes it advances over, and on all of them
where `full` holds. -/
theorem Footprint.iterate_run {full : Prop} (h : Footprint f n (fun d => full ∧ d < n) (· < n))
    (k : ℕ) : Footprint f^[k] (k * n) (fun d => full ∧ d < k * n) (· < k * n) := by
  refine (h.iterate k).weaken ?_ (fun d => (rows_adjacent d).mp)
  rintro d ⟨hfull, hd⟩
  obtain ⟨r, hr, c, hc, rfl⟩ := (rows_adjacent d).mpr hd
  exact ⟨r, hr, c, ⟨hfull, hc⟩, rfl⟩

theorem Footprint.of_skip (hadvance : ∀ s, pointer (f s) = pointer s + n)
    (hcanvas : ∀ s, canvas (f s) = canvas s) (may : ℕ → Prop) :
    Footprint f n (fun _ => False) may := by
  refine ⟨hadvance, fun s => ⟨[], by rw [hcanvas]; rfl, fun _ => False.elim, by simp, ?_⟩⟩
  intro a _
  rw [hcanvas]

theorem Footprint.choose {τ : Type} {F : τ → σ → σ} (h : ∀ t, Footprint (F t) n must may)
    (pick : σ → τ) : Footprint (fun s => F (pick s) s) n must may :=
  ⟨fun s => (h (pick s)).advance s, fun s => (h (pick s)).plots s⟩

theorem Footprint.prepare (h : Footprint f n must may) (prep : σ → σ)
    (hpointer : ∀ s, pointer (prep s) = pointer s) (hcanvas : ∀ s, canvas (prep s) = canvas s) :
    Footprint (fun s => f (prep s)) n must may := by
  refine ⟨fun s => by rw [h.advance, hpointer], fun s => ?_⟩
  have hplots := h.plots (prep s)
  rw [hpointer, hcanvas] at hplots
  exact hplots

theorem Footprint.finish (h : Footprint f n must may) (post : σ → σ)
    (hpointer : ∀ s, pointer (post s) = pointer s) (hcanvas : ∀ s, canvas (post s) = canvas s) :
    Footprint (fun s => post (f s)) n must may := by
  refine ⟨fun s => by rw [hpointer, h.advance], fun s => ?_⟩
  rw [hcanvas]
  exact h.plots s

end MuTegra.Foundation.Plotting
