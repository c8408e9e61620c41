/- Unit: MuTegra/Foundation/Registering
   scope: general library
   digest: Lists that take in an element only when none is related to it. -/

import Mathlib.Data.List.Perm.Basic

set_option autoImplicit false
set_option relaxedAutoImplicit false

namespace MuTegra.Foundation.Registering

universe u

variable {α : Type u} {R : α → α → Prop} {x : α} {l l' l'' : List α}

def Inserted (x : α) (l l' : List α) : Prop :=
  ∃ before after, l = before ++ after ∧ l' = before ++ x :: after

theorem Inserted.perm (h : Inserted x l l') : l'.Perm (x :: l) := by
  obtain ⟨before, after, rfl, rfl⟩ := h
  exact List.perm_middle

theorem Inserted.mem_iff (h : Inserted x l l') {a : α} : a ∈ l' ↔ a = x ∨ a ∈ l := by
  rw [h.perm.mem_iff, List.mem_cons]

theorem Inserted.find? (h : Inserted x l l') {p : α → Bool} (hx : p x = false) :
    l'.find? p = l.find? p := by
  obtain ⟨before, after, rfl, rfl⟩ := h
  rw [List.find?_append, List.find?_append, List.find?_cons_of_neg (by rw [hx]; decide)]

/-- `x` is registered: an element related to it is there already, or it is put in. -/
inductive Registers (R : α → α → Prop) (x : α) (l : List α) : List α → Prop
  | known (a : α) (mem : a ∈ l) (related : R x a) : Registers R x l l
  | new {l' : List α} (apart : ∀ a ∈ l, ¬ R x a) (inserted : Inserted x l l') : Registers R x l l'

/-- What registrations made of `l`: `added` came in, each apart from all the others. -/
structure Grown (R : α → α → Prop) (l added l' : List α) : Prop where
  perm : l'.Perm (l ++ added)
  apart : added.Pairwise fun a b => ¬ R a b
  new : ∀ a ∈ added, ∀ b ∈ l, ¬ R a b

theorem Grown.refl (R : α → α → Prop) (l : List α) : Grown R l [] l where
  perm := by rw [List.append_nil]
  apart := .nil
  new _ ha := absurd ha List.not_mem_nil

theorem Grown.registers {added : List α} (h : Grown R l added l') (hstep : Registers R x l' l'') :
    ∃ added', Grown R l added' l'' := by
  cases hstep with
  | known => exact ⟨added, h⟩
  | new apart inserted =>
      have hx : ∀ a ∈ l ++ added, ¬ R x a := by
        intro a ha
        exact apart a (h.perm.mem_iff.mpr ha)
      refine ⟨x :: added, ?_, ?_, ?_⟩
      · apply inserted.perm.trans
        exact (h.perm.cons x).trans List.perm_middle.symm
      · refine List.pairwise_cons.mpr ⟨?_, h.apart⟩
        intro a ha
        exact hx a (List.mem_append_right l ha)
      · intro a ha b hb
        rcases List.mem_cons.mp ha with rfl | hold
        · exact hx b (List.mem_append_left added hb)
        · exact h.new a hold b hb

theorem Registers.mem (h : Registers R x l l') {a : α} (ha : a ∈ l) : a ∈ l' := by
  cases h with
  | known => exact ha
  | new apart inserted => exact inserted.mem_iff.mpr (.inr ha)

end MuTegra.Foundation.Registering
