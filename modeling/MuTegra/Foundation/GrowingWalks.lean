/- Unit: MuTegra/Foundation/GrowingWalks
   scope: general library
   digest: Walks over the elements of one kind in a list that grows behind them. -/

import MuTegra.Foundation.Loops
import Mathlib.Data.List.Basic

set_option autoImplicit false
set_option relaxedAutoImplicit false

namespace MuTegra.Foundation.GrowingWalks

open MuTegra.Foundation.Loops

universe u

variable {α : Type u}

structure Walk (α : Type u) where
  place : ℕ
  items : List α

/-- A pass: the next element of the kind `p` at or after the place, `emit` of it added at the end,
and the place behind the element; or the end, with the list. -/
def growPass (p : α → Bool) (emit : α → List α) (walk : Walk α) : Option (Walk α ⊕ List α) :=
  match (walk.items.drop walk.place).findIdx? p with
  | none => some (.inr walk.items)
  | some skipped => do
      let item ← walk.items[walk.place + skipped]?
      some (.inl ⟨walk.place + skipped + 1, walk.items ++ emit item⟩)

theorem findIdx?_split {p : α → Bool} {l : List α} {i : ℕ} (h : l.findIdx? p = some i) :
    ∃ before item after, l = before ++ item :: after ∧ before.length = i ∧ p item = true ∧
      before.filter p = [] := by
  obtain ⟨hi, hitem, hbefore⟩ := List.findIdx?_eq_some_iff_getElem.mp h
  refine ⟨l.take i, l[i], l.drop (i + 1), ?_, ?_, hitem, ?_⟩
  · rw [List.getElem_cons_drop, List.take_append_drop]
  · exact List.length_take_of_le (Nat.le_of_lt hi)
  · rw [List.filter_eq_nil_iff]
    intro a ha
    obtain ⟨j, hj, rfl⟩ := List.mem_iff_getElem.mp ha
    rw [List.length_take_of_le (Nat.le_of_lt hi)] at hj
    rw [List.getElem_take]
    exact hbefore j hj

variable {p : α → Bool} {emit : α → List α} {l : List α}

/-- The walk has passed `passed` of the list it started on, and added what that emits. -/
structure Passed (p : α → Bool) (emit : α → List α) (l passed rest : List α) (walk : Walk α) :
    Prop where
  split : l = passed ++ rest
  place : walk.place = passed.length
  items : walk.items = l ++ (passed.filter p).flatMap emit

theorem filter_emitted (hemit : ∀ a, p a = true → (emit a).filter p = []) (passed : List α) :
    ((passed.filter p).flatMap emit).filter p = [] := by
  rw [List.filter_eq_nil_iff]
  intro b hb hp
  obtain ⟨a, ha, hba⟩ := List.mem_flatMap.mp hb
  have hnone := hemit a (List.of_mem_filter ha)
  rw [List.filter_eq_nil_iff] at hnone
  exact hnone b hba hp

theorem Passed.ahead {passed rest : List α} {walk : Walk α} (h : Passed p emit l passed rest walk) :
    walk.items.drop walk.place = rest ++ (passed.filter p).flatMap emit := by
  rw [h.items, h.place, h.split, List.append_assoc, List.drop_left]

theorem Passed.variant (hemit : ∀ a, p a = true → (emit a).filter p = []) {passed rest : List α}
    {walk : Walk α} (h : Passed p emit l passed rest walk) :
    (walk.items.drop walk.place).countP p = rest.countP p := by
  rw [h.ahead, List.countP_append, @List.countP_eq_length_filter _ p (List.flatMap _ _),
    filter_emitted hemit]
  rfl

theorem Passed.next {passed before after : List α} {item : α} {walk : Walk α}
    (h : Passed p emit l passed (before ++ item :: after) walk) (hbefore : before.filter p = [])
    (hitem : p item = true) :
    Passed p emit l (passed ++ before ++ [item]) after
      ⟨walk.place + before.length + 1, walk.items ++ emit item⟩ where
  split := by
    rw [h.split]
    simp only [List.append_assoc, List.singleton_append]
  place := by
    rw [h.place]
    simp only [List.length_append, List.length_singleton]
  items := by
    rw [h.items]
    simp only [List.filter_append, hbefore, List.filter_cons_of_pos hitem, List.filter_nil,
      List.flatMap_append, List.flatMap_singleton, List.nil_append,
      List.append_assoc]

theorem Passed.found (hemit : ∀ a, p a = true → (emit a).filter p = []) {passed rest : List α}
    {walk : Walk α} (h : Passed p emit l passed rest walk) :
    (walk.items.drop walk.place).findIdx? p = rest.findIdx? p := by
  have hbehind : ((passed.filter p).flatMap emit).findIdx? p = none := by
    have hnone := filter_emitted hemit passed
    rw [List.filter_eq_nil_iff] at hnone
    rw [List.findIdx?_eq_none_iff]
    intro b hb
    exact Bool.eq_false_iff.mpr (hnone b hb)
  rw [h.ahead, List.findIdx?_append, hbehind, Option.map_none, Option.or_none]

theorem growPass_ok (hemit : ∀ a, p a = true → (emit a).filter p = []) {passed rest : List α}
    {walk : Walk α} (h : Passed p emit l passed rest walk) :
    PassOk (growPass p emit) (fun walk => ∃ passed rest, Passed p emit l passed rest walk)
      (fun walk => (walk.items.drop walk.place).countP p)
      (fun items => items = l ++ (l.filter p).flatMap emit) walk := by
  cases hfound : rest.findIdx? p with
  | none =>
      right
      refine ⟨walk.items, by rw [growPass, h.found hemit, hfound], ?_⟩
      have hrest : rest.filter p = [] := by
        rw [List.filter_eq_nil_iff]
        intro a ha
        exact Bool.eq_false_iff.mp (List.findIdx?_eq_none_iff.mp hfound a ha)
      rw [h.items, h.split, List.filter_append, hrest, List.append_nil]
  | some skipped =>
      left
      obtain ⟨before, item, after, rfl, rfl, hitem, hbefore⟩ := findIdx?_split hfound
      have hread : walk.items[walk.place + before.length]? = some item := by
        rw [← List.getElem?_drop, h.ahead]
        simp only [List.append_assoc, List.cons_append, List.getElem?_append_right (Nat.le_refl _),
          Nat.sub_self, List.getElem?_cons_zero]
      have hnext := h.next hbefore hitem
      refine ⟨⟨walk.place + before.length + 1, walk.items ++ emit item⟩, ?_, ⟨_, _, hnext⟩, ?_⟩
      · rw [growPass, h.found hemit, hfound]
        simp only [hread, Option.bind_eq_bind, Option.bind_some]
      · calc _ = after.countP p := hnext.variant hemit
          _ < (before ++ item :: after).countP p := by
            rw [List.countP_append, List.countP_cons_of_pos hitem]
            omega
          _ = _ := (h.variant hemit).symm

/-- A walk whose additions are of another kind ends, having added what each element of the kind
emits, in order. -/
theorem growPass_total (hemit : ∀ a, p a = true → (emit a).filter p = []) (l : List α) {fuel : ℕ}
    (enough : l.countP p < fuel) :
    loop (growPass p emit) fuel ⟨0, l⟩ = some (l ++ (l.filter p).flatMap emit) := by
  obtain ⟨items, hloop, rfl⟩ := loop_total
    (fun walk => ∃ passed rest, Passed p emit l passed rest walk)
    (fun walk => (walk.items.drop walk.place).countP p)
    (fun walk ⟨_, _, hwalk⟩ => growPass_ok hemit hwalk) fuel ⟨0, l⟩
    ⟨[], l, rfl, rfl, (List.append_nil l).symm⟩ enough
  exact hloop

end MuTegra.Foundation.GrowingWalks
