/- Unit: MuTegra/Foundation/Conveying
   scope: general library
   digest: What a store hands out of what it is given, in order, composed along a run. -/

import Mathlib.Data.List.Basic

set_option autoImplicit false
set_option relaxedAutoImplicit false

namespace MuTegra.Foundation.Conveying

variable {α : Type}

/-- Between two states of a store: what comes out and what stays was there before or came in, in
that order, and under the condition no element that matters is missing. -/
structure Conveys (matters : α → Bool) (lossless : Prop) (before incoming outgoing after : List α) :
    Prop where
  order : (outgoing ++ after).Sublist (before ++ incoming)
  complete : lossless → (outgoing ++ after).filter matters = (before ++ incoming).filter matters

variable {matters : α → Bool} {P Q : Prop} {a b c i i' o o' : List α}

theorem Conveys.refl (matters : α → Bool) (xs : List α) : Conveys matters True xs [] [] xs := by
  constructor
  · rw [List.append_nil, List.nil_append]
  · intro _
    rw [List.append_nil, List.nil_append]

theorem Conveys.weaken (h : Conveys matters P a i o b) (hPQ : Q → P) : Conveys matters Q a i o b :=
  ⟨h.order, fun hQ => h.complete (hPQ hQ)⟩

theorem Conveys.trans (h : Conveys matters P a i o b) (h' : Conveys matters Q b i' o' c) :
    Conveys matters (P ∧ Q) a (i ++ i') (o ++ o') c := by
  constructor
  · rw [List.append_assoc, ← List.append_assoc a]
    refine List.Sublist.trans (h'.order.append_left o) ?_
    rw [← List.append_assoc]
    exact h.order.append_right i'
  · rintro ⟨hP, hQ⟩
    have hfirst := h.complete hP
    have hsecond := h'.complete hQ
    simp only [List.filter_append] at hfirst hsecond ⊢
    rw [List.append_assoc, hsecond, ← List.append_assoc, hfirst, List.append_assoc]

theorem Conveys.discard {x : α} (h : Conveys matters P a i [x] b) (hx : matters x = false) :
    Conveys matters P a i [] b := by
  constructor
  · exact (List.sublist_append_right [x] b).trans h.order
  · intro hP
    rw [← h.complete hP, List.nil_append, List.singleton_append,
      List.filter_cons_of_neg (by rw [hx]; decide)]

theorem conveys_pop (matters : α → Bool) (x : α) (xs : List α) :
    Conveys matters True (x :: xs) [] [x] xs := by
  constructor
  · rw [List.append_nil, List.singleton_append]
  · intro _
    rw [List.append_nil, List.singleton_append]

theorem conveys_drop {dropped : List α} (hdropped : ∀ x ∈ dropped, matters x = false)
    (xs : List α) : Conveys matters True (dropped ++ xs) [] [] xs := by
  constructor
  · rw [List.append_nil, List.nil_append]
    exact List.sublist_append_right dropped xs
  · intro _
    have hnone : dropped.filter matters = [] := by
      rw [List.filter_eq_nil_iff]
      intro x hx
      rw [hdropped x hx]
      exact Bool.false_ne_true
    rw [List.append_nil, List.nil_append, List.filter_append, hnone, List.nil_append]

theorem conveys_ignore {x : α} (hx : matters x = false) (xs : List α) :
    Conveys matters True xs [x] [] xs := by
  constructor
  · rw [List.nil_append]
    exact List.sublist_append_left xs [x]
  · intro _
    rw [List.nil_append, List.filter_append, List.filter_cons_of_neg (by rw [hx]; decide),
      List.filter_nil, List.append_nil]

theorem conveys_push (matters : α → Bool) (x : α) {xs : List α} {limit : ℕ} :
    Conveys matters (xs.length < limit) xs [x] []
      ((if xs.length = limit then xs.tail else xs) ++ [x]) := by
  constructor
  · rw [List.nil_append]
    split
    · exact (List.tail_sublist xs).append_right [x]
    · exact List.Sublist.refl _
  · intro hroom
    rw [if_neg (Nat.ne_of_lt hroom), List.nil_append]

theorem conveys_clear (matters : α → Bool) (xs : List α) :
    Conveys matters (∀ x ∈ xs, matters x = false) xs [] [] [] := by
  constructor
  · exact List.nil_sublist _
  · intro hnone
    have hall : xs.filter matters = [] := by
      rw [List.filter_eq_nil_iff]
      intro x hx
      rw [hnone x hx]
      exact Bool.false_ne_true
    rw [List.append_nil, List.append_nil, hall, List.filter_nil]

end MuTegra.Foundation.Conveying
