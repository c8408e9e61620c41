/- Unit: MuTegra/Foundation/Overlay
   scope: general library
   digest: A store under partial updates reads, at each index, the latest update covering it. -/

import Mathlib.Data.List.Induction
import Mathlib.Data.List.Basic

set_option autoImplicit false
set_option relaxedAutoImplicit false

namespace MuTegra.Foundation.Overlay

variable {ι α : Type}

abbrev Patch (ι α : Type) := ι → Option α

def applyPatch (cells : ι → α) (patch : Patch ι α) : ι → α :=
  fun i => (patch i).getD (cells i)

def latest (patches : List (Patch ι α)) (i : ι) : Option α :=
  patches.reverse.findSome? fun patch => patch i

theorem latest_append (patches : List (Patch ι α)) (patch : Patch ι α) (i : ι) :
    latest (patches ++ [patch]) i = (patch i).or (latest patches i) := by
  rw [latest, List.reverse_append, List.reverse_singleton, List.singleton_append,
    List.findSome?_cons, latest]
  cases patch i with
  | none => rfl
  | some x => rfl

/-- The array law: after any patches an index holds the latest one covering it, or what
it held before. -/
theorem applyPatches_eq_latest (cells : ι → α) (patches : List (Patch ι α)) (i : ι) :
    patches.foldl applyPatch cells i = (latest patches i).getD (cells i) := by
  induction patches using List.reverseRecOn with
  | nil => rfl
  | append_singleton patches patch ih =>
      rw [List.foldl_append, List.foldl_cons, List.foldl_nil, applyPatch, ih, latest_append]
      cases patch i with
      | none => rfl
      | some x => rfl

end MuTegra.Foundation.Overlay
