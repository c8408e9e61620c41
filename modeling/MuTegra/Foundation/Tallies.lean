/- Unit: MuTegra/Foundation/Tallies
   scope: general library
   digest: Whether a part of a run releases what it acquires, composed from its pieces. -/

import MuTegra.Foundation.Ownership

/-!
A part of a run is tallied with a flag that says whether it leaks: whether something acquired in
it is still live at its end. Parts in a row leak when one of them does, and a part between an
acquisition and the release of what was acquired leaks as it does alone.
-/

set_option autoImplicit false
set_option relaxedAutoImplicit false

namespace MuTegra.Foundation.Tallies

open MuTegra.Foundation.Ownership

structure Grows (before after : Ledger) : Prop where
  live : before.live ≤ after.live
  next : before.next ≤ after.next
  faults : after.faults = before.faults

def Leaks (before after : Ledger) : Prop := ∃ id, before.next ≤ id ∧ id ∈ after.live

/-- A part of a run leaks exactly when the flag says so. -/
structure Tally (leaks : Bool) (before after : Ledger) : Prop where
  grows : Grows before after
  leaked : leaks = true → Leaks before after
  balanced : leaks = false → after.live = before.live

variable {a b c : Ledger}

theorem Grows.refl (l : Ledger) : Grows l l := ⟨le_rfl, le_rfl, rfl⟩

theorem Grows.trans (hab : Grows a b) (hbc : Grows b c) : Grows a c :=
  ⟨hab.live.trans hbc.live, hab.next.trans hbc.next, hbc.faults.trans hab.faults⟩

theorem Grows.grant (l : Ledger) : Grows l l.grant :=
  ⟨Multiset.le_cons_self l.live l.next, Nat.le_succ l.next, rfl⟩

theorem Leaks.of_grows (h : Grows a b) (hleaks : Leaks b c) : Leaks a c := by
  obtain ⟨id, hid, hlive⟩ := hleaks
  exact ⟨id, h.next.trans hid, hlive⟩

theorem Leaks.grows (hleaks : Leaks a b) (h : Grows b c) : Leaks a c := by
  obtain ⟨id, hid, hlive⟩ := hleaks
  exact ⟨id, hid, Multiset.mem_of_le h.live hlive⟩

theorem leaks_grant (l : Ledger) : Leaks l l.grant :=
  ⟨l.next, le_rfl, Multiset.mem_cons_self l.next l.live⟩

theorem not_leaks (h : b.live = a.live) : ¬ Leaks a b := by
  rintro ⟨id, hid, hlive⟩
  rw [h] at hlive
  exact absurd (a.bounded id hlive) (not_lt.mpr hid)

theorem Tally.refl (l : Ledger) : Tally false l l := ⟨Grows.refl l, nofun, fun _ => rfl⟩

theorem Tally.grant (l : Ledger) : Tally true l l.grant :=
  ⟨Grows.grant l, fun _ => leaks_grant l, nofun⟩

theorem Tally.leaks_iff {leaks : Bool} (h : Tally leaks a b) : Leaks a b ↔ leaks = true := by
  cases leaks with
  | true => exact ⟨fun _ => rfl, h.leaked⟩
  | false => exact ⟨fun hleaks => absurd hleaks (not_leaks (h.balanced rfl)), nofun⟩

theorem Tally.trans {first second : Bool} (hab : Tally first a b) (hbc : Tally second b c) :
    Tally (first || second) a c := by
  refine ⟨hab.grows.trans hbc.grows, fun h => ?_, fun h => ?_⟩
  · rcases Bool.or_eq_true_iff.mp h with hfirst | hsecond
    · exact (hab.leaked hfirst).grows hbc.grows
    · exact (hbc.leaked hsecond).of_grows hab.grows
  · obtain ⟨hfirst, hsecond⟩ := Bool.or_eq_false_iff.mp h
    exact (hbc.balanced hsecond).trans (hab.balanced hfirst)

theorem Tally.then_grows (hab : Tally true a b) (hbc : Grows b c) : Tally true a c :=
  ⟨hab.grows.trans hbc, fun _ => (hab.leaked rfl).grows hbc, nofun⟩

theorem Grows.erase (h : Grows a.grant b) : a.live ≤ b.live.erase a.next := by
  rw [← Multiset.erase_cons_head a.next a.live]
  exact Multiset.erase_le_erase a.next h.live

theorem Tally.bracket {leaks : Bool} (h : Tally leaks a.grant b) :
    Tally leaks a (b.release (some a.next)) := by
  have hmem : a.next ∈ b.live :=
    Multiset.mem_of_le h.grows.live (Multiset.mem_cons_self a.next a.live)
  have hrelease : b.release (some a.next) = b.retire a.next := by rw [Ledger.release, if_pos hmem]
  rw [hrelease]
  refine ⟨⟨h.grows.erase, (Nat.le_succ _).trans h.grows.next, h.grows.faults⟩,
    fun hleaks => ?_, fun hleaks => ?_⟩
  · obtain ⟨id, hid, hlive⟩ := h.leaked hleaks
    have hne : id ≠ a.next := Nat.ne_of_gt hid
    exact ⟨id, (Nat.le_succ _).trans hid, (Multiset.mem_erase_of_ne hne).mpr hlive⟩
  · change b.live.erase a.next = a.live
    rw [h.balanced hleaks]
    exact Multiset.erase_cons_head a.next a.live

end MuTegra.Foundation.Tallies
