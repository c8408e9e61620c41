/- Unit: MuTegra/FrontPage/FormMap
   source: NvidiaPkg/Applications/FrontPage/FrontPage.c
   digest: Removing rows keeps both menu numberings, which the list box and the lookup agree on. -/

import MuTegra.Foundation.Numbering
import Mathlib.Data.List.Forall2
import Mathlib.Data.List.Induction
import Mathlib.Logic.Function.Basic

/-!
The table has an index column for the full menu and one for the limited menu. A removal goes
over both in one pass; each column by itself is renumbered by that pass.
-/

set_option autoImplicit false
set_option relaxedAutoImplicit false

namespace MuTegra.FrontPage.FormMap

open MuTegra.Foundation.Numbering

structure FormRow where
  fullMenuIndex : UInt16
  limitedMenuIndex : UInt16
  menuString : UInt16
  formSetGuid : BitVec 128
  formId : UInt16
  deriving DecidableEq, Repr

def unusedIndex : UInt16 := 0xFFFF

/-- The table; it has a row, and `MenuOptionCount`, of 16 bits, holds the number of rows. -/
structure FormTable where
  rows : List FormRow
  count : 0 < rows.length ∧ rows.length < 65536

def FormTable.menuOptionCount (t : FormTable) : ℕ := t.rows.length

/-! ## The source -/

/-- The passes of `RemoveMenuFromList` over the rows that are left, with `FullMenuRemoved` and
`LimitedMenuRemoved`. -/
def removePasses (menuId : UInt16) : Bool → Bool → List FormRow → List FormRow
  | _, _, [] => []
  | fullMenuRemoved, limitedMenuRemoved, row :: rows =>
      let hit := row.menuString == menuId
      let fullRemoved := fullMenuRemoved || hit && row.fullMenuIndex != unusedIndex
      let limitedRemoved := limitedMenuRemoved || hit && row.limitedMenuIndex != unusedIndex
      let fullMenuIndex := if hit then unusedIndex else row.fullMenuIndex
      let limitedMenuIndex := if hit then unusedIndex else row.limitedMenuIndex
      { row with
        fullMenuIndex :=
          if fullRemoved && fullMenuIndex != unusedIndex then fullMenuIndex - 1 else fullMenuIndex
        limitedMenuIndex :=
          if limitedRemoved && limitedMenuIndex != unusedIndex then limitedMenuIndex - 1
          else limitedMenuIndex } :: removePasses menuId fullRemoved limitedRemoved rows

theorem length_removePasses (menuId : UInt16) (rows : List FormRow) :
    ∀ full limited, (removePasses menuId full limited rows).length = rows.length := by
  induction rows with
  | nil => exact fun _ _ => rfl
  | cons row rows ih => exact fun _ _ => congrArg (· + 1) (ih _ _)

def removeMenuFromList (t : FormTable) (menuId : UInt16) : FormTable where
  rows := removePasses menuId false false t.rows
  count := (length_removePasses menuId t.rows false false).symm ▸ t.count

def menuIndex (showFullMenu : Bool) (row : FormRow) : UInt16 :=
  if showFullMenu = false then row.limitedMenuIndex else row.fullMenuIndex

/-- `MenuOptions` in `CreateTopMenu`: the row whose string is the text of a cell. -/
def menuOptions (showFullMenu : Bool) (t : FormTable) : ℕ → Option FormRow :=
  t.rows.foldl
    (fun cells row =>
      let index := menuIndex showFullMenu row
      if unusedIndex ≠ index ∧ index.toNat < t.menuOptionCount then
        Function.update cells index.toNat (some row)
      else cells)
    fun _ => none

/-- The row `CallFrontPage` sends to the browser, or none. -/
def formForIndex (showFullMenu : Bool) (t : FormTable) (formIndex : UInt32) : Option FormRow :=
  t.rows.find? fun row => (menuIndex showFullMenu row).toUInt32 == formIndex

/-! ## What must hold -/

def entry (index : UInt16) : Option ℕ := if index = unusedIndex then none else some index.toNat

def menuColumn (showFullMenu : Bool) (t : FormTable) : List (Option ℕ) :=
  t.rows.map fun row => entry (menuIndex showFullMenu row)

def removeAll (t : FormTable) (menuIds : List UInt16) : FormTable :=
  menuIds.foldl removeMenuFromList t

def Single (t : FormTable) (menuId : UInt16) : Prop :=
  (t.rows.countP fun row => row.menuString == menuId) ≤ 1

instance (t : FormTable) (menuId : UInt16) : Decidable (Single t menuId) :=
  inferInstanceAs (Decidable (_ ≤ 1))

/-- A row after removals: unused when its id was removed, else used in the menus it was in. -/
structure RowKept (menuIds : List UInt16) (row row' : FormRow) : Prop where
  same : row'.menuString = row.menuString ∧ row'.formSetGuid = row.formSetGuid ∧
    row'.formId = row.formId
  unused : ∀ showFullMenu, menuIndex showFullMenu row' = unusedIndex ↔
    menuIndex showFullMenu row = unusedIndex ∨ row.menuString ∈ menuIds

/-- Removals keep both numberings, may be repeated and reordered, and leave a table in which
what is displayed at a position is what is found for it. -/
structure RemovalsOk (t : FormTable) (menuIds : List UInt16) : Prop where
  numbered : ∀ showFullMenu, Numbered (menuColumn showFullMenu (removeAll t menuIds))
  rows : List.Forall₂ (RowKept menuIds) t.rows (removeAll t menuIds).rows
  again : ∀ menuId ∈ menuIds,
    removeMenuFromList (removeAll t menuIds) menuId = removeAll t menuIds
  order : ∀ menuIds', (∀ menuId, menuId ∈ menuIds' ↔ menuId ∈ menuIds) →
    removeAll t menuIds' = removeAll t menuIds
  displayed : ∀ showFullMenu position,
    (menuOptions showFullMenu (removeAll t menuIds) position).isSome = true ↔
      position < (menuColumn showFullMenu (removeAll t menuIds)).reduceOption.length
  found : ∀ showFullMenu (formIndex : UInt32) row,
    menuOptions showFullMenu (removeAll t menuIds) formIndex.toNat = some row →
      formForIndex showFullMenu (removeAll t menuIds) formIndex = some row

/-! ## Indexes -/

theorem entry_isSome (index : UInt16) : (entry index).isSome = (index != unusedIndex) := by
  rw [entry]
  by_cases h : index = unusedIndex
  · simp [h]
  · simp [h]

theorem entry_eq_some {index : UInt16} {n : ℕ} :
    entry index = some n ↔ index ≠ unusedIndex ∧ index.toNat = n := by
  rw [entry]
  split <;> simp_all

theorem entry_injective {index index' : UInt16} (h : entry index = entry index') :
    index = index' := by
  by_cases used : index = unusedIndex
  · have unused : entry index' = none := by rw [← h, entry, if_pos used]
    by_contra ne
    rw [entry, if_neg (fun eq => ne (used.trans eq.symm))] at unused
    cases unused
  · have here : entry index = some index.toNat := if_neg used
    exact UInt16.toNat_inj.mp (entry_eq_some.mp (h.symm.trans here)).2.symm

/-- Lowering an index that is in use; 0 is lowered to the index not in use. -/
theorem entry_sub_one {index : UInt16} (used : index ≠ unusedIndex) :
    entry (index - 1) = (entry index).bind Nat.ppred := by
  have here : entry index = some index.toNat := if_neg used
  rw [here, Option.bind_some]
  by_cases zero : index = 0
  · subst zero
    rfl
  · have positive : 0 < index.toNat := Nat.pos_of_ne_zero fun h => zero (UInt16.toNat_inj.mp h)
    have lower : (index - 1).toNat = index.toNat - 1 :=
      UInt16.toNat_sub_of_le index 1 (UInt16.le_iff_toNat_le.mpr positive)
    have below := index.toNat_lt
    obtain ⟨n, hn⟩ : ∃ n, index.toNat = n + 1 := ⟨index.toNat - 1, by omega⟩
    rw [hn, Nat.ppred_succ, entry_eq_some]
    refine ⟨fun h => ?_, by omega⟩
    have last : (index - 1).toNat = 65535 := by rw [h]; rfl
    omega

/-! ## One removal -/

theorem entry_lowered (hit removed : Bool) (index : UInt16) :
    entry
        (if (removed || hit && index != unusedIndex) &&
            (if hit then unusedIndex else index) != unusedIndex then
          (if hit then unusedIndex else index) - 1
        else if hit then unusedIndex else index) =
      if hit then none else if removed then (entry index).bind Nat.ppred else entry index := by
  have unused : entry unusedIndex = none := if_pos rfl
  cases hit with
  | true => simp [unused]
  | false =>
      by_cases used : index = unusedIndex
      · simp [used, unused]
      · cases removed with
        | true => simpa [used] using entry_sub_one used
        | false => simp

theorem column_removePasses (showFullMenu : Bool) (menuId : UInt16) (rows : List FormRow) :
    ∀ full limited, ((removePasses menuId full limited rows).map fun row =>
        entry (menuIndex showFullMenu row)) =
      renumber (if showFullMenu then full else limited)
        (rows.map fun row => (row.menuString == menuId, entry (menuIndex showFullMenu row))) := by
  induction rows with
  | nil => exact fun _ _ => rfl
  | cons row rows ih =>
      intro full limited
      rw [removePasses, List.map_cons, List.map_cons, renumber, ih]
      cases showFullMenu with
      | true =>
          simp only [menuIndex, entry_isSome, Bool.true_eq_false, if_false, if_true]
          exact congrArg (· :: _) (entry_lowered _ _ _)
      | false =>
          simp only [menuIndex, entry_isSome, Bool.false_eq_true, if_false, if_true]
          exact congrArg (· :: _) (entry_lowered _ _ _)

def FormRow.fixed (row : FormRow) : UInt16 × BitVec 128 × UInt16 :=
  (row.menuString, row.formSetGuid, row.formId)

theorem fixed_removePasses (menuId : UInt16) (rows : List FormRow) :
    ∀ full limited, (removePasses menuId full limited rows).map FormRow.fixed =
      rows.map FormRow.fixed := by
  induction rows with
  | nil => exact fun _ _ => rfl
  | cons row rows ih => exact fun full limited => congrArg (row.fixed :: ·) (ih _ _)

structure Removed (t : FormTable) (menuIds : List UInt16) (t' : FormTable) : Prop where
  fixed : t'.rows.map FormRow.fixed = t.rows.map FormRow.fixed
  numbered : ∀ showFullMenu, Numbered (menuColumn showFullMenu t')
  used : ∀ showFullMenu, (t'.rows.map fun row => (entry (menuIndex showFullMenu row)).isSome) =
    t.rows.map fun row => (entry (menuIndex showFullMenu row)).isSome &&
      !menuIds.contains row.menuString

variable {α β γ δ : Type} {t t' t'' : FormTable} {menuIds menuIds' : List UInt16}

theorem map_pair_eq {l : List α} {l' : List β} {f : α → γ} {f' : β → γ} {g : α → δ} {g' : β → δ}
    (first : l'.map f' = l.map f) (second : l'.map g' = l.map g) :
    (l'.map fun b => (f' b, g' b)) = l.map fun a => (f a, g a) := by
  rw [← List.zip_map', ← List.zip_map', first, second]

theorem Removed.start (numbered : ∀ showFullMenu, Numbered (menuColumn showFullMenu t)) :
    Removed t [] t where
  fixed := rfl
  numbered := numbered
  used := by simp

theorem Removed.congr (h : Removed t menuIds t')
    (same : ∀ menuId, menuId ∈ menuIds' ↔ menuId ∈ menuIds) : Removed t menuIds' t' where
  fixed := h.fixed
  numbered := h.numbered
  used := by
    intro showFullMenu
    rw [h.used]
    refine List.map_congr_left fun row _ => ?_
    rw [Bool.eq_iff_iff]
    simp [same]

theorem Removed.unique (h : Removed t menuIds t') (h' : Removed t menuIds t'') : t' = t'' := by
  have columns (showFullMenu : Bool) :
      menuColumn showFullMenu t' = menuColumn showFullMenu t'' := by
    refine (h.numbered showFullMenu).ext (h'.numbered showFullMenu) ?_
    rw [menuColumn, menuColumn, List.map_map, List.map_map]
    exact (h.used showFullMenu).trans (h'.used showFullMenu).symm
  have rows := map_pair_eq (h.fixed.trans h'.fixed.symm)
    (map_pair_eq (columns true) (columns false))
  have injective : Function.Injective fun row : FormRow =>
      (row.fixed, entry (menuIndex true row), entry (menuIndex false row)) := by
    intro row row' eq
    obtain ⟨fixed, indexes⟩ := Prod.mk.inj eq
    obtain ⟨full, limited⟩ := Prod.mk.inj indexes
    obtain ⟨string, form⟩ := Prod.mk.inj fixed
    obtain ⟨guid, id⟩ := Prod.mk.inj form
    have full : row.fullMenuIndex = row'.fullMenuIndex := entry_injective full
    have limited : row.limitedMenuIndex = row'.limitedMenuIndex := entry_injective limited
    cases row
    cases row'
    simp_all
  have same : t'.rows = t''.rows := List.map_injective_iff.mpr injective rows
  cases t'
  cases t''
  simp_all

theorem Single.of_fixed {menuId : UInt16} (single : Single t menuId)
    (fixed : t'.rows.map FormRow.fixed = t.rows.map FormRow.fixed) : Single t' menuId := by
  have counted (t : FormTable) : (t.rows.countP fun row => row.menuString == menuId) =
      (t.rows.map FormRow.fixed).countP fun row => row.1 == menuId := by
    rw [List.countP_map]
    rfl
  rw [Single, counted] at single ⊢
  rwa [fixed]

theorem Removed.step {menuId : UInt16} (h : Removed t menuIds t') (single : Single t menuId) :
    Removed t (menuIds ++ [menuId]) (removeMenuFromList t' menuId) := by
  have column (showFullMenu : Bool) :
      NumberedFrom 0 (menuColumn showFullMenu (removeMenuFromList t' menuId)) ∧
        (menuColumn showFullMenu (removeMenuFromList t' menuId)).map Option.isSome =
          t'.rows.map fun row => (entry (menuIndex showFullMenu row)).isSome &&
            !(row.menuString == menuId) := by
    have pass := column_removePasses showFullMenu menuId t'.rows false false
    rw [ite_self] at pass
    have once := single.of_fixed h.fixed
    have at_most : (t'.rows.countP fun row => row.menuString == menuId &&
        (entry (menuIndex showFullMenu row)).isSome) ≤ 1 := by
      refine le_trans (List.countP_mono_left fun row _ hit => ?_) once
      exact (Bool.and_eq_true_iff.mp hit).1
    rw [menuColumn, removeMenuFromList, pass]
    exact renumber_numbered t'.rows false 0 (h.numbered showFullMenu) at_most
  constructor
  · exact (fixed_removePasses menuId t'.rows false false).trans h.fixed
  · exact fun showFullMenu => (column showFullMenu).1
  · intro showFullMenu
    have used := (column showFullMenu).2
    rw [menuColumn, List.map_map] at used
    refine used.trans ?_
    have both := congrArg (List.map fun pair : Bool × UInt16 × BitVec 128 × UInt16 =>
      pair.1 && !(pair.2.1 == menuId)) (map_pair_eq (h.used showFullMenu) h.fixed)
    rw [List.map_map, List.map_map] at both
    refine Eq.trans both (List.map_congr_left fun row _ => ?_)
    rw [Bool.eq_iff_iff]
    simp [FormRow.fixed, and_assoc]

theorem removed_removeAll (numbered : ∀ showFullMenu, Numbered (menuColumn showFullMenu t))
    (menuIds : List UInt16) (single : ∀ menuId ∈ menuIds, Single t menuId) :
    Removed t menuIds (removeAll t menuIds) := by
  induction menuIds using List.reverseRecOn with
  | nil => exact .start numbered
  | append_singleton menuIds menuId ih =>
      have before := ih fun menuId mem => single menuId (List.mem_append_left _ mem)
      rw [removeAll, List.foldl_append]
      exact before.step (single menuId (List.mem_append_right _ List.mem_cons_self))

theorem Removed.rowKept (h : Removed t menuIds t') :
    List.Forall₂ (RowKept menuIds) t.rows t'.rows := by
  have both := map_pair_eq h.fixed (map_pair_eq (h.used true) (h.used false))
  rw [eq_comm, ← List.forall₂_eq_eq_eq, List.forall₂_map_left_iff,
    List.forall₂_map_right_iff] at both
  refine both.imp fun row row' eq => ?_
  obtain ⟨fixed, used⟩ := Prod.mk.inj eq
  obtain ⟨full, limited⟩ := Prod.mk.inj used
  obtain ⟨string, form⟩ := Prod.mk.inj fixed
  obtain ⟨guid, id⟩ := Prod.mk.inj form
  refine ⟨⟨string.symm, guid.symm, id.symm⟩, fun showFullMenu => ?_⟩
  have gone (index index' : UInt16)
      (used : ((entry index).isSome && !menuIds.contains row.menuString) = (entry index').isSome) :
      index' = unusedIndex ↔ index = unusedIndex ∨ row.menuString ∈ menuIds := by
    rw [entry_isSome, entry_isSome, Bool.eq_iff_iff] at used
    simp only [Bool.and_eq_true, bne_iff_ne, Bool.not_eq_true', List.contains_eq_mem,
      decide_eq_false_iff_not] at used
    rw [← not_iff_not, not_or]
    exact used.symm
  cases showFullMenu with
  | true => exact gone _ _ full
  | false => exact gone _ _ limited

/-! ## The menu shown -/

variable {showFullMenu : Bool} {position : ℕ} {row : FormRow}

def shownAt (showFullMenu : Bool) (count position : ℕ) (row : FormRow) : Bool :=
  entry (menuIndex showFullMenu row) == some position && decide (position < count)

theorem shownAt_iff {count : ℕ} : shownAt showFullMenu count position row = true ↔
    (menuIndex showFullMenu row ≠ unusedIndex ∧ (menuIndex showFullMenu row).toNat = position) ∧
      position < count := by
  rw [shownAt, Bool.and_eq_true, beq_iff_eq, decide_eq_true_iff, entry_eq_some]

theorem menuOptions_eq (showFullMenu : Bool) (t : FormTable) (position : ℕ) :
    menuOptions showFullMenu t position =
      t.rows.reverse.find? (shownAt showFullMenu t.menuOptionCount position) := by
  rw [menuOptions]
  generalize t.menuOptionCount = count
  induction t.rows using List.reverseRecOn with
  | nil => rfl
  | append_singleton rows row ih =>
      rw [List.foldl_append, List.foldl_cons, List.foldl_nil, List.reverse_append,
        List.reverse_singleton, List.singleton_append, List.find?_cons, ← ih]
      cases shown : shownAt showFullMenu count position row with
      | true =>
          obtain ⟨⟨used, rfl⟩, below⟩ := shownAt_iff.mp shown
          rw [if_pos ⟨used.symm, below⟩, Function.update_self]
      | false =>
          split
          · rename_i stored
            refine Function.update_of_ne (fun at_cell => ?_) _ _
            subst at_cell
            rw [shownAt_iff.mpr ⟨⟨stored.1.symm, rfl⟩, stored.2⟩] at shown
            cases shown
          · rfl

theorem menuOptions_eq_some (h : menuOptions showFullMenu t position = some row) :
    row ∈ t.rows ∧ entry (menuIndex showFullMenu row) = some position := by
  rw [menuOptions_eq] at h
  have shown := List.find?_some h
  rw [shownAt, Bool.and_eq_true, beq_iff_eq] at shown
  exact ⟨List.mem_reverse.mp (List.mem_of_find?_eq_some h), shown.1⟩

theorem menuOptions_isSome (numbered : Numbered (menuColumn showFullMenu t)) :
    (menuOptions showFullMenu t position).isSome = true ↔
      position < (menuColumn showFullMenu t).reduceOption.length := by
  have few : (menuColumn showFullMenu t).reduceOption.length ≤ t.menuOptionCount := by
    refine (List.reduceOption_length_le _).trans (le_of_eq ?_)
    exact List.length_map _
  rw [menuOptions_eq, List.find?_isSome, ← numbered.mem_iff, menuColumn, List.mem_map]
  refine exists_congr fun row => ?_
  rw [List.mem_reverse, shownAt_iff, ← entry_eq_some]
  refine and_congr_right fun member => and_iff_left_of_imp fun used => ?_
  exact (numbered.mem_iff.mp (List.mem_map.mpr ⟨row, member, used⟩)).trans_le few

theorem formForIndex_eq (numbered : Numbered (menuColumn showFullMenu t)) {formIndex : UInt32}
    (shown : menuOptions showFullMenu t formIndex.toNat = some row) :
    formForIndex showFullMenu t formIndex = some row := by
  obtain ⟨member, used⟩ := menuOptions_eq_some shown
  have at_index := (entry_eq_some.mp used).2
  have matches_index : ((menuIndex showFullMenu row).toUInt32 == formIndex) = true := by
    rw [beq_iff_eq, ← UInt32.toNat_inj, UInt16.toNat_toUInt32, at_index]
  have some_row : (t.rows.find? fun row =>
      (menuIndex showFullMenu row).toUInt32 == formIndex).isSome = true :=
    List.find?_isSome.mpr ⟨row, member, matches_index⟩
  obtain ⟨row', search⟩ := Option.isSome_iff_exists.mp some_row
  have same : menuIndex showFullMenu row' = menuIndex showFullMenu row := by
    have found := List.find?_some search
    rw [beq_iff_eq] at found
    rw [← UInt16.toNat_inj, at_index, ← UInt16.toNat_toUInt32, found]
  have used' : entry (menuIndex showFullMenu row') = some formIndex.toNat := same ▸ used
  rw [formForIndex, search, numbered.unique member (List.mem_of_find?_eq_some search) used used']

/-! ## Removals -/

/-- Removals do what they should on a table whose menus are both numbered in order. -/
theorem removals_ok (t : FormTable) (menuIds : List UInt16)
    (numbered : ∀ showFullMenu, Numbered (menuColumn showFullMenu t))
    (single : ∀ menuId ∈ menuIds, Single t menuId) : RemovalsOk t menuIds := by
  have removed := removed_removeAll numbered menuIds single
  constructor
  · exact removed.numbered
  · exact removed.rowKept
  · intro menuId member
    refine ((removed.step (single menuId member)).congr fun other => ?_).unique removed
    rw [List.mem_append, List.mem_singleton]
    exact ⟨.inl, fun h => h.elim id fun eq => eq ▸ member⟩
  · intro menuIds' same
    have removed' := removed_removeAll numbered menuIds' fun menuId member =>
      single menuId ((same menuId).mp member)
    exact (removed'.congr fun menuId => (same menuId).symm).unique removed
  · exact fun showFullMenu _ => menuOptions_isSome (removed.numbered showFullMenu)
  · exact fun showFullMenu _ _ => formForIndex_eq (removed.numbered showFullMenu)

/-- `mFormMap`; the build gives the string ids, and each menu has its form set and form id. -/
def mFormMap (modelInfo security bootOrder dfci hwh exit : UInt16)
    (form : UInt16 → BitVec 128 × UInt16) : FormTable where
  rows :=
    [⟨0, 0, modelInfo, (form modelInfo).1, (form modelInfo).2⟩,
      ⟨1, unusedIndex, security, (form security).1, (form security).2⟩,
      ⟨2, unusedIndex, bootOrder, (form bootOrder).1, (form bootOrder).2⟩,
      ⟨3, 1, dfci, (form dfci).1, (form dfci).2⟩,
      ⟨4, unusedIndex, hwh, (form hwh).1, (form hwh).2⟩,
      ⟨5, 2, exit, (form exit).1, (form exit).2⟩]
  count := ⟨Nat.le_of_ble_eq_true rfl, Nat.le_of_ble_eq_true rfl⟩

/-- The removals `CreateTopMenu` makes without DFCI and hardware health menus. -/
theorem removals_ok_mFormMap :
    RemovalsOk (mFormMap 1 2 3 4 5 6 fun menuString => (0, menuString)) [4, 5] :=
  removals_ok _ _ (by decide)
    (List.forall_mem_cons.mpr ⟨by decide, List.forall_mem_singleton.mpr (by decide)⟩)

end MuTegra.FrontPage.FormMap
