/- Unit: MuTegra/FrontPage/SessionForms
   source: NvidiaPkg/Applications/FrontPage/FrontPage.c, NvidiaPkg/Applications/FrontPage/FrontPageUi.c
   digest: The forms displayed are those chosen from the menu, and the guarded ones need a token. -/

import MuTegra.FrontPage.SessionEnd

set_option autoImplicit false
set_option relaxedAutoImplicit false

namespace MuTegra.FrontPage.SessionForms

open MuTegra.Foundation.Numbering
open MuTegra.Uefi.Status
open MuTegra.Uefi.Variables
open MuTegra.FrontPage.FormMap
open MuTegra.FrontPage.Passwords
open MuTegra.FrontPage.Session
open MuTegra.FrontPage.SessionEnd

/-! ## What a session should show -/

def FormEvent.cell : FormEvent → Option UInt32
  | .masterFrame n => if n.selects then some n.selectedCell else none
  | _ => none

def selections (events : List FormEvent) : List UInt32 := events.filterMap FormEvent.cell

/-- The cells whose forms are displayed one after the other: the one chosen last, as long as a
form is left for another one. -/
def pages : List Visit → UInt32 → List UInt32
  | [], _ => []
  | visit :: visits, current =>
      current ::
        if visit.actionRequest ≠ .exit ∧ ∃ cell ∈ selections visit.events, cell ≠ current then
          pages visits ((selections visit.events).getLastD current)
        else []

/-- The token is valid, and the firmware gave it to the empty password or to one the user typed. -/
def Authenticated (inputs : MenuInputs) (auth auth' : Auth) : Prop :=
  auth'.authToken ≠ none ∧
    ((getAuthToken none inputs.nullPassword auth).1 = efiSuccess ∨
      efiSuccess ∈ (challengeUserPassword inputs.maxPasswordAttempts inputs.rounds
        (.start inputs.pool inputs.secrets)
        (getAuthToken none inputs.nullPassword auth).2).2.checks)

/-- The list box answers with one of the cells of its menu. -/
def CellsDisplayed (showFullMenu : Bool) (t : FormTable) (visits : List Visit) : Prop :=
  ∀ visit ∈ visits, ∀ cell ∈ selections visit.events,
    (menuOptions showFullMenu t cell.toNat).isSome = true

/-- A session's forms: those of the chosen cells, and the guarded ones only with a token. -/
structure FormsChosen (inputs : SessionInputs) (auth auth' : Auth) (showFullMenu : Bool)
    (fp : Globals) : Prop where
  chosen : fp.forms.map some =
    (pages inputs.visits 0).map fun cell => menuOptions showFullMenu inputs.menuTable cell.toNat
  guarded : ∀ row ∈ fp.forms,
    row.menuString ∈ [inputs.strings.security, inputs.strings.bootOrder, inputs.strings.hwh] →
      Authenticated inputs.menu auth auth'

theorem chooseMenu_full {inputs : MenuInputs} {auth auth' : Auth}
    (h : chooseMenu inputs auth = (some true, auth')) : Authenticated inputs auth auth' := by
  rw [chooseMenu] at h
  dsimp only at h
  split at h
  · obtain ⟨passed, rfl⟩ := Prod.mk.inj h
    obtain ⟨checked, token⟩ := (challengeUserPassword_challenged inputs.maxPasswordAttempts
      inputs.rounds inputs.pool inputs.secrets _).true_iff.mp passed
    exact ⟨token, .inr checked⟩
  · next success =>
      obtain ⟨token, rfl⟩ := Prod.mk.inj h
      refine ⟨fun invalid => ?_, .inl (not_not.mp success)⟩
      rw [invalid] at token
      cases token

/-! ## The menu's table -/

variable {t t' : FormTable} {menuIds : List UInt16} {m : MenuStrings}
    {form : UInt16 → BitVec 128 × UInt16}

/-- A row behind removals comes from one of the same string, in use unless it was removed. -/
theorem removed_rows (h : Removed t menuIds t') (showFullMenu : Bool) :
    (t'.rows.map fun row => (row.menuString, (entry (menuIndex showFullMenu row)).isSome)) =
      t.rows.map fun row => (row.menuString,
        (entry (menuIndex showFullMenu row)).isSome && !menuIds.contains row.menuString) := by
  have strings : t'.rows.map FormRow.menuString = t.rows.map FormRow.menuString := by
    have fixed := congrArg (List.map Prod.fst) h.fixed
    rwa [List.map_map, List.map_map] at fixed
  exact map_pair_eq strings (h.used showFullMenu)

theorem table_numbered (m : MenuStrings) (form : UInt16 → BitVec 128 × UInt16)
    (showFullMenu : Bool) : Numbered (menuColumn showFullMenu (m.table form)) := by
  cases showFullMenu <;> rfl

theorem table_single (m : MenuStrings) (form : UInt16 → BitVec 128 × UInt16) (menuId : UInt16) :
    Single (m.table form) menuId := by
  have count := List.nodup_iff_count_le_one.mp m.nodup menuId
  exact count

theorem menuTable_removed (inputs : SessionInputs) :
    Removed (inputs.strings.table inputs.form) (removedMenus inputs.strings inputs.menu)
      inputs.menuTable :=
  removed_removeAll (table_numbered inputs.strings inputs.form) _
    fun menuId _ => table_single inputs.strings inputs.form menuId

/-- The phone's information is always in the menu, so the menu has a first cell. -/
theorem first_displayed (inputs : SessionInputs) (showFullMenu : Bool) :
    (menuOptions showFullMenu inputs.menuTable 0).isSome = true := by
  have removed := menuTable_removed inputs
  rw [menuOptions_isSome (removed.numbered showFullMenu)]
  have rows := removed_rows removed showFullMenu
  have kept : inputs.strings.modelInfo ∉ removedMenus inputs.strings inputs.menu := by
    have nodup := inputs.strings.nodup
    simp only [List.nodup_cons, List.mem_cons, not_or] at nodup
    rw [removedMenus]
    intro mem
    rcases List.mem_append.mp mem with dfci | hwh
    · split at dfci
      · cases dfci
      · exact nodup.1.2.2.1 (List.mem_singleton.mp dfci)
    · split at hwh
      · cases hwh
      · exact nodup.1.2.2.2.1 (List.mem_singleton.mp hwh)
  have first : (inputs.strings.modelInfo, true) ∈
      inputs.menuTable.rows.map fun row =>
        (row.menuString, (entry (menuIndex showFullMenu row)).isSome) := by
    rw [rows]
    refine List.mem_map.mpr ⟨_, List.mem_cons_self, Prod.ext rfl ?_⟩
    rw [Bool.and_eq_true, Bool.not_eq_true']
    refine ⟨by cases showFullMenu <;> rfl, ?_⟩
    rw [List.contains_eq_mem, decide_eq_false_iff_not]
    exact kept
  obtain ⟨row, mem, eq⟩ := List.mem_map.mp first
  obtain ⟨index, used⟩ := Option.isSome_iff_exists.mp (Prod.mk.inj eq).2
  have below := (removed.numbered showFullMenu).mem_iff.mp (List.mem_map.mpr ⟨row, mem, used⟩)
  exact Nat.zero_lt_of_lt below

theorem limited_unguarded (inputs : SessionInputs) {position : ℕ} {row : FormRow}
    (shown : menuOptions false inputs.menuTable position = some row) :
    row.menuString ∉
      [inputs.strings.security, inputs.strings.bootOrder, inputs.strings.hwh] := by
  obtain ⟨mem, used⟩ := menuOptions_eq_some shown
  have here : (row.menuString, true) ∈ inputs.menuTable.rows.map fun row =>
      (row.menuString, (entry (menuIndex false row)).isSome) :=
    List.mem_map.mpr ⟨row, mem, by rw [used]; rfl⟩
  rw [removed_rows (menuTable_removed inputs)] at here
  obtain ⟨origin, member, eq⟩ := List.mem_map.mp here
  obtain ⟨same, limited⟩ := Prod.mk.inj eq
  have inLimited := (Bool.and_eq_true_iff.mp limited).1
  rw [← same]
  have nodup := inputs.strings.nodup
  simp only [List.nodup_cons, List.mem_cons, not_or, List.not_mem_nil] at nodup
  obtain ⟨⟨infoSecurity, infoBoot, -, infoHwh, -⟩, ⟨-, securityDfci, -, securityExit, -⟩,
    ⟨bootDfci, -, bootExit, -⟩, ⟨dfciHwh, -⟩, ⟨hwhExit, -⟩, -⟩ := nodup
  simp only [List.mem_cons, List.not_mem_nil, or_false, not_or]
  rcases List.mem_cons.mp member with rfl | member
  · exact ⟨infoSecurity, infoBoot, infoHwh⟩
  rcases List.mem_cons.mp member with rfl | member
  · cases inLimited
  rcases List.mem_cons.mp member with rfl | member
  · cases inLimited
  rcases List.mem_cons.mp member with rfl | member
  · exact ⟨Ne.symm securityDfci, Ne.symm bootDfci, dfciHwh⟩
  rcases List.mem_cons.mp member with rfl | member
  · cases inLimited
  · obtain rfl := List.mem_singleton.mp member
    exact ⟨Ne.symm securityExit, Ne.symm bootExit, Ne.symm hwhExit⟩

/-! ## The loop -/

variable {keys : KeyStore} {fp : Globals} {visits : List Visit}

/-- What selecting these cells, and nothing else, does to the loop's variables. -/
structure Followed (fp fp' : Globals) (cells : List UInt32) : Prop where
  index : fp'.currentFormIndex = cells.getLastD fp.currentFormIndex
  terminate : fp'.terminateFrontPage = false ↔
    fp.terminateFrontPage = false ∨ ∃ cell ∈ cells, cell ≠ fp.currentFormIndex
  formMap : fp'.formMap = fp.formMap
  showFullMenu : fp'.showFullMenu = fp.showFullMenu
  forms : fp'.forms = fp.forms

theorem Followed.refl (fp : Globals) : Followed fp fp [] :=
  ⟨rfl, by simp, rfl, rfl, rfl⟩

theorem Followed.silent {fp' : Globals} (index : fp'.currentFormIndex = fp.currentFormIndex)
    (terminate : fp'.terminateFrontPage = fp.terminateFrontPage)
    (formMap : fp'.formMap = fp.formMap)
    (showFullMenu : fp'.showFullMenu = fp.showFullMenu) (forms : fp'.forms = fp.forms) :
    Followed fp fp' [] := by
  refine ⟨index, ?_, formMap, showFullMenu, forms⟩
  rw [terminate]
  exact (Followed.refl fp).terminate

theorem Followed.trans {fp' fp'' : Globals} {cells cells' : List UInt32}
    (h : Followed fp fp' cells) (h' : Followed fp' fp'' cells') :
    Followed fp fp'' (cells ++ cells') := by
  refine ⟨?_, ?_, h'.formMap.trans h.formMap, h'.showFullMenu.trans h.showFullMenu,
    h'.forms.trans h.forms⟩
  · rw [h'.index, h.index]
    cases cells' with
    | nil => rw [List.append_nil]; rfl
    | cons cell cells' => simp [List.getLastD_eq_getLast?]
  · rw [h'.terminate, h.terminate, h.index]
    -- while no cell differs, the index is still the first one
    by_cases moved : ∃ cell ∈ cells, cell ≠ fp.currentFormIndex
    · obtain ⟨cell, mem, ne⟩ := moved
      exact iff_of_true (.inl (.inr ⟨cell, mem, ne⟩))
        (.inr ⟨cell, List.mem_append_left _ mem, ne⟩)
    · have still : cells.getLastD fp.currentFormIndex = fp.currentFormIndex := by
        rw [List.getLastD_eq_getLast?]
        cases last : cells.getLast? with
        | none => rfl
        | some cell =>
            by_contra ne
            exact moved ⟨cell, List.mem_of_getLast? last, ne⟩
      rw [still, or_iff_left moved]
      refine or_congr_right ⟨?_, ?_⟩
      · rintro ⟨cell, mem, ne⟩
        exact ⟨cell, List.mem_append_right _ mem, ne⟩
      · rintro ⟨cell, mem, ne⟩
        rcases List.mem_append.mp mem with before | after
        · exact absurd ⟨cell, before, ne⟩ moved
        · exact ⟨cell, after, ne⟩

theorem event_followed (keys : KeyStore) (e : FormEvent) (fp : Globals) :
    Followed fp (e.run keys fp) (FormEvent.cell e).toList := by
  cases e with
  | storeBootNext attributes data => exact Followed.silent rfl rfl rfl rfl rfl
  | callback question services =>
      obtain ⟨framed, -⟩ := uiCallback_effect keys question services fp
      exact Followed.silent framed.currentFormIndex framed.terminateFrontPage framed.formMap
        framed.showFullMenu framed.forms
  | masterFrame n =>
      rw [FormEvent.run, masterFrameNotifyCallback, FormEvent.cell]
      cases selects : n.selects with
      | false => exact Followed.refl fp
      | true =>
          rw [Bool.true_and, if_pos rfl]
          by_cases same : n.selectedCell = fp.currentFormIndex
          · rw [if_neg (by simp [same])]
            refine ⟨same.symm, ?_, rfl, rfl, rfl⟩
            simp [same]
          · rw [if_pos (by simp [same])]
            refine ⟨rfl, ?_, rfl, rfl, rfl⟩
            exact iff_of_true rfl (.inr ⟨n.selectedCell, List.mem_singleton_self _, same⟩)

theorem events_followed (keys : KeyStore) (events : List FormEvent) (fp : Globals) :
    Followed fp (events.foldl (FormEvent.run keys) fp) (selections events) := by
  induction events generalizing fp with
  | nil => exact Followed.refl fp
  | cons e events ih =>
      have both := (event_followed keys e fp).trans (ih (e.run keys fp))
      rw [List.foldl_cons]
      have cells : selections (e :: events) = (FormEvent.cell e).toList ++ selections events := by
        rw [selections, List.filterMap_cons]
        cases FormEvent.cell e <;> rfl
      rw [cells]
      exact both

/-- A visit to the form of a displayed cell sends its row to the browser, and goes on exactly when
another cell was selected and the browser does not ask to exit. -/
theorem callFrontPage_visit {t : FormTable} {showFullMenu : Bool} {visit : Visit} {row : FormRow}
    (formMap : fp.formMap = t) (menu : fp.showFullMenu = showFullMenu)
    (numbered : Numbered (menuColumn showFullMenu t))
    (shown : menuOptions showFullMenu t fp.currentFormIndex.toNat = some row) :
    let fp' := (callFrontPage keys visit { fp with terminateFrontPage := true }).2
    fp'.forms = fp.forms ++ [row] ∧ fp'.formMap = t ∧ fp'.showFullMenu = showFullMenu ∧
      (fp'.terminateFrontPage = false ↔ visit.actionRequest ≠ .exit ∧
        ∃ cell ∈ selections visit.events, cell ≠ fp.currentFormIndex) ∧
      fp'.currentFormIndex = (selections visit.events).getLastD fp.currentFormIndex := by
  have found : formForIndex fp.showFullMenu fp.formMap fp.currentFormIndex = some row := by
    rw [formMap, menu]
    exact formForIndex_eq numbered shown
  have followed := events_followed keys visit.events
    { fp with terminateFrontPage := true, forms := fp.forms ++ [row] }
  rw [callFrontPage]
  dsimp only
  rw [found]
  dsimp only
  generalize visit.events.foldl (FormEvent.run keys) _ = after at followed ⊢
  have terminate : after.terminateFrontPage = false ↔
      ∃ cell ∈ selections visit.events, cell ≠ fp.currentFormIndex :=
    followed.terminate.trans (or_iff_right (Bool.noConfusion : ¬ true = false))
  rw [Visit.close]
  by_cases exits : visit.actionRequest = .exit
  · rw [if_pos exits]
    refine ⟨followed.forms, followed.formMap.trans formMap, followed.showFullMenu.trans menu, ?_,
      followed.index⟩
    exact iff_of_false (Bool.noConfusion : ¬ true = false) fun h => h.1 exits
  · rw [if_neg exits]
    have unchanged : ∀ reset : Bool,
        let closed := { after with resetRequired := reset }
        closed.forms = fp.forms ++ [row] ∧ closed.formMap = t ∧
          closed.showFullMenu = showFullMenu ∧
          (closed.terminateFrontPage = false ↔ visit.actionRequest ≠ .exit ∧
            ∃ cell ∈ selections visit.events, cell ≠ fp.currentFormIndex) ∧
          closed.currentFormIndex = (selections visit.events).getLastD fp.currentFormIndex :=
      fun reset => ⟨followed.forms, followed.formMap.trans formMap,
        followed.showFullMenu.trans menu, terminate.trans (and_iff_right exits).symm,
        followed.index⟩
    split
    · exact unchanged true
    · exact unchanged after.resetRequired

theorem frontPageLoop_forms {t : FormTable} {showFullMenu : Bool} (keys : KeyStore)
    (numbered : Numbered (menuColumn showFullMenu t))
    (cells : CellsDisplayed showFullMenu t visits) (formMap : fp.formMap = t)
    (menu : fp.showFullMenu = showFullMenu)
    (shown : (menuOptions showFullMenu t fp.currentFormIndex.toNat).isSome = true) :
    (frontPageLoop keys visits fp).2.forms.map some = fp.forms.map some ++
      (pages visits fp.currentFormIndex).map fun cell => menuOptions showFullMenu t cell.toNat := by
  induction visits generalizing fp with
  | nil => rw [frontPageLoop, pages, List.map_nil, List.append_nil]
  | cons visit visits ih =>
      obtain ⟨row, hrow⟩ := Option.isSome_iff_exists.mp shown
      obtain ⟨forms, formMap', menu', terminate, index⟩ :=
        @callFrontPage_visit keys fp t showFullMenu visit row formMap menu numbered hrow
      rw [frontPageLoop]
      generalize (callFrontPage keys visit { fp with terminateFrontPage := true }).2 = fp' at *
      have opened : fp'.forms.map some = fp.forms.map some ++ [some row] := by
        rw [forms, List.map_append]
        rfl
      rw [pages, List.map_cons, hrow]
      by_cases on : fp'.terminateFrontPage = false
      · rw [if_pos on, if_pos (terminate.mp on), ← index]
        have next : (menuOptions showFullMenu t fp'.currentFormIndex.toNat).isSome = true := by
          rw [index, List.getLastD_eq_getLast?]
          cases last : (selections visit.events).getLast? with
          | none => exact shown
          | some cell => exact cells visit List.mem_cons_self cell (List.mem_of_getLast? last)
        rw [ih (fun visit' mem => cells visit' (List.mem_cons_of_mem visit mem)) formMap' menu'
          next, opened, List.append_assoc]
        rfl
      · rw [if_neg on, if_neg fun h => on (terminate.mpr h), opened]
        rfl

theorem leaveFrontPage_forms (readable written : Bool) (fp : Globals) :
    (leaveFrontPage readable written fp).2.forms = fp.forms := by
  rw [leaveFrontPage]
  split
  · rfl
  · rw [processBootNext]
    dsimp only
    split
    · dsimp only
      split <;> rfl
    · rfl

/-- In every session whose list box answers with its own cells, the browser shows the forms of the
cells the user chose, one after the other, and a guarded form only to an authenticated user. -/
theorem uefiMain_formsChosen (inputs : SessionInputs) (auth auth' : Auth)
    (osIndications : Option Variable) (showFullMenu : Bool)
    (menu : chooseMenu inputs.menu auth = (some showFullMenu, auth'))
    (cells : CellsDisplayed showFullMenu inputs.menuTable inputs.visits) :
    FormsChosen inputs auth auth' showFullMenu (uefiMain inputs auth osIndications).2 := by
  have forms : (uefiMain inputs auth osIndications).2.forms =
      (frontPageLoop inputs.keys inputs.visits (inputs.start showFullMenu osIndications)).2.forms := by
    rw [uefiMain, menu]
    dsimp only
    split
    · exact leaveFrontPage_forms _ _ _
    · rfl
  let fp := inputs.start showFullMenu osIndications
  have formMap : fp.formMap = inputs.menuTable := rfl
  have chosen := frontPageLoop_forms inputs.keys
    ((menuTable_removed inputs).numbered showFullMenu) cells formMap rfl
    (first_displayed inputs showFullMenu)
  rw [← forms] at chosen
  refine ⟨chosen, fun row mem guarded => ?_⟩
  have displayed : some row ∈ (uefiMain inputs auth osIndications).2.forms.map some :=
    List.mem_map.mpr ⟨row, mem, rfl⟩
  rw [chosen] at displayed
  obtain ⟨cell, -, shown⟩ := List.mem_map.mp displayed
  cases showFullMenu with
  | true => exact chooseMenu_full menu
  | false => exact absurd guarded (limited_unguarded inputs shown)

/-- Without a password the full menu is shown; the user opens the boot order and leaves. -/
def openedBootOrder : SessionInputs where
  strings := ⟨1, 2, 3, 4, 5, 6, by decide⟩
  form := fun menuString => (0, menuString)
  keys := ⟨255, 3⟩
  menu :=
    { nullPassword := ⟨efiSuccess, efiSuccess, some (some 7), true, efiSuccess⟩
      maxPasswordAttempts := 3
      rounds := []
      pool := .empty
      secrets := fun _ => ⟨[], 0⟩
      dfciEnabled := false
      hwhEnabled := false }
  visits :=
    [⟨[.masterFrame ⟨.userInput, .touch, true, 2⟩], efiSuccess, .none⟩, ⟨[], efiSuccess, .exit⟩]
  readable := true
  written := true

theorem uefiMain_formsChosen_bootOrder :
    FormsChosen openedBootOrder ⟨none, [], [], 0⟩ ⟨some 7, [(none, 0)], [7], 0⟩ true
      (uefiMain openedBootOrder ⟨none, [], [], 0⟩ none).2 := by
  refine uefiMain_formsChosen openedBootOrder _ _ none true rfl ?_
  intro visit mem cell selected
  rcases List.mem_cons.mp mem with rfl | mem
  · obtain rfl := List.mem_singleton.mp selected
    decide
  · obtain rfl := List.mem_singleton.mp mem
    cases selected

end MuTegra.FrontPage.SessionForms
