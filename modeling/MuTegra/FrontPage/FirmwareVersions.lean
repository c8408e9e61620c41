/- Unit: MuTegra/FrontPage/FirmwareVersions
   source: NvidiaPkg/Applications/FrontPage/FrontPage.c
   digest: The form of firmware versions, whose tokens are kept from one firmware to the next. -/

import Mathlib.Data.List.Infix
import MuTegra.Foundation.Ownership
import MuTegra.Uefi.Status

/-!
`StringId` and `StringId1` start without a value and are set only where a firmware has the name; a
row is made of what they are at that time. The labels around the rows are left out, and what comes
of `HiiUpdateForm` is not looked at.
-/

set_option autoImplicit false
set_option relaxedAutoImplicit false

namespace MuTegra.FrontPage.FirmwareVersions

open MuTegra.Foundation.Ownership MuTegra.Uefi.Status

/-! ## Tokens -/

abbrev Text := List UInt16

/-- An `EFI_STRING_ID` in a variable; the strings of a package count from one. -/
inductive StringId where
  | uninitialised
  | id (n : ℕ)
  deriving DecidableEq

/-- What a token shows: nothing that is determined, no string, or a string. -/
abbrev Shown := Option (Option Text)

inductive Shows (strings : List Text) : StringId → Shown → Prop where
  | undetermined : Shows strings .uninitialised none
  | missing : Shows strings (.id 0) (some none)
  | string {n : ℕ} {text : Text} (found : strings[n]? = some text) :
      Shows strings (.id (n + 1)) (some (some text))

/-- What the firmware management protocol answers for a firmware; `sizeName` and `infoName` tell
whether the two calls of `GetImageInfo` allocate a name of the package. -/
structure FmpCalls where
  size : EfiStatus := efiBufferTooSmall
  sizeName : Bool := false
  allocated : Bool := true
  info : EfiStatus := efiSuccess
  infoName : Bool := false
  imageInfoCount : UInt8 := 1
  imageIdName : Option Text
  versionName : Option Text
  setImageIdName : Bool := true
  setVersionName : Bool := true

structure FormState where
  strings : List Text
  stringId : StringId := .uninitialised
  stringId1 : StringId := .uninitialised
  rows : List (StringId × StringId) := []

structure Page where
  pool : Ledger
  packageVersionName : Option ℕ := none
  form : FormState

/-- A token after a name was given to it, whether the firmware is gone on with, and the strings. -/
structure Named where
  token : StringId
  ok : Bool
  strings : List Text

/-- `HiiSetString` of a name, if there is one, into a variable. -/
def nameToken (name : Option Text) (set : Bool) (token : StringId) (strings : List Text) : Named :=
  match name with
  | none => ⟨token, true, strings⟩
  | some text =>
      if set then ⟨.id (strings.length + 1), true, strings ++ [text]⟩ else ⟨.id 0, false, strings⟩

/-! ## The loop -/

def FormState.addRow (form : FormState) (fmp : FmpCalls) : FormState :=
  if fmp.imageInfoCount = 0 then form
  else
    let name := nameToken fmp.imageIdName fmp.setImageIdName form.stringId form.strings
    let form := { form with stringId := name.token, strings := name.strings }
    if name.ok = false then form
    else
      let version := nameToken fmp.versionName fmp.setVersionName form.stringId1 form.strings
      let form := { form with stringId1 := version.token, strings := version.strings }
      if version.ok = false then form
      else { form with rows := form.rows ++ [(form.stringId, form.stringId1)] }

/-- The name of the package that a call of `GetImageInfo` leaves. -/
def Page.leaveName (page : Page) (left : Bool) : Page :=
  if left then { page with pool := page.pool.grant, packageVersionName := some page.pool.next }
  else page

def Page.cleanUp (page : Page) (fmpImageInfoBuf : Option ℕ) : Page :=
  { page with
    pool := (page.pool.release fmpImageInfoBuf).releaseIfAny page.packageVersionName
    packageVersionName := none }

def Page.pass (page : Page) (fmp : FmpCalls) : Page :=
  let page := page.leaveName fmp.sizeName
  if fmp.size ≠ efiBufferTooSmall then page
  else
    let buffer := page.pool.acquire fmp.allocated
    if buffer.1.isNone then { page with pool := buffer.2 }
    else
      let page :=
        Page.leaveName { page with pool := buffer.2, packageVersionName := none } fmp.infoName
      let form := if efiError fmp.info then page.form else page.form.addRow fmp
      Page.cleanUp { page with form := form } buffer.1

structure FormCalls where
  startOpCodeHandle : Bool := true
  endOpCodeHandle : Bool := true
  locateProtocolBuffer : EfiStatus := efiSuccess
  fmpList : List FmpCalls

/-- The opcode handles, the pool, the strings, and the rows that `HiiUpdateForm` puts in. -/
structure Outcome where
  opCodes : Ledger
  pool : Ledger
  strings : List Text
  form : Option (List (StringId × StringId))

def updateFormWithFirmwareVersions (calls : FormCalls) (opCodes pool : Ledger)
    (strings : List Text) : Outcome :=
  let start := opCodes.acquire calls.startOpCodeHandle
  if start.1.isNone then ⟨start.2, pool, strings, none⟩
  else
    let stop := start.2.acquire calls.endOpCodeHandle
    let free := (stop.2.releaseIfAny start.1).releaseIfAny stop.1
    if stop.1.isNone then ⟨free, pool, strings, none⟩
    else if efiError calls.locateProtocolBuffer then ⟨free, pool, strings, none⟩
    else
      let page := calls.fmpList.foldl Page.pass { pool := pool.grant, form := { strings := strings } }
      ⟨free, page.pool.release (some pool.next), page.form.strings, some page.form.rows⟩

/-! ## What is due -/

def given (name : Option Text) (set : Bool) : Shown :=
  name.map fun text => if set then some text else none

namespace FmpCalls

variable (fmp : FmpCalls)

def readable : Bool :=
  fmp.size == efiBufferTooSmall && fmp.allocated && !efiError fmp.info && fmp.imageInfoCount != 0

def named : Bool := fmp.imageIdName.isNone || fmp.setImageIdName

def nameSet : Shown :=
  if fmp.readable then given fmp.imageIdName fmp.setImageIdName else none

def versionSet : Shown :=
  if fmp.readable && fmp.named then given fmp.versionName fmp.setVersionName else none

def listed : Bool :=
  fmp.readable && fmp.named && (fmp.versionName.isNone || fmp.setVersionName)

def added : List Text := fmp.nameSet.join.toList ++ fmp.versionSet.join.toList

end FmpCalls

def lastSet (set : FmpCalls → Shown) (fmps : List FmpCalls) : Shown :=
  (fmps.filterMap set).getLast?

structure Row where
  fmp : FmpCalls
  name : Shown
  version : Shown

def rowOf (fmps : List FmpCalls) : Option Row :=
  (fmps.getLast?.filter FmpCalls.listed).map fun fmp =>
    ⟨fmp, lastSet FmpCalls.nameSet fmps, lastSet FmpCalls.versionSet fmps⟩

/-- The rows of the firmwares that are listed, each with what was set last. -/
def dueRows (fmps : List FmpCalls) : List Row := fmps.inits.filterMap rowOf

/-- A row shows the names of its own firmware, and nothing where there is none. -/
def Row.Own (row : Row) : Prop :=
  row.name = some row.fmp.imageIdName ∧ row.version = some row.fmp.versionName

instance (row : Row) : Decidable row.Own := inferInstanceAs (Decidable (_ ∧ _))

/-- A firmware with a row that lacks a name comes after one whose name could not be set, and after
none that has set one since. -/
def Settled (fmps : List FmpCalls) : Prop :=
  ∀ before fmp after, fmps = before ++ fmp :: after → fmp.listed = true →
    (fmp.imageIdName = none → lastSet FmpCalls.nameSet before = some none) ∧
      (fmp.versionName = none → lastSet FmpCalls.versionSet before = some none)

/-! ## Single steps -/

variable {strings : List Text} {token : StringId} {shown : Shown}

theorem Shows.append (h : Shows strings token shown) (more : List Text) :
    Shows (strings ++ more) token shown := by
  cases h with
  | undetermined => exact .undetermined
  | missing => exact .missing
  | string found => exact .string ((List.getElem?_append_left
      (List.getElem?_eq_some_iff.mp found).1).trans found)

theorem nameToken_ok (name : Option Text) (set : Bool) :
    (nameToken name set token strings).ok = (name.isNone || set) := by
  cases name with
  | none => rfl
  | some text => cases set <;> rfl

theorem nameToken_strings (name : Option Text) (set : Bool) :
    (nameToken name set token strings).strings = strings ++ (given name set).join.toList := by
  cases name with
  | none => exact (List.append_nil strings).symm
  | some text =>
      cases set with
      | false => exact (List.append_nil strings).symm
      | true => rfl

theorem nameToken_shows (h : Shows strings token shown) (name : Option Text) (set : Bool) :
    Shows (nameToken name set token strings).strings (nameToken name set token strings).token
      ((given name set).or shown) := by
  cases name with
  | none => exact h
  | some text =>
      cases set with
      | false => exact .missing
      | true => exact .string List.getElem?_concat_length

theorem lastSet_concat (set : FmpCalls → Shown) (fmps : List FmpCalls) (fmp : FmpCalls) :
    lastSet set (fmps ++ [fmp]) = (set fmp).or (lastSet set fmps) := by
  rw [lastSet, lastSet, List.filterMap_append, List.getLast?_append]
  refine congrArg (Option.or · _) ?_
  cases found : set fmp <;> simp [found]

theorem dueRows_concat (fmps : List FmpCalls) (fmp : FmpCalls) :
    dueRows (fmps ++ [fmp]) = dueRows fmps ++ (rowOf (fmps ++ [fmp])).toList := by
  rw [dueRows, List.inits_append, List.filterMap_append, ← dueRows]
  cases row : rowOf (fmps ++ [fmp]) <;> simp [row]

theorem rowOf_concat (fmps : List FmpCalls) (fmp : FmpCalls) :
    rowOf (fmps ++ [fmp]) =
      if fmp.listed then
        some ⟨fmp, lastSet FmpCalls.nameSet (fmps ++ [fmp]),
          lastSet FmpCalls.versionSet (fmps ++ [fmp])⟩
      else none := by
  rw [rowOf, List.getLast?_concat]
  cases listed : fmp.listed <;> simp [listed]

theorem mem_dueRows {fmps : List FmpCalls} {row : Row} :
    row ∈ dueRows fmps ↔ ∃ before fmp after, fmps = before ++ fmp :: after ∧
      fmp.listed = true ∧ row = ⟨fmp, lastSet FmpCalls.nameSet (before ++ [fmp]),
        lastSet FmpCalls.versionSet (before ++ [fmp])⟩ := by
  rw [dueRows, List.mem_filterMap]
  constructor
  · rintro ⟨front, inits, found⟩
    obtain ⟨after, rfl⟩ := (List.mem_inits _ _).mp inits
    rcases List.eq_nil_or_concat front with rfl | ⟨before, fmp, rfl⟩
    · cases found
    · rw [List.concat_eq_append, rowOf_concat] at found
      split at found
      · next listed =>
          refine ⟨before, fmp, after, by simp, listed, ?_⟩
          exact (Option.some_inj.mp found).symm
      · cases found
  · rintro ⟨before, fmp, after, rfl, listed, rfl⟩
    refine ⟨before ++ [fmp], (List.mem_inits _ _).mpr ⟨after, by simp⟩, ?_⟩
    rw [rowOf_concat, if_pos listed]

theorem own_given {name : Option Text} {set : Bool} (can : (name.isNone || set) = true)
    (before : Shown) :
    (given name set).or before = some name ↔ (name = none → before = some none) := by
  cases name with
  | none => exact (imp_iff_right rfl).symm
  | some text =>
      have stored : set = true := can
      subst stored
      exact ⟨fun _ => nofun, fun _ => rfl⟩

theorem own_iff {before : List FmpCalls} {fmp : FmpCalls} (listed : fmp.listed = true) :
    Row.Own ⟨fmp, lastSet FmpCalls.nameSet (before ++ [fmp]),
        lastSet FmpCalls.versionSet (before ++ [fmp])⟩ ↔
      (fmp.imageIdName = none → lastSet FmpCalls.nameSet before = some none) ∧
        (fmp.versionName = none → lastSet FmpCalls.versionSet before = some none) := by
  rw [FmpCalls.listed, Bool.and_eq_true, Bool.and_eq_true] at listed
  obtain ⟨⟨readable, named⟩, versioned⟩ := listed
  have name : fmp.nameSet = given fmp.imageIdName fmp.setImageIdName := if_pos readable
  have version : fmp.versionSet = given fmp.versionName fmp.setVersionName := by
    rw [FmpCalls.versionSet, readable, named]
    rfl
  rw [Row.Own, lastSet_concat, lastSet_concat, name, version]
  exact and_congr (own_given named _) (own_given versioned _)

theorem own_iff_settled (fmps : List FmpCalls) :
    (∀ row ∈ dueRows fmps, row.Own) ↔ Settled fmps := by
  constructor
  · intro own before fmp after split listed
    exact (own_iff listed).mp (own _ (mem_dueRows.mpr ⟨before, fmp, after, split, listed, rfl⟩))
  · intro settled row mem
    obtain ⟨before, fmp, after, split, listed, rfl⟩ := mem_dueRows.mp mem
    exact (own_iff listed).mpr (settled before fmp after split listed)

/-! ## The invariant -/

def RowShows (strings : List Text) (tokens : StringId × StringId) (row : Row) : Prop :=
  Shows strings tokens.1 row.name ∧ Shows strings tokens.2 row.version

/-- The form after some firmwares: each token shows what was set last. -/
structure Filled (initial : List Text) (fmps : List FmpCalls) (form : FormState) : Prop where
  strings : form.strings = initial ++ fmps.flatMap FmpCalls.added
  name : Shows form.strings form.stringId (lastSet FmpCalls.nameSet fmps)
  version : Shows form.strings form.stringId1 (lastSet FmpCalls.versionSet fmps)
  rows : List.Forall₂ (RowShows form.strings) form.rows (dueRows fmps)

theorem RowShows.append {strings : List Text} {tokens : StringId × StringId} {row : Row}
    (h : RowShows strings tokens row) (more : List Text) : RowShows (strings ++ more) tokens row :=
  ⟨Shows.append h.1 more, Shows.append h.2 more⟩

section Invariant

variable {initial : List Text} {fmps : List FmpCalls} {fmp : FmpCalls} {form : FormState}

theorem filled_nil (initial : List Text) : Filled initial [] { strings := initial } where
  strings := (List.append_nil initial).symm
  name := .undetermined
  version := .undetermined
  rows := .nil

theorem Filled.pass_over (h : Filled initial fmps form) (unreadable : fmp.readable = false) :
    Filled initial (fmps ++ [fmp]) form := by
  have unset : fmp.nameSet = none := by rw [FmpCalls.nameSet, unreadable]; rfl
  have unversioned : fmp.versionSet = none := by rw [FmpCalls.versionSet, unreadable]; rfl
  have unlisted : fmp.listed = false := by rw [FmpCalls.listed, unreadable]; rfl
  constructor
  · rw [h.strings, List.flatMap_append, List.flatMap_singleton, FmpCalls.added, unset, unversioned]
    exact (congrArg (initial ++ ·) (List.append_nil _)).symm
  · rw [lastSet_concat, unset]
    exact h.name
  · rw [lastSet_concat, unversioned]
    exact h.version
  · rw [dueRows_concat, rowOf_concat, unlisted]
    exact (List.append_nil (dueRows fmps)).symm ▸ h.rows

theorem Filled.addRow (h : Filled initial fmps form) (readable : fmp.readable = true) :
    Filled initial (fmps ++ [fmp]) (form.addRow fmp) := by
  have count : fmp.imageInfoCount ≠ 0 := by
    simp only [FmpCalls.readable, Bool.and_eq_true, bne_iff_ne] at readable
    exact readable.2
  have set : fmp.nameSet = given fmp.imageIdName fmp.setImageIdName := if_pos readable
  have ok := @nameToken_ok form.strings form.stringId fmp.imageIdName fmp.setImageIdName
  have strings := @nameToken_strings form.strings form.stringId fmp.imageIdName fmp.setImageIdName
  have shows := nameToken_shows h.name fmp.imageIdName fmp.setImageIdName
  rw [FormState.addRow, if_neg count]
  dsimp only
  generalize nameToken fmp.imageIdName fmp.setImageIdName form.stringId form.strings = name
    at ok strings shows
  rw [← set, ← lastSet_concat] at shows
  rw [← set] at strings
  have version := strings ▸ h.version.append fmp.nameSet.join.toList
  have rows : List.Forall₂ (RowShows name.strings) form.rows (dueRows fmps) :=
    h.rows.imp fun _ _ shows => strings ▸ shows.append _
  rw [h.strings, List.append_assoc] at strings
  cases named : name.ok with
  | false =>
      have unnamed : fmp.named = false := ok.symm.trans named
      have unversioned : fmp.versionSet = none := by
        rw [FmpCalls.versionSet, unnamed, Bool.and_false]
        rfl
      have unlisted : fmp.listed = false := by
        rw [FmpCalls.listed, unnamed, Bool.and_false]
        rfl
      rw [if_pos rfl]
      constructor
      · rw [List.flatMap_append, List.flatMap_singleton, FmpCalls.added, unversioned]
        rw [Option.join_none, Option.toList_none, List.append_nil]
        exact strings
      · exact shows
      · rw [lastSet_concat, unversioned]
        exact version
      · rw [dueRows_concat, rowOf_concat, unlisted]
        exact (List.append_nil (dueRows fmps)).symm ▸ rows
  | true =>
      have hasName : fmp.named = true := ok.symm.trans named
      have set' : fmp.versionSet = given fmp.versionName fmp.setVersionName := by
        rw [FmpCalls.versionSet, readable, hasName]
        rfl
      have ok' := @nameToken_ok name.strings form.stringId1 fmp.versionName fmp.setVersionName
      have strings' :=
        @nameToken_strings name.strings form.stringId1 fmp.versionName fmp.setVersionName
      have shows' := nameToken_shows version fmp.versionName fmp.setVersionName
      rw [if_neg Bool.true_eq_false.mp]
      generalize nameToken fmp.versionName fmp.setVersionName form.stringId1 name.strings = ver
        at ok' strings' shows'
      rw [← set', ← lastSet_concat] at shows'
      rw [← set'] at strings'
      have shows := strings' ▸ shows.append fmp.versionSet.join.toList
      have rows : List.Forall₂ (RowShows ver.strings) form.rows (dueRows fmps) :=
        rows.imp fun _ _ shows => strings' ▸ shows.append _
      have strings : ver.strings = initial ++ (fmps ++ [fmp]).flatMap FmpCalls.added := by
        rw [strings', strings, List.flatMap_append, List.flatMap_singleton, FmpCalls.added]
        simp only [List.append_assoc]
      have listed : fmp.listed = ver.ok := by
        rw [FmpCalls.listed, readable, hasName, ok']
        rfl
      cases versioned : ver.ok with
      | false =>
          rw [versioned] at listed
          rw [if_pos rfl]
          refine ⟨strings, shows, shows', ?_⟩
          rw [dueRows_concat, rowOf_concat, listed]
          exact (List.append_nil (dueRows fmps)).symm ▸ rows
      | true =>
          rw [versioned] at listed
          rw [if_neg Bool.true_eq_false.mp]
          refine ⟨strings, shows, shows', ?_⟩
          rw [dueRows_concat, rowOf_concat, listed]
          exact List.rel_append rows (.cons ⟨shows, shows'⟩ .nil)

/-! The loop -/

theorem pass_form (page : Page) (fmp : FmpCalls) :
    (page.pass fmp).form = if fmp.readable then page.form.addRow fmp else page.form := by
  have left : ∀ (page : Page) (name : Bool), (page.leaveName name).form = page.form := by
    intro page name
    cases name <;> rfl
  rw [Page.pass, FmpCalls.readable]
  dsimp only
  by_cases small : fmp.size = efiBufferTooSmall
  · rw [if_neg (not_not.mpr small), small, beq_self_eq_true]
    cases fmp.allocated with
    | false => exact left _ _
    | true =>
        change (if efiError fmp.info then _ else _) = _
        rw [left]
        cases efiError fmp.info with
        | true => exact left _ _
        | false =>
            have same := left page fmp.sizeName
            by_cases none : fmp.imageInfoCount = 0
            · rw [none]
              change FormState.addRow (page.leaveName fmp.sizeName).form fmp = page.form
              rw [FormState.addRow, if_pos none, same]
            · rw [bne_iff_ne.mpr none]
              exact congrArg (FormState.addRow · fmp) same
  · rw [if_pos small, beq_false_of_ne small]
    exact left _ _

theorem Filled.pass {page : Page} (h : Filled initial fmps page.form) :
    Filled initial (fmps ++ [fmp]) (page.pass fmp).form := by
  rw [pass_form]
  split
  · next readable => exact h.addRow readable
  · next unreadable => exact h.pass_over (Bool.eq_false_of_not_eq_true unreadable)

theorem filled_foldl (fmpList : List FmpCalls) (page : Page)
    (h : Filled initial fmps page.form) :
    Filled initial (fmps ++ fmpList) (fmpList.foldl Page.pass page).form := by
  induction fmpList generalizing fmps page with
  | nil => exact (List.append_nil fmps).symm ▸ h
  | cons fmp fmpList ih =>
      have next := ih (page.pass fmp) (@Filled.pass _ _ fmp _ h)
      rwa [List.append_assoc] at next

end Invariant

/-! ## The pool -/

def Left (base : Ledger) (n : ℕ) (pool : Ledger) : Prop :=
  ∃ names : Multiset ℕ, Owns base names pool ∧ names.card = n

variable {base : Ledger} {owned : Multiset ℕ} {n : ℕ} {page : Page}

theorem owns_leaveName (h : Owns base owned page.pool) (left : Bool) :
    Owns base (held (page.pool.acquire left).1 + owned) (page.leaveName left).pool := by
  cases left with
  | false => simpa [Page.leaveName] using h
  | true => exact h.grant

theorem owns_cleanUp (h : Owns base owned page.pool) (left : Bool)
    (form : FormState) :
    let buffer := page.pool.acquire true
    let read := Page.leaveName { page with pool := buffer.2, packageVersionName := none } left
    Owns base owned (Page.cleanUp { read with form := form } buffer.1).pool := by
  cases left with
  | false => exact h.grant.release
  | true =>
      have both := h.grant.grant
      rw [add_left_comm] at both
      exact both.release.release

/-- What the first call of `GetImageInfo` leaves is never freed. -/
theorem left_pass (h : Left base n page.pool) (fmp : FmpCalls) :
    Left base (n + fmp.sizeName.toNat) (page.pass fmp).pool := by
  obtain ⟨names, owns, count⟩ := h
  have named := owns_leaveName owns fmp.sizeName
  have counted : (held (page.pool.acquire fmp.sizeName).1 + names).card =
      n + fmp.sizeName.toNat := by
    cases fmp.sizeName <;> simp [count, add_comm]
  rw [Page.pass]
  dsimp only
  split
  · exact ⟨_, named, counted⟩
  · cases fmp.allocated with
    | false => exact ⟨_, named, counted⟩
    | true => exact ⟨_, owns_cleanUp named fmp.infoName _, counted⟩

theorem owns_of_grant {pool : Ledger} (h : Owns base.grant owned pool) :
    Owns base ({base.next} + owned) pool where
  clean := h.clean
  live := by
    rw [h.live, grant_live, Multiset.singleton_add, Multiset.add_cons, Multiset.cons_add]

theorem left_foldl (h : Left base n page.pool) (fmpList : List FmpCalls) :
    Left base (n + fmpList.countP FmpCalls.sizeName) (fmpList.foldl Page.pass page).pool := by
  induction fmpList generalizing n page with
  | nil => exact h
  | cons fmp fmpList ih =>
      have next := ih (left_pass h fmp)
      have count : n + fmp.sizeName.toNat + fmpList.countP FmpCalls.sizeName =
          n + (fmp :: fmpList).countP FmpCalls.sizeName := by
        rw [List.countP_cons]
        cases fmp.sizeName <;> simp [add_assoc, add_comm]
      rwa [count] at next

/-! ## The form -/

namespace FormCalls

variable (calls : FormCalls)

def searches : Bool :=
  calls.startOpCodeHandle && calls.endOpCodeHandle && !efiError calls.locateProtocolBuffer

def searched : List FmpCalls := if calls.searches then calls.fmpList else []

end FormCalls

/-- The form has a row for each firmware that is listed, with the names that were set last; all
opcode handles are freed, and all of the pool but the names that first calls of `GetImageInfo`
have left. -/
structure FormFilled (calls : FormCalls) (opCodes pool : Ledger) (strings : List Text)
    (out : Outcome) : Prop where
  opCodes : Owns opCodes 0 out.opCodes
  pool : Left pool (calls.searched.countP FmpCalls.sizeName) out.pool
  strings : out.strings = strings ++ calls.searched.flatMap FmpCalls.added
  updated : out.form.isSome = calls.searches
  rows : ∀ rows ∈ out.form, List.Forall₂ (RowShows out.strings) rows (dueRows calls.fmpList)
  own : (∀ row ∈ dueRows calls.fmpList, row.Own) ↔ Settled calls.fmpList

theorem formFilled_none {calls : FormCalls} {opCodes pool free : Ledger} {strings : List Text}
    (idle : calls.searches = false) (freed : Owns opCodes 0 free) :
    FormFilled calls opCodes pool strings ⟨free, pool, strings, none⟩ := by
  have searched : calls.searched = [] := by rw [FormCalls.searched, idle]; rfl
  refine ⟨freed, ?_, ?_, ?_, nofun, own_iff_settled _⟩
  · rw [searched]
    exact ⟨0, .refl pool, rfl⟩
  · rw [searched]
    exact (List.append_nil strings).symm
  · rw [idle]
    rfl

/-- A firmware without a name shows the one that was set last for another, or nothing that is
determined. -/
theorem updateFormWithFirmwareVersions_fills (calls : FormCalls) (opCodes pool : Ledger)
    (strings : List Text) :
    FormFilled calls opCodes pool strings
      (updateFormWithFirmwareVersions calls opCodes pool strings) := by
  have searches := FormCalls.searches.eq_1 calls
  rw [updateFormWithFirmwareVersions]
  dsimp only
  cases start : calls.startOpCodeHandle with
  | false =>
      rw [start] at searches
      exact formFilled_none searches (.refl opCodes)
  | true =>
      cases stop : calls.endOpCodeHandle with
      | false =>
          rw [start, stop] at searches
          exact formFilled_none searches (Owns.refl opCodes).grant.release
      | true =>
          have both := (Owns.refl opCodes).grant.grant
          rw [add_left_comm] at both
          have freed := both.release.release
          cases located : efiError calls.locateProtocolBuffer with
          | true =>
              rw [start, stop, located] at searches
              exact formFilled_none searches freed
          | false =>
              rw [start, stop, located] at searches
              have searched : calls.searched = calls.fmpList := if_pos searches
              let page : Page := { pool := pool.grant, form := { strings := strings } }
              have filled := filled_foldl calls.fmpList page (filled_nil strings)
              obtain ⟨names, owns, count⟩ :=
                @left_foldl pool.grant 0 page ⟨0, .refl pool.grant, rfl⟩ calls.fmpList
              refine ⟨freed, ⟨names, .release (owns_of_grant owns), ?_⟩, ?_, ?_, ?_,
                own_iff_settled _⟩
              · rw [searched, count, Nat.zero_add]
              · rw [searched]
                exact filled.strings
              · rw [searches]
                rfl
              · rintro rows ⟨⟩
                exact filled.rows

/-- Two firmwares, of which the second has no name of its version, and shows that of the first. -/
example :
    (dueRows [{ imageIdName := some [65], versionName := some [49] },
      { imageIdName := some [66], versionName := none }]).map (fun row => (row.name, row.version)) =
        [(some (some [65]), some (some [49])), (some (some [66]), some (some [49]))] := by
  decide

end MuTegra.FrontPage.FirmwareVersions
