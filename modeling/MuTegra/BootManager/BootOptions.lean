/- Unit: MuTegra/BootManager/BootOptions
   source: NvidiaPkg/Library/MsBootOptionsLib/MsBootOptionsLib.c
   digest: Registered boot options are told apart up to their ACTIVE attribute. -/

import MuTegra.Foundation.Registering
import MuTegra.Foundation.Runs
import MuTegra.Uefi.Status
import MuTegra.Uefi.Strings

set_option autoImplicit false
set_option relaxedAutoImplicit false

namespace MuTegra.BootManager.BootOptions

open MuTegra.Foundation.Registering
open MuTegra.Foundation.Runs
open MuTegra.Uefi.Status
open MuTegra.Uefi.Strings (ascii wide)

inductive LoadOptionType
  | driver
  | sysPrep
  | boot
  | platformRecovery
  deriving DecidableEq, Repr

/-- The fields of an `EFI_BOOT_MANAGER_LOAD_OPTION` by which options are compared. -/
structure Contents where
  optionType : LoadOptionType
  attributes : BitVec 32
  description : List UInt16
  filePath : List UInt8
  optionalData : List UInt8
  deriving DecidableEq

structure LoadOption where
  optionNumber : ℕ
  contents : Contents
  deriving DecidableEq

def loadOptionNumberUnassigned : ℕ := 0x10000

def loadOptionActive : BitVec 32 := 1#32

/-- `Attributes ^= LOAD_OPTION_ACTIVE`. -/
def Contents.toggle (c : Contents) : Contents :=
  { c with attributes := c.attributes ^^^ loadOptionActive }

/-- What the boot services answer while an option is created. Nothing sets the path for the shell
file; `unsetPath` is what it then holds. -/
structure Creation where
  pcdShellFile : BitVec 128
  unsetPath : Option (List UInt8)
  loadedImageStatus : EfiStatus
  volumeStatus : EfiStatus
  sectionStatus : EfiStatus
  appended : Option (List UInt8)
  initializeStatus : EfiStatus

/-- The arguments of `RegisterFvBootOption`, with the answers its creation gets. -/
structure Request where
  fileGuid : Option (BitVec 128)
  description : Option (List UInt16)
  position : ℕ
  attributes : BitVec 32
  optionalData : List UInt8
  creation : Creation

structure UefiBootManagerLib where
  /-- The index of an option with the contents, or -1. -/
  findLoadOption : Contents → (options : List LoadOption) → Option (Fin options.length)
  /-- The number of the new option, and the options with it. -/
  addLoadOptionVariable : Contents → ℕ → List LoadOption → ℕ × List LoadOption

/-- `EfiBootManagerFindLoadOption` returns the index of an option with the contents, or -1. -/
structure FindSpec (lib : UefiBootManagerLib) : Prop where
  found : ∀ key options i, lib.findLoadOption key options = some i → options[i].contents = key
  absent : ∀ key options, lib.findLoadOption key options = none →
    ∀ option ∈ options, option.contents ≠ key

/-- `EfiBootManagerAddLoadOptionVariable` adds the option it is given, under a fresh number. -/
structure AddSpec (lib : UefiBootManagerLib) : Prop where
  inserted : ∀ contents position options,
    Inserted ⟨(lib.addLoadOptionVariable contents position options).1, contents⟩ options
      (lib.addLoadOptionVariable contents position options).2
  fresh : ∀ contents position options, ∀ option ∈ options,
    option.optionNumber ≠ (lib.addLoadOptionVariable contents position options).1

/-! ## The functions -/

def bootDevicePath (fileGuid : BitVec 128) (c : Creation) :
    Except EfiStatus (Option (List UInt8)) :=
  if fileGuid ≠ c.pcdShellFile then
    if efiError c.loadedImageStatus || efiError c.volumeStatus || efiError c.sectionStatus then
      .error efiNotFound
    else if c.appended.isNone then .error efiOutOfResources
    else .ok c.appended
  else .ok c.unsetPath

/-- `EfiBootManagerInitializeLoadOption`; a null path is an invalid parameter. -/
def initializeLoadOption (status : EfiStatus) (attributes : BitVec 32) (description : List UInt16)
    (devicePath : Option (List UInt8)) (optionalData : List UInt8) : Except EfiStatus Contents :=
  match devicePath with
  | none => .error efiInvalidParameter
  | some filePath =>
      if efiError status then .error status
      else .ok ⟨.boot, attributes, description, filePath, optionalData⟩

def createFvBootOption (request : Request) : Except EfiStatus Contents :=
  match request.fileGuid, request.description with
  | some fileGuid, some description =>
      (bootDevicePath fileGuid request.creation).bind fun devicePath =>
        initializeLoadOption request.creation.initializeStatus request.attributes description
          devicePath request.optionalData
  | _, _ => .error efiInvalidParameter

/-- `RegisterFvBootOption`: the number it returns, and the boot options it leaves. -/
def registerFvBootOption (lib : UefiBootManagerLib) (bootOptions : List LoadOption)
    (request : Request) : ℕ × List LoadOption :=
  match createFvBootOption request with
  | .error _ => (loadOptionNumberUnassigned, bootOptions)
  | .ok newOption =>
      match lib.findLoadOption newOption bootOptions with
      | some optionIndex => (bootOptions[optionIndex].optionNumber, bootOptions)
      | none =>
          -- the bit is toggled for a second search, and toggled back
          let newOption := newOption.toggle
          let optionIndex := lib.findLoadOption newOption bootOptions
          let newOption := newOption.toggle
          match optionIndex with
          | some optionIndex => (bootOptions[optionIndex].optionNumber, bootOptions)
          | none => lib.addLoadOptionVariable newOption request.position bootOptions

/-- A call of `MsBootOptionsLibRegisterDefaultBootOptions`: a file of the boot policy with a
parameter, terminator included. -/
def defaultRequest (msBootPolicyFile : BitVec 128) (description parameter : String)
    (creation : Creation) : Request where
  fileGuid := some msBootPolicyFile
  description := some (wide description)
  position := 0xffffffff
  attributes := loadOptionActive
  optionalData := ascii parameter ++ [0]
  creation := creation

def msBootOptionsLibRegisterDefaultBootOptions (lib : UefiBootManagerLib)
    (msBootPolicyFile : BitVec 128) (sdd usb : Creation) (bootOptions : List LoadOption) :
    List LoadOption :=
  stateAfter (registerFvBootOption lib) bootOptions
    [defaultRequest msBootPolicyFile "Internal Storage" "SDD" sdd,
      defaultRequest msBootPolicyFile "USB Storage" "USB" usb]

/-! ## What it should do -/

def EqualUpToActive (c d : Contents) : Prop :=
  { c with attributes := c.attributes ||| loadOptionActive } =
    { d with attributes := d.attributes ||| loadOptionActive }

def SameOption (a b : LoadOption) : Prop := EqualUpToActive a.contents b.contents

/-- A call for `contents` returned `number` and left `options'`: an option of that number equal up
to ACTIVE was there and nothing changed, or there was none and one of a fresh number came in. -/
inductive Registered (contents : Contents) (options : List LoadOption) :
    ℕ × List LoadOption → Prop
  | reused (option : LoadOption) (mem : option ∈ options)
      (same : EqualUpToActive contents option.contents) :
      Registered contents options (option.optionNumber, options)
  | added {number : ℕ} {options' : List LoadOption}
      (none : ∀ option ∈ options, ¬ EqualUpToActive contents option.contents)
      (fresh : ∀ option ∈ options, option.optionNumber ≠ number)
      (inserted : Inserted ⟨number, contents⟩ options options') :
      Registered contents options (number, options')

/-- `EfiBootManagerFindLoadOption` takes the options in order. -/
def FindsFirst (lib : UefiBootManagerLib) : Prop :=
  ∀ key options i, lib.findLoadOption key options = some i →
    options.find? (fun option => option.contents = key) = some options[i]

structure RegistersUpToActive (lib : UefiBootManagerLib) (options : List LoadOption)
    (requests : List Request) : Prop where
  each : ∀ before request after contents, requests = before ++ request :: after →
    createFvBootOption request = .ok contents →
      let options := stateAfter (registerFvBootOption lib) options before
      Registered contents options (registerFvBootOption lib options request)
  added : ∃ added,
    Grown SameOption options added (stateAfter (registerFvBootOption lib) options requests)
  again : ∀ before request after contents, requests = before ++ request :: after →
    createFvBootOption request = .ok contents →
      let options := stateAfter (registerFvBootOption lib) options before
      let outcome := registerFvBootOption lib options request
      registerFvBootOption lib outcome.2 request = outcome
  later : ∀ before first between second after contents,
    requests = before ++ first :: between ++ second :: after →
    createFvBootOption first = .ok contents → createFvBootOption second = .ok contents →
      let earlier := stateAfter (registerFvBootOption lib) options before
      let options := stateAfter (registerFvBootOption lib) options (before ++ first :: between)
      (registerFvBootOption lib options second).2 = options ∧
        (FindsFirst lib → (registerFvBootOption lib options second).1 =
          (registerFvBootOption lib earlier first).1)

/-! ## The ACTIVE bit -/

theorem getLsbD_active (i : ℕ) : loadOptionActive.getLsbD i = decide (i = 0) := by
  rw [loadOptionActive, BitVec.getLsbD_one]
  rfl

theorem or_active_iff (a b : BitVec 32) :
    a ||| loadOptionActive = b ||| loadOptionActive ↔ b = a ∨ b = a ^^^ loadOptionActive := by
  constructor
  · intro h
    have hrest : ∀ i, i ≠ 0 → b.getLsbD i = a.getLsbD i := by
      intro i hi
      have hbit := congrArg (fun w => BitVec.getLsbD w i) h
      rw [BitVec.getLsbD_or, BitVec.getLsbD_or, getLsbD_active, decide_eq_false hi,
        Bool.or_false, Bool.or_false] at hbit
      exact hbit.symm
    by_cases hlow : b.getLsbD 0 = a.getLsbD 0
    · left
      apply BitVec.eq_of_getLsbD_eq
      intro i _
      by_cases hi : i = 0
      · rwa [hi]
      · exact hrest i hi
    · right
      apply BitVec.eq_of_getLsbD_eq
      intro i _
      rw [BitVec.getLsbD_xor, getLsbD_active]
      by_cases hi : i = 0
      · rw [hi, decide_eq_true rfl, Bool.xor_true]
        exact Bool.eq_not_of_ne hlow
      · rw [decide_eq_false hi, Bool.xor_false]
        exact hrest i hi
  · rintro (rfl | rfl)
    · rfl
    · apply BitVec.eq_of_getLsbD_eq
      intro i _
      rw [BitVec.getLsbD_or, BitVec.getLsbD_or, BitVec.getLsbD_xor]
      cases a.getLsbD i <;> cases loadOptionActive.getLsbD i <;> rfl

@[simp] theorem Contents.toggle_toggle (c : Contents) : c.toggle.toggle = c := by
  rw [toggle, toggle, BitVec.xor_assoc, BitVec.xor_self, BitVec.xor_zero]

theorem equalUpToActive_iff {c d : Contents} : EqualUpToActive c d ↔ d = c ∨ d = c.toggle := by
  obtain ⟨cType, cAttributes, cDescription, cPath, cData⟩ := c
  obtain ⟨dType, dAttributes, dDescription, dPath, dData⟩ := d
  rw [EqualUpToActive, Contents.toggle]
  simp only [Contents.mk.injEq, or_active_iff]
  constructor
  · rintro ⟨rfl, rfl | rfl, rfl, rfl, rfl⟩
    · exact .inl ⟨rfl, rfl, rfl, rfl, rfl⟩
    · exact .inr ⟨rfl, rfl, rfl, rfl, rfl⟩
  · rintro (⟨rfl, rfl, rfl, rfl, rfl⟩ | ⟨rfl, rfl, rfl, rfl, rfl⟩)
    · exact ⟨rfl, .inl rfl, rfl, rfl, rfl⟩
    · exact ⟨rfl, .inr rfl, rfl, rfl, rfl⟩

theorem equalUpToActive_symm {c d : Contents} (h : EqualUpToActive c d) : EqualUpToActive d c :=
  h.symm

theorem equalUpToActive_trans {c d e : Contents} (h : EqualUpToActive c d)
    (h' : EqualUpToActive d e) : EqualUpToActive c e :=
  h.trans h'

/-! ## One call -/

variable {lib : UefiBootManagerLib} {options : List LoadOption} {request : Request}
    {contents : Contents}

def searched (lib : UefiBootManagerLib) (contents : Contents) (options : List LoadOption) :
    Option (Fin options.length) :=
  (lib.findLoadOption contents options).or (lib.findLoadOption contents.toggle options)

theorem registerFvBootOption_eq (hcreate : createFvBootOption request = .ok contents) :
    registerFvBootOption lib options request =
      match searched lib contents options with
      | some i => (options[i].optionNumber, options)
      | none => lib.addLoadOptionVariable contents request.position options := by
  rw [registerFvBootOption, hcreate, searched]
  cases hfound : lib.findLoadOption contents options with
  | some i => simp only [hfound, Option.some_or]
  | none => simp only [hfound, Option.none_or, Contents.toggle_toggle]

theorem registerFvBootOption_of_error {status : EfiStatus}
    (hcreate : createFvBootOption request = .error status) :
    registerFvBootOption lib options request = (loadOptionNumberUnassigned, options) := by
  rw [registerFvBootOption, hcreate]

theorem searched_some (hfind : FindSpec lib) {i : Fin options.length}
    (h : searched lib contents options = some i) :
    EqualUpToActive contents options[i].contents := by
  rw [equalUpToActive_iff]
  rw [searched] at h
  cases hfirst : lib.findLoadOption contents options with
  | some j =>
      rw [hfirst, Option.some_or, Option.some_inj] at h
      subst h
      exact .inl (hfind.found _ _ _ hfirst)
  | none =>
      rw [hfirst, Option.none_or] at h
      exact .inr (hfind.found _ _ _ h)

theorem searched_none (hfind : FindSpec lib) (h : searched lib contents options = none) :
    ∀ option ∈ options, ¬ EqualUpToActive contents option.contents := by
  rw [searched, Option.or_eq_none_iff] at h
  intro option hmem hsame
  rcases equalUpToActive_iff.mp hsame with heq | htoggled
  · exact hfind.absent _ _ h.1 option hmem heq
  · exact hfind.absent _ _ h.2 option hmem htoggled

theorem registerFvBootOption_registered (hfind : FindSpec lib) (hadd : AddSpec lib)
    (options : List LoadOption) (hcreate : createFvBootOption request = .ok contents) :
    Registered contents options (registerFvBootOption lib options request) := by
  rw [registerFvBootOption_eq hcreate]
  cases hsearched : searched lib contents options with
  | some i => exact .reused options[i] (List.getElem_mem _) (searched_some hfind hsearched)
  | none =>
      exact .added (searched_none hfind hsearched) (hadd.fresh _ _ _) (hadd.inserted _ _ _)

theorem Registered.unchanged {outcome : ℕ × List LoadOption}
    (h : Registered contents options outcome) {option : LoadOption} (hmem : option ∈ options)
    (hsame : EqualUpToActive contents option.contents) : outcome.2 = options := by
  cases h with
  | reused => rfl
  | added none => exact absurd hsame (none option hmem)

theorem Registered.present {outcome : ℕ × List LoadOption}
    (h : Registered contents options outcome) :
    ∃ option ∈ outcome.2, EqualUpToActive contents option.contents ∧
      option.optionNumber = outcome.1 := by
  cases h with
  | reused option mem same => exact ⟨option, mem, same, rfl⟩
  | added none fresh inserted => exact ⟨_, inserted.mem_iff.mpr (.inl rfl), rfl, rfl⟩

theorem registerFvBootOption_again (hfind : FindSpec lib) (hadd : AddSpec lib)
    (options : List LoadOption) (hcreate : createFvBootOption request = .ok contents) :
    registerFvBootOption lib (registerFvBootOption lib options request).2 request =
      registerFvBootOption lib options request := by
  have hfirst := registerFvBootOption_registered hfind hadd options hcreate
  generalize houtcome : registerFvBootOption lib options request = outcome at hfirst ⊢
  cases hfirst with
  | reused option mem same => exact houtcome
  | @added number options' none fresh inserted =>
      have hagain := registerFvBootOption_registered hfind hadd options' hcreate
      generalize registerFvBootOption lib options' request = outcome at hagain ⊢
      cases hagain with
      | reused option mem same =>
          rcases inserted.mem_iff.mp mem with rfl | hold
          · rfl
          · exact absurd same (none option hold)
      | added none' => exact absurd rfl (none' _ (inserted.mem_iff.mpr (.inl rfl)))

/-! ## Sequences of calls -/

theorem Registered.registers {outcome : ℕ × List LoadOption}
    (h : Registered contents options outcome) :
    ∃ option, Registers SameOption option options outcome.2 := by
  cases h with
  | reused option mem same => exact ⟨⟨0, contents⟩, .known option mem same⟩
  | added none fresh inserted => exact ⟨⟨_, contents⟩, .new none inserted⟩

theorem step_registers (hfind : FindSpec lib) (hadd : AddSpec lib) (options : List LoadOption)
    (request : Request) :
    (registerFvBootOption lib options request).2 = options ∨
      ∃ option, Registers SameOption option options
        (registerFvBootOption lib options request).2 := by
  cases hcreate : createFvBootOption request with
  | error status =>
      left
      rw [registerFvBootOption_of_error hcreate]
  | ok contents =>
      right
      exact (registerFvBootOption_registered hfind hadd options hcreate).registers

theorem mem_stateAfter (hfind : FindSpec lib) (hadd : AddSpec lib) {option : LoadOption}
    (hmem : option ∈ options) (requests : List Request) :
    option ∈ stateAfter (registerFvBootOption lib) options requests := by
  refine @stateAfter_keeps _ _ _ _ (fun s => option ∈ s) ?_ requests _ hmem
  intro s request hs
  rcases step_registers hfind hadd s request with hsame | ⟨_, hregisters⟩
  · rwa [hsame]
  · exact hregisters.mem hs

theorem unchanged_after (hfind : FindSpec lib) (hadd : AddSpec lib) {first second : Request}
    (hcreate : createFvBootOption first = .ok contents)
    (hcreate' : createFvBootOption second = .ok contents) (between : List Request) :
    let options := stateAfter (registerFvBootOption lib) options (first :: between)
    (registerFvBootOption lib options second).2 = options := by
  have hfirst := registerFvBootOption_registered hfind hadd options hcreate
  obtain ⟨option, hmem, hsame, -⟩ := hfirst.present
  have hsecond := registerFvBootOption_registered hfind hadd
    (stateAfter (registerFvBootOption lib) options (first :: between)) hcreate'
  exact hsecond.unchanged (mem_stateAfter hfind hadd hmem between) hsame

theorem grown_stateAfter (hfind : FindSpec lib) (hadd : AddSpec lib) (options : List LoadOption)
    (requests : List Request) :
    ∃ added, Grown SameOption options added
      (stateAfter (registerFvBootOption lib) options requests) := by
  refine @stateAfter_keeps _ _ _ _ (fun s => ∃ added, Grown SameOption options added s) ?_
    requests _ ⟨[], Grown.refl _ _⟩
  rintro s request ⟨added, hgrown⟩
  rcases step_registers hfind hadd s request with hsame | ⟨option, hregisters⟩
  · exact ⟨added, by rwa [hsame]⟩
  · exact hgrown.registers hregisters

/-- The option the two searches come to when they take the options in order. -/
def lookup (contents : Contents) (options : List LoadOption) : Option LoadOption :=
  (options.find? fun option => option.contents = contents).or
    (options.find? fun option => option.contents = contents.toggle)

theorem find?_contents {key : Contents} {option : LoadOption}
    (h : (options.find? fun option => option.contents = key) = some option) :
    option ∈ options ∧ option.contents = key :=
  ⟨List.mem_of_find?_eq_some h, by simpa using List.find?_some h⟩

theorem lookup_spec {option : LoadOption} (h : lookup contents options = some option) :
    option ∈ options ∧ EqualUpToActive contents option.contents := by
  rw [equalUpToActive_iff]
  rcases Option.or_eq_some_iff.mp h with hequal | ⟨-, htoggled⟩
  · obtain ⟨hmem, hcontents⟩ := find?_contents hequal
    exact ⟨hmem, .inl hcontents⟩
  · obtain ⟨hmem, hcontents⟩ := find?_contents htoggled
    exact ⟨hmem, .inr hcontents⟩

theorem exists_lookup {option : LoadOption} (hmem : option ∈ options)
    (hequal : option.contents = contents) : ∃ found, lookup contents options = some found := by
  have hsome : (options.find? fun option => option.contents = contents).isSome :=
    List.find?_isSome.mpr ⟨option, hmem, decide_eq_true hequal⟩
  obtain ⟨found, hfound⟩ := Option.isSome_iff_exists.mp hsome
  exact ⟨found, by rw [lookup, hfound, Option.some_or]⟩

theorem lookup_inserted {option : LoadOption} {options' : List LoadOption}
    (hinserted : Inserted option options options')
    (hother : ¬ EqualUpToActive contents option.contents) :
    lookup contents options' = lookup contents options := by
  rw [equalUpToActive_iff, not_or] at hother
  rw [lookup, lookup, hinserted.find? (decide_eq_false hother.1),
    hinserted.find? (decide_eq_false hother.2)]

theorem searched_eq_lookup (hfind : FindSpec lib) (hfirst : FindsFirst lib) :
    (searched lib contents options).map (options[·]) = lookup contents options := by
  have hsearch : ∀ key, (lib.findLoadOption key options).map (options[·]) =
      options.find? fun option => option.contents = key := by
    intro key
    cases hfound : lib.findLoadOption key options with
    | some i => exact (hfirst key options i hfound).symm
    | none =>
        symm
        rw [Option.map_none, List.find?_eq_none]
        intro option hmem hequal
        exact hfind.absent key options hfound option hmem (of_decide_eq_true hequal)
  rw [lookup, ← hsearch, ← hsearch, searched, Option.map_or]

theorem lookup_stateAfter (hfind : FindSpec lib) (hadd : AddSpec lib) {option : LoadOption}
    (h : lookup contents options = some option) (requests : List Request) :
    lookup contents (stateAfter (registerFvBootOption lib) options requests) = some option := by
  refine @stateAfter_keeps _ _ _ _ (fun s => lookup contents s = some option) ?_ requests _ h
  intro s request hs
  obtain ⟨hmem, hsame⟩ := lookup_spec hs
  rcases step_registers hfind hadd s request with hunchanged | ⟨other, hregisters⟩
  · rwa [hunchanged]
  · generalize (registerFvBootOption lib s request).2 = s' at hregisters ⊢
    cases hregisters with
    | known => exact hs
    | new apart inserted =>
        rw [lookup_inserted inserted, hs]
        intro hother
        exact apart option hmem (equalUpToActive_trans (equalUpToActive_symm hother) hsame)

theorem lookup_after (hfind : FindSpec lib) (hadd : AddSpec lib) (hfirst : FindsFirst lib)
    {request : Request} (hcreate : createFvBootOption request = .ok contents) :
    ∃ option, lookup contents (registerFvBootOption lib options request).2 = some option ∧
      option.optionNumber = (registerFvBootOption lib options request).1 := by
  rw [registerFvBootOption_eq hcreate]
  have hlookup := @searched_eq_lookup lib options contents hfind hfirst
  cases hsearched : searched lib contents options with
  | some i =>
      rw [hsearched, Option.map_some] at hlookup
      exact ⟨options[i], hlookup.symm, rfl⟩
  | none =>
      have hnone := searched_none hfind hsearched
      have hinserted := hadd.inserted contents request.position options
      obtain ⟨found, hfound⟩ := exists_lookup (hinserted.mem_iff.mpr (.inl rfl)) rfl
      obtain ⟨hmem, hsame⟩ := lookup_spec hfound
      rcases hinserted.mem_iff.mp hmem with rfl | hold
      · exact ⟨_, hfound, rfl⟩
      · exact absurd hsame (hnone found hold)

theorem returned_of_lookup (hfind : FindSpec lib) (hfirst : FindsFirst lib) {request : Request}
    (hcreate : createFvBootOption request = .ok contents) {option : LoadOption}
    (h : lookup contents options = some option) :
    (registerFvBootOption lib options request).1 = option.optionNumber := by
  rw [← searched_eq_lookup hfind hfirst] at h
  obtain ⟨i, hsearched, rfl⟩ := Option.map_eq_some_iff.mp h
  rw [registerFvBootOption_eq hcreate, hsearched]

/-- In any sequence of calls from any boot options, a call reuses an option equal up to ACTIVE and
adds the one it creates only when there is none; what is added stays apart, and repeating a call
adds nothing and returns the same number. -/
theorem registerFvBootOption_upToActive (lib : UefiBootManagerLib) (hfind : FindSpec lib)
    (hadd : AddSpec lib) (options : List LoadOption) (requests : List Request) :
    RegistersUpToActive lib options requests := by
  constructor
  · intro before request after contents _ hcreate
    exact registerFvBootOption_registered hfind hadd _ hcreate
  · exact grown_stateAfter hfind hadd options requests
  · intro before request after contents _ hcreate
    exact registerFvBootOption_again hfind hadd _ hcreate
  · intro before first between second after contents _ hcreate hcreate'
    rw [stateAfter_append, stateAfter]
    constructor
    · exact unchanged_after hfind hadd hcreate hcreate' between
    · intro hfirst
      obtain ⟨option, hlookup, hnumber⟩ := lookup_after hfind hadd hfirst hcreate
      rw [← hnumber]
      exact returned_of_lookup hfind hfirst hcreate' (lookup_stateAfter hfind hadd hlookup between)

theorem registerDefaultBootOptions_again {lib : UefiBootManagerLib} (hfind : FindSpec lib)
    (hadd : AddSpec lib) (msBootPolicyFile : BitVec 128) (sdd usb : Creation)
    (options : List LoadOption) {sddOption usbOption : Contents}
    (hsdd : createFvBootOption (defaultRequest msBootPolicyFile "Internal Storage" "SDD" sdd) =
      .ok sddOption)
    (husb : createFvBootOption (defaultRequest msBootPolicyFile "USB Storage" "USB" usb) =
      .ok usbOption) :
    let registered :=
      msBootOptionsLibRegisterDefaultBootOptions lib msBootPolicyFile sdd usb options
    msBootOptionsLibRegisterDefaultBootOptions lib msBootPolicyFile sdd usb registered =
      registered := by
  have hagain := @unchanged_after lib options _ hfind hadd _ _ hsdd hsdd
    [defaultRequest msBootPolicyFile "USB Storage" "USB" usb]
  have hlast := @unchanged_after lib (registerFvBootOption lib options
    (defaultRequest msBootPolicyFile "Internal Storage" "SDD" sdd)).2 _ hfind hadd _ _ husb husb []
  simp only [msBootOptionsLibRegisterDefaultBootOptions, stateAfter] at hagain hlast ⊢
  rw [hagain, hlast]

/-- The services over a list: a search in order, and new options at the end, numbered above the
others. -/
def listLib : UefiBootManagerLib where
  findLoadOption key options := options.findFinIdx? fun option => option.contents = key
  addLoadOptionVariable contents _ options :=
    let number := (options.map fun option => option.optionNumber + 1).foldr max 0
    (number, options ++ [⟨number, contents⟩])

theorem listLib_find : FindSpec listLib where
  found key options i h := by
    have hfound := List.findFinIdx?_eq_some_iff.mp h
    exact of_decide_eq_true hfound.1
  absent key options h option hmem := by
    have habsent := List.findFinIdx?_eq_none_iff.mp h option hmem
    exact of_decide_eq_false (Bool.eq_false_iff.mpr habsent)

theorem lt_foldr_max {options : List LoadOption} {option : LoadOption} (hmem : option ∈ options) :
    option.optionNumber < (options.map fun option => option.optionNumber + 1).foldr max 0 := by
  induction options with
  | nil => exact absurd hmem List.not_mem_nil
  | cons other options ih =>
      rw [List.map_cons, List.foldr_cons]
      rcases List.mem_cons.mp hmem with rfl | hold
      · omega
      · have hlt := ih hold
        omega

theorem listLib_add : AddSpec listLib where
  inserted _ _ options := ⟨options, [], (List.append_nil options).symm, rfl⟩
  fresh _ _ _ _ hmem := Nat.ne_of_lt (lt_foldr_max hmem)

def fileFound : Creation :=
  ⟨2, none, efiSuccess, efiSuccess, efiSuccess, some [4, 6, 127, 255], efiSuccess⟩

theorem registerFvBootOption_upToActive_twice :
    RegistersUpToActive listLib []
      [defaultRequest 1 "USB Storage" "USB" fileFound,
        defaultRequest 1 "USB Storage" "USB" fileFound] :=
  registerFvBootOption_upToActive listLib listLib_find listLib_add _ _

end MuTegra.BootManager.BootOptions
