/- Unit: MuTegra/Loader/HandOver
   source: Tegra30Pkg/Applications/UEFILoader/UEFILoader.c, Tegra30Pkg/Applications/UEFILoader/Exploit.c
   digest: What is in memory when the loader starts the other cores and hands over. -/

import MuTegra.Loader.Payloads
import MuTegra.Loader.TrustZone
import Mathlib.Data.Fin.VecNotation

/-!
The secure world and the other cores are functions on memory. A core that is woken answers with the
memory at the time its entry point reads zero, or it never clears the entry point and the loader
waits. Device registers are words of memory.
-/

set_option autoImplicit false
set_option relaxedAutoImplicit false

namespace MuTegra.Loader.HandOver

open MuTegra.Foundation.ByteFields
open MuTegra.Foundation.MachineWords
open MuTegra.Foundation.Plotting
open MuTegra.Foundation.Words.Occurrence
open MuTegra.Uefi.Status
open MuTegra.MemorySearch.Memory
open MuTegra.MemorySearch.Memmem (listLib listLib_scanMem8 listLib_compareMem)
open MuTegra.Loader.Payloads
open MuTegra.Loader.TrustZone

abbrev Memory := ℕ → UInt8

/-! ## The trust zone -/

def efiSecurityViolation : EfiStatus := encodeError 26#32

def unprotectTZ (smc : UInt32 → UInt32 → UInt32 → UInt32 → Memory → Memory) (mem : Memory) :
    EfiStatus × Memory :=
  let mem := smc 0x3 0x9 0 0 mem
  let mem := smc 0x3 0x5 0 0 mem
  let mem := smc 0x3 0x6 0x40000000 0x6001E0E0 mem
  let mem := blit mem 0x40000000 (List.replicate 32 0)
  let mem := smc 0x3 0x3 0 0 mem
  if loadWord mem 0x80000000 = 0xFFFFFFFF then (efiSecurityViolation, mem) else (efiSuccess, mem)

/-! ## The other cores -/

def mailboxAddr : Fin 4 → ℕ := ![0x82001000, 0x82002000, 0x82003000, 0x82004000]

def cpuId (cpu : Fin 4) : ℕ := mailboxAddr cpu

def entryPoint (cpu : Fin 4) : ℕ := mailboxAddr cpu + 8

structure Signal where
  cpu : Fin 4
  mem : Memory

def wake (cpu : Fin 4) (mem : Memory) : Memory :=
  let mem := storeWord mem (entryPoint 1) 0x93200000
  let mem := storeWord mem (entryPoint 2) 0x93300000
  let mem := storeWord mem (entryPoint 3) 0x93400000
  let mem := storeWord mem (cpuId cpu) cpu
  let mem := storeWord mem 0x50041F00 0x00FE0000
  let mem := storeWord mem 0x50041F00 0x00FE0000
  storeWord mem 0x50041F00 0x00FE0000

/-- The cores are started one after the other; the one that is waited for in vain is returned. -/
def startCores (unpark : Fin 4 → Memory → Option Memory) :
    List (Fin 4) → List Signal → Memory → Fin 4 ⊕ (List Signal × Memory)
  | [], signals, mem => .inr (signals, mem)
  | cpu :: cpus, signals, mem =>
      match unpark cpu (wake cpu mem) with
      | none => .inl cpu
      | some mem' => startCores unpark cpus (signals ++ [⟨cpu, wake cpu mem⟩]) mem'

/-! ## The loader -/

structure Surroundings where
  smc : UInt32 → UInt32 → UInt32 → UInt32 → Memory → Memory
  calls : Load → LoadCalls
  unpark : Fin 4 → Memory → Option Memory
  exitBootServices : EfiStatus

inductive Ending
  /-- In `ExitApp`. -/
  | stopped (status : EfiStatus)
  /-- In the loop for a core. -/
  | waits (cpu : Fin 4)
  /-- In the secure monitor call of `JumpToUEFI`. -/
  | handedOver (signals : List Signal) (mem : Memory)

def setVectors (mem : Memory) : Memory :=
  let mem := storeWord mem 0x82002880 0x93110000
  let mem := storeWord mem 0x82003880 0x93120000
  storeWord mem 0x82004880 0x93130000

def startAndJump (world : Surroundings) (mem : Memory) : Ending :=
  match startCores world.unpark [1, 2, 3] [] mem with
  | .inl cpu => .waits cpu
  | .inr (signals, mem) =>
      if efiError world.exitBootServices then .stopped world.exitBootServices
      else .handedOver signals (storeWord mem 0x50040100 0)

def patchAndJump (lib : BaseMemoryLib) (fuel : ℕ) (world : Surroundings) (m : Machine) :
    Option Ending :=
  (patchTrustZone lib fuel m.mem m.fileSize).map fun copied =>
    startAndJump world (setVectors copied.mem)

def uefiLoaderMain (lib : BaseMemoryLib) (fuel : ℕ) (world : Surroundings) (mem : Memory) :
    Option Ending :=
  let unprotected := unprotectTZ world.smc mem
  if efiError unprotected.1 then some (.stopped unprotected.1)
  else
    match loadAll world.calls loads ⟨unprotected.2, 0⟩ with
    | none => none
    | some (status, m) =>
        if efiError status then some (.stopped status) else patchAndJump lib fuel world m

/-! ## What the surroundings promise -/

/-- A core that is woken clears its own entry point and changes nothing else. -/
def Clears (unpark : Fin 4 → Memory → Option Memory) : Prop :=
  ∀ cpu mem mem', unpark cpu mem = some mem' →
    loadWord mem' (entryPoint cpu) = 0 ∧
      ∀ a, a < entryPoint cpu ∨ entryPoint cpu + 8 ≤ a → mem' a = mem a

/-- The file system, the allocators and the woken cores do as they are documented. -/
structure Surroundings.Sound (world : Surroundings) (files : String → List UInt8) : Prop where
  needsBuffer : ∀ load ∈ loads, efiError (world.calls load).getInfo = true
  serves : ∀ load ∈ loads, efiError (world.calls load).read = false →
    Serves (files load.name) (world.calls load)
  grantsFree : GrantsFree world.calls
  clears : Clears world.unpark

/-- Nothing fails: every file is loaded, every core answers, and the boot services are left. -/
structure Surroundings.Succeeds (world : Surroundings) : Prop where
  loads : ∀ load ∈ loads, (world.calls load).Succeeds
  answers : ∀ cpu mem, (world.unpark cpu mem).isSome = true
  exits : efiError world.exitBootServices = false

def smcPayload : Fin 4 → ℕ := ![0, 0x93200000, 0x93300000, 0x93400000]

/-- What the loader owes to those that it starts and hands over to. -/
structure Delivered (files : String → List UInt8) (unprotected : Memory) (signals : List Signal)
    (mem : Memory) : Prop where
  payloads : ∀ load ∈ loads, bytesAt mem load.address (files load.name).length = files load.name
  trustZone : ∀ offset,
    FirstOccurrence (window unprotected).bytes smcHandlerString.bytes (some offset) →
      bytesAt mem (0x80000000 + offset) (files "ExploitSecureWorld.bin").length =
        files "ExploitSecureWorld.bin"
  vectors : loadWord mem 0x82002880 = 0x93110000 ∧ loadWord mem 0x82003880 = 0x93120000 ∧
    loadWord mem 0x82004880 = 0x93130000
  cores : signals.map Signal.cpu = [1, 2, 3]
  sent : ∀ signal ∈ signals, loadWord signal.mem (cpuId signal.cpu) = signal.cpu ∧
    loadWord signal.mem (entryPoint signal.cpu) = smcPayload signal.cpu ∧
      bytesAt signal.mem (smcPayload signal.cpu) (files "Smc.bin").length = files "Smc.bin"
  -- each core that is started fills the mailboxes of those started before it again
  refilled : loadWord mem (entryPoint 1) = 0x93200000 ∧
    loadWord mem (entryPoint 2) = 0x93300000 ∧ loadWord mem (entryPoint 3) = 0

/-! ## Stores beside what was loaded -/

variable {mem mem' : Memory} {p q w : ℕ}

theorem loadWord_storeWord_apart (hp : p + 4 ≤ 4294967296) (hq : q + 4 ≤ 4294967296)
    (h : q + 4 ≤ p ∨ p + 4 ≤ q) : loadWord (storeWord mem p w) q = loadWord mem q := by
  apply loadWord_storeWord_other
  intro i hi j hj
  rw [toUint32_of_lt (by omega), toUint32_of_lt (by omega)]
  omega

def Loaded (a : ℕ) : Prop := 0x80000000 ≤ a ∧ a < 0x80200000 ∨ 0x84000000 ≤ a

def SameLoaded (mem mem' : Memory) : Prop := ∀ a, Loaded a → mem' a = mem a

theorem SameLoaded.refl (mem : Memory) : SameLoaded mem mem := fun _ _ => rfl

theorem SameLoaded.trans {mem'' : Memory} (h : SameLoaded mem mem') (h' : SameLoaded mem' mem'') :
    SameLoaded mem mem'' := fun a ha => (h' a ha).trans (h a ha)

def Beside (p : ℕ) : Prop := p + 4 ≤ 0x80000000 ∨ 0x80200000 ≤ p ∧ p + 4 ≤ 0x84000000

instance (p : ℕ) : Decidable (Beside p) := inferInstanceAs (Decidable (_ ∨ _))

theorem SameLoaded.storeWord (h : SameLoaded mem mem') (hp : Beside p) (w : ℕ) :
    SameLoaded mem (storeWord mem' p w) := by
  intro a ha
  rw [← h a ha]
  rw [Loaded] at ha
  rw [Beside] at hp
  exact storeWord_off (by omega) (by omega)

theorem SameLoaded.bytesAt_eq (h : SameLoaded mem mem') {a n : ℕ}
    (ha : ∀ i < n, Loaded (a + i)) : bytesAt mem' a n = bytesAt mem a n := by
  apply List.map_congr_left
  intro i hi
  exact h _ (ha i (List.mem_range.mp hi))

/-! ## Starting the cores -/

variable {cpu : Fin 4}

theorem beside_mailbox (cpu : Fin 4) : Beside (entryPoint cpu) ∧ Beside (cpuId cpu) := by
  revert cpu
  decide

theorem wake_sameLoaded (cpu : Fin 4) (mem : Memory) : SameLoaded mem (wake cpu mem) := by
  have h := SameLoaded.refl mem
  have hentries := (((h.storeWord (beside_mailbox 1).1 0x93200000).storeWord (beside_mailbox 2).1
    0x93300000).storeWord (beside_mailbox 3).1 0x93400000).storeWord (beside_mailbox cpu).2 cpu
  have hregister : Beside 0x50041F00 := by decide
  exact ((hentries.storeWord hregister _).storeWord hregister _).storeWord hregister _

/-- Words that `StartSecondaryCores` does not store to. -/
def NotMailbox (q : ℕ) : Prop :=
  0x50041F04 ≤ q ∧ q + 4 ≤ 4294967296 ∧ ∀ cpu, (q + 4 ≤ cpuId cpu ∨ cpuId cpu + 4 ≤ q) ∧
    (q + 4 ≤ entryPoint cpu ∨ entryPoint cpu + 8 ≤ q)

instance (q : ℕ) : Decidable (NotMailbox q) := inferInstanceAs (Decidable (_ ∧ _))

theorem mailbox_lt (cpu : Fin 4) : cpuId cpu + 4 ≤ 4294967296 ∧ entryPoint cpu + 8 ≤ 4294967296 ∧
    0x50041F04 ≤ cpuId cpu ∧ cpuId cpu + 8 = entryPoint cpu := by
  revert cpu
  decide

theorem entryPoint_between (cpu : Fin 4) :
    0x82000000 ≤ entryPoint cpu ∧ entryPoint cpu + 8 ≤ 0x84000000 := by
  revert cpu
  decide

theorem wake_word {q : ℕ} (hq : NotMailbox q) : loadWord (wake cpu mem) q = loadWord mem q := by
  obtain ⟨hregister, hlt, hmailbox⟩ := hq
  have hcell : ∀ cpu w (mem : Memory), loadWord (storeWord mem (entryPoint cpu) w) q =
      loadWord mem q := by
    intro cpu w mem
    obtain ⟨-, hentry⟩ := hmailbox cpu
    obtain ⟨-, hend, -⟩ := mailbox_lt cpu
    exact loadWord_storeWord_apart (by omega) hlt (by omega)
  have hsignal : ∀ w (mem : Memory), loadWord (storeWord mem 0x50041F00 w) q = loadWord mem q :=
    fun w mem => loadWord_storeWord_apart (by decide) hlt (.inr hregister)
  rw [wake, hsignal, hsignal, hsignal,
    loadWord_storeWord_apart (mailbox_lt cpu).1 hlt (hmailbox cpu).1, hcell, hcell, hcell]

theorem wake_id (cpu : Fin 4) (mem : Memory) : loadWord (wake cpu mem) (cpuId cpu) = cpu := by
  obtain ⟨hlt, -, hregister, -⟩ := mailbox_lt cpu
  have hsignal : ∀ w (mem : Memory),
      loadWord (storeWord mem 0x50041F00 w) (cpuId cpu) = loadWord mem (cpuId cpu) :=
    fun w mem => loadWord_storeWord_apart (by decide) hlt (.inr (by omega))
  rw [wake, hsignal, hsignal, hsignal, loadWord_storeWord_self]
  exact toUint32_of_lt (by omega)

theorem wake_entry {k : Fin 4} (hk : k ≠ 0) (cpu : Fin 4) (mem : Memory) :
    loadWord (wake cpu mem) (entryPoint k) = smcPayload k := by
  obtain ⟨-, hlt, hregister, hcell⟩ := mailbox_lt k
  have hapart : ∀ i j : Fin 4, entryPoint i + 4 ≤ cpuId j ∨ cpuId j + 4 ≤ entryPoint i := by decide
  have hentries : ∀ i j : Fin 4, i ≠ j →
      entryPoint i + 4 ≤ entryPoint j ∨ entryPoint j + 4 ≤ entryPoint i := by decide
  have hend : ∀ i, entryPoint i + 4 ≤ 4294967296 := fun i =>
    Nat.le_trans (Nat.add_le_add_left (by decide) _) (mailbox_lt i).2.1
  have hsignal : ∀ w (mem : Memory),
      loadWord (storeWord mem 0x50041F00 w) (entryPoint k) = loadWord mem (entryPoint k) :=
    fun w mem => loadWord_storeWord_apart (by decide) (hend k) (.inr (by omega))
  have hother : ∀ i w (mem : Memory), k ≠ i →
      loadWord (storeWord mem (entryPoint i) w) (entryPoint k) = loadWord mem (entryPoint k) :=
    fun i w mem hi => loadWord_storeWord_apart (hend i) (hend k) (hentries k i hi)
  rw [wake, hsignal, hsignal, hsignal,
    loadWord_storeWord_apart (mailbox_lt cpu).1 (hend k) (hapart k cpu)]
  match k with
  | 0 => exact absurd rfl hk
  | 1 =>
      rw [hother 3 _ _ (by decide), hother 2 _ _ (by decide), loadWord_storeWord_self]
      rfl
  | 2 =>
      rw [hother 3 _ _ (by decide), loadWord_storeWord_self]
      rfl
  | 3 =>
      rw [loadWord_storeWord_self]
      rfl

variable {unpark : Fin 4 → Memory → Option Memory}

/-- A signal is sent with the mailbox filled and everything that was loaded in place. -/
structure Sent (base : Memory) (signal : Signal) : Prop where
  id : loadWord signal.mem (cpuId signal.cpu) = signal.cpu
  entry : signal.cpu ≠ 0 → loadWord signal.mem (entryPoint signal.cpu) = smcPayload signal.cpu
  loaded : SameLoaded base signal.mem

structure Started (base : Memory) (cpus : List (Fin 4)) (signals : List Signal) (mem : Memory) :
    Prop where
  cores : signals.map Signal.cpu = cpus
  sent : ∀ signal ∈ signals, Sent base signal
  loaded : SameLoaded base mem
  words : ∀ q, NotMailbox q → loadWord mem q = loadWord base q
  entries : ∀ last, cpus.getLast? = some last → ∀ k : Fin 4, k ≠ 0 →
    loadWord mem (entryPoint k) = if k = last then 0 else smcPayload k

theorem Started.next {base mem mem' : Memory} {cpus : List (Fin 4)} {signals : List Signal}
    (h : Started base cpus signals mem) (hclears : Clears unpark)
    (hunpark : unpark cpu (wake cpu mem) = some mem') :
    Started base (cpus ++ [cpu]) (signals ++ [⟨cpu, wake cpu mem⟩]) mem' := by
  obtain ⟨hcleared, hkept⟩ := hclears _ _ _ hunpark
  have hwoken := h.loaded.trans (wake_sameLoaded cpu mem)
  have hword : ∀ q, q + 4 ≤ 4294967296 → q + 4 ≤ entryPoint cpu ∨ entryPoint cpu + 8 ≤ q →
      loadWord mem' q = loadWord (wake cpu mem) q := by
    intro q hlt hq
    apply loadWord_congr
    intro i hi
    rw [toUint32_of_lt (by omega)]
    exact hkept _ (by omega)
  have hentry := entryPoint_between cpu
  constructor
  · rw [List.map_append, h.cores]
    rfl
  · intro signal hsignal
    rcases List.mem_append.mp hsignal with hsignal | hsignal
    · exact h.sent signal hsignal
    · rw [List.mem_singleton.mp hsignal]
      exact ⟨wake_id cpu mem, fun hcpu => wake_entry hcpu cpu mem, hwoken⟩
  · refine hwoken.trans fun a ha => hkept a ?_
    rw [Loaded] at ha
    omega
  · intro q hq
    obtain ⟨-, hlt, hmailbox⟩ := id hq
    rw [hword q hlt (hmailbox cpu).2, wake_word hq]
    exact h.words q hq
  · intro last hlast k hk
    rw [List.getLast?_concat, Option.some_inj] at hlast
    subst hlast
    by_cases hsame : k = cpu
    · rw [if_pos hsame, hsame, hcleared]
    · have hapart : ∀ i j : Fin 4, i ≠ j →
          entryPoint i + 4 ≤ entryPoint j ∨ entryPoint j + 8 ≤ entryPoint i := by decide
      have hend := (mailbox_lt k).2.1
      rw [if_neg hsame, hword _ (by omega) (hapart k cpu hsame), wake_entry hk]

theorem startCores_started (hclears : Clears unpark) {base : Memory} {cpus : List (Fin 4)} :
    ∀ {done : List (Fin 4)} {signals signals' : List Signal} {mem mem' : Memory},
      Started base done signals mem →
        startCores unpark cpus signals mem = .inr (signals', mem') →
          Started base (done ++ cpus) signals' mem' := by
  induction cpus with
  | nil =>
      intro done signals signals' mem mem' h hrun
      cases hrun
      rwa [List.append_nil]
  | cons cpu cpus ih =>
      intro done signals signals' mem mem' h hrun
      rw [startCores] at hrun
      cases hunpark : unpark cpu (wake cpu mem) with
      | none =>
          rw [hunpark] at hrun
          cases hrun
      | some mem₁ =>
          rw [hunpark] at hrun
          have hall := ih (h.next hclears hunpark) hrun
          rwa [List.append_assoc] at hall

theorem startCores_answered (answers : ∀ cpu mem, (unpark cpu mem).isSome = true)
    (cpus : List (Fin 4)) :
    ∀ (signals : List Signal) (mem : Memory),
      ∃ out, startCores unpark cpus signals mem = .inr out := by
  induction cpus with
  | nil => exact fun signals mem => ⟨_, rfl⟩
  | cons cpu cpus ih =>
      intro signals mem
      obtain ⟨mem', answered⟩ := Option.isSome_iff_exists.mp (answers cpu (wake cpu mem))
      rw [startCores, answered]
      exact ih _ _

/-! ## The whole loader -/

variable {lib : BaseMemoryLib} {files : String → List UInt8} {world : Surroundings}

theorem patchTrustZone_places (hscan : ScanMem8Spec lib) (hcompare : CompareMemSpec lib)
    {mem : Memory} {fileSize : UInt32} {fuel : ℕ} (hsearch : 0x20000a < fuel)
    (hcopy : fileSize.toNat < fuel) (hfits : FitsWindow mem fileSize) :
    ∃ copied, patchTrustZone lib fuel mem fileSize = some copied ∧ Patched mem fileSize copied := by
  obtain ⟨found, copied, hrun, hat⟩ :=
    patchTrustZone_spec hscan hcompare mem fileSize hsearch hcopy
  refine ⟨copied, hrun, ?_⟩
  rcases hfits with hempty | ⟨offset, hfirst, hfit⟩
  · exact hat.patched_of_empty hempty
  · obtain rfl := hfirst.unique hat.first
    exact hat.patched_of_fits hfit

theorem window_congr {mem mem' : Memory}
    (h : ∀ a, 0x80000000 ≤ a → a < 0x80200000 → mem' a = mem a) : window mem' = window mem := by
  have hbytes : bytesAt mem' 0x80000000 0x200000 = bytesAt mem 0x80000000 0x200000 :=
    bytesAt_congr h
  simp only [window, hbytes]

theorem setVectors_sameLoaded (mem : Memory) : SameLoaded mem (setVectors mem) :=
  (((SameLoaded.refl mem).storeWord (by decide) _).storeWord (by decide) _).storeWord (by decide) _

theorem setVectors_words (mem : Memory) :
    loadWord (setVectors mem) 0x82002880 = 0x93110000 ∧
      loadWord (setVectors mem) 0x82003880 = 0x93120000 ∧
        loadWord (setVectors mem) 0x82004880 = 0x93130000 := by
  refine ⟨?_, ?_, ?_⟩
  · rw [setVectors, loadWord_storeWord_apart (by decide) (by decide) (by decide),
      loadWord_storeWord_apart (by decide) (by decide) (by decide), loadWord_storeWord_self]
    rfl
  · rw [setVectors, loadWord_storeWord_apart (by decide) (by decide) (by decide),
      loadWord_storeWord_self]
    rfl
  · rw [setVectors, loadWord_storeWord_self]
    rfl

theorem startAndJump_delivered (hclears : Clears world.unpark) {unprotected mem after : Memory}
    {signals : List Signal} (hend : startAndJump world (setVectors mem) = .handedOver signals after)
    (hpayloads : ∀ load ∈ loads,
      bytesAt mem load.address (files load.name).length = files load.name)
    (htrustZone : ∀ offset,
      FirstOccurrence (window unprotected).bytes smcHandlerString.bytes (some offset) →
        offset + (files "ExploitSecureWorld.bin").length ≤ 0x200000 ∧
          bytesAt mem (0x80000000 + offset) (files "ExploitSecureWorld.bin").length =
            files "ExploitSecureWorld.bin") :
    Delivered files unprotected signals after := by
  rw [startAndJump] at hend
  cases hrun : startCores world.unpark [1, 2, 3] [] (setVectors mem) with
  | inl cpu =>
      rw [hrun] at hend
      cases hend
  | inr out =>
      obtain ⟨signals', mem'⟩ := out
      rw [hrun] at hend
      dsimp only at hend
      split at hend
      · cases hend
      obtain ⟨rfl, rfl⟩ := Ending.handedOver.inj hend
      have hstart : Started (setVectors mem) [] [] (setVectors mem) :=
        ⟨rfl, nofun, SameLoaded.refl _, fun _ _ => rfl, nofun⟩
      have hstarted := startCores_started hclears hstart hrun
      have hregister : ∀ q, 0x82000000 ≤ q → q + 4 ≤ 4294967296 →
          loadWord (storeWord mem' 0x50040100 0) q = loadWord mem' q := fun q hq hlt =>
        loadWord_storeWord_apart (by decide) hlt (.inr (by omega))
      have hpayload : ∀ {mem₁ : Memory}, SameLoaded (setVectors mem) mem₁ → ∀ load ∈ loads,
          bytesAt mem₁ load.address (files load.name).length = files load.name := by
        intro mem₁ hsame load hload
        have haddress := le_address hload
        rw [((setVectors_sameLoaded mem).trans hsame).bytesAt_eq fun i _ => .inr (by omega)]
        exact hpayloads load hload
      have hfinal : SameLoaded (setVectors mem) (storeWord mem' 0x50040100 0) :=
        hstarted.loaded.storeWord (by decide) 0
      obtain ⟨hvector₁, hvector₂, hvector₃⟩ := setVectors_words mem
      constructor
      · exact hpayload hfinal
      · intro offset hfirst
        obtain ⟨hfit, hbytes⟩ := htrustZone offset hfirst
        rw [((setVectors_sameLoaded mem).trans hfinal).bytesAt_eq
          fun i hi => .inl ⟨by omega, by omega⟩]
        exact hbytes
      · refine ⟨?_, ?_, ?_⟩
        · rw [hregister _ (by decide) (by decide), hstarted.words _ (by decide), hvector₁]
        · rw [hregister _ (by decide) (by decide), hstarted.words _ (by decide), hvector₂]
        · rw [hregister _ (by decide) (by decide), hstarted.words _ (by decide), hvector₃]
      · exact hstarted.cores
      · intro signal hsignal
        obtain ⟨hid, hentry, hloaded⟩ := hstarted.sent signal hsignal
        have hcpu : signal.cpu ∈ [1, 2, 3] := by
          rw [← List.nil_append [1, 2, 3], ← hstarted.cores]
          exact List.mem_map.mpr ⟨signal, hsignal, rfl⟩
        have hplace : signal.cpu ≠ 0 ∧
            ∃ load ∈ loads, load.name = "Smc.bin" ∧ load.address = smcPayload signal.cpu := by
          revert hcpu
          generalize signal.cpu = cpu
          revert cpu
          decide
        obtain ⟨hne, load, hload, hname, haddress⟩ := hplace
        have hbytes := hpayload hloaded load hload
        rw [hname, haddress] at hbytes
        exact ⟨hid, hentry hne, hbytes⟩
      · have hentries := hstarted.entries 3 rfl
        refine ⟨?_, ?_, ?_⟩
        · rw [hregister _ (by decide) (by decide)]
          exact hentries 1 (by decide)
        · rw [hregister _ (by decide) (by decide)]
          exact hentries 2 (by decide)
        · rw [hregister _ (by decide) (by decide)]
          exact hentries 3 (by decide)

theorem startAndJump_succeeds (h : world.Succeeds) (mem : Memory) :
    ∃ signals after, startAndJump world mem = .handedOver signals after := by
  obtain ⟨⟨signals, after⟩, started⟩ := startCores_answered h.answers [1, 2, 3] [] mem
  rw [startAndJump, started]
  dsimp only
  rw [h.exits, if_neg Bool.false_ne_true]
  exact ⟨_, _, rfl⟩

theorem patchAndJump_delivered (hscan : ScanMem8Spec lib) (hcompare : CompareMemSpec lib)
    (hclears : Clears world.unpark) {unprotected : Memory} {m : Machine} {fuel : ℕ}
    (hm : InMemory files world.calls ⟨unprotected, 0⟩ loads m) (hsearch : 0x20000a < fuel)
    (hcopy : (files "ExploitSecureWorld.bin").length < fuel)
    (hfits : FitsWindow unprotected (UInt32.ofNat (files "ExploitSecureWorld.bin").length)) :
    ∃ ending, patchAndJump lib fuel world m = some ending ∧
      (∀ signals mem, ending = .handedOver signals mem →
        Delivered files unprotected signals mem) ∧
      (world.Succeeds → ∃ signals mem, ending = .handedOver signals mem) := by
  have hsize : m.fileSize = UInt32.ofNat (files "ExploitSecureWorld.bin").length := hm.fileSize
  have hlength : m.fileSize.toNat = (files "ExploitSecureWorld.bin").length := by
    rw [hsize]
    exact UInt32.toNat_ofNat_of_lt' (hm.small _ List.mem_cons_self)
  have hwindow : window m.mem = window unprotected :=
    window_congr fun a ha hlt => hm.frame a (by omega) (by omega)
  have hfits' : FitsWindow m.mem m.fileSize := by rwa [FitsWindow, hwindow, hsize]
  obtain ⟨copied, hpatch, hpatched⟩ :=
    patchTrustZone_places hscan hcompare hsearch (by rwa [hlength]) hfits'
  rw [patchAndJump, hpatch, Option.map_some]
  refine ⟨_, rfl, fun signals mem hend => startAndJump_delivered hclears hend ?_ ?_,
    fun succeeds => startAndJump_succeeds succeeds _⟩
  · intro load hload
    have haddress := le_address hload
    refine (bytesAt_congr fun x hx _ => hpatched.frame x ?_).trans (hm.whole load hload)
    intro hwritten
    have hinside := hpatched.inside x hwritten
    omega
  · intro offset hfirst
    rw [← hwindow] at hfirst
    obtain ⟨-, hbytes⟩ := hpatched.payload offset hfirst
    rw [hlength] at hbytes
    refine ⟨?_, hbytes.trans (hm.whole _ List.mem_cons_self)⟩
    rcases hfits' with hempty | ⟨offset', hfirst', hfit⟩
    · have hinside := (occursAt_iff.mp hfirst.1).1
      rw [window_length] at hinside
      rw [← hlength, hempty]
      change offset + 0 ≤ 0x200000
      omega
    · obtain rfl := Option.some_inj.mp (hfirst.unique hfirst')
      rwa [hlength] at hfit

def shortFiles (name : String) : List UInt8 :=
  if name = "ExploitSecureWorld.bin" then [0x12, 0x34] else [0x56]

def shortWorld : Surroundings where
  smc _ _ _ _ mem := mem
  calls load :=
    { loadedImage := efiSuccess
      simpleFileSystem := efiSuccess
      openVolume := efiSuccess
      openFile := efiSuccess
      getInfo := efiBufferTooSmall
      allocatePool := efiSuccess
      getInfoAgain := efiSuccess
      fileSize := UInt64.ofNat (shortFiles load.name).length
      allocatePages := efiSuccess
      read := efiSuccess
      data := shortFiles load.name }
  unpark cpu mem := some (storeWord mem (entryPoint cpu) 0)
  exitBootServices := efiSuccess

def handlerMemory : Memory := blit (fun _ => 0) 0x80000000 smcHandlerString.bytes

theorem handlerMemory_unprotected : (unprotectTZ shortWorld.smc handlerMemory).2 =
    blit handlerMemory 0x40000000 (List.replicate 32 0) := by
  rw [unprotectTZ]
  split <;> rfl

theorem shortWorld_sound : shortWorld.Sound shortFiles where
  needsBuffer _ _ := efiError_encodeError 5#32
  serves load hload _ := by
    refine ⟨?_, rfl⟩
    revert load
    decide
  grantsFree := by
    intro load hload other hother hne _ _
    revert hne
    revert other
    revert load
    decide
  clears cpu mem mem' h := by
    obtain rfl := Option.some.inj h
    have hentry := entryPoint_between cpu
    refine ⟨loadWord_storeWord_self, fun a ha => storeWord_off (by omega) (by omega)⟩

theorem handlerMemory_fits : FitsWindow (unprotectTZ shortWorld.smc handlerMemory).2 2 := by
  refine .inr ⟨0, ⟨?_, fun j hj => absurd hj (Nat.not_lt_zero j)⟩, by decide⟩
  rw [handlerMemory_unprotected, occursAt_iff, window_length]
  refine ⟨by decide, fun t ht => ?_⟩
  have hlt : t < 5 := ht
  rw [window, bytesAt_getElem? (by omega), blit_outside (.inr (by simp; omega)), handlerMemory,
    Nat.zero_add, blit_inside ht, List.getElem?_eq_getElem ht]

theorem shortWorld_succeeds : shortWorld.Succeeds where
  loads load hload := by
    refine ⟨?_, rfl, ?_⟩
    · simp [shortWorld]
    · revert load
      decide
  answers _ _ := rfl
  exits := rfl

end MuTegra.Loader.HandOver
