/- Unit: MuTegra/MemDraw/SetUp
   source: NvidiaPkg/Library/FrameBufferMemDrawLib/FrameBufferMemDrawLib.c,
     NvidiaPkg/Library/FrameBufferMemDrawLib/FrameBufferMemDrawLibDxe.c,
     NvidiaPkg/Library/FrameBufferMemDrawLib/FrameBufferMemDrawLibPeim.c
   digest: A set-up ends after two passes, and fails for good once a size outlives its block. -/

import MuTegra.MemDraw.FrameBufferConfig

set_option autoImplicit false
set_option relaxedAutoImplicit false

namespace MuTegra.MemDraw.SetUp

open MuTegra.Foundation.Loops
open MuTegra.Foundation.Ownership
open MuTegra.Foundation.Runs
open MuTegra.Uefi.Status
open MuTegra.MemDraw.FrameBufferConfig

/-! ## A pass -/

variable {lib : BltLib} {phase : Phase} {env : Env} {m : Globals}

theorem getGraphicsInfo_fst (graphics : Graphics) :
    (getGraphicsInfo phase env graphics).1 = infoStatus phase env graphics := by
  rw [getGraphicsInfo]
  split <;> rfl

theorem getGraphicsInfo_of_error {graphics : Graphics}
    (h : efiError (getGraphicsInfo phase env graphics).1 = true) :
    (getGraphicsInfo phase env graphics).2 = graphics := by
  rw [getGraphicsInfo_fst] at h
  rw [getGraphicsInfo, if_pos h]

theorem getGraphicsInfo_of_ok {graphics : Graphics}
    (h : efiError (getGraphicsInfo phase env graphics).1 = false) :
    (getGraphicsInfo phase env graphics).2 = ⟨true, readMode phase env graphics⟩ := by
  rw [getGraphicsInfo_fst] at h
  rw [getGraphicsInfo, if_neg (Bool.eq_false_iff.mp h)]

theorem getGraphicsInfo_again {graphics : Graphics}
    (h : efiError (getGraphicsInfo phase env graphics).1 = false) :
    getGraphicsInfo phase env (getGraphicsInfo phase env graphics).2 =
      (efiSuccess, (getGraphicsInfo phase env graphics).2) := by
  rw [getGraphicsInfo_of_ok h, getGraphicsInfo, infoStatus, if_pos rfl, efiError_success,
    if_neg Bool.false_ne_true]
  cases phase <;> rfl

def seen (phase : Phase) (env : Env) (m : Globals) : Globals :=
  { m with graphics := (getGraphicsInfo phase env m.graphics).2 }

def UpToDate (phase : Phase) (env : Env) (m : Globals) : Prop :=
  m.mFrameBufferConfig.isSome = true ∧ m.mModeConfigredFor = currentMode phase env m

theorem setupPass_noInfo (h : efiError (getGraphicsInfo phase env m.graphics).1 = true) :
    setupPass lib phase env m = some (.inr ((getGraphicsInfo phase env m.graphics).1, m)) := by
  have hsame := getGraphicsInfo_of_error h
  rw [setupPass]
  simp only [h, if_true, hsame]

theorem setupPass_kept (h : HasInfo phase env m) (huptodate : UpToDate phase env m) :
    setupPass lib phase env m = some (.inr (efiSuccess, seen phase env m)) := by
  rw [HasInfo] at h
  rw [setupPass]
  simp only [h, Bool.false_eq_true, if_false]
  exact if_pos huptodate

theorem setupPass_stale (h : HasInfo phase env m) (hstale : ¬ UpToDate phase env m) :
    setupPass lib phase env m =
      let configured := lib.frameBufferBltConfigure (currentMode phase env m)
        m.mFrameBufferConfig.isSome m.mFrameBufferConfigSize
      let stored := storeConfigured configured (currentMode phase env m) (seen phase env m)
      if configured.status = efiBufferTooSmall then
        some (.inl (allocateConfig env.allocated (freeFrameBufferConfig stored)))
      else if efiError configured.status then
        some (.inr (configured.status, freeFrameBufferConfig stored))
      else
        some (.inr (configured.status,
          { stored with mModeConfigredFor := currentMode phase env m })) := by
  rw [HasInfo] at h
  rw [setupPass]
  simp only [h, Bool.false_eq_true, if_false]
  exact if_neg hstale

@[simp] theorem freeFrameBufferConfig_config (m : Globals) :
    (freeFrameBufferConfig m).mFrameBufferConfig = none := by
  rw [freeFrameBufferConfig]
  split
  · rfl
  · assumption

@[simp] theorem freeFrameBufferConfig_graphics (m : Globals) :
    (freeFrameBufferConfig m).graphics = m.graphics := by
  rw [freeFrameBufferConfig]
  split <;> rfl

@[simp] theorem freeFrameBufferConfig_size (m : Globals) :
    (freeFrameBufferConfig m).mFrameBufferConfigSize = m.mFrameBufferConfigSize := by
  rw [freeFrameBufferConfig]
  split <;> rfl

@[simp] theorem freeFrameBufferConfig_mode (m : Globals) :
    (freeFrameBufferConfig m).mModeConfigredFor = m.mModeConfigredFor := by
  rw [freeFrameBufferConfig]
  split <;> rfl

theorem setupPass_failed (h : HasInfo phase env m) (hstale : ¬ UpToDate phase env m)
    {configured : Configured}
    (hconfigured : lib.frameBufferBltConfigure (currentMode phase env m)
      m.mFrameBufferConfig.isSome m.mFrameBufferConfigSize = configured)
    (herror : efiError configured.status = true) (hbig : configured.status ≠ efiBufferTooSmall) :
    ∃ m', setupPass lib phase env m = some (.inr (configured.status, m')) ∧
      m'.mFrameBufferConfig = none := by
  rw [setupPass_stale h hstale, hconfigured]
  simp only [if_neg hbig, herror, if_true]
  exact ⟨_, rfl, freeFrameBufferConfig_config _⟩

theorem setupPass_filled (hlib : ConfigureSpec lib) (h : HasInfo phase env m)
    (hstale : ¬ UpToDate phase env m) (hsupported : lib.supported (currentMode phase env m) = true)
    (hsize : ¬ m.mFrameBufferConfigSize < lib.needed (currentMode phase env m)) {config : Config}
    (hconfig : m.mFrameBufferConfig = some config) :
    ∃ m', setupPass lib phase env m = some (.inr (efiSuccess, m')) ∧
      m'.mFrameBufferConfig = some { config with builtFor := some (currentMode phase env m) } ∧
      m'.mFrameBufferConfigSize = m.mFrameBufferConfigSize ∧
      m'.mModeConfigredFor = currentMode phase env m := by
  rw [setupPass_stale h hstale, hconfig]
  simp only [Option.isSome_some, hlib.fills _ _ hsupported hsize]
  rw [if_neg (by decide), if_neg (by decide)]
  refine ⟨_, rfl, ?_, rfl, rfl⟩
  simp only [storeConfigured, seen, hconfig, if_true, Option.map_some]

/-- A size too small is replaced, and the set-up starts over with a block of the size needed or
with none. -/
theorem setupPass_retries (hlib : ConfigureSpec lib) (h : HasInfo phase env m)
    (hstale : ¬ UpToDate phase env m) (hsupported : lib.supported (currentMode phase env m) = true)
    (hsmall : m.mFrameBufferConfigSize < lib.needed (currentMode phase env m)) :
    ∃ m', setupPass lib phase env m = some (.inl m') ∧
      m'.graphics = (getGraphicsInfo phase env m.graphics).2 ∧
      m'.mFrameBufferConfigSize = lib.needed (currentMode phase env m) ∧
      m'.mModeConfigredFor = m.mModeConfigredFor ∧
      (env.allocated = false → m'.mFrameBufferConfig = none) ∧
      (env.allocated = true → ∃ id, m'.mFrameBufferConfig =
        some ⟨id, lib.needed (currentMode phase env m), none⟩) := by
  rw [setupPass_stale h hstale]
  simp only [hlib.tooSmall _ _ _ hsupported hsmall, if_true]
  refine ⟨_, rfl, ?_, ?_, ?_, ?_, ?_⟩
  · simp only [allocateConfig, freeFrameBufferConfig_graphics, storeConfigured, seen]
  · simp only [allocateConfig, freeFrameBufferConfig_size, storeConfigured]
  · simp only [allocateConfig, freeFrameBufferConfig_mode, storeConfigured, seen]
  · intro hallocated
    simp only [allocateConfig, hallocated, acquire_refused, Option.map_none]
  · intro hallocated
    simp only [allocateConfig, hallocated, acquire_granted, Option.map_some,
      freeFrameBufferConfig_size, storeConfigured]
    exact ⟨_, rfl⟩

/-! ## The set-up of a call -/

inductive Outcome (lib : BltLib) (phase : Phase) (env : Env) (m : Globals) :
    EfiStatus → Globals → Prop
  /-- There is no graphics information. -/
  | noInfo {status : EfiStatus} (info : ¬ HasInfo phase env m) (error : efiError status = true) :
      Outcome lib phase env m status m
  /-- The configuration is the one for the mode. -/
  | kept (upToDate : UpToDate phase env m) :
      Outcome lib phase env m efiSuccess (seen phase env m)
  /-- The configuration is gone: an unsupported mode, no memory, or no block for a size kept. -/
  | failed {status : EfiStatus} {m' : Globals} (error : efiError status = true)
      (emptied : m'.mFrameBufferConfig = none)
      (why : lib.supported (currentMode phase env m) = false ∨ env.allocated = false ∨
        m.mFrameBufferConfig = none ∧
          ¬ m.mFrameBufferConfigSize < lib.needed (currentMode phase env m)) :
      Outcome lib phase env m status m'
  /-- A new block is taken for the one of the mode last set up. -/
  | unbuilt {m' : Globals} {config : Config} (serviceable : Serviceable lib phase env m)
      (empty : m.mFrameBufferConfig = none) (mode : m.mModeConfigredFor = currentMode phase env m)
      (config_eq : m'.mFrameBufferConfig = some config) (builtFor : config.builtFor = none)
      (fits : m'.mFrameBufferConfigSize ≤ config.bytes) : Outcome lib phase env m efiSuccess m'
  /-- The configuration is filled for the mode. -/
  | built {m' : Globals} {config : Config}
      (why : m.mFrameBufferConfig = none →
        m.mFrameBufferConfigSize < lib.needed (currentMode phase env m) ∧
          m.mModeConfigredFor ≠ currentMode phase env m)
      (config_eq : m'.mFrameBufferConfig = some config)
      (builtFor : config.builtFor = some (currentMode phase env m))
      (mode : m'.mModeConfigredFor = currentMode phase env m)
      (fits : m'.mFrameBufferConfigSize ≤ config.bytes) : Outcome lib phase env m efiSuccess m'

variable {fuel : ℕ}

structure Retried (lib : BltLib) (phase : Phase) (env : Env) (m m₁ : Globals) : Prop where
  info : HasInfo phase env m₁
  mode : currentMode phase env m₁ = currentMode phase env m
  size : m₁.mFrameBufferConfigSize = lib.needed (currentMode phase env m)
  configuredFor : m₁.mModeConfigredFor = m.mModeConfigredFor

theorem retried_of_graphics {m₁ : Globals} (h : HasInfo phase env m)
    (hgraphics : m₁.graphics = (getGraphicsInfo phase env m.graphics).2)
    (hsize : m₁.mFrameBufferConfigSize = lib.needed (currentMode phase env m))
    (hmode : m₁.mModeConfigredFor = m.mModeConfigredFor) : Retried lib phase env m m₁ := by
  have hagain : getGraphicsInfo phase env m₁.graphics = (efiSuccess, m₁.graphics) := by
    rw [hgraphics]
    exact getGraphicsInfo_again h
  refine ⟨?_, ?_, hsize, hmode⟩
  · rw [HasInfo, hagain]
    exact efiError_success
  · rw [currentMode, hagain, hgraphics]
    rfl

theorem Retried.enough {m₁ : Globals} (h : Retried lib phase env m m₁) :
    ¬ m₁.mFrameBufferConfigSize < lib.needed (currentMode phase env m₁) := by
  rw [h.size, h.mode]
  exact UInt32.lt_irrefl _

theorem Retried.refused {m₁ : Globals} (h : Retried lib phase env m m₁) (hlib : ConfigureSpec lib)
    (hsupported : lib.supported (currentMode phase env m) = true)
    (hallocated : env.allocated = false) (hnone : m₁.mFrameBufferConfig = none) :
    ∃ status m', setupPass lib phase env m₁ = some (.inr (status, m')) ∧
      Outcome lib phase env m status m' := by
  have hstale : ¬ UpToDate phase env m₁ := by
    rw [UpToDate, hnone]
    exact fun hsome => Bool.false_ne_true hsome.1
  have hnull := hlib.null (currentMode phase env m₁) m₁.mFrameBufferConfigSize
    (h.mode ▸ hsupported) h.enough
  obtain ⟨m', hlast, hemptied⟩ := @setupPass_failed lib phase env m₁ h.info hstale _
    (by rw [hnone]; rfl) hnull.1 hnull.2.1
  exact ⟨_, m', hlast, .failed hnull.1 hemptied (.inr (.inl hallocated))⟩

/-- With a block the second pass fills it, unless the mode last set up is the one in use. -/
theorem Retried.granted {m₁ : Globals} (h : Retried lib phase env m m₁) (hlib : ConfigureSpec lib)
    (hstale : ¬ UpToDate phase env m) (hserviceable : Serviceable lib phase env m)
    (hsmall : m.mFrameBufferConfigSize < lib.needed (currentMode phase env m)) {id : ℕ}
    (hconfig : m₁.mFrameBufferConfig =
      some ⟨id, lib.needed (currentMode phase env m), none⟩) :
    ∃ status m', setupPass lib phase env m₁ = some (.inr (status, m')) ∧
      Outcome lib phase env m status m' := by
  by_cases hsame : m.mModeConfigredFor = currentMode phase env m
  · have hkept : UpToDate phase env m₁ := by
      rw [UpToDate, hconfig, h.configuredFor, h.mode]
      exact ⟨rfl, hsame⟩
    have hempty : m.mFrameBufferConfig = none := by
      cases hold : m.mFrameBufferConfig with
      | none => rfl
      | some old => exact absurd ⟨by rw [hold]; rfl, hsame⟩ hstale
    have hfits : m₁.mFrameBufferConfigSize ≤ lib.needed (currentMode phase env m) := by
      rw [h.size]
      exact UInt32.le_refl _
    exact ⟨_, _, setupPass_kept h.info hkept, .unbuilt hserviceable hempty hsame hconfig rfl hfits⟩
  · have hstale₁ : ¬ UpToDate phase env m₁ := by
      rw [UpToDate, h.configuredFor, h.mode]
      exact fun hkept => hsame hkept.2
    obtain ⟨m', hlast, hconfig', hsize', hmode'⟩ :=
      setupPass_filled hlib h.info hstale₁ (h.mode ▸ hserviceable.supported) h.enough hconfig
    refine ⟨_, m', hlast, ?_⟩
    apply Outcome.built (fun _ => ⟨hsmall, hsame⟩) hconfig' (by rw [h.mode]) (hmode'.trans h.mode)
    rw [hsize', h.size]
    exact UInt32.le_refl _

theorem retry_outcome (hlib : ConfigureSpec lib) (h : HasInfo phase env m)
    (hstale : ¬ UpToDate phase env m) (hsupported : lib.supported (currentMode phase env m) = true)
    (hsmall : m.mFrameBufferConfigSize < lib.needed (currentMode phase env m)) :
    ∃ m₁ status m', setupPass lib phase env m = some (.inl m₁) ∧
      setupPass lib phase env m₁ = some (.inr (status, m')) ∧
        Outcome lib phase env m status m' := by
  obtain ⟨m₁, hpass, hgraphics, hsize, hmode, hrefused, hgranted⟩ :=
    setupPass_retries hlib h hstale hsupported hsmall
  have hretried := retried_of_graphics h hgraphics hsize hmode
  cases hallocated : env.allocated with
  | false =>
      obtain ⟨status, m', hlast, houtcome⟩ :=
        hretried.refused hlib hsupported hallocated (hrefused hallocated)
      exact ⟨m₁, status, m', hpass, hlast, houtcome⟩
  | true =>
      obtain ⟨id, hconfig⟩ := hgranted hallocated
      obtain ⟨status, m', hlast, houtcome⟩ :=
        hretried.granted hlib hstale ⟨h, hsupported, hallocated⟩ hsmall hconfig
      exact ⟨m₁, status, m', hpass, hlast, houtcome⟩

theorem setup_outcome (hlib : ConfigureSpec lib) (hfuel : 2 ≤ fuel) (hfits : BlockFits m) :
    ∃ status m', setupFrameBufferConfig lib phase fuel env m = some (status, m') ∧
      Outcome lib phase env m status m' := by
  obtain ⟨fuel, rfl⟩ : ∃ k, fuel = k + 2 := ⟨fuel - 2, by omega⟩
  cases hinfo : efiError (getGraphicsInfo phase env m.graphics).1 with
  | true =>
      refine ⟨_, m, loop_done _ (setupPass_noInfo hinfo), .noInfo ?_ hinfo⟩
      exact fun h => Bool.false_ne_true (h.symm.trans hinfo)
  | false =>
      by_cases hkept : UpToDate phase env m
      · exact ⟨_, _, loop_done _ (setupPass_kept hinfo hkept), .kept hkept⟩
      cases hsupported : lib.supported (currentMode phase env m) with
      | false =>
          have hbad := hlib.unsupported _ m.mFrameBufferConfig.isSome m.mFrameBufferConfigSize
            hsupported
          obtain ⟨m', hlast, hemptied⟩ := setupPass_failed hinfo hkept rfl hbad.1 hbad.2.1
          exact ⟨_, m', loop_done _ hlast, .failed hbad.1 hemptied (.inl hsupported)⟩
      | true =>
          by_cases hsmall : m.mFrameBufferConfigSize < lib.needed (currentMode phase env m)
          · obtain ⟨m₁, status, m', hfirst, hlast, houtcome⟩ :=
              retry_outcome hlib hinfo hkept hsupported hsmall
            refine ⟨status, m', ?_, houtcome⟩
            rw [setupFrameBufferConfig, loop_next _ hfirst]
            exact loop_done _ hlast
          · cases hconfig : m.mFrameBufferConfig with
            | none =>
                have hnull := hlib.null _ m.mFrameBufferConfigSize hsupported hsmall
                obtain ⟨m', hlast, hemptied⟩ := setupPass_failed hinfo hkept
                  (by rw [hconfig]; rfl) hnull.1 hnull.2.1
                exact ⟨_, m', loop_done _ hlast,
                  .failed hnull.1 hemptied (.inr (.inr ⟨hconfig, hsmall⟩))⟩
            | some config =>
                obtain ⟨m', hlast, hconfig', hsize', hmode'⟩ :=
                  setupPass_filled hlib hinfo hkept hsupported hsmall hconfig
                refine ⟨_, m', loop_done _ hlast, .built ?_ hconfig' rfl hmode' ?_⟩
                · intro hnone
                  rw [hconfig] at hnone
                  cases hnone
                · rw [hsize']
                  exact hfits config hconfig

/-- The configuration is large enough, and filled for the mode last set up. -/
structure Coherent (m : Globals) : Prop where
  fits : BlockFits m
  built : ∀ config, m.mFrameBufferConfig = some config →
    config.builtFor = some m.mModeConfigredFor

theorem coherent_of_none (h : m.mFrameBufferConfig = none) : Coherent m := by
  constructor
  · intro config hconfig
    rw [h] at hconfig
    cases hconfig
  · intro config hconfig
    rw [h] at hconfig
    cases hconfig

theorem blockFits_of_some {config : Config} (h : m.mFrameBufferConfig = some config)
    (hfits : m.mFrameBufferConfigSize ≤ config.bytes) : BlockFits m := by
  intro config' hconfig'
  rw [h, Option.some_inj] at hconfig'
  rwa [← hconfig']

theorem Outcome.fits {status : EfiStatus} {m' : Globals}
    (h : Outcome lib phase env m status m') (hfits : BlockFits m) : BlockFits m' := by
  cases h with
  | noInfo => exact hfits
  | kept => exact hfits
  | failed error emptied => exact (coherent_of_none emptied).fits
  | unbuilt serviceable empty mode config_eq builtFor fits =>
      exact blockFits_of_some config_eq fits
  | built why config_eq builtFor mode fits => exact blockFits_of_some config_eq fits

theorem Outcome.coherent {status : EfiStatus} {m' : Globals}
    (h : Outcome lib phase env m status m') (hm : Coherent m)
    (hrecovers : Recovers lib phase env m) : Coherent m' := by
  refine ⟨h.fits hm.fits, ?_⟩
  cases h with
  | noInfo => exact hm.built
  | kept => exact hm.built
  | failed error emptied => exact (coherent_of_none emptied).built
  | unbuilt serviceable empty mode => exact absurd mode (hrecovers serviceable empty).2
  | built why config_eq builtFor mode =>
      intro config hconfig
      rw [config_eq, Option.some_inj] at hconfig
      rw [← hconfig, builtFor, mode]

theorem Outcome.has_config {status : EfiStatus} {m' : Globals}
    (h : Outcome lib phase env m status m') (hm : Coherent m)
    (hrecovers : Recovers lib phase env m) (hsuccess : status = efiSuccess) :
    ∃ config, m'.mFrameBufferConfig = some config ∧
      config.builtFor = some (currentMode phase env m) := by
  cases h with
  | noInfo info error => exact absurd hsuccess (ne_success_of_error error)
  | kept upToDate =>
      obtain ⟨config, hconfig⟩ := Option.isSome_iff_exists.mp upToDate.1
      exact ⟨config, hconfig, by rw [hm.built config hconfig, upToDate.2]⟩
  | failed error => exact absurd hsuccess (ne_success_of_error error)
  | unbuilt serviceable empty mode => exact absurd mode (hrecovers serviceable empty).2
  | built why config_eq builtFor => exact ⟨_, config_eq, builtFor⟩

/-- A call that can be served fails only where it finds no configuration and a size that does. -/
theorem Outcome.serves {status : EfiStatus} {m' : Globals}
    (h : Outcome lib phase env m status m') (hrecovers : Recovers lib phase env m)
    (hserviceable : Serviceable lib phase env m) : status = efiSuccess := by
  cases h with
  | noInfo info => exact absurd hserviceable.info info
  | kept => rfl
  | failed error emptied why =>
      rcases why with hunsupported | hrefused | ⟨hempty, hlarge⟩
      · rw [hserviceable.supported] at hunsupported
        cases hunsupported
      · rw [hserviceable.allocated] at hrefused
        cases hrefused
      · exact absurd (hrecovers hserviceable hempty).1 hlarge
  | unbuilt => rfl
  | built => rfl

theorem Outcome.recovers {status : EfiStatus} {m' : Globals}
    (h : Outcome lib phase env m status m')
    (hbuilt : status = efiSuccess → ∃ config, m'.mFrameBufferConfig = some config ∧
      config.builtFor = some (currentMode phase env m))
    (hserved : Serviceable lib phase env m → status = efiSuccess) :
    Recovers lib phase env m := by
  intro hserviceable hempty
  cases h with
  | noInfo info => exact absurd hserviceable.info info
  | kept upToDate =>
      rw [UpToDate, hempty] at upToDate
      exact absurd upToDate.1 Bool.false_ne_true
  | failed error => exact absurd (hserved hserviceable) (ne_success_of_error error)
  | unbuilt serviceable empty mode config_eq builtFor =>
      obtain ⟨config, hconfig, hfor⟩ := hbuilt rfl
      rw [config_eq, Option.some_inj] at hconfig
      rw [← hconfig, builtFor] at hfor
      cases hfor
  | built why => exact why hempty

/-- In coherent globals the set-up of a call does what it should exactly when it recovers. -/
theorem setsUp_iff_recovers (hlib : ConfigureSpec lib) (hfuel : 2 ≤ fuel) (hm : Coherent m) :
    SetsUp lib phase fuel env m ↔ Recovers lib phase env m := by
  obtain ⟨status, m', hrun, houtcome⟩ := @setup_outcome lib phase env m fuel hlib hfuel hm.fits
  constructor
  · rintro ⟨status', m'', hrun', hbuilt, hserved⟩
    rw [hrun, Option.some_inj, Prod.mk.injEq] at hrun'
    obtain ⟨rfl, rfl⟩ := hrun'
    exact houtcome.recovers hbuilt hserved
  · intro hrecovers
    refine ⟨status, m', hrun, ?_, ?_⟩
    · intro hsuccess
      exact houtcome.has_config hm hrecovers hsuccess
    · intro hserviceable
      exact houtcome.serves hrecovers hserviceable

/-! ## Runs -/

def SameConfig (m m' : Globals) : Prop :=
  m'.mFrameBufferConfig = m.mFrameBufferConfig ∧
    m'.mFrameBufferConfigSize = m.mFrameBufferConfigSize ∧
      m'.mModeConfigredFor = m.mModeConfigredFor

theorem Coherent.congr {m m' : Globals} (h : Coherent m) (hsame : SameConfig m m') :
    Coherent m' := by
  obtain ⟨hconfig, hsize, hmode⟩ := hsame
  constructor
  · intro config hmem
    rw [hsize]
    exact h.fits config (hconfig ▸ hmem)
  · intro config hmem
    rw [hmode]
    exact h.built config (hconfig ▸ hmem)

theorem drawWith_sameConfig {env : Env} {m m' : Globals} {status : EfiStatus}
    (h : setupFrameBufferConfig lib phase fuel env m = some (status, m')) (drawing : Drawing) :
    ∃ status' m'', drawWith lib phase fuel env drawing m = some (status', m'') ∧
      SameConfig m' m'' := by
  rw [drawWith, h, Option.bind_eq_bind, Option.bind_some]
  cases hconfig : m'.mFrameBufferConfig with
  | none =>
      simp only [hconfig]
      exact ⟨_, _, rfl, rfl, rfl, rfl⟩
  | some config =>
      simp only [hconfig]
      by_cases herror : efiError status = true
      · rw [if_pos herror]
        exact ⟨_, _, rfl, rfl, rfl, rfl⟩
      · rw [if_neg herror]
        exact ⟨_, _, rfl, hconfig.symm, rfl, rfl⟩

theorem step_of_env {event : Event} {env : Env} (henv : event.env? = some env) {m m' : Globals}
    {status : EfiStatus} (h : setupFrameBufferConfig lib phase fuel env m = some (status, m')) :
    SameConfig m' (step lib phase fuel m event).2 := by
  cases event with
  | memDrawOnFrameBuffer env' data x y width height =>
      obtain rfl := Option.some_inj.mp henv
      obtain ⟨status', m'', hdraw, hsame⟩ :=
        drawWith_sameConfig h ⟨.efiBltBufferToVideo, data, x, y, width, height⟩
      rw [step]
      simp only [memDrawOnFrameBuffer, hdraw]
      exact hsame
  | memFillOnFrameBuffer env' color x y width height =>
      obtain rfl := Option.some_inj.mp henv
      obtain ⟨status', m'', hdraw, hsame⟩ :=
        drawWith_sameConfig h ⟨.efiBltVideoFill, [color], x, y, width, height⟩
      rw [step]
      simp only [memFillOnFrameBuffer, hdraw]
      exact hsame
  | destructor => cases henv

theorem step_of_no_env {event : Event} (henv : event.env? = none) (m : Globals) :
    (step lib phase fuel m event).2.mFrameBufferConfig = none := by
  cases event with
  | memDrawOnFrameBuffer => cases henv
  | memFillOnFrameBuffer => cases henv
  | destructor => exact freeFrameBufferConfig_config m

theorem step_fits (hlib : ConfigureSpec lib) (hfuel : 2 ≤ fuel) {m : Globals} (event : Event)
    (hfits : BlockFits m) : BlockFits (step lib phase fuel m event).2 := by
  cases henv : event.env? with
  | none => exact (coherent_of_none (step_of_no_env henv m)).fits
  | some env =>
      obtain ⟨status, m', hrun, houtcome⟩ := @setup_outcome lib phase env m fuel hlib hfuel hfits
      obtain ⟨hconfig, hsize, -⟩ := step_of_env henv hrun
      intro config hmem
      rw [hsize]
      exact houtcome.fits hfits config (hconfig ▸ hmem)

theorem step_coherent (hlib : ConfigureSpec lib) (hfuel : 2 ≤ fuel) {m : Globals} (event : Event)
    (hm : Coherent m) (hrecovers : ∀ env, event.env? = some env → Recovers lib phase env m) :
    Coherent (step lib phase fuel m event).2 := by
  cases henv : event.env? with
  | none => exact coherent_of_none (step_of_no_env henv m)
  | some env =>
      obtain ⟨status, m', hrun, houtcome⟩ := @setup_outcome lib phase env m fuel hlib hfuel hm.fits
      exact (houtcome.coherent hm (hrecovers env henv)).congr (step_of_env henv hrun)

/-- Blocks always fit; over a run the set-up of every drawing call does what it should exactly when
every call that can be served and finds no configuration finds a size too small for its mode, and
another mode than its own last set up. -/
theorem setsUpAlong_iff (lib : BltLib) (hlib : ConfigureSpec lib) (phase : Phase) (fuel : ℕ)
    (hfuel : 2 ≤ fuel) (events : List Event) :
    SetsUpAlong lib phase fuel events ↔ RecoversAlong lib phase fuel events := by
  have hstart : Coherent start := coherent_of_none rfl
  have hcalls := @atCalls_iff _ _ _ (step lib phase fuel) start
    (fun m event => ∀ env, event.env? = some env → SetsUp lib phase fuel env m)
    (fun m event => ∀ env, event.env? = some env → Recovers lib phase env m) Coherent hstart
    (fun m event hm hrecovers => step_coherent hlib hfuel event hm hrecovers)
    (fun m event hm => forall₂_congr fun env _ => setsUp_iff_recovers hlib hfuel hm) events
  constructor
  · intro h
    exact hcalls.mp h.calls
  · intro h
    refine ⟨?_, hcalls.mpr h⟩
    intro before after _
    apply @stateAfter_keeps _ _ _ _ BlockFits _ before _ hstart.fits
    intro m event hm
    exact step_fits hlib hfuel event hm

/-- Modes below `count` that need `bytes` for their configuration. -/
def modesLib (count bytes : UInt32) : BltLib where
  supported mode := mode < count
  needed _ := bytes
  frameBufferBltConfigure mode hasBuffer size :=
    if count ≤ mode then ⟨efiUnsupported, size, false⟩
    else if size < bytes then ⟨efiBufferTooSmall, bytes, false⟩
    else if hasBuffer then ⟨efiSuccess, size, true⟩
    else ⟨efiInvalidParameter, size, false⟩

theorem modesLib_spec (count bytes : UInt32) : ConfigureSpec (modesLib count bytes) where
  unsupported mode hasBuffer size hmode := by
    have hcount : count ≤ mode := UInt32.not_lt.mp (of_decide_eq_false hmode)
    have hconfigured : (modesLib count bytes).frameBufferBltConfigure mode hasBuffer size =
        ⟨efiUnsupported, size, false⟩ := if_pos hcount
    rw [hconfigured]
    exact ⟨efiError_encodeError _, show efiUnsupported ≠ efiBufferTooSmall by decide, rfl⟩
  tooSmall mode hasBuffer size hmode hsize := by
    have hcount : ¬ count ≤ mode := UInt32.not_le.mpr (of_decide_eq_true hmode)
    exact (if_neg hcount).trans (if_pos hsize)
  null mode size hmode hsize := by
    have hcount : ¬ count ≤ mode := UInt32.not_le.mpr (of_decide_eq_true hmode)
    have hconfigured : (modesLib count bytes).frameBufferBltConfigure mode false size =
        ⟨efiInvalidParameter, size, false⟩ := (if_neg hcount).trans (if_neg hsize)
    rw [hconfigured]
    exact ⟨efiError_encodeError _, show efiInvalidParameter ≠ efiBufferTooSmall by decide, rfl⟩
  fills mode size hmode hsize := by
    have hcount : ¬ count ≤ mode := UInt32.not_le.mpr (of_decide_eq_true hmode)
    exact (if_neg hcount).trans (if_neg hsize)

/-- The output is found, in mode 0; memory is there or not. -/
def outputFound (allocated : Bool) : Env := ⟨efiSuccess, efiSuccess, 0, allocated, efiSuccess⟩

def clearScreen (allocated : Bool) : Event :=
  .memFillOnFrameBuffer (outputFound allocated) 0 0 0 1366 768

theorem setsUpAlong_iff_clear :
    SetsUpAlong (modesLib 1 64) .dxe 2 [clearScreen true, .destructor] ↔
      RecoversAlong (modesLib 1 64) .dxe 2 [clearScreen true, .destructor] :=
  setsUpAlong_iff _ (modesLib_spec 1 64) .dxe 2 (le_refl 2) _

/-- After one failed allocation the size needed is on record, and no later call allocates. -/
theorem not_setsUpAlong_retry :
    ¬ SetsUpAlong (modesLib 1 64) .dxe 2 [clearScreen false, clearScreen true] := by
  intro h
  obtain ⟨status, m', hrun, -, hserved⟩ :=
    h.calls [clearScreen false] (clearScreen true) [] rfl (outputFound true) rfl
  have hstatus : status = efiInvalidParameter :=
    congrArg (fun run => (run.map Prod.fst).getD status) hrun.symm
  have hsuccess := hserved ⟨rfl, rfl, rfl⟩
  rw [hstatus] at hsuccess
  exact absurd hsuccess (by decide)

end MuTegra.MemDraw.SetUp
