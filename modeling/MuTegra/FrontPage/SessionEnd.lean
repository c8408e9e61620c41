/- Unit: MuTegra/FrontPage/SessionEnd
   source: NvidiaPkg/Applications/FrontPage/FrontPage.c, NvidiaPkg/Applications/FrontPage/FrontPageUi.c
   digest: A session that touched the Secure Boot keys or asked for a reboot ends in a reset. -/

import MuTegra.FrontPage.Session

set_option autoImplicit false
set_option relaxedAutoImplicit false

namespace MuTegra.FrontPage.SessionEnd

open MuTegra.Foundation.ByteFields
open MuTegra.Uefi.Status
open MuTegra.Uefi.Variables
open MuTegra.FrontPage.FormMap
open MuTegra.FrontPage.Passwords
open MuTegra.FrontPage.Session

def BootsToFwUi (osIndications : Option Variable) : Prop :=
  ∃ v, osIndications = some v ∧ decodeLe v.data % 2 = 1

def RebootGranted (fp : Globals) : Prop :=
  ∃ status, efiError status = false ∧
    (frontPageActionRebootToFrontPage, status, BrowserActionRequest.exit) ∈ fp.callbacks

/-- What the user asked for is on record until the session ends. -/
structure Accounted (fp : Globals) : Prop where
  policy : fp.variablePolicyEnabled = false → fp.resetRequired = true
  keys : fp.secureBootKeys ≠ [] → fp.variablePolicyEnabled = false
  reboot : RebootGranted fp → fp.resetRequired = true ∧ BootsToFwUi fp.osIndications

def NotLeft (left : Option Leaving) : Prop := left = none ∨ left = some .resetSystem

def Stored (visits : List Visit) (option : ℕ) : Prop :=
  ∃ visit ∈ visits, ∃ attributes data, FormEvent.storeBootNext attributes data ∈ visit.events ∧
    data.length = 2 ∧ decodeLe data = option

/-! ## Callbacks -/

variable {keys : KeyStore} {question : Question} {services : Services} {fp : Globals}

structure Framed (fp fp' : Globals) : Prop where
  formMap : fp'.formMap = fp.formMap
  showFullMenu : fp'.showFullMenu = fp.showFullMenu
  currentFormIndex : fp'.currentFormIndex = fp.currentFormIndex
  terminateFrontPage : fp'.terminateFrontPage = fp.terminateFrontPage
  bootNext : fp'.bootNext = fp.bootNext
  forms : fp'.forms = fp.forms
  callbacks : fp'.callbacks = fp.callbacks

/-- What a callback does about the end of the session: nothing, or it asks for a reset, be it for
the Secure Boot keys or to come back to the front page. -/
inductive Effect (question : Question) (fp : Globals) (handled : Handled) : Prop
  | nothing (resetRequired : handled.state.resetRequired = fp.resetRequired)
      (policy : handled.state.variablePolicyEnabled = fp.variablePolicyEnabled)
      (keys : handled.state.secureBootKeys = fp.secureBootKeys)
      (osIndications : handled.state.osIndications = fp.osIndications)
      (refused : question.questionId = frontPageActionRebootToFrontPage →
        efiError handled.status = true ∨ handled.actionRequest ≠ .exit)
  | secureBoot (resetRequired : handled.state.resetRequired = true)
      (keys : handled.state.variablePolicyEnabled = false ∨
        handled.state.variablePolicyEnabled = fp.variablePolicyEnabled ∧
          handled.state.secureBootKeys = fp.secureBootKeys)
      (osIndications : handled.state.osIndications = fp.osIndications)
      (id : question.questionId = frontPageActionSecChangeSbConfig)
  | reboot (resetRequired : handled.state.resetRequired = true)
      (policy : handled.state.variablePolicyEnabled = fp.variablePolicyEnabled)
      (keys : handled.state.secureBootKeys = fp.secureBootKeys)
      (osIndications : BootsToFwUi handled.state.osIndications)

theorem odd_or_one (low : UInt8) : (low ||| 1).toNat % 2 = 1 := by
  rw [UInt8.toNat_or, Nat.or_mod_two_eq_one]
  exact .inr rfl

theorem setVariable_some {attributes : BitVec 32} {data : List UInt8}
    (access : attributes &&& accessMask ≠ 0#32) (nonempty : data ≠ []) :
    setVariable attributes data = some ⟨attributes, data, access, nonempty⟩ :=
  dif_pos ⟨access, nonempty⟩

theorem bootToFwUi_boots (stored : Option Variable) : BootsToFwUi (bootToFwUi stored) := by
  cases stored with
  | none =>
      have access : nonVolatileAccess &&& accessMask ≠ 0#32 := by decide
      have data : encodeLe 8 efiOsIndicationsBootToFwUi ≠ [] := by decide
      exact ⟨_, setVariable_some access data, rfl⟩
  | some v =>
      obtain ⟨low, rest, hdata⟩ := List.exists_cons_of_ne_nil v.nonempty
      have nonempty : setBootToFwUi v.data ≠ [] := by
        rw [hdata]
        exact List.cons_ne_nil _ _
      refine ⟨_, setVariable_some v.accessible nonempty, ?_⟩
      change decodeLe (setBootToFwUi v.data) % 2 = 1
      have odd := odd_or_one low
      rw [hdata, setBootToFwUi, decodeLe]
      omega

theorem handleSecureBootChange_effect
    (id : question.questionId = frontPageActionSecChangeSbConfig) :
    Framed fp (handleSecureBootChange keys services fp).state ∧
      Effect question fp (handleSecureBootChange keys services fp) := by
  have other : question.questionId ≠ frontPageActionRebootToFrontPage := by
    rw [id]
    decide
  rw [handleSecureBootChange]
  split
  · exact ⟨⟨rfl, rfl, rfl, rfl, rfl, rfl, rfl⟩,
      .nothing rfl rfl rfl rfl fun reboot => absurd reboot other⟩
  · split
    · exact ⟨⟨rfl, rfl, rfl, rfl, rfl, rfl, rfl⟩, .secureBoot rfl (.inl rfl) rfl id⟩
    · exact ⟨⟨rfl, rfl, rfl, rfl, rfl, rfl, rfl⟩, .secureBoot rfl (.inr ⟨rfl, rfl⟩) rfl id⟩

theorem handleRebootToFrontPage_effect :
    Framed fp (handleRebootToFrontPage services fp).state ∧
      Effect question fp (handleRebootToFrontPage services fp) := by
  rw [handleRebootToFrontPage]
  dsimp only
  split
  · exact ⟨⟨rfl, rfl, rfl, rfl, rfl, rfl, rfl⟩,
      .nothing rfl rfl rfl rfl fun _ => .inr BrowserActionRequest.noConfusion⟩
  · split
    · next failed =>
        exact ⟨⟨rfl, rfl, rfl, rfl, rfl, rfl, rfl⟩, .nothing rfl rfl rfl rfl fun _ => .inl failed⟩
    · exact ⟨⟨rfl, rfl, rfl, rfl, rfl, rfl, rfl⟩, .reboot rfl rfl rfl (bootToFwUi_boots _)⟩

theorem Framed.rekey {key : UInt16} {fp' : Globals}
    (h : Framed { fp with callbackKey := key } fp') : Framed fp fp' :=
  ⟨h.formMap, h.showFullMenu, h.currentFormIndex, h.terminateFrontPage, h.bootNext, h.forms,
    h.callbacks⟩

theorem Effect.rekey {key : UInt16} {handled : Handled}
    (h : Effect question { fp with callbackKey := key } handled) : Effect question fp handled := by
  cases h with
  | nothing resetRequired policy keys osIndications refused =>
      exact .nothing resetRequired policy keys osIndications refused
  | secureBoot resetRequired keys osIndications id =>
      exact .secureBoot resetRequired keys osIndications id
  | reboot resetRequired policy keys osIndications =>
      exact .reboot resetRequired policy keys osIndications

theorem uiCallback_effect (keys : KeyStore) (question : Question) (services : Services)
    (fp : Globals) : Framed fp (uiCallback keys question services fp).state ∧
      Effect question fp (uiCallback keys question services fp) := by
  have framed : ∀ key, Framed fp { fp with callbackKey := key } :=
    fun key => ⟨rfl, rfl, rfl, rfl, rfl, rfl, rfl⟩
  have plain : ∀ (status : EfiStatus) (request : BrowserActionRequest) (key : UInt16),
      (question.questionId = frontPageActionRebootToFrontPage →
        efiError status = true ∨ request ≠ .exit) →
      Effect question fp ⟨status, request, { fp with callbackKey := key }⟩ :=
    fun status request key refused => .nothing rfl rfl rfl rfl refused
  rw [uiCallback]
  split
  · exact ⟨framed fp.callbackKey, plain _ _ _ fun _ => .inl rfl⟩
  split
  · exact ⟨framed fp.callbackKey, plain _ _ _ fun _ => .inl rfl⟩
  dsimp only
  split
  · next id =>
      have other : question.questionId ≠ frontPageActionRebootToFrontPage := by
        rw [id]
        decide
      rw [handleInfoPopup]
      split
      · exact ⟨framed _, plain _ _ _ fun reboot => absurd reboot other⟩
      · exact ⟨framed _, plain _ _ _ fun reboot => absurd reboot other⟩
  split
  · exact ⟨framed _, plain _ _ _ fun _ => .inr BrowserActionRequest.noConfusion⟩
  split
  · next id =>
      obtain ⟨kept, effect⟩ := @handleSecureBootChange_effect keys question services
        { fp with callbackKey := question.questionId } id
      exact ⟨kept.rekey, effect.rekey⟩
  split
  · next id =>
      have other : question.questionId ≠ frontPageActionRebootToFrontPage := by
        rw [id]
        decide
      exact ⟨framed _, plain _ _ _ fun reboot => absurd reboot other⟩
  split
  · obtain ⟨kept, effect⟩ := @handleRebootToFrontPage_effect question services
      { fp with callbackKey := question.questionId }
    exact ⟨kept.rekey, effect.rekey⟩
  · exact ⟨framed _, plain _ _ _ fun _ => .inl rfl⟩

/-! ## Runs -/

theorem frontPageLoop_keeps {P : Globals → Prop} {visits : List Visit}
    (opened : ∀ fp row, P fp →
      P { fp with terminateFrontPage := true, forms := fp.forms ++ [row] })
    (event : ∀ visit ∈ visits, ∀ e ∈ visit.events, ∀ fp, P fp → P (e.run keys fp))
    (started : ∀ fp, P fp → P { fp with terminateFrontPage := true })
    (reset : ∀ fp, P fp → P { fp with resetRequired := true }) {fp : Globals} (h : P fp) :
    P (frontPageLoop keys visits fp).2 := by
  induction visits generalizing fp with
  | nil => exact h
  | cons visit visits ih =>
      have here : P (callFrontPage keys visit { fp with terminateFrontPage := true }).2 := by
        rw [callFrontPage]
        cases formForIndex fp.showFullMenu fp.formMap fp.currentFormIndex with
        | none => exact started fp h
        | some row =>
            have events : ∀ (es : List FormEvent), (∀ e ∈ es, e ∈ visit.events) → ∀ fp, P fp →
                P (es.foldl (FormEvent.run keys) fp) := by
              intro es
              induction es with
              | nil => exact fun _ fp hfp => hfp
              | cons e es rest =>
                  intro mem fp hfp
                  rw [List.foldl_cons]
                  apply rest fun e' he' => mem e' (List.mem_cons_of_mem e he')
                  exact event visit List.mem_cons_self e (mem e List.mem_cons_self) fp hfp
            have closed := events visit.events (fun e he => he) _ (opened fp row h)
            change P (visit.close _)
            generalize visit.events.foldl (FormEvent.run keys) _ = fp' at closed ⊢
            rw [Visit.close]
            split
            · exact started fp' closed
            · split
              · exact reset fp' closed
              · exact closed
      rw [frontPageLoop]
      split
      · exact ih (fun visit' mem => event visit' (List.mem_cons_of_mem visit mem)) here
      · exact here

variable {visits : List Visit}

structure Sound (visits : List Visit) (fp : Globals) : Prop where
  accounted : Accounted fp
  stored : ∀ option, nextOption fp.bootNext = some option → Stored visits option

/-- The invariant does not look at the menu, the forms or the loop's own flag. -/
theorem Sound.congr {fp' : Globals} (h : Sound visits fp)
    (resetRequired : fp'.resetRequired = fp.resetRequired)
    (policy : fp'.variablePolicyEnabled = fp.variablePolicyEnabled)
    (keys : fp'.secureBootKeys = fp.secureBootKeys)
    (osIndications : fp'.osIndications = fp.osIndications)
    (bootNext : fp'.bootNext = fp.bootNext) (callbacks : fp'.callbacks = fp.callbacks) :
    Sound visits fp' := by
  obtain ⟨⟨hpolicy, hkeys, hreboot⟩, hstored⟩ := h
  refine ⟨⟨?_, ?_, ?_⟩, ?_⟩
  · rw [policy, resetRequired]
    exact hpolicy
  · rw [keys, policy]
    exact hkeys
  · rw [RebootGranted, callbacks, resetRequired, osIndications]
    exact hreboot
  · rw [bootNext]
    exact hstored

theorem Sound.reset (h : Sound visits fp) : Sound visits { fp with resetRequired := true } :=
  ⟨⟨fun _ => rfl, h.accounted.keys, fun granted => ⟨rfl, (h.accounted.reboot granted).2⟩⟩, h.stored⟩

theorem Sound.masterFrame (h : Sound visits fp) (n : Notification) :
    Sound visits (masterFrameNotifyCallback n fp) := by
  rw [masterFrameNotifyCallback]
  split
  · exact h.congr rfl rfl rfl rfl rfl rfl
  · exact h

/-- A callback that reports a granted reboot has asked for the reset and set the indication. -/
theorem Sound.callback (h : Sound visits fp) (keys : KeyStore) (question : Question)
    (services : Services) : Sound visits (FormEvent.run keys fp (.callback question services)) := by
  obtain ⟨framed, effect⟩ := uiCallback_effect keys question services fp
  rw [FormEvent.run]
  generalize uiCallback keys question services fp = handled at framed effect
  have granted : ∀ {P : Prop}, (RebootGranted fp → P) →
      (question.questionId = frontPageActionRebootToFrontPage → efiError handled.status = false →
        handled.actionRequest = .exit → P) →
      RebootGranted { handled.state with
        callbacks :=
          fp.callbacks ++ [(question.questionId, handled.status, handled.actionRequest)] } → P := by
    rintro P before now ⟨status, ok, mem⟩
    rcases List.mem_append.mp mem with earlier | last
    · exact before ⟨status, ok, earlier⟩
    · obtain ⟨id, rest⟩ := Prod.mk.inj (List.mem_singleton.mp last)
      obtain ⟨rfl, request⟩ := Prod.mk.inj rest
      exact now id.symm ok request.symm
  obtain ⟨⟨hpolicy, hkeys, hreboot⟩, hstored⟩ := h
  refine ⟨?_, fun option => by rw [framed.bootNext]; exact hstored option⟩
  cases effect with
  | nothing resetRequired policy keys osIndications refused =>
      refine ⟨?_, ?_, granted ?_ ?_⟩
      · rw [policy, resetRequired]
        exact hpolicy
      · rw [keys, policy]
        exact hkeys
      · rw [resetRequired, osIndications]
        exact hreboot
      · intro id ok request
        rcases refused id with failed | other
        · exact absurd (failed.symm.trans ok) Bool.noConfusion
        · exact absurd request other
  | secureBoot resetRequired keys osIndications id =>
      refine ⟨fun _ => resetRequired, ?_, granted ?_ ?_⟩
      · rcases keys with policy | ⟨policy, keys⟩
        · exact fun _ => policy
        · rw [keys, policy]
          exact hkeys
      · intro before
        rw [osIndications]
        exact ⟨resetRequired, (hreboot before).2⟩
      · intro reboot
        rw [id] at reboot
        exact absurd reboot (by decide)
  | reboot resetRequired policy keys osIndications =>
      refine ⟨fun _ => resetRequired, ?_, fun _ => ⟨resetRequired, osIndications⟩⟩
      rw [keys, policy]
      exact hkeys

theorem nextOption_setVariable {attributes : BitVec 32} {data : List UInt8} {option : ℕ}
    (h : nextOption (setVariable attributes data) = some option) :
    data.length = 2 ∧ decodeLe data = option := by
  rw [setVariable] at h
  split at h
  · rw [nextOption] at h
    dsimp only at h
    split at h
    · next length => exact ⟨length, Option.some_inj.mp h⟩
    · cases h
  · cases h

theorem Sound.event (h : Sound visits fp) {visit : Visit} (mem : visit ∈ visits) {e : FormEvent}
    (he : e ∈ visit.events) : Sound visits (e.run keys fp) := by
  cases e with
  | masterFrame n => exact h.masterFrame n
  | callback question services => exact h.callback keys question services
  | storeBootNext attributes data =>
      refine ⟨⟨h.accounted.policy, h.accounted.keys, h.accounted.reboot⟩, fun option next => ?_⟩
      obtain ⟨length, value⟩ := nextOption_setVariable next
      exact ⟨visit, mem, attributes, data, he, length, value⟩

theorem frontPageLoop_sound (h : Sound visits fp) :
    Sound visits (frontPageLoop keys visits fp).2 := by
  apply frontPageLoop_keeps (P := Sound visits)
  · exact fun fp row hfp => hfp.congr rfl rfl rfl rfl rfl rfl
  · exact fun visit mem e he fp hfp => hfp.event mem he
  · exact fun fp hfp => hfp.congr rfl rfl rfl rfl rfl rfl
  · exact fun fp hfp => hfp.reset
  · exact h

theorem start_sound (inputs : SessionInputs) (showFullMenu : Bool)
    (osIndications : Option Variable) :
    Sound inputs.visits (inputs.start showFullMenu osIndications) := by
  refine ⟨⟨?_, fun keys => absurd rfl keys, ?_⟩, ?_⟩
  · exact fun policy => absurd policy (Bool.noConfusion : true ≠ false)
  · rintro ⟨status, -, mem⟩
    cases mem
  · intro option next
    cases next

structure EndsSafely (visits : List Visit) (left : Option Leaving) (fp : Globals) : Prop where
  policy : fp.variablePolicyEnabled = false → NotLeft left
  keys : fp.secureBootKeys ≠ [] → NotLeft left
  reboot : RebootGranted fp → NotLeft left ∧ BootsToFwUi fp.osIndications
  bootNext : ∀ option, left = some (.bootNext option) →
    fp.bootNext = none ∧ Stored visits option ∧ fp.variablePolicyEnabled = true
  cleanUp : left = some .cleanUp → fp.bootNext = none ∧ fp.variablePolicyEnabled = true

/-- Without a reset on record nothing is left to account for, and `BootNext` is acted on once. -/
theorem leaveFrontPage_endsSafely {visits : List Visit} {fp : Globals} (h : Sound visits fp)
    (readable written : Bool) :
    EndsSafely visits (some (leaveFrontPage readable written fp).1)
      (leaveFrontPage readable written fp).2 := by
  rw [leaveFrontPage]
  by_cases reset : fp.resetRequired = true
  · rw [if_pos reset]
    refine ⟨fun _ => .inr rfl, fun _ => .inr rfl, fun granted => ?_, ?_, ?_⟩
    · exact ⟨.inr rfl, (h.accounted.reboot granted).2⟩
    · intro option left
      cases left
    · intro left
      cases left
  rw [if_neg reset]
  have enabled : fp.variablePolicyEnabled = true :=
    Bool.eq_true_of_not_eq_false fun off => reset (h.accounted.policy off)
  have unused : fp.secureBootKeys = [] := by
    by_contra used
    exact Bool.noConfusion (enabled.symm.trans (h.accounted.keys used))
  have ungranted : ¬ RebootGranted fp := fun granted => reset (h.accounted.reboot granted).1
  have ends : ∀ {left : Leaving} {osIndications : Option Variable},
      (∀ option, left = .bootNext option → Stored visits option) →
      EndsSafely visits (some left)
        { fp with bootNext := none, osIndications := osIndications } := by
    intro left osIndications stored
    refine ⟨fun off => ?_, fun used => absurd unused used, fun granted => absurd granted ungranted,
      fun option acted => ⟨rfl, stored option (Option.some_inj.mp acted), enabled⟩,
      fun _ => ⟨rfl, enabled⟩⟩
    exact Bool.noConfusion (enabled.symm.trans off)
  rw [processBootNext]
  dsimp only
  cases next : if readable = true then nextOption fp.bootNext else none with
  | none =>
      apply ends
      intro option left
      cases left
  | some option =>
      have stored : ∀ option', Leaving.bootNext option = .bootNext option' →
          Stored visits option' := by
        intro option' same
        cases same
        cases readable with
        | true => exact h.stored option next
        | false => cases next
      dsimp only
      split
      · exact ends stored
      · exact ends stored

end MuTegra.FrontPage.SessionEnd
