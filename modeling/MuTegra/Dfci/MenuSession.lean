/- Unit: MuTegra/Dfci/MenuSession
   source: NvidiaPkg/Applications/DfciMenu/DfciMenu.c, NvidiaPkg/Applications/DfciMenu/DfciMenuVfr.Vfr
   digest: What a user can reach through the menu, and what the requests made there are handed. -/

import MuTegra.Dfci.MenuReads

/-!
The browser lets the user choose among the entries of the form on display, under the configuration
that it extracted last, and calls the driver back. It extracts whenever it likes.
-/

set_option autoImplicit false
set_option relaxedAutoImplicit false

namespace MuTegra.Dfci.MenuSession

open MuTegra.Foundation.Ownership
open MuTegra.Uefi.Status
open MuTegra.Dfci.State MuTegra.Dfci.Request MuTegra.Dfci.UsbName
open MuTegra.Dfci.MenuForms MuTegra.Dfci.Menu MuTegra.Dfci.MenuReads

/-! ## Sessions -/

/-- The driver, the browser's copy of the configuration, the form on display, those that were left
for it, and what was issued. -/
structure Session where
  driver : Driver
  config : Option DfciMenuConfiguration
  form : FormId
  left : List FormId
  issued : List Issued
  running : Bool

inductive BrowserEvent where
  | extract (calls : ExtractCalls)
  | route (configuration : Option (List UInt16)) (progress : Bool)
  | formOpen (questionId : QuestionId) (calls : CallbackCalls)
  | choose (entry : Entry) (calls : CallbackCalls)
  | back

def Session.callback (platform : Platform) (calls : CallbackCalls) (action : BrowserAction)
    (questionId : QuestionId) (s : Session) : Session :=
  let out := driverCallback platform calls action questionId s.driver
  { s with
    driver := out.driver
    issued := s.issued ++ out.issued
    running := out.returned.isSome }

def Session.visit (form : FormId) (s : Session) : Session :=
  { s with form := form, left := s.form :: s.left }

def Session.choices (s : Session) : List Entry :=
  s.config.elim [] fun config => MenuForms.choices config s.form

def Session.choose (platform : Platform) (calls : CallbackCalls) (s : Session) : Entry → Session
  | .button key => s.callback platform calls .changed key
  | .goto form none => s.visit form
  | .goto form (some key) =>
      let called := s.callback platform calls .changed key
      if called.running then called.visit form else called

def Session.back (s : Session) : Session :=
  match s.left with
  | [] => s
  | form :: left => { s with form := form, left := left }

def browse (platform : Platform) (s : Session) (event : BrowserEvent) : Session :=
  if s.running then
    match event with
    | .extract calls =>
        let out := extractConfig calls s.driver
        { s with driver := out.2.2, config := out.2.1.or s.config }
    | .route _ _ => s
    | .formOpen questionId calls => s.callback platform calls .formOpen questionId
    | .choose entry calls => if entry ∈ s.choices then s.choose platform calls entry else s
    | .back => s.back
  else s

def Session.start (published : Bool) (driver : Driver) : Session where
  driver := driver
  config := none
  form := .menu
  left := []
  issued := []
  running := published

def menuSession (platform : Platform) (entry : EntryCalls) (events : List BrowserEvent)
    (driver : Driver) : Session :=
  let entered := dfciMenuEntry entry driver
  events.foldl (browse platform) (.start entered.2.1 entered.2.2)

/-! ## What a session should be -/

/-- The parameters are read in the first extraction that gets that far. -/
def firstExtraction : List BrowserEvent → Option ExtractCalls
  | [] => none
  | .extract calls :: events => if calls.Accepted then some calls else firstExtraction events
  | _ :: events => firstExtraction events

def delivers (calls : ExtractCalls) : Bool :=
  calls.hdrMatch && !efiError calls.blockToConfig

/-- The menu is there for the browser. -/
def opens (entry : EntryCalls) : Bool :=
  entry.pcdSkuEnableDfci && !efiError entry.locateAuthentication && entry.authentication &&
    !efiError entry.locateSettingPermissions && entry.publishes

/-- What is so of a device, by what was read of it; `located` when the settings had been reached
before. -/
def factsOf (located : Bool) (entry : EnrolledCalls) (first : ParameterCalls) : Facts where
  owned := ownerKnown entry
  zeroTouch := zeroTouchKnown entry
  certificate := certificateKnown entry
  reduced := first.pcdSetupUiReducedFunction
  http := httpThere located first
  recovery := first.recoveryHandle || first.recoveryMask != 0#32

def contextOf (platform : Platform) (entry : EnrolledCalls) (first : ParameterCalls) : Context where
  fw := platform.fw
  identity :=
    { ownerThumbprint := entry.ownerThumbprint.value.getD []
      httpsThumbprint := first.httpsThumbprint.value.getD []
      registrationId := first.registrationId.data
      tenantId := first.tenantId.data
      manufacturer := entry.systemInfo.manufacturer.text.chars ++ [0]
      productName := entry.systemInfo.productName.text.chars ++ [0]
      serialNumber := entry.systemInfo.serialNumber.text.chars ++ [0] }
  certX509Guid := platform.certX509Guid
  callerIdGuid := platform.callerIdGuid
  httpsCert := first.httpsCert.data

/-- What is issued, and on which grounds. A network request is handed what was read, unless the
device's identity could not be read: then it is handed a null string. -/
inductive Warranted (platform : Platform) (entry : EnrolledCalls) (first : ParameterCalls)
    (facts : Facts) : Issued → Prop
  | network (owned : facts.owned = true) (http : facts.http = true) :
      Warranted platform entry first facts
        (.network (if entry.systemInfo.fails then none else some (contextOf platform entry first)))
  | usb : Warranted platform entry first facts .usb
  | optIn (unowned : facts.owned = false) (certificate : facts.certificate = true)
      (new : facts.zeroTouch = false) (unlocked : facts.reduced = false) :
      Warranted platform entry first facts (.zeroTouch .optIn)
  | optOut (unowned : facts.owned = false) (enrolled : facts.zeroTouch = true)
      (unlocked : facts.reduced = false) :
      Warranted platform entry first facts (.zeroTouch .optOut)

/-- What a choice issues. -/
def issuedFor (platform : Platform) (entry : EnrolledCalls) (first : ParameterCalls) :
    QuestionId → List Issued
  | .httpUpdateNow =>
      [.network (if entry.systemInfo.fails then none else some (contextOf platform entry first))]
  | .usbUpdateNow | .usbInstallNow => [.usb]
  | .zumOptIn => [.zeroTouch .optIn]
  | .zumOptOut => [.zeroTouch .optOut]
  | _ => []

def isRequest : Issued → Bool
  | .network _ => true
  | .usb => true
  | .zeroTouch _ => false

inductive Reachable (facts : Facts) : FormId → Prop
  | menu : Reachable facts .menu
  | configure (owned : facts.owned = true) : Reachable facts .configure
  | recoveryInfo (owned : facts.owned = true) (recovery : facts.recovery = true) :
      Reachable facts .recoveryInfo
  | dfciRecovery (owned : facts.owned = true) (recovery : facts.recovery = true) :
      Reachable facts .dfciRecovery

/-- A session that offers what the device allows, does what is chosen of it, and issues only what is
warranted; until it ends in a request, nothing is freed twice and nothing live is lost. -/
structure Serves (platform : Platform) (entry : EnrolledCalls) (first : ParameterCalls)
    (facts : Facts) (base : Ledger) (s : Session) : Prop where
  reached : Reachable facts s.form
  offered : ∀ config ∈ s.config, ∀ form, choices config form = offers facts form
  shown : ∀ config ∈ s.config, ∀ form,
    shownEntries config form = offers { facts with reduced := false } form
  answered : s.running = true → ∀ (calls : CallbackCalls) key, Entry.button key ∈ s.choices →
    (browse platform s (.choose (.button key) calls)).issued =
      s.issued ++ issuedFor platform entry first key
  issued : ∀ issued ∈ s.issued, Warranted platform entry first facts issued
  requests : s.issued.countP isRequest ≤ if s.running then 0 else 1
  pool : s.running = true → Extends base s.driver.machine.pool

/-! ## Callbacks -/

variable {n : ℕ} {rest : Multiset ℕ} {pool : Ledger}

theorem keeps_printBody (calls : MessageBoxCalls) {body : Option ℕ}
    (h : Keeps n (held body + rest) pool) :
    Keeps n (held (printBody calls body pool).1 + rest) (printBody calls body pool).2 := by
  unfold printBody
  cases body with
  | none => exact h
  | some id =>
      have tmp := h.acquire calls.tmp
      cases granted : calls.tmp with
      | false => exact h
      | true =>
          rw [granted, add_left_comm] at tmp
          exact tmp.release

theorem keeps_displayMessageBox (h : Keeps n rest pool) (calls : MessageBoxCalls)
    (status : EfiStatus) (hasText : Bool) :
    Keeps n rest (displayMessageBox calls status hasText pool) := by
  have title := h.acquire calls.title
  have caption := title.acquire calls.caption
  have body := caption.acquire calls.body
  have shown : ∀ {p : Option ℕ × Ledger}, Keeps n (held p.1 +
      (held ((pool.acquire calls.title).2.acquire calls.caption).1 +
        (held (pool.acquire calls.title).1 + rest))) p.2 →
      Keeps n rest (((p.2.releaseIfAny (pool.acquire calls.title).1).releaseIfAny
        ((pool.acquire calls.title).2.acquire calls.caption).1).releaseIfAny p.1) := by
    intro p held
    refine Keeps.releaseIfAny (Keeps.releaseIfAny (Keeps.releaseIfAny ?_))
    convert held using 1
    abel
  rw [displayMessageBox]
  split
  · exact shown (keeps_printBody calls body)
  · exact shown body

/-! ## Choices -/

variable {facts : Facts}

def Allowed (facts : Facts) : QuestionId → Prop
  | .httpUpdateNow => facts.owned = true ∧ facts.http = true
  | .zumOptIn => facts.owned = false ∧ facts.certificate = true ∧ facts.zeroTouch = false ∧
      facts.reduced = false
  | .zumOptOut => facts.owned = false ∧ facts.zeroTouch = true ∧ facts.reduced = false
  | _ => True

/-- What is offered on a form that can be reached is allowed, and leads to such forms only. -/
def Sound (facts : Facts) : Entry → Prop
  | .button key => Allowed facts key
  | .goto form key => Reachable facts form ∧ ∀ question ∈ key, Allowed facts question

theorem goto_sound {form : FormId} (reached : Reachable facts form) :
    Sound facts (.goto form none) := by
  refine ⟨reached, fun question named => ?_⟩
  cases named

theorem offers_sound {form : FormId} (reached : Reachable facts form) :
    ∀ entry ∈ offers facts form, Sound facts entry := by
  intro entry offered
  cases reached with
  | menu =>
      rw [offers] at offered
      split at offered
      · next owned =>
          obtain rfl := List.mem_singleton.mp offered
          refine ⟨.configure owned, fun question named => ?_⟩
          obtain rfl := Option.some_inj.mp named
          trivial
      · next unowned =>
          have free : facts.owned = false := Bool.eq_false_of_not_eq_true unowned
          simp only [List.mem_append, List.mem_singleton] at offered
          rcases offered with (optOut | optIn) | rfl
          · split at optOut
            · next h =>
                rw [Bool.and_eq_true, Bool.not_eq_true'] at h
                obtain rfl := List.mem_singleton.mp optOut
                exact ⟨free, h.1, h.2⟩
            · cases optOut
          · split at optIn
            · next h =>
                simp only [Bool.and_eq_true, Bool.not_eq_true'] at h
                obtain rfl := List.mem_singleton.mp optIn
                exact ⟨free, h.1.1, h.1.2, h.2⟩
            · cases optIn
          · trivial
  | configure owned =>
      rw [offers] at offered
      simp only [List.mem_append, List.mem_singleton] at offered
      rcases offered with (update | rfl) | recovery
      · split at update
        · next http =>
            obtain rfl := List.mem_singleton.mp update
            exact ⟨owned, http⟩
        · cases update
      · trivial
      · split at recovery
        · next there =>
            obtain rfl := List.mem_singleton.mp recovery
            exact goto_sound (.recoveryInfo owned there)
        · cases recovery
  | recoveryInfo owned there =>
      obtain rfl := List.mem_singleton.mp offered
      exact goto_sound (.dfciRecovery owned there)
  | dfciRecovery owned there => cases offered

/-! ## The invariant -/

/-- All that a network request is handed is behind its pointers, as far as it was read. -/
structure Supplied (entry : EnrolledCalls) (first : ParameterCalls) (driver : Driver) : Prop where
  thumbprint : textOf driver.machine.pool driver.inputs.ownerThumbprint =
    some (entry.ownerThumbprint.value.getD [])
  http : HttpReady first driver
  info : InfoReady entry.systemInfo driver.machine.pool driver.inputs.dfciInfo

variable {entry : EnrolledCalls} {first : ParameterCalls} {driver after : Driver}

theorem Supplied.mono (h : Supplied entry first driver)
    (grows : Extends driver.machine.pool after.machine.pool)
    (same : after.inputs = driver.inputs) : Supplied entry first after where
  thumbprint := same ▸ textOf_extends grows h.thumbprint
  http := h.http.mono grows same
  info := same ▸ h.info.mono grows

theorem Supplied.context (h : Supplied entry first driver) (platform : Platform) :
    driver.inputs.context platform driver.machine.pool =
      if entry.systemInfo.fails then none else some (contextOf platform entry first) := by
  obtain ⟨thumbprint, ⟨cert, tenant, registration, https⟩, info⟩ := h
  rw [RequestInputs.context, thumbprint, https, cert, registration, tenant]
  rw [InfoReady] at info
  cases fails : entry.systemInfo.fails with
  | true =>
      rw [fails, if_pos rfl] at info
      rw [info]
      simp [textOf]
  | false =>
      rw [fails, if_neg Bool.false_ne_true] at info
      rw [info.1, info.2.1, info.2.2]
      rfl

structure Informed (platform : Platform) (entry : EnrolledCalls) (first : ParameterCalls)
    (facts : Facts) (base : Ledger) (s : Session) : Prop where
  tells : Tells s.driver.configuration facts
  copy : ∀ config ∈ s.config, Tells config facts
  read : s.driver.alreadyRun = true
  forms : ∀ form ∈ s.form :: s.left, Reachable facts form
  supplied : s.running = true → facts.owned = true → facts.http = true →
    Supplied entry first s.driver
  issued : ∀ issued ∈ s.issued, Warranted platform entry first facts issued
  requests : s.issued.countP isRequest ≤ if s.running then 0 else 1
  pool : s.running = true → Extends base s.driver.machine.pool

variable {platform : Platform} {base : Ledger} {s : Session}

theorem Informed.visit (h : Informed platform entry first facts base s) {form : FormId}
    (reached : Reachable facts form) : Informed platform entry first facts base (s.visit form) :=
  { h with forms := List.forall_mem_cons.mpr ⟨reached, h.forms⟩ }

theorem Informed.back (h : Informed platform entry first facts base s) :
    Informed platform entry first facts base s.back := by
  rw [Session.back]
  split
  · exact h
  · next form left same =>
      have forms := h.forms
      rw [same] at forms
      exact { h with forms := (List.forall_mem_cons.mp forms).2 }

theorem Informed.end (h : Informed platform entry first facts base s) (running : s.running = true)
    {issued : Issued} {driver : Driver} (warranted : Warranted platform entry first facts issued)
    (config : driver.configuration = s.driver.configuration)
    (read : driver.alreadyRun = s.driver.alreadyRun) :
    Informed platform entry first facts base
      { s with driver := driver, issued := s.issued ++ [issued], running := false } where
  tells := config ▸ h.tells
  copy := h.copy
  read := read.trans h.read
  forms := h.forms
  supplied := nofun
  issued := by
    intro i member
    rcases List.mem_append.mp member with before | last
    · exact h.issued i before
    · exact List.mem_singleton.mp last ▸ warranted
  requests := by
    have none := h.requests
    rw [running, if_pos rfl] at none
    rw [List.countP_append, if_neg Bool.false_ne_true]
    have one : [issued].countP isRequest ≤ 1 := List.countP_le_length
    omega
  pool := nofun

theorem rebootToFrontPage_keeps (set : EfiStatus) (driver : Driver) :
    (rebootToFrontPage set driver).configuration = driver.configuration ∧
      (rebootToFrontPage set driver).alreadyRun = driver.alreadyRun := by
  rw [rebootToFrontPage]
  split <;> exact ⟨rfl, rfl⟩

theorem issueDfciNetworkRequest_keeps (calls : CallbackCalls) (driver : Driver) :
    (issueDfciNetworkRequest platform calls driver).2.configuration = driver.configuration ∧
      (issueDfciNetworkRequest platform calls driver).2.alreadyRun = driver.alreadyRun := by
  rw [issueDfciNetworkRequest]
  cases driver.inputs.context platform driver.machine.pool with
  | none => exact ⟨rfl, rfl⟩
  | some ctx => exact rebootToFrontPage_keeps _ _

theorem runUsbRequest_keeps (calls : CallbackCalls) (driver : Driver) :
    (runUsbRequest platform calls driver).2.configuration = driver.configuration ∧
      (runUsbRequest platform calls driver).2.alreadyRun = driver.alreadyRun := by
  rw [runUsbRequest]
  dsimp only
  cases UsbUpdate.issueDfciUsbRequest platform.fw platform.limit calls.usb driver.files
    driver.machine with
  | none => exact ⟨rfl, rfl⟩
  | some outcome => exact rebootToFrontPage_keeps _ _

theorem Informed.optChange (h : Informed platform entry first facts base s)
    (running : s.running = true) {state : ZeroTouchState}
    (warranted : Warranted platform entry first facts (.zeroTouch state)) (calls : CallbackCalls) :
    Informed platform entry first facts base
      { s with
        driver := (Menu.optChange state calls s.driver).driver
        issued := s.issued ++ [.zeroTouch state]
        running := (Menu.optChange state calls s.driver).returned.isSome } := by
  have grows : Extends s.driver.machine.pool
      (displayMessageBox calls.box efiSuccess false s.driver.machine.pool) :=
    keeps_displayMessageBox (Extends.refl _) calls.box efiSuccess false
  constructor
  · exact ⟨h.tells.owned, h.tells.zeroTouch, h.tells.certificate, h.tells.reduced, h.tells.http,
      h.tells.recovery⟩
  · exact h.copy
  · exact h.read
  · exact h.forms
  · exact fun _ owned http => (h.supplied running owned http).mono grows rfl
  · intro i member
    rcases List.mem_append.mp member with before | last
    · exact h.issued i before
    · exact List.mem_singleton.mp last ▸ warranted
  · have none := h.requests
    rw [running, if_pos rfl] at none
    rw [List.countP_append]
    exact le_trans none (Nat.zero_le _)
  · exact fun _ => (h.pool running).trans grows

theorem Informed.callback (h : Informed platform entry first facts base s)
    (running : s.running = true) (calls : CallbackCalls) {action : BrowserAction}
    {questionId : QuestionId} (allowed : action = .changed → Allowed facts questionId) :
    Informed platform entry first facts base (s.callback platform calls action questionId) := by
  have quiet : ∀ answer : EfiStatus × ActionRequest,
      driverCallback platform calls action questionId s.driver = ⟨some answer, [], s.driver⟩ →
        s.callback platform calls action questionId = s := by
    intro answer same
    rw [Session.callback, same, List.append_nil]
    cases s
    cases running
    rfl
  have usb : driverCallback platform calls action questionId s.driver =
      neverReturns (runUsbRequest platform calls s.driver) →
        Informed platform entry first facts base
          (s.callback platform calls action questionId) := by
    intro same
    have keeps := @runUsbRequest_keeps platform calls s.driver
    rw [Session.callback, same]
    exact h.end running .usb keeps.1 keeps.2
  cases action with
  | formOpen => exact (quiet _ rfl).symm ▸ h
  | other => exact (quiet _ rfl).symm ▸ h
  | changed =>
      have allowed := allowed rfl
      cases questionId with
      | httpUpdateNow =>
          have keeps := @issueDfciNetworkRequest_keeps platform calls s.driver
          have context := (h.supplied running allowed.1 allowed.2).context platform
          have warranted : Warranted platform entry first facts
              (.network (s.driver.inputs.context platform s.driver.machine.pool)) :=
            context ▸ .network allowed.1 allowed.2
          exact h.end running warranted keeps.1 keeps.2
      | usbUpdateNow => exact usb rfl
      | usbInstallNow => exact usb rfl
      | zumOptIn =>
          exact h.optChange running
            (.optIn allowed.1 allowed.2.1 allowed.2.2.1 allowed.2.2.2) calls
      | zumOptOut => exact h.optChange running (.optOut allowed.1 allowed.2.1 allowed.2.2) calls
      | _ => exact (quiet _ rfl).symm ▸ h

theorem Informed.sound (h : Informed platform entry first facts base s) {e : Entry}
    (chosen : e ∈ s.choices) : Sound facts e := by
  rw [Session.choices] at chosen
  cases copied : s.config with
  | none =>
      rw [copied] at chosen
      cases chosen
  | some config =>
      rw [copied, Option.elim_some, choices_eq_offers (h.copy config copied)] at chosen
      exact offers_sound (h.forms _ List.mem_cons_self) e chosen

theorem Informed.answered (h : Informed platform entry first facts base s)
    (running : s.running = true) (calls : CallbackCalls) {key : QuestionId}
    (chosen : Entry.button key ∈ s.choices) :
    (MenuSession.browse platform s (.choose (.button key) calls)).issued =
      s.issued ++ issuedFor platform entry first key := by
  have allowed : Allowed facts key := h.sound chosen
  rw [MenuSession.browse, if_pos running, if_pos chosen, Session.choose, Session.callback]
  cases key with
  | httpUpdateNow =>
      rw [driverCallback, neverReturns, issueDfciNetworkRequest, issuedFor,
        (h.supplied running allowed.1 allowed.2).context platform]
  | _ => rfl

theorem Informed.serves (h : Informed platform entry first facts base s) :
    Serves platform entry first facts base s where
  reached := h.forms _ List.mem_cons_self
  offered := fun config copied => choices_eq_offers (h.copy config copied)
  shown := fun config copied => shownEntries_eq_offers (h.copy config copied)
  answered := fun running calls _ chosen => h.answered running calls chosen
  issued := h.issued
  requests := h.requests
  pool := h.pool

theorem Informed.choose (h : Informed platform entry first facts base s)
    (running : s.running = true) (calls : CallbackCalls) {e : Entry} (chosen : e ∈ s.choices) :
    Informed platform entry first facts base (s.choose platform calls e) := by
  have sound := h.sound chosen
  cases e with
  | button key => exact h.callback running calls fun _ => sound
  | goto form key =>
      obtain ⟨reached, allowed⟩ := sound
      cases key with
      | none => exact h.visit reached
      | some key =>
          have called := @Informed.callback _ _ _ _ _ _ h running calls .changed key
            fun _ => allowed key rfl
          rw [Session.choose]
          split
          · exact called.visit reached
          · exact called

theorem Informed.extract (h : Informed platform entry first facts base s) (calls : ExtractCalls) :
    Informed platform entry first facts base
      { s with
        driver := (extractConfig calls s.driver).2.2
        config := (extractConfig calls s.driver).2.1.or s.config } := by
  have again := @getDfciParameters_again calls.parameters s.driver h.read
  rw [extractConfig]
  split
  · exact h
  · split
    · exact h
    · split
      · dsimp only
        rw [again]
        refine { h with copy := ?_ }
        intro config copied
        rcases Option.or_eq_some_iff.mp copied with new | ⟨-, old⟩
        · split at new
          · obtain rfl := Option.some_inj.mp new
            exact h.tells
          · cases new
        · exact h.copy config old
      · exact h

theorem Informed.browse (h : Informed platform entry first facts base s) (event : BrowserEvent) :
    Informed platform entry first facts base (browse platform s event) := by
  unfold MenuSession.browse
  split
  · next running =>
      cases event with
      | extract calls => exact h.extract calls
      | route => exact h
      | formOpen questionId calls => exact h.callback running calls nofun
      | choose e calls =>
          dsimp only
          split
          · next chosen => exact h.choose running calls chosen
          · exact h
      | back => exact h.back
  · exact h

/-! ## Whole sessions -/

variable {before : Driver}

theorem extractConfig_accepted {calls : ExtractCalls} (accepted : calls.Accepted)
    (driver : Driver) :
    extractConfig calls driver = (efiSuccess,
      if calls.hdrMatch && !efiError calls.blockToConfig then
        some (getDfciParameters calls.parameters driver).configuration
      else none,
      getDfciParameters calls.parameters driver) := by
  obtain ⟨progress, results, request, given, offset⟩ := accepted
  rw [extractConfig, if_neg (by simp [progress, results]), given]
  exact if_pos offset

theorem extractConfig_refused {calls : ExtractCalls} (refused : ¬ calls.Accepted)
    (driver : Driver) :
    (extractConfig calls driver).2 = (none, driver) := by
  rw [extractConfig]
  split
  · rfl
  · next pointers =>
      simp only [not_or, Bool.not_eq_false] at pointers
      split
      · rfl
      · next request given =>
          split
          · next offset =>
              exact absurd ⟨pointers.1, pointers.2, request, given, offset⟩ refused
          · rfl

theorem browse_extract {s : Session} (running : s.running = true) (calls : ExtractCalls) :
    browse platform s (.extract calls) =
      { s with
        driver := (extractConfig calls s.driver).2.2
        config := (extractConfig calls s.driver).2.1.or s.config } := if_pos running

theorem browse_start (event : BrowserEvent)
    (idle : ∀ calls, event = .extract calls → ¬ calls.Accepted) :
    browse platform (.start true driver) event = .start true driver := by
  cases event with
  | extract calls =>
      rw [browse_extract rfl, extractConfig_refused (idle calls rfl)]
      rfl
  | route => rfl
  | formOpen questionId calls => rfl
  | choose e calls => rfl
  | back => rfl

theorem informed_first {calls : ExtractCalls} (knows : KnowsIdentities entry before driver)
    (unread : before.alreadyRun = false) (accepted : calls.Accepted) :
    Informed platform entry calls.parameters
      (factsOf before.machine.settingAccess entry calls.parameters) before.machine.pool
      (browse platform (.start true driver) (.extract calls)) := by
  have learns := @getDfciParameters_knows calls.parameters driver (knows.alreadyRun.trans unread)
  have tells : Tells (getDfciParameters calls.parameters driver).configuration
      (factsOf before.machine.settingAccess entry calls.parameters) := by
    constructor
    · exact learns.owned.trans knows.owned
    · exact learns.zeroTouch.trans knows.zeroTouch
    · exact learns.certificate.trans knows.certificate
    · rw [learns.reduced, knows.unlocked, Bool.or_false]
      rfl
    · rw [learns.http, knows.access]
      rfl
    · exact learns.recovery
  have first : browse platform (.start true driver) (.extract calls) =
      { Session.start true (getDfciParameters calls.parameters driver) with
        config :=
          if calls.hdrMatch && !efiError calls.blockToConfig then
            some (getDfciParameters calls.parameters driver).configuration
          else none } := by
    rw [browse_extract rfl]
    change _ = ({ Session.start true _ with config := _ } : Session)
    rw [Session.start, extractConfig_accepted accepted, Option.or_none]
    rfl
  rw [first]
  constructor
  · exact tells
  · intro config copied
    dsimp only at copied
    split at copied
    · obtain rfl := Option.some_inj.mp copied
      exact tells
    · cases copied
  · exact learns.alreadyRun
  · intro form member
    obtain rfl := List.mem_singleton.mp member
    exact .menu
  · intro _ owned http
    refine ⟨?_, learns.ready (knows.access ▸ http), ?_⟩
    · exact learns.owner ▸ textOf_extends learns.pool (knows.thumbprint owned)
    · have enrolled : efiError entry.getEnrolledIdentities = false := by
        change ownerKnown entry = true at owned
        rw [ownerKnown, Bool.and_eq_true, Bool.not_eq_true'] at owned
        exact owned.1
      exact learns.info ▸ (knows.info enrolled).mono learns.pool
  · exact fun _ none => absurd none List.not_mem_nil
  · exact Nat.zero_le _
  · exact fun _ => knows.pool.trans learns.pool

theorem foldl_informed {first : ParameterCalls} {facts : Facts} {base : Ledger}
    (events : List BrowserEvent) {s : Session}
    (h : Informed platform entry first facts base s) :
    Informed platform entry first facts base (events.foldl (browse platform) s) := by
  induction events generalizing s with
  | nil => exact h
  | cons event events ih => exact ih (h.browse event)

theorem foldl_stopped (events : List BrowserEvent) {s : Session} (stopped : s.running = false) :
    events.foldl (browse platform) s = s := by
  induction events with
  | nil => rfl
  | cons event events ih =>
      rw [List.foldl_cons, browse.eq_def, if_neg (by simp [stopped])]
      exact ih

/-- Before anything is extracted, the user can do nothing; from then on the session serves, with the
configuration at hand if it was delivered. -/
def Served (platform : Platform) (entry : EnrolledCalls) (opened : Bool) (before : Driver)
    (events : List BrowserEvent) (s : Session) : Prop :=
  match firstExtraction events with
  | none => s.choices = [] ∧ s.issued = []
  | some first =>
      Serves platform entry first.parameters
          (factsOf before.machine.settingAccess entry first.parameters) before.machine.pool s ∧
        (opened = true → delivers first = true → s.config.isSome = true)

theorem choose_config (calls : CallbackCalls) (s : Session) (e : Entry) :
    (s.choose platform calls e).config = s.config := by
  cases e with
  | button key => rfl
  | goto form key =>
      cases key with
      | none => rfl
      | some key =>
          rw [Session.choose]
          split <;> rfl

theorem browse_config {s : Session} (h : s.config.isSome = true) (event : BrowserEvent) :
    (browse platform s event).config.isSome = true := by
  unfold browse
  split
  · cases event with
    | extract calls =>
        rw [Option.isSome_or, h, Bool.or_true]
    | route => exact h
    | formOpen questionId calls => exact h
    | choose e calls =>
        dsimp only
        split
        · rwa [choose_config]
        · exact h
    | back =>
        dsimp only
        rw [Session.back]
        split <;> exact h
  · exact h

theorem foldl_config (events : List BrowserEvent) {s : Session} (h : s.config.isSome = true) :
    (events.foldl (browse platform) s).config.isSome = true := by
  induction events generalizing s with
  | nil => exact h
  | cons event events ih => exact ih (browse_config h event)

theorem first_config {calls : ExtractCalls} (accepted : calls.Accepted)
    (delivered : delivers calls = true) (driver : Driver) :
    (browse platform (.start true driver) (.extract calls)).config.isSome = true := by
  rw [delivers] at delivered
  rw [browse_extract rfl, extractConfig_accepted accepted, delivered]
  rfl

theorem foldl_served (knows : KnowsIdentities entry before driver)
    (unread : before.alreadyRun = false) (events : List BrowserEvent) :
    Served platform entry true before events
      (events.foldl (browse platform) (.start true driver)) := by
  induction events with
  | nil => exact ⟨rfl, rfl⟩
  | cons event events ih =>
      rw [List.foldl_cons]
      cases event with
      | extract calls =>
          unfold Served
          rw [firstExtraction]
          by_cases accepted : calls.Accepted
          · rw [if_pos accepted]
            exact ⟨(foldl_informed events (informed_first knows unread accepted)).serves,
              fun _ delivered => foldl_config events (first_config accepted delivered driver)⟩
          · rw [if_neg accepted, browse_start]
            · exact ih
            · intro other same
              cases same
              exact accepted
      | route => exact ih
      | formOpen questionId calls => exact ih
      | choose e calls => exact ih
      | back => exact ih

theorem start_served (events : List BrowserEvent) :
    Served platform entry false before events (.start false driver) := by
  unfold Served
  cases firstExtraction events with
  | none => exact ⟨rfl, rfl⟩
  | some first =>
      have stopped : ¬ (Session.start false driver).running = true := Bool.false_ne_true
      have uncopied : ∀ config, config ∉ (Session.start false driver).config :=
        fun _ copied => Option.not_mem_none _ copied
      have serves : Serves platform entry first.parameters
          (factsOf before.machine.settingAccess entry first.parameters) before.machine.pool
          (.start false driver) := by
        constructor
        · exact .menu
        · exact fun config copied => absurd copied (uncopied config)
        · exact fun config copied => absurd copied (uncopied config)
        · exact fun running => absurd running stopped
        · exact fun _ issued => absurd issued List.not_mem_nil
        · exact Nat.zero_le _
        · exact fun running => absurd running stopped
      exact ⟨serves, fun opened => absurd opened Bool.false_ne_true⟩

end MuTegra.Dfci.MenuSession
