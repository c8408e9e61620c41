/- Unit: MuTegra/FrontPage/Passwords
   source: NvidiaPkg/Applications/FrontPage/FrontPageUi.c, NvidiaPkg/Applications/FrontPage/FrontPage.c
   digest: The password dialogs: attempts are bounded, and no password outlives its dialog round. -/

import MuTegra.FrontPage.Secrets
import MuTegra.Uefi.Status

/-!
Both functions run over the answers of the dialogs they open. A run without an ending is one
whose last dialog has not been answered yet.
-/

set_option autoImplicit false
set_option relaxedAutoImplicit false

namespace MuTegra.FrontPage.Passwords

open MuTegra.Foundation.Ownership
open MuTegra.Uefi.Status
open MuTegra.Uefi.Strings
open MuTegra.FrontPage.Secrets

def efiSecurityViolation : EfiStatus := encodeError 26#32

inductive SwmMbResult where
  | idOk
  | idCancel
  deriving DecidableEq, Repr

structure DialogOutcome where
  status : EfiStatus
  result : SwmMbResult
  passwordBuffer : Option Handed

def DialogOutcome.Accepted (outcome : DialogOutcome) : Prop :=
  efiError outcome.status = false ∧ outcome.result = .idOk

instance (outcome : DialogOutcome) : Decidable outcome.Accepted :=
  inferInstanceAs (Decidable (_ ∧ _))

def DialogOutcome.password (outcome : DialogOutcome) : Option (List UInt16) :=
  outcome.passwordBuffer.map fun given => given.password.chars

/-! ## Challenging the user -/

/-- What the calls of `GetAuthToken` return; a token is stored or not, and the invalid one is
`none`. -/
structure AuthResults where
  locateStatus : EfiStatus
  authStatus : EfiStatus
  authToken : Option (Option ℕ)
  allocated : Bool
  installStatus : EfiStatus

/-- `mAuthToken`, the passwords sent to the authentication protocol, the tokens stored in a
`FRONT_PAGE_AUTH_TOKEN_PROTOCOL`, and the stores of a token where its allocation failed. -/
structure Auth where
  authToken : Option ℕ
  requests : List (Option (List UInt16) × ℕ)
  tokenProtocols : List ℕ
  nullStores : ℕ

def getAuthToken (passwordBuffer : Option (List UInt16)) (results : AuthResults) (auth : Auth) :
    EfiStatus × Auth :=
  if efiError results.locateStatus then (results.locateStatus, auth)
  else
    let auth := { auth with
      authToken := results.authToken.getD auth.authToken
      requests := auth.requests ++ [(passwordBuffer, (passwordBuffer.getD []).length)] }
    match auth.authToken with
    | none => (results.authStatus, auth)
    | some token =>
        if efiError results.authStatus then (results.authStatus, auth)
        else if results.allocated then
          (results.installStatus, { auth with tokenProtocols := auth.tokenProtocols ++ [token] })
        else (results.installStatus, { auth with nullStores := auth.nullStores + 1 })

structure ChallengeRound where
  outcome : DialogOutcome
  results : AuthResults

/-- The variables of `ChallengeUserPassword`, and the statuses of the checks made. -/
structure Challenge where
  prompt : Prompting
  auth : Auth
  maxAttempts : UInt8
  checks : List EfiStatus

/-- The loop; it leaves with `Result` and `AttemptsExpired`. -/
def challengeLoop : List ChallengeRound → Challenge → Option (Bool × Bool) × Challenge
  | [], c => (none, { c with prompt := c.prompt.startDialog c.prompt.errorMessage })
  | round :: rounds, c =>
      let prompt := (c.prompt.startDialog c.prompt.errorMessage).receive
        round.outcome.passwordBuffer
      if efiError round.outcome.status || round.outcome.result = .idCancel then
        (some (false, false), { c with prompt := prompt })
      else
        let check := getAuthToken prompt.password round.results c.auth
        let checks := c.checks ++ [check.1]
        if check.1 = efiSuccess then (some (true, false), ⟨prompt, check.2, c.maxAttempts, checks⟩)
        else
          let prompt := { prompt with errorMessage := .authError }.releasePassword
          if c.maxAttempts ≠ 0 then
            let maxAttempts := c.maxAttempts - 1
            if maxAttempts = 0 then (some (false, true), ⟨prompt, check.2, maxAttempts, checks⟩)
            else challengeLoop rounds ⟨prompt, check.2, maxAttempts, checks⟩
          else challengeLoop rounds ⟨prompt, check.2, c.maxAttempts, checks⟩

/-- What follows the loop: the message that the attempts have expired, the token and the
buffer. -/
def finishChallenge (result attemptsExpired : Bool) (c : Challenge) : Bool × Challenge :=
  let prompt := if attemptsExpired then c.prompt.startDialog .attemptsExpired else c.prompt
  let result := if attemptsExpired then false else result
  let result := if result && c.auth.authToken = none then false else result
  (result, { c with prompt := prompt.releasePassword })

def challengeUserPassword (maxAttempts : UInt8) (rounds : List ChallengeRound) (prompt : Prompting)
    (auth : Auth) : Option Bool × Challenge :=
  match challengeLoop rounds ⟨prompt, auth, maxAttempts, []⟩ with
  | (none, c) => (none, c)
  | (some (result, attemptsExpired), c) =>
      let finished := finishChallenge result attemptsExpired c
      (some finished.1, finished.2)

/-! ## Setting the password -/

structure PwTestBitmap where
  stringNull : Bool
  stringTooShort : Bool
  stringTooLong : Bool
  stringInvalidChar : Bool

/-- `PasswordPolicyIsPwStringValid`: only for no password, or an empty one, does it set
`PW_TEST_STRING_NULL`. -/
structure PasswordPolicy where
  isPwStringValid : Option (List UInt16) → Bool × PwTestBitmap
  null_empty : ∀ password, (isPwStringValid password).2.stringNull = true →
    password.getD [] = []

instance : Inhabited PasswordPolicy where
  default :=
    { isPwStringValid := fun password =>
        (!(password.getD []).isEmpty, ⟨(password.getD []).isEmpty, false, false, false⟩)
      null_empty := fun _ null => List.isEmpty_iff.mp null }

structure SetRound where
  outcome : DialogOutcome
  hashStatus : EfiStatus
  setStatus : EfiStatus

/-- The variables of `SetSystemPassword`, and the passwords passed to `Set` with their rounds. -/
structure Setting where
  prompt : Prompting
  stored : List (SetRound × Option (List UInt16))

def policyMessage (bitmap : PwTestBitmap) : Message :=
  if bitmap.stringTooShort then .tooShort
  else if bitmap.stringTooLong then .tooLong
  else if bitmap.stringInvalidChar then .invalidChar
  else .setGenFailure

def failureMessage (status : EfiStatus) : Message :=
  if status = efiSecurityViolation then .authError else .setGenFailure

/-- `PasswordPolicyGeneratePasswordHash`, `Set` and the release of the hash. -/
def storePassword (round : SetRound) (s : Setting) : EfiStatus × Setting :=
  if efiError round.hashStatus then (round.hashStatus, s)
  else
    let passwordHash := s.prompt.pool.acquire true
    (round.setStatus,
      { prompt := { s.prompt with pool := passwordHash.2.release passwordHash.1 }
        stored := s.stored ++ [(round, s.prompt.password)] })

def setSystemPassword (policy : PasswordPolicy) :
    List SetRound → Setting → Option EfiStatus × Setting
  | [], s => (none, { s with prompt := s.prompt.startDialog s.prompt.errorMessage })
  | round :: rounds, s =>
      let prompt := (s.prompt.startDialog s.prompt.errorMessage).receive
        round.outcome.passwordBuffer
      if efiError round.outcome.status || round.outcome.result = .idCancel then
        (some round.outcome.status, { s with prompt := prompt.releasePassword })
      else
        let valid := policy.isPwStringValid prompt.password
        if valid.1 = false && valid.2.stringNull = false then
          setSystemPassword policy rounds
            { s with
              prompt := { prompt with errorMessage := policyMessage valid.2 }.releasePassword }
        else
          let set := storePassword round { s with prompt := prompt }
          if efiError set.1 then
            setSystemPassword policy rounds
              { set.2 with
                prompt :=
                  { set.2.prompt with errorMessage := failureMessage set.1 }.releasePassword }
          else (some set.1, { set.2 with prompt := set.2.prompt.releasePassword })

/-! ## What must hold -/

def handedLengths (outcomes : List DialogOutcome) : List ℕ :=
  outcomes.flatMap fun outcome =>
    (outcome.passwordBuffer.map fun given => given.password.chars.length).toList

/-- `mAuthToken` and what belongs to it after the passwords of these rounds were checked. -/
def authAfter (auth : Auth) (checked : List ChallengeRound) : Auth :=
  checked.foldl (fun auth round => (getAuthToken round.outcome.password round.results auth).2) auth

def checkStatuses (auth : Auth) : List ChallengeRound → List EfiStatus
  | [] => []
  | round :: checked =>
      let check := getAuthToken round.outcome.password round.results auth
      check.1 :: checkStatuses check.2 checked

/-- The ways in which a challenge ends when the passwords of the first rounds were checked: with
the rounds whose dialogs it opened, and its result. -/
inductive ChallengeEnds (maxAttempts : UInt8) (auth : Auth) (rounds checked : List ChallengeRound) :
    List ChallengeRound → Option Bool → Prop where
  /-- The next dialog is not answered. -/
  | waiting (all : checked = rounds) (failed : efiSuccess ∉ checkStatuses auth checked)
      (left : maxAttempts ≠ 0 → checked.length < maxAttempts.toNat) :
      ChallengeEnds maxAttempts auth rounds checked checked none
  /-- The next dialog is cancelled or fails. -/
  | cancelled (round : ChallengeRound) (next : checked ++ [round] <+: rounds)
      (refused : ¬ round.outcome.Accepted) (failed : efiSuccess ∉ checkStatuses auth checked)
      (left : maxAttempts ≠ 0 → checked.length < maxAttempts.toNat) :
      ChallengeEnds maxAttempts auth rounds checked (checked ++ [round]) (some false)
  /-- The last check succeeds, and the token decides. -/
  | passed (earlier : List ChallengeRound) (round : ChallengeRound)
      (last : checked = earlier ++ [round]) (taken : checked <+: rounds)
      (failed : efiSuccess ∉ checkStatuses auth earlier)
      (success : (getAuthToken round.outcome.password round.results
        (authAfter auth earlier)).1 = efiSuccess)
      (left : maxAttempts ≠ 0 → earlier.length < maxAttempts.toNat) :
      ChallengeEnds maxAttempts auth rounds checked checked
        (some (authAfter auth checked).authToken.isSome)
  /-- The last attempt is used up. -/
  | expired (taken : checked <+: rounds) (failed : efiSuccess ∉ checkStatuses auth checked)
      (limited : maxAttempts ≠ 0) (spent : checked.length = maxAttempts.toNat) :
      ChallengeEnds maxAttempts auth rounds checked checked (some false)

/-- What a challenge leaves tells which passwords were checked and which dialogs were opened. -/
structure ChallengeCourse (auth : Auth) (checked dialogs : List ChallengeRound) (c : Challenge) :
    Prop where
  accepted : ∀ round ∈ checked, round.outcome.Accepted
  checks : c.checks = checkStatuses auth checked
  auth : c.auth = authAfter auth checked
  handed : c.prompt.lengths = handedLengths (dialogs.map ChallengeRound.outcome)

/-- No more checks than attempts are made, and that many answers end the challenge; it succeeds
exactly when a check did and the token is valid; no password is left behind; and the checks and
the dialogs are those of the rounds up to the one that ends it. -/
structure Challenged (maxAttempts : UInt8) (rounds : List ChallengeRound) (auth : Auth)
    (base : Ledger) (result : Option Bool) (c : Challenge) : Prop where
  checks_le : maxAttempts ≠ 0 → c.checks.length ≤ maxAttempts.toNat
  ends : maxAttempts ≠ 0 → maxAttempts.toNat ≤ rounds.length → result ≠ none
  true_iff : result = some true ↔ efiSuccess ∈ c.checks ∧ c.auth.authToken ≠ none
  kept : Kept base c.prompt
  course : ∃ checked dialogs, ChallengeCourse auth checked dialogs c ∧
    ChallengeEnds maxAttempts auth rounds checked dialogs result

def SetRound.Passes (policy : PasswordPolicy) (round : SetRound) : Prop :=
  (policy.isPwStringValid round.outcome.password).1 = true ∨
    (policy.isPwStringValid round.outcome.password).2.stringNull = true

/-- The password of the round is passed to `Set`. -/
def SetRound.Stores (policy : PasswordPolicy) (round : SetRound) : Prop :=
  round.outcome.Accepted ∧ round.Passes policy ∧ efiError round.hashStatus = false

def SetRound.Sets (policy : PasswordPolicy) (round : SetRound) : Prop :=
  round.Stores policy ∧ efiError round.setStatus = false

instance (policy : PasswordPolicy) : DecidablePred (SetRound.Passes policy) :=
  fun _ => inferInstanceAs (Decidable (_ ∨ _))

instance (policy : PasswordPolicy) : DecidablePred (SetRound.Stores policy) :=
  fun _ => inferInstanceAs (Decidable (_ ∧ _ ∧ _))

/-- The ways in which the setting ends after rounds that set no password: with the rounds whose
dialogs it opened, and its status. -/
inductive SettingEnds (policy : PasswordPolicy) (rounds tried : List SetRound) :
    List SetRound → Option EfiStatus → Prop where
  /-- The next dialog is not answered. -/
  | waiting (all : tried = rounds) : SettingEnds policy rounds tried tried none
  /-- The next dialog is cancelled or fails. -/
  | cancelled (round : SetRound) (next : tried ++ [round] <+: rounds)
      (refused : ¬ round.outcome.Accepted) :
      SettingEnds policy rounds tried (tried ++ [round]) (some round.outcome.status)
  | set (round : SetRound) (next : tried ++ [round] <+: rounds) (sets : round.Sets policy) :
      SettingEnds policy rounds tried (tried ++ [round]) (some round.setStatus)

/-- A password is that of its round, whose dialog was accepted, and it passes the policy or is
empty. -/
def Allowed (policy : PasswordPolicy) (entry : SetRound × Option (List UInt16)) : Prop :=
  entry.1.outcome.Accepted ∧ entry.2 = entry.1.outcome.password ∧
    ((policy.isPwStringValid entry.2).1 = true ∨ entry.2.getD [] = [])

/-- What the setting leaves tells which passwords were passed to `Set` and which dialogs were
opened. -/
structure SettingCourse (policy : PasswordPolicy) (tried dialogs : List SetRound) (s : Setting) :
    Prop where
  accepted : ∀ round ∈ tried, round.outcome.Accepted ∧ ¬ round.Sets policy
  stored : s.stored =
    (dialogs.filter (SetRound.Stores policy)).map fun round => (round, round.outcome.password)
  handed : s.prompt.lengths = handedLengths (dialogs.map SetRound.outcome)

/-- Passwords are stored only in rounds that allow them, and none is left behind; the dialogs are
those of the rounds up to the one that sets a password or is cancelled, and every password that
can be stored in them is. -/
structure PasswordsSet (policy : PasswordPolicy) (rounds : List SetRound) (base : Ledger)
    (status : Option EfiStatus) (s : Setting) : Prop where
  stored : ∀ entry ∈ s.stored, entry.1 ∈ rounds ∧ Allowed policy entry
  kept : Kept base s.prompt
  course : ∃ tried dialogs, SettingCourse policy tried dialogs s ∧
    SettingEnds policy rounds tried dialogs status

theorem handedLengths_append (outcomes : List DialogOutcome) (outcome : DialogOutcome) :
    handedLengths (outcomes ++ [outcome]) = handedLengths outcomes ++
      (outcome.passwordBuffer.map fun given => given.password.chars.length).toList := by
  rw [handedLengths, handedLengths, List.flatMap_append, List.flatMap_singleton]

theorem prefix_concat {α : Type} (taken : List α) (round : α) (rounds : List α) :
    taken ++ [round] <+: taken ++ round :: rounds :=
  (List.prefix_append_right_inj taken).mpr (List.prefix_append [round] rounds)

theorem stopped_iff (outcome : DialogOutcome) :
    (efiError outcome.status || outcome.result = .idCancel) = true ↔ ¬ outcome.Accepted := by
  rw [DialogOutcome.Accepted, Bool.or_eq_true, decide_eq_true_iff, not_and_or,
    Bool.not_eq_false]
  refine or_congr_right ?_
  cases outcome.result <;> decide

/-! ## The challenge -/

variable {limit : UInt8} {base : Ledger} {auth : Auth}

theorem authAfter_append (auth : Auth) (checked : List ChallengeRound) (round : ChallengeRound) :
    authAfter auth (checked ++ [round]) =
      (getAuthToken round.outcome.password round.results (authAfter auth checked)).2 := by
  rw [authAfter, List.foldl_append]
  rfl

theorem checkStatuses_append (checked : List ChallengeRound) (round : ChallengeRound) :
    ∀ auth, checkStatuses auth (checked ++ [round]) = checkStatuses auth checked ++
      [(getAuthToken round.outcome.password round.results (authAfter auth checked)).1] := by
  induction checked with
  | nil => exact fun auth => rfl
  | cons first checked ih => exact fun auth => congrArg _ (ih _)

theorem length_checkStatuses (checked : List ChallengeRound) :
    ∀ auth, (checkStatuses auth checked).length = checked.length := by
  induction checked with
  | nil => exact fun auth => rfl
  | cons first checked ih => exact fun auth => congrArg (· + 1) (ih _)

/-- Before a dialog the passwords of all rounds were checked, and every check has failed. -/
structure Attempting (limit : UInt8) (base : Ledger) (auth : Auth) (taken : List ChallengeRound)
    (c : Challenge) : Prop where
  holding : Holding base none c.prompt
  course : ChallengeCourse auth taken taken c
  failed : efiSuccess ∉ checkStatuses auth taken
  budget : limit ≠ 0 → 0 < c.maxAttempts.toNat ∧ taken.length + c.maxAttempts.toNat = limit.toNat
  unlimited : limit = 0 → c.maxAttempts = 0

/-- What is in hand when the loop is left with `Result` and `AttemptsExpired`, or waits. -/
structure LoopLeft (base : Ledger) (left : Option (Bool × Bool)) (c : Challenge) : Prop where
  holding : ∃ password, Holding base password c.prompt
  waiting : left = none → Holding base none c.prompt
  expired : ∀ result, left = some (result, true) → result = false ∧ Holding base none c.prompt

def LoopRuns (limit : UInt8) (base : Ledger) (auth : Auth) (all : List ChallengeRound)
    (run : Option (Bool × Bool) × Challenge) : Prop :=
  LoopLeft base run.1 run.2 ∧ ∃ checked dialogs, ChallengeCourse auth checked dialogs run.2 ∧
    ChallengeEnds limit auth all checked dialogs
      (run.1.map fun left => left.1 && run.2.auth.authToken.isSome)

theorem pos_of_ne_zero {n : UInt8} (h : n ≠ 0) : 0 < n.toNat :=
  Nat.pos_of_ne_zero fun zero => h (UInt8.toNat_inj.mp zero)

theorem toNat_sub_one {n : UInt8} (h : n ≠ 0) : (n - 1).toNat + 1 = n.toNat := by
  have positive := pos_of_ne_zero h
  rw [UInt8.toNat_sub_of_le n 1 (UInt8.le_iff_toNat_le.mpr positive)]
  exact Nat.sub_add_cancel positive

variable {c : Challenge} {taken rounds : List ChallengeRound} {round : ChallengeRound}

def Challenge.prompted (c : Challenge) (round : ChallengeRound) : Prompting :=
  (c.prompt.startDialog c.prompt.errorMessage).receive round.outcome.passwordBuffer

theorem Attempting.left (h : Attempting limit base auth taken c) (limited : limit ≠ 0) :
    taken.length < limit.toNat := by
  obtain ⟨positive, total⟩ := h.budget limited
  omega

theorem Attempting.prompted (h : Attempting limit base auth taken c) (round : ChallengeRound) :
    Holding base (round.outcome.passwordBuffer.map Handed.password) (c.prompted round) :=
  (h.holding.startDialog _).receive _

theorem Attempting.password (h : Attempting limit base auth taken c) (round : ChallengeRound) :
    (c.prompted round).password = round.outcome.password := by
  rw [(h.prompted round).reads, DialogOutcome.password, Option.map_map]
  rfl

theorem Attempting.handed (h : Attempting limit base auth taken c) (round : ChallengeRound) :
    (c.prompted round).lengths = handedLengths ((taken ++ [round]).map ChallengeRound.outcome) := by
  rw [List.map_append, List.map_singleton, handedLengths_append, ← h.course.handed]
  exact (h.holding.startDialog c.prompt.errorMessage).lengths_receive _

theorem Attempting.checked (h : Attempting limit base auth taken c)
    (accepted : round.outcome.Accepted) (prompt : Prompting) (maxAttempts : UInt8)
    (handed : prompt.lengths = (c.prompted round).lengths) :
    ChallengeCourse auth (taken ++ [round]) (taken ++ [round])
      ⟨prompt, (getAuthToken round.outcome.password round.results c.auth).2, maxAttempts,
        c.checks ++ [(getAuthToken round.outcome.password round.results c.auth).1]⟩ where
  accepted := by
    intro other member
    rcases List.mem_append.mp member with earlier | last
    · exact h.course.accepted other earlier
    · rwa [List.mem_singleton.mp last]
  checks := by rw [checkStatuses_append, h.course.checks, h.course.auth]
  auth := by rw [authAfter_append, h.course.auth]
  handed := handed.trans (h.handed round)

theorem Attempting.failed_append (h : Attempting limit base auth taken c)
    (failed : (getAuthToken round.outcome.password round.results c.auth).1 ≠ efiSuccess) :
    efiSuccess ∉ checkStatuses auth (taken ++ [round]) := by
  rw [checkStatuses_append, ← h.course.auth]
  intro member
  rcases List.mem_append.mp member with earlier | last
  · exact h.failed earlier
  · exact failed (List.mem_singleton.mp last).symm

theorem Attempting.cancelled (h : Attempting limit base auth taken c)
    (refused : ¬ round.outcome.Accepted) :
    LoopRuns limit base auth (taken ++ round :: rounds)
      (some (false, false), { c with prompt := c.prompted round }) := by
  refine ⟨⟨⟨_, h.prompted round⟩, nofun, nofun⟩, taken, taken ++ [round],
    ⟨h.course.accepted, h.course.checks, h.course.auth, h.handed round⟩, ?_⟩
  exact .cancelled round (prefix_concat taken round rounds) refused h.failed h.left

theorem Attempting.passed (h : Attempting limit base auth taken c)
    (accepted : round.outcome.Accepted)
    (success : (getAuthToken round.outcome.password round.results c.auth).1 = efiSuccess) :
    LoopRuns limit base auth (taken ++ round :: rounds)
      (some (true, false), ⟨c.prompted round,
        (getAuthToken round.outcome.password round.results c.auth).2, c.maxAttempts,
        c.checks ++ [(getAuthToken round.outcome.password round.results c.auth).1]⟩) := by
  have course := h.checked accepted (c.prompted round) c.maxAttempts rfl
  refine ⟨⟨⟨_, h.prompted round⟩, nofun, nofun⟩, taken ++ [round], taken ++ [round], course, ?_⟩
  have token := course.auth
  dsimp only at token
  simp only [Option.map_some, Bool.true_and, token]
  exact .passed taken round rfl (prefix_concat taken round rounds) h.failed
    (h.course.auth ▸ success) h.left

theorem Attempting.expired (h : Attempting limit base auth taken c)
    (accepted : round.outcome.Accepted)
    (failed : (getAuthToken round.outcome.password round.results c.auth).1 ≠ efiSuccess)
    {prompt : Prompting} (released : Holding base none prompt)
    (handed : prompt.lengths = (c.prompted round).lengths) {maxAttempts : UInt8}
    (limited : limit ≠ 0) (last : c.maxAttempts.toNat = 1) :
    LoopRuns limit base auth (taken ++ round :: rounds)
      (some (false, true), ⟨prompt,
        (getAuthToken round.outcome.password round.results c.auth).2, maxAttempts,
        c.checks ++ [(getAuthToken round.outcome.password round.results c.auth).1]⟩) := by
  refine ⟨⟨⟨none, released⟩, nofun, ?_⟩, taken ++ [round], taken ++ [round],
    h.checked accepted _ maxAttempts handed, ?_⟩
  · rintro result ⟨⟩
    exact ⟨rfl, released⟩
  · refine .expired (prefix_concat taken round rounds) (h.failed_append failed) limited ?_
    have total := (h.budget limited).2
    rw [last] at total
    rw [List.length_append]
    exact total

theorem Attempting.next (h : Attempting limit base auth taken c)
    (accepted : round.outcome.Accepted)
    (failed : (getAuthToken round.outcome.password round.results c.auth).1 ≠ efiSuccess)
    {prompt : Prompting} (released : Holding base none prompt)
    (handed : prompt.lengths = (c.prompted round).lengths) {maxAttempts : UInt8}
    (left : limit ≠ 0 → 0 < maxAttempts.toNat ∧ maxAttempts.toNat + 1 = c.maxAttempts.toNat)
    (unlimited : limit = 0 → maxAttempts = 0) :
    Attempting limit base auth (taken ++ [round])
      ⟨prompt, (getAuthToken round.outcome.password round.results c.auth).2, maxAttempts,
        c.checks ++ [(getAuthToken round.outcome.password round.results c.auth).1]⟩ where
  holding := released
  course := h.checked accepted _ maxAttempts handed
  failed := h.failed_append failed
  budget := by
    intro limited
    obtain ⟨positive, one⟩ := left limited
    obtain ⟨-, total⟩ := h.budget limited
    refine ⟨positive, ?_⟩
    rw [List.length_append, List.length_singleton]
    change taken.length + 1 + maxAttempts.toNat = limit.toNat
    omega
  unlimited := unlimited

theorem challengeLoop_refused (refused : ¬ round.outcome.Accepted) :
    challengeLoop (round :: rounds) c =
      (some (false, false), { c with prompt := c.prompted round }) := by
  rw [challengeLoop, if_pos ((stopped_iff _).mpr refused)]
  rfl

def Challenge.released (c : Challenge) (round : ChallengeRound) : Prompting :=
  { c.prompted round with errorMessage := .authError }.releasePassword

def Challenge.after (c : Challenge) (round : ChallengeRound) (prompt : Prompting)
    (maxAttempts : UInt8) : Challenge :=
  ⟨prompt, (getAuthToken round.outcome.password round.results c.auth).2, maxAttempts,
    c.checks ++ [(getAuthToken round.outcome.password round.results c.auth).1]⟩

theorem challengeLoop_accepted (accepted : round.outcome.Accepted)
    (password : (c.prompted round).password = round.outcome.password) :
    challengeLoop (round :: rounds) c =
      if (getAuthToken round.outcome.password round.results c.auth).1 = efiSuccess then
        (some (true, false), c.after round (c.prompted round) c.maxAttempts)
      else if c.maxAttempts ≠ 0 then
        if c.maxAttempts - 1 = 0 then
          (some (false, true), c.after round (c.released round) (c.maxAttempts - 1))
        else challengeLoop rounds (c.after round (c.released round) (c.maxAttempts - 1))
      else challengeLoop rounds (c.after round (c.released round) c.maxAttempts) := by
  rw [← password, challengeLoop, if_neg (fun stopped => (stopped_iff _).mp stopped accepted)]
  unfold Challenge.after
  rw [← password]
  rfl

/-- The rounds that were taken lead to those that are left, by induction on the latter. -/
theorem challengeLoop_runs (rounds : List ChallengeRound) :
    ∀ {taken : List ChallengeRound} {c : Challenge}, Attempting limit base auth taken c →
      LoopRuns limit base auth (taken ++ rounds) (challengeLoop rounds c) := by
  induction rounds with
  | nil =>
      intro taken c h
      have holding : Holding base none (c.prompt.startDialog c.prompt.errorMessage) :=
        h.holding.startDialog _
      rw [challengeLoop, List.append_nil]
      refine ⟨⟨⟨none, holding⟩, fun _ => holding, nofun⟩, taken, taken, ?_, ?_⟩
      · exact ⟨h.course.accepted, h.course.checks, h.course.auth, h.course.handed⟩
      · exact .waiting rfl h.failed h.left
  | cons round rounds ih =>
      intro taken c h
      by_cases accepted : round.outcome.Accepted
      · have released := ((h.prompted round).withMessage .authError).releasePassword
        have handed : (c.released round).lengths = (c.prompted round).lengths :=
          lengths_releasePassword _
        have later : taken ++ round :: rounds = (taken ++ [round]) ++ rounds := by simp
        rw [challengeLoop_accepted accepted (h.password round)]
        by_cases success :
            (getAuthToken round.outcome.password round.results c.auth).1 = efiSuccess
        · rw [if_pos success]
          exact h.passed accepted success
        · rw [if_neg success]
          by_cases counted : c.maxAttempts ≠ 0
          · have less := toNat_sub_one counted
            have limited : limit ≠ 0 := mt h.unlimited counted
            rw [if_pos counted]
            by_cases last : c.maxAttempts - 1 = 0
            · rw [if_pos last]
              rw [last] at less
              exact h.expired accepted success released handed limited less.symm
            · rw [if_neg last, later]
              refine ih (h.next accepted success released handed ?_ fun none => ?_)
              · exact fun _ => ⟨pos_of_ne_zero last, less⟩
              · exact absurd none limited
          · rw [if_neg counted, later]
            refine ih (h.next accepted success released handed (fun limited => ?_) h.unlimited)
            have positive := (h.budget limited).1
            rw [not_not.mp counted] at positive
            exact absurd positive (lt_irrefl _)
      · rw [challengeLoop_refused accepted]
        exact h.cancelled accepted

/-! ### The whole challenge -/

theorem ChallengeEnds.checks_le {rounds checked dialogs : List ChallengeRound}
    {result : Option Bool} (h : ChallengeEnds limit auth rounds checked dialogs result)
    (limited : limit ≠ 0) : checked.length ≤ limit.toNat := by
  cases h with
  | waiting all failed left => exact (left limited).le
  | cancelled round next refused failed left => exact (left limited).le
  | passed earlier round last taken failed success left =>
      rw [last, List.length_append]
      exact left limited
  | expired taken failed limited spent => exact spent.le

theorem ChallengeEnds.answered {rounds checked dialogs : List ChallengeRound}
    {result : Option Bool} (h : ChallengeEnds limit auth rounds checked dialogs result)
    (limited : limit ≠ 0) (enough : limit.toNat ≤ rounds.length) : result ≠ none := by
  cases h with
  | waiting all failed left =>
      have short := left limited
      rw [all] at short
      exact absurd short (not_lt.mpr enough)
  | cancelled round next refused failed left => nofun
  | passed earlier round last taken failed success left => nofun
  | expired taken failed limited spent => nofun

theorem ChallengeEnds.true_iff {rounds checked dialogs : List ChallengeRound}
    {result : Option Bool} (h : ChallengeEnds limit auth rounds checked dialogs result) :
    result = some true ↔
      efiSuccess ∈ checkStatuses auth checked ∧ (authAfter auth checked).authToken ≠ none := by
  cases h with
  | waiting all failed left => exact iff_of_false nofun fun passed => failed passed.1
  | cancelled round next refused failed left =>
      exact iff_of_false nofun fun passed => failed passed.1
  | passed earlier round last taken failed success left =>
      have member : efiSuccess ∈ checkStatuses auth checked := by
        rw [last, checkStatuses_append, success]
        exact List.mem_append_right _ List.mem_cons_self
      rw [Option.some_inj, Option.isSome_iff_ne_none]
      exact (and_iff_right member).symm
  | expired taken failed limited spent => exact iff_of_false nofun fun passed => failed passed.1

theorem challenged_of_course {rounds checked dialogs : List ChallengeRound}
    {result : Option Bool} {c : Challenge} (kept : Kept base c.prompt)
    (course : ChallengeCourse auth checked dialogs c)
    (ends : ChallengeEnds limit auth rounds checked dialogs result) :
    Challenged limit rounds auth base result c where
  checks_le := by
    rw [course.checks, length_checkStatuses]
    exact ends.checks_le
  ends := ends.answered
  true_iff := by
    rw [course.checks, course.auth]
    exact ends.true_iff
  kept := kept
  course := ⟨checked, dialogs, course, ends⟩

theorem finishChallenge_spec {result attemptsExpired : Bool} {c : Challenge}
    (left : LoopLeft base (some (result, attemptsExpired)) c) :
    (finishChallenge result attemptsExpired c).1 = (result && c.auth.authToken.isSome) ∧
      Holding base none (finishChallenge result attemptsExpired c).2.prompt ∧
      (finishChallenge result attemptsExpired c).2.prompt.lengths = c.prompt.lengths ∧
      (finishChallenge result attemptsExpired c).2.checks = c.checks ∧
      (finishChallenge result attemptsExpired c).2.auth = c.auth := by
  cases attemptsExpired with
  | true =>
      obtain ⟨rfl, holding⟩ := left.expired _ rfl
      refine ⟨rfl, (holding.startDialog .attemptsExpired).releasePassword, ?_, rfl, rfl⟩
      exact lengths_releasePassword _
  | false =>
      obtain ⟨password, holding⟩ := left.holding
      refine ⟨?_, holding.releasePassword, lengths_releasePassword _, rfl, rfl⟩
      rw [finishChallenge]
      cases result <;> cases c.auth.authToken <;> rfl

theorem challengeUserPassword_challenged (maxAttempts : UInt8) (rounds : List ChallengeRound)
    (pool : Ledger) (secrets : ℕ → Secret) (auth : Auth) :
    Challenged maxAttempts rounds auth pool
      (challengeUserPassword maxAttempts rounds (.start pool secrets) auth).1
      (challengeUserPassword maxAttempts rounds (.start pool secrets) auth).2 := by
  have start : Attempting maxAttempts pool auth [] ⟨.start pool secrets, auth, maxAttempts, []⟩ :=
    ⟨.start pool secrets, ⟨fun _ member => absurd member List.not_mem_nil, rfl, rfl, rfl⟩,
      List.not_mem_nil, fun limited => ⟨pos_of_ne_zero limited, Nat.zero_add _⟩, id⟩
  obtain ⟨loopLeft, checked, dialogs, course, ends⟩ := challengeLoop_runs rounds start
  rw [challengeUserPassword]
  generalize challengeLoop rounds ⟨.start pool secrets, auth, maxAttempts, []⟩ = run at *
  obtain ⟨left, c⟩ := run
  cases left with
  | none => exact challenged_of_course (loopLeft.waiting rfl).kept course ends
  | some left =>
      obtain ⟨result, attemptsExpired⟩ := left
      obtain ⟨answer, holding, lengths, checks, token⟩ := finishChallenge_spec loopLeft
      have ends : ChallengeEnds maxAttempts auth rounds checked dialogs
          (some (finishChallenge result attemptsExpired c).1) := by
        rw [answer]
        exact ends
      refine challenged_of_course holding.kept ?_ ends
      exact ⟨course.accepted, checks.trans course.checks, token.trans course.auth,
        lengths.trans course.handed⟩

def typed (password : UnicodeString) : DialogOutcome :=
  ⟨efiSuccess, .idOk, some ⟨password, []⟩⟩

def sampleChallenge : List ChallengeRound :=
  [⟨typed ⟨[49], by decide⟩, ⟨efiSuccess, efiSecurityViolation, none, true, efiSuccess⟩⟩,
    ⟨typed ⟨[49, 50], by decide⟩, ⟨efiSuccess, efiSecurityViolation, none, true, efiSuccess⟩⟩,
    ⟨typed ⟨[49, 50, 51], by decide⟩, ⟨efiSuccess, efiSuccess, some (some 7), true, efiSuccess⟩⟩]

def samplePrompt : Prompting := .start .empty fun _ => ⟨[], 0⟩

example :
    let run := challengeUserPassword 3 sampleChallenge samplePrompt ⟨none, [], [], 0⟩
    run.1 = some true ∧ run.2.checks = [efiSecurityViolation, efiSecurityViolation, efiSuccess] ∧
      run.2.prompt.lengths = [1, 2, 3] ∧ run.2.auth.tokenProtocols = [7] ∧
      run.2.prompt.shown = [.nullString, .authError, .authError] := by
  decide

example :
    let run := challengeUserPassword 2 sampleChallenge samplePrompt ⟨none, [], [], 0⟩
    run.1 = some false ∧ run.2.checks = [efiSecurityViolation, efiSecurityViolation] ∧
      run.2.prompt.lengths = [1, 2] := by
  decide

/-! ## The setting -/

section

variable {policy : PasswordPolicy} {s s' : Setting} {tried rounds : List SetRound}
  {round : SetRound}

/-- Before a dialog every round was answered with a password, and none of them was set. -/
structure Settled (policy : PasswordPolicy) (base : Ledger) (tried : List SetRound)
    (s : Setting) : Prop where
  holding : Holding base none s.prompt
  course : SettingCourse policy tried tried s

def SettingRuns (policy : PasswordPolicy) (base : Ledger) (all : List SetRound)
    (run : Option EfiStatus × Setting) : Prop :=
  Holding base none run.2.prompt ∧ ∃ tried dialogs, SettingCourse policy tried dialogs run.2 ∧
    SettingEnds policy all tried dialogs run.1

def Setting.prompted (s : Setting) (round : SetRound) : Prompting :=
  (s.prompt.startDialog s.prompt.errorMessage).receive round.outcome.passwordBuffer

/-- What a round leaves: its password is out of hand again, and stored if it can be. -/
structure Leaves (policy : PasswordPolicy) (base : Ledger) (round : SetRound) (s s' : Setting) :
    Prop where
  holding : Holding base none s'.prompt
  handed : s'.prompt.lengths = (s.prompted round).lengths
  stored : s'.stored = s.stored ++
    if round.Stores policy then [(round, round.outcome.password)] else []

theorem Settled.prompted (h : Settled policy base tried s) (round : SetRound) :
    Holding base (round.outcome.passwordBuffer.map Handed.password) (s.prompted round) :=
  (h.holding.startDialog _).receive _

theorem Settled.password (h : Settled policy base tried s) (round : SetRound) :
    (s.prompted round).password = round.outcome.password := by
  rw [(h.prompted round).reads, DialogOutcome.password, Option.map_map]
  rfl

theorem Settled.leaves (h : Settled policy base tried s) (leaves : Leaves policy base round s s')
    (accepted : ∀ other ∈ rounds, other.outcome.Accepted ∧ ¬ other.Sets policy) :
    SettingCourse policy rounds (tried ++ [round]) s' where
  accepted := accepted
  stored := by
    rw [leaves.stored, h.course.stored, List.filter_append, List.map_append]
    congr 1
    by_cases stores : round.Stores policy
    · rw [if_pos stores, List.filter_singleton, decide_eq_true stores]
      rfl
    · rw [if_neg stores, List.filter_singleton, decide_eq_false stores]
      rfl
  handed := by
    rw [leaves.handed, List.map_append, List.map_singleton, handedLengths_append,
      ← h.course.handed]
    exact (h.holding.startDialog s.prompt.errorMessage).lengths_receive _

theorem Settled.next (h : Settled policy base tried s) (leaves : Leaves policy base round s s')
    (accepted : round.outcome.Accepted) (unset : ¬ round.Sets policy) :
    Settled policy base (tried ++ [round]) s' := by
  refine ⟨leaves.holding, h.leaves leaves fun other member => ?_⟩
  rcases List.mem_append.mp member with earlier | last
  · exact h.course.accepted other earlier
  · rw [List.mem_singleton.mp last]
    exact ⟨accepted, unset⟩

theorem storePassword_spec {password : Option UnicodeString}
    (h : Holding base password s.prompt) :
    (storePassword round s).1 =
        (if efiError round.hashStatus then round.hashStatus else round.setStatus) ∧
      Holding base password (storePassword round s).2.prompt ∧
      (storePassword round s).2.prompt.lengths = s.prompt.lengths ∧
      (storePassword round s).2.stored = s.stored ++
        if efiError round.hashStatus = false then [(round, s.prompt.password)] else [] := by
  rw [storePassword]
  cases hash : efiError round.hashStatus with
  | true => exact ⟨rfl, h, rfl, (List.append_nil _).symm⟩
  | false => exact ⟨rfl, h.withScratch, rfl, rfl⟩

theorem sets_iff (accepted : round.outcome.Accepted) (passes : round.Passes policy) :
    round.Sets policy ↔
      efiError (if efiError round.hashStatus then round.hashStatus else round.setStatus) =
        false := by
  rw [SetRound.Sets, SetRound.Stores]
  cases hash : efiError round.hashStatus with
  | true => simp [hash]
  | false => simp [accepted, passes]

theorem Settled.refuse (h : Settled policy base tried s) (refused : ¬ round.outcome.Accepted) :
    SettingRuns policy base (tried ++ round :: rounds)
      (setSystemPassword policy (round :: rounds) s) := by
  have stops : setSystemPassword policy (round :: rounds) s =
      (some round.outcome.status, { s with prompt := (s.prompted round).releasePassword }) := by
    rw [setSystemPassword, if_pos ((stopped_iff _).mpr refused)]
    rfl
  have leaves : Leaves policy base round s
      { s with prompt := (s.prompted round).releasePassword } := by
    refine ⟨(h.prompted round).releasePassword, lengths_releasePassword _, ?_⟩
    rw [if_neg (fun stores => refused stores.1)]
    exact (List.append_nil _).symm
  rw [stops]
  exact ⟨leaves.holding, tried, tried ++ [round], h.leaves leaves h.course.accepted,
    .cancelled round (prefix_concat tried round rounds) refused⟩

theorem Settled.reject (h : Settled policy base tried s) (accepted : round.outcome.Accepted)
    (fails : ¬ round.Passes policy) (rounds : List SetRound) :
    ∃ s', setSystemPassword policy (round :: rounds) s = setSystemPassword policy rounds s' ∧
      Settled policy base (tried ++ [round]) s' := by
  have rejected : ((policy.isPwStringValid (s.prompted round).password).1 = false &&
      (policy.isPwStringValid (s.prompted round).password).2.stringNull = false) = true := by
    rw [h.password round]
    simpa [SetRound.Passes] using fails
  have leaves : Leaves policy base round s
      { s with
        prompt :=
          { s.prompted round with
            errorMessage :=
              policyMessage (policy.isPwStringValid (s.prompted round).password).2
          }.releasePassword } := by
    refine ⟨((h.prompted round).withMessage _).releasePassword, lengths_releasePassword _, ?_⟩
    rw [if_neg (fun stores => fails stores.2.1)]
    exact (List.append_nil _).symm
  refine ⟨_, ?_, h.next leaves accepted fun sets => fails sets.1.2.1⟩
  rw [setSystemPassword, if_neg (fun stopped => (stopped_iff _).mp stopped accepted)]
  exact if_pos rejected

/-- A password that is let through is stored if it can be, and ends the setting if it is set. -/
theorem Settled.store (h : Settled policy base tried s) (accepted : round.outcome.Accepted)
    (passes : round.Passes policy) :
    (∃ s', setSystemPassword policy (round :: rounds) s = setSystemPassword policy rounds s' ∧
        Settled policy base (tried ++ [round]) s') ∨
      SettingRuns policy base (tried ++ round :: rounds)
        (setSystemPassword policy (round :: rounds) s) := by
  obtain ⟨status, holding, lengths, stored⟩ := @storePassword_spec base
    { s with prompt := s.prompted round } round _ (h.prompted round)
  have kept : ¬ ((policy.isPwStringValid (s.prompted round).password).1 = false &&
      (policy.isPwStringValid (s.prompted round).password).2.stringNull = false) = true := by
    rw [h.password round]
    have passes := passes
    rw [SetRound.Passes] at passes
    rcases passes with valid | null
    · simp [valid]
    · simp [null]
  have continues : setSystemPassword policy (round :: rounds) s =
      if efiError (storePassword round { s with prompt := s.prompted round }).1 then
        setSystemPassword policy rounds
          { (storePassword round { s with prompt := s.prompted round }).2 with
            prompt :=
              { (storePassword round { s with prompt := s.prompted round }).2.prompt with
                errorMessage := failureMessage
                  (storePassword round { s with prompt := s.prompted round }).1
              }.releasePassword }
      else
        (some (storePassword round { s with prompt := s.prompted round }).1,
          { (storePassword round { s with prompt := s.prompted round }).2 with
            prompt := (storePassword round
              { s with prompt := s.prompted round }).2.prompt.releasePassword }) := by
    rw [setSystemPassword, if_neg (fun stopped => (stopped_iff _).mp stopped accepted)]
    exact if_neg kept
  generalize storePassword round { s with prompt := s.prompted round } = set at *
  have sets := sets_iff accepted passes
  rw [← status] at sets
  have added : set.2.stored = s.stored ++
      if round.Stores policy then [(round, round.outcome.password)] else [] := by
    rw [stored, h.password round]
    refine congrArg (s.stored ++ ·) (if_congr ?_ rfl rfl)
    exact ⟨fun hash => ⟨accepted, passes, hash⟩, fun stores => stores.2.2⟩
  by_cases failed : efiError set.1 = true
  · rw [if_pos failed] at continues
    refine .inl ⟨_, continues, h.next ⟨(holding.withMessage _).releasePassword,
      (lengths_releasePassword _).trans lengths, added⟩ accepted fun done => ?_⟩
    exact absurd ((sets.mp done).symm.trans failed) Bool.false_ne_true
  · rw [if_neg failed] at continues
    rw [Bool.not_eq_true] at failed
    have done := sets.mpr failed
    rw [if_neg (ne_true_of_eq_false done.1.2.2)] at status
    rw [continues, status]
    refine .inr ⟨holding.releasePassword, tried, tried ++ [round], ?_,
      .set round (prefix_concat tried round rounds) done⟩
    exact h.leaves ⟨holding.releasePassword, (lengths_releasePassword _).trans lengths, added⟩
      h.course.accepted

/-- The rounds that were tried lead to those that are left, by induction on the latter. -/
theorem setSystemPassword_runs (policy : PasswordPolicy) (rounds : List SetRound) :
    ∀ {tried : List SetRound} {s : Setting}, Settled policy base tried s →
      SettingRuns policy base (tried ++ rounds) (setSystemPassword policy rounds s) := by
  induction rounds with
  | nil =>
      intro tried s h
      rw [setSystemPassword, List.append_nil]
      exact ⟨h.holding.startDialog _, tried, tried,
        ⟨h.course.accepted, h.course.stored, h.course.handed⟩, .waiting rfl⟩
  | cons round rounds ih =>
      intro tried s h
      have later : tried ++ round :: rounds = (tried ++ [round]) ++ rounds := by simp
      by_cases accepted : round.outcome.Accepted
      · by_cases passes : round.Passes policy
        · rcases h.store accepted passes with ⟨s', continues, settled⟩ | ends
          · rw [continues, later]
            exact ih settled
          · exact ends
        · obtain ⟨s', continues, settled⟩ := h.reject accepted passes rounds
          rw [continues, later]
          exact ih settled
      · exact h.refuse accepted

theorem SettingEnds.dialogs_prefix {dialogs : List SetRound} {status : Option EfiStatus}
    (h : SettingEnds policy rounds tried dialogs status) : dialogs <+: rounds := by
  cases h with
  | waiting all => exact all ▸ List.prefix_rfl
  | cancelled round next refused => exact next
  | set round next sets => exact next

/-- What is stored is allowed: a policy finds no password only in an empty one. -/
theorem SettingCourse.allowed {dialogs : List SetRound}
    (h : SettingCourse policy tried dialogs s) :
    ∀ entry ∈ s.stored, entry.1 ∈ dialogs ∧ Allowed policy entry := by
  intro entry member
  rw [h.stored] at member
  obtain ⟨round, stored, rfl⟩ := List.mem_map.mp member
  obtain ⟨dialog, stores⟩ := List.mem_filter.mp stored
  obtain ⟨accepted, passes, -⟩ := of_decide_eq_true stores
  exact ⟨dialog, accepted, rfl, passes.imp_right (policy.null_empty _)⟩

end

theorem setSystemPassword_passwordsSet (policy : PasswordPolicy) (rounds : List SetRound)
    (pool : Ledger) (secrets : ℕ → Secret) :
    PasswordsSet policy rounds pool
      (setSystemPassword policy rounds ⟨.start pool secrets, []⟩).1
      (setSystemPassword policy rounds ⟨.start pool secrets, []⟩).2 := by
  have start : Settled policy pool [] ⟨.start pool secrets, []⟩ :=
    ⟨.start pool secrets, fun _ member => absurd member List.not_mem_nil, rfl, rfl⟩
  obtain ⟨holding, tried, dialogs, course, ends⟩ := setSystemPassword_runs policy rounds start
  refine ⟨fun entry member => ?_, holding.kept, tried, dialogs, course, ends⟩
  obtain ⟨dialog, allowed⟩ := course.allowed entry member
  exact ⟨ends.dialogs_prefix.subset dialog, allowed⟩

def samplePolicy : PasswordPolicy where
  isPwStringValid := fun password =>
    (decide (3 ≤ (password.getD []).length), ⟨(password.getD []).isEmpty, true, false, false⟩)
  null_empty := fun _ null => List.isEmpty_iff.mp null

/-- A password that is too short, one that cannot be stored, and one that can. -/
def sampleSetting : List SetRound :=
  [⟨typed ⟨[49], by decide⟩, efiSuccess, efiSuccess⟩,
    ⟨typed ⟨[49, 50, 51], by decide⟩, efiSuccess, efiSecurityViolation⟩,
    ⟨typed ⟨[49, 50, 51, 52], by decide⟩, efiSuccess, efiSuccess⟩]

example :
    let run := setSystemPassword samplePolicy sampleSetting ⟨samplePrompt, []⟩
    run.1 = some efiSuccess ∧
      run.2.stored.map Prod.snd = [some [49, 50, 51], some [49, 50, 51, 52]] ∧
      run.2.prompt.lengths = [1, 3, 4] ∧
      run.2.prompt.shown = [.nullString, .tooShort, .authError] := by
  decide

/-- Whatever is answered, both functions treat passwords as they should. -/
theorem passwords_kept (maxAttempts : UInt8) (rounds : List ChallengeRound) (auth : Auth)
    (policy : PasswordPolicy) (setRounds : List SetRound) (pool : Ledger)
    (secrets : ℕ → Secret) :
    Challenged maxAttempts rounds auth pool
        (challengeUserPassword maxAttempts rounds (.start pool secrets) auth).1
        (challengeUserPassword maxAttempts rounds (.start pool secrets) auth).2 ∧
      PasswordsSet policy setRounds pool
        (setSystemPassword policy setRounds ⟨.start pool secrets, []⟩).1
        (setSystemPassword policy setRounds ⟨.start pool secrets, []⟩).2 :=
  ⟨challengeUserPassword_challenged maxAttempts rounds pool secrets auth,
    setSystemPassword_passwordsSet policy setRounds pool secrets⟩

end MuTegra.FrontPage.Passwords
