/- Unit: MuTegra/Dfci/Retries
   source: NvidiaPkg/Applications/DfciMenu/DfciRequest.c, NvidiaPkg/Applications/DfciMenu/DfciRequest.h
   digest: How often a request is tried, how long it waits and what it frees in between. -/

import MuTegra.Dfci.Holdings
import MuTegra.Dfci.Trace

set_option autoImplicit false
set_option relaxedAutoImplicit false

namespace MuTegra.Dfci.Retries

open MuTegra.Foundation.Ownership
open MuTegra.Uefi.Status MuTegra.Uefi.Strings
open MuTegra.Dfci.State MuTegra.Dfci.Transport MuTegra.Dfci.Exchange MuTegra.Dfci.Holdings
open MuTegra.Dfci.Trace

theorem retryAfterDelay_limits (headers : Option HeaderArray) (tableDelay : ℕ) :
    minDelayBeforeRetry ≤ retryAfterDelay headers tableDelay ∧
      retryAfterDelay headers tableDelay ≤ maxDelayBeforeRetry := by
  have hclamp (requested : ℕ) :
      minDelayBeforeRetry ≤ (if requested < minDelayBeforeRetry then minDelayBeforeRetry
        else if maxDelayBeforeRetry < requested then maxDelayBeforeRetry else requested) ∧
      (if requested < minDelayBeforeRetry then minDelayBeforeRetry
        else if maxDelayBeforeRetry < requested then maxDelayBeforeRetry else requested) ≤
          maxDelayBeforeRetry := by
    unfold minDelayBeforeRetry maxDelayBeforeRetry
    split
    · omega
    · split <;> omega
  exact hclamp _

/-- The table is read from its end: the first retry waits 1 second, each later one twice as long. -/
theorem delayTable_doubles : ∀ i < 5, delayTable.getD (5 - i) 0 = 2 ^ i := by decide

variable {retryCount : ℕ} {calls : EventWaitCalls} {m : Machine}

theorem delayRetry_log_eq :
    (delayRetry retryCount calls m).log = m.log ++ [.retryWait (delayInSeconds retryCount m)] := rfl

theorem delayRetry_freed {id : ℕ} (h : id ∈ ownedResponse m.httpResponse) :
    id ∉ (delayRetry retryCount calls m).pool.live := by
  have hpool : (delayRetry retryCount calls m).pool =
      freeIfAny m.httpStatus.httpReturnCode (freeIfAny m.httpStatus.httpMessage
        (httpFreeHeaderFields m.httpResponse.headers (freeIfAny m.httpResponse.body m.pool))) := rfl
  have hresponse : ownedResponse m.httpResponse =
      heldAll (addressOf m.httpResponse.body :: headerHandles m.httpResponse.headers) := by
    rw [heldAll_cons]
    rfl
  rw [hresponse] at h
  have hfreed := not_mem_releaseAll _ m.pool h
  intro hlive
  rw [hpool] at hlive
  exact hfreed (Multiset.mem_of_le
    ((releaseIfAny_live_le _ _).trans (releaseIfAny_live_le _ _)) hlive)

/-- What holds between the transfer with number `i` of a series, counted from 0, and the next
transfer. -/
structure Retried (retryOn202 : Bool) (i : ℕ) (t next : Transfer) : Prop where
  success : efiError t.result.1 = false
  answer : t.answer = .tooManyRequests ∨ (retryOn202 = true ∧ t.answer = .accepted)
  wait : ∃ seconds, next.before.log = t.result.2.log ++ [.retryWait seconds] ∧
    (t.answer = .tooManyRequests →
      minDelayBeforeRetry ≤ seconds ∧ seconds ≤ maxDelayBeforeRetry) ∧
    (t.answer = .accepted → seconds = 2 ^ i)
  freed : ∀ id ∈ ownedResponse t.result.2.httpResponse, id ∉ next.before.pool.live

variable {method : HttpMethod} {url : Option Buffer} {retryOn202 : Bool}
    {attempts : ℕ → AttemptCalls} {left : ℕ} {ts : List Transfer} {result : EfiStatus × Machine}

/-- Two transfers in a row: the first is answered with a request to try again, and the second
starts where the delay ends. -/
theorem Series.consecutive (h : Series method url retryOn202 attempts left m ts result) :
    ∀ {i : ℕ} {t next : Transfer}, ts[i]? = some t → ts[i + 1]? = some next →
      efiError t.result.1 = false ∧ asksForRetry retryOn202 t.answer = true ∧ i + 1 < left ∧
        ∃ wait, next.before = delayRetry (left - 1 - i) wait t.result.2 := by
  induction h with
  | last t call stops =>
      intro i _ next _ hnext
      simp at hnext
  | @again retryCount m later result t call success asks rest ih =>
      intro i first next hfirst hnext
      cases i with
      | zero =>
          obtain ⟨head, hhead, hbefore⟩ := rest.head
          cases Option.some.inj hfirst
          rw [List.getElem?_cons_succ, ← List.head?_eq_getElem?, hhead] at hnext
          cases Option.some.inj hnext
          have hleft := rest.length_le
          have hpos : 0 < later.length := by
            cases later with
            | nil => cases hhead
            | cons _ _ => simp
          exact ⟨success, asks, by omega, _, hbefore⟩
      | succ i =>
          obtain ⟨hok, hasks, hleft, wait, hbefore⟩ := ih hfirst hnext
          refine ⟨hok, hasks, by omega, wait, ?_⟩
          rw [hbefore]
          congr 1
          omega

theorem asksForRetry_iff {status : HttpStatusCode} :
    asksForRetry retryOn202 status = true ↔
      status = .tooManyRequests ∨ (retryOn202 = true ∧ status = .accepted) := by
  simp [asksForRetry, or_comm]

theorem Series.retried (h : Series method url retryOn202 attempts 6 m ts result) {i : ℕ}
    {t next : Transfer} (ht : ts[i]? = some t) (hnext : ts[i + 1]? = some next) :
    Retried retryOn202 i t next := by
  obtain ⟨hok, hasks, hleft, wait, hbefore⟩ := Series.consecutive h ht hnext
  have hcount : 6 - 1 - i = 5 - i := by omega
  rw [hcount] at hbefore
  refine ⟨hok, asksForRetry_iff.mp hasks, ?_, ?_⟩
  · refine ⟨delayInSeconds (5 - i) t.result.2, ?_, ?_, ?_⟩
    · rw [hbefore, delayRetry_log_eq]
    · intro htoo
      have hstatus : t.result.2.httpStatus.httpStatus = .tooManyRequests := htoo
      rw [delayInSeconds, if_pos hstatus]
      exact retryAfterDelay_limits _ _
    · intro haccepted
      have hstatus : t.result.2.httpStatus.httpStatus = .accepted := haccepted
      rw [delayInSeconds, hstatus, if_neg (by simp), delayTable_doubles i (by omega)]
  · intro id hid
    rw [hbefore]
    exact delayRetry_freed hid

/-- For every sequence of answers: at most six transfers are made, each but the last is retried
as `Retried` says, an error ends the series, and the result is that of the last transfer. -/
theorem processHttpRequestInternal_retries (method : HttpMethod) (url : Option Buffer)
    (retryOn202 : Bool) (attempts : ℕ → AttemptCalls) (m : Machine) :
    let ts := internalTransfers method url retryOn202 attempts m
    ts.length ≤ 6 ∧
      (∀ i t next, ts[i]? = some t → ts[i + 1]? = some next → Retried retryOn202 i t next) ∧
      (∀ i t, ts[i]? = some t → efiError t.result.1 = true → ts.length = i + 1) ∧
      ∃ t, ts.getLast? = some t ∧
        processHttpRequestInternal method url retryOn202 attempts m = t.result := by
  have hseries : Series method url retryOn202 attempts 6 _ _ _ :=
    series_processHttpRequestInternal m
  refine ⟨hseries.length_le, fun i t next ht hnext => Series.retried hseries ht hnext, ?_,
    hseries.getLast⟩
  intro i t ht herror
  have hi : i < (internalTransfers method url retryOn202 attempts m).length :=
    (List.getElem?_eq_some_iff.mp ht).1
  by_contra hlength
  have hnext := List.getElem?_eq_getElem (l := internalTransfers method url retryOn202 attempts m)
    (i := i + 1) (by omega)
  have hok := (Series.retried hseries ht hnext).success
  rw [hok] at herror
  cases herror

/-- How many transfers in a row, up to the one with number `i`, are answered with 202. -/
def acceptedInARow (ts : List Transfer) (i : ℕ) : ℕ :=
  ((ts.take (i + 1)).reverse.takeWhile fun t => t.answer == .accepted).length

/-- The first pass is answered with 429, the later ones with 202. -/
def busyThenAccepted (retryCount : ℕ) : AttemptCalls where
  transfer :=
    { response :=
        { statusCode := if retryCount = 5 then .tooManyRequests else .accepted }
      responseHeaders := some [] }

/-- The first 202 after a 429 is followed by a wait of 2 seconds: the table goes by the number of
the transfer, not by the number of 202 in a row. -/
theorem busyThenAccepted_waits :
    let ts := internalTransfers .get (some ⟨0, ascii "https://p" ++ [0]⟩) true busyThenAccepted
      Machine.boot
    ∃ t next, ts[1]? = some t ∧ ts[2]? = some next ∧ acceptedInARow ts 1 = 1 ∧
      t.answer = .accepted ∧ next.before.log = t.result.2.log ++ [.retryWait 2] :=
  ⟨_, _, rfl, rfl, rfl, rfl, rfl⟩

end MuTegra.Dfci.Retries
