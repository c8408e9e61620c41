/- Unit: MuTegra/Dfci/Location
   source: NvidiaPkg/Applications/DfciMenu/DfciRequest.c
   digest: The url of the GET is the location that the server sent, and it is live at every attempt. -/

import MuTegra.Dfci.Frees
import MuTegra.Dfci.Requested

/-!
The url points into the headers of the accepted response. The first GET that succeeds puts its own
headers in their place without freeing them, so that no cleanup between two attempts reaches them.
-/

set_option autoImplicit false
set_option relaxedAutoImplicit false

namespace MuTegra.Dfci.Location

open MuTegra.Foundation.Ownership
open MuTegra.Uefi.Status MuTegra.Uefi.Strings MuTegra.Uefi.Variables
open MuTegra.Dfci.State MuTegra.Dfci.Transport MuTegra.Dfci.Exchange MuTegra.Dfci.Frames
open MuTegra.Dfci.Holdings MuTegra.Dfci.Trace MuTegra.Dfci.Request MuTegra.Dfci.Settings
open MuTegra.Dfci.Restore MuTegra.Dfci.Frees MuTegra.Dfci.Requested

/-- The value of the first header of a name among those that the server sent. -/
def sentHeader (texts : Option (List (List UInt8 × List UInt8))) (fieldName : List UInt8) :
    Option (List UInt8) :=
  texts.bind fun texts => (texts.find? fun text => asciiStriEq text.1 fieldName).map Prod.snd

theorem asciiText_append_null (text : List UInt8) : asciiText (text ++ [0]) = asciiText text := by
  induction text with
  | nil => rfl
  | cons c text ih =>
      unfold asciiText at ih ⊢
      rw [List.cons_append, List.takeWhile_cons, List.takeWhile_cons, ih]

theorem asciiStriEq_append_null (text fieldName : List UInt8) :
    asciiStriEq (text ++ [0]) fieldName = asciiStriEq text fieldName := by
  rw [asciiStriEq, asciiText_append_null]
  rfl

/-- A header that is found among the received ones has the value that was sent under its name, by
induction on the texts. -/
theorem find_receiveFields (fieldName : List UInt8) (texts : List (List UInt8 × List UInt8)) :
    ∀ {pool : Ledger} {header : HttpHeader},
      ((receiveFields texts pool).1.find? fun h =>
        h.fieldName.any fun name => asciiStriEq name.bytes fieldName) = some header →
      ∃ value buffer, sentHeader (some texts) fieldName = some value ∧
        header.fieldValue = some buffer ∧ buffer.bytes = value ++ [0] := by
  induction texts with
  | nil =>
      intro pool header h
      cases h
  | cons text texts ih =>
      intro pool header h
      -- the predicate sees the name with its terminator
      have hname := asciiStriEq_append_null text.1 fieldName
      cases hmatch : asciiStriEq text.1 fieldName with
      | true =>
          simp only [receiveFields, allocatePool, acquire_granted, Option.map_some,
            List.find?_cons, Option.any_some, hname, hmatch] at h
          cases h
          refine ⟨text.2, ⟨_, text.2 ++ [0]⟩, ?_, rfl, rfl⟩
          simp only [sentHeader, Option.bind_some, List.find?_cons, hmatch, Option.map_some]
      | false =>
          simp only [receiveFields, allocatePool, acquire_granted, Option.map_some,
            List.find?_cons, Option.any_some, hname, hmatch] at h
          obtain ⟨value, buffer, hsent, hbuffer⟩ := ih h
          refine ⟨value, buffer, ?_, hbuffer⟩
          rw [← hsent]
          simp only [sentHeader, Option.bind_some, List.find?_cons, hmatch]

theorem find_receiveHeaders {texts : Option (List (List UInt8 × List UInt8))} {pool : Ledger}
    {fieldName : List UInt8} {header : HttpHeader}
    (h : httpFindHeader (receiveHeaders texts pool).1 fieldName = some header) :
    ∃ value buffer, sentHeader texts fieldName = some value ∧
      header.fieldValue = some buffer ∧ buffer.bytes = value ++ [0] := by
  cases texts with
  | none => cases h
  | some texts => exact find_receiveFields fieldName texts h

theorem owned_le_ownedFields {header : HttpHeader} (fields : List HttpHeader) :
    header ∈ fields → owned header.fieldValue ≤ ownedFields fields := by
  induction fields with
  | nil => exact fun h => absurd h List.not_mem_nil
  | cons first fields ih =>
      intro h
      rw [ownedFields_cons]
      rcases List.mem_cons.mp h with rfl | h
      · exact (Multiset.le_add_right _ _).trans (Multiset.le_add_left _ _)
      · exact ((ih h).trans (Multiset.le_add_left _ _)).trans (Multiset.le_add_left _ _)

theorem mem_ownedHeaders {headers : Option HeaderArray} {fieldName : List UInt8}
    {header : HttpHeader} {buffer : Buffer}
    (h : httpFindHeader headers fieldName = some header)
    (hvalue : header.fieldValue = some buffer) : buffer.address ∈ ownedHeaders headers := by
  cases headers with
  | none => cases h
  | some array =>
      have hmem := owned_le_ownedFields array.fields (List.mem_of_find?_eq_some h)
      rw [hvalue, owned_some] at hmem
      rw [ownedHeaders_some]
      exact Multiset.mem_add.mpr (Or.inl (Multiset.singleton_le.mp hmem))

variable {method : HttpMethod} {url : Option Buffer} {retryOn202 : Bool} {n : ℕ}
    {request : HttpRequest} {m : Machine}

theorem Custody.live {rest : Multiset ℕ} {id : ℕ} (h : Custody n request rest m)
    (hid : id ∈ ownedHeaders m.httpResponse.headers + rest) : id ∈ m.pool.live := by
  apply Multiset.mem_of_le h.pool.live
  rw [ownedResponse]
  simp only [Multiset.mem_add] at hid ⊢
  tauto

/-- What the headers in the zone hold before a series is live at each of its transfers: a transfer
that succeeds sets them aside, and the cleanup frees only what the zone names. -/
theorem Series.live {attempts : ℕ → AttemptCalls} {left : ℕ} {ts : List Transfer}
    {result : EfiStatus × Machine} {id : ℕ}
    (h : Series method url retryOn202 attempts left m ts result) :
    ∀ {rest : Multiset ℕ}, Custody n request rest m →
      id ∈ ownedHeaders m.httpResponse.headers + rest → ∀ t ∈ ts, id ∈ t.before.pool.live := by
  induction h with
  | last t call stops =>
      intro rest hcustody hid t' ht'
      rw [List.mem_singleton.mp ht', call]
      exact Custody.live hcustody hid
  | @again retryCount m later result t call success asks series ih =>
      intro rest hcustody hid t' ht'
      rcases List.mem_cons.mp ht' with rfl | ht'
      · rw [call]
        exact Custody.live hcustody hid
      · obtain ⟨aside, hsent, hkept⟩ := hcustody.processHttpRequest_aside method url
          (attempts retryCount).transfer
        have hresult : processHttpRequest method url (attempts retryCount).transfer m =
            t.result := by rw [call]; rfl
        rw [hresult] at hsent hkept
        refine ih (hsent.delayRetry retryCount _) ?_ t' ht'
        rw [Multiset.mem_add] at hid ⊢
        right
        exact Multiset.mem_add.mpr (hid.imp_left (Multiset.mem_of_le (hkept success)))

/-- The transfers of `ProcessHttpRequestWithRetries` have its url, and the headers that it finds
in the zone are live at each of them. -/
theorem withRetries_live {rest : Multiset ℕ} {id : ℕ} (h : Custody n request rest m)
    (hid : id ∈ ownedHeaders m.httpResponse.headers) (calls : RetriesCalls) :
    ∀ t ∈ withRetriesTransfers method url retryOn202 calls m,
      t.url = url ∧ id ∈ t.before.pool.live := by
  have hplaced : Custody n request rest
      { m with http := { m.http with httpChildHandle := .image } } := ⟨h.zone, h.pool⟩
  have hsame := sameZones_configureHttp calls.configure
    { m with http := { m.http with httpChildHandle := .image } }
  have hconfigured := hplaced.of_sameZones hsame
  unfold withRetriesTransfers
  dsimp only
  split
  · exact fun t ht => absurd ht List.not_mem_nil
  · have hheaders : id ∈ ownedHeaders (configureHttp calls.configure
        { m with http := { m.http with httpChildHandle := .image } }).2.httpResponse.headers := by
      rwa [hsame.httpResponse]
    generalize (configureHttp calls.configure
      { m with http := { m.http with httpChildHandle := .image } }).2 = configured
      at hconfigured hheaders ⊢
    have hseries : Series method url retryOn202 calls.attempts 6 _ _ _ :=
      series_processHttpRequestInternal configured
    intro t ht
    exact ⟨(hseries.call_eq t ht).2, Series.live hseries hconfigured.cleanupStatus
      (Multiset.mem_add.mpr (Or.inl hheaders)) t ht⟩

/-- The url of a GET is the location in the accepted response of the POST, and its buffer is live
when the GET uses it. -/
def UsesLocation (e : AsyncRequest) (t : Transfer) : Prop :=
  ∃ post value url, e.posts.getLast? = some post ∧ post.answer = .accepted ∧
    sentHeader post.calls.responseHeaders (ascii "Location") = some value ∧
    t.url = some url ∧ url.bytes = value ++ [0] ∧ url.address ∈ t.before.pool.live

theorem location_sent {e : AsyncRequest} {header : HttpHeader} (h : e.location = some header) :
    ∃ post value url, e.posts.getLast? = some post ∧ post.answer = .accepted ∧
      sentHeader post.calls.responseHeaders (ascii "Location") = some value ∧
      header.fieldValue = some url ∧ url.bytes = value ++ [0] ∧
      url.address ∈ ownedHeaders e.posted.2.httpResponse.headers := by
  unfold AsyncRequest.location at h
  split at h
  · next haccepted =>
      rw [AsyncRequest.accepted, Bool.and_eq_true, Bool.not_eq_true', beq_iff_eq] at haccepted
      obtain ⟨hok, hstatus⟩ := haccepted
      rcases @withRetries_status .post e.url false e.calls.post e.before with
        ⟨-, herror⟩ | ⟨post, hlast, hresult, hresponse, hanswer⟩
      · exact absurd (hok.symm.trans herror) Bool.false_ne_true
      · have hpost : efiError post.result.1 = false := hresult ▸ hok
        have hheaders : e.posted.2.httpResponse.headers = post.received := by
          rw [← Transfer.headers_of_success hpost]
          exact congrArg HttpResponse.headers hresponse
        have hfound := h
        rw [hheaders, Transfer.received] at hfound
        split at hfound
        · cases hfound
        · obtain ⟨value, url, hsent, hvalue, hbytes⟩ := find_receiveHeaders hfound
          refine ⟨post, value, url, hlast, ?_, hsent, hvalue, hbytes, mem_ownedHeaders h hvalue⟩
          rw [← hstatus]
          exact (congrArg HttpStatus.httpStatus hanswer).symm
  · cases h

/-- Every GET of an exchange that starts with custody of its zones uses the location. -/
theorem usesLocation_of_custody {n : ℕ} {request : HttpRequest} {rest : Multiset ℕ}
    {e : AsyncRequest} (h : Custody n request rest e.before) : ∀ t ∈ e.gets, UsesLocation e t := by
  have hposted := h.withRetries .post e.url false e.calls.post
  unfold AsyncRequest.gets
  split
  · exact fun t ht => absurd ht List.not_mem_nil
  · next header hlocation =>
      obtain ⟨post, value, url, hlast, hanswer, hsent, hvalue, hbytes, howned⟩ :=
        location_sent hlocation
      intro t ht
      obtain ⟨hurl, hlive⟩ := withRetries_live hposted howned e.calls.get t ht
      exact ⟨post, value, url, hlast, hanswer, hsent, hurl.trans hvalue, hbytes, hlive⟩

/-- In every run the requests that go out are those of its exchanges, and at every attempt of every
GET among them the url is the location that the accepted POST brought, and its buffer is live. -/
theorem gets_useLocation (ctx : Context) (certificate : Option Variable)
    (earlier : List NetworkRequestCalls) (calls : NetworkRequestCalls) :
    Sends (processRequests ctx earlier (World.boot certificate)).machine
        (allTransfers (requestExchanges ctx calls
          (processRequests ctx earlier (World.boot certificate))))
        (processDfciNetworkRequest ctx calls
          (processRequests ctx earlier (World.boot certificate))).world.machine ∧
      ∀ e ∈ requestExchanges ctx calls (processRequests ctx earlier (World.boot certificate)),
        ∀ t ∈ e.gets, UsesLocation e t := by
  refine ⟨sends_processDfciNetworkRequest ctx calls _, fun e he => ?_⟩
  have hold := processRequests_oldList ctx earlier (World.boot certificate) rfl
  obtain ⟨_, _, _, -, -, hcustody⟩ := sendsBody_requestExchanges ctx calls hold e he
  exact usesLocation_of_custody hcustody

def pendingRequest : NetworkRequestCalls where
  settings := sampleSettings
  nics :=
    { nics :=
        [{ mainLogic :=
            { bootstrap :=
                { post := sampleAnswer .accepted [("Location", "https://p")] ""
                  get := sampleAnswer .accepted [("Retry-After", "2")] "" } } }] }

/-- Its sixth attempt still uses the location. -/
theorem gets_useLocation_pending :
    ∃ e ∈ requestExchanges sampleContext pendingRequest
        (processRequests sampleContext [] (World.boot none)),
      ∃ t, e.gets[5]? = some t ∧ UsesLocation e t := by
  have hsixth : ∃ e t, (requestExchanges sampleContext pendingRequest
      (processRequests sampleContext [] (World.boot none)))[0]? = some e ∧
        e.gets[5]? = some t := ⟨_, _, rfl, rfl⟩
  obtain ⟨e, t, he, ht⟩ := hsixth
  have hmem := List.mem_of_getElem? he
  exact ⟨e, hmem, t, ht, (gets_useLocation sampleContext none [] pendingRequest).2 e hmem t
    (List.mem_of_getElem? ht)⟩

end MuTegra.Dfci.Location
