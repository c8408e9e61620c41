/- Unit: MuTegra/Dfci/Assembly
   source: NvidiaPkg/Applications/DfciMenu/DfciRequest.c
   digest: The response body is put together inside its packet, unless the packet's size wraps. -/

import MuTegra.Dfci.Events
import MuTegra.Foundation.Blocks
import MuTegra.Foundation.Loops

/-!
The packet is a block of the size that was asked for, and every write to it is checked. The size
is a 32-bit sum, which is 0 for the largest content length.
-/

set_option autoImplicit false
set_option relaxedAutoImplicit false

namespace MuTegra.Dfci.Assembly

open MuTegra.Foundation.Ownership MuTegra.Foundation.MachineWords
open MuTegra.Foundation.Blocks MuTegra.Foundation.Loops
open MuTegra.Uefi.Status MuTegra.Uefi.Strings
open MuTegra.Dfci.State MuTegra.Dfci.Transport MuTegra.Dfci.Exchange MuTegra.Dfci.Frames
open MuTegra.Dfci.Events

/-! ## The assembly -/

structure Chunk extends ChunkCalls where
  nonempty : data ≠ []

/-- `fresh` is what the new packet holds, `chunks` what the further calls bring. -/
structure AssemblyCalls where
  packetAllocated : Bool := true
  fresh : ℕ → UInt8 := fun _ => 0
  chunks : ℕ → Chunk

/-- The packet, `CurrentLength`, the number of further calls so far and the network request. -/
structure AssemblyState where
  packet : List UInt8
  currentLength : ℕ
  responses : ℕ
  machine : Machine

/-- One pass of the loop that fills the packet; a write outside of it is a fault. -/
def fillPass (contentLength : ℕ) (chunks : ℕ → Chunk) (s : AssemblyState) :
    Option (AssemblyState ⊕ (EfiStatus × AssemblyState)) :=
  if contentLength ≤ s.currentLength then some (.inr (efiSuccess, s))
  else
    let chunk := chunks s.responses
    let response := dfciGetResponse false chunk.response s.machine
    if efiError response.1 then some (.inr (response.1, { s with machine := response.2 }))
    else
      -- the driver writes to `&Packet[CurrentLength]`, no more than it was asked for
      let data := chunk.data.take (contentLength - s.currentLength)
      match overwrite s.packet s.currentLength data with
      | none => none
      | some packet =>
          some (.inl ⟨packet, s.currentLength + data.length, s.responses + 1, response.2⟩)

/-- The end of the assembly: the packet is freed, or it gets its terminator and is stored. -/
def finishBody (method : HttpMethod) (contentLength address : ℕ)
    (filled : EfiStatus × AssemblyState) : Option (EfiStatus × Machine) :=
  let m := filled.2.machine
  if efiError filled.1 then
    some (filled.1, { m with pool := freePool (some ⟨address, filled.2.packet⟩) m.pool })
  else
    match overwrite filled.2.packet contentLength [0] with
    | none => none
    | some packet =>
        some (filled.1, storeBody ⟨address, packet⟩ contentLength
          (answered method (some (packet.take contentLength)) m))

/-- The part of `ProcessHttpRequest` from the allocation of the packet to `S_EXIT1`. -/
def assembleBody (method : HttpMethod) (calls : AssemblyCalls) (contentLength fuel : ℕ)
    (m : Machine) : Option (EfiStatus × Machine) :=
  if calls.packetAllocated = false then some (efiOutOfResources, m)
  else
    let packet := (List.range (toUint32 (contentLength + 1))).map calls.fresh
    (loop (fillPass contentLength calls.chunks) fuel
      ⟨packet, 0, 0, { m with pool := m.pool.grant }⟩).bind
        (finishBody method contentLength m.pool.next)

/-- The part of `ProcessHttpRequest` after the first response, with a checked packet. -/
def assembleContent (method : HttpMethod) (calls : AssemblyCalls) (headers : Option HeaderArray)
    (fuel : ℕ) (m : Machine) : Option (EfiStatus × Machine) :=
  let m := { m with httpResponse := { m.httpResponse with headers := headers } }
  if contentLengthOf headers = 0 then some (efiSuccess, answered method none m)
  else assembleBody method calls (contentLengthOf headers) fuel m

/-! ## What the chunks bring -/

def responseFails (calls : GetResponseCalls) : Bool :=
  efiError calls.createEvent || efiError calls.response || waitFails calls.wait

theorem efiError_dfciGetResponse (hasResponseData : Bool) (calls : GetResponseCalls) (m : Machine) :
    efiError (dfciGetResponse hasResponseData calls m).1 = responseFails calls := by
  rw [dfciGetResponse, responseFails]
  dsimp only
  cases hcreate : efiError calls.createEvent with
  | true => simpa using hcreate
  | false =>
      cases hresponse : efiError calls.response with
      | true => simpa using hresponse
      | false => exact efiError_eventWait calls.wait _

variable (contentLength : ℕ) (chunks : ℕ → Chunk)

def received : ℕ → List UInt8
  | 0 => []
  | n + 1 => received n ++ (chunks n).data.take (contentLength - (received n).length)

theorem received_length_le (n : ℕ) : (received contentLength chunks n).length ≤ contentLength := by
  induction n with
  | zero => exact Nat.zero_le _
  | succ n ih =>
      rw [received, List.length_append, List.length_take]
      omega

theorem received_grows {n : ℕ} (h : (received contentLength chunks n).length < contentLength) :
    (received contentLength chunks n).length < (received contentLength chunks (n + 1)).length := by
  have hdata : 0 < (chunks n).data.length := List.length_pos_iff.mpr (chunks n).nonempty
  rw [received, List.length_append, List.length_take]
  omega

/-! ## The content length -/

theorem decimalDigits_le (cs : List UInt8) :
    ∀ {value : ℕ}, value ≤ maxUintn → decimalDigits value cs ≤ maxUintn := by
  induction cs with
  | nil => exact fun h => h
  | cons c cs ih =>
      intro value h
      rw [decimalDigits]
      split
      · next hdigit =>
          have hle : c.toNat ≤ 57 := UInt8.le_iff_toNat_le.mp hdigit.2
          split
          · exact le_rfl
          · next hsmall =>
              apply ih
              unfold maxUintn at hsmall ⊢
              omega
      · exact h

theorem contentLengthOf_le (headers : Option HeaderArray) : contentLengthOf headers ≤ maxUintn := by
  rw [contentLengthOf]
  split
  · exact Nat.zero_le _
  · exact decimalDigits_le _ (Nat.zero_le _)

/-! ## Filling -/

section

variable {contentLength : ℕ} {calls : AssemblyCalls} {m : Machine}

/-- The packet starts with the bytes of the chunks so far, and the space behind them is what is
missing and one byte more. -/
structure Filling (contentLength : ℕ) (calls : AssemblyCalls) (m : Machine) (s : AssemblyState) :
    Prop where
  packet : ∃ free, s.packet = received contentLength calls.chunks s.responses ++ free ∧
    s.currentLength + free.length = contentLength + 1
  currentLength : s.currentLength = (received contentLength calls.chunks s.responses).length
  answered : ∀ i < s.responses, responseFails (calls.chunks i).response = false
  machine : ∃ events, s.machine = { m with pool := m.pool.grant, events := events }

/-- The loop ends with a packet that lacks nothing but its terminator, or with a failed response. -/
def Filled (contentLength : ℕ) (calls : AssemblyCalls) (m : Machine)
    (filled : EfiStatus × AssemblyState) : Prop :=
  Filling contentLength calls m filled.2 ∧
    ((filled.1 = efiSuccess ∧ filled.2.currentLength = contentLength) ∨
      (efiError filled.1 = true ∧ filled.2.currentLength < contentLength ∧
        responseFails (calls.chunks filled.2.responses).response = true))

theorem Filling.overwrite_last {s : AssemblyState} (h : Filling contentLength calls m s)
    (hdone : s.currentLength = contentLength) :
    overwrite s.packet contentLength [0] =
      some (received contentLength calls.chunks s.responses ++ [0]) := by
  obtain ⟨⟨free, hpacket, hfree⟩, hcurrent, -, -⟩ := h
  have hlast : free.length = 1 := by omega
  have hnext := @overwrite_next _ (received contentLength calls.chunks s.responses) free [0]
    (by rw [hlast]; rfl)
  rw [← hcurrent, hdone, ← hpacket] at hnext
  rw [hnext, List.length_singleton, List.drop_of_length_le (by omega), List.append_nil]

theorem fillPass_done {chunks : ℕ → Chunk} {s : AssemblyState}
    (hdone : contentLength ≤ s.currentLength) :
    fillPass contentLength chunks s = some (.inr (efiSuccess, s)) := if_pos hdone

theorem fillPass_fails {chunks : ℕ → Chunk} {s : AssemblyState}
    (hmissing : s.currentLength < contentLength)
    (hfails : responseFails (chunks s.responses).response = true) :
    fillPass contentLength chunks s =
      some (.inr ((dfciGetResponse false (chunks s.responses).response s.machine).1,
        { s with machine := (dfciGetResponse false (chunks s.responses).response s.machine).2 })) := by
  rw [fillPass, if_neg (not_le.mpr hmissing)]
  dsimp only
  rw [efiError_dfciGetResponse, if_pos hfails]

theorem fillPass_answers {chunks : ℕ → Chunk} {s : AssemblyState} {data : List UInt8}
    (hmissing : s.currentLength < contentLength)
    (hanswers : responseFails (chunks s.responses).response = false)
    (hdata : (chunks s.responses).data.take (contentLength - s.currentLength) = data) :
    fillPass contentLength chunks s =
      (overwrite s.packet s.currentLength data).map fun packet =>
        .inl ⟨packet, s.currentLength + data.length, s.responses + 1,
          (dfciGetResponse false (chunks s.responses).response s.machine).2⟩ := by
  rw [fillPass, if_neg (not_le.mpr hmissing)]
  dsimp only
  rw [efiError_dfciGetResponse, hanswers, if_neg Bool.false_ne_true, hdata]
  cases overwrite s.packet s.currentLength data <;> rfl

theorem Filling.next {s : AssemblyState} (h : Filling contentLength calls m s)
    (hmissing : s.currentLength < contentLength)
    (hanswers : responseFails (calls.chunks s.responses).response = false) :
    ∃ s', fillPass contentLength calls.chunks s = some (.inl s') ∧
      Filling contentLength calls m s' ∧ s.currentLength < s'.currentLength := by
  obtain ⟨⟨free, hpacket, hfree⟩, hcurrent, hanswered, events, hmachine⟩ := h
  obtain ⟨later, hlater⟩ := dfciGetResponse_false (calls.chunks s.responses).response s.machine
  obtain ⟨data, hdata⟩ : ∃ data, (calls.chunks s.responses).data.take
      (contentLength - s.currentLength) = data := ⟨_, rfl⟩
  have hnext : received contentLength calls.chunks (s.responses + 1) =
      received contentLength calls.chunks s.responses ++ data := by
    rw [received, ← hcurrent, hdata]
  have hgrows := received_grows contentLength calls.chunks (n := s.responses) (by omega)
  have hle := received_length_le contentLength calls.chunks (s.responses + 1)
  rw [hnext, List.length_append] at hgrows hle
  have hwrite : overwrite s.packet s.currentLength data =
      some (received contentLength calls.chunks (s.responses + 1) ++ free.drop data.length) := by
    rw [hpacket, hcurrent, hnext]
    exact overwrite_next (by omega)
  rw [fillPass_answers hmissing hanswers hdata, hwrite]
  refine ⟨_, rfl, ⟨⟨free.drop data.length, rfl, ?_⟩, ?_, ?_, later, hlater.trans ?_⟩, ?_⟩
  · rw [List.length_drop]
    dsimp only
    omega
  · rw [hnext, List.length_append, hcurrent]
  · intro i hi
    rcases Nat.lt_succ_iff_lt_or_eq.mp hi with hi | rfl
    · exact hanswered i hi
    · exact hanswers
  · rw [hmachine]
  · dsimp only
    omega

theorem passOk_fillPass (s : AssemblyState) (h : Filling contentLength calls m s) :
    PassOk (fillPass contentLength calls.chunks) (Filling contentLength calls m)
      (fun s => contentLength - s.currentLength) (Filled contentLength calls m) s := by
  have hle := received_length_le contentLength calls.chunks s.responses
  unfold PassOk
  by_cases hdone : contentLength ≤ s.currentLength
  · right
    rw [fillPass_done hdone]
    exact ⟨_, rfl, h, Or.inl ⟨rfl, le_antisymm (h.currentLength ▸ hle) hdone⟩⟩
  · cases hfails : responseFails (calls.chunks s.responses).response with
    | true =>
        right
        obtain ⟨later, hlater⟩ := dfciGetResponse_false (calls.chunks s.responses).response
          s.machine
        obtain ⟨hpacket, hcurrent, hanswered, events, hmachine⟩ := h
        rw [fillPass_fails (not_le.mp hdone) hfails]
        refine ⟨_, rfl, ⟨hpacket, hcurrent, hanswered, later, hlater.trans ?_⟩, Or.inr ?_⟩
        · rw [hmachine]
        · exact ⟨(efiError_dfciGetResponse _ _ _).trans hfails, not_le.mp hdone, hfails⟩
    | false =>
        left
        obtain ⟨s', hpass, hfilling, hgrows⟩ := h.next (not_le.mp hdone) hfails
        refine ⟨s', hpass, hfilling, ?_⟩
        dsimp only
        omega

end

/-! ## Results -/

/-- What is intended of the assembly: without content and without a packet nothing is stored;
behind a failed response the packet is freed and nothing stored either; otherwise the body is the
chunks and a terminator. -/
inductive Assembled (contentLength : ℕ) (calls : AssemblyCalls) (m : Machine) :
    EfiStatus × Machine → Prop where
  | empty (result : EfiStatus × Machine) (nothing : contentLength = 0)
      (success : result.1 = efiSuccess) (pool : result.2.pool = m.pool)
      (zone : result.2.httpResponse = m.httpResponse) :
      Assembled contentLength calls m result
  | refused (refused : calls.packetAllocated = false) :
      Assembled contentLength calls m (efiOutOfResources, m)
  | failed (n : ℕ) (result : EfiStatus × Machine)
      (answered : ∀ i < n, responseFails (calls.chunks i).response = false)
      (missing : (received contentLength calls.chunks n).length < contentLength)
      (fails : responseFails (calls.chunks n).response = true) (error : efiError result.1 = true)
      (freed : result.2.pool.live = m.pool.live) (faults : result.2.pool.faults = m.pool.faults)
      (zone : result.2.httpResponse = m.httpResponse) :
      Assembled contentLength calls m result
  | stored (n : ℕ) (result : EfiStatus × Machine)
      (answered : ∀ i < n, responseFails (calls.chunks i).response = false)
      (complete : (received contentLength calls.chunks n).length = contentLength)
      (success : result.1 = efiSuccess)
      (pool : result.2.pool = m.pool.grant)
      (body : result.2.httpResponse.body =
        some ⟨m.pool.next, received contentLength calls.chunks n ++ [0]⟩)
      (bodySize : result.2.httpResponse.bodySize = contentLength + 1) :
      Assembled contentLength calls m result

/-- The assembly ends within as many passes as there are bytes, never writes outside of the packet,
and does what is intended. -/
def Assembles (method : HttpMethod) (calls : AssemblyCalls) (headers : Option HeaderArray)
    (m : Machine) : Prop :=
  ∃ result, (∀ fuel, contentLengthOf headers < fuel →
      assembleContent method calls headers fuel m = some result) ∧
    Assembled (contentLengthOf headers) calls
      { m with httpResponse := { m.httpResponse with headers := headers } } result

section

variable {contentLength : ℕ} {calls : AssemblyCalls} {m : Machine}

theorem finishBody_fails (method : HttpMethod) {filled : EfiStatus × AssemblyState}
    (hanswered : ∀ i < filled.2.responses, responseFails (calls.chunks i).response = false)
    (hmissing : (received contentLength calls.chunks filled.2.responses).length < contentLength)
    (hfails : responseFails (calls.chunks filled.2.responses).response = true)
    (herror : efiError filled.1 = true)
    (hmachine : ∃ events, filled.2.machine = { m with pool := m.pool.grant, events := events }) :
    ∃ result, finishBody method contentLength m.pool.next filled = some result ∧
      Assembled contentLength calls m result := by
  obtain ⟨events, hmachine⟩ := hmachine
  unfold finishBody
  dsimp only
  rw [if_pos herror]
  refine ⟨_, rfl, Assembled.failed filled.2.responses _ hanswered hmissing hfails herror ?_ ?_ ?_⟩
  · rw [hmachine]
    exact release_grant_live m.pool
  · rw [hmachine]
    exact release_grant_faults m.pool
  · rw [hmachine]

theorem finishBody_ok (hsmall : contentLength < maxUintn) (method : HttpMethod)
    {filled : EfiStatus × AssemblyState} (h : Filled contentLength calls m filled) :
    ∃ result, finishBody method contentLength m.pool.next filled = some result ∧
      Assembled contentLength calls m result := by
  obtain ⟨hfilling, hend⟩ := h
  obtain ⟨-, hcurrent, hanswered, events, hmachine⟩ := id hfilling
  rcases hend with ⟨hsuccess, hdone⟩ | ⟨herror, hmissing, hfails⟩
  · have hlength := hcurrent.symm.trans hdone
    unfold finishBody
    dsimp only
    rw [hsuccess, if_neg (by simp), hfilling.overwrite_last hdone]
    refine ⟨_, rfl, Assembled.stored filled.2.responses _ hanswered hlength rfl ?_ rfl ?_⟩
    · rw [hmachine]
      rfl
    · refine toUint32_of_lt ?_
      unfold maxUintn at hsmall
      omega
  · exact finishBody_fails method hanswered (hcurrent ▸ hmissing) hfails herror ⟨events, hmachine⟩

theorem assembleBody_mono {method : HttpMethod} {fuel fuel' : ℕ} {result : EfiStatus × Machine}
    (h : assembleBody method calls contentLength fuel m = some result) (hle : fuel ≤ fuel') :
    assembleBody method calls contentLength fuel' m = some result := by
  unfold assembleBody at h ⊢
  split
  · next hrefused => rwa [if_pos hrefused] at h
  · next hallocated =>
      rw [if_neg hallocated] at h
      obtain ⟨filled, hloop, hfinish⟩ := Option.bind_eq_some_iff.mp h
      dsimp only
      rw [loop_mono hloop hle]
      exact hfinish

theorem filling_start (hsmall : contentLength < maxUintn) :
    Filling contentLength calls m
      ⟨(List.range (toUint32 (contentLength + 1))).map calls.fresh, 0, 0,
        { m with pool := m.pool.grant }⟩ := by
  have hsize : toUint32 (contentLength + 1) = contentLength + 1 := by
    refine toUint32_of_lt ?_
    unfold maxUintn at hsmall
    omega
  refine ⟨⟨_, rfl, ?_⟩, rfl, fun i hi => absurd hi (Nat.not_lt_zero i), m.events, rfl⟩
  rw [List.length_map, List.length_range, hsize]
  exact Nat.zero_add _

theorem assembleBody_ok (hsmall : contentLength < maxUintn) (method : HttpMethod) {fuel : ℕ}
    (enough : contentLength < fuel) :
    ∃ result, assembleBody method calls contentLength fuel m = some result ∧
      Assembled contentLength calls m result := by
  rw [assembleBody]
  cases hallocated : calls.packetAllocated with
  | false => exact ⟨_, rfl, Assembled.refused hallocated⟩
  | true =>
      obtain ⟨filled, hloop, hfilled⟩ := loop_total (Filling contentLength calls m)
        (fun s => contentLength - s.currentLength) passOk_fillPass fuel _ (filling_start hsmall)
        enough
      rw [if_neg (by simp)]
      dsimp only
      rw [hloop]
      exact finishBody_ok hsmall method hfilled

end

/-! ## The same body as from the list of chunks -/

def chunkList (chunks : ℕ → Chunk) : ℕ → ℕ → List ChunkCalls
  | 0, _ => []
  | count + 1, start => (chunks start).toChunkCalls :: chunkList chunks count (start + 1)

section

variable {contentLength : ℕ}

theorem receiveBody_done {data : List UInt8} {m : Machine} (h : contentLength ≤ data.length)
    (chunks : List ChunkCalls) :
    receiveBody contentLength chunks data m = (efiSuccess, data, m) := by
  cases chunks with
  | nil => exact if_pos h
  | cons chunk chunks => exact if_pos h

/-- A pass with an answer is a step of `receiveBody`, whose state is again in step with the
loop's. -/
theorem receiveBody_answers {chunks : ℕ → Chunk} {filled : EfiStatus × AssemblyState}
    {count fuel : ℕ} {s : AssemblyState}
    (hcurrent : s.currentLength = (received contentLength chunks s.responses).length)
    (hcount : contentLength ≤ s.currentLength + (count + 1))
    (hmore : s.currentLength < contentLength)
    (hfails : responseFails (chunks s.responses).response = false)
    (h : loop (fillPass contentLength chunks) (fuel + 1) s = some filled) :
    ∃ s' : AssemblyState, s'.currentLength = (received contentLength chunks s'.responses).length ∧
      contentLength ≤ s'.currentLength + count ∧
      loop (fillPass contentLength chunks) fuel s' = some filled ∧
      receiveBody contentLength (chunkList chunks (count + 1) s.responses)
          (received contentLength chunks s.responses) s.machine =
        receiveBody contentLength (chunkList chunks count s'.responses)
          (received contentLength chunks s'.responses) s'.machine := by
  obtain ⟨data, hdata⟩ : ∃ data, (chunks s.responses).data.take
      (contentLength - s.currentLength) = data := ⟨_, rfl⟩
  have hnext : received contentLength chunks (s.responses + 1) =
      received contentLength chunks s.responses ++ data := by
    rw [received, ← hcurrent, hdata]
  have hgrows := received_grows contentLength chunks (n := s.responses) (by omega)
  rw [hnext, List.length_append] at hgrows
  rw [loop, fillPass_answers hmore hfails hdata] at h
  cases hwrite : overwrite s.packet s.currentLength data with
  | none =>
      rw [hwrite] at h
      cases h
  | some packet =>
      rw [hwrite, Option.map_some] at h
      refine ⟨⟨packet, _, s.responses + 1, _⟩, ?_, ?_, h, ?_⟩
      · change s.currentLength + data.length =
          (received contentLength chunks (s.responses + 1)).length
        rw [hnext, List.length_append, hcurrent]
      · change contentLength ≤ s.currentLength + data.length + count
        omega
      · rw [chunkList, receiveBody, if_neg (hcurrent ▸ not_le.mpr hmore)]
        dsimp only
        rw [efiError_dfciGetResponse, hfails, if_neg Bool.false_ne_true, ← hcurrent, hdata,
          ← hnext]

/-- The loop over the packet collects what `receiveBody` collects. -/
theorem receiveBody_of_loop {chunks : ℕ → Chunk} {filled : EfiStatus × AssemblyState}
    (count : ℕ) : ∀ {fuel : ℕ} {s : AssemblyState},
      s.currentLength = (received contentLength chunks s.responses).length →
      contentLength ≤ s.currentLength + count →
      loop (fillPass contentLength chunks) fuel s = some filled →
      receiveBody contentLength (chunkList chunks count s.responses)
          (received contentLength chunks s.responses) s.machine =
        (filled.1, received contentLength chunks filled.2.responses, filled.2.machine) := by
  induction count with
  | zero =>
      intro fuel s hcurrent hcount h
      cases fuel with
      | zero => cases h
      | succ fuel =>
          rw [loop_done fuel (fillPass_done hcount)] at h
          cases h
          exact receiveBody_done (hcurrent ▸ hcount) _
  | succ count ih =>
      intro fuel s hcurrent hcount h
      cases fuel with
      | zero => cases h
      | succ fuel =>
          by_cases hdone : contentLength ≤ s.currentLength
          · rw [loop_done fuel (fillPass_done hdone)] at h
            cases h
            exact receiveBody_done (hcurrent ▸ hdone) _
          · cases hfails : responseFails (chunks s.responses).response with
            | true =>
                rw [chunkList, receiveBody, if_neg (hcurrent ▸ hdone)]
                dsimp only
                rw [efiError_dfciGetResponse, hfails]
                rw [loop_done fuel (fillPass_fails (not_le.mp hdone) hfails)] at h
                cases h
                rfl
            | false =>
                obtain ⟨s', hcurrent', hcount', hloop, hstep⟩ :=
                  receiveBody_answers hcurrent hcount (not_le.mp hdone) hfails h
                rw [hstep]
                exact ih hcurrent' hcount' hloop

/-- Below the largest word the checked packet makes no difference: the assembly is
`receivePacket`, with the same chunks in a list. -/
theorem assembleBody_receivePacket {calls : AssemblyCalls} {m : Machine} {fuel : ℕ}
    (hsmall : contentLength < maxUintn) (method : HttpMethod) (enough : contentLength < fuel) :
    assembleBody method calls contentLength fuel m =
      some (receivePacket method
        { packetAllocated := calls.packetAllocated
          chunks := chunkList calls.chunks contentLength 0 } contentLength m) := by
  rw [assembleBody, receivePacket]
  dsimp only
  cases hallocated : calls.packetAllocated with
  | false => rfl
  | true =>
      obtain ⟨filled, hloop, hfilling, hend⟩ := loop_total (Filling contentLength calls m)
        (fun s => contentLength - s.currentLength) passOk_fillPass fuel _ (filling_start hsmall)
        enough
      have hread := receiveBody_of_loop contentLength rfl (Nat.le_add_left _ _) hloop
      rw [received] at hread
      rw [if_neg (by simp), if_neg (by simp), hloop, hread]
      dsimp only [Option.bind_some]
      rw [finishBody]
      rcases hend with ⟨hsuccess, hdone⟩ | ⟨herror, -, -⟩
      · have hlength := hfilling.currentLength.symm.trans hdone
        rw [hsuccess, if_neg (by simp), if_neg (by simp), hfilling.overwrite_last hdone]
        dsimp only
        rw [List.take_left' hlength]
      · rw [if_pos herror, if_pos herror]
        rfl

theorem assembleContent_receiveContent {calls : AssemblyCalls} {headers : Option HeaderArray}
    {m : Machine} {fuel : ℕ} (hsmall : contentLengthOf headers < maxUintn) (method : HttpMethod)
    (enough : contentLengthOf headers < fuel) :
    assembleContent method calls headers fuel m =
      some (receiveContent method
        { packetAllocated := calls.packetAllocated
          chunks := chunkList calls.chunks (contentLengthOf headers) 0 } headers m) := by
  rw [assembleContent, receiveContent]
  dsimp only
  split
  · rfl
  · exact assembleBody_receivePacket hsmall method enough

end

/-! ## The largest content length -/

variable {calls : AssemblyCalls} {m : Machine}

theorem packet_largest : (List.range (toUint32 (maxUintn + 1))).map calls.fresh = [] := rfl

theorem fillPass_largest (hanswered : responseFails (calls.chunks 0).response = false)
    (m : Machine) : fillPass maxUintn calls.chunks ⟨[], 0, 0, m⟩ = none := by
  have hdata : 0 < (calls.chunks 0).data.length := List.length_pos_iff.mpr (calls.chunks 0).nonempty
  have hwrite : overwrite ([] : List UInt8) 0 ((calls.chunks 0).data.take (maxUintn - 0)) =
      none := by
    apply overwrite_eq_none
    rw [List.length_nil, List.length_take]
    rw [maxUintn]
    omega
  have hpass := @fillPass_answers maxUintn calls.chunks ⟨[], 0, 0, m⟩ _
    (show 0 < maxUintn by decide) hanswered rfl
  rw [hpass, hwrite]
  rfl

theorem assembleBody_largest (method : HttpMethod) (fuel : ℕ)
    (hallocated : calls.packetAllocated = true)
    (hanswered : responseFails (calls.chunks 0).response = false) :
    assembleBody method calls maxUintn fuel m = none := by
  rw [assembleBody, if_neg (by simp [hallocated]), packet_largest]
  dsimp only
  cases fuel with
  | zero => rfl
  | succ fuel => rw [loop, fillPass_largest hanswered]; rfl

theorem assembleBody_largest_ok (method : HttpMethod) {fuel : ℕ} (enough : maxUintn < fuel)
    (h : ¬ (calls.packetAllocated = true ∧ responseFails (calls.chunks 0).response = false)) :
    ∃ result, assembleBody method calls maxUintn fuel m = some result ∧
      Assembled maxUintn calls m result := by
  rw [assembleBody]
  cases hallocated : calls.packetAllocated with
  | false => exact ⟨_, rfl, Assembled.refused hallocated⟩
  | true =>
      have hfails : responseFails (calls.chunks 0).response = true := by
        cases hfirst : responseFails (calls.chunks 0).response with
        | true => rfl
        | false => exact absurd ⟨hallocated, hfirst⟩ h
      obtain ⟨later, hlater⟩ := dfciGetResponse_false (calls.chunks 0).response
        { m with pool := m.pool.grant }
      have hpass := @fillPass_fails maxUintn calls.chunks ⟨[], 0, 0, { m with pool := m.pool.grant }⟩
        (show 0 < maxUintn by decide) hfails
      obtain ⟨passes, rfl⟩ : ∃ passes, fuel = passes + 1 := ⟨fuel - 1, by omega⟩
      rw [if_neg (by simp), packet_largest]
      dsimp only
      rw [loop_done passes hpass]
      exact finishBody_fails method (fun i hi => absurd hi (Nat.not_lt_zero i))
        (show 0 < maxUintn by decide) hfails ((efiError_dfciGetResponse _ _ _).trans hfails)
        ⟨later, hlater⟩

/-! ## Every content length -/

section

variable (method : HttpMethod) (calls : AssemblyCalls) (headers : Option HeaderArray) (m : Machine)

/-- Unless the content length is the largest word, a packet is there and the first chunk arrives,
the assembly is as intended; and in this case it never is. -/
theorem assembles_iff :
    Assembles method calls headers m ↔
      ¬ (contentLengthOf headers = maxUintn ∧ calls.packetAllocated = true ∧
        responseFails (calls.chunks 0).response = false) := by
  constructor
  · rintro ⟨result, hresult, -⟩ ⟨hlargest, hallocated, hanswered⟩
    have hsome := hresult (contentLengthOf headers + 1) (Nat.lt_succ_self _)
    unfold assembleContent at hsome
    rw [hlargest] at hsome
    dsimp only at hsome
    rw [if_neg (show ¬ maxUintn = 0 by decide),
      assembleBody_largest method _ hallocated hanswered] at hsome
    exact absurd hsome (Option.some_ne_none result).symm
  · intro h
    unfold Assembles assembleContent
    dsimp only
    generalize { m with httpResponse := { m.httpResponse with headers := headers } } = started
    by_cases hempty : contentLengthOf headers = 0
    · refine ⟨(efiSuccess, answered method none started), fun fuel _ => if_pos hempty, ?_⟩
      exact Assembled.empty _ hempty rfl rfl rfl
    · have hbody : ∃ result, assembleBody method calls (contentLengthOf headers)
          (contentLengthOf headers + 1) started = some result ∧
          Assembled (contentLengthOf headers) calls started result := by
        rcases (contentLengthOf_le headers).lt_or_eq with hsmall | hlargest
        · exact assembleBody_ok hsmall method (Nat.lt_succ_self _)
        · rw [hlargest]
          exact assembleBody_largest_ok method (Nat.lt_succ_self _)
            fun hfirst => h ⟨hlargest, hfirst⟩
      obtain ⟨result, hresult, hassembled⟩ := hbody
      refine ⟨result, fun fuel enough => ?_, hassembled⟩
      rw [if_neg hempty]
      exact assembleBody_mono hresult enough

end

/-- A server that sends the largest content length, and one byte of content. -/
def largestHeaders : Option HeaderArray :=
  some ⟨1, [⟨some ⟨2, ascii "Content-Length" ++ [0]⟩, some ⟨3, ascii "4294967295" ++ [0]⟩⟩]⟩

theorem largestHeaders_not_assembles :
    ¬ Assembles .get { chunks := fun _ => ⟨{ data := [65] }, List.cons_ne_nil _ _⟩ } largestHeaders
      Machine.boot := by
  rintro ⟨result, hresult, -⟩
  have hlargest : contentLengthOf largestHeaders = maxUintn := by decide
  have hsome := hresult (contentLengthOf largestHeaders + 1) (Nat.lt_succ_self _)
  unfold assembleContent at hsome
  rw [hlargest] at hsome
  dsimp only at hsome
  rw [if_neg (show ¬ maxUintn = 0 by decide), assembleBody_largest .get _ rfl rfl] at hsome
  exact absurd hsome (Option.some_ne_none result).symm

end MuTegra.Dfci.Assembly
