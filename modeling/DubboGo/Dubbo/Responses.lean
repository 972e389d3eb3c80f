import DubboGo.Dubbo.Requests

/-!
# Responses

What becomes of the package of a response at the client, whose request is pending.
-/

namespace DubboGo.Dubbo

open Go Lib Remoting

variable {ο ω : Type} {h : Hessian ο ω}

/-! ## What is written -/

variable {e₀ e : h.Encoder} {withAttachments : Bool} {vals : List (Value ο)} {d : h.Decoder}
  {result : RPCResult ο (Value ο)}

theorem encodeAll_append {items items' : List (Item ο)} {e₁ : h.Encoder} (hitems : h.encodeAll items e₀ = .ok e₁)
    (hitems' : h.encodeAll items' e₁ = .ok e) : h.encodeAll (items ++ items') e₀ = .ok e := by
  unfold Hessian.encodeAll at hitems hitems' ⊢
  rw [List.foldlM_append, hitems]
  exact hitems'

def payloadValues (h : Hessian ο ω) (response : ResponsePayload ο (Value ο)) (types : Int32 × Int32 × Int32) :
    List (Value ο) :=
  match response.exception with
  | some ex => [.int32 types.1, exceptionValue h ex]
  | none =>
    if response.rspObj.isNil then [.int32 types.2.2] else [.int32 types.2.1, response.rspObj]

def attachmentItems (withAttachments : Bool) (attachments : FiniteMap Str (Value ο)) : List (Item ο) :=
  if withAttachments then [.attachments attachments] else []

theorem encodeAll_of_encodeResponsePayload {resp : ResponsePayload ο (Value ο)}
    {types : Int32 × Int32 × Int32} (hencode : encodeResponsePayload h resp types e₀ = .ok e) :
    h.encodeAll ((payloadValues h resp types).map .value) e₀ = .ok e := by
  unfold encodeResponsePayload at hencode
  unfold payloadValues
  cases hexception : resp.exception with
  | some ex =>
    rw [hexception] at hencode
    obtain ⟨e₁, htype, hvalue⟩ := bind_eq_ok hencode
    exact encodeAll_cons (mapError_eq_ok.1 htype) (encodeAll_cons (mapError_eq_ok.1 hvalue) rfl)
  | none =>
    rw [hexception] at hencode
    split_ifs at hencode ⊢ with hnil
    · exact encodeAll_cons (mapError_eq_ok.1 hencode) rfl
    · obtain ⟨e₁, htype, hvalue⟩ := bind_eq_ok hencode
      exact encodeAll_cons (mapError_eq_ok.1 htype) (encodeAll_cons (mapError_eq_ok.1 hvalue) rfl)

theorem encodeAll_of_marshalResponse {resp : ResponsePayload ο (Value ο)}
    (hmarshal : marshalResponse h responseOK false resp = .ok body) : ∃ withAttachments e, body = h.buffer e ++ [78] ∧
      h.encodeAll ((payloadValues h resp (responseTypes withAttachments)).map .value ++
        attachmentItems withAttachments resp.attachments) h.newEncoder = .ok e := by
  obtain ⟨e, hencode, hbody⟩ := bind_eq_ok hmarshal
  cases hbody
  obtain ⟨ver, -, hencode⟩ := bind_eq_ok hencode
  obtain ⟨e₁, hpayload, hattachments⟩ := bind_eq_ok hencode
  refine ⟨isSupportResponseAttachment ver, e, rfl, ?_⟩
  refine encodeAll_append (encodeAll_of_encodeResponsePayload (mapError_eq_ok.1 hpayload)) ?_
  unfold attachmentItems
  split_ifs at hattachments ⊢ with hwith
  · exact encodeAll_cons (mapError_eq_ok.1 (mapError_eq_ok.1 hattachments)) rfl
  · cases hattachments
    rfl

def failureValue (h : Hessian ο ω) (response : ResponsePayload ο (Value ο)) : Value ο :=
  match response.exception with
  | some ex => .string (h.text ex)
  | none => response.rspObj

theorem encodeAll_of_marshalResponse_failure (hstatus : status ≠ responseOK)
    {resp : ResponsePayload ο (Value ο)} (hmarshal : marshalResponse h status false resp = .ok body) :
    ∃ e, body = h.buffer e ++ [78] ∧ h.encodeAll [.value (failureValue h resp)] h.newEncoder = .ok e := by
  obtain ⟨e, hencode, hbody⟩ := bind_eq_ok hmarshal
  cases hbody
  refine ⟨e, rfl, ?_⟩
  unfold encodeResponse at hencode
  rw [if_pos hstatus] at hencode
  unfold failureValue
  cases hexception : resp.exception with
  | some ex | none =>
    rw [hexception] at hencode
    exact encodeAll_cons (mapError_eq_ok.1 (mapError_eq_ok.1 hencode)) rfl

/-! ## What is read -/

theorem exists_readAttachments {sent attachments : FiniteMap Str (Value ο)} {d' : h.Decoder}
    (hreads : List.Forall₂ Hessian.Reads (attachmentItems withAttachments sent) vals)
    (hdecode : h.decodeAll vals.length d = .ok (vals, d')) :
    ∃ attachments', readAttachments h withAttachments d attachments = .ok attachments' := by
  unfold readAttachments
  cases withAttachments with
  | false => exact ⟨attachments, rfl⟩
  | true =>
    cases hreads with
    | cons hread hnil =>
      cases hnil
      obtain ⟨entries, rfl, -⟩ := hread
      obtain ⟨d₁, hdecode, -⟩ := Hessian.decodeAll_succ hdecode
      rw [if_pos rfl, read_of_decode hdecode]
      exact ⟨_, rfl⟩

def received (h : Hessian ο ω) (response : ResponsePayload ο (Value ο)) (reply : Option ω)
    (attachments : FiniteMap Str (Value ο)) : Except (Fault ο) (ResponsePayload ο (Option ω)) :=
  match response.exception with
  | some ex => .ok ⟨reply, some (exceptionOf h (exceptionValue h ex)), attachments⟩
  | none =>
    if response.rspObj.isNil then .ok ⟨reply, none, attachments⟩
    else (reflectResponse h response.rspObj reply).map (⟨·, none, attachments⟩)

theorem responseTypes_exception (withAttachments : Bool) :
    let type := (responseTypes withAttachments).1
    (type = responseWithException ∨ type = responseWithExceptionWithAttachments) ∧
      decide (type = responseWithExceptionWithAttachments) = withAttachments := by
  cases withAttachments <;> decide

theorem responseTypes_value (withAttachments : Bool) :
    let type := (responseTypes withAttachments).2.1
    ¬(type = responseWithException ∨ type = responseWithExceptionWithAttachments) ∧
      (type = responseValue ∨ type = responseValueWithAttachments) ∧
      decide (type = responseValueWithAttachments) = withAttachments := by
  cases withAttachments <;> decide

theorem responseTypes_null (withAttachments : Bool) :
    let type := (responseTypes withAttachments).2.2
    ¬(type = responseWithException ∨ type = responseWithExceptionWithAttachments) ∧
      ¬(type = responseValue ∨ type = responseValueWithAttachments) ∧
      (type = responseNullValue ∨ type = responseNullValueWithAttachments) ∧
      decide (type = responseNullValueWithAttachments) = withAttachments := by
  cases withAttachments <;> decide

theorem unmarshalResponseBody_of_decodeAll {response : ResponsePayload ο (Value ο)}
    (hreads : List.Forall₂ Hessian.Reads (attachmentItems withAttachments response.attachments) vals)
    (hdecode : h.decodeAll (payloadValues h response (responseTypes withAttachments) ++ vals).length
      (h.newDecoder body) = .ok (payloadValues h response (responseTypes withAttachments) ++ vals, d))
    (reply : Option ω) :
    ∃ attachments, unmarshalResponseBody h body ⟨reply, none, ∅⟩ = received h response reply attachments := by
  obtain ⟨d₁, hpayload, hvalues⟩ := Hessian.decodeAll_append hdecode
  obtain ⟨attachments, hattachments⟩ : ∃ attachments, readAttachments h withAttachments d₁ ∅ = .ok attachments :=
    exists_readAttachments hreads hvalues
  refine ⟨attachments, ?_⟩
  unfold received
  unfold payloadValues at hpayload
  cases hexception : response.exception with
  | some ex =>
    rw [hexception] at hpayload
    obtain ⟨d₂, htype, hpayload⟩ := Hessian.decodeAll_succ hpayload
    obtain ⟨d₃, hvalue, hpayload⟩ := Hessian.decodeAll_succ hpayload
    cases hpayload
    obtain ⟨hgroup, hwith⟩ := responseTypes_exception withAttachments
    simp only [unmarshalResponseBody, read_of_decode htype, read_of_decode hvalue, bind, Except.bind, if_pos hgroup,
      hwith, hattachments]
    rfl
  | none =>
    rw [hexception] at hpayload
    split_ifs at hpayload ⊢ with hnil
    · obtain ⟨d₂, htype, hpayload⟩ := Hessian.decodeAll_succ hpayload
      cases hpayload
      obtain ⟨hnot, hnot', hgroup, hwith⟩ := responseTypes_null withAttachments
      simp only [unmarshalResponseBody, read_of_decode htype, bind, Except.bind, if_neg hnot, if_neg hnot',
        if_pos hgroup, hwith, hattachments]
      rfl
    · obtain ⟨d₂, htype, hpayload⟩ := Hessian.decodeAll_succ hpayload
      obtain ⟨d₃, hvalue, hpayload⟩ := Hessian.decodeAll_succ hpayload
      cases hpayload
      obtain ⟨hnot, hgroup, hwith⟩ := responseTypes_value withAttachments
      simp only [unmarshalResponseBody, read_of_decode htype, read_of_decode hvalue, bind, Except.bind,
        if_neg hnot, if_pos hgroup, hwith, hattachments]
      cases reflectResponse h response.rspObj reply <;> rfl

theorem unmarshalResponseBody_marshalResponse (hinverts : h.Inverts) {response : ResponsePayload ο (Value ο)}
    (hmarshal : marshalResponse h responseOK false response = .ok body) (reply : Option ω) :
    ∃ attachments, unmarshalResponseBody h body ⟨reply, none, ∅⟩ = received h response reply attachments := by
  obtain ⟨withAttachments, e, rfl, hencode⟩ := encodeAll_of_marshalResponse hmarshal
  obtain ⟨vals, d, hreads, hdecode⟩ := hinverts _ e hencode [78]
  have hlength := hreads.length_eq
  obtain ⟨rest, rfl, hrest⟩ := reads_values hreads
  rw [hlength] at hdecode
  exact unmarshalResponseBody_of_decodeAll hrest hdecode reply

theorem decode_marshalResponse_failure (hinverts : h.Inverts) (hstatus : status ≠ responseOK)
    {resp : ResponsePayload ο (Value ο)} (hmarshal : marshalResponse h status false resp = .ok body) :
    ∃ d, h.decode (h.newDecoder body) = .ok (failureValue h resp, d) := by
  obtain ⟨e, rfl, hencode⟩ := encodeAll_of_marshalResponse_failure hstatus hmarshal
  obtain ⟨vals, d, hreads, hdecode⟩ := hinverts _ e hencode [78]
  cases hreads with
  | cons hread hnil =>
    cases hnil
    obtain rfl := hread
    obtain ⟨d₁, hdecode, -⟩ := Hessian.decodeAll_succ hdecode
    exact ⟨d₁, hdecode⟩

/-! ## Packages of responses -/

theorem serialMask_and (serialID : UInt8) :
    serialID &&& serialMask &&& flagRequest = 0 ∧ serialID &&& serialMask &&& flagEvent = 0 := by
  rw [UInt8.and_assoc, UInt8.and_assoc]
  exact ⟨UInt8.and_zero, UInt8.and_zero⟩

theorem packageType_of_response (serialID status : UInt8) :
    packageType (serialID &&& serialMask) status 0 =
      if status ≠ responseOK then packageResponse ||| packageResponseException else packageResponse := by
  obtain ⟨hrequest, hevent⟩ := serialMask_and serialID
  simp only [packageType, hrequest, hevent, ne_eq, not_true_eq_false, if_false, UInt8.zero_or]

def responseHeader (serialID status : UInt8) (id : Int64) (body : Str) : DubboHeader :=
  frameHeader (serialID &&& serialMask) status id body.length

variable {table : PendingTable ο ω} {serialID status : UInt8} {id : Int64} {body : Str}

/-- A complete frame is decoded whatever follows it. -/
theorem decode_responseFrame (hserial : serialID &&& serialMask ≠ 0) (hbody : body.length < 2 ^ 32) (rest : Str) :
    decode h table (frame (serialID &&& serialMask) status id body ++ rest) =
      outcome h table false (responseHeader serialID status id body) body := by
  have hserial' : serialID &&& serialMask &&& serialMask ≠ 0 := by
    rw [UInt8.and_assoc]
    exact hserial
  have hrequest : decide (serialID &&& serialMask &&& flagRequest ≠ 0) = false := by
    rw [(serialMask_and serialID).1]
    rfl
  rw [decode_frame hserial' hbody, hrequest]
  rfl

theorem decode_okResponse (hinverts : h.Inverts) {response : ResponsePayload ο (Value ο)}
    (hmarshal : marshalResponse h responseOK false response = .ok body) (hserial : serialID &&& serialMask ≠ 0)
    (hbody : body.length < 2 ^ 32) {pending : PendingResponse (Exception ο) (RPCResult ο (Option ω)) ω}
    (hpending : table.getPendingResponse id = some pending) :
    ∃ attachments, ∀ rest, decode h table (frame (serialID &&& serialMask) responseOK id body ++ rest) =
      match received h response pending.reply attachments with
      | .error (.panic p) => .error p
      | .error (.error e) => .ok (failed (responseHeader serialID responseOK id body) e)
      | .ok payload => .ok (some (.response (responseMessage (responseHeader serialID responseOK id body) payload)),
          headerLength + body.length, none) := by
  obtain ⟨attachments, hunmarshal⟩ := unmarshalResponseBody_marshalResponse hinverts hmarshal pending.reply
  refine ⟨attachments, fun rest => ?_⟩
  have htype : (responseHeader serialID responseOK id body).type = packageResponse :=
    packageType_of_response serialID responseOK
  have hid : table.getPendingResponse (responseHeader serialID responseOK id body).id = some pending := hpending
  rw [decode_responseFrame hserial hbody, outcome_of_response htype, hid]
  dsimp only
  rw [hunmarshal]
  rcases received h response pending.reply attachments with (p | e) | payload <;> rfl

theorem decode_failedResponse (hinverts : h.Inverts) {resp : ResponsePayload ο (Value ο)}
    (hstatus : status ≠ responseOK) (hmarshal : marshalResponse h status false resp = .ok body)
    (hserial : serialID &&& serialMask ≠ 0) (hbody : body.length < 2 ^ 32) {text : Str}
    (htext : failureValue h resp = .string text) (rest : Str) :
    decode h table (frame (serialID &&& serialMask) status id body ++ rest) =
      .ok (some (.response (responseMessage (responseHeader serialID status id body)
        ⟨none, some (.message (str "java exception:" ++ text)), ∅⟩)), headerLength + body.length, none) := by
  obtain ⟨d, hdecode⟩ := decode_marshalResponse_failure hinverts hstatus hmarshal
  rw [htext] at hdecode
  have htype : (responseHeader serialID status id body).type = packageResponse ||| packageResponseException :=
    (packageType_of_response serialID status).trans (if_pos hstatus)
  rw [decode_responseFrame hserial hbody, outcome_of_exception htype hdecode]
  rfl

def Fits (h : Hessian ο ω) (result : RPCResult ο (Value ο)) (reply : Option ω) : Prop :=
  result.err = none → result.rest.isNil = false →
    ∃ before after, reply = some before ∧ h.copy result.rest before = .ok after

theorem exists_received {reply : Option ω} (hfits : Fits h result reply) (attachments : FiniteMap Str (Value ο)) :
    ∃ payload, received h ⟨result.rest, result.err, result.attrs⟩ reply attachments = .ok payload := by
  unfold received
  cases herr : result.err with
  | some ex => exact ⟨_, rfl⟩
  | none =>
    cases hnil : result.rest.isNil with
    | true => exact ⟨_, rfl⟩
    | false =>
      obtain ⟨before, after, rfl, hcopy⟩ := hfits herr hnil
      refine ⟨⟨some after, none, attachments⟩, ?_⟩
      simp only [reflectResponse, hnil, hcopy, Bool.false_eq_true, if_false, Except.map]

theorem encodeResponseMessage_result {resp : Response (Exception ο) (ResultBox ο (Value ο))} {p : Str}
    (hencode : encodeResponseMessage h resp = .ok p) (hheartbeat : resp.isHeartbeat = false) :
    ∃ result body, rpcResultFromResponse resp.result = .ok result ∧
      marshalResponse h resp.status false ⟨result.rest, result.err, result.attrs⟩ = .ok body ∧
      p = frame (resp.serialID &&& serialMask)
        (if resp.status ≠ 0 then resp.status else responseOK) resp.id body := by
  rcases encodeResponseMessage_cases hencode with ⟨hevent, -⟩ | ⟨hevent, -⟩ | ⟨-, hresult⟩
  · exact nomatch hheartbeat.symm.trans hevent
  · exact nomatch hheartbeat.symm.trans hevent
  · exact hresult

namespace Late

def response : Response (Exception Unit) (ResultBox Unit (Value Unit)) where
  id := 1
  version := []
  serialID := sHessian2
  status := responseOK
  event := false
  error := none
  result := some (.value ⟨.string (str "v"), none, ∅⟩)

def pending : PendingTable Unit (Value Unit) := Exchange.State.empty.addPendingResponse (.new 1 false (some .nil))

def removed : PendingTable Unit (Value Unit) := pending.delete 1

end Late

theorem getPendingResponse_pending : Late.pending.getPendingResponse 1 = some (.new 1 false (some .nil)) := by
  rfl

theorem received_cases {reply : ω} (Holds : ω → Value ο → Prop)
    (hcopy : result.rest.isNil = false → ∃ after, h.copy result.rest reply = .ok after ∧ Holds after result.rest)
    (atts : FiniteMap Str (Value ο)) :
    ∃ pay, received h ⟨result.rest, result.err, result.attrs⟩ (some reply) atts = .ok pay ∧
      pay.exception.isSome = result.err.isSome ∧
      (result.err = none → ((∃ after, pay.rspObj = some after ∧ Holds after result.rest) ↔
        (result.rest.isNil = true → Holds reply result.rest))) := by
  unfold received
  cases herr : result.err with
  | some ex => exact ⟨_, rfl, rfl, nofun⟩
  | none =>
    cases hrest : result.rest.isNil with
    | true => exact ⟨_, rfl, rfl, fun _ => by simp⟩
    | false =>
      obtain ⟨after, hafter, hholds⟩ := hcopy hrest
      refine ⟨⟨some after, none, atts⟩, ?_, rfl, fun _ => iff_of_true ⟨after, rfl, hholds⟩ nofun⟩
      simp only [reflectResponse, hrest, hafter, Bool.false_eq_true, if_false, Except.map]

theorem failureValue_eq (hnone : result.err = none) :
    failureValue h ⟨result.rest, result.err, result.attrs⟩ = result.rest := by
  rw [failureValue, hnone]

theorem decode_failedResponse_value (hinv : h.Inverts) {resp : ResponsePayload ο (Value ο)}
    (hstatus : status ≠ responseOK) (hmarshal : marshalResponse h status false resp = .ok body)
    (hserial : serialID &&& serialMask ≠ 0) (hbody : body.length < 2 ^ 32)
    (hvalue : ∀ text, failureValue h resp ≠ .string text) (rest : Str) :
    decode h table (frame (serialID &&& serialMask) status id body ++ rest) = .error .typeAssertion := by
  obtain ⟨d, hdec⟩ := decode_marshalResponse_failure hinv hstatus hmarshal
  have htype : (responseHeader serialID status id body).type = packageResponse ||| packageResponseException :=
    (packageType_of_response serialID status).trans (if_pos hstatus)
  rw [decode_responseFrame hserial hbody, outcome_of_exception_value htype hdec hvalue]

/-- For a status other than 0, the client has an error exactly if the status is not OK or the result has one, and the
value otherwise, exactly if a response of another status has an error or a text, and the reply is as a nil value that
is sent. -/
theorem response_carries_failure (hinverts : h.Inverts)
    {response : Response (Exception ο) (ResultBox ο (Value ο))} {p : Str}
    (hencode : encodeResponseMessage h response = .ok p) (hheartbeat : response.isHeartbeat = false)
    (hserial : response.serialID = sHessian2) (hlength : p.length < headerLength + 2 ^ 32)
    {pending : PendingResponse (Exception ο) (RPCResult ο (Option ω)) ω}
    (hpending : table.getPendingResponse response.id = some pending) {reply : ω}
    (hreply : pending.reply = some reply) {result : RPCResult ο (Value ο)}
    (hresult : rpcResultFromResponse response.result = .ok result) (Holds : ω → Value ο → Prop)
    (hcopy : result.rest.isNil = false → ∃ after, h.copy result.rest reply = .ok after ∧ Holds after result.rest)
    (hstatus : response.status ≠ 0) :
    (∃ r decoded, decode h table p = .ok (some (.response r), p.length, none) ∧ r.result = some decoded ∧
      (decoded.err.isSome ↔ response.status ≠ responseOK ∨ result.err.isSome) ∧
      (response.status = responseOK → result.err = none →
        ∃ after, decoded.rest = some after ∧ Holds after result.rest)) ↔
      (response.status ≠ responseOK → result.err = none → ∃ text, result.rest = .string text) ∧
        (response.status = responseOK → result.err = none → result.rest.isNil = true → Holds reply result.rest) := by
  obtain ⟨result', body, hresult', hmarshal, rfl⟩ := encodeResponseMessage_result hencode hheartbeat
  cases hresult.symm.trans hresult'
  rw [length_frame] at hlength ⊢
  rw [if_pos hstatus, ← List.append_nil (frame _ _ _ _)]
  have hmask : response.serialID &&& serialMask ≠ 0 := by
    rw [hserial]
    decide
  by_cases hok : response.status = responseOK
  · rw [hok] at hmarshal ⊢
    obtain ⟨attachments, hdecode⟩ := decode_okResponse hinverts hmarshal hmask (by omega) hpending
    obtain ⟨payload, hpayload, hexception, hstored⟩ := received_cases Holds hcopy attachments
    rw [hreply, hpayload] at hdecode
    constructor
    · rintro ⟨r, decoded, hdecoded, hr, -, hvalue⟩
      refine ⟨fun hne => absurd rfl hne, fun _ hnone => (hstored hnone).1 ?_⟩
      cases (hdecode []).symm.trans hdecoded
      cases hr
      exact hvalue rfl hnone
    · rintro ⟨-, hnil⟩
      refine ⟨_, _, hdecode [], rfl, ?_, fun _ hnone => (hstored hnone).2 (hnil rfl hnone)⟩
      rw [hexception]
      exact ⟨.inr, fun hor => hor.resolve_left fun hne => hne rfl⟩
  · constructor
    · rintro ⟨r, decoded, hdecoded, -⟩
      refine ⟨fun _ hnone => ?_, fun heq => absurd heq hok⟩
      by_contra htext
      have hvalue : ∀ text, failureValue h ⟨result.rest, result.err, result.attrs⟩ ≠ .string text := by
        intro text heq
        exact htext ⟨text, (failureValue_eq hnone).symm.trans heq⟩
      cases (decode_failedResponse_value hinverts hok hmarshal hmask (by omega) hvalue []).symm.trans hdecoded
    · rintro ⟨htext, -⟩
      have hvalue : ∃ text, failureValue h ⟨result.rest, result.err, result.attrs⟩ = .string text := by
        cases herr : result.err with
        | some ex => exact ⟨_, rfl⟩
        | none => exact htext hok herr
      obtain ⟨text, hvalue⟩ := hvalue
      exact ⟨_, _, decode_failedResponse hinverts hok hmarshal hmask (by omega) hvalue [], rfl,
        ⟨fun _ => .inl hok, fun _ => rfl⟩, fun heq => absurd heq hok⟩

namespace Late

/-- The service has failed. -/
def refused : Response (Exception Unit) (ResultBox Unit (Value Unit)) :=
  { response with status := 40, result := some (.value ⟨.nil, some (.message (str "e")), ∅⟩) }

end Late

theorem refused_carried : ∃ p r decoded, encodeResponseMessage plain Late.refused = .ok p ∧
    decode plain Late.pending p = .ok (some (.response r), p.length, none) ∧ r.result = some decoded ∧
    decoded.err.isSome = true := by
  obtain ⟨p, hencode, hlength⟩ : ∃ p, encodeResponseMessage plain Late.refused = .ok p ∧
      p.length < headerLength + 2 ^ 32 := ⟨_, rfl, by decide +kernel⟩
  obtain ⟨r, decoded, hdecode, hr, herr, -⟩ := (response_carries_failure inverts_plain hencode rfl rfl hlength
    getPendingResponse_pending rfl rfl (· = ·) (fun h => by cases h) (by decide)).2 ⟨nofun, fun h => by cases h⟩
  exact ⟨p, r, decoded, hencode, hdecode, hr, herr.2 (.inl (by decide))⟩

namespace Late

def failure : Response (Exception Unit) (ResultBox Unit (Value Unit)) :=
  { response with status := 40, result := some (.value ⟨.nil, none, ∅⟩) }

def unset : Response (Exception Unit) (ResultBox Unit (Value Unit)) :=
  { response with status := 0, result := some (.value ⟨.nil, some (.message (str "e")), ∅⟩) }

end Late

theorem failure_panics_unset_lost : (∃ p, encodeResponseMessage plain Late.failure = .ok p ∧
      decode plain Late.pending p = .error .typeAssertion) ∧
    ∃ p r n decoded, encodeResponseMessage plain Late.unset = .ok p ∧
      decode plain Late.pending p = .ok (some (.response r), n, none) ∧ r.result = some decoded ∧
      decoded.err = none :=
  ⟨⟨_, rfl, rfl⟩, _, _, _, _, rfl, rfl, rfl, rfl⟩

end DubboGo.Dubbo
