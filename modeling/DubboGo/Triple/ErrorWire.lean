import DubboGo.Triple.GrpcStatus
import DubboGo.Triple.UnaryWire

/-!
# Errors across the wires

What a client makes of the error that a handler ends a call with, on the gRPC and on the Triple
unary wire.
-/

namespace DubboGo.Triple

open Go List Option

/-! ## No failure is a success -/

def abortedError (message : Str) : Error := newError codeAborted (some (.plain message))

/-- A handler's error reaches the client as an error on both wires just when its code is not zero
(or its status does not marshal), and no successful response was sent before `Close`. -/
theorem handler_error_reported_iff (protobuf : Codec Status) (trailer : Header) (json : JsonCodec)
    (pools : CompressionPools) (statusLine : ℕ → Str) (hc : TripleUnaryHandlerConn)
    (bodyClosed : Option GoErr) (err : GoErr) (resp : Response)
    (hresp : (hc.close json bodyClosed (some err)).2.responseWriter.Delivers statusLine resp) :
    (grpcErrorFromTrailer protobuf (grpcErrorToTrailer trailer protobuf (some err)) ≠ none ∧
        validateResponse json pools resp ≠ none) ↔
      (codeOf err ≠ 0 ∨ ∀ bin, protobuf.marshal (grpcStatusFromError err) ≠ .ok bin) ∧
        ∀ status header, hc.responseWriter.sent = some (status, header) → status ≠ 200 ∨ unknownEncoding pools
              (getHeaderCanonical header.received tripleUnaryHeaderCompression) = true := by
  apply and_congr
  · rw [ne_eq, grpc_error_lost_iff, not_and_or, not_exists]
  · obtain ⟨header, hsent, hcarries⟩ := hresp
    rw [ne_eq, validateResponse_eq_none_iff, not_and_or, Bool.not_eq_false, hcarries.getHeaderCanonical (by decide)]
    rw [close_sent] at hsent
    cases hw : hc.responseWriter.sent with
    | none =>
      rw [hw] at hsent
      have hstatus : tripleCodeToHTTP (codeOf err) = resp.statusCode :=
        congrArg Prod.fst (some.inj hsent)
      constructor
      · intro _ status header h
        cases h
      · intro _
        left
        rw [← hstatus]
        exact tripleCodeToHTTP_ne_ok (codeOf err)
    | some sent =>
      rw [hw, some_or] at hsent
      rw [hsent]
      constructor
      · rintro h _ _ ⟨⟩
        exact h
      · intro h
        exact h _ _ rfl

def zeroStatus : Codec Status where
  name := str "proto"
  marshal _ := .ok ([0x12, 4] ++ str "boom")
  unmarshal _ := .ok ⟨0, str "boom", []⟩

/-- A handler's error with the code zero is a success for a gRPC client. -/
theorem code_zero_is_success :
    grpcErrorFromTrailer zeroStatus (grpcErrorToTrailer Header.empty zeroStatus
      (some (newError 0 (some (.plain (str "boom")))).toGo)) = none :=
  grpc_error_lost_iff.2 ⟨rfl, _, rfl⟩

def abortedStatus : Codec Status where
  name := str "proto"
  marshal _ := .ok ([8, 10, 0x12, 4] ++ str "boom")
  unmarshal _ := .ok ⟨10, str "boom", []⟩

def abortedHead : Str := str "\x7b\"code\":\"aborted\",\"message\":\""

/-- `encoding/json` on errors of aborted calls, with messages that need no escapes. -/
def abortedJSON : JsonCodec where
  marshalDetail _ _ _ := .error (.plain (str "no detail"))
  unmarshalDetail _ := .error (.plain (str "no detail"))
  marshalError code message _ :=
    .ok (str "\x7b\"code\":\"" ++ code ++ str "\",\"message\":\"" ++ message ++ str "\"\x7d")
  unmarshalError data :=
    if hasPrefix data abortedHead then
      .ok ⟨some (str "aborted"), (trimPrefix data abortedHead).dropLast.dropLast, []⟩
    else .error (.plain (str "unexpected end of JSON input"))
  compact := id
  protoJSON _ := .error (.plain (str "no descriptor"))

def noCompression : CompressionPools := ⟨fun _ => none, []⟩

def protoConn : TripleUnaryHandlerConn := .newConn noCompression (str "application/proto")

def conflictLine : ℕ → Str := fun _ => str "409 Conflict"

theorem exists_aborted_response (metadata : Header) :
    ∃ resp, (protoConn.close abortedJSON none
      (some { abortedError (str "boom") with metadata := metadata }.toGo)).2.responseWriter.Delivers
        conflictLine resp := by
  obtain ⟨resp, h, -⟩ := ResponseWriter.exists_delivers conflictLine (close_sent abortedJSON protoConn
    none { abortedError (str "boom") with metadata := metadata }.toGo)
  exact ⟨resp, h⟩

theorem aborted_error_reported :
    ∃ resp, (protoConn.close abortedJSON none
        (some (abortedError (str "boom")).toGo)).2.responseWriter.Delivers conflictLine resp ∧
      grpcErrorFromTrailer abortedStatus (grpcErrorToTrailer Header.empty abortedStatus
        (some (abortedError (str "boom")).toGo)) ≠ none ∧
      validateResponse abortedJSON noCompression resp ≠ none := by
  obtain ⟨resp, h⟩ := exists_aborted_response Header.empty
  exact ⟨resp, h, (handler_error_reported_iff _ _ _ _ _ _ _ _ _ h).2
    ⟨.inl (by decide), fun _ _ hsent => by cases hsent⟩⟩

/-! ## The error on both wires -/

/-- A detail of an error: its type URL is the default prefix with the name of a message, and the
text it was decoded from, if any, is one that decodes to it. -/
structure ErrorDetail.Regular (json : JsonCodec) (d : ErrorDetail) : Prop where
  name : ∃ name, d.pb.typeUrl = defaultAnyResolverPrefix ++ name ∧ (47 : UInt8) ∉ name ∧ validUtf8 name = true
  decoded : d.wireJSON = [] ∨ json.unmarshalWireDetail d.wireJSON = .ok d

/-- What `encoding/json` does with the documents of an error: it gives back what it marshalled if
the texts are valid UTF-8, and a value in compact form says the same. -/
structure JsonCodec.Inverts (json : JsonCodec) (e : Error) : Prop where
  detail : ∀ d ∈ e.details, validUtf8 d.type = true →
    ∃ raw, json.marshalDetail d.type (Base64.rawEncode d.bytes) (json.debug d.pb) = .ok raw ∧
      json.unmarshalDetail raw = .ok (d.type, Base64.rawEncode d.bytes)
  compact : ∀ raw doc, json.unmarshalDetail raw = .ok doc → json.unmarshalDetail (json.compact raw) = .ok doc
  error : validUtf8 e.message = true → ∀ raws, e.details.mapM json.marshalWireDetail = .ok raws →
    (∀ raw ∈ raws, ∃ doc, json.unmarshalDetail raw = .ok doc) →
    ∃ data, json.marshalError (codeString e.code) e.message raws = .ok data ∧
      json.unmarshalError data = .ok ⟨some (codeString e.code), e.message, raws.map json.compact⟩

theorem mapM_roundtrip {α β γ δ ε : Type} {f : α → Except ε β} {g : β → Except ε γ} {Q : β → Prop}
    {k : α → δ} {k' : γ → δ} (l : List α) (h : ∀ a ∈ l, ∃ b c, f a = .ok b ∧ Q b ∧ g b = .ok c ∧ k' c = k a) :
    ∃ bs cs, l.mapM f = .ok bs ∧ (∀ b ∈ bs, Q b) ∧ bs.mapM g = .ok cs ∧ cs.map k' = l.map k := by
  induction l with
  | nil => exact ⟨[], [], rfl, nofun, rfl, rfl⟩
  | cons a l ih =>
    obtain ⟨b, c, hf, hQ, hg, hk⟩ := h a mem_cons_self
    obtain ⟨bs, cs, hfs, hQs, hgs, hks⟩ := ih fun x hx => h x (mem_cons_of_mem a hx)
    refine ⟨b :: bs, c :: cs, ?_, ?_, ?_, ?_⟩
    · rw [mapM_cons, hf, hfs]
      rfl
    · exact forall_mem_cons.2 ⟨hQ, hQs⟩
    · rw [mapM_cons, hg, hgs]
      rfl
    · rw [map_cons, map_cons, hk, hks]

section Wires

variable {json : JsonCodec} {e : Error}

theorem unmarshalWireDetail_eq_ok_iff {data : Str} {d : ErrorDetail} :
    json.unmarshalWireDetail data = .ok d ↔
      ∃ type value decoded, json.unmarshalDetail data = .ok (type, value) ∧
        decodeBinaryHeader value = some decoded ∧
        d = ⟨⟨if (47 : UInt8) ∈ type then type else defaultAnyResolverPrefix ++ type, decoded⟩,
          data⟩ := by
  unfold JsonCodec.unmarshalWireDetail
  rcases json.unmarshalDetail data with err | ⟨type, value⟩
  · simp
  · rcases hv : decodeBinaryHeader value with - | decoded
    · simp [hv]
    · simp [hv, eq_comm]

theorem wireDetail_roundtrip (hjson : json.Inverts e) {d : ErrorDetail} (hd : d ∈ e.details) (hreg : d.Regular json) :
    ∃ raw d', json.marshalWireDetail d = .ok raw ∧ (∃ doc, json.unmarshalDetail raw = .ok doc) ∧
      json.unmarshalWireDetail (json.compact raw) = .ok d' ∧ (d'.type, d'.bytes) = (d.type, d.bytes) := by
  obtain ⟨name, hurl, hslash, hvalid⟩ := hreg.name
  have htype : d.type = name := by
    unfold ErrorDetail.type
    rw [hurl, trimPrefix_append]
  unfold JsonCodec.marshalWireDetail
  by_cases hw : d.wireJSON = []
  · obtain ⟨raw, hm, hu⟩ := hjson.detail d hd (by rw [htype]; exact hvalid)
    refine ⟨raw, ⟨⟨defaultAnyResolverPrefix ++ name, d.bytes⟩, json.compact raw⟩, ?_, ⟨_, hu⟩, ?_, ?_⟩
    · rw [if_neg (not_not.2 hw)]
      exact hm
    · rw [unmarshalWireDetail_eq_ok_iff]
      refine ⟨_, _, _, hjson.compact _ _ hu, decodeBinaryHeader_encodeBinaryHeader d.bytes, ?_⟩
      rw [htype, if_neg hslash]
    · rw [htype]
      rfl
  · obtain ⟨type, value, decoded, hu, hdec, heq⟩ :=
      unmarshalWireDetail_eq_ok_iff.1 (hreg.decoded.resolve_left hw)
    refine ⟨d.wireJSON, { d with wireJSON := json.compact d.wireJSON }, if_pos hw, ⟨_, hu⟩, ?_, rfl⟩
    rw [unmarshalWireDetail_eq_ok_iff]
    refine ⟨type, value, decoded, hjson.compact _ _ hu, hdec, ?_⟩
    rw [heq]

theorem asError_code {wire : TripleWireError} (h : 1 ≤ wire.code) (h' : wire.code ≤ 17) :
    wire.asError.code = wire.code := by
  have hkeep : ¬ ((wire.code < minCode ∨ maxCode < wire.code) ∧ wire.code ≠ codeBizError) := by
    simp only [minCode, maxCode, codeCanceled, codeUnauthenticated, codeBizError, ne_eq,
      UInt32.lt_iff_toNat_lt, UInt32.le_iff_toNat_le, ← UInt32.toNat_inj, UInt32.reduceToNat]
      at h h' ⊢
    omega
  show (if _ then _ else _) = _
  rw [if_neg hkeep]

theorem wireError_roundtrip (hjson : json.Inverts e) (h : 1 ≤ e.code) (h' : e.code ≤ 17)
    (hmsg : validUtf8 e.message = true) (hdetails : ∀ d ∈ e.details, d.Regular json) :
    ∃ data wire, json.marshalWireError (newTripleWireError e.toGo) = .ok data ∧
      json.unmarshalWireError data = .ok wire ∧ SameError wire.asError e := by
  obtain ⟨raws, details, hm, hraws, hu, hsame⟩ :=
    mapM_roundtrip (g := json.unmarshalWireDetail ∘ json.compact) e.details
      fun d hd => wireDetail_roundtrip hjson hd (hdetails d hd)
  obtain ⟨data, hdata, hdoc⟩ := hjson.error hmsg raws hm hraws
  refine ⟨data, ⟨e.code, e.message, details⟩, ?_, ?_, asError_code h h', rfl, hsame⟩
  · show json.marshalWireError ⟨e.code, e.message, e.details⟩ = _
    unfold JsonCodec.marshalWireError
    rw [hm]
    exact hdata
  · unfold JsonCodec.unmarshalWireError
    rw [hdoc]
    dsimp only [map_some, getD_some]
    rw [unmarshalText_codeString]
    rw [mapM_map, hu]

end Wires

/-- Both wires carry an error with a code from 1 to 17 faithfully, so that they agree: the client
gets its code, its message and its details, by type and bytes and in order. -/
theorem wires_agree (protobuf : Codec Status) (trailer : Header) (json : JsonCodec) (e : Error)
    (hcode : 1 ≤ e.code) (hcode' : e.code ≤ 17) (hmsg : validUtf8 e.message = true)
    (hdetails : ∀ d ∈ e.details, d.Regular json)
    (hproto : validUtf8 e.message = true → (∀ d ∈ e.details, validUtf8 d.pb.typeUrl = true) →
      Inverts protobuf (grpcStatusFromError e.toGo))
    (hempty : protobuf.unmarshal [] = .ok ⟨0, [], []⟩) (hjson : json.Inverts e) : ∃ a data wire,
      grpcErrorFromTrailer protobuf (grpcErrorToTrailer trailer protobuf (some e.toGo)) = some a ∧
        json.marshalWireError (newTripleWireError e.toGo) = .ok data ∧ json.unmarshalWireError data = .ok wire ∧
        SameError a e ∧ SameError wire.asError e ∧ SameError a wire.asError := by
  have hurls : ∀ d ∈ e.details, validUtf8 d.pb.typeUrl = true := by
    intro d hd
    obtain ⟨name, hurl, -, hvalid⟩ := (hdetails d hd).name
    rw [hurl]
    exact validUtf8_append (validUtf8_str _) hvalid
  have hle : e.code.toNat ≤ 17 := UInt32.le_iff_toNat_le.1 hcode'
  have hpos : e.code ≠ 0 := by
    intro h0
    rw [h0] at hcode
    exact absurd hcode (by decide)
  obtain ⟨a, ha, hae⟩ := grpc_roundtrip trailer hpos (by omega) (hproto hmsg hurls) hempty
  obtain ⟨data, wire, hdata, hwire, hwe⟩ := wireError_roundtrip hjson hcode hcode' hmsg hdetails
  exact ⟨a, data, wire, ha, hdata, hwire, hae, hwe, hae.trans hwe.symm⟩

/-- An error with one detail, a `StringValue`. -/
def notFoundError : Error :=
  { newError codeNotFound (some (.plain (str "boom"))) with
    details := [⟨⟨str "type.googleapis.com/google.protobuf.StringValue", [10, 1, 120]⟩, []⟩] }

def notFoundStatus : Codec Status where
  name := str "proto"
  marshal _ := .ok ([8, 5, 0x12, 4] ++ str "boom" ++ [0x1a, 54, 0x0a, 47] ++
    str "type.googleapis.com/google.protobuf.StringValue" ++ [0x12, 3, 10, 1, 120])
  unmarshal data :=
    .ok (if data = [] then ⟨0, [], []⟩ else grpcStatusFromError notFoundError.toGo)

def stringValueText : Str :=
  str "\x7b\"type\":\"google.protobuf.StringValue\",\"value\":\"CgF4\"\x7d"

/-- `encoding/json` on the documents of that error. -/
def notFoundJSON : JsonCodec where
  marshalDetail _ _ _ := .ok stringValueText
  unmarshalDetail _ := .ok (str "google.protobuf.StringValue", str "CgF4")
  marshalError _ _ _ := .ok (str "\x7b\"code\":\"not_found\",\"message\":\"boom\",\"details\":[" ++
    stringValueText ++ str "]\x7d")
  unmarshalError _ := .ok ⟨some (str "not_found"), str "boom", [stringValueText]⟩
  compact := id
  protoJSON _ := .error (.plain (str "no descriptor"))

theorem notFoundJSON_inverts : notFoundJSON.Inverts notFoundError where
  detail := by
    intro d hd _
    obtain rfl := mem_singleton.1 hd
    exact ⟨_, rfl, congrArg Except.ok (Prod.ext (by decide) (by decide))⟩
  compact := fun _ _ h => h
  error := by
    intro _ raws hraws _
    obtain rfl : [stringValueText] = raws := Except.ok.inj hraws
    have hname : str "not_found" = codeString notFoundError.code := by decide
    exact ⟨_, rfl, by rw [← hname]; rfl⟩

theorem wires_agree_not_found : ∃ a data wire, grpcErrorFromTrailer notFoundStatus
        (grpcErrorToTrailer Header.empty notFoundStatus (some notFoundError.toGo)) = some a ∧
      notFoundJSON.marshalWireError (newTripleWireError notFoundError.toGo) = .ok data ∧
      notFoundJSON.unmarshalWireError data = .ok wire ∧
      SameError a notFoundError ∧ SameError wire.asError notFoundError ∧ SameError a wire.asError := by
  have hdetail : ∀ d ∈ notFoundError.details, d.Regular notFoundJSON := by
    intro d hd
    obtain rfl := mem_singleton.1 hd
    exact ⟨⟨str "google.protobuf.StringValue", by decide, by decide, validUtf8_str _⟩, .inl rfl⟩
  exact wires_agree notFoundStatus Header.empty notFoundJSON notFoundError (by decide) (by decide)
    (validUtf8_str "boom") hdetail (fun _ _ => ⟨_, rfl, rfl⟩) rfl notFoundJSON_inverts

/-! ## Metadata on the Triple wire -/

def Error.withMetadata (e : Error) (metadata : Header) : Error := { e with metadata := metadata }

/-- Nothing was written to the connection, and its header says nothing about how to read a body. -/
structure TripleUnaryHandlerConn.Fresh (hc : TripleUnaryHandlerConn) : Prop where
  wroteBody : hc.wroteBody = false
  sent : hc.responseWriter.sent = none
  body : hc.responseWriter.body = []
  compression : ∀ name ∈ spellings tripleUnaryHeaderCompression, hc.responseWriter.header name = none
  length : ∀ name ∈ spellings headerContentLength, hc.responseWriter.header name = none

theorem newConn_fresh (pools : CompressionPools) (ctype : Str) :
    (TripleUnaryHandlerConn.newConn pools ctype).Fresh := by
  have hunset : ∀ name, name ≠ headerContentType → name ≠ tripleUnaryHeaderAcceptCompression →
      (TripleUnaryHandlerConn.newConn pools ctype).responseWriter.header name = none := by
    intro name h1 h2
    dsimp only [TripleUnaryHandlerConn.newConn, setHeaderCanonical]
    rw [Function.update_of_ne h2, Function.update_of_ne h1]
    rfl
  refine ⟨rfl, rfl, rfl, fun name hname => hunset name ?_ ?_, fun name hname => hunset name ?_ ?_⟩
  all_goals exact ne_of_mem_spellings hname (by decide)

structure Harmless (metadata : Header) : Prop where
  compression : getHeaderCanonical metadata.received tripleUnaryHeaderCompression = [] ∨
    getHeaderCanonical metadata.received tripleUnaryHeaderCompression = compressionIdentity
  length : declaredLength metadata = none
  stray : metadata.collect straySpellings = []

theorem harmless_of_absent {metadata : Header}
    (h : ∀ name ∈ spellings tripleUnaryHeaderCompression, metadata name = none)
    (h' : ∀ name ∈ spellings headerContentLength, metadata name = none) : Harmless metadata where
  compression := .inl (Header.getHeaderCanonical_received_of_absent h)
  length := by
    unfold declaredLength getHeaderCanonical Header.values
    rw [h' _ (mem_spellings _)]
    rfl
  stray := Header.collect_of_absent fun name hname => h' name (mem_of_mem_filter hname)

theorem harmless_empty : Harmless Header.empty :=
  harmless_of_absent (fun _ _ => rfl) fun _ _ => rfl

section Metadata

variable {json : JsonCodec} {pools : CompressionPools} {statusLine : ℕ → Str}
  {hc : TripleUnaryHandlerConn} {bodyClosed : Option GoErr} {e : Error} {metadata : Header} {resp : Response}

theorem errorBody_withMetadata : json.errorBody (e.withMetadata metadata).toGo = json.errorBody e.toGo := rfl

theorem closeHeader_metadata (hwrote : hc.wroteBody = false) {name : Str}
    (htype : name ≠ headerContentType) (htrailer : hasPrefix name tripleUnaryTrailerPrefix = false)
    (hname : hc.responseWriter.header name = none) :
    setHeaderCanonical (hc.closeHeader (some (e.withMetadata metadata).toGo)) headerContentType
      tripleUnaryContentTypeJSON name = metadata name := by
  unfold setHeaderCanonical TripleUnaryHandlerConn.closeHeader
  rw [Function.update_of_ne htype, if_neg (by rw [hwrote]; decide)]
  show TripleUnaryHandlerConn.addTrailers (mergeHeaders hc.responseWriter.header metadata)
    hc.responseTrailer name = metadata name
  unfold TripleUnaryHandlerConn.addTrailers mergeHeaders Header.values
  rw [htrailer, hname]
  cases metadata name <;> rfl

theorem closeHeader_values (hfresh : hc.Fresh) {name : Str}
    (hname : name ∈ spellings tripleUnaryHeaderCompression ∨ name ∈ spellings headerContentLength) :
    (setHeaderCanonical (hc.closeHeader (some (e.withMetadata metadata).toGo)) headerContentType
      tripleUnaryContentTypeJSON).values name = metadata.values name := by
  unfold Header.values
  rcases hname with hname | hname
  · rw [closeHeader_metadata hfresh.wroteBody (ne_of_mem_spellings hname (by decide))
      (hasPrefix_of_mem_spellings hname (by decide)) (hfresh.compression name hname)]
  · rw [closeHeader_metadata hfresh.wroteBody (ne_of_mem_spellings hname (by decide))
      (hasPrefix_of_mem_spellings hname (by decide)) (hfresh.length name hname)]

structure Answers (json : JsonCodec) (statusLine : ℕ → Str) (e : Error) (metadata : Header)
    (resp : Response) : Prop where
  statusCode : resp.statusCode = tripleCodeToHTTP e.code
  status : resp.status = statusLine resp.statusCode
  compression : getHeaderCanonical resp.header tripleUnaryHeaderCompression =
    getHeaderCanonical metadata.received tripleUnaryHeaderCompression
  body : metadata.collect straySpellings = [] → declaredLength metadata = none →
    resp.body.pending = json.errorBody e.toGo ∧ resp.body.last = .eof
  broken : metadata.collect straySpellings = [] → ∀ n, declaredLength metadata = some n →
    n ≠ (json.errorBody e.toGo).length → resp.body.last.isExactly .eof = false

theorem close_sent_of_fresh (json : JsonCodec) (hfresh : hc.Fresh) (bodyClosed : Option GoErr)
    (e : Error) (metadata : Header) :
    ∃ header, (hc.close json bodyClosed (some (e.withMetadata metadata).toGo)).2.responseWriter.sent =
        some (tripleCodeToHTTP e.code, header) ∧ getHeaderCanonical header.received tripleUnaryHeaderCompression =
        getHeaderCanonical metadata.received tripleUnaryHeaderCompression ∧
      declaredLength header = declaredLength metadata ∧
      header.collect straySpellings = metadata.collect straySpellings := by
  refine ⟨_, by rw [close_sent, hfresh.sent]; rfl, ?_, ?_, ?_⟩
  · exact Header.getHeaderCanonical_received_congr (by decide) fun name hname =>
      closeHeader_values hfresh (.inl hname)
  · unfold declaredLength getHeaderCanonical
    rw [closeHeader_values hfresh (.inr (mem_spellings _))]
  · exact Header.collect_congr fun name hname =>
      closeHeader_values hfresh (.inr (mem_of_mem_filter hname))

theorem answers_of_delivers (hfresh : hc.Fresh)
    (hresp : (hc.close json bodyClosed (some (e.withMetadata metadata).toGo)).2.responseWriter.Delivers
      statusLine resp) : Answers json statusLine e metadata resp := by
  obtain ⟨header, hsent, hcarries⟩ := hresp
  obtain ⟨header', hsent', hcompression, hlength, hstray⟩ :=
    close_sent_of_fresh json hfresh bodyClosed e metadata
  obtain ⟨hstatus, rfl⟩ := Prod.mk.inj (some.inj (hsent'.symm.trans hsent))
  have hbody := close_body json hc bodyClosed (e.withMetadata metadata).toGo
  rw [hfresh.body, nil_append, errorBody_withMetadata] at hbody
  rw [hbody] at hcarries
  refine ⟨hstatus.symm, hcarries.status, ?_, fun hs hn => ?_, fun hs n hn hne => ?_⟩
  · rw [hcarries.getHeaderCanonical (by decide), hcompression]
  · exact hcarries.body (hstray.trans hs) (.inl (hlength.trans hn))
  · apply hcarries.broken (hstray.trans hs)
    unfold Framed
    rw [hlength, hn]
    simpa using hne

/-- The error that the document of `e` is read as. -/
def carriedError (json : JsonCodec) (statusLine : ℕ → Str) (e : Error) : Error :=
  match json.unmarshalWireError (json.errorBody e.toGo) with
  | .error _ => newError (tripleHTTPToCode (tripleCodeToHTTP e.code))
      (some (.plain (statusLine (tripleCodeToHTTP e.code))))
  | .ok wireErr => wireErr.asError

theorem validateResponse_of_harmless (pools : CompressionPools)
    (hresp : Answers json statusLine e metadata resp) (hm : Harmless metadata) :
    ∃ a, validateResponse json pools resp = some a ∧ SameError a (carriedError json statusLine e) := by
  have henc := hresp.compression
  have hknown : unknownEncoding pools (getHeaderCanonical resp.header tripleUnaryHeaderCompression) =
      false := by
    rw [henc]
    rcases hm.compression with h | h <;> simp [unknownEncoding, h]
  have hpool : pools.get (getHeaderCanonical resp.header tripleUnaryHeaderCompression) = none := by
    rw [henc]
    exact if_pos hm.compression
  have hstatus : resp.statusCode ≠ 200 := by
    rw [hresp.statusCode]
    exact tripleCodeToHTTP_ne_ok e.code
  obtain ⟨hbody, hlast⟩ := hresp.body hm.stray hm.length
  rw [validateResponse_of_clean hstatus hknown hlast, TripleUnaryUnmarshaler.decode_of_plain _ _ hpool, hbody]
  refine ⟨_, rfl, ?_⟩
  unfold carriedError httpError
  rw [hresp.status, hresp.statusCode]
  cases json.unmarshalWireError (json.errorBody e.toGo) with
  | error err => exact SameError.refl _
  | ok wireErr => exact ⟨rfl, rfl, rfl⟩

theorem get_of_known {enc : Str} (hknown : unknownEncoding pools enc = false)
    (hset : ¬ (enc = [] ∨ enc = compressionIdentity)) : ∃ pool, pools.get enc = some pool := by
  have hcontains : pools.nameToPool enc ≠ none := by
    rw [not_or] at hset
    simpa [unknownEncoding, hset, CompressionPools.contains] using hknown
  unfold CompressionPools.get
  rw [if_neg hset]
  exact ne_none_iff_exists'.1 hcontains

theorem validateResponse_of_harmful (hresp : Answers json statusLine e metadata resp)
    (hm : ¬ Harmless metadata) (hcode : e.code = codeAborted)
    (hlong : (declaredLength metadata).getD 0 < (json.errorBody e.toGo).length)
    (hpools : ∀ name pool, pools.get name = some pool →
      ∃ err, pool.decompress (json.errorBody e.toGo) 0 = .error err)
    (hstray : metadata.collect straySpellings ≠ [] → resp.body.last.isExactly .eof = false) :
    ∃ a, validateResponse json pools resp = some a ∧ a.code ≠ codeAborted := by
  have hstatus : resp.statusCode = 409 := by
    rw [hresp.statusCode, hcode]
    rfl
  have hhttp : (httpError resp).code ≠ codeAborted := by
    show tripleHTTPToCode resp.statusCode ≠ _
    rw [hstatus]
    decide
  have hne : resp.statusCode ≠ 200 := by
    rw [hstatus]
    decide
  by_cases hknown : unknownEncoding pools
      (getHeaderCanonical resp.header tripleUnaryHeaderCompression) = true
  · refine ⟨_, if_pos hknown, ?_⟩
    show codeInternal ≠ codeAborted
    decide
  · rw [Bool.not_eq_true] at hknown
    by_cases hs : metadata.collect straySpellings = []
    swap
    · exact ⟨_, validateResponse_of_broken hne hknown (hstray hs), hhttp⟩
    cases hlen : declaredLength metadata with
    | some n =>
      rw [hlen, getD_some] at hlong
      exact ⟨_, validateResponse_of_broken hne hknown (hresp.broken hs n hlen (by omega)), hhttp⟩
    | none =>
      -- the encoding is one that a decompressor is registered for
      obtain ⟨hbody, hlast⟩ := hresp.body hs hlen
      have henc := hresp.compression
      obtain ⟨pool, hget⟩ := get_of_known hknown (by rw [henc]; exact fun h => hm ⟨h, hlen, hs⟩)
      obtain ⟨err, herr⟩ := hpools _ _ hget
      have hdata : json.errorBody e.toGo ≠ [] := ne_nil_of_length_pos (by omega)
      rw [validateResponse_of_clean hne hknown hlast, hbody,
        TripleUnaryUnmarshaler.decode_of_rejected _ _ hget hdata herr]
      exact ⟨_, rfl, hhttp⟩

end Metadata

theorem exists_long_of_injective {f : String → Str} (hf : Function.Injective f) (n : ℕ) : ∃ s, n < (f s).length := by
  by_contra h
  simp only [not_exists, not_lt] at h
  refine Set.infinite_range_of_injective hf ((finite_length_le UInt8 n).subset ?_)
  rintro _ ⟨s, rfl⟩
  exact h s

theorem carriedError_aborted {json : JsonCodec} (statusLine : ℕ → Str) {msg : Str}
    (hjson : json.Inverts (abortedError msg)) (hmsg : validUtf8 msg = true) :
    SameError (carriedError json statusLine (abortedError msg)) (abortedError msg) := by
  obtain ⟨data, wire, hdata, hwire, hsame⟩ :=
    wireError_roundtrip hjson (show 1 ≤ codeAborted by decide) (show codeAborted ≤ 17 by decide) hmsg nofun
  unfold carriedError JsonCodec.errorBody
  rw [hdata]
  rw [hwire]
  exact hsame

theorem errorBody_aborted_injective {json : JsonCodec}
    (hjson : ∀ msg, validUtf8 msg = true → json.Inverts (abortedError msg)) :
    Function.Injective fun s => json.errorBody (abortedError (str s)).toGo := by
  intro s t h
  dsimp only at h
  have hs := carriedError_aborted (fun _ => []) (hjson _ (validUtf8_str s)) (validUtf8_str s)
  have ht := carriedError_aborted (fun _ => []) (hjson _ (validUtf8_str t)) (validUtf8_str t)
  have heq : carriedError json (fun _ => []) (abortedError (str s)) =
      carriedError json (fun _ => []) (abortedError (str t)) := by
    unfold carriedError
    rw [h]
    rfl
  rw [heq] at hs
  exact str_injective (hs.message.symm.trans ht.message)

/-- The client gets the same of an error with these metadata as of the error without any. -/
def KeepsErrors (json : JsonCodec) (pools : CompressionPools) (statusLine : ℕ → Str)
    (hc : TripleUnaryHandlerConn) (metadata : Header) : Prop :=
  ∀ (e : Error) (bodyClosed bodyClosed' : Option GoErr) (resp resp' : Response),
    (hc.close json bodyClosed (some (e.withMetadata metadata).toGo)).2.responseWriter.Delivers statusLine resp →
    (hc.close json bodyClosed' (some (e.withMetadata Header.empty).toGo)).2.responseWriter.Delivers statusLine resp' →
    ∃ a b, validateResponse json pools resp = some a ∧ validateResponse json pools resp' = some b ∧ SameError a b

/-- Metadata leave every error as it is just when they say nothing about the coding or the length of
the body.  No document of an aborted call is a compressed stream of a registered decompressor. -/
theorem metadata_harmless_iff (json : JsonCodec) (pools : CompressionPools) (statusLine : ℕ → Str)
    (hc : TripleUnaryHandlerConn) (hfresh : hc.Fresh) (metadata : Header)
    (hjson : ∀ message, validUtf8 message = true → json.Inverts (abortedError message))
    (hpools : ∀ name pool, pools.get name = some pool → ∀ message,
      ∃ err, pool.decompress (json.errorBody (abortedError message).toGo) 0 = .error err) :
    KeepsErrors json pools statusLine hc metadata ↔ Harmless metadata := by
  constructor
  · intro h
    by_contra hm
    obtain ⟨s, hlong⟩ := exists_long_of_injective (errorBody_aborted_injective hjson)
      ((declaredLength metadata).getD 0)
    obtain ⟨header, hsent, -, -, hcollect⟩ :=
      close_sent_of_fresh json hfresh none (abortedError (str s)) metadata
    obtain ⟨header', hsent', -⟩ :=
      close_sent_of_fresh json hfresh none (abortedError (str s)) Header.empty
    obtain ⟨resp, hresp, hstray⟩ := ResponseWriter.exists_delivers statusLine hsent
    obtain ⟨resp', hresp', -⟩ := ResponseWriter.exists_delivers statusLine hsent'
    obtain ⟨a, b, ha, hb, hab⟩ := h (abortedError (str s)) none none resp resp' hresp hresp'
    obtain ⟨a', ha', hcode⟩ := validateResponse_of_harmful (answers_of_delivers hfresh hresp) hm rfl
      hlong (fun name pool hget => hpools name pool hget (str s)) (hcollect ▸ hstray)
    obtain ⟨b', hb', hsame⟩ := validateResponse_of_harmless pools (answers_of_delivers hfresh hresp') harmless_empty
    have hcarried := carriedError_aborted statusLine (hjson _ (validUtf8_str s)) (validUtf8_str s)
    rw [ha, some.injEq] at ha'
    rw [hb, some.injEq] at hb'
    subst ha' hb'
    exact hcode ((hab.trans hsame).trans hcarried).code
  · intro hm e bodyClosed bodyClosed' resp resp' hresp hresp'
    obtain ⟨a, ha, hae⟩ := validateResponse_of_harmless pools (answers_of_delivers hfresh hresp) hm
    obtain ⟨b, hb, hbe⟩ := validateResponse_of_harmless pools (answers_of_delivers hfresh hresp') harmless_empty
    exact ⟨a, b, ha, hb, hae.trans hbe.symm⟩

theorem abortedJSON_inverts (message : Str) : abortedJSON.Inverts (abortedError message) where
  detail := nofun
  compact := nofun
  error := by
    intro _ raws hraws _
    obtain rfl : [] = raws := Except.ok.inj hraws
    refine ⟨_, rfl, ?_⟩
    have hhead : str "\x7b\"code\":\"" ++ codeString codeAborted ++ str "\",\"message\":\"" =
        abortedHead := by decide
    have hname : codeString codeAborted = str "aborted" := by decide
    have htail : (message ++ str "\"\x7d").dropLast.dropLast = message := by
      rw [show str "\"\x7d" = [34] ++ [125] by decide, ← append_assoc, dropLast_concat, dropLast_concat]
    show abortedJSON.unmarshalError (str "\x7b\"code\":\"" ++ codeString codeAborted ++
      str "\",\"message\":\"" ++ message ++ str "\"\x7d") = .ok ⟨some (codeString codeAborted), message, []⟩
    rw [hhead, hname, append_assoc]
    dsimp only [abortedJSON]
    rw [if_pos (hasPrefix_append _ _), trimPrefix_append, htail]

def traceMetadata : Header := setHeaderCanonical Header.empty (str "X-Trace") (str "1")

theorem trace_keeps_errors : Harmless traceMetadata ∧
      KeepsErrors abortedJSON noCompression conflictLine protoConn traceMetadata := by
  have habsent : ∀ {name name' : Str}, name' ∈ spellings name →
      (str "X-Trace").map toLower ≠ name.map toLower → traceMetadata name' = none := by
    intro name name' h hne
    exact Function.update_of_ne (ne_of_mem_spellings h hne) _ _
  have hm : Harmless traceMetadata :=
    harmless_of_absent (fun _ h => habsent h (by decide)) fun _ h => habsent h (by decide)
  exact ⟨hm, (metadata_harmless_iff abortedJSON noCompression conflictLine protoConn (newConn_fresh _ _)
    traceMetadata (fun msg _ => abortedJSON_inverts msg)
    (fun name pool h => by
      have hnone : noCompression.get name = none := ite_self _
      rw [hnone] at h
      cases h)).2 hm⟩

def brMetadata : Header :=
  setHeaderCanonical Header.empty tripleUnaryHeaderCompression (str "br")

/-- With a content encoding among its metadata, an aborted call is reported as an internal error. -/
theorem content_encoding_replaces_error :
    ∃ resp resp' a b,
      (protoConn.close abortedJSON none
        (some ((abortedError (str "boom")).withMetadata brMetadata).toGo)).2.responseWriter.Delivers
          conflictLine resp ∧
      (protoConn.close abortedJSON none
        (some ((abortedError (str "boom")).withMetadata Header.empty).toGo)).2.responseWriter.Delivers
          conflictLine resp' ∧
      validateResponse abortedJSON noCompression resp = some a ∧ a.code = codeInternal ∧
      validateResponse abortedJSON noCompression resp' = some b ∧ b.code = codeAborted := by
  obtain ⟨resp, hresp⟩ := exists_aborted_response brMetadata
  obtain ⟨resp', hresp'⟩ := exists_aborted_response Header.empty
  have hfresh : protoConn.Fresh := newConn_fresh _ _
  have hencoding := (answers_of_delivers (e := abortedError (str "boom")) hfresh hresp).compression
  have hbr : getHeaderCanonical brMetadata.received tripleUnaryHeaderCompression = str "br" :=
    Header.getHeaderCanonical_received_set (by decide) (by decide) fun _ _ _ => rfl
  have hunknown : unknownEncoding noCompression
      (getHeaderCanonical resp.header tripleUnaryHeaderCompression) = true := by
    rw [hencoding, hbr]
    decide
  obtain ⟨b, hb, hsame⟩ := validateResponse_of_harmless noCompression
    (answers_of_delivers (e := abortedError (str "boom")) hfresh hresp') harmless_empty
  have hcarried := carriedError_aborted conflictLine (abortedJSON_inverts (str "boom"))
    (validUtf8_str _)
  exact ⟨resp, resp', _, b, hresp, hresp', if_pos hunknown, rfl, hb, (hsame.trans hcarried).code⟩

end DubboGo.Triple
