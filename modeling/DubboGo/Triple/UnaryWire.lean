import DubboGo.Triple.HTTP
import DubboGo.Triple.UnaryMessage

/-!
# Errors on the Triple unary wire

`tripleUnaryHandlerConn.Close` writes an error as an HTTP status, the error's metadata among the
response headers, and a JSON document; `tripleUnaryClientConn.validateResponse` reads it back
(`protocol_triple.go`).
-/

namespace DubboGo.Triple

open Go

def headerContentType : Str := str "Content-Type"
def tripleUnaryHeaderAcceptCompression : Str := str "Accept-Encoding"
def tripleUnaryTrailerPrefix : Str := str "Trailer-"
def tripleUnaryContentTypeJSON : Str := str "application/json"

/-! ## The JSON document -/

/-- The fields of a document as `json.Unmarshal` finds them: the text of the code if there is one,
the message, and the text of each detail. -/
structure JsonError where
  code : Option Str
  message : Str
  details : List Str

/-- The uses of `encoding/json`: the two structs of the wire format, in both directions.  A detail
that was marshalled goes into a document in compact form. -/
structure JsonCodec where
  marshalDetail : (type value : Str) → (debug : Option Str) → Except GoErr Str
  unmarshalDetail : Str → Except GoErr (Str × Str)
  marshalError : (code message : Str) → (details : List Str) → Except GoErr Str
  unmarshalError : Str → Except GoErr JsonError
  compact : Str → Str
  /-- `protoJSONCodec.Marshal` on a detail. -/
  protoJSON : Any → Except GoErr Str

/-- `tripleWireError`; a `tripleWireDetail` is an `ErrorDetail`. -/
structure TripleWireError where
  code : Code
  message : Str
  details : List ErrorDetail

namespace JsonCodec

variable (json : JsonCodec)

def debug (pb : Any) : Option Str :=
  match json.protoJSON pb with
  | .ok text => if 2 < text.length then some text else none
  | .error _ => none

/-- `tripleWireDetail.MarshalJSON`. -/
def marshalWireDetail (d : ErrorDetail) : Except GoErr Str :=
  if d.wireJSON ≠ [] then .ok d.wireJSON
  else json.marshalDetail (trimPrefix d.pb.typeUrl defaultAnyResolverPrefix)
    (Base64.rawEncode d.pb.value) (json.debug d.pb)

/-- `tripleWireDetail.UnmarshalJSON`. -/
def unmarshalWireDetail (data : Str) : Except GoErr ErrorDetail :=
  match json.unmarshalDetail data with
  | .error e => .error e
  | .ok (type, value) =>
    let typeUrl := if (47 : UInt8) ∈ type then type else defaultAnyResolverPrefix ++ type
    match decodeBinaryHeader value with
    | none => .error (.wrap (str "decode base64: ") (.plain (str "illegal base64 data at input byte")))
    | some decoded => .ok ⟨⟨typeUrl, decoded⟩, data⟩

/-- `json.Marshal` of a `tripleWireError`. -/
def marshalWireError (wire : TripleWireError) : Except GoErr Str :=
  match wire.details.mapM json.marshalWireDetail with
  | .error e => .error e
  | .ok details => json.marshalError (codeString wire.code) wire.message details

/-- `json.Unmarshal` into a `tripleWireError`; a document without a code leaves it at zero. -/
def unmarshalWireError (data : Str) : Except GoErr TripleWireError :=
  match json.unmarshalError data with
  | .error e => .error e
  | .ok doc =>
    match (doc.code.map unmarshalText).getD (.ok 0) with
    | .error text => .error (.plain text)
    | .ok code =>
      match doc.details.mapM json.unmarshalWireDetail with
      | .error e => .error e
      | .ok details => .ok ⟨code, doc.message, details⟩

end JsonCodec

def newTripleWireError (err : GoErr) : TripleWireError :=
  match asError err with
  | some tripleErr => ⟨tripleErr.code, tripleErr.message, tripleErr.details⟩
  | none => ⟨codeUnknown, err.text Error.render, []⟩

def JsonCodec.errorBody (json : JsonCodec) (err : GoErr) : Str :=
  match json.marshalWireError (newTripleWireError err) with
  | .ok data => data
  | .error _ => []

def TripleWireError.asError (wire : TripleWireError) : Error :=
  let code := if (wire.code < minCode ∨ maxCode < wire.code) ∧ wire.code ≠ codeBizError
    then codeUnknown else wire.code
  { newWireError code (some (.plain wire.message)) with details := wire.details }

/-! ## Statuses -/

def tripleCodeToHTTP (code : Code) : ℕ :=
  if code = codeCanceled then 408
  else if code = codeUnknown then 500
  else if code = codeInvalidArgument then 400
  else if code = codeDeadlineExceeded then 408
  else if code = codeNotFound then 404
  else if code = codeAlreadyExists then 409
  else if code = codePermissionDenied then 403
  else if code = codeResourceExhausted then 429
  else if code = codeFailedPrecondition then 412
  else if code = codeAborted then 409
  else if code = codeOutOfRange then 400
  else if code = codeUnimplemented then 404
  else if code = codeInternal then 500
  else if code = codeUnavailable then 503
  else if code = codeDataLoss then 500
  else if code = codeUnauthenticated then 401
  else 500

def tripleHTTPToCode (httpCode : ℕ) : Code :=
  match httpCode with
  | 400 => codeInvalidArgument
  | 401 => codeUnauthenticated
  | 403 => codePermissionDenied
  | 404 => codeUnimplemented
  | 408 => codeDeadlineExceeded
  | 412 => codeFailedPrecondition
  | 413 => codeResourceExhausted
  | 429 => codeUnavailable
  | 431 => codeResourceExhausted
  | 502 | 503 | 504 => codeUnavailable
  | _ => codeUnknown

/-! ## The server's side -/

/-- The sending half of a `tripleUnaryHandlerConn`. -/
structure TripleUnaryHandlerConn where
  responseWriter : ResponseWriter
  responseTrailer : Header
  wroteBody : Bool

namespace TripleUnaryHandlerConn

/-- The connection that `tripleHandler.NewConn` opens for a request of this content type. -/
def newConn (pools : CompressionPools) (contentType : Str) : TripleUnaryHandlerConn where
  responseWriter :=
    { header := setHeaderCanonical (setHeaderCanonical Header.empty headerContentType contentType)
        tripleUnaryHeaderAcceptCompression pools.commaSeparatedNames
      sent := none
      body := [] }
  responseTrailer := Header.empty
  wroteBody := false

variable (hc : TripleUnaryHandlerConn)

def metadataOf (err : Option GoErr) : Header :=
  match err.bind asError with
  | some tripleErr => tripleErr.metadata
  | none => Header.empty

def addTrailers (header trailer : Header) : Header := fun key =>
  match if hasPrefix key tripleUnaryTrailerPrefix
    then trailer (trimPrefix key tripleUnaryTrailerPrefix) else none with
  | some values => some values
  | none => header key

def writeResponseHeader (err : Option GoErr) : TripleUnaryHandlerConn :=
  { hc with
    responseWriter := { hc.responseWriter with
      header := addTrailers (mergeHeaders hc.responseWriter.header (metadataOf err)) hc.responseTrailer } }

/-- The header of the response when `Close` is called with `err`. -/
def closeHeader (err : Option GoErr) : Header :=
  (if hc.wroteBody then hc else hc.writeResponseHeader err).responseWriter.header

/-- `Close`; `bodyClosed` is the error of closing the body of the request. -/
def close (json : JsonCodec) (bodyClosed : Option GoErr) (err : Option GoErr) :
    Option GoErr × TripleUnaryHandlerConn :=
  let hc := if hc.wroteBody then hc else hc.writeResponseHeader err
  match err with
  | none => (bodyClosed, hc)
  | some err =>
    let w := { hc.responseWriter with
      header := setHeaderCanonical hc.responseWriter.header headerContentType tripleUnaryContentTypeJSON }
    let w := w.writeHeader (tripleCodeToHTTP (codeOf err))
    match json.marshalWireError (newTripleWireError err) with
    | .error _ =>
      (some (errorfWrap codeInternal (str "marshal error: ") err).toGo, { hc with responseWriter := w })
    | .ok data => (bodyClosed, { hc with responseWriter := w.write data })

end TripleUnaryHandlerConn

/-! ## The client's side -/

def unknownEncoding (pools : CompressionPools) (encoding : Str) : Bool :=
  encoding ≠ [] ∧ encoding ≠ compressionIdentity ∧ ¬ pools.contains encoding

def httpError (resp : Response) : Error :=
  newError (tripleHTTPToCode resp.statusCode) (some (.plain resp.status))

def responseMetadata (h : Header) : Header :=
  mergeHeaders (fun key => if hasPrefix key tripleUnaryTrailerPrefix then none else h key)
    fun key => h (tripleUnaryTrailerPrefix ++ key)

def validateResponse (json : JsonCodec) (pools : CompressionPools) (resp : Response) : Option Error :=
  let compression := getHeaderCanonical resp.header tripleUnaryHeaderCompression
  if unknownEncoding pools compression then
    some (errorf codeInternal (str "unknown encoding " ++ quote compression ++
      str ": accepted encodings are " ++ pools.commaSeparatedNames))
  else if resp.statusCode ≠ 200 then
    let unmarshaler : TripleUnaryUnmarshaler := ⟨resp.body, pools.get compression, 0, false⟩
    match (unmarshaler.unmarshalFunc (str "*triple_protocol.tripleWireError") json.unmarshalWireError).1 with
    | .error _ => some (httpError resp)
    | .ok wireErr => some { wireErr.asError with metadata := responseMetadata resp.header }
  else none

/-! ## Results -/

section Results

variable {json : JsonCodec} {pools : CompressionPools} {resp : Response}

theorem validateResponse_eq_none_iff : validateResponse json pools resp = none ↔ resp.statusCode = 200 ∧
        unknownEncoding pools (getHeaderCanonical resp.header tripleUnaryHeaderCompression) = false := by
  unfold validateResponse
  dsimp only
  split_ifs with h1 h2
  · simp [h1]
  · split <;> simp [h2]
  · simp only [not_not] at h2
    simp [h1, h2]

theorem validateResponse_of_clean (hstatus : resp.statusCode ≠ 200)
    (henc : unknownEncoding pools (getHeaderCanonical resp.header tripleUnaryHeaderCompression) =
      false) (hlast : resp.body.last = .eof) :
    validateResponse json pools resp = some
      (match (⟨resp.body, pools.get (getHeaderCanonical resp.header tripleUnaryHeaderCompression), 0,
          false⟩ : TripleUnaryUnmarshaler).decode (str "*triple_protocol.tripleWireError")
            json.unmarshalWireError resp.body.pending with
        | .error _ => httpError resp
        | .ok wireErr => { wireErr.asError with metadata := responseMetadata resp.header }) := by
  unfold validateResponse
  dsimp only
  rw [henc, if_neg (by decide), if_pos hstatus,
    TripleUnaryUnmarshaler.unmarshalFunc_of_clean _ _ rfl hlast (.inl le_rfl)]
  split <;> rename_i h <;> rw [h]

theorem validateResponse_of_broken (hstatus : resp.statusCode ≠ 200)
    (henc : unknownEncoding pools (getHeaderCanonical resp.header tripleUnaryHeaderCompression) =
      false) (hlast : resp.body.last.isExactly .eof = false) :
    validateResponse json pools resp = some (httpError resp) := by
  unfold validateResponse
  dsimp only
  rw [henc, if_neg (by decide), if_pos hstatus]
  unfold TripleUnaryUnmarshaler.unmarshalFunc
  rw [if_neg Bool.false_ne_true]
  dsimp only
  rw [show readLimit 0 = none from rfl, ChunkReader.readFrom_broken poolRoom resp.body hlast]

theorem ite_ne_of_ne {c : Prop} [Decidable c] {a b k : ℕ} (ha : a ≠ k) (hb : b ≠ k) : (if c then a else b) ≠ k := by
  split_ifs
  · exact ha
  · exact hb

theorem tripleCodeToHTTP_ne_ok (code : Code) : tripleCodeToHTTP code ≠ 200 := by
  repeat' apply ite_ne_of_ne
  all_goals decide

variable (json) (hc : TripleUnaryHandlerConn) (bodyClosed : Option GoErr) (err : GoErr)

/-- `Close` sends the status and headers of the error, unless something has been sent. -/
theorem close_sent : (hc.close json bodyClosed (some err)).2.responseWriter.sent =
      hc.responseWriter.sent.or (some (tripleCodeToHTTP (codeOf err),
        setHeaderCanonical (hc.closeHeader (some err)) headerContentType tripleUnaryContentTypeJSON)) := by
  have hsent : (if hc.wroteBody then hc else hc.writeResponseHeader (some err)).responseWriter.sent =
      hc.responseWriter.sent := by
    split_ifs <;> rfl
  unfold TripleUnaryHandlerConn.close TripleUnaryHandlerConn.closeHeader
  dsimp only
  split
  · rw [← hsent]
    rfl
  · rw [← hsent]
    cases (if hc.wroteBody then hc else hc.writeResponseHeader (some err)).responseWriter.sent <;> rfl

theorem close_body : (hc.close json bodyClosed (some err)).2.responseWriter.body =
      hc.responseWriter.body ++ json.errorBody err := by
  have hbody : (if hc.wroteBody then hc else hc.writeResponseHeader (some err)).responseWriter.body =
      hc.responseWriter.body := by
    split_ifs <;> rfl
  unfold TripleUnaryHandlerConn.close JsonCodec.errorBody
  dsimp only
  cases json.marshalWireError (newTripleWireError err) with
  | error e => rw [List.append_nil, ← hbody]; rfl
  | ok data => rw [← hbody]; rfl

end Results

end DubboGo.Triple
