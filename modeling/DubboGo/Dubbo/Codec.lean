import DubboGo.Dubbo.Serializer
import DubboGo.Go.Binary
import DubboGo.Go.Bufio
import DubboGo.Remoting.Exchange

/-!
# The Dubbo codec

`ProtocolCodec` of `protocol/dubbo/impl/codec.go`, which puts a header of 16 bytes in front of a body and reads it
back, and `DubboCodec` of `protocol/dubbo/dubbo_codec.go`, which turns requests and responses into packages and back.
-/

namespace DubboGo.Dubbo

open Go Lib Remoting List

/-! ## Packages -/

def headerLength : ℕ := 16
def magicHigh : UInt8 := 0xda
def magicLow : UInt8 := 0xbb
def flagRequest : UInt8 := 0x80
def flagTwoWay : UInt8 := 0x40
def flagEvent : UInt8 := 0x20
def serialMask : UInt8 := 0x1f

def sHessian2 : UInt8 := 2
def sProto : UInt8 := 21

def packageRequest : UInt8 := 0x02
def packageResponse : UInt8 := 0x04
def packageHeartbeat : UInt8 := 0x08
def packageRequestTwoWay : UInt8 := 0x10
def packageResponseException : UInt8 := 0x20

/-- `DubboHeader`; of the type only the lowest six bits are used. -/
structure DubboHeader where
  serialID : UInt8
  type : UInt8
  id : Int64
  bodyLen : ℕ
  responseStatus : UInt8

namespace DubboHeader

/-- `DubboHeader{}`. -/
def zero : DubboHeader := ⟨0, 0, 0, 0, 0⟩

variable (header : DubboHeader)

def isHeartBeat : Bool := header.type &&& packageHeartbeat ≠ 0

def isRequest : Bool := header.type &&& (packageRequestTwoWay ||| packageRequest) ≠ 0

def isResponse : Bool := header.type = packageResponse

def isResponseWithException : Bool :=
  header.type &&& (packageResponse ||| packageResponseException) = packageResponse ||| packageResponseException

end DubboHeader

/-- `DubboPackage` as it is written.  Its body is one of the payloads. -/
structure DubboPackage (ο : Type) where
  header : DubboHeader
  service : Service
  request : RequestPayload ο
  response : ResponsePayload ο (Value ο)

/-- `Invocation`, as far as the codec uses it.  Reading a nil map of attachments is reading an empty one. -/
structure Invocation (ο : Type) where
  methodName : Str
  arguments : List (Value ο)
  attachments : FiniteMap Str (Value ο)

/-- `result.RPCResult`, without the business error, which the codec does not use. -/
structure RPCResult (ο ρ : Type) where
  rest : ρ
  err : Option (Exception ο)
  attrs : FiniteMap Str (Value ο)

inductive ResultBox (ο ρ : Type) where
  | value (result : RPCResult ο ρ)
  | pointer (result : Option (RPCResult ο ρ))
  | other

/-- `DecodeResult`.  The object in the result of a response is the reply, as it is after the call. -/
inductive DecodeResult (ο ω : Type) where
  | request (request : Request (Invocation ο))
  | response (response : Response (Exception ο) (RPCResult ο (Option ω)))

abbrev PendingTable (ο ω : Type) := Exchange.State (Exception ο) (RPCResult ο (Option ω)) ω

/-- What `Unmarshal` makes of the body. -/
inductive Body (ο ω : Type) where
  | untouched
  | request (service : Service) (body : RequestBody ο)
  | response (payload : ResponsePayload ο (Option ω))

variable {ο ω : Type} (h : Hessian ο ω)

/-! ## Writing -/

def headerBytes (flags status : UInt8) : Str :=
  [magicHigh, magicLow, flags, status, 0, 0, 0, 0, 0, 0, 0, 0, 0, 0, 0, 0]

def dubboRequestHeaderBytesTwoWay : Str := headerBytes (flagRequest ||| flagTwoWay) 0
def dubboRequestHeaderBytes : Str := headerBytes flagRequest 0
def dubboResponseHeaderBytes : Str := headerBytes 0 responseOK
def dubboRequestHeartbeatHeader : Str := headerBytes (flagRequest ||| flagTwoWay ||| flagEvent) 0
def dubboResponseHeartbeatHeader : Str := headerBytes flagEvent 0

/-- `binary.BigEndian.PutUint…(array[i:], n)`, of which the lowest bytes are kept. -/
def putAt (i width n : ℕ) (array : Str) : Str :=
  array.take i ++ putUint width n ++ array.drop (i + width)

def marshal (p : DubboPackage ο) : Except (Fault ο) Str :=
  if p.header.isRequest then (marshalRequest h p.service p.request).mapError .error
  else marshalResponse h p.header.responseStatus p.header.isHeartBeat p.response

def packRequest (p : DubboPackage ο) : Except (Fault ο) Str := do
  let byteArray :=
    if p.header.type = packageHeartbeat then dubboRequestHeartbeatHeader
    else if p.header.type = packageRequestTwoWay then dubboRequestHeaderBytesTwoWay
    else dubboRequestHeaderBytes
  let byteArray := byteArray.modify 2 (· ||| (p.header.serialID &&& serialMask))
  let byteArray := putAt 4 8 p.header.id.toUInt64.toNat byteArray
  let body ← if p.header.isHeartBeat then pure [78] else marshal h p
  return putAt 12 4 body.length (byteArray ++ body)

def packResponse (p : DubboPackage ο) : Except (Fault ο) Str := do
  let byteArray := if p.header.isHeartBeat then dubboResponseHeartbeatHeader else dubboResponseHeaderBytes
  let byteArray := byteArray.modify 2 (· ||| (p.header.serialID &&& serialMask))
  let byteArray := if p.header.responseStatus ≠ 0 then byteArray.set 3 p.header.responseStatus else byteArray
  let byteArray := putAt 4 8 p.header.id.toUInt64.toNat byteArray
  let body ← marshal h p
  return putAt 12 4 body.length byteArray ++ body

def encode (p : DubboPackage ο) : Except (Fault ο) Str :=
  if p.header.type = packageHeartbeat then
    if p.header.responseStatus = 0 then packRequest h p else packResponse h p
  else if p.header.type = packageRequest ∨ p.header.type = packageRequestTwoWay then packRequest h p
  else if p.header.type = packageResponse then packResponse h p
  else .error (.error (.message (str "unrecognized message type: " ++ itoa p.header.type.toNat)))

namespace Invocation

variable (invocation : Invocation ο)

def getAttachment (key : Str) : Option Str :=
  match invocation.attachments.lookup key with
  | some (.string s) => some s
  | some (.strings (s :: _)) => some s
  | _ => none

def getAttachmentWithDefaultValue (key defaultValue : Str) : Str :=
  (invocation.getAttachment key).getD defaultValue

def service (timeout : ℤ) : Service where
  path := invocation.getAttachmentWithDefaultValue pathKey []
  interface := invocation.getAttachmentWithDefaultValue interfaceKey []
  group := invocation.getAttachmentWithDefaultValue groupKey []
  version := invocation.getAttachmentWithDefaultValue versionKey []
  method := invocation.methodName
  timeout := Int64.ofInt timeout * 1000000

def serialization : Str := invocation.getAttachmentWithDefaultValue (str "serialization") (str "hessian2")

end Invocation

def Service.empty : Service := ⟨[], [], [], [], [], 0⟩

def RequestPayload.empty : RequestPayload ο := ⟨[], ∅⟩

def ResponsePayload.empty : ResponsePayload ο (Value ο) := ⟨.nil, none, ∅⟩

def encodeHeartbeatRequest (request : Request (Invocation ο)) : Except (Fault ο) Str :=
  encode h ⟨⟨sHessian2, packageHeartbeat, request.id, 0, 0⟩, .empty, .empty, .empty⟩

def requestPackage (request : Request (Invocation ο)) (invocation : Invocation ο) (timeout : ℤ) : DubboPackage ο where
  header :=
    { serialID := if invocation.serialization = str "protobuf" then sProto else sHessian2
      type := if request.twoWay then packageRequestTwoWay else packageRequest
      id := request.id
      bodyLen := 0
      responseStatus := 0 }
  service := invocation.service timeout
  request := ⟨invocation.arguments, invocation.attachments⟩
  response := .empty

/-- `DubboCodec.EncodeRequest`.  `LoadSerializer` panics for the serialization that has no serializer. -/
def encodeRequest (request : Request (Invocation ο)) : Except (Fault ο) Str :=
  if request.event then encodeHeartbeatRequest h request
  else
    match request.data with
    | none => .error (.error (.message (str "encode request failed for parameter type")))
    | some invocation =>
      match parseInt (invocation.getAttachmentWithDefaultValue timeoutKey (itoa 1000)) 10 64 with
      | .error _ => .error (.error (.message (str "strconv.Atoi")))
      | .ok timeout =>
        let p := requestPackage request invocation timeout
        if p.header.serialID = sProto then .error (.panic .serializerNotFound) else encode h p

def rpcResultFromResponse : Option (ResultBox ο (Value ο)) → Except (Fault ο) (RPCResult ο (Value ο))
  | some (.value result) => .ok result
  | some (.pointer (some result)) => .ok result
  | some (.pointer none) => .error (.error (.message (str "dubbo response result is a nil *result.RPCResult")))
  | _ => .error (.error (.message (str "dubbo response result has unexpected type")))

def responsePackage (response : Response (Exception ο) (ResultBox ο (Value ο)))
    (payload : ResponsePayload ο (Value ο)) : DubboPackage ο where
  header :=
    { serialID := response.serialID
      type := if response.isHeartbeat then packageHeartbeat else packageResponse
      id := response.id
      bodyLen := 0
      responseStatus := response.status }
  service := .empty
  request := .empty
  response := payload

/-- `DubboCodec.EncodeResponse`. -/
def encodeResponseMessage (response : Response (Exception ο) (ResultBox ο (Value ο))) : Except (Fault ο) Str :=
  if response.isHeartbeat then encode h (responsePackage response .empty)
  else do
    let result ← rpcResultFromResponse response.result
    encode h (responsePackage response ⟨result.rest, result.err, result.attrs⟩)

/-! ## Reading -/

def packageType (flags status type : UInt8) : UInt8 :=
  let type := if flags &&& flagEvent ≠ 0 then type ||| packageHeartbeat else type
  if flags &&& flagRequest ≠ 0 then
    let type := type ||| packageRequest
    if flags &&& flagTwoWay ≠ 0 then type ||| packageRequestTwoWay else type
  else
    let type := type ||| packageResponse
    if status ≠ responseOK then type ||| packageResponseException else type

/-- The fields of a header; `buf` are its 16 bytes. -/
def parseHeader (buf : Str) (header : DubboHeader) : DubboHeader :=
  { serialID := buf.getD 2 0 &&& serialMask
    type := packageType (buf.getD 2 0) (buf.getD 3 0) header.type
    id := (UInt64.ofNat (uint ((buf.drop 4).take 8))).toInt64
    bodyLen := uint ((buf.drop 12).take 4)
    responseStatus := if buf.getD 2 0 &&& flagRequest ≠ 0 then header.responseStatus else buf.getD 3 0 }

/-- `ProtocolCodec.ReadHeader`.  The header is changed before an incomplete body is found out. -/
def readHeader (reader : BufioReader) (header : DubboHeader) : BufioReader × DubboHeader × Option (Err ο) :=
  if reader.size < headerLength then (reader, header, some .headerNotEnough)
  else
    match reader.peek headerLength with
    | (.error _, reader) => (reader, header, some (.message (str "Peek")))
    | (.ok buf, reader) =>
      match reader.discard headerLength with
      | .error _ => (reader, header, some (.message (str "Discard")))
      | .ok reader =>
        if buf.getD 0 0 ≠ magicHigh ∧ buf.getD 1 0 ≠ magicLow then (reader, header, some .illegalPackage)
        else if buf.getD 2 0 &&& serialMask = 0 then
          (reader, { header with serialID := 0 }, some (.message (str "serialization ID:0")))
        else
          let header := parseHeader buf header
          if reader.buffered < header.bodyLen then (reader, header, some .bodyNotEnough)
          else (reader, header, none)

def decodeBody (table : PendingTable ο ω) (header : DubboHeader) (body : Str) : Except (Fault ο) (Body ο ω) :=
  if header.isResponseWithException then do
    let (exception, _) ← read h (h.newDecoder body)
    let text ← exception.asString
    return .response ⟨none, some (.message (str "java exception:" ++ text)), ∅⟩
  else if header.isHeartBeat then return .untouched
  else if header.isResponse then
    match table.getPendingResponse header.id with
    | none => .error (.panic .nilPointer)
    | some pending => do
      let payload ← unmarshalResponseBody h body ⟨pending.reply, none, ∅⟩
      return .response payload
  else if header.isRequest then do
    let (service, body) ← unmarshalRequestBody h body
    return .request service body
  else do
    let payload ← unmarshalResponseBody h body ⟨none, none, ∅⟩
    return .response payload

/-- `ProtocolCodec.Decode` of a package whose header has not been read. -/
def decodePackage (table : PendingTable ο ω) (reader : BufioReader) : DubboHeader × Except (Fault ο) (Body ο ω) :=
  match readHeader reader .zero with
  | (_, header, some e) => (header, .error (.error e))
  | (reader, header, none) =>
    if reader.size < header.bodyLen then (header, .error (.error .bodyNotEnough))
    else
      match (reader.peek header.bodyLen).1 with
      | .error _ => (header, .error (.error (.message (str "Peek"))))
      | .ok body => (header, decodeBody h table header body)

/-- What `Decode` returns: a result, a length and an error. -/
abbrev Decoded (ο ω : Type) := Option (DecodeResult ο ω) × ℕ × Option (Err ο)

/-- The outcome of an `Unmarshal` that has failed. -/
def failed (header : DubboHeader) (e : Err ο) : Decoded ο ω :=
  match e.root with
  | .headerNotEnough => (none, 0, none)
  | .bodyNotEnough => (none, headerLength + header.bodyLen, none)
  | _ => (none, 0, some e)

def requestOf (header : DubboHeader) (body : Body ο ω) : Except Panic (Request (Invocation ο)) :=
  let request : Request (Invocation ο) :=
    { id := header.id
      version := []
      serialID := header.serialID
      data := none
      twoWay := header.type &&& packageRequestTwoWay ≠ 0
      event := header.type &&& packageHeartbeat ≠ 0 }
  if header.type &&& packageHeartbeat = 0 then
    match body with
    | .request service body =>
      .ok { request with
        version := body.dubboVersion
        data := some ⟨service.method, body.args, body.attachments⟩ }
    | _ => .error .typeAssertion
  else .ok request

def responseOf (header : DubboHeader) (body : Body ο ω) :
    Except Panic (Response (Exception ο) (RPCResult ο (Option ω))) :=
  let response : Response (Exception ο) (RPCResult ο (Option ω)) :=
    { id := header.id
      version := []
      serialID := header.serialID
      status := header.responseStatus
      event := header.type &&& packageHeartbeat ≠ 0
      error := none
      result := none }
  if header.type &&& packageHeartbeat ≠ 0 then
    if header.type &&& packageResponse ≠ 0 then .ok response else .ok { response with status := responseOK }
  else if header.type &&& packageRequest = 0 then
    match body with
    | .response payload =>
      .ok { response with
        error := payload.exception
        result := some ⟨payload.rspObj, payload.exception, payload.attachments⟩ }
    | _ => .error .typeAssertion
  else .ok { response with result := some ⟨none, none, ∅⟩ }

/-- What `decodeRequest` and `decodeResponse` have in common. -/
def decodeMessage (table : PendingTable ο ω) (data : Str)
    (message : DubboHeader → Body ο ω → Except Panic (DecodeResult ο ω)) : Except Panic (Decoded ο ω) :=
  match decodePackage h table (.newReaderSize data data.length) with
  | (_, .error (.panic p)) => .error p
  | (header, .error (.error e)) => .ok (failed header e)
  | (header, .ok body) => do
    let result ← message header body
    return (some result, headerLength + header.bodyLen, none)

def decodeRequest (table : PendingTable ο ω) (data : Str) : Except Panic (Decoded ο ω) :=
  decodeMessage h table data fun header body => (requestOf header body).map .request

def decodeResponse (table : PendingTable ο ω) (data : Str) : Except Panic (Decoded ο ω) :=
  decodeMessage h table data fun header body => (responseOf header body).map .response

def decode (table : PendingTable ο ω) (data : Str) : Except Panic (Decoded ο ω) :=
  if data.length < headerLength then .ok (none, 0, none)
  else if data.getD 2 0 &&& flagRequest ≠ 0 then decodeRequest h table data
  else decodeResponse h table data

/-! ## What is read -/

variable {h} {table : PendingTable ο ω} {data : Str}

def headerOf (data : Str) : DubboHeader := parseHeader (data.take headerLength) .zero

def bodyOf (data : Str) : Str := (data.drop headerLength).take (headerOf data).bodyLen

theorem getD_take {i n : ℕ} (hi : i < n) (data : Str) : (data.take n).getD i 0 = data.getD i 0 := by
  rw [getD_eq_getElem?_getD, getD_eq_getElem?_getD, getElem?_take_of_lt hi]

section TakeEq

variable {data' : Str} (hhead : data'.take headerLength = data.take headerLength)

include hhead

theorem getD_of_take_eq {i : ℕ} (hi : i < headerLength) : data'.getD i 0 = data.getD i 0 := by
  rw [← getD_take hi data', hhead, getD_take hi]

theorem headerOf_of_take_eq : headerOf data' = headerOf data := by
  unfold headerOf
  rw [hhead]

end TakeEq

theorem readHeader_newReaderSize (hdata : headerLength ≤ data.length) :
    readHeader (ο := ο) (.newReaderSize data data.length) .zero =
      let reader : BufioReader :=
        ⟨max data.length BufioReader.minReadBufferSize, data.drop headerLength, []⟩
      if data.getD 0 0 ≠ magicHigh ∧ data.getD 1 0 ≠ magicLow then (reader, .zero, some .illegalPackage)
      else if data.getD 2 0 &&& serialMask = 0 then
        (reader, .zero, some (.message (str "serialization ID:0")))
      else if data.length - headerLength < (headerOf data).bodyLen then
        (reader, headerOf data, some .bodyNotEnough)
      else (reader, headerOf data, none) := by
  have hpos : 0 < headerLength := by decide
  have hsize : ¬ (BufioReader.newReaderSize data data.length).size < headerLength :=
    not_lt.2 (hdata.trans (le_max_left _ _))
  have hdiscard : BufioReader.discard headerLength
      ⟨max data.length BufioReader.minReadBufferSize, data, []⟩ =
      .ok ⟨max data.length BufioReader.minReadBufferSize, data.drop headerLength, []⟩ :=
    BufioReader.discard_of_le hdata hpos
  unfold readHeader
  rw [BufioReader.peek_newReaderSize hdata hpos, if_neg hsize]
  dsimp only
  rw [hdiscard]
  dsimp only
  rw [getD_take (by decide), getD_take (by decide), getD_take (by decide), BufioReader.buffered,
    length_drop, ← headerOf]
  rfl

def Legal (data : Str) : Prop :=
  (data.getD 0 0 = magicHigh ∨ data.getD 1 0 = magicLow) ∧ data.getD 2 0 &&& serialMask ≠ 0

instance decidableLegal (data : Str) : Decidable (Legal data) := inferInstanceAs (Decidable (_ ∧ _))

theorem Legal.of_take_eq {data' : Str} (hlegal : Legal data)
    (hhead : data'.take headerLength = data.take headerLength) : Legal data' := by
  unfold Legal
  rw [getD_of_take_eq hhead (by decide), getD_of_take_eq hhead (by decide), getD_of_take_eq hhead (by decide)]
  exact hlegal

theorem Legal.magic (hlegal : Legal data) : ¬(data.getD 0 0 ≠ magicHigh ∧ data.getD 1 0 ≠ magicLow) := by
  rintro ⟨hhigh, hlow⟩
  exact hlegal.1.elim hhigh hlow

theorem decodePackage_of_complete (hlegal : Legal data) (hdata : headerLength + (headerOf data).bodyLen ≤ data.length) :
    decodePackage h table (.newReaderSize data data.length) =
      (headerOf data, decodeBody h table (headerOf data) (bodyOf data)) := by
  have hpeek : BufioReader.peek (headerOf data).bodyLen
      ⟨max data.length BufioReader.minReadBufferSize, data.drop headerLength, []⟩ =
      (.ok (bodyOf data), ⟨max data.length BufioReader.minReadBufferSize, data.drop headerLength, []⟩) := by
    refine BufioReader.peek_of_le ?_ ((by omega : _ ≤ data.length).trans (le_max_left _ _))
    rw [BufioReader.buffered, length_drop]
    omega
  have hsize : ¬ max data.length BufioReader.minReadBufferSize < (headerOf data).bodyLen :=
    not_lt.2 ((by omega : _ ≤ data.length).trans (le_max_left _ _))
  unfold decodePackage
  rw [readHeader_newReaderSize (by omega)]
  rw [if_neg hlegal.magic, if_neg hlegal.2, if_neg (by omega)]
  dsimp only
  rw [if_neg hsize, hpeek]

theorem decodePackage_of_short (hlegal : Legal data) (hheader : headerLength ≤ data.length)
    (hdata : data.length < headerLength + (headerOf data).bodyLen) :
    decodePackage h table (.newReaderSize data data.length) = (headerOf data, .error (.error .bodyNotEnough)) := by
  unfold decodePackage
  rw [readHeader_newReaderSize hheader]
  rw [if_neg hlegal.magic, if_neg hlegal.2, if_pos (by omega)]

theorem decodePackage_of_illegal (h : Hessian ο ω) (table : PendingTable ο ω) (hlegal : ¬Legal data)
    (hheader : headerLength ≤ data.length) : ∃ e, e.root = e ∧ e ≠ .bodyNotEnough ∧ e ≠ .headerNotEnough ∧
      decodePackage h table (.newReaderSize data data.length) = (.zero, .error (.error e)) := by
  by_cases hmagic : data.getD 0 0 ≠ magicHigh ∧ data.getD 1 0 ≠ magicLow
  · refine ⟨.illegalPackage, rfl, nofun, nofun, ?_⟩
    unfold decodePackage
    rw [readHeader_newReaderSize hheader]
    rw [if_pos hmagic]
  · have hserial : data.getD 2 0 &&& serialMask = 0 := by
      by_contra hserial
      refine hlegal ⟨?_, hserial⟩
      by_contra hnot
      exact hmagic (not_or.1 hnot)
    refine ⟨.message (str "serialization ID:0"), rfl, nofun, nofun, ?_⟩
    unfold decodePackage
    rw [readHeader_newReaderSize hheader]
    rw [if_neg hmagic, if_pos hserial]

def hasRequestFlag (data : Str) : Bool := data.getD 2 0 &&& flagRequest ≠ 0

def messageOf (isRequest : Bool) (header : DubboHeader) (body : Body ο ω) : Except Panic (DecodeResult ο ω) :=
  match isRequest with
  | true => (requestOf header body).map .request
  | false => (responseOf header body).map .response

theorem decode_eq_decodeMessage (hheader : headerLength ≤ data.length) :
    decode h table data = decodeMessage h table data (messageOf (hasRequestFlag data)) := by
  unfold decode
  rw [if_neg (not_lt.2 hheader)]
  cases hflag : hasRequestFlag data with
  | true => exact if_pos (of_decide_eq_true hflag)
  | false => exact if_neg (of_decide_eq_false hflag)

def outcome (h : Hessian ο ω) (table : PendingTable ο ω) (isRequest : Bool) (header : DubboHeader)
    (body : Str) : Except Panic (Decoded ο ω) :=
  match decodeBody h table header body with
  | .error (.panic p) => .error p
  | .error (.error e) => .ok (failed header e)
  | .ok body => do
    let result ← messageOf isRequest header body
    return (some result, headerLength + header.bodyLen, none)

/-- A legal header and its whole body are decoded whatever follows. -/
theorem decode_of_complete (hlegal : Legal data) (hdata : headerLength + (headerOf data).bodyLen ≤ data.length) :
    decode h table data = outcome h table (hasRequestFlag data) (headerOf data) (bodyOf data) := by
  rw [decode_eq_decodeMessage (by omega), decodeMessage, decodePackage_of_complete hlegal hdata, outcome]
  rcases decodeBody h table (headerOf data) (bodyOf data) with (p | e) | body <;> rfl

theorem decode_of_short (hlegal : Legal data) (hheader : headerLength ≤ data.length)
    (hdata : data.length < headerLength + (headerOf data).bodyLen) :
    decode h table data = .ok (none, headerLength + (headerOf data).bodyLen, none) := by
  rw [decode_eq_decodeMessage hheader, decodeMessage, decodePackage_of_short hlegal hheader hdata]
  rfl

theorem decode_of_illegal (hlegal : ¬Legal data) (hheader : headerLength ≤ data.length) :
    ∃ e, decode h table data = .ok (none, 0, some e) := by
  obtain ⟨e, hroot, hbody, hshort, hpackage⟩ := decodePackage_of_illegal h table hlegal hheader
  have hfailed : failed (ω := ω) .zero e = (none, 0, some e) := by
    unfold failed
    rw [hroot]
    split
    · exact absurd rfl hshort
    · exact absurd rfl hbody
    · rfl
  refine ⟨e, ?_⟩
  rw [decode_eq_decodeMessage hheader, decodeMessage, hpackage, ← hfailed]

theorem decode_of_headless (hheader : data.length < headerLength) :
    decode h table data = .ok (none, 0, none) := if_pos hheader

/-- What `Decode` returns: it waits, refuses, or decodes the first package. -/
theorem decode_cases (h : Hessian ο ω) (table : PendingTable ο ω) (data : Str) :
    (∃ n, decode h table data = .ok (none, n, none)) ∨ (∃ e, decode h table data = .ok (none, 0, some e)) ∨
      Legal data ∧ headerLength + (headerOf data).bodyLen ≤ data.length ∧
        decode h table data = outcome h table (hasRequestFlag data) (headerOf data) (bodyOf data) := by
  by_cases hheader : headerLength ≤ data.length
  · by_cases hlegal : Legal data
    · by_cases hdata : headerLength + (headerOf data).bodyLen ≤ data.length
      · exact .inr (.inr ⟨hlegal, hdata, decode_of_complete hlegal hdata⟩)
      · exact .inl ⟨_, decode_of_short hlegal hheader (not_le.1 hdata)⟩
    · exact .inr (.inl (decode_of_illegal hlegal hheader))
  · exact .inl ⟨0, decode_of_headless (not_le.1 hheader)⟩

/-! ## Requests and responses -/

def requestTypes : List UInt8 := [0x02, 0x12, 0x0a, 0x1a]

variable {header : DubboHeader}

theorem packageType_of_request (hflag : flags &&& flagRequest ≠ 0) (status : UInt8) :
    packageType flags status 0 ∈ requestTypes := by
  unfold packageType
  split_ifs <;> decide

section Types

variable {header : DubboHeader} {type : UInt8} (htype : header.type = type)

include htype

theorem isHeartBeat_of_type : header.isHeartBeat = decide (type &&& packageHeartbeat ≠ 0) := by
  rw [DubboHeader.isHeartBeat, htype]

theorem isRequest_of_type : header.isRequest = decide (type &&& (packageRequestTwoWay ||| packageRequest) ≠ 0) := by
  rw [DubboHeader.isRequest, htype]

theorem isResponse_of_type : header.isResponse = decide (type = packageResponse) := by
  rw [DubboHeader.isResponse, htype]

theorem isResponseWithException_of_type : header.isResponseWithException =
    decide (type &&& (packageResponse ||| packageResponseException) =
      packageResponse ||| packageResponseException) := by
  rw [DubboHeader.isResponseWithException, htype]

end Types

theorem decodeBody_of_request (htype : header.type ∈ requestTypes) (body : Str) :
    decodeBody h table header body =
      if header.isHeartBeat then .ok .untouched
      else (unmarshalRequestBody h body).map fun r => .request r.1 r.2 := by
  obtain ⟨serialID, type, id, bodyLen, responseStatus⟩ := header
  have hfacts : ∀ t ∈ requestTypes, ¬(t &&& (packageResponse ||| packageResponseException) =
      packageResponse ||| packageResponseException) ∧ t ≠ packageResponse ∧
      t &&& (packageRequestTwoWay ||| packageRequest) ≠ 0 := by decide +kernel
  obtain ⟨hexception, hresponse, hrequest⟩ := hfacts type htype
  simp only [decodeBody, DubboHeader.isResponseWithException, DubboHeader.isResponse, DubboHeader.isRequest,
    hexception, hresponse, hrequest, decide_false, Bool.false_eq_true, if_false, ne_eq, not_false_eq_true,
    decide_true, if_true]
  split_ifs
  · rfl
  · cases unmarshalRequestBody h body <;> rfl

def requestMessage (header : DubboHeader) (service : Service) (body : RequestBody ο) : Request (Invocation ο) where
  id := header.id
  version := body.dubboVersion
  serialID := header.serialID
  data := some ⟨service.method, body.args, body.attachments⟩
  twoWay := header.type &&& packageRequestTwoWay ≠ 0
  event := false

theorem outcome_of_request (htype : header.type ∈ requestTypes) (hheartbeat : header.isHeartBeat = false)
    (body : Str) :
    outcome h table true header body =
      match unmarshalRequestBody h body with
      | .error (.panic p) => .error p
      | .error (.error e) => .ok (failed header e)
      | .ok r => .ok (some (.request (requestMessage header r.1 r.2)), headerLength + header.bodyLen, none) := by
  have htwo : header.type &&& packageHeartbeat = 0 := by
    simpa [DubboHeader.isHeartBeat] using hheartbeat
  unfold outcome
  rw [decodeBody_of_request htype, hheartbeat]
  rcases unmarshalRequestBody h body with (p | e) | ⟨svc, body⟩
  · rfl
  · rfl
  · simp [Except.map, messageOf, requestOf, requestMessage, htwo, bind, Except.bind, pure, Except.pure]

theorem outcome_of_heartbeat (htype : header.type ∈ requestTypes) (hheartbeat : header.isHeartBeat = true)
    (body : Str) :
    ∃ request, outcome h table true header body =
      .ok (some (.request request), headerLength + header.bodyLen, none) := by
  have htwo : header.type &&& packageHeartbeat ≠ 0 := by
    simpa [DubboHeader.isHeartBeat] using hheartbeat
  unfold outcome
  rw [decodeBody_of_request htype, hheartbeat]
  simp [messageOf, requestOf, htwo, Except.map, bind, Except.bind, pure, Except.pure]

def responseMessage (header : DubboHeader) (payload : ResponsePayload ο (Option ω)) :
    Response (Exception ο) (RPCResult ο (Option ω)) where
  id := header.id
  version := []
  serialID := header.serialID
  status := header.responseStatus
  event := false
  error := payload.exception
  result := some ⟨payload.rspObj, payload.exception, payload.attachments⟩

theorem responseOf_payload (hheartbeat : header.type &&& packageHeartbeat = 0)
    (hrequest : header.type &&& packageRequest = 0) (pay : ResponsePayload ο (Option ω)) :
    responseOf header (.response pay) = .ok (responseMessage header pay) := by
  unfold responseOf
  rw [hheartbeat, hrequest]
  rfl

/-- What becomes of a response: without a pending entry there is a panic. -/
theorem outcome_of_response (htype : header.type = packageResponse) (body : Str) :
    outcome h table false header body =
      match table.getPendingResponse header.id with
      | none => .error .nilPointer
      | some pending =>
        match unmarshalResponseBody h body ⟨pending.reply, none, ∅⟩ with
        | .error (.panic p) => .error p
        | .error (.error e) => .ok (failed header e)
        | .ok payload =>
          .ok (some (.response (responseMessage header payload)), headerLength + header.bodyLen, none) := by
  have hexception : header.isResponseWithException = false := isResponseWithException_of_type htype
  have hheartbeat : header.isHeartBeat = false := isHeartBeat_of_type htype
  have hresponse : header.isResponse = true := isResponse_of_type htype
  have hmessage : ∀ payload, responseOf (ο := ο) (ω := ω) header (.response payload) =
      .ok (responseMessage header payload) :=
    responseOf_payload (by rw [htype]; decide) (by rw [htype]; decide)
  unfold outcome decodeBody
  rw [hexception, hheartbeat, hresponse, if_neg Bool.false_ne_true, if_neg Bool.false_ne_true, if_pos rfl]
  rcases table.getPendingResponse header.id with _ | pending
  · rfl
  · dsimp only
    rcases unmarshalResponseBody h body ⟨pending.reply, none, ∅⟩ with (p | e) | payload
    · rfl
    · rfl
    · simp only [messageOf, hmessage, Except.map, bind, Except.bind, pure, Except.pure]

theorem outcome_of_exception (htype : header.type = packageResponse ||| packageResponseException) {d : h.Decoder}
    {text : Str} (hdecode : h.decode (h.newDecoder body) = .ok (.string text, d)) :
    outcome h table false header body = .ok (some (.response (responseMessage header
      ⟨none, some (.message (str "java exception:" ++ text)), ∅⟩)), headerLength + header.bodyLen, none) := by
  have hexception : header.isResponseWithException = true := isResponseWithException_of_type htype
  have hmessage : ∀ pay, responseOf (ο := ο) (ω := ω) header (.response pay) = .ok (responseMessage header pay) :=
    responseOf_payload (by rw [htype]; decide) (by rw [htype]; decide)
  unfold outcome decodeBody read
  rw [hexception, hdecode]
  simp only [messageOf, hmessage, Except.mapError, Except.map, Value.asString, bind, Except.bind, pure,
    Except.pure, if_true]

/-- The value after the status of a failure has to be a string. -/
theorem outcome_of_exception_value (htype : header.type = packageResponse ||| packageResponseException)
    {d : h.Decoder} {v : Value ο} (hdec : h.decode (h.newDecoder body) = .ok (v, d)) (hv : ∀ text, v ≠ .string text) :
    outcome h table false header body = .error .typeAssertion := by
  have hexception : header.isResponseWithException = true := isResponseWithException_of_type htype
  have hassert : v.asString = .error (.panic .typeAssertion) := by
    cases v with
    | string text => exact absurd rfl (hv text)
    | _ => rfl
  unfold outcome decodeBody read
  rw [hexception, hdec]
  simp only [Except.mapError, hassert, bind, Except.bind, if_true]

theorem failed_fst (header : DubboHeader) (e : Err ο) : (failed (ω := ω) header e).1 = none := by
  unfold failed
  split <;> rfl

theorem outcome_eq_some {isRequest : Bool} {result : DecodeResult ο ω} {n : ℕ} {e : Option (Err ο)}
    (houtcome : outcome h table isRequest header body = .ok (some result, n, e)) : n = headerLength + header.bodyLen := by
  unfold outcome at houtcome
  split at houtcome
  · cases houtcome
  · rename_i e' _
    have hfailed := failed_fst (ω := ω) header e'
    rw [Except.ok.inj houtcome] at hfailed
    cases hfailed
  · obtain ⟨result', -, hresult⟩ := bind_eq_ok houtcome
    cases hresult
    rfl

theorem outcome_of_heartbeatResponse (htype : header.type = packageHeartbeat ||| packageResponse) (body : Str) :
    ∃ r, outcome h table false header body = .ok (some r, headerLength + header.bodyLen, none) := by
  have hexception : header.isResponseWithException = false := isResponseWithException_of_type htype
  have hheartbeat : header.isHeartBeat = true := isHeartBeat_of_type htype
  have hevent : header.type &&& packageHeartbeat ≠ 0 := of_decide_eq_true hheartbeat
  have hresponse : header.type &&& packageResponse ≠ 0 := by
    rw [htype]
    decide
  unfold outcome decodeBody messageOf responseOf
  rw [hexception, hheartbeat]
  rw [if_neg Bool.false_ne_true, if_pos rfl]
  dsimp only [pure, Except.pure]
  rw [if_pos hevent, if_pos hresponse]
  exact ⟨_, rfl⟩

/-! ## The bytes of a package -/

def frameHead (flags status : UInt8) (id : Int64) (bodyLen : ℕ) : Str :=
  [magicHigh, magicLow, flags, status] ++ putUint 8 id.toUInt64.toNat ++ putUint 4 bodyLen

@[simp]
theorem length_frameHead (flags status : UInt8) (id : Int64) (bodyLen : ℕ) :
    (frameHead flags status id bodyLen).length = headerLength := by
  simp [frameHead, headerLength]

def frame (flags status : UInt8) (id : Int64) (body : Str) : Str :=
  frameHead flags status id body.length ++ body

theorem length_frame (flags status : UInt8) (id : Int64) (body : Str) :
    (frame flags status id body).length = headerLength + body.length := by
  rw [frame, length_append, length_frameHead]

def requestFlags (type : UInt8) : UInt8 :=
  if type = packageHeartbeat then flagRequest ||| flagTwoWay ||| flagEvent
  else if type = packageRequestTwoWay then flagRequest ||| flagTwoWay
  else flagRequest

theorem packRequest_eq (p : DubboPackage ο) : packRequest h p =
    (if p.header.isHeartBeat then .ok [78] else marshal h p).map
      (frame (requestFlags p.header.type ||| (p.header.serialID &&& serialMask)) 0 p.header.id) := by
  have hhead : (if p.header.type = packageHeartbeat then dubboRequestHeartbeatHeader
      else if p.header.type = packageRequestTwoWay then dubboRequestHeaderBytesTwoWay
      else dubboRequestHeaderBytes) = headerBytes (requestFlags p.header.type) 0 := by
    unfold requestFlags
    split_ifs <;> rfl
  unfold packRequest
  rw [hhead]
  split_ifs
  · rfl
  · cases marshal h p <;> rfl

def wireStatus (header : DubboHeader) : UInt8 :=
  if header.responseStatus ≠ 0 then header.responseStatus
  else if header.isHeartBeat then 0 else responseOK

theorem packResponse_eq (p : DubboPackage ο) : packResponse h p =
    (marshal h p).map (frame ((if p.header.isHeartBeat then flagEvent else 0) |||
      (p.header.serialID &&& serialMask)) (wireStatus p.header) p.header.id) := by
  have hhead : (if p.header.isHeartBeat then dubboResponseHeartbeatHeader else dubboResponseHeaderBytes) =
      headerBytes (if p.header.isHeartBeat then flagEvent else 0)
        (if p.header.isHeartBeat then 0 else responseOK) := by
    split_ifs <;> rfl
  have hstatus : ∀ flags status, (if p.header.responseStatus ≠ 0 then
      (headerBytes flags status).set 3 p.header.responseStatus else headerBytes flags status) =
      headerBytes flags (if p.header.responseStatus ≠ 0 then p.header.responseStatus else status) := by
    intro flags status
    split_ifs <;> rfl
  have hmodify : ∀ flags status, (headerBytes flags status).modify 2
      (· ||| (p.header.serialID &&& serialMask)) =
      headerBytes (flags ||| (p.header.serialID &&& serialMask)) status := fun flags status => rfl
  unfold packResponse wireStatus
  rw [hhead]
  dsimp only
  rw [hmodify, hstatus]
  cases marshal h p <;> rfl

theorem map_eq_ok {ε α β : Type} {x : Except ε α} {f : α → β} {b : β} (hmap : x.map f = .ok b) :
    ∃ a, x = .ok a ∧ b = f a := by
  cases x with
  | error e => cases hmap
  | ok a =>
    cases hmap
    exact ⟨a, rfl, rfl⟩

section Encode

variable {p : DubboPackage ο}

theorem encode_heartbeatRequest (htype : p.header.type = packageHeartbeat) (hstatus : p.header.responseStatus = 0) :
    encode h p = .ok (frame (flagRequest ||| flagTwoWay ||| flagEvent ||| (p.header.serialID &&& serialMask)) 0
      p.header.id [78]) := by
  have hheartbeat : p.header.isHeartBeat = true := isHeartBeat_of_type htype
  unfold encode
  rw [if_pos htype, if_pos hstatus, packRequest_eq, hheartbeat, htype]
  rfl

theorem encode_heartbeatResponse (htype : p.header.type = packageHeartbeat) (hstatus : p.header.responseStatus ≠ 0) :
    encode h p = (marshalResponse h p.header.responseStatus true p.response).map
      (frame (flagEvent ||| (p.header.serialID &&& serialMask)) p.header.responseStatus p.header.id) := by
  have hheartbeat : p.header.isHeartBeat = true := isHeartBeat_of_type htype
  have hrequest : p.header.isRequest = false := isRequest_of_type htype
  unfold encode
  rw [if_pos htype, if_neg hstatus, packResponse_eq, marshal, wireStatus, if_pos hstatus, hheartbeat, hrequest]
  rfl

theorem encode_request (htype : p.header.type = packageRequest ∨ p.header.type = packageRequestTwoWay) :
    encode h p = ((marshalRequest h p.service p.request).mapError .error).map
      (frame (requestFlags p.header.type ||| (p.header.serialID &&& serialMask)) 0 p.header.id) := by
  have hheartbeat : p.header.isHeartBeat = false := by
    rw [DubboHeader.isHeartBeat]
    rcases htype with htype | htype <;> rw [htype] <;> decide
  have hrequest : p.header.isRequest = true := by
    rw [DubboHeader.isRequest]
    rcases htype with htype | htype <;> rw [htype] <;> decide
  have hne : p.header.type ≠ packageHeartbeat := by
    rcases htype with htype | htype <;> rw [htype] <;> decide
  unfold encode
  rw [if_neg hne, if_pos htype, packRequest_eq, marshal, hheartbeat, hrequest]
  rfl

theorem encode_response (htype : p.header.type = packageResponse) :
    encode h p = (marshalResponse h p.header.responseStatus false p.response).map
      (frame (p.header.serialID &&& serialMask)
        (if p.header.responseStatus ≠ 0 then p.header.responseStatus else responseOK) p.header.id) := by
  have hheartbeat : p.header.isHeartBeat = false := isHeartBeat_of_type htype
  have hrequest : p.header.isRequest = false := isRequest_of_type htype
  unfold encode
  rw [if_neg (by rw [htype]; decide), if_neg (by rw [htype]; decide), if_pos htype, packResponse_eq, marshal,
    wireStatus, hheartbeat, hrequest]
  simp

end Encode

theorem encodeRequest_cases {req : Request (Invocation ο)} {p : Str}
    (hencode : encodeRequest h req = .ok p) :
    p = frame (flagRequest ||| flagTwoWay ||| flagEvent ||| (sHessian2 &&& serialMask)) 0 req.id [78] ∨
    ∃ invocation tmo body, req.event = false ∧ req.data = some invocation ∧
      marshalRequest h (invocation.service tmo) ⟨invocation.arguments, invocation.attachments⟩ = .ok body ∧
      p = frame (requestFlags (if req.twoWay then packageRequestTwoWay else packageRequest) |||
        (sHessian2 &&& serialMask)) 0 req.id body := by
  unfold encodeRequest at hencode
  split_ifs at hencode with hevent
  · left
    rw [encodeHeartbeatRequest, encode_heartbeatRequest rfl rfl] at hencode
    cases hencode
    rfl
  · right
    split at hencode
    · cases hencode
    · rename_i invocation hdata
      split at hencode
      · cases hencode
      · rename_i tmo _
        dsimp only at hencode
        split_ifs at hencode with hproto
        have hserial : (requestPackage req invocation tmo).header.serialID = sHessian2 := by
          dsimp only [requestPackage] at hproto ⊢
          split_ifs at hproto ⊢ with hprotobuf
          · exact absurd rfl hproto
          · rfl
        have htype : (requestPackage req invocation tmo).header.type = packageRequest ∨
            (requestPackage req invocation tmo).header.type = packageRequestTwoWay := by
          dsimp only [requestPackage]
          split_ifs
          · exact .inr rfl
          · exact .inl rfl
        rw [encode_request htype, hserial] at hencode
        obtain ⟨body, hbody, rfl⟩ := map_eq_ok hencode
        refine ⟨invocation, tmo, body, by simpa using hevent, hdata, mapError_eq_ok.1 hbody, rfl⟩

theorem encodeResponseMessage_cases {resp : Response (Exception ο) (ResultBox ο (Value ο))} {p : Str}
    (hencode : encodeResponseMessage h resp = .ok p) :
    (resp.isHeartbeat = true ∧ resp.status = 0 ∧
      p = frame (flagRequest ||| flagTwoWay ||| flagEvent ||| (resp.serialID &&& serialMask)) 0 resp.id [78]) ∨
    (resp.isHeartbeat = true ∧ resp.status ≠ 0 ∧ ∃ body,
      p = frame (flagEvent ||| (resp.serialID &&& serialMask)) resp.status resp.id body) ∨
    (resp.isHeartbeat = false ∧ ∃ res body, rpcResultFromResponse resp.result = .ok res ∧
      marshalResponse h resp.status false ⟨res.rest, res.err, res.attrs⟩ = .ok body ∧
      p = frame (resp.serialID &&& serialMask)
        (if resp.status ≠ 0 then resp.status else responseOK) resp.id body) := by
  unfold encodeResponseMessage at hencode
  split_ifs at hencode with hheartbeat
  · have htype : ∀ pay, (responsePackage resp pay).header.type = packageHeartbeat :=
      fun pay => if_pos hheartbeat
    by_cases hstatus : resp.status = 0
    · rw [encode_heartbeatRequest (htype _) hstatus] at hencode
      cases hencode
      exact .inl ⟨hheartbeat, hstatus, rfl⟩
    · rw [encode_heartbeatResponse (htype _) hstatus] at hencode
      obtain ⟨body, -, rfl⟩ := map_eq_ok hencode
      exact .inr (.inl ⟨hheartbeat, hstatus, body, rfl⟩)
  · obtain ⟨res, hresult, hencode⟩ := bind_eq_ok hencode
    rw [encode_response (if_neg hheartbeat)] at hencode
    obtain ⟨body, hbody, rfl⟩ := map_eq_ok hencode
    exact .inr (.inr ⟨by simpa using hheartbeat, res, body, hresult, hbody, rfl⟩)

def frameHeader (flags status : UInt8) (id : Int64) (bodyLen : ℕ) : DubboHeader where
  serialID := flags &&& serialMask
  type := packageType flags status 0
  id := id
  bodyLen := bodyLen
  responseStatus := if flags &&& flagRequest ≠ 0 then 0 else status

variable {flags stat : UInt8} {id : Int64} {body : Str}

/-- The header that is read is the one that was written, if the length fits. -/
theorem headerOf_frame (hbody : body.length < 2 ^ 32) (rest : Str) :
    headerOf (frame flags stat id body ++ rest) = frameHeader flags stat id body.length := by
  have htake : (frame flags stat id body ++ rest).take headerLength = frameHead flags stat id body.length := by
    rw [frame, append_assoc, take_left' (length_frameHead ..)]
  have hid : (UInt64.ofNat (uint (putUint 8 id.toUInt64.toNat))).toInt64 = id := by
    have hlt := id.toUInt64.toNat_lt
    rw [uint_putUint, Nat.mod_eq_of_lt (by omega), UInt64.ofNat_toNat, Int64.toInt64_toUInt64]
  have hlen : uint ((putUint 4 body.length).take 4) = body.length := by
    rw [take_of_length_le (length_putUint 4 _).le, uint_putUint, Nat.mod_eq_of_lt (by omega)]
  unfold headerOf frameHeader parseHeader
  rw [htake]
  simp [frameHead, hid, hlen, DubboHeader.zero]

theorem bodyOf_frame (hbody : body.length < 2 ^ 32) (rest : Str) :
    bodyOf (frame flags stat id body ++ rest) = body := by
  unfold bodyOf
  rw [headerOf_frame hbody, frame, append_assoc, drop_left' (length_frameHead ..)]
  exact take_left

theorem legal_frame (hserial : flags &&& serialMask ≠ 0) (rest : Str) : Legal (frame flags stat id body ++ rest) :=
  ⟨.inl rfl, hserial⟩

/-- A package that was packed is decoded from its own header and body. -/
theorem decode_frame (hserial : flags &&& serialMask ≠ 0) (hbody : body.length < 2 ^ 32) (rest : Str) :
    decode h table (frame flags stat id body ++ rest) =
      outcome h table (flags &&& flagRequest ≠ 0) (frameHeader flags stat id body.length) body := by
  have hdata : headerLength + (headerOf (frame flags stat id body ++ rest)).bodyLen ≤
      (frame flags stat id body ++ rest).length := by
    rw [headerOf_frame hbody, length_append, length_frame]
    exact Nat.le_add_right _ _
  rw [decode_of_complete (legal_frame hserial rest) hdata, headerOf_frame hbody, bodyOf_frame hbody]
  rfl

/-- A part of a package is waited on. -/
theorem decode_frame_take (hserial : flags &&& serialMask ≠ 0) (hbody : body.length < 2 ^ 32) {k : ℕ}
    (hk : k < (frame flags stat id body).length) :
    decode h table ((frame flags stat id body).take k) = .ok (none, 0, none) ∨
    decode h table ((frame flags stat id body).take k) = .ok (none, (frame flags stat id body).length, none) := by
  rw [length_frame] at hk
  have hlength : ((frame flags stat id body).take k).length = k := by
    rw [length_take, length_frame]
    omega
  by_cases hheader : k < headerLength
  · exact .inl (decode_of_headless (hlength.trans_lt hheader))
  · have htake : ((frame flags stat id body).take k).take headerLength =
        (frame flags stat id body ++ []).take headerLength := by
      rw [take_take, append_nil, min_eq_left (by omega)]
    have hof : headerOf ((frame flags stat id body).take k) = frameHeader flags stat id body.length :=
      (headerOf_of_take_eq htake).trans (headerOf_frame hbody [])
    have hlegal : Legal ((frame flags stat id body).take k) := (legal_frame hserial []).of_take_eq htake
    refine .inr ?_
    rw [decode_of_short hlegal (by omega) (by rw [hof, hlength]; exact hk), hof, length_frame]
    rfl

end DubboGo.Dubbo
