import DubboGo.Common.URL
import DubboGo.Dubbo.Descriptor

/-!
# The hessian serializer

Bodies of requests and responses: `HessianSerializer` of `protocol/dubbo/impl/hessian.go`, over an arbitrary
hessian library.
-/

namespace DubboGo.Dubbo

open Go Lib Regex

/-- `Service`; the timeout is in nanoseconds. -/
structure Service where
  path : Str
  interface : Str
  group : Str
  version : Str
  method : Str
  timeout : Int64

structure RequestPayload (ο : Type) where
  params : List (Value ο)
  attachments : FiniteMap Str (Value ο)

/-- `ResponsePayload`; its object is a value that is sent, or the reply of a pending response. -/
structure ResponsePayload (ο ρ : Type) where
  rspObj : ρ
  exception : Option (Exception ο)
  attachments : FiniteMap Str (Value ο)

structure RequestBody (ο : Type) where
  dubboVersion : Str
  argsTypes : Str
  args : List (Value ο)
  attachments : FiniteMap Str (Value ο)

export Common (interfaceKey groupKey versionKey timeoutKey)
export Common.URL (pathKey)

def dubboVersionKey : Str := str "dubbo"
def defaultDubboProtocolVersion : Str := str "2.0.2"

def responseOK : UInt8 := 20

def responseWithException : Int32 := 0
def responseValue : Int32 := 1
def responseNullValue : Int32 := 2
def responseWithExceptionWithAttachments : Int32 := 3
def responseValueWithAttachments : Int32 := 4
def responseNullValueWithAttachments : Int32 := 5

theorem mapError_eq_ok {ε ε' α : Type} {x : Except ε α} {f : ε → ε'} {a : α} : x.mapError f = .ok a ↔ x = .ok a := by
  cases x with
  | error e => exact ⟨(nomatch ·), (nomatch ·)⟩
  | ok b =>
    constructor
    · rintro ⟨⟩
      rfl
    · rintro ⟨⟩
      rfl

variable {ο ω : Type} (h : Hessian ο ω)

/-! ## Writing -/

def encodeHessianValue (item : Item ο) (description : Str) (e : h.Encoder) : Except (Err ο) h.Encoder :=
  (h.encode item e).mapError (.encoding description)

/-- The attachments that `marshalRequest` sets. -/
def requestAttachments (service : Service) (attachments : FiniteMap Str (Value ο)) : FiniteMap Str (Value ο) :=
  let attachments := attachments.insert pathKey (.string service.path)
  let attachments := attachments.insert versionKey (.string service.version)
  let attachments := if 0 < service.group.length then
    attachments.insert groupKey (.string service.group) else attachments
  let attachments := if 0 < service.interface.length then
    attachments.insert interfaceKey (.string service.interface) else attachments
  if service.timeout ≠ 0 then
    attachments.insert timeoutKey (.string (itoa (service.timeout / 1000000).toInt))
  else attachments

def marshalRequest (service : Service) (request : RequestPayload ο) : Except (Err ο) Str := do
  let e ← encodeHessianValue h (.value (.string defaultDubboProtocolVersion))
    (str "dubbo protocol version") h.newEncoder
  let e ← encodeHessianValue h (.value (.string service.path)) (str "service path") e
  let e ← encodeHessianValue h (.value (.string service.version)) (str "service version") e
  let e ← encodeHessianValue h (.value (.string service.method)) (str "service method") e
  let types ← (getArgsTypeList request.params).mapError (.packRequest request.params)
  let e ← encodeHessianValue h (.value (.string types)) (str "argument types") e
  let e ← request.params.foldlM
    (fun e v => (h.encode (.value v) e).mapError (.encodingArgument v)) e
  let e ← h.encode (.attachments (requestAttachments service request.attachments)) e
  return h.buffer e

/-- The conversion of `math.Pow10(n)` to an integer, which fails from `1e19` on. -/
def pow10 (n : ℕ) : Int64 := if n ≤ 18 then Int64.ofNat (10 ^ n) else Int64.minValue

/-- The loop of `version2Int`, with the value of the parts so far. -/
def addParts : Int64 → List Str → Option Int64
  | v, [] => some v
  | v, part :: parts =>
    match parseInt part 10 64 with
    | .error _ => none
    | .ok v0 => addParts (v + Int64.ofInt v0 * pow10 (parts.length * 2)) parts

def version2Int (version : Str) : Int64 :=
  let varr := version.splitOn 46
  match addParts 0 varr with
  | none => -1
  | some v => if varr.length = 3 then v * 100 else v

def isSupportResponseAttachment (version : Str) : Bool :=
  if version = [] then false
  else
    let v := version2Int version
    if v = -1 then false
    else if 2001000 ≤ v ∧ v ≤ 2060200 then false
    else 2000200 ≤ v

def responseTypes (withAttachments : Bool) : Int32 × Int32 × Int32 :=
  if withAttachments then
    (responseWithExceptionWithAttachments, responseValueWithAttachments, responseNullValueWithAttachments)
  else (responseWithException, responseValue, responseNullValue)

def exceptionValue : Exception ο → Value ο
  | .generic exceptionClass exceptionMessage => h.newDubboGenericException exceptionClass exceptionMessage
  | .throwable v => v
  | ex => h.newThrowable (h.text ex)

def encodeResponsePayload (response : ResponsePayload ο (Value ο)) (types : Int32 × Int32 × Int32)
    (e : h.Encoder) : Except (Err ο) h.Encoder :=
  match response.exception with
  | some ex => do
    let e ← encodeHessianValue h (.value (.int32 types.1)) (str "response exception type") e
    encodeHessianValue h (.value (exceptionValue h ex)) (str "response exception") e
  | none =>
    if response.rspObj.isNil then
      encodeHessianValue h (.value (.int32 types.2.2)) (str "null response type") e
    else do
      let e ← encodeHessianValue h (.value (.int32 types.2.1)) (str "response value type") e
      encodeHessianValue h (.value response.rspObj) (str "response value") e

def attachmentVersion (attachments : FiniteMap Str (Value ο)) : Except (Fault ο) Str :=
  match attachments.lookup dubboVersionKey with
  | some version => version.asString
  | none => .ok []

def encodeResponse (responseStatus : UInt8) (isHeartBeat : Bool) (response : ResponsePayload ο (Value ο))
    (e : h.Encoder) : Except (Fault ο) h.Encoder :=
  if responseStatus ≠ responseOK then
    match response.exception with
    | some ex =>
      (encodeHessianValue h (.value (.string (h.text ex))) (str "response exception message") e).mapError .error
    | none => (encodeHessianValue h (.value response.rspObj) (str "response value") e).mapError .error
  else if isHeartBeat then
    (encodeHessianValue h (.value .nil) (str "heartbeat response") e).mapError .error
  else do
    let version ← attachmentVersion response.attachments
    let withAttachments := isSupportResponseAttachment version
    let e ← (encodeResponsePayload h response (responseTypes withAttachments) e).mapError Fault.error
    if withAttachments then
      (encodeHessianValue h (.attachments response.attachments) (str "response attachments") e).mapError .error
    else return e

def marshalResponse (responseStatus : UInt8) (isHeartBeat : Bool) (response : ResponsePayload ο (Value ο)) :
    Except (Fault ο) Str := do
  let e ← encodeResponse h responseStatus isHeartBeat response h.newEncoder
  -- `encNull`
  return h.buffer e ++ [78]

/-! ## Reading -/

def read (d : h.Decoder) : Except (Fault ο) (Value ο × h.Decoder) := (h.decode d).mapError .error

/-- The string entries of a map that has been decoded, the later one of two with the same key. -/
def toMapStringInterface (origin : List (Value ο × Value ο)) : FiniteMap Str (Value ο) :=
  origin.foldl (fun dest entry => match entry.1 with
    | .string k => dest.insert k (if entry.2.isNil then .string [] else entry.2)
    | _ => dest) ∅

def optionalString (v : Value ο) : Except (Fault ο) Str :=
  if v.isNil then .ok [] else v.asString

def servicePath (path : Str) (attachments : FiniteMap Str (Value ο)) : Except (Fault ο) Str :=
  if path = [] then
    match attachments.lookup pathKey with
    | some v =>
      if v.isNil then .ok path
      else do
        let attached ← v.asString
        return if 0 < attached.length then attached else path
    | none => .ok path
  else .ok path

def attachmentString (key : Str) (attachments : FiniteMap Str (Value ο)) (default : Str) : Except (Fault ο) Str :=
  match attachments.lookup key with
  | some v => v.asString
  | none => .ok default

def buildServerSidePackageBody (dubboVersion target serviceVersion method argsTypes : Value ο)
    (args : List (Value ο)) (attachments : FiniteMap Str (Value ο)) : Except (Fault ο) (Service × RequestBody ο) := do
  let dubboVersion ← optionalString dubboVersion
  let path ← optionalString target
  let version ← optionalString serviceVersion
  let method ← optionalString method
  let argsTypes ← optionalString argsTypes
  let path ← servicePath path attachments
  let interface ← attachmentString interfaceKey attachments path
  let group ← attachmentString groupKey attachments []
  return (⟨path, interface, group, version, method, 0⟩, ⟨dubboVersion, argsTypes, args, attachments⟩)

def entriesOf (attachments target : Value ο) : Except (Fault ο) (List (Value ο × Value ο)) :=
  match attachments with
  | .nil | .string [] => .ok [(.string interfaceKey, target)]
  | .map entries => .ok entries
  | v => .error (.error (.wrongAttachments v))

def unmarshalRequestBody (body : Str) : Except (Fault ο) (Service × RequestBody ο) := do
  let (dubboVersion, d) ← read h (h.newDecoder body)
  let (target, d) ← read h d
  let (serviceVersion, d) ← read h d
  let (method, d) ← read h d
  let (argsTypes, d) ← read h d
  let types ← argsTypes.asString
  let (args, d) ← (h.decodeAll (allMatches descRegex types).length d).mapError Fault.error
  let (attachments, _) ← read h d
  let entries ← entriesOf attachments target
  buildServerSidePackageBody dubboVersion target serviceVersion method argsTypes args
    (toMapStringInterface (entries ++ [(.string dubboVersionKey, dubboVersion)]))

def exceptionOf (expt : Value ο) : Exception ο :=
  match h.toGenericException expt with
  | some (exceptionClass, exceptionMessage) => .generic exceptionClass exceptionMessage
  | none => if h.isError expt then .value expt else .message (str "got exception: " ++ h.format expt)

def reflectResponse (v : Value ο) (reply : Option ω) : Except (Fault ο) (Option ω) :=
  if v.isNil then .error (.error (.message (str "@in is nil")))
  else
    match reply with
    | none => .error (.error (.message (str "@out is nil")))
    | some reply => (h.copy v reply).map some

def readAttachments (withAttachments : Bool) (d : h.Decoder) (attachments : FiniteMap Str (Value ο)) :
    Except (Fault ο) (FiniteMap Str (Value ο)) :=
  if withAttachments then do
    let (v, _) ← read h d
    match v with
    | .map entries => return toMapStringInterface entries
    | v => .error (.error (.wrongAttachments v))
  else return attachments

def unmarshalResponseBody (body : Str) (response : ResponsePayload ο (Option ω)) :
    Except (Fault ο) (ResponsePayload ο (Option ω)) := do
  let (rspType, d) ← read h (h.newDecoder body)
  match rspType with
  | .int32 rspType =>
    if rspType = responseWithException ∨ rspType = responseWithExceptionWithAttachments then do
      let (expt, d) ← read h d
      let attachments ← readAttachments h (rspType = responseWithExceptionWithAttachments) d
        response.attachments
      return { response with exception := some (exceptionOf h expt), attachments := attachments }
    else if rspType = responseValue ∨ rspType = responseValueWithAttachments then do
      let (rsp, d) ← read h d
      let attachments ← readAttachments h (rspType = responseValueWithAttachments) d response.attachments
      let rspObj ← reflectResponse h rsp response.rspObj
      return { response with rspObj := rspObj, attachments := attachments }
    else if rspType = responseNullValue ∨ rspType = responseNullValueWithAttachments then do
      let attachments ← readAttachments h (rspType = responseNullValueWithAttachments) d
        response.attachments
      return { response with attachments := attachments }
    else return response
  | _ => return response

end DubboGo.Dubbo
