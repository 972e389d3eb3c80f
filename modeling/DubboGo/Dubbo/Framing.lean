import DubboGo.Dubbo.Responses
import DubboGo.Lib.Framing

/-!
# Packages on a connection

`DubboCodec.Decode` as the read loop of a connection uses it: on a buffer that may end anywhere.
-/

namespace DubboGo.Dubbo

open Go Lib Remoting List

variable {ο ω : Type} {h : Hessian ο ω} {table : PendingTable ο ω} {data : Str}

/-! ## What passes for a package -/

theorem bodyLen_headerOf (data : Str) : (headerOf data).bodyLen = uint ((data.drop 12).take 4) := by
  have hdrop : (data.take headerLength).drop 12 = (data.drop 12).take 4 := drop_take
  unfold headerOf parseHeader
  rw [hdrop, take_take]
  rfl

theorem decode_of_take_eq {data' : Str} (hlegal : Legal data)
    (hdata : headerLength + (headerOf data).bodyLen ≤ data.length)
    (htake : data'.take (headerLength + (headerOf data).bodyLen) = data.take (headerLength + (headerOf data).bodyLen)) :
    decode h table data' = decode h table data := by
  have hhead : data'.take headerLength = data.take headerLength := by
    have hheads := congrArg (take headerLength) htake
    rwa [take_take, take_take, min_eq_left (Nat.le_add_right _ _)] at hheads
  have hof : headerOf data' = headerOf data := headerOf_of_take_eq hhead
  have hbody : bodyOf data' = bodyOf data := by
    have hdrops := congrArg (drop headerLength) htake
    rw [drop_take, drop_take, Nat.add_sub_cancel_left] at hdrops
    unfold bodyOf
    rw [hof, hdrops]
  have hflag : hasRequestFlag data' = hasRequestFlag data := by
    unfold hasRequestFlag
    rw [getD_of_take_eq hhead (by decide)]
  have hdata' : headerLength + (headerOf data').bodyLen ≤ data'.length := by
    have hlength := congrArg length htake
    rw [length_take, length_take, min_eq_left hdata] at hlength
    rw [hof]
    exact min_eq_left_iff.1 hlength
  rw [decode_of_complete hlegal hdata, decode_of_complete (hlegal.of_take_eq hhead) hdata', hof, hbody, hflag]

/-- A legal header has one byte of the magic number; it has the other one too if either brings the other along. -/
theorem magic_iff (hlegal : Legal data) (hheader : headerLength ≤ data.length) :
    [magicHigh, magicLow] <+: data ↔ (data.getD 0 0 = magicHigh ↔ data.getD 1 0 = magicLow) := by
  constructor
  · rintro ⟨rest, rfl⟩
    exact iff_of_true rfl rfl
  · intro hmagic
    have hboth : data.getD 0 0 = magicHigh ∧ data.getD 1 0 = magicLow := by
      rcases hlegal.1 with hhigh | hlow
      · exact ⟨hhigh, hmagic.1 hhigh⟩
      · exact ⟨hmagic.2 hlow, hlow⟩
    match data, hheader, hboth with
    | _ :: _ :: rest, _, ⟨hhigh, hlow⟩ =>
      refine ⟨rest, ?_⟩
      rw [← hhigh, ← hlow]
      rfl

/-- The bytes that `Decode` makes a result of begin with a whole package, and only its bytes count.  They begin
with the magic number exactly if both of its bytes are right as soon as one of them is. -/
theorem decode_sound {result : DecodeResult ο ω} {n : ℕ} {e : Option (Err ο)}
    (hdecode : decode h table data = .ok (some result, n, e)) :
    ([magicHigh, magicLow] <+: data ↔ (data.getD 0 0 = magicHigh ↔ data.getD 1 0 = magicLow)) ∧
      n = headerLength + uint ((data.drop 12).take 4) ∧ n ≤ data.length ∧
      ∀ data', data'.take n = data.take n → decode h table data' = .ok (some result, n, e) := by
  rcases decode_cases h table data with ⟨n', hshort⟩ | ⟨e', hillegal⟩ | ⟨hlegal, hlength, hcomplete⟩
  · cases hdecode.symm.trans hshort
  · cases hdecode.symm.trans hillegal
  · have hn : n = headerLength + (headerOf data).bodyLen := outcome_eq_some (hcomplete.symm.trans hdecode)
    refine ⟨magic_iff hlegal (by omega), hn.trans (by rw [bodyLen_headerOf]), hn ▸ hlength, ?_⟩
    intro data' htake
    rw [hn] at htake
    rw [decode_of_take_eq hlegal hlength htake, hdecode]

namespace Bytes

def heartbeat : Str := [0xda, 0xbb, 0xe2, 0, 0, 0, 0, 0, 0, 0, 0, 1, 0, 0, 0, 0]

def halfMagic : Str := [0xda, 0x00, 0xe2, 0, 0, 0, 0, 0, 0, 0, 0, 1, 0, 0, 0, 0]

end Bytes

open Bytes in
theorem heartbeat_sound : ∃ result, decode plain .empty heartbeat = .ok (some result, 16, none) ∧
    [magicHigh, magicLow] <+: heartbeat ∧ 16 = headerLength + uint ((heartbeat.drop 12).take 4) ∧
    ∀ data', data'.take 16 = heartbeat.take 16 → decode plain .empty data' = .ok (some result, 16, none) := by
  obtain ⟨result, hdecode⟩ : ∃ result, decode plain .empty heartbeat = .ok (some result, 16, none) := ⟨_, rfl⟩
  obtain ⟨hmagic, hn, -, hagree⟩ := decode_sound hdecode
  exact ⟨result, hdecode, hmagic.2 (by decide), hn, hagree⟩

open Bytes in
theorem halfMagic_decoded : ¬[magicHigh, magicLow] <+: halfMagic ∧
    ∃ result, decode plain .empty halfMagic = .ok (some result, 16, none) :=
  ⟨by decide, _, rfl⟩

/-! ## The packages of a stream -/

/-- What the read loop makes of what `Decode` returns. -/
def reading : Except Panic (Decoded ο ω) → Reading (DecodeResult ο ω)
  | .ok (some result, n, none) => .package result n
  | .ok (none, _, none) => .incomplete
  | _ => .failed

/-- The decoder of a connection; `tables k` is the table when `k` packages have been decoded. -/
def reader (h : Hessian ο ω) (tables : ℕ → PendingTable ο ω) (k : ℕ) (data : Str) : Reading (DecodeResult ο ω) :=
  reading (decode h (tables k) data)

/-- A package of `EncodeRequest` or `EncodeResponse` that the other side can read: its arguments have descriptors, the
interface and the group of a request are strings, a response of status OK is for a pending request whose reply takes
the value. -/
inductive Encoded (h : Hessian ο ω) (table : PendingTable ο ω) : Str → Prop
  | request {request : Request (Invocation ο)} {p : Str} (encoded : encodeRequest h request = .ok p)
      (describable : request.event = false → ∀ invocation, request.data = some invocation →
        ∀ arg ∈ invocation.arguments, IsDescriptor (descriptor (getArgType arg)))
      (texts : request.event = false → ∀ invocation, request.data = some invocation →
        ∀ timeout, (invocation.service timeout).Texts invocation.attachments) : Encoded h table p
  | heartbeat {response : Response (Exception ο) (ResultBox ο (Value ο))} {p : Str}
      (encoded : encodeResponseMessage h response = .ok p) (serialID : response.serialID = sHessian2)
      (isHeartbeat : response.isHeartbeat = true)
      (status : response.status = 0 ∨ response.status = responseOK) : Encoded h table p
  | response {response : Response (Exception ο) (ResultBox ο (Value ο))} {p : Str}
      {pending : PendingResponse (Exception ο) (RPCResult ο (Option ω)) ω}
      (encoded : encodeResponseMessage h response = .ok p) (serialID : response.serialID = sHessian2)
      (isHeartbeat : response.isHeartbeat = false) (status : response.status = responseOK)
      (isPending : table.getPendingResponse response.id = some pending)
      (fits : ∀ result, rpcResultFromResponse response.result = .ok result → Fits h result pending.reply) :
      Encoded h table p

def Framed (h : Hessian ο ω) (table : PendingTable ο ω) (p : Str) : Prop :=
  ∃ flags status id body result, flags &&& serialMask ≠ 0 ∧ body.length < 2 ^ 32 ∧
    p = frame flags status id body ∧ ∀ rest, decode h table (p ++ rest) = .ok (some result, p.length, none)

section Framed

variable {flags stat : UInt8} {id : Int64} {body : Str}

theorem framed_of_outcome {isRequest : Bool} {res : DecodeResult ο ω} (hserial : flags &&& serialMask ≠ 0)
    (hrequest : decide (flags &&& flagRequest ≠ 0) = isRequest) (hbody : body.length < 2 ^ 32)
    (houtcome : outcome h table isRequest (frameHeader flags stat id body.length) body =
      .ok (some res, headerLength + body.length, none)) : Framed h table (frame flags stat id body) := by
  refine ⟨flags, stat, id, body, res, hserial, hbody, rfl, fun rest => ?_⟩
  rw [decode_frame hserial hbody, hrequest, houtcome, length_frame]

theorem framed_heartbeatRequest (id : Int64) :
    Framed h table (frame (flagRequest ||| flagTwoWay ||| flagEvent ||| (sHessian2 &&& serialMask)) 0 id [78]) := by
  generalize hflags : flagRequest ||| flagTwoWay ||| flagEvent ||| (sHessian2 &&& serialMask) = flags
  have hfacts : flags &&& serialMask ≠ 0 ∧ flags &&& flagRequest ≠ 0 ∧
      packageType flags 0 0 &&& packageHeartbeat ≠ 0 := by
    subst hflags
    decide
  obtain ⟨hserial, hrequest, hheartbeat⟩ := hfacts
  obtain ⟨req, houtcome⟩ : ∃ req, outcome h table true (frameHeader flags 0 id 1) [78] =
      .ok (some (.request req), headerLength + 1, none) :=
    outcome_of_heartbeat (packageType_of_request hrequest 0) (decide_eq_true hheartbeat) _
  exact framed_of_outcome hserial (decide_eq_true hrequest) (by decide) houtcome

theorem framed_heartbeatResponse (hbody : body.length < 2 ^ 32) :
    Framed h table (frame (flagEvent ||| (sHessian2 &&& serialMask)) responseOK id body) := by
  have htype : packageType (flagEvent ||| (sHessian2 &&& serialMask)) responseOK 0 =
      packageHeartbeat ||| packageResponse := by
    decide
  obtain ⟨res, houtcome⟩ : ∃ res, outcome h table false
      (frameHeader (flagEvent ||| (sHessian2 &&& serialMask)) responseOK id body.length) body =
        .ok (some res, headerLength + body.length, none) :=
    outcome_of_heartbeatResponse htype _
  exact framed_of_outcome (by decide) (by decide) hbody houtcome

theorem framed_request (hinverts : h.Inverts) {svc : Service} {req : RequestPayload ο}
    (hmarshal : marshalRequest h svc req = .ok body)
    (hargs : ∀ arg ∈ req.params, IsDescriptor (descriptor (getArgType arg)))
    (htexts : svc.Texts req.attachments) (hbody : body.length < 2 ^ 32) (twoWay : Bool) :
    Framed h table (frame (requestFlags (if twoWay then packageRequestTwoWay else packageRequest) |||
      (sHessian2 &&& serialMask)) 0 id body) := by
  obtain ⟨types, -, htypes, -⟩ := encodeAll_of_marshalRequest hmarshal
  obtain ⟨intf, group, atts, hunmarshal, -⟩ :=
    unmarshalRequestBody_marshalRequest hinverts hmarshal htypes (length_allMatches htypes hargs) htexts []
  rw [append_nil] at hunmarshal
  generalize hflags : requestFlags (if twoWay then packageRequestTwoWay else packageRequest) |||
    (sHessian2 &&& serialMask) = flags
  have hfacts : flags &&& serialMask ≠ 0 ∧ flags &&& flagRequest ≠ 0 ∧
      packageType flags 0 0 &&& packageHeartbeat = 0 := by
    subst hflags
    cases twoWay <;> decide
  obtain ⟨hserial, hrequest, hheartbeat⟩ := hfacts
  have hnot : (frameHeader flags 0 id body.length).isHeartBeat = false := decide_eq_false (not_not.2 hheartbeat)
  obtain ⟨res, houtcome⟩ : ∃ res, outcome h table true (frameHeader flags 0 id body.length) body =
      .ok (some res, headerLength + body.length, none) := by
    rw [outcome_of_request (packageType_of_request hrequest 0) hnot, hunmarshal]
    exact ⟨_, rfl⟩
  exact framed_of_outcome hserial (decide_eq_true hrequest) hbody houtcome

end Framed

variable {p buffer : Str}

theorem framed_of_encoded (hinverts : h.Inverts) (hencoded : Encoded h table p)
    (hlength : p.length < headerLength + 2 ^ 32) : Framed h table p := by
  cases hencoded with
  | @request request p encoded describable texts =>
    rcases encodeRequest_cases encoded with rfl | ⟨invocation, timeout, body, hevent, hdata, hmarshal, rfl⟩
    · exact framed_heartbeatRequest _
    · rw [length_frame] at hlength
      exact framed_request hinverts hmarshal (describable hevent invocation hdata)
        (texts hevent invocation hdata timeout) (by omega) _
  | heartbeat encoded serialID isHeartbeat status =>
    rcases encodeResponseMessage_cases encoded with ⟨-, -, rfl⟩ | ⟨-, hstatus, body, rfl⟩ | ⟨hnot, -⟩
    · rw [serialID]
      exact framed_heartbeatRequest _
    · rw [length_frame] at hlength
      rw [status.resolve_left hstatus, serialID]
      exact framed_heartbeatResponse (by omega)
    · exact nomatch hnot.symm.trans isHeartbeat
  | @response response p pending encoded serialID isHeartbeat status isPending fits =>
    obtain ⟨result, body, hresult, hmarshal, rfl⟩ := encodeResponseMessage_result encoded isHeartbeat
    rw [length_frame] at hlength
    rw [status] at hmarshal ⊢
    rw [if_pos (by decide), serialID]
    obtain ⟨attachments, hdecode⟩ := decode_okResponse hinverts hmarshal
      (by decide : sHessian2 &&& serialMask ≠ 0) (by omega) isPending
    obtain ⟨payload, hreceived⟩ := exists_received (fits result hresult) attachments
    simp only [hreceived, ← length_frame (sHessian2 &&& serialMask) responseOK response.id body] at hdecode
    exact ⟨_, _, _, _, _, by decide, by omega, rfl, hdecode⟩

/-! ## The stream -/

section

variable (hframed : Framed h table p)

include hframed

theorem Framed.length_eq : p.length = headerLength + (headerOf p).bodyLen := by
  obtain ⟨flags, status, id, body, res, -, hbody, rfl, -⟩ := hframed
  rw [length_frame, ← append_nil (frame flags status id body), headerOf_frame hbody]
  rfl

theorem Framed.ne_nil : p ≠ [] := by
  rintro rfl
  have hlength := hframed.length_eq
  rw [length_nil, headerLength] at hlength
  omega

theorem Framed.whole : ∃ res, decode h table p = .ok (some res, p.length, none) ∧
      ∀ rest, decode h table (p ++ rest) = .ok (some res, p.length, none) := by
  obtain ⟨flags, status, id, body, res, -, -, -, hwhole⟩ := hframed
  have hself := hwhole []
  rw [append_nil] at hself
  exact ⟨res, hself, hwhole⟩

theorem Framed.part (hbegins : buffer <+: p) (hne : buffer ≠ p) :
    decode h table buffer = .ok (none, 0, none) ∨ decode h table buffer = .ok (none, p.length, none) := by
  obtain ⟨flags, status, id, body, res, hserial, hbody, rfl, -⟩ := hframed
  have hlt : buffer.length < (frame flags status id body).length :=
    lt_of_le_of_ne hbegins.length_le fun heq => hne (hbegins.eq_of_length heq)
  rw [prefix_iff_eq_take.1 hbegins]
  exact decode_frame_take hserial hbody hlt

theorem Framed.reading_part (hbegins : buffer <+: p) (hne : buffer ≠ p) :
    reading (decode h table buffer) = .incomplete := by
  rcases hframed.part hbegins hne with hdecode | hdecode
  · rw [hdecode]
    rfl
  · rw [hdecode]
    rfl

end

def Results (h : Hessian ο ω) (tables : ℕ → PendingTable ο ω) (packages : List Str)
    (results : List (DecodeResult ο ω)) : Prop :=
  ∀ i p r, packages[i]? = some p → results[i]? = some r → decode h (tables i) p = .ok (some r, p.length, none)

theorem exists_delimited {tables : ℕ → PendingTable ο ω} {packages : List Str} {k : ℕ}
    (hframed : ∀ i p, packages[i]? = some p → Framed h (tables (k + i)) p) :
    ∃ results, Framing.Delimited (reader h tables) k packages results ∧
      Results h (fun i => tables (k + i)) packages results := by
  induction packages generalizing k with
  | nil => exact ⟨[], .nil k, nofun⟩
  | cons p packages ih =>
    have hfirst : Framed h (tables k) p := hframed 0 p rfl
    have hlater : ∀ i p, packages[i]? = some p → Framed h (tables (k + 1 + i)) p := by
      intro i p hp
      rw [Nat.add_assoc, Nat.add_comm 1 i]
      exact hframed (i + 1) p hp
    obtain ⟨results, hdelimited, hresults⟩ := ih hlater
    obtain ⟨result, hself, hwhole⟩ := hfirst.whole
    refine ⟨result :: results, .cons hfirst.ne_nil ?_ (fun buffer => hfirst.reading_part) hdelimited, ?_⟩
    · intro rest
      rw [reader, hwhole]
      rfl
    · intro i q r hq hr
      cases i with
      | zero =>
        cases hq
        cases hr
        exact hself
      | succ i =>
        have hdecode := hresults i q r hq hr
        dsimp only at hdecode ⊢
        rw [Nat.add_assoc, Nat.add_comm 1 i] at hdecode
        exact hdecode

theorem decode_stream {later : List Str} (hframed : Framed h table p) (hbuffer : buffer <+: (p :: later).flatten) :
    (p <+: buffer → ∃ res, decode h table p = .ok (some res, p.length, none) ∧
      decode h table buffer = .ok (some res, p.length, none)) ∧ (¬p <+: buffer →
      decode h table buffer = .ok (none, 0, none) ∨ decode h table buffer = .ok (none, p.length, none)) := by
  constructor
  · rintro ⟨rest, rfl⟩
    obtain ⟨res, hself, hwhole⟩ := hframed.whole
    exact ⟨res, hself, hwhole rest⟩
  · intro hnot
    have hbegins : buffer <+: p :=
      (List.prefix_or_prefix_of_prefix hbuffer (prefix_append p later.flatten)).resolve_right hnot
    refine hframed.part hbegins ?_
    rintro rfl
    exact hnot (prefix_refl _)

open Framing in
/-- `Decode` of a buffer that ends anywhere gives the first package and its length if it is there, and asks for more
if not; and the read loop decodes every package once and in order, however the stream is cut. -/
theorem stream_split (hinverts : h.Inverts) {tables : ℕ → PendingTable ο ω} {packages : List Str}
    (hencoded : ∀ i p, packages[i]? = some p → Encoded h (tables i) p)
    (hlength : ∀ p ∈ packages, p.length < headerLength + 2 ^ 32) :
    (∀ p later buffer, packages = p :: later → buffer <+: packages.flatten →
      p.length = headerLength + (headerOf p).bodyLen ∧
      (p <+: buffer → ∃ result, decode h (tables 0) p = .ok (some result, p.length, none) ∧
        decode h (tables 0) buffer = .ok (some result, p.length, none)) ∧
      (¬p <+: buffer → decode h (tables 0) buffer = .ok (none, 0, none) ∨
        decode h (tables 0) buffer = .ok (none, p.length, none))) ∧
    ∃ results, results.length = packages.length ∧ Results h tables packages results ∧
      (∀ chunks, chunks.flatten <+: packages.flatten → ∃ m rest,
        Taken packages results chunks.flatten (receive (reader h tables) 0 [] chunks) m rest) ∧
      ∀ chunks, chunks.flatten = packages.flatten → receive (reader h tables) 0 [] chunks = (results, some []) := by
  have hframed : ∀ i p, packages[i]? = some p → Framed h (tables i) p := fun i p hp =>
    framed_of_encoded hinverts (hencoded i p hp) (hlength p (mem_of_getElem? hp))
  constructor
  · rintro p later buffer rfl hbuffer
    have hfirst : Framed h (tables 0) p := hframed 0 p rfl
    exact ⟨hfirst.length_eq, decode_stream hfirst hbuffer⟩
  · obtain ⟨results, hdelimited, hresults⟩ := exists_delimited (k := 0) (by simpa only [Nat.zero_add] using hframed)
    simp only [Nat.zero_add] at hresults
    refine ⟨results, hdelimited.length_eq, hresults, fun chunks hbegins => receive_of_begins hdelimited hbegins, ?_⟩
    intro chunks hchunks
    have hbegins : chunks.flatten <+: packages.flatten := hchunks ▸ prefix_refl _
    obtain ⟨m, rest, htaken⟩ := receive_of_begins hdelimited hbegins
    rw [hchunks] at htaken
    exact htaken.all hdelimited.length_eq

namespace Bytes

def request : Request (Invocation Unit) where
  id := 1
  version := []
  serialID := sHessian2
  data := some ⟨str "m", [.string (str "x")], ∅⟩
  twoWay := true
  event := false

def datesRequest : Request (Invocation Unit) :=
  { request with data := some ⟨str "m", [.other .times (), .string (str "x")], ∅⟩ }

end Bytes

open Bytes Framing in
theorem stream_split_plain : ∃ p q results, encodeRequest plain request = .ok p ∧
    encodeResponseMessage plain Late.response = .ok q ∧ List.length results = 2 ∧
    receive (reader plain fun _ => Late.pending) 0 [] [p ++ q.take 3, q.drop 3] = (results, some []) := by
  obtain ⟨p, hp⟩ : ∃ p, encodeRequest plain request = .ok p ∧ p.length < headerLength + 2 ^ 32 :=
    ⟨_, rfl, by decide +kernel⟩
  obtain ⟨q, hq⟩ : ∃ q, encodeResponseMessage plain Late.response = .ok q ∧ q.length < headerLength + 2 ^ 32 :=
    ⟨_, rfl, by decide +kernel⟩
  have hencoded : ∀ (i : ℕ) (r : Str), [p, q][i]? = some r → Encoded plain Late.pending r := by
    intro i r hr
    match i with
    | 0 =>
      cases hr
      refine .request hp.1 ?_ ?_
      · rintro - _ ⟨⟩ arg harg
        rw [mem_singleton.1 harg]
        exact isDescriptor_getArgType trivial
      · rintro - _ ⟨⟩ timeout key - - v hv
        cases hv
    | 1 =>
      cases hr
      exact .response hq.1 rfl rfl rfl getPendingResponse_pending
        fun result hresult hrest hnil => ⟨.nil, result.rest, rfl, rfl⟩
    | _ + 2 => cases hr
  have hlength : ∀ r ∈ [p, q], r.length < headerLength + 2 ^ 32 := by
    intro r hr
    rcases mem_cons.1 hr with rfl | hr
    · exact hp.2
    · rw [mem_singleton.1 hr]
      exact hq.2
  obtain ⟨-, results, hresults, -, -, hall⟩ := stream_split inverts_plain hencoded hlength
  refine ⟨p, q, results, hp.1, hq.1, hresults, hall _ ?_⟩
  simp

open Bytes in
set_option maxRecDepth 2000 in
theorem datesRequest_fails : ∃ p e, encodeRequest plain datesRequest = .ok p ∧
    decode plain .empty p = .ok (none, 0, some e) :=
  ⟨_, _, rfl, rfl⟩

end DubboGo.Dubbo
