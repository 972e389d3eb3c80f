import DubboGo.Triple.ClientCall

/-!
# A unary call that fails on the client's side

When `Send` fails locally, `CloseRequest` and `CloseResponse` run and the error is returned.  Closing the request
hands it to the HTTP client all the same, with the empty body that was written so far, which for the server is a
complete message.
-/

namespace DubboGo.Triple

open Go

/-! ## The server's side -/

def codecNameHessian2 : Str := str "hessian2"

/-- The fields of `TripleRequestWrapper` that the server reads. -/
structure TripleRequestWrapper where
  serializeType : Str
  args : List Str

/-- An inner codec; `unmarshal i` decodes into parameter `i`. -/
structure InnerCodec (V : Type) where
  name : Str
  unmarshal : ℕ → Str → Except GoErr V

/-- What a handler receives into: a protobuf message, a list of parameters, or one parameter. -/
inductive ReceiveTarget where
  | proto
  | params (n : ℕ)
  | single

/-- `tripleServerCodecSession`.  The codecs, and with them `proto.Unmarshal`, are third-party code;
`registered` is the list of inner codecs in an error text. -/
structure TripleServerCodecSession (M V : Type) where
  delegate : Codec M
  unmarshalWrapper : Str → Except GoErr TripleRequestWrapper
  innerCodecs : Str → Option (InnerCodec V)
  registered : Str
  allowedSerializeType : Str

namespace TripleServerCodecSession

variable {M V : Type} (s : TripleServerCodecSession M V)

def resolveInnerCodec (serializeType : Str) : Except GoErr (InnerCodec V) :=
  let name := if serializeType = [] ∨ serializeType = str "hessian4" then codecNameHessian2
    else serializeType
  match s.innerCodecs name with
  | some c => .ok c
  | none => .error (.plain (str "unsupported or disabled serialize type " ++ quote name ++
      str " (registered: " ++ s.registered ++ str ")"))

def checkAllowed (codecName : Str) : Option GoErr :=
  if codecName = codecNameHessian2 ∨ codecName = s.allowedSerializeType then none
  else some (.plain (str "serialize type " ++ quote codecName ++
    str " not allowed by provider (allowed: " ++ codecNameHessian2 ++ str ", " ++
    s.allowedSerializeType ++ str ")"))

def unmarshalArg (inner : InnerCodec V) (arg : Str × ℕ) : Except GoErr V :=
  (inner.unmarshal arg.2 arg.1).mapError (.wrap (str "triple wrapper request arg[" ++ itoa arg.2 ++ str "]: "))

def unmarshalWrapperRequestArgs (w : TripleRequestWrapper) (inner : InnerCodec V) : Option ℕ → Except GoErr (List V)
  | some n =>
    if w.args.length ≠ n then
      .error (.plain (str "triple wrapper request: expected " ++ itoa n ++ str " params, got " ++
        itoa w.args.length ++ str " args"))
    else w.args.zipIdx.mapM (unmarshalArg inner)
  | none =>
    match w.args with
    | [arg] => (inner.unmarshal 0 arg).map ([·])
    | args =>
      .error (.plain (str "triple wrapper request: expected 1 arg for single param, got " ++ itoa args.length))

/-- The wrapper of a call without IDL, and its arguments into `n` parameters or into one. -/
def unmarshalRequest (data : Str) (n : Option ℕ) : Except GoErr (List V) :=
  let failed := GoError.wrap (str "unmarshal triple wrapper request: ")
  match s.unmarshalWrapper data with
  | .error e => .error (failed e)
  | .ok w =>
    match s.resolveInnerCodec w.serializeType with
    | .error e => .error (failed e)
    | .ok inner =>
      match s.checkAllowed inner.name with
      | some e => .error (failed e)
      | none => unmarshalWrapperRequestArgs w inner n

def unmarshal (target : ReceiveTarget) (data : Str) : Except GoErr (M ⊕ List V) :=
  match target with
  | .proto => (s.delegate.unmarshal data).map .inl
  | .params n => (s.unmarshalRequest data (some n)).map .inr
  | .single => (s.unmarshalRequest data none).map .inr

end TripleServerCodecSession

/-- The receiving half of a `tripleUnaryHandlerConn`. -/
structure TripleUnaryReceiver (M V : Type) where
  session : TripleServerCodecSession M V
  target : ReceiveTarget
  typ : Str
  compressionPool : Option CompressionPool
  readMaxBytes : ℤ

/-- `tripleUnaryHandlerConn.Receive` on a request body. -/
def TripleUnaryReceiver.receive {M V : Type} (hc : TripleUnaryReceiver M V)
    (body : ChunkReader ErrorHead) : Except Error (M ⊕ List V) :=
  (TripleUnaryUnmarshaler.mk body hc.compressionPool hc.readMaxBytes false).unmarshalFunc hc.typ
    (hc.session.unmarshal hc.target) |>.1

/-- `r` is the body of the request as the server reads it. -/
structure HTTPRequest.Carries (req : HTTPRequest) (r : ChunkReader ErrorHead) : Prop where
  pending : r.pending = req.body
  complete : req.complete = true → r.last = .eof
  aborted : req.complete = false → r.last.isExactly .eof = false

section Receive

variable {M V : Type} (hc : TripleUnaryReceiver M V) {r : ChunkReader ErrorHead}

theorem receive_empty (hp : r.pending = []) (hlast : r.last = .eof) (v : M ⊕ List V) :
    hc.receive r = .ok v ↔ hc.session.unmarshal hc.target [] = .ok v := by
  have h := TripleUnaryUnmarshaler.unmarshalFunc_of_clean
    (u := ⟨r, hc.compressionPool, hc.readMaxBytes, false⟩) hc.typ
    (hc.session.unmarshal hc.target) rfl hlast (by simp [hp]; omega)
  unfold TripleUnaryReceiver.receive
  rw [h]
  rw [hp, TripleUnaryUnmarshaler.decode, TripleUnaryUnmarshaler.message, if_pos rfl]
  dsimp only
  cases hc.session.unmarshal hc.target [] with
  | error e => simp
  | ok w => simp

theorem receive_aborted (hp : r.pending = []) (hlast : r.last.isExactly .eof = false)
    (v : M ⊕ List V) : hc.receive r ≠ .ok v := by
  refine TripleUnaryUnmarshaler.unmarshalFunc_of_aborted _ _ ?_ hlast v
  rw [ChunkReader.pending, List.flatten_eq_nil_iff] at hp
  apply List.eq_nil_iff_forall_not_mem.2
  intro c hc
  exact c.property (hp _ (List.mem_map_of_mem hc))

end Receive

/-! ## The client's side -/

section FastPath

variable {env : CallEnv} {c : UnaryFastPathCall}

structure UnaryFastPathCall.Untouched (c : UnaryFastPathCall) : Prop where
  body : c.body = []
  bodySent : c.bodySent = false
  requests : c.requests = []

theorem fastPath_write_err (h : c.Untouched) {data : Str} {e : GoErr}
    (he : (c.write env data).1.2 = some e) : (c.write env data).2.Untouched := by
  unfold UnaryFastPathCall.write at he ⊢
  rw [if_neg (by simp [h.bodySent])] at he ⊢
  split at he
  · exact h
  · split at he
    · exact ⟨h.body, h.bodySent, h.requests⟩
    · cases he

theorem fastPath_send_err {M : Type} (m : TripleUnaryMarshaler M) {msg : Option M} {e : Error}
    (h : c.Untouched) (he : ((fastPathConn env).send m c msg).1 = some e) :
    ((fastPathConn env).send m c msg).2.Untouched := by
  unfold TripleUnaryClientConn.send at he ⊢
  rcases m.marshal_err _ he with ⟨-, hs⟩ | ⟨c', data, e', -, hc', hw, -, hs⟩
  · rw [hs]
    exact h
  · rw [hs]
    have h' : c'.Untouched := by
      rcases hc' with rfl | ⟨f, rfl⟩
      · exact h
      · exact ⟨h.body, h.bodySent, h.requests⟩
    exact fastPath_write_err h' hw

theorem fastPath_abandon (h : c.Untouched) : ((fastPathConn env).abandon c).requests = [⟨c.header, [], true⟩] := by
  have hreq : (c.makeRequest env).requests = [⟨c.header, [], true⟩] := by
    unfold UnaryFastPathCall.makeRequest
    rw [h.requests, h.body]
    split <;> rfl
  simp only [TripleUnaryClientConn.abandon, TripleUnaryClientConn.closeResponse,
    TripleUnaryClientConn.flushBeforeWait, TripleUnaryClientConn.closeRequest, fastPathConn,
    UnaryFastPathCall.closeWrite, h.bodySent]
  exact hreq

end FastPath

section Duplex

variable (env : CallEnv) {d : DuplexHTTPCall}

structure DuplexHTTPCall.Untouched (d : DuplexHTTPCall) : Prop where
  piped : d.piped = []
  readerClosed : d.readerClosed = false
  writerClosed : d.writerClosed = false

structure DuplexHTTPCall.Stopped (d : DuplexHTTPCall) : Prop where
  piped : d.piped = []
  readerClosed : d.readerClosed = true
  writerClosed : d.writerClosed = false

theorem duplex_check_cases (h : d.Untouched) : (∃ e d', d.checkBeforeWrite env = (some e, d') ∧ d'.Stopped) ∨
      ∃ d', d.checkBeforeWrite env = (none, d') ∧ d'.Untouched := by
  unfold DuplexHTTPCall.checkBeforeWrite
  split
  · exact .inl ⟨_, _, rfl, h.piped, rfl, h.writerClosed⟩
  · exact .inr ⟨_, rfl, h.piped, h.readerClosed, h.writerClosed⟩

theorem duplex_write_cases (h : d.Untouched) (data : Str) :
    (∃ e d', d.write env data = ((0, some e), d') ∧ d'.Stopped) ∨ (∃ n d', d.write env data = ((n, some .eof), d')) ∨
        ∃ d', d.write env data = ((data.length, none), d') := by
  have h' : d.ensureRequestMade.Untouched := ⟨h.piped, h.readerClosed, h.writerClosed⟩
  unfold DuplexHTTPCall.write
  rcases duplex_check_cases env h' with ⟨e, d', hc, hs⟩ | ⟨d', hc, hu⟩
  · rw [hc]
    exact .inl ⟨e, d', rfl, hs⟩
  · rw [hc]
    unfold DuplexHTTPCall.pipeWrite
    dsimp only
    rw [if_neg (by simp [hu.readerClosed, hu.writerClosed])]
    cases env.stopsReading d'.pipeWrites data with
    | some n => exact .inr (.inl ⟨_, _, rfl⟩)
    | none => exact .inr (.inr ⟨_, rfl⟩)

theorem duplex_send_err {M : Type} (m : TripleUnaryMarshaler M) {msg : Option M} {e : Error}
    (h : d.Untouched) (hne : e.is .eof = false) (he : ((duplexConn env).send m d msg).1 = some e) :
    (∃ e', m.payload msg = .error e') ∧ ((duplexConn env).send m d msg).2.Untouched ∨
      (∃ data, m.payload msg = .ok data) ∧ ((duplexConn env).send m d msg).2.Stopped := by
  unfold TripleUnaryClientConn.send at he ⊢
  rcases m.marshal_err _ he with ⟨hp, hs⟩ | ⟨d', data, e', hp, hd', hw, his, hs⟩
  · rw [hs]
    exact .inl ⟨hp, h⟩
  · rw [hs]
    have h' : d'.Untouched := by
      rcases hd' with rfl | ⟨f, rfl⟩
      · exact h
      · exact ⟨h.piped, h.readerClosed, h.writerClosed⟩
    refine .inr ⟨⟨data, hp⟩, ?_⟩
    rcases duplex_write_cases env h' data with ⟨e₁, d₁, hd, hst⟩ | ⟨n, d₁, hd⟩ | ⟨d₁, hd⟩
    · rw [show (duplexConn env).sink.writer.write d' data = _ from hd]
      exact hst
    · rw [show (duplexConn env).sink.writer.write d' data = _ from hd] at hw
      rw [his, ← Option.some.inj hw] at hne
      cases hne
    · rw [show (duplexConn env).sink.writer.write d' data = _ from hd] at hw
      cases hw

theorem DuplexHTTPCall.Untouched.requests_closeWrite (h : d.Untouched) :
    d.closeWrite.2.requests = [⟨d.header, [], true⟩] := by
  unfold DuplexHTTPCall.requests DuplexHTTPCall.closeWrite DuplexHTTPCall.ensureRequestMade
  rw [if_pos rfl, h.piped, h.readerClosed]
  rfl

theorem DuplexHTTPCall.Stopped.requests_closeWrite (h : d.Stopped) :
    d.closeWrite.2.requests = [⟨d.header, [], false⟩] := by
  unfold DuplexHTTPCall.requests DuplexHTTPCall.closeWrite DuplexHTTPCall.ensureRequestMade
  rw [if_pos rfl, h.piped, h.readerClosed]
  rfl

end Duplex

section Buffered

variable (env : CallEnv) {w : StreamBufferWriter DuplexHTTPCall}

/-- Nothing was written to the buffer, and nothing went through the pipe below it. -/
structure BufferUntouched (w : StreamBufferWriter DuplexHTTPCall) : Prop where
  below : w.below.Untouched
  buf : w.buf = []
  err : w.err = none
  closed : w.closed = false

/-- The buffer has failed, but not with an end of stream, and the pipe was closed before anything
went through it. -/
structure BufferStopped (w : StreamBufferWriter DuplexHTTPCall) : Prop where
  below : w.below.Stopped
  err : ∃ e, w.err = some e ∧ e.is .eof = false

theorem buffered_direct_cases (h : w.below.Untouched) (p : Str) :
    (∃ n e w', w.writeDirectLocked (duplexBuffer env) p = ((n, some e), w') ∧ w'.below.Stopped ∧ w'.err = some e) ∨
      (∃ n w', w.writeDirectLocked (duplexBuffer env) p = ((n, some .eof), w')) ∨
        ∃ n w', w.writeDirectLocked (duplexBuffer env) p = ((n, none), w') := by
  unfold StreamBufferWriter.writeDirectLocked StreamBufferWriter.handOn
  dsimp only
  have hwrite : (duplexBuffer env).next.write w.below p = w.below.write env p := rfl
  rw [hwrite]
  rcases duplex_write_cases env h p with ⟨e, d', hd, hs⟩ | ⟨n, d', hd⟩ | ⟨d', hd⟩
  · rw [hd]
    exact .inl ⟨0, e, _, rfl, hs, rfl⟩
  · rw [hd]
    exact .inr (.inl ⟨n, _, rfl⟩)
  · rw [hd, StreamBufferWriter.writeError]
    rw [if_neg (lt_irrefl _)]
    exact .inr (.inr ⟨_, _, rfl⟩)

theorem buffered_write_cases (h : BufferUntouched w) (p : Str) :
    (∃ n e w', w.write (duplexBuffer env) p = ((n, some e), w') ∧ w'.below.Stopped ∧ w'.err = some e) ∨
      (∃ n w', w.write (duplexBuffer env) p = ((n, some .eof), w')) ∨
        ∃ n w', w.write (duplexBuffer env) p = ((n, none), w') := by
  unfold StreamBufferWriter.write StreamBufferWriter.check
  rw [h.err, h.closed]
  have hcheck : (duplexBuffer env).checker = some (DuplexHTTPCall.checkBeforeWrite env) := rfl
  rw [hcheck]
  dsimp only
  rw [if_neg (by simp)]
  rcases duplex_check_cases env h.below with ⟨e, d', hc, hs⟩ | ⟨d', hc, hu⟩
  · rw [hc]
    exact .inl ⟨0, e, _, rfl, hs, rfl⟩
  · rw [hc]
    dsimp only
    unfold StreamBufferWriter.writeOpen
    split_ifs with hp hlarge
    · exact buffered_direct_cases env hu p
    · unfold StreamBufferWriter.flushLocked
      rw [if_pos h.buf]
      exact buffered_direct_cases env hu p
    · rw [h.buf, List.nil_append, if_neg hlarge]
      exact .inr (.inr ⟨_, _, rfl⟩)

theorem buffered_send_err {M : Type} (m : TripleUnaryMarshaler M) {msg : Option M} {e : Error}
    (h : BufferUntouched w) (hne : e.is .eof = false) (he : ((bufferedConn env).send m w msg).1 = some e) :
    (∃ e', m.payload msg = .error e') ∧ BufferUntouched ((bufferedConn env).send m w msg).2 ∨
      (∃ data, m.payload msg = .ok data) ∧ BufferStopped ((bufferedConn env).send m w msg).2 := by
  unfold TripleUnaryClientConn.send at he ⊢
  rcases m.marshal_err _ he with ⟨hp, hs⟩ | ⟨w', data, e', hp, hw', hw, his, hs⟩
  · rw [hs]
    exact .inl ⟨hp, h⟩
  · rw [hs]
    refine .inr ⟨⟨data, hp⟩, ?_⟩
    have h' : BufferUntouched w' := by
      rcases hw' with rfl | ⟨f, rfl⟩
      · exact h
      · exact ⟨⟨h.below.piped, h.below.readerClosed, h.below.writerClosed⟩, h.buf, h.err, h.closed⟩
    have hwrite : (bufferedConn env).sink.writer.write w' data = w'.write (duplexBuffer env) data :=
      rfl
    rw [hwrite] at hw ⊢
    rcases buffered_write_cases env h' data with
      ⟨n, e₁, w₁, hd, hst, herr⟩ | ⟨n, w₁, hd⟩ | ⟨n, w₁, hd⟩
    · rw [hd] at hw ⊢
      refine ⟨hst, e₁, herr, ?_⟩
      rw [Option.some.inj hw, ← his]
      exact hne
    · rw [hd] at hw
      rw [his, ← Option.some.inj hw] at hne
      cases hne
    · rw [hd] at hw
      cases hw

theorem buffered_abandon_untouched (h : BufferUntouched w) :
    ((bufferedConn env).abandon w).below.requests = [⟨w.below.header, [], true⟩] := by
  have hclose : (bufferedConn env).closeBuffer w = (none, { w with closed := true }) := by
    simp [bufferedConn, StreamBufferWriter.close, StreamBufferWriter.flushLocked, h.err, h.closed, h.buf]
  unfold TripleUnaryClientConn.abandon TripleUnaryClientConn.closeResponse
  rw [(bufferedConn env).closeRequest_state, hclose]
  simp only [TripleUnaryClientConn.flushBeforeWait, bufferedConn, StreamBufferWriter.flush, h.err]
  exact h.below.requests_closeWrite

theorem buffered_abandon_stopped (h : BufferStopped w) :
    ((bufferedConn env).abandon w).below.requests = [⟨w.below.header, [], false⟩] := by
  obtain ⟨e, he, hne⟩ := h.err
  have hclose : (bufferedConn env).closeBuffer w = (some e, w) := by
    simp [bufferedConn, StreamBufferWriter.close, he]
  unfold TripleUnaryClientConn.abandon TripleUnaryClientConn.closeResponse
  rw [(bufferedConn env).closeRequest_state, hclose]
  simp only [TripleUnaryClientConn.flushBeforeWait, bufferedConn, StreamBufferWriter.flush, he, hne]
  rw [← h.below.requests_closeWrite]
  simp [DuplexHTTPCall.requests, DuplexHTTPCall.setError, DuplexHTTPCall.closeWrite,
    DuplexHTTPCall.ensureRequestMade, h.below.readerClosed]

end Buffered

/-! ## Abandoned calls -/

theorem requests_abandon {M : Type} (env : CallEnv) (path : ClientPath) (header : Header)
    (m : TripleUnaryMarshaler M) (msg : Option M) {e : Error}
    (he : ((path.newConn env).send m (path.start header) msg).1 = some e)
    (hne : e.is .eof = false) :
    ∃ header' complete, path.requests
        ((path.newConn env).abandon ((path.newConn env).send m (path.start header) msg).2) =
      [⟨header', [], complete⟩] ∧
      (complete = false ↔ path ≠ .fastPath ∧ ∃ data, m.payload msg = .ok data) := by
  cases path with
  | fastPath =>
    have h : (UnaryFastPathCall.new header).Untouched := ⟨rfl, rfl, rfl⟩
    exact ⟨_, true, fastPath_abandon (fastPath_send_err m h he), by simp⟩
  | duplex =>
    have h : (DuplexHTTPCall.new header).Untouched := ⟨rfl, rfl, rfl⟩
    rcases duplex_send_err env m h hne he with ⟨⟨e', hp⟩, hu⟩ | ⟨⟨data, hp⟩, hs⟩
    · exact ⟨_, true, hu.requests_closeWrite, by simp [hp]⟩
    · exact ⟨_, false, hs.requests_closeWrite, by simp [hp]⟩
  | buffered =>
    have h : BufferUntouched (.start (DuplexHTTPCall.new header)) :=
      ⟨⟨rfl, rfl, rfl⟩, rfl, rfl, rfl⟩
    rcases buffered_send_err env m h hne he with ⟨⟨e', hp⟩, hu⟩ | ⟨⟨data, hp⟩, hs⟩
    · exact ⟨_, true, buffered_abandon_untouched env hu, by simp [hp]⟩
    · exact ⟨_, false, buffered_abandon_stopped env hs, by simp [hp]⟩

/-- After a local failure of `Send` no request that the server would decode is issued just when the message was ready
and the call is a duplex one, whose ended context aborts the request, or the server's codec refuses an empty payload.
-/
theorem abandoned_call_not_received_iff {M M' V : Type} (env : CallEnv) (path : ClientPath)
    (header : Header) (m : TripleUnaryMarshaler M) (msg : Option M) (hc : TripleUnaryReceiver M' V) (e : Error)
    (he : ((path.newConn env).send m (path.start header) msg).1 = some e) (hne : e.is .eof = false) :
    (∀ req ∈ path.requests ((path.newConn env).abandon ((path.newConn env).send m (path.start header) msg).2),
      ∀ r, req.Carries r → ∀ v, hc.receive r ≠ .ok v) ↔ (path ≠ .fastPath ∧ ∃ data, m.payload msg = .ok data) ∨
        ∀ v, hc.session.unmarshal hc.target [] ≠ .ok v := by
  obtain ⟨header', complete, hreq, hcomplete⟩ := requests_abandon env path header m msg he hne
  rw [hreq, ← hcomplete]
  cases complete with
  | false =>
    refine ⟨fun _ => .inl rfl, fun _ req hmem r hr v => ?_⟩
    rw [List.mem_singleton.1 hmem] at hr
    exact receive_aborted hc hr.pending (hr.aborted rfl) v
  | true =>
    constructor
    · intro h
      refine .inr fun v hv => ?_
      exact h _ (List.mem_singleton_self _) ⟨[], .eof, false⟩ ⟨rfl, fun _ => rfl, nofun⟩ v
        ((receive_empty hc rfl rfl v).2 hv)
    · rintro (h | h) req hmem r hr v hv
      · cases h
      · rw [List.mem_singleton.1 hmem] at hr
        exact h v ((receive_empty hc hr.pending (hr.complete rfl) v).1 hv)

/-! ## A message over the limit -/

/-- The protobuf codec on messages with one `bytes` field, as far as short values are concerned:
field 1, its length and its bytes, and nothing at all for an empty field. -/
def shortBytesCodec : Codec Str where
  name := str "proto"
  marshal v := .ok (if v = [] then [] else 0x0a :: UInt8.ofNat v.length :: v)
  unmarshal
    | [] => .ok []
    | 0x0a :: n :: v =>
      if v.length = n.toNat then .ok v else .error (.plain (str "proto: cannot parse"))
    | _ => .error (.plain (str "proto: cannot parse"))

def oneByteMarshaler : TripleUnaryMarshaler Str := ⟨shortBytesCodec, 0, [], none, 1⟩

/-- A server with the codec `c`, for a handler that takes a protobuf message. -/
def protoReceiver (c : Codec Str) : TripleUnaryReceiver Str Unit where
  session := ⟨c, fun _ => .ok ⟨[], []⟩, fun _ => none, [], []⟩
  target := .proto
  typ := str "*wrapperspb.BytesValue"
  compressionPool := none
  readMaxBytes := 0

theorem oneByteMarshaler_send :
    ((ClientPath.fastPath.newConn quietEnv).send oneByteMarshaler
      (ClientPath.fastPath.start Header.empty) (some [7])).1 =
      some (sendMaxBytesError oneByteMarshaler.sendMaxBytes (str "message size ") 3) := rfl

/-- The fast path, a message over `sendMaxBytes` and a message type without required fields: the
call fails with the code for an exhausted resource, and the server decodes an empty message. -/
theorem oversized_message_reaches_handler : ∃ e, ((ClientPath.fastPath.newConn quietEnv).send oneByteMarshaler
        (ClientPath.fastPath.start Header.empty) (some [7])).1 = some e ∧
      e.is .eof = false ∧ e.code = codeResourceExhausted ∧
      ∃ req ∈ ClientPath.fastPath.requests ((ClientPath.fastPath.newConn quietEnv).abandon
          ((ClientPath.fastPath.newConn quietEnv).send oneByteMarshaler
            (ClientPath.fastPath.start Header.empty) (some [7])).2),
        ∃ r, req.Carries r ∧ (protoReceiver shortBytesCodec).receive r = .ok (.inl []) := by
  refine ⟨_, oneByteMarshaler_send, errorf_is _ _ _, rfl, ?_⟩
  refine ⟨_, List.mem_singleton_self _, ⟨[], .eof, false⟩, ⟨rfl, fun _ => rfl, nofun⟩, ?_⟩
  exact (receive_empty _ rfl rfl _).2 rfl

/-- With a codec that refuses an empty payload, as the one for JSON does, the same call fails and no
request of it is received. -/
theorem abandoned_call_not_received_json :
    (∃ e, ((ClientPath.fastPath.newConn quietEnv).send oneByteMarshaler
        (ClientPath.fastPath.start Header.empty) (some [7])).1 = some e ∧ e.is .eof = false) ∧
      ∀ req ∈ ClientPath.fastPath.requests ((ClientPath.fastPath.newConn quietEnv).abandon
          ((ClientPath.fastPath.newConn quietEnv).send oneByteMarshaler
            (ClientPath.fastPath.start Header.empty) (some [7])).2),
        ∀ r, req.Carries r → ∀ v, (protoReceiver { shortBytesCodec with
          unmarshal := fun _ => .error (.plain (str "zero-length payload is not a valid JSON object"))
        }).receive r ≠ .ok v :=
  ⟨⟨_, oneByteMarshaler_send, errorf_is _ _ _⟩,
    (abandoned_call_not_received_iff quietEnv .fastPath Header.empty oneByteMarshaler (some [7]) _ _
      oneByteMarshaler_send (errorf_is _ _ _)).2 (.inr nofun)⟩

end DubboGo.Triple
