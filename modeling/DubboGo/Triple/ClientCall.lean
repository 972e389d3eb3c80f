import DubboGo.Triple.BufferedWriter
import DubboGo.Triple.UnaryMessage

/-!
# The client side of a unary Triple call

The two transports of `unaryClientCall`, `unaryFastPathCall` (`unary_fastpath.go`) and
`duplexHTTPCall` (`duplex_http_call.go`), and `tripleUnaryClientConn` over them, the duplex one with
or without a write buffer.
-/

namespace DubboGo.Triple

open Go

/-- What a call meets from outside: the results of its `ctx.Err()` calls, the error that a request of the fast path
ends with (from `Do` or `validateResponse`), and, for the pipe of a duplex call, whether the transport stops reading
during one of its writes, and after how many bytes. -/
structure CallEnv where
  ctxErr : ℕ → Option GoErr
  roundTrip : Header → Str → Option GoErr
  stopsReading : ℕ → Str → Option ℕ

def quietEnv : CallEnv := ⟨fun _ => none, fun _ _ => none, fun _ _ => none⟩

/-- A request handed to the HTTP client; `complete` says that reading its body gives a clean end and
not an error. -/
structure HTTPRequest where
  header : Header
  body : Str
  complete : Bool

/-! ## `unaryFastPathCall` -/

/-- The state of a `unaryFastPathCall`.  No body buffer and an empty one are both sent as
`http.NoBody`; `bodySent` is also the state of `sendOnce`. -/
structure UnaryFastPathCall where
  header : Header
  body : Str
  bodySent : Bool
  err : Option GoErr
  ctxChecks : ℕ
  requests : List HTTPRequest

namespace UnaryFastPathCall

def new (header : Header) : UnaryFastPathCall := ⟨header, [], false, none, 0, []⟩

def setError (e : GoErr) (c : UnaryFastPathCall) : UnaryFastPathCall :=
  { c with err := c.err.or (some (wrapIfContextError e)) }

def write (env : CallEnv) (c : UnaryFastPathCall) (data : Str) : (ℕ × Option GoErr) × UnaryFastPathCall :=
  if c.bodySent then ((0, some .eof), c)
  else
    match c.err with
    | some e => ((0, some e), c)
    | none =>
      let c' := { c with ctxChecks := c.ctxChecks + 1 }
      match env.ctxErr c.ctxChecks with
      | some e => ((0, some (wrapIfContextError e)), c'.setError e)
      | none => ((data.length, none), { c' with body := c.body ++ data })

def makeRequest (env : CallEnv) (c : UnaryFastPathCall) : UnaryFastPathCall :=
  let c' := { c with bodySent := true, requests := c.requests ++ [⟨c.header, c.body, true⟩] }
  match env.roundTrip c.header c.body with
  | some e => c'.setError e
  | none => c'

def closeWrite (env : CallEnv) (c : UnaryFastPathCall) : Option GoErr × UnaryFastPathCall :=
  (none, if c.bodySent then c else c.makeRequest env)

end UnaryFastPathCall

/-! ## `duplexHTTPCall` -/

/-- The state of a `duplexHTTPCall`: whether the request was handed to the HTTP client, the bytes
the transport has read from the pipe, and the two ends of the pipe. -/
structure DuplexHTTPCall where
  header : Header
  requestMade : Bool
  piped : Str
  readerClosed : Bool
  writerClosed : Bool
  err : Option GoErr
  ctxChecks : ℕ
  pipeWrites : ℕ

namespace DuplexHTTPCall

def new (header : Header) : DuplexHTTPCall := ⟨header, false, [], false, false, none, 0, 0⟩

def ensureRequestMade (d : DuplexHTTPCall) : DuplexHTTPCall := { d with requestMade := true }

def setError (e : GoErr) (d : DuplexHTTPCall) : DuplexHTTPCall :=
  { d with err := d.err.or (some (wrapIfContextError e)), readerClosed := true }

def checkBeforeWrite (env : CallEnv) (d : DuplexHTTPCall) : Option GoErr × DuplexHTTPCall :=
  let d' := { d with ctxChecks := d.ctxChecks + 1 }
  match env.ctxErr d.ctxChecks with
  | some e => (some (wrapIfContextError e), d'.ensureRequestMade.setError e)
  | none => (none, d')

/-- `io.PipeWriter.Write`: it returns when the transport has read all of `data`, or when one end of
the pipe is closed. -/
def pipeWrite (env : CallEnv) (d : DuplexHTTPCall) (data : Str) : (ℕ × Option GoErr) × DuplexHTTPCall :=
  if d.readerClosed || d.writerClosed then ((0, some (.sentinel .closedPipe)), d)
  else
    let d' := { d with pipeWrites := d.pipeWrites + 1 }
    match env.stopsReading d.pipeWrites data with
    | some n =>
      (((data.take n).length, some (.sentinel .closedPipe)),
        { d' with piped := d.piped ++ data.take n, readerClosed := true })
    | none => ((data.length, none), { d' with piped := d.piped ++ data })

def write (env : CallEnv) (d : DuplexHTTPCall) (data : Str) : (ℕ × Option GoErr) × DuplexHTTPCall :=
  match d.ensureRequestMade.checkBeforeWrite env with
  | (some e, d) => ((0, some e), d)
  | (none, d) =>
    match d.pipeWrite env data with
    | ((n, some e), d) => if e.is .closedPipe then ((n, some .eof), d) else ((n, some e), d)
    | ((n, none), d) => ((n, none), d)

def closeWrite (d : DuplexHTTPCall) : Option GoErr × DuplexHTTPCall :=
  (none, { d.ensureRequestMade with writerClosed := true })

def requests (d : DuplexHTTPCall) : List HTTPRequest :=
  if d.requestMade then [⟨d.header, d.piped, d.writerClosed && !d.readerClosed⟩] else []

end DuplexHTTPCall

/-! ## `tripleUnaryClientConn` -/

/-- A `tripleUnaryClientConn` with its transport and its write buffer, over their joint state. -/
structure TripleUnaryClientConn (σ : Type) where
  sink : MessageSink σ
  closeBuffer : σ → Option GoErr × σ
  flushBuffer : σ → Option GoErr × σ
  closeWrite : σ → Option GoErr × σ
  setError : GoErr → σ → σ

namespace TripleUnaryClientConn

variable {σ M : Type} (cc : TripleUnaryClientConn σ)

def send (m : TripleUnaryMarshaler M) (s : σ) (msg : Option M) : Option Error × σ :=
  m.marshal cc.sink s msg

def closeRequest (s : σ) : Option GoErr × σ :=
  let flushed := cc.closeBuffer s
  let closed := cc.closeWrite flushed.2
  match flushed.1 with
  | some e => if e.is .eof then closed else (some e, closed.2)
  | none => closed

def flushBeforeWait (s : σ) : σ :=
  match cc.flushBuffer s with
  | (some e, s) => if e.is .eof then s else cc.setError e s
  | (none, s) => s

/-- `CloseResponse` as far as the request is concerned: `CloseRead` closes the body of the
response. -/
def closeResponse (s : σ) : σ := cc.flushBeforeWait s

/-- The end of a unary call whose `Send` failed on the client's side (`NewClient`): both directions
are closed and their errors are dropped. -/
def abandon (s : σ) : σ := cc.closeResponse (cc.closeRequest s).2

theorem closeRequest_state (s : σ) : (cc.closeRequest s).2 = (cc.closeWrite (cc.closeBuffer s).2).2 := by
  unfold closeRequest
  dsimp only
  split
  · split_ifs <;> rfl
  · rfl

end TripleUnaryClientConn

def fastPathConn (env : CallEnv) : TripleUnaryClientConn UnaryFastPathCall where
  sink := ⟨⟨UnaryFastPathCall.write env⟩, fun f c => { c with header := f c.header }⟩
  closeBuffer c := (none, c)
  flushBuffer c := (none, c)
  closeWrite := UnaryFastPathCall.closeWrite env
  setError := UnaryFastPathCall.setError

def duplexConn (env : CallEnv) : TripleUnaryClientConn DuplexHTTPCall where
  sink := ⟨⟨DuplexHTTPCall.write env⟩, fun f d => { d with header := f d.header }⟩
  closeBuffer d := (none, d)
  flushBuffer d := (none, d)
  closeWrite := DuplexHTTPCall.closeWrite
  setError := DuplexHTTPCall.setError

def duplexBuffer (env : CallEnv) : StreamBufferConfig DuplexHTTPCall :=
  newStreamBufferWriter ⟨DuplexHTTPCall.write env⟩ (some (DuplexHTTPCall.checkBeforeWrite env))

def bufferedConn (env : CallEnv) : TripleUnaryClientConn (StreamBufferWriter DuplexHTTPCall) where
  sink := ⟨StreamBufferWriter.asWriter (duplexBuffer env),
    fun f w => { w with below := { w.below with header := f w.below.header } }⟩
  closeBuffer := StreamBufferWriter.close (duplexBuffer env)
  flushBuffer := StreamBufferWriter.flush (duplexBuffer env)
  closeWrite w := (w.below.closeWrite.1, { w with below := w.below.closeWrite.2 })
  setError e w := { w with below := w.below.setError e }

/-- The three ways in which `tripleClient.NewConn` sets up a unary connection. -/
inductive ClientPath where
  | fastPath
  | duplex
  | buffered

namespace ClientPath

/-- The choice of `tripleClient.NewConn`. -/
def ofConfig (unaryFastPath writeBuffering : Bool) : ClientPath :=
  if unaryFastPath then .fastPath else if writeBuffering then .buffered else .duplex

def State : ClientPath → Type
  | fastPath => UnaryFastPathCall
  | duplex => DuplexHTTPCall
  | buffered => StreamBufferWriter DuplexHTTPCall

def newConn (env : CallEnv) : (path : ClientPath) → TripleUnaryClientConn path.State
  | fastPath => fastPathConn env
  | duplex => duplexConn env
  | buffered => bufferedConn env

def start (header : Header) : (path : ClientPath) → path.State
  | fastPath => UnaryFastPathCall.new header
  | duplex => DuplexHTTPCall.new header
  | buffered => StreamBufferWriter.start (DuplexHTTPCall.new header)

def requests : (path : ClientPath) → path.State → List HTTPRequest
  | fastPath, c => UnaryFastPathCall.requests c
  | duplex, d => DuplexHTTPCall.requests d
  | buffered, w => DuplexHTTPCall.requests (StreamBufferWriter.below w)

end ClientPath

end DubboGo.Triple
