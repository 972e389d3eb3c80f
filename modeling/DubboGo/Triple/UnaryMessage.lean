import DubboGo.Triple.Codec

/-!
# Unary messages on the Triple wire

`tripleUnaryMarshaler` and `tripleUnaryUnmarshaler` of `protocol_triple.go`: a unary message is the
whole body of a request or a response, without an envelope.
-/

namespace DubboGo.Triple

open Go

def tripleUnaryHeaderCompression : Str := str "Content-Encoding"

/-! ## Writing -/

/-- The configuration of a `tripleUnaryMarshaler`. -/
structure TripleUnaryMarshaler (M : Type) where
  codec : Codec M
  compressMinBytes : ℤ
  compressionName : Str
  compressionPool : Option CompressionPool
  sendMaxBytes : ℤ

structure MessageSink (σ : Type) where
  writer : ByteWriter ErrorHead σ
  updateHeader : (Header → Header) → σ → σ

namespace TripleUnaryMarshaler

variable {M σ : Type} (m : TripleUnaryMarshaler M) (out : MessageSink σ)

def write (s : σ) (data : Str) : Option Error × σ :=
  let res := out.writer.write s data
  match res.1.2 with
  | some err =>
    (some ((asError err).getD (errorfWrap codeUnknown (str "write message: ") err)), res.2)
  | none => (none, res.2)

def compressAndWrite (s : σ) (buffer : Str) : Option Error × σ :=
  match if (buffer.length : ℤ) < m.compressMinBytes then none else m.compressionPool with
  | none =>
    if exceedsSendMaxBytes m.sendMaxBytes buffer.length then
      (some (sendMaxBytesError m.sendMaxBytes (str "message size ") buffer.length), s)
    else write out s buffer
  | some pool =>
    match pool.compress buffer with
    | .error e => (some e, s)
    | .ok compressed =>
      if exceedsSendMaxBytes m.sendMaxBytes compressed.length then
        (some (sendMaxBytesError m.sendMaxBytes (str "compressed message size ") compressed.length), s)
      else
        let s := out.updateHeader
          (fun h => setHeaderCanonical h tripleUnaryHeaderCompression m.compressionName) s
        write out s compressed

/-- `Marshal`; a nil message is written as an empty body.  A codec that appends to a buffer gives
the same bytes and the same error as one that does not. -/
def marshal (s : σ) (message : Option M) : Option Error × σ :=
  match message with
  | none => write out s []
  | some msg =>
    match m.codec.marshal msg with
    | .error e => (some (errorfWrap codeInternal (str "marshal message: ") e), s)
    | .ok data => m.compressAndWrite out s data

/-- The bytes that `Marshal` writes for a message, or the error it has before it writes. -/
def payload (message : Option M) : Except Error Str :=
  match message with
  | none => .ok []
  | some msg =>
    match m.codec.marshal msg with
    | .error e => .error (errorfWrap codeInternal (str "marshal message: ") e)
    | .ok buffer =>
      match if (buffer.length : ℤ) < m.compressMinBytes then none else m.compressionPool with
      | none =>
        if exceedsSendMaxBytes m.sendMaxBytes buffer.length then
          .error (sendMaxBytesError m.sendMaxBytes (str "message size ") buffer.length)
        else .ok buffer
      | some pool =>
        match pool.compress buffer with
        | .error e => .error e
        | .ok compressed =>
          if exceedsSendMaxBytes m.sendMaxBytes compressed.length then
            .error (sendMaxBytesError m.sendMaxBytes (str "compressed message size ") compressed.length)
          else .ok compressed

theorem marshal_cases (s : σ) (msg : Option M) : (∃ e, m.payload msg = .error e ∧ m.marshal out s msg = (some e, s)) ∨
      ∃ s' data, m.payload msg = .ok data ∧ (s' = s ∨ ∃ f, s' = out.updateHeader f s) ∧
        m.marshal out s msg = write out s' data := by
  unfold marshal payload
  split
  · exact .inr ⟨s, [], rfl, .inl rfl, rfl⟩
  · split
    · exact .inl ⟨_, rfl, rfl⟩
    · unfold compressAndWrite
      split
      · split_ifs
        · exact .inl ⟨_, rfl, rfl⟩
        · exact .inr ⟨s, _, rfl, .inl rfl, rfl⟩
      · split
        · exact .inl ⟨_, rfl, rfl⟩
        · split_ifs
          · exact .inl ⟨_, rfl, rfl⟩
          · exact .inr ⟨_, _, rfl, .inr ⟨_, rfl⟩, rfl⟩

/-- An error of `Marshal` comes before it has written anything, or from the writer. -/
theorem marshal_err {s : σ} {msg : Option M} {e : Error} (h : (m.marshal out s msg).1 = some e) :
    ((∃ e', m.payload msg = .error e') ∧ (m.marshal out s msg).2 = s) ∨
      ∃ s' data e', m.payload msg = .ok data ∧ (s' = s ∨ ∃ f, s' = out.updateHeader f s) ∧
        (out.writer.write s' data).1.2 = some e' ∧ (∀ t, e.is t = e'.is t) ∧
        (m.marshal out s msg).2 = (out.writer.write s' data).2 := by
  rcases m.marshal_cases out s msg with ⟨e', hp, he'⟩ | ⟨s', data, hp, hs', hm⟩
  · rw [he']
    exact .inl ⟨⟨e', hp⟩, rfl⟩
  · rw [hm] at h ⊢
    unfold write at h ⊢
    dsimp only at h ⊢
    split at h
    · next e' he' =>
      refine .inr ⟨s', data, e', hp, hs', he', fun t => ?_, ?_⟩
      · rw [← Option.some.inj h]
        exact asError_getD_is e' _ _ t
      · rfl
    · cases h

end TripleUnaryMarshaler

/-! ## Reading -/

/-- The state of a `tripleUnaryUnmarshaler`. -/
structure TripleUnaryUnmarshaler where
  reader : ChunkReader ErrorHead
  compressionPool : Option CompressionPool
  readMaxBytes : ℤ
  alreadyRead : Bool

namespace TripleUnaryUnmarshaler

variable {M : Type} (u : TripleUnaryUnmarshaler) (typ : Str) (unmarshal : Str → Except GoErr M)

/-- The error for a body that could not be read, of which `bytesRead` bytes were. -/
def readError (bytesRead : ℕ) (e : GoErr) : Error :=
  match asError e with
  | some tripleErr => tripleErr
  | none =>
    (asMaxBytesError e (str "read first " ++ itoa bytesRead ++ str " bytes of message")).getD
      (errorfWrap codeUnknown (str "read message: ") e)

def message (data : Str) : Except Error Str :=
  match if data = [] then none else u.compressionPool with
  | some pool => pool.decompress data u.readMaxBytes
  | none => .ok data

/-- Decoding the bytes of the message; `typ` is the name of the message's Go type. -/
def decode (data : Str) : Except Error M :=
  match u.message data with
  | .error e => .error e
  | .ok data =>
    match unmarshal data with
    | .error e =>
      .error (errorfWrap codeInvalidArgument (str "unmarshal into " ++ typ ++ str ": ") e)
    | .ok m => .ok m

def unmarshalFunc : Except Error M × TripleUnaryUnmarshaler :=
  if u.alreadyRead then (.error (newError codeInternal (some .eof)), u)
  else
    let res := u.reader.readFrom poolRoom (readLimit u.readMaxBytes)
    let u' := { u with alreadyRead := true, reader := res.next }
    match res.err with
    | some e => (.error (readError res.data.length e), u')
    | none =>
      if 0 < u.readMaxBytes ∧ u.readMaxBytes < res.data.length then
        (.error (tooLargeError u.readMaxBytes res.data.length res.next), u')
      else (u.decode typ unmarshal res.data, u')

variable {u}

theorem decode_of_plain (hpool : u.compressionPool = none) (data : Str) :
    u.decode typ unmarshal data =
      match unmarshal data with
      | .error e =>
        .error (errorfWrap codeInvalidArgument (str "unmarshal into " ++ typ ++ str ": ") e)
      | .ok m => .ok m := by
  unfold decode message
  rw [hpool, ite_self]

theorem decode_of_rejected {pool : CompressionPool} {data : Str} {e : Error}
    (hpool : u.compressionPool = some pool) (hne : data ≠ []) (h : pool.decompress data u.readMaxBytes = .error e) :
    u.decode typ unmarshal data = .error e := by
  unfold decode message
  rw [if_neg hne, hpool]
  dsimp only
  rw [h]

theorem unmarshalFunc_of_clean (hfirst : u.alreadyRead = false) (hlast : u.reader.last = .eof)
    (hfit : u.readMaxBytes ≤ 0 ∨ (u.reader.pending.length : ℤ) ≤ u.readMaxBytes) :
    (u.unmarshalFunc typ unmarshal).1 = u.decode typ unmarshal u.reader.pending := by
  obtain ⟨h1, h2, -, -⟩ := u.reader.readFrom_spec poolRoom (readLimit u.readMaxBytes) hlast
  have hthrough : ChunkReader.through (readLimit u.readMaxBytes) u.reader.pending = u.reader.pending := by
    unfold readLimit
    split_ifs with hlim
    · apply List.take_of_length_le
      omega
    · rfl
  rw [hthrough] at h1
  unfold unmarshalFunc
  rw [if_neg (by simp [hfirst])]
  dsimp only
  rw [h1, h2]
  rw [if_neg (by omega)]

theorem unmarshalFunc_of_aborted (hp : u.reader.chunks = []) (hlast : u.reader.last.isExactly .eof = false) (m : M) :
    (u.unmarshalFunc typ unmarshal).1 ≠ .ok m := by
  have hread : ∀ n, u.reader.read n = ⟨[], some u.reader.last, u.reader⟩ := by
    intro n
    simp [ChunkReader.read, hp]
  have hl : readLimit u.readMaxBytes ≠ some 0 := by
    unfold readLimit
    split_ifs <;> simp
  have hfrom : u.reader.readFrom poolRoom (readLimit u.readMaxBytes) = ⟨[], some u.reader.last, u.reader⟩ := by
    rw [ChunkReader.readFrom_of_err hl rfl (congrArg ReadResult.err (hread _)), hread, hlast]
    rfl
  unfold unmarshalFunc
  split_ifs
  · intro h
    cases h
  · rw [hfrom]
    intro h
    cases h

end TripleUnaryUnmarshaler

end DubboGo.Triple
