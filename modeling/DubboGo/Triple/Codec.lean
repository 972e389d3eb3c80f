import DubboGo.Triple.Envelope

/-!
# Codecs and compression

What the connections are configured with: codecs (`codec.go`) and named compression pools (`compression.go`).  Codecs,
compressors and decompressors are third-party code and so are parameters.
-/

namespace DubboGo.Triple

open Go

/-- `Codec` for messages of type `M`: `Unmarshal` either fills the message or fails. -/
structure Codec (M : Type) where
  name : Str
  marshal : M → Except GoErr Str
  unmarshal : Str → Except GoErr M

/-- A decompressor: `Reset` opens a source and gives the stream of its decompressed bytes;
`Close` may fail when the source was not read to its end. -/
structure Decompressor where
  reset : Str → Except GoErr (ChunkReader ErrorHead)
  close : Str → Option GoErr

/-- A compressor: the error of copying the source into it, and what it has written after
`Close`. -/
structure Compressor where
  copy : Str → Option GoErr
  close : Str → Except GoErr Str

structure CompressionPool where
  decompressor : Decompressor
  compressor : Compressor

def maxInt64 : ℤ := 2 ^ 63 - 1

def poolRoom : ℕ → ℕ := fun _ => 0

/-- The `io.LimitReader` that `readMaxBytes` puts around a source: one byte more than allowed, so
that an excess shows. -/
def readLimit (readMaxBytes : ℤ) : Option ℕ :=
  if 0 < readMaxBytes ∧ readMaxBytes < maxInt64 then some (readMaxBytes.toNat + 1) else none

/-- The error for a message over `readMaxBytes`, once the rest of it has been read away to learn
its size. -/
def tooLargeError (readMaxBytes : ℤ) (bytesRead : ℕ) (r : ChunkReader ErrorHead) : Error :=
  let rest := r.readFrom discardRoom none
  match rest.err with
  | some e =>
    errorfWrap codeResourceExhausted (str "message is larger than configured max " ++
      itoa readMaxBytes ++ str " - unable to determine message size: ") e
  | none =>
    errorf codeResourceExhausted (str "message size " ++ itoa (bytesRead + rest.data.length) ++
      str " is larger than configured max " ++ itoa readMaxBytes)

namespace CompressionPool

def decompress (p : CompressionPool) (src : Str) (readMaxBytes : ℤ) : Except Error Str :=
  match p.decompressor.reset src with
  | .error e => .error (errorfWrap codeInvalidArgument (str "get decompressor: ") e)
  | .ok reader =>
    let res := reader.readFrom poolRoom (readLimit readMaxBytes)
    match res.err with
    | some e => .error (errorfWrap codeInvalidArgument (str "decompress: ") e)
    | none =>
      if 0 < readMaxBytes ∧ readMaxBytes < res.data.length then
        .error (tooLargeError readMaxBytes res.data.length res.next)
      else
        match p.decompressor.close src with
        | some e => .error (errorfWrap codeUnknown (str "recycle decompressor: ") e)
        | none => .ok res.data

def compress (p : CompressionPool) (src : Str) : Except Error Str :=
  match p.compressor.copy src with
  | some e => .error (errorfWrap codeInternal (str "compress: ") e)
  | none =>
    match p.compressor.close src with
    | .error e => .error (errorfWrap codeInternal (str "recycle compressor: ") e)
    | .ok out => .ok out

end CompressionPool

def compressionIdentity : Str := str "identity"

/-- `namedCompressionPools`. -/
structure CompressionPools where
  nameToPool : Str → Option CompressionPool
  commaSeparatedNames : Str

namespace CompressionPools

/-- `Get`: no pool for the empty name and for `identity`. -/
def get (m : CompressionPools) (name : Str) : Option CompressionPool :=
  if name = [] ∨ name = compressionIdentity then none else m.nameToPool name

def contains (m : CompressionPools) (name : Str) : Bool := (m.nameToPool name).isSome

end CompressionPools

/-! ## `envelopeReader.Unmarshal` -/

/-- The configuration of an `envelopeReader`. -/
structure EnvelopeReader (M : Type) where
  codec : Codec M
  backupCodec : Option (Codec M)
  compressionPool : Option CompressionPool
  readMaxBytes : ℤ

def errSpecialEnvelope : Error :=
  errorfWrap codeUnknown (str "final message has protocol-specific flags: ") .eof

/-- The outcome of `Unmarshal`: the decoded message (`none` when the message keeps its zero value),
the error, the final envelope it saved and the stream after it. -/
structure UnmarshalOutcome (M : Type) where
  message : Option M
  err : Option Error
  last : Option Envelope
  reader : ChunkReader ErrorHead

namespace EnvelopeReader

variable {M : Type}

def payload (rd : EnvelopeReader M) (env : Envelope) : Except Error Str :=
  if env.data ≠ [] ∧ env.isSet flagEnvelopeCompressed then
    match rd.compressionPool with
    | none =>
      .error (errorf codeInvalidArgument
        (str "gRPC protocol error: sent compressed message without Grpc-Encoding header"))
    | some pool => pool.decompress env.data rd.readMaxBytes
  else .ok env.data

def decode (rd : EnvelopeReader M) (data : Str) : Except GoErr M :=
  match rd.codec.unmarshal data with
  | .ok m => .ok m
  | .error e =>
    match rd.backupCodec with
    | some backup => if backup.name ≠ rd.codec.name then backup.unmarshal data else .error e
    | none => .error e

/-- `envelopeReader.Unmarshal`; `typ` is the name of the message's Go type in the error text. -/
def unmarshal (rd : EnvelopeReader M) (room : ℕ → ℕ) (typ : Str) (r : ChunkReader ErrorHead) : UnmarshalOutcome M :=
  let out := envelopeRead rd.readMaxBytes room r .fresh
  match out.err with
  | some e => ⟨none, some e, none, out.reader⟩
  | none =>
    let standard := out.env.flags = 0 ∨ out.env.flags = flagEnvelopeCompressed
    if standard ∧ out.env.data = [] then ⟨none, none, none, out.reader⟩
    else
      match rd.payload out.env with
      | .error e => ⟨none, some e, none, out.reader⟩
      | .ok data =>
        if ¬ standard then ⟨none, some errSpecialEnvelope, some ⟨data, out.env.flags⟩, out.reader⟩
        else
          match rd.decode data with
          | .ok m => ⟨some m, none, none, out.reader⟩
          | .error e =>
            ⟨none, some (errorfWrap codeInvalidArgument
              (str "unmarshal into " ++ typ ++ str ": ") e), none, out.reader⟩

end EnvelopeReader

/-! ## `envelopeWriter.Marshal` -/

/-- The configuration of an `envelopeWriter`. -/
structure EnvelopeWriter (M : Type) where
  codec : Codec M
  backupCodec : Option (Codec M)
  compressMinBytes : ℤ
  compressionPool : Option CompressionPool
  sendMaxBytes : ℤ

def exceedsSendMaxBytes (sendMaxBytes : ℤ) (len : ℕ) : Bool := 0 < sendMaxBytes ∧ sendMaxBytes < len

/-- The error of a message, as it is or compressed, that exceeds the limit. -/
def sendMaxBytesError (sendMaxBytes : ℤ) (what : Str) (len : ℕ) : Error :=
  errorf codeResourceExhausted (what ++ itoa len ++ str " exceeds sendMaxBytes " ++ itoa sendMaxBytes)

namespace EnvelopeWriter

variable {M : Type} (w : EnvelopeWriter M)

/-- The payload of a message: the codec's or, where it fails and there is another one, the backup
codec's.  A codec that appends to a buffer takes the same decisions. -/
def payload (msg : M) : Except Error Str :=
  let failed := errorfWrap codeInternal (str "marshal message: ")
  match w.codec.marshal msg with
  | .ok raw => .ok raw
  | .error e =>
    match w.backupCodec with
    | some backup =>
      if w.codec.name ≠ backup.name then (backup.marshal msg).mapError failed else .error (failed e)
    | none => .error (failed e)

/-- `envelopeWriter.Write` up to its call of `write`: the envelope that goes out. -/
def sealed (env : Envelope) : Except Error Envelope :=
  match if env.isSet flagEnvelopeCompressed ∨ (env.data.length : ℤ) < w.compressMinBytes then none
    else w.compressionPool with
  | none =>
    if exceedsSendMaxBytes w.sendMaxBytes env.data.length then
      .error (sendMaxBytesError w.sendMaxBytes (str "message size ") env.data.length)
    else .ok env
  | some pool =>
    match pool.compress env.data with
    | .error e => .error e
    | .ok data =>
      if exceedsSendMaxBytes w.sendMaxBytes data.length then
        .error (sendMaxBytesError w.sendMaxBytes (str "compressed message size ") data.length)
      else .ok ⟨data, env.flags ||| flagEnvelopeCompressed⟩

/-- What `Marshal` writes: an envelope, or for a nil message nothing but an empty `Write`. -/
def envelope : Option M → Except Error (Option Envelope)
  | none => .ok none
  | some msg => (w.payload msg).bind fun data => (w.sealed ⟨data, 0⟩).map some

end EnvelopeWriter

end DubboGo.Triple
