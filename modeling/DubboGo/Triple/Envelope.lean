import DubboGo.Go.Binary
import DubboGo.Go.Stream
import DubboGo.Triple.Error

/-!
# Envelopes

The framing of `envelope.go`: a flag byte, a big-endian 32-bit length and the payload.  This file has
`envelopeWriter.write` and `envelopeReader.Read` over an arbitrary writer and chunked stream, and says what one `Read`
does to a stream whose next bytes are a frame, the beginning of one or nothing.
-/

namespace DubboGo.Triple

open Go List

/-- `envelope`: the payload and the flags. -/
structure Envelope where
  data : Str
  flags : UInt8
  deriving DecidableEq, Repr

/-- The envelope `Read` is given: an empty buffer of the pool. -/
def Envelope.fresh : Envelope := ⟨[], 0⟩

def flagEnvelopeCompressed : UInt8 := 1

def Envelope.isSet (e : Envelope) (flag : UInt8) : Bool := e.flags &&& flag = flag

/-- The five bytes before a payload; the length is converted to `uint32`. -/
def Envelope.head (e : Envelope) : Str := e.flags :: putUint 4 (e.data.length % 2 ^ 32)

def Envelope.frame (e : Envelope) : Str := e.head ++ e.data

/-! ## Writing -/

/-- `envelopeWriter.write`. -/
def envelopeWrite {σ : Type} (w : ByteWriter ErrorHead σ) (s : σ) (env : Envelope) : Option Error × σ :=
  let res := w.write s env.head
  match res.1.2 with
  | some err =>
    (some ((asError err).getD (errorfWrap codeUnknown (str "write envelope: ") err)), res.2)
  | none =>
    let res' := w.copyBuffer res.2 env.data
    (res'.1.map fun err => errorfWrap codeUnknown (str "write message: ") err, res'.2)

/-! ## Reading -/

def isSizeZeroPrefix (p : Str) : Bool := (p.drop 1).all fun b => b = 0

/-- The outcome of a `Read`: the envelope it filled, its error and the stream after it. -/
structure ReadOutcome where
  env : Envelope
  err : Option Error
  reader : ChunkReader ErrorHead

theorem copyN_progress {room : ℕ → ℕ} {r : ChunkReader ErrorHead} {n : ℕ}
    (he : (r.copyN room n).err = none) : (r.copyN room n).data.length = n := by
  unfold ChunkReader.copyN at he ⊢
  dsimp only at he ⊢
  split_ifs at he ⊢ with h
  · exact h
  · split at he <;> cases he

/-- The loop of `Read` over the body: `remaining` of the promised `size` bytes are still missing,
and `data` is what the buffer holds. -/
def readBody (room : ℕ → ℕ) (size : ℕ) (r : ChunkReader ErrorHead) (data : Str) (remaining : ℕ) :
    Str × Option Error × ChunkReader ErrorHead :=
  if _hr : remaining = 0 then (data, none, r)
  else
    let res := r.copyN room remaining
    match _he : (r.copyN room remaining).err with
    | some e =>
      if !e.is .eof then
        (data ++ res.data,
          some ((asMaxBytesError e (str "read " ++ itoa size ++ str " byte message")).getD
            (errorfWrap codeUnknown (str "read enveloped message: ") e)), res.next)
      else if _h0 : res.data.length = 0 then
        -- nothing came before the end of the stream: do not wait for more
        (data, some (errorf codeInvalidArgument (str "protocol error: promised " ++ itoa size ++
          str " bytes in enveloped message, got " ++ itoa (size - remaining) ++ str " bytes")),
          res.next)
      else readBody room size res.next (data ++ res.data) (remaining - res.data.length)
    | none => readBody room size res.next (data ++ res.data) (remaining - res.data.length)
termination_by remaining
decreasing_by
  · have : (r.copyN room remaining).data.length ≠ 0 := _h0
    omega
  · have := copyN_progress _he
    omega

/-- The blocks `io.Discard` reads with. -/
def discardRoom : ℕ → ℕ := fun _ => 8192

/-- `envelopeReader.Read`.  An `int` has 64 bits, so that the size is never negative. -/
def envelopeRead (readMaxBytes : ℤ) (room : ℕ → ℕ) (r : ChunkReader ErrorHead) (env : Envelope) : ReadOutcome :=
  let pre := r.readFull 5
  if (pre.err.all fun e => e.is .eof) && pre.data.length = 5 && isSizeZeroPrefix pre.data then
    ⟨{ env with flags := pre.data.headD 0 }, none, pre.next⟩
  else
    match pre.err with
    | some e =>
      if e.is .eof && pre.data.length = 0 then
        ⟨env, some (newError codeUnknown (some e)), pre.next⟩
      else
        match asError e, asMaxBytesError e (str "read 5 byte message prefix") with
        | some tripleErr, _ => ⟨env, some tripleErr, pre.next⟩
        | none, some maxBytesErr => ⟨env, some maxBytesErr, pre.next⟩
        | none, none =>
          ⟨env, some (errorfWrap codeInvalidArgument (str "protocol error: incomplete envelope: ") e), pre.next⟩
    | none =>
      let size := uint (pre.data.drop 1)
      if 0 < readMaxBytes ∧ readMaxBytes < size then
        let res := pre.next.copyN discardRoom size
        let tooLarge := errorf codeResourceExhausted (str "message size " ++ itoa size ++
          str " is larger than configured max " ++ itoa readMaxBytes)
        match res.err with
        | some e =>
          if e.is .eof then ⟨env, some tooLarge, res.next⟩
          else ⟨env, some (errorfWrap codeUnknown (str "read enveloped message: ") e), res.next⟩
        | none => ⟨env, some tooLarge, res.next⟩
      else
        let body := readBody room size pre.next env.data size
        match body.2.1 with
        | some e => ⟨{ env with data := body.1 }, some e, body.2.2⟩
        | none => ⟨⟨body.1, pre.data.headD 0⟩, none, body.2.2⟩

/-! ## The length field -/

theorem length_head (e : Envelope) : e.head.length = 5 := by
  rw [Envelope.head, length_cons, length_putUint]

theorem length_frame (e : Envelope) : e.frame.length = 5 + e.data.length := by
  rw [Envelope.frame, length_append, length_head]

theorem uint_head {e : Envelope} (h : e.data.length < 2 ^ 32) : uint (e.head.drop 1) = e.data.length := by
  rw [Envelope.head, drop_succ_cons, drop_zero, Nat.mod_eq_of_lt h, uint_putUint]
  exact Nat.mod_eq_of_lt h

theorem isSizeZeroPrefix_head {e : Envelope} (h : e.data.length < 2 ^ 32) :
    isSizeZeroPrefix e.head = true ↔ e.data = [] := by
  rw [← length_eq_zero_iff]
  constructor
  · intro hz
    have hall : ∀ b ∈ e.head.drop 1, b = 0 := by simpa [isSizeZeroPrefix] using hz
    rw [← uint_head h, uint_eq_zero hall]
  · intro hz
    simp only [isSizeZeroPrefix, Envelope.head, hz, drop_succ_cons, drop_zero]
    decide

/-! ## One body -/

section Body

variable (room : ℕ → ℕ) (size : ℕ) (data : Str) {r : ChunkReader ErrorHead} {rem : ℕ}

theorem readBody_zero : readBody room size r data 0 = (data, none, r) := by
  rw [readBody, dif_pos rfl]

theorem readBody_of_copied (h0 : rem ≠ 0) (he : (r.copyN room rem).err = none) : readBody room size r data rem =
      (data ++ (r.copyN room rem).data, none, (r.copyN room rem).next) := by
  rw [readBody, dif_neg h0]
  dsimp only
  split
  · next e he' =>
    rw [he] at he'
    cases he'
  · rw [copyN_progress he, Nat.sub_self, readBody_zero]

theorem readBody_of_some (h0 : rem ≠ 0) (he : (r.copyN room rem).err = some .eof)
    (hd : (r.copyN room rem).data.length ≠ 0) : readBody room size r data rem =
      readBody room size (r.copyN room rem).next (data ++ (r.copyN room rem).data)
        (rem - (r.copyN room rem).data.length) := by
  rw [readBody, dif_neg h0]
  split
  · next e he' =>
    rw [he] at he'
    cases he'
    rw [if_neg (by simp), dif_neg hd]
  · rfl

theorem readBody_of_nothing (h0 : rem ≠ 0) (he : (r.copyN room rem).err = some .eof)
    (hd : (r.copyN room rem).data.length = 0) :
    ∃ e, (readBody room size r data rem).2.1 = some e ∧ e.is .eof = false := by
  rw [readBody, dif_neg h0]
  split
  · next e he' =>
    rw [he] at he'
    cases he'
    rw [if_neg (by simp), dif_pos hd]
    exact ⟨_, rfl, errorf_is _ _ _⟩
  · next he' =>
    rw [he] at he'
    cases he'

theorem readBody_of_le (h : rem ≤ r.pending.length) (hlast : r.last = .eof) :
    ∃ r', readBody room size r data rem = (data ++ r.pending.take rem, none, r') ∧
      r'.pending = r.pending.drop rem ∧ r'.last = .eof := by
  by_cases h0 : rem = 0
  · subst h0
    exact ⟨r, by rw [readBody_zero, take_zero, append_nil], rfl, hlast⟩
  · obtain ⟨h1, h2, h3, h4⟩ := r.copyN_spec room rem hlast
    rw [if_pos h] at h2
    exact ⟨_, by rw [readBody_of_copied room size data h0 h2, h1], h3, h4⟩

theorem readBody_of_lt (h : r.pending.length < rem) (hlast : r.last = .eof) :
    ∃ e, (readBody room size r data rem).2.1 = some e ∧ e.is .eof = false := by
  have h0 : rem ≠ 0 := by omega
  obtain ⟨h1, h2, h3, h4⟩ := r.copyN_spec room rem hlast
  rw [if_neg (by omega)] at h2
  rw [take_of_length_le h.le] at h1
  by_cases hp : r.pending = []
  · exact readBody_of_nothing room size data h0 h2 (by rw [h1, hp]; rfl)
  · rw [readBody_of_some room size data h0 h2 (by rw [h1]; simpa using hp), h1]
    rw [drop_eq_nil_of_le h.le] at h3
    obtain ⟨k1, k2, -, -⟩ := (r.copyN room rem).next.copyN_spec room (rem - r.pending.length) h4
    rw [h3, length_nil, if_neg (by omega)] at k2
    refine readBody_of_nothing room size _ (by omega) k2 ?_
    rw [k1, h3, take_nil, length_nil]

end Body

/-! ## One `Read` -/

section Read

variable (readMaxBytes : ℤ) (room : ℕ → ℕ) {r : ChunkReader ErrorHead} {e : Envelope} {rest : Str}

/-- The first five bytes of a frame are read whole. -/
theorem readFull_head (hp : r.pending = e.head ++ rest) : (r.readFull 5).data = e.head ∧ (r.readFull 5).err = none ∧
      (r.readFull 5).next.pending = rest ∧ (r.readFull 5).next.last = r.last := by
  have hle : 5 ≤ r.pending.length := by
    rw [hp, length_append, length_head]
    omega
  obtain ⟨h1, h2, h3, h4⟩ := ChunkReader.readFull_of_le hle
  refine ⟨?_, h2, ?_, h4⟩
  · rw [h1, hp]
    exact take_left' (length_head e)
  · rw [h3, hp]
    exact drop_left' (length_head e)

/-- What follows the head: the size is checked, then the payload is copied. -/
theorem envelopeRead_of_head (h1 : (r.readFull 5).data = e.head) (h2 : (r.readFull 5).err = none)
    (hlen : e.data.length < 2 ^ 32) (hne : e.data ≠ []) :
    envelopeRead readMaxBytes room r .fresh =
      let size := e.data.length
      if 0 < readMaxBytes ∧ readMaxBytes < size then
        let res := (r.readFull 5).next.copyN discardRoom size
        let tooLarge := errorf codeResourceExhausted (str "message size " ++ itoa size ++
          str " is larger than configured max " ++ itoa readMaxBytes)
        match res.err with
        | some e =>
          if e.is .eof then ⟨.fresh, some tooLarge, res.next⟩
          else ⟨.fresh, some (errorfWrap codeUnknown (str "read enveloped message: ") e), res.next⟩
        | none => ⟨.fresh, some tooLarge, res.next⟩
      else
        let body := readBody room size (r.readFull 5).next [] size
        match body.2.1 with
        | some err => ⟨{ Envelope.fresh with data := body.1 }, some err, body.2.2⟩
        | none => ⟨⟨body.1, e.flags⟩, none, body.2.2⟩ := by
  have hz : isSizeZeroPrefix e.head = false := by
    rw [← Bool.not_eq_true, isSizeZeroPrefix_head hlen]
    exact hne
  unfold envelopeRead
  simp only [h1, h2, hz, Bool.and_false, Bool.false_eq_true, if_false, uint_head hlen]
  rfl

theorem read_frame_fits {readMaxBytes : ℤ} (hp : r.pending = e.frame ++ rest) (hlast : r.last = .eof)
    (hlen : e.data.length < 2 ^ 32) (hfit : readMaxBytes ≤ 0 ∨ (e.data.length : ℤ) ≤ readMaxBytes) :
    ∃ r', envelopeRead readMaxBytes room r .fresh = ⟨e, none, r'⟩ ∧ r'.pending = rest ∧ r'.last = .eof := by
  rw [Envelope.frame, append_assoc] at hp
  obtain ⟨h1, h2, h3, h4⟩ := readFull_head hp
  by_cases hne : e.data = []
  · refine ⟨(r.readFull 5).next, ?_, by rw [h3, hne]; rfl, h4.trans hlast⟩
    unfold envelopeRead
    simp only [h1, h2, (isSizeZeroPrefix_head hlen).2 hne, Option.all_none, length_head,
      decide_true, Bool.and_self, if_true]
    rw [Envelope.fresh, ← hne]
    rfl
  · rw [envelopeRead_of_head _ _ h1 h2 hlen hne]
    rw [if_neg (by omega)]
    have hle : e.data.length ≤ (r.readFull 5).next.pending.length := by
      rw [h3]
      simp
    obtain ⟨r', hb, hp', hl'⟩ := readBody_of_le room e.data.length [] hle (h4.trans hlast)
    rw [hb, h3, nil_append, take_left]
    rw [h3, drop_left] at hp'
    exact ⟨r', rfl, hp', hl'⟩

theorem read_frame_large {readMaxBytes : ℤ} (hp : r.pending = e.frame ++ rest) (hlast : r.last = .eof)
    (hlen : e.data.length < 2 ^ 32) (hlarge : 0 < readMaxBytes ∧ readMaxBytes < (e.data.length : ℤ)) :
    ∃ err r', envelopeRead readMaxBytes room r .fresh = ⟨.fresh, some err, r'⟩ ∧
      err.code = codeResourceExhausted ∧ r'.pending = rest ∧ r'.last = .eof := by
  rw [Envelope.frame, append_assoc] at hp
  obtain ⟨h1, h2, h3, h4⟩ := readFull_head hp
  have hne : e.data ≠ [] := by
    intro h
    rw [h, length_nil] at hlarge
    omega
  obtain ⟨-, k2, k3, k4⟩ := (r.readFull 5).next.copyN_spec discardRoom e.data.length (h4.trans hlast)
  rw [h3, if_pos (by simp)] at k2
  rw [h3, drop_left] at k3
  rw [envelopeRead_of_head _ _ h1 h2 hlen hne]
  dsimp only
  rw [if_pos hlarge, k2]
  exact ⟨_, _, rfl, rfl, k3, k4⟩

theorem read_end (hp : r.pending = []) (hlast : r.last = .eof) (env : Envelope) :
    ∃ err, (envelopeRead readMaxBytes room r env).err = some err ∧ err.is .eof = true := by
  obtain ⟨h1, h2, -, -⟩ := ChunkReader.readFull_of_lt (r := r) (n := 5) (by rw [hp]; simp) hlast
  refine ⟨newError codeUnknown (some .eof), ?_, by simp⟩
  unfold envelopeRead
  simp [h1, h2, hp]

theorem read_cut_head (hne : r.pending ≠ []) (hshort : r.pending.length < 5) (hlast : r.last = .eof) (env : Envelope) :
    ∃ err, (envelopeRead readMaxBytes room r env).err = some err ∧ err.is .eof = false := by
  obtain ⟨h1, h2, -, -⟩ := ChunkReader.readFull_of_lt (r := r) (n := 5) hshort hlast
  rw [if_neg hne] at h2
  refine ⟨errorfWrap codeInvalidArgument (str "protocol error: incomplete envelope: ")
    (.sentinel .unexpectedEOF), ?_, by simp⟩
  unfold envelopeRead
  simp [h1, h2, asError, GoError.asCustom, asMaxBytesError, GoError.asMaxBytes]

theorem read_cut_body {part : Str} (hp : r.pending = e.head ++ part) (hlast : r.last = .eof)
    (hlen : e.data.length < 2 ^ 32) (hpart : part.length < e.data.length) :
    ∃ err, (envelopeRead readMaxBytes room r .fresh).err = some err ∧ err.is .eof = false := by
  have hne : e.data ≠ [] := ne_nil_of_length_pos (by omega)
  obtain ⟨h1, h2, h3, h4⟩ := readFull_head hp
  have hlt : (r.readFull 5).next.pending.length < e.data.length := by
    rw [h3]
    exact hpart
  rw [envelopeRead_of_head _ _ h1 h2 hlen hne]
  dsimp only
  split_ifs with hlarge
  · obtain ⟨-, k2, -, -⟩ := (r.readFull 5).next.copyN_spec discardRoom e.data.length (h4.trans hlast)
    rw [if_neg (by omega)] at k2
    rw [k2]
    exact ⟨_, rfl, errorf_is _ _ _⟩
  · obtain ⟨err, hb, herr⟩ := readBody_of_lt room e.data.length [] hlt (h4.trans hlast)
    rw [hb]
    exact ⟨err, rfl, herr⟩

theorem read_cut {k : ℕ} (hp : r.pending = e.frame.take k) (hlast : r.last = .eof)
    (hlen : e.data.length < 2 ^ 32) (hpos : 0 < k) (hcut : k < e.frame.length) :
    ∃ err, (envelopeRead readMaxBytes room r .fresh).err = some err ∧ err.is .eof = false := by
  have hk : r.pending.length = k := by
    rw [hp, length_take]
    omega
  by_cases h5 : k < 5
  · exact read_cut_head _ _ (ne_nil_of_length_pos (by omega)) (by omega) hlast _
  · rw [length_frame] at hcut
    have hp' : r.pending = e.head ++ e.data.take (k - 5) := by
      rw [hp, Envelope.frame, take_append, length_head, take_of_length_le (by rw [length_head]; omega)]
    refine read_cut_body _ _ hp' hlast hlen ?_
    rw [length_take]
    omega

end Read

end DubboGo.Triple
