import DubboGo.Triple.ClientCall
import DubboGo.Triple.EnvelopeStream

/-!
# `Send` racing with `CloseRequest`

On a buffered stream `grpcClientConn.Send` is several `Write` calls, for the head of the envelope and for its payload,
and `CloseRequest` closes the buffer and then the pipe.  Each of these steps is atomic.
-/

namespace DubboGo.Triple

open Go List

abbrev StreamBuffer := StreamBufferWriter DuplexHTTPCall

/-! ## The steps -/

/-- The `Write` calls of `envelopeWriter.write`, in their order. -/
def envelopeWrites (env : Envelope) : List Str :=
  env.head :: if env.data = [] then [] else [env.data]

/-- The `Write` calls of one `Send`: none if the message does not marshal, and an empty one for a
nil message. -/
def sendWrites {M : Type} (ew : EnvelopeWriter M) (msg : Option M) : List Str :=
  match ew.envelope msg with
  | .error _ => []
  | .ok none => [[]]
  | .ok (some env) => envelopeWrites env

/-- `Write` calls one after the other, up to the first error. -/
def runWrites {σ : Type} (w : ByteWriter ErrorHead σ) (s : σ) : List Str → σ
  | [] => s
  | p :: rest =>
    let res := w.write s p
    if res.1.2.isSome then res.2 else runWrites w res.2 rest

theorem envelopeWrite_state {σ : Type} (w : ByteWriter ErrorHead σ) (s : σ) (env : Envelope) :
    (envelopeWrite w s env).2 = runWrites w s (envelopeWrites env) := by
  rcases he : (w.write s env.head).1.2 with - | e
  · by_cases hd : env.data = []
    · simp [envelopeWrite, envelopeWrites, runWrites, ByteWriter.copyBuffer, he, hd]
    · rcases he' : (w.write (w.write s env.head).2 env.data).1.2 with - | e' <;>
        simp [envelopeWrite, envelopeWrites, runWrites, ByteWriter.copyBuffer, he, hd, he']
  · simp [envelopeWrite, envelopeWrites, runWrites, he]

/-- The two steps of `CloseRequest`. -/
inductive CloseStep where
  | closeBuffer
  | closeWrite

inductive Thread where
  | sender
  | closer
  deriving DecidableEq

/-- A race: the stream, the `Write` calls still to make and the steps of the close still to
take. -/
structure Race where
  stream : StreamBuffer
  writes : List Str
  closing : List CloseStep

def Race.step (s : Race) : Thread → Race
  | .sender =>
    match s.writes with
    | [] => s
    | p :: rest =>
      -- `envelopeWriter.write` returns at the first error
      let res := s.stream.write (duplexBuffer quietEnv) p
      { s with stream := res.2, writes := if res.1.2.isSome then [] else rest }
  | .closer =>
    match s.closing with
    | [] => s
    | .closeBuffer :: rest =>
      { s with stream := (s.stream.close (duplexBuffer quietEnv)).2, closing := rest }
    | .closeWrite :: rest =>
      { s with stream := { s.stream with below := s.stream.below.closeWrite.2 }, closing := rest }

def Race.run (s : Race) (schedule : List Thread) : Race := schedule.foldl Race.step s

theorem Race.run_cons (s : Race) (t : Thread) (schedule : List Thread) :
    s.run (t :: schedule) = (s.step t).run schedule := rfl

def Race.Done (s : Race) : Prop := s.writes = [] ∧ s.closing = []

/-- The stream after a list of completed `Send` calls. -/
def afterSends (earlier : List Envelope) : StreamBuffer :=
  earlier.foldl
    (fun w env => (envelopeWrite (StreamBufferWriter.asWriter (duplexBuffer quietEnv)) w env).2)
    (StreamBufferWriter.start (DuplexHTTPCall.new Header.empty))

/-- A `Send` that is about to write and a `CloseRequest`, after a list of completed `Send` calls. -/
def startRace {M : Type} (ew : EnvelopeWriter M) (earlier : List Envelope) (msg : Option M) : Race :=
  ⟨afterSends earlier, sendWrites ew msg, [.closeBuffer, .closeWrite]⟩

/-! ## The stream -/

/-- The stream is open and `bytes` were written to it. -/
structure Holds (w : StreamBuffer) (bytes : Str) : Prop where
  err : w.err = none
  closed : w.closed = false
  readerClosed : w.below.readerClosed = false
  writerClosed : w.below.writerClosed = false
  bytes : w.below.piped ++ w.buf = bytes

/-- The buffer is closed and `bytes` went to the transport. -/
structure Sealed (w : StreamBuffer) (bytes : Str) : Prop where
  err : w.err = none
  closed : w.closed = true
  bytes : w.below.piped = bytes

section Stream

variable {w : StreamBuffer} {bytes p : Str}

theorem quiet_write {d : DuplexHTTPCall} (hr : d.readerClosed = false) (hw : d.writerClosed = false) (p : Str) :
    ∃ d', d.write quietEnv p = ((p.length, none), d') ∧ d'.piped = d.piped ++ p ∧
      d'.readerClosed = false ∧ d'.writerClosed = false := by
  simp [DuplexHTTPCall.write, DuplexHTTPCall.checkBeforeWrite, DuplexHTTPCall.pipeWrite, quietEnv,
    DuplexHTTPCall.ensureRequestMade, hr, hw]

section

variable (h : Holds w bytes)

include h

theorem Holds.handOn (p : Str) :
    ∃ d', w.handOn (duplexBuffer quietEnv) p =
        ((p.length, none), { w with below := d', history := w.history ++ [.handed p p.length] }) ∧
      d'.piped = w.below.piped ++ p ∧ d'.readerClosed = false ∧ d'.writerClosed = false := by
  obtain ⟨d', hd, hrest⟩ := quiet_write h.readerClosed h.writerClosed p
  refine ⟨d', ?_, hrest⟩
  unfold StreamBufferWriter.handOn
  rw [show (duplexBuffer quietEnv).next.write w.below p = _ from hd]

theorem Holds.flushLocked :
    ∃ w', w.flushLocked (duplexBuffer quietEnv) = (none, w') ∧ Holds w' bytes ∧ w'.buf = [] := by
  unfold StreamBufferWriter.flushLocked
  split_ifs with hb
  · exact ⟨w, rfl, h, hb⟩
  · obtain ⟨d', hd, hp, hr, hw⟩ := h.handOn w.buf
    rw [hd]
    dsimp only [StreamBufferWriter.writeError]
    rw [if_neg (lt_irrefl _)]
    refine ⟨_, rfl, ⟨h.err, h.closed, hr, hw, ?_⟩, rfl⟩
    rw [append_nil]
    exact hp.trans h.bytes

theorem Holds.writeDirectLocked (hp : p = [] ∨ w.buf = []) :
    ∃ w', w.writeDirectLocked (duplexBuffer quietEnv) p = ((p.length, none), w') ∧ Holds w' (bytes ++ p) := by
  obtain ⟨d', hd, hpiped, hr, hw⟩ := h.handOn p
  unfold StreamBufferWriter.writeDirectLocked
  rw [hd]
  dsimp only [StreamBufferWriter.writeError]
  rw [if_neg (lt_irrefl _)]
  refine ⟨_, rfl, h.err, h.closed, hr, hw, ?_⟩
  rw [← h.bytes, hpiped]
  rcases hp with rfl | hb
  · simp
  · simp [hb]

theorem Holds.accept (p : Str) : Holds (w.accept p) bytes :=
  ⟨h.err, h.closed, h.readerClosed, h.writerClosed, h.bytes⟩

theorem Holds.writeOpen (p : Str) : ∃ w', w.writeOpen (duplexBuffer quietEnv) p = ((p.length, none), w') ∧
      Holds w' (bytes ++ p) := by
  unfold StreamBufferWriter.writeOpen
  split_ifs with hp hlarge
  · exact (h.accept p).writeDirectLocked (.inl hp)
  · obtain ⟨w', hw', h', hb⟩ := h.flushLocked
    rw [hw']
    exact (h'.accept p).writeDirectLocked (.inr hb)
  · have h' : Holds { w.accept p with buf := w.buf ++ p } (bytes ++ p) := by
      refine ⟨h.err, h.closed, h.readerClosed, h.writerClosed, ?_⟩
      rw [← h.bytes, append_assoc]
      rfl
    dsimp only
    split_ifs
    · obtain ⟨w', hw', h'', -⟩ := h'.flushLocked
      rw [hw']
      exact ⟨w', rfl, h''⟩
    · exact ⟨_, rfl, h'⟩

theorem Holds.write (p : Str) :
    ∃ w', w.write (duplexBuffer quietEnv) p = ((p.length, none), w') ∧ Holds w' (bytes ++ p) := by
  have hcheck : w.check (duplexBuffer quietEnv) =
      (none, { w with below := { w.below with ctxChecks := w.below.ctxChecks + 1 } }) := rfl
  have h' : Holds { w with below := { w.below with ctxChecks := w.below.ctxChecks + 1 } } bytes :=
    ⟨h.err, h.closed, h.readerClosed, h.writerClosed, h.bytes⟩
  unfold StreamBufferWriter.write
  rw [h.err, h.closed, hcheck]
  exact h'.writeOpen p

theorem Holds.close : Sealed (w.close (duplexBuffer quietEnv)).2 bytes := by
  obtain ⟨w', hw', h', hb⟩ := h.flushLocked
  unfold StreamBufferWriter.close
  rw [h.err, h.closed, hw']
  refine ⟨h'.err, rfl, ?_⟩
  rw [← h'.bytes, hb, append_nil]
  rfl

theorem Holds.runWrites (ws : List Str) : Holds (runWrites (StreamBufferWriter.asWriter (duplexBuffer quietEnv)) w ws)
      (bytes ++ ws.flatten) := by
  induction ws generalizing w bytes with
  | nil =>
    rw [flatten_nil, append_nil]
    exact h
  | cons p rest ih =>
    obtain ⟨w', hw', h'⟩ := h.write p
    rw [Triple.runWrites,
      show (StreamBufferWriter.asWriter (duplexBuffer quietEnv)).write w p = _ from hw',
      flatten_cons, ← append_assoc]
    exact ih h'

end

theorem flatten_envelopeWrites (env : Envelope) : (envelopeWrites env).flatten = env.frame := by
  unfold envelopeWrites Envelope.frame
  split_ifs with hd <;> simp [hd]

theorem holds_afterSends (earlier : List Envelope) : Holds (afterSends earlier) (emit earlier) := by
  induction earlier using reverseRecOn with
  | nil => exact ⟨rfl, rfl, rfl, rfl, rfl⟩
  | append_singleton earlier env ih =>
    unfold afterSends at ih ⊢
    rw [foldl_append, foldl_cons, foldl_nil, envelopeWrite_state, emit_append, emit_cons, ← flatten_envelopeWrites]
    have h := ih.runWrites (envelopeWrites env)
    simpa [emit_eq_flatten] using h

theorem Sealed.write (h : Sealed w bytes) (p : Str) : w.write (duplexBuffer quietEnv) p = ((0, some .eof), w) := by
  simp [StreamBufferWriter.write, h.err, h.closed]

theorem Sealed.close (h : Sealed w bytes) : w.close (duplexBuffer quietEnv) = (none, w) := by
  simp [StreamBufferWriter.close, h.err, h.closed]

/-- What is sealed stays as it is, whoever moves next. -/
theorem Sealed.step {s : Race} (h : Sealed s.stream bytes) (t : Thread) : Sealed (s.step t).stream bytes := by
  cases t with
  | sender =>
    rw [Race.step]
    split
    · exact h
    · rw [h.write]
      exact h
  | closer =>
    rw [Race.step]
    split
    · exact h
    · rw [h.close]
      exact h
    · exact ⟨h.err, h.closed, h.bytes⟩

theorem Sealed.run {s : Race} (h : Sealed s.stream bytes) (sched : List Thread) :
    Sealed (s.run sched).stream bytes := by
  induction sched generalizing s with
  | nil => exact h
  | cons t sched ih => exact ih (h.step t)

end Stream

/-! ## Races -/

section Races

variable {w : StreamBuffer} {bytes : Str}

theorem delivered_eq (h : Holds w bytes) (ws : List Str) (sched : List Thread)
    (hdone : (Race.run ⟨w, ws, [.closeBuffer, .closeWrite]⟩ sched).Done) :
    (Race.run ⟨w, ws, [.closeBuffer, .closeWrite]⟩ sched).stream.below.piped =
      bytes ++ (ws.take (sched.takeWhile (· = .sender)).length).flatten := by
  induction sched generalizing w bytes ws with
  | nil => exact absurd hdone.2 (by simp [Race.run])
  | cons t sched ih =>
    rw [Race.run_cons] at hdone ⊢
    cases t with
    | closer =>
      have hs := (Holds.close h).run (s := Race.step ⟨w, ws, [.closeBuffer, .closeWrite]⟩ .closer) sched
      simpa using hs.bytes
    | sender =>
      cases ws with
      | nil =>
        have hrest := ih h [] hdone
        rw [take_nil] at hrest ⊢
        exact hrest
      | cons p rest =>
        obtain ⟨w', hw', h'⟩ := h.write p
        have hstep : Race.step ⟨w, p :: rest, [.closeBuffer, .closeWrite]⟩ .sender =
            ⟨w', rest, [.closeBuffer, .closeWrite]⟩ := by
          simp [Race.step, hw']
        rw [hstep] at hdone ⊢
        simpa using ih h' rest hdone

end Races

theorem take_envelopeWrites_iff (env : Envelope) (k : ℕ) : (((envelopeWrites env).take k).flatten = [] ∨
        ((envelopeWrites env).take k).flatten = env.frame) ↔ ¬ (k = 1 ∧ env.data ≠ []) := by
  have hhead : env.head ≠ [] := ne_nil_of_length_pos (by rw [length_head]; decide)
  match k with
  | 0 => simp
  | 1 => simp [envelopeWrites, Envelope.frame, hhead]
  | k + 2 =>
    have hall : (envelopeWrites env).take (k + 2) = envelopeWrites env := by
      apply take_of_length_le
      unfold envelopeWrites
      split_ifs <;> simp
    rw [hall, flatten_envelopeWrites]
    simp

/-- A race is all or nothing for the message of the `Send` just when the close does not fall between
the head and the payload of its envelope. -/
theorem race_all_or_nothing_iff {M : Type} (ew : EnvelopeWriter M) (earlier : List Envelope)
    (msg : Option M) (schedule : List Thread) (hdone : ((startRace ew earlier msg).run schedule).Done) :
    (((startRace ew earlier msg).run schedule).stream.below.piped = emit earlier ∨
        ∃ env, ew.envelope msg = .ok (some env) ∧
          ((startRace ew earlier msg).run schedule).stream.below.piped = emit (earlier ++ [env])) ↔
      ¬ ((schedule.takeWhile (· = .sender)).length = 1 ∧
        ∃ env, ew.envelope msg = .ok (some env) ∧ env.data ≠ []) := by
  have hdel := delivered_eq (holds_afterSends earlier) (sendWrites ew msg) schedule hdone
  rw [show (startRace ew earlier msg).run schedule =
    Race.run ⟨afterSends earlier, sendWrites ew msg, [.closeBuffer, .closeWrite]⟩ schedule from rfl,
    hdel]
  generalize (schedule.takeWhile (· = .sender)).length = k
  rcases henv : ew.envelope msg with e | - | env
  · simp [sendWrites, henv]
  · have hnil : (([[]] : List Str).take k).flatten = [] := by
      cases k <;> simp
    simp [sendWrites, henv, hnil]
  · simp only [sendWrites, henv, Except.ok.injEq, Option.some.injEq, exists_eq_left', emit_append]
    rw [emit_singleton, append_right_inj, append_right_eq_self]
    exact take_envelopeWrites_iff env k

/-- An `envelopeWriter` without compression and limits, for messages that are their own payload. -/
def rawWriter : EnvelopeWriter Str := ⟨⟨[], .ok, .ok⟩, none, 0, none, 0⟩

/-- The close falls after the head: the payload is refused, and only the head goes out. -/
theorem close_between_head_and_payload :
    ((startRace rawWriter [] (some [7])).run [.sender, .closer, .sender, .closer]).Done ∧
      ((startRace rawWriter [] (some [7])).run
        [.sender, .closer, .sender, .closer]).stream.below.piped = [0, 0, 0, 0, 1] ∧ [0, 0, 0, 0, 1] ≠ emit [] ∧
      ∀ env, rawWriter.envelope (some [7]) = .ok (some env) → [0, 0, 0, 0, 1] ≠ emit [env] := by
  refine ⟨⟨rfl, rfl⟩, rfl, by decide, ?_⟩
  rintro env henv
  rw [← Option.some.inj (Except.ok.inj henv)]
  decide

/-- The close falls after the payload. -/
theorem race_all_or_nothing_late_close : ((startRace rawWriter [] (some [7])).run
        [.sender, .sender, .closer, .closer]).stream.below.piped = emit [] ∨
      ∃ env, rawWriter.envelope (some [7]) = .ok (some env) ∧ ((startRace rawWriter [] (some [7])).run
          [.sender, .sender, .closer, .closer]).stream.below.piped = emit ([] ++ [env]) :=
  (race_all_or_nothing_iff rawWriter [] (some [7]) [.sender, .sender, .closer, .closer]
    ⟨rfl, rfl⟩).2 fun h => absurd h.1 (by decide)

end DubboGo.Triple
