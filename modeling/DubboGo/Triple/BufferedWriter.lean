import DubboGo.Lib.Handover
import DubboGo.Go.Stream
import DubboGo.Triple.Error

/-!
# The stream write buffer

`streamBufferWriter` of `buffered_writer.go`: small writes are collected in a buffer and handed on
in batches.  Each call runs under the writer's lock, so a concurrent run is a sequence of calls.
-/

namespace DubboGo.Triple

open Go Lib Lib.Handover

/-- The fields of a `streamBufferWriter` that never change: the writer below it, the check that this
writer may offer (`preWriteChecker`) and the limit of the buffer. -/
structure StreamBufferConfig (σ : Type) where
  next : ByteWriter ErrorHead σ
  checker : Option (σ → Option GoErr × σ)
  limit : ℕ

/-- The fields that do change, with the state of the writer below and the history. -/
structure StreamBufferWriter (σ : Type) where
  below : σ
  buf : Str
  err : Option GoErr
  closed : Bool
  history : List (Handover UInt8)

def defaultStreamWriteBufSize : ℕ := 32 * 2 ^ 10

def newStreamBufferWriter {σ : Type} (next : ByteWriter ErrorHead σ)
    (checker : Option (σ → Option GoErr × σ)) : StreamBufferConfig σ :=
  ⟨next, checker, defaultStreamWriteBufSize⟩

namespace StreamBufferWriter

variable {σ : Type} (d : StreamBufferConfig σ)

def start (below : σ) : StreamBufferWriter σ := ⟨below, [], none, false, []⟩

/-- One `Write` on the writer below. -/
def handOn (w : StreamBufferWriter σ) (p : Str) : (ℕ × Option GoErr) × StreamBufferWriter σ :=
  let res := d.next.write w.below p
  (res.1, { w with below := res.2, history := w.history ++ [.handed p res.1.1] })

def fail (w : StreamBufferWriter σ) (e : GoErr) : StreamBufferWriter σ :=
  { w with err := some e, closed := true }

def accept (w : StreamBufferWriter σ) (p : Str) : StreamBufferWriter σ :=
  { w with history := w.history ++ [.accepted p] }

/-- The error of a `Write` of `len` bytes, where fewer bytes without an error are a short write. -/
def writeError (res : ℕ × Option GoErr) (len : ℕ) : Option GoErr :=
  match res.2 with
  | some e => some e
  | none => if res.1 < len then some (.sentinel .shortWrite) else none

def writeDirectLocked (w : StreamBufferWriter σ) (p : Str) : (ℕ × Option GoErr) × StreamBufferWriter σ :=
  let res := w.handOn d p
  match writeError res.1 p.length with
  | some e => ((res.1.1, some e), res.2.fail e)
  | none => ((res.1.1, none), res.2)

def flushLocked (w : StreamBufferWriter σ) : Option GoErr × StreamBufferWriter σ :=
  if w.buf = [] then (none, w)
  else
    let res := w.handOn d w.buf
    match writeError res.1 w.buf.length with
    | some e => (some e, res.2.fail e)
    | none => (none, { res.2 with buf := [] })

def check (w : StreamBufferWriter σ) : Option GoErr × StreamBufferWriter σ :=
  match d.checker with
  | none => (none, w)
  | some f => ((f w.below).1, { w with below := (f w.below).2 })

/-- `Write` after its guards. -/
def writeOpen (w : StreamBufferWriter σ) (p : Str) : (ℕ × Option GoErr) × StreamBufferWriter σ :=
  if p = [] then (w.accept p).writeDirectLocked d p
  else if d.limit ≤ p.length then
    match w.flushLocked d with
    | (some e, w) => ((0, some e), w)
    | (none, w) => (w.accept p).writeDirectLocked d p
  else
    let w := { w.accept p with buf := w.buf ++ p }
    if d.limit ≤ w.buf.length then
      match w.flushLocked d with
      | (some _, w) => ((p.length, w.err), w)
      | (none, w) => ((p.length, none), w)
    else ((p.length, none), w)

def write (w : StreamBufferWriter σ) (p : Str) : (ℕ × Option GoErr) × StreamBufferWriter σ :=
  match w.err with
  | some e => ((0, some e), w)
  | none =>
    if w.closed then ((0, some .eof), w)
    else
      match w.check d with
      | (some e, w) => ((0, some e), w.fail e)
      | (none, w) => w.writeOpen d p

def flush (w : StreamBufferWriter σ) : Option GoErr × StreamBufferWriter σ :=
  match w.err with
  | some e => (some e, w)
  | none => if w.closed then (none, w) else w.flushLocked d

def close (w : StreamBufferWriter σ) : Option GoErr × StreamBufferWriter σ :=
  match w.err with
  | some e => (some e, w)
  | none =>
    if w.closed then (none, w)
    else
      let res := w.flushLocked d
      (res.1, { res.2 with closed := true })

def asWriter : ByteWriter ErrorHead (StreamBufferWriter σ) := ⟨fun w p => w.write d p⟩

/-! ## What a call can do

Below its guards a call either fails, and then the error is recorded, or it goes through, and then
the data that is still pending is known. -/

/-- `w` has failed with `e`. -/
structure Failed (w : StreamBufferWriter σ) (e : GoErr) : Prop where
  err : w.err = some e
  inOrder : InOrder w.history

/-- `w` has not failed, and `q` is what it has accepted but not handed on. -/
structure Live (w : StreamBufferWriter σ) (q : Str) : Prop where
  err : w.err = none
  inOrder : InOrder w.history
  pending : Pending w.history q

section Steps

variable {d} {w : StreamBufferWriter σ} {p q : Str}

theorem Live.accept (h : w.Live q) : (w.accept p).Live (q ++ p) :=
  ⟨h.err, h.inOrder.accept, h.pending.accept⟩

theorem writeError_eq_none {res : ℕ × Option GoErr} {len : ℕ} (h : writeError res len = none) : len ≤ res.1 := by
  unfold writeError at h
  split at h
  · cases h
  · split_ifs at h with hlt
    omega

theorem handOn_cases (h : w.Live (p ++ q)) :
    (∃ e, writeError (w.handOn d p).1 p.length = some e ∧ ((w.handOn d p).2.fail e).Failed e) ∨
      writeError (w.handOn d p).1 p.length = none ∧ (w.handOn d p).2.Live q := by
  rcases he : writeError (w.handOn d p).1 p.length with - | e
  · exact .inr ⟨rfl, h.err, h.inOrder.hand h.pending, h.pending.hand (writeError_eq_none he)⟩
  · exact .inl ⟨e, rfl, rfl, h.inOrder.hand h.pending⟩

theorem writeDirectLocked_cases (h : w.Live (p ++ w.buf)) (hlim : w.buf.length < d.limit) :
    (∃ n e w', w.writeDirectLocked d p = ((n, some e), w') ∧ w'.Failed e) ∨
      ∃ n w', w.writeDirectLocked d p = ((n, none), w') ∧ w'.Live w'.buf ∧
        w'.buf.length < d.limit ∧ w'.closed = w.closed := by
  unfold writeDirectLocked
  dsimp only
  rcases handOn_cases (d := d) h with ⟨e, he, hf⟩ | ⟨he, hl⟩
  · rw [he]
    exact .inl ⟨_, e, _, rfl, hf⟩
  · rw [he]
    exact .inr ⟨_, _, rfl, hl, hlim, rfl⟩

theorem flushLocked_cases (h : w.Live w.buf) : (∃ e w', w.flushLocked d = (some e, w') ∧ w'.Failed e) ∨
      ∃ w', w.flushLocked d = (none, w') ∧ w'.Live [] ∧ w'.buf = [] ∧ w'.closed = w.closed := by
  unfold flushLocked
  split_ifs with hb
  · rw [hb] at h
    exact .inr ⟨w, rfl, h, hb, rfl⟩
  · dsimp only
    rcases handOn_cases (d := d) (p := w.buf) (q := []) (by rwa [List.append_nil]) with
      ⟨e, he, hf⟩ | ⟨he, hl⟩
    · rw [he]
      exact .inl ⟨e, _, rfl, hf⟩
    · rw [he]
      exact .inr ⟨_, rfl, ⟨hl.err, hl.inOrder, hl.pending⟩, rfl, rfl⟩

/-- A write into an open buffer fails for good, or leaves less than the limit behind. -/
theorem writeOpen_cases (h : w.Live w.buf) (hlim : w.buf.length < d.limit) :
    (∃ n e w', w.writeOpen d p = ((n, some e), w') ∧ w'.Failed e) ∨
      ∃ n w', w.writeOpen d p = ((n, none), w') ∧ w'.Live w'.buf ∧ w'.buf.length < d.limit ∧
        w'.closed = w.closed := by
  unfold writeOpen
  split_ifs with hp hlarge
  · -- an empty payload is handed on past the bytes in the buffer
    subst hp
    have hl : (w.accept []).Live (w.buf ++ []) := h.accept
    rw [List.append_nil] at hl
    exact writeDirectLocked_cases hl hlim
  · rcases flushLocked_cases (d := d) h with ⟨e, w', he, hf⟩ | ⟨w', he, hl, hb, hc⟩
    · rw [he]
      exact .inl ⟨0, e, w', rfl, hf⟩
    · rw [he, ← hc]
      refine writeDirectLocked_cases (w := w'.accept p) ?_ ?_
      · change (w'.accept p).Live (p ++ w'.buf)
        rw [hb, List.append_nil]
        exact hl.accept
      · change w'.buf.length < d.limit
        rw [hb]
        exact (Nat.zero_le _).trans_lt hlim
  · have hl : ({ w.accept p with buf := w.buf ++ p } : StreamBufferWriter σ).Live (w.buf ++ p) :=
      ⟨h.err, h.accept.inOrder, h.accept.pending⟩
    dsimp only
    split_ifs with hfull
    · rcases flushLocked_cases (d := d) hl with ⟨e, w', he, hf⟩ | ⟨w', he, hl', hb, hc⟩
      · rw [he]
        dsimp only
        rw [hf.err]
        exact .inl ⟨_, e, w', rfl, hf⟩
      · rw [he]
        refine .inr ⟨_, w', rfl, ?_, ?_, hc⟩
        · rw [hb]
          exact hl'
        · rw [hb, List.length_nil]
          exact (Nat.zero_le _).trans_lt hlim
    · exact .inr ⟨_, _, rfl, hl, Nat.lt_of_not_le hfull, rfl⟩

end Steps

/-! ## Runs -/

/-- The state between two calls: nothing has gone out of order, and while no error is recorded the
pending data is in the buffer, below the limit and empty once the writer is closed. -/
structure Inv (w : StreamBufferWriter σ) : Prop where
  inOrder : InOrder w.history
  live : w.err = none → w.Live w.buf ∧ w.buf.length < d.limit
  sealed : w.err = none → w.closed = true → w.buf = []

inductive Call where
  | write (p : Str)
  | flush
  | close

def call (w : StreamBufferWriter σ) : Call → Option GoErr × StreamBufferWriter σ
  | .write p => ((w.write d p).1.2, (w.write d p).2)
  | .flush => w.flush d
  | .close => w.close d

def run (w : StreamBufferWriter σ) (calls : List Call) : StreamBufferWriter σ :=
  calls.foldl (fun w c => (w.call d c).2) w

section Runs

variable {d} {w w' : StreamBufferWriter σ} {p : Str}

theorem Failed.inv {e : GoErr} (h : w.Failed e) : Inv d w := by
  refine ⟨h.inOrder, fun he => ?_, fun he => ?_⟩
  · rw [h.err] at he
    cases he
  · rw [h.err] at he
    cases he

theorem inv_start (hlim : 0 < d.limit) (below : σ) : Inv d (start below) :=
  ⟨inOrder_nil, fun _ => ⟨⟨rfl, inOrder_nil, pending_nil⟩, hlim⟩, nofun⟩

theorem check_frame : (w.check d).2.err = w.err ∧ (w.check d).2.closed = w.closed ∧
    (w.check d).2.buf = w.buf ∧ (w.check d).2.history = w.history := by
  unfold check
  split <;> exact ⟨rfl, rfl, rfl, rfl⟩

theorem check_inv (h : Inv d w) : Inv d (w.check d).2 := by
  obtain ⟨he, hc, hb, hh⟩ := check_frame (d := d) (w := w)
  refine ⟨by rw [hh]; exact h.inOrder, fun herr => ?_, fun herr hcl => ?_⟩
  · obtain ⟨hl, hlt⟩ := h.live (he ▸ herr)
    rw [hb]
    exact ⟨⟨herr, by rw [hh]; exact hl.inOrder, by rw [hh]; exact hl.pending⟩, hlt⟩
  · rw [hb]
    exact h.sealed (he ▸ herr) (hc ▸ hcl)

theorem write_inv (h : Inv d w) : Inv d (w.write d p).2 := by
  unfold write
  split
  · exact h
  · next herr =>
    split_ifs with hcl
    · exact h
    · have hi := check_inv h
      obtain ⟨he, hc, -, -⟩ := check_frame (d := d) (w := w)
      split
      · next e w' hw =>
        rw [hw] at hi
        exact Failed.inv (e := e) ⟨rfl, hi.inOrder⟩
      · next w' hw =>
        rw [hw] at hi he hc
        obtain ⟨hl, hlt⟩ := hi.live (he.trans herr)
        rcases writeOpen_cases (d := d) (p := p) hl hlt with
          ⟨n, e, w'', hw', hf⟩ | ⟨n, w'', hw', hl', hlt', hc'⟩
        · rw [hw']
          exact hf.inv
        · rw [hw']
          refine ⟨hl'.inOrder, fun _ => ⟨hl', hlt'⟩, fun _ hcl' => ?_⟩
          rw [hc', hc] at hcl'
          exact absurd hcl' hcl

theorem Live.inv (h : w.Live []) (hb : w.buf = []) (hlim : 0 < d.limit) (closed : Bool) :
    Inv d { w with closed } := by
  refine ⟨h.inOrder, fun _ => ⟨?_, ?_⟩, fun _ _ => hb⟩
  · rw [hb]
    exact ⟨h.err, h.inOrder, h.pending⟩
  · rw [hb]
    exact hlim

theorem Inv.drained (h : Inv d w) (he : w.err = none) (hc : w.closed = true) :
    acceptedData w.history = handedData w.history := by
  rw [(h.live he).1.pending.accepted_eq, h.sealed he hc, List.append_nil]

theorem flush_spec (h : Inv d w) : Inv d (w.flush d).2 ∧ ((w.flush d).1 = none →
    acceptedData (w.flush d).2.history = handedData (w.flush d).2.history) := by
  unfold flush
  split
  · exact ⟨h, nofun⟩
  · next he =>
    split_ifs with hc
    · exact ⟨h, fun _ => h.drained he hc⟩
    · obtain ⟨hl, hlt⟩ := h.live he
      rcases flushLocked_cases (d := d) hl with ⟨e, w', hw, hf⟩ | ⟨w', hw, hl', hb, -⟩
      · rw [hw]
        exact ⟨hf.inv, nofun⟩
      · rw [hw]
        refine ⟨hl'.inv hb (by omega) w'.closed, fun _ => ?_⟩
        rw [hl'.pending.accepted_eq, List.append_nil]

theorem close_spec (h : Inv d w) : Inv d (w.close d).2 ∧ ((w.close d).1 = none →
    acceptedData (w.close d).2.history = handedData (w.close d).2.history) := by
  unfold close
  split
  · exact ⟨h, nofun⟩
  · next he =>
    split_ifs with hc
    · exact ⟨h, fun _ => h.drained he hc⟩
    · obtain ⟨hl, hlt⟩ := h.live he
      rcases flushLocked_cases (d := d) hl with ⟨e, w', hw, hf⟩ | ⟨w', hw, hl', hb, -⟩
      · rw [hw]
        exact ⟨Failed.inv (e := e) ⟨hf.err, hf.inOrder⟩, nofun⟩
      · rw [hw]
        refine ⟨hl'.inv hb (by omega) true, fun _ => ?_⟩
        rw [hl'.pending.accepted_eq, List.append_nil]

theorem call_inv (h : Inv d w) (c : Call) : Inv d (w.call d c).2 := by
  cases c with
  | write p => exact write_inv h
  | flush => exact (flush_spec h).1
  | close => exact (close_spec h).1

theorem run_inv (h : Inv d w) (calls : List Call) : Inv d (w.run d calls) := by
  induction calls generalizing w with
  | nil => exact h
  | cons c calls ih => exact ih (call_inv h c)

/-- After an error every call returns it and does nothing. -/
theorem call_of_err {e : GoErr} (he : w.err = some e) (c : Call) : w.call d c = (some e, w) := by
  cases c with
  | write p => simp [call, write, he]
  | flush => simp [call, flush, he]
  | close => simp [call, close, he]

theorem run_of_err {e : GoErr} (he : w.err = some e) (calls : List Call) : w.run d calls = w := by
  induction calls with
  | nil => rfl
  | cons c calls ih =>
    rw [run, List.foldl_cons, call_of_err he]
    exact ih

/-! ## What counts as accepted -/

theorem acceptedData_writeDirectLocked :
    acceptedData (w.writeDirectLocked d p).2.history = acceptedData w.history := by
  unfold writeDirectLocked
  dsimp only
  split <;> exact acceptedData_handed

theorem acceptedData_flushLocked : acceptedData (w.flushLocked d).2.history = acceptedData w.history := by
  unfold flushLocked
  split_ifs
  · rfl
  · dsimp only
    split <;> exact acceptedData_handed

theorem acceptedData_writeOpen : acceptedData (w.writeOpen d p).2.history = acceptedData w.history ++ p ∨
      acceptedData (w.writeOpen d p).2.history = acceptedData w.history ∧ (w.writeOpen d p).1.2 ≠ none := by
  have hf := acceptedData_flushLocked (d := d) (w := w)
  unfold writeOpen
  split_ifs
  · exact .inl (acceptedData_writeDirectLocked.trans acceptedData_accepted)
  · split
    · next e w' hw =>
      rw [hw] at hf
      exact .inr ⟨hf, nofun⟩
    · next w' hw =>
      rw [hw] at hf
      refine .inl (acceptedData_writeDirectLocked.trans (acceptedData_accepted.trans ?_))
      rw [hf]
  · left
    have hf' := acceptedData_flushLocked (d := d) (w := { w.accept p with buf := w.buf ++ p })
    dsimp only
    split_ifs
    · split
      · next e w' hw =>
        rw [hw] at hf'
        exact hf'.trans acceptedData_accepted
      · next w' hw =>
        rw [hw] at hf'
        exact hf'.trans acceptedData_accepted
    · exact acceptedData_accepted

theorem acceptedData_write : acceptedData (w.write d p).2.history = acceptedData w.history ++ p ∨
      acceptedData (w.write d p).2.history = acceptedData w.history ∧ (w.write d p).1.2 ≠ none := by
  obtain ⟨-, -, -, hc⟩ := check_frame (d := d) (w := w)
  unfold write
  split
  · exact .inr ⟨rfl, nofun⟩
  · split_ifs
    · exact .inr ⟨rfl, nofun⟩
    · split
      · next e w' hw =>
        rw [hw] at hc
        exact .inr ⟨congrArg acceptedData hc, nofun⟩
      · next w' hw =>
        rw [hw] at hc
        rw [← hc]
        exact acceptedData_writeOpen

theorem acceptedData_flush : acceptedData (w.flush d).2.history = acceptedData w.history := by
  unfold flush
  split
  · rfl
  · split_ifs
    · rfl
    · exact acceptedData_flushLocked

theorem acceptedData_close : acceptedData (w.close d).2.history = acceptedData w.history := by
  unfold close
  split
  · rfl
  · split_ifs
    · rfl
    · exact acceptedData_flushLocked (d := d) (w := w)

end Runs

/-! ## What the writer below is given -/

/-- What a writer was given, and how much of each it has taken. -/
abbrev Record := List (Str × ℕ)

/-- The writer below, which also keeps a record. -/
def recording (next : ByteWriter ErrorHead σ) : ByteWriter ErrorHead (σ × Record) :=
  ⟨fun s p => ((next.write s.1 p).1, (next.write s.1 p).2, s.2 ++ [(p, (next.write s.1 p).1.1)])⟩

def recordingCheck (check : σ → Option GoErr × σ) (s : σ × Record) : Option GoErr × (σ × Record) :=
  ((check s.1).1, (check s.1).2, s.2)

/-- The history says what the writer below was given. -/
def Recorded (w : StreamBufferWriter (σ × Record)) : Prop := w.below.2 = handings w.history

section Recorded

variable {next : ByteWriter ErrorHead σ} {checker : Option (σ → Option GoErr × σ)} {limit : ℕ}
  {w : StreamBufferWriter (σ × Record)}

/-- The configuration over a writer that keeps a record. -/
abbrev recordingConfig (next : ByteWriter ErrorHead σ) (checker : Option (σ → Option GoErr × σ)) (limit : ℕ) :
    StreamBufferConfig (σ × Record) :=
  ⟨recording next, checker.map recordingCheck, limit⟩

namespace Recorded

variable (h : w.Recorded)

include h

theorem handOn (p : Str) : (w.handOn (recordingConfig next checker limit) p).2.Recorded := by
  change w.below.2 ++ [(p, _)] = handings (w.history ++ [.handed p _])
  rw [handings_handed, ← h]
  rfl

theorem accept (p : Str) : (w.accept p).Recorded := by
  unfold Recorded StreamBufferWriter.accept
  rw [handings_accepted]
  exact h

theorem check : (w.check (recordingConfig next checker limit)).2.Recorded := by
  cases checker <;> exact h

theorem writeDirectLocked (p : Str) : (w.writeDirectLocked (recordingConfig next checker limit) p).2.Recorded := by
  unfold StreamBufferWriter.writeDirectLocked
  dsimp only
  split <;> exact h.handOn p

theorem flushLocked : (w.flushLocked (recordingConfig next checker limit)).2.Recorded := by
  unfold StreamBufferWriter.flushLocked
  split_ifs
  · exact h
  · dsimp only
    split <;> exact h.handOn w.buf

theorem writeOpen (p : Str) : (w.writeOpen (recordingConfig next checker limit) p).2.Recorded := by
  unfold StreamBufferWriter.writeOpen
  split_ifs
  · exact (h.accept p).writeDirectLocked p
  · have hflush : (w.flushLocked (recordingConfig next checker limit)).2.Recorded := h.flushLocked
    split
    · next e w' hw =>
      rw [hw] at hflush
      exact hflush
    · next w' hw =>
      rw [hw] at hflush
      exact (hflush.accept p).writeDirectLocked p
  · have hbuffered : ({ w.accept p with buf := w.buf ++ p } : StreamBufferWriter (σ × Record)).Recorded := h.accept p
    have hflush : (StreamBufferWriter.flushLocked (recordingConfig next checker limit)
        { w.accept p with buf := w.buf ++ p }).2.Recorded := hbuffered.flushLocked
    dsimp only
    split_ifs
    · split
      · next e w' hw =>
        rw [hw] at hflush
        exact hflush
      · next w' hw =>
        rw [hw] at hflush
        exact hflush
    · exact hbuffered

theorem write (p : Str) : (w.write (recordingConfig next checker limit) p).2.Recorded := by
  have hcheck : (w.check (recordingConfig next checker limit)).2.Recorded := h.check
  unfold StreamBufferWriter.write
  split
  · exact h
  · split_ifs
    · exact h
    · split
      · next e w' hw =>
        rw [hw] at hcheck
        exact hcheck
      · next w' hw =>
        rw [hw] at hcheck
        exact hcheck.writeOpen p

/-- No call hands on anything that the writer below does not record. -/
theorem call (c : Call) : (w.call (recordingConfig next checker limit) c).2.Recorded := by
  cases c with
  | write p => exact h.write p
  | flush =>
    change (w.flush _).2.Recorded
    unfold StreamBufferWriter.flush
    split
    · exact h
    · split_ifs
      · exact h
      · exact h.flushLocked
  | close =>
    change (w.close _).2.Recorded
    unfold StreamBufferWriter.close
    split
    · exact h
    · split_ifs
      · exact h
      · have hflush : (w.flushLocked (recordingConfig next checker limit)).2.Recorded := h.flushLocked
        exact hflush

theorem run (calls : List Call) : (w.run (recordingConfig next checker limit) calls).Recorded := by
  induction calls generalizing w with
  | nil => exact h
  | cons c calls ih => exact ih (h.call c)

end Recorded

end Recorded

/-- In every run of calls, over any writer below: a `Write` is accepted as a whole or returns an error, and no other
call accepts anything; the history says what the writer below was given; the bytes that it is given (and those that
it takes) are at every moment a prefix of the bytes accepted; without a recorded error, what it has not been given is
below the limit; after a successful `Flush` or `Close` there is none; and a recorded error is returned by every later
call, none of which gives it anything. -/
theorem buffered_refines_unbuffered (next : ByteWriter ErrorHead σ)
    (checker : Option (σ → Option GoErr × σ)) (below : σ) (calls : List Call) :
    let d := newStreamBufferWriter (recording next) (checker.map recordingCheck)
    let w := (start (below, [])).run d calls
    (∀ p, acceptedData (w.call d (.write p)).2.history = acceptedData w.history ++ p ∨
        acceptedData (w.call d (.write p)).2.history = acceptedData w.history ∧ (w.call d (.write p)).1 ≠ none) ∧
      (∀ c, c = .flush ∨ c = .close → acceptedData (w.call d c).2.history = acceptedData w.history) ∧
      w.below.2 = handings w.history ∧
      (∀ t, t <+: w.history → (handings t).flatMap Prod.fst <+: acceptedData t ∧ takenData t <+: acceptedData t) ∧
      (w.err = none → ∃ q, acceptedData w.history = w.below.2.flatMap Prod.fst ++ q ∧
        q.length < defaultStreamWriteBufSize) ∧
      (∀ c, c = .flush ∨ c = .close → (w.call d c).1 = none →
        acceptedData (w.call d c).2.history = (w.call d c).2.below.2.flatMap Prod.fst) ∧
      (∀ e, w.err = some e → ∀ later c, (w.run d later).below.2 = w.below.2 ∧
        ((w.run d later).call d c).1 = some e) := by
  intro d w
  have hinv : Inv d w := run_inv (inv_start (Nat.two_pow_pos 15) (below, [])) calls
  have hstart : (start (below, ([] : Record))).Recorded := rfl
  have hrecorded : w.Recorded := hstart.run calls
  refine ⟨fun p => acceptedData_write, ?_, hrecorded, ?_, ?_, ?_, ?_⟩
  · rintro c (rfl | rfl)
    · exact acceptedData_flush
    · exact acceptedData_close
  · intro t ht
    obtain ⟨hhanded, htaken⟩ := hinv.inOrder t ht
    rw [← handedData_eq_flatMap]
    exact ⟨hhanded, htaken.trans hhanded⟩
  · intro he
    obtain ⟨hlive, hlt⟩ := hinv.live he
    refine ⟨w.buf, ?_, hlt⟩
    rw [hrecorded, ← handedData_eq_flatMap]
    exact hlive.pending.accepted_eq
  · intro c hc hok
    have hgiven : (w.call d c).2.below.2 = handings (w.call d c).2.history := hrecorded.call c
    rw [hgiven, ← handedData_eq_flatMap]
    rcases hc with rfl | rfl
    · exact (flush_spec hinv).2 hok
    · exact (close_spec hinv).2 hok
  · intro e he later c
    rw [run_of_err he, call_of_err he]
    exact ⟨rfl, rfl⟩

end StreamBufferWriter

end DubboGo.Triple
