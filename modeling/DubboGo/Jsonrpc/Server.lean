import DubboGo.Go.Text
import DubboGo.Lib.FiniteMap
import DubboGo.Lib.Pool

/-!
# Pipelined JSON-RPC requests

`handlePkg` and `writeResponsesInOrder` of `protocol/jsonrpc/server.go`.  A connection has three parties: the reader,
which takes a token of the window for every request; the goroutines of the requests; and the writer, which puts their
responses in order and gives the tokens back.
-/

namespace DubboGo.Jsonrpc

open Go Lib Multiset Finset

def maxRequestWindowPerConnection : ℕ := 64

structure OrderedResponse where
  sequence : UInt64
  data : Str
  closeConnection : Bool

/-- How requests are served.  `serveRequest` gives what it has written, and its error;
`writeHTTPErrorResponse` what it writes for a body. -/
structure Service (ρ : Type) where
  contentType : ρ → Str
  unsupportedContentType : ρ → Bool
  serveRequest : ρ → Str × Option Str
  writeHTTPErrorResponse : ρ → Str → Str

variable {ρ : Type}

def buildOrderedResponse (d : Service ρ) (r : ρ) (sequence : UInt64) : OrderedResponse :=
  if d.unsupportedContentType r then
    ⟨sequence, d.writeHTTPErrorResponse r (str "unsupported content type: " ++ d.contentType r), true⟩
  else
    match d.serveRequest r with
    | (data, none) => ⟨sequence, data, false⟩
    | (data, some err) => ⟨sequence, data ++ d.writeHTTPErrorResponse r err, true⟩

/-! ## The connection -/

/-- What the loop of `handlePkg` does next. -/
inductive Reader where
  /-- It waits for a token of the window, or for the end of the connection. -/
  | acquiring
  | reading
  /-- It gives the token back, as there is no other request. -/
  | releasing
  /-- It returns or panics, and cancels the context. -/
  | leaving
  /-- It closes the connection. -/
  | hangingUp
  /-- It waits for the goroutines. -/
  | waiting
  /-- It waits for the writer. -/
  | draining
  | returned
  deriving DecidableEq

/-- What `writeResponsesInOrder` does next. -/
inductive Writer where
  /-- It waits for a response, or for the end of the connection. -/
  | selecting
  /-- It looks for the next response. -/
  | looking
  | writing (response : OrderedResponse)
  /-- It gives back a token of the window. -/
  | releasing
  /-- It cancels the context, after a write has failed or a response asks to close. -/
  | cancelling
  | closing
  | finished

/-- What the goroutine of request `n` does next. -/
inductive Stage where
  | serving (n : ℕ) (sequence : UInt64)
  | sending (n : ℕ) (response : OrderedResponse)
  | returned

def Stage.isReturned : Stage → Bool
  | .returned => true
  | _ => false

/-- A connection.  The numbers of requests read and of responses written, the tokens that the writer has given back,
the requests whose responses it has received, the bytes written, and whether a write has failed, are history. -/
structure State where
  reader : Reader
  writer : Writer
  sequence : UInt64
  requestWindow : ℕ
  canceled : Bool
  connClosed : Bool
  nextSequence : UInt64
  pending : FiniteMap UInt64 OrderedResponse
  read : ℕ
  answered : ℕ
  released : ℕ
  received : Finset ℕ
  written : Str
  failed : Bool

/-- What comes of reading a request: one, the end of the stream or an error, or a panic. -/
inductive Outcome where
  | request
  | ended
  | panicked

inductive Move where
  | serve
  | deliver
  | abandon

namespace State

def new : State where
  reader := .acquiring
  writer := .selecting
  sequence := 0
  requestWindow := 0
  canceled := false
  connClosed := false
  nextSequence := 0
  pending := ∅
  read := 0
  answered := 0
  released := 0
  received := ∅
  written := []
  failed := false

def readRequest (s : State) : State :=
  { s with reader := .acquiring, sequence := s.sequence + 1, read := s.read + 1 }

/-- The writer receives the response to request `n`. -/
def receive (n : ℕ) (response : OrderedResponse) (s : State) : State :=
  { s with
    writer := .looking
    pending := s.pending.insert response.sequence response
    received := insert n s.received }

/-- The reader goes on; `idle` says that all goroutines have returned. -/
def advanceReader (idle : Bool) (s : State) : Option State :=
  match s.reader with
  | .releasing =>
    if 0 < s.requestWindow then some { s with reader := .leaving, requestWindow := s.requestWindow - 1 }
    else none
  | .leaving => some { s with reader := .hangingUp, canceled := true }
  | .hangingUp => some { s with reader := .waiting, connClosed := true }
  | .waiting => if idle then some { s with reader := .draining } else none
  | .draining =>
    match s.writer with
    | .finished => some { s with reader := .returned }
    | _ => none
  | .acquiring | .reading | .returned => none

def wrote (response : OrderedResponse) (s : State) : State :=
  { s with
    writer := if response.closeConnection then .cancelling else .releasing
    nextSequence := if response.closeConnection then s.nextSequence else s.nextSequence + 1
    answered := s.answered + 1
    written := s.written ++ response.data }

/-- The write of a response has failed after `k` bytes. -/
def failAfter (k : ℕ) (response : OrderedResponse) (s : State) : State :=
  { s with writer := .cancelling, written := s.written ++ response.data.take k, failed := true }

/-- The writer goes on.  `fails` says after how many bytes a write fails, if it does; a write to a closed
connection fails. -/
def advanceWriter (fails : Option ℕ) (s : State) : Option State :=
  match s.writer with
  | .looking =>
    match s.pending.lookup s.nextSequence with
    | none => some { s with writer := .selecting }
    | some response =>
      some { s with writer := .writing response, pending := s.pending.erase s.nextSequence }
  | .writing response =>
    match fails with
    | none => if s.connClosed then none else some (s.wrote response)
    | some k => some (s.failAfter k response)
  | .releasing =>
    if 0 < s.requestWindow then
      some { s with writer := .looking, requestWindow := s.requestWindow - 1, released := s.released + 1 }
    else none
  | .cancelling => some { s with writer := .closing, canceled := true }
  | .closing => some { s with writer := .finished, connClosed := true }
  | .selecting | .finished => none

variable (d : Service ρ) (requests : ℕ → ρ)

/-- A goroutine builds its response, hands it over, or finds the context cancelled. -/
def advance (move : Move) (s : State) : Stage → Option (State × Stage)
  | .serving n sequence =>
    match move with
    | .serve => some (s, .sending n (buildOrderedResponse d (requests n) sequence))
    | _ => none
  | .sending n response =>
    match move with
    | .deliver =>
      match s.writer with
      | .selecting => some (s.receive n response, .returned)
      | _ => none
    | .abandon => if s.canceled then some (s, .returned) else none
    | .serve => none
  | .returned => none

end State

abbrev System := Pool State Stage

inductive Action where
  /-- The reader gets a token of the window. -/
  | acquire
  /-- It finds the context cancelled. -/
  | giveUp
  | read (outcome : Outcome)
  | reader
  | goroutine (i : ℕ) (move : Move)
  /-- The writer finds the context cancelled. -/
  | stop
  | writer (fails : Option ℕ)

namespace System

/-- A step of a connection on which `requests` are sent. -/
def step (d : Service ρ) (requests : ℕ → ρ) (s : System) : Action → Option System
  | .acquire =>
    if s.shared.reader = .acquiring ∧ s.shared.requestWindow < maxRequestWindowPerConnection then
      some { s with shared :=
        { s.shared with reader := .reading, requestWindow := s.shared.requestWindow + 1 } }
    else none
  | .giveUp =>
    if s.shared.reader = .acquiring ∧ s.shared.canceled = true then
      some { s with shared := { s.shared with reader := .leaving } }
    else none
  | .read outcome =>
    if s.shared.reader = .reading then
      match outcome with
      | .request => some (s.spawn s.shared.readRequest (.serving s.shared.read s.shared.sequence))
      | .ended => some { s with shared := { s.shared with reader := .releasing } }
      | .panicked => some { s with shared := { s.shared with reader := .leaving } }
    else none
  | .reader =>
    (s.shared.advanceReader (s.threads.all Stage.isReturned)).map fun shared => { s with shared := shared }
  | .goroutine i move => Pool.advance (State.advance d requests move) i s
  | .stop =>
    match s.shared.writer with
    | .selecting =>
      if s.shared.canceled then some { s with shared := { s.shared with writer := .finished } } else none
    | _ => none
  | .writer fails => (s.shared.advanceWriter fails).map fun shared => { s with shared := shared }

def new : System := ⟨.new, []⟩

end System

/-! ## The window -/

def Reader.holds : Reader → ℕ
  | .reading | .releasing => 1
  | _ => 0

/-- The token of a response that has been written, which the writer has not given back yet. -/
def Writer.owes : Writer → ℕ
  | .releasing => 1
  | _ => 0

namespace State

variable {s t : State}

structure Windowed (s : State) : Prop where
  room : s.requestWindow ≤ maxRequestWindowPerConnection
  tokens : s.read + s.reader.holds ≤ s.requestWindow + s.released
  released : s.released + s.writer.owes ≤ s.answered

namespace Windowed

variable (h : Windowed s)

include h

/-- The reader is never ahead of the answers by more than the window. -/
theorem read_le : s.read ≤ s.answered + maxRequestWindowPerConnection := by
  have hroom := h.room
  have htokens := h.tokens
  have hreleased := h.released
  omega

theorem acquire (hroom : s.requestWindow < maxRequestWindowPerConnection) :
    Windowed { s with reader := .reading, requestWindow := s.requestWindow + 1 } := by
  have htokens := h.tokens
  refine ⟨hroom, ?_, h.released⟩
  dsimp only [Reader.holds]
  omega

theorem goOn (hwindow : t.requestWindow = s.requestWindow) (hread : t.read = s.read)
    (hreleased : t.released = s.released) (hanswered : t.answered = s.answered)
    (hholds : t.reader.holds ≤ s.reader.holds) (howes : t.writer.owes ≤ s.writer.owes) : Windowed t := by
  have htokens := h.tokens
  have hreleased' := h.released
  refine ⟨hwindow.trans_le h.room, ?_, ?_⟩
  · omega
  · omega

theorem readRequest (hreader : s.reader = .reading) : Windowed s.readRequest := by
  have htokens := h.tokens
  rw [hreader] at htokens
  exact ⟨h.room, htokens, h.released⟩

theorem advanceReader {idle : Bool} (hstep : s.advanceReader idle = some t) : Windowed t := by
  unfold State.advanceReader at hstep
  split at hstep <;> rename_i hreader
  · split_ifs at hstep with hpos
    cases hstep
    have hroom := h.room
    have htokens := h.tokens
    rw [hreader] at htokens
    dsimp only [Reader.holds] at htokens
    refine ⟨?_, ?_, h.released⟩
    · dsimp only
      omega
    · dsimp only [Reader.holds]
      omega
  · cases hstep
    exact h.goOn rfl rfl rfl rfl (Nat.zero_le s.reader.holds) le_rfl
  · cases hstep
    exact h.goOn rfl rfl rfl rfl (Nat.zero_le s.reader.holds) le_rfl
  · split_ifs at hstep
    cases hstep
    exact h.goOn rfl rfl rfl rfl (Nat.zero_le s.reader.holds) le_rfl
  · split at hstep <;> cases hstep
    exact h.goOn rfl rfl rfl rfl (Nat.zero_le s.reader.holds) le_rfl
  all_goals cases hstep

theorem wrote (resp : OrderedResponse) : Windowed (s.wrote resp) := by
  have hreleased := h.released
  refine ⟨h.room, h.tokens, ?_⟩
  dsimp only [State.wrote, Writer.owes] at hreleased ⊢
  split_ifs <;> dsimp only <;> omega

theorem advanceWriter {fails : Option ℕ} (hstep : s.advanceWriter fails = some t) : Windowed t := by
  unfold State.advanceWriter at hstep
  split at hstep <;> rename_i hwriter
  · split at hstep <;> cases hstep <;>
      exact h.goOn rfl rfl rfl rfl le_rfl (Nat.zero_le s.writer.owes)
  · split at hstep
    · split_ifs at hstep
      cases hstep
      exact h.wrote _
    · cases hstep
      exact h.goOn rfl rfl rfl rfl le_rfl (Nat.zero_le s.writer.owes)
  · split_ifs at hstep with hpos
    cases hstep
    have hroom := h.room
    have htokens := h.tokens
    have hreleased := h.released
    rw [hwriter] at hreleased
    refine ⟨?_, ?_, ?_⟩
    · dsimp only
      omega
    · dsimp only
      omega
    · exact hreleased
  · cases hstep
    exact h.goOn rfl rfl rfl rfl le_rfl (Nat.zero_le s.writer.owes)
  · cases hstep
    exact h.goOn rfl rfl rfl rfl le_rfl (Nat.zero_le s.writer.owes)
  all_goals cases hstep

theorem pos_of_releasing (hread : s.answered ≤ s.read) (hwriter : s.writer = .releasing) : 0 < s.requestWindow := by
  have htokens := h.tokens
  have hreleased := h.released
  rw [hwriter] at hreleased
  dsimp only [Writer.owes] at hreleased
  omega

end Windowed

end State

/-! ## The order -/

theorem sequence_buildOrderedResponse (d : Service ρ) (r : ρ) (sequence : UInt64) :
    (buildOrderedResponse d r sequence).sequence = sequence := by
  unfold buildOrderedResponse
  split_ifs
  · rfl
  · split <;> rfl

theorem ofNat_inj_of_window {a n m : ℕ} (hn : a ≤ n) (hn' : n < a + maxRequestWindowPerConnection)
    (hm : a ≤ m) (hm' : m < a + maxRequestWindowPerConnection) (h : UInt64.ofNat n = UInt64.ofNat m) : n = m := by
  have hmod := congrArg UInt64.toNat h
  rw [UInt64.toNat_ofNat', UInt64.toNat_ofNat'] at hmod
  unfold maxRequestWindowPerConnection at hn' hm'
  omega

namespace Writer

def isActive : Writer → Bool
  | .selecting | .looking | .writing _ | .releasing => true
  | .cancelling | .closing | .finished => false

def current : Writer → ℕ
  | .writing _ => 1
  | _ => 0

end Writer

def Stage.index? : Stage → Option ℕ
  | .serving n _ | .sending n _ => some n
  | .returned => none

namespace State

variable (d : Service ρ) (requests : ℕ → ρ) {s t : State} {stages : Multiset Stage} {a b : Stage}

/-- The response to request `n`. -/
def response (n : ℕ) : OrderedResponse := buildOrderedResponse d (requests n) (UInt64.ofNat n)

/-- The responses to the first `k` requests, one after the other. -/
def responses (k : ℕ) : Str := ((List.range k).map fun n => (response d requests n).data).flatten

theorem responses_succ (k : ℕ) :
    responses d requests (k + 1) = responses d requests k ++ (response d requests k).data := by
  unfold responses
  rw [List.range_succ, List.map_append, List.flatten_append]
  simp

def Faithful : Stage → Prop
  | .serving n sequence => sequence = UInt64.ofNat n
  | .sending n r => r = response d requests n
  | .returned => True

/-- What the goroutines have, and what the writer has received, keeps and has written. -/
structure Ordered (s : State) (stages : Multiset Stage) : Prop where
  sequence : s.sequence = UInt64.ofNat s.read
  faithful : ∀ stage ∈ stages, Faithful d requests stage
  nodup : (stages.filterMap Stage.index?).Nodup
  running : ∀ n ∈ stages.filterMap Stage.index?, n < s.read ∧ n ∉ s.received
  received : ∀ n ∈ s.received, n < s.read
  answered : ∀ n < s.answered, n ∈ s.received
  next : s.writer.isActive = true → s.nextSequence = UInt64.ofNat s.answered
  pending : s.writer.isActive = true → ∀ q r, s.pending.lookup q = some r ↔
    ∃ n ∈ s.received, s.answered + s.writer.current ≤ n ∧ q = UInt64.ofNat n ∧ r = response d requests n
  writing : ∀ r, s.writer = .writing r → r = response d requests s.answered ∧ s.answered ∈ s.received
  idle : s.writer = .selecting → s.answered ∉ s.received
  bytes : ∃ part, s.written = responses d requests s.answered ++ part ∧
    part <+: (response d requests s.answered).data ∧ (s.failed = false → part = [])
  stopped : s.failed = true → s.writer.isActive = false
  last : ∀ n < s.answered, (response d requests n).closeConnection = true →
    n + 1 = s.answered ∧ s.writer.isActive = false ∧ s.failed = false
  ended : s.writer.isActive = false → s.answered ∉ s.received ∨ s.failed = true ∨
    ∃ n < s.answered, (response d requests n).closeConnection = true

variable {d requests}

namespace Ordered

section

variable (h : Ordered d requests s stages)

include h

theorem answered_le : s.answered ≤ s.read := by
  rcases Nat.eq_zero_or_pos s.answered with hzero | hpos
  · omega
  · have hlast := h.received _ (h.answered (s.answered - 1) (by omega))
    omega

theorem goOn (reader : Reader) (win : ℕ) (canceled connClosed : Bool) :
    Ordered d requests { s with
      reader := reader, requestWindow := win, canceled := canceled, connClosed := connClosed }
      stages :=
  ⟨h.sequence, h.faithful, h.nodup, h.running, h.received, h.answered, h.next, h.pending, h.writing, h.idle,
    h.bytes, h.stopped, h.last, h.ended⟩

theorem advanceReader {idle : Bool} (hstep : s.advanceReader idle = some t) : Ordered d requests t stages := by
  unfold State.advanceReader at hstep
  split at hstep
  · split_ifs at hstep
    cases hstep
    exact h.goOn _ _ _ _
  · cases hstep
    exact h.goOn _ _ _ _
  · cases hstep
    exact h.goOn _ _ _ _
  · split_ifs at hstep
    cases hstep
    exact h.goOn _ _ _ _
  · split at hstep <;> cases hstep
    exact h.goOn _ _ _ _
  all_goals cases hstep

theorem readRequest : Ordered d requests s.readRequest (.serving s.read s.sequence ::ₘ stages) := by
  have hindex : (Stage.serving s.read s.sequence ::ₘ stages).filterMap Stage.index? =
      s.read ::ₘ stages.filterMap Stage.index? := filterMap_cons_some _ _ _ rfl
  refine ⟨?_, ?_, ?_, ?_, ?_, h.answered, h.next, h.pending, h.writing, h.idle, h.bytes, h.stopped, h.last, h.ended⟩
  · dsimp only [State.readRequest]
    rw [h.sequence, UInt64.ofNat_add]
    rfl
  · intro st hstage
    rcases mem_cons.1 hstage with rfl | hstage
    · exact h.sequence
    · exact h.faithful st hstage
  · rw [hindex, nodup_cons]
    exact ⟨fun hmem => lt_irrefl _ (h.running _ hmem).1, h.nodup⟩
  · intro n hn
    rw [hindex] at hn
    rcases mem_cons.1 hn with rfl | hn
    · exact ⟨Nat.lt_succ_self _, fun hmem => lt_irrefl _ (h.received _ hmem)⟩
    · exact ⟨Nat.lt_succ_of_lt (h.running n hn).1, (h.running n hn).2⟩
  · intro n hn
    exact Nat.lt_succ_of_lt (h.received n hn)

end

theorem move (h : Ordered d requests s (a ::ₘ stages)) (hb : Faithful d requests b)
    (hindex : ∀ n ∈ b.index?, n ∈ a.index?) : Ordered d requests s (b ::ₘ stages) := by
  have hle : (b ::ₘ stages).filterMap Stage.index? ≤ (a ::ₘ stages).filterMap Stage.index? := by
    rw [filterMap_cons_elim, filterMap_cons_elim]
    cases hb' : b.index? with
    | none =>
      cases a.index? with
      | none => exact le_rfl
      | some n => exact le_cons_self _ n
    | some n =>
      rw [hindex n hb']
  refine ⟨h.sequence, ?_, nodup_of_le hle h.nodup,
    fun n hn => h.running n (mem_of_le hle hn), h.received, h.answered, h.next, h.pending,
    h.writing, h.idle, h.bytes, h.stopped, h.last, h.ended⟩
  intro st hstage
  rcases mem_cons.1 hstage with rfl | hstage
  · exact hb
  · exact h.faithful st (mem_cons_of_mem hstage)

variable {r : OrderedResponse}

theorem receive {n : ℕ} (h : Ordered d requests s (.sending n r ::ₘ stages))
    (hwindow : s.read ≤ s.answered + maxRequestWindowPerConnection) (hwriter : s.writer = .selecting) :
    Ordered d requests (s.receive n r) (.returned ::ₘ stages) := by
  obtain rfl : r = response d requests n := h.faithful _ (mem_cons_self _ _)
  have hindex : (Stage.sending n (response d requests n) ::ₘ stages).filterMap Stage.index? =
      n ::ₘ stages.filterMap Stage.index? := filterMap_cons_some _ _ _ rfl
  have hindex' : (Stage.returned ::ₘ stages).filterMap Stage.index? = stages.filterMap Stage.index? :=
    filterMap_cons_none _ _ rfl
  have hnodup := h.nodup
  have hrunning := h.running
  rw [hindex] at hnodup hrunning
  obtain ⟨hlt, hnew⟩ := hrunning n (mem_cons_self _ _)
  have hactive : s.writer.isActive = true := by rw [hwriter]; rfl
  have hle : s.answered ≤ n := by
    by_contra hlt'
    exact hnew (h.answered n (by omega))
  refine ⟨h.sequence, ?_, ?_, ?_, ?_, ?_, fun _ => h.next hactive, ?_, nofun, nofun, h.bytes, ?_, ?_, nofun⟩
  · intro stage hstage
    rcases mem_cons.1 hstage with rfl | hstage
    · trivial
    · exact h.faithful stage (mem_cons_of_mem hstage)
  · rw [hindex']
    exact (nodup_cons.1 hnodup).2
  · intro m hm
    rw [hindex'] at hm
    obtain ⟨hmlt, hmnew⟩ := hrunning m (mem_cons_of_mem hm)
    refine ⟨hmlt, ?_⟩
    intro hmem
    rcases mem_insert.1 hmem with rfl | hmem
    · exact (nodup_cons.1 hnodup).1 hm
    · exact hmnew hmem
  · intro m hm
    rcases mem_insert.1 hm with rfl | hm
    · exact hlt
    · exact h.received m hm
  · intro m hm
    exact mem_insert_of_mem (h.answered m hm)
  · intro _ q r
    have hpending := h.pending hactive q r
    rw [hwriter] at hpending
    dsimp only [State.receive, Writer.current] at hpending ⊢
    rw [FiniteMap.lookup_insert, response, sequence_buildOrderedResponse, ← response]
    constructor
    · intro hlookup
      split_ifs at hlookup with hq
      · cases hlookup
        exact ⟨n, mem_insert_self n _, hle, hq, rfl⟩
      · obtain ⟨m, hm, hrest⟩ := hpending.1 hlookup
        exact ⟨m, mem_insert_of_mem hm, hrest⟩
    · rintro ⟨m, hm, hle', hq, hr⟩
      split_ifs with hq'
      · -- no other request has this sequence number
        have hmlt : m < s.read := by
          rcases mem_insert.1 hm with rfl | hm
          · exact hlt
          · exact h.received m hm
        rw [hr, ofNat_inj_of_window hle (by omega) hle' (by omega) (hq'.symm.trans hq)]
      · refine hpending.2 ⟨m, (mem_insert.1 hm).resolve_left ?_, hle', hq, hr⟩
        rintro rfl
        exact hq' hq
  · intro hfailed
    exact nomatch (h.stopped hfailed).symm.trans hactive
  · intro m hm hclose
    exact nomatch (h.last m hm hclose).2.1.symm.trans hactive

section

variable (h : Ordered d requests s stages)

include h

theorem written_eq (hactive : s.writer.isActive = true) : s.written = responses d requests s.answered := by
  obtain ⟨part, hwritten, -, hpart⟩ := h.bytes
  have hfailed : s.failed = false := by
    by_contra hfailed
    exact nomatch (h.stopped (by simpa using hfailed)).symm.trans hactive
  rw [hwritten, hpart hfailed, List.append_nil]

theorem stop (hwas : s.writer = .selecting ∨ s.writer.isActive = false) (hwriter : t.writer.isActive = false)
    (hsame : t = { s with writer := t.writer, canceled := t.canceled, connClosed := t.connClosed }) :
    Ordered d requests t stages := by
  have hactive : ¬t.writer.isActive = true := by
    rw [hwriter]
    exact Bool.false_ne_true
  rw [hsame]
  refine ⟨h.sequence, h.faithful, h.nodup, h.running, h.received, h.answered, fun ha => absurd ha hactive,
    fun ha => absurd ha hactive, ?_, ?_, h.bytes, fun _ => hwriter, ?_,
    fun _ => hwas.elim (fun hselecting => .inl (h.idle hselecting)) h.ended⟩
  · intro r hr
    rw [hr] at hactive
    exact absurd rfl hactive
  · intro hselecting
    rw [hselecting] at hactive
    exact absurd rfl hactive
  · intro n hn hclose
    obtain ⟨hlast, -, hfailed⟩ := h.last n hn hclose
    exact ⟨hlast, hwriter, hfailed⟩

theorem await (hwriter : s.writer = .looking) (hnone : s.pending.lookup s.nextSequence = none) :
    Ordered d requests { s with writer := .selecting } stages := by
  have hactive : s.writer.isActive = true := by rw [hwriter]; rfl
  have hpending := h.pending hactive
  rw [hwriter] at hpending
  refine ⟨h.sequence, h.faithful, h.nodup, h.running, h.received, h.answered, fun _ => h.next hactive,
    fun _ => hpending, nofun, ?_, h.bytes, ?_, ?_, nofun⟩
  · intro _ hmem
    have hsome := (hpending s.nextSequence (response d requests s.answered)).2
      ⟨s.answered, hmem, le_rfl, h.next hactive, rfl⟩
    exact nomatch hnone.symm.trans hsome
  · intro hfailed
    exact nomatch (h.stopped hfailed).symm.trans hactive
  · intro n hn hclose
    exact nomatch (h.last n hn hclose).2.1.symm.trans hactive

theorem take (hwindow : s.read ≤ s.answered + maxRequestWindowPerConnection) (hwriter : s.writer = .looking)
    (hr : s.pending.lookup s.nextSequence = some r) :
    Ordered d requests
      { s with writer := .writing r, pending := s.pending.erase s.nextSequence } stages := by
  have hactive : s.writer.isActive = true := by rw [hwriter]; rfl
  have hnext := h.next hactive
  have hpending := h.pending hactive
  rw [hwriter] at hpending
  -- only the next request has its sequence number
  have honly : ∀ n ∈ s.received, s.answered ≤ n → s.nextSequence = UInt64.ofNat n → n = s.answered := by
    intro n hn hle hq
    have hlt := h.received n hn
    rw [hnext] at hq
    exact (ofNat_inj_of_window le_rfl (by omega) hle (by omega) hq).symm
  obtain ⟨n, hn, hle, hq, rfl⟩ := (hpending _ _).1 hr
  obtain rfl := honly n hn hle hq
  refine ⟨h.sequence, h.faithful, h.nodup, h.running, h.received, h.answered, fun _ => hnext, ?_, ?_, nofun,
    h.bytes, ?_, ?_, nofun⟩
  · intro _ q r
    dsimp only [Writer.current]
    rw [FiniteMap.lookup_erase]
    constructor
    · intro hlookup
      split_ifs at hlookup with hq'
      obtain ⟨m, hm, hle', hq'', hr'⟩ := (hpending q r).1 hlookup
      refine ⟨m, hm, ?_, hq'', hr'⟩
      have hne : m ≠ s.answered := by
        rintro rfl
        exact hq' (hq''.trans hnext.symm)
      omega
    · rintro ⟨m, hm, hle', hq', hr'⟩
      rw [if_neg]
      · exact (hpending q r).2 ⟨m, hm, by dsimp only [Writer.current]; omega, hq', hr'⟩
      · intro hq''
        have hm' := honly m hm (by omega) (hq''.symm.trans hq')
        omega
  · rintro r ⟨⟩
    exact ⟨rfl, hn⟩
  · intro hfailed
    exact nomatch (h.stopped hfailed).symm.trans hactive
  · intro m hm hclose
    exact nomatch (h.last m hm hclose).2.1.symm.trans hactive

theorem wrote (hwriter : s.writer = .writing r) : Ordered d requests (s.wrote r) stages := by
  have hactive : s.writer.isActive = true := by rw [hwriter]; rfl
  have hnext := h.next hactive
  have hpending := h.pending hactive
  have hwritten := h.written_eq hactive
  have hfailed : s.failed = false := by
    by_contra hfailed
    exact nomatch (h.stopped (by simpa using hfailed)).symm.trans hactive
  obtain ⟨rfl, hmem⟩ := h.writing r hwriter
  rw [hwriter] at hpending
  refine ⟨h.sequence, h.faithful, h.nodup, h.running, h.received, ?_, ?_, ?_, ?_, ?_, ?_, ?_, ?_, ?_⟩
  · intro n hn
    rcases Nat.lt_succ_iff_lt_or_eq.1 hn with hn | rfl
    · exact h.answered n hn
    · exact hmem
  · intro hactive'
    dsimp only [State.wrote] at hactive' ⊢
    split_ifs at hactive' ⊢
    · cases hactive'
    · rw [hnext, UInt64.ofNat_add]
      rfl
  · intro hactive' q r
    dsimp only [State.wrote] at hactive' ⊢
    split_ifs at hactive' ⊢
    · cases hactive'
    · exact hpending q r
  · intro r hr
    dsimp only [State.wrote] at hr
    split_ifs at hr
  · intro hselecting
    dsimp only [State.wrote] at hselecting
    split_ifs at hselecting
  · refine ⟨[], ?_, List.nil_prefix, fun _ => rfl⟩
    dsimp only [State.wrote]
    rw [hwritten, responses_succ, List.append_nil]
  · intro hfailed'
    exact nomatch hfailed.symm.trans hfailed'
  · intro n hn hclose
    rcases Nat.lt_succ_iff_lt_or_eq.1 hn with hn | rfl
    · exact nomatch (h.last n hn hclose).2.1.symm.trans hactive
    · refine ⟨rfl, ?_, hfailed⟩
      dsimp only [State.wrote]
      rw [if_pos hclose]
      rfl
  · intro hinactive
    dsimp only [State.wrote] at hinactive
    split_ifs at hinactive with hclose
    · exact .inr (.inr ⟨s.answered, Nat.lt_succ_self _, hclose⟩)
    · cases hinactive

theorem failAfter (hwriter : s.writer = .writing r) (k : ℕ) : Ordered d requests (s.failAfter k r) stages := by
  have hactive : s.writer.isActive = true := by rw [hwriter]; rfl
  have hwritten := h.written_eq hactive
  obtain ⟨rfl, -⟩ := h.writing r hwriter
  refine ⟨h.sequence, h.faithful, h.nodup, h.running, h.received, h.answered, nofun, nofun, nofun, nofun,
    ?_, fun _ => rfl, ?_, fun _ => .inr (.inl rfl)⟩
  · refine ⟨(response d requests s.answered).data.take k, ?_, List.take_prefix _ _, nofun⟩
    dsimp only [State.failAfter]
    rw [hwritten]
  · intro n hn hclose
    exact nomatch (h.last n hn hclose).2.1.symm.trans hactive

theorem look (hwriter : s.writer = .releasing) (win released : ℕ) :
    Ordered d requests
      { s with writer := .looking, requestWindow := win, released := released } stages := by
  have hactive : s.writer.isActive = true := by rw [hwriter]; rfl
  have hpending := h.pending hactive
  rw [hwriter] at hpending
  refine ⟨h.sequence, h.faithful, h.nodup, h.running, h.received, h.answered, fun _ => h.next hactive,
    fun _ => hpending, nofun, nofun, h.bytes, ?_, ?_, nofun⟩
  · intro hfailed
    exact nomatch (h.stopped hfailed).symm.trans hactive
  · intro n hn hclose
    exact nomatch (h.last n hn hclose).2.1.symm.trans hactive

theorem advanceWriter {fails : Option ℕ} (hwindow : s.read ≤ s.answered + maxRequestWindowPerConnection)
    (hstep : s.advanceWriter fails = some t) : Ordered d requests t stages := by
  unfold State.advanceWriter at hstep
  split at hstep <;> rename_i hwriter
  · split at hstep <;> rename_i hlookup <;> cases hstep
    · exact h.await hwriter hlookup
    · exact h.take hwindow hwriter hlookup
  · split at hstep
    · split_ifs at hstep
      cases hstep
      exact h.wrote hwriter
    · cases hstep
      exact h.failAfter hwriter _
  · split_ifs at hstep
    cases hstep
    exact h.look hwriter _ _
  · cases hstep
    exact h.stop (.inr (by rw [hwriter]; rfl)) rfl rfl
  · cases hstep
    exact h.stop (.inr (by rw [hwriter]; rfl)) rfl rfl
  all_goals cases hstep

end

theorem advance {move : Move} (h : Ordered d requests s (a ::ₘ stages))
    (hwindow : s.read ≤ s.answered + maxRequestWindowPerConnection)
    (hstep : s.advance d requests move a = some (t, b)) : Ordered d requests t (b ::ₘ stages) := by
  cases a with
  | serving n seq =>
    cases move <;> cases hstep
    obtain rfl : seq = UInt64.ofNat n := h.faithful _ (mem_cons_self _ _)
    exact h.move rfl fun _ => id
  | sending n r =>
    cases move with
    | serve => cases hstep
    | deliver =>
      dsimp only [State.advance] at hstep
      split at hstep <;> rename_i hwriter <;> cases hstep
      exact h.receive hwindow hwriter
    | abandon =>
      dsimp only [State.advance] at hstep
      split_ifs at hstep
      cases hstep
      exact h.move trivial nofun
  | returned => cases hstep

end Ordered

/-! ## The writer gets on -/

def Writes (s t : State) : Prop := s.advanceWriter none = some t

/-- A connection that is up, on which the responses to the requests up to `m` have been received. -/
structure Ready (d : Service ρ) (requests : ℕ → ρ) (stages : Multiset Stage) (m : ℕ) (s : State) : Prop where
  ordered : Ordered d requests s stages
  windowed : Windowed s
  up : s.connClosed = false
  received : ∀ n ≤ m, n ∈ s.received

/-- The response to request `m` has been written, or one that asks to close. -/
def Answers (d : Service ρ) (requests : ℕ → ρ) (m : ℕ) (s : State) : Prop :=
  m < s.answered ∨ ∃ n < s.answered, (response d requests n).closeConnection = true

namespace Ready

variable {m : ℕ}

variable (h : Ready d requests stages m s)

include h

theorem writes (hstep : Writes s t) (hup : t.connClosed = s.connClosed) (hreceived : t.received = s.received) :
    Ready d requests stages m t where
  ordered := h.ordered.advanceWriter h.windowed.read_le hstep
  windowed := h.windowed.advanceWriter hstep
  up := hup.trans h.up
  received := hreceived ▸ h.received

theorem take (hwriter : s.writer = .looking) (hle : s.answered ≤ m) :
    ∃ t, Writes s t ∧ Ready d requests stages m t ∧ (∃ r, t.writer = .writing r) ∧ t.answered = s.answered := by
  have hactive : s.writer.isActive = true := by rw [hwriter]; rfl
  have hlookup : s.pending.lookup s.nextSequence = some (response d requests s.answered) := by
    refine (h.ordered.pending hactive _ _).2 ⟨s.answered, h.received _ hle, ?_, h.ordered.next hactive, rfl⟩
    rw [hwriter]
    exact le_rfl
  have hstep : Writes s { s with
      writer := .writing (response d requests s.answered), pending := s.pending.erase s.nextSequence } := by
    unfold Writes State.advanceWriter
    rw [hwriter]
    rw [hlookup]
  exact ⟨_, hstep, h.writes hstep rfl rfl, ⟨_, rfl⟩, rfl⟩

theorem write {r : OrderedResponse} (hwriter : s.writer = .writing r) :
    ∃ t, Writes s t ∧ Ready d requests stages m t ∧ t.answered = s.answered + 1 ∧
      (t.writer = .releasing ∨ ∃ n < t.answered, (response d requests n).closeConnection = true) := by
  have hstep : Writes s (s.wrote r) := by
    unfold Writes State.advanceWriter
    rw [hwriter]
    rw [h.up]
    rfl
  refine ⟨_, hstep, h.writes hstep rfl rfl, rfl, ?_⟩
  obtain ⟨rfl, -⟩ := h.ordered.writing r hwriter
  by_cases hclose : (response d requests s.answered).closeConnection = true
  · exact .inr ⟨s.answered, Nat.lt_succ_self _, hclose⟩
  · exact .inl (if_neg hclose)

theorem release (hwriter : s.writer = .releasing) :
    ∃ t, Writes s t ∧ Ready d requests stages m t ∧ t.writer = .looking ∧ t.answered = s.answered := by
  have hstep : Writes s { s with
      writer := .looking, requestWindow := s.requestWindow - 1, released := s.released + 1 } := by
    unfold Writes State.advanceWriter
    rw [hwriter]
    exact if_pos (h.windowed.pos_of_releasing h.ordered.answered_le hwriter)
  exact ⟨_, hstep, h.writes hstep rfl rfl, rfl, rfl⟩

theorem answers_of_looking {k : ℕ} (hwriter : s.writer = .looking) (hk : m < s.answered + k) :
    ∃ t, Relation.ReflTransGen Writes s t ∧ Answers d requests m t := by
  induction k generalizing s with
  | zero => exact ⟨s, .refl, .inl hk⟩
  | succ k ih =>
    by_cases hdone : m < s.answered
    · exact ⟨s, .refl, .inl hdone⟩
    obtain ⟨t, hst, ht, ⟨r, hwriting⟩, hanswered⟩ := h.take hwriter (by omega)
    obtain ⟨u, htu, hu, hanswered', hreleasing | hclosed⟩ := ht.write hwriting
    · obtain ⟨v, huv, hv, hlooking, hanswered''⟩ := hu.release hreleasing
      obtain ⟨w, hvw, hanswers⟩ := ih hv hlooking (by omega)
      exact ⟨w, .head hst (.head htu (.head huv hvw)), hanswers⟩
    · exact ⟨u, .head hst (.single htu), .inr hclosed⟩

theorem answers_of_releasing (hwriter : s.writer = .releasing) :
    ∃ t, Relation.ReflTransGen Writes s t ∧ Answers d requests m t := by
  obtain ⟨t, hst, ht, hlooking, -⟩ := h.release hwriter
  obtain ⟨u, htu, hanswers⟩ := ht.answers_of_looking hlooking (Nat.lt_add_left t.answered m.lt_succ_self)
  exact ⟨u, .head hst htu, hanswers⟩

theorem answers (hfailed : s.failed = false) : ∃ t, Relation.ReflTransGen Writes s t ∧ Answers d requests m t := by
  have hwaits : s.answered ∉ s.received → Answers d requests m s := by
    intro hnot
    by_contra hle
    exact hnot (h.received _ (not_lt.1 fun hlt => hle (.inl hlt)))
  have hstops : s.writer.isActive = false → Answers d requests m s := by
    intro hinactive
    rcases h.ordered.ended hinactive with hnot | hfailed' | hclosed
    · exact hwaits hnot
    · exact nomatch hfailed.symm.trans hfailed'
    · exact .inr hclosed
  cases hwriter : s.writer with
  | selecting => exact ⟨s, .refl, hwaits (h.ordered.idle hwriter)⟩
  | looking => exact h.answers_of_looking hwriter (Nat.lt_add_left s.answered m.lt_succ_self)
  | writing r =>
    obtain ⟨t, hst, ht, -, hreleasing | hclosed⟩ := h.write hwriter
    · obtain ⟨u, htu, hanswers⟩ := ht.answers_of_releasing hreleasing
      exact ⟨u, .head hst htu, hanswers⟩
    · exact ⟨t, .single hst, .inr hclosed⟩
  | releasing => exact h.answers_of_releasing hwriter
  | cancelling | closing | finished => exact ⟨s, .refl, hstops (by rw [hwriter]; rfl)⟩

end Ready

end State

/-! ## The system -/

namespace System

open State

variable {d : Service ρ} {requests : ℕ → ρ} {s t : System}

theorem windowed_advance {move : Move} {x y : State} {a b : Stage} (h : Windowed x)
    (hstep : x.advance d requests move a = some (y, b)) : Windowed y := by
  cases a with
  | serving n seq =>
    cases move <;> cases hstep
    exact h
  | sending n r =>
    cases move with
    | serve => cases hstep
    | deliver =>
      dsimp only [State.advance] at hstep
      split at hstep <;> cases hstep
      exact h.goOn rfl rfl rfl rfl le_rfl (Nat.zero_le x.writer.owes)
    | abandon =>
      dsimp only [State.advance] at hstep
      split_ifs at hstep
      cases hstep
      exact h
  | returned => cases hstep

structure Guarded (d : Service ρ) (requests : ℕ → ρ) (s : System) : Prop where
  windowed : Windowed s.shared
  ordered : Ordered d requests s.shared s.threads

theorem guarded_new : Guarded d requests new where
  windowed := ⟨Nat.zero_le _, le_rfl, le_rfl⟩
  ordered := by
    refine ⟨rfl, nofun, nodup_zero, nofun, nofun, nofun, fun _ => rfl, ?_, nofun, nofun,
      ⟨[], rfl, List.nil_prefix, fun _ => rfl⟩, nofun, nofun, nofun⟩
    intro _ q r
    constructor
    · intro hlookup
      exact nomatch (Finmap.lookup_empty q).symm.trans hlookup
    · rintro ⟨n, hn, -⟩
      exact absurd hn (notMem_empty n)

/-- Reader, requests and writer keep the window and the order. -/
theorem Guarded.step {action : Action} (h : Guarded d requests s)
    (hstep : System.step d requests s action = some t) : Guarded d requests t := by
  obtain ⟨hwindowed, hordered⟩ := h
  cases action with
  | acquire =>
    rw [System.step] at hstep
    split_ifs at hstep with hacquire
    cases hstep
    exact ⟨hwindowed.acquire hacquire.2, hordered.goOn _ _ _ _⟩
  | giveUp =>
    rw [System.step] at hstep
    split_ifs at hstep
    cases hstep
    exact ⟨hwindowed.goOn rfl rfl rfl rfl (Nat.zero_le s.shared.reader.holds) le_rfl,
      hordered.goOn _ _ _ _⟩
  | read outcome =>
    unfold System.step at hstep
    dsimp only at hstep
    split_ifs at hstep with hreader
    cases outcome with
    | request =>
      cases hstep
      refine ⟨hwindowed.readRequest hreader, ?_⟩
      rw [Pool.coe_threads_spawn]
      exact hordered.readRequest
    | ended =>
      cases hstep
      refine ⟨hwindowed.goOn rfl rfl rfl rfl ?_ le_rfl, hordered.goOn _ _ _ _⟩
      rw [hreader]
      exact le_rfl
    | panicked =>
      cases hstep
      exact ⟨hwindowed.goOn rfl rfl rfl rfl (Nat.zero_le s.shared.reader.holds) le_rfl,
        hordered.goOn _ _ _ _⟩
  | reader =>
    obtain ⟨shared, hshared, rfl⟩ := Option.map_eq_some_iff.1 hstep
    exact ⟨hwindowed.advanceReader hshared, hordered.advanceReader hshared⟩
  | goroutine i move =>
    obtain ⟨a, b, others, -, hnext, hbefore, hafter⟩ := Pool.advance_cases hstep
    refine ⟨windowed_advance hwindowed hnext, ?_⟩
    rw [hafter]
    rw [hbefore] at hordered
    exact hordered.advance hwindowed.read_le hnext
  | stop =>
    rw [System.step] at hstep
    split at hstep <;> rename_i hwriter
    · split_ifs at hstep
      cases hstep
      exact ⟨hwindowed.goOn rfl rfl rfl rfl le_rfl (Nat.zero_le s.shared.writer.owes),
        hordered.stop (.inl hwriter) rfl rfl⟩
    · cases hstep
  | writer fails =>
    obtain ⟨shared, hshared, rfl⟩ := Option.map_eq_some_iff.1 hstep
    exact ⟨hwindowed.advanceWriter hshared, hordered.advanceWriter hwindowed.read_le hshared⟩

theorem guarded (h : ReachedBy (step d requests) (· = new) (fun _ _ => True) s) : Guarded d requests s := by
  refine ReachedBy.invariant _ ?_ ?_ h
  · rintro _ rfl
    exact guarded_new
  · intro s act t hs _ hstep
    exact hs.step hstep

theorem exists_run {y : State} (h : Relation.ReflTransGen Writes s.shared y) :
    Relation.ReflTransGen (fun s t => step d requests s (.writer none) = some t) s { s with shared := y } := by
  induction h with
  | refl => exact .refl
  | tail _ hlast ih =>
    refine ih.tail ?_
    rw [step, hlast]
    rfl

/-- In every state: the responses to the first requests have been written in their order, with a part of the next one
only if its write has failed; a response that asks to close is the last; at most 64 requests are read and not
answered; the writer does not wait when it gives a token back; when it waits for a response, the next one has not been
received; and what has been received with its predecessors is written while the connection is up and no write fails.
-/
theorem pipelined_in_order (h : ReachedBy (step d requests) (· = new) (fun _ _ => True) s) :
    (∃ part, s.shared.written = ((List.range s.shared.answered).map fun n =>
          (buildOrderedResponse d (requests n) (UInt64.ofNat n)).data).flatten ++ part ∧
      part <+: (buildOrderedResponse d (requests s.shared.answered) (UInt64.ofNat s.shared.answered)).data ∧
      (s.shared.failed = false → part = [])) ∧ (∀ n < s.shared.answered,
      (buildOrderedResponse d (requests n) (UInt64.ofNat n)).closeConnection = true →
        n + 1 = s.shared.answered ∧ s.shared.failed = false) ∧ (s.shared.answered ≤ s.shared.read ∧
      s.shared.read ≤ s.shared.answered + maxRequestWindowPerConnection) ∧
    (s.shared.writer = .releasing → 0 < s.shared.requestWindow) ∧
    (s.shared.writer = .selecting → s.shared.answered ∉ s.shared.received) ∧
    (s.shared.connClosed = false → s.shared.failed = false → ∀ m, (∀ n ≤ m, n ∈ s.shared.received) →
      ∃ t, Relation.ReflTransGen (fun s t => step d requests s (.writer none) = some t) s t ∧
        (m < t.shared.answered ∨ ∃ n < t.shared.answered,
          (buildOrderedResponse d (requests n) (UInt64.ofNat n)).closeConnection = true)) := by
  obtain ⟨hwindowed, hordered⟩ := guarded h
  refine ⟨hordered.bytes, ?_, ⟨hordered.answered_le, hwindowed.read_le⟩, hwindowed.pos_of_releasing hordered.answered_le,
    hordered.idle, ?_⟩
  · intro n hn hclose
    obtain ⟨hlast, -, hfailed⟩ := hordered.last n hn hclose
    exact ⟨hlast, hfailed⟩
  · intro hup hfailed m hm
    have hready : Ready d requests s.threads m s.shared := ⟨hordered, hwindowed, hup, hm⟩
    obtain ⟨y, hy, hanswers⟩ := hready.answers hfailed
    exact ⟨_, exists_run hy, hanswers⟩

def echo : Service Str where
  contentType _ := str "application/json"
  unsupportedContentType _ := false
  serveRequest request := (request, none)
  writeHTTPErrorResponse _ body := body

def secondFirst : List Action :=
  [.acquire, .read .request, .acquire, .read .request, .goroutine 1 .serve, .goroutine 1 .deliver, .writer none,
    .goroutine 0 .serve, .goroutine 0 .deliver]

theorem secondFirst_in_order : ∃ s : System,
    ReachedBy (step echo fun n => [UInt8.ofNat n]) (· = new) (fun _ _ => True) s ∧
    (s.shared.connClosed = false ∧ s.shared.failed = false ∧ (∀ n ≤ 1, n ∈ s.shared.received) ∧
      s.shared.written = []) ∧ ∃ t, Relation.ReflTransGen
        (fun s t => step echo (fun n => [UInt8.ofNat n]) s (.writer none) = some t) s t ∧
      (1 < t.shared.answered ∨ ∃ n < t.shared.answered,
        (buildOrderedResponse echo [UInt8.ofNat n] (UInt64.ofNat n)).closeConnection = true) := by
  obtain ⟨s, hs, hup, hfailed, hreceived, hwritten⟩ := ReachedBy.of_run (step echo fun n => [UInt8.ofNat n])
    (fun _ _ => True) new secondFirst (fun s : System => s.shared.connClosed = false ∧ s.shared.failed = false ∧
      (∀ n : ℕ, n ≤ 1 → n ∈ s.shared.received) ∧ s.shared.written = []) (by decide +kernel)
  obtain ⟨-, -, -, -, -, hanswers⟩ := pipelined_in_order hs
  exact ⟨s, hs, ⟨hup, hfailed, hreceived, hwritten⟩, hanswers hup hfailed 1 hreceived⟩

end System

end DubboGo.Jsonrpc
