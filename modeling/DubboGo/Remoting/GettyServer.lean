import DubboGo.Lib.Pool

/-!
# The heartbeats of a getty server

`RpcServerHandler` of `remoting/getty/listener.go`: `NewServer` makes one, and `newSession` sets it as the
listener of every session.  A step is a call that getty makes of the handler, or the callback of a heartbeat
that `OnCron` has sent.
-/

namespace DubboGo.Remoting.GettyServer

open Lib List

inductive Cause where
  /-- The session has been idle for longer than `sessionTimeout`. -/
  | idle
  /-- A heartbeat has been written in part. -/
  | cut
  | heartbeats
  deriving DecidableEq

/-- `RpcServerHandler`, without request counts.  `sent` are the sessions of the heartbeats whose callbacks are still
to run.  The callbacks that have run, the latest first and with whether the heartbeat failed, and the calls of `Close`
are history. -/
structure Handler where
  maxSessionNum : ℤ
  sessionTimeout : ℤ
  sessionMap : Finset ℕ
  timeoutTimes : ℕ
  sent : List ℕ
  finished : List (ℕ × Bool)
  closes : List (ℕ × Cause)

namespace Handler

/-- `NewRpcServerHandler`. -/
def new (maxSessionNum sessionTimeout : ℤ) : Handler where
  maxSessionNum := maxSessionNum
  sessionTimeout := sessionTimeout
  sessionMap := ∅
  timeoutTimes := 0
  sent := []
  finished := []
  closes := []

def close (session : ℕ) (cause : Cause) (h : Handler) : Handler :=
  { h with closes := (session, cause) :: h.closes }

def onOpen (session : ℕ) (h : Handler) : Handler :=
  if h.maxSessionNum ≤ h.sessionMap.card then h else { h with sessionMap := insert session h.sessionMap }

/-- `OnClose`, and `OnError`. -/
def onClose (session : ℕ) (h : Handler) : Handler := { h with sessionMap := h.sessionMap.erase session }

/-- `heartbeat`, of which `WritePkg` has written `sendLen` bytes of `totalLen`. -/
def heartbeat (session : ℕ) (totalLen sendLen : ℤ) (h : Handler) : Handler :=
  let h := if sendLen ≠ 0 ∧ totalLen ≠ sendLen then h.close session .cut else h
  { h with sent := h.sent ++ [session] }

/-- `OnCron`, `since` nanoseconds after the session was active. -/
def onCron (session : ℕ) (since totalLen sendLen : ℤ) (h : Handler) : Handler :=
  let h := if session ∈ h.sessionMap ∧ h.sessionTimeout < since then (h.onClose session).close session .idle
    else h
  h.heartbeat session totalLen sendLen

/-- `heartbeatCallBack`. -/
def heartbeatCallBack (session : ℕ) (failed : Bool) (h : Handler) : Handler :=
  let h := { h with finished := (session, failed) :: h.finished }
  if failed then
    if 3 ≤ h.timeoutTimes then (h.onClose session).close session .heartbeats
    else { h with timeoutTimes := h.timeoutTimes + 1 }
  else { h with timeoutTimes := 0 }

end Handler

inductive Action where
  | onOpen (session : ℕ)
  | onClose (session : ℕ)
  | onCron (session : ℕ) (since totalLen sendLen : ℤ)
  /-- A heartbeat is answered, fails or times out. -/
  | callBack (i : ℕ) (failed : Bool)

def step (h : Handler) : Action → Option Handler
  | .onOpen session => some (h.onOpen session)
  | .onClose session => some (h.onClose session)
  | .onCron session since totalLen sendLen => some (h.onCron session since totalLen sendLen)
  | .callBack i failed =>
    h.sent[i]?.map fun session => { h with sent := h.sent.eraseIdx i }.heartbeatCallBack session failed

abbrev Reached (maxSessionNum sessionTimeout : ℤ) : Handler → Prop :=
  ReachedBy step (· = .new maxSessionNum sessionTimeout) fun _ _ => True

/-- The last four heartbeats of a session have failed. -/
def LastFourFailed (session : ℕ) (finished : List (ℕ × Bool)) : Prop :=
  (finished.filter (·.1 = session)).take 4 = replicate 4 (session, true)

instance (session : ℕ) (finished : List (ℕ × Bool)) : Decidable (LastFourFailed session finished) :=
  inferInstanceAs (Decidable (_ = _))

/-- The failures that the handler counts are the last ones of all its sessions together. -/
def Counts (h : Handler) : Prop := h.timeoutTimes = min 3 (h.finished.takeWhile (·.2)).length

theorem counts_heartbeatCallBack {h : Handler} (hh : Counts h) (ses : ℕ) (failed : Bool) :
    Counts (h.heartbeatCallBack ses failed) := by
  unfold Counts at *
  cases failed with
  | false => simp [Handler.heartbeatCallBack]
  | true =>
    simp only [Handler.heartbeatCallBack, if_true]
    split_ifs with hmax
    · simp only [Handler.close, Handler.onClose, takeWhile_cons, if_true, length_cons]
      omega
    · simp only [takeWhile_cons, if_true, length_cons]
      omega

/-- No other call of the handler touches the count or completes a heartbeat. -/
theorem counts_step {h t : Handler} {act : Action} (hh : Counts h) (hst : step h act = some t) : Counts t := by
  cases act with
  | onOpen ses =>
    obtain rfl := Option.some.inj hst
    unfold Handler.onOpen
    split_ifs <;> exact hh
  | onClose ses =>
    obtain rfl := Option.some.inj hst
    exact hh
  | onCron ses since totalLen sendLen =>
    obtain rfl := Option.some.inj hst
    simp only [Handler.onCron, Handler.heartbeat]
    split_ifs <;> exact hh
  | callBack i failed =>
    obtain ⟨ses, -, rfl⟩ := Option.map_eq_some_iff.1 hst
    refine counts_heartbeatCallBack ?_ ses failed
    exact hh

theorem Reached.counts {maxSessionNum sessionTimeout : ℤ} {h : Handler}
    (hrch : Reached maxSessionNum sessionTimeout h) : Counts h := by
  refine ReachedBy.invariant Counts ?_ (fun _ _ _ hs _ hst => counts_step hs hst) hrch
  rintro _ rfl
  rfl

theorem length_takeWhile_iff {l : List (ℕ × Bool)} {ses : ℕ} (n : ℕ) (hown : ∀ c ∈ l.take n, c.1 = ses) :
    n ≤ (l.takeWhile (·.2)).length ↔ (l.filter (·.1 = ses)).take n = replicate n (ses, true) := by
  induction n generalizing l with
  | zero => simp
  | succ n ih =>
    cases l with
    | nil => simp [replicate_succ]
    | cons c l =>
      obtain ⟨ses', failed⟩ := c
      rw [take_succ_cons, forall_mem_cons] at hown
      obtain ⟨rfl, hown⟩ := hown
      cases failed with
      | false => simp [replicate_succ]
      | true => simp [replicate_succ, ih hown]

/-- The callback of a heartbeat closes its session exactly if the last four heartbeats of that session have
failed, where the three callbacks before it were of the same session. -/
theorem callBack_closes_iff {maxSessionNum sessionTimeout : ℤ} {h t : Handler} {i session : ℕ} {failed : Bool}
    (hreach : Reached maxSessionNum sessionTimeout h) (hi : h.sent[i]? = some session)
    (hst : step h (.callBack i failed) = some t) (hown : ∀ c ∈ h.finished.take 3, c.1 = session) :
    t.finished = (session, failed) :: h.finished ∧
      t.closes = if LastFourFailed session t.finished then (session, .heartbeats) :: h.closes
        else h.closes := by
  have hcnt : h.timeoutTimes = _ := hreach.counts
  simp only [step, hi, Option.map_some, Option.some.injEq] at hst
  subst hst
  cases failed with
  | false => simp [Handler.heartbeatCallBack, LastFourFailed, replicate_succ]
  | true =>
    have hthr := length_takeWhile_iff 3 hown
    have hla : LastFourFailed session ((session, true) :: h.finished) ↔ 3 ≤ h.timeoutTimes := by
      rw [hcnt, le_min_iff, hthr]
      simp [LastFourFailed, replicate_succ]
    simp only [Handler.heartbeatCallBack, if_true]
    split_ifs with hmax <;> simp_all [Handler.close, Handler.onClose]

/-- A session that does not answer is opened, and three of its heartbeats time out. -/
def unanswered : List Action :=
  [.onOpen 0, .onCron 0 0 16 16, .callBack 0 true, .onCron 0 0 16 16, .callBack 0 true, .onCron 0 0 16 16,
    .callBack 0 true]

theorem callBack_closes_fourth : ∃ h t, Reached 700 60000000000 h ∧ h.sent = [0] ∧
    step h (.callBack 0 true) = some t ∧ t.closes = [(0, .heartbeats)] := by
  obtain ⟨h, hrch, hsn, hfin, hcl⟩ := ReachedBy.of_run step (fun _ _ => True) (.new 700 60000000000)
    (unanswered ++ [.onCron 0 0 16 16])
    (fun h => h.sent = [0] ∧ h.finished = replicate 3 (0, true) ∧ h.closes = []) (by decide)
  have hi : h.sent[0]? = some 0 := by rw [hsn]; rfl
  obtain ⟨t, ht⟩ : ∃ t, step h (.callBack 0 true) = some t := by simp [step, hi]
  obtain ⟨htfin, htcl⟩ := callBack_closes_iff hrch hi ht (by rw [hfin]; decide)
  refine ⟨h, t, hrch, hsn, ht, ?_⟩
  rw [htcl, htfin, hfin, hcl]
  rfl

/-- After three failures of one session, the first failure of another one closes that; and while the
heartbeats of another session succeed, four failures in turn do not close a session. -/
theorem sessions_share_the_count : (∃ h, Reached 700 60000000000 h ∧ h.closes = [(1, .heartbeats)] ∧
      h.finished.filter (·.1 = 1) = [(1, true)]) ∧
    ∃ h, Reached 700 60000000000 h ∧ h.closes = [] ∧ LastFourFailed 0 h.finished ∧
      h.finished.head? = some (0, true) :=
  ⟨ReachedBy.of_run step (fun _ _ => True) (.new 700 60000000000)
    (unanswered ++ [.onOpen 1, .onCron 1 0 16 16, .callBack 0 true]) _ (by decide),
  ReachedBy.of_run step (fun _ _ => True) (.new 700 60000000000)
    (unanswered ++ [.onOpen 1, .onCron 1 0 16 16, .callBack 0 false, .onCron 0 0 16 16, .callBack 0 true])
    _ (by decide)⟩

end DubboGo.Remoting.GettyServer
