import DubboGo.Go.Runtime
import DubboGo.Lib.Pool

/-!
# The client of a getty connection

`Client` of `remoting/getty/getty_client.go` with `gettyRPCClient` of `remoting/getty/pool.go`: `selectSession`,
`getOrCreateGettyClient`, `removeSession`, `resetRpcConn` and `Close` as goroutines.  A step is a section under a
mutex, an access to the closed flag, an outcome of `newClientConn`, or the release of `connectMu`.
-/

namespace DubboGo.Remoting.GettyClient

open Go Lib Multiset

/-- `gettyRPCClient`.  Whether `newClientConn` has returned it is history. -/
structure RpcClient where
  sessions : List ℕ
  closed : Bool
  connected : Bool

instance RpcClient.inhabited : Inhabited RpcClient := ⟨[], false, false⟩

namespace RpcClient

def addSession (session : ℕ) (c : RpcClient) : RpcClient := { c with sessions := c.sessions ++ [session] }

def removeSession (session : ℕ) (c : RpcClient) : RpcClient :=
  { c with sessions := c.sessions.erase session }

def connect (c : RpcClient) : RpcClient := { c with connected := true }

/-- `close`, whose first call only does something. -/
def close (c : RpcClient) : RpcClient := if c.closed then c else { c with closed := true, sessions := [] }

theorem closed_close (c : RpcClient) : c.close.closed = true := by
  unfold close
  split_ifs with h
  · exact h
  · rfl

theorem connected_close (c : RpcClient) : c.close.connected = c.connected := by
  unfold close
  split_ifs <;> rfl

end RpcClient

/-- A `sync.Once`. -/
inductive Once where
  | idle
  | running
  | done
  deriving DecidableEq

/-- `Client`.  The clients that have been assigned to `gettyClient` and not been taken out again, and
whether `Close` has been called, are history. -/
structure State where
  closed : Bool
  closeOnce : Once
  connectMu : Bool
  gettyClientMux : Bool
  gettyClient : Option ℕ
  clients : Heap RpcClient
  installed : List ℕ
  closeCalled : Bool

inductive Stage where
  | returned
  /-- `selectSession` loads the closed flag. -/
  | selecting
  | reading
  /-- `getOrCreateGettyClient` waits for `connectMu`. -/
  | locking
  /-- It has `connectMu` and loads the closed flag. -/
  | entering
  | rereading
  /-- It calls `newClientConn`. -/
  | dialling (c : ℕ)
  /-- It waits for `gettyClientMux` and loads the closed flag under it. -/
  | installing (c : ℕ)
  /-- It has both mutexes. -/
  | storing (c : ℕ)
  /-- It closes the new client, as `Close` has been called. -/
  | discarding (c : ℕ)
  /-- It releases `connectMu`. -/
  | leaving (client : Option ℕ)
  /-- `selectSession` has a client and loads the closed flag again. -/
  | rechecking (c : ℕ)
  | choosing (c : ℕ)
  /-- `removeSession` of a client. -/
  | removing (c session : ℕ)
  /-- It was the last one, and `resetRpcConn` waits for `connectMu`. -/
  | resetting (c : ℕ)
  /-- It has `connectMu` and waits for `gettyClientMux`. -/
  | clearing (c : ℕ)
  /-- It releases `connectMu`. -/
  | unlocking (c : ℕ)
  /-- `removeSession` closes the client. -/
  | closing (c : ℕ)
  /-- `Close` calls `closeOnce.Do`. -/
  | shutting
  /-- It sets the closed flag. -/
  | marking
  | taking
  /-- It closes the client that it has taken. -/
  | releasing (client : Option ℕ)
  | finishing

def Stage.isReturned : Stage → Bool
  | .returned => true
  | _ => false

inductive Request where
  | selectSession
  | removeSession (c session : ℕ)
  | close

def Request.start : Request → Stage
  | .selectSession => .selecting
  | .removeSession c session => .removing c session
  | .close => .shutting

namespace State

/-- `NewClient`. -/
def new : State where
  closed := false
  closeOnce := .idle
  connectMu := false
  gettyClientMux := false
  gettyClient := none
  clients := .empty
  installed := []
  closeCalled := false

def modify (c : ℕ) (f : RpcClient → RpcClient) (s : State) : State :=
  { s with clients := s.clients.modify c f }

/-- `c.gettyClient = client`. -/
def install (c : ℕ) (s : State) : State :=
  { s with gettyClient := some c, installed := c :: s.installed }

/-- `c.gettyClient = nil`. -/
def uninstall (s : State) : State :=
  { s with gettyClient := none, installed := s.gettyClient.elim s.installed s.installed.erase }

/-- The next step of a goroutine; `ok` is the outcome of `newClientConn`, which waits for a session. -/
def advance (ok : Bool) (s : State) : Stage → Option (State × Stage)
  | .returned => none
  | .selecting => some (s, if s.closed then .returned else .reading)
  | .reading =>
    if s.gettyClientMux then none
    else some (s, s.gettyClient.elim .locking .rechecking)
  | .locking => if s.connectMu then none else some ({ s with connectMu := true }, .entering)
  | .entering => some (s, if s.closed then .leaving none else .rereading)
  | .rereading =>
    if s.gettyClientMux then none
    else
      match s.gettyClient with
      | some c => some (s, .leaving (some c))
      | none => some ({ s with clients := s.clients.add default }, .dialling s.clients.next)
  | .dialling c =>
    if ok then
      if (s.clients.cell c).sessions = [] then none else some (s.modify c .connect, .installing c)
    else some (s, .leaving none)
  | .installing c =>
    if s.gettyClientMux then none
    else if s.closed then some (s, .discarding c)
    else some ({ s with gettyClientMux := true }, .storing c)
  | .storing c => some ({ s.install c with gettyClientMux := false }, .leaving (some c))
  | .discarding c => some (s.modify c .close, .leaving none)
  | .leaving client => some ({ s with connectMu := false }, client.elim .returned .rechecking)
  | .rechecking c => some (s, if s.closed then .returned else .choosing c)
  | .choosing _ => some (s, .returned)
  | .removing c session =>
    if session ∈ (s.clients.cell c).sessions then
      some (s.modify c (.removeSession session),
        if (s.clients.cell c).sessions.erase session = [] then .resetting c else .returned)
    else some (s, .returned)
  | .resetting c => if s.connectMu then none else some ({ s with connectMu := true }, .clearing c)
  | .clearing c =>
    if s.gettyClientMux then none
    else some (if s.gettyClient = some c then s.uninstall else s, .unlocking c)
  | .unlocking c => some ({ s with connectMu := false }, .closing c)
  | .closing c => some (s.modify c .close, .returned)
  | .shutting =>
    match s.closeOnce with
    | .idle => some ({ s with closeOnce := .running }, .marking)
    | .running => none
    | .done => some (s, .returned)
  | .marking => some ({ s with closed := true }, .taking)
  | .taking => if s.gettyClientMux then none else some (s.uninstall, .releasing s.gettyClient)
  | .releasing client => some (client.elim s fun c => s.modify c .close, .finishing)
  | .finishing => some ({ s with closeOnce := .done }, .returned)

end State

abbrev System := Pool State Stage

/-- A step: a call is made, a session of a client is opened, or a goroutine takes its next step. -/
inductive Action where
  | call (request : Request)
  | addSession (c session : ℕ)
  | advance (i : ℕ) (ok : Bool)

namespace System

def step (s : System) : Action → Option System
  | .call request =>
    some (s.spawn { s.shared with closeCalled := s.shared.closeCalled || request.start matches .shutting }
      request.start)
  | .addSession c session => some { s with shared := s.shared.modify c (.addSession session) }
  | .advance i ok => Pool.advance (State.advance ok) i s

def new : System := ⟨.new, []⟩

end System

/-! ## The mutexes -/

namespace Stage

/-- The goroutine has `connectMu`. -/
def holds? : Stage → Option Stage
  | .entering => some .entering
  | .rereading => some .rereading
  | .dialling c => some (.dialling c)
  | .installing c => some (.installing c)
  | .storing c => some (.storing c)
  | .discarding c => some (.discarding c)
  | .leaving client => some (.leaving client)
  | .clearing c => some (.clearing c)
  | .unlocking c => some (.unlocking c)
  | _ => none

/-- It has `gettyClientMux` as well. -/
def stores : Stage → Bool
  | .storing _ => true
  | _ => false

def connects : Stage → Bool
  | .dialling _ | .installing _ | .storing _ => true
  | _ => false

end Stage

variable {s t : State} {stages : Multiset Stage} {a b : Stage} {holder closer : Option Stage} {c : ℕ}

namespace State

/-- At most one goroutine has `connectMu`; with it, one may make and install a client. -/
structure Locked (s : State) (stages : Multiset Stage) (holder : Option Stage) : Prop where
  holds : stages.filterMap Stage.holds? = (holder.toList : Multiset Stage)
  connectMu : s.connectMu = holder.isSome
  gettyClientMux : s.gettyClientMux = holder.any Stage.stores
  vacant : holder.any Stage.connects = true → s.gettyClient = none
  installed : s.installed = s.gettyClient.toList

theorem installed_uninstall (h : s.installed = s.gettyClient.toList) : s.uninstall.installed = [] := by
  unfold uninstall
  rw [h]
  cases s.gettyClient with
  | none => rfl
  | some c => exact List.erase_cons_head ..

namespace Locked

variable (h : Locked s (a ::ₘ stages) holder)

include h

theorem outside (ha : a.holds? = none) (hb : b.holds? = none) (hmu : t.connectMu = s.connectMu)
    (hmux : t.gettyClientMux = s.gettyClientMux) (hclient : s.gettyClient = none → t.gettyClient = none)
    (hinstalled : t.installed = t.gettyClient.toList) : Locked t (b ::ₘ stages) holder :=
  ⟨filterMap_cons_of_none h.holds ha hb, hmu.trans h.connectMu, hmux.trans h.gettyClientMux,
    fun hconnects => hclient (h.vacant hconnects), hinstalled⟩

theorem inside (ha : a.holds? = some a) (hb : b.holds? = some b) (hmu : t.connectMu = s.connectMu)
    (hmux : t.gettyClientMux = b.stores) (hvacant : b.connects = true → t.gettyClient = none)
    (hinstalled : t.installed = t.gettyClient.toList) : Locked t (b ::ₘ stages) (some b) := by
  obtain ⟨rfl, hothers⟩ := holder_eq_some h.holds ha
  have hholds := filterMap_cons_of_zero (f := Stage.holds?) (b := b) hothers
  rw [hb] at hholds
  exact ⟨hholds, hmu.trans h.connectMu, hmux, hvacant, hinstalled⟩

theorem acquire (ha : a.holds? = none) (hb : b.holds? = some b) (hfree : s.connectMu = false)
    (hstores : b.stores = false) (hconnects : b.connects = false) :
    Locked { s with connectMu := true } (b ::ₘ stages) (some b) := by
  have hholds := h.holds
  have hmux := h.gettyClientMux
  have hnone : holder = none := by
    have hmu := h.connectMu
    rw [hfree] at hmu
    exact Option.not_isSome_iff_eq_none.1 (Bool.eq_false_iff.1 hmu.symm)
  subst hnone
  rw [filterMap_cons_none _ _ ha] at hholds
  have hholds' := filterMap_cons_of_zero (f := Stage.holds?) (b := b) hholds
  rw [hb] at hholds'
  refine ⟨hholds', rfl, hmux.trans hstores.symm, ?_, h.installed⟩
  intro hb'
  rw [Option.any_some, hconnects] at hb'
  cases hb'

theorem release (ha : a.holds? = some a) (hb : b.holds? = none) (hstores : a.stores = false) :
    Locked { s with connectMu := false } (b ::ₘ stages) none := by
  obtain ⟨rfl, hothers⟩ := holder_eq_some h.holds ha
  have hholds := filterMap_cons_of_zero (f := Stage.holds?) (b := b) hothers
  rw [hb] at hholds
  exact ⟨hholds, rfl, h.gettyClientMux.trans hstores, fun hnone => (Bool.false_ne_true hnone).elim, h.installed⟩

theorem gettyClient_eq_none (ha : a.holds? = some a) (hconnects : a.connects = true) : s.gettyClient = none := by
  obtain ⟨rfl, -⟩ := holder_eq_some h.holds ha
  exact h.vacant hconnects

theorem gettyClientMux_eq (ha : a.holds? = some a) : s.gettyClientMux = a.stores := by
  obtain ⟨rfl, -⟩ := holder_eq_some h.holds ha
  exact h.gettyClientMux

theorem advance {ok : Bool} (hstep : s.advance ok a = some (t, b)) : ∃ holder', Locked t (b ::ₘ stages) holder' := by
  cases a with
  | returned => cases hstep
  | selecting | rechecking c =>
    cases hstep
    refine ⟨holder, h.outside rfl ?_ rfl rfl id h.installed⟩
    split_ifs <;> rfl
  | reading =>
    rw [State.advance] at hstep
    split_ifs at hstep
    cases hstep
    refine ⟨holder, h.outside rfl ?_ rfl rfl id h.installed⟩
    cases s.gettyClient <;> rfl
  | locking | resetting c =>
    rw [State.advance] at hstep
    split_ifs at hstep with hfree
    cases hstep
    exact ⟨_, h.acquire rfl rfl (Bool.eq_false_iff.2 hfree) rfl rfl⟩
  | entering =>
    cases hstep
    have hmux := h.gettyClientMux_eq rfl
    split_ifs
    · exact ⟨_, h.inside rfl rfl rfl hmux (fun hb => nomatch hb) h.installed⟩
    · exact ⟨_, h.inside rfl rfl rfl hmux (fun hb => nomatch hb) h.installed⟩
  | rereading =>
    have hmux := h.gettyClientMux_eq rfl
    rw [State.advance] at hstep
    split_ifs at hstep
    split at hstep <;> cases hstep
    · exact ⟨_, h.inside rfl rfl rfl hmux (fun hb => nomatch hb) h.installed⟩
    · rename_i hnone
      exact ⟨_, h.inside rfl rfl rfl hmux (fun _ => hnone) h.installed⟩
  | dialling c =>
    have hmux := h.gettyClientMux_eq rfl
    have hvacant := h.gettyClient_eq_none rfl rfl
    rw [State.advance] at hstep
    split_ifs at hstep <;> cases hstep
    · exact ⟨_, h.inside rfl rfl rfl hmux (fun _ => hvacant) h.installed⟩
    · exact ⟨_, h.inside rfl rfl rfl hmux (fun hb => nomatch hb) h.installed⟩
  | installing c =>
    have hmux := h.gettyClientMux_eq rfl
    have hvacant := h.gettyClient_eq_none rfl rfl
    rw [State.advance] at hstep
    split_ifs at hstep <;> cases hstep
    · exact ⟨_, h.inside rfl rfl rfl hmux (fun hb => nomatch hb) h.installed⟩
    · exact ⟨_, h.inside rfl rfl rfl rfl (fun _ => hvacant) h.installed⟩
  | storing c =>
    have hvacant := h.gettyClient_eq_none rfl rfl
    have hinstalled := h.installed
    cases hstep
    refine ⟨_, h.inside rfl rfl rfl rfl (fun hb => nomatch hb) ?_⟩
    -- nothing is overwritten
    dsimp only [install]
    rw [hinstalled, hvacant]
    rfl
  | discarding c =>
    cases hstep
    exact ⟨_, h.inside rfl rfl rfl (h.gettyClientMux_eq rfl) (fun hb => nomatch hb) h.installed⟩
  | leaving cli =>
    cases hstep
    refine ⟨none, h.release rfl ?_ rfl⟩
    cases cli <;> rfl
  | choosing c | closing c | marking | finishing =>
    cases hstep
    exact ⟨holder, h.outside rfl rfl rfl rfl id h.installed⟩
  | removing c ses =>
    rw [State.advance] at hstep
    split_ifs at hstep <;> cases hstep <;> exact ⟨holder, h.outside rfl rfl rfl rfl id h.installed⟩
  | clearing c =>
    have hmux := h.gettyClientMux_eq rfl
    rw [State.advance] at hstep
    split_ifs at hstep <;> cases hstep
    · exact ⟨_, h.inside rfl rfl rfl hmux (fun hb => nomatch hb) (installed_uninstall h.installed)⟩
    · exact ⟨_, h.inside rfl rfl rfl hmux (fun hb => nomatch hb) h.installed⟩
  | unlocking c =>
    cases hstep
    exact ⟨none, h.release rfl rfl rfl⟩
  | shutting =>
    rw [State.advance] at hstep
    split at hstep <;> cases hstep <;> exact ⟨holder, h.outside rfl rfl rfl rfl id h.installed⟩
  | taking =>
    rw [State.advance] at hstep
    split_ifs at hstep
    cases hstep
    exact ⟨holder, h.outside rfl rfl rfl rfl (fun _ => rfl) (installed_uninstall h.installed)⟩
  | releasing cli =>
    cases hstep
    cases cli <;> exact ⟨holder, h.outside rfl rfl rfl rfl id h.installed⟩

end Locked

end State

/-! ## `Close` -/

namespace Stage

/-- The goroutine is in the function of `closeOnce`. -/
def closer? : Stage → Option Stage
  | .marking => some .marking
  | .taking => some .taking
  | .releasing client => some (.releasing client)
  | .finishing => some .finishing
  | _ => none

def hasMarked : Stage → Bool
  | .taking | .releasing _ | .finishing => true
  | _ => false

def hasTaken : Stage → Bool
  | .releasing _ | .finishing => true
  | _ => false

end Stage

namespace State

/-- How far `Close` is. -/
structure Closing (s : State) (stages : Multiset Stage) (closer : Option Stage) : Prop where
  closes : stages.filterMap Stage.closer? = (closer.toList : Multiset Stage)
  running : s.closeOnce = .running ↔ closer.isSome = true
  marked : s.closeOnce = .done ∨ closer.any Stage.hasMarked = true → s.closed = true
  taken : s.closeOnce = .done ∨ closer.any Stage.hasTaken = true → s.gettyClient = none ∧ s.gettyClientMux = false
  called : s.closeCalled = true → s.closeOnce ≠ .idle ∨ .shutting ∈ stages

theorem any_hasMarked (h : closer.any Stage.hasTaken = true) : closer.any Stage.hasMarked = true := by
  cases closer with
  | none => exact h
  | some st =>
    cases st with
    | releasing cli | finishing => rfl
    | _ => cases h

namespace Closing

variable (h : Closing s (a ::ₘ stages) closer)

include h

theorem outside (ha : a.closer? = none) (hb : b.closer? = none) (hshutting : a ≠ .shutting)
    (honce : t.closeOnce = s.closeOnce) (hclosed : t.closed = s.closed) (hcalled : t.closeCalled = s.closeCalled)
    (hkeep : s.closed = true → s.gettyClient = none → s.gettyClientMux = false →
      t.gettyClient = none ∧ t.gettyClientMux = false) : Closing t (b ::ₘ stages) closer := by
  refine ⟨filterMap_cons_of_none h.closes ha hb, ?_, ?_, ?_, ?_⟩
  · rw [honce]
    exact h.running
  · rw [honce, hclosed]
    exact h.marked
  · rw [honce]
    intro htaken
    obtain ⟨hclient, hmux⟩ := h.taken htaken
    exact hkeep (h.marked (htaken.imp_right any_hasMarked)) hclient hmux
  · rw [hcalled, honce]
    intro hcalled'
    refine (h.called hcalled').imp_right ?_
    intro hmem
    exact mem_cons_of_mem ((mem_cons.1 hmem).resolve_left (Ne.symm hshutting))

theorem inside (ha : a.closer? = some a) (hb : b.closer? = some b) (honce : t.closeOnce = s.closeOnce)
    (hclosed : b.hasMarked = true → t.closed = true)
    (htaken : b.hasTaken = true → t.gettyClient = none ∧ t.gettyClientMux = false) :
    Closing t (b ::ₘ stages) (some b) := by
  obtain ⟨rfl, hothers⟩ := holder_eq_some h.closes ha
  have hcloses := filterMap_cons_of_zero (f := Stage.closer?) (b := b) hothers
  have hrunning : t.closeOnce = .running := honce.trans (h.running.2 rfl)
  rw [hb] at hcloses
  refine ⟨hcloses, ⟨fun _ => rfl, fun _ => hrunning⟩, ?_, ?_, ?_⟩
  · rintro (hdone | hmarked)
    · exact nomatch hdone.symm.trans hrunning
    · exact hclosed hmarked
  · rintro (hdone | htaken')
    · exact nomatch hdone.symm.trans hrunning
    · exact htaken htaken'
  · intro _
    left
    rw [hrunning]
    exact nofun

theorem closer_eq (ha : a.closer? = some a) : closer = some a :=
  (holder_eq_some h.closes ha).1

theorem advance {ok : Bool} (hlocked : Locked s (a ::ₘ stages) holder) (hstep : s.advance ok a = some (t, b)) :
    ∃ closer', Closing t (b ::ₘ stages) closer' := by
  cases a with
  | returned => cases hstep
  | selecting | entering | rechecking c =>
    cases hstep
    refine ⟨closer, h.outside rfl ?_ nofun rfl rfl rfl fun _ hclient hmux => ⟨hclient, hmux⟩⟩
    split_ifs <;> rfl
  | reading =>
    rw [State.advance] at hstep
    split_ifs at hstep
    cases hstep
    refine ⟨closer, h.outside rfl ?_ nofun rfl rfl rfl fun _ hclient hmux => ⟨hclient, hmux⟩⟩
    cases s.gettyClient <;> rfl
  | locking | resetting c =>
    rw [State.advance] at hstep
    split_ifs at hstep
    cases hstep
    exact ⟨closer, h.outside rfl rfl nofun rfl rfl rfl fun _ hclient hmux => ⟨hclient, hmux⟩⟩
  | rereading =>
    rw [State.advance] at hstep
    split_ifs at hstep
    split at hstep <;> cases hstep <;>
      exact ⟨closer, h.outside rfl rfl nofun rfl rfl rfl fun _ hclient hmux => ⟨hclient, hmux⟩⟩
  | dialling c | removing c ses =>
    rw [State.advance] at hstep
    split_ifs at hstep <;> cases hstep <;>
      exact ⟨closer, h.outside rfl rfl nofun rfl rfl rfl fun _ hclient hmux => ⟨hclient, hmux⟩⟩
  | installing c =>
    rw [State.advance] at hstep
    split_ifs at hstep with hmux hclosed <;> cases hstep
    · exact ⟨closer, h.outside rfl rfl nofun rfl rfl rfl fun _ hclient hmux => ⟨hclient, hmux⟩⟩
    · exact ⟨closer, h.outside rfl rfl nofun rfl rfl rfl fun hmarked => absurd hmarked hclosed⟩
  | storing c =>
    have hmux := hlocked.gettyClientMux_eq rfl
    cases hstep
    refine ⟨closer, h.outside rfl rfl nofun rfl rfl rfl ?_⟩
    -- `Close` cannot have taken the client, as this goroutine has the mutex
    intro _ _ hfree
    exact nomatch hfree.symm.trans hmux
  | leaving cli =>
    cases hstep
    refine ⟨closer, h.outside rfl ?_ nofun rfl rfl rfl fun _ hclient hmux => ⟨hclient, hmux⟩⟩
    cases cli <;> rfl
  | discarding c | choosing c | unlocking c | closing c =>
    cases hstep
    exact ⟨closer, h.outside rfl rfl nofun rfl rfl rfl fun _ hclient hmux => ⟨hclient, hmux⟩⟩
  | clearing c =>
    rw [State.advance] at hstep
    split_ifs at hstep <;> cases hstep
    · exact ⟨closer, h.outside rfl rfl nofun rfl rfl rfl fun _ _ hmux => ⟨rfl, hmux⟩⟩
    · exact ⟨closer, h.outside rfl rfl nofun rfl rfl rfl fun _ hclient hmux => ⟨hclient, hmux⟩⟩
  | shutting =>
    have hcloses := h.closes
    rw [filterMap_cons_none _ _ rfl] at hcloses
    rw [State.advance] at hstep
    split at hstep <;> rename_i honce <;> cases hstep
    · obtain rfl : closer = none := by
        cases closer with
        | none => rfl
        | some st => exact nomatch honce.symm.trans (h.running.2 rfl)
      refine ⟨some .marking, filterMap_cons_of_zero hcloses, ⟨fun _ => rfl, fun _ => rfl⟩, ?_, ?_, ?_⟩
      · rintro (hdone | hmarked)
        · cases hdone
        · cases hmarked
      · rintro (hdone | htaken)
        · cases hdone
        · cases htaken
      · exact fun _ => .inl nofun
    · refine ⟨closer, ?_, h.running, h.marked, h.taken, ?_⟩
      · rw [filterMap_cons_none _ _ rfl, hcloses]
      · intro _
        left
        rw [honce]
        exact nofun
  | marking =>
    cases hstep
    exact ⟨_, h.inside rfl rfl rfl (fun _ => rfl) fun hb => nomatch hb⟩
  | taking =>
    have hclosed := h.marked
    rw [h.closer_eq rfl] at hclosed
    rw [State.advance] at hstep
    split_ifs at hstep with hmux
    cases hstep
    exact ⟨_, h.inside rfl rfl rfl (fun _ => hclosed (.inr rfl)) fun _ => ⟨rfl, Bool.eq_false_iff.2 hmux⟩⟩
  | releasing cli =>
    have hclosed := h.marked
    have htaken := h.taken
    rw [h.closer_eq rfl] at hclosed htaken
    cases hstep
    cases cli <;>
      exact ⟨_, h.inside rfl rfl rfl (fun _ => hclosed (.inr rfl)) fun _ => htaken (.inr rfl)⟩
  | finishing =>
    have hclosed := h.marked
    have htaken := h.taken
    obtain ⟨rfl, hothers⟩ := holder_eq_some h.closes rfl
    cases hstep
    exact ⟨none, filterMap_cons_of_zero hothers, ⟨(nomatch ·), (nomatch ·)⟩,
      fun _ => hclosed (.inr rfl), fun _ => htaken (.inr rfl), fun _ => .inl nofun⟩

end Closing

end State

/-! ## The connections that have been made -/

namespace Stage

def Closes (c : ℕ) : Stage → Prop
  | .installing c' | .storing c' | .discarding c' | .resetting c' | .clearing c' | .unlocking c'
  | .closing c' => c' = c
  | .releasing client => client = some c
  | _ => False

end Stage

namespace State

def Settled (s : State) (a : Stage) (c : ℕ) : Prop :=
  (s.clients.cell c).closed = true ∨ s.gettyClient = some c ∨ a.Closes c

def Accounted (s : State) (stages : Multiset Stage) : Prop :=
  ∀ c, (s.clients.cell c).connected = true →
    (s.clients.cell c).closed = true ∨ s.gettyClient = some c ∨ ∃ stage ∈ stages, stage.Closes c

namespace Accounted

variable (h : Accounted s (a ::ₘ stages))

include h

theorem move (hnew : ∀ c, (t.clients.cell c).connected = true → (s.clients.cell c).connected = true ∨ Settled t b c)
    (hold : ∀ c, (t.clients.cell c).connected = true → Settled s a c → Settled t b c) :
    Accounted t (b ::ₘ stages) := by
  intro c hc
  have hsettled : Settled t b c → (t.clients.cell c).closed = true ∨ t.gettyClient = some c ∨
      ∃ st ∈ b ::ₘ stages, st.Closes c :=
    fun hb => hb.imp_right (Or.imp_right fun hcloses => ⟨b, mem_cons_self b stages, hcloses⟩)
  rcases hnew c hc with hconnected | hb
  · rcases h c hconnected with hclosed | hclient | ⟨st, hmem, hcloses⟩
    · exact hsettled (hold c hc (.inl hclosed))
    · exact hsettled (hold c hc (.inr (.inl hclient)))
    · rcases mem_cons.1 hmem with rfl | hmem
      · exact hsettled (hold c hc (.inr (.inr hcloses)))
      · exact .inr (.inr ⟨st, mem_cons_of_mem hmem, hcloses⟩)
  · exact hsettled hb

theorem stay (hclients : t.clients = s.clients) (hclient : t.gettyClient = s.gettyClient)
    (hcloses : ∀ c, a.Closes c → b.Closes c) : Accounted t (b ::ₘ stages) := by
  refine h.move ?_ ?_
  · intro c hc
    left
    rwa [hclients] at hc
  · intro c _ hsettled
    unfold Settled at hsettled ⊢
    rw [hclients, hclient]
    exact hsettled.imp_right (Or.imp_right (hcloses c))

theorem modify {f : RpcClient → RpcClient} (hclients : t.clients = s.clients.modify c f)
    (hclient : t.gettyClient = s.gettyClient) (hclosed : ∀ r, (f r).closed = r.closed)
    (hconnected : ∀ r, (f r).connected = true → r.connected = true ∨ b.Closes c)
    (hcloses : ∀ c, a.Closes c → b.Closes c) : Accounted t (b ::ₘ stages) := by
  have hsame : ∀ c', (t.clients.cell c').closed = (s.clients.cell c').closed := by
    rw [hclients]
    exact Heap.modify_congr RpcClient.closed s.clients hclosed
  refine h.move ?_ ?_
  · intro c' hc'
    by_cases hc : c' = c
    · rw [hc, hclients, Heap.cell_modify_self] at hc'
      rw [hc]
      exact (hconnected _ hc').imp_right fun hb => .inr (.inr hb)
    · rw [hclients, Heap.cell_modify_of_ne f s.clients hc] at hc'
      exact .inl hc'
  · intro c' _ hsettled
    unfold Settled at hsettled ⊢
    rw [hsame, hclient]
    exact hsettled.imp_right (Or.imp_right (hcloses c'))

theorem close (hcloses : ∀ c', a.Closes c' → c' = c) : Accounted (s.modify c .close) (b ::ₘ stages) := by
  have hself : ((s.modify c .close).clients.cell c).closed = true := by
    dsimp only [State.modify]
    rw [Heap.cell_modify_self]
    exact RpcClient.closed_close _
  have hother : ∀ c', c' ≠ c → (s.modify c .close).clients.cell c' = s.clients.cell c' :=
    fun c' hc' => Heap.cell_modify_of_ne _ s.clients hc'
  refine h.move ?_ ?_
  · intro c' hc'
    left
    by_cases hc : c' = c
    · rw [hc] at hc' ⊢
      dsimp only [State.modify] at hc'
      rw [Heap.cell_modify_self, RpcClient.connected_close] at hc'
      exact hc'
    · rwa [hother c' hc] at hc'
  · intro c' _ hsettled
    by_cases hc : c' = c
    · exact .inl (hc ▸ hself)
    · unfold Settled at hsettled ⊢
      rw [hother c' hc]
      exact hsettled.imp_right (Or.imp_right fun ha => absurd (hcloses c' ha) hc)

theorem advance {ok : Bool} (hlocked : Locked s (a ::ₘ stages) holder) (hstep : s.advance ok a = some (t, b)) :
    Accounted t (b ::ₘ stages) := by
  cases a with
  | returned => cases hstep
  | selecting | entering | leaving cli | rechecking c | choosing c | marking | finishing =>
    cases hstep
    exact h.stay rfl rfl fun _ hc => hc.elim
  | reading | locking =>
    rw [State.advance] at hstep
    split_ifs at hstep
    cases hstep
    exact h.stay rfl rfl fun _ hc => hc.elim
  | resetting c =>
    rw [State.advance] at hstep
    split_ifs at hstep
    cases hstep
    exact h.stay rfl rfl fun _ => id
  | unlocking c =>
    cases hstep
    exact h.stay rfl rfl fun _ => id
  | rereading =>
    rw [State.advance] at hstep
    split_ifs at hstep
    split at hstep <;> cases hstep
    · exact h.stay rfl rfl fun _ hc => hc.elim
    · -- the new client is not connected yet
      have hcell : ∀ c, ((s.clients.add default).cell c).connected = true →
          (s.clients.add default).cell c = s.clients.cell c := by
        intro c hc
        by_cases hnext : c = s.clients.next
        · rw [hnext, Heap.cell_add_self] at hc
          cases hc
        · exact Function.update_of_ne hnext ..
      refine h.move (fun c hc => .inl ?_) fun c hc hsettled => ?_
      · rw [← hcell c hc]
        exact hc
      · unfold Settled at hsettled ⊢
        rw [hcell c hc]
        exact hsettled.imp_right (Or.imp_right False.elim)
  | dialling c =>
    rw [State.advance] at hstep
    split_ifs at hstep <;> cases hstep
    · exact h.modify rfl rfl (fun _ => rfl) (fun _ _ => .inr rfl) fun _ hc => hc.elim
    · exact h.stay rfl rfl fun _ hc => hc.elim
  | installing c =>
    rw [State.advance] at hstep
    split_ifs at hstep <;> cases hstep <;> exact h.stay rfl rfl fun _ => id
  | storing c =>
    have hvacant := hlocked.gettyClient_eq_none rfl rfl
    cases hstep
    refine h.move (fun _ => .inl) ?_
    intro c' _ hsettled
    rcases hsettled with hclosed | hclient | hcloses
    · exact .inl hclosed
    · exact nomatch hvacant.symm.trans hclient
    · obtain rfl : c = c' := hcloses
      exact .inr (.inl rfl)
  | discarding c | closing c =>
    cases hstep
    exact h.close fun _ hc => Eq.symm hc
  | removing c ses =>
    rw [State.advance] at hstep
    split_ifs at hstep <;> cases hstep
    · exact h.modify rfl rfl (fun _ => rfl) (fun _ => .inl) fun _ hc => hc.elim
    · exact h.modify rfl rfl (fun _ => rfl) (fun _ => .inl) fun _ hc => hc.elim
    · exact h.stay rfl rfl fun _ hc => hc.elim
  | clearing c =>
    rw [State.advance] at hstep
    split_ifs at hstep with hmux hclient <;> cases hstep
    · refine h.move (fun _ => .inl) ?_
      intro c' _ hsettled
      rcases hsettled with hclosed | hclient' | hcloses
      · exact .inl hclosed
      · exact .inr (.inr (Option.some.inj (hclient.symm.trans hclient')))
      · exact .inr (.inr hcloses)
    · exact h.stay rfl rfl fun _ => id
  | shutting =>
    rw [State.advance] at hstep
    split at hstep <;> cases hstep <;> exact h.stay rfl rfl fun _ hc => hc.elim
  | taking =>
    rw [State.advance] at hstep
    split_ifs at hstep
    cases hstep
    refine h.move (fun _ => .inl) ?_
    intro c _ hsettled
    rcases hsettled with hclosed | hclient | hcloses
    · exact .inl hclosed
    · exact .inr (.inr hclient)
    · exact hcloses.elim
  | releasing cli =>
    cases hstep
    cases cli with
    | none => exact h.stay rfl rfl fun _ hc => nomatch hc
    | some c => exact h.close fun _ hc => (Option.some.inj hc).symm

end Accounted

structure Guarded (s : State) (stages : Multiset Stage) : Prop where
  locked : ∃ holder, Locked s stages holder
  closing : ∃ closer, Closing s stages closer
  accounted : Accounted s stages

namespace Guarded

theorem advance {ok : Bool} (h : Guarded s (a ::ₘ stages)) (hstep : s.advance ok a = some (t, b)) :
    Guarded t (b ::ₘ stages) := by
  obtain ⟨holder, hlocked⟩ := h.locked
  obtain ⟨closer, hclosing⟩ := h.closing
  exact ⟨hlocked.advance hstep, hclosing.advance hlocked hstep, h.accounted.advance hlocked hstep⟩

theorem call (h : Guarded s stages) (req : Request) :
    Guarded { s with closeCalled := s.closeCalled || req.start matches .shutting }
      (req.start ::ₘ stages) := by
  obtain ⟨holder, hlocked⟩ := h.locked
  obtain ⟨closer, hclosing⟩ := h.closing
  have hholds : req.start.holds? = none := by cases req <;> rfl
  have hcloser : req.start.closer? = none := by cases req <;> rfl
  refine ⟨⟨holder, ?_, hlocked.connectMu, hlocked.gettyClientMux, hlocked.vacant, hlocked.installed⟩,
    ⟨closer, ?_, hclosing.running, hclosing.marked, hclosing.taken, ?_⟩, ?_⟩
  · rw [filterMap_cons_none _ _ hholds]
    exact hlocked.holds
  · rw [filterMap_cons_none _ _ hcloser]
    exact hclosing.closes
  · intro hcalled
    cases req with
    | close => exact .inr (mem_cons_self _ _)
    | selectSession | removeSession c ses =>
      dsimp only [Request.start] at hcalled
      rw [Bool.or_false] at hcalled
      exact (hclosing.called hcalled).imp_right mem_cons_of_mem
  · intro c hc
    refine (h.accounted c hc).imp_right (Or.imp_right ?_)
    rintro ⟨st, hmem, hcloses⟩
    exact ⟨st, mem_cons_of_mem hmem, hcloses⟩

theorem addSession (h : Guarded s stages) (c ses : ℕ) : Guarded (s.modify c (.addSession ses)) stages := by
  obtain ⟨holder, hlocked⟩ := h.locked
  obtain ⟨closer, hclosing⟩ := h.closing
  refine ⟨⟨holder, hlocked.holds, hlocked.connectMu, hlocked.gettyClientMux, hlocked.vacant,
    hlocked.installed⟩, ⟨closer, hclosing.closes, hclosing.running, hclosing.marked, hclosing.taken,
    hclosing.called⟩, ?_⟩
  have hconnected := Heap.modify_congr (p := c) (f := .addSession ses) RpcClient.connected s.clients fun _ => rfl
  have hclosed := Heap.modify_congr (p := c) (f := .addSession ses) RpcClient.closed s.clients fun _ => rfl
  intro c' hc'
  dsimp only [State.modify] at hc' ⊢
  rw [hconnected] at hc'
  rw [hclosed]
  exact h.accounted c' hc'

theorem closed_of_returned (h : Guarded s stages) (hcalled : s.closeCalled = true)
    (hreturned : ∀ st ∈ stages, st.isReturned = true) :
    s.gettyClient = none ∧ ∀ c, (s.clients.cell c).connected = true → (s.clients.cell c).closed = true := by
  obtain ⟨closer, hclosing⟩ := h.closing
  have hdone : s.closeOnce = .done := by
    have hnone : closer = none := by
      refine holder_eq_none hclosing.closes ?_
      intro st hstage
      have hstage' := hreturned st hstage
      cases st with
      | returned => rfl
      | _ => cases hstage'
    have hrunning := hclosing.running
    rw [hnone] at hrunning
    rcases hclosing.called hcalled with hidle | hmem
    · cases honce : s.closeOnce with
      | idle => exact absurd honce hidle
      | running => exact nomatch hrunning.1 honce
      | done => rfl
    · exact nomatch hreturned _ hmem
  have hclient := (hclosing.taken (.inl hdone)).1
  refine ⟨hclient, ?_⟩
  intro c hc
  rcases h.accounted c hc with hclosed | hclient' | ⟨st, hmem, hcloses⟩
  · exact hclosed
  · exact nomatch hclient.symm.trans hclient'
  · have hstage := hreturned st hmem
    cases st with
    | returned => exact hcloses.elim
    | _ => cases hstage

end Guarded

end State

namespace System

variable {s : System}

/-- In every state the mutex has one holder, `Close` runs once, and sessions are accounted for. -/
theorem guarded (h : ReachedBy step (· = new) (fun _ _ => True) s) :
    s.shared.Guarded (s.threads : Multiset Stage) := by
  refine ReachedBy.invariant (fun s : System => s.shared.Guarded (s.threads : Multiset Stage)) ?_ ?_ h
  · rintro s rfl
    refine ⟨⟨none, rfl, rfl, rfl, nofun, rfl⟩, ⟨none, rfl, ⟨nofun, nofun⟩, ?_, ?_, nofun⟩, nofun⟩
    · rintro (hdone | hmarked)
      · cases hdone
      · cases hmarked
    · exact fun _ => ⟨rfl, rfl⟩
  · intro s act t hs _ hstep
    cases act with
    | call req =>
      cases hstep
      rw [Pool.coe_threads_spawn]
      exact hs.call req
    | addSession c ses =>
      cases hstep
      exact hs.addSession c ses
    | advance i ok =>
      obtain ⟨a, b, others, -, hnext, hbefore, hafter⟩ := Pool.advance_cases hstep
      rw [hafter]
      rw [hbefore] at hs
      exact hs.advance hnext

/-- At most one client is installed at any time.  Once `Close` has been called and every call has returned,
none is, and every client that `newClientConn` has returned has been closed. -/
theorem no_connection_leaks (h : ReachedBy step (· = new) (fun _ _ => True) s) : s.shared.installed.length ≤ 1 ∧
    (s.shared.closeCalled = true → (∀ stage ∈ s.threads, stage.isReturned = true) → s.shared.gettyClient = none ∧
      ∀ c, (s.shared.clients.cell c).connected = true → (s.shared.clients.cell c).closed = true) := by
  have hguarded := guarded h
  obtain ⟨holder, hlocked⟩ := hguarded.locked
  refine ⟨?_, hguarded.closed_of_returned⟩
  rw [hlocked.installed]
  cases s.shared.gettyClient with
  | none => exact Nat.zero_le 1
  | some c => exact le_rfl

/-- `Close` sets the closed flag while a connection is made, and takes nothing. -/
def closedWhileDialling : List Action :=
  [.call .selectSession, .advance 0 false, .advance 0 false, .advance 0 false, .advance 0 false,
    .advance 0 false, .addSession 0 7, .call .close, .advance 1 false, .advance 1 false, .advance 1 false,
    .advance 1 false, .advance 1 false, .advance 0 true, .advance 0 false, .advance 0 false, .advance 0 false]

theorem closedWhileDialling_closed : ∃ s : System, ReachedBy step (· = new) (fun _ _ => True) s ∧
    (s.shared.closeCalled = true ∧ (∀ stage ∈ s.threads, stage.isReturned = true) ∧
      (s.shared.clients.cell 0).connected = true) ∧
    s.shared.gettyClient = none ∧ (s.shared.clients.cell 0).closed = true := by
  obtain ⟨s, hs, hcalled, hreturned, hconnected⟩ := ReachedBy.of_run step (fun _ _ => True) new
    closedWhileDialling (fun s => s.shared.closeCalled = true ∧
      (∀ stage ∈ s.threads, stage.isReturned = true) ∧ (s.shared.clients.cell 0).connected = true)
    (by decide +kernel)
  obtain ⟨hclient, hclosed⟩ := (no_connection_leaks hs).2 hcalled hreturned
  exact ⟨s, hs, ⟨hcalled, hreturned, hconnected⟩, hclient, hclosed 0 hconnected⟩

end System

end DubboGo.Remoting.GettyClient
