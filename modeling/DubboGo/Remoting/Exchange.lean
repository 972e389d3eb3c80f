import DubboGo.Go.Runtime
import DubboGo.Go.Text
import DubboGo.Lib.Pool

/-!
# Pending responses

The exchange layer of `remoting/exchange.go`: the table of pending responses, and `Response.Handle` and
`RemovePendingResponse` as goroutines on it.  A step is one operation on the map, one assignment, or the
close of `Done` or the callback.
-/

namespace DubboGo.Remoting

open Go Lib Multiset

/-- `Request`, with invocations as its data. -/
structure Request (ι : Type) where
  id : Int64
  version : Str
  serialID : UInt8
  data : Option ι
  twoWay : Bool
  event : Bool

/-- `Response`; errors and results are of any type. -/
structure Response (ε ρ : Type) where
  id : Int64
  version : Str
  serialID : UInt8
  status : UInt8
  event : Bool
  error : Option ε
  result : Option ρ

namespace Response

variable {ε ρ : Type}

/-- `NewResponse`. -/
def new (id : Int64) (version : Str) : Response ε ρ where
  id := id
  version := version
  serialID := 0
  status := 0
  event := false
  error := none
  result := none

def isHeartbeat (response : Response ε ρ) : Bool := response.event && response.result.isNone

end Response

/-- `PendingResponse`, without its times.  How often `Done` has been closed, an attempt on a closed
channel included, and how often the callback has been called, is history. -/
structure PendingResponse (ε ρ ω : Type) where
  seq : Int64
  err : Option ε
  hasCallback : Bool
  response : Response ε ρ
  reply : Option ω
  closes : ℕ
  calls : ℕ

namespace PendingResponse

variable {ε ρ ω : Type}

/-- `NewPendingResponse`, with the fields that `RequestContext` and `AsyncRequestContext` set. -/
def new (id : Int64) (hasCallback : Bool) (reply : Option ω) : PendingResponse ε ρ ω where
  seq := id
  err := none
  hasCallback := hasCallback
  response := .new id (str "2.0.2")
  reply := reply
  closes := 0
  calls := 0

instance inhabited : Inhabited (PendingResponse ε ρ ω) := ⟨.new 0 false none⟩

def setResponse (response : Response ε ρ) (r : PendingResponse ε ρ ω) : PendingResponse ε ρ ω :=
  { r with response := response }

/-- The error is set and `Done` is closed. -/
def close (r : PendingResponse ε ρ ω) : PendingResponse ε ρ ω :=
  { r with err := r.response.error, closes := r.closes + 1 }

def call (r : PendingResponse ε ρ ω) : PendingResponse ε ρ ω := { r with calls := r.calls + 1 }

end PendingResponse

namespace Exchange

variable {ε ρ ω : Type}

/-! ## The table and the goroutines -/

/-- `pendingResponses`, with the records that its values point to. -/
structure State (ε ρ ω : Type) where
  pendingResponses : FiniteMap Int64 ℕ
  responses : Heap (PendingResponse ε ρ ω)

inductive Stage (ε ρ : Type) where
  | returned
  | panicked
  /-- `Handle` calls `RemovePendingResponse`, which loads the entry. -/
  | handling (response : Response ε ρ)
  /-- It has found one and deletes it. -/
  | deleting (response : Response ε ρ) (p : ℕ)
  /-- It sets the response of the pending response. -/
  | assigning (response : Response ε ρ) (p : ℕ)
  /-- It closes `Done` or calls the callback. -/
  | completing (p : ℕ)
  /-- `RemovePendingResponse` after a timeout or a failure loads the entry. -/
  | removing (seq : Int64)
  /-- It has found one and deletes it. -/
  | dropping (seq : Int64)

namespace State

def empty : State ε ρ ω := ⟨∅, .empty⟩

def getPendingResponse (seq : Int64) (s : State ε ρ ω) : Option (PendingResponse ε ρ ω) :=
  (s.pendingResponses.lookup seq).map s.responses.cell

/-- `AddPendingResponse` of a new pending response. -/
def addPendingResponse (r : PendingResponse ε ρ ω) (s : State ε ρ ω) : State ε ρ ω where
  pendingResponses := s.pendingResponses.insert r.seq s.responses.next
  responses := s.responses.add r

def delete (seq : Int64) (s : State ε ρ ω) : State ε ρ ω :=
  { s with pendingResponses := s.pendingResponses.erase seq }

def modify (p : ℕ) (f : PendingResponse ε ρ ω → PendingResponse ε ρ ω) (s : State ε ρ ω) : State ε ρ ω :=
  { s with responses := s.responses.modify p f }

def advance (s : State ε ρ ω) : Stage ε ρ → Option (State ε ρ ω × Stage ε ρ)
  | .returned | .panicked => none
  | .handling response =>
    match s.pendingResponses.lookup response.id with
    | none => some (s, .returned)
    | some p => some (s, .deleting response p)
  | .deleting response p => some (s.delete response.id, .assigning response p)
  | .assigning response p => some (s.modify p (.setResponse response), .completing p)
  | .completing p =>
    if (s.responses.cell p).hasCallback then some (s.modify p .call, .returned)
    -- the close of a closed channel
    else if 0 < (s.responses.cell p).closes then some (s.modify p .close, .panicked)
    else some (s.modify p .close, .returned)
  | .removing seq =>
    match s.pendingResponses.lookup seq with
    | none => some (s, .returned)
    | some _ => some (s, .dropping seq)
  | .dropping seq => some (s.delete seq, .returned)

end State

abbrev System (ε ρ ω : Type) := Pool (State ε ρ ω) (Stage ε ρ)

inductive Action (ε ρ ω : Type) where
  | add (id : Int64) (hasCallback : Bool) (reply : Option ω)
  | handle (response : Response ε ρ)
  | remove (seq : Int64)
  | advance (i : ℕ)

namespace System

def step (s : System ε ρ ω) : Action ε ρ ω → Option (System ε ρ ω)
  | .add id hasCallback reply =>
    some { s with shared := s.shared.addPendingResponse (.new id hasCallback reply) }
  | .handle response => some (s.spawn s.shared (.handling response))
  | .remove seq => some (s.spawn s.shared (.removing seq))
  | .advance i => Pool.advance State.advance i s

def new : System ε ρ ω := ⟨.empty, []⟩

end System

/-! ## At most one `Handle` for each pending response -/

namespace Stage

/-- A `Handle` has loaded the pending response and has not completed it yet. -/
def Claims (p : ℕ) : Stage ε ρ → Prop
  | .deleting _ q | .assigning _ q | .completing q => q = p
  | _ => False

instance Claims.decidable (p : ℕ) : DecidablePred (Claims (ε := ε) (ρ := ρ) p)
  | .deleting _ _ | .assigning _ _ | .completing _ => inferInstanceAs (Decidable (_ = p))
  | .returned | .panicked | .handling _ | .removing _ | .dropping _ => inferInstanceAs (Decidable False)

/-- A `Handle` has loaded the pending response and has not deleted its entry yet. -/
def Deletes (p : ℕ) : Stage ε ρ → Prop
  | .deleting _ q => q = p
  | _ => False

instance Deletes.decidable (p : ℕ) : DecidablePred (Deletes (ε := ε) (ρ := ρ) p)
  | .deleting _ _ => inferInstanceAs (Decidable (_ = p))
  | .assigning _ _ | .completing _ | .returned | .panicked | .handling _ | .removing _ | .dropping _ =>
    inferInstanceAs (Decidable False)

/-- The pending response that `Handle` loads in the next step. -/
def loads (s : State ε ρ ω) : Stage ε ρ → Option ℕ
  | .handling response => s.pendingResponses.lookup response.id
  | _ => none

def isPanicked : Stage ε ρ → Bool
  | .panicked => true
  | _ => false

/-- A goroutine refers to pending responses that have been added, and has loaded them for their ID. -/
def Known (s : State ε ρ ω) : Stage ε ρ → Prop
  | .panicked => False
  | .deleting response p => p < s.responses.next ∧ (s.responses.cell p).seq = response.id
  | .assigning _ p | .completing p => p < s.responses.next
  | _ => True

theorem Known.lt_next {s : State ε ρ ω} {st : Stage ε ρ} {p : ℕ} (h : st.Known s)
    (hp : st.Claims p) : p < s.responses.next := by
  cases st with
  | deleting resp q =>
    obtain rfl : q = p := hp
    exact h.1
  | assigning resp q | completing q =>
    obtain rfl : q = p := hp
    exact h
  | _ => exact hp.elim

end Stage

namespace State

variable {s t : State ε ρ ω} {stages : Multiset (Stage ε ρ)} {a b : Stage ε ρ} {p : ℕ}

/-- The completions of a pending response, those that a goroutine is about to make included. -/
def completions (p : ℕ) (s : State ε ρ ω) (stages : Multiset (Stage ε ρ)) : ℕ :=
  stages.countP (Stage.Claims p) + (s.responses.cell p).closes + (s.responses.cell p).calls

/-- What holds if each pending response is loaded by one `Handle` at most.  One that is still in the table
may have been loaded, but its entry is not deleted yet. -/
structure Once (s : State ε ρ ω) (stages : Multiset (Stage ε ρ)) : Prop where
  stored : ∀ k p, s.pendingResponses.lookup k = some p → p < s.responses.next ∧ (s.responses.cell p).seq = k
  known : ∀ stage ∈ stages, stage.Known s
  once : ∀ p, s.completions p stages ≤ 1
  waiting : ∀ k p, s.pendingResponses.lookup k = some p → s.completions p stages ≤ stages.countP (Stage.Deletes p)

theorem completions_cons (p : ℕ) (s : State ε ρ ω) (a : Stage ε ρ) (stages : Multiset (Stage ε ρ)) :
    s.completions p (a ::ₘ stages) = s.completions p stages + if a.Claims p then 1 else 0 := by
  unfold completions
  rw [countP_cons]
  omega

theorem completions_cons_of_claims (s : State ε ρ ω) (h : a.Claims p) :
    s.completions p (a ::ₘ stages) = s.completions p stages + 1 := by
  rw [completions_cons, if_pos h]

theorem completions_cons_of_not (s : State ε ρ ω) (h : ¬a.Claims p) :
    s.completions p (a ::ₘ stages) = s.completions p stages := by
  rw [completions_cons, if_neg h, add_zero]

theorem countP_deletes_le (p : ℕ) (stages : Multiset (Stage ε ρ)) :
    stages.countP (Stage.Deletes p) ≤ stages.countP (Stage.Claims p) := by
  rw [countP_eq_card_filter, countP_eq_card_filter]
  apply card_le_card
  apply monotone_filter_right
  intro st hstage
  cases st with
  | deleting resp q => exact hstage
  | _ => exact hstage.elim

namespace Once

theorem move (h : Once s (a ::ₘ stages)) (hb : b.Known s) (hclaims : ∀ p, b.Claims p ↔ a.Claims p)
    (hdeletes : ∀ k p, s.pendingResponses.lookup k = some p → (b.Deletes p ↔ a.Deletes p)) : Once s (b ::ₘ stages) := by
  have hcompletions : ∀ p, s.completions p (b ::ₘ stages) = s.completions p (a ::ₘ stages) := by
    intro p
    rw [completions_cons, completions_cons]
    simp only [hclaims]
  refine ⟨h.stored, ?_, ?_, ?_⟩
  · intro st hstage
    rcases mem_cons.1 hstage with rfl | hstage
    · exact hb
    · exact h.known st (mem_cons_of_mem hstage)
  · intro p
    rw [hcompletions]
    exact h.once p
  · intro k p hp
    have hwaiting := h.waiting k p hp
    rw [hcompletions]
    rw [countP_cons] at hwaiting ⊢
    simpa only [hdeletes k p hp] using hwaiting

theorem delete (h : Once s stages) (seq : Int64) : Once (s.delete seq) stages := by
  have hsub : ∀ k p, (s.delete seq).pendingResponses.lookup k = some p → s.pendingResponses.lookup k = some p := by
    intro k p hp
    dsimp only [State.delete] at hp
    rw [FiniteMap.lookup_erase] at hp
    split_ifs at hp
    exact hp
  exact ⟨fun k p hp => h.stored k p (hsub k p hp), h.known, h.once, fun k p hp => h.waiting k p (hsub k p hp)⟩

variable {f : PendingResponse ε ρ ω → PendingResponse ε ρ ω}

theorem modify (h : Once s (a ::ₘ stages)) (hseq : ∀ r, (f r).seq = r.seq)
    (hout : ∀ k, s.pendingResponses.lookup k ≠ some p) (hb : b.Known s)
    (hothers : ∀ q, q ≠ p → (b.Claims q ↔ a.Claims q)) (hdeletes : ∀ q, q ≠ p → (b.Deletes q ↔ a.Deletes q))
    (honce : (s.modify p f).completions p (b ::ₘ stages) ≤ 1) : Once (s.modify p f) (b ::ₘ stages) := by
  have hcell : ∀ q, q ≠ p → (s.modify p f).responses.cell q = s.responses.cell q :=
    fun q hq => Heap.cell_modify_of_ne f s.responses hq
  have hseq' : ∀ q, ((s.modify p f).responses.cell q).seq = (s.responses.cell q).seq :=
    Heap.modify_congr PendingResponse.seq s.responses hseq
  have hcompletions : ∀ q, q ≠ p → (s.modify p f).completions q (b ::ₘ stages) = s.completions q (a ::ₘ stages) := by
    intro q hq
    rw [completions_cons, completions_cons]
    unfold completions
    simp only [hcell q hq, hothers q hq]
  have hknown : ∀ st : Stage ε ρ, st.Known s → st.Known (s.modify p f) := by
    intro st hstage
    cases st with
    | deleting resp q => exact ⟨hstage.1, (hseq' q).trans hstage.2⟩
    | _ => exact hstage
  refine ⟨?_, ?_, ?_, ?_⟩
  · intro k q hq
    obtain ⟨hlt, hk⟩ := h.stored k q hq
    exact ⟨hlt, (hseq' q).trans hk⟩
  · intro st hstage
    rcases mem_cons.1 hstage with rfl | hstage
    · exact hknown _ hb
    · exact hknown _ (h.known st (mem_cons_of_mem hstage))
  · intro q
    by_cases hq : q = p
    · rw [hq]
      exact honce
    · rw [hcompletions q hq]
      exact h.once q
  · intro k q hk
    have hq : q ≠ p := by
      rintro rfl
      exact hout k hk
    have hwaiting := h.waiting k q hk
    rw [hcompletions q hq]
    rw [countP_cons] at hwaiting ⊢
    simpa only [hdeletes q hq] using hwaiting

theorem lookup_ne_of_claims (h : Once s (a ::ₘ stages)) (hclaims : a.Claims p) (hdeletes : ¬a.Deletes p)
    (k : Int64) : s.pendingResponses.lookup k ≠ some p := by
  intro hp
  have hwaiting := h.waiting k p hp
  have hle := countP_deletes_le p stages
  rw [completions_cons_of_claims s hclaims, countP_cons_of_neg _ hdeletes] at hwaiting
  unfold completions at hwaiting
  omega

theorem eq_zero_of_claims (h : Once s (a ::ₘ stages)) (hclaims : a.Claims p) : s.completions p stages = 0 := by
  have honce := h.once p
  rw [completions_cons_of_claims s hclaims] at honce
  omega

theorem load {resp : Response ε ρ} (h : Once s (.handling resp ::ₘ stages))
    (hp : s.pendingResponses.lookup resp.id = some p)
    (hapart : ∀ st ∈ stages, ¬st.Deletes p) : Once s (.deleting resp p ::ₘ stages) := by
  obtain ⟨hlt, hseq⟩ := h.stored _ p hp
  have hnone : s.completions p stages = 0 := by
    have hwaiting := h.waiting _ p hp
    rw [completions_cons_of_not s id, countP_cons_of_neg _ id, countP_eq_zero.2 hapart] at hwaiting
    omega
  refine ⟨h.stored, ?_, ?_, ?_⟩
  · intro st hstage
    rcases mem_cons.1 hstage with rfl | hstage
    · exact ⟨hlt, hseq⟩
    · exact h.known st (mem_cons_of_mem hstage)
  · intro q
    have honce := h.once q
    rw [completions_cons_of_not s id] at honce
    rw [completions_cons]
    split_ifs with hq
    · obtain rfl : p = q := hq
      omega
    · exact honce
  · intro k q hq
    have hwaiting := h.waiting k q hq
    rw [completions_cons_of_not s id, countP_cons_of_neg _ id] at hwaiting
    rw [completions_cons, countP_cons]
    -- the goroutine counts on both sides
    exact Nat.add_le_add_right hwaiting _

theorem complete (h : Once s (.completing p ::ₘ stages)) (hseq : ∀ r, (f r).seq = r.seq)
    (hcount : ∀ r, (f r).closes + (f r).calls = r.closes + r.calls + 1) :
    Once (s.modify p f) (.returned ::ₘ stages) := by
  have hothers : ∀ q, q ≠ p → ((Stage.returned : Stage ε ρ).Claims q ↔ (Stage.completing p : Stage ε ρ).Claims q) :=
    fun q hq => ⟨False.elim, fun hclaims => hq hclaims.symm⟩
  refine h.modify hseq (h.lookup_ne_of_claims rfl id) trivial hothers (fun _ _ => Iff.rfl) ?_
  have hzero := h.eq_zero_of_claims (p := p) rfl
  have hcell := Heap.cell_modify_self p f s.responses
  have hr := hcount (s.responses.cell p)
  rw [completions_cons_of_not (a := .returned) _ id]
  unfold completions at hzero ⊢
  dsimp only [State.modify]
  rw [hcell]
  omega

/-- Every step gives a pending response to one taker at most. -/
theorem advance (h : Once s (a ::ₘ stages)) (hapart : ∀ p ∈ a.loads s, ∀ st ∈ stages, ¬st.Deletes p)
    (hstep : s.advance a = some (t, b)) : Once t (b ::ₘ stages) := by
  have hknown := h.known a (mem_cons_self a stages)
  cases a with
  | returned | panicked => cases hstep
  | handling resp =>
    rw [State.advance] at hstep
    split at hstep
    · cases hstep
      exact h.move trivial (fun _ => Iff.rfl) fun _ _ _ => Iff.rfl
    · rename_i p hp
      cases hstep
      exact h.load hp (hapart p hp)
  | deleting resp p =>
    cases hstep
    refine (h.delete resp.id).move hknown.1 (fun _ => Iff.rfl) ?_
    intro k q hq
    -- the entry of `p` is the one that is deleted
    refine ⟨False.elim, ?_⟩
    rintro rfl
    dsimp only [State.delete] at hq
    rw [FiniteMap.lookup_erase] at hq
    split_ifs at hq with hk
    exact hk ((h.stored k p hq).2.symm.trans hknown.2)
  | assigning resp p =>
    cases hstep
    refine h.modify (fun _ => rfl) (h.lookup_ne_of_claims rfl id) hknown (fun _ _ => Iff.rfl) (fun _ _ => Iff.rfl) ?_
    have hcell := Heap.cell_modify_self p (.setResponse resp) s.responses
    have hzero := h.eq_zero_of_claims (p := p) rfl
    rw [completions_cons_of_claims (a := .completing p) _ (show p = p from rfl)]
    unfold completions at hzero ⊢
    dsimp only [State.modify]
    rw [hcell]
    dsimp only [PendingResponse.setResponse]
    omega
  | completing p =>
    have hzero := h.eq_zero_of_claims (p := p) rfl
    rw [State.advance] at hstep
    split_ifs at hstep with hcallback hcloses
    · cases hstep
      exact h.complete (fun _ => rfl) fun _ => rfl
    · unfold completions at hzero
      omega
    · cases hstep
      exact h.complete (fun _ => rfl) fun r => Nat.add_right_comm r.closes 1 r.calls
  | removing seq =>
    rw [State.advance] at hstep
    split at hstep <;> cases hstep <;> exact h.move trivial (fun _ => Iff.rfl) fun _ _ _ => Iff.rfl
  | dropping seq =>
    cases hstep
    exact (h.delete seq).move trivial (fun _ => Iff.rfl) fun _ _ _ => Iff.rfl

theorem spawn (h : Once s stages) (hb : b.Known s) (hclaims : ∀ p, ¬b.Claims p ∧ ¬b.Deletes p) :
    Once s (b ::ₘ stages) := by
  refine ⟨h.stored, ?_, ?_, ?_⟩
  · intro st hstage
    rcases mem_cons.1 hstage with rfl | hstage
    · exact hb
    · exact h.known st hstage
  · intro p
    rw [completions_cons_of_not s (hclaims p).1]
    exact h.once p
  · intro k p hp
    rw [completions_cons_of_not s (hclaims p).1, countP_cons_of_neg _ (hclaims p).2]
    exact h.waiting k p hp

theorem add (h : Once s stages) (id : Int64) (hasCallback : Bool) (reply : Option ω) :
    Once (s.addPendingResponse (.new id hasCallback reply)) stages := by
  have hcell : ∀ q < s.responses.next,
      (s.addPendingResponse (.new id hasCallback reply)).responses.cell q = s.responses.cell q :=
    fun q hq => Heap.cell_add_of_lt _ hq
  have hnew : (s.addPendingResponse (.new id hasCallback reply)).responses.cell s.responses.next =
      .new id hasCallback reply := Heap.cell_add_self _ _
  have hnobody : stages.countP (Stage.Claims s.responses.next) = 0 := by
    refine countP_eq_zero.2 ?_
    intro st hstage hclaims
    exact lt_irrefl _ ((h.known st hstage).lt_next hclaims)
  have hold : ∀ q, q ≠ s.responses.next → (s.addPendingResponse
      (.new id hasCallback reply)).completions q stages = s.completions q stages := by
    intro q hq
    unfold completions
    rw [show (s.addPendingResponse (.new id hasCallback reply)).responses.cell q = s.responses.cell q
      from Function.update_of_ne hq ..]
  have hzero : (s.addPendingResponse (.new id hasCallback reply)).completions s.responses.next stages =
      0 := by
    unfold completions
    rw [hnobody, hnew]
    rfl
  refine ⟨?_, ?_, ?_, ?_⟩
  · intro k q hq
    dsimp only [addPendingResponse] at hq
    rw [FiniteMap.lookup_insert] at hq
    split_ifs at hq with hk
    · cases hq
      rw [hnew, hk]
      exact ⟨Nat.lt_succ_self _, rfl⟩
    · obtain ⟨hlt, hseq⟩ := h.stored k q hq
      rw [hcell q hlt]
      exact ⟨Nat.lt_succ_of_lt hlt, hseq⟩
  · intro st hstage
    have hknown := h.known st hstage
    cases st with
    | deleting resp q =>
      refine ⟨Nat.lt_succ_of_lt hknown.1, ?_⟩
      rw [hcell q hknown.1]
      exact hknown.2
    | assigning resp q | completing q => exact Nat.lt_succ_of_lt hknown
    | _ => exact hknown
  · intro q
    by_cases hq : q = s.responses.next
    · rw [hq, hzero]
      exact Nat.zero_le 1
    · rw [hold q hq]
      exact h.once q
  · intro k q hq
    by_cases hnext : q = s.responses.next
    · rw [hnext, hzero]
      exact Nat.zero_le _
    · rw [hold q hnext]
      dsimp only [addPendingResponse] at hq
      rw [FiniteMap.lookup_insert] at hq
      split_ifs at hq with hk
      · exact absurd (Option.some.inj hq).symm hnext
      · exact h.waiting k q hq

end Once

end State

namespace System

variable {s : System ε ρ ω}

/-- No `Handle` loads an entry that another one has loaded and not deleted yet. -/
def Apart (s : System ε ρ ω) : Action ε ρ ω → Prop
  | .advance i =>
    ∀ p ∈ s.threads[i]?.bind (Stage.loads s.shared), ∀ stage ∈ s.threads, ¬stage.Deletes p
  | _ => True

instance Apart.decidable (s : System ε ρ ω) : ∀ action, Decidable (Apart s action)
  | .advance i =>
    inferInstanceAs (Decidable (∀ p ∈ s.threads[i]?.bind (Stage.loads s.shared),
      ∀ stage ∈ s.threads, ¬stage.Deletes p))
  | .add _ _ _ | .handle _ | .remove _ => inferInstanceAs (Decidable True)

theorem once (h : ReachedBy step (· = new) Apart s) : s.shared.Once (s.threads : Multiset (Stage ε ρ)) := by
  refine ReachedBy.invariant (fun s => s.shared.Once (s.threads : Multiset (Stage ε ρ))) ?_ ?_ h
  · rintro s rfl
    refine ⟨fun k p hp => ?_, fun st hstage => ?_, fun p => ?_, fun k p hp => ?_⟩
    · cases hp
    · cases hstage
    · exact Nat.zero_le 1
    · cases hp
  · intro s act t hs hapart hstep
    cases act with
    | add id hasCallback reply =>
      cases hstep
      exact hs.add id hasCallback reply
    | handle resp | remove seq =>
      cases hstep
      rw [Pool.coe_threads_spawn]
      exact hs.spawn trivial fun _ => ⟨id, id⟩
    | advance i =>
      obtain ⟨a, b, others, hi, hnext, hbefore, hafter⟩ := Pool.advance_cases hstep
      rw [hafter]
      rw [hbefore] at hs
      refine hs.advance ?_ hnext
      intro p hp st hstage
      apply hapart p
      · rw [hi]
        exact hp
      · rw [← mem_coe, hbefore]
        exact mem_cons_of_mem hstage

/-- Every pending response that has been added is completed at most once, and no `Handle` panics, if no
`Handle` loads an entry that another one has loaded and not deleted yet. -/
theorem completed_once (h : ReachedBy step (· = new) Apart s) : (∀ p < s.shared.responses.next,
      (s.shared.responses.cell p).closes ≤ 1 ∧ (s.shared.responses.cell p).calls ≤ 1) ∧
    ∀ stage ∈ s.threads, stage.isPanicked = false := by
  have honce := once h
  refine ⟨?_, ?_⟩
  · intro p _
    have hp := honce.once p
    unfold State.completions at hp
    exact ⟨by omega, by omega⟩
  · intro stage hstage
    have hknown := honce.known stage hstage
    cases stage with
    | panicked => exact hknown.elim
    | _ => rfl

def answer : Response Unit Unit := .new 2 (str "2.0.2")

def handledInTurn : List (Action Unit Unit Unit) :=
  [.add 2 false none, .handle answer, .advance 0, .advance 0, .advance 0, .advance 0, .handle answer, .advance 1]

/-- Two `Handle` calls for responses to one request load its entry before one of them deletes it. -/
def handledAtOnce (hasCallback : Bool) : List (Action Unit Unit Unit) :=
  [.add 2 hasCallback none, .handle answer, .handle answer, .advance 0, .advance 1, .advance 0, .advance 1,
    .advance 0, .advance 0, .advance 1, .advance 1]

theorem handledInTurn_once : ∃ s : System Unit Unit Unit, ReachedBy step (· = new) Apart s ∧
    (s.shared.responses.cell 0).closes = 1 ∧ ((∀ p < s.shared.responses.next,
      (s.shared.responses.cell p).closes ≤ 1 ∧ (s.shared.responses.cell p).calls ≤ 1) ∧
    ∀ stage ∈ s.threads, stage.isPanicked = false) := by
  obtain ⟨s, hs, hcloses⟩ := ReachedBy.of_run step Apart new handledInTurn
    (fun s => (s.shared.responses.cell 0).closes = 1) (by decide +kernel)
  exact ⟨s, hs, hcloses, completed_once hs⟩

/-- The second `Handle` closes a closed channel, or calls the callback a second time. -/
theorem overlapping_handles : (∃ s : System Unit Unit Unit, ReachedBy step (· = new) (fun _ _ => True) s ∧
      (s.shared.responses.cell 0).closes = 2 ∧ ∃ stage ∈ s.threads, stage.isPanicked = true) ∧
    ∃ s : System Unit Unit Unit, ReachedBy step (· = new) (fun _ _ => True) s ∧
      (s.shared.responses.cell 0).calls = 2 :=
  ⟨ReachedBy.of_run step (fun _ _ => True) new (handledAtOnce false)
      (fun s => (s.shared.responses.cell 0).closes = 2 ∧ ∃ stage ∈ s.threads, stage.isPanicked = true)
      (by decide +kernel),
    ReachedBy.of_run step (fun _ _ => True) new (handledAtOnce true)
      (fun s => (s.shared.responses.cell 0).calls = 2) (by decide +kernel)⟩

end System

end Exchange

end DubboGo.Remoting
