import DubboGo.Cluster.Failback

/-!
# The limits of failback retries

How often a call is retried, and how many tasks wait in the queue.  Every task is in one place at a
time, and knows how often its call was retried (`Limited`); whether the limits hold then depends on
what is put into the queue (`Meets`).
-/

namespace DubboGo.Cluster.Failback

open Go Lib List Multiset Function

/-! ## The stock of tasks -/

/-- What counts of a task; `attempted` says that its retry has made the attempt. -/
structure Entry where
  call : ℕ
  retries : ℤ
  maxRetries : ℤ
  attempted : Bool

def Entry.made (e : Entry) : ℤ := e.retries + if e.attempted then 1 else 0

/-- The calls so far with the retries that they asked for, the calls of the attempts, and the tasks
before and after they got into the queue for the first time. -/
structure Stock where
  calls : ℕ
  limit : ℕ → ℤ
  log : List ℕ
  failing : Multiset Entry
  entries : Multiset Entry

/-- The steps of a stock: tasks get lost, a call fails, its task gets into the queue if it may be
retried at all, an attempt begins, and a task is put back if it may be retried once more. -/
inductive StockStep (k : Stock) : Stock → Prop where
  | lose (failing entries : Multiset Entry) (hf : failing ≤ k.failing) (he : entries ≤ k.entries) :
      StockStep k { k with failing := failing, entries := entries }
  | issue (limit : ℤ) (hl : limit < 2 ^ 63) : StockStep k { k with
      calls := k.calls + 1
      limit := Function.update k.limit k.calls limit
      failing := ⟨k.calls, 0, limit, false⟩ ::ₘ k.failing }
  | accept (e : Entry) (rest entries : Multiset Entry) (hf : k.failing = e ::ₘ rest)
      (he : entries ≤ k.entries) (hmax : 0 < e.maxRetries) :
      StockStep k { k with failing := rest, entries := e ::ₘ entries }
  | attempt (call : ℕ) (retries maxRetries : ℤ) (rest : Multiset Entry)
      (he : k.entries = ⟨call, retries, maxRetries, false⟩ ::ₘ rest) : StockStep k { k with
        log := k.log ++ [call]
        entries := ⟨call, retries, maxRetries, true⟩ ::ₘ rest }
  | back (call : ℕ) (retries maxRetries : ℤ) (rest : Multiset Entry)
      (he : k.entries = ⟨call, retries, maxRetries, true⟩ ::ₘ rest) (hmax : retries + 1 < maxRetries) :
      StockStep k { k with entries := ⟨call, int64 (retries + 1), maxRetries, false⟩ ::ₘ rest }

/-- What a task says is true: it is the only one of its call, and the call was retried as often as it
says. -/
structure Entry.Tells (k : Stock) (e : Entry) : Prop where
  known : e.call < k.calls
  limit : e.maxRetries = k.limit e.call
  limit_lt : e.maxRetries < 2 ^ 63
  made : (k.log.count e.call : ℤ) = e.made

/-- What holds of a stock whose tasks all have a retry left when they get into the queue. -/
structure Limited (k : Stock) : Prop where
  nodup : ((k.failing + k.entries).map Entry.call).Nodup
  tells : ∀ e ∈ k.failing + k.entries, e.Tells k
  fresh : ∀ e ∈ k.failing, e.retries = 0
  range : ∀ e ∈ k.entries, 0 ≤ e.retries ∧ e.retries < e.maxRetries
  logged : ∀ n ∈ k.log, n < k.calls
  bounded : ∀ n, (k.log.count n : ℤ) ≤ max (k.limit n) 0

namespace Limited

variable {k : Stock} {e : Entry} {rest : Multiset Entry}

theorem lose (h : Limited k) {failing ents : Multiset Entry} (hf : failing ≤ k.failing)
    (he : ents ≤ k.entries) : Limited { k with failing := failing, entries := ents } := by
  have hle : failing + ents ≤ k.failing + k.entries := add_le_add hf he
  exact
    { nodup := nodup_of_le (map_le_map hle) h.nodup
      tells := fun e hmem =>
        let ht := h.tells e (mem_of_le hle hmem)
        ⟨ht.known, ht.limit, ht.limit_lt, ht.made⟩
      fresh := fun e hmem => h.fresh e (mem_of_le hf hmem)
      range := fun e hmem => h.range e (mem_of_le he hmem)
      logged := h.logged
      bounded := h.bounded }

theorem count_calls (h : Limited k) : k.log.count k.calls = 0 :=
  count_eq_zero.2 fun hmem => lt_irrefl _ (h.logged _ hmem)

theorem issue (h : Limited k) {limit : ℤ} (hl : limit < 2 ^ 63) :
    Limited { k with
      calls := k.calls + 1
      limit := update k.limit k.calls limit
      failing := ⟨k.calls, 0, limit, false⟩ ::ₘ k.failing } := by
  have hold : ∀ e ∈ k.failing + k.entries, e.call ≠ k.calls :=
    fun e he => (h.tells e he).known.ne
  refine ⟨?_, fun e he => ?_, fun e he => ?_, h.range, fun n hn => ?_, fun n => ?_⟩
  · rw [Multiset.cons_add, Multiset.map_cons, Multiset.nodup_cons]
    refine ⟨fun hmem => ?_, h.nodup⟩
    obtain ⟨e, he, heq⟩ := Multiset.mem_map.1 hmem
    exact hold e he heq
  · rw [Multiset.cons_add] at he
    rcases mem_cons.1 he with rfl | he
    · refine ⟨Nat.lt_succ_self _, ?_, hl, ?_⟩
      · simp
      · simp [h.count_calls, Entry.made]
    · have ht := h.tells e he
      refine ⟨Nat.lt_succ_of_lt ht.known, ?_, ht.limit_lt, ht.made⟩
      dsimp only
      rw [update_of_ne (hold e he)]
      exact ht.limit
  · rcases mem_cons.1 he with rfl | he
    · rfl
    · exact h.fresh e he
  · exact Nat.lt_succ_of_lt (h.logged n hn)
  · dsimp only
    by_cases hn : n = k.calls
    · rw [hn, h.count_calls]
      exact le_max_right _ _
    · rw [update_of_ne hn]
      exact h.bounded n

theorem accept (h : Limited k) (hf : k.failing = e ::ₘ rest) (hmax : 0 < e.maxRetries) :
    Limited { k with failing := rest, entries := e ::ₘ k.entries } := by
  have hsum : rest + e ::ₘ k.entries = k.failing + k.entries := by
    rw [hf, Multiset.add_cons, Multiset.cons_add]
  have hmem : e ∈ k.failing := by
    rw [hf]
    exact mem_cons_self _ _
  refine ⟨?_, fun e' he => ?_, fun e' he => ?_, fun e' he => ?_, h.logged, h.bounded⟩
  · rw [hsum]
    exact h.nodup
  · rw [hsum] at he
    have ht := h.tells e' he
    exact ⟨ht.known, ht.limit, ht.limit_lt, ht.made⟩
  · apply h.fresh
    rw [hf]
    exact mem_cons_of_mem he
  · rcases mem_cons.1 he with rfl | he
    · rw [h.fresh e' hmem]
      exact ⟨le_rfl, hmax⟩
    · exact h.range e' he

theorem call_ne (h : Limited k) (he : k.entries = e ::ₘ rest) {e' : Entry} (hmem : e' ∈ k.failing + rest) :
    e'.call ≠ e.call := by
  have hnodup := h.nodup
  rw [he, Multiset.add_cons, Multiset.map_cons, Multiset.nodup_cons] at hnodup
  intro heq
  exact hnodup.1 (heq ▸ Multiset.mem_map_of_mem Entry.call hmem)

theorem replace (h : Limited k) {e' : Entry} {log : List ℕ} (he : k.entries = e ::ₘ rest)
    (hcall : e'.call = e.call) (htells : e'.Tells { k with log := log })
    (hrange : 0 ≤ e'.retries ∧ e'.retries < e'.maxRetries) (hlog : ∀ n, n ≠ e.call → log.count n = k.log.count n)
    (hlogged : ∀ n ∈ log, n < k.calls) (hmade : e'.made ≤ e'.maxRetries) :
    Limited { k with log := log, entries := e' ::ₘ rest } := by
  refine ⟨?_, fun e'' hmem'' => ?_, h.fresh, fun e'' hmem'' => ?_, hlogged, fun n => ?_⟩
  · have hnodup := h.nodup
    rw [he, Multiset.add_cons, Multiset.map_cons] at hnodup
    rw [Multiset.add_cons, Multiset.map_cons, hcall]
    exact hnodup
  · rw [Multiset.add_cons] at hmem''
    rcases mem_cons.1 hmem'' with rfl | hmem''
    · exact ⟨htells.known, htells.limit, htells.limit_lt, htells.made⟩
    · have hold : e'' ∈ k.failing + k.entries := by
        rw [he, Multiset.add_cons]
        exact mem_cons_of_mem hmem''
      have ht := h.tells e'' hold
      refine ⟨ht.known, ht.limit, ht.limit_lt, ?_⟩
      rw [hlog e''.call (h.call_ne he hmem'')]
      exact ht.made
  · rcases mem_cons.1 hmem'' with rfl | hmem''
    · exact hrange
    · apply h.range
      rw [he]
      exact mem_cons_of_mem hmem''
  · by_cases hn : n = e'.call
    · have hm := htells.made
      have hl := htells.limit
      rw [hn]
      rw [hm, ← hl]
      exact hmade.trans (le_max_left _ _)
    · rw [hlog n (hcall ▸ hn)]
      exact h.bounded n

end Limited

/-- What can happen to the stock of tasks keeps the limits on retries. -/
theorem StockStep.limited {k k' : Stock} (h : Limited k) (hst : StockStep k k') : Limited k' := by
  cases hst with
  | lose failing entries hf he => exact h.lose hf he
  | issue limit hl => exact h.issue hl
  | accept e rest entries hf he hmax => exact (h.accept hf hmax).lose le_rfl (cons_le_cons e he)
  | attempt call retries maxRetries rest he =>
    have hmem : (⟨call, retries, maxRetries, false⟩ : Entry) ∈ k.entries := by
      rw [he]
      exact mem_cons_self _ _
    have ht := h.tells _ (mem_add.2 (.inr hmem))
    have hr : 0 ≤ retries ∧ retries < maxRetries := h.range _ hmem
    have hmade : (k.log.count call : ℤ) = retries := by simpa [Entry.made] using ht.made
    refine h.replace he rfl ⟨ht.known, ht.limit, ht.limit_lt, ?_⟩ hr ?_ ?_ ?_
    · simp [Entry.made, hmade]
    · intro n hn
      rw [List.count_append, List.count_singleton, if_neg (by simpa using Ne.symm hn), add_zero]
    · intro n hn
      rcases List.mem_append.1 hn with hn | hn
      · exact h.logged n hn
      · rw [List.mem_singleton.1 hn]
        exact ht.known
    · have hle : retries + 1 ≤ maxRetries := hr.2
      simpa [Entry.made] using hle
  | back call retries maxRetries rest he hmax =>
    have hmem : (⟨call, retries, maxRetries, true⟩ : Entry) ∈ k.entries := by
      rw [he]
      exact mem_cons_self _ _
    have ht := h.tells _ (mem_add.2 (.inr hmem))
    have hlt : maxRetries < 2 ^ 63 := ht.limit_lt
    have hmade : (k.log.count call : ℤ) = retries + 1 := by simpa [Entry.made] using ht.made
    have hnonneg : 0 ≤ retries + 1 := by omega
    rw [int64_of_bounds (by omega) (hmax.trans hlt)]
    refine h.replace he rfl ⟨ht.known, ht.limit, hlt, ?_⟩ ⟨hnonneg, hmax⟩ (fun _ _ => rfl) h.logged ?_
    · simp [Entry.made, hmade]
    · simpa [Entry.made] using hmax.le

/-! ## The stock of a state -/

section Stocks

variable {ι σ κ ν : Type} {c : Setup ι σ} {e : Event ι σ} {s : State ι σ κ ν} {ctx : Option (Context κ ν)}
  {t task : Task ι σ} {rest : Multiset (Retry ι σ)} {q : Queue (Task ι σ)} {ch : Option ℕ} {cancelled : Bool}
  {r' : Retry ι σ}

def Task.entry (t : Task ι σ) (attempted : Bool) : Entry := ⟨t.call, t.retries, t.maxRetries, attempted⟩

def Retry.entry (r : Retry ι σ) : Option Entry :=
  match r.stage with
  | .begun | .selected _ => some (r.task.entry false)
  | .invoking _ | .failed => some (r.task.entry true)
  | .finishing => none

def handed : Option (Processor ι σ) → Multiset Entry
  | some (.starting t) => {t.entry false}
  | _ => 0

def State.queued (s : State ι σ κ ν) : List (Task ι σ) := (s.taskList.map Queue.items).getD []

def entriesOf (queue : List (Task ι σ)) (p : Option (Processor ι σ)) (g : Multiset (Retry ι σ)) : Multiset Entry :=
  (queue.map fun t => t.entry false : List Entry) + handed p + g.filterMap Retry.entry

def State.stock (s : State ι σ κ ν) : Stock where
  calls := s.calls
  limit := fun n => (s.caller n).retries
  log := s.retried.map Prod.fst
  failing := s.failing.map fun p => p.2.entry false
  entries := entriesOf s.queued s.processor s.goroutines

theorem entriesOf_put (queue : List (Task ι σ)) (t : Task ι σ) (p : Option (Processor ι σ))
    (g : Multiset (Retry ι σ)) : entriesOf (queue ++ [t]) p g = t.entry false ::ₘ entriesOf queue p g := by
  unfold entriesOf
  rw [List.map_append, ← Multiset.coe_add, List.map_singleton, Multiset.coe_singleton, ← Multiset.singleton_add]
  abel

theorem entriesOf_get (queue : List (Task ι σ)) (t : Task ι σ) (g : Multiset (Retry ι σ)) :
    entriesOf queue (some (.starting t)) g = entriesOf (t :: queue) (some .getting) g := by
  unfold entriesOf
  rw [List.map_cons, ← cons_coe, ← Multiset.singleton_add]
  dsimp only [handed]
  abel

theorem entriesOf_start (queue : List (Task ι σ)) (t : Task ι σ) (ch : Option ℕ) (g : Multiset (Retry ι σ)) :
    entriesOf queue (some .polling) (⟨t, ch, .begun⟩ ::ₘ g) = entriesOf queue (some (.starting t)) g := by
  unfold entriesOf
  rw [filterMap_cons_some Retry.entry ⟨t, ch, .begun⟩ g rfl, ← Multiset.singleton_add]
  dsimp only [handed]
  abel

theorem entriesOf_cons_some (queue : List (Task ι σ)) (p : Option (Processor ι σ)) {r : Retry ι σ}
    {e : Entry} (h : r.entry = some e) (g : Multiset (Retry ι σ)) :
    entriesOf queue p (r ::ₘ g) = e ::ₘ entriesOf queue p g := by
  unfold entriesOf
  rw [filterMap_cons_some _ _ _ h, Multiset.add_cons]

theorem entriesOf_cons_none (queue : List (Task ι σ)) (p : Option (Processor ι σ)) {r : Retry ι σ}
    (h : r.entry = none) (g : Multiset (Retry ι σ)) : entriesOf queue p (r ::ₘ g) = entriesOf queue p g := by
  unfold entriesOf
  rw [filterMap_cons_none _ _ h]

theorem entriesOf_le (queue : List (Task ι σ)) (p p' : Option (Processor ι σ)) (h : handed p' = 0)
    (g : Multiset (Retry ι σ)) : entriesOf queue p' g ≤ entriesOf queue p g := by
  unfold entriesOf
  rw [h]
  exact add_le_add_left (add_le_add_right (zero_le _) _) _

theorem length_queued (s : State ι σ κ ν) : (s.taskList.map fun q => (q.len : ℤ)).getD 0 = s.queued.length := by
  unfold State.queued
  cases s.taskList <;> rfl

theorem putTask_cases (s : State ι σ κ ν) (t : Task ι σ) :
    ((putTask s t).stock = s.stock ∧ (putTask s t).queued = s.queued) ∨
      (putTask s t).stock = { s.stock with entries := t.entry false ::ₘ s.stock.entries } ∧
        (putTask s t).queued = s.queued ++ [t] := by
  have hqueued : (putTask s t).queued = s.queued ∨ (putTask s t).queued = s.queued ++ [t] := by
    dsimp only [putTask, State.queued]
    cases s.taskList with
    | none => exact .inl rfl
    | some q =>
      dsimp only [Option.map_some, Option.getD_some, Queue.put]
      split_ifs
      · exact .inl rfl
      · exact .inr rfl
  rcases hqueued with hq | hq
  · refine .inl ⟨?_, hq⟩
    exact congrArg (fun queue => { s.stock with
      entries := entriesOf queue s.processor s.goroutines }) hq
  · refine .inr ⟨?_, hq⟩
    have heq := congrArg (fun queue => { s.stock with
      entries := entriesOf queue s.processor s.goroutines }) hq
    rw [entriesOf_put] at heq
    exact heq

theorem startProcessor_stock (s : State ι σ κ ν) (ctx : Option (Context κ ν)) (t : Task ι σ) :
    (startProcessor s ctx t).queued = s.queued ∧ ∃ ents ≤ s.stock.entries,
      (startProcessor s ctx t).stock = { s.stock with entries := ents } := by
  unfold startProcessor
  split
  · exact ⟨rfl, _, le_rfl, rfl⟩
  · rename_i hnone
    have hq : s.queued = [] := by
      rw [State.queued, hnone]
      rfl
    refine ⟨hq.symm, entriesOf [] (some .waiting) s.goroutines, ?_, rfl⟩
    have hle := entriesOf_le s.queued s.processor (some .waiting) rfl s.goroutines
    rw [hq] at hle
    dsimp only [State.stock]
    rw [hq]
    exact hle

theorem stock_failing {rest : Multiset (Option (Context κ ν) × Task ι σ)} (h : s.failing = (ctx, t) ::ₘ rest) :
    s.stock.failing = t.entry false ::ₘ rest.map fun p => p.2.entry false := by
  dsimp only [State.stock]
  rw [h, Multiset.map_cons]

theorem queued_stop (s : State ι σ κ ν) : (stop s).queued = [] := by
  dsimp only [stop, State.queued]
  cases s.taskList <;> rfl

theorem length_putTask_le (s : State ι σ κ ν) (t : Task ι σ) : (putTask s t).queued.length ≤ s.queued.length + 1 := by
  rcases putTask_cases s t with ⟨-, hq⟩ | ⟨-, hq⟩
  · rw [hq]
    exact Nat.le_succ _
  · rw [hq, length_append, length_singleton]

theorem queued_eq (hq : s.taskList = some q) : s.queued = q.items := by
  rw [State.queued, hq]
  rfl

/-- The condition on a step: a task that gets into the queue has a retry left, and one that is put back
finds a free place. -/
def Meets (c : Setup ι σ) (s : State ι σ κ ν) : Event ι σ → Prop
  | .enqueueInitialRetry t => s.stopped = false → s.destroyed = false →
      (s.queued.length : ℤ) < c.failbackTasks → 0 < t.maxRetries
  | .checkRetry t stop => s.stopped = false → stop = false → t.retries + 1 ≤ t.maxRetries →
      t.retries + 1 < t.maxRetries ∧ (s.queued.length : ℤ) < c.failbackTasks
  | .other => True

theorem enqueueInitialRetry_stock {rest : Multiset (Option (Context κ ν) × Task ι σ)}
    (h : s.failing = (ctx, t) ::ₘ rest) (hm : Meets c s (.enqueueInitialRetry t)) :
    StockStep s.stock (enqueueInitialRetry c { s with failing := rest } ctx t).stock := by
  have hf := stock_failing h
  have hle : (rest.map fun p => p.2.entry false) ≤ s.stock.failing := by
    rw [hf]
    exact le_cons_self _ _
  obtain ⟨hqueued, ents, hentries, hstock⟩ := startProcessor_stock { s with failing := rest } ctx t
  have hlen : (((startProcessor { s with failing := rest } ctx t).taskList.map fun q =>
      (q.len : ℤ)).getD 0) = s.queued.length := by
    rw [length_queued, hqueued]
    rfl
  unfold enqueueInitialRetry
  dsimp only
  split_ifs with hstop hfull
  · exact .lose _ _ hle le_rfl
  · rw [hstock]
    exact .lose _ _ hle hentries
  · rw [Bool.or_eq_true, not_or, Bool.not_eq_true, Bool.not_eq_true] at hstop
    rw [hlen, not_le] at hfull
    rcases putTask_cases (startProcessor { s with failing := rest } ctx t) t with ⟨heq, -⟩ | ⟨heq, -⟩
    · rw [heq, hstock]
      exact .lose _ _ hle hentries
    · rw [heq, hstock]
      exact .accept _ _ _ hf hentries (hm hstop.1 hstop.2 hfull)

theorem Limited.failed (hlim : Limited s.stock) (h : s.goroutines = ⟨t, ch, .failed⟩ ::ₘ rest) :
    0 ≤ t.retries ∧ t.retries < t.maxRetries := by
  apply hlim.range (t.entry true)
  dsimp only [State.stock]
  rw [h, entriesOf_cons_some (e := t.entry true) _ _ rfl]
  exact mem_cons_self _ _

theorem checkRetry_stock {stop : Bool} (hlim : Limited s.stock) (h : s.goroutines = ⟨t, ch, .failed⟩ ::ₘ rest)
    (hm : Meets c s (.checkRetry t stop)) :
    StockStep s.stock
      (checkRetry { s with goroutines := ⟨t, ch, .finishing⟩ ::ₘ rest } t stop).stock := by
  have hentries : s.stock.entries = t.entry true ::ₘ entriesOf s.queued s.processor rest := by
    dsimp only [State.stock]
    rw [h]
    exact entriesOf_cons_some s.queued s.processor rfl rest
  have hfinish : { s with goroutines := ⟨t, ch, .finishing⟩ ::ₘ rest }.stock =
      { s.stock with entries := entriesOf s.queued s.processor rest } :=
    congrArg (fun ents => { s.stock with entries := ents }) (entriesOf_cons_none s.queued s.processor rfl rest)
  have hle : entriesOf s.queued s.processor rest ≤ s.stock.entries := by
    rw [hentries]
    exact le_cons_self _ _
  unfold checkRetry enqueueRetry
  dsimp only
  split_ifs with hexceeded hstop
  · rw [hfinish]
    exact .lose _ _ le_rfl hle
  · rw [hfinish]
    exact .lose _ _ le_rfl hle
  · rw [Bool.or_eq_true, not_or, Bool.not_eq_true stop] at hexceeded
    rw [Bool.not_eq_true] at hstop
    rcases putTask_cases { s with goroutines := ⟨t, ch, .finishing⟩ ::ₘ rest }
      { t with retries := int64 (t.retries + 1) } with ⟨heq, -⟩ | ⟨heq, -⟩
    · rw [heq, hfinish]
      exact .lose _ _ le_rfl hle
    · rw [heq, hfinish]
      exact .back t.call t.retries t.maxRetries _ hentries (hm hstop hexceeded.2 (hlim.failed h).2).1

theorem ProcessorMove.handed_eq {p p' : Processor ι σ} (h : ProcessorMove cancelled q p p') :
    handed (some p') = 0 := by
  cases h <;> rfl

theorem RetryMove.entry_eq [DecidableEq ι] {r : Retry ι σ} (h : RetryMove c cancelled r r') :
    r'.entry = r.entry ∨ r'.entry = none := by
  cases h with
  | select => exact .inl rfl
  | fail => exact .inl rfl
  | cancelBegun => exact .inr rfl
  | selectNone => exact .inr rfl
  | cancelSelected => exact .inr rfl
  | succeed => exact .inr rfl

theorem entriesOf_replace_le (queue : List (Task ι σ)) (p : Option (Processor ι σ)) {r : Retry ι σ}
    (h : r'.entry = r.entry ∨ r'.entry = none) (g : Multiset (Retry ι σ)) :
    entriesOf queue p (r' ::ₘ g) ≤ entriesOf queue p (r ::ₘ g) := by
  cases hr : r.entry with
  | none =>
    have hr' : r'.entry = none := h.elim (fun heq => heq.trans hr) id
    rw [entriesOf_cons_none queue p hr, entriesOf_cons_none queue p hr']
  | some e =>
    rw [entriesOf_cons_some queue p hr]
    rcases h with heq | hnone
    · rw [entriesOf_cons_some queue p (heq.trans hr)]
    · rw [entriesOf_cons_none queue p hnone]
      exact le_cons_self _ _

theorem atoi_lt (text : Str) : atoi text < 2 ^ 63 := by
  unfold atoi
  split
  · rename_i n hn
    exact parseInt_lt hn
  · norm_num
  · split_ifs <;> norm_num

theorem newRetryTimerTask_maxRetries_lt (lb : Base.LoadBalance ι σ) (inv : Protocol.RPCInvocation)
    (ivks : List ι) (i : ι) (call : ℕ) : (newRetryTimerTask c lb inv ivks i call).maxRetries < 2 ^ 63 := by
  dsimp only [newRetryTimerTask]
  cases inv.getAttachment Failover.retriesKey with
  | none => exact c.maxRetries_lt
  | some text => exact atoi_lt text

theorem invoke_stock (s : State ι σ κ ν) (ctx : Option (Context κ ν))
    (hentry : task.entry false = ⟨s.calls, 0, task.maxRetries, false⟩) (hlt : task.maxRetries < 2 ^ 63) :
    StockStep s.stock { s with
      calls := s.calls + 1
      caller := update s.caller s.calls ⟨ctx, task.maxRetries⟩
      failing := (ctx, task) ::ₘ s.failing }.stock := by
  have hlimit : (fun n => (update s.caller s.calls ⟨ctx, task.maxRetries⟩ n).retries) =
      update (fun n => (s.caller n).retries) s.calls task.maxRetries := by
    funext n
    by_cases hn : n = s.calls
    · rw [hn, update_self, update_self]
    · rw [update_of_ne hn, update_of_ne hn]
  have hstep := StockStep.issue (k := s.stock) task.maxRetries hlt
  dsimp only [State.stock] at hstep ⊢
  rw [Multiset.map_cons, hentry, hlimit]
  exact hstep

theorem attempt_stock {i : ι} (h : s.goroutines = ⟨t, ch, .selected i⟩ ::ₘ rest) (ctx : Context κ ν) :
    StockStep s.stock { s with
      goroutines := ⟨t, ch, .invoking i⟩ ::ₘ rest
      retried := s.retried ++ [(t.call, ctx)] }.stock := by
  have hentries : s.stock.entries = t.entry false ::ₘ entriesOf s.queued s.processor rest := by
    dsimp only [State.stock]
    rw [h]
    exact entriesOf_cons_some _ _ rfl _
  have hstep := StockStep.attempt (k := s.stock) t.call t.retries t.maxRetries _ hentries
  dsimp only [State.stock] at hstep ⊢
  rw [entriesOf_cons_some (e := t.entry true) _ _ rfl, List.map_append]
  exact hstep

theorem startRetry_stock (hp : s.processor = some (.starting task)) :
    StockStep s.stock (startRetry { s with processor := some .polling } task).stock := by
  by_cases hstop : (s.stopped || s.cancelled) = true
  · rw [startRetry, if_pos hstop]
    exact .lose _ _ le_rfl (entriesOf_le _ _ _ rfl _)
  · rw [startRetry, if_neg hstop]
    refine .lose _ (entriesOf s.queued (some .polling) (⟨task, _, .begun⟩ ::ₘ s.goroutines)) le_rfl (le_of_eq ?_)
    dsimp only [State.stock]
    rw [entriesOf_start, hp]

theorem step_stock [DecidableEq ι] {t : State ι σ κ ν} (hlim : Limited s.stock) (hm : Meets c s e)
    (h : Step c s e t) : StockStep s.stock t.stock := by
  -- a step that changes no task, loses some of them at most
  have hlose : ∀ ents ≤ s.stock.entries, StockStep s.stock { s.stock with entries := ents } :=
    fun ents hle => .lose _ _ le_rfl hle
  cases h with
  | invoke ctx inv first rest isAvailable base b ivk lb task hs hd hlb hsel htask =>
    subst htask
    exact invoke_stock s ctx rfl (newRetryTimerTask_maxRetries_lt _ _ _ _ _)
  | enqueueInitialRetry ctx task rest h => exact enqueueInitialRetry_stock h hm
  | process q p p' hq hp hmove => exact hlose _ (entriesOf_le _ _ _ hmove.handed_eq _)
  | get q task rest hq hp hd h =>
    refine hlose (entriesOf rest (some (.starting task)) s.goroutines) (le_of_eq ?_)
    have hqueued : s.queued = task :: rest := (queued_eq hq).trans h
    dsimp only [State.stock]
    rw [entriesOf_get, hqueued, hp]
  | startRetry task hp => exact startRetry_stock hp
  | retry r r' rest h hmove =>
    refine hlose (entriesOf s.queued s.processor (r' ::ₘ rest)) ?_
    dsimp only [State.stock]
    rw [h]
    exact entriesOf_replace_le _ _ hmove.entry_eq _
  | attempt t ch i ctx rest h hc hctx => exact attempt_stock h ctx
  | checkRetry t ch stop rest h => exact checkRetry_stock hlim h hm
  | finishRetry t ch rest h =>
    refine hlose (entriesOf s.queued s.processor rest) (le_of_eq ?_)
    dsimp only [State.stock]
    rw [h, entriesOf_cons_none _ _ rfl]
  | destroy | wait | «return» => exact hlose _ le_rfl
  | stop hd h =>
    refine hlose (entriesOf (stop s).queued s.processor s.goroutines) ?_
    rw [queued_stop]
    exact add_le_add_left (add_le_add_left (zero_le _) _) _
  | baseDestroy h =>
    have heq : { baseDestroy s with shutdown := .done }.stock = s.stock := by
      unfold baseDestroy
      split_ifs <;> rfl
    rw [heq]
    exact hlose _ le_rfl

theorem enqueueInitialRetry_length (s : State ι σ κ ν) (ctx : Option (Context κ ν)) (t : Task ι σ)
    (hsize : (s.queued.length : ℤ) ≤ c.failbackTasks) :
    ((enqueueInitialRetry c s ctx t).queued.length : ℤ) ≤ c.failbackTasks := by
  have hqueued := (startProcessor_stock s ctx t).1
  unfold enqueueInitialRetry
  dsimp only
  rw [length_queued, hqueued]
  split_ifs with hstop hfull
  · exact hsize
  · rw [hqueued]
    exact hsize
  · have hle := length_putTask_le (startProcessor s ctx t) t
    rw [hqueued] at hle
    omega

theorem checkRetry_length {stop : Bool} (hlim : Limited s.stock) (h : s.goroutines = ⟨t, ch, .failed⟩ ::ₘ rest)
    (hm : Meets c s (.checkRetry t stop)) (hsize : (s.queued.length : ℤ) ≤ c.failbackTasks) :
    ((checkRetry { s with goroutines := ⟨t, ch, .finishing⟩ ::ₘ rest } t stop).queued.length : ℤ) ≤
      c.failbackTasks := by
  unfold checkRetry enqueueRetry
  dsimp only
  split_ifs with hexceeded hstop
  · exact hsize
  · exact hsize
  · rw [Bool.or_eq_true, not_or, Bool.not_eq_true stop] at hexceeded
    rw [Bool.not_eq_true] at hstop
    have hfree := (hm hstop hexceeded.2 (hlim.failed h).2).2
    have hle := length_putTask_le { s with goroutines := ⟨t, ch, .finishing⟩ ::ₘ rest }
      { t with retries := int64 (t.retries + 1) }
    have hsame : { s with goroutines := ⟨t, ch, .finishing⟩ ::ₘ rest }.queued.length = s.queued.length := rfl
    omega

theorem step_length [DecidableEq ι] {t : State ι σ κ ν} (hlim : Limited s.stock)
    (hsize : (s.queued.length : ℤ) ≤ c.failbackTasks) (hm : Meets c s e) (h : Step c s e t) :
    (t.queued.length : ℤ) ≤ c.failbackTasks := by
  cases h with
  | enqueueInitialRetry ctx task rest h => exact enqueueInitialRetry_length _ ctx task hsize
  | checkRetry t ch stop rest h => exact checkRetry_length hlim h hm hsize
  | get q task rest hq hp hd h =>
    have hqueued : s.queued = task :: rest := (queued_eq hq).trans h
    rw [hqueued, length_cons] at hsize
    refine le_trans ?_ hsize
    exact_mod_cast Nat.le_succ rest.length
  | startRetry task hp =>
    unfold startRetry
    split_ifs
    · exact hsize
    · exact hsize
  | stop hd h =>
    rw [queued_stop]
    exact c.failbackTasks_pos.le
  | baseDestroy h =>
    unfold baseDestroy
    split_ifs
    · exact hsize
    · exact hsize
  | invoke => exact hsize
  | process => exact hsize
  | retry => exact hsize
  | attempt => exact hsize
  | finishRetry => exact hsize
  | destroy => exact hsize
  | wait => exact hsize
  | «return» => exact hsize

end Stocks

/-! ## Whole runs -/

variable {ι σ κ ν : Type} [DecidableEq ι] {c : Setup ι σ}

omit [DecidableEq ι] in
theorem limited_init : Limited (init : State ι σ κ ν).stock where
  nodup := by simp [State.stock, init, entriesOf, State.queued, handed]
  tells := by simp [State.stock, init, entriesOf, State.queued, handed]
  fresh := by simp [State.stock, init]
  range := by simp [State.stock, init, entriesOf, State.queued, handed]
  logged := by simp [State.stock, init]
  bounded := by simp [State.stock, init]

/-- In every state the retries are limited, and the queue is no longer than configured. -/
theorem limited_of_reachedBy {s : State ι σ κ ν} (h : ReachedBy c (Meets c) s) :
    Limited s.stock ∧ (s.queued.length : ℤ) ≤ c.failbackTasks := by
  apply Reachable.invariant ?_ ?_ h
  · rintro s rfl
    exact ⟨limited_init, c.failbackTasks_pos.le⟩
  · rintro s t ⟨hlim, hsize⟩ ⟨e, hm, hst⟩
    exact ⟨(step_stock hlim hm hst).limited hlim, step_length hlim hsize hm hst⟩

/-- In every run whose steps meet the condition, a call is retried at most as often as it asks for, and
the queue never holds more tasks than it has places. -/
theorem limits_respected (s : State ι σ κ ν) (h : ReachedBy c (Meets c) s) :
    (∀ n, ((s.retried.map Prod.fst).count n : ℤ) ≤ max (s.caller n).retries 0) ∧
      (s.queued.length : ℤ) ≤ c.failbackTasks :=
  ⟨(limited_of_reachedBy h).1.bounded, (limited_of_reachedBy h).2⟩

/-- A call that may be retried three times is retried once. -/
theorem first_retry_within_limits :
    ∃ s : State ℕ Unit Str Str, s.retried.map Prod.fst = [0] ∧
      (∀ n, ((s.retried.map Prod.fst).count n : ℤ) ≤ max (s.caller n).retries 0) ∧
      (s.queued.length : ℤ) ≤ (oneProvider (str "3") (str "100")).failbackTasks := by
  have h1 : ReachedBy (oneProvider (str "3") (str "100")) (Meets (oneProvider (str "3") (str "100")))
      (firstRetry (κ := Str) (ν := Str) _ none) :=
    reachedBy_firstRetry _ (fun _ => trivial) fun _ _ _ _ => by decide
  have h2 := h1.helloAgain (fun _ => trivial) (fun _ => none) 0 (some 0) 0 rfl rfl rfl
  exact ⟨_, rfl, limits_respected _ h2⟩

/-- A call that must not be retried is retried once, and two tasks wait in a queue with one place. -/
theorem limits_exceeded :
    (∃ s : State ℕ Unit Str Str, Reached (oneProvider (str "0") (str "1")) s ∧
      (s.caller 0).retries = 0 ∧ (s.retried.map Prod.fst).count 0 = 1) ∧
    ∃ s : State ℕ Unit Str Str, Reached (oneProvider (str "1") (str "1")) s ∧
      (oneProvider (str "1") (str "1")).failbackTasks = 1 ∧ s.queued.length = 2 := by
  constructor
  · have h1 : Reached (oneProvider (str "0") (str "1")) (firstRetry (κ := Str) (ν := Str) _ none) :=
      reachedBy_firstRetry _ (fun _ => trivial) fun _ => trivial
    have h2 := ReachedBy.helloAgain h1 (fun _ => trivial) (fun _ => none) 0 (some 0) 0 rfl rfl rfl
    exact ⟨_, h2, by decide, rfl⟩
  · have h1 : Reached (oneProvider (str "1") (str "1")) (firstRetry (κ := Str) (ν := Str) _ none) :=
      reachedBy_firstRetry _ (fun _ => trivial) fun _ => trivial
    -- the first retry is being made when a second call takes the place in the queue
    have h2 := reachedBy_secondCall h1 (fun _ => trivial) none (fun _ => none) fun _ => trivial
    have h3 := h2.helloAgain (fun _ => trivial) (fun _ => none) 0 (some 0) 0 rfl rfl rfl
    have h4 := h3.step ⟨_, trivial, .retry _ _ _ 0 rfl (.fail _ _ 0 rfl)⟩
    have h5 := h4.step ⟨_, trivial, .checkRetry _ _ _ false 0 rfl⟩
    exact ⟨_, h5, by decide, rfl⟩

end DubboGo.Cluster.Failback
