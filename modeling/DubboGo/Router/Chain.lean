import DubboGo.Router.TagPool
import DubboGo.Lib.Reachable

/-!
# The router chain and its cache

`cluster/router/chain`: `SetInvokers` publishes a new list of invokers and rebuilds the pools of the cache, while a
call of `Route` works on the list that it found.  The model is a transition system over one `Route` and any number of
`SetInvokers` calls.  Its steps are the critical sections of the mutexes of the chain and of the cache, and the atomic
accesses to the cache reference of a router.  `SetInvokers` holds the mutex of the chain to its end, so at most one is
under way.
-/

namespace DubboGo.Router.Chain

open Go Common Protocol Lib List

inductive ChainRouter where
  | tag (id : ℕ)
  | other (id : ℕ)
  deriving DecidableEq

/-- `PriorityRouter.Name` of the tag router. -/
def tagName : Str := str "tag"

/-- `routerCache`.  A slice that may be nil is an option. -/
structure RouterCache (ι β : Type) where
  generation : UInt64
  invokers : Option (List ι)
  pools : Str → Option (Tag.AddrPool β)

/-- The critical section that a `SetInvokers` call comes to next. -/
inductive Writer where
  | idle
  /-- The cache is still to be passed to these routers. -/
  | injecting (pending : List ChainRouter)
  | notifying

/-- Where the `Route` call is. -/
inductive Position (ι β : Type) where
  | start
  /-- The list has been taken and filtered by service. -/
  | snapped (finalInvokers : List ι)
  /-- The loop over the routers. -/
  | looping (finalInvokers : List ι) (pending : List ChainRouter)
  /-- A tag router has found a cache that it may use, and will ask it for its pool. -/
  | lookup (finalInvokers : List ι) (pending : List ChainRouter)
  /-- A tag router is on its fast path, with the pool and the list that the cache gave it. -/
  | fast (pool : Tag.AddrPool β) (fullInvokers : List ι) (pending : List ChainRouter)
  | done (finalInvokers : List ι)

/-- The chain with its cache, and the local state of the `Route` call. -/
structure State (ι β : Type) where
  /-- `RouterChain.invokers`. -/
  invokers : Option (List ι)
  /-- `RouterChain.routers`. -/
  routers : List ChainRouter
  /-- `RouterChain.generation`. -/
  generation : UInt64
  cache : RouterCache ι β
  /-- The router has been given the cache. -/
  attached : ChainRouter → Bool
  writer : Writer
  position : Position ι β
  /-- The list that `Route` has taken. -/
  snapshot : Option (List ι)
  /-- The attribute `RouterCacheDisable` of the invocation. -/
  cacheDisable : Bool
  /-- The attribute `RouterChainCacheGeneration` of the invocation. -/
  cacheGeneration : Option UInt64
  /-- The lists of all `SetInvokers` calls so far. -/
  calls : List (Option (List ι))

variable {ι β : Type} [Bitmap β] (matchString : Regexp) (getURL : ι → URL) (url : URL) (invocation : RPCInvocation)

/-- The new pools of `rebuild`. -/
def rebuiltPools (invokers : Option (List ι)) (routers : List ChainRouter) : Str → Option (Tag.AddrPool β) :=
  routers.foldl (fun pools r =>
    match r with
    | .tag _ => Function.update pools tagName (some (Tag.pool getURL (invokers.getD [])))
    | .other _ => pools) fun _ => none

/-- The invokers of the requested service, or all of them if there are none, and whether this leaves
invokers out. -/
def narrow (invokers : List ι) : List ι × Bool :=
  let finalInvokers := invokers.filter fun i => (getURL i).serviceKey = url.serviceKey
  if finalInvokers.length = 0 then (invokers, false)
  else (finalInvokers, finalInvokers.length ≠ invokers.length)

/-- What a router returns without a pool: for a tag router the direct evaluation of the rules that
it has at the time, for the others anything. -/
def Returns (r : ChainRouter) (invokers result : List ι) : Prop :=
  match r with
  | .tag _ => ∃ rules, Tag.routeDirectly matchString getURL rules invokers url invocation = .ok result
  | .other _ => True

inductive Step : State ι β → State ι β → Prop where
  /-- `SetInvokers` up to the injection of the cache. -/
  | setInvokers (s : State ι β) (invokers : Option (List ι)) (h : s.writer = .idle) :
      Step s { s with
        generation := s.generation + 1
        invokers := invokers
        writer := .injecting s.routers
        calls := s.calls ++ [invokers] }
  /-- `SetCache` of one router; those without pools ignore it. -/
  | setCache (s : State ι β) (r : ChainRouter) (pending : List ChainRouter)
      (h : s.writer = .injecting (r :: pending)) :
      Step s { s with
        attached := Function.update s.attached r true
        writer := .injecting pending }
  /-- The critical section of `rebuild`. -/
  | rebuild (s : State ι β) (h : s.writer = .injecting []) :
      Step s { s with
        cache := ⟨s.generation, s.invokers, rebuiltPools getURL s.invokers s.routers⟩
        writer := .notifying }
  /-- `SetInvokers` returns. -/
  | unlock (s : State ι β) (h : s.writer = .notifying) : Step s { s with writer := .idle }
  /-- `AddRouters`, with the builtin routers and in any order. -/
  | addRouters (s : State ι β) (routers : List ChainRouter) (h : s.writer = .idle) :
      Step s { s with routers := routers }
  /-- `snapshotInvokers`, the attribute that it sets and the filter by service. -/
  | snapshot (s : State ι β) (hw : s.writer = .idle) (hp : s.position = .start) :
      Step s { s with
        snapshot := s.invokers
        cacheGeneration := if 0 < s.generation then some s.generation else s.cacheGeneration
        cacheDisable := s.cacheDisable || (narrow getURL url (s.invokers.getD [])).2
        position := .snapped (narrow getURL url (s.invokers.getD [])).1 }
  | copyRouters (s : State ι β) (finalInvokers : List ι) (hw : s.writer = .idle)
      (hp : s.position = .snapped finalInvokers) :
      Step s { s with position := .looping finalInvokers s.routers }
  /-- A router that returns without asking the cache: one without pools, or a tag router that has
  nothing to route, no cache yet or may not use it. -/
  | route (s : State ι β) (r : ChainRouter) (finalInvokers result : List ι) (pending : List ChainRouter)
      (hp : s.position = .looping finalInvokers (r :: pending))
      (hskip : ∀ id, r = .tag id → finalInvokers = [] ∨ s.attached r = false ∨ s.cacheDisable = true)
      (hr : Returns matchString getURL url invocation r finalInvokers result) :
      Step s { s with position := .looping result pending, cacheDisable := true }
  /-- A tag router loads its cache and may use it. -/
  | loadCache (s : State ι β) (id : ℕ) (finalInvokers : List ι) (pending : List ChainRouter)
      (hp : s.position = .looping finalInvokers (.tag id :: pending)) (hne : finalInvokers ≠ [])
      (ha : s.attached (.tag id) = true) (hd : s.cacheDisable = false) :
      Step s { s with position := .lookup finalInvokers pending }
  /-- `FindAddrPool` gives a pool of the generation of the snapshot. -/
  | findHit (s : State ι β) (finalInvokers fullInvokers : List ι) (pending : List ChainRouter)
      (pool : Tag.AddrPool β) (hp : s.position = .lookup finalInvokers pending)
      (hpool : s.cache.pools tagName = some pool) (hfull : s.cache.invokers = some fullInvokers)
      (hgen : s.cache.generation = s.cacheGeneration.getD 0) :
      Step s { s with position := .fast pool fullInvokers pending }
  /-- `FindAddrPool` gives no pool or one of another generation. -/
  | findMiss (s : State ι β) (id : ℕ) (finalInvokers result : List ι) (pending : List ChainRouter)
      (hp : s.position = .lookup finalInvokers pending)
      (hmiss : s.cache.pools tagName = none ∨ s.cache.invokers = none ∨ s.cache.generation ≠ s.cacheGeneration.getD 0)
      (hr : Returns matchString getURL url invocation (.tag id) finalInvokers result) :
      Step s { s with position := .looping result pending, cacheDisable := true }
  /-- The fast path returns. -/
  | routeWithPool (s : State ι β) (pool : Tag.AddrPool β) (fullInvokers result : List ι)
      (pending : List ChainRouter) (rules : Tag.RouterConfigs)
      (hp : s.position = .fast pool fullInvokers pending)
      (hr : Tag.routeWithPool matchString getURL rules fullInvokers pool url invocation = .ok result) :
      Step s { s with position := .looping result pending, cacheDisable := true }
  | finish (s : State ι β) (finalInvokers : List ι) (hp : s.position = .looping finalInvokers []) :
      Step s { s with position := .done finalInvokers }

/-- A chain before its first `SetInvokers`, and a `Route` call before its first step.  The invocation
may have attributes from an earlier use. -/
structure Initial (s : State ι β) : Prop where
  calls : s.calls = []
  generation : s.generation = 0
  invokers : s.invokers = none
  cache_generation : s.cache.generation = 0
  cache_invokers : s.cache.invokers = none
  cache_pools : ∀ name, s.cache.pools name = none
  writer : s.writer = .idle
  position : s.position = .start

/-! ## The invariant -/

/-- The list that was current after the first `k` calls of `SetInvokers`. -/
def received (calls : List (Option (List ι))) : ℕ → Option (List ι)
  | 0 => none
  | k + 1 => calls[k]?.join

theorem received_append {calls : List (Option (List ι))} {k : ℕ} (hk : k ≤ calls.length)
    (more : List (Option (List ι))) : received (calls ++ more) k = received calls k := by
  cases k with
  | zero => rfl
  | succ k => rw [received, received, getElem?_append_left (by omega)]

theorem received_concat (calls : List (Option (List ι))) (invokers : Option (List ι)) :
    received (calls ++ [invokers]) (calls.length + 1) = invokers := by
  rw [received, getElem?_concat_length]
  rfl

/-- The cache is what `rebuild` has left after `k` calls. -/
structure CacheOf (calls : List (Option (List ι))) (cache : RouterCache ι β) (k : ℕ) : Prop where
  le : k ≤ calls.length
  generation : cache.generation = UInt64.ofNat k
  invokers : cache.invokers = received calls k
  pool : ∀ pool ∈ cache.pools tagName, pool = Tag.pool getURL ((received calls k).getD [])

/-- `Route` has taken the list of `k` calls, and published their number. -/
structure SnapshotOf (calls : List (Option (List ι))) (snapshot : Option (List ι))
    (published : Option UInt64) (k : ℕ) : Prop where
  le : k ≤ calls.length
  snapshot : snapshot = received calls k
  generation : 0 < UInt64.ofNat k → published = some (UInt64.ofNat k)

/-- A `Route` call that may still use the cache has the whole snapshot in hand, and on the fast path
it has the pool of the snapshot. -/
def PositionOk (s : State ι β) : Prop :=
  match s.position with
  | .start => True
  | .snapped l => s.cacheDisable = false → l = s.snapshot.getD []
  | .looping l _ => s.cacheDisable = false → l = s.snapshot.getD []
  | .lookup l _ => l ≠ [] ∧ l = s.snapshot.getD []
  | .fast pool full _ =>
    s.calls.length < 2 ^ 64 → s.snapshot = some full ∧ pool = Tag.pool getURL full
  | .done _ => True

structure Inv (s : State ι β) : Prop where
  generation : s.generation = UInt64.ofNat s.calls.length
  invokers : s.invokers = received s.calls s.calls.length
  cache : ∃ k, CacheOf getURL s.calls s.cache k
  snapshot : s.position ≠ .start → ∃ k, SnapshotOf s.calls s.snapshot s.cacheGeneration k
  position : PositionOk getURL s

variable {matchString getURL url invocation} {s t : State ι β}

theorem initial_inv (h : Initial s) : Inv getURL s where
  generation := by rw [h.generation, h.calls]; rfl
  invokers := by rw [h.invokers, h.calls]; rfl
  cache := by
    refine ⟨0, ⟨Nat.zero_le _, h.cache_generation, ?_, ?_⟩⟩
    · rw [h.cache_invokers]; rfl
    · intro pool hpool
      rw [h.cache_pools] at hpool
      cases hpool
  snapshot := fun hp => absurd h.position hp
  position := by
    unfold PositionOk
    rw [h.position]
    trivial

theorem rebuiltPools_eq (ivks : Option (List ι)) (rtrs : List ChainRouter) :
    ∀ pool ∈ rebuiltPools (β := β) getURL ivks rtrs tagName, pool = Tag.pool getURL (ivks.getD []) := by
  induction rtrs using reverseRecOn with
  | nil =>
    intro pool hpool
    cases hpool
  | append_singleton rtrs r ih =>
    unfold rebuiltPools at ih ⊢
    rw [foldl_append]
    cases r with
    | tag id =>
      intro pool hpool
      simpa [eq_comm] using hpool
    | other id => exact ih

theorem narrow_eq {l : List ι} (h : (narrow getURL url l).2 = false) : (narrow getURL url l).1 = l := by
  unfold narrow at h ⊢
  dsimp only at h ⊢
  split_ifs at h ⊢ with hempty
  · rfl
  · rw [decide_eq_false_iff_not, not_not] at h
    exact filter_eq_self.2 (length_filter_eq_length_iff.1 h)

theorem eq_of_ofNat_eq {k m : ℕ} (hk : k < 2 ^ 64) (hm : m < 2 ^ 64)
    (h : UInt64.ofNat k = UInt64.ofNat m) : k = m := by
  have := congrArg UInt64.toNat h
  rwa [UInt64.toNat_ofNat_of_lt' hk, UInt64.toNat_ofNat_of_lt' hm] at this

section

variable (hi : Inv getURL s)

include hi

theorem Inv.hit {l full : List ι} {pend : List ChainRouter} {pool : Tag.AddrPool β}
    (hp : s.position = .lookup l pend) (hpool : s.cache.pools tagName = some pool)
    (hfull : s.cache.invokers = some full) (hgen : s.cache.generation = s.cacheGeneration.getD 0)
    (hn : s.calls.length < 2 ^ 64) : s.snapshot = some full ∧ pool = Tag.pool getURL full := by
  obtain ⟨k, hk⟩ := hi.cache
  obtain ⟨m, hm⟩ := hi.snapshot (by rw [hp]; intro h; cases h)
  have hpos := hi.position
  unfold PositionOk at hpos
  rw [hp] at hpos
  -- a list that is not empty comes from some call, whose number was published
  have hm0 : 0 < m := by
    refine Nat.pos_of_ne_zero fun h0 => hpos.1 ?_
    rw [hpos.2, hm.snapshot, h0]
    rfl
  have hpub : s.cacheGeneration = some (UInt64.ofNat m) := by
    refine hm.generation (UInt64.lt_iff_toNat_lt.2 ?_)
    rw [UInt64.toNat_ofNat_of_lt' (hm.le.trans_lt hn)]
    exact hm0
  rw [hk.generation, hpub, Option.getD_some] at hgen
  obtain rfl := eq_of_ofNat_eq (hk.le.trans_lt hn) (hm.le.trans_lt hn) hgen
  have hrec : received s.calls k = some full := hk.invokers.symm.trans hfull
  refine ⟨hm.snapshot.trans hrec, ?_⟩
  have := hk.pool pool hpool
  rwa [hrec] at this

theorem Inv.setInvokers (ivks : Option (List ι)) :
    Inv getURL { s with
      generation := s.generation + 1
      invokers := ivks
      writer := .injecting s.routers
      calls := s.calls ++ [ivks] } where
  generation := by
    rw [hi.generation, length_append, length_singleton, UInt64.ofNat_add]
    rfl
  invokers := by
    rw [length_append, length_singleton, received_concat]
  cache := by
    obtain ⟨k, hk⟩ := hi.cache
    have hrec := received_append hk.le [ivks]
    refine ⟨k, ⟨hk.le.trans (by simp), hk.generation, ?_, ?_⟩⟩
    · rw [hrec]
      exact hk.invokers
    · rw [hrec]
      exact hk.pool
  snapshot := by
    intro hp
    obtain ⟨k, hk⟩ := hi.snapshot hp
    exact ⟨k, ⟨hk.le.trans (by simp), hk.snapshot.trans (received_append hk.le _).symm, hk.generation⟩⟩
  position := by
    have hpos := hi.position
    unfold PositionOk at hpos ⊢
    dsimp only
    split at hpos
    case h_5 =>
      intro hn
      rw [length_append] at hn
      exact hpos (by omega)
    all_goals exact hpos

theorem Inv.rebuilt : CacheOf getURL s.calls
      (⟨s.generation, s.invokers, rebuiltPools getURL s.invokers s.routers⟩ : RouterCache ι β) s.calls.length where
  le := le_refl _
  generation := hi.generation
  invokers := hi.invokers
  pool := by
    rw [← hi.invokers]
    exact rebuiltPools_eq s.invokers s.routers

theorem Inv.taken :
    SnapshotOf s.calls s.invokers
      (if 0 < s.generation then some s.generation else s.cacheGeneration) s.calls.length where
  le := le_refl _
  snapshot := hi.invokers
  generation := by
    intro hpos
    rw [← hi.generation] at hpos ⊢
    exact if_pos hpos

theorem Inv.move (hp : s.position ≠ .start) {p : Position ι β} {d : Bool}
    (hok : PositionOk getURL { s with position := p, cacheDisable := d }) :
    Inv getURL { s with position := p, cacheDisable := d } :=
  ⟨hi.generation, hi.invokers, hi.cache, fun _ => hi.snapshot hp, hok⟩

/-- Every step keeps pools and lists of one generation together. -/
theorem step_inv (h : Step matchString getURL url invocation s t) : Inv getURL t := by
  have hpos := hi.position
  unfold PositionOk at hpos
  cases h with
  | setInvokers ivks h => exact hi.setInvokers ivks
  | setCache r pend h | unlock h | addRouters rtrs h =>
    exact ⟨hi.generation, hi.invokers, hi.cache, hi.snapshot, hi.position⟩
  | rebuild h => exact ⟨hi.generation, hi.invokers, ⟨_, hi.rebuilt⟩, hi.snapshot, hi.position⟩
  | snapshot hw hp =>
    refine ⟨hi.generation, hi.invokers, hi.cache, fun _ => ⟨_, hi.taken⟩, ?_⟩
    intro hd
    exact narrow_eq (Bool.or_eq_false_iff.1 hd).2
  | copyRouters l hw hp =>
    rw [hp] at hpos
    exact hi.move (by simp [hp]) hpos
  -- from the first router on the cache is disabled
  | route r l res pend hp hskip hr | findMiss id l res pend hp hmiss hr
  | routeWithPool pool full res pend rules hp hr =>
    exact hi.move (by simp [hp]) fun hd => Bool.noConfusion hd
  | loadCache id l pend hp hne ha hd =>
    rw [hp] at hpos
    exact hi.move (by simp [hp]) ⟨hne, hpos hd⟩
  | findHit l full pend pool hp hpool hfull hgen =>
    exact hi.move (by simp [hp]) (hi.hit hp hpool hfull hgen)
  | finish l hp => exact hi.move (by simp [hp]) trivial

end

theorem inv_of_reachable (h : Reachable Initial (Step matchString getURL url invocation) s) : Inv getURL s :=
  h.invariant (fun _ => initial_inv) fun _ _ => step_inv

/-- With fewer than `2 ^ 64` `SetInvokers` calls, a tag router on its fast path has the list of the snapshot and the
pool of that list, and so returns invokers of the snapshot. -/
theorem fast_path_on_snapshot (h : Reachable Initial (Step matchString getURL url invocation) s)
    (hn : s.calls.length < 2 ^ 64) {pool : Tag.AddrPool β} {full : List ι}
    {pending : List ChainRouter} (hp : s.position = .fast pool full pending) :
    s.snapshot = some full ∧ pool = Tag.pool getURL full ∧
      ∀ rules result, Tag.routeWithPool matchString getURL rules full pool url invocation =
        .ok result → ∀ i ∈ result, ∃ l, s.snapshot = some l ∧ i ∈ l := by
  have hpos := (inv_of_reachable h).position
  unfold PositionOk at hpos
  rw [hp] at hpos
  obtain ⟨hsnap, hpool⟩ := hpos hn
  refine ⟨hsnap, hpool, fun rules result hr i hi => ⟨full, hsnap, ?_⟩⟩
  exact Tag.routeWithPool_subset matchString getURL hr hi

/-! ## Runs -/

section Runs

variable (matchString getURL url invocation)

/-- The state after `n` calls of `SetInvokers` with the list that nothing interrupts. -/
structure Published (s : State ι β) (l : Option (List ι)) (n : ℕ) (t : State ι β) : Prop where
  generation : t.generation = s.generation + UInt64.ofNat n
  cache : t.cache = ⟨t.generation, l, rebuiltPools getURL l s.routers⟩
  attached : ∀ r ∈ s.routers, t.attached r = true
  invokers : t.invokers = l
  routers : t.routers = s.routers
  writer : t.writer = .idle
  position : t.position = s.position
  snapshot : t.snapshot = s.snapshot
  cacheDisable : t.cacheDisable = s.cacheDisable
  cacheGeneration : t.cacheGeneration = s.cacheGeneration
  calls : t.calls = s.calls ++ List.replicate n l

theorem inject_run (rtrs : List ChainRouter) (s : State ι β)
    (hw : s.writer = .injecting rtrs) :
    ∃ attached, (∀ r, r ∈ rtrs ∨ s.attached r = true → attached r = true) ∧
      Relation.ReflTransGen (Step matchString getURL url invocation) s
        { s with attached := attached, writer := .injecting [] } := by
  induction rtrs generalizing s with
  | nil =>
    refine ⟨s.attached, by simp, ?_⟩
    rw [← hw]
  | cons r rtrs ih =>
    obtain ⟨attached, ha, hrun⟩ := ih
      { s with attached := Function.update s.attached r true, writer := .injecting rtrs } rfl
    refine ⟨attached, fun q hq => ha q ?_, .head (.setCache s r rtrs hw) hrun⟩
    by_cases hqr : q = r
    · right
      simp [hqr]
    · simpa [hqr] using hq

theorem setInvokers_run (hw : s.writer = .idle) (l : Option (List ι)) :
    ∃ t, Relation.ReflTransGen (Step matchString getURL url invocation) s t ∧ Published getURL s l 1 t := by
  have h1 : Step matchString getURL url invocation s _ := .setInvokers s l hw
  obtain ⟨attached, ha, h2⟩ := inject_run matchString getURL url invocation s.routers
    { s with
      generation := s.generation + 1
      invokers := l
      writer := .injecting s.routers
      calls := s.calls ++ [l] } rfl
  have h3 : Step matchString getURL url invocation _ _ := .rebuild
    { s with
      generation := s.generation + 1
      invokers := l
      attached := attached
      writer := .injecting []
      calls := s.calls ++ [l] } rfl
  refine ⟨_, ((Relation.ReflTransGen.head h1 h2).tail h3).tail (.unlock _ rfl), ?_⟩
  exact ⟨rfl, rfl, fun r hr => ha r (.inl hr), rfl, rfl, rfl, rfl, rfl, rfl, rfl, rfl⟩

theorem setInvokers_runs (hw : s.writer = .idle) (l : Option (List ι)) (n : ℕ) :
    ∃ t, Relation.ReflTransGen (Step matchString getURL url invocation) s t ∧ Published getURL s l (n + 1) t := by
  induction n with
  | zero => exact setInvokers_run matchString getURL url invocation hw l
  | succ n ih =>
    obtain ⟨t, hst, ht⟩ := ih
    obtain ⟨u, htu, hu⟩ := setInvokers_run matchString getURL url invocation ht.writer l
    refine ⟨u, hst.trans htu, ⟨?_, ?_, ?_, hu.invokers, hu.routers.trans ht.routers, hu.writer,
      hu.position.trans ht.position, hu.snapshot.trans ht.snapshot,
      hu.cacheDisable.trans ht.cacheDisable, hu.cacheGeneration.trans ht.cacheGeneration, ?_⟩⟩
    · rw [hu.generation, ht.generation, add_assoc, ← UInt64.ofNat_add]
    · rw [hu.cache, ht.routers]
    · rw [← ht.routers]
      exact hu.attached
    · rw [hu.calls, ht.calls, append_assoc, ← replicate_add]

theorem fast_run {id : ℕ} {l full : List ι} {pend : List ChainRouter} {pool : Tag.AddrPool β}
    (hp : s.position = .looping l (.tag id :: pend)) (hl : l ≠ [])
    (ha : s.attached (.tag id) = true) (hd : s.cacheDisable = false)
    (hpool : s.cache.pools tagName = some pool) (hfull : s.cache.invokers = some full)
    (hgen : s.cache.generation = s.cacheGeneration.getD 0) :
    Relation.ReflTransGen (Step matchString getURL url invocation) s
      { s with position := .fast pool full pend } := by
  have h1 : Step matchString getURL url invocation s _ := .loadCache s id l pend hp hl ha hd
  have h2 : Step matchString getURL url invocation _ _ :=
    .findHit { s with position := .lookup l pend } l full pend pool rfl hpool hfull hgen
  exact (Relation.ReflTransGen.single h1).tail h2

end Runs

/-! ## Two runs of a chain with a tag router -/

def newChain : State Bool (Finset UInt32) where
  invokers := none
  routers := [.tag 0]
  generation := 0
  cache := ⟨0, none, fun _ => none⟩
  attached := fun _ => false
  writer := .idle
  position := .start
  snapshot := none
  cacheDisable := false
  cacheGeneration := none
  calls := []

abbrev ExampleStep : State Bool (Finset UInt32) → State Bool (Finset UInt32) → Prop :=
  Step (fun _ _ => false) (fun _ => Tag.providerAt []) (Tag.providerAt []) (.new [] [] fun _ => none)

theorem exists_routing : ∃ s, Reachable Initial ExampleStep s ∧
    s.position = .looping [false] [.tag 0] ∧ s.snapshot = some [false] ∧ s.routers = [.tag 0] ∧
    s.cacheDisable = false ∧ s.cacheGeneration = some 1 ∧ s.generation = 1 ∧ s.writer = .idle ∧
    s.attached (.tag 0) = true ∧ s.calls = [some [false]] ∧
    s.cache = ⟨1, some [false], rebuiltPools (fun _ => Tag.providerAt []) (some [false]) [.tag 0]⟩ := by
  have h0 : Reachable Initial ExampleStep newChain :=
    .init ⟨rfl, rfl, rfl, rfl, rfl, fun _ => rfl, rfl, rfl⟩
  obtain ⟨s, hs, h⟩ := setInvokers_run (fun _ _ => false) (fun _ => Tag.providerAt [])
    (Tag.providerAt []) (.new [] [] fun _ => none) (s := newChain) rfl (some [false])
  have hgen : s.generation = 1 := h.generation
  have hinv : s.invokers.getD [] = [false] := by rw [h.invokers]; rfl
  have hnarrow : narrow (fun _ => Tag.providerAt []) (Tag.providerAt []) [false] = ([false], false) := rfl
  have h1 : ExampleStep s { s with
      snapshot := s.invokers
      cacheGeneration := if 0 < s.generation then some s.generation else s.cacheGeneration
      cacheDisable := s.cacheDisable || (narrow (fun _ => Tag.providerAt []) (Tag.providerAt [])
        (s.invokers.getD [])).2
      position := .snapped (narrow (fun _ => Tag.providerAt []) (Tag.providerAt [])
        (s.invokers.getD [])).1 } := .snapshot s h.writer h.position
  rw [hinv, hnarrow, hgen, h.cacheDisable, h.invokers] at h1
  refine ⟨_, ((h0.trans hs).step h1).step (.copyRouters _ [false] h.writer rfl), ?_⟩
  refine ⟨congrArg _ h.routers, rfl, h.routers, rfl, rfl, rfl, h.writer, h.attached _ mem_cons_self, h.calls, ?_⟩
  rw [← hgen]
  exact h.cache

/-- The fast path on the list of the snapshot. -/
theorem fast_path_reached : ∃ s, Reachable Initial ExampleStep s ∧ s.calls.length < 2 ^ 64 ∧
    ∃ pool, s.position = .fast pool [false] [] ∧ s.snapshot = some [false] ∧
      pool = Tag.pool (fun _ => Tag.providerAt []) [false] := by
  obtain ⟨s, hs, hpos, -, -, hd, hpub, -, -, ha, hcalls, hcache⟩ := exists_routing
  have hrun := fast_run (fun _ _ => false) (fun _ => Tag.providerAt []) (Tag.providerAt [])
    (.new [] [] fun _ => none) hpos (by decide) ha hd (by rw [hcache]; rfl) (by rw [hcache])
    (by rw [hcache, hpub]; rfl)
  have hreach := hs.trans hrun
  have hn : s.calls.length < 2 ^ 64 := by rw [hcalls]; decide
  obtain ⟨hsnap, hpool, -⟩ := fast_path_on_snapshot hreach hn rfl
  exact ⟨_, hreach, hn, _, rfl, hsnap, hpool⟩

/-- After `2 ^ 64` further calls the generation is that of the snapshot again, and the fast path
works on the list of the last of them. -/
theorem fast_path_on_later_list : ∃ s, Reachable Initial ExampleStep s ∧
    ∃ pool, s.position = .fast pool [true] [] ∧ s.snapshot = some [false] := by
  obtain ⟨s, hs, hpos, hsnap, hrouters, hd, hpub, hgen, hw, -, -, -⟩ := exists_routing
  obtain ⟨t, hst, ht⟩ := setInvokers_runs (fun _ _ => false) (fun _ => Tag.providerAt [])
    (Tag.providerAt []) (.new [] [] fun _ => none) hw (some [true]) (2 ^ 64 - 1)
  have hwrap : t.generation = 1 := by rw [ht.generation, hgen]; rfl
  have hcache := ht.cache
  rw [hrouters] at hcache
  have hrun := fast_run (fun _ _ => false) (fun _ => Tag.providerAt []) (Tag.providerAt [])
    (.new [] [] fun _ => none) (ht.position.trans hpos) (by decide)
    (ht.attached _ (by rw [hrouters]; exact mem_cons_self)) (ht.cacheDisable.trans hd)
    (by rw [hcache]; rfl) (by rw [hcache]) (by rw [hcache, hwrap, ht.cacheGeneration, hpub]; rfl)
  exact ⟨_, (hs.trans hst).trans hrun, _, rfl, ht.snapshot.trans hsnap⟩

/-! ## The order of the routers -/

/-- A router with what the chain sorts by. -/
inductive PriorityRouter where
  /-- `affinityRoute`; its `Priority` is to make it the last router of the chain. -/
  | affinity (id : ℕ)
  | other (id : ℕ) (priority : Int64)
  deriving DecidableEq

namespace PriorityRouter

def isAffinity : PriorityRouter → Bool
  | affinity _ => true
  | other _ _ => false

def priority : PriorityRouter → Int64
  | affinity _ => Int64.minValue
  | other _ priority => priority

end PriorityRouter

/-- `byPriority`, with equal routers either way round. -/
def PriorityRouter.Before (a b : PriorityRouter) : Prop := a.priority ≤ b.priority

instance decidableBefore (a b : PriorityRouter) : Decidable (a.Before b) := inferInstanceAs (Decidable (_ ≤ _))

instance : Std.Total PriorityRouter.Before := ⟨fun _ _ => Int64.le_total _ _⟩

instance : IsTrans PriorityRouter PriorityRouter.Before := ⟨fun _ _ _ => Int64.le_trans⟩

/-- `sort.Stable(byPriority(routers))`; an insertion sort keeps the order of equal routers as well. -/
def sortRouter (routers : List PriorityRouter) : List PriorityRouter := routers.insertionSort PriorityRouter.Before

/-- The two lists of a `RouterChain`. -/
structure Routers where
  routers : List PriorityRouter
  builtinRouters : List PriorityRouter

/-- `NewRouterChain`, with the routers that the factories have made. -/
def newRouterChain (routers : List PriorityRouter) : Routers := ⟨sortRouter routers, routers⟩

def Routers.addRouters (c : Routers) (routers : List PriorityRouter) : Routers :=
  { c with routers := sortRouter (c.builtinRouters ++ routers) }

/-- No other router stands behind an affinity router. -/
def AffinityLast (routers : List PriorityRouter) : Prop :=
  routers.Pairwise fun a b => a.isAffinity = true → b.isAffinity = true

theorem sortRouter_of_forall {l : List PriorityRouter} (h : ∀ r ∈ l, r.priority = Int64.minValue) :
    sortRouter l = l := by
  refine List.Pairwise.insertionSort_eq (List.pairwise_of_forall_mem_list fun a ha b hb => ?_)
  rw [PriorityRouter.Before, h a ha, h b hb]
  exact Int64.le_refl _

theorem PriorityRouter.priority_of_isAffinity {r : PriorityRouter} (h : r.isAffinity = true) :
    r.priority = Int64.minValue := by
  cases r with
  | affinity => rfl
  | other => cases h

theorem priority_of_affinityLast {l : List PriorityRouter} (haffinity : ∃ r ∈ l, r.isAffinity = true)
    (hlast : AffinityLast (sortRouter l)) {r : PriorityRouter} (hr : r ∈ l) : r.priority = Int64.minValue := by
  obtain ⟨a, ha, haffinity⟩ := haffinity
  have hmem : r ∈ sortRouter l := (List.mem_insertionSort _).2 hr
  have hsorted : (sortRouter l).Pairwise PriorityRouter.Before := List.pairwise_insertionSort _ l
  obtain ⟨s, t, hsplit⟩ : ∃ s t, sortRouter l = s ++ a :: t := List.append_of_mem ((List.mem_insertionSort _).2 ha)
  rw [AffinityLast, hsplit] at hlast
  rw [hsplit] at hsorted hmem
  rcases List.mem_append.1 hmem with hbefore | hafter
  · have hle := (List.pairwise_append.1 hsorted).2.2 r hbefore a List.mem_cons_self
    rw [PriorityRouter.Before, PriorityRouter.priority_of_isAffinity haffinity] at hle
    exact Int64.le_antisymm hle (Int64.minValue_le _)
  · rcases List.mem_cons.1 hafter with rfl | hafter
    · exact PriorityRouter.priority_of_isAffinity haffinity
    · have hpairwise := List.pairwise_cons.1 (List.pairwise_append.1 hlast).2.1
      exact PriorityRouter.priority_of_isAffinity (hpairwise.1 r hafter haffinity)

/-- However the list of a chain has been built, its affinity routers are the last ones only if every router has the
smallest priority, and the routers were given in that order. -/
theorem affinity_last_iff (builtinRouters routers : List PriorityRouter)
    (haffinity : ∃ r ∈ builtinRouters ++ routers, r.isAffinity = true) :
    AffinityLast ((newRouterChain builtinRouters).addRouters routers).routers ↔
      (∀ r ∈ builtinRouters ++ routers, r.priority = Int64.minValue) ∧ AffinityLast (builtinRouters ++ routers) := by
  change AffinityLast (sortRouter (builtinRouters ++ routers)) ↔ _
  constructor
  · intro hlast
    have hall := fun r => priority_of_affinityLast haffinity hlast (r := r)
    exact ⟨hall, sortRouter_of_forall hall ▸ hlast⟩
  · rintro ⟨hall, hlast⟩
    rw [sortRouter_of_forall hall]
    exact hlast

theorem affinity_last_smallest :
    AffinityLast ((newRouterChain [.other 0 Int64.minValue]).addRouters [.affinity 1]).routers :=
  (affinity_last_iff [.other 0 Int64.minValue] [.affinity 1] ⟨.affinity 1, by simp, rfl⟩).2
    ⟨by decide, by simp [AffinityLast, PriorityRouter.isAffinity]⟩

/-- With a router of priority 0 the affinity router is the first one. -/
theorem affinity_first : (newRouterChain [.other 0 0, .affinity 1]).routers = [.affinity 1, .other 0 0] := by
  decide

end DubboGo.Router.Chain
