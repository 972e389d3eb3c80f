import DubboGo.ConfigCenter.Override
import DubboGo.Go.Slice
import DubboGo.Lib.Pool

/-!
# Registering and unregistering instances

`RegisterService`, `UnRegisterService` and `UnRegister` of
`registry/servicediscovery/service_discovery_registry.go` as goroutines.  A step of a goroutine is one
section under `s.lock` or one call of the backend, with what the goroutine does on its own before it.
-/

namespace DubboGo.Registry.Registration

open Go Common Lib ConfigCenter List Multiset FiniteMap Finmap

def sideProvider : Str := str "provider"

def shouldRegister (url : ServiceURL) : Bool := url.getParam sideKey [] == sideProvider

/-! ## The registry and its goroutines -/

/-- The part of a `serviceDiscoveryRegistry` for instances, which are numbered as they are made.  Those whose
`Register` has succeeded, and whose `Unregister` has not since, are history, each with its URL. -/
structure State where
  arrays : Arrays ℕ
  instances : Slice
  instanceURLs : FiniteMap ℕ ServiceURL
  next : ℕ
  registered : FiniteMap ℕ ServiceURL

/-- The variables of `unregisterService`. -/
structure Pass where
  origin : Slice
  keep : Slice
  index : ℕ
  keepInstanceURLs : FiniteMap ℕ ServiceURL

inductive Stage where
  | returned
  /-- `RegisterService` registers the next of its instances. -/
  | registering (todo : List (ℕ × ServiceURL))
  /-- The section in which it adds an instance to the list. -/
  | recording (inst : ℕ) (url : ServiceURL) (todo : List (ℕ × ServiceURL))
  /-- The first section of `unregisterService`. -/
  | starting
  /-- It unregisters the next instance or, after those, comes to its last section. -/
  | unregistering (pass : Pass)
  /-- It keeps an instance that could not be unregistered. -/
  | keeping (v : ℕ) (pass : Pass)

namespace Stage

def isReturned : Stage → Bool
  | .returned => true
  | _ => false

def pass? : Stage → Option Pass
  | .unregistering pass => some pass
  | .keeping _ pass => some pass
  | _ => none

def usesInstances : Stage → Bool
  | .recording _ _ _ => true
  | .starting => true
  | _ => false

end Stage

inductive Request where
  /-- `RegisterService` with the URLs that are exported; the metadata of the application, if it has to be
  published first, is or is not. -/
  | registerService (urls : List ServiceURL) (published : Bool)
  | unRegisterService
  | unRegister (url : ServiceURL)

namespace State

/-- `newServiceDiscoveryRegistry`. -/
def new : State where
  arrays := .empty
  instances := .nil
  instanceURLs := ∅
  next := 0
  registered := ∅

def listed (s : State) : List ℕ := s.instances.toList s.arrays

/-- The instances that `createInstance` makes for URLs. -/
def createInstances (next : ℕ) (urls : List ServiceURL) : List (ℕ × ServiceURL) :=
  (List.range' next urls.length).zip urls

def start (next : ℕ) : Request → Stage × ℕ
  | .registerService urls published =>
    if urls = [] then (.returned, next)
    else if published then (.registering (createInstances next urls), next + urls.length)
    else (.returned, next + urls.length)
  | .unRegisterService => (.starting, next)
  | .unRegister url => (if shouldRegister url then .starting else .returned, next)

/-- The section of `RegisterService` after the backend has registered an instance. -/
def record (room : ℕ) (inst : ℕ) (url : ServiceURL) (s : State) : State :=
  { s with
    arrays := (s.instances.append room s.arrays inst).2
    instances := (s.instances.append room s.arrays inst).1
    instanceURLs := s.instanceURLs.insert inst url }

/-- The variables of `unregisterService` after its first section. -/
def firstPass (s : State) : Pass where
  origin := s.instances
  keep := s.instances.upTo 0 (Nat.zero_le _)
  index := 0
  keepInstanceURLs := ∅

/-- The variables of `unregisterService` after it has kept an instance. -/
def keptPass (room : ℕ) (v : ℕ) (pass : Pass) (s : State) : Pass where
  origin := pass.origin
  keep := (pass.keep.append room s.arrays v).1
  index := pass.index + 1
  keepInstanceURLs :=
    match s.instanceURLs.lookup v with
    | some sourceURL => pass.keepInstanceURLs.insert v sourceURL
    | none => pass.keepInstanceURLs

/-- The next step of a goroutine, in which a call of the backend succeeds or fails, and an array that is
allocated has room for some more elements. -/
def advance (ok : Bool) (room : ℕ) (s : State) : Stage → Option (State × Stage)
  | .returned => none
  | .registering [] => some (s, .returned)
  | .registering ((inst, url) :: todo) =>
    if ok then some ({ s with registered := s.registered.insert inst url }, .recording inst url todo)
    else some (s, .returned)
  | .recording inst url todo => some (s.record room inst url, .registering todo)
  | .starting => some (s, .unregistering s.firstPass)
  | .unregistering pass =>
    match (pass.origin.toList s.arrays)[pass.index]? with
    | none => some ({ s with instances := pass.keep, instanceURLs := pass.keepInstanceURLs }, .returned)
    | some v =>
      if ok then
        some ({ s with registered := s.registered.erase v }, .unregistering { pass with index := pass.index + 1 })
      else some (s, .keeping v pass)
  | .keeping v pass =>
    some ({ s with arrays := (pass.keep.append room s.arrays v).2 }, .unregistering (s.keptPass room v pass))

end State

inductive Action where
  | call (request : Request)
  | advance (i : ℕ) (ok : Bool) (room : ℕ)

abbrev System := Pool State Stage

namespace System

def idle : System where
  shared := .new
  threads := []

def step (s : System) : Action → Option System
  | .call request =>
    some (s.spawn { s.shared with next := (State.start s.shared.next request).2 }
      (State.start s.shared.next request).1)
  | .advance i ok room => s.advance (State.advance ok room) i

def AllReturned (s : System) : Prop := ∀ stage ∈ s.threads, stage.isReturned = true

instance AllReturned.decidable (s : System) : Decidable (AllReturned s) :=
  inferInstanceAs (Decidable (∀ stage ∈ s.threads, stage.isReturned = true))

def NoPass (s : System) : Prop := ∀ stage ∈ s.threads, stage.pass?.isNone = true

instance NoPass.decidable (s : System) : Decidable (NoPass s) :=
  inferInstanceAs (Decidable (∀ stage ∈ s.threads, stage.pass?.isNone = true))

/-- While an unregistration is between its first and its last section, no instance is appended to the
list, and no other unregistration starts on it. -/
def Undisturbed (s : System) : Action → Prop
  | .call _ => True
  | .advance i _ _ => s.threads[i]?.any Stage.usesInstances = true → NoPass s

instance Undisturbed.decidable (s : System) (action : Action) : Decidable (Undisturbed s action) :=
  match action with
  | .call _ => inferInstanceAs (Decidable True)
  | .advance _ _ _ => inferInstanceAs (Decidable (_ → NoPass s))

end System

/-! ## Where the instances are -/

/-- An unregistration has instances to keep, no more than it has been through, at the front of the array
that it goes through, and their URLs. -/
structure Pass.Valid (mem : Arrays ℕ) (pass : Pass) : Prop where
  array_eq : pass.keep.array = pass.origin.array
  keep_le : pass.keep.len ≤ pass.index
  origin_le : pass.origin.len ≤ pass.keep.cap
  mem_keep : ∀ v ∈ pass.keepInstanceURLs, v ∈ pass.keep.toList mem

namespace State

variable {s : State} {room : ℕ}

/-- What is listed, with the URLs: while an unregistration goes on, what it keeps and what it has not yet
come to. -/
def listing (s : State) : Option Pass → Multiset (ℕ × Option ServiceURL)
  | none => FiniteMap.graphOn s.instanceURLs s.listed
  | some pass => FiniteMap.graphOn pass.keepInstanceURLs (pass.keep.toList s.arrays) +
      FiniteMap.graphOn s.instanceURLs ((pass.origin.toList s.arrays).drop pass.index : List ℕ)

/-- Every instance that is registered is listed, or has yet to be, and others are yet to be registered.
`pass` is the unregistration that goes on. -/
structure Accounts (s : State) (unregistered : Multiset ℕ) (unlisted : Multiset (ℕ × Option ServiceURL))
    (pass : Option Pass) : Prop where
  nodup : (s.registered.keys.val + unregistered).Nodup
  lt_next : ∀ v ∈ s.registered.keys.val + unregistered, v < s.next
  graph_eq : FiniteMap.graph s.registered = s.listing pass + unlisted
  mem_listed : pass = none → ∀ v ∈ s.instanceURLs, v ∈ s.listed
  valid : ∀ p, pass = some p → p.Valid s.arrays

namespace Accounts

variable {unreg : Multiset ℕ} {unlisted : Multiset (ℕ × Option ServiceURL)} {pass : Option Pass} {p : Pass}

theorem new : Accounts new 0 0 none where
  nodup := nodup_zero
  lt_next := by
    intro v hv
    exact absurd hv (notMem_zero v)
  graph_eq := rfl
  mem_listed := by
    intro _ v hv
    exact absurd hv notMem_empty
  valid := by
    intro p hp
    cases hp

theorem nodup_fst (h : Accounts s unreg unlisted pass) : ((s.listing pass + unlisted).map Prod.fst).Nodup := by
  rw [← h.graph_eq, graph, FiniteMap.map_fst_graphOn]
  exact s.registered.keys.nodup

theorem create {next : ℕ} {insts : Multiset ℕ} (h : Accounts s unreg unlisted pass)
    (hle : s.next ≤ next) (hnodup : insts.Nodup) (hnew : ∀ v ∈ insts, s.next ≤ v ∧ v < next) :
    Accounts { s with next := next } (insts + unreg) unlisted pass := by
  refine ⟨?_, ?_, h.graph_eq, h.mem_listed, h.valid⟩
  · rw [add_left_comm, nodup_add]
    refine ⟨hnodup, h.nodup, disjoint_left.2 fun {v} hv hold => ?_⟩
    have hge := (hnew v hv).1
    have hlt := h.lt_next v hold
    omega
  · intro v hv
    rw [add_left_comm] at hv
    rcases Multiset.mem_add.1 hv with hv | hv
    · exact (hnew v hv).2
    · exact (h.lt_next v hv).trans_le hle

theorem abandon {unreg' : Multiset ℕ} (h : Accounts s unreg unlisted pass)
    (hle : unreg' ≤ unreg) : Accounts s unreg' unlisted pass := by
  have hsum : s.registered.keys.val + unreg' ≤ s.registered.keys.val + unreg := by gcongr
  exact ⟨nodup_of_le hsum h.nodup, fun v hv => h.lt_next v (mem_of_le hsum hv), h.graph_eq, h.mem_listed, h.valid⟩

theorem register {inst : ℕ} (url : ServiceURL) (h : Accounts s (inst ::ₘ unreg) unlisted pass) :
    Accounts { s with registered := s.registered.insert inst url } unreg
      ((inst, some url) ::ₘ unlisted) pass := by
  have hnodup := h.nodup
  have hlt := h.lt_next
  rw [Multiset.add_cons] at hnodup hlt
  have hnew : inst ∉ s.registered := by
    intro hmem
    exact (Multiset.nodup_cons.1 hnodup).1 (Multiset.mem_add.2 (.inl (mem_keys.2 hmem)))
  refine ⟨?_, ?_, ?_, h.mem_listed, h.valid⟩
  · rwa [keys_insert_val hnew url, cons_add]
  · rwa [keys_insert_val hnew url, cons_add]
  · rw [graph_insert hnew url, h.graph_eq, Multiset.add_cons]
    rfl

theorem record {inst : ℕ} {url : ServiceURL} (h : Accounts s unreg ((inst, some url) ::ₘ unlisted) none) :
    Accounts (s.record room inst url) unreg unlisted none := by
  have hnew : inst ∉ (s.listed : Multiset ℕ) := by
    have hnodup := h.nodup_fst
    rw [listing, Multiset.map_add, FiniteMap.map_fst_graphOn, Multiset.map_cons, Multiset.add_cons,
      Multiset.nodup_cons] at hnodup
    exact fun hmem => hnodup.1 (Multiset.mem_add.2 (.inl hmem))
  have hlisted : ((s.record room inst url).listed : Multiset ℕ) = inst ::ₘ s.listed := by
    rw [listed, State.record, Slice.toList_append, listed, cons_coe, coe_eq_coe]
    exact perm_append_singleton inst _
  refine ⟨h.nodup, h.lt_next, ?_, ?_, ?_⟩
  · rw [listing, hlisted, graphOn_cons, State.record, Finmap.lookup_insert,
      graphOn_insert_of_notMem hnew, h.graph_eq, listing, Multiset.add_cons, cons_add]
  · intro _ v hv
    rw [← Multiset.mem_coe, hlisted, Multiset.mem_cons, Multiset.mem_coe]
    rcases Finmap.mem_insert.1 hv with heq | hv
    · exact .inl heq
    · exact .inr (h.mem_listed rfl v hv)
  · intro p hp
    cases hp

theorem start (h : Accounts s unreg unlisted none) : Accounts s unreg unlisted (some s.firstPass) := by
  refine ⟨h.nodup, h.lt_next, ?_, ?_, ?_⟩
  · rw [h.graph_eq, listing, listing, firstPass, Slice.toList_upTo_zero, drop_zero, coe_nil, graphOn_zero, zero_add]
    rfl
  · intro hp
    cases hp
  · intro p hp
    cases hp
    exact ⟨rfl, le_rfl, s.instances.len_le_cap, fun v hv => absurd hv notMem_empty⟩

variable (h : Accounts s unreg unlisted (some p))

include h

theorem finish (hend : (p.origin.toList s.arrays)[p.index]? = none) :
    Accounts { s with instances := p.keep, instanceURLs := p.keepInstanceURLs } unreg unlisted
      none := by
  have hdrop : (p.origin.toList s.arrays).drop p.index = [] :=
    drop_eq_nil_of_le (getElem?_eq_none_iff.1 hend)
  refine ⟨h.nodup, h.lt_next, ?_, ?_, ?_⟩
  · have hgraph := h.graph_eq
    rw [listing, hdrop, coe_nil, graphOn_zero, add_zero] at hgraph
    exact hgraph
  · intro _ v hv
    exact (h.valid p rfl).mem_keep v hv
  · intro q hq
    cases hq

theorem graph_eq_cons {v : ℕ} (hv : (p.origin.toList s.arrays)[p.index]? = some v) :
    v ∈ s.registered ∧ s.registered.lookup v = s.instanceURLs.lookup v ∧
      graph s.registered = (v, s.instanceURLs.lookup v) ::ₘ
        (s.listing (some { p with index := p.index + 1 }) + unlisted) := by
  obtain ⟨hlt, heq⟩ := List.getElem?_eq_some_iff.1 hv
  have hgraph := h.graph_eq
  rw [listing, List.drop_eq_getElem_cons hlt, heq, ← cons_coe, graphOn_cons,
    Multiset.add_cons, cons_add] at hgraph
  have hmem : (v, s.instanceURLs.lookup v) ∈ graph s.registered := by
    rw [hgraph]
    exact mem_cons_self _ _
  obtain ⟨hreg, hlookup⟩ := mem_graph.1 hmem
  exact ⟨hreg, hlookup, hgraph⟩

theorem unregister {v : ℕ} (hv : (p.origin.toList s.arrays)[p.index]? = some v) :
    Accounts { s with registered := s.registered.erase v } unreg unlisted
      (some { p with index := p.index + 1 }) := by
  obtain ⟨hreg, hlookup, hgraph⟩ := h.graph_eq_cons hv
  have hvalid := h.valid p rfl
  have hle : (s.registered.erase v).keys.val + unreg ≤ s.registered.keys.val + unreg := by
    rw [keys_erase, Finset.erase_val]
    gcongr
    exact erase_le v _
  refine ⟨nodup_of_le hle h.nodup, fun w hw => h.lt_next w (mem_of_le hle hw), ?_, ?_, ?_⟩
  · rw [graph_erase hreg, hlookup] at hgraph
    exact (Multiset.cons_inj_right _).1 hgraph
  · intro hp
    cases hp
  · intro q hq
    cases hq
    exact ⟨hvalid.array_eq, hvalid.keep_le.trans (Nat.le_succ _), hvalid.origin_le, hvalid.mem_keep⟩

theorem keep {v : ℕ} (hv : (p.origin.toList s.arrays)[p.index]? = some v) :
    Accounts { s with arrays := (p.keep.append room s.arrays v).2 } unreg unlisted
      (some (s.keptPass room v p)) := by
  obtain ⟨hreg, hlookup, hgraph⟩ := h.graph_eq_cons hv
  obtain ⟨url, hurl⟩ := mem_iff.1 hreg
  have hvalid := h.valid p rfl
  have hindex : p.index < p.origin.len := by
    rw [← Slice.length_toList s.arrays p.origin]
    exact (List.getElem?_eq_some_iff.1 hv).1
  have hroom : p.keep.len < p.keep.cap := by
    have hkeep := hvalid.keep_le
    have horigin := hvalid.origin_le
    omega
  have hdrop := Slice.drop_toList_append room s.arrays v hroom hvalid.array_eq.symm (Nat.lt_succ_of_le hvalid.keep_le)
  have hkept : ((s.keptPass room v p).keep.toList (p.keep.append room s.arrays v).2 : Multiset ℕ) =
      v ::ₘ p.keep.toList s.arrays := by
    rw [keptPass, Slice.toList_append, cons_coe, coe_eq_coe]
    exact perm_append_singleton v _
  have hurls : (s.keptPass room v p).keepInstanceURLs = p.keepInstanceURLs.insert v url := by
    rw [keptPass, ← hlookup, hurl]
  have hnew : v ∉ (p.keep.toList s.arrays : Multiset ℕ) := by
    have hnodup := h.nodup_fst
    rw [← h.graph_eq, hgraph, Multiset.map_cons, Multiset.nodup_cons, listing, Multiset.map_add,
      Multiset.map_add, FiniteMap.map_fst_graphOn] at hnodup
    exact fun hmem => hnodup.1 (Multiset.mem_add.2 (.inl (Multiset.mem_add.2 (.inl hmem))))
  refine ⟨h.nodup, h.lt_next, ?_, ?_, ?_⟩
  · rw [hgraph, ← hlookup, hurl, listing, listing, hkept, hurls, graphOn_cons,
      Finmap.lookup_insert, graphOn_insert_of_notMem hnew, cons_add,
      cons_add]
    dsimp only [keptPass]
    rw [hdrop]
  · intro hp
    cases hp
  · intro q hq
    cases hq
    refine ⟨?_, ?_, ?_, ?_⟩
    · dsimp only [keptPass]
      rw [Slice.append_of_lt room s.arrays p.keep v hroom]
      exact hvalid.array_eq
    · dsimp only [keptPass]
      rw [Slice.append_of_lt room s.arrays p.keep v hroom]
      exact Nat.succ_le_succ hvalid.keep_le
    · dsimp only [keptPass]
      rw [Slice.append_of_lt room s.arrays p.keep v hroom]
      exact hvalid.origin_le
    · intro w hw
      rw [← Multiset.mem_coe, hkept, Multiset.mem_cons, Multiset.mem_coe]
      rw [hurls] at hw
      rcases Finmap.mem_insert.1 hw with heq | hw
      · exact .inl heq
      · exact .inr (hvalid.mem_keep w hw)

end Accounts

end State

/-! ## Instances are not forgotten -/

def Stage.unregistered : Stage → Multiset ℕ
  | .registering todo => (todo.map Prod.fst : List ℕ)
  | .recording _ _ todo => (todo.map Prod.fst : List ℕ)
  | _ => 0

def Stage.unlisted : Stage → Multiset (ℕ × Option ServiceURL)
  | .recording inst url _ => {(inst, some url)}
  | _ => 0

def Stage.Current (mem : Arrays ℕ) : Stage → Prop
  | .keeping v p => (p.origin.toList mem)[p.index]? = some v
  | _ => True

namespace State

variable {s t : State} {ok : Bool} {room : ℕ} {a b : Stage} {stages : Multiset Stage} {pass : Option Pass} {p : Pass}

/-- The instances are accounted for by the list and by the goroutines, of which at most one is at an
unregistration. -/
structure Consistent (s : State) (stages : Multiset Stage) (pass : Option Pass) : Prop where
  only : stages.filterMap Stage.pass? = pass.toList
  accounts : Accounts s (stages.map Stage.unregistered).sum (stages.map Stage.unlisted).sum pass
  current : ∀ stage ∈ stages, stage.Current s.arrays

namespace Consistent

theorem current_of_none (h : stages.filterMap Stage.pass? = 0) (mem : Arrays ℕ) : ∀ st ∈ stages, st.Current mem := by
  intro st hstage
  cases st with
  | keeping v p =>
    have hp : p ∈ stages.filterMap Stage.pass? := (mem_filterMap _ _).2 ⟨_, hstage, rfl⟩
    rw [h] at hp
    exact absurd hp (notMem_zero p)
  | _ => exact trivial

theorem start_cases (next : ℕ) (req : Request) : (start next req).1.pass? = none ∧ (start next req).1.unlisted = 0 ∧
      (∀ mem, (start next req).1.Current mem) ∧ (start next req).1.unregistered.Nodup ∧ next ≤ (start next req).2 ∧
      ∀ v ∈ (start next req).1.unregistered, next ≤ v ∧ v < (start next req).2 := by
  have hzero : ∀ n v : ℕ, v ∈ (0 : Multiset ℕ) → next ≤ v ∧ v < n :=
    fun n v hv => absurd hv (notMem_zero v)
  cases req with
  | registerService urls pub =>
    rw [start]
    split_ifs
    · exact ⟨rfl, rfl, fun _ => trivial, nodup_zero, le_rfl, hzero next⟩
    · have hfst : (createInstances next urls).map Prod.fst = range' next urls.length :=
        map_fst_zip (by rw [length_range'])
      refine ⟨rfl, rfl, fun _ => trivial, ?_, Nat.le_add_right _ _, ?_⟩
      · rw [Stage.unregistered, hfst]
        exact coe_nodup.2 (nodup_range' (h := Nat.one_pos))
      · intro v hv
        rw [Stage.unregistered, hfst, Multiset.mem_coe, mem_range'_1] at hv
        exact hv
    · exact ⟨rfl, rfl, fun _ => trivial, nodup_zero, Nat.le_add_right _ _, hzero _⟩
  | unRegisterService => exact ⟨rfl, rfl, fun _ => trivial, nodup_zero, le_rfl, hzero next⟩
  | unRegister url =>
    rw [start]
    split_ifs <;> exact ⟨rfl, rfl, fun _ => trivial, nodup_zero, le_rfl, hzero next⟩

theorem call (h : Consistent s stages pass) (req : Request) :
    Consistent { s with next := (start s.next req).2 } ((start s.next req).1 ::ₘ stages) pass := by
  obtain ⟨hpass, hunlisted, hcurrent, hnodup, hle, hnew⟩ := start_cases s.next req
  refine ⟨?_, ?_, ?_⟩
  · rw [filterMap_cons_none _ _ hpass, h.only]
  · simp only [Multiset.map_cons, Multiset.sum_cons, hunlisted, zero_add]
    exact h.accounts.create hle hnodup hnew
  · intro st hstage
    rcases Multiset.mem_cons.1 hstage with rfl | hstage
    · exact hcurrent _
    · exact h.current st hstage

theorem accounts_cons (h : Consistent s (a ::ₘ stages) pass) :
    Accounts s (a.unregistered + (stages.map Stage.unregistered).sum)
      (a.unlisted + (stages.map Stage.unlisted).sum) pass := by
  have haccounts := h.accounts
  rwa [Multiset.map_cons, Multiset.map_cons, Multiset.sum_cons, Multiset.sum_cons] at haccounts

theorem cons (honly : (b ::ₘ stages).filterMap Stage.pass? = pass.toList)
    (haccounts : Accounts s (b.unregistered + (stages.map Stage.unregistered).sum)
      (b.unlisted + (stages.map Stage.unlisted).sum) pass)
    (hb : b.Current s.arrays) (hcurrent : ∀ st ∈ stages, st.Current s.arrays) : Consistent s (b ::ₘ stages) pass := by
  refine ⟨honly, ?_, ?_⟩
  · rw [Multiset.map_cons, Multiset.map_cons, Multiset.sum_cons, Multiset.sum_cons]
    exact haccounts
  · intro st hstage
    rcases Multiset.mem_cons.1 hstage with rfl | hstage
    · exact hb
    · exact hcurrent st hstage

theorem advance (h : Consistent s (a ::ₘ stages) pass)
    (hnone : a.usesInstances = true → ∀ st ∈ a ::ₘ stages, st.pass? = none)
    (hstep : s.advance ok room a = some (t, b)) : ∃ pass', Consistent t (b ::ₘ stages) pass' := by
  have honly := h.only
  have haccounts := h.accounts_cons
  have hcurrent : ∀ st ∈ stages, st.Current s.arrays :=
    fun st hstage => h.current st (mem_cons_of_mem hstage)
  cases a with
  | returned => cases hstep
  | registering todo =>
    cases todo with
    | nil =>
      cases hstep
      exact ⟨pass, cons (filterMap_cons_of_none honly rfl rfl) haccounts trivial hcurrent⟩
    | cons ent todo =>
      obtain ⟨inst, url⟩ := ent
      rw [State.advance] at hstep
      split_ifs at hstep
      · cases hstep
        refine ⟨pass, cons (filterMap_cons_of_none honly rfl rfl) ?_ trivial hcurrent⟩
        simp only [Stage.unregistered, Stage.unlisted, List.map_cons, ← cons_coe,
          cons_add, zero_add] at haccounts
        exact haccounts.register url
      · cases hstep
        refine ⟨pass, cons (filterMap_cons_of_none honly rfl rfl) ?_ trivial hcurrent⟩
        exact haccounts.abandon (add_le_add_left (zero_le _) _)
  | recording inst url todo =>
    cases hstep
    obtain rfl := holder_eq_none honly (hnone rfl)
    rw [filterMap_cons_none _ _ rfl] at honly
    refine ⟨none, cons (filterMap_cons_of_zero honly) ?_ trivial (current_of_none honly _)⟩
    simp only [Stage.unregistered, Stage.unlisted, zero_add]
    exact haccounts.record
  | starting =>
    cases hstep
    obtain rfl := holder_eq_none honly (hnone rfl)
    rw [filterMap_cons_none _ _ rfl] at honly
    exact ⟨some s.firstPass, cons (filterMap_cons_of_zero honly) haccounts.start trivial hcurrent⟩
  | unregistering p =>
    obtain ⟨rfl, hothers⟩ := holder_eq_some honly rfl
    rw [State.advance] at hstep
    cases hv : (p.origin.toList s.arrays)[p.index]? with
    | none =>
      rw [hv] at hstep
      cases hstep
      exact ⟨none, cons (filterMap_cons_of_zero hothers) (haccounts.finish hv) trivial hcurrent⟩
    | some v =>
      rw [hv] at hstep
      split_ifs at hstep
      · cases hstep
        exact ⟨some { p with index := p.index + 1 },
          cons (filterMap_cons_of_zero hothers) (haccounts.unregister hv) trivial hcurrent⟩
      · cases hstep
        exact ⟨some p, cons (filterMap_cons_of_zero hothers) haccounts hv hcurrent⟩
  | keeping v p =>
    obtain ⟨rfl, hothers⟩ := holder_eq_some honly rfl
    have hv : (p.origin.toList s.arrays)[p.index]? = some v := h.current _ (mem_cons_self _ _)
    cases hstep
    exact ⟨some (s.keptPass room v p),
      cons (filterMap_cons_of_zero hothers) (haccounts.keep hv) trivial (current_of_none hothers _)⟩

end Consistent

end State

namespace System

theorem consistent {s : System} (h : ReachedBy step (· = idle) Undisturbed s) :
    ∃ pass, s.shared.Consistent s.threads pass := by
  refine ReachedBy.invariant (fun s => ∃ pass, s.shared.Consistent s.threads pass) ?_ ?_ h
  · rintro s rfl
    exact ⟨none, rfl, .new, fun st hstage => absurd hstage (notMem_zero st)⟩
  · rintro s act t ⟨pass, hs⟩ hcondition hstep
    cases act with
    | call req =>
      cases hstep
      refine ⟨pass, ?_⟩
      rw [Pool.coe_threads_spawn]
      exact hs.call req
    | advance i ok room =>
      obtain ⟨a, b, others, hi, hadvance, hthreads, hthreads'⟩ := Pool.advance_cases hstep
      rw [hthreads] at hs
      rw [hthreads']
      refine hs.advance ?_ hadvance
      intro huses st hstage
      rw [← hthreads] at hstage
      apply Option.isNone_iff_eq_none.1
      refine hcondition ?_ st hstage
      rw [hi]
      exact huses

/-- When all calls have returned, the list has the instances that are registered, each of them once, and
the map has their URLs. -/
theorem instances_eq_registered {s : System} (h : ReachedBy step (· = idle) Undisturbed s)
    (hreturned : AllReturned s) : (s.shared.listed : Multiset ℕ) = s.shared.registered.keys.val ∧
      s.shared.instanceURLs = s.shared.registered := by
  obtain ⟨pass, hs⟩ := consistent h
  have hstages : ∀ st ∈ (s.threads : Multiset Stage), st = .returned := by
    intro st hstage
    have hstage := hreturned st hstage
    cases st <;> first | rfl | cases hstage
  obtain rfl := holder_eq_none hs.only fun st hstage => by rw [hstages st hstage]; rfl
  have hunlisted : ((s.threads : Multiset Stage).map Stage.unlisted).sum = 0 := by
    apply Multiset.sum_eq_zero
    intro x hx
    obtain ⟨st, hstage, rfl⟩ := Multiset.mem_map.1 hx
    rw [hstages st hstage]
    rfl
  have hgraph := hs.accounts.graph_eq
  rw [hunlisted, add_zero] at hgraph
  refine ⟨?_, eq_of_graphOn_eq_graph hgraph.symm (hs.accounts.mem_listed rfl)⟩
  rw [← FiniteMap.map_fst_graphOn s.shared.instanceURLs s.shared.listed]
  rw [State.listing] at hgraph
  rw [← hgraph, graph, FiniteMap.map_fst_graphOn]

def greeterAt (port : Str) : ServiceURL := .ofProvider (str "10.0.0.1") port Params.empty

/-- Goroutine `i` takes steps in which its calls of the backend succeed or fail. -/
def goOn (i : ℕ) (outcomes : List Bool) : List Action := outcomes.map fun ok => .advance i ok 0

/-- A run in which two instances are registered, and the first of them cannot be unregistered. -/
def keepFirst : List Action :=
  List.flatten [
    [.call (.registerService [greeterAt (str "20000"), greeterAt (str "20001")] true)],
    goOn 0 [true, true, true, true, true],
    [.call .unRegisterService],
    goOn 1 [true, false, true, true, true]]

theorem keepFirst_listed : ∃ s, ReachedBy step (· = idle) Undisturbed s ∧ AllReturned s ∧
    s.shared.listed = [0] ∧ (s.shared.listed : Multiset ℕ) = s.shared.registered.keys.val ∧
      s.shared.instanceURLs = s.shared.registered := by
  obtain ⟨s, hreached, hreturned, hlisted⟩ := ReachedBy.of_run step Undisturbed idle keepFirst
    (fun s => AllReturned s ∧ s.shared.listed = [0]) (by decide +kernel)
  exact ⟨s, hreached, hreturned, hlisted, instances_eq_registered hreached hreturned⟩

/-- A run in which an instance is registered after an unregistration has taken its slices. -/
def registerDuringPass : List Action :=
  List.flatten [
    [.call (.registerService [greeterAt (str "20000")] true)],
    goOn 0 [true, true, true],
    [.call .unRegisterService],
    goOn 1 [true],
    [.call (.registerService [greeterAt (str "20001")] true)],
    goOn 2 [true, true, true],
    goOn 1 [true, true]]

/-- The instance is registered, and nothing is left of it in the list and in the map. -/
theorem registerDuringPass_forgotten : ∃ s, ReachedBy step (· = idle) (fun _ _ => True) s ∧
    AllReturned s ∧ 1 ∈ s.shared.registered ∧ 1 ∉ s.shared.listed ∧ 1 ∉ s.shared.instanceURLs :=
  ReachedBy.of_run step (fun _ _ => True) idle registerDuringPass
    (fun s => AllReturned s ∧ 1 ∈ s.shared.registered ∧ 1 ∉ s.shared.listed ∧
      1 ∉ s.shared.instanceURLs) (by decide +kernel)

end System

end DubboGo.Registry.Registration
