import DubboGo.Registry.ListenerCalls
import DubboGo.Registry.Registration

/-!
# Subscriptions

`SubscribeURL` and `UnSubscribe` of `registry/servicediscovery/service_discovery_registry.go`.  A notify
listener is attached to the instance-change listener of its applications, under a key that is made from the
service key and the protocol of its URL.
-/

namespace DubboGo.Registry.Subscriptions

open Go Common Lib ServiceDiscovery InstancesListener List Option
open InstancesListener.State (listeners_addListenerAndNotify listeners_of_refresh listeners_of_onEvent
  sameSubscribers_removeListener notified_of_refresh)

/-! ## Keys -/

def providedBy : Str := str "provided-by"

def triProtocol : Str := str "tri"

def shouldSubscribe (url : ServiceURL) : Bool := !Registration.shouldRegister url

def protocolSubscribeKey (url : ServiceURL) : Str :=
  url.toURL.serviceKey ++ str ":" ++ if url.protocol ≠ [] then url.protocol else triProtocol

def comma : UInt8 := 44

def parseServices (literalServices : Str) : Finset Str :=
  ((literalServices.splitOn comma).filter (· ≠ [])).toFinset

/-- `sort.Strings`. -/
def sortStrings (list : List Str) : List Str := list.insertionSort (· ≤ ·)

theorem sortStrings_eq_of_perm {l l' : List Str} (h : l.Perm l') : sortStrings l = sortStrings l' := by
  have hsorted : (sortStrings l).Pairwise (· ≤ ·) := pairwise_insertionSort _ l
  have hsorted' : (sortStrings l').Pairwise (· ≤ ·) := pairwise_insertionSort _ l'
  refine List.Perm.eq_of_pairwise (fun _ _ _ _ => List.le_antisymm) hsorted hsorted' ?_
  exact (List.perm_insertionSort _ l).trans (h.trans (List.perm_insertionSort _ l').symm)

def sortServices (services : Finset Str) : Str :=
  Quotient.liftOn services.val (fun values => [comma].intercalate (sortStrings (values.filter (· ≠ []))))
    fun _ _ h => congrArg _ (sortStrings_eq_of_perm (h.filter _))

def Names (services : Finset Str) : Prop := ∀ name ∈ services, name ≠ [] ∧ comma ∉ name

theorem comma_notMem_of_splitOn {s name : Str} (h : name ∈ s.splitOn comma) : comma ∉ name := by
  induction s generalizing name with
  | nil =>
    rw [mem_singleton.1 h]
    exact not_mem_nil
  | cons c s ih =>
    rw [splitOn, splitOnP_cons_eq_if_modifyHead] at h
    split_ifs at h with hc
    · rcases mem_cons.1 h with rfl | h
      · exact not_mem_nil
      · exact ih h
    · cases hsplit : s.splitOnP (· == comma) with
      | nil =>
        rw [hsplit] at h
        cases h
      | cons first rest =>
        rw [hsplit] at h
        rcases mem_cons.1 h with rfl | h
        · have hfirst : comma ∉ first := ih (by rw [splitOn, hsplit]; exact mem_cons_self)
          rw [mem_cons, not_or]
          exact ⟨fun heq => hc (by rw [heq]; exact beq_self_eq_true _), hfirst⟩
        · exact ih (by rw [splitOn, hsplit]; exact mem_cons_of_mem _ h)

theorem names_parseServices (literalServices : Str) : Names (parseServices literalServices) := by
  intro name hname
  obtain ⟨hmem, hne⟩ := List.mem_filter.1 (List.mem_toFinset.1 hname)
  exact ⟨of_decide_eq_true hne, comma_notMem_of_splitOn hmem⟩

theorem parseServices_sortServices {services : Finset Str} (h : Names services) :
    parseServices (sortServices services) = services := by
  obtain ⟨⟨values⟩, hnodup⟩ := services
  have hall : values.filter (· ≠ []) = values := filter_eq_self.2 fun name hname =>
    decide_eq_true (h name hname).1
  have hperm : (sortStrings values).Perm values := List.perm_insertionSort _ values
  have hsort : sortServices ⟨Quot.mk _ values, hnodup⟩ = [comma].intercalate (sortStrings values) :=
    congrArg (fun list => [comma].intercalate (sortStrings list)) hall
  rw [hsort]
  ext name
  rw [parseServices, List.mem_toFinset, List.mem_filter]
  by_cases hnil : values = []
  · subst hnil
    constructor
    · rintro ⟨hmem, hne⟩
      rw [mem_singleton.1 hmem] at hne
      exact absurd rfl (of_decide_eq_true hne)
    · intro hmem
      cases hmem
  · have hne : sortStrings values ≠ [] := fun heq => hnil (nil_perm.1 (heq ▸ hperm))
    rw [splitOn_intercalate comma (fun l hl => (h l (hperm.mem_iff.1 hl)).2) hne, hperm.mem_iff]
    exact and_iff_left_of_imp fun hname => decide_eq_true (h name hname).1

theorem sortServices_inj {services services' : Finset Str} (h : Names services) (h' : Names services')
    (heq : sortServices services = sortServices services') : services = services' := by
  rw [← parseServices_sortServices h, heq, parseServices_sortServices h']

/-- `getServices`, where the mapping would say `mapped`; nil is `none`. -/
def getServices (url : ServiceURL) (mapped : Option (Finset Str)) : Option (Finset Str) :=
  let services := parseServices (url.getParam providedBy [])
  if services = ∅ then mapped else some services

/-! ## The registry -/

/-- A `ServiceInstancesChangedListenerImpl` with its applications. -/
structure Listener where
  serviceNames : Finset Str
  state : InstancesListener.State

/-- A `ServiceInstancesChangedEvent`, and how the refresh goes that it causes. -/
structure Event where
  serviceName : Str
  instances : List ServiceInstance
  round : Round

/-- The part of a `serviceDiscoveryRegistry` that has to do with subscriptions. -/
structure State where
  registryId : Str
  destroyed : Bool
  serviceListeners : FiniteMap Str Listener

namespace State

/-- `newServiceDiscoveryRegistry`. -/
def new (registryId : Str) : State where
  registryId := registryId
  destroyed := false
  serviceListeners := ∅

def set (key : Str) (listener : Listener) (s : State) : State :=
  { s with serviceListeners := s.serviceListeners.insert key listener }

/-- `loadLatestInstances`, if the events are one for each application. -/
def loadLatestInstances (events : List Event) (listener : Listener) : Option Listener :=
  if (events.map Event.serviceName : Multiset Str) = listener.serviceNames.val then
    (events.foldlM (fun state e => InstancesListener.State.onEvent e.serviceName e.instances e.round state)
        listener.state).map
      fun state => { listener with state := state }
  else none

/-- The listener for some applications: the one that is installed, or a new one. -/
def findListener (services : Finset Str) (events : List Event) (s : State) : Option Listener :=
  match s.serviceListeners.lookup (sortServices services) with
  | some listener => some listener
  | none => loadLatestInstances events ⟨services, .new s.registryId⟩

def subscribeURL (url : ServiceURL) (notify : ℕ) (services : Finset Str) (events : List Event) (s : State) :
    Option State :=
  if s.destroyed then some s
  else
    (s.findListener services events).map fun listener =>
      s.set (sortServices services)
        { listener with state := listener.state.addListenerAndNotify (protocolSubscribeKey url) notify }

/-- `UnSubscribe`; it does not look at the notify listener. -/
def unSubscribe (url : ServiceURL) (mapped : Option (Finset Str)) (s : State) : State :=
  if shouldSubscribe url then
    match getServices url mapped with
    | none => s
    | some services =>
      match s.serviceListeners.lookup (sortServices services) with
      | none => s
      | some listener =>
        s.set (sortServices services)
          { listener with state := listener.state.removeListener (protocolSubscribeKey url) }
  else s

def modifyListener (key : Str) (f : InstancesListener.State → Option InstancesListener.State) (s : State) :
    Option State :=
  (s.serviceListeners.lookup key).bind fun listener =>
    (f listener.state).map fun state => s.set key { listener with state := state }

end State

/-! ## Calls whose applications are given by `provided-by` -/

structure Reference where
  url : ServiceURL
  provided : parseServices (url.getParam providedBy []) ≠ ∅

namespace Reference

def services (r : Reference) : Finset Str := parseServices (r.url.getParam providedBy [])

def place (r : Reference) : Str × Str := (sortServices r.services, protocolSubscribeKey r.url)

theorem getServices_eq (r : Reference) (mapped : Option (Finset Str)) : getServices r.url mapped = some r.services :=
  if_neg r.provided

end Reference

inductive Call where
  | subscribeURL (reference : Reference) (notify : ℕ) (events : List Event)
  | unSubscribe (reference : Reference) (notify : ℕ) (mapped : Option (Finset Str))
  | onEvent (key : Str) (event : Event)
  | retry (key : Str) (round : Round)

namespace State

variable {s t : State} {key k : Str} {reference : Reference} {n notify : ℕ} {call : Call} {calls : List Call}

def step (s : State) : Call → Option State
  | .subscribeURL reference notify events => s.subscribeURL reference.url notify reference.services events
  | .unSubscribe reference _ mapped => some (s.unSubscribe reference.url mapped)
  | .onEvent key event =>
    s.modifyListener key (InstancesListener.State.onEvent event.serviceName event.instances event.round)
  | .retry key round => s.modifyListener key (InstancesListener.State.refreshServiceURLs round)

def run (calls : List Call) (s : State) : Option State := calls.foldlM step s

def Registered (s : State) (reference : Reference) (n : ℕ) : Prop :=
  ∃ listener, s.serviceListeners.lookup reference.place.1 = some listener ∧
    listener.serviceNames = reference.services ∧
    listener.state.listeners.lookup reference.place.2 = some n

structure WellFormed (s : State) : Prop where
  destroyed : s.destroyed = false
  key_eq : ∀ key listener, s.serviceListeners.lookup key = some listener →
    sortServices listener.serviceNames = key ∧ Names listener.serviceNames

namespace WellFormed

variable {lst : Listener}

theorem set (h : s.WellFormed) (hlistener : sortServices lst.serviceNames = key ∧ Names lst.serviceNames) :
    (s.set key lst).WellFormed := by
  refine ⟨h.destroyed, ?_⟩
  intro k l hl
  rw [State.set, FiniteMap.lookup_insert] at hl
  split_ifs at hl with hk
  · cases hl
    rw [hk]
    exact hlistener
  · exact h.key_eq k l hl

theorem modifyListener (h : s.WellFormed) {f : InstancesListener.State → Option InstancesListener.State}
    (hstep : s.modifyListener key f = some t) : t.WellFormed := by
  obtain ⟨lst, hlookup, hmap⟩ := bind_eq_some_iff.1 hstep
  obtain ⟨state, -, rfl⟩ := map_eq_some_iff.1 hmap
  exact h.set (h.key_eq key lst hlookup)

theorem serviceNames_eq (h : s.WellFormed) {services : Finset Str} (hnames : Names services) {events : List Event}
    (hfind : s.findListener services events = some lst) : lst.serviceNames = services := by
  unfold findListener at hfind
  split at hfind
  · rename_i found hlookup
    cases hfind
    obtain ⟨hkey, hnames'⟩ := h.key_eq _ _ hlookup
    exact sortServices_inj hnames' hnames hkey
  · unfold loadLatestInstances at hfind
    split_ifs at hfind
    obtain ⟨state, -, rfl⟩ := map_eq_some_iff.1 hfind
    rfl

theorem step (h : s.WellFormed) (hstep : s.step call = some t) : t.WellFormed := by
  cases call with
  | subscribeURL r notify events =>
    rw [State.step, State.subscribeURL, if_neg (by rw [h.destroyed]; exact Bool.false_ne_true)] at hstep
    obtain ⟨lst, hfind, rfl⟩ := map_eq_some_iff.1 hstep
    have hnames := names_parseServices (r.url.getParam providedBy [])
    have hservices := h.serviceNames_eq hnames hfind
    refine h.set ?_
    rw [hservices]
    exact ⟨rfl, hnames⟩
  | unSubscribe r notify mapped =>
    cases hstep
    unfold State.unSubscribe
    split_ifs
    · rw [r.getServices_eq]
      dsimp only
      split
      · exact h
      · rename_i lst hlookup
        exact h.set (h.key_eq _ lst hlookup)
    · exact h
  | onEvent key event | retry key round => exact h.modifyListener hstep

end WellFormed

theorem wellFormed {rid : Str} (h : run calls (new rid) = some s) : s.WellFormed := by
  refine foldlM_invariant WellFormed (fun _ _ _ _ hs hstep => hs.step hstep) ⟨rfl, ?_⟩ h
  intro key listener hlookup
  cases hlookup

/-! ## A subscription that nobody disturbs -/

end State

def Call.Undisturbed (reference : Reference) (n : ℕ) : Call → Prop
  | .subscribeURL r notify _ => r.place = reference.place → notify = n
  | .unSubscribe r _ _ => shouldSubscribe r.url = true → r.place ≠ reference.place
  | _ => True

namespace State

variable {s t : State} {key : Str} {reference : Reference} {n notify : ℕ} {call : Call} {calls : List Call}

namespace Registered

theorem set (h : s.Registered reference n) {listener : Listener}
    (hlistener : key = reference.place.1 → ∀ l, s.serviceListeners.lookup key = some l →
      listener.serviceNames = l.serviceNames ∧ (l.state.listeners.lookup reference.place.2 = some n →
          listener.state.listeners.lookup reference.place.2 = some n)) :
    (s.set key listener).Registered reference n := by
  obtain ⟨l, hl, hnames, hn⟩ := h
  by_cases hkey : key = reference.place.1
  · subst hkey
    obtain ⟨hnames', hn'⟩ := hlistener rfl l hl
    exact ⟨listener, Finmap.lookup_insert _, hnames'.trans hnames, hn' hn⟩
  · have hne : reference.place.1 ≠ key := fun heq => hkey heq.symm
    exact ⟨l, (Finmap.lookup_insert_of_ne _ hne).trans hl, hnames, hn⟩

theorem modifyListener (h : s.Registered reference n) {f : InstancesListener.State → Option InstancesListener.State}
    (hf : ∀ a b, f a = some b → b.listeners = a.listeners) (hstep : s.modifyListener key f = some t) :
    t.Registered reference n := by
  obtain ⟨listener, hlookup, hmap⟩ := bind_eq_some_iff.1 hstep
  obtain ⟨state, hstate, rfl⟩ := map_eq_some_iff.1 hmap
  refine h.set ?_
  intro _ l hl
  obtain rfl : listener = l := some.inj (hlookup.symm.trans hl)
  refine ⟨rfl, ?_⟩
  rw [hf _ _ hstate]
  exact id

variable {r : Reference} {evs : List Event}

theorem subscribeURL (h : s.Registered reference n) (hwf : s.WellFormed)
    (hundisturbed : r.place = reference.place → notify = n)
    (hstep : s.subscribeURL r.url notify r.services evs = some t) : t.Registered reference n := by
  rw [State.subscribeURL, if_neg (by rw [hwf.destroyed]; exact Bool.false_ne_true)] at hstep
  obtain ⟨listener, hfind, rfl⟩ := map_eq_some_iff.1 hstep
  refine h.set ?_
  intro hkey l hl
  rw [findListener, hl] at hfind
  cases hfind
  refine ⟨rfl, ?_⟩
  intro hn
  rw [listeners_addListenerAndNotify, FiniteMap.lookup_insert]
  split_ifs with hprotocol
  · rw [hundisturbed (Prod.ext hkey hprotocol.symm)]
  · exact hn

theorem unSubscribe (h : s.Registered reference n) {mapped : Option (Finset Str)}
    (hundisturbed : shouldSubscribe r.url = true → r.place ≠ reference.place) :
    (s.unSubscribe r.url mapped).Registered reference n := by
  unfold State.unSubscribe
  split_ifs with hshould
  · rw [r.getServices_eq]
    dsimp only
    split
    · exact h
    · rename_i listener hlookup
      refine h.set ?_
      intro hkey l hl
      obtain rfl : listener = l := some.inj (hlookup.symm.trans hl)
      refine ⟨rfl, ?_⟩
      intro hn
      have hne : reference.place.2 ≠ protocolSubscribeKey r.url :=
        fun heq => hundisturbed hshould (Prod.ext hkey heq.symm)
      rw [(sameSubscribers_removeListener _ _).1]
      exact (Finmap.lookup_erase_ne hne).trans hn
  · exact h

theorem step (h : s.Registered reference n) (hwf : s.WellFormed) (hundisturbed : call.Undisturbed reference n)
    (hstep : s.step call = some t) : t.Registered reference n := by
  cases call with
  | subscribeURL r notify evs => exact h.subscribeURL hwf hundisturbed hstep
  | unSubscribe r notify mapped =>
    cases hstep
    exact h.unSubscribe hundisturbed
  | onEvent key event => exact h.modifyListener (fun _ _ => listeners_of_onEvent) hstep
  | retry key round => exact h.modifyListener (fun _ _ => listeners_of_refresh) hstep

theorem of_subscribeURL (hwf : s.WellFormed) (hstep : s.step (.subscribeURL reference n evs) = some t) :
    t.Registered reference n := by
  rw [State.step, State.subscribeURL, if_neg (by rw [hwf.destroyed]; exact Bool.false_ne_true)] at hstep
  obtain ⟨listener, hfind, rfl⟩ := map_eq_some_iff.1 hstep
  have hservices := hwf.serviceNames_eq (names_parseServices _) hfind
  refine ⟨_, Finmap.lookup_insert _, hservices, ?_⟩
  rw [listeners_addListenerAndNotify]
  exact Finmap.lookup_insert _

end Registered

/-- A notify listener that has subscribed is attached to the listener of its applications, and every refresh
of that calls its `NotifyAll`. -/
theorem registered_and_notified {registryId : Str} {earlier later : List Call} {events : List Event}
    (hrun : run (earlier ++ .subscribeURL reference n events :: later) (new registryId) = some s)
    (hundisturbed : ∀ call ∈ later, call.Undisturbed reference n) :
    ∃ listener, s.serviceListeners.lookup (sortServices reference.services) = some listener ∧
      listener.serviceNames = reference.services ∧
      listener.state.listeners.lookup (protocolSubscribeKey reference.url) = some n ∧
      ∀ round t, listener.state.refreshServiceURLs round = some t →
        ∃ deliveries, t.received n = listener.state.received n ++ deliveries ∧
          Delivery.all (t.serviceUrls (protocolSubscribeKey reference.url)) ∈ deliveries := by
  rw [run, foldlM_append] at hrun
  obtain ⟨u, hearlier, hrun⟩ := bind_eq_some_iff.1 hrun
  obtain ⟨v, hsubscribe, hlater⟩ := bind_eq_some_iff.1 hrun
  have hu := wellFormed hearlier
  have hv := hu.step hsubscribe
  obtain ⟨-, listener, hlookup, hnames, hn⟩ : s.WellFormed ∧ s.Registered reference n := by
    refine foldlM_invariant (fun s => s.WellFormed ∧ s.Registered reference n) ?_
      ⟨hv, .of_subscribeURL hu hsubscribe⟩ hlater
    rintro call hcall a b ⟨hwf, hregistered⟩ hstep
    exact ⟨hwf.step hstep, hregistered.step hwf (hundisturbed call hcall) hstep⟩
  exact ⟨listener, hlookup, hnames, hn, fun _ _ hrefresh => notified_of_refresh hrefresh hn⟩

def greeterURL (protocol : Str) : ServiceURL :=
  { ServiceURL.ofProvider [] []
      ((Params.empty.set interfaceKey (str "demo.Greeter")).set providedBy (str "greeter")) with
    protocol := protocol }

def triGreeter : Reference := ⟨greeterURL (str "tri"), by decide +kernel⟩

def dubboGreeter : Reference := ⟨greeterURL (str "dubbo"), by decide +kernel⟩

def noInstances (serviceName : Str) (apps : List Str) (listeners : List (Str × ℕ)) : Event where
  serviceName := serviceName
  instances := []
  round := {
    apps := apps
    fetch := fun _ => .error
    range := fun _ => id
    perm := Round.perm_id
    groups := fun _ => []
    listeners := listeners }

def greeterGone : List (Str × ℕ) → Event := noInstances (str "greeter") [str "greeter"]

/-- A second notify listener comes for another protocol and leaves, and the instances change. -/
def otherProtocol : List Call := [
  .subscribeURL dubboGreeter 1 [],
  .unSubscribe dubboGreeter 1 none,
  .onEvent (str "greeter") (greeterGone [(str "demo.Greeter:tri", 0)])]

theorem otherProtocol_registered : ∃ s,
    run ([] ++ .subscribeURL triGreeter 0 [greeterGone []] :: otherProtocol) (new (str "default")) = some s ∧
      (∀ call ∈ otherProtocol, call.Undisturbed triGreeter 0) ∧
      ∃ listener, s.serviceListeners.lookup (sortServices triGreeter.services) = some listener ∧
        listener.serviceNames = triGreeter.services ∧
        listener.state.listeners.lookup (protocolSubscribeKey triGreeter.url) = some 0 ∧
        ∀ round t, listener.state.refreshServiceURLs round = some t →
          ∃ deliveries, t.received 0 = listener.state.received 0 ++ deliveries ∧
            Delivery.all (t.serviceUrls (protocolSubscribeKey triGreeter.url)) ∈ deliveries := by
  have hsome : (run ([] ++ .subscribeURL triGreeter 0 [greeterGone []] :: otherProtocol)
      (new (str "default"))).isSome = true := by decide +kernel
  obtain ⟨s, hrun⟩ := isSome_iff_exists.1 hsome
  have hplace : dubboGreeter.place ≠ triGreeter.place := by decide +kernel
  have hundisturbed : ∀ call ∈ otherProtocol, call.Undisturbed triGreeter 0 := by
    intro call hcall
    simp only [otherProtocol, mem_cons, not_mem_nil, or_false] at hcall
    rcases hcall with rfl | rfl | rfl
    · exact fun heq => absurd heq hplace
    · exact fun _ => hplace
    · trivial
  exact ⟨s, hrun, hundisturbed, registered_and_notified hrun hundisturbed⟩

/-- A second notify listener subscribes with the URL of the first one, and the instances change. -/
def secondSubscriber : List Call := [
  .subscribeURL triGreeter 0 [greeterGone []],
  .subscribeURL triGreeter 1 [],
  .onEvent (str "greeter") (greeterGone [(str "demo.Greeter:tri", 1)])]

/-- The second one is attached in place of the first, and the refresh notifies it alone. -/
theorem secondSubscriber_replaces : ∃ s listener,
    run secondSubscriber (new (str "default")) = some s ∧
      s.serviceListeners.lookup (sortServices triGreeter.services) = some listener ∧
      listener.state.listeners.lookup (protocolSubscribeKey triGreeter.url) = some 1 ∧
      listener.state.received 0 = [] ∧ listener.state.received 1 ≠ [] := by
  have hany : ((run secondSubscriber (new (str "default"))).any fun s =>
      (s.serviceListeners.lookup (sortServices triGreeter.services)).any fun listener =>
        decide (listener.state.listeners.lookup (protocolSubscribeKey triGreeter.url) = some 1) &&
          (listener.state.received 0).isEmpty && !(listener.state.received 1).isEmpty) = true := by
    decide +kernel
  obtain ⟨s, hrun, hs⟩ := (any_eq_true _ _).1 hany
  obtain ⟨listener, hlookup, hlistener⟩ := (any_eq_true _ _).1 hs
  obtain ⟨hrest, hsecond⟩ := Bool.and_eq_true_iff.1 hlistener
  obtain ⟨hattached, hfirst⟩ := Bool.and_eq_true_iff.1 hrest
  refine ⟨s, listener, hrun, hlookup, of_decide_eq_true hattached, isEmpty_iff.1 hfirst, ?_⟩
  intro hnil
  rw [hnil] at hsecond
  cases hsecond

end State

end DubboGo.Registry.Subscriptions
