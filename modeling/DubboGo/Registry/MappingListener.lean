import DubboGo.Registry.Subscriptions

/-!
# The listener of mapping changes

`ServiceMappingChangedListenerImpl` of `registry/servicediscovery/service_mapping_change_listener_impl.go`, with the
registries that it subscribes to.  A change of the mapping subscribes to the new applications and leaves the
subscription to the old ones; `UnSubscribe` ends the one that the mapping says then, in the registry that it is called
on.
-/

namespace DubboGo.Registry.MappingListener

open Go Common Lib InstancesListener Subscriptions
open Subscriptions.State (noInstances)

/-- What `extension.GetRegistry` does: `newServiceDiscoveryRegistry`, which the package registers there,
creates a registry; another function may return one that exists. -/
inductive Got where
  | error
  | created
  | existing (registry : ℕ)

/-- A `ServiceMappingChangeEvent`, and what its handling finds. -/
structure MappingEvent where
  serviceNames : Finset Str
  /-- `String()` is the same for the old names and the new ones, as they are gone through. -/
  sameText : Bool
  registry : Got
  /-- The latest instances, if a listener is new. -/
  events : List Event

/-- A `ServiceMappingChangedListenerImpl` and the registries.  The subscription was made with the
registry at pointer 0. -/
structure State where
  registryId : Str
  registries : Heap Subscriptions.State
  oldServiceNames : Finset Str
  stop : Bool

namespace State

variable (url : ServiceURL) (notify : ℕ)

/-- `NewMappingListener`, called by `Subscribe` for a URL without `provided-by`. -/
def new (registryId : Str) : State where
  registryId := registryId
  registries := ⟨1, fun _ => .new registryId⟩
  oldServiceNames := ∅
  stop := false

def subscribed (r : ℕ) (serviceNames : Finset Str) (s : State) (registry : Subscriptions.State) : State :=
  { s with
    registries := s.registries.modify r fun _ => registry
    oldServiceNames := serviceNames }

/-- `SubscribeURL` on a registry. -/
def subscribeURL (r : ℕ) (e : MappingEvent) (s : State) : Option State :=
  ((s.registries.cell r).subscribeURL url notify e.serviceNames e.events).map (s.subscribed r e.serviceNames)

/-- `GetRegistry`, and `SubscribeURL` on what it returns. -/
def subscribe (e : MappingEvent) (s : State) : Option State :=
  match e.registry with
  | .error => some s
  | .created =>
    subscribeURL url notify s.registries.next e { s with registries := s.registries.add (.new s.registryId) }
  | .existing r => if r < s.registries.next then subscribeURL url notify r e s else none

/-- `OnEvent`.  Sets that print the same are the same. -/
def onEvent (s : State) (e : MappingEvent) : Option State :=
  if e.sameText = true ∧ s.oldServiceNames ≠ e.serviceNames then none
  else if s.stop then some s
  else if e.serviceNames = ∅ ∨ e.sameText = true then some s
  else if s.oldServiceNames = ∅ then subscribe url notify e s
  else if ∃ service ∈ e.serviceNames, service ∉ s.oldServiceNames then subscribe url notify e s
  else some s

/-- `UnSubscribe` on the registry that the subscription was made with, where the mapping says `mapped`;
it stops the listener of mapping changes. -/
def unSubscribe (mapped : Option (Finset Str)) (s : State) : State :=
  if shouldSubscribe url = true ∧ (getServices url mapped).isSome then
    { s with
      registries := s.registries.modify 0 (.unSubscribe url mapped)
      stop := true }
  else s

def AttachedTo (s : State) (r : ℕ) (key : Str) (listener : Listener) : Prop :=
  r < s.registries.next ∧ (s.registries.cell r).serviceListeners.lookup key = some listener ∧
    listener.state.listeners.lookup (protocolSubscribeKey url) = some notify

variable {url notify} {s t : State} {e : MappingEvent} {registryId : Str}

/-! ## One subscription -/

/-- There is one subscription, to the applications in `oldServiceNames`, in the registry `r`. -/
structure Single (url : ServiceURL) (notify r : ℕ) (s : State) : Prop where
  lt : r < s.registries.next
  listener : ∃ listener, (s.registries.cell r).serviceListeners =
      (∅ : FiniteMap Str Listener).insert (sortServices s.oldServiceNames) listener ∧
    listener.serviceNames = s.oldServiceNames ∧
    listener.state.listeners.lookup (protocolSubscribeKey url) = some notify
  others : ∀ r' < s.registries.next, r' ≠ r → (s.registries.cell r').serviceListeners = ∅

theorem single_subscribeURL {r : ℕ} (hr : r < s.registries.next)
    (hempty : ∀ r' < s.registries.next, s.registries.cell r' = .new registryId)
    (h : subscribeURL url notify r e s = some t) : Single url notify r t ∧ t.oldServiceNames = e.serviceNames := by
  obtain ⟨registry, hsubscribe, rfl⟩ := Option.map_eq_some_iff.1 h
  rw [hempty r hr, Subscriptions.State.subscribeURL] at hsubscribe
  obtain ⟨listener, hfind, rfl⟩ := Option.map_eq_some_iff.1 hsubscribe
  have hnames : listener.serviceNames = e.serviceNames := by
    have hload : Subscriptions.State.loadLatestInstances e.events
        ⟨e.serviceNames, .new registryId⟩ = some listener := hfind
    unfold Subscriptions.State.loadLatestInstances at hload
    split_ifs at hload
    obtain ⟨state, -, rfl⟩ := Option.map_eq_some_iff.1 hload
    rfl
  refine ⟨⟨hr, ⟨{ listener with
    state := listener.state.addListenerAndNotify (protocolSubscribeKey url) notify }, ?_, hnames, ?_⟩, ?_⟩, rfl⟩
  · dsimp only [subscribed]
    rw [Heap.cell_modify_self]
    rfl
  · rw [InstancesListener.State.listeners_addListenerAndNotify]
    exact Finmap.lookup_insert _
  · intro r' hr' hne
    dsimp only [subscribed]
    rw [Heap.cell_modify_of_ne _ _ hne, hempty r' hr']
    rfl

theorem single_subscribe (hregistry : e.registry ≠ .error) (h : subscribe url notify e (new registryId) = some t) :
    ∃ r, Single url notify r t ∧ t.oldServiceNames = e.serviceNames ∧ (e.registry = .existing 0 → r = 0) := by
  unfold subscribe at h
  split at h
  · rename_i herror
    exact absurd herror hregistry
  · rename_i hcreated
    have hempty : ∀ r < 2, ((new registryId).registries.add (.new registryId)).cell r = .new registryId := by
      intro r _
      by_cases hr : r = 1
      · rw [hr]
        exact Heap.cell_add_self ..
      · exact Function.update_of_ne hr ..
    obtain ⟨hsingle, hnames⟩ := single_subscribeURL (Nat.lt_succ_self 1) hempty h
    refine ⟨1, hsingle, hnames, ?_⟩
    intro hexisting
    rw [hcreated] at hexisting
    cases hexisting
  · rename_i r hexisting
    split_ifs at h with hr
    obtain ⟨hsingle, hnames⟩ := single_subscribeURL hr (fun _ _ => rfl) h
    exact ⟨r, hsingle, hnames, fun _ => Nat.lt_one_iff.1 hr⟩

theorem single_onEvent (hservices : e.serviceNames ≠ ∅) (hregistry : e.registry ≠ .error)
    (h : onEvent url notify (new registryId) e = some t) :
    ∃ r, Single url notify r t ∧ t.oldServiceNames = e.serviceNames ∧ (e.registry = .existing 0 → r = 0) := by
  unfold onEvent at h
  split_ifs at h with hprints hstop hskip hold
  · cases hstop
  · rcases hskip with hempty | hsame
    · exact absurd hempty hservices
    · exact absurd ⟨hsame, hservices.symm⟩ hprints
  · exact single_subscribe hregistry h
  · exact absurd rfl hold
  · exact absurd rfl hold

theorem onEvent_of_subset (hold : s.oldServiceNames ≠ ∅) (hsubset : e.serviceNames ⊆ s.oldServiceNames)
    (h : onEvent url notify s e = some t) : t = s := by
  unfold onEvent at h
  split_ifs at h with hprints hstop hskip hnew
  · cases h
    rfl
  · cases h
    rfl
  · obtain ⟨svc, hmem, hnot⟩ := hnew
    exact absurd (hsubset hmem) hnot
  · cases h
    rfl

namespace Single

variable {r r' : ℕ} {key : Str} {lst : Listener}

theorem exists_attached (h : Single url notify r s) :
    ∃ lst, s.AttachedTo url notify r (sortServices s.oldServiceNames) lst ∧ lst.serviceNames = s.oldServiceNames := by
  obtain ⟨hlt, ⟨lst, hlisteners, hnames, hattached⟩, -⟩ := h
  refine ⟨lst, ⟨hlt, ?_, hattached⟩, hnames⟩
  rw [hlisteners]
  exact Finmap.lookup_insert _

theorem unique (h : Single url notify r s) (hattached : s.AttachedTo url notify r' key lst) :
    r' = r ∧ key = sortServices s.oldServiceNames := by
  obtain ⟨-, ⟨l, hlisteners, -⟩, hothers⟩ := h
  obtain ⟨hlt, hlookup, -⟩ := hattached
  by_cases hr : r' = r
  · refine ⟨hr, ?_⟩
    rw [hr, hlisteners, FiniteMap.lookup_insert] at hlookup
    split_ifs at hlookup with hkey
    · exact hkey
    · cases hlookup
  · rw [hothers r' hlt hr] at hlookup
    cases hlookup

theorem unSubscribe (h : Single url notify 0 s) (hshould : shouldSubscribe url = true)
    (hprovided : parseServices (url.getParam providedBy []) = ∅) :
    ¬(s.unSubscribe url (some s.oldServiceNames)).AttachedTo url notify r' key lst := by
  obtain ⟨-, ⟨l, hlisteners, -⟩, hothers⟩ := h
  have hservices : getServices url (some s.oldServiceNames) = some s.oldServiceNames := if_pos hprovided
  have hlookup : (s.registries.cell 0).serviceListeners.lookup (sortServices s.oldServiceNames) = some l := by
    rw [hlisteners]
    exact Finmap.lookup_insert _
  have hcell : ((s.registries.cell 0).unSubscribe url (some s.oldServiceNames)).serviceListeners =
      (s.registries.cell 0).serviceListeners.insert (sortServices s.oldServiceNames)
        { l with state := l.state.removeListener (protocolSubscribeKey url) } := by
    rw [Subscriptions.State.unSubscribe, if_pos hshould, hservices]
    dsimp only
    rw [hlookup]
    rfl
  rw [State.unSubscribe, hservices, if_pos ⟨hshould, rfl⟩]
  rintro ⟨hlt, hinstalled, hattached⟩
  by_cases hr : r' = 0
  · rw [hr, Heap.cell_modify_self, hcell, hlisteners, Finmap.insert_insert, FiniteMap.lookup_insert] at hinstalled
    split_ifs at hinstalled
    · -- the listener is the one that was left
      cases hinstalled
      rw [(InstancesListener.State.sameSubscribers_removeListener _ _).1] at hattached
      exact nomatch (Finmap.lookup_erase ..).symm.trans hattached
    · cases hinstalled
  · rw [Heap.cell_modify_of_ne _ _ hr, hothers r' hlt hr] at hinstalled
    cases hinstalled

end Single

/-- After each change of the mapping, the notify listener is attached to one installed listener, whose
applications include all that the mapping has said; and to none after `UnSubscribe`. -/
theorem attached_once {first : MappingEvent} {later : List MappingEvent}
    (hrun : (first :: later).foldlM (onEvent url notify) (new registryId) = some s)
    (hservices : first.serviceNames ≠ ∅) (hregistry : first.registry ≠ .error)
    (hlater : ∀ e ∈ later, e.serviceNames ⊆ first.serviceNames) :
    (∃ r key listener, s.AttachedTo url notify r key listener ∧
      (∀ r' key' listener', s.AttachedTo url notify r' key' listener' → r' = r ∧ key' = key) ∧
      ∀ e ∈ first :: later, e.serviceNames ⊆ listener.serviceNames) ∧
    (first.registry = .existing 0 → shouldSubscribe url = true →
      parseServices (url.getParam providedBy []) = ∅ → ∀ r key listener,
        ¬(s.unSubscribe url (some first.serviceNames)).AttachedTo url notify r key listener) := by
  obtain ⟨t, hfirst, hrun⟩ := Option.bind_eq_some_iff.1 hrun
  obtain ⟨r, hsingle, hnames, hzero⟩ := single_onEvent hservices hregistry hfirst
  -- nothing happens after the first change
  have hst : s = t := by
    refine foldlM_invariant (· = t) ?_ rfl hrun
    rintro e he a b rfl hstep
    refine onEvent_of_subset ?_ ?_ hstep
    · rw [hnames]
      exact hservices
    · rw [hnames]
      exact hlater e he
  subst hst
  constructor
  · obtain ⟨listener, hattached, hlistener⟩ := hsingle.exists_attached
    refine ⟨r, _, listener, hattached, fun _ _ _ => hsingle.unique, ?_⟩
    rw [hlistener, hnames]
    intro e he
    rcases List.mem_cons.1 he with rfl | he
    · exact subset_rfl
    · exact hlater e he
  · intro hexisting hshould hprovided r' key listener
    rw [hzero hexisting] at hsingle
    rw [← hnames]
    exact hsingle.unSubscribe hshould hprovided

def mappedURL : ServiceURL :=
  { ServiceURL.ofProvider [] [] (Params.empty.set interfaceKey (str "demo.Greeter")) with
    protocol := str "tri" }

def oneApplication (registry : Got) : MappingEvent where
  serviceNames := {str "a"}
  sameText := false
  registry := registry
  events := [noInstances (str "a") [str "a"] []]

def twoApplications (registry : Got) : MappingEvent where
  serviceNames := {str "a", str "b"}
  sameText := false
  registry := registry
  events := [noInstances (str "a") [str "a"] [], noInstances (str "b") [str "a", str "b"] []]

/-- The mapping loses an application. -/
theorem shrinking_attached_once : ∃ s,
    [twoApplications (.existing 0), oneApplication .created].foldlM (onEvent mappedURL 0)
        (new (str "default")) = some s ∧
      (∃ r key listener, s.AttachedTo mappedURL 0 r key listener ∧
        (∀ r' key' listener', s.AttachedTo mappedURL 0 r' key' listener' → r' = r ∧ key' = key) ∧
        ∀ e ∈ [twoApplications (.existing 0), oneApplication .created], e.serviceNames ⊆ listener.serviceNames) ∧
      ∀ r key listener, ¬(s.unSubscribe mappedURL
        (some (twoApplications (.existing 0)).serviceNames)).AttachedTo mappedURL 0 r key listener := by
  have hsome : ([twoApplications (.existing 0), oneApplication .created].foldlM (onEvent mappedURL 0)
      (new (str "default"))).isSome = true := by decide +kernel
  obtain ⟨s, hrun⟩ := Option.isSome_iff_exists.1 hsome
  have hlater : ∀ e ∈ [oneApplication .created], e.serviceNames ⊆ (twoApplications (.existing 0)).serviceNames := by
    intro e he
    rw [List.mem_singleton.1 he]
    decide +kernel
  obtain ⟨honce, hnone⟩ := attached_once hrun (by decide +kernel) (by simp [twoApplications]) hlater
  exact ⟨s, hrun, honce, hnone rfl (by decide +kernel) (by decide +kernel)⟩

/-- The notify listener is attached in a registry under a key, as far as can be computed. -/
def attachedAt (r : ℕ) (key : Str) (s : State) : Bool :=
  decide (r < s.registries.next) &&
    ((s.registries.cell r).serviceListeners.lookup key).any fun listener =>
      decide (listener.state.listeners.lookup (protocolSubscribeKey mappedURL) = some 0)

theorem exists_attachedTo {r : ℕ} {key : Str} (h : s.attachedAt r key = true) :
    ∃ listener, s.AttachedTo mappedURL 0 r key listener := by
  obtain ⟨hlt, hany⟩ := Bool.and_eq_true_iff.1 h
  obtain ⟨listener, hlookup, hattached⟩ := (Option.any_eq_true _ _).1 hany
  exact ⟨listener, of_decide_eq_true hlt, hlookup, of_decide_eq_true hattached⟩

/-- The mapping gets an application: then there are two subscriptions, in the registries `r` and `r'`, and
`UnSubscribe` leaves the first. -/
def AttachedTwice (registry : Got) (r r' : ℕ) : Prop :=
  ∃ s, [oneApplication registry, twoApplications registry].foldlM (onEvent mappedURL 0)
      (new (str "default")) = some s ∧
    (∃ listener, s.AttachedTo mappedURL 0 r (str "a") listener) ∧
    (∃ listener, s.AttachedTo mappedURL 0 r' (str "a,b") listener) ∧
    ∃ listener, (s.unSubscribe mappedURL (some {str "a", str "b"})).AttachedTo mappedURL 0 r (str "a") listener

theorem attachedTwice_of_run {registry : Got} {r r' : ℕ}
    (h : (([oneApplication registry, twoApplications registry].foldlM (onEvent mappedURL 0)
      (new (str "default"))).any fun s => s.attachedAt r (str "a") && (s.attachedAt r' (str "a,b") &&
        (s.unSubscribe mappedURL (some {str "a", str "b"})).attachedAt r (str "a"))) = true) :
    AttachedTwice registry r r' := by
  obtain ⟨s, hrun, hs⟩ := (Option.any_eq_true _ _).1 h
  obtain ⟨hfirst, hs⟩ := Bool.and_eq_true_iff.1 hs
  obtain ⟨hsecond, hleft⟩ := Bool.and_eq_true_iff.1 hs
  exact ⟨s, hrun, exists_attachedTo hfirst, exists_attachedTo hsecond, exists_attachedTo hleft⟩

/-- It is so whether each subscription is made in a registry of its own or all in the same one. -/
theorem growing_attached_twice : AttachedTwice .created 1 2 ∧ AttachedTwice (.existing 0) 0 0 :=
  ⟨attachedTwice_of_run (by decide +kernel), attachedTwice_of_run (by decide +kernel)⟩

end State

end DubboGo.Registry.MappingListener
