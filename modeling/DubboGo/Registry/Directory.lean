import DubboGo.ConfigCenter.Override
import DubboGo.Go.Panic

/-!
# The directory of a registry

`RegistryDirectory` of `registry/directory/directory.go`: the cache of invokers that `Notify`, `NotifyAll` and
`RemoveClosingInstance` keep, with the tombstones of closing instances, the configurators and the remembered provider
events.
-/

namespace DubboGo.Registry

open Go Common Lib ConfigCenter

def overrideProtocol : Str := str "override"
def routerProtocol : Str := str "router"
def defaultCategory : Str := str "providers"
def configuratorsCategory : Str := str "configurators"
def routerCategory : Str := str "category"
def clusterAnyAddr : Str := str "*"

inductive EventType where
  | add
  | del
  | update
  deriving DecidableEq

/-- `ServiceEvent`, as a registry sends it: its key has not been asked for and its URL has not been
merged. -/
structure ServiceEvent where
  action : EventType
  service : ServiceURL
  keyFunc : Option (ServiceURL → Str)

/-- What `Key` returns once the event has the URL `u`. -/
def ServiceEvent.keyOf (event : ServiceEvent) (u : ServiceURL) : Str :=
  match event.keyFunc with
  | none => u.cacheKey
  | some keyFunc => keyFunc u

def ServiceEvent.key (event : ServiceEvent) : Str := event.keyOf event.service

def ServiceEvent.ofAdd (p : ServiceURL) : ServiceEvent := ⟨.add, p, none⟩

def ServiceEvent.ofDel (p : ServiceURL) : ServiceEvent := ⟨.del, p, none⟩

/-- An event after `Update`, with its key.  `origin` is history: the URL that was merged. -/
structure UpdatedEvent where
  key : Str
  service : ServiceURL
  origin : ServiceURL

/-- An invoker, named by the number of the call to `Refer` that has created it.  `origin` is history:
the provider's URL, before it was merged. -/
structure Invoker where
  id : ℕ
  url : ServiceURL
  origin : ServiceURL

/-- What `List` can choose from: an invoker, or the cluster that joins a group of them. -/
inductive Member where
  | invoker (i : Invoker)
  | cluster (invokers : Multiset Invoker)

/-- `closingTombstone`, with the fields that are read. -/
structure ClosingTombstone where
  timestamp : Str
  expireAt : ℕ

/-- The reason of a panic of `NotifyAll`. -/
inductive Panic where
  /-- "Your implements of register center is wrong, please check the Action of ServiceEvent should be
  EventTypeUpdate". -/
  | action
  | runtime (e : RuntimeError)
  deriving DecidableEq

structure Setup where
  /-- `SubURL` of the URL of the directory. -/
  reference : ServiceURL
  localIp : Str
  closingTombstoneTTL : ℕ
  /-- `GetCompareURLEqualFunc`. -/
  compareURLEqual : ServiceURL → ServiceURL → Bool
  /-- Whether the `n`-th call to `Refer` returns an invoker. -/
  refers : (n : ℕ) → ServiceURL → Bool
  /-- Whether a cluster can be built for a group of invokers. -/
  joins : Multiset Invoker → Bool

/-- `RegistryDirectory`.  The number of calls to `Refer` so far, the invokers that have been put into
the cache and those handed to `Destroy` are history. -/
structure Directory where
  cacheInvokersMap : FiniteMap Str Invoker
  closingTombstones : FiniteMap Str ClosingTombstone
  cacheOriginUrl : Option ServiceURL
  cachedProviderEvents : List ServiceEvent
  configurators : List ServiceURL
  consumerConfigurators : List ServiceURL
  referenceConfigurators : List ServiceURL
  cacheInvokers : Multiset Member
  /-- The list that the router chain was given last. -/
  chainInvokers : Multiset Member
  refers : ℕ
  stored : Multiset Invoker
  destroyed : Multiset Invoker

def isConfiguratorURL (url : ServiceURL) : Bool :=
  url.protocol = overrideProtocol ∨ url.getParam categoryKey defaultCategory = configuratorsCategory

/-- The second case of `convertUrl`. -/
def isRouterURL (url : ServiceURL) : Bool :=
  url.protocol = routerProtocol ∨ url.getParam categoryKey defaultCategory = routerCategory

/-- A URL that `convertUrl` returns as it is. -/
def isProviderURL (url : ServiceURL) : Bool := !isConfiguratorURL url && !isRouterURL url

/-- The reference does not care about the protocol, or has that of the provider. -/
def Setup.Accepts (d : Setup) (url : ServiceURL) : Prop :=
  url.protocol = d.reference.protocol ∨ d.reference.protocol = []

instance Setup.Accepts.decidable (d : Setup) (url : ServiceURL) : Decidable (d.Accepts url) :=
  inferInstanceAs (Decidable (_ ∨ _))

/-- A setup with the comparison that is the default, in which `Refer` never fails. -/
def Setup.ofReference (reference : ServiceURL) : Setup where
  reference := reference
  localIp := str "192.168.0.1"
  closingTombstoneTTL := 30
  compareURLEqual := fun left right => left.isEquals right []
  refers := fun _ _ => true
  joins := fun _ => true

namespace Directory

def new : Directory where
  cacheInvokersMap := ∅
  closingTombstones := ∅
  cacheOriginUrl := none
  cachedProviderEvents := []
  configurators := []
  consumerConfigurators := []
  referenceConfigurators := []
  cacheInvokers := 0
  chainInvokers := 0
  refers := 0
  stored := 0
  destroyed := 0

variable (d : Setup)

/-! ## Publishing -/

def group (i : Invoker) : Str := i.url.getParam groupKey []

/-- `toGroupInvokers`: the invokers of the only group, or a cluster for each group. -/
def toGroupInvokers (m : FiniteMap Str Invoker) : Multiset Member :=
  let invokers := FiniteMap.values m
  let groups := (invokers.map group).dedup
  if groups.card = 1 then invokers.map .invoker
  else
    ((groups.map fun g => invokers.filter fun i => group i = g).filter fun members =>
      d.joins members = true).map .cluster

def setNewInvokers (s : Directory) : Directory :=
  { s with
    cacheInvokers := toGroupInvokers d s.cacheInvokersMap
    chainInvokers := toGroupInvokers d s.cacheInvokersMap }

/-- `Destroy` for each of the invokers. -/
def destroy (invokers : Multiset Invoker) (s : Directory) : Directory :=
  { s with destroyed := invokers + s.destroyed }

/-! ## Tombstones -/

def clearClosingTombstone (instanceKey : Str) (s : Directory) : Directory :=
  if instanceKey = [] then s
  else { s with closingTombstones := s.closingTombstones.erase instanceKey }

/-- `markClosingTombstone`, for an instance key that is not empty. -/
def markClosingTombstone (now : ℕ) (instanceKey : Str) (invoker : Option Invoker) (s : Directory) : Directory :=
  let timestamp :=
    match invoker with
    | some i => i.url.getParam timestampKey []
    | none => []
  { s with
    closingTombstones :=
      s.closingTombstones.insert instanceKey ⟨timestamp, now + d.closingTombstoneTTL⟩ }

/-- `activeClosingTombstone`; a tombstone that has expired is deleted. -/
def activeClosingTombstone (now : ℕ) (instanceKey : Str) (s : Directory) : Option ClosingTombstone × Directory :=
  if instanceKey = [] then (none, s)
  else
    match s.closingTombstones.lookup instanceKey with
    | none => (none, s)
    | some tombstone =>
      if tombstone.expireAt < now then
        (none, { s with closingTombstones := s.closingTombstones.erase instanceKey })
      else (some tombstone, s)

def cleanupExpiredClosingTombstones (now : ℕ) (s : Directory) : Directory :=
  { s with
    closingTombstones := FiniteMap.keep s.closingTombstones fun k =>
      (s.closingTombstones.lookup k).all fun tombstone => !decide (tombstone.expireAt < now) }

/-! ## Caching an invoker -/

def overrideUrl (targetUrl : ServiceURL) (s : Directory) : ServiceURL :=
  overrideAll d.localIp s.referenceConfigurators
    (overrideAll d.localIp s.consumerConfigurators (overrideAll d.localIp s.configurators targetUrl))

def effectiveURL (url : ServiceURL) (s : Directory) : ServiceURL :=
  overrideUrl d (url.mergeURL d.reference) s

/-- `event.Update` with the merged URL. -/
def update (event : ServiceEvent) (url : ServiceURL) (s : Directory) : UpdatedEvent :=
  ⟨event.keyOf (effectiveURL d url s), effectiveURL d url s, url⟩

def refer (e : UpdatedEvent) (s : Directory) : Option Invoker × Directory :=
  (if d.refers s.refers e.service then some ⟨s.refers, e.service, e.origin⟩ else none,
    { s with refers := s.refers + 1 })

def store (key : Str) (invoker : Invoker) (s : Directory) : Directory :=
  { s with
    cacheInvokersMap := s.cacheInvokersMap.insert key invoker
    stored := invoker ::ₘ s.stored }

/-- The second part of `doCacheInvoker`, where no tombstone is in the way. -/
def cacheReferred (e : UpdatedEvent) (s : Directory) : Option Invoker × Directory :=
  match s.cacheInvokersMap.lookup e.key with
  | none =>
    match refer d e s with
    | (some newInvoker, s) => (none, store e.key newInvoker s)
    | (none, s) => (none, s)
  | some existingInvoker =>
    if d.compareURLEqual e.service existingInvoker.url then (none, s)
    else
      match refer d e s with
      | (some newInvoker, s) => (some existingInvoker, store e.key newInvoker s)
      | (none, s) => (none, s)

/-- `doCacheInvoker`: the invoker that has been replaced.  Both its looks at the clock see `now`. -/
def doCacheInvoker (now : ℕ) (e : UpdatedEvent) (s : Directory) : Option Invoker × Directory :=
  match activeClosingTombstone now e.key (cleanupExpiredClosingTombstones now s) with
  | (some tombstone, s) =>
    let newTimestamp := e.service.getParam timestampKey []
    if tombstone.timestamp = [] ∨ newTimestamp = [] ∨ newTimestamp = tombstone.timestamp then (none, s)
    else cacheReferred d e (clearClosingTombstone e.key s)
  | (none, s) => cacheReferred d e s

/-- `convertUrl`; a configurator is appended to those of the directory. -/
def convertUrl (res : ServiceEvent) (s : Directory) : Option ServiceURL × Directory :=
  if isConfiguratorURL res.service then
    (none, { s with configurators := s.configurators ++ [res.service] })
  else if isRouterURL res.service then (none, s)
  else (some res.service, s)

def rememberOrigin (url : Option ServiceURL) (s : Directory) : Directory :=
  match url, s.cacheOriginUrl with
  | none, some _ => s
  | url, _ => { s with cacheOriginUrl := url }

def cacheInvoker (now : ℕ) (url : Option ServiceURL) (event : ServiceEvent) (s : Directory) :
    Option Invoker × Directory :=
  let s := rememberOrigin url s
  match s.cacheOriginUrl with
  | none => (none, s)
  | some url => if d.Accepts url then doCacheInvoker d now (update d event url s) s else (none, s)

/-! ## Removing invokers -/

def uncacheInvokerWithKey (key : Str) (s : Directory) : Option Invoker × Directory :=
  (s.cacheInvokersMap.lookup key, { s with cacheInvokersMap := s.cacheInvokersMap.erase key })

def inCluster (clusterID : Str) (s : Directory) (key : Str) : Bool :=
  (s.cacheInvokersMap.lookup key).any fun i => i.url.getParam meshClusterIDKey [] = clusterID

def uncacheInvokerWithClusterID (clusterID : Str) (s : Directory) : Multiset Invoker × Directory :=
  (FiniteMap.values (FiniteMap.keep s.cacheInvokersMap (inCluster clusterID s)),
    { s with
      cacheInvokersMap := FiniteMap.keep s.cacheInvokersMap fun k => !inCluster clusterID s k })

/-- `uncacheInvoker`: the invoker under the key of the event. -/
def uncacheInvoker (event : ServiceEvent) (s : Directory) : Option Invoker × Directory :=
  let s := clearClosingTombstone event.key s
  let clusterID := event.service.getParam meshClusterIDKey []
  let s :=
    -- what has been removed is dropped
    if event.service.location = clusterAnyAddr ∧ clusterID ≠ [] then
      (uncacheInvokerWithClusterID clusterID s).2
    else s
  uncacheInvokerWithKey event.key s

/-! ## The calls -/

/-- `cacheInvokerByEvent`: the invoker to destroy. -/
def cacheInvokerByEvent (now : ℕ) (event : ServiceEvent) (s : Directory) : Option Invoker × Directory :=
  match event.action with
  | .add | .update =>
    match convertUrl event s with
    | (none, s) =>
      if s.cacheOriginUrl.isNone then (none, s) else cacheInvoker d now none event s
    | (some u, s) => cacheInvoker d now (some u) event s
  | .del => uncacheInvoker event s

def notify (now : ℕ) (event : ServiceEvent) (s : Directory) : Directory :=
  let (oldInvoker, s) := cacheInvokerByEvent d now event s
  destroy oldInvoker.toList (setNewInvokers d s)

/-- The merging loop of `refreshAllInvokers`; `MergeURL` panics on the nil URL that `convertUrl`
returns for a URL which is no provider's. -/
def updateAll : List ServiceEvent → Directory → Option (List UpdatedEvent) × Directory
  | [], s => (some [], s)
  | event :: events, s =>
    match convertUrl event s with
    | (none, s) => (none, s)
    | (some u, s) =>
      match updateAll events s with
      | (none, s') => (none, s')
      | (some updated, s') => (some (update d event u s :: updated), s')

/-- The loop of `refreshAllInvokers` that caches the events, with what it has replaced.  The clock says
when the `i`-th of them is cached. -/
def cacheAll : (clock : ℕ → ℕ) → List UpdatedEvent → Directory → Multiset Invoker × Directory
  | _, [], s => (0, s)
  | clock, e :: es, s =>
    let (old, s) := doCacheInvoker d (clock 0) e s
    let (olds, s) := cacheAll (fun i => clock (i + 1)) es s
    (old.toList + olds, s)

/-- The loop of `refreshAllInvokers` that removes the invokers without an event. -/
def evict (keys : List Str) (s : Directory) : Multiset Invoker × Directory :=
  (FiniteMap.values (FiniteMap.keep s.cacheInvokersMap fun k => !decide (k ∈ keys)),
    { s with cacheInvokersMap := FiniteMap.keep s.cacheInvokersMap fun k => decide (k ∈ keys) })

/-- The rest of `refreshAllInvokers` after the merging loop. -/
def replaceAll (clock : ℕ → ℕ) (es : List UpdatedEvent) (s : Directory) : Directory :=
  let (evicted, s) := evict (es.map (·.key)) s
  let (replaced, s) := cacheAll d clock es s
  destroy (evicted + replaced) (setNewInvokers d s)

def replaceConfigurators (events : List ServiceEvent) (s : Directory) : Directory :=
  let configuratorURLs := (events.map (·.service)).filter isConfiguratorURL
  if configuratorURLs.isEmpty then s else { s with configurators := toConfigurators configuratorURLs }

def incomingProviders (events : List ServiceEvent) : List ServiceEvent :=
  events.filter fun event => !isConfiguratorURL event.service

/-- The provider events of a full notification: its own, which are remembered, or those remembered. -/
def providerEvents (events : List ServiceEvent) (s : Directory) : List ServiceEvent × Directory :=
  if !(incomingProviders events).isEmpty then
    (incomingProviders events, { s with cachedProviderEvents := incomingProviders events })
  else if !events.isEmpty then (s.cachedProviderEvents, s)
  else ([], { s with cachedProviderEvents := [] })

def refreshAllInvokers (clock : ℕ → ℕ) (events : List ServiceEvent) (s : Directory) : Option Panic × Directory :=
  if ∃ event ∈ events, event.action ≠ .update ∧ event.action ≠ .add then (some .action, s)
  else
    let (providers, s) := providerEvents events (replaceConfigurators events s)
    if providers.isEmpty ∧ !events.isEmpty then (none, s)
    else
      match updateAll d providers s with
      | (none, s) => (some (.runtime .nilPointer), s)
      | (some es, s) => (none, replaceAll d clock es s)

def notifyAll (clock : ℕ → ℕ) (events : List ServiceEvent) (s : Directory) : Option Panic × Directory :=
  refreshAllInvokers d clock events s

def removeClosingInstance (now : ℕ) (instanceKey : Str) (s : Directory) : Bool × Directory :=
  if instanceKey = [] then (false, s)
  else
    let s := markClosingTombstone d now instanceKey (s.cacheInvokersMap.lookup instanceKey) s
    match uncacheInvokerWithKey instanceKey s with
    | (some removed, s) => (true, destroy {removed} (setNewInvokers d s))
    | (none, s) => (false, s)

/-! ## A provider and references to it -/

def greeter : ServiceURL :=
  .ofProvider (str "10.0.0.1") (str "20880") (Params.empty.set interfaceKey (str "demo.Greeter"))

def greeterSince (timestamp : Str) : ServiceURL :=
  { greeter with params := greeter.params.set timestampKey timestamp }

def anyVersion : Setup := .ofReference (.ofProvider (str "10.0.0.9") (str "0") Params.empty)

def firstVersion : Setup :=
  .ofReference (.ofProvider (str "10.0.0.9") (str "0") (Params.empty.set versionKey (str "1.0.0")))

end Directory

end DubboGo.Registry
