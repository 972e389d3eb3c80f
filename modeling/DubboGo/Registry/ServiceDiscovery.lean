import DubboGo.Common.ServiceURL

/-!
# The services that the instances of a registry export

`refreshServiceURLs` of `registry/servicediscovery/service_instances_changed_listener_impl.go`.  The instances are
grouped by application, registry and revision; the metadata of a group is taken from the last refresh or fetched
through its instances until one answers; and the URLs of a service are made from the groups whose metadata exports it.
-/

namespace DubboGo.Registry.ServiceDiscovery

open Go Common Lib List Multiset Option FiniteMap

def environmentKey : Str := str "environment"
def exportedServicesRevisionPropertyName : Str := str "dubbo.metadata.revision"

/-- `ServiceInfo`; its two keys are empty until they are asked for. -/
structure ServiceInfo where
  name : Str
  group : Str
  version : Str
  protocol : Str
  port : ℤ
  path : Str
  params : FiniteMap Str Str
  serviceKey : Str
  matchKey : Str

namespace ServiceInfo

variable (si : ServiceInfo)

def getServiceKey : Str :=
  if si.serviceKey ≠ [] then si.serviceKey else Common.serviceKey si.name si.group si.version

def getMatchKey : Str :=
  if si.matchKey ≠ [] then si.matchKey else si.getServiceKey ++ str ":" ++ si.protocol

def deepCopy : ServiceInfo :=
  { si with serviceKey := si.getServiceKey, matchKey := si.getMatchKey }

end ServiceInfo

/-- `MetadataInfo`, with the values of its map of services; nobody reads the keys. -/
structure MetadataInfo where
  services : List ServiceInfo

def MetadataInfo.getServices (m : MetadataInfo) : List ServiceInfo :=
  m.services.map ServiceInfo.deepCopy

/-- `ServiceInstance`, with the methods that are called here. -/
structure ServiceInstance where
  /-- `GetServiceName`: the application. -/
  serviceName : Str
  /-- `GetMetadata`. -/
  metadata : Option (FiniteMap Str Str)
  toURLs : ServiceInfo → List ServiceURL

def setEnvironment (environment : Option Str) (url : ServiceURL) : ServiceURL :=
  match environment with
  | some value =>
    if value.length > 0 then { url with params := url.params.set environmentKey value }
    else { url with params := url.params.del environmentKey }
  | none => { url with params := url.params.del environmentKey }

def toInstanceServiceURLs (inst : ServiceInstance) (serviceInfo : ServiceInfo) : List ServiceURL :=
  match inst.metadata with
  | none => (inst.toURLs serviceInfo).map (setEnvironment none)
  | some metadata => (inst.toURLs serviceInfo).map (setEnvironment (metadata.lookup environmentKey))

def metadataCacheKey (app registryId revision : Str) : Str :=
  app ++ str ":" ++ registryId ++ str ":" ++ revision

/-- What `metadataInfoFetcher` returns: an error, or metadata that may be nil. -/
inductive FetchResult where
  | error
  | ok (metadataInfo : Option MetadataInfo)

def FetchResult.metadataInfo : FetchResult → Option MetadataInfo
  | error => none
  | ok metadataInfo => metadataInfo

/-- The visit to an instance in the loop: what a fetch through it would return, and the order in which
the loop goes through a map of services. -/
structure Visit where
  inst : ServiceInstance
  fetch : FetchResult
  range : List ServiceInfo → List ServiceInfo
  perm : ∀ services, (range services).Perm services

/-- The local maps of `refreshServiceURLs`. -/
structure Build where
  revisionToInstances : FiniteMap Str (List ServiceInstance)
  newRevisionToMetadata : FiniteMap Str MetadataInfo
  serviceToRevisionServices : FiniteMap Str (FiniteMap Str ServiceInfo)
  unresolved : Finset Str

namespace Build

def empty : Build := ⟨∅, ∅, ∅, ∅⟩

def addInstance (key : Str) (inst : ServiceInstance) (b : Build) : Build :=
  { b with
    revisionToInstances :=
      b.revisionToInstances.insert key ((b.revisionToInstances.lookup key).getD [] ++ [inst]) }

/-- `serviceToRevisionServices[matchKey][key] = service`. -/
def exportService (key : Str) (services : FiniteMap Str (FiniteMap Str ServiceInfo))
    (service : ServiceInfo) : FiniteMap Str (FiniteMap Str ServiceInfo) :=
  let matchKey := service.getMatchKey
  services.insert matchKey (((services.lookup matchKey).getD ∅).insert key service)

/-- The metadata of a key is known; `services` are the services that it exports. -/
def resolve (key : Str) (metadataInfo : MetadataInfo) (services : List ServiceInfo) (b : Build) : Build :=
  { b with
    serviceToRevisionServices := services.foldl (exportService key) b.serviceToRevisionServices
    newRevisionToMetadata := b.newRevisionToMetadata.insert key metadataInfo }

def markUnresolved (key : Str) (b : Build) : Build := { b with unresolved := insert key b.unresolved }

end Build

/-- The key of an instance; `none` if it is skipped, for it has no metadata or no services. -/
def revisionKey (registryId : Str) (inst : ServiceInstance) : Option Str :=
  match inst.metadata with
  | none => none
  | some metadata =>
    let revision := (metadata.lookup exportedServicesRevisionPropertyName).getD []
    if revision = str "0" then none else some (metadataCacheKey inst.serviceName registryId revision)

def visit (registryId : Str) (cachedMetadata : FiniteMap Str MetadataInfo) (b : Build) (v : Visit) : Build :=
  match revisionKey registryId v.inst with
  | none => b
  | some key =>
    let b := b.addInstance key v.inst
    match (b.newRevisionToMetadata.lookup key).or (cachedMetadata.lookup key) with
    | some metadataInfo => b.resolve key metadataInfo (v.range metadataInfo.getServices)
    | none =>
      match v.fetch with
      | .error => b.markUnresolved key
      | .ok none => b.markUnresolved key
      | .ok (some metadataInfo) => b.resolve key metadataInfo (v.range metadataInfo.getServices)

def newServiceURLs (b : Build) (serviceKey : Str) : Multiset ServiceURL :=
  match b.serviceToRevisionServices.lookup serviceKey with
  | none => 0
  | some revisionServices =>
    revisionServices.entries.bind fun e =>
      (((b.revisionToInstances.lookup e.1).getD [] : List ServiceInstance) : Multiset ServiceInstance).bind
        fun i => (toInstanceServiceURLs i e.2 : List ServiceURL)

/-- `ServiceInstancesChangedListenerImpl`, as far as the instances go. -/
structure Listener where
  registryId : Str
  allInstances : FiniteMap Str (List ServiceInstance)
  revisionToMetadata : FiniteMap Str MetadataInfo
  serviceUrls : Str → Multiset ServiceURL
  unresolvedRevisions : Finset Str

/-- `refreshServiceURLs`, with the visits of its loop: whether everything has been resolved. -/
def refreshServiceURLs (visits : List Visit) (l : Listener) : Bool × Listener :=
  let b := visits.foldl (visit l.registryId l.revisionToMetadata) .empty
  (b.unresolved = ∅,
    { l with
      revisionToMetadata := b.newRevisionToMetadata
      serviceUrls := newServiceURLs b
      unresolvedRevisions := b.unresolved })

/-- The visits of a loop over the instances of a listener, which takes the applications in any order. -/
def IsRound (l : Listener) (visits : List Visit) : Prop :=
  ∃ order : List ((_ : Str) × List ServiceInstance), (order : Multiset _) = l.allInstances.entries ∧
    visits.map Visit.inst = order.flatMap Sigma.snd

/-! ## What the loop does -/

def Listener.instances (l : Listener) : Multiset ServiceInstance :=
  l.allInstances.entries.bind fun e => (e.2 : Multiset ServiceInstance)

/-- The metadata of a key: that of the last refresh, or the first that a visit has fetched. -/
def resolvedMetadata (registryId : Str) (cachedMetadata : FiniteMap Str MetadataInfo)
    (visits : List Visit) (key : Str) : Option MetadataInfo :=
  (cachedMetadata.lookup key).or (visits.findSome? fun v =>
    if revisionKey registryId v.inst = some key then v.fetch.metadataInfo else none)

/-- The service info that metadata has for a service.  If there are several, it is one of them. -/
def IsExport (metadataInfo : Option MetadataInfo) (s : Str) : Option ServiceInfo → Prop
  | some info => ∃ m, metadataInfo = some m ∧ info ∈ m.getServices ∧ info.getMatchKey = s
  | none => ∀ m, metadataInfo = some m → ∀ info ∈ m.getServices, info.getMatchKey ≠ s

def Build.exported (b : Build) (s key : Str) : Option ServiceInfo :=
  (b.serviceToRevisionServices.lookup s).bind (·.lookup key)

structure Built (registryId : Str) (cachedMetadata : FiniteMap Str MetadataInfo) (visits : List Visit)
    (b : Build) : Prop where
  instances : ∀ key, (b.revisionToInstances.lookup key).getD [] =
    (visits.filter fun v => revisionKey registryId v.inst = some key).map Visit.inst
  metadata : ∀ key, b.newRevisionToMetadata.lookup key =
    if ∃ v ∈ visits, revisionKey registryId v.inst = some key then
      resolvedMetadata registryId cachedMetadata visits key
    else none
  services : ∀ s key, IsExport (b.newRevisionToMetadata.lookup key) s (b.exported s key)

section Export

variable {key : Str}

theorem lookup_exportService (svcs : FiniteMap Str (FiniteMap Str ServiceInfo))
    (svc : ServiceInfo) (s key' : Str) :
    ((Build.exportService key svcs svc).lookup s).bind (·.lookup key') =
      if svc.getMatchKey = s ∧ key' = key then some svc
      else (svcs.lookup s).bind (·.lookup key') := by
  dsimp only [Build.exportService]
  rw [lookup_insert]
  by_cases hs : s = svc.getMatchKey
  · rw [if_pos hs, bind_some, lookup_insert]
    by_cases hkey : key' = key
    · rw [if_pos hkey, if_pos ⟨hs.symm, hkey⟩]
    · rw [if_neg hkey, if_neg fun h => hkey h.2, ← hs]
      cases svcs.lookup s <;> rfl
  · rw [if_neg hs, if_neg fun h => hs h.1.symm]

theorem lookup_exportServices_of_ne {key' : Str} (h : key' ≠ key) (infos : List ServiceInfo)
    (svcs : FiniteMap Str (FiniteMap Str ServiceInfo)) (s : Str) :
    ((infos.foldl (Build.exportService key) svcs).lookup s).bind (·.lookup key') =
      (svcs.lookup s).bind (·.lookup key') := by
  induction infos generalizing svcs with
  | nil => rfl
  | cons info infos ih => rw [List.foldl_cons, ih, lookup_exportService, if_neg fun h' => h h'.2]

theorem lookup_exportServices (infos : List ServiceInfo)
    (svcs : FiniteMap Str (FiniteMap Str ServiceInfo)) (s : Str) : (∃ info ∈ infos, info.getMatchKey = s ∧
      ((infos.foldl (Build.exportService key) svcs).lookup s).bind (·.lookup key) = some info) ∨
    (∀ info ∈ infos, info.getMatchKey ≠ s) ∧
      ((infos.foldl (Build.exportService key) svcs).lookup s).bind (·.lookup key) =
        (svcs.lookup s).bind (·.lookup key) := by
  induction infos generalizing svcs with
  | nil => exact .inr ⟨fun _ h => absurd h not_mem_nil, rfl⟩
  | cons info infos ih =>
    obtain ⟨info', hmem, hmatch, heq⟩ | ⟨hnone, heq⟩ := ih (Build.exportService key svcs info)
    · exact .inl ⟨info', mem_cons_of_mem _ hmem, hmatch, heq⟩
    · rw [lookup_exportService] at heq
      by_cases hs : info.getMatchKey = s
      · rw [if_pos ⟨hs, rfl⟩] at heq
        exact .inl ⟨info, mem_cons_self, hs, heq⟩
      · rw [if_neg fun h => hs h.1] at heq
        refine .inr ⟨?_, heq⟩
        intro info' hmem
        rcases mem_cons.1 hmem with rfl | hmem
        · exact hs
        · exact hnone info' hmem

end Export

section Visits

variable {rid : Str} {cached : FiniteMap Str MetadataInfo} {vs : List Visit} {b : Build} {key : Str} {v : Visit}

theorem resolvedMetadata_concat (vs : List Visit) (v : Visit) (key : Str) :
    resolvedMetadata rid cached (vs ++ [v]) key =
      (resolvedMetadata rid cached vs key).or
        (if revisionKey rid v.inst = some key then v.fetch.metadataInfo else none) := by
  unfold resolvedMetadata
  rw [List.findSome?_append, Option.or_assoc]
  congr 2
  split_ifs with h <;> simp [h]

theorem exists_concat_iff : (∃ v' ∈ vs ++ [v], revisionKey rid v'.inst = some key) ↔
      (∃ v' ∈ vs, revisionKey rid v'.inst = some key) ∨ revisionKey rid v.inst = some key := by
  simp only [List.mem_append, List.mem_singleton, or_and_right, exists_or, exists_eq_left]

theorem instances_concat (vs : List Visit) (v : Visit) (key : Str) :
    ((vs ++ [v]).filter fun v => revisionKey rid v.inst = some key).map Visit.inst =
      (vs.filter fun v => revisionKey rid v.inst = some key).map Visit.inst ++
        if revisionKey rid v.inst = some key then [v.inst] else [] := by
  split_ifs with h <;> simp [h]

namespace Built

variable (h : Built rid cached vs b)

include h

theorem known (key : Str) : (b.newRevisionToMetadata.lookup key).or (cached.lookup key) =
      resolvedMetadata rid cached vs key := by
  rw [h.metadata]
  unfold resolvedMetadata
  split_ifs with hvisited
  · cases cached.lookup key with
    | none => rw [none_or, or_none]
    | some m => rfl
  · have hnone : (vs.findSome? fun v =>
        if revisionKey rid v.inst = some key then v.fetch.metadataInfo else none) = none := by
      rw [findSome?_eq_none_iff]
      intro v hv
      exact if_neg fun hkey => hvisited ⟨v, hv, hkey⟩
    rw [hnone, none_or, or_none]

theorem skip (hkey : revisionKey rid v.inst = none) : Built rid cached (vs ++ [v]) b := by
  have hne : ∀ key, ¬ revisionKey rid v.inst = some key := by
    intro key heq
    rw [hkey] at heq
    cases heq
  refine ⟨?_, ?_, h.services⟩
  · intro key
    rw [instances_concat, if_neg (hne key), append_nil]
    exact h.instances key
  · intro key
    rw [h.metadata, resolvedMetadata_concat, if_neg (hne key), or_none]
    simp only [exists_concat_iff, hne key, or_false]

section

variable (hkey : revisionKey rid v.inst = some key)

include hkey

theorem instances_visit (key' : Str) : ((b.addInstance key v.inst).revisionToInstances.lookup key').getD [] =
      ((vs ++ [v]).filter fun v => revisionKey rid v.inst = some key').map Visit.inst := by
  dsimp only [Build.addInstance]
  rw [instances_concat, hkey, lookup_insert, ← h.instances key']
  by_cases heq : key' = key
  · rw [if_pos heq, if_pos (congrArg some heq.symm), heq]
    rfl
  · rw [if_neg heq, if_neg fun h => heq (Option.some.inj h).symm, append_nil]

theorem unresolved (hknown : resolvedMetadata rid cached vs key = none) (hfetch : v.fetch.metadataInfo = none) :
    Built rid cached (vs ++ [v]) ((b.addInstance key v.inst).markUnresolved key) := by
  refine ⟨h.instances_visit hkey, ?_, h.services⟩
  intro key'
  dsimp only [Build.markUnresolved, Build.addInstance]
  rw [h.metadata, resolvedMetadata_concat, hfetch, ite_self, or_none]
  simp only [exists_concat_iff, hkey, Option.some.injEq]
  by_cases heq : key = key'
  · rw [← heq, hknown, ite_self, ite_self]
  · simp only [heq, or_false]

theorem resolve {m : MetadataInfo} (hknown : (resolvedMetadata rid cached vs key).or v.fetch.metadataInfo = some m) :
    Built rid cached (vs ++ [v]) ((b.addInstance key v.inst).resolve key m (v.range m.getServices)) := by
  refine ⟨h.instances_visit hkey, ?_, ?_⟩
  · intro key'
    dsimp only [Build.resolve, Build.addInstance]
    rw [lookup_insert, resolvedMetadata_concat]
    simp only [exists_concat_iff, hkey, Option.some.injEq]
    by_cases heq : key' = key
    · rw [if_pos heq, if_pos (.inr heq.symm), if_pos heq.symm, heq, hknown]
    · rw [if_neg heq, h.metadata, if_neg (Ne.symm heq), or_none]
      simp only [Ne.symm heq, or_false]
  · intro s key'
    have hservices := h.services s key'
    dsimp only [Build.resolve, Build.addInstance, Build.exported] at hservices ⊢
    rw [lookup_insert]
    by_cases heq : key' = key
    · subst heq
      rw [if_pos rfl]
      obtain ⟨info, hmem, hmatch, hinfo⟩ | ⟨hnone, hsame⟩ :=
        lookup_exportServices (v.range m.getServices) b.serviceToRevisionServices s
      · rw [hinfo]
        exact ⟨m, rfl, (v.perm _).mem_iff.1 hmem, hmatch⟩
      · -- nothing is exported now, and nothing was before: the metadata has been the same
        rw [hsame]
        have hrange : ∀ info ∈ m.getServices, info.getMatchKey ≠ s :=
          fun info hmem => hnone info ((v.perm _).mem_iff.2 hmem)
        cases hold : (b.serviceToRevisionServices.lookup s).bind (·.lookup key') with
        | none =>
          intro m' hm'
          cases hm'
          exact hrange
        | some info =>
          rw [hold] at hservices
          obtain ⟨m', hm', hmem, hmatch⟩ := hservices
          have hknown' := h.known key'
          rw [hm', some_or] at hknown'
          rw [← hknown', some_or, Option.some.injEq] at hknown
          subst hknown
          exact absurd hmatch (hrange info hmem)
    · rw [if_neg heq, lookup_exportServices_of_ne heq]
      exact hservices

end

theorem visit (v : Visit) : Built rid cached (vs ++ [v]) (visit rid cached b v) := by
  unfold ServiceDiscovery.visit
  cases hkey : revisionKey rid v.inst with
  | none => exact h.skip hkey
  | some key =>
    dsimp only
    have hknown : ((b.addInstance key v.inst).newRevisionToMetadata.lookup key).or
        (cached.lookup key) = resolvedMetadata rid cached vs key := h.known key
    rw [hknown]
    cases hresolved : resolvedMetadata rid cached vs key with
    | some m => exact h.resolve hkey (by rw [hresolved, some_or])
    | none =>
      cases hfetch : v.fetch with
      | error => exact h.unresolved hkey hresolved (by rw [hfetch]; rfl)
      | ok info =>
        cases info with
        | none => exact h.unresolved hkey hresolved (by rw [hfetch]; rfl)
        | some m => exact h.resolve hkey (by rw [hresolved, hfetch]; rfl)

end Built

theorem built_foldl (rid : Str) (cached : FiniteMap Str MetadataInfo) (vs : List Visit) :
    Built rid cached vs (vs.foldl (visit rid cached) .empty) := by
  induction vs using reverseRecOn with
  | nil => exact ⟨fun _ => rfl, fun _ => (if_neg fun ⟨_, hv, _⟩ => absurd hv not_mem_nil).symm,
      fun _ _ m hm => by cases hm⟩
  | append_singleton vs v ih =>
    rw [foldl_append]
    exact ih.visit v

end Visits

/-! ## The URLs of a service -/

def instanceURLs (registryId : Str) (exported : Str → Option ServiceInfo) (i : ServiceInstance) :
    Multiset ServiceURL :=
  ((revisionKey registryId i).bind exported).elim 0 fun info => (toInstanceServiceURLs i info : List ServiceURL)

theorem newServiceURLs_eq {registryId : Str} {cachedMetadata : FiniteMap Str MetadataInfo}
    {visits : List Visit} {b : Build} (h : Built registryId cachedMetadata visits b) (s : Str) : newServiceURLs b s =
      ((visits.map Visit.inst : List ServiceInstance) : Multiset ServiceInstance).bind
        (instanceURLs registryId (b.exported s)) := by
  have hvisits : ((visits.map Visit.inst : List ServiceInstance) : Multiset ServiceInstance).bind
      (instanceURLs registryId (b.exported s)) =
      (visits : Multiset Visit).bind fun v => instanceURLs registryId (b.exported s) v.inst := by
    rw [← Multiset.map_coe, Multiset.bind_map]
  rw [hvisits]
  unfold newServiceURLs
  cases hs : b.serviceToRevisionServices.lookup s with
  | none =>
    have hzero : ∀ v ∈ (visits : Multiset Visit), instanceURLs registryId (b.exported s) v.inst = 0 := by
      intro v _
      have hexported : b.exported s = fun _ => none := by
        funext key
        rw [Build.exported, hs]
        rfl
      rw [instanceURLs, hexported, bind_fun_none]
      rfl
    rw [bind_congr hzero, bind_zero]
  | some rsvcs =>
    have hexported : b.exported s = fun key => rsvcs.lookup key := by
      funext key
      rw [Build.exported, hs]
      rfl
    have hregroup := bind_entries_filter rsvcs (fun v : Visit => revisionKey registryId v.inst)
      (fun v info => (toInstanceServiceURLs v.inst info : Multiset ServiceURL)) visits
    rw [hexported]
    refine Eq.trans (bind_congr fun e _ => ?_) hregroup
    rw [h.instances, ← Multiset.map_coe, Multiset.bind_map]

theorem IsRound.coe_insts {l : Listener} {visits : List Visit} (h : IsRound l visits) :
    ((visits.map Visit.inst : List ServiceInstance) : Multiset ServiceInstance) = l.instances := by
  obtain ⟨order, hord, hins⟩ := h
  rw [hins, Listener.instances, ← hord, coe_bind]

/-- The URLs of a service are those of the instances that export it: of each instance that has metadata
and services, and whose key has been resolved with a service info for that service, by whichever
instance. -/
theorem serviceUrls_refresh {l : Listener} {visits : List Visit} (h : IsRound l visits) (s : Str) :
    ∃ exported : Str → Option ServiceInfo, (∀ i ∈ l.instances, ∀ key ∈ revisionKey l.registryId i,
        IsExport (resolvedMetadata l.registryId l.revisionToMetadata visits key) s (exported key)) ∧
      (refreshServiceURLs visits l).2.serviceUrls s = l.instances.bind (instanceURLs l.registryId exported) := by
  have hbuilt := built_foldl l.registryId l.revisionToMetadata visits
  refine ⟨(visits.foldl (visit l.registryId l.revisionToMetadata) .empty).exported s, ?_, ?_⟩
  · intro i hi key hkey
    rw [← h.coe_insts, mem_coe] at hi
    obtain ⟨v, hv, rfl⟩ := mem_map.1 hi
    have hexport := hbuilt.services s key
    rw [hbuilt.metadata, if_pos ⟨v, hv, hkey⟩] at hexport
    exact hexport
  · rw [← h.coe_insts]
    exact newServiceURLs_eq hbuilt s

def greeterInfo : ServiceInfo where
  name := str "demo.Greeter"
  group := []
  version := []
  protocol := str "tri"
  port := 20000
  path := str "demo.Greeter"
  params := ∅
  serviceKey := []
  matchKey := []

/-- The key of the service for the protocol `tri`. -/
def greeterKey : Str := str "demo.Greeter:tri"

def instanceAt (host : Str) : ServiceInstance where
  serviceName := str "greeter"
  metadata := some ((∅ : FiniteMap Str Str).insert exportedServicesRevisionPropertyName (str "1"))
  toURLs := fun service => [.ofProvider host (str "20000") (Params.empty.set interfaceKey service.name)]

def visitOf (host : Str) (fetch : FetchResult) : Visit := ⟨instanceAt host, fetch, id, fun _ => .refl _⟩

def twoInstances : Listener where
  registryId := str "default"
  allInstances :=
    (∅ : FiniteMap Str _).insert (str "greeter") [instanceAt (str "10.0.0.1"), instanceAt (str "10.0.0.2")]
  revisionToMetadata := ∅
  serviceUrls := fun _ => 0
  unresolvedRevisions := ∅

def secondAnswers : List Visit :=
  [visitOf (str "10.0.0.1") .error, visitOf (str "10.0.0.2") (.ok (some ⟨[greeterInfo]⟩))]

theorem isRound_secondAnswers : IsRound twoInstances secondAnswers :=
  ⟨[⟨str "greeter", [instanceAt (str "10.0.0.1"), instanceAt (str "10.0.0.2")]⟩], rfl, rfl⟩

theorem serviceUrls_of_secondAnswers :
    (((refreshServiceURLs secondAnswers twoInstances).2.serviceUrls (str "demo.Greeter:tri")).map
      (·.ip) = {str "10.0.0.1", str "10.0.0.2"}) ∧
    ∃ exported : Str → Option ServiceInfo,
      (∀ i ∈ twoInstances.instances, ∀ key ∈ revisionKey (str "default") i,
        IsExport (resolvedMetadata (str "default") ∅ secondAnswers key) (str "demo.Greeter:tri") (exported key)) ∧
      (refreshServiceURLs secondAnswers twoInstances).2.serviceUrls (str "demo.Greeter:tri") =
        twoInstances.instances.bind (instanceURLs (str "default") exported) :=
  ⟨by decide +kernel, serviceUrls_refresh isRound_secondAnswers _⟩

/-! ## What a refresh reports -/

section Reports

variable {registryId : Str} {cachedMetadata : FiniteMap Str MetadataInfo} {visits : List Visit}
  {b : Build} {key : Str} {v : Visit}

/-- The first visit of an instance with the key. -/
def firstVisit (registryId : Str) (visits : List Visit) (key : Str) : Option Visit :=
  visits.find? fun v => revisionKey registryId v.inst = some key

theorem firstVisit_concat (hkey : revisionKey registryId v.inst = some key) (key' : Str) :
    firstVisit registryId (visits ++ [v]) key' =
      (firstVisit registryId visits key').or (if key = key' then some v else none) := by
  unfold firstVisit
  rw [find?_append]
  congr 1
  by_cases heq : key = key' <;> simp [hkey, heq]

theorem of_firstVisit {first : Visit} (h : firstVisit registryId visits key = some first) :
    first ∈ visits ∧ revisionKey registryId first.inst = some key := by
  have hkey := List.find?_some h
  exact ⟨mem_of_find?_eq_some h, of_decide_eq_true hkey⟩

theorem firstVisit_of_mem {u : Visit} (hu : u ∈ visits) (hkey : revisionKey registryId u.inst = some key) :
    ∃ first, firstVisit registryId visits key = some first ∧ first ∈ visits ∧
      revisionKey registryId first.inst = some key := by
  have hsome : (firstVisit registryId visits key).isSome = true := find?_isSome.2 ⟨u, hu, decide_eq_true hkey⟩
  obtain ⟨first, hfirst⟩ := Option.isSome_iff_exists.1 hsome
  exact ⟨first, hfirst, of_firstVisit hfirst⟩

theorem resolvedMetadata_eq_none_iff : resolvedMetadata registryId cachedMetadata visits key = none ↔
    cachedMetadata.lookup key = none ∧
      ∀ u ∈ visits, revisionKey registryId u.inst = some key → u.fetch.metadataInfo = none := by
  unfold resolvedMetadata
  rw [or_eq_none_iff, findSome?_eq_none_iff]
  refine and_congr_right fun _ => forall₂_congr fun u _ => ?_
  split_ifs with hkey <;> simp [hkey]

/-- A key is marked if its metadata is not cached and its first visit brings none, whatever later visits bring. -/
theorem mem_unresolved_foldl (key : Str) :
    key ∈ (visits.foldl (visit registryId cachedMetadata) .empty).unresolved ↔
      cachedMetadata.lookup key = none ∧
        ∃ first ∈ firstVisit registryId visits key, first.fetch.metadataInfo = none := by
  induction visits using reverseRecOn with
  | nil => simp [Build.empty, firstVisit]
  | append_singleton visits v ih =>
    have hbuilt := built_foldl registryId cachedMetadata visits
    rw [foldl_append, List.foldl_cons, List.foldl_nil]
    generalize visits.foldl (visit registryId cachedMetadata) .empty = b at ih hbuilt ⊢
    unfold visit
    cases hkey : revisionKey registryId v.inst with
    | none =>
      have hsame : firstVisit registryId (visits ++ [v]) key = firstVisit registryId visits key := by
        simp [firstVisit, hkey]
      rw [hsame]
      exact ih
    | some k =>
      have hknown := hbuilt.known k
      rw [firstVisit_concat hkey]
      dsimp only [Build.addInstance]
      rw [hknown]
      by_cases heq : k = key
      · subst heq
        rw [if_pos rfl]
        cases hresolved : resolvedMetadata registryId cachedMetadata visits k with
        | some m =>
          -- the metadata is cached, or an earlier visit has brought it
          refine Iff.trans ih (and_congr_right fun hcached => ?_)
          have hbrought : ∃ u ∈ visits, revisionKey registryId u.inst = some k := by
            by_contra hno
            push Not at hno
            have hnone := resolvedMetadata_eq_none_iff.2 ⟨hcached, fun u hu hk => absurd hk (hno u hu)⟩
            rw [hresolved] at hnone
            cases hnone
          obtain ⟨u, hu, huk⟩ := hbrought
          obtain ⟨first, hfirst, -⟩ := firstVisit_of_mem hu huk
          rw [hfirst, some_or]
        | none =>
          obtain ⟨hcached, hfailed⟩ := resolvedMetadata_eq_none_iff.1 hresolved
          cases hfetch : v.fetch.metadataInfo with
          | none =>
            have hmarked : ∃ first ∈ (firstVisit registryId visits k).or (some v),
                first.fetch.metadataInfo = none := by
              cases hfirst : firstVisit registryId visits k with
              | none => exact ⟨v, rfl, hfetch⟩
              | some first =>
                obtain ⟨hmem, hfkey⟩ := of_firstVisit hfirst
                exact ⟨first, rfl, hfailed first hmem hfkey⟩
            cases hv : v.fetch with
            | error => exact iff_of_true (Finset.mem_insert_self _ _) ⟨hcached, hmarked⟩
            | ok info =>
              rw [hv] at hfetch
              cases hfetch
              exact iff_of_true (Finset.mem_insert_self _ _) ⟨hcached, hmarked⟩
          | some m =>
            have hv : v.fetch = .ok (some m) := by
              cases hv : v.fetch with
              | error => rw [hv] at hfetch; cases hfetch
              | ok info => rw [hv] at hfetch; exact congrArg _ hfetch
            simp only [hv, Build.resolve]
            rw [ih]
            refine and_congr_right fun _ => ?_
            cases firstVisit registryId visits k <;> simp [hfetch]
      · rw [if_neg heq, or_none, ← ih]
        cases resolvedMetadata registryId cachedMetadata visits k with
        | some m => rfl
        | none =>
          cases v.fetch with
          | error => simp [Build.markUnresolved, Ne.symm heq]
          | ok info =>
            cases info with
            | none => simp [Build.markUnresolved, Ne.symm heq]
            | some m => rfl

end Reports

/-- The unresolved revisions after a refresh are the keys of instances that have no metadata, and it reports whether
there are none, exactly if for no key that is not cached a later visit answers when the first one has not. -/
theorem refreshServiceURLs_reports {l : Listener} {visits : List Visit} (h : IsRound l visits) :
    ((∀ key, key ∈ (refreshServiceURLs visits l).2.unresolvedRevisions ↔
        (∃ i ∈ l.instances, revisionKey l.registryId i = some key) ∧
          key ∉ (refreshServiceURLs visits l).2.revisionToMetadata) ∧
      ((refreshServiceURLs visits l).1 = true ↔ (refreshServiceURLs visits l).2.unresolvedRevisions = ∅) ∧
      ((refreshServiceURLs visits l).1 = true ↔ ∀ i ∈ l.instances, ∀ key ∈ revisionKey l.registryId i,
        key ∈ (refreshServiceURLs visits l).2.revisionToMetadata)) ↔
      ∀ key, l.revisionToMetadata.lookup key = none → ∀ first ∈ firstVisit l.registryId visits key,
        first.fetch.metadataInfo = none → ∀ v ∈ visits, revisionKey l.registryId v.inst = some key →
          v.fetch.metadataInfo = none := by
  have hmarked : ∀ key, key ∈ (refreshServiceURLs visits l).2.unresolvedRevisions ↔
      l.revisionToMetadata.lookup key = none ∧
        ∃ first ∈ firstVisit l.registryId visits key, first.fetch.metadataInfo = none := mem_unresolved_foldl
  have hmissing : ∀ key, ((∃ i ∈ l.instances, revisionKey l.registryId i = some key) ∧
        key ∉ (refreshServiceURLs visits l).2.revisionToMetadata) ↔
      (∃ v ∈ visits, revisionKey l.registryId v.inst = some key) ∧ l.revisionToMetadata.lookup key = none ∧
        ∀ v ∈ visits, revisionKey l.registryId v.inst = some key → v.fetch.metadataInfo = none := by
    intro key
    rw [← Finmap.lookup_eq_none, ← h.coe_insts]
    simp only [mem_coe, List.mem_map, exists_exists_and_eq_and]
    refine and_congr_right fun hvisited => ?_
    have hmetadata := (built_foldl l.registryId l.revisionToMetadata visits).metadata key
    rw [if_pos hvisited] at hmetadata
    rw [← resolvedMetadata_eq_none_iff, ← hmetadata]
    rfl
  have hreport : (refreshServiceURLs visits l).1 = true ↔
      (refreshServiceURLs visits l).2.unresolvedRevisions = ∅ := decide_eq_true_iff
  constructor
  · rintro ⟨hexact, -, -⟩ key hcached first hfirst hfailed
    exact ((hmissing key).1 ((hexact key).1 ((hmarked key).2 ⟨hcached, first, hfirst, hfailed⟩))).2.2
  intro hfirst
  have hexact : ∀ key, key ∈ (refreshServiceURLs visits l).2.unresolvedRevisions ↔
      (∃ i ∈ l.instances, revisionKey l.registryId i = some key) ∧
        key ∉ (refreshServiceURLs visits l).2.revisionToMetadata := by
    intro key
    rw [hmarked, hmissing]
    constructor
    · rintro ⟨hcached, first, hf, hfailed⟩
      exact ⟨⟨first, of_firstVisit hf⟩, hcached, hfirst key hcached first hf hfailed⟩
    · rintro ⟨⟨v, hv, hkey⟩, hcached, hall⟩
      obtain ⟨first, hf, hmem, hfkey⟩ := firstVisit_of_mem hv hkey
      exact ⟨hcached, first, hf, hall first hmem hfkey⟩
  refine ⟨hexact, hreport, hreport.trans ?_⟩
  rw [Finset.eq_empty_iff_forall_notMem]
  constructor
  · intro hnone i hi key hkey
    by_contra hout
    exact hnone key ((hexact key).2 ⟨⟨i, hi, hkey⟩, hout⟩)
  · intro hall key hk
    obtain ⟨⟨i, hi, hkey⟩, hout⟩ := (hexact key).1 hk
    exact hout (hall i hi key hkey)

/-- The second instance is not asked, as the first has answered. -/
def firstAnswers : List Visit :=
  [visitOf (str "10.0.0.1") (.ok (some ⟨[greeterInfo]⟩)), visitOf (str "10.0.0.2") .error]

theorem refreshServiceURLs_firstAnswers :
    (refreshServiceURLs firstAnswers twoInstances).1 = true ∧
      ∀ i ∈ twoInstances.instances, ∀ key ∈ revisionKey (str "default") i,
        key ∈ (refreshServiceURLs firstAnswers twoInstances).2.revisionToMetadata := by
  have hrnd : IsRound twoInstances firstAnswers :=
    ⟨[⟨str "greeter", [instanceAt (str "10.0.0.1"), instanceAt (str "10.0.0.2")]⟩], rfl, rfl⟩
  have hreport : (refreshServiceURLs firstAnswers twoInstances).1 = true := by decide +kernel
  refine ⟨hreport, ((refreshServiceURLs_reports hrnd).2 ?_).2.2.1 hreport⟩
  -- both instances have the same key, and the first one answers
  intro key _ first hfirst hfailed v hv hkey
  have hsame : revisionKey twoInstances.registryId v.inst = some (str "greeter:default:1") := by
    fin_cases hv <;> decide +kernel
  obtain rfl : key = str "greeter:default:1" := Option.some.inj (hkey.symm.trans hsame)
  cases hfirst
  cases hfailed

/-- The second instance answers after the first has not: the key is resolved, and is reported as unresolved. -/
theorem resolved_key_reported : IsRound twoInstances secondAnswers ∧
    (refreshServiceURLs secondAnswers twoInstances).1 = false ∧
    (refreshServiceURLs secondAnswers twoInstances).2.unresolvedRevisions = {str "greeter:default:1"} ∧
    (refreshServiceURLs secondAnswers twoInstances).2.revisionToMetadata.keys = {str "greeter:default:1"} :=
  ⟨isRound_secondAnswers, by decide +kernel⟩

end DubboGo.Registry.ServiceDiscovery
