import DubboGo.Common.Match
import DubboGo.Registry.ServiceDiscovery
import DubboGo.Lib.Reachable

/-!
# The exported services of an application

`AddService`, `RemoveService` and `ReplaceExportedServices` of `metadata/info/metadata_info.go`.  The exported URLs
are kept in lists by service key, and the services by match key.  The lists are searched with `URLEqual` of
`common/url.go`, which looks at neither ip nor port.
-/

namespace DubboGo.Common.ServiceURL

open Go

def removeValuePrefix : Str := str "-"
def enabledKey : Str := str "enabled"
def categoryKey : Str := str "category"
def defaultCategory : Str := str "providers"

def contains (s sub : Str) : Bool := sub = [] ∨ (cut sub s).isSome

/-- `strings.Replace(s, old, new, 1)` for a text `old` that is not empty. -/
def replaceFirst (s old new : Str) : Str :=
  match cut old s with
  | some (before, after) => before ++ new ++ after
  | none => s

def isMatchCategory (category1 category2 : Str) : Bool :=
  if category2 = [] then category1 = defaultCategory
  else if contains category2 anyValue then true
  else if contains category2 removeValuePrefix then !contains category2 (removeValuePrefix ++ category1)
  else contains category2 category1

def keyWithoutAddress (c : ServiceURL) : Str := { c with ip := [], port := [] }.toURL.key

def urlEqual (c url : ServiceURL) : Bool :=
  let cGroup := c.getParam groupKey []
  let urlGroup := url.getParam groupKey []
  let cKey :=
    if cGroup = anyValue then replaceFirst c.keyWithoutAddress (str "group=*") (str "group=" ++ urlGroup)
    else c.keyWithoutAddress
  let urlKey :=
    if cGroup ≠ anyValue ∧ urlGroup = anyValue then
      replaceFirst url.keyWithoutAddress (str "group=*") (str "group=" ++ cGroup)
    else url.keyWithoutAddress
  if cKey ≠ urlKey then false
  else if url.getParam enabledKey (str "true") ≠ str "true" ∧ url.getParam enabledKey [] ≠ anyValue then false
  else isMatchCategory (url.getParam categoryKey defaultCategory) (c.getParam categoryKey defaultCategory)

end DubboGo.Common.ServiceURL

namespace DubboGo.Metadata

open Go Common Lib Registry.ServiceDiscovery

def includeKeys : List Str :=
  [str "application", groupKey, timestampKey, str "serialization", str "cluster", str "loadbalance",
    str "path", str "timeout", str "token", versionKey, str "warmup", str "weight", str "release"]

def newServiceInfo (name group version protocol path : Str) (params : FiniteMap Str Str) : ServiceInfo where
  name := name
  group := group
  version := version
  protocol := protocol
  port := 0
  path := trimPrefix path pathSeparator
  params := params
  serviceKey := Common.serviceKey name group version
  matchKey := Common.serviceKey name group version ++ str ":" ++ protocol

def addNonEmpty (key value : Str) (p : FiniteMap Str Str) : FiniteMap Str Str :=
  if value.length ≠ 0 then p.insert key value else p

def includedParams (url : ServiceURL) : FiniteMap Str Str :=
  let p := includeKeys.foldl (fun p key =>
    url.methods.foldl (fun p method =>
      addNonEmpty (method ++ str "." ++ key) (url.toURL.getMethodParam method key []) p)
      (addNonEmpty key (url.getParam key []) p)) ∅
  p.insert methodsKey (List.intercalate (str ",") url.methods)

def newServiceInfoWithURL (url : ServiceURL) : ServiceInfo :=
  { newServiceInfo url.toURL.service (url.getParam groupKey []) (url.getParam versionKey []) url.protocol
      url.path (includedParams url) with
    port := atoi url.port }

def matchKeyOf (url : ServiceURL) : Str := (newServiceInfoWithURL url).getMatchKey

/-! ## The two maps -/

/-- `MetadataInfo`, with the exported services. -/
structure MetadataInfo where
  app : Str
  tag : Str
  services : FiniteMap Str ServiceInfo
  exportedServiceURLs : FiniteMap Str (List ServiceURL)

def newMetadataInfo (app tag : Str) : MetadataInfo := ⟨app, tag, ∅, ∅⟩

def addUrl (m : FiniteMap Str (List ServiceURL)) (url : ServiceURL) : FiniteMap Str (List ServiceURL) :=
  m.insert url.toURL.serviceKey ((m.lookup url.toURL.serviceKey).getD [] ++ [url])

/-- `removeUrl`: the first URL of the list that is equal to it is deleted, and then the list if it is
empty. -/
def removeUrl (m : FiniteMap Str (List ServiceURL)) (url : ServiceURL) : FiniteMap Str (List ServiceURL) :=
  match m.lookup url.toURL.serviceKey with
  | none => m
  | some urls =>
    let urls := urls.eraseP fun u => u.urlEqual url
    if urls.length = 0 then m.erase url.toURL.serviceKey else m.insert url.toURL.serviceKey urls

def allURLs (m : FiniteMap Str (List ServiceURL)) : Multiset ServiceURL :=
  (FiniteMap.values m).bind fun urls => (urls : Multiset ServiceURL)

structure Walk (m : FiniteMap Str (List ServiceURL)) where
  order : List (List ServiceURL)
  coe_order : (order : Multiset (List ServiceURL)) = FiniteMap.values m

namespace MetadataInfo

variable (info : MetadataInfo)

/-- `addServiceWithoutLock`. -/
def addService (url : ServiceURL) : MetadataInfo where
  services := info.services.insert (matchKeyOf url) (newServiceInfoWithURL url)
  exportedServiceURLs := addUrl info.exportedServiceURLs url
  app := if info.app = [] then url.getParam (str "application") [] else info.app
  tag := if info.tag = [] then url.getParam (str "application.tag") [] else info.tag

/-- `findExportedServiceURL`, with the order in which it goes through the lists. -/
def findExportedServiceURL (order : List (List ServiceURL)) (matchKey : Str) : Option ServiceURL :=
  order.flatten.find? fun serviceURL => matchKeyOf serviceURL = matchKey

/-- `RemoveService`, with the order in which it goes through the lists for a replacement. -/
def removeService (url : ServiceURL) (w : Walk (removeUrl info.exportedServiceURLs url)) : MetadataInfo :=
  { info with
    exportedServiceURLs := removeUrl info.exportedServiceURLs url
    services :=
      match findExportedServiceURL w.order (matchKeyOf url) with
      | some replacement => info.services.insert (matchKeyOf url) (newServiceInfoWithURL replacement)
      | none => info.services.erase (matchKeyOf url) }

def replaceExportedServices (urls : List ServiceURL) : MetadataInfo :=
  urls.foldl addService { info with services := ∅, exportedServiceURLs := ∅ }

/-- `GetExportedServiceURLs`, in whatever order. -/
def getExportedServiceURLs : Multiset ServiceURL := allURLs info.exportedServiceURLs

end MetadataInfo

inductive Op where
  | addService (url : ServiceURL)
  | removeService (url : ServiceURL)
  | replaceExportedServices (urls : List ServiceURL)

def Op.urls : Op → List ServiceURL
  | .addService url => [url]
  | .removeService url => [url]
  | .replaceExportedServices urls => urls

inductive Does : Op → MetadataInfo → MetadataInfo → Prop where
  | addService (info : MetadataInfo) (url : ServiceURL) : Does (.addService url) info (info.addService url)
  | removeService (info : MetadataInfo) (url : ServiceURL) (w : Walk (removeUrl info.exportedServiceURLs url)) :
    Does (.removeService url) info (info.removeService url w)
  | replaceExportedServices (info : MetadataInfo) (urls : List ServiceURL) :
    Does (.replaceExportedServices urls) info (info.replaceExportedServices urls)

def ReachedWith (U : ServiceURL → Prop) : MetadataInfo → Prop :=
  Reachable (fun info => ∃ app tag, info = newMetadataInfo app tag)
    fun info info' => ∃ op, (∀ url ∈ op.urls, U url) ∧ Does op info info'

/-! ## The exported URLs -/

theorem allURLs_eq (m : FiniteMap Str (List ServiceURL)) (k : Str) :
    allURLs m = (((m.lookup k).getD [] : List ServiceURL) : Multiset ServiceURL) + allURLs (m.erase k) := by
  unfold allURLs
  conv_lhs => rw [← FiniteMap.lookup_add_values_erase m k]
  rw [Multiset.add_bind]
  cases m.lookup k with
  | none => rfl
  | some urls => simp

theorem allURLs_insert (m : FiniteMap Str (List ServiceURL)) (k : Str) (urls : List ServiceURL) :
    allURLs (m.insert k urls) = (urls : Multiset ServiceURL) + allURLs (m.erase k) := by
  unfold allURLs
  rw [FiniteMap.values_insert, Multiset.cons_bind]

theorem allURLs_addUrl (m : FiniteMap Str (List ServiceURL)) (url : ServiceURL) :
    allURLs (addUrl m url) = url ::ₘ allURLs m := by
  rw [addUrl, allURLs_insert, allURLs_eq m url.toURL.serviceKey, ← Multiset.coe_add, ← Multiset.singleton_add]
  simp only [Multiset.coe_singleton]
  abel

theorem allURLs_removeUrl (m : FiniteMap Str (List ServiceURL)) (url : ServiceURL) : allURLs (removeUrl m url) =
      ((((m.lookup url.toURL.serviceKey).getD []).eraseP fun u => u.urlEqual url : List ServiceURL) :
        Multiset ServiceURL) + allURLs (m.erase url.toURL.serviceKey) := by
  unfold removeUrl
  cases hlookup : m.lookup url.toURL.serviceKey with
  | none =>
    rw [FiniteMap.erase_of_lookup_none hlookup]
    exact (zero_add _).symm
  | some urls =>
    dsimp only [Option.getD_some]
    split_ifs with hempty
    · rw [List.length_eq_zero_iff.1 hempty]
      exact (zero_add _).symm
    · exact allURLs_insert m _ _

theorem removeUrl_cases (m : FiniteMap Str (List ServiceURL)) (url : ServiceURL) :
    (∃ u ∈ (m.lookup url.toURL.serviceKey).getD [], u.urlEqual url = true ∧
      allURLs m = u ::ₘ allURLs (removeUrl m url)) ∨
    (∀ u ∈ (m.lookup url.toURL.serviceKey).getD [], u.urlEqual url = false) ∧
      allURLs (removeUrl m url) = allURLs m := by
  rw [allURLs_removeUrl, allURLs_eq m url.toURL.serviceKey]
  generalize (m.lookup url.toURL.serviceKey).getD [] = urls
  by_cases hex : ∃ u ∈ urls, u.urlEqual url = true
  · obtain ⟨u, hu, heq⟩ := hex
    obtain ⟨v, bef, after, -, hv, hsplit, herase⟩ := List.exists_of_eraseP (p := fun u => u.urlEqual url) hu heq
    refine .inl ⟨v, ?_, hv, ?_⟩
    · rw [hsplit]
      exact List.mem_append_right _ List.mem_cons_self
    · rw [herase, hsplit, ← Multiset.cons_add]
      congr 1
      exact Multiset.coe_eq_coe.2 List.perm_middle
  · have hnone : ∀ u ∈ urls, u.urlEqual url = false := by
      intro u hu
      exact Bool.eq_false_iff.2 fun h => hex ⟨u, hu, h⟩
    refine .inr ⟨hnone, ?_⟩
    rw [List.eraseP_of_forall_not fun u hu => by simp [hnone u hu]]

variable {u v : ServiceURL}

theorem Walk.mem_flatten {m : FiniteMap Str (List ServiceURL)} (w : Walk m) :
    u ∈ w.order.flatten ↔ u ∈ allURLs m := by
  rw [allURLs, ← w.coe_order, Multiset.mem_bind, List.mem_flatten]
  rfl

/-! ## The invariant -/

/-- The lists are under the service keys of their URLs, and the services are those of exported URLs. -/
structure Mirrors (info : MetadataInfo) : Prop where
  keyed : ∀ k, ∀ u ∈ (info.exportedServiceURLs.lookup k).getD [], u.toURL.serviceKey = k
  services : ∀ mk, (info.services.lookup mk).isSome ↔ ∃ u ∈ info.getExportedServiceURLs, matchKeyOf u = mk

namespace Mirrors

variable {info : MetadataInfo} {url : ServiceURL}

theorem empty (app tag : Str) : Mirrors ⟨app, tag, ∅, ∅⟩ := by
  refine ⟨?_, ?_⟩
  · intro k u hu
    exact absurd hu List.not_mem_nil
  · intro mk
    simp [MetadataInfo.getExportedServiceURLs, allURLs]

theorem addService (h : Mirrors info) (url : ServiceURL) : Mirrors (info.addService url) := by
  refine ⟨?_, ?_⟩
  · intro k u hu
    dsimp only [MetadataInfo.addService, addUrl] at hu
    rw [FiniteMap.lookup_insert] at hu
    split_ifs at hu with hk
    · rcases List.mem_append.1 hu with hold | hnew
      · rw [hk]
        exact h.keyed _ u hold
      · rw [List.mem_singleton.1 hnew, hk]
    · exact h.keyed k u hu
  · intro mk
    dsimp only [MetadataInfo.addService, MetadataInfo.getExportedServiceURLs]
    rw [FiniteMap.lookup_insert, allURLs_addUrl]
    simp only [Multiset.mem_cons, exists_eq_or_imp]
    by_cases hmk : mk = matchKeyOf url
    · simp [hmk]
    · rw [if_neg hmk, h.services mk]
      simp only [Ne.symm hmk, false_or]
      rfl

theorem foldl_addService (h : Mirrors info) (urls : List ServiceURL) :
    Mirrors (urls.foldl MetadataInfo.addService info) := by
  induction urls generalizing info with
  | nil => exact h
  | cons url urls ih => exact ih (h.addService url)

theorem replaceExportedServices (info : MetadataInfo) (urls : List ServiceURL) :
    Mirrors (info.replaceExportedServices urls) :=
  foldl_addService (Mirrors.empty info.app info.tag) urls

theorem keyed_removeUrl (h : Mirrors info) (url : ServiceURL) (k : Str) :
    ∀ u ∈ ((removeUrl info.exportedServiceURLs url).lookup k).getD [], u.toURL.serviceKey = k := by
  intro u hu
  dsimp only [removeUrl] at hu
  cases hlookup : info.exportedServiceURLs.lookup url.toURL.serviceKey with
  | none =>
    rw [hlookup] at hu
    exact h.keyed k u hu
  | some urls =>
    rw [hlookup] at hu
    dsimp only at hu
    split_ifs at hu
    · rw [FiniteMap.lookup_erase] at hu
      split_ifs at hu
      · exact absurd hu List.not_mem_nil
      · exact h.keyed k u hu
    · rw [FiniteMap.lookup_insert] at hu
      split_ifs at hu with hk
      · rw [hk]
        apply h.keyed
        rw [hlookup]
        exact List.mem_of_mem_eraseP hu
      · exact h.keyed k u hu

theorem lookup_removeService_self (info : MetadataInfo) (url : ServiceURL)
    (w : Walk (removeUrl info.exportedServiceURLs url)) :
    ((info.removeService url w).services.lookup (matchKeyOf url)).isSome ↔
      ∃ u ∈ allURLs (removeUrl info.exportedServiceURLs url), matchKeyOf u = matchKeyOf url := by
  dsimp only [MetadataInfo.removeService]
  cases hfind : MetadataInfo.findExportedServiceURL w.order (matchKeyOf url) with
  | some repl =>
    have hmem := List.mem_of_find?_eq_some hfind
    have hkey := List.find?_some hfind
    rw [Finmap.lookup_insert]
    exact ⟨fun _ => ⟨repl, w.mem_flatten.1 hmem, of_decide_eq_true hkey⟩, fun _ => rfl⟩
  | none =>
    refine ⟨fun h => absurd h (by simp), ?_⟩
    rintro ⟨u, hu, hkey⟩
    have hno := List.find?_eq_none.1 hfind u (w.mem_flatten.2 hu)
    exact absurd (decide_eq_true hkey) hno

theorem lookup_removeService_of_ne {mk : Str} (hmk : mk ≠ matchKeyOf url)
    (w : Walk (removeUrl info.exportedServiceURLs url)) :
    (info.removeService url w).services.lookup mk = info.services.lookup mk := by
  dsimp only [MetadataInfo.removeService]
  cases MetadataInfo.findExportedServiceURL w.order (matchKeyOf url) with
  | some repl =>
    rw [FiniteMap.lookup_insert, if_neg hmk]
  | none =>
    rw [FiniteMap.lookup_erase, if_neg hmk]

theorem removeService (h : Mirrors info)
    (hmatch : ∀ u ∈ (info.exportedServiceURLs.lookup url.toURL.serviceKey).getD [], u.urlEqual url = true →
      matchKeyOf u = matchKeyOf url) (w : Walk (removeUrl info.exportedServiceURLs url)) :
    Mirrors (info.removeService url w) := by
  refine ⟨h.keyed_removeUrl url, ?_⟩
  intro mk
  by_cases hmk : mk = matchKeyOf url
  · subst hmk
    exact lookup_removeService_self info url w
  · have hother : (∃ u ∈ allURLs (removeUrl info.exportedServiceURLs url), matchKeyOf u = mk) ↔
        ∃ u ∈ allURLs info.exportedServiceURLs, matchKeyOf u = mk := by
      obtain ⟨v, hv, hequal, heq⟩ | ⟨-, heq⟩ := removeUrl_cases info.exportedServiceURLs url
      · rw [heq]
        simp only [Multiset.mem_cons, exists_eq_or_imp, hmatch v hv hequal, Ne.symm hmk, false_or]
      · rw [heq]
    rw [lookup_removeService_of_ne hmk]
    exact (h.services mk).trans hother.symm

theorem mem_list (h : Mirrors info) {u : ServiceURL} : u ∈ info.getExportedServiceURLs ↔
      u ∈ (info.exportedServiceURLs.lookup u.toURL.serviceKey).getD [] := by
  unfold MetadataInfo.getExportedServiceURLs
  constructor
  · intro hu
    obtain ⟨urls, hurls, hmem⟩ := Multiset.mem_bind.1 hu
    obtain ⟨k, hlookup⟩ := FiniteMap.mem_values.1 hurls
    have hlist : u ∈ (info.exportedServiceURLs.lookup k).getD [] := by
      rw [hlookup]
      exact hmem
    rw [h.keyed k u hlist]
    exact hlist
  · intro hu
    rw [allURLs_eq _ u.toURL.serviceKey]
    exact Multiset.mem_add.2 (.inl hu)

end Mirrors

/-! ## What is removed -/

structure SameExport (u v : ServiceURL) : Prop where
  protocol : u.protocol = v.protocol
  ip : u.ip = v.ip
  port : u.port = v.port
  path : u.path = v.path
  params : u.params = v.params
  subURL : u.subURL = v.subURL

/-- Of the URLs with the same service key, `URLEqual` takes those for equal that export the same. -/
def ToldApart (U : ServiceURL → Prop) : Prop :=
  ∀ u v, U u → U v → (u.toURL.serviceKey = v.toURL.serviceKey ∧ u.urlEqual v = true ↔ SameExport u v)

theorem SameExport.matchKeyOf_eq (h : SameExport u v) : matchKeyOf u = matchKeyOf v := by
  obtain ⟨hprotocol, -, -, hpath, hparams, hsubURL⟩ := h
  cases u
  cases v
  subst hprotocol hpath hparams hsubURL
  rfl

theorem SameExport.serviceKey_eq (h : SameExport u v) : u.toURL.serviceKey = v.toURL.serviceKey := by
  simp only [ServiceURL.toURL, URL.serviceKey, URL.getParam, h.path, h.params]

section Told

variable {U : ServiceURL → Prop} {info info' : MetadataInfo}

theorem mem_foldl_addService (urls : List ServiceURL) {u : ServiceURL}
    (h : u ∈ (urls.foldl MetadataInfo.addService info).getExportedServiceURLs) :
    u ∈ urls ∨ u ∈ info.getExportedServiceURLs := by
  induction urls generalizing info with
  | nil => exact .inr h
  | cons url urls ih =>
    rcases ih h with hmem | hmem
    · exact .inl (List.mem_cons_of_mem _ hmem)
    · dsimp only [MetadataInfo.addService, MetadataInfo.getExportedServiceURLs] at hmem
      rw [allURLs_addUrl] at hmem
      rcases Multiset.mem_cons.1 hmem with rfl | hmem
      · exact .inl List.mem_cons_self
      · exact .inr hmem

theorem mirrors_and_forall (hU : ToldApart U) (h : ReachedWith U info) :
    Mirrors info ∧ ∀ u ∈ info.getExportedServiceURLs, U u := by
  induction h with
  | init h =>
    obtain ⟨app, tag, rfl⟩ := h
    refine ⟨Mirrors.empty app tag, ?_⟩
    intro u hu
    exact absurd hu (Multiset.notMem_zero u)
  | @step info _ _ hstep ih =>
    obtain ⟨hmirrors, hall⟩ := ih
    obtain ⟨op, hurls, hdoes⟩ := hstep
    cases hdoes with
    | addService _ url =>
      refine ⟨hmirrors.addService url, ?_⟩
      intro u hu
      rcases mem_foldl_addService [url] hu with hmem | hmem
      · exact hurls u hmem
      · exact hall u hmem
    | removeService _ url w =>
      have hurl := hurls url (List.mem_singleton.2 rfl)
      refine ⟨hmirrors.removeService ?_ w, ?_⟩
      · intro u hu hequal
        have hkey := hmirrors.keyed _ u hu
        have hUu : U u := hall u (hmirrors.mem_list.2 (hkey ▸ hu))
        exact ((hU u url hUu hurl).1 ⟨hkey, hequal⟩).matchKeyOf_eq
      · intro u hu
        apply hall u
        dsimp only [MetadataInfo.removeService, MetadataInfo.getExportedServiceURLs] at hu ⊢
        obtain ⟨v, -, -, heq⟩ | ⟨-, heq⟩ := removeUrl_cases info.exportedServiceURLs url
        · rw [heq]
          exact Multiset.mem_cons_of_mem hu
        · rwa [← heq]
    | replaceExportedServices _ urls =>
      refine ⟨Mirrors.replaceExportedServices info urls, ?_⟩
      intro u hu
      rcases mem_foldl_addService urls hu with hmem | hmem
      · exact hurls u hmem
      · exact absurd hmem (Multiset.notMem_zero u)

/-- If `URLEqual` tells the URLs apart, the services are those of the exported URLs, and `RemoveService`
removes the URL that exports the same, if there is one, and nothing else. -/
theorem removeService_exact (hU : ToldApart U) (h : ReachedWith U info) :
    (∀ mk, (info.services.lookup mk).isSome ↔ ∃ u ∈ info.getExportedServiceURLs, matchKeyOf u = mk) ∧
    ∀ url info', U url → Does (.removeService url) info info' →
      ((∃ u ∈ info.getExportedServiceURLs, SameExport u url) → ∃ u ∈ info.getExportedServiceURLs, SameExport u url ∧
          info.getExportedServiceURLs = u ::ₘ info'.getExportedServiceURLs) ∧
      ((∀ u ∈ info.getExportedServiceURLs, ¬ SameExport u url) →
        info'.getExportedServiceURLs = info.getExportedServiceURLs) := by
  obtain ⟨hmirrors, hall⟩ := mirrors_and_forall hU h
  refine ⟨hmirrors.services, ?_⟩
  intro url info' hurl hdoes
  cases hdoes with
  | removeService info url w =>
    have hsame : ∀ u ∈ info.getExportedServiceURLs, (u ∈ (info.exportedServiceURLs.lookup
        url.toURL.serviceKey).getD [] ∧ u.urlEqual url = true ↔ SameExport u url) := by
      intro u hu
      rw [← hU u url (hall u hu) hurl]
      refine and_congr_left fun _ => ⟨hmirrors.keyed _ u, fun hkey => ?_⟩
      rw [← hkey]
      exact hmirrors.mem_list.1 hu
    obtain ⟨v, hv, hequal, heq⟩ | ⟨hnone, heq⟩ := removeUrl_cases info.exportedServiceURLs url
    · have hexported : v ∈ info.getExportedServiceURLs := by
        rw [MetadataInfo.getExportedServiceURLs, heq]
        exact Multiset.mem_cons_self v _
      have hv' := (hsame v hexported).1 ⟨hv, hequal⟩
      exact ⟨fun _ => ⟨v, hexported, hv', heq⟩, fun hno => absurd hv' (hno v hexported)⟩
    · refine ⟨?_, fun _ => heq⟩
      rintro ⟨u, hu, hexport⟩
      obtain ⟨hlist, hequal⟩ := (hsame u hu).2 hexport
      rw [hnone u hlist] at hequal
      cases hequal

end Told

/-! ## Two services, and one at two ports -/

def exportAt (service port : Str) : ServiceURL :=
  .ofProvider (str "10.0.0.1") port (Params.empty.set interfaceKey service)

def greeterURL : ServiceURL := exportAt (str "demo.Greeter") (str "20000")
def echoURL : ServiceURL := exportAt (str "demo.Echo") (str "20000")
def secondGreeterURL : ServiceURL := exportAt (str "demo.Greeter") (str "20001")

def exporting (u v : ServiceURL) : MetadataInfo := ((newMetadataInfo [] []).addService u).addService v

def IsGreeterOrEcho (u : ServiceURL) : Prop := u = greeterURL ∨ u = echoURL

theorem toldApart_greeterOrEcho : ToldApart IsGreeterOrEcho := by
  have hkeys : greeterURL.toURL.serviceKey ≠ echoURL.toURL.serviceKey := by decide
  have hgreeter : greeterURL.urlEqual greeterURL = true := by decide +kernel
  have hecho : echoURL.urlEqual echoURL = true := by decide +kernel
  rintro u v (rfl | rfl) (rfl | rfl)
  · exact ⟨fun _ => ⟨rfl, rfl, rfl, rfl, rfl, rfl⟩, fun _ => ⟨rfl, hgreeter⟩⟩
  · exact ⟨fun h => absurd h.1 hkeys, fun h => absurd h.serviceKey_eq hkeys⟩
  · exact ⟨fun h => absurd h.1 hkeys.symm, fun h => absurd h.serviceKey_eq hkeys.symm⟩
  · exact ⟨fun _ => ⟨rfl, rfl, rfl, rfl, rfl, rfl⟩, fun _ => ⟨rfl, hecho⟩⟩

theorem reached_exporting {U : ServiceURL → Prop} (hu : U u) (hv : U v) : ReachedWith U (exporting u v) := by
  have hempty : ReachedWith U (newMetadataInfo [] []) := .init ⟨_, _, rfl⟩
  refine (hempty.step ⟨_, ?_, .addService _ u⟩).step ⟨_, ?_, .addService _ v⟩
  · intro url hurl
    rwa [List.mem_singleton.1 hurl]
  · intro url hurl
    rwa [List.mem_singleton.1 hurl]

/-- The echo service is removed, and only that. -/
theorem removeService_echo : ∃ info', Does (.removeService echoURL) (exporting greeterURL echoURL) info' ∧
      ∃ u ∈ (exporting greeterURL echoURL).getExportedServiceURLs, SameExport u echoURL ∧
        (exporting greeterURL echoURL).getExportedServiceURLs = u ::ₘ info'.getExportedServiceURLs := by
  have hreached : ReachedWith IsGreeterOrEcho (exporting greeterURL echoURL) := reached_exporting (.inl rfl) (.inr rfl)
  have hdoes : Does (.removeService echoURL) (exporting greeterURL echoURL)
      ((exporting greeterURL echoURL).removeService echoURL ⟨_, Multiset.coe_toList _⟩) := .removeService _ _ _
  refine ⟨_, hdoes, ((removeService_exact toldApart_greeterOrEcho hreached).2 echoURL _ (.inr rfl) hdoes).1 ?_⟩
  refine ⟨echoURL, ?_, ⟨rfl, rfl, rfl, rfl, rfl, rfl⟩⟩
  rw [exporting, MetadataInfo.getExportedServiceURLs, MetadataInfo.addService, allURLs_addUrl]
  exact Multiset.mem_cons_self _ _

/-- Of two exports of a service, the one that is to be removed stays and the other one goes. -/
theorem removeService_wrong_port :
    ∃ info', Does (.removeService secondGreeterURL) (exporting greeterURL secondGreeterURL) info' ∧
      (exporting greeterURL secondGreeterURL).getExportedServiceURLs.map (·.port) = {str "20000", str "20001"} ∧
      info'.getExportedServiceURLs.map (·.port) = {str "20001"} := by
  refine ⟨_, .removeService _ _ ⟨_, Multiset.coe_toList _⟩, by decide +kernel, ?_⟩
  decide +kernel

end DubboGo.Metadata
