import DubboGo.Common.Params

/-!
# Merging and comparing URLs

The `URL` of `common/url.go` as the registry handles it: providers' URLs are merged with those of
references, changed by configurators and compared with each other.  `toURL` is what balancers and
routers see of it.
-/

namespace DubboGo.Common

open Go

def timestampKey : Str := str "timestamp"
def remoteTimestampKey : Str := str "remote.timestamp"
def meshClusterIDKey : Str := str "meshClusterID"

/-- `URL`, with the parameters of its sub-URL.  Of the attributes only the condition of a configurator
rule is read, as what it answers for a host and a URL. -/
structure ServiceURL where
  protocol : Str
  username : Str
  password : Str
  location : Str
  ip : Str
  port : Str
  path : Str
  params : Params
  methods : List Str
  /-- The timestamp that the URL was parsed with. -/
  primitiveTS : Str
  subURL : Option Values
  matchCondition : Option (Str → URL → Bool)

namespace ServiceURL

def toURL (u : ServiceURL) : URL where
  protocol := u.protocol
  username := u.username
  password := u.password
  location := u.location
  ip := u.ip
  port := u.port
  path := u.path
  params := u.params.values
  subURL := u.subURL

def ofProvider (ip port : Str) (params : Params) : ServiceURL where
  protocol := str "dubbo"
  username := []
  password := []
  location := ip ++ str ":" ++ port
  ip := ip
  port := port
  path := str "/org.apache.demo.HelloService"
  params := params
  methods := []
  primitiveTS := []
  subURL := none
  matchCondition := none

variable (c u : ServiceURL)

def getParam (s d : Str) : Str := u.toURL.getParam s d

/-- `GetCacheInvokerMapKey`. -/
def cacheKey : Str :=
  c.protocol ++ str "://" ++ c.username ++ str ":" ++ c.password ++ str "@" ++ c.ip ++ str ":" ++
    c.port ++ str "/?interface=" ++ c.toURL.service ++ str "&group=" ++ c.getParam groupKey [] ++
    str "&version=" ++ c.getParam versionKey [] ++ str "&timestamp=" ++ c.primitiveTS ++
    str "&meshClusterID=" ++ c.getParam meshClusterIDKey []

theorem cacheKey_ne_nil : c.cacheKey ≠ [] := by
  intro h
  have hid := (List.append_eq_nil_iff.1 h).1
  exact absurd (List.append_eq_nil_iff.1 hid).2 (by decide)

/-! ## Merging -/

def mergedKeys : List Str := [str "loadbalance", str "cluster", str "retries", str "timeout"]

def takeOver (other : Params) (params : Params) (key : Str) : Params :=
  if other.get key ≠ [] then params.set key (other.get key) else params

def mergeMethods (other : ServiceURL) (params : Params) : Params :=
  other.methods.foldl (fun params method =>
    mergedKeys.foldl (fun params key =>
      takeOver other.params (takeOver other.params params key) (URL.methodKey method key)) params) params

def mergeURL (other : ServiceURL) : ServiceURL :=
  let params := c.params.fill other.params
  let params :=
    if c.params.get timestampKey = [] then
      (params.set remoteTimestampKey []).set timestampKey (other.params.get timestampKey)
    else params
  { c with
    params := mergeMethods other params
    methods := other.methods
    matchCondition := c.matchCondition.or other.matchCondition }

/-! ## Comparing -/

/-- The keys that `ToMap` takes from fields. -/
def reservedKeyList : List Str :=
  [URL.protocolKey, URL.usernameKey, URL.passwordKey, URL.hostKey, URL.portKey, URL.pathKey]

/-- `rawParam`: the first value of a parameter, if it is there. -/
def rawParam (key : Str) : Option Str := (u.params.values key).bind List.head?

def effectiveReserved (key : Str) : Option Str :=
  if key = URL.protocolKey ∧ u.protocol ≠ [] then some u.protocol
  else if key = URL.usernameKey ∧ u.username ≠ [] then some u.username
  else if key = URL.passwordKey ∧ u.password ≠ [] then some u.password
  else if key = URL.pathKey ∧ u.path ≠ [] then some u.path
  else if key = URL.hostKey ∧ u.location ≠ [] then some (URL.parseLocation u.location).1
  else if key = URL.portKey ∧ u.location ≠ [] then some (URL.parseLocation u.location).2
  else u.rawParam key

def equalReservedKeys (left right : ServiceURL) (excluded : List Str) : Bool :=
  reservedKeyList.all fun key =>
    excluded.contains key || left.effectiveReserved key == right.effectiveReserved key

def comparedKeys (excluded : List Str) : Finset Str :=
  u.params.keys.filter fun key => key ∉ reservedKeyList ∧ key ∉ excluded

def equalParams (left right : ServiceURL) (excluded : List Str) : Bool :=
  decide (∀ key ∈ right.comparedKeys excluded, key ∈ left.comparedKeys excluded ∧
    left.rawParam key = right.rawParam key) &&
  (right.comparedKeys excluded).card == (left.comparedKeys excluded).card

def isEquals (left right : ServiceURL) (excludes : List Str) : Bool :=
  left.ip == right.ip && left.port == right.port && equalReservedKeys left right excludes &&
    equalParams left right excludes

/-! ## Reading a parameter -/

theorem getParam_eq (s d : Str) : u.getParam s d = if u.params.get s = [] then d else u.params.get s :=
  rfl

theorem getParam_nil (s : Str) : u.getParam s [] = u.params.get s := by
  rw [getParam_eq]
  split_ifs with h
  · exact h.symm
  · rfl

theorem ne_methodKey {k : Str} (h : hasPrefix k (str "methods.") = false) (meth key : Str) :
    k ≠ URL.methodKey meth key := by
  rintro rfl
  cases h

end ServiceURL

end DubboGo.Common
