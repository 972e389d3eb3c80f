import DubboGo.Go.Text

/-!
# URLs

The `URL` of `common/url.go`, with the fields and the accessors that the load balancers and routers
read.  A URL does not change once it has been created, so its locks are left out.
-/

namespace DubboGo.Common

open Go

abbrev Values := Str → Option (List Str)

/-- `Values.Get`: the first value, or the empty string. -/
def Values.get (v : Values) (key : Str) : Str := ((v key).getD []).headD []

/-- `url.Values` without entries. -/
def Values.empty : Values := fun _ => none

/-- `URL`; of the sub-URL only the parameters are read. -/
structure URL where
  protocol : Str
  username : Str
  password : Str
  location : Str
  ip : Str
  port : Str
  path : Str
  params : Values
  subURL : Option Values

def interfaceKey : Str := str "interface"
def groupKey : Str := str "group"
def versionKey : Str := str "version"
def methodsKey : Str := str "methods"
def timeoutKey : Str := str "timeout"
def pathSeparator : Str := str "/"

/-- `GetParam` on the parameters alone. -/
def Values.getParam (v : Values) (s d : Str) : Str := if v.get s = [] then d else v.get s

def intOr (text : Str) (d : ℤ) : ℤ :=
  match parseInt text 10 64 with
  | .ok r => r
  | .error _ => d

namespace URL

variable (c : URL)

def getParam (s d : Str) : Str := c.params.getParam s d

def getParamBool (key : Str) (d : Bool) : Bool := (parseBool (c.getParam key [])).getD d

def getParamInt (key : Str) (d : ℤ) : ℤ := intOr (c.getParam key []) d

/-- `GetParamByIntValue`, where an `int` has 64 bits. -/
def getParamByIntValue (key : Str) (d : ℤ) : ℤ := intOr (c.getParam key []) d

def methodKey (method key : Str) : Str := str "methods." ++ method ++ str "." ++ key

def getMethodParam (method key d : Str) : Str := c.getParam (methodKey method key) d

def getMethodParamInt (method key : Str) (d : ℤ) : ℤ :=
  intOr (c.getParam (methodKey method key) []) d

/-- `GetMethodParamIntValue`, where an `int` has 64 bits. -/
def getMethodParamIntValue (method key : Str) (d : ℤ) : ℤ :=
  intOr (c.getParam (methodKey method key) []) d

def getMethodParamBool (method key : Str) (d : Bool) : Bool := c.getParamBool (methodKey method key) d

def getMethodParamInt64 (method key : Str) (d : ℤ) : ℤ :=
  let r := c.getMethodParamInt method key (-2 ^ 63)
  if r = -2 ^ 63 then c.getParamInt key d else r

def service : Str :=
  let path := trimPrefix c.path pathSeparator
  let service := c.getParam interfaceKey path
  if service ≠ [] then service
  else
    match c.subURL with
    | some params => params.getParam interfaceKey path
    | none => []

def key : Str :=
  c.protocol ++ str "://" ++ c.username ++ str ":" ++ c.password ++ str "@" ++ c.ip ++ str ":" ++
    c.port ++ str "/?interface=" ++ c.service ++ str "&group=" ++ c.getParam groupKey [] ++
    str "&version=" ++ c.getParam versionKey []

/-- `parseLocation`: host and port of a location. -/
def parseLocation (location : Str) : Str × Str :=
  match cut (str ":") location with
  | none => (location, str "0")
  | some (host, rest) =>
    match cut (str ":") rest with
    | some (port, _) => (host, port)
    | none => (host, rest)

def protocolKey : Str := str "protocol"
def usernameKey : Str := str "username"
def passwordKey : Str := str "password"
def hostKey : Str := str "host"
def portKey : Str := str "port"
def pathKey : Str := str "path"

def getRawParam (key : Str) : Str :=
  if key = protocolKey then c.protocol
  else if key = usernameKey then c.username
  else if key = hostKey then (parseLocation c.location).1
  else if key = passwordKey then c.password
  else if key = portKey then c.port
  else if key = pathKey then c.path
  else c.getParam key []

/-- The value of a key in the map of `ToMap`; the fields that are set come before the parameters.
Every parameter has at least one value. -/
def toMap (key : Str) : Str :=
  if key = protocolKey ∧ c.protocol ≠ [] then c.protocol
  else if key = usernameKey ∧ c.username ≠ [] then c.username
  else if key = passwordKey ∧ c.password ≠ [] then c.password
  else if key = hostKey ∧ c.location ≠ [] then (parseLocation c.location).1
  else if key = portKey ∧ c.location ≠ [] then (parseLocation c.location).2
  else if key = pathKey ∧ c.path ≠ [] then c.path
  else c.params.get key

def ofProvider (ip port : Str) : URL where
  protocol := str "dubbo"
  username := []
  password := []
  location := ip ++ str ":" ++ port
  ip := ip
  port := port
  path := str "/org.apache.demo.HelloService"
  params := Values.empty
  subURL := none

end URL

def serviceKey (intf group version : Str) : Str :=
  if intf = [] then []
  else
    (if group ≠ [] then group ++ str "/" else []) ++ intf ++
      (if version ≠ [] ∧ version ≠ str "0.0.0" then str ":" ++ version else [])

def URL.serviceKey (c : URL) : Str :=
  Common.serviceKey (c.getParam interfaceKey (trimPrefix c.path pathSeparator))
    (c.getParam groupKey []) (c.getParam versionKey [])

/-! ## Service keys -/

def parseServiceKey (serviceKey : Str) : Str × Str × Str :=
  if serviceKey = [] then ([], [], [])
  else
    let (group, serviceKey) := (cut [47] serviceKey).getD ([], serviceKey)
    match lastIndex 58 serviceKey with
    | some i => (serviceKey.take i, group, serviceKey.drop (i + 1))
    | none => (serviceKey, group, [])

/-- The parts that a service key may have. -/
structure Separable (intf group version : Str) : Prop where
  intf_ne : intf ≠ []
  slash_intf : 47 ∉ intf
  colon_intf : 58 ∉ intf
  slash_group : 47 ∉ group
  colon_version : 58 ∉ version
  version_ne : version ≠ str "0.0.0"

section ServiceKey

variable {intf group version : Str} (h : Separable intf group version)

include h

theorem serviceKey_eq : serviceKey intf group version =
    (if group ≠ [] then group ++ [47] else []) ++ intf ++ if version ≠ [] then 58 :: version else [] := by
  rw [serviceKey, if_neg h.intf_ne]
  simp only [h.version_ne, ne_eq, not_false_eq_true, and_true]
  rfl

theorem serviceKey_ne_nil : serviceKey intf group version ≠ [] := by
  rw [serviceKey_eq h]
  simp [h.intf_ne]

theorem cut_serviceKey (hslash : group = [] → 47 ∉ version) :
    (cut [47] (serviceKey intf group version)).getD ([], serviceKey intf group version) =
      (group, intf ++ if version ≠ [] then 58 :: version else []) := by
  rw [serviceKey_eq h]
  by_cases hgroup : group = []
  · have hnone : 47 ∉ intf ++ if version ≠ [] then 58 :: version else [] := by
      have hversion := hslash hgroup
      split_ifs <;> simp [h.slash_intf, hversion]
    rw [hgroup, if_neg (not_not.2 rfl), List.nil_append, cut_of_notMem hnone]
    rfl
  · simp [hgroup, cut_append h.slash_group]

/-- Without a group, what stands before the first slash of the version is taken for one. -/
theorem group_parseServiceKey_ne (hgroup : group = []) (hslash : 47 ∈ version) :
    (parseServiceKey (serviceKey intf group version)).2.1 ≠ group := by
  obtain ⟨before, after, rfl, hbefore⟩ := List.eq_append_cons_of_mem hslash
  have hkey : serviceKey intf group (before ++ 47 :: after) = (intf ++ 58 :: before) ++ 47 :: after := by
    rw [serviceKey_eq h]
    simp [hgroup]
  have hcut : 47 ∉ intf ++ 58 :: before := by simp [h.slash_intf, hbefore]
  have hparse : (parseServiceKey (serviceKey intf group (before ++ 47 :: after))).2.1 = intf ++ 58 :: before := by
    rw [parseServiceKey, if_neg (serviceKey_ne_nil h), hkey, cut_append hcut]
    dsimp only [Option.getD_some]
    split <;> rfl
  rw [hparse, hgroup]
  simp

/-- A service key gives back what it was made from unless there is no group and the version has a slash; no two
triples that are given back have the same key. -/
theorem parseServiceKey_serviceKey :
    (parseServiceKey (serviceKey intf group version) = (intf, group, version) ↔ (group = [] → 47 ∉ version)) ∧
      ((group = [] → 47 ∉ version) → ∀ intf' group' version', Separable intf' group' version' →
        (group' = [] → 47 ∉ version') → serviceKey intf' group' version' = serviceKey intf group version →
          intf' = intf ∧ group' = group ∧ version' = version) := by
  have hparse : ∀ {i g v}, Separable i g v → (g = [] → 47 ∉ v) → parseServiceKey (serviceKey i g v) = (i, g, v) := by
    intro i g v h hslash
    rw [parseServiceKey, if_neg (serviceKey_ne_nil h), cut_serviceKey h hslash]
    by_cases hversion : v = []
    · simp [hversion, lastIndex_eq_none_iff.2 h.colon_intf]
    · simp [hversion, lastIndex_append i h.colon_version]
  refine ⟨⟨fun heq hgroup hslash => group_parseServiceKey_ne h hgroup hslash (by rw [heq]), hparse h⟩,
    fun hslash intf' group' version' h' hslash' heq => ?_⟩
  have hparts := hparse h' hslash'
  rw [heq, hparse h hslash] at hparts
  simpa [eq_comm] using hparts

end ServiceKey

theorem separable_greeter : Separable (str "Greeter") (str "a:b") (str "1/2") :=
  ⟨by decide, by decide, by decide, by decide, by decide, by decide⟩

theorem parseServiceKey_greeter : serviceKey (str "Greeter") (str "a:b") (str "1/2") = str "a:b/Greeter:1/2" ∧
    parseServiceKey (str "a:b/Greeter:1/2") = (str "Greeter", str "a:b", str "1/2") :=
  ⟨by decide, (parseServiceKey_serviceKey separable_greeter).1.2 (by decide)⟩

/-- Without a group, the slash of the version is taken for that of a group. -/
theorem parseServiceKey_slash : serviceKey (str "Greeter") [] (str "1/2") = serviceKey (str "2") (str "Greeter:1") [] ∧
    parseServiceKey (serviceKey (str "Greeter") [] (str "1/2")) = (str "2", str "Greeter:1", []) := by
  decide

end DubboGo.Common
