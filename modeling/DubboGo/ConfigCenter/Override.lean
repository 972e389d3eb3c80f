import DubboGo.Common.Match
import DubboGo.Common.ServiceURL

/-!
# Override rules

The configurator of `config_center/configurator/override.go`: a URL whose parameters replace those of
the URLs that it matches.  What `GetLocalIp` returns is a parameter.
-/

namespace DubboGo.ConfigCenter

open Go Common

def enabledKey : Str := str "enabled"
def sideKey : Str := str "side"
def applicationKey : Str := str "application"
def categoryKey : Str := str "category"
def checkKey : Str := str "check"
def configVersionKey : Str := str "config-center.configVersion"
def compatibleConfigKey : Str := str "config-center.compatible_config"
def overrideProvidersKey : Str := str "providerAddresses"
def anyhostKey : Str := str "anyhost"
def apiVersion : Str := str "v3.0"
def emptyProtocol : Str := str "empty"

/-- `DubboRole[CONSUMER]` and `DubboRole[PROVIDER]`. -/
def consumerRole : Str := str "consumer"
def providerRole : Str := str "provider"

/-- `getConditionKeys`. -/
def conditionKeys : List Str :=
  [categoryKey, checkKey, enabledKey, groupKey, versionKey, applicationKey, sideKey, configVersionKey,
    compatibleConfigKey]

def isCondition (k : Str) : Bool := hasPrefix k (str "~") ∨ k = applicationKey ∨ k = sideKey

/-- `url.SetParams(configUrl.GetParams())`, without the keys excluded. -/
def applyParams (c : ServiceURL) (excluded : Str → Bool) (url : ServiceURL) : ServiceURL :=
  { url with params := url.params.setParams (c.params.except excluded) }

def configureIfMatchV3 (c : ServiceURL) (host : Str) (url : ServiceURL) : ServiceURL :=
  match c.matchCondition with
  | some isMatch => if isMatch host url.toURL then applyParams c (· ∈ conditionKeys) url else url
  | none => url

def Unmet (c url : ServiceURL) (k : Str) : Prop :=
  isCondition k ∧ c.getParam k [] ≠ [] ∧ c.getParam k [] ≠ anyValue ∧
    c.getParam k [] ≠ url.getParam (trimPrefix k (str "~")) []

instance Unmet.decidable (c url : ServiceURL) (k : Str) : Decidable (Unmet c url k) :=
  inferInstanceAs (Decidable (_ ∧ _ ∧ _ ∧ _))

def configureIfMatchInternal (c url : ServiceURL) : ServiceURL :=
  let configApp := c.getParam applicationKey c.username
  let currentApp := url.getParam applicationKey url.username
  if configApp = [] ∨ anyValue = configApp ∨ configApp = currentApp then
    if ∃ k ∈ c.params.keys, Unmet c url k then url
    -- the conditions of the rule have been added to the keys that are left out
    else applyParams c (fun k => k ∈ conditionKeys ∨ isCondition k) url
  else url

def configureIfMatch (c : ServiceURL) (host : Str) (url : ServiceURL) : ServiceURL :=
  if anyHostValue = c.ip ∨ host = c.ip then
    let providers := c.getParam overrideProvidersKey []
    -- `strings.Contains`
    if providers = [] ∨ (cut url.location providers).isSome ∨ (cut anyHostValue providers).isSome then
      configureIfMatchInternal c url
    else url
  else url

def configureDeprecated (localIp : Str) (c url : ServiceURL) : ServiceURL :=
  if c.port ≠ str "0" then
    if url.port = c.port then configureIfMatch c url.ip url else url
  else if url.getParam sideKey [] = consumerRole then configureIfMatch c localIp url
  else configureIfMatch c anyHostValue url

/-- `Configure`, for the rule `c`. -/
def configure (localIp : Str) (c url : ServiceURL) : ServiceURL :=
  if c.getParam enabledKey (str "true") = str "false" ∨ c.location = [] then url
  else if c.getParam configVersionKey [] ≠ [] then
    let currentSide := url.getParam sideKey []
    let configuratorSide := c.getParam sideKey []
    let host :=
      if currentSide = configuratorSide ∧ consumerRole = currentSide then localIp
      else if currentSide = configuratorSide ∧ providerRole = currentSide then url.ip
      else []
    if hasPrefix (c.getParam configVersionKey []) apiVersion then configureIfMatchV3 c host url
    else configureIfMatch c host url
  else configureDeprecated localIp c url

/-- `doOverrideUrl`: the rules one after the other. -/
def overrideAll (localIp : Str) (rules : List ServiceURL) (url : ServiceURL) : ServiceURL :=
  rules.foldl (fun url c => configure localIp c url) url

/-- `ToConfigurators`: an `empty://` URL drops every rule. -/
def toConfigurators (urls : List ServiceURL) : List ServiceURL :=
  if urls.any (·.protocol = emptyProtocol) then []
  else
    (urls.map fun url => { url with params := url.params.del anyhostKey }).filter fun url =>
      url.params.keys ≠ ∅

end DubboGo.ConfigCenter
