import DubboGo.Common.NewURL

/-!
# Nodes of a registry

`processURL` of `registry/base_registry.go`: the path and the text of the node that a URL is registered as.  The
query of the text is unescaped as soon as it has been escaped, and the text is then escaped as a whole.
-/

namespace DubboGo.Registry.Nodes

open Go Common NetURL

def registryRoleKey : Str := str "registry.role"
def registryGroupKey : Str := str "registry.group"
def anyhostKey : Str := str "anyhost"
def consumer : ℤ := 0

def provider : ℤ := 3

/-- The errors of `processURL`, with what their texts are made of. -/
inductive Failure where
  /-- `type is not referencer or provider`. -/
  | role
  /-- `conf{Path:…, Methods:…}`. -/
  | conf (path : Str) (methods : List Str)
  /-- `facadeBasedRegistry.CreatePath(path:…): …`. -/
  | createPath (dubboPath e : Str)
  /-- The error of `CreatePath` alone, for a consumer. -/
  | withStack (e : Str)

/-- The parameters that `RangeParams` goes through, each with its first value. -/
def rangeParams (p : Params) : Params := Params.empty.addAll (p.sortedKeys.map fun k => (k, p.get k))

def dubboPath (r c : ServiceURL) (nodes : Str) : Str :=
  str "/" ++ r.getParam registryGroupKey (str "dubbo") ++ str "/" ++ queryEscape c.toURL.service ++ str "/" ++ nodes

/-- `url.QueryUnescape(params.Encode())`, with its error ignored. -/
def unescapedQuery (params : Params) : Str :=
  match queryUnescape params.encode with
  | .ok s => s
  | .error _ => []

def addedParams (c : ServiceURL) (params : Params) : Params :=
  let params := params.add anyhostKey (str "true")
  if c.methods ≠ [] then params.add methodsKey ([44].intercalate c.methods) else params

/-- The parameters of a provider's node; those whose first value is empty are deleted. -/
def providerParams (c : ServiceURL) (params : Params) : Params :=
  let params := addedParams c params
  params.except fun k => params.get k = []

/-- `providerRegistry`; `f` creates the path, and gives an error or none. -/
def providerRegistry (r c : ServiceURL) (localIP : Str) (params : Params) (f : Str → Option Str) :
    Except Failure (Str × Str) :=
  if c.path = [] ∨ c.methods = [] then .error (.conf c.path c.methods)
  else
    let dubboPath := dubboPath r c (str "providers")
    match f dubboPath with
    | some e => .error (.createPath dubboPath e)
    | none =>
      let host := (if c.ip = [] then localIP else c.ip) ++ str ":" ++ c.port
      let s := unescapedQuery (providerParams c params)
      .ok (dubboPath, c.protocol ++ str "://" ++ host ++ c.path ++ str "?" ++ s)

def consumerRegistry (r c : ServiceURL) (localIP : Str) (params : Params) (f : Str → Option Str) :
    Except Failure (Str × Str) :=
  let dubboPath := dubboPath r c (str "consumers")
  match f dubboPath with
  | some e => .error (.withStack e)
  | none =>
    let s := unescapedQuery (params.add (str "protocol") c.protocol)
    .ok (dubboPath, str "consumer://" ++ localIP ++ c.path ++ str "?" ++ s)

/-- `strings.ReplaceAll(path, "$", "%24")`. -/
def replaceDollars (path : Str) : Str := path.flatMap fun b => if b = 36 then str "%24" else [b]

/-- The path and the text that `processURL` hands to `DoRegister`. -/
def processURL (r c : ServiceURL) (localIP : Str) (f : Str → Option Str) : Except Failure (Str × Str) :=
  let params := rangeParams c.params
  let role := atoi (c.getParam registryRoleKey [])
  let result :=
    if role = provider then providerRegistry r c localIP params f
    else if role = consumer then consumerRegistry r c localIP params f
    else .error .role
  match result with
  | .error e => .error e
  | .ok (dubboPath, rawURL) => .ok (replaceDollars dubboPath, queryEscape rawURL)

/-! ## The parameters of a node -/

theorem values_rangeParams (p : Params) (k : Str) :
    (rangeParams p).values k = if (p.values k).isSome then some [p.get k] else none := by
  have hpairs : (p.sortedKeys.map fun k => (k, p.get k)) =
      p.sortedKeys.flatMap fun k => [p.get k].map fun v => (k, v) := by
    rw [List.map_eq_flatMap]
    rfl
  unfold rangeParams
  rw [Params.values_addAll, hpairs, Params.valuesOf_flatMap p.nodup_sortedKeys, Params.values_empty]
  simp only [Params.mem_sortedKeys]
  cases (p.values k).isSome <;> rfl

theorem get_rangeParams (p : Params) (k : Str) : (rangeParams p).get k = p.get k := by
  rw [Params.get_eq, values_rangeParams]
  cases hvalues : p.values k with
  | none =>
    rw [Params.get_eq, hvalues]
    rfl
  | some vs => rfl

theorem get_addedParams {c : ServiceURL} {ps : Params} {k : Str}
    (hsome : k ∈ [anyhostKey, methodsKey] → (ps.values k).isSome = true) : (addedParams c ps).get k = ps.get k := by
  have hanyhost : (ps.add anyhostKey (str "true")).get k = ps.get k :=
    Params.get_add (fun hk => hsome (by rw [hk]; exact List.mem_cons_self)) _
  unfold addedParams
  dsimp only
  split_ifs
  · rw [Params.get_add, hanyhost]
    intro hk
    exact Params.isSome_values_add (hsome (by rw [hk]; exact List.mem_cons_of_mem _ List.mem_cons_self)) _ _
  · exact hanyhost

theorem get_providerParams (c : ServiceURL) (ps : Params) (k : Str) :
    (providerParams c ps).get k = (addedParams c ps).get k := by
  rw [Params.get_eq, providerParams, Params.values_except]
  by_cases hempty : (addedParams c ps).get k = []
  · rw [if_pos (decide_eq_true hempty), hempty]
    rfl
  · rw [if_neg (by simpa using hempty), ← Params.get_eq]

theorem get_nodeParams {c : ServiceURL} {k : Str} (hk : k ∈ [anyhostKey, methodsKey] → c.params.get k ≠ []) :
    (providerParams c (rangeParams c.params)).get k = c.params.get k := by
  rw [get_providerParams, get_addedParams, get_rangeParams]
  intro hadded
  rw [values_rangeParams, if_pos (Params.isSome_values_of_get (hk hadded))]
  rfl

/-! ## Providers without escapes -/

structure Plain (c : ServiceURL) : Prop where
  protocol_head : ∃ b s, c.protocol = b :: s ∧ isLower b = true
  protocol : ∀ b ∈ c.protocol, isSchemeByte b = true
  address : PlainAddress c.ip c.port
  path_head : ∃ s, c.path = 47 :: s
  path : ∀ b ∈ c.path, isPathByte b = true
  params : ∀ k, c.params.get k ≠ [] → Params.PlainPair (k, c.params.get k)
  methods : ∀ m ∈ c.methods, ∀ b ∈ m, Params.isValueByte b = true

def nodeURL (c : ServiceURL) : Str :=
  format c.protocol c.ip c.port c.path (providerParams c (rangeParams c.params)).rawQuery

theorem processURL_of_provider {c : ServiceURL} (hrole : atoi (c.getParam registryRoleKey []) = provider)
    (hip : c.ip ≠ []) (r : ServiceURL) (localIP : Str) (f : Str → Option Str) :
    processURL r c localIP f =
      if c.path = [] ∨ c.methods = [] then .error (.conf c.path c.methods)
      else
        match f (dubboPath r c (str "providers")) with
        | some e => .error (.createPath (dubboPath r c (str "providers")) e)
        | none => .ok (replaceDollars (dubboPath r c (str "providers")), queryEscape (nodeURL c)) := by
  have hcolon : str ":" = [58] := rfl
  have hmark : str "?" = [63] := rfl
  have hurl : c.protocol ++ str "://" ++ (c.ip ++ str ":" ++ c.port) ++ c.path ++ str "?" ++
      unescapedQuery (providerParams c (rangeParams c.params)) = nodeURL c := by
    rw [nodeURL, unescapedQuery, Params.queryUnescape_encode, hcolon, hmark, format]
    simp only [List.append_assoc, List.singleton_append]
  unfold processURL providerRegistry
  dsimp only
  rw [if_pos hrole, if_neg hip, hurl]
  split_ifs
  · rfl
  · cases f (dubboPath r c (str "providers")) <;> rfl

theorem node_of_processURL {r c : ServiceURL} {localIP path node : Str} {f : Str → Option Str}
    (hrole : atoi (c.getParam registryRoleKey []) = provider) (hip : c.ip ≠ [])
    (hnode : processURL r c localIP f = .ok (path, node)) : node = queryEscape (nodeURL c) := by
  rw [processURL_of_provider hrole hip] at hnode
  split_ifs at hnode
  split at hnode
  · cases hnode
  · exact (Prod.mk.inj (Except.ok.inj hnode)).2.symm

section Provider

variable {c : ServiceURL} (hplain : Plain c)

include hplain

theorem Plain.pairs {e : Str × Str} (he : e ∈ (providerParams c (rangeParams c.params)).pairs) : Params.PlainPair e := by
  obtain ⟨hkept, he⟩ := Params.mem_pairs_except.1 he
  have hkept : (addedParams c (rangeParams c.params)).get e.1 ≠ [] := of_decide_eq_false hkept
  have hmethods : ∀ b ∈ [44].intercalate c.methods, Params.isValueByte b = true := by
    intro b hb
    rcases Params.mem_of_mem_intercalate hb with rfl | ⟨m, hm, hb⟩
    · decide
    · exact hplain.methods m hm b hb
  have hranged : e ∈ (rangeParams c.params).pairs → Params.PlainPair e := by
    intro he
    obtain ⟨vs, hvs, hmem⟩ := Params.mem_pairs.1 he
    rw [get_addedParams fun _ => by rw [hvs]; rfl, get_rangeParams] at hkept
    rw [values_rangeParams, if_pos (Params.isSome_values_of_get hkept)] at hvs
    cases hvs
    have hvalue := List.mem_singleton.1 hmem
    have hpair := hplain.params e.1 hkept
    rw [← hvalue] at hpair
    exact hpair
  have hanyhost : e ∈ ((rangeParams c.params).add anyhostKey (str "true")).pairs → Params.PlainPair e := by
    intro he
    rcases Params.mem_pairs_add.1 he with rfl | he
    · exact ⟨by decide +kernel, by decide +kernel⟩
    · exact hranged he
  unfold addedParams at he
  dsimp only at he
  split_ifs at he
  · rcases Params.mem_pairs_add.1 he with rfl | he
    · have hkey : ∀ b ∈ methodsKey, Params.isKeyByte b = true := by decide +kernel
      exact ⟨hkey, hmethods⟩
    · exact hanyhost he
  · exact hanyhost he

theorem Plain.parts (hrole : atoi (c.getParam registryRoleKey []) = provider) :
    PlainParts c.protocol c.ip c.port c.path (providerParams c (rangeParams c.params)).rawQuery where
  toPlainAddress := hplain.address
  scheme_head := hplain.protocol_head
  scheme := hplain.protocol
  path_head := hplain.path_head
  path := hplain.path
  query_ne_nil := by
    intro hnil
    have hparse := Params.parseQuery_rawQuery fun _ => hplain.pairs
    rw [hnil] at hparse
    have hempty : Params.empty = providerParams c (rangeParams c.params) := (Prod.mk.inj hparse).1
    have hother : registryRoleKey ∉ [anyhostKey, methodsKey] := by decide
    have hget : c.params.get registryRoleKey = [] := by
      rw [← get_nodeParams (c := c) (k := registryRoleKey) fun hk => absurd hk hother, ← hempty]
      rfl
    rw [c.getParam_nil, hget] at hrole
    exact absurd hrole (by decide)
  query := fun _ => Params.isQueryByte_rawQuery fun _ => hplain.pairs

end Provider

/-- `NewURL` reads a provider back from its node, with the first value of each of its parameters. -/
theorem provider_read_back (r c : ServiceURL) (localIP path node : Str) (f : Str → Option Str)
    (hrole : atoi (c.getParam registryRoleKey []) = provider) (hplain : Plain c)
    (hnode : processURL r c localIP f = .ok (path, node)) :
    ∃ u, newURL node [] = .ok u ∧ u.protocol = c.protocol ∧ u.ip = c.ip ∧ u.port = c.port ∧ u.path = c.path ∧
      ∀ k, (k ∈ [anyhostKey, methodsKey] → c.params.get k ≠ []) → u.params.get k = c.params.get k := by
  have hparts := hplain.parts hrole
  have hslashes : (cut (str "//") (nodeURL c)).isSome = true := by
    rw [nodeURL, format_eq, List.append_cons]
    exact isSome_cut (by decide) _ _
  have hread : newURL node [] = ofParsed
      ⟨c.protocol, [], [], c.ip ++ 58 :: c.port, c.path, (providerParams c (rangeParams c.params)).rawQuery⟩ := by
    have hnode := node_of_processURL hrole hplain.address.ip_ne_nil hnode
    rw [hnode, newURL_queryEscape hslashes, nodeURL, parse_url hparts]
  rw [hread]
  dsimp only [ofParsed]
  rw [Params.parseQuery_rawQuery fun _ => hplain.pairs]
  dsimp only
  rw [firstAddress_of_plain hplain.address]
  exact ⟨_, rfl, rfl, rfl, rfl, rfl, fun k hk => get_nodeParams hk⟩

def exportedParams (value : Str) : Params := (Params.empty.set registryRoleKey (str "3")).set (str "k") value

def exported (ip value : Str) : ServiceURL :=
  { ServiceURL.ofProvider ip (str "20000") (exportedParams value) with methods := [str "sayHello"] }

theorem values_exportedParams (value k : Str) :
    (exportedParams value).values k = List.lookup k [(str "k", [value]), (registryRoleKey, [str "3"])] := by
  rw [exportedParams, Params.values_set, Params.values_set, Function.update_apply, Function.update_apply,
    Params.values_empty, List.lookup, List.lookup, List.lookup]
  by_cases hk : k = str "k"
  · rw [if_pos hk, beq_iff_eq.2 hk]
  · rw [if_neg hk, beq_false_of_ne hk]
    by_cases hrole : k = registryRoleKey
    · rw [if_pos hrole, beq_iff_eq.2 hrole]
    · rw [if_neg hrole, beq_false_of_ne hrole]

theorem role_exported (ip value : Str) : atoi ((exported ip value).getParam registryRoleKey []) = provider := by
  have hget : (exportedParams value).get registryRoleKey = str "3" := by
    rw [Params.get_eq, values_exportedParams]
    rfl
  rw [ServiceURL.getParam_nil]
  refine (congrArg atoi hget).trans ?_
  decide

theorem plain_exported : Plain (exported (str "10.0.0.1") (str "v")) where
  protocol_head := ⟨100, str "ubbo", by decide, by decide⟩
  protocol := by decide +kernel
  address := ⟨by decide, by decide +kernel, by decide +kernel⟩
  path_head := ⟨str "org.apache.demo.HelloService", by decide +kernel⟩
  path := by decide +kernel
  params := by
    intro k hget
    have hvalue : (exported (str "10.0.0.1") (str "v")).params.get k =
        (((exportedParams (str "v")).values k).getD []).headD [] := rfl
    rw [hvalue, values_exportedParams] at hget ⊢
    by_cases hk : k = str "k"
    · subst hk
      exact ⟨by decide +kernel, by decide +kernel⟩
    · by_cases hrole : k = registryRoleKey
      · subst hrole
        exact ⟨by decide +kernel, by decide +kernel⟩
      · simp [hk, hrole, List.lookup, beq_false_of_ne] at hget
  methods := by decide +kernel

theorem provider_read_back_exported :
    ∃ path node u, processURL .zero (exported (str "10.0.0.1") (str "v")) [] (fun _ => none) = .ok (path, node) ∧
      newURL node [] = .ok u ∧ u.ip = str "10.0.0.1" ∧ u.params.get (str "k") = str "v" := by
  have hrole := role_exported (str "10.0.0.1") (str "v")
  have hnode := processURL_of_provider hrole plain_exported.address.ip_ne_nil .zero [] fun _ => none
  obtain ⟨u, hu, -, hip, -, -, hparams⟩ := provider_read_back _ _ _ _ _ _ hrole plain_exported hnode
  exact ⟨_, _, u, hnode, hu, hip, hparams (str "k") fun hk => absurd hk (by decide)⟩

theorem rangeParams_exported (value : Str) :
    rangeParams (exportedParams value) = Params.empty.addAll [(str "k", value), (registryRoleKey, str "3")] := by
  have hkeys : (exportedParams value).keys = [str "k", registryRoleKey].toFinset := by
    ext k
    rw [Params.mem_keys, values_exportedParams]
    simp [List.lookup_isSome_iff]
  rw [rangeParams, Params.sortedKeys_eq hkeys (by decide) (by decide)]
  rfl

theorem nodeURL_ampersand (ip : Str) :
    nodeURL (exported ip (str "a&b=c")) =
      format (str "dubbo") ip (str "20000") (str "/org.apache.demo.HelloService")
        (str "anyhost=true&k=a&b=c&methods=sayHello&registry.role=3") := by
  -- the address is not in the query, and the kernel sorts no keys
  have hquery : (providerParams (exported [] (str "a&b=c")) (rangeParams (exportedParams (str "a&b=c")))).rawQuery =
      str "anyhost=true&k=a&b=c&methods=sayHello&registry.role=3" := by
    rw [rangeParams_exported, Params.rawQuery, Params.pairs,
      Params.sortedKeys_eq (l := [anyhostKey, str "k", methodsKey, registryRoleKey])
        (by decide +kernel) (by decide) (by decide)]
    decide +kernel
  exact congrArg _ hquery

/-- A value is cut at its ampersand, and an address with colons cannot be read at all. -/
theorem ampersand_cut_ipv6_refused :
    (∃ path node, processURL .zero (exported (str "10.0.0.1") (str "a&b=c")) [] (fun _ => none) = .ok (path, node) ∧
      (newURL node []).map (fun u => u.params.get (str "k")) = .ok (str "a")) ∧
    ∃ path node, processURL .zero (exported (str "::1") (str "a&b=c")) [] (fun _ => none) = .ok (path, node) ∧
      newURL node [] = .error (.splitHostPort (str "::1:20000") .tooManyColons) := by
  have hnode : ∀ ip, ip ≠ [] → ∃ path, processURL .zero (exported ip (str "a&b=c")) [] (fun _ => none) =
      .ok (path, queryEscape (nodeURL (exported ip (str "a&b=c")))) := by
    intro ip hip
    exact ⟨_, processURL_of_provider (role_exported ip _) hip _ _ _⟩
  obtain ⟨path, hpath⟩ := hnode (str "10.0.0.1") (by decide)
  obtain ⟨path', hpath'⟩ := hnode (str "::1") (by decide)
  rw [nodeURL_ampersand] at hpath hpath'
  have hparse : ∀ ip ∈ [str "10.0.0.1", str "::1"],
      parseURL (format (str "dubbo") ip (str "20000") (str "/org.apache.demo.HelloService")
        (str "anyhost=true&k=a&b=c&methods=sayHello&registry.role=3")) =
      .ok ⟨str "dubbo", [], [], ip ++ str ":20000", str "/org.apache.demo.HelloService",
        str "anyhost=true&k=a&b=c&methods=sayHello&registry.role=3"⟩ := by
    decide +kernel
  refine ⟨⟨path, _, hpath, ?_⟩, path', _, hpath', ?_⟩
  · rw [newURL_queryEscape (by decide +kernel), hparse _ (by decide)]
    set_option maxRecDepth 4000 in rfl
  · rw [newURL_queryEscape (by decide +kernel), hparse _ (by decide)]
    set_option maxRecDepth 4000 in rfl

end DubboGo.Registry.Nodes
