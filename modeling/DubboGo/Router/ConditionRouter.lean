import DubboGo.Router.ConditionParser
import DubboGo.Lib.Reachable
import DubboGo.Lib.WeightedDraw

/-!
# The condition router

`DynamicRouter` of `cluster/router/condition`: a rule is a list of state routers (before version 3.1)
or a set of conditions that disable traffic with a list of routers to weighted destinations.
-/

namespace DubboGo.Router.Condition

open Go Common Protocol Lib List Option

def trafficDisableKey : Str := str "trafficDisable"
def conditionChain : Str := str "condition-chain"

variable {ι : Type} (getURL : ι → URL)

/-! ## State routers -/

def takeInvokers (predicate : ι → Except RuntimeError Bool) : List ι → Except RuntimeError (List ι)
  | [] => .ok []
  | invoker :: rest => do
    let take ← predicate invoker
    let result ← takeInvokers predicate rest
    return if take then invoker :: result else result

def StateRouter.route (s : StateRouter) (invokers : List ι) (url : URL)
    (invocation : RPCInvocation) : Except RuntimeError (List ι) :=
  if invokers.length = 0 then .ok invokers
  else do
    -- an empty condition on the request always holds
    if ← doMatch url none (some invocation) true s.whenCondition then
      if s.thenCondition.length = 0 then return []
      else takeInvokers (fun i => doMatch (getURL i) (some url) none false s.thenCondition) invokers
    else return invokers

/-- `stateRouters.route`; the loop stops when no invoker is left. -/
def routeStates (url : URL) (invocation : RPCInvocation) : List StateRouter → List ι → Except RuntimeError (List ι)
  | [], invokers => .ok invokers
  | router :: routers, invokers =>
    if invokers.length = 0 then .ok invokers
    else do routeStates url invocation routers (← router.route getURL invokers url invocation)

/-! ## Weighted destinations -/

structure Destination (ι : Type) where
  matchRule : Str
  weight : ℤ
  ivks : List ι

structure DestSets (ι : Type) where
  destinations : List (Destination ι)
  weightSum : ℤ

def DestSets.addDest (s : DestSets ι) (weight : ℤ) (rule : Str) (ivks : List ι) : DestSets ι :=
  ⟨s.destinations ++ [⟨rule, weight, ivks⟩], int64 (s.weightSum + weight)⟩

/-- The loop of `randDest`. -/
def pickDest : (sum : ℤ) → List (Destination ι) → Option (Destination ι)
  | _, [] => none
  | sum, d :: rest =>
    let sum := int64 (sum - d.weight)
    if sum ≤ 0 then some d else pickDest sum rest

/-- `randDest`, where the draw is what the random source gives for `rand.Intn`. -/
def DestSets.randDest (s : DestSets ι) (draw : ℕ) : Except RuntimeError (Option (Destination ι)) :=
  if s.weightSum = 0 then .ok none
  else
    match s.destinations with
    | [d] => .ok (some d)
    | _ =>
      if s.weightSum < 0 then .error .invalidArgument
      else .ok (pickDest (draw % s.weightSum) s.destinations)

/-- The loop of `MultiDestRouter.Route` over the destinations. -/
def collectDests (url : URL) (invokers : List ι) : List CondSet → DestSets ι → Except RuntimeError (DestSets ι)
  | [], dests => .ok dests
  | condition :: rest, dests => do
    let res ← takeInvokers
      (fun i => doMatch (getURL i) (some url) none false condition.matcher.conditions) invokers
    collectDests url invokers rest
      (if res.length ≠ 0 then dests.addDest condition.subSetWeight condition.matcher.rule res
      else dests)

def joinCommas (texts : List Str) : Str := (texts.intersperse (str ",")).flatten

/-- `MultiDestRouter.Route`: the invokers, whether the condition on the request matched, and the
invocation, whose attributes keep the routes taken. -/
def MultiDestRouter.route (m : MultiDestRouter) (draw : ℕ) (invokers : List ι) (url : URL)
    (invocation : RPCInvocation) : Except RuntimeError (List ι × Bool × RPCInvocation) :=
  if invokers.length = 0 then .ok (invokers, false, invocation)
  else do
    if ← doMatch url none (some invocation) true m.whenCondition.conditions then
      if m.thenCondition.length = 0 then return ([], true, invocation)
      else
        let dests ← collectDests getURL url invokers m.thenCondition ⟨[], 0⟩
        let chain :=
          match invocation.attributeAt conditionChain with
          | some (.texts l) => l
          | _ => []
        let request := str "request=" ++ m.whenCondition.rule
        match ← dests.randDest draw with
        | some d =>
          let invocation ← invocation.assignAttribute conditionChain
            (.texts (chain ++ [request ++ str ",invokers=" ++ d.matchRule]))
          return (d.ivks, true, invocation)
        | none =>
          let thenRule := m.thenCondition.map fun set => set.matcher.rule
          let invocation ← invocation.assignAttribute conditionChain
            (.texts (chain ++ [request ++ str ",invokers!=" ++ joinCommas thenRule]))
          return ([], true, invocation)
    else return (invokers, false, invocation)

structure MultiplyConditionRoute where
  trafficDisabled : List FieldMatcher
  routes : List MultiDestRouter

def anyDisabled (url : URL) (invocation : RPCInvocation) : List FieldMatcher → Except RuntimeError Bool
  | [] => .ok false
  | cond :: rest => do
    if ← doMatch url none (some invocation) true cond.conditions then return true
    else anyDisabled url invocation rest

/-- The loop over the routers, each of which draws once.  It stops when a router that matches the
request leaves no invoker. -/
def routeDests (draws : ℕ → ℕ) (url : URL) :
    List MultiDestRouter → List ι → RPCInvocation → Except RuntimeError (List ι × RPCInvocation)
  | [], invokers, invocation => .ok (invokers, invocation.deleteAttribute conditionChain)
  | router :: routers, invokers, invocation => do
    let (invokers, isMatchWhen, invocation) ← router.route getURL (draws 0) invokers url invocation
    if isMatchWhen ∧ invokers.length = 0 then return ([], invocation)
    else routeDests (fun n => draws (n + 1)) url routers invokers invocation

def MultiplyConditionRoute.route (m : MultiplyConditionRoute) (draws : ℕ → ℕ) (invokers : List ι)
    (url : URL) (invocation : RPCInvocation) : Except RuntimeError (List ι × RPCInvocation) := do
  if ← anyDisabled url invocation m.trafficDisabled then
    return ([], invocation.setAttachment trafficDisableKey .other)
  else if invokers.length ≠ 0 ∧ m.routes.length ≠ 0 then
    routeDests getURL draws url m.routes invokers invocation
  else return (invokers, invocation)

/-! ## The dynamic router -/

/-- The values of `condRouter`. -/
inductive CondRouter where
  | stateRouters (routers : List StateRouter)
  /-- A pointer, which is nil for a rule that is disabled. -/
  | multiply (m : Option MultiplyConditionRoute)

/-- `route` of the interface. -/
def CondRouter.route (draws : ℕ → ℕ) (invokers : List ι) (url : URL) (invocation : RPCInvocation) :
    CondRouter → Except RuntimeError (List ι × RPCInvocation)
  | .stateRouters routers => do
    let res ← routeStates getURL url invocation routers invokers
    return (res, invocation)
  | .multiply (some m) => m.route getURL draws invokers url invocation
  | .multiply none => .error .nilPointer

structure DynamicRouter where
  force : Bool
  enable : Bool
  conditionRouter : Option CondRouter

def DynamicRouter.route (d : DynamicRouter) (draws : ℕ → ℕ) (invokers : List ι) (url : URL)
    (invocation : RPCInvocation) : Except RuntimeError (List ι × RPCInvocation) :=
  if invokers.length = 0 ∨ d.enable = false then .ok (invokers, invocation)
  else
    match d.conditionRouter with
    | none => .ok (invokers, invocation)
    | some cr => do
      let (res, invocation) ← cr.route getURL draws invokers url invocation
      if res.length = 0 ∧ invocation.attachments trafficDisableKey = none ∧ d.force = false then
        return (invokers, invocation)
      else return (res, invocation)

/-! ## Rules from the configuration -/

/-- `global.RouterConfig`, with the fields that the condition router reads. -/
structure ConditionsConfig where
  force : Option Bool
  enabled : Option Bool
  conditions : List Str

/-- `global.ConditionRouter`, with the fields that the condition router reads. -/
structure MultiConfig where
  force : Bool
  enabled : Bool
  conditions : List (Option ConditionRule)

/-- The value of `configVersion` in a rule text. -/
inductive VersionField where
  | missing
  | text (s : Str)
  | other

/-- What the YAML decoder makes of a rule text; `none` is an error. -/
structure Yaml where
  configVersion : Str → Option VersionField
  routerConfig : Str → Option ConditionsConfig
  conditionRouter : Str → Option MultiConfig

/-- `removeDuplicates`, which leaves nil for a rule that was there before. -/
def removeDuplicates (seen : List ConditionRule) : List (Option ConditionRule) → List (Option ConditionRule)
  | [] => []
  | none :: rules => none :: removeDuplicates seen rules
  | some r :: rules =>
    if r ∈ seen then none :: removeDuplicates seen rules
    else some r :: removeDuplicates (r :: seen) rules

/-- The rule of a configuration with its flags `force` and `enable`; `none` is an error. -/
abbrev Generated := Option (CondRouter × Bool × Bool)

def newMultiDestRouters (rules : List (Option ConditionRule)) : Except Str (List MultiDestRouter) := do
  let routers ← (rules.filterMap id).mapM newConditionMultiDestRouter
  return routers.filterMap id

def generateMultiConditionRoute (yaml : Yaml) (rawConfig : Str) : Generated :=
  match yaml.conditionRouter rawConfig with
  | none => none
  | some cfg =>
    if cfg.enabled = false then some (.multiply none, false, false)
    else
      match newMultiDestRouters (removeDuplicates [] cfg.conditions) with
      | .error _ => none
      | .ok routers =>
        -- a rule without destinations disables traffic
        some (.multiply (some
          { trafficDisabled := (routers.filter fun r => r.thenCondition.length = 0).map
              (·.whenCondition)
            routes := routers.filter fun r => r.thenCondition.length ≠ 0 }), cfg.force, true)

/-- `generateConditionsRoute`; the flags are read through pointers. -/
def generateConditionsRoute (yaml : Yaml) (rawConfig : Str) : Except RuntimeError Generated :=
  match yaml.routerConfig rawConfig with
  | none => .ok none
  | some cfg =>
    match cfg.force, cfg.enabled with
    | some force, some enable =>
      if enable = false then .ok (some (.stateRouters [], false, false))
      else
        match cfg.conditions.mapM newConditionStateRouter with
        | .error _ => .ok none
        | .ok routers => .ok (some (.stateRouters routers, force, enable))
    | _, _ => .error .nilPointer

def generateCondition (yaml : Yaml) (rawConfig : Str) : Except RuntimeError Generated :=
  match yaml.configVersion rawConfig with
  | some (.text version) =>
    match parseVersion version with
    | none => .ok none
    | some v =>
      if compareVersions v v31 = .lt then generateConditionsRoute yaml rawConfig
      else .ok (generateMultiConditionRoute yaml rawConfig)
  | _ => .ok none

inductive ConfigChangeEvent where
  | del
  | value (rawConfig : Str)

namespace DynamicRouter

def process (yaml : Yaml) (d : DynamicRouter) : ConfigChangeEvent → Except RuntimeError DynamicRouter
  | .del => .ok { d with conditionRouter := none }
  | .value rawConfig => do
    match ← generateCondition yaml rawConfig with
    | none => return { d with conditionRouter := none }
    | some (rc, force, enable) => return ⟨force, enable, some rc⟩

/-- `SetStaticConfig`; a rule that cannot be parsed is left out. -/
def setStaticConfig (d : DynamicRouter) (cfg : Option ConditionsConfig) : DynamicRouter :=
  match cfg with
  | none => d
  | some cfg =>
    if cfg.conditions.length = 0 then d
    else if cfg.enabled.getD true = false then ⟨cfg.force.getD false, false, none⟩
    else ⟨cfg.force.getD false, true, some (.stateRouters (cfg.conditions.filterMap fun rule =>
      (newConditionStateRouter rule).toOption))⟩

def new : DynamicRouter := ⟨false, false, none⟩

end DynamicRouter

/-! ## Reachable rules -/

def StateRouter.reorder (σ : List Matcher → List Matcher) (r : StateRouter) : StateRouter :=
  ⟨σ r.whenCondition, σ r.thenCondition⟩

def FieldMatcher.reorder (σ : List Matcher → List Matcher) (m : FieldMatcher) : FieldMatcher :=
  { m with conditions := σ m.conditions }

def MultiDestRouter.reorder (σ : List Matcher → List Matcher) (r : MultiDestRouter) : MultiDestRouter :=
  ⟨r.whenCondition.reorder σ, r.thenCondition.map fun cs => { cs with matcher := cs.matcher.reorder σ }⟩

def CondRouter.reorder (σ : List Matcher → List Matcher) : CondRouter → CondRouter
  | .stateRouters routers => .stateRouters (routers.map (StateRouter.reorder σ))
  | .multiply m => .multiply (m.map fun m =>
      ⟨m.trafficDisabled.map (FieldMatcher.reorder σ), m.routes.map (MultiDestRouter.reorder σ)⟩)

/-- The steps of a dynamic router.  A call of `Process` that panics leaves the router as it is; the
order in which a map is visited may change at any time. -/
inductive Step (yaml : Yaml) : DynamicRouter → DynamicRouter → Prop where
  | process {d d' : DynamicRouter} (event : ConfigChangeEvent) (h : d.process yaml event = .ok d') : Step yaml d d'
  | setStaticConfig (d : DynamicRouter) (cfg : Option ConditionsConfig) : Step yaml d (d.setStaticConfig cfg)
  | reorder (d : DynamicRouter) (σ : List Matcher → List Matcher) (h : ∀ l, (σ l).Perm l) :
      Step yaml d { d with conditionRouter := d.conditionRouter.map (CondRouter.reorder σ) }

def PositiveWeights (routes : List MultiDestRouter) : Prop :=
  ∀ r ∈ routes, ∀ cs ∈ r.thenCondition, 0 < cs.subSetWeight

/-- What holds of the rule of a router: the weights of destinations are positive, and the pointer is
nil only in a router that is not enabled. -/
def RuleOk (enable : Bool) : Option CondRouter → Prop
  | some (.multiply (some m)) => PositiveWeights m.routes
  | some (.multiply none) => enable = false
  | _ => True

theorem positiveWeights_reorder {routes : List MultiDestRouter} (h : PositiveWeights routes)
    (σ : List Matcher → List Matcher) : PositiveWeights (routes.map (MultiDestRouter.reorder σ)) := by
  intro r hr cs hcs
  obtain ⟨r', hr', rfl⟩ := mem_map.1 hr
  obtain ⟨cs', hcs', rfl⟩ := mem_map.1 hcs
  exact h r' hr' cs' hcs'

theorem exists_of_mem_mapM {α β ε : Type} {f : α → Except ε β} {l : List α} {l' : List β}
    (h : l.mapM f = .ok l') : ∀ b ∈ l', ∃ a ∈ l, f a = .ok b := by
  induction l generalizing l' with
  | nil =>
    obtain rfl : [] = l' := Except.ok.inj h
    intro b hb
    cases hb
  | cons a l ih =>
    rw [mapM_cons] at h
    obtain ⟨b, ha, h⟩ := bind_eq_ok h
    obtain ⟨bs, hl, h⟩ := bind_eq_ok h
    obtain rfl : b :: bs = l' := Except.ok.inj h
    intro c hc
    rcases mem_cons.1 hc with rfl | hc
    · exact ⟨a, mem_cons_self, ha⟩
    · obtain ⟨a', ha', hf⟩ := ih hl c hc
      exact ⟨a', mem_cons_of_mem a ha', hf⟩

variable {r : MultiDestRouter} {routers : List MultiDestRouter} {yaml : Yaml} {rawConfig : Str} {rc : CondRouter}
  {force enable : Bool} {d : DynamicRouter} {invocation a b : RPCInvocation} {conditions : List Matcher}
  {l : List ι} {dests : DestSets ι}

theorem positiveWeights_new {condConf : ConditionRule} (h : newConditionMultiDestRouter condConf = .ok (some r)) :
    ∀ cs ∈ r.thenCondition, 0 < cs.subSetWeight := by
  unfold newConditionMultiDestRouter at h
  split_ifs at h with hnone
  · cases h
  · obtain ⟨w, -, h⟩ := bind_eq_ok h
    obtain ⟨t, ht, h⟩ := bind_eq_ok h
    obtain rfl := some.inj (Except.ok.inj h)
    intro cs hcs
    obtain ⟨ruleTo, -, hcs⟩ := exists_of_mem_mapM ht cs hcs
    exact subSetWeight_pos hcs

theorem positiveWeights_newMultiDestRouters {rules : List (Option ConditionRule)}
    (h : newMultiDestRouters rules = .ok routers) : PositiveWeights routers := by
  obtain ⟨l, hm, h⟩ := bind_eq_ok h
  obtain rfl := Except.ok.inj h
  intro r hr
  obtain ⟨o, ho, hor⟩ := mem_filterMap.1 hr
  obtain ⟨c, -, hc⟩ := exists_of_mem_mapM hm o ho
  obtain rfl : o = some r := hor
  exact positiveWeights_new hc

theorem generateMulti_ok (h : generateMultiConditionRoute yaml rawConfig = some (rc, force, enable)) :
    RuleOk enable (some rc) := by
  unfold generateMultiConditionRoute at h
  split at h
  · cases h
  · split at h
    · cases h
      rfl
    · split at h
      · cases h
      · rename_i routers hr
        cases h
        intro r hr'
        exact positiveWeights_newMultiDestRouters hr r (mem_of_mem_filter hr')

theorem generateConditions_ok (h : generateConditionsRoute yaml rawConfig = .ok (some (rc, force, enable))) :
    RuleOk enable (some rc) := by
  unfold generateConditionsRoute at h
  split at h
  · cases h
  · split at h
    · split at h
      · cases h
        trivial
      · split at h
        · cases h
        · cases h
          trivial
    · cases h

theorem generateCondition_ok (h : generateCondition yaml rawConfig = .ok (some (rc, force, enable))) :
    RuleOk enable (some rc) := by
  unfold generateCondition at h
  split at h
  · split at h
    · cases h
    · split at h
      · exact generateConditions_ok h
      · exact generateMulti_ok (Except.ok.inj h)
  · cases h

/-- After any event the weights are positive, and a router with a nil rule is not enabled. -/
theorem step_ruleOk {d' : DynamicRouter} (hd : RuleOk d.enable d.conditionRouter) (h : Step yaml d d') :
    RuleOk d'.enable d'.conditionRouter := by
  cases h with
  | process ev h =>
    cases ev with
    | del =>
      obtain rfl := Except.ok.inj h
      trivial
    | value rawConfig =>
      obtain ⟨o, hg, h⟩ := bind_eq_ok h
      cases o with
      | none =>
        obtain rfl := Except.ok.inj h
        trivial
      | some x =>
        obtain rfl := Except.ok.inj h
        exact generateCondition_ok hg
  | setStaticConfig cfg =>
    unfold DynamicRouter.setStaticConfig
    split
    · exact hd
    · split_ifs
      · exact hd
      · trivial
      · trivial
  | reorder σ h =>
    cases hc : d.conditionRouter with
    | none => trivial
    | some rc =>
      rw [hc] at hd
      match rc with
      | .stateRouters routers => trivial
      | .multiply none => exact hd
      | .multiply (some m) => exact positiveWeights_reorder hd σ

theorem reachable_ruleOk (h : Reachable (· = DynamicRouter.new) (Step yaml) d) :
    RuleOk d.enable d.conditionRouter := by
  refine @Reachable.invariant _ _ _ (fun d => RuleOk d.enable d.conditionRouter) ?_ (fun _ _ => step_ruleOk) _ h
  rintro _ rfl
  trivial

/-! ## Requests without a panic -/

def SafeRequest (invocation : RPCInvocation) (conditions : List Matcher) : Prop :=
  ∀ m ∈ conditions, m.SafeWhen invocation

def SafeProvider (conditions : List Matcher) : Prop := ∀ m ∈ conditions, m.SafeThen

theorem doMatch_request (h : SafeRequest invocation conditions) (url : URL) :
    doMatch url none (some invocation) true conditions =
      .ok (conditions.all fun m => m.holds url none (some invocation) true) :=
  doMatch_ok (fun m hm => show m.Safe (some invocation) from h m hm) url none true

theorem doMatch_provider (h : SafeProvider conditions) (prov : URL) (url : URL) :
    doMatch prov (some url) none false conditions =
      .ok (conditions.all fun m => m.holds prov (some url) none false) :=
  doMatch_ok (fun m hm => show m.Safe none from h m hm) prov (some url) false

theorem takeInvokers_ok {pred : ι → Except RuntimeError Bool} {p : ι → Bool}
    (h : ∀ i ∈ l, pred i = .ok (p i)) : takeInvokers pred l = .ok (l.filter p) := by
  induction l with
  | nil => rfl
  | cons i l ih =>
    rw [takeInvokers, h i mem_cons_self, ih fun j hj => h j (mem_cons_of_mem i hj)]
    cases hp : p i <;> simp [hp, bind, Except.bind, pure, Except.pure]

theorem takeMatching_ok (h : SafeProvider conditions) (url : URL) (l : List ι) :
    ∃ res, takeInvokers (fun i => doMatch (getURL i) (some url) none false conditions) l = .ok res ∧ res.Sublist l :=
  ⟨_, takeInvokers_ok fun i _ => doMatch_provider h (getURL i) url, filter_sublist⟩

theorem StateRouter.route_ok {s : StateRouter} (hwhen : SafeRequest invocation s.whenCondition)
    (hthen : SafeProvider s.thenCondition) (l : List ι) (url : URL) :
    ∃ res, s.route getURL l url invocation = .ok res ∧ res.Sublist l := by
  obtain ⟨res, hres, hsub⟩ := takeMatching_ok getURL hthen url l
  unfold StateRouter.route
  rw [doMatch_request hwhen]
  simp only [bind, Except.bind, pure, Except.pure]
  split_ifs
  · exact ⟨l, rfl, List.Sublist.refl l⟩
  · exact ⟨[], rfl, nil_sublist l⟩
  · exact ⟨res, hres, hsub⟩
  · exact ⟨l, rfl, List.Sublist.refl l⟩

theorem routeStates_ok {routers : List StateRouter}
    (h : ∀ r ∈ routers, SafeRequest invocation r.whenCondition ∧ SafeProvider r.thenCondition) (l : List ι)
    (url : URL) : ∃ res, routeStates getURL url invocation routers l = .ok res ∧ res.Sublist l := by
  induction routers generalizing l with
  | nil => exact ⟨l, rfl, List.Sublist.refl l⟩
  | cons r routers ih =>
    unfold routeStates
    split_ifs
    · exact ⟨l, rfl, List.Sublist.refl l⟩
    · obtain ⟨hwhen, hthen⟩ := h r mem_cons_self
      obtain ⟨l', hl', hsub⟩ := StateRouter.route_ok getURL hwhen hthen l url
      obtain ⟨res, hres, hsub'⟩ := ih (fun q hq => h q (mem_cons_of_mem r hq)) l'
      exact ⟨res, by rw [hl']; exact hres, hsub'.trans hsub⟩

/-- The destinations that have been collected from the list: their weights are positive and add up
to the sum without an overflow. -/
structure DestsOf (l : List ι) (dests : DestSets ι) : Prop where
  sublist : ∀ d ∈ dests.destinations, d.ivks.Sublist l
  pos : ∀ d ∈ dests.destinations, 0 < d.weight
  sum : dests.weightSum = (dests.destinations.map (·.weight)).sum

theorem DestsOf.sum_nonneg (h : DestsOf l dests) : 0 ≤ dests.weightSum := by
  rw [h.sum]
  refine List.sum_nonneg fun w hw => ?_
  obtain ⟨d, hd, rfl⟩ := mem_map.1 hw
  exact (h.pos d hd).le

theorem DestsOf.addDest {ivks : List ι} (h : DestsOf l dests) {wt : ℤ} (hpos : 0 < wt)
    (hsum : dests.weightSum + wt < 2 ^ 63) (rule : Str) (hivks : ivks.Sublist l) :
    DestsOf l (dests.addDest wt rule ivks) where
  sublist := by
    intro d hd
    rcases mem_append.1 hd with hd | hd
    · exact h.sublist d hd
    · obtain rfl := mem_singleton.1 hd
      exact hivks
  pos := by
    intro d hd
    rcases mem_append.1 hd with hd | hd
    · exact h.pos d hd
    · obtain rfl := mem_singleton.1 hd
      exact hpos
  sum := by
    have := h.sum_nonneg
    unfold DestSets.addDest
    rw [int64_of_bounds (by omega) hsum, map_append, sum_append, h.sum]
    simp

theorem collectDests_ok {sets : List CondSet} (hthen : ∀ cs ∈ sets, SafeProvider cs.matcher.conditions)
    (hpos : ∀ cs ∈ sets, 0 < cs.subSetWeight) (url : URL) (h : DestsOf l dests)
    (hsum : dests.weightSum + (sets.map (·.subSetWeight)).sum < 2 ^ 63) :
    ∃ result, collectDests getURL url l sets dests = .ok result ∧ DestsOf l result := by
  induction sets generalizing dests with
  | nil => exact ⟨dests, rfl, h⟩
  | cons cs sets ih =>
    obtain ⟨res, hres, hsub⟩ := takeMatching_ok getURL (hthen cs mem_cons_self) url l
    have hcs := hpos cs mem_cons_self
    have hrest : 0 ≤ (sets.map (·.subSetWeight)).sum := by
      refine List.sum_nonneg fun w hw => ?_
      obtain ⟨q, hq, rfl⟩ := mem_map.1 hw
      exact (hpos q (mem_cons_of_mem cs hq)).le
    rw [map_cons, sum_cons] at hsum
    have hnonneg := h.sum_nonneg
    have hthen' := fun q hq => hthen q (mem_cons_of_mem cs hq)
    have hpos' := fun q hq => hpos q (mem_cons_of_mem cs hq)
    rw [collectDests, hres]
    simp only [bind, Except.bind]
    split_ifs
    · refine ih hthen' hpos' (h.addDest hcs (by omega) _ hsub) ?_
      unfold DestSets.addDest
      dsimp only
      rw [int64_of_bounds (by omega) (by omega)]
      omega
    · exact ih hthen' hpos' h (by omega)

theorem pickDest_mem {sum : ℤ} {l : List (Destination ι)} {d : Destination ι}
    (h : pickDest sum l = some d) : d ∈ l := by
  induction l generalizing sum with
  | nil => cases h
  | cons x l ih =>
    unfold pickDest at h
    dsimp only at h
    split_ifs at h
    · obtain rfl := some.inj h
      exact mem_cons_self
    · exact mem_cons_of_mem x (ih h)

theorem randDest_ok (h : DestsOf l dests) (draw : ℕ) :
    ∃ o, dests.randDest draw = .ok o ∧ ∀ d ∈ o, d ∈ dests.destinations := by
  have hnonneg := h.sum_nonneg
  unfold DestSets.randDest
  by_cases hzero : dests.weightSum = 0
  · rw [if_pos hzero]
    exact ⟨none, rfl, fun d hd => by cases hd⟩
  · rw [if_neg hzero]
    split
    · rename_i d hd
      refine ⟨some d, rfl, fun q hq => ?_⟩
      obtain rfl := some.inj hq
      rw [hd]
      exact mem_cons_self
    · rw [if_neg (by omega)]
      exact ⟨_, rfl, fun d hd => pickDest_mem hd⟩

/-- The two invocations differ in their attributes at most, and both have a map of them or none. -/
structure SameRequest (a b : RPCInvocation) : Prop where
  methodName : b.methodName = a.methodName
  arguments : b.arguments = a.arguments
  attachments : b.attachments = a.attachments
  attributes : b.attributes.isSome = a.attributes.isSome

theorem SameRequest.refl (a : RPCInvocation) : SameRequest a a := ⟨rfl, rfl, rfl, rfl⟩

theorem SameRequest.trans {c : RPCInvocation} (h : SameRequest a b) (h' : SameRequest b c) : SameRequest a c :=
  ⟨h'.methodName.trans h.methodName, h'.arguments.trans h.arguments,
    h'.attachments.trans h.attachments, h'.attributes.trans h.attributes⟩

theorem SafeRequest.congr (h : SafeRequest a conditions) (hab : SameRequest a b) : SafeRequest b conditions := by
  intro m hm
  unfold Matcher.SafeWhen
  rw [hab.arguments]
  exact h m hm

theorem assignAttribute_ok (h : invocation.attributes.isSome = true) (key : Str) (value : Attribute) :
    ∃ invocation', invocation.assignAttribute key value = .ok invocation' ∧ SameRequest invocation invocation' := by
  obtain ⟨m, hm⟩ := isSome_iff_exists.1 h
  unfold RPCInvocation.assignAttribute
  rw [hm]
  exact ⟨_, rfl, ⟨rfl, rfl, rfl, by rw [hm]; rfl⟩⟩

structure MultiDestRouter.SafeFor (invocation : RPCInvocation) (r : MultiDestRouter) : Prop where
  request : SafeRequest invocation r.whenCondition.conditions
  provider : ∀ cs ∈ r.thenCondition, SafeProvider cs.matcher.conditions
  weights : (r.thenCondition.map (·.subSetWeight)).sum < 2 ^ 63

theorem MultiDestRouter.SafeFor.congr (h : r.SafeFor a) (hab : SameRequest a b) : r.SafeFor b :=
  ⟨h.request.congr hab, h.provider, h.weights⟩

theorem MultiDestRouter.route_ok (hsafe : r.SafeFor invocation)
    (hpos : ∀ cs ∈ r.thenCondition, 0 < cs.subSetWeight) (hattr : invocation.attributes.isSome = true) (draw : ℕ)
    (l : List ι) (url : URL) : ∃ result isMatchWhen invocation', r.route getURL draw l url invocation =
      .ok (result, isMatchWhen, invocation') ∧ result.Sublist l ∧ SameRequest invocation invocation' := by
  obtain ⟨dests, hdests, hof⟩ := collectDests_ok getURL hsafe.provider hpos (l := l) url
    (⟨by simp, by simp, rfl⟩ : DestsOf l ⟨[], 0⟩) (by simpa using hsafe.weights)
  obtain ⟨o, ho, hmem⟩ := randDest_ok hof draw
  unfold MultiDestRouter.route
  rw [doMatch_request hsafe.request]
  simp only [bind, Except.bind, pure, Except.pure]
  split_ifs
  · exact ⟨l, false, invocation, rfl, List.Sublist.refl l, .refl _⟩
  · exact ⟨[], true, invocation, rfl, nil_sublist l, .refl _⟩
  · rw [hdests]
    simp only
    rw [ho]
    cases o with
    | some d =>
      obtain ⟨invocation', hinv, hsame⟩ := assignAttribute_ok hattr conditionChain _
      simp only
      rw [hinv]
      exact ⟨d.ivks, true, invocation', rfl, hof.sublist d (hmem d rfl), hsame⟩
    | none =>
      obtain ⟨invocation', hinv, hsame⟩ := assignAttribute_ok hattr conditionChain _
      rw [hinv]
      exact ⟨[], true, invocation', rfl, nil_sublist l, hsame⟩
  · exact ⟨l, false, invocation, rfl, List.Sublist.refl l, .refl _⟩

theorem sameRequest_delete (invocation : RPCInvocation) (key : Str) :
    SameRequest invocation (invocation.deleteAttribute key) :=
  ⟨rfl, rfl, rfl, by unfold RPCInvocation.deleteAttribute; exact isSome_map⟩

theorem routeDests_ok (hsafe : ∀ r ∈ routers, r.SafeFor invocation) (hpos : PositiveWeights routers)
    (hattr : invocation.attributes.isSome = true) (draws : ℕ → ℕ) (l : List ι) (url : URL) :
    ∃ result invocation', routeDests getURL draws url routers l invocation =
      .ok (result, invocation') ∧ result.Sublist l ∧ SameRequest invocation invocation' := by
  induction routers generalizing invocation draws l with
  | nil => exact ⟨l, _, rfl, List.Sublist.refl l, sameRequest_delete _ _⟩
  | cons r routers ih =>
    obtain ⟨l', isMatchWhen, invocation', hr, hsub, hsame⟩ :=
      MultiDestRouter.route_ok getURL (hsafe r mem_cons_self) (hpos r mem_cons_self) hattr (draws 0) l url
    obtain ⟨result, invocation'', hres, hsub', hsame'⟩ := ih
      (fun q hq => (hsafe q (mem_cons_of_mem r hq)).congr hsame)
      (fun q hq => hpos q (mem_cons_of_mem r hq)) (hsame.attributes.trans hattr)
      (fun n => draws (n + 1)) l'
    rw [routeDests, hr]
    simp only [bind, Except.bind, pure, Except.pure]
    split_ifs
    · exact ⟨[], invocation', rfl, nil_sublist l, hsame⟩
    · exact ⟨result, invocation'', hres, hsub'.trans hsub, hsame.trans hsame'⟩

theorem anyDisabled_ok {conds : List FieldMatcher} (h : ∀ c ∈ conds, SafeRequest invocation c.conditions)
    (url : URL) : ∃ b, anyDisabled url invocation conds = .ok b ∧ (b = true →
      ∃ c ∈ conds, doMatch url none (some invocation) true c.conditions = .ok true) := by
  induction conds with
  | nil => exact ⟨false, rfl, fun h => by cases h⟩
  | cons c conds ih =>
    have hc := doMatch_request (h c mem_cons_self) url
    obtain ⟨b, hb, hmatch⟩ := ih fun q hq => h q (mem_cons_of_mem c hq)
    rw [anyDisabled, hc]
    simp only [bind, Except.bind, pure, Except.pure]
    split_ifs with hall
    · exact ⟨true, rfl, fun _ => ⟨c, mem_cons_self, by rw [hc, hall]⟩⟩
    · refine ⟨b, hb, fun hb => ?_⟩
      obtain ⟨q, hq, hmatch⟩ := hmatch hb
      exact ⟨q, mem_cons_of_mem c hq, hmatch⟩

/-- On this request the rule cannot panic: no condition on the request reads the argument just after the last one,
none on providers reads the invocation, the weights of the destinations do not overflow, and the invocation has
attributes if routes are kept in them. -/
def CondRouter.SafeFor (invocation : RPCInvocation) : CondRouter → Prop
  | .stateRouters routers =>
    ∀ r ∈ routers, SafeRequest invocation r.whenCondition ∧ SafeProvider r.thenCondition
  | .multiply (some m) =>
    (∀ c ∈ m.trafficDisabled, SafeRequest invocation c.conditions) ∧
      (∀ r ∈ m.routes, r.SafeFor invocation) ∧
      (m.routes ≠ [] → invocation.attributes.isSome = true)
  | .multiply none => True

def DynamicRouter.TrafficDisabled (d : DynamicRouter) (url : URL) (invocation : RPCInvocation) : Prop :=
  ∃ m, d.conditionRouter = some (.multiply (some m)) ∧ ∃ c ∈ m.trafficDisabled,
    doMatch url none (some invocation) true c.conditions = .ok true

theorem CondRouter.route_ok {cr : CondRouter} (hcr : d.conditionRouter = some cr) (hen : d.enable = true)
    (hok : RuleOk d.enable d.conditionRouter) (hsafe : cr.SafeFor invocation) (draws : ℕ → ℕ) (l : List ι)
    (url : URL) : ∃ result invocation', cr.route getURL draws l url invocation = .ok (result, invocation') ∧
      result.Sublist l ∧ (invocation'.attachments = invocation.attachments ∨ d.TrafficDisabled url invocation) := by
  rw [hcr] at hok
  match cr with
  | .stateRouters routers =>
    obtain ⟨result, hres, hsub⟩ := routeStates_ok getURL hsafe l url
    refine ⟨result, invocation, ?_, hsub, .inl rfl⟩
    rw [CondRouter.route, hres]
    rfl
  | .multiply none =>
    rw [hen] at hok
    cases hok
  | .multiply (some m) =>
    obtain ⟨hdis, hroutes, hattr⟩ := hsafe
    obtain ⟨b, hb, hmatch⟩ := anyDisabled_ok hdis url
    rw [CondRouter.route, MultiplyConditionRoute.route, hb]
    simp only [bind, Except.bind, pure, Except.pure]
    split_ifs with hdisabled hne
    · exact ⟨[], _, rfl, nil_sublist l, .inr ⟨m, hcr, hmatch hdisabled⟩⟩
    · have hne' : m.routes ≠ [] := fun h => hne.2 (by rw [h]; rfl)
      obtain ⟨result, invocation', hres, hsub, hsame⟩ :=
        routeDests_ok getURL hroutes hok (hattr hne') draws l url
      exact ⟨result, invocation', hres, hsub, .inl hsame.attachments⟩
    · exact ⟨l, invocation, rfl, List.Sublist.refl l, .inl rfl⟩

/-- Without a forced rule, a request on which the rule cannot panic gets invokers of the list in their order, for all
draws, and at least one unless a condition that disables traffic matches it. -/
theorem route_keeps_invokers {yaml : Yaml} {d : DynamicRouter}
    (h : Reachable (· = DynamicRouter.new) (Step yaml) d) (hforce : d.force = false) {l : List ι}
    (hl : l ≠ []) (url : URL) {invocation : RPCInvocation} (hmark : invocation.attachments trafficDisableKey = none)
    (hsafe : ∀ cr ∈ d.conditionRouter, cr.SafeFor invocation) (draws : ℕ → ℕ) :
    ∃ result invocation', d.route getURL draws l url invocation = .ok (result, invocation') ∧
      result.Sublist l ∧ (result = [] → d.TrafficDisabled url invocation) := by
  have hself : ∃ result invocation', (.ok (l, invocation) : Except RuntimeError _) =
      .ok (result, invocation') ∧ result.Sublist l ∧
      (result = [] → d.TrafficDisabled url invocation) :=
    ⟨l, invocation, rfl, List.Sublist.refl l, fun h => absurd h hl⟩
  unfold DynamicRouter.route
  split_ifs with hen
  · exact hself
  · obtain ⟨-, hen⟩ := not_or.1 hen
    cases hcr : d.conditionRouter with
    | none => exact hself
    | some cr =>
      obtain ⟨result, invocation', hres, hsub, hatt⟩ := CondRouter.route_ok getURL hcr
        (Bool.eq_true_of_not_eq_false hen) (reachable_ruleOk h) (hsafe cr hcr) draws l url
      simp only [bind, Except.bind, pure, Except.pure]
      rw [hres]
      simp only
      split_ifs with hempty
      · exact ⟨l, invocation', rfl, List.Sublist.refl l, fun h => absurd h hl⟩
      · refine ⟨result, invocation', rfl, hsub, fun hnil => hatt.resolve_left fun hsame => ?_⟩
        exact hempty ⟨by rw [hnil]; rfl, by rw [hsame]; exact hmark, hforce⟩

/-! ## A rule about the first argument -/

/-- The rule `arguments[0]=a => host=1.1.1.1`, not forced. -/
def argumentRule : ConditionsConfig :=
  ⟨none, none, [str "arguments[0]=a => host=1.1.1.1"]⟩

def noYaml : Yaml := ⟨fun _ => none, fun _ => none, fun _ => none⟩

theorem reachable_argumentRule : Reachable (· = DynamicRouter.new) (Step noYaml)
      (DynamicRouter.new.setStaticConfig (some argumentRule)) :=
  .step (.init rfl) (.setStaticConfig _ _)

theorem setStaticConfig_argumentRule :
    DynamicRouter.new.setStaticConfig (some argumentRule) =
      ⟨false, true, some (.stateRouters [⟨[⟨.argument, str "arguments[0]", [str "a"], []⟩],
        [⟨.param, str "host", [str "1.1.1.1"], []⟩]⟩])⟩ := by
  have hparse : newConditionStateRouter (str "arguments[0]=a => host=1.1.1.1") =
      .ok ⟨[⟨.argument, str "arguments[0]", [str "a"], []⟩],
        [⟨.param, str "host", [str "1.1.1.1"], []⟩]⟩ := by decide +kernel
  simp [DynamicRouter.setStaticConfig, argumentRule, hparse, Except.toOption]

/-- A request without arguments passes the check of the index 0, and the router panics instead of
returning invokers. -/
theorem argument_index_panics :
    ∃ d, Reachable (· = DynamicRouter.new) (Step noYaml) d ∧ d.force = false ∧
      d.route (fun _ : Unit => URL.ofProvider (str "1.1.1.1") (str "20000")) (fun _ => 0) [()]
        (URL.ofProvider [] []) (.new (str "hello") [] fun _ => none) =
        .error .indexOutOfRange := by
  refine ⟨_, reachable_argumentRule, ?_, ?_⟩
  · rw [setStaticConfig_argumentRule]
  · rfl

/-- A request with one argument is routed by the same rule. -/
theorem argument_rule_keeps_invokers : ∃ d, Reachable (· = DynamicRouter.new) (Step noYaml) d ∧
    ∃ result invocation', d.route (fun _ : Unit => URL.ofProvider (str "1.1.1.1") (str "20000"))
        (fun _ => 0) [()] (URL.ofProvider [] []) (.new (str "hello") [str "a"] fun _ => none) =
        .ok (result, invocation') ∧ result.Sublist [()] ∧
      (result = [] → d.TrafficDisabled (URL.ofProvider [] [])
        (.new (str "hello") [str "a"] fun _ => none)) := by
  refine ⟨_, reachable_argumentRule, route_keeps_invokers _ reachable_argumentRule ?_ (by simp) _ rfl ?_ _⟩
  · rw [setStaticConfig_argumentRule]
  · rintro cr hcr
    obtain rfl := some.inj hcr
    intro r hr
    obtain rfl := mem_singleton.1 hr
    refine ⟨fun m hm => ?_, fun m hm => ?_⟩
    · obtain rfl := mem_singleton.1 hm
      intro _
      decide +kernel
    · obtain rfl := mem_singleton.1 hm
      constructor
      · intro h
        cases h
      · intro h
        cases h

/-! ## State routers without a panic -/

/-- The order that visits a matcher first. -/
def visitFirst (m : Matcher) (conditions : List Matcher) : List Matcher :=
  if m ∈ conditions then m :: conditions.erase m else conditions

theorem visitFirst_perm (m : Matcher) (conditions : List Matcher) : (visitFirst m conditions).Perm conditions := by
  unfold visitFirst
  split_ifs with hm
  · exact (perm_cons_erase hm).symm
  · exact .refl _

theorem doMatch_visitFirst {m : Matcher} (inv : Option RPCInvocation) (hm : m ∈ conditions) (h : ¬m.Safe inv)
    (url : URL) (param : Option URL) (isWhen : Bool) :
    ∃ e, doMatch url param inv isWhen (visitFirst m conditions) = .error e := by
  obtain ⟨e, he⟩ := Matcher.satisfies_of_not_safe h url param isWhen
  exact ⟨e, by simp [visitFirst, hm, doMatch, he, bind, Except.bind]⟩

/-- A router returns for all orders in which the maps are visited exactly if there are no invokers, or no matcher reads
the argument just after the last one and, where the request matches, the side of the providers reads neither
arguments nor attachments. -/
theorem stateRouter_returns (s : StateRouter) (invocation : RPCInvocation) (l : List ι) (url : URL) :
    (∀ σ : List Matcher → List Matcher, (∀ conditions, (σ conditions).Perm conditions) →
      ∃ result, (s.reorder σ).route getURL l url invocation = .ok result) ↔
      l = [] ∨ SafeRequest invocation s.whenCondition ∧
        ((s.whenCondition.all fun m => m.holds url none (some invocation) true) = true →
          SafeProvider s.thenCondition) := by
  cases l with
  | nil => exact iff_of_true (fun _ _ => ⟨[], rfl⟩) (.inl rfl)
  | cons i l =>
    simp only [reduceCtorEq, false_or]
    constructor
    · intro hreturns
      have hwhen : SafeRequest invocation s.whenCondition := by
        by_contra hunsafe
        simp only [SafeRequest, not_forall] at hunsafe
        obtain ⟨m, hm, hunsafe⟩ := hunsafe
        obtain ⟨result, hresult⟩ := hreturns (visitFirst m) (visitFirst_perm m)
        obtain ⟨e, he⟩ := doMatch_visitFirst (some invocation) hm hunsafe url none true
        simp [StateRouter.route, StateRouter.reorder, he, bind, Except.bind] at hresult
      refine ⟨hwhen, fun hmatches => ?_⟩
      by_contra hunsafe
      simp only [SafeProvider, not_forall] at hunsafe
      obtain ⟨m, hm, hunsafe⟩ := hunsafe
      have hperm := visitFirst_perm m
      obtain ⟨result, hresult⟩ := hreturns (visitFirst m) hperm
      obtain ⟨e, he⟩ := doMatch_visitFirst none hm hunsafe (getURL i) (some url) false
      have hrequest : doMatch url none (some invocation) true (visitFirst m s.whenCondition) = .ok true := by
        rw [doMatch_request fun q hq => hwhen q ((hperm _).mem_iff.1 hq), (hperm _).all_eq, hmatches]
      have hthen : s.thenCondition ≠ [] := ne_nil_of_mem hm
      have hlength : (visitFirst m s.thenCondition).length ≠ 0 := by
        rw [(hperm _).length_eq]
        simpa using hthen
      simp [StateRouter.route, StateRouter.reorder, hrequest, hlength, takeInvokers, he, bind, Except.bind] at hresult
    · rintro ⟨hwhen, hthen⟩ σ hσ
      have hrequest : doMatch url none (some invocation) true (σ s.whenCondition) =
          .ok (s.whenCondition.all fun m => m.holds url none (some invocation) true) := by
        rw [doMatch_request fun m hm => hwhen m ((hσ _).mem_iff.1 hm), (hσ _).all_eq]
      unfold StateRouter.route StateRouter.reorder
      rw [hrequest, if_neg (by simp)]
      cases hmatches : s.whenCondition.all fun m => m.holds url none (some invocation) true with
      | false => exact ⟨_, rfl⟩
      | true =>
        have hprovider : SafeProvider (σ s.thenCondition) := fun m hm => hthen hmatches m ((hσ _).mem_iff.1 hm)
        obtain ⟨result, hresult, -⟩ := takeMatching_ok getURL hprovider url (i :: l)
        simp only [bind, Except.bind, if_true]
        split_ifs
        · exact ⟨_, rfl⟩
        · exact ⟨result, hresult⟩

theorem stateRouter_returns_host :
    ∃ s result, newConditionStateRouter (str "host=a => host=b") = .ok s ∧
      s.route (fun _ : Unit => URL.ofProvider [] []) [()] (URL.ofProvider [] []) (.new [] [] fun _ => none) =
        .ok result := by
  have hparse : newConditionStateRouter (str "host=a => host=b") =
      .ok ⟨[⟨.param, str "host", [str "a"], []⟩], [⟨.param, str "host", [str "b"], []⟩]⟩ := by decide +kernel
  have hwhen : SafeRequest (.new [] [] fun _ => none) [⟨.param, str "host", [str "a"], []⟩] := by
    simp [SafeRequest, Matcher.SafeWhen]
  have hthen : SafeProvider [⟨.param, str "host", [str "b"], []⟩] := by simp [SafeProvider, Matcher.SafeThen]
  obtain ⟨result, hresult⟩ := (stateRouter_returns (fun _ : Unit => URL.ofProvider [] [])
    ⟨[⟨.param, str "host", [str "a"], []⟩], [⟨.param, str "host", [str "b"], []⟩]⟩ _ [()] _).2
    (.inr ⟨hwhen, fun _ => hthen⟩) id fun _ => .refl _
  exact ⟨_, result, hparse, hresult⟩

/-- The rules `arguments[0]=a` and `=> arguments[0]=a`, for a request without arguments. -/
theorem stateRouter_panics :
    (∃ s, newConditionStateRouter (str "arguments[0]=a => host=b") = .ok s ∧
        s.route (fun _ : Unit => URL.ofProvider [] []) [()] (URL.ofProvider [] []) (.new [] [] fun _ => none) =
          .error .indexOutOfRange) ∧
      ∃ s, newConditionStateRouter (str "=> attachments[a]=b") = .ok s ∧
        s.route (fun _ : Unit => URL.ofProvider [] []) [()] (URL.ofProvider [] []) (.new [] [] fun _ => none) =
          .error .nilPointer := by
  have hargument : newConditionStateRouter (str "arguments[0]=a => host=b") =
      .ok ⟨[⟨.argument, str "arguments[0]", [str "a"], []⟩], [⟨.param, str "host", [str "b"], []⟩]⟩ := by
    decide +kernel
  have hattachment : newConditionStateRouter (str "=> attachments[a]=b") =
      .ok ⟨[], [⟨.attachment, str "attachments[a]", [str "b"], []⟩]⟩ := by decide +kernel
  exact ⟨⟨_, hargument, rfl⟩, _, hattachment, rfl⟩

/-! ## Shares of destinations -/

def DestSets.addAll (dests : List (Destination ι)) : DestSets ι :=
  dests.foldl (fun s d => s.addDest d.weight d.matchRule d.ivks) ⟨[], 0⟩

/-- The weights of destinations, where all are positive. -/
def weightsOf (dests : List (Destination ι)) : List ℕ := dests.map fun d => d.weight.toNat

theorem addAll_eq {dests : List (Destination ι)} (hpos : ∀ d ∈ dests, 0 < d.weight)
    (hfits : (weightsOf dests).sum < 2 ^ 63) : DestSets.addAll dests = ⟨dests, (weightsOf dests).sum⟩ := by
  induction dests using reverseRecOn with
  | nil => rfl
  | append_singleton dests d ih =>
    have hd := hpos d (by simp)
    rw [weightsOf, map_append, sum_append, map_singleton, sum_singleton, ← weightsOf] at hfits ⊢
    have hadd : int64 ((weightsOf dests).sum + d.weight) = ((weightsOf dests).sum + d.weight.toNat : ℕ) := by
      rw [int64_of_bounds (by omega) (by omega)]
      omega
    unfold DestSets.addAll at ih ⊢
    rw [foldl_append, ih (fun q hq => hpos q (by simp [hq])) (by omega)]
    simp only [foldl_cons, foldl_nil, DestSets.addDest, hadd]

theorem pickDest_eq {dests : List (Destination ι)} (h : ∀ d ∈ dests, 0 < d.weight ∧ d.weight < 2 ^ 63) {sum : ℕ}
    (hsum : sum < 2 ^ 63) : pickDest sum dests = (slot (weightsOf dests) (sum - 1)).bind (dests[·]?) := by
  induction dests generalizing sum with
  | nil => rfl
  | cons d dests ih =>
    obtain ⟨hpos, hlt⟩ := h d mem_cons_self
    simp only [pickDest, weightsOf, map_cons, slot]
    rw [int64_of_bounds (by omega) (by omega)]
    by_cases hle : (sum : ℤ) - d.weight ≤ 0
    · rw [if_pos hle, if_pos (by omega)]
      rfl
    · have hsub : (sum : ℤ) - d.weight = (sum - d.weight.toNat : ℕ) := by omega
      have hcomm : sum - 1 - d.weight.toNat = sum - d.weight.toNat - 1 := by omega
      rw [if_neg hle, if_neg (by omega), hsub, ih (fun q hq => h q (mem_cons_of_mem d hq)) (by omega), hcomm]
      unfold weightsOf
      cases slot _ (sum - d.weight.toNat - 1) <;> rfl

/-- The first destination has a draw more than its weight is, the last one a draw less. -/
theorem card_draws {ws : List ℕ} (hpos : ∀ x ∈ ws, 0 < x) (hmany : 2 ≤ ws.length) {i : ℕ} (h : i < ws.length) :
    ((Finset.range ws.sum).filter fun draw => slot ws (draw - 1) = some i).card =
      if i = 0 then ws[i] + 1 else if i + 1 < ws.length then ws[i] else ws[i] - 1 := by
  have hsucc := sum_take_succ ws i h
  have hweight := hpos _ (getElem_mem h)
  have hrest : i + 1 < ws.length → (ws.take (i + 1)).sum < ws.sum := by
    intro hlt
    have hnext := sum_take_succ ws (i + 1) hlt
    have hle := sum_take_succ_le ws (i + 1)
    have hw := hpos _ (getElem_mem hlt)
    omega
  have hfirst : 0 < i → 0 < (ws.take i).sum := by
    intro hi
    obtain ⟨k, rfl⟩ : ∃ k, i = k + 1 := ⟨i - 1, by omega⟩
    have hbefore := sum_take_succ ws k (by omega)
    have hw := hpos _ (getElem_mem (show k < ws.length by omega))
    omega
  split_ifs with hzero hlt
  · subst hzero
    have hle := hrest (by omega)
    simp only [take_zero, sum_nil, zero_add] at hsucc hle
    rw [card_filter_range (a := 0) (b := ws[0] + 1) _ ?_ (by omega), Nat.sub_zero]
    intro draw _
    rw [slot_eq_some_iff]
    simp only [take_zero, sum_nil, zero_add]
    omega
  · have hi := hfirst (by omega)
    have hle := hrest hlt
    rw [card_filter_range (a := (ws.take i).sum + 1) (b := (ws.take (i + 1)).sum + 1) _ ?_ hle]
    · omega
    · intro draw _
      rw [slot_eq_some_iff]
      omega
  · have hi := hfirst (by omega)
    have hall : (ws.take (i + 1)).sum = ws.sum := by rw [take_of_length_le (by omega)]
    rw [card_filter_range (a := (ws.take i).sum + 1) (b := ws.sum) _ ?_ le_rfl]
    · omega
    · intro draw hdraw
      rw [slot_eq_some_iff]
      omega

/-- Every draw gives a destination, at the slot of the number before the draw, and a destination has as many draws as
its weight is exactly if it is neither the first nor the last one. -/
theorem randDest_share {dests : List (Destination ι)} (hpos : ∀ d ∈ dests, 0 < d.weight)
    (hfits : (weightsOf dests).sum < 2 ^ 63) (hmany : 2 ≤ dests.length) :
    (∀ draw < (weightsOf dests).sum, ∃ i, ∃ h : i < dests.length, slot (weightsOf dests) (draw - 1) = some i ∧
        (DestSets.addAll dests).randDest draw = .ok (some dests[i])) ∧ ∀ i, (h : i < dests.length) →
        (((Finset.range (weightsOf dests).sum).filter fun draw =>
          slot (weightsOf dests) (draw - 1) = some i).card = dests[i].weight ↔ 0 < i ∧ i + 1 < dests.length) := by
  have hlength : (weightsOf dests).length = dests.length := length_map ..
  refine ⟨fun draw hdraw => ?_, fun i h => ?_⟩
  · obtain ⟨i, hi⟩ := ne_none_iff_exists'.1 fun hnone : slot (weightsOf dests) (draw - 1) = none =>
      absurd (slot_eq_none_iff.1 hnone) (by omega)
    have hlt : i < dests.length := hlength ▸ lt_length_of_slot hi
    have hbound : ∀ d ∈ dests, 0 < d.weight ∧ d.weight < 2 ^ 63 := by
      intro d hd
      have hle := single_le_sum (fun _ _ => Nat.zero_le _) _ (mem_map_of_mem (f := fun d => d.weight.toNat) hd)
      have hd' := hpos d hd
      unfold weightsOf at hfits
      omega
    refine ⟨i, hlt, hi, ?_⟩
    rw [addAll_eq hpos hfits, DestSets.randDest, if_neg (by dsimp only; omega)]
    dsimp only
    split
    · simp at hmany
    · rw [if_neg (by omega), Int.emod_eq_of_lt (by omega) (by omega), pickDest_eq hbound (by omega), hi,
        bind_some, getElem?_eq_getElem hlt]
  · have hwpos : ∀ x ∈ weightsOf dests, 0 < x := by
      intro x hx
      obtain ⟨d, hd, rfl⟩ := mem_map.1 hx
      have hd' := hpos d hd
      omega
    have hi : i < (weightsOf dests).length := by omega
    have hget : (weightsOf dests)[i] = dests[i].weight.toNat := by simp [weightsOf]
    have hd := hpos _ (getElem_mem h)
    rw [card_draws hwpos (by omega) hi, hget, hlength]
    split_ifs <;> omega

/-- Of destinations of weights 1, 2 and 3, the second one has its two draws. -/
theorem randDest_share_three :
    let dests : List (Destination Unit) := [⟨str "a", 1, []⟩, ⟨str "b", 2, []⟩, ⟨str "c", 3, []⟩]
    ((Finset.range 6).filter fun draw => slot [1, 2, 3] (draw - 1) = some 1).card = (2 : ℤ) ∧
      ∀ draw ∈ [2, 3], ∃ i, ∃ h : i < dests.length, slot [1, 2, 3] (draw - 1) = some i ∧
        (DestSets.addAll dests).randDest draw = .ok (some dests[i]) := by
  intro dests
  have hpos : ∀ d ∈ dests, 0 < d.weight := by decide
  obtain ⟨hdraws, hshare⟩ := randDest_share hpos (by decide) (by decide)
  refine ⟨(hshare 1 (by decide)).2 (by decide), fun draw hdraw => hdraws draw ?_⟩
  fin_cases hdraw <;> decide

/-- Of two destinations of weight 1, the first one has both draws. -/
theorem first_dest_gains_a_draw :
    (DestSets.addAll [⟨str "a", 1, [()]⟩, ⟨str "b", 1, [()]⟩]).randDest 0 = .ok (some ⟨str "a", 1, [()]⟩) ∧
      (DestSets.addAll [⟨str "a", 1, [()]⟩, ⟨str "b", 1, [()]⟩]).randDest 1 = .ok (some ⟨str "a", 1, [()]⟩) :=
  ⟨rfl, rfl⟩

/-! ## Pushed configurations -/

section Process

variable {yaml : Yaml} {rawConfig : Str} {d : DynamicRouter}

/-- What `Process` may leave of a rule text: no router; a nil one that is switched off, as the text says; or the
router of all its rules. -/
inductive Leaves (yaml : Yaml) (rawConfig : Str) (d : DynamicRouter) : DynamicRouter → Prop where
  | refused : Leaves yaml rawConfig d { d with conditionRouter := none }
  | disabledStates (cfg : ConditionsConfig) (hcfg : yaml.routerConfig rawConfig = some cfg)
      (henabled : cfg.enabled.getD true = false) : Leaves yaml rawConfig d ⟨false, false, some (.stateRouters [])⟩
  | disabledMultiply (cfg : MultiConfig) (hcfg : yaml.conditionRouter rawConfig = some cfg)
      (henabled : cfg.enabled = false) : Leaves yaml rawConfig d ⟨false, false, some (.multiply none)⟩
  | states (cfg : ConditionsConfig) (routers : List StateRouter) (hcfg : yaml.routerConfig rawConfig = some cfg)
      (hrouters : cfg.conditions.mapM newConditionStateRouter = .ok routers) :
      Leaves yaml rawConfig d ⟨cfg.force.getD false, cfg.enabled.getD true, some (.stateRouters routers)⟩
  | multiply (cfg : MultiConfig) (routers : List MultiDestRouter) (hcfg : yaml.conditionRouter rawConfig = some cfg)
      (hrouters : newMultiDestRouters (removeDuplicates [] cfg.conditions) = .ok routers) :
      Leaves yaml rawConfig d ⟨cfg.force, cfg.enabled, some (.multiply (some
        { trafficDisabled := (routers.filter fun r => r.thenCondition.length = 0).map (·.whenCondition)
          routes := routers.filter fun r => r.thenCondition.length ≠ 0 }))⟩

def install (d : DynamicRouter) : Generated → DynamicRouter
  | none => { d with conditionRouter := none }
  | some (rc, force, enable) => ⟨force, enable, some rc⟩

/-- The text is read in the shape of the versions before 3.1. -/
def ReadOld (yaml : Yaml) (rawConfig : Str) : Prop :=
  ∃ version v, yaml.configVersion rawConfig = some (.text version) ∧ parseVersion version = some v ∧
    compareVersions v v31 = .lt

theorem leaves_conditionsRoute (hcfg : ∀ cfg, yaml.routerConfig rawConfig = some cfg →
      cfg.force.isSome = true ∧ cfg.enabled.isSome = true) (d : DynamicRouter) :
    ∃ generated, generateConditionsRoute yaml rawConfig = .ok generated ∧
      Leaves yaml rawConfig d (install d generated) := by
  unfold generateConditionsRoute
  cases h : yaml.routerConfig rawConfig with
  | none => exact ⟨none, rfl, .refused⟩
  | some cfg =>
    obtain ⟨hforce, henabled⟩ := hcfg cfg h
    obtain ⟨force, hforce⟩ := Option.isSome_iff_exists.1 hforce
    obtain ⟨enabled, henabled⟩ := Option.isSome_iff_exists.1 henabled
    simp only [hforce, henabled]
    cases enabled with
    | false => exact ⟨_, rfl, .disabledStates cfg h (by rw [henabled]; rfl)⟩
    | true =>
      cases hrouters : cfg.conditions.mapM newConditionStateRouter with
      | error e => exact ⟨none, rfl, .refused⟩
      | ok routers =>
        have hleaves := Leaves.states (d := d) cfg routers h hrouters
        rw [hforce, henabled] at hleaves
        exact ⟨_, rfl, hleaves⟩

theorem leaves_multiConditionRoute (d : DynamicRouter) :
    Leaves yaml rawConfig d (install d (generateMultiConditionRoute yaml rawConfig)) := by
  unfold generateMultiConditionRoute
  cases h : yaml.conditionRouter rawConfig with
  | none => exact .refused
  | some cfg =>
    cases henabled : cfg.enabled with
    | false =>
      simp only [henabled, if_true]
      exact .disabledMultiply cfg h henabled
    | true =>
      simp only [henabled, Bool.true_eq_false, if_false]
      cases hrouters : newMultiDestRouters (removeDuplicates [] cfg.conditions) with
      | error e => exact .refused
      | ok routers =>
        have hleaves := Leaves.multiply (d := d) cfg routers h hrouters
        rw [henabled] at hleaves
        exact hleaves

/-- A text is applied or refused exactly if it has both flags or is not read in the shape before version 3.1. -/
theorem process_applies (d : DynamicRouter) :
    (∃ d', d.process yaml (.value rawConfig) = .ok d' ∧ Leaves yaml rawConfig d d') ↔
      (ReadOld yaml rawConfig → ∀ cfg, yaml.routerConfig rawConfig = some cfg →
        cfg.force.isSome = true ∧ cfg.enabled.isSome = true) := by
  constructor
  · rintro ⟨d', hprocess, -⟩ ⟨version, v, hversion, hv, hold⟩ cfg hcfg
    simp only [DynamicRouter.process, generateCondition, hversion, hv, hold, if_true, generateConditionsRoute,
      hcfg] at hprocess
    -- with a flag missing a nil pointer is dereferenced
    cases hforce : cfg.force <;> cases henabled : cfg.enabled <;> simp [hforce, henabled, bind, Except.bind] at hprocess ⊢
  · intro hflags
    have hgenerated : ∃ generated, generateCondition yaml rawConfig = .ok generated ∧
        Leaves yaml rawConfig d (install d generated) := by
      unfold generateCondition
      split
      · rename_i version hversion
        split
        · exact ⟨none, rfl, .refused⟩
        · rename_i v hv
          split_ifs with hold
          · exact leaves_conditionsRoute (hflags ⟨version, v, hversion, hv, hold⟩) d
          · exact ⟨_, rfl, leaves_multiConditionRoute d⟩
      · exact ⟨none, rfl, .refused⟩
    obtain ⟨generated, hgenerate, hleaves⟩ := hgenerated
    refine ⟨_, ?_, hleaves⟩
    dsimp only [DynamicRouter.process]
    rw [hgenerate]
    cases generated <;> rfl

end Process

/-- Every text is read as one rule, for version 3.0. -/
def oneRule (force : Option Bool) : Yaml :=
  ⟨fun _ => some (.text (str "v3.0")), fun _ => some ⟨force, some true, [str "=> host = 10.0.0.1"]⟩, fun _ => none⟩

theorem process_applies_rule : ∃ d', DynamicRouter.new.process (oneRule (some true)) (.value []) = .ok d' ∧
    Leaves (oneRule (some true)) [] DynamicRouter.new d' :=
  (process_applies DynamicRouter.new).2 (by rintro - cfg ⟨⟩; decide)

/-- Without `force` a nil pointer is used. -/
theorem process_panics : DynamicRouter.new.process (oneRule none) (.value []) = .error .nilPointer := by
  have hversion : parseVersion (str "v3.0") = some [3, 0] := by decide +kernel
  have hold : compareVersions [3, 0] v31 = .lt := by simp [compareVersions, v31]
  simp only [DynamicRouter.process, generateCondition, oneRule, hversion, hold, if_true]
  rfl

end DubboGo.Router.Condition
