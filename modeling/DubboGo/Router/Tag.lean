import DubboGo.Common.Match
import DubboGo.Protocol.Invocation

/-!
# The tag router

`cluster/router/tag`: the functions of `match.go` that evaluate a tag rule on a list of invokers, and
the part of `PriorityRouter.Route` that uses them.
-/

namespace DubboGo.Router.Tag

open Go Common Protocol

def tagKey : Str := str "dubbo.tag"
def forceUseTag : Str := str "dubbo.force.tag"
def applicationKey : Str := str "application"
def tagRouterRuleSuffix : Str := str ".tag-router"

/-- `global.Tag`.  The match rules are pointers, which an empty entry of a rule text leaves nil. -/
structure TagEntry where
  name : Str
  rules : List (Option ParamMatch)
  addresses : List Str

/-- `global.RouterConfig`, with the fields that the tag router reads. -/
structure RouterConfig where
  force : Option Bool
  enabled : Option Bool
  valid : Option Bool
  tags : List TagEntry

def RouterConfig.inForce (cfg : RouterConfig) : Bool :=
  cfg.enabled.getD true && cfg.valid.getD (decide (0 < cfg.tags.length))

structure Entry where
  addresses : List Str
  rules : List (Option ParamMatch)

variable {ι : Type} (matchString : Regexp) (getURL : ι → URL)

def tagOf (url : URL) : Str := url.getParam tagKey []

def requestedTag (url : URL) (invocation : RPCInvocation) : Str :=
  invocation.getAttachmentWithDefaultValue tagKey (tagOf url)

def requestIsForce (url : URL) (invocation : RPCInvocation) : Bool :=
  (parseBool (invocation.getAttachmentWithDefaultValue forceUseTag
    (url.getParam forceUseTag (str "false")))).getD false

/-- The loop of `getAddressPredicate`: some address is that of the invoker. -/
def addressed (addresses : List Str) (url : URL) : Bool :=
  addresses.any fun v => v = url.location ∨ v = anyHostValue ++ keySeparator ++ url.port

def getAddressPredicate (result : Bool) (addresses : List Str) (url : URL) : Bool :=
  if addressed addresses url then result else !result

/-- `filterInvokers`: remove the invokers with the predicate. -/
def filterInvokers (predicate : ι → Except RuntimeError Bool) : List ι → Except RuntimeError (List ι)
  | [] => .ok []
  | invoker :: rest => do
    let remove ← predicate invoker
    let result ← filterInvokers predicate rest
    return if remove then result else invoker :: result

/-- The predicate of `requestTag` for match rules: some rule does not match. -/
def mismatch : List (Option ParamMatch) → URL → Except RuntimeError Bool
  | [], _ => .ok false
  | none :: _, _ => .error .nilPointer
  | some m :: rest, url => if m.isMatch matchString url then mismatch rest url else .ok true

def staticTag (invokers : List ι) (url : URL) (invocation : RPCInvocation) : Except RuntimeError (List ι) := do
  let tag := requestedTag url invocation
  let result ←
    if tag ≠ [] then filterInvokers (fun i => .ok (decide (tagOf (getURL i) ≠ tag))) invokers
    else .ok []
  if (result.length = 0 ∧ ¬requestIsForce url invocation) ∨ tag = [] then
    filterInvokers (fun i => .ok (decide (tagOf (getURL i) ≠ []))) invokers
  else return result

/-- The body of the loop of `requestEmptyTag`. -/
def removeAddressed (result : List ι) (tagCfg : TagEntry) : Except RuntimeError (List ι) :=
  if tagCfg.addresses.length = 0 then .ok result
  else filterInvokers (fun i => .ok (getAddressPredicate true tagCfg.addresses (getURL i))) result

def requestEmptyTag (invokers : List ι) (cfg : RouterConfig) : Except RuntimeError (List ι) := do
  let result ← filterInvokers (fun i => .ok (decide (tagOf (getURL i) ≠ []))) invokers
  if result.length = 0 then return result
  cfg.tags.foldlM (removeAddressed getURL) result

/-- The entry that the loop of `requestTag` finds: the last one of the name. -/
def lastEntry (cfg : RouterConfig) (tag : Str) : Entry :=
  cfg.tags.foldl (fun e tagCfg => if tagCfg.name = tag then ⟨tagCfg.addresses, tagCfg.rules⟩ else e) ⟨[], []⟩

/-- The first stage of `requestTag`.  Only one of match rules and addresses takes effect. -/
def selectEntry (invokers : List ι) (entry : Entry) (tag : Str) : Except RuntimeError (List ι) :=
  if entry.rules.length ≠ 0 then
    filterInvokers (fun i => mismatch matchString entry.rules (getURL i)) invokers
  else if entry.addresses.length = 0 then
    filterInvokers (fun i => .ok (decide (tagOf (getURL i) ≠ tag))) invokers
  else
    filterInvokers (fun i => .ok (getAddressPredicate false entry.addresses (getURL i))) invokers

/-- The body of `requestTag` for the entry that its loop has found. -/
def requestEntry (invokers : List ι) (force : Bool) (entry : Entry) (tag : Str) : Except RuntimeError (List ι) := do
  let result ← selectEntry matchString getURL invokers entry tag
  if force then return result
  if result.length ≠ 0 then return result
  -- failover: the invokers without a tag
  let result ← filterInvokers (fun i => .ok (decide (tagOf (getURL i) ≠ []))) invokers
  if entry.addresses.length = 0 then return result
  filterInvokers (fun i => .ok (getAddressPredicate true entry.addresses (getURL i))) result

def isForced (url : URL) (invocation : RPCInvocation) (cfg : RouterConfig) : Bool :=
  cfg.force.getD false || requestIsForce url invocation

def requestTag (invokers : List ι) (url : URL) (invocation : RPCInvocation) (cfg : RouterConfig)
    (tag : Str) : Except RuntimeError (List ι) :=
  requestEntry matchString getURL invokers (isForced url invocation cfg) (lastEntry cfg tag) tag

def dynamicTag (invokers : List ι) (url : URL) (invocation : RPCInvocation) (cfg : RouterConfig) :
    Except RuntimeError (List ι) :=
  let tag := requestedTag url invocation
  if tag = [] then requestEmptyTag getURL invokers cfg
  else requestTag matchString getURL invokers url invocation cfg tag

/-- The stored rules of a `PriorityRouter`. -/
abbrev RouterConfigs := Str → Option RouterConfig

def ruleKey (url : URL) : Str := url.getParam applicationKey [] ++ tagRouterRuleSuffix

/-- The part of `PriorityRouter.Route` that does not use the cache. -/
def routeDirectly (routerConfigs : RouterConfigs) (invokers : List ι) (url : URL)
    (invocation : RPCInvocation) : Except RuntimeError (List ι) :=
  match invokers with
  | [] => .ok []
  | invoker :: _ =>
    match routerConfigs (ruleKey (getURL invoker)) with
    | none => staticTag getURL invokers url invocation
    | some cfg =>
      if cfg.inForce then dynamicTag matchString getURL invokers url invocation cfg
      else staticTag getURL invokers url invocation

/-! ## What an entry keeps -/

section Filter

variable {pred : ι → Except RuntimeError Bool} {l : List ι}

/-- A filter whose predicate never panics is a filter of the list. -/
theorem filterInvokers_ok {p : ι → Bool} (h : ∀ i ∈ l, pred i = .ok (p i)) :
    filterInvokers pred l = .ok (l.filter fun i => !p i) := by
  induction l with
  | nil => rfl
  | cons i l ih =>
    rw [filterInvokers, h i List.mem_cons_self, ih fun j hj => h j (List.mem_cons_of_mem i hj)]
    cases hp : p i <;> simp [hp, bind, Except.bind, pure, Except.pure]

theorem filterInvokers_error (h : ∃ i ∈ l, ∃ e, pred i = .error e) : ∃ e, filterInvokers pred l = .error e := by
  induction l with
  | nil =>
    obtain ⟨i, hi, -⟩ := h
    cases hi
  | cons i l ih =>
    rw [filterInvokers]
    cases hp : pred i with
    | error e => exact ⟨e, rfl⟩
    | ok b =>
      obtain ⟨j, hj, e, he⟩ := h
      rcases List.mem_cons.1 hj with rfl | hj
      · rw [hp] at he
        cases he
      · obtain ⟨e', he'⟩ := ih ⟨j, hj, e, he⟩
        exact ⟨e', by rw [he']; rfl⟩

end Filter

namespace Entry

variable (entry : Entry)

def Evaluates (url : URL) : Prop := ∃ b, mismatch matchString entry.rules url = .ok b

/-- The entry selects the URL for the tag, by its match rules, its addresses or the tag itself. -/
def selects (tag : Str) (url : URL) : Bool :=
  if entry.rules ≠ [] then (mismatch matchString entry.rules url).toOption = some false
  else if entry.addresses = [] then tagOf url = tag
  else addressed entry.addresses url

/-- The entry keeps the URL of a list: one that it selects or, if it selects none of the list and
the tag is not forced, one without a tag. -/
def keeps (force : Bool) (tag : Str) (urls : List URL) (url : URL) : Bool :=
  if force || urls.any (entry.selects matchString tag) then entry.selects matchString tag url
  else decide (tagOf url = []) && !addressed entry.addresses url

variable {entry}

theorem evaluates_of_no_rules (h : entry.rules = []) (url : URL) :
    entry.Evaluates matchString url := ⟨false, by rw [h]; rfl⟩

end Entry

/-- The tag filter keeps the invokers with the tag. -/
theorem filter_tagged (l : List ι) (tag : Str) : filterInvokers (fun i => .ok (decide (tagOf (getURL i) ≠ tag))) l =
      .ok (l.filter fun i => tagOf (getURL i) = tag) := by
  rw [filterInvokers_ok fun i _ => rfl]
  congr 2
  funext i
  simp

theorem filter_unaddressed (l : List ι) (addresses : List Str) :
    filterInvokers (fun i => .ok (getAddressPredicate true addresses (getURL i))) l =
      .ok (l.filter fun i => !addressed addresses (getURL i)) := by
  rw [filterInvokers_ok fun i _ => rfl]
  congr 2
  funext i
  cases h : addressed addresses (getURL i) <;> simp [getAddressPredicate, h]

variable {ent : Entry} {l : List ι}

theorem selectEntry_ok {tag : Str} (h : ∀ i ∈ l, ent.Evaluates matchString (getURL i)) :
    selectEntry matchString getURL l ent tag = .ok (l.filter fun i => ent.selects matchString tag (getURL i)) := by
  unfold selectEntry
  by_cases hr : ent.rules = []
  · rw [if_neg (by simp [hr])]
    by_cases ha : ent.addresses = []
    · rw [if_pos (by simp [ha]), filter_tagged]
      congr 2
      funext i
      simp [Entry.selects, hr, ha]
    · rw [if_neg (by simp [ha]), filterInvokers_ok fun i _ => rfl]
      congr 2
      funext i
      cases hi : addressed ent.addresses (getURL i) <;>
        simp [Entry.selects, getAddressPredicate, hr, ha, hi]
  · rw [if_pos (by simp [hr])]
    have hmis : ∀ i ∈ l, mismatch matchString ent.rules (getURL i) =
        .ok (!ent.selects matchString tag (getURL i)) := by
      intro i hi
      obtain ⟨b, hb⟩ := h i hi
      cases b <;> simp [Entry.selects, hr, hb, Except.toOption]
    rw [filterInvokers_ok hmis]
    simp

theorem requestEntry_ok (force : Bool) (tag : Str) (h : ∀ i ∈ l, ent.Evaluates matchString (getURL i)) :
    requestEntry matchString getURL l force ent tag =
      .ok (l.filter fun i => ent.keeps matchString force tag (l.map getURL) (getURL i)) := by
  unfold requestEntry
  rw [selectEntry_ok matchString getURL h]
  simp only [bind, Except.bind, pure, Except.pure]
  by_cases hsel : force = true ∨ (l.filter fun i => ent.selects matchString tag (getURL i)).length ≠ 0
  · -- the selected invokers are returned
    have hkeep : (force || (l.map getURL).any (ent.selects matchString tag)) = true := by
      simpa using hsel
    have heq : (fun i => ent.keeps matchString force tag (l.map getURL) (getURL i)) =
        fun i => ent.selects matchString tag (getURL i) := by
      funext i
      rw [Entry.keeps, if_pos hkeep]
    rw [heq]
    rcases hsel with hf | hne
    · rw [if_pos hf]
    · rw [if_pos hne, ite_self]
  · -- failover
    obtain ⟨hf, hnil⟩ := not_or.1 hsel
    have hkeep : ¬(force || (l.map getURL).any (ent.selects matchString tag)) = true := by
      simpa using hsel
    rw [if_neg hf, if_neg hnil, filter_tagged]
    simp only
    rw [filter_unaddressed, List.filter_filter]
    by_cases ha : ent.addresses = []
    · rw [if_pos (by simp [ha])]
      congr 2
      funext i
      rw [Entry.keeps, if_neg hkeep, ha]
      simp [addressed]
    · rw [if_neg (by simp [ha])]
      congr 2
      funext i
      rw [Entry.keeps, if_neg hkeep, Bool.and_comm]

theorem requestEntry_error (force : Bool) (tag : Str) (h : ¬∀ i ∈ l, ent.Evaluates matchString (getURL i)) :
    ∃ e, requestEntry matchString getURL l force ent tag = .error e := by
  push Not at h
  obtain ⟨i, hi, hev⟩ := h
  have hr : ent.rules ≠ [] := fun hr => hev (Entry.evaluates_of_no_rules matchString hr _)
  have hpanic : ∃ e, mismatch matchString ent.rules (getURL i) = .error e := by
    cases hm : mismatch matchString ent.rules (getURL i) with
    | error e => exact ⟨e, rfl⟩
    | ok b => exact absurd ⟨b, hm⟩ hev
  obtain ⟨e, he⟩ : ∃ e, filterInvokers (fun i => mismatch matchString ent.rules (getURL i)) l =
      .error e := filterInvokers_error ⟨i, hi, hpanic⟩
  refine ⟨e, ?_⟩
  unfold requestEntry selectEntry
  rw [if_pos (by simp [hr]), he]
  rfl

theorem staticTag_eq (l : List ι) (url : URL) (inv : RPCInvocation) :
    staticTag getURL l url inv =
      .ok (l.filter fun i => tagOf (getURL i) =
        if requestIsForce url inv = true ∨ (l.any fun i => tagOf (getURL i) = requestedTag url inv) = true
        then requestedTag url inv else []) := by
  unfold staticTag
  by_cases htag : requestedTag url inv = []
  · simp only [htag, ne_eq, not_true_eq_false, if_false, or_true, if_true, ite_self]
    exact filter_tagged getURL l []
  · simp only [ne_eq, htag, not_false_eq_true, if_true, or_false]
    have h := filter_tagged getURL l (requestedTag url inv)
    rw [h]
    simp only [bind, Except.bind, pure, Except.pure]
    by_cases hres : requestIsForce url inv = true ∨ (l.any fun i => tagOf (getURL i) = requestedTag url inv) = true
    · rw [if_pos hres, if_neg]
      rintro ⟨hlen, hforce⟩
      rw [List.length_eq_zero_iff, List.filter_eq_nil_iff] at hlen
      refine hres.elim hforce fun hany => ?_
      obtain ⟨i, hi, hp⟩ := List.any_eq_true.1 hany
      exact hlen i hi hp
    · obtain ⟨hforce, hany⟩ := not_or.1 hres
      rw [if_neg hres, if_pos]
      · exact filter_tagged getURL l []
      · refine ⟨?_, hforce⟩
        rw [List.length_eq_zero_iff, List.filter_eq_nil_iff]
        exact fun i hi hp => hany (List.any_eq_true.2 ⟨i, hi, hp⟩)

end DubboGo.Router.Tag
