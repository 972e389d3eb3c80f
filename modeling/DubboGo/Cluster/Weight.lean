import DubboGo.Common.Merge
import DubboGo.Go.Decimal

/-!
# Weights of invokers

`GetWeightAt` of `cluster/loadbalance/util.go`: the weight that a URL gives a method, reduced while
the provider warms up.
-/

namespace DubboGo.Cluster

open Go Common

def weightKey : Str := str "weight"
def registryKey : Str := str "registry"
def registryLabelKey : Str := str "label"
def warmupKey : Str := str "warmup"
def defaultWeight : ℤ := 100
def defaultWarmup : ℤ := 600

/-- The weight in the parameters of the URL, at the level of the method, of the service or of the
registry. -/
def configuredWeight (url : URL) (methodName : Str) : ℤ :=
  let weight := url.getMethodParamInt64 methodName weightKey (-1)
  let weight :=
    if weight < 0 ∧ url.getParamBool (registryKey ++ str "." ++ registryLabelKey) false then
      url.getParamInt (registryKey ++ str "." ++ weightKey) defaultWeight
    else weight
  if weight < 0 then defaultWeight else weight

/-- The quotient `uptime * weight / warm` as `float64` arithmetic gives it. -/
abbrev Quotient := (uptime weight warm : ℤ) → ℚ

/-- The weight of a provider that has been up for `uptime` seconds of `warm`. -/
def warmupWeight (quotient : Quotient) (uptime weight warm : ℤ) : ℤ :=
  let q := quotient uptime weight warm
  if q < 1 then 1 else if ⌊q⌋ ≤ weight then ⌊q⌋ else weight

def getWeightAt (quotient : Quotient) (url : URL) (methodName : Str) (now : ℤ) : ℤ :=
  let weight := configuredWeight url methodName
  let weight :=
    if 0 < weight then
      let ts := url.getParamInt remoteTimestampKey now
      let uptime := int64 (now - ts)
      if 0 < uptime then
        let warm := url.getParamInt warmupKey defaultWarmup
        if uptime < warm then warmupWeight quotient uptime weight warm else weight
      else weight
    else weight
  if weight < 0 then 0 else weight

theorem configuredWeight_nonneg (url : URL) (methodName : Str) : 0 ≤ configuredWeight url methodName := by
  unfold configuredWeight
  dsimp only
  split_ifs with h1 h2 h2
  · decide
  · exact not_lt.1 h2
  · decide
  · exact not_lt.1 h2

theorem getWeightAt_of_no_timestamp (quot : Quotient) {url : URL} (methodName : Str) (now : ℤ)
    (h : url.getParam remoteTimestampKey [] = []) :
    getWeightAt quot url methodName now = configuredWeight url methodName := by
  have hts : url.getParamInt remoteTimestampKey now = now := by
    unfold URL.getParamInt
    rw [h]
    rfl
  unfold getWeightAt
  dsimp only
  rw [hts, sub_self, if_neg (show ¬ 0 < int64 0 by decide), ite_self,
    if_neg (not_lt.2 (configuredWeight_nonneg url methodName))]

/-! ## Warming up -/

/-- A URL with a weight and nothing else. -/
def weightedURL (weight : ℕ) : URL :=
  { URL.ofProvider [] [] with params := fun key => if key = weightKey then some [decimal weight] else none }

theorem getWeightAt_weightedURL (quot : Quotient) {weight : ℕ} (h : weight < 2 ^ 63) (methodName : Str) (now : ℤ) :
    getWeightAt quot (weightedURL weight) methodName now = weight := by
  have hnone : (weightedURL weight).getMethodParamInt methodName weightKey (-2 ^ 63) = -2 ^ 63 := by
    rfl
  have hparam : (weightedURL weight).getParam weightKey [] = decimal weight := by
    simp [URL.getParam, Values.getParam, Values.get, weightedURL]
  have hneg : ¬(weight : ℤ) < 0 := by omega
  rw [getWeightAt_of_no_timestamp quot methodName now rfl]
  unfold configuredWeight URL.getMethodParamInt64
  rw [hnone, if_pos rfl, URL.getParamInt, hparam, intOr, parseInt_decimal h]
  simp only [hneg, false_and, if_false]

def exactQuotient : Quotient := fun uptime weight warm => (uptime * weight : ℚ) / warm

theorem warmupWeight_exactQuotient {uptime weight warm : ℤ} (hpos : 0 < weight) (hlt : uptime < warm)
    (hwarm : 0 < warm) : warmupWeight exactQuotient uptime weight warm = max 1 ⌊(uptime * weight : ℚ) / warm⌋ ∧
      max 1 ⌊(uptime * weight : ℚ) / warm⌋ ≤ weight := by
  have hpos' : (0 : ℚ) < weight := by exact_mod_cast hpos
  have hlt' : (uptime : ℚ) < warm := by exact_mod_cast hlt
  have hwarm' : (0 : ℚ) < warm := by exact_mod_cast hwarm
  have hq : (uptime * weight : ℚ) / warm < weight := by
    rw [div_lt_iff₀ hwarm', mul_comm]
    exact mul_lt_mul_of_pos_left hlt' hpos'
  have hfloor : ⌊(uptime * weight : ℚ) / warm⌋ ≤ weight := (Int.floor_lt.2 hq).le
  refine ⟨?_, max_le hpos hfloor⟩
  unfold warmupWeight exactQuotient
  dsimp only
  split_ifs with hone
  · rw [max_eq_left]
    exact (Int.floor_lt.2 (by exact_mod_cast hone)).le
  · rw [max_eq_right]
    exact Int.le_floor.2 (by exact_mod_cast not_lt.1 hone)

/-- The weight, the time of registration and the warm-up period in the URL of a provider. -/
structure Warming (url : URL) (methodName : Str) (weight ts warm : ℤ) : Prop where
  weight_eq : configuredWeight url methodName = weight
  ts_eq : ∀ now, url.getParamInt remoteTimestampKey now = ts
  warm_eq : url.getParamInt warmupKey defaultWarmup = warm
  weight_pos : 0 < weight
  warm_pos : 0 < warm

section Warming

variable {url : URL} {methodName : Str} {weight warm : ℤ} {ts t t' : Int64}

theorem Warming.getWeightAt_eq (h : Warming url methodName weight ts.toInt warm) (ht : ts < t) :
    getWeightAt exactQuotient url methodName t.toInt =
      if t.toInt - ts.toInt < 2 ^ 63 ∧ t.toInt - ts.toInt < warm then
        max 1 ⌊((t.toInt - ts.toInt : ℤ) * weight : ℚ) / warm⌋
      else weight := by
  have hpos : 0 < t.toInt - ts.toInt := sub_pos.2 (Int64.lt_iff_toInt_lt.1 ht)
  have hts := ts.le_toInt
  have hlt := t.toInt_lt
  have hweight := h.weight_pos
  unfold getWeightAt
  simp only [h.weight_eq, h.ts_eq, h.warm_eq, if_pos hweight]
  by_cases hfits : t.toInt - ts.toInt < 2 ^ 63
  · rw [int64_of_bounds (by omega) hfits, if_pos hpos]
    by_cases hwarm : t.toInt - ts.toInt < warm
    · simp only [(warmupWeight_exactQuotient hweight hwarm h.warm_pos).1, hfits, hwarm, and_self, if_true]
      exact if_neg (by omega)
    · simp only [hwarm, and_false, if_false]
      exact if_neg (by omega)
  · have hwrapped : ¬0 < int64 (t.toInt - ts.toInt) := by
      rw [int64, Int.bmod_def]
      split_ifs <;> omega
    simp only [hwrapped, hfits, false_and, if_false]
    exact if_neg (by omega)

/-- At the moment of its registration a provider has its full weight. -/
theorem Warming.getWeightAt_self (h : Warming url methodName weight ts.toInt warm) :
    getWeightAt exactQuotient url methodName ts.toInt = weight := by
  have hweight := h.weight_pos
  unfold getWeightAt
  simp only [h.weight_eq, h.ts_eq, sub_self, show int64 0 = 0 from rfl, lt_irrefl, if_false, ite_self]
  exact if_neg (by omega)

theorem Warming.warm_lt (h : Warming url methodName weight ts.toInt warm) : warm < 2 ^ 63 := by
  rw [← h.warm_eq, URL.getParamInt, intOr]
  split
  · rename_i hparse
    exact parseInt_lt hparse
  · decide

/-- The weight while a provider warms up is the full one only if that is 1. -/
theorem max_floor_eq_weight_iff {uptime : ℤ} (hpos : 0 < weight) (hwarm : 0 < warm) (hlt : uptime < warm) :
    weight ≤ max 1 ⌊(uptime * weight : ℚ) / warm⌋ ↔ weight = 1 := by
  have hquotient : (uptime * weight : ℚ) / warm < weight := by
    rw [div_lt_iff₀ (by exact_mod_cast hwarm), mul_comm]
    exact mul_lt_mul_of_pos_left (by exact_mod_cast hlt) (by exact_mod_cast hpos)
  have hfloor := Int.floor_lt.2 hquotient
  omega

theorem Warming.ramps_up (h : Warming url methodName weight ts.toInt warm) (ht : ts < t) (hle : t ≤ t') :
    1 ≤ getWeightAt exactQuotient url methodName t.toInt ∧
      getWeightAt exactQuotient url methodName t.toInt ≤ getWeightAt exactQuotient url methodName t'.toInt ∧
      getWeightAt exactQuotient url methodName t'.toInt ≤ weight ∧
      (warm ≤ t.toInt - ts.toInt → getWeightAt exactQuotient url methodName t.toInt = weight) := by
  have hle' := Int64.le_iff_toInt_le.1 hle
  have hwarm : (0 : ℚ) < warm := by exact_mod_cast h.warm_pos
  have hmono : ((t.toInt - ts.toInt : ℤ) * weight : ℚ) / warm ≤ ((t'.toInt - ts.toInt : ℤ) * weight : ℚ) / warm := by
    have hpos : (0 : ℚ) ≤ weight := by exact_mod_cast h.weight_pos.le
    gcongr
  have hfloor := max_le_max_left 1 (Int.floor_mono hmono)
  have hbound : ∀ uptime < warm, max 1 ⌊(uptime * weight : ℚ) / warm⌋ ≤ weight := fun uptime hlt =>
    (warmupWeight_exactQuotient h.weight_pos hlt h.warm_pos).2
  have hone := le_max_left 1 ⌊((t.toInt - ts.toInt : ℤ) * weight : ℚ) / warm⌋
  have hweight := h.weight_pos
  rw [h.getWeightAt_eq ht, h.getWeightAt_eq (Int64.lt_of_lt_of_le ht hle)]
  split_ifs with h1 h2 h2
  · exact ⟨hone, hfloor, hbound _ h2.2, fun hge => absurd h1.2 (not_lt.2 hge)⟩
  · exact ⟨hone, hbound _ h1.2, le_rfl, fun hge => absurd h1.2 (not_lt.2 hge)⟩
  · omega
  · exact ⟨hweight, le_rfl, le_rfl, fun _ => rfl⟩

/-- A provider's weight only grows, up to the configured one, exactly if the earlier time is after its registration,
or its weight is 1 anyway, or the later time is that of the registration or after the warm-up. -/
theorem warmup_ramps_up (h : Warming url methodName weight ts.toInt warm) (ht : ts ≤ t) (hle : t ≤ t') :
    (1 ≤ getWeightAt exactQuotient url methodName t.toInt ∧
      getWeightAt exactQuotient url methodName t.toInt ≤ getWeightAt exactQuotient url methodName t'.toInt ∧
      getWeightAt exactQuotient url methodName t'.toInt ≤ weight ∧
      (warm ≤ t.toInt - ts.toInt → getWeightAt exactQuotient url methodName t.toInt = weight)) ↔
        ts < t ∨ weight = 1 ∨ t' = ts ∨ warm ≤ t'.toInt - ts.toInt := by
  by_cases hafter : ts < t
  · exact iff_of_true (h.ramps_up hafter hle) (.inl hafter)
  have hself : t = ts := Int64.le_antisymm (Int64.not_lt.1 hafter) ht
  subst hself
  have hweight := h.weight_pos
  have hwarm := h.warm_lt
  simp only [h.getWeightAt_self, hafter, false_or, implies_true, and_true, show 1 ≤ weight from hweight, true_and]
  by_cases hlater : t < t'
  · have hne : t' ≠ t := fun heq => hafter (heq ▸ hlater)
    rw [h.getWeightAt_eq hlater]
    split_ifs with hwarming
    · have hfull := max_floor_eq_weight_iff hweight h.warm_pos hwarming.2
      have hbound := (warmupWeight_exactQuotient hweight hwarming.2 h.warm_pos).2
      simp only [hfull, hbound, and_true, hne, not_le.2 hwarming.2, or_false]
    · exact iff_of_true ⟨le_rfl, le_rfl⟩ (.inr (.inr (by omega)))
  · have heq : t' = t := Int64.le_antisymm (Int64.not_lt.1 hlater) hle
    rw [heq, h.getWeightAt_self]
    exact iff_of_true ⟨le_rfl, le_rfl⟩ (.inr (.inl rfl))

/-- A provider of weight 100 that has been registered at the time 1000 and warms up for 600 seconds. -/
def registeredAt1000 : URL :=
  { URL.ofProvider [] [] with
    params := fun key =>
      if key = weightKey then some [str "100"]
      else if key = remoteTimestampKey then some [str "1000"]
      else if key = warmupKey then some [str "600"]
      else none }

theorem warmup_ramps_up_minute : Warming registeredAt1000 (str "say") 100 (Int64.ofInt 1000).toInt 600 ∧
    getWeightAt exactQuotient registeredAt1000 (str "say") (Int64.ofInt 1060).toInt ≤
      getWeightAt exactQuotient registeredAt1000 (str "say") (Int64.ofInt 1120).toInt := by
  have h : Warming registeredAt1000 (str "say") 100 (Int64.ofInt 1000).toInt 600 :=
    ⟨by decide +kernel, fun _ => rfl, by decide +kernel, by decide, by decide⟩
  exact ⟨h, ((warmup_ramps_up h (by decide) (by decide)).2 (.inl (by decide))).2.1⟩

/-- At the moment of its registration the provider has its full weight, and a second later the least one. -/
theorem full_weight_before_warmup :
    getWeightAt exactQuotient registeredAt1000 (str "say") 1000 = 100 ∧
      getWeightAt exactQuotient registeredAt1000 (str "say") 1001 = 1 := by
  decide +kernel

end Warming

/-! ## Through the directory -/

/-- The merged URL has the time of registration as its remote timestamp, and the provider warms up from then on,
exactly if one of the two URLs says so under that key and the time is after the registration or the weight is 1. -/
theorem warmup_after_merge {p c : ServiceURL} {methodName : Str} {weight warm : ℤ} {ts t : Int64}
    (hparse : parseInt (p.params.get timestampKey) 10 64 = .ok ts.toInt)
    (hweight : configuredWeight (p.mergeURL c).toURL methodName = weight) (hpos : 0 < weight)
    (hwarm : (p.mergeURL c).toURL.getParamInt warmupKey defaultWarmup = warm) (ht : ts ≤ t)
    (hlt : t.toInt < ts.toInt + warm) :
    ((p.mergeURL c).params.get remoteTimestampKey = p.params.get timestampKey ∧
      getWeightAt exactQuotient (p.mergeURL c).toURL methodName t.toInt =
        max 1 ⌊((t.toInt - ts.toInt : ℤ) * weight : ℚ) / warm⌋) ↔
      (if p.params.get remoteTimestampKey = [] then c.params.get remoteTimestampKey
        else p.params.get remoteTimestampKey) = p.params.get timestampKey ∧ (ts < t ∨ weight = 1) := by
  have hmerged : (p.mergeURL c).params.get remoteTimestampKey =
      if p.params.get remoteTimestampKey = [] then c.params.get remoteTimestampKey
        else p.params.get remoteTimestampKey := by
    have hts : p.params.get timestampKey ≠ [] := by
      intro hnil
      rw [hnil] at hparse
      cases hparse
    have hmerge := Values.get_merge_remoteTimestamp hts c.params.values c.methods
    rwa [← ServiceURL.values_mergeURL] at hmerge
  rw [← hmerged]
  refine and_congr_right fun hget => ?_
  have hle := Int64.le_iff_toInt_le.1 ht
  have hwarming : Warming (p.mergeURL c).toURL methodName weight ts.toInt warm := by
    refine ⟨hweight, fun now => ?_, hwarm, hpos, by omega⟩
    have hparam := (p.mergeURL c).getParam_nil remoteTimestampKey
    rw [hget] at hparam
    change intOr ((p.mergeURL c).getParam remoteTimestampKey []) now = ts.toInt
    rw [hparam, intOr, hparse]
  by_cases hafter : ts < t
  · have hmax := hwarming.warm_lt
    rw [hwarming.getWeightAt_eq hafter, if_pos ⟨by omega, by omega⟩]
    exact iff_of_true rfl (.inl hafter)
  · obtain rfl : t = ts := Int64.le_antisymm (Int64.not_lt.1 hafter) ht
    rw [hwarming.getWeightAt_self]
    simp [hafter]

/-- A provider of weight 100 that was registered at the time 1000. -/
def providerAt1000 : ServiceURL :=
  .ofProvider [] [] ((Params.empty.set timestampKey (str "1000")).set weightKey (str "100"))

/-- The same one, with the time under the key that `GetWeightAt` reads. -/
def registered : ServiceURL :=
  { providerAt1000 with params := providerAt1000.params.set remoteTimestampKey (str "1000") }

def consumer : ServiceURL := .ofProvider [] [] Params.empty

theorem warmup_after_merge_minute :
    (registered.mergeURL consumer).params.get remoteTimestampKey = str "1000" ∧
      getWeightAt exactQuotient (registered.mergeURL consumer).toURL (str "say") (Int64.ofInt 1060).toInt = 10 := by
  have hparse : parseInt (registered.params.get timestampKey) 10 64 = .ok (Int64.ofInt 1000).toInt := by decide +kernel
  have hweight : configuredWeight (registered.mergeURL consumer).toURL (str "say") = 100 := by decide +kernel
  have hwarm : (registered.mergeURL consumer).toURL.getParamInt warmupKey defaultWarmup = 600 := by decide +kernel
  obtain ⟨hget, hwarming⟩ := (warmup_after_merge (t := Int64.ofInt 1060) hparse hweight (by decide) hwarm (by decide)
    (by decide)).2 ⟨by decide +kernel, .inl (by decide)⟩
  exact ⟨hget, hwarming.trans (by decide +kernel)⟩

/-- `MergeURL` leaves the provider without a remote timestamp, so that it has its full weight from the start. -/
theorem merge_forgets_registration : providerAt1000.params.get timestampKey = str "1000" ∧
    (providerAt1000.mergeURL consumer).params.get remoteTimestampKey = [] ∧
    getWeightAt exactQuotient (providerAt1000.mergeURL consumer).toURL (str "say") 1060 = 100 := by
  decide +kernel

end DubboGo.Cluster
