import DubboGo.Cluster.Weight
import DubboGo.Lib.SmoothRoundRobin

/-!
# Round robin load balancing

`rrLoadBalance.Select` of `cluster/loadbalance/roundrobin/loadbalance.go`, for calls that run one
after another.  The cache of a method holds a weight and a current weight for each key of an
invoker's URL; current weights are `int64` values.
-/

namespace DubboGo.Cluster.RoundRobin

open Go Common SmoothRoundRobin List Function

/-- A reading of the clock: the seconds of `Unix`, and the nanoseconds that `Sub` compares. -/
structure Instant where
  unix : ℤ
  nanos : ℤ

structure WeightedRoundRobin where
  weight : ℤ
  current : ℤ
  lastUpdate : Instant

namespace WeightedRoundRobin

variable (robin : WeightedRoundRobin)

def setLastUpdate (time : Instant) : WeightedRoundRobin := { robin with lastUpdate := time }

def setWeight (weight : ℤ) : WeightedRoundRobin := { robin with weight := weight, current := 0 }

def increaseCurrent : WeightedRoundRobin :=
  { robin with current := int64 (robin.current + robin.weight) }

/-- `Current(delta)`. -/
def decreaseCurrent (delta : ℤ) : WeightedRoundRobin :=
  { robin with current := int64 (robin.current + int64 (-1 * delta)) }

end WeightedRoundRobin

/-- `cachedInvokers`, by the keys of the invokers' URLs. -/
abbrev CachedInvokers := Str → Option WeightedRoundRobin

abbrev MethodWeightMap := Str → Option CachedInvokers

def recyclePeriod : ℤ := 60 * 10 ^ 9

/-- `cleanIfRequired`; calls that run one after another always get the update lock. -/
def cleanIfRequired (clean : Bool) (invokers : CachedInvokers) (now : Instant) : CachedInvokers :=
  if clean then
    fun identify => (invokers identify).filter fun robin =>
      decide ¬ recyclePeriod < now.nanos - robin.lastUpdate.nanos
  else invokers

section Select

variable {ι : Type} (quotient : Quotient) (getURL : ι → URL)

/-- The variables of the loop of `Select`; an entry is selected by its key. -/
structure Scan (ι : Type) where
  cachedInvokers : CachedInvokers
  clean : Bool
  totalWeight : ℤ
  maxCurrentWeight : ℤ
  selected : Option (ι × Str)

/-- The entry that the loop uses for an invoker: the one in the cache, or a new one. -/
def loadOrStore (cache : CachedInvokers) (identifier : Str) (weight : ℤ) (now : Instant) : WeightedRoundRobin :=
  match cache identifier with
  | some robin => robin.setLastUpdate now
  | none => ⟨weight, 0, now⟩

/-- The body of the loop of `Select`. -/
def visit (methodName : Str) (now : Instant) (s : Scan ι) (invoker : ι) : Scan ι :=
  let weight := max (getWeightAt quotient (getURL invoker) methodName now.unix) 0
  let identifier := (getURL invoker).key
  let weightRobin := loadOrStore s.cachedInvokers identifier weight now
  let weightRobin :=
    if weightRobin.weight ≠ weight then weightRobin.setWeight weight else weightRobin
  let weightRobin := weightRobin.increaseCurrent
  let s' : Scan ι :=
    { s with
      cachedInvokers := Function.update s.cachedInvokers identifier (some weightRobin)
      clean := s.clean || (s.cachedInvokers identifier).isNone
      totalWeight := int64 (s.totalWeight + weight) }
  if s.maxCurrentWeight < weightRobin.current then
    { s' with
      maxCurrentWeight := weightRobin.current
      selected := some (invoker, identifier) }
  else s'

def cacheKey (first : ι) (methodName : Str) : Str := (getURL first).path ++ str "." ++ methodName

/-- The cache of the method in a call with these invokers, a new one if there is none. -/
def methodCache (methodName : Str) (invokers : List ι) (m : MethodWeightMap) : CachedInvokers :=
  match invokers with
  | [] => fun _ => none
  | first :: _ => (m (cacheKey getURL first methodName)).getD fun _ => none

def select (m : MethodWeightMap) (invokers : List ι) (methodName : Str) (now : Instant) :
    Option ι × MethodWeightMap :=
  match invokers with
  | [] => (none, m)
  | [invoker] => (some invoker, m)
  | first :: _ :: _ =>
    let key := cacheKey getURL first methodName
    let s := invokers.foldl (visit quotient getURL methodName now)
      ⟨methodCache getURL methodName invokers m, false, 0, -2 ^ 63, none⟩
    let cache := cleanIfRequired s.clean s.cachedInvokers now
    match s.selected with
    | some (invoker, identifier) =>
      let paid := (cache identifier).map fun robin => robin.decreaseCurrent s.totalWeight
      (some invoker, Function.update m key (some (Function.update cache identifier paid)))
    | none => (some first, Function.update m key (some cache))

end Select

/-! ## The loop -/

section Loop

variable {ι : Type} {quotient : Quotient} {getURL : ι → URL} {methodName : Str} {now : Instant}
  {w : ι → ℕ} {c : ι → ℤ} {cache : CachedInvokers} {s : Scan ι} {i : ι} {done : List ι}

/-- The cache has the weight and the current weight of an invoker; at first it may have nothing. -/
def HasCredit (getURL : ι → URL) (w : ι → ℕ) (c : ι → ℤ) (cache : CachedInvokers) (i : ι) : Prop :=
  (cache (getURL i).key = none ∧ c i = 0) ∨ ∃ t, cache (getURL i).key = some ⟨w i, c i, t⟩

/-- What the loop may assume of an invoker: its weight, its entry, and that its next current weight
is in range. -/
structure Ready (quotient : Quotient) (getURL : ι → URL) (methodName : Str) (now : Instant)
    (w : ι → ℕ) (c : ι → ℤ) (cache : CachedInvokers) (i : ι) : Prop where
  weight : getWeightAt quotient (getURL i) methodName now.unix = w i
  entry : HasCredit getURL w c cache i
  low : -2 ^ 63 < c i + w i
  high : c i + w i < 2 ^ 63

theorem visit_cases (h : Ready quotient getURL methodName now w c s.cachedInvokers i) :
    let s' := visit quotient getURL methodName now s i
    s'.cachedInvokers =
        update s.cachedInvokers (getURL i).key (some ⟨w i, c i + w i, now⟩) ∧
      s'.totalWeight = int64 (s.totalWeight + w i) ∧
      ((s.maxCurrentWeight < c i + w i ∧ s'.maxCurrentWeight = c i + w i ∧
          s'.selected = some (i, (getURL i).key)) ∨
        (c i + w i ≤ s.maxCurrentWeight ∧ s'.maxCurrentWeight = s.maxCurrentWeight ∧
          s'.selected = s.selected)) := by
  have hload : loadOrStore s.cachedInvokers (getURL i).key (w i) now = ⟨w i, c i, now⟩ := by
    unfold loadOrStore
    obtain ⟨hnone, hzero⟩ | ⟨t, hsome⟩ := h.entry
    · rw [hnone, hzero]
    · rw [hsome]
      rfl
  have hinc : (⟨w i, c i, now⟩ : WeightedRoundRobin).increaseCurrent = ⟨w i, c i + w i, now⟩ := by
    unfold WeightedRoundRobin.increaseCurrent
    rw [int64_of_bounds h.low.le h.high]
  have hmax : max (w i : ℤ) 0 = w i := max_eq_left (Int.natCast_nonneg _)
  unfold visit
  dsimp only
  rw [h.weight, hmax, hload, if_neg (not_not.2 rfl), hinc]
  split_ifs with hlt
  · exact ⟨rfl, rfl, .inl ⟨hlt, rfl, rfl⟩⟩
  · exact ⟨rfl, rfl, .inr ⟨not_lt.1 hlt, rfl, rfl⟩⟩

/-- What the loop has done after the invokers of `done`. -/
structure Scanned (getURL : ι → URL) (now : Instant) (w : ι → ℕ) (c : ι → ℤ)
    (cache : CachedInvokers) (done : List ι) (s : Scan ι) : Prop where
  entry : ∀ i ∈ done, s.cachedInvokers (getURL i).key = some ⟨w i, c i + w i, now⟩
  rest : ∀ id, id ∉ done.map (fun i => (getURL i).key) → s.cachedInvokers id = cache id
  total : s.totalWeight = ((done.map w).sum : ℕ)
  selected : (done = [] ∧ s.selected = none ∧ s.maxCurrentWeight = -2 ^ 63) ∨
    ∃ x ∈ done, s.selected = some (x, (getURL x).key) ∧ s.maxCurrentWeight = c x + w x ∧
      ∀ i ∈ done, c i + w i ≤ c x + w x

theorem Scanned.selected_visit (hs : Scanned getURL now w c cache done s)
    (hi : Ready quotient getURL methodName now w c s.cachedInvokers i) :
    ∃ x ∈ done ++ [i], (visit quotient getURL methodName now s i).selected = some (x, (getURL x).key) ∧
      (visit quotient getURL methodName now s i).maxCurrentWeight = c x + w x ∧
      ∀ j ∈ done ++ [i], c j + w j ≤ c x + w x := by
  obtain ⟨-, -, ⟨hlt, hmax', hsel'⟩ | ⟨hle, hmax', hsel'⟩⟩ := visit_cases hi
  · refine ⟨i, by simp, hsel', hmax', fun j hj => ?_⟩
    rcases mem_append.1 hj with hj | hj
    · obtain ⟨rfl, -⟩ | ⟨x, -, -, hmax, hbest⟩ := hs.selected
      · cases hj
      · exact (hbest j hj).trans (hmax ▸ hlt.le)
    · rw [mem_singleton.1 hj]
  · obtain ⟨-, -, hmax⟩ | ⟨x, hx, hsel, hmax, hbest⟩ := hs.selected
    · -- nothing is selected yet, and every weight is above the least `int64`
      exact absurd hi.low (not_lt.2 (hmax ▸ hle))
    · refine ⟨x, by simp [hx], hsel'.trans hsel, hmax'.trans hmax, fun j hj => ?_⟩
      rcases mem_append.1 hj with hj | hj
      · exact hbest j hj
      · rw [mem_singleton.1 hj]
        exact hmax ▸ hle

theorem scanned_visit (hs : Scanned getURL now w c cache done s)
    (hi : Ready quotient getURL methodName now w c cache i)
    (hnew : (getURL i).key ∉ done.map fun i => (getURL i).key) (htotal : ((done ++ [i]).map w).sum < 2 ^ 63) :
    Scanned getURL now w c cache (done ++ [i]) (visit quotient getURL methodName now s i) := by
  have hi' : Ready quotient getURL methodName now w c s.cachedInvokers i := by
    refine ⟨hi.weight, ?_, hi.low, hi.high⟩
    unfold HasCredit
    rw [hs.rest _ hnew]
    exact hi.entry
  have hold : ∀ j ∈ done, (getURL j).key ≠ (getURL i).key := fun j hj heq =>
    hnew (heq ▸ mem_map_of_mem hj)
  have hsum : int64 (s.totalWeight + w i) = (((done ++ [i]).map w).sum : ℕ) := by
    have hcast : s.totalWeight + w i = (((done ++ [i]).map w).sum : ℕ) := by
      rw [hs.total]
      simp
    rw [hcast, int64_of_bounds]
    · omega
    · exact_mod_cast htotal
  obtain ⟨hcache, htotal', -⟩ := visit_cases hi'
  refine ⟨fun j hj => ?_, fun id hid => ?_, htotal'.trans hsum, .inr (hs.selected_visit hi')⟩
  · rw [hcache]
    rcases mem_append.1 hj with hj | hj
    · rw [update_of_ne (hold j hj), hs.entry j hj]
    · rw [mem_singleton.1 hj, update_self]
  · rw [map_append, mem_append, not_or, map_singleton, mem_singleton] at hid
    rw [hcache, update_of_ne hid.2, hs.rest id hid.1]

theorem scanned_foldl (invokers : List ι) (hready : ∀ i ∈ invokers, Ready quotient getURL methodName now w c cache i)
    (hkeys : (invokers.map fun i => (getURL i).key).Nodup) (htotal : (invokers.map w).sum < 2 ^ 63) :
    Scanned getURL now w c cache invokers
      (invokers.foldl (visit quotient getURL methodName now) ⟨cache, false, 0, -2 ^ 63, none⟩) := by
  induction invokers using reverseRecOn with
  | nil => exact ⟨nofun, fun _ _ => rfl, rfl, .inl ⟨rfl, rfl, rfl⟩⟩
  | append_singleton done i ih =>
    rw [map_append, nodup_append] at hkeys
    have hdone : (done.map w).sum < 2 ^ 63 := by
      rw [map_append, sum_append] at htotal
      omega
    have hnew : (getURL i).key ∉ done.map fun i => (getURL i).key := fun h =>
      hkeys.2.2 _ h _ (by simp) rfl
    rw [foldl_append]
    exact scanned_visit (ih (fun j hj => hready j (by simp [hj])) hkeys.1 hdone) (hready i (by simp)) hnew htotal

end Loop

/-! ## One call -/

theorem cleanIfRequired_of_updated {cache : CachedInvokers} {now : Instant} (clean : Bool)
    (h : ∀ id robin, cache id = some robin → robin.lastUpdate = now) : cleanIfRequired clean cache now = cache := by
  unfold cleanIfRequired
  split_ifs
  · funext id
    cases hid : cache id with
    | none => rfl
    | some robin =>
      rw [Option.filter_some, h id robin hid, sub_self, if_pos (by decide)]
  · rfl

section Call

variable {ι : Type} {quot : Quotient} {getURL : ι → URL} {meth : Str} {now : Instant}
  {w : ι → ℕ} {c c' : ι → ℤ} {cache : CachedInvokers} {m : MethodWeightMap} {invokers : List ι}

structure Credits (getURL : ι → URL) (w : ι → ℕ) (invokers : List ι) (cache : CachedInvokers)
    (c : ι → ℤ) : Prop where
  entry : ∀ i ∈ invokers, HasCredit getURL w c cache i
  others : ∀ id, id ∉ invokers.map (fun i => (getURL i).key) → cache id = none

def currentOf (getURL : ι → URL) (cache : CachedInvokers) (i : ι) : ℤ :=
  ((cache (getURL i).key).map WeightedRoundRobin.current).getD 0

theorem Credits.currentOf_eq (h : Credits getURL w invokers cache c) {i : ι} (hi : i ∈ invokers) :
    currentOf getURL cache i = c i := by
  unfold currentOf
  obtain ⟨hnone, hzero⟩ | ⟨t, hsome⟩ := h.entry i hi
  · rw [hnone, hzero]
    rfl
  · rw [hsome]
    rfl

theorem Credits.congr (h : Credits getURL w invokers cache c) (heq : ∀ i ∈ invokers, c' i = c i) :
    Credits getURL w invokers cache c' := by
  refine ⟨fun i hi => ?_, h.others⟩
  unfold HasCredit
  rw [heq i hi]
  exact h.entry i hi

variable {s : Scan ι} {robin : WeightedRoundRobin}

theorem Scanned.cleanIfRequired_eq (h : Scanned getURL now w c cache invokers s)
    (hothers : ∀ id, id ∉ invokers.map (fun i => (getURL i).key) → cache id = none) :
    cleanIfRequired s.clean s.cachedInvokers now = s.cachedInvokers := by
  apply cleanIfRequired_of_updated
  intro id robin hid
  by_cases hmem : id ∈ invokers.map fun i => (getURL i).key
  · obtain ⟨i, hi, rfl⟩ := mem_map.1 hmem
    rw [h.entry i hi] at hid
    rw [← Option.some.inj hid]
  · rw [h.rest id hmem, hothers id hmem] at hid
    cases hid

theorem decreaseCurrent_eq {total : ℕ} (htotal : total < 2 ^ 63) (hpos : 0 < robin.current)
    (hhigh : robin.current < 2 ^ 63) :
    robin.decreaseCurrent total = { robin with current := robin.current - total } := by
  have hneg : int64 (-1 * total) = -total := by
    rw [neg_one_mul]
    apply int64_of_bounds <;> omega
  unfold WeightedRoundRobin.decreaseCurrent
  rw [hneg, ← sub_eq_add_neg, int64_of_bounds] <;> omega

theorem mem_of_selected {l : List ι} {x : ι × Str} (h : (l.foldl (visit quot getURL meth now) s).selected = some x) :
    x.1 ∈ l ∨ s.selected = some x := by
  induction l generalizing s with
  | nil => exact .inr h
  | cons i l ih =>
    rcases ih h with hx | hx
    · exact .inl (mem_cons_of_mem i hx)
    · unfold visit at hx
      simp only [apply_ite Scan.selected] at hx
      rcases ite_eq_iff.1 hx with ⟨-, hx⟩ | ⟨-, hx⟩
      · cases hx
        exact .inl mem_cons_self
      · exact .inr hx

/-- Whatever is cached, and whatever overflows, one of the candidates is returned. -/
theorem select_candidate (m : MethodWeightMap) (first : ι) (rest : List ι) :
    ∃ i ∈ first :: rest, (select quot getURL m (first :: rest) meth now).1 = some i := by
  cases rest with
  | nil => exact ⟨first, mem_cons_self, rfl⟩
  | cons second rest =>
    unfold select
    dsimp only
    split
    · rename_i i id hsel
      exact ⟨i, (mem_of_selected hsel).resolve_right nofun, rfl⟩
    · exact ⟨first, mem_cons_self, rfl⟩

variable [DecidableEq ι]

theorem total_toFinset (hkeys : (invokers.map fun i => (getURL i).key).Nodup) :
    total invokers.toFinset w = (invokers.map w).sum :=
  sum_toFinset w (List.Nodup.of_map _ hkeys)

theorem ready_of_balanced (hkeys : (invokers.map fun i => (getURL i).key).Nodup)
    (hweight : ∀ i ∈ invokers, getWeightAt quot (getURL i) meth now.unix = w i)
    (hbound : invokers.length * (invokers.map w).sum < 2 ^ 63)
    (hcredit : Credits getURL w invokers cache c) (hbal : Balanced invokers.toFinset w c) :
    ∀ i ∈ invokers, Ready quot getURL meth now w c cache i := by
  intro i hi
  have hmem : i ∈ invokers.toFinset := mem_toFinset.2 hi
  have hlow := hbal.neg_total_lt i hmem
  have hhigh := hbal.add_total_le hmem
  have hle : w i ≤ total invokers.toFinset w :=
    Finset.single_le_sum (f := w) (fun _ _ => Nat.zero_le _) hmem
  have hlen : 1 ≤ invokers.length := length_pos_of_mem hi
  have hT : (invokers.map w).sum ≤ invokers.length * (invokers.map w).sum :=
    Nat.le_mul_of_pos_left _ hlen
  rw [total_toFinset hkeys] at hlow hhigh hle
  rw [toFinset_card_of_nodup (List.Nodup.of_map _ hkeys), ← Nat.cast_mul] at hhigh
  refine ⟨hweight i hi, hcredit.entry i hi, ?_, ?_⟩ <;> omega

omit [DecidableEq ι] in
theorem select_of_scanned {x : ι} (hlen : 2 ≤ invokers.length) (hs : s = invokers.foldl (visit quot getURL meth now)
      ⟨methodCache getURL meth invokers m, false, 0, -2 ^ 63, none⟩)
    (hclean : cleanIfRequired s.clean s.cachedInvokers now = s.cachedInvokers)
    (hsel : s.selected = some (x, (getURL x).key)) (hentry : s.cachedInvokers (getURL x).key = some robin) :
    (select quot getURL m invokers meth now).1 = some x ∧
      methodCache getURL meth invokers (select quot getURL m invokers meth now).2 =
        update s.cachedInvokers (getURL x).key (some (robin.decreaseCurrent s.totalWeight)) := by
  match invokers, hlen with
  | first :: second :: rest, _ =>
    unfold select
    dsimp only
    rw [← hs, hsel]
    dsimp only
    rw [hclean, hentry]
    refine ⟨rfl, ?_⟩
    unfold methodCache
    dsimp only
    rw [update_self, Option.getD_some, Option.map_some]

theorem select_round (hlen : 2 ≤ invokers.length)
    (hkeys : (invokers.map fun i => (getURL i).key).Nodup)
    (hweight : ∀ i ∈ invokers, getWeightAt quotient (getURL i) methodName now.unix = w i)
    (hpos : 0 < (invokers.map w).sum) (hbound : invokers.length * (invokers.map w).sum < 2 ^ 63)
    (hcredit : Credits getURL w invokers (methodCache getURL methodName invokers m) c)
    (hbal : Balanced invokers.toFinset w c) :
    ∃ x c', (select quotient getURL m invokers methodName now).1 = some x ∧
      Round invokers.toFinset w c x c' ∧
      Credits getURL w invokers
        (methodCache getURL methodName invokers (select quotient getURL m invokers methodName now).2)
        c' ∧
      ∀ i ∈ invokers, methodCache getURL methodName invokers
        (select quotient getURL m invokers methodName now).2 (getURL i).key ≠ none := by
  have hT : (invokers.map w).sum < 2 ^ 63 :=
    lt_of_le_of_lt (Nat.le_mul_of_pos_left _ (by omega)) hbound
  have hready := ready_of_balanced hkeys hweight hbound hcredit hbal
  have hscan := scanned_foldl invokers hready hkeys hT
  generalize hs : invokers.foldl (visit quotient getURL methodName now)
    ⟨methodCache getURL methodName invokers m, false, 0, -2 ^ 63, none⟩ = s at hscan
  obtain ⟨rfl, -⟩ | ⟨x, hx, hsel, -, hbest⟩ := hscan.selected
  · cases hlen
  obtain ⟨hfst, hsnd⟩ := select_of_scanned hlen hs.symm
    (hscan.cleanIfRequired_eq hcredit.others) hsel (hscan.entry x hx)
  have hround : Round invokers.toFinset w c x
      fun i => c i + w i - if i = x then (total invokers.toFinset w : ℤ) else 0 :=
    ⟨mem_toFinset.2 hx, fun i hi => hbest i (mem_toFinset.1 hi), fun _ _ => rfl⟩
  have hpos' : 0 < c x + w x :=
    hround.chosen_pos (by rw [total_toFinset hkeys]; exact hpos) hbal.sum_eq
  rw [hscan.total, decreaseCurrent_eq hT hpos' (hready x hx).high] at hsnd
  have hstored : ∀ i ∈ invokers, methodCache getURL methodName invokers
      (select quotient getURL m invokers methodName now).2 (getURL i).key =
        some ⟨w i, c i + w i - if i = x then (total invokers.toFinset w : ℤ) else 0, now⟩ := by
    intro i hi
    rw [hsnd, total_toFinset hkeys]
    by_cases hix : i = x
    · rw [hix, update_self, if_pos rfl]
    · have hne : (getURL i).key ≠ (getURL x).key := fun h =>
        hix (inj_on_of_nodup_map hkeys hi hx h)
      rw [update_of_ne hne, hscan.entry i hi, if_neg hix, sub_zero]
  refine ⟨x, _, hfst, hround, ⟨fun i hi => .inr ⟨now, hstored i hi⟩, fun id hid => ?_⟩,
    fun i hi h => ?_⟩
  · have hne : id ≠ (getURL x).key := fun h => hid (h ▸ mem_map_of_mem hx)
    rw [hsnd, update_of_ne hne, hscan.rest id hid, hcredit.others id hid]
  · rw [hstored i hi] at h
    cases h

end Call

/-! ## Calls one after another -/

/-- Calls of `Select` one after another, at the given times and with the same arguments. -/
structure Calls (ι : Type) where
  quotient : Quotient
  getURL : ι → URL
  methodName : Str
  invokers : List ι
  times : ℕ → Instant
  start : MethodWeightMap

namespace Calls

variable {ι : Type} (calls : Calls ι)

/-- The cached weights before call `n`. -/
def stateAt : ℕ → MethodWeightMap
  | 0 => calls.start
  | n + 1 =>
    (select calls.quotient calls.getURL (stateAt n) calls.invokers calls.methodName (calls.times n)).2

/-- What call `n` returns. -/
def returned (n : ℕ) : Option ι :=
  (select calls.quotient calls.getURL (calls.stateAt n) calls.invokers calls.methodName (calls.times n)).1

/-- The method's cache before call `n`. -/
def cacheAt (n : ℕ) : CachedInvokers :=
  methodCache calls.getURL calls.methodName calls.invokers (calls.stateAt n)

/-- The current weight of an invoker before call `n`. -/
def currentAt (n : ℕ) (i : ι) : ℤ := currentOf calls.getURL (calls.cacheAt n) i

def totalWeight (w : ι → ℕ) : ℕ := (calls.invokers.map w).sum

/-- At least two invokers with different keys have constant weights, and nothing was cached. -/
structure Steady (w : ι → ℕ) : Prop where
  two_le : 2 ≤ calls.invokers.length
  keys : (calls.invokers.map fun i => (calls.getURL i).key).Nodup
  weight : ∀ i ∈ calls.invokers, ∀ n,
    getWeightAt calls.quotient (calls.getURL i) calls.methodName (calls.times n).unix = w i
  pos : 0 < calls.totalWeight w
  bound : calls.invokers.length * calls.totalWeight w < 2 ^ 63
  empty : ∀ id, calls.cacheAt 0 id = none

variable {calls} {w : ι → ℕ}

theorem Steady.currentAt_zero (h : calls.Steady w) (i : ι) : calls.currentAt 0 i = 0 := by
  unfold currentAt currentOf
  rw [h.empty]
  rfl

variable [DecidableEq ι]

section

variable (h : calls.Steady w)

include h

theorem Steady.total_eq : total calls.invokers.toFinset w = calls.totalWeight w :=
  total_toFinset h.keys

theorem Steady.total_pos : 0 < total calls.invokers.toFinset w :=
  h.total_eq ▸ h.pos

/-- A call is a round of the scheduler with the credits of the cache. -/
theorem Steady.step {n : ℕ} (hcredit : Credits calls.getURL w calls.invokers (calls.cacheAt n) (calls.currentAt n))
    (hbal : Balanced calls.invokers.toFinset w (calls.currentAt n)) : ∃ x, calls.returned n = some x ∧
      Round calls.invokers.toFinset w (calls.currentAt n) x (calls.currentAt (n + 1)) ∧
      Credits calls.getURL w calls.invokers (calls.cacheAt (n + 1)) (calls.currentAt (n + 1)) ∧
      ∀ i ∈ calls.invokers, calls.cacheAt (n + 1) (calls.getURL i).key ≠ none := by
  obtain ⟨x, c', hret, hround, hcredit', hstored⟩ := select_round h.two_le h.keys
    (fun i hi => h.weight i hi n) h.pos h.bound hcredit hbal
  have heq : ∀ i ∈ calls.invokers, calls.currentAt (n + 1) i = c' i := fun i hi =>
    hcredit'.currentOf_eq hi
  exact ⟨x, hret, hround.congr fun i hi => heq i (mem_toFinset.1 hi), hcredit'.congr heq, hstored⟩

theorem Steady.credits (n : ℕ) : Credits calls.getURL w calls.invokers (calls.cacheAt n) (calls.currentAt n) ∧
      Balanced calls.invokers.toFinset w (calls.currentAt n) := by
  induction n with
  | zero =>
    exact ⟨⟨fun i _ => .inl ⟨h.empty _, h.currentAt_zero i⟩, fun id _ => h.empty id⟩,
      Balanced.of_zero h.total_pos fun i _ => h.currentAt_zero i⟩
  | succ n ih =>
    obtain ⟨x, -, hround, hcredit, -⟩ := h.step ih.1 ih.2
    exact ⟨hcredit, hround.balanced h.total_pos ih.2⟩

theorem Steady.exists_run : ∃ chosen : ℕ → ι, (∀ n, calls.returned n = some (chosen n)) ∧
      Run calls.invokers.toFinset w calls.currentAt chosen := by
  have hstep := fun n => h.step (h.credits n).1 (h.credits n).2
  choose chosen hret hround _ _ using hstep
  exact ⟨chosen, hret, fun i _ => h.currentAt_zero i, hround⟩

theorem Steady.cacheAt_ne_none_iff (n : ℕ) (id : Str) :
    calls.cacheAt (n + 1) id ≠ none ↔ id ∈ calls.invokers.map fun i => (calls.getURL i).key := by
  constructor
  · intro hid
    by_contra hmem
    exact hid ((h.credits (n + 1)).1.others id hmem)
  · intro hmem
    obtain ⟨i, hi, rfl⟩ := mem_map.1 hmem
    obtain ⟨x, -, -, -, hstored⟩ := h.step (h.credits n).1 (h.credits n).2
    exact hstored i hi

end

/-- In each period of as many calls as the total weight, every invoker is returned as often as its weight says.  After
each call the current weights sum to zero and lie between minus the total and its multiple by the number of invokers;
after each period they are zero. -/
theorem round_robin_exact (calls : Calls ι) (w : ι → ℕ) (h : calls.Steady w) : (∀ k, ∀ i ∈ calls.invokers,
      ((Finset.range (calls.totalWeight w)).filter fun j =>
        calls.returned (k * calls.totalWeight w + j) = some i).card = w i) ∧
    (∀ n id, calls.cacheAt (n + 1) id ≠ none ↔ id ∈ calls.invokers.map fun i => (calls.getURL i).key) ∧
    ∀ n, (calls.invokers.map (calls.currentAt n)).sum = 0 ∧
      (∀ i ∈ calls.invokers, -(calls.totalWeight w : ℤ) < calls.currentAt n i ∧
        calls.currentAt n i < calls.invokers.length * calls.totalWeight w) ∧
      (calls.totalWeight w ∣ n → ∀ i ∈ calls.invokers, calls.currentAt n i = 0) := by
  obtain ⟨chosen, hret, hrun⟩ := h.exists_run
  have hnodup : calls.invokers.Nodup := List.Nodup.of_map _ h.keys
  refine ⟨fun k i hi => ?_, h.cacheAt_ne_none_iff, fun n => ⟨?_, fun i hi => ?_, ?_⟩⟩
  · have hserved := hrun.served_period h.total_pos k i (mem_toFinset.2 hi)
    rw [h.total_eq] at hserved
    simp only [hret, Option.some.injEq]
    exact hserved
  · rw [← sum_toFinset _ hnodup]
    exact (hrun.balanced h.total_pos n).sum_eq
  · have hbal := hrun.balanced h.total_pos n
    have hlow := hbal.neg_total_lt i (mem_toFinset.2 hi)
    have hhigh := hbal.add_total_le (mem_toFinset.2 hi)
    have hpos : (0 : ℤ) < calls.totalWeight w := by exact_mod_cast h.pos
    rw [h.total_eq] at hlow hhigh
    rw [toFinset_card_of_nodup hnodup] at hhigh
    exact ⟨hlow, by linarith⟩
  · rintro ⟨k, rfl⟩ i hi
    have hzero := hrun.credit_period h.total_pos k i (mem_toFinset.2 hi)
    rw [h.total_eq, Nat.mul_comm] at hzero
    exact hzero

def pair : Calls Bool where
  quotient _ _ _ := 0
  getURL i :=
    { protocol := str "dubbo", username := [], password := []
      location := if i then str "192.168.1.2:20000" else str "192.168.1.1:20000"
      ip := if i then str "192.168.1.2" else str "192.168.1.1"
      port := str "20000", path := str "/org.apache.demo.HelloService"
      params := fun key =>
        if key = weightKey then some [if i then str "2" else str "1"] else none
      subURL := none }
  methodName := str "say"
  invokers := [false, true]
  times n := ⟨n, n * 10 ^ 9⟩
  start _ := none

theorem pair_steady : pair.Steady fun i => if i then 2 else 1 where
  two_le := by decide
  keys := by decide
  weight := by
    intro i _ n
    rw [getWeightAt_of_no_timestamp _ _ _ (by cases i <;> decide)]
    cases i <;> decide
  pos := by decide
  bound := by decide
  empty _ := rfl

theorem pair_exact :
    ((Finset.range (pair.totalWeight fun i => if i then 2 else 1)).filter fun j =>
      pair.returned (0 * (pair.totalWeight fun i => if i then 2 else 1) + j) = some true).card = 2 :=
  (round_robin_exact pair _ pair_steady).1 0 true (by decide)

/-- After any number of calls an invoker has been returned less than once more than its share, and fewer times less
than there are invokers. -/
theorem returned_near_share (h : calls.Steady w) (n : ℕ) {i : ι} (hi : i ∈ calls.invokers) :
    let k := ((Finset.range n).filter fun j => calls.returned j = some i).card
    calls.totalWeight w * k < n * w i + calls.totalWeight w ∧
      n * w i + calls.totalWeight w ≤ calls.totalWeight w * (k + calls.invokers.length) := by
  obtain ⟨chosen, hret, hrun⟩ := h.exists_run
  have hbal := hrun.balanced h.total_pos n
  have hlow := hbal.neg_total_lt i (mem_toFinset.2 hi)
  have hhigh := hbal.add_total_le (mem_toFinset.2 hi)
  rw [toFinset_card_of_nodup (List.Nodup.of_map _ h.keys)] at hhigh
  rw [hrun.credit_eq n i (mem_toFinset.2 hi), h.total_eq] at hlow hhigh
  simp only [hret, Option.some.injEq]
  change _ * served chosen i n < _ ∧ _ ≤ _ * (served chosen i n + _)
  zify
  constructor <;> linarith

theorem pair_near_share : 3 * ((Finset.range 2).filter fun j => pair.returned j = some true).card < 2 * 2 + 3 :=
  (returned_near_share pair_steady 2 (i := true) (by decide)).1

end Calls

end DubboGo.Cluster.RoundRobin
