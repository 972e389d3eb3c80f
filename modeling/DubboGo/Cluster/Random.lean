import DubboGo.Cluster.Weight
import DubboGo.Lib.WeightedDraw

/-!
# Weighted random load balancing

`randomLoadBalance.Select` of `cluster/loadbalance/random/loadbalance.go`.
-/

namespace DubboGo.Cluster.Random

open Go Common Lib List

/-- The variables of the loop of `Select`; `weights` are running totals. -/
structure Totals where
  totalWeight : ℤ
  weights : List ℤ
  sameWeight : Bool

def Totals.add (t : Totals) (weight : ℤ) : Totals :=
  let totalWeight := int64 (t.totalWeight + weight)
  ⟨totalWeight, t.weights ++ [totalWeight],
    t.sameWeight && decide (totalWeight = int64 (weight * (t.weights.length + 1 : ℕ)))⟩

def totals (weights : List ℤ) : Totals := weights.foldl Totals.add ⟨0, [], true⟩

/-- The position of the invoker that `Select` returns, where `offset` is what `rand.Int63n` draws from the total
weight, and `index` what `rand.Intn` draws from the invokers. -/
def select {ι : Type} (quotient : Quotient) (getURL : ι → URL) (invokers : List ι) (methodName : Str) (now : ℤ)
    (offset index : ℕ) : ℕ :=
  if invokers.length = 1 then 0
  else
    let t := totals (invokers.map fun i => getWeightAt quotient (getURL i) methodName now)
    if 0 < t.totalWeight ∧ t.sameWeight = false then
      (t.weights.findIdx? fun total => decide ((offset : ℤ) < total)).getD index
    else index

variable {w : List ℕ}

/-- Every running total is what the product of the weight with its place in the list gives in `int64`. -/
def LooksSame (w : List ℕ) : Prop :=
  ∀ i, (h : i < w.length) → ((w.take (i + 1)).sum : ℤ) = int64 (w[i] * (i + 1 : ℕ))

theorem sum_of_all_eq {a : ℕ} (h : ∀ b ∈ w, b = a) : w.sum = w.length * a := by
  rw [eq_replicate_of_mem h]
  simp

theorem looksSame_of_all_eq (hsum : w.sum < 2 ^ 63) (h : ∀ a ∈ w, ∀ b ∈ w, a = b) : LooksSame w := by
  intro i hi
  have htake : (w.take (i + 1)).sum = (i + 1) * w[i] := by
    rw [sum_of_all_eq fun b hb => h b (mem_of_mem_take hb) w[i] (getElem_mem hi), length_take,
      min_eq_left (Nat.succ_le_of_lt hi)]
  have hle := sum_take_succ_le w i
  have hcast : (w[i] : ℤ) * (i + 1 : ℕ) = ((w.take (i + 1)).sum : ℕ) := by
    rw [htake]
    push_cast
    ring
  rw [hcast, int64_of_bounds (by omega) (by omega)]

/-- The variables after the loop. -/
theorem totals_spec (hsum : w.sum < 2 ^ 63) : (totals (w.map Nat.cast)).totalWeight = w.sum ∧
      (totals (w.map Nat.cast)).weights = (range w.length).map (fun i => ((w.take (i + 1)).sum : ℤ)) ∧
      ((totals (w.map Nat.cast)).sameWeight = true ↔ LooksSame w) := by
  induction w using reverseRecOn with
  | nil => simp [totals, LooksSame]
  | append_singleton w x ih =>
    rw [sum_append, sum_singleton] at hsum ⊢
    obtain ⟨htotal, hweights, hsame⟩ := ih (by omega)
    have hadd : totals ((w ++ [x]).map Nat.cast) = (totals (w.map Nat.cast)).add x := by simp [totals]
    have htake : ∀ i < w.length, (w ++ [x]).take (i + 1) = w.take (i + 1) := fun i hi =>
      take_append_of_le_length (Nat.succ_le_of_lt hi)
    rw [hadd, Totals.add, htotal, hweights]
    dsimp only
    rw [length_map, length_range, int64_of_bounds (by omega) (by omega), Bool.and_eq_true, hsame, decide_eq_true_eq]
    refine ⟨by simp, ?_, ?_⟩
    · have hbefore : ∀ i ∈ range w.length, (((w ++ [x]).take (i + 1)).sum : ℤ) = ((w.take (i + 1)).sum : ℤ) :=
        fun i hi => by rw [htake i (mem_range.1 hi)]
      rw [length_append, length_singleton, range_succ, map_append, map_congr_left hbefore]
      simp
    · constructor
      · rintro ⟨hbefore, hlast⟩ i hi
        rcases Nat.lt_or_ge i w.length with hlt | hge
        · rw [htake i hlt, getElem_append_left hlt]
          exact hbefore i hlt
        · obtain rfl : i = w.length := by simp at hi; omega
          simpa using hlast
      · refine fun h => ⟨fun i hi => ?_, ?_⟩
        · have hboth := h i (by simp; omega)
          rwa [htake i hi, getElem_append_left hi] at hboth
        · simpa using h w.length (by simp)

theorem findIdx?_totals {d : ℕ} (h : w.sum < 2 ^ 63) (hd : d < w.sum) :
    ((totals (w.map Nat.cast)).weights.findIdx? fun total => decide ((d : ℤ) < total)) = slot w d := by
  obtain ⟨i, hi⟩ := Option.ne_none_iff_exists'.1 fun hnone => not_le.2 hd (slot_eq_none_iff.1 hnone)
  have hbetween := slot_eq_some_iff.1 hi
  rw [hi, (totals_spec h).2.1, findIdx?_eq_some_iff_getElem]
  refine ⟨by simpa using lt_length_of_slot hi, ?_, fun j hj => ?_⟩ <;>
    simp only [getElem_map, getElem_range, decide_eq_true_eq, Nat.cast_lt]
  · exact hbetween.2
  have hle : (w.take (j + 1)).sum ≤ (w.take i).sum :=
    (take_sublist_take_left (show j + 1 ≤ i from hj)).sum_le_sum fun _ _ => Nat.zero_le _
  omega

variable {ι : Type} {quotient : Quotient} {getURL : ι → URL} {invokers : List ι} {methodName : Str} {now : ℤ}

/-- Every invoker has as many offsets as its weight is, with equal weights the index is drawn, and the flag says which
of the two it is, exactly if the weights are equal or some running total is not the product in `int64`. -/
theorem select_proportional
    (hw : (invokers.map fun i => getWeightAt quotient (getURL i) methodName now) = w.map Nat.cast)
    (hlength : 2 ≤ invokers.length) (hsum : w.sum < 2 ^ 63) :
    (((totals (w.map Nat.cast)).sameWeight = true ↔ ∀ a ∈ w, ∀ b ∈ w, a = b) ∧
      ((¬∀ a ∈ w, ∀ b ∈ w, a = b) → 0 < w.sum → ∀ index i x, w[i]? = some x →
        ((Finset.range w.sum).filter fun offset =>
          select quotient getURL invokers methodName now offset index = i).card = x) ∧
      ((∀ a ∈ w, ∀ b ∈ w, a = b) ∨ w.sum = 0 →
        ∀ offset index, select quotient getURL invokers methodName now offset index = index)) ↔
      (∀ a ∈ w, ∀ b ∈ w, a = b) ∨
        ∃ i, ∃ h : i < w.length, ((w.take (i + 1)).sum : ℤ) ≠ int64 (w[i] * (i + 1 : ℕ)) := by
  obtain ⟨htotal, -, hlooks⟩ := totals_spec hsum
  constructor
  · rintro ⟨hsame, -, -⟩
    by_contra hnone
    rw [not_or] at hnone
    refine hnone.1 (hsame.1 (hlooks.2 fun i hi => ?_))
    by_contra hne
    exact hnone.2 ⟨i, hi, hne⟩
  intro hcondition
  have hsame : (totals (w.map Nat.cast)).sameWeight = true ↔ ∀ a ∈ w, ∀ b ∈ w, a = b := by
    refine hlooks.trans ⟨fun h => ?_, looksSame_of_all_eq hsum⟩
    exact hcondition.resolve_right fun ⟨i, hi, hne⟩ => hne (h i hi)
  have hselect : ∀ offset index, select quotient getURL invokers methodName now offset index =
      if 0 < w.sum ∧ ¬∀ a ∈ w, ∀ b ∈ w, a = b then
        ((totals (w.map Nat.cast)).weights.findIdx? fun total => decide ((offset : ℤ) < total)).getD index
      else index := by
    intro offset index
    rw [select, if_neg (by omega), hw]
    dsimp only
    simp only [htotal, ← hsame, Bool.not_eq_true, Nat.cast_pos]
  refine ⟨hsame, fun hdiffer hpos index i x hx => ?_, fun hequal offset index => ?_⟩
  · have hslot : ∀ d < w.sum, select quotient getURL invokers methodName now d index = i ↔
        (w.take i).sum ≤ d ∧ d < (w.take (i + 1)).sum := by
      intro d hd
      obtain ⟨j, hj⟩ := Option.ne_none_iff_exists'.1 fun hno => not_le.2 hd (slot_eq_none_iff.1 hno)
      rw [hselect, if_pos ⟨hpos, hdiffer⟩, findIdx?_totals hsum hd, ← slot_eq_some_iff, hj]
      simp
    obtain ⟨hi, rfl⟩ := List.getElem?_eq_some_iff.1 hx
    rw [card_filter_range _ hslot (sum_take_succ_le w i), List.sum_take_succ w i hi, Nat.add_sub_cancel_left]
  · rw [hselect, if_neg]
    rintro ⟨hpos, hdiffer⟩
    exact hequal.elim hdiffer hpos.ne'

theorem select_proportional_pair :
    ((Finset.range 3).filter fun offset =>
      select exactQuotient weightedURL [1, 2] (str "say") 0 offset 0 = 1).card = 2 :=
  ((select_proportional (w := [1, 2]) (by simp [getWeightAt_weightedURL]) le_rfl (by decide)).2
    (.inr ⟨1, by decide, by decide⟩)).2.1 (by decide) (by decide) 0 1 2 rfl

/-- The last one of five invokers has the whole weight, but the product of its weight with 5 overflows to the same
number, so all are drawn alike. -/
theorem product_overflows :
    ([0, 0, 0, 0, 2 ^ 62].map fun i => getWeightAt exactQuotient (weightedURL i) (str "say") 0) =
        [0, 0, 0, 0, 2 ^ 62] ∧
      (totals [0, 0, 0, 0, 2 ^ 62]).sameWeight = true ∧
      ∀ offset index, select exactQuotient weightedURL [0, 0, 0, 0, 2 ^ 62] (str "say") 0 offset index = index := by
  have hweights : ([0, 0, 0, 0, 2 ^ 62].map fun i => getWeightAt exactQuotient (weightedURL i) (str "say") 0) =
      [0, 0, 0, 0, 2 ^ 62] := by
    simp [getWeightAt_weightedURL]
  have hsame : (totals [0, 0, 0, 0, 2 ^ 62]).sameWeight = true := by decide
  refine ⟨hweights, hsame, fun offset index => ?_⟩
  rw [select, if_neg (by decide), hweights]
  dsimp only
  rw [if_neg (by rw [hsame]; simp)]

end DubboGo.Cluster.Random
