import DubboGo.Common.ServiceURL
import DubboGo.Lib.KeyedLoop

/-!
# URLs as maps

`ToMap` and `IsEquals` of `common/url.go`.  `IsEquals` builds no map of the right URL: it walks through
the parameters of both, in whatever order `range` takes them, and counts those it has matched.
-/

namespace DubboGo.Common.ServiceURL

open Go Lib List

variable {u left right : ServiceURL} {excluded : List Str}

/-- A way for `RangeParams` to go through the parameters: every key once, with its first value. -/
structure Walk (u : ServiceURL) where
  order : List (Str × Str)
  coe_order : (order : Multiset (Str × Str)) = u.params.entries.entries.map fun e => (e.1, e.2.headD [])

instance Walk.nonempty (u : ServiceURL) : Nonempty u.Walk := ⟨⟨_, Multiset.coe_toList _⟩⟩

def override (key value : Str) (m : FiniteMap Str Str) : FiniteMap Str Str :=
  if value ≠ [] then m.insert key value else m

/-- `ToMap`, with the way in which it goes through the parameters. -/
def toMap (u : ServiceURL) (walk : u.Walk) : FiniteMap Str Str :=
  let m := walk.order.foldl (fun m e => m.insert e.1 e.2) ∅
  let m := override URL.protocolKey u.protocol m
  let m := override URL.usernameKey u.username m
  let m := override URL.passwordKey u.password m
  let m :=
    if u.location ≠ [] then
      (m.insert URL.hostKey (URL.parseLocation u.location).1).insert URL.portKey (URL.parseLocation u.location).2
    else m
  override URL.pathKey u.path m

/-- The parameters that `equalParams` skips. -/
def IsSkipped (excluded : List Str) (key : Str) : Prop := key ∈ reservedKeyList ∨ key ∈ excluded

instance IsSkipped.decidable (excluded : List Str) (key : Str) : Decidable (IsSkipped excluded key) :=
  inferInstanceAs (Decidable (_ ∨ _))

def leftParams (excluded : List Str) (range : List (Str × Str)) : FiniteMap Str Str :=
  range.foldl (fun m e => if IsSkipped excluded e.1 then m else m.insert e.1 e.2) ∅

/-- The loop over the right URL: how many parameters it has compared, or `none` where one differs. -/
def matchParams (leftParams : FiniteMap Str Str) (excluded : List Str) : List (Str × Str) → ℕ → Option ℕ
  | [], rightCount => some rightCount
  | e :: range, rightCount =>
    if IsSkipped excluded e.1 then matchParams leftParams excluded range rightCount
    else if leftParams.lookup e.1 = some e.2 then
      matchParams leftParams excluded range (rightCount + 1)
    else none

/-- `equalParams`, with the ways in which it goes through the parameters. -/
def equalParamsWalking (leftWalk : left.Walk) (rightWalk : right.Walk) (excluded : List Str) : Bool :=
  let leftParams := leftParams excluded leftWalk.order
  matchParams leftParams excluded rightWalk.order 0 == some leftParams.keys.card

/-- `IsEquals`, with the ways in which it goes through the parameters. -/
def isEqualsWalking (leftWalk : left.Walk) (rightWalk : right.Walk) (excludes : List Str) : Bool :=
  left.ip == right.ip && left.port == right.port && equalReservedKeys left right excludes &&
    equalParamsWalking leftWalk rightWalk excludes

/-! ## Going through the parameters -/

namespace Walk

variable (w : u.Walk)

theorem mem_iff {k v : Str} : (k, v) ∈ w.order ↔ u.rawParam k = some v := by
  rw [← Multiset.mem_coe, w.coe_order, Multiset.mem_map]
  unfold rawParam Params.values
  constructor
  · rintro ⟨⟨k', vs⟩, hmem, heq⟩
    cases heq
    have hlookup := Finmap.lookup_eq_some_iff.2 hmem
    rw [hlookup, Option.bind_some]
    cases vs with
    | nil => exact absurd hlookup (u.params.ne_nil k')
    | cons v vs => rfl
  · intro hraw
    obtain ⟨vs, hlookup, hhead⟩ := Option.bind_eq_some_iff.1 hraw
    refine ⟨⟨k, vs⟩, Finmap.lookup_eq_some_iff.1 hlookup, ?_⟩
    rw [headD_eq_head?_getD, hhead]
    rfl

theorem nodup_keys : (w.order.map Prod.fst).Nodup := by
  have hkeys : ((w.order.map Prod.fst : List Str) : Multiset Str) = u.params.entries.keys.val := by
    rw [← Multiset.map_coe, w.coe_order, Multiset.map_map]
    rfl
  rw [← Multiset.coe_nodup, hkeys]
  exact u.params.entries.keys.nodup

end Walk

theorem lookup_foldl_insert (skip : Str → Prop) [DecidablePred skip] (w : u.Walk) (k : Str) :
    (w.order.foldl (fun m e => if skip e.1 then m else m.insert e.1 e.2) (∅ : FiniteMap Str Str)).lookup k =
      if skip k then none else u.rawParam k := by
  have hself : ∀ (m : FiniteMap Str Str) (e : Str × Str),
      (if skip e.1 then m else m.insert e.1 e.2).lookup e.1 =
        if skip e.1 then m.lookup e.1 else some e.2 := by
    intro m e
    split_ifs
    · rfl
    · exact Finmap.lookup_insert m
  have hother : ∀ (m : FiniteMap Str Str) (e : Str × Str) (k : Str), k ≠ e.1 →
      (if skip e.1 then m else m.insert e.1 e.2).lookup k = m.lookup k := by
    intro m e k hk
    split_ifs
    · rfl
    · exact Finmap.lookup_insert_of_ne m hk
  cases hraw : u.rawParam k with
  | some v =>
    exact observe_foldl_of_mem (fun (m : FiniteMap Str Str) k => m.lookup k) _
      (fun k old v => if skip k then old else some v) hself hother w.nodup_keys (w.mem_iff.2 hraw) ∅
  | none =>
    have hnone : ∀ v, (k, v) ∉ w.order := by
      intro v hmem
      rw [w.mem_iff.1 hmem] at hraw
      cases hraw
    rw [ite_self]
    exact observe_foldl_of_not_mem (fun (m : FiniteMap Str Str) k => m.lookup k) _ hother hnone ∅

/-! ## The map of a URL -/

theorem lookup_override (key value : Str) (m : FiniteMap Str Str) (k : Str) :
    (override key value m).lookup k = if k = key ∧ value ≠ [] then some value else m.lookup k := by
  unfold override
  by_cases hvalue : value = []
  · simp [hvalue]
  · rw [if_pos hvalue, FiniteMap.lookup_insert]
    simp [hvalue]

theorem lookup_toMap (w : u.Walk) (k : Str) : (u.toMap w).lookup k = u.effectiveReserved k := by
  have hparams : (w.order.foldl (fun m e => m.insert e.1 e.2) (∅ : FiniteMap Str Str)).lookup k = u.rawParam k := by
    have hfilled := lookup_foldl_insert (fun _ => False) w k
    exact hfilled
  have hlocation : ∀ m : FiniteMap Str Str, (if u.location ≠ [] then
      (m.insert URL.hostKey (URL.parseLocation u.location).1).insert URL.portKey
        (URL.parseLocation u.location).2 else m).lookup k =
      if k = URL.portKey ∧ u.location ≠ [] then some (URL.parseLocation u.location).2
      else if k = URL.hostKey ∧ u.location ≠ [] then some (URL.parseLocation u.location).1
      else m.lookup k := by
    intro m
    by_cases hlocation : u.location = []
    · simp [hlocation]
    · rw [if_pos hlocation, FiniteMap.lookup_insert, FiniteMap.lookup_insert]
      simp [hlocation]
  unfold toMap effectiveReserved
  rw [lookup_override, hlocation, lookup_override, lookup_override, lookup_override, hparams]
  -- the keys differ, so that at most one of the fields is asked for
  by_cases hprotocol : k = URL.protocolKey
  · simp +decide [hprotocol]
  by_cases husername : k = URL.usernameKey
  · simp +decide [husername]
  by_cases hpassword : k = URL.passwordKey
  · simp +decide [hpassword]
  by_cases hpath : k = URL.pathKey
  · simp +decide [hpath]
  by_cases hhost : k = URL.hostKey
  · simp +decide [hhost]
  · simp only [hprotocol, husername, hpassword, hpath, hhost, false_and, if_false]

/-! ## Comparing -/

theorem mem_comparedKeys {key : Str} :
    key ∈ u.comparedKeys excluded ↔ (u.rawParam key).isSome ∧ ¬ IsSkipped excluded key := by
  rw [comparedKeys, Finset.mem_filter, Params.mem_keys, IsSkipped, not_or, rawParam]
  have hhead : (u.params.values key).isSome ↔ ((u.params.values key).bind head?).isSome := by
    cases hvalues : u.params.values key with
    | none => rfl
    | some vs =>
      cases vs with
      | nil => exact absurd hvalues (u.params.ne_nil key)
      | cons v vs => rfl
  rw [hhead]

theorem equalReservedKeys_iff : equalReservedKeys left right excluded = true ↔
    ∀ key ∈ reservedKeyList, key ∉ excluded → left.effectiveReserved key = right.effectiveReserved key := by
  rw [equalReservedKeys, all_eq_true]
  simp only [Bool.or_eq_true, contains_iff_mem, beq_iff_eq, or_iff_not_imp_left]

theorem equalParams_iff : equalParams left right excluded = true ↔
    ∀ key, ¬ IsSkipped excluded key → left.rawParam key = right.rawParam key := by
  rw [equalParams, Bool.and_eq_true, decide_eq_true_iff, beq_iff_eq]
  constructor
  · rintro ⟨hall, hcard⟩ key hkey
    have hsub : right.comparedKeys excluded ⊆ left.comparedKeys excluded := fun key hmem => (hall key hmem).1
    have hkeys := Finset.eq_of_subset_of_card_le hsub hcard.ge
    by_cases hmem : key ∈ right.comparedKeys excluded
    · exact (hall key hmem).2
    · have hright : right.rawParam key = none := by
        by_contra hsome
        exact hmem (mem_comparedKeys.2 ⟨Option.isSome_iff_ne_none.2 hsome, hkey⟩)
      have hleft : left.rawParam key = none := by
        by_contra hsome
        rw [hkeys] at hmem
        exact hmem (mem_comparedKeys.2 ⟨Option.isSome_iff_ne_none.2 hsome, hkey⟩)
      rw [hleft, hright]
  · intro hall
    have hkeys : right.comparedKeys excluded = left.comparedKeys excluded := by
      ext key
      rw [mem_comparedKeys, mem_comparedKeys]
      constructor
      · rintro ⟨hsome, hkey⟩
        exact ⟨hall key hkey ▸ hsome, hkey⟩
      · rintro ⟨hsome, hkey⟩
        exact ⟨hall key hkey ▸ hsome, hkey⟩
    refine ⟨?_, congrArg Finset.card hkeys⟩
    intro key hmem
    exact ⟨hkeys ▸ hmem, hall key (mem_comparedKeys.1 hmem).2⟩

theorem isEquals_iff : isEquals left right excluded = true ↔ left.ip = right.ip ∧ left.port = right.port ∧
    ∀ key ∉ excluded, left.effectiveReserved key = right.effectiveReserved key := by
  have hplain : ∀ (u : ServiceURL) (key : Str), key ∉ reservedKeyList → u.effectiveReserved key = u.rawParam key := by
    intro u key hkey
    simp only [reservedKeyList, mem_cons, not_mem_nil, or_false, not_or] at hkey
    simp [effectiveReserved, hkey]
  rw [isEquals, Bool.and_eq_true, Bool.and_eq_true, Bool.and_eq_true, beq_iff_eq, beq_iff_eq, and_assoc,
    and_assoc, equalReservedKeys_iff, equalParams_iff]
  refine and_congr_right fun _ => and_congr_right fun _ => ?_
  constructor
  · rintro ⟨hreserved, hparams⟩ key hkey
    by_cases hres : key ∈ reservedKeyList
    · exact hreserved key hres hkey
    · rw [hplain left key hres, hplain right key hres]
      exact hparams key fun hskip => hskip.elim hres hkey
  · intro hall
    refine ⟨fun key _ hkey => hall key hkey, ?_⟩
    intro key hskip
    obtain ⟨hres, hkey⟩ := not_or.1 hskip
    rw [← hplain left key hres, ← hplain right key hres]
    exact hall key hkey

/-! ## The loops -/

theorem lookup_leftParams (w : left.Walk) (key : Str) :
    (leftParams excluded w.order).lookup key =
      if IsSkipped excluded key then none else left.rawParam key := by
  rw [leftParams, lookup_foldl_insert (IsSkipped excluded)]

theorem keys_leftParams (w : left.Walk) : (leftParams excluded w.order).keys = left.comparedKeys excluded := by
  ext key
  rw [Finmap.mem_keys, ← Finmap.lookup_isSome, lookup_leftParams w, mem_comparedKeys]
  split_ifs with hskip
  · simp [hskip]
  · simp [hskip]

def compared (excluded : List Str) (range : List (Str × Str)) : List (Str × Str) :=
  range.filter fun e => ¬ IsSkipped excluded e.1

theorem matchParams_eq (m : FiniteMap Str Str) (range : List (Str × Str)) (rightCount : ℕ) :
    matchParams m excluded range rightCount =
      if ∀ e ∈ compared excluded range, m.lookup e.1 = some e.2 then
        some (rightCount + (compared excluded range).length)
      else none := by
  induction range generalizing rightCount with
  | nil => simp [matchParams, compared]
  | cons e range ih =>
    rw [matchParams]
    by_cases hskip : IsSkipped excluded e.1
    · have hsame : compared excluded (e :: range) = compared excluded range :=
        filter_cons_of_neg (by simpa using hskip)
      rw [if_pos hskip, ih, hsame]
    · have hcons : compared excluded (e :: range) = e :: compared excluded range :=
        filter_cons_of_pos (by simpa using hskip)
      rw [if_neg hskip, hcons, length_cons]
      by_cases heq : m.lookup e.1 = some e.2
      · rw [if_pos heq, ih]
        simp only [forall_mem_cons, heq, true_and, Nat.add_assoc, Nat.add_comm 1]
      · rw [if_neg heq, if_neg fun hall => heq (hall e mem_cons_self)]

theorem mem_compared (w : right.Walk) {k v : Str} :
    (k, v) ∈ compared excluded w.order ↔ right.rawParam k = some v ∧ ¬ IsSkipped excluded k := by
  rw [compared, mem_filter, w.mem_iff, decide_eq_true_iff]

theorem length_compared (w : right.Walk) :
    (compared excluded w.order).length = (right.comparedKeys excluded).card := by
  have hnodup : ((compared excluded w.order).map Prod.fst).Nodup :=
    w.nodup_keys.sublist (filter_sublist.map Prod.fst)
  have hkeys : ((compared excluded w.order).map Prod.fst).toFinset = right.comparedKeys excluded := by
    ext key
    rw [mem_toFinset, mem_map, mem_comparedKeys, Option.isSome_iff_exists]
    constructor
    · rintro ⟨⟨k, v⟩, hmem, rfl⟩
      obtain ⟨hraw, hskip⟩ := (mem_compared w).1 hmem
      exact ⟨⟨v, hraw⟩, hskip⟩
    · rintro ⟨⟨v, hraw⟩, hskip⟩
      exact ⟨(key, v), (mem_compared w).2 ⟨hraw, hskip⟩, rfl⟩
  rw [← hkeys, toFinset_card_of_nodup hnodup, length_map]

theorem equalParamsWalking_eq (lw : left.Walk) (rightWalk : right.Walk) :
    equalParamsWalking lw rightWalk excluded = equalParams left right excluded := by
  have hall : (∀ e ∈ compared excluded rightWalk.order, (leftParams excluded lw.order).lookup e.1 = some e.2) ↔
      ∀ key ∈ right.comparedKeys excluded, key ∈ left.comparedKeys excluded ∧
        left.rawParam key = right.rawParam key := by
    constructor
    · intro hall key hmem
      obtain ⟨hsome, hskip⟩ := mem_comparedKeys.1 hmem
      obtain ⟨v, hraw⟩ := Option.isSome_iff_exists.1 hsome
      have hlookup := hall (key, v) ((mem_compared rightWalk).2 ⟨hraw, hskip⟩)
      rw [lookup_leftParams lw, if_neg hskip] at hlookup
      refine ⟨mem_comparedKeys.2 ⟨?_, hskip⟩, hlookup.trans hraw.symm⟩
      rw [hlookup]
      rfl
    · rintro hall ⟨k, v⟩ hmem
      obtain ⟨hraw, hskip⟩ := (mem_compared rightWalk).1 hmem
      have hkey : k ∈ right.comparedKeys excluded := by
        refine mem_comparedKeys.2 ⟨?_, hskip⟩
        rw [hraw]
        rfl
      rw [lookup_leftParams lw, if_neg hskip, (hall k hkey).2]
      exact hraw
  unfold equalParamsWalking equalParams
  dsimp only
  rw [matchParams_eq, Nat.zero_add, length_compared rightWalk, keys_leftParams lw]
  by_cases h : ∀ e ∈ compared excluded rightWalk.order, (leftParams excluded lw.order).lookup e.1 = some e.2
  · rw [if_pos h, decide_eq_true (hall.1 h), Bool.true_and]
    rfl
  · rw [if_neg h, decide_eq_false fun h' => h (hall.2 h'), Bool.false_and]
    rfl

theorem isEqualsWalking_eq (lw : left.Walk) (rightWalk : right.Walk) :
    isEqualsWalking lw rightWalk excluded = isEquals left right excluded := by
  rw [isEqualsWalking, equalParamsWalking_eq, isEquals]

/-- The comparison is equality of the addresses and of the maps outside the excluded keys, whatever ways
the loops take through the parameters; so it is symmetric and transitive. -/
theorem isEquals_iff_toMap (excludes : List Str) :
    (∀ (left right : ServiceURL) (leftWalk leftWalk' : left.Walk) (rightWalk rightWalk' : right.Walk),
      isEqualsWalking leftWalk rightWalk excludes = true ↔ left.ip = right.ip ∧ left.port = right.port ∧
          ∀ key ∉ excludes, (left.toMap leftWalk').lookup key = (right.toMap rightWalk').lookup key) ∧
    (∀ (left right : ServiceURL) (leftWalk leftWalk' : left.Walk) (rightWalk rightWalk' : right.Walk),
      isEqualsWalking leftWalk rightWalk excludes = true → isEqualsWalking rightWalk' leftWalk' excludes = true) ∧
    (∀ (left middle right : ServiceURL) (leftWalk leftWalk' : left.Walk)
      (middleWalk middleWalk' : middle.Walk) (rightWalk rightWalk' : right.Walk),
      isEqualsWalking leftWalk middleWalk excludes = true → isEqualsWalking middleWalk' rightWalk excludes = true →
        isEqualsWalking leftWalk' rightWalk' excludes = true) := by
  simp only [isEqualsWalking_eq, isEquals_iff, lookup_toMap]
  refine ⟨fun _ _ _ _ _ _ => trivial, ?_, ?_⟩
  · rintro left right - - - - ⟨hip, hport, hkeys⟩
    exact ⟨hip.symm, hport.symm, fun key hkey => (hkeys key hkey).symm⟩
  · rintro left middle right - - - - - - ⟨hip, hport, hkeys⟩ ⟨hip', hport', hkeys'⟩
    exact ⟨hip.trans hip', hport.trans hport', fun key hkey => (hkeys key hkey).trans (hkeys' key hkey)⟩

end DubboGo.Common.ServiceURL
