import DubboGo.Common.Params
import DubboGo.Go.NetURL

/-!
# Parameters as a query

`Values.Encode` and `ParseQuery` of `net/url`.  The query of parameters whose bytes need no escapes is read back as
these parameters, without having been escaped (`parseQuery_rawQuery`).
-/

namespace DubboGo.Common

open Go Lib NetURL List Function

def bytewise (s t : Str) : Prop := s.map UInt8.toNat ≤ t.map UInt8.toNat

instance decidableBytewise : DecidableRel bytewise := fun _ _ => inferInstanceAs (Decidable (_ ≤ _))

instance isTransBytewise : IsTrans Str bytewise := ⟨fun _ _ _ h h' => le_trans h h'⟩

instance antisymmBytewise : Std.Antisymm bytewise where
  antisymm _ _ h h' := (List.map_injective_iff.2 fun _ _ => UInt8.toNat_inj.1) (le_antisymm h h')

instance totalBytewise : Std.Total bytewise := ⟨fun _ _ => le_total _ _⟩

namespace Params

variable (p : Params)

def add (k v : Str) : Params where
  entries := p.entries.insert k ((p.entries.lookup k).getD [] ++ [v])
  ne_nil := by
    intro k'
    rw [FiniteMap.lookup_insert]
    split_ifs
    · simp
    · exact p.ne_nil k'

def addAll (pairs : List (Str × Str)) : Params := pairs.foldl (fun p e => p.add e.1 e.2) p

/-- The keys as `sort.Strings` orders them. -/
def sortedKeys : List Str := p.keys.sort bytewise

/-- The keys and values in the order of `Encode`. -/
def pairs : List (Str × Str) :=
  p.sortedKeys.flatMap fun k => ((p.values k).getD []).map fun v => (k, v)

def encode : Str := [38].intercalate (p.pairs.map fun e => queryEscape e.1 ++ 61 :: queryEscape e.2)

def rawQuery : Str := [38].intercalate (p.pairs.map fun e => e.1 ++ 61 :: e.2)

end Params

/-- One part of a query.  Errors do not end the loop; a semicolon hides an error before it. -/
def parsePart (state : Params × Option Err) (part : Str) : Params × Option Err :=
  if 59 ∈ part then (state.1, some .semicolon)
  else if part = [] then state
  else
    let (key, value) := (cut [61] part).getD (part, [])
    match queryUnescape key with
    | .error e => (state.1, state.2.or (some e))
    | .ok key =>
      match queryUnescape value with
      | .error e => (state.1, state.2.or (some e))
      | .ok value => (state.1.add key value, state.2)

def parseQuery (query : Str) : Params × Option Err := (query.splitOn 38).foldl parsePart (.empty, none)

namespace Params

/-! ## The pairs of parameters -/

variable {p : Params} {k : Str} {l : List Str} {e : Str × Str} {c : UInt8}

@[simp]
theorem values_add (k v : Str) : (p.add k v).values = update p.values k (some ((p.values k).getD [] ++ [v])) := by
  funext k'
  rw [update_apply]
  exact FiniteMap.lookup_insert _ k _ k'

theorem values_empty (k : Str) : empty.values k = none := Finmap.lookup_empty k

def valuesOf (k : Str) (pairs : List (Str × Str)) : List Str := (pairs.filter fun e => e.1 = k).map Prod.snd

theorem values_addAll (pairs : List (Str × Str)) (k : Str) :
    (p.addAll pairs).values k =
      if valuesOf k pairs = [] then p.values k else some ((p.values k).getD [] ++ valuesOf k pairs) := by
  induction pairs generalizing p with
  | nil => rfl
  | cons e pairs ih =>
    have hcons : p.addAll (e :: pairs) = (p.add e.1 e.2).addAll pairs := rfl
    rw [hcons, ih, values_add]
    by_cases hk : e.1 = k
    · subst hk
      have hvalues : valuesOf e.1 (e :: pairs) = e.2 :: valuesOf e.1 pairs := by simp [valuesOf]
      rw [hvalues, update_self, if_neg (cons_ne_nil _ _)]
      split_ifs with hnil
      · rw [hnil]
      · rw [Option.getD_some, append_assoc]
        rfl
    · have hvalues : valuesOf k (e :: pairs) = valuesOf k pairs := by simp [valuesOf, hk]
      rw [hvalues, update_of_ne (Ne.symm hk)]

theorem valuesOf_flatMap {keys : List Str} (hnodup : keys.Nodup) (vals : Str → List Str) (k : Str) :
    valuesOf k (keys.flatMap fun k => (vals k).map fun v => (k, v)) = if k ∈ keys then vals k else [] := by
  have hself : ∀ (k' : Str) (vs : List Str), valuesOf k (vs.map fun v => (k', v)) = if k = k' then vs else [] := by
    intro k' vs
    unfold valuesOf
    rw [filter_map, map_map]
    split_ifs with hk
    · have hall : vs.filter ((fun e : Str × Str => decide (e.1 = k)) ∘ fun v => (k', v)) = vs :=
        filter_eq_self.2 fun v _ => decide_eq_true hk.symm
      rw [hall]
      exact map_id' vs
    · have hnone : vs.filter ((fun e : Str × Str => decide (e.1 = k)) ∘ fun v => (k', v)) = [] :=
        filter_eq_nil_iff.2 fun v _ heq => hk (of_decide_eq_true heq).symm
      rw [hnone]
      rfl
  induction keys with
  | nil => rfl
  | cons k' keys ih =>
    obtain ⟨hnot, hnodup⟩ := nodup_cons.1 hnodup
    have happend : ∀ l l', valuesOf k (l ++ l') = valuesOf k l ++ valuesOf k l' := by
      intro l l'
      unfold valuesOf
      rw [filter_append, map_append]
    rw [flatMap_cons, happend, hself, ih hnodup]
    by_cases hk : k = k'
    · subst hk
      rw [if_pos rfl, if_neg hnot, if_pos mem_cons_self, append_nil]
    · rw [if_neg hk, nil_append]
      simp only [mem_cons, hk, false_or]

theorem nodup_sortedKeys (p : Params) : p.sortedKeys.Nodup := Finset.sort_nodup _ _

theorem mem_sortedKeys : k ∈ p.sortedKeys ↔ (p.values k).isSome := by
  rw [sortedKeys, Finset.mem_sort, mem_keys]

theorem sortedKeys_eq (hkeys : p.keys = l.toFinset) (hnodup : l.Nodup) (hsorted : l.Pairwise bytewise) :
    p.sortedKeys = l := by
  rw [sortedKeys, hkeys]
  exact (toFinset_sort bytewise hnodup).2 hsorted

theorem mem_pairs : e ∈ p.pairs ↔ ∃ vs, p.values e.1 = some vs ∧ e.2 ∈ vs := by
  obtain ⟨k, v⟩ := e
  unfold pairs
  rw [mem_flatMap]
  constructor
  · rintro ⟨k', hk', hmem⟩
    obtain ⟨v', hv', heq⟩ := mem_map.1 hmem
    cases heq
    obtain ⟨vs, hvs⟩ := Option.isSome_iff_exists.1 (mem_sortedKeys.1 hk')
    rw [hvs] at hv'
    exact ⟨vs, hvs, hv'⟩
  · rintro ⟨vs, hvs, hv⟩
    refine ⟨k, mem_sortedKeys.2 (by rw [hvs]; rfl), mem_map.2 ⟨v, ?_, rfl⟩⟩
    rw [hvs]
    exact hv

theorem mem_pairs_add {v : Str} : e ∈ (p.add k v).pairs ↔ e = (k, v) ∨ e ∈ p.pairs := by
  obtain ⟨k', v'⟩ := e
  rw [mem_pairs, mem_pairs, values_add, update_apply, Prod.mk.injEq]
  by_cases hk : k' = k
  · subst hk
    cases p.values k' <;> simp [or_comm]
  · simp [hk]

theorem mem_pairs_except {drop : Str → Bool} : e ∈ (p.except drop).pairs ↔ drop e.1 = false ∧ e ∈ p.pairs := by
  rw [mem_pairs, mem_pairs, values_except]
  cases drop e.1 <;> simp

theorem isSome_values_add {k' : Str} (hsome : (p.values k').isSome = true) (k v : Str) :
    ((p.add k v).values k').isSome = true := by
  rw [values_add, update_apply]
  split_ifs
  · rfl
  · exact hsome

theorem get_add {k' : Str} (hsome : k' = k → (p.values k').isSome = true) (v : Str) :
    (p.add k v).get k' = p.get k' := by
  rw [get_eq, get_eq, values_add, update_apply]
  split_ifs with hk
  · subst hk
    obtain ⟨vs, hvs⟩ := Option.isSome_iff_exists.1 (hsome rfl)
    obtain ⟨w, ws, rfl⟩ := exists_cons_of_ne_nil fun hnil => p.ne_nil k' (hnil ▸ hvs)
    rw [hvs]
    rfl
  · rfl

/-- The pairs of a set of parameters give it back. -/
theorem addAll_pairs (p : Params) : empty.addAll p.pairs = p := by
  refine ext (funext fun k => ?_)
  rw [values_addAll, pairs, valuesOf_flatMap p.nodup_sortedKeys, values_empty]
  by_cases hk : k ∈ p.sortedKeys
  · obtain ⟨vs, hvs⟩ := Option.isSome_iff_exists.1 (mem_sortedKeys.1 hk)
    have hne : vs ≠ [] := by
      rintro rfl
      exact p.ne_nil k hvs
    rw [if_pos hk, hvs, Option.getD_some, if_neg hne]
    rfl
  · rw [if_neg hk, if_pos rfl]
    exact (Option.not_isSome_iff_eq_none.1 fun hsome => hk (mem_sortedKeys.2 hsome)).symm

/-! ## Escaping and unescaping the query -/

theorem intercalate_cons_cons (c : UInt8) (x y : Str) (l : List Str) :
    [c].intercalate (x :: y :: l) = x ++ ([c] ++ [c].intercalate (y :: l)) := by
  simp [intercalate]

theorem mem_of_mem_intercalate {d : UInt8} (hd : d ∈ [c].intercalate l) : d = c ∨ ∃ x ∈ l, d ∈ x := by
  induction l with
  | nil => cases hd
  | cons x l ih =>
    cases l with
    | nil =>
      right
      refine ⟨x, mem_cons_self, ?_⟩
      simpa [intercalate] using hd
    | cons y l =>
      rw [intercalate_cons_cons, mem_append, mem_append, mem_singleton] at hd
      rcases hd with hd | hd | hd
      · exact .inr ⟨x, mem_cons_self, hd⟩
      · exact .inl hd
      · rcases ih hd with hd | ⟨z, hz, hd⟩
        · exact .inl hd
        · exact .inr ⟨z, mem_cons_of_mem _ hz, hd⟩

theorem unescapes_intercalate (pairs : List (Str × Str)) :
    Unescapes ([38].intercalate (pairs.map fun e => queryEscape e.1 ++ 61 :: queryEscape e.2))
      ([38].intercalate (pairs.map fun e => e.1 ++ 61 :: e.2)) := by
  have hpair : ∀ e : Str × Str, Unescapes (queryEscape e.1 ++ 61 :: queryEscape e.2) (e.1 ++ 61 :: e.2) :=
    fun e => (Unescapes.queryEscape e.1).append
      ((Unescapes.byte (by decide) (by decide)).append (Unescapes.queryEscape e.2))
  induction pairs with
  | nil => exact .nil
  | cons e pairs ih =>
    cases pairs with
    | nil => simpa [intercalate] using hpair e
    | cons e' pairs =>
      exact (hpair e).append ((Unescapes.byte (by decide) (by decide)).append ih)

/-- Unescaping what `Encode` writes gives the raw pairs, joined as they are. -/
theorem queryUnescape_encode (p : Params) : queryUnescape p.encode = .ok p.rawQuery :=
  (unescapes_intercalate p.pairs).queryUnescape_eq

/-! ## Reading the query -/

def isValueByte (c : UInt8) : Bool := isQueryByte c && !(str "&%+;").contains c

def isKeyByte (c : UInt8) : Bool := isValueByte c && c ≠ 61

structure PlainPair (e : Str × Str) : Prop where
  key : ∀ c ∈ e.1, isKeyByte c = true
  value : ∀ c ∈ e.2, isValueByte c = true

theorem queryUnescape_of_plain {s : Str} (hs : ∀ c ∈ s, isValueByte c = true) : queryUnescape s = .ok s := by
  have hfacts : ∀ c : UInt8, isValueByte c = true → c ≠ 37 ∧ c ≠ 43 :=
    forall_byte (P := fun c => isValueByte c = true → c ≠ 37 ∧ c ≠ 43) (by decide +kernel)
  refine unescape_of_keeps fun c hc => ⟨(hfacts c (hs c hc)).1, fun hand => (hfacts c (hs c hc)).2 hand.1, ?_⟩
  rintro ⟨hmode, -⟩
  rcases hmode with hmode | hmode <;> cases hmode

theorem PlainPair.isValueByte_of_mem (h : PlainPair e) (hc : c ∈ e.1 ++ 61 :: e.2) : isValueByte c = true := by
  rw [mem_append, mem_cons] at hc
  rcases hc with hc | rfl | hc
  · exact (Bool.and_eq_true_iff.1 (h.key c hc)).1
  · decide
  · exact h.value c hc

theorem parsePart_of_plain (h : PlainPair e) (m : Params) :
    parsePart (m, none) (e.1 ++ 61 :: e.2) = (m.add e.1 e.2, none) := by
  have hsemicolon : (59 : UInt8) ∉ e.1 ++ 61 :: e.2 :=
    notMem_of_all (fun c hc => h.isValueByte_of_mem hc) rfl
  have hkey : queryUnescape e.1 = .ok e.1 :=
    queryUnescape_of_plain fun c hc => h.isValueByte_of_mem (mem_append_left _ hc)
  rw [parsePart, if_neg hsemicolon, if_neg (by simp), cut_append (notMem_of_all h.key rfl)]
  dsimp only [Option.getD_some]
  rw [hkey, queryUnescape_of_plain h.value]

theorem isQueryByte_rawQuery (hp : ∀ e ∈ p.pairs, PlainPair e) (hc : c ∈ p.rawQuery) : isQueryByte c = true := by
  rcases mem_of_mem_intercalate hc with rfl | ⟨part, hpart, hc⟩
  · rfl
  · obtain ⟨e, he, rfl⟩ := mem_map.1 hpart
    exact (Bool.and_eq_true_iff.1 ((hp e he).isValueByte_of_mem hc)).1

/-- Plain pairs are read back without having been escaped. -/
theorem parseQuery_rawQuery (hp : ∀ e ∈ p.pairs, PlainPair e) : parseQuery p.rawQuery = (p, none) := by
  have hfold : ∀ (pairs : List (Str × Str)) (m : Params), (∀ e ∈ pairs, PlainPair e) →
      (pairs.map fun e => e.1 ++ 61 :: e.2).foldl parsePart (m, none) = (m.addAll pairs, none) := by
    intro pairs
    induction pairs with
    | nil => exact fun m _ => rfl
    | cons e pairs ih =>
      intro m hpairs
      rw [map_cons, foldl_cons, parsePart_of_plain (hpairs e mem_cons_self)]
      exact ih _ fun e he => hpairs e (mem_cons_of_mem _ he)
  have hparts : ∀ part ∈ p.pairs.map fun e => e.1 ++ 61 :: e.2, (38 : UInt8) ∉ part := by
    intro part hpart
    obtain ⟨e, he, rfl⟩ := mem_map.1 hpart
    exact notMem_of_all (fun c hc => (hp e he).isValueByte_of_mem hc) rfl
  unfold parseQuery rawQuery
  by_cases hnil : p.pairs = []
  · rw [hnil]
    have hempty := addAll_pairs p
    rw [hnil] at hempty
    rw [← hempty]
    rfl
  · rw [splitOn_intercalate 38 hparts (by simpa using hnil), hfold p.pairs empty hp, addAll_pairs]

end Params

end DubboGo.Common
