import Mathlib

/-!
# Finite maps

Finite maps with values of one type, with the restriction of a map to some of its keys and the
multiset of its values.
-/

namespace DubboGo.Lib

open Multiset Finmap

abbrev FiniteMap (κ ν : Type) := Finmap fun _ : κ => ν

namespace FiniteMap

variable {κ ν : Type}

/-- The entries whose keys satisfy `p`. -/
def keep (m : FiniteMap κ ν) (p : κ → Bool) : FiniteMap κ ν where
  entries := m.entries.filter fun e => p e.1
  nodupKeys := by
    rw [← Multiset.nodup_keys]
    exact Multiset.nodup_of_le (Multiset.map_le_map (Multiset.filter_le _ _)) m.nodupKeys.nodup_keys

def values (m : FiniteMap κ ν) : Multiset ν := m.entries.map Sigma.snd

@[simp]
theorem values_empty : values (∅ : FiniteMap κ ν) = 0 := rfl

theorem values_keep_add (m : FiniteMap κ ν) (p : κ → Bool) :
    values (keep m p) + values (keep m fun k => !p k) = values m := by
  have hdrop : (m.entries.filter fun e => (!p e.1) = true) = m.entries.filter fun e => ¬ p e.1 = true := by simp
  dsimp only [values, keep]
  rw [hdrop, ← map_add, filter_add_not]

variable [DecidableEq κ] {m n : FiniteMap κ ν} {k : κ} {v : ν} {β : Type*} {keys : Multiset κ}

@[simp]
theorem lookup_keep (m : FiniteMap κ ν) (p : κ → Bool) (k : κ) :
    (keep m p).lookup k = if p k then m.lookup k else none := by
  by_cases hk : p k = true
  · rw [if_pos hk]
    ext v
    rw [← Option.mem_def, ← Option.mem_def, mem_lookup_iff, mem_lookup_iff]
    simp [keep, hk]
  · rw [if_neg hk, lookup_eq_none, mem_iff]
    rintro ⟨v, hv⟩
    rw [← Option.mem_def, mem_lookup_iff] at hv
    exact hk (mem_filter.1 hv).2

theorem lookup_union (m n : FiniteMap κ ν) (k : κ) : (m ∪ n).lookup k = (m.lookup k).or (n.lookup k) := by
  by_cases h : k ∈ m
  · obtain ⟨v, hv⟩ := mem_iff.1 h
    rw [lookup_union_left h, hv, Option.some_or]
  · rw [lookup_union_right h, lookup_eq_none.2 h, Option.none_or]

theorem lookup_insert (m : FiniteMap κ ν) (k : κ) (v : ν) (k' : κ) :
    (m.insert k v).lookup k' = if k' = k then some v else m.lookup k' := by
  split_ifs with h
  · rw [h, Finmap.lookup_insert]
  · rw [lookup_insert_of_ne _ h]

theorem lookup_erase (m : FiniteMap κ ν) (k k' : κ) :
    (m.erase k).lookup k' = if k' = k then none else m.lookup k' := by
  split_ifs with h
  · rw [h, Finmap.lookup_erase]
  · rw [lookup_erase_ne h]

theorem mem_keys_keep {p : κ → Bool} : k ∈ (keep m p).keys ↔ p k = true ∧ k ∈ m := by
  rw [mem_keys, ← lookup_isSome, ← lookup_isSome, lookup_keep]
  by_cases hk : p k = true
  · simp [hk]
  · simp [hk]

theorem mem_values : v ∈ values m ↔ ∃ k, m.lookup k = some v := by
  constructor
  · intro h
    obtain ⟨⟨k, w⟩, hmem, rfl⟩ := mem_map.1 h
    exact ⟨k, Finmap.lookup_eq_some_iff.2 hmem⟩
  · rintro ⟨k, hk⟩
    exact mem_map.2 ⟨⟨k, v⟩, Finmap.lookup_eq_some_iff.1 hk, rfl⟩

theorem erase_of_lookup_none (h : m.lookup k = none) : m.erase k = m := by
  apply ext_lookup
  intro k'
  rw [lookup_erase]
  split_ifs with hk
  · rw [hk, h]
  · rfl

theorem values_insert (m : FiniteMap κ ν) (k : κ) (v : ν) : values (m.insert k v) = v ::ₘ values (m.erase k) := by
  have heq : m.insert k v = (m.erase k).insert k v := by
    apply ext_lookup
    intro k'
    rw [lookup_insert, lookup_insert, lookup_erase]
    split_ifs <;> rfl
  dsimp only [values]
  rw [heq, entries_insert_of_notMem notMem_erase_self, map_cons]

theorem entries_of_lookup (h : m.lookup k = some v) : m.entries = ⟨k, v⟩ ::ₘ (m.erase k).entries := by
  have heq : (m.erase k).insert k v = m := by
    apply ext_lookup
    intro k'
    rw [lookup_insert, lookup_erase]
    split_ifs with hk
    · rw [hk, h]
    · rfl
  conv_lhs => rw [← heq]
  exact entries_insert_of_notMem notMem_erase_self

theorem values_erase (h : m.lookup k = some v) : v ::ₘ values (m.erase k) = values m := by
  dsimp only [values]
  rw [entries_of_lookup h, map_cons]

/-- The values are that of a key and those of the others. -/
theorem lookup_add_values_erase (m : FiniteMap κ ν) (k : κ) :
    ((m.lookup k).toList : Multiset ν) + values (m.erase k) = values m := by
  cases h : m.lookup k with
  | none =>
    rw [erase_of_lookup_none h]
    exact zero_add _
  | some v => exact values_erase h

theorem bind_entries_ite (m : FiniteMap κ ν) (k : κ) (g : ν → Multiset β) :
    (m.entries.bind fun e => if k = e.1 then g e.2 else 0) = (m.lookup k).elim 0 g := by
  have hother : ∀ n : FiniteMap κ ν, n.lookup k = none →
      (n.entries.bind fun e => if k = e.1 then g e.2 else 0) = 0 := by
    intro n hn
    have hzero : ∀ e ∈ n.entries, (if k = e.1 then g e.2 else 0) = (0 : Multiset β) := by
      rintro ⟨k', v⟩ hmem
      rw [if_neg]
      rintro rfl
      rw [Finmap.lookup_eq_some_iff.2 hmem] at hn
      cases hn
    rw [Multiset.bind_congr hzero, bind_zero]
  cases h : m.lookup k with
  | none => exact hother m h
  | some v =>
    rw [entries_of_lookup h, cons_bind, if_pos rfl, hother _ (Finmap.lookup_erase _ _), add_zero]
    rfl

theorem bind_entries_filter {α : Type*} (m : FiniteMap κ ν) (key : α → Option κ) (g : α → ν → Multiset β)
    (l : List α) :
    (m.entries.bind fun e => ((l.filter fun a => key a = some e.1 : List α) : Multiset α).bind (g · e.2)) =
      (l : Multiset α).bind fun a => ((key a).bind m.lookup).elim 0 (g a) := by
  induction l with
  | nil => simp
  | cons a l ih =>
    have hsplit : ∀ e : (_ : κ) × ν,
        (((a :: l).filter fun a => key a = some e.1 : List α) : Multiset α).bind (g · e.2) =
          (if key a = some e.1 then g a e.2 else 0) +
            ((l.filter fun a => key a = some e.1 : List α) : Multiset α).bind (g · e.2) := by
      intro e
      by_cases h : key a = some e.1
      · rw [List.filter_cons_of_pos (by simpa using h), if_pos h, ← cons_coe, cons_bind]
      · rw [List.filter_cons_of_neg (by simpa using h), if_neg h, zero_add]
    have hhead : (m.entries.bind fun e => if key a = some e.1 then g a e.2 else 0) =
        ((key a).bind m.lookup).elim 0 (g a) := by
      cases key a with
      | none => simp
      | some k => simpa using bind_entries_ite m k (g a)
    rw [Multiset.bind_congr fun e _ => hsplit e, bind_add, ih, hhead, ← cons_coe, cons_bind]

theorem map_keys_getD (m : FiniteMap κ ν) (d : ν) :
    (m.keys.val.map fun k => (⟨k, (m.lookup k).getD d⟩ : (_ : κ) × ν)) = m.entries := by
  have hkeys : m.keys.val = m.entries.map Sigma.fst := rfl
  rw [hkeys, map_map]
  conv_rhs => rw [← map_id m.entries]
  apply map_congr rfl
  intro e he
  dsimp only [Function.comp_apply, id]
  rw [Finmap.lookup_eq_some_iff.2 he]
  rfl

/-! ## Graphs -/

def graphOn (m : FiniteMap κ ν) (keys : Multiset κ) : Multiset (κ × Option ν) :=
  keys.map fun k => (k, m.lookup k)

def graph (m : FiniteMap κ ν) : Multiset (κ × Option ν) := graphOn m m.keys.val

@[simp]
theorem graphOn_zero (m : FiniteMap κ ν) : graphOn m 0 = 0 := rfl

@[simp]
theorem graphOn_cons (m : FiniteMap κ ν) (k : κ) (keys : Multiset κ) :
    graphOn m (k ::ₘ keys) = (k, m.lookup k) ::ₘ graphOn m keys := map_cons _ _ _

theorem map_fst_graphOn (m : FiniteMap κ ν) (keys : Multiset κ) : (graphOn m keys).map Prod.fst = keys := by
  rw [graphOn, map_map]
  exact map_id keys

theorem mem_graph {v : Option ν} : (k, v) ∈ graph m ↔ k ∈ m ∧ m.lookup k = v := by
  unfold graph graphOn
  simp only [mem_map, Prod.mk.injEq, Finset.mem_val, mem_keys]
  constructor
  · rintro ⟨k', hk, rfl, hv⟩
    exact ⟨hk, hv⟩
  · rintro ⟨hk, hv⟩
    exact ⟨k, hk, rfl, hv⟩

theorem graphOn_congr (h : ∀ k ∈ keys, m.lookup k = n.lookup k) : graphOn m keys = graphOn n keys := by
  apply map_congr rfl
  intro k hk
  rw [h k hk]

theorem graphOn_insert_of_notMem (h : k ∉ keys) (m : FiniteMap κ ν) (v : ν) :
    graphOn (m.insert k v) keys = graphOn m keys := by
  apply graphOn_congr
  intro k' hk'
  exact lookup_insert_of_ne _ fun heq => h (heq ▸ hk')

theorem keys_insert_val (h : k ∉ m) (v : ν) : (m.insert k v).keys.val = k ::ₘ m.keys.val := by
  have hkeys : (m.insert k v).keys = insert k m.keys := by
    ext k'
    simp only [mem_keys, mem_insert, Finset.mem_insert]
  rw [hkeys, Finset.insert_val_of_notMem fun hmem => h (mem_keys.1 hmem)]

theorem graph_insert (h : k ∉ m) (v : ν) : graph (m.insert k v) = (k, some v) ::ₘ graph m := by
  have hk : k ∉ m.keys.val := fun hmem => h (mem_keys.1 hmem)
  rw [graph, keys_insert_val h, graphOn_cons, Finmap.lookup_insert, graphOn_insert_of_notMem hk, graph]

theorem graph_erase (h : k ∈ m) : graph m = (k, m.lookup k) ::ₘ graph (m.erase k) := by
  have hk : k ∈ m.keys.val := mem_keys.2 h
  have herase : graph (m.erase k) = graphOn m (m.keys.val.erase k) := by
    rw [graph, keys_erase, Finset.erase_val]
    apply graphOn_congr
    intro k' hk'
    have hne : k' ≠ k := ((Multiset.Nodup.mem_erase_iff m.keys.nodup).1 hk').1
    exact lookup_erase_ne hne
  rw [herase, ← graphOn_cons, cons_erase hk, graph]

theorem eq_of_graphOn_eq_graph (h : graphOn m keys = graph n) (hm : ∀ k ∈ m, k ∈ keys) : m = n := by
  have hkeys : keys = n.keys.val := by
    rw [← map_fst_graphOn m keys, h, graph, map_fst_graphOn]
  apply ext_lookup
  intro k
  by_cases hk : k ∈ keys
  · have hmem : (k, m.lookup k) ∈ graph n := h ▸ mem_map_of_mem _ hk
    exact (mem_graph.1 hmem).2.symm
  · have hkm : k ∉ m := fun hmem => hk (hm k hmem)
    have hkn : k ∉ n := fun hmem => hk (hkeys ▸ mem_keys.2 hmem)
    rw [lookup_eq_none.2 hkm, lookup_eq_none.2 hkn]

end FiniteMap

end DubboGo.Lib
