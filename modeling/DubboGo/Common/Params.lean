import DubboGo.Common.URL
import DubboGo.Lib.FiniteMap

/-!
# The parameters of a URL

The `params` of `common/url.go` where they are changed: finitely many keys, each with at least one
value.  The constructors and setters of a URL keep it that way; `RangeParams` relies on it.
-/

namespace DubboGo.Common

open Go Lib

/-- `url.Values` with at least one value for each of its keys. -/
structure Params where
  entries : FiniteMap Str (List Str)
  ne_nil : ∀ k, entries.lookup k ≠ some []

namespace Params

variable (p q : Params)

def values : Values := fun k => p.entries.lookup k

def get (k : Str) : Str := p.values.get k

def keys : Finset Str := p.entries.keys

def empty : Params := ⟨∅, fun _ => by simp⟩

def set (k v : Str) : Params where
  entries := p.entries.insert k [v]
  ne_nil := by
    intro k'
    rw [FiniteMap.lookup_insert]
    split_ifs
    · simp
    · exact p.ne_nil k'

def del (k : Str) : Params where
  entries := p.entries.erase k
  ne_nil := by
    intro k'
    rw [FiniteMap.lookup_erase]
    split_ifs
    · simp
    · exact p.ne_nil k'

theorem lookup_union_ne_nil {m n : FiniteMap Str (List Str)} (hm : ∀ k, m.lookup k ≠ some [])
    (hn : ∀ k, n.lookup k ≠ some []) (k : Str) : (m ∪ n).lookup k ≠ some [] := by
  by_cases h : k ∈ m
  · rw [Finmap.lookup_union_left h]
    exact hm k
  · rw [Finmap.lookup_union_right h]
    exact hn k

theorem lookup_keep_ne_nil {m : FiniteMap Str (List Str)} (hm : ∀ k, m.lookup k ≠ some [])
    (keep : Str → Bool) (k : Str) : (FiniteMap.keep m keep).lookup k ≠ some [] := by
  rw [FiniteMap.lookup_keep]
  split_ifs
  · exact hm k
  · simp

/-- `SetParams(q)`: the values of `q` replace those of `p`. -/
def setParams : Params where
  entries := q.entries ∪ p.entries
  ne_nil := lookup_union_ne_nil q.ne_nil p.ne_nil

def except (drop : Str → Bool) : Params where
  entries := FiniteMap.keep p.entries fun k => !drop k
  ne_nil := lookup_keep_ne_nil p.ne_nil _

/-- `p`, with the values of `q` for the keys without a value that is not empty. -/
def fill : Params where
  entries := FiniteMap.keep p.entries (fun k => p.get k ≠ []) ∪ (q.entries ∪ p.entries)
  ne_nil := lookup_union_ne_nil (lookup_keep_ne_nil p.ne_nil _) (lookup_union_ne_nil q.ne_nil p.ne_nil)

variable {p q}

@[ext]
theorem ext (h : p.values = q.values) : p = q := by
  obtain ⟨m, hm⟩ := p
  obtain ⟨n, hn⟩ := q
  have heq : m = n := Finmap.ext_lookup fun k => congrFun h k
  subst heq
  rfl

theorem mem_keys {k : Str} : k ∈ p.keys ↔ (p.values k).isSome := by
  rw [keys, Finmap.mem_keys, values, Finmap.lookup_isSome]

@[simp]
theorem values_set (k v : Str) : (p.set k v).values = Function.update p.values k (some [v]) := by
  funext k'
  rw [Function.update_apply]
  exact FiniteMap.lookup_insert _ k [v] k'

@[simp]
theorem values_except (drop : Str → Bool) (k : Str) :
    (p.except drop).values k = if drop k then none else p.values k := by
  dsimp only [values, except]
  rw [FiniteMap.lookup_keep]
  cases drop k <;> rfl

theorem get_eq (k : Str) : p.get k = ((p.values k).getD []).headD [] := rfl

theorem isSome_values_of_get {k : Str} (hget : p.get k ≠ []) : (p.values k).isSome = true := by
  rw [Option.isSome_iff_ne_none]
  intro hnone
  rw [get_eq, hnone] at hget
  exact hget rfl

theorem values_fill (k : Str) :
    (p.fill q).values k = if p.get k = [] then (q.values k).or (p.values k) else p.values k := by
  dsimp only [values, fill]
  rw [FiniteMap.lookup_union, FiniteMap.lookup_union, FiniteMap.lookup_keep]
  by_cases h : p.get k = []
  · simp [h]
  · obtain ⟨vs, hvs⟩ : ∃ vs, p.entries.lookup k = some vs := Option.isSome_iff_exists.1 (isSome_values_of_get h)
    simp [h, hvs]

end Params

end DubboGo.Common
