import Mathlib

/-!
# Caches of bounded size

A library that keeps entries up to a number of them, as operations on the list of the entries.  The laws say that an
operation gives and keeps nothing that was not added; which entry is dropped is not said.
-/

namespace DubboGo.Lib

structure Lru (κ ν : Type*) where
  get : κ → List (κ × ν) → Option ν × List (κ × ν)
  add : ℕ → κ → ν → List (κ × ν) → List (κ × ν)
  remove : κ → List (κ × ν) → List (κ × ν)
  mem_of_get_eq_some : ∀ {k v entries}, (get k entries).1 = some v → (k, v) ∈ entries
  mem_of_mem_get : ∀ {k entries e}, e ∈ (get k entries).2 → e ∈ entries
  mem_of_mem_add : ∀ {size k v entries e}, e ∈ add size k v entries → e = (k, v) ∨ e ∈ entries
  mem_of_mem_remove : ∀ {k entries e}, e ∈ remove k entries → e ∈ entries

/-- The library that drops the entry used least recently, with the entries used last in front. -/
def Lru.leastRecentlyUsed (κ ν : Type*) [DecidableEq κ] : Lru κ ν where
  get k entries :=
    match entries.find? fun e => e.1 = k with
    | some e => (some e.2, e :: entries.filter fun e => e.1 ≠ k)
    | none => (none, entries)
  add size k v entries := ((k, v) :: entries.filter fun e => e.1 ≠ k).take size
  remove k entries := entries.filter fun e => e.1 ≠ k
  mem_of_get_eq_some := by
    intro k v entries hget
    cases hfound : entries.find? fun e => e.1 = k with
    | none =>
      rw [hfound] at hget
      cases hget
    | some found =>
      rw [hfound] at hget
      have hkey : found.1 = k := by simpa using List.find?_some hfound
      have hvalue : found.2 = v := Option.some.inj hget
      rw [← hkey, ← hvalue]
      exact List.mem_of_find?_eq_some hfound
  mem_of_mem_get := by
    intro k entries e he
    cases hfound : entries.find? fun e => e.1 = k with
    | none =>
      rw [hfound] at he
      exact he
    | some found =>
      rw [hfound] at he
      rcases List.mem_cons.1 he with rfl | he
      · exact List.mem_of_find?_eq_some hfound
      · exact List.mem_of_mem_filter he
  mem_of_mem_add := by
    intro size k v entries e he
    rcases List.mem_cons.1 (List.mem_of_mem_take he) with rfl | he
    · exact .inl rfl
    · exact .inr (List.mem_of_mem_filter he)
  mem_of_mem_remove := List.mem_of_mem_filter

end DubboGo.Lib
