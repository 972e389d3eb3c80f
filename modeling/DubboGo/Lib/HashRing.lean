import Mathlib

/-!
# Rings of points

Members own points of a linear order, and a request is served by the owner of the first point at or
after its own position, or of the first point of all when there is none.  Two members may have a
point in common; it belongs to the later one.
-/

namespace DubboGo.Lib.HashRing

open List

variable {ι K : Type*} [LinearOrder K]

/-! ## The first point after a position -/

/-- `k` is the first point of `s` from `h` on, or the first of all. -/
def Successor (s : Set K) (h k : K) : Prop :=
  IsLeast {p | p ∈ s ∧ h ≤ p} k ∨ (∀ p ∈ s, p < h) ∧ IsLeast s k

section Successor

variable {s t : Set K} {h k k' : K}

theorem Successor.mem (hk : Successor s h k) : k ∈ s := by
  rcases hk with hk | ⟨-, hk⟩
  · exact hk.1.1
  · exact hk.1

theorem Successor.unique (hk : Successor s h k) (hk' : Successor s h k') : k = k' := by
  rcases hk with hk | ⟨hnone, hk⟩
  · rcases hk' with hk' | ⟨hnone, -⟩
    · exact hk.unique hk'
    · exact absurd (hnone k hk.1.1) (not_lt.2 hk.1.2)
  · rcases hk' with hk' | ⟨-, hk'⟩
    · exact absurd (hnone k' hk'.1.1) (not_lt.2 hk'.1.2)
    · exact hk.unique hk'

theorem Successor.anti (hk : Successor s h k) (hts : t ⊆ s) (hmem : k ∈ t) : Successor t h k := by
  rcases hk with ⟨⟨-, hle⟩, hmin⟩ | ⟨hnone, -, hmin⟩
  · exact .inl ⟨⟨hmem, hle⟩, fun p hp => hmin ⟨hts hp.1, hp.2⟩⟩
  · exact .inr ⟨fun p hp => hnone p (hts hp), hmem, fun p hp => hmin (hts hp)⟩

end Successor

/-! ## Owners -/

section Owner

variable (points : ι → List K)

def ring (l : List ι) : Set K := {k | ∃ y ∈ l, k ∈ points y}

/-- The last member of the list that has the point `k`. -/
def owner (l : List ι) (k : K) : Option ι := l.reverse.find? fun y => decide (k ∈ points y)

/-- `y` serves the requests at `h`. -/
def Serves (l : List ι) (h : K) (y : ι) : Prop :=
  ∃ k, Successor (ring points l) h k ∧ owner points l k = some y

variable {points} {l l₁ l₂ : List ι} {x y y' : ι} {h k : K}

theorem owner_concat : owner points (l ++ [x]) k = if k ∈ points x then some x else owner points l k := by
  unfold owner
  rw [reverse_append, reverse_singleton, singleton_append, find?_cons]
  by_cases hx : k ∈ points x
  · simp [hx]
  · simp [hx]

theorem owner_append : owner points (l₁ ++ l₂) k = (owner points l₂ k).or (owner points l₁ k) := by
  unfold owner
  rw [reverse_append, find?_append]

theorem mem_of_owner (howner : owner points l k = some y) : y ∈ l ∧ k ∈ points y := by
  have hmem := mem_of_find?_eq_some howner
  have hpoint := find?_some howner
  exact ⟨mem_reverse.1 hmem, of_decide_eq_true hpoint⟩

theorem exists_owner (hk : k ∈ ring points l) : ∃ y, owner points l k = some y := by
  obtain ⟨y, hy, hpoint⟩ := hk
  apply Option.isSome_iff_exists.1
  rw [owner, find?_isSome]
  exact ⟨y, mem_reverse.2 hy, decide_eq_true hpoint⟩

theorem owner_remove (howner : owner points (l₁ ++ x :: l₂) k = some y) (hne : y ≠ x) :
    owner points (l₁ ++ l₂) k = some y := by
  rw [append_cons, owner_append, owner_concat] at howner
  rw [owner_append]
  cases hlast : owner points l₂ k with
  | some z =>
    rw [hlast] at howner
    exact howner
  | none =>
    rw [hlast, Option.none_or] at howner
    split_ifs at howner with hx
    · exact absurd (Option.some.inj howner).symm hne
    · exact howner

theorem Serves.unique (hy : Serves points l h y) (hy' : Serves points l h y') : y = y' := by
  obtain ⟨k, hk, howner⟩ := hy
  obtain ⟨k', hk', howner'⟩ := hy'
  obtain rfl := hk.unique hk'
  exact Option.some.inj (howner.symm.trans howner')

/-- A server keeps its keys when another one leaves. -/
theorem Serves.remove (hy : Serves points (l₁ ++ x :: l₂) h y) (hne : y ≠ x) : Serves points (l₁ ++ l₂) h y := by
  obtain ⟨k, hk, howner⟩ := hy
  have howner' := owner_remove howner hne
  obtain ⟨hmem, hpoint⟩ := mem_of_owner howner'
  refine ⟨k, hk.anti ?_ ⟨y, hmem, hpoint⟩, howner'⟩
  rintro p ⟨z, hz, hp⟩
  refine ⟨z, ?_, hp⟩
  rw [mem_append] at hz
  rw [mem_append, mem_cons]
  rcases hz with hz | hz
  · exact .inl hz
  · exact .inr (.inr hz)

end Owner

end DubboGo.Lib.HashRing
