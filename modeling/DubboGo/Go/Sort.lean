import Mathlib

/-!
# Searching

`sort.Search`, the binary search for the least index at which a condition holds, and the order of
machine words.
-/

namespace DubboGo.Go

instance instLinearOrderUInt32 : LinearOrder UInt32 where
  le_refl := UInt32.le_refl
  le_trans _ _ _ := UInt32.le_trans
  le_antisymm _ _ := UInt32.le_antisymm
  le_total := UInt32.le_total
  lt_iff_le_not_ge a b := by
    rw [UInt32.not_le]
    exact ⟨fun h => ⟨UInt32.le_of_lt h, h⟩, fun h => h.2⟩
  toDecidableLE := inferInstance
  toDecidableEq := inferInstance
  toDecidableLT := inferInstance

/-- The loop of `sort.Search` between `i` and `j`. -/
def searchLoop (f : ℕ → Bool) (i j : ℕ) : ℕ :=
  if i < j then
    let h := (i + j) / 2
    if f h then searchLoop f i h else searchLoop f (h + 1) j
  else i
termination_by j - i

/-- `sort.Search(n, f)`. -/
def search (n : ℕ) (f : ℕ → Bool) : ℕ := searchLoop f 0 n

theorem searchLoop_le (f : ℕ → Bool) {i j : ℕ} (hij : i ≤ j) : searchLoop f i j ≤ j := by
  fun_induction searchLoop f i j with
  | case1 i j h mid hf ih =>
    have hmid : mid < j := by omega
    exact (ih (by omega)).trans hmid.le
  | case2 i j h mid hf ih => exact ih (by omega)
  | case3 i j h => exact hij

theorem search_le (n : ℕ) (f : ℕ → Bool) : search n f ≤ n := searchLoop_le f (Nat.zero_le n)

theorem searchLoop_spec {f : ℕ → Bool} {n : ℕ}
    (hmono : ∀ a b, a ≤ b → b < n → f a = true → f b = true) {i j : ℕ} (hij : i ≤ j) (hj : j ≤ n)
    (hlow : ∀ k < i, f k = false) (hhigh : ∀ k, j ≤ k → k < n → f k = true) :
    (∀ k < searchLoop f i j, f k = false) ∧ ∀ k, searchLoop f i j ≤ k → k < n → f k = true := by
  fun_induction searchLoop f i j with
  | case1 i j h mid hf ih =>
    have hmid : mid < j := by omega
    exact ih (by omega) (by omega) hlow fun k hk hkn => hmono mid k hk hkn hf
  | case2 i j h mid hf ih =>
    refine ih (by omega) hj (fun k hk => ?_) hhigh
    by_contra hk'
    rw [Bool.not_eq_false] at hk'
    exact hf (hmono k mid (by omega) (by omega) hk')
  | case3 i j h =>
    obtain rfl : i = j := by omega
    exact ⟨hlow, hhigh⟩

theorem search_spec {f : ℕ → Bool} {n : ℕ} (hmono : ∀ a b, a ≤ b → b < n → f a = true → f b = true) :
    (∀ k < search n f, f k = false) ∧ ∀ k, search n f ≤ k → k < n → f k = true :=
  searchLoop_spec hmono (Nat.zero_le n) le_rfl (fun _ h => absurd h (Nat.not_lt_zero _))
    fun _ h h' => absurd h' (Nat.not_lt.2 h)

theorem search_ascending {α : Type} [LinearOrder α] {keys : List α} (hsorted : keys.Pairwise (· ≤ ·)) (d x : α) :
    (∀ i, (hi : i < keys.length) → i < search keys.length (fun i => x ≤ keys.getD i d) → keys[i] < x) ∧
    ∀ i, (hi : i < keys.length) → search keys.length (fun i => x ≤ keys.getD i d) ≤ i → x ≤ keys[i] := by
  have hget : ∀ i, (hi : i < keys.length) → keys.getD i d = keys[i] := fun i hi => by
    rw [List.getD_eq_getElem?_getD, List.getElem?_eq_getElem hi, Option.getD_some]
  obtain ⟨hlow, hhigh⟩ := search_spec (f := fun i => decide (x ≤ keys.getD i d)) (n := keys.length) (by
    intro a b hab hb ha
    rw [decide_eq_true_eq, hget _ (hab.trans_lt hb)] at ha
    rw [decide_eq_true_eq, hget _ hb]
    exact ha.trans (hsorted.rel_get_of_le (a := ⟨a, hab.trans_lt hb⟩) (b := ⟨b, hb⟩) hab))
  refine ⟨fun i hi hlt => ?_, fun i hi hle => ?_⟩
  · have hfalse := hlow i hlt
    rw [decide_eq_false_iff_not, hget _ hi, not_le] at hfalse
    exact hfalse
  · have htrue := hhigh i hle hi
    rw [decide_eq_true_eq, hget _ hi] at htrue
    exact htrue

end DubboGo.Go
