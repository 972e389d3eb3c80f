import Mathlib

/-!
# Draws by weight

Weights lie one after the other on a line, and a draw is a point on it.
-/

namespace DubboGo.Lib

/-- The position of the weight in which the draw lies. -/
def slot : List ℕ → ℕ → Option ℕ
  | [], _ => none
  | w :: ws, d => if d < w then some 0 else (slot ws (d - w)).map (· + 1)

/-- An offset falls to the item between whose running totals it lies. -/
theorem slot_eq_some_iff {ws : List ℕ} {d i : ℕ} :
    slot ws d = some i ↔ (ws.take i).sum ≤ d ∧ d < (ws.take (i + 1)).sum := by
  induction ws generalizing d i with
  | nil => simp [slot]
  | cons w ws ih =>
    unfold slot
    split_ifs with hlt
    · cases i with
      | zero => simp [hlt]
      | succ i =>
        simp only [Option.some.injEq, List.take_succ_cons, List.sum_cons]
        omega
    · cases i with
      | zero => simp [hlt]
      | succ i =>
        simp only [Option.map_eq_some_iff, Nat.add_right_cancel_iff, exists_eq_right, ih, List.take_succ_cons,
          List.sum_cons]
        omega

theorem slot_eq_none_iff {ws : List ℕ} {d : ℕ} : slot ws d = none ↔ ws.sum ≤ d := by
  induction ws generalizing d with
  | nil => simp [slot]
  | cons w ws ih =>
    unfold slot
    split_ifs with hlt
    · simp only [List.sum_cons, false_iff]
      omega
    · rw [Option.map_eq_none_iff, ih, List.sum_cons]
      omega

theorem lt_length_of_slot {ws : List ℕ} {d i : ℕ} (h : slot ws d = some i) : i < ws.length := by
  by_contra hle
  have hslot := slot_eq_some_iff.1 h
  rw [List.take_of_length_le (by omega), List.take_of_length_le (by omega)] at hslot
  omega

theorem sum_take_succ_le (ws : List ℕ) (i : ℕ) : (ws.take (i + 1)).sum ≤ ws.sum :=
  (List.take_sublist _ _).sum_le_sum (fun _ _ => Nat.zero_le _)

theorem card_filter_range {n a b : ℕ} (p : ℕ → Prop) [DecidablePred p] (h : ∀ d < n, p d ↔ a ≤ d ∧ d < b)
    (hb : b ≤ n) : ((Finset.range n).filter p).card = b - a := by
  have hset : (Finset.range n).filter p = Finset.Ico a b := by
    ext d
    rw [Finset.mem_filter, Finset.mem_range, Finset.mem_Ico]
    constructor
    · rintro ⟨hd, hp⟩
      exact (h d hd).1 hp
    · intro hd
      exact ⟨by omega, (h d (by omega)).2 hd⟩
  rw [hset, Nat.card_Ico]

end DubboGo.Lib
