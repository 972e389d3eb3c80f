import Mathlib

/-!
# Smooth weighted round robin

A scheduler keeps a credit for each of finitely many servers.  In a round every server earns its weight, a server with
the most credit is chosen, and it pays the total of all weights.  Ties may be broken in any way.
-/

namespace DubboGo.SmoothRoundRobin

open Finset

variable {ι : Type*} [DecidableEq ι]

def total (s : Finset ι) (w : ι → ℕ) : ℕ := ∑ i ∈ s, w i

/-- One round among the servers of `s`. -/
structure Round (s : Finset ι) (w : ι → ℕ) (credit : ι → ℤ) (chosen : ι) (credit' : ι → ℤ) :
    Prop where
  mem : chosen ∈ s
  most : ∀ i ∈ s, credit i + w i ≤ credit chosen + w chosen
  pays : ∀ i ∈ s, credit' i = credit i + w i - if i = chosen then (total s w : ℤ) else 0

structure Balanced (s : Finset ι) (w : ι → ℕ) (credit : ι → ℤ) : Prop where
  sum_eq : ∑ i ∈ s, credit i = 0
  neg_total_lt : ∀ i ∈ s, -(total s w : ℤ) < credit i

structure Run (s : Finset ι) (w : ι → ℕ) (credit : ℕ → ι → ℤ) (chosen : ℕ → ι) : Prop where
  start : ∀ i ∈ s, credit 0 i = 0
  round : ∀ n, Round s w (credit n) (chosen n) (credit (n + 1))

/-- The number of rounds among the first `n` that server `i` was chosen in. -/
def served (chosen : ℕ → ι) (i : ι) (n : ℕ) : ℕ := ((Finset.range n).filter (chosen · = i)).card

theorem served_succ (chosen : ℕ → ι) (i : ι) (n : ℕ) :
    served chosen i (n + 1) = served chosen i n + if i = chosen n then 1 else 0 := by
  unfold served
  rw [range_add_one, filter_insert]
  by_cases hc : chosen n = i
  · rw [if_pos hc, if_pos hc.symm, card_insert_of_notMem (by simp)]
  · rw [if_neg hc, if_neg (Ne.symm hc), add_zero]

variable {s : Finset ι} {w : ι → ℕ}

/-! ## Balanced credits -/

namespace Balanced

variable {credit : ι → ℤ}

omit [DecidableEq ι] in
theorem of_zero (hpos : 0 < total s w) (h : ∀ i ∈ s, credit i = 0) : Balanced s w credit := by
  refine ⟨sum_eq_zero h, fun i hi => ?_⟩
  rw [h i hi]
  omega

theorem add_total_le (h : Balanced s w credit) {i : ι} (hi : i ∈ s) : credit i + total s w ≤ s.card * total s w := by
  have hothers : ∑ j ∈ s.erase i, -(total s w : ℤ) ≤ ∑ j ∈ s.erase i, credit j :=
    sum_le_sum fun j hj => (h.neg_total_lt j (mem_of_mem_erase hj)).le
  have hsum : credit i + ∑ j ∈ s.erase i, credit j = 0 := by
    rw [add_sum_erase s credit hi, h.sum_eq]
  have hcard : ((s.erase i).card : ℤ) = s.card - 1 := by
    rw [card_erase_of_mem hi, Nat.cast_sub (card_pos.2 ⟨i, hi⟩), Nat.cast_one]
  rw [sum_const, nsmul_eq_mul, hcard] at hothers
  linarith

end Balanced

/-! ## One round -/

namespace Round

variable {credit credit' : ι → ℤ} {chosen : ι}

variable (h : Round s w credit chosen credit')

include h

theorem congr {credit'' : ι → ℤ} (heq : ∀ i ∈ s, credit'' i = credit' i) : Round s w credit chosen credit'' :=
  ⟨h.mem, h.most, fun i hi => (heq i hi).trans (h.pays i hi)⟩

/-- A round changes no total: what all earn the chosen one pays. -/
theorem sum_eq : ∑ i ∈ s, credit' i = ∑ i ∈ s, credit i := by
  calc ∑ i ∈ s, credit' i
      = ∑ i ∈ s, (credit i + w i - if i = chosen then (total s w : ℤ) else 0) :=
        sum_congr rfl h.pays
    _ = ∑ i ∈ s, credit i + total s w - total s w := by
        rw [sum_sub_distrib, sum_add_distrib, sum_ite_eq' s chosen, if_pos h.mem, total, Nat.cast_sum]
    _ = ∑ i ∈ s, credit i := by omega

theorem chosen_pos (hpos : 0 < total s w) (hsum : ∑ i ∈ s, credit i = 0) : 0 < credit chosen + w chosen := by
  have hearned : ∑ i ∈ s, (0 : ℤ) < ∑ i ∈ s, (credit i + w i) := by
    rw [sum_const_zero, sum_add_distrib, hsum, zero_add, ← Nat.cast_sum]
    exact_mod_cast hpos
  obtain ⟨i, hi, hlt⟩ := exists_lt_of_sum_lt hearned
  exact lt_of_lt_of_le hlt (h.most i hi)

theorem balanced (hpos : 0 < total s w) (hbal : Balanced s w credit) : Balanced s w credit' := by
  refine ⟨h.sum_eq.trans hbal.sum_eq, fun i hi => ?_⟩
  rw [h.pays i hi]
  by_cases hc : i = chosen
  · have := h.chosen_pos hpos hbal.sum_eq
    rw [if_pos hc, hc]
    omega
  · have := hbal.neg_total_lt i hi
    rw [if_neg hc]
    omega

end Round

/-! ## Whole runs -/

namespace Run

variable {credit : ℕ → ι → ℤ} {chosen : ℕ → ι}

variable (h : Run s w credit chosen)

include h

theorem balanced (hpos : 0 < total s w) (n : ℕ) : Balanced s w (credit n) := by
  induction n with
  | zero => exact Balanced.of_zero hpos h.start
  | succ n ih => exact (h.round n).balanced hpos ih

theorem credit_eq (n : ℕ) : ∀ i ∈ s, credit n i = n * w i - total s w * served chosen i n := by
  induction n with
  | zero =>
    intro i hi
    rw [h.start i hi]
    simp [served]
  | succ n ih =>
    intro i hi
    rw [(h.round n).pays i hi, ih i hi, served_succ]
    split_ifs <;> push_cast <;> ring

theorem sum_served (n : ℕ) : ∑ i ∈ s, served chosen i n = n := by
  unfold served
  rw [← card_eq_sum_card_fiberwise fun k _ => (h.round k).mem, card_range]

theorem served_total (hpos : 0 < total s w) : ∀ i ∈ s, served chosen i (total s w) = w i := by
  have hle : ∀ i ∈ s, served chosen i (total s w) ≤ w i := by
    intro i hi
    have hlow := (h.balanced hpos (total s w)).neg_total_lt i hi
    rw [h.credit_eq _ i hi] at hlow
    by_contra hlt
    have hmul : total s w * (w i + 1) ≤ total s w * served chosen i (total s w) :=
      Nat.mul_le_mul_left _ (by omega)
    zify at hmul
    linarith
  exact (sum_eq_sum_iff_of_le hle).1 (h.sum_served (total s w))

theorem credit_total (hpos : 0 < total s w) : ∀ i ∈ s, credit (total s w) i = 0 := by
  intro i hi
  rw [h.credit_eq _ i hi, h.served_total hpos i hi, sub_self]

theorem drop {m : ℕ} (hzero : ∀ i ∈ s, credit m i = 0) : Run s w (fun n => credit (m + n)) fun n => chosen (m + n) :=
  ⟨hzero, fun n => h.round (m + n)⟩

theorem credit_period (hpos : 0 < total s w) (k : ℕ) : ∀ i ∈ s, credit (k * total s w) i = 0 := by
  induction k with
  | zero => rw [Nat.zero_mul]; exact h.start
  | succ k ih =>
    rw [Nat.succ_mul]
    exact (h.drop ih).credit_total hpos

theorem served_period (hpos : 0 < total s w) (k : ℕ) :
    ∀ i ∈ s, served (fun n => chosen (k * total s w + n)) i (total s w) = w i :=
  (h.drop (h.credit_period hpos k)).served_total hpos

end Run

end DubboGo.SmoothRoundRobin
