import Mathlib

/-!
# Reachable states

The states of a transition system, given by its initial states and its steps, with the rule for
invariants.
-/

namespace DubboGo.Lib

variable {σ : Type*} {Init : σ → Prop} {Step : σ → σ → Prop}

inductive Reachable (Init : σ → Prop) (Step : σ → σ → Prop) : σ → Prop where
  | init {s : σ} (h : Init s) : Reachable Init Step s
  | step {s t : σ} (h : Reachable Init Step s) (hst : Step s t) : Reachable Init Step t

namespace Reachable

/-- What holds at the beginning and is kept by every step holds in every state. -/
theorem invariant {Inv : σ → Prop} (hinit : ∀ s, Init s → Inv s)
    (hstep : ∀ s t, Inv s → Step s t → Inv t) {s : σ} (h : Reachable Init Step s) : Inv s := by
  induction h with
  | init h => exact hinit _ h
  | step _ hst ih => exact hstep _ _ ih hst

theorem trans {s t : σ} (h : Reachable Init Step s) (hst : Relation.ReflTransGen Step s t) :
    Reachable Init Step t := by
  induction hst with
  | refl => exact h
  | tail _ hst ih => exact ih.step hst

end Reachable

end DubboGo.Lib
