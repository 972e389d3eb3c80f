import Mathlib

/-!
# Handing data on

The history of a component that accepts data from its callers and hands it on to a receiver, which may take less than
it is offered.
-/

namespace DubboGo.Lib

open List

/-- The two events of a handover; `handed p n` offers `p`, of which the receiver takes `n`. -/
inductive Handover (α : Type*) where
  | accepted (p : List α)
  | handed (p : List α) (n : ℕ)

namespace Handover

variable {α : Type*} {h : List (Handover α)} {p q : List α} {n : ℕ}

def acceptedData (h : List (Handover α)) : List α :=
  h.flatMap fun | accepted p => p | handed _ _ => []

def handedData (h : List (Handover α)) : List α :=
  h.flatMap fun | accepted _ => [] | handed p _ => p

def takenData (h : List (Handover α)) : List α :=
  h.flatMap fun | accepted _ => [] | handed p n => p.take n

/-- What the receiver was offered, and how much of it it has taken. -/
def handings (h : List (Handover α)) : List (List α × ℕ) :=
  h.filterMap fun | accepted _ => none | handed p n => some (p, n)

@[simp] theorem handings_accepted : handings (h ++ [accepted p]) = handings h := by simp [handings]

@[simp] theorem handings_handed : handings (h ++ [handed p n]) = handings h ++ [(p, n)] := by simp [handings]

theorem handedData_eq_flatMap (h : List (Handover α)) : handedData h = (handings h).flatMap Prod.fst := by
  induction h using reverseRecOn with
  | nil => rfl
  | append_singleton h e ih =>
    cases e <;> simp [handedData, handings] at ih ⊢ <;> exact ih

@[simp] theorem acceptedData_accepted :
    acceptedData (h ++ [accepted p]) = acceptedData h ++ p := by simp [acceptedData]

@[simp] theorem acceptedData_handed : acceptedData (h ++ [handed p n]) = acceptedData h := by
  simp [acceptedData]

@[simp] theorem handedData_accepted : handedData (h ++ [accepted p]) = handedData h := by
  simp [handedData]

@[simp] theorem handedData_handed : handedData (h ++ [handed p n]) = handedData h ++ p := by
  simp [handedData]

@[simp] theorem takenData_accepted : takenData (h ++ [accepted p]) = takenData h := by
  simp [takenData]

@[simp] theorem takenData_handed : takenData (h ++ [handed p n]) = takenData h ++ p.take n := by
  simp [takenData]

/-- At every moment of the history, what was handed on is a prefix of what was accepted, and what
was taken a prefix of what was handed on. -/
def InOrder (h : List (Handover α)) : Prop :=
  ∀ t, t <+: h → handedData t <+: acceptedData t ∧ takenData t <+: handedData t

/-- Everything handed on was taken, and `q` is accepted but not handed on. -/
structure Pending (h : List (Handover α)) (q : List α) : Prop where
  accepted_eq : acceptedData h = handedData h ++ q
  taken_eq : takenData h = handedData h

theorem inOrder_nil : InOrder ([] : List (Handover α)) := by
  intro t ht
  rw [prefix_nil.1 ht]
  exact ⟨prefix_rfl, prefix_rfl⟩

theorem pending_nil : Pending ([] : List (Handover α)) [] := ⟨rfl, rfl⟩

theorem InOrder.concat {e : Handover α} (hi : InOrder h) (he : handedData (h ++ [e]) <+: acceptedData (h ++ [e]) ∧
      takenData (h ++ [e]) <+: handedData (h ++ [e])) : InOrder (h ++ [e]) := by
  intro t ht
  rcases prefix_concat_iff.1 ht with rfl | ht
  · exact he
  · exact hi t ht

theorem InOrder.accept (hi : InOrder h) : InOrder (h ++ [accepted p]) := by
  obtain ⟨h1, h2⟩ := hi h prefix_rfl
  apply hi.concat
  rw [handedData_accepted, acceptedData_accepted, takenData_accepted]
  exact ⟨h1.trans (prefix_append _ _), h2⟩

/-- Handing on what is pending first keeps the order. -/
theorem InOrder.hand (hi : InOrder h) (hp : Pending h (p ++ q)) : InOrder (h ++ [handed p n]) := by
  apply hi.concat
  rw [handedData_handed, acceptedData_handed, takenData_handed, hp.taken_eq, hp.accepted_eq, ← append_assoc]
  exact ⟨prefix_append _ _, (prefix_append_right_inj _).2 (List.take_prefix _ _)⟩

/-- What is accepted is pending behind the rest. -/
theorem Pending.accept (hp : Pending h q) : Pending (h ++ [accepted p]) (q ++ p) := by
  refine ⟨?_, ?_⟩
  · rw [acceptedData_accepted, handedData_accepted, hp.accepted_eq, append_assoc]
  · rw [takenData_accepted, handedData_accepted, hp.taken_eq]

theorem Pending.hand (hp : Pending h (p ++ q)) (hn : p.length ≤ n) : Pending (h ++ [handed p n]) q := by
  refine ⟨?_, ?_⟩
  · rw [acceptedData_handed, handedData_handed, hp.accepted_eq, append_assoc]
  · rw [takenData_handed, handedData_handed, hp.taken_eq, take_of_length_le hn]

end Handover

end DubboGo.Lib
