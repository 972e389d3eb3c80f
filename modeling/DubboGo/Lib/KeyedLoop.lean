import Mathlib

/-!
# Loops over items with different keys

A loop handles items one after the other.  Each step may add the value of its item under the key of
the item; whether it does is not changed by the steps for other keys, as long as time goes on.
-/

namespace DubboGo.Lib

open List

variable {σ α κ β : Type}

/-- The items are handled in their order, each at the time that the clock shows for it. -/
def timedLoop (f : ℕ → α → σ → σ) : (clock : ℕ → ℕ) → List α → σ → σ
  | _, [], s => s
  | clock, a :: items, s => timedLoop f (fun i => clock (i + 1)) items (f (clock 0) a s)

/-- A step adds the value of its item under its key if it takes the item, and nothing else. -/
structure KeyedStep (f : ℕ → α → σ → σ) (State : σ → Prop) (Item : α → Prop) (key : α → κ)
    (value : α → β) (Takes : ℕ → α → σ → Prop) (Has : σ → κ → β → Prop) : Prop where
  state : ∀ now a s, Item a → State s → State (f now a s)
  has_iff : ∀ now a s, Item a → State s → (∀ v, ¬ Has s (key a) v) → ∀ k v,
    (Has (f now a s) k v ↔ (k = key a ∧ v = value a ∧ Takes now a s) ∨ Has s k v)
  takes_iff : ∀ now now' a a' s, Item a → Item a' → State s → key a' ≠ key a → now ≤ now' →
    (∀ v, ¬ Has s (key a) v) → (Takes now' a' (f now a s) ↔ Takes now' a' s)

namespace KeyedStep

variable {f : ℕ → α → σ → σ} {State : σ → Prop} {Item : α → Prop} {key : α → κ} {value : α → β}
  {Takes : ℕ → α → σ → Prop} {Has : σ → κ → β → Prop}

theorem has_timedLoop_iff (h : KeyedStep f State Item key value Takes Has) {clock : ℕ → ℕ}
    (hclock : Monotone clock) {items : List α} (hitems : ∀ a ∈ items, Item a)
    (hkeys : (items.map key).Nodup) {s : σ} (hs : State s)
    (habsent : ∀ a ∈ items, ∀ v, ¬ Has s (key a) v) (k : κ) (v : β) : Has (timedLoop f clock items s) k v ↔
      (∃ i a, items[i]? = some a ∧ k = key a ∧ v = value a ∧ Takes (clock i) a s) ∨ Has s k v := by
  induction items generalizing clock s with
  | nil => simp [timedLoop]
  | cons a items ih =>
    obtain ⟨hnotMem, hkeys'⟩ := nodup_cons.1 hkeys
    have ha := hitems a mem_cons_self
    have hitem : ∀ b ∈ items, Item b := fun b hb => hitems b (mem_cons_of_mem _ hb)
    have hne : ∀ b ∈ items, key b ≠ key a :=
      fun b hb heq => hnotMem (heq ▸ mem_map_of_mem hb)
    have hfirst := habsent a mem_cons_self
    have hhas := h.has_iff (clock 0) a s ha hs hfirst
    have habsent' : ∀ b ∈ items, ∀ v, ¬ Has (f (clock 0) a s) (key b) v := by
      intro b hb v hv
      obtain ⟨heq, -⟩ | hv := (hhas _ _).1 hv
      · exact hne b hb heq
      · exact habsent b (mem_cons_of_mem _ hb) v hv
    have hrest := ih (fun i j hij => hclock (Nat.succ_le_succ hij)) hitem hkeys' (h.state (clock 0) a s ha hs) habsent'
    -- the later items are taken in the state after the step if they are in the state before it
    have htakes : ∀ i b, items[i]? = some b →
        (Takes (clock (i + 1)) b (f (clock 0) a s) ↔ Takes (clock (i + 1)) b s) := by
      intro i b hb
      have hmem := mem_of_getElem? hb
      exact h.takes_iff _ _ a b s ha (hitem b hmem) hs (hne b hmem) (hclock (Nat.zero_le _)) hfirst
    rw [timedLoop, hrest, hhas]
    constructor
    · rintro (⟨i, b, hb, hk, hv, htake⟩ | ⟨hk, hv, htake⟩ | hold)
      · exact .inl ⟨i + 1, b, hb, hk, hv, (htakes i b hb).1 htake⟩
      · exact .inl ⟨0, a, rfl, hk, hv, htake⟩
      · exact .inr hold
    · rintro (⟨i, b, hb, hk, hv, htake⟩ | hold)
      · cases i with
        | zero =>
          rw [getElem?_cons_zero, Option.some.injEq] at hb
          subst hb
          exact .inr (.inl ⟨hk, hv, htake⟩)
        | succ i => exact .inl ⟨i, b, hb, hk, hv, (htakes i b hb).2 htake⟩
      · exact .inr (.inr hold)

end KeyedStep

section Pairs

variable {order : List (κ × α)} (observe : σ → κ → β) (step : σ → κ × α → σ)

/-- A key that the loop does not visit is left alone. -/
theorem observe_foldl_of_not_mem (hother : ∀ s e k, k ≠ e.1 → observe (step s e) k = observe s k) {k : κ}
    (hk : ∀ a, (k, a) ∉ order) (s : σ) : observe (order.foldl step s) k = observe s k := by
  induction order generalizing s with
  | nil => rfl
  | cons e order ih =>
    have hne : k ≠ e.1 := by
      rintro rfl
      exact hk e.2 mem_cons_self
    rw [foldl_cons, ih fun a ha => hk a (mem_cons_of_mem _ ha), hother s e k hne]

theorem observe_foldl_of_mem (change : κ → β → α → β)
    (hself : ∀ s e, observe (step s e) e.1 = change e.1 (observe s e.1) e.2)
    (hother : ∀ s e k, k ≠ e.1 → observe (step s e) k = observe s k)
    (hnodup : (order.map Prod.fst).Nodup) {k : κ} {a : α} (hmem : (k, a) ∈ order) (s : σ) :
    observe (order.foldl step s) k = change k (observe s k) a := by
  induction order generalizing s with
  | nil => exact absurd hmem not_mem_nil
  | cons e order ih =>
    obtain ⟨hnew, hnodup⟩ := nodup_cons.1 hnodup
    rw [foldl_cons]
    rcases mem_cons.1 hmem with rfl | htail
    · rw [observe_foldl_of_not_mem observe step hother, hself s (k, a)]
      intro a' ha'
      exact hnew (mem_map.2 ⟨_, ha', rfl⟩)
    · have hne : k ≠ e.1 := by
        rintro rfl
        exact hnew (mem_map.2 ⟨_, htail, rfl⟩)
      rw [ih hnodup htail, hother s e k hne]

end Pairs

end DubboGo.Lib
