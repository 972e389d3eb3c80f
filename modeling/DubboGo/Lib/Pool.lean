import DubboGo.Lib.Reachable

/-!
# Pools of threads

A system whose threads take turns is a step function on labelled actions.  `ReachedBy` are its states
under a condition on the steps, and `runWhile` computes one of them.
-/

namespace DubboGo.Lib

open Multiset

/-! ## Runs -/

section Runs

variable {σ α : Type*} {step : σ → α → Option σ} {Init : σ → Prop} {condition : σ → α → Prop}

def ReachedBy (step : σ → α → Option σ) (Init : σ → Prop) (condition : σ → α → Prop) : σ → Prop :=
  Reachable Init fun s t => ∃ action, condition s action ∧ step s action = some t

def runWhile (step : σ → α → Option σ) (condition : σ → α → Prop)
    [∀ s action, Decidable (condition s action)] : List α → σ → Option σ
  | [], s => some s
  | action :: actions, s =>
    if condition s action then (step s action).bind (runWhile step condition actions) else none

namespace ReachedBy

/-- A run from a reached state ends in one. -/
theorem runWhile [∀ s act, Decidable (condition s act)] {acts : List α} {s t : σ}
    (h : ReachedBy step Init condition s) (hrun : Lib.runWhile step condition acts s = some t) :
    ReachedBy step Init condition t := by
  induction acts generalizing s with
  | nil =>
    cases hrun
    exact h
  | cons act acts ih =>
    rw [Lib.runWhile] at hrun
    split_ifs at hrun with hcondition
    obtain ⟨u, hstep, hrun⟩ := Option.bind_eq_some_iff.1 hrun
    exact ih (h.step ⟨act, hcondition, hstep⟩) hrun

/-- A run that is computed ends in a state that is reached. -/
theorem of_run (step : σ → α → Option σ) (condition : σ → α → Prop)
    [∀ s act, Decidable (condition s act)] (s : σ) (acts : List α) (p : σ → Prop) [DecidablePred p]
    (h : ((Lib.runWhile step condition acts s).any fun t => decide (p t)) = true) :
    ∃ t, ReachedBy step (· = s) condition t ∧ p t := by
  obtain ⟨t, hrun, ht⟩ := (Option.any_eq_true _ _).1 h
  exact ⟨t, runWhile (.init rfl) hrun, of_decide_eq_true ht⟩

theorem invariant (Inv : σ → Prop) (hinit : ∀ s, Init s → Inv s)
    (hstep : ∀ s act t, Inv s → condition s act → step s act = some t → Inv t) {s : σ}
    (h : ReachedBy step Init condition s) : Inv s := by
  refine Reachable.invariant hinit ?_ h
  rintro s t hs ⟨act, hcondition, hst⟩
  exact hstep s act t hs hcondition hst

end ReachedBy

theorem foldlM_invariant (Inv : σ → Prop) {acts : List α}
    (hstep : ∀ act ∈ acts, ∀ s t, Inv s → step s act = some t → Inv t) {s t : σ} (hs : Inv s)
    (h : acts.foldlM step s = some t) : Inv t := by
  induction acts generalizing s with
  | nil =>
    cases h
    exact hs
  | cons act acts ih =>
    obtain ⟨u, hu, h⟩ := Option.bind_eq_some_iff.1 h
    refine ih (fun a ha => hstep a (List.mem_cons_of_mem _ ha)) ?_ h
    exact hstep act List.mem_cons_self s u hs hu

end Runs

/-! ## A shared state and its threads -/

structure Pool (σ τ : Type*) where
  shared : σ
  threads : List τ

namespace Pool

variable {σ τ : Type*} {p q : Pool σ τ} {next : σ → τ → Option (σ × τ)} {i : ℕ} {a b : τ}

def spawn (shared : σ) (b : τ) (p : Pool σ τ) : Pool σ τ where
  shared := shared
  threads := p.threads ++ [b]

/-- Thread `i` takes its next step. -/
def advance (next : σ → τ → Option (σ × τ)) (i : ℕ) (p : Pool σ τ) : Option (Pool σ τ) :=
  p.threads[i]?.bind fun a => (next p.shared a).map fun r => ⟨r.1, p.threads.set i r.2⟩

theorem coe_threads_spawn (shared : σ) (b : τ) (p : Pool σ τ) :
    ((p.spawn shared b).threads : Multiset τ) = b ::ₘ p.threads := by
  rw [spawn, cons_coe, coe_eq_coe]
  exact List.perm_append_singleton b p.threads

/-- A step of the pool is a step of one thread; the others stay where they are. -/
theorem advance_cases (h : p.advance next i = some q) :
    ∃ a b others, p.threads[i]? = some a ∧ next p.shared a = some (q.shared, b) ∧
      (p.threads : Multiset τ) = a ::ₘ others ∧ (q.threads : Multiset τ) = b ::ₘ others := by
  obtain ⟨a, hi, hmap⟩ := Option.bind_eq_some_iff.1 h
  obtain ⟨⟨shared, b⟩, hnext, rfl⟩ := Option.map_eq_some_iff.1 hmap
  obtain ⟨hlt, rfl⟩ := List.getElem?_eq_some_iff.1 hi
  refine ⟨p.threads[i], b, (p.threads.eraseIdx i : List τ), hi, hnext, ?_, ?_⟩
  · rw [cons_coe, coe_eq_coe]
    exact (List.getElem_cons_eraseIdx_perm hlt).symm
  · rw [cons_coe, coe_eq_coe]
    exact List.set_perm_cons_eraseIdx hlt b

end Pool

/-- What one thread holds is counted once, if it holds anything. -/
theorem filterMap_cons_elim {τ β : Type*} (f : τ → Option β) (a : τ) (threads : Multiset τ) :
    (a ::ₘ threads).filterMap f = (f a).elim (threads.filterMap f) (· ::ₘ threads.filterMap f) := by
  cases h : f a with
  | none => exact filterMap_cons_none _ _ h
  | some b => exact filterMap_cons_some _ _ _ h

/-! ## Something that one thread at most has -/

section Holder

variable {τ β : Type*} {f : τ → Option β} {a b : τ} {v : β} {ths : Multiset τ} {holder : Option β}

/-- A thread that holds the resource is the holder, and no other thread holds it. -/
theorem holder_eq_some (honly : (a ::ₘ ths).filterMap f = (holder.toList : Multiset β))
    (ha : f a = some v) : holder = some v ∧ ths.filterMap f = 0 := by
  rw [filterMap_cons_some _ _ _ ha] at honly
  cases holder with
  | none => exact absurd honly cons_ne_zero
  | some w =>
    obtain ⟨rfl, hnone⟩ := (singleton_eq_cons_iff _).1 honly.symm
    exact ⟨rfl, hnone⟩

theorem holder_eq_none (honly : ths.filterMap f = (holder.toList : Multiset β))
    (hnone : ∀ a ∈ ths, f a = none) : holder = none := by
  cases holder with
  | none => rfl
  | some v =>
    have hmem : v ∈ ths.filterMap f := by
      rw [honly]
      exact mem_singleton_self v
    obtain ⟨a, ha, hv⟩ := (mem_filterMap _ _).1 hmem
    rw [hnone a ha] at hv
    cases hv

/-- If the others hold nothing, what is held is what this thread holds. -/
theorem filterMap_cons_of_zero (hothers : ths.filterMap f = 0) :
    (b ::ₘ ths).filterMap f = ((f b).toList : Multiset β) := by
  rw [filterMap_cons_elim, hothers]
  cases f b <;> rfl

/-- A thread that moves without the resource leaves the holder as it is. -/
theorem filterMap_cons_of_none (honly : (a ::ₘ ths).filterMap f = (holder.toList : Multiset β))
    (ha : f a = none) (hb : f b = none) : (b ::ₘ ths).filterMap f = (holder.toList : Multiset β) := by
  rw [filterMap_cons_none _ _ ha] at honly
  rw [filterMap_cons_none _ _ hb, honly]

end Holder

/-! ## Counting threads -/

section Tally

variable {τ : Type*} {kind kind' : τ → Bool} {threads : Multiset τ}

def tally (kind : τ → Bool) (threads : Multiset τ) : ℕ := threads.countP (kind ·)

@[simp]
theorem tally_zero (kind : τ → Bool) : tally kind 0 = 0 := rfl

@[simp]
theorem tally_cons (kind : τ → Bool) (a : τ) (threads : Multiset τ) :
    tally kind (a ::ₘ threads) = tally kind threads + (kind a).toNat := by
  rw [tally, countP_cons]
  cases kind a <;> rfl

theorem tally_eq_zero_iff : tally kind threads = 0 ↔ ∀ a ∈ threads, kind a = false := by
  simp [tally, countP_eq_zero]

theorem tally_mono (h : ∀ a ∈ threads, kind a = true → kind' a = true) :
    tally kind threads ≤ tally kind' threads := by
  induction threads using Multiset.induction with
  | empty => exact le_rfl
  | cons a threads ih =>
    rw [Multiset.forall_mem_cons] at h
    have hle := ih h.2
    have ha := Bool.toNat_le_toNat (Bool.le_iff_imp.2 h.1)
    simp only [tally_cons]
    omega

end Tally

end DubboGo.Lib
