import Mathlib

/-!
# Completion groups

Workers that overlap in time share a completion channel: the first one to start while nobody works
makes a new channel, and the last one to stop closes it.  Channels are numbered in the order in which
they are made.
-/

namespace DubboGo.Lib

open Multiset

/-- The number of active workers, the channel that was made last, the number of channels made, and the
channels in the order in which they were closed. -/
structure CompletionGroup where
  active : ℤ
  current : Option ℕ
  made : ℕ
  closed : List ℕ

namespace CompletionGroup

def new : CompletionGroup := ⟨0, none, 0, []⟩

def join (g : CompletionGroup) : CompletionGroup :=
  if g.active = 0 then { g with active := g.active + 1, current := some g.made, made := g.made + 1 }
  else { g with active := g.active + 1 }

def leave (g : CompletionGroup) (channel : Option ℕ) : CompletionGroup :=
  if g.active - 1 = 0 ∧ g.current = channel then
    { g with active := g.active - 1, closed := g.closed ++ channel.toList }
  else { g with active := g.active - 1 }

@[simp] theorem leave_current (g : CompletionGroup) (chan : Option ℕ) : (g.leave chan).current = g.current := by
  unfold leave
  split_ifs <;> rfl

/-- The workers hold the channels `held`: all hold the current one, which is the last one made and open as long as
somebody works; every other channel has been closed, and none twice. -/
structure Sound (g : CompletionGroup) (held : Multiset (Option ℕ)) : Prop where
  active : g.active = Multiset.card held
  share : ∀ c ∈ held, ∃ n, c = some n ∧ g.current = some n
  current : ∀ n, g.current = some n → n + 1 = g.made
  closed : ∀ n, n ∈ g.closed ↔ n < g.made ∧ (g.current = some n → held = 0)
  nodup : g.closed.Nodup

namespace Sound

variable {g : CompletionGroup} {held : Multiset (Option ℕ)}

theorem new : Sound new 0 where
  active := rfl
  share := by simp
  current := by simp [CompletionGroup.new]
  closed := by simp [CompletionGroup.new]
  nodup := List.nodup_nil

theorem active_eq_zero_iff (h : Sound g held) : g.active = 0 ↔ held = 0 := by
  rw [h.active, Nat.cast_eq_zero, card_eq_zero]

/-- A goroutine that joins holds the current channel. -/
theorem join (h : Sound g held) : Sound g.join (g.join.current ::ₘ held) := by
  by_cases hz : g.active = 0
  · -- a new channel, which nobody else holds
    have hheld : held = 0 := h.active_eq_zero_iff.1 hz
    subst hheld
    rw [CompletionGroup.join, if_pos hz]
    refine ⟨?_, ?_, ?_, ?_, h.nodup⟩
    · simp [hz]
    · intro c hc
      exact ⟨g.made, by simpa using hc, rfl⟩
    · intro n hn
      cases hn
      rfl
    · intro n
      rw [h.closed n]
      simp only [Option.some.injEq, cons_ne_zero, imp_false, implies_true, and_true]
      omega
  · have hne : held ≠ 0 := fun hheld => hz (h.active_eq_zero_iff.2 hheld)
    obtain ⟨c, hc⟩ := exists_mem_of_ne_zero hne
    obtain ⟨m, -, hm⟩ := h.share c hc
    rw [CompletionGroup.join, if_neg hz]
    refine ⟨?_, ?_, h.current, ?_, h.nodup⟩
    · simp [h.active]
    · intro c hc
      rcases mem_cons.1 hc with rfl | hc
      · exact ⟨m, hm, hm⟩
      · exact h.share c hc
    · intro n
      rw [h.closed n]
      simp only [hne, cons_ne_zero]

/-- The last goroutine that leaves closes the channel of the group. -/
theorem leave {chan : Option ℕ} (h : Sound g (chan ::ₘ held)) : Sound (g.leave chan) held := by
  obtain ⟨m, rfl, hm⟩ := h.share chan (mem_cons_self _ _)
  have hactive : g.active - 1 = card held := by
    rw [h.active, card_cons]
    push_cast
    ring
  have hshare : ∀ c ∈ held, ∃ n, c = some n ∧ g.current = some n :=
    fun c hc => h.share c (mem_cons_of_mem hc)
  have hmade := h.current m hm
  have hopen : m ∉ g.closed := by
    rw [h.closed m]
    rintro ⟨-, hzero⟩
    exact cons_ne_zero (hzero hm)
  by_cases hz : held = 0
  · -- the last worker of the channel
    subst hz
    rw [CompletionGroup.leave, if_pos ⟨by simp [hactive], hm⟩]
    refine ⟨by simp [hactive], hshare, h.current, ?_, ?_⟩
    · intro n
      rw [Option.toList_some, List.mem_append, List.mem_singleton, h.closed n, hm]
      simp only [Option.some.injEq, cons_ne_zero, imp_false, implies_true, and_true]
      omega
    · rw [Option.toList_some]
      exact List.nodup_append.2 ⟨h.nodup, List.nodup_singleton m, by
        intro a ha b hb
        rw [List.mem_singleton.1 hb]
        rintro rfl
        exact hopen ha⟩
  · have hne : ¬ (g.active - 1 = 0 ∧ g.current = some m) := by
      rw [hactive, Nat.cast_eq_zero, card_eq_zero]
      exact fun h => hz h.1
    rw [CompletionGroup.leave, if_neg hne]
    refine ⟨hactive, hshare, h.current, ?_, h.nodup⟩
    intro n
    rw [h.closed n]
    simp only [hz, cons_ne_zero]

theorem mem_closed_iff (h : Sound g held) (n : ℕ) : n ∈ g.closed ↔ n < g.made ∧ some n ∉ held := by
  rw [h.closed n]
  refine and_congr_right fun _ => ⟨?_, ?_⟩
  · intro hzero hmem
    obtain ⟨m, hm, hcur⟩ := h.share _ hmem
    rw [hzero (hcur.trans hm.symm)] at hmem
    exact notMem_zero _ hmem
  · intro hno hcur
    by_contra hne
    obtain ⟨c, hc⟩ := exists_mem_of_ne_zero hne
    obtain ⟨m, rfl, hm⟩ := h.share c hc
    rw [hm] at hcur
    cases hcur
    exact hno hc

theorem held_eq_zero (h : Sound g held) (hc : ∀ n, g.current = some n → n ∈ g.closed) : held = 0 := by
  by_contra hne
  obtain ⟨c, hmem⟩ := exists_mem_of_ne_zero hne
  obtain ⟨m, rfl, hm⟩ := h.share c hmem
  exact ((h.mem_closed_iff m).1 (hc m hm)).2 hmem

end Sound

end CompletionGroup

end DubboGo.Lib
