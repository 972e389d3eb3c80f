import Mathlib

/-!
# Writes with retries

A writer goes through snapshots, which have one value for each of their keys, and tries to write each value under its
key.  For a value that it could not write a retry is entered, unless the key has one; retries write the value that
they were entered for.
-/

namespace DubboGo.Lib.RetriedWrites

variable {κ υ : Type*} [DecidableEq κ]

/-- For each key the value that a retry is there for and the value that was written last; and the keys
whose retries were given up after a value for them was last tried. -/
@[ext]
structure Board (κ υ : Type*) where
  retry : κ → Option υ
  written : κ → Option υ
  gaveUp : Set κ

namespace Board

variable (key : υ → κ)

def attempt (u : υ) (ok : Bool) (b : Board κ υ) : Board κ υ :=
  { b with
    written := if ok then Function.update b.written (key u) (some u) else b.written
    gaveUp := b.gaveUp \ {key u} }

def enter (u : υ) (b : Board κ υ) : Board κ υ :=
  if (b.retry (key u)).isSome then b else { b with retry := Function.update b.retry (key u) (some u) }

def rewrite (k : κ) (b : Board κ υ) : Board κ υ :=
  { b with written := Function.update b.written k (b.retry k) }

def drop (k : κ) (b : Board κ υ) : Board κ υ := { b with retry := Function.update b.retry k none }

def giveUp (k : κ) (b : Board κ υ) : Board κ υ :=
  { b with retry := Function.update b.retry k none, gaveUp := insert k b.gaveUp }

/-- The value is the last one written under its key, or it was given up, or a retry is there for it. -/
def Settled (b : Board κ υ) (u : υ) : Prop :=
  b.written (key u) = some u ∨ key u ∈ b.gaveUp ∨ b.retry (key u) = some u

def Alone (b : Board κ υ) (u : υ) : Prop := ∀ v, b.retry (key u) = some v → v = u

variable {b : Board κ υ} {k k' : κ}

theorem written_rewrite_self (b : Board κ υ) (k : κ) : (b.rewrite k).written k = b.retry k :=
  Function.update_self ..

theorem written_rewrite_of_ne (h : k' ≠ k) : (b.rewrite k).written k' = b.written k' :=
  Function.update_of_ne h ..

theorem retry_drop_self (b : Board κ υ) (k : κ) : (b.drop k).retry k = none := Function.update_self ..

theorem retry_drop_of_ne (h : k' ≠ k) : (b.drop k).retry k' = b.retry k' := Function.update_of_ne h ..

end Board

open Board

/-! ## Retries that have written -/

def Rewritten (b : Board κ υ) (keys : Multiset κ) : Prop :=
  ∀ k ∈ keys, ∃ v, b.retry k = some v ∧ b.written k = some v

namespace Rewritten

variable {key : υ → κ} {b : Board κ υ} {keys : Multiset κ} {k : κ} {u : υ}

variable (h : Rewritten b keys)

include h

theorem attempt (halone : b.Alone key u) (ok : Bool) : Rewritten (b.attempt key u ok) keys := by
  intro k hk
  obtain ⟨v, hretry, hwritten⟩ := h k hk
  refine ⟨v, hretry, ?_⟩
  dsimp only [Board.attempt]
  split_ifs
  · by_cases hku : k = key u
    · subst hku
      rw [Function.update_self, halone v hretry]
    · rw [Function.update_of_ne hku, hwritten]
  · exact hwritten

theorem enter : Rewritten (b.enter key u) keys := by
  intro k hk
  obtain ⟨v, hretry, hwritten⟩ := h k hk
  unfold Board.enter
  split_ifs with hsome
  · exact ⟨v, hretry, hwritten⟩
  · refine ⟨v, ?_, hwritten⟩
    dsimp only
    rw [Function.update_of_ne, hretry]
    rintro rfl
    exact hsome (by rw [hretry]; rfl)

theorem rewrite (hk : (b.retry k).isSome) : Rewritten (b.rewrite k) (k ::ₘ keys) := by
  obtain ⟨v, hv⟩ := Option.isSome_iff_exists.1 hk
  intro k' hk'
  by_cases heq : k' = k
  · subst heq
    exact ⟨v, hv, (written_rewrite_self b k').trans hv⟩
  · obtain ⟨w, hretry, hwritten⟩ := h k' ((Multiset.mem_cons.1 hk').resolve_left heq)
    exact ⟨w, hretry, (written_rewrite_of_ne heq).trans hwritten⟩

theorem drop (hk : k ∉ keys) : Rewritten (b.drop k) keys := by
  intro k' hk'
  obtain ⟨v, hretry, hwritten⟩ := h k' hk'
  have hne : k' ≠ k := fun heq => hk (heq ▸ hk')
  exact ⟨v, (retry_drop_of_ne hne).trans hretry, hwritten⟩

theorem giveUp (hk : k ∉ keys) : Rewritten (b.giveUp k) keys := h.drop hk

end Rewritten

/-! ## A snapshot -/

/-- The writer has yet to try the values `todo` of a snapshot and to enter retries for those of `failed`;
it is through with the others. -/
structure Progress (key : υ → κ) (b : Board κ υ) (snapshot todo failed : List υ) : Prop where
  nodup : (snapshot.map key).Nodup
  todo_sublist : todo.Sublist snapshot
  failed_subset : ∀ u ∈ failed, u ∈ snapshot
  alone : ∀ u ∈ snapshot, u ∉ todo → b.Alone key u
  settled : ∀ u ∈ snapshot, u ∉ todo → u ∈ failed ∨ b.Settled key u

namespace Progress

variable {key : υ → κ} {b : Board κ υ} {snapshot todo failed : List υ} {k : κ} {u v : υ}

omit [DecidableEq κ] in
/-- Before the first attempt everything is to be done. -/
theorem start (b : Board κ υ) (h : (snapshot.map key).Nodup) : Progress key b snapshot snapshot [] where
  nodup := h
  todo_sublist := List.Sublist.refl _
  failed_subset := fun _ hu => absurd hu List.not_mem_nil
  alone := fun _ hu hnot => absurd hu hnot
  settled := fun _ hu hnot => absurd hu hnot

omit [DecidableEq κ] in
theorem eq_of_key_eq (h : Progress key b snapshot todo failed) (hu : u ∈ snapshot) (hv : v ∈ snapshot)
    (heq : key u = key v) : u = v :=
  List.inj_on_of_nodup_map h.nodup hu hv heq

theorem attempt (h : Progress key b snapshot (u :: todo) failed) (halone : b.Alone key u) (ok : Bool) :
    Progress key (b.attempt key u ok) snapshot todo (if ok then failed else failed ++ [u]) := by
  have hu : u ∈ snapshot := h.todo_sublist.subset List.mem_cons_self
  have hfailed : ∀ v ∈ failed, v ∈ if ok then failed else failed ++ [u] := by
    intro v hv
    split_ifs
    · exact hv
    · exact List.mem_append_left _ hv
  refine ⟨h.nodup, (List.sublist_cons_self u todo).trans h.todo_sublist, ?_, ?_, ?_⟩
  · intro v hv
    split_ifs at hv
    · exact h.failed_subset v hv
    · rcases List.mem_append.1 hv with hv | hv
      · exact h.failed_subset v hv
      · rwa [List.mem_singleton.1 hv]
  · intro v hv hnot
    by_cases hvu : v = u
    · rwa [hvu]
    · exact h.alone v hv (List.not_mem_cons_of_ne_of_not_mem hvu hnot)
  · intro v hv hnot
    by_cases hvu : v = u
    · subst hvu
      cases ok with
      | true => exact .inr (.inl (Function.update_self ..))
      | false => exact .inl (List.mem_append_right _ List.mem_cons_self)
    · have hkey : key v ≠ key u := fun heq => hvu (h.eq_of_key_eq hv hu heq)
      rcases h.settled v hv (List.not_mem_cons_of_ne_of_not_mem hvu hnot) with hmem | hwritten | hgaveUp | hretry
      · exact .inl (hfailed v hmem)
      · refine .inr (.inl ?_)
        dsimp only [Board.attempt]
        split_ifs
        · rw [Function.update_of_ne hkey, hwritten]
        · exact hwritten
      · exact .inr (.inr (.inl ⟨hgaveUp, hkey⟩))
      · exact .inr (.inr (.inr hretry))

theorem enter (h : Progress key b snapshot [] (u :: failed)) : Progress key (b.enter key u) snapshot [] failed := by
  have hu : u ∈ snapshot := h.failed_subset u List.mem_cons_self
  have hretry : (b.enter key u).retry (key u) = some u := by
    unfold Board.enter
    split_ifs with hsome
    · obtain ⟨v, hv⟩ := Option.isSome_iff_exists.1 hsome
      rw [hv, h.alone u hu List.not_mem_nil v hv]
    · exact Function.update_self ..
  have hother : ∀ v ∈ snapshot, v ≠ u → (b.enter key u).retry (key v) = b.retry (key v) := by
    intro v hv hvu
    unfold Board.enter
    split_ifs
    · rfl
    · exact Function.update_of_ne (fun heq => hvu (h.eq_of_key_eq hv hu heq)) ..
  have hwritten : (b.enter key u).written = b.written ∧ (b.enter key u).gaveUp = b.gaveUp := by
    unfold Board.enter
    split_ifs <;> exact ⟨rfl, rfl⟩
  refine ⟨h.nodup, h.todo_sublist, fun v hv => h.failed_subset v (List.mem_cons_of_mem _ hv), ?_, ?_⟩
  · intro v hv _ w hw
    by_cases hvu : v = u
    · subst hvu
      rw [hretry] at hw
      exact (Option.some.inj hw).symm
    · rw [hother v hv hvu] at hw
      exact h.alone v hv List.not_mem_nil w hw
  · intro v hv _
    by_cases hvu : v = u
    · subst hvu
      exact .inr (.inr (.inr hretry))
    · rcases h.settled v hv List.not_mem_nil with hmem | hsettled
      · exact .inl ((List.mem_cons.1 hmem).resolve_left hvu)
      · right
        rwa [Settled, hwritten.1, hwritten.2, hother v hv hvu]

section

variable (h : Progress key b snapshot todo failed)

include h

theorem rewrite (hk : (b.retry k).isSome) : Progress key (b.rewrite k) snapshot todo failed := by
  refine ⟨h.nodup, h.todo_sublist, h.failed_subset, h.alone, ?_⟩
  intro u hu hnot
  rcases h.settled u hu hnot with hmem | hwritten | hsettled
  · exact .inl hmem
  · refine .inr (.inl ?_)
    by_cases heq : key u = k
    · subst heq
      obtain ⟨v, hv⟩ := Option.isSome_iff_exists.1 hk
      rw [written_rewrite_self, hv, h.alone u hu hnot v hv]
    · rw [written_rewrite_of_ne heq, hwritten]
  · exact .inr (.inr hsettled)

theorem drop_alone : ∀ u ∈ snapshot, u ∉ todo → (b.drop k).Alone key u := by
  intro u hu hnot v hv
  by_cases heq : key u = k
  · rw [heq, retry_drop_self] at hv
    cases hv
  · rw [retry_drop_of_ne heq] at hv
    exact h.alone u hu hnot v hv

theorem drop (hk : b.written k = b.retry k) : Progress key (b.drop k) snapshot todo failed := by
  refine ⟨h.nodup, h.todo_sublist, h.failed_subset, h.drop_alone, ?_⟩
  intro u hu hnot
  rcases h.settled u hu hnot with hmem | hwritten | hgaveUp | hretry
  · exact .inl hmem
  · exact .inr (.inl hwritten)
  · exact .inr (.inr (.inl hgaveUp))
  · by_cases heq : key u = k
    · subst heq
      exact .inr (.inl (hk.trans hretry))
    · exact .inr (.inr (.inr ((retry_drop_of_ne heq).trans hretry)))

theorem giveUp : Progress key (b.giveUp k) snapshot todo failed := by
  refine ⟨h.nodup, h.todo_sublist, h.failed_subset, h.drop_alone, ?_⟩
  intro u hu hnot
  rcases h.settled u hu hnot with hmem | hwritten | hgaveUp | hretry
  · exact .inl hmem
  · exact .inr (.inl hwritten)
  · exact .inr (.inr (.inl (Set.mem_insert_of_mem _ hgaveUp)))
  · by_cases heq : key u = k
    · exact .inr (.inr (.inl (heq ▸ Set.mem_insert _ _)))
    · exact .inr (.inr (.inr ((retry_drop_of_ne heq).trans hretry)))

end

omit [DecidableEq κ] in
theorem written_or_gaveUp (h : Progress key b snapshot [] []) (hretry : ∀ k, b.retry k = none)
    (hu : u ∈ snapshot) : b.written (key u) = some u ∨ key u ∈ b.gaveUp := by
  rcases h.settled u hu List.not_mem_nil with hmem | hwritten | hgaveUp | hsome
  · exact absurd hmem List.not_mem_nil
  · exact .inl hwritten
  · exact .inr hgaveUp
  · rw [hretry] at hsome
    cases hsome

end Progress

end DubboGo.Lib.RetriedWrites
