import Mathlib

/-!
# Publishing what was computed earlier

Workers write a content that they share.  Each of them then computes a value from the content and
publishes it in a later step, so that a value may be published after one which is newer.
-/

namespace DubboGo.Lib.Publication

open Multiset

variable {α β : Type*}

/-- What a worker has still to do: compute a value, or publish the one it has computed. -/
inductive Worker (β : Type*) where
  | writing
  | holding (version : ℕ) (value : β)

/-- The content after `version` writes, and the value published last, which was computed after
`publishedVersion` of them. -/
@[ext]
structure Board (α β : Type*) where
  content : α
  version : ℕ
  published : β
  publishedVersion : ℕ
  workers : Multiset (Worker β)

inductive Step (f : α → β) (b : Board α β) : Board α β → Prop where
  | join : Step f b { b with workers := .writing ::ₘ b.workers }
  | write (content : α) (h : .writing ∈ b.workers) : Step f b { b with content := content, version := b.version + 1 }
  | compute (rest : Multiset (Worker β)) (h : b.workers = .writing ::ₘ rest) :
      Step f b { b with workers := .holding b.version (f b.content) ::ₘ rest }
  | publish (version : ℕ) (value : β) (rest : Multiset (Worker β))
      (h : b.workers = .holding version value ::ₘ rest) (hnewer : b.publishedVersion ≤ version) :
      Step f b { b with published := value, publishedVersion := version, workers := rest }

/-- What was computed from the present content is its value; and unless that has been published, some
worker will get to it. -/
structure UpToDate (f : α → β) (b : Board α β) : Prop where
  held : ∀ version value, .holding version value ∈ b.workers →
    version ≤ b.version ∧ (version = b.version → value = f b.content)
  published : b.publishedVersion ≤ b.version ∧ (b.publishedVersion = b.version → b.published = f b.content)
  pending : b.publishedVersion = b.version ∨ .writing ∈ b.workers ∨ ∃ value, .holding b.version value ∈ b.workers

namespace UpToDate

variable {f : α → β} {b b' : Board α β}

theorem step (h : UpToDate f b) (hstep : Step f b b') : UpToDate f b' := by
  cases hstep with
  | join =>
    refine ⟨?_, h.published, .inr (.inl (mem_cons_self _ _))⟩
    intro ver value hmem
    rcases mem_cons.1 hmem with heq | hmem
    · cases heq
    · exact h.held ver value hmem
  | write cont hwriting =>
    -- everything computed or published so far has become older than the content
    refine ⟨?_, ?_, .inr (.inl hwriting)⟩
    · intro ver value hmem
      have hle := (h.held ver value hmem).1
      dsimp only
      exact ⟨by omega, fun heq => by omega⟩
    · have hle := h.published.1
      dsimp only
      exact ⟨by omega, fun heq => by omega⟩
  | compute rest hworkers =>
    refine ⟨?_, h.published, .inr (.inr ⟨_, mem_cons_self _ _⟩)⟩
    intro ver value hmem
    rcases mem_cons.1 hmem with heq | hmem
    · cases heq
      exact ⟨le_rfl, fun _ => rfl⟩
    · apply h.held ver value
      rw [hworkers]
      exact mem_cons_of_mem hmem
  | publish ver value rest hworkers hnewer =>
    have hheld := h.held ver value (by rw [hworkers]; exact mem_cons_self _ _)
    have hrest : ∀ w ∈ rest, w ∈ b.workers := by
      intro w hw
      rw [hworkers]
      exact mem_cons_of_mem hw
    refine ⟨fun v x hmem => h.held v x (hrest _ hmem), hheld, ?_⟩
    by_cases hversion : ver = b.version
    · exact .inl hversion
    · -- the value is old, so the present one has not been published: another worker will get to it
      have hpending := h.pending
      rw [hworkers] at hpending
      rcases hpending with heq | hwriting | ⟨x, hmem⟩
      · have hle := hheld.1
        omega
      · rcases mem_cons.1 hwriting with heq | hmem
        · cases heq
        · exact .inr (.inl hmem)
      · rcases mem_cons.1 hmem with heq | hmem
        · cases heq
          exact absurd rfl hversion
        · exact .inr (.inr ⟨x, hmem⟩)

theorem steps (h : UpToDate f b) (hsteps : Relation.ReflTransGen (Step f) b b') : UpToDate f b' := by
  induction hsteps with
  | refl => exact h
  | tail _ hstep ih => exact ih.step hstep

theorem published_eq (h : UpToDate f b) (hworkers : b.workers = 0) : b.published = f b.content := by
  apply h.published.2
  have hpending := h.pending
  rw [hworkers] at hpending
  rcases hpending with heq | hmem | ⟨x, hmem⟩
  · exact heq
  · exact absurd hmem (notMem_zero _)
  · exact absurd hmem (notMem_zero _)

end UpToDate

/-! ## Workers that are threads of a pool -/

/-- A thread that moves changes the work of no other. -/
theorem exists_others {τ : Type*} (wk : τ → Option (Worker β)) {ths : List τ} {i : ℕ} {a : τ} (h : ths[i]? = some a) :
    ∃ others : Multiset (Worker β), (ths.filterMap wk : Multiset (Worker β)) = (wk a).toList + others ∧
      ∀ b, ((ths.set i b).filterMap wk : Multiset (Worker β)) = (wk b).toList + others := by
  obtain ⟨hlt, rfl⟩ := List.getElem?_eq_some_iff.1 h
  have hcons : ∀ b, (((b :: ths.eraseIdx i).filterMap wk : List (Worker β)) :
      Multiset (Worker β)) = (wk b).toList + ((ths.eraseIdx i).filterMap wk : List _) := by
    intro b
    cases hb : wk b <;> simp [hb]
  refine ⟨((ths.eraseIdx i).filterMap wk : List _), ?_, ?_⟩
  · rw [← hcons, coe_eq_coe]
    exact (List.getElem_cons_eraseIdx_perm hlt).symm.filterMap wk
  · intro b
    rw [← hcons, coe_eq_coe]
    exact (List.set_perm_cons_eraseIdx hlt b).filterMap wk

end DubboGo.Lib.Publication
