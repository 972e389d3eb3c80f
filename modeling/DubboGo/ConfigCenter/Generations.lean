import DubboGo.ConfigCenter.CacheListener

/-!
# Cached values and the generation of the cache

`reset` begins a new generation.  What a read brings is kept only if the generation is the one in which it was
prepared: the loads look at the generation when they store, and the event loop carries the one of its event in
`eventGeneration`.  The generation is the number of resets modulo `2 ^ 64`, so that the fence holds for as long as there
are fewer resets.
-/

namespace DubboGo.ConfigCenter

open Go Lib ConfigCache Option Function

/-! ## What a call does to the entries -/

structure State.Keeps (s t : State) : Prop where
  generation : t.cache.generation = s.cache.generation
  resets : t.cache.resets = s.cache.resets
  eventGeneration : t.eventGeneration = s.eventGeneration
  entries : ∀ e ∈ t.cache.entries, e ∈ s.cache.entries ∨ e.2.readAt = s.cache.resets

namespace State.Keeps

variable {s t : State} {path : Path}

theorem refl (s : State) : s.Keeps s := ⟨rfl, rfl, rfl, fun _ => .inl⟩

theorem of_edits (h : Edits path s.cache t.cache) (hevents : t.eventGeneration = s.eventGeneration) : s.Keeps t :=
  ⟨h.frame.generation, h.frame.resets, hevents, fun _ he => .inl (h.frame.entries ▸ he)⟩

theorem of_subset {c : ConfigCache} (hsame : c.generation = s.cache.generation ∧ c.resets = s.cache.resets)
    (hentries : ∀ e ∈ c.entries, e ∈ s.cache.entries) : s.Keeps { s with cache := c } :=
  ⟨hsame.1, hsame.2, rfl, fun e he => .inl (hentries e he)⟩

end State.Keeps

/-- The generation is that of the resets, and it has not wrapped around. -/
structure State.Counts (s : State) : Prop where
  generation : s.cache.generation = UInt64.ofNat s.cache.resets
  bound : s.cache.resets < 2 ^ 64

namespace ConfigCache

variable {c : ConfigCache} {path : Path} {now : ℤ}

theorem peekFresh_spec (c : ConfigCache) (path : Path) (now : ℤ) :
    ((c.peekFresh path now).2.generation = c.generation ∧ (c.peekFresh path now).2.resets = c.resets) ∧
      (∀ e ∈ (c.peekFresh path now).2.entries, e ∈ c.entries) ∧
      ∀ ent, (c.peekFresh path now).1 = .ok ent → (path, ent) ∈ c.entries := by
  unfold peekFresh
  dsimp only
  cases hget : (c.lru.get path c.entries).1 with
  | none =>
    refine ⟨⟨rfl, rfl⟩, fun e he => c.lru.mem_of_mem_get he, fun ent h => ?_⟩
    cases h
  | some found =>
    refine ⟨⟨rfl, rfl⟩, fun e he => c.lru.mem_of_mem_get he, fun ent h => ?_⟩
    dsimp only at h
    split_ifs at h
    cases h
    exact c.lru.mem_of_get_eq_some hget

theorem getFresh_spec (c : ConfigCache) (path : Path) (now : ℤ) :
    ((c.getFresh path now).2.generation = c.generation ∧ (c.getFresh path now).2.resets = c.resets) ∧
      (∀ e ∈ (c.getFresh path now).2.entries, e ∈ c.entries) ∧
      ∀ ent, (c.getFresh path now).1 = some ent → (path, ent) ∈ c.entries := by
  unfold getFresh
  dsimp only
  cases hget : (c.lru.get path c.entries).1 with
  | none =>
    refine ⟨⟨rfl, rfl⟩, fun e he => c.lru.mem_of_mem_get he, fun ent h => ?_⟩
    cases h
  | some found =>
    dsimp only
    split_ifs
    · refine ⟨⟨rfl, rfl⟩, fun e he => c.lru.mem_of_mem_get he, fun ent h => ?_⟩
      cases h
      exact c.lru.mem_of_get_eq_some hget
    · refine ⟨⟨rfl, rfl⟩, fun e he => c.lru.mem_of_mem_get (c.lru.mem_of_mem_remove he), fun ent h => ?_⟩
      cases h

theorem generation_prepareLoad (c : ConfigCache) (path : Path) : (c.prepareLoad path).1.1 = c.generation := by
  unfold prepareLoad
  dsimp only
  split_ifs <;> rfl

theorem generation_beginWatchRenewalLocked (c : ConfigCache) (path : Path) (hasListeners : Bool) :
    (c.beginWatchRenewalLocked path hasListeners).1.1 = c.generation := by
  unfold beginWatchRenewalLocked
  split
  · split_ifs <;> rfl
  · split_ifs <;> rfl

theorem reset_spec (c : ConfigCache) (sid : ℤ) (paths : List Path) :
    (c.reset sid paths).generation = c.generation + 1 ∧ (c.reset sid paths).resets = c.resets + 1 ∧
      (c.reset sid paths).entries = [] := by
  have hfold : ∀ c : ConfigCache, (paths.foldl (dropOldWatch sid) c).generation = c.generation ∧
      (paths.foldl (dropOldWatch sid) c).resets = c.resets ∧
      (paths.foldl (dropOldWatch sid) c).entries = c.entries := by
    induction paths with
    | nil => exact fun c => ⟨rfl, rfl, rfl⟩
    | cons path paths ih =>
      intro c
      have hframe := (edits_dropOldWatch sid c path).frame
      obtain ⟨hgeneration, hresets, hentries⟩ := ih (dropOldWatch sid c path)
      exact ⟨hgeneration.trans hframe.generation, hresets.trans hframe.resets, hentries.trans hframe.entries⟩
  exact hfold _

theorem mem_storeEntryLocked {ent : ConfigCacheEntry} {e : Path × ConfigCacheEntry}
    (he : e ∈ (c.storeEntryLocked path ent now).entries) : e ∈ c.entries ∨ e.2.readAt = ent.readAt := by
  rcases c.lru.mem_of_mem_add he with rfl | he
  · exact .inr rfl
  · exact .inl he

end ConfigCache

/-! ## Loads -/

/-- A read that an attempt of some generation makes: the generation was the current one after `since` resets or more,
and the read begins after no fewer. -/
def Fence (since : ℕ) (generation : UInt64) (readAt : Option ℕ) (now : ℕ) : Prop :=
  ∃ g, generation = UInt64.ofNat g ∧ since ≤ g ∧ g ≤ now ∧ ∀ r ∈ readAt, g ≤ r ∧ r ≤ now

namespace Fence

variable {since now now' : ℕ} {generation : UInt64} {readAt : Option ℕ}

theorem begin (hsince : since ≤ now) (hnow : generation = UInt64.ofNat now) : Fence since generation none now :=
  ⟨now, hnow, hsince, le_rfl, fun r hr => by cases hr⟩

theorem mono (h : Fence since generation readAt now) (hnow : now ≤ now') : Fence since generation readAt now' := by
  obtain ⟨g, heq, hsince, hle, hread⟩ := h
  exact ⟨g, heq, hsince, hle.trans hnow, fun r hr => ⟨(hread r hr).1, (hread r hr).2.trans hnow⟩⟩

theorem start (h : Fence since generation readAt now) : Fence since generation (some now) now := by
  obtain ⟨g, heq, hsince, hle, -⟩ := h
  exact ⟨g, heq, hsince, hle, fun r hr => by cases hr; exact ⟨hle, le_rfl⟩⟩

theorem none (h : Fence since generation readAt now) : Fence since generation none now := by
  obtain ⟨g, heq, hsince, hle, -⟩ := h
  exact ⟨g, heq, hsince, hle, fun r hr => by cases hr⟩

theorem since_le_read {r : ℕ} (h : Fence since generation (some r) now) : since ≤ r := by
  obtain ⟨g, -, hsince, -, hread⟩ := h
  exact hsince.trans (hread r rfl).1

/-- With fewer than `2 ^ 64` resets a generation that is current again is the same one. -/
theorem read_eq {r : ℕ} (h : Fence since generation (some r) now) (hnow : now < 2 ^ 64)
    (hcurrent : UInt64.ofNat now = generation) : r = now := by
  obtain ⟨g, heq, -, hle, hread⟩ := h
  have hsame : now = g := by
    have hmod := congrArg UInt64.toNat (hcurrent.trans heq)
    rwa [UInt64.toNat_ofNat_of_lt' hnow, UInt64.toNat_ofNat_of_lt' (hle.trans_lt hnow)] at hmod
  have hbounds := hread r rfl
  omega

end Fence

namespace Load

def Fenced (since now : ℕ) : Load → Prop
  | .plain generation readAt | .reading _ _ generation _ readAt | .fallback _ _ generation readAt =>
    Fence since generation readAt now
  | .checking _ _ generation _ _ entry | .storing _ _ generation entry => Fence since generation (some entry.readAt) now
  | .returned (.ok entry) => since ≤ entry.readAt
  | _ => True

variable {since now now' n w : ℕ} {generation : UInt64} {path : Path} {a : Answer} {s t : State} {l l' : Load}

theorem Fenced.mono (h : l.Fenced since now) (hnow : now ≤ now') : l.Fenced since now' := by
  cases l with
  | plain | reading | fallback | checking | storing => exact Fence.mono h hnow
  | returned res =>
    cases res with
    | ok ent => exact h
    | error err => trivial
  | start | expired | locking | attempt | attemptExpired | preparing | failing => trivial

theorem fenced_next (since now n w : ℕ) : (next n w).Fenced since now := by
  unfold next
  split_ifs <;> trivial

theorem fenced_unstored {readAt : Option ℕ} (h : Fence since generation readAt now) (n w : ℕ) :
    (unstored n w generation).Fenced since now := by
  unfold unstored
  split_ifs
  · trivial
  · exact h.none

theorem fenced_current {ent : ConfigCacheEntry} (h : Fence since generation (some ent.readAt) now) (n w : ℕ)
    (err : Option Str) : (current n w generation ent err).Fenced since now := by
  cases err with
  | some err => trivial
  | none => exact h

theorem Fenced.step (hcount : s.Counts) (hsince : since ≤ s.cache.resets)
    (hentries : ∀ e ∈ s.cache.entries, e.2.readAt = s.cache.resets) (hl : l.Fenced since s.cache.resets)
    (h : l.step path a s = some (t, l')) : s.Keeps t ∧ l'.Fenced since s.cache.resets := by
  have hpeek := s.cache.peekFresh_spec path a.now
  have hfresh := s.cache.getFresh_spec path a.now
  -- an entry that is found was read in the generation
  have hfound : ∀ ent, (path, ent) ∈ s.cache.entries → (Load.returned (.ok ent)).Fenced since s.cache.resets :=
    fun ent hentry => hsince.trans_eq (hentries _ hentry).symm
  have hleft : ∀ (u : State) (m : Load), s.Keeps u → m.Fenced since s.cache.resets →
      some (m.leave path u) = some (t, l') → s.Keeps t ∧ l'.Fenced since s.cache.resets := by
    intro u m hkeeps hm heq
    obtain ⟨rfl, hcache, -, hevents⟩ := of_leave heq
    exact ⟨⟨hcache ▸ hkeeps.generation, hcache ▸ hkeeps.resets,
      hevents.trans hkeeps.eventGeneration, hcache ▸ hkeeps.entries⟩, hm⟩
  cases l with
  | start =>
    simp only [Load.step] at h
    split_ifs at h
    · cases h
      refine ⟨.of_subset hpeek.1 hpeek.2.1, ?_⟩
      split
      · exact hfound _ (hpeek.2.2 _ ‹_›)
      · split_ifs <;> trivial
    · cases h
      exact ⟨.refl s, .begin hsince hcount.generation⟩
  | plain generation readAt =>
    cases readAt with
    | none =>
      cases h
      exact ⟨.refl s, Fence.start hl⟩
    | some readAt =>
      cases h
      refine ⟨.refl s, ?_⟩
      split
      · trivial
      · split_ifs
        · exact Fence.since_le_read hl
        · trivial
  | expired =>
    cases h
    refine ⟨.of_subset hfresh.1 hfresh.2.1, ?_⟩
    split
    · exact hfound _ (hfresh.2.2 _ ‹_›)
    · trivial
  | locking =>
    simp only [Load.step, ite_none_left_eq_some] at h
    cases h.2
    exact ⟨⟨rfl, rfl, rfl, fun _ => .inl⟩, trivial⟩
  | attempt n w =>
    refine hleft _ _ (.of_subset hpeek.1 hpeek.2.1) ?_ h
    split
    · exact hfound _ (hpeek.2.2 _ ‹_›)
    · split_ifs <;> trivial
  | attemptExpired n w =>
    refine hleft _ _ (.of_subset hfresh.1 hfresh.2.1) ?_ h
    split
    · exact hfound _ (hfresh.2.2 _ ‹_›)
    · trivial
  | preparing n w =>
    simp only [Load.step] at h
    cases h
    refine ⟨.of_edits (edits_prepareLoad s.cache path) rfl, ?_⟩
    rw [generation_prepareLoad]
    exact .begin hsince hcount.generation
  | reading n w generation token readAt =>
    cases readAt with
    | none =>
      cases token <;> cases h <;> exact ⟨.refl s, Fence.start hl⟩
    | some readAt =>
      cases token with
      | none =>
        refine hleft _ _ (.refl s) ?_ h
        split_ifs
        · have hentry : Fence since generation (some (a.entry readAt).readAt) s.cache.resets := hl
          exact fenced_current hentry n w _
        · exact fenced_next _ _ n w
      | some token =>
        simp only [Load.step] at h
        cases h
        refine ⟨.of_edits (edits_finishWatchRegistrationLocked s.cache path _ _ _) rfl, ?_⟩
        cases (s.cache.finishWatchRegistrationLocked path generation token a.registration).1 with
        | true => exact hl
        | false => exact fenced_unstored hl n w
  | checking n w generation reg err ent =>
    cases h
    refine ⟨.refl s, ?_⟩
    split_ifs
    · exact fenced_current hl n w _
    · exact fenced_unstored hl n w
  | fallback n w generation readAt =>
    cases readAt with
    | none =>
      cases h
      exact ⟨.refl s, Fence.start hl⟩
    | some readAt =>
      refine hleft _ _ (.refl s) ?_ h
      split
      · trivial
      · split_ifs
        · exact hl
        · exact fenced_next _ _ n w
  | storing n w generation ent =>
    simp only [Load.step] at h
    by_cases hcurrent : s.cache.generation = generation
    · have hstore : s.cache.storeLoadEntry path generation ent a.now =
          (true, s.cache.storeEntryLocked path ent a.now) := if_neg (not_not.2 hcurrent)
      rw [hstore] at h
      have hread : ent.readAt = s.cache.resets := Fence.read_eq hl hcount.bound (hcount.generation ▸ hcurrent)
      refine hleft { s with cache := s.cache.storeEntryLocked path ent a.now } (.returned (.ok ent))
        ⟨rfl, rfl, rfl, fun e he => ?_⟩ (Fence.since_le_read hl) h
      rw [← hread]
      exact mem_storeEntryLocked he
    · have hstore : s.cache.storeLoadEntry path generation ent a.now = (false, s.cache) := if_pos hcurrent
      rw [hstore] at h
      exact hleft _ (next n w) (.refl s) (fenced_next _ _ n w) h
  | failing n w generation err again =>
    refine hleft _ _ (.refl s) ?_ h
    split_ifs
    · exact fenced_next _ _ n w
    · trivial
    · trivial
  | returned res => cases h

end Load

/-! ## Calls -/

/-- Releasing a watch keeps the generation and the entries. -/
theorem State.Releases.keeps {s t : State} {path : Path} (h : s.Releases path t) : s.Keeps t := by
  rcases h.cache with heq | ⟨heq, -⟩
  · exact ⟨by rw [heq], by rw [heq], h.eventGeneration, fun e he => .inl (heq ▸ he)⟩
  · exact .of_edits (heq ▸ edits_releaseBusinessWatchLocked s.cache path) h.eventGeneration

namespace Call

def Fenced (now : ℕ) : Call → Prop
  | .load _ since stage => since ≤ now ∧ stage.Fenced since now
  | _ => True

variable {now now' : ℕ} {a : Answer} {s t : State} {c c' : Call}

theorem Fenced.mono (h : c.Fenced now) (hnow : now ≤ now') : c.Fenced now' := by
  cases c with
  | load path since st => exact ⟨h.1.trans hnow, h.2.mono hnow⟩
  | addListener | restoreBusinessWatches | returned => trivial

theorem Fenced.step (hcount : s.Counts) (hentries : ∀ e ∈ s.cache.entries, e.2.readAt = s.cache.resets)
    (hc : c.Fenced s.cache.resets) (h : Step a s c t c') : s.Keeps t ∧ c'.Fenced s.cache.resets := by
  cases h with
  | load h =>
    obtain ⟨hkeeps, hstage⟩ := hc.2.step hcount hc.1 hentries h
    exact ⟨hkeeps, hc.1, hstage⟩
  | adding h | restoring h =>
    obtain ⟨hedits, -, hevents⟩ := Ensure.step_edits h
    exact ⟨.of_edits hedits hevents, trivial⟩
  | store => exact ⟨⟨rfl, rfl, rfl, fun _ => .inl⟩, trivial⟩
  | added => exact ⟨(releases_finishAdding _ _ _ _ s).keeps, trivial⟩
  | restored => exact ⟨(releases_releaseUnused _ s).keeps, trivial⟩
  | missed | next | finish => exact ⟨.refl s, trivial⟩

end Call

/-! ## The event loop -/

namespace Loop

/-- The event that the loop processes is stored, and the read began in its generation or a later one. -/
def Carried (s : State) (path : Path) (readAt : Option ℕ) : Prop :=
  ∃ event, s.eventGeneration path = some event ∧ Fence 0 event.generation readAt s.cache.resets

def Fenced (s : State) : Loop → Prop
  | .reading path _ readAt | .reloading path readAt | .fetching path readAt => Carried s path readAt
  | .changing path entry => Carried s path (some entry.readAt)
  | .registered path event _ _ readAt _ =>
    s.eventGeneration path = some event ∧ Fence 0 event.generation (some readAt) s.cache.resets
  | .retrying _ event _ _ | .rearming _ event => Fence 0 event.generation none s.cache.resets
  | _ => True

variable {a : Answer} {s t : State} {l l' : Loop} {path : Path} {readAt : Option ℕ} {event : WatchEventState}

theorem Fenced.mono (h : l.Fenced s) (hresets : s.cache.resets ≤ t.cache.resets)
    (hevents : t.eventGeneration = s.eventGeneration) : l.Fenced t := by
  have hcarried : ∀ path readAt, Carried s path readAt → Carried t path readAt := by
    rintro path readAt ⟨event, hevent, hread⟩
    exact ⟨event, by rw [hevents, hevent], hread.mono hresets⟩
  cases l with
  | reading | reloading | fetching | changing => exact hcarried _ _ h
  | registered path event reg exists' readAt stored =>
    exact ⟨by rw [hevents, h.1], h.2.mono hresets⟩
  | retrying | rearming => exact Fence.mono h hresets
  | idle | failing => trivial

theorem Carried.start (h : Carried s path readAt) : Carried s path (some s.cache.resets) := by
  obtain ⟨event, hevent, hrd⟩ := h
  exact ⟨event, hevent, hrd.start⟩

theorem Carried.none (h : Carried s path readAt) : Carried s path none := by
  obtain ⟨event, hevent, hrd⟩ := h
  exact ⟨event, hevent, hrd.none⟩

theorem fenced_found {exists' : Bool} {r : ℕ} (h : Carried s path (some r)) : (found path exists' r).Fenced s := by
  unfold found
  split_ifs
  · exact h.none
  · exact h

structure Progress (s t : State) (l' : Loop) : Prop where
  generation : t.cache.generation = s.cache.generation
  resets : t.cache.resets = s.cache.resets
  entries : ∀ e ∈ t.cache.entries, e ∈ s.cache.entries ∨ e.2.readAt = s.cache.resets
  events : ∀ path event, t.eventGeneration path = some event → Fence 0 event.generation none s.cache.resets
  loop : l'.Fenced t

section Step

variable (hevents : ∀ path event, s.eventGeneration path = some event → Fence 0 event.generation none s.cache.resets)

include hevents

theorem Progress.of_keeps (hkeeps : s.Keeps t) (hl : l'.Fenced t) : Progress s t l' where
  generation := hkeeps.generation
  resets := hkeeps.resets
  entries := hkeeps.entries
  events := by
    rw [hkeeps.eventGeneration]
    exact hevents
  loop := hl

theorem Progress.of_update {next : Option WatchEventState} (hedits : Edits path s.cache t.cache)
    (hupdate : t.eventGeneration = update s.eventGeneration path next)
    (hnext : ∀ event ∈ next, Fence 0 event.generation none s.cache.resets) (hl : l'.Fenced t) : Progress s t l' where
  generation := hedits.frame.generation
  resets := hedits.frame.resets
  entries := fun e he => .inl (hedits.frame.entries ▸ he)
  events := by
    intro path' event hevent
    rw [hupdate] at hevent
    by_cases hpath : path' = path
    · subst hpath
      exact hnext event (by simpa using hevent)
    · exact hevents path' event (by simpa [hpath] using hevent)
  loop := hl

theorem progress_retried (hevent : Fence 0 event.generation none s.cache.resets) (path : Path) (reload : Bool) :
    Progress s (retried path event reload s).1 (retried path event reload s).2 := by
  have hkeeps := (releases_retried path event reload s).keeps
  unfold retried at hkeeps ⊢
  split_ifs at hkeeps ⊢
  · exact .of_keeps hevents hkeeps hevent
  · exact .of_keeps hevents hkeeps trivial
  · exact .of_keeps hevents hkeeps trivial

theorem progress_store (hcount : s.Counts) {ent : ConfigCacheEntry} (h : Carried s path (some ent.readAt)) (now : ℤ) :
    Progress s (store path ent now s) .idle := by
  obtain ⟨event, hevent, hread⟩ := h
  have hstore : store path ent now s =
      { s with
        cache := s.cache.storeAtGenerationLocked path event.generation ent now
        eventGeneration := update s.eventGeneration path none } := by
    unfold store
    rw [hevent]
  have hgone : Progress s { s with eventGeneration := update s.eventGeneration path none } .idle :=
    .of_update hevents .refl rfl (fun _ hnone => by cases hnone) trivial
  rw [hstore]
  unfold storeAtGenerationLocked
  split_ifs with _ hcurrent
  · refine ⟨rfl, rfl, fun e he => ?_, hgone.events, trivial⟩
    rw [← hread.read_eq hcount.bound (hcount.generation ▸ hcurrent)]
    exact mem_storeEntryLocked he
  · exact hgone
  · exact hgone

theorem progress_failed (path : Path) : Progress s (failed path s).1 (failed path s).2 := by
  unfold failed
  split
  · exact .of_keeps hevents (.refl s) trivial
  · refine .of_update hevents (edits_cancelPendingLocked s.cache path) rfl (fun _ hnone => by cases hnone) ?_
    exact (hevents _ _ ‹_›).mono (edits_cancelPendingLocked s.cache path).frame.resets.ge

theorem progress_watchStateChanged (hcount : s.Counts) (path : Path) :
    Progress s (watchStateChanged path s).1 (watchStateChanged path s).2 := by
  have hedits := edits_beginWatchRenewalLocked s.cache path (s.hasListeners path)
  have hfence : Fence 0 (s.cache.beginWatchRenewalLocked path (s.hasListeners path)).1.1 none s.cache.resets :=
    .begin (Nat.zero_le _) ((generation_beginWatchRenewalLocked s.cache path _).trans hcount.generation)
  refine .of_update hevents hedits rfl ?_ ⟨_, update_self _ _ _, hfence.mono hedits.frame.resets.ge⟩
  intro event hevent
  cases hevent
  exact hfence

theorem Fenced.step (hcount : s.Counts) (hl : l.Fenced s) (h : l.step a s = some (t, l')) : Progress s t l' := by
  cases l with
  | idle => cases h
  | reading path registerWatch readAt =>
    cases readAt with
    | none =>
      cases h
      exact .of_keeps hevents (.refl s) (Carried.start hl)
    | some readAt =>
      simp only [Loop.step] at h
      split_ifs at h
      · cases h
        exact .of_keeps hevents (.refl s) trivial
      · obtain ⟨event, hevent, hread⟩ := hl
        rw [hevent] at h
        have hedits := edits_finishWatchRegistrationLocked s.cache path event.generation event.token a.registerWatcher
        cases h
        exact .of_keeps hevents (.of_edits hedits rfl) ⟨hevent, hread.mono hedits.frame.resets.ge⟩
      · cases h
        exact .of_keeps hevents (.refl s) (fenced_found hl)
      · cases h
        exact .of_keeps hevents (.refl s) trivial
  | registered path event reg exists' readAt stored =>
    obtain ⟨hevent, hread⟩ := hl
    have hunlock : s.Keeps (s.unlock path) := ⟨rfl, rfl, rfl, fun _ => .inl⟩
    have hle := hevents path event hevent
    simp only [Loop.step] at h
    split_ifs at h
    · cases h
      exact .of_keeps hevents hunlock (fenced_found ⟨event, hevent, hread⟩)
    · cases h
      exact .of_keeps hevents hunlock trivial
    · cases h
      refine .of_update hevents .refl rfl ?_ ⟨_, update_self _ _ _, hle⟩
      intro event hevent
      cases hevent
      exact hle
    · cases h
      exact .of_update hevents .refl rfl (fun _ hnone => by cases hnone) hle
  | retrying path event reload st =>
    cases st with
    | listening =>
      simp only [Loop.step, ite_none_left_eq_some] at h
      cases h.2
      refine .of_keeps hevents (.refl s) ?_
      split_ifs
      · exact hl
      · trivial
    | comparing =>
      cases h
      refine .of_keeps hevents (.refl s) ?_
      split_ifs
      · trivial
      · exact hl
    | ensuring st =>
      simp only [Loop.step] at h
      split at h
      · cases h
        exact .of_keeps hevents (.refl s) trivial
      · simp only [ite_none_left_eq_some] at h
        have hretried := progress_retried hevents hl path reload
        rw [some.inj h.2] at hretried
        exact hretried
      · obtain ⟨⟨u, st'⟩, hstep, heq⟩ := map_eq_some_iff.1 h
        cases heq
        obtain ⟨hedits, -, hkept⟩ := Ensure.step_edits hstep
        refine .of_keeps hevents (.of_edits hedits hkept) ?_
        exact Fence.mono hl hedits.frame.resets.ge
  | rearming path event =>
    simp only [Loop.step, ite_none_left_eq_some] at h
    obtain ⟨-, h⟩ := h
    split at h
    · cases h
      exact .of_keeps hevents (.refl s) ⟨_, ‹_›, hevents _ _ ‹_›⟩
    · cases h
      refine .of_update hevents .refl rfl ?_ ⟨_, update_self _ _ _, hl⟩
      intro event hevent
      cases hevent
      exact hl
  | reloading path readAt =>
    cases readAt with
    | none =>
      cases h
      exact .of_keeps hevents (.refl s) (Carried.start hl)
    | some readAt =>
      cases h
      refine .of_keeps hevents (.refl s) ?_
      split_ifs
      · exact fenced_found hl
      · trivial
  | fetching path readAt =>
    cases readAt with
    | none =>
      cases h
      exact .of_keeps hevents (.refl s) (Carried.start hl)
    | some readAt =>
      cases h
      refine .of_keeps hevents (.refl s) ?_
      split_ifs
      · exact hl
      · trivial
  | changing path ent =>
    simp only [Loop.step, ite_none_left_eq_some] at h
    cases h.2
    exact progress_store hevents hcount hl a.now
  | failing path ren =>
    simp only [Loop.step, ite_none_left_eq_some] at h
    have hfailed := progress_failed hevents path
    rw [some.inj h.2] at hfailed
    exact hfailed

end Step

end Loop

/-! ## The system -/

namespace System

/-- What is cached was read in the generation, and every read that is under way keeps its fence. -/
structure Fenced (s : System) : Prop where
  generation : s.cache.generation = UInt64.ofNat s.cache.resets
  entries : ∀ e ∈ s.cache.entries, e.2.readAt = s.cache.resets
  events : ∀ path event, s.pool.shared.eventGeneration path = some event →
    Fence 0 event.generation none s.cache.resets
  calls : ∀ c ∈ (s.pool.threads : Multiset Call), c.Fenced s.cache.resets
  loop : s.loop.Fenced s.pool.shared

namespace Fenced

variable {s t : System} {state : State}

theorem new (lru : Lru Path ConfigCacheEntry) (ttl : ℤ) : (System.new lru ttl).Fenced where
  generation := rfl
  entries := fun _ he => absurd he List.not_mem_nil
  events := fun _ _ hevent => by cases hevent
  calls := fun _ hc => absurd hc (Multiset.notMem_zero _)
  loop := trivial

variable (h : s.Fenced)

include h

theorem entries_of_keeps (hkeeps : s.pool.shared.Keeps state) :
    ∀ e ∈ state.cache.entries, e.2.readAt = state.cache.resets := by
  intro e he
  rw [hkeeps.resets]
  rcases hkeeps.entries e he with he | he
  · exact h.entries e he
  · exact he

theorem setState (hkeeps : s.pool.shared.Keeps state) : (s.setState state).Fenced where
  generation := hkeeps.generation.trans (h.generation.trans (congrArg _ hkeeps.resets.symm))
  entries := h.entries_of_keeps hkeeps
  events := by
    intro path event hevent
    exact (h.events path event (hkeeps.eventGeneration ▸ hevent)).mono hkeeps.resets.ge
  calls := fun c hc => (h.calls c hc).mono hkeeps.resets.ge
  loop := h.loop.mono hkeeps.resets.ge hkeeps.eventGeneration

theorem call {c : Call} (hc : c.Fenced s.cache.resets) : (s.call c).Fenced where
  generation := h.generation
  entries := h.entries
  events := h.events
  calls := by
    intro c' hc'
    rw [System.call, Pool.coe_threads_spawn, Multiset.mem_cons] at hc'
    rcases hc' with rfl | hc'
    · exact hc
    · exact h.calls c' hc'
  loop := h.loop

theorem advance (hresets : s.cache.resets < 2 ^ 64) {pool : Pool State Call} {i : ℕ} {a : Answer}
    (hadvance : s.pool.advance (Call.step a) i = some pool) : { s with pool := pool }.Fenced := by
  obtain ⟨c, c', others, -, hstep, hbefore, hafter⟩ := Pool.advance_cases hadvance
  have hcalls := h.calls
  rw [hbefore] at hcalls
  obtain ⟨hkeeps, hc'⟩ :=
    (hcalls c (Multiset.mem_cons_self _ _)).step ⟨h.generation, hresets⟩ h.entries (Call.step_inv hstep)
  have hset := h.setState hkeeps
  refine ⟨hset.generation, hset.entries, hset.events, fun d hd => ?_, hset.loop⟩
  rw [hafter, Multiset.mem_cons] at hd
  rcases hd with rfl | hd
  · exact hc'.mono hkeeps.resets.ge
  · exact (hcalls d (Multiset.mem_cons_of_mem hd)).mono hkeeps.resets.ge

theorem progress {l : Loop} (hprogress : Loop.Progress s.pool.shared state l) :
    { s.setState state with loop := l }.Fenced where
  generation := hprogress.generation.trans (h.generation.trans (congrArg _ hprogress.resets.symm))
  entries := by
    intro e he
    refine Eq.trans ?_ hprogress.resets.symm
    rcases hprogress.entries e he with he | he
    · exact h.entries e he
    · exact he
  events := fun path event hevent => (hprogress.events path event hevent).mono hprogress.resets.ge
  calls := fun c hc => (h.calls c hc).mono hprogress.resets.ge
  loop := hprogress.loop

theorem reset (sid : ℤ) (paths : List Path) :
    (s.setState { s.pool.shared with cache := s.cache.reset sid paths }).Fenced := by
  obtain ⟨hgeneration, hresets, hentries⟩ := s.cache.reset_spec sid paths
  have hle : s.cache.resets ≤ (s.cache.reset sid paths).resets := by omega
  refine ⟨?_, fun e he => ?_, fun path event hevent => (h.events path event hevent).mono hle,
    fun c hc => (h.calls c hc).mono hle, h.loop.mono hle rfl⟩
  · change (s.cache.reset sid paths).generation = UInt64.ofNat (s.cache.reset sid paths).resets
    rw [hgeneration, hresets, h.generation, UInt64.ofNat_add]
    rfl
  · change e ∈ (s.cache.reset sid paths).entries at he
    rw [hentries] at he
    exact absurd he List.not_mem_nil

/-- No step breaks a fence before the generation wraps around. -/
theorem step (hresets : s.cache.resets < 2 ^ 64) {act : Action} (hstep : s.step act = some t) : t.Fenced := by
  cases act with
  | load path =>
    cases hstep
    exact h.call ⟨le_rfl, trivial⟩
  | addListener key lst | restoreBusinessWatches =>
    cases hstep
    exact h.call trivial
  | removeListener key lst =>
    simp only [System.step, ite_none_left_eq_some] at hstep
    cases hstep.2
    exact h.setState (releases_removeListener key lst _).keeps
  | reset sid paths =>
    simp only [System.step, ite_none_left_eq_some] at hstep
    cases hstep.2
    exact h.reset sid paths
  | advance i a =>
    obtain ⟨pool, hadvance, rfl⟩ := map_eq_some_iff.1 hstep
    exact h.advance hresets hadvance
  | event type path =>
    simp only [System.step] at hstep
    split at hstep
    · split_ifs at hstep
      · cases hstep
        exact h
      · cases hstep
        exact h.progress (Loop.progress_watchStateChanged h.events ⟨h.generation, hresets⟩ path)
    · cases hstep
  | turn a =>
    obtain ⟨⟨state, loop⟩, hturn, rfl⟩ := map_eq_some_iff.1 hstep
    exact h.progress (h.loop.step h.events ⟨h.generation, hresets⟩ hturn)

end Fenced

/-- The states of the runs with fewer than `2 ^ 64` resets before each step. -/
abbrev Reached (lru : Lru Path ConfigCacheEntry) (ttl : ℤ) : System → Prop :=
  ReachedWhile lru ttl fun s _ => s.cache.resets < 2 ^ 64

/-- In every state, every entry of the cache was read by a read that began in the generation of the cache, and a load
has returned no value whose read began before the last reset before its call. -/
theorem generations_fenced {lru : Lru Path ConfigCacheEntry} {ttl : ℤ} {s : System} (h : Reached lru ttl s) :
    (∀ path entry, (path, entry) ∈ s.cache.entries → entry.readAt = s.cache.resets) ∧
      ∀ path since entry, Call.load path since (.returned (.ok entry)) ∈ s.pool.threads → since ≤ entry.readAt := by
  have hfenced : s.Fenced := by
    refine ReachedBy.invariant Fenced ?_ ?_ h
    · rintro _ rfl
      exact Fenced.new lru ttl
    · intro s act t hs hresets hstep
      exact hs.step hresets hstep
  exact ⟨fun path entry he => hfenced.entries _ he, fun path since entry hc => (hfenced.calls _ hc).2⟩

/-- A load after a reset registers a watch in the new session and stores what it has read. -/
theorem generations_fenced_load :
    ∃ s : System, Reached (.leastRecentlyUsed _ _) 10 s ∧ s.cache.entries = [(str "/p", ⟨str "v", true, 13, 1⟩)] ∧
      (∀ path entry, (path, entry) ∈ s.cache.entries → entry.readAt = s.cache.resets) ∧
      ∀ path since entry, Call.load path since (.returned (.ok entry)) ∈ s.pool.threads → since ≤ entry.readAt := by
  let a : Answer := ⟨3, none, str "v", true, ⟨some false, 7, 7, 0, 0⟩, true, 7, none⟩
  obtain ⟨s, hs, hentries⟩ := ReachedBy.of_run step (fun s _ => s.cache.resets < 2 ^ 64)
    (new (.leastRecentlyUsed _ _) 10) (.reset 7 [] :: .load (str "/p") :: List.replicate 8 (.advance 0 a))
    (fun s => s.cache.entries = [(str "/p", ⟨str "v", true, 13, 1⟩)]) (by decide +kernel)
  exact ⟨s, hs, hentries, generations_fenced hs⟩

/-- The event loop has read that a node is gone, and `n` resets happen before it stores that. -/
def readBeforeResets (n : ℕ) : System where
  pool := ⟨⟨{ ConfigCache.new (.leastRecentlyUsed _ _) 10 with generation := UInt64.ofNat n, resets := n }, fun _ => ∅,
    update (fun _ => none) (str "/p") (some ⟨0, 0, false, 0⟩), fun _ => false⟩, []⟩
  loop := .changing (str "/p") ⟨[], false, 0, 0⟩

/-- The answer to a read of a node that does not exist. -/
def nodeGone : Answer := ⟨3, none, [], false, ⟨none, 0, 0, 0, 0⟩, false, 0, none⟩

theorem step_readBeforeResets (n : ℕ) : (readBeforeResets n).step (.reset 0 []) = some (readBeforeResets (n + 1)) := by
  unfold readBeforeResets
  rw [UInt64.ofNat_add]
  rfl

theorem reached_readBeforeResets (n : ℕ) :
    ReachedWhile (.leastRecentlyUsed _ _) 10 (fun _ _ => True) (readBeforeResets n) := by
  induction n with
  | zero =>
    have hread : Lib.runWhile step (fun _ _ => True) [.event .nodeDeleted (str "/p"), .turn nodeGone, .turn nodeGone]
        (new (.leastRecentlyUsed _ _) 10) = some (readBeforeResets 0) := rfl
    exact ReachedBy.runWhile (.init rfl) hread
  | succ n ih => exact ih.step ⟨_, trivial, step_readBeforeResets n⟩

/-- After `2 ^ 64` resets the generation is the one of the read again, and what was read before all of them is kept. -/
theorem stale_entry_kept :
    ∃ s : System, ReachedWhile (.leastRecentlyUsed _ _) 10 (fun _ _ => True) s ∧ s.cache.resets = 2 ^ 64 ∧
      s.cache.entries = [(str "/p", ⟨[], false, 13, 0⟩)] := by
  have hstore : ((readBeforeResets (2 ^ 64)).step (.turn nodeGone)).any (fun s =>
      decide (s.cache.resets = 2 ^ 64 ∧ s.cache.entries = [(str "/p", ⟨[], false, 13, 0⟩)])) = true := by
    decide +kernel
  obtain ⟨s, hstep, hs⟩ := (Option.any_eq_true _ _).1 hstore
  exact ⟨s, (reached_readBeforeResets _).step ⟨_, trivial, hstep⟩, of_decide_eq_true hs⟩

end System

end DubboGo.ConfigCenter
