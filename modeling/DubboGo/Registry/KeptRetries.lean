import DubboGo.Registry.SubscribeRetries

/-!
# A failed subscription keeps a retry

A retry is there for a key as long as its listener has a subscriber and `AddListener` keeps failing.  It is
dropped by whoever has found that nobody needs it any more, in a later section than the one in which that
was found.
-/

namespace DubboGo.Registry.SubscribeRetries

open Go Lib Multiset Option Finmap

/-! ## Who owns what -/

namespace State

variable {s t : State} {key k : Str} {p q l : ℕ} {a b : Stage} {stages : Multiset Stage}

def Owns (s : State) (key : Str) (p : ℕ) : Prop :=
  p < s.states.next ∧ s.serviceListeners.lookup key = some (s.states.cell p).listener

structure Entry (s : State) (key : Str) (p : ℕ) : Prop where
  owns : s.Owns key p
  live : (s.states.cell p).canceled = false
  timer : ∀ t, (s.states.cell p).timer = some t → t < s.timers.next ∧ ∀ k, s.timers.armed.lookup t = some k → k = key

structure WellFormed (s : State) : Prop where
  installed : ∀ k l, s.serviceListeners.lookup k = some l → l < s.listeners.next
  injective : ∀ k k' l, s.serviceListeners.lookup k = some l → s.serviceListeners.lookup k' = some l → k = k'
  entry : ∀ k p, s.subscribeRetries.lookup k = some p → s.Entry k p

def Knows (s : State) : Stage → Prop
  | .attaching key _ l => s.serviceListeners.lookup key = some l
  | .adding key l => s.serviceListeners.lookup key = some l
  | .scheduling key l => s.serviceListeners.lookup key = some l
  | .resolving key l => s.serviceListeners.lookup key = some l
  | .dropping key p => s.Owns key p
  | .retrying key p => s.Owns key p
  | .rescheduling key p => s.Owns key p
  | _ => True

structure Extends (s t : State) : Prop where
  installed : ∀ k l, s.serviceListeners.lookup k = some l → t.serviceListeners.lookup k = some l
  next : s.states.next ≤ t.states.next
  listener : ∀ p < s.states.next, (t.states.cell p).listener = (s.states.cell p).listener

theorem Owns.mono (h : s.Owns key p) (hext : Extends s t) : t.Owns key p := by
  obtain ⟨hlt, hlookup⟩ := h
  refine ⟨hlt.trans_le hext.next, ?_⟩
  rw [hext.listener p hlt]
  exact hext.installed _ _ hlookup

theorem Knows.mono (h : s.Knows a) (hext : Extends s t) : t.Knows a := by
  cases a with
  | attaching key protocolServiceKey l | adding key l | scheduling key l | resolving key l => exact hext.installed key l h
  | dropping key p | retrying key p | rescheduling key p => exact Owns.mono h hext
  | _ => trivial

theorem WellFormed.owner_unique (hwf : s.WellFormed) (h : s.Owns key p) (h' : s.Owns k p) : key = k :=
  hwf.injective _ _ _ h.2 h'.2

/-! ## Retries that are needed -/

def Armed (s : State) (key : Str) (p : ℕ) : Prop :=
  ∃ t, (s.states.cell p).timer = some t ∧ s.timers.armed.lookup t = some key

/-- A listener has a subscriber, and `AddListener` keeps failing for it. -/
def Waiting (s : State) (l : ℕ) : Prop :=
  (s.listeners.cell l).failing = true ∧ (s.listeners.cell l).subscribers ≠ ∅

end State

namespace Stage

/-- A goroutine is going to take care of the state that is in the map for a key. -/
def Handles (key : Str) (p : ℕ) : Stage → Prop
  | .firing k => k = key
  | .resolving k _ => k = key
  | .dropping k q | .retrying k q | .rescheduling k q => k = key ∧ q = p
  | _ => False

/-- A goroutine calls `AddListener` for a key on behalf of a new subscriber. -/
def Tries (key : Str) : Stage → Prop
  | .adding k _ => k = key
  | .scheduling k _ => k = key
  | _ => False

end Stage

namespace State

variable {s t : State} {key k protocolServiceKey : Str} {p q l : ℕ} {a b : Stage} {stages : Multiset Stage}

/-- Some goroutine, or an armed timer, takes care of the state in the map; and a listener that waits has
a state there or a goroutine that is about to enter one. -/
structure Kept (key : Str) (s : State) (stages : Multiset Stage) : Prop where
  wf : s.WellFormed
  knows : ∀ stage ∈ stages, s.Knows stage
  handled : s.destroyed = false → ∀ p, s.subscribeRetries.lookup key = some p →
    s.Armed key p ∨ ∃ stage ∈ stages, stage.Handles key p
  retried : s.destroyed = false → ∀ l, s.serviceListeners.lookup key = some l → s.Waiting l →
    key ∈ s.subscribeRetries ∨ ∃ stage ∈ stages, stage.Tries key

/-- The step changes a state of one key, and what is in the map and what timers are armed for that key. -/
structure Touches (k : Str) (q : ℕ) (s t : State) : Prop where
  destroyed : t.destroyed = s.destroyed
  serviceListeners : t.serviceListeners = s.serviceListeners
  listeners : t.listeners = s.listeners
  entry : ∀ k', k' ≠ k → t.subscribeRetries.lookup k' = s.subscribeRetries.lookup k'
  next : s.states.next ≤ t.states.next
  cell : ∀ p < s.states.next, p ≠ q → t.states.cell p = s.states.cell p
  listener : ∀ p < s.states.next, (t.states.cell p).listener = (s.states.cell p).listener
  timers : s.timers.next ≤ t.timers.next
  armed : ∀ k', k' ≠ k → ∀ n, s.timers.armed.lookup n = some k' → t.timers.armed.lookup n = some k'
  of_armed : ∀ n < s.timers.next, ∀ k', t.timers.armed.lookup n = some k' → s.timers.armed.lookup n = some k'

namespace Touches

theorem grows (h : Touches k q s t) : Extends s t := by
  refine ⟨?_, h.next, h.listener⟩
  rw [h.serviceListeners]
  exact fun _ _ hl => hl

theorem trans {u : State} (h : Touches k q s t) (h' : Touches k q t u) : Touches k q s u where
  destroyed := h'.destroyed.trans h.destroyed
  serviceListeners := h'.serviceListeners.trans h.serviceListeners
  listeners := h'.listeners.trans h.listeners
  entry k' hk := (h'.entry k' hk).trans (h.entry k' hk)
  next := h.next.trans h'.next
  cell p hp hne := (h'.cell p (hp.trans_le h.next) hne).trans (h.cell p hp hne)
  listener p hp := (h'.listener p (hp.trans_le h.next)).trans (h.listener p hp)
  timers := h.timers.trans h'.timers
  armed k' hk n hn := h'.armed k' hk n (h.armed k' hk n hn)
  of_armed n hn k' hk := h.of_armed n hn k' (h'.of_armed n (hn.trans_le h.timers) k' hk)

theorem entry_mono (h : Touches k q s t) (hp : s.Entry key p) (hne : p ≠ q) : t.Entry key p := by
  obtain ⟨howns, hlive, htimer⟩ := hp
  have hcell := h.cell p howns.1 hne
  refine ⟨howns.mono h.grows, ?_, ?_⟩
  · rw [hcell]
    exact hlive
  · intro n hn
    rw [hcell] at hn
    obtain ⟨hlt, hkey⟩ := htimer n hn
    exact ⟨hlt.trans_le h.timers, fun k' hk' => hkey k' (h.of_armed n hlt k' hk')⟩

theorem ne_of_ne (hwf : s.WellFormed) (hq : q < s.states.next → s.Owns k q) (hk : key ≠ k)
    (hp : s.subscribeRetries.lookup key = some p) : p ≠ q := by
  have howns := (hwf.entry key p hp).owns
  rintro rfl
  exact hk (hwf.owner_unique howns (hq howns.1))

theorem wellFormed (h : Touches k q s t) (hwf : s.WellFormed) (hq : q < s.states.next → s.Owns k q)
    (hentry : ∀ p, t.subscribeRetries.lookup k = some p → t.Entry k p) : t.WellFormed := by
  refine ⟨?_, ?_, ?_⟩
  · rw [h.serviceListeners, h.listeners]
    exact hwf.installed
  · rw [h.serviceListeners]
    exact hwf.injective
  · intro k' p hp
    by_cases hk : k' = k
    · subst hk
      exact hentry p hp
    · rw [h.entry k' hk] at hp
      exact h.entry_mono (hwf.entry k' p hp) (ne_of_ne hwf hq hk hp)

/-! ### The sections, one change after the other -/

theorem update (f : SubscribeRetry → SubscribeRetry) (hf : ∀ retry, (f retry).listener = retry.listener)
    (k : Str) (p : ℕ) (s : State) : Touches k p s (s.update p f) where
  destroyed := rfl
  serviceListeners := rfl
  listeners := rfl
  entry _ _ := rfl
  next := le_rfl
  cell _ _ hne := Heap.cell_modify_of_ne f s.states hne
  listener q _ := s.states.modify_congr SubscribeRetry.listener hf q
  timers := le_rfl
  armed _ _ _ hn := hn
  of_armed _ _ _ hn := hn

theorem forget (k : Str) (q : ℕ) (s : State) : Touches k q s (s.forget k) where
  destroyed := rfl
  serviceListeners := rfl
  listeners := rfl
  entry _ hk := lookup_erase_ne hk
  next := le_rfl
  cell _ _ _ := rfl
  listener _ _ := rfl
  timers := le_rfl
  armed _ _ _ hn := hn
  of_armed _ _ _ hn := hn

theorem stopTimer (timer : Option ℕ) (htimer : ∀ n ∈ timer, ∀ k', s.timers.armed.lookup n = some k' → k' = k) (q : ℕ) :
    Touches k q s (s.stopTimer timer) := by
  cases timer with
  | none =>
    exact ⟨rfl, rfl, rfl, fun _ _ => rfl, le_rfl, fun _ _ _ => rfl, fun _ _ => rfl, le_rfl, fun _ _ _ hn => hn,
      fun _ _ _ hn => hn⟩
  | some n =>
    refine ⟨rfl, rfl, rfl, fun _ _ => rfl, le_rfl, fun _ _ _ => rfl, fun _ _ => rfl, le_rfl, ?_, ?_⟩
    · intro k' hk m hm
      have hne : m ≠ n := by
        rintro rfl
        exact hk (htimer m rfl k' hm)
      exact (lookup_erase_ne hne).trans hm
    · intro m _ k' hm
      have hlookup := FiniteMap.lookup_erase s.timers.armed n m
      rw [State.stopTimer, Timers.stop, hlookup] at hm
      split_ifs at hm
      exact hm

theorem afterFunc (k : Str) (q : ℕ) (s : State) :
    Touches k q s { s with timers := s.timers.afterFunc k } where
  destroyed := rfl
  serviceListeners := rfl
  listeners := rfl
  entry _ _ := rfl
  next := le_rfl
  cell _ _ _ := rfl
  listener _ _ := rfl
  timers := Nat.le_succ _
  armed _ _ n hn := by
    have hlt := s.timers.lt_next n (mem_of_lookup_eq_some hn)
    exact (lookup_insert_of_ne _ hlt.ne).trans hn
  of_armed n hlt _ hn := (lookup_insert_of_ne _ hlt.ne).symm.trans hn

theorem enter (k : Str) (l : ℕ) (s : State) : Touches k s.states.next s (s.enter k l) where
  destroyed := rfl
  serviceListeners := rfl
  listeners := rfl
  entry _ hk := lookup_insert_of_ne _ hk
  next := Nat.le_succ _
  cell _ hp _ := Heap.cell_add_of_lt _ hp
  listener _ hp := congrArg SubscribeRetry.listener (Heap.cell_add_of_lt _ hp)
  timers := le_rfl
  armed _ _ _ hn := hn
  of_armed _ _ _ hn := hn

theorem armSubscribeRetryLocked (k : Str) (p : ℕ) (s : State) : Touches k p s (s.armSubscribeRetryLocked k p) :=
  (update (.arm s.timers.next) (fun _ => rfl) k p s).trans (afterFunc k p (s.update p (.arm s.timers.next)))

end Touches

theorem armed_armSubscribeRetryLocked (key : Str) (p : ℕ) (s : State) :
    (s.armSubscribeRetryLocked key p).Armed key p := by
  refine ⟨s.timers.next, ?_, lookup_insert _⟩
  exact congrArg SubscribeRetry.timer (Heap.cell_modify_self ..)

theorem entry_armSubscribeRetryLocked (howns : s.Owns key p) (hlive : (s.states.cell p).canceled = false) :
    (s.armSubscribeRetryLocked key p).Entry key p := by
  have hcell : (s.armSubscribeRetryLocked key p).states.cell p = (s.states.cell p).arm s.timers.next :=
    Heap.cell_modify_self ..
  refine ⟨howns.mono (Touches.armSubscribeRetryLocked key p s).grows, ?_, ?_⟩
  · rw [hcell]
    exact hlive
  · intro n hn
    rw [hcell] at hn
    cases hn
    refine ⟨Nat.lt_succ_self _, ?_⟩
    intro k hk
    exact some.inj (hk.symm.trans (lookup_insert _))

namespace Kept

theorem knows_cons (h : Kept key s (a ::ₘ stages)) (hext : Extends s t) (hb : t.Knows b) :
    ∀ stage ∈ b ::ₘ stages, t.Knows stage := by
  intro stage hstage
  rcases mem_cons.1 hstage with rfl | hstage
  · exact hb
  · exact (h.knows stage (mem_cons_of_mem hstage)).mono hext

theorem knows_head (h : Kept key s (a ::ₘ stages)) : s.Knows a := h.knows a (mem_cons_self _ _)

theorem exists_cons {r : Stage → Prop} (h : ∃ stage ∈ a ::ₘ stages, r stage) (b : Stage) :
    r a ∨ ∃ stage ∈ b ::ₘ stages, r stage := by
  obtain ⟨stage, hstage, hr⟩ := h
  rcases mem_cons.1 hstage with rfl | hstage
  · exact .inl hr
  · exact .inr ⟨stage, mem_cons_of_mem hstage, hr⟩

section

variable (h : Kept key s (a ::ₘ stages))

include h

theorem stay (hb : s.Knows b)
    (hhandled : s.destroyed = false → ∀ p, s.subscribeRetries.lookup key = some p → a.Handles key p → b.Handles key p)
    (hretried : s.destroyed = false → ∀ l, s.serviceListeners.lookup key = some l → s.Waiting l →
      a.Tries key → key ∈ s.subscribeRetries) : Kept key s (b ::ₘ stages) := by
  refine ⟨h.wf, h.knows_cons ⟨fun _ _ hl => hl, le_rfl, fun _ _ => rfl⟩ hb, ?_, ?_⟩
  · intro hdestroyed p hp
    rcases h.handled hdestroyed p hp with harmed | hex
    · exact .inl harmed
    · rcases exists_cons hex b with ha | hex
      · exact .inr ⟨b, mem_cons_self _ _, hhandled hdestroyed p hp ha⟩
      · exact .inr hex
  · intro hdestroyed l hl hwaiting
    rcases h.retried hdestroyed l hl hwaiting with hmem | hex
    · exact .inl hmem
    · rcases exists_cons hex b with ha | hex
      · exact .inl (hretried hdestroyed l hl hwaiting ha)
      · exact .inr hex

theorem pass (hb : s.Knows b) (hhandles : ∀ p, ¬a.Handles key p) (htries : ¬a.Tries key) : Kept key s (b ::ₘ stages) :=
  h.stay hb (fun _ p _ ha => absurd ha (hhandles p)) fun _ _ _ _ ha => absurd ha htries

theorem touch (htouch : Touches k q s t) (hq : q < s.states.next → s.Owns k q) (hb : t.Knows b)
    (hentry : ∀ p, t.subscribeRetries.lookup k = some p → t.Entry k p) (hhandles : ∀ p, a.Handles key p → k = key)
    (htries : a.Tries key → k = key)
    (hhandled : k = key → s.destroyed = false → ∀ p, t.subscribeRetries.lookup key = some p →
      t.Armed key p ∨ ∃ stage ∈ b ::ₘ stages, stage.Handles key p)
    (hretried : k = key → s.destroyed = false → ∀ l, s.serviceListeners.lookup key = some l → s.Waiting l →
      key ∈ t.subscribeRetries ∨ ∃ stage ∈ b ::ₘ stages, stage.Tries key) : Kept key t (b ::ₘ stages) := by
  have hwaiting : ∀ l, t.Waiting l → s.Waiting l := by
    intro l
    rw [Waiting, htouch.listeners]
    exact id
  refine ⟨htouch.wellFormed h.wf hq hentry, h.knows_cons htouch.grows hb, ?_, ?_⟩
  · intro hdestroyed p hp
    rw [htouch.destroyed] at hdestroyed
    by_cases hk : k = key
    · exact hhandled hk hdestroyed p hp
    · have hne : key ≠ k := fun heq => hk heq.symm
      rw [htouch.entry key hne] at hp
      rcases h.handled hdestroyed p hp with ⟨n, hn, harmed⟩ | hex
      · left
        have hcell := htouch.cell p (h.wf.entry key p hp).owns.1 (Touches.ne_of_ne h.wf hq hne hp)
        rw [Armed, hcell]
        exact ⟨n, hn, htouch.armed key hne n harmed⟩
      · exact .inr ((exists_cons hex b).resolve_left fun ha => hk (hhandles p ha))
  · intro hdestroyed l hl hwait
    rw [htouch.destroyed] at hdestroyed
    rw [htouch.serviceListeners] at hl
    by_cases hk : k = key
    · exact hretried hk hdestroyed l hl (hwaiting l hwait)
    · have hne : key ≠ k := fun heq => hk heq.symm
      rw [← lookup_isSome, htouch.entry key hne, lookup_isSome]
      exact (h.retried hdestroyed l hl (hwaiting l hwait)).imp_right
        fun hex => (exists_cons hex b).resolve_left fun ha => hk (htries ha)

theorem listen {f : Listener → Listener} (hb : s.Knows b) (hhandles : ∀ p, a.Handles key p → b.Handles key p)
    (htries : a.Tries key → s.serviceListeners.lookup key = some l)
    (hretried : s.destroyed = false → s.serviceListeners.lookup key = some l →
      (f (s.listeners.cell l)).failing = true → (f (s.listeners.cell l)).subscribers ≠ ∅ →
        key ∈ s.subscribeRetries ∨ ∃ stage ∈ b ::ₘ stages, stage.Tries key) :
    Kept key (s.listen l f) (b ::ₘ stages) := by
  have hext : Extends s (s.listen l f) := ⟨fun _ _ hl => hl, le_rfl, fun _ _ => rfl⟩
  refine ⟨⟨h.wf.installed, h.wf.injective, ?_⟩, h.knows_cons hext (hb.mono hext), ?_, ?_⟩
  · intro k p hp
    obtain ⟨howns, hlive, htimer⟩ := h.wf.entry k p hp
    exact ⟨howns.mono hext, hlive, htimer⟩
  · intro hdestroyed p hp
    refine (h.handled hdestroyed p hp).imp_right fun hex => ?_
    rcases exists_cons hex b with ha | hex
    · exact ⟨b, mem_cons_self _ _, hhandles p ha⟩
    · exact hex
  · intro hdestroyed l' hl' hwaiting
    rw [Waiting, State.listen] at hwaiting
    by_cases heq : l' = l
    · subst heq
      rw [Heap.cell_modify_self] at hwaiting
      exact hretried hdestroyed hl' hwaiting.1 hwaiting.2
    · rw [Heap.cell_modify_of_ne f _ heq] at hwaiting
      refine (h.retried hdestroyed l' hl' hwaiting).imp_right fun hex => (exists_cons hex b).resolve_left ?_
      intro ha
      exact heq (some.inj (hl'.symm.trans (htries ha)))

end

/-! ### One lemma for each section -/

theorem mem_of_lookup (hk : k = key) (hp : s.subscribeRetries.lookup k = some p) : key ∈ s.subscribeRetries :=
  hk ▸ mem_of_lookup_eq_some hp

theorem install (h : Kept key s (.installing k protocolServiceKey ::ₘ stages))
    (hnone : s.serviceListeners.lookup k = none) :
    Kept key (s.install k) (.attaching k protocolServiceKey s.listeners.next ::ₘ stages) := by
  have hext : Extends s (s.install k) := by
    refine ⟨?_, le_rfl, fun _ _ => rfl⟩
    intro k' l hl
    have hne : k' ≠ k := by
      rintro rfl
      rw [hnone] at hl
      cases hl
    exact (lookup_insert_of_ne _ hne).trans hl
  have hlookup : ∀ k' l, (s.install k).serviceListeners.lookup k' = some l →
      k' = k ∧ l = s.listeners.next ∨ s.serviceListeners.lookup k' = some l := by
    intro k' l hl
    rw [State.install, FiniteMap.lookup_insert] at hl
    split_ifs at hl with hk
    · cases hl
      exact .inl ⟨hk, rfl⟩
    · exact .inr hl
  refine ⟨⟨?_, ?_, ?_⟩, h.knows_cons hext (lookup_insert _), ?_, ?_⟩
  · intro k' l hl
    rcases hlookup k' l hl with ⟨-, rfl⟩ | hl
    · exact Nat.lt_succ_self _
    · exact Nat.lt_succ_of_lt (h.wf.installed k' l hl)
  · intro k₁ k₂ l hl₁ hl₂
    rcases hlookup k₁ l hl₁ with ⟨rfl, rfl⟩ | hl₁
    · rcases hlookup k₂ _ hl₂ with ⟨rfl, -⟩ | hl₂
      · rfl
      · exact absurd (h.wf.installed k₂ _ hl₂) (Nat.lt_irrefl _)
    · rcases hlookup k₂ l hl₂ with ⟨-, rfl⟩ | hl₂
      · exact absurd (h.wf.installed k₁ _ hl₁) (Nat.lt_irrefl _)
      · exact h.wf.injective k₁ k₂ l hl₁ hl₂
  · intro k' p hp
    obtain ⟨howns, hlive, htimer⟩ := h.wf.entry k' p hp
    exact ⟨howns.mono hext, hlive, htimer⟩
  · intro hdestroyed p hp
    exact (h.handled hdestroyed p hp).imp_right fun hex => (exists_cons hex _).resolve_left id
  · intro hdestroyed l hl hwaiting
    rw [Waiting, State.install] at hwaiting
    rcases hlookup key l hl with ⟨-, rfl⟩ | hl
    · rw [Heap.cell_add_self] at hwaiting
      exact absurd hwaiting.1 Bool.false_ne_true
    · rw [Heap.cell_add_of_lt _ (h.wf.installed key l hl)] at hwaiting
      exact (h.retried hdestroyed l hl hwaiting).imp_right fun hex => (exists_cons hex _).resolve_left id

theorem attach (h : Kept key s (.attaching k protocolServiceKey l ::ₘ stages)) :
    Kept key (s.listen l (.attach protocolServiceKey)) (.adding k l ::ₘ stages) := by
  have hinstalled : s.serviceListeners.lookup k = some l := h.knows_head
  refine h.listen hinstalled (fun _ hfalse => hfalse.elim) (fun hfalse => hfalse.elim) ?_
  intro _ hl _ _
  exact .inr ⟨_, mem_cons_self _ _, h.wf.injective k key l hinstalled hl⟩

theorem detach (h : Kept key s (.removing k protocolServiceKey l ::ₘ stages)) :
    Kept key (s.listen l (.detach protocolServiceKey)) (.checking k l ::ₘ stages) := by
  refine h.listen trivial (fun _ hfalse => hfalse.elim) (fun hfalse => hfalse.elim) ?_
  intro hdestroyed hl hfailing hsubscribers
  have hne : (s.listeners.cell l).subscribers ≠ ∅ := by
    intro hempty
    rw [Listener.detach, hempty] at hsubscribers
    exact hsubscribers (Finset.erase_empty _)
  exact (h.retried hdestroyed l hl ⟨hfailing, hne⟩).imp_right fun hex => (exists_cons hex _).resolve_left id

theorem add (h : Kept key s (.adding k l ::ₘ stages)) (ok : Bool) :
    Kept key (s.listen l (.heard ok)) ((if ok then .resolving k l else .scheduling k l) ::ₘ stages) := by
  have hinstalled : s.serviceListeners.lookup k = some l := h.knows_head
  have htries : Stage.Tries key (.adding k l) → s.serviceListeners.lookup key = some l := by
    rintro rfl
    exact hinstalled
  cases ok with
  | true =>
    refine h.listen hinstalled (fun _ hfalse => hfalse.elim) htries ?_
    intro _ _ hfailing _
    exact absurd hfailing Bool.false_ne_true
  | false =>
    refine h.listen hinstalled (fun _ hfalse => hfalse.elim) htries ?_
    intro _ hl _ _
    exact .inr ⟨_, mem_cons_self _ _, h.wf.injective k key l hinstalled hl⟩

theorem scheduleSubscribeRetry (h : Kept key s (.scheduling k l ::ₘ stages)) :
    Kept key (s.scheduleSubscribeRetry k l) (.returned ::ₘ stages) := by
  have hinstalled : s.serviceListeners.lookup k = some l := h.knows_head
  unfold State.scheduleSubscribeRetry
  split_ifs with hdestroyed hsubscribers hmem
  · refine h.stay trivial (fun _ _ _ hfalse => hfalse.elim) ?_
    intro hnot
    exact nomatch hdestroyed.symm.trans hnot
  · refine h.stay trivial (fun _ _ _ hfalse => hfalse.elim) ?_
    rintro _ l' hl' hwaiting rfl
    obtain rfl : l' = l := some.inj (hl'.symm.trans hinstalled)
    rw [hasSubscribers, decide_eq_true hwaiting.2] at hsubscribers
    cases hsubscribers
  · refine h.stay trivial (fun _ _ _ hfalse => hfalse.elim) ?_
    rintro _ _ _ _ rfl
    exact hmem
  · have hcell : (s.enter k l).states.cell s.states.next = { (default : SubscribeRetry) with listener := l } :=
      Heap.cell_add_self ..
    have howns : (s.enter k l).Owns k s.states.next := by
      refine ⟨Nat.lt_succ_self _, ?_⟩
      rw [hcell]
      exact hinstalled
    have htouch : Touches k s.states.next s ((s.enter k l).armSubscribeRetryLocked k s.states.next) :=
      (Touches.enter k l s).trans (Touches.armSubscribeRetryLocked k s.states.next _)
    have hlookup : ∀ p, ((s.enter k l).armSubscribeRetryLocked k s.states.next).subscribeRetries.lookup k =
        some p → p = s.states.next := by
      intro p hp
      exact some.inj (hp.symm.trans (lookup_insert _))
    refine h.touch htouch (fun hlt => absurd hlt (Nat.lt_irrefl _)) trivial ?_ (fun _ hfalse => hfalse.elim) id ?_ ?_
    · intro p hp
      obtain rfl := hlookup p hp
      exact entry_armSubscribeRetryLocked howns (congrArg SubscribeRetry.canceled hcell)
    · rintro rfl _ p hp
      obtain rfl := hlookup p hp
      exact .inl (armed_armSubscribeRetryLocked ..)
    · rintro rfl _ _ _ _
      exact .inl (mem_insert.2 (.inl rfl))

theorem cancelSubscribeRetryLocked (h : Kept key s (a ::ₘ stages))
    (hhandles : ∀ p, a.Handles key p → k = key) (htries : ¬a.Tries key)
    (hidle : ∀ l, s.serviceListeners.lookup k = some l → ¬s.Waiting l) :
    Kept key (s.cancelSubscribeRetryLocked k) (.returned ::ₘ stages) := by
  unfold State.cancelSubscribeRetryLocked
  split
  · rename_i hnone
    refine h.stay trivial ?_ fun _ _ _ _ ha => absurd ha htries
    intro _ p hp ha
    rw [← hhandles p ha, hnone] at hp
    cases hp
  · rename_i p hp
    obtain ⟨howns, -, htimer⟩ := h.wf.entry k p hp
    have htouch : Touches k p s (((s.update p .cancel).stopTimer (s.states.cell p).timer).forget k) := by
      refine ((Touches.update .cancel (fun _ => rfl) k p s).trans ?_).trans (Touches.forget k p _)
      exact Touches.stopTimer (s := s.update p .cancel) _ (fun n hn => (htimer n hn).2) p
    have hnone : ∀ q, (((s.update p .cancel).stopTimer (s.states.cell p).timer).forget k).subscribeRetries.lookup
        k ≠ some q := by
      intro q hq
      exact nomatch (lookup_erase ..).symm.trans hq
    refine h.touch htouch (fun _ => howns) trivial (fun q hq => absurd hq (hnone q)) hhandles
      (fun ha => absurd ha htries) ?_ ?_
    · rintro rfl _ q hq
      exact absurd hq (hnone q)
    · rintro rfl _ l hl hwaiting
      exact absurd hwaiting (hidle l hl)

theorem resolveSubscribeRetry (h : Kept key s (.resolving k l ::ₘ stages))
    (hfailing : (s.listeners.cell l).failing = false) :
    Kept key (s.resolveSubscribeRetry k l) (.returned ::ₘ stages) := by
  have hinstalled : s.serviceListeners.lookup k = some l := h.knows_head
  unfold State.resolveSubscribeRetry
  split
  · rename_i hnone
    refine h.stay trivial ?_ fun _ _ _ _ hfalse => hfalse.elim
    rintro _ p hp rfl
    exact nomatch hnone.symm.trans hp
  · rename_i p hp
    have hlistener : (s.states.cell p).listener = l :=
      some.inj ((h.wf.entry k p hp).owns.2.symm.trans hinstalled)
    rw [if_pos hlistener]
    refine h.cancelSubscribeRetryLocked (fun _ => id) id ?_
    intro l' hl' hwaiting
    obtain rfl : l' = l := some.inj (hl'.symm.trans hinstalled)
    exact Bool.false_ne_true (hfailing.symm.trans hwaiting.1)

theorem drop (h : Kept key s (a ::ₘ stages)) (howns : s.Owns k p)
    (hhandles : ∀ q, a.Handles key q → k = key ∧ p = q) (htries : ¬a.Tries key)
    (hidle : s.subscribeRetries.lookup k = some p → s.destroyed = false →
      ∀ l, s.serviceListeners.lookup k = some l → ¬s.Waiting l) : Kept key (s.drop k p) (.returned ::ₘ stages) := by
  unfold State.drop
  split_ifs with hp
  · have hnone : ∀ q, (s.forget k).subscribeRetries.lookup k ≠ some q := by
      intro q hq
      exact nomatch (lookup_erase ..).symm.trans hq
    refine h.touch (Touches.forget k p s) (fun _ => howns) trivial (fun q hq => absurd hq (hnone q))
      (fun q hq => (hhandles q hq).1) (fun ha => absurd ha htries) ?_ ?_
    · rintro rfl _ q hq
      exact absurd hq (hnone q)
    · rintro rfl hdestroyed l hl hwaiting
      exact absurd hwaiting (hidle hp hdestroyed l hl)
  · refine h.stay trivial ?_ fun _ _ _ _ ha => absurd ha htries
    intro _ q hq ha
    obtain ⟨rfl, rfl⟩ := hhandles q ha
    exact absurd hq hp

theorem retryAddListener (h : Kept key s (.firing k ::ₘ stages)) :
    Kept key (s.retryAddListener k).1 ((s.retryAddListener k).2 ::ₘ stages) := by
  unfold State.retryAddListener
  split
  · rename_i hnone
    refine h.stay trivial ?_ fun _ _ _ _ hfalse => hfalse.elim
    rintro _ p hp rfl
    exact nomatch hnone.symm.trans hp
  · rename_i p hp
    dsimp only
    have hentry := h.wf.entry k p hp
    have htouch : Touches k p s (s.update p .takeOff) := Touches.update .takeOff (fun _ => rfl) k p s
    have howns := hentry.owns.mono htouch.grows
    have hcell : (s.update p .takeOff).states.cell p = (s.states.cell p).takeOff := Heap.cell_modify_self ..
    have hentry' : ∀ q, (s.update p .takeOff).subscribeRetries.lookup k = some q → (s.update p .takeOff).Entry k q := by
      intro q hq
      obtain rfl : q = p := some.inj (hq.symm.trans hp)
      refine ⟨howns, ?_, ?_⟩
      · rw [hcell]
        exact hentry.live
      · intro n hn
        rw [hcell] at hn
        cases hn
    -- whether the state is active or not, the goroutine goes on with it
    have hgoes : ∀ b : Stage, (s.update p .takeOff).Knows b → b.Handles k p →
        Kept key (s.update p .takeOff) (b ::ₘ stages) := by
      intro b hknows hb
      refine h.touch htouch (fun _ => hentry.owns) hknows hentry' (fun _ => id) (fun hfalse => hfalse.elim) ?_ ?_
      · rintro rfl _ q hq
        obtain rfl : q = p := some.inj (hq.symm.trans hp)
        exact .inr ⟨b, mem_cons_self _ _, hb⟩
      · rintro rfl _ _ _ _
        exact .inl (mem_of_lookup rfl hp)
    split_ifs
    · exact hgoes _ howns ⟨rfl, rfl⟩
    · exact hgoes _ howns ⟨rfl, rfl⟩

theorem retry (h : Kept key s (.retrying k p ::ₘ stages)) (ok : Bool)
    (hok : ok = true ∨ s.subscribeRetries.lookup k = some p) :
    Kept key (s.listen (s.states.cell p).listener (.heard ok))
      ((if ok then .resolving k (s.states.cell p).listener else .rescheduling k p) ::ₘ stages) := by
  have howns : s.Owns k p := h.knows_head
  cases ok with
  | true =>
    refine h.listen howns.2 (fun _ ha => ha.1) (fun hfalse => hfalse.elim) ?_
    intro _ _ hfailing _
    exact absurd hfailing Bool.false_ne_true
  | false =>
    refine h.listen howns (fun _ ha => ha) (fun hfalse => hfalse.elim) ?_
    intro _ hl _ _
    have hk : k = key := h.wf.injective k key _ howns.2 hl
    exact .inl (mem_of_lookup hk (hok.resolve_left Bool.false_ne_true))

theorem reschedule (h : Kept key s (.rescheduling k p ::ₘ stages)) :
    Kept key (s.reschedule k p) (.returned ::ₘ stages) := by
  have howns : s.Owns k p := h.knows_head
  unfold State.reschedule
  dsimp only
  split_ifs with hdropped
  · refine h.drop howns (fun _ ha => ha) id ?_
    intro hp hdestroyed l hl hwaiting
    have hl : (s.states.cell p).listener = l := some.inj (howns.2.symm.trans hl)
    rw [(h.wf.entry k p hp).live, hdestroyed, hl, hasSubscribers, decide_eq_true hwaiting.2] at hdropped
    cases hdropped
  · have hcanceled : (s.states.cell p).canceled = false := by
      by_contra hne
      rw [Bool.not_eq_false] at hne
      rw [hne] at hdropped
      exact hdropped rfl
    have htouch : Touches k p s ((s.update p .land).armSubscribeRetryLocked k p) :=
      (Touches.update .land (fun _ => rfl) k p s).trans (Touches.armSubscribeRetryLocked k p _)
    have hcell : (s.update p .land).states.cell p = (s.states.cell p).land := Heap.cell_modify_self ..
    have howns' := howns.mono (Touches.update .land (fun _ => rfl) k p s).grows
    refine h.touch htouch (fun _ => howns) trivial ?_ (fun _ ha => ha.1) (fun hfalse => hfalse.elim) ?_ ?_
    · intro q hq
      by_cases hqp : q = p
      · subst hqp
        refine entry_armSubscribeRetryLocked howns' ?_
        rw [hcell]
        exact hcanceled
      · exact htouch.entry_mono (h.wf.entry k q hq) hqp
    · rintro rfl hdestroyed q hq
      by_cases hqp : q = p
      · subst hqp
        exact .inl (armed_armSubscribeRetryLocked ..)
      · -- the state is not the one in the map, which keeps its timer
        rcases h.handled hdestroyed q hq with ⟨n, hn, harmed⟩ | hex
        · left
          have hlt := s.timers.lt_next n (mem_of_lookup_eq_some harmed)
          refine ⟨n, ?_, (lookup_insert_of_ne _ hlt.ne).trans harmed⟩
          rw [htouch.cell q (h.wf.entry k q hq).owns.1 hqp]
          exact hn
        · exact .inr ((exists_cons hex _).resolve_left fun ha => hqp ha.2.symm)
    · rintro rfl hdestroyed l hl hwaiting
      exact (h.retried hdestroyed l hl hwaiting).imp_right fun hex => (exists_cons hex _).resolve_left id

theorem destroy (h : Kept key s (a ::ₘ stages)) : Kept key s.destroy (.returned ::ₘ stages) := by
  have hext : Extends s s.destroy := by
    refine ⟨fun _ _ hl => hl, le_rfl, ?_⟩
    intro p _
    rw [State.destroy]
    dsimp only
    split_ifs <;> rfl
  refine ⟨⟨h.wf.installed, h.wf.injective, ?_⟩, h.knows_cons hext trivial, ?_, ?_⟩
  · intro k p hp
    cases hp
  · intro hdestroyed
    cases hdestroyed
  · intro hdestroyed
    cases hdestroyed

end Kept

/-- No step loses a retry out of order: it is cancelled or dropped when its listener has no subscriber, resolved when
no `AddListener` has failed since the one that succeeded, and its own `AddListener` fails only while it is the one in
the map. -/
def Orderly (ok : Bool) (s : State) : Stage → Prop
  | .cancelling key | .dropping key _ => ∀ l ∈ s.serviceListeners.lookup key, s.hasSubscribers l = false
  | .resolving _ l => (s.listeners.cell l).failing = false
  | .retrying key p => ok = true ∨ s.subscribeRetries.lookup key = some p
  | _ => True

instance Orderly.decidable (ok : Bool) (s : State) (a : Stage) : Decidable (Orderly ok s a) :=
  match a with
  | .cancelling key => inferInstanceAs (Decidable (∀ l ∈ s.serviceListeners.lookup key, _ = false))
  | .dropping key _ => inferInstanceAs (Decidable (∀ l ∈ s.serviceListeners.lookup key, _ = false))
  | .resolving _ l => inferInstanceAs (Decidable ((s.listeners.cell l).failing = false))
  | .retrying key p => inferInstanceAs (Decidable (ok = true ∨ s.subscribeRetries.lookup key = some p))
  | .returned | .subscribing .. | .looking .. | .installing .. | .attaching .. | .adding .. | .scheduling ..
  | .unsubscribing .. | .removing .. | .checking .. | .firing .. | .rescheduling .. | .destroying =>
    inferInstanceAs (Decidable True)

theorem not_waiting (h : ∀ l ∈ s.serviceListeners.lookup key, s.hasSubscribers l = false) (l : ℕ)
    (hl : s.serviceListeners.lookup key = some l) : ¬s.Waiting l := by
  intro hwaiting
  have hnone := h l hl
  rw [hasSubscribers, decide_eq_true hwaiting.2] at hnone
  cases hnone

/-- Every orderly step keeps a retry for each subscription that has failed. -/
theorem Kept.advance {ok : Bool} (h : Kept key s (a ::ₘ stages)) (horderly : s.Orderly ok a)
    (hstep : s.advance ok a = some (t, b)) : Kept key t (b ::ₘ stages) := by
  cases a with
  | returned => cases hstep
  | subscribing k protocolServiceKey | checking k l =>
    cases hstep
    split_ifs
    · exact h.pass trivial (fun _ => id) id
    · exact h.pass trivial (fun _ => id) id
  | looking k protocolServiceKey =>
    cases hstep
    split
    · exact h.pass trivial (fun _ => id) id
    · rename_i l hl
      exact h.pass hl (fun _ => id) id
  | installing k protocolServiceKey =>
    rw [State.advance] at hstep
    split_ifs at hstep
    · cases hstep
      exact h.pass trivial (fun _ => id) id
    · split at hstep
      · rename_i l hl
        cases hstep
        exact h.pass hl (fun _ => id) id
      · rename_i hnone
        cases hstep
        exact h.install hnone
  | attaching k protocolServiceKey l =>
    cases hstep
    exact h.attach
  | adding k l =>
    cases hstep
    exact h.add ok
  | scheduling k l =>
    cases hstep
    exact h.scheduleSubscribeRetry
  | resolving k l =>
    cases hstep
    exact h.resolveSubscribeRetry horderly
  | unsubscribing k protocolServiceKey =>
    cases hstep
    split
    · exact h.pass trivial (fun _ => id) id
    · exact h.pass trivial (fun _ => id) id
  | removing k protocolServiceKey l =>
    cases hstep
    exact h.detach
  | cancelling k =>
    cases hstep
    exact h.cancelSubscribeRetryLocked (fun _ hfalse => hfalse.elim) id (not_waiting horderly)
  | firing k =>
    have hresult : s.retryAddListener k = (t, b) := some.inj hstep
    have hkept := h.retryAddListener
    rw [hresult] at hkept
    exact hkept
  | dropping k p =>
    cases hstep
    exact h.drop h.knows_head (fun _ ha => ha) id fun _ _ => not_waiting horderly
  | retrying k p =>
    cases hstep
    exact h.retry ok horderly
  | rescheduling k p =>
    cases hstep
    exact h.reschedule
  | destroying =>
    cases hstep
    exact h.destroy

theorem Kept.spawn (h : Kept key s stages) (hb : s.Knows b) : Kept key s (b ::ₘ stages) := by
  refine ⟨h.wf, ?_, ?_, ?_⟩
  · intro st hstage
    rcases mem_cons.1 hstage with rfl | hstage
    · exact hb
    · exact h.knows st hstage
  · intro hdestroyed p hp
    refine (h.handled hdestroyed p hp).imp_right ?_
    rintro ⟨st, hstage, hhandles⟩
    exact ⟨st, mem_cons_of_mem hstage, hhandles⟩
  · intro hdestroyed l hl hwaiting
    refine (h.retried hdestroyed l hl hwaiting).imp_right ?_
    rintro ⟨st, hstage, htries⟩
    exact ⟨st, mem_cons_of_mem hstage, htries⟩

theorem Kept.fire {n : ℕ} (h : Kept key s stages) (hn : s.timers.armed.lookup n = some k) :
    Kept key { s with timers := s.timers.stop n } (.firing k ::ₘ stages) := by
  have hspawn : Kept key s (.firing k ::ₘ stages) := h.spawn trivial
  have htouch : Touches k s.states.next s { s with timers := s.timers.stop n } := by
    refine Touches.stopTimer (some n) ?_ s.states.next
    intro m hm k' hk'
    cases hm
    exact some.inj (hk'.symm.trans hn)
  refine hspawn.touch htouch (fun hlt => absurd hlt (Nat.lt_irrefl _)) trivial ?_ (fun _ => id)
    (fun hfalse => hfalse.elim) ?_ ?_
  · intro p hp
    have hentry := h.wf.entry k p hp
    exact htouch.entry_mono hentry hentry.owns.1.ne
  · rintro rfl _ p _
    exact .inr ⟨_, mem_cons_self _ _, rfl⟩
  · rintro rfl
    exact hspawn.retried

end State

/-! ## What is there when no goroutine is between steps -/

namespace System

def Orderly (s : System) : Action → Prop
  | .advance i ok => ∀ a ∈ s.threads[i]?, s.shared.Orderly ok a
  | _ => True

instance Orderly.decidable (s : System) (action : Action) : Decidable (Orderly s action) :=
  match action with
  | .advance _ ok => inferInstanceAs (Decidable (∀ a ∈ s.threads[_]?, s.shared.Orderly ok a))
  | .call _ => inferInstanceAs (Decidable True)
  | .fire _ => inferInstanceAs (Decidable True)

variable {s : System}

theorem kept (h : ReachedBy step (· = idle) Orderly s) (key : Str) : s.shared.Kept key s.threads := by
  refine ReachedBy.invariant (fun s => s.shared.Kept key s.threads) ?_ ?_ h
  · rintro s rfl
    refine ⟨⟨?_, ?_, ?_⟩, ?_, ?_, ?_⟩
    · intro k l hl
      cases hl
    · intro k k' l hl
      cases hl
    · intro k p hp
      cases hp
    · intro st hstage
      exact absurd hstage (notMem_zero st)
    · intro _ p hp
      cases hp
    · intro _ l hl
      cases hl
  · intro s act t hs horderly hstep
    cases act with
    | call req =>
      cases hstep
      rw [Pool.coe_threads_spawn]
      cases req <;> exact hs.spawn trivial
    | fire n =>
      obtain ⟨k, hn, rfl⟩ := map_eq_some_iff.1 hstep
      rw [Pool.coe_threads_spawn]
      exact hs.fire hn
    | advance i ok =>
      obtain ⟨a, b, others, hi, hadvance, hthreads, hthreads'⟩ := Pool.advance_cases hstep
      rw [hthreads] at hs
      rw [hthreads']
      exact hs.advance (horderly a hi) hadvance

/-- When no goroutine is between steps, a listener that has a subscriber and for which `AddListener` has
failed since it last succeeded has a retry with an armed timer. -/
theorem armed_of_failing (h : ReachedBy step (· = idle) Orderly s) (hreturned : s.AllReturned)
    (hdestroyed : s.shared.destroyed = false) {key : Str} {l : ℕ}
    (hinstalled : s.shared.serviceListeners.lookup key = some l)
    (hsubscribers : (s.shared.listeners.cell l).subscribers ≠ ∅)
    (hfailing : (s.shared.listeners.cell l).failing = true) :
    ∃ p n, s.shared.subscribeRetries.lookup key = some p ∧ (s.shared.states.cell p).timer = some n ∧
      n ∈ s.shared.timers.armed := by
  have hkept := kept h key
  have hstages : ∀ r : Stage → Prop, ¬r .returned → ¬∃ stage ∈ (s.threads : Multiset Stage), r stage := by
    rintro r hr ⟨stage, hstage, hrole⟩
    have hret := hreturned stage hstage
    cases stage <;> first | exact hr hrole | cases hret
  have hmem : key ∈ s.shared.subscribeRetries :=
    (hkept.retried hdestroyed l hinstalled ⟨hfailing, hsubscribers⟩).resolve_right (hstages _ id)
  obtain ⟨p, hp⟩ := mem_iff.1 hmem
  obtain ⟨n, hn, harmed⟩ := (hkept.handled hdestroyed p hp).resolve_right (hstages _ id)
  exact ⟨p, n, hp, hn, mem_of_lookup_eq_some harmed⟩

/-- Goroutine `i` makes a call and takes `n` steps, in which `AddListener` succeeds or fails. -/
def begin (request : Request) (i n : ℕ) (ok : Bool) : List Action :=
  .call request :: List.replicate n (.advance i ok)

def greeterApp : Str := str "greeter"

def greeterKey : Str := str "demo.Greeter:tri"

/-- `AddListener` fails, and so does the first retry. -/
def failTwice : List Action :=
  List.flatten [
    begin (.subscribeURL greeterApp greeterKey) 0 6 false,
    .fire 0 :: List.replicate 3 (.advance 1 false)]

theorem failTwice_armed : ∃ s, ReachedBy step (· = idle) Orderly s ∧ s.AllReturned ∧
    s.shared.destroyed = false ∧ s.shared.serviceListeners.lookup greeterApp = some 0 ∧
    (s.shared.listeners.cell 0).subscribers ≠ ∅ ∧ (s.shared.listeners.cell 0).failing = true ∧
    ∃ p n, s.shared.subscribeRetries.lookup greeterApp = some p ∧
      (s.shared.states.cell p).timer = some n ∧ n ∈ s.shared.timers.armed := by
  obtain ⟨s, hreached, hreturned, hdestroyed, hinstalled, hsubscribers, hfailing⟩ :=
    ReachedBy.of_run step Orderly idle failTwice
      (fun s => s.AllReturned ∧ s.shared.destroyed = false ∧
        s.shared.serviceListeners.lookup greeterApp = some 0 ∧
        (s.shared.listeners.cell 0).subscribers ≠ ∅ ∧ (s.shared.listeners.cell 0).failing = true)
      (by decide +kernel)
  exact ⟨s, hreached, hreturned, hdestroyed, hinstalled, hsubscribers, hfailing,
    armed_of_failing hreached hreturned hdestroyed hinstalled hsubscribers hfailing⟩

/-- A subscriber that is established leaves, and finds that it was the last one.  Before it cancels,
another one comes and fails. -/
def lateCancel : List Action :=
  List.flatten [
    begin (.subscribeURL greeterApp greeterKey) 0 6 true,
    begin (.unSubscribe greeterApp greeterKey) 1 3 true,
    begin (.subscribeURL greeterApp greeterKey) 2 5 false,
    [.advance 1 true]]

/-- The retry of the second one is gone. -/
theorem lateCancel_loses_retry : ∃ s, ReachedBy step (· = idle) (fun _ _ => True) s ∧ s.AllReturned ∧
    s.shared.destroyed = false ∧ s.shared.serviceListeners.lookup greeterApp = some 0 ∧
    (s.shared.listeners.cell 0).subscribers ≠ ∅ ∧ (s.shared.listeners.cell 0).failing = true ∧
    s.shared.subscribeRetries.lookup greeterApp = none :=
  ReachedBy.of_run step (fun _ _ => True) idle lateCancel
    (fun s => s.AllReturned ∧ s.shared.destroyed = false ∧
      s.shared.serviceListeners.lookup greeterApp = some 0 ∧
      (s.shared.listeners.cell 0).subscribers ≠ ∅ ∧ (s.shared.listeners.cell 0).failing = true ∧
      s.shared.subscribeRetries.lookup greeterApp = none)
    (by decide +kernel)

end System

end DubboGo.Registry.SubscribeRetries
