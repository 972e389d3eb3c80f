import DubboGo.Registry.InstancesListener

/-!
# What a notify listener holds

A notify listener that attaches is sent the URLs of its service one by one, outside every lock.  A refresh
sends it the whole list in one delivery, and may do so in between.
-/

namespace DubboGo.Registry.InstancesListener

open Go Common Lib ServiceDiscovery List Multiset Finmap

/-! ## Deliveries -/

def Delivery.apply (held : Set ServiceURL) : Delivery → Set ServiceURL
  | .add url => insert url held
  | .all urls => {url | url ∈ urls}

def held (received : List Delivery) : Set ServiceURL := received.foldl Delivery.apply ∅

theorem held_concat (rcv : List Delivery) (dlv : Delivery) : held (rcv ++ [dlv]) = dlv.apply (held rcv) := by
  rw [held, foldl_append]
  rfl

def Delivery.added? : Delivery → Option ServiceURL
  | .add url => some url
  | .all _ => none

theorem mem_held_of_getLast? {received : List Delivery} {url : ServiceURL}
    (h : received.getLast? = some (.add url)) : url ∈ held received := by
  obtain ⟨before, rfl⟩ := getLast?_eq_some_iff.1 h
  rw [held_concat]
  exact Set.mem_insert url _

namespace Stage

def adds (n : ℕ) : Stage → List ServiceURL
  | .arming notify urls => if notify = n then urls else []
  | .adding notify urls => if notify = n then urls else []
  | _ => []

def notifies : Stage → Option ℕ
  | .notifying _ ((_, notifyListener) :: _) => some notifyListener
  | _ => none

/-- The stage, if it is one of a refresh that holds `buildMu`. -/
def builder? : Stage → Option Stage
  | .building allInstances cachedMetadata => some (.building allInstances cachedMetadata)
  | .notifying newServiceURLs listeners => some (.notifying newServiceURLs listeners)
  | .finishing => some .finishing
  | _ => none

/-- A goroutine attaches and notifies the notify listener `n` under `key`, and no other one there. -/
def Respects (key : Str) (n : ℕ) : Stage → Prop
  | .attaching serviceKey notify => serviceKey = key ↔ notify = n
  | .removing serviceKey => serviceKey ≠ key
  | .notifying _ listeners => ∀ l ∈ listeners, l.1 = key ↔ l.2 = n
  | _ => True

end Stage

def toAdd (n : ℕ) (stages : Multiset Stage) : Set ServiceURL := {url | ∃ stage ∈ stages, url ∈ stage.adds n}

theorem toAdd_cons (n : ℕ) (a : Stage) (stages : Multiset Stage) :
    toAdd n (a ::ₘ stages) = {url | url ∈ a.adds n} ∪ toAdd n stages := by
  ext url
  simp only [toAdd, Multiset.mem_cons, exists_eq_or_imp, Set.mem_ofPred_eq, Set.mem_union]

theorem toAdd_cons_of_nil {n : ℕ} {a : Stage} (ha : a.adds n = []) (stages : Multiset Stage) :
    toAdd n (a ::ₘ stages) = toAdd n stages := by
  rw [toAdd_cons, ha]
  simp

theorem toAdd_eq_empty {n : ℕ} {stages : Multiset Stage} (h : ∀ st ∈ stages, st.adds n = []) :
    toAdd n stages = ∅ := by
  ext url
  simp only [toAdd, Set.mem_ofPred_eq, Set.mem_empty_iff_false, iff_false, not_exists, not_and]
  intro st hstage hurl
  rw [h st hstage] at hurl
  exact not_mem_nil hurl

/-! ## Following the refreshes -/

namespace State

variable {s t : State} {round : Round} {key : Str} {n : ℕ} {a b : Stage} {stages : Multiset Stage}
  {builder : Option Stage}

def Pending (key : Str) (n : ℕ) (builder : Option Stage) : Prop :=
  ∃ urls listeners, builder = some (.notifying urls listeners) ∧ (key, n) ∈ listeners

/-- The notify listener is going to hold the URLs of its service: a refresh will notify it, or what it
holds and what it is yet to be sent are those URLs.  `builder` is the refresh that holds `buildMu`. -/
structure Follows (key : Str) (n : ℕ) (s : State) (stages : Multiset Stage) (builder : Option Stage) :
    Prop where
  only : stages.filterMap Stage.builder? = builder.elim 0 ({·})
  mu : s.buildMu = builder.isSome
  urls_eq : ∀ urls listeners, builder = some (.notifying urls listeners) → urls = s.serviceUrls
  respects : ∀ stage ∈ stages, stage.Respects key n
  listed : ∀ k m, s.listeners.lookup k = some m → (k = key ↔ m = n)
  fresh : key ∉ s.listeners → s.received n = [] ∧ toAdd n stages = ∅ ∧ ¬Pending key n builder
  current : key ∈ s.listeners →
    Pending key n builder ∨ held (s.received n) ∪ toAdd n stages = {url | url ∈ s.serviceUrls key}

theorem not_pending_of_ne (h : ∀ urls lsts, builder ≠ some (.notifying urls lsts)) : ¬Pending key n builder := by
  rintro ⟨urls, lsts, heq, -⟩
  exact h urls lsts heq

namespace Follows

theorem respects_cons (h : Follows key n s (a ::ₘ stages) builder) (hb : b.Respects key n) :
    ∀ st ∈ b ::ₘ stages, st.Respects key n := by
  intro st hstage
  rcases Multiset.mem_cons.1 hstage with rfl | hstage
  · exact hb
  · exact h.respects st (Multiset.mem_cons_of_mem hstage)

theorem elim_eq_toList (builder : Option Stage) : builder.elim 0 ({·}) = (builder.toList : Multiset Stage) := by
  cases builder <;> rfl

theorem holder (h : Follows key n s stages builder) :
    stages.filterMap Stage.builder? = (builder.toList : Multiset Stage) :=
  h.only.trans (elim_eq_toList builder)

theorem only_of_none (h : Follows key n s (a ::ₘ stages) builder) (ha : a.builder? = none)
    (hb : b.builder? = none) : (b ::ₘ stages).filterMap Stage.builder? = builder.elim 0 ({·}) := by
  rw [elim_eq_toList]
  exact filterMap_cons_of_none h.holder ha hb

theorem frame (h : Follows key n s (a ::ₘ stages) builder) (hsame : SameSubscribers s t)
    (ha : a.builder? = none) (hb : b.builder? = none) (hadds : b.adds n = a.adds n)
    (hrespects : b.Respects key n) : Follows key n t (b ::ₘ stages) builder := by
  obtain ⟨hlisteners, hurls, hreceived, hmu⟩ := hsame
  have htoAdd : toAdd n (b ::ₘ stages) = toAdd n (a ::ₘ stages) := by
    rw [toAdd_cons, toAdd_cons, hadds]
  refine ⟨h.only_of_none ha hb, hmu.trans h.mu, ?_, h.respects_cons hrespects, ?_, ?_, ?_⟩
  · rw [hurls]
    exact h.urls_eq
  · rw [hlisteners]
    exact h.listed
  · rw [hlisteners, hreceived, htoAdd]
    exact h.fresh
  · rw [hlisteners, hreceived, htoAdd, hurls]
    exact h.current

variable {skey : Str} {notify : ℕ} {urls : Str → List ServiceURL}

theorem attach (h : Follows key n s (.attaching skey notify ::ₘ stages) builder) (hb : b.builder? = none)
    (hadds : b.adds n = if notify = n then s.serviceUrls skey else []) (hrespects : b.Respects key n) :
    Follows key n { s with listeners := s.listeners.insert skey notify } (b ::ₘ stages) builder := by
  have hiff : skey = key ↔ notify = n := h.respects _ (Multiset.mem_cons_self _ _)
  have hfresh := h.fresh
  have hcurrent := h.current
  rw [toAdd_cons_of_nil rfl] at hfresh hcurrent
  refine ⟨h.only_of_none rfl hb, h.mu, h.urls_eq, h.respects_cons hrespects, ?_, ?_, ?_⟩
  · intro k m hm
    rw [FiniteMap.lookup_insert] at hm
    split_ifs at hm with hk
    · cases hm
      rw [hk]
      exact hiff
    · exact h.listed k m hm
  · intro hnot
    have hne : notify ≠ n := fun heq => hnot (mem_insert.2 (.inl (hiff.2 heq).symm))
    rw [if_neg hne] at hadds
    rw [toAdd_cons_of_nil hadds]
    exact hfresh fun hmem => hnot (mem_insert.2 (.inr hmem))
  · intro hmem
    by_cases hn : notify = n
    · -- what it is sent is what the listener has now
      have hkey : skey = key := hiff.2 hn
      rw [if_pos hn, hkey] at hadds
      rw [toAdd_cons, hadds]
      by_cases hmem' : key ∈ s.listeners
      · refine (hcurrent hmem').imp_right fun heq => ?_
        rw [Set.union_left_comm, heq, Set.union_self]
      · obtain ⟨hreceived, htoAdd, -⟩ := hfresh hmem'
        right
        rw [hreceived, htoAdd, Set.union_empty]
        exact Set.empty_union _
    · have hkey : key ≠ skey := fun heq => hn (hiff.1 heq.symm)
      rw [if_neg hn] at hadds
      rw [toAdd_cons_of_nil hadds]
      exact hcurrent ((mem_insert.1 hmem).resolve_left hkey)

theorem add {url : ServiceURL} {urls : List ServiceURL}
    (h : Follows key n s (.adding notify (url :: urls) ::ₘ stages) builder) :
    Follows key n (s.deliver notify (.add url)) (.adding notify urls ::ₘ stages) builder := by
  have hfresh := h.fresh
  have hcurrent := h.current
  by_cases hn : n = notify
  · subst hn
    have hmem : url ∈ toAdd n (.adding n (url :: urls) ::ₘ stages) := by
      refine ⟨_, Multiset.mem_cons_self _ _, ?_⟩
      rw [Stage.adds, if_pos rfl]
      exact List.mem_cons_self
    refine ⟨h.only_of_none rfl rfl, h.mu, h.urls_eq, h.respects_cons trivial, h.listed, ?_, ?_⟩
    · intro hnot
      rw [(hfresh hnot).2.1] at hmem
      exact absurd hmem (Set.notMem_empty url)
    · intro hkey
      refine (hcurrent hkey).imp_right fun heq => ?_
      refine Eq.trans ?_ heq
      rw [received_deliver, if_pos rfl, held_concat, toAdd_cons, toAdd_cons]
      ext u
      simp only [Delivery.apply, Stage.adds, if_pos, Set.mem_union, Set.mem_insert_iff,
        Set.mem_ofPred_eq, List.mem_cons]
      tauto
  · have hne : notify ≠ n := fun heq => hn heq.symm
    have hnil : ∀ urls, Stage.adds n (.adding notify urls) = [] := fun urls => if_neg hne
    rw [toAdd_cons_of_nil (hnil _)] at hfresh hcurrent
    refine ⟨h.only_of_none rfl rfl, h.mu, h.urls_eq, h.respects_cons trivial, h.listed, ?_, ?_⟩
    · rw [received_deliver, if_neg hn, toAdd_cons_of_nil (hnil _)]
      exact hfresh
    · rw [received_deliver, if_neg hn, toAdd_cons_of_nil (hnil _)]
      exact hcurrent

theorem remove (h : Follows key n s (.removing skey ::ₘ stages) builder) :
    Follows key n (s.removeListener skey) (.returned ::ₘ stages) builder := by
  have hne : skey ≠ key := h.respects _ (Multiset.mem_cons_self _ _)
  have hmem : key ∈ s.listeners.erase skey ↔ key ∈ s.listeners := by
    rw [mem_erase]
    exact and_iff_right hne.symm
  have herased : Follows key n { s with listeners := s.listeners.erase skey } (.removing skey ::ₘ stages) builder := by
    refine ⟨h.only, h.mu, h.urls_eq, h.respects, ?_, ?_, ?_⟩
    · intro k m hm
      rw [FiniteMap.lookup_erase] at hm
      split_ifs at hm
      exact h.listed k m hm
    · rw [hmem]
      exact h.fresh
    · rw [hmem]
      exact h.current
  exact herased.frame (sameSubscribers_removeListener skey s) rfl rfl rfl trivial

theorem pass {builder' : Option Stage} (h : Follows key n s (a ::ₘ stages) builder)
    (hlisteners : t.listeners = s.listeners) (hurls : t.serviceUrls = s.serviceUrls)
    (hreceived : t.received = s.received) (hmu : t.buildMu = builder'.isSome)
    (honly : (b ::ₘ stages).filterMap Stage.builder? = builder'.elim 0 ({·}))
    (ha : a.adds n = []) (hb : b.adds n = []) (hrespects : b.Respects key n) (hpending : ¬Pending key n builder)
    (hbuilder' : ∀ urls listeners, builder' ≠ some (.notifying urls listeners)) :
    Follows key n t (b ::ₘ stages) builder' := by
  have hfresh := h.fresh
  have hcurrent := h.current
  rw [toAdd_cons_of_nil ha] at hfresh hcurrent
  refine ⟨honly, hmu, ?_, h.respects_cons hrespects, ?_, ?_, ?_⟩
  · intro urls listeners heq
    exact absurd heq (hbuilder' urls listeners)
  · rw [hlisteners]
    exact h.listed
  · rw [hlisteners, hreceived, toAdd_cons_of_nil hb]
    intro hnot
    obtain ⟨hreceived, htoAdd, -⟩ := hfresh hnot
    exact ⟨hreceived, htoAdd, not_pending_of_ne hbuilder'⟩
  · rw [hlisteners, hreceived, hurls, toAdd_cons_of_nil hb]
    intro hmem
    exact .inr ((hcurrent hmem).resolve_left hpending)

theorem lock (h : Follows key n s (.refreshing ::ₘ stages) builder) (hmu : ¬s.buildMu = true)
    (allInstances : FiniteMap Str (List ServiceInstance)) (cachedMetadata : FiniteMap Str MetadataInfo) :
    Follows key n { s with buildMu := true } (.building allInstances cachedMetadata ::ₘ stages)
      (some (.building allInstances cachedMetadata)) := by
  have hbuilder : builder = none := by
    rw [h.mu] at hmu
    exact Option.not_isSome_iff_eq_none.1 hmu
  subst hbuilder
  have honly := h.only
  rw [filterMap_cons_none _ _ rfl] at honly
  exact h.pass rfl rfl rfl rfl (filterMap_cons_of_zero honly) rfl rfl trivial
    (not_pending_of_ne fun _ _ heq => nomatch heq) (fun _ _ heq => nomatch heq)

theorem commit {insts : FiniteMap Str (List ServiceInstance)} {cached : FiniteMap Str MetadataInfo} {built : Build}
    (h : Follows key n s (.building insts cached ::ₘ stages) builder) (hvalid : round.Valid insts built s.listeners) :
    Follows key n (s.commit built round) (.notifying (round.newServiceURLs built) round.listeners ::ₘ stages)
      (some (.notifying (round.newServiceURLs built) round.listeners)) := by
  obtain ⟨rfl, hnone⟩ := holder_eq_some h.holder rfl
  have hfresh := h.fresh
  rw [toAdd_cons_of_nil rfl] at hfresh
  refine ⟨?_, h.mu, ?_, h.respects_cons ?_, h.listed, ?_, ?_⟩
  · exact filterMap_cons_of_zero hnone
  · intro urls lsts heq
    cases heq
    rfl
  · rintro ⟨k, m⟩ hkm
    exact h.listed k m (hvalid.mem_listeners.1 hkm)
  · intro hnot
    rw [toAdd_cons_of_nil rfl]
    obtain ⟨hreceived, htoAdd, -⟩ := hfresh hnot
    refine ⟨hreceived, htoAdd, ?_⟩
    rintro ⟨urls, lsts, heq, hmem⟩
    cases heq
    exact hnot (mem_of_lookup_eq_some (hvalid.mem_listeners.1 hmem))
  · intro hmem
    obtain ⟨m, hm⟩ := mem_iff.1 hmem
    have hmn : m = n := (h.listed key m hm).1 rfl
    subst hmn
    exact .inl ⟨_, _, rfl, hvalid.mem_listeners.2 hm⟩

theorem notifyAll {k : Str} {m : ℕ} {lsts : List (Str × ℕ)}
    (h : Follows key n s (.notifying urls ((k, m) :: lsts) ::ₘ stages) builder) (hadds : m = n → toAdd n stages = ∅) :
    Follows key n (s.deliver m (.all (urls k))) (.notifying urls lsts ::ₘ stages) (some (.notifying urls lsts)) := by
  obtain ⟨rfl, hnone⟩ := holder_eq_some h.holder rfl
  have hurls : urls = s.serviceUrls := h.urls_eq _ _ rfl
  have hrespects : ∀ l ∈ (k, m) :: lsts, l.1 = key ↔ l.2 = n := h.respects _ (Multiset.mem_cons_self _ _)
  have hiff : k = key ↔ m = n := hrespects _ List.mem_cons_self
  have hfresh := h.fresh
  have hcurrent := h.current
  rw [toAdd_cons_of_nil rfl] at hfresh hcurrent
  refine ⟨?_, h.mu, ?_, h.respects_cons fun l hl => hrespects l (List.mem_cons_of_mem _ hl), h.listed, ?_, ?_⟩
  · exact filterMap_cons_of_zero hnone
  · intro urls lsts heq
    cases heq
    exact hurls
  · intro hnot
    obtain ⟨hreceived, htoAdd, hpending⟩ := hfresh hnot
    have hne : ¬n = m := by
      intro heq
      have hk : k = key := hiff.2 heq.symm
      subst hk heq
      exact hpending ⟨_, _, rfl, List.mem_cons_self⟩
    rw [toAdd_cons_of_nil rfl, received_deliver, if_neg hne]
    refine ⟨hreceived, htoAdd, ?_⟩
    rintro ⟨_, _, heq, hmem⟩
    cases heq
    exact hpending ⟨_, _, rfl, List.mem_cons_of_mem _ hmem⟩
  · intro hmem
    rw [toAdd_cons_of_nil rfl, received_deliver]
    by_cases hn : n = m
    · right
      rw [if_pos hn, held_concat, hadds hn.symm, Set.union_empty, hurls, hiff.2 hn.symm]
      rfl
    · rw [if_neg hn]
      refine (hcurrent hmem).imp_left ?_
      rintro ⟨_, _, heq, hmem⟩
      cases heq
      refine ⟨_, _, rfl, (List.mem_cons.1 hmem).resolve_left ?_⟩
      intro hkm
      exact hn (Prod.ext_iff.1 hkm).2

theorem notified (h : Follows key n s (.notifying urls [] ::ₘ stages) builder) :
    Follows key n s (.finishing ::ₘ stages) (some .finishing) := by
  obtain ⟨rfl, hnone⟩ := holder_eq_some h.holder rfl
  refine h.pass rfl rfl rfl h.mu (filterMap_cons_of_zero hnone) rfl rfl trivial ?_ fun _ _ heq => nomatch heq
  rintro ⟨_, _, heq, hmem⟩
  cases heq
  exact not_mem_nil hmem

theorem unlock (h : Follows key n s (.finishing ::ₘ stages) builder) (hsame : SameSubscribers s t) :
    Follows key n { t with buildMu := false } (.returned ::ₘ stages) none := by
  obtain ⟨rfl, hnone⟩ := holder_eq_some h.holder rfl
  obtain ⟨hlisteners, hurls, hreceived, -⟩ := hsame
  exact h.pass hlisteners hurls hreceived rfl (filterMap_cons_of_zero hnone) rfl rfl trivial
    (not_pending_of_ne fun _ _ heq => nomatch heq) (fun _ _ heq => nomatch heq)

/-- Every step keeps what a notify listener knows in pace with the URLs. -/
theorem advance (h : Follows key n s (a ::ₘ stages) builder) (hadds : a.notifies = some n → toAdd n stages = ∅)
    (hstep : s.advance round a = some (t, b)) : ∃ builder', Follows key n t (b ::ₘ stages) builder' := by
  cases a with
  | returned => cases hstep
  | attaching skey notify =>
    cases hstep
    refine ⟨builder, ?_⟩
    split_ifs
    · exact h.attach rfl rfl trivial
    · exact h.attach rfl rfl trivial
  | arming notify urls =>
    cases hstep
    exact ⟨builder, h.frame (sameSubscribers_scheduleMetadataRetry s) rfl rfl rfl trivial⟩
  | adding notify urls =>
    cases urls with
    | nil =>
      cases hstep
      refine ⟨builder, h.frame ⟨rfl, rfl, rfl, rfl⟩ rfl rfl ?_ trivial⟩
      exact (ite_self _).symm
    | cons url urls =>
      cases hstep
      exact ⟨builder, h.add⟩
  | removing skey =>
    cases hstep
    exact ⟨builder, h.remove⟩
  | changing serviceName instances =>
    cases hstep
    exact ⟨builder, h.frame ⟨rfl, rfl, rfl, rfl⟩ rfl rfl rfl trivial⟩
  | refreshing =>
    rw [State.advance] at hstep
    split_ifs at hstep with hmu
    cases hstep
    exact ⟨_, h.lock hmu _ _⟩
  | building allInstances cachedMetadata =>
    rw [State.advance] at hstep
    split_ifs at hstep with hvalid
    cases hstep
    exact ⟨_, h.commit hvalid⟩
  | notifying urls listeners =>
    cases listeners with
    | nil =>
      cases hstep
      exact ⟨_, h.notified⟩
    | cons listener listeners =>
      cases hstep
      exact ⟨_, h.notifyAll fun hn => hadds (congrArg some hn)⟩
  | finishing =>
    cases hstep
    exact ⟨none, h.unlock (sameSubscribers_scheduleMetadataRetry s)⟩
  | firing timer =>
    cases hstep
    refine ⟨builder, ?_⟩
    split_ifs
    · exact h.frame ⟨rfl, rfl, rfl, rfl⟩ rfl rfl rfl trivial
    · exact h.frame ⟨rfl, rfl, rfl, rfl⟩ rfl rfl rfl trivial
  | stopping =>
    cases hstep
    exact ⟨builder, h.frame (sameSubscribers_stopRetryTimer { s with closed := true }) rfl rfl rfl trivial⟩

theorem spawn (h : Follows key n s stages builder) (hsame : SameSubscribers s t) (hb : b.builder? = none)
    (hadds : b.adds n = []) (hrespects : b.Respects key n) : Follows key n t (b ::ₘ stages) builder := by
  have hreturned : Follows key n s (.returned ::ₘ stages) builder := by
    refine ⟨?_, h.mu, h.urls_eq, ?_, h.listed, ?_, ?_⟩
    · rw [filterMap_cons_none _ _ rfl]
      exact h.only
    · intro st hstage
      rcases Multiset.mem_cons.1 hstage with rfl | hstage
      · trivial
      · exact h.respects st hstage
    · rw [toAdd_cons_of_nil rfl]
      exact h.fresh
    · rw [toAdd_cons_of_nil rfl]
      exact h.current
  exact hreturned.frame hsame rfl hb hadds hrespects

end Follows

end State

/-! ## What a notify listener ends up with -/

namespace System

/-- The calls that attach under `key` attach the notify listener `n`, and only those attach it; nobody
detaches it. -/
def Attaches (key : Str) (n : ℕ) : Action → Prop
  | .call (.addListenerAndNotify serviceKey notify) => serviceKey = key ↔ notify = n
  | .call (.removeListener serviceKey) => serviceKey ≠ key
  | _ => True

instance Attaches.decidable (key : Str) (n : ℕ) (action : Action) : Decidable (Attaches key n action) :=
  match action with
  | .call (.addListenerAndNotify _ _) => inferInstanceAs (Decidable (_ ↔ _))
  | .call (.removeListener _) => inferInstanceAs (Decidable (_ ≠ _))
  | .call (.onEvent _ _) => inferInstanceAs (Decidable True)
  | .call .stopMetadataRetry => inferInstanceAs (Decidable True)
  | .fire _ => inferInstanceAs (Decidable True)
  | .advance _ _ => inferInstanceAs (Decidable True)

/-- A whole list is delivered to the notify listener when nobody has single URLs left to send to it. -/
def InOrder (n : ℕ) (s : System) : Action → Prop
  | .advance i _ => s.threads[i]?.bind Stage.notifies = some n → ∀ stage ∈ s.threads, (stage.adds n).isEmpty = true
  | _ => True

instance InOrder.decidable (n : ℕ) (s : System) (action : Action) : Decidable (InOrder n s action) :=
  match action with
  | .advance _ _ => inferInstanceAs (Decidable (_ = some n → ∀ stage ∈ s.threads, _ = true))
  | .call _ => inferInstanceAs (Decidable True)
  | .fire _ => inferInstanceAs (Decidable True)

variable {registryId key : Str} {n : ℕ} {s : System}

theorem follows
    (h : ReachedBy step (· = idle registryId) (fun s action => Attaches key n action ∧ InOrder n s action) s) :
    ∃ builder, s.shared.Follows key n s.threads builder := by
  refine ReachedBy.invariant (fun s => ∃ builder, s.shared.Follows key n s.threads builder) ?_ ?_ h
  · rintro s rfl
    refine ⟨none, rfl, rfl, ?_, ?_, ?_, ?_, ?_⟩
    · intro urls listeners heq
      cases heq
    · intro stage hstage
      exact absurd hstage (notMem_zero stage)
    · intro k m hm
      cases hm
    · intro _
      exact ⟨rfl, toAdd_eq_empty fun stage hstage => absurd hstage (notMem_zero stage),
        State.not_pending_of_ne fun _ _ heq => nomatch heq⟩
    · intro hmem
      exact absurd hmem notMem_empty
  · rintro s action t ⟨builder, hs⟩ ⟨hattaches, horder⟩ hstep
    cases action with
    | call request =>
      cases hstep
      refine ⟨builder, ?_⟩
      rw [Pool.coe_threads_spawn]
      cases request with
      | addListenerAndNotify serviceKey notify | removeListener serviceKey =>
        exact hs.spawn ⟨rfl, rfl, rfl, rfl⟩ rfl rfl hattaches
      | onEvent serviceName instances | stopMetadataRetry => exact hs.spawn ⟨rfl, rfl, rfl, rfl⟩ rfl rfl trivial
    | fire timer =>
      rw [step] at hstep
      split_ifs at hstep
      cases hstep
      refine ⟨builder, ?_⟩
      rw [Pool.coe_threads_spawn]
      exact hs.spawn ⟨rfl, rfl, rfl, rfl⟩ rfl rfl trivial
    | advance i round =>
      obtain ⟨a, b, others, hi, hadvance, hthreads, hthreads'⟩ := Pool.advance_cases hstep
      rw [hthreads] at hs
      rw [hthreads']
      refine hs.advance ?_ hadvance
      intro hn
      rw [InOrder, hi] at horder
      apply toAdd_eq_empty
      intro stage hstage
      have hmem : stage ∈ (s.threads : Multiset Stage) := by
        rw [hthreads]
        exact Multiset.mem_cons_of_mem hstage
      exact isEmpty_iff.1 (horder hn stage hmem)

/-- When all calls have returned, a notify listener that is attached holds the URLs of its service. -/
theorem held_eq_serviceUrls
    (h : ReachedBy step (· = idle registryId) (fun s action => Attaches key n action ∧ InOrder n s action) s)
    (hreturned : s.AllReturned) (hattached : s.shared.listeners.lookup key = some n) :
    held (s.shared.received n) = {url | url ∈ s.shared.serviceUrls key} := by
  obtain ⟨builder, hs⟩ := follows h
  have hstages : ∀ st ∈ s.threads, st = .returned := by
    intro st hstage
    have hret := hreturned st hstage
    cases st <;> first | rfl | cases hret
  have htoAdd : toAdd n (s.threads : Multiset Stage) = ∅ := by
    apply toAdd_eq_empty
    intro st hstage
    rw [hstages st hstage]
    rfl
  obtain rfl : builder = none := by
    apply holder_eq_none hs.holder
    intro st hstage
    rw [hstages st hstage]
    rfl
  have hpending : ¬State.Pending key n none := State.not_pending_of_ne fun _ _ heq => nomatch heq
  have hcurrent := (hs.current (mem_of_lookup_eq_some hattached)).resolve_left hpending
  rw [htoAdd, Set.union_empty] at hcurrent
  exact hcurrent

def answer (listeners : List (Str × ℕ)) : Round where
  apps := [str "greeter"]
  fetch := fun _ => .ok (some ⟨[greeterInfo]⟩)
  range := fun _ => id
  perm := Round.perm_id
  groups := fun _ => [metadataCacheKey (str "greeter") (str "default") (str "1")]
  listeners := listeners

def firstInstance : List Action :=
  .call (.onEvent (str "greeter") [instanceAt (str "10.0.0.1")]) :: List.replicate 5 (.advance 0 (answer []))

def secondInstance : List Action :=
  .call (.onEvent (str "greeter") [instanceAt (str "10.0.0.2")]) ::
    List.replicate 6 (.advance 2 (answer [(greeterKey, 0)]))

/-- A notify listener attaches and is sent the first instance, before the second comes. -/
def promptAdd : List Action :=
  List.flatten [
    firstInstance,
    .call (.addListenerAndNotify greeterKey 0) :: List.replicate 3 (.advance 1 (answer [])),
    secondInstance]

theorem promptAdd_held : ∃ s,
    ReachedBy step (· = idle (str "default"))
        (fun s action => Attaches greeterKey 0 action ∧ InOrder 0 s action) s ∧
      s.AllReturned ∧ s.shared.listeners.lookup greeterKey = some 0 ∧
      (s.shared.serviceUrls greeterKey).map (·.ip) = [str "10.0.0.2"] ∧
      held (s.shared.received 0) = {url | url ∈ s.shared.serviceUrls greeterKey} := by
  obtain ⟨s, hreached, hreturned, hattached, hurls⟩ := ReachedBy.of_run step
    (fun s action => Attaches greeterKey 0 action ∧ InOrder 0 s action) (idle (str "default")) promptAdd
    (fun s => s.AllReturned ∧ s.shared.listeners.lookup greeterKey = some 0 ∧
      (s.shared.serviceUrls greeterKey).map (·.ip) = [str "10.0.0.2"])
    (by decide +kernel)
  exact ⟨s, hreached, hreturned, hattached, hurls, held_eq_serviceUrls hreached hreturned hattached⟩

/-- It is sent the first instance only after the refresh for the second has notified it. -/
def staleAdd : List Action :=
  List.flatten [
    firstInstance,
    [.call (.addListenerAndNotify greeterKey 0), .advance 1 (answer [])],
    secondInstance,
    List.replicate 2 (.advance 1 (answer []))]

/-- Then it holds an instance that is gone. -/
theorem staleAdd_stays : ∃ s,
    ReachedBy step (· = idle (str "default")) (fun _ action => Attaches greeterKey 0 action) s ∧
      s.AllReturned ∧ s.shared.listeners.lookup greeterKey = some 0 ∧
      held (s.shared.received 0) ≠ {url | url ∈ s.shared.serviceUrls greeterKey} := by
  obtain ⟨s, hreached, hreturned, hattached, hurls, hlast⟩ := ReachedBy.of_run step
    (fun _ action => Attaches greeterKey 0 action) (idle (str "default")) staleAdd
    (fun s => s.AllReturned ∧ s.shared.listeners.lookup greeterKey = some 0 ∧
      (∀ url ∈ s.shared.serviceUrls greeterKey, url.ip = str "10.0.0.2") ∧
      ((s.shared.received 0).getLast?.bind Delivery.added?).map (·.ip) = some (str "10.0.0.1"))
    (by decide +kernel)
  refine ⟨s, hreached, hreturned, hattached, ?_⟩
  intro heq
  obtain ⟨url, hadded, hip⟩ := Option.map_eq_some_iff.1 hlast
  obtain ⟨dlv, hlast, hadd⟩ := Option.bind_eq_some_iff.1 hadded
  cases dlv with
  | all urls => cases hadd
  | add sent =>
    cases hadd
    have hmem : url ∈ held (s.shared.received 0) := mem_held_of_getLast? hlast
    rw [heq] at hmem
    exact absurd (hip.symm.trans (hurls url hmem)) (by decide)

end System

end DubboGo.Registry.InstancesListener
