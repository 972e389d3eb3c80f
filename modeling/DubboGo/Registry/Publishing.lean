import DubboGo.Lib.Publication
import DubboGo.Registry.Threads

/-!
# The lists that a directory publishes

`setNewInvokers` groups the invokers of the cache and publishes the list in a later step, under `invokersLock`.  Each
call does so after its last write, but its list may be published after that of another which has seen more.
-/

namespace DubboGo.Registry.Directory

open Go Common Lib Publication

def Stage.worker : Stage → Option (Worker (Multiset Member × Multiset Member))
  | .returned | .closing _ | .destroying _ => none
  | .publishing newInvokers version _ => some (.holding version (newInvokers, newInvokers))
  | _ => some .writing

def Stage.madeAt : Stage → Option ℕ
  | .publishing _ version _ => some version
  | _ => none

/-- What is published for a cache: the list of the directory and that of the router chain. -/
def groupings (d : Setup) (m : FiniteMap Str Invoker) : Multiset Member × Multiset Member :=
  (toGroupInvokers d m, toGroupInvokers d m)

namespace System

def board (s : System) : Board (FiniteMap Str Invoker) (Multiset Member × Multiset Member) where
  content := s.directory.cacheInvokersMap
  version := s.version
  published := (s.directory.cacheInvokers, s.directory.chainInvokers)
  publishedVersion := s.publishedVersion
  workers := s.threads.filterMap Stage.worker

/-- If the step publishes a list, no list that was made later has been published. -/
def InOrder (s : System) : Action → Prop
  | .advance i => ∀ version ∈ s.threads[i]?.bind Stage.madeAt, s.publishedVersion ≤ version
  | _ => True

instance InOrder.decidable (s : System) : ∀ action, Decidable (InOrder s action)
  | .advance i =>
    inferInstanceAs (Decidable (∀ version ∈ s.threads[i]?.bind Stage.madeAt, s.publishedVersion ≤ version))
  | .call _ | .tick _ | .sweep _ _ | .scan _ _ => inferInstanceAs (Decidable True)

variable {d : Setup} {s u : System} {i : ℕ} {st st' : Stage} {directory : Directory} {oldInvokers : Multiset Invoker}

theorem board_goto (hthread : s.threads[i]? = some st) (hworker : st'.worker = st.worker) :
    (s.goto i st').board = s.board := by
  obtain ⟨others, hworkers, hset⟩ := exists_others Stage.worker hthread
  have heq : (s.goto i st').board.workers = s.board.workers := by
    rw [show s.board.workers = _ from hworkers, ← hworker]
    exact hset st'
  exact Board.ext rfl rfl rfl rfl heq

theorem writing_mem (hthread : s.threads[i]? = some st) (hworker : st.worker = some .writing) :
    .writing ∈ s.board.workers := by
  obtain ⟨others, hworkers, -⟩ := exists_others Stage.worker hthread
  rw [show s.board.workers = _ from hworkers, hworker]
  exact Multiset.mem_add.2 (.inl (List.mem_singleton_self _))

def Follows (d : Setup) (s u : System) : Prop :=
  Relation.ReflTransGen (Step (groupings d)) s.board u.board

theorem Follows.goto (hthread : s.threads[i]? = some stage) (hworker : stage'.worker = stage.worker) :
    Follows d s (s.goto i stage') := by
  rw [Follows, board_goto hthread hworker]

theorem Follows.alter (hmap : directory.cacheInvokersMap = s.directory.cacheInvokersMap)
    (hlists : directory.cacheInvokers = s.directory.cacheInvokers ∧
      directory.chainInvokers = s.directory.chainInvokers) (hthread : s.threads[i]? = some st)
    (hworker : st'.worker = st.worker) : Follows d s ((s.alter directory).goto i st') := by
  have hboard : (s.alter directory).board = s.board := by
    dsimp only [board, System.alter]
    rw [hmap, hlists.1, hlists.2]
  rw [Follows, board_goto (s := s.alter directory) hthread hworker, hboard]

theorem Follows.write (hlists : directory.cacheInvokers = s.directory.cacheInvokers ∧
      directory.chainInvokers = s.directory.chainInvokers) (hthread : s.threads[i]? = some st)
    (hworker : st.worker = some .writing) (hworker' : st'.worker = some .writing) :
    Follows d s ((s.write directory).goto i st') := by
  have hboard : (s.write directory).board =
      { s.board with content := directory.cacheInvokersMap, version := s.board.version + 1 } := by
    dsimp only [board, System.write]
    rw [hlists.1, hlists.2]
  rw [Follows, board_goto (s := s.write directory) hthread (hworker'.trans hworker.symm), hboard]
  exact .single (.write _ (writing_mem hthread hworker))

theorem lists_doCacheInvoker (d : Setup) (now : ℕ) (e : UpdatedEvent) (s : Directory) :
    (doCacheInvoker d now e s).2.cacheInvokers = s.cacheInvokers ∧
      (doCacheInvoker d now e s).2.chainInvokers = s.chainInvokers := by
  by_cases h : Caches d now e s
  · obtain ⟨tombs, -, heq⟩ := doCacheInvoker_of_caches h
    rw [heq]
    exact ⟨rfl, rfl⟩
  · obtain ⟨tombs, refers, -, heq⟩ := doCacheInvoker_of_not_caches h
    rw [heq]
    exact ⟨rfl, rfl⟩

theorem lists_cacheAll (d : Setup) (clock : ℕ → ℕ) (es : List UpdatedEvent) (s : Directory) :
    (cacheAll d clock es s).2.cacheInvokers = s.cacheInvokers ∧
      (cacheAll d clock es s).2.chainInvokers = s.chainInvokers := by
  induction es generalizing clock s with
  | nil => exact ⟨rfl, rfl⟩
  | cons e es ih =>
    obtain ⟨hcache, hchain⟩ := lists_doCacheInvoker d (clock 0) e s
    obtain ⟨hcache', hchain'⟩ := ih (fun i => clock (i + 1)) (doCacheInvoker d (clock 0) e s).2
    exact ⟨hcache'.trans hcache, hchain'.trans hchain⟩

theorem worker_afterTombstone (now : ℕ) (e : UpdatedEvent) (tomb : ClosingTombstone) :
    (afterTombstone now e tomb).worker = some .writing := by
  unfold afterTombstone
  dsimp only
  split_ifs <;> rfl

theorem worker_afterLoad (d : Setup) (e : UpdatedEvent) (old : Option Invoker) :
    (afterLoad d e old).worker = some .writing := by
  cases old with
  | none => rfl
  | some i =>
    rw [afterLoad]
    split_ifs <;> rfl

theorem Follows.remove {key : Str} (removed : Invoker) (hthread : s.threads[i]? = some (.closing key)) :
    Follows d s (((s.mark d key (some removed)).deleteInvoker key).goto i (.grouping {removed})) := by
  obtain ⟨others, hworkers, hset⟩ := exists_others Stage.worker hthread
  have hadded : (((s.mark d key (some removed)).deleteInvoker key).goto i
      (.grouping {removed})).board.workers = .writing ::ₘ s.board.workers := by
    have hothers : s.board.workers = others := hworkers.trans (zero_add _)
    rw [hothers]
    exact hset (.grouping {removed})
  have hboard : (((s.mark d key (some removed)).deleteInvoker key).goto i (.grouping {removed})).board =
      { s.board with
        content := s.board.content.erase key
        version := s.board.version + 1
        workers := .writing ::ₘ s.board.workers } :=
    Board.ext rfl rfl rfl rfl hadded
  have hwriting : Worker.writing ∈ Worker.writing ::ₘ s.board.workers := Multiset.mem_cons_self _ _
  rw [Follows, hboard]
  exact (Relation.ReflTransGen.single .join).tail (.write _ hwriting)

theorem Follows.group (hthread : s.threads[i]? = some (.grouping oldInvokers)) : Follows d s (s.goto i
      (.publishing (toGroupInvokers d s.directory.cacheInvokersMap) s.version oldInvokers)) := by
  obtain ⟨others, hworkers, hset⟩ := exists_others Stage.worker hthread
  have hboard : (s.goto i
      (.publishing (toGroupInvokers d s.directory.cacheInvokersMap) s.version oldInvokers)).board =
      { s.board with
        workers := .holding s.board.version (groupings d s.board.content) ::ₘ others } :=
    Board.ext rfl rfl rfl rfl (hset _)
  rw [Follows, hboard]
  exact .single (.compute others hworkers)

theorem Follows.publish {new : Multiset Member} {ver : ℕ}
    (hthread : s.threads[i]? = some (.publishing new ver oldInvokers)) (hnewer : s.publishedVersion ≤ ver) :
    Follows d s ((s.publish new ver).goto i (.destroying oldInvokers)) := by
  obtain ⟨others, hworkers, hset⟩ := exists_others Stage.worker hthread
  have hboard : ((s.publish new ver).goto i (.destroying oldInvokers)).board =
      { s.board with
        published := (new, new)
        publishedVersion := ver
        workers := others } :=
    Board.ext rfl rfl rfl rfl ((hset (.destroying oldInvokers)).trans (zero_add _))
  rw [Follows, hboard]
  exact .single (.publish ver _ others hworkers hnewer)

/-- A step of a goroutine that publishes in order is a run of the abstract board. -/
theorem Follows.advance (hthread : s.threads[i]? = some st) (hcondition : ∀ ver ∈ st.madeAt, s.publishedVersion ≤ ver)
    (hadvance : s.advance d i st = some u) : Follows d s u := by
  cases st with
  | returned | scanning => cases hadvance
  | cleaning e | sweeping e time =>
    cases hadvance
    exact Follows.goto hthread rfl
  | expired e time key | clearing e | destroying oldInvokers =>
    cases hadvance
    exact Follows.alter rfl ⟨rfl, rfl⟩ hthread rfl
  | checking e =>
    rw [System.advance] at hadvance
    split_ifs at hadvance
    · cases hadvance
      exact Follows.goto hthread rfl
    · split at hadvance <;> cases hadvance <;> exact Follows.goto hthread rfl
  | found e tomb =>
    cases hadvance
    exact Follows.goto hthread (worker_afterTombstone s.now e tomb)
  | loading e =>
    cases hadvance
    exact Follows.goto hthread (worker_afterLoad d e _)
  | referring e old =>
    rw [System.advance, refer] at hadvance
    split at hadvance <;> cases hadvance <;> rename_i heq <;> obtain ⟨-, rfl⟩ := Prod.mk.inj heq
    all_goals exact Follows.alter rfl ⟨rfl, rfl⟩ hthread rfl
  | storing e old new =>
    cases hadvance
    exact Follows.write ⟨rfl, rfl⟩ hthread rfl rfl
  | forgetting ev =>
    have hsame : (clearClosingTombstone ev.key s.directory).cacheInvokersMap =
        s.directory.cacheInvokersMap ∧
        (clearClosingTombstone ev.key s.directory).cacheInvokers = s.directory.cacheInvokers ∧
        (clearClosingTombstone ev.key s.directory).chainInvokers = s.directory.chainInvokers := by
      unfold clearClosingTombstone
      split_ifs <;> exact ⟨rfl, rfl, rfl⟩
    rw [System.advance] at hadvance
    split_ifs at hadvance <;> cases hadvance <;> exact Follows.alter hsame.1 hsame.2 hthread rfl
  | uncaching clu key =>
    cases clu <;> rw [System.advance] at hadvance <;> split at hadvance <;> cases hadvance <;>
      exact Follows.goto hthread rfl
  | deleting clu key ivk =>
    cases clu <;> cases hadvance <;> exact Follows.write ⟨rfl, rfl⟩ hthread rfl rfl
  | replacing es =>
    cases hadvance
    exact Follows.write (lists_cacheAll d (fun _ => s.now) es _) hthread rfl rfl
  | closing key =>
    rw [System.advance] at hadvance
    split at hadvance <;> cases hadvance
    · exact Follows.goto (s := s.mark d key none) hthread rfl
    · exact Follows.remove _ hthread
  | grouping oldInvokers =>
    cases hadvance
    exact Follows.group hthread
  | publishing newInvokers ver oldInvokers =>
    cases hadvance
    exact Follows.publish hthread (hcondition ver rfl)

theorem worker_start (d : Setup) (s : Directory) (req : Request) :
    (start d s req).1.worker = none ∨ (start d s req).1.worker = some .writing := by
  cases req with
  | notify ev =>
    rw [start]
    split_ifs
    · exact .inr rfl
    · split <;> exact .inr rfl
  | notifyAll evs =>
    rw [start]
    split
    · exact .inl rfl
    · exact .inr rfl
  | removeClosingInstance ikey =>
    rw [start]
    split_ifs <;> exact .inl rfl

theorem Follows.call (d : Setup) (s : System) (req : Request) :
    Follows d s { s with
      directory := (start d s.directory req).2
      threads := s.threads ++ [(start d s.directory req).1] } := by
  have hremembers := start_remembers d s.directory req
  have hworker := worker_start d s.directory req
  revert hremembers hworker
  generalize start d s.directory req = started
  obtain ⟨st, directory⟩ := started
  rintro ⟨rules, evs, orig, rfl⟩ (hnone | hwriting)
  · have hadded : ((s.threads ++ [st]).filterMap Stage.worker : Multiset _) = s.board.workers := by
      have hsingle : [st].filterMap Stage.worker = [] := by simp [hnone]
      rw [List.filterMap_append, hsingle, List.append_nil]
      rfl
    have hboard : System.board { s with
        directory := { s.directory with
          configurators := rules, cachedProviderEvents := evs, cacheOriginUrl := orig }
        threads := s.threads ++ [st] } = s.board :=
      Board.ext rfl rfl rfl rfl hadded
    rw [Follows, hboard]
  · have hadded : ((s.threads ++ [st]).filterMap Stage.worker : Multiset _) =
        .writing ::ₘ s.board.workers := by
      have hsingle : [st].filterMap Stage.worker = [.writing] := by simp [hwriting]
      rw [List.filterMap_append, hsingle, ← Multiset.coe_add, add_comm]
      rfl
    have hboard : System.board { s with
        directory := { s.directory with
          configurators := rules, cachedProviderEvents := evs, cacheOriginUrl := orig }
        threads := s.threads ++ [st] } =
        { s.board with workers := .writing ::ₘ s.board.workers } :=
      Board.ext rfl rfl rfl rfl hadded
    rw [Follows, hboard]
    exact .single .join

theorem Follows.step {act : Action} (hcondition : InOrder s act) (hstep : s.step d act = some u) : Follows d s u := by
  obtain ⟨now, rfl, -, rfl⟩ | ⟨req, rfl, rfl⟩ | ⟨i, key, e, time, tomb, rfl, hthread, -, -, rfl⟩ |
    ⟨i, keys, ev, rfl, hthread, -, rfl⟩ | ⟨i, st, rfl, hthread, hadvance⟩ := step_cases hstep
  · exact .refl
  · exact Follows.call d s req
  · exact Follows.goto hthread rfl
  · exact Follows.goto hthread rfl
  · refine Follows.advance hthread ?_ hadvance
    intro ver hversion
    apply hcondition
    rw [hthread]
    exact hversion

def IsPublished (d : Setup) (s : System) : Prop :=
  ∃ directory, s = idle directory ∧
    (directory.cacheInvokers, directory.chainInvokers) = groupings d directory.cacheInvokersMap

theorem IsPublished.upToDate (h : IsPublished d s) : UpToDate (groupings d) s.board := by
  obtain ⟨directory, rfl, hlists⟩ := h
  exact ⟨fun ver value hmem => absurd hmem (Multiset.notMem_zero _), ⟨le_rfl, fun _ => hlists⟩, .inl rfl⟩

theorem workers_of_allReturned (h : s.AllReturned) : s.board.workers = 0 := by
  have hnil : s.threads.filterMap Stage.worker = [] := by
    rw [List.filterMap_eq_nil_iff]
    intro st hmem
    have hstage := h st hmem
    cases st with
    | returned => rfl
    | _ => cases hstage
  dsimp only [board]
  rw [hnil]
  rfl

/-- Once all calls have returned, the lists are those of the cache, in every run in which no list is
published after one that was made later. -/
theorem published_after_return (h : ReachedBy d (IsPublished d) InOrder s) (hreturned : s.AllReturned) :
    s.directory.cacheInvokers = toGroupInvokers d s.directory.cacheInvokersMap ∧
      s.directory.chainInvokers = toGroupInvokers d s.directory.cacheInvokersMap := by
  have hupToDate : UpToDate (groupings d) s.board := by
    clear hreturned
    induction h with
    | init h => exact h.upToDate
    | step _ hstep ih =>
      obtain ⟨act, hcondition, hstep⟩ := hstep
      exact ih.steps (Follows.step hcondition hstep)
  exact Prod.mk.inj (hupToDate.published_eq (workers_of_allReturned hreturned))

theorem isPublished_new : IsPublished anyVersion (idle new) := ⟨new, rfl, rfl⟩

def otherGreeter : ServiceURL :=
  .ofProvider (str "10.0.0.2") (str "20880") (Params.empty.set interfaceKey (str "demo.Greeter"))

/-- Two notifications whose writes come first, with a removal before the second list. -/
def writesFirst : List Action :=
  List.flatten [begin (.notify (.ofAdd greeter)) 0 6, begin (.notify (.ofAdd otherGreeter)) 1 6, goOn 0 3,
    begin (.removeClosingInstance greeter.cacheKey) 2 4, goOn 1 3]

theorem published_after_removal : ∃ s, runWhile anyVersion InOrder writesFirst (idle new) = some s ∧ s.AllReturned ∧
      s.directory.cacheInvokers = toGroupInvokers anyVersion s.directory.cacheInvokersMap ∧
      s.directory.chainInvokers = toGroupInvokers anyVersion s.directory.cacheInvokersMap := by
  have hrun : (runWhile anyVersion InOrder writesFirst (idle new)).any (fun s => decide s.AllReturned) = true := by
    decide +kernel
  obtain ⟨s, hs, hreturned⟩ := (Option.any_eq_true _ _).1 hrun
  have hreached := reachedBy_of_runWhile (.init isPublished_new) hs
  exact ⟨s, hs, of_decide_eq_true hreturned, published_after_return hreached (of_decide_eq_true hreturned)⟩

/-- The first notification publishes the list that it has made before the second one had begun. -/
def lateList : List Action :=
  List.flatten [begin (.notify (.ofAdd greeter)) 0 7, begin (.notify (.ofAdd otherGreeter)) 1 9, goOn 0 2]

theorem late_list_misses_provider :
    ∃ s, runWhile anyVersion (fun _ _ => True) lateList (idle new) = some s ∧ s.AllReturned ∧
      s.directory.cacheInvokers ≠ toGroupInvokers anyVersion s.directory.cacheInvokersMap ∧
      s.directory.chainInvokers ≠ toGroupInvokers anyVersion s.directory.cacheInvokersMap := by
  have hrun : (runWhile anyVersion (fun _ _ => True) lateList (idle new)).any (fun s =>
      decide (s.AllReturned ∧ s.directory.cacheInvokers.card = 1 ∧ s.directory.chainInvokers.card = 1 ∧
        (toGroupInvokers anyVersion s.directory.cacheInvokersMap).card = 2)) = true := by
    decide +kernel
  obtain ⟨s, hs, hfinal⟩ := (Option.any_eq_true _ _).1 hrun
  obtain ⟨hreturned, hcache, hchain, hgrouped⟩ := of_decide_eq_true hfinal
  refine ⟨s, hs, hreturned, ?_, ?_⟩
  · intro heq
    rw [heq] at hcache
    omega
  · intro heq
    rw [heq] at hchain
    omega

end System

end DubboGo.Registry.Directory
