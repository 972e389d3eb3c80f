import DubboGo.Common.URL
import DubboGo.Protocol.Invocation

/-!
# The base of the cluster invokers

`BaseClusterInvoker` of `cluster/cluster/base/cluster_invoker.go`: how `DoSelect` picks an invoker of the directory,
with the one that sticky calls come back to and up to three new selections when the balancer's is unavailable or was
tried before.
-/

namespace DubboGo.Cluster.Base

open Go Common Protocol List Finset

def stickyKey : Str := str "sticky"
def loadbalanceKey : Str := str "loadbalance"
def defaultLoadBalance : Str := str "random"
def version : Str := str "3.3.2"

/-- `LoadBalance`.  Whatever an answer depends on besides the arguments, such as counters and chance,
is the state `σ`. -/
structure LoadBalance (ι σ : Type) where
  select : List ι → RPCInvocation → σ → ι × σ
  select_mem : ∀ invokers invocation s, invokers ≠ [] → (select invokers invocation s).1 ∈ invokers

/-- `BaseClusterInvoker`, with the fields that `DoSelect` uses. -/
structure BaseClusterInvoker (ι : Type) where
  availableCheck : Bool
  stickyInvoker : Option ι

def newBaseClusterInvoker (ι : Type) : BaseClusterInvoker ι := ⟨true, none⟩

/-- `GetLoadBalance`, from the balancers that are registered. -/
def getLoadBalance {ι σ : Type} (loadbalances : Str → LoadBalance ι σ) (url : URL)
    (methodName : Str) : LoadBalance ι σ :=
  let lb := url.getParam loadbalanceKey defaultLoadBalance
  let v := url.getMethodParam methodName loadbalanceKey []
  loadbalances (if 0 < v.length then v else lb)

/-- What the errors of a cluster invoker name: of the URL of its directory the key of the sub-URL, the
service and the text, and the local address. -/
structure Names where
  subURLKey : Str
  service : Str
  registry : Str
  ip : Str

/-- `CheckInvokers`: the text of its error. -/
def checkInvokers {ι : Type} (names : Names) (invocation : RPCInvocation) (invokers : List ι) : Option Str :=
  if invokers.length = 0 then
    some (str "failed to invoke the method " ++ invocation.methodName ++
      str ". No provider available for the service " ++ names.subURLKey ++ str " from registry " ++
      names.registry ++ str " on the consumer " ++ names.ip ++ str " using the dubbo version " ++
      version ++ str " .Please check if the providers have been started and registered")
  else none

/-- `CheckWhetherDestroyed`: the text of its error. -/
def checkWhetherDestroyed (names : Names) (destroyed : Bool) : Option Str :=
  if destroyed then
    some (str "rpc cluster invoker for " ++ names.service ++ str " on consumer " ++ names.ip ++
      str " use dubbo version " ++ version ++ str " is now destroyed! can not invoke any more")
  else none

variable {names : Names}

theorem checkInvokers_eq_none {invocation : RPCInvocation} {invokers : List ι} :
    checkInvokers names invocation invokers = none ↔ invokers ≠ [] := by
  unfold checkInvokers
  split_ifs with h
  · simp [length_eq_zero_iff.1 h]
  · simpa [length_eq_zero_iff] using h

theorem checkWhetherDestroyed_eq_none {destroyed : Bool} :
    checkWhetherDestroyed names destroyed = none ↔ destroyed = false := by
  cases destroyed <;> simp [checkWhetherDestroyed]

variable {ι : Type} [DecidableEq ι]

def isInvoked (selectedInvoker : ι) (invoked : List ι) : Bool := decide (selectedInvoker ∈ invoked)

def getOtherInvokers (invokers : List ι) (invoker : ι) : List ι :=
  invokers.filter fun i => decide (i ≠ invoker)

section Select

variable {σ : Type} (isAvailable : ι → Bool) (getURL : ι → URL) (lb : LoadBalance ι σ) (invocation : RPCInvocation)

/-- The loop of `doSelectInvoker`, with the number of selections that are left: the invoker that it
returns, if it does not come to its end. -/
def reselect (invoked : List ι) : ℕ → List ι → σ → Option ι × σ
  | 0, _, s => (none, s)
  | n + 1, otherInvokers, s =>
    if otherInvokers = [] then (none, s)
    else
      let answer := lb.select otherInvokers invocation s
      let reselectedInvoker := answer.1
      if isInvoked reselectedInvoker invoked then
        reselect invoked n (getOtherInvokers otherInvokers reselectedInvoker) answer.2
      else if !isAvailable reselectedInvoker then
        reselect invoked n (getOtherInvokers otherInvokers reselectedInvoker) answer.2
      else (some reselectedInvoker, answer.2)

def doSelectInvoker (invoker : BaseClusterInvoker ι) (invokers invoked : List ι) (s : σ) : Option ι × σ :=
  match invokers with
  | [] => (none, s)
  | [i] => (if isAvailable i then some i else none, s)
  | _ =>
    let answer := lb.select invokers invocation s
    let selectedInvoker := answer.1
    if (!isAvailable selectedInvoker && invoker.availableCheck) ||
        isInvoked selectedInvoker invoked then
      let again := reselect isAvailable lb invocation invoked 3
        (getOtherInvokers invokers selectedInvoker) answer.2
      (some (again.1.getD selectedInvoker), again.2)
    else (some selectedInvoker, answer.2)

def sticky (first : ι) : Bool :=
  (getURL first).getMethodParamBool invocation.methodName stickyKey ((getURL first).getParamBool stickyKey false)

/-- `DoSelect`: the result and the state that the invoker and the balancer are left in. -/
def doSelect (invoker : BaseClusterInvoker ι) (invokers invoked : List ι) (s : σ) :
    Option ι × BaseClusterInvoker ι × σ :=
  match invokers with
  | [] => (none, invoker, s)
  | first :: _ =>
    let sticky := sticky getURL invocation first
    let stickyInvoker := invoker.stickyInvoker.filter fun i => isInvoked i invokers
    let invoker := { invoker with stickyInvoker := stickyInvoker }
    match stickyInvoker.filter fun i =>
        sticky && invoker.availableCheck && isAvailable i && !isInvoked i invoked with
    | some i => (some i, invoker, s)
    | none =>
      let selected := doSelectInvoker isAvailable lb invocation invoker invokers invoked s
      (selected.1, if sticky then { invoker with stickyInvoker := selected.1 } else invoker, selected.2)

end Select

/-! ## Usable candidates -/

section Usable

variable (isAvailable : ι → Bool) (invoked : List ι)

def Usable (i : ι) : Prop := isAvailable i = true ∧ i ∉ invoked

instance : DecidablePred (Usable isAvailable invoked) := fun _ => inferInstanceAs (Decidable (_ ∧ _))

def unusable (invokers : List ι) : Finset ι :=
  invokers.toFinset.filter fun i => ¬ Usable isAvailable invoked i

variable {isAvailable invoked} {i : ι} {invokers others : List ι} {σ : Type} {n : ℕ}

theorem isInvoked_iff : isInvoked i invokers = true ↔ i ∈ invokers := by
  simp [isInvoked]

theorem mem_unusable : i ∈ unusable isAvailable invoked invokers ↔ i ∈ invokers ∧ ¬ Usable isAvailable invoked i := by
  rw [unusable, Finset.mem_filter, List.mem_toFinset]

theorem mem_getOtherInvokers {invoker : ι} : i ∈ getOtherInvokers invokers invoker ↔ i ∈ invokers ∧ i ≠ invoker := by
  simp [getOtherInvokers]

theorem unusable_getOtherInvokers (invokers : List ι) (invoker : ι) :
    unusable isAvailable invoked (getOtherInvokers invokers invoker) =
      (unusable isAvailable invoked invokers).erase invoker := by
  ext i
  rw [mem_unusable, mem_getOtherInvokers, mem_erase, mem_unusable]
  tauto

theorem reselect_succ (lb : LoadBalance ι σ) (invocation : RPCInvocation) (n : ℕ) (h : others ≠ []) (s : σ) :
    reselect isAvailable lb invocation invoked (n + 1) others s =
      if Usable isAvailable invoked (lb.select others invocation s).1 then
        (some (lb.select others invocation s).1, (lb.select others invocation s).2)
      else reselect isAvailable lb invocation invoked n
        (getOtherInvokers others (lb.select others invocation s).1)
        (lb.select others invocation s).2 := by
  rw [reselect, if_neg h]
  by_cases ht : (lb.select others invocation s).1 ∈ invoked
  · rw [if_pos (isInvoked_iff.2 ht), if_neg fun hu : Usable _ _ _ => hu.2 ht]
  · rw [if_neg (mt isInvoked_iff.1 ht)]
    cases ha : isAvailable (lb.select others invocation s).1 with
    | true =>
      have hu : Usable isAvailable invoked (lb.select others invocation s).1 := ⟨ha, ht⟩
      rw [if_pos hu]
      rfl
    | false =>
      have hu : ¬ Usable isAvailable invoked (lb.select others invocation s).1 := by
        intro hu
        rw [hu.1] at ha
        cases ha
      rw [if_neg hu]
      rfl

theorem reselect_mem (lb : LoadBalance ι σ) (invocation : RPCInvocation) {s : σ}
    (h : (reselect isAvailable lb invocation invoked n others s).1 = some i) :
    i ∈ others ∧ Usable isAvailable invoked i := by
  induction n generalizing others s with
  | zero => cases h
  | succ n ih =>
    by_cases hne : others = []
    · rw [reselect, if_pos hne] at h
      cases h
    · rw [reselect_succ lb invocation n hne] at h
      split_ifs at h with hu
      · cases h
        exact ⟨lb.select_mem others invocation s hne, hu⟩
      · obtain ⟨hi, hui⟩ := ih h
        exact ⟨(mem_getOtherInvokers.1 hi).1, hui⟩

theorem reselect_usable (lb : LoadBalance ι σ) (invocation : RPCInvocation) (s : σ)
    (hn : (unusable isAvailable invoked others).card < n) {g : ι} (hg : g ∈ others)
    (hug : Usable isAvailable invoked g) :
    ∃ i, (reselect isAvailable lb invocation invoked n others s).1 = some i := by
  induction n generalizing others s with
  | zero => omega
  | succ n ih =>
    have hne : others ≠ [] := ne_nil_of_mem hg
    rw [reselect_succ lb invocation n hne]
    by_cases hu : Usable isAvailable invoked (lb.select others invocation s).1
    · rw [if_pos hu]
      exact ⟨_, rfl⟩
    · rw [if_neg hu]
      have hmem : (lb.select others invocation s).1 ∈ unusable isAvailable invoked others :=
        mem_unusable.2 ⟨lb.select_mem others invocation s hne, hu⟩
      apply ih
      · rw [unusable_getOtherInvokers, card_erase_of_mem hmem]
        have hpos := card_pos.2 ⟨_, hmem⟩
        omega
      · apply mem_getOtherInvokers.2
        refine ⟨hg, ?_⟩
        rintro rfl
        exact hu hug

def worst (isAvailable : ι → Bool) (invoked : List ι) (default : ι) : LoadBalance ι Unit where
  select invokers _ s :=
    ((invokers.find? fun i => decide (¬ Usable isAvailable invoked i)).getD (invokers.headD default), s)
  select_mem := by
    intro invokers invocation s h
    cases hf : invokers.find? fun i => decide (¬ Usable isAvailable invoked i) with
    | some i => exact List.mem_of_find?_eq_some hf
    | none =>
      cases invokers with
      | nil => exact absurd rfl h
      | cons i rest => exact List.mem_cons_self

theorem worst_select (default : ι) (invocation : RPCInvocation) (s : Unit)
    (h : (unusable isAvailable invoked invokers).Nonempty) :
    ((worst isAvailable invoked default).select invokers invocation s).1 ∈ unusable isAvailable invoked invokers := by
  obtain ⟨i, hi⟩ := h
  rw [mem_unusable] at hi
  dsimp only [worst]
  cases hf : invokers.find? fun i => decide (¬ Usable isAvailable invoked i) with
  | some j =>
    have hj := find?_some hf
    exact mem_unusable.2 ⟨mem_of_find?_eq_some hf, of_decide_eq_true hj⟩
  | none =>
    have hno := find?_eq_none.1 hf i hi.1
    exact absurd (decide_eq_true hi.2) hno

theorem reselect_worst (default : ι) (invocation : RPCInvocation) (s : Unit)
    (hn : n ≤ (unusable isAvailable invoked others).card) :
    (reselect isAvailable (worst isAvailable invoked default) invocation invoked n others s).1 = none := by
  induction n generalizing others s with
  | zero => rfl
  | succ n ih =>
    have hsome : (unusable isAvailable invoked others).Nonempty := card_pos.1 (by omega)
    have hmem := worst_select default invocation s hsome
    have hne : others ≠ [] := ne_nil_of_mem (mem_unusable.1 hmem).1
    rw [reselect_succ _ invocation n hne, if_neg (mem_unusable.1 hmem).2]
    apply ih
    rw [unusable_getOtherInvokers, card_erase_of_mem hmem]
    omega

end Usable

/-! ## The selected invoker -/

section Selected

variable {σ : Type} {isAvailable : ι → Bool} {getURL : ι → URL} {lb : LoadBalance ι σ}
  {invocation : RPCInvocation} {invoker : BaseClusterInvoker ι} {invokers invoked : List ι} {s : σ} {i : ι}

theorem doSelectInvoker_of_two (hc : invoker.availableCheck = true) (i j : ι) (rest : List ι) :
    let ans := lb.select (i :: j :: rest) invocation s
    (doSelectInvoker isAvailable lb invocation invoker (i :: j :: rest) invoked s).1 =
      if Usable isAvailable invoked ans.1 then some ans.1
      else some ((reselect isAvailable lb invocation invoked 3
        (getOtherInvokers (i :: j :: rest) ans.1) ans.2).1.getD ans.1) := by
  intro ans
  dsimp only [doSelectInvoker]
  rw [hc, Bool.and_true]
  by_cases hu : Usable isAvailable invoked ans.1
  · have hno : ¬ ((!isAvailable ans.1 || isInvoked ans.1 invoked) = true) := by
      simp [hu.1, isInvoked, hu.2]
    rw [if_pos hu, if_neg hno]
  · have hyes : (!isAvailable ans.1 || isInvoked ans.1 invoked) = true := by
      by_contra hno
      simp only [Bool.or_eq_true, Bool.not_eq_true', isInvoked_iff, not_or, Bool.not_eq_false] at hno
      exact hu hno
    rw [if_neg hu, if_pos hyes]

theorem doSelectInvoker_mem (hc : invoker.availableCheck = true)
    (h : (doSelectInvoker isAvailable lb invocation invoker invokers invoked s).1 = some i) : i ∈ invokers := by
  match invokers with
  | [] => cases h
  | [j] =>
    dsimp only [doSelectInvoker] at h
    split_ifs at h with ha
    cases h
    exact mem_cons_self
  | j :: k :: rest =>
    have hmem := lb.select_mem (j :: k :: rest) invocation s (cons_ne_nil _ _)
    rw [doSelectInvoker_of_two hc] at h
    split_ifs at h with hu
    · cases h
      exact hmem
    · cases hr : (reselect isAvailable lb invocation invoked 3
          (getOtherInvokers (j :: k :: rest) (lb.select (j :: k :: rest) invocation s).1)
          (lb.select (j :: k :: rest) invocation s).2).1 with
      | none =>
        rw [hr] at h
        cases h
        exact hmem
      | some r =>
        rw [hr] at h
        cases h
        exact (mem_getOtherInvokers.1 (reselect_mem lb invocation hr).1).1

theorem doSelectInvoker_usable (hc : invoker.availableCheck = true)
    (hthree : (unusable isAvailable invoked invokers).card ≤ 3) {g : ι} (hg : g ∈ invokers)
    (hug : Usable isAvailable invoked g) :
    ∃ i, (doSelectInvoker isAvailable lb invocation invoker invokers invoked s).1 = some i ∧
      Usable isAvailable invoked i := by
  match invokers with
  | [] => cases hg
  | [j] =>
    rw [List.mem_singleton] at hg
    subst hg
    exact ⟨g, by rw [doSelectInvoker, if_pos hug.1], hug⟩
  | j :: k :: rest =>
    have hmem := lb.select_mem (j :: k :: rest) invocation s (cons_ne_nil _ _)
    rw [doSelectInvoker_of_two hc]
    by_cases hu : Usable isAvailable invoked (lb.select (j :: k :: rest) invocation s).1
    · rw [if_pos hu]
      exact ⟨_, rfl, hu⟩
    · rw [if_neg hu]
      -- the first selection was one of the unusable candidates, so at most two are left
      have hbad := mem_unusable.2 ⟨hmem, hu⟩
      obtain ⟨r, hr⟩ := reselect_usable lb invocation
        (lb.select (j :: k :: rest) invocation s).2
        (show (unusable isAvailable invoked (getOtherInvokers (j :: k :: rest)
          (lb.select (j :: k :: rest) invocation s).1)).card < 3 by
          rw [unusable_getOtherInvokers, card_erase_of_mem hbad]
          omega)
        (mem_getOtherInvokers.2 ⟨hg, fun h => hu (h ▸ hug)⟩) hug
      rw [hr]
      exact ⟨r, rfl, (reselect_mem lb invocation hr).2⟩

theorem doSelectInvoker_worst (invocation : RPCInvocation) (hc : invoker.availableCheck = true)
    (hfour : 3 < (unusable isAvailable invoked invokers).card) (default : ι) (s : Unit) :
    ∃ i, (doSelectInvoker isAvailable (worst isAvailable invoked default) invocation invoker invokers
      invoked s).1 = some i ∧ ¬ Usable isAvailable invoked i := by
  match invokers with
  | [] => simp [unusable] at hfour
  | [j] =>
    have hle := card_le_card (filter_subset (fun i => ¬ Usable isAvailable invoked i) [j].toFinset)
    have hone := [j].toFinset_card_le
    simp only [length_cons, length_nil] at hone
    rw [unusable] at hfour
    omega
  | j :: k :: rest =>
    have hsome : (unusable isAvailable invoked (j :: k :: rest)).Nonempty :=
      card_pos.1 (by omega)
    have hbad := worst_select default invocation s hsome
    have hu := (mem_unusable.1 hbad).2
    rw [doSelectInvoker_of_two hc, if_neg hu, reselect_worst]
    · exact ⟨_, rfl, hu⟩
    · rw [unusable_getOtherInvokers, card_erase_of_mem hbad]
      omega

structure StickyHit (isAvailable : ι → Bool) (getURL : ι → URL) (invocation : RPCInvocation)
    (invoker : BaseClusterInvoker ι) (invokers invoked : List ι) (i : ι) : Prop where
  isSticky : ∃ first ∈ invokers.head?, sticky getURL invocation first = true
  remembered : invoker.stickyInvoker = some i
  candidate : i ∈ invokers
  usable : Usable isAvailable invoked i

theorem doSelect_of_hit (hc : invoker.availableCheck = true)
    (h : StickyHit isAvailable getURL invocation invoker invokers invoked i) :
    (doSelect isAvailable getURL lb invocation invoker invokers invoked s).1 = some i := by
  obtain ⟨first, hfirst, hsticky⟩ := h.isSticky
  cases invokers with
  | nil => cases hfirst
  | cons j rest =>
    cases hfirst
    have hin : isInvoked i (first :: rest) = true := isInvoked_iff.2 h.candidate
    have hout : isInvoked i invoked = false := by
      rw [← Bool.not_eq_true, isInvoked_iff]
      exact h.usable.2
    simp [doSelect, h.remembered, Option.filter_some, hin, hsticky, hc, h.usable.1, hout]

theorem doSelect_of_not_hit (lb : LoadBalance ι σ) (s : σ) (hc : invoker.availableCheck = true)
    (h : ∀ i, ¬ StickyHit isAvailable getURL invocation invoker invokers invoked i) :
    ∃ ivk', ivk'.availableCheck = true ∧ (doSelect isAvailable getURL lb invocation invoker invokers invoked s).1 =
        (doSelectInvoker isAvailable lb invocation ivk' invokers invoked s).1 := by
  cases invokers with
  | nil => exact ⟨invoker, hc, rfl⟩
  | cons first rest =>
    refine ⟨{ invoker with stickyInvoker :=
      invoker.stickyInvoker.filter fun i => isInvoked i (first :: rest) }, hc, ?_⟩
    dsimp only [doSelect]
    split
    · rename_i i hi
      simp only [Option.filter_eq_some_iff, Bool.and_eq_true, isInvoked_iff, Bool.not_eq_true',
        ← Bool.not_eq_true] at hi
      obtain ⟨⟨hrem, hcand⟩, ⟨⟨hsticky, -⟩, ha⟩, hout⟩ := hi
      refine absurd ⟨⟨first, rfl, hsticky⟩, hrem, hcand, ha, ?_⟩ (h i)
      exact hout
    · rfl

theorem doSelect_usable (hc : invoker.availableCheck = true) (h : (unusable isAvailable invoked invokers).card ≤ 3 ∨
      ∃ i, StickyHit isAvailable getURL invocation invoker invokers invoked i) {g : ι} (hg : g ∈ invokers)
    (hug : Usable isAvailable invoked g) :
    ∃ i, (doSelect isAvailable getURL lb invocation invoker invokers invoked s).1 = some i ∧
      Usable isAvailable invoked i := by
  by_cases hhit : ∃ i, StickyHit isAvailable getURL invocation invoker invokers invoked i
  · obtain ⟨i, hi⟩ := hhit
    exact ⟨i, doSelect_of_hit hc hi, hi.usable⟩
  · have hthree := h.resolve_right hhit
    rw [not_exists] at hhit
    obtain ⟨ivk', hc', heq⟩ := doSelect_of_not_hit lb s hc hhit
    rw [heq]
    exact doSelectInvoker_usable hc' hthree hg hug

theorem doSelect_mem (hc : invoker.availableCheck = true)
    (h : (doSelect isAvailable getURL lb invocation invoker invokers invoked s).1 = some i) : i ∈ invokers := by
  by_cases hhit : ∃ j, StickyHit isAvailable getURL invocation invoker invokers invoked j
  · obtain ⟨j, hj⟩ := hhit
    rw [doSelect_of_hit hc hj] at h
    cases h
    exact hj.candidate
  · rw [not_exists] at hhit
    obtain ⟨ivk', hc', heq⟩ := doSelect_of_not_hit lb s hc hhit
    rw [heq] at h
    exact doSelectInvoker_mem hc' h

theorem doSelect_eq_none_iff (hc : invoker.availableCheck = true) (hne : invokers ≠ []) :
    (doSelect isAvailable getURL lb invocation invoker invokers invoked s).1 = none ↔
      ∃ i, invokers = [i] ∧ isAvailable i = false := by
  by_cases hhit : ∃ j, StickyHit isAvailable getURL invocation invoker invokers invoked j
  · obtain ⟨j, hj⟩ := hhit
    rw [doSelect_of_hit hc hj]
    constructor
    · intro h
      cases h
    · rintro ⟨i, rfl, hi⟩
      have hcand := hj.candidate
      rw [List.mem_singleton] at hcand
      rw [← hcand, hj.usable.1] at hi
      cases hi
  · rw [not_exists] at hhit
    obtain ⟨ivk', hc', heq⟩ := doSelect_of_not_hit lb s hc hhit
    rw [heq]
    match invokers with
    | [] => exact absurd rfl hne
    | [i] => simp [doSelectInvoker]
    | i :: j :: rest =>
      rw [doSelectInvoker_of_two hc']
      split_ifs <;> simp

theorem doSelect_availableCheck (isAvailable : ι → Bool) (getURL : ι → URL) (lb : LoadBalance ι σ)
    (invocation : RPCInvocation) (invoker : BaseClusterInvoker ι) (invokers invoked : List ι) (s : σ) :
    (doSelect isAvailable getURL lb invocation invoker invokers invoked s).2.1.availableCheck =
      invoker.availableCheck := by
  cases invokers with
  | nil => rfl
  | cons first rest =>
    dsimp only [doSelect]
    split
    · rfl
    · split_ifs <;> rfl

end Selected

/-- The result of `DoSelect` is a candidate, and, where one is usable, a usable one under every balancer just if at
most three candidates are not, or the call comes back to the remembered invoker. -/
theorem doSelect_avoids_unusable (isAvailable : ι → Bool) (getURL : ι → URL)
    (invocation : RPCInvocation) (remembered : Option ι) (invokers invoked : List ι) :
    let invoker := { newBaseClusterInvoker ι with stickyInvoker := remembered }
    (∀ (σ : Type) (lb : LoadBalance ι σ) (s : σ) (i : ι),
      (doSelect isAvailable getURL lb invocation invoker invokers invoked s).1 = some i → i ∈ invokers) ∧
    ((∃ i ∈ invokers, Usable isAvailable invoked i) →
      ((∀ (σ : Type) (lb : LoadBalance ι σ) (s : σ), ∃ i,
        (doSelect isAvailable getURL lb invocation invoker invokers invoked s).1 = some i ∧
          Usable isAvailable invoked i) ↔
        (unusable isAvailable invoked invokers).card ≤ 3 ∨
          ∃ i, StickyHit isAvailable getURL invocation invoker invokers invoked i)) := by
  intro invoker
  have hc : invoker.availableCheck = true := rfl
  refine ⟨fun σ lb s i => doSelect_mem hc, ?_⟩
  rintro ⟨g, hg, hug⟩
  constructor
  · intro h
    by_contra hno
    rw [not_or, not_le, not_exists] at hno
    obtain ⟨hfour, hhit⟩ := hno
    obtain ⟨i, hi, hui⟩ := h Unit (worst isAvailable invoked g) ()
    obtain ⟨ivk', hc', heq⟩ :=
      doSelect_of_not_hit (worst isAvailable invoked g) () hc hhit
    obtain ⟨j, hj, huj⟩ := doSelectInvoker_worst invocation hc' hfour g ()
    rw [heq, hj] at hi
    cases hi
    exact huj hui
  · intro h σ lb s
    exact doSelect_usable hc h hg hug

def provider (n : ℕ) : URL := URL.ofProvider (str "10.0.0." ++ decimal n) (str "20880")

def sayHello : RPCInvocation := .new (str "SayHello") [] fun _ => none

/-- Three unavailable providers are passed over, whatever the balancer answers. -/
theorem doSelect_passes_three : ∀ (σ : Type) (lb : LoadBalance ℕ σ) (s : σ), ∃ i,
      (doSelect (fun n => decide (n = 3)) provider lb sayHello (newBaseClusterInvoker ℕ) [0, 1, 2, 3] []
        s).1 = some i ∧ Usable (fun n => decide (n = 3)) [] i :=
  ((doSelect_avoids_unusable (fun n => decide (n = 3)) provider sayHello none [0, 1, 2, 3] []).2
    ⟨3, by decide, by decide⟩).2 (.inl (by decide))

def firstOf : LoadBalance ℕ Unit where
  select invokers _ s := (invokers.headD 0, s)
  select_mem := by
    intro invokers invocation s h
    cases invokers with
    | nil => exact absurd rfl h
    | cons i rest => exact List.mem_cons_self

/-- Four unavailable providers in front of an available one: an unavailable one is selected. -/
theorem doSelect_stops_at_four : 4 ∈ [0, 1, 2, 3, 4] ∧ Usable (fun n => decide (n = 4)) [] 4 ∧
      (doSelect (fun n => decide (n = 4)) provider firstOf sayHello (newBaseClusterInvoker ℕ)
        [0, 1, 2, 3, 4] [] ()).1 = some 0 ∧ ¬ Usable (fun n => decide (n = 4)) [] 0 := by
  decide

end DubboGo.Cluster.Base
