import DubboGo.Cluster.Selector

/-!
# Consistent hashing

`conshashLoadBalance.Select` of `cluster/loadbalance/consistenthashing/loadbalance.go`, for calls
that run one after another.  A selector is kept for each service and method, and it is built anew
when a checksum of the marshalled invokers has changed.
-/

namespace DubboGo.Cluster.ConsistentHash

open Go Common List Function

/-- What the balancer uses of other packages, for invokers `ι` and arguments `α` that are not
strings; `none` is an error of `json.Marshal`. -/
structure Balancer (ι α : Type) where
  md5 : Str → Digest
  checksumIEEE : Str → UInt32
  sprint : α → Str
  getURL : ι → URL
  marshal : ι → Option Str

/-- The arguments of `Select`. -/
structure Call (ι α : Type) where
  invokers : List ι
  methodName : Str
  arguments : List (Str ⊕ α)

/-- `selectors`; an entry can be a nil pointer. -/
abbrev Selectors (ι : Type) := Str → Option (Option (Selector ι))

namespace Balancer

variable {ι α : Type} (b : Balancer ι α)

def key (first : ι) (methodName : Str) : Str :=
  (b.getURL first).serviceKey ++ str "." ++ methodName

def hashCode (invokers : List ι) : Option UInt32 :=
  (invokers.mapM b.marshal).map fun texts => b.checksumIEEE texts.flatten

/-- `selector.Select` on a pointer that may be nil. -/
def selectWith (selector : Option (Selector ι)) (arguments : List (Str ⊕ α)) : Except RuntimeError (Option ι) :=
  match selector with
  | some selector => selector.select b.md5 b.sprint arguments
  | none => .error .nilPointer

def select (selectors : Selectors ι) (call : Call ι α) : Except RuntimeError (Option ι) × Selectors ι :=
  match call.invokers with
  | [] => (.error .indexOutOfRange, selectors)
  | first :: _ =>
    let key := b.key first call.methodName
    match b.hashCode call.invokers with
    | none => (.ok none, selectors)
    | some hashCode =>
      let renewed := newSelector b.md5 b.getURL (b.getURL first) call.invokers call.methodName hashCode
      let renew := (b.selectWith renewed call.arguments, Function.update selectors key (some renewed))
      match selectors key with
      | some (some selector) =>
        if selector.hashCode ≠ hashCode then renew
        else (b.selectWith (some selector) call.arguments, selectors)
      | some none => (.error .nilPointer, selectors)
      | none => renew

/-- The selectors before call `n`; there are none at first. -/
def stateAt (calls : ℕ → Call ι α) : ℕ → Selectors ι
  | 0 => fun _ => none
  | n + 1 => (b.select (stateAt calls n) (calls n)).2

/-- What call `n` returns. -/
def returned (calls : ℕ → Call ι α) (n : ℕ) : Except RuntimeError (Option ι) :=
  (b.select (b.stateAt calls n) (calls n)).1

structure Admissible (call : Call ι α) (key : Str) (hashCode : UInt32) : Prop where
  first : ∃ first rest, call.invokers = first :: rest ∧ key = b.key first call.methodName ∧
    ValidSettings (b.getURL first) call.methodName
  checksum : b.hashCode call.invokers = some hashCode

variable {b} {call : Call ι α} {hashCode : UInt32} {selectors : Selectors ι}

/-! ## One call -/

theorem select_cases {key : Str} (hcall : b.Admissible call key hashCode) (hnil : selectors key ≠ some none) :
    (∃ s, selectors key = some (some s) ∧ s.hashCode = hashCode ∧
      b.select selectors call = (b.selectWith (some s) call.arguments, selectors)) ∨
    ∃ s, (∀ s', selectors key = some (some s') → s'.hashCode ≠ hashCode) ∧
      s.hashCode = hashCode ∧ s.Ring call.invokers ∧ b.select selectors call = (b.selectWith (some s) call.arguments,
        update selectors key (some (some s))) := by
  obtain ⟨ivks, meth, args⟩ := call
  obtain ⟨⟨first, rest, rfl, rfl, hvalid⟩, hchecksum⟩ := hcall
  obtain ⟨s, hs, hcode, hring⟩ :=
    newSelector_ring b.md5 b.getURL hvalid (cons_ne_nil first rest) hashCode
  unfold select
  rw [hchecksum]
  dsimp only
  rw [hs]
  rcases hfound : selectors (b.key first meth) with - | - | found
  · exact .inr ⟨s, nofun, hcode, hring, rfl⟩
  · exact absurd hfound hnil
  · by_cases heq : found.hashCode = hashCode
    · exact .inl ⟨found, rfl, heq, if_neg (not_not.2 heq)⟩
    · refine .inr ⟨s, ?_, hcode, hring, if_pos heq⟩
      rintro _ ⟨⟩
      exact heq

theorem selectWith_ring {s : Selector ι} {ivks : List ι} (h : s.Ring ivks) (args : List (Str ⊕ α)) :
    ∃ x ∈ ivks, b.selectWith (some s) args = .ok (some x) :=
  h.selectForKey _

/-! ## Calls one after another -/

section Calls

variable {calls : ℕ → Call ι α} {keys : ℕ → Str} {codes : ℕ → UInt32} {selectors : Selectors ι}

/-- Before call `n`, each selector is a ring for the invokers of an earlier call, and has their
checksum. -/
def Remembered (calls : ℕ → Call ι α) (keys : ℕ → Str) (codes : ℕ → UInt32) (n : ℕ)
    (selectors : Selectors ι) : Prop :=
  ∀ key entry, selectors key = some entry →
    ∃ s k, entry = some s ∧ k < n ∧ keys k = key ∧ s.hashCode = codes k ∧ s.Ring (calls k).invokers

theorem Remembered.ne_nil {n : ℕ} (h : Remembered calls keys codes n selectors) (key : Str) :
    selectors key ≠ some none := by
  intro hnone
  obtain ⟨s, k, hs, -⟩ := h key none hnone
  cases hs

theorem Remembered.select {n : ℕ} (h : Remembered calls keys codes n selectors)
    (hcall : b.Admissible (calls n) (keys n) (codes n)) : (∃ k ≤ n, keys k = keys n ∧ codes k = codes n ∧
      ∃ x ∈ (calls k).invokers, (b.select selectors (calls n)).1 = .ok (some x)) ∧
    Remembered calls keys codes (n + 1) (b.select selectors (calls n)).2 := by
  obtain ⟨s, hfound, hcode, hselect⟩ | ⟨s, -, hcode, hring, hselect⟩ :=
    select_cases hcall (h.ne_nil (keys n))
  · rw [hselect]
    obtain ⟨_, k, ⟨⟩, hk, hkey, hcode', hring⟩ := h _ _ hfound
    refine ⟨⟨k, hk.le, hkey, hcode'.symm.trans hcode, selectWith_ring hring _⟩, ?_⟩
    intro key ent hentry
    obtain ⟨s', k', hs', hk', hrest⟩ := h key ent hentry
    exact ⟨s', k', hs', Nat.lt_succ_of_lt hk', hrest⟩
  · rw [hselect]
    refine ⟨⟨n, le_rfl, rfl, rfl, selectWith_ring hring _⟩, ?_⟩
    intro key ent hentry
    dsimp only at hentry
    by_cases hkey : key = keys n
    · rw [hkey, update_self] at hentry
      exact ⟨s, n, (Option.some.inj hentry).symm, Nat.lt_succ_self n, hkey.symm, hcode, hring⟩
    · rw [update_of_ne hkey] at hentry
      obtain ⟨s', k', hs', hk', hrest⟩ := h key ent hentry
      exact ⟨s', k', hs', Nat.lt_succ_of_lt hk', hrest⟩

theorem remembered_stateAt (hcalls : ∀ n, b.Admissible (calls n) (keys n) (codes n)) (n : ℕ) :
    Remembered calls keys codes n (b.stateAt calls n) := by
  induction n with
  | zero => exact nofun
  | succ n ih => exact (ih.select (hcalls n)).2

end Calls

/-- Every call returns one of its invokers, if between two calls with the same key and the same
checksum no invoker has left. -/
theorem returns_live_candidate (b : Balancer ι α) (calls : ℕ → Call ι α) (keys : ℕ → Str)
    (codes : ℕ → UInt32) (hcalls : ∀ n, b.Admissible (calls n) (keys n) (codes n))
    (hkept : ∀ k n, k < n → keys k = keys n → codes k = codes n →
      ∀ x ∈ (calls k).invokers, x ∈ (calls n).invokers) (n : ℕ) :
    ∃ x ∈ (calls n).invokers, b.returned calls n = .ok (some x) := by
  obtain ⟨k, hk, hkey, hcode, x, hx, hret⟩ := ((remembered_stateAt hcalls n).select (hcalls n)).1
  refine ⟨x, ?_, hret⟩
  rcases hk.lt_or_eq with hlt | rfl
  · exact hkept k n hlt hkey hcode x hx
  · exact hx

theorem second_call_reuses (calls : ℕ → Call ι α) {key : Str} (h0 : b.Admissible (calls 0) key hashCode)
    (h1 : b.Admissible (calls 1) key hashCode) : ∃ x ∈ (calls 0).invokers, b.returned calls 1 = .ok (some x) := by
  have hempty : b.stateAt calls 0 key ≠ some none := nofun
  obtain ⟨s, hs, -⟩ | ⟨s, -, hcode, hring, hfirst⟩ := select_cases h0 hempty
  · cases hs
  have hstate : b.stateAt calls 1 key = some (some s) := by
    show (b.select (b.stateAt calls 0) (calls 0)).2 key = _
    rw [hfirst]
    exact update_self key _ _
  have hnil : b.stateAt calls 1 key ≠ some none := by
    rw [hstate]
    exact nofun
  obtain ⟨s', hs', -, hsecond⟩ | ⟨_, hother, -⟩ := select_cases h1 hnil
  · rw [hstate] at hs'
    cases hs'
    unfold returned
    rw [hsecond]
    exact selectWith_ring hring _
  · exact absurd hcode (hother s hstate)

/-! ## Calls that do not panic -/

def Usable (selectors : Selectors ι) : Prop :=
  ∀ key entry, selectors key = some entry → ∃ s invokers, entry = some s ∧ s.Ring invokers

/-- A call with valid settings returns, and leaves selectors that are usable. -/
theorem Usable.select (h : Usable selectors) {first : ι} {rest : List ι}
    (hinvokers : call.invokers = first :: rest) (hvalid : ValidSettings (b.getURL first) call.methodName) :
    (∃ r, (b.select selectors call).1 = .ok r) ∧ Usable (b.select selectors call).2 := by
  rcases hchecksum : b.hashCode call.invokers with - | hashCode
  · -- the invokers cannot be marshalled: nothing is selected
    have hselect : b.select selectors call = (.ok none, selectors) := by
      unfold Balancer.select
      rw [hinvokers] at hchecksum ⊢
      rw [hchecksum]
    rw [hselect]
    exact ⟨⟨none, rfl⟩, h⟩
  have hcall : b.Admissible call (b.key first call.methodName) hashCode :=
    ⟨⟨first, rest, hinvokers, rfl, hvalid⟩, hchecksum⟩
  have hnil : selectors (b.key first call.methodName) ≠ some none := by
    intro hnone
    obtain ⟨s, ivks, hs, -⟩ := h _ none hnone
    cases hs
  obtain ⟨s, hfound, -, hselect⟩ | ⟨s, -, -, hring, hselect⟩ := select_cases hcall hnil
  · obtain ⟨_, ivks, ⟨⟩, hring⟩ := h _ _ hfound
    obtain ⟨x, -, hx⟩ := selectWith_ring (b := b) hring call.arguments
    rw [hselect]
    exact ⟨⟨some x, hx⟩, h⟩
  · obtain ⟨x, -, hx⟩ := selectWith_ring (b := b) hring call.arguments
    rw [hselect]
    refine ⟨⟨some x, hx⟩, fun key ent hentry => ?_⟩
    dsimp only at hentry
    by_cases hkey : key = b.key first call.methodName
    · rw [hkey, update_self] at hentry
      exact ⟨s, call.invokers, (Option.some.inj hentry).symm, hring⟩
    · rw [update_of_ne hkey] at hentry
      exact h key ent hentry

/-- If invokers are given and the settings are valid, no call of a run panics. -/
theorem select_never_panics (b : Balancer ι α) (calls : ℕ → Call ι α) (hne : ∀ n, (calls n).invokers ≠ [])
    (hvalid : ∀ n, ∀ first ∈ (calls n).invokers.head?, ValidSettings (b.getURL first) (calls n).methodName) (n : ℕ) :
    ∃ r, b.returned calls n = .ok r := by
  have hselect : ∀ n, Usable (b.stateAt calls n) →
      (∃ r, b.returned calls n = .ok r) ∧ Usable (b.stateAt calls (n + 1)) := by
    intro n h
    obtain ⟨first, rest, hinvokers⟩ := exists_cons_of_ne_nil (hne n)
    exact h.select hinvokers (hvalid n first (by rw [hinvokers]; rfl))
  have husable : ∀ n, Usable (b.stateAt calls n) := by
    intro n
    induction n with
    | zero => exact nofun
    | succ n ih => exact (hselect n ih).2
  exact (hselect n (husable n)).1

end Balancer

/-! ## Invokers that all marshal alike -/

/-- `BaseInvoker`, by its URL. -/
structure BaseInvoker where
  url : URL

/-- `json.Marshal` of a `BaseInvoker`, which has no exported fields. -/
def BaseInvoker.marshal (_ : BaseInvoker) : Option Str := some (str "\x7b\x7d")

/-- A balancer over `BaseInvoker`s, with any digest and checksum functions. -/
def baseBalancer (md5 : Str → Digest) (checksumIEEE : Str → UInt32) : Balancer BaseInvoker Empty :=
  ⟨md5, checksumIEEE, Empty.elim, BaseInvoker.url, BaseInvoker.marshal⟩

def helloAt (ip : Str) : BaseInvoker :=
  ⟨⟨str "dubbo", [], [], ip ++ str ":20000", ip, str "20000", str "/org.apache.demo.HelloService", Values.empty, none⟩⟩

def helloCall (ips : List Str) : Call BaseInvoker Empty :=
  ⟨ips.map helloAt, str "say", [.inl (str "bob")]⟩

def helloKey : Str := str "org.apache.demo.HelloService.say"

def helloText (ips : List Str) : Str := (ips.map fun _ => str "\x7b\x7d").flatten

theorem helloCall_admissible (md5 : Str → Digest) (checksumIEEE : Str → UInt32) (ip : Str)
    (ips : List Str) :
    (baseBalancer md5 checksumIEEE).Admissible (helloCall (ip :: ips)) helloKey
      (checksumIEEE (helloText (ip :: ips))) where
  first := by
    have hnodes : replicaNum (helloAt ip).url (str "say") = 160 := rfl
    have harguments : argumentIndex (helloAt ip).url (str "say") = some [0] := rfl
    exact ⟨helloAt ip, ips.map helloAt, rfl, rfl, ⟨le_of_le_of_eq (by decide) hnodes.symm,
      ne_of_eq_of_ne harguments nofun⟩⟩
  checksum := by
    have hmarshal : ∀ l : List BaseInvoker,
        l.mapM BaseInvoker.marshal = some (l.map fun _ => str "\x7b\x7d") := by
      intro l
      induction l with
      | nil => rfl
      | cons x l ih =>
        rw [mapM_cons, ih]
        rfl
    show ((map helloAt (ip :: ips)).mapM BaseInvoker.marshal).map _ = _
    rw [hmarshal, map_map]
    rfl

def joinedCalls : ℕ → Call BaseInvoker Empty
  | 0 => helloCall [str "192.168.1.1"]
  | _ + 1 => helloCall [str "192.168.1.1", str "192.168.1.2"]

theorem joined_invoker_live :
    helloAt (str "192.168.1.2") ∈ (joinedCalls 1).invokers ∧
      ∀ md5 checksumIEEE, ∃ x ∈ (joinedCalls 1).invokers,
        (baseBalancer md5 checksumIEEE).returned joinedCalls 1 = .ok (some x) := by
  refine ⟨mem_cons_of_mem _ mem_cons_self, fun md5 checksumIEEE => ?_⟩
  let texts : ℕ → Str
    | 0 => helloText [str "192.168.1.1"]
    | _ + 1 => helloText [str "192.168.1.1", str "192.168.1.2"]
  apply Balancer.returns_live_candidate (baseBalancer md5 checksumIEEE) joinedCalls
    (fun _ => helloKey) (fun n => checksumIEEE (texts n))
  · intro n
    cases n <;> exact helloCall_admissible md5 checksumIEEE _ _
  · intro k n hlt _ _ x hx
    obtain ⟨n, rfl⟩ := Nat.exists_eq_succ_of_ne_zero (Nat.ne_of_gt (Nat.zero_lt_of_lt hlt))
    cases k with
    | zero => exact mem_cons.2 (.inl (mem_singleton.1 hx))
    | succ k => exact hx

/-- After a first call the only invoker of the service is replaced by one at another address. -/
def replacedCalls : ℕ → Call BaseInvoker Empty
  | 0 => helloCall [str "192.168.1.1"]
  | _ + 1 => helloCall [str "192.168.1.2"]

/-- Whatever the digest and the checksum, the second call returns the invoker that is gone. -/
theorem replaced_invoker_returned :
    (∀ md5 checksumIEEE, (baseBalancer md5 checksumIEEE).returned replacedCalls 1 =
      .ok (some (helloAt (str "192.168.1.1")))) ∧
    helloAt (str "192.168.1.1") ∉ (replacedCalls 1).invokers := by
  constructor
  · intro md5 checksumIEEE
    obtain ⟨x, hx, hret⟩ := Balancer.second_call_reuses replacedCalls
      (helloCall_admissible md5 checksumIEEE _ []) (helloCall_admissible md5 checksumIEEE _ [])
    rw [hret, mem_singleton.1 hx]
  · intro h
    have hip := congrArg (fun x => x.url.ip) (mem_singleton.1 h)
    exact absurd hip (by decide)

/-! ## Settings that make a call panic -/

/-- The invoker of a service in whose URL a setting of the method has this value. -/
def settingAt (setting value : Str) : BaseInvoker :=
  let url := (helloAt (str "192.168.1.1")).url
  ⟨{ url with params := Function.update url.params (str "methods.say." ++ setting) (some [value]) }⟩

def settingCall (setting value : Str) : Call BaseInvoker Empty :=
  ⟨[settingAt setting value], str "say", [.inl (str "bob")]⟩

theorem select_never_panics_four_nodes :
    replicaNum (settingAt hashNodes (str "4")).url (str "say") = 4 ∧ ∀ md5 checksumIEEE n, ∃ r,
      (baseBalancer md5 checksumIEEE).returned (fun _ => settingCall hashNodes (str "4")) n = .ok r := by
  have hnodes : replicaNum (settingAt hashNodes (str "4")).url (str "say") = 4 := rfl
  refine ⟨hnodes, fun md5 checksumIEEE => ?_⟩
  refine Balancer.select_never_panics _ _ (fun _ => cons_ne_nil _ _) ?_
  rintro - _ ⟨⟩
  have harguments : argumentIndex (settingAt hashNodes (str "4")).url (str "say") = some [0] := rfl
  exact ⟨hnodes.ge, ne_of_eq_of_ne harguments nofun⟩

/-- Fewer than four nodes give a ring without points, and an argument index that is not a number
gives no selector. -/
theorem select_panics :
    (∀ md5 checksumIEEE, (baseBalancer md5 checksumIEEE).returned
      (fun _ => settingCall hashNodes (str "3")) 0 = .error .indexOutOfRange) ∧
    ∀ md5 checksumIEEE, (baseBalancer md5 checksumIEEE).returned
      (fun _ => settingCall hashArguments (str "name")) 0 = .error .nilPointer := by
  refine ⟨fun md5 checksumIEEE => ?_, fun md5 checksumIEEE => rfl⟩
  show Selector.selectForKey ⟨_, _, _, ([] : List UInt32).mergeSort _, _⟩ _ = _
  rw [mergeSort_nil]
  rfl

end DubboGo.Cluster.ConsistentHash
