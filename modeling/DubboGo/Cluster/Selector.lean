import DubboGo.Common.URL
import DubboGo.Go.Panic
import DubboGo.Go.Sort

/-!
# The selector of consistent hashing

`cluster/loadbalance/consistenthashing/selector.go`: a ring of hash values, each owned by an invoker, and the lookup
of a request on it.  The digest function and the formatting of arguments are parameters.
-/

namespace DubboGo.Cluster.ConsistentHash

open Go Common List

def hashNodes : Str := str "hash.nodes"
def hashArguments : Str := str "hash.arguments"

/-- The result of `md5.Sum`. -/
abbrev Digest := Fin 16 → UInt8

def hash (digest : Digest) (i : Fin 4) : UInt32 :=
  ((digest ⟨3 + i * 4, by omega⟩ &&& 0xFF).toUInt32 <<< 24) |||
    ((digest ⟨2 + i * 4, by omega⟩ &&& 0xFF).toUInt32 <<< 16) |||
    ((digest ⟨1 + i * 4, by omega⟩ &&& 0xFF).toUInt32 <<< 8) |||
    ((digest ⟨i * 4, by omega⟩ &&& 0xFF).toUInt32 &&& 0xFFFFFFF)

/-! ## Splitting at commas -/

/-- What follows a separator, if one starts here: commas with white space around them. -/
def afterComma (s : Str) : Option Str :=
  match s.dropWhile isRegexpSpace with
  | 44 :: rest => some ((rest.dropWhile (· = 44)).dropWhile isRegexpSpace)
  | _ => none

/-- The parts of `s` between separators, where `part` has been read of the first one. -/
def splitLoop : (fuel : ℕ) → (s part : Str) → List Str
  | 0, _, part => [part]
  | fuel + 1, s, part =>
    match afterComma s with
    | some rest => part :: splitLoop fuel rest []
    | none =>
      match s with
      | [] => [part]
      | c :: cs => splitLoop fuel cs (part ++ [c])

/-- `re.Split(s, -1)` for the pattern `\s*[,]+\s*`. -/
def commaSplit (s : Str) : List Str := splitLoop (s.length + 1) s []

/-! ## Building the ring -/

structure Selector (ι : Type) where
  hashCode : UInt32
  replicaNum : ℤ
  virtualInvokers : UInt32 → Option ι
  keys : List UInt32
  argumentIndex : List ℤ

def points (md5 : Str → Digest) (replicaNum : ℤ) (address : Str) : List UInt32 :=
  (List.range (replicaNum.tdiv 4).toNat).flatMap fun i =>
    (List.finRange 4).map (hash (md5 (address ++ decimal i)))

def address (u : URL) : Str := u.ip ++ str ":" ++ u.port

def replicaNum (url : URL) (methodName : Str) : ℤ :=
  url.getMethodParamIntValue methodName hashNodes 160

def argumentIndex (url : URL) (methodName : Str) : Option (List ℤ) :=
  (commaSplit (url.getMethodParam methodName hashArguments (str "0"))).mapM fun index =>
    (parseInt index 10 64).toOption

section Build

variable {ι : Type} (md5 : Str → Digest) (getURL : ι → URL)

def Selector.addPoint (invoker : ι) (s : Selector ι) (key : UInt32) : Selector ι :=
  { s with
    keys := s.keys ++ [key]
    virtualInvokers := Function.update s.virtualInvokers key (some invoker) }

def Selector.addInvoker (s : Selector ι) (invoker : ι) : Selector ι :=
  (points md5 s.replicaNum (address (getURL invoker))).foldl (Selector.addPoint invoker) s

/-- `newSelector`, where `url` is the URL of the first invoker; `none` is nil. -/
def newSelector (url : URL) (invokers : List ι) (methodName : Str) (hashCode : UInt32) : Option (Selector ι) :=
  (argumentIndex url methodName).map fun argumentIndex =>
    let s := invokers.foldl (Selector.addInvoker md5 getURL)
      ⟨hashCode, replicaNum url methodName, fun _ => none, [], argumentIndex⟩
    { s with keys := s.keys.mergeSort (fun a b => decide (a ≤ b)) }

end Build

/-! ## Looking up a request -/

section Lookup

variable {ι α : Type} (c : Selector ι)

/-- `toKey`; `sprint` is `fmt.Fprint` of an argument that is not a string. -/
def Selector.toKey (sprint : α → Str) (args : List (Str ⊕ α)) : Str :=
  c.argumentIndex.flatMap fun (i : ℤ) =>
    if 0 ≤ i then
      match args[i.toNat]? with
      | some (.inl v) => v
      | some (.inr v) => sprint v
      | none => []
    else []

def Selector.selectForKey (hash : UInt32) : Except RuntimeError (Option ι) :=
  let idx := search c.keys.length fun i => hash ≤ c.keys.getD i 0
  let idx := if idx = c.keys.length then 0 else idx
  match c.keys[idx]? with
  | some key => .ok (c.virtualInvokers key)
  | none => .error .indexOutOfRange

def Selector.select (md5 : Str → Digest) (sprint : α → Str) (args : List (Str ⊕ α)) : Except RuntimeError (Option ι) :=
  c.selectForKey (hash (md5 (c.toKey sprint args)) 0)

end Lookup

/-! ## Owners of points -/

section Ring

variable {ι : Type} {md5 : Str → Digest} {getURL : ι → URL} {invokers : List ι} {s : Selector ι}

def Selector.Owned (s : Selector ι) (invokers : List ι) : Prop :=
  ∀ key ∈ s.keys, ∃ x ∈ invokers, s.virtualInvokers key = some x

structure Selector.Ring (s : Selector ι) (invokers : List ι) : Prop where
  owned : s.Owned invokers
  ne_nil : s.keys ≠ []

theorem owned_addPoint {ivk : ι} (h : s.Owned invokers) (hmem : ivk ∈ invokers)
    (key : UInt32) : (s.addPoint ivk key).Owned invokers := by
  intro k hk
  dsimp only [Selector.addPoint] at hk ⊢
  by_cases hkey : k = key
  · exact ⟨ivk, hmem, by rw [hkey, Function.update_self]⟩
  · rw [Function.update_of_ne hkey]
    exact h k ((mem_append.1 hk).resolve_right fun h => hkey (mem_singleton.1 h))

theorem owned_foldl_addPoint {ivk : ι} (hmem : ivk ∈ invokers) (keys : List UInt32) :
    ∀ s : Selector ι, s.Owned invokers → (keys.foldl (Selector.addPoint ivk) s).Owned invokers := by
  induction keys with
  | nil => exact fun _ h => h
  | cons key keys ih => exact fun s h => ih _ (owned_addPoint h hmem key)

theorem owned_foldl_addInvoker (l : List ι) (hsub : ∀ x ∈ l, x ∈ invokers) : ∀ s : Selector ι, s.Owned invokers →
      (l.foldl (Selector.addInvoker md5 getURL) s).Owned invokers := by
  induction l with
  | nil => exact fun _ h => h
  | cons x l ih =>
    rw [forall_mem_cons] at hsub
    exact fun s h => ih hsub.2 _ (owned_foldl_addPoint hsub.1 _ s h)

theorem keys_foldl_addPoint (ivk : ι) (keys : List UInt32) :
    ∀ s : Selector ι, (keys.foldl (Selector.addPoint ivk) s).keys = s.keys ++ keys ∧
      (keys.foldl (Selector.addPoint ivk) s).replicaNum = s.replicaNum ∧
      (keys.foldl (Selector.addPoint ivk) s).hashCode = s.hashCode := by
  induction keys with
  | nil => exact fun s => ⟨(append_nil _).symm, rfl, rfl⟩
  | cons key keys ih =>
    intro s
    obtain ⟨hkeys, hnum, hcode⟩ := ih (s.addPoint ivk key)
    refine ⟨?_, hnum, hcode⟩
    rw [foldl_cons, hkeys]
    exact append_assoc s.keys [key] keys

theorem keys_foldl_addInvoker (md5 : Str → Digest) (getURL : ι → URL) (l : List ι) :
    ∀ s : Selector ι, (l.foldl (Selector.addInvoker md5 getURL) s).keys =
        s.keys ++ l.flatMap (fun x => points md5 s.replicaNum (address (getURL x))) ∧
      (l.foldl (Selector.addInvoker md5 getURL) s).hashCode = s.hashCode := by
  induction l with
  | nil => exact fun s => ⟨(append_nil _).symm, rfl⟩
  | cons x l ih =>
    intro s
    obtain ⟨hkeys, hnum, hcode⟩ :=
      keys_foldl_addPoint x (points md5 s.replicaNum (address (getURL x))) s
    obtain ⟨hkeys', hcode'⟩ := ih (s.addInvoker md5 getURL x)
    refine ⟨?_, hcode'.trans hcode⟩
    rw [foldl_cons, hkeys', flatMap_cons, ← append_assoc]
    unfold Selector.addInvoker
    rw [hkeys, hnum]

theorem points_ne_nil {n : ℤ} (hn : 4 ≤ n) (addr : Str) : points md5 n addr ≠ [] := by
  have h1 : 1 ≤ n.tdiv 4 := by
    rw [Int.tdiv_eq_ediv_of_nonneg (by omega)]
    omega
  have h2 : 0 ∈ range (n.tdiv 4).toNat := mem_range.2 (by omega)
  intro h
  have h3 := flatMap_eq_nil_iff.1 h 0 h2
  simp at h3

structure ValidSettings (url : URL) (methodName : Str) : Prop where
  nodes : 4 ≤ replicaNum url methodName
  arguments : argumentIndex url methodName ≠ none

theorem newSelector_ring (md5 : Str → Digest) (getURL : ι → URL) {url : URL} {meth : Str}
    (h : ValidSettings url meth) (hne : invokers ≠ []) (hashCode : UInt32) :
    ∃ s, newSelector md5 getURL url invokers meth hashCode = some s ∧ s.hashCode = hashCode ∧ s.Ring invokers := by
  obtain ⟨idxs, hindices⟩ := Option.ne_none_iff_exists'.1 h.arguments
  unfold newSelector
  rw [hindices, Option.map_some]
  set start : Selector ι := ⟨hashCode, replicaNum url meth, fun _ => none, [], idxs⟩
  obtain ⟨hkeys, hcode⟩ := keys_foldl_addInvoker md5 getURL invokers start
  refine ⟨_, rfl, hcode, fun key hkey => ?_, ?_⟩
  · exact owned_foldl_addInvoker invokers (fun _ hx => hx) start nofun key (mem_mergeSort.1 hkey)
  · intro hnil
    rw [← length_eq_zero_iff, length_mergeSort, length_eq_zero_iff, hkeys] at hnil
    obtain ⟨x, hx⟩ := exists_mem_of_ne_nil invokers hne
    exact points_ne_nil h.nodes _ (flatMap_eq_nil_iff.1 (append_eq_nil_iff.1 hnil).2 x hx)

/-- Every hash value finds an invoker of the ring. -/
theorem Selector.Ring.selectForKey (h : s.Ring invokers) (hash : UInt32) :
    ∃ x ∈ invokers, s.selectForKey hash = .ok (some x) := by
  have hpos : 0 < s.keys.length := length_pos_iff.2 h.ne_nil
  have hle := search_le s.keys.length fun i => decide (hash ≤ s.keys.getD i 0)
  unfold Selector.selectForKey
  dsimp only
  generalize search s.keys.length _ = idx at hle ⊢
  have hidx : (if idx = s.keys.length then 0 else idx) < s.keys.length := by
    split_ifs <;> omega
  rw [getElem?_eq_getElem hidx]
  obtain ⟨x, hx, hown⟩ := h.owned _ (getElem_mem hidx)
  exact ⟨x, hx, congrArg Except.ok hown⟩

end Ring

end DubboGo.Cluster.ConsistentHash
