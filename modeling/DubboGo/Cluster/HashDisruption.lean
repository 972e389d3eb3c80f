import DubboGo.Cluster.ConsistentHash
import DubboGo.Lib.HashRing

/-!
# Consistent hashing when an invoker leaves

The selector is a ring in the sense of `Lib.HashRing`: the points of an invoker are the hash values
of its address, and a point that two invokers share belongs to the later one.
-/

namespace DubboGo.Cluster.ConsistentHash

open Go Common Lib List

section Ring

variable {ι : Type} {md5 : Str → Digest} {getURL : ι → URL} {s : Selector ι}

def invokerPoints (md5 : Str → Digest) (getURL : ι → URL) (replicaNum : ℤ) (invoker : ι) : List UInt32 :=
  points md5 replicaNum (address (getURL invoker))

theorem virtualInvokers_foldl_addPoint (ivk : ι) (keys : List UInt32) :
    ∀ (s : Selector ι) (k : UInt32), (keys.foldl (Selector.addPoint ivk) s).virtualInvokers k =
      if k ∈ keys then some ivk else s.virtualInvokers k := by
  induction keys with
  | nil => exact fun s k => rfl
  | cons key keys ih =>
    intro s k
    rw [foldl_cons, ih]
    by_cases hk : k ∈ keys
    · rw [if_pos hk, if_pos (mem_cons_of_mem key hk)]
    · rw [if_neg hk]
      dsimp only [Selector.addPoint]
      by_cases hkey : k = key
      · rw [hkey, Function.update_self, if_pos mem_cons_self]
      · rw [Function.update_of_ne hkey, if_neg (by simp [hk, hkey])]

theorem replicaNum_foldl_addInvoker (l : List ι) (s : Selector ι) :
    (l.foldl (Selector.addInvoker md5 getURL) s).replicaNum = s.replicaNum := by
  induction l generalizing s with
  | nil => rfl
  | cons x l ih =>
    rw [foldl_cons, ih]
    exact (keys_foldl_addPoint x _ s).2.1

theorem virtualInvokers_foldl_addInvoker (hs : s.virtualInvokers = fun _ => none) (l : List ι) (k : UInt32) :
    (l.foldl (Selector.addInvoker md5 getURL) s).virtualInvokers k =
      HashRing.owner (invokerPoints md5 getURL s.replicaNum) l k := by
  induction l using reverseRecOn with
  | nil =>
    rw [foldl_nil, hs]
    rfl
  | append_singleton l x ih =>
    rw [foldl_append, foldl_cons, foldl_nil, Selector.addInvoker,
      virtualInvokers_foldl_addPoint, HashRing.owner_concat, ih, replicaNum_foldl_addInvoker]
    rfl

theorem newSelector_spec {url : URL} {invokers : List ι} {methodName : Str} {hashCode : UInt32}
    (h : newSelector md5 getURL url invokers methodName hashCode = some s) : (∀ k, s.virtualInvokers k =
      HashRing.owner (invokerPoints md5 getURL (replicaNum url methodName)) invokers k) ∧ s.keys.Pairwise (· ≤ ·) ∧
    ∀ k, k ∈ s.keys ↔ k ∈ HashRing.ring (invokerPoints md5 getURL (replicaNum url methodName)) invokers := by
  obtain ⟨idxs, -, rfl⟩ := Option.map_eq_some_iff.1 h
  set start : Selector ι := ⟨hashCode, replicaNum url methodName, fun _ => none, [], idxs⟩
  refine ⟨fun k => virtualInvokers_foldl_addInvoker rfl invokers k, ?_, fun k => ?_⟩
  · have htrans : ∀ a b c : UInt32, decide (a ≤ b) = true → decide (b ≤ c) = true →
        decide (a ≤ c) = true := by
      intro a b c hab hbc
      exact decide_eq_true ((of_decide_eq_true hab).trans (of_decide_eq_true hbc))
    have htotal : ∀ a b : UInt32, (decide (a ≤ b) || decide (b ≤ a)) = true := by
      intro a b
      simpa using le_total a b
    exact (pairwise_mergeSort htrans htotal _).imp fun hab => of_decide_eq_true hab
  · rw [mem_mergeSort, (keys_foldl_addInvoker md5 getURL invokers start).1]
    simp only [start, nil_append, mem_flatMap]
    rfl

end Ring

/-! ## Lookups -/

section Lookup

variable {ι : Type} {md5 : Str → Digest} {getURL : ι → URL} {methodName : Str} {invokers : List ι}

theorem exists_successor {keys : List UInt32} (hsorted : keys.Pairwise (· ≤ ·)) (hne : keys ≠ [])
    (hash : UInt32) :
    ∃ k, keys[if search keys.length (fun i => hash ≤ keys.getD i 0) = keys.length then 0
        else search keys.length fun i => hash ≤ keys.getD i 0]? = some k ∧
      HashRing.Successor {p | p ∈ keys} hash k := by
  have hpos : 0 < keys.length := length_pos_iff.2 hne
  have hle := search_le keys.length fun i => decide (hash ≤ keys.getD i 0)
  obtain ⟨hlow, hhigh⟩ := search_ascending hsorted 0 hash
  generalize search keys.length (fun i => decide (hash ≤ keys.getD i 0)) = idx at hlow hhigh hle ⊢
  by_cases hidx : idx = keys.length
  · -- no key is at or after `hash`
    rw [if_pos hidx, getElem?_eq_getElem hpos]
    refine ⟨keys[0], rfl, .inr ⟨?_, getElem_mem hpos, ?_⟩⟩
    · intro p hp
      obtain ⟨i, hi, rfl⟩ := getElem_of_mem hp
      exact hlow i hi (hidx ▸ hi)
    · intro p hp
      obtain ⟨i, hi, rfl⟩ := getElem_of_mem hp
      exact hsorted.rel_get_of_le (a := ⟨0, hpos⟩) (b := ⟨i, hi⟩) (Nat.zero_le i)
  · have hlt : idx < keys.length := lt_of_le_of_ne hle hidx
    rw [if_neg hidx, getElem?_eq_getElem hlt]
    refine ⟨keys[idx], rfl, .inl ⟨⟨getElem_mem hlt, hhigh idx hlt le_rfl⟩, ?_⟩⟩
    rintro p ⟨hp, hge⟩
    obtain ⟨i, hi, rfl⟩ := getElem_of_mem hp
    have hidxi : idx ≤ i := not_lt.1 fun hbelow => (hlow i hi hbelow).not_ge hge
    exact hsorted.rel_get_of_le (a := ⟨idx, hlt⟩) (b := ⟨i, hi⟩) hidxi

theorem selectForKey_serves {url : URL} {hashCode : UInt32} {s : Selector ι}
    (hs : newSelector md5 getURL url invokers methodName hashCode = some s)
    (hnodes : 4 ≤ replicaNum url methodName) (hne : invokers ≠ []) (hash : UInt32) :
    ∃ y, s.selectForKey hash = .ok (some y) ∧
      HashRing.Serves (invokerPoints md5 getURL (replicaNum url methodName)) invokers hash y := by
  obtain ⟨hown, hsorted, hkeys⟩ := newSelector_spec hs
  have hne' : s.keys ≠ [] := by
    obtain ⟨x, hx⟩ := exists_mem_of_ne_nil invokers hne
    obtain ⟨k, hk⟩ := exists_mem_of_ne_nil _ (show invokerPoints md5 getURL _ x ≠ [] from points_ne_nil hnodes _)
    exact ne_nil_of_mem ((hkeys k).2 ⟨x, hx, hk⟩)
  obtain ⟨k, hk, hsucc⟩ := exists_successor hsorted hne' hash
  rw [show {p | p ∈ s.keys} = HashRing.ring _ invokers from Set.ext hkeys] at hsucc
  obtain ⟨y, hy⟩ := HashRing.exists_owner hsucc.mem
  refine ⟨y, ?_, k, hsucc, hy⟩
  unfold Selector.selectForKey
  dsimp only
  rw [hk]
  exact congrArg Except.ok ((hown k).trans hy)

/-- `newSelector(invokers).selectForKey(hash)`. -/
def lookup (md5 : Str → Digest) (getURL : ι → URL) (methodName : Str) (hashCode : UInt32)
    (invokers : List ι) (hash : UInt32) : Except RuntimeError (Option ι) :=
  match invokers with
  | [] => .error .indexOutOfRange
  | first :: _ =>
    match newSelector md5 getURL (getURL first) invokers methodName hashCode with
    | some s => s.selectForKey hash
    | none => .error .nilPointer

/-- The invokers have the same settings for a method; `indices` is nothing where `hash.arguments` is
not a list of numbers. -/
structure SameSettings (getURL : ι → URL) (methodName : Str) (nodes : ℤ)
    (indices : Option (List ℤ)) (invokers : List ι) : Prop where
  nodes : ∀ y ∈ invokers, replicaNum (getURL y) methodName = nodes
  arguments : ∀ y ∈ invokers, argumentIndex (getURL y) methodName = indices

theorem lookup_cases (md5 : Str → Digest) {nodes : ℤ} {idxs : Option (List ℤ)}
    (hsame : SameSettings getURL methodName nodes idxs invokers) (hnodes : 4 ≤ nodes) (hne : invokers ≠ [])
    (hashCode hash : UInt32) :
    idxs = none ∧ lookup md5 getURL methodName hashCode invokers hash = .error .nilPointer ∨
      idxs ≠ none ∧ ∃ y, lookup md5 getURL methodName hashCode invokers hash = .ok (some y) ∧
        HashRing.Serves (invokerPoints md5 getURL nodes) invokers hash y := by
  obtain ⟨first, rest, rfl⟩ := exists_cons_of_ne_nil hne
  have hnum := hsame.nodes first mem_cons_self
  have hargs := hsame.arguments first mem_cons_self
  unfold lookup
  dsimp only
  cases hs : newSelector md5 getURL (getURL first) (first :: rest) methodName hashCode with
  | none =>
    refine .inl ⟨?_, rfl⟩
    rw [← hargs]
    exact Option.map_eq_none_iff.1 hs
  | some s =>
    obtain ⟨y, hy, hserves⟩ := selectForKey_serves hs (hnum.symm ▸ hnodes) hne hash
    refine .inr ⟨?_, y, hy, hnum ▸ hserves⟩
    rw [← hargs]
    intro hnone
    rw [newSelector, hnone] at hs
    cases hs

/-- Whatever the digest function: when an invoker leaves, a request that it did not serve keeps its invoker.  A
request is served by the owner of the first point at or after its hash value, or of the first point of all. -/
theorem minimal_disruption (md5 : Str → Digest) (getURL : ι → URL) (methodName : Str) (nodes : ℤ)
    (hnodes : 4 ≤ nodes) (indices : Option (List ℤ)) : (∀ (l₁ l₂ : List ι) (x : ι) (hashCode hashCode' hash : UInt32),
      SameSettings getURL methodName nodes indices (l₁ ++ x :: l₂) → l₁ ++ l₂ ≠ [] →
      lookup md5 getURL methodName hashCode (l₁ ++ x :: l₂) hash ≠ .ok (some x) →
      lookup md5 getURL methodName hashCode' (l₁ ++ l₂) hash =
        lookup md5 getURL methodName hashCode (l₁ ++ x :: l₂) hash) ∧ (∀ (invokers : List ι) (hashCode hash : UInt32),
      SameSettings getURL methodName nodes indices invokers → invokers ≠ [] → indices ≠ none →
      ∃ y, lookup md5 getURL methodName hashCode invokers hash = .ok (some y) ∧
        HashRing.Serves (invokerPoints md5 getURL nodes) invokers hash y) := by
  constructor
  · intro l₁ l₂ x hashCode hashCode' hash hsame hne hother
    have hsub : ∀ y ∈ l₁ ++ l₂, y ∈ l₁ ++ x :: l₂ := by
      intro y hy
      rw [mem_append] at hy
      rw [mem_append, mem_cons]
      exact hy.imp_right .inr
    have hsame' : SameSettings getURL methodName nodes indices (l₁ ++ l₂) :=
      ⟨fun y hy => hsame.nodes y (hsub y hy), fun y hy => hsame.arguments y (hsub y hy)⟩
    rcases lookup_cases md5 hsame hnodes (by simp) hashCode hash with
      ⟨hnone, hfail⟩ | ⟨hsome, y, hy, hserves⟩
    · rcases lookup_cases md5 hsame' hnodes hne hashCode' hash with
        ⟨-, hfail'⟩ | ⟨hsome, -⟩
      · rw [hfail, hfail']
      · exact absurd hnone hsome
    · rcases lookup_cases md5 hsame' hnodes hne hashCode' hash with
        ⟨hnone, -⟩ | ⟨-, y', hy', hserves'⟩
      · exact absurd hnone hsome
      · have hyx : y ≠ x := by
          rintro rfl
          exact hother hy
        rw [hy, hy', (hserves.remove hyx).unique hserves']
  · intro invokers hashCode hash hsame hne hsome
    rcases lookup_cases md5 hsame hnodes hne hashCode hash with ⟨hnone, -⟩ | ⟨-, h⟩
    · exact absurd hnone hsome
    · exact h

end Lookup

/-- Three invokers with default settings, of which the second leaves. -/
theorem hello_keeps_invoker :
    SameSettings BaseInvoker.url (str "say") 160 (some [0])
        [helloAt (str "192.168.1.1"), helloAt (str "192.168.1.2"), helloAt (str "192.168.1.3")] ∧
      ∀ md5 hash, lookup md5 BaseInvoker.url (str "say") 0
          [helloAt (str "192.168.1.1"), helloAt (str "192.168.1.2"), helloAt (str "192.168.1.3")]
          hash ≠ .ok (some (helloAt (str "192.168.1.2"))) →
        lookup md5 BaseInvoker.url (str "say") 0
            [helloAt (str "192.168.1.1"), helloAt (str "192.168.1.3")] hash =
          lookup md5 BaseInvoker.url (str "say") 0
            [helloAt (str "192.168.1.1"), helloAt (str "192.168.1.2"), helloAt (str "192.168.1.3")]
            hash := by
  have hsame : SameSettings BaseInvoker.url (str "say") 160 (some [0])
      [helloAt (str "192.168.1.1"), helloAt (str "192.168.1.2"), helloAt (str "192.168.1.3")] := by
    constructor
    · simp only [forall_mem_cons]
      exact ⟨rfl, rfl, rfl, nofun⟩
    · simp only [forall_mem_cons]
      exact ⟨rfl, rfl, rfl, nofun⟩
  refine ⟨hsame, fun md5 hash h => ?_⟩
  exact (minimal_disruption md5 BaseInvoker.url (str "say") 160 (by decide) (some [0])).1
    [helloAt (str "192.168.1.1")] [helloAt (str "192.168.1.3")] (helloAt (str "192.168.1.2"))
    0 0 hash hsame (by simp) h

end DubboGo.Cluster.ConsistentHash
