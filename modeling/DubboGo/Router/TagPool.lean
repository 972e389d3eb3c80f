import DubboGo.Router.Tag
import DubboGo.Lib.BitmapIndex

/-!
# The address pool of the tag router

`cluster/router/tag/cache.go`: `Pool` indexes a list of invokers by tag, address and port, and `routeWithPool`
evaluates a tag rule on the bitmaps, which are those of `Lib.BitmapIndex`.  A bitmap in the pool is not changed after
the pool has been built.
-/

namespace DubboGo.Router.Tag

open Go Common Protocol Lib BitmapIndex List Option

def poolKeyTagPrefix : Str := str "tag\x00"
def poolKeyAddrPrefix : Str := str "addr\x00"
def poolKeyPortPrefix : Str := str "port\x00"
def poolKeyAll : Str := str "*"

/-- Host and port of an address: its parts around the last colon, if that is not the first byte. -/
def splitAddress (addr : Str) : Option (Str × Str) :=
  match lastIndex 58 addr with
  | some idx => if 0 < idx then some (addr.take idx, addr.drop (idx + 1)) else none
  | none => none

/-- The keys under which `Pool` enters a URL. -/
def poolKeys (url : URL) : List Str :=
  [poolKeyAll, poolKeyTagPrefix ++ tagOf url] ++
    if url.location ≠ [] then
      (poolKeyAddrPrefix ++ url.location) ::
        match splitAddress url.location with
        | some (_, port) => [poolKeyPortPrefix ++ port]
        | none => []
    else []

variable {ι β : Type} [Bitmap β] (matchString : Regexp) (getURL : ι → URL)

abbrev AddrPool (β : Type) := Str → Option β

def pool (invokers : List ι) : AddrPool β := index (fun i => poolKeys (getURL i)) invokers

def collectInvokers (invokers : List ι) (bm : Option β) : List ι :=
  match bm with
  | none => []
  | some b => if Bitmap.isEmpty b then [] else collect invokers b

def hasInvokers (bm : Option β) : Bool :=
  match bm with
  | none => false
  | some b => !Bitmap.isEmpty b

/-- `bm.Or(other)` where the other bitmap may be missing. -/
def orMissing (bm : β) (other : Option β) : β :=
  match other with
  | some b => Bitmap.or bm b
  | none => bm

/-- The body of the loop of `addressesBM`. -/
def addAddressBM (pool : AddrPool β) (bm : β) (addr : Str) : β :=
  let bm := orMissing bm (pool (poolKeyAddrPrefix ++ addr))
  match splitAddress addr with
  | some (host, port) =>
    if host = anyHostValue then orMissing bm (pool (poolKeyPortPrefix ++ port)) else bm
  | none => bm

def addressesBM (pool : AddrPool β) (addrs : List Str) : β :=
  addrs.foldl (addAddressBM pool) Bitmap.newBitmap

def staticTagMatchBM (pool : AddrPool β) (tag : Str) (url : URL) (invocation : RPCInvocation) : Option β :=
  if tag ≠ [] then
    if hasInvokers (pool (poolKeyTagPrefix ++ tag)) then pool (poolKeyTagPrefix ++ tag)
    else if requestIsForce url invocation then none
    else pool poolKeyTagPrefix
  else pool poolKeyTagPrefix

/-- The entry that the loop of `requestTagMatchBM` finds: it stops at the first one of the name. -/
def firstEntry (cfg : RouterConfig) (tag : Str) : Entry :=
  match cfg.tags.find? fun tagCfg => tagCfg.name = tag with
  | some tagCfg => ⟨tagCfg.addresses, tagCfg.rules⟩
  | none => ⟨[], []⟩

/-- `requestTagMatchBM` for the entry that its loop has found. -/
def requestEntryBM (pool : AddrPool β) (force : Bool) (entry : Entry) (tag : Str) : Option β :=
  if entry.rules.length ≠ 0 then none
  else
    let resultBM :=
      if entry.addresses.length ≠ 0 then some (addressesBM pool entry.addresses)
      else pool (poolKeyTagPrefix ++ tag)
    if force then resultBM
    else if hasInvokers resultBM then resultBM
    else
      match pool poolKeyTagPrefix with
      | none => none
      | some emptyBM =>
        if entry.addresses.length = 0 then some emptyBM
        else some (Bitmap.andNot (Bitmap.clone emptyBM) (addressesBM pool entry.addresses))

def requestTagMatchBM (pool : AddrPool β) (url : URL) (invocation : RPCInvocation)
    (cfg : RouterConfig) (tag : Str) : Option β :=
  requestEntryBM pool (isForced url invocation cfg) (firstEntry cfg tag) tag

/-- The body of the loop of `emptyTagMatchBM`. -/
def removeAddressedBM (pool : AddrPool β) (bm : β) (tagCfg : TagEntry) : β :=
  if tagCfg.addresses.length = 0 then bm
  else
    let addrBM := addressesBM pool tagCfg.addresses
    if Bitmap.isEmpty addrBM then bm else Bitmap.andNot (Bitmap.clone bm) addrBM

def emptyTagMatchBM (pool : AddrPool β) (cfg : RouterConfig) : Option β :=
  match pool poolKeyTagPrefix with
  | none => none
  | some bm =>
    if Bitmap.isEmpty bm then some bm else some (cfg.tags.foldl (removeAddressedBM pool) bm)

def routeWithPool (routerConfigs : RouterConfigs) (invokers : List ι) (pool : AddrPool β)
    (url : URL) (invocation : RPCInvocation) : Except RuntimeError (List ι) :=
  match invokers with
  | [] => .ok []
  | invoker :: _ =>
    let tag := requestedTag url invocation
    match routerConfigs (ruleKey (getURL invoker)) with
    | none => .ok (collectInvokers invokers (staticTagMatchBM pool tag url invocation))
    | some cfg =>
      if cfg.inForce then
        if tag = [] then .ok (collectInvokers invokers (emptyTagMatchBM pool cfg))
        else
          match requestTagMatchBM pool url invocation cfg tag with
          | none => requestTag matchString getURL invokers url invocation cfg tag
          | some bm => .ok (collectInvokers invokers (some bm))
      else .ok (collectInvokers invokers (staticTagMatchBM pool tag url invocation))

/-! ## What the bitmaps index -/

/-- The location of the URL is `host:port` with its own port. -/
def Located (url : URL) : Prop :=
  ∃ host, host ≠ [] ∧ url.location = host ++ keySeparator ++ url.port ∧ 58 ∉ url.port

theorem splitAddress_append {host port : Str} (hhost : host ≠ []) (hport : 58 ∉ port) :
    splitAddress (host ++ keySeparator ++ port) = some (host, port) := by
  have hsep : host ++ keySeparator ++ port = host ++ 58 :: port := by
    rw [append_assoc]
    rfl
  rw [splitAddress, hsep, lastIndex_append host hport]
  simp [length_pos_iff.2 hhost]

theorem eq_of_splitAddress {addr host port : Str} (h : splitAddress addr = some (host, port)) :
    addr = host ++ keySeparator ++ port := by
  unfold splitAddress at h
  cases hi : lastIndex 58 addr with
  | none =>
    rw [hi] at h
    cases h
  | some idx =>
    rw [hi] at h
    dsimp only at h
    split at h
    · obtain ⟨rfl, rfl⟩ := Prod.mk.inj (some.inj h)
      rw [append_assoc]
      exact (eq_of_lastIndex hi).1
    · cases h

section Keys

variable {url : URL}

theorem mem_poolKeys (hloc : Located url) (key : Str) :
    key ∈ poolKeys url ↔ key = poolKeyAll ∨ key = poolKeyTagPrefix ++ tagOf url ∨
      key = poolKeyAddrPrefix ++ url.location ∨ key = poolKeyPortPrefix ++ url.port := by
  obtain ⟨host, hhost, heq, hport⟩ := hloc
  have hne : url.location ≠ [] := by simp [heq, hhost]
  unfold poolKeys
  rw [if_pos hne, heq, splitAddress_append hhost hport]
  simp

theorem poolKey_bytes : poolKeyTagPrefix = [116, 97, 103, 0] ∧
    poolKeyAddrPrefix = [97, 100, 100, 114, 0] ∧ poolKeyPortPrefix = [112, 111, 114, 116, 0] ∧
    poolKeyAll = [42] := by decide

theorem tagKey_mem_poolKeys (hloc : Located url) (tag : Str) :
    poolKeyTagPrefix ++ tag ∈ poolKeys url ↔ tag = tagOf url := by
  obtain ⟨h1, h2, h3, h4⟩ := poolKey_bytes
  rw [mem_poolKeys hloc, h1, h2, h3, h4]
  simp

theorem addrKey_mem_poolKeys (hloc : Located url) (addr : Str) :
    poolKeyAddrPrefix ++ addr ∈ poolKeys url ↔ addr = url.location := by
  obtain ⟨h1, h2, h3, h4⟩ := poolKey_bytes
  rw [mem_poolKeys hloc, h1, h2, h3, h4]
  simp

theorem portKey_mem_poolKeys (hloc : Located url) (port : Str) :
    poolKeyPortPrefix ++ port ∈ poolKeys url ↔ port = url.port := by
  obtain ⟨h1, h2, h3, h4⟩ := poolKey_bytes
  rw [mem_poolKeys hloc, h1, h2, h3, h4]
  simp

end Keys

section Bitmaps

variable {getURL} {l : List ι} (hl : l.length ≤ 2 ^ 32) (hloc : ∀ i ∈ l, Located (getURL i))

include hl hloc

theorem pool_tag (tag : Str) : Represents (pool (β := β) getURL l (poolKeyTagPrefix ++ tag)) l
      fun i => tagOf (getURL i) = tag := by
  refine (index_spec _ hl _).congr fun i hi => ?_
  rw [decide_eq_decide, tagKey_mem_poolKeys (hloc i hi), eq_comm]

theorem pool_untagged : Represents (pool (β := β) getURL l poolKeyTagPrefix) l fun i => tagOf (getURL i) = [] := by
  have h := pool_tag (β := β) hl hloc []
  rwa [append_nil] at h

theorem pool_addr (addr : Str) : Represents (pool (β := β) getURL l (poolKeyAddrPrefix ++ addr)) l
      fun i => addr = (getURL i).location := by
  refine (index_spec _ hl _).congr fun i hi => ?_
  rw [decide_eq_decide, addrKey_mem_poolKeys (hloc i hi)]

theorem pool_port (port : Str) : Represents (pool (β := β) getURL l (poolKeyPortPrefix ++ port)) l
      fun i => port = (getURL i).port := by
  refine (index_spec _ hl _).congr fun i hi => ?_
  rw [decide_eq_decide, portKey_mem_poolKeys (hloc i hi)]

end Bitmaps

section Collect

variable {l : List ι} {p q : ι → Bool} {bm : Option β}

theorem orMissing_indexes {b : β} (hb : Indexes b l p) (hbm : Represents bm l q) :
    Indexes (orMissing b bm) l fun i => p i || q i := by
  cases bm with
  | some c => exact hb.or hbm
  | none => exact hb.congr fun i hi => by rw [hbm i hi, Bool.or_false]

theorem collectInvokers_eq (h : Represents bm l p) (hl : l.length ≤ 2 ^ 32) : collectInvokers l bm = l.filter p := by
  cases bm with
  | none => exact (List.filter_eq_nil_iff.2 fun i hi => by simp [h i hi]).symm
  | some b =>
    rw [collectInvokers, Indexes.isEmpty_eq h hl]
    split_ifs with hempty
    · exact (List.isEmpty_iff.1 hempty).symm
    · exact Indexes.collect_eq h hl

theorem hasInvokers_eq (h : Represents bm l p) (hl : l.length ≤ 2 ^ 32) : hasInvokers bm = l.any p := by
  rw [Bool.eq_iff_iff]
  cases bm with
  | none => simpa [hasInvokers] using fun i hi => h i hi
  | some b =>
    rw [hasInvokers, Indexes.isEmpty_eq h hl]
    simp

end Collect

theorem addressed_singleton (addr : Str) (url : URL) : addressed [addr] url = (decide (addr = url.location) ||
      decide (addr = anyHostValue ++ keySeparator ++ url.port)) := by
  rw [addressed, any_cons, any_nil, Bool.or_false, Bool.decide_or]

section Evaluate

variable {getURL} {l : List ι} (hl : l.length ≤ 2 ^ 32) (hloc : ∀ i ∈ l, Located (getURL i)) {b : β} {p : ι → Bool}

include hl hloc

theorem addAddressBM_indexes (hb : Indexes b l p) (addr : Str) : Indexes (addAddressBM (pool getURL l) b addr) l
      fun i => p i || addressed [addr] (getURL i) := by
  have haddr := orMissing_indexes hb (pool_addr (β := β) hl hloc addr)
  -- the wildcard address of an invoker splits into the wildcard host and the port of the invoker
  have hsplit : ∀ i ∈ l, addr = anyHostValue ++ keySeparator ++ (getURL i).port →
      splitAddress addr = some (anyHostValue, (getURL i).port) := by
    intro i hi heq
    obtain ⟨host, -, -, hport⟩ := hloc i hi
    rw [heq]
    exact splitAddress_append (by decide) hport
  unfold addAddressBM
  split
  · rename_i host port hs
    split_ifs with hany
    · refine (orMissing_indexes haddr (pool_port (β := β) hl hloc port)).congr fun i hi => ?_
      have hiff : port = (getURL i).port ↔ addr = anyHostValue ++ keySeparator ++ (getURL i).port := by
        constructor
        · rintro rfl
          rw [eq_of_splitAddress hs, hany]
        · intro heq
          have := hsplit i hi heq
          rw [hs] at this
          exact (Prod.mk.inj (some.inj this)).2
      rw [addressed_singleton, Bool.or_assoc, decide_eq_decide.2 hiff]
    · refine haddr.congr fun i hi => ?_
      rw [addressed_singleton, decide_eq_false (p := addr = anyHostValue ++ _ ++ _), Bool.or_false]
      intro heq
      have := hsplit i hi heq
      rw [hs] at this
      exact hany (Prod.mk.inj (some.inj this)).1
  · rename_i hs
    refine haddr.congr fun i hi => ?_
    rw [addressed_singleton, decide_eq_false (p := addr = anyHostValue ++ _ ++ _), Bool.or_false]
    intro heq
    rw [hsplit i hi heq] at hs
    cases hs

theorem addressesBM_indexes (addrs : List Str) : Indexes (addressesBM (pool (β := β) getURL l) addrs) l
      fun i => addressed addrs (getURL i) := by
  induction addrs using reverseRecOn with
  | nil => exact Indexes.newBitmap
  | append_singleton addrs addr ih =>
    rw [addressesBM, foldl_append, ← addressesBM]
    exact (addAddressBM_indexes hl hloc ih addr).congr fun i _ => any_append.symm

theorem staticTag_eq_collect (url : URL) (inv : RPCInvocation) : staticTag getURL l url inv =
      .ok (collectInvokers l (staticTagMatchBM (pool (β := β) getURL l) (requestedTag url inv) url inv)) := by
  have htagged := pool_tag (β := β) hl hloc (requestedTag url inv)
  have huntagged := pool_untagged (β := β) hl hloc
  rw [staticTag_eq, staticTagMatchBM, hasInvokers_eq htagged hl]
  by_cases htag : requestedTag url inv = []
  · rw [htag, ite_self, if_neg (fun h => h rfl), collectInvokers_eq huntagged hl]
  · rw [if_pos htag]
    by_cases hany : (l.any fun i => tagOf (getURL i) = requestedTag url inv) = true
    · rw [if_pos (.inr hany), if_pos hany, collectInvokers_eq htagged hl]
    · rw [if_neg hany]
      by_cases hforce : requestIsForce url inv = true
      · -- the request insists on a tag that no invoker has
        rw [if_pos (.inl hforce), if_pos hforce, collectInvokers]
        congr 1
        exact List.filter_eq_nil_iff.2 fun i hi hp => hany (List.any_eq_true.2 ⟨i, hi, hp⟩)
      · rw [if_neg (not_or.2 ⟨hforce, hany⟩), if_neg hforce, collectInvokers_eq huntagged hl]

/-- The bitmap and the list lose the same invokers to a tag. -/
theorem removeAddressed_step (hb : Indexes b l p) (tagCfg : TagEntry) :
    ∃ q, Indexes (removeAddressedBM (pool getURL l) b tagCfg) l q ∧
      removeAddressed getURL (l.filter p) tagCfg = .ok (l.filter q) := by
  unfold removeAddressedBM removeAddressed
  by_cases ha : tagCfg.addresses.length = 0
  · rw [if_pos ha, if_pos ha]
    exact ⟨p, hb, rfl⟩
  · rw [if_neg ha, if_neg ha, filter_unaddressed, List.filter_filter]
    have haddr := addressesBM_indexes (β := β) hl hloc tagCfg.addresses
    dsimp only
    split_ifs with hempty
    · -- no invoker has one of the addresses
      rw [haddr.isEmpty_eq hl, List.isEmpty_iff, List.filter_eq_nil_iff] at hempty
      exact ⟨p, hb, congrArg _ (List.filter_congr fun i hi => by simp [hempty i hi])⟩
    · refine ⟨_, hb.clone.andNot haddr, congrArg _ (List.filter_congr fun i _ => ?_)⟩
      exact Bool.and_comm _ _

theorem removeAddressed_run (hb : Indexes b l p) (tags : List TagEntry) :
    ∃ q, Indexes (tags.foldl (removeAddressedBM (pool getURL l)) b) l q ∧
      tags.foldlM (removeAddressed getURL) (l.filter p) = .ok (l.filter q) := by
  induction tags generalizing b p with
  | nil => exact ⟨p, hb, rfl⟩
  | cons tagCfg tags ih =>
    obtain ⟨q, hq, hstep⟩ := removeAddressed_step hl hloc hb tagCfg
    rw [foldl_cons, foldlM_cons, hstep]
    exact ih hq

theorem requestEmptyTag_eq_collect (cfg : RouterConfig) : requestEmptyTag getURL l cfg =
      .ok (collectInvokers l (emptyTagMatchBM (pool (β := β) getURL l) cfg)) := by
  have huntagged := pool_untagged (β := β) hl hloc
  have hcollect := collectInvokers_eq huntagged hl
  unfold requestEmptyTag emptyTagMatchBM
  rw [filter_tagged]
  simp only [bind, Except.bind, pure, Except.pure]
  cases hbm : pool (β := β) getURL l poolKeyTagPrefix with
  | none =>
    rw [hbm] at hcollect
    rw [← hcollect]
    rfl
  | some b =>
    rw [hbm] at huntagged hcollect
    have hempty := Indexes.isEmpty_eq huntagged hl
    by_cases hnil : (l.filter fun i => tagOf (getURL i) = []) = []
    · rw [if_pos (by rw [hnil]; rfl)]
      dsimp only
      rw [hempty, hnil, if_pos isEmpty_nil, hcollect, hnil]
    · obtain ⟨q, hq, hfold⟩ := removeAddressed_run hl hloc huntagged cfg.tags
      rw [if_neg (by simpa using hnil), hfold]
      dsimp only
      rw [hempty, if_neg (by simpa using hnil)]
      exact congrArg _ (collectInvokers_eq (show Represents (some _) l q from hq) hl).symm

end Evaluate

/-! ## The entry of a tag -/

/-- `requestTagMatchBM` gives no bitmap for the entry and leaves the request to `requestTag`: the
entry has match rules, or the bitmap that it asks for is missing. -/
def Entry.fallsBack (entry : Entry) (force : Bool) (tag : Str) (urls : List URL) : Bool :=
  decide (entry.rules ≠ []) ||
    !urls.any (entry.selects matchString tag) &&
      if force then decide (entry.addresses = []) else !urls.any fun url => tagOf url = []

/-- The answer of `requestTagMatchBM` for the entry is no bitmap, or the bitmap of the invokers that
the entry keeps. -/
def Entry.BitmapOf (entry : Entry) (force : Bool) (tag : Str) (l : List ι) (bm : Option β) : Prop :=
  match bm with
  | none => entry.fallsBack matchString force tag (l.map getURL) = true
  | some b => entry.fallsBack matchString force tag (l.map getURL) = false ∧
      Indexes b l fun i => entry.keeps matchString force tag (l.map getURL) (getURL i)

section Entries

variable {getURL} {l : List ι} (hl : l.length ≤ 2 ^ 32) (hloc : ∀ i ∈ l, Located (getURL i)) {ent : Entry}

include hloc

theorem isSome_pool_tag (tag : Str) : (pool (β := β) getURL l (poolKeyTagPrefix ++ tag)).isSome =
      (l.map getURL).any fun url => tagOf url = tag := by
  rw [pool, isSome_index, List.any_map, Bool.eq_iff_iff, List.any_eq_true, List.any_eq_true]
  refine exists_congr fun i => and_congr_right fun hi => ?_
  simp [tagKey_mem_poolKeys (hloc i hi), eq_comm]

include hl

theorem resultBM_represents (hrules : ent.rules = []) (tag : Str) :
    Represents (if ent.addresses.length ≠ 0 then
        some (addressesBM (pool (β := β) getURL l) ent.addresses)
      else pool getURL l (poolKeyTagPrefix ++ tag)) l
      fun i => ent.selects matchString tag (getURL i) := by
  by_cases ha : ent.addresses = []
  · rw [if_neg (by simp [ha])]
    refine (pool_tag hl hloc tag).congr fun i _ => ?_
    simp [Entry.selects, hrules, ha]
  · rw [if_pos (by simp [ha])]
    refine (addressesBM_indexes hl hloc ent.addresses).congr fun i _ => ?_
    simp [Entry.selects, hrules, ha]

theorem requestEntryBM_forced (hrules : ent.rules = []) (tag : Str) : ent.BitmapOf matchString getURL true tag l
      (requestEntryBM (pool (β := β) getURL l) true ent tag) := by
  have hres := resultBM_represents (β := β) matchString hl hloc hrules tag
  have htag := isSome_pool_tag (β := β) hloc tag
  have hkeeps : (fun i => ent.keeps matchString true tag (l.map getURL) (getURL i)) =
      fun i => ent.selects matchString tag (getURL i) := by
    funext i
    rw [Entry.keeps, Bool.true_or, if_pos rfl]
  unfold requestEntryBM Entry.BitmapOf
  rw [if_neg (by simp [hrules]), hkeeps]
  rw [if_pos rfl]
  by_cases ha : ent.addresses = []
  · have hsel : (fun url => decide (tagOf url = tag)) = ent.selects matchString tag := by
      funext url
      simp [Entry.selects, hrules, ha]
    rw [hsel] at htag
    rw [if_neg (by simp [ha])] at hres ⊢
    cases hb : pool (β := β) getURL l (poolKeyTagPrefix ++ tag) with
    | none =>
      rw [hb, isSome_none] at htag
      simp [Entry.fallsBack, ha, ← htag]
    | some b =>
      rw [hb] at hres htag
      exact ⟨by simp [Entry.fallsBack, hrules, ← htag], hres⟩
  · rw [if_pos (by simp [ha])] at hres ⊢
    exact ⟨by simp [Entry.fallsBack, hrules, ha], hres⟩

theorem failoverBM_spec (hrules : ent.rules = []) {tag : Str}
    (hsel : (l.map getURL).any (ent.selects matchString tag) = false) :
    ent.BitmapOf matchString getURL false tag l
      (match pool (β := β) getURL l poolKeyTagPrefix with
      | none => none
      | some emptyBM =>
        if ent.addresses.length = 0 then some emptyBM
        else some (Bitmap.andNot (Bitmap.clone emptyBM)
          (addressesBM (pool (β := β) getURL l) ent.addresses))) := by
  have huntagged := pool_untagged (β := β) hl hloc
  have hsome := isSome_pool_tag (β := β) hloc []
  rw [append_nil] at hsome
  cases hb : pool (β := β) getURL l poolKeyTagPrefix with
  | none =>
    rw [hb, isSome_none] at hsome
    simp [Entry.BitmapOf, Entry.fallsBack, hsel, ← hsome]
  | some b =>
    rw [hb] at huntagged hsome
    have hfalls : ent.fallsBack matchString false tag (l.map getURL) = false := by
      simp [Entry.fallsBack, hrules, ← hsome]
    have hkeeps : ∀ i, ent.keeps matchString false tag (l.map getURL) (getURL i) =
        (decide (tagOf (getURL i) = []) && !addressed ent.addresses (getURL i)) := fun i => by
      rw [Entry.keeps, hsel, Bool.false_or, if_neg Bool.false_ne_true]
    dsimp only
    by_cases ha : ent.addresses = []
    · rw [if_pos (by simp [ha])]
      refine ⟨hfalls, Indexes.congr huntagged fun i _ => ?_⟩
      rw [hkeeps, ha]
      simp [addressed]
    · rw [if_neg (by simp [ha])]
      refine ⟨hfalls, Indexes.congr (Indexes.andNot (Indexes.clone huntagged)
        (addressesBM_indexes hl hloc ent.addresses)) fun i _ => (hkeeps i).symm⟩

theorem requestEntryBM_unforced (hrules : ent.rules = []) (tag : Str) : ent.BitmapOf matchString getURL false tag l
      (requestEntryBM (pool (β := β) getURL l) false ent tag) := by
  have hres := resultBM_represents (β := β) matchString hl hloc hrules tag
  have hmap : (l.any fun i => ent.selects matchString tag (getURL i)) =
      (l.map getURL).any (ent.selects matchString tag) := by
    rw [List.any_map]
    rfl
  have hany := (hasInvokers_eq hres hl).trans hmap
  unfold requestEntryBM
  rw [if_neg (by simp [hrules])]
  rw [if_neg Bool.false_ne_true, hany]
  by_cases hsel : (l.map getURL).any (ent.selects matchString tag) = true
  · rw [if_pos hsel]
    rw [hsel] at hany
    unfold Entry.BitmapOf
    split
    · rename_i hnone
      rw [hnone] at hany
      cases hany
    · rename_i b hb
      rw [hb] at hres
      refine ⟨by simp [Entry.fallsBack, hrules, hsel], Indexes.congr hres fun i _ => ?_⟩
      rw [Entry.keeps, hsel, Bool.false_or, if_pos rfl]
  · rw [if_neg hsel]
    exact failoverBM_spec matchString hl hloc hrules (Bool.eq_false_iff.2 hsel)

theorem requestEntryBM_spec (force : Bool) (ent : Entry) (tag : Str) : ent.BitmapOf matchString getURL force tag l
      (requestEntryBM (pool (β := β) getURL l) force ent tag) := by
  by_cases hrules : ent.rules = []
  · cases force with
    | true => exact requestEntryBM_forced matchString hl hloc hrules tag
    | false => exact requestEntryBM_unforced matchString hl hloc hrules tag
  · simp [requestEntryBM, Entry.BitmapOf, Entry.fallsBack, hrules]

end Entries

/-! ## The two paths -/

/-- The first and the last entry with the name of the tag lead to the same invokers: the first one leaves the request
to `requestTag`, or the rules of the last one can be evaluated and both keep the same. -/
def EntriesAgree (cfg : RouterConfig) (force : Bool) (tag : Str) (urls : List URL) : Prop :=
  (firstEntry cfg tag).fallsBack matchString force tag urls = true ∨
    ∀ url ∈ urls, (lastEntry cfg tag).Evaluates matchString url ∧
      (firstEntry cfg tag).keeps matchString force tag urls url =
        (lastEntry cfg tag).keeps matchString force tag urls url

theorem filter_eq_filter_iff {α : Type} {l : List α} {p q : α → Bool} :
    l.filter p = l.filter q ↔ ∀ a ∈ l, p a = q a := by
  refine ⟨fun h a ha => ?_, List.filter_congr⟩
  have hmem : a ∈ l.filter p ↔ a ∈ l.filter q := by rw [h]
  rw [mem_filter, mem_filter] at hmem
  rw [Bool.eq_iff_iff]
  exact ⟨fun hp => (hmem.1 ⟨ha, hp⟩).2, fun hq => (hmem.2 ⟨ha, hq⟩).2⟩

variable {cfg : RouterConfig} {l : List ι}

theorem firstEntry_eq_lastEntry (h : (cfg.tags.map (·.name)).Nodup) (tag : Str) :
    firstEntry cfg tag = lastEntry cfg tag := by
  -- the loop of `requestTag` starts from what it has found before
  suffices hgen : ∀ (tags : List TagEntry) (e : Entry), (tags.map (·.name)).Nodup →
      (match tags.find? fun tagCfg => tagCfg.name = tag with
        | some tagCfg => ⟨tagCfg.addresses, tagCfg.rules⟩
        | none => e) =
      tags.foldl (fun e tagCfg =>
        if tagCfg.name = tag then ⟨tagCfg.addresses, tagCfg.rules⟩ else e) e from hgen _ _ h
  intro tags
  induction tags with
  | nil => exact fun e _ => rfl
  | cons t tags ih =>
    intro e hnodup
    rw [map_cons, nodup_cons] at hnodup
    by_cases ht : t.name = tag
    · have hnone : tags.find? (fun tagCfg => tagCfg.name = tag) = none := by
        refine find?_eq_none.2 fun u hu hname => hnodup.1 ?_
        rw [ht, ← of_decide_eq_true hname]
        exact mem_map_of_mem hu
      have := ih ⟨t.addresses, t.rules⟩ hnodup.2
      rw [hnone] at this
      simpa [ht] using this
    · simpa [ht] using ih e hnodup.2

theorem entriesAgree_of_nodup (h : (cfg.tags.map (·.name)).Nodup) (force : Bool) (tag : Str) (urls : List URL) :
    EntriesAgree matchString cfg force tag urls := by
  unfold EntriesAgree
  rw [firstEntry_eq_lastEntry h]
  by_cases hrules : (lastEntry cfg tag).rules = []
  · exact .inr fun url _ => ⟨Entry.evaluates_of_no_rules matchString hrules url, rfl⟩
  · exact .inl (by simp [Entry.fallsBack, hrules])

section Paths

variable {getURL} {l : List ι} (hl : l.length ≤ 2 ^ 32) (hloc : ∀ i ∈ l, Located (getURL i))

include hl hloc

theorem requestTagMatchBM_agrees_iff (cfg : RouterConfig) (tag : Str) (url : URL)
    (inv : RPCInvocation) :
    (match requestTagMatchBM (pool (β := β) getURL l) url inv cfg tag with
      | none => requestTag matchString getURL l url inv cfg tag
      | some bm => .ok (collectInvokers l (some bm))) = requestTag matchString getURL l url inv cfg tag ↔
      EntriesAgree matchString cfg (isForced url inv cfg) tag (l.map getURL) := by
  have hspec := requestEntryBM_spec (β := β) matchString hl hloc (isForced url inv cfg) (firstEntry cfg tag) tag
  rw [requestTagMatchBM, EntriesAgree]
  cases hbm : requestEntryBM (pool (β := β) getURL l) (isForced url inv cfg) (firstEntry cfg tag) tag with
  | none =>
    rw [hbm] at hspec
    exact ⟨fun _ => .inl hspec, fun _ => rfl⟩
  | some b =>
    rw [hbm] at hspec
    obtain ⟨hfalls, hidx⟩ := hspec
    dsimp only
    rw [hfalls, or_iff_right Bool.false_ne_true, requestTag,
      collectInvokers_eq (show Represents (some b) l _ from hidx) hl]
    by_cases hev : ∀ i ∈ l, (lastEntry cfg tag).Evaluates matchString (getURL i)
    · rw [requestEntry_ok matchString getURL _ tag hev, Except.ok.injEq, filter_eq_filter_iff, List.forall_mem_map]
      exact forall₂_congr fun i hi => (and_iff_right (hev i hi)).symm
    · obtain ⟨e, he⟩ := requestEntry_error matchString getURL (isForced url inv cfg) tag hev
      rw [he]
      refine ⟨fun h => ?_, fun h => absurd (fun i hi => ?_) hev⟩
      · cases h
      · exact (h _ (mem_map_of_mem hi)).1

end Paths

/-- The entries of the rule for the list agree, if the request has a tag and the rule is in force.
The rule is that of the application of the first invoker. -/
def RuleAgrees (routerConfigs : RouterConfigs) (l : List ι) (url : URL) (invocation : RPCInvocation) : Prop :=
  ∀ invoker ∈ l.head?, ∀ cfg ∈ routerConfigs (ruleKey (getURL invoker)), cfg.inForce = true →
    requestedTag url invocation ≠ [] →
      EntriesAgree matchString cfg (isForced url invocation cfg) (requestedTag url invocation) (l.map getURL)

theorem routeWithPool_eq_iff (routerConfigs : RouterConfigs) (hl : l.length ≤ 2 ^ 32)
    (hloc : ∀ i ∈ l, Located (getURL i)) (url : URL) (invocation : RPCInvocation) :
    routeWithPool matchString getURL routerConfigs l (pool (β := β) getURL l) url invocation =
        routeDirectly matchString getURL routerConfigs l url invocation ↔
      RuleAgrees matchString getURL routerConfigs l url invocation := by
  cases l with
  | nil => simp [routeWithPool, routeDirectly, RuleAgrees]
  | cons invoker rest =>
    have hstatic := staticTag_eq_collect (β := β) hl hloc url invocation
    unfold routeWithPool routeDirectly RuleAgrees
    simp only [head?_cons, mem_def, some.injEq, forall_eq']
    cases hcfg : routerConfigs (ruleKey (getURL invoker)) with
    | none => simp [hstatic]
    | some cfg =>
      simp only [some.injEq, forall_eq']
      by_cases hin : cfg.inForce = true
      · rw [if_pos hin, if_pos hin, dynamicTag]
        by_cases htag : requestedTag url invocation = []
        · have hempty := requestEmptyTag_eq_collect (β := β) hl hloc cfg
          simp [htag, hempty]
        · rw [if_neg htag, if_neg htag, requestTagMatchBM_agrees_iff matchString hl hloc]
          exact ⟨fun h _ _ => h, fun h => h hin htag⟩
      · simp [hin, hstatic]

/-- The fast path returns what the direct evaluation returns exactly when the first and the last entry with the name
of the requested tag lead to the same invokers, and so for rules that name each tag once. -/
theorem pool_refines_direct_iff (routerConfigs : RouterConfigs) {l : List ι}
    (hl : l.length ≤ 2 ^ 32) (hloc : ∀ i ∈ l, Located (getURL i)) (url : URL) (invocation : RPCInvocation) :
    (routeWithPool matchString getURL routerConfigs l (pool (β := β) getURL l) url invocation =
        routeDirectly matchString getURL routerConfigs l url invocation ↔
      RuleAgrees matchString getURL routerConfigs l url invocation) ∧
    ((∀ key, ∀ cfg ∈ routerConfigs key, (cfg.tags.map (·.name)).Nodup) →
      routeWithPool matchString getURL routerConfigs l (pool (β := β) getURL l) url invocation =
        routeDirectly matchString getURL routerConfigs l url invocation) := by
  have hiff := routeWithPool_eq_iff (β := β) matchString getURL routerConfigs hl hloc url invocation
  refine ⟨hiff, fun h => hiff.2 ?_⟩
  intro _ _ cfg hcfg _ _
  exact entriesAgree_of_nodup matchString (h _ cfg hcfg) _ _ _

theorem collectInvokers_subset (l : List ι) (bm : Option β) : collectInvokers l bm ⊆ l := by
  intro i hi
  unfold collectInvokers at hi
  split at hi
  · cases hi
  · split at hi
    · cases hi
    · obtain ⟨k, -, hk⟩ := mem_filterMap.1 hi
      exact mem_of_getElem? hk

theorem routeWithPool_subset {cfgs : RouterConfigs} {res : List ι} {pool : AddrPool β} {url : URL}
    {inv : RPCInvocation} (h : routeWithPool matchString getURL cfgs l pool url inv = .ok res) : res ⊆ l := by
  cases l with
  | nil =>
    obtain rfl := Except.ok.inj h
    exact List.Subset.refl _
  | cons ivk rest =>
    unfold routeWithPool at h
    dsimp only at h
    split at h
    · obtain rfl := Except.ok.inj h
      exact collectInvokers_subset _ _
    · rename_i cfg _
      split_ifs at h
      · obtain rfl := Except.ok.inj h
        exact collectInvokers_subset _ _
      · split at h
        · -- the direct evaluation of the last entry
          rw [requestTag] at h
          by_cases hev : ∀ i ∈ ivk :: rest, (lastEntry cfg (requestedTag url inv)).Evaluates matchString (getURL i)
          · rw [requestEntry_ok matchString getURL _ _ hev] at h
            obtain rfl := Except.ok.inj h
            exact filter_sublist.subset
          · obtain ⟨e, he⟩ := requestEntry_error matchString getURL (isForced url inv cfg) (requestedTag url inv) hev
            rw [he] at h
            cases h
        · obtain rfl := Except.ok.inj h
          exact collectInvokers_subset _ _
      · obtain rfl := Except.ok.inj h
        exact collectInvokers_subset _ _

def providerAt (ip : Str) : URL := .ofProvider ip (str "20000")

def twoProviders : Fin 2 → URL
  | 0 => providerAt (str "1.1.1.1")
  | 1 => providerAt (str "1.1.1.2")

/-- A rule in force with entries `gray` for the addresses. -/
def grayRule (entries : List (List Str)) : RouterConfigs := fun _ =>
  some
    { force := none, enabled := none, valid := none
      tags := entries.map fun addresses => ⟨str "gray", [], addresses⟩ }

/-- A request with the tag `gray`. -/
def grayRequest : RPCInvocation :=
  .new [] [] fun key => if key = tagKey then some (.text (str "gray")) else none

theorem located_twoProviders : ∀ i ∈ [0, 1], Located (twoProviders i) := by
  intro i _
  fin_cases i
  · exact ⟨str "1.1.1.1", by decide, by decide, by decide⟩
  · exact ⟨str "1.1.1.2", by decide, by decide, by decide⟩

/-- A tag that the rule names twice: the fast path takes the first entry and the direct evaluation
the last one. -/
theorem repeated_tag_diverges : (∀ i ∈ [0, 1], Located (twoProviders i)) ∧
    routeWithPool (fun _ _ => false) twoProviders
        (grayRule [[str "1.1.1.1:20000"], [str "1.1.1.2:20000"]]) [0, 1]
        (pool (β := Finset UInt32) twoProviders [0, 1]) (providerAt []) grayRequest = .ok [0] ∧
      routeDirectly (fun _ _ => false) twoProviders
        (grayRule [[str "1.1.1.1:20000"], [str "1.1.1.2:20000"]]) [0, 1] (providerAt [])
        grayRequest = .ok [1] := by
  refine ⟨located_twoProviders, ?_, rfl⟩
  decide +kernel

/-- A rule with one entry for a tag is evaluated alike on both paths. -/
theorem gray_entry_agrees :
    routeWithPool (fun _ _ => false) twoProviders (grayRule [[str "1.1.1.2:20000"]]) [0, 1]
        (pool (β := Finset UInt32) twoProviders [0, 1]) (providerAt []) grayRequest =
      routeDirectly (fun _ _ => false) twoProviders (grayRule [[str "1.1.1.2:20000"]]) [0, 1]
        (providerAt []) grayRequest := by
  refine (pool_refines_direct_iff (fun _ _ => false) twoProviders _ (by decide) located_twoProviders
    _ _).2 fun key cfg hcfg => ?_
  obtain rfl := some.inj hcfg
  decide

end DubboGo.Router.Tag
