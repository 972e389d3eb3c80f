import DubboGo.Common.ServiceURL
import DubboGo.Go.Memory
import DubboGo.Lib.KeyedLoop

/-!
# Merging URLs in memory

`Clone` and `MergeURL` of `common/url.go`, with the maps and slices that they allocate and write to.  The merged URL
is a clone of the provider's whose parameters are overwritten from the reference's.
-/

namespace DubboGo.Common

open Go Lib List Function

/-! ## The values that are merged -/

namespace Values

def fillEntry (v : Values) (e : Str × List Str) : Values :=
  if v.get e.1 = [] ∧ e.2 ≠ [] then Function.update v e.1 (some e.2) else v

def takeOver (other v : Values) (key : Str) : Values :=
  if other.get key ≠ [] then Function.update v key (some [other.get key]) else v

def takeOverMethod (other v : Values) (method : Str) : Values :=
  ServiceURL.mergedKeys.foldl (fun v key => takeOver other (takeOver other v key) (URL.methodKey method key)) v

/-- The parameters of the provider, and those of the reference that it has no value for. -/
def fill (base other : Values) : Values := fun k =>
  if base.get k = [] ∧ (other k).getD [] ≠ [] then other k else base k

def setTimestamps (base other v : Values) : Values :=
  if base.get timestampKey = [] then
    Function.update (Function.update v remoteTimestampKey (some [[]])) timestampKey (some [other.get timestampKey])
  else v

def merge (base other : Values) (methods : List Str) : Values :=
  methods.foldl (takeOverMethod other) (setTimestamps base other (fill base other))

variable {base other v : Values} {k : Str} {order : List (Str × List Str)}

theorem get_update (v : Values) (key : Str) (vs : List Str) (k : Str) :
    Values.get (update v key (some vs)) k = if k = key then vs.headD [] else v.get k := by
  unfold get
  rw [update_apply]
  split_ifs <;> rfl

theorem get_takeOver (other v : Values) (key k : Str) :
    (takeOver other v key).get k = if k = key ∧ other.get k ≠ [] then other.get k else v.get k := by
  unfold takeOver
  by_cases hother : other.get key = []
  · rw [if_neg (not_not.2 hother), if_neg]
    rintro ⟨rfl, hne⟩
    exact hne hother
  · rw [if_pos hother, get_update]
    by_cases hk : k = key
    · subst hk
      rw [if_pos rfl, if_pos ⟨rfl, hother⟩]
      rfl
    · rw [if_neg hk, if_neg fun h => hk h.1]

theorem get_foldl_takeOver (other : Values) (keys : List Str) (v : Values) (k : Str) :
    (keys.foldl (takeOver other) v).get k =
      if k ∈ keys ∧ other.get k ≠ [] then other.get k else v.get k := by
  induction keys generalizing v with
  | nil => rw [foldl_nil, if_neg fun h => absurd h.1 not_mem_nil]
  | cons key keys ih =>
    rw [foldl_cons, ih, get_takeOver]
    by_cases hother : other.get k = []
    · simp [hother]
    · by_cases hmem : k ∈ keys
      · simp [hother, hmem]
      · simp [hother, hmem]

def takenKeys (methods : List Str) : List Str :=
  methods.flatMap fun method => ServiceURL.mergedKeys.flatMap fun key => [key, URL.methodKey method key]

theorem foldl_takeOverMethod (other : Values) (meths : List Str) (v : Values) :
    meths.foldl (takeOverMethod other) v = (takenKeys meths).foldl (takeOver other) v := by
  rw [takenKeys, foldl_flatMap]
  rfl

theorem mem_takenKeys {meths : List Str} : k ∈ takenKeys meths ↔ (meths ≠ [] ∧ k ∈ ServiceURL.mergedKeys) ∨
      ∃ meth ∈ meths, ∃ key ∈ ServiceURL.mergedKeys, k = URL.methodKey meth key := by
  simp only [takenKeys, mem_flatMap, mem_cons, not_mem_nil, or_false]
  constructor
  · rintro ⟨meth, hmethod, key, hkey, rfl | rfl⟩
    · exact .inl ⟨ne_nil_of_mem hmethod, hkey⟩
    · exact .inr ⟨meth, hmethod, key, hkey, rfl⟩
  · rintro (⟨hmethods, hkey⟩ | ⟨meth, hmethod, key, hkey, rfl⟩)
    · obtain ⟨meth, hmethod⟩ := exists_mem_of_ne_nil _ hmethods
      exact ⟨meth, hmethod, k, hkey, .inl rfl⟩
    · exact ⟨meth, hmethod, key, hkey, .inr rfl⟩

theorem get_fill (base other : Values) (k : Str) :
    (fill base other).get k = if base.get k = [] then other.get k else base.get k := by
  by_cases hbase : base.get k = []
  · rw [if_pos hbase]
    by_cases hother : (other k).getD [] = []
    · have hfill : fill base other k = base k := if_neg fun h => h.2 hother
      have hget : other.get k = [] := by
        rw [get, hother]
        rfl
      rw [hget, get, hfill]
      exact hbase
    · have hfill : fill base other k = other k := if_pos ⟨hbase, hother⟩
      rw [get, hfill, get]
  · have hfill : fill base other k = base k := if_neg fun h => hbase h.1
    rw [if_neg hbase, get, hfill, get]

theorem get_merge (meths : List Str) (ht : k ≠ timestampKey) (hr : k ≠ remoteTimestampKey) :
    (merge base other meths).get k =
      if k ∈ takenKeys meths ∧ other.get k ≠ [] then other.get k
      else if base.get k = [] then other.get k else base.get k := by
  rw [merge, foldl_takeOverMethod, get_foldl_takeOver, ← get_fill]
  congr 1
  unfold setTimestamps
  split_ifs
  · rw [get_update, if_neg ht, get_update, if_neg hr]
  · rfl

theorem get_merge_remoteTimestamp {base : Values} (h : base.get timestampKey ≠ []) (other : Values) (meths : List Str) :
    (merge base other meths).get remoteTimestampKey =
      if base.get remoteTimestampKey = [] then other.get remoteTimestampKey else base.get remoteTimestampKey := by
  rw [merge, foldl_takeOverMethod, get_foldl_takeOver, setTimestamps, if_neg h, get_fill, if_neg]
  rintro ⟨htaken, -⟩
  obtain ⟨-, hmem⟩ | ⟨meth, -, key, -, heq⟩ := mem_takenKeys.1 htaken
  · exact absurd hmem (by decide)
  · exact ServiceURL.ne_methodKey (by decide) meth key heq

theorem foldl_fillEntry (hnodup : (order.map Prod.fst).Nodup)
    (horder : ∀ k vs, (k, vs) ∈ order ↔ other k = some vs) : order.foldl fillEntry base = fill base other := by
  have hself : ∀ (v : Values) (e : Str × List Str), fillEntry v e e.1 =
      if v.get e.1 = [] ∧ e.2 ≠ [] then some e.2 else v e.1 := by
    intro v e
    unfold fillEntry
    split_ifs
    · rw [update_self]
    · rfl
  have hother : ∀ (v : Values) (e : Str × List Str) (k : Str), k ≠ e.1 → fillEntry v e k = v k := by
    intro v e k hk
    unfold fillEntry
    split_ifs
    · rw [update_of_ne hk]
    · rfl
  funext k
  rw [fill]
  cases hk : other k with
  | some vs =>
    exact observe_foldl_of_mem (fun (v : Values) k => v k) fillEntry
      (fun _ old vs => if (old.getD []).headD [] = [] ∧ vs ≠ [] then some vs else old) hself hother hnodup
      ((horder k vs).2 hk) base
  | none =>
    have hnone : ∀ vs, (k, vs) ∉ order := by
      intro vs hmem
      rw [(horder k vs).1 hmem] at hk
      cases hk
    rw [if_neg fun h => h.2 rfl]
    exact observe_foldl_of_not_mem (fun (v : Values) k => v k) fillEntry hother hnone base

theorem foldl_update (hnodup : (order.map Prod.fst).Nodup) (horder : ∀ k vs, (k, vs) ∈ order ↔ other k = some vs) :
    order.foldl (fun (v : Values) e => update v e.1 (some e.2)) (fun _ => none) = other := by
  funext k
  cases hk : other k with
  | some vs =>
    exact observe_foldl_of_mem (fun (v : Values) k => v k) _ (fun _ _ vs => some vs)
      (fun v e => update_self _ _ _) (fun v e k hk => update_of_ne hk _ _) hnodup
      ((horder k vs).2 hk) _
  | none =>
    have hnone : ∀ vs, (k, vs) ∉ order := by
      intro vs hmem
      rw [(horder k vs).1 hmem] at hk
      cases hk
    exact observe_foldl_of_not_mem (fun (v : Values) k => v k) _ (fun v e k hk => update_of_ne hk _ _) hnone _

end Values

/-! ## URLs in memory -/

/-- `URL` with the addresses of its parameters, methods and attributes.  Of the sub-URL only the
parameters are read. -/
structure URLObject where
  protocol : Str
  username : Str
  password : Str
  location : Str
  ip : Str
  port : Str
  path : Str
  primitiveURL : Str
  primitiveTS : Str
  params : Option ℕ
  methods : ℕ
  attributes : Option ℕ
  subURL : Option (Option ℕ)

namespace URLObject

variable {α : Type} (mem : Memory Str Str α)

def copyInto (r : ℕ) (order : List (Str × ℕ)) (mem : Memory Str Str α) : Memory Str Str α :=
  order.foldl (fun mem e => mem.put r e.1 (mem.array e.2)) mem

/-- `copyFilteredParams` without a filter: more than eight parameters go to a map of their own
(`copyURLValues`), and fewer to the map that the new URL has. -/
def copyFilteredParams (params : ℕ) (order : List (Str × ℕ)) : ℕ × Memory Str Str α :=
  if order.length > 8 then (mem.newMap.1, copyInto mem.newMap.1 order mem.newMap.2)
  else (params, copyInto params order mem)

def cloneParams (order : List (Str × ℕ)) : ℕ × Memory Str Str α :=
  copyFilteredParams mem.newMap.2 mem.newMap.1 order

def cloneSubURL (subURL : Option (Option ℕ)) (order : List (Str × ℕ)) : Option (Option ℕ) × Memory Str Str α :=
  match subURL with
  | none => (none, mem)
  | some _ => (some (some (cloneParams mem order).1), (cloneParams mem order).2)

/-- `Clone`, with the orders in which it goes through the two maps. -/
def clone (c : URLObject) (order subOrder : List (Str × ℕ)) : URLObject × Memory Str Str α :=
  let (methods, mem) := mem.newArray (mem.array c.methods)
  let (attributes, mem) := mem.newRecord
  let (params, mem) := cloneParams mem order
  let mem := mem.addRecords attributes (mem.recordAt c.attributes)
  let (subURL, mem) := cloneSubURL mem c.subURL subOrder
  ({ c with params := some params, methods := methods, attributes := some attributes, subURL := subURL }, mem)

def fillEntry (r : ℕ) (mem : Memory Str Str α) (e : Str × ℕ) : Memory Str Str α :=
  if Values.get (mem.values (some r)) e.1 = [] ∧ mem.array e.2 ≠ [] then mem.put r e.1 (mem.array e.2)
  else mem

def takeOver (r : ℕ) (other : Option ℕ) (mem : Memory Str Str α) (key : Str) : Memory Str Str α :=
  if Values.get (mem.values other) key ≠ [] then mem.put r key [Values.get (mem.values other) key] else mem

def takeOverMethod (r : ℕ) (other : Option ℕ) (mem : Memory Str Str α) (method : Str) : Memory Str Str α :=
  ServiceURL.mergedKeys.foldl
    (fun mem key => takeOver r other (takeOver r other mem key) (URL.methodKey method key)) mem

def setTimestamps (r : ℕ) (other : Option ℕ) (baseTimestamp : Str) (mem : Memory Str Str α) : Memory Str Str α :=
  if baseTimestamp = [] then
    let mem := mem.put r remoteTimestampKey [baseTimestamp]
    mem.put r timestampKey [Values.get (mem.values other) timestampKey]
  else mem

/-- What `MergeURL` does to the parameters of the clone. -/
def mergeParams (r : ℕ) (other : URLObject) (order : List (Str × ℕ)) (mem : Memory Str Str α) : Memory Str Str α :=
  let baseTimestamp := Values.get (mem.values (some r)) timestampKey
  let mem := order.foldl (fillEntry r) mem
  let mem := setTimestamps r other.params baseTimestamp mem
  (mem.array other.methods).foldl (takeOverMethod r other.params) mem

/-- `MergeURL`, with the orders in which it goes through the maps.  A clone's parameters and attributes
are never nil. -/
def mergeURL (c other : URLObject) (order subOrder otherOrder : List (Str × ℕ)) : URLObject × Memory Str Str α :=
  let (mergedURL, mem) := clone mem c order subOrder
  let mem := mergeParams (mergedURL.params.getD 0) other otherOrder mem
  let (methods, mem) := mem.newArray (mem.array other.methods)
  let mem := mem.addRecords (mergedURL.attributes.getD 0) (mem.recordAt other.attributes)
  ({ mergedURL with methods := methods }, mem)

/-! ## What the functions do -/

section Owns

variable {mem} {bef : Memory Str Str α} {r : ℕ} {held : Values} {p : Option ℕ}

theorem owns_copyInto (w : bef.Walk p) (h : bef.Owns r mem fun _ => none) :
    bef.Owns r (copyInto r w.order mem) (bef.values p) := by
  have hloop := Memory.Owns.foldl w.order
    (fun mem e => mem.put r e.1 (mem.array e.2))
    (fun v e => update v e.1 (some (bef.array e.2)))
    (by
      intro mem held e he h
      rw [h.extends'.array_eq (w.lt he)]
      exact h.put e.1 _) h
  rw [← Values.foldl_update w.nodup_pairs fun _ _ => w.mem_pairs_iff, Memory.Walk.pairs, foldl_map]
  exact hloop

theorem owns_cloneParams (w : bef.Walk p) (h : bef.Extends mem) :
    bef.Owns (cloneParams mem w.order).1 (cloneParams mem w.order).2 (bef.values p) := by
  unfold cloneParams copyFilteredParams
  split_ifs
  · exact owns_copyInto w (Memory.Owns.newMap (h.trans (Memory.Extends.newMap mem)))
  · exact owns_copyInto w (Memory.Owns.newMap h)

theorem owns_fill (w : bef.Walk p) (h : bef.Owns r mem held) :
    bef.Owns r (w.order.foldl (fillEntry r) mem) (Values.fill held (bef.values p)) := by
  have hloop := Memory.Owns.foldl w.order (fillEntry r)
    (fun v e => Values.fillEntry v (e.1, bef.array e.2))
    (by
      intro mem held e he h
      unfold fillEntry Values.fillEntry
      rw [h.values_eq, h.extends'.array_eq (w.lt he)]
      split_ifs
      · exact h.put e.1 _
      · exact h) h
  rw [← Values.foldl_fillEntry w.nodup_pairs fun _ _ => w.mem_pairs_iff, Memory.Walk.pairs, foldl_map]
  exact hloop

section Other

variable {p : Option ℕ} (hp : bef.HasMap p)

include hp

theorem owns_takeOver (h : bef.Owns r mem held) (key : Str) :
    bef.Owns r (takeOver r p mem key) (Values.takeOver (bef.values p) held key) := by
  unfold takeOver Values.takeOver
  rw [h.extends'.values_eq hp]
  split_ifs
  · exact h.put key _
  · exact h

theorem owns_takeOverMethod (h : bef.Owns r mem held) (meth : Str) :
    bef.Owns r (takeOverMethod r p mem meth) (Values.takeOverMethod (bef.values p) held meth) :=
  Memory.Owns.foldl _ _ _ (fun _ _ _ _ h => owns_takeOver hp (owns_takeOver hp h _) _) h

theorem owns_setTimestamps (h : bef.Owns r mem held) (base : Values) :
    bef.Owns r (setTimestamps r p (base.get timestampKey) mem) (Values.setTimestamps base (bef.values p) held) := by
  unfold setTimestamps Values.setTimestamps
  dsimp only
  split_ifs with hbase
  · have hremote := h.put remoteTimestampKey [base.get timestampKey]
    rw [hremote.extends'.values_eq hp]
    rw [hbase] at hremote ⊢
    exact hremote.put timestampKey _
  · exact h

end Other

theorem owns_mergeParams {other : URLObject} (w : bef.Walk other.params)
    (hparams : bef.HasMap other.params) (hmethods : other.methods < bef.arrays.length) (h : bef.Owns r mem held) :
    bef.Owns r (mergeParams r other w.order mem)
      (Values.merge held (bef.values other.params) (bef.array other.methods)) := by
  have htimestamps := owns_setTimestamps hparams (owns_fill w h) held
  have hbase : mem.values (some r) = held := h.values_eq
  unfold mergeParams Values.merge
  dsimp only
  rw [hbase, htimestamps.extends'.array_eq hmethods]
  exact Memory.Owns.foldl _ _ _ (fun _ _ meth _ h => owns_takeOverMethod hparams h meth) htimestamps

end Owns

/-! ## The merged URL -/

structure InMemory (mem : Memory Str Str α) (u : URLObject) : Prop where
  params : mem.HasMap u.params
  methods : u.methods < mem.arrays.length
  attributes : mem.HasRecord u.attributes
  subURL : mem.HasMap u.subURL.join

/-- What a URL has in memory: its parameters, methods and attributes, and the parameters of its sub-URL. -/
def contents (mem : Memory Str Str α) (u : URLObject) : Values × List Str × FiniteMap Str α × Values :=
  (mem.values u.params, mem.array u.methods, mem.recordAt u.attributes, mem.values u.subURL.join)

variable {mem' : Memory Str Str α} {c : URLObject}

theorem contents_eq {mem : Memory Str Str α} (h : mem.Extends mem') {u : URLObject} (hu : InMemory mem u) :
    contents mem' u = contents mem u := by
  unfold contents
  rw [h.values_eq hu.params, h.array_eq hu.methods, h.recordAt_eq hu.attributes, h.values_eq hu.subURL]

theorem extends_copyInto {mem : Memory Str Str α} {r : ℕ} (h : mem.Extends mem') (hr : mem.maps.length ≤ r)
    (order : List (Str × ℕ)) : mem.Extends (copyInto r order mem') := by
  induction order generalizing mem' with
  | nil => exact h
  | cons e order ih => exact ih (h.put hr e.1 _)

theorem extends_cloneSubURL (subURL : Option (Option ℕ)) (order : List (Str × ℕ)) :
    mem.Extends (cloneSubURL mem subURL order).2 := by
  have hmap := Memory.Extends.newMap mem
  cases subURL with
  | none => exact Memory.Extends.refl mem
  | some p =>
    unfold cloneSubURL cloneParams copyFilteredParams
    split_ifs
    · exact extends_copyInto (hmap.trans (Memory.Extends.newMap _)) hmap.maps.length_le order
    · exact extends_copyInto hmap le_rfl order

def cloneStart (c : URLObject) : Memory Str Str α := (mem.newArray (mem.array c.methods)).2.newRecord.2

theorem owns_clone (w : mem.Walk c.params) (ord : List (Str × ℕ)) : ∃ r, (clone mem c w.order ord).1.params = some r ∧
      (clone mem c w.order ord).1.attributes = some mem.records.length ∧
      mem.Owns r (clone mem c w.order ord).2 (mem.values c.params) := by
  have hstart : mem.Extends (cloneStart mem c) :=
    (Memory.Extends.newArray mem _).trans (Memory.Extends.newRecord _)
  have hcloned := (owns_cloneParams w hstart).addRecords le_rfl
    ((cloneParams (cloneStart mem c) w.order).2.recordAt c.attributes)
  exact ⟨_, rfl, rfl, hcloned.trans (extends_cloneSubURL _ c.subURL ord)⟩

theorem mergeURL_spec {other : URLObject} (hother : InMemory mem other) (w : mem.Walk c.params)
    (ord : List (Str × ℕ)) (w' : mem.Walk other.params) : mem.Extends (mergeURL mem c other w.order ord w'.order).2 ∧
    (mergeURL mem c other w.order ord w'.order).2.values (mergeURL mem c other w.order ord w'.order).1.params =
      Values.merge (mem.values c.params) (mem.values other.params) (mem.array other.methods) ∧
    (mergeURL mem c other w.order ord w'.order).2.array
        (mergeURL mem c other w.order ord w'.order).1.methods = mem.array other.methods := by
  obtain ⟨r, hparams, hattributes, hcloned⟩ := owns_clone mem w ord
  have hmerged := owns_mergeParams w' hother.params hother.methods hcloned
  have hmethods := hmerged.extends'.array_eq hother.methods
  unfold mergeURL
  generalize clone mem c w.order ord = cloned at hparams hattributes hcloned hmerged hmethods ⊢
  obtain ⟨mergedURL, mem'⟩ := cloned
  dsimp only at hparams hattributes hcloned hmerged hmethods ⊢
  rw [hparams, hattributes]
  have howns := (hmerged.trans (Memory.Extends.newArray _
    ((mergeParams r other w'.order mem').array other.methods))).addRecords le_rfl
      ((Memory.newArray (mergeParams r other w'.order mem')
        ((mergeParams r other w'.order mem').array other.methods)).2.recordAt other.attributes)
  refine ⟨howns.extends', howns.values_eq, ?_⟩
  rw [← hmethods]
  simp [Memory.array, Memory.newArray, Memory.addRecords]

def mergedValues (c other : URLObject) (w : mem.Walk c.params) (subWalk : mem.Walk c.subURL.join)
    (w' : mem.Walk other.params) : Values :=
  (mergeURL mem c other w.order subWalk.order w'.order).2.values
    (mergeURL mem c other w.order subWalk.order w'.order).1.params

variable {mem}

/-- A parameter of the merged URL is the provider's unless it is empty, the reference's where methods take it over, and
the two URLs are as they were, exactly if the reference has methods, or none of the keys that they take over has two
different values that are not empty. -/
theorem mergeURL_precedence {c other : URLObject} (hc : InMemory mem c) (hother : InMemory mem other)
    (w : mem.Walk c.params) (subWalk : mem.Walk c.subURL.join) (w' : mem.Walk other.params) :
    ((∀ k ∉ ServiceURL.mergedKeys, k ≠ timestampKey → k ≠ remoteTimestampKey →
      (∀ method ∈ mem.array other.methods, ∀ key ∈ ServiceURL.mergedKeys, k = URL.methodKey method key →
        Values.get (mem.values other.params) k = []) →
      (mergedValues mem c other w subWalk w').get k =
        if Values.get (mem.values c.params) k = [] then Values.get (mem.values other.params) k
        else Values.get (mem.values c.params) k) ∧
    (∀ key ∈ ServiceURL.mergedKeys, Values.get (mem.values other.params) key ≠ [] →
      (mergedValues mem c other w subWalk w').get key = Values.get (mem.values other.params) key) ∧
    (∀ method ∈ mem.array other.methods, ∀ key ∈ ServiceURL.mergedKeys,
      Values.get (mem.values other.params) (URL.methodKey method key) ≠ [] →
      (mergedValues mem c other w subWalk w').get (URL.methodKey method key) =
        Values.get (mem.values other.params) (URL.methodKey method key)) ∧
    contents (mergeURL mem c other w.order subWalk.order w'.order).2 c = contents mem c ∧
    contents (mergeURL mem c other w.order subWalk.order w'.order).2 other = contents mem other) ↔
      (mem.array other.methods ≠ [] ∨ ∀ key ∈ ServiceURL.mergedKeys, Values.get (mem.values c.params) key = [] ∨
        Values.get (mem.values other.params) key = [] ∨
        Values.get (mem.values c.params) key = Values.get (mem.values other.params) key) := by
  obtain ⟨hextends, hvalues, -⟩ := mergeURL_spec mem hother w subWalk.order w'
  have hplain : ∀ key ∈ ServiceURL.mergedKeys, key ≠ timestampKey ∧ key ≠ remoteTimestampKey := by decide
  rw [mergedValues, hvalues]
  constructor
  · rintro ⟨-, hservice, -⟩
    by_contra hneither
    rw [not_or, not_not] at hneither
    refine hneither.2 fun key hkey => ?_
    by_cases hempty : Values.get (mem.values other.params) key = []
    · exact .inr (.inl hempty)
    -- without methods nothing is taken over
    have hwins := hservice key hkey hempty
    have hnot : key ∉ Values.takenKeys (mem.array other.methods) := by
      intro htaken
      obtain ⟨hne, -⟩ | ⟨method, hmem, -⟩ := Values.mem_takenKeys.1 htaken
      · exact hne hneither.1
      · rw [hneither.1] at hmem
        cases hmem
    rw [Values.get_merge _ (hplain key hkey).1 (hplain key hkey).2, if_neg fun h => hnot h.1] at hwins
    split_ifs at hwins with hbase
    · exact .inl hbase
    · exact .inr (.inr hwins)
  intro hcondition
  refine ⟨?_, ?_, ?_, contents_eq hextends hc, contents_eq hextends hother⟩
  · intro k hk ht hr hmethod
    rw [Values.get_merge _ ht hr, if_neg]
    rintro ⟨htaken, hne⟩
    obtain ⟨-, hmem⟩ | ⟨method, hmem, key, hkey, heq⟩ := Values.mem_takenKeys.1 htaken
    · exact hk hmem
    · exact hne (hmethod method hmem key hkey heq)
  · intro key hkey hne
    rw [Values.get_merge _ (hplain key hkey).1 (hplain key hkey).2]
    obtain hmethods | hbase := hcondition
    · rw [if_pos ⟨Values.mem_takenKeys.2 (.inl ⟨hmethods, hkey⟩), hne⟩]
    · obtain hbase | hempty | heq := hbase key hkey
      · rw [if_pos hbase, ite_self]
      · exact absurd hempty hne
      · rw [heq, ite_self, ite_self]
  · intro method hmethod key hkey hne
    have ht : URL.methodKey method key ≠ timestampKey := (ServiceURL.ne_methodKey (by decide) method key).symm
    have hr : URL.methodKey method key ≠ remoteTimestampKey :=
      (ServiceURL.ne_methodKey (by decide) method key).symm
    rw [Values.get_merge _ ht hr, if_pos ⟨Values.mem_takenKeys.2 (.inr ⟨method, hmethod, key, hkey, rfl⟩), hne⟩]

/-! ## A timeout of the reference -/

/-- A provider that waits for a second and a reference for half of that; then the methods. -/
def demoMemory (methods : List Str) : Memory Str Str Unit :=
  (((((Memory.mk [] [] [] fun _ h => absurd h List.not_mem_nil).newMap.2.put 0 timeoutKey
    [str "1000"]).newMap.2.put 1 timeoutKey [str "500"]).newArray []).2.newArray methods).2

def demoURL (params methods : ℕ) : URLObject where
  protocol := str "tri"
  username := []
  password := []
  location := []
  ip := []
  port := []
  path := []
  primitiveURL := []
  primitiveTS := []
  params := some params
  methods := methods
  attributes := none
  subURL := none

def demoProvider : URLObject := demoURL 0 2
def demoReference : URLObject := demoURL 1 3

def walkProvider (methods : List Str) : (demoMemory methods).Walk demoProvider.params :=
  ⟨[(timeoutKey, 0)], by rfl⟩

def walkReference (methods : List Str) : (demoMemory methods).Walk demoReference.params :=
  ⟨[(timeoutKey, 1)], by rfl⟩

def walkNothing (methods : List Str) : (demoMemory methods).Walk demoProvider.subURL.join := ⟨[], by rfl⟩

theorem inMemory_demoURL (meths : List Str) {ps array : ℕ} (hparams : ps < 2) (harray : array < 4) :
    InMemory (demoMemory meths) (demoURL ps array) where
  params := by
    rintro i ⟨⟩
    exact hparams
  methods := harray
  attributes := by
    rintro i ⟨⟩
  subURL := by
    rintro i ⟨⟩

/-- With a method, the reference's timeout wins. -/
theorem mergeURL_timeout_of_method :
    (mergedValues (demoMemory [str "greet"]) demoProvider demoReference (walkProvider _) (walkNothing _)
      (walkReference _)).get timeoutKey = str "500" := by
  have h := (mergeURL_precedence (inMemory_demoURL [str "greet"] (by decide) (by decide))
    (inMemory_demoURL [str "greet"] (by decide) (by decide)) (walkProvider _) (walkNothing _) (walkReference _)).2
    (.inl (by decide))
  exact (h.2.1 timeoutKey (by decide) (by decide)).trans (by decide)

/-- A reference without methods does not take over anything: the provider's timeout wins. -/
theorem mergeURL_timeout_without_methods :
    Values.get ((demoMemory []).values demoReference.params) timeoutKey = str "500" ∧
    (mergedValues (demoMemory []) demoProvider demoReference (walkProvider _) (walkNothing _)
      (walkReference _)).get timeoutKey = str "1000" := by
  decide +kernel

end URLObject

/-! ## URLs whose parameters have values -/

theorem ServiceURL.values_takeOver (other ps : Params) (key : Str) :
    (ServiceURL.takeOver other ps key).values = Values.takeOver other.values ps.values key := by
  unfold ServiceURL.takeOver Values.takeOver Params.get
  split_ifs
  · exact Params.values_set _ _
  · rfl

theorem ServiceURL.values_mergeURL (c other : ServiceURL) :
    (c.mergeURL other).params.values = Values.merge c.params.values other.params.values other.methods := by
  have hfill : (c.params.fill other.params).values = Values.fill c.params.values other.params.values := by
    funext k
    rw [Params.values_fill, Values.fill, Params.get]
    cases hk : other.params.values k with
    | none =>
      rw [Option.none_or, ite_self, if_neg]
      exact fun h => h.2 rfl
    | some vs =>
      have hne : vs ≠ [] := by
        rintro rfl
        exact other.params.ne_nil k hk
      simp [hne]
  have htimestamps : (if c.params.get timestampKey = [] then
      ((c.params.fill other.params).set remoteTimestampKey []).set timestampKey (other.params.get timestampKey)
      else c.params.fill other.params).values = Values.setTimestamps c.params.values other.params.values
        (Values.fill c.params.values other.params.values) := by
    unfold Values.setTimestamps Params.get
    split_ifs
    · rw [Params.values_set, Params.values_set, hfill]
    · exact hfill
  have hmethods : ∀ (meths : List Str) (ps : Params),
      (meths.foldl (fun ps meth => ServiceURL.mergedKeys.foldl (fun ps key =>
        ServiceURL.takeOver other.params (ServiceURL.takeOver other.params ps key)
          (URL.methodKey meth key)) ps) ps).values =
      meths.foldl (Values.takeOverMethod other.params.values) ps.values := by
    intro meths ps
    rw [← foldl_hom Params.values]
    intro ps meth
    unfold Values.takeOverMethod
    rw [← foldl_hom Params.values]
    intro ps key
    rw [values_takeOver, values_takeOver]
  dsimp only [mergeURL, mergeMethods]
  rw [hmethods, htimestamps, Values.merge]

end DubboGo.Common
