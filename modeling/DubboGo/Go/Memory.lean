import DubboGo.Lib.FiniteMap

/-!
# Maps of slices in memory

The memory that values of type `map[K][]V` and `map[K]A` refer to.  A slice is the address of its array,
so that two maps may share one; a map is the address of its entries, and writes to it are seen through
every copy of that address.
-/

namespace DubboGo.Go

open Lib List Multiset Option

/-- The arrays and maps that have been allocated, by address.  The slices of the maps are in memory. -/
structure Memory (κ ν α : Type) where
  arrays : List (List ν)
  maps : List (FiniteMap κ ℕ)
  records : List (FiniteMap κ α)
  valid : ∀ m ∈ maps, ∀ k i, ⟨k, i⟩ ∈ m.entries → i < arrays.length

namespace Memory

variable {κ ν α : Type} (mem : Memory κ ν α)

def array (i : ℕ) : List ν := mem.arrays[i]?.getD []

def mapAt (r : Option ℕ) : FiniteMap κ ℕ := (r.bind fun r => mem.maps[r]?).getD ∅

def recordAt (r : Option ℕ) : FiniteMap κ α := (r.bind fun r => mem.records[r]?).getD ∅

/-- `make([]V, n)` and the copy of `vs`. -/
def newArray (vs : List ν) : ℕ × Memory κ ν α :=
  (mem.arrays.length,
    { mem with
      arrays := mem.arrays ++ [vs]
      valid := by
        intro m hm k i hi
        have hlt := mem.valid m hm k i hi
        rw [List.length_append]
        omega })

/-- `make(map[K][]V)`. -/
def newMap : ℕ × Memory κ ν α :=
  (mem.maps.length,
    { mem with
      maps := mem.maps ++ [∅]
      valid := by
        intro m hm k i hi
        rcases List.mem_append.1 hm with hm | hm
        · exact mem.valid m hm k i hi
        · rw [List.mem_singleton.1 hm] at hi
          exact absurd hi (Multiset.notMem_zero _) })

/-- `make(map[K]A)`. -/
def newRecord : ℕ × Memory κ ν α :=
  (mem.records.length, { mem with records := mem.records ++ [∅] })

/-- An order in which `range` can go through the map at an address. -/
structure Walk (mem : Memory κ ν α) (r : Option ℕ) where
  order : List (κ × ℕ)
  coe_order : (order : Multiset (κ × ℕ)) = (mem.mapAt r).entries.map fun e => (e.1, e.2)

instance Walk.nonempty (r : Option ℕ) : Nonempty (mem.Walk r) := ⟨⟨_, Multiset.coe_toList _⟩⟩

/-! ## What stays -/

structure Extends (mem mem' : Memory κ ν α) : Prop where
  arrays : mem.arrays <+: mem'.arrays
  maps : mem.maps <+: mem'.maps
  records : mem.records <+: mem'.records

def HasMap (r : Option ℕ) : Prop := ∀ i ∈ r, i < mem.maps.length

def HasRecord (r : Option ℕ) : Prop := ∀ i ∈ r, i < mem.records.length

variable {mem} {mem' mem'' : Memory κ ν α} {i : ℕ}

theorem lt_of_mem_mapAt {r : Option ℕ} {k : κ} (h : ⟨k, i⟩ ∈ (mem.mapAt r).entries) : i < mem.arrays.length := by
  cases hmap : r.bind fun r => mem.maps[r]? with
  | none =>
    rw [mapAt, hmap] at h
    exact absurd h (notMem_zero _)
  | some m =>
    rw [mapAt, hmap] at h
    obtain ⟨j, -, hj⟩ := bind_eq_some_iff.1 hmap
    exact mem.valid m (mem_of_getElem? hj) k i h

theorem Walk.lt {r : Option ℕ} (w : mem.Walk r) {k : κ} (h : (k, i) ∈ w.order) : i < mem.arrays.length := by
  rw [← mem_coe, w.coe_order, Multiset.mem_map] at h
  obtain ⟨e, he, heq⟩ := h
  cases heq
  exact lt_of_mem_mapAt he

/-- `range` visits a key once. -/
theorem Walk.nodup_keys {r : Option ℕ} (w : mem.Walk r) : (w.order.map Prod.fst).Nodup := by
  have hkeys : ((w.order.map Prod.fst : List κ) : Multiset κ) = (mem.mapAt r).keys.val := by
    rw [← Multiset.map_coe, w.coe_order, Multiset.map_map]
    rfl
  rw [← Multiset.coe_nodup, hkeys]
  exact (mem.mapAt r).keys.nodup

def Walk.pairs {r : Option ℕ} (w : mem.Walk r) : List (κ × List ν) :=
  w.order.map fun e => (e.1, mem.array e.2)

theorem Walk.nodup_pairs {r : Option ℕ} (w : mem.Walk r) : (w.pairs.map Prod.fst).Nodup := by
  rw [pairs, List.map_map]
  exact w.nodup_keys

theorem getElem?_of_prefix {β : Type*} {l l' : List β} (h : l <+: l') (hi : i < l.length) : l'[i]? = l[i]? := by
  obtain ⟨t, rfl⟩ := h
  exact getElem?_append_left hi

theorem prefix_modify {β : Type*} {l l' : List β} (h : l <+: l') (hi : l.length ≤ i) (f : β → β) :
    l <+: l'.modify i f := by
  rw [prefix_iff_getElem?] at h ⊢
  intro j hj
  have hne : i ≠ j := by omega
  simp [h j hj, hne]

namespace Extends

theorem refl (mem : Memory κ ν α) : mem.Extends mem :=
  ⟨prefix_refl _, prefix_refl _, prefix_refl _⟩

theorem trans (h : mem.Extends mem') (h' : mem'.Extends mem'') : mem.Extends mem'' :=
  ⟨h.arrays.trans h'.arrays, h.maps.trans h'.maps, h.records.trans h'.records⟩

theorem newArray (mem : Memory κ ν α) (vs : List ν) : mem.Extends (mem.newArray vs).2 :=
  ⟨prefix_append _ _, prefix_refl _, prefix_refl _⟩

theorem newMap (mem : Memory κ ν α) : mem.Extends mem.newMap.2 :=
  ⟨prefix_refl _, prefix_append _ _, prefix_refl _⟩

theorem newRecord (mem : Memory κ ν α) : mem.Extends mem.newRecord.2 :=
  ⟨prefix_refl _, prefix_refl _, prefix_append _ _⟩

variable (h : mem.Extends mem')

include h

theorem array_eq {i : ℕ} (hi : i < mem.arrays.length) : mem'.array i = mem.array i := by
  rw [array, array, getElem?_of_prefix h.arrays hi]

theorem mapAt_eq {r : Option ℕ} (hr : mem.HasMap r) : mem'.mapAt r = mem.mapAt r := by
  cases r with
  | none => rfl
  | some i => rw [mapAt, mapAt, bind_some, bind_some, getElem?_of_prefix h.maps (hr i rfl)]

theorem recordAt_eq {r : Option ℕ} (hr : mem.HasRecord r) : mem'.recordAt r = mem.recordAt r := by
  cases r with
  | none => rfl
  | some i =>
    rw [recordAt, recordAt, bind_some, bind_some, getElem?_of_prefix h.records (hr i rfl)]

end Extends

section Values

variable [DecidableEq κ]

variable (mem) in
def values (r : Option ℕ) (k : κ) : Option (List ν) := ((mem.mapAt r).lookup k).map mem.array

variable (mem) in
/-- `m[k] = vs`, with a new slice. -/
def put (r : ℕ) (k : κ) (vs : List ν) : Memory κ ν α where
  arrays := mem.arrays ++ [vs]
  maps := mem.maps.modify r fun m => m.insert k mem.arrays.length
  records := mem.records
  valid := by
    intro m hm k' i hi
    obtain ⟨j, hj⟩ := List.mem_iff_getElem?.1 hm
    rw [List.getElem?_modify] at hj
    obtain ⟨m', hm', rfl⟩ := Option.map_eq_some_iff.1 hj
    have hold : ⟨k', i⟩ ∈ m'.entries → i < mem.arrays.length := mem.valid m' (List.mem_of_getElem? hm') k' i
    rw [List.length_append, List.length_singleton]
    split_ifs at hi
    · rw [← Finmap.lookup_eq_some_iff, FiniteMap.lookup_insert] at hi
      split_ifs at hi
      · cases hi
        omega
      · have hlt := hold (Finmap.lookup_eq_some_iff.1 hi)
        omega
    · have hlt := hold hi
      omega

variable (mem) in
def addRecords (r : ℕ) (entries : FiniteMap κ α) : Memory κ ν α :=
  { mem with records := mem.records.modify r fun m => m ∪ entries }

theorem Walk.mem_pairs_iff {r : Option ℕ} (w : mem.Walk r) {k : κ} {vs : List ν} :
    (k, vs) ∈ w.pairs ↔ mem.values r k = some vs := by
  have horder : ∀ i, (k, i) ∈ w.order ↔ (mem.mapAt r).lookup k = some i := by
    intro i
    rw [← mem_coe, w.coe_order, Finmap.lookup_eq_some_iff, Multiset.mem_map]
    constructor
    · rintro ⟨e, he, heq⟩
      cases heq
      exact he
    · intro he
      exact ⟨_, he, rfl⟩
  rw [values, map_eq_some_iff, pairs, List.mem_map]
  constructor
  · rintro ⟨⟨k', i⟩, hmem, heq⟩
    cases heq
    exact ⟨i, (horder i).1 hmem, rfl⟩
  · rintro ⟨i, hlookup, rfl⟩
    exact ⟨(k, i), (horder i).2 hlookup, rfl⟩

/-- What is allocated later does not change an earlier map. -/
theorem Extends.values_eq (h : mem.Extends mem') {r : Option ℕ} (hr : mem.HasMap r) :
    mem'.values r = mem.values r := by
  funext k
  rw [values, values, h.mapAt_eq hr]
  cases hlookup : (mem.mapAt r).lookup k with
  | none => rfl
  | some i => rw [map_some, map_some, h.array_eq (lt_of_mem_mapAt (Finmap.lookup_eq_some_iff.1 hlookup))]

theorem Extends.put (h : mem.Extends mem') {r : ℕ} (hr : mem.maps.length ≤ r) (k : κ) (vs : List ν) :
    mem.Extends (mem'.put r k vs) :=
  ⟨h.arrays.trans (prefix_append _ _), prefix_modify h.maps hr _, h.records⟩

theorem Extends.addRecords (h : mem.Extends mem') {r : ℕ} (hr : mem.records.length ≤ r)
    (ents : FiniteMap κ α) : mem.Extends (mem'.addRecords r ents) :=
  ⟨h.arrays, h.maps, prefix_modify h.records hr _⟩

theorem values_put {r : ℕ} (hr : r < mem.maps.length) (k : κ) (vs : List ν) :
    (mem.put r k vs).values (some r) = Function.update (mem.values (some r)) k (some vs) := by
  funext k'
  have hmap : (mem.put r k vs).mapAt (some r) = (mem.mapAt (some r)).insert k mem.arrays.length := by
    dsimp only [mapAt, Memory.put]
    simp [getElem?_modify, getElem?_eq_getElem hr]
  rw [values, hmap, FiniteMap.lookup_insert, Function.update_apply]
  split_ifs
  · simp [array, Memory.put]
  · rw [values]
    cases hlookup : (mem.mapAt (some r)).lookup k' with
    | none => rfl
    | some i =>
      have hlt := lt_of_mem_mapAt (Finmap.lookup_eq_some_iff.1 hlookup)
      rw [map_some, map_some, array, array, Memory.put, getElem?_append_left hlt]

theorem values_newMap (mem : Memory κ ν α) : mem.newMap.2.values (some mem.newMap.1) = fun _ => none := by
  funext k
  simp [values, mapAt, newMap]

/-! ## A map of one's own -/

/-- The map at an address has been allocated since an earlier memory, which has not changed. -/
structure Owns (before : Memory κ ν α) (r : ℕ) (mem : Memory κ ν α) (held : κ → Option (List ν)) : Prop where
  extends' : before.Extends mem
  fresh : before.maps.length ≤ r
  lt : r < mem.maps.length
  values_eq : mem.values (some r) = held

namespace Owns

variable {bef : Memory κ ν α} {r : ℕ} {held : κ → Option (List ν)}

theorem newMap (h : bef.Extends mem) : bef.Owns mem.newMap.1 mem.newMap.2 fun _ => none where
  extends' := h.trans (Extends.newMap mem)
  fresh := h.maps.length_le
  lt := by simp [Memory.newMap]
  values_eq := values_newMap mem

theorem put (h : bef.Owns r mem held) (k : κ) (vs : List ν) :
    bef.Owns r (mem.put r k vs) (Function.update held k (some vs)) where
  extends' := h.extends'.put h.fresh k vs
  fresh := h.fresh
  lt := by
    rw [Memory.put, length_modify]
    exact h.lt
  values_eq := by rw [values_put h.lt, h.values_eq]

theorem trans (h : bef.Owns r mem held) (h' : mem.Extends mem') : bef.Owns r mem' held where
  extends' := h.extends'.trans h'
  fresh := h.fresh
  lt := lt_of_lt_of_le h.lt h'.maps.length_le
  values_eq := by
    rw [h'.values_eq, h.values_eq]
    rintro i ⟨⟩
    exact h.lt

theorem addRecords (h : bef.Owns r mem held) {i : ℕ} (hi : bef.records.length ≤ i)
    (ents : FiniteMap κ α) : bef.Owns r (mem.addRecords i ents) held where
  extends' := h.extends'.addRecords hi ents
  fresh := h.fresh
  lt := h.lt
  values_eq := h.values_eq

/-- A loop whose steps write only to the owned map is a loop over what that map holds. -/
theorem foldl {ι : Type*} (items : List ι) (step : Memory κ ν α → ι → Memory κ ν α)
    (change : (κ → Option (List ν)) → ι → κ → Option (List ν))
    (hstep : ∀ mem held, ∀ a ∈ items, bef.Owns r mem held → bef.Owns r (step mem a) (change held a))
    (h : bef.Owns r mem held) : bef.Owns r (items.foldl step mem) (items.foldl change held) := by
  induction items generalizing mem held with
  | nil => exact h
  | cons a items ih =>
    exact ih (fun mem held a ha => hstep mem held a (mem_cons_of_mem _ ha)) (hstep mem held a mem_cons_self h)

end Owns

end Values

end Memory

end DubboGo.Go
