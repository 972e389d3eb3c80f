import DubboGo.Go.Sort

/-!
# Bitmap indexes of a list

A bitmap is a set of 32-bit positions that an iterator enumerates in ascending order.  It indexes a predicate over a
list when it holds the positions of the elements that satisfy it.  An index of the whole list has one bitmap for each
key.
-/

namespace DubboGo.Lib

open List

/-- A set of positions, with the operations of a compressed bitmap.  The laws say what they do to
the positions that the iterator gives. -/
class Bitmap (β : Type) where
  newBitmap : β
  add : β → UInt32 → β
  or : β → β → β
  andNot : β → β → β
  clone : β → β
  isEmpty : β → Bool
  /-- The positions in the order of the iterator. -/
  positions : β → List UInt32
  sorted_positions : ∀ b, (positions b).SortedLT
  positions_newBitmap : positions newBitmap = []
  mem_add : ∀ b i j, j ∈ positions (add b i) ↔ j = i ∨ j ∈ positions b
  mem_or : ∀ b c j, j ∈ positions (or b c) ↔ j ∈ positions b ∨ j ∈ positions c
  mem_andNot : ∀ b c j, j ∈ positions (andNot b c) ↔ j ∈ positions b ∧ j ∉ positions c
  positions_clone : ∀ b, positions (clone b) = positions b
  isEmpty_iff : ∀ b, isEmpty b = true ↔ positions b = []

instance : Bitmap (Finset UInt32) where
  newBitmap := ∅
  add s i := insert i s
  or s t := s ∪ t
  andNot s t := s \ t
  clone s := s
  isEmpty s := s = ∅
  positions s := s.sort
  sorted_positions s := s.sortedLT_sort
  positions_newBitmap := Finset.sort_empty _
  mem_add s i j := by simp
  mem_or s t j := by simp
  mem_andNot s t j := by simp
  positions_clone s := rfl
  isEmpty_iff s := by
    rw [decide_eq_true_iff, ← List.length_eq_zero_iff, Finset.length_sort, Finset.card_eq_zero]

namespace BitmapIndex

variable {α κ β : Type} [Bitmap β]

/-- The elements of the list at the positions of the bitmap; positions outside are skipped. -/
def collect (l : List α) (b : β) : List α := (Bitmap.positions b).filterMap fun i => l[i.toNat]?

def Indexes (b : β) (l : List α) (p : α → Bool) : Prop :=
  ∀ i, i ∈ Bitmap.positions b ↔ ∃ a, l[i.toNat]? = some a ∧ p a = true

theorem filterMap_getElem?_range (l : List α) (p : α → Bool) :
    ((range l.length).filter fun i => l[i]?.any p).filterMap (fun i => l[i]?) = l.filter p := by
  induction l using reverseRecOn with
  | nil => rfl
  | append_singleton l a ih =>
    -- below the last position the longer list reads as the shorter one
    have hget : ∀ i ∈ range l.length, (l ++ [a])[i]? = l[i]? := fun i hi =>
      List.getElem?_append_left (mem_range.1 hi)
    have hfilter : (range l.length).filter (fun i => (l ++ [a])[i]?.any p) =
        (range l.length).filter fun i => l[i]?.any p :=
      filter_congr fun i hi => by rw [hget i hi]
    rw [length_append, length_singleton, range_succ, filter_append, filterMap_append, filter_append, hfilter, ← ih]
    congr 1
    · exact filterMap_congr fun i hi => hget i (mem_of_mem_filter hi)
    · cases hp : p a <;> simp [hp]

namespace Indexes

variable {b c : β} {l : List α} {p q : α → Bool}

theorem collect_eq (h : Indexes b l p) (hl : l.length ≤ 2 ^ 32) : collect l b = l.filter p := by
  have hsorted : ((Bitmap.positions b).map UInt32.toNat).SortedLT :=
    (pairwise_map.2 ((Bitmap.sorted_positions b).pairwise.imp UInt32.lt_iff_toNat_lt.1)).sortedLT
  have hrange : ((range l.length).filter fun i => l[i]?.any p).SortedLT :=
    (pairwise_lt_range.filter _).sortedLT
  have hpos : (Bitmap.positions b).map UInt32.toNat = (range l.length).filter fun i => l[i]?.any p := by
    refine hsorted.eq_of_mem_iff hrange fun i => ?_
    rw [mem_map, mem_filter, mem_range]
    constructor
    · rintro ⟨k, hk, rfl⟩
      obtain ⟨a, ha, hp⟩ := (h k).1 hk
      exact ⟨(List.getElem?_eq_some_iff.1 ha).1, by rw [ha]; exact hp⟩
    · rintro ⟨hi, hp⟩
      have hk : (UInt32.ofNat i).toNat = i := UInt32.toNat_ofNat_of_lt' (hi.trans_le hl)
      refine ⟨UInt32.ofNat i, (h _).2 ⟨l[i], ?_, ?_⟩, hk⟩
      · rw [hk, getElem?_eq_getElem hi]
      · rwa [getElem?_eq_getElem hi] at hp
  rw [← filterMap_getElem?_range, ← hpos, filterMap_map]
  rfl

/-- An index is empty exactly if no element satisfies the predicate. -/
theorem isEmpty_eq (h : Indexes b l p) (hl : l.length ≤ 2 ^ 32) : Bitmap.isEmpty b = (l.filter p).isEmpty := by
  rw [Bool.eq_iff_iff, Bitmap.isEmpty_iff, List.isEmpty_iff, ← h.collect_eq hl]
  constructor
  · intro hb
    rw [collect, hb, List.filterMap_nil]
  · intro hc
    refine eq_nil_iff_forall_not_mem.2 fun i hi => ?_
    obtain ⟨a, ha, -⟩ := (h i).1 hi
    have : a ∈ collect l b := mem_filterMap.2 ⟨i, hi, ha⟩
    rw [hc] at this
    exact not_mem_nil this

theorem congr (h : Indexes b l p) (hpq : ∀ a ∈ l, p a = q a) : Indexes b l q := by
  intro i
  rw [h i]
  constructor
  · rintro ⟨a, ha, hp⟩
    exact ⟨a, ha, hpq a (mem_of_getElem? ha) ▸ hp⟩
  · rintro ⟨a, ha, hq⟩
    exact ⟨a, ha, (hpq a (mem_of_getElem? ha)).symm ▸ hq⟩

theorem newBitmap : Indexes (Bitmap.newBitmap : β) l fun _ => false := by
  intro i
  rw [Bitmap.positions_newBitmap]
  simp

theorem or (hb : Indexes b l p) (hc : Indexes c l q) : Indexes (Bitmap.or b c) l fun a => p a || q a := by
  intro i
  rw [Bitmap.mem_or, hb i, hc i]
  constructor
  · rintro (⟨a, ha, hp⟩ | ⟨a, ha, hq⟩)
    · exact ⟨a, ha, Bool.or_eq_true_iff.2 (.inl hp)⟩
    · exact ⟨a, ha, Bool.or_eq_true_iff.2 (.inr hq)⟩
  · rintro ⟨a, ha, hpq⟩
    rcases Bool.or_eq_true_iff.1 hpq with hp | hq
    · exact .inl ⟨a, ha, hp⟩
    · exact .inr ⟨a, ha, hq⟩

theorem clone (hb : Indexes b l p) : Indexes (Bitmap.clone b) l p := by
  intro i
  rw [Bitmap.positions_clone]
  exact hb i

theorem andNot (hb : Indexes b l p) (hc : Indexes c l q) : Indexes (Bitmap.andNot b c) l fun a => p a && !q a := by
  intro i
  rw [Bitmap.mem_andNot, hb i, hc i]
  constructor
  · rintro ⟨⟨a, ha, hp⟩, hq⟩
    cases hqa : q a with
    | true => exact absurd ⟨a, ha, hqa⟩ hq
    | false => exact ⟨a, ha, by simp [hp, hqa]⟩
  · rintro ⟨a, ha, hpq⟩
    obtain ⟨hp, hq⟩ := Bool.and_eq_true_iff.1 hpq
    refine ⟨⟨a, ha, hp⟩, ?_⟩
    rintro ⟨a', ha', hq'⟩
    obtain rfl : a = a' := Option.some.inj (ha.symm.trans ha')
    rw [hq'] at hq
    exact Bool.noConfusion hq

end Indexes

/-! ## The index of a list by keys -/

variable [DecidableEq κ]

def upsert (pool : κ → Option β) (key : κ) (i : ℕ) : κ → Option β :=
  Function.update pool key (some (Bitmap.add ((pool key).getD Bitmap.newBitmap) (UInt32.ofNat i)))

def upsertAll (pool : κ → Option β) (keys : List κ) (i : ℕ) : κ → Option β :=
  keys.foldl (fun pool key => upsert pool key i) pool

def index (keys : α → List κ) (l : List α) : κ → Option β :=
  l.zipIdx.foldl (fun pool x => upsertAll pool (keys x.1) x.2) fun _ => none

def positionsAt (pool : κ → Option β) (key : κ) : List UInt32 :=
  ((pool key).map Bitmap.positions).getD []

theorem mem_positionsAt_upsertAll (i : ℕ) (keys : List κ) (pool : κ → Option β) (key : κ) (j : UInt32) :
    j ∈ positionsAt (upsertAll pool keys i) key ↔ (key ∈ keys ∧ j = UInt32.ofNat i) ∨ j ∈ positionsAt pool key := by
  induction keys generalizing pool with
  | nil => simp [upsertAll]
  | cons k keys ih =>
    have hstep : j ∈ positionsAt (upsert pool k i) key ↔ (key = k ∧ j = UInt32.ofNat i) ∨ j ∈ positionsAt pool key := by
      unfold positionsAt upsert
      by_cases hk : key = k
      · subst hk
        cases hp : pool key with
        | none => simp [Bitmap.mem_add, Bitmap.positions_newBitmap]
        | some b => simp [Bitmap.mem_add]
      · simp [hk]
    have := ih (upsert pool k i)
    rw [upsertAll, foldl_cons, ← upsertAll, this, hstep, mem_cons]
    tauto

theorem isSome_upsertAll (i : ℕ) (keys : List κ) (pool : κ → Option β) (key : κ) :
    (upsertAll pool keys i key).isSome = (decide (key ∈ keys) || (pool key).isSome) := by
  induction keys generalizing pool with
  | nil => simp [upsertAll]
  | cons k keys ih =>
    rw [upsertAll, foldl_cons, ← upsertAll, ih (upsert pool k i)]
    by_cases hk : key = k
    · simp [upsert, hk]
    · simp [upsert, hk]

theorem mem_positionsAt_index (keys : α → List κ) (l : List α) (hl : l.length ≤ 2 ^ 32) (key : κ) (j : UInt32) :
    j ∈ positionsAt (β := β) (index keys l) key ↔ ∃ a, l[j.toNat]? = some a ∧ key ∈ keys a := by
  induction l using reverseRecOn with
  | nil => simp [index, positionsAt]
  | append_singleton l a ih =>
    rw [length_append, length_singleton] at hl
    have hj : j = UInt32.ofNat l.length ↔ j.toNat = l.length := by
      rw [← UInt32.toNat_inj, UInt32.toNat_ofNat_of_lt' (Nat.lt_of_succ_le hl)]
    rw [index, zipIdx_append, foldl_append, ← index]
    simp only [zipIdx_cons, zipIdx_nil, foldl_cons, foldl_nil, zero_add]
    rw [mem_positionsAt_upsertAll, ih (by omega), hj]
    constructor
    · rintro (⟨hk, hj⟩ | ⟨x, hx, hk⟩)
      · exact ⟨a, by rw [hj]; simp, hk⟩
      · exact ⟨x, by rw [List.getElem?_append_left (List.getElem?_eq_some_iff.1 hx).1, hx], hk⟩
    · rintro ⟨x, hx, hk⟩
      rcases lt_trichotomy j.toNat l.length with hlt | heq | hgt
      · rw [List.getElem?_append_left hlt] at hx
        exact .inr ⟨x, hx, hk⟩
      · rw [heq, getElem?_concat_length, Option.some.injEq] at hx
        exact .inl ⟨hx ▸ hk, heq⟩
      · rw [getElem?_eq_none (by simp; omega)] at hx
        cases hx

theorem isSome_index (keys : α → List κ) (l : List α) (key : κ) :
    (index (β := β) keys l key).isSome = l.any fun a => key ∈ keys a := by
  induction l using reverseRecOn with
  | nil => rfl
  | append_singleton l a ih =>
    rw [index, zipIdx_append, foldl_append, ← index]
    simp only [zipIdx_cons, zipIdx_nil, foldl_cons, foldl_nil]
    rw [isSome_upsertAll, ih, any_append, Bool.or_comm]
    simp

/-- A bitmap that may be missing indexes the predicate; a missing one is that of no element. -/
def Represents (b : Option β) (l : List α) (p : α → Bool) : Prop :=
  match b with
  | some b => Indexes b l p
  | none => ∀ a ∈ l, p a = false

theorem index_spec (keys : α → List κ) {l : List α} (hl : l.length ≤ 2 ^ 32) (key : κ) :
    Represents (index (β := β) keys l key) l fun a => key ∈ keys a := by
  cases h : index (β := β) keys l key with
  | some b =>
    intro i
    have := mem_positionsAt_index (β := β) keys l hl key i
    rw [positionsAt, h] at this
    simpa using this
  | none =>
    have := isSome_index (β := β) keys l key
    rw [h] at this
    simpa [Represents] using this.symm

theorem Represents.congr {b : Option β} {l : List α} {p q : α → Bool} (h : Represents b l p)
    (hpq : ∀ a ∈ l, p a = q a) : Represents b l q := by
  cases b with
  | some b => exact Indexes.congr h hpq
  | none => exact fun a ha => hpq a ha ▸ h a ha

end BitmapIndex

end DubboGo.Lib
