import Mathlib

/-!
# Slices that share their arrays

A slice of Go is a part of an array, and several slices may be parts of the same one.  `append` writes
into the array of its slice as long as there is room, where other slices see it, and else moves to an
array of its own.
-/

namespace DubboGo.Go

open List

structure Arrays (α : Type*) where
  next : ℕ
  cells : ℕ → ℕ → α

structure Slice where
  array : ℕ
  len : ℕ
  cap : ℕ
  len_le_cap : len ≤ cap

namespace Arrays

variable {α : Type*}

def empty [Inhabited α] : Arrays α where
  next := 0
  cells _ _ := default

def write (mem : Arrays α) (array i : ℕ) (v : α) : Arrays α :=
  { mem with cells := Function.update mem.cells array (Function.update (mem.cells array) i v) }

def copy [Inhabited α] (mem : Arrays α) (array len : ℕ) : Arrays α where
  next := mem.next + 1
  cells := Function.update mem.cells mem.next fun i => if i < len then mem.cells array i else default

theorem cells_write_self (mem : Arrays α) (array i : ℕ) (v : α) : (mem.write array i v).cells array i = v := by
  dsimp only [write]
  rw [Function.update_self, Function.update_self]

theorem cells_write_of_ne (mem : Arrays α) (array : ℕ) {i j : ℕ} (v : α) (h : j ≠ i) :
    (mem.write array i v).cells array j = mem.cells array j := by
  dsimp only [write]
  rw [Function.update_self, Function.update_of_ne h]

theorem cells_copy [Inhabited α] (mem : Arrays α) (array : ℕ) {i len : ℕ} (h : i < len) :
    (mem.copy array len).cells mem.next i = mem.cells array i := by
  dsimp only [copy]
  rw [Function.update_self, if_pos h]

end Arrays

namespace Slice

variable {α : Type*}

def nil : Slice where
  array := 0
  len := 0
  cap := 0
  len_le_cap := le_rfl

/-- `s[:n]`, if there are as many cells. -/
def upTo (s : Slice) (n : ℕ) (h : n ≤ s.cap) : Slice where
  array := s.array
  len := n
  cap := s.cap
  len_le_cap := h

def toList (mem : Arrays α) (s : Slice) : List α := (List.range s.len).map (mem.cells s.array)

/-- `append(s, v)`.  A new array has room for `room` further elements. -/
def append [Inhabited α] (room : ℕ) (mem : Arrays α) (s : Slice) (v : α) : Slice × Arrays α :=
  if h : s.len < s.cap then
    ({ s with len := s.len + 1, len_le_cap := h }, mem.write s.array s.len v)
  else
    ({ array := mem.next, len := s.len + 1, cap := s.len + 1 + room, len_le_cap := by omega },
      (mem.copy s.array s.len).write mem.next s.len v)

theorem length_toList (mem : Arrays α) (s : Slice) : (s.toList mem).length = s.len := by
  rw [toList, length_map, length_range]

theorem toList_upTo_zero (mem : Arrays α) (s : Slice) : (s.upTo 0 (Nat.zero_le _)).toList mem = [] := rfl

theorem toList_succ (mem : Arrays α) (array len cap : ℕ) (h : len + 1 ≤ cap) : toList mem ⟨array, len + 1, cap, h⟩ =
      (range len).map (mem.cells array) ++ [mem.cells array len] := by
  rw [toList, range_succ, map_append, map_singleton]

/-- `append` adds one element, in place or in a new array. -/
theorem toList_append [Inhabited α] (room : ℕ) (mem : Arrays α) (s : Slice) (v : α) :
    (s.append room mem v).1.toList (s.append room mem v).2 = s.toList mem ++ [v] := by
  unfold append
  split_ifs with h
  · rw [toList_succ, Arrays.cells_write_self]
    congr 1
    apply map_congr_left
    intro i hi
    exact Arrays.cells_write_of_ne _ _ _ (mem_range.1 hi).ne
  · rw [toList_succ, Arrays.cells_write_self]
    congr 1
    apply map_congr_left
    intro i hi
    have hlt := mem_range.1 hi
    rw [Arrays.cells_write_of_ne _ _ _ hlt.ne, Arrays.cells_copy _ _ hlt]

theorem append_of_lt [Inhabited α] (room : ℕ) (mem : Arrays α) (s : Slice) (v : α) (h : s.len < s.cap) :
    s.append room mem v = ({ s with len := s.len + 1, len_le_cap := h }, mem.write s.array s.len v) := dif_pos h

/-- An append in place leaves what a slice of the same array holds behind the new element. -/
theorem drop_toList_append [Inhabited α] (room : ℕ) (mem : Arrays α) {s t : Slice} (v : α)
    (hlt : s.len < s.cap) (harray : t.array = s.array) {n : ℕ} (hn : s.len < n) :
    (t.toList (s.append room mem v).2).drop n = (t.toList mem).drop n := by
  rw [append_of_lt room mem s v hlt]
  apply ext_getElem
  · rw [length_drop, length_drop, length_toList, length_toList]
  · intro i hi _
    simp only [toList, getElem_drop, getElem_map, getElem_range]
    rw [harray]
    exact Arrays.cells_write_of_ne _ _ _ (by omega)

end Slice

end DubboGo.Go
