import DubboGo.Lib.FiniteMap

/-!
# Pointers and timers

Records that several goroutines have pointers to, and the timers of `time.AfterFunc`.  A timer that has
fired is no longer armed: its callback is a goroutine then, which `Stop` does not reach.
-/

namespace DubboGo.Go

open Lib FiniteMap

/-! ## Records -/

structure Heap (α : Type*) where
  next : ℕ
  cell : ℕ → α

namespace Heap

variable {α : Type*}

def empty [Inhabited α] : Heap α where
  next := 0
  cell _ := default

/-- A new record, at the pointer `h.next`. -/
def add (v : α) (h : Heap α) : Heap α where
  next := h.next + 1
  cell := Function.update h.cell h.next v

def modify (p : ℕ) (f : α → α) (h : Heap α) : Heap α where
  next := h.next
  cell := Function.update h.cell p (f (h.cell p))

theorem cell_add_self (v : α) (h : Heap α) : (h.add v).cell h.next = v := Function.update_self ..

theorem cell_add_of_lt (v : α) {h : Heap α} {p : ℕ} (hp : p < h.next) : (h.add v).cell p = h.cell p :=
  Function.update_of_ne hp.ne ..

theorem cell_modify_self (p : ℕ) (f : α → α) (h : Heap α) : (h.modify p f).cell p = f (h.cell p) :=
  Function.update_self ..

theorem cell_modify_of_ne {p q : ℕ} (f : α → α) (h : Heap α) (hq : q ≠ p) : (h.modify p f).cell q = h.cell q :=
  Function.update_of_ne hq ..

theorem modify_congr {β : Type*} (field : α → β) {p : ℕ} {f : α → α} (h : Heap α)
    (hf : ∀ v, field (f v) = field v) (q : ℕ) : field ((h.modify p f).cell q) = field (h.cell q) := by
  by_cases hq : q = p
  · rw [hq, cell_modify_self, hf]
  · rw [cell_modify_of_ne f h hq]

end Heap

/-! ## Timers -/

structure Timers (γ : Type) where
  next : ℕ
  armed : FiniteMap ℕ γ
  lt_next : ∀ t ∈ armed, t < next

namespace Timers

variable {γ : Type}

def empty : Timers γ where
  next := 0
  armed := ∅
  lt_next := fun _ h => absurd h Finmap.notMem_empty

/-- `time.AfterFunc`: the new timer is `h.next`. -/
def afterFunc (arg : γ) (h : Timers γ) : Timers γ where
  next := h.next + 1
  armed := h.armed.insert h.next arg
  lt_next := by
    intro t ht
    rcases Finmap.mem_insert.1 ht with rfl | ht
    · exact Nat.lt_succ_self _
    · exact Nat.lt_succ_of_lt (h.lt_next t ht)

/-- The timers that satisfy `p` are armed no longer. -/
def stopAll (p : ℕ → Bool) (h : Timers γ) : Timers γ where
  next := h.next
  armed := FiniteMap.keep h.armed fun t => !p t
  lt_next := by
    intro t ht
    exact h.lt_next t (Finmap.mem_keys.1 (FiniteMap.mem_keys_keep.1 (Finmap.mem_keys.2 ht)).2)

/-- `Stop`; a timer that fires is armed no longer, too. -/
def stop (t : ℕ) (h : Timers γ) : Timers γ where
  next := h.next
  armed := h.armed.erase t
  lt_next := by
    intro t' ht
    exact h.lt_next t' (Finmap.mem_erase.1 ht).2

theorem next_notMem (h : Timers γ) : h.next ∉ h.armed := fun hmem => (h.lt_next _ hmem).false

theorem values_afterFunc (arg : γ) (h : Timers γ) : values (h.afterFunc arg).armed = arg ::ₘ values h.armed := by
  rw [afterFunc, values_insert, erase_of_lookup_none (Finmap.lookup_eq_none.2 h.next_notMem)]

theorem values_stop {t : ℕ} {arg : γ} {h : Timers γ} (ht : h.armed.lookup t = some arg) :
    values h.armed = arg ::ₘ values (h.stop t).armed :=
  (values_erase ht).symm

end Timers

end DubboGo.Go
