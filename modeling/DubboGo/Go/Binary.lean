import DubboGo.Go.Text

/-!
# Big-endian numbers

`binary.BigEndian` for a number of any width: `putUint width` writes its bytes, and `uint` reads them.
-/

namespace DubboGo.Go

/-- The `width` bytes of a number, the highest one first (`PutUint32`, `PutUint64`). -/
def putUint : ℕ → ℕ → Str
  | 0, _ => []
  | width + 1, n => putUint width (n / 256) ++ [UInt8.ofNat n]

/-- The number with these bytes (`Uint32`, `Uint64`). -/
def uint (bytes : Str) : ℕ := bytes.foldl (fun n b => n * 256 + b.toNat) 0

@[simp]
theorem length_putUint (width n : ℕ) : (putUint width n).length = width := by
  induction width generalizing n with
  | zero => rfl
  | succ width ih => rw [putUint, List.length_append, ih, List.length_singleton]

theorem uint_concat (bytes : Str) (b : UInt8) : uint (bytes ++ [b]) = uint bytes * 256 + b.toNat := by
  unfold uint
  rw [List.foldl_append]
  rfl

theorem uint_eq_zero {bytes : Str} (h : ∀ b ∈ bytes, b = 0) : uint bytes = 0 := by
  rw [List.eq_replicate_of_mem h]
  unfold uint
  induction bytes.length with
  | zero => rfl
  | succ n ih => exact ih

theorem uint_putUint (width n : ℕ) : uint (putUint width n) = n % 256 ^ width := by
  induction width generalizing n with
  | zero => simp [putUint, uint, Nat.mod_one]
  | succ width ih =>
    have hmod : n % 256 ^ (width + 1) = n % 256 + 256 * (n / 256 % 256 ^ width) := by
      rw [pow_succ', Nat.mod_mul]
    rw [putUint, uint_concat, ih, UInt8.toNat_ofNat', hmod]
    omega

end DubboGo.Go
