import DubboGo.Go.Text

/-!
# Decimal numerals

Which texts `strconv` reads as decimal numbers, and how many digits it writes.
-/

namespace DubboGo.Go

def IsDigit (c : UInt8) : Prop := 48 ≤ c.toNat ∧ c.toNat ≤ 57

instance decidableIsDigit (c : UInt8) : Decidable (IsDigit c) := inferInstanceAs (Decidable (_ ∧ _))

/-- The number that `n` followed by decimal digits denotes. -/
def valueFrom (n : ℕ) (s : Str) : ℕ := s.foldl (fun n c => n * 10 + (c.toNat - 48)) n

def decimalValue (s : Str) : ℕ := valueFrom 0 s

theorem mul_pow_le_valueFrom (n : ℕ) (s : Str) : n * 10 ^ s.length ≤ valueFrom n s := by
  induction s generalizing n with
  | nil => simp [valueFrom]
  | cons c s ih =>
    calc n * 10 ^ (s.length + 1) = (n * 10) * 10 ^ s.length := by ring
      _ ≤ (n * 10 + (c.toNat - 48)) * 10 ^ s.length := Nat.mul_le_mul_right _ (Nat.le_add_right _ _)
      _ ≤ valueFrom n (c :: s) := ih _

theorem le_valueFrom (n : ℕ) (s : Str) : n ≤ valueFrom n s :=
  (Nat.le_mul_of_pos_right n (by positivity)).trans (mul_pow_le_valueFrom n s)

variable {s : Str} {n : ℕ}

theorem valueFrom_lt (n : ℕ) (h : ∀ c ∈ s, IsDigit c) : valueFrom n s < (n + 1) * 10 ^ s.length := by
  induction s generalizing n with
  | nil => simp [valueFrom]
  | cons c s ih =>
    have hc := h c List.mem_cons_self
    have hlt := ih (n * 10 + (c.toNat - 48)) fun x hx => h x (List.mem_cons_of_mem c hx)
    have hle : (n * 10 + (c.toNat - 48) + 1) * 10 ^ s.length ≤ ((n + 1) * 10) * 10 ^ s.length := by
      apply Nat.mul_le_mul_right
      have := hc.2
      omega
    rw [List.length_cons, pow_succ', ← mul_assoc]
    exact lt_of_lt_of_le hlt hle

theorem digitVal_ten (c : UInt8) : digitVal 10 c = if IsDigit c then some (c.toNat - 48) else none := by
  have hdigit : digitVal 10 c = if 48 ≤ c.toNat ∧ c.toNat ≤ 57 then some (c.toNat - 48) else none := by
    simp only [digitVal, UInt8.le_iff_toNat_le, UInt8.reduceToNat]
    split_ifs <;> simp only [Option.bind_some, Option.bind_none] <;> split_ifs <;> first | rfl | omega
  exact hdigit.trans (if_congr Iff.rfl rfl rfl)

theorem parseDigits_ten {max m : ℕ} (hn : n ≤ max) (s : Str) :
    parseDigits 10 max n s = .ok m ↔ (∀ c ∈ s, IsDigit c) ∧ valueFrom n s = m ∧ m ≤ max := by
  induction s generalizing n with
  | nil =>
    simp only [parseDigits, valueFrom, List.foldl_nil, Except.ok.injEq]
    constructor
    · rintro rfl
      exact ⟨fun _ hc => absurd hc List.not_mem_nil, rfl, hn⟩
    · exact fun h => h.2.1
  | cons c s ih =>
    have hle := le_valueFrom (n * 10 + (c.toNat - 48)) s
    have hvalue : valueFrom n (c :: s) = valueFrom (n * 10 + (c.toNat - 48)) s := rfl
    simp only [parseDigits, digitVal_ten, hvalue, List.forall_mem_cons]
    by_cases hc : IsDigit c
    · simp only [hc, if_true, true_and]
      split_ifs with hbig
      · simp only [false_iff]
        omega
      · exact ih (not_lt.1 hbig)
    · simp [hc]

theorem parseUint_ten {bits : ℕ} :
    parseUint s 10 bits = .ok n ↔ s ≠ [] ∧ (∀ c ∈ s, IsDigit c) ∧ decimalValue s = n ∧ n < 2 ^ bits := by
  have hpos : 0 < 2 ^ bits := by positivity
  unfold parseUint
  split_ifs with hs
  · simp [hs]
  · rw [parseDigits_ten (Nat.zero_le _), decimalValue, Nat.le_sub_one_iff_lt hpos]
    simp [hs]

theorem isDigit_decimal (n : ℕ) : ∀ c ∈ decimal n, IsDigit c :=
  (parseUint_ten.1 (parseUint_decimal (show n < 2 ^ n from Nat.lt_two_pow_self))).2.1

theorem length_decimal_le {k : ℕ} (hk : 0 < k) : (decimal n).length ≤ k ↔ n < 10 ^ k := by
  unfold decimal
  split_ifs with hn
  · simp [hn]
    omega
  · rw [List.length_map, List.length_reverse, Nat.digits_length_le_iff (by norm_num)]

theorem splitSign_of_isDigit (h : ∀ c ∈ s, IsDigit c) : splitSign s = (false, s) := by
  unfold splitSign
  split
  · exact absurd (h 43 List.mem_cons_self) (by decide)
  · exact absurd (h 45 List.mem_cons_self) (by decide)
  · rfl

theorem parseInt_of_isDigit (hs : s ≠ []) (h : ∀ c ∈ s, IsDigit c) (hlt : decimalValue s < 2 ^ 63) :
    parseInt s 10 64 = .ok (decimalValue s) := by
  have hparse : parseUint s 10 64 = .ok (decimalValue s) := parseUint_ten.2 ⟨hs, h, rfl, by omega⟩
  unfold parseInt
  rw [splitSign_of_isDigit h, hparse]
  exact if_neg (not_le.2 hlt)

theorem parseInt_decimal (h : n < 2 ^ 63) : parseInt (decimal n) 10 64 = .ok n := by
  obtain ⟨hs, hdigits, hvalue, -⟩ := parseUint_ten.1 (parseUint_decimal (show n < 2 ^ 64 by omega))
  rw [parseInt_of_isDigit hs hdigits (by rw [hvalue]; exact h), hvalue]

/-- The texts of numbers for `strconv.ParseInt(s, 10, 64)`: an optional sign and digits. -/
theorem parseInt_ten {num : ℤ} : parseInt s 10 64 = .ok num ↔
    (splitSign s).2 ≠ [] ∧ (∀ c ∈ (splitSign s).2, IsDigit c) ∧
      num = (if (splitSign s).1 then -(decimalValue (splitSign s).2 : ℤ) else decimalValue (splitSign s).2) ∧
      -2 ^ 63 ≤ num ∧ num < 2 ^ 63 := by
  unfold parseInt
  constructor
  · intro h
    cases hparse : parseUint (splitSign s).2 10 64 with
    | error e =>
      rw [hparse] at h
      cases h
    | ok n =>
      obtain ⟨hne, hdigits, rfl, -⟩ := parseUint_ten.1 hparse
      simp only [hparse] at h
      refine ⟨hne, hdigits, ?_⟩
      split_ifs at h ⊢ <;> cases h <;> omega
  · rintro ⟨hne, hdigits, hnum, hmin, hmax⟩
    have hparse : parseUint (splitSign s).2 10 64 = .ok (decimalValue (splitSign s).2) := by
      refine parseUint_ten.2 ⟨hne, hdigits, rfl, ?_⟩
      split_ifs at hnum <;> omega
    simp only [hparse]
    split_ifs at hnum ⊢ <;> first | omega | rw [hnum]

/-! ## Numbers that name their base -/

/-- The `lower` of `strconv`. -/
def lowerBit (c : UInt8) : UInt8 := c ||| 32

def splitBase : Str → ℕ × Str
  | 48 :: x :: d :: s =>
    if lowerBit x = 98 then (2, d :: s)
    else if lowerBit x = 111 then (8, d :: s)
    else if lowerBit x = 120 then (16, d :: s)
    else (8, x :: d :: s)
  | 48 :: s => (8, s)
  | s => (10, s)

/-- The loop of `underscoreOK`; `i` stands for the previous byte. -/
def underscoreLoop (hex : Bool) : (i : UInt8) → Str → Bool
  | i, [] => i != 95
  | i, c :: s =>
    if IsDigit c ∨ hex = true ∧ 97 ≤ lowerBit c ∧ lowerBit c ≤ 102 then underscoreLoop hex 48 s
    else if c = 95 then i == 48 && underscoreLoop hex 95 s
    else i != 95 && underscoreLoop hex 33 s

/-- `underscoreOK`, of a number without a sign. -/
def underscoreOK : Str → Bool
  | 48 :: x :: s =>
    if lowerBit x ∈ [98, 111, 120] then underscoreLoop (lowerBit x = 120) 48 s
    else underscoreLoop false 94 (48 :: x :: s)
  | s => underscoreLoop false 94 s

/-- `strconv.ParseUint(s, 0, 64)`; `none` is an error. -/
def parseUintAuto (s : Str) : Option ℕ :=
  if s = [] ∨ 95 ∈ s ∧ underscoreOK s = false then none
  else (parseDigits (splitBase s).1 (2 ^ 64 - 1) 0 ((splitBase s).2.filter (· ≠ 95))).toOption

/-- `strconv.ParseInt(s, 0, 64)`; `none` is an error. -/
def parseIntAuto (s : Str) : Option ℤ :=
  (parseUintAuto (splitSign s).2).bind fun n =>
    if (splitSign s).1 then if 2 ^ 63 < n then none else some (-n)
    else if 2 ^ 63 ≤ n then none else some n

end DubboGo.Go
