import Mathlib

/-!
# Go strings and numbers as text

A Go string is a sequence of bytes, so texts are lists of bytes (`Str`), with the bytes of a literal given by `str`.
The file has the functions of `strings` and `strconv` that the program uses.  Numbers are unbounded; where the width
matters, `int64` is what the machine keeps of one.
-/

namespace DubboGo.Go

abbrev Str := List UInt8

-- the bytes as numbers: deciding `P` for each of them is much faster than for the type
/-- A property of bytes is checked for the 256 of them. -/
theorem forall_byte {P : UInt8 → Prop} (h : ∀ n < 256, P (UInt8.ofNat n)) (c : UInt8) : P c := by
  have hc := h c.toNat c.toNat_lt
  rwa [UInt8.ofNat_toNat] at hc

/-- The comparison of strings is lawful; the instance has a name, which all definitions share. -/
instance instLawfulBEqStr : LawfulBEq Str := inferInstance

/-- The value of an integer as an `int64`. -/
def int64 (n : ℤ) : ℤ := n.bmod (2 ^ 64)

theorem int64_of_bounds {n : ℤ} (h : -2 ^ 63 ≤ n) (h' : n < 2 ^ 63) : int64 n = n := by
  apply Int.bmod_eq_of_le
  · exact h
  · exact h'

/-- The value of an integer as an `int32`. -/
def int32 (n : ℤ) : ℤ := n.bmod (2 ^ 32)

theorem int32_of_bounds {n : ℤ} (h : -2 ^ 31 ≤ n) (h' : n < 2 ^ 31) : int32 n = n :=
  Int.bmod_eq_of_le (by omega) (by omega)

theorem int32_lt (n : ℤ) : int32 n < 2 ^ 31 := by
  have hlt := Int.bmod_lt (x := n) (m := 2 ^ 32) (by decide)
  exact hlt

/-- A counter that wraps around at every step has wrapped around as its number of steps has. -/
theorem int32_int32_add (n m : ℤ) : int32 (int32 n + m) = int32 (n + m) := by
  simp [int32]

def str (s : String) : Str := s.toByteArray.data.toList

/-- `utf8.ValidString`. -/
def validUtf8 (s : Str) : Bool := (ByteArray.mk s.toArray).validateUTF8

theorem toByteArray_str (s : String) : ByteArray.mk (str s).toArray = s.toByteArray := by
  rw [str, Array.toArray_toList]

/-- The literals of the model are valid texts. -/
theorem validUtf8_str (s : String) : validUtf8 (str s) = true := by
  exact ByteArray.validateUTF8_eq_true_iff.2 s.isValidUTF8

variable {s : Str} {c : UInt8}

theorem validUtf8_append {t : Str} (hs : validUtf8 s = true) (ht : validUtf8 t = true) :
    validUtf8 (s ++ t) = true := by
  unfold validUtf8 at hs ht ⊢
  rw [ByteArray.validateUTF8_eq_true_iff] at hs ht ⊢
  exact hs.append ht

theorem str_injective : Function.Injective str := by
  intro s t h
  rw [← String.toByteArray_inj, ← toByteArray_str s, ← toByteArray_str t, h]

/-! ## Prefixes -/

/-- `strings.HasPrefix(s, p)`. -/
def hasPrefix (s p : Str) : Bool := p.isPrefixOf s

/-- `strings.TrimPrefix(s, p)`. -/
def trimPrefix (s p : Str) : Str := if hasPrefix s p then s.drop p.length else s

/-- `strings.HasSuffix(s, p)`. -/
def hasSuffix (s p : Str) : Bool := p.isSuffixOf s

/-- `strings.Cut(s, sep)` for a separator that is not empty; `none` if it does not occur. -/
def cut (sep : Str) : Str → Option (Str × Str)
  | [] => none
  | c :: s =>
    if hasPrefix (c :: s) sep then some ([], (c :: s).drop sep.length)
    else (cut sep s).map fun p => (c :: p.1, p.2)

/-- What is left of `s` when the occurrences of `old` are taken out, after the next `skip` bytes. -/
def removeLoop (old : Str) : (skip : ℕ) → Str → Str
  | _, [] => []
  | skip + 1, _ :: s => removeLoop old skip s
  | 0, c :: s =>
    if hasPrefix (c :: s) old then removeLoop old (old.length - 1) s else c :: removeLoop old 0 s

/-- `strings.ReplaceAll(s, old, "")` for a text `old` that is not empty. -/
def removeAll (s old : Str) : Str := removeLoop old 0 s

/-- `strings.Trim(s, " ")`. -/
def trimBlanks (s : Str) : Str := ((s.dropWhile (· = 32)).reverse.dropWhile (· = 32)).reverse

def isRegexpSpace (c : UInt8) : Bool := c = 32 ∨ c = 9 ∨ c = 10 ∨ c = 12 ∨ c = 13

/-- `strings.LastIndex(s, sep)` for a separator of one byte; `none` is -1. -/
def lastIndex (c : UInt8) : Str → Option ℕ
  | [] => none
  | x :: s =>
    match lastIndex c s with
    | some i => some (i + 1)
    | none => if x = c then some 0 else none

theorem lastIndex_eq_none_iff : lastIndex c s = none ↔ c ∉ s := by
  induction s with
  | nil => simp [lastIndex]
  | cons x s ih =>
    rw [lastIndex, List.mem_cons, not_or, ← ih]
    cases lastIndex c s with
    | some i => simp
    | none => simp [eq_comm]

theorem lastIndex_append (s : Str) {t : Str} (h : c ∉ t) : lastIndex c (s ++ c :: t) = some s.length := by
  induction s with
  | nil =>
    rw [List.nil_append, lastIndex, lastIndex_eq_none_iff.2 h]
    exact if_pos rfl
  | cons x s ih =>
    rw [List.cons_append, lastIndex, ih]
    rfl

theorem eq_of_lastIndex {i : ℕ} (h : lastIndex c s = some i) :
    s = s.take i ++ c :: s.drop (i + 1) ∧ c ∉ s.drop (i + 1) := by
  induction s generalizing i with
  | nil => cases h
  | cons x s ih =>
    rw [lastIndex] at h
    cases hs : lastIndex c s with
    | some j =>
      rw [hs] at h
      obtain rfl : j + 1 = i := Option.some.inj h
      obtain ⟨heq, hmem⟩ := ih hs
      exact ⟨congrArg (x :: ·) heq, hmem⟩
    | none =>
      rw [hs] at h
      by_cases hx : x = c
      · obtain rfl : 0 = i := by simpa [hx] using h
        exact ⟨by rw [hx]; rfl, lastIndex_eq_none_iff.1 hs⟩
      · simp [hx] at h

theorem hasPrefix_singleton (c x : UInt8) (s : Str) : hasPrefix (x :: s) [c] = (c == x) := by
  simp [hasPrefix, List.isPrefixOf]

theorem cut_of_notMem (hc : c ∉ s) : cut [c] s = none := by
  induction s with
  | nil => rfl
  | cons x s ih =>
    rw [List.mem_cons, not_or] at hc
    rw [cut, hasPrefix_singleton, beq_false_of_ne hc.1, ih hc.2]
    rfl

theorem cut_append (hc : c ∉ s) (t : Str) : cut [c] (s ++ c :: t) = some (s, t) := by
  induction s with
  | nil =>
    rw [List.nil_append, cut, hasPrefix_singleton, beq_self_eq_true]
    rfl
  | cons x s ih =>
    rw [List.mem_cons, not_or] at hc
    rw [List.cons_append, cut, hasPrefix_singleton, beq_false_of_ne hc.1, ih hc.2]
    rfl

/-- A byte in upper-case hexadecimal, as `%02X` writes it. -/
def hexByte (c : UInt8) : Str :=
  let digit (d : ℕ) : UInt8 := if d < 10 then UInt8.ofNat (48 + d) else UInt8.ofNat (55 + d)
  [digit (c.toNat / 16), digit (c.toNat % 16)]

/-- A byte as the `%q` verb shows it.  Bytes from 128 on belong to characters, which are shown as
they are when they are printable. -/
def quoteByte (c : UInt8) : Str :=
  if c = 34 then str "\\\""
  else if c = 92 then str "\\\\"
  else if c = 7 then str "\\a"
  else if c = 8 then str "\\b"
  else if c = 9 then str "\\t"
  else if c = 10 then str "\\n"
  else if c = 11 then str "\\v"
  else if c = 12 then str "\\f"
  else if c = 13 then str "\\r"
  else if c < 32 ∨ c = 127 then str "\\x" ++ (hexByte c).map fun d => if 65 ≤ d then d + 32 else d
  else [c]

/-- The `%q` verb, for texts whose characters outside ASCII are printable. -/
def quote (s : Str) : Str := 34 :: s.flatMap quoteByte ++ [34]

theorem hasPrefix_append (p s : Str) : hasPrefix (p ++ s) p = true := by
  simp [hasPrefix]

theorem trimPrefix_append (p s : Str) : trimPrefix (p ++ s) p = s := by
  rw [trimPrefix, if_pos (hasPrefix_append p s), List.drop_left]

/-! ## Letters -/

/-- `unicode.ToLower` on ASCII. -/
def toLower (c : UInt8) : UInt8 := if 65 ≤ c.toNat ∧ c.toNat ≤ 90 then c + 32 else c

/-- `unicode.ToUpper` on ASCII. -/
def toUpper (c : UInt8) : UInt8 := if 97 ≤ c.toNat ∧ c.toNat ≤ 122 then c - 32 else c

theorem toNat_toLower (c : UInt8) :
    (toLower c).toNat = if 65 ≤ c.toNat ∧ c.toNat ≤ 90 then c.toNat + 32 else c.toNat := by
  unfold toLower
  split_ifs with h
  · rw [UInt8.toNat_add]
    have : (32 : UInt8).toNat = 32 := rfl
    omega
  · rfl

theorem toNat_toUpper (c : UInt8) :
    (toUpper c).toNat = if 97 ≤ c.toNat ∧ c.toNat ≤ 122 then c.toNat - 32 else c.toNat := by
  unfold toUpper
  split_ifs with h
  · rw [UInt8.toNat_sub]
    have : (32 : UInt8).toNat = 32 := rfl
    omega
  · rfl

theorem toLower_toLower (c : UInt8) : toLower (toLower c) = toLower c := by
  apply UInt8.toNat_inj.1
  simp only [toNat_toLower]
  split_ifs <;> omega

theorem toLower_toUpper (c : UInt8) : toLower (toUpper c) = toLower c := by
  apply UInt8.toNat_inj.1
  simp only [toNat_toLower, toNat_toUpper]
  split_ifs <;> omega

theorem eq_toUpper_or_eq_toLower (c : UInt8) : c = toUpper c ∨ c = toLower c := by
  unfold toUpper toLower
  split_ifs with h h'
  · omega
  · exact .inr rfl
  · exact .inl rfl
  · exact .inl rfl

/-! ## Numbers -/

/-- The digit `d < 10` as a byte. -/
def digitByte (d : ℕ) : UInt8 := UInt8.ofNat (48 + d)

/-- A natural number in base ten, as `strconv.FormatUint(n, 10)` writes it. -/
def decimal (n : ℕ) : Str :=
  if n = 0 then [digitByte 0] else (Nat.digits 10 n).reverse.map digitByte

def itoa (n : ℤ) : Str := if n < 0 then 45 :: decimal n.natAbs else decimal n.natAbs

/-- The errors of `strconv.ParseUint`: a byte that is no digit (or no byte at all), and a value
that does not fit. -/
inductive NumError where
  | invalid
  | outOfRange
  deriving DecidableEq, Repr

def digitVal (base : ℕ) (c : UInt8) : Option ℕ :=
  let d := if 48 ≤ c ∧ c ≤ 57 then some (c.toNat - 48)
    else if 97 ≤ c ∧ c ≤ 122 then some (c.toNat - 97 + 10)
    else if 65 ≤ c ∧ c ≤ 90 then some (c.toNat - 65 + 10)
    else none
  d.bind fun v => if v < base then some v else none

/-- The loop of `strconv.ParseUint`: `n` is the value of the digits read so far. -/
def parseDigits (base max : ℕ) : ℕ → Str → Except NumError ℕ
  | n, [] => .ok n
  | n, c :: cs =>
    match digitVal base c with
    | none => .error .invalid
    | some d =>
      if max < n * base + d then .error .outOfRange else parseDigits base max (n * base + d) cs

/-- `strconv.ParseUint(s, base, bits)` for an explicit base. -/
def parseUint (s : Str) (base bits : ℕ) : Except NumError ℕ :=
  if s = [] then .error .invalid else parseDigits base (2 ^ bits - 1) 0 s

def splitSign : Str → Bool × Str
  | 43 :: rest => (false, rest)
  | 45 :: rest => (true, rest)
  | rest => (false, rest)

/-- `strconv.ParseInt(s, base, bits)` for an explicit base; `strconv.Atoi` is `ParseInt` with the
base ten and 64 bits. -/
def parseInt (s : Str) (base bits : ℕ) : Except NumError ℤ :=
  match parseUint (splitSign s).2 base bits with
  | .error e => .error e
  | .ok n =>
    if (splitSign s).1 then
      if 2 ^ (bits - 1) < n then .error .outOfRange else .ok (-n)
    else if 2 ^ (bits - 1) ≤ n then .error .outOfRange else .ok n

/-- The number that `strconv.Atoi` returns, with an error or without. -/
def atoi (s : Str) : ℤ :=
  match parseInt s 10 64 with
  | .ok n => n
  | .error .invalid => 0
  | .error .outOfRange => if (splitSign s).1 then -2 ^ 63 else 2 ^ 63 - 1

theorem parseInt_lt {base bits : ℕ} {n : ℤ} (h : parseInt s base bits = .ok n) : n < 2 ^ (bits - 1) := by
  unfold parseInt at h
  split at h
  · cases h
  · split_ifs at h with hneg hbig hbig <;> cases h
    · have hpos : (0 : ℤ) < 2 ^ (bits - 1) := by positivity
      omega
    · exact_mod_cast not_le.1 hbig

/-- `strconv.ParseBool`; `none` is the error. -/
def parseBool (s : Str) : Option Bool :=
  if s ∈ [str "1", str "t", str "T", str "true", str "TRUE", str "True"] then some true
  else if s ∈ [str "0", str "f", str "F", str "false", str "FALSE", str "False"] then some false
  else none

theorem digitVal_digitByte {d : ℕ} (h : d < 10) : digitVal 10 (digitByte d) = some d := by
  interval_cases d <;> rfl

/-- The value of a list of decimal digits, most significant first, after `n`. -/
def digitsValue (n : ℕ) (ds : List ℕ) : ℕ := ds.foldl (fun a d => a * 10 + d) n

theorem le_digitsValue (n : ℕ) (ds : List ℕ) : n ≤ digitsValue n ds := by
  induction ds generalizing n with
  | nil => exact le_rfl
  | cons d ds ih =>
    refine le_trans ?_ (ih (n * 10 + d))
    omega

theorem parseDigits_map_digitByte {m : ℕ} (n : ℕ) (ds : List ℕ) (hd : ∀ d ∈ ds, d < 10)
    (hmax : digitsValue n ds ≤ m) : parseDigits 10 m n (ds.map digitByte) = .ok (digitsValue n ds) := by
  induction ds generalizing n with
  | nil => rfl
  | cons d ds ih =>
    have hle : n * 10 + d ≤ m := le_trans (le_digitsValue _ ds) hmax
    rw [List.map_cons, parseDigits, digitVal_digitByte (hd d (by simp))]
    simp only [if_neg (not_lt.2 hle)]
    exact ih (n * 10 + d) (fun e he => hd e (by simp [he])) hmax

theorem digitsValue_digits (n : ℕ) : digitsValue 0 (Nat.digits 10 n).reverse = n := by
  have h := Nat.ofDigits_digits 10 n
  rw [Nat.ofDigits_eq_foldr] at h
  rw [digitsValue, List.foldl_reverse]
  simpa [mul_comm, add_comm] using h

theorem decimal_ne_nil (n : ℕ) : decimal n ≠ [] := by
  unfold decimal
  split_ifs with h
  · simp
  · simpa [Nat.digits_eq_nil_iff_eq_zero] using h

theorem parseUint_decimal {n bits : ℕ} (h : n < 2 ^ bits) : parseUint (decimal n) 10 bits = .ok n := by
  rw [parseUint, if_neg (decimal_ne_nil n), decimal]
  split_ifs with h0
  · subst h0
    exact parseDigits_map_digitByte 0 [0] (by simp) (by simp [digitsValue])
  · have hv := digitsValue_digits n
    have := parseDigits_map_digitByte (m := 2 ^ bits - 1) 0 (Nat.digits 10 n).reverse
      (fun d hd => Nat.digits_lt_base (by norm_num) (List.mem_reverse.1 hd))
      (by rw [hv]; omega)
    rw [this, hv]

theorem itoa_natCast (n : ℕ) : itoa n = decimal n := by
  simp [itoa]

theorem decimal_eq_zero_iff (n : ℕ) : decimal n = [48] ↔ n = 0 := by
  constructor
  · intro h
    by_contra h0
    have hlt : n < 2 ^ n := Nat.lt_two_pow_self
    have hn := parseUint_decimal hlt
    rw [h] at hn
    exact h0 (Except.ok.inj hn).symm
  · rintro rfl
    rfl

theorem itoa_eq_zero_iff (n : ℤ) : itoa n = [48] ↔ n = 0 := by
  unfold itoa
  split_ifs with h
  · exact iff_of_false (by simp) (by omega)
  · rw [decimal_eq_zero_iff, Int.natAbs_eq_zero]

end DubboGo.Go
