import DubboGo.Triple.Error

/-!
# Timeouts on the wire

`grpcEncodeTimeout` and `grpcParseTimeout` of `protocol_grpc.go`, for `Grpc-Timeout`, and the two sides of
`Triple-Timeout-Ms` in `protocol_triple.go`.  A `time.Duration` is its number of nanoseconds.
-/

namespace DubboGo.Triple

open Go List

/-! ## `Grpc-Timeout` -/

def hour : ℤ := 3600000000000

def grpcTimeoutUnits : List (ℤ × UInt8) :=
  [(1, 110), (1000, 117), (1000000, 109), (1000000000, 83), (60000000000, 77), (hour, 72)]

def grpcTimeoutMaxHours : ℤ := (2 ^ 63 - 1) / hour

def grpcMaxTimeoutChars : ℕ := 8

/-- `errNoTimeout`, or a protocol error with its text. -/
inductive TimeoutError where
  | noTimeout
  | protocol (text : Str)
  deriving DecidableEq

def grpcTimeoutUnitLookup (c : UInt8) : Option ℤ := (grpcTimeoutUnits.find? fun pair => pair.2 = c).map Prod.fst

def protocolError (before timeout after : Str) : TimeoutError :=
  .protocol (str "gRPC protocol error: " ++ before ++ quote timeout ++ after)

def grpcParseTimeout (timeout : Str) : Except TimeoutError ℤ :=
  match timeout.getLast? with
  | none => .error .noTimeout
  | some c =>
    match grpcTimeoutUnitLookup c with
    | none => .error (protocolError (str "timeout ") timeout (str " has invalid unit"))
    | some unit =>
      match parseInt timeout.dropLast 10 64 with
      | .error _ => .error (protocolError (str "invalid timeout ") timeout [])
      | .ok num =>
        if num < 0 then .error (protocolError (str "invalid timeout ") timeout [])
        else if 99999999 < num then .error (protocolError (str "timeout ") timeout (str " is too long"))
        else if unit = hour ∧ grpcTimeoutMaxHours < num then .error .noTimeout
        else .ok (int64 (num * unit))

def grpcEncodeTimeout (timeout : ℤ) : Except TimeoutError Str :=
  if timeout ≤ 0 then .ok (str "0n")
  else
    match grpcTimeoutUnits.find? fun pair => (itoa (timeout.tdiv pair.1)).length < grpcMaxTimeoutChars with
    | some pair => .ok (itoa (timeout.tdiv pair.1) ++ [pair.2])
    | none => .error .noTimeout

theorem unit_bounds {c : UInt8} {unit : ℤ} (h : grpcTimeoutUnitLookup c = some unit) :
    0 < unit ∧ (unit = hour ∨ unit ≤ 60000000000) := by
  obtain ⟨pair, hfind, rfl⟩ := Option.map_eq_some_iff.1 h
  have hunits : ∀ pair ∈ grpcTimeoutUnits, 0 < pair.1 ∧ (pair.1 = hour ∨ pair.1 ≤ 60000000000) := by decide
  exact hunits pair (mem_of_find?_eq_some hfind)

theorem lookup_of_mem {pair : ℤ × UInt8} (h : pair ∈ grpcTimeoutUnits) :
    grpcTimeoutUnitLookup pair.2 = some pair.1 := by
  have hunits : ∀ pair ∈ grpcTimeoutUnits, grpcTimeoutUnitLookup pair.2 = some pair.1 := by decide
  exact hunits pair h

theorem grpcParseTimeout_read {tmo : Str} (hne : tmo ≠ [])
    (h : (∃ d, grpcParseTimeout tmo = .ok d) ∨ grpcParseTimeout tmo = .error .noTimeout) :
    ∃ c unit num, tmo.getLast? = some c ∧ grpcTimeoutUnitLookup c = some unit ∧
      parseInt tmo.dropLast 10 64 = .ok num ∧ 0 ≤ num ∧ num ≤ 99999999 := by
  have hc := getLast?_eq_some_getLast hne
  simp only [grpcParseTimeout, hc] at h
  cases hunit : grpcTimeoutUnitLookup (tmo.getLast hne) with
  | none => simp [hunit, protocolError] at h
  | some unit =>
    cases hnum : parseInt tmo.dropLast 10 64 with
    | error e => simp [hunit, hnum, protocolError] at h
    | ok num =>
      simp only [hunit, hnum] at h
      split_ifs at h with hneg hlong hhours
      · simp [protocolError] at h
      · simp [protocolError] at h
      · exact ⟨_, unit, num, hc, hunit, rfl, by omega, by omega⟩
      · exact ⟨_, unit, num, hc, hunit, rfl, by omega, by omega⟩

theorem grpcParseTimeout_ok {tmo : Str} {d : ℤ} (h : grpcParseTimeout tmo = .ok d) :
    ∃ c unit num, tmo.getLast? = some c ∧ grpcTimeoutUnitLookup c = some unit ∧
      parseInt tmo.dropLast 10 64 = .ok num ∧ d = num * unit ∧ d < 2 ^ 63 := by
  have hne : tmo ≠ [] := by
    rintro rfl
    cases h
  obtain ⟨c, unit, num, hc, hunit, hnum, hnonneg, hle⟩ := grpcParseTimeout_read hne (.inl ⟨d, h⟩)
  simp only [grpcParseTimeout, hc, hunit, hnum, if_neg (not_lt.2 hnonneg), if_neg (not_lt.2 hle)] at h
  split_ifs at h with hhours
  have hfits : 0 ≤ num * unit ∧ num * unit < 2 ^ 63 := by
    obtain ⟨hpos, rfl | hsmall⟩ := unit_bounds hunit
    · simp only [hour, grpcTimeoutMaxHours, true_and] at hhours ⊢
      omega
    · have hmul : num * unit ≤ 99999999 * 60000000000 := by
        apply mul_le_mul <;> omega
      have hprod : 0 ≤ num * unit := mul_nonneg hnonneg hpos.le
      omega
  rw [int64_of_bounds (by omega) hfits.2] at h
  cases h
  exact ⟨c, unit, num, hc, hunit, hnum, rfl, hfits.2⟩

theorem grpcParseTimeout_digits {digits : Str} {c : UInt8} {unit : ℤ} (hunit : grpcTimeoutUnitLookup c = some unit)
    (hne : digits ≠ []) (hdigits : ∀ x ∈ digits, IsDigit x) (hvalue : decimalValue digits ≤ 99999999) :
    grpcParseTimeout (digits ++ [c]) =
      if unit = hour ∧ grpcTimeoutMaxHours < decimalValue digits then .error .noTimeout
      else .ok (int64 (decimalValue digits * unit)) := by
  have hparse := parseInt_of_isDigit hne hdigits (by omega)
  have hneg : ¬(decimalValue digits : ℤ) < 0 := by omega
  have hlong : ¬(99999999 : ℤ) < decimalValue digits := by omega
  simp only [grpcParseTimeout, getLast?_concat, dropLast_concat, hunit, hparse, if_neg hneg, if_neg hlong]

theorem grpcEncodeTimeout_pos {t : ℤ} (hpos : 0 < t) (hmax : t < 2 ^ 63) :
    ∃ size c, (size, c) ∈ grpcTimeoutUnits ∧ grpcEncodeTimeout t = .ok (decimal (t / size).toNat ++ [c]) ∧
      0 ≤ t / size ∧ t / size < 10 ^ 7 ∧ (t - t / size * size) * 10 ^ 4 ≤ t ∧ 0 ≤ t - t / size * size ∧
      (size = hour → t / size ≤ grpcTimeoutMaxHours) := by
  have hitoa : ∀ size : ℤ, 0 < size → itoa (t.tdiv size) = decimal (t / size).toNat := by
    intro size hsize
    have hnonneg : 0 ≤ t / size := Int.ediv_nonneg hpos.le hsize.le
    rw [Int.tdiv_eq_ediv_of_nonneg hpos.le, ← Int.toNat_of_nonneg hnonneg, itoa_natCast, Int.toNat_natCast]
  have hshort : ∀ size : ℤ, 0 < size → ((itoa (t.tdiv size)).length < grpcMaxTimeoutChars ↔ t < 10 ^ 7 * size) := by
    intro size hsize
    have hnonneg : 0 ≤ t / size := Int.ediv_nonneg hpos.le hsize.le
    rw [hitoa size hsize, grpcMaxTimeoutChars, Nat.lt_succ_iff, length_decimal_le (by norm_num),
      Int.toNat_lt hnonneg, ← Int.ediv_lt_iff_lt_mul hsize]
    norm_num
  have hpick : ∀ (shorter : List (ℤ × UInt8)) (size : ℤ) (c : UInt8) (longer : List (ℤ × UInt8)),
      grpcTimeoutUnits = shorter ++ (size, c) :: longer → (∀ q ∈ shorter, 0 < q.1 ∧ 10 ^ 7 * q.1 ≤ t) → 0 < size →
      t < 10 ^ 7 * size → grpcEncodeTimeout t = .ok (decimal (t / size).toNat ++ [c]) := by
    intro shorter size c longer hunits hshorter hsize hlt
    have hnone : shorter.find? (fun q => (itoa (t.tdiv q.1)).length < grpcMaxTimeoutChars) = none := by
      rw [find?_eq_none]
      intro q hq
      rw [decide_eq_true_eq, hshort q.1 (hshorter q hq).1, not_lt]
      exact (hshorter q hq).2
    have hfits := (hshort size hsize).2 hlt
    simp only [grpcEncodeTimeout, if_neg (not_le.2 hpos), hunits, find?_append, hnone, find?_cons, hfits,
      decide_true, Option.none_or]
    rw [hitoa size hsize]
  simp only [hour, grpcTimeoutMaxHours]
  obtain h | h | h | h | h | h : t < 10 ^ 7 ∨ (10 ^ 7 ≤ t ∧ t < 10 ^ 10) ∨ (10 ^ 10 ≤ t ∧ t < 10 ^ 13) ∨
      (10 ^ 13 ≤ t ∧ t < 10 ^ 16) ∨ (10 ^ 16 ≤ t ∧ t < 6 * 10 ^ 17) ∨ 6 * 10 ^ 17 ≤ t := by omega
  · exact ⟨1, 110, by decide, hpick [] _ _ _ rfl (by simp) (by norm_num) (by omega), by omega⟩
  · exact ⟨1000, 117, by decide, hpick [(1, 110)] _ _ _ rfl (by simp; omega) (by norm_num) (by omega), by omega⟩
  · refine ⟨1000000, 109, by decide, hpick [(1, 110), (1000, 117)] _ _ _ rfl ?_ (by norm_num) (by omega), by omega⟩
    simp
    omega
  · refine ⟨1000000000, 83, by decide, hpick [(1, 110), (1000, 117), (1000000, 109)] _ _ _ rfl ?_ (by norm_num)
      (by omega), by omega⟩
    simp
    omega
  · refine ⟨60000000000, 77, by decide, hpick [(1, 110), (1000, 117), (1000000, 109), (1000000000, 83)] _ _ _ rfl ?_
      (by norm_num) (by omega), by omega⟩
    simp
    omega
  · refine ⟨3600000000000, 72, by decide, hpick [(1, 110), (1000, 117), (1000000, 109), (1000000000, 83),
      (60000000000, 77)] _ _ _ rfl ?_ (by norm_num) (by omega), by omega⟩
    simp
    omega

/-- A deadline that goes over the wire is never lengthened, and loses at most a ten-thousandth. -/
theorem grpc_timeout_kept (t : Int64) :
    ∃ text d, grpcEncodeTimeout t.toInt = .ok text ∧ grpcParseTimeout text = .ok d ∧
      (∃ c unit num, text.getLast? = some c ∧ grpcTimeoutUnitLookup c = some unit ∧
        parseInt text.dropLast 10 64 = .ok num ∧ d = num * unit ∧ num * unit < 2 ^ 63) ∧ (t.toInt ≤ 0 → d = 0) ∧
      (0 < t.toInt → 0 ≤ t.toInt - d ∧ (t.toInt - d) * 10 ^ 4 ≤ t.toInt) := by
  have hmax : t.toInt < 2 ^ 63 := t.toInt_lt
  have hread : ∃ text d, grpcEncodeTimeout t.toInt = .ok text ∧ grpcParseTimeout text = .ok d ∧
      (t.toInt ≤ 0 → d = 0) ∧ (0 < t.toInt → 0 ≤ t.toInt - d ∧ (t.toInt - d) * 10 ^ 4 ≤ t.toInt) := by
    by_cases hpos : 0 < t.toInt
    · obtain ⟨size, c, hmem, hencode, hnonneg, hlt, hloss, hle, hhours⟩ := grpcEncodeTimeout_pos hpos hmax
      have hvalue : decimalValue (decimal (t.toInt / size).toNat) = (t.toInt / size).toNat :=
        (parseUint_ten.1 (parseUint_decimal (show _ < 2 ^ 64 by omega))).2.2.1
      have hunit : grpcTimeoutUnitLookup c = some size := lookup_of_mem hmem
      have hparse := grpcParseTimeout_digits hunit (decimal_ne_nil _) (isDigit_decimal _) (by rw [hvalue]; omega)
      rw [hvalue, Int.toNat_of_nonneg hnonneg, if_neg (fun h => by have := hhours h.1; omega),
        int64_of_bounds (by omega) (by omega)] at hparse
      refine ⟨_, _, hencode, hparse, fun h => by omega, fun _ => ⟨hle, hloss⟩⟩
    · have hencode : grpcEncodeTimeout t.toInt = .ok (str "0n") := if_pos (not_lt.1 hpos)
      exact ⟨_, 0, hencode, by decide, fun _ => rfl, fun h => absurd h hpos⟩
  obtain ⟨text, d, hencode, hparse, hzero, hloss⟩ := hread
  obtain ⟨c, unit, num, hc, hunit, hnum, rfl, hfits⟩ := grpcParseTimeout_ok hparse
  exact ⟨text, _, hencode, hparse, ⟨c, unit, num, hc, hunit, hnum, rfl, hfits⟩, hzero, hloss⟩

def IsGrpcTimeout (s : Str) : Prop :=
  (s.dropLast ≠ [] ∧ s.dropLast.length ≤ 8 ∧ ∀ c ∈ s.dropLast, IsDigit c) ∧ ∃ c ∈ s.getLast?, c ∈ str "numSMH"

instance decidableIsGrpcTimeout (s : Str) : Decidable (IsGrpcTimeout s) := inferInstanceAs (Decidable (_ ∧ _))

theorem lookup_isSome_iff (c : UInt8) : (grpcTimeoutUnitLookup c).isSome = true ↔ c ∈ str "numSMH" := by
  have hunits : str "numSMH" = grpcTimeoutUnits.map Prod.snd := by decide
  rw [grpcTimeoutUnitLookup, Option.isSome_map, find?_isSome, hunits]
  simp only [mem_map, decide_eq_true_eq]

/-- A number that `ParseInt` reads and that is not too long, with a sign or not. -/
def IsReadable (number : Str) : Prop :=
  (splitSign number).2 ≠ [] ∧ (∀ c ∈ (splitSign number).2, IsDigit c) ∧
    decimalValue (splitSign number).2 ≤ if (splitSign number).1 then 0 else 99999999

/-- A timeout beyond the grammar: its number has a sign, or more than eight digits. -/
def IsLaxTimeout (s : Str) : Prop :=
  (∃ c ∈ s.getLast?, c ∈ str "numSMH") ∧ IsReadable s.dropLast ∧
    ((splitSign s.dropLast).2 ≠ s.dropLast ∨ 8 < s.dropLast.length)

theorem grpcParseTimeout_accepts_iff (number : Str) (c : UInt8) :
    ((∃ d, grpcParseTimeout (number ++ [c]) = .ok d) ∨ grpcParseTimeout (number ++ [c]) = .error .noTimeout) ↔
      (grpcTimeoutUnitLookup c).isSome = true ∧ IsReadable number := by
  constructor
  · intro h
    obtain ⟨c', unit, num, hc, hunit, hnum, hpos, hle⟩ := grpcParseTimeout_read (by simp) h
    rw [getLast?_concat] at hc
    cases hc
    rw [dropLast_concat] at hnum
    obtain ⟨hne, hdigits, hvalue, -⟩ := parseInt_ten.1 hnum
    refine ⟨by rw [hunit]; rfl, hne, hdigits, ?_⟩
    split_ifs at hvalue ⊢ <;> omega
  · rintro ⟨hunit, hne, hdigits, hvalue⟩
    obtain ⟨unit, hunit⟩ := Option.isSome_iff_exists.1 hunit
    have hbound : (decimalValue (splitSign number).2 : ℤ) ≤ 99999999 := by
      split_ifs at hvalue <;> omega
    have hparse : parseInt number 10 64 = .ok (decimalValue (splitSign number).2) := by
      refine parseInt_ten.2 ⟨hne, hdigits, ?_, by omega, by omega⟩
      split_ifs at hvalue ⊢ <;> omega
    have hneg : ¬(decimalValue (splitSign number).2 : ℤ) < 0 := by omega
    simp only [grpcParseTimeout, getLast?_concat, dropLast_concat, hunit, hparse, if_neg hneg, if_neg (not_lt.2 hbound)]
    split_ifs
    · exact .inr rfl
    · exact .inl ⟨_, rfl⟩

theorem isReadable_of_isDigit {number : Str} (hne : number ≠ []) (hlength : number.length ≤ 8)
    (hdigits : ∀ c ∈ number, IsDigit c) : IsReadable number := by
  have hlt := valueFrom_lt 0 hdigits
  have hpow : 10 ^ number.length ≤ 10 ^ 8 := Nat.pow_le_pow_right (by norm_num) hlength
  rw [IsReadable, splitSign_of_isDigit hdigits]
  refine ⟨hne, hdigits, ?_⟩
  unfold decimalValue
  dsimp only
  rw [if_neg (by decide)]
  omega

/-- The texts that are read are the timeouts, and they are read as the number times the unit, exactly for the texts
that are not timeouts with a sign or with leading zeros. -/
theorem grpcParseTimeout_grammar (s : Str) :
    ((s ≠ [] → (((∃ d, grpcParseTimeout s = .ok d) ∨ grpcParseTimeout s = .error .noTimeout) ↔ IsGrpcTimeout s)) ∧
      (s = [] → grpcParseTimeout s = .error .noTimeout) ∧
      ∀ d, grpcParseTimeout s = .ok d → ∃ c unit, s = s.dropLast ++ [c] ∧ grpcTimeoutUnitLookup c = some unit ∧
        d = decimalValue s.dropLast * unit ∧ decimalValue s.dropLast * unit < 2 ^ 63) ↔ ¬IsLaxTimeout s := by
  rcases eq_nil_or_concat' s with rfl | ⟨number, c, rfl⟩
  · refine iff_of_true ⟨fun h => absurd rfl h, fun _ => rfl, fun d h => by cases h⟩ ?_
    rintro ⟨⟨c, hc, -⟩, -⟩
    cases hc
  have hgrammar : IsGrpcTimeout (number ++ [c]) ↔ (grpcTimeoutUnitLookup c).isSome = true ∧
      number ≠ [] ∧ number.length ≤ 8 ∧ ∀ x ∈ number, IsDigit x := by
    simp only [IsGrpcTimeout, dropLast_concat, getLast?_concat, Option.mem_some_iff, exists_eq_left',
      lookup_isSome_iff]
    exact and_comm
  have hlax : IsLaxTimeout (number ++ [c]) ↔ (grpcTimeoutUnitLookup c).isSome = true ∧ IsReadable number ∧
      ((splitSign number).2 ≠ number ∨ 8 < number.length) := by
    simp only [IsLaxTimeout, dropLast_concat, getLast?_concat, Option.mem_some_iff, exists_eq_left',
      lookup_isSome_iff]
  rw [hlax, dropLast_concat, grpcParseTimeout_accepts_iff, hgrammar]
  constructor
  · rintro ⟨hexact, -⟩ ⟨hunit, hreadable, hbeyond⟩
    obtain ⟨-, -, hlength, hdigits⟩ := (hexact (by simp)).1 ⟨hunit, hreadable⟩
    rcases hbeyond with hsign | hlong
    · exact hsign (by rw [splitSign_of_isDigit hdigits])
    · omega
  · intro hstrict
    have hplain : (grpcTimeoutUnitLookup c).isSome = true → IsReadable number →
        (splitSign number).2 = number ∧ number.length ≤ 8 := by
      intro hunit hreadable
      by_contra hbeyond
      rw [not_and_or, not_le] at hbeyond
      exact hstrict ⟨hunit, hreadable, hbeyond⟩
    refine ⟨fun _ => ⟨?_, ?_⟩, fun h => absurd h (by simp), fun d hd => ?_⟩
    · rintro ⟨hunit, hreadable⟩
      obtain ⟨hsign, hlength⟩ := hplain hunit hreadable
      obtain ⟨hne, hdigits, -⟩ := hreadable
      rw [hsign] at hne hdigits
      exact ⟨hunit, hne, hlength, hdigits⟩
    · rintro ⟨hunit, hne, hlength, hdigits⟩
      exact ⟨hunit, isReadable_of_isDigit hne hlength hdigits⟩
    · obtain ⟨hunit, hreadable⟩ := (grpcParseTimeout_accepts_iff number c).1 (.inl ⟨d, hd⟩)
      obtain ⟨hsign, -⟩ := hplain hunit hreadable
      have hdigits := hreadable.2.1
      rw [hsign] at hdigits
      obtain ⟨c', unit, num, hc, hunit', hnum, rfl, hfits⟩ := grpcParseTimeout_ok hd
      rw [getLast?_concat] at hc
      cases hc
      rw [dropLast_concat] at hnum
      obtain ⟨-, -, hvalue, -⟩ := parseInt_ten.1 hnum
      rw [splitSign_of_isDigit hdigits] at hvalue
      obtain rfl : num = decimalValue number := hvalue
      exact ⟨c, unit, rfl, hunit', rfl, hfits⟩

theorem grpcParseTimeout_grammar_five : grpcParseTimeout (str "05S") = .ok 5000000000 ∧ IsGrpcTimeout (str "05S") := by
  have hstrict : ¬IsLaxTimeout (str "05S") := by
    rintro ⟨-, -, hsign | hlong⟩
    · exact hsign (by decide)
    · exact absurd hlong (by decide)
  exact ⟨by decide, (((grpcParseTimeout_grammar (str "05S")).2 hstrict).1 (by decide)).1 (.inl ⟨5000000000, by decide⟩)⟩

theorem grpcParseTimeout_lax :
    (grpcParseTimeout (str "+5S") = .ok 5000000000 ∧ ¬IsGrpcTimeout (str "+5S")) ∧
      (grpcParseTimeout (str "-0S") = .ok 0 ∧ ¬IsGrpcTimeout (str "-0S")) ∧
      grpcParseTimeout (str "000000005S") = .ok 5000000000 ∧ ¬IsGrpcTimeout (str "000000005S") := by
  decide +kernel

/-! ## `Triple-Timeout-Ms` -/

def millisecond : ℤ := 1000000

/-- The header that `tripleClient.NewConn` writes when some time is left; a header that is not written is empty. -/
def newConnTimeout (untilDeadline : ℤ) : Str :=
  let millis := untilDeadline.tdiv millisecond
  if 0 < millis ∧ (itoa millis).length ≤ 10 then itoa millis else []

/-- The error of `ParseInt`. -/
def parseIntError (s : Str) : NumError → GoErr
  | .invalid => .plain (str "strconv.ParseInt: parsing " ++ quote s ++ str ": invalid syntax")
  | .outOfRange => .plain (str "strconv.ParseInt: parsing " ++ quote s ++ str ": value out of range")

/-- The timeout that `tripleHandler.SetTimeout` takes from the header, if any. -/
def setTimeout (timeout : Str) : Except Error (Option ℤ) :=
  if timeout = [] then .ok none
  else if 10 < timeout.length then
    .error (errorf codeInvalidArgument (str "parse timeout: " ++ quote timeout ++ str " has >10 digits"))
  else
    match parseInt timeout 10 64 with
    | .error e => .error (errorfWrap codeInvalidArgument (str "parse timeout: ") (parseIntError timeout e))
    | .ok millis => .ok (some (int64 (millis * millisecond)))

/-- Below a millisecond no header is written. -/
theorem newConnTimeout_of_lt {untilDeadline : ℤ} (h : untilDeadline < millisecond) :
    newConnTimeout untilDeadline = [] := by
  have hzero : untilDeadline.tdiv millisecond ≤ 0 := by
    rcases le_total 0 untilDeadline with hpos | hneg
    · exact (Int.tdiv_eq_zero_of_lt hpos h).le
    · have hmirror := Int.tdiv_nonneg (neg_nonneg.2 hneg) (show 0 ≤ millisecond by decide)
      rw [Int.neg_tdiv] at hmirror
      exact neg_nonneg.1 hmirror
  exact if_neg fun hwritten => absurd hwritten.1 (not_lt.2 hzero)

/-- The server has a timeout, and none that is longer than the client's, exactly from a millisecond on. -/
theorem tripleTimeout_kept (t : Int64) (hmax : t.toInt ≤ 9999999999 * millisecond) :
    (∃ d, setTimeout (newConnTimeout t.toInt) = .ok (some d) ∧ d ≤ max t.toInt 0) ↔ millisecond ≤ t.toInt := by
  constructor
  · rintro ⟨d, hd, -⟩
    by_contra hlt
    rw [newConnTimeout_of_lt (not_le.1 hlt)] at hd
    cases hd
  · intro hmin
    unfold millisecond at hmin hmax
    obtain ⟨millis, hmillis⟩ := Int.eq_ofNat_of_zero_le (show 0 ≤ t.toInt / millisecond by unfold millisecond; omega)
    have hdiv : t.toInt.tdiv millisecond = millis := (Int.tdiv_eq_ediv_of_nonneg (by omega)).trans hmillis
    unfold millisecond at hmillis
    have hlength : (decimal millis).length ≤ 10 := (length_decimal_le (by norm_num)).2 (by omega)
    have hpos : (0 : ℤ) < millis := by omega
    have hheader : newConnTimeout t.toInt = decimal millis := by
      simp only [newConnTimeout, hdiv, itoa_natCast, hpos, hlength, and_self, if_true]
    have hparse : parseInt (decimal millis) 10 64 = .ok millis := parseInt_decimal (by omega)
    refine ⟨millis * millisecond, ?_, ?_⟩
    · simp only [hheader, setTimeout, if_neg (decimal_ne_nil millis), if_neg (not_lt.2 hlength), hparse]
      rw [int64_of_bounds (by unfold millisecond; omega) (by unfold millisecond; omega)]
    · unfold millisecond
      omega

theorem tripleTimeout_kept_second : (Int64.ofInt 1500000000).toInt = 1500000000 ∧
      ∃ d, setTimeout (newConnTimeout 1500000000) = .ok (some d) ∧ d ≤ 1500000000 := by
  have hint : (Int64.ofInt 1500000000).toInt = 1500000000 := by decide
  have hkept := (tripleTimeout_kept (Int64.ofInt 1500000000) (by rw [hint]; decide)).2 (by rw [hint]; decide)
  exact ⟨hint, hkept⟩

theorem tripleTimeout_lost : setTimeout (newConnTimeout 500000) = .ok none := rfl

end DubboGo.Triple
