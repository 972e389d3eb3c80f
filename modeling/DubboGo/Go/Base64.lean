import DubboGo.Go.Text

/-!
# Standard base64

The alphabet and the two variants of `encoding/base64` that binary headers use: unpadded
(`RawStdEncoding`) and padded (`StdEncoding`).  As in the Go decoder, carriage returns and newlines
are skipped and the bits left over in the last character are not checked.
-/

namespace DubboGo.Go.Base64

def encodeSextet (v : ℕ) : UInt8 :=
  if v < 26 then UInt8.ofNat (65 + v)
  else if v < 52 then UInt8.ofNat (97 + (v - 26))
  else if v < 62 then UInt8.ofNat (48 + (v - 52))
  else if v = 62 then 43
  else 47

def decodeSextet (c : UInt8) : Option ℕ :=
  if 65 ≤ c ∧ c ≤ 90 then some (c.toNat - 65)
  else if 97 ≤ c ∧ c ≤ 122 then some (c.toNat - 97 + 26)
  else if 48 ≤ c ∧ c ≤ 57 then some (c.toNat - 48 + 52)
  else if c = 43 then some 62
  else if c = 47 then some 63
  else none

/-- The alphabet gives every sextet its own letter. -/
theorem decodeSextet_encodeSextet {v : ℕ} (h : v < 64) : decodeSextet (encodeSextet v) = some v := by
  have all : ∀ v : Fin 64, decodeSextet (encodeSextet v) = some v.val := by decide
  exact all ⟨v, h⟩

/-- The padding character `=`. -/
def pad : UInt8 := 61

theorem encodeSextet_plain (v : ℕ) : encodeSextet v ≠ 10 ∧ encodeSextet v ≠ 13 ∧ encodeSextet v ≠ pad := by
  have all : ∀ v : Fin 64, encodeSextet v ≠ 10 ∧ encodeSextet v ≠ 13 ∧ encodeSextet v ≠ pad := by
    decide
  by_cases h : v < 64
  · exact all ⟨v, h⟩
  · simp only [encodeSextet]
    rw [if_neg (by omega), if_neg (by omega), if_neg (by omega), if_neg (by omega)]
    decide

/-- `base64.RawStdEncoding.EncodeToString`. -/
def rawEncode : Str → Str
  | [] => []
  | [a] => [encodeSextet (a.toNat / 4), encodeSextet (a.toNat % 4 * 16)]
  | [a, b] =>
    [encodeSextet (a.toNat / 4), encodeSextet (a.toNat % 4 * 16 + b.toNat / 16), encodeSextet (b.toNat % 16 * 4)]
  | a :: b :: c :: rest =>
    encodeSextet (a.toNat / 4) :: encodeSextet (a.toNat % 4 * 16 + b.toNat / 16) ::
      encodeSextet (b.toNat % 16 * 4 + c.toNat / 64) :: encodeSextet (c.toNat % 64) ::
      rawEncode rest

def byte1 (v w : ℕ) : UInt8 := UInt8.ofNat (v * 4 + w / 16)

def byte2 (w x : ℕ) : UInt8 := UInt8.ofNat (w % 16 * 16 + x / 4)

def byte3 (x y : ℕ) : UInt8 := UInt8.ofNat (x % 4 * 64 + y)

/-- The quanta of a text without line ends.  `padded` tells the variants apart: the padded one
wants its last quantum filled up with `=`, the unpadded one knows no `=`. -/
def decodeQuanta (padded : Bool) : Str → Option Str
  | [] => some []
  | [a, b] =>
    if padded then none
    else do
      let v ← decodeSextet a
      let w ← decodeSextet b
      return [byte1 v w]
  | [a, b, c] =>
    if padded then none
    else do
      let v ← decodeSextet a
      let w ← decodeSextet b
      let x ← decodeSextet c
      return [byte1 v w, byte2 w x]
  | a :: b :: c :: d :: rest => do
    let v ← decodeSextet a
    let w ← decodeSextet b
    if padded && c = pad then
      -- the quantum is `ab==` and must be the last
      if d = pad && rest = [] then return [byte1 v w] else none
    else
      let x ← decodeSextet c
      if padded && d = pad then
        if rest = [] then return [byte1 v w, byte2 w x] else none
      else
        let y ← decodeSextet d
        let tail ← decodeQuanta padded rest
        return byte1 v w :: byte2 w x :: byte3 x y :: tail
  | _ => none

def skipNewlines (s : Str) : Str := s.filter fun c => c ≠ 10 && c ≠ 13

/-- `base64.RawStdEncoding.DecodeString`. -/
def rawDecode (s : Str) : Option Str := decodeQuanta false (skipNewlines s)

/-- `base64.StdEncoding.DecodeString`. -/
def stdDecode (s : Str) : Option Str := decodeQuanta true (skipNewlines s)

/-! ## Round trips -/

theorem byte1_encode (a : UInt8) {k : ℕ} (hk : k < 16) : byte1 (a.toNat / 4) (a.toNat % 4 * 16 + k) = a := by
  have h : a.toNat / 4 * 4 + (a.toNat % 4 * 16 + k) / 16 = a.toNat := by omega
  rw [byte1, h, UInt8.ofNat_toNat]

theorem byte2_encode (b : UInt8) (n : ℕ) {k : ℕ} (hk : k < 4) :
    byte2 (n * 16 + b.toNat / 16) (b.toNat % 16 * 4 + k) = b := by
  have hb := b.toNat_lt
  have h : (n * 16 + b.toNat / 16) % 16 * 16 + (b.toNat % 16 * 4 + k) / 4 = b.toNat := by omega
  rw [byte2, h, UInt8.ofNat_toNat]

theorem byte3_encode (c : UInt8) (n : ℕ) : byte3 (n * 4 + c.toNat / 64) (c.toNat % 64) = c := by
  have hc := c.toNat_lt
  have h : (n * 4 + c.toNat / 64) % 4 * 64 + c.toNat % 64 = c.toNat := by omega
  rw [byte3, h, UInt8.ofNat_toNat]

theorem sextets_lt (a b c : UInt8) : a.toNat / 4 < 64 ∧ a.toNat % 4 * 16 + b.toNat / 16 < 64 ∧
      b.toNat % 16 * 4 + c.toNat / 64 < 64 := by
  have ha := a.toNat_lt
  have hb := b.toNat_lt
  have hc := c.toNat_lt
  omega

theorem decodeQuanta_rawEncode (padded : Bool) (s : Str) (h : padded = true → (rawEncode s).length % 4 = 0) :
    decodeQuanta padded (rawEncode s) = some s := by
  induction s using rawEncode.induct with
  | case1 => rfl
  | case2 a =>
    obtain rfl : padded = false := by
      cases padded
      · rfl
      · simp [rawEncode] at h
    obtain ⟨h1, h2, -⟩ := sextets_lt a 0 0
    have hb := byte1_encode a (k := 0) (by norm_num)
    simp only [UInt8.toNat_zero, Nat.zero_div, add_zero] at h2 hb
    simp [rawEncode, decodeQuanta, decodeSextet_encodeSextet h1, decodeSextet_encodeSextet h2, hb]
  | case3 a b =>
    obtain rfl : padded = false := by
      cases padded
      · rfl
      · simp [rawEncode] at h
    obtain ⟨h1, h2, h3⟩ := sextets_lt a b 0
    have hb1 := byte1_encode a (k := b.toNat / 16) (by have := b.toNat_lt; omega)
    have hb2 := byte2_encode b (a.toNat % 4) (k := 0) (by norm_num)
    simp only [UInt8.toNat_zero, Nat.zero_div, add_zero] at h3 hb2
    simp [rawEncode, decodeQuanta, decodeSextet_encodeSextet h1, decodeSextet_encodeSextet h2,
      decodeSextet_encodeSextet h3, hb1, hb2]
  | case4 a b c rest ih =>
    obtain ⟨h1, h2, h3⟩ := sextets_lt a b c
    have hb1 := byte1_encode a (k := b.toNat / 16) (by have := b.toNat_lt; omega)
    have hb2 := byte2_encode b (a.toNat % 4) (k := c.toNat / 64) (by have := c.toNat_lt; omega)
    have ih' := ih fun hp => by
      have := h hp
      simp only [rawEncode, List.length_cons] at this
      omega
    simp only [rawEncode, decodeQuanta, decodeSextet_encodeSextet h1, decodeSextet_encodeSextet h2,
      decodeSextet_encodeSextet h3, (encodeSextet_plain _).2.2, decide_false, Bool.and_false,
      Bool.false_eq_true, if_false, Option.bind_eq_bind, Option.bind_some,
      decodeSextet_encodeSextet (Nat.mod_lt c.toNat (by norm_num : 0 < 64)), ih', hb1, hb2,
      byte3_encode]
    rfl

theorem skipNewlines_rawEncode (s : Str) : skipNewlines (rawEncode s) = rawEncode s := by
  have keep : ∀ v, (encodeSextet v ≠ 10 && encodeSextet v ≠ 13) = true := fun v => by
    simp [(encodeSextet_plain v).1, (encodeSextet_plain v).2.1]
  induction s using rawEncode.induct with
  | case1 => rfl
  | case2 a => simp only [skipNewlines, rawEncode, List.filter_cons, keep, if_true, List.filter_nil]
  | case3 a b =>
    simp only [skipNewlines, rawEncode, List.filter_cons, keep, if_true, List.filter_nil]
  | case4 a b c rest ih =>
    simp only [skipNewlines, rawEncode, List.filter_cons, keep, if_true] at ih ⊢
    rw [ih]

theorem rawDecode_rawEncode (s : Str) : rawDecode (rawEncode s) = some s := by
  rw [rawDecode, skipNewlines_rawEncode]
  exact decodeQuanta_rawEncode false s (by simp)

theorem stdDecode_rawEncode {s : Str} (h : (rawEncode s).length % 4 = 0) : stdDecode (rawEncode s) = some s := by
  rw [stdDecode, skipNewlines_rawEncode]
  exact decodeQuanta_rawEncode true s fun _ => h

end DubboGo.Go.Base64
