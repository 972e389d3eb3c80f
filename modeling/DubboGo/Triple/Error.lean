import DubboGo.Go.Decimal
import DubboGo.Go.Errors
import DubboGo.Triple.Header

/-!
# Status codes and errors

The status codes of `code.go` with their texts, and the `*Error` of `error.go`, a Go error of the program's own type:
`ErrorHead` is its data apart from the error it wraps, and `GoErr` the type of all error values that can occur.
-/

namespace DubboGo.Triple

open Go

/-! ## Codes -/

abbrev Code := UInt32

def codeCanceled : Code := 1
def codeUnknown : Code := 2
def codeInvalidArgument : Code := 3
def codeDeadlineExceeded : Code := 4
def codeNotFound : Code := 5
def codeAlreadyExists : Code := 6
def codePermissionDenied : Code := 7
def codeResourceExhausted : Code := 8
def codeFailedPrecondition : Code := 9
def codeAborted : Code := 10
def codeOutOfRange : Code := 11
def codeUnimplemented : Code := 12
def codeInternal : Code := 13
def codeUnavailable : Code := 14
def codeDataLoss : Code := 15
def codeUnauthenticated : Code := 16
def codeBizError : Code := 17
def minCode : Code := codeCanceled
def maxCode : Code := codeUnauthenticated

/-- The codes with a name of their own; `String` and `UnmarshalText` switch over the same table. -/
def codeNames : List (Code × Str) :=
  [(codeCanceled, str "canceled"), (codeUnknown, str "unknown"),
    (codeInvalidArgument, str "invalid_argument"),
    (codeDeadlineExceeded, str "deadline_exceeded"), (codeNotFound, str "not_found"),
    (codeAlreadyExists, str "already_exists"), (codePermissionDenied, str "permission_denied"),
    (codeResourceExhausted, str "resource_exhausted"),
    (codeFailedPrecondition, str "failed_precondition"), (codeAborted, str "aborted"),
    (codeOutOfRange, str "out_of_range"), (codeUnimplemented, str "unimplemented"),
    (codeInternal, str "internal"), (codeUnavailable, str "unavailable"),
    (codeDataLoss, str "data_loss"), (codeUnauthenticated, str "unauthenticated")]

/-- `Code.String`, which is also the text of `MarshalText`. -/
def codeString (c : Code) : Str :=
  match codeNames.find? fun p => p.1 = c with
  | some p => p.2
  | none => str "code_" ++ decimal c.toNat

/-- `Code.UnmarshalText`; on failure the error's text. -/
def unmarshalText (data : Str) : Except Str Code :=
  match codeNames.find? fun p => p.2 = data with
  | some p => .ok p.1
  | none =>
    if hasPrefix data (str "code_") then
      let rest := trimPrefix data (str "code_")
      match parseUint rest 10 64 with
      | .ok code =>
        if code < minCode.toNat ∨ maxCode.toNat < code then .ok (UInt32.ofNat code)
        else .error (str "invalid code " ++ quote rest)
      | .error _ => .error (str "invalid code " ++ quote rest)
    else .error (str "invalid code " ++ quote data)

theorem unmarshalText_of_mem {p : Code × Str} (hp : p ∈ codeNames) : unmarshalText p.2 = .ok p.1 := by
  have h : ∀ q ∈ codeNames, codeNames.find? (fun r => r.2 = q.2) = some q := by decide
  unfold unmarshalText
  rw [h p hp]

theorem codeNames_find?_of_canonical {c : Code} (h : minCode.toNat ≤ c.toNat)
    (h' : c.toNat ≤ maxCode.toNat) : codeNames.find? (fun p => p.1 = c) ≠ none := by
  have hc : c = UInt32.ofNat c.toNat := by simp
  simp only [minCode, maxCode, codeCanceled, codeUnauthenticated, UInt32.reduceToNat] at h h'
  rw [hc]
  generalize c.toNat = n at h h'
  interval_cases n <;> decide

theorem codeNames_find?_code (ds : Str) : codeNames.find? (fun p => p.2 = str "code_" ++ ds) = none := by
  have hname : ∀ p ∈ codeNames, hasPrefix p.2 (str "code_") = false := by decide
  rw [List.find?_eq_none]
  intro p hp heq
  have hpre := hname p hp
  rw [of_decide_eq_true heq, hasPrefix_append] at hpre
  cases hpre

theorem unmarshalText_code {ds : Str} {n : ℕ} (h : parseUint ds 10 64 = .ok n) :
    unmarshalText (str "code_" ++ ds) =
      if n < minCode.toNat ∨ maxCode.toNat < n then .ok (UInt32.ofNat n)
      else .error (str "invalid code " ++ quote ds) := by
  dsimp only [unmarshalText]
  rw [codeNames_find?_code, if_pos (hasPrefix_append _ _), trimPrefix_append, h]

theorem unmarshalText_codeString (c : Code) : unmarshalText (codeString c) = .ok c := by
  rcases h : codeNames.find? (fun p => p.1 = c) with - | p
  · rw [codeString, h]
    have hrange : c.toNat < minCode.toNat ∨ maxCode.toNat < c.toNat := by
      by_contra hcan
      rw [not_or, not_lt, not_lt] at hcan
      exact codeNames_find?_of_canonical hcan.1 hcan.2 h
    have hlt : c.toNat < 2 ^ 64 := lt_trans c.toNat_lt (by decide)
    exact (unmarshalText_code (parseUint_decimal hlt)).trans (by rw [if_pos hrange, UInt32.ofNat_toNat])
  · rw [codeString, h]
    rw [unmarshalText_of_mem (List.mem_of_find?_eq_some h)]
    have hp := List.find?_some h
    rw [of_decide_eq_true hp]

/-- A code is read back from its text; of the other texts that are accepted, those of a number below `2 ^ 32`, and no
others, give the number that they show. -/
theorem code_text_exact (c code : Code) (digits : Str) :
    unmarshalText (codeString c) = .ok c ∧
      (digits ≠ [] → (∀ x ∈ digits, IsDigit x) → unmarshalText (str "code_" ++ digits) = .ok code →
        (code.toNat = decimalValue digits ↔ decimalValue digits < 2 ^ 32) ∧
          (decimalValue digits < 2 ^ 32 → ¬(minCode.toNat ≤ code.toNat ∧ code.toNat ≤ maxCode.toNat))) := by
  refine ⟨unmarshalText_codeString c, ?_⟩
  intro hne hdigits h
  have hexact : decimalValue digits < 2 ^ 32 → code.toNat = decimalValue digits ∧
      ¬(minCode.toNat ≤ code.toNat ∧ code.toNat ≤ maxCode.toNat) := by
    intro hfits
    have hparse : parseUint digits 10 64 = .ok (decimalValue digits) :=
      parseUint_ten.2 ⟨hne, hdigits, rfl, by omega⟩
    rw [unmarshalText_code hparse] at h
    split_ifs at h with hrange
    cases h
    have hnat : (UInt32.ofNat (decimalValue digits)).toNat = decimalValue digits := UInt32.toNat_ofNat_of_lt' hfits
    rw [hnat]
    exact ⟨rfl, by omega⟩
  exact ⟨⟨fun heq => heq ▸ code.toNat_lt, fun hfits => (hexact hfits).1⟩, fun hfits => (hexact hfits).2⟩

theorem code_text_exact_ninetynine :
    unmarshalText (str "code_099") = .ok 99 ∧ ¬(minCode.toNat ≤ (99 : Code).toNat ∧ (99 : Code).toNat ≤ maxCode.toNat) :=
  have h : unmarshalText (str "code_" ++ str "099") = .ok 99 := by decide
  ⟨h, ((code_text_exact 17 99 (str "099")).2 (by decide) (by decide +kernel) h).2 (by decide +kernel)⟩

theorem unmarshalText_wraps : unmarshalText (str "code_4294967297") = .ok codeCanceled := by decide

/-! ## Errors -/

structure Any where
  typeUrl : Str
  value : Str
  deriving DecidableEq, Repr

/-- `ErrorDetail`: the detail, and the JSON text it was decoded from, if any. -/
structure ErrorDetail where
  pb : Any
  wireJSON : Str
  deriving DecidableEq, Repr

def defaultAnyResolverPrefix : Str := str "type.googleapis.com/"

def ErrorDetail.type (d : ErrorDetail) : Str := trimPrefix d.pb.typeUrl defaultAnyResolverPrefix

def ErrorDetail.bytes (d : ErrorDetail) : Str := d.pb.value

/-- The fields of an `*Error` other than the error it wraps. -/
structure ErrorHead where
  code : Code
  details : List ErrorDetail
  metadata : Header
  wireErr : Bool

abbrev GoErr := GoError ErrorHead

/-- A non-nil `*Error`; `err` is the wrapped error, which may be nil. -/
structure Error extends ErrorHead where
  err : Option GoErr

namespace Error

/-- The text of an `*Error` from its code and its message. -/
def render (head : ErrorHead) (message : Str) : Str :=
  if message = [] then codeString head.code else codeString head.code ++ str ": " ++ message

/-- An `*Error` as an `error`. -/
def toGo (e : Error) : GoErr := .custom e.toErrorHead e.err

def message (e : Error) : Str := (e.err.map (GoError.text render)).getD []

/-- `errors.Is(e, s)`. -/
def is (s : Sentinel) (e : Error) : Bool := e.toGo.is s

end Error

def newError (c : Code) (underlying : Option GoErr) : Error :=
  { code := c, details := [], metadata := Header.empty, wireErr := false, err := underlying }

def newWireError (c : Code) (underlying : Option GoErr) : Error :=
  { newError c underlying with wireErr := true }

/-- `errorf` with a text that wraps nothing. -/
def errorf (c : Code) (msg : Str) : Error := newError c (some (.plain msg))

/-- `errorf` with a text that ends in `%w`. -/
def errorfWrap (c : Code) (msg : Str) (e : GoErr) : Error := newError c (some (.wrap msg e))

def asError (e : GoErr) : Option Error :=
  e.asCustom.map fun p => { p.1 with err := p.2 }

/-- `CodeOf` on a non-nil error. -/
def codeOf (e : GoErr) : Code := ((asError e).map fun t => t.code).getD codeUnknown

/-- `IsWireError` on a non-nil error. -/
def isWireError (e : GoErr) : Bool := ((asError e).map fun t => t.wireErr).getD false

/-- `wrapIfContextError` on a non-nil error. -/
def wrapIfContextError (e : GoErr) : GoErr :=
  if (asError e).isSome then e
  else if e.is .canceled then (newError codeCanceled (some e)).toGo
  else if e.is .deadlineExceeded then (newError codeDeadlineExceeded (some e)).toGo
  else e

/-- `asMaxBytesError`, where `what` is the formatted first part of the text. -/
def asMaxBytesError (e : GoErr) (what : Str) : Option Error :=
  e.asMaxBytes.map fun limit =>
    errorf codeResourceExhausted (what ++ str ": exceeded " ++ itoa limit ++ str " byte http.MaxBytesReader limit")

@[simp] theorem errorf_is (s : Sentinel) (c : Code) (msg : Str) : (errorf c msg).is s = false := by
  simp [errorf, newError, Error.is, Error.toGo, GoError.is]

@[simp] theorem errorfWrap_is (s : Sentinel) (c : Code) (msg : Str) (e : GoErr) :
    (errorfWrap c msg e).is s = e.is s := by
  simp [errorfWrap, newError, Error.is, Error.toGo, GoError.is]

@[simp] theorem newError_is (s : Sentinel) (c : Code) (e : GoErr) : (newError c (some e)).is s = e.is s := by
  simp [newError, Error.is, Error.toGo, GoError.is]

@[simp] theorem asError_toGo (e : Error) : asError e.toGo = some e := rfl

theorem asError_is (s : Sentinel) : ∀ {e : GoErr} {tripleErr : Error},
    asError e = some tripleErr → tripleErr.is s = e.is s
  | .wrap _ inner, _, h => by
    rw [GoError.is_wrap]
    refine asError_is s (e := inner) ?_
    simpa [asError, GoError.asCustom] using h
  | .custom _ _, _, h => by
    rw [← Option.some.inj h]
    rfl

theorem asError_getD_is (e : GoErr) (c : Code) (msg : Str) (s : Sentinel) :
    ((asError e).getD (errorfWrap c msg e)).is s = e.is s := by
  rcases h : asError e with - | tripleErr
  · exact errorfWrap_is s c msg e
  · exact asError_is s h

/-- Two errors say the same: code, message, and the details by type and bytes.  Metadata and the
internals of the details do not count. -/
structure SameError (a b : Error) : Prop where
  code : a.code = b.code
  message : a.message = b.message
  details : a.details.map (fun d => (d.type, d.bytes)) = b.details.map fun d => (d.type, d.bytes)

theorem SameError.refl (a : Error) : SameError a a := ⟨rfl, rfl, rfl⟩

theorem SameError.symm {a b : Error} (h : SameError a b) : SameError b a :=
  ⟨h.code.symm, h.message.symm, h.details.symm⟩

theorem SameError.trans {a b c : Error} (h : SameError a b) (h' : SameError b c) : SameError a c :=
  ⟨h.code.trans h'.code, h.message.trans h'.message, h.details.trans h'.details⟩

end DubboGo.Triple
