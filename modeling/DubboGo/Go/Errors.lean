import DubboGo.Go.Text

/-!
# Go error values

An error is a chain of wrappers with a sentinel or a plain text at its end.  A wrapper is `fmt.Errorf` with a final
`%w` or a value of the program's own error type, whose data is the parameter `χ`.  `errors.Is` and `errors.As` walk
down the chain.
-/

namespace DubboGo.Go

/-- The sentinel errors of `io` and `context` that programs compare with. -/
inductive Sentinel where
  | eof
  | unexpectedEOF
  | shortWrite
  | closedPipe
  | canceled
  | deadlineExceeded
  deriving DecidableEq, Repr

def Sentinel.text : Sentinel → Str
  | eof => str "EOF"
  | unexpectedEOF => str "unexpected EOF"
  | shortWrite => str "short write"
  | closedPipe => str "io: read/write on closed pipe"
  | canceled => str "context canceled"
  | deadlineExceeded => str "context deadline exceeded"

inductive GoError (χ : Type) where
  /-- A sentinel, compared by identity. -/
  | sentinel (s : Sentinel)
  /-- `*http.MaxBytesError`. -/
  | maxBytes (limit : ℤ)
  /-- `errors.New(msg)`. -/
  | plain (msg : Str)
  /-- `fmt.Errorf(text + "%w", inner)`. -/
  | wrap (text : Str) (inner : GoError χ)
  /-- A value of the program's own error type, with the error it unwraps to. -/
  | custom (c : χ) (inner : Option (GoError χ))

namespace GoError

variable {χ : Type}

def eof : GoError χ := .sentinel .eof

/-- `err == s`. -/
def isExactly (s : Sentinel) : GoError χ → Bool
  | .sentinel t => decide (t = s)
  | _ => false

/-- `errors.Is(err, s)`. -/
def is (s : Sentinel) : GoError χ → Bool
  | .sentinel t => decide (t = s)
  | .maxBytes _ => false
  | .plain _ => false
  | .wrap _ e => e.is s
  | .custom _ (some e) => e.is s
  | .custom _ none => false

/-- `errors.As(err, &target)` for the program's own error type: the first one down the chain. -/
def asCustom : GoError χ → Option (χ × Option (GoError χ))
  | .custom c inner => some (c, inner)
  | .wrap _ e => e.asCustom
  | _ => none

/-- `errors.As(err, &target)` for `*http.MaxBytesError`: its limit. -/
def asMaxBytes : GoError χ → Option ℤ
  | .maxBytes limit => some limit
  | .wrap _ e => e.asMaxBytes
  | .custom _ (some e) => e.asMaxBytes
  | _ => none

/-- `err.Error()`, where `render` gives the text of the program's own error type from its data and
the text of the error it wraps. -/
def text (render : χ → Str → Str) : GoError χ → Str
  | .sentinel s => s.text
  | .maxBytes _ => str "http: request body too large"
  | .plain msg => msg
  | .wrap pre e => pre ++ e.text render
  | .custom c (some e) => render c (e.text render)
  | .custom c none => render c []

@[simp] theorem is_eof_eof : (eof : GoError χ).is .eof = true := rfl

@[simp] theorem isExactly_eof : (eof : GoError χ).isExactly .eof = true := rfl

@[simp] theorem is_wrap (s : Sentinel) (pre : Str) (e : GoError χ) : (GoError.wrap pre e).is s = e.is s := by
  simp only [is]

@[simp] theorem is_sentinel (s t : Sentinel) : (GoError.sentinel t : GoError χ).is s = decide (t = s) := by
  simp only [is]

end GoError

end DubboGo.Go
