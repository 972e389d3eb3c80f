import DubboGo.Go.Text

/-!
# Buffered readers

`bufio.Reader` over a `bytes.Buffer`, which gives as many bytes as fit in one read, and `io.EOF` when it has none
left.
-/

namespace DubboGo.Go

/-- `bufio.Reader`: its size, the bytes that it has read and not given away, and what the buffer it reads from
has left. -/
structure BufioReader where
  size : ℕ
  unread : Str
  source : Str

inductive BufioError where
  | bufferFull
  | eof
  deriving DecidableEq

namespace BufioReader

def minReadBufferSize : ℕ := 16

def newReaderSize (source : Str) (size : ℕ) : BufioReader := ⟨max size minReadBufferSize, [], source⟩

def buffered (r : BufioReader) : ℕ := r.unread.length

def fill (r : BufioReader) : BufioReader :=
  { r with
    unread := r.unread ++ r.source.take (r.size - r.buffered)
    source := r.source.drop (r.size - r.buffered) }

/-- `Peek`.  One read fills the reader or empties its source. -/
def peek (n : ℕ) (r : BufioReader) : Except BufioError Str × BufioReader :=
  let r := if r.buffered < n then r.fill else r
  if r.size < n then (.error .bufferFull, r)
  else if r.buffered < n then (.error .eof, r)
  else (.ok (r.unread.take n), r)

/-- The loop of `Discard`, which reads on when it has nothing left. -/
def discardFrom : ℕ → ℕ → BufioReader → Except BufioError BufioReader
  | 0, _, _ => .error .eof
  | fuel + 1, n, r =>
    let r := if r.buffered = 0 then r.fill else r
    if n ≤ r.buffered then .ok { r with unread := r.unread.drop n }
    else if r.buffered = 0 then .error .eof
    else discardFrom fuel (n - r.buffered) { r with unread := [] }

def discard (n : ℕ) (r : BufioReader) : Except BufioError BufioReader :=
  if n = 0 then .ok r else discardFrom (r.source.length + 2) n r

theorem peek_newReaderSize {src : Str} {n : ℕ} (hn : n ≤ src.length) (hpos : 0 < n) :
    (newReaderSize src src.length).peek n = (.ok (src.take n), ⟨max src.length minReadBufferSize, src, []⟩) := by
  have hle : src.length ≤ max src.length minReadBufferSize := le_max_left _ _
  have hempty : (newReaderSize src src.length).buffered < n := hpos
  have hfill : (newReaderSize src src.length).fill = ⟨max src.length minReadBufferSize, src, []⟩ := by
    simp [newReaderSize, fill, buffered]
  unfold peek
  simp only [if_pos hempty, hfill]
  rw [if_neg (by omega)]
  exact if_neg (not_lt.2 hn)

theorem peek_of_le {r : BufioReader} {n : ℕ} (hn : n ≤ r.buffered) (hsize : n ≤ r.size) :
    r.peek n = (.ok (r.unread.take n), r) := by
  unfold peek
  simp only [if_neg (not_lt.2 hn), if_neg (not_lt.2 hsize)]

theorem discard_of_le {r : BufioReader} {n : ℕ} (hn : n ≤ r.buffered) (hpos : 0 < n) :
    r.discard n = .ok { r with unread := r.unread.drop n } := by
  have hne : r.buffered ≠ 0 := by omega
  unfold discard discardFrom
  rw [if_neg (by omega)]
  simp only [if_neg hne, if_pos hn]

end BufioReader

end DubboGo.Go
