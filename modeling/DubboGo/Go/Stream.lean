import DubboGo.Go.Errors

/-!
# Readers and writers

A reader is a byte stream together with the way it arrives: a list of non-empty chunks, the error that ends the
stream, and whether that error comes with the last chunk or after it (`ChunkReader`).  One `Read` call returns at most
one chunk, cut to the caller's buffer; the chunks are arbitrary.
-/

namespace DubboGo.Go

open List

variable {χ : Type}

abbrev Chunk := {c : Str // c ≠ []}

structure ChunkReader (χ : Type) where
  /-- What is still to come. -/
  chunks : List Chunk
  /-- The error that ends the stream. -/
  last : GoError χ
  /-- The final error comes together with the last chunk. -/
  withLast : Bool

/-- What a reading function returns: the bytes read, the error, and the reader after the call. -/
structure ReadResult (χ : Type) where
  data : Str
  err : Option (GoError χ)
  next : ChunkReader χ

namespace ChunkReader

def pending (r : ChunkReader χ) : Str := (r.chunks.map Subtype.val).flatten

/-- `Read(p)` with `len(p) = n`. -/
def read (r : ChunkReader χ) (n : ℕ) : ReadResult χ :=
  match r.chunks with
  | [] => ⟨[], some r.last, r⟩
  | c :: cs =>
    if h : n < c.val.length then
      ⟨c.val.take n, none, { r with chunks := ⟨c.val.drop n, by simpa [List.drop_eq_nil_iff] using h⟩ :: cs }⟩
    else
      ⟨c.val, if cs.isEmpty && r.withLast then some r.last else none, { r with chunks := cs }⟩

/-- The stream that gives `s` at once and then ends with `last`. -/
def ofBytes (s : Str) (last : GoError χ) : ChunkReader χ :=
  ⟨if h : s = [] then [] else [⟨s, h⟩], last, false⟩

theorem pending_ofBytes (s : Str) (last : GoError χ) : (ofBytes s last).pending = s := by
  unfold ofBytes pending
  split_ifs with h <;> simp [h]

/-- What a read does: it takes the next bytes in order, and the error comes at the end. -/
theorem read_cases (r : ChunkReader χ) (n : ℕ) : (r.pending = [] ∧ r.read n = ⟨[], some r.last, r⟩) ∨
    (r.pending = (r.read n).data ++ (r.read n).next.pending ∧ (r.read n).next.last = r.last ∧
      (r.read n).data.length ≤ n ∧ (0 < n → (r.read n).data ≠ []) ∧ ((r.read n).err = none ∨
        ((r.read n).err = some r.last ∧ (r.read n).next.pending = []))) := by
  obtain ⟨chunks, last, withLast⟩ := r
  cases chunks with
  | nil => exact Or.inl ⟨rfl, rfl⟩
  | cons c cs =>
    right
    by_cases h : n < c.val.length
    · simp only [read, dif_pos h, pending]
      refine ⟨?_, trivial, by simp, fun hn => ?_, Or.inl trivial⟩
      · rw [map_cons, map_cons, flatten_cons, flatten_cons, ← append_assoc, take_append_drop]
      · simp only [ne_eq, take_eq_nil_iff, not_or]
        exact ⟨by omega, c.2⟩
    · simp only [read, dif_neg h, pending]
      refine ⟨by simp, trivial, by omega, fun _ => c.2, ?_⟩
      cases cs with
      | nil => cases withLast <;> simp
      | cons d ds => exact Or.inl (by simp)

variable {n : ℕ} {r : ChunkReader χ} {e : GoError χ} {limit : Option ℕ} {room : ℕ → ℕ}

/-- A read without an error takes something. -/
theorem read_progress (r : ChunkReader χ) (hn : 0 < n) (he : (r.read n).err = none) :
    0 < (r.read n).data.length ∧ (r.read n).data.length ≤ n ∧ (r.read n).next.pending.length < r.pending.length := by
  rcases r.read_cases n with ⟨-, h⟩ | ⟨hp, -, hle, hpos, -⟩
  · rw [h] at he
    cases he
  · have hlen := length_pos_iff.2 (hpos hn)
    refine ⟨hlen, hle, ?_⟩
    rw [hp, length_append]
    omega

/-! ## `io.ReadFull` -/

/-- The loop of `io.ReadAtLeast` with the whole buffer as its minimum: read until `n` bytes have
arrived or an error has. -/
def readLoop (r : ChunkReader χ) (n : ℕ) : ReadResult χ :=
  if _hn : n = 0 then ⟨[], none, r⟩
  else
    match _he : (r.read n).err with
    | some e => ⟨(r.read n).data, some e, (r.read n).next⟩
    | none =>
      let rest := (r.read n).next.readLoop (n - (r.read n).data.length)
      ⟨(r.read n).data ++ rest.data, rest.err, rest.next⟩
termination_by n
decreasing_by
  have := r.read_progress (Nat.pos_of_ne_zero _hn) _he
  omega

theorem readLoop_zero (r : ChunkReader χ) : r.readLoop 0 = ⟨[], none, r⟩ := by
  rw [readLoop, dif_pos rfl]

theorem readLoop_of_err (hn : n ≠ 0) (he : (r.read n).err = some e) :
    r.readLoop n = ⟨(r.read n).data, some e, (r.read n).next⟩ := by
  rw [readLoop, dif_neg hn]
  split <;> simp_all

theorem readLoop_of_more (hn : n ≠ 0) (he : (r.read n).err = none) : r.readLoop n =
      ⟨(r.read n).data ++ ((r.read n).next.readLoop (n - (r.read n).data.length)).data,
        ((r.read n).next.readLoop (n - (r.read n).data.length)).err,
        ((r.read n).next.readLoop (n - (r.read n).data.length)).next⟩ := by
  rw [readLoop, dif_neg hn]
  split <;> simp_all

theorem readLoop_spec (r : ChunkReader χ) (n : ℕ) :
    (r.readLoop n).data = r.pending.take n ∧ (r.readLoop n).next.pending = r.pending.drop n ∧
      (r.readLoop n).next.last = r.last ∧ (r.pending.length < n → (r.readLoop n).err = some r.last) := by
  induction n using Nat.strong_induction_on generalizing r with
  | _ n ih =>
    by_cases hn : n = 0
    · subst hn
      simp [readLoop_zero]
    rcases r.read_cases n with ⟨hp, hr⟩ | ⟨hp, hlast, hle, hpos, herr | ⟨herr, hnil⟩⟩
    · rw [readLoop_of_err hn (by rw [hr]), hr]
      simp [hp]
    · have hdata := length_pos_iff.2 (hpos (Nat.pos_of_ne_zero hn))
      obtain ⟨h1, h2, h3, h4⟩ := ih (n - (r.read n).data.length) (by omega) (r.read n).next
      rw [readLoop_of_more hn herr, h1, h2, h3, hlast]
      refine ⟨?_, ?_, rfl, fun hlt => ?_⟩
      · conv_rhs => rw [hp, take_append, take_of_length_le hle]
      · conv_rhs => rw [hp, drop_append, drop_eq_nil_of_le hle, nil_append]
      · rw [hp, length_append] at hlt
        rw [← hlast]
        exact h4 (by omega)
    · rw [readLoop_of_err hn herr]
      simp [hp, hnil, hlast, take_of_length_le hle, drop_eq_nil_of_le hle]

/-- `io.ReadFull(r, buf)` with `len(buf) = n`. -/
def readFull (r : ChunkReader χ) (n : ℕ) : ReadResult χ :=
  let res := r.readLoop n
  if n ≤ res.data.length then ⟨res.data, none, res.next⟩
  else
    match res.err with
    | some e =>
      if 0 < res.data.length && e.isExactly .eof then
        ⟨res.data, some (.sentinel .unexpectedEOF), res.next⟩
      else res
    | none => res

theorem readFull_of_le (h : n ≤ r.pending.length) :
    (r.readFull n).data = r.pending.take n ∧ (r.readFull n).err = none ∧
      (r.readFull n).next.pending = r.pending.drop n ∧ (r.readFull n).next.last = r.last := by
  obtain ⟨h1, h2, h3, -⟩ := r.readLoop_spec n
  rw [readFull, if_pos (by rw [h1, length_take, Nat.min_eq_left h])]
  exact ⟨h1, rfl, h2, h3⟩

theorem readFull_of_lt (h : r.pending.length < n) (hlast : r.last = .eof) :
    (r.readFull n).data = r.pending ∧
      (r.readFull n).err = some (if r.pending = [] then .eof else .sentinel .unexpectedEOF) ∧
      (r.readFull n).next.pending = [] ∧ (r.readFull n).next.last = .eof := by
  obtain ⟨h1, h2, h3, h4⟩ := r.readLoop_spec n
  have he := h4 h
  rw [take_of_length_le h.le] at h1
  rw [drop_eq_nil_of_le h.le] at h2
  rw [readFull, if_neg (by rw [h1]; omega), he, hlast]
  rcases hp : r.pending with _ | ⟨b, bs⟩
  · simp [h1, hp, h2, h3, hlast, he]
  · simp [h1, hp, h2, h3, hlast]

/-! ## `bytes.Buffer.ReadFrom` and `io.CopyN` -/

/-- `bytes.MinRead`: the least free space `Buffer.ReadFrom` offers to a `Read`. -/
def minRead : ℕ := 512

/-- How many bytes the next `Read` of a copy asks for: the free space of the destination, cut to
what an `io.LimitReader` still lets through. -/
def readSize (room : ℕ) : Option ℕ → ℕ
  | none => max minRead room
  | some k => min (max minRead room) k

theorem readSize_pos (room : ℕ) (h : limit ≠ some 0) : 0 < readSize room limit := by
  cases limit with
  | none => simp [readSize, minRead]
  | some k =>
    have : k ≠ 0 := fun h0 => h (by rw [h0])
    simp only [readSize, minRead]
    omega

/-- The loop of `bytes.Buffer.ReadFrom` over `r`, or over `io.LimitReader(r, k)` when `limit` is `some k`.  `room`
gives the free space of the buffer beyond the guaranteed one; `io.Discard` copies with the same loop.  The stream's
end is not an error. -/
def readFrom (room : ℕ → ℕ) (limit : Option ℕ) (r : ChunkReader χ) : ReadResult χ :=
  if _hl : limit = some 0 then ⟨[], none, r⟩
  else
    let size := readSize (room r.pending.length) limit
    match _he : (r.read size).err with
    | some e =>
      ⟨(r.read size).data, if e.isExactly .eof then none else some e, (r.read size).next⟩
    | none =>
      let rest := (r.read size).next.readFrom room (limit.map (· - (r.read size).data.length))
      ⟨(r.read size).data ++ rest.data, rest.err, rest.next⟩
termination_by r.pending.length
decreasing_by exact (r.read_progress (readSize_pos _ _hl) _he).2.2

theorem readFrom_zero (room : ℕ → ℕ) (r : ChunkReader χ) : r.readFrom room (some 0) = ⟨[], none, r⟩ := by
  rw [readFrom, dif_pos rfl]

theorem readFrom_of_err (hl : limit ≠ some 0) (hn : n = readSize (room r.pending.length) limit)
    (he : (r.read n).err = some e) :
    r.readFrom room limit =
      ⟨(r.read n).data, if e.isExactly .eof then none else some e, (r.read n).next⟩ := by
  subst hn
  rw [readFrom, dif_neg hl]
  dsimp only
  split
  · next e' he' =>
    rw [he] at he'
    cases he'
    rfl
  · next he' =>
    rw [he] at he'
    cases he'

theorem readFrom_of_more (hl : limit ≠ some 0) (hn : n = readSize (room r.pending.length) limit)
    (he : (r.read n).err = none) : r.readFrom room limit = ⟨(r.read n).data ++
          ((r.read n).next.readFrom room (limit.map (· - (r.read n).data.length))).data,
        ((r.read n).next.readFrom room (limit.map (· - (r.read n).data.length))).err,
        ((r.read n).next.readFrom room (limit.map (· - (r.read n).data.length))).next⟩ := by
  subst hn
  rw [readFrom, dif_neg hl]
  dsimp only
  split
  · next e' he' =>
    rw [he] at he'
    cases he'
  · rfl

def through : Option ℕ → Str → Str
  | none, s => s
  | some k, s => s.take k

def beyond : Option ℕ → Str → Str
  | none, _ => []
  | some k, s => s.drop k

theorem through_append {a : Str} (b : Str) (h : ∀ k, limit = some k → a.length ≤ k) :
    through limit (a ++ b) = a ++ through (limit.map (· - a.length)) b := by
  cases limit with
  | none => rfl
  | some k =>
    simp only [through, Option.map_some]
    rw [take_append, take_of_length_le (h k rfl)]

theorem beyond_append {a : Str} (b : Str) (h : ∀ k, limit = some k → a.length ≤ k) :
    beyond limit (a ++ b) = beyond (limit.map (· - a.length)) b := by
  cases limit with
  | none => rfl
  | some k =>
    simp only [beyond, Option.map_some]
    rw [drop_append, drop_eq_nil_of_le (h k rfl), nil_append]

theorem readFrom_spec (room : ℕ → ℕ) (limit : Option ℕ) (r : ChunkReader χ) (hlast : r.last = .eof) :
    (r.readFrom room limit).data = through limit r.pending ∧ (r.readFrom room limit).err = none ∧
      (r.readFrom room limit).next.pending = beyond limit r.pending ∧ (r.readFrom room limit).next.last = .eof := by
  induction h : r.pending.length using Nat.strong_induction_on generalizing r limit with
  | _ len ih =>
    by_cases hl : limit = some 0
    · subst hl
      rw [readFrom_zero]
      exact ⟨rfl, rfl, rfl, hlast⟩
    obtain ⟨n, hn⟩ : ∃ n, n = readSize (room r.pending.length) limit := ⟨_, rfl⟩
    have hpos' : 0 < n := hn ▸ readSize_pos _ hl
    rcases r.read_cases n with ⟨hp, hr⟩ | ⟨hp, hnx, hle, hpos, herr⟩
    · rw [readFrom_of_err hl hn (by rw [hr]), hr, hp, hlast]
      cases limit <;> simp [through, beyond]
    -- the bytes of this call are within the limit, so both sides split at them
    have hfit : ∀ k, limit = some k → (r.read n).data.length ≤ k := by
      rintro k rfl
      refine le_trans hle ?_
      rw [hn, readSize]
      exact min_le_right _ _
    rw [hp, through_append _ hfit, beyond_append _ hfit]
    rcases herr with herr | ⟨herr, hnil⟩
    · have hlt : (r.read n).next.pending.length < len := by
        rw [← h]
        exact (r.read_progress hpos' herr).2.2
      obtain ⟨h1, h2, h3, h4⟩ := ih _ hlt (limit.map (· - (r.read n).data.length)) _ (hnx.trans hlast) rfl
      rw [readFrom_of_more hl hn herr, h1, h2, h3, h4]
      exact ⟨rfl, rfl, rfl, rfl⟩
    · rw [readFrom_of_err hl hn herr, hnil, hlast]
      cases limit <;> simp [through, beyond, hnx, hlast]

theorem readFrom_broken (room : ℕ → ℕ) (r : ChunkReader χ) (hlast : r.last.isExactly .eof = false) :
    (r.readFrom room none).err = some r.last := by
  induction h : r.pending.length using Nat.strong_induction_on generalizing r with
  | _ len ih =>
    have hl : (none : Option ℕ) ≠ some 0 := nofun
    obtain ⟨n, hn⟩ : ∃ n, n = readSize (room r.pending.length) none := ⟨_, rfl⟩
    rcases r.read_cases n with ⟨-, hr⟩ | ⟨hp, hnx, -, -, herr⟩
    · rw [readFrom_of_err hl hn (by rw [hr]), hlast]
      rfl
    rcases herr with herr | ⟨herr, -⟩
    · have hlt : (r.read n).next.pending.length < len := by
        rw [← h]
        exact (r.read_progress (hn ▸ readSize_pos _ hl) herr).2.2
      rw [readFrom_of_more hl hn herr, ← hnx]
      exact ih _ hlt _ (by rw [hnx]; exact hlast) rfl
    · rw [readFrom_of_err hl hn herr, hlast]
      rfl

/-- `io.CopyN(dst, r, n)`, returning the bytes copied. -/
def copyN (room : ℕ → ℕ) (r : ChunkReader χ) (n : ℕ) : ReadResult χ :=
  let res := r.readFrom room (some n)
  if res.data.length = n then ⟨res.data, none, res.next⟩
  else
    match res.err with
    | none => ⟨res.data, some .eof, res.next⟩
    | some e => ⟨res.data, some e, res.next⟩

/-- `CopyN` takes `n` bytes, or fewer with `EOF` at the end of the stream. -/
theorem copyN_spec (room : ℕ → ℕ) (r : ChunkReader χ) (n : ℕ) (hlast : r.last = .eof) :
    (r.copyN room n).data = r.pending.take n ∧
      (r.copyN room n).err = (if n ≤ r.pending.length then none else some .eof) ∧
      (r.copyN room n).next.pending = r.pending.drop n ∧ (r.copyN room n).next.last = .eof := by
  obtain ⟨h1, h2, h3, h4⟩ := r.readFrom_spec room (some n) hlast
  have hlen : (r.pending.take n).length = n ↔ n ≤ r.pending.length := by
    rw [length_take]
    omega
  simp only [through, beyond] at h1 h3
  rw [copyN, h1, h2]
  by_cases h : n ≤ r.pending.length
  · rw [if_pos (hlen.2 h), if_pos h]
    exact ⟨rfl, rfl, h3, h4⟩
  · rw [if_neg (mt hlen.1 h), if_neg h]
    exact ⟨rfl, rfl, h3, h4⟩

end ChunkReader

/-! ## Writers -/

/-- An `io.Writer` with state `σ`: `Write(p)` returns how many bytes it took and its error. -/
structure ByteWriter (χ σ : Type) where
  write : σ → Str → (ℕ × Option (GoError χ)) × σ

/-- `buf.WriteTo(w)` for a `bytes.Buffer` holding `p`, which is what `io.Copy(w, buf)` calls: one
`Write`, and none at all when the buffer is empty. -/
def ByteWriter.copyBuffer {σ : Type} (w : ByteWriter χ σ) (s : σ) (p : Str) : Option (GoError χ) × σ :=
  if p = [] then (none, s)
  else
    let res := w.write s p
    match res.1.2 with
    | some e => (some e, res.2)
    | none => (if res.1.1 = p.length then none else some (.sentinel .shortWrite), res.2)

end DubboGo.Go
