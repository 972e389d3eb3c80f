import DubboGo.Triple.Codec

/-!
# Streams of envelopes

Envelopes written one after the other and read back, for every split of the stream into chunks.
-/

namespace DubboGo.Triple

open Go List

/-! ## Writing a stream -/

def sink : ByteWriter ErrorHead Str := ⟨fun s p => ((p.length, none), s ++ p)⟩

/-- The bytes that `write` emits for a list of envelopes. -/
def emit (envs : List Envelope) : Str := envs.foldl (fun s e => (envelopeWrite sink s e).2) []

theorem envelopeWrite_sink (s : Str) (e : Envelope) : envelopeWrite sink s e = (none, s ++ e.frame) := by
  by_cases h : e.data = []
  · simp [envelopeWrite, sink, ByteWriter.copyBuffer, Envelope.frame, h]
  · simp [envelopeWrite, sink, ByteWriter.copyBuffer, Envelope.frame, h]

theorem emit_eq_flatten (envs : List Envelope) : emit envs = (envs.map Envelope.frame).flatten := by
  have key : ∀ s : Str, envs.foldl (fun s e => (envelopeWrite sink s e).2) s =
      s ++ (envs.map Envelope.frame).flatten := by
    induction envs with
    | nil => intro s; simp
    | cons e envs ih =>
      intro s
      rw [foldl_cons, envelopeWrite_sink, ih]
      simp
  exact key []

theorem emit_cons (e : Envelope) (envs : List Envelope) : emit (e :: envs) = e.frame ++ emit envs := by
  simp [emit_eq_flatten]

theorem emit_singleton (e : Envelope) : emit [e] = e.frame := by
  simp [emit_eq_flatten]

theorem emit_append (envs envs' : List Envelope) : emit (envs ++ envs') = emit envs ++ emit envs' := by
  simp [emit_eq_flatten]

/-! ## Reading a stream -/

/-- The stream after `i` calls of `Read`; `rooms i` is the free space of the `i`-th buffer. -/
def readerAfter (readMaxBytes : ℤ) (rooms : ℕ → ℕ → ℕ) (r : ChunkReader ErrorHead) : ℕ → ChunkReader ErrorHead
  | 0 => r
  | i + 1 =>
    (envelopeRead readMaxBytes (rooms i) (readerAfter readMaxBytes rooms r i) .fresh).reader

/-- The outcome of call number `i` of `Read`, counted from zero. -/
def nthRead (readMaxBytes : ℤ) (rooms : ℕ → ℕ → ℕ) (r : ChunkReader ErrorHead) (i : ℕ) : ReadOutcome :=
  envelopeRead readMaxBytes (rooms i) (readerAfter readMaxBytes rooms r i) .fresh

/-- The outcome of a `Read` that meets the envelope `e`: it is returned as it was written unless it
is larger than the limit, where a limit of zero is none. -/
def Delivers (readMaxBytes : ℤ) (e : Envelope) (out : ReadOutcome) : Prop :=
  if readMaxBytes ≤ 0 ∨ (e.data.length : ℤ) ≤ readMaxBytes then out.err = none ∧ out.env = e
  else ∃ err, out.err = some err ∧ err.code = codeResourceExhausted

variable {r : ChunkReader ErrorHead} {e : Envelope}

theorem read_frame (readMaxBytes : ℤ) (room : ℕ → ℕ) {rest : Str} (hp : r.pending = e.frame ++ rest)
    (hlast : r.last = .eof) (hlen : e.data.length < 2 ^ 32) :
    Delivers readMaxBytes e (envelopeRead readMaxBytes room r .fresh) ∧
      (envelopeRead readMaxBytes room r .fresh).reader.pending = rest ∧
      (envelopeRead readMaxBytes room r .fresh).reader.last = .eof := by
  unfold Delivers
  split_ifs with hfit
  · obtain ⟨r', h, hp', hl'⟩ := read_frame_fits room hp hlast hlen hfit
    rw [h]
    exact ⟨⟨rfl, rfl⟩, hp', hl'⟩
  · have hlarge : 0 < readMaxBytes ∧ readMaxBytes < (e.data.length : ℤ) := by omega
    obtain ⟨err, r', h, hcode, hp', hl'⟩ := read_frame_large room hp hlast hlen hlarge
    rw [h]
    exact ⟨⟨err, rfl, hcode⟩, hp', hl'⟩

section Runs

variable (readMaxBytes : ℤ) (rooms : ℕ → ℕ → ℕ) {r : ChunkReader ErrorHead} {envs : List Envelope} {tail : Str}

theorem readerAfter_spec (hlen : ∀ e ∈ envs, e.data.length < 2 ^ 32)
    (hp : r.pending = emit envs ++ tail) (hlast : r.last = .eof) (i : ℕ) (hi : i ≤ envs.length) :
    (readerAfter readMaxBytes rooms r i).pending = emit (envs.drop i) ++ tail ∧
      (readerAfter readMaxBytes rooms r i).last = .eof := by
  induction i with
  | zero => exact ⟨hp, hlast⟩
  | succ i ih =>
    obtain ⟨h1, h2⟩ := ih (by omega)
    rw [drop_eq_getElem_cons (by omega), emit_cons, append_assoc] at h1
    exact (read_frame _ _ h1 h2 (hlen _ (getElem_mem _))).2

theorem nthRead_delivers (hlen : ∀ e ∈ envs, e.data.length < 2 ^ 32)
    (hp : r.pending = emit envs ++ tail) (hlast : r.last = .eof) (i : ℕ) (hi : i < envs.length) :
    Delivers readMaxBytes envs[i] (nthRead readMaxBytes rooms r i) ∧
      (nthRead readMaxBytes rooms r i).reader.pending = emit (envs.drop (i + 1)) ++ tail := by
  obtain ⟨h1, h2⟩ := readerAfter_spec readMaxBytes rooms hlen hp hlast i hi.le
  rw [drop_eq_getElem_cons hi, emit_cons, append_assoc] at h1
  obtain ⟨h3, h4, -⟩ := read_frame readMaxBytes (rooms i) h1 h2 (hlen _ (getElem_mem _))
  exact ⟨h3, h4⟩

end Runs

/-- Of envelopes written one after the other, call number `i` of `Read` delivers envelope `i` and leaves the stream at
the start of the next, however the bytes arrive; after the last one `Read` gives the clean end of stream. -/
theorem readAll_delivers (envs : List Envelope) (hlen : ∀ e ∈ envs, e.data.length < 2 ^ 32)
    (readMaxBytes : ℤ) (rooms : ℕ → ℕ → ℕ) (r : ChunkReader ErrorHead)
    (hp : r.pending = emit envs) (hlast : r.last = .eof) : (∀ i, (hi : i < envs.length) →
      Delivers readMaxBytes envs[i] (nthRead readMaxBytes rooms r i) ∧
        (nthRead readMaxBytes rooms r i).reader.pending = emit (envs.drop (i + 1))) ∧
      ∃ err, (nthRead readMaxBytes rooms r envs.length).err = some err ∧ err.is .eof = true := by
  have hp' : r.pending = emit envs ++ [] := by rw [hp, append_nil]
  constructor
  · intro i hi
    obtain ⟨h1, h2⟩ := nthRead_delivers readMaxBytes rooms hlen hp' hlast i hi
    rw [append_nil] at h2
    exact ⟨h1, h2⟩
  · obtain ⟨h1, h2⟩ := readerAfter_spec readMaxBytes rooms hlen hp' hlast envs.length le_rfl
    rw [drop_length] at h1
    exact read_end _ _ h1 h2 _

/-- Two frames that arrive in three chunks; the second one is over the limit. -/
theorem readAll_delivers_two :
    Delivers 1 ⟨[7], 1⟩ (nthRead 1 (fun _ _ => 512) ⟨[⟨[1, 0, 0, 0], by simp⟩,
      ⟨[1, 7, 0, 0, 0], by simp⟩, ⟨[0, 2, 8, 9], by simp⟩], .eof, true⟩ 0) :=
  ((readAll_delivers [⟨[7], 1⟩, ⟨[8, 9], 0⟩] (by decide) 1 (fun _ _ => 512)
    ⟨[⟨[1, 0, 0, 0], by simp⟩, ⟨[1, 7, 0, 0, 0], by simp⟩, ⟨[0, 2, 8, 9], by simp⟩], .eof, true⟩
    (by decide) rfl).1 0 (by decide)).1

/-! ## Cut streams -/

/-- `c` bytes of the stream end strictly inside envelope `i`. -/
def CutInside (envs : List Envelope) (i c : ℕ) : Prop :=
  (emit (envs.take i)).length < c ∧ c < (emit (envs.take (i + 1))).length

theorem take_emit_of_cutInside {envs : List Envelope} {i c : ℕ} (hi : i < envs.length) (hcut : CutInside envs i c) :
    ∃ k, (emit envs).take c = emit (envs.take i) ++ envs[i].frame.take k ∧ 0 < k ∧ k < envs[i].frame.length := by
  obtain ⟨h1, h2⟩ := hcut
  have hsucc : emit (envs.take (i + 1)) = emit (envs.take i) ++ envs[i].frame := by
    rw [take_succ_eq_append_getElem hi, emit_append, emit_singleton]
  rw [hsucc, length_append] at h2
  refine ⟨c - (emit (envs.take i)).length, ?_, by omega, by omega⟩
  have hsplit : emit envs = emit (envs.take i) ++ (envs[i].frame ++ emit (envs.drop (i + 1))) := by
    rw [← append_assoc, ← hsucc, ← emit_append, take_append_drop]
  rw [hsplit, take_append, take_of_length_le h1.le, take_append_of_le_length (by omega)]

/-- A truncated stream is not taken for one that ended: the envelopes before the cut are delivered
as if there were none, and the next `Read` gives an error that is not the end of the stream. -/
theorem cut_not_clean_end (envs : List Envelope) (hlen : ∀ e ∈ envs, e.data.length < 2 ^ 32)
    (i c : ℕ) (hi : i < envs.length) (hcut : CutInside envs i c) (readMaxBytes : ℤ)
    (rooms : ℕ → ℕ → ℕ) (r : ChunkReader ErrorHead) (hp : r.pending = (emit envs).take c) (hlast : r.last = .eof) :
    (∀ j, (hj : j < i) → Delivers readMaxBytes envs[j] (nthRead readMaxBytes rooms r j)) ∧
      ∃ err, (nthRead readMaxBytes rooms r i).err = some err ∧ err.is .eof = false := by
  obtain ⟨k, htake, hpos, hk⟩ := take_emit_of_cutInside hi hcut
  rw [htake] at hp
  have hlen' : ∀ e ∈ envs.take i, e.data.length < 2 ^ 32 := fun e he =>
    hlen e (mem_of_mem_take he)
  have hlength : (envs.take i).length = i := length_take_of_le hi.le
  constructor
  · intro j hj
    have h := (nthRead_delivers readMaxBytes rooms hlen' hp hlast j (by omega)).1
    rwa [getElem_take] at h
  · obtain ⟨h1, h2⟩ := readerAfter_spec readMaxBytes rooms hlen' hp hlast i hlength.ge
    rw [drop_eq_nil_of_le hlength.le] at h1
    exact read_cut _ _ h1 h2 (hlen _ (getElem_mem _)) hpos hk

/-- One frame, cut after its head. -/
theorem cut_not_clean_end_after_head :
    ∃ err, (nthRead 0 (fun _ _ => 512) ⟨[⟨[0, 0, 0, 0, 1], by simp⟩], .eof, false⟩ 0).err =
      some err ∧ err.is .eof = false :=
  (cut_not_clean_end [⟨[7], 0⟩] (by decide) 0 5 (by decide)
    ⟨by decide, by decide⟩ 0 (fun _ _ => 512) ⟨[⟨[0, 0, 0, 0, 1], by simp⟩], .eof, false⟩
    (by decide) rfl).2

theorem head_of_wrapped_length (hlen : e.data.length = 2 ^ 32) : e.head = [e.flags, 0, 0, 0, 0] := by
  rw [Envelope.head, hlen, Nat.mod_self]
  rfl

/-- Without the bound on the payloads the guarantee fails: of a stream with one payload of `2 ^ 32`
bytes that is cut after the head, `Read` returns an empty envelope and then the clean end. -/
theorem cut_clean_end_of_wrapped_length : ∃ (envs : List Envelope) (r : ChunkReader ErrorHead),
      0 < envs.length ∧ CutInside envs 0 5 ∧ r.pending = (emit envs).take 5 ∧ r.last = .eof ∧
        nthRead 0 (fun _ _ => 512) r 0 = ⟨⟨[], 0⟩, none, readerAfter 0 (fun _ _ => 512) r 1⟩ ∧
        ∃ err, (nthRead 0 (fun _ _ => 512) r 1).err = some err ∧ err.is .eof = true := by
  obtain ⟨data, hdata⟩ : ∃ data : Str, data.length = 2 ^ 32 :=
    ⟨replicate (2 ^ 32) 0, length_replicate⟩
  have hframe : emit [⟨data, 0⟩] = [0, 0, 0, 0, 0] ++ data := by
    rw [emit_eq_flatten, map_singleton, flatten_singleton, Envelope.frame, head_of_wrapped_length hdata]
  let r : ChunkReader ErrorHead := ⟨[⟨[0, 0, 0, 0, 0], by simp⟩], .eof, false⟩
  have hp : r.pending = Envelope.frame ⟨[], 0⟩ ++ [] := by decide
  obtain ⟨r', hread, hp', hlast'⟩ := read_frame_fits (fun _ => 512) hp rfl (by decide) (.inl (le_refl (0 : ℤ)))
  refine ⟨[⟨data, 0⟩], r, by simp, ⟨?_, ?_⟩, ?_, rfl, ?_, ?_⟩
  · rw [take_zero]
    decide
  · rw [take_of_length_le (by simp), hframe, length_append, hdata]
    decide
  · rw [hframe]
    rfl
  · exact hread.trans (by rw [readerAfter, readerAfter, hread])
  · have h1 : readerAfter 0 (fun _ _ => 512) r 1 = r' := by rw [readerAfter, readerAfter, hread]
    rw [nthRead, h1]
    exact read_end _ _ hp' hlast' _

end DubboGo.Triple
