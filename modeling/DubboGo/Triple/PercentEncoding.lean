import DubboGo.Triple.GrpcStatus

/-!
# Percent-encoding of `Grpc-Message`

The functions of `protocol_grpc.go` as they scan: `grpcPercentEncode` and `grpcPercentDecode` look for the first byte
that needs work.  What they return is what the loops of `Triple.GrpcStatus` return, started at the first byte.
-/

namespace DubboGo.Triple.PercentEncoding

open Go List

/-! ## The functions -/

def grpcPercentEncodeSlow (msg : Str) (offset : ℕ) : Str := msg.take offset ++ Triple.grpcPercentEncode (msg.drop offset)

def grpcPercentEncode (msg : Str) : Str :=
  match msg.findIdx? percentEscaped with
  | some i => grpcPercentEncodeSlow msg i
  | none => msg

def grpcPercentDecodeSlow (encoded : Str) (offset : ℕ) : Str :=
  encoded.take offset ++ Triple.grpcPercentDecode (encoded.drop offset)

def isEscape (encoded : Str) (i : ℕ) : Bool := encoded[i]? = some 37 ∧ i + 2 < encoded.length

def grpcPercentDecode (encoded : Str) : Str :=
  match (List.range encoded.length).find? (isEscape encoded) with
  | some i => grpcPercentDecodeSlow encoded i
  | none => encoded

/-! ## The fast paths -/

theorem encode_append (s t : Str) :
    Triple.grpcPercentEncode (s ++ t) = Triple.grpcPercentEncode s ++ Triple.grpcPercentEncode t :=
  flatMap_append

theorem encode_of_plain {s : Str} (h : ∀ c ∈ s, percentEscaped c = false) : Triple.grpcPercentEncode s = s := by
  induction s with
  | nil => rfl
  | cons c s ih =>
    have htail := ih fun x hx => h x (mem_cons_of_mem c hx)
    unfold Triple.grpcPercentEncode at htail ⊢
    rw [flatMap_cons, htail, h c mem_cons_self]
    rfl

theorem decode_cons_of_ne {c : UInt8} (hc : c ≠ 37) (rest : Str) :
    Triple.grpcPercentDecode (c :: rest) = c :: Triple.grpcPercentDecode rest := by
  match rest with
  | [] => rfl
  | [a] => rfl
  | a :: b :: rest => rw [Triple.grpcPercentDecode, if_neg hc]

theorem decode_of_plain (s t : Str) (h : ∀ i < s.length, isEscape (s ++ t) i = false) :
    Triple.grpcPercentDecode (s ++ t) = s ++ Triple.grpcPercentDecode t := by
  induction s with
  | nil => rfl
  | cons c s ih =>
    have htail : ∀ i < s.length, isEscape (s ++ t) i = false := by
      intro i hi
      have hnext := h (i + 1) (by simpa using hi)
      simp only [isEscape, cons_append, getElem?_cons_succ, length_cons, decide_eq_false_iff_not] at hnext ⊢
      exact fun h => hnext ⟨h.1, by omega⟩
    have hhead := h 0 (by simp)
    simp only [isEscape, cons_append, getElem?_cons_zero, length_cons, Option.some.injEq,
      decide_eq_false_iff_not] at hhead
    rw [cons_append, cons_append, ← ih htail]
    by_cases hc : c = 37
    · -- fewer than two bytes are left
      match hrest : s ++ t with
      | [] => rfl
      | [a] => rfl
      | a :: b :: rest =>
        rw [hrest] at hhead
        exact absurd ⟨hc, by simp⟩ hhead
    · exact decode_cons_of_ne hc _

/-- The fast path is the slow one. -/
theorem grpcPercentEncode_eq (msg : Str) : grpcPercentEncode msg = grpcPercentEncodeSlow msg 0 := by
  have hslow : grpcPercentEncodeSlow msg 0 = Triple.grpcPercentEncode msg := rfl
  rw [hslow]
  unfold grpcPercentEncode
  cases hfind : msg.findIdx? percentEscaped with
  | none =>
    rw [findIdx?_eq_none_iff] at hfind
    exact (encode_of_plain hfind).symm
  | some i =>
    obtain ⟨hi, -, hbefore⟩ := findIdx?_eq_some_iff_getElem.1 hfind
    have hplain : ∀ c ∈ msg.take i, percentEscaped c = false := by
      intro c hc
      obtain ⟨j, hj, rfl⟩ := getElem_of_mem hc
      rw [length_take] at hj
      rw [getElem_take]
      simpa using hbefore j (by omega)
    have hsplit := encode_append (msg.take i) (msg.drop i)
    rw [take_append_drop, encode_of_plain hplain] at hsplit
    exact hsplit.symm

theorem grpcPercentDecode_eq (encoded : Str) : grpcPercentDecode encoded = grpcPercentDecodeSlow encoded 0 := by
  have hslow : grpcPercentDecodeSlow encoded 0 = Triple.grpcPercentDecode encoded := rfl
  rw [hslow]
  unfold grpcPercentDecode
  cases hfind : (range encoded.length).find? (isEscape encoded) with
  | none =>
    rw [find?_range_eq_none] at hfind
    have hplain := decode_of_plain encoded [] (by simpa using hfind)
    rw [append_nil] at hplain
    rw [hplain]
    exact (append_nil encoded).symm
  | some i =>
    obtain ⟨-, hi, hbefore⟩ := find?_range_eq_some.1 hfind
    rw [mem_range] at hi
    have hplain := decode_of_plain (encoded.take i) (encoded.drop i) (by
      rw [take_append_drop, length_take]
      intro j hj
      simpa using hbefore j (by omega))
    rw [take_append_drop] at hplain
    exact hplain.symm

/-! ## The round trip -/

theorem decode_hexByte (c : UInt8) (rest : Str) :
    Triple.grpcPercentDecode (37 :: hexByte c ++ rest) = c :: Triple.grpcPercentDecode rest := by
  have hbytes := forall_byte (P := fun c => parseUint (hexByte c) 16 8 = .ok c.toNat) (by decide +kernel) c
  unfold hexByte at hbytes ⊢
  dsimp only [cons_append, nil_append] at hbytes ⊢
  rw [Triple.grpcPercentDecode, if_pos rfl, hbytes]
  simp

theorem decode_encode (msg : Str) : Triple.grpcPercentDecode (Triple.grpcPercentEncode msg) = msg := by
  induction msg with
  | nil => rfl
  | cons c msg ih =>
    have hcons : Triple.grpcPercentEncode (c :: msg) =
        (if percentEscaped c then 37 :: hexByte c else [c]) ++ Triple.grpcPercentEncode msg := flatMap_cons
    rw [hcons]
    split_ifs with hc
    · rw [decode_hexByte, ih]
    · have hne : c ≠ 37 := by
        rintro rfl
        exact hc rfl
      rw [singleton_append, decode_cons_of_ne hne, ih]

theorem printable_encode (msg : Str) : ∀ c ∈ Triple.grpcPercentEncode msg, 32 ≤ c ∧ c ≤ 126 := by
  intro x hx
  obtain ⟨c, -, hx⟩ := mem_flatMap.1 hx
  have hall := forall_byte (P := fun c =>
    (if percentEscaped c then 37 :: hexByte c else [c]).all (fun x => 32 ≤ x ∧ x ≤ 126) = true) (by decide +kernel) c
  exact of_decide_eq_true (all_eq_true.1 hall x hx)

/-- The encoding loses nothing and is made of printable bytes, and the fast paths do what the slow ones do. -/
theorem percentEncoding_lossless (m x : Str) :
    grpcPercentDecode (grpcPercentEncode m) = m ∧ (∀ c ∈ grpcPercentEncode m, 32 ≤ c ∧ c ≤ 126) ∧
      grpcPercentEncode x = grpcPercentEncodeSlow x 0 ∧ grpcPercentDecode x = grpcPercentDecodeSlow x 0 := by
  refine ⟨?_, ?_, grpcPercentEncode_eq x, grpcPercentDecode_eq x⟩
  · rw [grpcPercentEncode_eq, grpcPercentDecode_eq]
    exact decode_encode m
  · rw [grpcPercentEncode_eq]
    exact printable_encode m

end DubboGo.Triple.PercentEncoding
