import DubboGo.Common.NewURL

/-!
# Content types

`canonicalizeContentType` of `protocol/triple/triple_protocol/protocol.go`, which takes a fast path past the media
types of the package `mime`.  The scanners accept only bytes that the parser takes as they are.
-/

namespace DubboGo.Triple.ContentType

open Go NetURL Common List

section

/- What `strings.ToLower` does with text that is not ASCII. -/
variable (unicodeLower : Str → Str) {c : UInt8} {s charset : Str}

/-! ## Media types of the standard library -/

/-- `strings.ToLower`. -/
def lower (s : Str) : Str := if s.all (· < 128) then s.map toLower else unicodeLower s

def isTSpecial (c : UInt8) : Bool := str "()<>@,;:\\\"/[]?=" |>.contains c

def isTokenChar (c : UInt8) : Bool := 32 < c && c < 127 && !isTSpecial c

def isToken (s : Str) : Bool := !s.isEmpty && s.all isTokenChar

def consumeToken (v : Str) : Str × Str := (v.takeWhile isTokenChar, v.dropWhile isTokenChar)

/-- The loop of `consumeValue`; `none` if the quotation does not end. -/
def consumeQuoted : (v buffer : Str) → Option (Str × Str)
  | [], _ => none
  | [c], buffer => if c = 34 then some (buffer, []) else none
  | c :: d :: v, buffer =>
    if c = 34 then some (buffer, d :: v)
    else if c = 92 ∧ isTSpecial d then consumeQuoted v (buffer ++ [d])
    else if c = 13 ∨ c = 10 then none
    else consumeQuoted (d :: v) (buffer ++ [c])

def consumeValue (v : Str) : Str × Str :=
  match v with
  | [] => ([], [])
  | c :: rest => if c = 34 then (consumeQuoted rest []).getD ([], v) else consumeToken v

/-- `strings.TrimLeftFunc(v, unicode.IsSpace)`. -/
def trimSpaceLeft (v : Str) : Str := trimLeft spaces v.length v

/-- `consumeMediaParam`; `none` is an empty parameter. -/
def consumeMediaParam (v : Str) : Option (Str × Str × Str) :=
  match trimSpaceLeft v with
  | [] => none
  | c :: rest =>
    if c ≠ 59 then none
    else
      let (param, rest) := consumeToken (trimSpaceLeft rest)
      match trimSpaceLeft rest with
      | [] => none
      | c :: rest =>
        let rest := trimSpaceLeft rest
        let (value, rest2) := consumeValue rest
        if c ≠ 61 ∨ lower unicodeLower param = [] ∨ value = [] ∧ rest2 = rest then none
        else some (lower unicodeLower param, value, rest2)

/-- The parameters, those of `continuation` among them; as much fuel as there are bytes is enough. -/
def consumeMediaParams : (fuel : ℕ) → (v : Str) → (params : List (Str × Str)) → Option (List (Str × Str))
  | 0, v, params => if v = [] then some params else none
  | fuel + 1, v, params =>
    let v := trimSpaceLeft v
    if v = [] then some params
    else
      match consumeMediaParam unicodeLower v with
      | none => if trimSpace v = [59] then some params else none
      | some (key, value, rest) =>
        match params.lookup key with
        | some old => if old ≠ value then none else consumeMediaParams fuel rest params
        | none => consumeMediaParams fuel rest (params ++ [(key, value)])

/-- `percentHexUnescape`; `none` is an error. -/
def percentHexUnescape : Str → Option Str
  | [] => some []
  | 37 :: a :: b :: s => do
    let high ← digitVal 16 a
    let low ← digitVal 16 b
    let rest ← percentHexUnescape s
    return UInt8.ofNat (16 * high + low) :: rest
  | c :: s => if c = 37 then none else (percentHexUnescape s).map (c :: ·)

def decode2231Enc (v : Str) : Option Str := do
  let (charset, v) ← cut (str "'") v
  let (_, extOtherVals) ← cut (str "'") v
  if lower unicodeLower charset ∈ [str "us-ascii", str "utf-8"] then percentHexUnescape extOtherVals else none

/-- The parts of a parameter that is continued, from the `n`-th on. -/
def partsFrom (pieces : List (Str × Str)) (key : Str) : (fuel n : ℕ) → List Str
  | 0, _ => []
  | fuel + 1, n =>
    let simplePart := key ++ str "*" ++ decimal n
    match pieces.lookup simplePart, pieces.lookup (simplePart ++ str "*") with
    | some v, _ => v :: partsFrom pieces key fuel (n + 1)
    | none, some v =>
      ((if n = 0 then decode2231Enc unicodeLower v else percentHexUnescape v).getD []) ::
        partsFrom pieces key fuel (n + 1)
    | none, none => []

def stitch (pieces : List (Str × Str)) (key : Str) : Option Str :=
  match pieces.lookup (key ++ str "*") with
  | some v => decode2231Enc unicodeLower v
  | none =>
    let parts := partsFrom unicodeLower pieces key pieces.length 0
    if parts = [] then none else some parts.flatten

def put (params : List (Str × Str)) (key value : Str) : List (Str × Str) :=
  params.filter (·.1 ≠ key) ++ [(key, value)]

def checkMediaTypeDisposition (s : Str) : Bool :=
  let (typ, rest) := consumeToken s
  !typ.isEmpty &&
    match rest with
    | [] => true
    | c :: rest => c = 47 && !(consumeToken rest).1.isEmpty && (consumeToken rest).2.isEmpty

/-- `mime.ParseMediaType`; `none` is an error. -/
def parseMediaType (v : Str) : Option (Str × List (Str × Str)) :=
  let base := ((cut (str ";") v).map Prod.fst).getD v
  let mediatype := trimSpace (lower unicodeLower base)
  if checkMediaTypeDisposition mediatype then
    (consumeMediaParams unicodeLower v.length (v.drop base.length) []).map fun pieces =>
      let starred := (pieces.filterMap fun p => (cut (str "*") p.1).map Prod.fst).dedup
      (mediatype, starred.foldl
        (fun params key => ((stitch unicodeLower pieces key).map (put params key)).getD params)
        (pieces.filter fun p => (cut (str "*") p.1).isNone))
  else none

def needsEncoding (s : Str) : Bool := s.any fun c => (c < 32 || 126 < c) && c ≠ 9

def upperhex (n : ℕ) : UInt8 := (str "0123456789ABCDEF").getD n 0

def encodeByte (ch : UInt8) : Str :=
  if ch ≤ 32 || 127 ≤ ch || (str "*'%").contains ch || isTSpecial ch then
    [37, upperhex (ch.toNat / 16), upperhex (ch.toNat % 16)]
  else [ch]

/-- The text of a parameter; `none` if its name is not a token. -/
def formatParam (p : Str × Str) : Option Str :=
  if isToken p.1 then
    some (str "; " ++ lower unicodeLower p.1 ++
      if needsEncoding p.2 then str "*=utf-8''" ++ p.2.flatMap encodeByte
      else if isToken p.2 then str "=" ++ p.2
      else str "=\"" ++ (p.2.flatMap fun c => if c = 34 ∨ c = 92 then [92, c] else [c]) ++ str "\"")
  else none

def formatType (t : Str) : Option Str :=
  match cut (str "/") t with
  | none => if isToken t then some (lower unicodeLower t) else none
  | some (major, sub) =>
    if isToken major && isToken sub then
      some (lower unicodeLower major ++ str "/" ++ lower unicodeLower sub)
    else none

def formatMediaType (t : Str) (param : List (Str × Str)) : Str :=
  match formatType unicodeLower t, (param.insertionSort (·.1 ≤ ·.1)).mapM (formatParam unicodeLower) with
  | some t, some params => t ++ params.flatten
  | _, _ => []

/-! ## Canonical content types -/

def isLowercaseByte (c : UInt8) : Bool :=
  97 ≤ c && c ≤ 122 || 48 ≤ c && c ≤ 57 || c = 46 || c = 43 || c = 45

def isLowercaseToken (s : Str) : Bool := !s.isEmpty && s.all isLowercaseByte

def isCharsetByte (c : UInt8) : Bool :=
  97 ≤ c && c ≤ 122 || 65 ≤ c && c ≤ 90 || 48 ≤ c && c ≤ 57 || c = 45 || c = 95 || c = 46

def isSimpleCharsetToken (s : Str) : Bool := !s.isEmpty && s.all isCharsetByte

/-- `isLowercaseMediaType`: a type and a subtype that are not empty, with one slash between them. -/
def isLowercaseMediaType (s : Str) : Bool :=
  match cut (str "/") s with
  | none => false
  | some (typ, sub) => !(sub.contains 47) && isLowercaseToken typ && isLowercaseToken sub

def canonicalizeContentTypeFast (contentType : Str) : Option Str :=
  match cut (str ";") contentType with
  | none => if isLowercaseMediaType contentType then some contentType else none
  | some (base, param) =>
    if isLowercaseMediaType base && !(param.contains 59) && hasPrefix param (str " charset=") then
      let charset := param.drop (str " charset=").length
      if isSimpleCharsetToken charset then
        if lower unicodeLower charset = charset then some contentType
        else some (base ++ str "; charset=" ++ lower unicodeLower charset)
      else none
    else none

def canonicalizeContentTypeSlow (contentType : Str) : Str :=
  match parseMediaType unicodeLower contentType with
  | none => contentType
  | some (base, params) =>
    formatMediaType unicodeLower base (match params.lookup (str "charset") with
      | some charset => put params (str "charset") (lower unicodeLower charset)
      | none => params)

def canonicalizeContentType (contentType : Str) : Str :=
  (canonicalizeContentTypeFast unicodeLower contentType).getD (canonicalizeContentTypeSlow unicodeLower contentType)

/-! ## Texts that the parser takes as they are -/

def isSolid (c : UInt8) : Bool := isTokenChar c || c = 47 || c = 59 || c = 61

theorem isSolid_of_isTokenChar (hc : isTokenChar c = true) : isSolid c = true := by
  simp [isSolid, hc]

theorem spaces_not_solid : ∀ texts ∈ [spaces, spaces.map reverse], ∀ text ∈ texts,
    text ≠ [] ∧ isSolid (text.headD 0) = false := by
  decide +kernel

theorem trimSpaceLeft_cons (hc : isSolid c = true) (s : Str) : trimSpaceLeft (c :: s) = c :: s :=
  trimLeft_cons hc (spaces_not_solid spaces (by simp)) s _

theorem trimSpaceLeft_blank (hc : isSolid c = true) (s : Str) : trimSpaceLeft (32 :: c :: s) = c :: s := by
  show trimLeft spaces _ (c :: s) = _
  exact trimLeft_cons hc (spaces_not_solid spaces (by simp)) s _

/-- A token ends where the first other byte stands. -/
theorem consumeToken_of_token {rest : Str} (hs : ∀ c ∈ s, isTokenChar c = true)
    (hrest : rest.head?.all (!isTokenChar ·) = true) : consumeToken (s ++ rest) = (s, rest) := by
  have htake : rest.takeWhile isTokenChar = [] ∧ rest.dropWhile isTokenChar = rest := by
    cases rest with
    | nil => exact ⟨rfl, rfl⟩
    | cons c rest =>
      have hc : isTokenChar c = false := by simpa using hrest
      simp [hc]
  unfold consumeToken
  rw [takeWhile_append_of_pos hs, dropWhile_append_of_pos hs, htake.1, htake.2, append_nil]

theorem consumeToken_token (hs : ∀ c ∈ s, isTokenChar c = true) : consumeToken s = (s, []) := by
  have h : consumeToken (s ++ []) = (s, []) := consumeToken_of_token hs rfl
  rwa [append_nil] at h

/-- A text of tokens in lower case, in which the scanners of the fast path find nothing to change. -/
structure Lowercase (s : Str) : Prop where
  ne_nil : s ≠ []
  token : ∀ c ∈ s, isTokenChar c = true
  fixed : s.map toLower = s
  ascii : s.all (· < 128) = true

theorem Lowercase.of_isLowercaseToken (h : isLowercaseToken s = true) : Lowercase s := by
  have hfacts : ∀ c : UInt8, isLowercaseByte c = true → isTokenChar c = true ∧ toLower c = c ∧ c < 128 :=
    forall_byte (P := fun c => isLowercaseByte c = true → isTokenChar c = true ∧ toLower c = c ∧ c < 128)
      (by decide +kernel)
  simp only [isLowercaseToken, Bool.and_eq_true, Bool.not_eq_true', isEmpty_eq_false_iff, all_eq_true] at h
  refine ⟨h.1, fun c hc => (hfacts c (h.2 c hc)).1, ?_, ?_⟩
  · exact (map_congr_left fun c hc => (hfacts c (h.2 c hc)).2.1).trans (map_id' s)
  · exact all_eq_true.2 fun c hc => decide_eq_true (hfacts c (h.2 c hc)).2.2

theorem Lowercase.lower_eq (h : Lowercase s) : lower unicodeLower s = s := by
  rw [ContentType.lower, if_pos h.ascii, h.fixed]

theorem Lowercase.isToken (h : Lowercase s) : isToken s = true := by
  simpa [ContentType.isToken, all_eq_true] using ⟨h.ne_nil, h.token⟩

theorem Lowercase.of_isSimpleCharsetToken (h : isSimpleCharsetToken s = true) :
    s ≠ [] ∧ (∀ c ∈ s, isTokenChar c = true) ∧ lower unicodeLower s = s.map toLower ∧
      Lowercase (s.map toLower) ∧ needsEncoding (s.map toLower) = false := by
  have hfacts : ∀ c : UInt8, isCharsetByte c = true → isTokenChar c = true ∧ c < 128 ∧
      isTokenChar (toLower c) = true ∧ toLower c < 128 ∧
      ((toLower c < 32 || 126 < toLower c) && toLower c ≠ 9) = false :=
    forall_byte (P := fun c => isCharsetByte c = true → isTokenChar c = true ∧ c < 128 ∧
      isTokenChar (toLower c) = true ∧ toLower c < 128 ∧
      ((toLower c < 32 || 126 < toLower c) && toLower c ≠ 9) = false) (by decide +kernel)
  simp only [isSimpleCharsetToken, Bool.and_eq_true, Bool.not_eq_true', isEmpty_eq_false_iff, all_eq_true] at h
  have hall := fun c hc => hfacts c (h.2 c hc)
  have hmap : ∀ x ∈ s.map toLower, ∃ c ∈ s, toLower c = x := fun x hx => mem_map.1 hx
  refine ⟨h.1, fun c hc => (hall c hc).1, ?_, ⟨?_, ?_, ?_, ?_⟩, ?_⟩
  · rw [ContentType.lower, if_pos]
    exact all_eq_true.2 fun c hc => decide_eq_true (hall c hc).2.1
  · simpa using h.1
  · rintro x hx
    obtain ⟨c, hc, rfl⟩ := hmap x hx
    exact (hall c hc).2.2.1
  · rw [map_map]
    exact map_congr_left fun c _ => toLower_toLower c
  · refine all_eq_true.2 fun x hx => ?_
    obtain ⟨c, hc, rfl⟩ := hmap x hx
    exact decide_eq_true (hall c hc).2.2.2.1
  · refine any_eq_false.2 fun x hx => ?_
    obtain ⟨c, hc, rfl⟩ := hmap x hx
    exact Bool.eq_false_iff.1 (hall c hc).2.2.2.2

theorem cut_eq_some {p : Str × Str} (h : cut [c] s = some p) : s = p.1 ++ c :: p.2 ∧ c ∉ p.1 := by
  by_cases hc : c ∈ s
  · obtain ⟨a, b, rfl, ha⟩ := eq_append_cons_of_mem hc
    rw [cut_append ha] at h
    cases h
    exact ⟨rfl, ha⟩
  · rw [cut_of_notMem hc] at h
    cases h

def IsMediaType (s : Str) : Prop := ∃ typ sub, s = typ ++ 47 :: sub ∧ Lowercase typ ∧ Lowercase sub

theorem IsMediaType.of_isLowercaseMediaType (h : isLowercaseMediaType s = true) : IsMediaType s := by
  unfold isLowercaseMediaType at h
  split at h
  · cases h
  · rename_i typ sub hcut
    simp only [Bool.and_eq_true] at h
    exact ⟨typ, sub, (cut_eq_some hcut).1, .of_isLowercaseToken h.1.2, .of_isLowercaseToken h.2⟩

namespace IsMediaType

variable {s : Str} (h : IsMediaType s)

include h

theorem isSolid_of_mem : ∀ c ∈ s, isSolid c = true ∧ c ≠ 59 := by
  obtain ⟨typ, sub, rfl, htyp, hsub⟩ := h
  have htoken : ∀ c, isTokenChar c = true → isSolid c = true ∧ c ≠ 59 := by
    refine fun c hc => ⟨isSolid_of_isTokenChar hc, ?_⟩
    rintro rfl
    cases hc
  intro c hc
  rw [mem_append, mem_cons] at hc
  rcases hc with hc | rfl | hc
  · exact htoken c (htyp.token c hc)
  · exact ⟨rfl, by decide⟩
  · exact htoken c (hsub.token c hc)

theorem lower_eq : lower unicodeLower s = s := by
  obtain ⟨typ, sub, rfl, htyp, hsub⟩ := h
  have hascii : (typ ++ 47 :: sub).all (· < 128) = true := by
    simp [all_append, htyp.ascii, hsub.ascii]
  rw [lower, if_pos hascii, map_append, map_cons, htyp.fixed, hsub.fixed]
  rfl

theorem checkMediaTypeDisposition : checkMediaTypeDisposition s = true := by
  obtain ⟨typ, sub, rfl, htyp, hsub⟩ := h
  have hfirst : consumeToken (typ ++ 47 :: sub) = (typ, 47 :: sub) := consumeToken_of_token htyp.token rfl
  have hsecond := consumeToken_token hsub.token
  unfold ContentType.checkMediaTypeDisposition
  rw [hfirst]
  simp [hsecond, htyp.ne_nil, hsub.ne_nil]

theorem formatType : formatType unicodeLower s = some s := by
  obtain ⟨typ, sub, rfl, htyp, hsub⟩ := h
  have hslash : (47 : UInt8) ∉ typ := by
    intro hmem
    cases htyp.token 47 hmem
  unfold ContentType.formatType
  rw [show cut (str "/") (typ ++ 47 :: sub) = some (typ, sub) from cut_append hslash sub]
  simp only [htyp.isToken, hsub.isToken, htyp.lower_eq, hsub.lower_eq, Bool.and_self, if_true]
  rw [append_assoc]
  rfl

theorem parseMediaType (rest : Str) (hrest : rest = [] ∨ ∃ t, rest = 59 :: t) {pieces : List (Str × Str)}
    (hpieces : consumeMediaParams unicodeLower (s ++ rest).length rest [] = some pieces)
    (hplain : ∀ p ∈ pieces, cut (str "*") p.1 = none) :
    parseMediaType unicodeLower (s ++ rest) = some (s, pieces) := by
  have hsemicolon : (59 : UInt8) ∉ s := fun hmem => (h.isSolid_of_mem 59 hmem).2 rfl
  have hbase : ((cut (str ";") (s ++ rest)).map Prod.fst).getD (s ++ rest) = s := by
    rcases hrest with rfl | ⟨t, rfl⟩
    · rw [append_nil, show cut (str ";") s = none from cut_of_notMem hsemicolon]
      rfl
    · rw [show cut (str ";") (s ++ 59 :: t) = some (s, t) from cut_append hsemicolon t]
      rfl
  have htrim : trimSpace s = s := trimSpace_of_all (fun c hc => (h.isSolid_of_mem c hc).1) spaces_not_solid
  have hstarred : (pieces.filterMap fun p => (cut (str "*") p.1).map Prod.fst) = [] :=
    filterMap_eq_nil_iff.2 fun p hp => by rw [hplain p hp]; rfl
  have hfilter : (pieces.filter fun p => (cut (str "*") p.1).isNone) = pieces :=
    filter_eq_self.2 fun p hp => by rw [hplain p hp]; rfl
  unfold ContentType.parseMediaType
  simp only [hbase, h.lower_eq, htrim, h.checkMediaTypeDisposition, if_true, drop_left, hpieces,
    Option.map_some, hstarred, hfilter, dedup_nil, foldl_nil]

end IsMediaType

theorem lower_charset : lower unicodeLower (str "charset") = str "charset" := by
  rw [lower, if_pos (by decide)]
  decide

theorem consumeMediaParams_nil (fuel : ℕ) (params : List (Str × Str)) :
    consumeMediaParams unicodeLower fuel [] params = some params := by
  cases fuel <;> rfl

theorem consumeMediaParam_charset (hne : charset ≠ []) (htoken : ∀ c ∈ charset, isTokenChar c = true) :
    consumeMediaParam unicodeLower (59 :: (str " charset=" ++ charset)) = some (str "charset", charset, []) := by
  have hvalue : trimSpaceLeft charset = charset ∧ consumeValue charset = (charset, []) := by
    obtain ⟨c, rest, rfl⟩ := exists_cons_of_ne_nil hne
    have hc := htoken c mem_cons_self
    refine ⟨trimSpaceLeft_cons (isSolid_of_isTokenChar hc) rest, ?_⟩
    have hquote : c ≠ 34 := by
      rintro rfl
      cases hc
    rw [consumeValue, if_neg hquote, consumeToken_token htoken]
  have hname : consumeToken (str "charset" ++ 61 :: charset) = (str "charset", 61 :: charset) :=
    consumeToken_of_token (by decide +kernel) rfl
  have hblank : trimSpaceLeft (str " charset=" ++ charset) = str "charset" ++ 61 :: charset :=
    trimSpaceLeft_blank rfl _
  unfold consumeMediaParam
  rw [trimSpaceLeft_cons rfl]
  simp only [ne_eq, not_true_eq_false, if_false, hblank, hname, trimSpaceLeft_cons (c := 61) rfl, hvalue.1,
    hvalue.2, lower_charset, hne, false_or, false_and]
  rfl

/-! ## The two paths -/

theorem canonicalizeContentTypeSlow_of_isMediaType (h : IsMediaType s) :
    canonicalizeContentTypeSlow unicodeLower s = s := by
  have hparse := h.parseMediaType unicodeLower [] (.inl rfl) (consumeMediaParams_nil unicodeLower _ []) nofun
  rw [append_nil] at hparse
  rw [canonicalizeContentTypeSlow, hparse]
  show formatMediaType unicodeLower s [] = s
  rw [formatMediaType, h.formatType]
  exact append_nil s

theorem canonicalizeContentTypeSlow_of_charset {base : Str} (h : IsMediaType base)
    (hcharset : isSimpleCharsetToken charset = true) :
    canonicalizeContentTypeSlow unicodeLower (base ++ 59 :: (str " charset=" ++ charset)) =
      base ++ str "; charset=" ++ lower unicodeLower charset := by
  obtain ⟨hne, htoken, hlower, hvalue, hneeds⟩ :=
    Lowercase.of_isSimpleCharsetToken unicodeLower hcharset
  have hpieces : consumeMediaParams unicodeLower (base ++ 59 :: (str " charset=" ++ charset)).length
      (59 :: (str " charset=" ++ charset)) [] = some [(str "charset", charset)] := by
    rw [length_append, length_cons, ← Nat.add_assoc, consumeMediaParams, trimSpaceLeft_cons rfl]
    simp only [consumeMediaParam_charset unicodeLower hne htoken]
    exact consumeMediaParams_nil unicodeLower _ _
  have hparse := h.parseMediaType unicodeLower (59 :: (str " charset=" ++ charset)) (.inr ⟨_, rfl⟩) hpieces
    (by simp; decide)
  rw [canonicalizeContentTypeSlow, hparse, hlower]
  show formatMediaType unicodeLower base [(str "charset", lower unicodeLower charset)] = _
  have hattribute : isToken (str "charset") = true := by decide +kernel
  have hparam : formatParam unicodeLower (str "charset", charset.map toLower) =
      some (str "; charset=" ++ charset.map toLower) := by
    rw [formatParam, if_pos hattribute, lower_charset, if_neg (Bool.eq_false_iff.1 hneeds), if_pos hvalue.isToken]
    rfl
  rw [formatMediaType, h.formatType, hlower]
  simp [hparam]

/-- What the fast path accepts is what the slow one makes of it. -/
theorem canonicalizeContentTypeSlow_of_fast {ctype canonical : Str}
    (h : canonicalizeContentTypeFast unicodeLower ctype = some canonical) :
    canonicalizeContentTypeSlow unicodeLower ctype = canonical := by
  unfold canonicalizeContentTypeFast at h
  split at h
  · split_ifs at h with hbase
    cases h
    exact canonicalizeContentTypeSlow_of_isMediaType unicodeLower (.of_isLowercaseMediaType hbase)
  · rename_i base param hcut
    obtain rfl : ctype = base ++ 59 :: param := (cut_eq_some hcut).1
    dsimp only at h
    split_ifs at h with hbase hcharset hsame
    · simp only [Bool.and_eq_true] at hbase
      obtain ⟨charset, rfl⟩ := isPrefixOf_iff_prefix.1 hbase.2
      rw [drop_left] at hcharset hsame
      cases h
      rw [canonicalizeContentTypeSlow_of_charset unicodeLower (.of_isLowercaseMediaType hbase.1.1) hcharset,
        hsame, append_assoc]
      rfl
    · simp only [Bool.and_eq_true] at hbase
      obtain ⟨charset, rfl⟩ := isPrefixOf_iff_prefix.1 hbase.2
      cases h
      exact canonicalizeContentTypeSlow_of_charset unicodeLower (.of_isLowercaseMediaType hbase.1.1) hcharset

/-- Where the fast path answers it answers as the slow one does, and so the two agree on every input. -/
theorem canonicalizeContentType_eq_slow (contentType : Str) :
    (∀ canonical, canonicalizeContentTypeFast unicodeLower contentType = some canonical →
      canonical = canonicalizeContentTypeSlow unicodeLower contentType) ∧
    canonicalizeContentType unicodeLower contentType = canonicalizeContentTypeSlow unicodeLower contentType := by
  have hfast : ∀ canonical, canonicalizeContentTypeFast unicodeLower contentType = some canonical →
      canonical = canonicalizeContentTypeSlow unicodeLower contentType :=
    fun canonical h => (canonicalizeContentTypeSlow_of_fast unicodeLower h).symm
  refine ⟨hfast, ?_⟩
  unfold canonicalizeContentType
  cases h : canonicalizeContentTypeFast unicodeLower contentType with
  | none => rfl
  | some canonical => exact hfast canonical h

end

end DubboGo.Triple.ContentType
