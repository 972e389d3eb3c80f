import DubboGo.Go.Text

/-!
# `net/url` and `net.SplitHostPort`

Escaping (`QueryEscape`, `QueryUnescape`) and parsing (`Parse`) of URLs as in Go 1.25.  Of a parsed URL there are
the fields that the program reads.
-/

namespace DubboGo.Go.NetURL

open List

inductive Encoding where
  | path | userPassword | host | zone | queryComponent | fragment
  deriving DecidableEq

inductive Err where
  /-- `invalid URL escape …`. -/
  | escape (s : Str)
  /-- `invalid character … in host name`. -/
  | invalidHost (s : Str)
  | controlCharacter
  | missingScheme
  | colonInFirstSegment
  | userinfo
  | missingBracket
  /-- `invalid port … after host`. -/
  | invalidPort (colonPort : Str)
  | semicolon
  | missingPort
  | tooManyColons
  | unexpectedBracket
  deriving DecidableEq

/-! ## Escaping -/

def isLower (c : UInt8) : Bool := 97 ≤ c ∧ c ≤ 122

def isUpper (c : UInt8) : Bool := 65 ≤ c ∧ c ≤ 90

def isDigit (c : UInt8) : Bool := 48 ≤ c ∧ c ≤ 57

def isAlphanumeric (c : UInt8) : Bool := isLower c || isUpper c || isDigit c

def isUnreserved (c : UInt8) : Bool := isAlphanumeric c || (str "-_.~").contains c

def isHostByte (c : UInt8) : Bool := isUnreserved c || (str "!$&'()*+,;=:[]<>\"").contains c

def escapeByte (c : UInt8) : Str :=
  if c = 32 then [43] else if isUnreserved c then [c] else 37 :: hexByte c

def queryEscape (s : Str) : Str := s.flatMap escapeByte

def unescapeByte (mode : Encoding) (a b : UInt8) : Except Err UInt8 :=
  match digitVal 16 a, digitVal 16 b with
  | some x, some y =>
    let v := UInt8.ofNat (16 * x + y)
    if mode = .host ∧ x < 8 ∧ [37, a, b] ≠ str "%25" then .error (.escape [37, a, b])
    else if mode = .zone ∧ [37, a, b] ≠ str "%25" ∧ v ≠ 32 ∧ !isHostByte v then .error (.escape [37, a, b])
    else .ok v
  | _, _ => .error (.escape [37, a, b])

def unescape (mode : Encoding) : Str → Except Err Str
  | [] => .ok []
  | 37 :: a :: b :: s =>
    match unescapeByte mode a b with
    | .error e => .error e
    | .ok v => (unescape mode s).map (v :: ·)
  | 37 :: s => .error (.escape (37 :: s))
  | c :: s =>
    if c = 43 ∧ mode = .queryComponent then (unescape mode s).map (32 :: ·)
    else if (mode = .host ∨ mode = .zone) ∧ c < 128 ∧ !isHostByte c then .error (.invalidHost [c])
    else (unescape mode s).map (c :: ·)

def queryUnescape (s : Str) : Except Err Str := unescape .queryComponent s

/-! ## Parsing -/

/-- The fields of `url.URL`; a user that is not there has no name and no password. -/
structure Parsed where
  scheme : Str
  username : Str
  password : Str
  host : Str
  path : Str
  rawQuery : Str
  deriving DecidableEq

def containsCTLByte (s : Str) : Bool := s.any fun b => b < 32 ∨ b = 127

/-- The loop of `getScheme`, with the bytes before. -/
def getSchemeLoop (rawURL : Str) : Str → Str → Except Err (Str × Str)
  | _, [] => .ok ([], rawURL)
  | scheme, c :: s =>
    if isLower c || isUpper c then getSchemeLoop rawURL (scheme ++ [c]) s
    else if isDigit c || c = 43 || c = 45 || c = 46 then
      if scheme = [] then .ok ([], rawURL) else getSchemeLoop rawURL (scheme ++ [c]) s
    else if c = 58 then if scheme = [] then .error .missingScheme else .ok (scheme, s)
    else .ok ([], rawURL)

def getScheme (rawURL : Str) : Except Err (Str × Str) := getSchemeLoop rawURL [] rawURL

def splitQuery (rest : Str) : Str × Str :=
  if hasSuffix rest [63] ∧ rest.count 63 = 1 then (rest.dropLast, []) else (cut [63] rest).getD (rest, [])

def validOptionalPort : Str → Bool
  | [] => true
  | c :: port => c = 58 && port.all isDigit

def parseHost (host : Str) : Except Err Str :=
  if hasPrefix host [91] then
    match lastIndex 93 host with
    | none => .error .missingBracket
    | some i =>
      if !validOptionalPort (host.drop (i + 1)) then .error (.invalidPort (host.drop (i + 1)))
      else
        match cut (str "%25") (host.take i) with
        | some (literal, _) => do
          let host1 ← unescape .host literal
          let host2 ← unescape .zone ((host.take i).drop literal.length)
          let host3 ← unescape .host (host.drop i)
          return host1 ++ host2 ++ host3
        | none => unescape .host host
  else
    match lastIndex 58 host with
    | some i =>
      if !validOptionalPort (host.drop i) then .error (.invalidPort (host.drop i)) else unescape .host host
    | none => unescape .host host

def validUserinfo (s : Str) : Bool := s.all fun c => isAlphanumeric c || (str "-._:~!$&'()*+,;=%@").contains c

def parseAuthority (authority : Str) : Except Err (Str × Str × Str) :=
  match lastIndex 64 authority with
  | none => (parseHost authority).map fun host => ([], [], host)
  | some i => do
    let host ← parseHost (authority.drop (i + 1))
    let userinfo := authority.take i
    if !validUserinfo userinfo then .error .userinfo
    else
      match cut [58] userinfo with
      | none => do
        let username ← unescape .userPassword userinfo
        return (username, [], host)
      | some (username, password) => do
        let username ← unescape .userPassword username
        let password ← unescape .userPassword password
        return (username, password, host)

def parseHierarchy (scheme rest rawQuery : Str) : Except Err Parsed :=
  if !hasPrefix rest [47] ∧ scheme ≠ [] then .ok ⟨scheme, [], [], [], [], rawQuery⟩
  else if !hasPrefix rest [47] ∧ 58 ∈ rest.takeWhile (· ≠ 47) then .error .colonInFirstSegment
  else if (scheme ≠ [] ∨ !hasPrefix rest [47, 47, 47]) ∧ hasPrefix rest [47, 47] then do
    let authority := rest.drop 2
    let (username, password, host) ← parseAuthority (authority.takeWhile (· ≠ 47))
    let path ← unescape .path (authority.dropWhile (· ≠ 47))
    return ⟨scheme, username, password, host, path, rawQuery⟩
  else do
    let path ← unescape .path rest
    return ⟨scheme, [], [], [], path, rawQuery⟩

/-- `parse`, without a fragment. -/
def parse (rawURL : Str) : Except Err Parsed :=
  if containsCTLByte rawURL then .error .controlCharacter
  else if rawURL = [42] then .ok ⟨[], [], [], [], [42], []⟩
  else do
    let (scheme, rest) ← getScheme rawURL
    parseHierarchy (scheme.map toLower) (splitQuery rest).1 (splitQuery rest).2

/-- `url.Parse`; the fragment is checked and not kept. -/
def parseURL (rawURL : Str) : Except Err Parsed :=
  match cut [35] rawURL with
  | none => parse rawURL
  | some (u, fragment) => do
    let url ← parse u
    let _ ← unescape .fragment fragment
    return url

/-! ## Addresses -/

/-- Brackets that are where none can be, behind the places where some were expected. -/
def checkBrackets (hostport : Str) (j k : ℕ) (host port : Str) : Except Err (Str × Str) :=
  if 91 ∈ hostport.drop j then .error .unexpectedBracket
  else if 93 ∈ hostport.drop k then .error .unexpectedBracket
  else .ok (host, port)

def splitHostPort (hostport : Str) : Except Err (Str × Str) :=
  match lastIndex 58 hostport with
  | none => .error .missingPort
  | some i =>
    if hasPrefix hostport [91] then
      let literal := hostport.takeWhile (· ≠ 93)
      if literal.length = hostport.length then .error .missingBracket
      else if literal.length + 1 = hostport.length then .error .missingPort
      else if literal.length + 1 = i then
        checkBrackets hostport 1 (literal.length + 1) (literal.drop 1) (hostport.drop (i + 1))
      else if hostport.getD (literal.length + 1) 0 = 58 then .error .tooManyColons
      else .error .missingPort
    else if 58 ∈ hostport.take i then .error .tooManyColons
    else checkBrackets hostport 0 0 (hostport.take i) (hostport.drop (i + 1))

/-! ## Unescaping inverts escaping -/

variable {c : UInt8} {s bef scheme : Str}

theorem unescape_cons (hc : c ≠ 37) (mode : Encoding) (s : Str) :
    unescape mode (c :: s) =
      if c = 43 ∧ mode = .queryComponent then (unescape mode s).map (32 :: ·)
      else if (mode = .host ∨ mode = .zone) ∧ c < 128 ∧ !isHostByte c then .error (.invalidHost [c])
      else (unescape mode s).map (c :: ·) := by
  rw [unescape]
  · exact fun a b t heq _ => absurd heq hc
  · exact fun heq => absurd heq hc

def Unescapes (s t : Str) : Prop :=
  ∀ rest, unescape .queryComponent (s ++ rest) = (unescape .queryComponent rest).map (t ++ ·)

namespace Unescapes

theorem nil : Unescapes [] [] := by
  intro rest
  rw [nil_append]
  cases unescape .queryComponent rest <;> rfl

/-- Texts that are read back one by one are read back together. -/
theorem append {s s' t t' : Str} (h : Unescapes s t) (h' : Unescapes s' t') : Unescapes (s ++ s') (t ++ t') := by
  intro rest
  rw [append_assoc, h, h']
  cases unescape .queryComponent rest with
  | error e => rfl
  | ok u => exact congrArg Except.ok (append_assoc t t' u).symm

theorem byte {c : UInt8} (hpercent : c ≠ 37) (hplus : c ≠ 43) : Unescapes [c] [c] := by
  intro rest
  rw [singleton_append, unescape_cons hpercent, if_neg fun hand => hplus hand.1, if_neg fun hand => ?_]
  · rfl
  · rcases hand.1 with hmode | hmode <;> cases hmode

theorem escapeByte (c : UInt8) : Unescapes (escapeByte c) [c] := by
  unfold NetURL.escapeByte
  split_ifs with hblank hunreserved
  · intro rest
    rw [singleton_append, unescape_cons (by decide), if_pos ⟨rfl, rfl⟩, hblank]
    rfl
  · have hfacts : isUnreserved c = true → c ≠ 37 ∧ c ≠ 43 :=
      forall_byte (P := fun c => isUnreserved c = true → c ≠ 37 ∧ c ≠ 43) (by decide +kernel) c
    exact byte (hfacts hunreserved).1 (hfacts hunreserved).2
  · intro rest
    have hbyte : ∃ a b, hexByte c = [a, b] ∧ unescapeByte .queryComponent a b = .ok c := by
      refine ⟨_, _, rfl, ?_⟩
      exact forall_byte (P := fun c => unescapeByte .queryComponent ((hexByte c).getD 0 0) ((hexByte c).getD 1 0) =
        .ok c) (by decide +kernel) c
    obtain ⟨a, b, hhex, hbyte⟩ := hbyte
    rw [hhex, cons_append, cons_append, cons_append, nil_append, unescape, hbyte]
    rfl

/-- What `QueryEscape` writes is read back. -/
theorem queryEscape (s : Str) : Unescapes (queryEscape s) s := by
  induction s with
  | nil => exact nil
  | cons c s ih => exact (escapeByte c).append ih

theorem queryUnescape_eq {s t : Str} (h : Unescapes s t) : queryUnescape s = .ok t := by
  have hrest := h []
  rw [append_nil] at hrest
  rw [queryUnescape, hrest]
  exact congrArg Except.ok (append_nil t)

end Unescapes

theorem queryUnescape_queryEscape (s : Str) : queryUnescape (queryEscape s) = .ok s :=
  (Unescapes.queryEscape s).queryUnescape_eq

def isEscapedByte (c : UInt8) : Bool := isUnreserved c || c = 37 || c = 43

theorem isEscapedByte_of_mem (hc : c ∈ queryEscape s) : isEscapedByte c = true := by
  obtain ⟨b, -, hb⟩ := mem_flatMap.1 hc
  have hall : (escapeByte b).all isEscapedByte = true :=
    forall_byte (P := fun b => (escapeByte b).all isEscapedByte = true) (by decide +kernel) b
  exact all_eq_true.1 hall c hb

/-! ## Plain texts -/

theorem notMem_of_all {p : UInt8 → Bool} (hs : ∀ c ∈ s, p c = true) (hc : p c = false) : c ∉ s := by
  intro hmem
  rw [hs c hmem] at hc
  cases hc

theorem isSome_cut {sep : Str} (hsep : sep ≠ []) (s t : Str) : (cut sep (s ++ (sep ++ t))).isSome = true := by
  induction s with
  | nil =>
    obtain ⟨c, rest, rfl⟩ := exists_cons_of_ne_nil hsep
    have hbegins : hasPrefix (c :: (rest ++ t)) (c :: rest) = true :=
      isPrefixOf_iff_prefix.2 (prefix_append (c :: rest) t)
    rw [nil_append, cons_append, cut, if_pos hbegins]
    rfl
  | cons c s ih =>
    rw [cons_append, cut]
    split_ifs
    · rfl
    · rw [Option.isSome_map]
      exact ih

def Encoding.Keeps (mode : Encoding) (c : UInt8) : Prop :=
  c ≠ 37 ∧ ¬(c = 43 ∧ mode = .queryComponent) ∧ ¬((mode = .host ∨ mode = .zone) ∧ c < 128 ∧ !isHostByte c)

theorem unescape_of_keeps {mode : Encoding} (hs : ∀ c ∈ s, mode.Keeps c) : unescape mode s = .ok s := by
  induction s with
  | nil => rfl
  | cons c s ih =>
    obtain ⟨hpercent, hplus, hhost⟩ := hs c mem_cons_self
    rw [unescape_cons hpercent, if_neg hplus, if_neg hhost, ih fun c hc => hs c (mem_cons_of_mem _ hc)]
    rfl

/-! ## Parsing a URL of plain parts -/

def isSchemeByte (c : UInt8) : Bool := isLower c || isDigit c || c = 43 || c = 45 || c = 46

/-- The bytes of a host that is not a list of several, and not an address with colons. -/
def isPlainHostByte (c : UInt8) : Bool := (isHostByte c || 128 ≤ c) && !(str ":[],").contains c

def isPathByte (c : UInt8) : Bool := 32 ≤ c && c ≠ 127 && !(str "?#%").contains c

def isQueryByte (c : UInt8) : Bool := 32 ≤ c && c ≠ 127 && c ≠ 35

structure PlainAddress (ip port : Str) : Prop where
  ip_ne_nil : ip ≠ []
  ip : ∀ c ∈ ip, isPlainHostByte c = true
  port : ∀ c ∈ port, isDigit c = true

structure PlainParts (scheme ip port path query : Str) : Prop extends PlainAddress ip port where
  scheme_head : ∃ c s, scheme = c :: s ∧ isLower c = true
  scheme : ∀ c ∈ scheme, isSchemeByte c = true
  path_head : ∃ s, path = 47 :: s
  path : ∀ c ∈ path, isPathByte c = true
  query_ne_nil : query ≠ []
  query : ∀ c ∈ query, isQueryByte c = true

def format (scheme ip port path query : Str) : Str :=
  scheme ++ str "://" ++ (ip ++ 58 :: port) ++ path ++ 63 :: query

theorem getSchemeLoop_append {rawURL : Str} (hbefore : bef ≠ [])
    (hscheme : ∀ c ∈ scheme, isSchemeByte c = true) (rest : Str) :
    getSchemeLoop rawURL bef (scheme ++ 58 :: rest) = .ok (bef ++ scheme, rest) := by
  induction scheme generalizing bef with
  | nil =>
    have hcolon : (isLower 58 || isUpper 58) = false ∧
        (isDigit 58 || (58 : UInt8) = 43 || (58 : UInt8) = 45 || (58 : UInt8) = 46) = false := by
      decide
    rw [nil_append, getSchemeLoop, hcolon.1, hcolon.2, if_neg Bool.false_ne_true, if_neg Bool.false_ne_true,
      if_pos rfl, if_neg hbefore, append_nil]
  | cons c scheme ih =>
    have hrest : getSchemeLoop rawURL (bef ++ [c]) (scheme ++ 58 :: rest) = .ok (bef ++ [c] ++ scheme, rest) :=
      ih (by simp) fun c hc => hscheme c (mem_cons_of_mem _ hc)
    rw [append_assoc, singleton_append] at hrest
    rw [cons_append, getSchemeLoop, hrest, if_neg hbefore]
    have hc := hscheme c mem_cons_self
    unfold isSchemeByte at hc
    split_ifs with hletter hother
    · rfl
    · rfl
    · exfalso
      simp_all
    · exfalso
      simp_all

theorem getScheme_append (hhead : ∃ c s, scheme = c :: s ∧ isLower c = true)
    (hscheme : ∀ c ∈ scheme, isSchemeByte c = true) (rest : Str) :
    getScheme (scheme ++ 58 :: rest) = .ok (scheme, rest) := by
  obtain ⟨c, s, rfl, hc⟩ := hhead
  rw [getScheme, cons_append, getSchemeLoop, hc, Bool.true_or, if_pos rfl]
  exact getSchemeLoop_append (append_ne_nil_of_right_ne_nil _ (cons_ne_nil c []))
    (fun c hc => hscheme c (mem_cons_of_mem _ hc)) rest

theorem splitQuery_append {query : Str} (hbefore : 63 ∉ bef) (hquery : query ≠ []) :
    splitQuery (bef ++ 63 :: query) = (bef, query) := by
  have hnot : ¬(hasSuffix (bef ++ 63 :: query) [63] = true ∧ (bef ++ 63 :: query).count 63 = 1) := by
    rintro ⟨hsuffix, hcount⟩
    rw [count_append, count_cons_self, count_eq_zero.2 hbefore] at hcount
    have hmem : (63 : UInt8) ∈ query := by
      obtain ⟨t, ht⟩ := isSuffixOf_iff_suffix.1 hsuffix
      obtain ⟨q, x, rfl⟩ := eq_nil_or_concat query |>.resolve_left hquery
      rw [concat_eq_append, ← cons_append, ← append_assoc] at ht
      obtain ⟨-, hx⟩ := append_inj' ht rfl
      rw [← singleton_inj.1 hx]
      rw [concat_eq_append]
      exact mem_append_right _ (mem_singleton_self _)
    have hpos := count_pos_iff.2 hmem
    omega
  rw [splitQuery, if_neg hnot, cut_append hbefore]
  rfl

theorem takeWhile_ne_append (hc : c ∉ s) (t : Str) :
    (s ++ c :: t).takeWhile (· ≠ c) = s ∧ (s ++ c :: t).dropWhile (· ≠ c) = c :: t := by
  have hs : ∀ x ∈ s, decide (x ≠ c) = true := by
    intro x hx
    exact decide_eq_true fun heq => hc (heq ▸ hx)
  have hstop : decide (c ≠ c) = false := decide_eq_false fun hne => hne rfl
  rw [takeWhile_append_of_pos hs, dropWhile_append_of_pos hs, takeWhile_cons, dropWhile_cons, hstop]
  exact ⟨append_nil s, rfl⟩

section Address

variable {ip port : Str} (h : PlainAddress ip port)

include h

theorem PlainAddress.lastIndex_colon : lastIndex 58 (ip ++ 58 :: port) = some ip.length :=
  lastIndex_append ip (notMem_of_all h.port rfl)

/-- A byte that is no part of a host, a port or the colon is not in the address. -/
theorem PlainAddress.notMem {c : UInt8} (hip : isPlainHostByte c = false) (hport : isDigit c = false)
    (hcolon : c ≠ 58) : c ∉ ip ++ 58 :: port := by
  rw [mem_append, mem_cons, not_or, not_or]
  exact ⟨notMem_of_all h.ip hip, hcolon, notMem_of_all h.port hport⟩

theorem PlainAddress.hasPrefix_bracket : hasPrefix (ip ++ 58 :: port) [91] = false := by
  cases ip with
  | nil => exact absurd rfl h.ip_ne_nil
  | cons c ip =>
    rw [cons_append, hasPrefix_singleton]
    refine beq_false_of_ne ?_
    rintro rfl
    exact absurd (h.ip 91 mem_cons_self) (by decide)

theorem parseHost_of_plain : parseHost (ip ++ 58 :: port) = .ok (ip ++ 58 :: port) := by
  have hport : validOptionalPort (58 :: port) = true := by
    rw [validOptionalPort, all_eq_true.2 h.port]
    rfl
  have hkeeps : ∀ c ∈ ip ++ 58 :: port, Encoding.Keeps .host c := by
    have hfacts : ∀ c : UInt8, (isPlainHostByte c || c = 58 || isDigit c) = true → c ≠ 37 ∧ (isHostByte c || 128 ≤ c) :=
      forall_byte (P := fun c => (isPlainHostByte c || c = 58 || isDigit c) = true →
        c ≠ 37 ∧ (isHostByte c || 128 ≤ c)) (by decide +kernel)
    intro c hc
    have hclass : (isPlainHostByte c || c = 58 || isDigit c) = true := by
      rw [mem_append, mem_cons] at hc
      rcases hc with hc | rfl | hc
      · rw [h.ip c hc]
        rfl
      · decide
      · rw [h.port c hc, Bool.or_true]
    obtain ⟨hpercent, hallowed⟩ := hfacts c hclass
    refine ⟨hpercent, nofun, ?_⟩
    rintro ⟨-, hlt, hnot⟩
    rw [Bool.or_eq_true, decide_eq_true_eq] at hallowed
    rcases hallowed with hhost | hhigh
    · rw [hhost] at hnot
      cases hnot
    · exact absurd hlt (UInt8.not_lt.2 hhigh)
  rw [parseHost, h.hasPrefix_bracket, if_neg Bool.false_ne_true, h.lastIndex_colon]
  dsimp only
  rw [drop_left, hport, unescape_of_keeps hkeeps]
  rfl

theorem parseAuthority_of_plain : parseAuthority (ip ++ 58 :: port) = .ok ([], [], ip ++ 58 :: port) := by
  rw [parseAuthority, lastIndex_eq_none_iff.2 (h.notMem rfl rfl (by decide)), parseHost_of_plain h]
  rfl

theorem splitHostPort_of_plain : splitHostPort (ip ++ 58 :: port) = .ok (ip, port) := by
  have hdrop : (ip ++ 58 :: port).drop (ip.length + 1) = port := by
    rw [← drop_drop, drop_left]
    rfl
  rw [splitHostPort, h.lastIndex_colon]
  dsimp only
  rw [h.hasPrefix_bracket, if_neg Bool.false_ne_true, take_left, if_neg (notMem_of_all h.ip rfl), hdrop,
    checkBrackets, drop_zero, if_neg (h.notMem rfl rfl (by decide)), if_neg (h.notMem rfl rfl (by decide))]

end Address

section Parts

variable {scheme ip port path query : Str} (h : PlainParts scheme ip port path query)

theorem format_eq (scheme ip port path query : Str) : format scheme ip port path query =
      scheme ++ 58 :: ((47 :: 47 :: ((ip ++ 58 :: port) ++ path)) ++ 63 :: query) := by
  have hslashes : str "://" = [58, 47, 47] := by decide
  simp [format, hslashes]

include h

theorem PlainParts.isQueryByte_of_mem {c : UInt8} (hc : c ∈ format scheme ip port path query) :
    isQueryByte c = true := by
  have hfacts : (isSchemeByte c || isPlainHostByte c || isDigit c || isPathByte c) = true → isQueryByte c = true :=
    forall_byte (P := fun c => (isSchemeByte c || isPlainHostByte c || isDigit c || isPathByte c) = true →
      isQueryByte c = true) (by decide +kernel) c
  simp only [format_eq, mem_append, mem_cons] at hc
  rcases hc with hc | rfl | (rfl | rfl | (hc | rfl | hc) | hc) | rfl | hc
  · exact hfacts (by rw [h.scheme c hc]; rfl)
  · rfl
  · rfl
  · rfl
  · exact hfacts (by rw [h.ip c hc, Bool.or_true]; rfl)
  · rfl
  · exact hfacts (by rw [h.port c hc, Bool.or_true]; rfl)
  · exact hfacts (by rw [h.path c hc, Bool.or_true])
  · rfl
  · exact h.query c hc

theorem PlainParts.containsCTLByte_format : containsCTLByte (format scheme ip port path query) = false := by
  refine any_eq_false.2 fun c hc => ?_
  have hfacts : isQueryByte c = true → ¬decide (c < 32 ∨ c = 127) = true :=
    forall_byte (P := fun c => isQueryByte c = true → ¬decide (c < 32 ∨ c = 127) = true) (by decide +kernel) c
  exact hfacts (h.isQueryByte_of_mem hc)

theorem PlainParts.toLower_scheme : scheme.map toLower = scheme := by
  have hfacts : ∀ c : UInt8, isSchemeByte c = true → toLower c = c :=
    forall_byte (P := fun c => isSchemeByte c = true → toLower c = c) (by decide +kernel)
  rw [map_congr_left fun c hc => hfacts c (h.scheme c hc), map_id']

theorem parseHierarchy_of_plain : parseHierarchy scheme (47 :: 47 :: ((ip ++ 58 :: port) ++ path)) query =
      .ok ⟨scheme, [], [], ip ++ 58 :: port, path, query⟩ := by
  obtain ⟨rest, rfl⟩ := h.path_head
  have hscheme : scheme ≠ [] := by
    obtain ⟨c, s, rfl, -⟩ := h.scheme_head
    exact cons_ne_nil c s
  have hpath : unescape .path (47 :: rest) = .ok (47 :: rest) := by
    have hfacts : ∀ c : UInt8, isPathByte c = true → c ≠ 37 :=
      forall_byte (P := fun c => isPathByte c = true → c ≠ 37) (by decide +kernel)
    refine unescape_of_keeps fun c hc => ⟨hfacts c (h.path c hc), nofun, ?_⟩
    rintro ⟨hmode, -⟩
    rcases hmode with hmode | hmode <;> cases hmode
  have hslash : hasPrefix (47 :: 47 :: ((ip ++ 58 :: port) ++ 47 :: rest)) [47] = true := rfl
  have hslashes : hasPrefix (47 :: 47 :: ((ip ++ 58 :: port) ++ 47 :: rest)) [47, 47] = true := by
    simp [hasPrefix, isPrefixOf]
  obtain ⟨htake, hdrop⟩ := takeWhile_ne_append (h.notMem rfl rfl (by decide) : (47 : UInt8) ∉ ip ++ 58 :: port) rest
  have hauthority : drop 2 (47 :: 47 :: ((ip ++ 58 :: port) ++ 47 :: rest)) = (ip ++ 58 :: port) ++ 47 :: rest :=
    rfl
  rw [parseHierarchy, hslash, hslashes, if_neg (by simp), if_neg (by simp), if_pos ⟨.inl hscheme, rfl⟩, hauthority]
  dsimp only
  rw [htake, hdrop, parseAuthority_of_plain h.toPlainAddress, hpath]
  rfl

theorem parse_url : parseURL (format scheme ip port path query) =
      .ok ⟨scheme, [], [], ip ++ 58 :: port, path, query⟩ := by
  have hfragment : (35 : UInt8) ∉ format scheme ip port path query :=
    notMem_of_all (fun c hc => h.isQueryByte_of_mem hc) rfl
  have hstar : format scheme ip port path query ≠ [42] := by
    rw [format_eq]
    intro heq
    have hlength := congrArg length heq
    simp at hlength
    omega
  have hquestion : (63 : UInt8) ∉ 47 :: 47 :: ((ip ++ 58 :: port) ++ path) := by
    rw [mem_cons, mem_cons, mem_append]
    rintro (hc | hc | hc | hc)
    · exact absurd hc (by decide)
    · exact absurd hc (by decide)
    · exact h.notMem rfl rfl (by decide) hc
    · exact notMem_of_all h.path rfl hc
  rw [parseURL, cut_of_notMem hfragment]
  dsimp only
  rw [parse, h.containsCTLByte_format, if_neg Bool.false_ne_true, if_neg hstar, format_eq,
    getScheme_append h.scheme_head h.scheme]
  dsimp only [bind, Except.bind]
  rw [splitQuery_append hquestion h.query_ne_nil, h.toLower_scheme]
  exact parseHierarchy_of_plain h

end Parts

end DubboGo.Go.NetURL
