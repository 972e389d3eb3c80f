import DubboGo.Go.Stream
import DubboGo.Triple.Error

/-!
# HTTP responses

How `net/http` carries the response of a handler to a client, as its HTTP/2 server and client do it.
-/

namespace DubboGo.Triple

open Go List

def headerContentLength : Str := str "Content-Length"

/-! ## Names and values -/

def validHeaderFieldByte (c : UInt8) : Bool :=
  (48 ≤ c && c ≤ 57) || (65 ≤ c && c ≤ 90) || (97 ≤ c && c ≤ 122) || c ∈ str "!#$%&'*+-.^_`|~"

/-- `httpguts.ValidHeaderFieldValue`: no control characters other than tabs. -/
def validHeaderFieldValue (value : Str) : Bool := value.all fun c => c = 9 || (32 ≤ c && c ≠ 127)

/-- The loop of `http.CanonicalHeaderKey`: `upper` says that a word begins. -/
def canonicalWords (upper : Bool) : Str → Str
  | [] => []
  | c :: s => (if upper then toUpper c else toLower c) :: canonicalWords (c = 45) s

def canonicalHeaderKey (name : Str) : Str :=
  if name.all validHeaderFieldByte then canonicalWords true name else name

def Canonical (name : Str) : Prop :=
  name ≠ [] ∧ name.all validHeaderFieldByte = true ∧ canonicalHeaderKey name = name

instance (name : Str) : Decidable (Canonical name) := inferInstanceAs (Decidable (_ ∧ _ ∧ _))

def casings (c : UInt8) : List UInt8 :=
  if toUpper c = toLower c then [toUpper c] else [toUpper c, toLower c]

/-- The names that differ from `name` in case only, in the order of a sorted map. -/
def spellings : Str → List Str
  | [] => [[]]
  | c :: s => (casings c).flatMap fun c' => (spellings s).map fun s' => c' :: s'

theorem lower_of_mem_casings {c c' : UInt8} (h : c' ∈ casings c) : toLower c' = toLower c := by
  unfold casings at h
  split_ifs at h
  · rw [mem_singleton.1 h, toLower_toUpper]
  · rcases mem_pair.1 h with rfl | rfl
    · exact toLower_toUpper c
    · exact toLower_toLower c

theorem mem_casings (c : UInt8) : c ∈ casings c := by
  unfold casings
  split_ifs with h
  · rw [mem_singleton]
    rcases eq_toUpper_or_eq_toLower c with hc | hc
    · exact hc
    · exact hc.trans h.symm
  · exact mem_pair.2 (eq_toUpper_or_eq_toLower c)

variable {name name' : Str} {header : Header}

theorem lower_of_mem_spellings (h : name' ∈ spellings name) : name'.map toLower = name.map toLower := by
  induction name generalizing name' with
  | nil => rw [mem_singleton.1 h]
  | cons c s ih =>
    simp only [spellings, mem_flatMap, mem_map] at h
    obtain ⟨c', hc, s', hs, rfl⟩ := h
    rw [map_cons, map_cons, lower_of_mem_casings hc, ih hs]

theorem mem_spellings (name : Str) : name ∈ spellings name := by
  induction name with
  | nil => exact mem_singleton.2 rfl
  | cons c s ih =>
    simp only [spellings, mem_flatMap, mem_map]
    exact ⟨c, mem_casings c, s, ih, rfl⟩

theorem ne_of_mem_spellings {other : Str} (h : name' ∈ spellings name)
    (hne : other.map toLower ≠ name.map toLower) : name' ≠ other := by
  rintro rfl
  exact hne (lower_of_mem_spellings h)

theorem hasPrefix_of_mem_spellings {p : Str} (h : name' ∈ spellings name)
    (hp : hasPrefix (name.map toLower) (p.map toLower) = false) : hasPrefix name' p = false := by
  rw [Bool.eq_false_iff] at hp ⊢
  intro hpre
  apply hp
  rw [← lower_of_mem_spellings h]
  obtain ⟨t, rfl⟩ := isPrefixOf_iff_prefix.1 hpre
  rw [map_append]
  exact hasPrefix_append _ _

/-! ## Headers on the wire -/

namespace Header

def collect (h : Header) (names : List Str) : List Str :=
  names.flatMap fun name => (h.values name).filter validHeaderFieldValue

def received (h : Header) : Header := fun name =>
  if Canonical name ∧ h.collect (spellings name) ≠ [] then some (h.collect (spellings name))
  else none

variable {h h' : Header} {name : Str} {names : List Str}

theorem collect_congr (heq : ∀ n ∈ names, h.values n = h'.values n) : h.collect names = h'.collect names := by
  unfold collect
  induction names with
  | nil => rfl
  | cons n names ih =>
    rw [flatMap_cons, flatMap_cons, heq n (by simp), ih fun n hn => heq n (by simp [hn])]

/-- A field arrives with the values of all spellings of its name. -/
theorem values_received (hname : Canonical name) : h.received.values name = h.collect (spellings name) := by
  unfold values received
  by_cases hc : h.collect (spellings name) = []
  · rw [if_neg (by simp [hc]), hc]
    rfl
  · rw [if_pos ⟨hname, hc⟩]
    rfl

theorem getHeaderCanonical_received_congr (hname : Canonical name)
    (heq : ∀ n ∈ spellings name, h.values n = h'.values n) :
    getHeaderCanonical h.received name = getHeaderCanonical h'.received name := by
  unfold getHeaderCanonical
  rw [values_received hname, values_received hname, collect_congr heq]

theorem collect_of_absent (habsent : ∀ n ∈ names, h n = none) : h.collect names = [] := by
  unfold collect
  rw [flatMap_eq_nil_iff]
  intro n hn
  rw [values, habsent n hn]
  rfl

theorem getHeaderCanonical_received_of_absent (habsent : ∀ n ∈ spellings name, h n = none) :
    getHeaderCanonical h.received name = [] := by
  have hnone : h.received name = none := if_neg (by simp [collect_of_absent habsent])
  unfold getHeaderCanonical values
  rw [hnone]
  rfl

theorem getHeaderCanonical_received_set {value : Str} (hname : Canonical name)
    (hvalue : validHeaderFieldValue value = true) (habsent : ∀ n ∈ spellings name, n ≠ name → h n = none) :
    getHeaderCanonical (setHeaderCanonical h name value).received name = value := by
  have key : ∀ names : List Str, name ∈ names → (∀ n ∈ names, n ≠ name → h n = none) →
      ((setHeaderCanonical h name value).collect names).headD [] = value := by
    intro names hmem hrest
    induction names with
    | nil => cases hmem
    | cons n names ih =>
      unfold collect at ih ⊢
      rw [flatMap_cons]
      by_cases hn : n = name
      · simp [hn, values, setHeaderCanonical, hvalue]
      · have hvalues : (setHeaderCanonical h name value).values n = [] := by
          rw [values, setHeaderCanonical, Function.update_of_ne hn, hrest n (by simp) hn]
          rfl
        rw [hvalues]
        exact ih (mem_of_ne_of_mem (Ne.symm hn) hmem) fun n' hn' => hrest n' (by simp [hn'])
  unfold getHeaderCanonical
  rw [values_received hname]
  exact key _ (mem_spellings name) habsent

end Header

/-! ## Responses -/

/-- An `http.ResponseWriter`: the header that handlers change, the status and header that were sent,
and the body written so far. -/
structure ResponseWriter where
  header : Header
  sent : Option (ℕ × Header)
  body : Str

namespace ResponseWriter

/-- `WriteHeader`; only the first one counts. -/
def writeHeader (w : ResponseWriter) (status : ℕ) : ResponseWriter :=
  { w with sent := w.sent.or (some (status, w.header)) }

def write (w : ResponseWriter) (data : Str) : ResponseWriter :=
  { w.writeHeader 200 with body := w.body ++ data }

end ResponseWriter

/-- The fields of an `http.Response`. -/
structure Response where
  statusCode : ℕ
  status : Str
  header : Header
  body : ChunkReader ErrorHead

def declaredLength (h : Header) : Option ℕ :=
  match parseUint (getHeaderCanonical h headerContentLength) 10 63 with
  | .ok n => some n
  | .error _ => none

def Framed (h : Header) (len : ℕ) : Prop := declaredLength h = none ∨ declaredLength h = some len

/-- The spellings of `Content-Length` that the server does not look for, but sends. -/
def straySpellings : List Str := (spellings headerContentLength).filter (· ≠ headerContentLength)

def connectionHeaders : List Str :=
  [str "Connection", str "Content-Length", str "Date", str "Trailer", str "Transfer-Encoding"]

/-- `resp` is what the client gets of this header and body: the text `statusLine` gives its status, the header and,
chunk by chunk, the body, or an error when it does not fit its header.  With a stray length nothing is said about the
body. -/
structure Response.Carries (statusLine : ℕ → Str) (h : Header) (data : Str) (resp : Response) :
    Prop where
  status : resp.status = statusLine resp.statusCode
  header : ∀ name, name ∉ connectionHeaders → resp.header name = h.received name
  body : h.collect straySpellings = [] → Framed h data.length → resp.body.pending = data ∧ resp.body.last = .eof
  broken : h.collect straySpellings = [] → ¬ Framed h data.length → resp.body.last.isExactly .eof = false

/-- `resp` is what the client gets of what was written. -/
def ResponseWriter.Delivers (statusLine : ℕ → Str) (w : ResponseWriter) (resp : Response) : Prop :=
  ∃ header, w.sent = some (resp.statusCode, header) ∧ resp.Carries statusLine header w.body

/-- A response can arrive; a stray spelling of `Content-Length` breaks its body off. -/
theorem ResponseWriter.exists_delivers (sline : ℕ → Str) {w : ResponseWriter} {stat : ℕ}
    (h : w.sent = some (stat, header)) : ∃ resp, w.Delivers sline resp ∧
      (header.collect straySpellings ≠ [] → resp.body.last.isExactly .eof = false) := by
  by_cases hf : header.collect straySpellings = [] ∧ Framed header w.body.length
  · refine ⟨⟨stat, sline stat, header.received, .ofBytes w.body .eof⟩, ⟨header, h, rfl,
      fun _ _ => rfl, fun _ _ => ⟨ChunkReader.pending_ofBytes _ _, rfl⟩, fun _ hn => ?_⟩, fun hn => ?_⟩
    · exact absurd hf.2 hn
    · exact absurd hf.1 hn
  · refine ⟨⟨stat, sline stat, header.received, .ofBytes [] (.sentinel .unexpectedEOF)⟩,
      ⟨header, h, rfl, fun _ _ => rfl, fun h1 h2 => ?_, fun _ _ => rfl⟩, fun _ => rfl⟩
    exact absurd ⟨h1, h2⟩ hf

/-- A header field that is not about the connection arrives as it was received. -/
theorem Response.Carries.getHeaderCanonical {sline : ℕ → Str} {body : Str} {resp : Response}
    (h : resp.Carries sline header body) (hname : name ∉ connectionHeaders) :
    getHeaderCanonical resp.header name = getHeaderCanonical header.received name := by
  unfold Triple.getHeaderCanonical Header.values
  rw [h.header name hname]

end DubboGo.Triple
