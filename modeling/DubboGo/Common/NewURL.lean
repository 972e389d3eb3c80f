import DubboGo.Common.Query
import DubboGo.Common.ServiceURL

/-!
# Reading a URL

`NewURL` of `common/url.go`.  The text is unescaped once and taken apart then, and the query is unescaped again.
-/

namespace DubboGo.Common

open Go NetURL List

def spaces : List Str :=
  [[9], [10], [11], [12], [13], [32], [0xc2, 0x85], [0xc2, 0xa0], [0xe1, 0x9a, 0x80], [0xe2, 0x80, 0x80],
    [0xe2, 0x80, 0x81], [0xe2, 0x80, 0x82], [0xe2, 0x80, 0x83], [0xe2, 0x80, 0x84], [0xe2, 0x80, 0x85],
    [0xe2, 0x80, 0x86], [0xe2, 0x80, 0x87], [0xe2, 0x80, 0x88], [0xe2, 0x80, 0x89], [0xe2, 0x80, 0x8a],
    [0xe2, 0x80, 0xa8], [0xe2, 0x80, 0xa9], [0xe2, 0x80, 0xaf], [0xe2, 0x81, 0x9f], [0xe3, 0x80, 0x80]]

/-- Takes texts off the front as long as there are any; as much fuel as there are bytes is enough. -/
def trimLeft (texts : List Str) : ℕ → Str → Str
  | 0, s => s
  | fuel + 1, s =>
    match texts.find? fun text => hasPrefix s text with
    | some text => trimLeft texts fuel (s.drop text.length)
    | none => s

def trimSpace (s : Str) : Str :=
  let s := trimLeft spaces s.length s
  (trimLeft (spaces.map List.reverse) s.length s.reverse).reverse

def urlStringTrim (s : Str) : Str := [44].intercalate (((s.splitOn 44).map trimSpace).filter (· ≠ []))

/-- The errors of `NewURL`, with what their texts are made of. -/
inductive NewURLError where
  | queryUnescape (urlString : Str) (e : Err)
  | parse (rawURLString : Str) (e : Err)
  | parseQuery (rawQuery : Str) (e : Err)
  | splitHostPort (location : Str) (e : Err)

namespace ServiceURL

/-- `URL{}`. -/
def zero : ServiceURL where
  protocol := []
  username := []
  password := []
  location := []
  ip := []
  port := []
  path := []
  params := .empty
  methods := []
  primitiveTS := []
  subURL := none
  matchCondition := none

end ServiceURL

/-- The loop over the locations: address and port of the first one that has a port. -/
def firstAddress : List Str → Except Err (Str × Str)
  | [] => .ok ([], [])
  | location :: locations =>
    if 58 ∈ trimBlanks location then splitHostPort (trimBlanks location) else firstAddress locations

def ofParsed (url : Parsed) : Except NewURLError ServiceURL :=
  match parseQuery url.rawQuery with
  | (_, some e) => .error (.parseQuery url.rawQuery e)
  | (params, none) =>
    match firstAddress (url.host.splitOn 44) with
    | .error e => .error (.splitHostPort url.host e)
    | .ok (ip, port) =>
      .ok
        { ServiceURL.zero with
          protocol := url.scheme
          username := url.username
          password := url.password
          location := url.host
          ip := ip
          port := port
          path := url.path
          params := params
          primitiveTS := params.get timestampKey }

def newURL (urlString : Str) (opts : List (ServiceURL → ServiceURL)) : Except NewURLError ServiceURL :=
  if urlString = [] then .ok .zero
  else
    let urlString := urlStringTrim urlString
    match queryUnescape urlString with
    | .error e => .error (.queryUnescape urlString e)
    | .ok raw =>
      let t := opts.foldl (fun t opt => opt t) .zero
      let raw := if (cut (str "//") raw).isSome then raw else t.protocol ++ str "://" ++ raw
      match parseURL raw with
      | .error e => .error (.parse raw e)
      | .ok url => (ofParsed url).map fun s => opts.foldl (fun s opt => opt s) s

/-! ## Escaped texts -/

section Trim

variable {p : UInt8 → Bool} {texts : List Str}

theorem trimLeft_cons {c : UInt8} (hc : p c = true)
    (htexts : ∀ text ∈ texts, text ≠ [] ∧ p (text.headD 0) = false) (s : Str) (fuel : ℕ) :
    trimLeft texts fuel (c :: s) = c :: s := by
  cases fuel with
  | zero => rfl
  | succ fuel =>
    have hnone : (texts.find? fun text => hasPrefix (c :: s) text) = none := by
      refine find?_eq_none.2 fun text htext hbegins => ?_
      obtain ⟨hne, hhead⟩ := htexts text htext
      obtain ⟨x, rest, rfl⟩ := exists_cons_of_ne_nil hne
      obtain ⟨rfl, -⟩ := cons_prefix_cons.1 (List.isPrefixOf_iff_prefix.1 hbegins)
      cases hc.symm.trans hhead
    rw [trimLeft, hnone]

theorem trimSpace_of_all {s : Str} (hs : ∀ c ∈ s, p c = true)
    (hspaces : ∀ texts ∈ [spaces, spaces.map reverse], ∀ text ∈ texts,
      text ≠ [] ∧ p (text.headD 0) = false) : trimSpace s = s := by
  have htrim : ∀ texts ∈ [spaces, spaces.map reverse], ∀ s : Str, (∀ c ∈ s, p c = true) →
      trimLeft texts s.length s = s := by
    intro texts htexts s hs
    cases s with
    | nil => rfl
    | cons c s => exact trimLeft_cons (hs c mem_cons_self) (hspaces texts htexts) s _
  have hreverse : ∀ c ∈ s.reverse, p c = true := fun c hc => hs c (mem_reverse.1 hc)
  unfold trimSpace
  rw [htrim spaces (by simp) s hs]
  dsimp only
  rw [← length_reverse, htrim (spaces.map reverse) (by simp) _ hreverse, reverse_reverse]

end Trim

theorem trimSpace_of_escaped {s : Str} (hs : ∀ c ∈ s, isEscapedByte c = true) : trimSpace s = s :=
  trimSpace_of_all hs (by decide +kernel)

theorem splitOn_of_notMem {c : UInt8} {s : Str} (hc : c ∉ s) : s.splitOn c = [s] := by
  have hsplit : ([c].intercalate [s]).splitOn c = [s] :=
    splitOn_intercalate c (by simpa using hc) (cons_ne_nil s [])
  simpa [intercalate] using hsplit

theorem queryEscape_ne_nil {s : Str} (hs : s ≠ []) : queryEscape s ≠ [] := by
  intro hnil
  have hunescape := queryUnescape_queryEscape s
  rw [hnil] at hunescape
  exact hs (Except.ok.inj hunescape).symm

theorem urlStringTrim_queryEscape {s : Str} (hs : s ≠ []) : urlStringTrim (queryEscape s) = queryEscape s := by
  have hescaped : ∀ c ∈ queryEscape s, isEscapedByte c = true := fun c hc => isEscapedByte_of_mem hc
  unfold urlStringTrim
  rw [splitOn_of_notMem (notMem_of_all hescaped rfl), map_singleton, trimSpace_of_escaped hescaped]
  simp [intercalate, queryEscape_ne_nil hs]

/-- A URL that was escaped as a whole is parsed as the URL itself. -/
theorem newURL_queryEscape {raw : Str} (hslashes : (cut (str "//") raw).isSome = true) :
    newURL (queryEscape raw) [] =
      match parseURL raw with
      | .error e => .error (.parse raw e)
      | .ok url => ofParsed url := by
  have hraw : raw ≠ [] := by
    rintro rfl
    cases hslashes
  unfold newURL
  rw [if_neg (queryEscape_ne_nil hraw)]
  dsimp only
  rw [urlStringTrim_queryEscape hraw, queryUnescape_queryEscape]
  dsimp only
  rw [if_pos hslashes]
  cases parseURL raw with
  | error e => rfl
  | ok url => cases hof : ofParsed url <;> simp [hof, Except.map]

/-! ## Plain addresses -/

theorem trimBlanks_of_notMem {s : Str} (hs : 32 ∉ s) : trimBlanks s = s := by
  have hdrop : ∀ s : Str, 32 ∉ s → s.dropWhile (· = 32) = s := by
    intro s hs
    cases s with
    | nil => rfl
    | cons c s =>
      simpa using fun heq : c = 32 => hs (heq ▸ mem_cons_self)
  rw [trimBlanks, hdrop s hs, hdrop s.reverse (by simpa using hs), reverse_reverse]

/-- A plain address is one address, with its port. -/
theorem firstAddress_of_plain {ip port : Str} (h : PlainAddress ip port) :
    firstAddress ((ip ++ 58 :: port).splitOn 44) = .ok (ip, port) := by
  have hblank : trimBlanks (ip ++ 58 :: port) = ip ++ 58 :: port :=
    trimBlanks_of_notMem (h.notMem rfl rfl (by decide))
  rw [splitOn_of_notMem (h.notMem rfl rfl (by decide)), firstAddress, hblank, if_pos (by simp),
    splitHostPort_of_plain h]

end DubboGo.Common
