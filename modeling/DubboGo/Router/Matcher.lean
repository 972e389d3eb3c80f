import DubboGo.Common.URL
import DubboGo.Protocol.Invocation

/-!
# The matchers of condition rules

`cluster/router/condition/matcher`: a matcher takes a value from the request and compares it with
patterns.  The value of an argument or of an attachment is read from the invocation, which is nil
when a condition for providers is evaluated.
-/

namespace DubboGo.Router.Condition

open Go Common Protocol

def argumentsName : Str := str "arguments"
def attachmentsName : Str := str "attachments"
def methodKey : Str := str "method"
inductive Kind where
  | argument
  | attachment
  | param
  deriving DecidableEq, Repr

/-- `BaseConditionMatcher` with the type that embeds it.  The patterns are sets. -/
structure Matcher where
  kind : Kind
  key : Str
  matched : List Str
  misMatched : List Str
  deriving DecidableEq

/-- `getMatcher`: the factories are asked in the order of their priorities. -/
def getMatcher (key : Str) : Matcher :=
  if hasPrefix key attachmentsName then ⟨.attachment, key, [], []⟩
  else if hasPrefix key argumentsName then ⟨.argument, key, [], []⟩
  else ⟨.param, key, [], []⟩

/-! ## Patterns for values -/

def atoi (s : Str) : Option ℤ := (parseInt s 10 64).toOption

def matchRange (intValue : ℤ) (rawStart rawEnd : Str) (defaultValue : Bool) : Bool :=
  if rawStart = [] then
    match atoi rawEnd with
    | none => defaultValue
    | some stop => intValue ≤ stop
  else if rawEnd = [] then
    match atoi rawStart with
    | none => defaultValue
    | some start => start ≤ intValue
  else
    match atoi rawStart, atoi rawEnd with
    | some start, some stop => start ≤ intValue ∧ intValue ≤ stop
    | _, _ => defaultValue

/-- `ScopeValuePattern.Match`, for a pattern with a tilde. -/
def scopeMatch (pattern value : Str) (isWhenCondition : Bool) : Bool :=
  let defaultValue := !isWhenCondition
  match atoi value, cut (str "~") pattern with
  | some intValue, some (rawStart, rest) =>
    let rawEnd := ((cut (str "~") rest).map Prod.fst).getD rest
    if rawStart = [] ∧ rawEnd = [] then defaultValue
    else matchRange intValue rawStart rawEnd defaultValue
  | _, _ => defaultValue

/-- `WildcardValuePattern.Match`. -/
def wildcardMatch (pattern value : Str) (url : Option URL) : Bool :=
  let pattern :=
    match url, pattern with
    | some url, 36 :: key => url.getRawParam key
    | _, _ => pattern
  if pattern = str "*" then true
  else if pattern = [] ∧ value = [] then true
  else if pattern = [] ∨ value = [] then false
  else
    match lastIndex 42 pattern with
    | none => value = pattern
    | some i =>
      if i = pattern.length - 1 then hasPrefix value (pattern.take i)
      else if i = 0 then hasSuffix value (pattern.drop 1)
      else hasPrefix value (pattern.take i) && hasSuffix value (pattern.drop (i + 1))

def doPatternMatch (pattern value : Str) (url : Option URL) (isWhenCondition : Bool) : Bool :=
  if 126 ∈ pattern then scopeMatch pattern value isWhenCondition
  else wildcardMatch pattern value url

/-! ## Values of the request -/

/-- The bytes between the brackets in the first `name[…]` of the text, for brackets around at least
one of the bytes and nothing else. -/
def bracketed (name : Str) (allowed : UInt8 → Bool) : Str → Option Str
  | [] => none
  | c :: s =>
    let rest := (c :: s).drop (name.length + 1)
    if hasPrefix (c :: s) (name ++ str "[") ∧ rest.takeWhile allowed ≠ [] ∧
        (rest.dropWhile allowed).head? = some 93 then some (rest.takeWhile allowed)
    else bracketed name allowed s

def isDigit (c : UInt8) : Bool := 48 ≤ c ∧ c ≤ 57

def isWordByte (c : UInt8) : Bool := isDigit c ∨ (65 ≤ c ∧ c ≤ 90) ∨ (97 ≤ c ∧ c ≤ 122) ∨ c = 95

namespace Matcher

variable (m : Matcher)

/-- The key up to the first `\.`. -/
def express : Str := ((cut (str "\\.") m.key).map Prod.fst).getD m.key

def argumentIndex : Option ℤ := (bracketed argumentsName isDigit m.express).bind atoi

def attachmentKey : Option Str := bracketed attachmentsName isWordByte m.express

/-- `GetValue` of the three types of matchers, where the sample is that of the URL. -/
def getValue (sample : URL) (invocation : Option RPCInvocation) : Except RuntimeError Str :=
  match m.kind with
  | .argument =>
    match m.argumentIndex, invocation with
    | none, _ => .ok []
    | some _, none => .error .nilPointer
    | some index, some invocation =>
      if index < 0 ∨ invocation.arguments.length < index then .ok []
      else
        match invocation.arguments[index.toNat]? with
        | some value => .ok value
        | none => .error .indexOutOfRange
  | .attachment =>
    match m.attachmentKey, invocation with
    | none, _ => .ok []
    | some _, none => .error .nilPointer
    | some key, some invocation => .ok ((invocation.getAttachment key).getD [])
  | .param =>
    match invocation with
    | some invocation =>
      if m.key = methodKey ∨ m.key = methodsKey then .ok invocation.methodName
      else .ok (sample.toMap m.key)
    | none => .ok (sample.toMap m.key)

def isMatch (value : Str) (param : Option URL) (isWhenCondition : Bool) : Bool :=
  let patternMatches := m.matched.any fun p => doPatternMatch p value param isWhenCondition
  let patternMisMatches := !m.misMatched.any fun p => doPatternMatch p value param isWhenCondition
  if value = [] then false
  else if m.matched ≠ [] ∧ m.misMatched = [] then patternMatches
  else if m.misMatched ≠ [] ∧ m.matched = [] then patternMisMatches
  else if m.matched ≠ [] ∧ m.misMatched ≠ [] then patternMisMatches && patternMatches
  else false

/-- `Match`. -/
def satisfies (sample : URL) (param : Option URL) (invocation : Option RPCInvocation)
    (isWhenCondition : Bool) : Except RuntimeError Bool := do
  let value ← m.getValue sample invocation
  return m.isMatch value param isWhenCondition

end Matcher

/-- `doMatch`.  The conditions are in the order in which the range over the map visits them. -/
def doMatch (url : URL) (param : Option URL) (invocation : Option RPCInvocation)
    (isWhenCondition : Bool) : List Matcher → Except RuntimeError Bool
  | [] => .ok true
  | m :: conditions => do
    if ← m.satisfies url param invocation isWhenCondition then
      doMatch url param invocation isWhenCondition conditions
    else return false

/-! ## Requests without a panic -/

namespace Matcher

variable (m : Matcher)

/-- The matcher can be asked about the request: it does not read the argument just after the last
one, which the check of the index lets through. -/
def SafeWhen (invocation : RPCInvocation) : Prop :=
  m.kind = .argument → m.argumentIndex ≠ some (invocation.arguments.length : ℤ)

def SafeThen : Prop :=
  (m.kind = .argument → m.argumentIndex = none) ∧ (m.kind = .attachment → m.attachmentKey = none)

def Safe : Option RPCInvocation → Prop
  | some invocation => m.SafeWhen invocation
  | none => m.SafeThen

theorem getValue_ok_iff (sample : URL) (invocation : Option RPCInvocation) :
    (∃ value, m.getValue sample invocation = .ok value) ↔ m.Safe invocation := by
  unfold getValue Safe SafeWhen SafeThen
  cases hk : m.kind with
  | argument =>
    cases hi : m.argumentIndex with
    | none => cases invocation <;> simp
    | some index =>
      cases invocation with
      | none => simp
      | some invocation =>
        dsimp only
        by_cases hout : index < 0 ∨ (invocation.arguments.length : ℤ) < index
        · rw [if_pos hout]
          simp
          omega
        · rw [if_neg hout]
          by_cases hlast : index = invocation.arguments.length
          · simp [hlast]
          · have hlt : index.toNat < invocation.arguments.length := by omega
            simp [List.getElem?_eq_getElem hlt, hlast]
  | attachment =>
    cases ha : m.attachmentKey <;> cases invocation <;> simp
  | param =>
    cases invocation with
    | none => simp
    | some invocation =>
      split_ifs <;> simp

end Matcher

def Matcher.holds (m : Matcher) (url : URL) (param : Option URL)
    (invocation : Option RPCInvocation) (isWhenCondition : Bool) : Bool :=
  match m.satisfies url param invocation isWhenCondition with
  | .ok b => b
  | .error _ => false

theorem Matcher.satisfies_of_safe {m : Matcher} {inv : Option RPCInvocation}
    (h : m.Safe inv) (url : URL) (param : Option URL) (isWhen : Bool) : m.satisfies url param inv isWhen =
      .ok (m.holds url param inv isWhen) := by
  obtain ⟨value, hv⟩ := (m.getValue_ok_iff url inv).2 h
  simp [holds, satisfies, hv, bind, Except.bind, pure, Except.pure]

theorem Matcher.satisfies_of_not_safe {m : Matcher} {inv : Option RPCInvocation} (h : ¬m.Safe inv) (url : URL)
    (param : Option URL) (isWhen : Bool) : ∃ e, m.satisfies url param inv isWhen = .error e := by
  cases hvalue : m.getValue url inv with
  | ok value => exact absurd ((m.getValue_ok_iff url inv).1 ⟨value, hvalue⟩) h
  | error e => exact ⟨e, by simp [satisfies, hvalue, bind, Except.bind]⟩

theorem doMatch_ok {conds : List Matcher} {inv : Option RPCInvocation}
    (h : ∀ m ∈ conds, m.Safe inv) (url : URL) (param : Option URL) (isWhen : Bool) :
    doMatch url param inv isWhen conds = .ok (conds.all fun m => m.holds url param inv isWhen) := by
  induction conds with
  | nil => rfl
  | cons m conds ih =>
    rw [doMatch, Matcher.satisfies_of_safe (h m List.mem_cons_self), ih fun q hq => h q (List.mem_cons_of_mem m hq)]
    cases hm : m.holds url param inv isWhen <;>
      simp [hm, bind, Except.bind, pure, Except.pure]

/-! ## Wildcards -/

section Wildcard

variable {pattern before after v : Str} (hv : v ≠ [])

theorem wildcardMatch_of_not_dollar (hdollar : pattern.head? ≠ some 36) (url : Option URL) :
    wildcardMatch pattern v url = wildcardMatch pattern v none := by
  cases url with
  | none => rfl
  | some url =>
    unfold wildcardMatch
    split
    · simp at hdollar
    · rfl

include hv

theorem wildcardMatch_without_star (hstar : 42 ∉ pattern) : wildcardMatch pattern v none = decide (v = pattern) := by
  have hne : pattern ≠ str "*" := by
    rintro rfl
    exact hstar (by decide)
  by_cases hempty : pattern = []
  · simp [wildcardMatch, hempty, hv, show ([] : Str) ≠ str "*" by decide]
  · simp [wildcardMatch, hne, hempty, hv, lastIndex_eq_none_iff.2 hstar]

theorem wildcardMatch_with_star (hstar : 42 ∉ after) :
    wildcardMatch (before ++ 42 :: after) v none = true ↔ before <+: v ∧ after <:+ v := by
  have hindex := lastIndex_append before hstar
  have hlast : before.length = (before ++ 42 :: after).length - 1 ↔ after = [] := by
    simp
  have hall : before ++ 42 :: after = str "*" ↔ before = [] ∧ after = [] := by
    cases before <;> cases after <;> simp [show str "*" = [42] from rfl]
  unfold wildcardMatch
  simp only [hindex, hall, hlast]
  by_cases hbefore : before = [] <;> by_cases hafter : after = [] <;> simp [hbefore, hafter, hv, hasPrefix, hasSuffix]

/-- A pattern with one star matches a value as a glob exactly if its two sides do not overlap in the value; a pattern
without a star matches itself only. -/
theorem wildcardMatch_is_glob (url : Option URL) :
    (∀ before after, 42 ∉ after → (before ++ 42 :: after).head? ≠ some 36 →
      ((wildcardMatch (before ++ 42 :: after) v url = true ↔ ∃ m, v = before ++ m ++ after) ↔
        (before <+: v → after <:+ v → before.length + after.length ≤ v.length))) ∧
      ∀ pattern, 42 ∉ pattern → pattern.head? ≠ some 36 → (wildcardMatch pattern v url = true ↔ v = pattern) := by
  refine ⟨fun before after hstar hdollar => ?_, fun pattern hstar hdollar => ?_⟩
  · rw [wildcardMatch_of_not_dollar hdollar, wildcardMatch_with_star hv hstar]
    constructor
    · intro hglob hbefore hafter
      obtain ⟨m, rfl⟩ := hglob.1 ⟨hbefore, hafter⟩
      simp only [List.length_append]
      omega
    · refine fun hfit => ⟨?_, ?_⟩
      · rintro ⟨⟨rest, rfl⟩, hafter⟩
        have hlength := hfit ⟨rest, rfl⟩ hafter
        obtain ⟨m, rfl⟩ : after <:+ rest := by
          refine List.suffix_of_suffix_length_le hafter (List.suffix_append _ _) ?_
          simp only [List.length_append] at hlength
          omega
        exact ⟨m, (List.append_assoc _ _ _).symm⟩
      · rintro ⟨m, rfl⟩
        exact ⟨⟨m ++ after, (List.append_assoc _ _ _).symm⟩, List.suffix_append _ _⟩
  · rw [wildcardMatch_of_not_dollar hdollar, wildcardMatch_without_star hv hstar, decide_eq_true_iff]

end Wildcard

theorem wildcardMatch_is_glob_find : wildcardMatch (str "find*Id") (str "findUserId") none = true ∧
    (wildcardMatch (str "find*Id") (str "findUserId") none = true ↔
      ∃ m, str "findUserId" = str "find" ++ m ++ str "Id") ∧
    (wildcardMatch (str "list") (str "list") none = true ↔ str "list" = str "list") := by
  have hglob := wildcardMatch_is_glob (v := str "findUserId") (by decide) none
  have hplain := wildcardMatch_is_glob (v := str "list") (by decide) none
  exact ⟨by decide, (hglob.1 (str "find") (str "Id") (by decide) (by decide)).2 fun _ _ => by decide,
    hplain.2 (str "list") (by decide) (by decide)⟩

/-- The two sides of the pattern overlap in the value. -/
theorem wildcardMatch_overlaps : wildcardMatch (str "ab*ba") (str "aba") none = true ∧
    ¬∃ m, str "aba" = str "ab" ++ m ++ str "ba" := by
  refine ⟨by decide, ?_⟩
  rintro ⟨m, h⟩
  have hlength := congrArg List.length h
  rw [List.length_append, List.length_append] at hlength
  change 3 = 2 + m.length + 2 at hlength
  omega

end DubboGo.Router.Condition
