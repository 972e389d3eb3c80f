import DubboGo.Router.Matcher

/-!
# The texts of condition rules

The parser of `cluster/router/condition/route.go`: a rule `when => then` is scanned with the pattern
`([&!=,]*)\s*([^&!=,\s]+)`, and the pairs of separator and content build the matchers.
-/

namespace DubboGo.Router.Condition

open Go

/-- The bytes `&`, `!`, `=` and `,`. -/
def isSeparator (c : UInt8) : Bool := c = 38 ∨ c = 33 ∨ c = 61 ∨ c = 44

def isContent (c : UInt8) : Bool := !isSeparator c && !isRegexpSpace c

/-- The match of the pattern at the beginning of the text, with what follows it.  Every part takes
as much as it can; taking less never helps, since the parts have no bytes in common. -/
def scanPair (s : Str) : Option ((Str × Str) × Str) :=
  let afterSpace := (s.dropWhile isSeparator).dropWhile isRegexpSpace
  if afterSpace.takeWhile isContent = [] then none
  else some ((s.takeWhile isSeparator, afterSpace.takeWhile isContent), afterSpace.dropWhile isContent)

/-- The matches in a text of at most `fuel` bytes. -/
def scanLoop : (fuel : ℕ) → Str → List (Str × Str)
  | 0, _ => []
  | fuel + 1, s =>
    match scanPair s, s with
    | some (pair, rest), _ => pair :: scanLoop fuel rest
    | none, [] => []
    | none, _ :: rest => scanLoop fuel rest

/-- `routePattern.FindAllStringSubmatch(rule, -1)`: the pairs of separator and content. -/
def scan (rule : Str) : List (Str × Str) := scanLoop rule.length rule

/-- The text of `illegalMsg`. -/
def illegalMsg (rule separator content : Str) : Str :=
  str "Illegal route rule \"" ++ rule ++ str "\", The error char '" ++ separator ++
    str "' before '" ++ content ++ str "'"

/-- The variables of `processMatchers`. -/
structure Parse where
  /-- All matchers that have been made. -/
  matchers : List Matcher
  /-- The map of conditions; a key stands at most once. -/
  condition : List (Str × ℕ)
  currentMatcher : Option ℕ
  /-- The set of patterns that a comma extends: that of a matcher, for matches or mismatches. -/
  values : Option (ℕ × Bool)

namespace Parse

def start : Parse := ⟨[], [], none, none⟩

variable (p : Parse)

/-- `condition[content] = getMatcher(content)`. -/
def newMatcher (content : Str) : Parse :=
  let i := p.matchers.length
  { p with
    matchers := p.matchers ++ [getMatcher content]
    condition :=
      if p.condition.any fun e => e.1 = content then
        p.condition.map fun e => if e.1 = content then (content, i) else e
      else p.condition ++ [(content, i)]
    currentMatcher := some i }

/-- `values[content] = struct{}{}` for the patterns of the matcher. -/
def addValue (i : ℕ) (mismatch : Bool) (content : Str) : Parse :=
  { p with
    matchers := p.matchers.modify i fun m =>
      if mismatch then { m with misMatched := m.misMatched.insert content }
      else { m with matched := m.matched.insert content }
    values := some (i, mismatch) }

/-- The body of the loop of `processMatchers`. -/
def process (rule : Str) (pair : Str × Str) : Except Str Parse :=
  let (separator, content) := pair
  if separator = [] then .ok (p.newMatcher content)
  else if separator = str "&" then
    match p.condition.find? fun e => e.1 = content with
    | some (_, i) => .ok { p with currentMatcher := some i }
    | none => .ok (p.newMatcher content)
  else if separator = str "=" ∨ separator = str "!=" then
    match p.currentMatcher with
    | some i => .ok (p.addValue i (separator = str "!=") content)
    | none => .error (illegalMsg rule separator content)
  else if separator = str "," then
    match p.values with
    | some (i, mismatch) => .ok (p.addValue i mismatch content)
    | none => .error (illegalMsg rule separator content)
  else .error (illegalMsg rule separator content)

def conditions : List Matcher := p.condition.filterMap fun e => p.matchers[e.2]?

end Parse

def processMatchers (rule : Str) : Except Str (List Matcher) := do
  let p ← (scan rule).foldlM (fun p pair => p.process rule pair) Parse.start
  return p.conditions

def parseRule (rule : Str) : Except Str (List Matcher) :=
  if rule = [] ∨ rule = str " " then .ok [] else processMatchers rule

def parseWhen (whenRule : Str) : Except Str (List Matcher) :=
  if whenRule = [] ∨ whenRule = str " " ∨ whenRule = str "true" then .ok [] else parseRule whenRule

def parseThen (thenRule : Str) : Except Str (List Matcher) :=
  if thenRule = [] ∨ thenRule = str " " ∨ thenRule = str "false" then .ok []
  else parseRule thenRule

structure StateRouter where
  whenCondition : List Matcher
  thenCondition : List Matcher
  deriving DecidableEq

/-- `NewConditionStateRouter` for the rule in the URL. -/
def newConditionStateRouter (rule : Str) : Except Str StateRouter :=
  if rule = [] ∨ trimBlanks rule = [] then .error (str "illegal route rule")
  else do
    let rule := removeAll (removeAll rule (str "consumer.")) (str "provider.")
    let (whenRule, thenRule) :=
      match cut (str "=>") rule with
      | none => ([], trimBlanks rule)
      | some (before, after) => (trimBlanks before, trimBlanks after)
    let whenCondition ← parseWhen whenRule
    let thenCondition ← parseThen thenRule
    return ⟨whenCondition, thenCondition⟩

/-- A rule with both parts, wildcards and alternatives. -/
example : newConditionStateRouter (str "method=find*, list & arguments[0] != a => region = $region") =
    .ok ⟨[⟨.param, str "method", [str "list", str "find*"], []⟩,
        ⟨.argument, str "arguments[0]", [], [str "a"]⟩],
      [⟨.param, str "region", [str "$region"], []⟩]⟩ := by decide +kernel

structure FieldMatcher where
  rule : Str
  conditions : List Matcher
  deriving DecidableEq

def newFieldMatcher (rule : Str) : Except Str FieldMatcher := do
  let conditions ← parseRule rule
  return ⟨rule, conditions⟩

structure CondSet where
  matcher : FieldMatcher
  subSetWeight : ℤ
  deriving DecidableEq

def defaultRouteConditionSubSetWeight : ℤ := 100

def newCondSet (rule : Str) (subSetWeight : ℤ) : Except Str CondSet := do
  let m ← newFieldMatcher rule
  return ⟨m, if subSetWeight ≤ 0 then defaultRouteConditionSubSetWeight else subSetWeight⟩

structure MultiDestRouter where
  whenCondition : FieldMatcher
  thenCondition : List CondSet
  deriving DecidableEq

structure ConditionRule where
  fromMatch : Str
  toSets : List (Str × ℤ)
  deriving DecidableEq

/-- `NewConditionMultiDestRouter`; there is no router for a rule without any condition. -/
def newConditionMultiDestRouter (condConf : ConditionRule) : Except Str (Option MultiDestRouter) := do
  if condConf.toSets.length = 0 ∧ condConf.fromMatch = [] then return none
  let whenCondition ← newFieldMatcher condConf.fromMatch
  let thenCondition ← condConf.toSets.mapM fun ruleTo => newCondSet ruleTo.1 ruleTo.2
  return some ⟨whenCondition, thenCondition⟩

theorem subSetWeight_pos {rule : Str} {wt : ℤ} {cs : CondSet}
    (h : newCondSet rule wt = .ok cs) : 0 < cs.subSetWeight := by
  obtain ⟨m, -, h⟩ := bind_eq_ok h
  obtain rfl := Except.ok.inj h
  dsimp only
  split_ifs with hw
  · decide
  · omega

/-! ## Versions

`cluster/utils/version.go`: versions like `v3.1`, which decide how a rule text is read. -/

abbrev Version := List ℤ

def splitStops : Str → List Str
  | [] => [[]]
  | c :: s =>
    match splitStops s with
    | part :: parts => if c = 46 then [] :: part :: parts else (c :: part) :: parts
    | [] => [[c]]

/-- `ParseVersion`: the letter and numbers with full stops between them. -/
def parseVersion (s : Str) : Option Version :=
  match s with
  | c :: rest =>
    if (c = 86 ∨ c = 118) ∧
        (splitStops rest).all fun part => part ≠ [] ∧ part.all fun d => 48 ≤ d ∧ d ≤ 57 then
      (splitStops rest).mapM fun part => (parseInt part 10 64).toOption
    else none
  | [] => none

/-- The version `v3.1`. -/
def v31 : Version := [3, 1]

/-- `compareVersions`, where missing numbers are zeros and the longer one of two versions with the
same numbers is the greater. -/
def compareVersions : Version → Version → Ordering
  | [], [] => .eq
  | x :: v, [] => if 0 < x then .gt else if x < 0 then .lt else (compareVersions v []).then .gt
  | [], y :: w => if 0 < y then .lt else if y < 0 then .gt else (compareVersions [] w).then .lt
  | x :: v, y :: w => if y < x then .gt else if x < y then .lt else compareVersions v w

example : parseVersion (str "v3.1") = some v31 := by decide +kernel

end DubboGo.Router.Condition
