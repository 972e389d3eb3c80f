import DubboGo.Common.URL

/-!
# Match rules for parameters

`StringMatch` and `ParamMatch` of `common/match.go`.  What `regexp.MatchString` answers is a
parameter.
-/

namespace DubboGo.Common

open Go

def anyValue : Str := str "*"
def anyHostValue : Str := str "0.0.0.0"
def keySeparator : Str := str ":"

/-- The matches of `regexp.MatchString`; an invalid expression matches nothing. -/
abbrev Regexp := (pattern value : Str) → Bool

/-- `StringMatch`; the first of its fields that is set decides. -/
structure StringMatch where
  exact : Str
  valuePrefix : Str
  regex : Str
  noempty : Str
  empty : Str
  wildcard : Str
  deriving DecidableEq

def StringMatch.isMatch (matchString : Regexp) (p : StringMatch) (value : Str) : Bool :=
  if p.exact ≠ [] then p.exact = value
  else if p.valuePrefix ≠ [] then hasPrefix value p.valuePrefix
  else if p.regex ≠ [] then matchString p.regex value
  else if p.wildcard ≠ [] then value = p.wildcard ∨ anyValue = p.wildcard
  else if p.empty ≠ [] then value = []
  else if p.noempty ≠ [] then value ≠ []
  else false

structure ParamMatch where
  key : Str
  value : StringMatch
  deriving DecidableEq

def ParamMatch.isMatch (matchString : Regexp) (p : ParamMatch) (url : URL) : Bool :=
  p.value.isMatch matchString (url.getParam p.key [])

end DubboGo.Common
