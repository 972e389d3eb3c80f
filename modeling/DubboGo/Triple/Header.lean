import DubboGo.Go.Base64

/-!
# HTTP headers

`http.Header` is a Go map from names to lists of values, modelled as the partial function it is.
The functions are those of `header.go`: they look names up as they stand, since the protocol's own
names are already in canonical form.
-/

namespace DubboGo.Triple

open Go

abbrev Header := Str → Option (List Str)

namespace Header

/-- `make(http.Header)`. -/
def empty : Header := fun _ => none

def values (h : Header) (key : Str) : List Str := (h key).getD []

end Header

/-- `mergeHeaders(into, from)`: the values of `from` are appended to those of `into`. -/
def mergeHeaders (into from' : Header) : Header := fun k =>
  match from' k with
  | none => into k
  | some vals => some (into.values k ++ vals)

/-- `getHeaderCanonical`: the first value, or the empty string. -/
def getHeaderCanonical (h : Header) (key : Str) : Str := (h.values key).headD []

def setHeaderCanonical (h : Header) (key value : Str) : Header :=
  Function.update h key (some [value])

/-- `EncodeBinaryHeader`: unpadded base64. -/
def encodeBinaryHeader (data : Str) : Str := Base64.rawEncode data

/-- `DecodeBinaryHeader`: padded or unpadded base64. -/
def decodeBinaryHeader (data : Str) : Option Str :=
  if data.length % 4 ≠ 0 then Base64.rawDecode data else Base64.stdDecode data

/-- Binary headers are read back. -/
theorem decodeBinaryHeader_encodeBinaryHeader (data : Str) :
    decodeBinaryHeader (encodeBinaryHeader data) = some data := by
  unfold decodeBinaryHeader encodeBinaryHeader
  split_ifs with h
  · exact Base64.rawDecode_rawEncode data
  · exact Base64.stdDecode_rawEncode (not_not.1 h)

theorem encodeBinaryHeader_eq_nil_iff (data : Str) : encodeBinaryHeader data = [] ↔ data = [] := by
  constructor
  · intro h
    have := decodeBinaryHeader_encodeBinaryHeader data
    rw [h] at this
    exact (Option.some.inj this).symm
  · rintro rfl
    rfl

@[simp] theorem getHeaderCanonical_set_self (h : Header) (key value : Str) :
    getHeaderCanonical (setHeaderCanonical h key value) key = value := by
  simp [getHeaderCanonical, setHeaderCanonical, Header.values]

theorem getHeaderCanonical_set_of_ne {h : Header} {key key' : Str} (value : Str) (hne : key' ≠ key) :
    getHeaderCanonical (setHeaderCanonical h key value) key' = getHeaderCanonical h key' := by
  simp [getHeaderCanonical, setHeaderCanonical, Header.values, Function.update_of_ne hne]

end DubboGo.Triple
