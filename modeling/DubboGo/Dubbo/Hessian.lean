import DubboGo.Go.Panic
import DubboGo.Go.Text
import DubboGo.Lib.FiniteMap

/-!
# Values and the hessian library

The Go values that the Dubbo codec sends and receives, with as much of their dynamic types as the codec looks at, and
the hessian library, whose encoders and decoders have a state (they refer back to classes and values).
-/

namespace DubboGo.Dubbo

open Go Lib List

/-- The dynamic type of a value that is not `nil`, a string, a list of strings, an `int32` or a map with keys of
any type.  Enumerations, parameters and POJOs give their names themselves. -/
inductive GoType where
  | bool | bools | byte | bytes | int8 | int8s | int16 | int16s | uint16 | uint16s | int | ints | int32s
  | int64 | int64s | time | times | float32 | float32s | float64 | float64s
  /-- `[]hessian.Object`. -/
  | objects
  /-- `hessian.POJOEnum`. -/
  | enum (javaClassName : Str)
  | int8Pointer | int16Pointer | uint16Pointer | intPointer | int32Pointer | int64Pointer | float32Pointer
  | float64Pointer
  /-- Any other pointer, with its names if it is a `hessian.Param` or a `hessian.POJO`. -/
  | pointer (javaParamName javaClassName : Option Str)
  /-- A struct, likewise. -/
  | struct (javaParamName javaClassName : Option Str)
  /-- Any other slice or array. -/
  | slice (ofStructs : Bool)
  /-- Any other map. -/
  | map
  | other

/-- A Go value of type `any`.  Of what the codec does not look into there is an object of type `ο`. -/
inductive Value (ο : Type) where
  | nil
  | string (s : Str)
  | strings (l : List Str)
  | int32 (n : Int32)
  | map (entries : List (Value ο × Value ο))
  | other (type : GoType) (object : ο)

/-- The value of type `error` that a call has failed with. -/
inductive Exception (ο : Type) where
  /-- `hessian.GenericException`. -/
  | generic (exceptionClass exceptionMessage : Str)
  /-- `java_exception.Throwabler`. -/
  | throwable (value : Value ο)
  /-- Another error that has been decoded. -/
  | value (value : Value ο)
  | message (text : Str)

inductive Err (ο : Type) where
  | headerNotEnough
  | bodyNotEnough
  | illegalPackage
  /-- `get wrong attachments: …`. -/
  | wrongAttachments (attachments : Value ο)
  /-- `cat not get arg … type`. -/
  | unknownType (argument : Value ο)
  /-- ` PackRequest(args:…): …`. -/
  | packRequest (arguments : List (Value ο)) (e : Err ο)
  /-- `failed to encode …: …`. -/
  | encoding (description : Str) (e : Err ο)
  /-- `failed to encode argument: …: …`. -/
  | encodingArgument (argument : Value ο) (e : Err ο)
  | message (text : Str)

/-- The error at the end of the chain that `errors.Is` goes through. -/
def Err.root {ο : Type} : Err ο → Err ο
  | .packRequest _ e | .encoding _ e | .encodingArgument _ e => e.root
  | e => e

inductive Panic where
  | typeAssertion
  | nilPointer
  | serializerNotFound
  /-- A value cannot be stored in the reply. -/
  | reflection
  deriving DecidableEq

inductive Fault (ο : Type) where
  | panic (p : Panic)
  | error (e : Err ο)

/-- What is written: a value, or attachments, which are a map with strings as keys. -/
inductive Item (ο : Type) where
  | value (v : Value ο)
  | attachments (m : FiniteMap Str (Value ο))

namespace Value

variable {ο : Type}

/-- `v.(string)`. -/
def asString : Value ο → Except (Fault ο) Str
  | .string s => .ok s
  | _ => .error (.panic .typeAssertion)

def isNil : Value ο → Bool
  | .nil => true
  | _ => false

end Value

/-- The hessian library; `ω` are the replies, which `ReflectResponse` stores values in. -/
structure Hessian (ο ω : Type) where
  Encoder : Type
  newEncoder : Encoder
  encode : Item ο → Encoder → Except (Err ο) Encoder
  buffer : Encoder → Str
  Decoder : Type
  newDecoder : Str → Decoder
  decode : Decoder → Except (Err ο) (Value ο × Decoder)
  newDubboGenericException : Str → Str → Value ο
  newThrowable : Str → Value ο
  toGenericException : Value ο → Option (Str × Str)
  isError : Value ο → Bool
  /-- The text of a generic exception, and of an error value. -/
  genericText : Str → Str → Str
  errorText : Value ο → Str
  /-- `%+v`. -/
  format : Value ο → Str
  /-- What `ReflectResponse` does with a value and a reply that are not nil. -/
  copy : Value ο → ω → Except (Fault ο) ω

namespace Hessian

variable {ο ω : Type}

section Library

variable (h : Hessian ο ω)

def encodeAll (items : List (Item ο)) (e : h.Encoder) : Except (Err ο) h.Encoder :=
  items.foldlM (fun e item => h.encode item e) e

def decodeAll : ℕ → h.Decoder → Except (Err ο) (List (Value ο) × h.Decoder)
  | 0, d => .ok ([], d)
  | n + 1, d => do
    let (v, d) ← h.decode d
    let (vs, d) ← decodeAll n d
    return (v :: vs, d)

/-- `exception.Error()`. -/
def text : Exception ο → Str
  | .generic exceptionClass exceptionMessage => h.genericText exceptionClass exceptionMessage
  | .throwable v | .value v => h.errorText v
  | .message text => text

end Library

variable {h : Hessian ο ω} {d d' d₁ : h.Decoder} {v : Value ο} {vs ws : List (Value ο)}

theorem decodeAll_succ {n : ℕ} (hdecode : h.decodeAll (n + 1) d = .ok (v :: vs, d')) :
    ∃ d₁, h.decode d = .ok (v, d₁) ∧ h.decodeAll n d₁ = .ok (vs, d') := by
  obtain ⟨⟨w, d₁⟩, hw, hrest⟩ := bind_eq_ok hdecode
  obtain ⟨⟨ws, d₂⟩, hws, heq⟩ := bind_eq_ok hrest
  cases heq
  exact ⟨d₁, hw, hws⟩

theorem decodeAll_cons (hv : h.decode d = .ok (v, d₁)) (hvs : h.decodeAll vs.length d₁ = .ok (vs, d')) :
    h.decodeAll (v :: vs).length d = .ok (v :: vs, d') := by
  rw [length_cons, decodeAll, hv]
  simp only [bind, Except.bind, hvs]
  rfl

theorem length_of_decodeAll {n : ℕ} (hdecode : h.decodeAll n d = .ok (vs, d')) : vs.length = n := by
  induction n generalizing d vs with
  | zero =>
    cases hdecode
    rfl
  | succ n ih =>
    obtain ⟨⟨v, d₁⟩, -, hrest⟩ := bind_eq_ok hdecode
    obtain ⟨⟨ws, d₂⟩, hws, heq⟩ := bind_eq_ok hrest
    cases heq
    rw [length_cons, ih hws]

theorem decodeAll_trans (hvs : h.decodeAll vs.length d = .ok (vs, d₁))
    (hws : h.decodeAll ws.length d₁ = .ok (ws, d')) : h.decodeAll (vs ++ ws).length d = .ok (vs ++ ws, d') := by
  induction vs generalizing d with
  | nil =>
    cases hvs
    exact hws
  | cons v vs ih =>
    obtain ⟨d₂, hv, hrest⟩ := decodeAll_succ hvs
    exact decodeAll_cons hv (ih hrest)

theorem decodeAll_append (hdecode : h.decodeAll (vs ++ ws).length d = .ok (vs ++ ws, d')) :
    ∃ d₁, h.decodeAll vs.length d = .ok (vs, d₁) ∧ h.decodeAll ws.length d₁ = .ok (ws, d') := by
  induction vs generalizing d with
  | nil => exact ⟨d, rfl, hdecode⟩
  | cons v vs ih =>
    obtain ⟨d₁, hv, hrest⟩ := decodeAll_succ hdecode
    obtain ⟨d₂, hvs, hws⟩ := ih hrest
    exact ⟨d₂, decodeAll_cons hv hvs, hws⟩

/-- A value is what an item was written from; a map comes with its entries in any order. -/
def Reads : Item ο → Value ο → Prop
  | .value v, w => w = v
  | .attachments m, w =>
    ∃ entries, w = .map entries ∧ ∀ k v, (Value.string k, v) ∈ entries ↔ m.lookup k = some v

def Inverts (h : Hessian ο ω) : Prop :=
  ∀ items e, h.encodeAll items h.newEncoder = .ok e → ∀ rest, ∃ values d,
    List.Forall₂ Reads items values ∧
    h.decodeAll items.length (h.newDecoder (h.buffer e ++ rest)) = .ok (values, d)

end Hessian

/-! ## A plain library

It writes every value by itself: strings as their bytes, each with a byte 1 in front and a byte 0 at the end,
attachments as strings under the keys that the codec uses. -/

namespace Plain

def writeString (s : Str) : Str := (s.flatMap fun b => [1, b]) ++ [0]

def readString : Str → Option (Str × Str)
  | 0 :: rest => some ([], rest)
  | 1 :: b :: rest => (readString rest).map fun p => (b :: p.1, p.2)
  | _ => none

theorem readString_writeString (s rest : Str) : readString (writeString s ++ rest) = some (s, rest) := by
  induction s with
  | nil => rfl
  | cons b s ih =>
    change (readString (writeString s ++ rest)).map (fun p => (b :: p.1, p.2)) = some (b :: s, rest)
    rw [ih]
    rfl

def writeEntries (entries : List (Str × Str)) : Str :=
  (entries.flatMap fun p => 1 :: (writeString p.1 ++ writeString p.2)) ++ [0]

def readEntries : ℕ → Str → Option (List (Str × Str) × Str)
  | 0, _ => none
  | _ + 1, 0 :: rest => some ([], rest)
  | fuel + 1, 1 :: rest => do
    let (k, rest) ← readString rest
    let (v, rest) ← readString rest
    let (entries, rest) ← readEntries fuel rest
    return ((k, v) :: entries, rest)
  | _, _ => none

theorem readEntries_writeEntries (ents : List (Str × Str)) (rest : Str) {fuel : ℕ} (hfuel : ents.length < fuel) :
    readEntries fuel (writeEntries ents ++ rest) = some (ents, rest) := by
  induction ents generalizing fuel with
  | nil =>
    obtain ⟨fuel, rfl⟩ := Nat.exists_eq_add_of_lt hfuel
    rfl
  | cons p ents ih =>
    obtain ⟨fuel, rfl⟩ := Nat.exists_eq_succ_of_ne_zero (Nat.ne_zero_of_lt hfuel)
    have hwrite : writeEntries (p :: ents) ++ rest =
        1 :: (writeString p.1 ++ (writeString p.2 ++ (writeEntries ents ++ rest))) := by
      simp [writeEntries]
    rw [hwrite, readEntries, readString_writeString]
    dsimp only [Option.bind_eq_bind, Option.bind_some]
    rw [readString_writeString]
    dsimp only [Option.bind_some]
    rw [ih (Nat.lt_of_succ_lt_succ hfuel)]
    rfl

theorem length_lt_writeEntries (ents : List (Str × Str)) : ents.length < (writeEntries ents).length := by
  induction ents with
  | nil => exact Nat.zero_lt_one
  | cons p ents ih =>
    have hwrite : writeEntries (p :: ents) = 1 :: (writeString p.1 ++ writeString p.2 ++ writeEntries ents) := by
      simp [writeEntries]
    rw [hwrite]
    simp only [length_cons, length_append]
    omega

def isString : Value Unit → Bool
  | .string _ => true
  | _ => false

def keys : List Str :=
  [str "path", str "interface", str "version", str "group", str "timeout", str "dubbo"]

def entriesOf (m : FiniteMap Str (Value Unit)) : Option (List (Str × Str)) :=
  if m.keys ⊆ keys.toFinset ∧ ∀ k ∈ keys, (m.lookup k).all isString = true then
    some (keys.filterMap fun k => (m.lookup k).bind fun
      | .string v => some (k, v)
      | _ => none)
  else none

theorem mem_entriesOf {m : FiniteMap Str (Value Unit)} {ents : List (Str × Str)}
    (h : entriesOf m = some ents) (k : Str) (v : Value Unit) : ((Value.string k, v) : Value Unit × Value Unit) ∈
        ents.map (fun p => (Value.string p.1, Value.string p.2)) ↔ m.lookup k = some v := by
  unfold entriesOf at h
  split_ifs at h with hcondition
  cases h
  obtain ⟨hkeys, hstrings⟩ := hcondition
  rw [mem_map]
  constructor
  · rintro ⟨⟨k', v'⟩, hmem, heq⟩
    cases heq
    obtain ⟨k'', -, hbind⟩ := mem_filterMap.1 hmem
    obtain ⟨w, hw, hentry⟩ := Option.bind_eq_some_iff.1 hbind
    cases w with
    | string w =>
      cases hentry
      exact hw
    | _ => cases hentry
  · intro hlookup
    have hk : k ∈ keys := mem_toFinset.1 (hkeys (Finmap.mem_keys.2 (Finmap.mem_of_lookup_eq_some hlookup)))
    have hstring := hstrings k hk
    rw [hlookup] at hstring
    cases v with
    | string v =>
      refine ⟨(k, v), mem_filterMap.2 ⟨k, hk, ?_⟩, rfl⟩
      rw [hlookup]
      rfl
    | _ => cases hstring

def write : Item Unit → Option Str
  | .value .nil => some [78]
  | .value (.string s) => some (83 :: writeString s)
  | .value (.int32 n) =>
    let b := UInt8.ofNat n.toInt.toNat
    if Int32.ofNat b.toNat = n then some [73, b] else none
  | .value (.other .times ()) => some [84]
  | .value _ => none
  | .attachments m => (entriesOf m).map fun entries => 72 :: writeEntries entries

def read : Str → Option (Value Unit × Str)
  | 78 :: rest => some (.nil, rest)
  | 83 :: rest => (readString rest).map fun p => (.string p.1, p.2)
  | 73 :: b :: rest => some (.int32 (Int32.ofNat b.toNat), rest)
  | 84 :: rest => some (.other .times (), rest)
  | 72 :: rest => (readEntries rest.length rest).map fun p =>
      (.map (p.1.map fun q => (.string q.1, .string q.2)), p.2)
  | _ => none

theorem read_write {item : Item Unit} {bytes : Str} (h : write item = some bytes) (rest : Str) :
    ∃ v, Hessian.Reads item v ∧ read (bytes ++ rest) = some (v, rest) := by
  cases item with
  | value v =>
    refine ⟨v, rfl, ?_⟩
    cases v with
    | nil =>
      cases h
      rfl
    | string s =>
      cases h
      change (readString (writeString s ++ rest)).map _ = _
      rw [readString_writeString]
      rfl
    | int32 n =>
      rw [write] at h
      split_ifs at h with hn
      cases h
      change some (Value.int32 (Int32.ofNat _), rest) = _
      rw [hn]
    | other type object =>
      cases type with
      | times =>
        cases h
        rfl
      | _ => cases h
    | _ => cases h
  | attachments m =>
    obtain ⟨ents, hentries, rfl⟩ := Option.map_eq_some_iff.1 h
    refine ⟨.map (ents.map fun q => (.string q.1, .string q.2)), ⟨_, rfl, mem_entriesOf hentries⟩, ?_⟩
    have hfuel : ents.length < (writeEntries ents ++ rest).length := by
      have hlength := length_lt_writeEntries ents
      rw [length_append]
      omega
    change (readEntries (writeEntries ents ++ rest).length (writeEntries ents ++ rest)).map _ = _
    rw [readEntries_writeEntries ents rest hfuel]
    rfl

end Plain

open Plain in
def plain : Hessian Unit (Value Unit) where
  Encoder := Str
  newEncoder := []
  encode item e :=
    match write item with
    | some bytes => .ok (e ++ bytes)
    | none => .error (.message (str "failed to encode"))
  buffer e := e
  Decoder := Str
  newDecoder bytes := bytes
  decode d :=
    match read d with
    | some p => .ok p
    | none => .error (.message (str "failed to decode"))
  newDubboGenericException exceptionClass exceptionMessage := .string (exceptionClass ++ exceptionMessage)
  newThrowable message := .string message
  toGenericException
    | .string s => some (str "java.lang.Exception", s)
    | _ => none
  isError _ := false
  genericText exceptionClass exceptionMessage := exceptionClass ++ exceptionMessage
  errorText _ := []
  format _ := []
  copy v _ := .ok v

namespace Plain

variable {e₀ e : plain.Encoder}

theorem exists_write {item : Item Unit} (h : plain.encode item e₀ = .ok e) :
    ∃ bytes, write item = some bytes ∧ plain.buffer e = plain.buffer e₀ ++ bytes := by
  dsimp only [plain] at h ⊢
  cases hwrite : write item with
  | none =>
    rw [hwrite] at h
    cases h
  | some bytes =>
    rw [hwrite] at h
    cases h
    exact ⟨bytes, rfl, rfl⟩

theorem decode_of_read {bytes rest : Str} {v : Value Unit} (h : read bytes = some (v, rest)) :
    plain.decode (plain.newDecoder bytes) = .ok (v, plain.newDecoder rest) := by
  dsimp only [plain]
  rw [h]

theorem decodeAll_encodeAll {items : List (Item Unit)} (h : plain.encodeAll items e₀ = .ok e) :
    ∃ bytes, plain.buffer e = plain.buffer e₀ ++ bytes ∧ ∀ rest, ∃ vals, List.Forall₂ Hessian.Reads items vals ∧
        plain.decodeAll items.length (plain.newDecoder (bytes ++ rest)) = .ok (vals, plain.newDecoder rest) := by
  induction items generalizing e₀ with
  | nil =>
    cases h
    exact ⟨[], (append_nil _).symm, fun rest => ⟨[], .nil, rfl⟩⟩
  | cons item items ih =>
    obtain ⟨e₁, hitem, hitems⟩ := bind_eq_ok h
    obtain ⟨bytes, hwrite, hbuffer⟩ := exists_write hitem
    obtain ⟨later, hbuffer', hlater⟩ := ih hitems
    refine ⟨bytes ++ later, by rw [hbuffer', hbuffer, append_assoc], ?_⟩
    intro rest
    obtain ⟨v, hv, hread⟩ := read_write hwrite (later ++ rest)
    obtain ⟨vals, hvalues, hdecode⟩ := hlater rest
    refine ⟨v :: vals, .cons hv hvalues, ?_⟩
    have hlength := hvalues.length_eq
    rw [hlength] at hdecode
    rw [append_assoc, length_cons, hlength]
    exact Hessian.decodeAll_cons (decode_of_read hread) hdecode

end Plain

theorem inverts_plain : plain.Inverts := by
  intro items e he rest
  obtain ⟨bytes, hbuffer, hbytes⟩ := Plain.decodeAll_encodeAll he
  obtain ⟨vals, hvalues, hdecode⟩ := hbytes rest
  rw [hbuffer]
  exact ⟨vals, plain.newDecoder rest, hvalues, hdecode⟩

end DubboGo.Dubbo
