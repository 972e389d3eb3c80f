import DubboGo.Dubbo.Hessian
import DubboGo.Lib.Regex

/-!
# Type descriptors

`GetArgsTypeList` and `getArgType` of `protocol/dubbo/impl/hessian.go`, which print the types of the arguments of a
call one after the other, and `DescRegex` of `const.go`, by which the receiver takes the text apart again.
-/

namespace DubboGo.Dubbo

open Go Lib Regex

variable {ο : Type} {args : List (Value ο)} {types w : Str} {arg : Value ο}

/-! ## Printing -/

/-- The complex types are those that `reflect` tells apart.  The element of a pointer is looked at as a
`reflect.Value`, which is a struct whatever the pointer points to. -/
def GoType.argType : GoType → Str
  | .bool => str "Z"
  | .bools => str "[Z"
  | .byte => str "B"
  | .bytes => str "[B"
  | .int8 => str "B"
  | .int8s => str "[B"
  | .int16 => str "S"
  | .int16s => str "[S"
  | .uint16 => str "C"
  | .uint16s => str "[C"
  | .int => str "J"
  | .ints => str "[J"
  | .int32s => str "[I"
  | .int64 => str "J"
  | .int64s => str "[J"
  | .time => str "java.util.Date"
  | .times => str "[Ljava.util.Date"
  | .float32 => str "F"
  | .float32s => str "[F"
  | .float64 => str "D"
  | .float64s => str "[D"
  | .objects => str "[Ljava.lang.Object;"
  | .enum javaClassName => javaClassName
  | .int8Pointer => str "java.lang.Byte"
  | .int16Pointer => str "java.lang.Short"
  | .uint16Pointer => str "java.lang.Character"
  | .intPointer => str "java.lang.Long"
  | .int32Pointer => str "java.lang.Integer"
  | .int64Pointer => str "java.lang.Long"
  | .float32Pointer => str "java.lang.Float"
  | .float64Pointer => str "java.lang.Double"
  | .pointer (some javaParamName) _ | .struct (some javaParamName) _ => javaParamName
  | .pointer none (some javaClassName) | .struct none (some javaClassName) => javaClassName
  | .pointer none none | .struct none none => str "java.lang.Object"
  | .slice true => str "[Ljava.lang.Object;"
  | .slice false => str "java.util.List"
  | .map => str "java.util.Map"
  | .other => []

def getArgType : Value ο → Str
  | .nil => str "V"
  | .string _ => str "java.lang.String"
  | .strings _ => str "[Ljava.lang.String;"
  | .int32 _ => str "I"
  | .map _ => str "java.util.Map"
  | .other type _ => type.argType

/-- `strings.ReplaceAll(typ, ".", "/")`. -/
def slashed (typ : Str) : Str := typ.map fun b => if b = 46 then 47 else b

def descriptor (typ : Str) : Str :=
  if !typ.contains 46 then typ
  else if typ.head? = some 91 then slashed typ
  else str "L" ++ slashed typ ++ str ";"

def getArgsTypeList : List (Value ο) → Except (Err ο) Str
  | [] => .ok []
  | arg :: args =>
    if getArgType arg = [] then .error (.unknownType arg)
    else (getArgsTypeList args).map (descriptor (getArgType arg) ++ ·)

theorem getArgsTypeList_eq (h : getArgsTypeList args = .ok types) :
    types = (args.map fun arg => descriptor (getArgType arg)).flatten := by
  induction args generalizing types with
  | nil =>
    cases h
    rfl
  | cons arg args ih =>
    rw [getArgsTypeList] at h
    split_ifs at h
    cases hrest : getArgsTypeList args with
    | error e =>
      rw [hrest] at h
      cases h
    | ok rest =>
      rw [hrest] at h
      cases h
      rw [List.map_cons, List.flatten_cons, ← ih hrest]

/-! ## Taking apart -/

def identStart : Str := str "_$abcdefghijklmnopqrstuvwxyzABCDEFGHIJKLMNOPQRSTUVWXYZ"

/-- `JAVA_IDENT_REGEX`. -/
def javaIdentRegex : RegularExpression UInt8 := oneOf identStart * (oneOf (identStart ++ str "0123456789")).star

/-- `CLASS_DESC`. -/
def classDesc : RegularExpression UInt8 :=
  .char 76 * javaIdentRegex * (.char 47 * javaIdentRegex).star * .char 59

def baseDesc : RegularExpression UInt8 := oneOf (str "VZBCDFIJS")

/-- `ARRAY_DESC`. -/
def arrayDesc : RegularExpression UInt8 := oneOrMore (.char 91) * (baseDesc + classDesc)

/-- `DESC_REGEX`. -/
def descRegex : RegularExpression UInt8 := baseDesc + classDesc + arrayDesc

def IsDescriptor (w : Str) : Prop := descRegex.rmatch w = true

instance decidableIsDescriptor (w : Str) : Decidable (IsDescriptor w) := inferInstanceAs (Decidable (_ = _))

theorem isDescriptor_iff : IsDescriptor w ↔ w ∈ descRegex.matches' :=
  RegularExpression.rmatch_iff_matches' _ _

theorem isDescriptor_of_suffixes (hw : [] ∈ suffixes descRegex w) : IsDescriptor w := by
  obtain ⟨v, hv, hmatch⟩ := mem_suffixes.1 hw
  rw [List.append_nil] at hmatch
  subst hmatch
  exact isDescriptor_iff.2 hv

theorem prefixFree_classDesc : PrefixFree classDesc.matches' := .mul_char (by decide +kernel)

theorem prefixFree_elementDesc : PrefixFree (baseDesc + classDesc).matches' :=
  .add (.oneOf _) prefixFree_classDesc (by decide +kernel) (by decide +kernel) (by decide +kernel)

theorem prefixFree_arrayDesc : PrefixFree arrayDesc.matches' := by
  have hassoc : arrayDesc.matches' =
      (RegularExpression.char 91).matches' *
        ((RegularExpression.char 91).star * (baseDesc + classDesc)).matches' :=
    mul_assoc (G := Language UInt8) _ _ _
  rw [hassoc]
  exact .mul (.char 91) (.star_char_mul prefixFree_elementDesc (by decide +kernel) (by decide +kernel))

/-- No descriptor is the beginning of another one. -/
theorem prefixFree_descRegex : PrefixFree descRegex.matches' :=
  .add prefixFree_elementDesc prefixFree_arrayDesc (by decide +kernel) (by decide +kernel) (by decide +kernel)

theorem allMatches_getArgsTypeList (h : getArgsTypeList args = .ok types)
    (hargs : ∀ arg ∈ args, IsDescriptor (descriptor (getArgType arg))) :
    allMatches descRegex types = args.map fun arg => descriptor (getArgType arg) := by
  rw [getArgsTypeList_eq h]
  refine allMatches_flatten prefixFree_descRegex (by decide +kernel) ?_
  intro w hw
  obtain ⟨arg, harg, rfl⟩ := List.mem_map.1 hw
  exact isDescriptor_iff.1 (hargs arg harg)

/-! ## What has a descriptor -/

def javaNameRegex : RegularExpression UInt8 := javaIdentRegex * oneOrMore (.char 46 * javaIdentRegex)

def IsJavaName (w : Str) : Prop := javaNameRegex.rmatch w = true

instance decidableIsJavaName (w : Str) : Decidable (IsJavaName w) := inferInstanceAs (Decidable (_ = _))

def slashedNameRegex : RegularExpression UInt8 := javaIdentRegex * oneOrMore (.char 47 * javaIdentRegex)

theorem slashed_javaName (hw : w ∈ javaNameRegex.matches') : slashed w ∈ slashedNameRegex.matches' := by
  have hident : javaIdentRegex.map (fun b => if b = 46 then 47 else b) = javaIdentRegex := by
    have hstart : identStart.map (fun b => if b = 46 then 47 else b) = identStart := by decide +kernel
    have hdigits : (str "0123456789").map (fun b => if b = 46 then 47 else b) = str "0123456789" := by
      decide +kernel
    unfold javaIdentRegex
    simp only [RegularExpression.map, map_oneOf, List.map_append, hstart, hdigits]
  have hmap : javaNameRegex.map (fun b => if b = 46 then 47 else b) = slashedNameRegex := by
    simp only [javaNameRegex, slashedNameRegex, oneOrMore, RegularExpression.map, hident, if_true]
  rw [← hmap, RegularExpression.matches'_map]
  exact ⟨w, hw, rfl⟩

theorem classDesc_of_slashedName (hw : w ∈ slashedNameRegex.matches') :
    str "L" ++ w ++ str ";" ∈ classDesc.matches' := by
  obtain ⟨ident, hident, rest, hrest, rfl⟩ := Language.mem_mul.1 hw
  have hstar : rest ∈ ((RegularExpression.char 47 * javaIdentRegex).star).matches' := by
    obtain ⟨first, hfirst, others, hothers, rfl⟩ := Language.mem_mul.1 hrest
    obtain ⟨words, rfl, hwords⟩ := Language.mem_kstar.1 hothers
    exact Language.mem_kstar.2 ⟨first :: words, rfl, List.forall_mem_cons.2 ⟨hfirst, hwords⟩⟩
  have hfirst : str "L" ++ ident ∈ (RegularExpression.char 76 * javaIdentRegex).matches' :=
    Language.mem_mul.2 ⟨_, rfl, _, hident, rfl⟩
  have hsecond := Language.mem_mul.2 ⟨_, hfirst, _, hstar, rfl⟩
  rw [← List.append_assoc]
  exact Language.mem_mul.2 ⟨_, hsecond, _, rfl, rfl⟩

theorem isDescriptor_of_javaName (hw : IsJavaName w) : IsDescriptor (descriptor w) := by
  have hmem : w ∈ javaNameRegex.matches' := (RegularExpression.rmatch_iff_matches' _ _).1 hw
  have hdot : w.contains 46 = true := by
    obtain ⟨ident, -, rest, hrest, rfl⟩ := Language.mem_mul.1 hmem
    obtain ⟨first, hfirst, others, -, rfl⟩ := Language.mem_mul.1 hrest
    obtain ⟨dot, hdot, ident', -, rfl⟩ := Language.mem_mul.1 hfirst
    obtain rfl : dot = [46] := hdot
    simp
  have hhead : w.head? ≠ some 91 := by
    obtain ⟨ident, hident, rest, -, rfl⟩ := Language.mem_mul.1 hmem
    obtain ⟨start, hstart, more, -, rfl⟩ := Language.mem_mul.1 hident
    obtain ⟨b, hb, rfl⟩ := mem_oneOf.1 hstart
    rintro ⟨⟩
    exact absurd hb (by decide +kernel)
  unfold descriptor
  rw [hdot, if_neg (by decide), if_neg hhead, isDescriptor_iff]
  exact .inl (.inr (classDesc_of_slashedName (slashed_javaName hmem)))

/-- The names that the type gives itself are names of Java classes in packages, and it is not `[]time.Time`, whose
name lacks the semicolon. -/
def GoType.Describable : GoType → Prop
  | .times | .other => False
  | .enum javaClassName => IsJavaName javaClassName
  | .pointer (some javaParamName) _ | .struct (some javaParamName) _ => IsJavaName javaParamName
  | .pointer none (some javaClassName) | .struct none (some javaClassName) => IsJavaName javaClassName
  | _ => True

/-- The names that `getArgType` has for types. -/
def typeNames : List Str :=
  ["V", "java.lang.String", "[Ljava.lang.String;", "I", "Z", "[Z", "B", "[B", "S", "[S", "C", "[C", "J", "[J", "[I",
    "java.util.Date", "F", "[F", "D", "[D", "[Ljava.lang.Object;", "java.lang.Byte", "java.lang.Short",
    "java.lang.Character", "java.lang.Long", "java.lang.Integer", "java.lang.Float", "java.lang.Double", "java.lang.Object", "java.util.List",
    "java.util.Map"].map str

theorem suffixes_typeNames : ∀ name ∈ typeNames, [] ∈ suffixes descRegex (descriptor name) := by decide +kernel

theorem argType_cases {type : GoType} (htype : type.Describable) :
    IsJavaName type.argType ∨ type.argType ∈ typeNames := by
  cases type with
  | times => cases htype
  | other => cases htype
  | enum jname => exact .inl htype
  | pointer javaParamName jname | struct javaParamName jname =>
    rcases javaParamName with _ | javaParamName
    · rcases jname with _ | javaClassName
      · exact .inr (by decide +kernel)
      · exact .inl htype
    · exact .inl htype
  | slice ofStructs => cases ofStructs <;> exact .inr (by decide +kernel)
  | _ => exact .inr (by decide +kernel)

def Value.Describable : Value ο → Prop
  | .other type _ => type.Describable
  | _ => True

theorem getArgType_cases (harg : arg.Describable) : IsJavaName (getArgType arg) ∨ getArgType arg ∈ typeNames := by
  cases arg with
  | other type object => exact argType_cases harg
  | nil => exact .inr (by decide +kernel : str "V" ∈ typeNames)
  | string s => exact .inr (by decide +kernel : str "java.lang.String" ∈ typeNames)
  | strings l => exact .inr (by decide +kernel : str "[Ljava.lang.String;" ∈ typeNames)
  | int32 n => exact .inr (by decide +kernel : str "I" ∈ typeNames)
  | map ents => exact .inr (by decide +kernel : str "java.util.Map" ∈ typeNames)

/-- The type of an argument that can be described has a descriptor. -/
theorem isDescriptor_getArgType (harg : arg.Describable) : IsDescriptor (descriptor (getArgType arg)) := by
  rcases getArgType_cases harg with hname | hname
  · exact isDescriptor_of_javaName hname
  · exact isDescriptor_of_suffixes (suffixes_typeNames _ hname)

end DubboGo.Dubbo
