import DubboGo.Dubbo.Codec

/-!
# Requests

What becomes of the body of a request.
-/

namespace DubboGo.Dubbo

open Go Lib Regex Remoting List

variable {ο ω : Type} {h : Hessian ο ω} {items : List (Item ο)} {e₀ e₁ e : h.Encoder} {body types key data : Str}
  {d : h.Decoder} {v : Value ο} {attachments : FiniteMap Str (Value ο)} {args values : List (Value ο)}
  {o : Option (Value ο)} {table : PendingTable ο ω}

/-! ## What is written -/

theorem encodeAll_cons {item : Item ο} (hitem : h.encode item e₀ = .ok e₁) (hitems : h.encodeAll items e₁ = .ok e) :
    h.encodeAll (item :: items) e₀ = .ok e := by
  unfold Hessian.encodeAll at hitems ⊢
  rw [foldlM_cons, hitem]
  exact hitems

def requestStrings (service : Service) (types : Str) : List (Value ο) :=
  [.string defaultDubboProtocolVersion, .string service.path, .string service.version, .string service.method,
    .string types]

def requestItems (service : Service) (request : RequestPayload ο) (types : Str) : List (Item ο) :=
  (requestStrings service types).map .value ++
    (request.params.map .value ++ [.attachments (requestAttachments service request.attachments)])

theorem encodeAll_arguments {params : List (Value ο)} {m : FiniteMap Str (Value ο)}
    (hparams : params.foldlM (fun e v => (h.encode (.value v) e).mapError (Err.encodingArgument v)) e₀ = .ok e₁)
    (hattachments : h.encode (.attachments m) e₁ = .ok e) :
    h.encodeAll (params.map .value ++ [.attachments m]) e₀ = .ok e := by
  induction params generalizing e₀ with
  | nil =>
    cases hparams
    exact encodeAll_cons hattachments rfl
  | cons v params ih =>
    obtain ⟨e₂, hv, hrest⟩ := bind_eq_ok hparams
    exact encodeAll_cons (mapError_eq_ok.1 hv) (ih hrest)

theorem encodeAll_of_marshalRequest {svc : Service} {req : RequestPayload ο}
    (hmarshal : marshalRequest h svc req = .ok body) : ∃ types e, getArgsTypeList req.params = .ok types ∧
      h.encodeAll (requestItems svc req types) h.newEncoder = .ok e ∧ body = h.buffer e := by
  obtain ⟨e₁, h₁, hmarshal⟩ := bind_eq_ok hmarshal
  obtain ⟨e₂, h₂, hmarshal⟩ := bind_eq_ok hmarshal
  obtain ⟨e₃, h₃, hmarshal⟩ := bind_eq_ok hmarshal
  obtain ⟨e₄, h₄, hmarshal⟩ := bind_eq_ok hmarshal
  obtain ⟨types, htypes, hmarshal⟩ := bind_eq_ok hmarshal
  obtain ⟨e₅, h₅, hmarshal⟩ := bind_eq_ok hmarshal
  obtain ⟨e₆, hparams, hmarshal⟩ := bind_eq_ok hmarshal
  obtain ⟨e₇, hattachments, hbuffer⟩ := bind_eq_ok hmarshal
  cases hbuffer
  refine ⟨types, e₇, mapError_eq_ok.1 htypes, ?_, rfl⟩
  exact encodeAll_cons (mapError_eq_ok.1 h₁) (encodeAll_cons (mapError_eq_ok.1 h₂)
    (encodeAll_cons (mapError_eq_ok.1 h₃) (encodeAll_cons (mapError_eq_ok.1 h₄)
    (encodeAll_cons (mapError_eq_ok.1 h₅) (encodeAll_arguments hparams hattachments)))))

/-! ## What is read -/

theorem read_of_decode {d' : h.Decoder} (hdecode : h.decode d = .ok (v, d')) : read h d = .ok (v, d') := by
  rw [read, hdecode]
  rfl

theorem unmarshalRequestBody_of_decodeAll {dver target sver meth attachments : Value ο}
    (hargs : args.length = (allMatches descRegex types).length)
    (hdecode : h.decodeAll (5 + (args.length + 1)) (h.newDecoder body) =
      .ok ([dver, target, sver, meth, .string types] ++ (args ++ [attachments]), d)) :
    unmarshalRequestBody h body = entriesOf attachments target >>= fun entries =>
      buildServerSidePackageBody dver target sver meth (.string types) args
        (toMapStringInterface (entries ++ [(.string dubboVersionKey, dver)])) := by
  have hlength : 5 + (args.length + 1) =
      ([dver, target, sver, meth, .string types] ++ (args ++ [attachments])).length := by
    simp
    omega
  rw [hlength] at hdecode
  obtain ⟨d₅, hfirst, hrest⟩ := Hessian.decodeAll_append hdecode
  obtain ⟨d₆, hargs', hlast⟩ := Hessian.decodeAll_append hrest
  obtain ⟨d₁, h₁, hfirst⟩ := Hessian.decodeAll_succ hfirst
  obtain ⟨d₂, h₂, hfirst⟩ := Hessian.decodeAll_succ hfirst
  obtain ⟨d₃, h₃, hfirst⟩ := Hessian.decodeAll_succ hfirst
  obtain ⟨d₄, h₄, hfirst⟩ := Hessian.decodeAll_succ hfirst
  obtain ⟨d₅', h₅, hfirst⟩ := Hessian.decodeAll_succ hfirst
  cases hfirst
  obtain ⟨d₇, h₇, -⟩ := Hessian.decodeAll_succ hlast
  rw [hargs] at hargs'
  simp only [unmarshalRequestBody, read_of_decode h₁, read_of_decode h₂, read_of_decode h₃, read_of_decode h₄,
    read_of_decode h₅, Value.asString, hargs', read_of_decode h₇, bind, Except.bind, Except.mapError]

/-- What an attachment is after `ToMapStringInterface`. -/
def attached (v : Value ο) : Value ο := if v.isNil then .string [] else v

section
variable (ents : List (Value ο × Value ο)) {key : Value ο} (value : Value ο)

theorem toMapStringInterface_string (k : Str) :
    toMapStringInterface (ents ++ [(.string k, value)]) = (toMapStringInterface ents).insert k (attached value) :=
  foldl_append

theorem toMapStringInterface_of_ne (hkey : ∀ k, key ≠ .string k) :
    toMapStringInterface (ents ++ [(key, value)]) = toMapStringInterface ents := by
  unfold toMapStringInterface
  rw [foldl_append]
  cases key with
  | string k => exact absurd rfl (hkey k)
  | _ => rfl

end

theorem lookup_toMapStringInterface {entries : List (Value ο × Value ο)} {k : Str}
    (hentries : ∀ v, (Value.string k, v) ∈ entries ↔ o = some v) :
    (toMapStringInterface entries).lookup k = o.map attached := by
  induction entries using reverseRecOn with
  | nil =>
    cases o with
    | none => exact Finmap.lookup_empty k
    | some v => exact absurd ((hentries v).2 rfl) not_mem_nil
  | append_singleton entries ent ih =>
    obtain ⟨key, value⟩ := ent
    have hrest : key ≠ .string k → ∀ v, (Value.string k, v) ∈ entries ↔ o = some v := by
      intro hkey v
      rw [← hentries v, mem_append, mem_singleton, Prod.mk.injEq]
      exact ⟨.inl, fun hmem => hmem.resolve_right fun heq => hkey heq.1.symm⟩
    by_cases hstring : ∃ k', key = .string k'
    · obtain ⟨k', rfl⟩ := hstring
      rw [toMapStringInterface_string, FiniteMap.lookup_insert]
      split_ifs with hk
      · subst hk
        rw [(hentries value).1 (mem_append_right _ (mem_singleton_self _))]
        rfl
      · exact ih (hrest fun heq => hk (Value.string.inj heq).symm)
    · have hne : ∀ k', key ≠ .string k' := not_exists.1 hstring
      rw [toMapStringInterface_of_ne entries value hne]
      exact ih (hrest (hne k))

/-! ## The attachments of a request -/

/-- `marshalRequest` sets the attachment itself. -/
def Service.Sets (service : Service) (key : Str) : Prop :=
  key = pathKey ∨ key = versionKey ∨ (key = groupKey ∧ service.group ≠ []) ∨
    (key = interfaceKey ∧ service.interface ≠ []) ∨ (key = timeoutKey ∧ service.timeout ≠ 0)

theorem lookup_requestAttachments (svc : Service) (attachments : FiniteMap Str (Value ο)) (key : Str) :
    (requestAttachments svc attachments).lookup key =
      if key = timeoutKey ∧ svc.timeout ≠ 0 then
        some (.string (itoa (svc.timeout / 1000000).toInt))
      else if key = interfaceKey ∧ svc.interface ≠ [] then some (.string svc.interface)
      else if key = groupKey ∧ svc.group ≠ [] then some (.string svc.group)
      else if key = versionKey then some (.string svc.version)
      else if key = pathKey then some (.string svc.path)
      else attachments.lookup key := by
  -- one assignment at a time, the last one first
  have hset : ∀ (m : FiniteMap Str (Value ο)) (c : Prop) [Decidable c] (k : Str) (v : Value ο),
      Finmap.lookup key (if c then m.insert k v else m) = if key = k ∧ c then some v else m.lookup key := by
    intro m c _ k v
    by_cases hc : c
    · rw [if_pos hc, FiniteMap.lookup_insert]
      simp only [hc, and_true]
    · rw [if_neg hc, if_neg fun hand => hc hand.2]
  unfold requestAttachments
  simp only [hset, FiniteMap.lookup_insert, length_pos_iff]

theorem lookup_requestAttachments_path (svc : Service) (attachments : FiniteMap Str (Value ο)) :
    (requestAttachments svc attachments).lookup pathKey = some (.string svc.path) := by
  rw [lookup_requestAttachments, if_neg fun hand => absurd hand.1 (by decide),
    if_neg fun hand => absurd hand.1 (by decide), if_neg fun hand => absurd hand.1 (by decide),
    if_neg (by decide), if_pos rfl]

def IsText (o : Option (Value ο)) : Prop := ∀ v, o = some v → v.isNil = true ∨ ∃ s, v = .string s

/-- The attachments that the server expects to be strings are strings, unless `marshalRequest` sets them. -/
def Service.Texts (service : Service) (attachments : FiniteMap Str (Value ο)) : Prop :=
  ∀ key ∈ [interfaceKey, groupKey], ¬service.Sets key → IsText (attachments.lookup key)

theorem isText_requestAttachments {svc : Service} (htext : ¬svc.Sets key → IsText (attachments.lookup key)) :
    IsText ((requestAttachments svc attachments).lookup key) := by
  have hstring : ∀ s : Str, IsText (some (.string s : Value ο)) := by
    rintro s v ⟨⟩
    exact .inr ⟨s, rfl⟩
  rw [lookup_requestAttachments]
  split_ifs with htimeout hinterface hgroup hversion hpath
  · exact hstring _
  · exact hstring _
  · exact hstring _
  · exact hstring _
  · exact hstring _
  · refine htext ?_
    rintro (hset | hset | hset | hset | hset)
    · exact hpath hset
    · exact hversion hset
    · exact hgroup hset
    · exact hinterface hset
    · exact htimeout hset

/-! ## The round trip -/

theorem exists_attachmentString (hlookup : attachments.lookup key = o.map attached) (htext : IsText o)
    (default : Str) : ∃ s, attachmentString key attachments default = .ok s := by
  unfold attachmentString
  rw [hlookup]
  cases o with
  | none => exact ⟨default, rfl⟩
  | some v =>
    rcases htext v rfl with hnil | ⟨s, rfl⟩
    · refine ⟨[], ?_⟩
      rw [Option.map_some, attached, if_pos hnil]
      rfl
    · exact ⟨s, rfl⟩

theorem servicePath_of_lookup {path : Str} (hlookup : attachments.lookup pathKey = some (.string path)) :
    servicePath path attachments = .ok path := by
  unfold servicePath
  split_ifs with hpath
  · rw [hlookup, hpath]
    rfl
  · rfl

theorem buildServerSidePackageBody_eq {svc : Service} {dver : Str}
    (hpath : attachments.lookup pathKey = some (.string svc.path)) :
    buildServerSidePackageBody (.string dver) (.string svc.path) (.string svc.version)
      (.string svc.method) (.string types) args attachments = do
        let intf ← attachmentString interfaceKey attachments svc.path
        let group ← attachmentString groupKey attachments []
        return (⟨svc.path, intf, group, svc.version, svc.method, 0⟩, ⟨dver, types, args, attachments⟩) := by
  have hstr : ∀ s : Str, optionalString (.string s : Value ο) = .ok s := fun s => rfl
  simp only [buildServerSidePackageBody, hstr, servicePath_of_lookup hpath, bind, Except.bind]

theorem reads_values {vs : List (Value ο)} (hreads : List.Forall₂ Hessian.Reads (vs.map .value ++ items) values) :
    ∃ rest, values = vs ++ rest ∧ List.Forall₂ Hessian.Reads items rest := by
  induction vs generalizing values with
  | nil => exact ⟨values, rfl, hreads⟩
  | cons v vs ih =>
    cases hreads with
    | cons hv hvs =>
      obtain rfl := hv
      obtain ⟨rest, rfl, hrest⟩ := ih hvs
      exact ⟨rest, rfl, hrest⟩

theorem reads_requestItems {svc : Service} {req : RequestPayload ο}
    (hreads : List.Forall₂ Hessian.Reads (requestItems svc req types) values) :
    ∃ entries, values = requestStrings svc types ++ (req.params ++ [.map entries]) ∧
      ∀ k v, (Value.string k, v) ∈ entries ↔ (requestAttachments svc req.attachments).lookup k = some v := by
  obtain ⟨rest, rfl, hrest⟩ := reads_values hreads
  obtain ⟨last, rfl, hlast⟩ := reads_values hrest
  cases hlast with
  | cons hattachments hnil =>
    cases hnil
    obtain ⟨entries, rfl, hentries⟩ := hattachments
    exact ⟨entries, rfl, hentries⟩

/-- The arguments whose types have descriptors are as many as the tokens of their type list. -/
theorem length_allMatches {params : List (Value ο)} (htypes : getArgsTypeList params = .ok types)
    (hargs : ∀ arg ∈ params, IsDescriptor (descriptor (getArgType arg))) :
    (allMatches descRegex types).length = params.length := by
  rw [allMatches_getArgsTypeList htypes hargs, length_map]

/-- What the server makes of the body of a request whose type list has as many tokens as there are arguments: the
attachments are those of the request, apart from the version of the protocol. -/
theorem unmarshalRequestBody_eq (hinv : h.Inverts) {svc : Service} {req : RequestPayload ο}
    (hmarshal : marshalRequest h svc req = .ok body) (htypes : getArgsTypeList req.params = .ok types)
    (htokens : (allMatches descRegex types).length = req.params.length) (rest : Str) :
    ∃ attachments, unmarshalRequestBody h (body ++ rest) = (do
        let intf ← attachmentString interfaceKey attachments svc.path
        let group ← attachmentString groupKey attachments []
        return (⟨svc.path, intf, group, svc.version, svc.method, 0⟩,
          ⟨defaultDubboProtocolVersion, types, req.params, attachments⟩)) ∧
      attachments.lookup dubboVersionKey = some (.string defaultDubboProtocolVersion) ∧
      ∀ key, key ≠ dubboVersionKey → attachments.lookup key =
        ((requestAttachments svc req.attachments).lookup key).map attached := by
  obtain ⟨types', e, htypes', hencode, rfl⟩ := encodeAll_of_marshalRequest hmarshal
  cases htypes.symm.trans htypes'
  obtain ⟨values, d, hreads, hdecode⟩ := hinv _ e hencode rest
  obtain ⟨entries, rfl, hentries⟩ := reads_requestItems hreads
  have hlength : (requestItems svc req types).length = 5 + (req.params.length + 1) := by
    simp [requestItems, requestStrings]
    omega
  rw [hlength] at hdecode
  have hlookup : ∀ key, key ≠ dubboVersionKey →
      (toMapStringInterface (entries ++ [(.string dubboVersionKey, .string defaultDubboProtocolVersion)])).lookup
        key = ((requestAttachments svc req.attachments).lookup key).map attached := by
    intro key hkey
    refine lookup_toMapStringInterface fun v => ?_
    rw [← hentries key v, mem_append, mem_singleton, Prod.mk.injEq, Value.string.injEq]
    exact ⟨fun hmem => hmem.resolve_right fun heq => hkey heq.1, .inl⟩
  refine ⟨_, ?_, ?_, hlookup⟩
  · have hpath := hlookup pathKey (by decide)
    rw [lookup_requestAttachments_path] at hpath
    rw [unmarshalRequestBody_of_decodeAll htokens.symm hdecode]
    exact buildServerSidePackageBody_eq hpath
  · rw [toMapStringInterface_string, FiniteMap.lookup_insert, if_pos rfl]
    rfl

theorem unmarshalRequestBody_marshalRequest (hinverts : h.Inverts) {svc : Service}
    {req : RequestPayload ο} (hmarshal : marshalRequest h svc req = .ok body)
    (htypes : getArgsTypeList req.params = .ok types)
    (htokens : (allMatches descRegex types).length = req.params.length)
    (htexts : svc.Texts req.attachments) (rest : Str) :
    ∃ intf group attachments, unmarshalRequestBody h (body ++ rest) =
        .ok (⟨svc.path, intf, group, svc.version, svc.method, 0⟩,
          ⟨defaultDubboProtocolVersion, types, req.params, attachments⟩) ∧
      attachments.lookup dubboVersionKey = some (.string defaultDubboProtocolVersion) ∧
      ∀ key, key ≠ dubboVersionKey → attachments.lookup key =
        ((requestAttachments svc req.attachments).lookup key).map attached := by
  obtain ⟨attachments, hunmarshal, hdubbo, hlookup⟩ := unmarshalRequestBody_eq hinverts hmarshal htypes htokens rest
  obtain ⟨intf, hinterface⟩ := exists_attachmentString (hlookup interfaceKey (by decide))
    (isText_requestAttachments (htexts interfaceKey mem_cons_self)) svc.path
  obtain ⟨group, hgroup⟩ := exists_attachmentString (hlookup groupKey (by decide))
    (isText_requestAttachments (htexts groupKey (mem_cons_of_mem _ (mem_singleton_self _)))) []
  refine ⟨intf, group, attachments, ?_, hdubbo, hlookup⟩
  rw [hunmarshal, hinterface, hgroup]
  rfl

namespace RoundTrip

def service : Service := ⟨str "p", [], [], str "1", str "m", 0⟩

def request : RequestPayload Unit :=
  ⟨[.string (str "x"), .int32 7], Finmap.singleton interfaceKey (.string (str "i"))⟩

end RoundTrip

def Delivers (h : Hessian ο ω) (body : Str) (values : List (Value ο)) : Prop :=
  ∃ d, h.decodeAll values.length (h.newDecoder body) = .ok (values, d)

def IsString (o : Option (Value ο)) : Prop := ∀ v, o = some v → ∃ s, v = .string s

/-- The values that `buildServerSidePackageBody` asserts to be strings are strings. -/
structure Asserted (v₀ v₁ v₂ v₃ : Value ο) (attachments : FiniteMap Str (Value ο)) : Prop where
  dubboVersion : IsText (some v₀)
  target : IsText (some v₁)
  serviceVersion : IsText (some v₂)
  method : IsText (some v₃)
  path : optionalString v₁ = .ok [] → IsText (attachments.lookup pathKey)
  interface : IsString (attachments.lookup interfaceKey)
  group : IsString (attachments.lookup groupKey)

/-- The values that the decoder gives for a body are of the types that `unmarshalRequestBody` expects. -/
structure WellTyped (h : Hessian ο ω) (body : Str) : Prop where
  types : ∀ v₀ v₁ v₂ v₃ v₄, Delivers h body [v₀, v₁, v₂, v₃, v₄] → ∃ types, v₄ = .string types
  fields : ∀ v₀ v₁ v₂ v₃ types args attachments entries,
    Delivers h body ([v₀, v₁, v₂, v₃, .string types] ++ (args ++ [attachments])) →
    args.length = (allMatches descRegex types).length → entriesOf attachments v₁ = .ok entries →
    Asserted v₀ v₁ v₂ v₃ (toMapStringInterface (entries ++ [(.string dubboVersionKey, v₀)]))

theorem optionalString_eq_ok_iff : (∃ s, optionalString v = .ok s) ↔ IsText (some v) := by
  unfold optionalString
  constructor
  · rintro ⟨s, hs⟩ _ ⟨⟩
    split_ifs at hs with hnil
    · exact .inl hnil
    · cases v with
      | string t => exact .inr ⟨t, rfl⟩
      | _ => cases hs
  · intro htext
    rcases htext v rfl with hnil | ⟨s, rfl⟩
    · exact ⟨[], if_pos hnil⟩
    · exact ⟨s, rfl⟩

theorem attachmentString_eq_ok_iff (default : Str) :
    (∃ s, attachmentString key attachments default = .ok s) ↔ IsString (attachments.lookup key) := by
  unfold attachmentString
  constructor
  · rintro ⟨s, hs⟩ v hv
    rw [hv] at hs
    cases v with
    | string t => exact ⟨t, rfl⟩
    | _ => cases hs
  · intro hstring
    cases hv : attachments.lookup key with
    | none => exact ⟨default, rfl⟩
    | some v =>
      obtain ⟨s, rfl⟩ := hstring v hv
      exact ⟨s, rfl⟩

theorem servicePath_eq_ok_iff {path : Str} :
    (∃ s, servicePath path attachments = .ok s) ↔ (path = [] → IsText (attachments.lookup pathKey)) := by
  unfold servicePath
  by_cases hpath : path = []
  · rw [if_pos hpath]
    constructor
    · rintro ⟨s, hs⟩ - v hv
      rw [hv] at hs
      dsimp only at hs
      split_ifs at hs with hnil
      · exact .inl hnil
      · cases v with
        | string t => exact .inr ⟨t, rfl⟩
        | _ => cases hs
    · intro htext
      cases hv : attachments.lookup pathKey with
      | none => exact ⟨path, rfl⟩
      | some v =>
        rcases htext hpath v hv with hnil | ⟨s, rfl⟩
        · exact ⟨path, if_pos hnil⟩
        · exact ⟨_, rfl⟩
  · rw [if_neg hpath]
    exact ⟨fun _ hempty => absurd hempty hpath, fun _ => ⟨path, rfl⟩⟩

theorem buildServerSidePackageBody_eq_ok_iff {v₀ v₁ v₂ v₃ : Value ο} :
    (∃ r, buildServerSidePackageBody v₀ v₁ v₂ v₃ (.string types) args attachments = .ok r) ↔
      Asserted v₀ v₁ v₂ v₃ attachments := by
  constructor
  · rintro ⟨r, hr⟩
    obtain ⟨s₀, h₀, hr⟩ := bind_eq_ok hr
    obtain ⟨s₁, h₁, hr⟩ := bind_eq_ok hr
    obtain ⟨s₂, h₂, hr⟩ := bind_eq_ok hr
    obtain ⟨s₃, h₃, hr⟩ := bind_eq_ok hr
    obtain ⟨s₄, -, hr⟩ := bind_eq_ok hr
    obtain ⟨path, hpath, hr⟩ := bind_eq_ok hr
    obtain ⟨intf, hinterface, hr⟩ := bind_eq_ok hr
    obtain ⟨group, hgroup, -⟩ := bind_eq_ok hr
    refine ⟨optionalString_eq_ok_iff.1 ⟨s₀, h₀⟩, optionalString_eq_ok_iff.1 ⟨s₁, h₁⟩,
      optionalString_eq_ok_iff.1 ⟨s₂, h₂⟩, optionalString_eq_ok_iff.1 ⟨s₃, h₃⟩, ?_,
      (attachmentString_eq_ok_iff _).1 ⟨intf, hinterface⟩,
      (attachmentString_eq_ok_iff _).1 ⟨group, hgroup⟩⟩
    intro hempty
    cases h₁.symm.trans hempty
    exact servicePath_eq_ok_iff.1 ⟨path, hpath⟩ rfl
  · intro hasserted
    obtain ⟨s₀, h₀⟩ := optionalString_eq_ok_iff.2 hasserted.dubboVersion
    obtain ⟨s₁, h₁⟩ := optionalString_eq_ok_iff.2 hasserted.target
    obtain ⟨s₂, h₂⟩ := optionalString_eq_ok_iff.2 hasserted.serviceVersion
    obtain ⟨s₃, h₃⟩ := optionalString_eq_ok_iff.2 hasserted.method
    have h₄ : optionalString (.string types : Value ο) = .ok types := rfl
    have hservicePath : ∃ s, servicePath s₁ attachments = .ok s :=
      servicePath_eq_ok_iff.2 fun hempty => hasserted.path (h₁.trans (by rw [hempty]))
    obtain ⟨path, hpath⟩ := hservicePath
    obtain ⟨intf, hinterface⟩ := (attachmentString_eq_ok_iff path).2 hasserted.interface
    obtain ⟨group, hgroup⟩ := (attachmentString_eq_ok_iff []).2 hasserted.group
    simp only [buildServerSidePackageBody, h₀, h₁, h₂, h₃, h₄, hpath, hinterface, hgroup, bind, Except.bind]
    exact ⟨_, rfl⟩

def NeverFails {α : Type} (x : Except (Fault ο) α) : Prop := ∀ e, x ≠ .error (.error e)

namespace NeverFails

variable {α β : Type}

theorem ok (a : α) : NeverFails (.ok a : Except (Fault ο) α) := nofun

theorem bind {x : Except (Fault ο) α} {f : α → Except (Fault ο) β} (hx : NeverFails x)
    (hf : ∀ a, NeverFails (f a)) : NeverFails (x >>= f) := by
  intro e he
  cases x with
  | error fault =>
    cases he
    exact hx e rfl
  | ok a => exact hf a e he

theorem asString (v : Value ο) : NeverFails v.asString := by
  cases v <;> exact nofun

theorem optionalString (v : Value ο) : NeverFails (optionalString v) := by
  unfold Dubbo.optionalString
  split_ifs
  · exact ok _
  · exact asString v

theorem servicePath (path : Str) (attachments : FiniteMap Str (Value ο)) :
    NeverFails (servicePath path attachments) := by
  unfold Dubbo.servicePath
  split_ifs
  · split
    · split_ifs
      · exact ok _
      · exact bind (asString _) fun s => ok _
    · exact ok _
  · exact ok _

theorem attachmentString (key : Str) (attachments : FiniteMap Str (Value ο)) (default : Str) :
    NeverFails (attachmentString key attachments default) := by
  unfold Dubbo.attachmentString
  split
  · exact asString _
  · exact ok _

theorem buildServerSidePackageBody (v₀ v₁ v₂ v₃ v₄ : Value ο) (args : List (Value ο))
    (attachments : FiniteMap Str (Value ο)) :
    NeverFails (buildServerSidePackageBody v₀ v₁ v₂ v₃ v₄ args attachments) :=
  bind (optionalString _) fun _ => bind (optionalString _) fun _ => bind (optionalString _) fun _ =>
    bind (optionalString _) fun _ => bind (optionalString _) fun _ => bind (servicePath _ _) fun _ =>
    bind (attachmentString _ _ _) fun _ => bind (attachmentString _ _ _) fun _ => ok _

end NeverFails

theorem bind_eq_panic {α β : Type} {x : Except (Fault ο) α} {f : α → Except (Fault ο) β} {p : Panic}
    (hpanic : x >>= f = .error (.panic p)) : x = .error (.panic p) ∨ ∃ a, x = .ok a ∧ f a = .error (.panic p) := by
  cases x with
  | error fault =>
    cases hpanic
    exact .inl rfl
  | ok a => exact .inr ⟨a, rfl, hpanic⟩

theorem bind_mapError_eq_panic {α β : Type} {x : Except (Err ο) α} {f : α → Except (Fault ο) β} {p : Panic}
    (hpanic : x.mapError Fault.error >>= f = .error (.panic p)) : ∃ a, x = .ok a ∧ f a = .error (.panic p) := by
  cases x with
  | error e => cases hpanic
  | ok a => exact ⟨a, rfl, hpanic⟩

theorem unmarshalRequestBody_panics_iff :
    (∃ p, unmarshalRequestBody h body = .error (.panic p)) ↔ ¬WellTyped h body := by
  constructor
  · rintro ⟨p, hpanic⟩ htyped
    obtain ⟨⟨v₀, d₀⟩, h₀, hpanic⟩ := bind_mapError_eq_panic hpanic
    obtain ⟨⟨v₁, d₁⟩, h₁, hpanic⟩ := bind_mapError_eq_panic hpanic
    obtain ⟨⟨v₂, d₂⟩, h₂, hpanic⟩ := bind_mapError_eq_panic hpanic
    obtain ⟨⟨v₃, d₃⟩, h₃, hpanic⟩ := bind_mapError_eq_panic hpanic
    obtain ⟨⟨v₄, d₄⟩, h₄, hpanic⟩ := bind_mapError_eq_panic hpanic
    have hfive : h.decodeAll [v₀, v₁, v₂, v₃, v₄].length (h.newDecoder body) = .ok ([v₀, v₁, v₂, v₃, v₄], d₄) :=
      Hessian.decodeAll_cons h₀ (Hessian.decodeAll_cons h₁ (Hessian.decodeAll_cons h₂
        (Hessian.decodeAll_cons h₃ (Hessian.decodeAll_cons h₄ rfl))))
    obtain ⟨types, rfl⟩ := htyped.types _ _ _ _ _ ⟨d₄, hfive⟩
    obtain ⟨⟨args, d₅⟩, hargs, hpanic⟩ := bind_mapError_eq_panic hpanic
    obtain ⟨⟨attachments, d₆⟩, hattachments, hpanic⟩ := bind_mapError_eq_panic hpanic
    have htokens := Hessian.length_of_decodeAll hargs
    rw [← htokens] at hargs
    have hlast : h.decodeAll [attachments].length d₅ = .ok ([attachments], d₆) :=
      Hessian.decodeAll_cons hattachments rfl
    have hall := Hessian.decodeAll_trans hfive (Hessian.decodeAll_trans hargs hlast)
    rcases bind_eq_panic hpanic with hentries | ⟨entries, hentries, hbuild⟩
    · unfold entriesOf at hentries
      split at hentries <;> cases hentries
    · obtain ⟨r, hr⟩ := buildServerSidePackageBody_eq_ok_iff.2
        (htyped.fields _ _ _ _ _ _ _ _ ⟨d₆, hall⟩ htokens hentries)
      exact nomatch hbuild.symm.trans hr
  · intro hnot
    by_contra hno
    refine hnot ⟨?_, ?_⟩
    · rintro v₀ v₁ v₂ v₃ v₄ ⟨d, hdecode⟩
      obtain ⟨d₀, h₀, hdecode⟩ := Hessian.decodeAll_succ hdecode
      obtain ⟨d₁, h₁, hdecode⟩ := Hessian.decodeAll_succ hdecode
      obtain ⟨d₂, h₂, hdecode⟩ := Hessian.decodeAll_succ hdecode
      obtain ⟨d₃, h₃, hdecode⟩ := Hessian.decodeAll_succ hdecode
      obtain ⟨d₄, h₄, -⟩ := Hessian.decodeAll_succ hdecode
      cases v₄ with
      | string types => exact ⟨types, rfl⟩
      | _ =>
        refine absurd ⟨.typeAssertion, ?_⟩ hno
        simp only [unmarshalRequestBody, read_of_decode h₀, read_of_decode h₁, read_of_decode h₂,
          read_of_decode h₃, read_of_decode h₄, Value.asString, bind, Except.bind]
    · rintro v₀ v₁ v₂ v₃ types args attachments entries ⟨d, hdecode⟩ htokens hentries
      by_contra hasserted
      have hlength : ([v₀, v₁, v₂, v₃, .string types] ++ (args ++ [attachments])).length =
          5 + (args.length + 1) := by
        simp
        omega
      rw [hlength] at hdecode
      have hbuild := unmarshalRequestBody_of_decodeAll htokens hdecode
      rw [hentries] at hbuild
      cases hresult : buildServerSidePackageBody v₀ v₁ v₂ v₃ (.string types) args
          (toMapStringInterface (entries ++ [(.string dubboVersionKey, v₀)])) with
      | ok r => exact hasserted (buildServerSidePackageBody_eq_ok_iff.1 ⟨r, hresult⟩)
      | error fault =>
        cases fault with
        | panic p => exact hno ⟨p, hbuild.trans hresult⟩
        | error e => exact NeverFails.buildServerSidePackageBody _ _ _ _ _ _ _ e hresult

inductive RequestOutcome : Decoded ο ω → Prop
  | request (request : Request (Invocation ο)) (n : ℕ) : RequestOutcome (some (.request request), n, none)
  | error (e : Err ο) : RequestOutcome (none, 0, some e)
  | incomplete (n : ℕ) : RequestOutcome (none, n, none)

theorem requestOutcome_failed (header : DubboHeader) (e : Err ο) : RequestOutcome (ω := ω) (failed header e) := by
  unfold failed
  split
  · exact .incomplete 0
  · exact .incomplete _
  · exact .error e

def HasRequest (data : Str) : Prop :=
  Legal data ∧ headerLength + (headerOf data).bodyLen ≤ data.length ∧ (headerOf data).isHeartBeat = false

theorem type_headerOf (hflag : hasRequestFlag data = true) : (headerOf data).type ∈ requestTypes := by
  have htype : (headerOf data).type = packageType (data.getD 2 0) (data.getD 3 0) 0 := by
    unfold headerOf parseHeader
    rw [getD_take (by decide), getD_take (by decide)]
    rfl
  rw [htype]
  exact packageType_of_request (of_decide_eq_true hflag) _

theorem decode_of_hasRequest (hflag : hasRequestFlag data = true) (hrequest : HasRequest data) :
    decode h table data =
      match unmarshalRequestBody h (bodyOf data) with
      | .error (.panic p) => .error p
      | .error (.error e) => .ok (failed (headerOf data) e)
      | .ok r => .ok (some (.request (requestMessage (headerOf data) r.1 r.2)),
          headerLength + (headerOf data).bodyLen, none) := by
  obtain ⟨hlegal, hdata, hheartbeat⟩ := hrequest
  rw [decode_of_complete hlegal hdata, hflag]
  exact outcome_of_request (type_headerOf hflag) hheartbeat (bodyOf data)

theorem decode_of_not_hasRequest (hflag : hasRequestFlag data = true) (hrequest : ¬HasRequest data) :
    ∃ r, decode h table data = .ok r ∧ RequestOutcome r := by
  rcases decode_cases h table data with ⟨n, hshort⟩ | ⟨e, hillegal⟩ | ⟨hlegal, hdata, hcomplete⟩
  · exact ⟨_, hshort, .incomplete n⟩
  · exact ⟨_, hillegal, .error e⟩
  · have hheartbeat : (headerOf data).isHeartBeat = true := by
      by_contra hnot
      exact hrequest ⟨hlegal, hdata, by simpa using hnot⟩
    rw [hcomplete, hflag]
    obtain ⟨req, houtcome⟩ : ∃ req, outcome h table true (headerOf data) (bodyOf data) =
        .ok (some (.request req), headerLength + (headerOf data).bodyLen, none) :=
      outcome_of_heartbeat (type_headerOf hflag) hheartbeat _
    exact ⟨_, houtcome, .request req _⟩

/-- The server makes a request, an error or the need for more bytes of bytes with the flag of requests, exactly if
they are not a request whose values are of other types than it expects. -/
theorem decode_request_iff {table : PendingTable ο ω} {data : Str} (hflag : hasRequestFlag data = true) :
    (∃ r, decode h table data = .ok r ∧ RequestOutcome r) ↔ (HasRequest data → WellTyped h (bodyOf data)) := by
  by_cases hrequest : HasRequest data
  · have hpanics : (∃ p, unmarshalRequestBody h (bodyOf data) = .error (.panic p)) ↔ ¬WellTyped h (bodyOf data) :=
      unmarshalRequestBody_panics_iff
    rw [decode_of_hasRequest hflag hrequest]
    constructor
    · rintro ⟨r, hr, -⟩ -
      by_contra hnot
      obtain ⟨p, hp⟩ := hpanics.2 hnot
      rw [hp] at hr
      cases hr
    · intro htyped
      rcases hbody : unmarshalRequestBody h (bodyOf data) with (p | e) | r
      · exact absurd (htyped hrequest) (hpanics.1 ⟨p, hbody⟩)
      · exact ⟨_, rfl, requestOutcome_failed _ e⟩
      · exact ⟨_, rfl, .request _ _⟩
  · exact ⟨fun _ hhas => absurd hhas hrequest, fun _ => decode_of_not_hasRequest hflag hrequest⟩

namespace RoundTrip

def bytes : Str := frame (flagRequest ||| flagTwoWay ||| sHessian2) 0 1
  ((marshalRequest plain service request).toOption.getD [])

def nils : Str := frame (flagRequest ||| flagTwoWay ||| sHessian2) 0 1 [78, 78, 78, 78, 78]

end RoundTrip

open RoundTrip in
theorem bytes_decoded : ∃ r, decode plain .empty bytes = .ok r ∧ RequestOutcome r := by
  refine (decode_request_iff rfl).2 fun _ => ?_
  by_contra hnot
  obtain ⟨p, hpanic⟩ := unmarshalRequestBody_panics_iff.2 hnot
  have hbody : (unmarshalRequestBody plain (bodyOf bytes)).isOk = true := by decide +kernel
  rw [hpanic] at hbody
  cases hbody

open RoundTrip in
theorem nils_panic : hasRequestFlag nils = true ∧ decode plain .empty nils = .error .typeAssertion :=
  ⟨rfl, rfl⟩

end DubboGo.Dubbo
