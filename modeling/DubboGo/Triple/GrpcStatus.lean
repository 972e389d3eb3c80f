import DubboGo.Triple.Codec

/-!
# Errors in gRPC trailers

`grpcErrorToTrailer` and `grpcErrorFromTrailer` of `protocol_grpc.go`: an error goes over the gRPC
wire as a numeric status, a percent-encoded message and, in base64, a protobuf `Status` that
overrides both.  The protobuf codec is a parameter.
-/

namespace DubboGo.Triple

open Go

def grpcHeaderStatus : Str := str "Grpc-Status"
def grpcHeaderMessage : Str := str "Grpc-Message"
def grpcHeaderDetails : Str := str "Grpc-Status-Details-Bin"

structure Status where
  code : Int32
  message : Str
  details : List Any

/-! ## Percent-encoding -/

/-- The bytes that are escaped in a `Grpc-Message`. -/
def percentEscaped (c : UInt8) : Bool := c < 32 ∨ 126 < c ∨ c = 37

def grpcPercentEncode (msg : Str) : Str :=
  msg.flatMap fun c => if percentEscaped c then 37 :: hexByte c else [c]

def runeError : Str := [0xef, 0xbf, 0xbd]

def grpcPercentDecode : Str → Str
  | c :: a :: b :: rest =>
    if c = 37 then
      match parseUint [a, b] 16 8 with
      | .ok v => UInt8.ofNat v :: grpcPercentDecode rest
      | .error _ => runeError ++ grpcPercentDecode rest
    else c :: grpcPercentDecode (a :: b :: rest)
  | rest => rest

/-! ## Errors and trailers -/

def grpcStatusFromError (err : GoErr) : Status :=
  match asError err with
  | some tripleErr =>
    ⟨tripleErr.code.toInt32, tripleErr.message, tripleErr.details.map ErrorDetail.pb⟩
  | none => ⟨codeUnknown.toInt32, err.text Error.render, []⟩

def setGrpcStatus (trailer : Header) (status message : Str) : Header :=
  setHeaderCanonical (setHeaderCanonical trailer grpcHeaderStatus status) grpcHeaderMessage message

def grpcErrorToTrailer (trailer : Header) (protobuf : Codec Status) (err : Option GoErr) : Header :=
  match err with
  | none => setGrpcStatus trailer (str "0") []
  | some err =>
    let status := grpcStatusFromError err
    match protobuf.marshal status with
    | .error binErr =>
      setGrpcStatus trailer (decimal codeInternal.toNat)
        (grpcPercentEncode (str "marshal protobuf status: " ++ binErr.text Error.render))
    | .ok bin =>
      let trailer := match asError err with
        | some tripleErr => mergeHeaders trailer tripleErr.metadata
        | none => trailer
      setHeaderCanonical
        (setGrpcStatus trailer (itoa status.code.toInt) (grpcPercentEncode status.message))
        grpcHeaderDetails (encodeBinaryHeader bin)

def errTrailersWithoutGRPCStatus : GoErr :=
  .plain (str "gRPC protocol error: no " ++ grpcHeaderStatus ++ str " trailer")

/-- The details header of a trailer, applied to the error `retErr` of the other two. -/
def grpcApplyDetails (protobuf : Codec Status) (retErr : Error) (encoded : Str) : Error :=
  if encoded = [] then retErr
  else
    match decodeBinaryHeader encoded with
    | none =>
      -- the offset that the text of the inner error ends in is left out
      errorfWrap codeInternal (str "server returned invalid grpc-status-details-bin trailer: ")
        (.plain (str "illegal base64 data at input byte"))
    | some bin =>
      match protobuf.unmarshal bin with
      | .error e =>
        errorfWrap codeInternal (str "server returned invalid protobuf for error details: ") e
      | .ok status =>
        { retErr with
          details := retErr.details ++ status.details.map fun d => ⟨d, []⟩
          code := status.code.toUInt32
          err := some (.plain status.message) }

def grpcErrorFromTrailer (protobuf : Codec Status) (trailer : Header) : Option Error :=
  let codeHeader := getHeaderCanonical trailer grpcHeaderStatus
  if codeHeader = [] then some (newError codeInternal (some errTrailersWithoutGRPCStatus))
  else if codeHeader = str "0" then none
  else
    match parseUint codeHeader 10 32 with
    | .error _ =>
      some (errorf codeInternal (str "gRPC protocol error: invalid error code " ++ quote codeHeader))
    | .ok code =>
      let message := grpcPercentDecode (getHeaderCanonical trailer grpcHeaderMessage)
      some (grpcApplyDetails protobuf (newWireError (UInt32.ofNat code) (some (.plain message)))
        (getHeaderCanonical trailer grpcHeaderDetails))

/-! ## What the trailers say -/

section Trailers

variable {trailer : Header} {protobuf : Codec Status} {err : GoErr}

theorem codeOf_eq_status (err : GoErr) : (grpcStatusFromError err).code = (codeOf err).toInt32 := by
  unfold grpcStatusFromError codeOf
  cases asError err <;> rfl

theorem grpcStatus_toTrailer :
    getHeaderCanonical (grpcErrorToTrailer trailer protobuf (some err)) grpcHeaderStatus =
      match protobuf.marshal (grpcStatusFromError err) with
      | .error _ => decimal codeInternal.toNat
      | .ok _ => itoa (codeOf err).toInt32.toInt := by
  have h1 : grpcHeaderStatus ≠ grpcHeaderMessage := by decide
  have h2 : grpcHeaderStatus ≠ grpcHeaderDetails := by decide
  rw [← codeOf_eq_status]
  unfold grpcErrorToTrailer
  dsimp only
  cases protobuf.marshal (grpcStatusFromError err) with
  | error e =>
    dsimp only
    rw [setGrpcStatus, getHeaderCanonical_set_of_ne _ h1, getHeaderCanonical_set_self]
  | ok bin =>
    rw [getHeaderCanonical_set_of_ne _ h2, setGrpcStatus, getHeaderCanonical_set_of_ne _ h1,
      getHeaderCanonical_set_self]

theorem grpcErrorFromTrailer_eq_none_iff :
    grpcErrorFromTrailer protobuf trailer = none ↔
      getHeaderCanonical trailer grpcHeaderStatus = str "0" := by
  unfold grpcErrorFromTrailer
  dsimp only
  split_ifs with h1 h2
  · rw [h1]
    decide
  · exact ⟨fun _ => h2, fun _ => rfl⟩
  · split <;> simp [h2]

theorem toInt32_eq_zero_iff (c : Code) : c.toInt32.toInt = 0 ↔ c = 0 := by
  constructor
  · intro h
    have h' : c.toInt32 = 0 := Int32.toInt_inj.1 h
    rw [← UInt32.toUInt32_toInt32 c, h']
    rfl
  · rintro rfl
    rfl

/-- An error is lost exactly if its code is 0 and its status can be marshalled. -/
theorem grpc_error_lost_iff : grpcErrorFromTrailer protobuf (grpcErrorToTrailer trailer protobuf (some err)) = none ↔
      codeOf err = 0 ∧ ∃ bin, protobuf.marshal (grpcStatusFromError err) = .ok bin := by
  rw [grpcErrorFromTrailer_eq_none_iff, grpcStatus_toTrailer]
  cases protobuf.marshal (grpcStatusFromError err) with
  | error e => simp [show decimal codeInternal.toNat ≠ str "0" by decide]
  | ok bin =>
    have hzero : str "0" = [48] := by decide
    simp only [hzero, itoa_eq_zero_iff, toInt32_eq_zero_iff, Except.ok.injEq, exists_eq', and_true]

def Inverts (protobuf : Codec Status) (status : Status) : Prop :=
  ∃ bin, protobuf.marshal status = .ok bin ∧ protobuf.unmarshal bin = .ok status

theorem grpcApplyDetails_of_status {retErr : Error} {bin : Str} {stat : Status} (hne : bin ≠ [])
    (hbin : protobuf.unmarshal bin = .ok stat) (hd : retErr.details = []) :
    SameError (grpcApplyDetails protobuf retErr (encodeBinaryHeader bin))
      { newError stat.code.toUInt32 (some (.plain stat.message)) with
        details := stat.details.map fun d => ⟨d, []⟩ } := by
  unfold grpcApplyDetails
  rw [if_neg (mt (encodeBinaryHeader_eq_nil_iff bin).1 hne), decodeBinaryHeader_encodeBinaryHeader]
  dsimp only
  rw [hbin]
  exact ⟨rfl, rfl, by rw [hd]; rfl⟩

theorem grpcDetails_toTrailer {bin : Str} (hm : protobuf.marshal (grpcStatusFromError err) = .ok bin) :
    getHeaderCanonical (grpcErrorToTrailer trailer protobuf (some err)) grpcHeaderDetails =
      encodeBinaryHeader bin := by
  unfold grpcErrorToTrailer
  dsimp only
  rw [hm, getHeaderCanonical_set_self]

theorem grpcErrorFromTrailer_of_decimal (protobuf : Codec Status) {n : ℕ} (hpos : n ≠ 0)
    (hlt : n < 2 ^ 32) (hstatus : getHeaderCanonical trailer grpcHeaderStatus = decimal n) :
    ∃ msg, grpcErrorFromTrailer protobuf trailer =
      some (grpcApplyDetails protobuf (newWireError (UInt32.ofNat n) (some (.plain msg)))
        (getHeaderCanonical trailer grpcHeaderDetails)) := by
  have hzero : str "0" = [48] := by decide
  unfold grpcErrorFromTrailer
  rw [hstatus, if_neg (decimal_ne_nil n), hzero, if_neg (mt (decimal_eq_zero_iff n).1 hpos), parseUint_decimal hlt]
  exact ⟨_, rfl⟩

theorem toInt32_toInt_of_lt {c : Code} (h : c.toNat < 2 ^ 31) : c.toInt32.toInt = (c.toNat : ℤ) := by
  show c.toBitVec.toInt = _
  rw [BitVec.toInt_eq_toNat_of_lt]
  · rfl
  · show 2 * c.toNat < _
    omega

theorem grpc_roundtrip (trailer : Header) {e : Error} (hpos : e.code ≠ 0)
    (hlt : e.code.toNat < 2 ^ 31) (hinv : Inverts protobuf (grpcStatusFromError e.toGo))
    (hempty : protobuf.unmarshal [] = .ok ⟨0, [], []⟩) :
    ∃ e', grpcErrorFromTrailer protobuf (grpcErrorToTrailer trailer protobuf (some e.toGo)) =
      some e' ∧ SameError e' e := by
  obtain ⟨bin, hm, hu⟩ := hinv
  have hne : bin ≠ [] := by
    rintro rfl
    rw [hu] at hempty
    apply hpos
    have h0 : e.code.toInt32 = 0 := congrArg Status.code (Except.ok.inj hempty)
    rw [← UInt32.toUInt32_toInt32 e.code, h0]
    rfl
  have hstatus : getHeaderCanonical (grpcErrorToTrailer trailer protobuf (some e.toGo))
      grpcHeaderStatus = decimal e.code.toNat := by
    rw [grpcStatus_toTrailer, hm]
    show itoa e.code.toInt32.toInt = _
    rw [toInt32_toInt_of_lt hlt, itoa_natCast]
  have hnat : e.code.toNat ≠ 0 := fun h => hpos (UInt32.toNat_inj.1 h)
  obtain ⟨msg, hfrom⟩ := grpcErrorFromTrailer_of_decimal protobuf hnat (by omega) hstatus
  refine ⟨_, hfrom, ?_⟩
  rw [grpcDetails_toTrailer hm]
  refine (grpcApplyDetails_of_status hne hu rfl).trans ⟨?_, rfl, ?_⟩
  · exact UInt32.toUInt32_toInt32 e.code
  · show ((e.details.map ErrorDetail.pb).map fun d => (⟨d, []⟩ : ErrorDetail)).map _ = _
    rw [List.map_map, List.map_map]
    rfl

end Trailers

end DubboGo.Triple
