import Mathlib.Algebra.Ring.Nat
import Mathlib.Order.Bounds.Basic
import RtcTunnel.Abi.Scratch
import RtcTunnel.Core.Address
import RtcTunnel.Driver.Connect

/-!
# From the relay parameters to the tunnel

What `validateRelayParams` accepts is given its defaults by `openConnection`, cut into words and
bytes by `createTunnel`, and read back by `rtc_tunnel_create`.
-/

namespace RtcTunnel.Abi

open RtcTunnel.Core
open RtcTunnel.Direct
open RtcTunnel.Base (bind_ok okValue eq_ok_okValue)
open Instance (jsNumber)

set_option autoImplicit false

/-- The functions of the language. A whole number is written in decimal digits. -/
structure Js where
  toLowerCase : Text → Text
  numberText : F64 → Text
  number : Text → F64
  numberText_ofInt : ∀ n : Nat, n ≤ 9007199254740991 →
    numberText (.ofInt n) = Nat.toDigits 10 n

/-- What is thrown, with its message. That of a typed array out of bounds is the engine's own. -/
inductive HostError where
  | typeError (message : Text)
  | rangeError (message : Text)
  | error (message : Text)
  | arrayBounds
  deriving DecidableEq

def throwIf (bad : Bool) (error : HostError) : Except HostError Unit :=
  if bad then .error error else .ok ()

theorem throwIf_eq_ok {bad : Bool} {error : HostError} :
    throwIf bad error = .ok () ↔ bad = false := by
  cases bad <;> simp [throwIf]

structure RelayConnectionParams where
  address : Text
  port : F64
  iceUfrag : Text
  icePwd : Text
  fingerprint : Text
  fingerprintAlgorithm : Option Text
  sctpPort : Option F64
  streamId : Option F64
  ordered : Option Bool
  maxRetransmits : Option F64
  handshakeTimeoutMs : Option F64

def isHexDigit (c : Char) : Bool := ('0' ≤ c && c ≤ '9') || ('a' ≤ c && c ≤ 'f')

/-- `/^([0-9a-f]{2}:){n}[0-9a-f]{2}$/` -/
def hexBytes : Nat → Text → Bool
  | 0, [a, b] => isHexDigit a && isHexDigit b
  | n + 1, a :: b :: ':' :: rest => isHexDigit a && isHexDigit b && hexBytes n rest
  | _, _ => false

def sha256Fingerprint (text : Text) : Bool := hexBytes 31 text

section Validator

variable (js : Js)

/-- The range checks, which differ in their range and their message. -/
def requireInteger (low high : Nat) (message : String) (x : F64) : Except HostError Unit :=
  throwIf (!x.isWhole || x.lt (.ofInt low) || (F64.ofInt high).lt x)
    (.rangeError (message.toList ++ js.numberText x))

/-- `Number.isFinite(x) && x > 0` -/
def requireTimeout (x : F64) : Except HostError Unit :=
  throwIf (!(x.isFinite && x.isPositive))
    (.rangeError ("handshakeTimeoutMs must be a finite number > 0, got ".toList ++ js.numberText x))

/-- A check of a field that may be left out. -/
def whenGiven {α : Type} (check : α → Except HostError Unit) : Option α → Except HostError Unit
  | none => .ok ()
  | some a => check a

def validateRelayParams (params : RelayConnectionParams) : Except HostError Unit := do
  throwIf params.address.isEmpty (.typeError "relay address must be a non-empty string".toList)
  requireInteger js 1 65535 "relay port must be an integer in 1..=65535, got " params.port
  throwIf params.iceUfrag.isEmpty (.typeError "iceUfrag must be non-empty".toList)
  throwIf params.icePwd.isEmpty (.typeError "icePwd must be non-empty".toList)
  throwIf (!sha256Fingerprint (js.toLowerCase params.fingerprint))
    (.typeError "fingerprint must be 32 colon-separated hex SHA-256 bytes".toList)
  let algorithm := params.fingerprintAlgorithm.getD "sha-256".toList
  throwIf (algorithm ≠ "sha-256".toList)
    (.typeError ("fingerprintAlgorithm must be 'sha-256', got '".toList ++ algorithm ++ "'".toList))
  whenGiven (requireInteger js 1 65535 "sctpPort must be an integer in 1..=65535, got ")
    params.sctpPort
  whenGiven (requireInteger js 0 65534 "streamId must be an integer in 0..=65534, got ")
    params.streamId
  whenGiven (requireInteger js 0 65535 "maxRetransmits must be an integer in 0..=65535, got ")
    params.maxRetransmits
  whenGiven (requireTimeout js) params.handshakeTimeoutMs

end Validator

/-- A whole number in a range. -/
def Within (low high : Nat) (x : F64) : Prop := ∃ n : Nat, low ≤ n ∧ n ≤ high ∧ x = .ofInt n

/-- A finite number above zero. -/
def Timeout (x : F64) : Prop := ∃ q : Rat, 0 < q ∧ x = .finite q

/-- What the validator accepts. -/
structure Accepted (js : Js) (params : RelayConnectionParams) : Prop where
  address : params.address ≠ []
  port : Within 1 65535 params.port
  iceUfrag : params.iceUfrag ≠ []
  icePwd : params.icePwd ≠ []
  fingerprint : sha256Fingerprint (js.toLowerCase params.fingerprint) = true
  fingerprintAlgorithm : ∀ a ∈ params.fingerprintAlgorithm, a = "sha-256".toList
  sctpPort : ∀ x ∈ params.sctpPort, Within 1 65535 x
  streamId : ∀ x ∈ params.streamId, Within 0 65534 x
  maxRetransmits : ∀ x ∈ params.maxRetransmits, Within 0 65535 x
  handshakeTimeoutMs : ∀ x ∈ params.handshakeTimeoutMs, Timeout x

theorem within_iff {low high : Nat} {x : F64} :
    (!x.isWhole || x.lt (.ofInt low) || (F64.ofInt high).lt x) = false ↔ Within low high x := by
  constructor
  · intro h
    simp only [Bool.or_eq_false_iff, Bool.not_eq_false'] at h
    obtain ⟨⟨hw, hlow⟩, hhigh⟩ := h
    rcases x with _ | _ | q
    · cases hw
    · cases hw
    · have hq : q = ((q.floor : Int) : Rat) := (F64.floor_of_isWhole.mp hw).symm
      have hx : F64.finite q = .ofInt q.floor := congrArg F64.finite hq
      rw [hx] at hlow hhigh ⊢
      have hl := F64.ofInt_le.mp (F64.le_of_not_lt (by simp [F64.ofInt]) (by simp [F64.ofInt]) hlow)
      have hh := F64.ofInt_le.mp (F64.le_of_not_lt (by simp [F64.ofInt]) (by simp [F64.ofInt]) hhigh)
      refine ⟨q.floor.toNat, by omega, by omega, ?_⟩
      rw [Int.toNat_of_nonneg (by omega)]
  · rintro ⟨n, hl, hh, rfl⟩
    have hw : (F64.ofInt n).isWhole = true := by
      rw [F64.ofInt, F64.floor_of_isWhole, Rat.floor_intCast]
    have hlow : (F64.ofInt low).le (.ofInt n) = true := F64.ofInt_le.mpr (by omega)
    have hhigh : (F64.ofInt n).le (.ofInt high) = true := F64.ofInt_le.mpr (by omega)
    simp [hw, F64.lt, hlow, hhigh]

theorem timeout_iff {x : F64} : (!(x.isFinite && x.isPositive)) = false ↔ Timeout x := by
  simp only [Bool.not_eq_false', Bool.and_eq_true]
  constructor
  · rintro ⟨hf, hp⟩
    rcases x with _ | _ | q
    · cases hf
    · cases hf
    · exact ⟨q, of_decide_eq_true hp, rfl⟩
  · rintro ⟨q, hq, rfl⟩
    exact ⟨rfl, decide_eq_true hq⟩

theorem whenGiven_eq_ok {α : Type} {check : α → Except HostError Unit} {P : α → Prop}
    (h : ∀ a, check a = .ok () ↔ P a) (o : Option α) :
    whenGiven check o = .ok () ↔ ∀ a ∈ o, P a := by
  cases o with
  | none => simp [whenGiven]
  | some a => simp [whenGiven, h]

theorem andThen_eq_ok {x : Except HostError Unit} {f : Unit → Except HostError Unit} :
    (x >>= f) = .ok () ↔ x = .ok () ∧ f () = .ok () := by
  cases x with
  | error e => exact ⟨fun h => (by cases h), fun h => (by cases h.1)⟩
  | ok u => exact ⟨fun h => ⟨rfl, h⟩, fun h => h.2⟩

/-- **The validator accepts what its checks ask for.** -/
theorem validateRelayParams_eq_ok {js : Js} {params : RelayConnectionParams} :
    validateRelayParams js params = .ok () ↔ Accepted js params := by
  have hinteger : ∀ low high message x,
      requireInteger js low high message x = .ok () ↔ Within low high x :=
    fun low high message x => throwIf_eq_ok.trans within_iff
  have htimeout : ∀ x, requireTimeout js x = .ok () ↔ Timeout x :=
    fun x => throwIf_eq_ok.trans timeout_iff
  have halgorithm : params.fingerprintAlgorithm.getD "sha-256".toList = "sha-256".toList ↔
      ∀ a ∈ params.fingerprintAlgorithm, a = "sha-256".toList := by
    cases params.fingerprintAlgorithm <;> simp
  unfold validateRelayParams
  simp only [andThen_eq_ok, throwIf_eq_ok, hinteger, whenGiven_eq_ok (hinteger _ _ _),
    whenGiven_eq_ok htimeout, List.isEmpty_eq_false_iff, Bool.not_eq_false',
    decide_eq_false_iff_not, not_not, halgorithm]
  exact ⟨fun ⟨h1, h2, h3, h4, h5, h6, h7, h8, h9, h10⟩ =>
      ⟨h1, h2, h3, h4, h5, h6, h7, h8, h9, h10⟩,
    fun h => ⟨h.address, h.port, h.iceUfrag, h.icePwd, h.fingerprint, h.fingerprintAlgorithm,
      h.sctpPort, h.streamId, h.maxRetransmits, h.handshakeTimeoutMs⟩⟩

/-- What a call of `openConnection` takes from its runtime, its options and its context. -/
structure OpenCall where
  endpointAddress : Text
  endpointPort : F64
  contextAddress : Option Text
  insecureSkipFingerprintVerification : Bool
  nowMs : F64

structure TunnelEngineConfig where
  remoteAddress : Text
  remotePort : F64
  localAddress : Text
  localPort : F64
  iceUfrag : Text
  icePwd : Text
  fingerprint : Text
  fingerprintAlgorithm : Text
  sctpPort : F64
  streamId : F64
  ordered : Bool
  maxRetransmits : F64
  handshakeTimeoutMs : F64
  disableFingerprintVerification : Bool
  nowMs : F64

def splitHostMessage (address : Text) : Text :=
  (if address.head? = some '[' then "expected a host:port, got '" else
    "expected an IPv4 host:port, got '").toList ++ address ++ "'".toList

def localEndpoint (js : Js) (call : OpenCall) : Except HostError (Text × F64) :=
  match call.contextAddress with
  | none => .ok (call.endpointAddress, call.endpointPort)
  | some [] => .ok (call.endpointAddress, call.endpointPort)
  | some address =>
    match Driver.splitHost address with
    | some (host, port) => .ok (host, js.number port)
    | none => .error (.error (splitHostMessage address))

/-- The configuration that `openConnection` gives to `runtime.createEngine`. -/
def engineConfig (js : Js) (call : OpenCall) (params : RelayConnectionParams) :
    Except HostError TunnelEngineConfig := do
  let (localAddress, localPort) ← localEndpoint js call
  pure
    { remoteAddress := params.address
      remotePort := params.port
      localAddress := localAddress
      localPort := localPort
      iceUfrag := params.iceUfrag
      icePwd := params.icePwd
      fingerprint := params.fingerprint
      fingerprintAlgorithm := params.fingerprintAlgorithm.getD "sha-256".toList
      sctpPort := params.sctpPort.getD (.ofInt 5000)
      streamId := params.streamId.getD (.ofInt 0)
      ordered := params.ordered.getD false
      maxRetransmits := params.maxRetransmits.getD (.ofInt 0)
      handshakeTimeoutMs := params.handshakeTimeoutMs.getD (.ofInt 30000)
      disableFingerprintVerification := call.insecureSkipFingerprintVerification
      nowMs := call.nowMs }

def socketAddr (js : Js) (host : Text) (port : F64) : Text :=
  if host.contains ':' then "[".toList ++ host ++ "]:".toList ++ js.numberText port
  else host ++ ":".toList ++ js.numberText port

/-- `encoder.encode(value)` -/
def encode (value : Text) : Bytes := (String.ofList value).toUTF8.data.toList

/-- The bytes of the argument behind the pointer and the length of `withCString`, of which the
length crosses as a `usize`. -/
def withCString (module : Answers) (value : Text) : Except HostError (Option Bytes) :=
  let data := encode value
  let ptr := jsNumber (rtcTunnelAlloc module.alloc (abiWord data.length))
  if 0 ≤ ptr ∧ ptr + data.length ≤ module.byteLength then
    .ok (if ptr = 0 then none else some (data.take (abiWord data.length).toNat))
  else .error .arrayBounds

/-- A number given for an `i32` or a `u32`: truncated, and cut to 32 bits. -/
def toWord : F64 → UInt32
  | .finite q => abiWord (if 0 ≤ q then q.floor else -(-q).floor)
  | _ => 0

/-- The arguments of `rtc_tunnel_create`. The module answers to one call after the other. -/
def createArgs (js : Js) (answers : Nat → Answers) (config : TunnelEngineConfig) :
    Except HostError CreateArgs := do
  let remote ← withCString (answers 0) (socketAddr js config.remoteAddress config.remotePort)
  let ufrag ← withCString (answers 1) config.iceUfrag
  let pwd ← withCString (answers 2) config.icePwd
  let fingerprint ← withCString (answers 3) config.fingerprint
  let fingerprintAlgorithm ← withCString (answers 4) config.fingerprintAlgorithm
  let «local» ← withCString (answers 5) (socketAddr js config.localAddress config.localPort)
  pure
    { remote := remote
      ufrag := ufrag
      pwd := pwd
      fingerprint := fingerprint
      fingerprintAlgorithm := fingerprintAlgorithm
      «local» := «local»
      sctpPort := toWord config.sctpPort
      streamId := toWord config.streamId
      ordered := if config.ordered then 1 else 0
      maxRetransmits := (toWord config.maxRetransmits).toInt32
      handshakeTimeoutMs := config.handshakeTimeoutMs
      disableFingerprintVerification := if config.disableFingerprintVerification then 1 else 0
      nowMs := config.nowMs }

/-- `rtc_tunnel_last_error_copy` writes nothing to null. -/
def readLastError (module : Answers) (message : Text) : Except HostError Text :=
  let len := (encode message).length
  let ptr := jsNumber (rtcTunnelAlloc module.alloc (abiWord len))
  if len = 0 then .ok "no diagnostic available".toList
  else if ptr = 0 then .ok []
  else if 0 ≤ ptr ∧ ptr + len ≤ module.byteLength then .ok message
  else .error .arrayBounds

def createTunnel (js : Js) (L : Layers) (h : BuildHost) (answers : Nat → Answers)
    (config : TunnelEngineConfig) : Except HostError (TunnelHandle L) := do
  let args ← createArgs js answers config
  match rtcTunnelCreate L h args with
  | .ok handle => pure handle
  | .error message =>
    let diagnostic ← readLastError (answers 6) message.toList
    throw (.error ("rtc_tunnel_create rejected the configuration: ".toList ++ diagnostic))

/-- The tunnel of a connection: what `createRelayConnection` does up to its engine. -/
def openTunnel (js : Js) (L : Layers) (h : BuildHost) (answers : Nat → Answers) (call : OpenCall)
    (params : RelayConnectionParams) : Except HostError (TunnelHandle L) := do
  validateRelayParams js params
  let config ← engineConfig js call params
  createTunnel js L h answers config

/-- The `TunnelConfig` that `Tunnel::new` is given. -/
def tunnelConfig (js : Js) (answers : Nat → Answers) (call : OpenCall)
    (params : RelayConnectionParams) : Option TunnelConfig := do
  let engine ← (engineConfig js call params).toOption
  let args ← (createArgs js answers engine).toOption
  let (config, _) ← (given args).toOption
  some config

/-- The text of an argument that is read back is the text that was handed in. -/
theorem strArg_withCString {module : Answers} {value text : Text} {arg : Option Bytes}
    (hw : withCString module value = .ok arg) (ha : strArg arg = some text) : text = value := by
  unfold withCString at hw
  dsimp only at hw
  split at hw
  · rename_i hroom
    cases hw
    split at ha
    · cases ha
    · rename_i hptr
      have hbytes : (encode value).length < 4294967296 := by
        have := module.byteLength_le
        omega
      have hword : (abiWord (encode value).length).toNat = (encode value).length := by
        rw [Scratch.toNat_abiWord, Nat.mod_eq_of_lt hbytes]
      rw [hword, List.take_length, strArg, Option.bind_some, encode, Array.toArray_toList,
        String.toUTF8_eq_toByteArray, String.toByteArray_ofList, List.utf8Decode?_utf8Encode] at ha
      exact (Option.some.inj ha).symm
  · cases hw

theorem addrArg_withCString {module : Answers} {value : Text} {arg : Option Bytes}
    {addr : SocketAddr} (hw : withCString module value = .ok arg) (ha : addrArg arg = some addr) :
    SocketAddr.parse value = some addr := by
  obtain ⟨text, ht, hp⟩ := Option.bind_eq_some_iff.mp ha
  rw [← strArg_withCString hw ht]
  exact hp

theorem parse_socketAddr (js : Js) (ip : IpAddr) (port : UInt16) :
    SocketAddr.parse (socketAddr js ip.render (.ofInt port.toNat)) = some ⟨ip, port, 0⟩ := by
  have hport : port.toNat < 65536 := port.toNat_lt
  rw [socketAddr, js.numberText_ofInt _ (by omega)]
  exact parseCandidateAddr_render ip port

theorem toWord_ofInt (n : Nat) : toWord (.ofInt n) = abiWord n := by
  have hn : (0 : Rat) ≤ ((n : Int) : Rat) := by simp
  rw [F64.ofInt, toWord, if_pos hn, Rat.floor_intCast]

/-- A number in a range of sixteen bits is not cut, -/
theorem Within.toWord {low high : Nat} {x : F64} (h : Within low high x) (hh : high ≤ 65535) :
    (Abi.toWord x).toNat ≤ 65535 ∧ x = .ofInt (Abi.toWord x).toUInt16.toNat := by
  obtain ⟨n, _, hn, rfl⟩ := h
  have hword : (Abi.toWord (.ofInt n)).toNat = n := by
    rw [toWord_ofInt, Scratch.toNat_abiWord]
    omega
  rw [UInt32.toNat_toUInt16, hword]
  refine ⟨by omega, ?_⟩
  rw [Nat.mod_eq_of_lt (by omega)]

/-- and is not negative as an `i32` either. -/
theorem maxRetransmitsArg_toInt32 {w : UInt32} (h : w.toNat ≤ 65535) :
    maxRetransmitsArg w.toInt32 = some w.toUInt16 := by
  have hnat : w.toBitVec.toNat ≤ 65535 := h
  have hlt : 2 * w.toBitVec.toNat < 2 ^ 32 := by omega
  have hint : w.toInt32.toInt = w.toBitVec.toNat := BitVec.toInt_eq_toNat_of_lt hlt
  have hle : (0 : Int32) ≤ w.toInt32 := by
    rw [Int32.le_iff_toInt_le, hint]
    exact Int.natCast_nonneg _
  rw [maxRetransmitsArg, if_pos hle, UInt32.toUInt32_toInt32]

/-- The values that `openConnection` puts in place of what is left out pass their own checks. -/
theorem accepted_defaults {js : Js} {params : RelayConnectionParams} (h : Accepted js params) :
    Within 1 65535 (params.sctpPort.getD (.ofInt 5000)) ∧
      Within 0 65534 (params.streamId.getD (.ofInt 0)) ∧
      Within 0 65535 (params.maxRetransmits.getD (.ofInt 0)) ∧
      Timeout (params.handshakeTimeoutMs.getD (.ofInt 30000)) := by
  have hgiven : ∀ (P : F64 → Prop) (o : Option F64) (d : F64), (∀ x ∈ o, P x) → P d →
      P (o.getD d) := by
    intro P o d ho hd
    cases o with
    | none => exact hd
    | some x => exact ho x rfl
  exact ⟨hgiven _ _ _ h.sctpPort ⟨5000, by omega, by omega, rfl⟩,
    hgiven _ _ _ h.streamId ⟨0, by omega, by omega, rfl⟩,
    hgiven _ _ _ h.maxRetransmits ⟨0, by omega, by omega, rfl⟩,
    hgiven _ _ _ h.handshakeTimeoutMs ⟨30000, by norm_num, rfl⟩⟩

/-- A configuration that carries what the parameters say. -/
structure Carries (params : RelayConnectionParams) (ip : IpAddr) (config : TunnelConfig) :
    Prop where
  remote : ∃ port : UInt16, config.remote = ⟨ip, port, 0⟩ ∧ params.port = .ofInt port.toNat
  iceUfrag : config.iceUfrag = params.iceUfrag
  icePwd : config.icePwd = params.icePwd
  fingerprint : config.remoteFingerprint = params.fingerprint
  fingerprintAlgorithm :
    config.fingerprintAlgorithm = params.fingerprintAlgorithm.getD "sha-256".toList
  sctpPort : params.sctpPort.getD (.ofInt 5000) = .ofInt config.sctpPort.toNat
  streamId : params.streamId.getD (.ofInt 0) = .ofInt config.streamId.toNat
  ordered : config.ordered = params.ordered.getD false
  maxRetransmits : ∃ n : UInt16, config.maxRetransmits = some n ∧
    params.maxRetransmits.getD (.ofInt 0) = .ofInt n.toNat
  handshakeTimeoutMs : IsGreatest {n : Nat |
    (F64.ofInt n).le (params.handshakeTimeoutMs.getD (.ofInt 30000)) = true ∧ n ≤ F64.u64Max}
      config.handshakeTimeoutMs.toNat

/-- The arguments are the fields of the configuration, each behind its conversion. -/
structure Handed (js : Js) (answers : Nat → Answers) (engine : TunnelEngineConfig)
    (args : CreateArgs) : Prop where
  remote : withCString (answers 0) (socketAddr js engine.remoteAddress engine.remotePort) =
    .ok args.remote
  ufrag : withCString (answers 1) engine.iceUfrag = .ok args.ufrag
  pwd : withCString (answers 2) engine.icePwd = .ok args.pwd
  fingerprint : withCString (answers 3) engine.fingerprint = .ok args.fingerprint
  fingerprintAlgorithm :
    withCString (answers 4) engine.fingerprintAlgorithm = .ok args.fingerprintAlgorithm
  sctpPort : args.sctpPort = toWord engine.sctpPort
  streamId : args.streamId = toWord engine.streamId
  ordered : args.ordered = if engine.ordered then 1 else 0
  maxRetransmits : args.maxRetransmits = (toWord engine.maxRetransmits).toInt32
  handshakeTimeoutMs : args.handshakeTimeoutMs = engine.handshakeTimeoutMs
  nowMs : args.nowMs = engine.nowMs

theorem handed_createArgs {js : Js} {answers : Nat → Answers} {engine : TunnelEngineConfig}
    {args : CreateArgs} (ha : createArgs js answers engine = .ok args) :
    Handed js answers engine args := by
  obtain ⟨_, hremote, ha⟩ := bind_ok ha
  obtain ⟨_, hufrag, ha⟩ := bind_ok ha
  obtain ⟨_, hpwd, ha⟩ := bind_ok ha
  obtain ⟨_, hfingerprint, ha⟩ := bind_ok ha
  obtain ⟨_, halgorithm, ha⟩ := bind_ok ha
  obtain ⟨_, _, ha⟩ := bind_ok ha
  cases ha
  exact ⟨hremote, hufrag, hpwd, hfingerprint, halgorithm, rfl, rfl, rfl, rfl, rfl, rfl⟩

/-- **Validated parameters cross unchanged**, the budget as its whole part. -/
theorem carries_of_accepted {js : Js} {answers : Nat → Answers} {call : OpenCall}
    {params : RelayConnectionParams} {ip : IpAddr} {engine : TunnelEngineConfig}
    {args : CreateArgs} {config : TunnelConfig} {localAddr : SocketAddr}
    (hv : Accepted js params) (hip : params.address = ip.render)
    (he : engineConfig js call params = .ok engine) (ha : Handed js answers engine args)
    (hg : given args = .ok (config, localAddr)) : Carries params ip config := by
  obtain ⟨_, _, he⟩ := bind_ok he
  cases he
  obtain ⟨remote, ufrag, pwd, fingerprint, algorithm, haddr, hu, hp, hf, hal, rfl⟩ := given_ok hg
  obtain ⟨hsctp, hid, hmax, htimeout⟩ := accepted_defaults hv
  obtain ⟨_, hport⟩ := hv.port.toWord (by omega)
  have hremote : remote = ⟨ip, (toWord params.port).toUInt16, 0⟩ := by
    have hparsed := addrArg_withCString ha.remote haddr
    dsimp only at hparsed
    rw [hip, hport, parse_socketAddr] at hparsed
    exact (Option.some.inj hparsed).symm
  refine ⟨⟨_, hremote, hport⟩, strArg_withCString ha.ufrag hu, strArg_withCString ha.pwd hp,
    strArg_withCString ha.fingerprint hf, strArg_withCString ha.fingerprintAlgorithm hal,
    ?_, ?_, ?_, ?_, ?_⟩
  · show _ = F64.ofInt args.sctpPort.toUInt16.toNat
    rw [ha.sctpPort]
    exact (hsctp.toWord (by omega)).2
  · show _ = F64.ofInt args.streamId.toUInt16.toNat
    rw [ha.streamId]
    exact (hid.toWord (by omega)).2
  · show decide (args.ordered ≠ 0) = _
    rw [ha.ordered]
    cases params.ordered.getD false <;> simp
  · obtain ⟨hword, hmax⟩ := hmax.toWord (by omega)
    refine ⟨_, ?_, hmax⟩
    show maxRetransmitsArg args.maxRetransmits = _
    rw [ha.maxRetransmits]
    exact maxRetransmitsArg_toInt32 hword
  · obtain ⟨q, hq, hx⟩ := htimeout
    have hpos : (F64.finite q).isPositive = true := decide_eq_true hq
    have hargs : args.handshakeTimeoutMs = .finite q := ha.handshakeTimeoutMs.trans hx
    simp only [configOf, hx, hargs, hpos, if_true]
    exact F64.isGreatest_toU64 hpos

/-- A tunnel that is opened was given the configuration that crossed. -/
theorem opened_new {js : Js} {L : Layers} {h : BuildHost} {answers : Nat → Answers}
    {call : OpenCall} {params : RelayConnectionParams} {handle : TunnelHandle L}
    (ho : openTunnel js L h answers call params = .ok handle) :
    Accepted js params ∧ ∃ engine args config localAddr,
      engineConfig js call params = .ok engine ∧ createArgs js answers engine = .ok args ∧
      given args = .ok (config, localAddr) ∧
      DirectTunnel.new L h config localAddr call.nowMs.maxZero.toU64 = .ok handle.tunnel := by
  obtain ⟨_, hv, ho⟩ := bind_ok ho
  obtain ⟨engine, he, ho⟩ := bind_ok ho
  obtain ⟨args, ha, ho⟩ := bind_ok ho
  have hnow : args.nowMs = call.nowMs := by
    refine (handed_createArgs ha).nowMs.trans ?_
    obtain ⟨_, _, he⟩ := bind_ok he
    cases he
    rfl
  refine ⟨validateRelayParams_eq_ok.mp hv, engine, args, ?_⟩
  split at ho
  · rename_i created hc
    cases ho
    obtain ⟨config, localAddr, hg, hn⟩ := new_of_create hc
    rw [hnow] at hn
    exact ⟨config, localAddr, he, ha, hg, hn⟩
  · obtain ⟨_, _, ho⟩ := bind_ok ho
    cases ho

/-- **An accepted timeout is not expired exactly when it is a millisecond or more.** -/
theorem crosses_unchanged_iff {js : Js} {L : Layers} {h : BuildHost} {answers : Nat → Answers}
    {call : OpenCall} {params : RelayConnectionParams} {ip : IpAddr} {handle : TunnelHandle L}
    (hip : params.address = ip.render)
    (ho : openTunnel js L h answers call params = .ok handle) :
    (∃ config localAddr, tunnelConfig js answers call params = some config ∧
      DirectTunnel.new L h config localAddr call.nowMs.maxZero.toU64 = .ok handle.tunnel ∧
      Carries params ip config ∧ 1 ≤ config.handshakeTimeoutMs.toNat) ↔
    ∀ x ∈ params.handshakeTimeoutMs, (F64.ofInt 1).le x = true := by
  obtain ⟨hv, engine, args, config, localAddr, he, ha, hg, hn⟩ := opened_new ho
  have hcarries := carries_of_accepted hv hip he (handed_createArgs ha) hg
  have hconfig : tunnelConfig js answers call params = some config := by
    rw [tunnelConfig, he]
    simp only [Except.toOption, Option.bind_eq_bind, Option.bind_some, ha, hg]
  obtain ⟨⟨hle, _⟩, hmax⟩ := hcarries.handshakeTimeoutMs
  have hone : 1 ≤ config.handshakeTimeoutMs.toNat ↔
      (F64.ofInt 1).le (params.handshakeTimeoutMs.getD (.ofInt 30000)) = true := by
    constructor
    · intro h1
      exact F64.le_trans (F64.ofInt_le.mpr (by omega)) hle
    · intro h1
      exact hmax ⟨h1, by decide⟩
  have hgiven : (F64.ofInt 1).le (params.handshakeTimeoutMs.getD (.ofInt 30000)) = true ↔
      ∀ x ∈ params.handshakeTimeoutMs, (F64.ofInt 1).le x = true := by
    cases params.handshakeTimeoutMs with
    | none => simp [F64.ofInt_le]
    | some x => simp
  rw [← hgiven, ← hone]
  constructor
  · rintro ⟨config', _, hc, _, _, h1⟩
    rw [hconfig] at hc
    cases hc
    exact h1
  · exact fun h1 => ⟨config, localAddr, hconfig, hn, hcarries, h1⟩

namespace Relay

/-- The functions of the language on plain text and whole numbers. -/
def js : Js where
  toLowerCase := List.map Char.toLower
  numberText
    | .finite q => Nat.toDigits 10 q.floor.toNat
    | _ => "NaN".toList
  number text := .ofInt (Net.ofDigits 10 (Net.takeDigits 10 text).1)
  numberText_ofInt n _ := by
    show Nat.toDigits 10 ((n : Int) : Rat).floor.toNat = Nat.toDigits 10 n
    rw [Rat.floor_intCast, Int.toNat_natCast]

def answers (i : Nat) : Answers := .onePage fun _ => UInt32.ofNat (1024 * (i + 1))

def call : OpenCall where
  endpointAddress := "192.0.2.1".toList
  endpointPort := .ofInt 4000
  contextAddress := none
  insecureSkipFingerprintVerification := false
  nowMs := .ofInt 0

def ip : IpAddr := .v4 (.new 192 0 2 2)

def params (timeout : Rat) : RelayConnectionParams where
  address := ip.render
  port := .ofInt 4001
  iceUfrag := "peer".toList
  icePwd := "secret".toList
  fingerprint := "07".toList ++ (List.replicate 31 ":07".toList).flatten
  fingerprintAlgorithm := none
  sctpPort := none
  streamId := none
  ordered := none
  maxRetransmits := none
  handshakeTimeoutMs := some (.finite timeout)

def opened (timeout : Rat) : Except HostError (TunnelHandle Script.layers) :=
  openTunnel js Script.layers Script.host answers call (params timeout)

theorem opened_whole : (opened (5 / 2)).isOk = true := by decide +kernel

theorem opened_half : (opened (1 / 2)).isOk = true := by decide +kernel

/-- Two and a half milliseconds are a budget of two. -/
theorem crosses_unchanged_whole :
    ∃ config localAddr, tunnelConfig js answers call (params (5 / 2)) = some config ∧
      DirectTunnel.new Script.layers Script.host config localAddr call.nowMs.maxZero.toU64 =
        .ok (okValue (opened (5 / 2)) opened_whole).tunnel ∧
      Carries (params (5 / 2)) ip config ∧ 1 ≤ config.handshakeTimeoutMs.toNat :=
  (crosses_unchanged_iff rfl (eq_ok_okValue (opened (5 / 2)) opened_whole)).mpr
    (by decide +kernel)

/-- Half a millisecond is accepted, and becomes a budget of none. -/
theorem half_expired :
    (opened (1 / 2)).isOk = true ∧
      (tunnelConfig js answers call (params (1 / 2))).map (·.handshakeTimeoutMs) = some 0 ∧
      ¬ ∃ config, tunnelConfig js answers call (params (1 / 2)) = some config ∧
        1 ≤ config.handshakeTimeoutMs.toNat := by
  have hzero : (tunnelConfig js answers call (params (1 / 2))).map (·.handshakeTimeoutMs) =
      some 0 := by decide +kernel
  refine ⟨opened_half, hzero, ?_⟩
  rintro ⟨config, hc, h1⟩
  rw [hc] at hzero
  have hbudget : config.handshakeTimeoutMs = 0 := Option.some.inj hzero
  rw [hbudget] at h1
  exact absurd h1 (by decide)

end Relay

end RtcTunnel.Abi
