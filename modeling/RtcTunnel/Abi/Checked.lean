import RtcTunnel.Abi.Relay

/-!
# Behind the validator

What `validateRelayParams` lets through meets the checks that the module makes again: only the
addresses and the layers can refuse it.
-/

namespace RtcTunnel.Abi

open RtcTunnel.Core
open RtcTunnel.Direct
open RtcTunnel.Base (bind_ok)

set_option autoImplicit false

theorem strArg_encode (text : Text) : strArg (some (encode text)) = some text := by
  rw [strArg, Option.bind_some, encode, Array.toArray_toList, String.toUTF8_eq_toByteArray,
    String.toByteArray_ofList, List.utf8Decode?_utf8Encode]
  rfl

theorem encode_eq_nil {text : Text} : encode text = [] ↔ text = [] := by
  refine ⟨fun h => ?_, fun h => h ▸ rfl⟩
  have hstr := strArg_encode text
  rw [h, show ([] : Bytes) = encode [] from rfl, strArg_encode] at hstr
  exact (Option.some.inj hstr).symm

/-- The memory has room for the texts of a configuration. -/
structure Served (js : Js) (answers : Nat → Answers) (engine : TunnelEngineConfig) : Prop where
  remote : withCString (answers 0) (socketAddr js engine.remoteAddress engine.remotePort) =
    .ok (some (encode (socketAddr js engine.remoteAddress engine.remotePort)))
  ufrag : withCString (answers 1) engine.iceUfrag = .ok (some (encode engine.iceUfrag))
  pwd : withCString (answers 2) engine.icePwd = .ok (some (encode engine.icePwd))
  fingerprint : withCString (answers 3) engine.fingerprint = .ok (some (encode engine.fingerprint))
  fingerprintAlgorithm : withCString (answers 4) engine.fingerprintAlgorithm =
    .ok (some (encode engine.fingerprintAlgorithm))
  «local» : withCString (answers 5) (socketAddr js engine.localAddress engine.localPort) =
    .ok (some (encode (socketAddr js engine.localAddress engine.localPort)))

/-- A whole number of sixteen bits. -/
def whole : F64 → UInt16
  | .finite q => .ofNat q.floor.toNat
  | _ => 0

/-- The configuration that the parameters describe. -/
def checkedConfig (call : OpenCall) (params : RelayConnectionParams) (remote : SocketAddr) :
    TunnelConfig where
  remote := remote
  iceUfrag := params.iceUfrag
  icePwd := params.icePwd
  remoteFingerprint := params.fingerprint
  fingerprintAlgorithm := "sha-256".toList
  sctpPort := whole (params.sctpPort.getD (.ofInt 5000))
  streamId := whole (params.streamId.getD (.ofInt 0))
  ordered := params.ordered.getD false
  maxRetransmits := some (whole (params.maxRetransmits.getD (.ofInt 0)))
  handshakeTimeoutMs := (params.handshakeTimeoutMs.getD (.ofInt 30000)).toU64
  disableFingerprintVerification := call.insecureSkipFingerprintVerification

/-- What the module refuses of parameters that were checked, or the tunnel. -/
def createChecked (js : Js) (L : Layers) (h : BuildHost) (call : OpenCall)
    (params : RelayConnectionParams) («local» : Text × F64) : Except String (TunnelHandle L) :=
  match SocketAddr.parse (socketAddr js params.address params.port),
    SocketAddr.parse (socketAddr js «local».1 «local».2) with
  | none, _ => .error "remote must be an ip:port string"
  | some _, none => .error "local must be an ip:port string"
  | some remote, some localAddr =>
    if remote.ip.isUnspecified then
      .error (TunnelError.config "remote address must be concrete").toString
    else if remote.isIpv4 ≠ localAddr.isIpv4 then .error DirectTunnel.familyError.toString
    else
      match DirectTunnel.offerer L h (checkedConfig call params remote) localAddr
        call.nowMs.maxZero.toU64 with
      | .ok tunnel => .ok (handleOf tunnel)
      | .error err => .error err.toString

/-- `openTunnel` with the checks of the validator alone. -/
def openChecked (js : Js) (L : Layers) (h : BuildHost) (diagnostics : Answers) (call : OpenCall)
    (params : RelayConnectionParams) : Except HostError (TunnelHandle L) := do
  validateRelayParams js params
  let «local» ← localEndpoint js call
  match createChecked js L h call params «local» with
  | .ok handle => pure handle
  | .error message =>
    let diagnostic ← readLastError diagnostics message.toList
    throw (.error ("rtc_tunnel_create rejected the configuration: ".toList ++ diagnostic))

theorem Within.whole {low high : Nat} {x : F64} (h : Within low high x) (hh : high ≤ 65535) :
    (Abi.toWord x).toUInt16 = Abi.whole x ∧ (Abi.toWord x).toNat ≤ high := by
  obtain ⟨n, _, hn, rfl⟩ := h
  have hword : (Abi.toWord (.ofInt n)).toNat = n := by
    rw [toWord_ofInt, Scratch.toNat_abiWord]
    omega
  refine ⟨?_, hword.symm ▸ hn⟩
  rw [← UInt16.toNat_inj, UInt32.toNat_toUInt16, hword]
  show n % 65536 = (UInt16.ofNat ((n : Int) : Rat).floor.toNat).toNat
  rw [Rat.floor_intCast, Int.toNat_natCast, UInt16.toNat_ofNat']

theorem head_of_hexBytes {n : Nat} {text : Text} (h : hexBytes n text = true) :
    ∃ a rest, text = a :: rest ∧ isHexDigit a = true := by
  unfold hexBytes at h
  split at h
  · exact ⟨_, _, rfl, (Bool.and_eq_true_iff.mp h).1⟩
  · exact ⟨_, _, rfl, (Bool.and_eq_true_iff.mp (Bool.and_eq_true_iff.mp h).1).1⟩
  · cases h

theorem not_isWhitespace_of_isHexDigit {c : Char} (h : isHexDigit c = true) :
    isWhitespace c = false := by
  have hrange : (48 ≤ c.toNat ∧ c.toNat ≤ 57) ∨ (97 ≤ c.toNat ∧ c.toNat ≤ 102) := by
    rw [isHexDigit, Bool.or_eq_true_iff, Bool.and_eq_true_iff, Bool.and_eq_true_iff] at h
    simp only [decide_eq_true_eq] at h
    exact h
  unfold isWhitespace
  simp only [Bool.or_eq_false_iff, Bool.and_eq_false_iff, beq_eq_false_iff_ne, decide_eq_false_iff_not]
  omega

/-- A fingerprint that passes the validator is not blank, as blanks have no lower case. -/
theorem Accepted.fingerprint_trim {js : Js} {params : RelayConnectionParams}
    (hlower : ∀ text, Text.trim text = [] → js.toLowerCase text = text)
    (hv : Accepted js params) : (Text.trim params.fingerprint).isEmpty = false := by
  refine List.isEmpty_eq_false_iff.mpr fun htrim => ?_
  have hhex := hv.fingerprint
  rw [hlower _ htrim] at hhex
  obtain ⟨a, rest, hcons, ha⟩ := head_of_hexBytes hhex
  have hblank := not_isWhitespace_of_isHexDigit ha
  rw [hcons, Text.trim, List.dropWhile_cons_of_neg (by rw [hblank]; simp)] at htrim
  have hall := List.rdropWhile_eq_nil_iff.mp htrim a List.mem_cons_self
  rw [hblank] at hall
  cases hall

/-- The arguments where each text is handed in. -/
def servedArgs (js : Js) (engine : TunnelEngineConfig) : CreateArgs where
  remote := some (encode (socketAddr js engine.remoteAddress engine.remotePort))
  ufrag := some (encode engine.iceUfrag)
  pwd := some (encode engine.icePwd)
  fingerprint := some (encode engine.fingerprint)
  fingerprintAlgorithm := some (encode engine.fingerprintAlgorithm)
  «local» := some (encode (socketAddr js engine.localAddress engine.localPort))
  sctpPort := toWord engine.sctpPort
  streamId := toWord engine.streamId
  ordered := if engine.ordered then 1 else 0
  maxRetransmits := (toWord engine.maxRetransmits).toInt32
  handshakeTimeoutMs := engine.handshakeTimeoutMs
  disableFingerprintVerification := if engine.disableFingerprintVerification then 1 else 0
  nowMs := engine.nowMs

theorem createArgs_served {js : Js} {answers : Nat → Answers} {engine : TunnelEngineConfig}
    (hs : Served js answers engine) : createArgs js answers engine = .ok (servedArgs js engine) := by
  unfold createArgs
  rw [hs.remote, hs.ufrag, hs.pwd, hs.fingerprint, hs.fingerprintAlgorithm, hs.local]
  rfl

theorem addrArg_encode (text : Text) : addrArg (some (encode text)) = SocketAddr.parse text := by
  rw [addrArg, strArg_encode]
  rfl

theorem decide_ne_zero (b : Bool) : decide ((if b then (1 : UInt32) else 0) ≠ 0) = b := by
  cases b <;> decide

/-- What the numbers and the flags come to. -/
theorem configOf_served {js : Js} {call : OpenCall} {params : RelayConnectionParams}
    {engine : TunnelEngineConfig} (hv : Accepted js params)
    (he : engineConfig js call params = .ok engine) (remote : SocketAddr) :
    configOf (servedArgs js engine) remote params.iceUfrag params.icePwd params.fingerprint
      engine.fingerprintAlgorithm = checkedConfig call params remote := by
  obtain ⟨endpoint, _, he⟩ := bind_ok he
  cases he
  obtain ⟨hsctp, hid, hmax, q, hq, htimeout⟩ := accepted_defaults hv
  have halgorithm : params.fingerprintAlgorithm.getD "sha-256".toList = "sha-256".toList := by
    cases ha : params.fingerprintAlgorithm with
    | none => rfl
    | some a => exact hv.fingerprintAlgorithm a ha
  have hpositive : (params.handshakeTimeoutMs.getD (.ofInt 30000)).isPositive = true := by
    rw [htimeout]
    exact decide_eq_true hq
  unfold configOf servedArgs checkedConfig
  dsimp only
  rw [(hsctp.whole (by omega)).1, (hid.whole (by omega)).1,
    maxRetransmitsArg_toInt32 (Nat.le_trans (hmax.whole (by omega)).2 (by omega)),
    (hmax.whole (by omega)).1, decide_ne_zero, decide_ne_zero, if_pos hpositive, halgorithm]
  rfl

/-- `Tunnel::new` behind the validator. -/
theorem new_checked {js : Js} {L : Layers} {h : BuildHost} {call : OpenCall}
    {params : RelayConnectionParams}
    (hlower : ∀ text, Text.trim text = [] → js.toLowerCase text = text)
    (hv : Accepted js params) (remote localAddr : SocketAddr) (nowMs : UInt64) :
    DirectTunnel.new L h (checkedConfig call params remote) localAddr nowMs =
      if remote.ip.isUnspecified then .error (.config "remote address must be concrete")
      else if remote.isIpv4 ≠ localAddr.isIpv4 then .error DirectTunnel.familyError
      else DirectTunnel.offerer L h (checkedConfig call params remote) localAddr nowMs := by
  have hstream : ¬ 65534 < (checkedConfig call params remote).streamId := by
    obtain ⟨_, ⟨n, _, hn, hid⟩, _, _⟩ := accepted_defaults hv
    show ¬ 65534 < whole (params.streamId.getD (.ofInt 0))
    rw [UInt16.lt_iff_toNat_lt, hid]
    show ¬ 65534 < (UInt16.ofNat ((n : Int) : Rat).floor.toNat).toNat
    rw [Rat.floor_intCast, Int.toNat_natCast, UInt16.toNat_ofNat']
    omega
  have hcredentials : ((checkedConfig call params remote).iceUfrag.isEmpty ||
      (checkedConfig call params remote).icePwd.isEmpty) = false :=
    Bool.or_eq_false_iff.mpr
      ⟨List.isEmpty_eq_false_iff.mpr hv.iceUfrag, List.isEmpty_eq_false_iff.mpr hv.icePwd⟩
  unfold DirectTunnel.new
  rw [show (Text.trim (checkedConfig call params remote).remoteFingerprint).isEmpty = false from
    hv.fingerprint_trim hlower, hcredentials, if_neg hstream]
  rfl

/-- **The module makes no check that the validator has not made**, but those of the addresses. -/
theorem rtcTunnelCreate_checked {js : Js} {L : Layers} {h : BuildHost} {call : OpenCall}
    {params : RelayConnectionParams} {«local» : Text × F64} {engine : TunnelEngineConfig}
    (hlower : ∀ text, Text.trim text = [] → js.toLowerCase text = text)
    (hv : Accepted js params) (hl : localEndpoint js call = .ok «local»)
    (he : engineConfig js call params = .ok engine) :
    rtcTunnelCreate L h (servedArgs js engine) = createChecked js L h call params «local» := by
  have hconfig := configOf_served hv he
  obtain ⟨hsctp, hid, _, _⟩ := accepted_defaults hv
  have hport : ¬ 65535 < toWord (params.sctpPort.getD (.ofInt 5000)) := by
    rw [UInt32.lt_iff_toNat_lt]
    exact Nat.not_lt.mpr (hsctp.whole (by omega)).2
  have hstream : ¬ 65534 < toWord (params.streamId.getD (.ofInt 0)) := by
    rw [UInt32.lt_iff_toNat_lt]
    exact Nat.not_lt.mpr (hid.whole (by omega)).2
  obtain ⟨endpoint, hl', he⟩ := bind_ok he
  cases hl.symm.trans hl'
  have hengine := (Except.ok.inj he).symm
  have hremote : addrArg (servedArgs js engine).remote =
      SocketAddr.parse (socketAddr js params.address params.port) := by
    rw [hengine]
    exact addrArg_encode _
  have hlocal : addrArg (servedArgs js engine).local =
      SocketAddr.parse (socketAddr js «local».1 «local».2) := by
    rw [hengine]
    exact addrArg_encode _
  have hufrag : strArg (servedArgs js engine).ufrag = some params.iceUfrag := by
    rw [hengine]
    exact strArg_encode _
  have hpwd : strArg (servedArgs js engine).pwd = some params.icePwd := by
    rw [hengine]
    exact strArg_encode _
  have hfingerprint : strArg (servedArgs js engine).fingerprint = some params.fingerprint := by
    rw [hengine]
    exact strArg_encode _
  have halgorithm : strArg (servedArgs js engine).fingerprintAlgorithm =
      some engine.fingerprintAlgorithm := strArg_encode _
  have hport' : ¬ 65535 < (servedArgs js engine).sctpPort := by
    rw [hengine]
    exact hport
  have hstream' : ¬ 65534 < (servedArgs js engine).streamId := by
    rw [hengine]
    exact hstream
  have hnow : (servedArgs js engine).nowMs = call.nowMs := by rw [hengine]; rfl
  rw [rtcTunnelCreate_eq]
  unfold given createChecked
  rw [hremote, hlocal, hufrag, hpwd, hfingerprint, halgorithm, hnow]
  cases SocketAddr.parse (socketAddr js params.address params.port) with
  | none => rfl
  | some remote =>
    cases SocketAddr.parse (socketAddr js «local».1 «local».2) with
    | none => rfl
    | some localAddr =>
      simp only [required, hport', hstream', if_false]
      dsimp only [bind, Except.bind, pure, Except.pure]
      rw [hconfig, new_checked hlower hv]
      by_cases hconcrete : remote.ip.isUnspecified = true
      · rw [if_pos hconcrete, if_pos hconcrete]
      · rw [if_neg hconcrete, if_neg hconcrete]
        by_cases hfamily : remote.isIpv4 ≠ localAddr.isIpv4
        · rw [if_pos hfamily, if_pos hfamily]
        · cases DirectTunnel.offerer L h (checkedConfig call params remote) localAddr
            call.nowMs.maxZero.toU64 with
          | ok tunnel => rw [if_neg hfamily, if_neg hfamily]
          | error err => rw [if_neg hfamily, if_neg hfamily]

/-- **Behind the validator only the addresses and the layers can refuse.** Where the memory has
room for the texts, `createRelayConnection` makes the tunnel of the parameters themselves, or throws
for the validator, the local address, an address that does not parse, an unspecified address, two
address families or a layer, and for nothing else. -/
theorem openTunnel_checked {js : Js} {L : Layers} {h : BuildHost} {answers : Nat → Answers}
    {call : OpenCall} {params : RelayConnectionParams}
    (hlower : ∀ text, Text.trim text = [] → js.toLowerCase text = text)
    (hs : ∀ engine, engineConfig js call params = .ok engine → Served js answers engine) :
    openTunnel js L h answers call params = openChecked js L h (answers 6) call params := by
  unfold openTunnel openChecked
  cases hvalid : validateRelayParams js params with
  | error e => rfl
  | ok u =>
    have hv := validateRelayParams_eq_ok.mp hvalid
    cases hl : localEndpoint js call with
    | error e =>
      unfold engineConfig
      rw [hl]
      rfl
    | ok endpoint =>
      obtain ⟨engine, he⟩ : ∃ engine, engineConfig js call params = .ok engine := by
        unfold engineConfig
        rw [hl]
        exact ⟨_, rfl⟩
      have hcreate := rtcTunnelCreate_checked (L := L) (h := h) hlower hv hl he
      unfold createTunnel
      rw [he]
      dsimp only [bind, Except.bind]
      rw [createArgs_served (hs engine he)]
      dsimp only
      generalize rtcTunnelCreate L h _ = created at hcreate ⊢
      subst hcreate
      rfl

namespace Relay

theorem toLowerCase_blank (text : Text) (h : Text.trim text = []) : js.toLowerCase text = text := by
  have hall : ∀ c ∈ text, isWhitespace c = true := by
    by_contra hne
    obtain ⟨c, hc, hblank⟩ : ∃ c ∈ text, ¬ isWhitespace c = true := by
      simpa only [not_forall, exists_prop] using hne
    have hdropped := List.rdropWhile_eq_nil_iff.mp h
    have hmem : text.dropWhile isWhitespace ≠ [] := fun hnil =>
      hblank (List.dropWhile_eq_nil_iff.mp hnil c hc)
    have hhead := List.head_dropWhile_not isWhitespace hmem
    exact absurd (hdropped _ (List.head_mem hmem)) (by rw [hhead]; simp)
  refine (List.map_congr_left fun c hc => ?_).trans (List.map_id text)
  have hblank := hall c hc
  have hupper : ¬ (c.val ≥ 'A'.val ∧ c.val ≤ 'Z'.val) := by
    rintro ⟨hlow, hhigh⟩
    have hlow : 65 ≤ c.toNat := hlow
    have hhigh : c.toNat ≤ 90 := hhigh
    unfold isWhitespace at hblank
    simp only [Bool.or_eq_true, Bool.and_eq_true, beq_iff_eq, decide_eq_true_eq] at hblank
    omega
  exact dif_neg hupper

def thrown {α : Type} : Except HostError α → Option HostError
  | .ok _ => none
  | .error e => some e

theorem eq_error_of_thrown {α : Type} {x : Except HostError α} {e : HostError}
    (h : thrown x = some e) : x = .error e := by
  cases x with
  | ok a => cases h
  | error e' => exact congrArg Except.error (Option.some.inj h)

/-- A socket of the other address family. -/
def callV6 : OpenCall := { call with endpointAddress := "::1".toList }

theorem openTunnel_checked_families :
    openTunnel js Script.layers Script.host answers callV6 (params (5 / 2)) =
      .error (.error ("rtc_tunnel_create rejected the configuration: ".toList ++
        DirectTunnel.familyError.toString.toList)) := by
  have hserved : ∀ engine, engineConfig js callV6 (params (5 / 2)) = .ok engine →
      Served js answers engine := by
    intro engine he
    cases he
    exact ⟨by decide +kernel, by decide +kernel, by decide +kernel, by decide +kernel,
      by decide +kernel, by decide +kernel⟩
  rw [openTunnel_checked toLowerCase_blank hserved]
  exact eq_error_of_thrown (by decide +kernel)

end Relay

end RtcTunnel.Abi
