import RtcTunnel.Core.Number
import RtcTunnel.Direct.Build

/-!
# Creation through the C ABI

`rtc_tunnel_create` over the direct backend. A `(pointer, length)` pair comes in
as the bytes it points to, a null pointer as none; a null return comes out as the
message that `rtc_tunnel_last_error_copy` would hand out.
-/

namespace RtcTunnel.Abi

open RtcTunnel.Core
open RtcTunnel.Direct
open RtcTunnel.Base (bind_ok)

set_option autoImplicit false

def eventNone : UInt32 := 0

structure TunnelHandle (L : Layers) where
  tunnel : DirectTunnel L
  offer : Bytes
  eventKind : UInt32
  eventPayload : Bytes
  eventReason : UInt32
  drained : List Event
  descriptors : List UInt32
  cipher : Option Bytes

structure CreateArgs where
  remote : Option Bytes
  ufrag : Option Bytes
  pwd : Option Bytes
  fingerprint : Option Bytes
  fingerprintAlgorithm : Option Bytes
  «local» : Option Bytes
  sctpPort : UInt32
  streamId : UInt32
  ordered : UInt32
  maxRetransmits : Int32
  handshakeTimeoutMs : F64
  disableFingerprintVerification : UInt32
  nowMs : F64

/-- `str_arg`: the text of a pointer that is not null, if it is UTF-8. -/
def strArg (arg : Option Bytes) : Option Text :=
  arg.bind fun bytes => (ByteArray.mk bytes.toArray).utf8Decode?.map Array.toList

def addrArg (arg : Option Bytes) : Option SocketAddr := (strArg arg).bind SocketAddr.parse

/-- What an argument is, or why the creation fails. -/
def required {α : Type} (message : String) : Option α → Except String α
  | some a => .ok a
  | none => .error message

/-- `(max_retransmits >= 0).then_some(max_retransmits as u16)` -/
def maxRetransmitsArg (m : Int32) : Option UInt16 :=
  if 0 ≤ m then some m.toUInt32.toUInt16 else none

/-- The configuration the arguments describe. -/
def configOf (args : CreateArgs) (remote : SocketAddr)
    (ufrag pwd fingerprint fingerprintAlgorithm : Text) : TunnelConfig :=
  let config := TunnelConfig.new remote ufrag pwd fingerprint
  { config with
    sctpPort := args.sctpPort.toUInt16
    streamId := args.streamId.toUInt16
    fingerprintAlgorithm := fingerprintAlgorithm
    ordered := args.ordered ≠ 0
    maxRetransmits := maxRetransmitsArg args.maxRetransmits
    handshakeTimeoutMs :=
      if args.handshakeTimeoutMs.isPositive then args.handshakeTimeoutMs.toU64
      else config.handshakeTimeoutMs
    disableFingerprintVerification := args.disableFingerprintVerification ≠ 0 }

/-- The checks that `rtc_tunnel_create` makes of its arguments, and what it gives to `Tunnel::new`
behind them. -/
def given (args : CreateArgs) : Except String (TunnelConfig × SocketAddr) := do
  let remote ← required "remote must be an ip:port string" (addrArg args.remote)
  let localAddr ← required "local must be an ip:port string" (addrArg args.local)
  let ufrag ← required "ice ufrag must be valid utf-8" (strArg args.ufrag)
  let pwd ← required "ice pwd must be valid utf-8" (strArg args.pwd)
  let fingerprint ← required "fingerprint must be valid utf-8" (strArg args.fingerprint)
  let fingerprintAlgorithm ←
    required "fingerprint algorithm must be valid utf-8" (strArg args.fingerprintAlgorithm)
  if 65535 < args.sctpPort then throw "sctp port must fit in u16"
  if 65534 < args.streamId then throw "stream id must be 0..=65534"
  pure (configOf args remote ufrag pwd fingerprint fingerprintAlgorithm, localAddr)

def handleOf {L : Layers} (tunnel : DirectTunnel L) : TunnelHandle L where
  tunnel := tunnel
  offer := (String.ofList (tunnel.offerSdp.getD [])).toUTF8.data.toList
  eventKind := eventNone
  eventPayload := []
  eventReason := 0
  drained := []
  descriptors := []
  cipher := none

def rtcTunnelCreate (L : Layers) (h : BuildHost) (args : CreateArgs) :
    Except String (TunnelHandle L) := do
  let (config, localAddr) ← given args
  match DirectTunnel.new L h config localAddr args.nowMs.maxZero.toU64 with
  | .ok tunnel => pure (handleOf tunnel)
  | .error err => throw err.toString

/-- A creation is what is given, put into `Tunnel::new`. -/
theorem rtcTunnelCreate_eq (L : Layers) (h : BuildHost) (args : CreateArgs) :
    rtcTunnelCreate L h args = (given args).bind fun r =>
      match DirectTunnel.new L h r.1 r.2 args.nowMs.maxZero.toU64 with
      | .ok tunnel => .ok (handleOf tunnel)
      | .error err => .error err.toString := rfl

theorem new_of_create {L : Layers} {h : BuildHost} {args : CreateArgs} {handle : TunnelHandle L}
    (hc : rtcTunnelCreate L h args = .ok handle) :
    ∃ config localAddr, given args = .ok (config, localAddr) ∧
      DirectTunnel.new L h config localAddr args.nowMs.maxZero.toU64 = .ok handle.tunnel := by
  obtain ⟨⟨config, localAddr⟩, hg, hc⟩ := bind_ok hc
  refine ⟨config, localAddr, hg, ?_⟩
  dsimp only at hc
  split at hc
  · rename_i tunnel hn
    cases hc
    exact hn
  · cases hc

theorem eq_some_of_required {α : Type} {message : String} {o : Option α} {a : α}
    (h : required message o = .ok a) : o = some a := by
  cases o with
  | none => cases h
  | some b => exact congrArg some (Except.ok.inj h)

/-- What is given was read from arguments that are in range. -/
theorem given_ok {args : CreateArgs} {config : TunnelConfig} {localAddr : SocketAddr}
    (hg : given args = .ok (config, localAddr)) :
    ∃ remote ufrag pwd fingerprint algorithm, addrArg args.remote = some remote ∧
      strArg args.ufrag = some ufrag ∧ strArg args.pwd = some pwd ∧
      strArg args.fingerprint = some fingerprint ∧
      strArg args.fingerprintAlgorithm = some algorithm ∧
      config = configOf args remote ufrag pwd fingerprint algorithm := by
  obtain ⟨remote, hremote, hg⟩ := bind_ok hg
  obtain ⟨_, _, hg⟩ := bind_ok hg
  obtain ⟨ufrag, hufrag, hg⟩ := bind_ok hg
  obtain ⟨pwd, hpwd, hg⟩ := bind_ok hg
  obtain ⟨fingerprint, hfingerprint, hg⟩ := bind_ok hg
  obtain ⟨algorithm, halgorithm, hg⟩ := bind_ok hg
  refine ⟨remote, ufrag, pwd, fingerprint, algorithm, eq_some_of_required hremote,
    eq_some_of_required hufrag, eq_some_of_required hpwd, eq_some_of_required hfingerprint,
    eq_some_of_required halgorithm, ?_⟩
  dsimp only at hg
  split at hg
  · cases hg
  · split at hg
    · cases hg
    · cases hg
      rfl

end RtcTunnel.Abi
