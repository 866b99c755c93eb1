import RtcTunnel.Core.Net

/-!
# What both backends share

Configuration, errors, the events a tunnel queues for its host, and the
first-observation times of the handshake.
-/

namespace RtcTunnel.Core

set_option autoImplicit false

abbrev Bytes := List UInt8

/-- Default cap on bytes waiting in the data channel send buffer. -/
def defaultSendBufferCap : Nat := 1024 * 1024

/-- The `max-message-size` ceiling advertised for the single channel. -/
def maxMessageSize : Nat := 262144

structure TunnelConfig where
  remote : SocketAddr
  iceUfrag : Text
  icePwd : Text
  remoteFingerprint : Text
  fingerprintAlgorithm : Text
  sctpPort : UInt16
  streamId : UInt16
  ordered : Bool
  maxRetransmits : Option UInt16
  handshakeTimeoutMs : UInt64
  disableFingerprintVerification : Bool

def TunnelConfig.new (remote : SocketAddr) (iceUfrag icePwd remoteFingerprint : Text) :
    TunnelConfig where
  remote := remote
  iceUfrag := iceUfrag
  icePwd := icePwd
  remoteFingerprint := remoteFingerprint
  fingerprintAlgorithm := "sha-256".toList
  sctpPort := 5000
  streamId := 0
  ordered := false
  maxRetransmits := some 0
  handshakeTimeoutMs := 30000
  disableFingerprintVerification := false

inductive TunnelError where
  | peerConnection (err : String)
  | config (msg : String)
  deriving DecidableEq

def TunnelError.toString : TunnelError → String
  | .peerConnection err => "peer connection error: " ++ err
  | .config msg => "invalid tunnel config: " ++ msg

/-- A `Result` of a lower layer with its error wrapped as `what: error`. -/
def configError {α : Type} (what : String) : Except String α → Except TunnelError α
  | .ok a => .ok a
  | .error e => .error (.config (what ++ ": " ++ e))

@[simp] theorem configError_ok {α : Type} (what : String) (a : α) :
    configError what (.ok a) = .ok a := rfl

theorem eq_ok_of_configError {α : Type} {what : String} {x : Except String α} {a : α}
    (h : configError what x = .ok a) : x = .ok a := by
  cases x with
  | ok b =>
    rw [configError_ok] at h
    exact congrArg Except.ok (Except.ok.inj h)
  | error e => cases h

inductive CloseReason where
  | «local»
  | remote
  | timeout
  | failure
  deriving DecidableEq

inductive Event where
  | sendDatagram (data : Bytes)
  | opened
  | message (data : Bytes)
  | closed (reason : CloseReason)
  deriving DecidableEq

def Event.isClosed : Event → Bool
  | .closed _ => true
  | _ => false

def Event.isMessage : Event → Bool
  | .message _ => true
  | _ => false

inductive SendResult where
  | accepted
  | backpressure
  | tooLarge
  | notOpen
  deriving DecidableEq

/-- A reading of the monotonic clock, in nanoseconds. -/
abbrev Instant := Nat

/-- `instant + Duration::from_millis(ms)`. -/
def Instant.addMillis (i : Instant) (ms : UInt64) : Instant := i + ms.toNat * 1000000

/-- `Instant::now().checked_sub(now_ms)`, or a second reading of the clock when
the first is too early for that. -/
def epochOf (instantNow instantNowAgain : Instant) (nowMs : UInt64) : Instant :=
  if nowMs.toNat * 1000000 ≤ instantNow then instantNow - nowMs.toNat * 1000000
  else instantNowAgain

/-- `u64::saturating_add(1)` -/
def saturatingSucc (n : UInt64) : UInt64 := if n = 0xFFFFFFFFFFFFFFFF then n else n + 1

/-- `instant.saturating_duration_since(epoch).as_millis() as u64`. -/
def Instant.millisSince (i epoch : Instant) : UInt64 := UInt64.ofNat ((i - epoch) / 1000000)

/-- Readings on the input clock; only the first observation of a phase counts. -/
structure HandshakeTrace where
  startMs : UInt64
  iceMs : Option UInt64 := none
  dtlsMs : Option UInt64 := none
  sctpMs : Option UInt64 := none
  openedMs : Option UInt64 := none
  deriving DecidableEq

namespace HandshakeTrace

def observeIce (t : HandshakeTrace) (nowMs : UInt64) : HandshakeTrace :=
  if t.iceMs.isNone then { t with iceMs := some nowMs } else t

def observeDtls (t : HandshakeTrace) (nowMs : UInt64) : HandshakeTrace :=
  if t.dtlsMs.isNone then { t with dtlsMs := some nowMs } else t

def observeSctp (t : HandshakeTrace) (nowMs : UInt64) : HandshakeTrace :=
  if t.sctpMs.isNone then { t with sctpMs := some nowMs } else t

def observeOpen (t : HandshakeTrace) (nowMs : UInt64) : HandshakeTrace :=
  if t.openedMs.isNone then { t with openedMs := some nowMs } else t

/-- The sampling of the `rtc`-backed tunnel: nothing more once it opened. -/
def observe (t : HandshakeTrace) (nowMs : UInt64) (iceReady dtlsReady sctpReady opened : Bool) :
    HandshakeTrace :=
  if t.openedMs.isSome then t
  else
    let t := if iceReady then t.observeIce nowMs else t
    let t := if dtlsReady then t.observeDtls nowMs else t
    let t := if sctpReady then t.observeSctp nowMs else t
    if opened then t.observeOpen nowMs else t

def isComplete (t : HandshakeTrace) : Bool := t.openedMs.isSome

end HandshakeTrace

end RtcTunnel.Core
