import RtcTunnel.Base.Outcome
import RtcTunnel.Base.Run
import RtcTunnel.Umbrella.PeerConnection

/-!
# The tunnel over the umbrella peer connection

`Tunnel` of the `rtc` backend, function by function. As in the direct backend
`log` is a history of what was pushed to the event queue, which nothing reads.
-/

namespace RtcTunnel.Umbrella

open RtcTunnel.Core
open RtcTunnel.Base (Outcome)
open RtcTunnel.Base.Run (run)

set_option autoImplicit false

/-- `?` on a result of the peer connection. -/
def pcError {α : Type} : Except String α → Except TunnelError α
  | .ok a => .ok a
  | .error e => .error (.peerConnection e)

structure Tunnel (P : PeerConnectionApi) where
  pc : P.Pc
  epoch : Instant
  lastNow : Instant
  localAddr : SocketAddr
  remote : SocketAddr
  handle : P.Channel
  handshakeDeadline : Instant
  sendBufferCap : Nat
  opened : Bool
  finished : Bool
  droppedDatagrams : UInt64
  events : List Event
  trace : HandshakeTrace
  log : List Event

namespace Tunnel

variable {P : PeerConnectionApi}

def pushAll (t : Tunnel P) (es : List Event) : Tunnel P :=
  { t with events := t.events ++ es, log := t.log ++ es }

def push (t : Tunnel P) (e : Event) : Tunnel P := t.pushAll [e]

def ms (t : Tunnel P) (i : Instant) : UInt64 := i.millisSince t.epoch

def finish (t : Tunnel P) (reason : CloseReason) : Tunnel P :=
  if t.finished then t else { t with finished := true }.push (.closed reason)

/-- Whether the channel's ready state is `Open`. -/
def channelOpen (t : Tunnel P) : Bool :=
  (P.dataChannel t.pc t.handle).any (·.readyState = .open)

def refreshOpened (t : Tunnel P) : Tunnel P :=
  if t.channelOpen then { t with opened := true } else t

def maybeOpen (t : Tunnel P) : Tunnel P :=
  if t.opened then t
  else
    let t := t.refreshOpened
    if t.opened then t.push .opened else t

/-- The body of the event loop of `drain`. -/
def handleEvent (t : Tunnel P) : PeerConnectionEvent → Tunnel P
  | .onDataChannel .onOpen => if t.opened then t else { t with opened := true }.push .opened
  | .onDataChannel .onClose => t.finish .remote
  | .onDataChannel _ => t
  | .onConnectionStateChange .connected => t.maybeOpen
  | .onConnectionStateChange .failed => t.finish .failure
  | .onConnectionStateChange .disconnected => t.finish .remote
  | .onConnectionStateChange .closed => t.finish .remote
  | .onConnectionStateChange _ => t
  | .onIceConnectionStateChange .failed => t.finish .failure
  | .onIceConnectionStateChange _ => t
  | .other => t

/-- A finished tunnel leaves the loop with the event it has just polled. -/
def eventBody (pc : P.Pc) (event : PeerConnectionEvent) (t : Tunnel P) : Option (Tunnel P) :=
  if t.finished then none else some ({ t with pc := pc }.handleEvent event)

def drainEvents (t : Tunnel P) : Tunnel P :=
  let r := P.events.walk eventBody t.pc t
  { r.2 with pc := r.1 }

def drainWrites (t : Tunnel P) : Tunnel P :=
  let r := P.writes.drain t.pc
  { t with pc := r.2 }.pushAll (r.1.map .sendDatagram)

def handleMessage (t : Tunnel P) : Message → Tunnel P
  | .dataChannelMessage data => t.push (.message data)
  | .other => t

def readBody (_ : P.Pc) (message : Message) (t : Tunnel P) : Option (Tunnel P) :=
  if t.finished then none else some (t.handleMessage message)

def drainReads (t : Tunnel P) : Tunnel P :=
  let r := P.reads.walk readBody t.pc t
  { r.2 with pc := r.1 }

def sampleHandshake (t : Tunnel P) : Tunnel P :=
  if t.trace.isComplete then t
  else
    let s := (P.transports t.pc).getD ⟨false, false, false⟩
    { t with trace := t.trace.observe (t.ms t.lastNow) s.ice s.dtls s.sctp t.opened }

def drain (t : Tunnel P) : Tunnel P :=
  t.drainWrites.drainEvents.drainWrites.drainReads.maybeOpen.sampleHandshake

/-- `handle_read` with a failure counted. -/
def ingest (t : Tunnel P) (now : Instant) (datagram : Bytes) : Tunnel P :=
  let r := P.handleRead t.pc now t.localAddr t.remote datagram
  let t := { t with pc := r.1 }
  if r.2.isOk then t else { t with droppedDatagrams := saturatingSucc t.droppedDatagrams }

def receive (t : Tunnel P) (nowMs : UInt64) (datagram : Bytes) : Tunnel P :=
  if t.finished then t
  else
    let now := t.epoch.addMillis nowMs
    ({ t with lastNow := now }.ingest now datagram).drain

def receiveDeferred (t : Tunnel P) (nowMs : UInt64) (datagram : Bytes) : Tunnel P :=
  if t.finished then t
  else
    let now := t.epoch.addMillis nowMs
    let t := { t with lastNow := now }
    if !t.opened then t.receive nowMs datagram else t.ingest now datagram

def finishInputBatch (t : Tunnel P) : Tunnel P :=
  if t.finished || !t.opened then t else t.drain

def tick (t : Tunnel P) (nowMs : UInt64) : Tunnel P :=
  if t.finished then t
  else
    let now := t.epoch.addMillis nowMs
    let t := { t with lastNow := now, pc := (P.handleTimeout t.pc now).1 }
    if !t.opened && decide (t.handshakeDeadline ≤ now) then t.finish .timeout else t.drain

/-- The second look at the channel sees what the first saw. -/
def send (t : Tunnel P) (message : Bytes) : SendResult × Tunnel P :=
  if t.finished then (.notOpen, t)
  else
    let t := if t.opened then t else t.maybeOpen
    if !t.opened then (.notOpen, t)
    else if maxMessageSize < message.length then (.tooLarge, t)
    else
      match P.dataChannel t.pc t.handle with
      | none => (.notOpen, t)
      | some dc =>
        if t.sendBufferCap < dc.outstandingBytes + message.length then (.backpressure, t)
        else
          let r := P.send t.pc t.handle t.lastNow message
          (if r.2.isOk then .accepted else .notOpen, { t with pc := r.1 }.drain)

def close (t : Tunnel P) : Tunnel P :=
  if t.finished then t else { t with pc := (P.close t.pc).1 }.finish .local

def pollEvent (t : Tunnel P) : Option Event × Tunnel P :=
  (t.events.head?, { t with events := t.events.tail })

def nextDeadline (t : Tunnel P) : Option UInt64 × Tunnel P :=
  if t.finished then (none, t)
  else
    let best := if t.opened then none else some t.handshakeDeadline
    let r := P.pollTimeout t.pc
    let best := r.1.elim best fun i => some (best.elim i (min · i))
    (best.map t.ms, { t with pc := r.2 })

def applyRemoteAnswer (t : Tunnel P) (answer : P.Description) :
    Outcome (Tunnel P) TunnelError :=
  let r := P.setRemoteDescription t.pc t.lastNow answer
  let t := { t with pc := r.1 }
  match r.2 with
  | .ok _ => (t.drain, .ok ())
  | .error e => (t, .error (.peerConnection e))

def applyRemoteAnswerSdp (t : Tunnel P) (sdp : Text) : Outcome (Tunnel P) TunnelError :=
  match P.describe .answer sdp with
  | .ok answer => t.applyRemoteAnswer answer
  | .error e => (t, .error (.peerConnection e))

def setRemote (t : Tunnel P) (remote : SocketAddr) : Tunnel P := { t with remote := remote }

def setSendBufferCap (t : Tunnel P) (cap : Nat) : Tunnel P := { t with sendBufferCap := cap }

def offerSdp (t : Tunnel P) : Option Text := (P.localDescription t.pc).map P.sdp

def answerSdp (t : Tunnel P) : Option Text := (P.localDescription t.pc).map P.sdp

def bufferedBytes (t : Tunnel P) : Nat :=
  ((P.dataChannel t.pc t.handle).map (·.outstandingBytes)).getD 0

/-- Two readings of `Instant::now()`, the second made when the first is too early. -/
structure Clock where
  instantNow : Instant
  instantNowAgain : Instant

def fresh (config : TunnelConfig) (localAddr : SocketAddr) (nowMs : UInt64) (epoch : Instant)
    (pc : P.Pc) (handle : P.Channel) : Tunnel P where
  pc := pc
  epoch := epoch
  lastNow := epoch.addMillis nowMs
  localAddr := localAddr
  remote := config.remote
  handle := handle
  handshakeDeadline := (epoch.addMillis nowMs).addMillis config.handshakeTimeoutMs
  sendBufferCap := defaultSendBufferCap
  opened := false
  finished := false
  droppedDatagrams := 0
  events := []
  trace := { startMs := nowMs }
  log := []

def streamIdError : TunnelError := .config "stream id must be 0..=65534"

def channelInit (config : TunnelConfig) : DataChannelInit where
  ordered := config.ordered
  maxRetransmits := config.maxRetransmits
  negotiated := config.streamId

def addCandidate (pc : P.Pc) (localAddr : SocketAddr) : Except TunnelError P.Pc := do
  let candidate ← pcError (P.newCandidateHost ⟨localAddr.ip.render, localAddr.port⟩)
  let r := P.addLocalCandidate pc candidate
  pcError r.2
  pure r.1

/-- The peer connection with its one channel. -/
def createPc (P : PeerConnectionApi) (config : TunnelConfig) (role : DtlsRole) (now : Instant) :
    Except TunnelError (P.Pc × P.Channel) := do
  let pc ← pcError (P.build ⟨config.disableFingerprintVerification, role⟩ now)
  let r := P.createDataChannel pc "relay".toList (channelInit config)
  let handle ← pcError r.2
  pure (r.1, handle)

def describeLocal (now : Instant) (created : P.Pc × Except String P.Description) :
    Except TunnelError P.Pc := do
  let description ← pcError created.2
  let r := P.setLocalDescription created.1 now description
  pcError r.2
  pure r.1

def offerer (P : PeerConnectionApi) (clock : Clock) (config : TunnelConfig)
    (localAddr : SocketAddr) (nowMs : UInt64) : Except TunnelError (Tunnel P) :=
  if 65534 < config.streamId then .error streamIdError
  else do
    let epoch := epochOf clock.instantNow clock.instantNowAgain nowMs
    let now := epoch.addMillis nowMs
    let (pc, handle) ← createPc P config .auto now
    let pc ← addCandidate pc localAddr
    let pc ← describeLocal now (P.createOffer pc)
    pure (fresh config localAddr nowMs epoch pc handle).drain

def remoteAnswerSdp (config : TunnelConfig) : Text :=
  let family := if config.remote.isIpv4 then "IP4" else "IP6"
  let unspecified := if config.remote.isIpv4 then "0.0.0.0" else "::"
  let line (s : Text) : Text := s ++ ['\r', '\n']
  line "v=0".toList ++
  line ("o=- 0 0 IN ".toList ++ family.toList ++ " ".toList ++ unspecified.toList) ++
  line "s=-".toList ++
  line "t=0 0".toList ++
  line "a=group:BUNDLE 0".toList ++
  line "a=msid-semantic: WMS".toList ++
  line "m=application 9 UDP/DTLS/SCTP webrtc-datachannel".toList ++
  line ("c=IN ".toList ++ family.toList ++ " ".toList ++ unspecified.toList) ++
  line "a=mid:0".toList ++
  line ("a=sctp-port:".toList ++ Nat.toDigits 10 config.sctpPort.toNat) ++
  line "a=max-message-size:262144".toList ++
  line ("a=ice-ufrag:".toList ++ config.iceUfrag) ++
  line ("a=ice-pwd:".toList ++ config.icePwd) ++
  line "a=setup:passive".toList ++
  line ("a=fingerprint:".toList ++ config.fingerprintAlgorithm ++ " ".toList ++
    config.remoteFingerprint) ++
  line ("a=candidate:1 1 udp 2130706431 ".toList ++ config.remote.ip.render ++ " ".toList ++
    Nat.toDigits 10 config.remote.port.toNat ++ " typ host".toList) ++
  line "a=end-of-candidates".toList

def new (P : PeerConnectionApi) (clock : Clock) (config : TunnelConfig)
    (localAddr : SocketAddr) (nowMs : UInt64) : Except TunnelError (Tunnel P) :=
  if config.remote.ip.isUnspecified then .error (.config "remote address must be concrete")
  else if config.remote.isIpv4 ≠ localAddr.isIpv4 then
    .error (.config "local and remote addresses must share an address family")
  else if (Text.trim config.remoteFingerprint).isEmpty then
    .error (.config "remote fingerprint is required")
  else if config.iceUfrag.isEmpty || config.icePwd.isEmpty then
    .error (.config "remote ICE credentials are required")
  else if 65534 < config.streamId then .error streamIdError
  else do
    let t ← offerer P clock config localAddr nowMs
    let answer ← pcError (P.describe .answer (remoteAnswerSdp config))
    let r := t.applyRemoteAnswer answer
    r.2
    pure r.1

def answerer (P : PeerConnectionApi) (clock : Clock) (config : TunnelConfig)
    (localAddr : SocketAddr) (remoteOfferSdp : Text) (nowMs : UInt64) :
    Except TunnelError (Tunnel P) :=
  if 65534 < config.streamId then .error streamIdError
  else do
    let epoch := epochOf clock.instantNow clock.instantNowAgain nowMs
    let now := epoch.addMillis nowMs
    let (pc, handle) ← createPc P config .server now
    let offer ← pcError (P.describe .offer remoteOfferSdp)
    let r := P.setRemoteDescription pc now offer
    pcError r.2
    let pc ← addCandidate r.1 localAddr
    let pc ← describeLocal now (P.createAnswer pc)
    pure (fresh config localAddr nowMs epoch pc handle).drain

inductive Constructor where
  | new
  | offerer
  | answerer (remoteOfferSdp : Text)

def construct (P : PeerConnectionApi) (clock : Clock) (config : TunnelConfig)
    (localAddr : SocketAddr) (nowMs : UInt64) : Constructor → Except TunnelError (Tunnel P)
  | .new => new P clock config localAddr nowMs
  | .offerer => offerer P clock config localAddr nowMs
  | .answerer sdp => answerer P clock config localAddr sdp nowMs

inductive Op where
  | receive (nowMs : UInt64) (datagram : Bytes)
  | receiveDeferred (nowMs : UInt64) (datagram : Bytes)
  | finishInputBatch
  | tick (nowMs : UInt64)
  | send (message : Bytes)
  | close
  | pollEvent
  | nextDeadline
  | applyRemoteAnswerSdp (sdp : Text)
  | setRemote (remote : SocketAddr)
  | setSendBufferCap (cap : Nat)

def step (t : Tunnel P) : Op → Tunnel P
  | .receive nowMs datagram => t.receive nowMs datagram
  | .receiveDeferred nowMs datagram => t.receiveDeferred nowMs datagram
  | .finishInputBatch => t.finishInputBatch
  | .tick nowMs => t.tick nowMs
  | .send message => (t.send message).2
  | .close => t.close
  | .pollEvent => t.pollEvent.2
  | .nextDeadline => t.nextDeadline.2
  | .applyRemoteAnswerSdp sdp => (t.applyRemoteAnswerSdp sdp).1
  | .setRemote remote => t.setRemote remote
  | .setSendBufferCap cap => t.setSendBufferCap cap

/-- A state some constructor and some calls lead to. -/
def Reachable (t : Tunnel P) : Prop :=
  ∃ clock config localAddr nowMs c t₀ ops,
    construct P clock config localAddr nowMs c = .ok t₀ ∧ t = run step t₀ ops

end Tunnel

end RtcTunnel.Umbrella
