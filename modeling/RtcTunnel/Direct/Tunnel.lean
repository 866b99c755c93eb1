import RtcTunnel.Base.Outcome
import RtcTunnel.Core.Sdp
import RtcTunnel.Direct.Layers

/-!
# The direct tunnel

`DirectTunnel` and its operations, function by function. The one field the
source does not have is `log`, a history of what the tunnel pushed to its event
queue and of the calls into the layers that bring the channel up; no operation
reads it.
-/

namespace RtcTunnel.Direct

open RtcTunnel.Core
open RtcTunnel.Base (Outcome)
open RtcTunnel.Base.Poll (Source TrySource)

set_option autoImplicit false

inductive Role where
  | offerer
  | answerer
  deriving DecidableEq

def isStun : Bytes → Bool
  | b :: _ => b ≤ 3
  | [] => false

def isDtls : Bytes → Bool
  | b :: _ => 20 ≤ b && b ≤ 63
  | [] => false

inductive Entry where
  | pushed (event : Event)
  | dtlsConnect (remote : SocketAddr) (ok : Bool)
  | handshakeComplete (peer : List Bytes)
  | sctpConnect (ok : Bool)
  | newAssociation
  | sctpConnected
  | openStream (id : UInt16) (ppi : Ppi) (ok : Bool)
  | setReliabilityParams (unordered : Bool) (type : ReliabilityType) (value : UInt32) (ok : Bool)
  | writeChunk (payload : Bytes) (ppi : Ppi)
  deriving DecidableEq

structure DirectTunnel (L : Layers) where
  role : Role
  ice : L.ice.Agent
  dtls : L.dtls.Endpoint
  dtlsConfig : Option HandshakeConfig
  localFingerprint : Text
  sctp : Option L.sctp.Endpoint
  sctpConfig : Option TransportConfig
  association : Option L.sctp.Association
  associationHandle : Option L.sctp.Handle
  localAddr : SocketAddr
  remoteAddr : SocketAddr
  sctpPort : UInt16
  streamId : UInt16
  ordered : Bool
  maxRetransmits : UInt16
  remoteFingerprint : Text
  fingerprintAlgorithm : Text
  disableFingerprintVerification : Bool
  dtlsStarted : Bool
  dtlsConnected : Bool
  sctpConnected : Bool
  channelDialed : Bool
  opened : Bool
  finished : Bool
  droppedDatagrams : UInt64
  epoch : Instant
  lastNow : Instant
  handshakeDeadline : Instant
  sendBufferCap : Nat
  events : List Event
  trace : HandshakeTrace
  log : List Entry

namespace DirectTunnel

variable {L : Layers}

def pushAll (t : DirectTunnel L) (es : List Event) : DirectTunnel L :=
  { t with events := t.events ++ es, log := t.log ++ es.map .pushed }

def push (t : DirectTunnel L) (e : Event) : DirectTunnel L := t.pushAll [e]

def record (t : DirectTunnel L) (e : Entry) : DirectTunnel L := { t with log := t.log ++ [e] }

def ms (t : DirectTunnel L) (i : Instant) : UInt64 := i.millisSince t.epoch

def finish (t : DirectTunnel L) (reason : CloseReason) : DirectTunnel L :=
  if t.finished then t else { t with finished := true }.push (.closed reason)

def activateDtls (t : DirectTunnel L) : DirectTunnel L × Bool :=
  match t.role with
  | .answerer => (t, true)
  | .offerer =>
    match t.dtlsConfig with
    | none => (t, false)
    | some config =>
      let r := L.dtls.connect t.dtls t.lastNow t.remoteAddr config
      ({ t with dtls := r.1 }.record (.dtlsConnect t.remoteAddr r.2.isOk), r.2.isOk)

/-- `self.dtls_started = self.activate_dtls()` -/
def startDtls (t : DirectTunnel L) : DirectTunnel L :=
  { t.activateDtls.1 with dtlsStarted := t.activateDtls.2 }

def transportConfig (t : DirectTunnel L) : TransportConfig where
  maxMessageSize := maxMessageSize
  sctpPort := t.sctpPort

def startSctp (t : DirectTunnel L) : Outcome (DirectTunnel L) TunnelError :=
  match t.role with
  | .offerer =>
    let endpoint := L.sctp.new none
    let r := L.sctp.connect endpoint t.lastNow t.transportConfig t.remoteAddr
    match r.2 with
    | .ok (handle, association) =>
      ({ t with sctp := some r.1, association := some association,
                associationHandle := some handle }.record (.sctpConnect true), .ok ())
    | .error e =>
      ({ t with sctp := some r.1 }.record (.sctpConnect false),
        .error (.config ("sctp connect: " ++ e)))
  | .answerer =>
    ({ t with sctp := some (L.sctp.new (some t.transportConfig)),
              sctpConfig := some t.transportConfig }, .ok ())

def feedSctp (t : DirectTunnel L) (now : Instant) (datagram : Bytes) : DirectTunnel L :=
  match t.sctp with
  | none => t
  | some endpoint =>
    let r := L.sctp.handle endpoint now t.remoteAddr datagram
    let t := { t with sctp := some r.1 }
    match r.2 with
    | some (handle, .newAssociation association) =>
      { t with association := some association,
               associationHandle := some handle }.record .newAssociation
    | some (_, .associationEvent event) =>
      { t with association := t.association.map (L.sctp.handleEvent · event) }
    | some (_, .other) => t
    | none => t

def feedDtlsEvent (t : DirectTunnel L) (now : Instant) :
    DtlsEvent → Outcome (DirectTunnel L) TunnelError
  | .handshakeComplete =>
    let t := { t with dtlsConnected := true, trace := t.trace.observeDtls (t.ms now) }
    let t := t.record (.handshakeComplete (L.dtls.peerCertificates t.dtls t.remoteAddr))
    if t.sctp.isNone then t.startSctp else (t, .ok ())
  | .applicationData data => (t.feedSctp now data, .ok ())
  | .other => (t, .ok ())

def feedDtlsEvents (now : Instant) : List DtlsEvent → DirectTunnel L →
    Outcome (DirectTunnel L) TunnelError
  | [], t => (t, .ok ())
  | e :: es, t => (t.feedDtlsEvent now e).andThen (feedDtlsEvents now es)

def feedDtls (t : DirectTunnel L) (now : Instant) (datagram : Bytes) :
    Outcome (DirectTunnel L) TunnelError :=
  let r := L.dtls.read t.dtls now t.remoteAddr datagram
  let t := { t with dtls := r.1 }
  match r.2 with
  | .error e => (t, .error (.config ("dtls read: " ++ e)))
  | .ok events => feedDtlsEvents now events t

/-- The dispatch of `ingest`, before a failure is counted. -/
def dispatch (t : DirectTunnel L) (now : Instant) (datagram : Bytes) :
    DirectTunnel L × Bool :=
  if isStun datagram then
    let r := L.ice.handleRead t.ice now t.localAddr t.remoteAddr datagram
    ({ t with ice := r.1 }, r.2.isOk)
  else if isDtls datagram then
    if L.ice.pairSelected t.ice then
      let t := if t.dtlsStarted then t else t.startDtls
      let r := t.feedDtls now datagram
      (r.1, r.2.isOk)
    else (t, true)
  else (t, true)

def ingest (t : DirectTunnel L) (now : Instant) (datagram : Bytes) : DirectTunnel L :=
  let r := t.dispatch now datagram
  if r.2 then r.1 else { r.1 with droppedDatagrams := saturatingSucc r.1.droppedDatagrams }

def observeIceEvent (t : DirectTunnel L) (e : IceEvent) : DirectTunnel L :=
  match e.event with
  | .connectionStateChange .connected | .connectionStateChange .completed =>
    { t with trace := t.trace.observeIce (t.ms e.now) }
  | _ => t

def drainIceEvents (t : DirectTunnel L) : DirectTunnel L :=
  let r := L.ice.events.drain t.ice
  r.1.foldl observeIceEvent { t with ice := r.2 }

def drainIceWrites (t : DirectTunnel L) : DirectTunnel L :=
  let r := L.ice.writes.drain t.ice
  { t with ice := r.2 }.pushAll (r.1.map .sendDatagram)

def drainDtlsTransmits (t : DirectTunnel L) : DirectTunnel L :=
  let r := L.dtls.transmits.drain t.dtls
  { t with dtls := r.2 }.pushAll (r.1.map .sendDatagram)

/-- One round of the loop of `read_stream`: the messages pushed so far come in,
and go out with the next one behind them. -/
def readChunk (L : Layers) (chunks : L.sctp.Chunks) (msgs : List Event) :
    Outcome (List Event) TunnelError :=
  match L.sctp.ppi chunks with
  | .binaryEmpty | .stringEmpty => (msgs ++ [.message []], .ok ())
  | .binary | .string =>
    match L.sctp.toPayload chunks maxMessageSize with
    | .ok payload => (msgs ++ [.message payload], .ok ())
    | .error e => (msgs, .error (.config ("reassemble: " ++ e)))
  | .other => (msgs, .ok ())

/-- `stream.read_sctp()` with its error wrapped. -/
def reader (L : Layers) (id : UInt16) : TrySource L.sctp.Association TunnelError L.sctp.Chunks where
  poll a := (configError "sctp read" ((L.sctp.readSctp id).poll a).1, ((L.sctp.readSctp id).poll a).2)
  pending := (L.sctp.readSctp id).pending
  pending_lt {a c} h := by
    apply (L.sctp.readSctp id).pending_lt (a := c)
    cases hp : ((L.sctp.readSctp id).poll a).1 with
    | error e => rw [hp] at h; cases h
    | ok o => rw [hp] at h; cases h; rfl

def readStream (t : DirectTunnel L) : Outcome (DirectTunnel L) TunnelError :=
  match t.association with
  | none => (t, .ok ())
  | some association =>
    if L.sctp.hasStream association t.streamId then
      let r := (reader L t.streamId).forEach (readChunk L) association []
      ({ t with association := some r.1.1 }.pushAll r.1.2, r.2)
    else (t, .ok ())

/-- The two polling loops of `drain_sctp`: the association's events, and its
endpoint events on their way to the endpoint. -/
def pollAssociation (t : DirectTunnel L) : List SctpEvent × DirectTunnel L :=
  match t.association with
  | none => ([], t)
  | some association =>
    let events := L.sctp.events.drain association
    let toEndpoint := L.sctp.endpointEvents.drain events.2
    let sctp := t.sctp.map fun endpoint =>
      match t.associationHandle with
      | some handle =>
        toEndpoint.1.foldl (fun e ev => L.sctp.handleEndpointEvent e handle ev) endpoint
      | none => endpoint
    (events.1, { t with association := some toEndpoint.2, sctp := sctp })

def observeConnected (t : DirectTunnel L) : DirectTunnel L :=
  { t with sctpConnected := true, trace := t.trace.observeSctp (t.ms t.lastNow) }.record
    .sctpConnected

/-- `connected` and `lost` of `drain_sctp`, handled in this order. -/
def observeSctpEvents (t : DirectTunnel L) (events : List SctpEvent) : DirectTunnel L :=
  let t := if .connected ∈ events then t.observeConnected else t
  if .associationLost ∈ events then t.finish .remote else t

def drainSctp (t : DirectTunnel L) : Outcome (DirectTunnel L) TunnelError :=
  let events := t.pollAssociation.1
  let t := t.pollAssociation.2.observeSctpEvents events
  if .readable t.streamId ∈ events then t.readStream else (t, .ok ())

def reliability (t : DirectTunnel L) : ReliabilityType × UInt32 :=
  if t.maxRetransmits = 65535 then (.reliable, 0) else (.rexmit, t.maxRetransmits.toUInt32)

def openStream (t : DirectTunnel L) : Outcome (DirectTunnel L) TunnelError :=
  let t := { t with channelDialed := true }
  match t.association with
  | none => (t, .error (.config "sctp association is not established"))
  | some association =>
    let r := L.sctp.openStream association t.streamId .binary
    let t := { t with association := some r.1 }.record (.openStream t.streamId .binary r.2.isOk)
    match r.2 with
    | .error e => (t, .error (.config ("open stream: " ++ e)))
    | .ok () =>
      let q := L.sctp.setReliabilityParams r.1 t.streamId (!t.ordered) t.reliability.1 t.reliability.2
      let t := { t with association := some q.1 }.record
        (.setReliabilityParams (!t.ordered) t.reliability.1 t.reliability.2 q.2.isOk)
      (t, configError "reliability" q.2)

def drainChannel (t : DirectTunnel L) : Outcome (DirectTunnel L) TunnelError :=
  if t.sctpConnected && !t.channelDialed then t.openStream else (t, .ok ())

def writeRaws (L : Layers) (now : Instant) (remote : SocketAddr) :
    List Bytes → L.dtls.Endpoint → Outcome L.dtls.Endpoint TunnelError
  | [], d => (d, .ok ())
  | raw :: raws, d =>
    let r := L.dtls.write d now remote raw
    Outcome.andThen (r.1, configError "dtls write" r.2) (writeRaws L now remote raws)

def drainSctpTransmits (t : DirectTunnel L) : Outcome (DirectTunnel L) TunnelError :=
  match t.association with
  | none => (t, .ok ())
  | some association =>
    let write : Transmit → L.dtls.Endpoint → Outcome L.dtls.Endpoint TunnelError
      | .rawEncode raws, d =>
        if t.dtlsStarted then writeRaws L t.lastNow t.remoteAddr raws d else (d, .ok ())
      | .other, d => (d, .ok ())
    let r := ((L.sctp.transmits t.lastNow).lift TunnelError).forEach write association t.dtls
    ({ t with association := some r.1.1, dtls := r.1.2 }, r.2)

def maybeOpen (t : DirectTunnel L) : DirectTunnel L :=
  if t.opened then t
  else if t.sctpConnected && t.channelDialed then
    { t with opened := true, trace := t.trace.observeOpen (t.ms t.lastNow) }.push .opened
  else t

/-- The part of `pump` that runs once DTLS started. -/
def pumpStarted (t : DirectTunnel L) : Outcome (DirectTunnel L) TunnelError :=
  ((t.drainSctp.andThen drainChannel).andThen drainSctpTransmits).andThen
    fun t => (t.drainDtlsTransmits, .ok ())

/-- The ICE part of `pump`, up to the start of DTLS. -/
def pumpIce (t : DirectTunnel L) : DirectTunnel L :=
  let t := t.drainIceEvents.drainIceWrites
  if L.ice.pairSelected t.ice && !t.dtlsStarted then t.startDtls else t

def pump (t : DirectTunnel L) : Outcome (DirectTunnel L) TunnelError :=
  let t := t.pumpIce
  Outcome.andThen (if t.dtlsStarted then t.pumpStarted else (t, .ok ()))
    fun t => (t.maybeOpen, .ok ())

def receive (t : DirectTunnel L) (nowMs : UInt64) (datagram : Bytes) : DirectTunnel L :=
  if t.finished then t
  else
    let now := t.epoch.addMillis nowMs
    ({ t with lastNow := now }.ingest now datagram).pump.1

def receiveDeferred (t : DirectTunnel L) (nowMs : UInt64) (datagram : Bytes) : DirectTunnel L :=
  if t.finished then t
  else
    let now := t.epoch.addMillis nowMs
    let t := { t with lastNow := now }.ingest now datagram
    if t.opened then t else t.pump.1

def finishInputBatch (t : DirectTunnel L) : DirectTunnel L :=
  if t.finished || !t.opened then t else t.pump.1

/-- The layer timeouts of `tick`. -/
def handleTimeouts (t : DirectTunnel L) (now : Instant) : DirectTunnel L :=
  let t := { t with ice := (L.ice.handleTimeout t.ice now).1 }
  let t :=
    if t.dtlsStarted then { t with dtls := (L.dtls.handleTimeout t.dtls t.remoteAddr now).1 } else t
  { t with association := t.association.map (L.sctp.handleTimeout · now) }

def tick (t : DirectTunnel L) (nowMs : UInt64) : DirectTunnel L :=
  if t.finished then t
  else
    let now := t.epoch.addMillis nowMs
    let t := ({ t with lastNow := now }.handleTimeouts now).pump.1
    if !t.opened && decide (t.handshakeDeadline ≤ now) then t.finish .timeout else t

/-- What `send` puts on the stream: an empty message travels as one zero byte. -/
def encodeMessage (data : Bytes) : Ppi × Bytes :=
  if data.isEmpty then (.binaryEmpty, [0]) else (.binary, data)

/-- The drains after an accepted write; their errors are dropped one by one. -/
def flushAfterSend (t : DirectTunnel L) : DirectTunnel L :=
  t.drainChannel.1.drainSctpTransmits.1.drainDtlsTransmits

def send (t : DirectTunnel L) (data : Bytes) : SendResult × DirectTunnel L :=
  if t.finished then (.notOpen, t)
  else if !t.opened then (.notOpen, t)
  else if maxMessageSize < data.length then (.tooLarge, t)
  else
    match t.association with
    | none => (.notOpen, t)
    | some association =>
      if !L.sctp.hasStream association t.streamId then (.notOpen, t)
      else
        let buffered := (L.sctp.bufferedAmount association t.streamId).toOption.getD 0
        if t.sendBufferCap < buffered + data.length then (.backpressure, t)
        else if !L.sctp.isWritable association t.streamId then (.notOpen, t)
        else
          let m := encodeMessage data
          let r := L.sctp.writeChunkWithPpi association t.streamId m.2 m.1
          let t := { t with association := some r.1 }
          match r.2 with
          | .error _ => (.notOpen, t)
          | .ok _ => (.accepted, (t.record (.writeChunk m.2 m.1)).flushAfterSend)

def close (t : DirectTunnel L) : DirectTunnel L :=
  if t.finished then t else { t with ice := (L.ice.close t.ice).1 }.finish .local

def pollEvent (t : DirectTunnel L) : Option Event × DirectTunnel L :=
  (t.events.head?, { t with events := t.events.tail })

def earlier (best : Option Instant) : Option Instant → Option Instant
  | none => best
  | some i => some (best.elim i (min · i))

def nextDeadline (t : DirectTunnel L) : Option UInt64 × DirectTunnel L :=
  if t.finished then (none, t)
  else
    let best := if t.opened then none else some t.handshakeDeadline
    let ice := L.ice.pollTimeout t.ice
    let best := earlier best ice.1
    let best := if t.dtlsStarted then earlier best (L.dtls.pollTimeout t.dtls t.remoteAddr) else best
    let best := earlier best (t.association.bind L.sctp.pollTimeout)
    (best.map t.ms, { t with ice := ice.2 })

/-- Always `Ok(())` in the source. -/
def applyRemoteAnswerSdp (t : DirectTunnel L) (sdp : Text) : DirectTunnel L :=
  match parseAnswerFingerprint L.toLowercase sdp with
  | some fingerprint => { t with remoteFingerprint := fingerprint }
  | none => t

def setRemote (t : DirectTunnel L) (remote : SocketAddr) : DirectTunnel L :=
  { t with remoteAddr := remote }

def setRemoteIceCredentials (t : DirectTunnel L) (ufrag pwd : Text) :
    Outcome (DirectTunnel L) TunnelError :=
  let r := L.ice.setRemoteCredentials t.ice ufrag pwd
  ({ t with ice := r.1 }, configError "remote credentials" r.2)

def setSendBufferCap (t : DirectTunnel L) (cap : Nat) : DirectTunnel L :=
  { t with sendBufferCap := cap }

def bufferedBytes (t : DirectTunnel L) : Nat :=
  match t.association with
  | none => 0
  | some association =>
    if L.sctp.hasStream association t.streamId then
      (L.sctp.bufferedAmount association t.streamId).toOption.getD 0
    else 0

def renderSdp (t : DirectTunnel L) (setup : Text) : Text :=
  let creds := L.ice.localCredentials t.ice
  let candidate := ((L.ice.localCandidates t.ice).head?.map L.ice.marshal).getD []
  let family := if t.localAddr.isIpv4 then "IP4" else "IP6"
  let unspecified := if t.localAddr.isIpv4 then "0.0.0.0" else "::"
  let line (s : Text) : Text := s ++ ['\r', '\n']
  line "v=0".toList ++
  line ("o=- 0 0 IN ".toList ++ family.toList ++ " ".toList ++ unspecified.toList) ++
  line "s=-".toList ++
  line "t=0 0".toList ++
  line ("a=fingerprint:".toList ++ t.fingerprintAlgorithm ++ " ".toList ++ t.localFingerprint) ++
  line "a=group:BUNDLE 0".toList ++
  line "m=application 9 UDP/DTLS/SCTP webrtc-datachannel".toList ++
  line ("c=IN ".toList ++ family.toList ++ " ".toList ++ unspecified.toList) ++
  line ("a=setup:".toList ++ setup) ++
  line "a=mid:0".toList ++
  line ("a=sctp-port:".toList ++ Nat.toDigits 10 t.sctpPort.toNat) ++
  line ("a=max-message-size:".toList ++ Nat.toDigits 10 maxMessageSize) ++
  line ("a=ice-ufrag:".toList ++ creds.ufrag) ++
  line ("a=ice-pwd:".toList ++ creds.pwd) ++
  line ("a=candidate:".toList ++ candidate)

def offerSdp (t : DirectTunnel L) : Option Text := some (t.renderSdp "actpass".toList)

def answerSdp (t : DirectTunnel L) : Option Text :=
  match t.role with
  | .answerer => some (t.renderSdp "passive".toList)
  | .offerer => none

end DirectTunnel

end RtcTunnel.Direct
