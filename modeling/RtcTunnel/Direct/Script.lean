import RtcTunnel.Direct.Build

/-!
# Scripted layers

A set of layers small enough to evaluate, in which the bytes of a datagram say
what the layers find in it. The layers keep the habits of the real ones that
matter here: DTLS asks the callback of its configuration before it reports a
handshake, an SCTP server answers every INIT with an association, DATA creates
the stream it is addressed to, and a stream that exists is not opened again.
-/

namespace RtcTunnel.Direct.Script

open RtcTunnel.Core
open DirectTunnel (Constructor construct)
open RtcTunnel.Base (okValue eq_ok_okValue)
open RtcTunnel.Base.Poll (Source Slot)

set_option autoImplicit false

structure Agent where
  selected : Bool
  failed : Bool
  seen : Instant
  events : List IceEvent
  writes : List Bytes
  ownCredentials : Credentials
  peerCredentials : Option Credentials
  candidates : List CandidateHostConfig

def Agent.eventSlot : Slot Agent (List IceEvent) where
  get := events
  set a es := { a with events := es }
  get_set _ _ := rfl
  set_get _ := rfl
  set_set _ _ _ := rfl

def Agent.writeSlot : Slot Agent (List Bytes) where
  get := writes
  set a ws := { a with writes := ws }
  get_set _ _ := rfl
  set_get _ := rfl
  set_set _ _ _ := rfl

def Agent.changeState (a : Agent) (state : IceState) (now : Instant) : Agent :=
  { a with events := a.events ++ [⟨.connectionStateChange state, now⟩] }

/-- Silence for this long fails a selected pair. -/
def failedTimeout : Nat := 30000000000

def Agent.handleRead (a : Agent) (now : Instant) : Agent :=
  let a := { a with seen := now, writes := a.writes ++ [[1]] }
  if a.selected then a else { a with selected := true }.changeState .connected now

def Agent.handleTimeout (a : Agent) (now : Instant) : Agent :=
  if a.selected && !a.failed && decide (a.seen + failedTimeout ≤ now) then
    { a with failed := true }.changeState .failed now
  else a

def ice : IceApi where
  Agent := Agent
  Candidate := CandidateHostConfig
  new now config := .ok
    { selected := false, failed := false, seen := now, events := [], writes := [],
      ownCredentials := ⟨config.localUfrag, config.localPwd⟩, peerCredentials := none,
      candidates := [] }
  newCandidateHost := .ok
  marshal _ := "1 1 udp 2130706431 192.0.2.1 4000 typ host".toList
  addLocalCandidate a c := ({ a with candidates := a.candidates ++ [c] }, .ok ())
  addRemoteCandidate a _ := (a, .ok ())
  setRemoteCredentials a ufrag pwd := ({ a with peerCredentials := some ⟨ufrag, pwd⟩ }, .ok ())
  startConnectivityChecks a _ _ _ _ := (a, .ok ())
  remoteCredentials := Agent.peerCredentials
  localCredentials := Agent.ownCredentials
  localCandidates := Agent.candidates
  handleRead a now _ _ _ := (a.handleRead now, .ok ())
  handleTimeout a now := (a.handleTimeout now, .ok ())
  pollTimeout a := (if a.selected && !a.failed then some (a.seen + failedTimeout) else none, a)
  events := Source.queue Agent.eventSlot
  writes := Source.queue Agent.writeSlot
  pairSelected := Agent.selected
  close a := (a.changeState .closed a.seen, .ok ())

structure Dtls where
  config : Option HandshakeConfig
  peer : List Bytes
  transmits : List Bytes

def Dtls.transmitSlot : Slot Dtls (List Bytes) where
  get := transmits
  set d ts := { d with transmits := ts }
  get_set _ _ := rfl
  set_get _ := rfl
  set_set _ _ _ := rfl

/-- The verdict of the configuration on a chain. -/
def accepts (config : Option HandshakeConfig) (chain : List Bytes) : Bool :=
  match config with
  | none => false
  | some config =>
    match config.verifyPeerCertificate with
    | none => true
    | some verify => (verify chain).isOk

def Dtls.read (d : Dtls) : Bytes → Dtls × Except String (List DtlsEvent)
  | 22 :: certificate =>
    if accepts d.config [certificate] then
      ({ d with peer := [certificate] }, .ok [.handshakeComplete])
    else (d, .error "bad certificate")
  | 23 :: data => (d, .ok [.applicationData data])
  | _ => (d, .ok [])

def dtls : DtlsApi where
  Endpoint := Dtls
  new := { config := none, peer := [], transmits := [] }
  checkConfig _ := .ok ()
  setServerConfig d config := { d with config := config }
  connect d _ _ config :=
    ({ d with config := some config, transmits := d.transmits ++ [[22]] }, .ok ())
  read d _ _ datagram := d.read datagram
  write d _ _ raw := ({ d with transmits := d.transmits ++ [23 :: raw] }, .ok ())
  handleTimeout d _ _ := (d, .ok ())
  pollTimeout _ _ := none
  transmits := Source.queue Dtls.transmitSlot
  peerCertificates d _ := d.peer

structure Association where
  streams : List UInt16
  events : List SctpEvent
  inbox : List (Ppi × Option Bytes)
  transmits : List Transmit
  buffered : Nat

def Association.eventSlot : Slot Association (List SctpEvent) where
  get := events
  set a es := { a with events := es }
  get_set _ _ := rfl
  set_get _ := rfl
  set_set _ _ _ := rfl

def Association.inboxSlot : Slot Association (List (Ppi × Option Bytes)) where
  get := inbox
  set a ms := { a with inbox := ms }
  get_set _ _ := rfl
  set_get _ := rfl
  set_set _ _ _ := rfl

def Association.transmitSlot : Slot Association (List Transmit) where
  get := transmits
  set a ts := { a with transmits := ts }
  get_set _ _ := rfl
  set_get _ := rfl
  set_set _ _ _ := rfl

def Association.fresh : Association :=
  { streams := [], events := [], inbox := [], transmits := [], buffered := 0 }

/-- A message that became complete on stream 0, which DATA creates. -/
def Association.arrive (a : Association) (message : Ppi × Option Bytes) : Association :=
  if 0 ∈ a.streams then
    { a with inbox := a.inbox ++ [message], events := a.events ++ [.readable 0] }
  else
    { a with streams := a.streams ++ [0], inbox := [message], events := a.events ++ [.readable 0] }

/-- The length of a message; one without a payload stands for zeros past the bound of the
tunnel. -/
def size (c : Ppi × Option Bytes) : Nat := c.2.elim (maxMessageSize + 1) List.length

def payload (c : Ppi × Option Bytes) : Bytes := c.2.getD (List.replicate (maxMessageSize + 1) 0)

theorem length_payload (c : Ppi × Option Bytes) : (payload c).length = size c := by
  obtain ⟨_, _ | body⟩ := c
  · exact List.length_replicate
  · rfl

/-- `2` ends the handshake, `3, b` is a message of one byte and `5` one past the
bound, both on stream 0, `4` loses the association, `6` is HEARTBEAT. -/
def Association.handleEvent (a : Association) : Bytes → Association
  | 2 :: rest => handleEvent { a with events := a.events ++ [.connected] } rest
  | 3 :: b :: rest => handleEvent (a.arrive (.binary, some [b])) rest
  | 4 :: rest => handleEvent { a with events := a.events ++ [.associationLost] } rest
  | 5 :: rest => handleEvent (a.arrive (.binary, none)) rest
  | 6 :: rest => handleEvent { a with transmits := a.transmits ++ [.rawEncode [[6]]] } rest
  | _ => a

def Association.openStream (a : Association) (id : UInt16) :
    Association × Except String Unit :=
  if id ∈ a.streams then (a, .error "stream already exists")
  else
    ({ a with streams := a.streams ++ [id], inbox := if id = 0 then [] else a.inbox }, .ok ())

def Association.write (a : Association) (payload : Bytes) : Association :=
  { a with transmits := a.transmits ++ [.rawEncode [payload]]
           buffered := a.buffered + payload.length }

/-- The endpoint of a server answers INIT, `1`, with an association; what else
it receives belongs to the association it has. -/
def sctpHandle (server : Bool) : Bytes → Option (Unit × DatagramEvent Association Bytes)
  | 1 :: rest => if server then some ((), .newAssociation (Association.fresh.handleEvent rest)) else none
  | chunks => some ((), .associationEvent chunks)

def sctp : SctpApi where
  Endpoint := Bool
  Association := Association
  Handle := Unit
  AssociationEvent := Bytes
  EndpointEvent := Unit
  Chunks := Ppi × Option Bytes
  new config := config.isSome
  connect e _ _ _ := (e, .ok ((), Association.fresh))
  handle e _ _ data := (e, sctpHandle e data)
  handleEndpointEvent e _ _ := e
  events := Source.queue Association.eventSlot
  endpointEvents := Source.empty Association Unit
  handleEvent := Association.handleEvent
  hasStream a id := id ∈ a.streams
  openStream a id _ := a.openStream id
  setReliabilityParams a id _ _ _ :=
    (a, if id ∈ a.streams then .ok () else .error "stream not existed")
  readSctp id :=
    (if id = 0 then Source.queue Association.inboxSlot else Source.empty Association _).lift String
  ppi := Prod.fst
  toPayload c bound := if size c ≤ bound then .ok (payload c) else .error "short buffer"
  bufferedAmount a _ := .ok a.buffered
  isWritable _ _ := true
  writeChunkWithPpi a _ payload _ := (a.write payload, .ok payload.length)
  handleTimeout a _ := a
  pollTimeout _ := none
  transmits _ := Source.queue Association.transmitSlot

/-- A digest that keeps the first byte only. -/
def sha256 (data : Bytes) : Except String Bytes := .ok (data.take 1)

def layers : Layers where
  ice := ice
  dtls := dtls
  sctp := sctp
  sha256 := sha256
  toLowercase := List.map Char.toLower

def host : BuildHost where
  cryptoProvider := .ok ()
  instantNow := 0
  instantNowAgain := 0
  generateUfrag := "ufrag".toList
  generatePwd := "pwd".toList
  certificate := .ok [[7]]

def localAddr : SocketAddr := ⟨.v4 (.new 192 0 2 1), 4000, 0⟩
def remoteAddr : SocketAddr := ⟨.v4 (.new 192 0 2 2), 4001, 0⟩

/-- The peer's certificate is `[7]`, as the digest shows it. -/
def config : TunnelConfig :=
  TunnelConfig.new remoteAddr "peer".toList "secret".toList "07".toList

def offer : Text :=
  "a=ice-ufrag:peer\na=ice-pwd:secret\na=fingerprint:sha-256 07\n".toList ++
  "a=candidate:1 1 udp 1 192.0.2.2 4001 typ host\n".toList

def build (c : Constructor) : Except TunnelError (DirectTunnel layers) :=
  construct layers host config localAddr 0 c

theorem build_new : (build .new).isOk = true := by decide

theorem build_answerer : (build (.answerer offer)).isOk = true := by decide

/-- The tunnel that dials. -/
def dialer : DirectTunnel layers := okValue (build .new) build_new

/-- The tunnel that answers `offer`. -/
def listener : DirectTunnel layers := okValue (build (.answerer offer)) build_answerer

theorem build_dialer : construct layers host config localAddr 0 .new = .ok dialer :=
  eq_ok_okValue _ build_new

theorem build_listener :
    construct layers host config localAddr 0 (.answerer offer) = .ok listener :=
  eq_ok_okValue _ build_answerer

end RtcTunnel.Direct.Script
