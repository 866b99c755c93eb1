import RtcTunnel.Base.Poll
import RtcTunnel.Core.Tunnel

/-!
# The layers below the tunnel

`rtc-ice`, `rtc-dtls` and `rtc-sctp` are third-party crates. Each appears here as
its interface: the types it keeps to itself and the calls the tunnel makes. A
layer is any implementation of that interface, so what is proved for all
`Layers` holds for every behaviour of the three crates that returns from its
polling loops. A call on `&mut self` gives the layer it leaves behind, also
when it fails.
-/

namespace RtcTunnel.Direct

open RtcTunnel.Core
open RtcTunnel.Base.Poll (Source TrySource)

set_option autoImplicit false

inductive NetworkType where
  | udp4
  | udp6
  deriving DecidableEq

def networkTypeOf (addr : SocketAddr) : NetworkType :=
  if addr.isIpv4 then .udp4 else .udp6

structure AgentConfig where
  localUfrag : Text
  localPwd : Text
  networkTypes : List NetworkType
  isControlling : Bool

/-- A host candidate of component 1 over UDP. -/
structure CandidateHostConfig where
  address : IpAddr
  port : UInt16

structure Credentials where
  ufrag : Text
  pwd : Text

inductive IceState where
  | new
  | checking
  | connected
  | completed
  | failed
  | disconnected
  | closed
  deriving DecidableEq

inductive IceEventKind where
  | connectionStateChange (state : IceState)
  | other
  deriving DecidableEq

structure IceEvent where
  event : IceEventKind
  now : Instant
  deriving DecidableEq

structure IceApi where
  Agent : Type
  Candidate : Type
  new : Instant → AgentConfig → Except String Agent
  newCandidateHost : CandidateHostConfig → Except String Candidate
  marshal : Candidate → Text
  addLocalCandidate : Agent → Candidate → Agent × Except String Unit
  addRemoteCandidate : Agent → Candidate → Agent × Except String Unit
  setRemoteCredentials : Agent → Text → Text → Agent × Except String Unit
  startConnectivityChecks : Agent → Instant → Bool → Text → Text → Agent × Except String Unit
  remoteCredentials : Agent → Option Credentials
  localCredentials : Agent → Credentials
  localCandidates : Agent → List Candidate
  handleRead : Agent → Instant → SocketAddr → SocketAddr → Bytes → Agent × Except String Unit
  handleTimeout : Agent → Instant → Agent × Except String Unit
  pollTimeout : Agent → Option Instant × Agent
  events : Source Agent IceEvent
  writes : Source Agent Bytes
  /-- `get_selected_candidate_pair().is_some()` -/
  pairSelected : Agent → Bool
  close : Agent → Agent × Except String Unit

inductive VerifyError where
  | errNonCertificate
  | errUnsupportedFingerprintAlgorithm
  | crypto (msg : String)
  | errNoMatchingCertificateFingerprint
  deriving DecidableEq

/-- The callback DTLS asks about the peer's certificate chain. -/
abbrev VerifyPeerCertificateFn := List Bytes → Except VerifyError Unit

structure HandshakeConfig where
  certificates : List Bytes
  verifyPeerCertificate : Option VerifyPeerCertificateFn
  isClient : Bool
  remote : SocketAddr

inductive DtlsEvent where
  | handshakeComplete
  | applicationData (data : Bytes)
  | other
  deriving DecidableEq

structure DtlsApi where
  Endpoint : Type
  new : Endpoint
  /-- `ConfigBuilder::build`: whether the configuration is accepted. -/
  checkConfig : HandshakeConfig → Except String Unit
  setServerConfig : Endpoint → Option HandshakeConfig → Endpoint
  connect : Endpoint → Instant → SocketAddr → HandshakeConfig → Endpoint × Except String Unit
  read : Endpoint → Instant → SocketAddr → Bytes → Endpoint × Except String (List DtlsEvent)
  write : Endpoint → Instant → SocketAddr → Bytes → Endpoint × Except String Unit
  handleTimeout : Endpoint → SocketAddr → Instant → Endpoint × Except String Unit
  pollTimeout : Endpoint → SocketAddr → Option Instant
  transmits : Source Endpoint Bytes
  /-- The chain the peer of a connection presented, as its state records it. -/
  peerCertificates : Endpoint → SocketAddr → List Bytes

inductive SctpEvent where
  | connected
  | readable (id : UInt16)
  | associationLost
  | other
  deriving DecidableEq

inductive Ppi where
  | binary
  | string
  | binaryEmpty
  | stringEmpty
  | other
  deriving DecidableEq

inductive ReliabilityType where
  | reliable
  | rexmit
  | timed
  deriving DecidableEq

structure TransportConfig where
  maxMessageSize : Nat
  sctpPort : UInt16

inductive DatagramEvent (Association AssociationEvent : Type) where
  | newAssociation (association : Association)
  | associationEvent (event : AssociationEvent)
  | other

inductive Transmit where
  | rawEncode (raws : List Bytes)
  | other

structure SctpApi where
  Endpoint : Type
  Association : Type
  Handle : Type
  AssociationEvent : Type
  EndpointEvent : Type
  Chunks : Type
  /-- An endpoint; it accepts associations when it has a server configuration. -/
  new : Option TransportConfig → Endpoint
  connect : Endpoint → Instant → TransportConfig → SocketAddr →
    Endpoint × Except String (Handle × Association)
  handle : Endpoint → Instant → SocketAddr → Bytes →
    Endpoint × Option (Handle × DatagramEvent Association AssociationEvent)
  handleEndpointEvent : Endpoint → Handle → EndpointEvent → Endpoint
  events : Source Association SctpEvent
  endpointEvents : Source Association EndpointEvent
  handleEvent : Association → AssociationEvent → Association
  /-- `stream(id).is_ok()` -/
  hasStream : Association → UInt16 → Bool
  openStream : Association → UInt16 → Ppi → Association × Except String Unit
  setReliabilityParams : Association → UInt16 → Bool → ReliabilityType → UInt32 →
    Association × Except String Unit
  readSctp : UInt16 → TrySource Association String Chunks
  ppi : Chunks → Ppi
  toPayload : Chunks → Nat → Except String Bytes
  bufferedAmount : Association → UInt16 → Except String Nat
  isWritable : Association → UInt16 → Bool
  writeChunkWithPpi : Association → UInt16 → Bytes → Ppi → Association × Except String Nat
  handleTimeout : Association → Instant → Association
  pollTimeout : Association → Option Instant
  transmits : Instant → Source Association Transmit

structure Layers where
  ice : IceApi
  dtls : DtlsApi
  sctp : SctpApi
  /-- The SHA-256 of the crypto provider. -/
  sha256 : Bytes → Except String Bytes
  /-- `str::to_lowercase`, with the case mapping of Unicode. -/
  toLowercase : Text → Text

end RtcTunnel.Direct
