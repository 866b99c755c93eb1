import RtcTunnel.Base.Poll
import RtcTunnel.Core.Tunnel

/-!
# The umbrella peer connection

The calls the `rtc`-backed tunnel makes into `rtc::RTCPeerConnection`, as an
interface like the layers of the direct backend. Only the parts of an event, a
message or a transport that the tunnel looks at are kept.
-/

namespace RtcTunnel.Umbrella

open RtcTunnel.Core
open RtcTunnel.Base.Poll (Source)

set_option autoImplicit false

inductive PeerConnectionState where
  | unspecified
  | new
  | connecting
  | connected
  | disconnected
  | failed
  | closed
  deriving DecidableEq

inductive IceConnectionState where
  | unspecified
  | new
  | checking
  | connected
  | completed
  | disconnected
  | failed
  | closed
  deriving DecidableEq

inductive DataChannelEvent where
  | onOpen
  | onError
  | onClosing
  | onClose
  | onBufferedAmountLow
  | onBufferedAmountHigh
  deriving DecidableEq

inductive PeerConnectionEvent where
  | onDataChannel (event : DataChannelEvent)
  | onConnectionStateChange (state : PeerConnectionState)
  | onIceConnectionStateChange (state : IceConnectionState)
  | other
  deriving DecidableEq

inductive Message where
  | dataChannelMessage (data : Bytes)
  | other

inductive DataChannelState where
  | unspecified
  | connecting
  | open
  | closing
  | closed
  deriving DecidableEq

/-- What `data_channel(handle)` shows of a channel that exists. -/
structure DataChannel where
  readyState : DataChannelState
  outstandingBytes : Nat

structure DataChannelInit where
  ordered : Bool
  maxRetransmits : Option UInt16
  negotiated : UInt16

/-- A UDP host candidate of component 1. -/
structure CandidateHostConfig where
  address : Text
  port : UInt16

inductive DtlsRole where
  | auto
  | client
  | server

structure Settings where
  disableCertificateFingerprintVerification : Bool
  answeringDtlsRole : DtlsRole

inductive SdpType where
  | offer
  | answer

/-- The transports below the SCTP transport, each up or not. -/
structure Transports where
  ice : Bool
  dtls : Bool
  sctp : Bool

structure PeerConnectionApi where
  Pc : Type
  Channel : Type
  Candidate : Type
  Description : Type
  build : Settings → Instant → Except String Pc
  createDataChannel : Pc → Text → DataChannelInit → Pc × Except String Channel
  /-- `new_candidate_host` and `to_json`. -/
  newCandidateHost : CandidateHostConfig → Except String Candidate
  addLocalCandidate : Pc → Candidate → Pc × Except String Unit
  createOffer : Pc → Pc × Except String Description
  createAnswer : Pc → Pc × Except String Description
  describe : SdpType → Text → Except String Description
  sdp : Description → Text
  setLocalDescription : Pc → Instant → Description → Pc × Except String Unit
  setRemoteDescription : Pc → Instant → Description → Pc × Except String Unit
  localDescription : Pc → Option Description
  handleRead : Pc → Instant → SocketAddr → SocketAddr → Bytes → Pc × Except String Unit
  handleTimeout : Pc → Instant → Pc × Except String Unit
  pollTimeout : Pc → Option Instant × Pc
  close : Pc → Pc × Except String Unit
  writes : Source Pc Bytes
  events : Source Pc PeerConnectionEvent
  reads : Source Pc Message
  dataChannel : Pc → Channel → Option DataChannel
  send : Pc → Channel → Instant → Bytes → Pc × Except String Unit
  transports : Pc → Option Transports

end RtcTunnel.Umbrella
