import RtcTunnel.Base.Outcome
import RtcTunnel.Umbrella.Tunnel

/-!
# A scripted peer connection

A peer connection small enough to evaluate, in which the bytes of a datagram say
what it finds there. As in the real one the channel's ready state changes when
the datagram is handled, and the events about it wait to be polled.
-/

namespace RtcTunnel.Umbrella.Script

open RtcTunnel.Core
open RtcTunnel.Base (okValue eq_ok_okValue)
open RtcTunnel.Base.Poll (Source Slot)

set_option autoImplicit false

structure Pc where
  channel : DataChannel
  events : List PeerConnectionEvent
  writes : List Bytes
  inbox : List Message

def Pc.eventSlot : Slot Pc (List PeerConnectionEvent) where
  get := events
  set pc es := { pc with events := es }
  get_set _ _ := rfl
  set_get _ := rfl
  set_set _ _ _ := rfl

def Pc.writeSlot : Slot Pc (List Bytes) where
  get := writes
  set pc ws := { pc with writes := ws }
  get_set _ _ := rfl
  set_get _ := rfl
  set_set _ _ _ := rfl

def Pc.inboxSlot : Slot Pc (List Message) where
  get := inbox
  set pc ms := { pc with inbox := ms }
  get_set _ _ := rfl
  set_get _ := rfl
  set_set _ _ _ := rfl

def Pc.raise (pc : Pc) (e : PeerConnectionEvent) : Pc := { pc with events := pc.events ++ [e] }

/-- `0` opens the channel, `1` fails ICE, `2` closes the channel, `3, b` is a
message of one byte, `4` asks for an answer. -/
def Pc.handleRead (pc : Pc) : Bytes → Pc
  | 0 :: rest =>
    handleRead ({ pc with channel := ⟨.open, 0⟩ }.raise (.onConnectionStateChange .connected)) rest
  | 1 :: rest => handleRead (pc.raise (.onIceConnectionStateChange .failed)) rest
  | 2 :: rest => handleRead ({ pc with channel := ⟨.closed, 0⟩ }.raise (.onDataChannel .onClose)) rest
  | 3 :: b :: rest => handleRead { pc with inbox := pc.inbox ++ [.dataChannelMessage [b]] } rest
  | 4 :: rest => handleRead { pc with writes := pc.writes ++ [[4]] } rest
  | _ => pc

def peerConnection : PeerConnectionApi where
  Pc := Pc
  Channel := Unit
  Candidate := CandidateHostConfig
  Description := Text
  build _ _ := .ok { channel := ⟨.connecting, 0⟩, events := [], writes := [], inbox := [] }
  createDataChannel pc _ _ := (pc, .ok ())
  newCandidateHost := .ok
  addLocalCandidate pc _ := (pc, .ok ())
  createOffer pc := (pc, .ok [])
  createAnswer pc := (pc, .ok [])
  describe _ sdp := .ok sdp
  sdp := id
  setLocalDescription pc _ _ := (pc, .ok ())
  setRemoteDescription pc _ _ := ({ pc with writes := pc.writes ++ [[1]] }, .ok ())
  localDescription _ := some []
  handleRead pc _ _ _ datagram := (pc.handleRead datagram, .ok ())
  handleTimeout pc _ := (pc, .ok ())
  pollTimeout pc := (none, pc)
  close pc := ({ pc with channel := ⟨.closed, 0⟩ }, .ok ())
  writes := Source.queue Pc.writeSlot
  events := Source.queue Pc.eventSlot
  reads := Source.queue Pc.inboxSlot
  dataChannel pc _ := some pc.channel
  send pc _ _ message := ({ pc with writes := pc.writes ++ [message] }, .ok ())
  transports _ := none

def localAddr : SocketAddr := ⟨.v4 (.new 192 0 2 1), 4000, 0⟩
def remoteAddr : SocketAddr := ⟨.v4 (.new 192 0 2 2), 4001, 0⟩

def config : TunnelConfig :=
  TunnelConfig.new remoteAddr "peer".toList "secret".toList "07".toList

theorem build_new :
    (Tunnel.construct peerConnection ⟨0, 0⟩ config localAddr 0 .new).isOk = true := by decide

/-- A tunnel over the scripted peer connection. -/
def tunnel : Tunnel peerConnection := okValue _ build_new

theorem build_tunnel :
    Tunnel.construct peerConnection ⟨0, 0⟩ config localAddr 0 .new = .ok tunnel :=
  eq_ok_okValue _ build_new

end RtcTunnel.Umbrella.Script
