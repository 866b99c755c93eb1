import RtcTunnel.Core.View
import RtcTunnel.Direct.Script
import RtcTunnel.Umbrella.Tunnel

/-!
# The tunnel behind the module

The module is built over one of two backends, which have the same methods. `Contract` is
what the host needs of them, in terms of what it can see: one call into a tunnel only adds to
its queue, the deadline of a tunnel that is not open is not behind its budget, and a tick at the
end of the budget leaves no tunnel waiting.
-/

namespace RtcTunnel.Stack

open RtcTunnel.Core
open RtcTunnel.Direct (DirectTunnel Layers)
open RtcTunnel.Umbrella (PeerConnectionApi)

set_option autoImplicit false

structure Backend where
  Tunnel : Type
  receive : Tunnel → UInt64 → Bytes → Tunnel
  receiveDeferred : Tunnel → UInt64 → Bytes → Tunnel
  finishInputBatch : Tunnel → Tunnel
  tick : Tunnel → UInt64 → Tunnel
  send : Tunnel → Bytes → SendResult × Tunnel
  close : Tunnel → Tunnel
  pollEvent : Tunnel → Option Event × Tunnel
  nextDeadline : Tunnel → Option UInt64 × Tunnel
  isOpen : Tunnel → Bool
  isFinished : Tunnel → Bool
  droppedDatagrams : Tunnel → UInt64
  bufferedBytes : Tunnel → Nat
  negotiatedCipherSuite : Tunnel → Option Text × Tunnel
  handshakeTrace : Tunnel → HandshakeTrace
  setSendBufferCap : Tunnel → Nat → Tunnel

/-- The direct backend. `cipherSuite` is the name in the state of the connection to a peer. -/
def direct (L : Layers) (cipherSuite : L.dtls.Endpoint → SocketAddr → Option Text) : Backend where
  Tunnel := DirectTunnel L
  receive := DirectTunnel.receive
  receiveDeferred := DirectTunnel.receiveDeferred
  finishInputBatch := DirectTunnel.finishInputBatch
  tick := DirectTunnel.tick
  send := DirectTunnel.send
  close := DirectTunnel.close
  pollEvent := DirectTunnel.pollEvent
  nextDeadline := DirectTunnel.nextDeadline
  isOpen := DirectTunnel.opened
  isFinished := DirectTunnel.finished
  droppedDatagrams := DirectTunnel.droppedDatagrams
  bufferedBytes := DirectTunnel.bufferedBytes
  negotiatedCipherSuite t := (cipherSuite t.dtls t.remoteAddr, t)
  handshakeTrace := DirectTunnel.trace
  setSendBufferCap := DirectTunnel.setSendBufferCap

/-- The `rtc` backend. `dtlsCipher` is the name in the transport part of its statistics. -/
def umbrella (P : PeerConnectionApi) (dtlsCipher : P.Pc → Instant → Option Text × P.Pc) :
    Backend where
  Tunnel := Umbrella.Tunnel P
  receive := Umbrella.Tunnel.receive
  receiveDeferred := Umbrella.Tunnel.receiveDeferred
  finishInputBatch := Umbrella.Tunnel.finishInputBatch
  tick := Umbrella.Tunnel.tick
  send := Umbrella.Tunnel.send
  close := Umbrella.Tunnel.close
  pollEvent := Umbrella.Tunnel.pollEvent
  nextDeadline := Umbrella.Tunnel.nextDeadline
  isOpen := Umbrella.Tunnel.opened
  isFinished := Umbrella.Tunnel.finished
  droppedDatagrams := Umbrella.Tunnel.droppedDatagrams
  bufferedBytes := Umbrella.Tunnel.bufferedBytes
  negotiatedCipherSuite t :=
    let r := dtlsCipher t.pc t.lastNow
    (r.1.filter fun cipher => !cipher.isEmpty, { t with pc := r.2 })
  handshakeTrace := Umbrella.Tunnel.trace
  setSendBufferCap := Umbrella.Tunnel.setSendBufferCap

namespace Backend

variable {B : Backend}

/-- A call that may add to the queue. -/
inductive Feed (t : B.Tunnel) : B.Tunnel → Prop where
  | receive (nowMs : UInt64) (datagram : Bytes) : Feed t (B.receive t nowMs datagram)
  | receiveDeferred (nowMs : UInt64) (datagram : Bytes) : Feed t (B.receiveDeferred t nowMs datagram)
  | finishInputBatch : Feed t (B.finishInputBatch t)
  | tick (nowMs : UInt64) : Feed t (B.tick t nowMs)
  | send (data : Bytes) : Feed t (B.send t data).2
  | close : Feed t (B.close t)

/-- A call that changes nothing that the host sees. -/
inductive Look (t : B.Tunnel) : B.Tunnel → Prop where
  | nextDeadline : Look t (B.nextDeadline t).2
  | negotiatedCipherSuite : Look t (B.negotiatedCipherSuite t).2
  | setSendBufferCap (cap : Nat) : Look t (B.setSendBufferCap t cap)

/-- What the host relies on. `budget` is the time at which the handshake runs out, in
milliseconds of the host's clock. -/
structure Contract (B : Backend) where
  view : B.Tunnel → View
  budget : B.Tunnel → Nat
  isOpen : ∀ t, B.isOpen t = (view t).opened
  isFinished : ∀ t, B.isFinished t = (view t).finished
  grows : ∀ {t r : B.Tunnel}, Feed t r → (view t).Grows (view r)
  looks : ∀ {t r : B.Tunnel}, Look t r → view r = view t
  pollEvent : ∀ t, (B.pollEvent t).1 = (view t).queue.head? ∧
    view (B.pollEvent t).2 = { view t with queue := (view t).queue.tail }
  fixed : ∀ {t r : B.Tunnel}, Feed t r ∨ Look t r ∨ r = (B.pollEvent t).2 → budget r = budget t
  due : ∀ t, (view t).opened = false → (view t).finished = false →
    ∃ ms, (B.nextDeadline t).1 = some ms ∧ ms.toNat ≤ budget t
  expires : ∀ t (nowMs : UInt64), budget t ≤ nowMs.toNat →
    (view (B.tick t nowMs)).opened = true ∨ (view (B.tick t nowMs)).finished = true

end Backend

end RtcTunnel.Stack
