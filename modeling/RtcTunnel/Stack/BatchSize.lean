import RtcTunnel.Driver.BatchSize
import RtcTunnel.Stack.Quiet

/-!
# Batches of a tunnel

Taking events off a direct tunnel, in batches or one by one, does nothing else to it. So
a connection over one shows nothing of the size of its batches.
-/

namespace RtcTunnel.Stack

open RtcTunnel.Core
open RtcTunnel.Abi (toWord)
open RtcTunnel.Base.Run
open RtcTunnel.Direct (DirectTunnel Layers)
open RtcTunnel.Driver
open RtcTunnel.Driver.Connection (Rested WholeOrOff step)

set_option autoImplicit false

variable {L : Layers} {cipherSuite : L.dtls.Endpoint → SocketAddr → Option Text}

def withTunnel (s : WasmTunnelEngine (direct L cipherSuite)) (t : DirectTunnel L) :
    WasmTunnelEngine (direct L cipherSuite) := { s with tunnel := t }

/-- The engine once all its events are taken off. -/
def emptied (s : WasmTunnelEngine (direct L cipherSuite)) :
    WasmTunnelEngine (direct L cipherSuite) := withTunnel s { tunnelOf s with events := [] }

theorem emptied_tunnel {s r : WasmTunnelEngine (direct L cipherSuite)} {events : List Event}
    (h : r = withTunnel s { tunnelOf s with events := events }) : emptied r = emptied s := by
  rw [h]
  rfl

/-- Taking events off the engine does nothing else to it. -/
def empties (cipherSuite : L.dtls.Endpoint → SocketAddr → Option Text) :
    Empties (eventQueue cipherSuite) where
  emptied := emptied
  empty s h := by
    have hnil : (tunnelOf s).events = [] := List.map_eq_nil_iff.mp h
    have hsame : { tunnelOf s with events := [] } = tunnelOf s := by rw [← hnil]
    exact congrArg (withTunnel s) hsame
  poll s := emptied_tunnel (L := L) rfl
  drain f hf s size := by
    cases hf
    exact emptied_tunnel (tunnel_pull s (toWord size).toNat)

/-- **The size of its batches does not show in a connection over a direct tunnel.** Take two
connections over the same tunnel, of which one takes events in batches of some size and the other
in batches of another or one by one. They are given the same from outside, turn by turn, and
their callbacks return at once. When both are idle and open, they are the same but for the size:
the tunnel itself, the queue, the promise, and the log of all that was told, sent and asked,
without the calls that take events and the timers that were set. -/
theorem size_unseen_tunnel (cipherSuite : L.dtls.Endpoint → SocketAddr → Option Text)
    (t : DirectTunnel L) (options : ResolvedOptions) (size : F64)
    (hwhole : WholeOrOff options) (hsize : WholeOrOff { options with eventBatchSize := size })
    {labels labels' : List Connection.Label}
    (hsame : labels.filter (fun l => !l.inert) = labels'.filter fun l => !l.inert)
    (h : Rested (E := engine (direct L cipherSuite)) options (created t) labels)
    (h' : Rested (E := engine (direct L cipherSuite)) { options with eventBatchSize := size }
      (created t) labels') :
    (run step (connect cipherSuite options t) labels).bare =
      (run step (connect cipherSuite { options with eventBatchSize := size } t) labels').bare :=
  Connection.size_unseen (empties cipherSuite) options size _ hwhole hsize hsame h h'

/-- The first connection takes two messages in a batch, the second one after the other. -/
theorem size_unseen_tunnel_two :
    (run step (connect (fun _ _ => none) Script.batched Direct.Script.dialer) readsTwo).bare =
        (run step (connect (fun _ _ => none) Script.single Direct.Script.dialer) readsTwo).bare ∧
      (run step (connect (fun _ _ => none) Script.batched Direct.Script.dialer) readsTwo).log.length <
        (run step (connect (fun _ _ => none) Script.single Direct.Script.dialer) readsTwo).log.length :=
  ⟨size_unseen_tunnel (fun _ _ => none) Direct.Script.dialer Script.batched (.finite 0)
      (fun _ => ⟨by decide +kernel, by decide +kernel⟩) (fun h => absurd h (by decide +kernel)) rfl
      ⟨by decide +kernel, by decide +kernel, by decide +kernel⟩
      ⟨by decide +kernel, by decide +kernel, by decide +kernel⟩,
    by decide +kernel⟩

end RtcTunnel.Stack
