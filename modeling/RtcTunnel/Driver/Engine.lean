import RtcTunnel.Core.Number
import RtcTunnel.Core.Tunnel

/-!
# The engine of a driver

`TunnelEngine` as the driver sees it: any state with these methods. An optional
method is one that a given engine has or has not.
-/

namespace RtcTunnel.Driver

open RtcTunnel.Core

set_option autoImplicit false

inductive EngineEvent where
  | none
  | datagram (data : Bytes)
  | opened
  | message (data : Bytes)
  | closed (reason : Nat)
  deriving DecidableEq

def sendAccepted : Nat := 0
def sendBackpressure : Nat := 1
def sendNotOpen : Nat := 2
def sendTooLarge : Nat := 3

structure EngineApi where
  State : Type
  input : State → F64 → Bytes → State
  inputDeferred : Option (State → F64 → Bytes → State)
  finishInputBatch : Option (State → State)
  tick : State → F64 → State
  send : State → Bytes → Nat × State
  nextDeadline : State → Option F64 × State
  pollEvent : State → EngineEvent × State
  drainEvents : Option (State → F64 → List EngineEvent × State)
  close : State → State
  dispose : State → State
  bufferedBytes : Option (State → Nat × State)
  droppedDatagrams : Option (State → Nat × State)
  negotiatedCipherSuite : Option (State → Option Text × State)

/-- The engine has a method that `stats` calls. -/
def EngineApi.hasStats (E : EngineApi) : Bool :=
  E.negotiatedCipherSuite.isSome || E.bufferedBytes.isSome || E.droppedDatagrams.isSome

/-- An engine whose `send` accepts a message or asks for it again later. -/
def AcceptsOrWaits (E : EngineApi) : Prop :=
  ∀ (s : E.State) data, (E.send s data).1 = sendAccepted ∨ (E.send s data).1 = sendBackpressure

def closeReason : Nat → Text
  | 0 => "local".toList
  | 1 => "remote".toList
  | 2 => "timeout".toList
  | _ => "failure".toList

end RtcTunnel.Driver
