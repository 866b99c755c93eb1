import RtcTunnel.Driver.Machine

/-!
# A scripted engine

An engine small enough to evaluate: the first byte of a datagram says what comes
of it, and a send is accepted while the bytes it was given and not yet
acknowledged stay within a cap.
-/

namespace RtcTunnel.Driver.Script

open RtcTunnel.Core
open Connection (Label)

set_option autoImplicit false

structure State where
  events : List EngineEvent
  buffered : Nat
  real : .none ∉ events

def cap : Nat := 4

def State.raise (s : State) (events : List EngineEvent) (h : .none ∉ events) : State :=
  { s with
    events := s.events ++ events
    real := fun hm => (List.mem_append.mp hm).elim s.real h }

def State.drop (s : State) (n : Nat) : State :=
  { s with
    events := s.events.drop n
    real := fun hm => s.real (List.mem_of_mem_drop hm) }

/-- `0` opens the channel, `1, b, c` is two messages, `2` the peer's close, `3`
an acknowledgement of all that was sent. -/
def State.input (s : State) : Bytes → State
  | 0 :: _ => s.raise [.opened] (by simp)
  | 1 :: b :: c :: _ => s.raise [.message [b], .message [c]] (by simp)
  | 2 :: _ => s.raise [.closed 1] (by simp)
  | 3 :: _ => { s with buffered := 0 }
  | _ => s

def State.send (s : State) (data : Bytes) : Nat × State :=
  if s.buffered + data.length ≤ cap then
    (sendAccepted, { s with buffered := s.buffered + data.length })
  else (sendBackpressure, s)

def engine : EngineApi where
  State := State
  input s _ data := s.input data
  inputDeferred := none
  finishInputBatch := none
  tick s _ := s
  send := State.send
  nextDeadline s := (none, s)
  pollEvent s := (s.events.headD .none, s.drop 1)
  drainEvents := some fun s size => (s.events.take size.whole, s.drop size.whole)
  close s := s.raise [.closed 0] (by simp)
  dispose s := s
  bufferedBytes := some fun s => (s.buffered, s)
  droppedDatagrams := none
  negotiatedCipherSuite := none

theorem accepts_or_waits : AcceptsOrWaits engine := by
  intro (s : State) data
  show (s.send data).1 = sendAccepted ∨ (s.send data).1 = sendBackpressure
  by_cases h : s.buffered + data.length ≤ cap
  · left
    exact congrArg Prod.fst (if_pos h)
  · right
    exact congrArg Prod.fst (if_neg h)

/-- The same engine, with a datagram out for every message it accepts. -/
def echo : EngineApi :=
  { engine with
    send := fun (s : State) data =>
      let r := s.send data
      (r.1, if r.1 = sendAccepted then r.2.raise [.datagram data] (by simp) else r.2) }

/-- The scripted engine with a timer of its own: a message in flight is due at 10, and
with none it has time until 100. -/
structure Timed where
  inner : State
  due : F64

def timed : EngineApi where
  State := Timed
  input s _ data :=
    { inner := s.inner.input data, due := if data.head? = some 3 then .finite 100 else s.due }
  inputDeferred := none
  finishInputBatch := none
  tick s _ := { s with due := .finite 100 }
  send s data :=
    let r := s.inner.send data
    (r.1, if r.1 = sendAccepted then { inner := r.2, due := .finite 10 } else s)
  nextDeadline s := (some s.due, s)
  pollEvent s := (s.inner.events.headD .none, { s with inner := s.inner.drop 1 })
  drainEvents := some fun s size =>
    (s.inner.events.take size.whole, { s with inner := s.inner.drop size.whole })
  close s := { s with inner := s.inner.raise [.closed 0] (by simp) }
  dispose s := s
  bufferedBytes := some fun s => (s.inner.buffered, s)
  droppedDatagrams := none
  negotiatedCipherSuite := none

/-- An engine that does nothing but open its channel, or fail to by 50. -/
structure Dial where
  settled : Bool
  events : List EngineEvent

def Dial.input (s : Dial) : Bytes → Dial
  | 0 :: _ =>
    if s.settled then s else { settled := true, events := s.events ++ [.datagram [9], .opened] }
  | _ => s

def Dial.tick (s : Dial) (now : F64) : Dial :=
  if s.settled || now.lt (.finite 50) then s
  else { settled := true, events := s.events ++ [.closed 2] }

def dialing : EngineApi where
  State := Dial
  input s _ data := s.input data
  inputDeferred := none
  finishInputBatch := none
  tick := Dial.tick
  send s _ := (sendAccepted, s)
  nextDeadline s := (if s.settled then none else some (.finite 50), s)
  pollEvent s := (s.events.headD .none, { s with events := s.events.tail })
  drainEvents := some fun s size =>
    (s.events.take size.whole, { s with events := s.events.drop size.whole })
  close s := s
  dispose s := s
  bufferedBytes := none
  droppedDatagrams := none
  negotiatedCipherSuite := none

/-- Queueing, with batches of 64 events and nothing deferred. -/
def batched : ResolvedOptions where
  maxQueuedBytes := .finite 1024
  backpressure := .queue
  eventBatchSize := .finite 64
  inputBatch := .off
  sendBatch := .off

/-- The same through `pollEvent`. -/
def single : ResolvedOptions := { batched with eventBatchSize := .finite 0 }

def State.empty : State := { events := [], buffered := 0, real := List.not_mem_nil }

def connection (options : ResolvedOptions) : Connection engine := Connection.start options State.empty

def echoing (options : ResolvedOptions) : Connection echo := Connection.start options State.empty

def timing (options : ResolvedOptions) : Connection timed :=
  Connection.start options ({ inner := .empty, due := .finite 100 } : Timed)

def dialed (options : ResolvedOptions) : Connection dialing :=
  Connection.start options ({ settled := false, events := [] } : Dial)

def steps (n : Nat) : List Label := List.replicate n (.advance (.finite 0))

/-- The channel opens and the caller gets the handle. -/
def opening : List Label :=
  steps 5 ++ [.datagram (.finite 0) [0]] ++ steps 3 ++ [.ret] ++ steps 4 ++ [.resume]

/-- Everything that waits runs, and every callback returns at once. -/
def settle : List Label := (List.replicate 6 (steps 6 ++ [.ret])).flatten

end RtcTunnel.Driver.Script
