import RtcTunnel.Base.Run
import RtcTunnel.Driver.Engine

/-!
# One connection of the driver

`openConnection` once its socket is bound and its engine is created. Everything
it calls outside may call back into the handle before it returns, so the rest of
each suspended function is kept on a stack: a `Task` is a place where the code
goes on, and `callback` is a function of the caller or of the endpoint that is
running. `advance` runs the code up to the next such place; the other labels are
what the caller, the socket, the clock and the event loop do.
-/

namespace RtcTunnel.Driver

open RtcTunnel.Core
open RtcTunnel.Base.Run (run)

set_option autoImplicit false

inductive BackpressurePolicy where
  | drop
  | queue
  deriving DecidableEq

inductive Coalesce where
  | off
  | microtask
  | macrotask
  deriving DecidableEq

structure ResolvedOptions where
  maxQueuedBytes : F64
  backpressure : BackpressurePolicy
  eventBatchSize : F64
  inputBatch : Coalesce
  sendBatch : Coalesce

/-- A message given to `handle.send`, told apart by the call that gave it. -/
structure Packet where
  id : Nat
  data : Bytes
  deriving DecidableEq

inductive SendOutcome where
  | ignored
  | accepted
  | queued
  | refused
  | tooLarge
  | dropped
  deriving DecidableEq

inductive EngineCall where
  | input (data : Bytes)
  | inputDeferred (data : Bytes)
  | finishInputBatch
  | tick
  | send (packet : Packet) (result : Nat)
  | nextDeadline
  | pollEvent
  | drainEvents
  | close
  | bufferedBytes
  | droppedDatagrams
  | negotiatedCipherSuite
  deriving DecidableEq

structure Stats where
  bufferedBytes : Nat
  droppedDatagrams : Nat
  refusedSends : Nat
  cipherSuite : Option Text
  deriving DecidableEq

/-- What a connection does to the world around it, and what it answers. -/
inductive Effect where
  | engine (call : EngineCall)
  | dispose
  | endpointSend (data : Bytes)
  | endpointClose
  | onOpen
  | onPacket (data : Bytes)
  | onClose (reason : Text)
  | cancelTimer
  /-- `setTimer` with the delay `max(0, deadline - now)`. -/
  | setTimer (deadline now : F64)
  | sent (packet : Packet) (outcome : SendOutcome)
  | stats (stats : Stats)
  deriving DecidableEq

/-- Where `pump` goes on behind the events it has in hand. -/
inductive Source where
  | batch (short : Bool)
  | poll
  deriving DecidableEq

inductive Task where
  | callback
  | pump
  | drainLoop
  | pollLoop
  | apply (events : List EngineEvent) (source : Source)
  | settleOpen
  | finish (reason : Text)
  | finishRest (reason : Text)
  | executorRest
  deriving DecidableEq

inductive Rejection where
  | closedBeforeOpening (reason : Text)
  | thrown
  deriving DecidableEq

inductive Promise where
  | pending
  | resolved
  | rejected (why : Rejection)
  deriving DecidableEq

structure Connection (E : EngineApi) where
  options : ResolvedOptions
  engine : E.State
  disposed : Bool
  timerArmed : Bool
  scheduledDeadline : Option F64
  queue : List Packet
  queuedBytes : Int
  refusedSends : Nat
  inbound : List Bytes
  inboundScheduled : Bool
  outboundScheduled : Bool
  opened : Bool
  closed : Bool
  closeReason : Option Text
  promise : Promise
  /-- The caller has the handle. -/
  handed : Bool
  sends : Nat
  stack : List Task
  log : List Effect

namespace Connection

variable {E : EngineApi}

/-- The connection as its promise starts to run. -/
def start (options : ResolvedOptions) (engine : E.State) : Connection E where
  options := options
  engine := engine
  disposed := false
  timerArmed := false
  scheduledDeadline := none
  queue := []
  queuedBytes := 0
  refusedSends := 0
  inbound := []
  inboundScheduled := false
  outboundScheduled := false
  opened := false
  closed := false
  closeReason := none
  promise := .pending
  handed := false
  sends := 0
  stack := [.pump, .executorRest]
  log := []

def record (d : Connection E) (e : Effect) : Connection E := { d with log := d.log ++ [e] }

def push (d : Connection E) (tasks : List Task) : Connection E := { d with stack := tasks ++ d.stack }

/-- A call of an engine method and the state it leaves the engine in. -/
def call (d : Connection E) (c : EngineCall) (engine : E.State) : Connection E :=
  { d with engine := engine }.record (.engine c)

/-- A settled promise stays as it is. -/
def settle (d : Connection E) (p : Promise) : Connection E :=
  if d.promise = .pending then { d with promise := p } else d

def settleOpen (d : Connection E) : Connection E := d.settle .resolved

def settleClosed (d : Connection E) : Connection E :=
  d.settle (.rejected (.closedBeforeOpening (d.closeReason.getD "unknown".toList)))

/-- `if (cancelTimer) cancelTimer();` -/
def cancelArmed (d : Connection E) : Connection E :=
  if d.timerArmed then d.record .cancelTimer else d

def clearTimer (d : Connection E) : Connection E :=
  { d.cancelArmed with timerArmed := false, scheduledDeadline := none }

def schedule (d : Connection E) (now : F64) : Connection E :=
  if d.closed then d
  else
    let r := E.nextDeadline d.engine
    let d := d.call .nextDeadline r.2
    match r.1 with
    | none => d
    | some deadline =>
      if d.timerArmed && d.scheduledDeadline.any (·.le deadline) then d
      else
        { d.cancelArmed with timerArmed := true, scheduledDeadline := some deadline }.record
          (.setTimer deadline now)

/-- `queue.shift()` with the bytes taken off. -/
def shift (d : Connection E) (next : Packet) (rest : List Packet) : Connection E :=
  { d with queue := rest, queuedBytes := d.queuedBytes - next.data.length }

/-- An accepted message and one that failed both leave the queue. -/
def flushFrom : List Packet → Connection E → Connection E
  | [], d => d
  | next :: rest, d =>
    let r := E.send d.engine next.data
    let d := d.call (.send next r.1) r.2
    if r.1 = sendBackpressure then d
    else flushFrom rest (d.shift next rest)

def flushQueue (d : Connection E) : Connection E := flushFrom d.queue d

def useBatch (d : Connection E) : Bool := d.options.eventBatchSize.isPositive && E.drainEvents.isSome

def pump (d : Connection E) (now : F64) : Connection E :=
  if d.closed then d
  else
    let d := d.schedule now
    let d := if d.options.backpressure = .queue then d.flushQueue else d
    d.push [if d.useBatch then .drainLoop else .pollLoop]

/-- One round of the loop over batches. -/
def drainLoop (d : Connection E) : Connection E :=
  if d.closed then d
  else
    match E.drainEvents with
    | none => d
    | some drain =>
      let r := drain d.engine d.options.eventBatchSize
      let short := (F64.ofInt r.1.length).lt d.options.eventBatchSize
      (d.call .drainEvents r.2).push [.apply r.1 (.batch short)]

/-- One round of the loop over single events. -/
def pollLoop (d : Connection E) : Connection E :=
  let r := E.pollEvent d.engine
  let d := d.call .pollEvent r.2
  if r.1 = .none then d else d.push [.apply [r.1] .poll]

/-- `applyEvent` on the next event, with the events behind it left for later. -/
def applyEvent (d : Connection E) (event : EngineEvent) (rest : Task) : Connection E :=
  match event with
  | .datagram data => (d.record (.endpointSend data)).push [.callback, rest]
  | .opened =>
    if d.opened then d.push [rest]
    else ({ d with opened := true }.record .onOpen).push [.callback, .settleOpen, rest]
  | .message data => (d.record (.onPacket data)).push [.callback, rest]
  | .closed reason => d.push [.finish (Driver.closeReason reason)]
  | .none => d.push [rest]

def apply (d : Connection E) (events : List EngineEvent) (source : Source) : Connection E :=
  match events, source with
  | event :: rest, source => d.applyEvent event (.apply rest source)
  | [], .batch short => if short then d else d.push [.drainLoop]
  | [], .poll => d.push [.pollLoop]

def finish (d : Connection E) (reason : Text) : Connection E :=
  if d.closed then d
  else
    let d := { d with closed := true, closeReason := some reason }.clearTimer
    ({ d with queue := [], queuedBytes := 0 }.record .endpointClose).push
      [.callback, .finishRest reason]

/-- `finish` behind `endpoint.close`. -/
def finishRest (d : Connection E) (reason : Text) : Connection E :=
  let d := { d with engine := E.dispose d.engine, disposed := true }.record .dispose
  if d.opened then (d.record (.onClose reason)).push [.callback] else d.settleClosed

def executorRest (d : Connection E) : Connection E :=
  if d.opened then d.settleOpen else if d.closed then d.settleClosed else d

/-- A task with the tasks behind it left on the stack. -/
def exec (d : Connection E) (now : F64) : Task → Connection E
  | .callback => d
  | .pump => d.pump now
  | .drainLoop => d.drainLoop
  | .pollLoop => d.pollLoop
  | .apply events source => d.apply events source
  | .settleOpen => d.settleOpen
  | .finish reason => d.finish reason
  | .finishRest reason => d.finishRest reason
  | .executorRest => d.executorRest

def schedulePump (d : Connection E) : Connection E :=
  if d.options.sendBatch = .off then d.push [.pump] else { d with outboundScheduled := true }

def handleSend (d : Connection E) (data : Bytes) : Connection E :=
  let packet : Packet := ⟨d.sends, data⟩
  let d := { d with sends := d.sends + 1 }
  if d.closed || !d.opened then d.record (.sent packet .ignored)
  else
    let r := E.send d.engine data
    let d := d.call (.send packet r.1) r.2
    if r.1 = sendAccepted then (d.record (.sent packet .accepted)).schedulePump
    else if r.1 = sendTooLarge then d.record (.sent packet .tooLarge)
    else if r.1 = sendBackpressure then
      if d.options.backpressure = .queue then
        if d.options.maxQueuedBytes.lt (.ofInt (d.queuedBytes + data.length)) then
          { d with refusedSends := d.refusedSends + 1 }.record (.sent packet .refused)
        else
          { d with queue := d.queue ++ [packet],
                   queuedBytes := d.queuedBytes + data.length }.record (.sent packet .queued)
      else { d with refusedSends := d.refusedSends + 1 }.record (.sent packet .refused)
    else d.record (.sent packet .dropped)

def handleClose (d : Connection E) : Connection E :=
  if d.closed then d
  else (d.call .close (E.close d.engine)).push [.pump, .finish "local".toList]

/-- A method the engine may lack: its answer, or none. -/
def ask {α : Type} (d : Connection E) (c : EngineCall) (method : Option (E.State → α × E.State)) :
    Option α × Connection E :=
  match method with
  | none => (none, d)
  | some f => (some (f d.engine).1, d.call c (f d.engine).2)

def handleStats (d : Connection E) : Connection E :=
  let suite := d.ask .negotiatedCipherSuite E.negotiatedCipherSuite
  let buffered := suite.2.ask .bufferedBytes E.bufferedBytes
  let dropped := buffered.2.ask .droppedDatagrams E.droppedDatagrams
  dropped.2.record (.stats
    { bufferedBytes := buffered.1.getD 0
      droppedDatagrams := dropped.1.getD 0
      refusedSends := d.refusedSends
      cipherSuite := (suite.1.getD none).filter (!·.isEmpty) })

def onMessage (d : Connection E) (now : F64) (data : Bytes) : Connection E :=
  if d.closed then d
  else if d.options.inputBatch = .off then
    (d.call (.input data) (E.input d.engine now data)).push [.pump]
  else { d with inbound := d.inbound ++ [data], inboundScheduled := true }

def feed (d : Connection E) (now : F64) : Connection E :=
  match E.inputDeferred, E.finishInputBatch with
  | some inputDeferred, some finishInputBatch =>
    let d := d.inbound.foldl
      (fun d data => d.call (.inputDeferred data) (inputDeferred d.engine now data)) d
    { d with inbound := [] }.call .finishInputBatch (finishInputBatch d.engine)
  | _, _ =>
    let d := d.inbound.foldl (fun d data => d.call (.input data) (E.input d.engine now data)) d
    { d with inbound := [] }

def flushInbound (d : Connection E) (now : F64) : Connection E :=
  let d := { d with inboundScheduled := false }
  if d.closed || d.inbound.isEmpty then d else (d.feed now).push [.pump]

def flushOutbound (d : Connection E) : Connection E := { d with outboundScheduled := false }.push [.pump]

def timerFires (d : Connection E) (now : F64) : Connection E :=
  let d := { d with timerArmed := false, scheduledDeadline := none }
  (d.call .tick (E.tick d.engine now)).push [.pump]

inductive Label where
  | advance (now : F64)
  | ret
  | raise
  | send (data : Bytes)
  | close
  | stats
  | error (message : Text)
  | datagram (now : F64) (data : Bytes)
  | flushInbound (now : F64)
  | flushOutbound
  | timer (now : F64)
  | resume

/-- No code of the driver is running. -/
def idle (d : Connection E) : Bool := d.stack.isEmpty

/-- Code outside the driver may run: at the top level or in a callback. -/
def outside (d : Connection E) : Bool := d.stack.isEmpty || d.stack.head? = some .callback

/-- What is left of the stack when an exception leaves the code on top: the caller
below that code, if one is waiting, and whether the promise's executor was left. -/
def unwind : List Task → List Task × Bool
  | [] => ([], false)
  | .callback :: rest => (.callback :: rest, false)
  | .executorRest :: rest => (rest, true)
  | _ :: rest => unwind rest

/-- The running callback throws. `finish` catches what `endpoint.close` throws. -/
def raise (d : Connection E) : Connection E :=
  match d.stack with
  | .callback :: .finishRest reason :: rest => { d with stack := .finishRest reason :: rest }
  | .callback :: rest =>
    let d := { d with stack := (unwind rest).1 }
    if (unwind rest).2 then d.settle (.rejected .thrown) else d
  | _ => d

def step (d : Connection E) : Label → Connection E
  | .advance now =>
    match d.stack with
    | [] => d
    | .callback :: _ => d
    | task :: rest => { d with stack := rest }.exec now task
  | .ret =>
    match d.stack with
    | .callback :: rest => { d with stack := rest }
    | _ => d
  | .raise => d.raise
  | .send data => if d.outside && d.handed then d.handleSend data else d
  | .close => if d.outside && d.handed then d.handleClose else d
  | .stats => if d.outside && d.handed then d.handleStats else d
  | .error message => if d.outside then d.push [.finish message] else d
  | .datagram now data => if d.idle then d.onMessage now data else d
  | .flushInbound now => if d.idle && d.inboundScheduled then d.flushInbound now else d
  | .flushOutbound => if d.idle && d.outboundScheduled then d.flushOutbound else d
  | .timer now => if d.idle && d.timerArmed then d.timerFires now else d
  | .resume => if d.idle && d.promise = .resolved then { d with handed := true } else d

end Connection

end RtcTunnel.Driver
