import RtcTunnel.Abi.Checked
import RtcTunnel.Base.Regions
import RtcTunnel.Stack.Engine

/-!
# One instance with many tunnels

`WasmTunnelModule` hosts many tunnels in one linear memory. They share the scratch through
which bytes go in, and the allocator places the bytes of their events, the copies of them
and the descriptors beside one another. Here each call of `WasmTunnelEngine` goes through
that memory.
-/

namespace RtcTunnel.Wasm

open RtcTunnel.Core
open RtcTunnel.Abi
open RtcTunnel.Abi.Instance (JsError jsNumber readDrained readPolled uint8Array)
open RtcTunnel.Base (Memory)
open RtcTunnel.Driver (EngineEvent)
open RtcTunnel.Stack (Backend WasmTunnelEngine)

set_option autoImplicit false

/-- A call of `WasmTunnelEngine`. -/
inductive Call where
  | input (nowMs : F64) (data : Bytes)
  | inputDeferred (nowMs : F64) (data : Bytes)
  | finishInputBatch
  | tick (nowMs : F64)
  | send (data : Bytes)
  | nextDeadline
  | pollEvent
  | isOpen
  | isFinished
  | drainEvents (max : F64)
  | bufferedBytes
  | droppedDatagrams
  | offerSdp
  | handshakeTrace
  | negotiatedCipherSuite
  | close
  | setSendBufferCap (cap : F64)
  | dispose
  deriving DecidableEq

/-- `HandshakeTrace` of the host. -/
structure Stages where
  startMs : F64
  iceMs : Option F64
  dtlsMs : Option F64
  sctpMs : Option F64
  openedMs : Option F64
  deriving DecidableEq

inductive Answer where
  | done
  | code (result : Nat)
  | deadline (ms : Option F64)
  | event (event : EngineEvent)
  | flag (flag : Bool)
  | events (events : List EngineEvent)
  | count (n : Nat)
  | text (text : Option Text)
  | trace (stages : Option Stages)
  deriving DecidableEq

/-- `rtc_tunnel_stage_ms` -/
def rtcTunnelStageMs (trace : HandshakeTrace) (stage : Nat) : F64 :=
  let value :=
    match stage with
    | 0 => some trace.startMs
    | 1 => trace.iceMs
    | 2 => trace.dtlsMs
    | 3 => trace.sctpMs
    | 4 => trace.openedMs
    | _ => none
  (value.map fun ms => F64.ofNat ms.toNat).getD (.ofInt (-1))

def handshakeTrace (trace : HandshakeTrace) : Option Stages :=
  let read stage :=
    let value := rtcTunnelStageMs trace stage
    if value.lt (.ofInt 0) then none else some value
  (read 0).map fun startMs =>
    { startMs := startMs, iceMs := read 1, dtlsMs := read 2, sctpMs := read 3, openedMs := read 4 }

/-- `rtc_tunnel_is_open` and its reading, as for `rtc_tunnel_is_finished`. -/
def flagOf (flag : Bool) : Bool := decide (flag.toUInt32 = 1)

/-- The engine of a tunnel that has a memory for itself, with the offer of its tunnel. -/
structure Alone (B : Backend) where
  engine : WasmTunnelEngine B
  offer : Text

namespace Alone

variable {B : Backend}

def call (s : Alone B) : Call → Answer × WasmTunnelEngine B
  | .input nowMs data => (.done, s.engine.input nowMs data)
  | .inputDeferred nowMs data => (.done, s.engine.inputDeferred nowMs data)
  | .finishInputBatch => (.done, s.engine.finishInputBatch)
  | .tick nowMs => (.done, s.engine.tick nowMs)
  | .send data => (.code (s.engine.send data).1, (s.engine.send data).2)
  | .nextDeadline => (.deadline s.engine.nextDeadline.1, s.engine.nextDeadline.2)
  | .pollEvent => (.event s.engine.pollEvent.1, s.engine.pollEvent.2)
  | .isOpen => (.flag (B.isOpen s.engine.tunnel), s.engine)
  | .isFinished => (.flag (B.isFinished s.engine.tunnel), s.engine)
  | .drainEvents max => (.events (s.engine.drainEvents max).1, (s.engine.drainEvents max).2)
  | .bufferedBytes => (.count s.engine.bufferedBytes.1, s.engine.bufferedBytes.2)
  | .droppedDatagrams => (.count s.engine.droppedDatagrams.1, s.engine.droppedDatagrams.2)
  | .offerSdp =>
    (.text (if s.offer.isEmpty then none else some (WasmTunnelEngine.decode s.offer)), s.engine)
  | .handshakeTrace => (.trace (handshakeTrace (B.handshakeTrace s.engine.tunnel)), s.engine)
  | .negotiatedCipherSuite =>
    (.text s.engine.negotiatedCipherSuite.1, s.engine.negotiatedCipherSuite.2)
  | .close => (.done, s.engine.close)
  | .setSendBufferCap cap => (.done, s.engine.setSendBufferCap cap)
  | .dispose => (.done, s.engine.dispose)

def step (s : Alone B) (c : Call) : Alone B := { s with engine := (s.call c).2 }

def answer (s : Alone B) (c : Call) : List Answer := [(s.call c).1]

end Alone

/-- `TunnelHandle` with the engine that the host has for it. `places` are the addresses of the
payloads in the queue of the tunnel. -/
structure Handle (B : Backend) where
  engine : WasmTunnelEngine B
  offer : Text
  places : List UInt32
  eventKind : UInt32
  eventPtr : UInt32
  eventLen : UInt32
  eventReason : UInt32
  eventsPtr : UInt32

structure Instance (B : Backend) where
  memory : Memory
  scratch : Scratch
  handles : List (Handle B)

/-- What the allocator answers during a call: to `rtc_tunnel_alloc`, for the payloads that the
call adds, for the copy of a payload, and for the descriptors. `replaced` is what a decoder
makes of bytes that are not UTF-8. -/
structure Given where
  answers : Answers
  payload : Nat → UInt32
  copy : UInt32
  array : UInt32
  replaced : Text

/-- `slice_from` -/
def sliceFrom (m : Memory) (ptr len : UInt32) : Bytes :=
  if ptr = 0 ∨ len = 0 then [] else m.read ptr.toNat len.toNat

/-- `decoder.decode(bytes)` -/
def decodeBytes (given : Given) (bytes : Bytes) : Text :=
  match strArg (some bytes) with
  | some text => WasmTunnelEngine.decode text
  | none => given.replaced

/-- The payloads of events with their places. -/
def placed (places : List UInt32) (events : List Event) : List (Nat × Bytes) :=
  List.zipWith (fun place event => (place.toNat, payload event)) places events

/-- Where the allocator places the payloads of so many events. -/
def Given.places (given : Given) (count : Nat) : List UInt32 := (List.range count).map given.payload

/-- An export that copies so much of some bytes into a buffer, around which `withBuffer` is. The
host views what was written, and decodes it. Nothing is written to null. -/
def copyOut (given : Given) (m : Memory) (ptr cap : UInt32) (bytes : Bytes) :
    Except JsError Text × Memory :=
  let written := if ptr = 0 then [] else bytes.take cap.toNat
  let memory := m.write ptr.toNat written
  ((uint8Array memory (jsNumber ptr) written.length).map (decodeBytes given), memory)

namespace Instance

variable {B : Backend} (C : B.Contract)

/-- The engine of a handle after a call into its tunnel, and the bytes of the events that the
call has added, where the allocator places them. -/
def leave (s : Instance B) (i : Nat) (h : Handle B) (given : Given) (engine : WasmTunnelEngine B) :
    Instance B :=
  let added := (engine.view C).queue.drop (h.engine.view C).queue.length
  let places := given.places added.length
  { s with
    memory := s.memory.place (placed places added)
    handles := s.handles.set i { h with engine := engine, places := h.places ++ places } }

/-- A call with bytes. They go through the scratch. -/
def withData (s : Instance B) (i : Nat) (h : Handle B) (given : Given) (data : Bytes)
    (f : Bytes → Answer × WasmTunnelEngine B) : Except JsError Answer × Instance B :=
  let scratch := (s.scratch.grow given.answers data.length).1
  let s := { s with scratch := scratch }
  match scratch.store given.answers data with
  | .error e => (.error e, s)
  | .ok stored =>
    let memory :=
      match stored with
      | none => s.memory
      | some (offset, bytes) => s.memory.write offset bytes
    let r := f (sliceFrom memory (abiWord scratch.ptr) (abiWord data.length))
    (.ok r.1, leave C { s with memory := memory } i h given r.2)

/-- `pollEvent`. The module copies the payload of the event, and the host reads the copy. -/
def pollEvent (s : Instance B) (i : Nat) (h : Handle B) (given : Given) :
    Except JsError Answer × Instance B :=
  let r := B.pollEvent h.engine.tunnel
  let p := polled r.1
  let bytes := s.memory.read (h.places.headD 0).toNat p.payload.length
  let memory := s.memory.write given.copy.toNat bytes
  let h :=
    { h with
      engine := { h.engine with tunnel := r.2 }
      places := h.places.drop r.1.toList.length
      eventKind := p.kind
      eventPtr := given.copy
      eventLen := UInt32.ofNat bytes.length
      eventReason := p.reason }
  ((readPolled memory h.eventKind h.eventPtr h.eventLen h.eventReason).map .event,
    { s with memory := memory, handles := s.handles.set i h })

/-- `drainEvents`. The module writes the descriptors of the events, whose payloads stay where they
are until the next drain. -/
def drainEvents (s : Instance B) (i : Nat) (h : Handle B) (given : Given) (max : F64) :
    Except JsError Answer × Instance B :=
  let r := pullEvents B.pollEvent (toWord max).toNat h.engine.tunnel
  let descriptors := descriptorsOf (fun j => h.places.getD j 0) r.1
  let memory := s.memory.writeWords given.array.toNat descriptors
  let h :=
    { h with
      engine := { h.engine with tunnel := r.2 }
      places := h.places.drop r.1.length
      eventsPtr := given.array }
  ((readDrained memory (countOf descriptors) h.eventsPtr).map .events,
    { s with memory := memory, handles := s.handles.set i h })

/-- A text of the module, through a buffer that is free again behind the call. -/
def readText (s : Instance B) (given : Given) (len : Nat) (text : Text) :
    Except JsError Answer × Instance B :=
  let ptr := rtcTunnelAlloc given.answers.alloc (abiWord len)
  let r := copyOut given s.memory ptr (abiWord len) (encode text)
  (r.1.map fun text => .text (some text), { s with memory := r.2 })

def offerSdp (s : Instance B) (h : Handle B) (given : Given) : Except JsError Answer × Instance B :=
  let len := (encode h.offer).length
  if len = 0 then (.ok (.text none), s) else s.readText given len h.offer

/-- The name is asked for twice. -/
def negotiatedCipherSuite (s : Instance B) (i : Nat) (h : Handle B) (given : Given) :
    Except JsError Answer × Instance B :=
  let r := h.engine.cipherName
  let len := (encode (r.1.getD [])).length
  if len = 0 then (.ok (.text none), leave C s i h given r.2)
  else
    let r' := r.2.cipherName
    (leave C s i h given r'.2).readText given len (r'.1.getD [])

/-- The buffers of a handle that is freed are freed with it. -/
def dispose (s : Instance B) (i : Nat) (h : Handle B) : Instance B :=
  if h.engine.disposed then s
  else { s with handles := s.handles.set i { h with engine := h.engine.dispose, places := [] } }

/-- A call of the `i`-th engine. The memory may have grown before it. -/
def call (s : Instance B) (i : Nat) (c : Call) (given : Given) :
    Except JsError Answer × Instance B :=
  match s.handles[i]? with
  | none => (.ok .done, s)
  | some h =>
    let s := { s with memory := { s.memory with size := given.answers.byteLength } }
    match c with
    | .input nowMs data => s.withData C i h given data fun bytes => (.done, h.engine.input nowMs bytes)
    | .inputDeferred nowMs data =>
      s.withData C i h given data fun bytes => (.done, h.engine.inputDeferred nowMs bytes)
    | .finishInputBatch => (.ok .done, s.leave C i h given h.engine.finishInputBatch)
    | .tick nowMs => (.ok .done, s.leave C i h given (h.engine.tick nowMs))
    | .send data =>
      s.withData C i h given data fun bytes => (.code (h.engine.send bytes).1, (h.engine.send bytes).2)
    | .nextDeadline =>
      (.ok (.deadline h.engine.nextDeadline.1), s.leave C i h given h.engine.nextDeadline.2)
    | .pollEvent => s.pollEvent i h given
    | .isOpen => (.ok (.flag (flagOf (B.isOpen h.engine.tunnel))), s)
    | .isFinished => (.ok (.flag (flagOf (B.isFinished h.engine.tunnel))), s)
    | .drainEvents max => s.drainEvents i h given max
    | .bufferedBytes => (.ok (.count h.engine.bufferedBytes.1), s)
    | .droppedDatagrams => (.ok (.count h.engine.droppedDatagrams.1), s)
    | .offerSdp => s.offerSdp h given
    | .handshakeTrace => (.ok (.trace (handshakeTrace (B.handshakeTrace h.engine.tunnel))), s)
    | .negotiatedCipherSuite => s.negotiatedCipherSuite C i h given
    | .close => (.ok .done, s.leave C i h given h.engine.close)
    | .setSendBufferCap cap => (.ok .done, s.leave C i h given (h.engine.setSendBufferCap cap))
    | .dispose => (.ok .done, s.dispose i h)

/-- What the module has once a tunnel of it is created. -/
def create (s : Instance B) (tunnel : B.Tunnel) (offer : Text) (given : Given) : Instance B :=
  let s := { s with memory := { s.memory with size := given.answers.byteLength } }
  let queue := (C.view tunnel).queue
  let places := given.places queue.length
  { s with
    memory := s.memory.place (placed places queue)
    handles := s.handles ++
      [{ engine := Stack.created tunnel
         offer := offer
         places := places
         eventKind := eventNone
         eventPtr := 1
         eventLen := 0
         eventReason := 0
         eventsPtr := 4 }] }

end Instance

end RtcTunnel.Wasm
