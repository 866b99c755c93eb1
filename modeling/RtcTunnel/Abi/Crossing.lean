import RtcTunnel.Abi.Create
import RtcTunnel.Base.Memory
import RtcTunnel.Direct.Script
import RtcTunnel.Driver.Engine

/-!
# Events across the boundary

An event leaves the module in one of two ways: one at a time, through `rtc_tunnel_poll_event`
and its accessors, or in a batch, through the descriptors of `rtc_tunnel_drain_events`. Both
end in a copy the host makes from linear memory. Either way the host sees the queue, as long as
what the exports return is below 2^31: an `i32` is signed to the host.
-/

namespace RtcTunnel.Abi

open RtcTunnel.Core
open RtcTunnel.Direct
open RtcTunnel.Base (Memory Apart)
open RtcTunnel.Driver (EngineEvent)

set_option autoImplicit false

def eventDatagram : UInt32 := 1
def eventOpened : UInt32 := 2
def eventMessage : UInt32 := 3
def eventClosed : UInt32 := 4

variable {L : Layers}

def closeReasonCode : CloseReason → UInt32
  | .local => 0
  | .remote => 1
  | .timeout => 2
  | .failure => 3

/-- `event_kind`, `event_payload` and `event_reason` of a handle. -/
structure Polled where
  kind : UInt32
  payload : Bytes
  reason : UInt32

/-- What `rtc_tunnel_poll_event` notes of what it polls. -/
def polled : Option Event → Polled
  | none => ⟨eventNone, [], 0⟩
  | some (.sendDatagram bytes) => ⟨eventDatagram, bytes, 0⟩
  | some .opened => ⟨eventOpened, [], 0⟩
  | some (.message bytes) => ⟨eventMessage, bytes, 0⟩
  | some (.closed reason) => ⟨eventClosed, [], closeReasonCode reason⟩

def rtcTunnelPollEvent (handle : TunnelHandle L) : UInt32 × TunnelHandle L :=
  let r := handle.tunnel.pollEvent
  let p := polled r.1
  (p.kind,
    { handle with
      tunnel := r.2
      eventKind := p.kind
      eventPayload := p.payload
      eventReason := p.reason })

/-- The first loop of `rtc_tunnel_drain_events`, over any tunnel that is polled. -/
def pullEvents {T : Type} (pollEvent : T → Option Event × T) : Nat → T → List Event × T
  | 0, t => ([], t)
  | max + 1, t =>
    match pollEvent t with
    | (none, t) => ([], t)
    | (some event, t) =>
      (event :: (pullEvents pollEvent max t).1, (pullEvents pollEvent max t).2)

section Pull

variable {T : Type} {pollEvent : T → Option Event × T} {t r : T}

theorem pullEvents_none (h : pollEvent t = (none, r)) (max : Nat) :
    pullEvents pollEvent (max + 1) t = ([], r) := by
  rw [pullEvents, h]

theorem pullEvents_some {event : Event} (h : pollEvent t = (some event, r)) (max : Nat) :
    pullEvents pollEvent (max + 1) t =
      (event :: (pullEvents pollEvent max r).1, (pullEvents pollEvent max r).2) := by
  rw [pullEvents, h]

end Pull

/-- `[kind, ptr, len, aux]` of an event whose bytes lie at `ptr`. -/
def descriptor (ptr : UInt32) : Event → List UInt32
  | .sendDatagram bytes => [eventDatagram, ptr, UInt32.ofNat bytes.length, 0]
  | .opened => [eventOpened, 0, 0, 0]
  | .message bytes => [eventMessage, ptr, UInt32.ofNat bytes.length, 0]
  | .closed reason => [eventClosed, 0, 0, closeReasonCode reason]

/-- The second loop. `asPtr i` is where the bytes of the `i`-th drained event lie. -/
def descriptorsOf (asPtr : Nat → UInt32) (drained : List Event) : List UInt32 :=
  (drained.mapIdx fun i event => descriptor (asPtr i) event).flatten

/-- The count that `rtc_tunnel_drain_events` returns. -/
def countOf (descriptors : List UInt32) : UInt32 := UInt32.ofNat (descriptors.length / 4)

def rtcTunnelDrainEvents (asPtr : Nat → UInt32) (handle : TunnelHandle L) (max : UInt32) :
    UInt32 × TunnelHandle L :=
  let r := pullEvents DirectTunnel.pollEvent max.toNat handle.tunnel
  let descriptors := descriptorsOf asPtr r.1
  (countOf descriptors, { handle with tunnel := r.2, drained := r.1, descriptors := descriptors })

/-- The bytes of an event, empty for one without a payload. -/
def payload : Event → Bytes
  | .sendDatagram bytes => bytes
  | .message bytes => bytes
  | _ => []

/-- Where the allocator puts the bytes of the `k`-th event, the copy of them a poll makes,
and the descriptors of `n` events from the `k`-th on. -/
structure Placement where
  payload : Nat → UInt32
  copy : Nat → UInt32
  array : Nat → Nat → UInt32

/-- An instance of the module with one tunnel. `taken` counts the events that left its queue. -/
structure Instance (L : Layers) where
  handle : TunnelHandle L
  memory : Memory
  taken : Nat
  eventPtr : UInt32
  eventsPtr : UInt32

namespace Instance

variable (A : Placement)

def pending (s : Instance L) : List Event := s.handle.tunnel.events

/-- `rtc_tunnel_poll_event` with the copy it makes. -/
def poll (s : Instance L) : UInt32 × Instance L :=
  let r := rtcTunnelPollEvent s.handle
  let ptr := A.copy s.taken
  (r.1, { handle := r.2
          memory := s.memory.write ptr.toNat r.2.eventPayload
          taken := s.taken + (s.pending.take 1).length
          eventPtr := ptr
          eventsPtr := s.eventsPtr })

/-- `rtc_tunnel_drain_events` with the descriptors it writes. -/
def drain (s : Instance L) (max : UInt32) : UInt32 × Instance L :=
  let r := rtcTunnelDrainEvents (fun i => A.payload (s.taken + i)) s.handle max
  let ptr := A.array s.taken r.2.drained.length
  (r.1, { handle := r.2
          memory := s.memory.writeWords ptr.toNat r.2.descriptors
          taken := s.taken + r.2.drained.length
          eventPtr := s.eventPtr
          eventsPtr := ptr })

inductive JsError where
  | rangeError
  | unknownEvent (kind : UInt32)
  deriving DecidableEq

/-- An `i32` that an export returns, which is signed to the host. -/
def jsNumber (w : UInt32) : Int :=
  if w.toNat < 2147483648 then w.toNat else w.toNat - 4294967296

/-- `new Uint8Array(memory.buffer, offset, length).slice()` -/
def uint8Array (m : Memory) (offset length : Int) : Except JsError Bytes :=
  if 0 ≤ offset ∧ 0 ≤ length ∧ offset + length ≤ m.size then
    .ok (m.read offset.toNat length.toNat)
  else .error .rangeError

/-- `new Uint32Array(memory.buffer, offset, length)` -/
def uint32Array (m : Memory) (offset length : Int) : Except JsError (List UInt32) :=
  if 0 ≤ offset ∧ offset % 4 = 0 ∧ 0 ≤ length ∧ offset + 4 * length ≤ m.size then
    .ok (m.readWords offset.toNat length.toNat)
  else .error .rangeError

/-- What `pollEvent` makes of a kind and of what the accessors return. -/
def readPolled (m : Memory) (kind ptr len reason : UInt32) : Except JsError EngineEvent :=
  if kind = eventNone then .ok .none
  else if kind = eventOpened then .ok .opened
  else if kind = eventClosed then .ok (.closed reason.toNat)
  else if kind = eventDatagram ∨ kind = eventMessage then
    (uint8Array m (jsNumber ptr) (jsNumber len)).map fun data =>
      if kind = eventDatagram then .datagram data else .message data
  else .error (.unknownEvent kind)

/-- `WasmTunnelEngine.pollEvent` -/
def pollEvent (s : Instance L) : Except JsError EngineEvent × Instance L :=
  let r := s.poll A
  let s := r.2
  (readPolled s.memory r.1 s.eventPtr (UInt32.ofNat s.handle.eventPayload.length)
    s.handle.eventReason, s)

/-- One round of the loop of `drainEvents`. -/
def decodeEvent (m : Memory) (kind ptr len aux : UInt32) : Except JsError EngineEvent :=
  if kind = eventDatagram ∨ kind = eventMessage then
    (uint8Array m ptr.toNat len.toNat).map fun data =>
      if kind = eventDatagram then .datagram data else .message data
  else if kind = eventOpened then .ok .opened
  else if kind = eventClosed then .ok (.closed aux.toNat)
  else .error (.unknownEvent kind)

/-- The loop of `drainEvents`, over the words of its descriptors. -/
def decodeEvents (m : Memory) : List UInt32 → Except JsError (List EngineEvent)
  | kind :: ptr :: len :: aux :: rest => do
    let event ← decodeEvent m kind ptr len aux
    let events ← decodeEvents m rest
    pure (event :: events)
  | _ => pure []

/-- What `drainEvents` makes of a count and of the pointer to the descriptors. -/
def readDrained (m : Memory) (count base : UInt32) : Except JsError (List EngineEvent) :=
  if jsNumber count = 0 then .ok []
  else do
    let descriptors ← uint32Array m (jsNumber base) (jsNumber count * 4)
    decodeEvents m descriptors

/-- `WasmTunnelEngine.drainEvents` -/
def drainEvents (s : Instance L) (max : UInt32) : Except JsError (List EngineEvent) × Instance L :=
  let r := s.drain A max
  let s := r.2
  (readDrained s.memory r.1 s.eventsPtr, s)

/-- A number below 2^31 crosses the boundary as it is. -/
theorem jsNumber_eq {w : UInt32} (h : w.toNat < 2147483648) : jsNumber w = w.toNat := if_pos h

/-- One from 2^31 on comes out negative. -/
theorem jsNumber_neg {w : UInt32} (h : ¬ w.toNat < 2147483648) : jsNumber w < 0 := by
  have hw := w.toNat_lt
  rw [jsNumber, if_neg h]
  omega

/-- The buffers of the events to come lie in memory, and the allocator keeps the copies and
the descriptors it makes apart from them. Lengths and counts fit a `u32`. -/
structure Readable (s : Instance L) : Prop where
  stored : ∀ k event, s.pending[k]? = some event →
    s.memory.read (A.payload (s.taken + k)).toNat (payload event).length = payload event
  inside : ∀ k event, s.pending[k]? = some event →
    (A.payload (s.taken + k)).toNat + (payload event).length ≤ s.memory.size
  fits : ∀ event ∈ s.pending, (payload event).length < 4294967296
  copied : ∀ k event, s.pending[k]? = some event →
    (A.copy (s.taken + k)).toNat + (payload event).length ≤ s.memory.size
  copyApart : ∀ j k event later, s.pending[j]? = some event → s.pending[k]? = some later → j < k →
    Apart (A.copy (s.taken + j)).toNat (payload event).length
      (A.payload (s.taken + k)).toNat (payload later).length
  array : ∀ k n, 0 < n → k + n ≤ s.pending.length →
    (A.array (s.taken + k) n).toNat % 4 = 0 ∧
      (A.array (s.taken + k) n).toNat + 16 * n ≤ s.memory.size
  arrayApart : ∀ j n k event, 0 < n → j + n ≤ s.pending.length → s.pending[k]? = some event →
    j ≤ k → Apart (A.array (s.taken + j) n).toNat (16 * n)
      (A.payload (s.taken + k)).toNat (payload event).length
  counts : s.pending.length < 4294967296

/-- `rtc_tunnel_event_ptr` and `rtc_tunnel_event_len` are asked for these events. -/
def carries : Event → Bool
  | .sendDatagram _ => true
  | .message _ => true
  | _ => false

/-- What the accessors return for an event is below 2^31. -/
def CopySigned (s : Instance L) (k : Nat) (event : Event) : Prop :=
  carries event = true →
    (A.copy (s.taken + k)).toNat < 2147483648 ∧ (payload event).length < 2147483648

/-- What the exports return for a batch of `n` events is below 2^31. -/
def BatchSigned (s : Instance L) (k n : Nat) : Prop :=
  (A.array (s.taken + k) n).toNat < 2147483648 ∧ n < 2147483648

/-- The events that the batches before the `j`-th take at most, counted from the `i`-th. -/
def offset (sizes : Nat → UInt32) (i : Nat) : Nat → Nat
  | 0 => 0
  | j + 1 => (sizes i).toNat + offset sizes (i + 1) j

/-- Every pointer, length and count that an export returns is below 2^31, one event at a time and
in batches of these sizes. -/
structure ReturnsSigned (sizes : Nat → UInt32) (i : Nat) (s : Instance L) : Prop where
  copies : ∀ k event, s.pending[k]? = some event → s.CopySigned A k event
  batches : ∀ j, offset sizes i j < s.pending.length → s.BatchSigned A (offset sizes i j)
    (min (sizes (i + j)).toNat (s.pending.length - offset sizes i j))

/-- What stays readable when events leave the queue and memory is written elsewhere. -/
theorem Readable.after {s r : Instance L} (h : s.Readable A) (n : Nat)
    (hp : r.pending = s.pending.drop n) (ht : r.taken = s.taken + n)
    (hsize : r.memory.size = s.memory.size)
    (hm : ∀ k event, n ≤ k → s.pending[k]? = some event →
      r.memory.read (A.payload (s.taken + k)).toNat (payload event).length =
        s.memory.read (A.payload (s.taken + k)).toNat (payload event).length) : r.Readable A := by
  have hget : ∀ {k : Nat} {event : Event}, r.pending[k]? = some event →
      s.pending[n + k]? = some event := by
    intro k event he
    rw [hp, List.getElem?_drop] at he
    exact he
  have hshift : ∀ k, r.taken + k = s.taken + (n + k) := fun k => by omega
  have hlen : ∀ {k : Nat}, 0 < k → k ≤ r.pending.length → n + k ≤ s.pending.length := by
    intro k hk hle
    rw [hp, List.length_drop] at hle
    omega
  refine ⟨fun k event he => ?_, fun k event he => ?_, fun event he => ?_, fun k event he => ?_,
    fun j k event later he hl hjk => ?_, fun k m hm0 hk => ?_, fun j m k event hm0 hj he hjk => ?_, ?_⟩
  · rw [hshift, hm _ _ (Nat.le_add_right n k) (hget he)]
    exact h.stored _ _ (hget he)
  · rw [hshift, hsize]
    exact h.inside _ _ (hget he)
  · rw [hp] at he
    exact h.fits event (List.mem_of_mem_drop he)
  · rw [hshift, hsize]
    exact h.copied _ _ (hget he)
  · rw [hshift, hshift]
    exact h.copyApart _ _ _ _ (hget he) (hget hl) (by omega)
  · rw [hshift, hsize]
    exact h.array _ _ hm0 (by have := hlen (by omega : 0 < k + m) hk; omega)
  · rw [hshift, hshift]
    exact h.arrayApart _ _ _ _ hm0 (by have := hlen (by omega : 0 < j + m) hj; omega) (hget he)
      (by omega)
  · rw [hp, List.length_drop]
    have := h.counts
    omega

/-- What an event is to the host. -/
def crossed : Event → EngineEvent
  | .sendDatagram bytes => .datagram bytes
  | .opened => .opened
  | .message bytes => .message bytes
  | .closed reason => .closed (closeReasonCode reason).toNat

theorem crossed_ne_none (event : Event) : crossed event ≠ .none := by
  cases event <;> exact fun h => by cases h

theorem payload_polled (event : Event) : (polled (some event)).payload = payload event := by
  cases event <;> rfl

/-- The host makes of a polled event what it is, once it can read the payload. -/
theorem readPolled_polled {m : Memory} {ptr len : UInt32} {event : Event}
    (h : carries event = true →
      uint8Array m (jsNumber ptr) (jsNumber len) = .ok (payload event)) :
    readPolled m (polled (some event)).kind ptr len (polled (some event)).reason =
      .ok (crossed event) := by
  cases event with
  | sendDatagram bytes =>
    exact congrArg (Except.map fun data => if eventDatagram = eventDatagram then
      EngineEvent.datagram data else .message data) (h rfl)
  | message bytes =>
    exact congrArg (Except.map fun data => if eventMessage = eventDatagram then
      EngineEvent.datagram data else .message data) (h rfl)
  | opened => rfl
  | closed reason => rfl

theorem readPolled_unread {m : Memory} {ptr len : UInt32} {event : Event} {e : JsError}
    (hc : carries event = true) (h : uint8Array m (jsNumber ptr) (jsNumber len) = .error e) :
    readPolled m (polled (some event)).kind ptr len (polled (some event)).reason = .error e := by
  cases event with
  | sendDatagram bytes =>
    exact congrArg (Except.map fun data => if eventDatagram = eventDatagram then
      EngineEvent.datagram data else .message data) h
  | message bytes =>
    exact congrArg (Except.map fun data => if eventMessage = eventDatagram then
      EngineEvent.datagram data else .message data) h
  | opened => cases hc
  | closed reason => cases hc

/-- The host reads a region of memory whose bounds cross as they are. -/
theorem uint8Array_eq {m : Memory} {ptr : Nat} {data : Bytes} {offset length : Int}
    (ho : offset = ptr) (hl : length = data.length) (hin : ptr + data.length ≤ m.size)
    (hread : m.read ptr data.length = data) : uint8Array m offset length = .ok data := by
  subst ho hl
  rw [uint8Array, if_pos ⟨by omega, by omega, by omega⟩, Int.toNat_natCast, Int.toNat_natCast, hread]

/-- A bound from 2^31 on is out of range. -/
theorem uint8Array_neg {m : Memory} {ptr len : UInt32}
    (h : ¬ (ptr.toNat < 2147483648 ∧ len.toNat < 2147483648)) :
    uint8Array m (jsNumber ptr) (jsNumber len) = .error .rangeError := by
  refine if_neg fun ⟨hptr, hlen, _⟩ => h ⟨?_, ?_⟩
  · by_contra hn
    have := jsNumber_neg hn
    omega
  · by_contra hn
    have := jsNumber_neg hn
    omega

theorem toNat_ofNat_length {data : Bytes} (h : data.length < 4294967296) :
    (UInt32.ofNat data.length).toNat = data.length :=
  UInt32.toNat_ofNat_of_lt' h

theorem pollEvent_nil {s : Instance L} (h : s.pending = []) :
    (s.pollEvent A).1 = .ok .none ∧ (s.pollEvent A).2.pending = [] := by
  have hp : s.handle.tunnel.pollEvent = (none, { s.handle.tunnel with events := [] }) := by
    rw [DirectTunnel.pollEvent, show s.handle.tunnel.events = [] from h]
    rfl
  simp only [pollEvent, poll, rtcTunnelPollEvent, hp]
  exact ⟨rfl, rfl⟩

/-- The first event leaves the queue, whatever the host makes of it. -/
theorem pollEvent_takes {s : Instance L} (hr : s.Readable A) {event : Event} {rest : List Event}
    (h : s.pending = event :: rest) :
    (s.pollEvent A).2.pending = rest ∧ (s.pollEvent A).2.taken = s.taken + 1 ∧
      (s.pollEvent A).2.Readable A := by
  have hp : s.handle.tunnel.pollEvent = (some event, { s.handle.tunnel with events := rest }) := by
    rw [DirectTunnel.pollEvent, show s.handle.tunnel.events = event :: rest from h]
    rfl
  have hzero : s.pending[0]? = some event := by rw [h]; rfl
  have hstate : (s.poll A).2.pending = rest ∧ (s.poll A).2.taken = s.taken + 1 ∧
      (s.poll A).2.memory = s.memory.write (A.copy s.taken).toNat (payload event) := by
    simp only [poll, rtcTunnelPollEvent, hp, h]
    cases event <;> exact ⟨rfl, rfl, rfl⟩
  have hsnd : (s.pollEvent A).2 = (s.poll A).2 := rfl
  obtain ⟨hpending, htaken, hmemory⟩ := hstate
  rw [hsnd]
  refine ⟨hpending, htaken, hr.after A 1 (by rw [hpending, h]; rfl) htaken
    (by rw [hmemory]; rfl) fun k later hk hl => ?_⟩
  rw [hmemory]
  exact Memory.read_write_apart _ (hr.copyApart 0 k event later hzero hl hk)

/-- The copy of the payload is what the host reads, if its bounds cross as they are. -/
theorem copy_read {s : Instance L} (hr : s.Readable A) {event : Event}
    (h : s.pending[0]? = some event) : (uint8Array
      (s.memory.write (A.copy s.taken).toNat (payload event)) (jsNumber (A.copy s.taken))
        (jsNumber (UInt32.ofNat (payload event).length)) =
      if (A.copy s.taken).toNat < 2147483648 ∧ (payload event).length < 2147483648 then
        .ok (payload event)
      else .error .rangeError) := by
  have hlen := toNat_ofNat_length (hr.fits event (List.mem_of_getElem? h))
  split
  · rename_i hsigned
    exact uint8Array_eq (jsNumber_eq hsigned.1)
      ((jsNumber_eq (by rw [hlen]; exact hsigned.2)).trans (congrArg _ hlen)) (hr.copied 0 event h)
      (Memory.read_write ..)
  · rename_i hsigned
    exact uint8Array_neg (by rwa [hlen])

/-- **A poll hands the host the first event, or throws.** -/
theorem pollEvent_cons {s : Instance L} (hr : s.Readable A) {event : Event} {rest : List Event}
    (h : s.pending = event :: rest) :
    (s.CopySigned A 0 event → (s.pollEvent A).1 = .ok (crossed event)) ∧
      (¬ s.CopySigned A 0 event → (s.pollEvent A).1 = .error .rangeError) := by
  have hp : s.handle.tunnel.pollEvent = (some event, { s.handle.tunnel with events := rest }) := by
    rw [DirectTunnel.pollEvent, show s.handle.tunnel.events = event :: rest from h]
    rfl
  have hfirst : s.pending[0]? = some event := by
    rw [h]
    rfl
  have hcopy := copy_read A hr hfirst
  have hpoll : (s.pollEvent A).1 = readPolled
      (s.memory.write (A.copy s.taken).toNat (payload event)) (polled (some event)).kind
      (A.copy s.taken) (UInt32.ofNat (payload event).length) (polled (some event)).reason := by
    simp only [pollEvent, poll, rtcTunnelPollEvent, hp, payload_polled]
  rw [hpoll]
  refine ⟨fun hs => readPolled_polled fun hc => hcopy.trans (if_pos (hs hc)), fun hs => ?_⟩
  obtain ⟨hc, hn⟩ := Classical.not_imp.mp hs
  exact readPolled_unread hc (hcopy.trans (if_neg hn))

theorem pullEvents_eq (max : Nat) (t : DirectTunnel L) :
    pullEvents DirectTunnel.pollEvent max t =
      (t.events.take max, { t with events := t.events.drop max }) := by
  induction max generalizing t with
  | zero => rfl
  | succ max ih =>
    rw [pullEvents, DirectTunnel.pollEvent]
    cases h : t.events with
    | nil =>
      rw [List.take_nil, List.drop_nil]
      rfl
    | cons event rest =>
      simp only [List.head?_cons, List.tail_cons, ih]
      rfl

theorem length_descriptors (asPtr : Nat → UInt32) (events : List Event) :
    (descriptorsOf asPtr events).length = 4 * events.length := by
  induction events generalizing asPtr with
  | nil => rfl
  | cons event events ih =>
    have hrest : (events.mapIdx fun i event => descriptor (asPtr (i + 1)) event).flatten.length =
        4 * events.length := ih fun i => asPtr (i + 1)
    rw [descriptorsOf, List.mapIdx_cons, List.flatten_cons, List.length_append, hrest,
      List.length_cons]
    have : (descriptor (asPtr 0) event).length = 4 := by cases event <;> rfl
    omega

/-- The host makes of a descriptor what its event is. -/
theorem decodeEvent_descriptor {m : Memory} {ptr : UInt32} {event : Event}
    (h : uint8Array m ptr.toNat (UInt32.ofNat (payload event).length).toNat =
      .ok (payload event)) :
    ∃ kind p len aux, descriptor ptr event = [kind, p, len, aux] ∧
      decodeEvent m kind p len aux = .ok (crossed event) := by
  cases event with
  | sendDatagram bytes =>
    exact ⟨_, _, _, _, rfl, congrArg (Except.map fun data => if eventDatagram = eventDatagram then
      EngineEvent.datagram data else .message data) h⟩
  | opened => exact ⟨_, _, _, _, rfl, rfl⟩
  | message bytes =>
    exact ⟨_, _, _, _, rfl, congrArg (Except.map fun data => if eventMessage = eventDatagram then
      EngineEvent.datagram data else .message data) h⟩
  | closed reason => exact ⟨_, _, _, _, rfl, rfl⟩

theorem decodeEvents_descriptors {m : Memory} (asPtr : Nat → UInt32) {events : List Event}
    (h : ∀ k event, events[k]? = some event →
      uint8Array m (asPtr k).toNat (UInt32.ofNat (payload event).length).toNat =
        .ok (payload event)) :
    decodeEvents m (descriptorsOf asPtr events) = .ok (events.map crossed) := by
  induction events generalizing asPtr with
  | nil => rfl
  | cons event events ih =>
    have hrest : decodeEvents m
        (events.mapIdx fun i event => descriptor (asPtr (i + 1)) event).flatten =
          .ok (events.map crossed) :=
      ih (fun i => asPtr (i + 1)) fun k event he => h (k + 1) event he
    obtain ⟨kind, p, len, aux, hd, he⟩ := decodeEvent_descriptor (h 0 event rfl)
    rw [descriptorsOf, List.mapIdx_cons, List.flatten_cons, hd]
    simp only [List.cons_append, List.nil_append, decodeEvents, he, hrest]
    rfl

theorem countOf_descriptors (asPtr : Nat → UInt32) (events : List Event) :
    countOf (descriptorsOf asPtr events) = UInt32.ofNat events.length := by
  have hlen : (descriptorsOf asPtr events).length / 4 = events.length := by
    rw [length_descriptors]
    omega
  rw [countOf, hlen]

/-- **The host reads the events behind their descriptors**, which lie below 2^31 with the count. -/
theorem readDrained_descriptors {m : Memory} {base : UInt32} (asPtr : Nat → UInt32)
    {events : List Event}
    (hwords : m.readWords base.toNat (4 * events.length) = descriptorsOf asPtr events)
    (hin : events ≠ [] → base.toNat % 4 = 0 ∧ base.toNat < 2147483648 ∧
      events.length < 2147483648 ∧ base.toNat + 16 * events.length ≤ m.size)
    (h : ∀ k event, events[k]? = some event →
      uint8Array m (asPtr k).toNat (UInt32.ofNat (payload event).length).toNat =
        .ok (payload event)) :
    readDrained m (UInt32.ofNat events.length) base = .ok (events.map crossed) := by
  by_cases hnil : events = []
  · rw [hnil]
    rfl
  · obtain ⟨halign, hptr, hlt, hinside⟩ := hin hnil
    have hpos := List.length_pos_iff.mpr hnil
    have hcount : jsNumber (UInt32.ofNat events.length) = events.length := by
      have hn : (UInt32.ofNat events.length).toNat = events.length :=
        UInt32.toNat_ofNat_of_lt' (by show _ < 4294967296; omega)
      rw [jsNumber_eq (by omega), hn]
    have hfour : ((events.length : Int) * 4).toNat = 4 * events.length := by omega
    have harray : uint32Array m base.toNat (events.length * 4) =
        .ok (descriptorsOf asPtr events) := by
      rw [uint32Array, if_pos ⟨by omega, by omega, by omega, by omega⟩, Int.toNat_natCast, hfour,
        hwords]
    rw [readDrained, hcount, if_neg (by omega), jsNumber_eq hptr, harray]
    exact decodeEvents_descriptors asPtr h

/-- The events of the next batch. -/
def batch (s : Instance L) (max : UInt32) : List Event := s.pending.take max.toNat

/-- The descriptors of the next batch. -/
def batchWords (s : Instance L) (max : UInt32) : List UInt32 :=
  descriptorsOf (fun i => A.payload (s.taken + i)) (s.batch max)

theorem length_batch (s : Instance L) (max : UInt32) :
    (s.batch max).length = min max.toNat s.pending.length := List.length_take

theorem length_batchWords (s : Instance L) (max : UInt32) :
    (s.batchWords A max).length = 4 * (s.batch max).length := length_descriptors _ _

/-- What a drain leaves behind. -/
theorem drain_eq (s : Instance L) (max : UInt32) : s.drain A max =
    (UInt32.ofNat (s.batch max).length,
      { handle :=
          { s.handle with
            tunnel := { s.handle.tunnel with events := s.pending.drop max.toNat }
            drained := s.batch max
            descriptors := s.batchWords A max }
        memory := s.memory.writeWords (A.array s.taken (s.batch max).length).toNat
          (s.batchWords A max)
        taken := s.taken + (s.batch max).length
        eventPtr := s.eventPtr
        eventsPtr := A.array s.taken (s.batch max).length }) := by
  simp only [drain, rtcTunnelDrainEvents, pullEvents_eq]
  exact Prod.ext (countOf_descriptors _ (s.batch max)) rfl

theorem drain_pending (s : Instance L) (max : UInt32) :
    (s.drain A max).2.pending = s.pending.drop max.toNat := by
  rw [drain_eq]
  rfl

/-- The descriptors are written apart from every payload. -/
theorem Readable.kept {s : Instance L} (hr : s.Readable A) (max : UInt32) {k : Nat}
    {event : Event} (he : s.pending[k]? = some event) :
    (s.drain A max).2.memory.read (A.payload (s.taken + k)).toNat (payload event).length =
      s.memory.read (A.payload (s.taken + k)).toNat (payload event).length := by
  rw [drain_eq]
  refine Memory.read_write_apart _ fun i hi => ?_
  rw [Memory.length_flatMap_wordBytes, length_batchWords] at hi
  have hlen := s.length_batch max
  exact hr.arrayApart 0 (s.batch max).length k event (by omega) (by omega) he (Nat.zero_le k) i
    (by omega)

theorem Readable.drained {s : Instance L} (hr : s.Readable A) (max : UInt32) :
    (s.drain A max).2.Readable A := by
  have hlen := s.length_batch max
  refine hr.after A (s.batch max).length ?_ (by rw [drain_eq]) (by rw [drain_eq]; rfl)
    fun k event _ he => hr.kept A max he
  rw [drain_pending]
  by_cases hm : max.toNat ≤ s.pending.length
  · rw [hlen, Nat.min_eq_left hm]
  · rw [hlen, Nat.min_eq_right (by omega), List.drop_of_length_le (by omega), List.drop_length]

/-- **A drain hands the host the first events**, as many as it asked for or as there are. -/
theorem drainEvents_eq {s : Instance L} (hr : s.Readable A) (max : UInt32)
    (hs : 0 < (s.batch max).length → s.BatchSigned A 0 (s.batch max).length) :
    s.drainEvents A max = (.ok ((s.pending.take max.toNat).map crossed), (s.drain A max).2) := by
  have hlen := s.length_batch max
  have hread : readDrained (s.drain A max).2.memory (UInt32.ofNat (s.batch max).length)
      (A.array s.taken (s.batch max).length) = .ok ((s.batch max).map crossed) := by
    have hmemory : (s.drain A max).2.memory = s.memory.writeWords
        (A.array s.taken (s.batch max).length).toNat (s.batchWords A max) := by rw [drain_eq]
    refine readDrained_descriptors (fun i => A.payload (s.taken + i)) ?_ (fun hne => ?_)
      fun k event he => ?_
    · rw [hmemory, ← s.length_batchWords A max]
      exact Memory.readWords_writeWords ..
    · have hpos := List.length_pos_iff.mpr hne
      obtain ⟨hptr, hlt⟩ := hs hpos
      obtain ⟨halign, hin⟩ := hr.array 0 (s.batch max).length hpos (by omega)
      rw [hmemory, Memory.writeWords, Memory.size_write]
      exact ⟨halign, hptr, hlt, hin⟩
    · have hk : s.pending[k]? = some event := by
        rw [batch, List.getElem?_take] at he
        exact (Option.ite_none_right_eq_some.mp he).2
      rw [toNat_ofNat_length (hr.fits event (List.mem_of_getElem? hk))]
      refine uint8Array_eq rfl rfl ?_ ((hr.kept A max hk).trans (hr.stored k event hk))
      rw [hmemory, Memory.writeWords, Memory.size_write]
      exact hr.inside k event hk
  refine Prod.ext ?_ rfl
  show readDrained (s.drain A max).2.memory (s.drain A max).1 (s.drain A max).2.eventsPtr = _
  rw [← batch, ← hread, drain_eq]

/-- A batch whose pointer or count is 2^31 or more is not read. -/
theorem drainEvents_unsigned {s : Instance L} (hr : s.Readable A) (max : UInt32)
    (hn : 0 < (s.batch max).length) (hs : ¬ s.BatchSigned A 0 (s.batch max).length) :
    (s.drainEvents A max).1 = .error .rangeError := by
  have hlen := s.length_batch max
  have hcounts := hr.counts
  have hcount : (UInt32.ofNat (s.batch max).length).toNat = (s.batch max).length :=
    UInt32.toNat_ofNat_of_lt' (by show _ < 4294967296; omega)
  have hne : jsNumber (UInt32.ofNat (s.batch max).length) ≠ 0 := by
    by_cases hlt : (UInt32.ofNat (s.batch max).length).toNat < 2147483648
    · rw [jsNumber_eq hlt, hcount]
      omega
    · have := jsNumber_neg hlt
      omega
  have harray : ∀ m : Memory, uint32Array m (jsNumber (A.array s.taken (s.batch max).length))
      (jsNumber (UInt32.ofNat (s.batch max).length) * 4) = .error .rangeError := by
    refine fun m => if_neg fun ⟨hptr, _, hcnt, _⟩ => hs ⟨?_, ?_⟩
    · rw [Nat.add_zero]
      by_contra hge
      have := jsNumber_neg hge
      omega
    · by_contra hge
      have := jsNumber_neg (w := UInt32.ofNat (s.batch max).length) (by rwa [hcount])
      omega
  simp only [drainEvents, readDrained, drain_eq, if_neg hne]
  rw [harray]
  rfl

/-- `pollEvent` until it answers `EVENT_NONE`. -/
def pollUntilNone : Nat → Instance L → Option (Except JsError (List EngineEvent))
  | 0, _ => none
  | fuel + 1, s =>
    match s.pollEvent A with
    | (.error e, _) => some (.error e)
    | (.ok .none, _) => some (.ok [])
    | (.ok event, s) => (pollUntilNone fuel s).map (Except.map (event :: ·))

/-- `drainEvents` with one size after the other, until a batch is shorter than asked. -/
def drainUntilShort (sizes : Nat → UInt32) :
    Nat → Nat → Instance L → Option (Except JsError (List (List EngineEvent)))
  | 0, _, _ => none
  | fuel + 1, i, s =>
    match s.drainEvents A (sizes i) with
    | (.error e, _) => some (.error e)
    | (.ok batch, s) =>
      if batch.length < (sizes i).toNat then some (.ok [batch])
      else (drainUntilShort sizes fuel (i + 1) s).map (Except.map (batch :: ·))

/-- A run that goes on succeeds exactly when the rest of it does. -/
theorem consed_ok {T : Type} {x : T} {xs : List T} {rest : Option (Except JsError (List T))} :
    rest.map (Except.map (x :: ·)) = some (.ok xs) ↔
      ∃ later, rest = some (.ok later) ∧ x :: later = xs := by
  constructor
  · intro h
    obtain ⟨o, ho, hmap⟩ := Option.map_eq_some_iff.mp h
    cases o with
    | error e => cases hmap
    | ok later =>
      cases hmap
      exact ⟨later, ho, rfl⟩
  · rintro ⟨later, rfl, rfl⟩
    rfl

/-- What a poll leaves has to be signed only for the events that are left. -/
theorem copySigned_next {s : Instance L} (hr : s.Readable A) {event : Event} {rest : List Event}
    (h : s.pending = event :: rest) (k : Nat) (later : Event) :
    (s.pollEvent A).2.CopySigned A k later ↔ s.CopySigned A (k + 1) later := by
  obtain ⟨_, htaken, _⟩ := pollEvent_takes A hr h
  rw [CopySigned, CopySigned, htaken, Nat.add_right_comm, Nat.add_assoc]

/-- Behind a copy that is signed, the copies of what is left have to be. -/
theorem copySigned_cons {s : Instance L} (hr : s.Readable A) {event : Event} {rest : List Event}
    (h : s.pending = event :: rest) (hs : s.CopySigned A 0 event) :
    (∀ k later, (event :: rest)[k]? = some later → s.CopySigned A k later) ↔
      ∀ k later, rest[k]? = some later → (s.pollEvent A).2.CopySigned A k later := by
  constructor
  · exact fun hall k later hk => (copySigned_next A hr h k later).mpr (hall (k + 1) later hk)
  · intro hall k later hk
    cases k with
    | zero =>
      cases hk
      exact hs
    | succ k => exact (copySigned_next A hr h k later).mp (hall k later hk)

/-- **The events come one at a time exactly when what the accessors return is signed.** -/
theorem pollUntilNone_iff {s : Instance L} (hr : s.Readable A) {fuel : Nat}
    (hf : s.pending.length < fuel) (events : List EngineEvent) :
    s.pollUntilNone A fuel = some (.ok events) ↔ events = s.pending.map crossed ∧
      ∀ k event, s.pending[k]? = some event → s.CopySigned A k event := by
  induction fuel generalizing s events with
  | zero => exact absurd hf (Nat.not_lt_zero _)
  | succ fuel ih =>
    rw [pollUntilNone]
    cases hq : s.pending with
    | nil =>
      obtain ⟨hfst, _⟩ := pollEvent_nil A hq
      obtain ⟨r, hp⟩ : ∃ r, s.pollEvent A = (.ok .none, r) := ⟨_, Prod.ext hfst rfl⟩
      rw [hp]
      simp [eq_comm]
    | cons event rest =>
      obtain ⟨hpending, _, hread⟩ := pollEvent_takes A hr hq
      obtain ⟨hok, hthrows⟩ := pollEvent_cons A hr hq
      by_cases hs : s.CopySigned A 0 event
      · have hsplit := copySigned_cons A hr hq hs
        have hrest := fun events => ih hread (by
          rw [hpending]
          rw [hq, List.length_cons] at hf
          omega) events
        rw [hpending] at hrest
        obtain ⟨r, hp⟩ : ∃ r, s.pollEvent A = (.ok (crossed event), r) := ⟨_, Prod.ext (hok hs) rfl⟩
        rw [hp] at hrest hsplit ⊢
        have hnone := crossed_ne_none event
        rw [hsplit, List.map_cons]
        cases hc : crossed event with
        | none => exact absurd hc hnone
        | _ =>
          dsimp only
          rw [consed_ok]
          constructor
          · rintro ⟨later, ho, rfl⟩
            obtain ⟨rfl, hall⟩ := (hrest later).mp ho
            exact ⟨rfl, hall⟩
          · rintro ⟨rfl, hall⟩
            exact ⟨_, (hrest _).mpr ⟨rfl, hall⟩, rfl⟩
      · obtain ⟨r, hp⟩ : ∃ r, s.pollEvent A = (.error .rangeError, r) :=
          ⟨_, Prod.ext (hthrows hs) rfl⟩
        rw [hp]
        constructor
        · intro h
          cases h
        · exact fun h => absurd (h.2 0 event rfl) hs

/-- The batches are the queue, cut where each batch is full. -/
structure Batches (sizes : Nat → UInt32) (i : Nat) (pending : List Event)
    (batches : List (List EngineEvent)) : Prop where
  all : batches.flatten = pending.map crossed
  sized : ∀ j batch, batches[j]? = some batch → batch.length =
    min (sizes (i + j)).toNat (pending.length - (batches.take j).flatten.length)

/-- The last batch is what is left. -/
theorem batches_last {sizes : Nat → UInt32} {i : Nat} {pending : List Event}
    (hshort : pending.length < (sizes i).toNat) :
    Batches sizes i pending [(pending.take (sizes i).toNat).map crossed] := by
  have hall : pending.take (sizes i).toNat = pending := List.take_of_length_le (by omega)
  refine ⟨by rw [List.flatten_cons, List.flatten_nil, List.append_nil, hall], ?_⟩
  intro j batch hj
  cases j with
  | zero =>
    cases hj
    rw [List.length_map, List.length_take]
    rfl
  | succ j => cases hj

/-- Behind a full batch come the batches of what it leaves. -/
theorem batches_cons {sizes : Nat → UInt32} {i : Nat} {pending : List Event}
    (hfull : (sizes i).toNat ≤ pending.length) {later : List (List EngineEvent)} :
    Batches sizes i pending ((pending.take (sizes i).toNat).map crossed :: later) ↔
      Batches sizes (i + 1) (pending.drop (sizes i).toNat) later := by
  have hlen : ((pending.take (sizes i).toNat).map crossed).length = (sizes i).toNat := by
    rw [List.length_map, List.length_take, Nat.min_eq_left hfull]
  -- the later batches are counted from the next size on, behind the events of the first one
  have hnext : ∀ j, min (sizes (i + (j + 1))).toNat (pending.length -
      (((pending.take (sizes i).toNat).map crossed :: later).take (j + 1)).flatten.length) =
        min (sizes (i + 1 + j)).toNat
          ((pending.drop (sizes i).toNat).length - (later.take j).flatten.length) := by
    intro j
    rw [List.take_succ_cons, List.flatten_cons, List.length_append, hlen, List.length_drop,
      Nat.sub_sub, Nat.add_right_comm, Nat.add_assoc]
  constructor
  · rintro ⟨hall, hsized⟩
    refine ⟨?_, fun j batch hj => (hsized (j + 1) batch hj).trans (hnext j)⟩
    rw [List.flatten_cons, ← List.take_append_drop (sizes i).toNat pending, List.map_append,
      List.take_append_drop] at hall
    exact List.append_cancel_left hall
  · rintro ⟨hall, hsized⟩
    refine ⟨by rw [List.flatten_cons, hall, ← List.map_append, List.take_append_drop], ?_⟩
    intro j batch hj
    cases j with
    | zero =>
      cases hj
      rw [List.length_map, List.length_take]
      rfl
    | succ j => exact (hsized j batch hj).trans (hnext j).symm

/-- What a full batch leaves has to be signed for the batches that are left. -/
theorem batchSigned_next {sizes : Nat → UInt32} {s : Instance L} (i : Nat)
    (hfull : (sizes i).toNat ≤ s.pending.length) :
    (∀ j, offset sizes i j < s.pending.length → s.BatchSigned A (offset sizes i j)
      (min (sizes (i + j)).toNat (s.pending.length - offset sizes i j))) ↔
    (0 < s.pending.length → s.BatchSigned A 0 (s.batch (sizes i)).length) ∧
      ∀ j, offset sizes (i + 1) j < (s.drain A (sizes i)).2.pending.length →
        (s.drain A (sizes i)).2.BatchSigned A (offset sizes (i + 1) j)
          (min (sizes (i + 1 + j)).toNat
            ((s.drain A (sizes i)).2.pending.length - offset sizes (i + 1) j)) := by
  have hbatch := s.length_batch (sizes i)
  have hpending : (s.drain A (sizes i)).2.pending.length =
      s.pending.length - (sizes i).toNat := by
    rw [drain_pending, List.length_drop]
  have htaken : (s.drain A (sizes i)).2.taken = s.taken + (sizes i).toNat := by
    rw [drain_eq]
    show s.taken + (s.batch (sizes i)).length = _
    omega
  have hshift : ∀ j, i + 1 + j = i + (j + 1) := fun j => by omega
  have hnext : ∀ j, (s.drain A (sizes i)).2.BatchSigned A (offset sizes (i + 1) j)
      (min (sizes (i + 1 + j)).toNat
        ((s.drain A (sizes i)).2.pending.length - offset sizes (i + 1) j)) ↔
      s.BatchSigned A (offset sizes i (j + 1))
        (min (sizes (i + (j + 1))).toNat (s.pending.length - offset sizes i (j + 1))) := by
    intro j
    rw [BatchSigned, BatchSigned, htaken, hpending, hshift, offset, Nat.add_assoc,
      Nat.sub_sub]
  have hlt : ∀ j, offset sizes (i + 1) j < (s.drain A (sizes i)).2.pending.length ↔
      offset sizes i (j + 1) < s.pending.length := by
    intro j
    rw [hpending, offset]
    omega
  constructor
  · intro h
    refine ⟨fun hn => ?_, fun j hj => (hnext j).mpr (h (j + 1) ((hlt j).mp hj))⟩
    rw [hbatch]
    exact h 0 hn
  · rintro ⟨hfirst, hall⟩ j hj
    cases j with
    | zero =>
      rw [hbatch] at hfirst
      exact hfirst hj
    | succ j => exact (hnext j).mp (hall j ((hlt j).mpr hj))

/-- Behind a batch that is not full there is none. -/
theorem batchSigned_last {sizes : Nat → UInt32} {s : Instance L} (i : Nat)
    (hshort : s.pending.length < (sizes i).toNat) :
    (∀ j, offset sizes i j < s.pending.length → s.BatchSigned A (offset sizes i j)
      (min (sizes (i + j)).toNat (s.pending.length - offset sizes i j))) ↔
    (0 < s.pending.length → s.BatchSigned A 0 (s.batch (sizes i)).length) := by
  have hbatch := s.length_batch (sizes i)
  rw [hbatch]
  refine ⟨fun h hn => h 0 hn, fun h j hj => ?_⟩
  cases j with
  | zero => exact h hj
  | succ j =>
    rw [offset] at hj
    omega

/-- **The events come in batches exactly when what the exports return for them is signed.** -/
theorem drainUntilShort_iff {sizes : Nat → UInt32} (hs : ∀ i, 0 < (sizes i).toNat)
    {s : Instance L} (hr : s.Readable A) {fuel : Nat} (hf : s.pending.length < fuel) (i : Nat) :
    (∃ batches, s.drainUntilShort A sizes fuel i = some (.ok batches) ∧
      Batches sizes i s.pending batches) ↔
    ∀ j, offset sizes i j < s.pending.length → s.BatchSigned A (offset sizes i j)
      (min (sizes (i + j)).toNat (s.pending.length - offset sizes i j)) := by
  induction fuel generalizing s i with
  | zero => exact absurd hf (Nat.not_lt_zero _)
  | succ fuel ih =>
    have hbatch := s.length_batch (sizes i)
    have hpos := hs i
    have hlen : ((s.pending.take (sizes i).toNat).map crossed).length =
        min (sizes i).toNat s.pending.length := by rw [List.length_map, List.length_take]
    by_cases hfirst : 0 < s.pending.length → s.BatchSigned A 0 (s.batch (sizes i)).length
    · rw [drainUntilShort, drainEvents_eq A hr (sizes i) fun hn => hfirst (by omega)]
      dsimp only
      by_cases hshort : ((s.pending.take (sizes i).toNat).map crossed).length < (sizes i).toNat
      · rw [if_pos hshort, batchSigned_last A i (by omega)]
        exact ⟨fun _ => hfirst, fun _ => ⟨_, rfl, batches_last (by omega)⟩⟩
      · have hfull : (sizes i).toNat ≤ s.pending.length := by omega
        rw [if_neg hshort, batchSigned_next A i hfull, ← ih (hr.drained A (sizes i))
          (by rw [drain_pending, List.length_drop]; omega) (i + 1), drain_pending]
        constructor
        · rintro ⟨batches, hb, hcut⟩
          obtain ⟨later, ho, rfl⟩ := consed_ok.mp hb
          exact ⟨hfirst, later, ho, (batches_cons hfull).mp hcut⟩
        · rintro ⟨_, later, ho, hcut⟩
          exact ⟨_, consed_ok.mpr ⟨later, ho, rfl⟩, (batches_cons hfull).mpr hcut⟩
    · have hn : 0 < s.pending.length := by
        by_contra hn
        exact hfirst fun h => absurd h hn
      have hunsigned : ¬ s.BatchSigned A 0 (s.batch (sizes i)).length := fun h => hfirst fun _ => h
      have hthrows := drainEvents_unsigned A hr (sizes i) (by omega) hunsigned
      obtain ⟨r, hd⟩ : ∃ r, s.drainEvents A (sizes i) = (.error .rangeError, r) :=
        ⟨_, Prod.ext hthrows rfl⟩
      rw [drainUntilShort, hd]
      constructor
      · rintro ⟨_, hb, _⟩
        cases hb
      · intro h
        have hbad := h 0 hn
        rw [Nat.add_zero, offset, Nat.sub_zero, ← hbatch] at hbad
        exact absurd hbad hunsigned

/-- The batches and the single events are the events of the queue. -/
def DrainsAsPolled (A : Placement) (sizes : Nat → UInt32) (fuel : Nat) (s : Instance L) : Prop :=
  ∃ events batches, s.pollUntilNone A fuel = some (.ok events) ∧
    s.drainUntilShort A sizes fuel 0 = some (.ok batches) ∧ batches.flatten = events ∧
    events = s.pending.map crossed ∧
    ∀ j batch, batches[j]? = some batch → batch.length =
      min (sizes j).toNat (events.length - (batches.take j).flatten.length)

/-- **The batches and the single events are the same events exactly when every pointer, length and
count that an export returns is below 2^31.** -/
theorem drains_as_polled_iff (A : Placement) {s : Instance L} (hr : s.Readable A)
    {sizes : Nat → UInt32} (hs : ∀ i, 0 < (sizes i).toNat) {fuel : Nat}
    (hf : s.pending.length < fuel) :
    s.DrainsAsPolled A sizes fuel ↔ s.ReturnsSigned A sizes 0 := by
  have hdrain := drainUntilShort_iff A hs hr hf 0
  constructor
  · rintro ⟨events, batches, hp, hb, hflat, rfl, hsized⟩
    refine ⟨((pollUntilNone_iff A hr hf _).mp hp).2, hdrain.mp ⟨batches, hb, hflat, ?_⟩⟩
    intro j batch hj
    rw [hsized j batch hj, Nat.zero_add, List.length_map]
  · rintro ⟨hcopies, hbatches⟩
    obtain ⟨batches, hb, hall, hsized⟩ := hdrain.mpr hbatches
    refine ⟨_, batches, (pollUntilNone_iff A hr hf _).mpr ⟨rfl, hcopies⟩, hb, hall, rfl, ?_⟩
    intro j batch hj
    rw [hsized j batch hj, Nat.zero_add, List.length_map]

end Instance

namespace Script

/-- The payload of the first event lies at 1024, the copies go to one address and the descriptors
to 4096. -/
def placement (copy : UInt32) : Placement where
  payload _ := 1024
  copy _ := copy
  array _ _ := 4096

/-- A message and the end of the tunnel wait for the host, in a memory of 4 GiB. -/
def waiting : Instance Direct.Script.layers where
  handle :=
    { tunnel := { Direct.Script.dialer with events := [.message [7, 8], .closed .remote] }
      offer := [], eventKind := eventNone, eventPayload := [], eventReason := 0, drained := []
      descriptors := [], cipher := none }
  memory := Memory.write { bytes := fun _ => 0, size := 4294967296 } 1024 [7, 8]
  taken := 0
  eventPtr := 0
  eventsPtr := 0

theorem pending_waiting {k : Nat} {event : Event} (h : waiting.pending[k]? = some event) :
    (k = 0 ∧ event = .message [7, 8]) ∨ (k = 1 ∧ event = .closed .remote) := by
  match k, h with
  | 0, h => exact .inl ⟨rfl, (Option.some.inj h).symm⟩
  | 1, h => exact .inr ⟨rfl, (Option.some.inj h).symm⟩

theorem readable_waiting {copy : UInt32} (hc : copy.toNat + 2 ≤ 4294967296) :
    waiting.Readable (placement copy) where
  stored k event h := by
    obtain ⟨rfl, rfl⟩ | ⟨rfl, rfl⟩ := pending_waiting h
    · exact Memory.read_write ..
    · rfl
  inside k event h := by
    obtain ⟨rfl, rfl⟩ | ⟨rfl, rfl⟩ := pending_waiting h
    · show 1024 + 2 ≤ 4294967296
      omega
    · show 1024 + 0 ≤ 4294967296
      omega
  fits event h := by
    obtain ⟨k, h⟩ := List.mem_iff_getElem?.mp h
    obtain ⟨rfl, rfl⟩ | ⟨rfl, rfl⟩ := pending_waiting h
    · show 2 < 4294967296
      omega
    · show 0 < 4294967296
      omega
  copied k event h := by
    obtain ⟨rfl, rfl⟩ | ⟨rfl, rfl⟩ := pending_waiting h
    · exact hc
    · show copy.toNat + 0 ≤ 4294967296
      omega
  copyApart j k event later h h' hjk := by
    obtain ⟨rfl, rfl⟩ | ⟨rfl, rfl⟩ := pending_waiting h' <;> intro i hi m hm
    · omega
    · exact absurd hm (Nat.not_lt_zero m)
  array k n _ hk := by
    have hlen : waiting.pending.length = 2 := rfl
    refine ⟨by show 4096 % 4 = 0; omega, ?_⟩
    show 4096 + 16 * n ≤ 4294967296
    omega
  arrayApart j n k event _ hj h _ := by
    intro i hi m hm
    have hlen : m < 2 := by
      obtain ⟨rfl, rfl⟩ | ⟨rfl, rfl⟩ := pending_waiting h
      · exact hm
      · exact absurd hm (Nat.not_lt_zero m)
    show 4096 + i ≠ 1024 + m
    omega
  counts := by decide

/-- Below 2^31 both ways agree. -/
theorem signed_waiting : waiting.ReturnsSigned (placement 2048) (fun _ => 1) 0 where
  copies k event h := by
    obtain ⟨rfl, rfl⟩ | ⟨rfl, rfl⟩ := pending_waiting h <;> intro _ <;> decide
  batches j hj := by
    refine ⟨by show 4096 < _; omega, ?_⟩
    have hlen : waiting.pending.length = 2 := rfl
    omega

end Script

namespace Instance

theorem drains_as_polled_waiting :
    Script.waiting.DrainsAsPolled (Script.placement 2048) (fun _ => 1) 3 :=
  (drains_as_polled_iff (Script.placement 2048) (Script.readable_waiting (by decide))
    (fun _ => by decide) (by decide)).mpr Script.signed_waiting

/-- A copy at 2^31 is decoded from a batch, and throws when it is polled. -/
theorem copy_not_polled :
    Script.waiting.Readable (Script.placement 2147483648) ∧
      (Script.waiting.drainEvents (Script.placement 2147483648) 2).1 =
        .ok [.message [7, 8], .closed 1] ∧
      (Script.waiting.pollEvent (Script.placement 2147483648)).1 = .error .rangeError ∧
      ¬ Script.waiting.DrainsAsPolled (Script.placement 2147483648) (fun _ => 2) 3 := by
  have hr : Script.waiting.Readable (Script.placement 2147483648) :=
    Script.readable_waiting (by decide)
  have hcopy : ¬ Script.waiting.CopySigned (Script.placement 2147483648) 0 (.message [7, 8]) :=
    fun h => absurd (h rfl).1 (by decide)
  refine ⟨hr, ?_, (pollEvent_cons _ hr rfl).2 hcopy, ?_⟩
  · have hd := drainEvents_eq (Script.placement 2147483648) hr 2 fun _ => ⟨by decide, by decide⟩
    rw [hd]
    rfl
  · rintro ⟨events, _, hp, _⟩
    exact hcopy (((pollUntilNone_iff _ hr (by decide) events).mp hp).2 0 _ rfl)

end Instance

end RtcTunnel.Abi
