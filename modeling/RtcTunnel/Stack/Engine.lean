import RtcTunnel.Abi.Relay
import RtcTunnel.Core.Double
import RtcTunnel.Driver.Deferral
import RtcTunnel.Driver.Handshake
import RtcTunnel.Stack.Backend

/-!
# The engine of the module

`WasmTunnelEngine` with the exports it calls, over either backend. What crosses the boundary
is converted here as both sides convert it; the bytes that cross through linear memory are taken
as they are. What a freed handle does is not modelled: `dispose` notes that it is.
-/

namespace RtcTunnel.Stack

open RtcTunnel.Core
open RtcTunnel.Abi (pullEvents pullEvents_none pullEvents_some toWord)
open RtcTunnel.Abi.Instance (crossed)
open RtcTunnel.Driver

set_option autoImplicit false

/-- A tunnel of the module with its engine. `cipher` is the text whose bytes the handle keeps. -/
structure WasmTunnelEngine (B : Backend) where
  tunnel : B.Tunnel
  cipher : Option Text
  disposed : Bool

namespace WasmTunnelEngine

variable {B : Backend}

/-- `now_ms.max(0.0) as u64` -/
def clock (nowMs : F64) : UInt64 := nowMs.maxZero.toU64

def input (s : WasmTunnelEngine B) (nowMs : F64) (data : Bytes) : WasmTunnelEngine B :=
  { s with tunnel := B.receive s.tunnel (clock nowMs) data }

def inputDeferred (s : WasmTunnelEngine B) (nowMs : F64) (data : Bytes) : WasmTunnelEngine B :=
  { s with tunnel := B.receiveDeferred s.tunnel (clock nowMs) data }

def finishInputBatch (s : WasmTunnelEngine B) : WasmTunnelEngine B :=
  { s with tunnel := B.finishInputBatch s.tunnel }

def tick (s : WasmTunnelEngine B) (nowMs : F64) : WasmTunnelEngine B :=
  { s with tunnel := B.tick s.tunnel (clock nowMs) }

def sendCode : SendResult → Nat
  | .accepted => sendAccepted
  | .backpressure => sendBackpressure
  | .tooLarge => sendTooLarge
  | .notOpen => sendNotOpen

def send (s : WasmTunnelEngine B) (data : Bytes) : Nat × WasmTunnelEngine B :=
  let r := B.send s.tunnel data
  (sendCode r.1, { s with tunnel := r.2 })

/-- `rtc_tunnel_next_deadline`: `-1` stands for none. -/
def rtcTunnelNextDeadline (t : B.Tunnel) : F64 × B.Tunnel :=
  let r := B.nextDeadline t
  ((r.1.map fun ms => F64.ofNat ms.toNat).getD (.ofInt (-1)), r.2)

def nextDeadline (s : WasmTunnelEngine B) : Option F64 × WasmTunnelEngine B :=
  let r := rtcTunnelNextDeadline s.tunnel
  (if r.1.lt (.ofInt 0) then none else some r.1, { s with tunnel := r.2 })

def pollEvent (s : WasmTunnelEngine B) : EngineEvent × WasmTunnelEngine B :=
  let r := B.pollEvent s.tunnel
  (r.1.elim .none crossed, { s with tunnel := r.2 })

/-- A batch of so many events. -/
def pull (s : WasmTunnelEngine B) (max : Nat) : List EngineEvent × WasmTunnelEngine B :=
  let r := pullEvents B.pollEvent max s.tunnel
  (r.1.map crossed, { s with tunnel := r.2 })

def drainEvents (s : WasmTunnelEngine B) (max : F64) : List EngineEvent × WasmTunnelEngine B :=
  s.pull (toWord max).toNat

def close (s : WasmTunnelEngine B) : WasmTunnelEngine B := { s with tunnel := B.close s.tunnel }

def setSendBufferCap (s : WasmTunnelEngine B) (cap : F64) : WasmTunnelEngine B :=
  { s with tunnel := B.setSendBufferCap s.tunnel (toWord cap).toNat }

def dispose (s : WasmTunnelEngine B) : WasmTunnelEngine B :=
  if s.disposed then s else { s with disposed := true }

def bufferedBytes (s : WasmTunnelEngine B) : Nat × WasmTunnelEngine B :=
  (F64.round (B.bufferedBytes s.tunnel), s)

def droppedDatagrams (s : WasmTunnelEngine B) : Nat × WasmTunnelEngine B :=
  (F64.round (B.droppedDatagrams s.tunnel).toNat, s)

/-- `TunnelHandle::cipher_name` -/
def cipherName (s : WasmTunnelEngine B) : Option Text × WasmTunnelEngine B :=
  match s.cipher with
  | some name => (some name, s)
  | none =>
    let r := B.negotiatedCipherSuite s.tunnel
    (r.1, { s with tunnel := r.2, cipher := r.1 })

/-- The decoder drops a byte order mark. -/
def decode : Text → Text
  | '\uFEFF' :: rest => rest
  | text => text

/-- The handle is asked for the length of the name and then for the name. -/
def negotiatedCipherSuite (s : WasmTunnelEngine B) : Option Text × WasmTunnelEngine B :=
  let r := s.cipherName
  if (r.1.getD []).isEmpty then (none, r.2) else (r.2.cipherName.1.map decode, r.2.cipherName.2)

end WasmTunnelEngine

/-- The engine that the driver is given. -/
def engine (B : Backend) : EngineApi where
  State := WasmTunnelEngine B
  input := WasmTunnelEngine.input
  inputDeferred := some WasmTunnelEngine.inputDeferred
  finishInputBatch := some WasmTunnelEngine.finishInputBatch
  tick := WasmTunnelEngine.tick
  send := WasmTunnelEngine.send
  nextDeadline := WasmTunnelEngine.nextDeadline
  pollEvent := WasmTunnelEngine.pollEvent
  drainEvents := some WasmTunnelEngine.drainEvents
  close := WasmTunnelEngine.close
  dispose := WasmTunnelEngine.dispose
  bufferedBytes := some WasmTunnelEngine.bufferedBytes
  droppedDatagrams := some WasmTunnelEngine.droppedDatagrams
  negotiatedCipherSuite := some WasmTunnelEngine.negotiatedCipherSuite

/-- `createTunnel` once the module has answered with a handle. -/
def created {B : Backend} (tunnel : B.Tunnel) : WasmTunnelEngine B where
  tunnel := tunnel
  cipher := none
  disposed := false

namespace WasmTunnelEngine

variable {B : Backend} (C : B.Contract)

def view (s : WasmTunnelEngine B) : View := C.view s.tunnel

theorem pullEvents_eq (max : Nat) (t : B.Tunnel) :
    (pullEvents B.pollEvent max t).1 = (C.view t).queue.take max ∧
      C.view (pullEvents B.pollEvent max t).2 =
        { C.view t with queue := (C.view t).queue.drop max } ∧
      C.budget (pullEvents B.pollEvent max t).2 = C.budget t := by
  induction max generalizing t with
  | zero => exact ⟨rfl, rfl, rfl⟩
  | succ max ih =>
    obtain ⟨hhead, hview⟩ := C.pollEvent t
    have hfixed := C.fixed (.inr (.inr rfl) : Backend.Feed t _ ∨ Backend.Look t _ ∨ _)
    obtain ⟨o, r, hp⟩ : ∃ o r, B.pollEvent t = (o, r) := ⟨_, _, rfl⟩
    rw [hp] at hhead hview hfixed
    dsimp only at hhead hview hfixed
    cases o with
    | none =>
      rw [pullEvents_none hp]
      have hnil := List.head?_eq_none_iff.mp hhead.symm
      refine ⟨by rw [hnil]; rfl, ?_, hfixed⟩
      rw [hview, hnil]
      rfl
    | some event =>
      obtain ⟨rest, hq⟩ := List.head?_eq_some_iff.mp hhead.symm
      obtain ⟨hfst, hsnd, hbudget⟩ := ih r
      rw [pullEvents_some hp, hfst, hsnd, hbudget, hview, hq, hfixed]
      exact ⟨rfl, rfl, rfl⟩

/-- A batch is the front of the queue. -/
theorem pull_eq (s : WasmTunnelEngine B) (max : Nat) :
    (s.pull max).1 = ((s.view C).queue.take max).map crossed ∧
      (s.pull max).2.view C = { s.view C with queue := (s.view C).queue.drop max } ∧
      C.budget (s.pull max).2.tunnel = C.budget s.tunnel := by
  obtain ⟨hfst, hsnd, hbudget⟩ := pullEvents_eq C max s.tunnel
  exact ⟨congrArg (List.map crossed) hfst, hsnd, hbudget⟩

theorem toWord_whole {x : F64} (h : x.isPositive = true)
    (hl : x.lt (.ofInt 4294967296) = true) : (toWord x).toNat = x.whole := by
  rcases x with _ | (_ | _) | q
  · cases h
  · cases hl
  · cases h
  · have hpos : (0 : Rat) < q := of_decide_eq_true h
    have hf : 0 ≤ q.floor := Rat.le_floor_iff.mpr hpos.le
    have hlt : q.floor < 4294967296 := by
      rw [F64.lt, Bool.and_eq_true, Bool.not_eq_true'] at hl
      have hq : ¬ ((4294967296 : Int) : Rat) ≤ q := of_decide_eq_false hl.2
      exact Rat.floor_lt_iff.mpr (not_le.mp hq)
    rw [toWord, if_pos hpos.le, Abi.abiWord, Int.emod_eq_of_lt hf hlt, F64.whole,
      UInt32.toNat_ofNat_of_lt']
    show q.floor.toNat < 4294967296
    omega

/-- The look at the deadline: a number that is not negative, or none. -/
theorem nextDeadline_eq (s : WasmTunnelEngine B) : s.nextDeadline =
    ((B.nextDeadline s.tunnel).1.map fun ms => F64.ofNat ms.toNat,
      { s with tunnel := (B.nextDeadline s.tunnel).2 }) := by
  have hnone : (F64.ofInt (-1)).lt (.ofInt 0) = true := by decide +kernel
  unfold nextDeadline rtcTunnelNextDeadline
  dsimp only
  cases (B.nextDeadline s.tunnel).1 with
  | none =>
    rw [Option.map_none, Option.getD_none, if_pos hnone]
  | some ms =>
    rw [Option.map_some, Option.getD_some, if_neg (by rw [F64.ofNat_nonneg]; exact Bool.false_ne_true)]

/-- A feed of the engine is a feed of its tunnel. -/
theorem feed_tunnel {s r : (engine B).State} (h : (engine B).Feed s r) :
    Backend.Feed (WasmTunnelEngine.tunnel s) (WasmTunnelEngine.tunnel r) := by
  cases h with
  | input now data => exact .receive _ data
  | inputDeferred hf now data =>
    cases hf
    exact .receiveDeferred _ data
  | finishInputBatch hf =>
    cases hf
    exact .finishInputBatch
  | tick now => exact .tick _

theorem tunnel_dispose (s : WasmTunnelEngine B) : s.dispose.tunnel = s.tunnel := by
  unfold dispose
  split <;> rfl

theorem view_cipherName (s : WasmTunnelEngine B) : s.cipherName.2.view C = s.view C := by
  unfold cipherName
  split
  · rfl
  · exact C.looks (.negotiatedCipherSuite (t := s.tunnel))

end WasmTunnelEngine

end RtcTunnel.Stack
