import RtcTunnel.Driver.History
import RtcTunnel.Driver.Script
import RtcTunnel.Wasm.Tunnels

/-!
# The connections of one instance

A connection is driven over an engine with a state of its own. Over an engine of an instance
that other connections use as well, each call has the same answer, so the connection does the same.
-/

namespace RtcTunnel.Wasm

open RtcTunnel.Core
open RtcTunnel.Abi.Instance (JsError)
open RtcTunnel.Base (Memory)
open RtcTunnel.Base.Run
open RtcTunnel.Driver
open RtcTunnel.Stack (Backend WasmTunnelEngine created direct engine)

set_option autoImplicit false

/-- The call behind a logged effect. -/
def callOf (now size : F64) : Effect → Option Call
  | .engine (.input data) => some (.input now data)
  | .engine (.inputDeferred data) => some (.inputDeferred now data)
  | .engine .finishInputBatch => some .finishInputBatch
  | .engine .tick => some (.tick now)
  | .engine (.send packet _) => some (.send packet.data)
  | .engine .nextDeadline => some .nextDeadline
  | .engine .pollEvent => some .pollEvent
  | .engine .drainEvents => some (.drainEvents size)
  | .engine .close => some .close
  | .engine .bufferedBytes => some .bufferedBytes
  | .engine .droppedDatagrams => some .droppedDatagrams
  | .engine .negotiatedCipherSuite => some .negotiatedCipherSuite
  | .dispose => some .dispose
  | _ => none

/-- The events that an answer hands out. -/
def Answer.hands : Answer → List EngineEvent
  | .event e => if e = .none then [] else [e]
  | .events es => es
  | _ => []

/-- What an answer says of a message. -/
def Answer.result : Answer → Option Nat
  | .code result => some result
  | _ => none

/-- What is logged of a message. -/
def resultOf : Effect → Option Nat
  | .engine (.send _ result) => some result
  | _ => none

variable {B : Backend}

/-- The engine does on its own what was made of it. -/
structure Replays (s : WasmTunnelEngine B) (offer : Text) (calls : List Call)
    (out : List EngineEvent) (results : List Nat) (t : WasmTunnelEngine B) : Prop where
  engine : run Alone.step ⟨s, offer⟩ calls = ⟨t, offer⟩
  hands : (outputs Alone.step Alone.answer ⟨s, offer⟩ calls).flatMap Answer.hands = out
  results : (outputs Alone.step Alone.answer ⟨s, offer⟩ calls).filterMap Answer.result = results

theorem Replays.trans {s t u : WasmTunnelEngine B} {offer : Text} {calls calls' : List Call}
    {out out' : List EngineEvent} {results results' : List Nat}
    (h : Replays s offer calls out results t) (h' : Replays t offer calls' out' results' u) :
    Replays s offer (calls ++ calls') (out ++ out') (results ++ results') u where
  engine := by rw [run_append, h.engine, h'.engine]
  hands := by rw [outputs_append, List.flatMap_append, h.hands, h.engine, h'.hands]
  results := by rw [outputs_append, List.filterMap_append, h.results, h.engine, h'.results]

/-- One effect. -/
theorem replays_made {now size : F64} {s t : (engine B).State} {e : Effect}
    {out : List EngineEvent} (h : (engine B).Made now size s e out t) (offer : Text) :
    Replays s offer (callOf now size e).toList out (resultOf e).toList t := by
  cases h with
  | input data => exact ⟨rfl, rfl, rfl⟩
  | inputDeferred hf data =>
    cases hf
    exact ⟨rfl, rfl, rfl⟩
  | finishInputBatch hf =>
    cases hf
    exact ⟨rfl, rfl, rfl⟩
  | tick => exact ⟨rfl, rfl, rfl⟩
  | send packet => exact ⟨rfl, rfl, rfl⟩
  | nextDeadline => exact ⟨rfl, rfl, rfl⟩
  | pollEvent => exact ⟨rfl, List.append_nil _, rfl⟩
  | drainEvents hf =>
    cases hf
    exact ⟨rfl, List.append_nil _, rfl⟩
  | close => exact ⟨rfl, rfl, rfl⟩
  | bufferedBytes hf =>
    cases hf
    exact ⟨rfl, rfl, rfl⟩
  | droppedDatagrams hf =>
    cases hf
    exact ⟨rfl, rfl, rfl⟩
  | negotiatedCipherSuite hf =>
    cases hf
    exact ⟨rfl, rfl, rfl⟩
  | dispose => exact ⟨rfl, rfl, rfl⟩
  | apart e he =>
    cases e with
    | engine c => cases he
    | dispose => cases he
    | _ => exact ⟨rfl, rfl, rfl⟩

theorem filterMap_cons_toList {α β : Type} (f : α → Option β) (a : α) (l : List α) :
    (a :: l).filterMap f = (f a).toList ++ l.filterMap f := by
  rw [List.filterMap_cons]
  cases f a <;> rfl

theorem replays_history {now size : F64} {s t : (engine B).State} {es : List Effect}
    {out : List EngineEvent} (h : (engine B).History now size s es out t) (offer : Text) :
    Replays s offer (es.filterMap (callOf now size)) out (es.filterMap resultOf) t := by
  induction h with
  | nil s => exact ⟨rfl, rfl, rfl⟩
  | cons hm _ ih =>
    rw [filterMap_cons_toList, filterMap_cons_toList]
    exact (replays_made hm offer).trans ih

/-- The calls of a connection in a run. -/
def callsMade (d : Connection (engine B)) (labels : List Connection.Label) : List Call :=
  outputs Connection.step
    (fun d l => (d.logs l).filterMap (callOf l.now d.options.eventBatchSize)) d labels

theorem replays_run (d : Connection (engine B)) (labels : List Connection.Label) (offer : Text) :
    Replays d.engine offer (callsMade d labels) (d.handedOut labels)
      ((outputs Connection.step Connection.logs d labels).filterMap resultOf)
      (run Connection.step d labels).engine := by
  induction labels generalizing d with
  | nil => exact ⟨rfl, rfl, rfl⟩
  | cons l labels ih =>
    have hall := (replays_history (Connection.log_step d l).2 offer).trans (ih (d.step l))
    rw [← List.filterMap_append] at hall
    exact hall

namespace Instance

variable {C : B.Contract}

/-- **A connection does not show that its engine shares an instance.** Among whatever else is done
with the instance, the calls of its `i`-th engine are those that a connection makes in some run of
it. No engine is called behind its `dispose`, the allocator grants regions apart from those in use,
and the memory never shrinks and stays below 2 GiB. Then all the calls are answered, none with an
exception: the events are those that the connection is handed, the results those that it logs for
its messages, and the engine ends as the connection has it. -/
theorem connection_in_instance {memory : Memory} (hb : memory.size < 2147483648)
    {ops : List (Op B)} (hf : Meets (step C) (Fresh C) (start memory) ops) {i : Nat}
    {tunnel : B.Tunnel} {offer : Text} (hi : (createdBy ops)[i]? = some ⟨created tunnel, offer⟩)
    (options : ResolvedOptions) (labels : List Connection.Label)
    (hcalls : callsOf i ops =
      callsMade (Connection.start (E := engine B) options (created tunnel)) labels) :
    let d := Connection.start (E := engine B) options (created tunnel)
    ∃ answers : List Answer,
      outputs (step C) (answersOf C i) (start memory) ops = answers.map .ok ∧
      answers.flatMap Answer.hands = d.handedOut labels ∧
      answers.filterMap Answer.result = (run Connection.step d labels).log.filterMap resultOf ∧
      (run (step C) (start memory) ops).alones[i]? =
        some ⟨(run Connection.step d labels).engine, offer⟩ := by
  intro d
  obtain ⟨hanswers, hend⟩ := apart_run (kept_start hb) hf hi
  have hreplays := replays_run d labels offer
  have hlog : (run Connection.step d labels).log = outputs Connection.step Connection.logs d labels :=
    Connection.log_run d labels
  rw [hcalls] at hanswers hend
  refine ⟨_, hanswers, hreplays.hands, ?_, hend.trans (congrArg some hreplays.engine)⟩
  rw [hlog]
  exact hreplays.results

/-- A connection starts, and a datagram comes in. -/
def oneDatagram : List Connection.Label :=
  Script.steps 5 ++ [.datagram (.finite 1) [0]] ++ Script.steps 3

/-- Its calls, among those of another engine. -/
def shared : List (Op (direct Direct.Script.layers fun _ _ => none)) :=
  [.create Direct.Script.dialer [] (givenAt 0), .create Direct.Script.listener [] (givenAt 1),
    .call 0 .nextDeadline (givenAt 2), .call 1 (.input (.finite 1) [0]) (givenAt 3),
    .call 0 (.drainEvents (.finite 64)) (givenAt 4), .call 0 (.input (.finite 1) [0]) (givenAt 5),
    .call 1 .pollEvent (givenAt 6), .call 0 .nextDeadline (givenAt 7),
    .call 0 (.drainEvents (.finite 64)) (givenAt 8)]

theorem connection_in_instance_two : ∃ answers : List Answer,
    outputs (step scripted) (answersOf scripted 0) (start ⟨fun _ => 0, 65536⟩) shared =
        answers.map .ok ∧
      answers.flatMap Answer.hands = [.datagram [1], .datagram [22]] := by
  have hf : Meets (step scripted) (Fresh scripted) (start ⟨fun _ => 0, 65536⟩) shared := by
    decide +kernel
  have hcalls : callsOf 0 shared = callsMade
      (Connection.start (E := engine (direct Direct.Script.layers fun _ _ => none)) Script.batched
        (created Direct.Script.dialer)) oneDatagram := by
    decide +kernel
  obtain ⟨answers, hanswers, hhands, _⟩ :=
    connection_in_instance (by decide) hf (i := 0) rfl Script.batched oneDatagram hcalls
  refine ⟨answers, hanswers, hhands.trans ?_⟩
  decide +kernel

end Instance

end RtcTunnel.Wasm
