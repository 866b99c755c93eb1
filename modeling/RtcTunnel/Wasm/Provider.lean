import RtcTunnel.Wasm.Connections
import RtcTunnel.Wasm.Module

/-!
# The connections of a provider

A relay provider loads its module once and opens all its connections over it. The turns of the
connections come in any order, also inside the callbacks of one another.
-/

namespace RtcTunnel.Wasm

open RtcTunnel.Core
open RtcTunnel.Abi
open RtcTunnel.Abi.Instance (JsError)
open RtcTunnel.Base (Memory bind_ok)
open RtcTunnel.Base.Run
open RtcTunnel.Direct (BuildHost Layers)
open RtcTunnel.Driver
open RtcTunnel.Stack (direct directContract engine)

set_option autoImplicit false

variable {L : Layers} {cipherSuite : L.dtls.Endpoint → SocketAddr → Option Text}

/-- A provider: its module, and its connections over the engines of that. -/
structure Provider (L : Layers) (cipherSuite : L.dtls.Endpoint → SocketAddr → Option Text) where
  module : WasmTunnelModule L cipherSuite
  connections : List (Connection (engine (direct L cipherSuite)))

/-- `createRelayConnection`, or a step of the `i`-th connection, with what the allocator answers. -/
inductive Turn where
  | create (options : ResolvedOptions) (call : OpenCall) (params : RelayConnectionParams)
      (h : BuildHost) (answers : Nat → Answers) (given : Given)
  | step (i : Nat) (l : Connection.Label) (given : List Given)

/-- What `createRelayConnection` does before it asks for an engine. -/
def openConfig (js : Js) (call : OpenCall) (params : RelayConnectionParams) :
    Except HostError TunnelEngineConfig := do
  validateRelayParams js params
  engineConfig js call params

/-- The calls that a step of a connection makes. -/
def turnCalls (d : Connection (engine (direct L cipherSuite))) (l : Connection.Label) : List Call :=
  (d.logs l).filterMap (callOf l.now d.options.eventBatchSize)

/-- The same calls with what the allocator answers to each. -/
def actsOf (i : Nat) (calls : List Call) (given : List Given) : List Act :=
  List.zipWith (fun c given => .call i c given) calls given

namespace Provider

def start (cipherSuite : L.dtls.Endpoint → SocketAddr → Option Text) (memory : Memory) :
    Provider L cipherSuite := ⟨.start cipherSuite memory, []⟩

/-- An engine that is created gets a connection. -/
def create (js : Js) (p : Provider L cipherSuite) (options : ResolvedOptions) (call : OpenCall)
    (params : RelayConnectionParams) (h : BuildHost) (answers : Nat → Answers) (given : Given) :
    Except HostError Unit × Provider L cipherSuite :=
  match openConfig js call params with
  | .error error => (.error error, p)
  | .ok config =>
    let r := p.module.createTunnel js h answers given config
    let made := r.2.tunnels.alones.drop p.module.tunnels.alones.length
    (r.1, ⟨r.2, p.connections ++ made.map fun a => .start options a.engine⟩)

def step (js : Js) (p : Provider L cipherSuite) : Turn → Provider L cipherSuite
  | .create options call params h answers given =>
    (p.create js options call params h answers given).2
  | .step i l given =>
    match p.connections[i]? with
    | none => p
    | some d =>
      { module := run (WasmTunnelModule.step js) p.module (actsOf i (turnCalls d l) given)
        connections := p.connections.set i (d.step l) }

/-- What `createRelayConnection` comes to, up to the engine. -/
def creates (js : Js) (p : Provider L cipherSuite) : Turn → List (Except HostError Unit)
  | .create options call params h answers given =>
    [(p.create js options call params h answers given).1]
  | .step _ _ _ => []

/-- What the module answers to the `k`-th connection. -/
def answersOf (js : Js) (k : Nat) (p : Provider L cipherSuite) :
    Turn → List (Except JsError Answer)
  | .create _ _ _ _ _ _ => []
  | .step i l given =>
    if i = k then
      match p.connections[i]? with
      | none => []
      | some d =>
        outputs (WasmTunnelModule.step js) (WasmTunnelModule.answersOf i) p.module
          (actsOf i (turnCalls d l) given)
    else []

/-- **What a turn relies on** of the allocator. -/
def Fresh (js : Js) (p : Provider L cipherSuite) : Turn → Prop
  | .create _ call params h answers given =>
    (openConfig js call params).toOption.elim True fun config =>
      p.module.Fresh js (.createTunnel h answers given config)
  | .step i l given =>
    p.connections[i]?.elim False fun d =>
      (turnCalls d l).length = given.length ∧
        Meets (WasmTunnelModule.step js) (WasmTunnelModule.Fresh js) p.module
          (actsOf i (turnCalls d l) given)

instance decidableFresh (js : Js) (p : Provider L cipherSuite) : ∀ t, Decidable (p.Fresh js t)
  | .create _ call params h answers given =>
    match hc : (openConfig js call params).toOption with
    | none => .isTrue (by rw [Fresh, hc]; trivial)
    | some config =>
      decidable_of_iff (p.module.Fresh js (.createTunnel h answers given config))
        (by rw [Fresh, hc]; rfl)
  | .step i l given =>
    match hd : p.connections[i]? with
    | none => .isFalse (by rw [Fresh, hd]; exact id)
    | some d =>
      decidable_of_iff ((turnCalls d l).length = given.length ∧
        Meets (WasmTunnelModule.step js) (WasmTunnelModule.Fresh js) p.module
          (actsOf i (turnCalls d l) given)) (by rw [Fresh, hd]; rfl)

/-- The connection of `createRelayConnection` over an engine of its own. -/
def madeBy (js : Js) (cipherSuite : L.dtls.Endpoint → SocketAddr → Option Text) :
    Turn → List (Connection (engine (direct L cipherSuite)))
  | .create options call params h answers _ =>
    ((openTunnel js L h answers call params).toOption.map fun handle =>
      .start options (Stack.created handle.tunnel)).toList
  | .step _ _ _ => []

def outcome (js : Js) (L : Layers) : Turn → List (Except HostError Unit)
  | .create _ call params h answers _ => [(openTunnel js L h answers call params).map fun _ => ()]
  | .step _ _ _ => []

/-- The steps of the `k`-th connection. -/
def labelsOf (k : Nat) : Turn → List Connection.Label
  | .create _ _ _ _ _ _ => []
  | .step i l _ => if i = k then [l] else []

/-- The engines of the module are those that the connections have. -/
structure Shared (p : Provider L cipherSuite) : Prop where
  kept : p.module.tunnels.Kept (directContract L cipherSuite)
  engines : p.module.tunnels.alones.map Alone.engine = p.connections.map Connection.engine

variable {js : Js} {p : Provider L cipherSuite}

theorem openTunnel_eq (js : Js) (h : BuildHost) (answers : Nat → Answers) (call : OpenCall)
    (params : RelayConnectionParams) :
    openTunnel js L h answers call params =
      (openConfig js call params).bind (Abi.createTunnel js L h answers) := by
  unfold openTunnel openConfig
  cases validateRelayParams js params with
  | error e => rfl
  | ok u => rfl

/-- A connection that is created is one over an engine of its own. -/
theorem create_spec (hs : p.Shared) {options : ResolvedOptions} {call : OpenCall}
    {params : RelayConnectionParams} {h : BuildHost} {answers : Nat → Answers} {given : Given}
    (hf : p.Fresh js (.create options call params h answers given)) :
    p.creates js (.create options call params h answers given) =
        outcome js L (.create options call params h answers given) ∧
      (p.step js (.create options call params h answers given)).connections =
        p.connections ++ madeBy js cipherSuite (.create options call params h answers given) ∧
      (p.step js (.create options call params h answers given)).Shared := by
  rw [creates, step, outcome, madeBy, openTunnel_eq]
  rw [Fresh] at hf
  unfold create
  cases hconfig : openConfig js call params with
  | error e => exact ⟨rfl, (List.append_nil _).symm, hs⟩
  | ok config =>
    rw [hconfig] at hf
    obtain ⟨hcreates, halones, hkept⟩ := WasmTunnelModule.creates_spec hs.kept hf
    have hmade : (p.module.createTunnel js h answers given config).2.tunnels.alones.drop
        p.module.tunnels.alones.length =
        WasmTunnelModule.madeBy js cipherSuite (.createTunnel h answers given config) := by
      rw [show (p.module.createTunnel js h answers given config).2.tunnels.alones = _ from halones,
        List.drop_left]
    have hconnections : (WasmTunnelModule.madeBy js cipherSuite
        (.createTunnel h answers given config)).map (fun a => Connection.start options a.engine) =
        madeBy js cipherSuite (.create options call params h answers given) := by
      rw [WasmTunnelModule.madeBy, madeBy, openTunnel_eq, hconfig, Except.bind]
      cases Abi.createTunnel js L h answers config <;> rfl
    rw [madeBy, openTunnel_eq, hconfig, Except.bind] at hconnections
    rw [Except.bind]
    dsimp only
    rw [hmade]
    refine ⟨hcreates, congrArg (p.connections ++ ·) hconnections, hkept, ?_⟩
    dsimp only
    rw [show (p.module.createTunnel js h answers given config).2.tunnels.alones = _ from halones,
      List.map_append, List.map_append, hs.engines, List.map_map]
    rfl

theorem calls_actsOf {i : Nat} {calls : List Call} {given : List Given}
    (h : calls.length = given.length) (k : Nat) :
    (actsOf i calls given).flatMap (fun act => (WasmTunnelModule.deed js cipherSuite act).input k) =
      if i = k then calls else [] := by
  induction calls generalizing given with
  | nil =>
    rw [actsOf, List.zipWith_nil_left]
    split <;> rfl
  | cons c calls ih =>
    cases given with
    | nil => cases h
    | cons g given =>
      have hrest := ih (Nat.succ.inj h)
      rw [actsOf] at hrest
      rw [actsOf, List.zipWith_cons_cons, List.flatMap_cons, hrest, WasmTunnelModule.deed, Deed.input]
      split <;> rfl

theorem made_actsOf {i : Nat} {calls : List Call} {given : List Given} :
    (actsOf i calls given).flatMap (fun act => (WasmTunnelModule.deed js cipherSuite act).made) =
      [] := by
  induction calls generalizing given with
  | nil => rfl
  | cons c calls ih =>
    cases given with
    | nil => rfl
    | cons g given => exact ih

/-- The calls of one engine move that engine only. -/
theorem acts_spec {m : WasmTunnelModule L cipherSuite} {i : Nat} {calls : List Call}
    {given : List Given} (hk : m.tunnels.Kept (directContract L cipherSuite))
    (hlength : calls.length = given.length)
    (hm : Meets (WasmTunnelModule.step js) (WasmTunnelModule.Fresh js) m (actsOf i calls given))
    {a : Alone (direct L cipherSuite)} (ha : m.tunnels.alones[i]? = some a) :
    outputs (WasmTunnelModule.step js) (WasmTunnelModule.answersOf i) m (actsOf i calls given) =
        (outputs Alone.step Alone.answer a calls).map .ok ∧
      (run (WasmTunnelModule.step js) m (actsOf i calls given)).tunnels.alones =
        m.tunnels.alones.set i (run Alone.step a calls) ∧
      (run (WasmTunnelModule.step js) m (actsOf i calls given)).tunnels.Kept
        (directContract L cipherSuite) := by
  have hpart : ∀ k b, m.tunnels.alones[k]? = some b →
      outputs (WasmTunnelModule.step js) (WasmTunnelModule.answersOf k) m (actsOf i calls given) =
          (outputs Alone.step Alone.answer b (if i = k then calls else [])).map .ok ∧
        (run (WasmTunnelModule.step js) m (actsOf i calls given)).tunnels.alones[k]? =
          some (run Alone.step b (if i = k then calls else [])) := by
    intro k b hb
    have hcalls : (actsOf i calls given).flatMap
        (fun act => (WasmTunnelModule.deed js cipherSuite act).input k) =
        if i = k then calls else [] := calls_actsOf hlength k
    rw [← hcalls, ← Instance.outputs_map]
    refine WasmTunnelModule.ofParts.part_run hk hm ?_
    rw [made_actsOf, List.append_nil]
    exact hb
  obtain ⟨hout, hend⟩ := hpart i a ha
  rw [if_pos rfl] at hout hend
  refine ⟨hout, List.ext_getElem? fun k => ?_,
    invariant_of_meets WasmTunnelModule.ofParts.keep hk hm⟩
  by_cases hki : i = k
  · subst hki
    obtain ⟨hlt, _⟩ := List.getElem?_eq_some_iff.mp ha
    rw [hend, List.getElem?_set_self hlt]
  · rw [List.getElem?_set_ne hki]
    cases hb : m.tunnels.alones[k]? with
    | some b =>
      rw [(hpart k b hb).2, if_neg hki]
      rfl
    | none =>
      have hlength := WasmTunnelModule.ofParts.length_run hk hm
      rw [made_actsOf, List.length_nil, Nat.add_zero] at hlength
      rw [List.getElem?_eq_none_iff] at hb ⊢
      exact Nat.le_trans (Nat.le_of_eq hlength) hb

/-- What a driver calls has nothing to do with the offer. -/
theorem callOf_ne_offerSdp {now size : F64} {e : Effect} {c : Call}
    (h : callOf now size e = some c) : c ≠ .offerSdp := by
  rintro rfl
  cases e with
  | engine c => cases c <;> cases h
  | _ => cases h

theorem outputs_offer {offer : Text} {calls : List Call} (h : ∀ c ∈ calls, c ≠ .offerSdp)
    (s : Stack.WasmTunnelEngine (direct L cipherSuite)) :
    outputs Alone.step Alone.answer ⟨s, offer⟩ calls = outputs Alone.step Alone.answer ⟨s, []⟩ calls := by
  induction calls generalizing s with
  | nil => rfl
  | cons c calls ih =>
    obtain ⟨hc, hcalls⟩ := List.forall_mem_cons.mp h
    have hcall : Alone.call ⟨s, offer⟩ c = Alone.call ⟨s, []⟩ c := by
      cases c with
      | offerSdp => exact absurd rfl hc
      | _ => rfl
    rw [outputs, outputs, Alone.answer, Alone.answer, Alone.step, Alone.step, hcall]
    exact congrArg (_ :: ·) (ih hcalls _)

/-- What an engine of its own answers to a step of a connection. -/
def answers (d : Connection (engine (direct L cipherSuite))) (l : Connection.Label) : List Answer :=
  outputs Alone.step Alone.answer ⟨d.engine, []⟩ (turnCalls d l)

/-- A step of a connection over an engine of the module. -/
theorem step_spec (hs : p.Shared) {i : Nat} {l : Connection.Label} {given : List Given}
    (hf : p.Fresh js (.step i l given)) : ∃ d, p.connections[i]? = some d ∧
      (p.step js (.step i l given)).connections = p.connections.set i (d.step l) ∧
      p.answersOf js i (.step i l given) = (answers d l).map .ok ∧
      (p.step js (.step i l given)).Shared := by
  cases hd : p.connections[i]? with
  | none =>
    rw [Fresh, hd] at hf
    exact hf.elim
  | some d =>
    rw [Fresh, hd] at hf
    obtain ⟨hlength, hm⟩ := hf
    obtain ⟨a, ha, hengine⟩ : ∃ a, p.module.tunnels.alones[i]? = some a ∧ a.engine = d.engine := by
      have hconnection : (p.connections.map Connection.engine)[i]? = some d.engine := by
        rw [List.getElem?_map, hd]
        rfl
      have hmap : (p.module.tunnels.alones.map Alone.engine)[i]? = some d.engine :=
        (congrArg (·[i]?) hs.engines).trans hconnection
      rw [List.getElem?_map] at hmap
      exact Option.map_eq_some_iff.mp hmap
    obtain ⟨s, offer⟩ := a
    obtain rfl : s = d.engine := hengine
    obtain ⟨hout, halones, hkept⟩ := acts_spec hs.kept hlength hm ha
    have hreplays := replays_history (Connection.log_step d l).2 offer
    have hcalls : ∀ c ∈ turnCalls d l, c ≠ .offerSdp := fun c hc => by
      obtain ⟨_, _, he⟩ := List.mem_filterMap.mp hc
      exact callOf_ne_offerSdp he
    have hstep : p.step js (.step i l given) =
        ⟨run (WasmTunnelModule.step js) p.module (actsOf i (turnCalls d l) given),
          p.connections.set i (d.step l)⟩ := by
      rw [step, hd]
    rw [hstep]
    refine ⟨d, rfl, rfl, ?_, hkept, ?_⟩
    · rw [answersOf, if_pos rfl, hd]
      exact hout.trans (congrArg (List.map Except.ok) (outputs_offer hcalls d.engine))
    · dsimp only
      rw [halones, List.map_set, List.map_set, hs.engines]
      exact congrArg (List.set _ i) (congrArg Alone.engine hreplays.engine)

/-- What is done with a provider is for one of its connections. -/
def deed (js : Js) (cipherSuite : L.dtls.Endpoint → SocketAddr → Option Text) :
    Turn → Deed (Connection (engine (direct L cipherSuite))) Connection.Label
  | .create options call params h answers given =>
    .make (madeBy js cipherSuite (.create options call params h answers given))
  | .step i l _ => .own i l

theorem made_deed (t : Turn) : (deed js cipherSuite t).made = madeBy js cipherSuite t := by
  cases t <;> rfl

theorem input_deed (i : Nat) (t : Turn) : (deed js cipherSuite t).input i = labelsOf i t := by
  cases t <;> rfl

theorem ofParts : OfParts (step js) (Fresh js) (fun p : Provider L cipherSuite => p.Shared)
    (deed js cipherSuite) connections Connection.step (answersOf js)
    fun d l => (answers d l).map Except.ok where
  keep p t hs hf := by
    cases t with
    | create options call params h answers given => exact (create_spec hs hf).2.2
    | step i l given =>
      obtain ⟨_, _, _, _, hshared⟩ := step_spec hs hf
      exact hshared
  make p t made hs hf hd := by
    cases t with
    | create options call params h answers given =>
      cases hd
      exact ⟨(create_spec hs hf).2.1, fun _ => rfl⟩
    | step i l given => cases hd
  own p t j input hs hf hd := by
    cases t with
    | create options call params h answers given => cases hd
    | step i l given =>
      cases hd
      obtain ⟨d, hd, hconnections, hanswers, _⟩ := step_spec hs hf
      exact ⟨d, hd, hconnections, hanswers, fun k hkj => if_neg (Ne.symm hkj)⟩

/-- All answers of a run, as those of one engine. -/
theorem outputs_answers (d : Connection (engine (direct L cipherSuite)))
    (labels : List Connection.Label) :
    outputs Connection.step (fun d l => (answers d l).map Except.ok) d labels =
      (outputs Alone.step Alone.answer ⟨d.engine, []⟩ (callsMade d labels)).map
        (Except.ok (ε := JsError)) := by
  induction labels generalizing d with
  | nil => rfl
  | cons l labels ih =>
    have hreplays := replays_history (Connection.log_step d l).2 []
    have hcalls : callsMade d (l :: labels) = turnCalls d l ++ callsMade (d.step l) labels := rfl
    have hrun : run Alone.step ⟨d.engine, []⟩ (turnCalls d l) = ⟨(d.step l).engine, []⟩ := hreplays.engine
    rw [outputs, ih, hcalls, outputs_append, List.map_append, hrun]
    rfl

/-- What becomes of the attempts to connect. -/
theorem creates_run {turns : List Turn} (hs : p.Shared) (hf : Meets (step js) (Fresh js) p turns) :
    outputs (step js) (creates js) p turns = turns.flatMap (outcome js L) := by
  induction turns generalizing p with
  | nil => rfl
  | cons t turns ih =>
    obtain ⟨hfresh, hf⟩ := hf
    rw [outputs, List.flatMap_cons, ih (ofParts.keep p t hs hfresh) hf]
    refine congrArg (· ++ _) ?_
    cases t with
    | create options call params h answers given => exact (create_spec hs hfresh).1
    | step i l given => rfl

theorem shared_start {memory : Memory} (hb : memory.size < 2147483648) :
    (start cipherSuite memory).Shared := ⟨Instance.kept_start hb, rfl⟩

/-- **The connections of a provider do not show in one another.** Whatever is done with a provider,
with connections created between the turns of others and inside their callbacks, as long as the
allocator grants what is asked for apart from what is in use, the memory never shrinks and stays
below 2 GiB, and no step makes its engine a call behind `dispose` (as `stats` of a closed handle
does, and a polled pump that is closed in a callback): each `createRelayConnection` comes to what
it does over an engine of its own, each connection goes through the run of its own steps, and the
one module that all share answers it, without an exception, with the events it is handed and the
results it logs, and has its engine in the state it is in. -/
theorem provider_shares {memory : Memory} (hb : memory.size < 2147483648) {turns : List Turn}
    (hf : Meets (step js) (Fresh js) (start cipherSuite memory) turns) :
    outputs (step js) (creates js) (start cipherSuite memory) turns = turns.flatMap (outcome js L) ∧
      ∀ i d, (turns.flatMap (madeBy js cipherSuite))[i]? = some d →
        let p := run (step js) (start cipherSuite memory) turns
        let labels := turns.flatMap (labelsOf i)
        let r := run Connection.step d labels
        p.connections[i]? = some r ∧
          (p.module.tunnels.alones[i]?).map Alone.engine = some r.engine ∧
          ∃ told : List Answer,
            outputs (step js) (answersOf js i) (start cipherSuite memory) turns = told.map .ok ∧
              told.flatMap Answer.hands = d.handedOut labels ∧
              told.filterMap Answer.result =
                (outputs Connection.step Connection.logs d labels).filterMap resultOf := by
  have hs : (start cipherSuite memory).Shared := shared_start hb
  refine ⟨creates_run hs hf, fun i d hd => ?_⟩
  have hlabels : turns.flatMap (labelsOf i) =
      turns.flatMap fun t => (deed js cipherSuite t).input i :=
    congrArg turns.flatMap (funext fun t => (input_deed i t).symm)
  have hmade : turns.flatMap (madeBy js cipherSuite) =
      turns.flatMap fun t => (deed js cipherSuite t).made :=
    congrArg turns.flatMap (funext fun t => (made_deed t).symm)
  rw [hmade] at hd
  obtain ⟨hout, hend⟩ := ofParts.part_run hs hf hd
  rw [← hlabels] at hout hend
  have hshared := invariant_of_meets ofParts.keep hs hf
  have hreplays := replays_run d (turns.flatMap (labelsOf i)) []
  refine ⟨hend, ?_, _, hout.trans (outputs_answers d _), hreplays.hands, hreplays.results⟩
  have hengine : ((run (step js) (start cipherSuite memory) turns).connections.map
      Connection.engine)[i]? = some (run Connection.step d (turns.flatMap (labelsOf i))).engine := by
    rw [List.getElem?_map, hend]
    rfl
  rw [← List.getElem?_map]
  exact (congrArg (·[i]?) hshared.engines).trans hengine

/-- Two connections of one module take turns. -/
def takingTurns : List Turn :=
  [.create Driver.Script.batched Relay.call (Relay.params 5000) Direct.Script.host
      (WasmTunnelModule.answersFrom 20480) (Instance.givenAt 0),
    .step 0 (.advance (.finite 0)) [Instance.givenAt 2],
    .create Driver.Script.batched Relay.call (Relay.params 5000) Direct.Script.host
      (WasmTunnelModule.answersFrom 24576) (Instance.givenAt 1),
    .step 1 (.advance (.finite 0)) [Instance.givenAt 3],
    .step 0 (.advance (.finite 0)) [Instance.givenAt 4]]

theorem provider_shares_two :
    outputs (step Relay.js) (creates Relay.js)
        (start (L := Direct.Script.layers) (fun _ _ => none) ⟨fun _ => 0, 65536⟩) takingTurns =
        [.ok (), .ok ()] ∧
      ∃ told : List Answer, outputs (step Relay.js) (answersOf Relay.js 1)
        (start (L := Direct.Script.layers) (fun _ _ => none) ⟨fun _ => 0, 65536⟩) takingTurns =
        told.map .ok := by
  have hf : Meets (step Relay.js) (Fresh Relay.js)
      (start (L := Direct.Script.layers) (fun _ _ => none) ⟨fun _ => 0, 65536⟩) takingTurns := by
    decide +kernel
  obtain ⟨hcreates, hconnections⟩ := provider_shares (by decide) hf
  have hmade : ((takingTurns.flatMap
      (madeBy (L := Direct.Script.layers) Relay.js fun _ _ => none))[1]?).isSome = true := by
    decide +kernel
  obtain ⟨d, hd⟩ := Option.isSome_iff_exists.mp hmade
  obtain ⟨_, _, told, htold, _⟩ := hconnections 1 d hd
  refine ⟨?_, told, htold⟩
  rw [hcreates]
  decide +kernel

end Provider

end RtcTunnel.Wasm
