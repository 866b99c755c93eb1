import RtcTunnel.Wasm.Creation

/-!
# A module that creates its tunnels

`WasmTunnelModule` with all that the host does with it: tunnels are created through the memory,
between calls of those that are there.
-/

namespace RtcTunnel.Wasm

open RtcTunnel.Core
open RtcTunnel.Abi
open RtcTunnel.Abi.Instance (JsError)
open RtcTunnel.Base (Grants Memory)
open RtcTunnel.Base.Heap
open RtcTunnel.Base.Run
open RtcTunnel.Direct (BuildHost Layers)
open RtcTunnel.Stack (direct directContract)

set_option autoImplicit false

variable {L : Layers} {cipherSuite : L.dtls.Endpoint → SocketAddr → Option Text}

/-- `WasmTunnelModule`, with `LAST_ERROR` and what its creations have asked of the allocator. -/
structure WasmTunnelModule (L : Layers) (cipherSuite : L.dtls.Endpoint → SocketAddr → Option Text) where
  tunnels : Instance (direct L cipherSuite)
  lastError : Bytes
  actions : List Action

/-- What the host does with a module. -/
inductive Act where
  | createTunnel (h : BuildHost) (answers : Nat → Answers) (given : Given)
      (config : TunnelEngineConfig)
  | call (i : Nat) (c : Call) (given : Given)

namespace WasmTunnelModule

def start (cipherSuite : L.dtls.Endpoint → SocketAddr → Option Text) (memory : Memory) :
    WasmTunnelModule L cipherSuite := ⟨.start memory, [], []⟩

/-- The engine of a new tunnel, with the places of its events. -/
def engineOf (handle : TunnelHandle L) (given : Given) : Handle (direct L cipherSuite) where
  engine := Stack.created handle.tunnel
  offer := handle.tunnel.offerSdp.getD []
  places := given.places handle.tunnel.events.length
  eventKind := eventNone
  eventPtr := 1
  eventLen := 0
  eventReason := 0
  eventsPtr := 4

def createTunnel (js : Js) (m : WasmTunnelModule L cipherSuite) (h : BuildHost)
    (answers : Nat → Answers) (given : Given) (config : TunnelEngineConfig) :
    Except HostError Unit × WasmTunnelModule L cipherSuite :=
  let r := Wasm.createTunnel (L := L) answers js h given config
    ⟨m.tunnels.memory, 0, m.actions, m.lastError⟩
  match r.1 with
  | .error error =>
    (.error error, ⟨{ m.tunnels with memory := r.2.memory }, r.2.lastError, r.2.actions⟩)
  | .ok handle =>
    (.ok (),
      ⟨{ m.tunnels with
          memory := r.2.memory
          handles := m.tunnels.handles ++ [engineOf handle given] }, r.2.lastError, r.2.actions⟩)

def step (js : Js) (m : WasmTunnelModule L cipherSuite) : Act → WasmTunnelModule L cipherSuite
  | .createTunnel h answers given config => (m.createTunnel js h answers given config).2
  | .call i c given => { m with tunnels := (m.tunnels.call (directContract L cipherSuite) i c given).2 }

/-- What a creation returns or throws. -/
def creates (js : Js) (m : WasmTunnelModule L cipherSuite) : Act → List (Except HostError Unit)
  | .createTunnel h answers given config => [(m.createTunnel js h answers given config).1]
  | .call _ _ _ => []

/-- What the `i`-th engine answers. -/
def answersOf (i : Nat) (m : WasmTunnelModule L cipherSuite) : Act → List (Except JsError Answer)
  | .createTunnel _ _ _ _ => []
  | .call j c given =>
    if j = i then [(m.tunnels.call (directContract L cipherSuite) j c given).1] else []

/-- **What a step relies on**: the engine is there, and the allocator grants what the step asks
for. -/
def Fresh (js : Js) (m : WasmTunnelModule L cipherSuite) : Act → Prop
  | .createTunnel h answers given config =>
    Makes answers js L h given config
      (m.tunnels.regions (directContract L cipherSuite) ++ [m.tunnels.scratchRegion])
      m.tunnels.memory.size
  | .call i c given => m.tunnels.Fresh (directContract L cipherSuite) (.call i c given)

instance decidableFresh (js : Js) (m : WasmTunnelModule L cipherSuite) :
    ∀ act, Decidable (m.Fresh js act)
  | .createTunnel h answers given config =>
    inferInstanceAs (Decidable (Makes answers js L h given config _ _))
  | .call i c given => Instance.decidableFresh _ m.tunnels (.call i c given)

/-- The engine that a creation makes where each text is handed over as such. -/
def madeBy (js : Js) (cipherSuite : L.dtls.Endpoint → SocketAddr → Option Text) :
    Act → List (Alone (direct L cipherSuite))
  | .createTunnel h answers _ config =>
    match Abi.createTunnel js L h answers config with
    | .ok handle => [⟨Stack.created handle.tunnel, handle.tunnel.offerSdp.getD []⟩]
    | .error _ => []
  | .call _ _ _ => []

/-- What a creation returns or throws there. -/
def outcome (js : Js) (L : Layers) : Act → List (Except HostError Unit)
  | .createTunnel h answers _ config => [(Abi.createTunnel js L h answers config).map fun _ => ()]
  | .call _ _ _ => []

def callOf (i : Nat) : Act → List Call
  | .createTunnel _ _ _ _ => []
  | .call j c _ => if j = i then [c] else []

variable {js : Js} {m : WasmTunnelModule L cipherSuite}

/-- **A creation through the memory adds the engine that it should**, or throws what it should. -/
theorem creates_spec (hk : m.tunnels.Kept (directContract L cipherSuite)) {h : BuildHost}
    {answers : Nat → Answers} {given : Given} {config : TunnelEngineConfig}
    (hf : m.Fresh js (.createTunnel h answers given config)) :
    m.creates js (.createTunnel h answers given config) =
        outcome js L (.createTunnel h answers given config) ∧
      (m.step js (.createTunnel h answers given config)).tunnels.alones =
        m.tunnels.alones ++ madeBy js cipherSuite (.createTunnel h answers given config) ∧
      (m.step js (.createTunnel h answers given config)).tunnels.Kept (directContract L cipherSuite) := by
  obtain ⟨hfst, memory, hkeeps, hgrown, hb, hend⟩ :=
    createTunnel_granted (e := ⟨m.tunnels.memory, 0, m.actions, m.lastError⟩) rfl hf
  have hkeeps : Base.Memory.Keeps (m.tunnels.regions (directContract L cipherSuite))
      m.tunnels.memory memory := fun _ _ hr => hkeeps _ _ (List.mem_append_left _ hr)
  have hmoved := hk.moved hkeeps hgrown hb
  rw [creates, step, outcome, madeBy]
  unfold createTunnel
  dsimp only
  rw [hfst]
  cases hc : Abi.createTunnel js L h answers config with
  | error error =>
    rw [hc] at hend
    dsimp only at hend ⊢
    rw [hend]
    exact ⟨rfl, (List.append_nil _).symm, hmoved⟩
  | ok handle =>
    rw [hc] at hend
    obtain ⟨hsize, hgrants, hplaced⟩ := hend
    dsimp only
    rw [hplaced]
    have hfresh : ({ m.tunnels with memory := memory } : Instance _).Fresh
        (directContract L cipherSuite) (.create handle.tunnel (handle.tunnel.offerSdp.getD []) given) :=
      ⟨Nat.le_of_eq hsize, hsize ▸ hb, hgrants⟩
    refine ⟨rfl, List.map_append, ?_⟩
    have hkept := Instance.kept_create hmoved hfresh
    have hmemory : { memory with size := given.answers.byteLength } = memory := by rw [← hsize]
    unfold Instance.step Instance.create at hkept
    dsimp only at hkept
    rw [hmemory] at hkept
    exact hkept

/-- What is done with a module is for one of its engines. -/
def deed (js : Js) (cipherSuite : L.dtls.Endpoint → SocketAddr → Option Text) :
    Act → Deed (Alone (direct L cipherSuite)) Call
  | .createTunnel h answers given config =>
    .make (madeBy js cipherSuite (.createTunnel h answers given config))
  | .call i c _ => .own i c

theorem made_deed (act : Act) : (deed js cipherSuite act).made = madeBy js cipherSuite act := by
  cases act <;> rfl

theorem input_deed (i : Nat) (act : Act) : (deed js cipherSuite act).input i = callOf i act := by
  cases act <;> rfl

theorem ofParts : OfParts (step js) (Fresh js)
    (fun m : WasmTunnelModule L cipherSuite => m.tunnels.Kept (directContract L cipherSuite))
    (deed js cipherSuite) (fun m => m.tunnels.alones) Alone.step answersOf
    fun a c => (a.answer c).map Except.ok where
  keep m act hk hf := by
    cases act with
    | createTunnel h answers given config => exact (creates_spec hk hf).2.2
    | call i c given =>
      obtain ⟨_, _, _, _, hkept⟩ := Instance.own_call hk hf
      exact hkept
  make m act made hk hf hd := by
    cases act with
    | createTunnel h answers given config =>
      cases hd
      exact ⟨(creates_spec hk hf).2.1, fun _ => rfl⟩
    | call i c given => cases hd
  own m act j input hk hf hd := by
    cases act with
    | createTunnel h answers given config => cases hd
    | call i c given =>
      cases hd
      obtain ⟨a, ha, halones, hanswers, _⟩ := Instance.own_call hk hf
      exact ⟨a, ha, halones, hanswers, fun k hkj => if_neg (Ne.symm hkj)⟩

/-- What the creations return and throw. -/
theorem creates_run {acts : List Act} (hk : m.tunnels.Kept (directContract L cipherSuite))
    (hf : Meets (step js) (Fresh js) m acts) :
    outputs (step js) (creates js) m acts = acts.flatMap (outcome js L) := by
  induction acts generalizing m with
  | nil => rfl
  | cons act acts ih =>
    obtain ⟨hfresh, hf⟩ := hf
    rw [outputs, List.flatMap_cons, ih (ofParts.keep m act hk hfresh) hf]
    refine congrArg (· ++ _) ?_
    cases act with
    | createTunnel h answers given config => exact (creates_spec hk hfresh).1
    | call i c given => rfl

/-- **A module creates and runs its tunnels as if each had a memory for itself.** Whatever is
created and called in one module, in any order, as long as no engine is used after its `dispose`,
the allocator grants blocks that lie apart from those in use, and the memory never shrinks and
stays below 2 GiB: each creation returns or throws what it does where its texts are handed over as
such, and each engine that comes of one answers every call, without an exception, as it does on its
own, and ends in the same state. -/
theorem module_hosts {memory : Memory} (hb : memory.size < 2147483648) {acts : List Act}
    (hf : Meets (step js) (Fresh js) (start cipherSuite memory) acts) :
    outputs (step js) (creates js) (start cipherSuite memory) acts =
        acts.flatMap (outcome js L) ∧
      ∀ i a, (acts.flatMap (madeBy js cipherSuite))[i]? = some a →
        outputs (step js) (answersOf i) (start cipherSuite memory) acts =
            (outputs Alone.step Alone.answer a (acts.flatMap (callOf i))).map .ok ∧
          (run (step js) (start cipherSuite memory) acts).tunnels.alones[i]? =
            some (run Alone.step a (acts.flatMap (callOf i))) := by
  have hk : (start cipherSuite memory).tunnels.Kept (directContract L cipherSuite) :=
    Instance.kept_start hb
  refine ⟨creates_run hk hf, fun i a ha => ?_⟩
  have hcalls : acts.flatMap (callOf i) = acts.flatMap fun act => (deed js cipherSuite act).input i :=
    congrArg acts.flatMap (funext fun act => (input_deed i act).symm)
  have hmade : acts.flatMap (madeBy js cipherSuite) =
      acts.flatMap fun act => (deed js cipherSuite act).made :=
    congrArg acts.flatMap (funext fun act => (made_deed act).symm)
  rw [hmade] at ha
  rw [hcalls, ← Instance.outputs_map]
  exact ofParts.part_run hk hf ha

/-- A relay at `192.0.2.2:4001`, for a socket at this address. -/
def configured (localAddress : String) : TunnelEngineConfig where
  remoteAddress := Relay.ip.render
  remotePort := .ofInt 4001
  localAddress := localAddress.toList
  localPort := .ofInt 4000
  iceUfrag := "peer".toList
  icePwd := "secret".toList
  fingerprint := (Relay.params 1).fingerprint
  fingerprintAlgorithm := "sha-256".toList
  sctpPort := .ofInt 5000
  streamId := .ofInt 0
  ordered := false
  maxRetransmits := .ofInt 0
  handshakeTimeoutMs := .ofInt 30000
  disableFingerprintVerification := false
  nowMs := .ofInt 0

/-- An allocator that goes up from an address. -/
def answersFrom (addr i : Nat) : Answers := .onePage fun _ => UInt32.ofNat (addr + 256 * i)

/-- One tunnel is created, another is rejected, and the first is used. -/
def oneOfTwo : List Act :=
  [.createTunnel Direct.Script.host (answersFrom 20480) (Instance.givenAt 0) (configured "192.0.2.1"),
    .createTunnel Direct.Script.host (answersFrom 24576) (Instance.givenAt 1) (configured "relay"),
    .call 0 (.input (.finite 1) [0]) (Instance.givenAt 2),
    .call 0 .isOpen (Instance.givenAt 3)]

theorem module_hosts_two :
    outputs (step Relay.js) (creates Relay.js)
        (start (L := Direct.Script.layers) (fun _ _ => none) ⟨fun _ => 0, 65536⟩) oneOfTwo =
      [.ok (), .error (.error (("rtc_tunnel_create rejected the configuration: " ++
        "local must be an ip:port string").toList))] := by
  have hf : Meets (step Relay.js) (Fresh Relay.js)
      (start (L := Direct.Script.layers) (fun _ _ => none) ⟨fun _ => 0, 65536⟩) oneOfTwo := by
    decide +kernel
  rw [(module_hosts (by decide) hf).1]
  decide +kernel

/-- **No creation keeps a block.** Whatever the allocator answers, in every run of a module, with
creations that succeed, are rejected or throw on the way, each block that was taken for one is
freed once while it is live, and none is left. -/
theorem creations_give_back (js : Js) (memory : Memory) (acts : List Act) :
    Balanced (((run (step js) (start cipherSuite memory) acts).actions).map
      Action.use) := by
  refine invariant (I := fun m : WasmTunnelModule L cipherSuite => Balanced (m.actions.map Action.use))
    (fun m act hbalanced => ?_) acts balanced_nil
  cases act with
  | createTunnel h answers given config =>
    have hgives : GivesBack (Wasm.createTunnel (L := L) answers js h given config) :=
      givesBack_createTunnel
    obtain ⟨actions, hactions, hbalanced'⟩ := hgives ⟨m.tunnels.memory, 0, m.actions, m.lastError⟩
    have hstep : (m.step js (.createTunnel h answers given config)).actions = m.actions ++ actions := by
      rw [step, ← hactions]
      unfold createTunnel
      dsimp only
      split <;> rfl
    rw [hstep, List.map_append]
    exact hbalanced.append hbalanced'
  | call i c given => exact hbalanced

end WasmTunnelModule

end RtcTunnel.Wasm
