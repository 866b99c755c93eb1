import RtcTunnel.Wasm.Tunnels

/-!
# Creating a tunnel through the memory

`createTunnel` hands six texts to the module. Each lies in a block of its own, which is given
back whatever happens behind it, and the message of a failure comes through a seventh.
-/

namespace RtcTunnel.Wasm

open RtcTunnel.Core
open RtcTunnel.Abi
open RtcTunnel.Abi.Instance (JsError jsNumber)
open RtcTunnel.Base (Grants Memory Region)
open RtcTunnel.Base.Heap
open RtcTunnel.Base.Memory (Holds Keeps)
open RtcTunnel.Base.Run
open RtcTunnel.Direct (BuildHost DirectTunnel Layers)
open RtcTunnel.Stack (directContract WasmTunnelEngine)

set_option autoImplicit false

/-- The exports of a module: its memory, how often its allocator was asked, all that it was
asked, and `LAST_ERROR`. -/
structure WasmExports where
  memory : Memory
  asked : Nat
  actions : List Action
  lastError : Bytes

/-- What a function of the host returns or throws, and what it leaves. -/
abbrev Hosted (α : Type) := WasmExports → Except HostError α × WasmExports

namespace WasmExports

/-- `rtc_tunnel_alloc`, for which the memory may grow. -/
def alloc (e : WasmExports) (answers : Nat → Answers) (len : UInt32) : UInt32 × WasmExports :=
  let ptr := rtcTunnelAlloc (answers e.asked).alloc len
  (ptr,
    { e with
      memory := { e.memory with size := (answers e.asked).byteLength }
      asked := e.asked + 1
      actions := e.actions ++ [.alloc len ptr] })

/-- `rtc_tunnel_free` -/
def free (e : WasmExports) (ptr len : UInt32) : WasmExports :=
  { e with actions := e.actions ++ [.free ptr len] }

end WasmExports

variable (answers : Nat → Answers)

/-- A block that is freed behind `fn`, whether that returns or throws. -/
def withBuffer {α : Type} (len : Nat) (fn : UInt32 → Hosted α) : Hosted α := fun e =>
  let r := e.alloc answers (abiWord len)
  let r' := fn r.1 r.2
  (r'.1, r'.2.free r.1 (abiWord len))

def withCString {α : Type} (value : Text) (fn : Buf → Hosted α) : Hosted α :=
  let data := encode value
  withBuffer answers data.length fun ptr e =>
    if 0 ≤ jsNumber ptr ∧ jsNumber ptr + data.length ≤ e.memory.size then
      fn ⟨ptr, abiWord data.length⟩ { e with memory := e.memory.write (jsNumber ptr).toNat data }
    else (.error .arrayBounds, e)

def readLastError (given : Given) : Hosted Text := fun e =>
  let len := e.lastError.length
  if len = 0 then (.ok "no diagnostic available".toList, e)
  else
    withBuffer answers len (fun ptr e =>
      let r := copyOut given e.memory ptr (abiWord len) e.lastError
      (r.1.mapError fun _ => .arrayBounds, { e with memory := r.2 })) e

/-- What `str_arg` finds behind a pointer that is not null. -/
def argAt (m : Memory) (buf : Buf) : Option Bytes :=
  if buf.ptr = 0 then none else some (sliceFrom m buf.ptr buf.len)

/-- The arguments as the module reads them. -/
def argsAt (m : Memory) (config : TunnelEngineConfig)
    (remote ufrag pwd fingerprint fingerprintAlgorithm «local» : Buf) : CreateArgs where
  remote := argAt m remote
  ufrag := argAt m ufrag
  pwd := argAt m pwd
  fingerprint := argAt m fingerprint
  fingerprintAlgorithm := argAt m fingerprintAlgorithm
  «local» := argAt m «local»
  sctpPort := toWord config.sctpPort
  streamId := toWord config.streamId
  ordered := if config.ordered then 1 else 0
  maxRetransmits := (toWord config.maxRetransmits).toInt32
  handshakeTimeoutMs := config.handshakeTimeoutMs
  disableFingerprintVerification := if config.disableFingerprintVerification then 1 else 0
  nowMs := config.nowMs

variable {L : Layers}

/-- `rtc_tunnel_create`, which returns null with a message. The events of a new tunnel are placed
in the memory. -/
def rtcTunnelCreate (h : BuildHost) (given : Given) (args : CreateArgs) :
    Hosted (Option (TunnelHandle L)) := fun e =>
  let memory := { e.memory with size := given.answers.byteLength }
  match Abi.rtcTunnelCreate L h args with
  | .ok handle =>
    (.ok (some handle),
      { e with
        memory := memory.place
          (placed (given.places handle.tunnel.events.length) handle.tunnel.events)
        lastError := [] })
  | .error message =>
    (.ok none, { e with memory := memory, lastError := encode message.toList })

def createHandle (js : Js) (h : BuildHost) (given : Given) (config : TunnelEngineConfig) :
    Hosted (Option (TunnelHandle L)) :=
  let remoteAddress := socketAddr js config.remoteAddress config.remotePort
  let localAddress := socketAddr js config.localAddress config.localPort
  withCString answers remoteAddress fun remote =>
  withCString answers config.iceUfrag fun ufrag =>
  withCString answers config.icePwd fun pwd =>
  withCString answers config.fingerprint fun fingerprint =>
  withCString answers config.fingerprintAlgorithm fun fingerprintAlgorithm =>
  withCString answers localAddress fun «local» e =>
    rtcTunnelCreate h given
      (argsAt e.memory config remote ufrag pwd fingerprint fingerprintAlgorithm «local») e

def createTunnel (js : Js) (h : BuildHost) (given : Given) (config : TunnelEngineConfig) :
    Hosted (TunnelHandle L) := fun e =>
  let r := createHandle answers js h given config e
  match r.1 with
  | .error error => (.error error, r.2)
  | .ok (some handle) => (.ok handle, r.2)
  | .ok none =>
    let r' := readLastError answers given r.2
    (do
      let diagnostic ← r'.1
      throw (.error ("rtc_tunnel_create rejected the configuration: ".toList ++ diagnostic)), r'.2)

/-- All that a function takes from the allocator it gives back. -/
def GivesBack {α : Type} (f : Hosted α) : Prop :=
  ∀ e, ∃ actions, (f e).2.actions = e.actions ++ actions ∧ Balanced (actions.map Action.use)

theorem givesBack_of_actions {α : Type} {f : Hosted α} (h : ∀ e, (f e).2.actions = e.actions) :
    GivesBack f := fun e => ⟨[], by rw [h, List.append_nil], balanced_nil⟩

variable {answers}

/-- A block is given back on every way out. -/
theorem givesBack_withBuffer {α : Type} {len : Nat} {fn : UInt32 → Hosted α}
    (h : ∀ ptr, GivesBack (fn ptr)) : GivesBack (withBuffer answers len fn) := by
  intro e
  obtain ⟨actions, hactions, hbalanced⟩ := h (e.alloc answers (abiWord len)).1
    (e.alloc answers (abiWord len)).2
  refine ⟨.alloc (abiWord len) (e.alloc answers (abiWord len)).1 ::
    (actions ++ [.free (e.alloc answers (abiWord len)).1 (abiWord len)]), ?_, ?_⟩
  · show (fn _ _).2.actions ++ _ = _
    rw [hactions, WasmExports.alloc, List.append_assoc, List.append_assoc]
    rfl
  · rw [List.map_cons, List.map_append, List.map_singleton]
    by_cases hp : (e.alloc answers (abiWord len)).1 = 0
    · rw [hp]
      exact (balanced_other.append hbalanced).append balanced_other
    · have hlen : abiWord len ≠ 0 := by
        intro hz
        refine hp ?_
        rw [WasmExports.alloc, hz]
        rfl
      rw [Action.use, if_neg hp, Action.use, if_pos ⟨hp, hlen⟩]
      exact hbalanced.bracket _

theorem givesBack_withCString {α : Type} {value : Text} {fn : Buf → Hosted α}
    (h : ∀ buf, GivesBack (fn buf)) : GivesBack (withCString answers value fn) := by
  refine givesBack_withBuffer fun ptr e => ?_
  split
  · exact h _ _
  · exact ⟨[], (List.append_nil _).symm, balanced_nil⟩

theorem givesBack_readLastError {given : Given} : GivesBack (readLastError answers given) := by
  intro e
  unfold readLastError
  dsimp only
  split
  · exact ⟨[], (List.append_nil _).symm, balanced_nil⟩
  · exact givesBack_withBuffer (fun ptr => givesBack_of_actions fun e => rfl) e

theorem givesBack_createHandle {js : Js} {h : BuildHost} {given : Given}
    {config : TunnelEngineConfig} :
    GivesBack (createHandle (L := L) answers js h given config) := by
  unfold createHandle
  iterate 6 refine givesBack_withCString fun _ => ?_
  refine givesBack_of_actions fun e => ?_
  unfold rtcTunnelCreate
  dsimp only
  split <;> rfl

/-- A creation keeps no block, with a tunnel, with a rejection or with an exception on the way. -/
theorem givesBack_createTunnel {js : Js} {h : BuildHost} {given : Given}
    {config : TunnelEngineConfig} :
    GivesBack (createTunnel (L := L) answers js h given config) := by
  intro e
  have hhandle : GivesBack (createHandle (L := L) answers js h given config) := givesBack_createHandle
  obtain ⟨actions, hactions, hbalanced⟩ := hhandle e
  unfold createTunnel
  dsimp only
  split
  · exact ⟨actions, hactions, hbalanced⟩
  · exact ⟨actions, hactions, hbalanced⟩
  · have hread : GivesBack (readLastError answers given) := givesBack_readLastError
    obtain ⟨actions', hactions', hbalanced'⟩ :=
      hread (createHandle (L := L) answers js h given config e).2
    refine ⟨actions ++ actions', ?_, ?_⟩
    · rw [hactions', hactions, List.append_assoc]
    · rw [List.map_append]
      exact hbalanced.append hbalanced'

/-- **What is assumed of the allocator** when it is asked for one block behind the other: it
grants each apart from those in use, in a memory below 2 GiB that only grows. -/
def Granting (answers : Nat → Answers) : List Region → Nat → Nat → List Bytes → Prop
  | _, _, _, [] => True
  | live, size, k, data :: datas =>
    (size ≤ (answers k).byteLength ∧ (answers k).byteLength < 2147483648 ∧
      Grants (answers k).byteLength live (blockOf (answers k) data)) ∧
      Granting answers (live ++ blockOf (answers k) data) (answers k).byteLength (k + 1) datas

instance decidableGranting (answers : Nat → Answers) : ∀ live size k datas,
    Decidable (Granting answers live size k datas)
  | _, _, _, [] => .isTrue trivial
  | live, _, k, data :: datas =>
    have := decidableGranting answers (live ++ blockOf (answers k) data) (answers k).byteLength
      (k + 1) datas
    inferInstanceAs (Decidable ((_ ∧ _ ∧ _) ∧ _))

section Blocks

variable {module : Answers} {data : Bytes} {live : List Region}

/-- Some bytes lie where they were handed in. -/
structure Lies (m : Memory) (module : Answers) (data : Bytes) : Prop where
  bounded : module.byteLength < 2147483648
  granted : ∃ live, Grants module.byteLength live (blockOf module data)
  held : data ≠ [] → m.Holds (bufOf module data).ptr.toNat data

theorem Lies.keep {m m' : Memory} (h : Lies m module data) (hk : Keeps live m m')
    (hl : ∀ r ∈ blockOf module data, r ∈ live) : Lies m' module data := by
  refine ⟨h.bounded, h.granted, fun hne => ?_⟩
  obtain ⟨_, hg⟩ := h.granted
  exact hk _ _ (hl _ (Instance.regionOf_bufOf h.bounded hg hne).2.2.1) (h.held hne)

/-- **The module reads what was handed in.** -/
theorem argAt_bufOf {m : Memory} {value : Text} (h : Lies m module (encode value)) :
    Abi.withCString module value = .ok (argAt m (bufOf module (encode value))) := by
  obtain ⟨hb, ⟨_, hg⟩, hheld⟩ := h
  unfold Abi.withCString
  dsimp only
  by_cases hne : encode value = []
  · rw [hne]
    have hnull : rtcTunnelAlloc module.alloc (abiWord ((([] : Bytes).length : Nat) : Int)) = 0 := rfl
    rw [hnull, if_pos ⟨Int.le_refl 0, Int.natCast_nonneg _⟩]
    rfl
  · obtain ⟨hptr, hinside, _, hlen⟩ := Instance.regionOf_bufOf hb hg hne
    have hread := (hheld hne).read
    have hpos := List.length_pos_iff.mpr hne
    have hnumber : jsNumber (bufOf module (encode value)).ptr =
        (bufOf module (encode value)).ptr.toNat := Abi.Instance.jsNumber_eq (by omega)
    have hnz : jsNumber (bufOf module (encode value)).ptr ≠ 0 := fun hz =>
      hptr (jsNumber_eq_zero.mp hz)
    have hzero : ¬ ((bufOf module (encode value)).ptr = 0 ∨ (bufOf module (encode value)).len = 0) := by
      rintro (hz | hz)
      · exact hptr hz
      · rw [hz] at hlen
        exact absurd hlen.symm (by show ¬ _ = 0; omega)
    have hbuf : rtcTunnelAlloc module.alloc (abiWord (encode value).length) =
        (bufOf module (encode value)).ptr := rfl
    have hword : abiWord (encode value).length = (bufOf module (encode value)).len := rfl
    rw [hbuf, hword, if_pos (by omega), if_neg hnz, argAt, if_neg hptr, sliceFrom, if_neg hzero,
      hlen, hread, List.take_length]

end Blocks

/-- These texts were handed in, one behind the other. -/
structure HandedIn (answers : Nat → Answers) (live : List Region) (e : WasmExports)
    (datas : List Bytes) (e' : WasmExports) : Prop where
  asked : e'.asked = datas.length
  grown : e.memory.size ≤ e'.memory.size
  keeps : Keeps live e.memory e'.memory
  lies : ∀ k data, datas[k]? = some data → Lies e'.memory (answers k) data

/-- The regions in use once these texts were handed in. -/
def inUse (answers : Nat → Answers) (live : List Region) (datas : List Bytes) : List Region :=
  live ++ (datas.mapIdx fun k data => blockOf (answers k) data).flatten

theorem inUse_concat (live : List Region) (datas : List Bytes) (data : Bytes) :
    inUse answers live (datas ++ [data]) =
      inUse answers live datas ++ blockOf (answers datas.length) data := by
  rw [inUse, List.mapIdx_concat, List.flatten_append, List.flatten_singleton, ← List.append_assoc]
  rfl

theorem mem_inUse {live : List Region} {datas : List Bytes} {k : Nat} {data : Bytes}
    (hd : datas[k]? = some data) : ∀ r ∈ blockOf (answers k) data, r ∈ inUse answers live datas := by
  intro r hr
  refine List.mem_append_right _ (List.mem_flatten.mpr ⟨_, List.mem_of_getElem? (i := k) ?_, hr⟩)
  rw [List.getElem?_mapIdx, hd]
  rfl

/-- Two ends of a function that differ in the calls of the allocator only. -/
def Alike {α : Type} (r r' : Except HostError α × WasmExports) : Prop :=
  r.1 = r'.1 ∧ ∃ actions, r.2 = { r'.2 with actions := actions }

theorem Alike.trans {α : Type} {r r' r'' : Except HostError α × WasmExports} (h : Alike r r')
    (h' : Alike r' r'') : Alike r r'' := by
  obtain ⟨hr, actions, ha⟩ := h
  obtain ⟨hr', _, ha'⟩ := h'
  exact ⟨hr.trans hr', actions, by rw [ha, ha']⟩

/-- **One more text is handed in** around a function, and freed behind it. -/
theorem withCString_granted {α : Type} {live : List Region} {e₀ e : WasmExports}
    {datas rest : List Bytes} (hin : HandedIn answers live e₀ datas e) {value : Text}
    (hg : Granting answers (inUse answers live datas) e.memory.size datas.length
      (encode value :: rest)) :
    ∃ e', HandedIn answers live e₀ (datas ++ [encode value]) e' ∧
      e'.memory.size = (answers datas.length).byteLength ∧
      Granting answers (inUse answers live (datas ++ [encode value])) e'.memory.size
        (datas ++ [encode value]).length rest ∧
      ∀ fn : Buf → Hosted α, Alike (withCString answers value fn e)
        (fn (bufOf (answers datas.length) (encode value)) e') := by
  obtain ⟨⟨hgrown, hb, hgrants⟩, hrest⟩ := hg
  have hasked := hin.asked
  let memory := ({ e.memory with size := (answers datas.length).byteLength }).write
    (jsNumber (bufOf (answers datas.length) (encode value)).ptr).toNat (encode value)
  have hroom : 0 ≤ jsNumber (bufOf (answers datas.length) (encode value)).ptr ∧
      jsNumber (bufOf (answers datas.length) (encode value)).ptr + (encode value).length ≤
        (answers datas.length).byteLength ∧
      (encode value ≠ [] → (jsNumber (bufOf (answers datas.length) (encode value)).ptr).toNat =
        (bufOf (answers datas.length) (encode value)).ptr.toNat) := by
    by_cases hne : encode value = []
    · rw [hne]
      exact ⟨Int.le_refl 0, Int.natCast_nonneg _, fun h => absurd rfl h⟩
    · obtain ⟨_, hinside, _, _⟩ := Instance.regionOf_bufOf hb hgrants hne
      have hpos := List.length_pos_iff.mpr hne
      rw [Abi.Instance.jsNumber_eq (by omega)]
      omega
  have hkeeps : Keeps (inUse answers live datas) e.memory memory := by
    refine (Base.Memory.keeps_grow _ hgrown).trans (Base.Memory.keeps_write fun r hr => ?_)
    by_cases hne : encode value = []
    · rw [hne]
      exact Base.Region.apart_iff.mpr (.inl rfl)
    · rw [hroom.2.2 hne]
      exact hgrants.apart _ (Instance.regionOf_bufOf hb hgrants hne).2.2.1 r hr
  have hheld : Lies memory (answers datas.length) (encode value) := by
    refine ⟨hb, ⟨_, hgrants⟩, fun hne => ?_⟩
    rw [← hroom.2.2 hne]
    refine Base.Memory.holds_write _ ?_
    rw [hroom.2.2 hne]
    exact (Instance.regionOf_bufOf hb hgrants hne).2.1
  let e' : WasmExports :=
    { e with
      memory := memory
      asked := datas.length + 1
      actions := e.actions ++ [.alloc (abiWord (encode value).length)
        (bufOf (answers datas.length) (encode value)).ptr] }
  have hlength : (datas ++ [encode value]).length = datas.length + 1 := List.length_append
  have hrun : ∀ fn : Buf → Hosted α, withCString answers value fn e =
      ((fn (bufOf (answers datas.length) (encode value)) e').1,
        (fn (bufOf (answers datas.length) (encode value)) e').2.free
          (bufOf (answers datas.length) (encode value)).ptr (abiWord (encode value).length)) := by
    intro fn
    unfold withCString withBuffer WasmExports.alloc
    dsimp only
    rw [hasked, if_pos ⟨hroom.1, hroom.2.1⟩]
    rfl
  refine ⟨e', ⟨hlength.symm, Nat.le_trans hin.grown hgrown, fun addr data hr => ?_,
    fun k data hk => ?_⟩, rfl, ?_, fun fn => ?_⟩
  · exact fun h => hkeeps _ _ (List.mem_append_left _ hr) (hin.keeps _ _ hr h)
  · rcases Nat.lt_trichotomy k datas.length with hlt | heq | hgt
    · rw [List.getElem?_append_left hlt] at hk
      exact (hin.lies k data hk).keep hkeeps (mem_inUse hk)
    · rw [heq, List.getElem?_concat_length] at hk
      cases hk
      rw [heq]
      exact hheld
    · rw [List.getElem?_eq_none (by omega)] at hk
      cases hk
  · rw [inUse_concat, hlength]
    exact hrest
  · rw [hrun]
    exact ⟨rfl, _, rfl⟩

/-- The texts of a configuration. -/
def textsOf (js : Js) (config : TunnelEngineConfig) : List Bytes :=
  [encode (socketAddr js config.remoteAddress config.remotePort), encode config.iceUfrag,
    encode config.icePwd, encode config.fingerprint, encode config.fingerprintAlgorithm,
    encode (socketAddr js config.localAddress config.localPort)]

/-- **The module is called with what the host hands in**, while all six texts lie in memory. -/
theorem createHandle_granted {js : Js} {h : BuildHost} (given : Given) {config : TunnelEngineConfig}
    {live : List Region} {e : WasmExports} (hasked : e.asked = 0)
    (hg : Granting answers live e.memory.size 0 (textsOf js config)) :
    ∃ e' args, e'.asked = 6 ∧ e.memory.size ≤ e'.memory.size ∧
      e'.memory.size = (answers 5).byteLength ∧ Keeps live e.memory e'.memory ∧
      createArgs js answers config = .ok args ∧
      Alike (createHandle answers js h given config e) (rtcTunnelCreate (L := L) h given args e') := by
  have h0 : HandedIn answers live e [] e :=
    ⟨hasked, Nat.le_refl _, Keeps.refl _ _, fun k data hk => by cases hk⟩
  have hnil : inUse answers live [] = live := List.append_nil _
  obtain ⟨e1, h1, _, hg1, hr1⟩ := withCString_granted h0 (by rw [hnil]; exact hg)
  obtain ⟨e2, h2, _, hg2, hr2⟩ := withCString_granted h1 hg1
  obtain ⟨e3, h3, _, hg3, hr3⟩ := withCString_granted h2 hg2
  obtain ⟨e4, h4, _, hg4, hr4⟩ := withCString_granted h3 hg3
  obtain ⟨e5, h5, _, hg5, hr5⟩ := withCString_granted h4 hg4
  obtain ⟨e6, h6, hsize, _, hr6⟩ := withCString_granted h5 hg5
  have hread := fun k value hk => argAt_bufOf (h6.lies k (encode value) hk)
  let buf (k : Nat) (value : Text) := bufOf (answers k) (encode value)
  refine ⟨e6, argsAt e6.memory config
    (buf 0 (socketAddr js config.remoteAddress config.remotePort)) (buf 1 config.iceUfrag)
    (buf 2 config.icePwd) (buf 3 config.fingerprint) (buf 4 config.fingerprintAlgorithm)
    (buf 5 (socketAddr js config.localAddress config.localPort)), h6.asked, h6.grown, hsize,
    h6.keeps, ?_, ?_⟩
  · unfold createArgs
    rw [hread 0 _ rfl, hread 1 _ rfl, hread 2 _ rfl, hread 3 _ rfl, hread 4 _ rfl, hread 5 _ rfl]
    rfl
  · unfold createHandle
    refine (hr1 _).trans ?_
    refine (hr2 _).trans ?_
    refine (hr3 _).trans ?_
    refine (hr4 _).trans ?_
    refine (hr5 _).trans ?_
    exact hr6 fun «local» e => rtcTunnelCreate h given (argsAt e.memory config _ _ _ _ _ «local») e

theorem bind_error {ε α β : Type} {x : Except ε α} {f : α → Except ε β} {e : ε}
    (h : (x >>= f) = .error e) : x = .error e ∨ ∃ a, x = .ok a ∧ f a = .error e := by
  cases x with
  | error e' => exact .inl (congrArg Except.error (Except.error.inj h))
  | ok a => exact .inr ⟨a, rfl, h⟩

theorem required_error {α : Type} {message message' : String} {o : Option α}
    (h : required message o = .error message') : message = message' := by
  cases o with
  | none => exact Except.error.inj h
  | some a => cases h

/-- A text that the decoder leaves as it is. -/
def Plain (message : String) : Prop := WasmTunnelEngine.decode message.toList = message.toList

theorem plain_toString (err : TunnelError) : Plain err.toString := by
  cases err with
  | peerConnection err =>
    show WasmTunnelEngine.decode ("peer connection error: " ++ err).toList = ("peer connection error: " ++ err).toList
    rw [String.toList_append]
    rfl
  | config msg =>
    show WasmTunnelEngine.decode ("invalid tunnel config: " ++ msg).toList = ("invalid tunnel config: " ++ msg).toList
    rw [String.toList_append]
    rfl

/-- No message of a failed creation starts with a byte order mark, which the decoder would drop. -/
theorem plain_message {h : BuildHost} {args : CreateArgs} {message : String}
    (hc : Abi.rtcTunnelCreate L h args = .error message) : Plain message := by
  have hrequired : ∀ {α : Type} {text : String} {o : Option α},
      required text o = .error message → Plain text → Plain message :=
    fun ho ht => required_error ho ▸ ht
  rcases bind_error hc with hg | ⟨_, _, hc⟩
  · rcases bind_error hg with ho | ⟨remote, _, hg⟩
    · exact hrequired ho rfl
    rcases bind_error hg with ho | ⟨localAddr, _, hg⟩
    · exact hrequired ho rfl
    rcases bind_error hg with ho | ⟨ufrag, _, hg⟩
    · exact hrequired ho rfl
    rcases bind_error hg with ho | ⟨pwd, _, hg⟩
    · exact hrequired ho rfl
    rcases bind_error hg with ho | ⟨fingerprint, _, hg⟩
    · exact hrequired ho rfl
    rcases bind_error hg with ho | ⟨algorithm, _, hg⟩
    · exact hrequired ho rfl
    dsimp only at hg
    split at hg
    · cases hg
      rfl
    · split at hg
      · cases hg
        rfl
      · cases hg
  · dsimp only at hc
    split at hc
    · cases hc
    · cases hc
      exact plain_toString _

/-- The message is read back. -/
theorem readLastError_granted {live : List Region} {given : Given} {e : WasmExports}
    {message : String} (hmessage : e.lastError = encode message.toList) (hplain : Plain message)
    (hgrown : e.memory.size ≤ (answers e.asked).byteLength)
    (hb : (answers e.asked).byteLength < 2147483648)
    (hg : Grants (answers e.asked).byteLength live
      (blockOf (answers e.asked) (encode message.toList))) :
    (readLastError answers given e).1 = Abi.readLastError (answers e.asked) message.toList ∧
      (readLastError answers given e).1.isOk = true ∧
      Keeps live e.memory (readLastError answers given e).2.memory ∧
      e.memory.size ≤ (readLastError answers given e).2.memory.size ∧
      (readLastError answers given e).2.memory.size < 2147483648 := by
  unfold readLastError Abi.readLastError
  rw [hmessage]
  dsimp only
  by_cases hne : encode message.toList = []
  · rw [hne]
    exact ⟨rfl, rfl, Keeps.refl _ _, Nat.le_refl _, Nat.lt_of_le_of_lt hgrown hb⟩
  · have hlen := mt List.length_eq_zero_iff.mp hne
    obtain ⟨hptr, hinside, hmem, hword⟩ := Instance.regionOf_bufOf hb hg hne
    have hpos := List.length_pos_iff.mpr hne
    have hnumber : jsNumber (bufOf (answers e.asked) (encode message.toList)).ptr =
        (bufOf (answers e.asked) (encode message.toList)).ptr.toNat :=
      Abi.Instance.jsNumber_eq (by omega)
    have hnz : jsNumber (bufOf (answers e.asked) (encode message.toList)).ptr ≠ 0 := fun hz =>
      hptr (jsNumber_eq_zero.mp hz)
    rw [if_neg hlen, if_neg hlen]
    have hbuf : rtcTunnelAlloc (answers e.asked).alloc (abiWord (encode message.toList).length) =
        (bufOf (answers e.asked) (encode message.toList)).ptr := rfl
    have hheld := Base.Memory.holds_write { e.memory with size := (answers e.asked).byteLength } hinside
    unfold withBuffer WasmExports.alloc
    dsimp only
    rw [hmessage, hbuf, show abiWord (encode message.toList).length =
      (bufOf (answers e.asked) (encode message.toList)).len from rfl,
      Instance.copyOut_eq hptr hword hheld hnumber, if_neg hnz, if_pos (by omega)]
    refine ⟨congrArg Except.ok hplain, rfl, (Base.Memory.keeps_grow _ hgrown).trans
      (Base.Memory.keeps_write fun r hr => hg.apart _ hmem r hr), hgrown, hb⟩

/-- What the allocator grants behind the texts: the events of the tunnel, or the message. -/
def Answered (answers : Nat → Answers) (given : Given) (live : List Region) :
    Except HostError (Except String (TunnelHandle L)) → Prop
  | .error _ => True
  | .ok (.ok handle) => Grants given.answers.byteLength live (payloadRegions given handle.tunnel.events)
  | .ok (.error message) =>
    given.answers.byteLength ≤ (answers 6).byteLength ∧ (answers 6).byteLength < 2147483648 ∧
      Grants (answers 6).byteLength live (blockOf (answers 6) (encode message.toList))

instance decidableAnswered (answers : Nat → Answers) (given : Given) (live : List Region) :
    ∀ r : Except HostError (Except String (TunnelHandle L)), Decidable (Answered answers given live r)
  | .error _ => .isTrue trivial
  | .ok (.ok _) => inferInstanceAs (Decidable (Grants _ _ _))
  | .ok (.error _) => inferInstanceAs (Decidable (_ ∧ _ ∧ _))

/-- **What a creation relies on** of the allocator. -/
def Makes (answers : Nat → Answers) (js : Js) (L : Layers) (h : BuildHost) (given : Given)
    (config : TunnelEngineConfig) (live : List Region) (size : Nat) : Prop :=
  Granting answers live size 0 (textsOf js config) ∧
    (answers 5).byteLength ≤ given.answers.byteLength ∧ given.answers.byteLength < 2147483648 ∧
    Answered answers given live ((createArgs js answers config).map (Abi.rtcTunnelCreate L h))

instance decidableMakes (answers : Nat → Answers) (js : Js) (L : Layers) (h : BuildHost)
    (given : Given) (config : TunnelEngineConfig) (live : List Region) (size : Nat) :
    Decidable (Makes answers js L h given config live size) :=
  inferInstanceAs (Decidable (_ ∧ _ ∧ _ ∧ _))

/-- **A creation through the memory** gives the tunnel or throws the error that it does where each
text is handed over as such, and leaves what is in use where it lies. -/
theorem createTunnel_granted {js : Js} {h : BuildHost} {given : Given} {config : TunnelEngineConfig}
    {live : List Region} {e : WasmExports} (hasked : e.asked = 0)
    (hm : Makes answers js L h given config live e.memory.size) :
    (createTunnel (L := L) answers js h given config e).1 = Abi.createTunnel js L h answers config ∧
      ∃ memory : Memory, Keeps live e.memory memory ∧ e.memory.size ≤ memory.size ∧
        memory.size < 2147483648 ∧
        match Abi.createTunnel js L h answers config with
        | .ok handle => memory.size = given.answers.byteLength ∧
          Grants given.answers.byteLength live (payloadRegions given handle.tunnel.events) ∧
          (createTunnel (L := L) answers js h given config e).2.memory = memory.place
            (placed (given.places handle.tunnel.events.length) handle.tunnel.events)
        | .error _ => (createTunnel (L := L) answers js h given config e).2.memory = memory := by
  obtain ⟨hg, hbehind, hb, hanswered⟩ := hm
  obtain ⟨e', args, hasked', hgrown, hsize, hkeeps, hargs, hfst, actions, hsnd⟩ :=
    createHandle_granted (L := L) (h := h) given hasked hg
  have hkept : Keeps live e.memory { e'.memory with size := given.answers.byteLength } :=
    hkeeps.trans (Base.Memory.keeps_grow _ (hsize ▸ hbehind))
  rw [hargs] at hanswered
  cases hc : Abi.rtcTunnelCreate L h args with
  | ok handle =>
    have hpure : Abi.createTunnel js L h answers config = .ok handle := by
      unfold Abi.createTunnel
      rw [hargs]
      dsimp only [bind, Except.bind]
      rw [hc]
      rfl
    have hanswered : Grants given.answers.byteLength live (payloadRegions given handle.tunnel.events) := by
      rw [Except.map, hc] at hanswered
      exact hanswered
    have hcreate : rtcTunnelCreate h given args e' = (.ok (some handle),
        { e' with
          memory := { e'.memory with size := given.answers.byteLength }.place
            (placed (given.places handle.tunnel.events.length) handle.tunnel.events)
          lastError := [] }) := by
      unfold rtcTunnelCreate
      dsimp only
      rw [hc]
    have hrun : createTunnel (L := L) answers js h given config e =
        (.ok handle, (createHandle (L := L) answers js h given config e).2) := by
      unfold createTunnel
      dsimp only
      rw [hfst, hcreate]
    rw [hpure, hrun]
    refine ⟨rfl, _, hkept, Nat.le_trans hgrown (hsize ▸ hbehind), hb, rfl, hanswered, ?_⟩
    rw [hsnd, hcreate]
  | error message =>
    obtain ⟨hnext, hlast, hgrants⟩ : given.answers.byteLength ≤ (answers 6).byteLength ∧
        (answers 6).byteLength < 2147483648 ∧
        Grants (answers 6).byteLength live (blockOf (answers 6) (encode message.toList)) := by
      rw [Except.map, hc] at hanswered
      exact hanswered
    have hcreate : rtcTunnelCreate (L := L) h given args e' = (.ok none,
        { e' with
          memory := { e'.memory with size := given.answers.byteLength }
          lastError := encode message.toList }) := by
      unfold rtcTunnelCreate
      dsimp only
      rw [hc]
    have hplain := plain_message hc
    generalize hend : (createHandle (L := L) answers js h given config e).2 = e₁ at hsnd
    rw [hcreate] at hsnd hfst
    have hasked₁ : e₁.asked = 6 := by rw [hsnd, hasked']
    have hsize₁ : e₁.memory.size = given.answers.byteLength := by rw [hsnd]
    have hreads : (readLastError answers given e₁).1 =
        Abi.readLastError (answers e₁.asked) message.toList ∧ _ :=
      readLastError_granted (e := e₁) (by rw [hsnd]) hplain
        (by rw [hasked₁, hsize₁]; exact hnext) (by rw [hasked₁]; exact hlast)
        (by rw [hasked₁]; exact hgrants)
    obtain ⟨hread, hok, hkeep, hle, hlt⟩ := hreads
    obtain ⟨diagnostic, hd⟩ : ∃ diagnostic, (readLastError answers given e₁).1 = .ok diagnostic := by
      cases hd : (readLastError answers given e₁).1 with
      | ok diagnostic => exact ⟨diagnostic, rfl⟩
      | error error =>
        rw [hd] at hok
        cases hok
    rw [hd, hasked₁] at hread
    have hpure : Abi.createTunnel js L h answers config = .error (.error
        ("rtc_tunnel_create rejected the configuration: ".toList ++ diagnostic)) := by
      unfold Abi.createTunnel
      rw [hargs]
      dsimp only [bind, Except.bind]
      rw [hc]
      dsimp only
      rw [← hread]
      rfl
    have hrun : createTunnel (L := L) answers js h given config e = (.error (.error
        ("rtc_tunnel_create rejected the configuration: ".toList ++ diagnostic)),
        (readLastError answers given e₁).2) := by
      unfold createTunnel
      dsimp only
      rw [hfst, hend]
      dsimp only
      rw [hd]
      rfl
    rw [hpure, hrun]
    have hkeeps₁ : Keeps live e.memory e₁.memory := by
      rw [hsnd]
      exact hkept
    exact ⟨rfl, _, hkeeps₁.trans hkeep,
      Nat.le_trans hgrown (Nat.le_trans (hsize ▸ hbehind) (hsize₁ ▸ hle)), hlt, rfl⟩

end RtcTunnel.Wasm
