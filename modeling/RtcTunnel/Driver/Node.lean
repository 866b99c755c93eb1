import RtcTunnel.Driver.Connect
import RtcTunnel.Driver.Handshake
import RtcTunnel.Driver.History

/-!
# The socket of a Node connection

`bindEndpoint` binds a socket of `node:dgram` and connects it, and `wrapSocket` makes an endpoint
of it. An endpoint that is closed passes nothing on, neither to the socket nor from it, so what the
driver sends behind its close ends there.
-/

namespace RtcTunnel.Driver

open RtcTunnel.Core
open RtcTunnel.Base.Run

set_option autoImplicit false

/-- What is asked of the socket. -/
inductive SocketCall where
  | bind
  | connect
  | send (data : Bytes)
  | close
  deriving DecidableEq

/-- How far `bindEndpoint` is. -/
inductive Stage where
  | binding
  | connecting
  | wrapped
  deriving DecidableEq

def Stage.calls : Stage → List SocketCall
  | .binding => [.bind]
  | _ => [.bind, .connect]

/-- An event that an endpoint has handlers for. -/
def Connection.Label.ofSocket : Connection.Label → Bool
  | .error _ => true
  | .datagram _ _ => true
  | _ => false

namespace Opening

variable {E : EngineApi}

/-- What a step of `openConnection` does to the endpoint, among other things. -/
def effects (context : Option Text) : Opening E → Label E → List Effect
  | .binding, .bound endpoint => (localAddress context endpoint).elim [.endpointClose] fun _ => []
  | .creating _, .createFails => [.endpointClose]
  | .running d, .driver l => d.logs l
  | _, _ => []

/-- What has been done to it. -/
def told : Opening E → List Effect
  | .running d => d.log
  | .failed left => if left.endpointClosed then [.endpointClose] else []
  | _ => []

end Opening

/-- A call of `openConnection` over the Node runtime. `closed` is that of `wrapSocket`. -/
structure NodeCall (E : EngineApi) where
  stage : Stage
  closed : Bool
  calls : List SocketCall
  opening : Opening E

namespace NodeCall

variable {E : EngineApi}

def start : NodeCall E := ⟨.binding, false, [.bind], .binding⟩

def send (n : NodeCall E) (data : Bytes) : NodeCall E :=
  if n.closed then n else { n with calls := n.calls ++ [.send data] }

def close (n : NodeCall E) : NodeCall E :=
  if n.closed then n else { n with closed := true, calls := n.calls ++ [.close] }

def perform (n : NodeCall E) : Effect → NodeCall E
  | .endpointSend data => n.send data
  | .endpointClose => n.close
  | _ => n

/-- A step of `openConnection` with what it asks of the endpoint. -/
def follow (options : ResolvedOptions) (context : Option Text) (n : NodeCall E)
    (l : Opening.Label E) : NodeCall E :=
  (n.opening.effects context l).foldl perform
    { n with opening := n.opening.step options context l }

/-- The callbacks of `bind` and `connect`, the events of the socket, `createEngine`, the registration
of the handlers, and whatever else the driver goes through. -/
inductive Label (E : EngineApi) where
  | listening
  | connected (address : Text × Text)
  | error (message : Text)
  | message (now : F64) (data : Bytes)
  | created (engine : E.State)
  | createFails
  | subscribed
  | driver (l : Connection.Label)

/-- No code of the driver is running. -/
def quiet (n : NodeCall E) : Bool :=
  match n.opening with
  | .running d => d.idle
  | _ => true

/-- What `openConnection` is told. Up to the end of `connect` an error is for `reject`, and a socket
emits its events while no code is running. -/
def seen (n : NodeCall E) : Label E → Option (Opening.Label E)
  | .listening => none
  | .connected address => if n.stage = .connecting then some (.bound address) else none
  | .error message =>
    if n.stage ≠ .wrapped then some .bindFails
    else if n.closed || !n.quiet then none
    else some (.driver (.error message))
  | .message now data =>
    if n.stage ≠ .wrapped ∨ n.closed = true then none else some (.driver (.datagram now data))
  | .created engine => some (.created engine)
  | .createFails => some .createFails
  | .subscribed => some .subscribed
  | .driver l => if l.ofSocket then none else some (.driver l)

/-- How `bindEndpoint` goes on. It takes no notice of an error that `connect` reports. -/
def advance (n : NodeCall E) : Label E → NodeCall E
  | .listening =>
    if n.stage = .binding then { n with stage := .connecting, calls := n.calls ++ [.connect] } else n
  | .connected _ => if n.stage = .connecting then { n with stage := .wrapped } else n
  | _ => n

def step (options : ResolvedOptions) (context : Option Text) (n : NodeCall E) (l : Label E) :
    NodeCall E :=
  match n.seen l with
  | none => n.advance l
  | some seen => (n.advance l).follow options context seen

/-- An exception rejects the promise past the clean-ups. -/
def leaks (n : NodeCall E) (l : Label E) : Bool := (n.seen l).any n.opening.leaks

end NodeCall

/-- The calls that pass the endpoint: those up to the first close. -/
def heard : List Effect → List SocketCall
  | [] => []
  | .endpointSend data :: rest => .send data :: heard rest
  | .endpointClose :: _ => [.close]
  | _ :: rest => heard rest

theorem heard_append (es more : List Effect) :
    heard (es ++ more) = heard es ++ if .endpointClose ∈ es then [] else heard more := by
  induction es with
  | nil => simp [heard]
  | cons e es ih =>
    cases e with
    | endpointSend data => simp [heard, ih]
    | endpointClose => simp [heard]
    | _ => simp [heard, ih]

theorem close_heard (es : List Effect) : .close ∈ heard es ↔ .endpointClose ∈ es := by
  induction es with
  | nil => simp [heard]
  | cons e es ih =>
    cases e with
    | _ => simp [heard, ih]

namespace NodeCall

variable {E : EngineApi} {options : ResolvedOptions} {context : Option Text} {n : NodeCall E}

/-- A closed endpoint passes nothing on. -/
theorem perform_closed (hc : n.closed = true) (es : List Effect) : es.foldl perform n = n := by
  induction es with
  | nil => rfl
  | cons e es ih =>
    have he : n.perform e = n := by
      cases e with
      | endpointSend data => exact if_pos hc
      | endpointClose => exact if_pos hc
      | _ => rfl
    rw [List.foldl_cons, he, ih]

theorem perform_open (hc : n.closed = false) (es : List Effect) : es.foldl perform n =
    { n with closed := decide (.endpointClose ∈ es), calls := n.calls ++ heard es } := by
  induction es generalizing n with
  | nil =>
    obtain ⟨stage, closed, calls, opening⟩ := n
    obtain rfl : closed = false := hc
    simp [heard]
  | cons e es ih =>
    have hn : ¬ n.closed = true := by simp [hc]
    rw [List.foldl_cons]
    cases e with
    | endpointSend data =>
      have he : n.perform (.endpointSend data) = { n with calls := n.calls ++ [.send data] } := if_neg hn
      have hrest := ih (n := { n with calls := n.calls ++ [.send data] }) hc
      rw [he]
      exact hrest.trans (by simp [heard])
    | endpointClose =>
      have he : n.perform .endpointClose =
        { n with closed := true, calls := n.calls ++ [.close] } := if_neg hn
      rw [he, perform_closed rfl]
      simp [heard]
    | _ => exact (ih hc).trans (by simp [heard])

end NodeCall

namespace Connection

variable {E : EngineApi} {d : Connection E}

/-- Only the close of a connection closes its endpoint. -/
theorem endpointClose_step (d : Connection E) (l : Label) (h : .endpointClose ∈ (d.step l).log) :
    .endpointClose ∈ d.log ∨ (d.step l).closed = true := by
  have hact := action_step d l
  generalize d.step l = r at hact h ⊢
  have inside : ∀ {c m : Connection E}, c.Inside m → c.log = d.log → .endpointClose ∈ m.log →
      .endpointClose ∈ d.log := by
    intro c m hm hc hmem
    obtain ⟨es, hlog, he⟩ := hm.silent
    rw [hlog, hc] at hmem
    exact (List.mem_append.mp hmem).resolve_right fun hes => (he _ hes).2 rfl
  cases hact with
  | nothing => exact .inl h
  | send data =>
    obtain ⟨m, hm, hr⟩ := inside_handleSend d data
    rcases hr with hr | hr
    · exact .inl (inside hm rfl (hr ▸ h))
    · rw [hr] at h
      exact .inl (inside hm rfl h)
  | close => exact .inl (inside ((Inside.refl d).call .close _) rfl h)
  | stats => exact .inl (inside (inside_handleStats d) rfl h)
  | error message => exact .inl h
  | feed _ m hi hm hf => exact .inl (inside hm rfl h)
  | wait _ m hi hm hw => exact .inl (inside hm rfl h)
  | resume => exact .inl h
  | ret rest hs => exact .inl h
  | raise =>
    refine .inl ?_
    unfold raise at h
    split at h
    · exact h
    · dsimp only at h
      split at h
      · rwa [(settle_status _).2.2] at h
      · exact h
    · exact h
  | idles now task rest hs ht => exact .inl h
  | pump now rest hs hc => exact .inl (inside (inside_pumpHead { d with stack := rest } now) rfl h)
  | drain now events engine short rest hs hc hd hshort =>
    exact .inl (inside ((Inside.refl { d with stack := rest }).call .drainEvents engine) rfl h)
  | poll now event engine rest hs hp he =>
    exact .inl (inside ((Inside.refl { d with stack := rest }).call .pollEvent engine) rfl h)
  | pollNone now engine rest hs hp =>
    exact .inl (inside ((Inside.refl { d with stack := rest }).call .pollEvent engine) rfl h)
  | apply now event events source rest hs =>
    refine .inl ?_
    cases event with
    | opened =>
      unfold applyEvent at h
      dsimp only at h
      split at h
      · exact h
      · exact (List.mem_append.mp h).resolve_right (by simp)
    | datagram data => exact (List.mem_append.mp h).resolve_right (by simp)
    | message data => exact (List.mem_append.mp h).resolve_right (by simp)
    | _ => exact h
  | loop now source loop rest hs hl => exact .inl h
  | settleOpen now rest hs =>
    have hlog : ({ d with stack := rest } : Connection E).settleOpen.log = d.log :=
      (settle_status (d := { d with stack := rest }) .resolved).2.2
    exact .inl (hlog ▸ h)
  | finish now reason rest hs hc =>
    exact .inr (congrArg Status.closed (finish_status (d := { d with stack := rest }) reason hc).1)
  | finishRest now reason rest hs =>
    have hlog := (finishRest_status (d := { d with stack := rest }) reason).2.2
    have hes : ∀ opened : Bool,
        Effect.endpointClose ∉ Effect.dispose :: (if opened then [Effect.onClose reason] else []) := by
      intro opened
      cases opened <;> simp
    rw [hlog] at h
    exact .inl ((List.mem_append.mp h).resolve_right (hes d.opened))
  | executorRest now rest hs =>
    have hlog : ({ d with stack := rest } : Connection E).executorRest.log = d.log :=
      (executorRest_status (d := { d with stack := rest })).2.2
    exact .inl (hlog ▸ h)

end Connection

namespace Opening

variable {E : EngineApi} {options : ResolvedOptions} {context : Option Text}

theorem told_step (o : Opening E) (l : Label E) :
    (o.step options context l).told = o.told ++ o.effects context l := by
  cases o with
  | binding =>
    cases l with
    | bound endpoint =>
      rw [step, effects]
      cases localAddress context endpoint <;> rfl
    | _ => rfl
  | creating local' => cases l <;> rfl
  | subscribing engine => cases l <;> rfl
  | running d =>
    cases l with
    | driver l => exact (Connection.log_step d l).1
    | _ => exact (List.append_nil _).symm
  | failed left => cases l <;> exact (List.append_nil _).symm

theorem endpointClosed_iff (o : Opening E) :
    o.resources.endpointClosed = true ↔ .endpointClose ∈ o.told := by
  cases o with
  | running d => exact decide_eq_true_iff
  | failed left =>
    rw [told, resources]
    split <;> simp_all
  | _ => simp [resources, told]

/-- The close of the endpoint and that of the connection go together. -/
def Shut (o : Opening E) : Prop :=
  o.Sound ∧ ∀ d, o = .running d → .endpointClose ∈ d.log → d.closed = true

theorem shut_step (o : Opening E) (l : Label E) (h : o.Shut) : (o.step options context l).Shut := by
  refine ⟨sound_step o l h.1, fun r hr hmem => ?_⟩
  cases o with
  | running d =>
    cases l with
    | driver l =>
      obtain rfl : d.step l = r := Opening.running.inj hr
      exact (Connection.endpointClose_step d l hmem).elim
        (fun hm => (Connection.later_step d l).closed (h.2 d rfl hm)) id
    | _ => exact h.2 r hr hmem
  | subscribing engine =>
    cases l with
    | subscribed =>
      obtain rfl : Connection.start options engine = r := Opening.running.inj hr
      cases hmem
    | _ => cases hr
  | binding =>
    cases l with
    | bound endpoint =>
      rw [step] at hr
      cases hl : localAddress context endpoint with
      | none =>
        rw [hl] at hr
        cases hr
      | some local' =>
        rw [hl] at hr
        cases hr
    | _ => cases hr
  | creating local' => cases l <;> cases hr
  | failed left => cases l <;> cases hr

/-- Only a failure of `bind` rejects a call that has no endpoint. -/
theorem bound_of_rejected {o : Opening E} {l : Label E} (hr : o.rejected = false)
    (hj : (o.step options context l).rejected = true) (hl : l ≠ .bindFails) :
    (o.step options context l).resources.bound = true := by
  cases o with
  | binding =>
    cases l with
    | bound endpoint =>
      rw [step] at hj ⊢
      cases hlocal : localAddress context endpoint with
      | none => rfl
      | some local' =>
        rw [hlocal] at hj
        cases hj
    | bindFails => exact absurd rfl hl
    | _ => cases hj
  | creating local' => cases l <;> rfl
  | subscribing engine => cases l <;> rfl
  | running d => cases l <;> rfl
  | failed left => cases hr

/-- An exception that leaves the executor finds the endpoint open. -/
theorem open_of_leaks {o : Opening E} {l : Label E} (h : o.Shut) (hl : o.leaks l = true) :
    .endpointClose ∉ (o.step options context l).told := by
  cases o with
  | running d =>
    cases l with
    | driver l =>
      obtain ⟨ht, _, hc⟩ := leaks_running.mp hl
      intro hmem
      have hshut : ((Opening.running d).step options context (.driver l)).Shut := shut_step _ _ h
      have hclosed := hshut.2 _ rfl hmem
      cases l with
      | raise =>
        have hraise : d.raise.closed = d.closed := by
          unfold Connection.raise
          split
          · rfl
          · dsimp only
            split
            · exact congrArg Connection.Status.closed (Connection.settle_status _).1
            · rfl
          · rfl
        exact absurd (hc.symm.trans (hraise.symm.trans hclosed)) Bool.false_ne_true
      | _ => cases ht
    | _ => cases hl
  | subscribing engine =>
    cases l with
    | subscribeFails => exact List.not_mem_nil
    | _ => cases hl
  | binding => cases l <;> cases hl
  | creating local' => cases l <;> cases hl
  | failed left => cases l <;> cases hl

end Opening

namespace NodeCall

variable {E : EngineApi} {options : ResolvedOptions} {context : Option Text} {n : NodeCall E}

/-- What a socket has been asked, for all that was done to its endpoint. -/
structure Attached (n : NodeCall E) : Prop where
  calls : n.calls = n.stage.calls ++ heard n.opening.told
  closed : n.closed = decide (.endpointClose ∈ n.opening.told)
  early : n.stage ≠ .wrapped →
    n.opening = .binding ∨ n.opening = .failed (Opening.binding : Opening E).resources
  shut : n.opening.Shut

theorem attached_start : (start : NodeCall E).Attached where
  calls := rfl
  closed := (decide_eq_false List.not_mem_nil).symm
  early _ := .inl rfl
  shut := ⟨trivial, fun d hd => by rw [start] at hd; cases hd⟩

theorem Attached.untold (h : n.Attached) (hs : n.stage ≠ .wrapped) : n.opening.told = [] := by
  rcases h.early hs with ho | ho <;> rw [ho] <;> rfl

theorem Attached.close_iff (h : n.Attached) :
    .close ∈ n.calls ↔ n.opening.resources.endpointClosed = true := by
  have hstage : .close ∉ n.stage.calls := by cases n.stage <;> simp [Stage.calls]
  rw [h.calls, List.mem_append, close_heard, Opening.endpointClosed_iff]
  exact or_iff_right hstage

theorem opening_advance (n : NodeCall E) (l : Label E) : (n.advance l).opening = n.opening := by
  unfold advance
  split
  · split <;> rfl
  · split <;> rfl
  · rfl

theorem attached_advance (h : n.Attached) (l : Label E) : (n.advance l).Attached := by
  unfold advance
  split
  · split
    · rename_i hs
      have hearly : n.stage ≠ .wrapped := by simp [hs]
      refine ⟨?_, h.closed, fun _ => h.early hearly, h.shut⟩
      have hcalls := h.calls
      rw [h.untold hearly, hs] at hcalls
      rw [hcalls, h.untold hearly]
      rfl
    · exact h
  · split
    · rename_i hs
      have hcalls := h.calls
      rw [hs] at hcalls
      exact ⟨hcalls, h.closed, fun hn => absurd rfl hn, h.shut⟩
    · exact h
  · exact h

theorem opening_foldl (es : List Effect) (n : NodeCall E) :
    (es.foldl perform n).opening = n.opening ∧ (es.foldl perform n).stage = n.stage := by
  cases hc : n.closed with
  | true =>
    rw [perform_closed hc]
    exact ⟨rfl, rfl⟩
  | false =>
    rw [perform_open hc]
    exact ⟨rfl, rfl⟩

theorem opening_follow (n : NodeCall E) (l : Opening.Label E) :
    (n.follow options context l).opening = n.opening.step options context l ∧
      (n.follow options context l).stage = n.stage := opening_foldl _ _

theorem attached_follow (h : n.Attached) (l : Opening.Label E)
    (hb : n.stage ≠ .wrapped → ∀ endpoint, l ≠ .bound endpoint) :
    (n.follow options context l).Attached := by
  obtain ⟨hopening, hstage⟩ : (n.follow options context l).opening =
      n.opening.step options context l ∧ (n.follow options context l).stage = n.stage :=
    opening_follow n l
  have htold : (n.opening.step options context l).told =
      n.opening.told ++ n.opening.effects context l := Opening.told_step n.opening l
  have hearly : (n.follow options context l).stage ≠ .wrapped →
      (n.follow options context l).opening = .binding ∨ (n.follow options context l).opening =
        .failed (Opening.binding : Opening E).resources := by
    rw [hopening, hstage]
    intro hs
    rcases h.early hs with ho | ho
    · rw [ho]
      cases l with
      | bound endpoint => exact absurd rfl (hb hs endpoint)
      | bindFails => exact .inr rfl
      | _ => exact .inl rfl
    · rw [ho]
      cases l <;> exact .inr rfl
  have hshut : (n.follow options context l).opening.Shut := hopening ▸ Opening.shut_step _ l h.shut
  have hclosed := h.closed
  cases hc : n.closed with
  | true =>
    have hfollow : n.follow options context l =
        { n with opening := n.opening.step options context l } :=
      perform_closed (n := { n with opening := n.opening.step options context l }) hc _
    have hmem : .endpointClose ∈ n.opening.told := of_decide_eq_true (hclosed.symm.trans hc)
    refine ⟨?_, ?_, hearly, hshut⟩
    · rw [hfollow, htold, heard_append, if_pos hmem, List.append_nil]
      exact h.calls
    · rw [hfollow, htold]
      exact hc.trans (decide_eq_true (List.mem_append_left _ hmem)).symm
  | false =>
    have hfollow := perform_open (n := { n with opening := n.opening.step options context l }) hc
      (n.opening.effects context l)
    have hmem : .endpointClose ∉ n.opening.told := of_decide_eq_false (hclosed.symm.trans hc)
    refine ⟨?_, ?_, hearly, hshut⟩
    · rw [follow, hfollow, htold, heard_append, if_neg hmem, ← List.append_assoc, ← h.calls]
    · rw [follow, hfollow, htold]
      simp [hmem]

/-- How `openConnection` comes to be told of something. -/
inductive Tells (n : NodeCall E) : Label E → Opening.Label E → Prop
  | bound (address : Text × Text) (hs : n.stage = .connecting) :
    n.Tells (.connected address) (.bound address)
  | bindFails (message : Text) (hs : n.stage ≠ .wrapped) : n.Tells (.error message) .bindFails
  | error (message : Text) (hs : n.stage = .wrapped) (hc : n.closed = false)
    (hq : n.quiet = true) : n.Tells (.error message) (.driver (.error message))
  | datagram (now : F64) (data : Bytes) (hs : n.stage = .wrapped) (hc : n.closed = false) :
    n.Tells (.message now data) (.driver (.datagram now data))
  | created (engine : E.State) : n.Tells (.created engine) (.created engine)
  | createFails : n.Tells .createFails .createFails
  | subscribed : n.Tells .subscribed .subscribed
  | driver (l : Connection.Label) (hl : l.ofSocket = false) : n.Tells (.driver l) (.driver l)

theorem tells_of_seen {l : Label E} {seen : Opening.Label E} (h : n.seen l = some seen) :
    n.Tells l seen := by
  cases l with
  | listening => cases h
  | connected address =>
    rw [NodeCall.seen] at h
    split at h
    · rename_i hs
      cases h
      exact .bound address hs
    · cases h
  | error message =>
    rw [NodeCall.seen] at h
    split at h
    · rename_i hs
      cases h
      exact .bindFails message hs
    · rename_i hs
      split at h
      · cases h
      · rename_i hq
        obtain ⟨hc, hq⟩ : n.closed = false ∧ n.quiet = true := by simpa using hq
        cases h
        exact .error message (not_not.mp hs) hc hq
  | message now data =>
    rw [NodeCall.seen] at h
    split at h
    · cases h
    · rename_i hs
      obtain ⟨hs, hc⟩ : n.stage = .wrapped ∧ n.closed = false := by simpa using hs
      cases h
      exact .datagram now data hs hc
  | created engine =>
    cases h
    exact .created engine
  | createFails =>
    cases h
    exact .createFails
  | subscribed =>
    cases h
    exact .subscribed
  | driver l =>
    rw [NodeCall.seen] at h
    split at h
    · cases h
    · rename_i hl
      cases h
      exact .driver l (Bool.eq_false_of_not_eq_true hl)

/-- Only the end of `connect` gives `openConnection` its endpoint. -/
theorem wrapped_of_bound {l : Label E} {endpoint : Text × Text} (h : n.seen l = some (.bound endpoint)) :
    (n.advance l).stage = .wrapped := by
  cases tells_of_seen h with
  | bound address hs => rw [advance, if_pos hs]

theorem step_none {l : Label E} (h : n.seen l = none) : n.step options context l = n.advance l := by
  rw [step, h]

theorem step_some {l : Label E} {seen : Opening.Label E} (h : n.seen l = some seen) :
    n.step options context l = (n.advance l).follow options context seen := by
  rw [step, h]

theorem attached_step (l : Label E) (h : n.Attached) : (n.step options context l).Attached := by
  cases hl : n.seen l with
  | none =>
    rw [step_none hl]
    exact attached_advance h l
  | some seen =>
    rw [step_some hl]
    refine attached_follow (attached_advance h l) seen fun hs endpoint he => ?_
    exact hs (wrapped_of_bound (he ▸ hl))

theorem attached_run (labels : List (Label E)) : (run (step options context) start labels).Attached :=
  invariant (fun _ l h => attached_step l h) labels attached_start

/-- The connection of a call is in a run of the driver whose endpoint reports its errors between
turns. -/
def Driven (options : ResolvedOptions) (n : NodeCall E) : Prop :=
  ∀ d, n.opening = .running d → ∃ engine turns,
    d = run Connection.step (.start options engine) turns ∧
      Meets Connection.step (fun d l => d.betweenTurns l = true) (.start options engine) turns

theorem betweenTurns_seen {d : Connection E} {l : Label E} {turn : Connection.Label}
    (ho : n.opening = .running d) (h : n.seen l = some (.driver turn)) :
    d.betweenTurns turn = true := by
  cases tells_of_seen h with
  | error message hs hc hq =>
    rw [quiet, ho] at hq
    exact hq
  | datagram => rfl
  | driver l hl =>
    cases turn with
    | error message => cases hl
    | _ => rfl

theorem driven_step (l : Label E) (h : n.Driven options) :
    (n.step options context l).Driven options := by
  cases hl : n.seen l with
  | none =>
    rw [step_none hl, Driven, opening_advance]
    exact h
  | some seen =>
    rw [step_some hl, Driven, (opening_follow _ _).1, opening_advance]
    intro r hr
    cases ho : n.opening with
    | running d =>
      rw [ho] at hr
      obtain ⟨engine, turns, hd, hm⟩ := h d ho
      cases seen with
      | driver turn =>
        obtain rfl : d.step turn = r := Opening.running.inj hr
        refine ⟨engine, turns ++ [turn], ?_, meets_append.mpr ⟨hm, ?_, trivial⟩⟩
        · rw [run_append, ← hd]
          rfl
        · rw [← hd]
          exact betweenTurns_seen ho hl
      | _ =>
        obtain rfl : d = r := Opening.running.inj hr
        exact ⟨engine, turns, hd, hm⟩
    | subscribing engine =>
      rw [ho] at hr
      cases seen with
      | subscribed => exact ⟨engine, [], (Opening.running.inj hr).symm, trivial⟩
      | _ => cases hr
    | binding =>
      rw [ho] at hr
      cases seen with
      | bound endpoint =>
        rw [Opening.step] at hr
        cases hlocal : localAddress context endpoint with
        | none =>
          rw [hlocal] at hr
          cases hr
        | some local' =>
          rw [hlocal] at hr
          cases hr
      | _ => cases hr
    | creating local' =>
      rw [ho] at hr
      cases seen <;> cases hr
    | failed left =>
      rw [ho] at hr
      cases seen <;> cases hr

theorem driven_run (labels : List (Label E)) :
    (run (step options context) start labels).Driven options :=
  invariant (fun _ l h => driven_step l h) labels fun d hd => by rw [start] at hd; cases hd

/-- Nothing moves a call that has failed. -/
theorem failed_run {left : Resources} (labels : List (Label E)) (h : n.opening = .failed left) :
    (run (step options context) n labels).opening = .failed left := by
  refine invariant (I := fun n : NodeCall E => n.opening = .failed left) (fun n l h => ?_) labels h
  cases hl : n.seen l with
  | none => rw [step_none hl, opening_advance, h]
  | some seen =>
    rw [step_some hl, (opening_follow _ _).1, opening_advance, h]
    cases seen <;> rfl

/-- An error before the end of `connect` rejects a call that has no endpoint yet. -/
theorem stage_of_bindFails {l : Label E} (h : n.seen l = some .bindFails) :
    (n.advance l).stage ≠ .wrapped := by
  cases tells_of_seen h with
  | bindFails message hs => exact hs

/-- A rejection behind `bindEndpoint` leaves the socket open exactly when it leaks. -/
theorem closes_iff (h : n.Attached) {l : Label E} (hr : n.opening.rejected = false)
    (hj : (n.step options context l).opening.rejected = true)
    (hs : (n.step options context l).stage = .wrapped) :
    .close ∈ (n.step options context l).calls ↔ n.leaks l = false := by
  have hnext : (n.step options context l).Attached := attached_step l h
  rw [hnext.close_iff]
  cases hl : n.seen l with
  | none =>
    rw [step_none hl, opening_advance, hr] at hj
    cases hj
  | some seen =>
    rw [leaks, hl]
    have hopening : (n.step options context l).opening = n.opening.step options context seen := by
      rw [step_some hl, (opening_follow _ _).1, opening_advance]
    rw [hopening] at hj ⊢
    constructor
    · intro hclosed
      by_contra hn
      have hleaks : n.opening.leaks seen = true := by simpa using hn
      exact Opening.open_of_leaks h.shut hleaks ((Opening.endpointClosed_iff _).mp hclosed)
    · intro hleaks
      have hbound : (n.opening.step options context seen).resources.bound = true := by
        refine Opening.bound_of_rejected hr hj fun he => stage_of_bindFails (he ▸ hl) ?_
        rw [← hs, step_some hl, (opening_follow _ _).2]
      exact ((Opening.releases_iff n.opening seen h.shut.1).mpr hleaks ⟨hr, hj, hbound⟩).1

/-- The socket of a connection that runs. -/
theorem Attached.running (h : n.Attached) {d : Connection E} (ho : n.opening = .running d) :
    n.calls = [.bind, .connect] ++ heard d.log ∧ (.close ∈ n.calls ↔ d.closed = true) := by
  have hstage : n.stage = .wrapped := by
    by_contra hs
    rcases h.early hs with he | he <;> rw [ho] at he <;> cases he
  have hcalls := h.calls
  rw [hstage, ho] at hcalls
  have hkept : d.Kept := by
    have hsound := h.shut.1
    rw [ho] at hsound
    exact hsound
  refine ⟨hcalls, ?_⟩
  rw [h.close_iff, Opening.endpointClosed_iff, ho]
  exact ⟨h.shut.2 d ho, hkept.cleaned.endpoint⟩

/-- **The socket of a Node connection** over every run of its runtime, its caller and its engine.
While the connection runs, the socket has been bound, connected, and asked to send what the driver
sent up to its close, in order; it is closed once the connection is, and then asked for nothing
more, whatever the driver still sends; and the run is one of a driver whose endpoint reports its
errors between turns. When the promise is rejected behind `bindEndpoint`, the socket is closed
unless an exception went past the clean-ups. When it is rejected by an error before the end of
`connect`, the socket is never closed. -/
theorem node_socket (options : ResolvedOptions) (context : Option Text) (labels : List (Label E)) :
    let n := run (step options context) start labels
    (∀ d, n.opening = .running d →
      n.calls = [.bind, .connect] ++ heard d.log ∧ (.close ∈ n.calls ↔ d.closed = true) ∧
        ∃ engine turns, d = run Connection.step (.start options engine) turns ∧
          Meets Connection.step (fun d l => d.betweenTurns l = true) (.start options engine) turns) ∧
    ∀ l, n.opening.rejected = false → (n.step options context l).opening.rejected = true →
      ((n.step options context l).stage = .wrapped →
        (.close ∈ (n.step options context l).calls ↔ n.leaks l = false)) ∧
      ((n.step options context l).stage ≠ .wrapped →
        ∀ more, .close ∉ (run (step options context) (n.step options context l) more).calls) := by
  intro n
  have h : n.Attached := attached_run labels
  refine ⟨fun d ho => ?_, fun l hr hj => ⟨closes_iff h hr hj, fun hs more => ?_⟩⟩
  · obtain ⟨hcalls, hclose⟩ := h.running ho
    exact ⟨hcalls, hclose, driven_run labels d ho⟩
  · have hnext : (n.step options context l).Attached := attached_step l h
    have hfailed : (n.step options context l).opening =
        .failed (Opening.binding : Opening E).resources := by
      refine (hnext.early hs).resolve_left fun ho => ?_
      rw [ho] at hj
      cases hj
    have hlater : (run (step options context) (n.step options context l) more).Attached :=
      invariant (fun _ l h => attached_step l h) more hnext
    rw [hlater.close_iff, failed_run more hfailed]
    exact Bool.false_ne_true

/-- The address is taken: the promise is rejected, and the socket stays open. -/
theorem node_socket_unbound :
    ∀ more, .close ∉ (run (step Script.batched none)
      ((start : NodeCall Script.dialing).step Script.batched none (.error "EADDRINUSE".toList))
      more).calls :=
  ((node_socket Script.batched none []).2 (.error "EADDRINUSE".toList) rfl rfl).2 nofun

end NodeCall

end RtcTunnel.Driver
