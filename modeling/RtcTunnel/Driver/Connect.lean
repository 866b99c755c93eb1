import Mathlib.Data.List.Chain
import RtcTunnel.Core.Text
import RtcTunnel.Driver.Settlement

/-!
# What a failed connection leaves behind

`openConnection` from its call on: the socket is bound, the engine is created, the
handlers are registered, and then the promise runs the first pump. Up to the engine a
`catch` cleans up, behind it `finish` does; in between nothing does, and a callback that
throws out of the first pump goes past both.
-/

namespace RtcTunnel.Driver

open RtcTunnel.Core
open RtcTunnel.Base.Run

set_option autoImplicit false

/-- An `ip:port`, accepting IPv4 and bracketed IPv6, with the text of the port. -/
def splitHost (address : Text) : Option (Text × Text) :=
  match address with
  | '[' :: address =>
    match Text.splitOnce ']' address with
    | some (host, ':' :: port) => some (host, port)
    | _ => none
  | address =>
    match Text.splitOnce ':' address with
    | some (host, port) => if ':' ∈ port then none else some (host, port)
    | none => none

/-- The local address of the engine's configuration: that of the context if it names one,
else that of the endpoint. -/
def localAddress (context : Option Text) (endpoint : Text × Text) : Option (Text × Text) :=
  match context with
  | none => some endpoint
  | some [] => some endpoint
  | some address => splitHost address

/-- What a call holds: its socket, its engine and its timer. -/
structure Resources where
  bound : Bool
  endpointClosed : Bool
  created : Bool
  disposals : Nat
  timerArmed : Bool
  deriving DecidableEq

/-- Nothing is held any more. -/
def Resources.Released (r : Resources) : Prop :=
  r.endpointClosed = true ∧ (r.created = true → r.disposals = 1) ∧ r.timerArmed = false

instance (r : Resources) : Decidable r.Released := inferInstanceAs (Decidable (_ ∧ _ ∧ _))

def Promise.isRejected : Promise → Bool
  | .rejected _ => true
  | _ => false

/-- How far a call of `openConnection` is. -/
inductive Opening (E : EngineApi) where
  | binding
  | creating (local' : Text × Text)
  | subscribing (engine : E.State)
  | running (d : Connection E)
  | failed (left : Resources)

namespace Opening

variable {E : EngineApi}

def resources : Opening E → Resources
  | .binding => ⟨false, false, false, 0, false⟩
  | .creating _ => ⟨true, false, false, 0, false⟩
  | .subscribing _ => ⟨true, false, true, 0, false⟩
  | .running d =>
    ⟨true, .endpointClose ∈ d.log, true, d.log.count .dispose, d.timerArmed⟩
  | .failed left => left

def rejected : Opening E → Bool
  | .running d => d.promise.isRejected
  | .failed _ => true
  | _ => false

inductive Label (E : EngineApi) where
  | bound (endpoint : Text × Text)
  | bindFails
  | created (engine : E.State)
  | createFails
  | subscribed
  | subscribeFails
  | driver (l : Connection.Label)

/-- `catch`: the endpoint is closed, whether or not that throws. -/
def caught : Opening E := .failed ⟨true, true, false, 0, false⟩

def step (options : ResolvedOptions) (context : Option Text) : Opening E → Label E → Opening E
  | .binding, .bound endpoint =>
    match localAddress context endpoint with
    | some local' => .creating local'
    | none => caught
  | .binding, .bindFails => .failed (resources (E := E) .binding)
  | .creating _, .created engine => .subscribing engine
  | .creating _, .createFails => caught
  | .subscribing engine, .subscribed => .running (Connection.start options engine)
  | .subscribing engine, .subscribeFails => .failed (resources (.subscribing engine))
  | .running d, .driver l => .running (d.step l)
  | o, _ => o

/-- The step rejects the promise of a call that has its socket. -/
def Rejects (options : ResolvedOptions) (context : Option Text) (o : Opening E) (l : Label E) : Prop :=
  o.rejected = false ∧ (o.step options context l).rejected = true ∧
    (o.step options context l).resources.bound = true

instance (options : ResolvedOptions) (context : Option Text) (o : Opening E) (l : Label E) :
    Decidable (o.Rejects options context l) := inferInstanceAs (Decidable (_ ∧ _ ∧ _))

end Opening

namespace Connection

variable {E : EngineApi}

/-- A callback throws, and the exception leaves the promise's executor. -/
def throwsOut (d : Connection E) : Label → Bool
  | .raise =>
    match d.stack with
    | .callback :: .finishRest _ :: _ => false
    | .callback :: rest => (unwind rest).2
    | _ => false
  | _ => false

end Connection

/-- An exception rejects the promise past both clean-ups: one from the registration of the
handlers, or one that leaves the executor of a promise that is pending while the connection
is open. -/
def Opening.leaks {E : EngineApi} : Opening E → Opening.Label E → Bool
  | .subscribing _, .subscribeFails => true
  | .running d, .driver l => d.throwsOut l && d.promise = .pending && !d.closed
  | _, _ => false

namespace Connection

variable {E : EngineApi} {d r : Connection E}

/-- What may stand directly above what: nothing above the end of the executor but what it
called, and above the second half of a close only `endpoint.close`. -/
def Above (a b : Task) : Prop := a ≠ .executorRest ∧ (b.closes = true → a = .callback)

/-- A close that has begun is still going to dispose of the engine. -/
structure Guarded (d : Connection E) : Prop where
  stacked : d.stack.IsChain Above
  closing : d.closed = true → d.disposed = false → ∃ t ∈ d.stack, t.closes = true

theorem guarded_start (options : ResolvedOptions) (engine : E.State) :
    (start options engine).Guarded where
  stacked := List.isChain_pair.mpr ⟨nofun, nofun⟩
  closing := nofun

theorem isChain_above {above rest : List Task} (h : rest.IsChain Above)
    (hr : ∀ t ∈ rest.head?, t.closes = false)
    (ha : ∀ t ∈ above, t ≠ .executorRest ∧ t.closes = false) : (above ++ rest).IsChain Above := by
  induction above with
  | nil => exact h
  | cons t above ih =>
    obtain ⟨ht, ha⟩ := List.forall_mem_cons.mp ha
    refine List.IsChain.cons (ih ha) fun b hb => ⟨ht.1, fun hcl => ?_⟩
    cases above with
    | nil => exact absurd (hcl.symm.trans (hr b hb)) nofun
    | cons u above =>
      obtain rfl : u = b := Option.some.inj hb
      exact absurd (hcl.symm.trans (ha u (List.mem_cons_self ..)).2) nofun

/-- Only `endpoint.close` stands above the second half of a close. -/
theorem head_closes {top : Task} {rest : List Task} (h : (top :: rest).IsChain Above)
    (ht : top ≠ .callback) : ∀ t ∈ rest.head?, t.closes = false := by
  intro t hm
  by_contra hn
  exact ht ((List.isChain_cons.mp h).1 t hm |>.2 (by simpa using hn))

/-- A task goes on with others. -/
theorem Guarded.pop {top : Task} {rest : List Task} (h : d.Guarded) (hs : d.stack = top :: rest)
    (ht : top ≠ .callback) (hcl : top.closes = false) (above : List Task)
    (hr : r.stack = above ++ rest) (ha : ∀ t ∈ above, t ≠ .executorRest ∧ t.closes = false)
    (hc : r.closed = d.closed) (hd : r.disposed = d.disposed) : r.Guarded := by
  have hchain := h.stacked
  rw [hs] at hchain
  refine ⟨?_, fun hclosed hdisposed => ?_⟩
  · rw [hr]
    exact isChain_above (List.isChain_cons.mp hchain).2 (head_closes hchain ht) ha
  · obtain ⟨t, hm, htc⟩ := h.closing (hc ▸ hclosed) (hd ▸ hdisposed)
    rw [hs] at hm
    rcases List.mem_cons.mp hm with rfl | hm
    · exact absurd (hcl.symm.trans htc) nofun
    · exact ⟨t, hr ▸ List.mem_append_right _ hm, htc⟩

/-- A callback, or the event loop, starts more code. -/
theorem Guarded.enter (h : d.Guarded) (ho : d.outside = true) (above : List Task)
    (hr : r.stack = above ++ d.stack) (ha : ∀ t ∈ above, t ≠ .executorRest ∧ t.closes = false)
    (hc : r.closed = d.closed) (hd : r.disposed = d.disposed) : r.Guarded := by
  refine ⟨?_, fun hclosed hdisposed => ?_⟩
  · rw [hr]
    refine isChain_above h.stacked (fun t hm => ?_) ha
    rw [outside] at ho
    cases hs : d.stack with
    | nil =>
      rw [hs] at hm
      cases hm
    | cons top rest =>
      rw [hs] at ho hm
      obtain rfl : top = t := Option.some.inj hm
      cases top with
      | callback => rfl
      | _ => cases ho
  · obtain ⟨t, hm, htc⟩ := h.closing (hc ▸ hclosed) (hd ▸ hdisposed)
    exact ⟨t, hr ▸ List.mem_append_right _ hm, htc⟩

/-- An exception stops at the callback that guards a close. -/
theorem unwind_closes {stack : List Task} (h : stack.IsChain Above)
    (hr : ∀ t ∈ stack.head?, t.closes = false) :
    (unwind stack).1.IsChain Above ∧ ∀ t ∈ stack, t.closes = true → t ∈ (unwind stack).1 := by
  induction stack with
  | nil => exact ⟨h, nofun⟩
  | cons top rest ih =>
    have htop : top.closes = false := hr top rfl
    have hrest := (List.isChain_cons.mp h).2
    have below : ∀ t, t ∈ top :: rest → t.closes = true → t ∈ rest := by
      intro t hm ht
      refine (List.mem_cons.mp hm).resolve_left ?_
      rintro rfl
      exact absurd (htop.symm.trans ht) nofun
    have deeper : top ≠ .callback → (unwind rest).1.IsChain Above ∧
        ∀ t ∈ top :: rest, t.closes = true → t ∈ (unwind rest).1 := by
      intro hne
      obtain ⟨hc, hk⟩ := ih hrest (head_closes h hne)
      exact ⟨hc, fun t hm ht => hk t (below t hm ht) ht⟩
    cases top with
    | callback => exact ⟨h, fun t hm _ => hm⟩
    | executorRest => exact ⟨hrest, fun t hm ht => below t hm ht⟩
    | _ => exact deeper nofun

theorem head_of_ne {rest : List Task} (h : ∀ reason tasks, rest ≠ .finishRest reason :: tasks) :
    ∀ t ∈ rest.head?, t.closes = false := by
  intro t hm
  cases rest with
  | nil => cases hm
  | cons u rest =>
    obtain rfl : u = t := Option.some.inj hm
    cases u with
    | finishRest reason => exact absurd rfl (h reason rest)
    | _ => rfl

theorem Guarded.raise_step (h : d.Guarded) : d.raise.Guarded := by
  have hchain := h.stacked
  unfold raise
  split
  · rename_i reason rest hs
    rw [hs] at hchain
    refine ⟨(List.isChain_cons.mp hchain).2, fun hc hd => ?_⟩
    exact ⟨.finishRest reason, List.mem_cons_self .., rfl⟩
  · rename_i rest hne hs
    rw [hs] at hchain
    obtain ⟨hc, hk⟩ := unwind_closes (List.isChain_cons.mp hchain).2 (head_of_ne hne)
    have keep : { d with stack := (unwind rest).1 }.Guarded := by
      refine ⟨hc, fun hclosed hdisposed => ?_⟩
      obtain ⟨t, hm, ht⟩ := h.closing hclosed hdisposed
      rw [hs] at hm
      rcases List.mem_cons.mp hm with rfl | hm
      · cases ht
      · exact ⟨t, hk t hm ht, ht⟩
    dsimp only
    split
    · unfold settle
      split
      · exact ⟨keep.stacked, keep.closing⟩
      · exact keep
    · exact keep
  · exact h

theorem guarded_step (l : Label) (h : d.Guarded) : (d.step l).Guarded := by
  have hact := action_step d l
  generalize d.step l = r at hact ⊢
  have one : ∀ t : Task, t ≠ .executorRest → t.closes = false →
      ∀ x ∈ [t], x ≠ .executorRest ∧ x.closes = false :=
    fun t ht hc => List.forall_mem_singleton.mpr ⟨ht, hc⟩
  have two : ∀ t : Task, t ≠ .executorRest → t.closes = false →
      ∀ x ∈ [.callback, t], x ≠ .executorRest ∧ x.closes = false :=
    fun t ht hc => List.forall_mem_cons.mpr ⟨⟨nofun, rfl⟩, one t ht hc⟩
  cases hact with
  | nothing => exact h
  | send data ho hh =>
    obtain ⟨m, hm, hr⟩ := inside_handleSend d data
    rcases hr with hr | hr
    · rw [hr]
      exact h.enter ho [] hm.stack nofun hm.closed hm.disposed
    · rw [hr]
      exact h.enter ho [.pump] (congrArg (Task.pump :: ·) hm.stack) (one _ nofun rfl) hm.closed
        hm.disposed
  | close ho hh hc =>
    refine h.enter ho [.pump, .finish "local".toList] rfl ?_ rfl rfl
    exact List.forall_mem_cons.mpr ⟨⟨nofun, rfl⟩, one _ nofun rfl⟩
  | stats ho hh =>
    have hm := inside_handleStats d
    exact h.enter ho [] hm.stack nofun hm.closed hm.disposed
  | error message ho => exact h.enter ho [.finish message] rfl (one _ nofun rfl) rfl rfl
  | feed _ m hi hm hf =>
    exact h.enter (outside_of_idle hi) [.pump] (congrArg (Task.pump :: ·) hm.stack)
      (one _ nofun rfl) hm.closed hm.disposed
  | wait _ m hi hm hw =>
    exact h.enter (outside_of_idle hi) [] hm.stack nofun hm.closed hm.disposed
  | resume hi hp => exact ⟨h.stacked, h.closing⟩
  | ret rest hs =>
    have hchain := h.stacked
    rw [hs] at hchain
    refine ⟨(List.isChain_cons.mp hchain).2, fun hc hd => ?_⟩
    obtain ⟨t, hm, ht⟩ := h.closing hc hd
    rw [hs] at hm
    rcases List.mem_cons.mp hm with rfl | hm
    · cases ht
    · exact ⟨t, hm, ht⟩
  | raise => exact h.raise_step
  | idles now task rest hs ht =>
    cases ht <;> exact h.pop hs nofun rfl [] rfl nofun rfl rfl
  | pump now rest hs hcl =>
    have hm := inside_pumpHead { d with stack := rest } now
    refine h.pop hs nofun rfl [d.pumpLoop] (congrArg (d.pumpLoop :: ·) hm.stack) ?_ hm.closed
      hm.disposed
    unfold pumpLoop
    split <;> exact one _ nofun rfl
  | drain now events engine short rest hs hcl hd hshort =>
    exact h.pop hs nofun rfl _ rfl (one _ nofun rfl) rfl rfl
  | poll now event engine rest hs hp he => exact h.pop hs nofun rfl _ rfl (one _ nofun rfl) rfl rfl
  | pollNone now engine rest hs hp => exact h.pop hs nofun rfl [] rfl nofun rfl rfl
  | apply now event events source rest hs =>
    cases event with
    | none => exact h.pop hs nofun rfl _ rfl (one _ nofun rfl) rfl rfl
    | closed reason => exact h.pop hs nofun rfl _ rfl (one _ nofun rfl) rfl rfl
    | datagram data => exact h.pop hs nofun rfl _ rfl (two _ nofun rfl) rfl rfl
    | message data => exact h.pop hs nofun rfl _ rfl (two _ nofun rfl) rfl rfl
    | opened =>
      unfold applyEvent
      dsimp only
      split
      · exact h.pop hs nofun rfl _ rfl (one _ nofun rfl) rfl rfl
      · refine h.pop hs nofun rfl [.callback, .settleOpen, .apply events source] rfl ?_ rfl rfl
        exact List.forall_mem_cons.mpr ⟨⟨nofun, rfl⟩, List.forall_mem_cons.mpr ⟨⟨nofun, rfl⟩,
          one _ nofun rfl⟩⟩
  | loop now source loop rest hs hloop =>
    refine h.pop hs nofun rfl [loop] rfl ?_ rfl rfl
    rcases source with (_ | _) | _ <;> cases hloop <;> exact one _ nofun rfl
  | settleOpen now rest hs =>
    obtain ⟨hst, _, _⟩ := settle_status (d := { d with stack := rest }) .resolved
    exact h.pop hs nofun rfl [] (congrArg Status.stack hst) nofun (congrArg Status.closed hst)
      (congrArg Status.disposed hst)
  | finish now reason rest hs hcl =>
    obtain ⟨hst, _, _⟩ := finish_status (d := { d with stack := rest }) reason hcl
    have hstack : ({ d with stack := rest }.finish reason).stack =
        .callback :: .finishRest reason :: rest := congrArg Status.stack hst
    have hchain := h.stacked
    rw [hs] at hchain
    refine ⟨?_, fun _ _ => ⟨.finishRest reason, hstack ▸ List.mem_cons_of_mem _
      (List.mem_cons_self ..), rfl⟩⟩
    rw [hstack]
    have hrest : ([] ++ rest).IsChain Above :=
      isChain_above (List.isChain_cons.mp hchain).2 (head_closes hchain nofun) nofun
    refine List.IsChain.cons (List.IsChain.cons hrest fun b hb => ⟨nofun, fun hc => ?_⟩) ?_
    · exact absurd (hc.symm.trans (head_closes hchain nofun b hb)) nofun
    · intro b hb
      exact ⟨nofun, fun _ => rfl⟩
  | finishRest now reason rest hs =>
    obtain ⟨_, hd, _, _⟩ := finishRest_fields d rest reason
    obtain ⟨hst, _, _⟩ := finishRest_status (d := { d with stack := rest }) reason
    have hchain := h.stacked
    rw [hs] at hchain
    have hrest := (List.isChain_cons.mp hchain).2
    refine ⟨?_, fun _ hn => absurd (hd.symm.trans hn) nofun⟩
    by_cases ho : d.opened = true
    · have ho' : ({ d with stack := rest } : Connection E).opened = true := ho
      rw [if_pos ho'] at hst
      have hstack : ({ d with stack := rest }.finishRest reason).stack = [.callback] ++ rest :=
        congrArg Status.stack hst
      rw [hstack]
      exact isChain_above hrest (head_closes hchain nofun) (one _ nofun rfl)
    · have ho' : ¬ ({ d with stack := rest } : Connection E).opened = true := ho
      rw [if_neg ho'] at hst
      have hstack : ({ d with stack := rest }.finishRest reason).stack = rest :=
        congrArg Status.stack hst
      rw [hstack]
      exact hrest
  | executorRest now rest hs =>
    have hst := (executorRest_status (d := { d with stack := rest })).1
    exact h.pop hs nofun rfl [] (congrArg Status.stack hst) nofun (congrArg Status.closed hst)
      (congrArg Status.disposed hst)

/-- What the history says of the endpoint and the engine. -/
structure Cleaned (d : Connection E) : Prop where
  endpoint : d.closed = true → .endpointClose ∈ d.log
  disposals : d.log.count .dispose = d.disposed.toNat

theorem cleaned_step (l : Label) (hl : d.Ledger) (h : d.Cleaned) : (d.step l).Cleaned := by
  have hturn := turn_step d l
  generalize d.step l = r at hturn ⊢
  have plain : ∀ {m : Connection E}, m.closed = d.closed → m.disposed = d.disposed →
      (∃ es, m.log = d.log ++ es ∧ ∀ e ∈ es, e ≠ .dispose ∧ e.isOnClose = false) → m.Cleaned := by
    intro m hc hd hlog
    obtain ⟨es, hlog, he⟩ := hlog
    have hz : es.count .dispose = 0 := List.count_eq_zero.mpr fun hm => (he _ hm).1 rfl
    refine ⟨fun hcl => ?_, ?_⟩
    · rw [hlog]
      exact List.mem_append_left _ (h.endpoint (hc ▸ hcl))
    · rw [hlog, List.count_append, hz, hd]
      exact h.disposals
  cases hturn with
  | inert _ _ closed disposed queue sends options stack timer log =>
    obtain ⟨es, hlog, he⟩ := log
    exact plain closed disposed ⟨es, hlog, fun e hm => Effect.plain_of_inert (he e hm)⟩
  | flush now m rest loop hs hc hb hm hloop =>
    obtain ⟨es, hlog, he⟩ := hm.log
    have hf := sends_flushFrom m.queue m
    obtain ⟨fs, hlog', hf'⟩ := hf.log
    refine plain (m := m.flushQueue.push [loop]) (hf.closed.trans hm.closed)
      (hf.disposed.trans hm.disposed) ⟨es ++ fs, ?_, fun e hme => ?_⟩
    · rw [← List.append_assoc, ← hlog]
      exact hlog'
    · exact (List.mem_append.mp hme).elim (fun h => Effect.plain_of_inert (he e h)) (hf' e)
  | send data =>
    have hs := sends_handleSend d data
    exact plain hs.closed hs.disposed hs.log
  | finish now reason rest hs hc =>
    obtain ⟨hst, _, hlog⟩ := finish_status (d := { d with stack := rest }) reason hc
    have hz : ∀ armed : Bool,
        ((if armed then [Effect.cancelTimer] else []) ++ [Effect.endpointClose]).count .dispose = 0 := by
      decide
    refine ⟨fun _ => ?_, ?_⟩
    · rw [hlog]
      exact List.mem_append_right _ (List.mem_append_right _ (List.mem_singleton_self _))
    · have hd : ({ d with stack := rest }.finish reason).disposed = d.disposed :=
        congrArg Status.disposed hst
      rw [hlog, List.count_append, hz, hd]
      exact h.disposals
  | finishRest now reason rest hs =>
    obtain ⟨hcl, hd, _, _⟩ := finishRest_fields d rest reason
    have hlog := finishRest_log d rest reason
    have hbefore : d.disposed.toNat = 0 := by
      have hb := hl.budget
      have hone : closings (.finishRest reason :: rest) = closings rest + 1 := closings_cons ..
      have hle : d.closed.toNat ≤ 1 := Bool.toNat_le _
      rw [hs, hone] at hb
      omega
    have hz : ∀ opened : Bool,
        (if opened then [Effect.onClose reason] else []).count Effect.dispose = 0 := by
      intro opened
      cases opened <;> rfl
    refine ⟨fun hc => ?_, ?_⟩
    · rw [hlog]
      exact List.mem_append_left _ (h.endpoint (hcl ▸ hc))
    · rw [hlog, hd, List.count_append, List.count_cons, hz, h.disposals, hbefore]
      rfl

/-- What holds of a connection however its callbacks end. -/
structure Kept (d : Connection E) : Prop where
  ledger : d.Ledger
  guarded : d.Guarded
  cleaned : d.Cleaned

theorem kept_start (options : ResolvedOptions) (engine : E.State) : (start options engine).Kept where
  ledger := ledger_start options engine
  guarded := guarded_start options engine
  cleaned := ⟨nofun, rfl⟩

theorem kept_step (l : Label) (h : d.Kept) : (d.step l).Kept where
  ledger := ledger_turn (turn_step d l) h.ledger
  guarded := guarded_step l h.guarded
  cleaned := cleaned_step l h.ledger h.cleaned

/-- All is released once the engine is disposed of. -/
theorem Kept.released_iff (h : d.Kept) :
    (Opening.running d).resources.Released ↔ d.disposed = true := by
  constructor
  · intro hr
    have hone : d.log.count .dispose = 1 := hr.2.1 rfl
    rw [h.cleaned.disposals] at hone
    cases hd : d.disposed with
    | true => rfl
    | false =>
      rw [hd] at hone
      cases hone
  · intro hd
    have hc := h.ledger.closed hd
    refine ⟨decide_eq_true (h.cleaned.endpoint hc), fun _ => ?_, h.ledger.timer hc⟩
    show d.log.count .dispose = 1
    rw [h.cleaned.disposals, hd]
    rfl

/-- Nothing stands below the end of the executor. -/
theorem rest_nil {rest : List Task} (h : (Task.executorRest :: rest).IsChain Above) : rest = [] := by
  cases rest with
  | nil => rfl
  | cons t rest => exact absurd rfl ((List.isChain_cons.mp h).1 t rfl).1

theorem unwind_out {stack : List Task} (h : stack.IsChain Above) (ho : (unwind stack).2 = true) :
    (unwind stack).1 = [] := by
  induction stack with
  | nil => rfl
  | cons top rest ih =>
    have hrest := (List.isChain_cons.mp h).2
    cases top with
    | callback => cases ho
    | executorRest => exact rest_nil h
    | _ => exact ih hrest ho

/-- At the end of the executor no close is under way, -/
theorem Guarded.disposed_executorRest {rest : List Task} (h : d.Guarded)
    (hs : d.stack = .executorRest :: rest) (hc : d.closed = true) : d.disposed = true := by
  have hchain := h.stacked
  rw [hs] at hchain
  by_contra hd
  obtain ⟨t, hm, ht⟩ := h.closing hc (by simpa using hd)
  rw [hs, rest_nil hchain, List.mem_singleton] at hm
  subst hm
  cases ht

/-- nor where an exception leaves it. -/
theorem Guarded.disposed_thrown {rest : List Task} (h : d.Guarded)
    (hs : d.stack = .callback :: rest) (hr : ∀ t ∈ rest.head?, t.closes = false)
    (ho : (unwind rest).2 = true) (hc : d.closed = true) : d.disposed = true := by
  have hchain := h.stacked
  rw [hs] at hchain
  have hrest := (List.isChain_cons.mp hchain).2
  by_contra hd
  obtain ⟨t, hm, ht⟩ := h.closing hc (by simpa using hd)
  rw [hs] at hm
  rcases List.mem_cons.mp hm with rfl | hm
  · cases ht
  · have hin := (unwind_closes hrest hr).2 t hm ht
    rw [unwind_out hrest ho] at hin
    cases hin

theorem throwsOut_eq {rest : List Task} (hs : d.stack = .callback :: rest)
    (hne : ∀ reason tasks, rest ≠ .finishRest reason :: tasks) :
    d.throwsOut .raise = (unwind rest).2 := by
  rw [throwsOut, hs]
  split
  · rename_i h
    exact absurd (List.cons.inj h).2 (hne _ _)
  · rename_i h
    rw [(List.cons.inj h).2]
  · rename_i h
    exact absurd rfl (h rest)

theorem disposed_raise (h : d.Kept) (hp : d.promise.isRejected = false)
    (hr : d.raise.promise.isRejected = true) :
    d.raise.disposed = true ↔ ¬ (d.throwsOut .raise = true ∧ d.promise = .pending ∧ d.closed = false) := by
  have same : d.raise.promise = d.promise → False := by
    intro he
    rw [he, hp] at hr
    cases hr
  revert hr same
  unfold raise
  split
  · exact fun _ same => (same rfl).elim
  · rename_i rest hne hs
    dsimp only
    split
    · rename_i ho
      intro _ same
      obtain ⟨hst, _, _⟩ := settle_status (d := { d with stack := (unwind rest).1 })
        (.rejected .thrown)
      have hpend : d.promise = .pending := by
        by_contra hn
        exact same ((congrArg Status.promise hst).trans (if_neg hn))
      have hdisposed := congrArg Status.disposed hst
      constructor
      · rintro hd ⟨_, _, hc⟩
        exact absurd (hc.symm.trans (h.ledger.closed (hdisposed.symm.trans hd))) nofun
      · intro hn
        refine hdisposed.trans (h.guarded.disposed_thrown hs (head_of_ne hne) ho ?_)
        by_contra hc
        exact hn ⟨(throwsOut_eq hs hne).trans ho, hpend, by simpa using hc⟩
    · exact fun _ same => (same rfl).elim
  · exact fun _ same => (same rfl).elim

/-- A step that rejects the promise leaves nothing behind unless an exception leaves the
executor of an open connection. -/
theorem disposed_rejects (h : d.Kept) (l : Label) (hp : d.promise.isRejected = false)
    (hr : (d.step l).promise.isRejected = true) : (d.step l).disposed = true ↔
      ¬ (d.throwsOut l = true ∧ d.promise = .pending ∧ d.closed = false) := by
  have hact := action_step d l
  generalize d.step l = r at hact hr ⊢
  have same : r.promise = d.promise → (r.disposed = true ↔
      ¬ (d.throwsOut l = true ∧ d.promise = .pending ∧ d.closed = false)) := by
    intro he
    rw [he, hp] at hr
    cases hr
  cases hact with
  | nothing => exact same rfl
  | send data =>
    obtain ⟨m, hm, hs⟩ := inside_handleSend d data
    rcases hs with hs | hs
    · exact same (hs ▸ hm.promise)
    · exact same (hs ▸ hm.promise)
  | close => exact same rfl
  | stats => exact same (inside_handleStats d).promise
  | error message => exact same rfl
  | feed _ m hi hm hf => exact same hm.promise
  | wait _ m hi hm hw => exact same hm.promise
  | resume => exact same rfl
  | ret rest hs => exact same rfl
  | raise => exact disposed_raise h hp hr
  | idles => exact same rfl
  | pump now rest hs hc => exact same (inside_pumpHead { d with stack := rest } now).promise
  | drain => exact same rfl
  | poll => exact same rfl
  | pollNone => exact same rfl
  | apply now event events source rest hs =>
    refine same ?_
    cases event with
    | opened =>
      unfold applyEvent
      dsimp only
      split <;> rfl
    | _ => rfl
  | loop => exact same rfl
  | settleOpen now rest hs =>
    obtain ⟨hst, _, _⟩ := settle_status (d := { d with stack := rest }) .resolved
    have hpromise : ({ d with stack := rest }.settleOpen).promise =
      if d.promise = .pending then .resolved else d.promise := congrArg Status.promise hst
    rw [hpromise] at hr
    split at hr
    · cases hr
    · rw [hp] at hr
      cases hr
  | finish now reason rest hs hc =>
    exact same (congrArg Status.promise (finish_status (d := { d with stack := rest }) reason hc).1)
  | finishRest now reason rest hs =>
    exact iff_of_true (finishRest_fields d rest reason).2.1 fun hn => nomatch hn.1
  | executorRest now rest hs =>
    obtain ⟨hst, _, _⟩ := executorRest_status (d := { d with stack := rest })
    refine iff_of_true ?_ fun hn => nomatch hn.1
    refine (congrArg Status.disposed hst).trans (h.guarded.disposed_executorRest hs ?_)
    by_contra hc
    have hc : d.closed = false := by simpa using hc
    have hpromise : ({ d with stack := rest }.executorRest).promise =
      if d.promise = .pending then if d.opened then .resolved else .pending else d.promise := by
      refine (congrArg Status.promise hst).trans ?_
      simp only [hc, Bool.false_eq_true, if_false]
    rw [hpromise] at hr
    split at hr
    · split at hr <;> cases hr
    · rw [hp] at hr
      cases hr

/-- Such an exception rejects a pending promise. -/
theorem rejected_throwsOut {l : Label} (ht : d.throwsOut l = true) (hp : d.promise = .pending) :
    (d.step l).promise.isRejected = true := by
  cases l with
  | raise =>
    show d.raise.promise.isRejected = true
    rw [throwsOut] at ht
    unfold raise
    split
    · rename_i hs
      rw [hs] at ht
      cases ht
    · rename_i rest hne hs
      rw [← throwsOut, throwsOut_eq hs hne] at ht
      dsimp only
      rw [if_pos ht]
      have hst := (settle_status (d := { d with stack := (unwind rest).1 }) (.rejected .thrown)).1
      exact congrArg Promise.isRejected ((congrArg Status.promise hst).trans (if_pos hp))
    · rename_i hne
      split at ht
      · cases ht
      · rename_i rest _ hs
        exact absurd hs (hne rest)
      · cases ht
  | _ => cases ht

end Connection

namespace Opening

variable {E : EngineApi} {options : ResolvedOptions} {context : Option Text}

/-- What a call keeps once its connection runs. -/
def Sound : Opening E → Prop
  | .running d => d.Kept
  | _ => True

theorem sound_step (o : Opening E) (l : Label E) (h : o.Sound) : (o.step options context l).Sound := by
  unfold step
  split
  · split <;> trivial
  · trivial
  · trivial
  · trivial
  · exact Connection.kept_start options _
  · trivial
  · exact Connection.kept_step _ h
  · exact h

theorem released_caught : (caught : Opening E).resources.Released := ⟨rfl, nofun, rfl⟩

theorem leaks_running {d : Connection E} {l : Connection.Label} :
    (Opening.running d).leaks (.driver l) = true ↔
      d.throwsOut l = true ∧ d.promise = .pending ∧ d.closed = false := by
  rw [leaks, Bool.and_eq_true, Bool.and_eq_true, decide_eq_true_eq, Bool.not_eq_true', and_assoc]

theorem releases_running (d : Connection E) (l : Connection.Label) (h : d.Kept) :
    ((Opening.running d).Rejects options context (.driver l) →
      (Opening.running (d.step l)).resources.Released) ↔
      (Opening.running d).leaks (.driver l) = false := by
  have hnext := Connection.kept_step l h
  constructor
  · intro hrel
    by_contra hn
    obtain ⟨ht, hp, hc⟩ := leaks_running.mp (by simpa using hn)
    have hr := Connection.rejected_throwsOut ht hp
    have hnot : d.promise.isRejected = false := by
      rw [hp]
      rfl
    have hdisposed := hnext.released_iff.mp (hrel ⟨hnot, hr, rfl⟩)
    exact (Connection.disposed_rejects h l hnot hr).mp hdisposed ⟨ht, hp, hc⟩
  · intro hl hr
    refine hnext.released_iff.mpr ((Connection.disposed_rejects h l hr.1 hr.2.1).mpr fun hleak => ?_)
    exact absurd (hl.symm.trans (leaks_running.mpr hleak)) nofun

/-- A rejection releases all that the call holds exactly when it is no leak. -/
theorem releases_iff (o : Opening E) (l : Label E) (h : o.Sound) :
    (o.Rejects options context l → (o.step options context l).resources.Released) ↔
      o.leaks l = false := by
  have stays : ∀ {o' : Opening E}, o.step options context l = o' → o'.rejected = false →
      o.leaks l = false → ((o.Rejects options context l →
        (o.step options context l).resources.Released) ↔ o.leaks l = false) := by
    intro o' hs ho hl
    exact iff_of_true
      (fun hr => absurd (ho.symm.trans ((congrArg rejected hs).symm.trans hr.2.1)) nofun) hl
  cases o with
  | running d =>
    cases l with
    | driver l => exact releases_running d l h
    | _ => exact iff_of_true (fun hr => absurd (hr.1.symm.trans hr.2.1) nofun) rfl
  | binding =>
    cases l with
    | bound endpoint =>
      refine iff_of_true (fun hr => ?_) rfl
      cases hl : localAddress context endpoint with
      | none =>
        rw [step, hl]
        exact released_caught
      | some local' =>
        have hrej := hr.2.1
        rw [step, hl] at hrej
        cases hrej
    | bindFails => exact iff_of_true (fun hr => absurd hr.2.2 nofun) rfl
    | _ => exact stays rfl rfl rfl
  | creating local' =>
    cases l with
    | createFails => exact iff_of_true (fun _ => released_caught) rfl
    | _ => exact stays rfl rfl rfl
  | subscribing engine =>
    cases l with
    | subscribeFails =>
      exact iff_of_false (fun hrel => nomatch (hrel ⟨rfl, rfl, rfl⟩).1) nofun
    | _ => exact stays rfl rfl rfl
  | failed left => exact iff_of_true (fun hr => absurd hr.1 nofun) (by cases l <;> rfl)

/-- **A failed connection leaks nothing** exactly when no exception comes from the registration
of the handlers and none leaves the executor of a pending promise while the connection is
open: then, and only then, each step that rejects the promise of a bound call finds its
endpoint closed, its engine disposed of once, and no timer armed. -/
theorem leaks_nothing_iff (options : ResolvedOptions) (context : Option Text)
    (labels : List (Label E)) :
    Meets (step options context) (fun o l => o.Rejects options context l →
        (o.step options context l).resources.Released) .binding labels ↔
      Meets (step options context) (fun o l => o.leaks l = false) .binding labels :=
  meets_congr sound_step releases_iff trivial

/-- The first pump has a datagram to send, and `endpoint.send` throws. -/
def throwsInSend : List (Label Script.dialing) :=
  [.bound ("127.0.0.1".toList, "40000".toList),
    .created ({ settled := false, events := [.datagram [1]] } : Script.Dial), .subscribed] ++
    (Script.steps 3 ++ [Connection.Label.raise]).map .driver

/-- The promise is rejected with the endpoint open, the engine alive and the timer armed. -/
theorem leaks_all :
    (run (step Script.batched none) .binding throwsInSend).rejected = true ∧
      (run (step Script.batched none) .binding throwsInSend).resources =
        { bound := true, endpointClosed := false, created := true, disposals := 0,
          timerArmed := true } ∧
      ¬ Meets (step Script.batched none) (fun o l => o.Rejects Script.batched none l →
        (o.step Script.batched none l).resources.Released) .binding throwsInSend := by
  refine ⟨by decide +kernel, by decide +kernel, by decide +kernel⟩

end Opening

end RtcTunnel.Driver
