import RtcTunnel.Driver.Action
import RtcTunnel.Driver.Order

/-!
# What a connection stores for later

Messages wait in `queue` until a pump sends them, and datagrams wait in `inbound` until
a scheduled flush feeds them. `Outgoing` and `Incoming` are the two stores with the
entries of the log that are about them. Six pieces of code write there; `Posting` names
them, and the rest leaves both stores aside.
-/

namespace RtcTunnel.Driver

open RtcTunnel.Core
open RtcTunnel.Base.Run

set_option autoImplicit false

/-- An effect about a message: the engine is asked to send it, or its sender is answered. -/
def Effect.entered : Effect → Bool
  | .sent _ _ => true
  | .engine (.send _ _) => true
  | _ => false

/-- The datagram that the engine is fed. -/
def Effect.feeds : Effect → Option Bytes
  | .engine (.input data) => some data
  | .engine (.inputDeferred data) => some data
  | _ => none

/-- An effect about neither store. -/
def Effect.aside (e : Effect) : Bool := !e.entered && e.feeds.isNone

structure Outgoing where
  options : ResolvedOptions
  closed : Bool
  queue : List Packet
  queuedBytes : Int
  refusedSends : Nat
  sends : Nat
  entries : List Effect

structure Incoming where
  inbound : List Bytes
  inboundScheduled : Bool
  fed : List Bytes

namespace Connection

variable {E : EngineApi}

def outgoing (d : Connection E) : Outgoing where
  options := d.options
  closed := d.closed
  queue := d.queue
  queuedBytes := d.queuedBytes
  refusedSends := d.refusedSends
  sends := d.sends
  entries := d.log.filter Effect.entered

/-- The datagrams fed to the engine, in the order they were. -/
def fed (d : Connection E) : List Bytes := d.log.filterMap Effect.feeds

def incoming (d : Connection E) : Incoming where
  inbound := d.inbound
  inboundScheduled := d.inboundScheduled
  fed := d.fed

/-- Code that leaves both stores aside. -/
structure Aside (d r : Connection E) : Prop where
  outgoing : r.outgoing = d.outgoing
  incoming : r.incoming = d.incoming

variable {d r s : Connection E}

theorem Aside.refl (d : Connection E) : d.Aside d := ⟨rfl, rfl⟩

theorem Aside.trans (h : d.Aside r) (h' : r.Aside s) : d.Aside s :=
  ⟨h'.outgoing.trans h.outgoing, h'.incoming.trans h.incoming⟩

theorem aside_record (d : Connection E) {e : Effect} (he : e.aside = true) :
    d.Aside (d.record e) := by
  have h : e.entered = false ∧ e.feeds = none := by simpa [Effect.aside] using he
  have hl : (d.log ++ [e]).filter Effect.entered = d.log.filter Effect.entered := by
    simp [h.1]
  have hf : (d.log ++ [e]).filterMap Effect.feeds = d.log.filterMap Effect.feeds := by
    simp [h.2]
  refine ⟨?_, ?_⟩
  · simp only [Connection.outgoing, record, hl]
  · simp only [Connection.incoming, fed, record, hf]

theorem Aside.record (h : d.Aside r) {e : Effect} (he : e.aside = true) : d.Aside (r.record e) :=
  h.trans (aside_record r he)

theorem Aside.call (h : d.Aside r) {c : EngineCall} (hc : (Effect.engine c).aside = true)
    (engine : E.State) : d.Aside (r.call c engine) :=
  (h.trans (s := { r with engine := engine }) ⟨rfl, rfl⟩).record hc

theorem aside_settle (d : Connection E) (p : Promise) : d.Aside (d.settle p) := by
  unfold settle
  split <;> exact ⟨rfl, rfl⟩

theorem aside_cancelArmed (d : Connection E) : d.Aside d.cancelArmed := by
  unfold cancelArmed
  split
  · exact (Aside.refl d).record rfl
  · exact .refl d

theorem aside_schedule (d : Connection E) (now : F64) : d.Aside (d.schedule now) := by
  have hc : d.Aside (d.call .nextDeadline (E.nextDeadline d.engine).2) :=
    (Aside.refl d).call rfl _
  unfold schedule
  split
  · exact .refl d
  · dsimp only
    split
    · exact hc
    · split
      · exact hc
      · have ha := hc.trans (aside_cancelArmed _)
        refine Aside.record (e := .setTimer _ now) ?_ rfl
        exact ha.trans ⟨rfl, rfl⟩

theorem aside_executorRest (d : Connection E) : d.Aside d.executorRest := by
  unfold executorRest
  split
  · exact aside_settle d _
  · split
    · exact aside_settle d _
    · exact .refl d

theorem aside_ask {α : Type} (h : d.Aside r) {c : EngineCall}
    (hc : (Effect.engine c).aside = true) (method : Option (E.State → α × E.State)) :
    d.Aside (r.ask c method).2 := by
  unfold ask
  cases method with
  | none => exact h
  | some f => exact h.call hc _

theorem aside_handleStats (d : Connection E) : d.Aside d.handleStats :=
  (aside_ask (aside_ask (aside_ask (.refl d) rfl _) rfl _) rfl _).record rfl

theorem aside_drainLoop (d : Connection E) : d.Aside d.drainLoop := by
  unfold drainLoop
  split
  · exact .refl d
  · split
    · exact .refl d
    · exact ((Aside.refl d).call rfl _).trans ⟨rfl, rfl⟩

theorem aside_pollLoop (d : Connection E) : d.Aside d.pollLoop := by
  have hc := (Aside.refl d).call (c := .pollEvent) rfl (E.pollEvent d.engine).2
  unfold pollLoop
  dsimp only
  split
  · exact hc
  · exact hc.trans ⟨rfl, rfl⟩

theorem aside_apply (d : Connection E) (events : List EngineEvent) (source : Source) :
    d.Aside (d.apply events source) := by
  have hr := Aside.refl d
  cases events with
  | nil =>
    cases source with
    | batch short => cases short <;> exact ⟨rfl, rfl⟩
    | poll => exact ⟨rfl, rfl⟩
  | cons event events =>
    cases event with
    | none => exact ⟨rfl, rfl⟩
    | closed reason => exact ⟨rfl, rfl⟩
    | datagram data => exact (hr.record (e := .endpointSend data) rfl).trans ⟨rfl, rfl⟩
    | message data => exact (hr.record (e := .onPacket data) rfl).trans ⟨rfl, rfl⟩
    | opened =>
      unfold apply applyEvent
      dsimp only
      split
      · exact ⟨rfl, rfl⟩
      · have ho : d.Aside { d with opened := true } := ⟨rfl, rfl⟩
        exact (ho.record (e := .onOpen) rfl).trans ⟨rfl, rfl⟩

theorem aside_finishRest (d : Connection E) (reason : Text) : d.Aside (d.finishRest reason) := by
  have hd : d.Aside { d with engine := E.dispose d.engine, disposed := true } := ⟨rfl, rfl⟩
  have hr := hd.record (e := .dispose) rfl
  unfold finishRest
  dsimp only
  split
  · exact (hr.record (e := .onClose reason) rfl).trans ⟨rfl, rfl⟩
  · exact hr.trans (aside_settle _ _)

theorem aside_handleClose (d : Connection E) : d.Aside d.handleClose := by
  unfold handleClose
  split
  · exact .refl d
  · exact ((Aside.refl d).call rfl _).trans ⟨rfl, rfl⟩

theorem aside_raise (d : Connection E) : d.Aside d.raise := by
  unfold raise
  split
  · exact ⟨rfl, rfl⟩
  · rename_i rest _ _
    have hd : d.Aside { d with stack := (unwind rest).1 } := ⟨rfl, rfl⟩
    dsimp only
    split
    · exact hd.trans (aside_settle _ _)
    · exact hd
  · exact .refl d

theorem aside_timerFires (d : Connection E) (now : F64) : d.Aside (d.timerFires now) := by
  have ht : d.Aside { d with timerArmed := false, scheduledDeadline := none } := ⟨rfl, rfl⟩
  exact (ht.call rfl _).trans ⟨rfl, rfl⟩

/-- The message that a step gives to `handle.send` of an open connection. -/
def gives (d : Connection E) : Label → List Packet
  | .send data =>
    if d.outside && d.handed && (!d.closed && d.opened) then [⟨d.sends, data⟩] else []
  | _ => []

/-- The datagram that a step brings from the socket. -/
def receives (d : Connection E) : Label → List Bytes
  | .datagram _ data => if d.idle then [data] else []
  | _ => []

/-- **What one step writes in the stores.** -/
inductive Posting (d : Connection E) : Label → Connection E → Prop where
  | aside (l : Label) (r : Connection E) (h : d.Aside r) (hg : d.gives l = [])
      (hr : d.receives l = []) : Posting d l r
  | flush (now : F64) (m : Connection E) (tasks : List Task) (hm : d.Aside m) (hc : d.closed = false) :
      Posting d (.advance now) (m.flushQueue.push tasks)
  | finish (now : F64) (reason : Text) (m : Connection E) (hm : d.Aside m) (hc : d.closed = false) :
      Posting d (.advance now) (m.finish reason)
  | send (data : Bytes) (h : (d.outside && d.handed) = true) :
      Posting d (.send data) (d.handleSend data)
  | receive (now : F64) (data : Bytes) (hi : d.idle = true) :
      Posting d (.datagram now data) (d.onMessage now data)
  | flushInbound (now : F64) (hi : d.idle = true) (hs : d.inboundScheduled = true) :
      Posting d (.flushInbound now) (d.flushInbound now)

theorem posting_advance (d : Connection E) (now : F64) :
    d.Posting (.advance now) (d.step (.advance now)) := by
  have aside : ∀ {r : Connection E}, d.Aside r → d.Posting (.advance now) r :=
    fun h => .aside _ _ h rfl rfl
  rw [step]
  split
  · exact aside (.refl d)
  · exact aside (.refl d)
  · rename_i task rest _ _
    have hd : d.Aside { d with stack := rest } := ⟨rfl, rfl⟩
    cases task with
    | callback => exact aside hd
    | pump =>
      have hm := hd.trans (aside_schedule _ now)
      rw [exec, pump]
      split
      · exact aside hd
      · rename_i hc
        dsimp only
        split
        · exact .flush now _ _ hm (Bool.eq_false_iff.mpr hc)
        · exact aside (hm.trans ⟨rfl, rfl⟩)
    | drainLoop => exact aside (hd.trans (aside_drainLoop _))
    | pollLoop => exact aside (hd.trans (aside_pollLoop _))
    | apply events source => exact aside (hd.trans (aside_apply _ events source))
    | settleOpen => exact aside (hd.trans (aside_settle _ _))
    | finish reason =>
      by_cases hc : d.closed = true
      · have he : { d with stack := rest }.finish reason = { d with stack := rest } := if_pos hc
        rw [exec, he]
        exact aside hd
      · exact .finish now reason _ hd (Bool.eq_false_iff.mpr hc)
    | finishRest reason => exact aside (hd.trans (aside_finishRest _ reason))
    | executorRest => exact aside (hd.trans (aside_executorRest _))

theorem posting_step (d : Connection E) (l : Label) : d.Posting l (d.step l) := by
  cases l with
  | advance now => exact posting_advance d now
  | ret =>
    rw [step]
    split <;> exact .aside _ _ ⟨rfl, rfl⟩ rfl rfl
  | raise => exact .aside _ _ (aside_raise d) rfl rfl
  | send data =>
    cases h : d.outside && d.handed with
    | true =>
      rw [step, h]
      exact .send data h
    | false =>
      rw [step, h]
      refine .aside _ _ (.refl d) ?_ rfl
      simp only [gives, h, Bool.false_and, Bool.false_eq_true, if_false]
  | close =>
    rw [step]
    split
    · exact .aside _ _ (aside_handleClose d) rfl rfl
    · exact .aside _ _ (.refl d) rfl rfl
  | stats =>
    rw [step]
    split
    · exact .aside _ _ (aside_handleStats d) rfl rfl
    · exact .aside _ _ (.refl d) rfl rfl
  | error message =>
    rw [step]
    split <;> exact .aside _ _ ⟨rfl, rfl⟩ rfl rfl
  | datagram now data =>
    cases h : d.idle with
    | true =>
      rw [step, h]
      exact .receive now data h
    | false =>
      rw [step, h]
      refine .aside _ _ (.refl d) rfl ?_
      simp only [receives, h, Bool.false_eq_true, if_false]
  | flushInbound now =>
    cases h : d.idle && d.inboundScheduled with
    | true =>
      rw [step, h]
      have hb := Bool.and_eq_true_iff.mp h
      exact .flushInbound now hb.1 hb.2
    | false =>
      rw [step, h]
      exact .aside _ _ (.refl d) rfl rfl
  | flushOutbound =>
    rw [step]
    split <;> exact .aside _ _ ⟨rfl, rfl⟩ rfl rfl
  | timer now =>
    rw [step]
    split
    · exact .aside _ _ (aside_timerFires d now) rfl rfl
    · exact .aside _ _ (.refl d) rfl rfl
  | resume =>
    rw [step]
    split <;> exact .aside _ _ ⟨rfl, rfl⟩ rfl rfl

/-- What was set when the connection was opened stays. -/
theorem options_run (d : Connection E) (labels : List Label) :
    (run step d labels).options = d.options :=
  invariant (I := fun r : Connection E => r.options = d.options)
    (fun r l h => (kept_turn (turn_step r l)).1.trans h) labels rfl

end Connection

end RtcTunnel.Driver
