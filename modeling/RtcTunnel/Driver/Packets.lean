import RtcTunnel.Driver.Events
import RtcTunnel.Driver.Order

/-!
# What the caller gave and what it is given

The messages of the `onPacket` calls are those of the events handed out. Under the policy to
drop, what `handle.send` takes is what the engine accepts.
-/

namespace RtcTunnel.Driver

open RtcTunnel.Core
open RtcTunnel.Base.Run

set_option autoImplicit false

/-- The message that the caller is given. -/
def Effect.given? : Effect → Option Bytes
  | .onPacket data => some data
  | _ => none

/-- The message in an event. -/
def EngineEvent.message? : EngineEvent → Option Bytes
  | .message data => some data
  | _ => Option.none

namespace Connection

variable {E : EngineApi} {d r : Connection E}

/-- The messages that the caller was given. -/
def packets (d : Connection E) : List Bytes := d.log.filterMap Effect.given?

theorem packets_eq (d : Connection E) : d.packets = d.calls.filterMap EngineEvent.message? := by
  rw [packets, calls, List.filterMap_filterMap]
  congr 1
  funext e
  cases e <;> rfl

theorem messages_isCall (events : List EngineEvent) :
    (events.filter EngineEvent.isCall).filterMap EngineEvent.message? =
      events.filterMap EngineEvent.message? := by
  rw [List.filterMap_filter]
  congr 1
  funext e
  cases e <;> rfl

/-- In turn, the caller is given the messages of the events handed out, in order. -/
theorem InTurn.packets {events : List EngineEvent} (h : d.InTurn events) :
    d.packets <+: events.filterMap EngineEvent.message? := by
  have hseen : d.packets <+: (seen events).filterMap EngineEvent.message? := by
    rw [packets_eq]
    exact h.order.filterMap _
  have hfront : (seen events).filterMap EngineEvent.message? <+:
      events.filterMap EngineEvent.message? := by
    rw [← messages_isCall events]
    exact (((List.takeWhile_prefix _).filter _).filterMap _)
  exact hseen.trans hfront

/-- Without a queue a message is accepted at once or not taken at all. -/
theorem moves_drops {data : Bytes} (hp : d.options.backpressure = .drop)
    (hn : ¬ (d.closed = false ∧ d.opened = true ∧ (E.send d.engine data).1 = sendAccepted)) :
    d.Moves (d.handleSend data) [] [] d.queue := by
  by_cases ho : (d.closed || !d.opened) = true
  · have he : d.handleSend data = { d with sends := d.sends + 1 }.record
        (.sent (d.packet data) .ignored) := if_pos ho
    rw [he]
    exact moves_of_log [.sent (d.packet data) .ignored] rfl rfl
  · have hopen : d.closed = false ∧ d.opened = true := by simpa using ho
    have hr : (E.send d.engine data).1 ≠ sendAccepted := fun hr => hn ⟨hopen.1, hopen.2, hr⟩
    have hnone : (Effect.engine (.send (d.packet data) (E.send d.engine data).1)).accepts = none :=
      if_neg hr
    have answered : ∀ (r : Connection E) (outcome : SendOutcome),
        r.log = d.log ++ ([.engine (.send (d.packet data) (E.send d.engine data).1)] ++
          [.sent (d.packet data) outcome]) → r.queue = d.queue →
        (Effect.sent (d.packet data) outcome).takes = none → d.Moves r [] [] d.queue := by
      intro r outcome hl hq ht
      have hm := moves_of_log _ hl hq
      rw [List.filterMap_append, List.filterMap_append, List.filterMap_cons, hnone,
        List.filterMap_cons (f := Effect.takes) (a := .sent _ outcome), ht] at hm
      exact hm
    rw [handleSend, if_neg ho]
    dsimp only
    rw [if_neg hr]
    split
    · exact answered _ .tooLarge (List.append_assoc ..) rfl rfl
    · split
      · split
        · rename_i hq
          exact absurd (hp.symm.trans hq) (by simp)
        · exact answered _ .refused (List.append_assoc ..) rfl rfl
      · exact answered _ .dropped (List.append_assoc ..) rfl rfl

/-- Nothing waits, and what is taken is what the engine accepted. -/
structure Unqueued (d : Connection E) : Prop where
  policy : d.options.backpressure = .drop
  queue : d.queue = []
  taken : d.accepted = d.taken

theorem unqueued_step (l : Label) (h : d.Unqueued) : (d.step l).Unqueued := by
  have ht := turn_step d l
  generalize d.step l = r at ht ⊢
  have hpolicy : r.options.backpressure = .drop := by
    rw [(kept_turn ht).1]
    exact h.policy
  have moved : ∀ {xs : List Packet}, d.Moves r xs xs d.queue → r.Unqueued := fun hm =>
    ⟨hpolicy, hm.queue.trans h.queue, by rw [hm.accepted, hm.taken, h.taken]⟩
  cases ht with
  | inert _ r closed disposed queue sends options stack timer log =>
    exact moved (moves_inert queue log)
  | flush now m rest loop hs hc hb => exact absurd (h.policy.symm.trans hb) (by simp)
  | send data =>
    by_cases ha : d.closed = false ∧ d.opened = true ∧ (E.send d.engine data).1 = sendAccepted
    · exact moved (moves_accepted ha.1 ha.2.1 ha.2.2)
    · exact moved (moves_drops h.policy ha)
  | finish now reason rest hs hc => exact moved (h.queue.symm ▸ moves_finish rest reason hc)
  | finishRest now reason rest hs => exact moved (moves_finishRest d rest reason)

theorem unqueued_run (options : ResolvedOptions) (engine : E.State) (labels : List Label)
    (hp : options.backpressure = .drop) : (run step (start options engine) labels).Unqueued :=
  invariant (fun _ l h => unqueued_step l h) labels ⟨hp, rfl, rfl⟩

end Connection

end RtcTunnel.Driver
