import RtcTunnel.Driver.Deadline
import RtcTunnel.Stack.Runs

/-!
# The timer over a tunnel

Under the policy to drop nothing moves the deadline of a direct tunnel without a pump to follow,
so the timer of an open connection never fires later than the tunnel wants its next tick.
-/

namespace RtcTunnel.Stack

open RtcTunnel.Core
open RtcTunnel.Abi (toWord)
open RtcTunnel.Base.Run
open RtcTunnel.Direct (DirectTunnel Layers)
open RtcTunnel.Driver
open RtcTunnel.Driver.Connection (step)

set_option autoImplicit false

/-- **What is assumed of the layers**: to be asked for its timeout does not move the timeout of
the ICE agent, and a write that fails does not move that of the association. -/
structure SteadyTimers (L : Layers) : Prop where
  ice : ∀ a, (L.ice.pollTimeout (L.ice.pollTimeout a).2).1 = (L.ice.pollTimeout a).1
  write : ∀ a id payload ppi, (L.sctp.writeChunkWithPpi a id payload ppi).2.isOk = false →
    L.sctp.pollTimeout (L.sctp.writeChunkWithPpi a id payload ppi).1 = L.sctp.pollTimeout a

variable {L : Layers} {cipherSuite : L.dtls.Endpoint → SocketAddr → Option Text}

/-- What the deadline of a tunnel is read off. -/
theorem nextDeadline_congr {t r : DirectTunnel L} (hf : r.finished = t.finished)
    (ho : r.opened = t.opened) (he : r.epoch = t.epoch)
    (hd : r.handshakeDeadline = t.handshakeDeadline)
    (hi : (L.ice.pollTimeout r.ice).1 = (L.ice.pollTimeout t.ice).1)
    (hs : r.dtlsStarted = t.dtlsStarted) (hdtls : r.dtls = t.dtls)
    (hr : r.remoteAddr = t.remoteAddr)
    (ha : r.association.bind L.sctp.pollTimeout = t.association.bind L.sctp.pollTimeout) :
    r.nextDeadline.1 = t.nextDeadline.1 := by
  have hms : r.ms = t.ms := by
    funext i
    rw [DirectTunnel.ms, he]
    rfl
  unfold DirectTunnel.nextDeadline
  rw [hf]
  split
  · rfl
  · dsimp only
    rw [ho, hd, hi, hs, hdtls, hr, ha, hms]

theorem nextDeadline_twice (hL : SteadyTimers L) (t : DirectTunnel L) :
    t.nextDeadline.2.nextDeadline.1 = t.nextDeadline.1 := by
  have hsame : t.nextDeadline.2 = t ∨ t.nextDeadline.2 = { t with ice := (L.ice.pollTimeout t.ice).2 } := by
    unfold DirectTunnel.nextDeadline
    split
    · exact .inl rfl
    · exact .inr rfl
  rcases hsame with hr | hr
  · rw [hr]
  · rw [hr]
    exact nextDeadline_congr rfl rfl rfl rfl (hL.ice t.ice) rfl rfl rfl rfl

/-- A message that is not accepted does not move the deadline. -/
theorem nextDeadline_refused (hL : SteadyTimers L) {t : DirectTunnel L} {data : Bytes}
    (h : (t.send data).1 ≠ .accepted) : (t.send data).2.nextDeadline.1 = t.nextDeadline.1 := by
  rcases DirectTunnel.send_cases t data with ⟨_, hr, _⟩ | ⟨association, hs, ⟨hw, hr⟩ | ⟨_, hr⟩⟩
  · rw [hr]
  · rw [hr]
    refine nextDeadline_congr rfl rfl rfl rfl rfl rfl rfl rfl ?_
    rw [hs.current]
    exact hL.write association _ _ _ hw
  · exact absurd (by rw [hr]) h

/-- The deadline of the engine is that of its tunnel. -/
theorem deadline_tunnel (s : (engine (direct L cipherSuite)).State) :
    (engine (direct L cipherSuite)).deadline s =
      (tunnelOf s).nextDeadline.1.map fun ms => F64.ofNat ms.toNat :=
  congrArg Prod.fst (WasmTunnelEngine.nextDeadline_eq (B := direct L cipherSuite) s)

/-- A tunnel of which only the queue differs. -/
theorem deadline_queue {s r : (engine (direct L cipherSuite)).State}
    (h : ∃ es, tunnelOf r = { tunnelOf s with events := es }) :
    (engine (direct L cipherSuite)).deadline r = (engine (direct L cipherSuite)).deadline s := by
  obtain ⟨es, hr⟩ := h
  rw [deadline_tunnel, deadline_tunnel, hr]
  exact congrArg _ (nextDeadline_congr rfl rfl rfl rfl rfl rfl rfl rfl rfl)

theorem steady_direct (hL : SteadyTimers L) : (engine (direct L cipherSuite)).Steady where
  nextDeadline s := by
    have htunnel : tunnelOf ((engine (direct L cipherSuite)).nextDeadline s).2 =
      (tunnelOf s).nextDeadline.2 := rfl
    rw [deadline_tunnel, deadline_tunnel, htunnel, nextDeadline_twice hL]
  pollEvent s := deadline_queue ⟨_, rfl⟩
  drainEvents drain hd s size := by
    cases hd
    have hpull := congrArg (@tunnelOf L cipherSuite) (tunnel_pull s (toWord size).toNat)
    exact deadline_queue ⟨_, hpull⟩
  negotiatedCipherSuite f hf s := by
    cases hf
    exact deadline_queue ⟨_, tunnel_negotiatedCipherSuite s⟩
  bufferedBytes f hf s := by
    cases hf
    rfl
  droppedDatagrams f hf s := by
    cases hf
    rfl

/-- Under the policy to drop, every step that moves the deadline has a pump to follow. -/
theorem noticed_direct (hL : SteadyTimers L) {d : Connection (engine (direct L cipherSuite))}
    (hp : d.options.backpressure = .drop) (l : Connection.Label) : d.unnoticed l = false := by
  cases l with
  | advance now =>
    rw [Connection.unnoticed, hp]
    simp
  | send data =>
    rw [Connection.unnoticed]
    by_cases hr : ((engine (direct L cipherSuite)).send d.engine data).1 = sendAccepted
    · simp [hr]
    · have hrefused : ((tunnelOf d.engine).send data).1 ≠ .accepted := fun ha =>
        hr ((sendCode_accepted _).mpr ha)
      have hsame : (engine (direct L cipherSuite)).deadline
          ((engine (direct L cipherSuite)).send d.engine data).2 =
            (engine (direct L cipherSuite)).deadline d.engine := by
        rw [deadline_tunnel, deadline_tunnel]
        exact congrArg _ (nextDeadline_refused hL hrefused)
      rw [Connection.hastens_same hsame, Bool.and_false]
  | _ => rfl

/-- What keeps the timer in time. -/
structure Awake (d : Connection (engine (direct L cipherSuite))) : Prop where
  policy : d.options.backpressure = .drop
  ledger : d.Ledger
  onTime : d.OnTime

theorem awake_step (hL : SteadyTimers L) {d : Connection (engine (direct L cipherSuite))}
    (l : Connection.Label) (h : Awake d) : Awake (d.step l) := by
  have ht := Connection.turn_step d l
  refine ⟨?_, Connection.ledger_turn ht h.ledger, ?_⟩
  · rw [(Connection.kept_turn ht).1]
    exact h.policy
  · exact Connection.onTime_step (steady_direct hL) h.ledger l h.onTime (noticed_direct hL h.policy l)

theorem awake_run (hL : SteadyTimers L)
    (cipherSuite : L.dtls.Endpoint → SocketAddr → Option Text) {options : ResolvedOptions}
    (hp : options.backpressure = .drop) (t : DirectTunnel L) (labels : List Connection.Label) :
    Awake (run step (connect cipherSuite options t) labels) :=
  invariant (fun _ l h => awake_step hL l h) labels
    ⟨hp, Connection.ledger_start options _, .inr (.inr (.inl rfl))⟩

/-- **The timer is in time.** Under the policy to drop, whatever a connection over a direct tunnel
goes through, exceptions included: when it is not closed, none of its code is running and no
flush of sends is to come, and the tunnel wants a tick, the timer is armed for that time or
before. -/
theorem timer_in_time (hL : SteadyTimers L)
    (cipherSuite : L.dtls.Endpoint → SocketAddr → Option Text) {options : ResolvedOptions}
    (hp : options.backpressure = .drop) (t : DirectTunnel L) (labels : List Connection.Label) :
    let d := run step (connect cipherSuite options t) labels
    d.closed = false → d.idle = true → d.outboundScheduled = false →
      ∀ ms, (tunnelOf d.engine).nextDeadline.1 = some ms →
        d.timerArmed = true ∧ ∃ scheduled, d.scheduledDeadline = some scheduled ∧
          scheduled.le (F64.ofNat ms.toNat) = true := by
  intro d hc hi ho ms hms
  have h := awake_run hL cipherSuite hp t labels
  have hdeadline : (engine (direct L cipherSuite)).deadline d.engine = some (F64.ofNat ms.toNat) := by
    rw [deadline_tunnel, hms]
    rfl
  rcases h.onTime with h | h | h | h
  · exact absurd (hc.symm.trans h) (by simp)
  · exact absurd (ho.symm.trans h) (by simp)
  · have hs : d.stack = [] := List.isEmpty_iff.mp hi
    rw [hs] at h
    cases h
  · exact h (F64.ofNat ms.toNat) hdeadline (by simp [F64.ofNat, F64.ofInt])

theorem steadyTimers_script : SteadyTimers Direct.Script.layers where
  ice _ := rfl
  write _ _ _ _ h := by cases h

/-- The policy to drop. -/
def dropping : ResolvedOptions := { Script.batched with backpressure := .drop }

/-- The open dialer is due when ICE would give its pair up. -/
theorem timer_in_time_opened :
    ∃ scheduled, (run step (connect (fun _ _ => none) dropping Direct.Script.dialer)
      opening).scheduledDeadline = some scheduled ∧ scheduled.le (F64.ofNat 30001) = true :=
  (timer_in_time steadyTimers_script (fun _ _ => none) rfl Direct.Script.dialer opening
    (by decide +kernel) (by decide +kernel) (by decide +kernel) 30001 (by decide +kernel)).2

end RtcTunnel.Stack
