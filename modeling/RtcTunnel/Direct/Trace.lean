import RtcTunnel.Direct.Budget
import RtcTunnel.Direct.Pump
import RtcTunnel.Direct.Touches

/-!
# The handshake trace

Each reading is taken at the first event of its phase: ICE under the stamp of the event, the
others under the time of the input that is handled. `Timing` is what the readings depend on; an
operation is a sequence of changes of it, at one time of the input clock.
-/

namespace RtcTunnel.Core

set_option autoImplicit false

/-- A reading between two times of the clock comes out between them. -/
theorem Instant.millisSince_between {epoch i : Nat} {a b : UInt64}
    (ha : Instant.addMillis epoch a ≤ i) (hb : i ≤ Instant.addMillis epoch b) :
    a ≤ Instant.millisSince i epoch ∧ Instant.millisSince i epoch ≤ b := by
  change epoch + a.toNat * 1000000 ≤ i at ha
  change i ≤ epoch + b.toNat * 1000000 at hb
  have hlt := b.toNat_lt
  have hto : (Instant.millisSince i epoch).toNat = (i - epoch) / 1000000 := by
    rw [Instant.millisSince, UInt64.toNat_ofNat', Nat.mod_eq_of_lt]
    omega
  rw [UInt64.le_iff_toNat_le, UInt64.le_iff_toNat_le, hto]
  omega

theorem Instant.millisSince_addMillis (epoch : Instant) (ms : UInt64) :
    (epoch.addMillis ms).millisSince epoch = ms := by
  obtain ⟨hle, hge⟩ := Instant.millisSince_between (Nat.le_refl (epoch.addMillis ms)) (Nat.le_refl _)
  exact UInt64.le_antisymm hge hle

namespace HandshakeTrace

/-- Every reading has those of the earlier phases, at times that do not decrease. -/
structure Ordered (t : HandshakeTrace) : Prop where
  ice : ∀ x ∈ t.iceMs, t.startMs ≤ x
  dtls : ∀ x ∈ t.dtlsMs, ∃ y ∈ t.iceMs, y ≤ x
  sctp : ∀ x ∈ t.sctpMs, ∃ y ∈ t.dtlsMs, y ≤ x
  opened : ∀ x ∈ t.openedMs, ∃ y ∈ t.sctpMs, y ≤ x

/-- The later trace has the readings of the earlier one. -/
structure Kept (t r : HandshakeTrace) : Prop where
  startMs : r.startMs = t.startMs
  ice : ∀ x ∈ t.iceMs, r.iceMs = some x
  dtls : ∀ x ∈ t.dtlsMs, r.dtlsMs = some x
  sctp : ∀ x ∈ t.sctpMs, r.sctpMs = some x
  opened : ∀ x ∈ t.openedMs, r.openedMs = some x

theorem Kept.refl (t : HandshakeTrace) : t.Kept t :=
  ⟨rfl, fun _ h => h, fun _ h => h, fun _ h => h, fun _ h => h⟩

theorem Kept.trans {a b c : HandshakeTrace} (h : a.Kept b) (h' : b.Kept c) : a.Kept c :=
  ⟨h'.startMs.trans h.startMs, fun x hx => h'.ice x (h.ice x hx),
    fun x hx => h'.dtls x (h.dtls x hx), fun x hx => h'.sctp x (h.sctp x hx),
    fun x hx => h'.opened x (h.opened x hx)⟩

theorem kept_observeIce (t : HandshakeTrace) (ms : UInt64) : t.Kept (t.observeIce ms) := by
  unfold observeIce
  split
  · rename_i hn
    rw [Option.isNone_iff_eq_none] at hn
    exact ⟨rfl, by simp [hn], fun _ h => h, fun _ h => h, fun _ h => h⟩
  · exact .refl t

theorem kept_observeDtls (t : HandshakeTrace) (ms : UInt64) : t.Kept (t.observeDtls ms) := by
  unfold observeDtls
  split
  · rename_i hn
    rw [Option.isNone_iff_eq_none] at hn
    exact ⟨rfl, fun _ h => h, by simp [hn], fun _ h => h, fun _ h => h⟩
  · exact .refl t

theorem kept_observeSctp (t : HandshakeTrace) (ms : UInt64) : t.Kept (t.observeSctp ms) := by
  unfold observeSctp
  split
  · rename_i hn
    rw [Option.isNone_iff_eq_none] at hn
    exact ⟨rfl, fun _ h => h, fun _ h => h, by simp [hn], fun _ h => h⟩
  · exact .refl t

theorem kept_observeOpen (t : HandshakeTrace) (ms : UInt64) : t.Kept (t.observeOpen ms) := by
  unfold observeOpen
  split
  · rename_i hn
    rw [Option.isNone_iff_eq_none] at hn
    exact ⟨rfl, fun _ h => h, fun _ h => h, fun _ h => h, by simp [hn]⟩
  · exact .refl t

end HandshakeTrace

end RtcTunnel.Core

namespace RtcTunnel.Direct

open RtcTunnel.Core
open RtcTunnel.Base (Outcome bind_ok)
open RtcTunnel.Base.Run

set_option autoImplicit false

/-- The state changes with which ICE tells of a selected pair. -/
def IceEvent.tells (e : IceEvent) : Bool :=
  e.event = .connectionStateChange .connected || e.event = .connectionStateChange .completed

/-- An input of the agent at a time. -/
inductive IceInput (I : IceApi) (now : Instant) : I.Agent → I.Agent → Prop where
  | startChecks (a : I.Agent) (controlling : Bool) (ufrag pwd : Text) :
      IceInput I now a (I.startConnectivityChecks a now controlling ufrag pwd).1
  | read (a : I.Agent) («local» remote : SocketAddr) (datagram : Bytes) :
      IceInput I now a (I.handleRead a now «local» remote datagram).1
  | timeout (a : I.Agent) : IceInput I now a (I.handleTimeout a now).1

/-- Another call into the agent that takes no event from it. -/
inductive IceCall (I : IceApi) : I.Agent → I.Agent → Prop where
  | addLocal (a : I.Agent) (c : I.Candidate) : IceCall I a (I.addLocalCandidate a c).1
  | addRemote (a : I.Agent) (c : I.Candidate) : IceCall I a (I.addRemoteCandidate a c).1
  | setRemoteCredentials (a : I.Agent) (ufrag pwd : Text) :
      IceCall I a (I.setRemoteCredentials a ufrag pwd).1
  | pollTimeout (a : I.Agent) : IceCall I a (I.pollTimeout a).2
  | writes (a : I.Agent) : IceCall I a (I.writes.poll a).2

/-- A state change that tells of a selected pair waits to be polled. -/
def Queued (I : IceApi) (a : I.Agent) : Prop := ∃ e ∈ (I.events.drain a).1, e.tells = true

/-- **What is assumed of ICE**: it queues the state change no later than it selects a pair,
stamped with the time of an input between its start and the latest. Nothing is assumed of a
closed agent. -/
structure AnnouncesSelection (I : IceApi) where
  /-- A state change that tells of a selected pair has been queued. -/
  announced : I.Agent → Prop
  /-- The agent was started at the first time and had its latest input at the second. -/
  fed : Instant → Instant → I.Agent → Prop
  new : ∀ {now config a}, I.new now config = .ok a → fed now now a ∧ (announced a → Queued I a)
  input : ∀ {start latest now a b}, IceInput I now a b → fed start latest a → latest ≤ now →
    fed start now b
  call : ∀ {start latest a b}, IceCall I a b → fed start latest a → fed start latest b
  polled : ∀ {start latest} a, fed start latest a → fed start latest (I.events.poll a).2
  stamped : ∀ {start latest a}, fed start latest a → ∀ e ∈ (I.events.drain a).1,
    e.tells = true → start ≤ e.now ∧ e.now ≤ latest
  announces : ∀ {a b}, ((∃ now, IceInput I now a b) ∨ IceCall I a b) → announced b →
    announced a ∨ Queued I b
  keeps : ∀ {a b}, ((∃ now, IceInput I now a b) ∨ IceCall I a b) → Queued I a → Queued I b
  drained : ∀ a, announced (I.events.poll a).2 → announced a
  selected : ∀ a, I.pairSelected a = true → announced a

structure Timing (L : Layers) where
  ice : L.ice.Agent
  trace : HandshakeTrace
  epoch : Instant
  lastNow : Instant
  dtlsConnected : Bool
  sctpConnected : Bool
  opened : Bool
  finished : Bool

namespace Timing

variable {L : Layers} {A : AnnouncesSelection L.ice} {start now : UInt64} {m : Timing L}

/-- The readings at time `now` of the input clock. DTLS may be ahead of the events of ICE that
wait to be drained. -/
structure Traced (A : AnnouncesSelection L.ice) (start now : UInt64) (m : Timing L) : Prop where
  startMs : m.trace.startMs = start
  lastNow : m.lastNow = m.epoch.addMillis now
  fed : m.finished = false → ∃ latest ≤ m.lastNow, A.fed (m.epoch.addMillis start) latest m.ice
  told : m.finished = false → A.announced m.ice →
    m.trace.iceMs.isSome = true ∨ Queued L.ice m.ice
  ready : m.trace.dtlsMs.isSome = true → m.trace.iceMs.isSome = true ∨ Queued L.ice m.ice
  dtlsFlag : m.trace.dtlsMs.isSome = m.dtlsConnected
  sctpFlag : m.trace.sctpMs.isSome = m.sctpConnected
  openedFlag : m.trace.openedMs.isSome = m.opened
  afterDtls : m.sctpConnected = true → m.dtlsConnected = true
  afterSctp : m.opened = true → m.sctpConnected = true
  ice : ∀ x ∈ m.trace.iceMs, start ≤ x ∧ x ≤ now
  dtls : ∀ x ∈ m.trace.dtlsMs, x ≤ now ∧ (m.trace.iceMs = none → x = now) ∧
    ∀ y ∈ m.trace.iceMs, y ≤ x
  sctp : ∀ x ∈ m.trace.sctpMs, x ≤ now ∧ ∀ y ∈ m.trace.dtlsMs, y ≤ x
  opened : ∀ x ∈ m.trace.openedMs, ∀ y ∈ m.trace.sctpMs, y ≤ x

/-- The events of ICE have been drained since DTLS. -/
def CaughtUp (m : Timing L) : Prop := m.trace.dtlsMs.isSome = true → m.trace.iceMs.isSome = true

theorem Traced.ordered (h : m.Traced A start now) (hc : m.CaughtUp) : m.trace.Ordered := by
  have hdtls : m.sctpConnected = true → m.trace.dtlsMs.isSome = true :=
    fun hs => h.dtlsFlag.trans (h.afterDtls hs)
  refine ⟨fun x hx => ?_, fun x hx => ?_, fun x hx => ?_, fun x hx => ?_⟩
  · rw [h.startMs]
    exact (h.ice x hx).1
  · obtain ⟨y, hy⟩ := Option.isSome_iff_exists.mp (hc (Option.isSome_of_mem hx))
    exact ⟨y, hy, (h.dtls x hx).2.2 y hy⟩
  · have hs : m.sctpConnected = true := h.sctpFlag.symm.trans (Option.isSome_of_mem hx)
    obtain ⟨y, hy⟩ := Option.isSome_iff_exists.mp (hdtls hs)
    exact ⟨y, hy, (h.sctp x hx).2 y hy⟩
  · have ho : m.opened = true := h.openedFlag.symm.trans (Option.isSome_of_mem hx)
    obtain ⟨y, hy⟩ := Option.isSome_iff_exists.mp (h.sctpFlag.trans (h.afterSctp ho))
    exact ⟨y, hy, h.opened x hx y hy⟩

/-- The clock goes on. -/
theorem Traced.clock (h : m.Traced A start now) (hc : m.CaughtUp) {later : UInt64}
    (hl : now ≤ later) {i : Instant} (hi : i = m.epoch.addMillis later) :
    ({ m with lastNow := i } : Timing L).Traced A start later := by
  have hle : m.lastNow ≤ i := by
    rw [h.lastNow, hi]
    exact Nat.add_le_add_left (Nat.mul_le_mul_right _ (UInt64.le_iff_toNat_le.mp hl)) _
  refine { h with lastNow := hi, fed := fun hf => ?_, ice := fun x hx => ?_,
                  dtls := fun x hx => ?_, sctp := fun x hx => ?_ }
  · obtain ⟨latest, hlatest, hfed⟩ := h.fed hf
    exact ⟨latest, Nat.le_trans hlatest hle, hfed⟩
  · exact ⟨(h.ice x hx).1, UInt64.le_trans (h.ice x hx).2 hl⟩
  · refine ⟨UInt64.le_trans (h.dtls x hx).1 hl, fun hn => ?_, (h.dtls x hx).2.2⟩
    have hi := hc (Option.isSome_of_mem hx)
    rw [hn] at hi
    cases hi
  · exact ⟨UInt64.le_trans (h.sctp x hx).1 hl, (h.sctp x hx).2⟩

/-- An input of ICE, at the time of the clock. -/
theorem Traced.iceInput (h : m.Traced A start now) {b : L.ice.Agent}
    (hi : IceInput L.ice m.lastNow m.ice b) : ({ m with ice := b } : Timing L).Traced A start now := by
  refine { h with fed := fun hf => ?_, told := fun hf ha => ?_, ready := fun hd => ?_ }
  · obtain ⟨latest, hlatest, hfed⟩ := h.fed hf
    exact ⟨m.lastNow, Nat.le_refl _, A.input hi hfed hlatest⟩
  · rcases A.announces (.inl ⟨_, hi⟩) ha with ha | hq
    · exact (h.told hf ha).imp_right (A.keeps (.inl ⟨_, hi⟩))
    · exact .inr hq
  · exact (h.ready hd).imp_right (A.keeps (.inl ⟨_, hi⟩))

theorem Traced.iceCall (h : m.Traced A start now) {b : L.ice.Agent}
    (hi : IceCall L.ice m.ice b) : ({ m with ice := b } : Timing L).Traced A start now := by
  refine { h with fed := fun hf => ?_, told := fun hf ha => ?_, ready := fun hd => ?_ }
  · obtain ⟨latest, hlatest, hfed⟩ := h.fed hf
    exact ⟨latest, hlatest, A.call hi hfed⟩
  · rcases A.announces (.inr hi) ha with ha | hq
    · exact (h.told hf ha).imp_right (A.keeps (.inr hi))
    · exact .inr hq
  · exact (h.ready hd).imp_right (A.keeps (.inr hi))

/-- A tunnel that stops, with its agent in any state. -/
theorem Traced.finish (h : m.Traced A start now) (hc : m.CaughtUp) (b : L.ice.Agent) :
    ({ m with ice := b, finished := true } : Timing L).Traced A start now :=
  { h with fed := fun hf => (by cases hf), told := fun hf => (by cases hf),
           ready := fun hd => .inl (hc hd) }

/-- The first completed handshake of DTLS, on a pair that was told of. -/
theorem Traced.observeDtls (h : m.Traced A start now)
    (hi : m.trace.iceMs.isSome = true ∨ Queued L.ice m.ice) :
    ({ m with dtlsConnected := true, trace := m.trace.observeDtls now } : Timing L).Traced A start
      now := by
  cases hd : m.trace.dtlsMs with
  | some x =>
    have hsame : m.trace.observeDtls now = m.trace := by simp [HandshakeTrace.observeDtls, hd]
    have hflag : m.dtlsConnected = true := by rw [← h.dtlsFlag, hd, Option.isSome_some]
    rw [hsame, ← hflag]
    exact h
  | none =>
    have hset : m.trace.observeDtls now = { m.trace with dtlsMs := some now } := by
      simp [HandshakeTrace.observeDtls, hd]
    have hsctp : m.trace.sctpMs = none := by
      rw [← Option.not_isSome_iff_eq_none, h.sctpFlag]
      intro hs
      have hflag := h.dtlsFlag.trans (h.afterDtls hs)
      rw [hd] at hflag
      cases hflag
    rw [hset]
    refine { h with ready := fun _ => hi, dtlsFlag := rfl, afterDtls := fun _ => rfl,
                    dtls := fun x hx => ?_, sctp := fun x hx => ?_ }
    · cases hx
      exact ⟨UInt64.le_refl _, fun _ => rfl, fun y hy => (h.ice y hy).2⟩
    · exact absurd (hsctp.symm.trans hx) (by simp)

theorem Traced.observeSctp (h : m.Traced A start now) (hd : m.dtlsConnected = true) :
    ({ m with sctpConnected := true, trace := m.trace.observeSctp now } : Timing L).Traced A start
      now := by
  cases hs : m.trace.sctpMs with
  | some x =>
    have hsame : m.trace.observeSctp now = m.trace := by simp [HandshakeTrace.observeSctp, hs]
    have hflag : m.sctpConnected = true := by rw [← h.sctpFlag, hs, Option.isSome_some]
    rw [hsame, ← hflag]
    exact h
  | none =>
    have hset : m.trace.observeSctp now = { m.trace with sctpMs := some now } := by
      simp [HandshakeTrace.observeSctp, hs]
    have hopened : m.trace.openedMs = none := by
      rw [← Option.not_isSome_iff_eq_none, h.openedFlag]
      intro ho
      have hflag := h.sctpFlag.trans (h.afterSctp ho)
      rw [hs] at hflag
      cases hflag
    rw [hset]
    refine { h with sctpFlag := rfl, afterDtls := fun _ => hd, afterSctp := fun _ => rfl,
                    sctp := fun x hx => ?_, opened := fun x hx => ?_ }
    · cases hx
      exact ⟨UInt64.le_refl _, fun y hy => (h.dtls y hy).1⟩
    · exact absurd (hopened.symm.trans hx) (by simp)

theorem Traced.observeOpen (h : m.Traced A start now) (hs : m.sctpConnected = true)
    (ho : m.opened = false) :
    ({ m with opened := true, trace := m.trace.observeOpen now } : Timing L).Traced A start now := by
  have hn : m.trace.openedMs = none := by
    rw [← Option.not_isSome_iff_eq_none, h.openedFlag, ho]
    exact Bool.false_ne_true
  have hset : m.trace.observeOpen now = { m.trace with openedMs := some now } := by
    simp [HandshakeTrace.observeOpen, hn]
  rw [hset]
  refine { h with openedFlag := rfl, afterSctp := fun _ => hs, opened := fun x hx y hy => ?_ }
  cases hx
  exact (h.sctp y hy).1

/-- An event of ICE, stamped with a time up to now. -/
theorem Traced.observeIce (h : m.Traced A start now) {x : UInt64} (hs : start ≤ x)
    (hn : x ≤ now) :
    ({ m with trace := m.trace.observeIce x } : Timing L).Traced A start now := by
  cases hi : m.trace.iceMs with
  | some y =>
    have hsame : m.trace.observeIce x = m.trace := by simp [HandshakeTrace.observeIce, hi]
    rw [hsame]
    exact h
  | none =>
    have hset : m.trace.observeIce x = { m.trace with iceMs := some x } := by
      simp [HandshakeTrace.observeIce, hi]
    rw [hset]
    refine { h with told := fun _ _ => .inl rfl, ready := fun _ => .inl rfl,
                    ice := fun y hy => ?_, dtls := fun y hy => ?_ }
    · cases hy
      exact ⟨hs, hn⟩
    · refine ⟨(h.dtls y hy).1, fun hnone => (by cases hnone), fun z hz => ?_⟩
      cases hz
      rw [(h.dtls y hy).2.1 hi]
      exact hn

/-- The agent once its events were taken, and looked at. -/
theorem Traced.drained (h : m.Traced A start now)
    (hq : Queued L.ice m.ice → m.trace.iceMs.isSome = true) :
    ({ m with ice := (L.ice.events.drain m.ice).2 } : Timing L).Traced A start now ∧
      ({ m with ice := (L.ice.events.drain m.ice).2 } : Timing L).CaughtUp := by
  have hcaught : m.CaughtUp := fun hd => (h.ready hd).elim id hq
  refine ⟨{ h with fed := fun hf => ?_, told := fun hf ha => ?_, ready := fun hd => ?_ }, hcaught⟩
  · obtain ⟨latest, hlatest, hfed⟩ := h.fed hf
    exact ⟨latest, hlatest, L.ice.events.drain_induction (fun a => A.polled a) hfed⟩
  · have hold : A.announced m.ice :=
      L.ice.events.drain_induction (P := fun a => A.announced a → A.announced m.ice)
        (fun a hp hd => hp (A.drained a hd)) id ha
    exact .inl ((h.told hf hold).elim id hq)
  · exact .inl (hcaught hd)

end Timing

namespace DirectTunnel

open Life (Move Moves)

variable {L : Layers} {A : AnnouncesSelection L.ice} {start now : UInt64}

def timing (t : DirectTunnel L) : Timing L where
  ice := t.ice
  trace := t.trace
  epoch := t.epoch
  lastNow := t.lastNow
  dtlsConnected := t.dtlsConnected
  sctpConnected := t.sctpConnected
  opened := t.opened
  finished := t.finished

/-- A tunnel in the middle of an operation. -/
structure Traced (A : AnnouncesSelection L.ice) (start now : UInt64) (t : DirectTunnel L) :
    Prop where
  timing : t.timing.Traced A start now
  phases : t.life.Phases

theorem Advances.phases {t r : DirectTunnel L} (h : t.Advances r) (hp : t.life.Phases) :
    r.life.Phases := moves_invariant Life.phases_move h hp

theorem Traced.of_timing {t r : DirectTunnel L} (h : t.Traced A start now)
    (ht : r.timing = t.timing) (ha : t.Advances r) : r.Traced A start now :=
  ⟨ht ▸ h.timing, ha.phases h.phases⟩

/-- The time of the clock is the time of an operation. -/
theorem Traced.ms_lastNow {t : DirectTunnel L} (h : t.Traced A start now) :
    t.ms t.lastNow = now := by
  have hl : t.lastNow = t.epoch.addMillis now := h.timing.lastNow
  rw [ms, hl, Instant.millisSince_addMillis]

theorem timing_startDtls (t : DirectTunnel L) : t.startDtls.timing = t.timing := by
  unfold startDtls activateDtls
  split
  · rfl
  · split <;> rfl

theorem timing_startSctp (t : DirectTunnel L) : t.startSctp.1.timing = t.timing := by
  unfold startSctp
  split
  · dsimp only
    split <;> rfl
  · rfl

theorem timing_feedSctp (t : DirectTunnel L) (now : Instant) (datagram : Bytes) :
    (t.feedSctp now datagram).timing = t.timing := by
  unfold feedSctp
  split
  · rfl
  · dsimp only
    split <;> rfl

theorem timing_pollAssociation (t : DirectTunnel L) :
    t.pollAssociation.2.timing = t.timing := by
  unfold pollAssociation
  split <;> rfl

theorem timing_readStream (t : DirectTunnel L) : t.readStream.1.timing = t.timing := by
  unfold readStream
  split
  · rfl
  · split <;> rfl

theorem timing_drainChannel (t : DirectTunnel L) : t.drainChannel.1.timing = t.timing := by
  unfold drainChannel openStream
  split
  · dsimp only
    split
    · rfl
    · split <;> rfl
  · rfl

theorem timing_drainSctpTransmits (t : DirectTunnel L) :
    t.drainSctpTransmits.1.timing = t.timing := by
  unfold drainSctpTransmits
  split <;> rfl

theorem timing_drainDtlsTransmits (t : DirectTunnel L) : t.drainDtlsTransmits.timing = t.timing :=
  rfl

/-- The pair of ICE has been told of. -/
def PairTold (t : DirectTunnel L) : Prop := t.trace.iceMs.isSome = true ∨ Queued L.ice t.ice

/-- A tunnel in the middle of the events of a DTLS read at this instant. -/
structure Reading (A : AnnouncesSelection L.ice) (start now : UInt64) (i : Instant)
    (t : DirectTunnel L) : Prop where
  traced : t.Traced A start now
  told : t.PairTold
  lastNow : t.lastNow = i

theorem Reading.of_timing {i : Instant} {t r : DirectTunnel L} (h : t.Reading A start now i)
    (ht : r.timing = t.timing) (ha : t.Advances r) : r.Reading A start now i := by
  refine ⟨h.traced.of_timing ht ha, ?_, (congrArg Timing.lastNow ht).trans h.lastNow⟩
  have hice : r.ice = t.ice := congrArg Timing.ice ht
  have htrace : r.trace = t.trace := congrArg Timing.trace ht
  unfold PairTold
  rw [hice, htrace]
  exact h.told

theorem reading_feedDtlsEvent {i : Instant} {t : DirectTunnel L} (h : t.Reading A start now i)
    (e : DtlsEvent) : (t.feedDtlsEvent i e).1.Reading A start now i := by
  have ha := advances_feedDtlsEvent t i e
  cases e with
  | handshakeComplete =>
    have hms : t.ms i = now := h.lastNow ▸ h.traced.ms_lastNow
    have ht : (t.feedDtlsEvent i .handshakeComplete).1.timing =
        { t.timing with dtlsConnected := true, trace := t.trace.observeDtls now } := by
      rw [← hms]
      unfold feedDtlsEvent
      dsimp only
      split
      · rw [timing_startSctp]
        rfl
      · rfl
    refine ⟨⟨ht ▸ h.traced.timing.observeDtls h.told, ha.phases h.traced.phases⟩, ?_,
      (congrArg Timing.lastNow ht).trans h.lastNow⟩
    have hice : (t.feedDtlsEvent i .handshakeComplete).1.ice = t.ice := congrArg Timing.ice ht
    have htrace : (t.feedDtlsEvent i .handshakeComplete).1.trace = t.trace.observeDtls now :=
      congrArg Timing.trace ht
    unfold PairTold
    rw [hice, htrace]
    refine h.told.imp_left fun hs => ?_
    obtain ⟨x, hx⟩ := Option.isSome_iff_exists.mp hs
    rw [(t.trace.kept_observeDtls now).ice x hx]
    rfl
  | applicationData data => exact h.of_timing (timing_feedSctp t i data) ha
  | other => exact h

theorem reading_feedDtls {i : Instant} {t : DirectTunnel L} (h : t.Reading A start now i)
    (datagram : Bytes) : (t.feedDtls i datagram).1.Reading A start now i := by
  have he : ∀ (es : List DtlsEvent) {s : DirectTunnel L}, s.Reading A start now i →
      (feedDtlsEvents i es s).1.Reading A start now i := by
    intro es
    induction es with
    | nil => exact fun hs => hs
    | cons e es ih =>
      intro s hs
      exact Outcome.andThen_keeps (reading_feedDtlsEvent hs e) fun r hr => ih hr
  have hread : ({ t with dtls := (L.dtls.read t.dtls i t.remoteAddr datagram).1 } :
      DirectTunnel L).Reading A start now i := h.of_timing rfl (.of_life rfl)
  unfold feedDtls
  dsimp only
  split
  · exact hread
  · exact he _ hread

/-- One datagram. DTLS gets it only once ICE selected a pair. -/
theorem traced_ingest {t : DirectTunnel L} (h : t.Traced A start now) (hf : t.finished = false)
    (datagram : Bytes) : (t.ingest t.lastNow datagram).Traced A start now := by
  have hd : (t.dispatch t.lastNow datagram).1.Traced A start now := by
    unfold dispatch
    split
    · exact ⟨h.timing.iceInput (.read t.ice t.localAddr t.remoteAddr datagram), h.phases⟩
    · split
      · split
        · rename_i hp
          have htold : t.PairTold := h.timing.told hf (A.selected t.ice hp)
          have hreading : t.Reading A start now t.lastNow := ⟨h, htold, rfl⟩
          dsimp only
          split
          · exact (reading_feedDtls hreading datagram).traced
          · rename_i hs
            have hstart : t.startDtls.Reading A start now t.lastNow :=
              hreading.of_timing (timing_startDtls t) (advances_startDtls t (by simpa using hs))
            exact (reading_feedDtls hstart datagram).traced
        · exact h
      · exact h
  unfold ingest
  dsimp only
  split
  · exact hd
  · exact hd.of_timing rfl (.of_life rfl)

/-- The trace once these events were looked at has the reading of ICE if one of them tells of
a pair. -/
theorem traced_observed {t : DirectTunnel L} (es : List IceEvent)
    (h : t.timing.Traced A start now)
    (hes : ∀ e ∈ es, e.tells = true →
      t.epoch.addMillis start ≤ e.now ∧ e.now ≤ t.epoch.addMillis now) :
    ({ t.timing with trace := t.observed es } : Timing L).Traced A start now ∧
      ((t.trace.iceMs.isSome = true ∨ ∃ e ∈ es, e.tells = true) →
        (t.observed es).iceMs.isSome = true) := by
  induction es generalizing t with
  | nil =>
    refine ⟨h, fun hq => hq.elim id fun ⟨e, he, _⟩ => ?_⟩
    cases he
  | cons e es ih =>
    obtain ⟨he, hes⟩ := List.forall_mem_cons.mp hes
    by_cases htells : e.tells = true
    · have hstep : t.observeIceEvent e = { t with trace := t.trace.observeIce (t.ms e.now) } := by
        unfold IceEvent.tells at htells
        unfold observeIceEvent
        split <;> simp_all
      obtain ⟨hfrom, hto⟩ := he htells
      obtain ⟨hs, hn⟩ := Instant.millisSince_between hfrom hto
      have hnext := ih (t := { t with trace := t.trace.observeIce (t.ms e.now) })
        (h.observeIce hs hn) hes
      rw [observed, List.foldl_cons, hstep]
      refine ⟨hnext.1, fun _ => hnext.2 (.inl ?_)⟩
      show (t.trace.observeIce (t.ms e.now)).iceMs.isSome = true
      unfold HandshakeTrace.observeIce
      split
      · rfl
      · rename_i hsome
        simpa [Option.isSome_iff_ne_none] using hsome
    · have hstep : t.observeIceEvent e = t := by
        unfold IceEvent.tells at htells
        unfold observeIceEvent
        split <;> simp_all
      rw [observed, List.foldl_cons, hstep]
      obtain ⟨hrest, hq⟩ := ih h hes
      refine ⟨hrest, fun hfound => hq (hfound.imp_right fun ⟨e', he', ht'⟩ => ?_)⟩
      rcases List.mem_cons.mp he' with rfl | he'
      · exact absurd ht' htells
      · exact ⟨e', he', ht'⟩

/-- A tunnel between operations, or behind the events of ICE in its pump. -/
structure Settled (A : AnnouncesSelection L.ice) (start now : UInt64) (t : DirectTunnel L) :
    Prop where
  traced : t.Traced A start now
  caughtUp : t.timing.CaughtUp

theorem Settled.of_timing {t r : DirectTunnel L} (h : t.Settled A start now)
    (ht : r.timing = t.timing) (ha : t.Advances r) : r.Settled A start now :=
  ⟨h.traced.of_timing ht ha, ht ▸ h.caughtUp⟩

theorem settled_drainIceEvents {t : DirectTunnel L} (h : t.Traced A start now)
    (hf : t.finished = false) : t.drainIceEvents.Settled A start now := by
  have hphases := (advances_drainIceEvents t).phases h.phases
  obtain ⟨latest, hlatest, hfed⟩ := h.timing.fed hf
  obtain ⟨htraced, hq⟩ := traced_observed (L.ice.events.drain t.ice).1 h.timing fun e he ht => by
    obtain ⟨hfrom, hto⟩ := A.stamped hfed e he ht
    exact ⟨hfrom, Nat.le_trans hto (Nat.le_trans hlatest (Nat.le_of_eq h.timing.lastNow))⟩
  obtain ⟨hdrained, hcaught⟩ := htraced.drained fun hq' => hq (.inr hq')
  rw [drainIceEvents_eq] at hphases ⊢
  exact ⟨⟨hdrained, hphases⟩, hcaught⟩

theorem settled_drainIceWrites {t : DirectTunnel L} (h : t.Settled A start now) :
    t.drainIceWrites.Settled A start now := by
  refine ⟨⟨?_, (advances_drainIceWrites t).phases h.traced.phases⟩, h.caughtUp⟩
  exact L.ice.writes.drain_induction
    (P := fun a => ({ t.timing with ice := a } : Timing L).Traced A start now)
    (fun a ha => ha.iceCall (.writes a)) h.traced.timing

theorem settled_pumpIce {t : DirectTunnel L} (h : t.Traced A start now) (hf : t.finished = false) :
    t.pumpIce.Settled A start now := by
  have hice := settled_drainIceWrites (settled_drainIceEvents h hf)
  unfold pumpIce
  dsimp only
  split
  · rename_i hs
    simp only [Bool.and_eq_true, Bool.not_eq_true'] at hs
    exact hice.of_timing (timing_startDtls _) (advances_startDtls _ hs.2)
  · exact hice

theorem settled_finish {t : DirectTunnel L} (h : t.Settled A start now) {reason : CloseReason}
    (hr : reason ≠ .failure) : (t.finish reason).Settled A start now := by
  have hphases := (advances_finish t hr).phases h.traced.phases
  unfold finish at hphases ⊢
  split
  · exact h
  · rename_i hf
    rw [if_neg hf] at hphases
    exact ⟨⟨h.traced.timing.finish h.caughtUp t.ice, hphases⟩, h.caughtUp⟩

/-- A connected association comes behind a completed handshake. -/
theorem settled_observeConnected {t : DirectTunnel L} (h : t.Settled A start now)
    (hs : t.dtlsStarted = true) (ha : t.association.isSome = true) :
    t.observeConnected.Settled A start now := by
  have hphases := (advances_call (Call.observeConnected t hs ha)).phases h.traced.phases
  have hd : t.dtlsConnected = true :=
    h.traced.phases.endpoint (h.traced.phases.association ha)
  refine ⟨⟨?_, hphases⟩, fun hdtls => ?_⟩
  · show ({ t.timing with sctpConnected := true
                          trace := t.trace.observeSctp (t.ms t.lastNow) } :
        Timing L).Traced A start now
    rw [h.traced.ms_lastNow]
    exact h.traced.timing.observeSctp hd
  · have hkept := t.trace.kept_observeSctp (t.ms t.lastNow)
    have hsome : t.trace.dtlsMs.isSome = true := h.traced.timing.dtlsFlag.trans hd
    obtain ⟨x, hx⟩ := Option.isSome_iff_exists.mp (h.caughtUp hsome)
    exact Option.isSome_iff_exists.mpr ⟨x, hkept.ice x hx⟩

theorem settled_observeSctpEvents {t : DirectTunnel L} (h : t.Settled A start now)
    (hs : t.dtlsStarted = true) {events : List SctpEvent}
    (ha : .connected ∈ events → t.association.isSome = true) :
    (t.observeSctpEvents events).Settled A start now := by
  have hc : (if .connected ∈ events then t.observeConnected else t).Settled A start now := by
    split
    · rename_i hm
      exact settled_observeConnected h hs (ha hm)
    · exact h
  unfold observeSctpEvents
  dsimp only
  split
  · exact settled_finish hc (by decide)
  · exact hc

theorem settled_drainSctp {t : DirectTunnel L} (h : t.Settled A start now)
    (hs : t.dtlsStarted = true) : t.drainSctp.1.Settled A start now := by
  have hp : t.pollAssociation.2.Settled A start now :=
    h.of_timing (timing_pollAssociation t) (advances_call (.pollAssociation t hs))
  have ha : .connected ∈ t.pollAssociation.1 → t.pollAssociation.2.association.isSome = true :=
    association_of_polled
  have ho := settled_observeSctpEvents hp ((dtlsStarted_pollAssociation t).trans hs) ha
  unfold drainSctp
  dsimp only
  split
  · exact ho.of_timing (timing_readStream _) (advances_readStream _)
  · exact ho

theorem settled_drainChannel {t : DirectTunnel L} (h : t.Settled A start now) :
    t.drainChannel.1.Settled A start now :=
  h.of_timing (timing_drainChannel t) (advances_calls (calls_drainChannel t))

theorem settled_drainTransmits {t : DirectTunnel L} (h : t.Settled A start now) :
    t.drainSctpTransmits.1.Settled A start now ∧ t.drainDtlsTransmits.Settled A start now :=
  ⟨h.of_timing (timing_drainSctpTransmits t) (advances_drainSctpTransmits t),
    h.of_timing (timing_drainDtlsTransmits t) (advances_drainDtlsTransmits t)⟩

theorem settled_maybeOpen {t : DirectTunnel L} (h : t.Settled A start now) :
    t.maybeOpen.Settled A start now := by
  have hphases := (advances_maybeOpen t).phases h.traced.phases
  unfold maybeOpen at hphases ⊢
  split
  · exact h
  · rename_i ho
    rw [if_neg ho] at hphases
    split
    · rename_i hready
      rw [if_pos hready] at hphases
      simp only [Bool.and_eq_true] at hready
      refine ⟨⟨?_, hphases⟩, fun hdtls => ?_⟩
      · show ({ t.timing with opened := true, trace := t.trace.observeOpen (t.ms t.lastNow) } :
            Timing L).Traced A start now
        rw [h.traced.ms_lastNow]
        exact h.traced.timing.observeOpen hready.1 (Bool.eq_false_iff.mpr ho)
      · have hd : t.trace.dtlsMs.isSome = true :=
          h.traced.timing.dtlsFlag.trans (h.traced.timing.afterDtls hready.1)
        obtain ⟨x, hx⟩ := Option.isSome_iff_exists.mp (h.caughtUp hd)
        exact Option.isSome_iff_exists.mpr
          ⟨x, (t.trace.kept_observeOpen (t.ms t.lastNow)).ice x hx⟩
    · exact h

/-- **The pump takes the readings in order**, wherever an error stops it. -/
theorem settled_pump {t : DirectTunnel L} (h : t.Traced A start now) (hf : t.finished = false) :
    t.pump.1.Settled A start now := by
  have hice := settled_pumpIce h hf
  unfold pump
  dsimp only
  refine Outcome.andThen_keeps (P := fun s : DirectTunnel L => s.Settled A start now) ?_
    (fun s hs => settled_maybeOpen hs)
  split
  · rename_i hs
    unfold pumpStarted
    refine Outcome.andThen_keeps (P := fun s : DirectTunnel L => s.Settled A start now) ?_
      (fun s hs => (settled_drainTransmits hs).2)
    refine Outcome.andThen_keeps (P := fun s : DirectTunnel L => s.Settled A start now) ?_
      (fun s hs => (settled_drainTransmits hs).1)
    exact Outcome.andThen_keeps (P := fun s : DirectTunnel L => s.Settled A start now) (settled_drainSctp hice hs)
      (fun s hs => settled_drainChannel hs)
  · exact hice

/-- The time an operation brings. -/
def Op.nowMs : Op → Option UInt64
  | .receive nowMs _ => some nowMs
  | .receiveDeferred nowMs _ => some nowMs
  | .tick nowMs => some nowMs
  | _ => none

theorem kept_observed (t : DirectTunnel L) (es : List IceEvent) :
    t.trace.Kept (t.observed es) := by
  induction es generalizing t with
  | nil => exact .refl _
  | cons e es ih =>
    have hstep : t.trace.Kept (t.observeIceEvent e).trace := by
      unfold observeIceEvent
      split
      · exact t.trace.kept_observeIce _
      · exact t.trace.kept_observeIce _
      · exact .refl _
    exact hstep.trans (ih (t.observeIceEvent e))

theorem kept_touch {t r : DirectTunnel L} (h : Touch t r) : t.trace.Kept r.trace := by
  cases h with
  | iceEvents => exact kept_observed t _
  | handshake now _ _ => exact t.trace.kept_observeDtls _
  | connected _ _ => exact t.trace.kept_observeSctp _
  | «open» _ _ _ => exact t.trace.kept_observeOpen _
  | _ => exact .refl _

/-- **A recorded reading never changes.** -/
theorem kept_step (t : DirectTunnel L) (op : Op) : t.trace.Kept (t.step op).trace := by
  cases hs : op.isSetting with
  | false =>
    refine step_keeps_touch (I := fun s => t.trace.Kept s.trace)
      (fun _ _ hc h => h.trans (kept_touch hc)) (fun data w _ hw h => ?_) hs (.refl _)
    cases hw <;> exact h
  | true =>
    cases op with
    | applyRemoteAnswerSdp sdp =>
      rw [step, applyRemoteAnswerSdp]
      split <;> exact .refl _
    | _ => first | exact .refl _ | cases hs

theorem kept_run (t : DirectTunnel L) (ops : List Op) : t.trace.Kept (run step t ops).trace :=
  invariant (I := fun s : DirectTunnel L => t.trace.Kept s.trace)
    (fun s op h => h.trans (kept_step s op)) ops (.refl _)

theorem Settled.clock {t : DirectTunnel L} (h : t.Settled A start now) {later : UInt64}
    (hl : now ≤ later) :
    ({ t with lastNow := t.epoch.addMillis later } : DirectTunnel L).Traced A start later :=
  ⟨h.traced.timing.clock h.caughtUp hl rfl,
    (advances_call (.clock t (t.epoch.addMillis later))).phases h.traced.phases⟩

theorem timing_handleTimeouts (t : DirectTunnel L) (now : Instant) :
    (t.handleTimeouts now).timing =
      { t.timing with ice := (L.ice.handleTimeout t.ice now).1 } := by
  unfold handleTimeouts
  dsimp only
  split <;> rfl

theorem traced_handleTimeouts {t : DirectTunnel L} (h : t.Traced A start now) :
    (t.handleTimeouts t.lastNow).Traced A start now := by
  refine ⟨?_, life_handleTimeouts t t.lastNow ▸ h.phases⟩
  rw [timing_handleTimeouts]
  exact h.timing.iceInput (.timeout t.ice)

/-- Without its pump a datagram leaves an open tunnel settled: ICE has its reading. -/
theorem settled_deferred {t : DirectTunnel L} (h : t.Settled A start now) {later : UInt64}
    (hl : now ≤ later) (hf : t.finished = false) (ho : t.opened = true) (datagram : Bytes) :
    (({ t with lastNow := t.epoch.addMillis later } : DirectTunnel L).ingest
      (t.epoch.addMillis later) datagram).Settled A start later := by
  refine ⟨traced_ingest (h.clock hl) hf datagram, fun _ => ?_⟩
  have hsctp : t.sctpConnected = true := h.traced.timing.afterSctp ho
  have hd : t.trace.dtlsMs.isSome = true :=
    h.traced.timing.dtlsFlag.trans (h.traced.timing.afterDtls hsctp)
  obtain ⟨x, hx⟩ := Option.isSome_iff_exists.mp (h.caughtUp hd)
  have hkept := Touches.keeps
    (I := fun s => t.trace.Kept s.trace) (fun _ _ hc hk => hk.trans (kept_touch hc))
    (calls_ingest ({ t with lastNow := t.epoch.addMillis later } : DirectTunnel L)
      (t.epoch.addMillis later) datagram).touches (.refl _)
  exact Option.isSome_iff_exists.mpr ⟨x, hkept.ice x hx⟩

theorem settled_send {t : DirectTunnel L} (h : t.Settled A start now) (data : Bytes) :
    (t.send data).2.Settled A start now := by
  rcases send_cases t data with
    ⟨result, hsend, _⟩ | ⟨association, hs, ⟨hw, hsend⟩ | ⟨hw, hsend⟩⟩
  · rw [hsend]
    exact h
  · rw [hsend]
    exact h.of_timing rfl (advances_write (.refused t association hs hw))
  · rw [hsend]
    have hwritten := h.of_timing (r := ({ t with
      association := some (t.writeMessage association data).1 } : DirectTunnel L).record
        (.writeChunk (encodeMessage data).2 (encodeMessage data).1)) rfl
      (advances_write (.accepted t association hs hw))
    exact (settled_drainTransmits (settled_drainTransmits (settled_drainChannel hwritten)).1).2

/-- **One operation takes the readings in order**, at its own time or at the time before. -/
theorem settled_step {t : DirectTunnel L} (h : t.Settled A start now) (op : Op)
    (hop : ∀ ms ∈ op.nowMs, now ≤ ms) :
    ∃ later, (later = now ∨ op.nowMs = some later) ∧ (t.step op).Settled A start later := by
  have same : ∀ {r : DirectTunnel L}, r.Settled A start now →
      ∃ later, (later = now ∨ op.nowMs = some later) ∧ r.Settled A start later :=
    fun hr => ⟨now, .inl rfl, hr⟩
  cases hf : t.finished with
  | true =>
    refine same ?_
    cases op with
    | receive nowMs datagram =>
      rw [step, receive, if_pos hf]
      exact h
    | receiveDeferred nowMs datagram =>
      rw [step, receiveDeferred, if_pos hf]
      exact h
    | finishInputBatch =>
      rw [step, finishInputBatch, hf, Bool.true_or, if_pos rfl]
      exact h
    | tick nowMs =>
      rw [step, tick, if_pos hf]
      exact h
    | send data => exact settled_send h data
    | close =>
      rw [step, close, if_pos hf]
      exact h
    | nextDeadline =>
      rw [step, nextDeadline, if_pos hf]
      exact h
    | applyRemoteAnswerSdp sdp =>
      rw [step, applyRemoteAnswerSdp]
      split
      · exact h.of_timing rfl (.of_life rfl)
      · exact h
    | setRemoteIceCredentials ufrag pwd =>
      exact ⟨⟨h.traced.timing.iceCall (.setRemoteCredentials t.ice ufrag pwd), h.traced.phases⟩,
        h.caughtUp⟩
    | _ => exact h.of_timing rfl (.of_life rfl)
  | false =>
    cases op with
    | receive nowMs datagram =>
      have hclock := h.clock (hop nowMs rfl)
      refine ⟨nowMs, .inr rfl, ?_⟩
      rw [step, receive, if_neg (by simp [hf])]
      exact settled_pump (traced_ingest hclock hf datagram)
        ((mute_ingest _ _ datagram).steady.finished.trans hf)
    | receiveDeferred nowMs datagram =>
      have hclock := h.clock (hop nowMs rfl)
      refine ⟨nowMs, .inr rfl, ?_⟩
      rw [step, receiveDeferred, if_neg (by simp [hf])]
      have hquiet := (mute_ingest ({ t with lastNow := t.epoch.addMillis nowMs } :
        DirectTunnel L) (t.epoch.addMillis nowMs) datagram).steady
      dsimp only
      split
      · rename_i ho
        exact settled_deferred h (hop nowMs rfl) hf (hquiet.opened.symm.trans ho) datagram
      · exact settled_pump (traced_ingest hclock hf datagram) (hquiet.finished.trans hf)
    | finishInputBatch =>
      refine same ?_
      rw [step, finishInputBatch]
      split
      · exact h
      · exact settled_pump h.traced hf
    | tick nowMs =>
      have hpump : (({ t with lastNow := t.epoch.addMillis nowMs } :
          DirectTunnel L).handleTimeouts (t.epoch.addMillis nowMs)).pump.1.Settled A start nowMs :=
        settled_pump (traced_handleTimeouts (h.clock (hop nowMs rfl)))
          ((mute_handleTimeouts _ _).steady.finished.trans hf)
      refine ⟨nowMs, .inr rfl, ?_⟩
      rw [step, tick, if_neg (by simp [hf])]
      dsimp only
      split
      · exact settled_finish hpump (by decide)
      · exact hpump
    | send data => exact same (settled_send h data)
    | close =>
      have hphases := (advances_calls (calls_close t)).phases h.traced.phases
      refine same ?_
      rw [step]
      unfold close at hphases ⊢
      rw [if_neg (by simp [hf])] at hphases ⊢
      unfold finish at hphases ⊢
      rw [if_neg (by simp [hf])] at hphases ⊢
      exact ⟨⟨h.traced.timing.finish h.caughtUp _, hphases⟩, h.caughtUp⟩
    | nextDeadline =>
      refine same ?_
      rw [step, nextDeadline, if_neg (by simp [hf])]
      exact ⟨⟨h.traced.timing.iceCall (.pollTimeout t.ice), h.traced.phases⟩, h.caughtUp⟩
    | applyRemoteAnswerSdp sdp =>
      refine same ?_
      rw [step, applyRemoteAnswerSdp]
      split
      · exact h.of_timing rfl (.of_life rfl)
      · exact h
    | setRemoteIceCredentials ufrag pwd =>
      exact same ⟨⟨h.traced.timing.iceCall (.setRemoteCredentials t.ice ufrag pwd),
        h.traced.phases⟩, h.caughtUp⟩
    | _ => exact same (h.of_timing rfl (.of_life rfl))

theorem settled_run {t : DirectTunnel L} (ops : List Op) (h : t.Settled A start now)
    (hops : (now :: ops.filterMap Op.nowMs).Pairwise (· ≤ ·)) :
    ∃ later, (run step t ops).Settled A start later := by
  induction ops generalizing t now with
  | nil => exact ⟨now, h⟩
  | cons op ops ih =>
    rw [run_cons]
    cases hop : op.nowMs with
    | none =>
      rw [List.filterMap_cons_none hop] at hops
      obtain ⟨later, hlater | hlater, hstep⟩ := settled_step h op (by simp [hop])
      · subst hlater
        exact ih hstep hops
      · rw [hop] at hlater
        cases hlater
    | some ms =>
      rw [List.filterMap_cons_some hop, List.pairwise_cons] at hops
      obtain ⟨hle, hrest⟩ := hops
      obtain ⟨later, hlater | hlater, hstep⟩ := settled_step h op fun x hx => by
        rw [hop] at hx
        cases hx
        exact hle ms (List.mem_cons_self ..)
      · subst hlater
        exact ih hstep (List.pairwise_cons.mpr
          ⟨fun x hx => hle x (List.mem_cons_of_mem _ hx), hrest.of_cons⟩)
      · rw [hop] at hlater
        cases hlater
        exact ih hstep hrest

/-- An agent that had no input after its start. -/
structure Launched (A : AnnouncesSelection L.ice) (start : Instant) (a : L.ice.Agent) : Prop where
  fed : A.fed start start a
  queued : A.announced a → Queued L.ice a

theorem Launched.call {start : Instant} {a b : L.ice.Agent} (h : Launched A start a)
    (hc : IceCall L.ice a b) : Launched A start b :=
  ⟨A.call hc h.fed, fun hb =>
    (A.announces (.inr hc) hb).elim (fun ha => A.keeps (.inr hc) (h.queued ha)) id⟩

theorem Launched.input {start : Instant} {a b : L.ice.Agent} (h : Launched A start a)
    (hi : IceInput L.ice start a b) : Launched A start b :=
  ⟨A.input hi h.fed (Nat.le_refl _), fun hb =>
    (A.announces (.inl ⟨_, hi⟩) hb).elim (fun ha => A.keeps (.inl ⟨_, hi⟩) (h.queued ha)) id⟩

theorem launched_build {h : BuildHost} {role : Role} {config : TunnelConfig}
    {localAddr : SocketAddr} {nowMs : UInt64} {t : DirectTunnel L}
    (hb : build L h role config localAddr nowMs = .ok t) : Launched A t.lastNow t.ice := by
  obtain ⟨_, _, hb⟩ := bind_ok hb
  obtain ⟨ice₀, hnew, hb⟩ := bind_ok hb
  obtain ⟨prepared, hp, hb⟩ := bind_ok hb
  obtain ⟨certificate, _, hp⟩ := bind_ok hp
  obtain ⟨localFingerprint, _, hp⟩ := bind_ok hp
  obtain ⟨_, _, hp⟩ := bind_ok hp
  cases hp
  obtain ⟨candidates, hc, hb⟩ := bind_ok hb
  obtain ⟨c, _, hc⟩ := bind_ok hc
  obtain ⟨_, _, hc⟩ := bind_ok hc
  obtain ⟨remote, _, hc⟩ := bind_ok hc
  obtain ⟨_, _, hc⟩ := bind_ok hc
  cases hc
  obtain ⟨_, _, hb⟩ := bind_ok hb
  cases hb
  obtain ⟨hfed, hqueued⟩ := A.new (eq_ok_of_configError hnew)
  have hfresh : Launched A _ ice₀ := ⟨hfed, hqueued⟩
  exact ((hfresh.call (.addLocal ice₀ c)).call (.addRemote _ remote)).call
    (.setRemoteCredentials _ config.iceUfrag config.icePwd)

theorem launched_startChecks {t r : DirectTunnel L} (h : Launched A t.lastNow t.ice)
    (hr : t.startChecks = .ok r) : Launched A r.lastNow r.ice := by
  obtain ⟨_, _, hr⟩ := bind_ok hr
  cases hr
  exact h.input (.startChecks t.ice _ _ _)

theorem settled_construct {h : BuildHost} {config : TunnelConfig} {localAddr : SocketAddr}
    {nowMs : UInt64} {c : Constructor} {t : DirectTunnel L}
    (hc : construct L h config localAddr nowMs c = .ok t) : t.Settled A nowMs nowMs := by
  obtain ⟨_, _, built, _, hb, ht⟩ := build_of_construct hc
  have hlaunched : Launched A t.lastNow t.ice := launched_startChecks (launched_build hb) ht
  obtain ⟨_, _, _, _, _, _, _, _, rfl⟩ := built_construct hc
  refine ⟨⟨?_, (fresh_construct hc).phases⟩, fun hd => (by cases hd)⟩
  constructor
  · rfl
  · rfl
  · exact fun _ => ⟨_, Nat.le_refl _, hlaunched.fed⟩
  · exact fun _ ha => .inr (hlaunched.queued ha)
  · exact fun hd => (by cases hd)
  · rfl
  · rfl
  · rfl
  · exact fun hs => (by cases hs)
  · exact fun ho => (by cases ho)
  all_goals
    intro x hx
    cases hx

/-- **The handshake trace is complete, in order and final** in every state of a run whose
times do not decrease. -/
theorem trace_ordered (A : AnnouncesSelection L.ice) {h : BuildHost} {config : TunnelConfig}
    {localAddr : SocketAddr} {nowMs : UInt64} {c : Constructor} {t : DirectTunnel L}
    (hc : construct L h config localAddr nowMs c = .ok t) (ops : List Op)
    (hops : (nowMs :: ops.filterMap Op.nowMs).Pairwise (· ≤ ·)) :
    (run step t ops).trace.startMs = nowMs ∧ (run step t ops).trace.Ordered ∧
      ∀ more, (run step t ops).trace.Kept (run step (run step t ops) more).trace := by
  obtain ⟨later, hsettled⟩ := settled_run ops (settled_construct (A := A) hc) hops
  exact ⟨hsettled.traced.timing.startMs, hsettled.traced.timing.ordered hsettled.caughtUp,
    kept_run _⟩

end DirectTunnel

namespace Script

theorem queued_iff (a : Agent) : Queued ice a ↔ ∃ e ∈ a.events, e.tells = true := by
  unfold Queued
  have hd := (Base.Poll.Source.queues_queue Agent.eventSlot).drain a
  rw [show (ice.events.drain a).1 = a.events from hd.1]

/-- What a call of the agent leaves to be polled, and what it selected. -/
structure Onward (a b : Agent) : Prop where
  events : ∃ es, b.events = a.events ++ es
  selected : b.selected = true → a.selected = true ∨ ∃ e ∈ b.events, e.tells = true

theorem onward_handleRead (a : Agent) (now : Instant) : Onward a (a.handleRead now) := by
  unfold Agent.handleRead
  dsimp only
  split
  · rename_i hs
    exact ⟨⟨[], (List.append_nil _).symm⟩, fun _ => .inl hs⟩
  · refine ⟨⟨_, rfl⟩, fun _ => .inr ⟨⟨.connectionStateChange .connected, now⟩, ?_, rfl⟩⟩
    exact List.mem_append_right _ (List.mem_singleton_self _)

theorem onward_handleTimeout (a : Agent) (now : Instant) : Onward a (a.handleTimeout now) := by
  unfold Agent.handleTimeout
  split
  · exact ⟨⟨_, rfl⟩, fun hs => .inl hs⟩
  · exact ⟨⟨[], (List.append_nil _).symm⟩, fun hs => .inl hs⟩

theorem Onward.same {a b : Agent} (he : b.events = a.events) (hs : b.selected = a.selected) :
    Onward a b :=
  ⟨⟨[], by rw [he, List.append_nil]⟩, fun h => .inl (hs ▸ h)⟩

theorem onward_input {now : Instant} {a b : ice.Agent} (h : IceInput ice now a b) :
    Onward a b := by
  cases h with
  | startChecks controlling ufrag pwd => exact .same rfl rfl
  | read «local» remote datagram => exact onward_handleRead a now
  | timeout => exact onward_handleTimeout a now

theorem onward_call {a b : ice.Agent} (h : IceCall ice a b) : Onward a b := by
  cases h with
  | writes =>
    exact .same (Base.Poll.Source.queue_keeps Agent.writeSlot Agent.events (fun _ _ => rfl) a)
      (Base.Poll.Source.queue_keeps Agent.writeSlot Agent.selected (fun _ _ => rfl) a)
  | _ => exact .same rfl rfl

theorem onward_either {a b : ice.Agent} (h : (∃ now, IceInput ice now a b) ∨ IceCall ice a b) :
    Onward a b :=
  h.elim (fun ⟨_, h⟩ => onward_input h) onward_call

/-- The stamps that wait lie between the start and the latest input. -/
structure Stamped (start latest : Instant) (a : Agent) : Prop where
  begun : start ≤ a.seen
  seen : a.seen ≤ latest
  events : ∀ e ∈ a.events, e.tells = true → start ≤ e.now ∧ e.now ≤ latest

theorem Stamped.of_eq {start latest : Instant} {a b : Agent} (h : Stamped start latest a)
    (hs : b.seen = a.seen) (he : ∀ e ∈ b.events, e ∈ a.events) : Stamped start latest b :=
  ⟨hs ▸ h.begun, hs ▸ h.seen, fun e hm => h.events e (he e hm)⟩

theorem Stamped.later {start latest now : Instant} {a : Agent} (h : Stamped start latest a)
    (hl : latest ≤ now) : Stamped start now a :=
  ⟨h.begun, Nat.le_trans h.seen hl, fun e he ht =>
    ⟨(h.events e he ht).1, Nat.le_trans (h.events e he ht).2 hl⟩⟩

theorem stamped_handleRead {start latest now : Instant} {a : Agent}
    (h : Stamped start latest a) (hl : latest ≤ now) :
    Stamped start now (a.handleRead now) := by
  have hs : start ≤ now := Nat.le_trans h.begun (Nat.le_trans h.seen hl)
  have hold := (h.later hl).events
  unfold Agent.handleRead
  dsimp only
  split
  · exact ⟨hs, Nat.le_refl _, hold⟩
  · refine ⟨hs, Nat.le_refl _, fun e he ht => ?_⟩
    rcases List.mem_append.mp he with he | he
    · exact hold e he ht
    · rw [List.mem_singleton.mp he]
      exact ⟨hs, Nat.le_refl _⟩

theorem stamped_handleTimeout {start latest now : Instant} {a : Agent}
    (h : Stamped start latest a) (hl : latest ≤ now) :
    Stamped start now (a.handleTimeout now) := by
  obtain ⟨hs, hseen, hold⟩ := h.later hl
  unfold Agent.handleTimeout
  split
  · refine ⟨hs, hseen, fun e he ht => ?_⟩
    rcases List.mem_append.mp he with he | he
    · exact hold e he ht
    · rw [List.mem_singleton.mp he] at ht
      cases ht
  · exact ⟨hs, hseen, hold⟩

def announcing : AnnouncesSelection ice where
  announced (a : Agent) := a.selected = true
  fed := Stamped
  new h := by
    cases h
    exact ⟨⟨Nat.le_refl _, Nat.le_refl _, fun e he => (by cases he)⟩, fun h => (by cases h)⟩
  input hi h hl := by
    cases hi with
    | startChecks controlling ufrag pwd => exact h.later hl
    | read «local» remote datagram => exact stamped_handleRead h hl
    | timeout => exact stamped_handleTimeout h hl
  call {start latest a b} hc h := by
    cases hc with
    | writes =>
      have hevents := Base.Poll.Source.queue_keeps Agent.writeSlot Agent.events (fun _ _ => rfl) a
      exact h.of_eq (Base.Poll.Source.queue_keeps Agent.writeSlot Agent.seen (fun _ _ => rfl) a)
        fun e he => hevents ▸ he
    | _ => exact h.of_eq rfl fun _ he => he
  polled {start latest} a h := by
    have hevents : Agent.events (ice.events.poll a).2 = (Agent.events a).tail :=
      congrArg (fun r => Agent.events r.2) (Base.Poll.Source.queue_poll Agent.eventSlot a)
    exact h.of_eq (Base.Poll.Source.queue_keeps Agent.eventSlot Agent.seen (fun _ _ => rfl) a)
      fun e he => List.mem_of_mem_tail (hevents ▸ he)
  stamped {start latest a} h e he := by
    have hd : (ice.events.drain a).1 = Agent.events a :=
      ((Base.Poll.Source.queues_queue Agent.eventSlot).drain a).1
    exact h.events e (hd ▸ he)
  announces {a b} hc hs := ((onward_either hc).selected hs).imp_right (queued_iff b).mpr
  keeps {a b} hc hq := by
    obtain ⟨es, hes⟩ := (onward_either hc).events
    obtain ⟨e, he, ht⟩ := (queued_iff a).mp hq
    exact (queued_iff b).mpr ⟨e, hes ▸ List.mem_append_left _ he, ht⟩
  drained a h :=
    (Base.Poll.Source.queue_keeps Agent.eventSlot Agent.selected (fun _ _ => rfl) a).symm.trans h
  selected _ h := h

end Script

namespace DirectTunnel

/-- A whole handshake, with a packet of each layer at its own time. -/
theorem trace_ordered_dialer :
    (run step Script.dialer [.receive 1 [0], .receive 2 [22, 7], .tick 2, .receive 5 [23, 2]]).trace
      = ⟨0, some 1, some 2, some 5, some 5⟩ ∧
    (run step Script.dialer
      [.receive 1 [0], .receive 2 [22, 7], .tick 2, .receive 5 [23, 2]]).trace.Ordered :=
  ⟨by decide +kernel,
    (trace_ordered Script.announcing Script.build_dialer
      [.receive 1 [0], .receive 2 [22, 7], .tick 2, .receive 5 [23, 2]] (by decide)).2.1⟩

end DirectTunnel

end RtcTunnel.Direct
