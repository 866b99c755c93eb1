import RtcTunnel.Direct.Pump
import RtcTunnel.Direct.Script
import RtcTunnel.Direct.Touches

/-!
# Phases come up in order and only once

The chain of phases from a selected ICE pair to the open channel, in every state of
every run. That DTLS reports no handshake of its own accord is what is assumed of it.
-/

namespace RtcTunnel.Direct

open RtcTunnel.Core
open RtcTunnel.Base (Outcome)
open RtcTunnel.Base.Poll (Source)
open RtcTunnel.Base.Run

set_option autoImplicit false

/-- **What is assumed of `rtc-dtls`**: an endpoint that serves nobody reports a completed
handshake only for a connection it was told to make. -/
structure ReportsWhatWasAsked (D : DtlsApi) where
  asked : D.Endpoint → Prop
  new : ¬ asked D.new
  connect : ∀ d now remote config, asked (D.connect d now remote config).1 →
    asked d ∨ (D.connect d now remote config).2.isOk = true
  read : ∀ d now remote datagram, asked (D.read d now remote datagram).1 → asked d
  write : ∀ d now remote raw, asked (D.write d now remote raw).1 → asked d
  handleTimeout : ∀ d remote now, asked (D.handleTimeout d remote now).1 → asked d
  transmits : ∀ d, asked (D.transmits.poll d).2 → asked d
  reported : ∀ d now remote datagram events, (D.read d now remote datagram).2 = .ok events →
    .handshakeComplete ∈ events → asked (D.read d now remote datagram).1

/-- A connection DTLS made. -/
def Entry.dtlsMade : Entry → Bool
  | .dtlsConnect _ ok => ok
  | _ => false

/-- An association the tunnel made. -/
def Entry.sctpMade : Entry → Bool
  | .sctpConnect ok => ok
  | _ => false

def Entry.streamMade : Entry → Bool
  | .openStream _ _ ok => ok
  | _ => false

/-- A message that was delivered, or one that was accepted. -/
def Entry.isMessage : Entry → Bool
  | .pushed (.message _) => true
  | .writeChunk _ _ => true
  | _ => false

namespace Life

/-- Each layer was brought up at most once. -/
structure Once (s : Life) : Prop where
  dtls : s.log.countP Entry.dtlsMade ≤ s.dtlsStarted.toNat
  sctp : s.log.countP Entry.sctpMade ≤ s.endpoint.toNat
  channel : s.log.countP Entry.streamMade ≤ s.channelDialed.toNat

theorem once_move (a b : Life) (hm : Move a b) (h : a.Once) : b.Once := by
  obtain ⟨hd, hs, hc⟩ := h
  have grow : ∀ e : Entry, e.dtlsMade = false → e.sctpMade = false → e.streamMade = false →
      (a.log ++ [e]).countP Entry.dtlsMade = a.log.countP Entry.dtlsMade ∧
        (a.log ++ [e]).countP Entry.sctpMade = a.log.countP Entry.sctpMade ∧
        (a.log ++ [e]).countP Entry.streamMade = a.log.countP Entry.streamMade := by
    intro e h1 h2 h3
    simp [List.countP_append, h1, h2, h3]
  have plain : ∀ e : Entry, e.dtlsMade = false → e.sctpMade = false → e.streamMade = false →
      ∀ b : Life, b.log = a.log ++ [e] → b.dtlsStarted = a.dtlsStarted →
      a.endpoint.toNat ≤ b.endpoint.toNat → a.channelDialed.toNat ≤ b.channelDialed.toNat →
      b.Once := by
    intro e h1 h2 h3 b hl hd' he' hc'
    obtain ⟨g1, g2, g3⟩ := grow e h1 h2 h3
    constructor
    · rw [hl, g1, hd']
      exact hd
    · rw [hl, g2]
      exact hs.trans he'
    · rw [hl, g3]
      exact hc.trans hc'
  cases hm with
  | serve ok hn => exact ⟨(hn ▸ hd).trans (Nat.zero_le _), hs, hc⟩
  | dial remote ok hn =>
    rw [hn] at hd
    refine ⟨?_, ?_, ?_⟩
    · cases ok <;> simpa [record, List.countP_append, Entry.dtlsMade] using hd
    · simpa [record, List.countP_append, Entry.sctpMade] using hs
    · simpa [record, List.countP_append, Entry.streamMade] using hc
  | listen hd' he => exact ⟨hd, (he ▸ hs).trans (Nat.zero_le _), hc⟩
  | associate ok hd' he =>
    rw [he] at hs
    refine ⟨?_, ?_, ?_⟩
    · simpa [record, List.countP_append, Entry.dtlsMade] using hd
    · show (a.log ++ [_]).countP Entry.sctpMade ≤ 1
      rw [List.countP_append, Nat.le_zero.mp hs]
      cases ok <;> decide
    · simpa [record, List.countP_append, Entry.streamMade] using hc
  | dialNothing hc' hn ha => exact ⟨hd, hs, (hn ▸ hc).trans (Nat.zero_le _)⟩
  | dialRefused hc' hn ha => exact plain _ rfl rfl rfl _ rfl rfl le_rfl (by simp [hn])
  | dialAccepted ok hc' hn ha =>
    rw [hn] at hc
    refine ⟨?_, ?_, ?_⟩
    · simpa [record, List.countP_append, Entry.dtlsMade] using hd
    · simpa [record, List.countP_append, Entry.sctpMade] using hs
    · show ((a.log ++ [_]) ++ [_]).countP Entry.streamMade ≤ 1
      rw [List.countP_append, List.countP_append, Nat.le_zero.mp hc]
      rfl
  | _ => exact plain _ rfl rfl rfl _ rfl rfl le_rfl le_rfl

/-- No message before the handshake. -/
structure Secured (s : Life) : Prop where
  phases : s.Phases
  recorded : s.Recorded
  precedes : Precedes (·.isHandshake = true) (·.isMessage = true) s.log

theorem secured_move (a b : Life) (hm : Move a b) (h : a.Secured) : b.Secured := by
  refine ⟨phases_move a b hm h.phases, recorded_move a b hm h.recorded, ?_⟩
  have behind : ∀ es : List Entry, a.association = true →
      Precedes (·.isHandshake = true) (·.isMessage = true) (a.log ++ es) := by
    intro es ha
    obtain ⟨peer, hp⟩ := h.recorded.handshake (h.phases.endpoint (h.phases.association ha))
    exact precedes_append h.precedes (.inr ⟨_, hp, rfl⟩)
  have plain : ∀ e : Entry, e.isMessage = false →
      Precedes (·.isHandshake = true) (·.isMessage = true) (a.log ++ [e]) := by
    intro e he
    refine precedes_append h.precedes (.inl (precedes_of_forall ?_))
    intro x hx
    rw [List.mem_singleton.mp hx, he]
    exact Bool.false_ne_true
  cases hm with
  | message data ha => exact behind _ ha
  | write payload ppi ho hf ha => exact behind _ ha
  | dialAccepted ok hc hd ha =>
    rw [record, record, List.append_assoc]
    exact behind _ ha
  | serve ok hs => exact h.precedes
  | listen hd he => exact h.precedes
  | dialNothing hc hd ha => exact h.precedes
  | _ => exact plain _ rfl

end Life

namespace DirectTunnel

variable {L : Layers}

/-- DTLS is connected, or just asked to connect, only once it started. -/
structure Told (H : ReportsWhatWasAsked L.dtls) (t : DirectTunnel L) : Prop where
  asked : t.role = .offerer → H.asked t.dtls → t.dtlsStarted = true
  connected : t.dtlsConnected = true → t.dtlsStarted = true

variable {H : ReportsWhatWasAsked L.dtls}

theorem told_touch {t r : DirectTunnel L} (hc : Touch t r) (h : t.Told H) : r.Told H := by
  obtain ⟨ha, hd⟩ := h
  cases hc with
  | serve hr hp hs => exact ⟨fun _ _ => rfl, fun _ => rfl⟩
  | connect config hr hc hp hs d ok hdtls hok =>
    refine ⟨fun ho had => ?_, fun hconn => absurd (hs.symm.trans (hd hconn)) nofun⟩
    rw [← hdtls] at had
    rcases H.connect _ _ _ _ had with had | had
    · exact absurd (hs.symm.trans (ha ho had)) nofun
    · exact hok ▸ had
  | dtlsRead now datagram hp => exact ⟨fun ho hr => ha ho (H.read _ _ _ _ hr), hd⟩
  | dtlsWrite raw hs => exact ⟨fun ho hw => ha ho (H.write _ _ _ _ hw), hd⟩
  | dtlsTimeout now hs => exact ⟨fun ho ht => ha ho (H.handleTimeout _ _ _ ht), hd⟩
  | dtlsTransmits =>
    refine ⟨fun ho ht => ha ho ?_, hd⟩
    exact L.dtls.transmits.drain_induction (P := fun d => H.asked d → H.asked t.dtls)
      (fun d hk hp => hk (H.transmits d hp)) id ht
  | handshake now hr hs =>
    have hstarted : t.dtlsStarted = true := by
      rcases hs with hs | ho
      · exact hs
      · obtain ⟨d, i, datagram, events, hread, hm⟩ := hr
        have hrep := H.reported d i t.remoteAddr datagram events (by rw [hread]) hm
        rw [hread] at hrep
        exact ha ho hrep
    exact ⟨fun _ _ => hstarted, fun _ => hstarted⟩
  | _ => exact ⟨ha, hd⟩

theorem told_step (t : DirectTunnel L) (op : Op) (h : t.Told H) : (t.step op).Told H := by
  cases hs : op.isSetting with
  | false =>
    refine step_keeps_touch (fun _ _ => told_touch) (fun data w _ hw h => ?_) hs h
    cases hw <;> exact ⟨h.asked, h.connected⟩
  | true =>
    cases op with
    | applyRemoteAnswerSdp sdp =>
      rw [step, applyRemoteAnswerSdp]
      split <;> exact ⟨h.asked, h.connected⟩
    | setRemote remote => exact ⟨h.asked, h.connected⟩
    | setRemoteIceCredentials ufrag pwd => exact ⟨h.asked, h.connected⟩
    | setSendBufferCap cap => exact ⟨h.asked, h.connected⟩
    | _ => cases hs

theorem told_construct {h : BuildHost} {config : TunnelConfig} {localAddr : SocketAddr}
    {nowMs : UInt64} {c : Constructor} {t : DirectTunnel L}
    (hc : construct L h config localAddr nowMs c = .ok t) : t.Told H := by
  obtain ⟨_, _, role, _, _, _, certificate, fingerprint, rfl⟩ := built_construct hc
  refine ⟨fun ho ha => ?_, nofun⟩
  have ho : role = .offerer := ho
  subst ho
  exact absurd ha H.new

/-- The datagram an operation feeds. -/
def Op.datagram : Op → Option Bytes
  | .receive _ datagram => some datagram
  | .receiveDeferred _ datagram => some datagram
  | _ => none

/-- The agents an operation asks for a selected pair, in its order. -/
def consulted (t : DirectTunnel L) (op : Op) : List L.ice.Agent :=
  (op.datagram.toList.filterMap fun datagram =>
      if t.finished || isStun datagram || !isDtls datagram then none else some t.ice) ++
    (t.pumpEntry op).toList.map fun s => s.drainIceEvents.drainIceWrites.ice

theorem dtlsStarted_ingest {t : DirectTunnel L} {now : Instant} {datagram : Bytes}
    (h : (t.ingest now datagram).dtlsStarted = true) : t.dtlsStarted = true ∨
      isStun datagram = false ∧ isDtls datagram = true ∧ L.ice.pairSelected t.ice = true := by
  have hd : (t.dispatch now datagram).1.dtlsStarted = true := by
    unfold ingest at h
    dsimp only at h
    split at h
    · exact h
    · exact h
  unfold dispatch at hd
  split at hd
  · exact .inl hd
  · rename_i hstun
    split at hd
    · rename_i hdtls
      split at hd
      · rename_i hp
        exact .inr ⟨by simpa using hstun, hdtls, hp⟩
      · exact .inl hd
    · exact .inl hd

theorem dtlsStarted_pump {t : DirectTunnel L} (h : t.pump.1.dtlsStarted = true) :
    t.dtlsStarted = true ∨ L.ice.pairSelected t.drainIceEvents.drainIceWrites.ice = true := by
  have hp : t.pumpIce.dtlsStarted = true := (congrArg Prod.snd (iceSide_pump t)).symm.trans h
  have hs : t.drainIceEvents.drainIceWrites.dtlsStarted = t.dtlsStarted := by
    rw [drainIceEvents_eq]
    rfl
  unfold pumpIce at hp
  dsimp only at hp
  split at hp
  · rename_i hsel
    exact .inr (Bool.and_eq_true_iff.mp hsel).1
  · exact .inl (hs ▸ hp)

theorem dtlsStarted_send (t : DirectTunnel L) (data : Bytes) :
    (t.send data).2.dtlsStarted = t.dtlsStarted := by
  obtain ⟨_, hr, _⟩ | ⟨association, hs, ⟨_, hr⟩ | ⟨_, hr⟩⟩ := send_cases t data
  · rw [hr]
  · rw [hr]
  · rw [hr]
    have hf : ∀ s : DirectTunnel L, s.flushAfterSend.iceSide = s.iceSide := by
      intro s
      rw [flushAfterSend]
      exact (iceSide_drainSctpTransmits _).trans (iceSide_drainChannel s)
    exact congrArg Prod.snd (hf _)

theorem consulted_dispatch {t : DirectTunnel L} {now : Instant} {datagram : Bytes} {op : Op}
    (hop : op.datagram = some datagram) (hf : t.finished = false)
    (h : ({ t with lastNow := now }.ingest now datagram).dtlsStarted = true) :
    t.dtlsStarted = true ∨ ∃ a ∈ t.consulted op, L.ice.pairSelected a = true := by
  rcases dtlsStarted_ingest h with hs | ⟨hn, hd, hp⟩
  · exact .inl hs
  · refine .inr ⟨t.ice, List.mem_append_left _ ?_, hp⟩
    rw [hop]
    simp [hf, hn, hd]

theorem consulted_entry {t s : DirectTunnel L} {op : Op} (he : t.pumpEntry op = some s)
    (h : s.dtlsStarted = true) :
    t.dtlsStarted = true ∨ ∃ a ∈ t.consulted op, L.ice.pairSelected a = true := by
  cases op with
  | receive nowMs datagram =>
    simp only [pumpEntry, Option.ite_none_left_eq_some, Option.some.injEq] at he
    obtain ⟨hf, rfl⟩ := he
    exact consulted_dispatch rfl (by simpa using hf) h
  | receiveDeferred nowMs datagram =>
    simp only [pumpEntry, Option.ite_none_left_eq_some, Option.some.injEq] at he
    obtain ⟨hf, _, rfl⟩ := he
    exact consulted_dispatch rfl (by simpa using hf) h
  | finishInputBatch =>
    simp only [pumpEntry, Option.ite_none_left_eq_some, Option.some.injEq] at he
    obtain ⟨_, rfl⟩ := he
    exact .inl h
  | tick nowMs =>
    simp only [pumpEntry, Option.ite_none_left_eq_some, Option.some.injEq] at he
    obtain ⟨_, rfl⟩ := he
    have hk : (({ t with lastNow := t.epoch.addMillis nowMs } : DirectTunnel L).handleTimeouts
        (t.epoch.addMillis nowMs)).dtlsStarted = t.dtlsStarted :=
      congrArg Life.dtlsStarted (life_handleTimeouts _ _)
    exact .inl (hk.symm.trans h)
  | _ => cases he

/-- An operation starts DTLS only if it found a pair selected. -/
theorem dtlsStarted_step {t : DirectTunnel L} {op : Op} (h : (t.step op).dtlsStarted = true) :
    t.dtlsStarted = true ∨ ∃ a ∈ t.consulted op, L.ice.pairSelected a = true := by
  cases he : t.pumpEntry op with
  | some s =>
    rw [step_pump he] at h
    have hp : s.pump.1.dtlsStarted = true := by
      cases op with
      | tick nowMs =>
        rw [afterPump] at h
        split at h
        · exact (congrArg Prod.snd (iceSide_finish _ _)).symm.trans h
        · exact h
      | _ => exact h
    rcases dtlsStarted_pump hp with hs | hsel
    · exact consulted_entry he hs
    · refine .inr ⟨_, List.mem_append_right _ ?_, hsel⟩
      rw [he]
      exact List.mem_singleton_self _
  | none =>
    cases op with
    | receive nowMs datagram =>
      by_cases hf : t.finished = true
      · rw [step, receive, if_pos hf] at h
        exact .inl h
      · rw [pumpEntry, if_neg hf] at he
        cases he
    | receiveDeferred nowMs datagram =>
      by_cases hf : t.finished = true
      · rw [step, receiveDeferred, if_pos hf] at h
        exact .inl h
      · rw [pumpEntry, if_neg hf] at he
        rw [step, receiveDeferred, if_neg hf] at h
        dsimp only at he h
        split at h
        · exact consulted_dispatch rfl (by simpa using hf) h
        · rename_i ho
          rw [if_neg ho] at he
          cases he
    | finishInputBatch =>
      by_cases hf : (t.finished || !t.opened) = true
      · rw [step, finishInputBatch, if_pos hf] at h
        exact .inl h
      · rw [pumpEntry, if_neg hf] at he
        cases he
    | tick nowMs =>
      by_cases hf : t.finished = true
      · rw [step, tick, if_pos hf] at h
        exact .inl h
      · rw [pumpEntry, if_neg hf] at he
        cases he
    | send data => exact .inl ((dtlsStarted_send t data).symm.trans h)
    | close =>
      refine .inl ?_
      rw [step, close] at h
      split at h
      · exact h
      · have hf := iceSide_finish { t with ice := (L.ice.close t.ice).1 } .local
        exact (congrArg Prod.snd hf).symm.trans h
    | nextDeadline =>
      refine .inl ?_
      rw [step, nextDeadline] at h
      split at h <;> exact h
    | applyRemoteAnswerSdp sdp =>
      refine .inl ?_
      rw [step, applyRemoteAnswerSdp] at h
      split at h <;> exact h
    | _ => exact .inl h

/-- At some earlier moment of the run ICE had a pair selected when it was asked. -/
def PairSelected (t : DirectTunnel L) (ops : List Op) : Prop :=
  ∃ before op after, ops = before ++ op :: after ∧
    ∃ a ∈ (run step t before).consulted op, L.ice.pairSelected a = true

theorem pairSelected_run {t : DirectTunnel L} (ht : t.dtlsStarted = false) (ops : List Op)
    (h : (run step t ops).dtlsStarted = true) : t.PairSelected ops := by
  induction ops using List.reverseRecOn with
  | nil => exact absurd (ht.symm.trans h) nofun
  | append_singleton ops op ih =>
    rw [run_append] at h
    rcases dtlsStarted_step h with hs | hsel
    · obtain ⟨before, found, after, rfl, hsel⟩ := ih hs
      exact ⟨before, found, after ++ [op], by simp, hsel⟩
    · exact ⟨ops, op, [], rfl, hsel⟩

/-- Each phase has the one before it. -/
structure Chain (t : DirectTunnel L) : Prop where
  opened : t.opened = true → t.channelDialed = true
  channelDialed : t.channelDialed = true → t.sctpConnected = true
  sctpConnected : t.sctpConnected = true → t.association.isSome = true
  association : t.association.isSome = true → t.sctp.isSome = true
  sctp : t.sctp.isSome = true → t.dtlsConnected = true
  dtlsConnected : t.dtlsConnected = true → t.dtlsStarted = true

theorem accepted_connected {t : DirectTunnel L} (hc : t.Chain) {data : Bytes}
    (h : (t.send data).1 = .accepted) : t.dtlsConnected = true := by
  obtain ⟨_, hr, hn⟩ | ⟨association, hs, _⟩ := send_cases t data
  · rw [hr] at h
    exact absurd h hn
  · exact hc.sctp (hc.association (hc.sctpConnected (hc.channelDialed (hc.opened hs.opened))))

/-- **Phases come up in order and only once**, in every state of every run, and none is
undone behind it. -/
theorem phases_in_order (H : ReportsWhatWasAsked L.dtls) {h : BuildHost} {config : TunnelConfig}
    {localAddr : SocketAddr} {nowMs : UInt64} {c : Constructor} {t : DirectTunnel L}
    (hc : construct L h config localAddr nowMs c = .ok t) (ops : List Op) :
    (run step t ops).Chain ∧
      ((run step t ops).dtlsStarted = true → t.PairSelected ops) ∧
      (∀ more, (run step t ops).life.Forward (run step t (ops ++ more)).life) ∧
      (run step t ops).life.Once ∧
      Precedes (·.isHandshake = true) (·.isMessage = true) (run step t ops).log ∧
      ∀ data, ((run step t ops).send data).1 = .accepted →
        (run step t ops).dtlsConnected = true := by
  have fresh := fresh_construct hc
  have hp := phases_run hc ops
  have ht : (run step t ops).Told H := invariant told_step ops (told_construct hc)
  have chain : (run step t ops).Chain :=
    ⟨hp.opened, hp.dialed, hp.connected, hp.association, hp.endpoint, ht.connected⟩
  have once : t.life.Once := by
    constructor <;> rw [fresh.log] <;> exact Nat.zero_le _
  have secured : t.life.Secured :=
    ⟨fresh.phases, fresh.recorded, by rw [fresh.log]; exact precedes_nil⟩
  refine ⟨chain, pairSelected_run fresh.dtlsStarted ops, fun more => ?_,
    life_invariant Life.once_move once, (life_invariant Life.secured_move secured).precedes,
    fun data => accepted_connected chain⟩
  rw [run_append]
  exact Life.forward_moves (advances_run _ more)

end DirectTunnel

namespace Script

theorem read_reported {d : Dtls} {datagram : Bytes} {events : List DtlsEvent}
    (h : (d.read datagram).2 = .ok events) (hm : .handshakeComplete ∈ events) :
    (d.read datagram).1.config.isSome = true := by
  unfold Dtls.read at h ⊢
  split at h
  · split at h
    · rename_i ha
      rw [if_pos ha]
      show d.config.isSome = true
      cases hc : d.config with
      | none =>
        rw [hc] at ha
        cases ha
      | some config => rfl
    · cases h
  · cases h
    simp at hm
  · cases h
    cases hm

theorem read_keeps_config (d : Dtls) (datagram : Bytes) :
    (d.read datagram).1.config = d.config := by
  unfold Dtls.read
  split
  · split <;> rfl
  · rfl
  · rfl

/-- The scripted endpoint knows a connection by its configuration. -/
def reportsWhatWasAsked : ReportsWhatWasAsked dtls where
  asked d := d.config.isSome = true
  new := Bool.false_ne_true
  connect _ _ _ _ _ := .inr rfl
  read d _ _ datagram h := (congrArg Option.isSome (read_keeps_config d datagram)).symm.trans h
  write _ _ _ _ h := h
  handleTimeout _ _ _ h := h
  transmits d h := by
    have hk := Source.queue_keeps Dtls.transmitSlot Dtls.config (fun _ _ => rfl) d
    exact (congrArg Option.isSome hk).symm.trans h
  reported _ _ _ _ _ h hm := read_reported h hm

end Script

namespace DirectTunnel

theorem phases_in_order_opened : (run step Script.dialer
    [.receive 1 [0], .receive 2 [22, 7], .receive 3 [23, 2]]).Chain ∧
      Script.dialer.PairSelected [.receive 1 [0], .receive 2 [22, 7], .receive 3 [23, 2]] := by
  have h := phases_in_order (L := Script.layers) Script.reportsWhatWasAsked Script.build_dialer
    [.receive 1 [0], .receive 2 [22, 7], .receive 3 [23, 2]]
  exact ⟨h.1, h.2.1 (by decide +kernel)⟩

end DirectTunnel

end RtcTunnel.Direct
