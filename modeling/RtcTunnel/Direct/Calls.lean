import RtcTunnel.Direct.Build

/-!
# What one operation can do

`Call` lists the parts an operation of the tunnel is made of, each with the guard
under which the source reaches it, and `Write` is what `send` does with its message.
Every public operation but the setters is made of these (`calls_step`), so an
invariant of the tunnel is proved once for each part.
-/

namespace RtcTunnel.Direct

open RtcTunnel.Core
open RtcTunnel.Base (Outcome)
open Relation (ReflTransGen)

set_option autoImplicit false

namespace DirectTunnel

variable {L : Layers}

/-- What `send` has checked of a message when it writes it. -/
structure Sendable (t : DirectTunnel L) (association : L.sctp.Association) (data : Bytes) :
    Prop where
  opened : t.opened = true
  finished : t.finished = false
  size : data.length ≤ maxMessageSize
  current : t.association = some association
  stream : L.sctp.hasStream association t.streamId = true
  room : (L.sctp.bufferedAmount association t.streamId).toOption.getD 0 + data.length ≤
    t.sendBufferCap
  writable : L.sctp.isWritable association t.streamId = true

/-- The write of a message, with the association it leaves. -/
def writeMessage (t : DirectTunnel L) (association : L.sctp.Association) (data : Bytes) :
    L.sctp.Association × Except String Nat :=
  L.sctp.writeChunkWithPpi association t.streamId (encodeMessage data).2 (encodeMessage data).1

inductive Call : DirectTunnel L → DirectTunnel L → Prop where
  | clock (t : DirectTunnel L) (now : Instant) : Call t { t with lastNow := now }
  | iceRead (t : DirectTunnel L) (now : Instant) (datagram : Bytes)
      (hd : isStun datagram = true) :
      Call t { t with ice := (L.ice.handleRead t.ice now t.localAddr t.remoteAddr datagram).1 }
  | startDtls (t : DirectTunnel L) (hp : L.ice.pairSelected t.ice = true)
      (hs : t.dtlsStarted = false) : Call t t.startDtls
  | feedDtls (t : DirectTunnel L) (now : Instant) (datagram : Bytes)
      (hd : isDtls datagram = true) (hp : L.ice.pairSelected t.ice = true)
      (hs : t.dtlsStarted = true ∨ t.role = .offerer) : Call t (t.feedDtls now datagram).1
  | drop (t : DirectTunnel L) :
      Call t { t with droppedDatagrams := saturatingSucc t.droppedDatagrams }
  | drainIceEvents (t : DirectTunnel L) : Call t t.drainIceEvents
  | drainIceWrites (t : DirectTunnel L) : Call t t.drainIceWrites
  | pollAssociation (t : DirectTunnel L) (hs : t.dtlsStarted = true) :
      Call t t.pollAssociation.2
  | observeConnected (t : DirectTunnel L) (hs : t.dtlsStarted = true)
      (ha : t.association.isSome = true) : Call t t.observeConnected
  | finish (t : DirectTunnel L) (reason : CloseReason) (hr : reason ≠ .failure) :
      Call t (t.finish reason)
  | readStream (t : DirectTunnel L) : Call t t.readStream.1
  | openStream (t : DirectTunnel L) (hc : t.sctpConnected = true)
      (hd : t.channelDialed = false) : Call t t.openStream.1
  | drainSctpTransmits (t : DirectTunnel L) : Call t t.drainSctpTransmits.1
  | drainDtlsTransmits (t : DirectTunnel L) : Call t t.drainDtlsTransmits
  | maybeOpen (t : DirectTunnel L) : Call t t.maybeOpen
  | handleTimeouts (t : DirectTunnel L) (now : Instant) : Call t (t.handleTimeouts now)
  | closeIce (t : DirectTunnel L) : Call t { t with ice := (L.ice.close t.ice).1 }
  | pollEvent (t : DirectTunnel L) : Call t t.pollEvent.2
  | nextDeadline (t : DirectTunnel L) : Call t t.nextDeadline.2

/-- The write of a message that `send` let through. Only an accepted one is recorded. -/
inductive Write (data : Bytes) : DirectTunnel L → DirectTunnel L → Prop where
  | refused (t : DirectTunnel L) (association : L.sctp.Association)
      (hs : t.Sendable association data) (hw : (t.writeMessage association data).2.isOk = false) :
      Write data t { t with association := some (t.writeMessage association data).1 }
  | accepted (t : DirectTunnel L) (association : L.sctp.Association)
      (hs : t.Sendable association data) (hw : (t.writeMessage association data).2.isOk = true) :
      Write data t ({ t with association := some (t.writeMessage association data).1 }.record
        (.writeChunk (encodeMessage data).2 (encodeMessage data).1))

/-- Some calls lead from one tunnel to the other. -/
def Calls (t r : DirectTunnel L) : Prop := ReflTransGen Call t r

theorem Calls.refl (t : DirectTunnel L) : t.Calls t := ReflTransGen.refl

theorem Calls.trans {a b c : DirectTunnel L} (h : a.Calls b) (h' : b.Calls c) : a.Calls c :=
  ReflTransGen.trans h h'

theorem Call.one {t r : DirectTunnel L} (h : Call t r) : t.Calls r := ReflTransGen.single h

theorem Calls.call {a b c : DirectTunnel L} (h : a.Calls b) (h' : Call b c) : a.Calls c :=
  ReflTransGen.tail h h'

theorem calls_andThen {t : DirectTunnel L} {r : Outcome (DirectTunnel L) TunnelError}
    {k : DirectTunnel L → Outcome (DirectTunnel L) TunnelError}
    (hr : t.Calls r.1) (hk : ∀ s, Calls s (k s).1) : t.Calls (r.andThen k).1 :=
  Outcome.andThen_related (R := Calls) Calls.trans (s := t) hr hk

theorem ice_startDtls (t : DirectTunnel L) : t.startDtls.ice = t.ice := by
  unfold startDtls activateDtls
  split
  · rfl
  · split <;> rfl

/-- An answerer is started at once; only an offerer can fail to start. -/
theorem started_startDtls_or (t : DirectTunnel L) :
    t.startDtls.dtlsStarted = true ∨ t.startDtls.role = .offerer := by
  unfold startDtls activateDtls
  split
  · exact .inl rfl
  · rename_i hr
    split
    · exact .inr hr
    · exact .inr hr

theorem calls_dispatch (t : DirectTunnel L) (now : Instant) (datagram : Bytes) :
    t.Calls (t.dispatch now datagram).1 := by
  unfold dispatch
  split
  · rename_i hd
    exact (Call.iceRead t now datagram hd).one
  · split
    · rename_i hd
      split
      · rename_i hp
        dsimp only
        split
        · rename_i hs
          exact (Call.feedDtls t now datagram hd hp (.inl hs)).one
        · rename_i hs
          have hp' : L.ice.pairSelected t.startDtls.ice = true := by
            rw [ice_startDtls]
            exact hp
          exact (Call.startDtls t hp (by simpa using hs)).one.call
            (.feedDtls t.startDtls now datagram hd hp' (started_startDtls_or t))
      · exact .refl t
    · exact .refl t

theorem calls_ingest (t : DirectTunnel L) (now : Instant) (datagram : Bytes) :
    t.Calls (t.ingest now datagram) := by
  unfold ingest
  dsimp only
  split
  · exact calls_dispatch t now datagram
  · exact (calls_dispatch t now datagram).call (.drop _)

/-- The trace once these ICE events were looked at. -/
def observed (t : DirectTunnel L) (es : List IceEvent) : HandshakeTrace :=
  (es.foldl observeIceEvent t).trace

/-- The ICE events leave the agent, and a note of some of them. -/
theorem drainIceEvents_eq (t : DirectTunnel L) : t.drainIceEvents =
    { t with ice := (L.ice.events.drain t.ice).2
             trace := t.observed (L.ice.events.drain t.ice).1 } := by
  have hf : ∀ (es : List IceEvent) (s r : DirectTunnel L), s.trace = r.trace → s.epoch = r.epoch →
      es.foldl observeIceEvent s = { s with trace := (es.foldl observeIceEvent r).trace } := by
    intro es
    induction es with
    | nil =>
      intro s r ht _
      show s = { s with trace := r.trace }
      rw [← ht]
    | cons e es ih =>
      intro s r ht he
      have hstep : (s.observeIceEvent e).trace = (r.observeIceEvent e).trace ∧
          (s.observeIceEvent e).epoch = (r.observeIceEvent e).epoch ∧
          s.observeIceEvent e = { s with trace := (s.observeIceEvent e).trace } := by
        unfold observeIceEvent ms
        split
        · exact ⟨by rw [ht, he], he, rfl⟩
        · exact ⟨by rw [ht, he], he, rfl⟩
        · exact ⟨ht, he, rfl⟩
      rw [List.foldl_cons, ih _ _ hstep.1 hstep.2.1, hstep.2.2]
      rfl
  exact hf _ { t with ice := (L.ice.events.drain t.ice).2 } t rfl rfl

/-- Events are polled from an association only. -/
theorem association_of_polled {t : DirectTunnel L} {e : SctpEvent}
    (h : e ∈ t.pollAssociation.1) : t.pollAssociation.2.association.isSome = true := by
  unfold pollAssociation at h ⊢
  split at h
  · cases h
  · rfl

theorem dtlsStarted_pollAssociation (t : DirectTunnel L) :
    t.pollAssociation.2.dtlsStarted = t.dtlsStarted := by
  unfold pollAssociation
  split <;> rfl

theorem calls_observeSctpEvents (t : DirectTunnel L) (events : List SctpEvent)
    (hs : t.dtlsStarted = true) (ha : .connected ∈ events → t.association.isSome = true) :
    t.Calls (t.observeSctpEvents events) := by
  have hc : t.Calls (if .connected ∈ events then t.observeConnected else t) := by
    split
    · rename_i h
      exact (Call.observeConnected t hs (ha h)).one
    · exact .refl t
  unfold observeSctpEvents
  dsimp only
  split
  · exact hc.call (.finish _ .remote (by decide))
  · exact hc

theorem calls_drainSctp (t : DirectTunnel L) (hs : t.dtlsStarted = true) :
    t.Calls t.drainSctp.1 := by
  have hp := (Call.pollAssociation t hs).one
  have ho := hp.trans (calls_observeSctpEvents t.pollAssociation.2 t.pollAssociation.1
    ((dtlsStarted_pollAssociation t).trans hs) association_of_polled)
  unfold drainSctp
  dsimp only
  split
  · exact ho.call (.readStream _)
  · exact ho

theorem calls_drainChannel (t : DirectTunnel L) : t.Calls t.drainChannel.1 := by
  unfold drainChannel
  split
  · rename_i h
    simp only [Bool.and_eq_true, Bool.not_eq_true'] at h
    exact (Call.openStream t h.1 h.2).one
  · exact .refl t

theorem calls_pumpIce (t : DirectTunnel L) : t.Calls t.pumpIce := by
  have h := (Call.drainIceEvents t).one.call (.drainIceWrites _)
  unfold pumpIce
  dsimp only
  split
  · rename_i hs
    simp only [Bool.and_eq_true, Bool.not_eq_true'] at hs
    exact h.call (.startDtls _ hs.1 hs.2)
  · exact h

theorem calls_pumpStarted (t : DirectTunnel L) (hs : t.dtlsStarted = true) :
    t.Calls t.pumpStarted.1 := by
  refine calls_andThen (calls_andThen (calls_andThen ?_ ?_) ?_) ?_
  · exact calls_drainSctp t hs
  · exact calls_drainChannel
  · exact fun s => (Call.drainSctpTransmits s).one
  · exact fun s => (Call.drainDtlsTransmits s).one

theorem calls_pump (t : DirectTunnel L) : t.Calls t.pump.1 := by
  refine (calls_pumpIce t).trans (calls_andThen ?_ fun s => (Call.maybeOpen s).one)
  split
  · rename_i hs
    exact calls_pumpStarted _ hs
  · exact .refl _

theorem calls_receive (t : DirectTunnel L) (nowMs : UInt64) (datagram : Bytes) :
    t.Calls (t.receive nowMs datagram) := by
  unfold receive
  split
  · exact .refl t
  · exact ((Call.clock t _).one.trans (calls_ingest _ _ datagram)).trans (calls_pump _)

theorem calls_receiveDeferred (t : DirectTunnel L) (nowMs : UInt64) (datagram : Bytes) :
    t.Calls (t.receiveDeferred nowMs datagram) := by
  unfold receiveDeferred
  split
  · exact .refl t
  · dsimp only
    split
    · exact (Call.clock t _).one.trans (calls_ingest _ _ datagram)
    · exact ((Call.clock t _).one.trans (calls_ingest _ _ datagram)).trans (calls_pump _)

theorem calls_finishInputBatch (t : DirectTunnel L) : t.Calls t.finishInputBatch := by
  unfold finishInputBatch
  split
  · exact .refl t
  · exact calls_pump t

theorem calls_tick (t : DirectTunnel L) (nowMs : UInt64) : t.Calls (t.tick nowMs) := by
  unfold tick
  split
  · exact .refl t
  · have hp := ((Call.clock t (t.epoch.addMillis nowMs)).one.call
      (.handleTimeouts _ (t.epoch.addMillis nowMs))).trans (calls_pump _)
    dsimp only
    split
    · exact hp.call (.finish _ .timeout (by decide))
    · exact hp

theorem calls_flushAfterSend (t : DirectTunnel L) : t.Calls t.flushAfterSend :=
  ((calls_drainChannel t).call (.drainSctpTransmits _)).call (.drainDtlsTransmits _)

/-- `send` refuses and leaves the tunnel alone, or it writes a message it has checked. -/
theorem send_cases (t : DirectTunnel L) (data : Bytes) :
    (∃ result, t.send data = (result, t) ∧ result ≠ .accepted) ∨
      ∃ association, t.Sendable association data ∧
        ((t.writeMessage association data).2.isOk = false ∧
            t.send data =
              (.notOpen, { t with association := some (t.writeMessage association data).1 }) ∨
          (t.writeMessage association data).2.isOk = true ∧
            t.send data = (.accepted,
              ({ t with association := some (t.writeMessage association data).1 }.record
                (.writeChunk (encodeMessage data).2 (encodeMessage data).1)).flushAfterSend)) := by
  unfold send
  by_cases hf : t.finished = true
  · exact .inl ⟨.notOpen, if_pos hf, nofun⟩
  by_cases ho : (!t.opened) = true
  · exact .inl ⟨.notOpen, by rw [if_neg hf, if_pos ho], nofun⟩
  by_cases hl : maxMessageSize < data.length
  · exact .inl ⟨.tooLarge, by rw [if_neg hf, if_neg ho, if_pos hl], nofun⟩
  rw [if_neg hf, if_neg ho, if_neg hl]
  cases ha : t.association with
  | none => exact .inl ⟨.notOpen, rfl, nofun⟩
  | some association =>
    dsimp only
    by_cases hs : (!L.sctp.hasStream association t.streamId) = true
    · exact .inl ⟨.notOpen, if_pos hs, nofun⟩
    by_cases hb : t.sendBufferCap <
        (L.sctp.bufferedAmount association t.streamId).toOption.getD 0 + data.length
    · exact .inl ⟨.backpressure, by rw [if_neg hs, if_pos hb], nofun⟩
    by_cases hw : (!L.sctp.isWritable association t.streamId) = true
    · exact .inl ⟨.notOpen, by rw [if_neg hs, if_neg hb, if_pos hw], nofun⟩
    rw [if_neg hs, if_neg hb, if_neg hw]
    refine .inr ⟨association, ⟨by simpa using ho, by simpa using hf, by omega, ha,
      by simpa using hs, by omega, by simpa using hw⟩, ?_⟩
    rw [writeMessage]
    cases hr : (L.sctp.writeChunkWithPpi association t.streamId (encodeMessage data).2
        (encodeMessage data).1).2 with
    | error e => exact .inl ⟨rfl, rfl⟩
    | ok n => exact .inr ⟨rfl, rfl⟩

theorem calls_close (t : DirectTunnel L) : t.Calls t.close := by
  unfold close
  split
  · exact .refl t
  · exact (Call.closeIce t).one.call (.finish _ .local (by decide))

end DirectTunnel

/-- The setters, which neither read nor write what the phases are about. -/
def DirectTunnel.Op.isSetting : DirectTunnel.Op → Bool
  | .applyRemoteAnswerSdp _ => true
  | .setRemote _ => true
  | .setRemoteIceCredentials _ _ => true
  | .setSendBufferCap _ => true
  | _ => false

namespace DirectTunnel

variable {L : Layers}

/-- **Every public operation but the setters is a sequence of calls**, which `send` begins
with the write of its message. -/
theorem calls_step (t : DirectTunnel L) (op : Op) (h : op.isSetting = false) :
    t.Calls (t.step op) ∨
      ∃ data w, op = .send data ∧ Write data t w ∧ w.Calls (t.step op) := by
  cases op with
  | receive nowMs datagram => exact .inl (calls_receive t nowMs datagram)
  | receiveDeferred nowMs datagram => exact .inl (calls_receiveDeferred t nowMs datagram)
  | finishInputBatch => exact .inl (calls_finishInputBatch t)
  | tick nowMs => exact .inl (calls_tick t nowMs)
  | send data =>
    obtain ⟨_, hr, _⟩ | ⟨association, hs, ⟨hw, hr⟩ | ⟨hw, hr⟩⟩ := send_cases t data
    · rw [step, hr]
      exact .inl (.refl t)
    · rw [step, hr]
      exact .inr ⟨data, _, rfl, .refused t association hs hw, .refl _⟩
    · rw [step, hr]
      exact .inr ⟨data, _, rfl, .accepted t association hs hw, calls_flushAfterSend _⟩
  | close => exact .inl (calls_close t)
  | pollEvent => exact .inl (Call.pollEvent t).one
  | nextDeadline => exact .inl (Call.nextDeadline t).one
  | _ => cases h

/-- What every call keeps, every sequence of calls keeps. -/
theorem Calls.keeps {I : DirectTunnel L → Prop} (keep : ∀ a b, Call a b → I a → I b)
    {t r : DirectTunnel L} (h : t.Calls r) (ht : I t) : I r :=
  Base.Run.moves_invariant keep h ht

/-- What every call and the write of a message keep, every operation but a setter keeps. -/
theorem step_keeps {I : DirectTunnel L → Prop} (call : ∀ a b, Call a b → I a → I b)
    {t : DirectTunnel L} {op : Op}
    (write : ∀ data w, op = .send data → Write data t w → I t → I w)
    (h : op.isSetting = false) (ht : I t) : I (t.step op) := by
  rcases calls_step t op h with hc | ⟨data, w, ho, hw, hc⟩
  · exact hc.keeps call ht
  · exact hc.keeps call (write data w ho hw ht)

end DirectTunnel

end RtcTunnel.Direct
