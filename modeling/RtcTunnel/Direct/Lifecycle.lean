import RtcTunnel.Direct.Calls

/-!
# The phases of a tunnel

`Life` is what remains of a tunnel once its layers are forgotten: how far each
phase has come, the fixed parameters of the channel, and the history. A `Move`
is one indivisible change of it, with the guard under which the code makes it.
Every call of a tunnel is a sequence of such moves (`advances_call`), and with it
every run (`advances_run`), so a fact about phases is proved once, by a case
analysis over `Move`.
-/

namespace RtcTunnel.Direct

open RtcTunnel.Core
open RtcTunnel.Base (Outcome)
open RtcTunnel.Base.Run (run)
open Relation (ReflTransGen)

set_option autoImplicit false

def Entry.isHandshake : Entry → Bool
  | .handshakeComplete _ => true
  | _ => false

structure Life where
  streamId : UInt16
  unordered : Bool
  reliability : ReliabilityType × UInt32
  dtlsStarted : Bool
  dtlsConnected : Bool
  endpoint : Bool
  association : Bool
  sctpConnected : Bool
  channelDialed : Bool
  opened : Bool
  finished : Bool
  log : List Entry

namespace Life

def record (s : Life) (e : Entry) : Life := { s with log := s.log ++ [e] }

/-- A life in which nothing happened yet. -/
structure Fresh (s : Life) : Prop where
  dtlsStarted : s.dtlsStarted = false
  dtlsConnected : s.dtlsConnected = false
  endpoint : s.endpoint = false
  association : s.association = false
  sctpConnected : s.sctpConnected = false
  channelDialed : s.channelDialed = false
  opened : s.opened = false
  finished : s.finished = false
  log : s.log = []

inductive Move : Life → Life → Prop where
  | datagram (s : Life) (data : Bytes) : Move s (s.record (.pushed (.sendDatagram data)))
  | message (s : Life) (data : Bytes) (ha : s.association = true) :
      Move s (s.record (.pushed (.message data)))
  | serve (s : Life) (ok : Bool) (hs : s.dtlsStarted = false) :
      Move s { s with dtlsStarted := ok }
  | dial (s : Life) (remote : SocketAddr) (ok : Bool) (hs : s.dtlsStarted = false) :
      Move s ({ s with dtlsStarted := ok }.record (.dtlsConnect remote ok))
  | handshake (s : Life) (peer : List Bytes) :
      Move s ({ s with dtlsConnected := true }.record (.handshakeComplete peer))
  | listen (s : Life) (hd : s.dtlsConnected = true) (he : s.endpoint = false) :
      Move s { s with endpoint := true }
  | associate (s : Life) (ok : Bool) (hd : s.dtlsConnected = true) (he : s.endpoint = false) :
      Move s ({ s with endpoint := true, association := ok || s.association }.record
        (.sctpConnect ok))
  | accept (s : Life) (he : s.endpoint = true) :
      Move s ({ s with association := true }.record .newAssociation)
  | connected (s : Life) (hs : s.dtlsStarted = true) (ha : s.association = true) :
      Move s ({ s with sctpConnected := true }.record .sctpConnected)
  | dialNothing (s : Life) (hc : s.sctpConnected = true) (hd : s.channelDialed = false)
      (ha : s.association = false) : Move s { s with channelDialed := true }
  | dialRefused (s : Life) (hc : s.sctpConnected = true) (hd : s.channelDialed = false)
      (ha : s.association = true) :
      Move s ({ s with channelDialed := true }.record (.openStream s.streamId .binary false))
  | dialAccepted (s : Life) (ok : Bool) (hc : s.sctpConnected = true)
      (hd : s.channelDialed = false) (ha : s.association = true) :
      Move s (({ s with channelDialed := true }.record (.openStream s.streamId .binary true)).record
        (.setReliabilityParams s.unordered s.reliability.1 s.reliability.2 ok))
  | «open» (s : Life) (hc : s.sctpConnected = true) (hd : s.channelDialed = true)
      (ho : s.opened = false) : Move s ({ s with opened := true }.record (.pushed .opened))
  | finish (s : Life) (reason : CloseReason) (hf : s.finished = false)
      (hr : reason ≠ .failure) :
      Move s ({ s with finished := true }.record (.pushed (.closed reason)))
  | write (s : Life) (payload : Bytes) (ppi : Ppi) (ho : s.opened = true)
      (hf : s.finished = false) (ha : s.association = true) :
      Move s (s.record (.writeChunk payload ppi))

abbrev Moves : Life → Life → Prop := ReflTransGen Move

theorem Moves.of_eq {s s' : Life} (h : s = s') : Moves s s' := h ▸ .refl

theorem moves_datagrams (s : Life) (ds : List Bytes) :
    Moves s { s with log := s.log ++ (ds.map Event.sendDatagram).map .pushed } := by
  induction ds generalizing s with
  | nil => exact Moves.of_eq (by simp)
  | cons d ds ih =>
    refine .head (.datagram s d) ((ih _).trans (Moves.of_eq ?_))
    simp [record]

theorem moves_messages (s : Life) (ms : List Bytes) (ha : s.association = true) :
    Moves s { s with log := s.log ++ (ms.map Event.message).map .pushed } := by
  induction ms generalizing s with
  | nil => exact Moves.of_eq (by simp)
  | cons m ms ih =>
    refine .head (.message s m ha) ((ih (s.record _) ha).trans (Moves.of_eq ?_))
    simp [record]

/-- Each phase needs the one before it. -/
structure Phases (s : Life) : Prop where
  started : s.sctpConnected = true → s.dtlsStarted = true
  endpoint : s.endpoint = true → s.dtlsConnected = true
  association : s.association = true → s.endpoint = true
  connected : s.sctpConnected = true → s.association = true
  dialed : s.channelDialed = true → s.sctpConnected = true
  opened : s.opened = true → s.channelDialed = true

theorem Fresh.phases {s : Life} (h : s.Fresh) : s.Phases where
  started hc := absurd (h.sctpConnected ▸ hc) Bool.false_ne_true
  endpoint he := absurd (h.endpoint ▸ he) Bool.false_ne_true
  association ha := absurd (h.association ▸ ha) Bool.false_ne_true
  connected hc := absurd (h.sctpConnected ▸ hc) Bool.false_ne_true
  dialed hd := absurd (h.channelDialed ▸ hd) Bool.false_ne_true
  opened ho := absurd (h.opened ▸ ho) Bool.false_ne_true

theorem phases_move (a b : Life) (hm : Move a b) (h : a.Phases) : b.Phases := by
  obtain ⟨hs, he, ha, hc, hd, ho⟩ := h
  have fresh : a.dtlsStarted = false → a.sctpConnected = true → False := fun hn hc' =>
    Bool.false_ne_true (hn ▸ hs hc')
  cases hm with
  | serve ok hn => exact ⟨fun hc' => (fresh hn hc').elim, he, ha, hc, hd, ho⟩
  | dial remote ok hn => exact ⟨fun hc' => (fresh hn hc').elim, he, ha, hc, hd, ho⟩
  | handshake peer => exact ⟨hs, fun _ => rfl, ha, hc, hd, ho⟩
  | listen hd' _ => exact ⟨hs, fun _ => hd', fun _ => rfl, hc, hd, ho⟩
  | associate ok hd' _ =>
    refine ⟨hs, fun _ => hd', fun _ => rfl, fun h => ?_, hd, ho⟩
    simp only [record, Bool.or_eq_true]
    exact .inr (hc h)
  | accept he' => exact ⟨hs, he, fun _ => he', fun _ => rfl, hd, ho⟩
  | connected hs' ha' => exact ⟨fun _ => hs', he, ha, fun _ => ha', fun _ => rfl, ho⟩
  | dialNothing hc' _ _ => exact ⟨hs, he, ha, hc, fun _ => hc', fun _ => rfl⟩
  | dialRefused hc' _ _ => exact ⟨hs, he, ha, hc, fun _ => hc', fun _ => rfl⟩
  | dialAccepted ok hc' _ _ => exact ⟨hs, he, ha, hc, fun _ => hc', fun _ => rfl⟩
  | «open» _ hd' _ => exact ⟨hs, he, ha, hc, hd, fun _ => hd'⟩
  | _ => exact ⟨hs, he, ha, hc, hd, ho⟩

/-- No phase is undone, and the history only grows. -/
structure Forward (a b : Life) : Prop where
  dtlsStarted : a.dtlsStarted = true → b.dtlsStarted = true
  dtlsConnected : a.dtlsConnected = true → b.dtlsConnected = true
  endpoint : a.endpoint = true → b.endpoint = true
  association : a.association = true → b.association = true
  sctpConnected : a.sctpConnected = true → b.sctpConnected = true
  channelDialed : a.channelDialed = true → b.channelDialed = true
  opened : a.opened = true → b.opened = true
  log : a.log <+: b.log

theorem Forward.refl (s : Life) : Forward s s :=
  ⟨id, id, id, id, id, id, id, List.prefix_refl _⟩

theorem Forward.trans {a b c : Life} (h : Forward a b) (h' : Forward b c) : Forward a c :=
  ⟨h'.1 ∘ h.1, h'.2 ∘ h.2, h'.3 ∘ h.3, h'.4 ∘ h.4, h'.5 ∘ h.5, h'.6 ∘ h.6, h'.7 ∘ h.7,
    h.8.trans h'.8⟩

theorem forward_move {a b : Life} (h : Move a b) : Forward a b := by
  have grow : ∀ es : List Entry, a.log <+: a.log ++ es := List.prefix_append _
  have same : a.log <+: a.log := List.prefix_refl _
  cases h with
  | serve ok hs => exact ⟨fun ht => absurd (hs.symm.trans ht) nofun, id, id, id, id, id, id, same⟩
  | dial remote ok hs =>
    exact ⟨fun ht => absurd (hs.symm.trans ht) nofun, id, id, id, id, id, id, grow _⟩
  | handshake peer => exact ⟨id, fun _ => rfl, id, id, id, id, id, grow _⟩
  | listen hd he => exact ⟨id, id, fun _ => rfl, id, id, id, id, same⟩
  | associate ok hd he =>
    exact ⟨id, id, fun _ => rfl, fun ha => by rw [record, ha, Bool.or_true], id, id, id, grow _⟩
  | accept he => exact ⟨id, id, id, fun _ => rfl, id, id, id, grow _⟩
  | connected hs ha => exact ⟨id, id, id, id, fun _ => rfl, id, id, grow _⟩
  | dialNothing hc hd ha => exact ⟨id, id, id, id, id, fun _ => rfl, id, same⟩
  | dialRefused hc hd ha => exact ⟨id, id, id, id, id, fun _ => rfl, id, grow _⟩
  | dialAccepted ok hc hd ha =>
    exact ⟨id, id, id, id, id, fun _ => rfl, id, (grow _).trans (List.prefix_append _ _)⟩
  | «open» hc hd ho => exact ⟨id, id, id, id, id, id, fun _ => rfl, grow _⟩
  | _ => exact ⟨id, id, id, id, id, id, id, grow _⟩

theorem forward_moves {a b : Life} (h : Moves a b) : Forward a b := by
  induction h with
  | refl => exact .refl a
  | tail _ hm ih => exact ih.trans (forward_move hm)

/-- What the history says about the flags. -/
structure Recorded (s : Life) : Prop where
  handshake : s.dtlsConnected = true → ∃ peer, .handshakeComplete peer ∈ s.log
  connected : s.sctpConnected = true ↔ .sctpConnected ∈ s.log
  opened : s.opened = true ↔ .pushed .opened ∈ s.log
  finished : s.finished = true ↔ ∃ reason, .pushed (.closed reason) ∈ s.log

theorem Fresh.recorded {s : Life} (h : s.Fresh) : s.Recorded := by
  constructor
  · rw [h.dtlsConnected]
    exact nofun
  · simp [h.sctpConnected, h.log]
  · simp [h.opened, h.log]
  · simp [h.finished, h.log]

theorem recorded_move (a b : Life) (hm : Move a b) (h : a.Recorded) : b.Recorded := by
  obtain ⟨hh, hc, ho, hf⟩ := h
  have grow : ∀ e : Entry, a.dtlsConnected = true → ∃ peer, .handshakeComplete peer ∈ a.log ++ [e] :=
    fun e hd => (hh hd).imp fun peer hp => List.mem_append_left _ hp
  cases hm with
  | handshake peer =>
    exact ⟨fun _ => ⟨peer, by simp [record]⟩, by simpa [record] using hc,
      by simpa [record] using ho, by simpa [record] using hf⟩
  | connected _ _ =>
    exact ⟨grow _, by simp [record], by simpa [record] using ho, by simpa [record] using hf⟩
  | «open» _ _ _ =>
    exact ⟨grow _, by simpa [record] using hc, by simp [record], by simpa [record] using hf⟩
  | finish reason _ _ =>
    exact ⟨grow _, by simpa [record] using hc, by simpa [record] using ho,
      ⟨fun _ => ⟨reason, by simp [record]⟩, fun _ => rfl⟩⟩
  | dialAccepted ok _ _ _ =>
    refine ⟨fun hd => ?_, by simpa [record] using hc, by simpa [record] using ho,
      by simpa [record] using hf⟩
    obtain ⟨peer, hp⟩ := hh hd
    exact ⟨peer, by simp [record, hp]⟩
  | serve ok _ => exact ⟨hh, hc, ho, hf⟩
  | listen _ _ => exact ⟨hh, hc, ho, hf⟩
  | dialNothing _ _ _ => exact ⟨hh, hc, ho, hf⟩
  | _ =>
    exact ⟨grow _, by simpa [record] using hc, by simpa [record] using ho,
      by simpa [record] using hf⟩

end Life

namespace DirectTunnel

open Life (Move Moves)

variable {L : Layers}

def life (t : DirectTunnel L) : Life where
  streamId := t.streamId
  unordered := !t.ordered
  reliability := t.reliability
  dtlsStarted := t.dtlsStarted
  dtlsConnected := t.dtlsConnected
  endpoint := t.sctp.isSome
  association := t.association.isSome
  sctpConnected := t.sctpConnected
  channelDialed := t.channelDialed
  opened := t.opened
  finished := t.finished
  log := t.log

@[simp] theorem life_log (t : DirectTunnel L) : t.life.log = t.log := rfl
@[simp] theorem life_finished (t : DirectTunnel L) : t.life.finished = t.finished := rfl
@[simp] theorem life_opened (t : DirectTunnel L) : t.life.opened = t.opened := rfl

/-- A call whose outcome is some moves away. -/
def Advances (t : DirectTunnel L) (r : DirectTunnel L) : Prop := Moves t.life r.life

theorem Advances.trans {a b c : DirectTunnel L} (h : a.Advances b) (h' : b.Advances c) :
    a.Advances c := ReflTransGen.trans h h'

theorem Advances.refl (t : DirectTunnel L) : t.Advances t := ReflTransGen.refl

theorem Advances.of_life {t r : DirectTunnel L} (h : t.life = r.life) : t.Advances r :=
  Moves.of_eq h

theorem Advances.of_move {t r : DirectTunnel L} (h : Move t.life r.life) : t.Advances r :=
  ReflTransGen.single h

theorem Advances.of_move_eq {t r : DirectTunnel L} {s : Life} (h : Move t.life s)
    (he : s = r.life) : t.Advances r := ReflTransGen.single (he ▸ h)

theorem advances_pushDatagrams (t : DirectTunnel L) (ds : List Bytes) :
    t.Advances (t.pushAll (ds.map .sendDatagram)) := Life.moves_datagrams t.life ds

theorem advances_finish (t : DirectTunnel L) {reason : CloseReason} (hr : reason ≠ .failure) :
    t.Advances (t.finish reason) := by
  unfold finish
  split
  · exact .refl t
  · rename_i hf
    exact .of_move (.finish t.life reason (by simpa using hf) hr)

theorem advances_startDtls (t : DirectTunnel L) (hs : t.dtlsStarted = false) :
    t.Advances t.startDtls := by
  unfold startDtls activateDtls
  split
  · exact .of_move (.serve t.life true hs)
  · split
    · exact .of_move (.serve t.life false hs)
    · exact .of_move (.dial t.life t.remoteAddr _ hs)

theorem advances_startSctp (t : DirectTunnel L) (hd : t.dtlsConnected = true)
    (he : t.sctp = none) : t.Advances t.startSctp.1 := by
  have hn : t.life.endpoint = false := by simp [life, he]
  unfold startSctp
  split
  · dsimp only
    split
    · exact .of_move (.associate t.life true hd hn)
    · exact .of_move (.associate t.life false hd hn)
  · exact .of_move (.listen t.life hd hn)

theorem advances_feedSctp (t : DirectTunnel L) (now : Instant) (datagram : Bytes) :
    t.Advances (t.feedSctp now datagram) := by
  unfold feedSctp
  split
  · exact .refl t
  · rename_i endpoint he
    have hs : t.life.endpoint = true := by simp [life, he]
    dsimp only
    split
    · refine .of_move_eq (.accept t.life hs) ?_
      simp only [life, he]
      rfl
    · exact .of_life (by simp [life, he, reliability])
    · exact .of_life (by simp [life, he, reliability])
    · exact .of_life (by simp [life, he, reliability])

theorem advances_feedDtlsEvent (t : DirectTunnel L) (now : Instant) (e : DtlsEvent) :
    t.Advances (t.feedDtlsEvent now e).1 := by
  cases e with
  | handshakeComplete =>
    unfold feedDtlsEvent
    dsimp only
    have hm := Move.handshake t.life (L.dtls.peerCertificates t.dtls t.remoteAddr)
    split
    · rename_i he
      exact .trans (.of_move_eq hm rfl)
        (advances_startSctp _ rfl (Option.isNone_iff_eq_none.mp he))
    · exact .of_move_eq hm rfl
  | applicationData data => exact advances_feedSctp t now data
  | other => exact .refl t

theorem advances_feedDtlsEvents (now : Instant) (es : List DtlsEvent) (t : DirectTunnel L) :
    t.Advances (feedDtlsEvents now es t).1 := by
  induction es generalizing t with
  | nil => exact .refl t
  | cons e es ih =>
    exact Outcome.andThen_related (R := Advances) Advances.trans (s := t)
      (advances_feedDtlsEvent t now e) ih

theorem advances_feedDtls (t : DirectTunnel L) (now : Instant) (datagram : Bytes) :
    t.Advances (t.feedDtls now datagram).1 := by
  unfold feedDtls
  dsimp only
  split
  · exact .of_life rfl
  · change Advances { t with dtls := (L.dtls.read t.dtls now t.remoteAddr datagram).1 } _
    exact advances_feedDtlsEvents now _ _

theorem advances_drainIceEvents (t : DirectTunnel L) : t.Advances t.drainIceEvents := by
  rw [drainIceEvents_eq]
  exact .of_life rfl

theorem advances_drainIceWrites (t : DirectTunnel L) : t.Advances t.drainIceWrites :=
  .trans (.of_life rfl) (advances_pushDatagrams _ _)

theorem advances_drainDtlsTransmits (t : DirectTunnel L) : t.Advances t.drainDtlsTransmits :=
  .trans (.of_life rfl) (advances_pushDatagrams _ _)

/-- `read_stream` pushes messages only. -/
theorem readChunk_messages (L : Layers) (c : L.sctp.Chunks) (msgs : List Bytes) :
    ∃ msgs' : List Bytes, (readChunk L c (msgs.map .message)).1 = msgs'.map .message := by
  have snoc : ∀ m, msgs.map Event.message ++ [.message m] = (msgs ++ [m]).map .message := by simp
  unfold readChunk
  split
  · exact ⟨_, snoc []⟩
  · exact ⟨_, snoc []⟩
  · split
    · exact ⟨_, snoc _⟩
    · exact ⟨msgs, rfl⟩
  · split
    · exact ⟨_, snoc _⟩
    · exact ⟨msgs, rfl⟩
  · exact ⟨msgs, rfl⟩

theorem forEach_messages (L : Layers) (id : UInt16) (a : L.sctp.Association) :
    ∃ msgs : List Bytes,
      ((reader L id).forEach (readChunk L) a []).1.2 = msgs.map .message := by
  refine Base.Poll.TrySource.forEach_induction (reader L id) (readChunk L)
    (P := fun _ b => ∃ msgs : List Bytes, b = msgs.map Event.message) ?_ ?_ ⟨[], rfl⟩
  · intro s b h
    exact h
  · rintro s c b ⟨msgs, rfl⟩
    exact readChunk_messages L c msgs

theorem advances_readStream (t : DirectTunnel L) : t.Advances t.readStream.1 := by
  unfold readStream
  split
  · exact .refl t
  · rename_i association ha
    split
    · obtain ⟨msgs, hm⟩ := forEach_messages L t.streamId association
      have hs : t.life.association = true := by simp [life, ha]
      dsimp only
      rw [hm]
      have h := Life.moves_messages t.life msgs hs
      simp only [life, ha] at h
      simp only [Advances, life, ha]
      exact h
    · exact .refl t

theorem life_pollAssociation (t : DirectTunnel L) : t.pollAssociation.2.life = t.life := by
  unfold pollAssociation
  split
  · rfl
  · rename_i association ha
    simp [life, ha, reliability]

theorem advances_openStream (t : DirectTunnel L) (hc : t.sctpConnected = true)
    (hd : t.channelDialed = false) : t.Advances t.openStream.1 := by
  unfold openStream
  dsimp only
  split
  · rename_i ha
    exact .single (.dialNothing t.life hc hd (by simp [life, ha]))
  · rename_i association ha
    have hs : t.life.association = true := by simp [life, ha]
    cases hr : L.sctp.openStream association t.streamId .binary with
    | mk a r =>
      cases r with
      | error e => exact .of_move_eq (.dialRefused t.life hc hd hs) (by simp only [life, ha]; rfl)
      | ok u => exact .of_move_eq (.dialAccepted t.life _ hc hd hs) (by simp only [life, ha]; rfl)

theorem advances_drainSctpTransmits (t : DirectTunnel L) : t.Advances t.drainSctpTransmits.1 := by
  unfold drainSctpTransmits
  split
  · exact .refl t
  · rename_i association ha
    exact .of_life (by simp [life, ha, reliability])

theorem advances_maybeOpen (t : DirectTunnel L) : t.Advances t.maybeOpen := by
  unfold maybeOpen
  split
  · exact .refl t
  · rename_i ho
    split
    · rename_i h
      simp only [Bool.and_eq_true] at h
      exact .single (.open t.life h.1 h.2 (by simpa using ho))
    · exact .refl t

theorem life_handleTimeouts (t : DirectTunnel L) (now : Instant) :
    (t.handleTimeouts now).life = t.life := by
  unfold handleTimeouts
  dsimp only
  split <;> simp [life, reliability]

theorem advances_nextDeadline (t : DirectTunnel L) : t.Advances t.nextDeadline.2 := by
  unfold nextDeadline
  split
  · exact .refl t
  · exact .of_life rfl

theorem advances_applyRemoteAnswerSdp (t : DirectTunnel L) (sdp : Text) :
    t.Advances (t.applyRemoteAnswerSdp sdp) := by
  unfold applyRemoteAnswerSdp
  split
  · exact .of_life rfl
  · exact .refl t

theorem advances_call {t r : DirectTunnel L} (h : Call t r) : t.Advances r := by
  cases h with
  | clock now => exact .of_life rfl
  | iceRead now datagram => exact .of_life rfl
  | startDtls hp hs => exact advances_startDtls t hs
  | feedDtls now datagram hd hp hs => exact advances_feedDtls t now datagram
  | drop => exact .of_life rfl
  | drainIceEvents => exact advances_drainIceEvents t
  | drainIceWrites => exact advances_drainIceWrites t
  | pollAssociation hs => exact .of_life (life_pollAssociation t).symm
  | observeConnected hs ha => exact .of_move (.connected t.life hs ha)
  | finish reason hr => exact advances_finish t hr
  | readStream => exact advances_readStream t
  | openStream hc hd => exact advances_openStream t hc hd
  | drainSctpTransmits => exact advances_drainSctpTransmits t
  | drainDtlsTransmits => exact advances_drainDtlsTransmits t
  | maybeOpen => exact advances_maybeOpen t
  | handleTimeouts now => exact .of_life (life_handleTimeouts t now).symm
  | closeIce => exact .of_life rfl
  | pollEvent => exact .of_life rfl
  | nextDeadline => exact advances_nextDeadline t

theorem advances_write {data : Bytes} {t r : DirectTunnel L} (h : Write data t r) :
    t.Advances r := by
  cases h with
  | refused association hs hw => exact .of_life (by simp only [life, hs.current]; rfl)
  | accepted association hs hw =>
    have ha : t.life.association = true := by simp [life, hs.current]
    exact .of_move_eq (.write t.life _ _ hs.opened hs.finished ha)
      (by simp only [life, hs.current]; rfl)

theorem advances_calls {t r : DirectTunnel L} (h : t.Calls r) : t.Advances r := by
  induction h with
  | refl => exact .refl t
  | tail _ hc ih => exact ih.trans (advances_call hc)

/-- **Every public operation is a sequence of moves.** -/
theorem advances_step (t : DirectTunnel L) (op : Op) : t.Advances (t.step op) := by
  cases hs : op.isSetting with
  | false =>
    exact step_keeps (I := t.Advances) (fun _ _ hc h => h.trans (advances_call hc))
      (fun _ _ _ hw _ => advances_write hw) hs (.refl t)
  | true =>
    cases op with
    | applyRemoteAnswerSdp sdp => exact advances_applyRemoteAnswerSdp t sdp
    | setRemote remote => exact .of_life rfl
    | setRemoteIceCredentials ufrag pwd => exact .of_life rfl
    | setSendBufferCap cap => exact .of_life rfl
    | _ => cases hs

theorem advances_run (t : DirectTunnel L) (ops : List Op) : t.Advances (run step t ops) :=
  Base.Run.simulates life advances_step t ops

theorem fresh_construct {h : BuildHost} {config : TunnelConfig} {localAddr : SocketAddr}
    {nowMs : UInt64} {c : Constructor} {t : DirectTunnel L}
    (hc : construct L h config localAddr nowMs c = .ok t) : t.life.Fresh := by
  obtain ⟨_, _, _, _, _, _, _, _, rfl⟩ := built_construct hc
  exact ⟨rfl, rfl, rfl, rfl, rfl, rfl, rfl, rfl, rfl⟩

/-- A fact about phases that every move keeps holds in every reachable state,
once it holds of a tunnel that has done nothing yet. -/
theorem life_invariant {I : Life → Prop} (keep : ∀ a b, Move a b → I a → I b)
    {t : DirectTunnel L} {ops : List Op} (h : I t.life) : I (run step t ops).life :=
  Base.Run.moves_invariant keep (advances_run t ops) h

theorem phases_run {h : BuildHost} {config : TunnelConfig} {localAddr : SocketAddr}
    {nowMs : UInt64} {c : Constructor} {t : DirectTunnel L}
    (hc : construct L h config localAddr nowMs c = .ok t) (ops : List Op) :
    (run step t ops).life.Phases :=
  life_invariant Life.phases_move (fresh_construct hc).phases

theorem recorded_step {t : DirectTunnel L} (op : Op) (h : t.life.Recorded) :
    (t.step op).life.Recorded :=
  Base.Run.moves_invariant Life.recorded_move (advances_step t op) h

theorem pushed_construct {h : BuildHost} {config : TunnelConfig} {localAddr : SocketAddr}
    {nowMs : UInt64} {c : Constructor} {t : DirectTunnel L}
    (hc : construct L h config localAddr nowMs c = .ok t) : pushed t = [] := by
  have hl : t.log = [] := (fresh_construct hc).log
  rw [pushed, hl]
  rfl

end DirectTunnel

end RtcTunnel.Direct
