import RtcTunnel.Direct.Parameters
import RtcTunnel.Direct.Pump

/-!
# What the layers answer a pump

How far a pump comes and what it hands out is settled by the answers of the layers below it. The
answers are taken here from the tunnel as the pump finds it: whether DTLS runs, what waits on the
stream of the channel, how the opening of the channel is answered, and what there is to send.
-/

namespace RtcTunnel.Direct

open RtcTunnel.Core
open RtcTunnel.Base (Outcome)
open RtcTunnel.Base.Poll (Source TrySource)

set_option autoImplicit false

namespace DirectTunnel

variable {L : Layers}

/-- The endpoint that DTLS starts with, if it does. -/
def startingDtls (t : DirectTunnel L) : Option L.dtls.Endpoint :=
  match t.role with
  | .answerer => some t.dtls
  | .offerer =>
    match t.dtlsConfig with
    | none => none
    | some config =>
      let r := L.dtls.connect t.dtls t.lastNow t.remoteAddr config
      if r.2.isOk then some r.1 else none

/-- The endpoint of a pump: DTLS runs already, or ICE has selected a pair and DTLS starts. -/
def runningDtls (t : DirectTunnel L) : Option L.dtls.Endpoint :=
  if t.dtlsStarted then some t.dtls
  else if L.ice.pairSelected (L.ice.writes.drain (L.ice.events.drain t.ice).2).2 then t.startingDtls
  else none

theorem startingDtls_eq (t : DirectTunnel L) : t.startingDtls =
    if t.startDtls.dtlsStarted then some t.startDtls.dtls else none := by
  unfold startingDtls startDtls activateDtls
  cases t.role with
  | answerer => rfl
  | offerer =>
    cases t.dtlsConfig with
    | none => rfl
    | some config => rfl

/-- A pump goes past ICE with the endpoint that runs. -/
theorem runningDtls_eq (t : DirectTunnel L) :
    t.runningDtls = if t.started then some t.pumpIce.dtls else none := by
  have hice : t.drainIceEvents.drainIceWrites.ice =
      (L.ice.writes.drain (L.ice.events.drain t.ice).2).2 := by
    rw [drainIceEvents_eq]
    rfl
  have hstarted : t.drainIceEvents.drainIceWrites.dtlsStarted = t.dtlsStarted := by
    rw [drainIceEvents_eq]
    rfl
  have hdtls : t.drainIceEvents.drainIceWrites.dtls = t.dtls := by
    rw [drainIceEvents_eq]
    rfl
  have hstarting : t.drainIceEvents.drainIceWrites.startingDtls = t.startingDtls := by
    rw [drainIceEvents_eq]
    rfl
  unfold runningDtls started pumpIce
  rw [← hice, ← hstarted, ← hdtls, ← hstarting, startingDtls_eq]
  generalize t.drainIceEvents.drainIceWrites = r
  cases hs : r.dtlsStarted with
  | true => simp [hs]
  | false => cases hp : L.ice.pairSelected r.ice <;> simp [hs, hp]

theorem started_iff (t : DirectTunnel L) : t.started = true ↔ t.runningDtls.isSome = true := by
  rw [runningDtls_eq]
  cases t.started <;> simp

/-- The chunks make a message. -/
def Delivered (L : Layers) (chunks : L.sctp.Chunks) : Prop :=
  match L.sctp.ppi chunks with
  | .binaryEmpty | .stringEmpty => True
  | .binary | .string => (L.sctp.toPayload chunks maxMessageSize).isOk = true
  | .other => False

/-- Chunks of another kind are passed over. -/
def PassedOver (L : Layers) (chunks : L.sctp.Chunks) : Prop := L.sctp.ppi chunks = .other

/-- A message waits on the stream. -/
def MessageWaits (L : Layers) (id : UInt16) (association : L.sctp.Association) : Prop :=
  L.sctp.hasStream association id = true ∧
    (reader L id).Comes (Delivered L) (PassedOver L) association

/-- The stream is read, to its end or up to a failure. -/
inductive StreamRead (L : Layers) (id : UInt16) (association : L.sctp.Association) :
    Bool → L.sctp.Association → Prop where
  | missing (hs : L.sctp.hasStream association id = false) :
      StreamRead L id association true association
  | read {ok : Bool} {left : L.sctp.Association} (hs : L.sctp.hasStream association id = true)
      (hr : (reader L id).Reads (fun chunks => Delivered L chunks ∨ PassedOver L chunks)
        association ok left) : StreamRead L id association ok left

/-- Messages are read when the association reports some. -/
inductive Receives (t : DirectTunnel L) (association : L.sctp.Association) :
    Bool → L.sctp.Association → Prop where
  | unreported (h : .readable t.streamId ∉ t.sctpEvents) :
      Receives t association true (polled L association)
  | reported {ok : Bool} {left : L.sctp.Association} (h : .readable t.streamId ∈ t.sctpEvents)
      (hr : StreamRead L t.streamId (polled L association) ok left) : Receives t association ok left

/-- The association is connected, or reports that it is. -/
def IsConnected (t : DirectTunnel L) : Prop := t.sctpConnected = true ∨ .connected ∈ t.sctpEvents

/-- The channel is to be opened. -/
def Dials (t : DirectTunnel L) : Prop := t.IsConnected ∧ t.channelDialed = false

/-- How the association answers the opening of the channel, and what is left of it. -/
inductive Dialed (t : DirectTunnel L) (association : L.sctp.Association) :
    Bool → L.sctp.Association → Prop where
  | refused (h : (L.sctp.openStream association t.streamId .binary).2.isOk = false) :
      Dialed t association false (L.sctp.openStream association t.streamId .binary).1
  | configured {ok : Bool} {left : L.sctp.Association}
      (h : (L.sctp.openStream association t.streamId .binary).2.isOk = true)
      (hok : (L.sctp.setReliabilityParams (L.sctp.openStream association t.streamId .binary).1
        t.streamId (!t.ordered) t.reliability.1 t.reliability.2).2.isOk = ok)
      (hleft : (L.sctp.setReliabilityParams (L.sctp.openStream association t.streamId .binary).1
        t.streamId (!t.ordered) t.reliability.1 t.reliability.2).1 = left) :
      Dialed t association ok left

/-- How the input side of a pump is answered, and the association that is left. -/
inductive Input (t : DirectTunnel L) : Bool → Option L.sctp.Association → Prop where
  | absent (ha : t.association = none) (hd : ¬ t.Dials) : Input t true none
  | undialable (ha : t.association = none) (hd : t.Dials) : Input t false none
  | unread {association left : L.sctp.Association} (ha : t.association = some association)
      (hr : t.Receives association false left) : Input t false (some left)
  | undialed {association left : L.sctp.Association} (ha : t.association = some association)
      (hr : t.Receives association true left) (hd : ¬ t.Dials) : Input t true (some left)
  | dialed {association read left : L.sctp.Association} {ok : Bool}
      (ha : t.association = some association) (hr : t.Receives association true read)
      (hd : t.Dials) (hleft : t.Dialed read ok left) : Input t ok (some left)

def rawsOf : Transmit → List Bytes
  | .rawEncode raws => raws
  | .other => []

/-- The packets an association has to send. -/
def packetsOf (L : Layers) (now : Instant) (association : Option L.sctp.Association) : List Bytes :=
  ((association.map fun a => ((L.sctp.transmits now).drain a).1).getD []).flatMap rawsOf

/-- The packets of the association go into DTLS, all of them. -/
def Written (t : DirectTunnel L) (association : Option L.sctp.Association)
    (dtls next : L.dtls.Endpoint) : Prop :=
  writeRaws L t.lastNow t.remoteAddr (packetsOf L t.lastNow association) dtls = (next, .ok ())

/-- What a round of the reading makes of the chunks. -/
theorem readChunk_delivered {chunks : L.sctp.Chunks} (h : Delivered L chunks) (msgs : List Event) :
    (readChunk L chunks msgs).1 ≠ [] ∧ (readChunk L chunks msgs).2.isOk = true := by
  unfold Delivered at h
  unfold readChunk
  cases hp : L.sctp.ppi chunks with
  | binaryEmpty => exact ⟨by simp, rfl⟩
  | stringEmpty => exact ⟨by simp, rfl⟩
  | other =>
    rw [hp] at h
    cases h
  | _ =>
    rw [hp] at h
    cases hr : L.sctp.toPayload chunks maxMessageSize with
    | error e =>
      rw [hr] at h
      cases h
    | ok payload => exact ⟨by simp, rfl⟩

theorem readChunk_undelivered {chunks : L.sctp.Chunks} (h : ¬ Delivered L chunks)
    (msgs : List Event) : (readChunk L chunks msgs).1 = msgs ∧
      ((readChunk L chunks msgs).2.isOk = true ↔ PassedOver L chunks) := by
  unfold Delivered at h
  unfold readChunk PassedOver
  cases hp : L.sctp.ppi chunks with
  | binaryEmpty =>
    rw [hp] at h
    exact absurd trivial h
  | stringEmpty =>
    rw [hp] at h
    exact absurd trivial h
  | other => exact ⟨rfl, fun _ => rfl, fun _ => rfl⟩
  | _ =>
    rw [hp] at h
    cases hr : L.sctp.toPayload chunks maxMessageSize with
    | error e => exact ⟨rfl, fun ho => absurd ho Bool.false_ne_true, fun ho => by cases ho⟩
    | ok payload =>
      rw [hr] at h
      exact absurd rfl h

/-- A message waits exactly when the reading pushes one. -/
theorem inbox_eq_nil_iff (L : Layers) (id : UInt16) (association : L.sctp.Association) :
    inbox L id association = [] ↔ ¬ MessageWaits L id association := by
  have hcomes := (reader L id).comes_iff (readChunk L) (Delivered L) (PassedOver L)
    (E := fun msgs => msgs = []) (fun chunks msgs hn => by
      by_cases hd : Delivered L chunks
      · exact (readChunk_delivered hd msgs).1
      · rwa [(readChunk_undelivered hd msgs).1])
    (fun chunks msgs hd => (readChunk_delivered hd msgs).1)
    (fun chunks msgs hd he => by
      obtain ⟨hsame, hok⟩ := readChunk_undelivered hd msgs
      exact ⟨hsame.trans he, hok⟩) association [] rfl
  unfold inbox MessageWaits
  by_cases hs : L.sctp.hasStream association id = true
  · rw [if_pos hs, hcomes]
    simp [hs]
  · simp [hs]

/-- What `read_stream` makes of an association. -/
def reading (L : Layers) (id : UInt16) (association : L.sctp.Association) :
    Outcome L.sctp.Association TunnelError :=
  if L.sctp.hasStream association id then
    let r := (reader L id).forEach (readChunk L) association []
    (r.1.1, r.2)
  else (association, .ok ())

/-- What `drain_sctp` makes of an association. -/
def receiving (t : DirectTunnel L) (association : L.sctp.Association) :
    Outcome L.sctp.Association TunnelError :=
  if .readable t.streamId ∈ t.sctpEvents then reading L t.streamId (polled L association)
  else (polled L association, .ok ())

/-- What `open_stream` makes of an association. -/
def dialing (t : DirectTunnel L) (association : L.sctp.Association) :
    Outcome L.sctp.Association TunnelError :=
  let r := L.sctp.openStream association t.streamId .binary
  match r.2 with
  | .error e => (r.1, .error (.config ("open stream: " ++ e)))
  | .ok () =>
    let q := L.sctp.setReliabilityParams r.1 t.streamId (!t.ordered) t.reliability.1 t.reliability.2
    (q.1, configError "reliability" q.2)

theorem isOk_configError {α : Type} (what : String) (r : Except String α) :
    (configError what r).isOk = r.isOk := by
  cases r <;> rfl

theorem readChunk_isOk (chunks : L.sctp.Chunks) (msgs : List Event) :
    (readChunk L chunks msgs).2.isOk = true ↔ Delivered L chunks ∨ PassedOver L chunks := by
  by_cases hd : Delivered L chunks
  · exact ⟨fun _ => .inl hd, fun _ => (readChunk_delivered hd msgs).2⟩
  · rw [(readChunk_undelivered hd msgs).2]
    exact ⟨.inr, fun h => h.resolve_left hd⟩

theorem streamRead_iff (id : UInt16) (association : L.sctp.Association) (ok : Bool)
    (left : L.sctp.Association) : StreamRead L id association ok left ↔
      (reading L id association).1 = left ∧ (reading L id association).2.isOk = ok := by
  have hreads := (reader L id).reads_iff (readChunk L) readChunk_isOk association [] ok left
  unfold reading
  by_cases hs : L.sctp.hasStream association id = true
  · rw [if_pos hs]
    dsimp only
    rw [← hreads]
    refine ⟨fun h => ?_, .read hs⟩
    cases h with
    | missing hn => exact absurd hs (by simp [hn])
    | read _ hr => exact hr
  · rw [if_neg hs]
    constructor
    · intro h
      cases h with
      | missing => exact ⟨rfl, rfl⟩
      | read hn _ => exact absurd hn hs
    · rintro ⟨rfl, rfl⟩
      exact .missing (Bool.not_eq_true _ ▸ hs)

theorem receives_iff (t : DirectTunnel L) (association : L.sctp.Association) (ok : Bool)
    (left : L.sctp.Association) : t.Receives association ok left ↔
      (t.receiving association).1 = left ∧ (t.receiving association).2.isOk = ok := by
  unfold receiving
  by_cases hr : .readable t.streamId ∈ t.sctpEvents
  · rw [if_pos hr, ← streamRead_iff]
    refine ⟨fun h => ?_, .reported hr⟩
    cases h with
    | unreported hn => exact absurd hr hn
    | reported _ h => exact h
  · rw [if_neg hr]
    constructor
    · intro h
      cases h with
      | unreported => exact ⟨rfl, rfl⟩
      | reported hn _ => exact absurd hn hr
    · rintro ⟨rfl, rfl⟩
      exact .unreported hr

theorem dialed_iff (t : DirectTunnel L) (association : L.sctp.Association) (ok : Bool)
    (left : L.sctp.Association) : t.Dialed association ok left ↔
      (t.dialing association).1 = left ∧ (t.dialing association).2.isOk = ok := by
  unfold dialing
  dsimp only
  cases ho : (L.sctp.openStream association t.streamId .binary).2 with
  | error e =>
    constructor
    · intro h
      cases h with
      | refused => exact ⟨rfl, rfl⟩
      | configured h => exact nomatch ho ▸ h
    · rintro ⟨rfl, rfl⟩
      exact .refused (by rw [ho]; rfl)
  | ok u =>
    dsimp only
    rw [isOk_configError]
    constructor
    · intro h
      cases h with
      | refused h => exact nomatch ho ▸ h
      | configured _ hok hleft => exact ⟨hleft, hok⟩
    · rintro ⟨hleft, hok⟩
      exact .configured (by rw [ho]; rfl) hok hleft

/-- `drain_sctp` and `drain_channel`, as a started pump runs them. -/
def inbound (t : DirectTunnel L) : Outcome (DirectTunnel L) TunnelError :=
  t.pumpIce.drainSctp.andThen drainChannel

theorem parameters_pumpIce (t : DirectTunnel L) : t.pumpIce.parameters = t.parameters := by
  have hw : t.drainIceEvents.drainIceWrites.parameters = t.parameters :=
    parameters_drainIceEvents t
  unfold pumpIce
  dsimp only
  split
  · rw [parameters_startDtls, hw]
  · exact hw

theorem parameters_drainSctp (t : DirectTunnel L) : t.drainSctp.1.parameters = t.parameters := by
  have ho : ∀ (s : DirectTunnel L) (events : List SctpEvent),
      (s.observeSctpEvents events).parameters = s.parameters := by
    intro s events
    unfold observeSctpEvents
    dsimp only
    split
    · rw [parameters_finish]
      split <;> rfl
    · split <;> rfl
  unfold drainSctp
  dsimp only
  split
  · rw [parameters_readStream, ho, parameters_pollAssociation]
  · rw [ho, parameters_pollAssociation]

theorem sctpConnected_drainSctp (t : DirectTunnel L) :
    (t.drainSctp.1.sctpConnected = true ↔
        t.sctpConnected = true ∨ .connected ∈ t.sctpEvents) ∧
      t.drainSctp.1.channelDialed = t.channelDialed := by
  have hp := (mute_pollAssociation t).steady
  have hr : ∀ s : DirectTunnel L, s.Steady s.readStream.1 := by
    intro s
    unfold readStream
    split
    · exact (Mute.refl s).steady
    · split <;> exact ⟨rfl, rfl, rfl, rfl, rfl⟩
  have hf : ∀ (s : DirectTunnel L) (reason : CloseReason),
      (s.finish reason).sctpConnected = s.sctpConnected ∧
        (s.finish reason).channelDialed = s.channelDialed := by
    intro s reason
    unfold finish
    split <;> exact ⟨rfl, rfl⟩
  have ho : ((t.pollAssociation.2.observeSctpEvents t.sctpEvents).sctpConnected = true ↔
      t.sctpConnected = true ∨ .connected ∈ t.sctpEvents) ∧
      (t.pollAssociation.2.observeSctpEvents t.sctpEvents).channelDialed = t.channelDialed := by
    rw [← hp.sctpConnected, ← hp.channelDialed]
    unfold observeSctpEvents
    dsimp only
    by_cases hc : .connected ∈ t.sctpEvents
    · rw [if_pos hc]
      split
      · rw [(hf _ _).1, (hf _ _).2]
        exact ⟨⟨fun _ => .inr hc, fun _ => rfl⟩, rfl⟩
      · exact ⟨⟨fun _ => .inr hc, fun _ => rfl⟩, rfl⟩
    · rw [if_neg hc]
      split
      · rw [(hf _ _).1, (hf _ _).2]
        exact ⟨⟨.inl, fun h => h.resolve_right hc⟩, rfl⟩
      · exact ⟨⟨.inl, fun h => h.resolve_right hc⟩, rfl⟩
  unfold drainSctp
  dsimp only
  rw [pollAssociation_events]
  split
  · rw [(hr _).sctpConnected, (hr _).channelDialed]
    exact ho
  · exact ho

theorem readStream_some {t : DirectTunnel L} {association : L.sctp.Association}
    (ha : t.association = some association) :
    t.readStream.1.association = some (reading L t.streamId association).1 ∧
      t.readStream.2 = (reading L t.streamId association).2 := by
  unfold readStream reading
  rw [ha]
  dsimp only
  split
  · exact ⟨rfl, rfl⟩
  · exact ⟨ha, rfl⟩

theorem drainSctp_none {t : DirectTunnel L} (ha : t.association = none) :
    t.drainSctp.1.association = none ∧ t.drainSctp.2 = .ok () := by
  have hpoll : (t.pollAssociation.2.observeSctpEvents t.sctpEvents).association = none := by
    rw [association_observeSctpEvents, pollAssociation_association, ha]
    rfl
  unfold drainSctp
  dsimp only
  rw [pollAssociation_events]
  split
  · unfold readStream
    rw [hpoll]
    exact ⟨hpoll, rfl⟩
  · exact ⟨hpoll, rfl⟩

/-- `drain_sctp` polls the association and reads its stream. -/
theorem drainSctp_some {t : DirectTunnel L} {association : L.sctp.Association}
    (ha : t.association = some association) :
    t.drainSctp.1.association = some (t.receiving association).1 ∧
      t.drainSctp.2 = (t.receiving association).2 := by
  have hpoll : (t.pollAssociation.2.observeSctpEvents t.sctpEvents).association =
      some (polled L association) := by
    rw [association_observeSctpEvents, pollAssociation_association, ha]
    rfl
  have hid := (streamId_observeSctpEvents t.pollAssociation.2 t.sctpEvents).trans
    (mute_pollAssociation t).steady.streamId
  unfold drainSctp receiving
  dsimp only
  rw [pollAssociation_events, hid]
  split
  · obtain ⟨hleft, hok⟩ := readStream_some hpoll
    rw [hid] at hleft hok
    exact ⟨hleft, hok⟩
  · exact ⟨hpoll, rfl⟩

theorem openStream_none {t : DirectTunnel L} (ha : t.association = none) :
    t.openStream.1.association = none ∧ t.openStream.2.isOk = false := by
  unfold openStream
  dsimp only
  rw [ha]
  exact ⟨rfl, rfl⟩

theorem openStream_some {t : DirectTunnel L} {association : L.sctp.Association}
    (ha : t.association = some association) :
    t.openStream.1.association = some (t.dialing association).1 ∧
      t.openStream.2 = (t.dialing association).2 := by
  unfold openStream dialing
  dsimp only
  rw [ha]
  dsimp only
  cases (L.sctp.openStream association t.streamId .binary).2 with
  | error e => exact ⟨rfl, rfl⟩
  | ok u => exact ⟨rfl, rfl⟩

/-- The parameters of the channel are those of construction. -/
theorem dialing_parameters {t r : DirectTunnel L} (h : r.parameters = t.parameters) :
    r.dialing = t.dialing := by
  have hid : r.streamId = t.streamId := congrArg Parameters.streamId h
  have hordered : r.ordered = t.ordered := congrArg Parameters.ordered h
  have hmax : r.maxRetransmits = t.maxRetransmits := congrArg Parameters.maxRetransmits h
  funext association
  unfold dialing reliability
  rw [hid, hordered, hmax]

theorem receiving_pumpIce (t : DirectTunnel L) : t.pumpIce.receiving = t.receiving := by
  funext association
  unfold receiving
  rw [sctpEvents_pumpIce, (steady_pumpIce t).streamId]

/-- A tunnel behind `drain_sctp` opens the channel when it is to be opened. -/
theorem dials_drainSctp (t : DirectTunnel L) :
    (t.pumpIce.drainSctp.1.sctpConnected && !t.pumpIce.drainSctp.1.channelDialed) = true ↔
      t.Dials := by
  have hs := steady_pumpIce t
  obtain ⟨hconnected, hdialed⟩ := sctpConnected_drainSctp t.pumpIce
  rw [hs.sctpConnected, sctpEvents_pumpIce] at hconnected
  rw [hs.channelDialed] at hdialed
  rw [Bool.and_eq_true, hconnected, hdialed, Bool.not_eq_true']
  rfl

/-- What the answers of an association come to. -/
theorem input_some {t : DirectTunnel L} {association : L.sctp.Association}
    (ha : t.association = some association) (ok : Bool) (left : Option L.sctp.Association) :
    t.Input ok left ↔ ∃ a, left = some a ∧ ((ok = false ∧ t.Receives association false a) ∨
      ∃ read, t.Receives association true read ∧
        ((ok = true ∧ a = read ∧ ¬ t.Dials) ∨ (t.Dials ∧ t.Dialed read ok a))) := by
  constructor
  · intro h
    cases h with
    | absent h => cases ha.symm.trans h
    | undialable h => cases ha.symm.trans h
    | unread h hr =>
      cases ha.symm.trans h
      exact ⟨_, rfl, .inl ⟨rfl, hr⟩⟩
    | undialed h hr hd =>
      cases ha.symm.trans h
      exact ⟨_, rfl, .inr ⟨_, hr, .inl ⟨rfl, rfl, hd⟩⟩⟩
    | dialed h hr hd hleft =>
      cases ha.symm.trans h
      exact ⟨_, rfl, .inr ⟨_, hr, .inr ⟨hd, hleft⟩⟩⟩
  · rintro ⟨a, rfl, ⟨rfl, hr⟩ | ⟨read, hr, ⟨rfl, rfl, hd⟩ | ⟨hd, hleft⟩⟩⟩
    · exact .unread ha hr
    · exact .undialed ha hr hd
    · exact .dialed ha hr hd hleft

theorem input_none {t : DirectTunnel L} (ha : t.association = none) (ok : Bool)
    (left : Option L.sctp.Association) :
    t.Input ok left ↔ left = none ∧ (ok = true ↔ ¬ t.Dials) := by
  constructor
  · intro h
    cases h with
    | absent _ hd => exact ⟨rfl, fun _ => hd, fun _ => rfl⟩
    | undialable _ hd => exact ⟨rfl, fun h => absurd h Bool.false_ne_true, fun hn => absurd hd hn⟩
    | unread h => cases ha.symm.trans h
    | undialed h => cases ha.symm.trans h
    | dialed h => cases ha.symm.trans h
  · rintro ⟨rfl, hok⟩
    cases ok with
    | false => exact .undialable ha (not_not.mp (mt hok.mpr Bool.false_ne_true))
    | true => exact .absent ha (hok.mp rfl)

/-- Without an association the channel cannot be opened. -/
theorem inbound_none {t : DirectTunnel L} (ha : t.association = none) :
    t.inbound.1.association = none ∧ (t.inbound.2.isOk = true ↔ ¬ t.Dials) := by
  have hdials := dials_drainSctp t
  obtain ⟨hnone, hok⟩ := drainSctp_none ((association_pumpIce t).trans ha)
  have hin : t.pumpIce.drainSctp = (t.pumpIce.drainSctp.1, .ok ()) := Prod.ext rfl hok
  unfold inbound
  rw [hin, Outcome.andThen_ok, drainChannel]
  by_cases hd : t.Dials
  · obtain ⟨hleft, hfail⟩ := openStream_none hnone
    rw [if_pos (hdials.mpr hd), hleft, hfail]
    simp [hd]
  · rw [if_neg (mt hdials.mp hd), hnone]
    simp [hd, Except.isOk, Except.toBool]

/-- A failing read ends the input side. -/
theorem inbound_unread {t : DirectTunnel L} {association read : L.sctp.Association}
    {e : TunnelError} (ha : t.association = some association)
    (hr : t.receiving association = (read, .error e)) :
    t.inbound.1.association = some read ∧ t.inbound.2.isOk = false := by
  obtain ⟨hleft, hok⟩ := drainSctp_some ((association_pumpIce t).trans ha)
  rw [receiving_pumpIce, hr] at hleft hok
  have hin : t.pumpIce.drainSctp = (t.pumpIce.drainSctp.1, .error e) := Prod.ext rfl hok
  unfold inbound
  rw [hin, Outcome.andThen_error]
  exact ⟨hleft, rfl⟩

/-- Behind the reading the channel is opened, if it is to be opened. -/
theorem inbound_read {t : DirectTunnel L} {association read : L.sctp.Association}
    (ha : t.association = some association) (hr : t.receiving association = (read, .ok ())) :
    (t.Dials → t.inbound.1.association = some (t.dialing read).1 ∧
      t.inbound.2 = (t.dialing read).2) ∧
    (¬ t.Dials → t.inbound.1.association = some read ∧ t.inbound.2 = .ok ()) := by
  have hdials := dials_drainSctp t
  have hdialing := dialing_parameters
    ((parameters_drainSctp t.pumpIce).trans (parameters_pumpIce t))
  obtain ⟨hleft, hok⟩ := drainSctp_some ((association_pumpIce t).trans ha)
  rw [receiving_pumpIce, hr] at hleft hok
  have hin : t.pumpIce.drainSctp = (t.pumpIce.drainSctp.1, .ok ()) := Prod.ext rfl hok
  unfold inbound
  rw [hin, Outcome.andThen_ok, drainChannel]
  refine ⟨fun hd => ?_, fun hd => ?_⟩
  · rw [if_pos (hdials.mpr hd), ← hdialing]
    exact openStream_some hleft
  · rw [if_neg (mt hdials.mp hd)]
    exact ⟨hleft, rfl⟩

/-- **The input side of a pump is what the association answers.** -/
theorem input_iff (t : DirectTunnel L) (ok : Bool) (left : Option L.sctp.Association) :
    t.Input ok left ↔ t.inbound.1.association = left ∧ t.inbound.2.isOk = ok := by
  cases ha : t.association with
  | none =>
    obtain ⟨hleft, hok⟩ := inbound_none ha
    rw [input_none ha, hleft, eq_comm, Bool.eq_iff_iff.trans (iff_congr hok Iff.rfl)]
    exact and_congr_right fun _ => iff_comm
  | some association =>
    rw [input_some ha]
    simp only [receives_iff, dialed_iff]
    cases hr : t.receiving association with
    | mk read o =>
      cases o with
      | error e =>
        obtain ⟨hleft, hok⟩ := inbound_unread ha hr
        rw [hleft, hok]
        constructor
        · rintro ⟨a, rfl, ⟨rfl, rfl, _⟩ | ⟨_, ⟨_, hn⟩, _⟩⟩
          · exact ⟨rfl, rfl⟩
          · cases hn
        · rintro ⟨rfl, rfl⟩
          exact ⟨read, rfl, .inl ⟨rfl, rfl, rfl⟩⟩
      | ok u =>
        obtain ⟨hopens, hstays⟩ := inbound_read ha hr
        by_cases hd : t.Dials
        · obtain ⟨hleft, hresult⟩ := hopens hd
          rw [hleft, hresult]
          constructor
          · rintro ⟨a, rfl, ⟨_, _, hn⟩ | ⟨_, ⟨rfl, _⟩, ⟨_, _, hn⟩ | ⟨_, rfl, rfl⟩⟩⟩
            · cases hn
            · exact absurd hd hn
            · exact ⟨rfl, rfl⟩
          · rintro ⟨rfl, rfl⟩
            exact ⟨_, rfl, .inr ⟨read, ⟨rfl, rfl⟩, .inr ⟨hd, rfl, rfl⟩⟩⟩
        · obtain ⟨hleft, hresult⟩ := hstays hd
          rw [hleft, hresult]
          constructor
          · rintro ⟨a, rfl, ⟨_, _, hn⟩ | ⟨_, ⟨rfl, _⟩, ⟨rfl, rfl, _⟩ | ⟨hn, _⟩⟩⟩
            · cases hn
            · exact ⟨rfl, rfl⟩
            · exact absurd hn hd
          · rintro ⟨rfl, rfl⟩
            exact ⟨read, rfl, .inr ⟨read, ⟨rfl, rfl⟩, .inl ⟨rfl, rfl, hd⟩⟩⟩

theorem writeRaws_append (now : Instant) (remote : SocketAddr) (raws more : List Bytes)
    (d : L.dtls.Endpoint) : writeRaws L now remote (raws ++ more) d =
      (writeRaws L now remote raws d).andThen (writeRaws L now remote more) := by
  induction raws generalizing d with
  | nil => rfl
  | cons raw raws ih =>
    rw [List.cons_append, writeRaws, writeRaws]
    cases configError "dtls write" (L.dtls.write d now remote raw).2 with
    | error e => rfl
    | ok u => exact ih _

/-- The loop over the packets of an association writes them one by one, up to a failing write. -/
theorem forEach_writes {now : Instant} {remote : SocketAddr}
    {body : Transmit → L.dtls.Endpoint → Outcome L.dtls.Endpoint TunnelError}
    (hb : ∀ transmit d, body transmit d = writeRaws L now remote (rawsOf transmit) d)
    (association : L.sctp.Association) : ∀ d,
      ((((L.sctp.transmits now).lift TunnelError).forEach body association d).1.2,
        (((L.sctp.transmits now).lift TunnelError).forEach body association d).2) =
      writeRaws L now remote (((L.sctp.transmits now).drain association).1.flatMap rawsOf) d := by
  have hl : ∀ {a o a'}, (L.sctp.transmits now).poll a = (o, a') →
      ((L.sctp.transmits now).lift TunnelError).poll a = (.ok o, a') := by
    intro a o a' hp
    show (Except.ok ((L.sctp.transmits now).poll a).1, ((L.sctp.transmits now).poll a).2) = _
    rw [hp]
  refine (L.sctp.transmits now).poll_induction (P := fun a => ∀ d,
    ((((L.sctp.transmits now).lift TunnelError).forEach body a d).1.2,
      (((L.sctp.transmits now).lift TunnelError).forEach body a d).2) =
    writeRaws L now remote (((L.sctp.transmits now).drain a).1.flatMap rawsOf) d) ?_ ?_ association
  · intro a a' hp d
    rw [TrySource.forEach_none _ _ _ (hl hp), Source.drain_none _ hp]
    rfl
  · intro a transmit a' hp ih d
    rw [Source.drain_some _ hp, List.flatMap_cons, writeRaws_append, ← hb]
    cases hf : body transmit d with
    | mk d' o =>
      cases o with
      | error e =>
        rw [TrySource.forEach_stop _ _ (hl hp) hf]
        rfl
      | ok u =>
        rw [TrySource.forEach_next _ _ (hl hp) hf, ih d']
        rfl

/-- `drain_sctp_transmits` writes the packets of the association. -/
theorem drainSctpTransmits_writes {t : DirectTunnel L} (hs : t.dtlsStarted = true) :
    (t.drainSctpTransmits.1.dtls, t.drainSctpTransmits.2) =
      writeRaws L t.lastNow t.remoteAddr (packetsOf L t.lastNow t.association) t.dtls := by
  unfold drainSctpTransmits packetsOf
  cases ha : t.association with
  | none => rfl
  | some association =>
    refine forEach_writes (fun transmit d => ?_) association t.dtls
    cases transmit with
    | rawEncode raws =>
      dsimp only
      rw [if_pos hs]
      rfl
    | other => rfl

/-- What a pump works with behind its input side. -/
structure Behind (t r : DirectTunnel L) : Prop where
  dtls : r.dtls = t.pumpIce.dtls
  dtlsStarted : r.dtlsStarted = t.pumpIce.dtlsStarted
  lastNow : r.lastNow = t.lastNow
  remoteAddr : r.remoteAddr = t.remoteAddr
  opened : r.opened = t.opened
  connected : r.sctpConnected = true ↔ t.IsConnected
  dialed : r.sctpConnected = true → r.channelDialed = true

/-- What the input side of a pump leaves alone. -/
def outputSide (t : DirectTunnel L) : L.dtls.Endpoint × Instant × Bool :=
  (t.dtls, t.lastNow, t.opened)

theorem outputSide_drainSctp (t : DirectTunnel L) : t.drainSctp.1.outputSide = t.outputSide := by
  have hp : t.pollAssociation.2.outputSide = t.outputSide := by
    unfold pollAssociation
    split <;> rfl
  have hf : ∀ (s : DirectTunnel L) (reason : CloseReason),
      (s.finish reason).outputSide = s.outputSide := by
    intro s reason
    unfold finish
    split <;> rfl
  have ho : ∀ (s : DirectTunnel L) (events : List SctpEvent),
      (s.observeSctpEvents events).outputSide = s.outputSide := by
    intro s events
    unfold observeSctpEvents
    dsimp only
    split
    · rw [hf]
      split <;> rfl
    · split <;> rfl
  have hr : ∀ s : DirectTunnel L, s.readStream.1.outputSide = s.outputSide := by
    intro s
    unfold readStream
    split
    · rfl
    · split <;> rfl
  unfold drainSctp
  dsimp only
  split
  · rw [hr, ho, hp]
  · rw [ho, hp]

theorem outputSide_drainChannel (t : DirectTunnel L) :
    t.drainChannel.1.outputSide = t.outputSide := by
  unfold drainChannel openStream
  dsimp only
  repeat' split
  all_goals rfl

theorem parameters_drainChannel (t : DirectTunnel L) :
    t.drainChannel.1.parameters = t.parameters := by
  unfold drainChannel openStream
  dsimp only
  repeat' split
  all_goals rfl

theorem lastNow_pumpIce (t : DirectTunnel L) : t.pumpIce.lastNow = t.lastNow := by
  have hw : t.drainIceEvents.drainIceWrites.lastNow = t.lastNow := by
    rw [drainIceEvents_eq]
    rfl
  have hs : ∀ s : DirectTunnel L, s.startDtls.lastNow = s.lastNow := by
    intro s
    unfold startDtls activateDtls
    split
    · rfl
    · split <;> rfl
  unfold pumpIce
  dsimp only
  split
  · rw [hs, hw]
  · exact hw

/-- A connected tunnel behind `drain_channel` has dialed. -/
theorem dialed_drainChannel (t : DirectTunnel L) :
    t.drainChannel.1.sctpConnected = t.sctpConnected ∧
      (t.sctpConnected = true → t.drainChannel.1.channelDialed = true) := by
  unfold drainChannel
  by_cases hc : (t.sctpConnected && !t.channelDialed) = true
  · rw [if_pos hc]
    unfold openStream
    dsimp only
    repeat' split
    all_goals exact ⟨rfl, fun _ => rfl⟩
  · rw [if_neg hc]
    refine ⟨rfl, fun h => ?_⟩
    simpa [h] using hc

theorem outputSide_inbound (t : DirectTunnel L) :
    t.inbound.1.outputSide = t.pumpIce.outputSide := by
  rw [inbound, Outcome.andThen_unchanged outputSide outputSide_drainChannel, outputSide_drainSctp]

theorem iceSide_inbound (t : DirectTunnel L) : t.inbound.1.iceSide = t.pumpIce.iceSide := by
  rw [inbound, Outcome.andThen_unchanged iceSide iceSide_drainChannel, iceSide_drainSctp]

theorem behind_inbound {t : DirectTunnel L} (h : t.inbound.2.isOk = true) :
    t.Behind t.inbound.1 := by
  have hs := steady_pumpIce t
  obtain ⟨hconnected, hdialed⟩ := sctpConnected_drainSctp t.pumpIce
  rw [hs.sctpConnected, sctpEvents_pumpIce] at hconnected
  have hparams : t.inbound.1.parameters = t.parameters := by
    rw [inbound, Outcome.andThen_unchanged parameters parameters_drainChannel,
      parameters_drainSctp, parameters_pumpIce]
  obtain ⟨hdtls, hrest⟩ := Prod.mk.inj (outputSide_inbound t)
  obtain ⟨hnow, hopened⟩ := Prod.mk.inj hrest
  have hflags : (t.inbound.1.sctpConnected = true ↔ t.IsConnected) ∧
      (t.inbound.1.sctpConnected = true → t.inbound.1.channelDialed = true) := by
    unfold inbound at h ⊢
    revert h hconnected
    generalize t.pumpIce.drainSctp = r
    obtain ⟨r, e | u⟩ := r
    · exact fun h => absurd h Bool.false_ne_true
    · intro _ hconnected
      obtain ⟨hsame, hdial⟩ := dialed_drainChannel r
      rw [Outcome.andThen_ok, hsame]
      exact ⟨hconnected, hdial⟩
  exact ⟨hdtls, congrArg Prod.snd (iceSide_inbound t), hnow.trans (lastNow_pumpIce t),
    congrArg Parameters.remoteAddr hparams, hopened.trans hs.opened, hflags.1, hflags.2⟩

/-- What the last stage of a started pump pushes: what DTLS has to send once every packet is
written, and `Opened`. -/
theorem flushOut_eq_nil_iff {t : DirectTunnel L} {dtls : L.dtls.Endpoint}
    (hd : t.runningDtls = some dtls) : flushOut t = [] ↔
      ∀ left next, t.Input true left → t.Written left dtls next →
        (L.dtls.transmits.poll next).1 = none ∧ (t.opened = true ∨ ¬ t.IsConnected) := by
  have hs : t.started = true := (started_iff t).mpr (by rw [hd]; rfl)
  have hdtls : t.pumpIce.dtls = dtls := by
    rw [runningDtls_eq, if_pos hs] at hd
    exact Option.some.inj hd
  have hbehind := fun h => behind_inbound (t := t) h
  have hinput := input_iff t true
  unfold flushOut flushed
  rw [if_pos hs]
  unfold inbound at hbehind hinput
  revert hbehind hinput
  generalize t.pumpIce.drainSctp.andThen drainChannel = r
  obtain ⟨r, e | u⟩ := r
  · intro _ hinput
    simp [hinput, Except.isOk, Except.toBool]
  · intro hbehind hinput
    have hb := hbehind rfl
    have hwrites := drainSctpTransmits_writes (hb.dtlsStarted.trans hs)
    have hsteady := (mute_drainSctpTransmits r).steady
    change Behind t r at hb
    rw [hb.lastNow, hb.remoteAddr, hb.dtls, hdtls] at hwrites
    rw [Outcome.andThen_ok]
    simp only [hinput]
    unfold Written
    cases hr : r.drainSctpTransmits with
    | mk s o =>
      rw [hr] at hwrites hsteady
      cases o with
      | error e =>
        refine ⟨fun _ left next hleft hw => ?_, fun _ => rfl⟩
        obtain ⟨rfl, _⟩ := hleft
        cases (hwrites.trans hw : (s.dtls, _) = _)
      | ok u =>
        have hopened : s.opened = t.opened := hsteady.opened.trans hb.opened
        have hconnected : (s.sctpConnected && s.channelDialed) = true ↔ t.IsConnected := by
          rw [hsteady.sctpConnected, hsteady.channelDialed, Bool.and_eq_true, ← hb.connected]
          exact ⟨fun h => h.1, fun h => ⟨h, hb.dialed h⟩⟩
        have hopen : (if !s.opened && (s.sctpConnected && s.channelDialed) then [Event.opened]
            else []) = [] ↔ t.opened = true ∨ ¬ t.IsConnected := by
          rw [← hconnected, hopened]
          cases t.opened <;> cases s.sctpConnected && s.channelDialed <;> simp
        dsimp only
        rw [hs, if_pos rfl, List.append_eq_nil_iff, hopen, List.map_eq_nil_iff, Source.drain_eq_nil]
        constructor
        · rintro ⟨hsend, ho⟩ left next ⟨rfl, _⟩ hw
          cases (hwrites.trans hw : (s.dtls, _) = _)
          exact ⟨hsend, ho⟩
        · exact fun h => h r.association s.dtls ⟨rfl, rfl⟩ hwrites.symm

/-- A pump reads nothing exactly when no message waits for it. -/
theorem readOut_eq_nil_iff (t : DirectTunnel L) : readOut t = [] ↔ (t.runningDtls.isSome = true →
    .readable t.streamId ∈ t.sctpEvents → ∀ association, t.association = some association →
      ¬ MessageWaits L t.streamId (polled L association)) := by
  simp only [← inbox_eq_nil_iff, ← started_iff]
  cases hs : t.started <;> cases ha : t.association <;> simp [readOut, hs, ha]

end DirectTunnel

end RtcTunnel.Direct
