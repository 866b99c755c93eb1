import RtcTunnel.Direct.Lifecycle

/-!
# What a pump pushes

Every public operation runs at most one pump, and what that pump pushes is told
apart by its stage: the datagrams of ICE, the close of a lost association, the
messages read, and what the last stage hands out when no stage before it failed.
-/

namespace RtcTunnel.Direct

open RtcTunnel.Core
open RtcTunnel.Base (Outcome)
open RtcTunnel.Base.Run (run)

set_option autoImplicit false

namespace DirectTunnel

variable {L : Layers}

theorem pushed_of_log {t r : DirectTunnel L} (h : r.log = t.log) : pushed r = pushed t := by
  rw [pushed, pushed, h]

@[simp] theorem pushed_pushAll (t : DirectTunnel L) (es : List Event) :
    pushed (t.pushAll es) = pushed t ++ es := by
  simp only [pushed, pushAll, List.filterMap_append, List.filterMap_map]
  congr 1
  exact List.filterMap_some

theorem pushed_push (t : DirectTunnel L) (e : Event) : pushed (t.push e) = pushed t ++ [e] :=
  pushed_pushAll t [e]

/-- The flags of the channel stay as they are. -/
structure Steady (t r : DirectTunnel L) : Prop where
  sctpConnected : r.sctpConnected = t.sctpConnected
  channelDialed : r.channelDialed = t.channelDialed
  opened : r.opened = t.opened
  finished : r.finished = t.finished
  streamId : r.streamId = t.streamId

theorem Steady.trans {a b c : DirectTunnel L} (h : a.Steady b) (h' : b.Steady c) : a.Steady c :=
  ⟨h'.1.trans h.1, h'.2.trans h.2, h'.3.trans h.3, h'.4.trans h.4, h'.5.trans h.5⟩

/-- A part of an operation that moreover pushes nothing. -/
structure Mute (t r : DirectTunnel L) : Prop where
  steady : t.Steady r
  pushed : pushed r = pushed t

theorem Mute.refl (t : DirectTunnel L) : t.Mute t := ⟨⟨rfl, rfl, rfl, rfl, rfl⟩, rfl⟩

theorem Mute.trans {a b c : DirectTunnel L} (h : a.Mute b) (h' : b.Mute c) : a.Mute c :=
  ⟨h.1.trans h'.1, h'.2.trans h.2⟩

theorem mute_record (t : DirectTunnel L) {e : Entry} (he : ∀ event, e ≠ .pushed event) :
    t.Mute (t.record e) := by
  refine ⟨⟨rfl, rfl, rfl, rfl, rfl⟩, ?_⟩
  rw [DirectTunnel.pushed, record, List.filterMap_append]
  cases e with
  | pushed event => exact absurd rfl (he event)
  | _ => exact List.append_nil _

theorem mute_startDtls (t : DirectTunnel L) : t.Mute t.startDtls := by
  unfold startDtls activateDtls
  split
  · exact ⟨⟨rfl, rfl, rfl, rfl, rfl⟩, rfl⟩
  · split
    · exact ⟨⟨rfl, rfl, rfl, rfl, rfl⟩, rfl⟩
    · rename_i config _
      have h := mute_record { t with dtls := (L.dtls.connect t.dtls t.lastNow t.remoteAddr
          config).1 } (e := .dtlsConnect t.remoteAddr (L.dtls.connect t.dtls t.lastNow
          t.remoteAddr config).2.isOk) nofun
      exact ⟨⟨rfl, rfl, rfl, rfl, rfl⟩, h.pushed⟩

theorem mute_startSctp (t : DirectTunnel L) : t.Mute t.startSctp.1 := by
  unfold startSctp
  split
  · dsimp only
    split
    · have h := mute_record t (e := .sctpConnect true) nofun
      exact ⟨⟨rfl, rfl, rfl, rfl, rfl⟩, h.pushed⟩
    · have h := mute_record t (e := .sctpConnect false) nofun
      exact ⟨⟨rfl, rfl, rfl, rfl, rfl⟩, h.pushed⟩
  · exact ⟨⟨rfl, rfl, rfl, rfl, rfl⟩, rfl⟩

theorem mute_feedSctp (t : DirectTunnel L) (now : Instant) (datagram : Bytes) :
    t.Mute (t.feedSctp now datagram) := by
  unfold feedSctp
  split
  · exact .refl t
  · dsimp only
    split
    · have h := mute_record t (e := .newAssociation) nofun
      exact ⟨⟨rfl, rfl, rfl, rfl, rfl⟩, h.pushed⟩
    · exact ⟨⟨rfl, rfl, rfl, rfl, rfl⟩, rfl⟩
    · exact ⟨⟨rfl, rfl, rfl, rfl, rfl⟩, rfl⟩
    · exact ⟨⟨rfl, rfl, rfl, rfl, rfl⟩, rfl⟩

theorem mute_feedDtlsEvent (t : DirectTunnel L) (now : Instant) (e : DtlsEvent) :
    t.Mute (t.feedDtlsEvent now e).1 := by
  cases e with
  | handshakeComplete =>
    have h := mute_record t (e := .handshakeComplete (L.dtls.peerCertificates t.dtls
      t.remoteAddr)) nofun
    unfold feedDtlsEvent
    dsimp only
    split
    · refine Mute.trans ?_ (mute_startSctp _)
      exact ⟨⟨rfl, rfl, rfl, rfl, rfl⟩, h.pushed⟩
    · exact ⟨⟨rfl, rfl, rfl, rfl, rfl⟩, h.pushed⟩
  | applicationData data => exact mute_feedSctp t now data
  | other => exact .refl t

theorem mute_feedDtls (t : DirectTunnel L) (now : Instant) (datagram : Bytes) :
    t.Mute (t.feedDtls now datagram).1 := by
  have he : ∀ (es : List DtlsEvent) (s : DirectTunnel L), s.Mute (feedDtlsEvents now es s).1 := by
    intro es
    induction es with
    | nil => exact .refl
    | cons e es ih =>
      intro s
      exact Outcome.andThen_related (R := Mute) Mute.trans (s := s)
        (mute_feedDtlsEvent s now e) ih
  unfold feedDtls
  dsimp only
  split
  · exact ⟨⟨rfl, rfl, rfl, rfl, rfl⟩, rfl⟩
  · have h : t.Mute { t with dtls := (L.dtls.read t.dtls now t.remoteAddr datagram).1 } :=
      ⟨⟨rfl, rfl, rfl, rfl, rfl⟩, rfl⟩
    exact h.trans (he _ _)

theorem mute_dispatch (t : DirectTunnel L) (now : Instant) (datagram : Bytes) :
    t.Mute (t.dispatch now datagram).1 := by
  unfold dispatch
  split
  · exact ⟨⟨rfl, rfl, rfl, rfl, rfl⟩, rfl⟩
  · split
    · split
      · dsimp only
        split
        · exact mute_feedDtls t now datagram
        · exact (mute_startDtls t).trans (mute_feedDtls _ now datagram)
      · exact .refl t
    · exact .refl t

theorem mute_ingest (t : DirectTunnel L) (now : Instant) (datagram : Bytes) :
    t.Mute (t.ingest now datagram) := by
  unfold ingest
  dsimp only
  split
  · exact mute_dispatch t now datagram
  · exact (mute_dispatch t now datagram).trans ⟨⟨rfl, rfl, rfl, rfl, rfl⟩, rfl⟩

theorem mute_handleTimeouts (t : DirectTunnel L) (now : Instant) :
    t.Mute (t.handleTimeouts now) := by
  unfold handleTimeouts
  dsimp only
  split <;> exact ⟨⟨rfl, rfl, rfl, rfl, rfl⟩, rfl⟩

theorem mute_drainIceEvents (t : DirectTunnel L) : t.Mute t.drainIceEvents := by
  rw [drainIceEvents_eq]
  exact ⟨⟨rfl, rfl, rfl, rfl, rfl⟩, rfl⟩

theorem mute_pollAssociation (t : DirectTunnel L) : t.Mute t.pollAssociation.2 := by
  unfold pollAssociation
  split <;> exact ⟨⟨rfl, rfl, rfl, rfl, rfl⟩, rfl⟩

theorem mute_drainSctpTransmits (t : DirectTunnel L) : t.Mute t.drainSctpTransmits.1 := by
  unfold drainSctpTransmits
  split <;> exact ⟨⟨rfl, rfl, rfl, rfl, rfl⟩, rfl⟩

/-- The messages `read_stream` takes from a stream. -/
def inbox (L : Layers) (id : UInt16) (association : L.sctp.Association) : List Event :=
  if L.sctp.hasStream association id then
    ((reader L id).forEach (readChunk L) association []).1.2
  else []

/-- The events waiting in the association. -/
def sctpEvents (t : DirectTunnel L) : List SctpEvent :=
  match t.association with
  | none => []
  | some association => (L.sctp.events.drain association).1

/-- The association after its events and endpoint events were polled. -/
def polled (L : Layers) (association : L.sctp.Association) : L.sctp.Association :=
  (L.sctp.endpointEvents.drain (L.sctp.events.drain association).2).2

/-- Whether a pump gets past ICE. -/
def started (t : DirectTunnel L) : Bool := t.pumpIce.dtlsStarted

def iceOut (t : DirectTunnel L) : List Event :=
  (L.ice.writes.drain t.drainIceEvents.ice).1.map .sendDatagram

/-- A pump finds the association lost. -/
def loses (t : DirectTunnel L) : Bool := t.started && decide (.associationLost ∈ t.sctpEvents)

/-- The messages a pump reads. -/
def readOut (t : DirectTunnel L) : List Event :=
  if t.started && decide (.readable t.streamId ∈ t.sctpEvents) then
    (t.association.map fun association => inbox L t.streamId (polled L association)).getD []
  else []

/-- The tunnel as the last stage of a pump finds it, unless an earlier stage
fails and the pump stops there. -/
def flushed (t : DirectTunnel L) : Option (DirectTunnel L) :=
  if t.started then
    match (t.pumpIce.drainSctp.andThen drainChannel).andThen drainSctpTransmits with
    | (s, .ok ()) => some s
    | (_, .error _) => none
  else some t.pumpIce

/-- What the last stage of a pump pushes. -/
def flushOut (t : DirectTunnel L) : List Event :=
  match t.flushed with
  | none => []
  | some s =>
    (if t.started then (L.dtls.transmits.drain s.dtls).1.map .sendDatagram else []) ++
      if !s.opened && (s.sctpConnected && s.channelDialed) then [.opened] else []

theorem pollAssociation_events (t : DirectTunnel L) : t.pollAssociation.1 = t.sctpEvents := by
  unfold pollAssociation sctpEvents
  cases h : t.association with
  | none => rfl
  | some association => rfl

theorem pollAssociation_association (t : DirectTunnel L) :
    t.pollAssociation.2.association = t.association.map (polled L) := by
  unfold pollAssociation
  split
  · rename_i h
    rw [h]
    rfl
  · rename_i association h
    rw [h]
    rfl

theorem association_observeSctpEvents (t : DirectTunnel L) (events : List SctpEvent) :
    (t.observeSctpEvents events).association = t.association := by
  unfold observeSctpEvents finish
  dsimp only
  repeat' split
  all_goals rfl

theorem streamId_observeSctpEvents (t : DirectTunnel L) (events : List SctpEvent) :
    (t.observeSctpEvents events).streamId = t.streamId := by
  unfold observeSctpEvents finish
  dsimp only
  repeat' split
  all_goals rfl

theorem pushed_finish (t : DirectTunnel L) (reason : CloseReason) :
    pushed (t.finish reason) = pushed t ++ if t.finished then [] else [.closed reason] := by
  unfold finish
  split
  · exact (List.append_nil _).symm
  · exact pushed_push { t with finished := true } _

theorem pushed_observeSctpEvents (t : DirectTunnel L) (events : List SctpEvent) :
    pushed (t.observeSctpEvents events) = pushed t ++
      if decide (.associationLost ∈ events) && !t.finished then [.closed .remote] else [] := by
  have hc : pushed (if .connected ∈ events then t.observeConnected else t) = pushed t ∧
      (if .connected ∈ events then t.observeConnected else t).finished = t.finished := by
    split
    · have h := mute_record t (e := .sctpConnected) nofun
      exact ⟨h.pushed, rfl⟩
    · exact ⟨rfl, rfl⟩
  unfold observeSctpEvents
  dsimp only
  by_cases hl : .associationLost ∈ events
  · rw [if_pos hl, pushed_finish, hc.1, hc.2]
    cases t.finished <;> simp [hl]
  · rw [if_neg hl, hc.1]
    simp [hl]

theorem readStream_association (t : DirectTunnel L) (association : L.sctp.Association)
    (ha : t.association = some association) :
    pushed t.readStream.1 = pushed t ++ inbox L t.streamId association := by
  unfold readStream inbox
  rw [ha]
  dsimp only
  split
  · rw [pushed_pushAll]
    rfl
  · exact (List.append_nil _).symm

theorem pushed_drainSctp (t : DirectTunnel L) :
    pushed t.drainSctp.1 = pushed t ++
      (if decide (.associationLost ∈ t.sctpEvents) && !t.finished then [.closed .remote] else []) ++
      if .readable t.streamId ∈ t.sctpEvents then
        (t.association.map fun association => inbox L t.streamId (polled L association)).getD []
      else [] := by
  have hq := mute_pollAssociation t
  have hid := (streamId_observeSctpEvents t.pollAssociation.2 t.sctpEvents).trans hq.steady.streamId
  have hp : pushed (t.pollAssociation.2.observeSctpEvents t.sctpEvents) = pushed t ++
      if decide (.associationLost ∈ t.sctpEvents) && !t.finished then [.closed .remote] else [] := by
    rw [pushed_observeSctpEvents, hq.pushed, hq.steady.finished]
  have ha := (association_observeSctpEvents t.pollAssociation.2 t.sctpEvents).trans
    (pollAssociation_association t)
  unfold drainSctp
  dsimp only
  rw [pollAssociation_events, hid]
  split
  · cases hs : t.association with
    | none =>
      rw [hs] at ha
      unfold readStream
      rw [ha]
      simpa using hp
    | some association =>
      rw [hs] at ha
      rw [readStream_association _ _ ha, hp, hid]
      rfl
  · rw [hp, List.append_nil]

theorem pushed_drainChannel (t : DirectTunnel L) : pushed t.drainChannel.1 = pushed t := by
  unfold drainChannel openStream
  split
  · dsimp only
    split
    · exact pushed_of_log rfl
    · rename_i association ha
      have ho := mute_record t (e := .openStream t.streamId .binary
        (L.sctp.openStream association t.streamId .binary).2.isOk) nofun
      split
      · exact ho.pushed
      · refine Eq.trans ?_ ho.pushed
        exact (mute_record (t.record _) (e := .setReliabilityParams (!t.ordered) t.reliability.1
          t.reliability.2 _) nofun).pushed
  · rfl

theorem pushed_pumpIce (t : DirectTunnel L) : pushed t.pumpIce = pushed t ++ iceOut t := by
  have hw : pushed t.drainIceEvents.drainIceWrites = pushed t ++ iceOut t := by
    rw [drainIceWrites, pushed_pushAll, ← (mute_drainIceEvents t).pushed]
    rfl
  unfold pumpIce
  dsimp only
  split
  · rw [(mute_startDtls _).pushed, hw]
  · exact hw

theorem association_startDtls (t : DirectTunnel L) : t.startDtls.association = t.association := by
  unfold startDtls activateDtls
  split
  · rfl
  · split <;> rfl

theorem association_pumpIce (t : DirectTunnel L) : t.pumpIce.association = t.association := by
  have hw : t.drainIceEvents.drainIceWrites.association = t.association := by
    rw [drainIceEvents_eq]
    rfl
  unfold pumpIce
  dsimp only
  split
  · rw [association_startDtls, hw]
  · exact hw

theorem steady_pumpIce (t : DirectTunnel L) : t.Steady t.pumpIce := by
  have hw : t.Steady t.drainIceEvents.drainIceWrites :=
    (mute_drainIceEvents t).steady.trans ⟨rfl, rfl, rfl, rfl, rfl⟩
  unfold pumpIce
  dsimp only
  split
  · exact hw.trans (mute_startDtls _).steady
  · exact hw

theorem sctpEvents_pumpIce (t : DirectTunnel L) : t.pumpIce.sctpEvents = t.sctpEvents := by
  rw [sctpEvents, sctpEvents, association_pumpIce]

theorem pushed_maybeOpen (t : DirectTunnel L) : pushed t.maybeOpen = pushed t ++
    if !t.opened && (t.sctpConnected && t.channelDialed) then [.opened] else [] := by
  unfold maybeOpen
  split
  · rename_i ho
    simp [ho]
  · rename_i ho
    simp only [Bool.not_eq_true] at ho
    split
    · rename_i hc
      rw [pushed_push, ho, hc]
      rfl
    · rename_i hc
      simp only [Bool.not_eq_true] at hc
      rw [ho, hc]
      exact (List.append_nil _).symm

/-- What a started pump pushes before its last stage, whether it fails or not. -/
theorem pushed_stages (t : DirectTunnel L) :
    pushed ((t.drainSctp.andThen drainChannel).andThen drainSctpTransmits).1 =
      pushed t.drainSctp.1 := by
  rw [Outcome.andThen_unchanged pushed fun s => (mute_drainSctpTransmits s).pushed,
    Outcome.andThen_unchanged pushed pushed_drainChannel]

/-- **What a pump pushes, stage by stage.** -/
theorem pushed_pump (t : DirectTunnel L) (hf : t.finished = false) :
    pushed t.pump.1 = pushed t ++
      (iceOut t ++ (if t.loses then [.closed .remote] else []) ++ readOut t ++ flushOut t) := by
  have hs := steady_pumpIce t
  unfold pump
  dsimp only
  cases hst : t.started with
  | false =>
    have hd : t.pumpIce.dtlsStarted = false := hst
    rw [if_neg (by simp [hd])]
    have hl : t.loses = false := by simp [loses, hst]
    have hr : readOut t = [] := by simp [readOut, hst]
    have hfl : t.flushed = some t.pumpIce := by simp [flushed, hst]
    rw [hl, hr, flushOut, hfl, hst]
    simp [pushed_maybeOpen, pushed_pumpIce]
  | true =>
    have hd : t.pumpIce.dtlsStarted = true := hst
    rw [if_pos hd]
    have hl : t.loses = decide (.associationLost ∈ t.sctpEvents) := by simp [loses, hst]
    have hfi : t.pumpIce.finished = false := hs.finished.trans hf
    have hread : pushed ((t.pumpIce.drainSctp.andThen drainChannel).andThen
        drainSctpTransmits).1 = pushed t ++
          (iceOut t ++ (if t.loses then [.closed .remote] else []) ++ readOut t) := by
      rw [pushed_stages, pushed_drainSctp, pushed_pumpIce, sctpEvents_pumpIce,
        association_pumpIce, hs.streamId, hfi, hl]
      simp [readOut, hst]
    unfold pumpStarted flushOut flushed
    rw [hst, if_pos rfl]
    revert hread
    generalize (t.pumpIce.drainSctp.andThen drainChannel).andThen drainSctpTransmits = r
    obtain ⟨s, e | u⟩ := r
    · intro hread
      simpa using hread
    · intro hread
      simp only [Outcome.andThen_ok, pushed_maybeOpen, drainDtlsTransmits, pushed_pushAll]
      change pushed s = _ at hread
      have hp : pushed { s with dtls := (L.dtls.transmits.drain s.dtls).2 } = pushed s := rfl
      rw [hp, hread]
      simp [pushAll]

theorem finished_observeSctpEvents (t : DirectTunnel L) (events : List SctpEvent) :
    (t.observeSctpEvents events).finished =
      (t.finished || decide (.associationLost ∈ events)) := by
  have hc : (if .connected ∈ events then t.observeConnected else t).finished = t.finished := by
    split <;> rfl
  unfold observeSctpEvents finish
  dsimp only
  rw [hc]
  by_cases hl : .associationLost ∈ events
  · rw [if_pos hl]
    by_cases hf : t.finished = true
    · rw [if_pos hf, hc, hf]
      rfl
    · rw [if_neg hf]
      simp [push, pushAll, hl]
  · rw [if_neg hl, hc]
    simp [hl]

theorem finished_readStream (t : DirectTunnel L) : t.readStream.1.finished = t.finished := by
  unfold readStream
  split
  · rfl
  · split <;> rfl

theorem finished_drainChannel (t : DirectTunnel L) : t.drainChannel.1.finished = t.finished := by
  unfold drainChannel openStream
  dsimp only
  repeat' split
  all_goals rfl

theorem finished_maybeOpen (t : DirectTunnel L) : t.maybeOpen.finished = t.finished := by
  unfold maybeOpen
  split
  · rfl
  · split <;> rfl

theorem finished_drainSctp (t : DirectTunnel L) : t.drainSctp.1.finished =
    (t.finished || decide (.associationLost ∈ t.sctpEvents)) := by
  have ho : (t.pollAssociation.2.observeSctpEvents t.sctpEvents).finished =
      (t.finished || decide (.associationLost ∈ t.sctpEvents)) := by
    rw [finished_observeSctpEvents, (mute_pollAssociation t).steady.finished]
  unfold drainSctp
  dsimp only
  rw [pollAssociation_events]
  split
  · rw [finished_readStream, ho]
  · exact ho

/-- A pump finishes the tunnel exactly when it finds the association lost. -/
theorem finished_pump (t : DirectTunnel L) : t.pump.1.finished = (t.finished || t.loses) := by
  have hp := (steady_pumpIce t).finished
  unfold pump
  dsimp only
  rw [Outcome.andThen_unchanged finished finished_maybeOpen]
  cases hst : t.started with
  | false =>
    have hd : t.pumpIce.dtlsStarted = false := hst
    rw [if_neg (by simp [hd])]
    simpa [loses, hst] using hp
  | true =>
    have hd : t.pumpIce.dtlsStarted = true := hst
    rw [if_pos hd, pumpStarted, Outcome.andThen_unchanged finished fun s => rfl,
      Outcome.andThen_unchanged finished fun s => (mute_drainSctpTransmits s).steady.finished,
      Outcome.andThen_unchanged finished finished_drainChannel, finished_drainSctp,
      sctpEvents_pumpIce, hp]
    simp [loses, hst]

/-- What the stages behind ICE leave alone. -/
def iceSide (t : DirectTunnel L) : L.ice.Agent × Bool := (t.ice, t.dtlsStarted)

theorem iceSide_finish (t : DirectTunnel L) (reason : CloseReason) :
    (t.finish reason).iceSide = t.iceSide := by
  unfold finish
  split <;> rfl

theorem iceSide_drainSctp (t : DirectTunnel L) : t.drainSctp.1.iceSide = t.iceSide := by
  have hp : t.pollAssociation.2.iceSide = t.iceSide := by
    unfold pollAssociation
    split <;> rfl
  have ho : ∀ (s : DirectTunnel L) (events : List SctpEvent),
      (s.observeSctpEvents events).iceSide = s.iceSide := by
    intro s events
    unfold observeSctpEvents
    dsimp only
    split
    · rw [iceSide_finish]
      split <;> rfl
    · split <;> rfl
  have hr : ∀ s : DirectTunnel L, s.readStream.1.iceSide = s.iceSide := by
    intro s
    unfold readStream
    split
    · rfl
    · split <;> rfl
  unfold drainSctp
  dsimp only
  split
  · rw [hr, ho, hp]
  · rw [ho, hp]

theorem iceSide_drainChannel (t : DirectTunnel L) : t.drainChannel.1.iceSide = t.iceSide := by
  unfold drainChannel openStream
  dsimp only
  repeat' split
  all_goals rfl

theorem iceSide_drainSctpTransmits (t : DirectTunnel L) :
    t.drainSctpTransmits.1.iceSide = t.iceSide := by
  unfold drainSctpTransmits
  split <;> rfl

theorem iceSide_maybeOpen (t : DirectTunnel L) : t.maybeOpen.iceSide = t.iceSide := by
  unfold maybeOpen
  split
  · rfl
  · split <;> rfl

theorem iceSide_pump (t : DirectTunnel L) : t.pump.1.iceSide = t.pumpIce.iceSide := by
  unfold pump
  rw [Outcome.andThen_unchanged iceSide iceSide_maybeOpen]
  split
  · rw [pumpStarted, Outcome.andThen_unchanged iceSide fun _ => rfl,
      Outcome.andThen_unchanged iceSide iceSide_drainSctpTransmits,
      Outcome.andThen_unchanged iceSide iceSide_drainChannel, iceSide_drainSctp]
  · rfl

/-- The tunnel as the pump of an operation finds it, if the operation pumps. -/
def pumpEntry (t : DirectTunnel L) : Op → Option (DirectTunnel L)
  | .receive nowMs datagram =>
    if t.finished then none
    else
      let now := t.epoch.addMillis nowMs
      some ({ t with lastNow := now }.ingest now datagram)
  | .receiveDeferred nowMs datagram =>
    if t.finished then none
    else
      let now := t.epoch.addMillis nowMs
      let t := { t with lastNow := now }.ingest now datagram
      if t.opened then none else some t
  | .finishInputBatch => if t.finished || !t.opened then none else some t
  | .tick nowMs =>
    if t.finished then none
    else
      let now := t.epoch.addMillis nowMs
      some ({ t with lastNow := now }.handleTimeouts now)
  | _ => none

/-- The timeout that `tick` adds to its pump. -/
def timeoutOut (s : DirectTunnel L) (epoch : Instant) : Op → List Event
  | .tick nowMs =>
    if !s.pump.1.opened && decide (s.pump.1.handshakeDeadline ≤ epoch.addMillis nowMs) &&
        !s.pump.1.finished then [.closed .timeout]
    else []
  | _ => []

theorem mute_clock (t : DirectTunnel L) (now : Instant) : t.Mute { t with lastNow := now } :=
  ⟨⟨rfl, rfl, rfl, rfl, rfl⟩, rfl⟩

theorem mute_pumpEntry {t s : DirectTunnel L} {op : Op} (h : t.pumpEntry op = some s) :
    t.Mute s ∧ t.finished = false := by
  cases op with
  | receive nowMs datagram =>
    simp only [pumpEntry, Option.ite_none_left_eq_some, Option.some.injEq] at h
    obtain ⟨hf, rfl⟩ := h
    exact ⟨(mute_clock t _).trans (mute_ingest _ _ _), by simpa using hf⟩
  | receiveDeferred nowMs datagram =>
    simp only [pumpEntry, Option.ite_none_left_eq_some, Option.some.injEq] at h
    obtain ⟨hf, _, rfl⟩ := h
    exact ⟨(mute_clock t _).trans (mute_ingest _ _ _), by simpa using hf⟩
  | finishInputBatch =>
    simp only [pumpEntry, Option.ite_none_left_eq_some, Option.some.injEq] at h
    obtain ⟨hf, rfl⟩ := h
    simp only [Bool.or_eq_true, not_or, Bool.not_eq_true] at hf
    exact ⟨.refl t, hf.1⟩
  | tick nowMs =>
    simp only [pumpEntry, Option.ite_none_left_eq_some, Option.some.injEq] at h
    obtain ⟨hf, rfl⟩ := h
    exact ⟨(mute_clock t _).trans (mute_handleTimeouts _ _), by simpa using hf⟩
  | _ => cases h

theorem calls_pumpEntry {t s : DirectTunnel L} {op : Op} (h : t.pumpEntry op = some s) :
    t.Calls s := by
  cases op with
  | receive nowMs datagram =>
    simp only [pumpEntry, Option.ite_none_left_eq_some, Option.some.injEq] at h
    obtain ⟨_, rfl⟩ := h
    exact (Call.clock t _).one.trans (calls_ingest _ _ datagram)
  | receiveDeferred nowMs datagram =>
    simp only [pumpEntry, Option.ite_none_left_eq_some, Option.some.injEq] at h
    obtain ⟨_, _, rfl⟩ := h
    exact (Call.clock t _).one.trans (calls_ingest _ _ datagram)
  | finishInputBatch =>
    simp only [pumpEntry, Option.ite_none_left_eq_some, Option.some.injEq] at h
    obtain ⟨_, rfl⟩ := h
    exact .refl t
  | tick nowMs =>
    simp only [pumpEntry, Option.ite_none_left_eq_some, Option.some.injEq] at h
    obtain ⟨_, rfl⟩ := h
    exact (Call.clock t _).one.call (.handleTimeouts _ _)
  | _ => cases h

/-- What an operation makes of the tunnel behind its pump. -/
def afterPump (s : DirectTunnel L) (epoch : Instant) : Op → DirectTunnel L
  | .tick nowMs =>
    if !s.pump.1.opened && decide (s.pump.1.handshakeDeadline ≤ epoch.addMillis nowMs) then
      s.pump.1.finish .timeout
    else s.pump.1
  | _ => s.pump.1

theorem step_pump {t s : DirectTunnel L} {op : Op} (h : t.pumpEntry op = some s) :
    t.step op = s.afterPump t.epoch op := by
  cases op with
  | receive nowMs datagram =>
    simp only [pumpEntry, Option.ite_none_left_eq_some, Option.some.injEq] at h
    obtain ⟨hf, rfl⟩ := h
    rw [step, receive, if_neg hf]
    rfl
  | receiveDeferred nowMs datagram =>
    simp only [pumpEntry, Option.ite_none_left_eq_some, Option.some.injEq] at h
    obtain ⟨hf, ho, rfl⟩ := h
    rw [step, receiveDeferred, if_neg hf]
    exact if_neg ho
  | finishInputBatch =>
    simp only [pumpEntry, Option.ite_none_left_eq_some, Option.some.injEq] at h
    obtain ⟨hf, rfl⟩ := h
    rw [step, finishInputBatch, if_neg hf]
    rfl
  | tick nowMs =>
    simp only [pumpEntry, Option.ite_none_left_eq_some, Option.some.injEq] at h
    obtain ⟨hf, rfl⟩ := h
    rw [step, tick, if_neg hf]
    rfl
  | _ => cases h

/-- An operation that pumps pushes what its pump pushes, and `tick` its timeout. -/
theorem pushed_step_pump {t s : DirectTunnel L} {op : Op} (h : t.pumpEntry op = some s) :
    pushed (t.step op) = pushed s.pump.1 ++ timeoutOut s t.epoch op := by
  rw [step_pump h]
  cases op with
  | tick nowMs =>
    rw [afterPump, timeoutOut]
    generalize s.pump.1 = p
    by_cases hd : (!p.opened && decide (p.handshakeDeadline ≤ t.epoch.addMillis nowMs)) = true
    · rw [if_pos hd, hd, pushed_finish]
      cases p.finished <;> rfl
    · rw [if_neg hd]
      simp only [Bool.not_eq_true] at hd
      rw [hd]
      exact (List.append_nil _).symm
  | _ => exact (List.append_nil _).symm

theorem pushed_flushAfterSend (t : DirectTunnel L) :
    ∃ ds : List Bytes, pushed t.flushAfterSend = pushed t ++ ds.map .sendDatagram := by
  refine ⟨(L.dtls.transmits.drain t.drainChannel.1.drainSctpTransmits.1.dtls).1, ?_⟩
  rw [flushAfterSend, drainDtlsTransmits, pushed_pushAll]
  congr 1
  exact ((mute_drainSctpTransmits _).pushed).trans (pushed_drainChannel t)

theorem pushed_send (t : DirectTunnel L) (data : Bytes) :
    ∃ ds : List Bytes, pushed (t.send data).2 = pushed t ++ ds.map .sendDatagram ∧
      (t.finished = true → ds = []) := by
  obtain ⟨_, hr, _⟩ | ⟨association, hs, ⟨_, hr⟩ | ⟨_, hr⟩⟩ := send_cases t data
  · rw [hr]
    exact ⟨[], by simp⟩
  · rw [hr]
    exact ⟨[], (List.append_nil _).symm, fun _ => rfl⟩
  · obtain ⟨ds, hd⟩ := pushed_flushAfterSend
      ({ t with association := some (t.writeMessage association data).1 }.record
        (.writeChunk (encodeMessage data).2 (encodeMessage data).1))
    refine ⟨ds, ?_, fun hf => absurd (hs.finished.symm.trans hf) nofun⟩
    rw [hr, hd]
    congr 1
    exact (mute_record t (e := .writeChunk _ _) nofun).pushed

/-- What an operation that does not pump pushes. -/
theorem pushed_step_none {t : DirectTunnel L} {op : Op} (h : t.pumpEntry op = none) :
    ∃ ds : List Bytes, ∃ closed : List Event,
      pushed (t.step op) = pushed t ++ (ds.map .sendDatagram ++ closed) ∧
      (closed = [] ∨ ds = [] ∧ closed = [.closed .local]) ∧
      (t.finished = true → ds = [] ∧ closed = []) := by
  have stay : ∀ r : DirectTunnel L, pushed r = pushed t → ∃ ds : List Bytes, ∃ closed : List Event,
      pushed r = pushed t ++ (ds.map .sendDatagram ++ closed) ∧
      (closed = [] ∨ ds = [] ∧ closed = [.closed .local]) ∧
      (t.finished = true → ds = [] ∧ closed = []) :=
    fun r hr => ⟨[], [], by simpa using hr, .inl rfl, fun _ => ⟨rfl, rfl⟩⟩
  cases op with
  | receive nowMs datagram =>
    refine stay _ ?_
    rw [step, receive, if_pos (by_contra fun hf => by simp [pumpEntry, hf] at h)]
  | receiveDeferred nowMs datagram =>
    by_cases hf : t.finished = true
    · refine stay _ ?_
      rw [step, receiveDeferred, if_pos hf]
    · refine stay _ ?_
      simp only [pumpEntry, if_neg hf] at h
      rw [step, receiveDeferred, if_neg hf]
      dsimp only
      split
      · exact ((mute_clock t _).trans (mute_ingest _ _ _)).pushed
      · rename_i ho
        rw [if_neg ho] at h
        cases h
  | finishInputBatch =>
    refine stay _ ?_
    rw [step, finishInputBatch, if_pos (by_contra fun hf => by simp [pumpEntry, hf] at h)]
  | tick nowMs =>
    refine stay _ ?_
    rw [step, tick, if_pos (by_contra fun hf => by simp [pumpEntry, hf] at h)]
  | send data =>
    obtain ⟨ds, hd, hf⟩ := pushed_send t data
    exact ⟨ds, [], by simpa [step] using hd, .inl rfl, fun h => ⟨hf h, rfl⟩⟩
  | close =>
    by_cases hf : t.finished = true
    · refine stay _ ?_
      rw [step, close, if_pos hf]
    · refine ⟨[], [.closed .local], ?_, .inr ⟨rfl, rfl⟩, fun h => absurd h hf⟩
      rw [step, close, if_neg hf, pushed_finish, if_neg hf]
      rfl
  | pollEvent => exact stay _ rfl
  | nextDeadline =>
    refine stay _ ?_
    rw [step, nextDeadline]
    split <;> rfl
  | applyRemoteAnswerSdp sdp =>
    refine stay _ ?_
    rw [step, applyRemoteAnswerSdp]
    split <;> rfl
  | setRemote remote => exact stay _ rfl
  | setRemoteIceCredentials ufrag pwd => exact stay _ rfl
  | setSendBufferCap cap => exact stay _ rfl

theorem timeoutOut_cases (s : DirectTunnel L) (epoch : Instant) (op : Op) :
    timeoutOut s epoch op = [] ∨ timeoutOut s epoch op = [.closed .timeout] := by
  cases op with
  | tick nowMs => exact (ite_eq_or_eq _ _ _).symm
  | _ => exact .inl rfl

theorem messages_inbox (L : Layers) (id : UInt16) (association : L.sctp.Association) :
    ∃ msgs : List Bytes, inbox L id association = msgs.map .message := by
  unfold inbox
  split
  · exact forEach_messages L id association
  · exact ⟨[], rfl⟩

theorem readOut_messages (t : DirectTunnel L) :
    ∃ msgs : List Bytes, readOut t = msgs.map .message := by
  unfold readOut
  split
  · cases t.association with
    | none => exact ⟨[], rfl⟩
    | some association => exact messages_inbox L t.streamId (polled L association)
  · exact ⟨[], rfl⟩

theorem mem_readOut {t : DirectTunnel L} {e : Event} (he : e ∈ readOut t) :
    ∃ m, e = .message m := by
  obtain ⟨msgs, hm⟩ := readOut_messages t
  rw [hm] at he
  obtain ⟨m, _, rfl⟩ := List.mem_map.mp he
  exact ⟨m, rfl⟩

theorem mem_iceOut {t : DirectTunnel L} {e : Event} (he : e ∈ iceOut t) :
    ∃ d, e = .sendDatagram d := by
  obtain ⟨d, _, rfl⟩ := List.mem_map.mp he
  exact ⟨d, rfl⟩

theorem mem_flushOut {t : DirectTunnel L} {e : Event} (he : e ∈ flushOut t) :
    (∃ d, e = .sendDatagram d) ∨ e = .opened := by
  unfold flushOut at he
  split at he
  · cases he
  · rcases List.mem_append.mp he with h | h
    · split at h
      · obtain ⟨d, _, rfl⟩ := List.mem_map.mp h
        exact .inl ⟨d, rfl⟩
      · cases h
    · split at h
      · exact .inr (List.mem_singleton.mp h)
      · cases h

/-- What was pushed stays pushed. -/
theorem pushed_prefix_step (t : DirectTunnel L) (op : Op) :
    ∃ es, pushed (t.step op) = pushed t ++ es := by
  cases he : t.pumpEntry op with
  | none =>
    obtain ⟨ds, closed, hp, _⟩ := pushed_step_none he
    exact ⟨_, hp⟩
  | some s =>
    obtain ⟨hq, hf⟩ := mute_pumpEntry he
    rw [pushed_step_pump he, pushed_pump s (hq.steady.finished.trans hf), hq.pushed,
      List.append_assoc]
    exact ⟨_, rfl⟩

theorem mem_pushed {t : DirectTunnel L} {e : Event} : e ∈ pushed t ↔ .pushed e ∈ t.log := by
  constructor
  · intro h
    obtain ⟨entry, hm, he⟩ := List.mem_filterMap.mp h
    cases entry with
    | pushed event =>
      cases he
      exact hm
    | _ => cases he
  · exact fun h => List.mem_filterMap.mpr ⟨.pushed e, h, rfl⟩

end DirectTunnel

end RtcTunnel.Direct
