import RtcTunnel.Direct.Batch

/-!
# What a Readable event delivers

`read_stream` is a reading of the messages that wait on the stream: it takes them in
turn, skips those with a foreign PPID, and stops behind the first that is too long.
What stands behind that message stays, and no further event announces it.
-/

namespace RtcTunnel.Direct

open RtcTunnel.Core
open RtcTunnel.Base (Mailbox Outcome)
open RtcTunnel.Base.Run

set_option autoImplicit false

/-- **What is assumed of `rtc-sctp`**: `read_sctp` takes the complete messages of a stream
in turn, nothing else takes them, and `to_payload` fails exactly on a message that exceeds
its bound. -/
structure Inbox (S : SctpApi) where
  waiting : UInt16 → S.Association → List S.Chunks
  payload : S.Chunks → Bytes
  read : ∀ id, (S.readSctp id).Queues (S.hasStream · id = true) (waiting id)
  noStream : ∀ id a, S.hasStream a id = false → waiting id a = []
  fits : ∀ c bound, (payload c).length ≤ bound → S.toPayload c bound = .ok (payload c)
  exceeds : ∀ c bound, bound < (payload c).length → ∃ e, S.toPayload c bound = .error e
  events : ∀ id a, waiting id (S.events.poll a).2 = waiting id a
  endpointEvents : ∀ id a, waiting id (S.endpointEvents.poll a).2 = waiting id a
  transmits : ∀ id now a, waiting id ((S.transmits now).poll a).2 = waiting id a
  openStream : ∀ id a stream ppi, waiting id (S.openStream a stream ppi).1 = waiting id a
  setReliability : ∀ id a stream unordered type value,
    waiting id (S.setReliabilityParams a stream unordered type value).1 = waiting id a

namespace Inbox

variable {S : SctpApi} (I : Inbox S)

/-- What the application is to see of a message. -/
def message (c : S.Chunks) : Option Bytes :=
  match S.ppi c with
  | .binaryEmpty | .stringEmpty => some []
  | .binary | .string =>
    if (I.payload c).length ≤ maxMessageSize then some (I.payload c) else none
  | .other => none

def TooLong (c : S.Chunks) : Prop :=
  (S.ppi c = .binary ∨ S.ppi c = .string) ∧ maxMessageSize < (I.payload c).length

instance (c : S.Chunks) : Decidable (I.TooLong c) := instDecidableAnd

end Inbox

namespace DirectTunnel

variable {L : Layers} (I : Inbox L.sctp)

/-- The messages waiting on the stream of the channel. -/
def inStream (t : DirectTunnel L) : List L.sctp.Chunks :=
  (t.association.map (I.waiting t.streamId)).getD []

/-- The messages among the events of a tunnel. -/
def messages (es : List Event) : List Bytes :=
  es.filterMap fun
    | .message data => some data
    | _ => none

/-- A pump of this tunnel drains a Readable event for the stream of the channel. -/
def DrainsReadable (t : DirectTunnel L) : Prop :=
  t.started = true ∧ .readable t.streamId ∈ t.sctpEvents

/-- Behind the operation the stream is empty, and each message that the application is to
see was pushed, in order. -/
def DeliversAll (t s : DirectTunnel L) (op : Op) : Prop :=
  (t.step op).inStream I = [] ∧
    messages (pushed (t.step op)) = messages (pushed t) ++ (s.inStream I).filterMap I.message

theorem decodeChunk_none (c : L.sctp.Chunks) : decodeChunk L c = none ↔ I.TooLong c := by
  unfold decodeChunk readChunk Inbox.TooLong
  rcases Nat.lt_or_ge maxMessageSize (I.payload c).length with hlen | hlen
  · obtain ⟨e, he⟩ := I.exceeds c maxMessageSize hlen
    cases hp : L.sctp.ppi c <;> simp [he, hlen]
  · have hf := I.fits c maxMessageSize hlen
    cases hp : L.sctp.ppi c <;> simp [hf, Nat.not_lt.mpr hlen]

theorem decodeChunk_getD (c : L.sctp.Chunks) :
    (decodeChunk L c).getD [] = (I.message c).toList.map .message := by
  unfold decodeChunk readChunk Inbox.message
  rcases Nat.lt_or_ge maxMessageSize (I.payload c).length with hlen | hlen
  · obtain ⟨e, he⟩ := I.exceeds c maxMessageSize hlen
    cases hp : L.sctp.ppi c <;> simp [he, Nat.not_le.mpr hlen]
  · have hf := I.fits c maxMessageSize hlen
    cases hp : L.sctp.ppi c <;> simp [hf, hlen]

/-- A reading delivers all exactly when nothing stands behind a message that is too long. -/
theorem read_delivers (cs : List L.sctp.Chunks) :
    (Mailbox.read (decodeChunk L) cs).2 = [] ∧
        (Mailbox.read (decodeChunk L) cs).1 = (cs.filterMap I.message).map .message ↔
      Terminal I.TooLong cs := by
  have ht : Terminal (fun c => decodeChunk L c = none) cs ↔ Terminal I.TooLong cs := by
    simp only [decodeChunk_none I]
  rw [← ht, ← Mailbox.read_empties]
  refine ⟨And.left, fun h => ⟨h, ?_⟩⟩
  rw [Mailbox.read_all _ h]
  clear h ht
  induction cs with
  | nil => rfl
  | cons c cs ih =>
    rw [List.flatMap_cons, decodeChunk_getD I, ih, List.filterMap_cons]
    cases I.message c <;> rfl

theorem inStream_of_association {t r : DirectTunnel L} (ha : r.association = t.association)
    (hs : r.streamId = t.streamId) : r.inStream I = t.inStream I := by
  rw [inStream, inStream, ha, hs]

theorem inStream_finish (t : DirectTunnel L) (reason : CloseReason) :
    (t.finish reason).inStream I = t.inStream I := by
  unfold finish
  split <;> exact inStream_of_association I rfl rfl

theorem inStream_pumpIce (t : DirectTunnel L) : t.pumpIce.inStream I = t.inStream I :=
  inStream_of_association I (association_pumpIce t) (steady_pumpIce t).streamId

theorem waiting_polled (id : UInt16) (association : L.sctp.Association) :
    I.waiting id (polled L association) = I.waiting id association := by
  have he : ∀ a, I.waiting id (L.sctp.endpointEvents.drain a).2 = I.waiting id a := fun a =>
    L.sctp.endpointEvents.drain_induction (P := fun b => I.waiting id b = I.waiting id a)
      (fun b h => (I.endpointEvents id b).trans h) rfl
  have hn : I.waiting id (L.sctp.events.drain association).2 = I.waiting id association :=
    L.sctp.events.drain_induction (P := fun b => I.waiting id b = I.waiting id association)
      (fun b h => (I.events id b).trans h) rfl
  exact (he _).trans hn

theorem inStream_observe (t : DirectTunnel L) :
    (t.pollAssociation.2.observeSctpEvents t.sctpEvents).inStream I = t.inStream I := by
  rw [inStream, association_observeSctpEvents, streamId_observeSctpEvents,
    (mute_pollAssociation t).steady.streamId, pollAssociation_association, inStream]
  cases t.association with
  | none => rfl
  | some association => exact waiting_polled I t.streamId association

theorem inStream_readStream (t : DirectTunnel L) :
    t.readStream.1.inStream I = (Mailbox.read (decodeChunk L) (t.inStream I)).2 := by
  unfold readStream
  split
  · rename_i ha
    rw [inStream, ha]
    rfl
  · rename_i association ha
    rw [inStream, inStream, ha]
    cases hs : L.sctp.hasStream association t.streamId with
    | true => exact (forEach_reader (I.read t.streamId) association hs).2
    | false =>
      rw [if_neg Bool.false_ne_true, ha]
      show I.waiting t.streamId association = _
      rw [I.noStream _ _ hs, Option.map_some, Option.getD_some, I.noStream _ _ hs]
      rfl

theorem inStream_drainSctp {t : DirectTunnel L} (hr : .readable t.streamId ∈ t.sctpEvents) :
    t.drainSctp.1.inStream I = (Mailbox.read (decodeChunk L) (t.inStream I)).2 := by
  have hid := (streamId_observeSctpEvents t.pollAssociation.2 t.sctpEvents).trans
    (mute_pollAssociation t).steady.streamId
  unfold drainSctp
  dsimp only
  rw [pollAssociation_events, hid, if_pos hr, inStream_readStream, inStream_observe]

theorem inStream_drainChannel (t : DirectTunnel L) :
    t.drainChannel.1.inStream I = t.inStream I := by
  unfold drainChannel openStream
  split
  · dsimp only
    split
    · exact inStream_of_association I rfl rfl
    · rename_i association ha
      have ho := I.openStream t.streamId association t.streamId .binary
      rw [inStream, inStream, ha]
      split
      · exact ho
      · exact (I.setReliability ..).trans ho
  · rfl

theorem inStream_drainSctpTransmits (t : DirectTunnel L) :
    t.drainSctpTransmits.1.inStream I = t.inStream I := by
  unfold drainSctpTransmits
  split
  · rfl
  · rename_i association ha
    rw [inStream, inStream, ha]
    exact Base.Poll.TrySource.forEach_induction _ _
      (P := fun a _ => I.waiting t.streamId a = I.waiting t.streamId association)
      (fun a _ h => (I.transmits t.streamId t.lastNow a).trans h) (fun _ _ _ h => h) rfl

theorem inStream_maybeOpen (t : DirectTunnel L) : t.maybeOpen.inStream I = t.inStream I := by
  unfold maybeOpen
  split
  · rfl
  · split <;> exact inStream_of_association I rfl rfl

theorem inStream_pump {t : DirectTunnel L} (hr : t.DrainsReadable) :
    t.pump.1.inStream I = (Mailbox.read (decodeChunk L) (t.inStream I)).2 := by
  obtain ⟨hs, hr⟩ := hr
  have hr : .readable t.pumpIce.streamId ∈ t.pumpIce.sctpEvents := by
    rwa [sctpEvents_pumpIce, (steady_pumpIce t).streamId]
  have hs : t.pumpIce.dtlsStarted = true := hs
  unfold pump
  dsimp only
  rw [Outcome.andThen_unchanged (inStream I) (inStream_maybeOpen I), if_pos hs, pumpStarted,
    Outcome.andThen_unchanged (inStream I) fun s => inStream_of_association I rfl rfl,
    Outcome.andThen_unchanged (inStream I) (inStream_drainSctpTransmits I),
    Outcome.andThen_unchanged (inStream I) (inStream_drainChannel I),
    inStream_drainSctp I hr, inStream_pumpIce]

theorem inStream_afterPump (s : DirectTunnel L) (epoch : Instant) (op : Op) :
    (s.afterPump epoch op).inStream I = s.pump.1.inStream I := by
  unfold afterPump
  split
  · split
    · exact inStream_finish I _ _
    · rfl
  · rfl

theorem messages_append (es fs : List Event) : messages (es ++ fs) = messages es ++ messages fs :=
  List.filterMap_append

theorem messages_nil {es : List Event} (h : ∀ e ∈ es, ∀ data, e ≠ .message data) :
    messages es = [] := by
  refine List.filterMap_eq_nil_iff.mpr fun e he => ?_
  cases e with
  | message data => exact absurd rfl (h _ he data)
  | _ => rfl

theorem messages_map (msgs : List Bytes) : messages (msgs.map .message) = msgs := by
  induction msgs with
  | nil => rfl
  | cons m msgs ih => exact congrArg (m :: ·) ih

theorem readOut_read {t : DirectTunnel L} (hr : t.DrainsReadable) :
    readOut t = (Mailbox.read (decodeChunk L) (t.inStream I)).1 := by
  rw [readOut, hr.1, decide_eq_true hr.2, Bool.and_self, if_pos rfl, inStream]
  cases t.association with
  | none => rfl
  | some association =>
    rw [Option.map_some, Option.map_some, Option.getD_some, Option.getD_some,
      ← waiting_polled I t.streamId association]
    generalize polled L association = a
    unfold inbox
    cases hs : L.sctp.hasStream a t.streamId with
    | true => exact (forEach_reader (I.read t.streamId) a hs).1
    | false =>
      rw [I.noStream _ _ hs]
      rfl

/-- Of what the operation pushes, only what the pump reads is a message. -/
theorem messages_step {t s : DirectTunnel L} {op : Op} (h : t.pumpEntry op = some s) :
    messages (pushed (t.step op)) = messages (pushed t) ++ messages (readOut s) := by
  obtain ⟨hq, hf⟩ := mute_pumpEntry h
  have hice : messages (iceOut s) = [] := messages_nil fun e he data hn => by
    obtain ⟨d, hd⟩ := mem_iceOut he
    cases hd.symm.trans hn
  have hlost : messages (if s.loses then [Event.closed .remote] else []) = [] := by
    split <;> rfl
  have hflush : messages (flushOut s) = [] := messages_nil fun e he data hn => by
    rcases mem_flushOut he with ⟨d, hd⟩ | hd <;> cases hd.symm.trans hn
  have htime : messages (timeoutOut s t.epoch op) = [] := by
    rcases timeoutOut_cases s t.epoch op with ht | ht <;> rw [ht] <;> rfl
  rw [pushed_step_pump h, pushed_pump s (hq.steady.finished.trans hf), hq.pushed]
  simp only [messages_append, hice, hlost, hflush, htime, List.nil_append, List.append_nil]

/-- **The pump that drains a Readable event delivers all that waits on the stream exactly
when nothing stands behind a message that is too long.** -/
theorem delivers_all_iff {t s : DirectTunnel L} {op : Op} (h : t.pumpEntry op = some s)
    (hr : s.DrainsReadable) :
    t.DeliversAll I s op ↔ Terminal I.TooLong (s.inStream I) := by
  have hread := readOut_read I hr
  obtain ⟨msgs, hm⟩ := readOut_messages s
  rw [DeliversAll, step_pump h, inStream_afterPump, inStream_pump I hr, ← step_pump h,
    messages_step h, List.append_cancel_left_eq, ← read_delivers, ← hread, hm, messages_map]
  refine and_congr_right fun _ => ?_
  constructor
  · exact congrArg _
  · intro he
    rw [← messages_map msgs, he, messages_map]

end DirectTunnel

namespace Script

theorem waiting_openStream (id : UInt16) (a : Association) (stream : UInt16) :
    waiting id (a.openStream stream).1 = waiting id a := by
  unfold Association.openStream
  by_cases hm : stream ∈ a.streams
  · rw [if_pos hm]
  · rw [if_neg hm]
    unfold waiting
    by_cases hs : stream = 0
    · subst hs
      rw [if_neg (fun h => hm h.2 : ¬ (id = 0 ∧ 0 ∈ a.streams))]
      exact ite_self _
    · have hz : 0 ∈ a.streams ++ [stream] ↔ 0 ∈ a.streams := by
        simp [Ne.symm hs]
      simp only [hz, if_neg hs]

/-- The scripted association keeps its messages in `inbox`. -/
def waitingMessages : Inbox layers.sctp where
  waiting := waiting
  payload := payload
  read := readSctp_queues
  noStream := accumulates.noStream
  fits c _ h := if_pos (length_payload c ▸ h)
  exceeds c _ h := ⟨_, if_neg (length_payload c ▸ Nat.not_le.mpr h)⟩
  events := accumulates.eventsWaiting
  endpointEvents _ _ := rfl
  transmits id now a := (accumulates.transmits now a).waiting id
  openStream id a stream _ := waiting_openStream id a stream
  setReliability _ _ _ _ _ _ := rfl

theorem message_short (c : Ppi × Option Bytes) (hc : size c ≤ maxMessageSize) :
    ¬ waitingMessages.TooLong c := by
  intro h
  exact Nat.not_lt.mpr hc (length_payload c ▸ h.2)

end Script

namespace DirectTunnel

open Script (waitingMessages)

def waitingIn (t : DirectTunnel Script.layers) : List (Ppi × Option Bytes) :=
  t.inStream waitingMessages

/-- A pump that finds a Readable event and these messages. -/
def findsMessages (entry : Option (DirectTunnel Script.layers))
    (found : List (Ppi × Option Bytes)) : Bool :=
  entry.any fun s =>
    s.started && decide (.readable s.streamId ∈ s.sctpEvents) && decide (waitingIn s = found)

theorem findsMessages_some {entry : Option (DirectTunnel Script.layers)}
    {found : List (Ppi × Option Bytes)} (h : findsMessages entry found = true) :
    ∃ s, entry = some s ∧ s.DrainsReadable ∧ waitingIn s = found := by
  obtain ⟨s, hs, hf⟩ := (Option.any_eq_true ..).mp h
  simp only [Bool.and_eq_true, decide_eq_true_eq] at hf
  exact ⟨s, hs, hf.1, hf.2⟩

/-- The datagram brings a message of one byte, and behind it one that is too long. -/
theorem delivers_all_last : ∃ s, (run step Script.dialer openChannel).pumpEntry
    (.receive 4 [23, 3, 7, 5]) = some s ∧
      (run step Script.dialer openChannel).DeliversAll waitingMessages s (.receive 4 [23, 3, 7, 5]) := by
  have h : findsMessages ((run step Script.dialer openChannel).pumpEntry
      (.receive 4 [23, 3, 7, 5])) [(.binary, some [7]), (.binary, none)] = true := by
    decide +kernel
  obtain ⟨s, hs, hr, hw⟩ := findsMessages_some h
  refine ⟨s, hs, (delivers_all_iff waitingMessages hs hr).mpr ?_⟩
  show Terminal _ (waitingIn s)
  rw [hw]
  refine terminal_append_singleton (l := [_]) (List.forall_mem_singleton.mpr ?_)
  exact Script.message_short _ (by decide)

/-- A message that is too long strands the one behind it. -/
theorem message_stranded :
    ∃ t s, construct Script.layers Script.host Script.config Script.localAddr 0 .new = .ok t ∧
      (run step t openChannel).pumpEntry (.receive 4 [23, 5, 3, 7]) = some s ∧
      s.DrainsReadable ∧ ¬ (run step t openChannel).DeliversAll waitingMessages s
        (.receive 4 [23, 5, 3, 7]) := by
  have h : findsMessages ((run step Script.dialer openChannel).pumpEntry
      (.receive 4 [23, 5, 3, 7])) [(.binary, none), (.binary, some [7])] = true := by
    decide +kernel
  obtain ⟨s, hs, hr, _⟩ := findsMessages_some h
  refine ⟨Script.dialer, s, Script.build_dialer, hs, hr, fun hd => ?_⟩
  have hw : waitingIn ((run step Script.dialer openChannel).step (.receive 4 [23, 5, 3, 7])) =
      [(.binary, some [7])] := by decide +kernel
  exact List.cons_ne_nil _ _ (hw.symm.trans hd.1)

end DirectTunnel

end RtcTunnel.Direct
