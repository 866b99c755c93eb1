import RtcTunnel.Direct.Delivery
import RtcTunnel.Direct.Touches

/-!
# Transparency of a channel

What one tunnel's `send` accepts is what the other tunnel pushes as messages. The
sender writes one chunk for each accepted message; the receiver undoes the encoding
of each chunk its stream hands over, however the chunks are grouped.
-/

namespace RtcTunnel.Direct

open RtcTunnel.Core
open RtcTunnel.Base (Mailbox Outcome)
open RtcTunnel.Base.Run

set_option autoImplicit false

namespace DirectTunnel

section Sender

variable {L : Layers}

/-- The message that an operation has accepted. -/
def acceptedBy (t : DirectTunnel L) : Op → List Bytes
  | .send data => if (t.send data).1 = .accepted then [data] else []
  | _ => []

/-- The messages that `send` accepts in a run. -/
def accepted (t : DirectTunnel L) : List Op → List Bytes
  | [] => []
  | op :: ops => t.acceptedBy op ++ accepted (t.step op) ops

/-- The chunks written to the stream so far. -/
def written (t : DirectTunnel L) : List (Ppi × Bytes) :=
  t.log.filterMap fun
    | .writeChunk payload ppi => some (ppi, payload)
    | _ => none

theorem written_record (t : DirectTunnel L) {e : Entry} (he : ∀ payload ppi, e ≠ .writeChunk payload ppi) :
    written (t.record e) = written t := by
  rw [written, record, List.filterMap_append]
  cases e with
  | writeChunk payload ppi => exact absurd rfl (he payload ppi)
  | _ => exact List.append_nil _

theorem written_pushAll (t : DirectTunnel L) (es : List Event) :
    written (t.pushAll es) = written t := by
  have hes : ∀ es : List Event, (es.map Entry.pushed).filterMap (fun
      | .writeChunk payload ppi => some (ppi, payload)
      | _ => none) = ([] : List (Ppi × Bytes)) := by
    intro es
    refine List.filterMap_eq_nil_iff.mpr fun e he => ?_
    obtain ⟨_, _, rfl⟩ := List.mem_map.mp he
    rfl
  rw [written, pushAll, List.filterMap_append, hes, List.append_nil]
  rfl

theorem written_touch {t r : DirectTunnel L} (h : Touch t r) : written r = written t := by
  cases h with
  | iceWrites => exact written_pushAll _ _
  | dtlsTransmits => exact written_pushAll _ _
  | finish reason hf hr => exact written_pushAll { t with finished := true } [.closed reason]
  | messages msgs ha => exact written_pushAll _ _
  | «open» hc hd ho => exact written_pushAll { t with
      opened := true, trace := t.trace.observeOpen (t.ms t.lastNow) } [.opened]
  | connect => exact written_record _ nofun
  | handshake => exact written_record _ nofun
  | sctpConnect => exact written_record _ nofun
  | sctpRefused => exact written_record _ nofun
  | accept => exact written_record _ nofun
  | connected => exact written_record _ nofun
  | openStream => exact written_record _ nofun
  | setReliability => exact written_record _ nofun
  | _ => rfl

theorem written_calls {t r : DirectTunnel L} (h : t.Calls r) : written r = written t :=
  h.touches.keeps (I := fun s => written s = written t)
    (fun _ _ hc hs => (written_touch hc).trans hs) rfl

/-- **Each accepted message is written once**, as the chunk that encodes it. -/
theorem written_step (t : DirectTunnel L) (op : Op) :
    written (t.step op) = written t ++ (t.acceptedBy op).map encodeMessage := by
  have silent : ∀ r : DirectTunnel L, written r = written t → t.acceptedBy op = [] →
      written r = written t ++ (t.acceptedBy op).map encodeMessage := by
    intro r hr ha
    rw [ha, hr]
    exact (List.append_nil _).symm
  cases op with
  | send data =>
    rw [step, acceptedBy]
    obtain ⟨result, hr, hn⟩ | ⟨association, _, ⟨_, hr⟩ | ⟨_, hr⟩⟩ := send_cases t data
    · rw [hr, if_neg hn]
      exact (List.append_nil _).symm
    · rw [hr, if_neg (by simp)]
      exact (List.append_nil _).symm
    · rw [hr, if_pos rfl, written_calls (calls_flushAfterSend _), written, record,
        List.filterMap_append]
      rfl
  | receive nowMs datagram => exact silent _ (written_calls (calls_receive t nowMs datagram)) rfl
  | receiveDeferred nowMs datagram =>
    exact silent _ (written_calls (calls_receiveDeferred t nowMs datagram)) rfl
  | finishInputBatch => exact silent _ (written_calls (calls_finishInputBatch t)) rfl
  | tick nowMs => exact silent _ (written_calls (calls_tick t nowMs)) rfl
  | close => exact silent _ (written_calls (calls_close t)) rfl
  | pollEvent => exact silent _ rfl rfl
  | nextDeadline => exact silent _ (written_calls (Call.nextDeadline t).one) rfl
  | applyRemoteAnswerSdp sdp =>
    refine silent _ ?_ rfl
    rw [step, applyRemoteAnswerSdp]
    split <;> rfl
  | setRemote remote => exact silent _ rfl rfl
  | setRemoteIceCredentials ufrag pwd => exact silent _ rfl rfl
  | setSendBufferCap cap => exact silent _ rfl rfl

theorem written_run (t : DirectTunnel L) (ops : List Op) :
    written (run step t ops) = written t ++ (t.accepted ops).map encodeMessage := by
  induction ops generalizing t with
  | nil => exact (List.append_nil _).symm
  | cons op ops ih =>
    rw [run_cons, ih, written_step, accepted, List.map_append, List.append_assoc]

/-- An accepted message is within the bound. -/
theorem length_accepted {t : DirectTunnel L} {ops : List Op} :
    ∀ data ∈ t.accepted ops, data.length ≤ maxMessageSize := by
  induction ops generalizing t with
  | nil => exact nofun
  | cons op ops ih =>
    intro data hm
    rcases List.mem_append.mp hm with hm | hm
    · cases op with
      | send data' =>
        rw [acceptedBy] at hm
        obtain ⟨result, hr, hn⟩ | ⟨association, hs, _⟩ := send_cases t data'
        · rw [hr, if_neg hn] at hm
          cases hm
        · split at hm
          · rw [List.mem_singleton.mp hm]
            exact hs.size
          · cases hm
      | _ => cases hm
    · exact ih data hm

end Sender

section Receiver

variable {L : Layers} (I : Inbox L.sctp)

/-- A chunk as it is written: its PPID and its bytes. -/
def chunk (c : L.sctp.Chunks) : Ppi × Bytes := (L.sctp.ppi c, I.payload c)

/-- The tunnel behind what an operation takes in: where its pump starts, or where it ends. -/
def intake (t : DirectTunnel L) (op : Op) : DirectTunnel L := (t.pumpEntry op).getD (t.step op)

/-- The pump of an operation drains a Readable event. -/
def Reads (t : DirectTunnel L) (op : Op) : Prop := ∃ s, t.pumpEntry op = some s ∧ s.DrainsReadable

/-- An operation, with the chunks that the stream hands over as it is fed. -/
abbrev Delivery (L : Layers) := Op × List L.sctp.Chunks

def deliver (t : DirectTunnel L) (d : Delivery L) : DirectTunnel L := t.step d.1

/-- The stream hands over these chunks, behind what waits on it already. -/
def HandsOver (t : DirectTunnel L) (d : Delivery L) : Prop :=
  (t.intake d.1).inStream I = t.inStream I ++ d.2

/-- What the tunnel has pushed for the application. -/
def received (t : DirectTunnel L) : List Bytes := messages (pushed t)

/-- The encoding is undone. -/
theorem message_of_chunk {c : L.sctp.Chunks} {data : Bytes} (hc : chunk I c = encodeMessage data)
    (hl : data.length ≤ maxMessageSize) : I.message c = some data ∧ ¬ I.TooLong c := by
  obtain ⟨hppi, hpayload⟩ := Prod.mk.inj hc
  unfold Inbox.message Inbox.TooLong
  cases data with
  | nil =>
    have hp : L.sctp.ppi c = .binaryEmpty := hppi
    rw [hp]
    refine ⟨rfl, fun h => ?_⟩
    rcases h.1 with h | h <;> cases h
  | cons b data =>
    have hp : L.sctp.ppi c = .binary := hppi
    have hb : I.payload c = b :: data := hpayload
    rw [hp, hb]
    exact ⟨if_pos hl, fun h => Nat.not_lt.mpr hl h.2⟩

theorem message_chunks {cs : List L.sctp.Chunks} {sent : List Bytes}
    (hc : cs.map (chunk I) = sent.map encodeMessage)
    (hl : ∀ data ∈ sent, data.length ≤ maxMessageSize) :
    cs.filterMap I.message = sent ∧ ∀ c ∈ cs, ¬ I.TooLong c := by
  induction cs generalizing sent with
  | nil =>
    have hs : sent = [] := List.map_eq_nil_iff.mp hc.symm
    rw [hs]
    exact ⟨rfl, nofun⟩
  | cons c cs ih =>
    cases sent with
    | nil => cases hc
    | cons data sent =>
      rw [List.map_cons, List.map_cons] at hc
      obtain ⟨hhead, htail⟩ := List.cons.inj hc
      obtain ⟨hdata, hsent⟩ := List.forall_mem_cons.mp hl
      obtain ⟨hm, hshort⟩ := message_of_chunk I hhead hdata
      obtain ⟨hms, hshorts⟩ := ih htail hsent
      rw [List.filterMap_cons, hm, hms]
      exact ⟨rfl, List.forall_mem_cons.mpr ⟨hshort, hshorts⟩⟩

theorem inStream_drainSctp_none {t : DirectTunnel L} (hr : .readable t.streamId ∉ t.sctpEvents) :
    t.drainSctp.1.inStream I = t.inStream I := by
  have hid := (streamId_observeSctpEvents t.pollAssociation.2 t.sctpEvents).trans
    (mute_pollAssociation t).steady.streamId
  unfold drainSctp
  dsimp only
  rw [pollAssociation_events, hid, if_neg hr, inStream_observe]

/-- A pump without a Readable event leaves the stream alone. -/
theorem inStream_pump_none {t : DirectTunnel L} (hr : ¬ t.DrainsReadable) :
    t.pump.1.inStream I = t.inStream I := by
  unfold pump
  dsimp only
  rw [Outcome.andThen_unchanged (inStream I) (inStream_maybeOpen I)]
  split
  · rename_i hs
    have hr : .readable t.pumpIce.streamId ∉ t.pumpIce.sctpEvents := by
      rw [sctpEvents_pumpIce, (steady_pumpIce t).streamId]
      exact fun hm => hr ⟨hs, hm⟩
    rw [pumpStarted, Outcome.andThen_unchanged (inStream I) fun s => inStream_of_association I rfl rfl,
      Outcome.andThen_unchanged (inStream I) (inStream_drainSctpTransmits I),
      Outcome.andThen_unchanged (inStream I) (inStream_drainChannel I),
      inStream_drainSctp_none I hr, inStream_pumpIce]
  · exact inStream_pumpIce I t

theorem readOut_none {t : DirectTunnel L} (hr : ¬ t.DrainsReadable) : readOut t = [] := by
  rw [readOut, if_neg]
  rw [Bool.and_eq_true, decide_eq_true_eq]
  exact hr

/-- What is pushed and what still waits, taken together, are what has been handed over. -/
theorem received_deliver {t : DirectTunnel L} {d : Delivery L} (hd : t.HandsOver I d)
    (hshort : ∀ c ∈ t.inStream I ++ d.2, ¬ I.TooLong c) :
    (t.deliver d).received ++ ((t.deliver d).inStream I).filterMap I.message =
        t.received ++ (t.inStream I ++ d.2).filterMap I.message ∧
      ((t.deliver d).inStream I = t.inStream I ++ d.2 ∧ ¬ t.Reads d.1 ∨
        (t.deliver d).inStream I = [] ∧ t.Reads d.1) := by
  obtain ⟨op, group⟩ := d
  show (t.step op).received ++ ((t.step op).inStream I).filterMap I.message = _ ∧ _
  have hd : ((t.pumpEntry op).getD (t.step op)).inStream I = t.inStream I ++ group := hd
  cases hp : t.pumpEntry op with
  | none =>
    rw [hp, Option.getD_none] at hd
    obtain ⟨ds, closed, hpushed, hclosed, _⟩ := pushed_step_none hp
    have hds : messages (ds.map .sendDatagram) = [] := messages_nil fun e he data hn => by
      obtain ⟨_, _, rfl⟩ := List.mem_map.mp he
      cases hn
    have hcl : messages closed = [] := by
      rcases hclosed with rfl | ⟨_, rfl⟩ <;> rfl
    refine ⟨?_, .inl ⟨hd, ?_⟩⟩
    · rw [received, hpushed, messages_append, messages_append, hds, hcl, hd]
      simp [received]
    · rintro ⟨s, hs, _⟩
      cases hp.symm.trans hs
  | some s =>
    rw [hp, Option.getD_some] at hd
    rw [received, messages_step hp, show (t.step op).inStream I = s.pump.1.inStream I by
      rw [step_pump hp, inStream_afterPump]]
    by_cases hr : s.DrainsReadable
    · have hterm : Terminal I.TooLong (s.inStream I) := terminal_of_forall (hd ▸ hshort)
      obtain ⟨hempty, hread⟩ := (read_delivers I (s.inStream I)).mpr hterm
      have hin := (inStream_pump I hr).trans hempty
      rw [readOut_read I hr, hread, messages_map, hin, hd]
      refine ⟨by simp [received], .inr ⟨?_, s, hp, hr⟩⟩
      show (t.step op).inStream I = []
      rw [step_pump hp, inStream_afterPump, hin]
    · have hin := inStream_pump_none I hr
      rw [readOut_none hr, hin, hd]
      refine ⟨by simp [received, messages], .inl ⟨?_, ?_⟩⟩
      · show (t.step op).inStream I = _
        rw [step_pump hp, inStream_afterPump, hin, hd]
      · rintro ⟨s', hs', hr'⟩
        cases hp.symm.trans hs'
        exact hr hr'

/-- Every delivery of a run, in order: nothing is lost, repeated or reordered. -/
theorem received_run {t : DirectTunnel L} {ds : List (Delivery L)}
    (hd : Meets deliver (HandsOver I) t ds)
    (hshort : ∀ c ∈ t.inStream I ++ ds.flatMap Prod.snd, ¬ I.TooLong c) :
    (run deliver t ds).received ++ ((run deliver t ds).inStream I).filterMap I.message =
      t.received ++ (t.inStream I ++ ds.flatMap Prod.snd).filterMap I.message := by
  induction ds generalizing t with
  | nil => rw [List.flatMap_nil, List.append_nil, run_nil]
  | cons d ds ih =>
    obtain ⟨hhead, htail⟩ := hd
    rw [List.flatMap_cons, ← List.append_assoc] at hshort ⊢
    obtain ⟨hone, hin⟩ := received_deliver I hhead fun c hc =>
      hshort c (List.mem_append_left _ hc)
    have hsub : ∀ c ∈ (t.deliver d).inStream I ++ ds.flatMap Prod.snd, ¬ I.TooLong c := by
      intro c hc
      rcases hin with ⟨hin, _⟩ | ⟨hin, _⟩
      · exact hshort c (hin ▸ hc)
      · rw [hin, List.nil_append] at hc
        exact hshort c (List.mem_append_right _ hc)
    rw [run_cons, ih htail hsub, List.filterMap_append, List.filterMap_append, ← List.append_assoc,
      hone, List.append_assoc]

/-- Once the last chunks were announced, none of them waits any more. -/
theorem inStream_announced {t : DirectTunnel L} {before after : List (Delivery L)} {d : Delivery L}
    (hd : Meets deliver (HandsOver I) t (before ++ d :: after))
    (hshort : ∀ c ∈ t.inStream I ++ (before ++ d :: after).flatMap Prod.snd, ¬ I.TooLong c)
    (hr : (run deliver t before).Reads d.1) (hafter : ∀ x ∈ after, x.2 = []) :
    (run deliver t (before ++ d :: after)).inStream I = [] := by
  have hquiet : ∀ (after : List (Delivery L)) (s : DirectTunnel L), Meets deliver (HandsOver I) s after →
      (∀ x ∈ after, x.2 = []) → s.inStream I = [] → (run deliver s after).inStream I = [] := by
    intro after
    induction after with
    | nil => exact fun _ _ _ hs => hs
    | cons x after ih =>
      intro s hm hx hs
      obtain ⟨hempty, hrest⟩ := List.forall_mem_cons.mp hx
      have hnone : s.inStream I ++ x.2 = [] := by rw [hs, hempty, List.append_nil]
      obtain ⟨_, ⟨hin, _⟩ | ⟨hin, _⟩⟩ := received_deliver I hm.1 (by rw [hnone]; exact nofun)
      · exact ih _ hm.2 hrest (hin.trans hnone)
      · exact ih _ hm.2 hrest hin
  induction before generalizing t with
  | nil =>
    rw [List.nil_append, List.flatMap_cons, ← List.append_assoc] at hshort
    obtain ⟨_, ⟨_, hn⟩ | ⟨hin, _⟩⟩ := received_deliver I hd.1 fun c hc =>
      hshort c (List.mem_append_left _ hc)
    · exact absurd hr hn
    · exact hquiet after _ hd.2 hafter hin
  | cons x before ih =>
    rw [List.cons_append, List.flatMap_cons, ← List.append_assoc] at hshort
    obtain ⟨_, hin⟩ := received_deliver I hd.1 fun c hc => hshort c (List.mem_append_left _ hc)
    refine ih hd.2 (fun c hc => ?_) hr
    rcases hin with ⟨hin, _⟩ | ⟨hin, _⟩
    · exact hshort c (hin ▸ hc)
    · rw [hin, List.nil_append] at hc
      exact hshort c (List.mem_append_right _ hc)

end Receiver

/-- **A channel is transparent.** Where the stream of one tunnel hands over the chunks that
another one wrote in a run, once each and in order, what is received and what still waits
are the messages accepted in that run; and once the last chunk was announced by a Readable
event, all of them are received. -/
theorem transparent {L R : Layers} (I : Inbox R.sctp) (sender : DirectTunnel L) (ops : List Op)
    {receiver : DirectTunnel R} (hempty : receiver.inStream I = []) {ds : List (Delivery R)}
    (hd : Meets deliver (HandsOver I) receiver ds)
    (hchunks : written (run step sender ops) =
      written sender ++ (ds.flatMap Prod.snd).map (chunk I)) :
    (run deliver receiver ds).received ++ ((run deliver receiver ds).inStream I).filterMap I.message =
        receiver.received ++ sender.accepted ops ∧
      ∀ before d after, ds = before ++ d :: after → (run deliver receiver before).Reads d.1 →
        (∀ x ∈ after, x.2 = []) →
        (run deliver receiver ds).received = receiver.received ++ sender.accepted ops := by
  rw [written_run, List.append_cancel_left_eq] at hchunks
  obtain ⟨hmessages, hshort⟩ := message_chunks I hchunks.symm length_accepted
  have hshort : ∀ c ∈ receiver.inStream I ++ ds.flatMap Prod.snd, ¬ I.TooLong c := by
    rw [hempty]
    exact hshort
  have hall := received_run I hd hshort
  rw [hempty, List.nil_append, hmessages] at hall
  refine ⟨hall, ?_⟩
  rintro before d after rfl hr hafter
  rw [inStream_announced I hd hshort hr hafter] at hall
  simpa using hall

open Script (waitingMessages)

/-- A zero byte and a seven, read together. -/
def zeroAndSeven : Delivery Script.layers :=
  (.receive 4 [23, 3, 0, 3, 7], [(.binary, some [0]), (.binary, some [7])])

theorem transparent_together :
    (run deliver (run step Script.dialer openChannel) [zeroAndSeven]).received = [[0], [7]] := by
  have hempty : waitingIn (run step Script.dialer openChannel) = [] := by decide +kernel
  have hover : waitingIn ((run step Script.dialer openChannel).intake (.receive 4 [23, 3, 0, 3, 7])) =
      waitingIn (run step Script.dialer openChannel) ++
        [(.binary, some [0]), (.binary, some [7])] := by decide +kernel
  have hd : Meets deliver (HandsOver waitingMessages) (run step Script.dialer openChannel)
      [zeroAndSeven] := ⟨hover, trivial⟩
  have hr : Reads (run deliver (run step Script.dialer openChannel) []) zeroAndSeven.1 := by
    rw [run_nil]
    have h : findsMessages ((run step Script.dialer openChannel).pumpEntry
        (.receive 4 [23, 3, 0, 3, 7])) [(.binary, some [0]), (.binary, some [7])] = true := by
      decide +kernel
    obtain ⟨s, hs, hr, _⟩ := findsMessages_some h
    exact ⟨s, hs, hr⟩
  have hnone : (run step Script.dialer openChannel).received = [] := by decide +kernel
  have htwo : (run step Script.dialer openChannel).accepted [.send [0], .send [7]] = [[0], [7]] := by
    decide +kernel
  have hc : written (run step (run step Script.dialer openChannel) [.send [0], .send [7]]) =
      written (run step Script.dialer openChannel) ++
        ([zeroAndSeven].flatMap Prod.snd).map (chunk waitingMessages) := by decide +kernel
  have ht := transparent waitingMessages (run step Script.dialer openChannel) _ hempty hd hc
  rw [ht.2 [] zeroAndSeven [] rfl hr nofun, hnone, htwo, List.nil_append]

end DirectTunnel

end RtcTunnel.Direct
