import RtcTunnel.Direct.Answers
import RtcTunnel.Direct.Batch

/-!
# What a pump leaves in the layers

A pump takes its input first: it reads the stream and opens the channel. Behind that it
empties the association into DTLS and DTLS into the event queue. A failure on the input
side ends the pump there, and what the association and DTLS hold stays where it is.
-/

namespace RtcTunnel.Direct

open RtcTunnel.Core
open RtcTunnel.Base (Outcome)
open RtcTunnel.Base.Poll (Source TrySource)
open RtcTunnel.Base.Run

set_option autoImplicit false

/-- **What is assumed of the layers**: a poll that was answered with `None` is answered so
again, and `dtls.write` does not fail. -/
structure Flushable (L : Layers) : Prop where
  iceWrites : L.ice.writes.Fused
  dtlsTransmits : L.dtls.transmits.Fused
  transmits : ∀ now, (L.sctp.transmits now).Fused
  write : ∀ d now remote raw, (L.dtls.write d now remote raw).2.isOk = true

namespace DirectTunnel

variable {L : Layers}

def packets (t : DirectTunnel L) : List Bytes := packetsOf L t.lastNow t.association

/-- `dtls.write` of one packet after the other. -/
def writeAll (t : DirectTunnel L) (raws : List Bytes) : L.dtls.Endpoint :=
  raws.foldl (fun d raw => (L.dtls.write d t.lastNow t.remoteAddr raw).1) t.dtls

/-- No layer has anything left to send. -/
structure Exhausted (t : DirectTunnel L) : Prop where
  ice : (L.ice.writes.poll t.ice).1 = none
  association : ∀ a, t.association = some a → ((L.sctp.transmits t.lastNow).poll a).1 = none
  dtls : (L.dtls.transmits.poll t.dtls).1 = none

/-- Reading or opening the stream fails, and the association that is left or DTLS has something to
send. -/
def HoldsBack (t : DirectTunnel L) : Prop :=
  ∃ left, t.Input false left ∧
    ((∃ a, left = some a ∧ ((L.sctp.transmits t.lastNow).poll a).1 ≠ none) ∨
      (L.dtls.transmits.poll t.dtls).1 ≠ none)

def datagrams (es : List Event) : List Bytes :=
  es.filterMap fun
    | .sendDatagram data => some data
    | _ => none

/-- What ICE produced. -/
def iceProduced (t : DirectTunnel L) : List Bytes := (L.ice.writes.drain t.drainIceEvents.ice).1

/-- What DTLS produced, once every packet of the association was written. -/
def dtlsProduced (t : DirectTunnel L) : List Bytes :=
  (L.dtls.transmits.drain (t.inbound.1.writeAll t.inbound.1.packets)).1

/-- Behind the operation no layer has anything left to send, and every datagram the layers
produced was pushed once, in order. -/
structure Flushes (t s : DirectTunnel L) (op : Op) : Prop where
  exhausted : (t.step op).Exhausted
  pushed : datagrams (pushed (t.step op)) =
    datagrams (pushed t) ++ (s.iceProduced ++ s.dtlsProduced)

theorem writeRaws_ok (F : Flushable L) (now : Instant) (remote : SocketAddr) (raws : List Bytes)
    (d : L.dtls.Endpoint) : writeRaws L now remote raws d =
      (raws.foldl (fun d raw => (L.dtls.write d now remote raw).1) d, .ok ()) := by
  induction raws generalizing d with
  | nil => rfl
  | cons raw raws ih =>
    have hw := F.write d now remote raw
    rw [writeRaws, List.foldl_cons, ← ih]
    cases h : (L.dtls.write d now remote raw).2 with
    | error e =>
      rw [h] at hw
      cases hw
    | ok u => rfl

/-- The association's packets go into DTLS, all of them. -/
theorem drainSctpTransmits_eq (F : Flushable L) {t : DirectTunnel L} (hs : t.dtlsStarted = true) :
    t.drainSctpTransmits = ({ t with
      association := t.association.map fun a => ((L.sctp.transmits t.lastNow).drain a).2
      dtls := t.writeAll t.packets }, .ok ()) := by
  unfold drainSctpTransmits packets packetsOf
  cases ha : t.association with
  | none =>
    have hsame : { t with association := none } = t := by rw [← ha]
    show (t, _) = (({ t with association := none } : DirectTunnel L), _)
    rw [hsame]
  | some association =>
    dsimp only
    rw [TrySource.forEach_lift (f := fun d tr => (rawsOf tr).foldl
      (fun d raw => (L.dtls.write d t.lastNow t.remoteAddr raw).1) d)]
    · rw [Option.map_some, Option.map_some, Option.getD_some, writeAll, List.foldl_flatMap]
    · intro tr d
      cases tr with
      | rawEncode raws =>
        dsimp only
        rw [if_pos hs, writeRaws_ok F]
        rfl
      | other => rfl

theorem inbound_dtlsStarted {t : DirectTunnel L} (hs : t.started = true) :
    t.inbound.1.dtlsStarted = true :=
  (congrArg Prod.snd (iceSide_inbound t)).trans hs

/-- A pump whose input side fails ends there. -/
theorem pump_interrupted {t : DirectTunnel L} (hs : t.started = true)
    (hf : t.inbound.2.isOk = false) : t.pump.1 = t.inbound.1 := by
  have hs : t.pumpIce.dtlsStarted = true := hs
  unfold inbound at hf ⊢
  rw [pump, if_pos hs, pumpStarted]
  revert hf
  generalize t.pumpIce.drainSctp.andThen drainChannel = r
  obtain ⟨r, e | u⟩ := r
  · intro _
    rfl
  · intro hf
    cases hf

/-- One whose input side succeeds empties the association and DTLS. -/
theorem pump_uninterrupted (F : Flushable L) {t : DirectTunnel L} (hs : t.started = true)
    (hf : t.inbound.2.isOk = true) : t.pump.1 = ({ t.inbound.1 with
      association := t.inbound.1.association.map fun a =>
        ((L.sctp.transmits t.inbound.1.lastNow).drain a).2
      dtls := t.inbound.1.writeAll t.inbound.1.packets } : DirectTunnel L).drainDtlsTransmits.maybeOpen := by
  have hd := inbound_dtlsStarted hs
  have hs : t.pumpIce.dtlsStarted = true := hs
  unfold inbound at hf hd ⊢
  rw [pump, if_pos hs, pumpStarted]
  revert hf hd
  generalize t.pumpIce.drainSctp.andThen drainChannel = r
  obtain ⟨r, e | u⟩ := r
  · intro hf
    cases hf
  · intro _ hd
    have hd : r.dtlsStarted = true := hd
    rw [Outcome.andThen_ok, drainSctpTransmits_eq F hd]
    rfl

/-- What is held back, where the input side failed. -/
theorem holdsBack_iff {t : DirectTunnel L} (hd : t.dtlsStarted = true) : t.HoldsBack ↔
    t.inbound.2.isOk = false ∧ ((∃ a, t.inbound.1.association = some a ∧
      ((L.sctp.transmits t.inbound.1.lastNow).poll a).1 ≠ none) ∨
        (L.dtls.transmits.poll t.inbound.1.dtls).1 ≠ none) := by
  have hrunning : t.runningDtls = some t.dtls := if_pos hd
  have hs : t.started = true := (started_iff t).mpr (by rw [hrunning]; rfl)
  rw [runningDtls_eq, if_pos hs] at hrunning
  obtain ⟨hdtls, hrest⟩ := Prod.mk.inj (outputSide_inbound t)
  have hnow := (Prod.mk.inj hrest).1.trans (lastNow_pumpIce t)
  rw [hdtls.trans (Option.some.inj hrunning), hnow]
  constructor
  · rintro ⟨left, hleft, hb⟩
    obtain ⟨rfl, hf⟩ := (input_iff t false left).mp hleft
    exact ⟨hf, hb⟩
  · exact fun ⟨hf, hb⟩ => ⟨_, (input_iff t false _).mpr ⟨rfl, hf⟩, hb⟩

theorem ice_pumpIce (t : DirectTunnel L) :
    t.pumpIce.ice = (L.ice.writes.drain t.drainIceEvents.ice).2 := by
  unfold pumpIce
  dsimp only
  split
  · exact ice_startDtls _
  · rfl

/-- The layers that have something to send. -/
def senders (t : DirectTunnel L) :
    L.ice.Agent × Option L.sctp.Association × L.dtls.Endpoint × Instant :=
  (t.ice, t.association, t.dtls, t.lastNow)

theorem Exhausted.senders {t r : DirectTunnel L} (h : t.Exhausted) (hs : r.senders = t.senders) :
    r.Exhausted := by
  obtain ⟨hi, hs⟩ := Prod.mk.inj hs
  obtain ⟨ha, hs⟩ := Prod.mk.inj hs
  obtain ⟨hd, hn⟩ := Prod.mk.inj hs
  constructor
  · exact hi ▸ h.ice
  · rw [ha, hn]
    exact h.association
  · exact hd ▸ h.dtls

theorem senders_afterPump (s : DirectTunnel L) (epoch : Instant) (op : Op) :
    (s.afterPump epoch op).senders = s.pump.1.senders := by
  unfold afterPump
  split
  · split
    · unfold finish
      split <;> rfl
    · rfl
  · rfl

theorem senders_maybeOpen (t : DirectTunnel L) : t.maybeOpen.senders = t.senders := by
  unfold maybeOpen
  split
  · rfl
  · split <;> rfl

theorem ice_inbound (t : DirectTunnel L) :
    t.inbound.1.ice = (L.ice.writes.drain t.drainIceEvents.ice).2 :=
  (congrArg Prod.fst (iceSide_inbound t)).trans (ice_pumpIce t)

theorem datagrams_append (es fs : List Event) :
    datagrams (es ++ fs) = datagrams es ++ datagrams fs := List.filterMap_append

theorem datagrams_map (ds : List Bytes) : datagrams (ds.map .sendDatagram) = ds := by
  induction ds with
  | nil => rfl
  | cons d ds ih => exact congrArg (d :: ·) ih

theorem datagrams_nil {es : List Event} (h : ∀ e ∈ es, ∀ data, e ≠ .sendDatagram data) :
    datagrams es = [] := by
  refine List.filterMap_eq_nil_iff.mpr fun e he => ?_
  cases e with
  | sendDatagram data => exact absurd rfl (h _ he data)
  | _ => rfl

/-- What ICE produced leaves with its own stage, whatever happens behind it. -/
theorem datagrams_step {t s : DirectTunnel L} {op : Op} (h : t.pumpEntry op = some s) :
    datagrams (pushed (t.step op)) =
      datagrams (pushed t) ++ (s.iceProduced ++ datagrams (flushOut s)) := by
  obtain ⟨hq, hf⟩ := mute_pumpEntry h
  have hice : datagrams (iceOut s) = s.iceProduced := datagrams_map _
  have hlost : datagrams (if s.loses then [Event.closed .remote] else []) = [] := by
    split <;> rfl
  have hread : datagrams (readOut s) = [] := datagrams_nil fun e he data hn => by
    obtain ⟨m, hm⟩ := mem_readOut he
    cases hm.symm.trans hn
  have htime : datagrams (timeoutOut s t.epoch op) = [] := by
    rcases timeoutOut_cases s t.epoch op with ht | ht <;> rw [ht] <;> rfl
  rw [pushed_step_pump h, pushed_pump s (hq.steady.finished.trans hf), hq.pushed]
  simp only [datagrams_append, hice, hlost, hread, htime, List.append_nil, List.append_assoc,
    List.nil_append]

theorem dtlsStarted_entry {t s : DirectTunnel L} {op : Op} (h : t.pumpEntry op = some s)
    (hd : t.dtlsStarted = true) : s.dtlsStarted = true :=
  (Life.forward_moves (advances_calls (calls_pumpEntry h))).dtlsStarted hd

theorem flushOut_interrupted {t : DirectTunnel L} (hs : t.started = true)
    (hf : t.inbound.2.isOk = false) : flushOut t = [] := by
  unfold inbound at hf
  unfold flushOut flushed
  rw [if_pos hs]
  revert hf
  generalize t.pumpIce.drainSctp.andThen drainChannel = r
  obtain ⟨r, e | u⟩ := r
  · exact fun _ => rfl
  · intro hf
    cases hf

theorem datagrams_flushOut (F : Flushable L) {t : DirectTunnel L} (hs : t.started = true)
    (hf : t.inbound.2.isOk = true) : datagrams (flushOut t) = t.dtlsProduced := by
  have hd := inbound_dtlsStarted hs
  unfold dtlsProduced
  unfold inbound at hf hd ⊢
  unfold flushOut flushed
  rw [hs, if_pos rfl]
  revert hf hd
  generalize t.pumpIce.drainSctp.andThen drainChannel = r
  obtain ⟨r, e | u⟩ := r
  · intro hf
    cases hf
  · intro _ hd
    have hd : r.dtlsStarted = true := hd
    rw [Outcome.andThen_ok, drainSctpTransmits_eq F hd]
    dsimp only
    rw [if_pos rfl, datagrams_append, datagrams_map]
    split <;> exact List.append_nil _

theorem exhausted_interrupted (F : Flushable L) {t : DirectTunnel L} (hd : t.dtlsStarted = true)
    (hf : t.inbound.2.isOk = false) (hn : ¬ t.HoldsBack) :
    t.inbound.1.Exhausted ∧ t.dtlsProduced = [] := by
  have hsend : (L.dtls.transmits.poll t.inbound.1.dtls).1 = none :=
    not_not.mp fun h => hn ((holdsBack_iff hd).mpr ⟨hf, .inr h⟩)
  have ha : ∀ a, t.inbound.1.association = some a →
      ((L.sctp.transmits t.inbound.1.lastNow).poll a).1 = none :=
    fun a ha => not_not.mp fun h => hn ((holdsBack_iff hd).mpr ⟨hf, .inl ⟨a, ha, h⟩⟩)
  refine ⟨⟨?_, ha, hsend⟩, ?_⟩
  · rw [ice_inbound]
    exact F.iceWrites.drained _
  · have hp : t.inbound.1.packets = [] := by
      unfold packets packetsOf
      cases h : t.inbound.1.association with
      | none => rfl
      | some a =>
        rw [Option.map_some, Option.getD_some, (Source.drain_eq_nil _).mpr (ha a h)]
        rfl
    rw [dtlsProduced, hp]
    exact (Source.drain_eq_nil _).mpr hsend

theorem exhausted_uninterrupted (F : Flushable L) {t : DirectTunnel L} (hs : t.started = true)
    (hf : t.inbound.2.isOk = true) : t.pump.1.Exhausted := by
  rw [pump_uninterrupted F hs hf]
  refine Exhausted.senders ?_ (senders_maybeOpen _)
  constructor
  · show (L.ice.writes.poll t.inbound.1.ice).1 = none
    rw [ice_inbound]
    exact F.iceWrites.drained _
  · intro a ha
    obtain ⟨b, _, rfl⟩ := Option.map_eq_some_iff.mp ha
    exact (F.transmits _).drained b
  · exact F.dtlsTransmits.drained _

/-- **A pump flushes exactly when no failure to read or to open the stream leaves the association or
DTLS with something to send.** -/
theorem flushes_iff (F : Flushable L) {t s : DirectTunnel L} {op : Op}
    (h : t.pumpEntry op = some s) (hd : t.dtlsStarted = true) :
    t.Flushes s op ↔ ¬ s.HoldsBack := by
  have hd := dtlsStarted_entry h hd
  have hs : s.started = true := (started_iff s).mpr (by rw [runningDtls, if_pos hd]; rfl)
  have hsend : (t.step op).senders = s.pump.1.senders := by
    rw [step_pump h]
    exact senders_afterPump s t.epoch op
  cases hf : s.inbound.2.isOk with
  | false =>
    rw [pump_interrupted hs hf] at hsend
    constructor
    · intro hflush hb
      have he := hflush.exhausted.senders hsend.symm
      rcases ((holdsBack_iff hd).mp hb).2 with ⟨a, ha, hn⟩ | hn
      · exact hn (he.association a ha)
      · exact hn he.dtls
    · intro hn
      obtain ⟨he, hp⟩ := exhausted_interrupted F hd hf hn
      refine ⟨he.senders hsend, ?_⟩
      rw [datagrams_step h, flushOut_interrupted hs hf, hp]
      rfl
  | true =>
    refine ⟨fun _ hb => ?_, fun _ => ⟨?_, ?_⟩⟩
    · have hn := ((holdsBack_iff hd).mp hb).1
      rw [hf] at hn
      cases hn
    · exact (exhausted_uninterrupted F hs hf).senders hsend
    · rw [datagrams_step h, datagrams_flushOut F hs hf]

end DirectTunnel

namespace Script

theorem flushable : Flushable layers where
  iceWrites := Source.fused_queue Agent.writeSlot
  dtlsTransmits := Source.fused_queue Dtls.transmitSlot
  transmits _ := Source.fused_queue Association.transmitSlot
  write _ _ _ _ := rfl

end Script

namespace DirectTunnel

variable {L : Layers}

/-- A HEARTBEAT on the open channel is answered. -/
theorem flushes_heartbeat : ∃ s, (run step Script.dialer openChannel).pumpEntry
    (.receive 4 [23, 6]) = some s ∧
      (run step Script.dialer openChannel).Flushes s (.receive 4 [23, 6]) := by
  have h : ((run step Script.dialer openChannel).pumpEntry (.receive 4 [23, 6])).any
      (fun s => s.inbound.2.isOk) = true := by decide +kernel
  obtain ⟨s, hs, hok⟩ := (Option.any_eq_true ..).mp h
  refine ⟨s, hs, (flushes_iff Script.flushable hs (by decide +kernel)).mpr fun hb => ?_⟩
  obtain ⟨left, hleft, _⟩ := hb
  have hf := ((input_iff s false left).mp hleft).2
  rw [hok] at hf
  cases hf

def holdsPacket (t : DirectTunnel L) : Bool :=
  t.association.any fun a => ((L.sctp.transmits t.lastNow).poll a).1.isSome

theorem Exhausted.not_holdsPacket {t : DirectTunnel L} (h : t.Exhausted) :
    t.holdsPacket = false := by
  unfold holdsPacket
  cases ha : t.association with
  | none => rfl
  | some a =>
    rw [Option.any_some, h.association a ha]
    rfl

/-- A message that is too long holds back the answer to the HEARTBEAT behind it. -/
theorem answer_held_back :
    ∃ t s, construct Script.layers Script.host Script.config Script.localAddr 0 .new = .ok t ∧
      (run step t openChannel).dtlsStarted = true ∧
      (run step t openChannel).pumpEntry (.receive 4 [23, 5, 6]) = some s ∧
      ((run step t openChannel).step (.receive 4 [23, 5, 6])).finished = false ∧
      ¬ (run step t openChannel).Flushes s (.receive 4 [23, 5, 6]) := by
  have hs : ((run step Script.dialer openChannel).pumpEntry (.receive 4 [23, 5, 6])).isSome =
      true := by decide +kernel
  have hh : ((run step Script.dialer openChannel).step (.receive 4 [23, 5, 6])).holdsPacket =
      true := by decide +kernel
  refine ⟨Script.dialer, _, Script.build_dialer, by decide +kernel, (Option.some_get hs).symm,
    by decide +kernel, fun hf => ?_⟩
  exact absurd (hh.symm.trans hf.exhausted.not_holdsPacket) nofun

end DirectTunnel

end RtcTunnel.Direct
