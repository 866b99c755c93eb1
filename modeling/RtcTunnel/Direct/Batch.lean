import RtcTunnel.Direct.Closing
import RtcTunnel.Direct.Emptying
import RtcTunnel.Direct.Feeding

/-!
# Batched input

`receive_deferred` for each datagram and one `finish_input_batch` look once at a
mailbox that `receive` looks at after each datagram. Over layers that accumulate
the two yield the same events exactly under the condition of the mailbox.
-/

namespace RtcTunnel.Direct

open RtcTunnel.Core
open RtcTunnel.Base (Mailbox Arrival)
open RtcTunnel.Base.Poll (Source)
open RtcTunnel.Base.Run

set_option autoImplicit false

/-- The events of the channel: all but datagrams. -/
def Event.ofChannel : Event → Bool
  | .sendDatagram _ => false
  | _ => true

/-- A list up to and including its first `Closed`. -/
def upToClosed : List Event → List Event
  | [] => []
  | e :: es => if e.isClosed then [e] else e :: upToClosed es

theorem upToClosed_append {es fs : List Event} (h : ∀ e ∈ es, e.isClosed = false) :
    upToClosed (es ++ fs) = es ++ upToClosed fs := by
  induction es with
  | nil => rfl
  | cons e es ih =>
    rw [List.cons_append, upToClosed, h e (List.mem_cons_self ..), if_neg Bool.false_ne_true,
      ih fun x hx => h x (List.mem_cons_of_mem e hx), List.cons_append]

namespace DirectTunnel

variable {L : Layers}

def receiveEach (t : DirectTunnel L) (nowMs : UInt64) (datagrams : List Bytes) : DirectTunnel L :=
  datagrams.foldl (fun t datagram => t.receive nowMs datagram) t

def deferEach (t : DirectTunnel L) (nowMs : UInt64) (datagrams : List Bytes) : DirectTunnel L :=
  datagrams.foldl (fun t datagram => t.receiveDeferred nowMs datagram) t

def receiveBatch (t : DirectTunnel L) (nowMs : UInt64) (datagrams : List Bytes) : DirectTunnel L :=
  (t.deferEach nowMs datagrams).finishInputBatch

/-- What the channel reads of the events pushed between two states. -/
def yielded (t r : DirectTunnel L) : List Event :=
  upToClosed (((pushed r).drop (pushed t).length).filter Event.ofChannel)

/-- Notices and messages of the stream `id`, as an arrival. -/
def noted {χ : Type} (id : UInt16) (fresh : Bool) (ns : List SctpEvent) (items : List χ) : Arrival χ where
  fresh := fresh
  lost := decide (.associationLost ∈ ns)
  readable := decide (.readable id ∈ ns)
  items := items

/-- What a datagram adds to the mailbox, told from the states around it. -/
def arrival (V : Views L) (t : DirectTunnel L) (nowMs : UInt64) (datagram : Bytes) :
    Arrival L.sctp.Chunks :=
  let r := t.receiveDeferred nowMs datagram
  if .newAssociation ∈ r.log.drop t.log.length then
    noted t.streamId true (r.notices V) (r.waiting V)
  else
    noted t.streamId false ((r.notices V).drop (t.notices V).length)
      ((r.waiting V).drop (t.waiting V).length)

def arrivals (V : Views L) (nowMs : UInt64) : DirectTunnel L → List Bytes → List (Arrival L.sctp.Chunks)
  | _, [] => []
  | t, datagram :: datagrams =>
    t.arrival V nowMs datagram :: arrivals V nowMs (t.receiveDeferred nowMs datagram) datagrams

/-- The events that a host is told of a look at the mailbox. -/
def told (p : List Event × Bool) : List Event := p.1 ++ if p.2 then [.closed .remote] else []

theorem mailbox_adds {V : Views L} {t r : DirectTunnel L} {fresh : Bool} {ns : List SctpEvent}
    {items : List L.sctp.Chunks} (h : Adds V t r fresh ns items) :
    r.mailbox V = (t.mailbox V).deliver (noted t.streamId fresh ns items) := by
  have hread : (decide (.readable t.streamId ∈ ns) || !items.isEmpty) =
      decide (.readable t.streamId ∈ ns) := by
    cases hi : items with
    | nil => simp
    | cons c cs =>
      have hr := h.announced (by rw [hi]; exact List.cons_ne_nil c cs)
      simp [hr]
  rw [mailbox, mailbox, h.notices, h.waiting, h.streamId]
  cases fresh with
  | true => simp [Mailbox.deliver, noted, hread]
  | false => simp [Mailbox.deliver, noted, hread]

theorem arrival_adds {V : Views L} {t : DirectTunnel L} {nowMs : UInt64} {datagram : Bytes}
    {fresh : Bool} {ns : List SctpEvent} {items : List L.sctp.Chunks}
    (h : Adds V t (t.receiveDeferred nowMs datagram) fresh ns items) :
    t.arrival V nowMs datagram = noted t.streamId fresh ns items := by
  obtain ⟨es, hlog, hes⟩ := h.log
  rw [arrival, hlog, List.drop_left, h.notices, h.waiting]
  cases fresh with
  | true => rw [if_pos (hes.mpr rfl), if_pos rfl, if_pos rfl]
  | false =>
    rw [if_neg fun hm => Bool.false_ne_true (hes.mp hm), if_neg Bool.false_ne_true,
      if_neg Bool.false_ne_true, List.drop_left, List.drop_left]

/-- An open tunnel in the course of its life. -/
structure Receiving (t : DirectTunnel L) : Prop where
  phases : t.life.Phases
  opened : t.opened = true
  finished : t.finished = false

theorem Receiving.ready {t : DirectTunnel L} (h : t.Receiving) : t.Ready :=
  ⟨h.phases.started (h.phases.dialed (h.phases.opened h.opened)), h.phases.opened h.opened, h.opened⟩

theorem Receiving.endpoint {t : DirectTunnel L} (h : t.Receiving) : t.sctp.isSome = true :=
  h.phases.association (h.phases.connected (h.phases.dialed (h.phases.opened h.opened)))

theorem phases_step {t : DirectTunnel L} (op : Op) (h : t.life.Phases) : (t.step op).life.Phases :=
  moves_invariant Life.phases_move (advances_step t op) h

theorem receiveDeferred_eq {t : DirectTunnel L} (h : t.Receiving) {nowMs : UInt64} {now : Instant}
    (hn : t.epoch.addMillis nowMs = now) (datagram : Bytes) :
    t.receiveDeferred nowMs datagram = { t with lastNow := now }.ingest now datagram := by
  have hq := mute_ingest { t with lastNow := now } now datagram
  subst hn
  unfold receiveDeferred
  rw [if_neg (by rw [h.finished]; exact Bool.false_ne_true)]
  exact if_pos (hq.steady.opened.trans h.opened)

theorem receive_eq {t : DirectTunnel L} (h : t.Receiving) (nowMs : UInt64) (datagram : Bytes) :
    t.receive nowMs datagram = (t.receiveDeferred nowMs datagram).pump.1 := by
  rw [receiveDeferred_eq h rfl, receive, if_neg (by rw [h.finished]; exact Bool.false_ne_true)]

theorem mute_receiveDeferred {t : DirectTunnel L} (h : t.Receiving) (nowMs : UInt64)
    (datagram : Bytes) : t.Mute (t.receiveDeferred nowMs datagram) := by
  rw [receiveDeferred_eq h rfl]
  exact (mute_clock t _).trans (mute_ingest _ _ datagram)

theorem receiving_deferred {t : DirectTunnel L} (h : t.Receiving) (nowMs : UInt64)
    (datagram : Bytes) : (t.receiveDeferred nowMs datagram).Receiving := by
  have hq := mute_receiveDeferred h nowMs datagram
  exact ⟨phases_step (.receiveDeferred nowMs datagram) h.phases, hq.steady.opened.trans h.opened,
    hq.steady.finished.trans h.finished⟩

section Runs

variable {V : Views L} (hA : Accumulates V)
include hA

/-- The clock is no part of what two tunnels share. -/
theorem together_clock {u b : DirectTunnel L} (h : Alike V u b) (hb : b.Ready)
    (he : u.sctp.isSome = true) (now : Instant) (datagram : Bytes) :
    Together V u b ({ u with lastNow := now }.ingest now datagram)
      ({ b with lastNow := now }.ingest now datagram) := by
  have hl : Alike V { u with lastNow := now } { b with lastNow := now } :=
    ⟨h.1, h.2, h.3, h.4, h.5, h.6, h.7, h.8, h.9, h.10, h.11⟩
  have hr : ({ b with lastNow := now } : DirectTunnel L).Ready := ⟨hb.1, hb.2, hb.3⟩
  obtain ⟨ha, fresh, ns, items, hau, hab⟩ := together_ingest hA hl hr he now datagram
  exact ⟨ha, fresh, ns, items, ⟨hau.1, hau.2, hau.3, hau.4, hau.5⟩,
    ⟨hab.1, hab.2, hab.3, hab.4, hab.5⟩⟩

theorem together_receiveDeferred {u b : DirectTunnel L} (h : Alike V u b) (hu : u.Receiving)
    (hb : b.Receiving) (nowMs : UInt64) (datagram : Bytes) :
    Together V u b (u.receiveDeferred nowMs datagram) (b.receiveDeferred nowMs datagram) := by
  rw [receiveDeferred_eq hu (congrArg (·.addMillis nowMs) h.epoch), receiveDeferred_eq hb rfl]
  exact together_clock hA h hb.ready hu.endpoint _ datagram

/-- A datagram adds its arrival to the mailboxes of two tunnels that are alike. -/
theorem mailbox_receiveDeferred {u b : DirectTunnel L} (h : Alike V u b) (hu : u.Receiving)
    (hb : b.Receiving) (nowMs : UInt64) (datagram : Bytes) :
    Alike V (u.receiveDeferred nowMs datagram) (b.receiveDeferred nowMs datagram) ∧
      (u.receiveDeferred nowMs datagram).mailbox V =
        (u.mailbox V).deliver (b.arrival V nowMs datagram) := by
  obtain ⟨ha, fresh, ns, items, hau, hab⟩ := together_receiveDeferred hA h hu hb nowMs datagram
  refine ⟨ha, ?_⟩
  rw [arrival_adds hab, mailbox_adds hau, h.streamId]

/-- What a pump of an open tunnel pushes, as far as the channel reads it. -/
theorem pushed_look {t : DirectTunnel L} (h : t.Receiving) : ∃ es, pushed t.pump.1 = pushed t ++ es ∧
    es.filter Event.ofChannel = (if (t.mailbox V).lost then [.closed .remote] else []) ++
      (t.mailbox V).out (decodeChunk L) := by
  refine ⟨_, pushed_pump t h.finished, ?_⟩
  have hi : (iceOut t).filter Event.ofChannel = [] := by
    rw [List.filter_eq_nil_iff]
    intro e he
    obtain ⟨d, rfl⟩ := mem_iceOut he
    exact Bool.false_ne_true
  have hf : (flushOut t).filter Event.ofChannel = [] := by
    rw [List.filter_eq_nil_iff]
    intro e he
    obtain ⟨d, rfl⟩ := flushOut_datagrams hA t h.ready e he
    exact Bool.false_ne_true
  have hr : (readOut t).filter Event.ofChannel = readOut t := by
    rw [List.filter_eq_self]
    intro e he
    obtain ⟨m, rfl⟩ := mem_readOut he
    rfl
  have hl : (if t.loses then [Event.closed .remote] else []).filter Event.ofChannel =
      if t.loses then [.closed .remote] else [] := by
    cases t.loses <;> rfl
  rw [List.filter_append, List.filter_append, List.filter_append, hi, hf, hr, hl,
    readOut_eq hA t h.ready, loses_eq hA t h.ready, List.nil_append, List.append_nil]

theorem not_closed_out {t : DirectTunnel L} (h : t.Receiving) :
    ∀ e ∈ (t.mailbox V).out (decodeChunk L), e.isClosed = false := by
  intro e he
  rw [← readOut_eq hA t h.ready] at he
  obtain ⟨m, rfl⟩ := mem_readOut he
  rfl

/-- Behind a pump that finds no loss the tunnel goes on. -/
theorem receiving_receive {t : DirectTunnel L} (h : t.Receiving) {nowMs : UInt64} {datagram : Bytes}
    (hl : ((t.receiveDeferred nowMs datagram).mailbox V).lost = false) :
    (t.receive nowMs datagram).Receiving := by
  have hd := receiving_deferred h nowMs datagram
  have ho := (alike_pump hA _ hd.ready).1.opened
  have hp := phases_step (.receive nowMs datagram) h.phases
  rw [step] at hp
  refine ⟨hp, ?_, ?_⟩
  · rw [receive_eq h]
    exact ho.trans hd.opened
  · rw [receive_eq h, finished_pump, hd.finished, loses_eq hA _ hd.ready, hl]
    rfl

omit hA in
theorem receiveEach_finished {t : DirectTunnel L} (nowMs : UInt64) (datagrams : List Bytes)
    (hf : t.finished = true) : t.receiveEach nowMs datagrams = t := by
  induction datagrams with
  | nil => rfl
  | cons datagram datagrams ih =>
    have hr : t.receive nowMs datagram = t := by rw [receive, if_pos hf]
    rw [receiveEach, List.foldl_cons, hr]
    exact ih

/-- Reading each datagram is looking at the mailbox after each arrival. -/
theorem pushed_receiveEach (nowMs : UInt64) (datagrams : List Bytes) {u b : DirectTunnel L}
    (h : Alike V u b) (hu : u.Receiving) (hb : b.Receiving) :
    ∃ es, pushed (u.receiveEach nowMs datagrams) = pushed u ++ es ∧
      upToClosed (es.filter Event.ofChannel) =
        told ((u.mailbox V).each (decodeChunk L) (arrivals V nowMs b datagrams)) := by
  induction datagrams generalizing u b with
  | nil => exact ⟨[], (List.append_nil _).symm, rfl⟩
  | cons datagram datagrams ih =>
    obtain ⟨ha, hm⟩ := mailbox_receiveDeferred hA h hu hb nowMs datagram
    have hd := receiving_deferred hu nowMs datagram
    obtain ⟨es, hes, hv⟩ := pushed_look hA hd
    rw [← receive_eq hu, (mute_receiveDeferred hu nowMs datagram).pushed] at hes
    rw [receiveEach, List.foldl_cons, arrivals, Mailbox.each, ← hm]
    cases hl : ((u.receiveDeferred nowMs datagram).mailbox V).lost with
    | true =>
      have hf : (u.receive nowMs datagram).finished = true := by
        rw [receive_eq hu, finished_pump, loses_eq hA _ hd.ready, hl, Bool.or_true]
      refine ⟨es, ?_, ?_⟩
      · have hstop := receiveEach_finished nowMs datagrams hf
        rw [receiveEach] at hstop
        rw [hstop, hes]
      · rw [hl, if_pos rfl] at hv
        rw [hv, if_pos rfl]
        rfl
    | false =>
      obtain ⟨hpa, hpm⟩ := alike_pump hA _ hd.ready
      rw [← receive_eq hu] at hpa hpm
      obtain ⟨fs, hfs, hw⟩ := ih (hpa.trans ha) (receiving_receive hA hu hl)
        (receiving_deferred hb nowMs datagram)
      rw [hl, if_neg Bool.false_ne_true, List.nil_append] at hv
      refine ⟨es ++ fs, ?_, ?_⟩
      · rw [receiveEach] at hfs
        rw [hfs, hes, List.append_assoc]
      · rw [List.filter_append, hv, upToClosed_append (not_closed_out hA hd), hw, hpm,
          if_neg Bool.false_ne_true, told, told, List.append_assoc]

theorem deferEach_run (nowMs : UInt64) (datagrams : List Bytes) {t : DirectTunnel L}
    (h : t.Receiving) : (t.deferEach nowMs datagrams).Receiving ∧
      pushed (t.deferEach nowMs datagrams) = pushed t ∧
      (t.deferEach nowMs datagrams).mailbox V =
        (arrivals V nowMs t datagrams).foldl Mailbox.deliver (t.mailbox V) := by
  induction datagrams generalizing t with
  | nil => exact ⟨h, rfl, rfl⟩
  | cons datagram datagrams ih =>
    obtain ⟨hr, hp, hm⟩ := ih (receiving_deferred h nowMs datagram)
    have hone := (mailbox_receiveDeferred hA (.refl t) h h nowMs datagram).2
    rw [hone] at hm
    exact ⟨hr, hp.trans (mute_receiveDeferred h nowMs datagram).pushed, hm⟩

/-- A batch is one look at the mailbox. -/
theorem pushed_receiveBatch (nowMs : UInt64) (datagrams : List Bytes) {t : DirectTunnel L}
    (h : t.Receiving) : ∃ es, pushed (t.receiveBatch nowMs datagrams) = pushed t ++ es ∧
      upToClosed (es.filter Event.ofChannel) =
        told ((t.mailbox V).atOnce (decodeChunk L) (arrivals V nowMs t datagrams)) := by
  obtain ⟨hr, hp, hm⟩ := deferEach_run hA nowMs datagrams h
  obtain ⟨es, hes, hv⟩ := pushed_look hA hr
  have hb : t.receiveBatch nowMs datagrams = (t.deferEach nowMs datagrams).pump.1 := by
    rw [receiveBatch, finishInputBatch, hr.finished, hr.opened]
    rfl
  refine ⟨es, by rw [hb, hes, hp], ?_⟩
  rw [hv, hm, Mailbox.atOnce]
  cases hl : ((arrivals V nowMs t datagrams).foldl Mailbox.deliver (t.mailbox V)).lost with
  | true => rfl
  | false =>
    have hn := not_closed_out hA hr
    rw [hm] at hn
    rw [if_neg Bool.false_ne_true, if_neg Bool.false_ne_true, List.nil_append, told]
    rw [← List.append_nil (Mailbox.out _ _), upToClosed_append hn, List.append_nil]
    rfl

end Runs

theorem yielded_of_pushed {t r : DirectTunnel L} {es : List Event} (h : pushed r = pushed t ++ es) :
    t.yielded r = upToClosed (es.filter Event.ofChannel) := by
  rw [yielded, h, List.drop_left]

/-- What is told of a look tells the look, as only a loss tells a close. -/
theorem told_inj {p q : List Event × Bool} (hp : ∀ e ∈ p.1, e.isClosed = false)
    (hq : ∀ e ∈ q.1, e.isClosed = false) (h : told p = told q) : p = q := by
  have messages : ∀ r : List Event × Bool, (∀ e ∈ r.1, e.isClosed = false) →
      (told r).filter (fun e => !e.isClosed) = r.1 ∧ (told r).any (·.isClosed) = r.2 := by
    intro r hr
    have hf : r.1.filter (fun e => !e.isClosed) = r.1 :=
      List.filter_eq_self.mpr fun e he => by rw [hr e he]; rfl
    have ha : r.1.any (·.isClosed) = false :=
      List.any_eq_false.mpr fun e he => by rw [hr e he]; exact Bool.false_ne_true
    rw [told, List.filter_append, List.any_append, hf, ha]
    cases r.2 <;> simp [Event.isClosed]
  obtain ⟨hp1, hp2⟩ := messages p hp
  obtain ⟨hq1, hq2⟩ := messages q hq
  rw [h] at hp1 hp2
  exact Prod.ext (hp1.symm.trans hq1) (hp2.symm.trans hq2)

theorem not_closed_read (items : List L.sctp.Chunks) :
    ∀ e ∈ (Mailbox.read (decodeChunk L) items).1, e.isClosed = false := by
  induction items with
  | nil => exact List.forall_mem_nil _
  | cons c cs ih =>
    rw [Mailbox.read]
    cases hd : decodeChunk L c with
    | none => exact List.forall_mem_nil _
    | some out =>
      intro e he
      rcases List.mem_append.mp he with he | he
      · obtain ⟨msgs, hm⟩ := readChunk_messages L c []
        have hr : (readChunk L c []).1 = out := by rw [readChunk_of_some hd, List.nil_append]
        have hm : (readChunk L c []).1 = msgs.map Event.message := hm
        rw [← hr, hm] at he
        obtain ⟨m, _, rfl⟩ := List.mem_map.mp he
        rfl
      · exact ih e he

theorem not_closed_look (m : Mailbox L.sctp.Chunks) :
    ∀ e ∈ m.out (decodeChunk L), e.isClosed = false := by
  intro e he
  rw [Mailbox.out] at he
  split at he
  · exact not_closed_read m.items e he
  · cases he

theorem not_closed_each (m : Mailbox L.sctp.Chunks) (as : List (Arrival L.sctp.Chunks)) :
    ∀ e ∈ (m.each (decodeChunk L) as).1, e.isClosed = false := by
  induction as generalizing m with
  | nil => exact List.forall_mem_nil _
  | cons a as ih =>
    rw [Mailbox.each]
    split
    · exact List.forall_mem_nil _
    · intro e he
      rcases List.mem_append.mp he with he | he
      · exact not_closed_look _ e he
      · exact ih _ e he

theorem not_closed_atOnce (m : Mailbox L.sctp.Chunks) (as : List (Arrival L.sctp.Chunks)) :
    ∀ e ∈ (m.atOnce (decodeChunk L) as).1, e.isClosed = false := by
  rw [Mailbox.atOnce]
  split
  · exact nofun
  · exact not_closed_look _

/-- **Batched input agrees with unbatched input exactly under the condition of the
mailbox**, told from what waits in the association and what each datagram adds. -/
theorem batch_agrees {V : Views L} (hA : Accumulates V) {h : BuildHost} {config : TunnelConfig}
    {localAddr : SocketAddr} {startMs : UInt64} {c : Constructor} {t : DirectTunnel L}
    (hc : construct L h config localAddr startMs c = .ok t) (ops : List Op)
    (ho : (run step t ops).opened = true) (hf : (run step t ops).finished = false)
    (nowMs : UInt64) (datagrams : List Bytes) :
    (run step t ops).yielded ((run step t ops).receiveEach nowMs datagrams) =
        (run step t ops).yielded ((run step t ops).receiveBatch nowMs datagrams) ↔
      Mailbox.Agrees (decodeChunk L) ((run step t ops).mailbox V)
        (arrivals V nowMs (run step t ops) datagrams) := by
  have hr : (run step t ops).Receiving := ⟨phases_run hc ops, ho, hf⟩
  obtain ⟨es, hes, hv⟩ := pushed_receiveEach hA nowMs datagrams (.refl _) hr hr
  obtain ⟨fs, hfs, hw⟩ := pushed_receiveBatch hA nowMs datagrams hr
  rw [yielded_of_pushed hes, yielded_of_pushed hfs, hv, hw, ← Mailbox.each_eq_atOnce]
  exact ⟨told_inj (not_closed_each _ _) (not_closed_atOnce _ _), congrArg told⟩

end DirectTunnel

namespace Script

/-- The notices and messages of a packet. -/
def added : Bytes → List SctpEvent × List (Ppi × Option Bytes)
  | 2 :: rest => (.connected :: (added rest).1, (added rest).2)
  | 3 :: b :: rest => (.readable 0 :: (added rest).1, (.binary, some [b]) :: (added rest).2)
  | 4 :: rest => (.associationLost :: (added rest).1, (added rest).2)
  | 5 :: rest => (.readable 0 :: (added rest).1, (.binary, none) :: (added rest).2)
  | 6 :: rest => added rest
  | _ => ([], [])

def waiting (id : UInt16) (a : Association) : List (Ppi × Option Bytes) :=
  if id = 0 ∧ 0 ∈ a.streams then a.inbox else []

def views : Views layers where
  IceCore := Bool
  DtlsCore := Option HandshakeConfig
  EndpointCore := Bool
  AssociationCore := Unit
  ice := Agent.selected
  dtls := Dtls.config
  endpoint := id
  core _ := ()
  notices := Association.events
  waiting := waiting
  added _ event := ((added event).1, fun id => if id = 0 then (added event).2 else [])

theorem waiting_other {id : UInt16} (h : id ≠ 0) (a : Association) : waiting id a = [] :=
  if_neg fun hn => h hn.1

theorem arrive_adds (a : Association) (message : Ppi × Option Bytes) :
    (a.arrive message).events = a.events ++ [.readable 0] ∧
      waiting 0 (a.arrive message) = waiting 0 a ++ [message] := by
  unfold Association.arrive waiting
  by_cases h : 0 ∈ a.streams
  · rw [if_pos h]
    simp [h]
  · rw [if_neg h]
    simp [h]

theorem handleEvent_adds (a : Association) (event : Bytes) :
    (a.handleEvent event).events = a.events ++ (added event).1 ∧
      waiting 0 (a.handleEvent event) = waiting 0 a ++ (added event).2 := by
  fun_induction added event generalizing a with
  | case1 rest ih =>
    obtain ⟨he, hw⟩ := ih { a with events := a.events ++ [.connected] }
    rw [Association.handleEvent, he, hw]
    exact ⟨List.append_assoc .., rfl⟩
  | case2 b rest ih =>
    obtain ⟨hn, hm⟩ := arrive_adds a (.binary, some [b])
    obtain ⟨he, hw⟩ := ih (a.arrive (.binary, some [b]))
    rw [Association.handleEvent, he, hw, hn, hm]
    exact ⟨List.append_assoc .., List.append_assoc ..⟩
  | case3 rest ih =>
    obtain ⟨he, hw⟩ := ih { a with events := a.events ++ [.associationLost] }
    rw [Association.handleEvent, he, hw]
    exact ⟨List.append_assoc .., rfl⟩
  | case4 rest ih =>
    obtain ⟨hn, hm⟩ := arrive_adds a (.binary, none)
    obtain ⟨he, hw⟩ := ih (a.arrive (.binary, none))
    rw [Association.handleEvent, he, hw, hn, hm]
    exact ⟨List.append_assoc .., List.append_assoc ..⟩
  | case5 rest ih =>
    obtain ⟨he, hw⟩ := ih { a with transmits := a.transmits ++ [.rawEncode [[6]]] }
    rw [Association.handleEvent, he, hw]
    exact ⟨rfl, rfl⟩
  | case6 event h1 h2 h3 h4 h5 =>
    have hn : a.handleEvent event = a := by
      unfold Association.handleEvent
      split <;> simp_all
    rw [hn, List.append_nil, List.append_nil]
    exact ⟨rfl, rfl⟩

theorem added_announced (event : Bytes) (h : (added event).2 ≠ []) :
    .readable 0 ∈ (added event).1 := by
  fun_induction added event with
  | case1 rest ih => exact List.mem_cons_of_mem _ (ih h)
  | case2 b rest ih => exact List.mem_cons_self ..
  | case3 rest ih => exact List.mem_cons_of_mem _ (ih h)
  | case4 rest ih => exact List.mem_cons_self ..
  | case5 rest ih => exact ih h
  | case6 => exact absurd rfl h

theorem handleRead_selected (a : Agent) (now : Instant) : (a.handleRead now).selected = true := by
  cases h : a.selected <;> simp [Agent.handleRead, Agent.changeState, h]

theorem read_config {d e : Dtls} (h : d.config = e.config) (datagram : Bytes) :
    (d.read datagram).1.config = (e.read datagram).1.config ∧
      (d.read datagram).2 = (e.read datagram).2 := by
  unfold Dtls.read
  rw [h]
  split
  · split
    · exact ⟨rfl, rfl⟩
    · exact ⟨h, rfl⟩
  · exact ⟨h, rfl⟩
  · exact ⟨h, rfl⟩

theorem handleEvent_waiting (id : UInt16) (a : Association) (event : Bytes) :
    waiting id (a.handleEvent event) =
      waiting id a ++ if id = 0 then (added event).2 else [] := by
  by_cases h : id = 0
  · rw [if_pos h, h]
    exact (handleEvent_adds a event).2
  · rw [if_neg h, waiting_other h, waiting_other h]
    rfl

theorem sctpHandle_announced {server : Bool} {datagram : Bytes} {a : Association} {id : UInt16}
    (h : sctpHandle server datagram = some ((), .newAssociation a)) (hw : waiting id a ≠ []) :
    .readable id ∈ a.events := by
  have hi : id = 0 := Decidable.byContradiction fun hi => hw (waiting_other hi a)
  unfold sctpHandle at h
  split at h
  · rename_i rest
    split at h
    · cases h
      obtain ⟨hn, hm⟩ := handleEvent_adds Association.fresh rest
      rw [hi, hm] at hw
      rw [hi, hn]
      exact List.mem_append_right _ (added_announced rest hw)
    · cases h
  · cases h

theorem inbox_poll (a : Association) : ((Source.queue Association.inboxSlot).lift String).poll a =
    (.ok a.inbox.head?, { a with inbox := a.inbox.tail }) := by
  show (Except.ok ((Source.queue Association.inboxSlot).poll a).1, _) = _
  rw [Source.queue_poll]
  rfl

/-- The messages of stream 0, of which `read_sctp` takes the first. -/
theorem inbox_queues : ((Source.queue Association.inboxSlot).lift String).Queues
    (fun a => decide (0 ∈ a.streams) = true) (waiting 0) := by
  have hw : ∀ a : Association, decide (0 ∈ a.streams) = true → waiting 0 a = a.inbox :=
    fun a ha => if_pos ⟨rfl, of_decide_eq_true ha⟩
  refine ⟨fun a ha => ?_, fun a ha hn => ?_, fun a m ms ha hm => ?_⟩
  · rw [inbox_poll]
    exact ha
  · rw [hw a ha] at hn
    rw [inbox_poll]
    exact ⟨congrArg (Except.ok ∘ List.head?) hn, (hw { a with inbox := a.inbox.tail } ha).trans (congrArg List.tail hn)⟩
  · rw [hw a ha] at hm
    rw [inbox_poll]
    exact ⟨congrArg (Except.ok ∘ List.head?) hm, (hw { a with inbox := a.inbox.tail } ha).trans (congrArg List.tail hm)⟩

theorem readSctp_queues (id : UInt16) :
    (sctp.readSctp id).Queues (sctp.hasStream · id = true) (waiting id) := by
  by_cases h : id = 0
  · subst h
    exact inbox_queues
  · have hs : sctp.readSctp id = (Source.empty Association _).lift String :=
      congrArg (Source.lift String) (if_neg h)
    rw [hs]
    exact ⟨fun a ha => ha, fun a _ _ => ⟨rfl, waiting_other h _⟩,
      fun a m ms _ hm => nomatch (waiting_other h a).symm.trans hm⟩

theorem readSctp_events (id : UInt16) (a : Association) :
    ((sctp.readSctp id).poll a).2.events = a.events := by
  by_cases h : id = 0
  · subst h
    exact Source.queue_keeps Association.inboxSlot Association.events (fun _ _ => rfl) a
  · have hs : sctp.readSctp id = (Source.empty Association _).lift String :=
      congrArg (Source.lift String) (if_neg h)
    rw [hs]
    rfl

theorem accumulates : Accumulates views where
  iceRead a b _ now _ _ _ := (handleRead_selected a now).trans (handleRead_selected b now).symm
  pairSelected _ _ h := h
  iceEvents := Source.queue_keeps Agent.eventSlot Agent.selected fun _ _ => rfl
  iceWrites := Source.queue_keeps Agent.writeSlot Agent.selected fun _ _ => rfl
  dtlsRead _ _ h _ _ datagram := read_config h datagram
  dtlsWrite _ _ _ _ := rfl
  dtlsTransmits := Source.queue_keeps Dtls.transmitSlot Dtls.config fun _ _ => rfl
  endpointHandle _ _ h _ _ _ := ⟨h, congrArg (sctpHandle · _) h⟩
  endpointEvent _ _ _ := rfl
  handleEvent _ _ _ _ := rfl
  noticesAdded a event := (handleEvent_adds a event).1
  waitingAdded := handleEvent_waiting
  announced _ event id h := by
    by_cases hi : id = 0
    · subst hi
      exact added_announced event h
    · exact absurd (if_neg hi) h
  announcedNew _ _ _ _ _ _ _ h hw := sctpHandle_announced h hw
  events := Source.queues_queue Association.eventSlot
  eventsCore _ := rfl
  eventsWaiting id := Source.queue_keeps Association.eventSlot (waiting id) fun _ _ => rfl
  endpointEvents _ := .refl _
  transmits _ a :=
    ⟨rfl, Source.queue_keeps Association.transmitSlot Association.events (fun _ _ => rfl) a,
      fun id => Source.queue_keeps Association.transmitSlot (waiting id) (fun _ _ => rfl) a⟩
  read := readSctp_queues
  readCore _ _ := rfl
  readNotices := readSctp_events
  noStream id a h := if_neg fun (hn : id = 0 ∧ 0 ∈ a.streams) =>
    of_decide_eq_false h (hn.1 ▸ hn.2)

end Script

namespace DirectTunnel

/-- An open channel. -/
def openChannel : List Op := [.receive 1 [0], .receive 2 [22, 7], .receive 3 [23, 2]]

/-- Two messages are read the same way. -/
theorem batch_agrees_messages :
    (run step Script.dialer openChannel).yielded
        ((run step Script.dialer openChannel).receiveEach 4 [[23, 3, 7], [23, 3, 8]]) =
      (run step Script.dialer openChannel).yielded
        ((run step Script.dialer openChannel).receiveBatch 4 [[23, 3, 7], [23, 3, 8]]) := by
  exact (batch_agrees Script.accumulates Script.build_dialer openChannel (by decide +kernel)
    (by decide +kernel) 4 [[23, 3, 7], [23, 3, 8]]).mpr (by decide +kernel)

/-- A message and the loss that follows it: of a batch only the close is heard. -/
theorem batch_differs :
    ∃ t, construct Script.layers Script.host Script.config Script.localAddr 0 .new = .ok t ∧
      (run step t openChannel).opened = true ∧ (run step t openChannel).finished = false ∧
      (run step t openChannel).yielded
          ((run step t openChannel).receiveEach 4 [[23, 3, 7], [23, 4]]) =
        [.message [7], .closed .remote] ∧
      (run step t openChannel).yielded
          ((run step t openChannel).receiveBatch 4 [[23, 3, 7], [23, 4]]) =
        [.closed .remote] :=
  ⟨Script.dialer, Script.build_dialer, by decide +kernel⟩

end DirectTunnel

end RtcTunnel.Direct
