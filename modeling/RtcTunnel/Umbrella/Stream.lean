import RtcTunnel.Umbrella.Failure

/-!
# What the umbrella tunnel tells its host

`opened` and `finished` change together with the event that tells of the change, so
each is told at most once. What may follow the close are the writes and the open channel that a
drain finds after its event loop.
-/

namespace RtcTunnel.Umbrella

open RtcTunnel.Core
open RtcTunnel.Base.Run

set_option autoImplicit false

/-- A well-formed sequence of events: one `opened`, one `closed` and nothing behind it. -/
structure Stream (es : List Event) : Prop where
  openedOnce : es.count .opened ≤ 1
  closedOnce : es.countP Event.isClosed ≤ 1
  closedLast : es.Pairwise fun a b => a.isClosed = true →
    b ≠ .opened ∧ (∀ data, b ≠ .message data) ∧ ∀ data, b ≠ .sendDatagram data

theorem terminal_of_stream {es : List Event} (h : Stream es) :
    Terminal (fun e => e.isClosed = true) es := by
  refine List.pairwise_iff_forall_sublist.mpr fun {a b} hs ha => ?_
  obtain ⟨hopened, hmessage, hsend⟩ :=
    List.pairwise_iff_forall_sublist.mp h.closedLast hs ha
  have hb : b.isClosed = true := by
    cases b with
    | closed reason => rfl
    | opened => exact absurd rfl hopened
    | message data => exact absurd rfl (hmessage data)
    | sendDatagram data => exact absurd rfl (hsend data)
  have htwo : 2 ≤ es.countP Event.isClosed := by
    have := hs.countP_le (p := Event.isClosed)
    simpa [ha, hb] using this
  have := h.closedOnce
  omega

namespace Tunnel

variable {P : PeerConnectionApi}

/-- What part of an operation adds to the events. Each flag goes up with its event. -/
structure Adds (t r : Tunnel P) (es : List Event) : Prop where
  log : r.log = t.log ++ es
  opened : t.opened.toNat + es.count .opened = r.opened.toNat
  closed : t.finished.toNat + es.countP Event.isClosed = r.finished.toNat

theorem Adds.of_eq {t r : Tunnel P} (hl : r.log = t.log) (ho : r.opened = t.opened)
    (hf : r.finished = t.finished) : t.Adds r [] :=
  ⟨by rw [hl, List.append_nil], by simp [ho], by simp [hf]⟩

theorem Adds.refl (t : Tunnel P) : t.Adds t [] := .of_eq rfl rfl rfl

theorem Adds.trans {a b c : Tunnel P} {es fs : List Event} (h : a.Adds b es)
    (h' : b.Adds c fs) : a.Adds c (es ++ fs) := by
  refine ⟨by rw [h'.log, h.log, List.append_assoc], ?_, ?_⟩
  · rw [List.count_append, ← h'.opened, ← h.opened, Nat.add_assoc]
  · rw [List.countP_append, ← h'.closed, ← h.closed, Nat.add_assoc]

theorem Adds.silent {a b c : Tunnel P} {es : List Event} (h : a.Adds b es) (h' : b.Adds c []) :
    a.Adds c es := by
  have ht := h.trans h'
  rwa [List.append_nil] at ht

/-- No close is among the events of an unfinished tunnel. -/
theorem Adds.not_closed {t r : Tunnel P} {es : List Event} (h : t.Adds r es)
    (hf : r.finished = false) : ∀ e ∈ es, ¬ e.isClosed = true := by
  have hc := h.closed
  rw [hf, Bool.toNat_false] at hc
  exact List.countP_eq_zero.mp (by omega)

/-- At most one `opened` and one `closed` come after any state. -/
theorem Adds.stream {t r : Tunnel P} {es : List Event} (h : t.Adds r es)
    (hl : Terminal (fun e => e.isClosed = true) es) : Stream es := by
  refine ⟨?_, ?_, hl.imp fun ha hc => absurd hc ha⟩
  · have := h.opened
    have := Bool.toNat_le r.opened
    omega
  · have := h.closed
    have := Bool.toNat_le r.finished
    omega

/-- The datagrams of writes. -/
def sent (ws : List Bytes) : List Event := ws.map .sendDatagram

theorem count_sent (ws : List Bytes) :
    (sent ws).count .opened = 0 ∧ (sent ws).countP Event.isClosed = 0 := by
  refine ⟨List.count_eq_zero.mpr fun h => ?_, List.countP_eq_zero.mpr fun e he => ?_⟩
  · obtain ⟨_, _, h⟩ := List.mem_map.mp h
    cases h
  · obtain ⟨_, _, rfl⟩ := List.mem_map.mp he
    exact Bool.false_ne_true

theorem adds_drainWrites (t : Tunnel P) : t.Adds t.drainWrites (sent (P.writes.drain t.pc).1) := by
  obtain ⟨ho, hc⟩ := count_sent (P.writes.drain t.pc).1
  exact ⟨rfl, by rw [ho]; rfl, by rw [hc]; rfl⟩

/-- What a look at the channel adds. -/
def openingOut (t : Tunnel P) : List Event :=
  if !t.opened && t.channelOpen then [.opened] else []

theorem adds_maybeOpen (t : Tunnel P) : t.Adds t.maybeOpen t.openingOut := by
  unfold maybeOpen openingOut refreshOpened
  cases ho : t.opened with
  | true => exact .refl t
  | false =>
    cases hc : t.channelOpen with
    | true =>
      refine ⟨rfl, ?_, rfl⟩
      rw [ho]
      rfl
    | false =>
      simp only [ho, Bool.false_eq_true, if_false]
      exact .refl t

theorem opened_maybeOpen (t : Tunnel P) : t.maybeOpen.opened = (t.opened || t.channelOpen) := by
  unfold maybeOpen refreshOpened
  cases ho : t.opened with
  | true => simp [ho]
  | false =>
    cases hc : t.channelOpen with
    | true => rfl
    | false => simp [ho]

theorem finished_maybeOpen (t : Tunnel P) : t.maybeOpen.finished = t.finished := by
  have h := (emits_maybeOpen t).finished
  simpa using h

theorem adds_finish {t : Tunnel P} (hf : t.finished = false) (reason : CloseReason) :
    t.Adds (t.finish reason) [.closed reason] := by
  rw [finish, if_neg (by simp [hf])]
  exact ⟨rfl, rfl, by rw [hf]; rfl⟩

theorem adds_sampleHandshake (t : Tunnel P) : t.Adds t.sampleHandshake [] := by
  unfold sampleHandshake
  split
  · exact .refl t
  · exact .of_eq rfl rfl rfl

/-- What the event loop has seen of the channel and of a close. -/
structure Seen where
  opened : Bool
  closed : Bool

/-- Whether the channel is open at this point of the peer connection. -/
def openAt (P : PeerConnectionApi) (handle : P.Channel) (pc : P.Pc) : Bool :=
  (P.dataChannel pc handle).any (·.readyState = .open)

/-- An event with which the tunnel takes the channel as open. -/
def opening (handle : P.Channel) (pc : P.Pc) : PeerConnectionEvent → Bool
  | .onDataChannel .onOpen => true
  | .onConnectionStateChange .connected => openAt P handle pc
  | _ => false

def watchBody (handle : P.Channel) (pc : P.Pc) (event : PeerConnectionEvent) (seen : Seen) :
    Option Seen :=
  if seen.closed then none
  else some ⟨seen.opened || opening handle pc event, (closing event).isSome⟩

/-- The peer connection as the event loop leaves it, and what it reported there. The loop
takes one event more than the first that closes. -/
def watch (t : Tunnel P) : P.Pc × Seen :=
  P.events.walk (watchBody t.handle) t.pc ⟨t.opened, false⟩

theorem channelOpen_eq (t : Tunnel P) : t.channelOpen = openAt P t.handle t.pc := rfl

/-- What the loop made of a tunnel, as far as the peer connection shows. -/
structure Follows (t r : Tunnel P) (seen : Seen) : Prop where
  handle : r.handle = t.handle
  opened : r.opened = seen.opened
  closed : r.finished = seen.closed
  adds : ∃ es, t.Adds r es ∧ (seen.closed = true → ∃ front reason, es = front ++ [.closed reason])

theorem follows_refl {t : Tunnel P} (hf : t.finished = false) : t.Follows t ⟨t.opened, false⟩ :=
  ⟨rfl, rfl, hf, [], .refl t, fun h => absurd h Bool.false_ne_true⟩

theorem finish_fields (t : Tunnel P) (reason : CloseReason) :
    (t.finish reason).handle = t.handle ∧ (t.finish reason).opened = t.opened ∧
      (t.finish reason).finished = true := by
  unfold finish
  split
  · rename_i hf
    exact ⟨rfl, rfl, hf⟩
  · exact ⟨rfl, rfl, rfl⟩

theorem handle_maybeOpen (t : Tunnel P) : t.maybeOpen.handle = t.handle := by
  unfold maybeOpen refreshOpened
  split
  · rfl
  · split
    · rfl
    · dsimp only
      split <;> rfl

/-- One event adds the opening or the close it stands for. -/
theorem follows_handleEvent {t : Tunnel P} (hf : t.finished = false) (event : PeerConnectionEvent) :
    t.Follows (t.handleEvent event)
      ⟨t.opened || opening t.handle t.pc event, (closing event).isSome⟩ := by
  have hquiet : t.Follows t ⟨t.opened || false, false⟩ := by
    rw [Bool.or_false]
    exact follows_refl hf
  have hclose : ∀ reason, t.Follows (t.finish reason) ⟨t.opened || false, true⟩ := by
    intro reason
    obtain ⟨hhandle, hopened, hfinished⟩ := finish_fields t reason
    exact ⟨hhandle, by rw [hopened, Bool.or_false], hfinished, _, adds_finish hf reason,
      fun _ => ⟨[], reason, rfl⟩⟩
  cases event with
  | onDataChannel event =>
    cases event with
    | onOpen =>
      show t.Follows (if t.opened then t else { t with opened := true }.push .opened)
        ⟨t.opened || true, false⟩
      rw [Bool.or_true]
      split
      · rename_i ho
        exact ⟨rfl, ho, hf, [], .refl t, fun h => absurd h Bool.false_ne_true⟩
      · rename_i ho
        refine ⟨rfl, rfl, hf, [.opened], ⟨rfl, ?_, rfl⟩, fun h => absurd h Bool.false_ne_true⟩
        rw [Bool.not_eq_true] at ho
        rw [ho]
        rfl
    | onClose => exact hclose .remote
    | _ => exact hquiet
  | onConnectionStateChange state =>
    cases state with
    | connected =>
      exact ⟨handle_maybeOpen t, opened_maybeOpen t, (finished_maybeOpen t).trans hf, _,
        adds_maybeOpen t, fun h => absurd h Bool.false_ne_true⟩
    | failed => exact hclose .failure
    | disconnected => exact hclose .remote
    | closed => exact hclose .remote
    | _ => exact hquiet
  | onIceConnectionStateChange state =>
    cases state with
    | failed => exact hclose .failure
    | _ => exact hquiet
  | other => exact hquiet

theorem Follows.next {t b : Tunnel P} {seen : Seen} (h : t.Follows b seen)
    (hc : seen.closed = false) (pc : P.Pc) (event : PeerConnectionEvent) :
    t.Follows ({ b with pc := pc }.handleEvent event)
      ⟨seen.opened || opening t.handle pc event, (closing event).isSome⟩ := by
  obtain ⟨es, hadds, _⟩ := h.adds
  have hf : b.finished = false := h.closed.trans hc
  have he := follows_handleEvent (t := { b with pc := pc }) hf event
  obtain ⟨fs, hfs, hlast⟩ := he.adds
  have hbody : b.Adds { b with pc := pc } [] := .of_eq rfl rfl rfl
  refine ⟨he.handle.trans h.handle, ?_, he.closed, es ++ fs, ?_, fun hclosed => ?_⟩
  · rw [he.opened, ← h.opened, ← h.handle]
  · exact (hadds.silent hbody).trans hfs
  · obtain ⟨front, reason, rfl⟩ := hlast hclosed
    exact ⟨es ++ front, reason, (List.append_assoc ..).symm⟩

/-- **The event loop follows the reports of the peer connection.** -/
theorem drainEvents_follows {t : Tunnel P} (hf : t.finished = false) :
    t.drainEvents.pc = t.watch.1 ∧ t.Follows t.drainEvents t.watch.2 := by
  have h := P.events.walk_related eventBody (watchBody t.handle)
    (R := fun b seen => t.Follows b seen) ?_ t.pc (follows_refl hf)
  · refine ⟨h.1, ?_⟩
    obtain ⟨hhandle, hopened, hclosed, es, hadds, hlast⟩ := h.2
    exact ⟨hhandle, hopened, hclosed, es, hadds.silent (.of_eq rfl rfl rfl), hlast⟩
  · intro pc event b seen hb
    unfold eventBody watchBody
    cases hc : seen.closed with
    | true =>
      rw [if_pos (hb.closed.trans hc)]
      exact .none
    | false =>
      rw [if_neg (by rw [hb.closed, hc]; exact Bool.false_ne_true)]
      exact .some (hb.next hc pc event)

theorem adds_drainReads (t : Tunnel P) :
    (∃ es, t.Adds t.drainReads es) ∧ t.drainReads.handle = t.handle ∧
      t.drainReads.opened = t.opened ∧ t.drainReads.finished = t.finished := by
  have h := P.reads.walk_induction readBody
    (P := fun _ b r => (∃ es, b.Adds r es) ∧ r.handle = b.handle ∧ r.opened = b.opened ∧
      r.finished = b.finished)
    (fun b => ⟨⟨[], .refl b⟩, rfl, rfl, rfl⟩) (fun _ _ _ b _ => ⟨⟨[], .refl b⟩, rfl, rfl, rfl⟩)
    (fun _ message _ b b' r hb hr => ?_) t.pc t
  · obtain ⟨⟨es, he⟩, hrest⟩ := h
    exact ⟨⟨es, he.silent (.of_eq rfl rfl rfl)⟩, hrest⟩
  · obtain ⟨⟨es, he⟩, hhandle, hopened, hfinished⟩ := hr
    unfold readBody at hb
    split at hb
    · cases hb
    · cases hb
      cases message with
      | dataChannelMessage data =>
        have hm : b.Adds (b.handleMessage (.dataChannelMessage data)) [.message data] :=
          ⟨rfl, rfl, rfl⟩
        exact ⟨⟨_, hm.trans he⟩, hhandle, hopened, hfinished⟩
      | other => exact ⟨⟨es, he⟩, hhandle, hopened, hfinished⟩

/-- A finished tunnel drops the message it polls. -/
theorem drainReads_finished {t : Tunnel P} (hf : t.finished = true) :
    t.drainReads = { t with pc := (P.reads.poll t.pc).2 } := by
  unfold drainReads
  cases hp : P.reads.poll t.pc with
  | mk o pc =>
    cases o with
    | none => rw [P.reads.walk_none readBody t hp]
    | some message =>
      rw [P.reads.walk_break readBody hp (by rw [readBody, if_pos hf])]

/-- Behind a close that the event loop reported there is nothing more to send, and a channel
that opens only then is no news. -/
def SilentBehind (t : Tunnel P) : Prop :=
  t.drainWrites.watch.2.closed = true →
    (P.writes.drain t.drainWrites.watch.1).1 = [] ∧
      (t.drainWrites.watch.2.opened = true ∨
        openAt P t.handle (P.reads.poll (P.writes.drain t.drainWrites.watch.1).2).2 = false)

instance decidableSilentBehind (t : Tunnel P) : Decidable t.SilentBehind :=
  inferInstanceAs (Decidable (_ → _))

theorem terminal_append_of_forall {es fs : List Event} (h : ∀ e ∈ es, ¬ e.isClosed = true) :
    Terminal (fun e => e.isClosed = true) (es ++ fs) ↔
      Terminal (fun e => e.isClosed = true) fs := by
  rw [terminal_append]
  exact ⟨fun ht => ht.2.1, fun ht => ⟨terminal_of_forall h, ht, .inr h⟩⟩

theorem sent_eq_nil {ws : List Bytes} : sent ws = [] ↔ ws = [] := List.map_eq_nil_iff

theorem openingOut_eq_nil {t : Tunnel P} :
    t.openingOut = [] ↔ t.opened = true ∨ openAt P t.handle t.pc = false := by
  unfold openingOut
  rw [channelOpen_eq]
  cases t.opened <;> cases openAt P t.handle t.pc <;> simp

/-- **The events of a drain end with its close exactly when the peer connection is silent
behind it.** -/
theorem drain_terminal {t : Tunnel P} (hf : t.finished = false) :
    ∃ es, t.Adds t.drain es ∧
      (Terminal (fun e => e.isClosed = true) es ↔ t.SilentBehind) := by
  have hw := adds_drainWrites t
  obtain ⟨hpc, hfollows⟩ := drainEvents_follows (t := t.drainWrites) hf
  obtain ⟨es, hes, hlast⟩ := hfollows.adds
  have hloop := hw.trans hes
  have hopened := hfollows.opened
  have hhandle := hfollows.handle
  have hsecond := adds_drainWrites t.drainWrites.drainEvents
  rw [hpc] at hsecond
  have hclosed := hfollows.closed
  unfold SilentBehind drain
  generalize t.drainWrites.drainEvents = r at hopened hhandle hclosed hloop hsecond hpc ⊢
  generalize t.drainWrites.watch = w at hopened hclosed hlast hsecond hpc ⊢
  cases hc : w.2.closed with
  | false =>
    obtain ⟨⟨ms, hms⟩, _, _, hfinished⟩ := adds_drainReads r.drainWrites
    have hall := (((hloop.trans hsecond).trans hms).trans (adds_maybeOpen _)).silent
      (adds_sampleHandshake _)
    refine ⟨_, hall, fun _ h => absurd h Bool.false_ne_true, fun _ => ?_⟩
    refine terminal_of_forall (hall.not_closed ?_)
    have hsample := (emits_sampleHandshake r.drainWrites.drainReads.maybeOpen).finished
    rw [List.isEmpty_nil, Bool.not_true, Bool.or_false] at hsample
    rw [hsample, finished_maybeOpen, hfinished]
    exact hclosed.trans hc
  | true =>
    have hfin : r.drainWrites.finished = true := hclosed.trans hc
    have hreads : r.drainWrites.Adds r.drainWrites.drainReads [] := by
      rw [drainReads_finished hfin]
      exact .of_eq rfl rfl rfl
    have hall := (((hloop.trans hsecond).silent hreads).trans (adds_maybeOpen _)).silent
      (adds_sampleHandshake _)
    refine ⟨_, hall, ?_⟩
    obtain ⟨front, reason, rfl⟩ := hlast hc
    have hfront : ∀ e ∈ sent (P.writes.drain t.pc).1 ++ front, ¬ e.isClosed = true := by
      have hcount := hloop.closed
      rw [← List.append_assoc, List.countP_append, hf, hclosed, hc] at hcount
      refine List.countP_eq_zero.mp ?_
      have hone : [Event.closed reason].countP Event.isClosed = 1 := rfl
      rw [hone, Bool.toNat_false, Bool.toNat_true] at hcount
      omega
    rw [← List.append_assoc (sent _) front, List.append_assoc _ [_], List.append_assoc _ ([_] ++ _),
      List.append_assoc [_], List.singleton_append, terminal_append_cons hfront rfl,
      List.append_eq_nil_iff, sent_eq_nil, openingOut_eq_nil, drainReads_finished hfin]
    rw [← hpc, ← hopened]
    have hh : r.handle = t.handle := hhandle
    rw [← hh]
    exact ⟨fun h _ => h, fun h => h rfl⟩

/-- The one operation that may drain a finished tunnel. -/
def Op.isAnswer : Op → Bool
  | .applyRemoteAnswerSdp _ => true
  | _ => false

theorem adds_ingest (t : Tunnel P) (now : Instant) (datagram : Bytes) :
    t.Adds ({ t with lastNow := now }.ingest now datagram) [] := by
  unfold ingest
  dsimp only
  split <;> exact .of_eq rfl rfl rfl

theorem adds_sendOpening (t : Tunnel P) :
    ∃ es, t.Adds (if t.opened then t else t.maybeOpen) es := by
  split
  · exact ⟨[], .refl t⟩
  · exact ⟨_, adds_maybeOpen t⟩

/-- What comes before the drain of an operation. -/
theorem adds_drainEntry {t s : Tunnel P} {op : Op} (hop : op.isAnswer = false)
    (h : t.drainEntry op = some s) : t.finished = false ∧ ∃ es, t.Adds s es := by
  cases op with
  | receive nowMs datagram =>
    simp only [drainEntry] at h
    split at h
    · cases h
    · rename_i hf
      cases h
      exact ⟨Bool.eq_false_iff.mpr hf, [], adds_ingest t _ datagram⟩
  | receiveDeferred nowMs datagram =>
    simp only [drainEntry] at h
    split at h
    · cases h
    · rename_i hn
      cases h
      simp only [Bool.or_eq_true, not_or, Bool.not_eq_true] at hn
      exact ⟨hn.1, [], adds_ingest t _ datagram⟩
  | finishInputBatch =>
    simp only [drainEntry] at h
    split at h
    · cases h
    · rename_i hn
      cases h
      simp only [Bool.or_eq_true, not_or, Bool.not_eq_true] at hn
      exact ⟨hn.1, [], .refl t⟩
  | tick nowMs =>
    simp only [drainEntry] at h
    split at h
    · cases h
    · rename_i hn
      cases h
      simp only [Bool.or_eq_true, not_or, Bool.not_eq_true] at hn
      exact ⟨hn.1, [], .of_eq rfl rfl rfl⟩
  | send message =>
    obtain ⟨es, hes⟩ := adds_sendOpening t
    rw [drainEntry] at h
    split at h
    · cases h
    · rename_i hf
      refine ⟨Bool.eq_false_iff.mpr hf, es, ?_⟩
      dsimp only at h
      generalize (if t.opened = true then t else t.maybeOpen) = r at h hes
      split at h
      · cases h
      · split at h
        · cases h
        · split at h
          · cases h
          · cases h
            exact hes.silent (.of_eq rfl rfl rfl)
  | applyRemoteAnswerSdp sdp => cases hop
  | _ => cases h

/-- An operation that does not drain adds an opening or a close at most. -/
theorem adds_undrained {t : Tunnel P} {op : Op} (hop : op.isAnswer = false)
    (h : t.drainEntry op = none) (hf : t.finished = false) :
    ∃ es, t.Adds (t.step op) es ∧ Terminal (fun e => e.isClosed = true) es := by
  have hnothing : ∀ {r : Tunnel P}, t.Adds r [] →
      ∃ es, t.Adds r es ∧ Terminal (fun e => e.isClosed = true) es :=
    fun hr => ⟨[], hr, terminal_nil⟩
  have hfinish : ∀ {s : Tunnel P} (reason : CloseReason), t.Adds s [] → s.finished = false →
      ∃ es, t.Adds (s.finish reason) es ∧ Terminal (fun e => e.isClosed = true) es :=
    fun reason hs hfs => ⟨_, hs.trans (adds_finish hfs reason), List.pairwise_singleton _ _⟩
  cases op with
  | receive nowMs datagram => simp [drainEntry, hf] at h
  | receiveDeferred nowMs datagram =>
    have ho : t.opened = true := by
      cases ho : t.opened with
      | true => rfl
      | false => simp [drainEntry, hf, ho] at h
    rw [step, receiveDeferred, if_neg (by simp [hf])]
    dsimp only
    rw [if_neg (by simp [ho])]
    exact hnothing (adds_ingest t _ datagram)
  | finishInputBatch =>
    have ho : t.opened = false := by
      cases ho : t.opened with
      | false => rfl
      | true => simp [drainEntry, hf, ho] at h
    rw [step, finishInputBatch, if_pos (by simp [ho])]
    exact hnothing (.refl t)
  | tick nowMs =>
    simp only [drainEntry, hf, Bool.false_or] at h
    split at h
    · rename_i hlate
      rw [step, tick, if_neg (by simp [hf])]
      dsimp only
      rw [if_pos hlate]
      exact hfinish .timeout (.of_eq rfl rfl rfl) hf
    · cases h
  | send message =>
    obtain ⟨es, hes⟩ := adds_sendOpening t
    have hfinished : (if t.opened then t else t.maybeOpen).finished = false := by
      split
      · exact hf
      · exact (finished_maybeOpen t).trans hf
    refine ⟨es, ?_, terminal_of_forall (hes.not_closed hfinished)⟩
    simp only [drainEntry, hf, Bool.false_eq_true, if_false] at h
    rw [step, send, if_neg (by simp [hf])]
    dsimp only
    generalize (if t.opened = true then t else t.maybeOpen) = r at h hes ⊢
    split
    · exact hes
    · rename_i ho
      split
      · exact hes
      · rename_i hlong
        rw [if_neg (by simp [ho, hlong])] at h
        cases hdc : P.dataChannel r.pc r.handle with
        | none => exact hes
        | some dc =>
          rw [hdc] at h
          dsimp only at h ⊢
          split
          · exact hes
          · rename_i hcap
            rw [if_neg hcap] at h
            cases h
  | close =>
    rw [step, close, if_neg (by simp [hf])]
    exact hfinish .local (.of_eq rfl rfl rfl) hf
  | nextDeadline =>
    rw [step, nextDeadline, if_neg (by simp [hf])]
    exact hnothing (.of_eq rfl rfl rfl)
  | applyRemoteAnswerSdp sdp => cases hop
  | _ => exact hnothing (.of_eq rfl rfl rfl)

/-- A finished tunnel tells nothing more. -/
theorem adds_finished {t : Tunnel P} {op : Op} (hop : op.isAnswer = false)
    (hf : t.finished = true) : t.Adds (t.step op) [] := by
  cases op with
  | receive nowMs datagram =>
    rw [step, receive, if_pos hf]
    exact .refl t
  | receiveDeferred nowMs datagram =>
    rw [step, receiveDeferred, if_pos hf]
    exact .refl t
  | finishInputBatch =>
    rw [step, finishInputBatch, hf, Bool.true_or, if_pos rfl]
    exact .refl t
  | tick nowMs =>
    rw [step, tick, if_pos hf]
    exact .refl t
  | send message =>
    rw [step, send, if_pos hf]
    exact .refl t
  | close =>
    rw [step, close, if_pos hf]
    exact .refl t
  | nextDeadline =>
    rw [step, nextDeadline, if_pos hf]
    exact .refl t
  | applyRemoteAnswerSdp sdp => cases hop
  | _ => exact .of_eq rfl rfl rfl

/-- The condition on a step: where the event loop of its drain reports a close, the peer
connection is silent behind it. -/
def SilentClose (t : Tunnel P) (op : Op) : Prop := ∀ s ∈ t.drainEntry op, s.SilentBehind

instance decidableSilentClose (t : Tunnel P) (op : Op) : Decidable (t.SilentClose op) :=
  match h : t.drainEntry op with
  | none => .isTrue fun s hs => by cases h.symm.trans hs
  | some s => decidable_of_iff s.SilentBehind
      ⟨fun hb s' hs => by cases h.symm.trans hs; exact hb, fun hc => hc s h⟩

/-- What one operation adds, and when it ends with its close. -/
theorem step_terminal {t : Tunnel P} {op : Op} (hop : op.isAnswer = false) :
    ∃ es, t.Adds (t.step op) es ∧ (t.finished = true → es = []) ∧
      (Terminal (fun e => e.isClosed = true) es ↔ t.SilentClose op) := by
  cases hd : t.drainEntry op with
  | none =>
    have hcond : t.SilentClose op := by
      intro s hs
      rw [hd] at hs
      cases hs
    cases hf : t.finished with
    | true => exact ⟨[], adds_finished hop hf, fun _ => rfl, fun _ => hcond, fun _ => terminal_nil⟩
    | false =>
      obtain ⟨es, hes, hterm⟩ := adds_undrained hop hd hf
      exact ⟨es, hes, fun h => absurd h Bool.false_ne_true, fun _ => hcond, fun _ => hterm⟩
  | some s =>
    obtain ⟨hf, es, hes⟩ := adds_drainEntry hop hd
    have hfs : s.finished = false := by
      rw [(step_drainEntry hd).2.finished, hf]
      rfl
    obtain ⟨ds, hds, hterm⟩ := drain_terminal hfs
    have hcond : t.SilentClose op ↔ s.SilentBehind := by
      refine ⟨fun h => h s hd, fun h s' hs => ?_⟩
      cases hd.symm.trans hs
      exact h
    rw [(step_drainEntry hd).1, hcond, ← hterm, hf]
    exact ⟨es ++ ds, hes.trans hds, fun h => absurd h Bool.false_ne_true,
      terminal_append_of_forall (hes.not_closed hfs)⟩

/-- The events told since an earlier state. -/
def toldSince (t r : Tunnel P) : List Event := r.log.drop t.log.length

theorem Adds.toldSince {t r : Tunnel P} {es : List Event} (h : t.Adds r es) :
    t.toldSince r = es := by
  rw [Tunnel.toldSince, h.log, List.drop_left]

/-- **The events of a run are well formed exactly when the peer connection is silent behind
each close that it reports in a drain.** -/
theorem stream_iff (t : Tunnel P) (ops : List Op) (hops : ∀ op ∈ ops, op.isAnswer = false) :
    Stream (t.toldSince (run step t ops)) ↔ Meets step SilentClose t ops := by
  have hiff : (∃ es, t.Adds (run step t ops) es ∧ Stream es) ↔ Meets step SilentClose t ops := by
    refine iff_meets_among (A := fun op : Op => op.isAnswer = false)
      (I := fun r => ∃ es, t.Adds r es ∧ Stream es) (J := fun r => ∃ es, t.Adds r es)
      (fun r op hop => ?_) (fun r op hop _ => ?_) (fun r op hop => ?_) hops ⟨[], .refl t⟩
      ⟨[], .refl t, (Adds.refl t).stream terminal_nil⟩
    · rintro ⟨es, hes⟩
      obtain ⟨fs, hfs, _⟩ := step_terminal (t := r) hop
      exact ⟨es ++ fs, hes.trans hfs⟩
    · rintro ⟨es, hes, hstream⟩
      obtain ⟨fs, hfs, hnil, hterm⟩ := step_terminal (t := r) hop
      rw [← hterm]
      have hsplit : Terminal (fun e => e.isClosed = true) (es ++ fs) ↔
          Terminal (fun e => e.isClosed = true) fs := by
        cases hf : r.finished with
        | false => exact terminal_append_of_forall (hes.not_closed hf)
        | true =>
          rw [hnil hf, List.append_nil]
          exact ⟨fun _ => terminal_nil, fun _ => terminal_of_stream hstream⟩
      rw [← hsplit]
      constructor
      · rintro ⟨all, hall, hs⟩
        rw [← (hes.trans hfs).toldSince, hall.toldSince]
        exact terminal_of_stream hs
      · exact fun h => ⟨es ++ fs, hes.trans hfs, (hes.trans hfs).stream h⟩
    · rintro ⟨es, hes⟩ ⟨all, hall, hs⟩
      obtain ⟨fs, hfs, _⟩ := step_terminal (t := r) hop
      have hsplit : all = es ++ fs := by
        rw [← hall.toldSince, (hes.trans hfs).toldSince]
      refine ⟨es, hes, hes.stream ?_⟩
      have hterm := terminal_of_stream hs
      rw [hsplit, terminal_append] at hterm
      exact hterm.1
  rw [← hiff]
  constructor
  · intro h
    obtain ⟨es, hes⟩ := invariant_of_meets (I := fun r => ∃ es, t.Adds r es)
      (C := fun _ op => Op.isAnswer op = false) (fun r op ⟨es, hes⟩ hop => by
        obtain ⟨fs, hfs, _⟩ := step_terminal (t := r) hop
        exact ⟨es ++ fs, hes.trans hfs⟩) ⟨[], .refl t⟩ (meets_iff_forall.mpr hops)
    exact ⟨es, hes, hes.toldSince ▸ h⟩
  · rintro ⟨es, hes, h⟩
    rw [hes.toldSince]
    exact h

end Tunnel

namespace Script

open RtcTunnel.Base (okValue)
open RtcTunnel.Base.Poll (Source)
open RtcTunnel.Umbrella.Tunnel (step)

/-- As polling an event may, polling the close of the channel leaves a packet to send. -/
def answeringEvents : Source Pc PeerConnectionEvent where
  poll pc :=
    match pc.events with
    | [] => (none, pc)
    | .onDataChannel .onClose :: es =>
      (some (.onDataChannel .onClose), { pc with events := es, writes := pc.writes ++ [[2]] })
    | e :: es => (some e, { pc with events := es })
  pending pc := pc.events.length
  pending_lt {pc a} h := by
    split at h <;> simp_all

def answeringConnection : PeerConnectionApi := { peerConnection with events := answeringEvents }

theorem build_answering :
    (Tunnel.construct answeringConnection ⟨0, 0⟩ config localAddr 0 .new).isOk = true := by
  decide +kernel

def answeringTunnel : Tunnel answeringConnection := okValue _ build_answering

end Script

namespace Tunnel

/-- A packet that answers the close, and a channel that opened behind a failure, are told
after the close. -/
theorem told_after_close :
    Script.answeringTunnel.toldSince
        (run step Script.answeringTunnel [.receive 1 [0], .receive 2 [2]]) =
      [.opened, .closed .remote, .sendDatagram [2]] ∧
    ¬ Stream (Script.answeringTunnel.toldSince
        (run step Script.answeringTunnel [.receive 1 [0], .receive 2 [2]])) ∧
    Script.tunnel.toldSince (run step Script.tunnel [.receive 1 [1, 0]]) =
      [.closed .failure, .opened] ∧
    ¬ Stream (Script.tunnel.toldSince (run step Script.tunnel [.receive 1 [1, 0]])) := by
  have hsent : Script.answeringTunnel.toldSince
      (run step Script.answeringTunnel [.receive 1 [0], .receive 2 [2]]) =
        [.opened, .closed .remote, .sendDatagram [2]] := by
    decide +kernel
  have hopened : Script.tunnel.toldSince (run step Script.tunnel [.receive 1 [1, 0]]) =
      [.closed .failure, .opened] := by
    decide +kernel
  refine ⟨hsent, fun h => ?_, hopened, fun h => ?_⟩
  · rw [hsent] at h
    have hlast := List.rel_of_pairwise_cons (List.pairwise_cons.mp h.closedLast).2
      (List.mem_singleton_self (Event.sendDatagram [2])) rfl
    exact hlast.2.2 [2] rfl
  · rw [hopened] at h
    have hlast := List.rel_of_pairwise_cons h.closedLast (List.mem_singleton_self Event.opened) rfl
    exact hlast.1 rfl

/-- A channel that opens, brings a message and closes with an answer sent before. -/
theorem stream_iff_tunnel :
    Stream (Script.tunnel.toldSince
      (run step Script.tunnel [.receive 1 [0], .receive 2 [3, 7], .receive 3 [4, 2], .tick 4])) :=
  (stream_iff Script.tunnel [.receive 1 [0], .receive 2 [3, 7], .receive 3 [4, 2], .tick 4]
    (by decide)).mpr (by decide +kernel)

end Tunnel

end RtcTunnel.Umbrella
