import RtcTunnel.Driver.Ledger

/-!
# The accounts of the queue

`handle.send` and the flush of the queue are the only code that moves a message. The
accounts say where each message is, and that the driver's count of queued bytes is the
sum it stands for.
-/

namespace RtcTunnel.Driver

open RtcTunnel.Core
open RtcTunnel.Base.Run

set_option autoImplicit false

/-- Where a message can be that was given to an open connection. -/
inductive Place where
  | accepted
  | waiting
  | refused
  | rejected
  | discarded
  deriving DecidableEq

/-- The place an effect puts a message in. An answer that is neither of the other three
is that of a channel which is not open; a message that is too large is thrown back to the
caller, unless it comes from the queue. -/
def Effect.puts (p : Packet) (queued : Bool) : Effect → Option Place
  | .engine (.send q result) =>
    if q ≠ p then none
    else if result = sendAccepted then some .accepted
    else if result = sendBackpressure then none
    else if result = sendTooLarge ∧ queued = false then none
    else some .discarded
  | .sent q .refused => if q = p then some .refused else none
  | .sent q .tooLarge => if q = p then some .rejected else none
  | _ => none

/-- The message of an entry. -/
def Effect.packet : Effect → Option Packet
  | .engine (.send packet _) => some packet
  | .sent packet _ => some packet
  | _ => none

/-- The message that an open connection was given. -/
def Effect.offers : Effect → Option Packet
  | .sent _ .ignored => none
  | .sent packet _ => some packet
  | _ => none

def Effect.refuses : Effect → Bool
  | .sent _ .refused => true
  | _ => false

/-- The bytes of messages. -/
def bytes (queue : List Packet) : Int := (queue.map fun p => (p.data.length : Int)).sum

namespace Outgoing

/-- The message was queued by its sender. -/
def queued (b : Outgoing) (p : Packet) : Bool := decide (.sent p .queued ∈ b.entries)

/-- Every place the message is in, as often as it is there. -/
def places (b : Outgoing) (p : Packet) : List Place :=
  b.entries.filterMap (Effect.puts p (b.queued p)) ++
    (b.queue.filter (· = p)).map fun _ => .waiting

def offered (b : Outgoing) : List Packet := b.entries.filterMap Effect.offers

/-- The accounts balance. -/
structure Balanced (b : Outgoing) : Prop where
  nonneg : (F64.ofInt 0).le b.options.maxQueuedBytes = true
  bytes : b.queuedBytes = bytes b.queue
  bounded : (F64.ofInt b.queuedBytes).le b.options.maxQueuedBytes = true
  refused : b.refusedSends = b.entries.countP Effect.refuses
  fresh : ∀ e ∈ b.entries, ∀ p, e.packet = some p → p.id < b.sends
  waiting : ∀ p ∈ b.queue, .sent p .queued ∈ b.entries
  placed : b.closed = false → ∀ p ∈ b.offered, (b.places p).length = 1

/-- The message of the next `handle.send`. -/
def packet (b : Outgoing) (data : Bytes) : Packet := ⟨b.sends, data⟩

/-- The entries of one `handle.send`. -/
def post (b : Outgoing) (entries : List Effect) : Outgoing :=
  { b with sends := b.sends + 1, entries := b.entries ++ entries }

/-- What `handle.send` makes of an answer, other than backpressure. -/
def outcome (result : Nat) : SendOutcome :=
  if result = sendAccepted then .accepted
  else if result = sendTooLarge then .tooLarge
  else .dropped

/-- **What one `handle.send` writes**, on a connection that is open or not. -/
inductive Posts (b : Outgoing) (data : Bytes) : Bool → Outgoing → Prop where
  | ignored : Posts b data false (b.post [.sent (b.packet data) .ignored])
  | answered (result : Nat) (hr : result ≠ sendBackpressure) : Posts b data true
      (b.post [.engine (.send (b.packet data) result), .sent (b.packet data) (outcome result)])
  | refused : Posts b data true
      { b.post [.engine (.send (b.packet data) sendBackpressure), .sent (b.packet data) .refused] with
        refusedSends := b.refusedSends + 1 }
  | waits (hfit : b.options.maxQueuedBytes.lt (.ofInt (b.queuedBytes + data.length)) = false) :
      Posts b data true
        { b.post [.engine (.send (b.packet data) sendBackpressure), .sent (b.packet data) .queued] with
          queue := b.queue ++ [b.packet data]
          queuedBytes := b.queuedBytes + data.length }

theorem puts_other {p : Packet} {e : Effect} (h : e.packet ≠ some p) (queued : Bool) :
    e.puts p queued = none := by
  cases e with
  | engine c =>
    cases c with
    | send q result => exact if_pos fun hq => h (congrArg some hq)
    | _ => rfl
  | sent q outcome =>
    have hq : ¬ q = p := fun hq => h (congrArg some hq)
    cases outcome with
    | refused => exact if_neg hq
    | tooLarge => exact if_neg hq
    | _ => rfl
  | _ => rfl

theorem puts_others {p : Packet} {es : List Effect} (h : ∀ e ∈ es, e.packet ≠ some p)
    (queued : Bool) : es.filterMap (Effect.puts p queued) = [] :=
  List.filterMap_eq_nil_iff.mpr fun e he => puts_other (h e he) queued

theorem packet_of_offers {e : Effect} {p : Packet} (h : e.offers = some p) : e.packet = some p := by
  cases e with
  | sent q outcome =>
    cases outcome with
    | ignored => cases h
    | _ => exact h
  | _ => cases h

theorem mem_offered {b : Outgoing} {p : Packet} :
    p ∈ b.offered ↔ ∃ e ∈ b.entries, e.offers = some p := List.mem_filterMap

variable {b c : Outgoing} {es : List Effect} {more : List Packet} {data : Bytes} {p : Packet}

theorem Balanced.unsent (hb : b.Balanced) (data : Bytes) :
    ∀ e ∈ b.entries, e.packet ≠ some (b.packet data) := fun e he hp =>
  Nat.lt_irrefl _ (hb.fresh e he _ hp)

/-- Another message stays where it is. -/
theorem places_other (he : c.entries = b.entries ++ es) (hes : ∀ e ∈ es, e.packet ≠ some p)
    (hq : c.queue.filter (· = p) = b.queue.filter (· = p)) : c.places p = b.places p := by
  have hqueued : c.queued p = b.queued p := by
    have hm : ∀ outcome, .sent p outcome ∉ es := fun outcome hm => hes _ hm rfl
    simp [queued, he, hm]
  rw [places, places, he, List.filterMap_append, hqueued, puts_others hes, List.append_nil, hq]

/-- The message of the call is where the entries of the call put it. -/
theorem places_posted (more : List Packet) (hb : b.Balanced) (he : c.entries = b.entries ++ es)
    (hq : c.queue = b.queue ++ more) : c.places (b.packet data) =
      es.filterMap (Effect.puts (b.packet data) (decide (.sent (b.packet data) .queued ∈ es))) ++
        (more.filter (· = b.packet data)).map fun _ => .waiting := by
  have hold := hb.unsent data
  have hqueued : c.queued (b.packet data) = decide (.sent (b.packet data) .queued ∈ es) := by
    have hm : .sent (b.packet data) .queued ∉ b.entries := fun hm => hold _ hm rfl
    simp [queued, he, hm]
  have hnone : b.queue.filter (· = b.packet data) = [] := by
    rw [List.filter_eq_nil_iff]
    intro q hm hp
    have hp : q = b.packet data := by simpa using hp
    exact hold _ (hb.waiting q hm) (hp ▸ rfl)
  rw [places, he, hq, List.filterMap_append, puts_others hold, List.nil_append, hqueued,
    List.filter_append, hnone, List.nil_append]

/-- What one call of `handle.send` keeps. -/
theorem balanced_post (data : Bytes) (more : List Packet) (hb : b.Balanced) (hoptions : c.options = b.options)
    (hclosed : c.closed = b.closed) (hsends : c.sends = b.sends + 1)
    (he : c.entries = b.entries ++ es) (hes : ∀ e ∈ es, e.packet = some (b.packet data))
    (hq : c.queue = b.queue ++ more) (hmore : ∀ q ∈ more, q = b.packet data)
    (hbytes : c.queuedBytes = b.queuedBytes + Driver.bytes more)
    (hbound : (F64.ofInt c.queuedBytes).le b.options.maxQueuedBytes = true)
    (hrefused : c.refusedSends = b.refusedSends + es.countP Effect.refuses)
    (hwaiting : more ≠ [] → .sent (b.packet data) .queued ∈ es)
    (hone : b.packet data ∈ es.filterMap Effect.offers →
      (c.places (b.packet data)).length = 1) : c.Balanced where
  nonneg := hoptions ▸ hb.nonneg
  bytes := by
    rw [hbytes, hq, hb.bytes, Driver.bytes, Driver.bytes, Driver.bytes, List.map_append,
      List.sum_append]
  bounded := hoptions ▸ hbound
  refused := by rw [hrefused, he, List.countP_append, hb.refused]
  fresh e hm q hp := by
    rw [hsends]
    rcases List.mem_append.mp (he ▸ hm) with hm | hm
    · have := hb.fresh e hm q hp
      omega
    · rw [hes e hm] at hp
      cases hp
      exact Nat.lt_succ_self _
  waiting q hm := by
    rw [he]
    rcases List.mem_append.mp (hq ▸ hm) with hm | hm
    · exact List.mem_append_left _ (hb.waiting q hm)
    · have hne : more ≠ [] := List.ne_nil_of_mem hm
      rw [hmore q hm]
      exact List.mem_append_right _ (hwaiting hne)
  placed hc q hm := by
    rw [offered, he, List.filterMap_append] at hm
    by_cases hp : q = b.packet data
    · subst hp
      rcases List.mem_append.mp hm with hm | hm
      · obtain ⟨e, hm, ho⟩ := mem_offered.mp hm
        exact absurd (packet_of_offers ho) (hb.unsent data e hm)
      · exact hone hm
    · have hother : ∀ e ∈ es, e.packet ≠ some q := by
        intro e hm hq
        rw [hes e hm] at hq
        exact hp (Option.some.inj hq).symm
      rcases List.mem_append.mp hm with hm | hm
      · have hnone : more.filter (· = q) = [] := by
          rw [List.filter_eq_nil_iff]
          intro r hm hr
          have hr : r = q := by simpa using hr
          exact hp (hr ▸ hmore r hm)
        rw [places_other he hother (by rw [hq, List.filter_append, hnone, List.append_nil])]
        exact hb.placed (hclosed ▸ hc) q hm
      · obtain ⟨e, hm, ho⟩ := List.mem_filterMap.mp hm
        exact absurd (packet_of_offers ho) (hother e hm)

theorem balanced_posts {live : Bool} (hb : b.Balanced) (h : b.Posts data live c) : c.Balanced := by
  have hkeep : b.queue = b.queue ++ [] := (List.append_nil _).symm
  have hnone : b.queuedBytes = b.queuedBytes + Driver.bytes [] := (Int.add_zero _).symm
  have hmem : ∀ {x y : Effect}, x.packet = some (b.packet data) → y.packet = some (b.packet data) →
      ∀ e ∈ [x, y], e.packet = some (b.packet data) := by
    intro x y hx hy e he
    simp only [List.mem_cons, List.not_mem_nil, or_false] at he
    rcases he with rfl | rfl
    · exact hx
    · exact hy
  cases h with
  | ignored =>
    refine balanced_post data [] hb rfl rfl rfl rfl ?_ hkeep nofun hnone hb.bounded rfl
      (fun h => absurd rfl h) nofun
    intro e he
    rw [List.mem_singleton.mp he]
    rfl
  | answered result hr =>
    refine balanced_post data [] hb rfl rfl rfl rfl (hmem rfl rfl) hkeep nofun hnone
      hb.bounded ?_ (fun h => absurd rfl h) fun _ => ?_
    · unfold outcome
      split
      · rfl
      · split <;> rfl
    · rw [places_posted (c := b.post _) [] hb rfl hkeep]
      unfold outcome
      by_cases hacc : result = sendAccepted
      · subst hacc
        simp [Effect.puts]
      · by_cases htoo : result = sendTooLarge
        · subst htoo
          simp [Effect.puts, sendTooLarge, sendAccepted, sendBackpressure]
        · simp [Effect.puts, hacc, htoo, hr]
  | refused =>
    refine balanced_post data [] hb rfl rfl rfl rfl (hmem rfl rfl) hkeep nofun hnone
      hb.bounded rfl (fun h => absurd rfl h) fun _ => ?_
    rw [places_posted (c := { b.post _ with refusedSends := _ }) [] hb rfl hkeep]
    simp [Effect.puts, sendBackpressure, sendAccepted]
  | waits hfit =>
    refine balanced_post data [b.packet data] hb rfl rfl rfl rfl (hmem rfl rfl)
      rfl (fun _ => List.mem_singleton.mp) ?_ ?_ rfl (fun _ => by simp) fun _ => ?_
    · simp [Driver.bytes, packet]
    · exact F64.le_of_not_lt (F64.ne_nan_of_ge hb.nonneg) nofun hfit
    · rw [places_posted (c := { b.post _ with queue := _, queuedBytes := _ })
        [b.packet data] hb rfl rfl]
      simp [Effect.puts, sendBackpressure, sendAccepted]

theorem offers_outcome (p : Packet) (result : Nat) :
    (Effect.sent p (outcome result)).offers = some p := by
  unfold outcome
  split
  · rfl
  · split <;> rfl

theorem offered_posts {live : Bool} (h : b.Posts data live c) :
    c.offered = b.offered ++ if live then [b.packet data] else [] := by
  cases h with
  | answered result hr =>
    have he : [Effect.engine (.send (b.packet data) result),
        .sent (b.packet data) (outcome result)].filterMap Effect.offers = [b.packet data] := by
      rw [List.filterMap_cons_none rfl, List.filterMap_cons_some (offers_outcome _ _)]
      rfl
    rw [offered, post, List.filterMap_append, he]
    rfl
  | _ => exact List.filterMap_append

/-- What the flush makes of the message in front: it stays, or it leaves the queue. -/
def retry (b : Outgoing) (next : Packet) : Outgoing :=
  { b with entries := b.entries ++ [.engine (.send next sendBackpressure)] }

def leave (b : Outgoing) (next : Packet) (rest : List Packet) (result : Nat) : Outgoing :=
  { b with queue := rest
           queuedBytes := b.queuedBytes - next.data.length
           entries := b.entries ++ [.engine (.send next result)] }

theorem offered_call (result : Nat) :
    (b.entries ++ [Effect.engine (.send p result)]).filterMap Effect.offers = b.offered := by
  simp [offered, Effect.offers]

theorem balanced_retry (hb : b.Balanced) {rest : List Packet} (hq : b.queue = p :: rest) :
    (b.retry p).Balanced where
  nonneg := hb.nonneg
  bytes := hb.bytes
  bounded := hb.bounded
  refused := by
    rw [retry, List.countP_append, hb.refused]
    rfl
  fresh e he q hp := by
    rcases List.mem_append.mp he with he | he
    · exact hb.fresh e he q hp
    · rw [List.mem_singleton.mp he] at hp
      cases hp
      exact hb.fresh _ (hb.waiting p (hq ▸ List.mem_cons_self ..)) p rfl
  waiting q hm := List.mem_append_left _ (hb.waiting q hm)
  placed hc q hm := by
    have hplaces : (b.retry p).places q = b.places q := by
      have hqueued : (b.retry p).queued q = b.queued q := by simp [queued, retry]
      have hputs : Effect.puts q (b.queued q) (.engine (.send p sendBackpressure)) = none := by
        simp [Effect.puts, sendBackpressure, sendAccepted]
      rw [places, hqueued, retry, List.filterMap_append, List.filterMap_cons_none hputs]
      simp [places]
    rw [hplaces]
    exact hb.placed hc q (offered_call (p := p) sendBackpressure ▸ hm)

theorem balanced_leave (hb : b.Balanced) {rest : List Packet} {result : Nat}
    (hq : b.queue = p :: rest) (hr : result ≠ sendBackpressure) :
    (b.leave p rest result).Balanced := by
  have hsent : .sent p .queued ∈ b.entries := hb.waiting p (hq ▸ List.mem_cons_self ..)
  have hlen : b.queuedBytes = p.data.length + Driver.bytes rest := by
    rw [hb.bytes, hq, Driver.bytes, List.map_cons, List.sum_cons]
    rfl
  have hrest : b.queuedBytes - p.data.length = Driver.bytes rest := by omega
  refine ⟨hb.nonneg, hrest, ?_, ?_, ?_, ?_, ?_⟩
  · refine F64.le_trans (F64.ofInt_le.mpr ?_) hb.bounded
    show b.queuedBytes - p.data.length ≤ b.queuedBytes
    omega
  · rw [leave, List.countP_append, hb.refused]
    rfl
  · intro e he q hp
    rcases List.mem_append.mp he with he | he
    · exact hb.fresh e he q hp
    · rw [List.mem_singleton.mp he] at hp
      cases hp
      exact hb.fresh _ hsent p rfl
  · intro q hm
    exact List.mem_append_left _ (hb.waiting q (hq ▸ List.mem_cons_of_mem _ hm))
  · intro hc q hm
    have hplaced := hb.placed hc q (offered_call (p := p) result ▸ hm)
    have hqueued : (b.leave p rest result).queued q = b.queued q := by simp [queued, leave]
    by_cases hp : q = p
    · subst hp
      have hputs : Effect.puts q (b.queued q) (.engine (.send q result)) =
          some (if result = sendAccepted then .accepted else .discarded) := by
        have hin : b.queued q = true := decide_eq_true hsent
        by_cases hacc : result = sendAccepted <;> simp [Effect.puts, hin, hacc, hr]
      rw [places, hq] at hplaced
      rw [places, hqueued, leave, List.filterMap_append, List.filterMap_cons_some hputs]
      simp at hplaced ⊢
      omega
    · have hother : Effect.puts q (b.queued q) (.engine (.send p result)) = none := by
        simp [Effect.puts, Ne.symm hp]
      rw [places, hq] at hplaced
      rw [places, hqueued, leave, List.filterMap_append, List.filterMap_cons_none hother]
      simpa [Ne.symm hp] using hplaced

/-- The close forgets the queue. -/
theorem balanced_close (hb : b.Balanced) :
    { b with closed := true, queue := [], queuedBytes := 0 }.Balanced where
  nonneg := hb.nonneg
  bytes := rfl
  bounded := hb.nonneg
  refused := hb.refused
  fresh := hb.fresh
  waiting := nofun
  placed := nofun

end Outgoing

namespace Connection

variable {E : EngineApi}

theorem outgoing_schedulePump (d : Connection E) : d.schedulePump.outgoing = d.outgoing := by
  unfold schedulePump
  split <;> rfl

/-- The entries of an answer that goes back to the sender. -/
theorem outgoing_answered (d : Connection E) (packet : Packet) (result : Nat) (outcome : SendOutcome)
    (engine : E.State) :
    ((d.call (.send packet result) engine).record (.sent packet outcome)).outgoing =
      { d.outgoing with
        entries := d.outgoing.entries ++ [.engine (.send packet result), .sent packet outcome] } := by
  simp [outgoing, call, record, List.filter_append, Effect.entered]

theorem posts_handleSend (d : Connection E) (data : Bytes) :
    d.outgoing.Posts data (!d.closed && d.opened) (d.handleSend data).outgoing := by
  have ha := outgoing_answered { d with sends := d.sends + 1 } ⟨d.sends, data⟩
  unfold handleSend
  dsimp only
  split
  · rename_i hclosed
    have hlive : (!d.closed && d.opened) = false := by
      cases hc : d.closed <;> simp_all
    have he : ({ d with sends := d.sends + 1 }.record (.sent ⟨d.sends, data⟩ .ignored)).outgoing =
        d.outgoing.post [.sent (d.outgoing.packet data) .ignored] := by
      simp [outgoing, record, List.filter_append, Effect.entered, Outgoing.post, Outgoing.packet]
    rw [he, hlive]
    exact .ignored
  · rename_i hopen
    have hlive : (!d.closed && d.opened) = true := by
      cases hc : d.closed <;> simp_all
    rw [hlive]
    split
    · rename_i hr
      rw [outgoing_schedulePump, ha, hr]
      exact .answered sendAccepted (by decide)
    · split
      · rename_i hr
        rw [ha, hr]
        exact .answered sendTooLarge (by decide)
      · split
        · rename_i hr
          have refused : ∀ engine : E.State,
              ({ { d with sends := d.sends + 1 }.call (.send ⟨d.sends, data⟩ sendBackpressure)
                  engine with refusedSends := d.refusedSends + 1 }.record
                (.sent ⟨d.sends, data⟩ .refused)).outgoing =
              { d.outgoing.post [.engine (.send (d.outgoing.packet data) sendBackpressure),
                  .sent (d.outgoing.packet data) .refused] with
                refusedSends := d.refusedSends + 1 } := by
            intro engine
            have h := congrArg (fun b : Outgoing => { b with refusedSends := d.refusedSends + 1 })
              (ha sendBackpressure .refused engine)
            exact h
          rw [hr]
          split
          · split
            · exact (congrArg (d.outgoing.Posts data true) (refused _)).mpr .refused
            · rename_i hfit
              have h := congrArg (fun b : Outgoing =>
                { b with queue := d.queue ++ [d.outgoing.packet data]
                         queuedBytes := d.queuedBytes + data.length })
                (ha sendBackpressure .queued (E.send d.engine data).2)
              exact (congrArg (d.outgoing.Posts data true) h).mpr (.waits (Bool.eq_false_iff.mpr hfit))
          · exact (congrArg (d.outgoing.Posts data true) (refused _)).mpr .refused
        · rename_i hacc htoo hback
          have ho : Outgoing.outcome (E.send d.engine data).1 = .dropped := by
            rw [Outgoing.outcome, if_neg hacc, if_neg htoo]
          have h : d.outgoing.Posts data true _ := .answered _ hback
          rw [ho] at h
          rw [ha]
          exact h

theorem balanced_flushFrom (queue : List Packet) (d : Connection E) (hq : d.queue = queue)
    (hb : d.outgoing.Balanced) : (flushFrom queue d).outgoing.Balanced := by
  induction queue generalizing d with
  | nil => exact hb
  | cons next rest ih =>
    have hlog : ∀ result, (d.log ++ [Effect.engine (.send next result)]).filter Effect.entered =
        d.outgoing.entries ++ [.engine (.send next result)] := by
      intro result
      rw [List.filter_append]
      rfl
    rw [flushFrom]
    split
    · rename_i hr
      have he : (d.call (.send next (E.send d.engine next.data).1)
          (E.send d.engine next.data).2).outgoing = d.outgoing.retry next := by
        rw [hr]
        simp only [outgoing, call, record, hlog]
        rfl
      rw [he]
      exact Outgoing.balanced_retry hb hq
    · rename_i hr
      refine ih _ rfl ?_
      have he : ((d.call (.send next (E.send d.engine next.data).1)
          (E.send d.engine next.data).2).shift next rest).outgoing =
          d.outgoing.leave next rest (E.send d.engine next.data).1 := by
        simp only [outgoing, call, record, shift, hlog]
        rfl
      rw [he]
      exact Outgoing.balanced_leave hb hq hr

theorem offered_flushFrom (queue : List Packet) (d : Connection E) :
    (flushFrom queue d).outgoing.offered = d.outgoing.offered := by
  induction queue generalizing d with
  | nil => rfl
  | cons next rest ih =>
    have hcall : ∀ result engine, (d.call (.send next result) engine).outgoing.offered =
        d.outgoing.offered := by
      intro result engine
      simp [outgoing, Outgoing.offered, call, record, Effect.entered, Effect.offers]
    rw [flushFrom]
    split
    · exact hcall _ _
    · rw [ih]
      exact hcall _ _

/-- The first half of the close. -/
theorem outgoing_finish {d : Connection E} (reason : Text) (hc : d.closed = false) :
    (d.finish reason).outgoing =
      { d.outgoing with closed := true, queue := [], queuedBytes := 0 } := by
  have ha := aside_cancelArmed { d with closed := true, closeReason := some reason }
  have hr := ((ha.trans (s := { d with closed := true, closeReason := some reason }.clearTimer)
    ⟨rfl, rfl⟩).record (e := .endpointClose) rfl).outgoing
  have h := congrArg (fun b : Outgoing => { b with queue := [], queuedBytes := 0 }) hr
  rw [finish, if_neg (by simp [hc])]
  exact h

theorem outgoing_onMessage (d : Connection E) (now : F64) (data : Bytes) :
    (d.onMessage now data).outgoing = d.outgoing := by
  unfold onMessage
  split
  · rfl
  · split
    · simp [outgoing, push, call, record, Effect.entered]
    · rfl

theorem outgoing_foldl {f : Connection E → Bytes → Connection E}
    (hf : ∀ (c : Connection E) data, (f c data).outgoing = c.outgoing) (datagrams : List Bytes)
    (d : Connection E) : (datagrams.foldl f d).outgoing = d.outgoing := by
  induction datagrams generalizing d with
  | nil => rfl
  | cons data datagrams ih => exact (ih _).trans (hf d data)

theorem outgoing_feed (d : Connection E) (now : F64) : (d.feed now).outgoing = d.outgoing := by
  have hcall : ∀ (c : Connection E) (call : EngineCall) (engine : E.State),
      (Effect.engine call).entered = false → (c.call call engine).outgoing = c.outgoing := by
    intro c call engine he
    simp [outgoing, Connection.call, record, he]
  unfold feed
  split
  · rename_i inputDeferred finishInputBatch _ _
    have hf := outgoing_foldl (f := fun d data => d.call (.inputDeferred data)
      (inputDeferred d.engine now data)) (fun c _ => hcall c _ _ rfl) d.inbound d
    rw [hcall _ _ _ rfl]
    exact hf
  · exact outgoing_foldl (f := fun d data => d.call (.input data) (E.input d.engine now data))
      (fun c _ => hcall c _ _ rfl) d.inbound d

theorem outgoing_flushInbound (d : Connection E) (now : F64) :
    (d.flushInbound now).outgoing = d.outgoing := by
  unfold flushInbound
  dsimp only
  split
  · rfl
  · exact outgoing_feed { d with inboundScheduled := false } now

theorem balanced_posting {d r : Connection E} {l : Label} (h : d.Posting l r)
    (hb : d.outgoing.Balanced) : r.outgoing.Balanced := by
  cases h with
  | aside _ _ h hg hr => exact h.outgoing ▸ hb
  | flush now m tasks hm hc => exact balanced_flushFrom _ m rfl (hm.outgoing ▸ hb)
  | finish now reason m hm hc =>
    have hmc : m.closed = false := (congrArg Outgoing.closed hm.outgoing).trans hc
    rw [outgoing_finish reason hmc, hm.outgoing]
    exact Outgoing.balanced_close hb
  | send data h => exact Outgoing.balanced_posts hb (posts_handleSend d data)
  | receive now data hi => exact outgoing_onMessage d now data ▸ hb
  | flushInbound now hi hs => exact outgoing_flushInbound d now ▸ hb

theorem offered_posting {d r : Connection E} {l : Label} (h : d.Posting l r) :
    r.outgoing.offered = d.outgoing.offered ++ d.gives l := by
  cases h with
  | aside _ _ h hg hr => rw [h.outgoing, hg, List.append_nil]
  | flush now m tasks hm hc =>
    have h := offered_flushFrom m.queue m
    rw [hm.outgoing] at h
    exact h.trans (List.append_nil _).symm
  | finish now reason m hm hc =>
    have hmc : m.closed = false := (congrArg Outgoing.closed hm.outgoing).trans hc
    rw [outgoing_finish reason hmc, hm.outgoing]
    exact (List.append_nil _).symm
  | send data h =>
    rw [Outgoing.offered_posts (posts_handleSend d data), gives, h, Bool.true_and]
    rfl
  | receive now data hi =>
    rw [outgoing_onMessage]
    exact (List.append_nil _).symm
  | flushInbound now hi hs =>
    rw [outgoing_flushInbound]
    exact (List.append_nil _).symm

theorem balanced_start (options : ResolvedOptions) (engine : E.State)
    (hm : (F64.ofInt 0).le options.maxQueuedBytes = true) :
    (start options engine).outgoing.Balanced where
  nonneg := hm
  bytes := rfl
  bounded := hm
  refused := rfl
  fresh := nofun
  waiting := nofun
  placed _ := nofun

/-- The messages given to `handle.send` while the connection was open. -/
def given (d : Connection E) (labels : List Label) : List Packet := outputs step gives d labels

/-- The accounts of a connection that was given these messages while it was open. -/
structure Accounts (d : Connection E) (options : ResolvedOptions) (given : List Packet) : Prop where
  bytes : d.queuedBytes = bytes d.queue
  bounded : (F64.ofInt d.queuedBytes).le options.maxQueuedBytes = true
  refused : d.refusedSends = d.log.countP Effect.refuses
  placed : d.closed = false → ∀ p ∈ given, ∃ place, d.outgoing.places p = [place]

theorem refuses_entered (e : Effect) (h : e.refuses = true) : e.entered = true := by
  cases e with
  | sent packet outcome => rfl
  | _ => cases h

theorem accounts_of_balanced {d : Connection E} {options : ResolvedOptions} {given : List Packet}
    (hb : d.outgoing.Balanced) (ho : d.options = options) (hg : d.outgoing.offered = given) :
    d.Accounts options given where
  bytes := hb.bytes
  bounded := ho ▸ hb.bounded
  refused := by
    have hr : d.refusedSends = (d.log.filter Effect.entered).countP Effect.refuses := hb.refused
    rw [hr, List.countP_filter]
    refine List.countP_congr fun e _ => ?_
    rw [Bool.and_eq_true]
    exact ⟨And.left, fun h => ⟨h, refuses_entered e h⟩⟩
  placed hc p hp := List.length_eq_one_iff.mp (hb.placed hc p (hg ▸ hp))

/-- **The accounts of the queue.** In every state reached the count of queued bytes is the
sum of the queued lengths and within the bound, and until the close every message that the
open connection was given is in one place, once. -/
theorem accounts_balance (options : ResolvedOptions) (engine : E.State) (labels : List Label)
    (hm : (F64.ofInt 0).le options.maxQueuedBytes = true) :
    (run step (start options engine) labels).Accounts options
      (given (start options engine) labels) := by
  refine accounts_of_balanced ?_ (options_run _ labels) ?_
  · exact invariant (I := fun d : Connection E => d.outgoing.Balanced)
      (fun d l => balanced_posting (posting_step d l)) labels (balanced_start options engine hm)
  · exact history_outputs (I := fun _ => True) (J := fun _ => True)
      (fun d : Connection E => d.outgoing.offered) (fun _ _ _ => trivial)
      (fun _ _ _ => trivial) (fun d l _ _ => offered_posting (posting_step d l)) trivial trivial

/-- The first message is accepted, the second waits, the third is accepted. -/
theorem accounts_balance_overtaking :
    (run step (Script.connection Script.batched) overtaking).Accounts Script.batched
        (given (Script.connection Script.batched) overtaking) ∧
      (given (Script.connection Script.batched) overtaking).map
          (run step (Script.connection Script.batched) overtaking).outgoing.places =
        [[.accepted], [.waiting], [.accepted]] :=
  ⟨accounts_balance Script.batched _ overtaking (by decide), by decide +kernel⟩

end Connection

end RtcTunnel.Driver
