import RtcTunnel.Driver.Events
import RtcTunnel.Driver.Silence

/-!
# The promise of a connection

The promise is settled in three places: behind `onOpen`, behind the close, and where its
executor ends. `Balance` says what holds wherever the code stands, `SettledOnce` what the
caller is promised.
-/

namespace RtcTunnel.Driver

open RtcTunnel.Core
open RtcTunnel.Base.Run

set_option autoImplicit false

/-- A call of `onOpen` or `onClose`. -/
def Effect.tells : Effect → Bool
  | .onOpen => true
  | .onClose _ => true
  | _ => false

def Task.settles : Task → Bool
  | .settleOpen => true
  | .finishRest _ => true
  | _ => false

theorem Effect.tells_of_inside {e : Effect} (h : e.inside = true) : e.tells = false := by
  cases e with
  | onOpen => cases h
  | onClose reason => cases h
  | _ => rfl

theorem Effect.isOnClose_of_tells {e : Effect} (h : e.tells = false) : e.isOnClose = false := by
  cases e with
  | onClose reason => cases h
  | _ => rfl

namespace Connection

variable {E : EngineApi}

/-- An `Opened` is applied to a connection that was closed before it opened. -/
def opensClosed (d : Connection E) : Label → Bool
  | .advance _ =>
    match d.stack with
    | .apply (.opened :: _) _ :: _ => d.closed && !d.opened
    | _ => false
  | _ => false

/-- What the callbacks were told and what the promise is to become. -/
structure Balance (d : Connection E) : Prop where
  onOpen : d.log.count .onOpen = d.opened.toNat
  onClose : Precedes (· = .onOpen) (fun e => e.isOnClose = true) d.log
  settleOpen : .settleOpen ∈ d.stack → d.opened = true
  resolved : d.promise = .resolved → d.opened = true
  handed : d.handed = true → d.promise = .resolved
  opening : d.promise = .pending → d.opened = true → .settleOpen ∈ d.stack
  closing : d.promise = .pending → d.closed = true → d.opened = false →
    ∃ reason, .finishRest reason ∈ d.stack
  rejected : ∀ why, d.promise = .rejected why →
    d.closed = true ∧ d.opened = false ∧ ∃ reason, why = .closedBeforeOpening reason

/-- What the caller is promised. -/
structure SettledOnce (d : Connection E) : Prop where
  /-- It resolves only after `onOpen`. -/
  resolved : d.promise = .resolved → .onOpen ∈ d.log
  /-- It rejects only if the connection closed first, and nothing is told then. -/
  rejected : ∀ why, d.promise = .rejected why → d.closed = true ∧ .onOpen ∉ d.log ∧
    (∀ reason, .onClose reason ∉ d.log) ∧ ∃ reason, why = .closedBeforeOpening reason
  /-- It does not stay pending once the connection is open or closed. -/
  settled : d.idle = true → d.promise = .pending → d.closed = false ∧ .onOpen ∉ d.log
  /-- It rejects if the connection closes first. -/
  closedFirst : d.idle = true → d.closed = true → .onOpen ∉ d.log →
    ∃ why, d.promise = .rejected why
  onOpen_once : d.log.count .onOpen ≤ 1
  onClose_once : d.log.countP Effect.isOnClose ≤ 1
  onClose_after : Precedes (· = .onOpen) (fun e => e.isOnClose = true) d.log

variable {d r : Connection E}

theorem balance_start (options : ResolvedOptions) (engine : E.State) :
    (start options engine).Balance where
  onOpen := rfl
  onClose := precedes_nil
  settleOpen h := by simp [start] at h
  resolved := nofun
  handed := nofun
  opening _ := nofun
  closing _ := nofun
  rejected _ := nofun

theorem Balance.opened_iff (h : d.Balance) : d.opened = true ↔ .onOpen ∈ d.log := by
  rw [← List.count_pos_iff, h.onOpen]
  cases d.opened <;> decide

/-- What is told does not change with effects that tell nothing. -/
theorem told_append {log es : List Effect} {n : Nat} (hc : log.count .onOpen = n)
    (hp : Precedes (· = .onOpen) (fun e : Effect => e.isOnClose = true) log)
    (he : ∀ e ∈ es, e.tells = false) : (log ++ es).count .onOpen = n ∧
      Precedes (· = .onOpen) (fun e : Effect => e.isOnClose = true) (log ++ es) := by
  constructor
  · have hz : es.count .onOpen = 0 := List.count_eq_zero.mpr fun hm => nomatch he _ hm
    rw [List.count_append, hz, hc, Nat.add_zero]
  · refine precedes_append hp (.inl (precedes_of_forall fun e hm hq => ?_))
    rw [Effect.isOnClose_of_tells (he e hm)] at hq
    cases hq

/-- Silent code that leaves the tasks that settle. -/
theorem Balance.keep (h : d.Balance) (hopened : r.opened = d.opened) (hclosed : r.closed = d.closed)
    (hpromise : r.promise = d.promise) (hhanded : r.handed = d.handed)
    (hlog : ∃ es, r.log = d.log ++ es ∧ ∀ e ∈ es, e.tells = false)
    (hstack : ∀ t, t.settles = true → (t ∈ r.stack ↔ t ∈ d.stack)) : r.Balance := by
  obtain ⟨es, hl, he⟩ := hlog
  obtain ⟨hcount, hafter⟩ := told_append h.onOpen h.onClose he
  refine ⟨?_, ?_, ?_, ?_, ?_, ?_, ?_, ?_⟩
  · rw [hl, hopened]
    exact hcount
  · rw [hl]
    exact hafter
  · rw [hopened, hstack _ rfl]
    exact h.settleOpen
  · rw [hopened, hpromise]
    exact h.resolved
  · rw [hhanded, hpromise]
    exact h.handed
  · rw [hopened, hpromise, hstack _ rfl]
    exact h.opening
  · intro hp hc ho
    obtain ⟨reason, hm⟩ := h.closing (hpromise ▸ hp) (hclosed ▸ hc) (hopened ▸ ho)
    exact ⟨reason, (hstack _ rfl).mpr hm⟩
  · rw [hpromise, hclosed, hopened]
    exact h.rejected

theorem Inside.tells (h : d.Inside r) : ∃ es, r.log = d.log ++ es ∧ ∀ e ∈ es, e.tells = false := by
  obtain ⟨es, hl, he⟩ := h.log
  exact ⟨es, hl, fun e hm => Effect.tells_of_inside (he e hm)⟩

/-- Code of a task that does not settle, with more tasks of that kind behind it. -/
theorem Balance.over {m : Connection E} (rest : List Task) (h : d.Balance)
    (hm : m.status = { d with stack := rest }.status)
    (hl : ∃ es, m.log = d.log ++ es ∧ ∀ e ∈ es, e.tells = false)
    (hr : ∀ t, t.settles = true → (t ∈ rest ↔ t ∈ d.stack)) (above : List Task)
    (ha : ∀ t ∈ above, t.settles = false) : (m.push above).Balance := by
  refine h.keep (congrArg Status.opened hm) (congrArg Status.closed hm)
    (congrArg Status.promise hm) (congrArg Status.handed hm) hl fun t ht => ?_
  have hstack : (m.push above).stack = above ++ rest :=
    congrArg (above ++ ·) (congrArg Status.stack hm)
  rw [hstack, List.mem_append, ← hr t ht]
  refine ⟨fun hx => hx.resolve_left fun hx => ?_, .inr⟩
  rw [ha t hx] at ht
  cases ht

theorem settles_rest {top : Task} {rest : List Task} (hs : d.stack = top :: rest)
    (ht : top.settles = false) (t : Task) (h : t.settles = true) : t ∈ rest ↔ t ∈ d.stack := by
  rw [hs, List.mem_cons]
  refine ⟨.inr, fun hx => hx.resolve_left fun hx => ?_⟩
  rw [hx, ht] at h
  cases h

/-- The first `Opened` of a connection that is not closed. -/
theorem Balance.opens {events : List EngineEvent} {source : Source} {tasks : List Task}
    (h : d.Balance) (ho : d.opened = false) (hc : d.closed = false) :
    (({ d with stack := tasks, opened := true }.record .onOpen).push
      [.callback, .settleOpen, .apply events source]).Balance := by
  refine ⟨?_, ?_, fun _ => rfl, fun _ => rfl, h.handed, ?_, fun _ _ => nofun, ?_⟩
  · have hcount : (d.log ++ [Effect.onOpen]).count Effect.onOpen = 1 := by
      rw [List.count_append, h.onOpen, ho]
      rfl
    exact hcount
  · refine precedes_append h.onClose (.inl (precedes_of_forall fun e hm hq => ?_))
    rw [List.mem_singleton.mp hm] at hq
    cases hq
  · exact fun _ _ => List.mem_cons_of_mem _ (List.mem_cons_self ..)
  · intro why hp
    exact absurd (hc.symm.trans (h.rejected why hp).1) nofun

/-- What a promise may become. -/
structure Outcome (d : Connection E) (p : Promise) : Prop where
  pending : p = .pending → d.opened = false ∧ d.closed = false
  resolved : p = .resolved → d.opened = true
  rejected : ∀ why, p = .rejected why →
    d.closed = true ∧ d.opened = false ∧ ∃ reason, why = .closedBeforeOpening reason

/-- A task that settles the promise, unless it is settled. -/
theorem Balance.settles {p : Promise} {b : Bool} {top : Task} {rest : List Task} (h : d.Balance)
    (hs : d.stack = top :: rest) (hp : d.Outcome p)
    (hst : r.status = { d.status with
      stack := rest, disposed := b
      promise := if d.promise = .pending then p else d.promise })
    (hl : ∃ es, r.log = d.log ++ es ∧ ∀ e ∈ es, e.tells = false) : r.Balance := by
  have hopened : r.opened = d.opened := congrArg Status.opened hst
  have hclosed : r.closed = d.closed := congrArg Status.closed hst
  have hstack : r.stack = rest := congrArg Status.stack hst
  have hpromise : r.promise = if d.promise = .pending then p else d.promise :=
    congrArg Status.promise hst
  have hpending : r.promise = .pending → d.opened = false ∧ d.closed = false := by
    rw [hpromise]
    split
    · exact hp.pending
    · exact fun hn => absurd hn ‹_›
  obtain ⟨es, hlog, he⟩ := hl
  obtain ⟨hcount, hafter⟩ := told_append h.onOpen h.onClose he
  refine ⟨?_, ?_, ?_, ?_, ?_, ?_, ?_, ?_⟩
  · rw [hlog, hopened]
    exact hcount
  · rw [hlog]
    exact hafter
  · rw [hstack, hopened]
    exact fun hm => h.settleOpen (hs ▸ List.mem_cons_of_mem _ hm)
  · rw [hpromise, hopened]
    split
    · exact hp.resolved
    · exact h.resolved
  · intro hh
    have hr := h.handed ((congrArg Status.handed hst).symm.trans hh)
    rw [hpromise, hr]
    rfl
  · intro hn ho
    exact absurd ((hpending hn).1.symm.trans (hopened.symm.trans ho)) nofun
  · intro hn hc
    exact absurd ((hpending hn).2.symm.trans (hclosed.symm.trans hc)) nofun
  · rw [hpromise, hopened, hclosed]
    split
    · exact hp.rejected
    · exact h.rejected

theorem Balance.finish_step {reason : Text} {rest : List Task} (h : d.Balance)
    (hs : d.stack = .finish reason :: rest) (hc : d.closed = false) :
    ({ d with stack := rest }.finish reason).Balance := by
  obtain ⟨hst, _, hlog⟩ := finish_status (d := { d with stack := rest }) reason hc
  have hstack : ({ d with stack := rest }.finish reason).stack =
    .callback :: .finishRest reason :: rest := congrArg Status.stack hst
  have hopened : ({ d with stack := rest }.finish reason).opened = d.opened :=
    congrArg Status.opened hst
  have hpromise : ({ d with stack := rest }.finish reason).promise = d.promise :=
    congrArg Status.promise hst
  have hhanded : ({ d with stack := rest }.finish reason).handed = d.handed :=
    congrArg Status.handed hst
  have hmem : .settleOpen ∈ ({ d with stack := rest }.finish reason).stack ↔ .settleOpen ∈ d.stack := by
    rw [hstack, hs]
    simp
  have hes : ∀ armed : Bool, ∀ e ∈ (if armed then [Effect.cancelTimer] else []) ++ [.endpointClose],
      e.tells = false := by decide
  obtain ⟨hcount, hafter⟩ := told_append h.onOpen h.onClose (hes d.timerArmed)
  refine ⟨?_, ?_, ?_, ?_, ?_, ?_, ?_, ?_⟩
  · rw [hlog, hopened]
    exact hcount
  · rw [hlog]
    exact hafter
  · rw [hmem, hopened]
    exact h.settleOpen
  · rw [hpromise, hopened]
    exact h.resolved
  · rw [hhanded, hpromise]
    exact h.handed
  · rw [hpromise, hopened, hmem]
    exact h.opening
  · intro _ _ _
    exact ⟨reason, hstack ▸ List.mem_cons_of_mem _ (List.mem_cons_self ..)⟩
  · intro why hp
    rw [hpromise] at hp
    exact absurd (hc.symm.trans (h.rejected why hp).1) nofun

/-- The second half of the close of a connection that was open. -/
theorem Balance.finishRest_opened {reason : Text} {rest : List Task} (h : d.Balance)
    (hs : d.stack = .finishRest reason :: rest) (ho : d.opened = true) :
    ({ d with stack := rest }.finishRest reason).Balance := by
  obtain ⟨hst, _, hlog⟩ := finishRest_status (d := { d with stack := rest }) reason
  have ho' : ({ d with stack := rest } : Connection E).opened = true := ho
  rw [if_pos ho'] at hst hlog
  have hopened := (congrArg Status.opened hst).trans ho
  have hpromise : ({ d with stack := rest }.finishRest reason).promise = d.promise :=
    congrArg Status.promise hst
  have hstack : ({ d with stack := rest }.finishRest reason).stack = .callback :: rest :=
    congrArg Status.stack hst
  have hhanded : ({ d with stack := rest }.finishRest reason).handed = d.handed :=
    congrArg Status.handed hst
  refine ⟨?_, ?_, fun _ => hopened, fun _ => hopened, ?_, ?_, ?_, ?_⟩
  · have hcount := h.onOpen
    rw [ho] at hcount
    have ht : ({ d with stack := rest }.finishRest reason).opened.toNat = 1 :=
      congrArg Bool.toNat hopened
    rw [hlog, List.count_append, ht]
    exact congrArg (· + 0) hcount
  · rw [hlog]
    exact precedes_append h.onClose (.inr ⟨_, h.opened_iff.mp ho, rfl⟩)
  · rw [hhanded, hpromise]
    exact h.handed
  · intro hp _
    have hm := h.opening (hpromise ▸ hp) ho
    rw [hs] at hm
    rw [hstack]
    exact List.mem_cons_of_mem _ ((List.mem_cons.mp hm).resolve_left nofun)
  · exact fun _ _ hn => absurd (hopened.symm.trans hn) nofun
  · intro why hp
    rw [hpromise] at hp
    exact absurd (ho.symm.trans (h.rejected why hp).2.1) nofun

theorem balance_step (l : Label) (hl : d.Ledger) (h : d.Balance) (hraise : l.isRaise = false)
    (hc : d.opensClosed l = false) : (d.step l).Balance := by
  have hact := action_step d l
  generalize d.step l = r at hact ⊢
  have one : ∀ t : Task, t.settles = false → ∀ x ∈ [t], x.settles = false :=
    fun t ht => List.forall_mem_singleton.mpr ht
  have here : ∀ t : Task, t.settles = true → (t ∈ d.stack ↔ t ∈ d.stack) := fun _ _ => Iff.rfl
  have self : ∀ rest : List Task, ∃ es, ({ d with stack := rest } : Connection E).log =
      d.log ++ es ∧ ∀ e ∈ es, e.tells = false := fun rest => ⟨[], (List.append_nil _).symm, nofun⟩
  cases hact with
  | nothing => exact h
  | send data =>
    obtain ⟨m, hm, hr⟩ := inside_handleSend d data
    rcases hr with hr | hr
    · rw [hr]
      exact h.over d.stack hm.status hm.tells here [] nofun
    · rw [hr]
      exact h.over d.stack hm.status hm.tells here _ (one _ rfl)
  | close ho hh hcl =>
    have hm := (Inside.refl d).call .close (E.close d.engine)
    refine h.over d.stack hm.status hm.tells here _ ?_
    exact List.forall_mem_cons.mpr ⟨rfl, one _ rfl⟩
  | stats =>
    have hm := inside_handleStats d
    exact h.over d.stack hm.status hm.tells here [] nofun
  | error message => exact h.over d.stack rfl (self d.stack) here _ (one _ rfl)
  | feed _ m hi hm hf => exact h.over d.stack hm.status hm.tells here _ (one _ rfl)
  | wait _ m hi hm hw => exact h.over d.stack hm.status hm.tells here [] nofun
  | resume hi hp =>
    exact ⟨h.onOpen, h.onClose, h.settleOpen, h.resolved, fun _ => hp, h.opening, h.closing,
      h.rejected⟩
  | ret rest hs => exact h.over rest rfl (self rest) (settles_rest hs rfl) [] nofun
  | raise => cases hraise
  | idles now task rest hs ht =>
    refine h.over rest rfl (self rest) (settles_rest hs ?_) [] nofun
    cases ht <;> rfl
  | pump now rest hs hcl =>
    have hm := inside_pumpHead { d with stack := rest } now
    refine h.over rest hm.status hm.tells (settles_rest hs rfl) [d.pumpLoop] (one _ ?_)
    unfold pumpLoop
    split <;> rfl
  | drain now events engine short rest hs hcl hd hshort =>
    have hm := (Inside.refl { d with stack := rest }).call .drainEvents engine
    exact h.over rest hm.status hm.tells (settles_rest hs rfl) _ (one _ rfl)
  | poll now event engine rest hs hp he =>
    have hm := (Inside.refl { d with stack := rest }).call .pollEvent engine
    exact h.over rest hm.status hm.tells (settles_rest hs rfl) _ (one _ rfl)
  | pollNone now engine rest hs hp =>
    have hm := (Inside.refl { d with stack := rest }).call .pollEvent engine
    exact h.over rest hm.status hm.tells (settles_rest hs rfl) [] nofun
  | apply now event events source rest hs =>
    have hr := settles_rest hs rfl
    cases event with
    | none => exact h.over rest rfl (self rest) hr _ (one _ rfl)
    | closed reason => exact h.over rest rfl (self rest) hr _ (one _ rfl)
    | datagram data =>
      refine h.over rest (m := { d with stack := rest }.record (.endpointSend data)) rfl
        ⟨_, rfl, List.forall_mem_singleton.mpr rfl⟩ hr _ ?_
      exact List.forall_mem_cons.mpr ⟨rfl, one _ rfl⟩
    | message data =>
      refine h.over rest (m := { d with stack := rest }.record (.onPacket data)) rfl
        ⟨_, rfl, List.forall_mem_singleton.mpr rfl⟩ hr _ ?_
      exact List.forall_mem_cons.mpr ⟨rfl, one _ rfl⟩
    | opened =>
      unfold applyEvent
      dsimp only
      split
      · exact h.over rest rfl (self rest) hr _ (one _ rfl)
      · rename_i ho
        have ho : d.opened = false := by simpa using ho
        refine h.opens ho ?_
        rw [opensClosed, hs] at hc
        simpa [ho] using hc
  | loop now source loop rest hs hloop =>
    refine h.over rest rfl (self rest) (settles_rest hs rfl) [loop] (one _ ?_)
    rcases source with (_ | _) | _ <;> cases hloop <;> rfl
  | settleOpen now rest hs =>
    obtain ⟨hst, _, hlog⟩ := settle_status (d := { d with stack := rest }) .resolved
    have ho : d.opened = true := h.settleOpen (hs ▸ List.mem_cons_self ..)
    refine h.settles hs ?_ hst ⟨[], hlog.trans (List.append_nil _).symm, nofun⟩
    exact ⟨nofun, fun _ => ho, nofun⟩
  | finish now reason rest hs hcl => exact h.finish_step hs hcl
  | finishRest now reason rest hs =>
    by_cases ho : d.opened = true
    · exact h.finishRest_opened hs ho
    · obtain ⟨hst, _, hlog⟩ := finishRest_status (d := { d with stack := rest }) reason
      have ho' : ¬ ({ d with stack := rest } : Connection E).opened = true := ho
      rw [if_neg ho'] at hst hlog
      refine h.settles hs ?_ hst ⟨_, hlog, List.forall_mem_singleton.mpr rfl⟩
      refine ⟨nofun, nofun, fun why hw => ?_⟩
      exact ⟨hl.closing hs, by simpa using ho, _, (Promise.rejected.inj hw).symm⟩
  | executorRest now rest hs =>
    obtain ⟨hst, _, hlog⟩ := executorRest_status (d := { d with stack := rest })
    refine h.settles hs ?_ hst ⟨[], hlog.trans (List.append_nil _).symm, nofun⟩
    by_cases ho : d.opened = true
    · simp only [ho, if_true]
      exact ⟨nofun, fun _ => ho, nofun⟩
    · by_cases hcl : d.closed = true
      · simp only [ho, hcl, if_true, if_false, Bool.false_eq_true]
        refine ⟨nofun, nofun, fun why hw => ?_⟩
        exact ⟨hcl, by simpa using ho, _, (Promise.rejected.inj hw).symm⟩
      · simp only [ho, hcl, if_false, Bool.false_eq_true]
        exact ⟨fun _ => ⟨by simpa using ho, by simpa using hcl⟩, nofun, nofun⟩

theorem Balance.settledOnce (h : d.Balance) (hl : d.Ledger) : d.SettledOnce := by
  have hnot : d.opened = false ↔ .onOpen ∉ d.log := by
    rw [← h.opened_iff, Bool.not_eq_true]
  have never : .onOpen ∉ d.log → ∀ reason, .onClose reason ∉ d.log := by
    intro hn reason hm
    exact h.onClose.not_mem_of_forall (fun e he ho => hn (ho ▸ he)) _ hm rfl
  have empty : d.idle = true → d.stack = [] := List.isEmpty_iff.mp
  refine ⟨fun hp => h.opened_iff.mp (h.resolved hp), ?_, ?_, ?_, ?_, hl.once, h.onClose⟩
  · intro why hp
    obtain ⟨hc, ho, hw⟩ := h.rejected why hp
    exact ⟨hc, hnot.mp ho, never (hnot.mp ho), hw⟩
  · intro hi hp
    have ho : d.opened = false := by
      by_contra hn
      have hm := h.opening hp (by simpa using hn)
      rw [empty hi] at hm
      cases hm
    refine ⟨?_, hnot.mp ho⟩
    by_contra hn
    obtain ⟨reason, hm⟩ := h.closing hp (by simpa using hn) ho
    rw [empty hi] at hm
    cases hm
  · intro hi hc hn
    cases hp : d.promise with
    | rejected why => exact ⟨why, rfl⟩
    | resolved => exact absurd (h.opened_iff.mp (h.resolved hp)) hn
    | pending =>
      obtain ⟨reason, hm⟩ := h.closing hp hc (hnot.mpr hn)
      rw [empty hi] at hm
      cases hm
  · rw [h.onOpen]
    exact Bool.toNat_le _

/-- What holds of a connection wherever its code stands, whatever its engine does. -/
structure Orderly (d : Connection E) : Prop where
  ledger : d.Ledger
  balance : d.Balance

theorem orderly_start (options : ResolvedOptions) (engine : E.State) :
    (start options engine).Orderly := ⟨ledger_start options engine, balance_start options engine⟩

theorem orderly_step (l : Label) (hraise : l.isRaise = false) (hc : d.opensClosed l = false)
    (h : d.Orderly) : (d.step l).Orderly :=
  ⟨ledger_turn (turn_step d l) h.ledger, balance_step l h.ledger h.balance hraise hc⟩

theorem orderly_run {labels : List Label} (h : d.Orderly) (hraise : ∀ l ∈ labels, l.isRaise = false)
    (hc : Meets step (fun d l => d.opensClosed l = false) d labels) : (run step d labels).Orderly :=
  invariant_of_meets (fun _ l h hm => orderly_step l hm.1 hm.2 h) h
    ((meets_iff_forall (C := fun l : Label => l.isRaise = false)).mpr hraise |>.and hc)

theorem Orderly.settledOnce (h : d.Orderly) : d.SettledOnce := h.balance.settledOnce h.ledger

end Connection

end RtcTunnel.Driver
