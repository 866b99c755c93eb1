import RtcTunnel.Driver.Frame
import RtcTunnel.Driver.Script

/-!
# Silence after the close

`finish` may run in a callback, below which an outer pump still holds a batch or
is about to poll. Every other path looks at `closed` first.
-/

namespace RtcTunnel.Driver

open RtcTunnel.Core
open RtcTunnel.Base.Run

set_option autoImplicit false

/-- A call that nobody may see after the close. -/
def Effect.noisy : Effect → Bool
  | .engine _ => true
  | .endpointSend _ => true
  | .onOpen => true
  | .onPacket _ => true
  | _ => false

def Effect.isOnClose : Effect → Bool
  | .onClose _ => true
  | _ => false

/-- Nothing noisy follows the disposal of the engine. -/
def Hushed (log : List Effect) : Prop := log.Pairwise fun a b => a = .dispose → b.noisy = false

instance (log : List Effect) : Decidable (Hushed log) := inferInstanceAs (Decidable (List.Pairwise _ _))

/-- Silence after the close, and one `onClose` at most. -/
structure Silent (log : List Effect) : Prop where
  hushed : Hushed log
  once : log.countP Effect.isOnClose ≤ 1

/-- An event that the pump hands to the endpoint or to the caller. -/
def EngineEvent.delivered (opened : Bool) : EngineEvent → Bool
  | .datagram _ => true
  | .message _ => true
  | .opened => !opened
  | .closed _ => false
  | .none => false

theorem Effect.plain_of_inert {e : Effect} (h : e.inert = true) :
    e ≠ .dispose ∧ e.isOnClose = false := by
  cases e with
  | dispose => cases h
  | onClose reason => cases h
  | _ => exact ⟨nofun, rfl⟩

theorem hushed_append {log es : List Effect} (h : Hushed log) (hd : .dispose ∈ log) :
    Hushed (log ++ es) ↔ ∀ e ∈ es, e.noisy = false := by
  rw [Hushed, List.pairwise_append]
  constructor
  · rintro ⟨_, _, hc⟩ e he
    exact hc _ hd e he rfl
  · intro he
    refine ⟨h, ?_, fun a _ b hb _ => he b hb⟩
    exact List.pairwise_iff_forall_sublist.mpr fun hs _ =>
      he _ (hs.subset (List.mem_cons_of_mem _ (List.mem_cons_self ..)))

theorem hushed_append_of_not_mem {log es : List Effect} (hd : .dispose ∉ log) (he : Hushed es) :
    Hushed (log ++ es) := by
  rw [Hushed, List.pairwise_append]
  refine ⟨?_, he, fun a ha _ _ h => absurd (h ▸ ha) hd⟩
  exact List.pairwise_iff_forall_sublist.mpr fun hs h =>
    absurd (h ▸ hs.subset (List.mem_cons_self ..)) hd

theorem hushed_of_not_mem {log : List Effect} (hd : .dispose ∉ log) : Hushed log := by
  rw [← List.append_nil log]
  exact hushed_append_of_not_mem hd List.Pairwise.nil

namespace Connection

variable {E : EngineApi}

/-- Who closes, and how far the close has come. -/
structure Ledger (d : Connection E) : Prop where
  budget : closings d.stack + d.disposed.toNat ≤ d.closed.toNat
  onClose : d.log.countP Effect.isOnClose ≤ d.disposed.toNat
  disposed : d.disposed = true ↔ .dispose ∈ d.log
  timer : d.closed = true → d.timerArmed = false

theorem Ledger.closed {d : Connection E} (h : d.Ledger) (hd : d.disposed = true) :
    d.closed = true := by
  have hb := h.budget
  rw [hd] at hb
  cases hc : d.closed with
  | true => rfl
  | false =>
    rw [hc] at hb
    simp at hb

/-- The second half of the close follows the first. -/
theorem Ledger.closing {d : Connection E} (h : d.Ledger) {reason : Text} {rest : List Task}
    (hs : d.stack = .finishRest reason :: rest) : d.closed = true := by
  have hb := h.budget
  rw [hs, closings_cons] at hb
  cases hc : d.closed with
  | true => rfl
  | false =>
    simp only [hc, Task.closes, if_true, Bool.toNat_false] at hb
    omega

theorem ledger_start (options : ResolvedOptions) (engine : E.State) :
    (start options engine).Ledger where
  budget := Nat.le_refl 0
  onClose := Nat.le_refl _
  disposed := by simp [start]
  timer _ := rfl

/-- Code that keeps the ledger's fields and emits nothing of the close. -/
theorem Ledger.plain {d r : Connection E} (h : d.Ledger) (hc : r.closed = d.closed)
    (hd : r.disposed = d.disposed) (hs : closings r.stack ≤ closings d.stack)
    (ht : d.closed = true → d.timerArmed = false → r.timerArmed = false)
    (hl : ∃ es, r.log = d.log ++ es ∧ ∀ e ∈ es, e ≠ .dispose ∧ e.isOnClose = false) :
    r.Ledger := by
  obtain ⟨es, hlog, he⟩ := hl
  have hn : .dispose ∉ es := fun hm => (he _ hm).1 rfl
  have hz : es.countP Effect.isOnClose = 0 := by
    rw [List.countP_eq_zero]
    intro e hm
    simp [(he e hm).2]
  refine ⟨?_, ?_, ?_, ?_⟩
  · rw [hc, hd]
    have := h.budget
    omega
  · rw [hd, hlog, List.countP_append, hz]
    exact h.onClose
  · rw [hd, hlog, List.mem_append]
    exact h.disposed.trans ⟨.inl, fun hm => hm.resolve_right hn⟩
  · rw [hc]
    exact fun hcl => ht hcl (h.timer hcl)

/-- What code leaves alone that only sends. -/
structure Sends (d r : Connection E) : Prop where
  closed : r.closed = d.closed
  disposed : r.disposed = d.disposed
  timerArmed : r.timerArmed = d.timerArmed
  stack : closings r.stack = closings d.stack
  log : ∃ es, r.log = d.log ++ es ∧ ∀ e ∈ es, e ≠ .dispose ∧ e.isOnClose = false

theorem Sends.refl (d : Connection E) : d.Sends d :=
  ⟨rfl, rfl, rfl, rfl, [], (List.append_nil _).symm, nofun⟩

theorem Sends.trans {a b c : Connection E} (h : a.Sends b) (h' : b.Sends c) : a.Sends c := by
  obtain ⟨es, hes, he⟩ := h.log
  obtain ⟨fs, hfs, hf⟩ := h'.log
  refine ⟨h'.closed.trans h.closed, h'.disposed.trans h.disposed,
    h'.timerArmed.trans h.timerArmed, h'.stack.trans h.stack, es ++ fs, ?_, ?_⟩
  · rw [hfs, hes, List.append_assoc]
  · intro e hm
    exact (List.mem_append.mp hm).elim (he e) (hf e)

theorem Sends.ledger {d r : Connection E} (hs : d.Sends r) (h : d.Ledger) : r.Ledger :=
  h.plain hs.closed hs.disposed (Nat.le_of_eq hs.stack) (fun _ ht => hs.timerArmed.trans ht) hs.log

theorem sends_call (d : Connection E) (p : Packet) (result : Nat) (engine : E.State) :
    d.Sends (d.call (.send p result) engine) :=
  ⟨rfl, rfl, rfl, rfl, [_], rfl, fun _ he => List.mem_singleton.mp he ▸ ⟨nofun, rfl⟩⟩

theorem sends_record (d : Connection E) (p : Packet) (outcome : SendOutcome) :
    d.Sends (d.record (.sent p outcome)) :=
  ⟨rfl, rfl, rfl, rfl, [_], rfl, fun _ he => List.mem_singleton.mp he ▸ ⟨nofun, rfl⟩⟩

/-- A change of fields that the ledger is not about. -/
theorem Sends.fields {d r s : Connection E} (h : d.Sends r) (hc : s.closed = r.closed)
    (hd : s.disposed = r.disposed) (ht : s.timerArmed = r.timerArmed)
    (hs : closings s.stack = closings r.stack) (hl : s.log = r.log) : d.Sends s :=
  h.trans ⟨hc, hd, ht, hs, [], by rw [hl, List.append_nil], nofun⟩

theorem sends_shift (d : Connection E) (next : Packet) (rest : List Packet) :
    d.Sends (d.shift next rest) := (Sends.refl d).fields rfl rfl rfl rfl rfl

/-- The same with the answer of one `handle.send`. -/
theorem Sends.sent {d r s : Connection E} (h : d.Sends r) {p : Packet} {outcome : SendOutcome}
    (hc : s.closed = r.closed) (hd : s.disposed = r.disposed) (ht : s.timerArmed = r.timerArmed)
    (hs : closings s.stack = closings r.stack) (hl : s.log = r.log ++ [.sent p outcome]) :
    d.Sends s :=
  h.trans ⟨hc, hd, ht, hs, [_], hl, fun _ he => List.mem_singleton.mp he ▸ ⟨nofun, rfl⟩⟩

theorem sends_flushFrom (queue : List Packet) (d : Connection E) :
    d.Sends (flushFrom queue d) := by
  induction queue generalizing d with
  | nil => exact .refl d
  | cons next rest ih =>
    have hc := sends_call d next (E.send d.engine next.data).1 (E.send d.engine next.data).2
    rw [flushFrom]
    split
    · exact hc
    · exact (hc.trans (sends_shift _ next rest)).trans (ih _)

theorem sends_schedulePump (d : Connection E) : d.Sends d.schedulePump := by
  unfold schedulePump
  split
  · refine (Sends.refl d).fields rfl rfl rfl ?_ rfl
    exact closings_push d (List.forall_mem_singleton.mpr rfl)
  · exact (Sends.refl d).fields rfl rfl rfl rfl rfl

theorem sends_handleSend (d : Connection E) (data : Bytes) : d.Sends (d.handleSend data) := by
  have hd : d.Sends { d with sends := d.sends + 1 } := (Sends.refl d).fields rfl rfl rfl rfl rfl
  have hc := hd.trans (sends_call { d with sends := d.sends + 1 } ⟨d.sends, data⟩
    (E.send d.engine data).1 (E.send d.engine data).2)
  unfold handleSend
  dsimp only
  split
  · exact hd.trans (sends_record _ _ _)
  · split
    · exact (hc.trans (sends_record _ _ _)).trans (sends_schedulePump _)
    · split
      · exact hc.trans (sends_record _ _ _)
      · split
        · split
          · split
            · exact hc.sent rfl rfl rfl rfl rfl
            · exact hc.sent rfl rfl rfl rfl rfl
          · exact hc.sent rfl rfl rfl rfl rfl
        · exact hc.trans (sends_record _ _ _)

theorem ledger_turn {d r : Connection E} {l : Label} (ht : Turn d l r) (h : d.Ledger) : r.Ledger := by
  cases ht with
  | inert _ r closed disposed queue sends options stack timer log =>
    obtain ⟨es, hl, he⟩ := log
    exact h.plain closed disposed stack timer ⟨es, hl, fun e hm => Effect.plain_of_inert (he e hm)⟩
  | flush _ m rest loop hs hc hb hm hl =>
    obtain ⟨es, hlog, he⟩ := hm.log
    have hmid : m.Ledger := by
      refine h.plain hm.closed hm.disposed ?_ hm.timer
        ⟨es, hlog, fun e hmem => Effect.plain_of_inert (he e hmem)⟩
      rw [hm.stack, hs]
      exact Nat.le_refl _
    have hf := (sends_flushFrom m.queue m).ledger hmid
    refine hf.plain rfl rfl ?_ (fun _ => id) ⟨[], (List.append_nil _).symm, nofun⟩
    exact Nat.le_of_eq (closings_push _ (List.forall_mem_singleton.mpr hl))
  | send data => exact (sends_handleSend d data).ledger h
  | finish _ reason rest hs hc =>
    obtain ⟨hcl, hd, hta, hst, es, hlog, he⟩ := finish_open rest reason hc
    have hb := h.budget
    rw [hc, hs] at hb
    have hzero : closings rest = 0 ∧ d.disposed.toNat = 0 := by
      have hle : closings rest ≤ closings (.finish reason :: rest) := Nat.le_refl _
      simp only [Bool.toNat_false] at hb
      omega
    have hn : .dispose ∉ es := fun hm => (Effect.plain_of_inert (he _ hm)).1 rfl
    have hz : es.countP Effect.isOnClose = 0 := by
      rw [List.countP_eq_zero]
      intro e hm
      simp [(Effect.plain_of_inert (he e hm)).2]
    refine ⟨?_, ?_, ?_, fun _ => hta⟩
    · have hone : closings (.callback :: .finishRest reason :: rest) = closings rest + 1 := by
        simp [closings_cons, Task.closes]
      rw [hcl, hd, hst, hone, hzero.1, hzero.2]
      exact Nat.le_refl _
    · rw [hd, hlog, List.countP_append, hz]
      exact h.onClose
    · rw [hd, hlog, List.mem_append]
      exact h.disposed.trans ⟨.inl, fun hm => hm.resolve_right hn⟩
  | finishRest _ reason rest hs =>
    obtain ⟨hcl, hd, hta, hst⟩ := finishRest_fields d rest reason
    have hlog := finishRest_log d rest reason
    have hb := h.budget
    have hone : closings (.finishRest reason :: rest) = closings rest + 1 := closings_cons ..
    rw [hs, hone] at hb
    have hle : d.closed.toNat ≤ 1 := Bool.toNat_le _
    have hnot : d.disposed.toNat = 0 := by omega
    refine ⟨?_, ?_, ?_, ?_⟩
    · rw [hcl, hd, hst, Bool.toNat_true]
      omega
    · have hz : d.log.countP Effect.isOnClose = 0 := Nat.le_zero.mp (hnot ▸ h.onClose)
      rw [hd, hlog, List.countP_append, hz]
      cases d.opened <;> simp [Effect.isOnClose]
    · rw [hd, hlog]
      simp
    · rw [hcl, hta]
      exact h.timer

/-- The code on top of the stack does not look at `closed`: it polls for a single
event, or goes on with an event of a batch or of a poll that it delivers. -/
def Resumes (d : Connection E) : Prop :=
  match d.stack with
  | .pollLoop :: _ => True
  | .apply (event :: _) _ :: _ => event.delivered d.opened = true
  | _ => False

/-- The steps of a connection with a disposed engine that no guard stops: such code
going on behind a callback, and `stats`. -/
def Unguarded (d : Connection E) : Label → Prop
  | .advance _ => d.disposed = true ∧ d.Resumes
  | .stats => d.disposed = true ∧ d.outside = true ∧ d.handed = true ∧ E.hasStats = true
  | _ => False

/-- The effects of a step, added to a history. -/
def Hears (d r : Connection E) (p : Effect → Prop) : Prop :=
  ∃ es, r.log = d.log ++ es ∧ ∀ e ∈ es, p e

theorem hears_nothing {d r : Connection E} {p : Effect → Prop} (h : r.log = d.log) :
    d.Hears r p := ⟨[], by rw [h, List.append_nil], nofun⟩

theorem hears_one {d r : Connection E} {p : Effect → Prop} {e : Effect} (h : r.log = d.log ++ [e])
    (he : p e) : d.Hears r p := ⟨[e], h, fun _ hm => List.mem_singleton.mp hm ▸ he⟩

theorem log_settle (d : Connection E) (p : Promise) : (d.settle p).log = d.log := by
  unfold settle
  split <;> rfl

theorem log_raise (d : Connection E) : d.raise.log = d.log := by
  unfold raise
  split
  · rfl
  · dsimp only
    split
    · exact log_settle _ _
    · rfl
  · rfl

theorem log_executorRest (d : Connection E) : d.executorRest.log = d.log := by
  unfold executorRest
  split
  · exact log_settle d _
  · split
    · exact log_settle d _
    · rfl

theorem log_ask {α : Type} (d : Connection E) (c : EngineCall)
    (method : Option (E.State → α × E.State)) :
    (d.ask c method).2.log = d.log ++ if method.isSome then [.engine c] else [] := by
  unfold ask
  cases method with
  | none => exact (List.append_nil _).symm
  | some f => rfl

/-- `stats` is heard by the engines that have something to tell. -/
theorem log_handleStats (d : Connection E) : ∃ stats, d.handleStats.log = d.log ++
    ((if E.negotiatedCipherSuite.isSome then [.engine .negotiatedCipherSuite] else []) ++
      (if E.bufferedBytes.isSome then [.engine .bufferedBytes] else []) ++
      (if E.droppedDatagrams.isSome then [.engine .droppedDatagrams] else []) ++
      [.stats stats]) := by
  apply Exists.intro
  rw [handleStats, record, log_ask, log_ask, log_ask]
  simp only [List.append_assoc]
  rfl

/-- Once closed, the code behind a guard says nothing. -/
theorem hushed_exec {d : Connection E} {rest : List Task} {task : Task} (now : F64)
    (hc : d.closed = true) (hp : task ≠ .pollLoop)
    (ha : ∀ event events source, task = .apply (event :: events) source →
      event.delivered d.opened = false) :
    d.Hears ({ d with stack := rest }.exec now task) fun e => e.noisy = false := by
  cases task with
  | callback => exact hears_nothing rfl
  | pollLoop => exact absurd rfl hp
  | pump =>
    have he : { d with stack := rest }.pump now = { d with stack := rest } := if_pos hc
    exact hears_nothing ((congrArg Connection.log he).trans rfl)
  | drainLoop =>
    have he : { d with stack := rest }.drainLoop = { d with stack := rest } := if_pos hc
    exact hears_nothing ((congrArg Connection.log he).trans rfl)
  | finish reason =>
    have he : { d with stack := rest }.finish reason = { d with stack := rest } := if_pos hc
    exact hears_nothing ((congrArg Connection.log he).trans rfl)
  | settleOpen => exact hears_nothing (log_settle _ _)
  | executorRest => exact hears_nothing (log_executorRest _)
  | finishRest reason =>
    refine ⟨_, finishRest_log d rest reason, fun e hm => ?_⟩
    rcases List.mem_cons.mp hm with rfl | hm
    · rfl
    · split at hm
      · exact List.mem_singleton.mp hm ▸ rfl
      · cases hm
  | apply events source =>
    cases events with
    | nil =>
      cases source with
      | batch short => cases short <;> exact hears_nothing rfl
      | poll => exact hears_nothing rfl
    | cons event events =>
      have hq := ha event events source rfl
      cases event with
      | none => exact hears_nothing rfl
      | closed reason => exact hears_nothing rfl
      | datagram data => cases hq
      | message data => cases hq
      | opened =>
        have ho : d.opened = true := by simpa [EngineEvent.delivered] using hq
        have he : { d with stack := rest }.apply (.opened :: events) source =
            { d with stack := rest }.push [.apply events source] := if_pos ho
        exact hears_nothing ((congrArg Connection.log he).trans rfl)

theorem hushed_step {d : Connection E} {l : Label} (hl : d.Ledger) (hd : d.disposed = true)
    (hu : ¬ d.Unguarded l) : d.Hears (d.step l) fun e => e.noisy = false := by
  have hc := hl.closed hd
  cases l with
  | advance now =>
    cases hs : d.stack with
    | nil =>
      rw [step, hs]
      exact hears_nothing rfl
    | cons task rest =>
      have hnot : ¬ d.Resumes := fun h => hu ⟨hd, h⟩
      rw [Resumes, hs] at hnot
      have hx : d.Hears ({ d with stack := rest }.exec now task) fun e => e.noisy = false := by
        refine hushed_exec now hc (fun h => ?_) fun event events source h => ?_
        · rw [h] at hnot
          exact hnot trivial
        · rw [h] at hnot
          simpa using hnot
      rw [step, hs]
      cases task with
      | callback => exact hears_nothing rfl
      | _ => exact hx
  | ret =>
    rw [step]
    split <;> exact hears_nothing rfl
  | raise => exact hears_nothing (log_raise d)
  | send data =>
    rw [step]
    split
    · rw [handleSend]
      simp only [hc, Bool.true_or, if_true]
      exact hears_one rfl rfl
    · exact hears_nothing rfl
  | close =>
    rw [step, handleClose, if_pos hc]
    split <;> exact hears_nothing rfl
  | stats =>
    rw [step]
    split
    · rename_i ho
      rw [Bool.and_eq_true] at ho
      have hs : E.hasStats = false := by
        by_contra hs
        exact hu ⟨hd, ho.1, ho.2, by simpa using hs⟩
      simp only [EngineApi.hasStats, Bool.or_eq_false_iff] at hs
      obtain ⟨stats, hlog⟩ := log_handleStats d
      rw [hs.1.1, hs.1.2, hs.2] at hlog
      exact hears_one hlog rfl
    · exact hears_nothing rfl
  | error message =>
    rw [step]
    split <;> exact hears_nothing rfl
  | datagram now data =>
    rw [step, onMessage, if_pos hc]
    split <;> exact hears_nothing rfl
  | flushInbound now =>
    rw [step]
    split
    · rw [flushInbound]
      simp only [hc, Bool.true_or, if_true]
      exact hears_nothing rfl
    · exact hears_nothing rfl
  | flushOutbound =>
    rw [step]
    split <;> exact hears_nothing rfl
  | timer now =>
    rw [step, hl.timer hc, Bool.and_false]
    exact hears_nothing rfl
  | resume =>
    rw [step]
    split <;> exact hears_nothing rfl

/-- Each of the three places is heard. -/
theorem loud_step {d : Connection E} {l : Label} (hu : d.Unguarded l) :
    ∃ es, (d.step l).log = d.log ++ es ∧ ∃ e ∈ es, e.noisy = true := by
  cases l with
  | advance now =>
    have hres := hu.2
    rw [step]
    unfold Resumes at hres
    split at hres
    · rename_i rest hs
      rw [hs]
      refine ⟨[.engine .pollEvent], ?_, _, List.mem_singleton_self _, rfl⟩
      change ({ d with stack := rest }.pollLoop).log = _
      unfold pollLoop
      dsimp only
      split <;> rfl
    · rename_i event events source rest hs
      rw [hs]
      change ∃ es, ({ d with stack := rest }.applyEvent event (.apply events source)).log = _ ∧ _
      cases event with
      | none => cases hres
      | closed reason => cases hres
      | datagram data => exact ⟨[.endpointSend data], rfl, _, List.mem_singleton_self _, rfl⟩
      | message data => exact ⟨[.onPacket data], rfl, _, List.mem_singleton_self _, rfl⟩
      | opened =>
        have ho : ¬ d.opened = true := by simpa [EngineEvent.delivered] using hres
        refine ⟨[.onOpen], ?_, _, List.mem_singleton_self _, rfl⟩
        rw [applyEvent, if_neg ho]
        rfl
    · exact absurd hres id
  | stats =>
    obtain ⟨_, ho, hh, hs⟩ := hu
    obtain ⟨stats, hlog⟩ := log_handleStats d
    rw [step, ho, hh]
    refine ⟨_, hlog, ?_⟩
    simp only [EngineApi.hasStats, Bool.or_eq_true] at hs
    rcases hs with (hs | hs) | hs
    · exact ⟨.engine .negotiatedCipherSuite, by simp [hs], rfl⟩
    · exact ⟨.engine .bufferedBytes, by simp [hs], rfl⟩
    · exact ⟨.engine .droppedDatagrams, by simp [hs], rfl⟩
  | _ => exact absurd hu id

/-- The history only grows. Before the disposal it grows by plain effects, and the
disposal is behind all of them but `onClose`. -/
theorem log_turn {d r : Connection E} {l : Label} (ht : Turn d l r) : ∃ es, r.log = d.log ++ es ∧ Hushed es := by
  have plain : ∀ es : List Effect, (∀ e ∈ es, e ≠ .dispose ∧ e.isOnClose = false) → Hushed es :=
    fun es he => hushed_of_not_mem fun hm => (he _ hm).1 rfl
  cases ht with
  | inert _ r closed disposed queue sends options stack timer log =>
    obtain ⟨es, hl, he⟩ := log
    exact ⟨es, hl, plain es fun e hm => Effect.plain_of_inert (he e hm)⟩
  | flush _ m rest loop hs hc hb hm hl =>
    obtain ⟨es, hes, he⟩ := hm.log
    obtain ⟨fs, hfs, hf⟩ := (sends_flushFrom m.queue m).log
    refine ⟨es ++ fs, ?_, plain _ fun e hmem => ?_⟩
    · rw [← List.append_assoc, ← hes]
      exact hfs
    · exact (List.mem_append.mp hmem).elim (fun h => Effect.plain_of_inert (he e h)) (hf e)
  | send data =>
    obtain ⟨es, hl, he⟩ := (sends_handleSend d data).log
    exact ⟨es, hl, plain es he⟩
  | finish _ reason rest hs hc =>
    obtain ⟨_, _, _, _, es, hl, he⟩ := finish_open rest reason hc
    exact ⟨es, hl, plain es fun e hm => Effect.plain_of_inert (he e hm)⟩
  | finishRest _ reason rest hs =>
    refine ⟨_, finishRest_log d rest reason, ?_⟩
    cases d.opened <;> simp [Hushed, Effect.noisy]

theorem Ledger.once {d : Connection E} (h : d.Ledger) : d.log.countP Effect.isOnClose ≤ 1 :=
  h.onClose.trans (Bool.toNat_le _)

theorem silent_step {d : Connection E} (l : Label) (hl : d.Ledger) (hs : Silent d.log) :
    Silent (d.step l).log ↔ ¬ d.Unguarded l := by
  have hnext := ledger_turn (turn_step d l) hl
  by_cases hd : d.disposed = true
  · have hmem := hl.disposed.mp hd
    constructor
    · rintro ⟨hq, _⟩ hu
      obtain ⟨es, hlog, e, he, hloud⟩ := loud_step hu
      rw [hlog, hushed_append hs.hushed hmem] at hq
      rw [hq e he] at hloud
      cases hloud
    · intro hu
      obtain ⟨es, hlog, he⟩ := hushed_step hl hd hu
      exact ⟨by rw [hlog, hushed_append hs.hushed hmem]; exact he, hnext.once⟩
  · obtain ⟨es, hlog, hq⟩ := log_turn (turn_step d l)
    have hmem : .dispose ∉ d.log := fun hm => hd (hl.disposed.mpr hm)
    refine ⟨fun _ hu => ?_, fun _ => ⟨?_, hnext.once⟩⟩
    · cases l with
      | advance now => exact hd hu.1
      | stats => exact hd hu.1
      | _ => exact hu
    · rw [hlog]
      exact hushed_append_of_not_mem hmem hq

theorem silent_of_step {d : Connection E} (l : Label) (h : Silent (d.step l).log) :
    Silent d.log := by
  obtain ⟨es, hlog, _⟩ := log_turn (turn_step d l)
  obtain ⟨hq, ho⟩ := h
  rw [hlog] at hq ho
  refine ⟨(List.pairwise_append.mp hq).1, ?_⟩
  rw [List.countP_append] at ho
  omega

/-- **Silence after the close.** A run is silent exactly when no callback returns to
a pump that still has an event to deliver or polls for one with a disposed engine,
and `stats` is not asked of one. -/
theorem silent_after_close (options : ResolvedOptions) (engine : E.State) (labels : List Label) :
    Silent (run step (start options engine) labels).log ↔
      Meets step (fun d l => ¬ d.Unguarded l) (start options engine) labels := by
  refine iff_meets (I := fun d => Silent d.log) (J := Ledger) ?_ ?_ ?_
    (ledger_start options engine) ?_
  · exact fun d l hl => ledger_turn (turn_step d l) hl
  · exact fun d l hl hs => silent_step l hl hs
  · exact fun d l _ h => silent_of_step l h
  · exact ⟨List.Pairwise.nil, Nat.zero_le 1⟩

/-- Two messages arrive, and the caller closes from `onPacket` of the first. -/
def closedInCallback : List Label :=
  Script.opening ++ [.datagram (.finite 0) [1, 7, 8]] ++ Script.steps 4 ++ [.close] ++
    Script.settle

/-- The second message is still delivered, or the disposed engine polled for it;
and `stats` goes to the disposed engine. -/
theorem heard_after_close :
    ¬ Silent (run step (Script.connection Script.batched) closedInCallback).log ∧
    ¬ Silent (run step (Script.connection Script.single) closedInCallback).log ∧
    ¬ Silent (run step (Script.connection Script.batched)
      (Script.opening ++ [.close] ++ Script.settle ++ [.stats])).log := by
  refine ⟨fun h => ?_, fun h => ?_, fun h => ?_⟩
  · exact absurd h.hushed (by decide +kernel)
  · exact absurd h.hushed (by decide +kernel)
  · exact absurd h.hushed (by decide +kernel)

end Connection

end RtcTunnel.Driver
