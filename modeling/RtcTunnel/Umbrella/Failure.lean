import RtcTunnel.Direct.Pump
import RtcTunnel.Direct.Script
import RtcTunnel.Umbrella.Script

/-!
# A failed transport

What both backends make of an ICE connection that failed. The direct tunnel
drains the report and looks at connected states only. The umbrella tunnel ends
with the first closing event of the drain, whatever comes behind it.
-/

namespace RtcTunnel

open RtcTunnel.Core
open RtcTunnel.Base (Outcome)
open RtcTunnel.Base.Run (run)

set_option autoImplicit false

/-- An operation that leaves the tunnel finished and emits one close, with the
reason `failure`. -/
def FailsOnce (finished : Bool) (before after : List Event) : Prop :=
  finished = true ∧
    ∃ emitted, after = before ++ emitted ∧ emitted.filter (·.isClosed) = [.closed .failure]

namespace Direct

open DirectTunnel (Op pushed)

namespace Life

/-- No move closes a tunnel for a failure. -/
theorem no_failure_move {l : List Entry} (a b : Life) (hm : Move a b)
    (h : ∃ es, a.log = l ++ es ∧ .pushed (.closed .failure) ∉ es) :
    ∃ es, b.log = l ++ es ∧ .pushed (.closed .failure) ∉ es := by
  obtain ⟨es, hl, hn⟩ := h
  have one : ∀ e : Entry, e ≠ .pushed (.closed .failure) →
      ∃ es, a.log ++ [e] = l ++ es ∧ .pushed (.closed .failure) ∉ es := by
    intro e he
    refine ⟨es ++ [e], by rw [hl, List.append_assoc], ?_⟩
    rw [List.mem_append, List.mem_singleton]
    rintro (h | h)
    · exact hn h
    · exact he h.symm
  cases hm with
  | serve ok _ => exact ⟨es, hl, hn⟩
  | listen _ _ => exact ⟨es, hl, hn⟩
  | dialNothing _ _ _ => exact ⟨es, hl, hn⟩
  | dialAccepted ok _ _ _ =>
    refine ⟨es ++ [.openStream a.streamId .binary true,
      .setReliabilityParams a.unordered a.reliability.1 a.reliability.2 ok], ?_, by simp [hn]⟩
    simp [record, hl]
  | finish reason _ hr => exact one _ fun h => hr (by cases h; rfl)
  | _ => exact one _ (by simp)

end Life

namespace DirectTunnel

variable {L : Layers}

/-- The pump of the operation drains a report that the ICE connection failed. -/
def DrainsFailure (t : DirectTunnel L) (op : Op) : Prop :=
  ∃ s, t.pumpEntry op = some s ∧
    ∃ e ∈ (L.ice.events.drain s.ice).1, e.event = .connectionStateChange .failed

theorem drainsFailure_of_any {t : DirectTunnel L} {op : Op}
    (h : (t.pumpEntry op).any (fun s => (L.ice.events.drain s.ice).1.any
      (·.event = .connectionStateChange .failed)) = true) : t.DrainsFailure op := by
  obtain ⟨s, hs, h⟩ := (Option.any_eq_true ..).mp h
  obtain ⟨e, he, hk⟩ := List.any_eq_true.mp h
  exact ⟨s, hs, e, he, of_decide_eq_true hk⟩

theorem not_failsOnce (t : DirectTunnel L) (op : Op) :
    ¬ FailsOnce (t.step op).finished (pushed t) (pushed (t.step op)) := by
  rintro ⟨_, emitted, he, hc⟩
  obtain ⟨es, hl, hn⟩ := Base.Run.moves_invariant (Life.no_failure_move (l := t.log))
    (advances_step t op) ⟨[], by simp, List.not_mem_nil⟩
  have hm : .closed .failure ∈ emitted := by
    have h : .closed .failure ∈ emitted.filter (·.isClosed) := by
      rw [hc]
      exact List.mem_singleton_self _
    exact (List.mem_filter.mp h).1
  have hp : pushed (t.step op) = pushed t ++ pushed { t with log := es } := by
    rw [life_log] at hl
    rw [pushed, hl, List.filterMap_append]
    rfl
  rw [hp] at he
  rw [← List.append_cancel_left he] at hm
  obtain ⟨entry, hentry, hsome⟩ := List.mem_filterMap.mp hm
  cases entry with
  | pushed e =>
    cases hsome
    exact hn hentry
  | _ => cases hsome

end DirectTunnel

end Direct

namespace Umbrella

/-- The reason for which an event ends a tunnel. -/
def closing : PeerConnectionEvent → Option CloseReason
  | .onDataChannel .onClose => some .remote
  | .onConnectionStateChange .failed => some .failure
  | .onConnectionStateChange .disconnected => some .remote
  | .onConnectionStateChange .closed => some .remote
  | .onIceConnectionStateChange .failed => some .failure
  | _ => none

namespace Tunnel

variable {P : PeerConnectionApi}

/-- What part of an operation leaves behind: the closes it emits, in order. -/
structure Emits (t r : Tunnel P) (closes : List CloseReason) : Prop where
  finished : r.finished = (t.finished || !closes.isEmpty)
  log : ∃ es, r.log = t.log ++ es ∧ es.filter (·.isClosed) = closes.map .closed

theorem Emits.of_eq {t r : Tunnel P} (hf : r.finished = t.finished) (hl : r.log = t.log) :
    t.Emits r [] :=
  ⟨by rw [hf]; simp, [], by rw [hl, List.append_nil], rfl⟩

theorem Emits.refl (t : Tunnel P) : t.Emits t [] := .of_eq rfl rfl

theorem Emits.trans {a b c : Tunnel P} {k l : List CloseReason} (h : a.Emits b k)
    (h' : b.Emits c l) : a.Emits c (k ++ l) := by
  obtain ⟨es, hes, hk⟩ := h.log
  obtain ⟨fs, hfs, hl⟩ := h'.log
  refine ⟨?_, es ++ fs, by rw [hfs, hes, List.append_assoc], ?_⟩
  · rw [h'.finished, h.finished]
    cases k <;> cases l <;> simp
  · rw [List.filter_append, hk, hl, List.map_append]

theorem Emits.silent {a b c : Tunnel P} {k : List CloseReason} (h : a.Emits b k)
    (h' : b.Emits c []) : a.Emits c k := by
  have ht := h.trans h'
  rwa [List.append_nil] at ht

/-- Pushing anything but a close. -/
theorem emits_pushAll {t s : Tunnel P} {es : List Event} (hf : s.finished = t.finished)
    (hl : s.log = t.log) (h : ∀ e ∈ es, e.isClosed = false) : t.Emits (s.pushAll es) [] := by
  refine ⟨?_, es, ?_, ?_⟩
  · rw [pushAll, hf]
    simp
  · rw [pushAll, hl]
  · rw [List.map_nil, List.filter_eq_nil_iff]
    intro e he
    simp [h e he]

theorem emits_push {t s : Tunnel P} {e : Event} (hf : s.finished = t.finished)
    (hl : s.log = t.log) (h : e.isClosed = false) : t.Emits (s.push e) [] :=
  emits_pushAll hf hl fun _ he => List.mem_singleton.mp he ▸ h

theorem emits_finish {t : Tunnel P} (hf : t.finished = false) (reason : CloseReason) :
    t.Emits (t.finish reason) [reason] := by
  rw [finish, if_neg (by simp [hf])]
  exact ⟨by simp [push, pushAll], [.closed reason], rfl, rfl⟩

theorem emits_drainWrites (t : Tunnel P) : t.Emits t.drainWrites [] := by
  refine emits_pushAll (t := t) rfl rfl fun e he => ?_
  obtain ⟨d, _, rfl⟩ := List.mem_map.mp he
  rfl

theorem refreshOpened_keeps (t : Tunnel P) :
    t.refreshOpened.finished = t.finished ∧ t.refreshOpened.log = t.log := by
  unfold refreshOpened
  split <;> exact ⟨rfl, rfl⟩

theorem emits_maybeOpen (t : Tunnel P) : t.Emits t.maybeOpen [] := by
  obtain ⟨hf, hl⟩ := refreshOpened_keeps t
  unfold maybeOpen
  split
  · exact .refl t
  · dsimp only
    split
    · exact emits_push hf hl rfl
    · exact .of_eq hf hl

theorem emits_sampleHandshake (t : Tunnel P) : t.Emits t.sampleHandshake [] := by
  unfold sampleHandshake
  split
  · exact .refl t
  · exact .of_eq rfl rfl

theorem emits_handleEvent {t : Tunnel P} (hf : t.finished = false) (e : PeerConnectionEvent) :
    t.Emits (t.handleEvent e) (closing e).toList := by
  cases e with
  | onDataChannel event =>
    cases event with
    | onOpen =>
      change t.Emits (if t.opened then t else { t with opened := true }.push .opened) []
      split
      · exact .refl t
      · exact emits_push rfl rfl rfl
    | onClose => exact emits_finish hf .remote
    | _ => exact .refl t
  | onConnectionStateChange state =>
    cases state with
    | connected => exact emits_maybeOpen t
    | failed => exact emits_finish hf .failure
    | disconnected => exact emits_finish hf .remote
    | closed => exact emits_finish hf .remote
    | _ => exact .refl t
  | onIceConnectionStateChange state =>
    cases state with
    | failed => exact emits_finish hf .failure
    | _ => exact .refl t
  | other => exact .refl t

/-- The close the event loop emits: the one of the first closing event. -/
theorem emits_drainEvents (t : Tunnel P) : t.Emits t.drainEvents
    (if t.finished then [] else ((P.events.drain t.pc).1.findSome? closing).toList) := by
  have h := P.events.walk_induction eventBody
    (P := fun events b r => b.Emits r
      (if b.finished then [] else (events.findSome? closing).toList)) ?_ ?_ ?_ t.pc t
  · exact h.silent (.of_eq rfl rfl)
  · intro b
    cases b.finished <;> exact .refl b
  · intro pc event events b hb
    have hf : b.finished = true := by
      unfold eventBody at hb
      split at hb
      · assumption
      · cases hb
    rw [if_pos hf]
    exact .refl b
  · intro pc event events b b' r hb hr
    unfold eventBody at hb
    split at hb
    · cases hb
    · rename_i hf
      cases hb
      have hf' : b.finished = false := by simpa using hf
      have he := emits_handleEvent (t := { b with pc := pc }) hf' event
      have hfin := he.finished
      have hstep := (Emits.of_eq (t := b) (r := { b with pc := pc }) rfl rfl).trans (he.trans hr)
      rw [List.nil_append] at hstep
      rw [if_neg hf, List.findSome?_cons]
      cases hc : closing event with
      | none =>
        rw [hc] at hfin hstep
        rw [if_neg (by rw [hfin]; simp [hf'])] at hstep
        exact hstep
      | some reason =>
        rw [hc] at hfin hstep
        rw [if_pos (by rw [hfin]; simp)] at hstep
        exact hstep

theorem emits_drainReads (t : Tunnel P) : t.Emits t.drainReads [] := by
  have h := P.reads.walk_induction readBody (P := fun _ b r => b.Emits r []) .refl ?_ ?_ t.pc t
  · exact h.silent (.of_eq rfl rfl)
  · intro pc message messages b _
    exact .refl b
  · intro pc message messages b b' r hb hr
    unfold readBody at hb
    split at hb
    · cases hb
    · cases hb
      have hm : b.Emits (b.handleMessage message) [] := ?_
      · exact hm.trans hr
      cases message with
      | dataChannelMessage data => exact emits_push rfl rfl rfl
      | other => exact .refl b

/-- The events the event loop of a drain finds waiting. -/
def waiting (t : Tunnel P) : List PeerConnectionEvent :=
  (P.events.drain (P.writes.drain t.pc).2).1

theorem emits_drain {t : Tunnel P} (hf : t.finished = false) :
    t.Emits t.drain (t.waiting.findSome? closing).toList := by
  have he := (emits_drainWrites t).trans (emits_drainEvents t.drainWrites)
  have hfw : t.drainWrites.finished = false := hf
  rw [List.nil_append, if_neg (by simp [hfw])] at he
  exact (((he.silent (emits_drainWrites _)).silent (emits_drainReads _)).silent
    (emits_maybeOpen _)).silent (emits_sampleHandshake _)

/-- The tunnel whose `drain` an operation runs, where it runs one. -/
def drainEntry (t : Tunnel P) : Op → Option (Tunnel P)
  | .receive nowMs datagram =>
    if t.finished then none
    else
      let now := t.epoch.addMillis nowMs
      some ({ t with lastNow := now }.ingest now datagram)
  | .receiveDeferred nowMs datagram =>
    if t.finished || t.opened then none
    else
      let now := t.epoch.addMillis nowMs
      some ({ t with lastNow := now }.ingest now datagram)
  | .finishInputBatch => if t.finished || !t.opened then none else some t
  | .tick nowMs =>
    let now := t.epoch.addMillis nowMs
    if t.finished || (!t.opened && decide (t.handshakeDeadline ≤ now)) then none
    else some { t with lastNow := now, pc := (P.handleTimeout t.pc now).1 }
  | .send message =>
    if t.finished then none
    else
      let t := if t.opened then t else t.maybeOpen
      if !t.opened || decide (maxMessageSize < message.length) then none
      else
        match P.dataChannel t.pc t.handle with
        | none => none
        | some dc =>
          if t.sendBufferCap < dc.outstandingBytes + message.length then none
          else some { t with pc := (P.send t.pc t.handle t.lastNow message).1 }
  | .applyRemoteAnswerSdp sdp =>
    match P.describe .answer sdp with
    | .error _ => none
    | .ok answer =>
      let r := P.setRemoteDescription t.pc t.lastNow answer
      if r.2.isOk then some { t with pc := r.1 } else none
  | _ => none

theorem emits_ingest (t : Tunnel P) (now : Instant) (datagram : Bytes) :
    t.Emits ({ t with lastNow := now }.ingest now datagram) [] := by
  unfold ingest
  dsimp only
  split <;> exact .of_eq rfl rfl

theorem send_drainEntry {t s : Tunnel P} {message : Bytes}
    (h : t.drainEntry (.send message) = some s) :
    t.step (.send message) = s.drain ∧ t.Emits s [] := by
  have ho : t.Emits (if t.opened then t else t.maybeOpen) [] := by
    split
    · exact .refl t
    · exact emits_maybeOpen t
  rw [drainEntry] at h
  rw [step, send]
  split at h
  · cases h
  · rename_i hf
    rw [if_neg hf]
    dsimp only at h ⊢
    generalize (if t.opened = true then t else t.maybeOpen) = r at h ho ⊢
    split at h
    · cases h
    · rename_i hn
      simp only [Bool.or_eq_true, not_or, Bool.not_eq_true, decide_eq_true_eq] at hn
      rw [if_neg (by simp [hn.1]), if_neg hn.2]
      cases hdc : P.dataChannel r.pc r.handle with
      | none =>
        rw [hdc] at h
        cases h
      | some dc =>
        rw [hdc] at h
        dsimp only at h ⊢
        split at h
        · cases h
        · rename_i hcap
          cases h
          rw [if_neg hcap]
          exact ⟨rfl, ho.silent (.of_eq rfl rfl)⟩

/-- An operation that drains does nothing else to the close. -/
theorem step_drainEntry {t s : Tunnel P} {op : Op} (h : t.drainEntry op = some s) :
    t.step op = s.drain ∧ t.Emits s [] := by
  cases op with
  | receive nowMs datagram =>
    simp only [drainEntry] at h
    split at h
    · cases h
    · rename_i hf
      cases h
      refine ⟨?_, emits_ingest t _ datagram⟩
      rw [step, receive, if_neg hf]
  | receiveDeferred nowMs datagram =>
    simp only [drainEntry] at h
    split at h
    · cases h
    · rename_i hn
      cases h
      simp only [Bool.or_eq_true, not_or, Bool.not_eq_true] at hn
      refine ⟨?_, emits_ingest t _ datagram⟩
      rw [step, receiveDeferred, if_neg (by simp [hn.1])]
      dsimp only
      rw [if_pos (by simp [hn.2]), receive, if_neg (by simp [hn.1])]
  | finishInputBatch =>
    simp only [drainEntry] at h
    split at h
    · cases h
    · rename_i hn
      cases h
      refine ⟨?_, .refl t⟩
      rw [step, finishInputBatch, if_neg hn]
  | tick nowMs =>
    simp only [drainEntry] at h
    split at h
    · cases h
    · rename_i hn
      cases h
      simp only [Bool.or_eq_true, not_or, Bool.not_eq_true] at hn
      refine ⟨?_, .of_eq rfl rfl⟩
      rw [step, tick, if_neg (by simp [hn.1])]
      dsimp only
      rw [if_neg (by simpa using hn.2)]
  | send message => exact send_drainEntry h
  | applyRemoteAnswerSdp sdp =>
    simp only [drainEntry] at h
    split at h
    · cases h
    · rename_i answer ha
      split at h
      · rename_i hr
        cases h
        refine ⟨?_, .of_eq rfl rfl⟩
        rw [step, applyRemoteAnswerSdp, ha]
        dsimp only [applyRemoteAnswer]
        cases hs : (P.setRemoteDescription t.pc t.lastNow answer).2 with
        | error e => simp [hs, Except.isOk, Except.toBool] at hr
        | ok u => rfl
      · cases h
  | _ => cases h

/-- The drain of the operation finds a report that the ICE connection failed. -/
def DrainsFailure (t : Tunnel P) (op : Op) : Prop :=
  ∃ s, t.drainEntry op = some s ∧ .onIceConnectionStateChange .failed ∈ s.waiting

theorem drainsFailure_of_any {t : Tunnel P} {op : Op}
    (h : (t.drainEntry op).any (·.waiting.contains (.onIceConnectionStateChange .failed)) = true) :
    t.DrainsFailure op := by
  obtain ⟨s, hs, h⟩ := (Option.any_eq_true ..).mp h
  exact ⟨s, hs, by simpa using h⟩

/-- No event that closes for another reason waits in front of the failure. -/
def FailureFirst (t : Tunnel P) (op : Op) : Prop :=
  ∀ s, t.drainEntry op = some s → s.waiting.findSome? closing = some .failure

theorem failsOnce_iff {t : Tunnel P} {op : Op} (hf : t.finished = false)
    (hd : t.DrainsFailure op) :
    FailsOnce (t.step op).finished t.log (t.step op).log ↔ t.FailureFirst op := by
  obtain ⟨s, hs, hw⟩ := hd
  obtain ⟨hstep, hes⟩ := step_drainEntry hs
  have hfs : s.finished = false := by
    rw [hes.finished, hf]
    rfl
  have hemits := hes.trans (emits_drain hfs)
  rw [List.nil_append, ← hstep] at hemits
  obtain ⟨es, hlog, hfilter⟩ := hemits.log
  have hiff : t.FailureFirst op ↔ s.waiting.findSome? closing = some .failure := by
    constructor
    · exact fun h => h s hs
    · intro h s' hs'
      cases hs.symm.trans hs'
      exact h
  rw [hiff]
  constructor
  · rintro ⟨_, emitted, he, hc⟩
    rw [hlog] at he
    rw [← List.append_cancel_left he, hfilter] at hc
    cases hreason : s.waiting.findSome? closing with
    | none =>
      rw [hreason] at hc
      cases hc
    | some reason =>
      rw [hreason] at hc
      cases hc
      rfl
  · intro h
    rw [h] at hfilter hemits
    refine ⟨?_, es, hlog, hfilter⟩
    rw [hemits.finished]
    simp

end Tunnel

end Umbrella

open Umbrella (PeerConnectionApi)

/-- **A failed transport.** In every unfinished state the operation that drains
the report closes the umbrella tunnel for a failure exactly when no other closing
event waits in front of it, and never closes the direct tunnel so. -/
theorem transport_failure (L : Direct.Layers) (P : PeerConnectionApi) :
    (∀ (t : Direct.DirectTunnel L) (op : Direct.DirectTunnel.Op), t.Reachable →
      t.finished = false → t.DrainsFailure op →
      ¬ FailsOnce (t.step op).finished (Direct.DirectTunnel.pushed t)
        (Direct.DirectTunnel.pushed (t.step op))) ∧
    (∀ (t : Umbrella.Tunnel P) (op : Umbrella.Tunnel.Op), t.Reachable →
      t.finished = false → t.DrainsFailure op →
      (FailsOnce (t.step op).finished t.log (t.step op).log ↔ t.FailureFirst op)) :=
  ⟨fun t op _ _ _ => Direct.DirectTunnel.not_failsOnce t op,
    fun _ _ _ hf hd => Umbrella.Tunnel.failsOnce_iff hf hd⟩

namespace Direct.Script

open DirectTunnel (step)

/-- An opened dialer, silent from now on. -/
def opened : DirectTunnel layers :=
  run step dialer [.receive 1 [0], .receive 2 [22, 7], .receive 3 [23, 2]]

theorem reachable_opened : opened.Reachable :=
  ⟨host, config, localAddr, 0, .new, dialer, _, build_dialer, rfl⟩

theorem drainsFailure_opened : opened.DrainsFailure (.tick 40000) :=
  DirectTunnel.drainsFailure_of_any (by decide +kernel)

end Direct.Script

namespace Umbrella.Script

open Tunnel (step)

def opened : Tunnel peerConnection := run step tunnel [.receive 1 [0]]

theorem reachable_opened : opened.Reachable :=
  ⟨⟨0, 0⟩, config, localAddr, 0, .new, tunnel, _, build_tunnel, rfl⟩

theorem drainsFailure_opened : opened.DrainsFailure (.receive 2 [1]) :=
  Tunnel.drainsFailure_of_any (by decide +kernel)

theorem failureFirst_opened : opened.FailureFirst (.receive 2 [1]) := by
  intro s hs
  cases hs
  decide +kernel

end Umbrella.Script

/-- One opened tunnel of each kind whose ICE connection fails: the umbrella tunnel
closes, the direct one does not. -/
theorem transport_failure_opened :
    ¬ FailsOnce (Direct.Script.opened.step (.tick 40000)).finished
        (Direct.DirectTunnel.pushed Direct.Script.opened)
        (Direct.DirectTunnel.pushed (Direct.Script.opened.step (.tick 40000))) ∧
      FailsOnce (Umbrella.Script.opened.step (.receive 2 [1])).finished Umbrella.Script.opened.log
        (Umbrella.Script.opened.step (.receive 2 [1])).log :=
  ⟨(transport_failure Direct.Script.layers Umbrella.Script.peerConnection).1 _ _
      Direct.Script.reachable_opened (by decide +kernel) Direct.Script.drainsFailure_opened,
    ((transport_failure Direct.Script.layers Umbrella.Script.peerConnection).2 _ _
      Umbrella.Script.reachable_opened (by decide +kernel)
      Umbrella.Script.drainsFailure_opened).mpr Umbrella.Script.failureFirst_opened⟩

/-- The direct tunnel drains the report of a failed connection and stays open. -/
theorem failure_unnoticed :
    Direct.Script.opened.Reachable ∧ Direct.Script.opened.finished = false ∧
      Direct.Script.opened.DrainsFailure (.tick 40000) ∧
      ¬ FailsOnce (Direct.Script.opened.step (.tick 40000)).finished
        (Direct.DirectTunnel.pushed Direct.Script.opened)
        (Direct.DirectTunnel.pushed (Direct.Script.opened.step (.tick 40000))) := by
  refine ⟨Direct.Script.reachable_opened, by decide +kernel, Direct.Script.drainsFailure_opened,
    fun h => ?_⟩
  have hf : (Direct.Script.opened.step (.tick 40000)).finished = false := by decide +kernel
  rw [FailsOnce, hf] at h
  cases h.1

end RtcTunnel
