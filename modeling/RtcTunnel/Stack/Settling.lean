import RtcTunnel.Direct.Script
import RtcTunnel.Driver.Script
import RtcTunnel.Stack.Built
import RtcTunnel.Stack.Engine

/-!
# The handshake over a tunnel

A connection over the engine of a tunnel: the promise has a timer by the time the budget of the
tunnel runs out, and the tick of that timer settles it.
-/

namespace RtcTunnel.Stack

open RtcTunnel.Core
open RtcTunnel.Abi (toWord)
open RtcTunnel.Abi.Instance (crossed)
open RtcTunnel.Base.Run
open RtcTunnel.Driver
open RtcTunnel.Driver.Connection (WholeOrOff start step)

set_option autoImplicit false

namespace WasmTunnelEngine

variable {B : Backend} (C : B.Contract)

theorem settles_crossed (e : Event) : (crossed e).settles = e.settles := by
  cases e <;> rfl

/-- One event taken off a tunnel that waits, or has announced the end. -/
theorem pollEvent_wait (s : WasmTunnelEngine B) (hn : s.pollEvent.1.settles = false) :
    ((s.view C).Waiting → (s.pollEvent.2.view C).Waiting) ∧
      ((s.view C).Announced → s.pollEvent.1 ≠ .none ∧ (s.pollEvent.2.view C).Announced) := by
  obtain ⟨hhead, hview⟩ := C.pollEvent s.tunnel
  have hafter : s.pollEvent.2.view C = { s.view C with queue := (s.view C).queue.tail } := hview
  have hevent : s.pollEvent.1 = (s.view C).queue.head?.elim .none crossed :=
    congrArg (fun o : Option Event => o.elim EngineEvent.none crossed) hhead
  rw [hafter]
  rw [hevent] at hn ⊢
  refine ⟨fun hw => ⟨hw.opened, hw.finished, fun e hm => hw.queue e (List.mem_of_mem_tail hm)⟩,
    fun ⟨e, hm, he⟩ => ?_⟩
  cases hq : (s.view C).queue with
  | nil =>
    rw [hq] at hm
    cases hm
  | cons first rest =>
    rw [hq] at hm hn
    have hne : e ≠ first := by
      rintro rfl
      exact absurd ((settles_crossed e).trans he) (Bool.eq_false_iff.mp hn)
    exact ⟨Abi.Instance.crossed_ne_none first, e, (List.mem_cons.mp hm).resolve_left hne, he⟩

/-- What the front of the queue leaves of the wait. -/
theorem pull_wait (s : WasmTunnelEngine B) (max : Nat)
    (hn : (s.pull max).1.any EngineEvent.settles = false) :
    ((s.view C).Waiting → ((s.pull max).2.view C).Waiting) ∧
      ((s.view C).Announced →
        (s.pull max).1.length = max ∧ ((s.pull max).2.view C).Announced) := by
  obtain ⟨hfst, hsnd, _⟩ := s.pull_eq C max
  rw [hfst] at hn ⊢
  rw [hsnd]
  refine ⟨fun hw => ⟨hw.opened, hw.finished, fun e hm => hw.queue e (List.mem_of_mem_drop hm)⟩,
    fun ⟨e, hm, he⟩ => ?_⟩
  have hnot : e ∉ (s.view C).queue.take max := by
    intro ht
    refine absurd hn (Bool.not_eq_false _ ▸ List.any_eq_true.mpr ?_)
    exact ⟨crossed e, List.mem_map_of_mem ht, (settles_crossed e).trans he⟩
  rw [← List.take_append_drop max (s.view C).queue] at hm
  have hdrop := (List.mem_append.mp hm).resolve_left hnot
  refine ⟨?_, e, hdrop, he⟩
  have hlen := List.length_pos_of_mem hdrop
  rw [List.length_drop] at hlen
  rw [List.length_map, List.length_take]
  omega

end WasmTunnelEngine

open WasmTunnelEngine

variable {B : Backend}

/-- **The engine of a tunnel has the handshake of its tunnel.** -/
def handshake (C : B.Contract) {limit : Nat} (hlimit : limit ≤ 2 ^ 53) :
    Handshake (engine B) (.ofInt limit) where
  waiting (s : WasmTunnelEngine B) := (s.view C).Waiting ∧ C.budget s.tunnel = limit
  announced (s : WasmTunnelEngine B) := (s.view C).Announced
  due (s : WasmTunnelEngine B) h := by
    obtain ⟨ms, hms, hle⟩ := C.due s.tunnel h.1.opened h.1.finished
    rw [h.2] at hle
    refine ⟨.ofInt ms.toNat, ?_, F64.ofInt_le.mpr (Int.ofNat_le.mpr hle)⟩
    show s.nextDeadline.1 = _
    rw [nextDeadline_eq, hms, Option.map_some, F64.ofNat_eq (Nat.le_trans hle hlimit)]
  feed s t h := by
    have htunnel := feed_tunnel h
    refine ⟨fun ⟨hwait, hb⟩ => ?_, (C.grows htunnel).announced⟩
    exact ((C.grows htunnel).waiting hwait).imp_left fun h => ⟨h, (C.fixed (.inl htunnel)).trans hb⟩
  timeout (s : WasmTunnelEngine B) now h hnow := by
    have hms : limit ≤ (clock now).toNat :=
      F64.le_toU64 (Nat.le_trans hlimit (by decide)) hnow
    exact (C.grows (.tick (clock now))).told h.1.opened h.1.finished
      (C.expires s.tunnel (clock now) (h.2 ▸ hms))
  nextDeadline (s : WasmTunnelEngine B) := by
    have hview := C.looks (.nextDeadline (t := s.tunnel))
    have hbudget := C.fixed (.inr (.inl (.nextDeadline (t := s.tunnel))))
    refine ⟨fun ⟨hwait, hb⟩ => ⟨?_, hbudget.trans hb⟩, fun ha => ?_⟩
    · show (C.view (B.nextDeadline s.tunnel).2).Waiting
      rw [hview]
      exact hwait
    · show (C.view (B.nextDeadline s.tunnel).2).Announced
      rw [hview]
      exact ha
  pollEvent (s : WasmTunnelEngine B) event t hp hn := by
    have hbudget := C.fixed (.inr (.inr rfl) : Backend.Feed s.tunnel _ ∨ Backend.Look s.tunnel _ ∨ _)
    obtain ⟨rfl, rfl⟩ : s.pollEvent.1 = event ∧ s.pollEvent.2 = t :=
      ⟨congrArg Prod.fst hp, congrArg Prod.snd hp⟩
    obtain ⟨hwait, hann⟩ := s.pollEvent_wait C hn
    exact ⟨fun h => .inl ⟨hwait h.1, hbudget.trans h.2⟩, hann⟩
  drainEvents drain hd (s : WasmTunnelEngine B) size hp hl hw events t hr hn := by
    obtain rfl := Option.some.inj hd
    obtain ⟨rfl, rfl⟩ : (s.drainEvents size).1 = events ∧ (s.drainEvents size).2 = t :=
      ⟨congrArg Prod.fst hr, congrArg Prod.snd hr⟩
    obtain ⟨hwait, hann⟩ := s.pull_wait C (toWord size).toNat hn
    obtain ⟨_, _, hbudget⟩ := s.pull_eq C (toWord size).toNat
    refine ⟨fun h => .inl ⟨hwait h.1, hbudget.trans h.2⟩, fun h => ?_⟩
    obtain ⟨hlen, hrest⟩ := hann h
    refine ⟨Bool.eq_false_iff.mpr fun hlt => ?_, hrest⟩
    -- The batch has as many events as were asked for.
    have hfull : (s.drainEvents size).1.length = size.whole :=
      hlen.trans (toWord_whole hp hl)
    have hshort := (F64.lt_of_isWhole hp hw).mp hlt
    omega

variable {limit : Nat} {options : ResolvedOptions} {t : B.Tunnel}

theorem settling_created (C : B.Contract) (hsize : WholeOrOff options) (hlimit : limit ≤ 2 ^ 53)
    (hr : Ready C t limit) :
    (start (E := engine B) options (created t)).Settling (handshake C hlimit) where
  toOrderly := Connection.orderly_start options _
  size := hsize
  batches := Connection.batches_start options _
  unsent _ := rfl
  bounded _ _ _ := by
    rcases hr.fresh with h | h
    · exact .inr (.inr ⟨⟨h, hr.budget⟩, .inl rfl⟩)
    · exact .inr (.inl ⟨h, .pump, List.mem_cons_self .., rfl⟩)

/-- **The promise settles by the budget of the tunnel.** Whatever constructor of either backend
built the tunnel of a connection, if its budget ends by 2⁵³ and events are taken one by one or in
batches of a whole size below 2³², in a run without exceptions whose endpoint reports its errors
between turns the promise settles once and the callbacks are in order. While it is pending
between turns, the timer is armed for the end of the budget or before, and behind a timer that
fires at that time or later it is settled as soon as no code is running. -/
theorem settles_in_time {nowMs timeout : UInt64} (hb : Built B t nowMs timeout)
    (hlimit : nowMs.toNat + timeout.toNat ≤ 2 ^ 53) (hsize : WholeOrOff options)
    {labels : List Connection.Label} (hraise : ∀ l ∈ labels, l.isRaise = false)
    (hturn : Meets step (fun d l => d.betweenTurns l = true)
      (start (E := engine B) options (created t)) labels) :
    let d := run step (start (E := engine B) options (created t))
    (d labels).SettledOnce ∧
      ((d labels).idle = true → (d labels).promise = .pending →
        (d labels).timerArmed = true ∧ ∃ scheduled, (d labels).scheduledDeadline = some scheduled ∧
          scheduled.le (.ofInt (nowMs.toNat + timeout.toNat : Nat)) = true) ∧
      ∀ before now after, labels = before ++ .timer now :: after →
        (F64.ofInt (nowMs.toNat + timeout.toNat : Nat)).le now = true →
        (d before).idle = true → (d labels).idle = true → (d labels).promise ≠ .pending := by
  obtain ⟨C, hr⟩ := hb.ready
  have hstart := settling_created C hsize hlimit hr
  have hopens := Connection.single_run hstart.toOrderly (fun _ => ⟨Nat.le_refl 1, nofun⟩) hraise hturn
  have hsettling := Connection.settling_run hstart hraise hopens
  refine ⟨hsettling.settledOnce, fun hi hp => ?_, ?_⟩
  · exact Connection.firesBy_iff.mp (hsettling.pending hi hp).2.2.2
  · rintro before now after rfl hnow hi hend hpend
    obtain ⟨hbefore, hafter⟩ := meets_append.mp hopens
    obtain ⟨hraiseBefore, hraiseAfter⟩ := List.forall_mem_append.mp hraise
    have hthen := Connection.settling_run hstart hraiseBefore hbefore
    have hpending : (run step (start (E := engine B) options (created t)) before).promise =
        .pending := by
      by_contra hn
      have hlast : (run step _ (.timer now :: after)).promise = _ := Connection.promise_run hn
      rw [← run_append] at hlast
      exact hn (hlast.symm.trans hpend)
    have hticked := hthen.timer hi hpending hnow
    have hlast := Connection.settling_run hticked (List.forall_mem_cons.mp hraiseAfter).2 hafter.2
    rw [← run_cons, ← run_append] at hlast
    exact (hlast.pending hend hpend).2.2.1

/-- The backend over the scripted layers, and the connection of its dialer. -/
def scripted : Backend := direct Direct.Script.layers fun _ _ => none

def dialing : Connection (engine scripted) :=
  start Script.batched (created (B := scripted) Direct.Script.dialer)

/-- Nobody answers the dialer, and the timer fires at the end of its budget. -/
def unanswered : List Connection.Label :=
  Script.steps 5 ++ [.timer (.finite 30000)] ++ Script.settle

theorem settles_in_time_unanswered :
    (run step dialing unanswered).SettledOnce ∧ (run step dialing unanswered).promise ≠ .pending := by
  have hraise : ∀ l ∈ unanswered, l.isRaise = false := by decide +kernel
  have hturn : Meets step (fun d l => d.betweenTurns l = true) dialing unanswered := by
    decide +kernel
  have h := settles_in_time (.direct (fun _ _ => none) Direct.Script.build_dialer) (by decide)
    (fun _ => ⟨by decide +kernel, by decide +kernel⟩) hraise hturn
  exact ⟨h.1, h.2.2 (Script.steps 5) (.finite 30000) Script.settle rfl (by decide +kernel)
    (by decide +kernel) (by decide +kernel)⟩

end RtcTunnel.Stack
