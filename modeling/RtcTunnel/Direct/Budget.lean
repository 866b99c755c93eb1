import Mathlib.Algebra.Ring.Nat
import RtcTunnel.Direct.Closing
import RtcTunnel.Direct.Parameters
import RtcTunnel.Direct.Script

/-!
# The handshake budget

A tunnel built at time `s` with a timeout `T` times out at the first tick at `s + T` or
later that leaves it unopened. The epoch drops out: the deadline and the time of a tick
are both counted from it.
-/

namespace RtcTunnel.Core

set_option autoImplicit false

/-- An `Instant` holds its seconds in a number below 2^63. -/
def Instant.Representable (i : Instant) : Prop := i < 2 ^ 63 * 1000000000

/-- A deadline that is `m` milliseconds and then `k` more away has come `n` milliseconds
from the same epoch exactly when `m + k ≤ n`. -/
theorem Instant.addMillis_addMillis_le (epoch : Nat) (m k n : UInt64) :
    (Instant.addMillis epoch m).addMillis k ≤ Instant.addMillis epoch n ↔
      m.toNat + k.toNat ≤ n.toNat := by
  show epoch + m.toNat * 1000000 + k.toNat * 1000000 ≤ epoch + n.toNat * 1000000 ↔ _
  omega

/-- Two `u64` of milliseconds fit behind an instant of the first 2^62 seconds. -/
theorem Instant.representable_addMillis (epoch : Nat) (h : epoch < 2 ^ 62 * 1000000000)
    (m k : UInt64) : ((Instant.addMillis epoch m).addMillis k).Representable := by
  have hm := m.toNat_lt
  have hk := k.toNat_lt
  show epoch + m.toNat * 1000000 + k.toNat * 1000000 < 2 ^ 63 * 1000000000
  omega

end RtcTunnel.Core

namespace RtcTunnel.Direct

open RtcTunnel.Core
open RtcTunnel.Base (bind_ok)
open RtcTunnel.Base.Run

set_option autoImplicit false

/-- What is assumed of `Instant::now`: it counts from an origin less than 2^62 seconds ago. -/
def BuildHost.ClockRecent (h : BuildHost) : Prop :=
  h.instantNow < 2 ^ 62 * 1000000000 ∧ h.instantNowAgain < 2 ^ 62 * 1000000000

/-- The epoch that `build` computes at time `nowMs`. -/
def BuildHost.epoch (h : BuildHost) (nowMs : UInt64) : Instant :=
  epochOf h.instantNow h.instantNowAgain nowMs

/-- Neither branch of the epoch leaves too little room for the times of a tunnel. -/
theorem BuildHost.representable {h : BuildHost} (hc : h.ClockRecent) (nowMs m k : UInt64) :
    (((h.epoch nowMs).addMillis m).addMillis k).Representable := by
  refine Instant.representable_addMillis _ ?_ m k
  obtain ⟨hnow, hagain⟩ := hc
  unfold BuildHost.epoch epochOf
  split
  · exact Nat.lt_of_le_of_lt (Nat.sub_le _ _) hnow
  · exact hagain

namespace DirectTunnel

variable {L : Layers}

theorem epoch_startChecks {t r : DirectTunnel L} (hr : t.startChecks = .ok r) :
    r.epoch = t.epoch := by
  obtain ⟨_, _, hr⟩ := bind_ok hr
  cases hr
  rfl

theorem epoch_build {h : BuildHost} {role : Role} {config : TunnelConfig} {localAddr : SocketAddr}
    {nowMs : UInt64} {t : DirectTunnel L} (hb : build L h role config localAddr nowMs = .ok t) :
    t.epoch = h.epoch nowMs := by
  obtain ⟨_, _, hb⟩ := bind_ok hb
  obtain ⟨ice, _, hb⟩ := bind_ok hb
  obtain ⟨prepared, hp, hb⟩ := bind_ok hb
  obtain ⟨candidates, hc, hb⟩ := bind_ok hb
  obtain ⟨_, _, hb⟩ := bind_ok hb
  cases hb
  have hprepared : prepared.epoch = h.epoch nowMs := by
    obtain ⟨_, _, hp⟩ := bind_ok hp
    obtain ⟨_, _, hp⟩ := bind_ok hp
    obtain ⟨_, _, hp⟩ := bind_ok hp
    cases hp
    rfl
  obtain ⟨_, _, hc⟩ := bind_ok hc
  obtain ⟨_, _, hc⟩ := bind_ok hc
  obtain ⟨_, _, hc⟩ := bind_ok hc
  obtain ⟨_, _, hc⟩ := bind_ok hc
  cases hc
  exact hprepared

theorem epoch_construct {h : BuildHost} {config : TunnelConfig} {localAddr : SocketAddr}
    {nowMs : UInt64} {c : Constructor} {t : DirectTunnel L}
    (hc : construct L h config localAddr nowMs c = .ok t) : t.epoch = h.epoch nowMs := by
  obtain ⟨_, _, built, _, hb, ht⟩ := build_of_construct hc
  exact (epoch_startChecks ht).trans (epoch_build hb)

/-- The budget is counted from the construction, whoever wrote the configuration. -/
theorem deadline_construct {h : BuildHost} {config : TunnelConfig} {localAddr : SocketAddr}
    {nowMs : UInt64} {c : Constructor} {t : DirectTunnel L}
    (hc : construct L h config localAddr nowMs c = .ok t) :
    t.handshakeDeadline = (t.epoch.addMillis nowMs).addMillis config.handshakeTimeoutMs := by
  obtain ⟨config', hconfig, _, _, _, _, _, _, rfl⟩ := built_construct hc
  have ht : config'.handshakeTimeoutMs = config.handshakeTimeoutMs := by
    cases c with
    | answerer sdp =>
      obtain ⟨offer, _, hconfig⟩ := bind_ok hconfig
      cases hconfig
      rfl
    | _ =>
      cases hconfig
      rfl
  rw [← ht]
  rfl

theorem clock_step (t : DirectTunnel L) (op : Op) :
    (t.step op).epoch = t.epoch ∧ (t.step op).handshakeDeadline = t.handshakeDeadline := by
  cases hs : op.isSetting with
  | false =>
    have hp := parameters_step (t := t) hs
    exact ⟨congrArg Parameters.epoch hp, congrArg Parameters.handshakeDeadline hp⟩
  | true =>
    cases op with
    | applyRemoteAnswerSdp sdp =>
      rw [step, applyRemoteAnswerSdp]
      split <;> exact ⟨rfl, rfl⟩
    | setRemote remote => exact ⟨rfl, rfl⟩
    | setRemoteIceCredentials ufrag pwd => exact ⟨rfl, rfl⟩
    | setSendBufferCap cap => exact ⟨rfl, rfl⟩
    | _ => cases hs

theorem clock_run (t : DirectTunnel L) (ops : List Op) :
    (run step t ops).epoch = t.epoch ∧ (run step t ops).handshakeDeadline = t.handshakeDeadline :=
  invariant (I := fun r : DirectTunnel L =>
      r.epoch = t.epoch ∧ r.handshakeDeadline = t.handshakeDeadline)
    (fun r op hr => ⟨(clock_step r op).1.trans hr.1, (clock_step r op).2.trans hr.2⟩) ops ⟨rfl, rfl⟩

/-- A tick at `budget` or later whose pump leaves the tunnel neither finished nor open. -/
def Expires (t : DirectTunnel L) (budget : Nat) : Op → Prop
  | .tick nowMs => ∃ s, t.pumpEntry (.tick nowMs) = some s ∧ s.pump.1.finished = false ∧
      s.pump.1.opened = false ∧ budget ≤ nowMs.toNat
  | _ => False

/-- What an operation pushes. -/
def Pushes (t : DirectTunnel L) (op : Op) (es : List Event) : Prop :=
  pushed (t.step op) = pushed t ++ es

theorem timeout_not_mem_pump (s : DirectTunnel L) :
    .closed .timeout ∉ iceOut s ++ (if s.loses then [.closed .remote] else []) ++ readOut s ++
      flushOut s := by
  intro hm
  rw [List.append_assoc, List.mem_append, List.mem_append] at hm
  rcases hm with (hm | hm) | hm
  · exact not_closed_iceOut s _ hm rfl
  · split at hm
    · exact absurd (List.mem_singleton.mp hm) nofun
    · cases hm
  · exact not_closed_rest s _ hm rfl

theorem timeout_mem_timeoutOut {s : DirectTunnel L} {epoch : Instant} {op : Op} :
    .closed .timeout ∈ timeoutOut s epoch op ↔
      ∃ nowMs, op = .tick nowMs ∧ s.pump.1.finished = false ∧ s.pump.1.opened = false ∧
        s.pump.1.handshakeDeadline ≤ epoch.addMillis nowMs := by
  cases op with
  | tick nowMs =>
    rw [timeoutOut]
    split
    · rename_i h
      simp only [Bool.and_eq_true, Bool.not_eq_true', decide_eq_true_eq] at h
      exact ⟨fun _ => ⟨nowMs, rfl, h.2, h.1⟩, fun _ => List.mem_singleton_self _⟩
    · rename_i h
      simp only [Bool.and_eq_true, Bool.not_eq_true', decide_eq_true_eq] at h
      refine ⟨by simp, ?_⟩
      rintro ⟨n, he, hf, ho, hd⟩
      cases he
      exact absurd ⟨⟨ho, hd⟩, hf⟩ h
  | _ =>
    refine ⟨fun hm => absurd hm List.not_mem_nil, ?_⟩
    rintro ⟨n, he, _⟩
    cases he

/-- **An operation pushes `Closed(Timeout)` exactly when it is a tick that expires.** -/
theorem pushes_timeout_iff {t : DirectTunnel L} {budget : Nat} (op : Op)
    (hd : ∀ nowMs : UInt64, t.handshakeDeadline ≤ t.epoch.addMillis nowMs ↔ budget ≤ nowMs.toNat) :
    ∃ es, t.Pushes op es ∧ (.closed .timeout ∈ es ↔ t.Expires budget op) := by
  cases hp : t.pumpEntry op with
  | none =>
    obtain ⟨ds, closed, hpushed, hclosed, _⟩ := pushed_step_none hp
    refine ⟨_, hpushed, ?_, ?_⟩
    · intro hm
      rcases List.mem_append.mp hm with hm | hm
      · exact absurd rfl (not_closed_datagrams ds _ hm)
      · rcases hclosed with rfl | ⟨_, rfl⟩
        · cases hm
        · exact absurd (List.mem_singleton.mp hm) nofun
    · intro he
      cases op with
      | tick nowMs =>
        obtain ⟨s, hs, _⟩ := he
        cases hp.symm.trans hs
      | _ => cases he
  | some s =>
    obtain ⟨hq, hf⟩ := mute_pumpEntry hp
    have hdeadline : s.pump.1.handshakeDeadline = t.handshakeDeadline :=
      congrArg Parameters.handshakeDeadline
        (parameters_calls ((calls_pumpEntry hp).trans (calls_pump s)))
    have hpushed : t.Pushes op (iceOut s ++ (if s.loses then [.closed .remote] else []) ++
        readOut s ++ flushOut s ++ timeoutOut s t.epoch op) := by
      rw [Pushes, pushed_step_pump hp, pushed_pump s (hq.steady.finished.trans hf), hq.pushed,
        List.append_assoc]
    refine ⟨_, hpushed, ?_⟩
    rw [List.mem_append, or_iff_right (timeout_not_mem_pump s), timeout_mem_timeoutOut]
    constructor
    · rintro ⟨nowMs, rfl, hfin, hopen, hle⟩
      exact ⟨s, hp, hfin, hopen, (hd nowMs).mp (hdeadline ▸ hle)⟩
    · intro he
      cases op with
      | tick nowMs =>
        obtain ⟨s', hs', hfin, hopen, hle⟩ := he
        cases hp.symm.trans hs'
        exact ⟨nowMs, rfl, hfin, hopen, hdeadline ▸ (hd nowMs).mpr hle⟩
      | _ => cases he

/-- An open tunnel never expires. -/
theorem not_expires_of_opened {t : DirectTunnel L} {budget : Nat} {op : Op}
    (ho : t.opened = true) : ¬ t.Expires budget op := by
  intro he
  cases op with
  | tick nowMs =>
    obtain ⟨s, hs, _, hn, _⟩ := he
    have hforward := Life.forward_moves (advances_calls ((calls_pumpEntry hs).trans (calls_pump s)))
    exact absurd (hn.symm.trans (hforward.opened ho)) nofun
  | _ => cases he

/-- **The handshake budget is exact.** Whichever branch computes the epoch, an operation of
a tunnel built at `nowMs` pushes `Closed(Timeout)` exactly when it is a tick at
`nowMs + handshakeTimeoutMs` or later, as natural numbers, whose pump leaves the tunnel
neither finished nor open; an open tunnel never times out. With a recent clock no sum of
`build`, `receive` or `tick` overflows. -/
theorem budget_exact {h : BuildHost} {config : TunnelConfig} {localAddr : SocketAddr}
    {nowMs : UInt64} {c : Constructor} {t : DirectTunnel L}
    (hc : construct L h config localAddr nowMs c = .ok t) (ops : List Op) (op : Op) :
    (∃ es, (run step t ops).Pushes op es ∧
      (.closed .timeout ∈ es ↔
        (run step t ops).Expires (nowMs.toNat + config.handshakeTimeoutMs.toNat) op) ∧
      ((run step t ops).opened = true → .closed .timeout ∉ es)) ∧
    (h.ClockRecent → ((h.epoch nowMs).addMillis nowMs).Representable ∧
      (((h.epoch nowMs).addMillis nowMs).addMillis config.handshakeTimeoutMs).Representable ∧
      ∀ later, ((run step t ops).epoch.addMillis later).Representable) := by
  obtain ⟨hepoch, hdeadline⟩ := clock_run t ops
  have hd : ∀ n : UInt64, (run step t ops).handshakeDeadline ≤ (run step t ops).epoch.addMillis n ↔
      nowMs.toNat + config.handshakeTimeoutMs.toNat ≤ n.toNat := by
    intro n
    rw [hepoch, hdeadline, deadline_construct hc]
    exact Instant.addMillis_addMillis_le _ _ _ _
  obtain ⟨es, hpushes, hiff⟩ := pushes_timeout_iff op hd
  refine ⟨⟨es, hpushes, hiff, fun ho hm => not_expires_of_opened ho (hiff.mp hm)⟩, fun hclock => ?_⟩
  have hzero : ∀ i : Instant, i.addMillis 0 = i := fun i => Nat.add_zero i
  have hone : ∀ m, ((h.epoch nowMs).addMillis m).Representable := fun m =>
    hzero ((h.epoch nowMs).addMillis m) ▸ BuildHost.representable hclock nowMs m 0
  refine ⟨hone nowMs, BuildHost.representable hclock nowMs _ _, fun later => ?_⟩
  rw [hepoch, epoch_construct hc]
  exact hone later

/-- A tunnel without a peer times out at the end of its budget. -/
theorem budget_exact_dialer :
    (∃ es, Script.dialer.Pushes (.tick 30000) es ∧ .closed .timeout ∈ es) ∧
      ∀ later, (Script.dialer.epoch.addMillis later).Representable := by
  have he : Script.dialer.Expires 30000 (.tick 30000) := by
    have h : ((Script.dialer.pumpEntry (.tick 30000)).any fun s =>
        !s.pump.1.finished && !s.pump.1.opened) = true := by decide +kernel
    obtain ⟨s, hs, hn⟩ := (Option.any_eq_true ..).mp h
    simp only [Bool.and_eq_true, Bool.not_eq_true'] at hn
    exact ⟨s, hs, hn.1, hn.2, Nat.le_refl _⟩
  obtain ⟨⟨es, hpushes, hiff, _⟩, hclock⟩ := budget_exact Script.build_dialer [] (.tick 30000)
  exact ⟨⟨es, hpushes, hiff.mpr he⟩, (hclock ⟨by decide, by decide⟩).2.2⟩

end DirectTunnel

end RtcTunnel.Direct
