import Mathlib.Algebra.Ring.Nat
import RtcTunnel.Direct.Script

/-!
# Waking at the reported deadline

`next_deadline` reports the earliest pending instant in whole milliseconds, and `tick`
turns that number back into an instant. The way there rounds down and may wrap around, so
the instant that comes back can be earlier than the one that was pending.
-/

namespace RtcTunnel.Direct

open RtcTunnel.Core
open RtcTunnel.Base.Run (run)

set_option autoImplicit false

namespace DirectTunnel

variable {L : Layers}

/-- The deadlines that are pending: of the handshake, ICE, DTLS and the association. -/
def pending (t : DirectTunnel L) : List Instant :=
  (if t.opened then [] else [t.handshakeDeadline]) ++ (L.ice.pollTimeout t.ice).1.toList ++
    (if t.dtlsStarted then (L.dtls.pollTimeout t.dtls t.remoteAddr).toList else []) ++
    (t.association.bind L.sctp.pollTimeout).toList

/-- A tick, by the instant that it hands to every layer and holds the handshake against. -/
def tickAt (t : DirectTunnel L) (now : Instant) : DirectTunnel L :=
  let t := ({ t with lastNow := now }.handleTimeouts now).pump.1
  if !t.opened && decide (t.handshakeDeadline ≤ now) then t.finish .timeout else t

/-- A tick at the reported deadline hands every layer an instant that is not before the
earliest deadline. -/
def Progresses (t : DirectTunnel L) (earliest : Instant) : Prop :=
  ∃ d, t.nextDeadline.1 = some d ∧
    t.nextDeadline.2.tick d = t.nextDeadline.2.tickAt (t.epoch.addMillis d) ∧
    earliest ≤ t.epoch.addMillis d

/-- An instant a whole number of milliseconds behind the epoch, fewer than 2^64 of them. -/
def OnMillisecond (t : DirectTunnel L) (i : Instant) : Prop :=
  (i - t.epoch) % 1000000 = 0 ∧ (i - t.epoch) / 1000000 < 2 ^ 64

instance (t : DirectTunnel L) (i : Instant) : Decidable (t.OnMillisecond i) := instDecidableAnd

theorem earlier_min (best : List Instant) (i : Option Instant) :
    earlier best.min? i = (best ++ i.toList).min? := by
  cases i with
  | none => rw [Option.toList_none, List.append_nil, earlier]
  | some i =>
    cases best with
    | nil => rfl
    | cons b best =>
      rw [earlier, List.min?_cons', Option.elim_some, Option.toList_some, List.cons_append,
        List.min?_cons', List.foldl_append, List.foldl_cons, List.foldl_nil, min_comm]

/-- The code's running minimum is the minimum of what is pending. -/
theorem nextDeadline_pending {t : DirectTunnel L} (hf : t.finished = false) :
    t.nextDeadline.1 = t.pending.min?.map t.ms := by
  rw [nextDeadline, if_neg (by rw [hf]; exact Bool.false_ne_true), pending]
  have hfirst : (if t.opened then none else some t.handshakeDeadline) =
      (if t.opened then [] else [t.handshakeDeadline]).min? := by
    split <;> rfl
  dsimp only
  rw [hfirst, earlier_min]
  by_cases hs : t.dtlsStarted = true
  · rw [if_pos hs, if_pos hs, earlier_min, earlier_min]
  · rw [if_neg hs, if_neg hs, earlier_min, List.append_nil]

/-- To milliseconds and back. -/
theorem addMillis_millisSince (epoch i : Nat) :
    i ≤ Instant.addMillis epoch (Instant.millisSince i epoch) ↔
      (i - epoch) % 1000000 = 0 ∧ (i - epoch) / 1000000 < 2 ^ 64 := by
  show i ≤ epoch + (UInt64.ofNat ((i - epoch) / 1000000)).toNat * 1000000 ↔ _
  rw [UInt64.toNat_ofNat']
  generalize hx : i - epoch = x
  have hdiv := Nat.div_add_mod x 1000000
  have hmod := Nat.mod_le (x / 1000000) (2 ^ 64)
  constructor
  · intro h
    by_cases hlt : x / 1000000 < 2 ^ 64
    · rw [Nat.mod_eq_of_lt hlt] at h
      refine ⟨?_, hlt⟩
      omega
    · have hm : x / 1000000 % 2 ^ 64 < 2 ^ 64 := Nat.mod_lt _ (by decide)
      omega
  · rintro ⟨hz, hlt⟩
    rw [Nat.mod_eq_of_lt hlt]
    omega

/-- **A tick at the reported deadline reaches the earliest pending deadline exactly when
that deadline is a whole number of milliseconds, fewer than 2^64, behind the epoch.** -/
theorem progresses_iff {t : DirectTunnel L} {earliest : Instant} (hf : t.finished = false)
    (he : t.pending.min? = some earliest) : t.Progresses earliest ↔ t.OnMillisecond earliest := by
  have hd : t.nextDeadline.1 = some (t.ms earliest) := by
    rw [nextDeadline_pending hf, he, Option.map_some]
  have ht : t.nextDeadline.2.tick (t.ms earliest) =
      t.nextDeadline.2.tickAt (t.epoch.addMillis (t.ms earliest)) := by
    have hn : ¬ t.finished = true := by
      rw [hf]
      exact Bool.false_ne_true
    rw [nextDeadline, if_neg hn]
    dsimp only
    rw [tick, if_neg hn]
    rfl
  unfold OnMillisecond
  rw [← addMillis_millisSince]
  constructor
  · rintro ⟨d, hd', _, hle⟩
    cases hd.symm.trans hd'
    exact hle
  · intro hle
    exact ⟨_, hd, ht, hle⟩

theorem progresses_dialer : Script.dialer.Progresses 30000000000 :=
  (progresses_iff (by decide) (by decide +kernel)).mpr (by decide)

end DirectTunnel

namespace Script

/-- ICE that checks half a millisecond after it was last heard. -/
def checking : IceApi :=
  { ice with
    handleTimeout := fun (a : Agent) now =>
      (if a.seen + 500000 ≤ now then { a with seen := now } else a, .ok ())
    pollTimeout := fun (a : Agent) => (some (a.seen + 500000), a) }

def checkingLayers : Layers := { layers with ice := checking }

theorem build_checking :
    (DirectTunnel.construct checkingLayers host config localAddr 0 .new).isOk = true := by
  decide +kernel

def checkingDialer : DirectTunnel checkingLayers := Base.okValue _ build_checking

end Script

namespace DirectTunnel

/-- The deadline of ICE is reported as the millisecond before it. A tick there comes too
early, and the same deadline is found pending behind it. -/
theorem deadline_rounded_down :
    ∃ t, construct Script.checkingLayers Script.host Script.config Script.localAddr 0 .new = .ok t ∧
      t.finished = false ∧ t.pending.min? = some 500000 ∧ t.nextDeadline.1 = some 0 ∧
      ¬ t.Progresses 500000 ∧ (t.nextDeadline.2.tick 0).finished = false ∧
      (t.nextDeadline.2.tick 0).pending.min? = some 500000 ∧
      (t.nextDeadline.2.tick 0).nextDeadline.1 = some 0 := by
  have hd : Script.checkingDialer.nextDeadline.1 = some 0 := by decide +kernel
  refine ⟨Script.checkingDialer, Base.eq_ok_okValue _ Script.build_checking, by decide +kernel,
    by decide +kernel, hd, ?_, by decide +kernel, by decide +kernel, by decide +kernel⟩
  rintro ⟨d, hd', _, hle⟩
  cases hd.symm.trans hd'
  have hlt : ¬ 500000 ≤ Script.checkingDialer.epoch.addMillis 0 := by decide +kernel
  exact hlt hle

end DirectTunnel

end RtcTunnel.Direct
