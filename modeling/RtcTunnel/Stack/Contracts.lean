import RtcTunnel.Direct.Parameters
import RtcTunnel.Direct.Queue
import RtcTunnel.Stack.Backend
import RtcTunnel.Umbrella.Queue

/-!
# Both backends keep the contract

The budget of a tunnel is its handshake deadline, counted from its epoch and rounded up to
a whole millisecond. A deadline that is reported rounds down, and a tick at the budget is not
before the deadline.
-/

namespace RtcTunnel.Stack

open RtcTunnel.Core
open RtcTunnel.Direct (DirectTunnel Layers)
open RtcTunnel.Umbrella (PeerConnectionApi)

set_option autoImplicit false

/-- Milliseconds from the epoch to a deadline, rounded up. -/
def budgetOf (epoch deadline : Nat) : Nat := (deadline - epoch + 999999) / 1000000

theorem deadline_le (epoch deadline : Nat) (nowMs : UInt64)
    (h : budgetOf epoch deadline ≤ nowMs.toNat) : deadline ≤ Instant.addMillis epoch nowMs := by
  unfold budgetOf at h
  show deadline ≤ epoch + nowMs.toNat * 1000000
  omega

/-- An instant that is not behind the deadline is reported within the budget. -/
theorem millisSince_le (epoch deadline i : Nat) (h : i ≤ deadline) :
    (Instant.millisSince i epoch).toNat ≤ budgetOf epoch deadline := by
  unfold budgetOf
  show (UInt64.ofNat ((i - epoch) / 1000000)).toNat ≤ _
  rw [UInt64.toNat_ofNat']
  have hmod := Nat.mod_le ((i - epoch) / 1000000) (2 ^ 64)
  omega

/-- The budget of a tunnel that is built. -/
theorem budgetOf_built (epoch : Nat) (nowMs timeout : UInt64) :
    budgetOf epoch ((Instant.addMillis epoch nowMs).addMillis timeout) =
      nowMs.toNat + timeout.toNat := by
  unfold budgetOf
  show (epoch + nowMs.toNat * 1000000 + timeout.toNat * 1000000 - epoch + 999999) / 1000000 = _
  omega

section Direct

variable {L : Layers} {cipherSuite : L.dtls.Endpoint → SocketAddr → Option Text}

/-- A deadline that starts from the handshake deadline is not behind it. -/
theorem earlier_le {deadline : Instant} {best : Option Instant}
    (h : ∃ b, best = some b ∧ b ≤ deadline) (i : Option Instant) :
    ∃ b, DirectTunnel.earlier best i = some b ∧ b ≤ deadline := by
  obtain ⟨b, rfl, hb⟩ := h
  cases i with
  | none => exact ⟨b, rfl, hb⟩
  | some i => exact ⟨min b i, rfl, Nat.le_trans (Nat.min_le_left b i) hb⟩

theorem nextDeadline_due (t : DirectTunnel L) (ho : t.opened = false) (hf : t.finished = false) :
    ∃ i, t.nextDeadline.1 = some (t.ms i) ∧ i ≤ t.handshakeDeadline := by
  have hfirst : ∃ b, (if t.opened then none else some t.handshakeDeadline) = some b ∧
      b ≤ t.handshakeDeadline := ⟨_, if_neg (by rw [ho]; exact Bool.false_ne_true), Nat.le_refl _⟩
  have hice := earlier_le hfirst (L.ice.pollTimeout t.ice).1
  rw [DirectTunnel.nextDeadline, if_neg (by rw [hf]; exact Bool.false_ne_true)]
  dsimp only
  split
  · obtain ⟨i, hi, hle⟩ := earlier_le (earlier_le hice (L.dtls.pollTimeout t.dtls t.remoteAddr))
      (t.association.bind L.sctp.pollTimeout)
    exact ⟨i, by rw [hi]; rfl, hle⟩
  · obtain ⟨i, hi, hle⟩ := earlier_le hice (t.association.bind L.sctp.pollTimeout)
    exact ⟨i, by rw [hi]; rfl, hle⟩

/-- A call leaves the clock of a direct tunnel alone. -/
theorem clock_feed {t r : (direct L cipherSuite).Tunnel} (h : Backend.Feed t r) :
    DirectTunnel.epoch (L := L) r = DirectTunnel.epoch (L := L) t ∧
      DirectTunnel.handshakeDeadline (L := L) r = DirectTunnel.handshakeDeadline (L := L) t := by
  have hop : ∀ op : DirectTunnel.Op, op.isSetting = false →
      (DirectTunnel.step (L := L) t op).epoch = DirectTunnel.epoch (L := L) t ∧
        (DirectTunnel.step (L := L) t op).handshakeDeadline =
          DirectTunnel.handshakeDeadline (L := L) t :=
    fun op hs => ⟨congrArg Direct.Parameters.epoch (DirectTunnel.parameters_step hs),
      congrArg Direct.Parameters.handshakeDeadline (DirectTunnel.parameters_step hs)⟩
  cases h with
  | receive nowMs datagram => exact hop (.receive nowMs datagram) rfl
  | receiveDeferred nowMs datagram => exact hop (.receiveDeferred nowMs datagram) rfl
  | finishInputBatch => exact hop .finishInputBatch rfl
  | tick nowMs => exact hop (.tick nowMs) rfl
  | send data => exact hop (.send data) rfl
  | close => exact hop .close rfl

theorem clock_nextDeadline (t : DirectTunnel L) : t.nextDeadline.2.epoch = t.epoch ∧
    t.nextDeadline.2.handshakeDeadline = t.handshakeDeadline := by
  unfold DirectTunnel.nextDeadline
  split <;> exact ⟨rfl, rfl⟩

/-- A tick at the handshake deadline leaves the tunnel open or finished. -/
theorem tick_expires (t : DirectTunnel L) (nowMs : UInt64)
    (h : t.handshakeDeadline ≤ t.epoch.addMillis nowMs) :
    (t.tick nowMs).opened = true ∨ (t.tick nowMs).finished = true := by
  by_cases hf : t.finished = true
  · rw [DirectTunnel.tick, if_pos hf]
    exact .inr hf
  · have hd : (t.tick nowMs).handshakeDeadline = t.handshakeDeadline :=
      congrArg Direct.Parameters.handshakeDeadline
        (DirectTunnel.parameters_step (rfl : (Direct.DirectTunnel.Op.tick nowMs).isSetting = false))
    rw [DirectTunnel.tick, if_neg hf] at hd ⊢
    dsimp only at hd ⊢
    split at hd
    · rename_i hx
      rw [if_pos hx]
      refine .inr ?_
      unfold DirectTunnel.finish
      split
      · assumption
      · rfl
    · rename_i hx
      rw [if_neg hx]
      refine .inl ?_
      by_contra ho
      refine hx ?_
      rw [Bool.and_eq_true, decide_eq_true_eq, hd]
      exact ⟨by simpa using ho, h⟩

def directContract (L : Layers) (cipherSuite : L.dtls.Endpoint → SocketAddr → Option Text) :
    (direct L cipherSuite).Contract where
  view := DirectTunnel.view
  budget (t : DirectTunnel L) := budgetOf t.epoch t.handshakeDeadline
  isOpen _ := rfl
  isFinished _ := rfl
  grows {t r} h := by
    cases h with
    | receive nowMs datagram => exact (DirectTunnel.grows_receive t nowMs datagram).view
    | receiveDeferred nowMs datagram => exact (DirectTunnel.grows_receiveDeferred t nowMs datagram).view
    | finishInputBatch => exact (DirectTunnel.grows_finishInputBatch t).view
    | tick nowMs => exact (DirectTunnel.grows_tick t nowMs).view
    | send data => exact (DirectTunnel.grows_send t data).view
    | close => exact (DirectTunnel.grows_close t).view
  looks {t r} h := by
    cases h with
    | nextDeadline => exact DirectTunnel.view_nextDeadline t
    | negotiatedCipherSuite => rfl
    | setSendBufferCap cap => rfl
  pollEvent _ := ⟨rfl, rfl⟩
  fixed {t r} h := by
    rcases h with h | h | rfl
    · obtain ⟨he, hd⟩ := clock_feed h
      exact congrArg₂ budgetOf he hd
    · cases h with
      | nextDeadline =>
        obtain ⟨he, hd⟩ := clock_nextDeadline (L := L) t
        exact congrArg₂ budgetOf he hd
      | negotiatedCipherSuite => rfl
      | setSendBufferCap cap => rfl
    · rfl
  due (t : DirectTunnel L) ho hf := by
    obtain ⟨i, hi, hle⟩ := nextDeadline_due t ho hf
    exact ⟨t.ms i, hi, millisSince_le t.epoch t.handshakeDeadline i hle⟩
  expires (t : DirectTunnel L) nowMs h :=
    tick_expires t nowMs (deadline_le t.epoch t.handshakeDeadline nowMs h)

end Direct

section Umbrella

variable {P : PeerConnectionApi} {dtlsCipher : P.Pc → Instant → Option Text × P.Pc}

theorem grows_feed {t r : (umbrella P dtlsCipher).Tunnel} (h : Backend.Feed t r) :
    Umbrella.Tunnel.Grows (P := P) t r := by
  cases h with
  | receive nowMs datagram => exact Umbrella.Tunnel.grows_receive t nowMs datagram
  | receiveDeferred nowMs datagram => exact Umbrella.Tunnel.grows_receiveDeferred t nowMs datagram
  | finishInputBatch => exact Umbrella.Tunnel.grows_finishInputBatch t
  | tick nowMs => exact Umbrella.Tunnel.grows_tick t nowMs
  | send data => exact Umbrella.Tunnel.grows_send t data
  | close => exact Umbrella.Tunnel.grows_close t

/-- What a look leaves of the tunnel but its peer connection and its cap. -/
theorem looks_umbrella {t r : (umbrella P dtlsCipher).Tunnel} (h : Backend.Look t r) :
    ∃ (pc : P.Pc) (cap : Nat), r =
      ({ (t : Umbrella.Tunnel P) with pc := pc, sendBufferCap := cap } : Umbrella.Tunnel P) := by
  cases h with
  | nextDeadline =>
    show ∃ (pc : P.Pc) (cap : Nat), Prod.snd (Umbrella.Tunnel.nextDeadline (P := P) t) = _
    unfold Umbrella.Tunnel.nextDeadline
    split
    · exact ⟨Umbrella.Tunnel.pc t, Umbrella.Tunnel.sendBufferCap t, rfl⟩
    · exact ⟨_, Umbrella.Tunnel.sendBufferCap t, rfl⟩
  | negotiatedCipherSuite => exact ⟨_, Umbrella.Tunnel.sendBufferCap t, rfl⟩
  | setSendBufferCap cap => exact ⟨Umbrella.Tunnel.pc t, cap, rfl⟩

theorem umbrella_due (t : Umbrella.Tunnel P) (ho : t.opened = false) (hf : t.finished = false) :
    ∃ i, t.nextDeadline.1 = some (t.ms i) ∧ i ≤ t.handshakeDeadline := by
  rw [Umbrella.Tunnel.nextDeadline, if_neg (by rw [hf]; exact Bool.false_ne_true)]
  dsimp only
  rw [if_neg (by rw [ho]; exact Bool.false_ne_true)]
  cases (P.pollTimeout t.pc).1 with
  | none => exact ⟨_, rfl, Nat.le_refl _⟩
  | some i => exact ⟨min t.handshakeDeadline i, rfl, Nat.min_le_left _ _⟩

theorem umbrella_expires (t : Umbrella.Tunnel P) (nowMs : UInt64)
    (h : t.handshakeDeadline ≤ t.epoch.addMillis nowMs) :
    (t.tick nowMs).opened = true ∨ (t.tick nowMs).finished = true := by
  by_cases hf : t.finished = true
  · rw [Umbrella.Tunnel.tick, if_pos hf]
    exact .inr hf
  · rw [Umbrella.Tunnel.tick, if_neg hf]
    dsimp only
    by_cases ho : t.opened = true
    · rw [if_neg (by rw [ho]; exact Bool.false_ne_true)]
      exact .inl ((Umbrella.Tunnel.grows_drain _).view.forward.1 ho)
    · rw [if_pos (by rw [Bool.eq_false_iff.mpr ho, decide_eq_true h]; rfl)]
      refine .inr ?_
      rw [Umbrella.Tunnel.finish, if_neg hf]
      rfl

def umbrellaContract (P : PeerConnectionApi) (dtlsCipher : P.Pc → Instant → Option Text × P.Pc) :
    (umbrella P dtlsCipher).Contract where
  view := Umbrella.Tunnel.view
  budget (t : Umbrella.Tunnel P) := budgetOf t.epoch t.handshakeDeadline
  isOpen _ := rfl
  isFinished _ := rfl
  grows h := (grows_feed h).view
  looks h := by
    obtain ⟨pc, cap, rfl⟩ := looks_umbrella h
    rfl
  pollEvent _ := ⟨rfl, rfl⟩
  fixed {t r} h := by
    rcases h with h | h | rfl
    · exact congrArg₂ budgetOf (grows_feed h).epoch (grows_feed h).handshakeDeadline
    · obtain ⟨pc, cap, rfl⟩ := looks_umbrella h
      rfl
    · rfl
  due (t : Umbrella.Tunnel P) ho hf := by
    obtain ⟨i, hi, hle⟩ := umbrella_due t ho hf
    exact ⟨t.ms i, hi, millisSince_le t.epoch t.handshakeDeadline i hle⟩
  expires (t : Umbrella.Tunnel P) nowMs h :=
    umbrella_expires t nowMs (deadline_le t.epoch t.handshakeDeadline nowMs h)

end Umbrella

end RtcTunnel.Stack
