import RtcTunnel.Direct.Budget
import RtcTunnel.Stack.Contracts

/-!
# Tunnels that were built

A tunnel fresh from a constructor waits for its channel, or has announced an event that ends
the wait; its budget is the time of its construction and its timeout.
-/

namespace RtcTunnel.Stack

open RtcTunnel.Core
open RtcTunnel.Base (bind_ok)
open RtcTunnel.Direct (DirectTunnel Layers BuildHost)
open RtcTunnel.Umbrella (PeerConnectionApi)

set_option autoImplicit false

/-- A tunnel that a constructor of one of the backends built at a time, with a timeout. -/
inductive Built : (B : Backend) → B.Tunnel → UInt64 → UInt64 → Prop where
  | direct {L : Layers} (cipherSuite : L.dtls.Endpoint → SocketAddr → Option Text) {h : BuildHost}
      {config : TunnelConfig} {localAddr : SocketAddr} {nowMs : UInt64}
      {c : DirectTunnel.Constructor} {t : DirectTunnel L}
      (hc : DirectTunnel.construct L h config localAddr nowMs c = .ok t) :
      Built (direct L cipherSuite) t nowMs config.handshakeTimeoutMs
  | umbrella {P : PeerConnectionApi} (dtlsCipher : P.Pc → Instant → Option Text × P.Pc)
      {clock : Umbrella.Tunnel.Clock} {config : TunnelConfig} {localAddr : SocketAddr}
      {nowMs : UInt64} {c : Umbrella.Tunnel.Constructor} {t : Umbrella.Tunnel P}
      (hc : Umbrella.Tunnel.construct P clock config localAddr nowMs c = .ok t) :
      Built (umbrella P dtlsCipher) t nowMs config.handshakeTimeoutMs

/-- What is known of a tunnel behind its constructor. -/
structure Ready {B : Backend} (C : B.Contract) (t : B.Tunnel) (limit : Nat) : Prop where
  fresh : (C.view t).Waiting ∨ (C.view t).Announced
  budget : C.budget t = limit

theorem ready_direct {L : Layers} (cipherSuite : L.dtls.Endpoint → SocketAddr → Option Text)
    {h : BuildHost} {config : TunnelConfig} {localAddr : SocketAddr} {nowMs : UInt64}
    {c : DirectTunnel.Constructor} {t : DirectTunnel L}
    (hc : DirectTunnel.construct L h config localAddr nowMs c = .ok t) :
    Ready (directContract L cipherSuite) t (nowMs.toNat + config.handshakeTimeoutMs.toNat) := by
  have hd := DirectTunnel.deadline_construct hc
  obtain ⟨_, _, _, _, _, _, _, _, ht⟩ := DirectTunnel.built_construct hc
  have hview : t.view = ⟨false, false, []⟩ := by
    rw [ht]
    rfl
  refine ⟨.inl ?_, ?_⟩
  · show t.view.Waiting
    rw [hview]
    exact ⟨rfl, rfl, fun _ hm => absurd hm List.not_mem_nil⟩
  · show budgetOf t.epoch t.handshakeDeadline = _
    rw [hd]
    exact budgetOf_built t.epoch nowMs config.handshakeTimeoutMs

section Umbrella

variable {P : PeerConnectionApi} {config : TunnelConfig} {localAddr : SocketAddr} {nowMs : UInt64}

/-- A tunnel that grew from a fresh one. -/
def FromFresh (config : TunnelConfig) (localAddr : SocketAddr) (nowMs : UInt64)
    (t : Umbrella.Tunnel P) : Prop :=
  ∃ epoch pc handle, (Umbrella.Tunnel.fresh config localAddr nowMs epoch pc handle).Grows t

theorem fromFresh_offerer {clock : Umbrella.Tunnel.Clock} {t : Umbrella.Tunnel P}
    (hc : Umbrella.Tunnel.offerer P clock config localAddr nowMs = .ok t) :
    FromFresh config localAddr nowMs t := by
  unfold Umbrella.Tunnel.offerer at hc
  split at hc
  · cases hc
  · obtain ⟨⟨_, handle⟩, _, hc⟩ := bind_ok hc
    obtain ⟨_, _, hc⟩ := bind_ok hc
    obtain ⟨_, _, hc⟩ := bind_ok hc
    cases hc
    exact ⟨_, _, handle, Umbrella.Tunnel.grows_drain _⟩

theorem grows_applyRemoteAnswer (t : Umbrella.Tunnel P) (answer : P.Description) :
    t.Grows (t.applyRemoteAnswer answer).1 := by
  have h := Umbrella.Tunnel.grows_fields t (P.setRemoteDescription t.pc t.lastNow answer).1 t.lastNow
  unfold Umbrella.Tunnel.applyRemoteAnswer
  dsimp only
  split
  · exact h.trans (Umbrella.Tunnel.grows_drain _)
  · exact h

theorem fromFresh_construct {clock : Umbrella.Tunnel.Clock} {c : Umbrella.Tunnel.Constructor}
    {t : Umbrella.Tunnel P}
    (hc : Umbrella.Tunnel.construct P clock config localAddr nowMs c = .ok t) :
    FromFresh config localAddr nowMs t := by
  cases c with
  | new =>
    have hc : Umbrella.Tunnel.new P clock config localAddr nowMs = .ok t := hc
    unfold Umbrella.Tunnel.new at hc
    repeat' split at hc
    all_goals first
      | cases hc
      | skip
    obtain ⟨offer, ho, hc⟩ := bind_ok hc
    obtain ⟨answer, _, hc⟩ := bind_ok hc
    obtain ⟨_, _, hc⟩ := bind_ok hc
    cases hc
    obtain ⟨epoch, pc, handle, hg⟩ := fromFresh_offerer ho
    exact ⟨epoch, pc, handle, hg.trans (grows_applyRemoteAnswer offer answer)⟩
  | offerer => exact fromFresh_offerer hc
  | answerer sdp =>
    have hc : Umbrella.Tunnel.answerer P clock config localAddr sdp nowMs = .ok t := hc
    unfold Umbrella.Tunnel.answerer at hc
    split at hc
    · cases hc
    · obtain ⟨⟨_, handle⟩, _, hc⟩ := bind_ok hc
      obtain ⟨_, _, hc⟩ := bind_ok hc
      obtain ⟨_, _, hc⟩ := bind_ok hc
      obtain ⟨_, _, hc⟩ := bind_ok hc
      obtain ⟨_, _, hc⟩ := bind_ok hc
      cases hc
      exact ⟨_, _, handle, Umbrella.Tunnel.grows_drain _⟩

theorem ready_umbrella (dtlsCipher : P.Pc → Instant → Option Text × P.Pc)
    {clock : Umbrella.Tunnel.Clock} {c : Umbrella.Tunnel.Constructor} {t : Umbrella.Tunnel P}
    (hc : Umbrella.Tunnel.construct P clock config localAddr nowMs c = .ok t) :
    Ready (umbrellaContract P dtlsCipher) t
      (nowMs.toNat + config.handshakeTimeoutMs.toNat) := by
  obtain ⟨epoch, pc, handle, hg⟩ := fromFresh_construct hc
  refine ⟨View.Grows.fresh hg.view, ?_⟩
  show budgetOf t.epoch t.handshakeDeadline = _
  rw [hg.epoch, hg.handshakeDeadline]
  exact budgetOf_built epoch nowMs config.handshakeTimeoutMs

end Umbrella

/-- **Whatever built it, a tunnel is ready for its host.** -/
theorem Built.ready {B : Backend} {t : B.Tunnel} {nowMs timeout : UInt64}
    (h : Built B t nowMs timeout) :
    ∃ C : B.Contract, Ready C t (nowMs.toNat + timeout.toNat) := by
  cases h with
  | direct cipherSuite hc => exact ⟨_, ready_direct cipherSuite hc⟩
  | umbrella dtlsCipher hc => exact ⟨_, ready_umbrella dtlsCipher hc⟩

end RtcTunnel.Stack
