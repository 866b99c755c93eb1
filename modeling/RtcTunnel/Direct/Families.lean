import RtcTunnel.Direct.Parameters
import RtcTunnel.Direct.Script

/-!
# What the constructors check

`new` and `answerer` refuse a stream id above 65534 and addresses of two families; `offerer`
takes any configuration, and `set_remote` any address.
-/

namespace RtcTunnel.Direct

open RtcTunnel.Core
open RtcTunnel.Base (bind_ok)
open RtcTunnel.Base.Run

set_option autoImplicit false

/-- What a tunnel needs of its stream id and its addresses. -/
structure Admissible (streamId : UInt16) (localAddr remoteAddr : SocketAddr) : Prop where
  streamId : streamId ≤ 65534
  family : remoteAddr.isIpv4 = localAddr.isIpv4

namespace DirectTunnel

variable {L : Layers}

/-- The addressing of a tunnel. -/
def Sound (t : DirectTunnel L) : Prop := Admissible t.streamId t.localAddr t.remoteAddr

theorem addressing_built {config : TunnelConfig} {localAddr : SocketAddr} {nowMs : UInt64}
    {t : DirectTunnel L} (h : Built L config localAddr nowMs t) :
    t.streamId = config.streamId ∧ t.localAddr = localAddr ∧ t.remoteAddr = config.remote := by
  obtain ⟨_, _, _, _, _, _, rfl⟩ := h
  exact ⟨rfl, rfl, rfl⟩

/-- The checks of `new`. -/
theorem admissible_new {h : BuildHost} {config : TunnelConfig} {localAddr : SocketAddr}
    {nowMs : UInt64} {t : DirectTunnel L} (hn : new L h config localAddr nowMs = .ok t) :
    Admissible config.streamId localAddr config.remote := by
  unfold new at hn
  split at hn
  · cases hn
  split at hn
  · cases hn
  rename_i hfamily
  split at hn
  · cases hn
  split at hn
  · cases hn
  split at hn
  · cases hn
  rename_i hid
  exact ⟨UInt16.not_lt.mp hid, not_not.mp hfamily⟩

/-- The checks of `answerer`. The address is that of the offer. -/
theorem admissible_answerer {h : BuildHost} {config : TunnelConfig} {localAddr : SocketAddr}
    {sdp : Text} {nowMs : UInt64} {t : DirectTunnel L}
    (ha : answerer L h config localAddr sdp nowMs = .ok t) {offer : ParsedOffer}
    (ho : ParsedOffer.parse L.toLowercase sdp = .ok offer) :
    Admissible config.streamId localAddr offer.remote := by
  unfold answerer at ha
  split at ha
  · cases ha
  rename_i hid
  obtain ⟨parsed, hp, ha⟩ := bind_ok ha
  obtain rfl : offer = parsed := Except.ok.inj (ho.symm.trans hp)
  split at ha
  · cases ha
  rename_i hfamily
  exact ⟨UInt16.not_lt.mp hid, not_not.mp hfamily⟩

/-- What is asked of the configuration where no constructor checks it. -/
def Checked (c : Constructor) (config : TunnelConfig) (localAddr : SocketAddr) : Prop :=
  c = .offerer → Admissible config.streamId localAddr config.remote

/-- A tunnel starts with sound addressing, unless `offerer` was given another one. -/
theorem sound_construct_iff {h : BuildHost} {config : TunnelConfig} {localAddr : SocketAddr}
    {nowMs : UInt64} {c : Constructor} {t : DirectTunnel L}
    (hc : construct L h config localAddr nowMs c = .ok t) :
    t.Sound ↔ Checked c config localAddr := by
  obtain ⟨config', hconfig, hb⟩ := built_construct hc
  obtain ⟨hid, hlocal, hremote⟩ := addressing_built hb
  rw [Sound, hid, hlocal, hremote]
  cases c with
  | new =>
    cases hconfig
    exact ⟨fun _ ho => (by cases ho), fun _ => admissible_new hc⟩
  | offerer =>
    cases hconfig
    exact ⟨fun hs _ => hs, fun hs => hs rfl⟩
  | answerer sdp =>
    obtain ⟨offer, ho, hconfig⟩ := bind_ok hconfig
    cases hconfig
    exact ⟨fun _ hoff => (by cases hoff), fun _ => admissible_answerer hc ho⟩

/-- The address an operation leaves. -/
def remoteAfter (remote : SocketAddr) : Op → SocketAddr
  | .setRemote addr => addr
  | _ => remote

/-- **Only `set_remote` writes to the addressing.** -/
theorem addressing_step (t : DirectTunnel L) (op : Op) :
    (t.step op).streamId = t.streamId ∧ (t.step op).localAddr = t.localAddr ∧
      (t.step op).remoteAddr = remoteAfter t.remoteAddr op := by
  cases hs : op.isSetting with
  | false =>
    have hp := parameters_step (t := t) hs
    refine ⟨congrArg Parameters.streamId hp, congrArg Parameters.localAddr hp, ?_⟩
    have hremote : remoteAfter t.remoteAddr op = t.remoteAddr := by
      cases op <;> first | rfl | cases hs
    rw [hremote]
    exact congrArg Parameters.remoteAddr hp
  | true =>
    cases op with
    | applyRemoteAnswerSdp sdp =>
      rw [step, applyRemoteAnswerSdp]
      split <;> exact ⟨rfl, rfl, rfl⟩
    | setRemote remote => exact ⟨rfl, rfl, rfl⟩
    | setRemoteIceCredentials ufrag pwd => exact ⟨rfl, rfl, rfl⟩
    | setSendBufferCap cap => exact ⟨rfl, rfl, rfl⟩
    | _ => cases hs

/-- An address that `set_remote` brings is of the family of the local one. -/
def KeepsFamily (localAddr : SocketAddr) (op : Op) : Prop :=
  ∀ remote, op = .setRemote remote → remote.isIpv4 = localAddr.isIpv4

theorem sound_step_iff {t : DirectTunnel L} (op : Op) (h : t.Sound) :
    (t.step op).Sound ↔ KeepsFamily t.localAddr op := by
  obtain ⟨hid, hlocal, hremote⟩ := addressing_step t op
  rw [Sound, hid, hlocal, hremote]
  by_cases hop : ∃ remote, op = .setRemote remote
  · obtain ⟨remote, rfl⟩ := hop
    constructor
    · rintro hs _ ⟨⟩
      exact hs.family
    · exact fun hk => ⟨h.streamId, hk remote rfl⟩
  · have hkeep : remoteAfter t.remoteAddr op = t.remoteAddr := by
      cases op with
      | setRemote remote => exact absurd ⟨remote, rfl⟩ hop
      | _ => rfl
    rw [hkeep]
    exact ⟨fun _ remote ho => absurd ⟨remote, ho⟩ hop, fun _ => h⟩

/-- **The addressing of a tunnel stays sound as long as the configuration of `offerer` and the
addresses of `set_remote` are what the other constructors would take.** -/
theorem sound_iff {h : BuildHost} {config : TunnelConfig} {localAddr : SocketAddr}
    {nowMs : UInt64} {c : Constructor} {t : DirectTunnel L}
    (hc : construct L h config localAddr nowMs c = .ok t) (ops : List Op) :
    (∀ front back, ops = front ++ back → (run step t front).Sound) ↔
      Checked c config localAddr ∧
        ∀ remote, Op.setRemote remote ∈ ops → remote.isIpv4 = localAddr.isIpv4 := by
  have hlocal : t.localAddr = localAddr := by
    obtain ⟨_, _, hb⟩ := built_construct hc
    exact (addressing_built hb).2.1
  have hrun : t.Sound → ((∀ front back, ops = front ++ back → (run step t front).Sound) ↔
      ∀ op ∈ ops, KeepsFamily localAddr op) := by
    intro hs
    have hall : Meets step (fun _ op => KeepsFamily localAddr op) t ops ↔
        ∀ op ∈ ops, KeepsFamily localAddr op := meets_iff_forall
    rw [← hall]
    refine Iff.trans ?_ (always_iff_meets (I := fun s : DirectTunnel L =>
      s.Sound ∧ s.localAddr = localAddr) (fun s op hi => ?_) ⟨hs, hlocal⟩)
    · refine ⟨fun hf front back he => ⟨hf front back he, ?_⟩, fun hf front back he =>
        (hf front back he).1⟩
      exact invariant (fun s op hl => ((addressing_step s op).2.1).trans hl) front hlocal
    · have hl := (addressing_step s op).2.1.trans hi.2
      rw [sound_step_iff op hi.1, hi.2]
      exact and_iff_left hl
  constructor
  · intro hf
    have hs : t.Sound := hf [] ops (List.nil_append _).symm
    exact ⟨(sound_construct_iff hc).mp hs, fun remote hr => (hrun hs).mp hf _ hr remote rfl⟩
  · rintro ⟨hchecked, hops⟩
    refine (hrun ((sound_construct_iff hc).mpr hchecked)).mpr ?_
    rintro op hop remote rfl
    exact hops remote hop

end DirectTunnel

namespace Script

open DirectTunnel (construct)

/-- The stream id that no channel can have. -/
def reservedConfig : TunnelConfig := { config with streamId := 65535 }

theorem build_reserved :
    (construct layers host reservedConfig localAddr 0 .offerer).isOk = true := by
  decide +kernel

def reservedDialer : DirectTunnel layers := Base.okValue _ build_reserved

theorem build_reservedDialer :
    construct layers host reservedConfig localAddr 0 .offerer = .ok reservedDialer :=
  Base.eq_ok_okValue _ build_reserved

/-- An address of the other family. -/
def otherFamilyAddr : SocketAddr := ⟨.v6 ⟨[8193, 3512, 0, 0, 0, 0, 0, 2], rfl⟩, 4001, 0⟩

end Script

namespace DirectTunnel

/-- `offerer` takes stream id 65535, and `set_remote` an IPv6 address beside an IPv4 one. -/
theorem addressing_unchecked :
    construct Script.layers Script.host Script.reservedConfig Script.localAddr 0 .offerer =
      .ok Script.reservedDialer ∧ ¬ Script.reservedDialer.Sound ∧
    construct Script.layers Script.host Script.config Script.localAddr 0 .new =
      .ok Script.dialer ∧ ¬ (run step Script.dialer [.setRemote Script.otherFamilyAddr]).Sound :=
  ⟨Script.build_reservedDialer, fun h => absurd h.streamId (by decide),
    Script.build_dialer, fun h => absurd h.family (by decide)⟩

/-- A packet, an answer's address of the same family and a heartbeat. -/
theorem sound_iff_dialer :
    (run step Script.dialer [.receive 1 [0], .setRemote Script.remoteAddr, .tick 20]).Sound := by
  refine (sound_iff Script.build_dialer
    [.receive 1 [0], .setRemote Script.remoteAddr, .tick 20]).mpr ⟨?_, ?_⟩ _ []
    (List.append_nil _).symm
  · intro hc
    cases hc
  · intro remote hr
    simp only [List.mem_cons, Op.setRemote.injEq, reduceCtorEq, List.not_mem_nil, or_false,
      false_or] at hr
    rw [hr]
    decide

end DirectTunnel

end RtcTunnel.Direct
