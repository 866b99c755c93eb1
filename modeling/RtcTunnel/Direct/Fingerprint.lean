import RtcTunnel.Direct.Script
import RtcTunnel.Direct.Touches

/-!
# Peer authenticity

The verify callback is built once and keeps the fingerprint of that moment. It
speaks for the fingerprint in force exactly as long as no answer changed it.
-/

namespace RtcTunnel.Direct

open RtcTunnel.Core
open RtcTunnel.Base (Outcome bind_ok)
open RtcTunnel.Base.Poll (Source)
open RtcTunnel.Base.Run

set_option autoImplicit false

/-- The chain is one the fingerprint admits. -/
def FingerprintAdmits (L : Layers) (algorithm fingerprint : Text) (chain : List Bytes) : Prop :=
  algorithm = "sha-256".toList ∧ ∃ cert rest digest, chain = cert :: rest ∧
    L.sha256 cert = .ok digest ∧ colonHex digest = L.toLowercase fingerprint

/-- The callback accepts what the fingerprint it was built with admits. -/
theorem verifyPeer_ok_iff (L : Layers) (algorithm fingerprint : Text) (chain : List Bytes) :
    verifyPeer L algorithm (L.toLowercase fingerprint) chain = .ok () ↔
      FingerprintAdmits L algorithm fingerprint chain := by
  unfold FingerprintAdmits
  cases chain with
  | nil =>
    constructor
    · intro h
      cases h
    · rintro ⟨_, _, _, _, h, _⟩
      cases h
  | cons cert rest =>
    unfold verifyPeer
    generalize "sha-256".toList = sha
    by_cases ha : algorithm = sha
    · cases hs : L.sha256 cert with
      | error e => simp [ha, hs]
      | ok digest =>
        by_cases hd : colonHex digest = L.toLowercase fingerprint <;> simp [ha, hs, hd]
    · simp [ha]

/-- The fingerprints the answers of a run carry, in their order. -/
def answeredFingerprints (toLowercase : Text → Text) (ops : List DirectTunnel.Op) : List Text :=
  ops.filterMap fun
    | .applyRemoteAnswerSdp sdp => parseAnswerFingerprint toLowercase sdp
    | _ => none

/-- The fingerprint in force: the last one an answer carried, or the initial one. -/
def fingerprintInForce (toLowercase : Text → Text) (initial : Text)
    (ops : List DirectTunnel.Op) : Text :=
  (answeredFingerprints toLowercase ops).getLast?.getD initial

/-- `rtc-dtls` reports a completed handshake only when the callback of some
configuration it was given, if that has one, accepted the chain it keeps for the
peer. -/
structure VerifiesBeforeComplete (D : DtlsApi) where
  configured : D.Endpoint → HandshakeConfig → Prop
  new : ∀ c, ¬ configured D.new c
  setServerConfig : ∀ d o c, configured (D.setServerConfig d o) c → configured d c ∨ o = some c
  connect : ∀ d now remote config c, configured (D.connect d now remote config).1 c →
    configured d c ∨ config = c
  read : ∀ d now remote datagram c, configured (D.read d now remote datagram).1 c →
    configured d c
  write : ∀ d now remote raw c, configured (D.write d now remote raw).1 c → configured d c
  handleTimeout : ∀ d remote now c, configured (D.handleTimeout d remote now).1 c →
    configured d c
  pollTransmit : ∀ d c, configured (D.transmits.poll d).2 c → configured d c
  complete : ∀ d now remote datagram events, (D.read d now remote datagram).2 = .ok events →
    .handshakeComplete ∈ events → ∃ c, configured d c ∧ ∀ verify,
      c.verifyPeerCertificate = some verify →
        verify (D.peerCertificates (D.read d now remote datagram).1 remote) = .ok ()

namespace DirectTunnel

variable {L : Layers}

theorem dtlsConfig_step (t : DirectTunnel L) (op : Op) :
    (t.step op).dtlsConfig = t.dtlsConfig ∧
      (t.step op).fingerprintAlgorithm = t.fingerprintAlgorithm := by
  cases hs : op.isSetting with
  | false =>
    have hp : (t.step op).parameters = t.parameters := parameters_step hs
    exact ⟨congrArg Parameters.dtlsConfig hp, congrArg Parameters.fingerprintAlgorithm hp⟩
  | true =>
    cases op with
    | applyRemoteAnswerSdp sdp =>
      unfold step applyRemoteAnswerSdp
      dsimp only
      split <;> exact ⟨rfl, rfl⟩
    | setRemote remote => exact ⟨rfl, rfl⟩
    | setRemoteIceCredentials ufrag pwd => exact ⟨rfl, rfl⟩
    | setSendBufferCap cap => exact ⟨rfl, rfl⟩
    | _ => cases hs

theorem dtlsConfig_run (t : DirectTunnel L) (ops : List Op) :
    (run step t ops).dtlsConfig = t.dtlsConfig ∧
      (run step t ops).fingerprintAlgorithm = t.fingerprintAlgorithm := by
  induction ops generalizing t with
  | nil => exact ⟨rfl, rfl⟩
  | cons op ops ih =>
    obtain ⟨hd, ha⟩ := dtlsConfig_step t op
    obtain ⟨hd', ha'⟩ := ih (t.step op)
    exact ⟨hd'.trans hd, ha'.trans ha⟩

/-- The callback of a new tunnel is for the fingerprint it starts with. -/
theorem callback_construct {h : BuildHost} {config : TunnelConfig} {localAddr : SocketAddr}
    {nowMs : UInt64} {c : Constructor} {t : DirectTunnel L}
    (hc : construct L h config localAddr nowMs c = .ok t)
    (hv : config.disableFingerprintVerification = false) :
    ∃ d, t.dtlsConfig = some d ∧ d.verifyPeerCertificate =
      some (verifyPeer L t.fingerprintAlgorithm (L.toLowercase t.remoteFingerprint)) := by
  obtain ⟨config', hb, role, epoch, ice₀, ice, certificate, fp, rfl⟩ := built_construct hc
  have hv' : config'.disableFingerprintVerification = false := by
    cases c with
    | answerer sdp =>
      obtain ⟨parsed, _, hb⟩ := bind_ok hb
      cases hb
      exact hv
    | _ =>
      cases hb
      exact hv
  refine ⟨_, rfl, ?_⟩
  have hcb : (fresh (L := L) role config' localAddr nowMs epoch ice₀).verifyCallback =
      some (verifyPeer L config'.fingerprintAlgorithm
        (L.toLowercase config'.remoteFingerprint)) := by
    rw [verifyCallback]
    exact if_neg (by simp [fresh, hv'])
  exact hcb

/-- Every handshake of the tunnel was completed under its own configuration. -/
structure Verified (H : VerifiesBeforeComplete L.dtls) (t : DirectTunnel L) : Prop where
  configured : ∀ c, H.configured t.dtls c → t.dtlsConfig = some c
  accepted : ∀ peer, .handshakeComplete peer ∈ t.log → ∃ c, t.dtlsConfig = some c ∧
    ∀ verify, c.verifyPeerCertificate = some verify → verify peer = .ok ()

variable {H : VerifiesBeforeComplete L.dtls}

/-- A part that has nothing to do with DTLS. -/
theorem Verified.still {t r : DirectTunnel L} (h : t.Verified H) (hd : r.dtls = t.dtls)
    (hc : r.dtlsConfig = t.dtlsConfig)
    (hl : ∀ peer, .handshakeComplete peer ∈ r.log → .handshakeComplete peer ∈ t.log) :
    r.Verified H where
  configured c hr := hc.trans (h.configured c (hd ▸ hr))
  accepted peer hp := hc ▸ h.accepted peer (hl peer hp)

/-- An operation of the endpoint that adds no configuration. -/
theorem Verified.endpoint {t r : DirectTunnel L} (h : t.Verified H)
    (hd : ∀ c, H.configured r.dtls c → H.configured t.dtls c)
    (hc : r.dtlsConfig = t.dtlsConfig)
    (hl : ∀ peer, .handshakeComplete peer ∈ r.log → .handshakeComplete peer ∈ t.log) :
    r.Verified H where
  configured c hr := hc.trans (h.configured c (hd c hr))
  accepted peer hp := hc ▸ h.accepted peer (hl peer hp)

theorem handshake_of_append {l es : List Entry} {peer : List Bytes}
    (h : .handshakeComplete peer ∈ l ++ es) (he : ∀ e ∈ es, e ≠ .handshakeComplete peer) :
    .handshakeComplete peer ∈ l := by
  rcases List.mem_append.mp h with h | h
  · exact h
  · exact absurd rfl (he _ h)

theorem handshake_of_record {t : DirectTunnel L} {e : Entry} {peer : List Bytes}
    (h : .handshakeComplete peer ∈ (t.record e).log) (he : e ≠ .handshakeComplete peer) :
    .handshakeComplete peer ∈ t.log :=
  handshake_of_append h fun _ hx => List.mem_singleton.mp hx ▸ he

theorem handshake_of_pushAll {t : DirectTunnel L} {es : List Event} {peer : List Bytes}
    (h : .handshakeComplete peer ∈ (t.pushAll es).log) : .handshakeComplete peer ∈ t.log := by
  refine handshake_of_append h fun _ hx => ?_
  obtain ⟨e, _, rfl⟩ := List.mem_map.mp hx
  exact nofun

theorem verified_startDtls {t : DirectTunnel L} (h : t.Verified H) : t.startDtls.Verified H := by
  unfold startDtls activateDtls
  split
  · exact h.still rfl rfl fun _ => id
  · split
    · exact h.still rfl rfl fun _ => id
    · rename_i config hconf
      refine ⟨fun c hc => ?_, fun peer hp => ?_⟩
      · rcases H.connect _ _ _ _ c hc with hc | rfl
        · exact h.configured c hc
        · exact hconf
      · exact h.accepted peer (handshake_of_record hp nofun)

theorem verified_startSctp {t : DirectTunnel L} (h : t.Verified H) :
    t.startSctp.1.Verified H := by
  unfold startSctp
  split
  · dsimp only
    split <;> exact h.still rfl rfl fun _ hp => handshake_of_record (t := t) hp nofun
  · exact h.still rfl rfl fun _ => id

theorem verified_feedSctp {t : DirectTunnel L} (now : Instant) (datagram : Bytes)
    (h : t.Verified H) : (t.feedSctp now datagram).Verified H := by
  unfold feedSctp
  split
  · exact h
  · dsimp only
    split
    · exact h.still rfl rfl fun _ hp => handshake_of_record (t := t) hp nofun
    · exact h.still rfl rfl fun _ => id
    · exact h.still rfl rfl fun _ => id
    · exact h.still rfl rfl fun _ => id

/-- The configuration of the tunnel accepted the chain DTLS keeps for its peer. -/
def Accepts (t : DirectTunnel L) : Prop := ∃ c, t.dtlsConfig = some c ∧
  ∀ verify, c.verifyPeerCertificate = some verify →
    verify (L.dtls.peerCertificates t.dtls t.remoteAddr) = .ok ()

theorem accepts_feedDtlsEvent {t : DirectTunnel L} (now : Instant) (e : DtlsEvent)
    (h : t.Accepts) : (t.feedDtlsEvent now e).1.Accepts := by
  have hp := parameters_feedDtlsEvent t now e
  have hc : (t.feedDtlsEvent now e).1.dtlsConfig = t.dtlsConfig := congrArg Parameters.dtlsConfig hp
  have hr : (t.feedDtlsEvent now e).1.remoteAddr = t.remoteAddr := congrArg Parameters.remoteAddr hp
  rw [Accepts, hc, hr, (dtls_feedDtlsEvent t now e).1]
  exact h

theorem verified_feedDtlsEvent {t : DirectTunnel L} (now : Instant) (e : DtlsEvent)
    (h : t.Verified H) (ha : e = .handshakeComplete → t.Accepts) :
    (t.feedDtlsEvent now e).1.Verified H := by
  cases e with
  | handshakeComplete =>
    have hr : ({ t with dtlsConnected := true, trace := t.trace.observeDtls (t.ms now) }.record
        (.handshakeComplete (L.dtls.peerCertificates t.dtls t.remoteAddr))).Verified H := by
      refine ⟨h.configured, fun peer hp => ?_⟩
      rcases List.mem_append.mp hp with hp | hp
      · exact h.accepted peer hp
      · cases List.mem_singleton.mp hp
        exact ha rfl
    unfold feedDtlsEvent
    dsimp only
    split
    · exact verified_startSctp hr
    · exact hr
  | applicationData data => exact verified_feedSctp now data h
  | other => exact h

theorem verified_feedDtlsEvents (now : Instant) (es : List DtlsEvent) {t : DirectTunnel L}
    (h : t.Verified H) (ha : .handshakeComplete ∈ es → t.Accepts) :
    (feedDtlsEvents now es t).1.Verified H := by
  induction es generalizing t with
  | nil => exact h
  | cons e es ih =>
    have he : (t.feedDtlsEvent now e).1.Verified H :=
      verified_feedDtlsEvent now e h fun hh => ha (hh ▸ List.mem_cons_self ..)
    have hn : .handshakeComplete ∈ es → (t.feedDtlsEvent now e).1.Accepts :=
      fun hm => accepts_feedDtlsEvent now e (ha (List.mem_cons_of_mem _ hm))
    rw [feedDtlsEvents]
    generalize t.feedDtlsEvent now e = r at he hn
    obtain ⟨s, _ | _⟩ := r
    · exact he
    · exact ih he hn

theorem verified_feedDtls {t : DirectTunnel L} (now : Instant) (datagram : Bytes)
    (h : t.Verified H) : (t.feedDtls now datagram).1.Verified H := by
  have hr : ({ t with dtls := (L.dtls.read t.dtls now t.remoteAddr datagram).1 }).Verified H :=
    h.endpoint (fun c => H.read _ _ _ _ c) rfl fun _ => id
  unfold feedDtls
  dsimp only
  split
  · exact hr
  · rename_i events he
    refine verified_feedDtlsEvents now events hr fun hm => ?_
    obtain ⟨c, hc, hv⟩ := H.complete _ _ _ _ _ he hm
    exact ⟨c, h.configured c hc, hv⟩

theorem verified_drainIceEvents {t : DirectTunnel L} (h : t.Verified H) :
    t.drainIceEvents.Verified H := by
  rw [drainIceEvents_eq]
  exact h.still rfl rfl fun _ => id

theorem verified_finish {t : DirectTunnel L} (reason : CloseReason) (h : t.Verified H) :
    (t.finish reason).Verified H := by
  unfold finish
  split
  · exact h
  · exact h.still rfl rfl fun _ hp => handshake_of_pushAll (t := t) hp

theorem verified_pollAssociation {t : DirectTunnel L} (h : t.Verified H) :
    t.pollAssociation.2.Verified H := by
  unfold pollAssociation
  split
  · exact h
  · exact h.still rfl rfl fun _ => id

theorem verified_readStream {t : DirectTunnel L} (h : t.Verified H) :
    t.readStream.1.Verified H := by
  unfold readStream
  split
  · exact h
  · split
    · exact h.still rfl rfl fun _ hp => handshake_of_pushAll (t := t) hp
    · exact h

theorem verified_openStream {t : DirectTunnel L} (h : t.Verified H) :
    t.openStream.1.Verified H := by
  unfold openStream
  dsimp only
  split
  · exact h.still rfl rfl fun _ => id
  · rename_i association _
    split
    · exact h.still rfl rfl fun _ hp => handshake_of_record (t := t) hp nofun
    · refine h.still rfl rfl fun _ hp => ?_
      exact handshake_of_record (t := t) (handshake_of_record hp nofun) nofun

/-- Writing to the endpoint gives it no configuration. -/
theorem configured_writeRaws (now : Instant) (remote : SocketAddr) (raws : List Bytes)
    (d : L.dtls.Endpoint) (c : HandshakeConfig)
    (h : H.configured (writeRaws L now remote raws d).1 c) : H.configured d c := by
  induction raws generalizing d with
  | nil => exact h
  | cons raw raws ih =>
    have hr := H.write d now remote raw c
    rw [writeRaws] at h
    refine hr ?_
    revert h
    refine Outcome.andThen_related (R := fun a b => H.configured b c → H.configured a c)
      (fun hab hbc hc => hab (hbc hc)) id fun s => ih s

theorem configured_drainSctpTransmits (t : DirectTunnel L) (c : HandshakeConfig)
    (h : H.configured t.drainSctpTransmits.1.dtls c) : H.configured t.dtls c := by
  revert h
  unfold drainSctpTransmits
  split
  · exact id
  · rename_i association _
    dsimp only
    refine Base.Poll.TrySource.forEach_induction _ _
      (P := fun _ d => H.configured d c → H.configured t.dtls c) (fun _ _ => id) ?_ id
    intro _ transmit d hd
    cases transmit with
    | rawEncode raws =>
      dsimp only
      split
      · exact fun hc => hd (configured_writeRaws _ _ raws d c hc)
      · exact hd
    | other => exact hd

theorem verified_drainSctpTransmits {t : DirectTunnel L} (h : t.Verified H) :
    t.drainSctpTransmits.1.Verified H := by
  refine h.endpoint (configured_drainSctpTransmits t) ?_ ?_
  · unfold drainSctpTransmits
    split <;> rfl
  · intro peer
    unfold drainSctpTransmits
    split <;> exact id

theorem verified_drainDtlsTransmits {t : DirectTunnel L} (h : t.Verified H) :
    t.drainDtlsTransmits.Verified H := by
  refine h.endpoint (fun c => ?_) rfl fun _ hp => handshake_of_pushAll (t := t) hp
  exact L.dtls.transmits.drain_induction
    (P := fun d => H.configured d c → H.configured t.dtls c)
    (fun d hd hc => hd (H.pollTransmit d c hc)) id

theorem verified_maybeOpen {t : DirectTunnel L} (h : t.Verified H) : t.maybeOpen.Verified H := by
  unfold maybeOpen
  split
  · exact h
  · split
    · exact h.still rfl rfl fun _ hp => handshake_of_pushAll (t := t) hp
    · exact h

theorem verified_handleTimeouts {t : DirectTunnel L} (now : Instant) (h : t.Verified H) :
    (t.handleTimeouts now).Verified H := by
  unfold handleTimeouts
  dsimp only
  split
  · exact h.endpoint (H.handleTimeout _ _ _) rfl fun _ => id
  · exact h.still rfl rfl fun _ => id

theorem verified_nextDeadline {t : DirectTunnel L} (h : t.Verified H) :
    t.nextDeadline.2.Verified H := by
  unfold nextDeadline
  split
  · exact h
  · exact h.still rfl rfl fun _ => id

theorem verified_call (a b : DirectTunnel L) (hc : Call a b) (h : a.Verified H) :
    b.Verified H := by
  cases hc with
  | clock now => exact h.still rfl rfl fun _ => id
  | iceRead now datagram hd => exact h.still rfl rfl fun _ => id
  | startDtls hp hs => exact verified_startDtls h
  | feedDtls now datagram hd hp hs => exact verified_feedDtls now datagram h
  | drop => exact h.still rfl rfl fun _ => id
  | drainIceEvents => exact verified_drainIceEvents h
  | drainIceWrites => exact h.still rfl rfl fun _ hp => handshake_of_pushAll (t := a) hp
  | pollAssociation hs => exact verified_pollAssociation h
  | observeConnected hs ha => exact h.still rfl rfl fun _ hp => handshake_of_record (t := a) hp nofun
  | finish reason hr => exact verified_finish reason h
  | readStream => exact verified_readStream h
  | openStream hc hd => exact verified_openStream h
  | drainSctpTransmits => exact verified_drainSctpTransmits h
  | drainDtlsTransmits => exact verified_drainDtlsTransmits h
  | maybeOpen => exact verified_maybeOpen h
  | handleTimeouts now => exact verified_handleTimeouts now h
  | closeIce => exact h.still rfl rfl fun _ => id
  | pollEvent => exact h.still rfl rfl fun _ => id
  | nextDeadline => exact verified_nextDeadline h

/-- **Every handshake of a run was completed under the configuration the tunnel
was built with.** -/
theorem verified_step (t : DirectTunnel L) (op : Op) (h : t.Verified H) :
    (t.step op).Verified H := by
  cases hs : op.isSetting with
  | false =>
    refine step_keeps verified_call (fun data w _ hw h => ?_) hs h
    cases hw with
    | refused association hs hw => exact h.still rfl rfl fun _ => id
    | accepted association hs hw =>
      exact h.still rfl rfl fun _ hp => handshake_of_record (t := t) hp nofun
  | true =>
    cases op with
    | applyRemoteAnswerSdp sdp =>
      unfold step applyRemoteAnswerSdp
      dsimp only
      split <;> exact h.still rfl rfl fun _ => id
    | setRemote remote => exact h.still rfl rfl fun _ => id
    | setRemoteIceCredentials ufrag pwd => exact h.still rfl rfl fun _ => id
    | setSendBufferCap cap => exact h.still rfl rfl fun _ => id
    | _ => cases hs

theorem verified_construct {h : BuildHost} {config : TunnelConfig} {localAddr : SocketAddr}
    {nowMs : UInt64} {c : Constructor} {t : DirectTunnel L}
    (hc : construct L h config localAddr nowMs c = .ok t) : t.Verified H := by
  obtain ⟨_, _, role, _, _, _, certificate, _, rfl⟩ := built_construct hc
  refine ⟨fun cfg hcfg => ?_, fun peer hp => ?_⟩
  · unfold withCertificate at hcfg
    dsimp only at hcfg
    split at hcfg
    · exact absurd hcfg (H.new cfg)
    · rcases H.setServerConfig _ _ cfg hcfg with hn | hs
      · exact absurd hn (H.new cfg)
      · exact hs
  · cases hp

/-- A handshake was completed before the channel opened. -/
theorem handshake_precedes_move (a b : Life) (hm : Life.Move a b)
    (h : a.Phases ∧ a.Recorded ∧ Precedes (·.isHandshake = true) (· = .pushed .opened) a.log) :
    b.Phases ∧ b.Recorded ∧ Precedes (·.isHandshake = true) (· = .pushed .opened) b.log := by
  obtain ⟨hp, hr, ho⟩ := h
  refine ⟨Life.phases_move a b hm hp, Life.recorded_move a b hm hr, ?_⟩
  have plain : ∀ es : List Entry, (∀ e ∈ es, e ≠ .pushed .opened) →
      Precedes (·.isHandshake = true) (· = .pushed .opened) (a.log ++ es) :=
    fun es he => precedes_append ho (.inl (precedes_of_forall he))
  cases hm with
  | «open» _ hd _ =>
    have hc : a.dtlsConnected = true :=
      hp.endpoint (hp.association (hp.connected (hp.dialed hd)))
    obtain ⟨peer, hpeer⟩ := hr.handshake hc
    exact precedes_append ho (.inr ⟨_, hpeer, rfl⟩)
  | serve ok _ => exact ho
  | listen _ _ => exact ho
  | dialNothing _ _ _ => exact ho
  | dialAccepted ok _ _ _ =>
    have h₁ := plain [.openStream a.streamId .binary true] (by simp)
    exact precedes_append h₁ (.inl (precedes_of_forall (by simp)))
  | _ => exact plain _ (by simp)

theorem handshake_precedes_run {h : BuildHost} {config : TunnelConfig} {localAddr : SocketAddr}
    {nowMs : UInt64} {c : Constructor} {t : DirectTunnel L}
    (hc : construct L h config localAddr nowMs c = .ok t) (ops : List Op) :
    Precedes (·.isHandshake = true) (· = .pushed .opened) (run step t ops).log := by
  have hf := fresh_construct hc
  have hl : t.log = [] := hf.log
  have h₀ : t.life.Phases ∧ t.life.Recorded ∧
      Precedes (·.isHandshake = true) (· = .pushed .opened) t.life.log := by
    refine ⟨hf.phases, hf.recorded, ?_⟩
    rw [life_log, hl]
    exact precedes_nil
  have hi : (run step t ops).life.Phases ∧ (run step t ops).life.Recorded ∧
      Precedes (·.isHandshake = true) (· = .pushed .opened) (run step t ops).life.log :=
    life_invariant handshake_precedes_move h₀
  exact hi.2.2

/-- The callback DTLS asks, or will be given to ask, speaks for the fingerprint in
force, and `Opened` is pushed only after a handshake, always with a peer that this
fingerprint admits. -/
structure Authentic (H : VerifiesBeforeComplete L.dtls) (t : DirectTunnel L)
    (algorithm inForce : Text) : Prop where
  callback : ∀ c, H.configured t.dtls c ∨ t.dtlsConfig = some c →
    ∃ verify, c.verifyPeerCertificate = some verify ∧
      ∀ chain, verify chain = .ok () ↔ FingerprintAdmits L algorithm inForce chain
  peer : ∀ chain, .handshakeComplete chain ∈ t.log → FingerprintAdmits L algorithm inForce chain
  opened : Precedes (·.isHandshake = true) (· = .pushed .opened) t.log

/-- No certificate tells the two fingerprints apart. -/
def SameVerdict (L : Layers) (algorithm initial inForce : Text) : Prop :=
  algorithm ≠ "sha-256".toList ∨ L.toLowercase inForce = L.toLowercase initial ∨
    ∀ cert digest, L.sha256 cert = .ok digest →
      colonHex digest ≠ L.toLowercase inForce ∧ colonHex digest ≠ L.toLowercase initial

theorem sameVerdict_iff (L : Layers) (algorithm initial inForce : Text) :
    SameVerdict L algorithm initial inForce ↔ ∀ chain,
      FingerprintAdmits L algorithm initial chain ↔ FingerprintAdmits L algorithm inForce chain := by
  unfold SameVerdict FingerprintAdmits
  generalize "sha-256".toList = sha
  constructor
  · rintro (ha | hl | hn) chain
    · exact ⟨fun h => absurd h.1 ha, fun h => absurd h.1 ha⟩
    · rw [hl]
    · constructor
      · rintro ⟨_, cert, rest, digest, _, hs, hd⟩
        exact absurd hd (hn cert digest hs).2
      · rintro ⟨_, cert, rest, digest, _, hs, hd⟩
        exact absurd hd (hn cert digest hs).1
  · intro h
    by_cases ha : algorithm = sha
    · by_cases hl : L.toLowercase inForce = L.toLowercase initial
      · exact .inr (.inl hl)
      · refine .inr (.inr fun cert digest hs => ⟨fun hd => hl ?_, fun hd => hl ?_⟩)
        · obtain ⟨_, _, _, _, hc, hs', hd'⟩ := (h [cert]).mpr ⟨ha, cert, [], digest, rfl, hs, hd⟩
          obtain ⟨rfl, rfl⟩ := List.cons.inj hc
          cases hs.symm.trans hs'
          exact hd.symm.trans hd'
        · obtain ⟨_, _, _, _, hc, hs', hd'⟩ := (h [cert]).mp ⟨ha, cert, [], digest, rfl, hs, hd⟩
          obtain ⟨rfl, rfl⟩ := List.cons.inj hc
          cases hs.symm.trans hs'
          exact hd'.symm.trans hd
    · exact .inl ha

/-- The parameters a constructor takes from its configuration. -/
theorem configured_construct {h : BuildHost} {config config' : TunnelConfig}
    {localAddr : SocketAddr} {nowMs : UInt64} {c : Constructor} {t : DirectTunnel L}
    (hc : construct L h config localAddr nowMs c = .ok t)
    (hb : builtConfig L config c = .ok config') :
    t.remoteFingerprint = config'.remoteFingerprint ∧
      t.fingerprintAlgorithm = config'.fingerprintAlgorithm := by
  obtain ⟨_, hb', _, _, _, _, _, _, rfl⟩ := built_construct hc
  cases hb.symm.trans hb'
  exact ⟨rfl, rfl⟩

/-- **Peer authenticity.** A tunnel that verifies fingerprints is authentic at the
end of a run exactly when the fingerprint in force there judges every certificate
as the one it was built with does: the callback never learns of another. -/
theorem authentic_iff (H : VerifiesBeforeComplete L.dtls) {h : BuildHost}
    {config config' : TunnelConfig} {localAddr : SocketAddr} {nowMs : UInt64} {c : Constructor}
    {t : DirectTunnel L} (hc : construct L h config localAddr nowMs c = .ok t)
    (hb : builtConfig L config c = .ok config')
    (hv : config.disableFingerprintVerification = false) (ops : List Op) :
    (run step t ops).Authentic H config'.fingerprintAlgorithm
        (fingerprintInForce L.toLowercase config'.remoteFingerprint ops) ↔
      SameVerdict L config'.fingerprintAlgorithm config'.remoteFingerprint
        (fingerprintInForce L.toLowercase config'.remoteFingerprint ops) := by
  obtain ⟨hf, ha⟩ := configured_construct hc hb
  obtain ⟨d, hd, hcb⟩ := callback_construct hc hv
  have hdr : (run step t ops).dtlsConfig = some d := (dtlsConfig_run t ops).1.trans hd
  have hverify : ∀ chain, verifyPeer L t.fingerprintAlgorithm (L.toLowercase t.remoteFingerprint)
      chain = .ok () ↔
        FingerprintAdmits L config'.fingerprintAlgorithm config'.remoteFingerprint chain := by
    intro chain
    rw [hf, ha]
    exact verifyPeer_ok_iff L _ _ chain
  rw [sameVerdict_iff]
  constructor
  · rintro ⟨hasked, _, _⟩ chain
    obtain ⟨verify, hv₁, hiff⟩ := hasked d (.inr hdr)
    cases hcb.symm.trans hv₁
    rw [← hverify, hiff]
  · intro hsame
    have hver : (run step t ops).Verified H :=
      invariant (I := Verified H) verified_step ops (verified_construct hc)
    refine ⟨fun c₁ hasked => ?_, fun chain hm => ?_, handshake_precedes_run hc ops⟩
    · have hc₁ : (run step t ops).dtlsConfig = some c₁ := hasked.elim (hver.configured c₁) id
      cases hdr.symm.trans hc₁
      exact ⟨_, hcb, fun chain => (hverify chain).trans (hsame chain)⟩
    · obtain ⟨c₁, hc₁, hacc⟩ := hver.accepted chain hm
      cases hdr.symm.trans hc₁
      exact (hsame chain).mp ((hverify chain).mp (hacc _ hcb))

end DirectTunnel

namespace Script

theorem accepts_some {config : Option HandshakeConfig} {chain : List Bytes}
    (h : accepts config chain = true) : ∃ c, config = some c ∧
      ∀ verify, c.verifyPeerCertificate = some verify → verify chain = .ok () := by
  unfold accepts at h
  split at h
  · cases h
  · rename_i c
    refine ⟨c, rfl, fun verify hv => ?_⟩
    rw [hv] at h
    cases hr : verify chain with
    | error e => simp [hr, Except.isOk, Except.toBool] at h
    | ok u => rfl

/-- The scripted DTLS asks its configuration before it reports a handshake. -/
def verifies : VerifiesBeforeComplete dtls where
  configured d c := d.config = some c
  new _ := nofun
  setServerConfig _ _ _ h := .inr h
  connect _ _ _ _ _ h := .inr (Option.some.inj h)
  read d _ _ datagram c h := by
    rw [← h]
    unfold dtls Dtls.read
    dsimp only
    split
    · split <;> rfl
    · rfl
    · rfl
  write _ _ _ _ _ h := h
  handleTimeout _ _ _ _ h := h
  pollTransmit d c h := by
    rw [← h]
    cases ht : d.transmits with
    | nil => simp [dtls, Source.queue, Dtls.transmitSlot, ht]
    | cons a l => simp [dtls, Source.queue, Dtls.transmitSlot, ht]
  complete d now remote datagram events h hm := by
    unfold dtls Dtls.read at h ⊢
    dsimp only at h ⊢
    split at h
    · split at h
      · rename_i certificate ha
        rw [if_pos ha]
        exact accepts_some ha
      · cases h
    · cases h
      simp at hm
    · cases h
      cases hm

/-- The answer that changes the fingerprint a dialer was built with. -/
def answer : Text := "a=fingerprint:sha-256 08\n".toList

/-- A dialer that has read an answer with another fingerprint, and the peer it
was built for, which that answer replaced. -/
def answeredThenStale : List DirectTunnel.Op :=
  [.applyRemoteAnswerSdp answer, .receive 1 [0], .receive 2 [22, 7], .receive 3 [23, 2], .tick 4]

theorem inForce_answered :
    fingerprintInForce layers.toLowercase config.remoteFingerprint answeredThenStale =
      "08".toList := by
  decide +kernel

end Script

namespace DirectTunnel

/-- The tunnel opens towards the peer `07` while the fingerprint in force is `08`,
and its callback refuses the peer `08`. -/
theorem opened_to_stale_peer :
    (run step Script.dialer Script.answeredThenStale).opened = true ∧
    ¬ (run step Script.dialer Script.answeredThenStale).Authentic Script.verifies
      Script.config.fingerprintAlgorithm
      (fingerprintInForce Script.layers.toLowercase Script.config.remoteFingerprint
        Script.answeredThenStale) := by
  refine ⟨by decide +kernel, fun h => ?_⟩
  have hm : .handshakeComplete [[7]] ∈ (run step Script.dialer Script.answeredThenStale).log := by
    decide +kernel
  obtain ⟨_, cert, rest, digest, hc, hs, hd⟩ := h.peer _ hm
  obtain ⟨rfl, rfl⟩ := List.cons.inj hc
  cases hs
  rw [Script.inForce_answered] at hd
  exact absurd hd (by decide)

/-- Without an answer the dialer is authentic. -/
theorem authentic_iff_dialer :
    (run step Script.dialer [.receive 1 [0], .receive 2 [22, 7], .receive 3 [23, 2]]).Authentic
      Script.verifies Script.config.fingerprintAlgorithm Script.config.remoteFingerprint :=
  (authentic_iff Script.verifies Script.build_dialer rfl rfl
    [.receive 1 [0], .receive 2 [22, 7], .receive 3 [23, 2]]).mpr (.inr (.inl rfl))

end DirectTunnel

end RtcTunnel.Direct
