import RtcTunnel.Base.Run
import RtcTunnel.Direct.Tunnel

/-!
# Constructors and runs

The three public constructors, and the machine whose inputs are the public
operations. What a constructor takes from outside the process (clock readings,
random credentials, a fresh certificate) comes in as `BuildHost`.
-/

namespace RtcTunnel.Direct

open RtcTunnel.Core
open RtcTunnel.Base (Outcome bind_ok)
open RtcTunnel.Base.Run (run)

set_option autoImplicit false

structure BuildHost where
  cryptoProvider : Except String Unit
  /-- `Instant::now()` as the epoch is computed. -/
  instantNow : Instant
  /-- `Instant::now()` of the fallback, read when the subtraction fails. -/
  instantNowAgain : Instant
  generateUfrag : Text
  generatePwd : Text
  /-- The chain of the self-signed certificate. -/
  certificate : Except String (List Bytes)

def hexDigit (n : Nat) : Char := Nat.digitChar n

/-- `format!("{b:02x}")` -/
def hexByte (b : UInt8) : Text := [hexDigit (b.toNat / 16), hexDigit (b.toNat % 16)]

/-- Lower-case hex bytes with colons between them. -/
def colonHex (hash : Bytes) : Text := [':'].intercalate (hash.map hexByte)

/-- The closure of `prepare_dtls`. Its `expected` and `algorithm` are the values
at the time it is built. -/
def verifyPeer (L : Layers) (algorithm expected : Text) : VerifyPeerCertificateFn := fun certs =>
  match certs with
  | [] => .error .errNonCertificate
  | cert :: _ =>
    if algorithm ≠ "sha-256".toList then .error .errUnsupportedFingerprintAlgorithm
    else
      match L.sha256 cert with
      | .error e => .error (.crypto e)
      | .ok hash =>
        if colonHex hash = expected then .ok ()
        else .error .errNoMatchingCertificateFingerprint

def fingerprintOf (L : Layers) (chain : List Bytes) : Except TunnelError Text :=
  match chain with
  | [] => .error (.config "certificate chain empty")
  | der :: _ => configError "fingerprint" ((L.sha256 der).map colonHex)

namespace DirectTunnel

variable {L : Layers}

def isOfferer (t : DirectTunnel L) : Bool := t.role = .offerer

/-- The callback of `prepare_dtls`, unless verification is off. -/
def verifyCallback (t : DirectTunnel L) : Option VerifyPeerCertificateFn :=
  if t.disableFingerprintVerification then none
  else some (verifyPeer L t.fingerprintAlgorithm (L.toLowercase t.remoteFingerprint))

def handshakeConfig (t : DirectTunnel L) (certificate : List Bytes) : HandshakeConfig where
  certificates := certificate
  verifyPeerCertificate := t.verifyCallback
  isClient := t.isOfferer
  remote := t.remoteAddr

/-- The tunnel with its certificate in place. -/
def withCertificate (t : DirectTunnel L) (certificate : List Bytes) (localFingerprint : Text) :
    DirectTunnel L :=
  let config := t.handshakeConfig certificate
  { t with
    localFingerprint := localFingerprint
    dtlsConfig := some config
    dtls := if t.isOfferer then t.dtls else L.dtls.setServerConfig t.dtls (some config) }

def prepareDtls (h : BuildHost) (t : DirectTunnel L) : Except TunnelError (DirectTunnel L) := do
  let certificate ← configError "certificate" h.certificate
  let localFingerprint ← fingerprintOf L certificate
  configError "dtls config" (L.dtls.checkConfig (t.handshakeConfig certificate))
  pure (t.withCertificate certificate localFingerprint)

def addCandidates (config : TunnelConfig) (t : DirectTunnel L) :
    Except TunnelError (DirectTunnel L) := do
  let host (addr : SocketAddr) : Except TunnelError L.ice.Candidate :=
    configError "candidate" (L.ice.newCandidateHost ⟨addr.ip, addr.port⟩)
  let localCandidate ← host t.localAddr
  let l := L.ice.addLocalCandidate t.ice localCandidate
  configError "local candidate" l.2
  let remoteCandidate ← host config.remote
  let r := L.ice.addRemoteCandidate l.1 remoteCandidate
  configError "remote candidate" r.2
  pure { t with ice := r.1 }

/-- The record `build` starts from. -/
def fresh (role : Role) (config : TunnelConfig) (localAddr : SocketAddr) (nowMs : UInt64)
    (epoch : Instant) (ice : L.ice.Agent) : DirectTunnel L where
  role := role
  ice := ice
  dtls := L.dtls.new
  dtlsConfig := none
  localFingerprint := []
  sctp := none
  sctpConfig := none
  association := none
  associationHandle := none
  localAddr := localAddr
  remoteAddr := config.remote
  sctpPort := config.sctpPort
  streamId := config.streamId
  ordered := config.ordered
  maxRetransmits := config.maxRetransmits.getD 0
  remoteFingerprint := config.remoteFingerprint
  fingerprintAlgorithm := config.fingerprintAlgorithm
  disableFingerprintVerification := config.disableFingerprintVerification
  dtlsStarted := false
  dtlsConnected := false
  sctpConnected := false
  channelDialed := false
  opened := false
  finished := false
  droppedDatagrams := 0
  epoch := epoch
  lastNow := epoch.addMillis nowMs
  handshakeDeadline := (epoch.addMillis nowMs).addMillis config.handshakeTimeoutMs
  sendBufferCap := defaultSendBufferCap
  events := []
  trace := { startMs := nowMs }
  log := []

def build (L : Layers) (h : BuildHost) (role : Role) (config : TunnelConfig)
    (localAddr : SocketAddr) (nowMs : UInt64) : Except TunnelError (DirectTunnel L) := do
  configError "crypto provider" h.cryptoProvider
  let epoch := epochOf h.instantNow h.instantNowAgain nowMs
  let ice ← configError "ice agent" (L.ice.new (epoch.addMillis nowMs)
    { localUfrag := h.generateUfrag, localPwd := h.generatePwd,
      networkTypes := [networkTypeOf localAddr], isControlling := role = .offerer })
  let t ← prepareDtls h (fresh role config localAddr nowMs epoch ice)
  let t ← addCandidates config t
  let r := L.ice.setRemoteCredentials t.ice config.iceUfrag config.icePwd
  configError "remote credentials" r.2
  pure { t with ice := r.1 }

def startChecks (t : DirectTunnel L) : Except TunnelError (DirectTunnel L) := do
  let creds := (L.ice.remoteCredentials t.ice).getD ⟨[], []⟩
  let r := L.ice.startConnectivityChecks t.ice t.lastNow t.isOfferer creds.ufrag creds.pwd
  configError "start checks" r.2
  pure { t with ice := r.1 }

def offerer (L : Layers) (h : BuildHost) (config : TunnelConfig) (localAddr : SocketAddr)
    (nowMs : UInt64) : Except TunnelError (DirectTunnel L) := do
  let t ← build L h .offerer config localAddr nowMs
  t.startChecks

def familyError : TunnelError := .config "local and remote addresses must share an address family"

def streamIdError : TunnelError := .config "stream id must be 0..=65534"

def new (L : Layers) (h : BuildHost) (config : TunnelConfig) (localAddr : SocketAddr)
    (nowMs : UInt64) : Except TunnelError (DirectTunnel L) :=
  if config.remote.ip.isUnspecified then .error (.config "remote address must be concrete")
  else if config.remote.isIpv4 ≠ localAddr.isIpv4 then .error familyError
  else if (Text.trim config.remoteFingerprint).isEmpty then
    .error (.config "remote fingerprint is required")
  else if config.iceUfrag.isEmpty || config.icePwd.isEmpty then
    .error (.config "remote ICE credentials are required")
  else if 65534 < config.streamId then .error streamIdError
  else offerer L h config localAddr nowMs

/-- The configuration of an answerer: what the offer says replaces what the
caller gave. -/
def withOffer (config : TunnelConfig) (offer : ParsedOffer) : TunnelConfig :=
  { config with
    iceUfrag := offer.ufrag
    icePwd := offer.pwd
    remote := offer.remote
    remoteFingerprint :=
      if offer.fingerprint.isEmpty then config.remoteFingerprint else offer.fingerprint }

def answerer (L : Layers) (h : BuildHost) (config : TunnelConfig) (localAddr : SocketAddr)
    (remoteOfferSdp : Text) (nowMs : UInt64) : Except TunnelError (DirectTunnel L) :=
  if 65534 < config.streamId then .error streamIdError
  else do
    let offer ← ParsedOffer.parse L.toLowercase remoteOfferSdp
    if offer.remote.isIpv4 ≠ localAddr.isIpv4 then .error familyError
    else
      let t ← build L h .answerer (withOffer config offer) localAddr nowMs
      t.startChecks

/-- A call of one of the constructors. -/
inductive Constructor where
  | new
  | offerer
  | answerer (remoteOfferSdp : Text)

def construct (L : Layers) (h : BuildHost) (config : TunnelConfig) (localAddr : SocketAddr)
    (nowMs : UInt64) : Constructor → Except TunnelError (DirectTunnel L)
  | .new => new L h config localAddr nowMs
  | .offerer => offerer L h config localAddr nowMs
  | .answerer sdp => answerer L h config localAddr sdp nowMs

/-- The configuration a constructor builds with. -/
def builtConfig (L : Layers) (config : TunnelConfig) : Constructor → Except TunnelError TunnelConfig
  | .answerer sdp => do
    let offer ← ParsedOffer.parse L.toLowercase sdp
    pure (withOffer config offer)
  | _ => .ok config

/-- A tunnel is built with nothing done yet but ICE under way. -/
def Built (L : Layers) (config : TunnelConfig) (localAddr : SocketAddr) (nowMs : UInt64)
    (t : DirectTunnel L) : Prop :=
  ∃ role epoch ice₀ ice certificate localFingerprint,
    t = { (fresh role config localAddr nowMs epoch ice₀).withCertificate certificate
      localFingerprint with ice := ice }

theorem built_build {h : BuildHost} {role : Role} {config : TunnelConfig} {localAddr : SocketAddr}
    {nowMs : UInt64} {t : DirectTunnel L}
    (hb : build L h role config localAddr nowMs = .ok t) : Built L config localAddr nowMs t := by
  obtain ⟨_, _, hb⟩ := bind_ok hb
  obtain ⟨ice₀, _, hb⟩ := bind_ok hb
  obtain ⟨prepared, hp, hb⟩ := bind_ok hb
  obtain ⟨certificate, _, hp⟩ := bind_ok hp
  obtain ⟨localFingerprint, _, hp⟩ := bind_ok hp
  obtain ⟨_, _, hp⟩ := bind_ok hp
  cases hp
  obtain ⟨candidates, hc, hb⟩ := bind_ok hb
  obtain ⟨_, _, hc⟩ := bind_ok hc
  obtain ⟨_, _, hc⟩ := bind_ok hc
  obtain ⟨_, _, hc⟩ := bind_ok hc
  obtain ⟨_, _, hc⟩ := bind_ok hc
  cases hc
  obtain ⟨_, _, hb⟩ := bind_ok hb
  cases hb
  exact ⟨role, _, ice₀, _, certificate, localFingerprint, rfl⟩

theorem built_startChecks {config : TunnelConfig} {localAddr : SocketAddr} {nowMs : UInt64}
    {t r : DirectTunnel L} (ht : Built L config localAddr nowMs t) (hr : t.startChecks = .ok r) :
    Built L config localAddr nowMs r := by
  obtain ⟨role, epoch, ice₀, ice, certificate, localFingerprint, rfl⟩ := ht
  obtain ⟨_, _, hr⟩ := bind_ok hr
  cases hr
  exact ⟨role, epoch, ice₀, _, certificate, localFingerprint, rfl⟩

/-- Every constructor is a build, with the configuration of `builtConfig`, and the start of
the checks. -/
theorem build_of_construct {h : BuildHost} {config : TunnelConfig} {localAddr : SocketAddr}
    {nowMs : UInt64} {c : Constructor} {t : DirectTunnel L}
    (hc : construct L h config localAddr nowMs c = .ok t) :
    ∃ role config' built, builtConfig L config c = .ok config' ∧
      build L h role config' localAddr nowMs = .ok built ∧ built.startChecks = .ok t := by
  have hofferer : ∀ {t : DirectTunnel L}, offerer L h config localAddr nowMs = .ok t →
      ∃ role built, build L h role config localAddr nowMs = .ok built ∧
        built.startChecks = .ok t := by
    intro t ho
    obtain ⟨built, hb, ho⟩ := bind_ok ho
    exact ⟨_, built, hb, ho⟩
  cases c with
  | new =>
    simp only [construct, new] at hc
    repeat' split at hc
    all_goals first
      | cases hc
      | obtain ⟨role, built, hb⟩ := hofferer hc
        exact ⟨role, config, built, rfl, hb⟩
  | offerer =>
    obtain ⟨role, built, hb⟩ := hofferer hc
    exact ⟨role, config, built, rfl, hb⟩
  | answerer sdp =>
    simp only [construct, answerer] at hc
    split at hc
    · cases hc
    · obtain ⟨parsed, hp, hc⟩ := bind_ok hc
      split at hc
      · cases hc
      · obtain ⟨built, hb, hc⟩ := bind_ok hc
        refine ⟨_, withOffer config parsed, built, ?_, hb, hc⟩
        simp only [builtConfig, hp]
        rfl

/-- **What every constructor leaves behind.** -/
theorem built_construct {h : BuildHost} {config : TunnelConfig} {localAddr : SocketAddr}
    {nowMs : UInt64} {c : Constructor} {t : DirectTunnel L}
    (hc : construct L h config localAddr nowMs c = .ok t) :
    ∃ config', builtConfig L config c = .ok config' ∧ Built L config' localAddr nowMs t := by
  obtain ⟨_, config', built, hconfig, hb, ht⟩ := build_of_construct hc
  exact ⟨config', hconfig, built_startChecks (built_build hb) ht⟩

inductive Op where
  | receive (nowMs : UInt64) (datagram : Bytes)
  | receiveDeferred (nowMs : UInt64) (datagram : Bytes)
  | finishInputBatch
  | tick (nowMs : UInt64)
  | send (data : Bytes)
  | close
  | pollEvent
  | nextDeadline
  | applyRemoteAnswerSdp (sdp : Text)
  | setRemote (remote : SocketAddr)
  | setRemoteIceCredentials (ufrag pwd : Text)
  | setSendBufferCap (cap : Nat)

def step (t : DirectTunnel L) : Op → DirectTunnel L
  | .receive nowMs datagram => t.receive nowMs datagram
  | .receiveDeferred nowMs datagram => t.receiveDeferred nowMs datagram
  | .finishInputBatch => t.finishInputBatch
  | .tick nowMs => t.tick nowMs
  | .send data => (t.send data).2
  | .close => t.close
  | .pollEvent => t.pollEvent.2
  | .nextDeadline => t.nextDeadline.2
  | .applyRemoteAnswerSdp sdp => t.applyRemoteAnswerSdp sdp
  | .setRemote remote => t.setRemote remote
  | .setRemoteIceCredentials ufrag pwd => (t.setRemoteIceCredentials ufrag pwd).1
  | .setSendBufferCap cap => t.setSendBufferCap cap

/-- A state some constructor and some calls lead to. -/
def Reachable (t : DirectTunnel L) : Prop :=
  ∃ h config localAddr nowMs c t₀ ops,
    construct L h config localAddr nowMs c = .ok t₀ ∧ t = run step t₀ ops

/-- Everything ever pushed to the event queue. -/
def pushed (t : DirectTunnel L) : List Event :=
  t.log.filterMap fun
    | .pushed e => some e
    | _ => none

end DirectTunnel

end RtcTunnel.Direct
