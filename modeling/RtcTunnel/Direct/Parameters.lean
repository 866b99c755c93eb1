import RtcTunnel.Direct.Calls

/-!
# What stays as it was built

The fields of a tunnel that no call writes. Only a setter changes one of them
after construction.
-/

namespace RtcTunnel.Direct

open RtcTunnel.Core
open RtcTunnel.Base (Outcome)

set_option autoImplicit false

structure Parameters where
  role : Role
  dtlsConfig : Option HandshakeConfig
  localFingerprint : Text
  localAddr : SocketAddr
  remoteAddr : SocketAddr
  sctpPort : UInt16
  streamId : UInt16
  ordered : Bool
  maxRetransmits : UInt16
  remoteFingerprint : Text
  fingerprintAlgorithm : Text
  disableFingerprintVerification : Bool
  epoch : Instant
  handshakeDeadline : Instant
  sendBufferCap : Nat

namespace DirectTunnel

variable {L : Layers}

def parameters (t : DirectTunnel L) : Parameters where
  role := t.role
  dtlsConfig := t.dtlsConfig
  localFingerprint := t.localFingerprint
  localAddr := t.localAddr
  remoteAddr := t.remoteAddr
  sctpPort := t.sctpPort
  streamId := t.streamId
  ordered := t.ordered
  maxRetransmits := t.maxRetransmits
  remoteFingerprint := t.remoteFingerprint
  fingerprintAlgorithm := t.fingerprintAlgorithm
  disableFingerprintVerification := t.disableFingerprintVerification
  epoch := t.epoch
  handshakeDeadline := t.handshakeDeadline
  sendBufferCap := t.sendBufferCap

theorem parameters_finish (t : DirectTunnel L) (reason : CloseReason) :
    (t.finish reason).parameters = t.parameters := by
  unfold finish
  split <;> rfl

theorem parameters_startDtls (t : DirectTunnel L) : t.startDtls.parameters = t.parameters := by
  unfold startDtls activateDtls
  split
  · rfl
  · split <;> rfl

theorem parameters_startSctp (t : DirectTunnel L) : t.startSctp.1.parameters = t.parameters := by
  unfold startSctp
  split
  · dsimp only
    split <;> rfl
  · rfl

theorem parameters_feedSctp (t : DirectTunnel L) (now : Instant) (datagram : Bytes) :
    (t.feedSctp now datagram).parameters = t.parameters := by
  unfold feedSctp
  split
  · rfl
  · dsimp only
    split <;> rfl

theorem parameters_feedDtlsEvent (t : DirectTunnel L) (now : Instant) (e : DtlsEvent) :
    (t.feedDtlsEvent now e).1.parameters = t.parameters := by
  cases e with
  | handshakeComplete =>
    unfold feedDtlsEvent
    dsimp only
    split
    · rw [parameters_startSctp]
      rfl
    · rfl
  | applicationData data => exact parameters_feedSctp t now data
  | other => rfl

theorem parameters_feedDtls (t : DirectTunnel L) (now : Instant) (datagram : Bytes) :
    (t.feedDtls now datagram).1.parameters = t.parameters := by
  have he : ∀ (es : List DtlsEvent) (s : DirectTunnel L),
      (feedDtlsEvents now es s).1.parameters = s.parameters := by
    intro es
    induction es with
    | nil => exact fun _ => rfl
    | cons e es ih =>
      intro s
      exact (Outcome.andThen_unchanged parameters ih).trans (parameters_feedDtlsEvent s now e)
  unfold feedDtls
  dsimp only
  split
  · rfl
  · rw [he]
    rfl

theorem parameters_drainIceEvents (t : DirectTunnel L) :
    t.drainIceEvents.parameters = t.parameters := by
  rw [drainIceEvents_eq]
  rfl

theorem parameters_pollAssociation (t : DirectTunnel L) :
    t.pollAssociation.2.parameters = t.parameters := by
  unfold pollAssociation
  split <;> rfl

theorem parameters_readStream (t : DirectTunnel L) :
    t.readStream.1.parameters = t.parameters := by
  unfold readStream
  split
  · rfl
  · split <;> rfl

theorem parameters_openStream (t : DirectTunnel L) :
    t.openStream.1.parameters = t.parameters := by
  unfold openStream
  dsimp only
  split
  · rfl
  · split <;> rfl

theorem parameters_drainSctpTransmits (t : DirectTunnel L) :
    t.drainSctpTransmits.1.parameters = t.parameters := by
  unfold drainSctpTransmits
  split <;> rfl

theorem parameters_maybeOpen (t : DirectTunnel L) : t.maybeOpen.parameters = t.parameters := by
  unfold maybeOpen
  split
  · rfl
  · split <;> rfl

theorem parameters_handleTimeouts (t : DirectTunnel L) (now : Instant) :
    (t.handleTimeouts now).parameters = t.parameters := by
  unfold handleTimeouts
  dsimp only
  split <;> rfl

theorem parameters_nextDeadline (t : DirectTunnel L) :
    t.nextDeadline.2.parameters = t.parameters := by
  unfold nextDeadline
  split <;> rfl

/-- **No call writes a parameter.** -/
theorem parameters_call {t r : DirectTunnel L} (h : Call t r) : r.parameters = t.parameters := by
  cases h with
  | clock now => rfl
  | iceRead now datagram hd => rfl
  | startDtls hp hs => exact parameters_startDtls t
  | feedDtls now datagram hd hp hs => exact parameters_feedDtls t now datagram
  | drop => rfl
  | drainIceEvents => exact parameters_drainIceEvents t
  | drainIceWrites => rfl
  | pollAssociation hs => exact parameters_pollAssociation t
  | observeConnected hs ha => rfl
  | finish reason hr => exact parameters_finish t reason
  | readStream => exact parameters_readStream t
  | openStream hc hd => exact parameters_openStream t
  | drainSctpTransmits => exact parameters_drainSctpTransmits t
  | drainDtlsTransmits => rfl
  | maybeOpen => exact parameters_maybeOpen t
  | handleTimeouts now => exact parameters_handleTimeouts t now
  | closeIce => rfl
  | pollEvent => rfl
  | nextDeadline => exact parameters_nextDeadline t

theorem parameters_calls {t r : DirectTunnel L} (h : t.Calls r) : r.parameters = t.parameters :=
  h.keeps (I := fun s => s.parameters = t.parameters)
    (fun _ _ hc hs => (parameters_call hc).trans hs) rfl

theorem parameters_step {t : DirectTunnel L} {op : Op} (h : op.isSetting = false) :
    (t.step op).parameters = t.parameters := by
  refine step_keeps (I := fun s => s.parameters = t.parameters)
    (fun _ _ hc hs => (parameters_call hc).trans hs) ?_ h rfl
  intro data w _ hw _
  cases hw <;> rfl

end DirectTunnel

end RtcTunnel.Direct
