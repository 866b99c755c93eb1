import RtcTunnel.Abi.Create
import RtcTunnel.Direct.Channel

/-!
# The reliability of the stream

`max_retransmits` crosses the boundary as an `i32`, becomes an `Option<u16>` and then a `u16` with
a sentinel, and reaches SCTP as a kind and a value. It arrives as it was meant from 0 to 65534.
-/

namespace RtcTunnel.Abi

open RtcTunnel.Core
open RtcTunnel.Direct
open RtcTunnel.Base (Outcome bind_ok okValue eq_ok_okValue)
open RtcTunnel.Base.Poll (Source TrySource)
open RtcTunnel.Base.Run

set_option autoImplicit false

/-- The calls of a history that configure a stream use these parameters. -/
def Uses (s : Life) (unordered : Bool) (reliability : ReliabilityType × UInt32) : Prop :=
  s.unordered = unordered ∧ s.reliability = reliability ∧
    ∀ u type value ok, .setReliabilityParams u type value ok ∈ s.log →
      u = unordered ∧ (type, value) = reliability

theorem uses_move {unordered : Bool} {reliability : ReliabilityType × UInt32} (a b : Life)
    (hm : Life.Move a b) (h : Uses a unordered reliability) :
    Uses b unordered reliability := by
  obtain ⟨hu, hr, hl⟩ := h
  cases hm with
  | dialAccepted ok _ _ _ =>
    refine ⟨hu, hr, fun u type value ok' hm => ?_⟩
    simp only [Life.record, List.mem_append, List.mem_singleton, reduceCtorEq, or_false] at hm
    rcases hm with hm | hm
    · exact hl u type value ok' hm
    · obtain ⟨rfl, rfl, rfl, _⟩ := Entry.setReliabilityParams.inj hm
      exact ⟨hu, hr⟩
  | serve => exact ⟨hu, hr, hl⟩
  | listen => exact ⟨hu, hr, hl⟩
  | dialNothing => exact ⟨hu, hr, hl⟩
  | _ =>
    refine ⟨hu, hr, fun u type value ok' hm => hl u type value ok' ?_⟩
    simpa [Life.record] using hm

theorem int32_toUInt16 {m : Int32} (h : 0 ≤ m.toInt) (hm : m.toInt ≤ 65535) :
    (m.toUInt32.toUInt16.toNat : Int) = m.toInt := by
  have hle : (0 : Int32) ≤ m := by
    rw [Int32.le_iff_toInt_le]
    exact h
  have hn : m.toUInt32.toNat = m.toInt.toNat := Int32.toNat_toUInt32_of_le hle
  rw [UInt32.toNat_toUInt16, hn]
  omega

/-- The parameters that `max_retransmits` and `ordered` stand for. -/
structure AsConfigured (args : CreateArgs) (unordered : Bool) (type : ReliabilityType)
    (value : UInt32) : Prop where
  unordered : unordered = decide (args.ordered = 0)
  unlimited : args.maxRetransmits.toInt < 0 → type = .reliable
  limited : 0 ≤ args.maxRetransmits.toInt →
    type = .rexmit ∧ (value.toNat : Int) = args.maxRetransmits.toInt

/-- `DirectTunnel.reliability` of what `max_retransmits` becomes. -/
def reliabilityOf (m : Int32) : ReliabilityType × UInt32 :=
  let n := (maxRetransmitsArg m).getD 0
  if n = 65535 then (.reliable, 0) else (.rexmit, n.toUInt32)

theorem reliabilityOf_neg {m : Int32} (h : m.toInt < 0) : reliabilityOf m = (.rexmit, 0) := by
  have hn : ¬ (0 : Int32) ≤ m := by
    rw [Int32.le_iff_toInt_le]
    exact fun hle => absurd hle (by simpa using h)
  rw [reliabilityOf, maxRetransmitsArg, if_neg hn]
  rfl

theorem reliabilityOf_small {m : Int32} (h : 0 ≤ m.toInt) (hm : m.toInt ≤ 65534) :
    (reliabilityOf m).1 = .rexmit ∧ ((reliabilityOf m).2.toNat : Int) = m.toInt := by
  have hle : (0 : Int32) ≤ m := by
    rw [Int32.le_iff_toInt_le]
    exact h
  have hn := int32_toUInt16 h (by omega)
  have hne : m.toUInt32.toUInt16 ≠ 65535 := by
    intro he
    rw [he] at hn
    have h65535 : ((65535 : UInt16).toNat : Int) = 65535 := rfl
    omega
  rw [reliabilityOf, maxRetransmitsArg, if_pos hle, Option.getD_some, if_neg hne]
  exact ⟨rfl, by rw [UInt16.toNat_toUInt32, hn]⟩

theorem reliabilityOf_last {m : Int32} (h : m.toInt = 65535) :
    reliabilityOf m = (.reliable, 0) := by
  have hle : (0 : Int32) ≤ m := by
    rw [Int32.le_iff_toInt_le]
    exact h ▸ (by decide)
  have hn := int32_toUInt16 (m := m) (by omega) (by omega)
  have he : m.toUInt32.toUInt16 = 65535 := by
    apply UInt16.toNat_inj.mp
    have h65535 : (65535 : UInt16).toNat = 65535 := rfl
    omega
  rw [reliabilityOf, maxRetransmitsArg, if_pos hle, Option.getD_some, if_pos he]

variable {L : Layers} {h : BuildHost} {args : CreateArgs}

/-- A successful creation is a successful `DirectTunnel::new`. -/
theorem construct_create {handle : TunnelHandle L} (hc : rtcTunnelCreate L h args = .ok handle) :
    ∃ remote localAddr ufrag pwd fingerprint algorithm,
      DirectTunnel.construct L h (configOf args remote ufrag pwd fingerprint algorithm) localAddr
        args.nowMs.maxZero.toU64 .new = .ok handle.tunnel := by
  obtain ⟨config, localAddr, hg, hn⟩ := new_of_create hc
  obtain ⟨remote, ufrag, pwd, fingerprint, algorithm, _, _, _, _, _, rfl⟩ := given_ok hg
  exact ⟨remote, localAddr, ufrag, pwd, fingerprint, algorithm, hn⟩

/-- Every call that configures the stream of a created tunnel uses what the
arguments became. -/
theorem uses_run {handle : TunnelHandle L} (hc : rtcTunnelCreate L h args = .ok handle)
    (ops : List DirectTunnel.Op) :
    Uses (run DirectTunnel.step handle.tunnel ops).life (decide (args.ordered = 0))
      (reliabilityOf args.maxRetransmits) := by
  obtain ⟨remote, localAddr, ufrag, pwd, fingerprint, algorithm, hn⟩ := construct_create hc
  refine DirectTunnel.life_invariant uses_move ?_
  have hlog := (DirectTunnel.fresh_construct hn).log
  obtain ⟨config, hconf, _, _, _, _, _, _, ht⟩ := DirectTunnel.built_construct hn
  cases hconf
  refine ⟨?_, ?_, ?_⟩
  · rw [ht]
    simp [DirectTunnel.life, DirectTunnel.withCertificate, DirectTunnel.fresh, configOf]
  · rw [ht]
    rfl
  · rw [hlog]
    intro _ _ _ _ hm
    cases hm

/-- What a history says of the stream: behind every call that opened it comes the call that
configures it, and every such call has the parameters that the arguments stand for. -/
structure Programs (args : CreateArgs) (log : List Entry) : Prop where
  called : ∀ before id ppi after, log = before ++ .openStream id ppi true :: after →
    ∃ unordered type value ok rest,
      after = .setReliabilityParams unordered type value ok :: rest ∧
        AsConfigured args unordered type value
  only : ∀ unordered type value ok, .setReliabilityParams unordered type value ok ∈ log →
    AsConfigured args unordered type value

/-- Every tunnel created with the arguments programs its stream as they say, and a value past
`u16` creates none. -/
def ReliabilityProgrammed (args : CreateArgs) : Prop :=
  ∀ (L : Layers) (h : BuildHost) (handle : TunnelHandle L),
    rtcTunnelCreate L h args = .ok handle → args.maxRetransmits.toInt ≤ 65535 ∧
      ∀ ops, Programs args (run DirectTunnel.step handle.tunnel ops).log

/-- The checks of `Tunnel::new`. -/
structure Admits (config : TunnelConfig) (localAddr : SocketAddr) : Prop where
  concrete : config.remote.ip.isUnspecified = false
  family : config.remote.isIpv4 = localAddr.isIpv4
  fingerprint : (Text.trim config.remoteFingerprint).isEmpty = false
  credentials : (config.iceUfrag.isEmpty || config.icePwd.isEmpty) = false
  streamId : ¬ 65534 < config.streamId

/-- The arguments pass every check there is. -/
def Admitted (args : CreateArgs) : Prop :=
  ∃ config localAddr, given args = .ok (config, localAddr) ∧ Admits config localAddr

theorem admits_of_new {config : TunnelConfig} {localAddr : SocketAddr} {nowMs : UInt64}
    {t : DirectTunnel L} (hn : DirectTunnel.new L h config localAddr nowMs = .ok t) :
    Admits config localAddr := by
  unfold DirectTunnel.new at hn
  split at hn
  · cases hn
  · rename_i hconcrete
    split at hn
    · cases hn
    · rename_i hfamily
      split at hn
      · cases hn
      · rename_i hfingerprint
        split at hn
        · cases hn
        · rename_i hcredentials
          split at hn
          · cases hn
          · rename_i hstream
            exact ⟨by simpa using hconcrete, by simpa using hfamily, by simpa using hfingerprint,
              Bool.eq_false_of_not_eq_true hcredentials, hstream⟩

theorem new_of_admits {config : TunnelConfig} {localAddr : SocketAddr}
    (ha : Admits config localAddr) (L : Layers) (h : BuildHost) (nowMs : UInt64) :
    DirectTunnel.new L h config localAddr nowMs =
      DirectTunnel.offerer L h config localAddr nowMs := by
  rw [DirectTunnel.new, ha.concrete, ha.family, ha.fingerprint, ha.credentials, if_neg ha.streamId]
  simp

theorem admitted_of_create {handle : TunnelHandle L}
    (hc : rtcTunnelCreate L h args = .ok handle) : Admitted args := by
  obtain ⟨config, localAddr, hg, hn⟩ := new_of_create hc
  exact ⟨config, localAddr, hg, admits_of_new hn⟩

/-- Whatever was asked for, a stream that was opened is configured by the next call. -/
theorem configured_run {handle : TunnelHandle L} (hc : rtcTunnelCreate L h args = .ok handle)
    (ops : List DirectTunnel.Op) {before after : List Entry} {id : UInt16} {ppi : Ppi}
    (hl : (run DirectTunnel.step handle.tunnel ops).log =
      before ++ .openStream id ppi true :: after) :
    ∃ ok rest, after = .setReliabilityParams (decide (args.ordered = 0))
      (reliabilityOf args.maxRetransmits).1 (reliabilityOf args.maxRetransmits).2 ok :: rest := by
  obtain ⟨hunordered, hreliability, _⟩ := uses_run hc ops
  obtain ⟨_, _, _, _, _, _, hn⟩ := construct_create hc
  have hopened : .openStream id ppi true ∈ (run DirectTunnel.step handle.tunnel ops).log := by
    rw [hl]
    exact List.mem_append_right _ (List.mem_cons_self ..)
  cases DirectTunnel.dialing_run hn ops with
  | not _ hplain => exact absurd (hplain _ hopened).1 nofun
  | once _ front attempt back hs ha hfront hback =>
    have hs : (run DirectTunnel.step handle.tunnel ops).log = front ++ attempt ++ back := hs
    rw [Life.Attempt, hunordered, hreliability] at ha
    rcases ha with rfl | ⟨ok, rfl⟩
    · rw [hs] at hopened
      rcases List.mem_append.mp hopened with hm | hm
      · rcases List.mem_append.mp hm with hm | hm
        · exact absurd (hfront _ hm).1 nofun
        · cases List.mem_singleton.mp hm
      · exact absurd (hback _ hm) nofun
    · have hsplit : front ++ .openStream (run DirectTunnel.step handle.tunnel ops).life.streamId
          .binary true :: .setReliabilityParams (decide (args.ordered = 0))
            (reliabilityOf args.maxRetransmits).1 (reliabilityOf args.maxRetransmits).2 ok :: back =
          before ++ .openStream id ppi true :: after := by
        rw [← hl, hs]
        simp
      have hbefore : .openStream id ppi true ∉ front :=
        fun hm => absurd (hfront _ hm).1 nofun
      have hbehind : .openStream id ppi true ∉ .setReliabilityParams (decide (args.ordered = 0))
          (reliabilityOf args.maxRetransmits).1 (reliabilityOf args.maxRetransmits).2 ok :: back := by
        intro hm
        rcases List.mem_cons.mp hm with hm | hm
        · cases hm
        · exact absurd (hback _ hm) nofun
      obtain ⟨_, _, rfl⟩ := (List.append_cons_inj_of_notMem hbefore hbehind).mp hsplit
      exact ⟨ok, back, rfl⟩

/-- The reliability is what the arguments stand for exactly from 0 to 65534. -/
theorem asConfigured_iff (hmax : args.maxRetransmits.toInt ≤ 65535) :
    AsConfigured args (decide (args.ordered = 0)) (reliabilityOf args.maxRetransmits).1
        (reliabilityOf args.maxRetransmits).2 ↔
      0 ≤ args.maxRetransmits.toInt ∧ args.maxRetransmits.toInt ≤ 65534 := by
  constructor
  · intro hconf
    by_contra hm
    by_cases hneg : args.maxRetransmits.toInt < 0
    · have ht := hconf.unlimited hneg
      rw [reliabilityOf_neg hneg] at ht
      cases ht
    · have ht := (hconf.limited (by omega)).1
      rw [reliabilityOf_last (by omega)] at ht
      cases ht
  · rintro ⟨h0, hm⟩
    exact ⟨rfl, fun hneg => absurd hneg (by omega), fun _ => reliabilityOf_small h0 hm⟩

/-- A value in range is programmed, whatever the layers answer. -/
theorem programs_run {handle : TunnelHandle L} (hc : rtcTunnelCreate L h args = .ok handle)
    (h0 : 0 ≤ args.maxRetransmits.toInt) (hm : args.maxRetransmits.toInt ≤ 65534)
    (ops : List DirectTunnel.Op) : Programs args (run DirectTunnel.step handle.tunnel ops).log := by
  have hconf := (asConfigured_iff (by omega)).mpr ⟨h0, hm⟩
  refine ⟨fun before id ppi after hl => ?_, fun unordered type value ok hmem => ?_⟩
  · obtain ⟨ok, rest, rfl⟩ := configured_run hc ops hl
    exact ⟨_, _, _, ok, rest, rfl, hconf⟩
  · obtain ⟨rfl, hpar⟩ := (uses_run hc ops).2.2 unordered type value ok hmem
    obtain ⟨rfl, rfl⟩ := Prod.mk.inj hpar
    exact hconf

/-- A tunnel that opens its stream in some run programs it as configured only in range. -/
theorem range_of_programs {handle : TunnelHandle L} (hc : rtcTunnelCreate L h args = .ok handle)
    {ops : List DirectTunnel.Op} {id : UInt16} {ppi : Ppi}
    (hopened : .openStream id ppi true ∈ (run DirectTunnel.step handle.tunnel ops).log)
    (hmax : args.maxRetransmits.toInt ≤ 65535)
    (hp : Programs args (run DirectTunnel.step handle.tunnel ops).log) :
    0 ≤ args.maxRetransmits.toInt ∧ args.maxRetransmits.toInt ≤ 65534 := by
  obtain ⟨before, after, hl⟩ := List.append_of_mem hopened
  obtain ⟨ok, rest, rfl⟩ := configured_run hc ops hl
  obtain ⟨_, _, _, _, _, heq, hconf⟩ := hp.called before id ppi _ hl
  cases heq
  exact (asConfigured_iff hmax).mp hconf

/-- Layers that agree to everything: ICE has its pair from the start, a DTLS datagram completes the
handshake, and the association connects at once. -/
def agreeing : Layers where
  ice :=
    { Agent := Unit
      Candidate := Unit
      new := fun _ _ => .ok ()
      newCandidateHost := fun _ => .ok ()
      marshal := fun _ => []
      addLocalCandidate := fun a _ => (a, .ok ())
      addRemoteCandidate := fun a _ => (a, .ok ())
      setRemoteCredentials := fun a _ _ => (a, .ok ())
      startConnectivityChecks := fun a _ _ _ _ => (a, .ok ())
      remoteCredentials := fun _ => none
      localCredentials := fun _ => ⟨[], []⟩
      localCandidates := fun _ => []
      handleRead := fun a _ _ _ _ => (a, .ok ())
      handleTimeout := fun a _ => (a, .ok ())
      pollTimeout := fun a => (none, a)
      events := Source.empty Unit IceEvent
      writes := Source.empty Unit Bytes
      pairSelected := fun _ => true
      close := fun a => (a, .ok ()) }
  dtls :=
    { Endpoint := Unit
      new := ()
      checkConfig := fun _ => .ok ()
      setServerConfig := fun d _ => d
      connect := fun d _ _ _ => (d, .ok ())
      read := fun d _ _ _ => (d, .ok [.handshakeComplete])
      write := fun d _ _ _ => (d, .ok ())
      handleTimeout := fun d _ _ => (d, .ok ())
      pollTimeout := fun _ _ => none
      transmits := Source.empty Unit Bytes
      peerCertificates := fun _ _ => [] }
  sctp :=
    { Script.sctp with
      connect := fun e _ _ _ => (e, .ok ((), { Script.Association.fresh with events := [.connected] })) }
  sha256 := Script.sha256
  toLowercase := id

open DirectTunnel in
/-- Over those layers every configuration builds a tunnel, and its first datagram opens the
stream. -/
theorem opens_agreeing (config : TunnelConfig) (localAddr : SocketAddr) (nowMs : UInt64) :
    ∃ t, DirectTunnel.offerer agreeing Script.host config localAddr nowMs = .ok t ∧
      .openStream config.streamId .binary true ∈
        (run DirectTunnel.step t [.receive 1 [22]]).log := by
  have hopens : ∀ t : DirectTunnel agreeing, t.role = .offerer → t.dtlsConfig.isSome = true →
      t.dtlsStarted = false → t.sctp = none → t.sctpConnected = false → t.channelDialed = false →
      t.opened = false → t.finished = false → t.log = [] → .openStream t.streamId .binary true ∈
        (run DirectTunnel.step t [.receive 1 [22]]).log := by
    rintro ⟨⟩ rfl hd rfl rfl rfl rfl rfl rfl rfl
    obtain ⟨d, rfl⟩ := Option.isSome_iff_exists.mp hd
    -- one datagram through `receive`: DTLS starts and completes, the pump sees `Connected`
    simp [run, step, receive, ingest, dispatch, isStun, isDtls, agreeing, startDtls, activateDtls,
      record, feedDtls, feedDtlsEvents, feedDtlsEvent, startSctp, Outcome.andThen, pump, pumpIce,
      drainIceEvents, drainIceWrites, pushAll, push, Source.drain, Source.rounds, Source.empty,
      pumpStarted, drainSctp, pollAssociation, observeSctpEvents, observeConnected, drainChannel,
      openStream, drainSctpTransmits, drainDtlsTransmits, maybeOpen, Script.sctp, Source.queue,
      Script.Association.fresh, Script.Association.eventSlot, Script.Association.transmitSlot,
      Script.Association.openStream, Except.isOk, Except.toBool, configError, Source.lift,
      TrySource.forEach, TrySource.rounds]
  exact ⟨_, rfl, hopens _ rfl rfl rfl rfl rfl rfl rfl rfl rfl⟩

/-- **The reliability is programmed as configured exactly for 0 to 65534 retransmissions**, the
arguments that another check rejects apart. -/
theorem reliability_programmed_iff (args : CreateArgs) : ReliabilityProgrammed args ↔
    (Admitted args → 0 ≤ args.maxRetransmits.toInt ∧ args.maxRetransmits.toInt ≤ 65534) := by
  constructor
  · rintro hp ⟨config, localAddr, hg, ha⟩
    obtain ⟨t, ht, hopened⟩ := opens_agreeing config localAddr args.nowMs.maxZero.toU64
    have hc : rtcTunnelCreate agreeing Script.host args = .ok (handleOf t) := by
      rw [rtcTunnelCreate_eq, hg, Except.bind, new_of_admits ha, ht]
    obtain ⟨hmax, hall⟩ := hp agreeing Script.host (handleOf t) hc
    exact range_of_programs hc hopened hmax (hall _)
  · intro hrange L h handle hc
    obtain ⟨h0, hm⟩ := hrange (admitted_of_create hc)
    exact ⟨by omega, programs_run hc h0 hm⟩

/-- Arguments that differ in `max_retransmits` only. -/
def argsWith (m : Int32) : CreateArgs where
  remote := some "192.0.2.2:4001".toUTF8.data.toList
  ufrag := some "peer".toUTF8.data.toList
  pwd := some "secret".toUTF8.data.toList
  fingerprint := some "07".toUTF8.data.toList
  fingerprintAlgorithm := some "sha-256".toUTF8.data.toList
  «local» := some "192.0.2.1:4000".toUTF8.data.toList
  sctpPort := 5000
  streamId := 0
  ordered := 0
  maxRetransmits := m
  handshakeTimeoutMs := .finite 30000
  disableFingerprintVerification := 0
  nowMs := .finite 0

/-- The handshake up to the open channel. -/
def untilOpened : List DirectTunnel.Op :=
  [.receive 1 [0], .receive 2 [22, 7], .receive 3 [23, 2]]

def create (m : Int32) : Except String (TunnelHandle Script.layers) :=
  rtcTunnelCreate Script.layers Script.host (argsWith m)

theorem create_neg : (create (-1)).isOk = true := by decide +kernel

theorem create_last : (create 65535).isOk = true := by decide +kernel

theorem create_over : (create 65536).isOk = true := by decide +kernel

theorem range_created {m : Int32} (hok : (create m).isOk = true)
    (hopened : .openStream 0 .binary true ∈
      (run DirectTunnel.step (okValue (create m) hok).tunnel untilOpened).log)
    (hp : ReliabilityProgrammed (argsWith m)) : 0 ≤ m.toInt ∧ m.toInt ≤ 65534 := by
  have hc : create m = .ok (okValue (create m) hok) := eq_ok_okValue (create m) hok
  obtain ⟨hmax, hall⟩ := hp _ _ _ hc
  exact range_of_programs hc hopened hmax (hall untilOpened)

/-- A negative value programs zero retransmissions, 65535 programs unlimited ones,
and 65536 is taken for 0. -/
theorem reliability_changed :
    ¬ ReliabilityProgrammed (argsWith (-1)) ∧ ¬ ReliabilityProgrammed (argsWith 65535) ∧
      ¬ ReliabilityProgrammed (argsWith 65536) := by
  refine ⟨fun hp => ?_, fun hp => ?_, fun hp => ?_⟩
  · exact absurd (range_created create_neg (by decide +kernel) hp) (by decide)
  · exact absurd (range_created create_last (by decide +kernel) hp) (by decide)
  · exact absurd (range_created create_over (by decide +kernel) hp) (by decide)

end RtcTunnel.Abi
