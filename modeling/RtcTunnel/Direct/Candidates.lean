import RtcTunnel.Core.Lines
import RtcTunnel.Direct.Script

/-!
# The candidate an answerer uses

`ParsedOffer::parse` takes the last host candidate of component 1 with an address it can
read. It looks neither at the transport nor at the family, so the candidate it keeps need
not be one the tunnel can reach.
-/

namespace RtcTunnel.Core

set_option autoImplicit false

/-- The address and the port of a UDP host candidate of component 1, as the line has them. -/
def udpHostLine (raw : Text) : Option (Text × Text) :=
  match (Text.stripPrefix (Text.trim raw) "a=candidate:".toList).map Text.splitWhitespace with
  | some (_ :: component :: transport :: _ :: address :: port :: _ :: kind :: _) =>
    if component = "1".toList ∧ asciiLowercase transport = "udp".toList ∧ kind = "host".toList then
      some (address, port)
    else none
  | _ => none

/-- A UDP host candidate whose address the tunnel can reach from its own. -/
def usableLine (localAddr : SocketAddr) (raw : Text) : Option SocketAddr :=
  (udpHostLine raw).bind fun p =>
    (parseCandidateAddr p.1 p.2).filter fun addr => addr.isIpv4 = localAddr.isIpv4

/-- The reader accepts every usable line. -/
theorem addressLine_of_usable {localAddr addr : SocketAddr} {raw : Text}
    (h : usableLine localAddr raw = some addr) :
    addressLine raw = some addr ∧ addr.isIpv4 = localAddr.isIpv4 := by
  obtain ⟨⟨address, port⟩, hu, hp⟩ := Option.bind_eq_some_iff.mp h
  obtain ⟨hp, hf⟩ := Option.filter_eq_some_iff.mp hp
  refine ⟨?_, of_decide_eq_true hf⟩
  unfold udpHostLine at hu
  unfold addressLine
  cases hs : Text.stripPrefix (Text.trim raw) "a=candidate:".toList with
  | none => rw [hs] at hu; cases hu
  | some value =>
    rw [hs] at hu
    simp only [Option.map_some] at hu
    simp only [Option.bind_some, candidateLine]
    split at hu
    · rename_i heq
      rw [Option.some.inj heq]
      split at hu
      · rename_i hc
        cases hu
        exact (if_pos ⟨hc.1, hc.2.2⟩).trans hp
      · cases hu
    · cases hu

def HasCredentials (sdp : Text) : Prop :=
  (∃ raw ∈ Text.lines sdp, (ufragLine raw).isSome) ∧ ∃ raw ∈ Text.lines sdp, (pwdLine raw).isSome

instance (sdp : Text) : Decidable (HasCredentials sdp) := inferInstanceAs (Decidable (_ ∧ _))

/-- Some usable line of the text has this address and this port. -/
def OfUsable (localAddr : SocketAddr) (sdp : Text) (addr : SocketAddr) : Prop :=
  ∃ raw ∈ Text.lines sdp, ∃ usable ∈ usableLine localAddr raw,
    addr.ip = usable.ip ∧ addr.port = usable.port

theorem OfUsable.isIpv4_eq {localAddr addr : SocketAddr} {sdp : Text}
    (h : OfUsable localAddr sdp addr) : addr.isIpv4 = localAddr.isIpv4 := by
  obtain ⟨raw, _, usable, hu, hip, _⟩ := h
  rw [← (addressLine_of_usable hu).2, SocketAddr.isIpv4, SocketAddr.isIpv4, hip]

def NoUdpHost (sdp : Text) : Prop := ∀ raw ∈ Text.lines sdp, udpHostLine raw = none

instance (sdp : Text) : Decidable (NoUdpHost sdp) := inferInstanceAs (Decidable (∀ _ ∈ _, _))

theorem isSome_getLast?_filterMap {α : Type} {f : Text → Option α} {lines : List Text} :
    (lines.filterMap f).getLast?.isSome ↔ ∃ raw ∈ lines, (f raw).isSome := by
  rw [← not_iff_not, Bool.not_eq_true, Option.isSome_eq_false_iff, Option.isNone_iff_eq_none,
    List.getLast?_eq_none_iff, List.filterMap_eq_nil_iff]
  simp

/-- **When the reader accepts a text.** -/
theorem parse_succeeds_iff (toLowercase : Text → Text) {sdp : Text} :
    (∃ offer, ParsedOffer.parse toLowercase sdp = .ok offer) ↔
      HasCredentials sdp ∧ ∃ raw ∈ Text.lines sdp, (addressLine raw).isSome := by
  rw [HasCredentials, ← isSome_getLast?_filterMap, ← isSome_getLast?_filterMap,
    ← isSome_getLast?_filterMap]
  constructor
  · rintro ⟨offer, hp⟩
    obtain ⟨hu, hw, hr, _⟩ := (parse_ok_iff toLowercase).mp hp
    rw [hu, hw, hr]
    exact ⟨⟨rfl, rfl⟩, rfl⟩
  · rintro ⟨⟨hu, hw⟩, hr⟩
    obtain ⟨ufrag, hu⟩ := Option.isSome_iff_exists.mp hu
    obtain ⟨pwd, hw⟩ := Option.isSome_iff_exists.mp hw
    obtain ⟨remote, hr⟩ := Option.isSome_iff_exists.mp hr
    exact ⟨⟨ufrag, pwd, remote, _⟩, (parse_ok_iff toLowercase).mpr ⟨hu, hw, hr, rfl⟩⟩

end RtcTunnel.Core

namespace RtcTunnel.Direct.DirectTunnel

open RtcTunnel.Core
open RtcTunnel.Base (bind_ok)

variable {L : Layers} {h : BuildHost} {config : TunnelConfig} {localAddr : SocketAddr}
  {sdp : Text} {nowMs : UInt64}

/-- What `answerer` does with an offer that it read and whose family it accepts. -/
def answerWith (L : Layers) (h : BuildHost) (config : TunnelConfig) (localAddr : SocketAddr)
    (offer : ParsedOffer) (nowMs : UInt64) : Except TunnelError (DirectTunnel L) :=
  if 65534 < config.streamId then .error streamIdError
  else do
    let t ← build L h .answerer (withOffer config offer) localAddr nowMs
    t.startChecks

theorem answerer_eq (h : BuildHost) (config : TunnelConfig) (nowMs : UInt64) {offer : ParsedOffer}
    (hp : ParsedOffer.parse L.toLowercase sdp = .ok offer)
    (hf : offer.remote.isIpv4 = localAddr.isIpv4) :
    answerer L h config localAddr sdp nowMs = answerWith L h config localAddr offer nowMs := by
  rw [answerer, answerWith, hp]
  by_cases hs : 65534 < config.streamId
  · rw [if_pos hs, if_pos hs]
  · rw [if_neg hs, if_neg hs]
    exact if_neg (not_not_intro hf)

theorem answerWith_remote {offer : ParsedOffer} {t : DirectTunnel L}
    (ht : answerWith L h config localAddr offer nowMs = .ok t) : t.remoteAddr = offer.remote := by
  unfold answerWith at ht
  split at ht
  · cases ht
  · obtain ⟨built, hb, ht⟩ := bind_ok ht
    obtain ⟨_, _, _, _, _, _, rfl⟩ := built_startChecks (built_build hb) ht
    rfl

/-- The answerer gets past the offer of a peer it can reach, with the address of a candidate
that it can use, and a text without such a candidate is refused. -/
structure PicksUsable (L : Layers) (h : BuildHost) (config : TunnelConfig)
    (localAddr : SocketAddr) (sdp : Text) (nowMs : UInt64) : Prop where
  picks : HasCredentials sdp → (∃ raw ∈ Text.lines sdp, (usableLine localAddr raw).isSome) →
    ∃ offer, ParsedOffer.parse L.toLowercase sdp = .ok offer ∧
      offer.remote.isIpv4 = localAddr.isIpv4 ∧ OfUsable localAddr sdp offer.remote ∧
      answerer L h config localAddr sdp nowMs = answerWith L h config localAddr offer nowMs ∧
      ∀ t, answerer L h config localAddr sdp nowMs = .ok t → t.remoteAddr = offer.remote
  refuses : NoUdpHost sdp → ¬ ∃ offer, ParsedOffer.parse L.toLowercase sdp = .ok offer

/-- In a text with credentials, the last address the reader accepts is the one of a usable
line where there is a usable line, and no address is accepted where there is no UDP host. -/
structure LastUsable (localAddr : SocketAddr) (sdp : Text) : Prop where
  last : HasCredentials sdp → (∃ raw ∈ Text.lines sdp, (usableLine localAddr raw).isSome) →
    ∃ addr ∈ ((Text.lines sdp).filterMap addressLine).getLast?, OfUsable localAddr sdp addr
  none : HasCredentials sdp → NoUdpHost sdp → ∀ raw ∈ Text.lines sdp, addressLine raw = none

/-- **The answerer uses a usable candidate exactly when the last one is usable.** -/
theorem picksUsable_iff (L : Layers) (h : BuildHost) (config : TunnelConfig)
    (localAddr : SocketAddr) (sdp : Text) (nowMs : UInt64) :
    PicksUsable L h config localAddr sdp nowMs ↔ LastUsable localAddr sdp := by
  constructor
  · intro hp
    refine ⟨fun hc hu => ?_, fun hc hn raw hraw => ?_⟩
    · obtain ⟨offer, hparse, _, hof, _⟩ := hp.picks hc hu
      exact ⟨offer.remote, ((parse_ok_iff _).mp hparse).2.2.1, hof⟩
    · by_contra ha
      exact hp.refuses hn ((parse_succeeds_iff _).mpr
        ⟨hc, raw, hraw, Option.isSome_iff_ne_none.mpr ha⟩)
  · intro hl
    refine ⟨fun hc hu => ?_, fun hn hok => ?_⟩
    · obtain ⟨addr, hlast, hof⟩ := hl.last hc hu
      have hsome : ∃ raw ∈ Text.lines sdp, (addressLine raw).isSome :=
        isSome_getLast?_filterMap.mp (Option.isSome_of_eq_some hlast)
      obtain ⟨offer, hparse⟩ := (parse_succeeds_iff L.toLowercase).mpr ⟨hc, hsome⟩
      have heq : offer.remote = addr :=
        Option.some.inj (((parse_ok_iff _).mp hparse).2.2.1.symm.trans hlast)
      rw [← heq] at hof
      have ha := answerer_eq h config nowMs hparse hof.isIpv4_eq
      exact ⟨offer, hparse, hof.isIpv4_eq, hof, ha, fun t ht => answerWith_remote (ha ▸ ht)⟩
    · obtain ⟨hc, raw, hraw, hsome⟩ := (parse_succeeds_iff _).mp hok
      rw [hl.none hc hn raw hraw] at hsome
      cases hsome

/-- An offer with one usable candidate and another one behind it. -/
def offerThen (candidate : String) : Text :=
  "a=ice-ufrag:peer\r\na=ice-pwd:secret\r\n".toList ++
    "a=candidate:1 1 udp 2122260223 192.0.2.2 4001 typ host\r\n".toList ++ candidate.toList

def tcpCandidate : String := "a=candidate:2 1 tcp 1518280447 192.0.2.2 9 typ host tcptype active\r\n"

def ipv6Candidate : String := "a=candidate:3 1 udp 2122262783 2001:db8::2 4001 typ host\r\n"

theorem answerer_tcpCandidate : (answerer Script.layers Script.host Script.config Script.localAddr
    (offerThen tcpCandidate) 0).isOk = true := by decide +kernel

/-- Behind a usable candidate a TCP one is taken for the remote address, and an IPv6 one
fails the constructor. -/
theorem last_candidate_wins :
    HasCredentials (offerThen tcpCandidate) ∧ HasCredentials (offerThen ipv6Candidate) ∧
    ((Text.lines (offerThen tcpCandidate)).filterMap (usableLine Script.localAddr)).map (·.port) =
      [4001] ∧
    (∃ t, answerer Script.layers Script.host Script.config Script.localAddr
      (offerThen tcpCandidate) 0 = .ok t ∧ t.remoteAddr.port = 9) ∧
    ((Text.lines (offerThen ipv6Candidate)).filterMap (usableLine Script.localAddr)).map (·.port) =
      [4001] ∧
    answerer Script.layers Script.host Script.config Script.localAddr (offerThen ipv6Candidate) 0 =
      .error familyError := by
  refine ⟨by decide +kernel, by decide +kernel, by decide +kernel,
    ⟨_, Base.eq_ok_okValue _ answerer_tcpCandidate, ?_⟩, by decide +kernel, by rfl⟩
  decide +kernel

end RtcTunnel.Direct.DirectTunnel
