import RtcTunnel.Abi.Checked
import RtcTunnel.Direct.Description
import RtcTunnel.Umbrella.Tunnel

/-!
# The relay that a browser is told of

The browser dials the relay from a description, as the `rtc` backend does; the direct backend dials
it from the parameters. A description says the same as the parameters if the tunnel's own reader
finds them in it.
-/

namespace RtcTunnel.Browser

open RtcTunnel.Core
open RtcTunnel.Core.Text (NoSpace Word)
open RtcTunnel.Abi (Accepted Js RelayConnectionParams Within checkedConfig socketAddr)
open RtcTunnel.Direct (Silent noSpace_toDigits noNewline_append noNewline_of_noSpace silent_of_trim
  trim_marked word_render word_toDigits)
open RtcTunnel.Umbrella.Tunnel (remoteAnswerSdp)

set_option autoImplicit false

/-- The lines of `remoteDescription`. -/
def remoteLines (js : Js) (params : RelayConnectionParams) : List Text :=
  let fingerprintAlgorithm := params.fingerprintAlgorithm.getD "sha-256".toList
  let sctpPort := params.sctpPort.getD (.ofInt 5000)
  let isIpv6 := params.address.contains ':'
  let family := if isIpv6 then "IP6" else "IP4"
  let unspecified := if isIpv6 then "::" else "0.0.0.0"
  ["v=0".toList,
    "o=- 0 0 IN ".toList ++ family.toList ++ " ".toList ++ unspecified.toList,
    "s=-".toList,
    "t=0 0".toList,
    "a=group:BUNDLE 0".toList,
    "m=application 9 UDP/DTLS/SCTP webrtc-datachannel".toList,
    "c=IN ".toList ++ family.toList ++ " ".toList ++ unspecified.toList,
    "a=mid:0".toList,
    "a=sctp-port:".toList ++ js.numberText sctpPort,
    "a=ice-ufrag:".toList ++ params.iceUfrag,
    "a=ice-pwd:".toList ++ params.icePwd,
    "a=setup:passive".toList,
    "a=fingerprint:".toList ++ fingerprintAlgorithm ++ " ".toList ++ params.fingerprint,
    "a=candidate:1 1 udp 2130706431 ".toList ++ params.address ++ " ".toList ++
      js.numberText params.port ++ " typ host".toList,
    "a=end-of-candidates".toList]

/-- The description of type `answer` that the browser is given. -/
def remoteDescription (js : Js) (params : RelayConnectionParams) : Text :=
  ['\r', '\n'].intercalate (remoteLines js params ++ [[]])

theorem lines_join {lines : List Text} (h : ∀ line ∈ lines, '\n' ∉ line) :
    Text.lines (['\r', '\n'].intercalate (lines ++ [[]])) = lines := by
  induction lines with
  | nil => rfl
  | cons line lines ih =>
    obtain ⟨hline, hlines⟩ := List.forall_mem_cons.mp h
    have hcons : ['\r', '\n'].intercalate ((line :: lines) ++ [[]]) =
        (line ++ ['\r', '\n']) ++ ['\r', '\n'].intercalate (lines ++ [[]]) := by
      cases lines with
      | nil => simp [List.intercalate]
      | cons next lines =>
        rw [List.cons_append, List.cons_append, List.intercalate_cons_cons]
    rw [hcons, Text.lines_append (Text.endsLine_line line), Text.lines_line hline, ih hlines]
    rfl

/-- The values of a description, in words. -/
structure Spoken (ufrag pwd fingerprint address port : Text) : Prop where
  ufrag : NoSpace ufrag
  pwd : NoSpace pwd
  fingerprint : Word fingerprint
  address : Word address
  port : Word port

variable {ufrag pwd fingerprint address port : Text} {toLowercase : Text → Text}

def candidateOf (address port : Text) : Text :=
  "a=candidate:1 1 udp 2130706431 ".toList ++ address ++ " ".toList ++ port ++ " typ host".toList

/-- Eight words behind a marker. -/
theorem intercalate_words (marker a b c d e f g h : Text) :
    marker ++ [' '].intercalate [a, b, c, d, e, f, g, h] =
      marker ++ (a ++ ([' '] ++ (b ++ ([' '] ++ (c ++ ([' '] ++ (d ++ [' ']))))))) ++ e ++ [' '] ++ f ++
        ([' '] ++ (g ++ ([' '] ++ h))) := by
  simp only [List.intercalate_cons_cons, List.intercalate_singleton, List.append_assoc]

theorem candidateOf_reads (ha : Word address) (hp : Word port) :
    '\n' ∉ candidateOf address port ∧ Text.trim (candidateOf address port) = candidateOf address port ∧
      addressLine (candidateOf address port) = parseCandidateAddr address port := by
  have hwords : ∀ word ∈ ["1".toList, "1".toList, "udp".toList, "2130706431".toList, address, port,
      "typ".toList, "host".toList], Word word := by
    simp only [List.forall_mem_cons]
    exact ⟨⟨by decide, by decide⟩, ⟨by decide, by decide⟩, ⟨by decide, by decide⟩,
      ⟨by decide, by decide⟩, ha, hp, ⟨by decide, by decide⟩, ⟨by decide, by decide⟩,
      fun _ h => by cases h⟩
  have htext : candidateOf address port = "a=candidate:".toList ++ [' '].intercalate
      ["1".toList, "1".toList, "udp".toList, "2130706431".toList, address, port, "typ".toList,
        "host".toList] := by
    have hfront : "a=candidate:1 1 udp 2130706431 ".toList = "a=candidate:".toList ++ ("1".toList ++
        ([' '] ++ ("1".toList ++ ([' '] ++ ("udp".toList ++ ([' '] ++ ("2130706431".toList ++
        [' ']))))))) := by decide +kernel
    have hback : " typ host".toList = [' '] ++ ("typ".toList ++ ([' '] ++ "host".toList)) := by
      decide +kernel
    exact (congrArg₂ (fun front back => front ++ address ++ " ".toList ++ port ++ back) hfront
      hback).trans (intercalate_words ..).symm
  have hne : [' '].intercalate ["1".toList, "1".toList, "udp".toList, "2130706431".toList, address,
      port, "typ".toList, "host".toList] ≠ [] := by
    rw [List.intercalate_cons_cons]
    exact List.append_ne_nil_of_left_ne_nil (List.append_ne_nil_of_left_ne_nil (by decide) _) _
  have htrim : Text.trim (candidateOf address port) = candidateOf address port := by
    have hhead : "a=candidate:".toList.head? = some 'a' := rfl
    have hmarker : "a=candidate:".toList ≠ [] := by decide
    rw [htext]
    refine Text.trim_eq_self (fun c hc => ?_) fun c hc => ?_
    · rw [List.head?_append_of_ne_nil _ hmarker, hhead] at hc
      cases hc
      rfl
    · refine Text.getLast?_intercalate (List.cons_ne_nil _ _) hwords c ?_
      rwa [List.getLast?_append_of_ne_nil _ hne] at hc
  refine ⟨?_, htrim, ?_⟩
  · refine noNewline_append (noNewline_append (noNewline_append (noNewline_append (by decide) ?_)
      (by decide)) ?_) (by decide)
    · exact noNewline_of_noSpace ha.noSpace
    · exact noNewline_of_noSpace hp.noSpace
  · rw [addressLine, htrim, htext, Text.stripPrefix_append, Option.bind_some, candidateLine,
      Text.splitWhitespace_intercalate hwords]
    exact if_pos ⟨rfl, rfl⟩

def fingerprintLineOf (fingerprint : Text) : Text :=
  "a=fingerprint:".toList ++ "sha-256".toList ++ " ".toList ++ fingerprint

theorem fingerprintLineOf_reads (toLowercase : Text → Text) (hf : Word fingerprint) :
    '\n' ∉ fingerprintLineOf fingerprint ∧
      Text.trim (fingerprintLineOf fingerprint) = fingerprintLineOf fingerprint ∧
      answerLine toLowercase (fingerprintLineOf fingerprint) = some (toLowercase fingerprint) := by
  have htrim : Text.trim (fingerprintLineOf fingerprint) = fingerprintLineOf fingerprint := by
    unfold fingerprintLineOf
    refine Text.trim_eq_self (fun c hc => by cases hc; rfl) fun c hc => ?_
    rw [List.getLast?_append_of_ne_nil _ hf.ne_nil] at hc
    exact hf.noSpace c (List.mem_of_getLast? hc)
  have hvalue : fingerprintValue toLowercase ("sha-256".toList ++ " ".toList ++ fingerprint) =
      some (toLowercase (Text.trim fingerprint)) := rfl
  rw [hf.noSpace.trim_eq] at hvalue
  refine ⟨noNewline_append (by decide) (noNewline_of_noSpace hf.noSpace), htrim, ?_⟩
  rw [answerLine, htrim]
  exact hvalue

/-- The lines of a description that the reader takes something from. -/
def valueLines (ufrag pwd fingerprint address port : Text) : List Text :=
  ["a=ice-ufrag:".toList ++ ufrag, "a=ice-pwd:".toList ++ pwd, fingerprintLineOf fingerprint,
    candidateOf address port]

theorem valueLines_read (toLowercase : Text → Text) (h : Spoken ufrag pwd fingerprint address port) :
    (valueLines ufrag pwd fingerprint address port).filterMap ufragLine = [ufrag] ∧
      (valueLines ufrag pwd fingerprint address port).filterMap pwdLine = [pwd] ∧
      (valueLines ufrag pwd fingerprint address port).filterMap addressLine =
        (parseCandidateAddr address port).toList ∧
      (valueLines ufrag pwd fingerprint address port).filterMap (answerLine toLowercase) =
        [toLowercase fingerprint] := by
  obtain ⟨_, hct, hca⟩ := candidateOf_reads h.address h.port
  obtain ⟨_, hft, hfa⟩ := fingerprintLineOf_reads toLowercase h.fingerprint
  have hut := trim_marked (by decide) (by decide : NoSpace "a=ice-ufrag:".toList) h.ufrag
  have hpt := trim_marked (by decide) (by decide : NoSpace "a=ice-pwd:".toList) h.pwd
  refine ⟨?_, ?_, ?_, ?_⟩
  · have hu : ufragLine ("a=ice-ufrag:".toList ++ ufrag) = some ufrag := by
      rw [ufragLine, hut, Text.stripPrefix_append, Option.map_some, h.ufrag.trim_eq]
    have hp : ufragLine ("a=ice-pwd:".toList ++ pwd) = none := by
      rw [ufragLine, hpt]
      rfl
    have hf : ufragLine (fingerprintLineOf fingerprint) = none := by
      rw [ufragLine, hft]
      rfl
    have hc : ufragLine (candidateOf address port) = none := by
      rw [ufragLine, hct]
      rfl
    simp only [valueLines, List.filterMap_cons, List.filterMap_nil, hu, hp, hf, hc]
  · have hu : pwdLine ("a=ice-ufrag:".toList ++ ufrag) = none := by
      rw [pwdLine, hut]
      rfl
    have hp : pwdLine ("a=ice-pwd:".toList ++ pwd) = some pwd := by
      rw [pwdLine, hpt, Text.stripPrefix_append, Option.map_some, h.pwd.trim_eq]
    have hf : pwdLine (fingerprintLineOf fingerprint) = none := by
      rw [pwdLine, hft]
      rfl
    have hc : pwdLine (candidateOf address port) = none := by
      rw [pwdLine, hct]
      rfl
    simp only [valueLines, List.filterMap_cons, List.filterMap_nil, hu, hp, hf, hc]
  · have hu : addressLine ("a=ice-ufrag:".toList ++ ufrag) = none := by
      rw [addressLine, hut]
      rfl
    have hp : addressLine ("a=ice-pwd:".toList ++ pwd) = none := by
      rw [addressLine, hpt]
      rfl
    have hf : addressLine (fingerprintLineOf fingerprint) = none := by
      rw [addressLine, hft]
      rfl
    simp only [valueLines, List.filterMap_cons, List.filterMap_nil, hu, hp, hf, hca]
    cases parseCandidateAddr address port <;> rfl
  · have hu : answerLine toLowercase ("a=ice-ufrag:".toList ++ ufrag) = none := by
      rw [answerLine, hut]
      rfl
    have hp : answerLine toLowercase ("a=ice-pwd:".toList ++ pwd) = none := by
      rw [answerLine, hpt]
      rfl
    have hc : answerLine toLowercase (candidateOf address port) = none := by
      rw [answerLine, hct]
      rfl
    simp only [valueLines, List.filterMap_cons, List.filterMap_nil, hu, hp, hfa, hc]

/-- A description whose other lines say nothing is read as its values. -/
theorem parse_of_lines {sdp : Text} {before between after : List Text} {remote : SocketAddr}
    (h : Spoken ufrag pwd fingerprint address port)
    (hremote : parseCandidateAddr address port = some remote)
    (hlines : Text.lines sdp = before ++ ["a=ice-ufrag:".toList ++ ufrag, "a=ice-pwd:".toList ++ pwd] ++
      between ++ [fingerprintLineOf fingerprint, candidateOf address port] ++ after)
    (hbefore : ∀ line ∈ before, Silent toLowercase line)
    (hbetween : ∀ line ∈ between, Silent toLowercase line)
    (hafter : ∀ line ∈ after, Silent toLowercase line) :
    ParsedOffer.parse toLowercase sdp = .ok ⟨ufrag, pwd, remote, toLowercase fingerprint⟩ := by
  have hread : ∀ {α : Type} {f : Text → Option α}, (∀ line, Silent toLowercase line → f line = none) →
      (Text.lines sdp).filterMap f =
        (valueLines ufrag pwd fingerprint address port).filterMap f := by
    intro α f hf
    have hnone : ∀ {lines : List Text}, (∀ line ∈ lines, Silent toLowercase line) →
        lines.filterMap f = [] := fun hl =>
      List.filterMap_eq_nil_iff.mpr fun line hm => hf line (hl line hm)
    rw [hlines, List.filterMap_append, List.filterMap_append, List.filterMap_append,
      List.filterMap_append, hnone hbefore, hnone hbetween, hnone hafter, List.nil_append,
      List.append_nil, List.append_nil, ← List.filterMap_append]
    rfl
  obtain ⟨hu, hp, hc, hf⟩ := valueLines_read toLowercase h
  refine (parse_ok_iff toLowercase).mpr ⟨?_, ?_, ?_, ?_⟩
  · rw [hread fun _ hs => hs.ufrag, hu]
    rfl
  · rw [hread fun _ hs => hs.pwd, hp]
    rfl
  · rw [hread fun _ hs => hs.address, hc, hremote]
    rfl
  · rw [hread fun _ hs => hs.answer, hf]
    rfl

/-- Lines in five parts, none of which breaks off. -/
theorem noNewline_parts {before between after : List Text}
    (h : Spoken ufrag pwd fingerprint address port)
    (hbefore : ∀ line ∈ before, Silent toLowercase line)
    (hbetween : ∀ line ∈ between, Silent toLowercase line)
    (hafter : ∀ line ∈ after, Silent toLowercase line) :
    ∀ line ∈ before ++ ["a=ice-ufrag:".toList ++ ufrag, "a=ice-pwd:".toList ++ pwd] ++ between ++
      [fingerprintLineOf fingerprint, candidateOf address port] ++ after, '\n' ∉ line := by
  intro line hl
  simp only [List.mem_append, List.mem_cons, List.not_mem_nil, or_false] at hl
  rcases hl with (((hl | rfl | rfl) | hl) | rfl | rfl) | hl
  · exact (hbefore line hl).noNewline
  · exact noNewline_append (by decide) (noNewline_of_noSpace h.ufrag)
  · exact noNewline_append (by decide) (noNewline_of_noSpace h.pwd)
  · exact (hbetween line hl).noNewline
  · exact (fingerprintLineOf_reads toLowercase h.fingerprint).1
  · exact (candidateOf_reads h.address h.port).1
  · exact (hafter line hl).noNewline

theorem silent_port (toLowercase : Text → Text) {value : Text} (hv : NoSpace value) :
    Silent toLowercase ("a=sctp-port:".toList ++ value) :=
  silent_of_trim (noNewline_append (by decide) (noNewline_of_noSpace hv))
    (trim_marked (by decide) (by decide) hv) rfl rfl rfl rfl

theorem silent_setup (toLowercase : Text → Text) :
    ∀ line ∈ ["a=setup:passive".toList], Silent toLowercase line :=
  List.forall_mem_singleton.mpr (silent_of_trim (by decide) (by decide) rfl rfl rfl rfl)

theorem silent_end (toLowercase : Text → Text) :
    ∀ line ∈ ["a=end-of-candidates".toList], Silent toLowercase line :=
  List.forall_mem_singleton.mpr (silent_of_trim (by decide) (by decide) rfl rfl rfl rfl)

variable {js : Js} {params : RelayConnectionParams}

/-- The lines of `remoteDescription` up to the credentials. -/
def headLines (family unspecified sctpPort : Text) : List Text :=
  ["v=0".toList,
    "o=- 0 0 IN ".toList ++ family ++ " ".toList ++ unspecified,
    "s=-".toList,
    "t=0 0".toList,
    "a=group:BUNDLE 0".toList,
    "m=application 9 UDP/DTLS/SCTP webrtc-datachannel".toList,
    "c=IN ".toList ++ family ++ " ".toList ++ unspecified,
    "a=mid:0".toList,
    "a=sctp-port:".toList ++ sctpPort]

/-- Those of `remote_answer_sdp`. -/
def answerHeadLines (family unspecified sctpPort : Text) : List Text :=
  ["v=0".toList,
    "o=- 0 0 IN ".toList ++ family ++ " ".toList ++ unspecified,
    "s=-".toList,
    "t=0 0".toList,
    "a=group:BUNDLE 0".toList,
    "a=msid-semantic: WMS".toList,
    "m=application 9 UDP/DTLS/SCTP webrtc-datachannel".toList,
    "c=IN ".toList ++ family ++ " ".toList ++ unspecified,
    "a=mid:0".toList,
    "a=sctp-port:".toList ++ sctpPort,
    "a=max-message-size:262144".toList]

def familyOf (isIpv6 : Bool) : Text × Text :=
  if isIpv6 then ("IP6".toList, "::".toList) else ("IP4".toList, "0.0.0.0".toList)

theorem silent_headLines (toLowercase : Text → Text) (isIpv6 : Bool) {sctpPort : Text}
    (hport : NoSpace sctpPort) : ∀ line ∈ headLines (familyOf isIpv6).1 (familyOf isIpv6).2 sctpPort,
      Silent toLowercase line := by
  have hp := silent_port toLowercase hport
  cases isIpv6
  all_goals
    simp only [headLines, List.forall_mem_cons]
    refine ⟨?_, ?_, ?_, ?_, ?_, ?_, ?_, ?_, hp, fun _ h => by cases h⟩
    all_goals exact silent_of_trim (by decide) (by decide) rfl rfl rfl rfl

theorem silent_answerHeadLines (toLowercase : Text → Text) (isIpv6 : Bool) {sctpPort : Text}
    (hport : NoSpace sctpPort) :
    ∀ line ∈ answerHeadLines (familyOf isIpv6).1 (familyOf isIpv6).2 sctpPort,
      Silent toLowercase line := by
  have hp := silent_port toLowercase hport
  cases isIpv6
  all_goals
    simp only [answerHeadLines, List.forall_mem_cons]
    refine ⟨?_, ?_, ?_, ?_, ?_, ?_, ?_, ?_, ?_, hp, ?_, fun _ h => by cases h⟩
    all_goals exact silent_of_trim (by decide) (by decide) rfl rfl rfl rfl

theorem remoteLines_eq
    (ha : params.fingerprintAlgorithm.getD "sha-256".toList = "sha-256".toList) :
    remoteLines js params =
      headLines (familyOf (params.address.contains ':')).1 (familyOf (params.address.contains ':')).2
        (js.numberText (params.sctpPort.getD (.ofInt 5000))) ++
      ["a=ice-ufrag:".toList ++ params.iceUfrag, "a=ice-pwd:".toList ++ params.icePwd] ++
      ["a=setup:passive".toList] ++
      [fingerprintLineOf params.fingerprint, candidateOf params.address (js.numberText params.port)] ++
      ["a=end-of-candidates".toList] := by
  unfold remoteLines
  rw [ha]
  cases params.address.contains ':' <;> rfl

/-- The lines of `remote_answer_sdp`. -/
def answerLines (config : TunnelConfig) : List Text :=
  answerHeadLines (familyOf (!config.remote.isIpv4)).1 (familyOf (!config.remote.isIpv4)).2
      (Nat.toDigits 10 config.sctpPort.toNat) ++
    ["a=ice-ufrag:".toList ++ config.iceUfrag, "a=ice-pwd:".toList ++ config.icePwd] ++
    ["a=setup:passive".toList] ++
    [fingerprintLineOf config.remoteFingerprint,
      candidateOf config.remote.ip.render (Nat.toDigits 10 config.remote.port.toNat)] ++
    ["a=end-of-candidates".toList]

theorem lines_remoteAnswerSdp (config : TunnelConfig)
    (ha : config.fingerprintAlgorithm = "sha-256".toList)
    (h : ∀ line ∈ answerLines config, '\n' ∉ line) :
    Text.lines (remoteAnswerSdp config) = answerLines config := by
  have hlines := Text.lines_foldl h
  unfold remoteAnswerSdp
  rw [ha]
  revert hlines
  unfold answerLines
  cases config.remote.isIpv4 <;> exact id

theorem numberText_within {low high : Nat} {x : F64} (h : Within low high x) (hh : high ≤ 65535) :
    Word (js.numberText x) := by
  obtain ⟨n, _, hn, rfl⟩ := h
  rw [js.numberText_ofInt n (by omega)]
  exact word_toDigits (by decide) (by decide) n

/-- **Every backend is told of the same relay.** The description that a browser is given of a relay
and the one that the `rtc` backend makes of the configuration for it are both read, by the tunnel's
own reader, as the credentials, the fingerprint and the address that the direct backend dials. The
scope of an address is in the first only. -/
theorem descriptions_agree (toLowercase : Text → Text) (call : Abi.OpenCall) {remote : SocketAddr}
    (ha : Accepted js params) (hufrag : NoSpace params.iceUfrag) (hpwd : NoSpace params.icePwd)
    (hfingerprint : Word params.fingerprint) (haddress : Word params.address)
    (hremote : SocketAddr.parse (socketAddr js params.address params.port) = some remote) :
    ParsedOffer.parse toLowercase (remoteDescription js params) =
        .ok ⟨params.iceUfrag, params.icePwd, remote, toLowercase params.fingerprint⟩ ∧
      ParsedOffer.parse toLowercase (remoteAnswerSdp (checkedConfig call params remote)) =
        .ok ⟨params.iceUfrag, params.icePwd, ⟨remote.ip, remote.port, 0⟩,
          toLowercase params.fingerprint⟩ := by
  have hsctp : Word (js.numberText (params.sctpPort.getD (.ofInt 5000))) := by
    cases hs : params.sctpPort with
    | none =>
      exact numberText_within ⟨5000, Nat.zero_le _, Nat.le_refl _, rfl⟩ (by decide : 5000 ≤ 65535)
    | some x => exact numberText_within (ha.sctpPort x hs) (Nat.le_refl 65535)
  have hsetup := silent_setup toLowercase
  have hend := silent_end toLowercase
  constructor
  · have halgorithm : params.fingerprintAlgorithm.getD "sha-256".toList = "sha-256".toList := by
      cases hf : params.fingerprintAlgorithm with
      | none => rfl
      | some a => exact ha.fingerprintAlgorithm a hf
    have hspoken : Spoken params.iceUfrag params.icePwd params.fingerprint params.address
        (js.numberText params.port) :=
      ⟨hufrag, hpwd, hfingerprint, haddress, numberText_within ha.port (Nat.le_refl 65535)⟩
    have hhead := silent_headLines toLowercase (params.address.contains ':') hsctp.noSpace
    have hlines := noNewline_parts hspoken hhead hsetup hend
    rw [← remoteLines_eq halgorithm] at hlines
    refine parse_of_lines hspoken ?_ ((lines_join hlines).trans (remoteLines_eq halgorithm)) hhead
      hsetup hend
    rw [← hremote, parseCandidateAddr, socketAddr]
  · have hspoken : Spoken params.iceUfrag params.icePwd params.fingerprint remote.ip.render
        (Nat.toDigits 10 remote.port.toNat) :=
      ⟨hufrag, hpwd, hfingerprint, word_render _, word_toDigits (by decide) (by decide) _⟩
    have hhead := silent_answerHeadLines toLowercase
      (!(checkedConfig call params remote).remote.isIpv4) (noSpace_toDigits (by decide : 1 < 10)
        (by decide) (checkedConfig call params remote).sctpPort.toNat)
    have hlines := noNewline_parts hspoken hhead hsetup hend
    exact parse_of_lines hspoken (parseCandidateAddr_render _ _)
      (lines_remoteAnswerSdp (checkedConfig call params remote) rfl hlines) hhead hsetup hend

/-- The relay at `192.0.2.2:4001`. -/
theorem descriptions_agree_relay :
    ParsedOffer.parse id (remoteDescription Abi.Relay.js (Abi.Relay.params 5000)) =
      ParsedOffer.parse id (remoteAnswerSdp (checkedConfig Abi.Relay.call (Abi.Relay.params 5000)
        ⟨Abi.Relay.ip, 4001, 0⟩)) := by
  have ha : Accepted Abi.Relay.js (Abi.Relay.params 5000) :=
    Abi.validateRelayParams_eq_ok.mp (by decide +kernel)
  obtain ⟨hbrowser, hrtc⟩ := descriptions_agree id Abi.Relay.call ha (by decide) (by decide)
    ⟨by decide, by decide⟩ ⟨by decide, by decide⟩ (by decide +kernel : SocketAddr.parse _ =
      some ⟨Abi.Relay.ip, 4001, 0⟩)
  exact hbrowser.trans hrtc.symm

end RtcTunnel.Browser
