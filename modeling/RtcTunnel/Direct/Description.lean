import RtcTunnel.Core.Address
import RtcTunnel.Core.Lines
import RtcTunnel.Direct.Script

/-!
# What a tunnel says of itself is what a peer reads

`render_sdp` writes a text line by line, the readers of the peer take it apart again. A
credential without white space survives the trimming, and the address of the candidate line
survives the split, the brackets and the parser of the standard library.
-/

namespace RtcTunnel.Direct

open RtcTunnel.Core
open RtcTunnel.Core.Text (NoSpace Word)
open RtcTunnel.Base (bind_ok)

set_option autoImplicit false

theorem noSpace_toDigits {radix : Nat} (hr : 1 < radix) (h16 : radix ≤ 16) (n : Nat) :
    NoSpace (Nat.toDigits radix n) := by
  obtain ⟨ds, hds, hlt, _⟩ := Net.toDigits_eq_map hr n
  have hall : ∀ d < 16, isWhitespace (Nat.digitChar d) = false := by decide
  intro c hc
  rw [hds] at hc
  obtain ⟨d, hd, rfl⟩ := List.mem_map.mp hc
  have := hlt d hd
  exact hall d (by omega)

theorem word_toDigits {radix : Nat} (hr : 1 < radix) (h16 : radix ≤ 16) (n : Nat) :
    Word (Nat.toDigits radix n) := ⟨Nat.toDigits_ne_nil, noSpace_toDigits hr h16 n⟩

theorem noSpace_append {s s' : Text} (h : NoSpace s) (h' : NoSpace s') : NoSpace (s ++ s') :=
  fun c hc => (List.mem_append.mp hc).elim (h c) (h' c)

theorem noSpace_intercalate {sep : Char} (hs : isWhitespace sep = false) {words : List Text}
    (h : ∀ word ∈ words, NoSpace word) : NoSpace ([sep].intercalate words) := by
  intro c hc
  rcases Text.mem_intercalate hc with rfl | ⟨word, hword, hc⟩
  · exact hs
  · exact h word hword c hc

theorem noSpace_render_v4 (a : Ipv4Addr) : NoSpace a.render :=
  noSpace_intercalate (by decide) fun word hw => by
    obtain ⟨o, _, rfl⟩ := List.mem_map.mp hw
    exact noSpace_toDigits (by decide) (by decide) _

theorem noSpace_renderSegments (segments : List UInt16) : NoSpace (Net.renderSegments segments) :=
  noSpace_intercalate (by decide) fun word hw => by
    obtain ⟨g, _, rfl⟩ := List.mem_map.mp hw
    exact noSpace_toDigits (by decide) (by decide) _

theorem noSpace_render_v6 (a : Ipv6Addr) : NoSpace a.render := by
  unfold Ipv6Addr.render
  split
  · exact noSpace_append (by decide) (noSpace_render_v4 _)
  · dsimp only
    split
    · exact noSpace_append (noSpace_append (noSpace_renderSegments _) (by decide))
        (noSpace_renderSegments _)
    · exact noSpace_renderSegments _

theorem word_render (ip : IpAddr) : Word ip.render := by
  cases ip with
  | v4 a =>
    refine ⟨fun h => ?_, noSpace_render_v4 a⟩
    have hread := Net.readIpv4Addr_render a (Net.noDigit_nil 10)
    rw [show a.render = [] from h] at hread
    cases hread
  | v6 a => exact ⟨List.ne_nil_of_mem (colon_mem_render_v6 a), noSpace_render_v6 a⟩

section Readers

variable {toLowercase : Text → Text}

/-- A line no reader takes anything from. -/
structure Silent (toLowercase : Text → Text) (line : Text) : Prop where
  noNewline : '\n' ∉ line
  ufrag : ufragLine line = none
  pwd : pwdLine line = none
  address : addressLine line = none
  answer : answerLine toLowercase line = none

theorem silent_of_trim {line : Text} (hn : '\n' ∉ line) (ht : Text.trim line = line)
    (hu : Text.stripPrefix line "a=ice-ufrag:".toList = none)
    (hp : Text.stripPrefix line "a=ice-pwd:".toList = none)
    (hc : Text.stripPrefix line "a=candidate:".toList = none)
    (hf : Text.stripPrefix line "a=fingerprint:".toList = none) : Silent toLowercase line where
  noNewline := hn
  ufrag := by rw [ufragLine, ht, hu]; rfl
  pwd := by rw [pwdLine, ht, hp]; rfl
  address := by rw [addressLine, ht, hc]; rfl
  answer := by rw [answerLine, ht, hf]; rfl

theorem noNewline_of_noSpace {s : Text} (h : NoSpace s) : '\n' ∉ s := fun hm =>
  absurd (h '\n' hm) (by decide)

theorem noNewline_append {s s' : Text} (h : '\n' ∉ s) (h' : '\n' ∉ s') : '\n' ∉ s ++ s' :=
  fun hm => (List.mem_append.mp hm).elim h h'

/-- A marker and a value without white space. -/
theorem trim_marked {marker value : Text} (hne : marker ≠ []) (hm : NoSpace marker)
    (hv : NoSpace value) : Text.trim (marker ++ value) = marker ++ value :=
  Text.trim_append hne (fun c hc => hm c (List.mem_of_mem_head? hc))
    (fun c hc => hm c (List.mem_of_getLast? hc)) hv

end Readers

/-- The words of a host candidate's line. -/
def hostWords (foundation priority : Text) (ip : IpAddr) (port : UInt16) (extra : List Text) :
    List Text :=
  [foundation, "1".toList, "udp".toList, priority, ip.render, Nat.toDigits 10 port.toNat,
    "typ".toList, "host".toList] ++ extra

/-- What is assumed of rtc-ice: a host candidate is written as its foundation, component 1,
UDP, its priority, its address and its type, and maybe further fields. -/
def WritesHosts (ice : IceApi) : Prop :=
  ∀ ip port c, ice.newCandidateHost ⟨ip, port⟩ = .ok c → ∃ foundation priority extra,
    Word foundation ∧ Word priority ∧ (∀ word ∈ extra, Word word) ∧
      ice.marshal c = [' '].intercalate (hostWords foundation priority ip port extra)

theorem word_hostWords {foundation priority : Text} {extra : List Text} (ip : IpAddr)
    (port : UInt16) (hf : Word foundation) (hp : Word priority)
    (he : ∀ word ∈ extra, Word word) : ∀ word ∈ hostWords foundation priority ip port extra,
      Word word := by
  intro word hw
  rcases List.mem_append.mp hw with hw | hw
  · have hlit : ∀ s ∈ ["1".toList, "udp".toList, "typ".toList, "host".toList], Word s := by
      simp only [List.forall_mem_cons]
      exact ⟨⟨by decide, by decide⟩, ⟨by decide, by decide⟩, ⟨by decide, by decide⟩,
        ⟨by decide, by decide⟩, fun _ h => by cases h⟩
    simp only [List.mem_cons, List.not_mem_nil, or_false] at hw
    rcases hw with rfl | rfl | rfl | rfl | rfl | rfl | rfl | rfl
    · exact hf
    · exact hlit _ (by simp)
    · exact hlit _ (by simp)
    · exact hp
    · exact word_render ip
    · exact word_toDigits (by decide) (by decide) _
    · exact hlit _ (by simp)
    · exact hlit _ (by simp)
  · exact he word hw

/-- What is assumed of rtc-ice: an agent lists the local candidates that were added to it. -/
structure ListsAdded (ice : IceApi) : Prop where
  new : ∀ {now config a}, ice.new now config = .ok a → ice.localCandidates a = []
  add : ∀ a c, (ice.addLocalCandidate a c).2 = .ok () →
    ice.localCandidates (ice.addLocalCandidate a c).1 = ice.localCandidates a ++ [c]
  addRemote : ∀ a c, ice.localCandidates (ice.addRemoteCandidate a c).1 = ice.localCandidates a
  credentials : ∀ a ufrag pwd,
    ice.localCandidates (ice.setRemoteCredentials a ufrag pwd).1 = ice.localCandidates a
  checks : ∀ a now controlling ufrag pwd,
    ice.localCandidates (ice.startConnectivityChecks a now controlling ufrag pwd).1 =
      ice.localCandidates a

namespace DirectTunnel

variable {L : Layers}

def candidateText (t : DirectTunnel L) : Text :=
  ((L.ice.localCandidates t.ice).head?.map L.ice.marshal).getD []

/-- The lines in front of the fingerprint. -/
def sessionLines (t : DirectTunnel L) : List Text :=
  let family := if t.localAddr.isIpv4 then "IP4" else "IP6"
  let unspecified := if t.localAddr.isIpv4 then "0.0.0.0" else "::"
  ["v=0".toList,
    "o=- 0 0 IN ".toList ++ family.toList ++ " ".toList ++ unspecified.toList,
    "s=-".toList, "t=0 0".toList]

/-- The lines between the fingerprint and the credentials. -/
def mediaLines (t : DirectTunnel L) (setup : Text) : List Text :=
  let family := if t.localAddr.isIpv4 then "IP4" else "IP6"
  let unspecified := if t.localAddr.isIpv4 then "0.0.0.0" else "::"
  ["a=group:BUNDLE 0".toList,
    "m=application 9 UDP/DTLS/SCTP webrtc-datachannel".toList,
    "c=IN ".toList ++ family.toList ++ " ".toList ++ unspecified.toList,
    "a=setup:".toList ++ setup, "a=mid:0".toList,
    "a=sctp-port:".toList ++ Nat.toDigits 10 t.sctpPort.toNat,
    "a=max-message-size:".toList ++ Nat.toDigits 10 maxMessageSize]

def sdpLines (t : DirectTunnel L) (setup : Text) : List Text :=
  t.sessionLines ++
    ("a=fingerprint:".toList ++ t.fingerprintAlgorithm ++ " ".toList ++ t.localFingerprint) ::
    (t.mediaLines setup ++
      ["a=ice-ufrag:".toList ++ (L.ice.localCredentials t.ice).ufrag,
        "a=ice-pwd:".toList ++ (L.ice.localCredentials t.ice).pwd,
        "a=candidate:".toList ++ t.candidateText])

theorem lines_renderSdp (t : DirectTunnel L) (setup : Text)
    (h : ∀ line ∈ t.sdpLines setup, '\n' ∉ line) :
    Text.lines (t.renderSdp setup) = t.sdpLines setup := by
  have hlines := Text.lines_foldl h
  exact hlines

section Reading

variable {toLowercase : Text → Text}

theorem silent_sessionLines (toLowercase : Text → Text) (t : DirectTunnel L) :
    ∀ line ∈ t.sessionLines, Silent toLowercase line := by
  unfold sessionLines
  cases t.localAddr.isIpv4
  all_goals
    simp only [List.forall_mem_cons]
    refine ⟨?_, ?_, ?_, ?_, fun _ h => by cases h⟩
    all_goals exact silent_of_trim (by decide) (by decide) rfl rfl rfl rfl

theorem silent_mediaLines (toLowercase : Text → Text) (t : DirectTunnel L) {setup : Text}
    (hs : NoSpace setup) : ∀ line ∈ t.mediaLines setup, Silent toLowercase line := by
  have hmarked : ∀ {marker value : Text}, marker ≠ [] → NoSpace marker → NoSpace value →
      '\n' ∉ marker ++ value ∧ Text.trim (marker ++ value) = marker ++ value :=
    fun hne hm hv => ⟨noNewline_of_noSpace (noSpace_append hm hv), trim_marked hne hm hv⟩
  have hport : ∀ n : Nat, NoSpace (Nat.toDigits 10 n) := noSpace_toDigits (by decide) (by decide)
  obtain ⟨hsn, hst⟩ := hmarked (by decide : "a=setup:".toList ≠ []) (by decide) hs
  obtain ⟨hpn, hpt⟩ := hmarked (by decide : "a=sctp-port:".toList ≠ []) (by decide)
    (hport t.sctpPort.toNat)
  obtain ⟨hmn, hmt⟩ := hmarked (by decide : "a=max-message-size:".toList ≠ []) (by decide)
    (hport maxMessageSize)
  unfold mediaLines
  cases t.localAddr.isIpv4
  all_goals
    simp only [List.forall_mem_cons]
    refine ⟨silent_of_trim (by decide) (by decide) rfl rfl rfl rfl,
      silent_of_trim (by decide) (by decide) rfl rfl rfl rfl,
      silent_of_trim (by decide) (by decide) rfl rfl rfl rfl,
      silent_of_trim hsn hst rfl rfl rfl rfl,
      silent_of_trim (by decide) (by decide) rfl rfl rfl rfl,
      silent_of_trim hpn hpt rfl rfl rfl rfl,
      silent_of_trim hmn hmt rfl rfl rfl rfl, fun _ h => by cases h⟩

/-- The agent lists the host candidate of the local address first. -/
def ListsHost (t : DirectTunnel L) : Prop :=
  ∃ c, L.ice.newCandidateHost ⟨t.localAddr.ip, t.localAddr.port⟩ = .ok c ∧
    (L.ice.localCandidates t.ice).head? = some c

/-- **The candidate line of a tunnel is read as its own address.** -/
theorem candidateText_reads {t : DirectTunnel L} (hw : WritesHosts L.ice) (hl : t.ListsHost) :
    '\n' ∉ "a=candidate:".toList ++ t.candidateText ∧
    Text.trim ("a=candidate:".toList ++ t.candidateText) =
      "a=candidate:".toList ++ t.candidateText ∧
    candidateLine t.candidateText = some ⟨t.localAddr.ip, t.localAddr.port, 0⟩ := by
  obtain ⟨c, hc, hhead⟩ := hl
  obtain ⟨foundation, priority, extra, hf, hp, he, hm⟩ := hw _ _ c hc
  have hwords := word_hostWords t.localAddr.ip t.localAddr.port hf hp he
  have htext : t.candidateText = [' '].intercalate
      (hostWords foundation priority t.localAddr.ip t.localAddr.port extra) := by
    rw [candidateText, hhead]
    exact hm
  rw [htext]
  refine ⟨noNewline_append (by decide) fun hn => ?_, ?_, ?_⟩
  · rcases Text.mem_intercalate hn with hn | ⟨word, hword, hn⟩
    · cases hn
    · exact noNewline_of_noSpace (hwords word hword).noSpace hn
  · refine Text.trim_eq_self (fun d hd => by cases hd; rfl) fun d hd => ?_
    have hlast := Text.getLast?_intercalate (List.cons_ne_nil _ _) hwords
    rw [List.getLast?_append] at hd
    cases hg : ([' '].intercalate
        (hostWords foundation priority t.localAddr.ip t.localAddr.port extra)).getLast? with
    | none =>
      rw [hg] at hd
      cases hd
      rfl
    | some e =>
      rw [hg] at hd
      cases hd
      exact hlast d hg
  · rw [candidateLine, Text.splitWhitespace_intercalate hwords]
    exact (if_pos ⟨rfl, rfl⟩).trans (parseCandidateAddr_render _ _)

/-- What the readers take from the line of the fingerprint. -/
theorem fingerprintLine_reads {fingerprint : Text} (hf : NoSpace fingerprint)
    (hlow : toLowercase fingerprint = fingerprint) {line : Text}
    (hline : line = "a=fingerprint:".toList ++ "sha-256".toList ++ " ".toList ++ fingerprint) :
    ufragLine line = none ∧ pwdLine line = none ∧ addressLine line = none ∧
      answerLine toLowercase line = if fingerprint = [] then none else some fingerprint := by
  by_cases hne : fingerprint = []
  · subst hne hline
    exact ⟨rfl, rfl, rfl, rfl⟩
  · rw [if_neg hne]
    have htrim : Text.trim line = line := by
      rw [hline]
      refine Text.trim_eq_self (fun d hd => by cases hd; rfl) fun d hd => ?_
      rw [List.getLast?_append_of_ne_nil _ hne] at hd
      exact hf d (List.mem_of_getLast? hd)
    have hvalue : fingerprintValue toLowercase ("sha-256".toList ++ " ".toList ++ fingerprint) =
        some (toLowercase (Text.trim fingerprint)) := rfl
    rw [hf.trim_eq, hlow] at hvalue
    rw [ufragLine, pwdLine, addressLine, answerLine, htrim, hline]
    exact ⟨rfl, rfl, rfl, hvalue⟩

/-- The lines that carry a value, in the order they are written. -/
def valueLines (t : DirectTunnel L) : List Text :=
  ["a=fingerprint:".toList ++ "sha-256".toList ++ " ".toList ++ t.localFingerprint,
    "a=ice-ufrag:".toList ++ (L.ice.localCredentials t.ice).ufrag,
    "a=ice-pwd:".toList ++ (L.ice.localCredentials t.ice).pwd,
    "a=candidate:".toList ++ t.candidateText]

theorem filterMap_sdpLines {α : Type} (toLowercase : Text → Text) {f : Text → Option α}
    (hf : ∀ line, Silent toLowercase line → f line = none) (t : DirectTunnel L) {setup : Text}
    (ha : t.fingerprintAlgorithm = "sha-256".toList) (hs : NoSpace setup) :
    (t.sdpLines setup).filterMap f = t.valueLines.filterMap f := by
  have hsession : t.sessionLines.filterMap f = [] := List.filterMap_eq_nil_iff.mpr fun line hl =>
    hf line (silent_sessionLines toLowercase t line hl)
  have hmedia : (t.mediaLines setup).filterMap f = [] :=
    List.filterMap_eq_nil_iff.mpr fun line hl => hf line (silent_mediaLines toLowercase t hs line hl)
  rw [sdpLines, ha, List.filterMap_append, hsession, List.nil_append, ← List.singleton_append,
    List.filterMap_append, List.filterMap_append, hmedia, List.nil_append, ← List.filterMap_append]
  rfl

/-- Whether the text of a tunnel can be read back. -/
structure Readable (t : DirectTunnel L) : Prop where
  algorithm : t.fingerprintAlgorithm = "sha-256".toList
  ufrag : NoSpace (L.ice.localCredentials t.ice).ufrag
  pwd : NoSpace (L.ice.localCredentials t.ice).pwd
  fingerprint : NoSpace t.localFingerprint
  lowercase : L.toLowercase t.localFingerprint = t.localFingerprint
  listsHost : t.ListsHost

theorem filterMap_valueLines {t : DirectTunnel L} (hw : WritesHosts L.ice) (h : t.Readable) :
    t.valueLines.filterMap ufragLine = [(L.ice.localCredentials t.ice).ufrag] ∧
    t.valueLines.filterMap pwdLine = [(L.ice.localCredentials t.ice).pwd] ∧
    t.valueLines.filterMap addressLine = [⟨t.localAddr.ip, t.localAddr.port, 0⟩] ∧
    t.valueLines.filterMap (answerLine L.toLowercase) =
      (if t.localFingerprint = [] then none else some t.localFingerprint).toList := by
  obtain ⟨_, hct, hcv⟩ := candidateText_reads hw h.listsHost
  have hut := trim_marked (by decide) (by decide : NoSpace "a=ice-ufrag:".toList) h.ufrag
  have hpt := trim_marked (by decide) (by decide : NoSpace "a=ice-pwd:".toList) h.pwd
  obtain ⟨hfu, hfp, hfc, hfa⟩ := fingerprintLine_reads h.fingerprint h.lowercase rfl
  refine ⟨?_, ?_, ?_, ?_⟩
  · have hu : ufragLine ("a=ice-ufrag:".toList ++ (L.ice.localCredentials t.ice).ufrag) =
        some (L.ice.localCredentials t.ice).ufrag := by
      rw [ufragLine, hut, Text.stripPrefix_append, Option.map_some, h.ufrag.trim_eq]
    have hp : ufragLine ("a=ice-pwd:".toList ++ (L.ice.localCredentials t.ice).pwd) = none := by
      rw [ufragLine, hpt]
      rfl
    have hc : ufragLine ("a=candidate:".toList ++ t.candidateText) = none := by
      rw [ufragLine, hct]
      rfl
    simp only [valueLines, List.filterMap_cons, List.filterMap_nil, hfu, hu, hp, hc]
  · have hu : pwdLine ("a=ice-ufrag:".toList ++ (L.ice.localCredentials t.ice).ufrag) = none := by
      rw [pwdLine, hut]
      rfl
    have hp : pwdLine ("a=ice-pwd:".toList ++ (L.ice.localCredentials t.ice).pwd) =
        some (L.ice.localCredentials t.ice).pwd := by
      rw [pwdLine, hpt, Text.stripPrefix_append, Option.map_some, h.pwd.trim_eq]
    have hc : pwdLine ("a=candidate:".toList ++ t.candidateText) = none := by
      rw [pwdLine, hct]
      rfl
    simp only [valueLines, List.filterMap_cons, List.filterMap_nil, hfp, hu, hp, hc]
  · have hu : addressLine ("a=ice-ufrag:".toList ++ (L.ice.localCredentials t.ice).ufrag) =
        none := by
      rw [addressLine, hut]
      rfl
    have hp : addressLine ("a=ice-pwd:".toList ++ (L.ice.localCredentials t.ice).pwd) = none := by
      rw [addressLine, hpt]
      rfl
    have hc : addressLine ("a=candidate:".toList ++ t.candidateText) =
        some ⟨t.localAddr.ip, t.localAddr.port, 0⟩ := by
      rw [addressLine, hct, Text.stripPrefix_append]
      exact hcv
    simp only [valueLines, List.filterMap_cons, List.filterMap_nil, hfc, hu, hp, hc]
  · have hu : answerLine L.toLowercase
        ("a=ice-ufrag:".toList ++ (L.ice.localCredentials t.ice).ufrag) = none := by
      rw [answerLine, hut]
      rfl
    have hp : answerLine L.toLowercase ("a=ice-pwd:".toList ++ (L.ice.localCredentials t.ice).pwd) =
        none := by
      rw [answerLine, hpt]
      rfl
    have hc : answerLine L.toLowercase ("a=candidate:".toList ++ t.candidateText) = none := by
      rw [answerLine, hct]
      rfl
    simp only [valueLines, List.filterMap_cons, List.filterMap_nil, hfa, hu, hp, hc]
    generalize (if t.localFingerprint = [] then none else some t.localFingerprint) = value
    cases value <;> rfl

theorem noNewline_sdpLines {t : DirectTunnel L} {setup : Text} (hw : WritesHosts L.ice)
    (h : t.Readable) (hs : NoSpace setup) : ∀ line ∈ t.sdpLines setup, '\n' ∉ line := by
  have hsession : ∀ line ∈ t.sessionLines, '\n' ∉ line := fun line hl =>
    (silent_sessionLines id t line hl).noNewline
  have hmedia : ∀ line ∈ t.mediaLines setup, '\n' ∉ line := fun line hl =>
    (silent_mediaLines id t hs line hl).noNewline
  intro line hl
  simp only [sdpLines, List.mem_append, List.mem_cons, List.not_mem_nil, or_false] at hl
  rcases hl with hl | rfl | hl | rfl | rfl | rfl
  · exact hsession line hl
  · rw [h.algorithm]
    exact noNewline_append (by decide) (noNewline_of_noSpace h.fingerprint)
  · exact hmedia line hl
  · exact noNewline_append (by decide) (noNewline_of_noSpace h.ufrag)
  · exact noNewline_append (by decide) (noNewline_of_noSpace h.pwd)
  · exact (candidateText_reads hw h.listsHost).1

/-- The credentials, the fingerprint and the address of a tunnel as its peer reads them. -/
structure ReadBack (t : DirectTunnel L) (sdp : Text) : Prop where
  offer : ∃ offer, ParsedOffer.parse L.toLowercase sdp = .ok offer ∧
    offer.ufrag = (L.ice.localCredentials t.ice).ufrag ∧
    offer.pwd = (L.ice.localCredentials t.ice).pwd ∧
    offer.fingerprint = t.localFingerprint ∧
    offer.remote.ip = t.localAddr.ip ∧ offer.remote.port = t.localAddr.port
  answer : (parseAnswerFingerprint L.toLowercase sdp).getD [] = t.localFingerprint
  answered : t.localFingerprint ≠ [] →
    parseAnswerFingerprint L.toLowercase sdp = some t.localFingerprint

/-- **Every description is read back.** -/
theorem readBack_renderSdp (t : DirectTunnel L) {setup : Text}
    (hsetup : setup = "actpass".toList ∨ setup = "passive".toList) (hw : WritesHosts L.ice)
    (h : t.Readable) : t.ReadBack (t.renderSdp setup) := by
  have hs : NoSpace setup := by rcases hsetup with rfl | rfl <;> decide
  have hlines := t.lines_renderSdp setup (noNewline_sdpLines hw h hs)
  obtain ⟨hu, hp, hc, hf⟩ := filterMap_valueLines hw h
  have hread : ∀ {α : Type} {f : Text → Option α},
      (∀ line, Silent L.toLowercase line → f line = none) →
      (Text.lines (t.renderSdp setup)).filterMap f = t.valueLines.filterMap f := by
    intro α f hsilent
    rw [hlines, filterMap_sdpLines L.toLowercase hsilent t h.algorithm hs]
  have hanswer : parseAnswerFingerprint L.toLowercase (t.renderSdp setup) =
      if t.localFingerprint = [] then none else some t.localFingerprint := by
    rw [parseAnswerFingerprint_eq, hread fun _ h => h.answer, hf]
    split <;> rfl
  refine ⟨⟨⟨_, _, ⟨t.localAddr.ip, t.localAddr.port, 0⟩, t.localFingerprint⟩, ?_, rfl, rfl, rfl,
    rfl, rfl⟩, ?_, fun hne => ?_⟩
  · rw [parse_ok_iff, hread fun _ h => h.ufrag, hread fun _ h => h.pwd, hread fun _ h => h.address,
      hread fun _ h => h.answer, hu, hp, hc, hf]
    refine ⟨rfl, rfl, rfl, ?_⟩
    split
    · assumption
    · rfl
  · rw [hanswer]
    split
    · exact Eq.symm (by assumption)
    · rfl
  · rw [hanswer, if_neg hne]

end Reading

theorem listsHost_build (hi : ListsAdded L.ice) {h : BuildHost} {role : Role}
    {config : TunnelConfig} {localAddr : SocketAddr} {nowMs : UInt64} {t : DirectTunnel L}
    (hb : build L h role config localAddr nowMs = .ok t) : t.ListsHost := by
  obtain ⟨_, _, hb⟩ := bind_ok hb
  obtain ⟨ice₀, hnew, hb⟩ := bind_ok hb
  obtain ⟨prepared, hp, hb⟩ := bind_ok hb
  obtain ⟨certificate, _, hp⟩ := bind_ok hp
  obtain ⟨localFingerprint, _, hp⟩ := bind_ok hp
  obtain ⟨_, _, hp⟩ := bind_ok hp
  cases hp
  obtain ⟨candidates, hc, hb⟩ := bind_ok hb
  obtain ⟨c, hcand, hc⟩ := bind_ok hc
  obtain ⟨_, hadd, hc⟩ := bind_ok hc
  obtain ⟨remote, _, hc⟩ := bind_ok hc
  obtain ⟨_, _, hc⟩ := bind_ok hc
  cases hc
  obtain ⟨_, _, hb⟩ := bind_ok hb
  cases hb
  have hlisted := hi.add ice₀ c (eq_ok_of_configError hadd)
  rw [hi.new (eq_ok_of_configError hnew)] at hlisted
  refine ⟨c, eq_ok_of_configError hcand, ?_⟩
  have hkept := (hi.credentials _ config.iceUfrag config.icePwd).trans
    ((hi.addRemote (L.ice.addLocalCandidate ice₀ c).1 remote).trans hlisted)
  exact congrArg List.head? hkept

theorem listsHost_startChecks (hi : ListsAdded L.ice) {t r : DirectTunnel L} (ht : t.ListsHost)
    (hr : t.startChecks = .ok r) : r.ListsHost := by
  obtain ⟨_, _, hr⟩ := bind_ok hr
  cases hr
  obtain ⟨c, hc, hhead⟩ := ht
  exact ⟨c, hc, (congrArg List.head? (hi.checks ..)).trans hhead⟩

/-- **Every constructor leaves the host candidate of its address behind.** -/
theorem listsHost_construct (hi : ListsAdded L.ice) {h : BuildHost} {config : TunnelConfig}
    {localAddr : SocketAddr} {nowMs : UInt64} {c : Constructor} {t : DirectTunnel L}
    (hc : construct L h config localAddr nowMs c = .ok t) : t.ListsHost := by
  obtain ⟨_, _, built, _, hb, ht⟩ := build_of_construct hc
  exact listsHost_startChecks hi (listsHost_build hi hb) ht

end DirectTunnel

namespace Script

/-- ICE that writes the candidates it has. -/
def describing : IceApi :=
  { ice with
    marshal := fun (c : CandidateHostConfig) => [' '].intercalate
      (hostWords "1".toList "2130706431".toList c.address c.port []) }

def describingLayers : Layers := { layers with ice := describing }

theorem writesHosts_describing : WritesHosts describing := by
  intro ip port c hc
  cases hc
  exact ⟨"1".toList, "2130706431".toList, [], ⟨by decide, by decide⟩, ⟨by decide, by decide⟩,
    (fun _ h => by cases h), rfl⟩

theorem listsAdded_describing : ListsAdded describing where
  new h := by cases h; rfl
  add _ _ _ := rfl
  addRemote _ _ := rfl
  credentials _ _ _ := rfl
  checks _ _ _ _ _ := rfl

/-- `2001:db8::1`, port 4000 -/
def ipv6Addr : SocketAddr := ⟨.v6 ⟨[0x2001, 0xdb8, 0, 0, 0, 0, 0, 1], rfl⟩, 4000, 0⟩

theorem build_describing :
    (DirectTunnel.construct describingLayers host config ipv6Addr 0 .offerer).isOk = true := by
  decide +kernel

def describingDialer : DirectTunnel describingLayers := Base.okValue _ build_describing

end Script

namespace DirectTunnel

theorem readBack_ipv6 :
    Script.describingDialer.ReadBack (Script.describingDialer.renderSdp "actpass".toList) :=
  readBack_renderSdp _ (.inl rfl) Script.writesHosts_describing
    { algorithm := by decide +kernel
      ufrag := by decide +kernel
      pwd := by decide +kernel
      fingerprint := by decide +kernel
      lowercase := by decide +kernel
      listsHost := listsHost_construct Script.listsAdded_describing
        (Base.eq_ok_okValue _ Script.build_describing) }

end DirectTunnel

end RtcTunnel.Direct
