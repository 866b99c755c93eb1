import RtcTunnel.Direct.Candidates
import RtcTunnel.Direct.Description
import RtcTunnel.Direct.Fingerprint
import RtcTunnel.Direct.Roles

/-!
# The offer/answer exchange of two tunnels

One tunnel offers, another is built as the answerer of its text, and the answer goes back. The
fingerprint a tunnel writes is that of the certificate of its host, so what the peer checks
against is the digest of that certificate.
-/

namespace RtcTunnel.Direct

open RtcTunnel.Core
open RtcTunnel.Core.Text (NoSpace)
open RtcTunnel.Base (bind_ok)
open RtcTunnel.Base.Run

set_option autoImplicit false

theorem digitChar_injective {m n : Nat} (hm : m < 16) (hn : n < 16)
    (h : Nat.digitChar m = Nat.digitChar n) : m = n := by
  have hall : ∀ m < 16, ∀ n < 16, Nat.digitChar m = Nat.digitChar n → m = n := by decide
  exact hall m hm n hn h

theorem hexByte_injective {b b' : UInt8} (h : hexByte b = hexByte b') : b = b' := by
  have hb := b.toNat_lt
  have hb' := b'.toNat_lt
  obtain ⟨hhigh, hlow⟩ := List.cons.inj h
  have hhigh := digitChar_injective (by omega) (by omega) hhigh
  have hlow := digitChar_injective (by omega) (by omega) (List.cons.inj hlow).1
  exact UInt8.toNat_inj.mp (by omega)

/-- Two digests that are written alike are the same. -/
theorem colonHex_injective {hash hash' : Bytes} (h : colonHex hash = colonHex hash') :
    hash = hash' := by
  have hcons : ∀ (b c : UInt8) (rest : Bytes),
      colonHex (b :: c :: rest) = hexByte b ++ ':' :: colonHex (c :: rest) := fun _ _ _ => rfl
  have hone : ∀ b : UInt8, colonHex [b] = hexByte b := fun _ => rfl
  induction hash generalizing hash' with
  | nil =>
    cases hash' with
    | nil => rfl
    | cons b rest => cases rest <;> cases h
  | cons b rest ih =>
    cases hash' with
    | nil => cases rest <;> cases h
    | cons b' rest' =>
      cases rest with
      | nil =>
        cases rest' with
        | nil => rw [hexByte_injective h]
        | cons c' rest' => cases congrArg List.length h
      | cons c rest =>
        cases rest' with
        | nil => cases congrArg List.length h
        | cons c' rest' =>
          rw [hcons, hcons] at h
          obtain ⟨hbyte, hrest⟩ := List.append_inj h rfl
          rw [hexByte_injective hbyte, ih (List.cons.inj hrest).2]

theorem colonHex_ne_nil {hash : Bytes} (h : hash ≠ []) : colonHex hash ≠ [] := fun hnil =>
  h (colonHex_injective (hnil.trans rfl : colonHex hash = colonHex []))

/-- The characters of a digest's text. -/
def IsHexText (s : Text) : Prop := ∀ c ∈ s, c = ':' ∨ ∃ n < 16, c = Nat.digitChar n

theorem isHexText_colonHex (hash : Bytes) : IsHexText (colonHex hash) := by
  intro c hc
  rcases Text.mem_intercalate hc with rfl | ⟨word, hword, hc⟩
  · exact .inl rfl
  · obtain ⟨b, _, rfl⟩ := List.mem_map.mp hword
    have hb := b.toNat_lt
    right
    rcases List.mem_cons.mp hc with rfl | hc
    · exact ⟨b.toNat / 16, by omega, rfl⟩
    · rw [List.mem_singleton.mp hc]
      exact ⟨b.toNat % 16, by omega, rfl⟩

theorem IsHexText.noSpace {s : Text} (h : IsHexText s) : NoSpace s := by
  have hdigits : ∀ n < 16, isWhitespace (Nat.digitChar n) = false := by decide
  intro c hc
  rcases h c hc with rfl | ⟨n, hn, rfl⟩
  · decide
  · exact hdigits n hn

/-- What is assumed of rtc-ice: an agent keeps the credentials it was made with, and those of
its peer as they were set last. -/
structure KeepsCredentials (ice : IceApi) : Prop where
  new : ∀ {now config a}, ice.new now config = .ok a →
    ice.localCredentials a = ⟨config.localUfrag, config.localPwd⟩
  addLocal : ∀ a c, ice.localCredentials (ice.addLocalCandidate a c).1 = ice.localCredentials a
  addRemote : ∀ a c, ice.localCredentials (ice.addRemoteCandidate a c).1 = ice.localCredentials a
  set : ∀ a ufrag pwd,
    ice.localCredentials (ice.setRemoteCredentials a ufrag pwd).1 = ice.localCredentials a
  stores : ∀ a ufrag pwd, (ice.setRemoteCredentials a ufrag pwd).2 = .ok () →
    ice.remoteCredentials (ice.setRemoteCredentials a ufrag pwd).1 = some ⟨ufrag, pwd⟩
  checks : ∀ a now controlling ufrag pwd,
    ice.localCredentials (ice.startConnectivityChecks a now controlling ufrag pwd).1 =
        ice.localCredentials a ∧
      ice.remoteCredentials (ice.startConnectivityChecks a now controlling ufrag pwd).1 =
        ice.remoteCredentials a

/-- What the exchange assumes of the libraries: a digest's text is in lower case already, and a
candidate is written and listed as rtc-ice does. -/
structure Writes (L : Layers) : Prop where
  lowercase : ∀ s, IsHexText s → L.toLowercase s = s
  hosts : WritesHosts L.ice
  added : ListsAdded L.ice
  credentials : KeepsCredentials L.ice

/-- A host whose random credentials have no white space and whose certificate has that digest. -/
structure BuildHost.Presents (L : Layers) (h : BuildHost) (digest : Bytes) : Prop where
  ufrag : NoSpace h.generateUfrag
  pwd : NoSpace h.generatePwd
  certificate : ∃ der rest, h.certificate = .ok (der :: rest) ∧ L.sha256 der = .ok digest
  nonempty : digest ≠ []

namespace DirectTunnel

variable {L : Layers} {h : BuildHost} {config : TunnelConfig} {localAddr : SocketAddr}
  {nowMs : UInt64} {c : Constructor} {t : DirectTunnel L} {digest : Bytes}

/-- A tunnel that was built describes its host: its certificate, credentials and address. -/
structure Describes (h : BuildHost) (localAddr : SocketAddr) (digest : Bytes)
    (t : DirectTunnel L) : Prop where
  fingerprint : t.localFingerprint = colonHex digest
  credentials : L.ice.localCredentials t.ice = ⟨h.generateUfrag, h.generatePwd⟩
  address : t.localAddr = localAddr
  listsHost : t.ListsHost

/-- A tunnel holds what its configuration says of the peer. -/
structure Holds (role : Role) (config : TunnelConfig) (t : DirectTunnel L) : Prop where
  role : t.role = role
  algorithm : t.fingerprintAlgorithm = config.fingerprintAlgorithm
  fingerprint : t.remoteFingerprint = config.remoteFingerprint
  address : t.remoteAddr = config.remote
  credentials : L.ice.remoteCredentials t.ice = some ⟨config.iceUfrag, config.icePwd⟩

theorem describes_build {role : Role} (hL : Writes L) (hp : h.Presents L digest)
    (hb : build L h role config localAddr nowMs = .ok t) :
    t.Describes h localAddr digest ∧ t.Holds role config := by
  have hlists := listsHost_build hL.added hb
  obtain ⟨der, rest, hchain, hdigest⟩ := hp.certificate
  obtain ⟨_, _, hb⟩ := bind_ok hb
  obtain ⟨ice₀, hnew, hb⟩ := bind_ok hb
  obtain ⟨prepared, hprep, hb⟩ := bind_ok hb
  obtain ⟨certificate, hcert, hprep⟩ := bind_ok hprep
  obtain ⟨localFingerprint, hfp, hprep⟩ := bind_ok hprep
  obtain ⟨_, _, hprep⟩ := bind_ok hprep
  cases hprep
  obtain ⟨candidates, hc, hb⟩ := bind_ok hb
  obtain ⟨cand, _, hc⟩ := bind_ok hc
  obtain ⟨_, _, hc⟩ := bind_ok hc
  obtain ⟨remote, _, hc⟩ := bind_ok hc
  obtain ⟨_, _, hc⟩ := bind_ok hc
  cases hc
  obtain ⟨_, hset, hb⟩ := bind_ok hb
  cases hb
  have hcertificate : certificate = der :: rest :=
    Except.ok.inj ((eq_ok_of_configError hcert).symm.trans hchain)
  have hfingerprint : localFingerprint = colonHex digest := by
    rw [hcertificate, fingerprintOf, hdigest] at hfp
    exact (Except.ok.inj hfp).symm
  have hlocal := (hL.credentials.set
    (L.ice.addRemoteCandidate (L.ice.addLocalCandidate ice₀ cand).1 remote).1
    config.iceUfrag config.icePwd).trans ((hL.credentials.addRemote _ remote).trans
      ((hL.credentials.addLocal ice₀ cand).trans
        (hL.credentials.new (eq_ok_of_configError hnew))))
  exact ⟨⟨hfingerprint, hlocal, rfl, hlists⟩,
    ⟨rfl, rfl, rfl, rfl, hL.credentials.stores _ _ _ (eq_ok_of_configError hset)⟩⟩

theorem describes_startChecks {role : Role} {built : DirectTunnel L} (hL : Writes L)
    (hd : built.Describes h localAddr digest) (hh : built.Holds role config)
    (hr : built.startChecks = .ok t) : t.Describes h localAddr digest ∧ t.Holds role config := by
  have hlists := listsHost_startChecks hL.added hd.listsHost hr
  obtain ⟨_, _, hr⟩ := bind_ok hr
  cases hr
  obtain ⟨hlocal, hremote⟩ := hL.credentials.checks built.ice built.lastNow built.isOfferer
    ((L.ice.remoteCredentials built.ice).getD ⟨[], []⟩).ufrag
    ((L.ice.remoteCredentials built.ice).getD ⟨[], []⟩).pwd
  exact ⟨⟨hd.fingerprint, hlocal.trans hd.credentials, hd.address, hlists⟩,
    ⟨hh.role, hh.algorithm, hh.fingerprint, hh.address, hremote.trans hh.credentials⟩⟩

theorem describes_offerer (hL : Writes L) (hp : h.Presents L digest)
    (ho : offerer L h config localAddr nowMs = .ok t) :
    t.Describes h localAddr digest ∧ t.Holds .offerer config := by
  obtain ⟨built, hb, hr⟩ := bind_ok ho
  obtain ⟨hd, hh⟩ := describes_build hL hp hb
  exact describes_startChecks hL hd hh hr

theorem describes_answerWith {offer : ParsedOffer} (hL : Writes L) (hp : h.Presents L digest)
    (hb : answerWith L h config localAddr offer nowMs = .ok t) :
    t.Describes h localAddr digest ∧ t.Holds .answerer (withOffer config offer) := by
  unfold answerWith at hb
  split at hb
  · cases hb
  · obtain ⟨built, hb, hr⟩ := bind_ok hb
    obtain ⟨hd, hh⟩ := describes_build hL hp hb
    exact describes_startChecks hL hd hh hr

theorem Describes.nonempty (ht : t.Describes h localAddr digest) (hp : h.Presents L digest) :
    t.localFingerprint ≠ [] := by
  rw [ht.fingerprint]
  exact colonHex_ne_nil hp.nonempty

theorem Describes.readable (ht : t.Describes h localAddr digest) (hL : Writes L)
    (hp : h.Presents L digest) (ha : t.fingerprintAlgorithm = "sha-256".toList) : t.Readable where
  algorithm := ha
  ufrag := by
    rw [ht.credentials]
    exact hp.ufrag
  pwd := by
    rw [ht.credentials]
    exact hp.pwd
  fingerprint := by
    rw [ht.fingerprint]
    exact (isHexText_colonHex digest).noSpace
  lowercase := by
    rw [ht.fingerprint]
    exact hL.lowercase _ (isHexText_colonHex digest)
  listsHost := ht.listsHost

/-- What a tunnel has to say of itself. -/
def own (t : DirectTunnel L) : ParsedOffer where
  ufrag := (L.ice.localCredentials t.ice).ufrag
  pwd := (L.ice.localCredentials t.ice).pwd
  remote := ⟨t.localAddr.ip, t.localAddr.port, 0⟩
  fingerprint := t.localFingerprint

/-- The readers find in a text what they find in the lines with a value. -/
theorem filterMap_renderSdp {setup : Text} (hL : Writes L) (hread : t.Readable)
    (hs : NoSpace setup) {α : Type} {f : Text → Option α}
    (hsilent : ∀ line, Silent L.toLowercase line → f line = none) :
    (Text.lines (t.renderSdp setup)).filterMap f = t.valueLines.filterMap f := by
  rw [t.lines_renderSdp setup (noNewline_sdpLines hL.hosts hread hs),
    filterMap_sdpLines L.toLowercase hsilent t hread.algorithm hs]

theorem parse_renderSdp {setup : Text} (hL : Writes L) (hread : t.Readable)
    (hne : t.localFingerprint ≠ []) (hs : NoSpace setup) :
    ParsedOffer.parse L.toLowercase (t.renderSdp setup) = .ok t.own := by
  obtain ⟨hu, hp, hc, hf⟩ := filterMap_valueLines hL.hosts hread
  rw [parse_ok_iff, filterMap_renderSdp hL hread hs fun _ h => h.ufrag,
    filterMap_renderSdp hL hread hs fun _ h => h.pwd,
    filterMap_renderSdp hL hread hs fun _ h => h.address,
    filterMap_renderSdp hL hread hs fun _ h => h.answer, hu, hp, hc, hf, if_neg hne]
  exact ⟨rfl, rfl, rfl, rfl⟩

theorem parseAnswer_renderSdp {setup : Text} (hL : Writes L) (hread : t.Readable)
    (hne : t.localFingerprint ≠ []) (hs : NoSpace setup) :
    parseAnswerFingerprint L.toLowercase (t.renderSdp setup) = some t.localFingerprint := by
  rw [parseAnswerFingerprint_eq, filterMap_renderSdp hL hread hs fun _ h => h.answer,
    (filterMap_valueLines hL.hosts hread).2.2.2, if_neg hne]
  rfl

/-- `answer_value`: the rest of the first line that starts with the name. -/
def answerValue (answer name : Text) : Option Text :=
  (Text.lines answer).findSome? fun line => Text.stripPrefix line name

/-- What a marker's own reader does not take, is no line with the marker. -/
theorem stripPrefix_none {marker line : Text} (hne : marker ≠ []) (hm : NoSpace marker)
    (hread : (Text.stripPrefix (Text.trim line) marker).map Text.trim = none) :
    Text.stripPrefix line marker = none := by
  cases hline : Text.stripPrefix line marker with
  | none => rfl
  | some value =>
    obtain ⟨rest, htrim⟩ := Text.trim_marker hne hm value
    rw [Text.eq_of_stripPrefix hline, htrim, Text.stripPrefix_append] at hread
    cases hread

theorem answerValue_renderSdp {setup : Text} (hL : Writes L) (hread : t.Readable)
    (hs : NoSpace setup) :
    answerValue (t.renderSdp setup) "a=ice-ufrag:".toList =
        some (L.ice.localCredentials t.ice).ufrag ∧
      answerValue (t.renderSdp setup) "a=ice-pwd:".toList =
        some (L.ice.localCredentials t.ice).pwd := by
  have hfirst : ∀ {f : Text → Option Text},
      (∀ line, Silent L.toLowercase line → f line = none) →
      (Text.lines (t.renderSdp setup)).findSome? f = (t.valueLines.filterMap f).head? := by
    intro f hsilent
    rw [← filterMap_renderSdp hL hread hs hsilent, List.head?_filterMap]
  have htaken : ∀ (marker value : Text) (rest : List Text),
      (((marker ++ value) :: rest).filterMap fun line => Text.stripPrefix line marker).head? =
        some value := by
    intro marker value rest
    rw [List.filterMap_cons, Text.stripPrefix_append]
    rfl
  constructor
  · rw [answerValue, hfirst fun line h => stripPrefix_none (by decide) (by decide) h.ufrag,
      valueLines, List.filterMap_cons_none rfl]
    exact htaken _ _ _
  · rw [answerValue, hfirst fun line h => stripPrefix_none (by decide) (by decide) h.pwd,
      valueLines, List.filterMap_cons_none rfl, List.filterMap_cons_none rfl]
    exact htaken _ _ _

section Exchange

variable (L) (h h' : BuildHost) (config config' : TunnelConfig) (localAddr localAddr' : SocketAddr)
  (nowMs nowMs' : UInt64)

/-- The two ends of an exchange: `offerer`, `offer_sdp`, `answerer`, `answer_sdp`,
`apply_remote_answer_sdp` and, with the credentials of the answer,
`set_remote_ice_credentials`. -/
def exchange : Option (DirectTunnel L × DirectTunnel L) := do
  let a ← (offerer L h config localAddr nowMs).toOption
  let offer ← a.offerSdp
  let b ← (answerer L h' config' localAddr' offer nowMs').toOption
  let answer ← b.answerSdp
  let ufrag ← answerValue answer "a=ice-ufrag:".toList
  let pwd ← answerValue answer "a=ice-pwd:".toList
  let r := (a.applyRemoteAnswerSdp answer).setRemoteIceCredentials ufrag pwd
  let _ ← r.2.toOption
  pure (r.1, b)

/-- The answerer of a tunnel, when it is given what that tunnel has. -/
def answererOf (a : DirectTunnel L) : Option (DirectTunnel L) :=
  if a.localAddr.isIpv4 = localAddr'.isIpv4 then
    (answerWith L h' config' localAddr' a.own nowMs').toOption
  else none

/-- The offerer, when it is given what its answerer has. -/
def offererOf (a b : DirectTunnel L) : Option (DirectTunnel L) :=
  let r := { a with remoteFingerprint := b.localFingerprint }.setRemoteIceCredentials
    b.own.ufrag b.own.pwd
  r.2.toOption.map fun _ => r.1

/-- The exchange without texts: either end is given what the other one has. -/
def handOver : Option (DirectTunnel L × DirectTunnel L) := do
  let a ← (offerer L h config localAddr nowMs).toOption
  let b ← answererOf L h' config' localAddr' nowMs' a
  let a ← offererOf L a b
  pure (a, b)

end Exchange

/-- Either end holds what the other one has. -/
structure Paired (a b : DirectTunnel L) : Prop where
  offers : a.role = .offerer
  answers : b.role = .answerer
  offererFingerprint : b.remoteFingerprint = a.localFingerprint
  answererFingerprint : a.remoteFingerprint = b.localFingerprint
  offererCredentials :
    L.ice.remoteCredentials b.ice = some (L.ice.localCredentials a.ice)
  answererCredentials :
    L.ice.remoteCredentials a.ice = some (L.ice.localCredentials b.ice)
  offererAddress : b.remoteAddr.ip = a.localAddr.ip ∧ b.remoteAddr.port = a.localAddr.port

variable {h' : BuildHost} {config' : TunnelConfig} {localAddr' : SocketAddr} {nowMs' : UInt64}
  {a b : DirectTunnel L} {digest' : Bytes}

/-- An answerer refuses the offer of a tunnel for its stream id or its family only, and is
built with what the offer says. -/
theorem answerer_offered (hL : Writes L) (hread : t.Readable) (hne : t.localFingerprint ≠ []) :
    (answerer L h' config' localAddr' (t.renderSdp "actpass".toList) nowMs').toOption =
      answererOf L h' config' localAddr' nowMs' t := by
  have hparse : ParsedOffer.parse L.toLowercase (t.renderSdp "actpass".toList) = .ok t.own :=
    parse_renderSdp hL hread hne (by decide)
  unfold answererOf
  split
  · rename_i hf
    rw [answerer_eq h' config' nowMs' hparse hf]
  · rename_i hf
    rw [answerer, hparse]
    split
    · rfl
    · exact congrArg Except.toOption (if_pos hf)

theorem describes_answererOf (hL : Writes L) (hp : h'.Presents L digest')
    (hb : answererOf L h' config' localAddr' nowMs' a = some b) :
    b.Describes h' localAddr' digest' ∧ b.Holds .answerer (withOffer config' a.own) := by
  unfold answererOf at hb
  split at hb
  · cases hw : answerWith L h' config' localAddr' a.own nowMs' with
    | error e =>
      rw [hw] at hb
      cases hb
    | ok b' =>
      rw [hw] at hb
      cases hb
      exact describes_answerWith hL hp hw
  · cases hb

/-- The answer of a tunnel, as the offerer applies it. -/
theorem answered (hL : Writes L) (hread : b.Readable) (hne : b.localFingerprint ≠ [])
    (hr : b.role = .answerer) (a : DirectTunnel L) : ∃ answer, b.answerSdp = some answer ∧
      answerValue answer "a=ice-ufrag:".toList = some b.own.ufrag ∧
      answerValue answer "a=ice-pwd:".toList = some b.own.pwd ∧
      a.applyRemoteAnswerSdp answer = { a with remoteFingerprint := b.localFingerprint } := by
  have hs : NoSpace "passive".toList := by decide
  obtain ⟨hu, hp⟩ := answerValue_renderSdp hL hread hs
  refine ⟨b.renderSdp "passive".toList, ?_, hu, hp, ?_⟩
  · rw [answerSdp, hr]
  · rw [applyRemoteAnswerSdp, parseAnswer_renderSdp hL hread hne hs]

theorem exchange_eq (hL : Writes L) (hp : h.Presents L digest) (hp' : h'.Presents L digest')
    (ha : config.fingerprintAlgorithm = "sha-256".toList)
    (ha' : config'.fingerprintAlgorithm = "sha-256".toList) :
    exchange L h h' config config' localAddr localAddr' nowMs nowMs' =
      handOver L h h' config config' localAddr localAddr' nowMs nowMs' := by
  unfold exchange handOver
  cases ho : offerer L h config localAddr nowMs with
  | error e => rfl
  | ok a =>
    obtain ⟨hd, hh⟩ := describes_offerer hL hp ho
    have hread := hd.readable hL hp (hh.algorithm.trans ha)
    have hoffered : (answerer L h' config' localAddr' (a.renderSdp "actpass".toList)
        nowMs').toOption = answererOf L h' config' localAddr' nowMs' a :=
      answerer_offered hL hread (hd.nonempty hp)
    have hstart : (Except.ok a : Except TunnelError _).toOption = some a := rfl
    simp only [Option.bind_eq_bind, hstart, Option.bind_some, offerSdp, hoffered]
    cases hb : answererOf L h' config' localAddr' nowMs' a with
    | none => rfl
    | some b =>
      obtain ⟨hd', hh'⟩ := describes_answererOf hL hp' hb
      obtain ⟨answer, hanswer, hu, hpwd, happly⟩ := answered hL
        (hd'.readable hL hp' (hh'.algorithm.trans ha')) (hd'.nonempty hp') hh'.role a
      simp only [Option.bind_some, hanswer, hu, hpwd, happly, offererOf]
      cases ({ a with remoteFingerprint := b.localFingerprint }.setRemoteIceCredentials
        b.own.ufrag b.own.pwd).2 <;> rfl

/-- The steps of an exchange that came to its end. -/
theorem handOver_some
    (hx : handOver L h h' config config' localAddr localAddr' nowMs nowMs' = some (a, b)) :
    ∃ a₀, offerer L h config localAddr nowMs = .ok a₀ ∧
      answererOf L h' config' localAddr' nowMs' a₀ = some b ∧
      (L.ice.setRemoteCredentials a₀.ice b.own.ufrag b.own.pwd).2 = .ok () ∧
      a = { a₀ with
        remoteFingerprint := b.localFingerprint
        ice := (L.ice.setRemoteCredentials a₀.ice b.own.ufrag b.own.pwd).1 } := by
  obtain ⟨a₀, ho, hx⟩ := Option.bind_eq_some_iff.mp hx
  obtain ⟨b₀, hb, hx⟩ := Option.bind_eq_some_iff.mp hx
  obtain ⟨a₁, ha, hx⟩ := Option.bind_eq_some_iff.mp hx
  cases hx
  obtain ⟨_, hok, hset⟩ := Option.map_eq_some_iff.mp ha
  have hoffered : offerer L h config localAddr nowMs = .ok a₀ := by
    cases hr : offerer L h config localAddr nowMs with
    | error e =>
      rw [hr] at ho
      cases ho
    | ok a₂ =>
      rw [hr] at ho
      cases ho
      rfl
  refine ⟨a₀, hoffered, hb, ?_, hset.symm⟩
  cases hr : (L.ice.setRemoteCredentials a₀.ice b.own.ufrag b.own.pwd).2 with
  | error e =>
    rw [setRemoteIceCredentials, hr] at hok
    cases hok
  | ok u => rfl

theorem paired_handOver (hL : Writes L) (hp : h.Presents L digest) (hp' : h'.Presents L digest')
    (hx : handOver L h h' config config' localAddr localAddr' nowMs nowMs' = some (a, b)) :
    Paired a b := by
  obtain ⟨a₀, ho, hb, hset, rfl⟩ := handOver_some hx
  obtain ⟨hd, hh⟩ := describes_offerer hL hp ho
  obtain ⟨_, hh'⟩ := describes_answererOf hL hp' hb
  have hne : a₀.own.fingerprint.isEmpty = false := List.isEmpty_eq_false_iff.mpr (hd.nonempty hp)
  refine ⟨hh.role, hh'.role, ?_, rfl, ?_, hL.credentials.stores _ _ _ hset, ?_⟩
  · rw [hh'.fingerprint, withOffer, hne]
    rfl
  · exact hh'.credentials.trans (congrArg some (hL.credentials.set ..).symm)
  · rw [hh'.address]
    exact ⟨rfl, rfl⟩

/-- An answerer that was given the digest of its offerer accepts no other certificate. -/
theorem verifies_digest (hL : Writes L) (hc : construct L h config localAddr nowMs c = .ok t)
    (hv : config.disableFingerprintVerification = false)
    (hf : t.remoteFingerprint = colonHex digest) {chain : List Bytes} {d : HandshakeConfig}
    (hd : t.dtlsConfig = some d)
    (haccept : ∀ verify, d.verifyPeerCertificate = some verify → verify chain = .ok ()) :
    ∃ cert rest, chain = cert :: rest ∧ L.sha256 cert = .ok digest := by
  obtain ⟨d₀, hd₀, hcb⟩ := callback_construct hc hv
  cases hd.symm.trans hd₀
  obtain ⟨_, cert, rest, found, hchain, hfound, htext⟩ :=
    (verifyPeer_ok_iff L _ _ chain).mp (haccept _ hcb)
  rw [hf, hL.lowercase _ (isHexText_colonHex digest)] at htext
  rw [colonHex_injective htext] at hfound
  exact ⟨cert, rest, hchain, hfound⟩

theorem construct_answererOf (hL : Writes L) (hread : a.Readable) (hne : a.localFingerprint ≠ [])
    (hb : answererOf L h' config' localAddr' nowMs' a = some b) :
    construct L h' config' localAddr' nowMs' (.answerer (a.renderSdp "actpass".toList)) =
      .ok b := by
  have hoffered : (answerer L h' config' localAddr' (a.renderSdp "actpass".toList)
      nowMs').toOption = some b := (answerer_offered hL hread hne).trans hb
  rw [construct]
  cases hr : answerer L h' config' localAddr' (a.renderSdp "actpass".toList) nowMs' with
  | error e =>
    rw [hr] at hoffered
    cases hoffered
  | ok b' =>
    rw [hr] at hoffered
    cases hoffered
    rfl

theorem role_run (t : DirectTunnel L) (ops : List Op) : (run step t ops).role = t.role := by
  refine invariant (I := fun s : DirectTunnel L => s.role = t.role) ?_ ops rfl
  exact fun s op hs => (role_step s op).trans hs

/-- **The answerer of an exchange talks to its offerer only, and the roles fit.** The libraries
write what they are given and DTLS reports no handshake before its callback has accepted the chain;
both ends are configured with sha-256 and have hosts that present a certificate and draw credentials
without white space. Whatever the two tunnels go through after the exchange: if the answerer
verifies fingerprints, each handshake that it completes is with a peer whose certificate has the
digest of the offerer's; and whenever a pump finds a pair that ICE has selected, the offerer acts as
the client and the answerer as the server. -/
theorem exchange_secures (H : VerifiesBeforeComplete L.dtls) (hL : Writes L)
    (hp : h.Presents L digest) (hp' : h'.Presents L digest')
    (ha : config.fingerprintAlgorithm = "sha-256".toList)
    (ha' : config'.fingerprintAlgorithm = "sha-256".toList)
    (hx : exchange L h h' config config' localAddr localAddr' nowMs nowMs' = some (a, b))
    (offers answers : List Op) :
    (config'.disableFingerprintVerification = false →
      ∀ chain, .handshakeComplete chain ∈ (run step b answers).log →
      ∃ cert rest, chain = cert :: rest ∧ L.sha256 cert = .ok digest) ∧
    (∀ op, ((run step a offers).pumpEntry op).isSome = true →
      L.ice.pairSelected (run step a (offers ++ [op])).ice = true →
      (run step a (offers ++ [op])).ActsAsClient) ∧
    (∀ op, ((run step b answers).pumpEntry op).isSome = true →
      L.ice.pairSelected (run step b (answers ++ [op])).ice = true →
      (run step b (answers ++ [op])).ActsAsServer) := by
  rw [exchange_eq hL hp hp' ha ha'] at hx
  have hpaired := paired_handOver hL hp hp' hx
  obtain ⟨a₀, ho, hb, _, rfl⟩ := handOver_some hx
  obtain ⟨hd, hh⟩ := describes_offerer hL hp ho
  have hc := construct_answererOf hL (hd.readable hL hp (hh.algorithm.trans ha)) (hd.nonempty hp) hb
  refine ⟨fun hv chain hm => ?_, fun op hop hsel => ?_, fun op hop hsel => ?_⟩
  · have hver : (run step b answers).Verified H :=
      invariant (I := Verified H) verified_step answers (verified_construct hc)
    obtain ⟨d, hdr, haccept⟩ := hver.accepted chain hm
    exact verifies_digest hL hc hv (hpaired.offererFingerprint.trans hd.fingerprint)
      ((dtlsConfig_run b answers).1.symm.trans hdr) haccept
  · obtain ⟨hconfig, hconnects, hinitiates, hsilent, hlistens, hresponds⟩ :=
      inRole_construct (c := .offerer) ho
    have hin := invariant inRole_step offers (InRole.mk (t := { a₀ with
      remoteFingerprint := b.localFingerprint
      ice := (L.ice.setRemoteCredentials a₀.ice b.own.ufrag b.own.pwd).1 })
        hconfig hconnects hinitiates hsilent hlistens hresponds)
    rw [run_append] at hsel ⊢
    exact ((inRole_step _ op hin).client
      ((role_step _ op).trans ((role_run _ offers).trans hh.role)) (started_step hin hop hsel)).1
  · have hin := inRole_run hc answers
    rw [run_append] at hsel ⊢
    exact (inRole_step _ op hin).server
      ((role_step _ op).trans ((role_run _ answers).trans hpaired.answers))
      (started_step hin hop hsel)

end DirectTunnel

namespace Script

theorem writes_describing : Writes describingLayers where
  lowercase s hs := by
    have hdigits : ∀ n < 16, (Nat.digitChar n).toLower = Nat.digitChar n := by decide
    refine (List.map_congr_left fun c hc => ?_).trans (List.map_id s)
    rcases hs c hc with rfl | ⟨n, hn, rfl⟩
    · rfl
    · exact hdigits n hn
  hosts := writesHosts_describing
  added := listsAdded_describing
  credentials :=
    { new := fun h => by cases h; rfl
      addLocal := fun _ _ => rfl
      addRemote := fun _ _ => rfl
      set := fun _ _ _ => rfl
      stores := fun _ _ _ _ => rfl
      checks := fun _ _ _ _ _ => ⟨rfl, rfl⟩ }

/-- The host of the other end. -/
def otherHost : BuildHost :=
  { host with
    generateUfrag := "other".toList
    generatePwd := "hidden".toList
    certificate := .ok [[8]] }

theorem presents_host : host.Presents describingLayers [7] :=
  ⟨by decide, by decide, ⟨[7], [], rfl, rfl⟩, by decide⟩

theorem presents_otherHost : otherHost.Presents describingLayers [8] :=
  ⟨by decide, by decide, ⟨[8], [], rfl, rfl⟩, by decide⟩

theorem exchange_isSome : (DirectTunnel.exchange describingLayers host otherHost config config
    localAddr remoteAddr 0 0).isSome = true := by decide +kernel

/-- The ends of that exchange. -/
def exchanged : DirectTunnel describingLayers × DirectTunnel describingLayers :=
  (DirectTunnel.exchange describingLayers host otherHost config config localAddr remoteAddr 0 0).get
    exchange_isSome

theorem exchange_exchanged : DirectTunnel.exchange describingLayers host otherHost config config
    localAddr remoteAddr 0 0 = some (exchanged.1, exchanged.2) :=
  (Option.some_get exchange_isSome).symm

end Script

namespace DirectTunnel

/-- The datagrams that bring the answerer to the end of its handshake. -/
def shakesHands : List Op := [.receive 1 [0], .receive 2 [22, 7]]

theorem exchange_secures_exchanged :
    (∃ cert rest, [[7]] = cert :: rest ∧ Script.describingLayers.sha256 cert = .ok [7]) ∧
      (run step Script.exchanged.1 ([] ++ [.receive 1 [0]])).ActsAsClient ∧
      (run step Script.exchanged.2 (shakesHands ++ [.receive 3 [22, 7]])).ActsAsServer := by
  obtain ⟨hcert, hclient, hserver⟩ := exchange_secures Script.verifies Script.writes_describing
    Script.presents_host Script.presents_otherHost rfl rfl Script.exchange_exchanged [] shakesHands
  exact ⟨hcert rfl [[7]] (by decide +kernel), hclient _ (by decide +kernel) (by decide +kernel),
    hserver _ (by decide +kernel) (by decide +kernel)⟩

end DirectTunnel

end RtcTunnel.Direct
