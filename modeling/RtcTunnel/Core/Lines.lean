import RtcTunnel.Base.Outcome
import RtcTunnel.Core.Sdp

/-!
# What the readers keep of the lines

Each line is a value for at most one field of an offer. The offer reader keeps the last
value of every field, the answer reader the first fingerprint.
-/

namespace RtcTunnel.Core

set_option autoImplicit false

theorem Text.stripPrefix_append (p r : Text) : Text.stripPrefix (p ++ r) p = some r := by
  induction p with
  | nil => exact Text.stripPrefix.eq_1 r
  | cons c p ih =>
    rw [List.cons_append, Text.stripPrefix, if_pos rfl, ih]

theorem Text.eq_of_stripPrefix {s p r : Text} (h : Text.stripPrefix s p = some r) : s = p ++ r := by
  fun_induction Text.stripPrefix s p with
  | case1 s => exact Option.some.inj h
  | case2 c p => cases h
  | case3 cs p ps ih => rw [ih h, List.cons_append]
  | case4 c cs p ps hc => cases h

section Readers

variable (toLowercase : Text → Text)

def ufragLine (raw : Text) : Option Text :=
  (Text.stripPrefix (Text.trim raw) "a=ice-ufrag:".toList).map Text.trim

def pwdLine (raw : Text) : Option Text :=
  (Text.stripPrefix (Text.trim raw) "a=ice-pwd:".toList).map Text.trim

/-- The address of a candidate line that the offer reader takes. -/
def addressLine (raw : Text) : Option SocketAddr :=
  (Text.stripPrefix (Text.trim raw) "a=candidate:".toList).bind candidateLine

/-- A line changes the field it is for, and no other. -/
theorem readLine_eq (f : OfferFields) (raw : Text) : f.readLine toLowercase raw =
    ⟨(ufragLine raw).or f.ufrag, (pwdLine raw).or f.pwd, (addressLine raw).or f.remote,
      (answerLine toLowercase raw).or f.fingerprint⟩ := by
  obtain ⟨ufrag, pwd, remote, fingerprint⟩ := f
  unfold OfferFields.readLine ufragLine pwdLine addressLine answerLine
  generalize Text.trim raw = line
  dsimp only
  cases hu : Text.stripPrefix line "a=ice-ufrag:".toList with
  | some value =>
    rw [Text.eq_of_stripPrefix hu]
    rfl
  | none =>
    cases hp : Text.stripPrefix line "a=ice-pwd:".toList with
    | some value =>
      rw [Text.eq_of_stripPrefix hp]
      rfl
    | none =>
      cases hf : Text.stripPrefix line "a=fingerprint:".toList with
      | some value =>
        have hc : Text.stripPrefix line "a=candidate:".toList = none := by
          rw [Text.eq_of_stripPrefix hf]
          rfl
        rw [hc, Option.bind_some]
        dsimp only
        cases fingerprintValue toLowercase value <;> rfl
      | none =>
        cases hc : Text.stripPrefix line "a=candidate:".toList with
        | some value =>
          rw [Option.bind_some]
          dsimp only
          cases candidateLine value <;> rfl
        | none => rfl

/-- **The offer reader keeps the last value of every field.** -/
theorem readLines_eq (lines : List Text) : lines.foldl (OfferFields.readLine toLowercase) {} =
    ⟨(lines.filterMap ufragLine).getLast?, (lines.filterMap pwdLine).getLast?,
      (lines.filterMap addressLine).getLast?, (lines.filterMap (answerLine toLowercase)).getLast?⟩ := by
  have hlast : ∀ {α : Type} (g : Text → Option α) (front : List Text) (raw : Text),
      ((front ++ [raw]).filterMap g).getLast? = (g raw).or (front.filterMap g).getLast? := by
    intro α g front raw
    rw [List.filterMap_append, List.getLast?_append, List.filterMap_cons, List.filterMap_nil]
    cases g raw <;> rfl
  induction lines using List.reverseRecOn with
  | nil => rfl
  | append_singleton front raw ih =>
    rw [List.foldl_append, ih, List.foldl_cons, List.foldl_nil, readLine_eq, hlast, hlast, hlast,
      hlast]

theorem parse_ok_iff {sdp : Text} {offer : ParsedOffer} :
    ParsedOffer.parse toLowercase sdp = .ok offer ↔
      ((Text.lines sdp).filterMap ufragLine).getLast? = some offer.ufrag ∧
      ((Text.lines sdp).filterMap pwdLine).getLast? = some offer.pwd ∧
      ((Text.lines sdp).filterMap addressLine).getLast? = some offer.remote ∧
      offer.fingerprint =
        ((Text.lines sdp).filterMap (answerLine toLowercase)).getLast?.getD [] := by
  rw [ParsedOffer.parse, readLines_eq]
  dsimp only
  obtain ⟨ufrag, pwd, remote, fingerprint⟩ := offer
  cases ((Text.lines sdp).filterMap ufragLine).getLast? with
  | none => simp
  | some u =>
    cases ((Text.lines sdp).filterMap pwdLine).getLast? with
    | none => simp
    | some p =>
      cases ((Text.lines sdp).filterMap addressLine).getLast? with
      | none => simp
      | some r => simp [eq_comm]

/-- The answer reader keeps the first fingerprint. -/
theorem parseAnswerFingerprint_eq (sdp : Text) : parseAnswerFingerprint toLowercase sdp =
    ((Text.lines sdp).filterMap (answerLine toLowercase)).head? :=
  (List.head?_filterMap ..).symm

/-- The first well-formed fingerprint line of a text has the value of the last one. -/
def OneFingerprint (sdp : Text) : Prop :=
  ((Text.lines sdp).filterMap (answerLine toLowercase)).head? =
    ((Text.lines sdp).filterMap (answerLine toLowercase)).getLast?

instance (sdp : Text) : Decidable (OneFingerprint toLowercase sdp) :=
  inferInstanceAs (Decidable (_ = _))

/-- **The two readers agree on the fingerprint exactly when the first and the last
well-formed fingerprint line have the same value.** -/
theorem fingerprints_agree_iff {sdp : Text} {offer : ParsedOffer}
    (h : ParsedOffer.parse toLowercase sdp = .ok offer) :
    offer.fingerprint = (parseAnswerFingerprint toLowercase sdp).getD [] ↔
      OneFingerprint toLowercase sdp := by
  obtain ⟨_, _, _, hf⟩ := (parse_ok_iff toLowercase).mp h
  rw [hf, parseAnswerFingerprint_eq, OneFingerprint]
  cases hl : (Text.lines sdp).filterMap (answerLine toLowercase) with
  | nil => simp
  | cons first rest =>
    rw [List.getLast?_eq_some_getLast (List.cons_ne_nil _ _), List.head?_cons]
    simp [eq_comm]

end Readers

/-- `str::to_lowercase` on ASCII. -/
def asciiLowercase : Text → Text := List.map Char.toLower

/-- An offer with fingerprint lines between a line of each other kind. -/
def offerWith (fingerprints : Text) : Text :=
  "v=0\r\na=ice-ufrag:peer\r\na=ice-pwd:secret\r\n".toList ++ fingerprints ++
    "a=candidate:1 1 udp 1 192.0.2.2 4001 typ host\r\n".toList

def oneCertificate : Text := offerWith
  "a=fingerprint:sha-256 0A\r\na=fingerprint:sha-1\r\na=fingerprint:sha-256 0a\r\n".toList

def twoHashes : Text := offerWith "a=fingerprint:sha-256 0A\r\na=fingerprint:sha-1 0B\r\n".toList

theorem parse_oneCertificate :
    (ParsedOffer.parse asciiLowercase oneCertificate).isOk = true := by decide +kernel

theorem parse_twoHashes : (ParsedOffer.parse asciiLowercase twoHashes).isOk = true := by
  decide +kernel

theorem fingerprints_agree_oneCertificate :
    (Base.okValue _ parse_oneCertificate).fingerprint =
      (parseAnswerFingerprint asciiLowercase oneCertificate).getD [] :=
  (fingerprints_agree_iff asciiLowercase (Base.eq_ok_okValue _ parse_oneCertificate)).mpr
    (by decide +kernel)

/-- A peer that lists two hashes of its certificate is pinned to the last one by its answerer
and to the first one by its offerer. -/
theorem two_hashes_disagree :
    ∃ offer, ParsedOffer.parse asciiLowercase twoHashes = .ok offer ∧
      offer.fingerprint = "0b".toList ∧
      parseAnswerFingerprint asciiLowercase twoHashes = some "0a".toList :=
  ⟨_, Base.eq_ok_okValue _ parse_twoHashes, by decide +kernel, by decide +kernel⟩

end RtcTunnel.Core
