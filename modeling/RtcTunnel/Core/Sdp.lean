import RtcTunnel.Core.Tunnel

/-!
# What is read from a peer's SDP

Only the lines a known peer needs. The offer reader keeps the last value of
every kind of line; the answer reader stops at the first fingerprint.
-/

namespace RtcTunnel.Core

set_option autoImplicit false

structure ParsedOffer where
  ufrag : Text
  pwd : Text
  remote : SocketAddr
  fingerprint : Text

/-- The address of a candidate line is bare, so an IPv6 one is bracketed before
it is parsed. -/
def parseCandidateAddr (address port : Text) : Option SocketAddr :=
  let host :=
    if address.contains ':' then "[".toList ++ address ++ "]:".toList ++ port
    else address ++ ":".toList ++ port
  SocketAddr.parse host

section Readers

-- `str::to_lowercase`; the case mapping of Unicode is left to the caller.
variable (toLowercase : Text → Text)

def fingerprintValue (value : Text) : Option Text :=
  (Text.splitOnce ' ' value).map fun p => toLowercase (Text.trim p.2)

/-- The variables of the loop of `ParsedOffer::parse`. -/
structure OfferFields where
  ufrag : Option Text := none
  pwd : Option Text := none
  remote : Option SocketAddr := none
  fingerprint : Option Text := none

/-- The candidate line's address, for a host candidate of component 1. -/
def candidateLine (value : Text) : Option SocketAddr :=
  match Text.splitWhitespace value with
  | _ :: component :: _ :: _ :: address :: port :: _ :: kind :: _ =>
    if component = "1".toList ∧ kind = "host".toList then parseCandidateAddr address port
    else none
  | _ => none

def OfferFields.readLine (f : OfferFields) (raw : Text) : OfferFields :=
  let line := Text.trim raw
  match Text.stripPrefix line "a=ice-ufrag:".toList with
  | some value => { f with ufrag := some (Text.trim value) }
  | none =>
    match Text.stripPrefix line "a=ice-pwd:".toList with
    | some value => { f with pwd := some (Text.trim value) }
    | none =>
      match Text.stripPrefix line "a=fingerprint:".toList with
      | some value =>
        match fingerprintValue toLowercase value with
        | some fp => { f with fingerprint := some fp }
        | none => f
      | none =>
        match Text.stripPrefix line "a=candidate:".toList with
        | some value =>
          match candidateLine value with
          | some addr => { f with remote := some addr }
          | none => f
        | none => f

def ParsedOffer.parse (sdp : Text) : Except TunnelError ParsedOffer :=
  let f := (Text.lines sdp).foldl (OfferFields.readLine toLowercase) {}
  match f.ufrag with
  | none => .error (.config "offer has no ice-ufrag")
  | some ufrag =>
    match f.pwd with
    | none => .error (.config "offer has no ice-pwd")
    | some pwd =>
      match f.remote with
      | none => .error (.config "offer has no host candidate")
      | some remote => .ok ⟨ufrag, pwd, remote, f.fingerprint.getD []⟩

def answerLine (raw : Text) : Option Text :=
  (Text.stripPrefix (Text.trim raw) "a=fingerprint:".toList).bind (fingerprintValue toLowercase)

def parseAnswerFingerprint (sdp : Text) : Option Text :=
  (Text.lines sdp).findSome? (answerLine toLowercase)

end Readers

end RtcTunnel.Core
