import RtcTunnel.Direct.Pump
import RtcTunnel.Direct.Script
import RtcTunnel.Direct.Touches

/-!
# DTLS and SCTP roles

An offer advertises `actpass` and an answer `passive`, but the role a tunnel takes
is that of its constructor. So the two ends of an exchange take complementary
roles exactly when the peer of an offerer does not answer `active`.
-/

namespace RtcTunnel.Direct

open RtcTunnel.Core
open RtcTunnel.Base.Run

set_option autoImplicit false

/-- The values of `a=setup`. -/
inductive Setup where
  | actpass
  | active
  | passive
  deriving DecidableEq

def Setup.text : Setup → Text
  | .actpass => "actpass".toList
  | .active => "active".toList
  | .passive => "passive".toList

def setupLine (setup : Text) : Text := "a=setup:".toList ++ setup

def Setup.ofText (s : Text) : Option Setup :=
  if s = Setup.actpass.text then some .actpass
  else if s = Setup.active.text then some .active
  else if s = Setup.passive.text then some .passive
  else none

/-- What an SDP text says of the role of its sender: the first setup line, read
the way the fingerprint line is read. -/
def peerSetup (sdp : Text) : Option Setup :=
  (Text.lines sdp).findSome? fun raw =>
    (Text.stripPrefix (Text.trim raw) "a=setup:".toList).bind fun value =>
      Setup.ofText (Text.trim value)

/-- The calls by which a side starts DTLS or SCTP towards its peer. -/
def Entry.dials : Entry → Bool
  | .dtlsConnect _ _ => true
  | .sctpConnect _ => true
  | _ => false

namespace DirectTunnel

variable {L : Layers}

theorem setupLine_mem (t : DirectTunnel L) {setup : Text} (h : '\n' ∉ setup) :
    setupLine setup ∈ Text.lines (t.renderSdp setup) := by
  have left : ∀ {s line rest : Text}, Text.EndsLine s → line ∈ Text.lines s →
      line ∈ Text.lines (s ++ rest) := fun hs hl => by
    rw [Text.lines_append hs]
    exact List.mem_append_left _ hl
  have hn : '\n' ∉ setupLine setup := by
    intro hm
    rcases List.mem_append.mp hm with hm | hm
    · revert hm
      decide
    · exact h hm
  have ends : ∀ front s : Text, Text.EndsLine (front ++ (s ++ ['\r', '\n'])) :=
    fun front s => (Text.endsLine_line s).append front
  unfold renderSdp
  dsimp only
  iterate 6 refine left (ends _ _) ?_
  rw [Text.lines_append (ends _ _), show "a=setup:".toList ++ setup = setupLine setup from rfl,
    Text.lines_line hn]
  exact List.mem_append_right _ (List.mem_singleton_self _)

/-- The tunnel started DTLS towards its peer. -/
def Connects (t : DirectTunnel L) : Prop := ∃ remote ok, .dtlsConnect remote ok ∈ t.log

/-- The tunnel started SCTP towards its peer. -/
def Initiates (t : DirectTunnel L) : Prop := ∃ ok, .sctpConnect ok ∈ t.log

/-- DTLS client and SCTP initiator. -/
structure ActsAsClient (t : DirectTunnel L) : Prop where
  config : ∃ c, t.dtlsConfig = some c ∧ c.isClient = true
  connects : t.Connects
  initiates : t.sctp.isSome = true → t.Initiates
  listens : t.sctpConfig = none

/-- DTLS server and SCTP responder. -/
structure ActsAsServer (t : DirectTunnel L) : Prop where
  config : ∃ c, t.dtlsConfig = some c ∧ c.isClient = false
  serves : t.dtlsStarted = true
  connects : ¬ t.Connects
  initiates : ¬ t.Initiates
  listens : t.sctp.isSome = true → t.sctpConfig.isSome = true

/-- The roles of the two ends fit, and one of them starts DTLS. -/
def Complementary (answer : Text) (t : DirectTunnel L) : Prop :=
  match t.role with
  | .answerer => t.ActsAsServer
  | .offerer =>
    match peerSetup answer with
    | some .passive => t.ActsAsClient
    | some .active => t.ActsAsServer
    | _ => True

/-- What a constructor prepares for either role. -/
structure Prepared (t : DirectTunnel L) : Prop where
  offer : ∃ text, t.offerSdp = some text ∧ setupLine Setup.actpass.text ∈ Text.lines text
  answer : t.role = .answerer →
    ∃ text, t.answerSdp = some text ∧ setupLine Setup.passive.text ∈ Text.lines text
  server : t.role = .answerer → t.dtls = L.dtls.setServerConfig L.dtls.new t.dtlsConfig

/-- How far a tunnel has gone in the role of its constructor. -/
structure InRole (t : DirectTunnel L) : Prop where
  config : ∃ c, t.dtlsConfig = some c ∧ c.isClient = t.isOfferer
  connects : t.role = .offerer → t.dtlsStarted = true → t.Connects
  initiates : t.role = .offerer → t.sctp.isSome = true → t.Initiates
  silent : t.role = .answerer → t.log.any Entry.dials = false
  listens : t.role = .offerer → t.sctpConfig = none
  responds : t.role = .answerer → t.sctp.isSome = true → t.sctpConfig.isSome = true

theorem Connects.append {t r : DirectTunnel L} {es : List Entry} (h : t.Connects)
    (hl : r.log = t.log ++ es) : r.Connects := by
  obtain ⟨remote, ok, hm⟩ := h
  exact ⟨remote, ok, hl ▸ List.mem_append_left _ hm⟩

theorem Initiates.append {t r : DirectTunnel L} {es : List Entry} (h : t.Initiates)
    (hl : r.log = t.log ++ es) : r.Initiates := by
  obtain ⟨ok, hm⟩ := h
  exact ⟨ok, hl ▸ List.mem_append_left _ hm⟩

/-- A touch that starts nothing. -/
theorem InRole.idle {t r : DirectTunnel L} {es : List Entry} (h : t.InRole)
    (hl : r.log = t.log ++ es) (hes : es.any Entry.dials = false)
    (hp : r.role = t.role ∧ r.dtlsConfig = t.dtlsConfig)
    (hs : r.role = .offerer → r.dtlsStarted = true → t.dtlsStarted = true)
    (hc : r.sctpConfig = t.sctpConfig) (he : r.sctp.isSome = t.sctp.isSome) : r.InRole where
  config := by
    have ho : r.isOfferer = t.isOfferer := by rw [isOfferer, isOfferer, hp.1]
    rw [hp.2, ho]
    exact h.config
  connects hr hd := (h.connects (hp.1 ▸ hr) (hs hr hd)).append hl
  initiates hr hd := (h.initiates (hp.1 ▸ hr) (he ▸ hd)).append hl
  silent hr := by rw [hl, List.any_append, h.silent (hp.1 ▸ hr), hes, Bool.or_self]
  listens hr := hc ▸ h.listens (hp.1 ▸ hr)
  responds hr hd := hc ▸ h.responds (hp.1 ▸ hr) (he ▸ hd)

theorem dials_pushed (es : List Event) : (es.map Entry.pushed).any Entry.dials = false := by
  rw [List.any_map]
  exact List.any_eq_false.mpr fun _ _ => Bool.false_ne_true

theorem inRole_touch {t r : DirectTunnel L} (hc : Touch t r) (h : t.InRole) : r.InRole := by
  have plain : ∀ {r : DirectTunnel L}, r.log = t.log → r.role = t.role ∧ r.dtlsConfig = t.dtlsConfig →
      (r.role = .offerer → r.dtlsStarted = true → t.dtlsStarted = true) →
      r.sctpConfig = t.sctpConfig → r.sctp.isSome = t.sctp.isSome → r.InRole :=
    fun hl => h.idle (hl.trans (List.append_nil _).symm) rfl
  cases hc with
  | serve hr hp hs => exact plain rfl ⟨rfl, rfl⟩ (fun ho => absurd (hr.symm.trans ho) nofun) rfl rfl
  | connect config hr hc hp hs d ok hd hok =>
    refine ⟨h.config, fun _ _ => ⟨t.remoteAddr, ok, List.mem_append_right _ (.head _)⟩,
      fun ho he => (h.initiates ho he).append rfl, fun ha => absurd (hr.symm.trans ha) nofun,
      h.listens, h.responds⟩
  | sctpConnect endpoint handle association hr hd he hc =>
    refine ⟨h.config, fun ho hs => (h.connects ho hs).append rfl,
      fun _ _ => ⟨true, List.mem_append_right _ (.head _)⟩,
      fun ha => absurd (hr.symm.trans ha) nofun, h.listens,
      fun ha => absurd (hr.symm.trans ha) nofun⟩
  | sctpRefused endpoint hr hd he =>
    refine ⟨h.config, fun ho hs => (h.connects ho hs).append rfl,
      fun _ _ => ⟨false, List.mem_append_right _ (.head _)⟩,
      fun ha => absurd (hr.symm.trans ha) nofun, h.listens,
      fun ha => absurd (hr.symm.trans ha) nofun⟩
  | sctpServe hr hd he =>
    exact ⟨h.config, h.connects, fun ho => absurd (hr.symm.trans ho) nofun, h.silent,
      fun ho => absurd (hr.symm.trans ho) nofun, fun _ _ => rfl⟩
  | sctpHandle endpoint now datagram he => exact plain rfl ⟨rfl, rfl⟩ (fun _ => id) rfl (by rw [he]; rfl)
  | endpointEvent endpoint handle event he hh =>
    exact plain rfl ⟨rfl, rfl⟩ (fun _ => id) rfl (by rw [he]; rfl)
  | iceWrites => exact h.idle rfl (dials_pushed _) ⟨rfl, rfl⟩ (fun _ => id) rfl rfl
  | dtlsTransmits => exact h.idle rfl (dials_pushed _) ⟨rfl, rfl⟩ (fun _ => id) rfl rfl
  | messages msgs ha => exact h.idle rfl (dials_pushed _) ⟨rfl, rfl⟩ (fun _ => id) rfl rfl
  | handshake now hr hs => exact h.idle rfl rfl ⟨rfl, rfl⟩ (fun _ => id) rfl rfl
  | accept handle association hr => exact h.idle rfl rfl ⟨rfl, rfl⟩ (fun _ => id) rfl rfl
  | connected hs ha => exact h.idle rfl rfl ⟨rfl, rfl⟩ (fun _ => id) rfl rfl
  | finish reason hf hr => exact h.idle rfl rfl ⟨rfl, rfl⟩ (fun _ => id) rfl rfl
  | openStream association next ok hc hd ha hn hok =>
    exact h.idle rfl rfl ⟨rfl, rfl⟩ (fun _ => id) rfl rfl
  | setReliability association next ok hd ha hn =>
    exact h.idle rfl rfl ⟨rfl, rfl⟩ (fun _ => id) rfl rfl
  | «open» hc hd ho => exact h.idle rfl rfl ⟨rfl, rfl⟩ (fun _ => id) rfl rfl
  | _ => exact plain rfl ⟨rfl, rfl⟩ (fun _ => id) rfl rfl

theorem inRole_step (t : DirectTunnel L) (op : Op) (h : t.InRole) : (t.step op).InRole := by
  have plain : ∀ r : DirectTunnel L, r.log = t.log → r.role = t.role ∧ r.dtlsConfig = t.dtlsConfig →
      r.dtlsStarted = t.dtlsStarted → r.sctpConfig = t.sctpConfig → r.sctp = t.sctp → r.InRole :=
    fun r hl hp hs hc he => h.idle (hl.trans (List.append_nil _).symm) rfl hp
      (fun _ hd => hs ▸ hd) hc (congrArg _ he)
  cases hs : op.isSetting with
  | false =>
    refine step_keeps_touch (fun _ _ => inRole_touch) (fun data w _ hw h => ?_) hs h
    cases hw with
    | refused association hs hw => exact plain _ rfl ⟨rfl, rfl⟩ rfl rfl rfl
    | accepted association hs hw => exact h.idle rfl rfl ⟨rfl, rfl⟩ (fun _ => id) rfl rfl
  | true =>
    cases op with
    | applyRemoteAnswerSdp sdp =>
      rw [step, applyRemoteAnswerSdp]
      split
      · exact plain _ rfl ⟨rfl, rfl⟩ rfl rfl rfl
      · exact h
    | setRemote remote => exact plain _ rfl ⟨rfl, rfl⟩ rfl rfl rfl
    | setRemoteIceCredentials ufrag pwd => exact plain _ rfl ⟨rfl, rfl⟩ rfl rfl rfl
    | setSendBufferCap cap => exact plain _ rfl ⟨rfl, rfl⟩ rfl rfl rfl
    | _ => cases hs

theorem inRole_construct {h : BuildHost} {config : TunnelConfig} {localAddr : SocketAddr}
    {nowMs : UInt64} {c : Constructor} {t : DirectTunnel L}
    (hc : construct L h config localAddr nowMs c = .ok t) : t.InRole := by
  obtain ⟨_, _, role, _, _, _, certificate, fingerprint, rfl⟩ := built_construct hc
  exact ⟨⟨_, rfl, rfl⟩, fun _ => nofun, fun _ => nofun, fun _ => rfl, fun _ => rfl, fun _ => nofun⟩

theorem inRole_run {h : BuildHost} {config : TunnelConfig} {localAddr : SocketAddr}
    {nowMs : UInt64} {c : Constructor} {t : DirectTunnel L}
    (hc : construct L h config localAddr nowMs c = .ok t) (ops : List Op) :
    (run step t ops).InRole :=
  invariant inRole_step ops (inRole_construct hc)

theorem prepared_construct {h : BuildHost} {config : TunnelConfig} {localAddr : SocketAddr}
    {nowMs : UInt64} {c : Constructor} {t : DirectTunnel L}
    (hc : construct L h config localAddr nowMs c = .ok t) : t.Prepared := by
  refine ⟨⟨_, rfl, setupLine_mem t (by decide)⟩, fun hr => ?_, ?_⟩
  · exact ⟨_, by rw [answerSdp, hr]; rfl, setupLine_mem t (by decide)⟩
  · obtain ⟨_, _, role, _, _, _, certificate, fingerprint, rfl⟩ := built_construct hc
    intro hr
    have hr : role = .answerer := hr
    subst hr
    rfl

/-- The tunnel started DTLS in the role it has. -/
def Started (t : DirectTunnel L) : Prop :=
  match t.role with
  | .offerer => t.Connects
  | .answerer => t.dtlsStarted = true

theorem started_startDtls {t : DirectTunnel L} (h : t.InRole) : t.startDtls.Started := by
  obtain ⟨c, hc, _⟩ := h.config
  cases hr : t.role with
  | answerer =>
    have hs : t.startDtls = { t with dtlsStarted := true } := by
      simp only [startDtls, activateDtls, hr]
    rw [hs, Started, hr]
  | offerer =>
    have ha : t.activateDtls = ({ t with dtls := (L.dtls.connect t.dtls t.lastNow t.remoteAddr c).1 }.record
        (.dtlsConnect t.remoteAddr (L.dtls.connect t.dtls t.lastNow t.remoteAddr c).2.isOk),
        (L.dtls.connect t.dtls t.lastNow t.remoteAddr c).2.isOk) := by
      simp only [activateDtls, hr, hc]
    rw [startDtls, ha]
    show (match t.role with | .offerer => _ | .answerer => _)
    rw [hr]
    exact ⟨_, _, List.mem_append_right _ (.head _)⟩

theorem started_pumpIce {t : DirectTunnel L} (h : t.InRole)
    (hp : L.ice.pairSelected t.pumpIce.ice = true) : t.pumpIce.Started := by
  have hin : t.drainIceEvents.drainIceWrites.InRole := by
    have ht := (touches_call (.drainIceEvents t)).trans (touches_call (.drainIceWrites _))
    exact ht.keeps (fun _ _ => inRole_touch) h
  unfold pumpIce at hp ⊢
  dsimp only at hp ⊢
  generalize t.drainIceEvents.drainIceWrites = s at hin hp ⊢
  by_cases hs : (L.ice.pairSelected s.ice && !s.dtlsStarted) = true
  · rw [if_pos hs]
    exact started_startDtls hin
  · rw [if_neg hs] at hp ⊢
    rw [hp, Bool.true_and, Bool.not_eq_true', Bool.not_eq_false] at hs
    unfold Started
    split
    · rename_i hr
      exact hin.connects hr hs
    · exact hs

/-- What has started stays started. -/
theorem Started.forward {t r : DirectTunnel L} (h : t.Started) (hr : r.role = t.role)
    (hf : t.life.Forward r.life) : r.Started := by
  unfold Started at h ⊢
  rw [hr]
  split at h
  · obtain ⟨es, hl⟩ := hf.log
    exact h.append hl.symm
  · exact hf.dtlsStarted h

theorem started_pump {t : DirectTunnel L} (h : t.InRole)
    (hp : L.ice.pairSelected t.pump.1.ice = true) : t.pump.1.Started := by
  rw [show t.pump.1.ice = t.pumpIce.ice from congrArg Prod.fst (iceSide_pump t)] at hp
  have hs := started_pumpIce h hp
  have hc : t.pumpIce.Calls t.pump.1 := by
    refine calls_andThen ?_ fun s => (Call.maybeOpen s).one
    split
    · rename_i hd
      exact calls_pumpStarted _ hd
    · exact .refl _
  exact hs.forward (congrArg Parameters.role (parameters_calls hc))
    (Life.forward_moves (advances_calls hc))

theorem started_step {t : DirectTunnel L} {op : Op} (h : t.InRole)
    (hop : (t.pumpEntry op).isSome = true) (hp : L.ice.pairSelected (t.step op).ice = true) :
    (t.step op).Started := by
  obtain ⟨s, hs⟩ := Option.isSome_iff_exists.mp hop
  have hin : s.InRole := (calls_pumpEntry hs).touches.keeps (fun _ _ => inRole_touch) h
  rw [step_pump hs] at hp ⊢
  cases op with
  | tick nowMs =>
    rw [afterPump] at hp ⊢
    split at hp
    · rename_i hd
      rw [show (s.pump.1.finish .timeout).ice = s.pump.1.ice from
        congrArg Prod.fst (iceSide_finish _ _)] at hp
      rw [if_pos hd]
      exact (started_pump hin hp).forward (congrArg Parameters.role (parameters_finish _ _))
        (Life.forward_moves (advances_finish _ (by decide)))
    · rename_i hd
      rw [if_neg hd]
      exact started_pump hin hp
  | _ => exact started_pump hin hp

theorem role_step (t : DirectTunnel L) (op : Op) : (t.step op).role = t.role := by
  cases hs : op.isSetting with
  | false => exact congrArg Parameters.role (parameters_step hs)
  | true =>
    cases op with
    | applyRemoteAnswerSdp sdp =>
      rw [step, applyRemoteAnswerSdp]
      split <;> rfl
    | setRemote remote => rfl
    | setRemoteIceCredentials ufrag pwd => rfl
    | setSendBufferCap cap => rfl
    | _ => cases hs

theorem InRole.client {t : DirectTunnel L} (h : t.InRole) (hr : t.role = .offerer)
    (hs : t.Started) : t.ActsAsClient ∧ ¬ t.ActsAsServer := by
  unfold Started at hs
  rw [hr] at hs
  obtain ⟨c, hc, hi⟩ := h.config
  exact ⟨⟨⟨c, hc, by rw [hi, isOfferer, hr]; rfl⟩, hs, h.initiates hr, h.listens hr⟩,
    fun hn => hn.connects hs⟩

theorem InRole.server {t : DirectTunnel L} (h : t.InRole) (hr : t.role = .answerer)
    (hs : t.Started) : t.ActsAsServer := by
  unfold Started at hs
  rw [hr] at hs
  obtain ⟨c, hc, hi⟩ := h.config
  have hn := List.any_eq_false.mp (h.silent hr)
  refine ⟨⟨c, hc, by rw [hi, isOfferer, hr]; rfl⟩, hs, ?_, ?_, h.responds hr⟩
  · rintro ⟨remote, ok, hm⟩
    exact hn _ hm rfl
  · rintro ⟨ok, hm⟩
    exact hn _ hm rfl

/-- **Once ICE selects a pair, the roles of an exchange are complementary exactly when
the answer to an offerer is not `active`**: an offerer is the client whatever its peer
answers, and an answerer the server. -/
theorem roles_complementary {h : BuildHost} {config : TunnelConfig} {localAddr : SocketAddr}
    {nowMs : UInt64} {c : Constructor} {t : DirectTunnel L}
    (hc : construct L h config localAddr nowMs c = .ok t) (answer : Text) (before after : List Op)
    {op : Op}
    (hop : ((run step t (before ++ .applyRemoteAnswerSdp answer :: after)).pumpEntry op).isSome = true)
    (hp : L.ice.pairSelected
      (run step t (before ++ .applyRemoteAnswerSdp answer :: after ++ [op])).ice = true) :
    t.Prepared ∧
      (Complementary answer (run step t (before ++ .applyRemoteAnswerSdp answer :: after ++ [op])) ↔
        (t.role = .offerer → peerSetup answer ≠ some .active)) := by
  refine ⟨prepared_construct hc, ?_⟩
  generalize before ++ .applyRemoteAnswerSdp answer :: after = ops at hop hp ⊢
  have hin := inRole_run hc (ops ++ [op])
  have hrole : (run step t (ops ++ [op])).role = t.role := by
    refine invariant (I := fun s : DirectTunnel L => s.role = t.role) ?_ _ rfl
    exact fun s op hs => (role_step s op).trans hs
  rw [run_append] at hin hrole hp ⊢
  have hs := started_step (inRole_run hc ops) hop hp
  rw [← hrole]
  unfold Complementary
  cases hr : (run step (run step t ops) [op]).role with
  | answerer => exact ⟨fun _ => nofun, fun _ => hin.server hr hs⟩
  | offerer =>
    obtain ⟨hclient, hserver⟩ := hin.client hr hs
    dsimp only
    cases hpeer : peerSetup answer with
    | none => exact ⟨fun _ _ => nofun, fun _ => trivial⟩
    | some setup =>
      cases setup with
      | actpass => exact ⟨fun _ _ => nofun, fun _ => trivial⟩
      | active => exact ⟨fun hs => absurd hs hserver, fun hn => absurd rfl (hn rfl)⟩
      | passive => exact ⟨fun _ _ => nofun, fun _ => hclient⟩

theorem roles_complementary_passive :
    Complementary (setupLine Setup.passive.text) (run step Script.dialer
      ([] ++ .applyRemoteAnswerSdp (setupLine Setup.passive.text) :: [] ++ [.receive 1 [0]])) :=
  (roles_complementary Script.build_dialer _ [] [] (by decide +kernel) (by decide +kernel)).2.mpr
    (by decide +kernel)

/-- The peer is to start DTLS, and the tunnel starts it too. -/
theorem roles_clash :
    ∃ t, construct Script.layers Script.host Script.config Script.localAddr 0 .new = .ok t ∧
      t.role = .offerer ∧ peerSetup (setupLine Setup.active.text) = some .active ∧
      ¬ Complementary (setupLine Setup.active.text) (run step t
        [.applyRemoteAnswerSdp (setupLine Setup.active.text), .receive 1 [0]]) := by
  have hrun : Script.dialer.role = .offerer ∧
      peerSetup (setupLine Setup.active.text) = some .active ∧
      (run step Script.dialer [.applyRemoteAnswerSdp (setupLine Setup.active.text),
        .receive 1 [0]]).role = .offerer ∧
      .dtlsConnect Script.remoteAddr true ∈ (run step Script.dialer
        [.applyRemoteAnswerSdp (setupLine Setup.active.text), .receive 1 [0]]).log := by
    decide +kernel
  obtain ⟨ho, hp, hr, hm⟩ := hrun
  refine ⟨Script.dialer, Script.build_dialer, ho, hp, fun hc => ?_⟩
  unfold Complementary at hc
  rw [hr, hp] at hc
  exact hc.connects ⟨_, _, hm⟩

end DirectTunnel

end RtcTunnel.Direct
