import RtcTunnel.Direct.Script
import RtcTunnel.Direct.Touches

/-!
# One peer for all layers

The address of the peer is in the tunnel, in the remote candidate of ICE and under the
connections of DTLS and SCTP. Every call hands on the address of the tunnel, so the copies
agree until `set_remote` changes the first of them.
-/

namespace RtcTunnel.Direct

open RtcTunnel.Core
open RtcTunnel.Base (bind_ok)
open RtcTunnel.Base.Poll (Source)
open RtcTunnel.Base.Run

set_option autoImplicit false

/-- The remote candidate of an address. -/
def candidateOf (addr : SocketAddr) : CandidateHostConfig := ⟨addr.ip, addr.port⟩

/-- A call into an agent that neither adds a remote candidate nor takes a packet of the peer,
and does not end the checks. -/
inductive AgentCall (I : IceApi) : I.Agent → I.Agent → Prop where
  | addLocal (a : I.Agent) (c : I.Candidate) : AgentCall I a (I.addLocalCandidate a c).1
  | setRemoteCredentials (a : I.Agent) (ufrag pwd : Text) :
      AgentCall I a (I.setRemoteCredentials a ufrag pwd).1
  | startChecks (a : I.Agent) (now : Instant) (controlling : Bool) (ufrag pwd : Text) :
      AgentCall I a (I.startConnectivityChecks a now controlling ufrag pwd).1
  | pollTimeout (a : I.Agent) : AgentCall I a (I.pollTimeout a).2
  | events (a : I.Agent) : AgentCall I a (I.events.poll a).2
  | writes (a : I.Agent) : AgentCall I a (I.writes.poll a).2

/-- A call behind which an agent may have given up. -/
inductive AgentEnd (I : IceApi) : I.Agent → I.Agent → Prop where
  | timeout (a : I.Agent) (now : Instant) : AgentEnd I a (I.handleTimeout a now).1
  | close (a : I.Agent) : AgentEnd I a (I.close a).1

/-- **What is assumed of the layers**: which addresses each of them uses. The agent checks the
remote candidates that it was given, and the addresses that packets came from, until it fails or
is closed; DTLS and SCTP use no address they were not given. -/
structure Addressing (L : Layers) where
  /-- The agent checks a remote candidate with this address. -/
  checks : L.ice.Agent → CandidateHostConfig → Prop
  /-- The agent failed or was closed, and may have let its candidates go. -/
  gaveUp : L.ice.Agent → Prop
  /-- The endpoint has a connection that was made for this address. -/
  connection : L.dtls.Endpoint → SocketAddr → Prop
  /-- The address that the association was made for. -/
  peer : L.sctp.Association → SocketAddr
  iceNew : ∀ {now config a}, L.ice.new now config = .ok a → (∀ x, ¬ checks a x) ∧ ¬ gaveUp a
  addRemote : ∀ {a a' c config}, L.ice.newCandidateHost config = .ok c →
    L.ice.addRemoteCandidate a c = (a', .ok ()) →
    (∀ x, checks a' x ↔ checks a x ∨ x = config) ∧ (gaveUp a' ↔ gaveUp a)
  iceCall : ∀ {a a'}, AgentCall L.ice a a' →
    (∀ x, checks a' x ↔ checks a x) ∧ (gaveUp a' ↔ gaveUp a)
  iceRead : ∀ a now «local» remote datagram,
    (∀ x, checks (L.ice.handleRead a now «local» remote datagram).1 x →
      checks a x ∨ x = candidateOf remote) ∧
    (∀ x, checks a x → checks (L.ice.handleRead a now «local» remote datagram).1 x) ∧
    (gaveUp (L.ice.handleRead a now «local» remote datagram).1 ↔ gaveUp a)
  iceEnd : ∀ {a a'}, AgentEnd L.ice a a' → (∀ x, checks a' x → checks a x) ∧
    (∀ x, checks a x → checks a' x ∨ gaveUp a') ∧ (gaveUp a → gaveUp a')
  dtlsNew : ∀ addr, ¬ connection L.dtls.new addr
  setServerConfig : ∀ d config addr, connection (L.dtls.setServerConfig d config) addr →
    connection d addr
  dtlsConnect : ∀ d now remote config addr,
    connection (L.dtls.connect d now remote config).1 addr → connection d addr ∨ addr = remote
  dtlsRead : ∀ d now remote datagram addr,
    connection (L.dtls.read d now remote datagram).1 addr → connection d addr ∨ addr = remote
  dtlsWrite : ∀ d now remote raw addr,
    connection (L.dtls.write d now remote raw).1 addr → connection d addr ∨ addr = remote
  dtlsTimeout : ∀ d remote now addr,
    connection (L.dtls.handleTimeout d remote now).1 addr → connection d addr ∨ addr = remote
  dtlsTransmits : ∀ d addr, connection (L.dtls.transmits.poll d).2 addr → connection d addr
  sctpConnect : ∀ {e now config remote e' handle a}, L.sctp.connect e now config remote =
    (e', .ok (handle, a)) → peer a = remote
  sctpAccept : ∀ {e now remote datagram e' handle a}, L.sctp.handle e now remote datagram =
    (e', some (handle, .newAssociation a)) → peer a = remote
  associationCall : ∀ {a a'}, AssociationCall L.sctp a a' → peer a' = peer a
  openStream : ∀ a id ppi, peer (L.sctp.openStream a id ppi).1 = peer a
  setReliability : ∀ a id unordered type value,
    peer (L.sctp.setReliabilityParams a id unordered type value).1 = peer a
  writeChunk : ∀ a id data ppi, peer (L.sctp.writeChunkWithPpi a id data ppi).1 = peer a

namespace DirectTunnel

variable {L : Layers} {A : Addressing L}

/-- The agent checks this candidate and no other, as long as it has not given up. -/
structure ChecksOnly (A : Addressing L) (agent : L.ice.Agent) (x : CandidateHostConfig) : Prop where
  checked : ¬ A.gaveUp agent → A.checks agent x
  only : ∀ y, A.checks agent y → y = x

/-- The addresses of the layers are the address of the tunnel, under which every later call
reads, writes and times. -/
structure OnePeer (A : Addressing L) (t : DirectTunnel L) : Prop where
  ice : ChecksOnly A t.ice (candidateOf t.remoteAddr)
  dtls : ∀ addr, A.connection t.dtls addr → addr = t.remoteAddr
  sctp : ∀ a, t.association = some a → A.peer a = t.remoteAddr

theorem ChecksOnly.call {a a' : L.ice.Agent} {x : CandidateHostConfig} (h : ChecksOnly A a x)
    (hc : AgentCall L.ice a a') : ChecksOnly A a' x := by
  obtain ⟨hchecks, hgaveUp⟩ := A.iceCall hc
  refine ⟨fun hn => ?_, fun y hy => h.only y ((hchecks y).mp hy)⟩
  exact (hchecks x).mpr (h.checked fun hg => hn (hgaveUp.mpr hg))

theorem ChecksOnly.end {a a' : L.ice.Agent} {x : CandidateHostConfig} (h : ChecksOnly A a x)
    (hc : AgentEnd L.ice a a') : ChecksOnly A a' x := by
  obtain ⟨hback, hkeep, hgaveUp⟩ := A.iceEnd hc
  refine ⟨fun hn => ?_, fun y hy => h.only y (hback y hy)⟩
  exact (hkeep x (h.checked fun hg => hn (hgaveUp hg))).resolve_right hn

theorem ChecksOnly.read {a : L.ice.Agent} {remote : SocketAddr}
    (h : ChecksOnly A a (candidateOf remote)) (now : Instant) («local» : SocketAddr)
    (datagram : Bytes) : ChecksOnly A (L.ice.handleRead a now «local» remote datagram).1
      (candidateOf remote) := by
  obtain ⟨hback, hkeep, hgaveUp⟩ := A.iceRead a now «local» remote datagram
  refine ⟨fun hn => ?_, fun y hy => (hback y hy).elim (h.only y) id⟩
  exact hkeep _ (h.checked fun hg => hn (hgaveUp.mpr hg))

theorem onePeer_touch {t r : DirectTunnel L} (hc : Touch t r) (h : t.OnePeer A) :
    r.OnePeer A := by
  obtain ⟨hi, hd, hs⟩ := h
  cases hc with
  | iceRead now datagram _ => exact ⟨hi.read now t.localAddr datagram, hd, hs⟩
  | iceTimeout now => exact ⟨hi.end (.timeout _ now), hd, hs⟩
  | iceEvents =>
    refine ⟨?_, hd, hs⟩
    exact L.ice.events.drain_induction (P := fun a => ChecksOnly A a (candidateOf t.remoteAddr))
      (fun a ha => ha.call (.events a)) hi
  | iceWrites =>
    refine ⟨?_, hd, hs⟩
    exact L.ice.writes.drain_induction (P := fun a => ChecksOnly A a (candidateOf t.remoteAddr))
      (fun a ha => ha.call (.writes a)) hi
  | iceDeadline => exact ⟨hi.call (.pollTimeout _), hd, hs⟩
  | iceClose => exact ⟨hi.end (.close _), hd, hs⟩
  | connect config _ _ _ _ d ok hconn _ =>
    refine ⟨hi, fun addr ha => ?_, hs⟩
    exact (A.dtlsConnect t.dtls t.lastNow t.remoteAddr config addr (hconn ▸ ha)).elim (hd addr) id
  | dtlsRead now datagram _ =>
    exact ⟨hi, fun addr ha => (A.dtlsRead _ _ _ _ addr ha).elim (hd addr) id, hs⟩
  | dtlsWrite raw _ =>
    exact ⟨hi, fun addr ha => (A.dtlsWrite _ _ _ _ addr ha).elim (hd addr) id, hs⟩
  | dtlsTimeout now _ =>
    exact ⟨hi, fun addr ha => (A.dtlsTimeout _ _ _ addr ha).elim (hd addr) id, hs⟩
  | dtlsTransmits =>
    refine ⟨hi, ?_, hs⟩
    exact L.dtls.transmits.drain_induction (P := fun d => ∀ addr, A.connection d addr →
      addr = t.remoteAddr) (fun d ha addr hx => ha addr (A.dtlsTransmits d addr hx)) hd
  | sctpConnect endpoint handle association _ _ _ hc =>
    refine ⟨hi, hd, fun a ha => ?_⟩
    cases ha
    exact A.sctpConnect hc
  | accept handle association hr =>
    obtain ⟨_, _, _, _, _, hh⟩ := hr
    refine ⟨hi, hd, fun a ha => ?_⟩
    cases ha
    exact A.sctpAccept hh
  | association association next ha hc =>
    refine ⟨hi, hd, fun a ha' => ?_⟩
    cases ha'
    exact (A.associationCall hc).trans (hs _ ha)
  | openStream association next ok _ _ ha hn _ =>
    refine ⟨hi, hd, fun a ha' => ?_⟩
    cases ha'
    rw [← hn, A.openStream]
    exact hs _ ha
  | setReliability association next ok _ ha hn =>
    refine ⟨hi, hd, fun a ha' => ?_⟩
    cases ha'
    rw [← hn, A.setReliability]
    exact hs _ ha
  | _ => exact ⟨hi, hd, hs⟩

theorem onePeer_step {t : DirectTunnel L} {op : Op} (hop : ∀ remote, op ≠ .setRemote remote)
    (h : t.OnePeer A) : (t.step op).OnePeer A := by
  cases hs : op.isSetting with
  | false =>
    refine step_keeps_touch (fun _ _ => onePeer_touch) (fun data w _ hw h => ?_) hs h
    cases hw with
    | refused association hm _ =>
      refine ⟨h.ice, h.dtls, fun a ha => ?_⟩
      cases ha
      exact (A.writeChunk _ _ _ _).trans (h.sctp _ hm.current)
    | accepted association hm _ =>
      refine ⟨h.ice, h.dtls, fun a ha => ?_⟩
      cases ha
      exact (A.writeChunk _ _ _ _).trans (h.sctp _ hm.current)
  | true =>
    cases op with
    | applyRemoteAnswerSdp sdp =>
      rw [step, applyRemoteAnswerSdp]
      split <;> exact ⟨h.ice, h.dtls, h.sctp⟩
    | setRemote remote => exact absurd rfl (hop remote)
    | setRemoteIceCredentials ufrag pwd =>
      exact ⟨h.ice.call (.setRemoteCredentials _ ufrag pwd), h.dtls, h.sctp⟩
    | setSendBufferCap cap => exact ⟨h.ice, h.dtls, h.sctp⟩
    | _ => cases hs

theorem finished_step {t : DirectTunnel L} (op : Op) (h : t.finished = true) :
    (t.step op).finished = true := by
  cases hs : op.isSetting with
  | false =>
    refine step_keeps_touch (I := fun t => t.finished = true) (fun a b hc ha => ?_)
      (fun data w _ hw h => by cases hw <;> exact h) hs h
    cases hc with
    | finish reason _ _ => rfl
    | _ => exact ha
  | true =>
    cases op with
    | applyRemoteAnswerSdp sdp =>
      rw [step, applyRemoteAnswerSdp]
      split <;> exact h
    | _ => first | exact h | cases hs

/-- The new address is the one the layers use, if they use one yet. -/
structure KeepsAddress (A : Addressing L) (t : DirectTunnel L) (remote : SocketAddr) : Prop where
  ice : (∃ x, A.checks t.ice x) → candidateOf remote = candidateOf t.remoteAddr
  dtls : (∃ addr, A.connection t.dtls addr) → remote = t.remoteAddr
  sctp : t.association.isSome = true → remote = t.remoteAddr

theorem onePeer_setRemote_iff {t : DirectTunnel L} (h : t.OnePeer A) (remote : SocketAddr) :
    (t.setRemote remote).OnePeer A ↔ t.KeepsAddress A remote := by
  constructor
  · intro hr
    refine ⟨fun ⟨x, hx⟩ => ?_, fun ⟨addr, ha⟩ => ?_, fun hs => ?_⟩
    · exact (hr.ice.only x hx).symm.trans (h.ice.only x hx)
    · exact (hr.dtls addr ha).symm.trans (h.dtls addr ha)
    · obtain ⟨a, ha⟩ := Option.isSome_iff_exists.mp hs
      exact (hr.sctp a ha).symm.trans (h.sctp a ha)
  · intro hk
    refine ⟨⟨fun hn => ?_, fun x hx => ?_⟩, fun addr ha => ?_, fun a ha => ?_⟩
    · have hchecked := h.ice.checked hn
      show A.checks t.ice (candidateOf remote)
      rwa [hk.ice ⟨_, hchecked⟩]
    · exact (h.ice.only x hx).trans (hk.ice ⟨x, hx⟩).symm
    · exact (h.dtls addr ha).trans (hk.dtls ⟨addr, ha⟩).symm
    · exact (h.sctp a ha).trans (hk.sctp (Option.isSome_iff_exists.mpr ⟨a, ha⟩)).symm

theorem onePeer_build {h : BuildHost} {role : Role} {config : TunnelConfig}
    {localAddr : SocketAddr} {nowMs : UInt64} {t : DirectTunnel L}
    (hb : build L h role config localAddr nowMs = .ok t) : t.OnePeer A := by
  obtain ⟨_, _, hb⟩ := bind_ok hb
  obtain ⟨ice₀, hnew, hb⟩ := bind_ok hb
  obtain ⟨prepared, hp, hb⟩ := bind_ok hb
  obtain ⟨certificate, _, hp⟩ := bind_ok hp
  obtain ⟨localFingerprint, _, hp⟩ := bind_ok hp
  obtain ⟨_, _, hp⟩ := bind_ok hp
  cases hp
  obtain ⟨candidates, hc, hb⟩ := bind_ok hb
  obtain ⟨c, _, hc⟩ := bind_ok hc
  obtain ⟨_, _, hc⟩ := bind_ok hc
  obtain ⟨remote, hremote, hc⟩ := bind_ok hc
  obtain ⟨_, hadd, hc⟩ := bind_ok hc
  cases hc
  obtain ⟨_, _, hb⟩ := bind_ok hb
  cases hb
  obtain ⟨hnone, _⟩ := A.iceNew (eq_ok_of_configError hnew)
  obtain ⟨hlocal, _⟩ := A.iceCall (.addLocal ice₀ c)
  obtain ⟨hadded, _⟩ := A.addRemote (eq_ok_of_configError hremote)
    (Prod.ext rfl (eq_ok_of_configError hadd))
  have hice : ChecksOnly A (L.ice.addRemoteCandidate (L.ice.addLocalCandidate ice₀ c).1 remote).1
      (candidateOf config.remote) := by
    refine ⟨fun _ => (hadded _).mpr (.inr rfl), fun x hx => ((hadded x).mp hx).resolve_left ?_⟩
    exact fun hold => hnone x ((hlocal x).mp hold)
  refine ⟨hice.call (.setRemoteCredentials _ _ _), fun addr ha => ?_, fun a ha => by cases ha⟩
  have hserved : A.connection L.dtls.new addr := by
    revert ha
    unfold withCertificate
    dsimp only
    split
    · exact id
    · exact A.setServerConfig _ _ addr
  exact absurd hserved (A.dtlsNew addr)

theorem onePeer_startChecks {t r : DirectTunnel L} (h : t.OnePeer A)
    (hr : t.startChecks = .ok r) : r.OnePeer A := by
  obtain ⟨_, _, hr⟩ := bind_ok hr
  cases hr
  exact ⟨h.ice.call (.startChecks _ _ _ _ _), h.dtls, h.sctp⟩

theorem onePeer_construct {h : BuildHost} {config : TunnelConfig} {localAddr : SocketAddr}
    {nowMs : UInt64} {c : Constructor} {t : DirectTunnel L}
    (hc : construct L h config localAddr nowMs c = .ok t) : t.OnePeer A := by
  obtain ⟨_, _, built, _, hb, ht⟩ := build_of_construct hc
  exact onePeer_startChecks (onePeer_build hb) ht

/-- The condition on a step. -/
def KeepsPeer (A : Addressing L) (t : DirectTunnel L) (op : Op) : Prop :=
  ∀ remote, op = .setRemote remote → t.finished = false → t.KeepsAddress A remote

/-- **All layers address the same peer as long as no `set_remote` changes the address.** -/
theorem onePeer_iff (A : Addressing L) {h : BuildHost} {config : TunnelConfig}
    {localAddr : SocketAddr} {nowMs : UInt64} {c : Constructor} {t : DirectTunnel L}
    (hc : construct L h config localAddr nowMs c = .ok t) (ops : List Op) :
    (∀ front back, ops = front ++ back → (run step t front).finished = false →
      (run step t front).OnePeer A) ↔ Meets step (KeepsPeer A) t ops := by
  refine always_iff_meets (I := fun t : DirectTunnel L => t.finished = false → t.OnePeer A)
    (fun t op hi => ?_) fun _ => onePeer_construct hc
  by_cases hf : t.finished = true
  · have hstep := finished_step op hf
    refine ⟨fun _ remote _ h => ?_, fun _ h => ?_⟩
    · exact absurd (hf.symm.trans h) nofun
    · exact absurd (hstep.symm.trans h) nofun
  · have hf : t.finished = false := Bool.eq_false_iff.mpr hf
    by_cases hop : ∃ remote, op = .setRemote remote
    · obtain ⟨remote, rfl⟩ := hop
      have hset := onePeer_setRemote_iff (hi hf) remote
      refine ⟨fun h r hr _ => ?_, fun h _ => hset.mpr (h remote rfl hf)⟩
      cases hr
      exact hset.mp (h hf)
    · have hne : ∀ remote, op ≠ .setRemote remote := fun remote ho => hop ⟨remote, ho⟩
      exact ⟨fun _ remote ho => absurd ho (hne remote), fun _ _ => onePeer_step hne (hi hf)⟩

end DirectTunnel

namespace Script

open DirectTunnel (construct)

/-- The result of a call, with the note that is kept beside the component. -/
def noting {σ ν β : Type} (r : σ × β) (note : ν) : (σ × ν) × β := ((r.1, note), r.2)

/-- ICE with its remote candidates; a packet from an address makes it one, and an agent that fails
lets them go. -/
def checkingIce : IceApi :=
  { ice with
    Agent := Agent × List CandidateHostConfig
    new := fun now config => (ice.new now config).map fun a => (a, [])
    addLocalCandidate := fun a c => noting (ice.addLocalCandidate a.1 c) a.2
    addRemoteCandidate := fun a (c : CandidateHostConfig) =>
      noting (ice.addRemoteCandidate a.1 c) (a.2 ++ [c])
    setRemoteCredentials := fun a ufrag pwd =>
      noting (ice.setRemoteCredentials a.1 ufrag pwd) a.2
    startConnectivityChecks := fun a now controlling ufrag pwd =>
      noting (ice.startConnectivityChecks a.1 now controlling ufrag pwd) a.2
    remoteCredentials := fun a => ice.remoteCredentials a.1
    localCredentials := fun a => ice.localCredentials a.1
    localCandidates := fun a => ice.localCandidates a.1
    handleRead := fun a now «local» remote datagram =>
      noting (ice.handleRead a.1 now «local» remote datagram) (a.2 ++ [candidateOf remote])
    handleTimeout := fun a now => noting (ice.handleTimeout a.1 now)
      (if (a.1.handleTimeout now).failed then [] else a.2)
    pollTimeout := fun a => ((ice.pollTimeout a.1).1, (ice.pollTimeout a.1).2, a.2)
    events := ice.events.beside _
    writes := ice.writes.beside _
    pairSelected := fun a => ice.pairSelected a.1
    close := fun a => noting (ice.close a.1) a.2 }

/-- DTLS with the addresses its connections were made for. -/
def connectingDtls : DtlsApi :=
  { dtls with
    Endpoint := Dtls × List SocketAddr
    new := (dtls.new, [])
    setServerConfig := fun d config => (dtls.setServerConfig d.1 config, d.2)
    connect := fun d now remote config =>
      noting (dtls.connect d.1 now remote config) (d.2 ++ [remote])
    read := fun d now remote datagram =>
      noting (dtls.read d.1 now remote datagram) (d.2 ++ [remote])
    write := fun d now remote raw => noting (dtls.write d.1 now remote raw) d.2
    handleTimeout := fun d remote now => noting (dtls.handleTimeout d.1 remote now) d.2
    pollTimeout := fun d remote => dtls.pollTimeout d.1 remote
    transmits := dtls.transmits.beside _
    peerCertificates := fun d remote => dtls.peerCertificates d.1 remote }

/-- SCTP with the address an association was made for. -/
def associatingSctp : SctpApi :=
  { sctp with
    Association := Association × SocketAddr
    connect := fun e now config remote =>
      ((sctp.connect e now config remote).1,
        (sctp.connect e now config remote).2.map fun r => (r.1, r.2, remote))
    handle := fun e now remote data =>
      ((sctp.handle e now remote data).1,
        (sctp.handle e now remote data).2.map fun r => (r.1, match r.2 with
          | .newAssociation association => .newAssociation (association, remote)
          | .associationEvent event => .associationEvent event
          | .other => .other))
    events := sctp.events.beside _
    endpointEvents := sctp.endpointEvents.beside _
    handleEvent := fun a event => (sctp.handleEvent a.1 event, a.2)
    hasStream := fun a id => sctp.hasStream a.1 id
    openStream := fun a id ppi => noting (sctp.openStream a.1 id ppi) a.2
    setReliabilityParams := fun a id unordered type value =>
      noting (sctp.setReliabilityParams a.1 id unordered type value) a.2
    readSctp := fun id => (sctp.readSctp id).beside _
    bufferedAmount := fun a id => sctp.bufferedAmount a.1 id
    isWritable := fun a id => sctp.isWritable a.1 id
    writeChunkWithPpi := fun a id data ppi => noting (sctp.writeChunkWithPpi a.1 id data ppi) a.2
    handleTimeout := fun a now => (sctp.handleTimeout a.1 now, a.2)
    pollTimeout := fun a => sctp.pollTimeout a.1
    transmits := fun now => (sctp.transmits now).beside _ }

def addressedLayers : Layers :=
  { layers with ice := checkingIce, dtls := connectingDtls, sctp := associatingSctp }

theorem mem_note {α : Type} {l : List α} {a b : α} : b ∈ l ++ [a] ↔ b ∈ l ∨ b = a :=
  List.mem_append.trans (or_congr_right List.mem_singleton)

theorem failed_events (a : Agent) : (ice.events.poll a).2.failed = a.failed :=
  Source.queue_keeps Agent.eventSlot Agent.failed (fun _ _ => rfl) a

theorem failed_writes (a : Agent) : (ice.writes.poll a).2.failed = a.failed :=
  Source.queue_keeps Agent.writeSlot Agent.failed (fun _ _ => rfl) a

theorem failed_handleRead (a : Agent) (now : Instant) : (a.handleRead now).failed = a.failed := by
  unfold Agent.handleRead
  dsimp only
  split <;> rfl

theorem failed_handleTimeout (a : Agent) (now : Instant) (h : a.failed = true) :
    (a.handleTimeout now).failed = true := by
  unfold Agent.handleTimeout
  split
  · rfl
  · exact h

def addressing : Addressing addressedLayers where
  checks a x := x ∈ a.2
  gaveUp a := a.1.failed = true
  connection d addr := addr ∈ d.2
  peer a := a.2
  iceNew h := by
    cases h
    exact ⟨fun _ => List.not_mem_nil, Bool.false_ne_true⟩
  addRemote hc ha := by
    cases hc
    cases ha
    exact ⟨fun _ => mem_note, Iff.rfl⟩
  iceCall {a _} hc := by
    cases hc with
    | events => exact ⟨fun _ => Iff.rfl, Bool.eq_iff_iff.mp (failed_events a.1)⟩
    | writes => exact ⟨fun _ => Iff.rfl, Bool.eq_iff_iff.mp (failed_writes a.1)⟩
    | _ => exact ⟨fun _ => Iff.rfl, Iff.rfl⟩
  iceRead a now _ _ _ :=
    ⟨fun _ => mem_note.mp, fun _ hx => mem_note.mpr (.inl hx),
      Bool.eq_iff_iff.mp (failed_handleRead a.1 now)⟩
  iceEnd {a _} hc := by
    cases hc with
    | timeout now =>
      by_cases hf : (a.1.handleTimeout now).failed = true
      · have hlost : (checkingIce.handleTimeout a now).1.2 = [] := if_pos hf
        exact ⟨fun x hx => absurd (hlost ▸ hx) List.not_mem_nil, fun _ _ => .inr hf, fun _ => hf⟩
      · have hkept : (checkingIce.handleTimeout a now).1.2 = a.2 := if_neg hf
        refine ⟨fun x hx => hkept ▸ hx, fun x hx => .inl ?_, fun hg => ?_⟩
        · show x ∈ (checkingIce.handleTimeout a now).1.2
          rwa [hkept]
        · exact failed_handleTimeout a.1 now hg
    | close => exact ⟨fun _ => id, fun _ => .inl, id⟩
  dtlsNew _ h := nomatch h
  setServerConfig _ _ _ h := h
  dtlsConnect _ _ _ _ _ h := mem_note.mp h
  dtlsRead _ _ _ _ _ h := mem_note.mp h
  dtlsWrite _ _ _ _ _ h := .inl h
  dtlsTimeout _ _ _ _ h := .inl h
  dtlsTransmits _ _ h := h
  sctpConnect h := by
    cases h
    rfl
  sctpAccept {e now remote datagram e' handle a} h := by
    have hh := congrArg Prod.snd h
    change (sctpHandle e datagram).map _ = _ at hh
    obtain ⟨r, hr, hm⟩ := Option.map_eq_some_iff.mp hh
    obtain ⟨_, event⟩ := r
    cases event with
    | newAssociation association =>
      cases hm
      rfl
    | _ => cases hm
  associationCall h := by
    cases h <;> rfl
  openStream _ _ _ := rfl
  setReliability _ _ _ _ _ := rfl
  writeChunk _ _ _ _ := rfl

theorem build_addressed : (construct addressedLayers host config localAddr 0 .new).isOk = true := by
  decide +kernel

/-- The tunnel that dials over these layers. -/
def addressedDialer : DirectTunnel addressedLayers := Base.okValue _ build_addressed

theorem build_addressedDialer :
    construct addressedLayers host config localAddr 0 .new = .ok addressedDialer :=
  Base.eq_ok_okValue _ build_addressed

theorem remotes_addressedDialer : addressedDialer.ice.2 = [candidateOf remoteAddr] := rfl

/-- Another address of the peer, as an answer may bring it. -/
def learnedAddr : SocketAddr := { remoteAddr with port := 4002 }

end Script

namespace DirectTunnel

/-- ICE goes on checking the address the tunnel was built with. -/
theorem old_address_checked :
    (run step Script.addressedDialer [.setRemote Script.learnedAddr]).finished = false ∧
    Script.addressing.checks (run step Script.addressedDialer [.setRemote Script.learnedAddr]).ice
      (candidateOf Script.remoteAddr) ∧
    ¬ Script.addressing.checks
      (run step Script.addressedDialer [.setRemote Script.learnedAddr]).ice
      (candidateOf Script.learnedAddr) ∧
    ¬ (run step Script.addressedDialer [.setRemote Script.learnedAddr]).OnePeer
      Script.addressing := by
  have hold : candidateOf Script.remoteAddr ∈ Script.addressedDialer.ice.2 := by
    rw [Script.remotes_addressedDialer]
    exact List.mem_singleton_self _
  have hother : candidateOf Script.learnedAddr ≠ candidateOf Script.remoteAddr := by
    intro h
    exact absurd (congrArg CandidateHostConfig.port h) (by decide)
  refine ⟨by decide +kernel, hold, fun hnew => ?_, fun h => ?_⟩
  · have hnew : candidateOf Script.learnedAddr ∈ Script.addressedDialer.ice.2 := hnew
    rw [Script.remotes_addressedDialer] at hnew
    exact hother (List.mem_singleton.mp hnew)
  · exact hother (h.ice.only _ hold).symm

/-- An answer may bring the address that is in use. -/
theorem onePeer_iff_confirmed :
    (run step Script.addressedDialer
      [.receive 1 [0], .setRemote Script.remoteAddr, .receive 2 [22, 7]]).OnePeer
      Script.addressing := by
  refine (onePeer_iff Script.addressing Script.build_addressedDialer
    [.receive 1 [0], .setRemote Script.remoteAddr, .receive 2 [22, 7]]).mpr ?_ _ []
    (List.append_nil _).symm (by decide +kernel)
  refine ⟨nofun, ?_, nofun, trivial⟩
  rintro remote ⟨⟩ _
  exact ⟨fun _ => rfl, fun _ => rfl, fun _ => rfl⟩

end DirectTunnel

end RtcTunnel.Direct
