import RtcTunnel.Direct.Lifecycle
import RtcTunnel.Direct.Script
import RtcTunnel.Direct.Touches

/-!
# The send buffer and its cap

`send` checks the length of the message against the cap and writes its encoding,
which is a byte longer when the message is empty. The buffer stays within the cap
as long as no empty message is written into a full buffer.
-/

namespace RtcTunnel.Direct

open RtcTunnel.Core
open RtcTunnel.Base.Poll (Source)
open RtcTunnel.Base.Run

set_option autoImplicit false

/-- **What is assumed of `rtc-sctp`**: a write that succeeds raises the buffered amount of
its stream by the bytes written, nothing else raises it, and an association starts with
nothing buffered. -/
structure BuffersWrites (S : SctpApi) where
  buffered : S.Association → UInt16 → Nat
  reads : ∀ a id, S.hasStream a id = true → S.bufferedAmount a id = .ok (buffered a id)
  written : ∀ a id payload ppi, (S.writeChunkWithPpi a id payload ppi).2.isOk = true →
    buffered (S.writeChunkWithPpi a id payload ppi).1 id = buffered a id + payload.length
  refused : ∀ a id payload ppi, (S.writeChunkWithPpi a id payload ppi).2.isOk = false →
    buffered (S.writeChunkWithPpi a id payload ppi).1 id ≤ buffered a id
  falls : ∀ a b, AssociationCall S a b → ∀ id, buffered b id ≤ buffered a id
  openStream : ∀ a id ppi, buffered (S.openStream a id ppi).1 id ≤ buffered a id
  setReliability : ∀ a id unordered type value,
    buffered (S.setReliabilityParams a id unordered type value).1 id ≤ buffered a id
  connect : ∀ e now config remote e' handle a,
    S.connect e now config remote = (e', .ok (handle, a)) → ∀ id, buffered a id = 0
  accept : ∀ e now remote datagram e' handle a,
    S.handle e now remote datagram = (e', some (handle, .newAssociation a)) →
      ∀ id, buffered a id = 0

namespace DirectTunnel

variable {L : Layers}

/-- An empty message is about to be written into a full buffer. -/
def Overfills (t : DirectTunnel L) : Op → Prop
  | .send data => data = [] ∧ t.bufferedBytes = t.sendBufferCap ∧
      ∃ association, t.Sendable association data ∧
        (t.writeMessage association data).2.isOk = true
  | _ => False

/-- The cap is set before the channel opens. -/
def CapFirst (t : DirectTunnel L) : Op → Prop
  | .setSendBufferCap _ => t.opened = false
  | _ => True

variable (B : BuffersWrites L.sctp)

/-- What is buffered for the channel, whether or not its stream is there yet. -/
def bufferedFor (t : DirectTunnel L) : Nat :=
  (t.association.map (B.buffered · t.streamId)).getD 0

variable {B}

theorem bufferedBytes_le (t : DirectTunnel L) : t.bufferedBytes ≤ t.bufferedFor B := by
  unfold bufferedBytes bufferedFor
  cases t.association with
  | none => exact Nat.zero_le _
  | some association =>
    dsimp only
    split
    · rename_i hs
      rw [B.reads _ _ hs]
      exact le_rfl
    · exact Nat.zero_le _

theorem bufferedBytes_sendable {t : DirectTunnel L} {association : L.sctp.Association}
    {data : Bytes} (h : t.Sendable association data) :
    t.bufferedBytes = B.buffered association t.streamId ∧
      B.buffered association t.streamId + data.length ≤ t.sendBufferCap := by
  have hroom := h.room
  rw [B.reads _ _ h.stream] at hroom
  refine ⟨?_, hroom⟩
  rw [bufferedBytes, h.current]
  dsimp only
  rw [if_pos h.stream, B.reads _ _ h.stream]
  rfl

theorem length_encodeMessage {data : Bytes} (h : data ≠ []) :
    (encodeMessage data).2.length = data.length := by
  cases data with
  | nil => exact absurd rfl h
  | cons b data => rfl

/-- **The encoding of a message that was let through exceeds the cap exactly when the
message is empty and the buffer is full.** -/
theorem exceeds_iff {t : DirectTunnel L} {association : L.sctp.Association} {data : Bytes}
    (h : t.Sendable association data) (hw : (t.writeMessage association data).2.isOk = true) :
    t.sendBufferCap < B.buffered (t.writeMessage association data).1 t.streamId ↔
      data = [] ∧ t.bufferedBytes = t.sendBufferCap := by
  obtain ⟨hb, hroom⟩ := bufferedBytes_sendable (B := B) h
  rw [writeMessage, B.written _ _ _ _ hw, hb]
  by_cases hd : data = []
  · subst hd
    show _ < _ + 1 ↔ _
    rw [List.length_nil] at hroom
    constructor
    · intro hlt
      exact ⟨rfl, by omega⟩
    · rintro ⟨_, he⟩
      omega
  · rw [length_encodeMessage hd]
    constructor
    · intro hlt
      omega
    · rintro ⟨he, _⟩
      exact absurd he hd

variable (B) in
/-- The buffer is within the cap, and empty before the channel opens. -/
structure WithinCap (t : DirectTunnel L) : Prop where
  within : t.bufferedFor B ≤ t.sendBufferCap
  unopened : t.opened = false → t.bufferedFor B = 0

theorem WithinCap.falls {t r : DirectTunnel L} (h : t.WithinCap B)
    (hb : r.bufferedFor B ≤ t.bufferedFor B) (hc : r.sendBufferCap = t.sendBufferCap)
    (ho : r.opened = false → t.opened = false) : r.WithinCap B :=
  ⟨hc ▸ hb.trans h.within, fun hr => Nat.le_zero.mp ((h.unopened (ho hr)) ▸ hb)⟩

theorem bufferedFor_next {t : DirectTunnel L} {association next : L.sctp.Association}
    (ha : t.association = some association)
    (hn : B.buffered next t.streamId ≤ B.buffered association t.streamId) :
    B.buffered next t.streamId ≤ t.bufferedFor B := by
  rw [bufferedFor, ha]
  exact hn

theorem withinCap_touch {t r : DirectTunnel L} (hc : Touch t r) (h : t.WithinCap B) :
    r.WithinCap B := by
  cases hc with
  | sctpConnect endpoint handle association hr hd he hcon =>
    refine h.falls ?_ rfl id
    exact (B.connect _ _ _ _ _ _ _ hcon _).le.trans (Nat.zero_le _)
  | accept handle association hr =>
    obtain ⟨endpoint, endpoint', now, datagram, _, hh⟩ := hr
    refine h.falls ?_ rfl id
    exact (B.accept _ _ _ _ _ _ _ hh _).le.trans (Nat.zero_le _)
  | association association next ha hcall =>
    exact h.falls (bufferedFor_next ha (B.falls _ _ hcall _)) rfl id
  | openStream association next ok hcon hd ha hn hok =>
    exact h.falls (bufferedFor_next ha (hn ▸ B.openStream _ _ _)) rfl id
  | setReliability association next ok hd ha hn =>
    exact h.falls (bufferedFor_next ha (hn ▸ B.setReliability _ _ _ _ _)) rfl id
  | «open» hcon hd ho => exact ⟨h.within, nofun⟩
  | _ => exact h.falls le_rfl rfl id

theorem withinCap_step (t : DirectTunnel L) (op : Op) (h : t.WithinCap B) (hcap : t.CapFirst op)
    (hfit : ¬ t.Overfills op) : (t.step op).WithinCap B := by
  cases hs : op.isSetting with
  | false =>
    refine step_keeps_touch (fun _ _ => withinCap_touch) (fun data w ho hw h => ?_) hs h
    cases hw with
    | refused association hs hok => exact h.falls (bufferedFor_next hs.current (B.refused _ _ _ _ hok)) rfl id
    | accepted association hs hok =>
      refine ⟨?_, fun hn => absurd (hs.opened.symm.trans hn) nofun⟩
      show B.buffered _ _ ≤ t.sendBufferCap
      by_contra hlt
      obtain ⟨hd, hb⟩ := (exceeds_iff hs hok).mp (Nat.lt_of_not_le hlt)
      apply hfit
      rw [ho]
      exact ⟨hd, hb, association, hs, hok⟩
  | true =>
    cases op with
    | setSendBufferCap cap =>
      have hz : t.bufferedFor B = 0 := h.unopened hcap
      exact ⟨hz.le.trans (Nat.zero_le _), fun _ => hz⟩
    | applyRemoteAnswerSdp sdp =>
      rw [step, applyRemoteAnswerSdp]
      split <;> exact h.falls le_rfl rfl id
    | setRemote remote => exact h.falls le_rfl rfl id
    | setRemoteIceCredentials ufrag pwd => exact h.falls le_rfl rfl id
    | _ => cases hs

theorem withinCap_construct {h : BuildHost} {config : TunnelConfig} {localAddr : SocketAddr}
    {nowMs : UInt64} {c : Constructor} {t : DirectTunnel L}
    (hc : construct L h config localAddr nowMs c = .ok t) : t.WithinCap B := by
  obtain ⟨_, _, role, _, _, _, certificate, fingerprint, rfl⟩ := built_construct hc
  exact ⟨Nat.zero_le _, fun _ => rfl⟩

/-- **The send buffer stays within its cap** in every run that sets the cap before the
channel opens and writes no empty message into a full buffer. -/
theorem within_cap (B : BuffersWrites L.sctp) {h : BuildHost} {config : TunnelConfig}
    {localAddr : SocketAddr} {nowMs : UInt64} {c : Constructor} {t : DirectTunnel L}
    (hc : construct L h config localAddr nowMs c = .ok t) {ops : List Op}
    (hcap : Meets step CapFirst t ops)
    (hfit : Meets step (fun t op => ¬ t.Overfills op) t ops) :
    (run step t ops).bufferedBytes ≤ (run step t ops).sendBufferCap := by
  have hw : (run step t ops).WithinCap B := by
    have hboth : Meets step (fun t op => t.CapFirst op ∧ ¬ t.Overfills op) t ops :=
      hcap.and hfit
    exact invariant_of_meets (fun t op h hm => withinCap_step t op h hm.1 hm.2)
      (withinCap_construct hc) hboth
  exact (bufferedBytes_le _).trans hw.within

end DirectTunnel

namespace Script

theorem buffered_arrive (a : Association) (message : Ppi × Option Bytes) :
    (a.arrive message).buffered = a.buffered := by
  unfold Association.arrive
  split <;> rfl

theorem buffered_handleEvent (a : Association) (chunks : Bytes) :
    (a.handleEvent chunks).buffered = a.buffered := by
  fun_induction Association.handleEvent a chunks with
  | case1 a rest ih => exact ih
  | case2 a b rest ih => exact ih.trans (buffered_arrive a _)
  | case3 a rest ih => exact ih
  | case4 a rest ih => exact ih.trans (buffered_arrive a _)
  | case5 a rest ih => exact ih
  | case6 a => rfl

theorem buffered_call {a b : sctp.Association} (hc : AssociationCall sctp a b) :
    Association.buffered b = Association.buffered a := by
  cases hc with
  | events => exact Source.queue_keeps Association.eventSlot Association.buffered (fun _ _ => rfl) a
  | endpointEvents => rfl
  | handleEvent _ chunks => exact buffered_handleEvent a chunks
  | readSctp id =>
    show ((ite _ _ _ : Source Association _).poll a).2.buffered = _
    split
    · exact Source.queue_keeps Association.inboxSlot Association.buffered (fun _ _ => rfl) a
    · rfl
  | transmits now =>
    exact Source.queue_keeps Association.transmitSlot Association.buffered (fun _ _ => rfl) a
  | handleTimeout now => rfl

theorem buffered_openStream (a : Association) (id : UInt16) :
    (a.openStream id).1.buffered = a.buffered := by
  unfold Association.openStream
  split <;> rfl

theorem buffered_accepted {e e' : Bool} {datagram : Bytes} {a : Association}
    (h : (e, sctpHandle e datagram) = (e', some ((), .newAssociation a))) : a.buffered = 0 := by
  obtain ⟨_, h⟩ := Prod.mk.inj h
  unfold sctpHandle at h
  split at h
  · split at h
    · cases h
      exact buffered_handleEvent _ _
    · cases h
  · cases h

/-- What the scripted association has written stays buffered. -/
def buffersWrites : BuffersWrites sctp where
  buffered a _ := a.buffered
  reads _ _ _ := rfl
  written _ _ _ _ _ := rfl
  refused _ _ _ _ h := absurd h nofun
  falls _ _ hc _ := (buffered_call hc).le
  openStream a id _ := (buffered_openStream a id).le
  setReliability _ _ _ _ _ := le_rfl
  connect _ _ _ _ _ _ _ h _ := by
    cases h
    rfl
  accept _ _ _ _ _ _ _ h _ := buffered_accepted h

/-- A channel opened with room for one byte, into which one byte is sent. -/
def filling : List DirectTunnel.Op :=
  [.setSendBufferCap 1, .receive 1 [0], .receive 2 [22, 7], .receive 3 [23, 2], .send [7]]

end Script

namespace DirectTunnel

variable {L : Layers}

theorem not_overfills {t : DirectTunnel L} {op : Op} (h : op ≠ .send []) : ¬ t.Overfills op := by
  intro ho
  cases op with
  | send data => exact h (congrArg Op.send ho.1)
  | _ => exact ho

theorem within_cap_filling : (run step Script.dialer Script.filling).bufferedBytes ≤
    (run step Script.dialer Script.filling).sendBufferCap := by
  have hcap : Meets step CapFirst Script.dialer Script.filling :=
    ⟨rfl, trivial, trivial, trivial, trivial, trivial⟩
  have hfit : Meets step (fun t op => ¬ t.Overfills op) Script.dialer Script.filling :=
    ⟨not_overfills nofun, not_overfills nofun, not_overfills nofun, not_overfills nofun,
      not_overfills nofun, trivial⟩
  exact within_cap (L := Script.layers) Script.buffersWrites Script.build_dialer hcap hfit

/-- An empty message is let into a full buffer. -/
theorem cap_exceeded :
    ∃ t, construct Script.layers Script.host Script.config Script.localAddr 0 .new = .ok t ∧
      Meets step CapFirst t (Script.filling ++ [.send []]) ∧
      (run step t Script.filling).bufferedBytes = 1 ∧
      ¬ (run step t (Script.filling ++ [.send []])).bufferedBytes ≤
        (run step t (Script.filling ++ [.send []])).sendBufferCap := by
  refine ⟨Script.dialer, Script.build_dialer, ?_, by decide +kernel, by decide +kernel⟩
  exact ⟨rfl, trivial, trivial, trivial, trivial, trivial, trivial⟩

end DirectTunnel

end RtcTunnel.Direct
