import RtcTunnel.Direct.Lifecycle
import RtcTunnel.Direct.Script

/-!
# The channel behind `Opened`

The tunnel tries once to open and configure its stream, and opens whatever the
answer. An open tunnel has a configured channel exactly when no call was refused,
and has it on the association in use exactly when that association was never
replaced behind `Connected`.
-/

namespace RtcTunnel.Direct

open RtcTunnel.Core
open RtcTunnel.Base.Run

set_option autoImplicit false

/-- A call that opens or configures the stream. -/
def Entry.isAttempt : Entry → Bool
  | .openStream .. => true
  | .setReliabilityParams .. => true
  | _ => false

/-- Such a call, answered with an error. -/
def Entry.isRefusal : Entry → Bool
  | .openStream _ _ ok => !ok
  | .setReliabilityParams _ _ _ ok => !ok
  | _ => false

namespace Life

/-- The two calls that open and configure the channel, answered with `Ok`. -/
def configuration (s : Life) : List Entry :=
  [.openStream s.streamId .binary true,
    .setReliabilityParams s.unordered s.reliability.1 s.reliability.2 true]

/-- What one attempt leaves in the history. -/
def Attempt (s : Life) (entries : List Entry) : Prop :=
  entries = [.openStream s.streamId .binary false] ∨
    ∃ ok, entries = [.openStream s.streamId .binary true,
      .setReliabilityParams s.unordered s.reliability.1 s.reliability.2 ok]

/-- Neither an attempt nor an opening. -/
def Plain (entries : List Entry) : Prop :=
  ∀ e ∈ entries, e.isAttempt = false ∧ e ≠ .pushed .opened

/-- There is one attempt at most, and the channel opens behind it. -/
inductive Dialing (s : Life) : Prop where
  | not (hd : s.channelDialed = false) (hl : Plain s.log)
  | once (hd : s.channelDialed = true) (before attempt after : List Entry)
      (hl : s.log = before ++ attempt ++ after) (ha : s.Attempt attempt) (hb : Plain before)
      (hn : ∀ e ∈ after, e.isAttempt = false)

theorem plain_append_singleton {l : List Entry} {e : Entry} (hl : Plain l)
    (he : e.isAttempt = false) (ho : e ≠ .pushed .opened) : Plain (l ++ [e]) := by
  intro x hx
  rcases List.mem_append.mp hx with hx | hx
  · exact hl x hx
  · rw [List.mem_singleton.mp hx]
    exact ⟨he, ho⟩

/-- An entry that is neither an attempt nor, before the attempt, an opening. -/
theorem Dialing.record {s r : Life} {e : Entry} (h : s.Dialing) (hl : r.log = s.log ++ [e])
    (he : e.isAttempt = false) (ho : s.channelDialed = false → e ≠ .pushed .opened)
    (hd : r.channelDialed = s.channelDialed) (hc : ∀ entries, s.Attempt entries → r.Attempt entries) : r.Dialing := by
  cases h with
  | not hn hp => exact .not (hd.trans hn) (hl ▸ plain_append_singleton hp he (ho hn))
  | once hn before attempt after hs ha hb hr =>
    refine .once (hd.trans hn) before attempt (after ++ [e]) ?_ (hc _ ha) hb ?_
    · rw [hl, hs, List.append_assoc]
    · intro x hx
      rcases List.mem_append.mp hx with hx | hx
      · exact hr x hx
      · rw [List.mem_singleton.mp hx]
        exact he

theorem Dialing.keep {s r : Life} (h : s.Dialing) (hd : r.channelDialed = s.channelDialed)
    (hl : r.log = s.log) (hc : ∀ entries, s.Attempt entries → r.Attempt entries) : r.Dialing := by
  cases h with
  | not hn hp => exact .not (hd.trans hn) (hl ▸ hp)
  | once hn before attempt after hs ha hb hr =>
    exact .once (hd.trans hn) before attempt after (hl.trans hs) (hc _ ha) hb hr

theorem dialing_attempt {s r : Life} {attempt : List Entry} (h : s.Dialing)
    (hd : s.channelDialed = false) (hr : r.channelDialed = true) (hl : r.log = s.log ++ attempt)
    (ha : r.Attempt attempt) : r.Dialing := by
  cases h with
  | not _ hp => exact .once hr s.log attempt [] (by rw [hl, List.append_nil]) ha hp nofun
  | once hn => exact absurd (hd.symm.trans hn) Bool.false_ne_true

theorem dialing_move (a b : Life) (hm : Move a b) (h : a.Phases ∧ a.Dialing) :
    b.Phases ∧ b.Dialing := by
  refine ⟨phases_move a b hm h.1, ?_⟩
  obtain ⟨hp, h⟩ := h
  cases hm with
  | datagram data => exact h.record rfl rfl (fun _ => nofun) rfl fun _ => id
  | message data _ => exact h.record rfl rfl (fun _ => nofun) rfl fun _ => id
  | serve ok _ => exact h.keep rfl rfl fun _ => id
  | dial remote ok _ => exact h.record rfl rfl (fun _ => nofun) rfl fun _ => id
  | handshake peer => exact h.record rfl rfl (fun _ => nofun) rfl fun _ => id
  | listen _ _ => exact h.keep rfl rfl fun _ => id
  | associate ok _ _ => exact h.record rfl rfl (fun _ => nofun) rfl fun _ => id
  | accept _ => exact h.record rfl rfl (fun _ => nofun) rfl fun _ => id
  | connected _ => exact h.record rfl rfl (fun _ => nofun) rfl fun _ => id
  | dialNothing hc hd ha =>
    rw [hp.connected hc] at ha
    cases ha
  | dialRefused _ hd _ => exact dialing_attempt h hd rfl rfl (.inl rfl)
  | dialAccepted ok _ hd _ =>
    exact dialing_attempt h hd rfl (List.append_assoc _ _ _) (.inr ⟨ok, rfl⟩)
  | «open» _ hd _ =>
    refine h.record rfl rfl (fun hn => ?_) rfl fun _ => id
    rw [hn] at hd
    cases hd
  | finish reason _ _ => exact h.record rfl rfl (fun _ => nofun) rfl fun _ => id
  | write payload ppi _ _ _ => exact h.record rfl rfl (fun _ => nofun) rfl fun _ => id

theorem filter_attempt_nil {l : List Entry} (h : ∀ e ∈ l, e.isAttempt = false) :
    l.filter Entry.isAttempt = [] :=
  List.filter_eq_nil_iff.mpr fun e he => by simp [h e he]

/-- The attempt is all that the history holds of attempts. -/
theorem filter_attempt {s : Life} {before attempt after : List Entry} (ha : s.Attempt attempt)
    (hb : ∀ e ∈ before, e.isAttempt = false) (hn : ∀ e ∈ after, e.isAttempt = false) :
    (before ++ attempt ++ after).filter Entry.isAttempt = attempt := by
  have hself : attempt.filter Entry.isAttempt = attempt := by
    rcases ha with rfl | ⟨ok, rfl⟩ <;> rfl
  rw [List.filter_append, List.filter_append, filter_attempt_nil hb, filter_attempt_nil hn, hself,
    List.nil_append, List.append_nil]

/-- An attempt was answered with `Ok` twice, or ends in a refusal. -/
theorem Attempt.cases {s : Life} {attempt : List Entry} (ha : s.Attempt attempt) :
    attempt = s.configuration ∨ ∃ e, attempt.getLast? = some e ∧ e.isRefusal = true := by
  rcases ha with rfl | ⟨ok, rfl⟩
  · exact .inr ⟨_, rfl, rfl⟩
  · cases ok
    · exact .inr ⟨_, rfl, rfl⟩
    · exact .inl rfl

end Life

namespace DirectTunnel

variable {L : Layers}

theorem dialing_run {h : BuildHost} {config : TunnelConfig} {localAddr : SocketAddr}
    {nowMs : UInt64} {c : Constructor} {t : DirectTunnel L}
    (hc : construct L h config localAddr nowMs c = .ok t) (ops : List Op) :
    (run step t ops).life.Dialing := by
  have hf := fresh_construct hc
  refine (life_invariant (I := fun s => s.Phases ∧ s.Dialing) Life.dialing_move
    ⟨hf.phases, .not hf.channelDialed ?_⟩).2
  rw [hf.log]
  exact nofun

end DirectTunnel

/-- An entry that puts an association in place. -/
def Entry.installs : Entry → Bool
  | .sctpConnect ok => ok
  | .newAssociation => true
  | _ => false

namespace Life

/-- The association in use is the last one installed. -/
inductive Installed (s : Life) : Prop where
  | not (ha : s.association = false) (hl : ∀ e ∈ s.log, e.installs = false)
  | last (ha : s.association = true) (before : List Entry) (install : Entry) (since : List Entry)
      (hl : s.log = before ++ install :: since) (hi : install.installs = true)
      (hn : ∀ e ∈ since, e.installs = false)

/-- How the entries of the history are ordered around `Connected`. -/
structure Lineage (s : Life) : Prop where
  phases : s.Phases
  recorded : s.Recorded
  installed : s.Installed
  dialed : s.log.Pairwise fun a b => a = .sctpConnected → b ≠ .sctpConnect true
  attempts : Precedes (fun e => e = .sctpConnected) (fun e => e.isAttempt = true) s.log

theorem installed_install {s r : Life} {e : Entry} (hl : r.log = s.log ++ [e])
    (he : e.installs = true) (ha : r.association = true) : r.Installed :=
  .last ha s.log e [] hl he nofun

theorem Installed.append {s r : Life} {es : List Entry} (h : s.Installed)
    (hl : r.log = s.log ++ es) (he : ∀ e ∈ es, e.installs = false)
    (ha : r.association = s.association) : r.Installed := by
  cases h with
  | not hs hn =>
    refine .not (ha.trans hs) ?_
    rw [hl]
    intro x hx
    exact (List.mem_append.mp hx).elim (hn x) (he x)
  | last hs before install since hs' hi hn =>
    refine .last (ha.trans hs) before install (since ++ es) ?_ hi ?_
    · rw [hl, hs', List.append_assoc]
      rfl
    · intro x hx
      exact (List.mem_append.mp hx).elim (hn x) (he x)

theorem dialed_append {l es : List Entry}
    (h : l.Pairwise fun a b => a = .sctpConnected → b ≠ .sctpConnect true)
    (he : ∀ e ∈ es, e ≠ .sctpConnect true) :
    (l ++ es).Pairwise fun a b => a = .sctpConnected → b ≠ .sctpConnect true := by
  refine List.pairwise_append.mpr ⟨h, ?_, fun _ _ b hb _ => he b hb⟩
  exact List.pairwise_iff_forall_sublist.mpr fun hs _ =>
    he _ (hs.subset (List.mem_cons_of_mem _ (List.mem_cons_self ..)))

/-- Entries that neither install nor attempt. -/
theorem Lineage.append {s r : Life} {es : List Entry} (h : s.Lineage) (hm : Move s r)
    (hl : r.log = s.log ++ es) (ha : r.association = s.association)
    (he : ∀ e ∈ es, e.installs = false ∧ (e.isAttempt = false ∨ .sctpConnected ∈ s.log)) :
    r.Lineage where
  phases := phases_move s r hm h.phases
  recorded := recorded_move s r hm h.recorded
  installed := h.installed.append hl (fun e hm => (he e hm).1) ha
  dialed := by
    rw [hl]
    refine dialed_append h.dialed fun e hm heq => ?_
    have hi := (he e hm).1
    rw [heq] at hi
    cases hi
  attempts := by
    rw [hl]
    by_cases hc : .sctpConnected ∈ s.log
    · exact precedes_append h.attempts (.inr ⟨_, hc, rfl⟩)
    · refine precedes_append h.attempts (.inl (precedes_of_forall fun e hm hat => ?_))
      rcases (he e hm).2 with hf | hc'
      · rw [hf] at hat
        cases hat
      · exact hc hc'

theorem lineage_move (a b : Life) (hm : Move a b) (h : a.Lineage) : b.Lineage := by
  have keep : ∀ e : Entry, b.log = a.log ++ [e] → b.association = a.association →
      e.installs = false → e.isAttempt = false → b.Lineage := by
    intro e hl ha hi hat
    refine h.append hm hl ha fun x hx => ?_
    rw [List.mem_singleton.mp hx]
    exact ⟨hi, .inl hat⟩
  have same : b.log = a.log → b.association = a.association → b.Lineage := by
    intro hl ha
    exact h.append hm (hl.trans (List.append_nil _).symm) ha nofun
  have install : ∀ e : Entry, b.log = a.log ++ [e] → b.association = true →
      e.installs = true → e.isAttempt = false → (e = .sctpConnect true → .sctpConnected ∉ a.log) →
      b.Lineage := by
    intro e hl ha hi hat hfirst
    refine ⟨phases_move a b hm h.phases, recorded_move a b hm h.recorded,
      installed_install hl hi ha, ?_, ?_⟩
    · rw [hl]
      refine List.pairwise_append.mpr ⟨h.dialed, List.pairwise_singleton _ _, ?_⟩
      rintro x hx y hy rfl rfl
      exact hfirst (List.mem_singleton.mp hy).symm hx
    · rw [hl]
      refine precedes_append h.attempts (.inl (precedes_of_forall fun x hx => ?_))
      rw [List.mem_singleton.mp hx, hat]
      exact Bool.false_ne_true
  cases hm with
  | datagram data => exact keep _ rfl rfl rfl rfl
  | message data _ => exact keep _ rfl rfl rfl rfl
  | serve ok _ => exact same rfl rfl
  | dial remote ok _ => exact keep _ rfl rfl rfl rfl
  | handshake peer => exact keep _ rfl rfl rfl rfl
  | listen _ _ => exact same rfl rfl
  | associate ok hd he =>
    have ha : a.association = false := by
      cases ha : a.association with
      | false => rfl
      | true =>
        have he' := h.phases.association ha
        rw [he] at he'
        cases he'
    cases ok with
    | true =>
      refine install _ rfl rfl rfl rfl fun _ hc => ?_
      have hc' := h.phases.connected (h.recorded.connected.mpr hc)
      rw [ha] at hc'
      cases hc'
    | false => exact keep (.sctpConnect false) rfl rfl rfl rfl
  | accept _ => exact install _ rfl rfl rfl rfl nofun
  | connected _ => exact keep _ rfl rfl rfl rfl
  | dialNothing _ _ _ => exact same rfl rfl
  | dialRefused hc _ _ =>
    refine h.append (.dialRefused a hc ‹_› ‹_›) rfl rfl fun x hx => ?_
    rw [List.mem_singleton.mp hx]
    exact ⟨rfl, .inr (h.recorded.connected.mp hc)⟩
  | dialAccepted ok hc _ _ =>
    refine h.append (.dialAccepted a ok hc ‹_› ‹_›) (List.append_assoc _ _ _) rfl fun x hx => ?_
    rcases List.mem_append.mp hx with hx | hx
    · rw [List.mem_singleton.mp hx]
      exact ⟨rfl, .inr (h.recorded.connected.mp hc)⟩
    · rw [List.mem_singleton.mp hx]
      exact ⟨rfl, .inr (h.recorded.connected.mp hc)⟩
  | «open» _ _ _ => exact keep _ rfl rfl rfl rfl
  | finish reason _ _ => exact keep _ rfl rfl rfl rfl
  | write payload ppi _ _ _ => exact keep _ rfl rfl rfl rfl

theorem Fresh.lineage {s : Life} (h : s.Fresh) : s.Lineage where
  phases := h.phases
  recorded := h.recorded
  installed := .not h.association (h.log ▸ nofun)
  dialed := h.log ▸ List.Pairwise.nil
  attempts := h.log ▸ precedes_nil

end Life

namespace DirectTunnel

variable {L : Layers}

/-- The association in use, the last one installed, is the one whose `Connected`
was the first and on which the stream was opened. -/
def OneAssociation (t : DirectTunnel L) : Prop :=
  ∃ before install since, t.log = before ++ install :: since ∧ install.installs = true ∧
    (∀ e ∈ since, e.installs = false) ∧ .sctpConnected ∉ before ∧ .sctpConnected ∈ since ∧
    .openStream t.streamId .binary true ∈ since

/-- No association was reported behind `Connected`, and `open_stream` was not refused. -/
structure Undisturbed (t : DirectTunnel L) : Prop where
  alone : t.log.Pairwise fun a b => a = .sctpConnected → b ≠ .newAssociation
  opened : .openStream t.streamId .binary false ∉ t.log

theorem lineage_run {h : BuildHost} {config : TunnelConfig} {localAddr : SocketAddr}
    {nowMs : UInt64} {c : Constructor} {t : DirectTunnel L}
    (hc : construct L h config localAddr nowMs c = .ok t) (ops : List Op) :
    (run step t ops).life.Lineage :=
  life_invariant Life.lineage_move (fresh_construct hc).lineage

/-- The one attempt of an open tunnel. -/
theorem attempt_of_opened {t : DirectTunnel L} (hp : t.life.Phases) (hd : t.life.Dialing)
    (ho : t.opened = true) :
    ∃ attempt, t.log.filter Entry.isAttempt = attempt ∧ t.life.Attempt attempt := by
  cases hd with
  | not hn _ =>
    rw [hp.opened ho] at hn
    cases hn
  | once _ before attempt after hl ha hb hna =>
    have hl : t.log = before ++ attempt ++ after := hl
    exact ⟨attempt, by rw [hl, Life.filter_attempt ha (fun e he => (hb e he).1) hna], ha⟩

theorem oneAssociation_of_undisturbed {t : DirectTunnel L} (hlin : t.life.Lineage)
    (hd : t.life.Dialing) (ho : t.opened = true) (hu : t.Undisturbed) : t.OneAssociation := by
  have hconn : t.life.sctpConnected = true :=
    hlin.phases.dialed (hlin.phases.opened ho)
  have hmem : .sctpConnected ∈ t.log := hlin.recorded.connected.mp hconn
  obtain ⟨attempt, hf, ha⟩ := attempt_of_opened hlin.phases hd ho
  have hopen : .openStream t.streamId .binary true ∈ t.log := by
    rcases ha with rfl | ⟨ok, rfl⟩
    · have hr : .openStream t.streamId .binary false ∈ t.log.filter Entry.isAttempt :=
        hf ▸ List.mem_singleton_self _
      exact absurd (List.mem_filter.mp hr).1 hu.opened
    · have hr : .openStream t.streamId .binary true ∈ t.log.filter Entry.isAttempt :=
        hf ▸ List.mem_cons_self ..
      exact (List.mem_filter.mp hr).1
  cases hlin.installed with
  | not hn _ =>
    rw [hlin.phases.connected hconn] at hn
    cases hn
  | last _ before install since hl hi hn =>
    have hl : t.log = before ++ install :: since := hl
    have hbefore : .sctpConnected ∉ before := by
      intro hb
      have halone := hu.alone
      have hdial : t.log.Pairwise fun a b => a = .sctpConnected → b ≠ .sctpConnect true :=
        hlin.dialed
      rw [hl] at halone hdial
      have halone := (List.pairwise_append.mp halone).2.2 _ hb _ (List.mem_cons_self ..) rfl
      have hdial := (List.pairwise_append.mp hdial).2.2 _ hb _ (List.mem_cons_self ..) rfl
      cases install with
      | sctpConnect ok =>
        cases ok
        · cases hi
        · exact hdial rfl
      | newAssociation => exact halone rfl
      | _ => cases hi
    have hbehind : ∀ e : Entry, e ∈ t.log → e ∉ before → e.installs = false → e ∈ since := by
      intro e he hb hei
      rw [hl] at he
      rcases List.mem_append.mp he with he | he
      · exact absurd he hb
      · rcases List.mem_cons.mp he with rfl | he
        · rw [hi] at hei
          cases hei
        · exact he
    refine ⟨before, install, since, hl, hi, hn, hbefore, hbehind _ hmem hbefore rfl,
      hbehind _ hopen (fun hb => ?_) rfl⟩
    have hatt : Precedes (fun e => e = .sctpConnected) (fun e => e.isAttempt = true) t.log :=
      hlin.attempts
    rw [hl] at hatt
    exact hatt.of_append.not_mem_of_forall (fun e he heq => hbefore (heq ▸ he)) _ hb rfl

theorem undisturbed_of_oneAssociation {t : DirectTunnel L} (hp : t.life.Phases)
    (hd : t.life.Dialing) (ho : t.opened = true) (h : t.OneAssociation) : t.Undisturbed := by
  obtain ⟨before, install, since, hl, hi, hn, hbefore, _, hopen⟩ := h
  constructor
  · rw [hl]
    refine List.pairwise_append.mpr ⟨?_, List.pairwise_cons.mpr ⟨?_, ?_⟩, ?_⟩
    · exact List.pairwise_iff_forall_sublist.mpr fun hs heq _ =>
        hbefore (heq ▸ hs.subset (List.mem_cons_self ..))
    · rintro b hb rfl
      cases hi
    · refine List.pairwise_iff_forall_sublist.mpr fun hs _ heq => ?_
      have hb := hn _ (hs.subset (List.mem_cons_of_mem _ (List.mem_cons_self ..)))
      rw [heq] at hb
      cases hb
    · intro a ha b _ heq
      exact absurd (heq ▸ ha) hbefore
  · intro hrefused
    obtain ⟨attempt, hf, ha⟩ := attempt_of_opened hp hd ho
    have hlog : .openStream t.streamId .binary true ∈ t.log := by
      rw [hl]
      exact List.mem_append_right _ (List.mem_cons_of_mem _ hopen)
    have hyes : .openStream t.streamId .binary true ∈ attempt :=
      hf ▸ List.mem_filter.mpr ⟨hlog, rfl⟩
    have hno : .openStream t.streamId .binary false ∈ attempt :=
      hf ▸ List.mem_filter.mpr ⟨hrefused, rfl⟩
    rcases ha with rfl | ⟨ok, rfl⟩
    · simp at hyes
    · simp at hno

/-- **An open tunnel uses the association it opened its channel on exactly when no
association was reported behind `Connected` and `open_stream` was answered.** -/
theorem one_association {h : BuildHost} {config : TunnelConfig} {localAddr : SocketAddr}
    {nowMs : UInt64} {c : Constructor} {t : DirectTunnel L}
    (hc : construct L h config localAddr nowMs c = .ok t) (ops : List Op)
    (ho : (run step t ops).opened = true) :
    (run step t ops).OneAssociation ↔ (run step t ops).Undisturbed :=
  ⟨undisturbed_of_oneAssociation (phases_run hc ops) (dialing_run hc ops) ho,
    oneAssociation_of_undisturbed (lineage_run hc ops) (dialing_run hc ops) ho⟩

/-- The channel of a tunnel that was offered one association. -/
theorem one_association_listener : (run step Script.listener
    [.receive 1 [0], .receive 2 [22, 7], .receive 3 [23, 1], .receive 4 [23, 2]]).OneAssociation :=
  (one_association Script.build_listener _ (by decide +kernel)).mpr
    ⟨by decide +kernel, by decide +kernel⟩

/-- A second INIT behind the open channel. -/
def secondInit : List Op :=
  [.receive 1 [0], .receive 2 [22, 7], .receive 3 [23, 1], .receive 4 [23, 2], .receive 5 [23, 1]]

/-- The tunnel stays open over an association on which nothing was opened. -/
theorem association_replaced :
    ∃ t, construct Script.layers Script.host Script.config Script.localAddr 0
        (.answerer Script.offer) = .ok t ∧
      (run step t secondInit).opened = true ∧ (run step t secondInit).finished = false ∧
      (run step t secondInit).association.map Script.Association.streams = some [] ∧
      ¬ (run step t secondInit).OneAssociation := by
  have hrun : (run step Script.listener secondInit).opened = true ∧
      (run step Script.listener secondInit).finished = false ∧
      (run step Script.listener secondInit).association.map Script.Association.streams = some [] ∧
      (run step Script.listener secondInit).log.getLast? = some .newAssociation := by
    decide +kernel
  obtain ⟨ho, hf, hs, hlast⟩ := hrun
  refine ⟨Script.listener, Script.build_listener, ho, hf, hs, ?_⟩
  rintro ⟨before, install, since, hl, _, hn, _, _, hopen⟩
  cases hsince : since using List.reverseRecOn with
  | nil =>
    rw [hsince] at hopen
    cases hopen
  | append_singleton since last _ =>
    have hlog : (run step Script.listener secondInit).log =
        (before ++ install :: since) ++ [last] := by
      rw [hl, hsince]
      simp
    rw [hlog, List.getLast?_concat] at hlast
    have heq : last = .newAssociation := Option.some.inj hlast
    have hi := hn last (hsince ▸ by simp)
    rw [heq] at hi
    cases hi

end DirectTunnel

end RtcTunnel.Direct
