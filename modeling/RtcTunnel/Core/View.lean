import RtcTunnel.Core.Tunnel

/-!
# A tunnel as its host knows it

Whichever backend a tunnel has, its host sees two flags and a queue. A call into the
tunnel adds to the queue, and raises a flag only together with the event that tells of it.
-/

namespace RtcTunnel.Core

set_option autoImplicit false

/-- An event that ends the wait for the channel. -/
def Event.settles : Event → Bool
  | .opened => true
  | .closed _ => true
  | _ => false

structure View where
  opened : Bool
  finished : Bool
  queue : List Event

namespace View

/-- What a call leaves: more events, with one `opened` and one `closed` for each flag that
went up. -/
def Grows (a b : View) : Prop :=
  ∃ es, b.queue = a.queue ++ es ∧ a.opened.toNat + es.count .opened = b.opened.toNat ∧
    a.finished.toNat + es.countP Event.isClosed = b.finished.toNat

variable {a b c : View}

theorem Grows.refl (a : View) : a.Grows a := ⟨[], (List.append_nil _).symm, rfl, rfl⟩

theorem Grows.of_eq (h : b = a) : a.Grows b := h ▸ .refl a

theorem Grows.trans (h : a.Grows b) (h' : b.Grows c) : a.Grows c := by
  obtain ⟨es, hq, ho, hf⟩ := h
  obtain ⟨fs, hq', ho', hf'⟩ := h'
  refine ⟨es ++ fs, by rw [hq', hq, List.append_assoc], ?_, ?_⟩
  · rw [List.count_append, ← Nat.add_assoc, ho, ho']
  · rw [List.countP_append, ← Nat.add_assoc, hf, hf']

/-- Events that tell of no flag. -/
theorem grows_append (a : View) {es : List Event} (h : ∀ e ∈ es, e.settles = false) :
    a.Grows { a with queue := a.queue ++ es } := by
  refine ⟨es, rfl, ?_, ?_⟩
  · rw [List.count_eq_zero.mpr fun hm => absurd (h _ hm) (by decide)]
    rfl
  · have hnone : ∀ e ∈ es, ¬ e.isClosed = true := by
      intro e hm hc
      cases e with
      | closed reason =>
        have hs : true = false := h _ hm
        cases hs
      | _ => cases hc
    rw [List.countP_eq_zero.mpr hnone]
    rfl

theorem settles_datagrams (ds : List Bytes) :
    ∀ e ∈ ds.map Event.sendDatagram, e.settles = false := by
  intro e he
  obtain ⟨_, _, rfl⟩ := List.mem_map.mp he
  rfl

theorem settles_messages (ms : List Bytes) : ∀ e ∈ ms.map Event.message, e.settles = false := by
  intro e he
  obtain ⟨_, _, rfl⟩ := List.mem_map.mp he
  rfl

theorem grows_open (h : a.opened = false) :
    a.Grows { a with opened := true, queue := a.queue ++ [.opened] } :=
  ⟨[.opened], rfl, by rw [h]; rfl, rfl⟩

theorem grows_finish (h : a.finished = false) (reason : CloseReason) :
    a.Grows { a with finished := true, queue := a.queue ++ [.closed reason] } :=
  ⟨[.closed reason], rfl, rfl, by rw [h]; rfl⟩

/-- A flag that is up stays up. -/
theorem Grows.forward (h : a.Grows b) :
    (a.opened = true → b.opened = true) ∧ (a.finished = true → b.finished = true) := by
  obtain ⟨es, _, ho, hf⟩ := h
  have hb := Bool.toNat_le b.opened
  have hb' := Bool.toNat_le b.finished
  refine ⟨fun ha => ?_, fun ha => ?_⟩
  · rw [ha, Bool.toNat_true] at ho
    exact Bool.toNat_eq_one.mp (by omega)
  · rw [ha, Bool.toNat_true] at hf
    exact Bool.toNat_eq_one.mp (by omega)

/-- Neither flag is up, and no event that tells of one is on its way. -/
structure Waiting (a : View) : Prop where
  opened : a.opened = false
  finished : a.finished = false
  queue : ∀ e ∈ a.queue, e.settles = false

/-- An event that ends the wait is in the queue. -/
def Announced (a : View) : Prop := ∃ e ∈ a.queue, e.settles = true

theorem Grows.announced (h : a.Grows b) (ha : a.Announced) : b.Announced := by
  obtain ⟨es, hq, _⟩ := h
  obtain ⟨e, he, hs⟩ := ha
  exact ⟨e, hq ▸ List.mem_append_left es he, hs⟩

/-- A flag that goes up announces itself. -/
theorem Grows.told (h : a.Grows b) (ho : a.opened = false) (hf : a.finished = false)
    (hb : b.opened = true ∨ b.finished = true) : b.Announced := by
  obtain ⟨es, hq, hopen, hclosed⟩ := h
  rw [ho, Bool.toNat_false, Nat.zero_add] at hopen
  rw [hf, Bool.toNat_false, Nat.zero_add] at hclosed
  rcases hb with hb | hb
  · rw [hb, Bool.toNat_true] at hopen
    have hm : .opened ∈ es := List.one_le_count_iff.mp (Nat.le_of_eq hopen.symm)
    exact ⟨.opened, hq ▸ List.mem_append_right _ hm, rfl⟩
  · rw [hb, Bool.toNat_true] at hclosed
    obtain ⟨e, hm, he⟩ := List.countP_pos_iff.mp (Nat.lt_of_lt_of_eq Nat.zero_lt_one hclosed.symm)
    refine ⟨e, hq ▸ List.mem_append_right _ hm, ?_⟩
    cases e with
    | closed reason => rfl
    | _ => cases he

/-- The wait goes on, or its end is announced. -/
theorem Grows.waiting (h : a.Grows b) (ha : a.Waiting) : b.Waiting ∨ b.Announced := by
  by_cases hb : b.opened = true ∨ b.finished = true
  · exact .inr (h.told ha.opened ha.finished hb)
  · rw [not_or, Bool.not_eq_true, Bool.not_eq_true] at hb
    by_cases hs : ∀ e ∈ b.queue, e.settles = false
    · exact .inl ⟨hb.1, hb.2, hs⟩
    · simp only [not_forall, Bool.not_eq_false] at hs
      obtain ⟨e, hm, he⟩ := hs
      exact .inr ⟨e, hm, he⟩

/-- A tunnel that nobody took an event from yet. -/
theorem Grows.fresh (h : View.Grows ⟨false, false, []⟩ b) : b.Waiting ∨ b.Announced :=
  h.waiting ⟨rfl, rfl, fun _ hm => absurd hm List.not_mem_nil⟩

end View

end RtcTunnel.Core
