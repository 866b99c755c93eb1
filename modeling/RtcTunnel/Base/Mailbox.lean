import RtcTunnel.Base.Poll
import RtcTunnel.Base.Run

/-!
# Reading a mailbox after each delivery, or once

A producer delivers items into a mailbox and raises two flags: that there is
something to read, and that the producer itself is lost. Reading takes the items
from the front up to and including the first that fails. A fresh delivery comes
with a mailbox of its own, which replaces the one before it.

The owner may look after each delivery, or once after all of them. The theorem of
this file says exactly when the two agree.
-/

namespace RtcTunnel.Base

open RtcTunnel.Base.Poll (TrySource)
open RtcTunnel.Base.Run

set_option autoImplicit false

variable {χ α : Type}

structure Mailbox (χ : Type) where
  lost : Bool
  readable : Bool
  items : List χ

structure Arrival (χ : Type) where
  fresh : Bool
  lost : Bool
  readable : Bool
  items : List χ

namespace Mailbox

/-- New items raise the flag that there is something to read. -/
def deliver (m : Mailbox χ) (a : Arrival χ) : Mailbox χ :=
  if a.fresh then ⟨a.lost, a.readable || !a.items.isEmpty, a.items⟩
  else ⟨m.lost || a.lost, m.readable || (a.readable || !a.items.isEmpty), m.items ++ a.items⟩

variable (decode : χ → Option (List α))

/-- What a reading hands out, and the items it leaves. An item that fails decodes to `none`. -/
def read : List χ → List α × List χ
  | [] => ([], [])
  | c :: cs =>
    match decode c with
    | none => ([], cs)
    | some out => (out ++ (read cs).1, (read cs).2)

/-- A reading of these items fails. -/
def fails (items : List χ) : Bool := items.any fun c => (decode c).isNone

/-- A reading of these items hands something out: an item decodes to something in front
of the first that fails. -/
def delivers (items : List χ) : Bool :=
  (items.takeWhile fun c => (decode c).isSome).any fun c => (decode c).any (!·.isEmpty)

theorem read_append (xs ys : List χ) : read decode (xs ++ ys) =
    if fails decode xs then ((read decode xs).1, (read decode xs).2 ++ ys)
    else ((read decode xs).1 ++ (read decode ys).1, (read decode ys).2) := by
  induction xs with
  | nil => rfl
  | cons c cs ih =>
    rw [List.cons_append, read, read, fails, List.any_cons, ← fails]
    cases hd : decode c with
    | none => rfl
    | some out =>
      dsimp only
      rw [ih]
      cases fails decode cs with
      | true => rfl
      | false => simp

/-- A reading takes a front of the items, with the failure if there is one. -/
theorem read_split (xs : List χ) : ∃ taken, xs = taken ++ (read decode xs).2 ∧
    fails decode taken = fails decode xs ∧
    (fails decode xs = false → (read decode xs).2 = []) := by
  induction xs with
  | nil => exact ⟨[], rfl, rfl, fun _ => rfl⟩
  | cons c cs ih =>
    rw [read, fails, List.any_cons, ← fails]
    cases hd : decode c with
    | none =>
      refine ⟨[c], rfl, ?_, nofun⟩
      simp [fails, hd]
    | some out =>
      obtain ⟨taken, hs, hf, he⟩ := ih
      refine ⟨c :: taken, ?_, ?_, fun h => he h⟩
      · rw [List.cons_append, ← hs]
      · rw [fails, List.any_cons, ← fails, hf, hd]

/-- A reading leaves nothing behind exactly when nothing stands behind a failing item. -/
theorem read_empties (xs : List χ) :
    (read decode xs).2 = [] ↔ Terminal (fun c => decode c = none) xs := by
  induction xs with
  | nil => exact ⟨fun _ => terminal_nil, fun _ => rfl⟩
  | cons c cs ih =>
    rw [read, Terminal, List.pairwise_cons, ← Terminal, ← ih]
    cases hd : decode c with
    | none =>
      constructor
      · intro (h : cs = [])
        subst h
        exact ⟨List.forall_mem_nil _, rfl⟩
      · rintro ⟨h, _⟩
        exact List.eq_nil_iff_forall_not_mem.mpr fun d hm => h d hm rfl
    | some out => exact ⟨fun h => ⟨fun _ _ => by simp, h⟩, fun h => h.2⟩

/-- A reading that leaves nothing behind has handed out all that decodes. -/
theorem read_all {xs : List χ} (h : (read decode xs).2 = []) :
    (read decode xs).1 = xs.flatMap fun c => (decode c).getD [] := by
  induction xs with
  | nil => rfl
  | cons c cs ih =>
    rw [read] at h ⊢
    rw [List.flatMap_cons]
    cases hd : decode c with
    | none =>
      rw [hd] at h
      have hn : cs = [] := h
      subst hn
      rfl
    | some out =>
      rw [hd] at h
      show out ++ _ = out ++ _
      rw [ih h]

theorem delivers_iff (xs : List χ) : delivers decode xs = true ↔ (read decode xs).1 ≠ [] := by
  induction xs with
  | nil => simp [delivers, read]
  | cons c cs ih =>
    rw [delivers, read, List.takeWhile_cons]
    cases hd : decode c with
    | none => simp
    | some out =>
      simp only [Option.isSome_some, if_true, List.any_cons, hd, Bool.or_eq_true, Option.any_some]
      rw [← delivers, ih]
      cases out <;> simp

/-- A loop over a queue, whose body adds what an item decodes to and stops at an item that
fails, is a reading. -/
theorem forEach_read {σ ε : Type} {q : TrySource σ ε χ} {P : σ → Prop} {view : σ → List χ}
    (hq : q.Queues P view) {body : χ → List α → List α × Except ε Unit}
    (hsome : ∀ c out b, decode c = some out → body c b = (b ++ out, .ok ()))
    (hnone : ∀ c b, decode c = none → ∃ e, body c b = (b, .error e)) (s : σ) (b : List α)
    (hs : P s) :
    (q.forEach body s b).1.2 = b ++ (read decode (view s)).1 ∧
      view (q.forEach body s b).1.1 = (read decode (view s)).2 := by
  generalize hv : view s = l
  induction l generalizing s b with
  | nil =>
    obtain ⟨hp, hn⟩ := hq.nil s hs hv
    rw [q.forEach_none body b (Prod.ext hp rfl)]
    exact ⟨(List.append_nil b).symm, hn⟩
  | cons c cs ih =>
    obtain ⟨hp, hn⟩ := hq.cons s c cs hs hv
    rw [read]
    cases hd : decode c with
    | none =>
      obtain ⟨e, he⟩ := hnone c b hd
      rw [q.forEach_stop body (Prod.ext hp rfl) he]
      exact ⟨(List.append_nil b).symm, hn⟩
    | some out =>
      rw [q.forEach_next body (Prod.ext hp rfl) (hsome c out b hd)]
      obtain ⟨ho, hr⟩ := ih _ (b ++ out) (hq.keep s hs) hn
      exact ⟨by rw [ho, List.append_assoc], hr⟩

def out (m : Mailbox χ) : List α := if m.readable then (read decode m.items).1 else []

def emptied (m : Mailbox χ) : Mailbox χ :=
  ⟨false, false, if m.readable then (read decode m.items).2 else m.items⟩

/-- A look hands something out. -/
def yields (m : Mailbox χ) : Bool := m.readable && delivers decode m.items

/-- A look meets an item that fails. -/
def stumbles (m : Mailbox χ) : Bool := m.readable && fails decode m.items

theorem yields_eq_false (m : Mailbox χ) : m.yields decode = false ↔ m.out decode = [] := by
  have hd := not_congr (delivers_iff decode m.items)
  rw [Bool.not_eq_true, Decidable.not_not] at hd
  unfold yields out
  cases m.readable with
  | false => simp
  | true => simpa using hd

/-- The owner looks after each delivery, until it finds the producer lost. -/
def each (m : Mailbox χ) : List (Arrival χ) → List α × Bool
  | [] => ([], false)
  | a :: as =>
    let v := m.deliver a
    if v.lost then ([], true)
    else (v.out decode ++ (each (v.emptied decode) as).1, (each (v.emptied decode) as).2)

/-- The owner looks once. -/
def atOnce (m : Mailbox χ) (as : List (Arrival χ)) : List α × Bool :=
  let v := as.foldl deliver m
  if v.lost then ([], true) else (v.out decode, false)

/-- A loss is found before anything is handed out. -/
def LostFirst (m : Mailbox χ) : List (Arrival χ) → Prop
  | [] => False
  | a :: as =>
    let v := m.deliver a
    v.lost = true ∨ v.yields decode = false ∧ LostFirst (v.emptied decode) as

/-- Both ways side by side: the mailbox that is emptied after each delivery, with what came
out of it and whether the producer was found lost, and the mailbox that is kept. -/
structure Course (χ α : Type) where
  emptied : Mailbox χ
  kept : Mailbox χ
  out : List α
  lost : Bool

def advance (c : Course χ α) (a : Arrival χ) : Course χ α :=
  let v := c.emptied.deliver a
  { emptied := v.emptied decode
    kept := c.kept.deliver a
    out := c.out ++ v.out decode
    lost := c.lost || v.lost }

/-- The course behind the first delivery, of which `v` is the mailbox. -/
def course (v : Mailbox χ) : Course χ α :=
  { emptied := v.emptied decode, kept := v, out := v.out decode, lost := v.lost }

/-- A delivery that makes no difference: the producer is not lost, a fresh mailbox replaces
one out of which nothing came, and nothing comes out behind a reading that failed. -/
structure Harmless (c : Course χ α) (a : Arrival χ) : Prop where
  lost : (c.emptied.deliver a).lost = false
  fresh : a.fresh = true → c.out = []
  failed : a.fresh = false → c.kept.stumbles decode = true →
    (c.emptied.deliver a).yields decode = false

/-- The condition under which looking once is looking after each delivery. -/
def Agrees (m : Mailbox χ) (as : List (Arrival χ)) : Prop :=
  if (as.foldl deliver m).lost then LostFirst decode m as
  else
    match as with
    | [] => m.yields decode = false
    | a :: as => (m.deliver a).lost = false ∧
        Meets (advance decode) (Harmless decode) (course decode (m.deliver a)) as

instance LostFirst.decidable (m : Mailbox χ) : ∀ as, Decidable (LostFirst decode m as)
  | [] => inferInstanceAs (Decidable False)
  | a :: as =>
    have := LostFirst.decidable ((m.deliver a).emptied decode) as
    inferInstanceAs (Decidable ((m.deliver a).lost = true ∨
      (m.deliver a).yields decode = false ∧ LostFirst decode ((m.deliver a).emptied decode) as))

instance (c : Course χ α) (a : Arrival χ) : Decidable (Harmless decode c a) :=
  decidable_of_iff ((c.emptied.deliver a).lost = false ∧ (a.fresh = true → c.out = []) ∧
      (a.fresh = false → c.kept.stumbles decode = true →
        (c.emptied.deliver a).yields decode = false))
    ⟨fun ⟨h1, h2, h3⟩ => ⟨h1, h2, h3⟩, fun ⟨h1, h2, h3⟩ => ⟨h1, h2, h3⟩⟩

instance (m : Mailbox χ) : ∀ as, Decidable (Agrees decode m as)
  | [] => inferInstanceAs (Decidable
      (if m.lost then LostFirst decode m [] else m.yields decode = false))
  | a :: as => inferInstanceAs (Decidable
      (if ((a :: as).foldl deliver m).lost then LostFirst decode m (a :: as)
      else (m.deliver a).lost = false ∧
        Meets (advance decode) (Harmless decode) (course decode (m.deliver a)) as))

theorem each_eq_lost (m : Mailbox χ) (as : List (Arrival χ)) :
    m.each decode as = ([], true) ↔ LostFirst decode m as := by
  induction as generalizing m with
  | nil => simp [each, LostFirst]
  | cons a as ih =>
    rw [each, LostFirst]
    cases hl : (m.deliver a).lost with
    | true => simp
    | false =>
      rw [if_neg Bool.false_ne_true, Prod.mk.injEq, List.append_eq_nil_iff, yields_eq_false, ← ih,
        Prod.ext_iff]
      simp [and_assoc]

theorem kept_run (c : Course χ α) (as : List (Arrival χ)) :
    (run (advance decode) c as).kept = as.foldl deliver c.kept := by
  induction as generalizing c with
  | nil => rfl
  | cons a as ih => exact ih _

/-- A course without a loss hands out what looking after each delivery does. -/
theorem each_run (c : Course χ α) (as : List (Arrival χ)) (hl : c.lost = false) :
    (c.emptied.each decode as).2 = (run (advance decode) c as).lost ∧
      ((run (advance decode) c as).lost = false →
        c.out ++ (c.emptied.each decode as).1 = (run (advance decode) c as).out) := by
  induction as generalizing c with
  | nil => exact ⟨hl.symm, fun _ => List.append_nil _⟩
  | cons a as ih =>
    rw [run_cons, each]
    cases hv : (c.emptied.deliver a).lost with
    | true =>
      have hlost : (run (advance decode) (advance decode c a) as).lost = true := by
        refine invariant (I := fun c : Course χ α => c.lost = true) ?_ as ?_
        · intro c a hc
          rw [advance, hc, Bool.true_or]
        · rw [advance, hv, Bool.or_true]
      rw [if_pos rfl, hlost]
      exact ⟨rfl, nofun⟩
    | false =>
      rw [if_neg Bool.false_ne_true]
      have hstep : (advance decode c a).lost = false := by rw [advance, hl, hv, Bool.or_false]
      obtain ⟨hs, ho⟩ := ih (advance decode c a) hstep
      refine ⟨hs, fun hr => ?_⟩
      rw [← ho hr, advance, List.append_assoc]

theorem deliver_fresh (m : Mailbox χ) {a : Arrival χ} (ha : a.fresh = true) :
    m.deliver a = ⟨a.lost, a.readable || !a.items.isEmpty, a.items⟩ := by
  rw [deliver, if_pos ha]

theorem deliver_more (m : Mailbox χ) {a : Arrival χ} (ha : a.fresh = false) :
    m.deliver a = ⟨m.lost || a.lost, m.readable || (a.readable || !a.items.isEmpty),
      m.items ++ a.items⟩ := by
  rw [deliver, if_neg (by rw [ha]; exact Bool.false_ne_true)]

/-- How the two mailboxes of a course hang together: `gone` is what was taken out of one
and is still in the other. -/
structure Tracks (c : Course χ α) : Prop where
  lost : c.emptied.lost = false
  readable : c.emptied.readable = false
  items : ∃ gone, c.kept.items = gone ++ c.emptied.items ∧
    (c.kept.readable = false → gone = []) ∧
    (c.kept.readable = true → fails decode gone = false → c.emptied.items = [])
  out : c.kept.out decode <:+: c.out
  ends : c.kept.stumbles decode = false → c.kept.out decode <:+ c.out

/-- What the kept mailbox would hand out behind a further delivery. -/
theorem out_deliver {c : Course χ α} (h : Tracks decode c) {a : Arrival χ} (ha : a.fresh = false) :
    (c.kept.deliver a).out decode = c.kept.out decode ++
      if c.kept.stumbles decode then [] else (c.emptied.deliver a).out decode := by
  obtain ⟨gone, hitems, hnone, hall⟩ := h.items
  rw [deliver_more _ ha, deliver_more _ ha, h.readable, stumbles]
  cases hr : c.kept.readable with
  | false =>
    have hk : c.kept.items = c.emptied.items := by rw [hitems, hnone hr, List.nil_append]
    simp [out, hr, hk]
  | true =>
    cases hf : fails decode c.kept.items with
    | true => simp [out, hr, read_append, hf]
    | false =>
      have hg : fails decode gone = false := by
        rw [hitems, fails, List.any_append, ← fails, Bool.or_eq_false_iff] at hf
        exact hf.1
      have he := hall hr hg
      have hread : (if (a.readable || !a.items.isEmpty) = true then (read decode a.items).1
          else []) = (read decode a.items).1 := by
        cases hi : a.items with
        | nil => simp [read]
        | cons c cs => simp
      rw [he, List.nil_append, out, out, out, hr]
      simp only [Bool.true_and, Bool.false_or, Bool.true_or, if_true, read_append, hf, hread,
        Bool.false_eq_true, if_false]

theorem tracks_course (v : Mailbox χ) : Tracks decode (course decode v) := by
  refine ⟨rfl, rfl, ?_, List.infix_refl _, fun _ => List.suffix_refl _⟩
  obtain ⟨taken, hs, hf, he⟩ := read_split decode v.items
  rw [course, emptied]
  cases hr : v.readable with
  | false => exact ⟨[], rfl, fun _ => rfl, nofun⟩
  | true => exact ⟨taken, hs, nofun, fun _ ht => he (hf ▸ ht)⟩

theorem tracks_advance {c : Course χ α} (a : Arrival χ) (h : Tracks decode c) :
    Tracks decode (advance decode c a) := by
  cases ha : a.fresh with
  | true =>
    -- A fresh mailbox is the same on both sides.
    have hk : c.kept.deliver a = c.emptied.deliver a := by rw [deliver_fresh _ ha, deliver_fresh _ ha]
    have hc := tracks_course decode (c.emptied.deliver a)
    refine ⟨rfl, rfl, ?_, ?_, fun _ => ?_⟩
    · rw [advance, hk]
      exact hc.items
    · rw [advance, hk]
      exact (List.suffix_append _ _).isInfix
    · rw [advance, hk]
      exact List.suffix_append _ _
  | false =>
    have hout := out_deliver decode h ha
    refine ⟨rfl, rfl, ?_, ?_, ?_⟩
    · obtain ⟨gone, hitems, hnone, hall⟩ := h.items
      obtain ⟨taken, hs, hf, he⟩ := read_split decode (c.emptied.items ++ a.items)
      rw [advance, deliver_more _ ha, deliver_more _ ha, emptied, h.readable, hitems]
      cases hr : a.readable || !a.items.isEmpty with
      | false =>
        have hi : a.items = [] := by simpa using (Bool.or_eq_false_iff.mp hr).2
        refine ⟨gone, ?_, ?_, ?_⟩
        · simp [hi]
        · simpa [hr] using hnone
        · simpa [hr, hi] using hall
      | true =>
        refine ⟨gone ++ taken, ?_, ?_, fun _ ht => ?_⟩
        · simp [← hs]
        · simp
        · rw [fails, List.any_append, ← fails, ← fails, Bool.or_eq_false_iff] at ht
          simpa [hr] using he (hf ▸ ht.2)
    · rw [advance, hout]
      cases hk : c.kept.stumbles decode with
      | true =>
        rw [if_pos rfl, List.append_nil]
        exact h.out.trans (List.prefix_append _ _).isInfix
      | false =>
        rw [if_neg Bool.false_ne_true]
        exact (List.suffix_append_self_iff.mpr (h.ends hk)).isInfix
    · intro hk
      have hbefore : c.kept.stumbles decode = false := by
        have hk : (c.kept.deliver a).stumbles decode = false := hk
        rw [deliver_more _ ha, stumbles, fails, List.any_append, ← fails] at hk
        cases hr : c.kept.readable with
        | false => rw [stumbles, hr, Bool.false_and]
        | true =>
          rw [hr] at hk
          rw [stumbles, hr]
          simpa using (Bool.or_eq_false_iff.mp hk).1
      rw [advance, hout, hbefore, if_neg Bool.false_ne_true]
      exact List.suffix_append_self_iff.mpr (h.ends hbefore)

/-- No loss was found, and what came out is what the kept mailbox would hand out. -/
def InStep (c : Course χ α) : Prop := c.lost = false ∧ c.out = c.kept.out decode

theorem inStep_advance {c : Course χ α} (a : Arrival χ) (h : Tracks decode c)
    (hi : InStep decode c) : InStep decode (advance decode c a) ↔ Harmless decode c a := by
  have hlost : (advance decode c a).lost = (c.emptied.deliver a).lost := by
    rw [advance, hi.1, Bool.false_or]
  have hout : (advance decode c a).out = c.out ++ (c.emptied.deliver a).out decode := rfl
  have hkept : (advance decode c a).kept = c.kept.deliver a := rfl
  rw [InStep, hlost, hout, hkept]
  cases ha : a.fresh with
  | true =>
    have hk : c.kept.deliver a = c.emptied.deliver a := by rw [deliver_fresh _ ha, deliver_fresh _ ha]
    rw [hk, List.append_left_eq_self]
    exact ⟨fun h => ⟨h.1, fun _ => h.2, fun hf => absurd (ha.symm.trans hf) nofun⟩,
      fun h => ⟨h.lost, h.fresh ha⟩⟩
  | false =>
    rw [out_deliver decode h ha, hi.2]
    cases hs : c.kept.stumbles decode with
    | true =>
      rw [if_pos rfl, List.append_nil, List.append_right_eq_self, ← yields_eq_false]
      exact ⟨fun h => ⟨h.1, fun hf => absurd (ha.symm.trans hf) nofun, fun _ _ => h.2⟩,
        fun h => ⟨h.lost, h.failed ha hs⟩⟩
    | false =>
      rw [if_neg Bool.false_ne_true]
      exact ⟨fun h => ⟨h.1, fun hf => absurd (ha.symm.trans hf) nofun,
        fun _ hs' => absurd (hs.symm.trans hs') nofun⟩, fun h => ⟨h.lost, rfl⟩⟩

theorem inStep_of_advance {c : Course χ α} (a : Arrival χ) (h : Tracks decode c)
    (hi : InStep decode (advance decode c a)) : InStep decode c := by
  obtain ⟨hl, ho⟩ := hi
  refine ⟨(Bool.or_eq_false_iff.mp hl).1, ?_⟩
  have ho : c.out ++ (c.emptied.deliver a).out decode = (c.kept.deliver a).out decode := ho
  cases ha : a.fresh with
  | true =>
    have hk : c.kept.deliver a = c.emptied.deliver a := by rw [deliver_fresh _ ha, deliver_fresh _ ha]
    rw [hk, List.append_left_eq_self] at ho
    have hin := h.out
    rw [ho, List.infix_nil] at hin
    rw [ho, hin]
  | false =>
    rw [out_deliver decode h ha] at ho
    cases hs : c.kept.stumbles decode with
    | true =>
      rw [hs, if_pos rfl, List.append_nil] at ho
      have hlen := h.out.length_le
      have htotal := congrArg List.length ho
      rw [List.length_append] at htotal
      have hnil : (c.emptied.deliver a).out decode = [] := List.length_eq_zero_iff.mp (by omega)
      rw [hnil, List.append_nil] at ho
      exact ho
    | false =>
      rw [hs, if_neg Bool.false_ne_true] at ho
      exact List.append_cancel_right ho

/-- **Looking once is looking after each delivery exactly under `Agrees`.** -/
theorem each_eq_atOnce (m : Mailbox χ) (as : List (Arrival χ)) :
    m.each decode as = m.atOnce decode as ↔ Agrees decode m as := by
  have ho : m.atOnce decode as = if (as.foldl deliver m).lost then ([], true)
      else ((as.foldl deliver m).out decode, false) := rfl
  rw [ho]
  unfold Agrees
  cases hl : (as.foldl deliver m).lost with
  | true =>
    rw [if_pos rfl, if_pos rfl]
    exact each_eq_lost decode m as
  | false =>
    rw [if_neg Bool.false_ne_true, if_neg Bool.false_ne_true]
    cases as with
    | nil =>
      rw [yields_eq_false, each, Prod.mk.injEq]
      exact ⟨fun h => h.1.symm, fun h => ⟨h.symm, rfl⟩⟩
    | cons a as =>
      have hk := kept_run decode (course decode (m.deliver a)) as
      rw [each]
      show _ ↔ (m.deliver a).lost = false ∧
        Meets (advance decode) (Harmless decode) (course decode (m.deliver a)) as
      cases hv : (m.deliver a).lost with
      | true => simp
      | false =>
        have hc : (course decode (m.deliver a)).lost = false := hv
        obtain ⟨hlost, hout⟩ := each_run decode (course decode (m.deliver a)) as hc
        have hmeets : InStep decode (run (advance decode) (course decode (m.deliver a)) as) ↔
            Meets (advance decode) (Harmless decode) (course decode (m.deliver a)) as :=
          iff_meets (fun c a hc => tracks_advance decode a hc)
            (fun c a hc hi => inStep_advance decode a hc hi)
            (fun c a hc hi => inStep_of_advance decode a hc hi)
            (tracks_course decode (m.deliver a)) ⟨hv, rfl⟩
        rw [if_neg Bool.false_ne_true, ← hmeets, InStep, hk, ← hlost, Prod.mk.injEq]
        show _ ↔ false = false ∧ _
        constructor
        · rintro ⟨ho, hl⟩
          exact ⟨rfl, hl, (hout (hlost ▸ hl)).symm.trans ho⟩
        · rintro ⟨_, hl, ho⟩
          exact ⟨(hout (hlost ▸ hl)).trans ho, hl⟩

end Mailbox

end RtcTunnel.Base
