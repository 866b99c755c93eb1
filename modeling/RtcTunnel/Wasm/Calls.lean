import RtcTunnel.Wasm.Instance

/-!
# A call through the memory

As long as the allocator grants each region apart from those in use, a call through the memory
answers what the engine of the tunnel answers on its own, and leaves the payloads of every queue
of the instance where they lie.
-/

namespace RtcTunnel.Wasm

open RtcTunnel.Core
open RtcTunnel.Abi
open RtcTunnel.Abi.Instance (JsError countOf_descriptors crossed jsNumber jsNumber_eq
  length_descriptors payload_polled readDrained readDrained_descriptors readPolled_polled
  toNat_ofNat_length uint8Array)
open RtcTunnel.Base (Grants Memory Region)
open RtcTunnel.Base.Memory (Holds Keeps)
open RtcTunnel.Driver (EngineEvent)
open RtcTunnel.Stack (Backend WasmTunnelEngine)

set_option autoImplicit false

variable {B : Backend} (C : B.Contract)

def regionsOf (places : List UInt32) (events : List Event) : List Region :=
  (placed places events).map Base.Memory.regionOf

/-- The payloads of these events lie at these places. -/
structure Stored (m : Memory) (places : List UInt32) (events : List Event) : Prop where
  length : places.length = events.length
  holds : ∀ block ∈ placed places events, m.Holds block.1 block.2

section Stored

variable {m m' : Memory} {places places' : List UInt32} {events events' : List Event}

theorem Stored.keep {regions : List Region} (h : Stored m places events) (hk : Keeps regions m m')
    (hr : ∀ r ∈ regionsOf places events, r ∈ regions) : Stored m' places events :=
  ⟨h.length, fun block hb => hk _ _ (hr _ (List.mem_map_of_mem hb)) (h.holds block hb)⟩

theorem placed_append (h : places.length = events.length) :
    placed (places ++ places') (events ++ events') = placed places events ++ placed places' events' :=
  List.zipWith_append h

theorem Stored.append (h : Stored m places events) (h' : Stored m places' events') :
    Stored m (places ++ places') (events ++ events') := by
  refine ⟨by rw [List.length_append, List.length_append, h.length, h'.length], fun block hb => ?_⟩
  rw [placed_append h.length] at hb
  rcases List.mem_append.mp hb with hb | hb
  · exact h.holds block hb
  · exact h'.holds block hb

theorem placed_drop (n : Nat) :
    placed (places.drop n) (events.drop n) = (placed places events).drop n := List.drop_zipWith.symm

theorem Stored.drop (h : Stored m places events) (n : Nat) :
    Stored m (places.drop n) (events.drop n) := by
  refine ⟨by rw [List.length_drop, List.length_drop, h.length], fun block hb => ?_⟩
  rw [placed_drop] at hb
  exact h.holds block (List.mem_of_mem_drop hb)

theorem Stored.get (h : Stored m places events) {k : Nat} {event : Event}
    (he : events[k]? = some event) : m.Holds (places.getD k 0).toNat (payload event) := by
  obtain ⟨hlt, _⟩ := List.getElem?_eq_some_iff.mp he
  obtain ⟨place, hplace⟩ : ∃ place, places[k]? = some place :=
    ⟨_, List.getElem?_eq_getElem (Nat.lt_of_lt_of_eq hlt h.length.symm)⟩
  refine h.holds ((places.getD k 0).toNat, payload event) (List.mem_of_getElem? (i := k) ?_)
  rw [placed, List.getElem?_zipWith, he, hplace, List.getD_eq_getElem?_getD, hplace]
  rfl

theorem regionsOf_drop {n : Nat} {r : Region} (h : r ∈ regionsOf (places.drop n) (events.drop n)) :
    r ∈ regionsOf places events := by
  rw [regionsOf, placed_drop, List.map_drop] at h
  exact List.mem_of_mem_drop h

/-- Payloads that are placed apart are stored. -/
theorem stored_place {live : List Region} (h : places.length = events.length)
    (hg : Grants m.size live (regionsOf places events)) :
    Stored (m.place (placed places events)) places events :=
  ⟨h, Base.Memory.holds_place (fun _ hb => hg.inside _ (List.mem_map_of_mem hb)) hg.pairwise⟩

theorem keeps_placed {live regions : List Region} (hr : ∀ r ∈ regions, r ∈ live)
    (hg : Grants m.size live (regionsOf places events)) :
    Keeps regions m (m.place (placed places events)) :=
  Base.Memory.keeps_place fun _ hb r hm => hg.apart _ (List.mem_map_of_mem hb) r (hr r hm)

end Stored

namespace Handle

def alone (h : Handle B) : Alone B := ⟨h.engine, h.offer⟩

def queue (h : Handle B) : List Event := (h.engine.view C).queue

/-- Where the payloads lie that wait in the queue. -/
def regions (h : Handle B) : List Region :=
  if h.engine.disposed then [] else regionsOf h.places (h.queue C)

end Handle

/-- The bytes that a call hands in. -/
def Call.data : Call → Option Bytes
  | .input _ data => some data
  | .inputDeferred _ data => some data
  | .send data => some data
  | _ => none

def payloadRegions (given : Given) (events : List Event) : List Region :=
  regionsOf (given.places events.length) events

/-- A pointer with its length. -/
structure Buf where
  ptr : UInt32
  len : UInt32

/-- The block of some bytes. No block is asked for the empty text. -/
def blockOf (module : Answers) (data : Bytes) : List Region :=
  if data = [] then [] else [⟨(module.alloc (abiWord data.length)).toNat, data.length⟩]

/-- Where the bytes of a text are handed in. -/
def bufOf (module : Answers) (data : Bytes) : Buf :=
  ⟨rtcTunnelAlloc module.alloc (abiWord data.length), abiWord data.length⟩

namespace Instance

def alones (s : Instance B) : List (Alone B) := s.handles.map Handle.alone

/-- The payloads in the queues of all tunnels. -/
def regions (s : Instance B) : List Region := s.handles.flatMap (Handle.regions C)

def scratchRegion (s : Instance B) : Region := ⟨s.scratch.ptr.toNat, s.scratch.cap⟩

/-- A call for which the scratch grows. -/
def grows (s : Instance B) (c : Call) : Bool := c.data.any fun data => s.scratch.cap < data.length

/-- The regions that are in use throughout the call. -/
def live (s : Instance B) (c : Call) : List Region :=
  s.regions C ++ if s.grows c then [] else [s.scratchRegion]

/-- The block of the scratch that grows. -/
def grownRegion (s : Instance B) (given : Given) (length : Nat) : Region :=
  ⟨(given.answers.alloc (abiWord (s.scratch.capacity length))).toNat, s.scratch.capacity length⟩

/-- The events that a call adds to the queue of its tunnel. -/
def added (h : Handle B) (engine : WasmTunnelEngine B) : List Event :=
  (engine.view C).queue.drop (h.queue C).length

/-- The regions that the allocator is asked for in the course of the call. -/
def asked (s : Instance B) (h : Handle B) (c : Call) (given : Given) : List Region :=
  let own :=
    match c with
    | .pollEvent => (h.queue C).head?.toList.map fun event => ⟨given.copy.toNat, (payload event).length⟩
    | .drainEvents max =>
      if (h.queue C).take (toWord max).toNat = [] then []
      else [⟨given.array.toNat, 16 * ((h.queue C).take (toWord max).toNat).length⟩]
    | .offerSdp => blockOf given.answers (encode h.offer)
    | .negotiatedCipherSuite => blockOf given.answers (encode (h.engine.cipherName.1.getD []))
    | _ => []
  (if s.grows c then [s.grownRegion given (c.data.getD []).length] else []) ++ own ++
    payloadRegions given (added C h (h.alone.call c).2)

/-- **What a call relies on.** The engine is not disposed of, the memory stays below 2 GiB, and
the allocator grants what it is asked for. -/
structure Granted (s : Instance B) (h : Handle B) (c : Call) (given : Given) : Prop where
  alive : h.engine.disposed = true → c = .dispose
  grown : s.memory.size ≤ given.answers.byteLength
  bounded : given.answers.byteLength < 2147483648
  aligned : given.array.toNat % 4 = 0
  grants : Grants given.answers.byteLength (s.live C c) (s.asked C h c given)

theorem granted_iff {s : Instance B} {h : Handle B} {c : Call} {given : Given} :
    s.Granted C h c given ↔ (h.engine.disposed = true → c = .dispose) ∧
      s.memory.size ≤ given.answers.byteLength ∧ given.answers.byteLength < 2147483648 ∧
      given.array.toNat % 4 = 0 ∧
      Grants given.answers.byteLength (s.live C c) (s.asked C h c given) :=
  ⟨fun h => ⟨h.alive, h.grown, h.bounded, h.aligned, h.grants⟩, fun ⟨ha, hg, hb, hal, hgr⟩ =>
    ⟨ha, hg, hb, hal, hgr⟩⟩

instance decidableGranted (s : Instance B) (h : Handle B) (c : Call) (given : Given) :
    Decidable (s.Granted C h c given) := decidable_of_iff _ (granted_iff C).symm

/-- What every call keeps. -/
structure Kept (s : Instance B) : Prop where
  bounded : s.memory.size < 2147483648
  ptr : 0 ≤ s.scratch.ptr
  null : s.scratch.ptr = 0 → s.scratch.cap = 0
  inside : s.scratch.ptr.toNat + s.scratch.cap ≤ s.memory.size
  stored : ∀ h ∈ s.handles, h.engine.disposed = false → Stored s.memory h.places (h.queue C)
  apart : ∀ r ∈ s.regions C, r.Apart s.scratchRegion

/-- A call does what the engine does on its own. -/
structure Does (s : Instance B) (i : Nat) (h : Handle B) (c : Call)
    (r : Except JsError Answer × Instance B) : Prop where
  answer : r.1 = .ok (h.alone.call c).1
  alones : r.2.alones = s.alones.set i (h.alone.step c)
  kept : r.2.Kept C

variable {C} {s : Instance B} {i : Nat} {h : Handle B} {given : Given}

theorem mem_regions {r : Region} :
    r ∈ s.regions C ↔ ∃ h ∈ s.handles, r ∈ h.regions C := List.mem_flatMap

theorem regions_of_alive (ha : h.engine.disposed = false) :
    h.regions C = regionsOf h.places (h.queue C) := by
  rw [Handle.regions, ha]
  rfl

/-- The payloads of all queues stay where they are. -/
theorem Kept.stored_keep (hk : s.Kept C) {m : Memory} (hm : Keeps (s.regions C) s.memory m)
    {h : Handle B} (hh : h ∈ s.handles) (ha : h.engine.disposed = false) :
    Stored m h.places (h.queue C) :=
  (hk.stored h hh ha).keep hm fun _ hr =>
    mem_regions.mpr ⟨h, hh, (regions_of_alive ha) ▸ hr⟩

theorem regions_set {m : Memory} {h' : Handle B} {r : Region}
    (hr : r ∈ ({ s with memory := m, handles := s.handles.set i h' } : Instance B).regions C) :
    r ∈ s.regions C ∨ r ∈ h'.regions C := by
  obtain ⟨g, hg, hm⟩ := mem_regions.mp hr
  rcases List.mem_or_eq_of_mem_set hg with hg | rfl
  · exact .inl (mem_regions.mpr ⟨g, hg, hm⟩)
  · exact .inr hm

/-- Another memory and another handle. -/
theorem Kept.set (hk : s.Kept C) {m : Memory} {h' : Handle B}
    (hm : Keeps (s.regions C) s.memory m) (hsize : m.size = s.memory.size)
    (hstored : h'.engine.disposed = false → Stored m h'.places (h'.queue C))
    (hapart : ∀ r ∈ h'.regions C, r.Apart s.scratchRegion) :
    ({ s with memory := m, handles := s.handles.set i h' } : Instance B).Kept C where
  bounded := hsize ▸ hk.bounded
  ptr := hk.ptr
  null := hk.null
  inside := hsize ▸ hk.inside
  stored g hg ha := by
    rcases List.mem_or_eq_of_mem_set hg with hg | rfl
    · exact hk.stored_keep hm hg ha
    · exact hstored ha
  apart r hr := (regions_set hr).elim (hk.apart r) (hapart r)

theorem alones_set (s : Instance B) (m : Memory) (i : Nat) (h' : Handle B) :
    ({ s with memory := m, handles := s.handles.set i h' } : Instance B).alones =
      s.alones.set i h'.alone := List.map_set

/-- Another memory alone, which may have grown. -/
theorem Kept.moved (hk : s.Kept C) {m : Memory} (hm : Keeps (s.regions C) s.memory m)
    (hs : s.memory.size ≤ m.size) (hb : m.size < 2147483648) :
    ({ s with memory := m } : Instance B).Kept C where
  bounded := hb
  ptr := hk.ptr
  null := hk.null
  inside := Nat.le_trans hk.inside hs
  stored _ hg ha := hk.stored_keep hm hg ha
  apart := hk.apart

theorem Kept.memory (hk : s.Kept C) {m : Memory} (hm : Keeps (s.regions C) s.memory m)
    (hsize : m.size = s.memory.size) : ({ s with memory := m } : Instance B).Kept C :=
  hk.moved hm (Nat.le_of_eq hsize.symm) (hsize ▸ hk.bounded)

theorem Kept.grow (hk : s.Kept C) {size : Nat} (hs : s.memory.size ≤ size)
    (hb : size < 2147483648) :
    ({ s with memory := { s.memory with size := size } } : Instance B).Kept C :=
  hk.moved (Base.Memory.keeps_grow _ hs) hs hb

/-- What is needed of the places of the payloads that a call adds. -/
def Placed (C : B.Contract) (s : Instance B) (h : Handle B) (given : Given)
    (engine : WasmTunnelEngine B) : Prop :=
  Grants s.memory.size (s.regions C ++ [s.scratchRegion]) (payloadRegions given (added C h engine))

theorem leave_spec (hk : s.Kept C) (hh : h ∈ s.handles) (ha : h.engine.disposed = false)
    {engine : WasmTunnelEngine B} {es : List Event}
    (hgrow : (engine.view C).queue = h.queue C ++ es) (hg : Placed C s h given engine) :
    (s.leave C i h given engine).Kept C ∧ ∀ r ∈ (s.leave C i h given engine).regions C,
      r ∈ s.regions C ∨ r ∈ payloadRegions given es := by
  have hes : added C h engine = es := by
    rw [added, hgrow, List.drop_left]
  have hg : Grants s.memory.size (s.regions C ++ [s.scratchRegion])
      (regionsOf (given.places es.length) es) := hes ▸ hg
  have hlength : (given.places es.length).length = es.length := by
    rw [Given.places, List.length_map, List.length_range]
  have hkeep := keeps_placed (fun _ hr => List.mem_append_left [s.scratchRegion] hr) hg
  have hstored := hk.stored h hh ha
  have hleave : s.leave C i h given engine =
      { s with
        memory := s.memory.place (placed (given.places es.length) es)
        handles := s.handles.set i
          { h with engine := engine, places := h.places ++ given.places es.length } } := by
    unfold leave
    dsimp only
    rw [show (engine.view C).queue.drop (h.engine.view C).queue.length = es from hes]
  have hnew : ∀ r ∈ Handle.regions C
      { h with engine := engine, places := h.places ++ given.places es.length },
      r ∈ s.regions C ∨ r ∈ payloadRegions given es := by
    intro r hr
    have hr : r ∈ regionsOf (h.places ++ given.places es.length) (engine.view C).queue := by
      unfold Handle.regions at hr
      split at hr
      · cases hr
      · exact hr
    rw [hgrow, regionsOf, placed_append hstored.length, List.map_append] at hr
    rcases List.mem_append.mp hr with hr | hr
    · exact .inl (mem_regions.mpr ⟨h, hh, (regions_of_alive ha) ▸ hr⟩)
    · exact .inr hr
  rw [hleave]
  refine ⟨hk.set hkeep (Base.Memory.size_place _ _) (fun _ => ?_) fun r hr => ?_, fun r hr => ?_⟩
  · show Stored _ (h.places ++ given.places es.length) (engine.view C).queue
    rw [hgrow]
    exact (hk.stored_keep hkeep hh ha).append (stored_place hlength hg)
  · rcases hnew r hr with hr | hr
    · exact hk.apart r hr
    · exact hg.apart r hr _ (List.mem_append_right _ (List.mem_singleton.mpr rfl))
  · exact (regions_set hr).elim .inl (hnew r)

theorem alones_leave (s : Instance B) (i : Nat) (h : Handle B) (given : Given)
    (engine : WasmTunnelEngine B) :
    (s.leave C i h given engine).alones = s.alones.set i ⟨engine, h.offer⟩ := alones_set _ _ _ _

theorem toNat_abiWord_lt {n : Nat} (h : n < 2147483648) : (abiWord n).toNat = n := by
  rw [Scratch.toNat_abiWord, Nat.mod_eq_of_lt (by omega)]

theorem toNat_abiWord_nonneg {n : Int} (h : 0 ≤ n) (hl : n.toNat < 2147483648) :
    (abiWord n).toNat = n.toNat := by
  obtain ⟨k, rfl⟩ := Int.eq_ofNat_of_zero_le h
  exact toNat_abiWord_lt hl

/-- The block of a scratch that is as long as the bytes that come. -/
theorem kept_scratch (hk : s.Kept C) (length : Nat)
    (hg : s.scratch.cap < length →
      Grants s.memory.size (s.regions C) [s.grownRegion given length]) :
    ({ s with scratch := (s.scratch.grow given.answers length).1 } : Instance B).Kept C ∧
      length ≤ (s.scratch.grow given.answers length).1.cap ∧
      ({ s with scratch := (s.scratch.grow given.answers length).1 } : Instance B).scratchRegion =
        if s.scratch.cap < length then s.grownRegion given length else s.scratchRegion := by
  by_cases hc : s.scratch.cap < length
  · have hg := hg hc
    have hinside := hg.inside _ (List.mem_singleton.mpr rfl)
    have hnonnull := hg.nonnull _ (List.mem_singleton.mpr rfl)
    have hsize := hk.bounded
    unfold grownRegion at hinside hnonnull
    dsimp only at hinside hnonnull
    have hcap : length ≤ s.scratch.capacity length ∧ 2048 ≤ s.scratch.capacity length := by
      rw [Scratch.capacity, if_pos hc]
      omega
    have hword : abiWord (s.scratch.capacity length) ≠ 0 := by
      intro he
      have := toNat_abiWord_lt (n := s.scratch.capacity length) (by omega)
      rw [he] at this
      exact absurd this.symm (by show ¬ _ = 0; omega)
    have hthrough : s.scratch.through given.answers length =
        (given.answers.alloc (abiWord (s.scratch.capacity length))).toNat := by
      rw [Scratch.through, if_pos hc, rtcTunnelAlloc, if_neg hword]
      exact Abi.Instance.jsNumber_eq (by omega)
    rw [Scratch.grow_eq, hthrough]
    refine ⟨⟨hk.bounded, Int.natCast_nonneg _, fun h0 => ?_, hinside, fun g hg' ha => hk.stored g hg' ha,
      fun r hr => ?_⟩, hcap.1, (if_pos hc).symm⟩
    · exact absurd (Int.natCast_eq_zero.mp h0) hnonnull
    · exact (hg.apart _ (List.mem_singleton.mpr rfl) r hr).symm
  · have hsame : (s.scratch.grow given.answers length).1 = s.scratch := by
      rw [Scratch.grow, if_neg hc]
    rw [hsame]
    exact ⟨hk, Nat.le_of_not_lt hc, (if_neg hc).symm⟩

/-- **The module reads what the host wrote.** -/
theorem withData_eq (hk : s.Kept C) (hb : given.answers.byteLength = s.memory.size) (data : Bytes)
    (hg : s.scratch.cap < data.length →
      Grants s.memory.size (s.regions C) [s.grownRegion given data.length])
    (f : Bytes → Answer × WasmTunnelEngine B) :
    ∃ memory : Memory, memory.size = s.memory.size ∧
      ({ s with scratch := (s.scratch.grow given.answers data.length).1, memory := memory } :
        Instance B).Kept C ∧
      s.withData C i h given data f = (.ok (f data).1,
        leave C { s with
          scratch := (s.scratch.grow given.answers data.length).1, memory := memory } i h given
          (f data).2) := by
  obtain ⟨hk', hlen, _⟩ := kept_scratch hk data.length hg
  unfold withData
  dsimp only
  generalize (s.scratch.grow given.answers data.length).1 = scratch at hk' hlen ⊢
  have hinside : scratch.ptr.toNat + scratch.cap ≤ s.memory.size := hk'.inside
  have hptr : 0 ≤ scratch.ptr := hk'.ptr
  have hsize : s.memory.size < 2147483648 := hk'.bounded
  by_cases hd : data = []
  · refine ⟨s.memory, rfl, hk', ?_⟩
    have hread : sliceFrom s.memory (abiWord scratch.ptr) (abiWord data.length) = data := by
      rw [hd]
      exact if_pos (.inr rfl)
    rw [Scratch.store, if_pos hd]
    dsimp only
    rw [hread]
  · have hpos : 0 < data.length := List.length_pos_iff.mpr hd
    have hne : scratch.ptr ≠ 0 := fun h0 => by
      have : scratch.cap = 0 := hk'.null h0
      omega
    have hroom : 0 ≤ scratch.ptr ∧ scratch.ptr + data.length ≤ given.answers.byteLength := by
      omega
    have hp : (abiWord scratch.ptr).toNat = scratch.ptr.toNat :=
      toNat_abiWord_nonneg hptr (by omega)
    have hl : (abiWord data.length).toNat = data.length := toNat_abiWord_lt (by omega)
    have hread : sliceFrom (s.memory.write scratch.ptr.toNat data) (abiWord scratch.ptr)
        (abiWord data.length) = data := by
      rw [sliceFrom, hp, hl, if_neg, Base.Memory.read_write]
      rintro (h0 | h0)
      · rw [h0] at hp
        exact absurd hp.symm (by show ¬ _ = 0; omega)
      · rw [h0] at hl
        exact absurd hl.symm (by show ¬ _ = 0; omega)
    refine ⟨s.memory.write scratch.ptr.toNat data, rfl, ?_, ?_⟩
    · refine hk'.memory (Base.Memory.keeps_write fun r hr => ?_) rfl
      exact ((hk'.apart r hr).front hlen).symm
    · rw [Scratch.store, if_neg hd, if_pos hroom]
      dsimp only
      rw [hread]

/-- A call that looks at the tunnel and passes a number. -/
theorem does_look (hk : s.Kept C) (hi : s.handles[i]? = some h) {c : Call} {a : Answer}
    (hcall : h.alone.call c = (a, h.engine)) : Does C s i h c (.ok a, s) where
  answer := by rw [hcall]
  alones := by
    have hstep : h.alone.step c = h.alone := by
      rw [Alone.step, hcall]
      rfl
    have hget : s.alones[i]? = some h.alone := by
      rw [alones, List.getElem?_map, hi]
      rfl
    obtain ⟨hlt, hget⟩ := List.getElem?_eq_some_iff.mp hget
    rw [hstep, ← hget, List.set_getElem_self hlt]
  kept := hk

/-- A call that passes numbers and may add to the queue. -/
theorem does_leave (hk : s.Kept C) (hi : s.handles[i]? = some h) (ha : h.engine.disposed = false)
    {c : Call} {a : Answer} {engine : WasmTunnelEngine B} (hcall : h.alone.call c = (a, engine))
    {es : List Event} (hgrow : (engine.view C).queue = h.queue C ++ es)
    (hg : Placed C s h given engine) : Does C s i h c (.ok a, s.leave C i h given engine) where
  answer := by rw [hcall]
  alones := by rw [alones_leave, Alone.step, hcall]; rfl
  kept := (leave_spec hk (List.mem_of_getElem? hi) ha hgrow hg).1

/-- A call with bytes. -/
theorem does_data (hk : s.Kept C) (hb : given.answers.byteLength = s.memory.size)
    (hi : s.handles[i]? = some h) (ha : h.engine.disposed = false) {c : Call} {data : Bytes}
    (hd : c.data = some data) {f : Bytes → Answer × WasmTunnelEngine B}
    (hcall : h.alone.call c = f data) {es : List Event}
    (hgrow : ((f data).2.view C).queue = h.queue C ++ es)
    (hg : Grants s.memory.size (s.live C c)
      ((if s.grows c then [s.grownRegion given data.length] else []) ++
        payloadRegions given (added C h (f data).2))) :
    Does C s i h c (s.withData C i h given data f) := by
  have hgrows : s.grows c = decide (s.scratch.cap < data.length) := by
    rw [grows, hd]
    rfl
  have hscratch : s.scratch.cap < data.length →
      Grants s.memory.size (s.regions C) [s.grownRegion given data.length] := by
    intro hc
    rw [live, hgrows, decide_eq_true hc, if_pos rfl, List.append_nil, if_pos rfl] at hg
    exact hg.front
  obtain ⟨_, _, hregion⟩ := kept_scratch hk data.length hscratch
  obtain ⟨memory, hsize, hk', heq⟩ := withData_eq (i := i) (h := h) hk hb data hscratch f
  have hplaced : Placed C ({ s with
      scratch := (s.scratch.grow given.answers data.length).1, memory := memory } : Instance B) h
      given (f data).2 := by
    rw [Placed, hsize]
    refine hg.behind.mono fun r hr => ?_
    rcases List.mem_append.mp hr with hr | hr
    · exact List.mem_append_left _ (List.mem_append_left _ hr)
    · cases List.mem_singleton.mp hr
      rw [scratchRegion]
      show Region.mk (s.scratch.grow given.answers data.length).1.ptr.toNat
        (s.scratch.grow given.answers data.length).1.cap ∈ _
      rw [show Region.mk _ _ = _ from hregion, live, hgrows]
      by_cases hc : s.scratch.cap < data.length
      · rw [if_pos hc, decide_eq_true hc]
        exact List.mem_append_right _ (List.mem_singleton.mpr rfl)
      · rw [if_neg hc, decide_eq_false hc]
        exact List.mem_append_left _ (List.mem_append_right _ (List.mem_singleton.mpr rfl))
  rw [heq]
  have hdoes := does_leave hk' hi ha (hcall.trans rfl) hgrow hplaced
  exact ⟨hdoes.answer, hdoes.alones, hdoes.kept⟩

theorem uint8Array_holds {m : Memory} {addr : Nat} {data : Bytes} {offset length : Int}
    (h : m.Holds addr data) (ho : offset = addr) (hl : length = data.length) :
    uint8Array m offset length = .ok data := by
  rw [uint8Array, if_pos (by have := h.inside; omega), ho, hl]
  exact congrArg Except.ok h.read

/-- What is left when the first events of a queue have gone. -/
theorem kept_taken (hk : s.Kept C) (hh : h ∈ s.handles) (ha : h.engine.disposed = false)
    {m : Memory} (hm : Keeps (s.regions C) s.memory m) (hsize : m.size = s.memory.size)
    {h' : Handle B} {n : Nat} (hp : h'.places = h.places.drop n)
    (hq : h'.queue C = (h.queue C).drop n) :
    ({ s with memory := m, handles := s.handles.set i h' } : Instance B).Kept C := by
  refine hk.set hm hsize (fun _ => ?_) fun r hr => ?_
  · rw [hp, hq]
    exact (hk.stored_keep hm hh ha).drop n
  · have hr : r ∈ regionsOf h'.places (h'.queue C) := by
      unfold Handle.regions at hr
      split at hr
      · cases hr
      · exact hr
    rw [hp, hq] at hr
    exact hk.apart r (mem_regions.mpr ⟨h, hh, (regions_of_alive ha) ▸ regionsOf_drop hr⟩)

/-- **A payload is read back**, once it is copied. -/
theorem does_pollEvent (hk : s.Kept C) (hi : s.handles[i]? = some h)
    (ha : h.engine.disposed = false)
    (hg : Grants s.memory.size (s.regions C)
      ((h.queue C).head?.toList.map fun event => ⟨given.copy.toNat, (payload event).length⟩)) :
    Does C s i h .pollEvent (s.pollEvent i h given) := by
  have hmem := List.mem_of_getElem? hi
  have hstored := hk.stored h hmem ha
  obtain ⟨hhead, hview⟩ := C.pollEvent h.engine.tunnel
  have hqueue : (C.view (B.pollEvent h.engine.tunnel).2).queue = (h.queue C).drop 1 := by
    rw [hview, List.drop_one]
    rfl
  have hstep : h.alone.step .pollEvent =
      ⟨{ h.engine with tunnel := (B.pollEvent h.engine.tunnel).2 }, h.offer⟩ := rfl
  have hanswer : (h.alone.call .pollEvent).1 =
      .event ((B.pollEvent h.engine.tunnel).1.elim .none crossed) := rfl
  unfold pollEvent
  generalize B.pollEvent h.engine.tunnel = r at hhead hqueue hstep hanswer
  obtain ⟨o, tunnel⟩ := r
  have hhead : o = (h.queue C).head? := hhead
  dsimp only at hqueue hstep hanswer ⊢
  cases o with
  | none =>
    have hnil : h.queue C = [] := List.head?_eq_none_iff.mp hhead.symm
    refine ⟨hanswer.symm ▸ rfl, (alones_set _ _ _ _).trans (by rw [hstep]; rfl), ?_⟩
    refine kept_taken (n := 0) hk hmem ha (Base.Memory.keeps_write fun r _ => ?_) rfl rfl ?_
    · exact fun j hj => absurd hj (Nat.not_lt_zero j)
    · show (C.view tunnel).queue = (h.queue C).drop 0
      rw [hqueue, hnil]
      rfl
  | some event =>
    obtain ⟨rest, hq⟩ := List.head?_eq_some_iff.mp hhead.symm
    have hheld : s.memory.Holds (h.places.headD 0).toNat (payload event) := by
      have hget := hstored.get (k := 0) (by rw [hq]; rfl : (h.queue C)[0]? = some event)
      cases hplaces : h.places <;> rw [hplaces] at hget <;> exact hget
    have hregion : ⟨given.copy.toNat, (payload event).length⟩ ∈
        (h.queue C).head?.toList.map fun event => Region.mk given.copy.toNat (payload event).length := by
      rw [hq]
      exact List.mem_singleton.mpr rfl
    have hinside := hg.inside _ hregion
    have hkeep : Keeps (s.regions C) s.memory (s.memory.write given.copy.toNat (payload event)) :=
      Base.Memory.keeps_write fun r hr => hg.apart _ hregion r hr
    have hcopy := Base.Memory.holds_write s.memory hinside
    have hsize := hk.bounded
    dsimp only at hinside
    rw [payload_polled, hheld.read]
    refine ⟨?_, (alones_set _ _ _ _).trans (by rw [hstep]; rfl), ?_⟩
    · have hlen : jsNumber (UInt32.ofNat (payload event).length) = (payload event).length := by
        have hn : (UInt32.ofNat (payload event).length).toNat = (payload event).length :=
          toNat_ofNat_length (by omega)
        rw [jsNumber_eq (by omega), hn]
      rw [hanswer]
      exact congrArg (Except.map Answer.event) (readPolled_polled fun _ =>
        uint8Array_holds hcopy (jsNumber_eq (by omega)) hlen)
    · exact kept_taken (n := 1) hk hmem ha hkeep rfl rfl hqueue

theorem drop_length_take {α : Type} (n : Nat) (l : List α) : l.drop (l.take n).length = l.drop n := by
  rw [List.length_take]
  by_cases hn : n ≤ l.length
  · rw [Nat.min_eq_left hn]
  · rw [Nat.min_eq_right (by omega), List.drop_length, List.drop_of_length_le (by omega)]

/-- **A batch is read back** from its descriptors. -/
theorem does_drainEvents (hk : s.Kept C) (hi : s.handles[i]? = some h)
    (ha : h.engine.disposed = false) (max : F64) (halign : given.array.toNat % 4 = 0)
    (hg : (h.queue C).take (toWord max).toNat ≠ [] → Grants s.memory.size (s.regions C)
      [⟨given.array.toNat, 16 * ((h.queue C).take (toWord max).toNat).length⟩]) :
    Does C s i h (.drainEvents max) (s.drainEvents i h given max) := by
  have hmem := List.mem_of_getElem? hi
  obtain ⟨hfst, hsnd, _⟩ := WasmTunnelEngine.pullEvents_eq C (toWord max).toNat h.engine.tunnel
  have hqueue : (C.view (pullEvents B.pollEvent (toWord max).toNat h.engine.tunnel).2).queue =
      (h.queue C).drop ((h.queue C).take (toWord max).toNat).length := by
    rw [hsnd, drop_length_take]
    rfl
  have hstep : h.alone.step (.drainEvents max) = ⟨{ h.engine with
      tunnel := (pullEvents B.pollEvent (toWord max).toNat h.engine.tunnel).2 }, h.offer⟩ := rfl
  have hanswer : (h.alone.call (.drainEvents max)).1 = .events
      ((pullEvents B.pollEvent (toWord max).toNat h.engine.tunnel).1.map crossed) := rfl
  unfold drainEvents
  generalize pullEvents B.pollEvent (toWord max).toNat h.engine.tunnel = r
    at hfst hqueue hstep hanswer
  obtain ⟨events, tunnel⟩ := r
  have hfst : events = (h.queue C).take (toWord max).toNat := hfst
  rw [← hfst] at hqueue hg
  dsimp only at hqueue hstep hanswer ⊢
  have hlen := length_descriptors (fun j => h.places.getD j 0) events
  rw [countOf_descriptors]
  generalize hdescriptors : descriptorsOf (fun j => h.places.getD j 0) events = descriptors at hlen ⊢
  have hbytes : (descriptors.flatMap Base.Memory.wordBytes).length = 16 * events.length := by
    rw [Base.Memory.length_flatMap_wordBytes, hlen]
    omega
  have hkeep : Keeps (s.regions C) s.memory (s.memory.writeWords given.array.toNat descriptors) := by
    refine Base.Memory.keeps_write fun r hr => ?_
    rw [hbytes]
    by_cases hnil : events = []
    · rw [hnil]
      exact fun j hj => absurd hj (Nat.not_lt_zero j)
    · exact (hg hnil).apart _ (List.mem_singleton.mpr rfl) r hr
  have hkept : Instance.Kept C { s with
      memory := s.memory.writeWords given.array.toNat descriptors
      handles := s.handles.set i { h with
        engine := { h.engine with tunnel := tunnel }
        places := h.places.drop events.length
        eventsPtr := given.array } } := kept_taken hk hmem ha hkeep rfl rfl hqueue
  refine ⟨?_, (alones_set _ _ _ _).trans (by rw [hstep]; rfl), hkept⟩
  rw [hanswer]
  refine congrArg (Except.map Answer.events) (readDrained_descriptors
    (fun j => h.places.getD j 0) ?_ (fun hnil => ?_) fun k event he => ?_)
  · rw [hdescriptors, ← hlen]
    exact Base.Memory.readWords_writeWords ..
  · have hinside : given.array.toNat + 16 * events.length ≤ s.memory.size :=
      (hg hnil).inside _ (List.mem_singleton.mpr rfl)
    have hsize := hk.bounded
    exact ⟨halign, by omega, by omega, hinside⟩
  · have hget : (h.queue C)[k]? = some event := by
      rw [hfst, List.getElem?_take] at he
      exact (Option.ite_none_right_eq_some.mp he).2
    have hheld := (hk.stored_keep hkeep hmem ha).get hget
    have hsize := hk.bounded
    have hin : _ ≤ s.memory.size := hheld.inside
    exact uint8Array_holds hheld rfl (by rw [toNat_ofNat_length (by omega)])

/-- A block that is granted lies in the memory. -/
theorem regionOf_bufOf {module : Answers} {data : Bytes} {live : List Region}
    {size : Nat} (hb : size < 2147483648)
    (hg : Grants size live (blockOf module data)) (hne : data ≠ []) :
    (bufOf module data).ptr ≠ 0 ∧ (bufOf module data).ptr.toNat + data.length ≤ size ∧
      ⟨(bufOf module data).ptr.toNat, data.length⟩ ∈ blockOf module data ∧
      (bufOf module data).len.toNat = data.length := by
  rw [blockOf, if_neg hne] at hg
  have hinside := hg.inside _ (List.mem_singleton.mpr rfl)
  have hnonnull := hg.nonnull _ (List.mem_singleton.mpr rfl)
  have hpos := List.length_pos_iff.mpr hne
  dsimp only at hinside hnonnull
  have hlen : (abiWord data.length).toNat = data.length := toNat_abiWord_lt (by omega)
  have hword : abiWord data.length ≠ 0 := by
    intro hz
    rw [hz] at hlen
    exact absurd hlen.symm (by show ¬ _ = 0; omega)
  have hptr : (bufOf module data).ptr = module.alloc (abiWord data.length) := if_neg hword
  rw [hptr, blockOf, if_neg hne]
  refine ⟨fun hz => hnonnull ?_, hinside, List.mem_singleton.mpr rfl, hlen⟩
  rw [hz]
  rfl

/-- The host decodes a text that is copied whole. -/
theorem copyOut_eq {m : Memory} {ptr cap : UInt32} {text : Text} (hptr : ptr ≠ 0)
    (hcap : cap.toNat = (encode text).length)
    (hheld : (m.write ptr.toNat (encode text)).Holds ptr.toNat (encode text))
    (hsigned : jsNumber ptr = ptr.toNat) :
    copyOut given m ptr cap (encode text) =
      (.ok (WasmTunnelEngine.decode text), m.write ptr.toNat (encode text)) := by
  unfold copyOut
  dsimp only
  rw [if_neg hptr, hcap, List.take_length, uint8Array_holds hheld hsigned rfl]
  refine Prod.ext ?_ rfl
  show Except.ok (decodeBytes given (encode text)) = _
  rw [decodeBytes, strArg_encode]

/-- **A text is read back** through a buffer of its length. -/
theorem readText_eq {regions : List Region} (hb : s.memory.size < 2147483648) {text : Text}
    (hne : text ≠ []) (hg : Grants s.memory.size regions (blockOf given.answers (encode text))) :
    ∃ memory : Memory, memory.size = s.memory.size ∧ Keeps regions s.memory memory ∧
      s.readText given (encode text).length text =
        (.ok (.text (some (WasmTunnelEngine.decode text))), { s with memory := memory }) := by
  have hbytes : encode text ≠ [] := fun h => hne (encode_eq_nil.mp h)
  obtain ⟨hptr, hinside, hmem, hlen⟩ := regionOf_bufOf hb hg hbytes
  have hpos := List.length_pos_iff.mpr hbytes
  have hheld := Base.Memory.holds_write s.memory hinside
  refine ⟨s.memory.write (bufOf given.answers (encode text)).ptr.toNat (encode text), rfl,
    Base.Memory.keeps_write fun r hr => hg.apart _ hmem r hr, ?_⟩
  have hcopy : copyOut given s.memory (bufOf given.answers (encode text)).ptr
      (bufOf given.answers (encode text)).len (encode text) = _ :=
    copyOut_eq hptr hlen hheld (jsNumber_eq (by omega))
  exact congrArg (fun r : Except JsError Text × Memory =>
    (r.1.map fun text => Answer.text (some text), { s with memory := r.2 })) hcopy

theorem does_offerSdp (hk : s.Kept C) (hi : s.handles[i]? = some h)
    (hg : Grants s.memory.size (s.regions C) (blockOf given.answers (encode h.offer))) :
    Does C s i h .offerSdp (s.offerSdp h given) := by
  unfold offerSdp
  dsimp only
  by_cases hnil : h.offer = []
  · have hcall : h.alone.call .offerSdp = (.text none, h.engine) := by
      rw [Alone.call]
      show (Answer.text (if h.offer.isEmpty then _ else _), _) = _
      rw [hnil]
      rfl
    rw [if_pos (by rw [hnil]; rfl)]
    exact does_look hk hi hcall
  · obtain ⟨memory, hsize, hkeep, heq⟩ := readText_eq hk.bounded hnil hg
    have hcall : h.alone.call .offerSdp =
        (.text (some (WasmTunnelEngine.decode h.offer)), h.engine) := by
      rw [Alone.call]
      show (Answer.text (if h.offer.isEmpty then _ else _), _) = _
      rw [if_neg (by rw [List.isEmpty_iff]; exact hnil)]
      rfl
    have hlook := does_look hk hi hcall
    rw [if_neg (by rw [List.length_eq_zero_iff, encode_eq_nil]; exact hnil), heq]
    exact ⟨hlook.answer, hlook.alones, hk.memory hkeep hsize⟩

/-- A name that was resolved is kept. -/
theorem cipherName_again {engine : WasmTunnelEngine B} {name : Text}
    (h : engine.cipherName.1 = some name) :
    engine.cipherName.2.cipherName = (some name, engine.cipherName.2) := by
  cases hc : engine.cipher with
  | some kept =>
    have he : engine.cipherName = (some kept, engine) := by rw [WasmTunnelEngine.cipherName, hc]
    have h : some kept = some name := by rw [he] at h; exact h
    rw [he, ← h]
    exact he
  | none =>
    have he : engine.cipherName = ((B.negotiatedCipherSuite engine.tunnel).1,
        { engine with
          tunnel := (B.negotiatedCipherSuite engine.tunnel).2
          cipher := (B.negotiatedCipherSuite engine.tunnel).1 }) := by
      rw [WasmTunnelEngine.cipherName, hc]
    rw [he] at h ⊢
    dsimp only at h
    rw [h]
    rfl

theorem does_negotiatedCipherSuite (hk : s.Kept C) (hi : s.handles[i]? = some h)
    (ha : h.engine.disposed = false)
    (hg : Grants s.memory.size (s.regions C)
      (blockOf given.answers (encode (h.engine.cipherName.1.getD [])))) :
    Does C s i h .negotiatedCipherSuite (s.negotiatedCipherSuite C i h given) := by
  have hview := WasmTunnelEngine.view_cipherName C h.engine
  have hgrow : (h.engine.cipherName.2.view C).queue = h.queue C ++ [] := by
    rw [hview, List.append_nil]
    rfl
  have hadded : added C h h.engine.cipherName.2 = [] := by
    rw [added, hgrow, List.append_nil, List.drop_length]
  have hplaced : Placed C s h given h.engine.cipherName.2 := by
    rw [Placed, hadded]
    exact ⟨by simp [payloadRegions, regionsOf, placed], by simp [payloadRegions, regionsOf, placed],
      by simp [payloadRegions, regionsOf, placed], .nil⟩
  have hspec := leave_spec (i := i) hk (List.mem_of_getElem? hi) ha hgrow hplaced
  unfold negotiatedCipherSuite
  dsimp only
  by_cases hnil : h.engine.cipherName.1.getD [] = []
  · have hcall : h.alone.call .negotiatedCipherSuite = (.text none, h.engine.cipherName.2) := by
      rw [Alone.call]
      show (Answer.text h.engine.negotiatedCipherSuite.1,
        h.engine.negotiatedCipherSuite.2) = _
      rw [WasmTunnelEngine.negotiatedCipherSuite, if_pos (by rw [hnil]; rfl)]
    rw [if_pos (by rw [hnil]; rfl)]
    exact does_leave hk hi ha hcall hgrow hplaced
  · obtain ⟨name, hname⟩ : ∃ name, h.engine.cipherName.1 = some name := by
      cases hc : h.engine.cipherName.1 with
      | some name => exact ⟨name, rfl⟩
      | none =>
        rw [hc] at hnil
        exact absurd rfl hnil
    have hne : name ≠ [] := by
      rw [hname] at hnil
      exact hnil
    have hcall : h.alone.call .negotiatedCipherSuite =
        (.text (some (WasmTunnelEngine.decode name)), h.engine.cipherName.2) := by
      rw [Alone.call]
      show (Answer.text h.engine.negotiatedCipherSuite.1,
        h.engine.negotiatedCipherSuite.2) = _
      rw [WasmTunnelEngine.negotiatedCipherSuite, if_neg (by rw [List.isEmpty_iff]; exact hnil),
        cipherName_again hname]
      rfl
    rw [hname, Option.getD_some] at hg
    have hsize : (s.leave C i h given h.engine.cipherName.2).memory.size = s.memory.size :=
      Base.Memory.size_place _ _
    have hregions : ∀ r ∈ (s.leave C i h given h.engine.cipherName.2).regions C, r ∈ s.regions C :=
      fun r hr => (hspec.2 r hr).resolve_right (by simp [payloadRegions, regionsOf, placed])
    obtain ⟨memory, hm, hkeep, heq⟩ := readText_eq
      (s := s.leave C i h given h.engine.cipherName.2)
      (hsize ▸ hk.bounded) hne (hsize ▸ hg.mono hregions)
    have hdoes := does_leave hk hi ha hcall hgrow hplaced
    rw [hname, Option.getD_some, if_neg (by rw [List.length_eq_zero_iff, encode_eq_nil]; exact hne),
      cipherName_again hname]
    dsimp only
    rw [Option.getD_some, heq]
    exact ⟨hdoes.answer, hdoes.alones, hdoes.kept.memory hkeep hm⟩

/-- What is freed is no longer in use. -/
theorem does_dispose (hk : s.Kept C) (hi : s.handles[i]? = some h) :
    Does C s i h .dispose (.ok .done, s.dispose i h) := by
  unfold dispose
  by_cases hd : h.engine.disposed = true
  · rw [if_pos hd]
    refine does_look hk hi ?_
    rw [Alone.call, WasmTunnelEngine.dispose]
    show (Answer.done, if h.engine.disposed = true then h.engine else _) = _
    rw [if_pos hd]
  · have hcall : h.alone.call .dispose = (.done, h.engine.dispose) := rfl
    have hdisposed : h.engine.dispose.disposed = true := by
      rw [WasmTunnelEngine.dispose, if_neg hd]
    rw [if_neg hd]
    refine ⟨rfl, (alones_set _ _ _ _).trans rfl, hk.set (.refl _ _) rfl (fun ha => ?_) fun r hr => ?_⟩
    · exact absurd (ha.symm.trans hdisposed) Bool.false_ne_true
    · rw [Handle.regions, if_pos hdisposed] at hr
      cases hr

/-- What is in use and what is granted, for a call that hands in no bytes. -/
theorem Granted.parts {c : Call} (hg : s.Granted C h c given) (hd : c.data = none)
    {own : List Region} (ha : s.asked C h c given =
      own ++ payloadRegions given (added C h (h.alone.call c).2)) :
    Grants given.answers.byteLength (s.regions C) own ∧
      Grants given.answers.byteLength (s.regions C ++ [s.scratchRegion])
        (payloadRegions given (added C h (h.alone.call c).2)) := by
  have hgrows : s.grows c = false := by
    rw [grows, hd]
    rfl
  have hlive : s.live C c = s.regions C ++ [s.scratchRegion] := by
    rw [live, hgrows]
    rfl
  have hgrants := hg.grants
  rw [hlive, ha] at hgrants
  exact ⟨hgrants.front.mono fun _ hr => List.mem_append_left _ hr,
    hgrants.behind.mono fun _ hr => List.mem_append_left _ hr⟩

theorem Granted.scratch {c : Call} (hg : s.Granted C h c given) {data : Bytes}
    (ha : s.asked C h c given = (if s.grows c then [s.grownRegion given data.length] else []) ++ [] ++
      payloadRegions given (added C h (h.alone.call c).2)) :
    Grants given.answers.byteLength (s.live C c)
      ((if s.grows c then [s.grownRegion given data.length] else []) ++
        payloadRegions given (added C h (h.alone.call c).2)) := by
  have hgrants := hg.grants
  rw [ha, List.append_nil] at hgrants
  exact hgrants

theorem flagOf_eq (flag : Bool) : flagOf flag = flag := by cases flag <;> rfl

/-- **A call through the memory does what the engine does on its own.** -/
theorem does_call (hk : s.Kept C) (hi : s.handles[i]? = some h) {c : Call}
    (hg : s.Granted C h c given) : Does C s i h c (s.call C i c given) := by
  have hk₀ := hk.grow hg.grown hg.bounded
  have hcall : ∀ {r : Except JsError Answer × Instance B},
      Does C { s with memory := { s.memory with size := given.answers.byteLength } } i h c r →
        Does C s i h c r := fun hd => ⟨hd.answer, hd.alones, hd.kept⟩
  have halive : c ≠ .dispose → h.engine.disposed = false := fun hc =>
    Bool.eq_false_iff.mpr fun hd => hc (hg.alive hd)
  have feed : ∀ {t : B.Tunnel}, Backend.Feed h.engine.tunnel t →
      ∃ es, (C.view t).queue = h.queue C ++ es := by
    intro t ht
    obtain ⟨es, hq, _⟩ := C.grows ht
    exact ⟨es, hq⟩
  unfold call
  rw [hi]
  refine hcall ?_
  cases c with
  | input nowMs data =>
    obtain ⟨es, hq⟩ := feed (.receive (WasmTunnelEngine.clock nowMs) data)
    exact does_data hk₀ rfl hi (halive (by simp)) rfl rfl hq (hg.scratch rfl)
  | inputDeferred nowMs data =>
    obtain ⟨es, hq⟩ := feed (.receiveDeferred (WasmTunnelEngine.clock nowMs) data)
    exact does_data hk₀ rfl hi (halive (by simp)) rfl rfl hq (hg.scratch rfl)
  | send data =>
    obtain ⟨es, hq⟩ := feed (.send data)
    exact does_data hk₀ rfl hi (halive (by simp)) rfl rfl hq (hg.scratch rfl)
  | finishInputBatch =>
    obtain ⟨es, hq⟩ := feed .finishInputBatch
    exact does_leave hk₀ hi (halive (by simp)) rfl hq (hg.parts rfl rfl).2
  | tick nowMs =>
    obtain ⟨es, hq⟩ := feed (.tick (WasmTunnelEngine.clock nowMs))
    exact does_leave hk₀ hi (halive (by simp)) rfl hq (hg.parts rfl rfl).2
  | close =>
    obtain ⟨es, hq⟩ := feed .close
    exact does_leave hk₀ hi (halive (by simp)) rfl hq (hg.parts rfl rfl).2
  | setSendBufferCap cap =>
    have hview := C.looks (.setSendBufferCap (t := h.engine.tunnel) (toWord cap).toNat)
    have hq : (C.view (B.setSendBufferCap h.engine.tunnel (toWord cap).toNat)).queue =
        h.queue C ++ [] := by
      rw [List.append_nil]
      exact congrArg View.queue hview
    exact does_leave hk₀ hi (halive (by simp)) rfl hq (hg.parts rfl rfl).2
  | nextDeadline =>
    have hview := C.looks (.nextDeadline (t := h.engine.tunnel))
    have hq : (C.view (B.nextDeadline h.engine.tunnel).2).queue = h.queue C ++ [] := by
      rw [List.append_nil]
      exact congrArg View.queue hview
    exact does_leave hk₀ hi (halive (by simp)) rfl hq (hg.parts rfl rfl).2
  | pollEvent => exact does_pollEvent hk₀ hi (halive (by simp)) (hg.parts rfl rfl).1
  | drainEvents max =>
    refine does_drainEvents hk₀ hi (halive (by simp)) max hg.aligned fun hne => ?_
    have hparts : Grants given.answers.byteLength (s.regions C)
        (if (h.queue C).take (toWord max).toNat = [] then []
        else [⟨given.array.toNat, 16 * ((h.queue C).take (toWord max).toNat).length⟩]) :=
      (hg.parts rfl rfl).1
    rw [if_neg hne] at hparts
    exact hparts
  | isOpen =>
    refine does_look hk₀ hi ?_
    rw [flagOf_eq]
    rfl
  | isFinished =>
    refine does_look hk₀ hi ?_
    rw [flagOf_eq]
    rfl
  | bufferedBytes => exact does_look hk₀ hi rfl
  | droppedDatagrams => exact does_look hk₀ hi rfl
  | offerSdp => exact does_offerSdp hk₀ hi (hg.parts rfl rfl).1
  | handshakeTrace => exact does_look hk₀ hi rfl
  | negotiatedCipherSuite =>
    exact does_negotiatedCipherSuite hk₀ hi (halive (by simp)) (hg.parts rfl rfl).1
  | dispose => exact does_dispose hk₀ hi

end Instance

end RtcTunnel.Wasm
