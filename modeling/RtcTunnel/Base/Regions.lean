import RtcTunnel.Base.Memory

/-!
# Regions of a memory

Data that lies at an address stays there as long as all that is written lies apart from it.
An allocator that grants a region keeps it apart from the regions that are in use.
-/

namespace RtcTunnel.Base

set_option autoImplicit false

structure Region where
  addr : Nat
  len : Nat
  deriving DecidableEq

namespace Region

def Apart (r s : Region) : Prop := Base.Apart r.addr r.len s.addr s.len

theorem apart_iff {r s : Region} : r.Apart s ↔
    r.len = 0 ∨ s.len = 0 ∨ r.addr + r.len ≤ s.addr ∨ s.addr + s.len ≤ r.addr := by
  constructor
  · intro h
    by_contra hn
    have hr := h (s.addr - r.addr)
    have hs := h 0
    by_cases hle : r.addr ≤ s.addr
    · exact hr (by omega) 0 (by omega) (by omega)
    · exact hs (by omega) (r.addr - s.addr) (by omega) (by omega)
  · intro h i hi j hj
    omega

instance decidableApart (r s : Region) : Decidable (r.Apart s) := decidable_of_iff _ apart_iff.symm

theorem Apart.symm {r s : Region} (h : r.Apart s) : s.Apart r :=
  fun j hj i hi he => h i hi j hj he.symm

/-- Apart from a region is apart from the front of it. -/
theorem Apart.front {r : Region} {addr len len' : Nat} (h : r.Apart ⟨addr, len⟩) (hl : len' ≤ len) :
    r.Apart ⟨addr, len'⟩ := fun i hi j hj => h i hi j (Nat.lt_of_lt_of_le hj hl)

end Region

/-- What is assumed of an allocator: the regions that it grants lie in memory and not at null,
apart from the regions in use and from one another. -/
structure Grants (size : Nat) (live granted : List Region) : Prop where
  inside : ∀ r ∈ granted, r.addr + r.len ≤ size
  nonnull : ∀ r ∈ granted, r.addr ≠ 0
  apart : ∀ r ∈ granted, ∀ s ∈ live, r.Apart s
  pairwise : granted.Pairwise Region.Apart

theorem grants_iff {size : Nat} {live granted : List Region} : Grants size live granted ↔
    (∀ r ∈ granted, r.addr + r.len ≤ size) ∧ (∀ r ∈ granted, r.addr ≠ 0) ∧
      (∀ r ∈ granted, ∀ s ∈ live, r.Apart s) ∧ granted.Pairwise Region.Apart :=
  ⟨fun h => ⟨h.inside, h.nonnull, h.apart, h.pairwise⟩, fun ⟨hi, hn, ha, hp⟩ => ⟨hi, hn, ha, hp⟩⟩

instance decidableGrants (size : Nat) (live granted : List Region) :
    Decidable (Grants size live granted) := decidable_of_iff _ grants_iff.symm

namespace Grants

variable {size : Nat} {live live' granted granted' : List Region}

theorem front (h : Grants size live (granted ++ granted')) : Grants size live granted where
  inside r hr := h.inside r (List.mem_append_left _ hr)
  nonnull r hr := h.nonnull r (List.mem_append_left _ hr)
  apart r hr := h.apart r (List.mem_append_left _ hr)
  pairwise := (List.pairwise_append.mp h.pairwise).1

/-- What is granted is in use for what is granted next. -/
theorem behind (h : Grants size live (granted ++ granted')) :
    Grants size (live ++ granted) granted' where
  inside r hr := h.inside r (List.mem_append_right _ hr)
  nonnull r hr := h.nonnull r (List.mem_append_right _ hr)
  apart r hr s hs := by
    rcases List.mem_append.mp hs with hs | hs
    · exact h.apart r (List.mem_append_right _ hr) s hs
    · exact ((List.pairwise_append.mp h.pairwise).2.2 s hs r hr).symm
  pairwise := (List.pairwise_append.mp h.pairwise).2.1

theorem mono (h : Grants size live granted) (hl : ∀ r ∈ live', r ∈ live) :
    Grants size live' granted := ⟨h.inside, h.nonnull, fun r hr s hs => h.apart r hr s (hl s hs), h.pairwise⟩

end Grants

namespace Memory

variable {m : Memory} {addr : Nat} {data : List UInt8}

/-- These bytes lie at an address of the memory. -/
structure Holds (m : Memory) (addr : Nat) (data : List UInt8) : Prop where
  read : m.read addr data.length = data
  inside : addr + data.length ≤ m.size

theorem holds_write (m : Memory) (h : addr + data.length ≤ m.size) :
    (m.write addr data).Holds addr data := ⟨read_write m addr data, h⟩

theorem Holds.write (h : m.Holds addr data) {addr' : Nat} {data' : List UInt8}
    (ha : Region.Apart ⟨addr', data'.length⟩ ⟨addr, data.length⟩) :
    (m.write addr' data').Holds addr data :=
  ⟨(read_write_apart m ha).trans h.read, h.inside⟩

/-- A memory that has grown. -/
theorem Holds.grow (h : m.Holds addr data) {size : Nat} (hs : m.size ≤ size) :
    { m with size := size }.Holds addr data := ⟨h.read, Nat.le_trans h.inside hs⟩

/-- Data written at several places, one after the other. -/
def place (m : Memory) (blocks : List (Nat × List UInt8)) : Memory :=
  blocks.foldl (fun m block => m.write block.1 block.2) m

/-- Where a block lies. -/
def regionOf (block : Nat × List UInt8) : Region := ⟨block.1, block.2.length⟩

@[simp] theorem size_place (m : Memory) (blocks : List (Nat × List UInt8)) :
    (m.place blocks).size = m.size := by
  induction blocks generalizing m with
  | nil => rfl
  | cons block blocks ih => exact ih _

theorem Holds.place (h : m.Holds addr data) {blocks : List (Nat × List UInt8)}
    (ha : ∀ block ∈ blocks, (regionOf block).Apart ⟨addr, data.length⟩) :
    (m.place blocks).Holds addr data := by
  induction blocks generalizing m with
  | nil => exact h
  | cons block blocks ih =>
    obtain ⟨hblock, hblocks⟩ := List.forall_mem_cons.mp ha
    exact ih (h.write hblock) hblocks

/-- **Blocks that lie apart all lie where they were placed.** -/
theorem holds_place {blocks : List (Nat × List UInt8)}
    (hi : ∀ block ∈ blocks, block.1 + block.2.length ≤ m.size)
    (hp : (blocks.map regionOf).Pairwise Region.Apart) :
    ∀ block ∈ blocks, (m.place blocks).Holds block.1 block.2 := by
  induction blocks generalizing m with
  | nil => simp
  | cons block blocks ih =>
    obtain ⟨hblock, hblocks⟩ := List.forall_mem_cons.mp hi
    obtain ⟨hhead, htail⟩ := List.pairwise_cons.mp hp
    refine List.forall_mem_cons.mpr ⟨?_, ih hblocks htail⟩
    refine (holds_write m hblock).place fun other hm => ?_
    exact (hhead _ (List.mem_map_of_mem hm)).symm

/-- All that lies in these regions of one memory lies there in the other. -/
def Keeps (regions : List Region) (m m' : Memory) : Prop :=
  ∀ addr data, ⟨addr, data.length⟩ ∈ regions → m.Holds addr data → m'.Holds addr data

variable {regions : List Region} {m' m'' : Memory}

theorem Keeps.refl (regions : List Region) (m : Memory) : Keeps regions m m := fun _ _ _ h => h

theorem Keeps.trans (h : Keeps regions m m') (h' : Keeps regions m' m'') : Keeps regions m m'' :=
  fun addr data hr hd => h' addr data hr (h addr data hr hd)

theorem keeps_grow (regions : List Region) {size : Nat} (hs : m.size ≤ size) :
    Keeps regions m { m with size := size } := fun _ _ _ h => h.grow hs

theorem keeps_write (h : ∀ r ∈ regions, Region.Apart ⟨addr, data.length⟩ r) :
    Keeps regions m (m.write addr data) := fun _ _ hr hd => hd.write (h _ hr)

theorem keeps_place {blocks : List (Nat × List UInt8)}
    (h : ∀ block ∈ blocks, ∀ r ∈ regions, (regionOf block).Apart r) :
    Keeps regions m (m.place blocks) := fun _ _ hr hd => hd.place fun block hb => h block hb _ hr

end Memory

end RtcTunnel.Base
