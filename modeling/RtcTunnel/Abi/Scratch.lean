import RtcTunnel.Abi.Crossing
import RtcTunnel.Base.Heap

/-!
# The scratch buffer

The one buffer through which the tunnels of a module hand in their bytes. Its pointer and its
capacity are kept by the host, and follow the allocator as long as the host asks for what it
notes and is given it.
-/

namespace RtcTunnel.Abi

open RtcTunnel.Core
open RtcTunnel.Base.Heap
open RtcTunnel.Base.Run
open Instance (JsError jsNumber)

set_option autoImplicit false

/-- A number that the host passes for an `i32` or a `usize`. -/
def abiWord (n : Int) : UInt32 := UInt32.ofNat (n % 4294967296).toNat

theorem abiWord_jsNumber (w : UInt32) : abiWord (jsNumber w) = w := by
  have hlt := w.toNat_lt
  have hmod : (jsNumber w % 4294967296).toNat = w.toNat := by
    unfold jsNumber
    split <;> omega
  rw [abiWord, hmod, UInt32.ofNat_toNat]

theorem jsNumber_eq_zero {w : UInt32} : jsNumber w = 0 ↔ w = 0 := by
  have hlt := w.toNat_lt
  rw [← UInt32.toNat_inj, UInt32.toNat_zero]
  unfold jsNumber
  split <;> omega

/-- A nonnegative pointer is its own offset in the memory. -/
theorem toNat_jsNumber {w : UInt32} (h : 0 ≤ jsNumber w) : (jsNumber w).toNat = w.toNat := by
  have hlt := w.toNat_lt
  unfold jsNumber at h ⊢
  split at h
  · omega
  · omega

/-- What the module does in one call: the answer of its allocator, and the length of
`memory.buffer` by then. -/
structure Answers where
  alloc : UInt32 → UInt32
  byteLength : Nat
  byteLength_le : byteLength ≤ 4294967296

/-- A memory of one page. -/
def Answers.onePage (alloc : UInt32 → UInt32) : Answers := ⟨alloc, 65536, by decide⟩

def rtcTunnelAlloc (alloc : UInt32 → UInt32) (len : UInt32) : UInt32 :=
  if len = 0 then 0 else alloc len

/-- What the host does with the allocator and the memory. A write may store bytes, and returns
a pointer and a length or throws. -/
inductive Action where
  | alloc (len ptr : UInt32)
  | free (ptr len : UInt32)
  | wrote (stored : Option (Nat × Bytes)) (returned : Except JsError (Int × Nat))

/-- What a call does to the blocks of the scratch. `rtc_tunnel_free` leaves null and the empty
block alone. -/
def Action.use : Action → Use UInt32
  | .alloc len ptr => if ptr = 0 then .other else .alloc (ptr, len.toNat)
  | .free ptr len => if ptr ≠ 0 ∧ len ≠ 0 then .free (ptr, len.toNat) else .other
  | .wrote _ _ => .other

structure Scratch where
  ptr : Int
  cap : Nat

namespace Scratch

/-- The growth in `write`. -/
def grow (s : Scratch) (module : Answers) (length : Nat) : Scratch × List Action :=
  if s.cap < length then
    let freed := if s.ptr ≠ 0 then [.free (abiWord s.ptr) (abiWord s.cap)] else []
    let cap := max (max length (s.cap * 2)) 2048
    let ptr := rtcTunnelAlloc module.alloc (abiWord cap)
    (⟨jsNumber ptr, cap⟩, freed ++ [.alloc (abiWord cap) ptr])
  else (s, [])

/-- `new Uint8Array(memory.buffer, ptr, data.length).set(data)`, where there are bytes. -/
def store (s : Scratch) (module : Answers) (data : Bytes) :
    Except JsError (Option (Nat × Bytes)) :=
  if data = [] then .ok none
  else if 0 ≤ s.ptr ∧ s.ptr + data.length ≤ module.byteLength then .ok (some (s.ptr.toNat, data))
  else .error .rangeError

/-- The end of `write`: the bytes are stored and their place is returned. -/
def wrote (s : Scratch) (module : Answers) (data : Bytes) : Action :=
  match s.store module data with
  | .ok stored => .wrote stored (.ok (s.ptr, data.length))
  | .error e => .wrote none (.error e)

def write (s : Scratch) (module : Answers) (data : Bytes) : Scratch × List Action :=
  let grown := s.grow module data.length
  (grown.1, grown.2 ++ [grown.1.wrote module data])

def release (s : Scratch) : Scratch × List Action :=
  if s.ptr ≠ 0 then (⟨0, 0⟩, [.free (abiWord s.ptr) (abiWord s.cap)]) else (s, [])

end Scratch

/-- The scratch with all that was done through it. -/
structure Shared where
  scratch : Scratch
  history : List Action

namespace Shared

inductive Op where
  | write (module : Answers) (data : Bytes)
  | release

def start : Shared := ⟨⟨0, 0⟩, []⟩

/-- What a call leaves. -/
def called (s : Shared) (r : Scratch × List Action) : Shared := ⟨r.1, s.history ++ r.2⟩

def step (s : Shared) : Op → Shared
  | .write module data => s.called (s.scratch.write module data)
  | .release => s.called s.scratch.release

end Shared

/-- The blocks that the scratch owns after these actions. -/
def owned (actions : List Action) : List (Block UInt32) := live (actions.map Action.use)

/-- **The scratch stays inside its allocation.** -/
structure Inside (history : List Action) : Prop where
  one : ∀ front back, history = front ++ back → (owned front).length ≤ 1
  freed : ∀ front ptr len back, history = front ++ .free ptr len :: back →
    owned front = [(ptr, len.toNat)]
  once : ∀ front back, history = front ++ back →
    (front.map Action.use).countP Use.isFree + (owned front).length =
      (front.map Action.use).countP Use.isAlloc
  stored : ∀ front offset data returned back,
    history = front ++ .wrote (some (offset, data)) returned :: back →
    ∃ ptr size, owned front = [(ptr, size)] ∧ offset = ptr.toNat ∧ data.length ≤ size ∧
      returned = .ok (jsNumber ptr, data.length)

/-- What the blocks allow of an action of the allocator. -/
def Owns (blocks : List (Block UInt32)) : Action → Prop
  | .alloc _ _ => blocks = []
  | .free ptr len => ptr ≠ 0 ∧ len ≠ 0 ∧ blocks = [(ptr, len.toNat)]
  | .wrote _ _ => True

/-- What the blocks allow of a write. -/
def Covers (blocks : List (Block UInt32)) : Action → Prop
  | .wrote (some (offset, data)) returned =>
    ∃ ptr size, blocks = [(ptr, size)] ∧ offset = ptr.toNat ∧ data.length ≤ size ∧
      returned = .ok (jsNumber ptr, data.length)
  | _ => True

def track (blocks : List (Block UInt32)) (a : Action) : List (Block UInt32) := after blocks a.use

theorem run_track (blocks : List (Block UInt32)) (actions : List Action) :
    run track blocks actions = run after blocks (actions.map Action.use) := by
  induction actions generalizing blocks with
  | nil => rfl
  | cons a actions ih => exact ih (track blocks a)

theorem owned_eq (actions : List Action) : owned actions = run track [] actions :=
  (run_track [] actions).symm

theorem length_le_of_owns {actions : List Action} (h : Meets track Owns [] actions) :
    (owned actions).length ≤ 1 := by
  rw [owned_eq]
  refine invariant_of_meets (I := fun blocks : List (Block UInt32) => blocks.length ≤ 1)
    (fun blocks a hb ho => ?_) (Nat.zero_le _) h
  unfold track Action.use
  cases a with
  | alloc len ptr =>
    have hnil : blocks = [] := ho
    rw [hnil]
    dsimp only
    split <;> simp [after]
  | free ptr len =>
    dsimp only
    split
    · exact Nat.le_trans List.length_erase_le hb
    · exact hb
  | wrote stored returned => exact hb

theorem freesLive_of_owns {actions : List Action} {blocks : List (Block UInt32)}
    (h : Meets track Owns blocks actions) :
    Meets after FreesLive blocks (actions.map Action.use) := by
  induction actions generalizing blocks with
  | nil => trivial
  | cons a actions ih =>
    obtain ⟨ho, hrest⟩ := h
    refine ⟨?_, ih hrest⟩
    unfold Action.use
    cases a with
    | alloc len ptr =>
      dsimp only
      split <;> exact trivial
    | free ptr len =>
      obtain ⟨hptr, hlen, rfl⟩ := ho
      dsimp only
      rw [if_pos ⟨hptr, hlen⟩]
      exact List.mem_singleton_self _
    | wrote stored returned => exact trivial

/-- A scratch that owns its blocks owns one at most, and frees it once. -/
theorem inside_iff_covers {history : List Action} (h : Meets track Owns [] history) :
    Inside history ↔ Meets track Covers [] history := by
  have hfront : ∀ front back, history = front ++ back → Meets track Owns [] front := by
    rintro front back rfl
    exact (meets_append.mp h).1
  constructor
  · intro hi
    rw [meets_iff_split]
    intro front a back he
    rw [← owned_eq]
    cases a with
    | wrote stored returned =>
      cases stored with
      | none => exact trivial
      | some stored => exact hi.stored front stored.1 stored.2 returned back he
    | _ => exact trivial
  · intro hc
    refine ⟨fun front back he => length_le_of_owns (hfront front back he),
      fun front ptr len back he => ?_, fun front back he => ?_,
      fun front offset data returned back he => ?_⟩
    · rw [owned_eq]
      exact (meets_iff_split.mp h front _ back he).2.2
    · have hcons := conserved (freesLive_of_owns (hfront front back he))
      rwa [List.length_nil, Nat.add_zero] at hcons
    · rw [owned_eq]
      exact meets_iff_split.mp hc front _ back he

namespace Scratch

/-- The block that the pointer and the capacity name. -/
def blocks (s : Scratch) : List (Block UInt32) :=
  if s.ptr = 0 then [] else [(abiWord s.ptr, (abiWord s.cap).toNat)]

/-- The pointer is one of the allocator, for a capacity that is not empty. -/
def Valid (s : Scratch) : Prop :=
  s.ptr ≠ 0 → (∃ w, s.ptr = jsNumber w) ∧ abiWord s.cap ≠ 0

theorem abiWord_ptr_ne {s : Scratch} (h : s.Valid) (hp : s.ptr ≠ 0) : abiWord s.ptr ≠ 0 := by
  obtain ⟨⟨w, hw⟩, _⟩ := h hp
  rw [hw, abiWord_jsNumber]
  exact fun hz => hp (hw.trans (jsNumber_eq_zero.mpr hz))

/-- The free of the block. -/
theorem owns_free {s : Scratch} (h : s.Valid) (hp : s.ptr ≠ 0) :
    Owns s.blocks (.free (abiWord s.ptr) (abiWord s.cap)) ∧
      track s.blocks (.free (abiWord s.ptr) (abiWord s.cap)) = [] := by
  have hptr := abiWord_ptr_ne h hp
  have hcap := (h hp).2
  have hblocks : s.blocks = [(abiWord s.ptr, (abiWord s.cap).toNat)] := if_neg hp
  refine ⟨⟨hptr, hcap, hblocks⟩, ?_⟩
  rw [track, Action.use, if_pos ⟨hptr, hcap⟩, hblocks]
  exact List.erase_cons_head ..

/-- The answer to a request becomes the block. -/
theorem blocks_alloc (alloc : UInt32 → UInt32) (cap : Nat) :
    track [] (.alloc (abiWord cap) (rtcTunnelAlloc alloc (abiWord cap))) =
        (Scratch.mk (jsNumber (rtcTunnelAlloc alloc (abiWord cap))) cap).blocks ∧
      (Scratch.mk (jsNumber (rtcTunnelAlloc alloc (abiWord cap))) cap).Valid := by
  constructor
  · by_cases hz : rtcTunnelAlloc alloc (abiWord cap) = 0
    · rw [track, Action.use, if_pos hz, blocks, if_pos (jsNumber_eq_zero.mpr hz)]
      rfl
    · rw [track, Action.use, if_neg hz, blocks, if_neg fun h => hz (jsNumber_eq_zero.mp h),
        abiWord_jsNumber]
      rfl
  · intro hp
    refine ⟨⟨_, rfl⟩, fun hz => hp (jsNumber_eq_zero.mpr ?_)⟩
    exact if_pos hz

/-- **Growth gives the old block back and owns the new one.** -/
theorem owns_grow {s : Scratch} (h : s.Valid) (module : Answers) (length : Nat) :
    Meets track Owns s.blocks (s.grow module length).2 ∧
      run track s.blocks (s.grow module length).2 = (s.grow module length).1.blocks ∧
      (s.grow module length).1.Valid := by
  unfold grow
  split
  · obtain ⟨hblocks, hvalid⟩ := blocks_alloc module.alloc (max (max length (s.cap * 2)) 2048)
    by_cases hp : s.ptr ≠ 0
    · obtain ⟨hfree, hnone⟩ := owns_free h hp
      dsimp only
      rw [if_pos hp]
      refine ⟨⟨hfree, ?_, trivial⟩, ?_, hvalid⟩
      · rw [hnone]
        rfl
      · rw [List.singleton_append, run_cons, hnone, run_cons, run_nil]
        exact hblocks
    · have hnil : s.blocks = [] := if_pos (not_not.mp hp)
      dsimp only
      rw [if_neg hp, hnil, List.nil_append]
      exact ⟨⟨rfl, trivial⟩, hblocks, hvalid⟩
  · exact ⟨trivial, rfl, h⟩

/-- The capacity that a write of this length goes on with. -/
def capacity (s : Scratch) (length : Nat) : Nat :=
  if s.cap < length then max (max length (s.cap * 2)) 2048 else s.cap

/-- The pointer through which a write of this length goes. -/
def through (s : Scratch) (module : Answers) (length : Nat) : Int :=
  if s.cap < length then jsNumber (rtcTunnelAlloc module.alloc (abiWord (s.capacity length)))
  else s.ptr

theorem grow_eq (s : Scratch) (module : Answers) (length : Nat) :
    (s.grow module length).1 = ⟨s.through module length, s.capacity length⟩ := by
  unfold grow through capacity
  split <;> rfl

/-- A write of some bytes for which the memory has room goes through a pointer that the
allocator did not refuse, and was asked for at least as many bytes. -/
def Served (s : Scratch) (module : Answers) (data : Bytes) : Prop :=
  data ≠ [] → 0 ≤ s.through module data.length →
    s.through module data.length + data.length ≤ module.byteLength →
      s.through module data.length ≠ 0 ∧ data.length ≤ s.capacity data.length % 4294967296

instance decidableServed (s : Scratch) (module : Answers) (data : Bytes) :
    Decidable (s.Served module data) :=
  inferInstanceAs (Decidable (_ → _ → _ → _ ∧ _))

theorem toNat_abiWord (n : Nat) : (abiWord n).toNat = n % 4294967296 := by
  rw [abiWord, UInt32.toNat_ofNat']
  omega

/-- A block covers the bytes stored through its pointer when it is as long as they are. -/
theorem covers_store {s : Scratch} (h : s.Valid) (module : Answers) (data : Bytes) :
    Covers s.blocks (s.wrote module data) ↔ (data ≠ [] → 0 ≤ s.ptr → s.ptr + data.length ≤ module.byteLength →
      s.ptr ≠ 0 ∧ data.length ≤ s.cap % 4294967296) := by
  unfold wrote store
  by_cases hd : data = []
  · rw [if_pos hd]
    exact ⟨fun _ hne => absurd hd hne, fun _ => trivial⟩
  rw [if_neg hd]
  by_cases hroom : 0 ≤ s.ptr ∧ s.ptr + data.length ≤ module.byteLength
  · rw [if_pos hroom]
    constructor
    · rintro ⟨ptr, size, hblocks, _, hsize, _⟩ _ _ _
      by_cases hp : s.ptr = 0
      · rw [blocks, if_pos hp] at hblocks
        cases hblocks
      · rw [blocks, if_neg hp, toNat_abiWord] at hblocks
        cases hblocks
        exact ⟨hp, hsize⟩
    · intro hs
      obtain ⟨hp, hsize⟩ := hs hd hroom.1 hroom.2
      obtain ⟨⟨w, hw⟩, _⟩ := h hp
      refine ⟨w, s.cap % 4294967296, ?_, ?_, hsize, ?_⟩
      · rw [blocks, if_neg hp, toNat_abiWord, hw, abiWord_jsNumber]
      · rw [hw] at hroom ⊢
        exact toNat_jsNumber hroom.1
      · rw [hw]
  · rw [if_neg hroom]
    exact ⟨fun _ _ hle hfits => absurd ⟨hle, hfits⟩ hroom, fun _ => trivial⟩

theorem covers_grow (s : Scratch) (module : Answers) (length : Nat) (live : List (Block UInt32)) :
    Meets track Covers live (s.grow module length).2 := by
  unfold grow
  split
  · dsimp only
    split
    · exact ⟨trivial, trivial, trivial⟩
    · exact ⟨trivial, trivial⟩
  · exact trivial

end Scratch

namespace Shared

/-- What the scratch notes is what it owns. -/
structure Kept (s : Shared) : Prop where
  owns : Meets track Owns [] s.history
  blocks : run track [] s.history = s.scratch.blocks
  valid : s.scratch.Valid

theorem kept_start : start.Kept := ⟨trivial, rfl, fun h => absurd rfl h⟩

/-- Some more actions, under which the blocks follow the scratch. -/
theorem Kept.append {s : Shared} (h : s.Kept) {r : Scratch} {actions : List Action}
    (ho : Meets track Owns s.scratch.blocks actions)
    (hb : run track s.scratch.blocks actions = r.blocks) (hv : r.Valid) :
    (s.called (r, actions)).Kept := by
  refine ⟨meets_append.mpr ⟨h.owns, ?_⟩, ?_, hv⟩
  · rw [h.blocks]
    exact ho
  · rw [called, run_append, h.blocks, hb]

theorem write_eq (s : Scratch) (module : Answers) (data : Bytes) :
    s.write module data = ((s.grow module data.length).1,
      (s.grow module data.length).2 ++ [(s.grow module data.length).1.wrote module data]) := rfl

theorem wrote_use (s : Scratch) (module : Answers) (data : Bytes) :
    (s.wrote module data).use = .other ∧ ∀ blocks, Owns blocks (s.wrote module data) := by
  unfold Scratch.wrote
  split <;> exact ⟨rfl, fun _ => trivial⟩

theorem kept_step {s : Shared} (op : Op) (h : s.Kept) : (s.step op).Kept := by
  cases op with
  | write module data =>
    obtain ⟨hgrow, hblocks, hvalid⟩ := Scratch.owns_grow h.valid module data.length
    obtain ⟨huse, howns⟩ := wrote_use (s.scratch.grow module data.length).1 module data
    rw [step, write_eq]
    refine h.append (meets_append.mpr ⟨hgrow, howns _, trivial⟩) ?_ hvalid
    rw [run_append, hblocks, run_cons, run_nil, track, huse]
    rfl
  | release =>
    rw [step]
    unfold Scratch.release
    split
    · rename_i hp
      obtain ⟨hfree, hnone⟩ := Scratch.owns_free h.valid hp
      exact h.append ⟨hfree, trivial⟩ hnone fun hz => absurd rfl hz
    · exact h.append trivial rfl h.valid

/-- The condition on a step. -/
def Served (s : Shared) : Op → Prop
  | .write module data => s.scratch.Served module data
  | .release => True

theorem covers_step {s : Shared} (op : Op) (h : s.Kept) (hc : Meets track Covers [] s.history) :
    Meets track Covers [] (s.step op).history ↔ s.Served op := by
  cases op with
  | write module data =>
    obtain ⟨_, hblocks, hvalid⟩ := Scratch.owns_grow h.valid module data.length
    have hlast : Covers (s.scratch.grow module data.length).1.blocks
        ((s.scratch.grow module data.length).1.wrote module data) ↔
          s.scratch.Served module data := by
      refine (Scratch.covers_store hvalid module data).trans ?_
      rw [Scratch.grow_eq]
      exact Iff.rfl
    rw [Served, ← hlast, ← hblocks, ← h.blocks, ← run_append, step, write_eq, called,
      ← List.append_assoc, meets_append, meets_append]
    exact ⟨fun hm => hm.2.1, fun hm =>
      ⟨⟨hc, Scratch.covers_grow s.scratch module data.length _⟩, hm, trivial⟩⟩
  | release =>
    refine ⟨fun _ => trivial, fun _ => meets_append.mpr ⟨hc, ?_⟩⟩
    unfold Scratch.release
    split
    · exact ⟨trivial, trivial⟩
    · exact trivial

/-- The actions so far are those of the steps behind it. -/
theorem covers_of_step {s : Shared} {op : Op} (h : Meets track Covers [] (s.step op).history) :
    Meets track Covers [] s.history := by
  cases op <;> exact (meets_append.mp h).1

/-- **The scratch stays inside its allocation exactly as long as it is served**: every write
for which the memory has room goes through a block of enough bytes. What it owns and gives back
is right in every run. -/
theorem inside_iff (ops : List Op) :
    Inside (run step start ops).history ↔ Meets step Served start ops := by
  rw [inside_iff_covers (invariant (I := Kept) (fun _ op => kept_step op) ops kept_start).owns]
  exact iff_meets (I := fun s : Shared => Meets track Covers [] s.history) (J := Kept)
    (fun _ op => kept_step op) (fun _ op h hc => covers_step op h hc)
    (fun _ _ _ h => covers_of_step h) kept_start trivial

/-- A byte after a refusal, and another when memory is back: the host notes the capacity it did
not get, and both are stored at null. -/
def refused : List Op :=
  [.write (.onePage fun _ => 0) [7], .write (.onePage fun _ => 1024) [8]]

theorem refused_outside :
    (run step start refused).history =
        [.alloc 2048 0, .wrote (some (0, [7])) (.ok (0, 1)), .wrote (some (0, [8])) (.ok (0, 1))] ∧
      ¬ Inside (run step start refused).history := by
  have hrun : (run step start refused).history =
      [.alloc 2048 0, .wrote (some (0, [7])) (.ok (0, 1)),
        .wrote (some (0, [8])) (.ok (0, 1))] := rfl
  refine ⟨hrun, fun hi => ?_⟩
  obtain ⟨ptr, size, hlive, _⟩ := hi.stored [.alloc 2048 0] 0 [7] (.ok (0, 1)) _ hrun
  cases hlive

end Shared

end RtcTunnel.Abi
