import Mathlib.Data.List.Basic

/-!
# Linear memory

Bytes at addresses, little-endian words, and what a write leaves of a region that lies
apart from it.
-/

namespace RtcTunnel.Base

set_option autoImplicit false

structure Memory where
  bytes : Nat → UInt8
  size : Nat

/-- Two regions have no address in common. -/
def Apart (a n b m : Nat) : Prop := ∀ i < n, ∀ j < m, a + i ≠ b + j

instance (a n b m : Nat) : Decidable (Apart a n b m) :=
  inferInstanceAs (Decidable (∀ i < n, ∀ j < m, a + i ≠ b + j))

namespace Memory

def read (m : Memory) (addr len : Nat) : List UInt8 :=
  (List.range len).map fun i => m.bytes (addr + i)

def write (m : Memory) (addr : Nat) (data : List UInt8) : Memory :=
  { m with bytes := fun p => if addr ≤ p then data.getD (p - addr) (m.bytes p) else m.bytes p }

@[simp] theorem size_write (m : Memory) (addr : Nat) (data : List UInt8) :
    (m.write addr data).size = m.size := rfl

theorem read_eq_of_bytes {m m' : Memory} {addr len : Nat}
    (h : ∀ i < len, m.bytes (addr + i) = m'.bytes (addr + i)) :
    m.read addr len = m'.read addr len :=
  List.map_congr_left fun i hi => h i (List.mem_range.mp hi)

/-- What is written is read. -/
theorem read_write (m : Memory) (addr : Nat) (data : List UInt8) :
    (m.write addr data).read addr data.length = data := by
  refine List.ext_getElem (by simp [read]) fun i hi hi' => ?_
  simp [read, write, List.getD_eq_getElem?_getD, List.getElem?_eq_getElem hi']

/-- A write keeps what lies apart from it. -/
theorem read_write_apart (m : Memory) {addr addr' len : Nat} {data : List UInt8}
    (h : Apart addr data.length addr' len) :
    (m.write addr data).read addr' len = m.read addr' len := by
  refine read_eq_of_bytes fun j hj => ?_
  by_cases hle : addr ≤ addr' + j
  · have hout : data.length ≤ addr' + j - addr := by
      by_contra hlt
      have := h (addr' + j - addr) (by omega) j hj
      omega
    simp [write, hle, List.getD_eq_getElem?_getD, List.getElem?_eq_none hout]
  · simp [write, hle]

def wordBytes (w : UInt32) : List UInt8 :=
  [w.toUInt8, (w / 256).toUInt8, (w / 65536).toUInt8, (w / 16777216).toUInt8]

/-- The word that four bytes stand for. -/
def wordOf : List UInt8 → UInt32
  | [a, b, c, d] => a.toUInt32 + b.toUInt32 * 256 + c.toUInt32 * 65536 + d.toUInt32 * 16777216
  | _ => 0

theorem wordOf_wordBytes (w : UInt32) : wordOf (wordBytes w) = w := by
  refine UInt32.toNat.inj ?_
  have := w.toNat_lt
  simp [wordOf, wordBytes]
  omega

def readWords (m : Memory) (addr : Nat) : Nat → List UInt32
  | 0 => []
  | count + 1 => wordOf (m.read addr 4) :: readWords m (addr + 4) count

def writeWords (m : Memory) (addr : Nat) (words : List UInt32) : Memory :=
  m.write addr (words.flatMap wordBytes)

theorem length_flatMap_wordBytes (words : List UInt32) :
    (words.flatMap wordBytes).length = 4 * words.length := by
  induction words with
  | nil => rfl
  | cons w words ih =>
    rw [List.flatMap_cons, List.length_append, ih, List.length_cons]
    show 4 + 4 * words.length = _
    omega

theorem read_append (m : Memory) (addr len len' : Nat) :
    m.read addr (len + len') = m.read addr len ++ m.read (addr + len) len' := by
  rw [read, List.range_add, List.map_append, List.map_map]
  refine congrArg _ (List.map_congr_left fun i _ => ?_)
  simp [Nat.add_assoc]

/-- **Words are read back.** -/
theorem readWords_of_read {m : Memory} {addr : Nat} {words : List UInt32}
    (h : m.read addr (4 * words.length) = words.flatMap wordBytes) :
    m.readWords addr words.length = words := by
  induction words generalizing addr with
  | nil => rfl
  | cons w words ih =>
    have hlen : 4 * (w :: words).length = 4 + 4 * words.length := by
      rw [List.length_cons]
      omega
    rw [hlen, read_append, List.flatMap_cons] at h
    obtain ⟨hw, hrest⟩ := List.append_inj h (by simp [read, wordBytes])
    rw [List.length_cons, readWords, hw, wordOf_wordBytes, ih hrest]

theorem readWords_writeWords (m : Memory) (addr : Nat) (words : List UInt32) :
    (m.writeWords addr words).readWords addr words.length = words := by
  refine readWords_of_read ?_
  rw [← length_flatMap_wordBytes]
  exact read_write m addr _

end Memory

end RtcTunnel.Base
