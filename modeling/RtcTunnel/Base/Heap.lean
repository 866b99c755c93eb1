import Mathlib.Data.List.Basic
import RtcTunnel.Base.Run

/-!
# The blocks of an allocator

The history of an owner's calls to its allocator, and the blocks that are live after each of
them. An owner that frees live blocks only frees each of its allocations at most once.
-/

namespace RtcTunnel.Base.Heap

open RtcTunnel.Base.Run

set_option autoImplicit false

variable {π : Type} [DecidableEq π]

/-- A block with its size. -/
abbrev Block (π : Type) := π × Nat

inductive Use (π : Type) where
  | alloc (block : Block π)
  | free (block : Block π)
  | other

def Use.isAlloc : Use π → Bool
  | .alloc _ => true
  | _ => false

def Use.isFree : Use π → Bool
  | .free _ => true
  | _ => false

def after (live : List (Block π)) : Use π → List (Block π)
  | .alloc block => live ++ [block]
  | .free block => live.erase block
  | .other => live

/-- The blocks that are live after these calls. -/
def live (uses : List (Use π)) : List (Block π) := run after [] uses

/-- A free of a block that is live. -/
def FreesLive (live : List (Block π)) : Use π → Prop
  | .free block => block ∈ live
  | _ => True

/-- **Every allocation is live or was freed, and not both.** -/
theorem conserved {uses : List (Use π)} {blocks : List (Block π)}
    (h : Meets after FreesLive blocks uses) :
    uses.countP Use.isFree + (run after blocks uses).length =
      uses.countP Use.isAlloc + blocks.length := by
  induction uses generalizing blocks with
  | nil => simp
  | cons use uses ih =>
    obtain ⟨hu, h⟩ := h
    have hrest := ih h
    rw [run_cons, List.countP_cons, List.countP_cons]
    cases use with
    | alloc block =>
      simp only [after, List.length_append, List.length_singleton] at hrest
      simp only [Use.isAlloc, Use.isFree, after, Bool.false_eq_true, if_true, if_false]
      omega
    | free block =>
      have hpos : 0 < blocks.length := List.length_pos_of_mem hu
      simp only [after, List.length_erase_of_mem hu] at hrest
      simp only [Use.isAlloc, Use.isFree, after, Bool.false_eq_true, if_true, if_false]
      omega
    | other =>
      simp only [after] at hrest
      simp only [Use.isAlloc, Use.isFree, after, Bool.false_eq_true, if_false]
      omega

/-- Calls that free live blocks only and end with the blocks that were live before, whichever
these are. -/
def Balanced (uses : List (Use π)) : Prop :=
  ∀ blocks, Meets after FreesLive blocks uses ∧ (run after blocks uses).Perm blocks

theorem balanced_nil : Balanced ([] : List (Use π)) := fun _ => ⟨trivial, .rfl⟩

theorem balanced_other : Balanced [(.other : Use π)] := fun _ => ⟨⟨trivial, trivial⟩, .rfl⟩

theorem Balanced.append {uses uses' : List (Use π)} (h : Balanced uses) (h' : Balanced uses') :
    Balanced (uses ++ uses') := by
  intro blocks
  obtain ⟨hmeets, hperm⟩ := h blocks
  obtain ⟨hmeets', hperm'⟩ := h' (run after blocks uses)
  refine ⟨meets_append.mpr ⟨hmeets, hmeets'⟩, ?_⟩
  rw [run_append]
  exact hperm'.trans hperm

/-- **A block around balanced calls**: it is given back behind them. -/
theorem Balanced.bracket {uses : List (Use π)} (h : Balanced uses) (block : Block π) :
    Balanced (.alloc block :: (uses ++ [.free block])) := by
  intro blocks
  obtain ⟨hmeets, hperm⟩ := h (blocks ++ [block])
  have hmem : block ∈ run after (blocks ++ [block]) uses :=
    hperm.mem_iff.mpr (List.mem_append_right _ (List.mem_singleton.mpr rfl))
  refine ⟨⟨trivial, meets_append.mpr ⟨hmeets, hmem, trivial⟩⟩, ?_⟩
  rw [run_cons, run_append]
  have herase : ((blocks ++ [block]).erase block).Perm blocks := by
    have hcomm : (blocks ++ [block]).Perm ([block] ++ blocks) := List.perm_append_comm
    have := hcomm.erase block
    rwa [List.singleton_append, List.erase_cons_head] at this
  exact (hperm.erase block).trans herase

end RtcTunnel.Base.Heap
