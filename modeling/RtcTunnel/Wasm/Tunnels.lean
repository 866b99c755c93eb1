import RtcTunnel.Base.Parts
import RtcTunnel.Stack.Contracts
import RtcTunnel.Wasm.Calls

/-!
# The tunnels of one instance

The tunnels of an instance share a memory, and whatever is called on one of them in between
does not show in the others: each does what an engine does that has a memory for itself.
-/

namespace RtcTunnel.Wasm

open RtcTunnel.Core
open RtcTunnel.Abi (Scratch)
open RtcTunnel.Abi.Instance (JsError)
open RtcTunnel.Base (Grants Memory)
open RtcTunnel.Base.Run
open RtcTunnel.Stack (Backend direct directContract)

set_option autoImplicit false

/-- What the host does with an instance. -/
inductive Op (B : Backend) where
  | create (tunnel : B.Tunnel) (offer : Text) (given : Given)
  | call (i : Nat) (c : Call) (given : Given)

variable {B : Backend} (C : B.Contract)

/-- What is done with an instance is for one of its engines. -/
def Op.deed : Op B → Deed (Alone B) Call
  | .create tunnel offer _ => .make [⟨Stack.created tunnel, offer⟩]
  | .call i c _ => .own i c

/-- The engines that are created. -/
def createdBy (ops : List (Op B)) : List (Alone B) := ops.flatMap fun op => op.deed.made

/-- The calls of the `i`-th engine. -/
def callsOf (i : Nat) (ops : List (Op B)) : List Call := ops.flatMap fun op => op.deed.input i

namespace Instance

/-- An instance without tunnels. -/
def start (memory : Memory) : Instance B where
  memory := memory
  scratch := ⟨0, 0⟩
  handles := []

def step (s : Instance B) : Op B → Instance B
  | .create tunnel offer given => s.create C tunnel offer given
  | .call i c given => (s.call C i c given).2

/-- What the `i`-th engine answers. -/
def answersOf (i : Nat) (s : Instance B) : Op B → List (Except JsError Answer)
  | .create _ _ _ => []
  | .call j c given => if j = i then [(s.call C j c given).1] else []

/-- **What a step relies on**: the engine is there, and the allocator grants what the step asks
for. -/
def Fresh (s : Instance B) : Op B → Prop
  | .create tunnel _ given =>
    s.memory.size ≤ given.answers.byteLength ∧ given.answers.byteLength < 2147483648 ∧
      Grants given.answers.byteLength (s.regions C ++ [s.scratchRegion])
        (payloadRegions given (C.view tunnel).queue)
  | .call i c given => s.handles[i]?.elim False fun h => s.Granted C h c given

instance decidableFresh (s : Instance B) : ∀ op, Decidable (s.Fresh C op)
  | .create _ _ _ => inferInstanceAs (Decidable (_ ∧ _ ∧ _))
  | .call i c given =>
    match h : s.handles[i]? with
    | none => .isFalse (by rw [Fresh, h]; exact id)
    | some handle => decidable_of_iff (s.Granted C handle c given) (by rw [Fresh, h]; rfl)

variable {C} {s : Instance B}

theorem kept_start {memory : Memory} (hb : memory.size < 2147483648) :
    (start (B := B) memory).Kept C where
  bounded := hb
  ptr := Int.le_refl 0
  null _ := rfl
  inside := Nat.zero_le _
  stored _ hh := absurd hh List.not_mem_nil
  apart _ hr := absurd hr List.not_mem_nil

/-- A tunnel that is created leaves the queues of the others where they are. -/
theorem kept_create (hk : s.Kept C) {tunnel : B.Tunnel} {offer : Text} {given : Given}
    (hf : s.Fresh C (.create tunnel offer given)) : (s.create C tunnel offer given).Kept C := by
  obtain ⟨hgrown, hbounded, hg⟩ := hf
  have hk₀ := hk.grow hgrown hbounded
  have hlength : (given.places (C.view tunnel).queue.length).length =
      (C.view tunnel).queue.length := by
    rw [Given.places, List.length_map, List.length_range]
  have hkeep := keeps_placed (m := { s.memory with size := given.answers.byteLength })
    (fun _ hr => List.mem_append_left [s.scratchRegion] hr) hg
  have hsize := Base.Memory.size_place { s.memory with size := given.answers.byteLength }
    (placed (given.places (C.view tunnel).queue.length) (C.view tunnel).queue)
  refine ⟨hsize ▸ hk₀.bounded, hk₀.ptr, hk₀.null, hsize ▸ hk₀.inside, fun g hg' ha => ?_, fun r hr => ?_⟩
  · rcases List.mem_append.mp hg' with hg' | hg'
    · exact hk₀.stored_keep hkeep hg' ha
    · cases List.mem_singleton.mp hg'
      exact stored_place hlength hg
  · rw [regions, create, List.flatMap_append] at hr
    rcases List.mem_append.mp hr with hr | hr
    · exact hk.apart r hr
    · rw [List.flatMap_singleton] at hr
      exact hg.apart r hr _ (List.mem_append_right _ (List.mem_singleton.mpr rfl))

/-- A call is one of an engine that is there. -/
theorem Fresh.call {i : Nat} {c : Call} {given : Given} (hf : s.Fresh C (.call i c given)) :
    ∃ h, s.handles[i]? = some h ∧ s.Granted C h c given := by
  cases hi : s.handles[i]? with
  | none =>
    rw [Fresh, hi] at hf
    exact hf.elim
  | some h =>
    rw [Fresh, hi] at hf
    exact ⟨h, rfl, hf⟩

/-- A call moves its engine only. -/
theorem own_call {i : Nat} {c : Call} {given : Given} (hk : s.Kept C)
    (hf : s.Fresh C (.call i c given)) : ∃ a, s.alones[i]? = some a ∧
      (s.step C (.call i c given)).alones = s.alones.set i (a.step c) ∧
      s.answersOf C i (.call i c given) = (a.answer c).map .ok ∧
      (s.step C (.call i c given)).Kept C := by
  obtain ⟨h, hi, hg⟩ := Fresh.call hf
  have hdoes := does_call hk hi hg
  refine ⟨h.alone, ?_, hdoes.alones, ?_, hdoes.kept⟩
  · rw [alones, List.getElem?_map, hi]
    rfl
  · rw [answersOf, if_pos rfl, hdoes.answer]
    rfl

theorem ofParts : OfParts (step C) (Fresh C) (Kept C) Op.deed alones Alone.step (answersOf C)
    fun (a : Alone B) c => (a.answer c).map Except.ok where
  keep s op hk hf := by
    cases op with
    | create tunnel offer given => exact kept_create hk hf
    | call i c given =>
      obtain ⟨_, _, _, _, hkept⟩ := own_call hk hf
      exact hkept
  make s op made hk hf hd := by
    cases op with
    | create tunnel offer given =>
      cases hd
      exact ⟨List.map_append, fun _ => rfl⟩
    | call i c given => cases hd
  own s op j input hk hf hd := by
    cases op with
    | create tunnel offer given => cases hd
    | call i c given =>
      cases hd
      obtain ⟨a, ha, halones, hanswers, _⟩ := own_call hk hf
      exact ⟨a, ha, halones, hanswers, fun k hkj => if_neg (Ne.symm hkj)⟩

theorem outputs_map (a : Alone B) (calls : List Call) :
    outputs Alone.step (fun a c => (a.answer c).map Except.ok) a calls =
      (outputs Alone.step Alone.answer a calls).map (Except.ok (ε := JsError)) := by
  induction calls generalizing a with
  | nil => rfl
  | cons c calls ih => rw [outputs, ih, outputs, List.map_append]

/-- From any state on, an engine that is there or is created does what it does on its own. -/
theorem apart_run {ops : List (Op B)} (hk : s.Kept C) (hf : Meets (step C) (Fresh C) s ops)
    {i : Nat} {a : Alone B} (ha : (s.alones ++ createdBy ops)[i]? = some a) :
    outputs (step C) (answersOf C i) s ops =
        (outputs Alone.step Alone.answer a (callsOf i ops)).map .ok ∧
      (run (step C) s ops).alones[i]? = some (run Alone.step a (callsOf i ops)) := by
  rw [← outputs_map]
  exact ofParts.part_run hk hf ha

/-- **The tunnels of an instance do not show in one another.** Whatever is done with an instance,
with the calls of its engines interleaved in any order, as long as no engine is used after its
`dispose`, the allocator grants regions that lie apart from those in use, and the memory never
shrinks and stays below 2 GiB: each engine answers every call, without an exception, as it would
with a memory for itself, and its tunnel ends in the same state. -/
theorem tunnels_apart {memory : Memory} (hb : memory.size < 2147483648) {ops : List (Op B)}
    (hf : Meets (step C) (Fresh C) (start memory) ops) {i : Nat} {a : Alone B}
    (ha : (createdBy ops)[i]? = some a) :
    outputs (step C) (answersOf C i) (start memory) ops =
        (outputs Alone.step Alone.answer a (callsOf i ops)).map .ok ∧
      (run (step C) (start memory) ops).alones[i]? = some (run Alone.step a (callsOf i ops)) :=
  apart_run (kept_start hb) hf ha

/-- An allocator that goes up. -/
def givenAt (k : Nat) : Given where
  answers := .onePage fun _ => 4096
  payload j := UInt32.ofNat (8192 + 1024 * k + 64 * j)
  copy := UInt32.ofNat (32768 + 1024 * k)
  array := UInt32.ofNat (49152 + 1024 * k)
  replaced := []

def scripted : (direct Direct.Script.layers fun _ _ => none).Contract :=
  directContract Direct.Script.layers fun _ _ => none

/-- Two tunnels are fed one after the other, and one of them is disposed of. -/
def twoTunnels : List (Op (direct Direct.Script.layers fun _ _ => none)) :=
  [.create Direct.Script.dialer [] (givenAt 0), .create Direct.Script.listener [] (givenAt 1),
    .call 0 (.input (.finite 1) [0]) (givenAt 2), .call 1 (.input (.finite 1) [0]) (givenAt 3),
    .call 1 .pollEvent (givenAt 4), .call 0 (.drainEvents (.finite 64)) (givenAt 5),
    .call 0 .dispose (givenAt 6), .call 1 (.send [7]) (givenAt 7)]

theorem tunnels_apart_two :
    outputs (step scripted) (answersOf scripted 0) (start ⟨fun _ => 0, 65536⟩) twoTunnels =
      [.ok .done, .ok (.events [.datagram [1], .datagram [22]]), .ok .done] := by
  have hf : Meets (step scripted) (Fresh scripted) (start ⟨fun _ => 0, 65536⟩) twoTunnels := by
    decide +kernel
  rw [(tunnels_apart (by decide) hf (i := 0) rfl).1]
  decide +kernel

end Instance

end RtcTunnel.Wasm
