import RtcTunnel.Core.Digits
import RtcTunnel.Core.Sdp

/-!
# Addresses that are written and read back

What `to_string` makes of an address, `str::parse` reads as that address: dotted quads, hex
groups, hex groups around a run of zeroes, and the form of a mapped IPv4 address.
-/

namespace RtcTunnel.Core

set_option autoImplicit false

namespace Net

theorem readOctet_zero (o : UInt8) {rest : Text} (hrest : NoDigit 10 rest) :
    readOctet 0 (Nat.toDigits 10 o.toNat ++ rest) = some (o, rest) := by
  have ho : o.toNat < 256 := o.toNat_lt
  have hn := readNumber_toDigits (some 3) false 255 (by decide : 1 < 10) (by decide)
    (by omega : o.toNat ≤ 255) (by rintro k ⟨⟩; omega) hrest
  rw [readOctet, readSeparator, if_pos rfl, hn]
  exact congrArg some (Prod.ext UInt8.ofNat_toNat rfl)

theorem readOctet_succ (index : Nat) (o : UInt8) {rest : Text} (hrest : NoDigit 10 rest) :
    readOctet (index + 1) ('.' :: (Nat.toDigits 10 o.toNat ++ rest)) = some (o, rest) := by
  have hzero := readOctet_zero o hrest
  rw [readOctet, readSeparator, if_pos rfl] at hzero
  rw [readOctet, readSeparator, if_neg (Nat.succ_ne_zero index)]
  exact hzero

theorem noDigit_dot (rest : Text) : NoDigit 10 ('.' :: rest) := noDigit_cons (by decide) rest

/-- **A dotted quad is read back.** -/
theorem readIpv4Addr_render (a : Ipv4Addr) {rest : Text} (hrest : NoDigit 10 rest) :
    readIpv4Addr (a.render ++ rest) = some (a, rest) := by
  obtain ⟨octets, hlen⟩ := a
  obtain ⟨x, y, z, w, rfl⟩ : ∃ x y z w, octets = [x, y, z, w] := by
    match octets, hlen with
    | [x, y, z, w], _ => exact ⟨x, y, z, w, rfl⟩
  have htext : Ipv4Addr.render ⟨[x, y, z, w], hlen⟩ ++ rest =
      Nat.toDigits 10 x.toNat ++ '.' :: (Nat.toDigits 10 y.toNat ++
        '.' :: (Nat.toDigits 10 z.toNat ++ '.' :: (Nat.toDigits 10 w.toNat ++ rest))) := by
    simp [Ipv4Addr.render, List.intercalate]
  rw [htext, readIpv4Addr, readOctet_zero x (noDigit_dot _)]
  simp only [Option.bind_eq_bind, Option.bind_some, readOctet_succ 0 y (noDigit_dot _),
    readOctet_succ 1 z (noDigit_dot _), readOctet_succ 2 w hrest]

/-- The first character of what stands behind a group. -/
def Follows (t : Text) : Prop := t.head? = some ':' ∨ t.head? = some ']'

theorem Follows.noDigit {t : Text} (h : Follows t) : NoDigit 10 t ∧ NoDigit 16 t := by
  cases t with
  | nil => rcases h with h | h <;> cases h
  | cons c t => rcases h with h | h <;> cases h <;>
      exact ⟨noDigit_cons (by decide) t, noDigit_cons (by decide) t⟩

theorem readNumber_of_noDigit {radix max : Nat} {maxDigits : Option Nat} {allowZeroPrefix : Bool}
    {t : Text} (h : NoDigit radix t) :
    readNumber radix maxDigits allowZeroPrefix max t = none := by
  simp [readNumber, takeDigits_of_noDigit h]

theorem readNumber_rest {radix max n : Nat} {maxDigits : Option Nat} {allowZeroPrefix : Bool}
    {t s : Text} (h : readNumber radix maxDigits allowZeroPrefix max t = some (n, s)) :
    s = (takeDigits radix t).2 := by
  unfold readNumber at h
  dsimp only at h
  split at h
  · cases h
  · cases h
    rfl

theorem readGivenChar_eq_none {c : Char} {t : Text} (h : t.head? ≠ some c) :
    readGivenChar c t = none := by
  cases t with
  | nil => rfl
  | cons d t => exact if_neg fun hd => h (congrArg some hd)

/-- A number that no dot follows does not begin a dotted quad. -/
theorem readIpv4Addr_eq_none {t : Text} (h : (takeDigits 10 t).2.head? ≠ some '.') :
    readIpv4Addr t = none := by
  have hzero : ∀ a s, readOctet 0 t = some (a, s) → s = (takeDigits 10 t).2 := by
    intro a s ha
    obtain ⟨⟨n, s'⟩, hn, hs⟩ := Option.bind_eq_some_iff.mp ha
    cases hs
    exact readNumber_rest hn
  have hone : ∀ s : Text, s.head? ≠ some '.' → readOctet 1 s = none := by
    intro s hs
    simp [readOctet, readSeparator, readGivenChar_eq_none hs]
  rw [readIpv4Addr]
  cases hr : readOctet 0 t with
  | none => rfl
  | some r => simp [hone r.2 (hzero r.1 r.2 hr ▸ h)]

theorem readIpv4Addr_hex (n : Nat) {t : Text} (ht : Follows t) :
    readIpv4Addr (Nat.toDigits 16 n ++ t) = none := by
  obtain ⟨ds, hds, hlt, -⟩ := toDigits_eq_map (by decide : 1 < 16) n
  have hdot : ∀ d < 16, Nat.digitChar d ≠ '.' := by decide
  refine readIpv4Addr_eq_none ?_
  rw [hds]
  clear hds
  induction ds with
  | nil =>
    rw [List.map_nil, List.nil_append, takeDigits_of_noDigit ht.noDigit.1]
    rcases ht with ht | ht <;> rw [ht] <;> decide
  | cons d ds ih =>
    rw [List.map_cons, List.cons_append, takeDigits]
    cases toDigit 10 (Nat.digitChar d) with
    | none => exact fun h => hdot d (hlt d (List.mem_cons_self ..)) (Option.some.inj h)
    | some e => exact ih fun e he => hlt e (List.mem_cons_of_mem _ he)

/-- A group with the separator it has at its index. -/
def separated (index : Nat) (t : Text) : Text := if index = 0 then t else ':' :: t

theorem readSeparator_separated {α : Type} (index : Nat) (inner : Reader α) (t : Text) :
    readSeparator ':' index inner (separated index t) = inner t := by
  unfold readSeparator separated
  split
  · rfl
  · rfl

/-- Groups from an index on. -/
def groupsText : Nat → List UInt16 → Text
  | _, [] => []
  | index, g :: gs => separated index (Nat.toDigits 16 g.toNat ++ groupsText (index + 1) gs)

theorem renderSegments_eq (segments : List UInt16) :
    renderSegments segments = groupsText 0 segments := by
  have hfrom : ∀ (gs : List UInt16) (g : UInt16) (index : Nat), renderSegments (g :: gs) =
      Nat.toDigits 16 g.toNat ++ groupsText (index + 1) gs := by
    intro gs
    induction gs with
    | nil => intro g index; simp [renderSegments, groupsText]
    | cons next gs ih =>
      intro g index
      have hn := ih next (index + 1)
      rw [renderSegments, List.map_cons] at hn
      rw [renderSegments, List.map_cons, List.map_cons, List.intercalate_cons_cons, hn, groupsText,
        separated, if_neg (Nat.succ_ne_zero index), List.append_assoc, List.singleton_append]
  cases segments with
  | nil => rfl
  | cons g gs => exact hfrom gs g 0

theorem follows_groupsText (index : Nat) (gs : List UInt16) {t : Text} (ht : Follows t) :
    Follows (groupsText (index + 1) gs ++ t) := by
  cases gs with
  | nil => exact ht
  | cons g gs => exact .inl rfl

theorem readGroups_separated (index left : Nat) (g : UInt16) {t : Text} (ht : Follows t) :
    readGroups index (left + 1) (separated index (Nat.toDigits 16 g.toNat ++ t)) =
      (g :: (readGroups (index + 1) left t).1, (readGroups (index + 1) left t).2) := by
  have hg : g.toNat < 65536 := g.toNat_lt
  have hn := readNumber_toDigits (some 4) true 65535 (by decide : 1 < 16) (by decide)
    (by omega : g.toNat ≤ 65535) (by rintro k ⟨⟩; omega) ht.noDigit.2
  rw [readGroups, readSeparator_separated, readSeparator_separated, readIpv4Addr_hex _ ht, hn]
  simp only [ite_self, UInt16.ofNat_toNat]

/-- Behind the groups stands a bracket or the mark of a run of zeroes. -/
def Ends (t : Text) : Prop := t.head? = some ']' ∨ ∃ rest, t = ':' :: ':' :: rest

theorem Ends.follows {t : Text} (h : Ends t) : Follows t := by
  rcases h with h | ⟨rest, rfl⟩
  · exact .inr h
  · exact .inl rfl

theorem readGroups_ends (index left : Nat) {t : Text} (ht : Ends t) :
    readGroups index left t = ([], false, t) := by
  have hnone : ∀ {α : Type} (inner : Reader α), (∀ s, Follows s → inner s = none) →
      readSeparator ':' index inner t = none := by
    intro α inner hi
    unfold readSeparator
    split
    · exact hi t ht.follows
    · rcases ht with ht | ⟨rest, rfl⟩
      · rw [readGivenChar_eq_none (by rw [ht]; decide)]
        rfl
      · exact hi (':' :: rest) (.inl rfl)
  have hv4 : ∀ s, Follows s → readIpv4Addr s = none := by
    intro s hs
    refine readIpv4Addr_eq_none ?_
    rw [takeDigits_of_noDigit hs.noDigit.1]
    rcases hs with hs | hs <;> rw [hs] <;> decide
  cases left with
  | zero => rfl
  | succ left =>
    rw [readGroups, hnone _ hv4, hnone _ fun s hs => readNumber_of_noDigit hs.noDigit.2]
    simp only [ite_self]

/-- **Hex groups are read back.** -/
theorem readGroups_groupsText (gs : List UInt16) (index left : Nat) {t : Text}
    (hl : gs.length ≤ left) (ht : Ends t) :
    readGroups index left (groupsText index gs ++ t) = (gs, false, t) := by
  induction gs generalizing index left with
  | nil => exact readGroups_ends index left ht
  | cons g gs ih =>
    obtain ⟨left, rfl⟩ : ∃ l, left = l + 1 := ⟨left - 1, by rw [List.length_cons] at hl; omega⟩
    have htext : groupsText index (g :: gs) ++ t = separated index
        (Nat.toDigits 16 g.toNat ++ (groupsText (index + 1) gs ++ t)) := by
      rw [groupsText, ← List.append_assoc]
      unfold separated
      split
      · rfl
      · rfl
    rw [htext, readGroups_separated index left g (follows_groupsText index gs ht.follows),
      ih (index + 1) left (by simpa using hl)]

/-- A span of zeroes within the segments. -/
structure Span.Zero (segments : List UInt16) (s : Span) : Prop where
  le : s.start + s.len ≤ segments.length
  zero : ∀ i, s.start ≤ i → i < s.start + s.len → segments[i]? = some 0

theorem Span.Zero.append {segments : List UInt16} {s : Span} (h : s.Zero segments) (g : UInt16) :
    s.Zero (segments ++ [g]) := by
  refine ⟨?_, fun i hs hi => ?_⟩
  · rw [List.length_append]
    have := h.le
    omega
  · rw [List.getElem?_append_left (by have := h.le; omega)]
    exact h.zero i hs hi

/-- The variables of the loop behind the segments. -/
structure Scanned (segments : List UInt16) (acc : Nat × Span × Span) : Prop where
  index : acc.1 = segments.length
  longest : acc.2.1.Zero segments
  current : acc.2.2.Zero segments
  last : acc.2.2.len ≠ 0 → acc.2.2.start + acc.2.2.len = segments.length

theorem zero_empty (segments : List UInt16) : Span.Zero segments ⟨0, 0⟩ :=
  ⟨Nat.zero_le _, fun i _ hi => absurd hi (Nat.not_lt_zero i)⟩

theorem Scanned.step {segments : List UInt16} {acc : Nat × Span × Span} (h : Scanned segments acc)
    (g : UInt16) : Scanned (segments ++ [g]) (zeroesStep acc g) := by
  obtain ⟨i, longest, current⟩ := acc
  obtain ⟨rfl, hlongest, hcurrent, hlast⟩ := h
  dsimp only at hlongest hcurrent hlast
  have hlen : (segments ++ [g]).length = segments.length + 1 := List.length_append
  unfold zeroesStep
  dsimp only
  by_cases hg : g = 0
  · rw [if_pos hg]
    -- The run that goes on, or begins, at this segment.
    let next : Span := ⟨if current.len = 0 then segments.length else current.start, current.len + 1⟩
    have hend : next.start + next.len = segments.length + 1 := by
      by_cases hc : current.len = 0
      · simp [next, hc]
      · have := hlast hc
        simp only [next, if_neg hc]
        omega
    have hnext : next.Zero (segments ++ [g]) := by
      refine ⟨by omega, fun i hs hi => ?_⟩
      by_cases hi' : i = segments.length
      · rw [hi', List.getElem?_concat_length, hg]
      · refine (hcurrent.append g).zero i ?_ ?_ <;> by_cases hc : current.len = 0
        all_goals simp only [next, hc, if_true, if_false] at hs hi
        all_goals omega
    refine ⟨hlen.symm, ?_, hnext, fun _ => by rw [hlen]; exact hend⟩
    dsimp only
    split
    · exact hnext
    · exact hlongest.append g
  · rw [if_neg hg]
    exact ⟨hlen.symm, hlongest.append g, zero_empty _, fun h => absurd rfl h⟩

theorem longestZeroes_zero (segments : List UInt16) : (longestZeroes segments).Zero segments := by
  have hscan : Scanned segments (segments.foldl zeroesStep (0, ⟨0, 0⟩, ⟨0, 0⟩)) := by
    induction segments using List.reverseRecOn with
    | nil => exact ⟨rfl, zero_empty _, zero_empty _, fun h => absurd rfl h⟩
    | append_singleton front g ih =>
      rw [List.foldl_append]
      exact ih.step g
  exact hscan.longest

theorem Span.Zero.split {segments : List UInt16} {s : Span} (h : s.Zero segments) :
    segments.take s.start ++ List.replicate s.len 0 ++ segments.drop (s.start + s.len) =
      segments := by
  have hle := h.le
  have hmiddle : (segments.drop s.start).take s.len = List.replicate s.len 0 := by
    refine List.ext_getElem? fun i => ?_
    by_cases hi : i < s.len
    · rw [List.getElem?_take_of_lt hi, List.getElem?_drop, List.getElem?_replicate_of_lt hi]
      exact h.zero _ (by omega) (by omega)
    · rw [List.getElem?_take_eq_none (by omega), List.getElem?_eq_none (by simpa using hi)]
  rw [← hmiddle, List.append_assoc, ← List.drop_drop, List.take_append_drop,
    List.take_append_drop]

theorem ipv6OfGroups_eq {a : Ipv6Addr} {head tail : List UInt16}
    (h : head ++ List.replicate (8 - head.length - tail.length) 0 ++ tail = a.segments) :
    ipv6OfGroups head tail = some a := by
  obtain ⟨segments, hlen⟩ := a
  dsimp only at h
  unfold ipv6OfGroups
  subst h
  exact dif_pos hlen

theorem uint16_halves (g : UInt16) :
    (g / 256).toUInt8.toUInt16 * 256 + g.toUInt8.toUInt16 = g := by
  refine UInt16.toNat.inj ?_
  have := g.toNat_lt
  simp
  omega

theorem readIpv6Addr_groups {a : Ipv6Addr} {t rest : Text} {embedded : Bool}
    (h : readGroups 0 8 t = (a.segments, embedded, rest)) : readIpv6Addr t = some (a, rest) := by
  have hlen : a.segments.length = 8 := a.length_eq
  have ha : ipv6OfGroups a.segments [] = some a := ipv6OfGroups_eq (by simp [hlen])
  rw [readIpv6Addr, h]
  simp [hlen, ha]

/-- Groups around a run of zeroes. -/
theorem readIpv6Addr_around {a : Ipv6Addr} {t middle rest : Text} {head tail : List UInt16}
    {embedded : Bool} (hhead : readGroups 0 8 t = (head, false, ':' :: ':' :: middle))
    (hne : head.length ≠ 8)
    (htail : readGroups 0 (8 - (head.length + 1)) middle = (tail, embedded, rest))
    (h : head ++ List.replicate (8 - head.length - tail.length) 0 ++ tail = a.segments) :
    readIpv6Addr t = some (a, rest) := by
  rw [readIpv6Addr, hhead]
  simp only [if_neg hne, Bool.false_eq_true, if_false, readGivenChar, if_pos, Option.bind_eq_bind,
    Option.bind_some, htail, ipv6OfGroups_eq h]

/-- The mapped form: one group and a dotted quad behind a run of zeroes. -/
theorem readIpv6Addr_mapped {a : Ipv6Addr} {octets : Ipv4Addr} {ab cd : UInt16} {t : Text}
    (ht : NoDigit 10 t) (ha : a.segments = [0, 0, 0, 0, 0, 0xFFFF, ab, cd])
    (ho : octets.octets = [(ab / 256).toUInt8, ab.toUInt8, (cd / 256).toUInt8, cd.toUInt8]) :
    readIpv6Addr ("::ffff:".toList ++ octets.render ++ t) = some (a, t) := by
  let middle := separated 0 (Nat.toDigits 16 (0xFFFF : UInt16).toNat ++
    separated 1 (octets.render ++ t))
  have hv4 : readGroups 1 6 (separated 1 (octets.render ++ t)) = ([ab, cd], true, t) := by
    rw [readGroups, if_pos (by decide), readSeparator_separated, readIpv4Addr_render octets ht]
    simp only [ipv4Groups, ho, uint16_halves]
  have htail : readGroups 0 7 middle = ([0xFFFF, ab, cd], true, t) := by
    rw [readGroups_separated 0 6 0xFFFF (.inl rfl), hv4]
  have hhead : readGroups 0 8 (':' :: ':' :: middle) = ([], false, ':' :: ':' :: middle) :=
    readGroups_ends 0 8 (.inr ⟨middle, rfl⟩)
  exact readIpv6Addr_around hhead (by decide) htail ha.symm

/-- **An IPv6 address is read back.** -/
theorem readIpv6Addr_render (a : Ipv6Addr) (rest : Text) :
    readIpv6Addr (a.render ++ ']' :: rest) = some (a, ']' :: rest) := by
  have hbracket : Ends (']' :: rest) := .inl rfl
  have hlen : a.segments.length = 8 := a.length_eq
  unfold Ipv6Addr.render
  split
  · rename_i ab cd ha
    exact readIpv6Addr_mapped (noDigit_cons (by decide) rest) ha rfl
  · dsimp only
    generalize hz : longestZeroes a.segments = zeroes
    have hzero : zeroes.Zero a.segments := hz ▸ longestZeroes_zero a.segments
    have hle := hzero.le
    split
    · rename_i hrun
      have htake : (a.segments.take zeroes.start).length = zeroes.start := by
        rw [List.length_take]
        omega
      have hdrop : (a.segments.drop (zeroes.start + zeroes.len)).length =
          8 - (zeroes.start + zeroes.len) := by
        rw [List.length_drop, hlen]
      have hhead := readGroups_groupsText (a.segments.take zeroes.start) 0 8 (by omega)
        (.inr ⟨renderSegments (a.segments.drop (zeroes.start + zeroes.len)) ++ ']' :: rest, rfl⟩)
      have htail := readGroups_groupsText (a.segments.drop (zeroes.start + zeroes.len)) 0
        (8 - ((a.segments.take zeroes.start).length + 1)) (by omega) hbracket
      rw [← renderSegments_eq] at hhead htail
      rw [List.append_assoc, List.append_assoc]
      refine readIpv6Addr_around hhead (by omega) htail ?_
      have hrest : 8 - (a.segments.take zeroes.start).length -
          (a.segments.drop (zeroes.start + zeroes.len)).length = zeroes.len := by omega
      rw [hrest, hzero.split]
    · rw [renderSegments_eq]
      exact readIpv6Addr_groups (readGroups_groupsText a.segments 0 8 (by omega) hbracket)

end Net

open Net

theorem readPort_toDigits (port : UInt16) :
    readPort (':' :: Nat.toDigits 10 port.toNat) = some (port, []) := by
  have hp : port.toNat < 65536 := port.toNat_lt
  have hn := readNumber_toDigits none true 65535 (by decide : 1 < 10) (by decide)
    (by omega : port.toNat ≤ 65535) (by rintro k ⟨⟩) (noDigit_nil 10)
  rw [List.append_nil] at hn
  simp only [readPort, readGivenChar, if_pos, Option.bind_eq_bind, Option.bind_some, hn,
    UInt16.ofNat_toNat]

theorem colon_not_mem_render_v4 (a : Ipv4Addr) : ':' ∉ a.render := by
  intro h
  rcases Text.mem_intercalate h with h | ⟨word, hword, h⟩
  · cases h
  · obtain ⟨o, _, rfl⟩ := List.mem_map.mp hword
    exact absurd (Nat.isDigit_of_mem_toDigits (by decide) (by decide) h) (by decide)

theorem colon_mem_render_v6 (a : Ipv6Addr) : ':' ∈ a.render := by
  unfold Ipv6Addr.render
  split
  · exact List.mem_append_left _ (by decide)
  · dsimp only
    split
    · exact List.mem_append_left _ (List.mem_append_right _ (by decide))
    · have hlen := a.length_eq
      rw [renderSegments_eq]
      match a.segments, hlen with
      | g :: next :: rest, _ =>
        rw [groupsText, groupsText]
        exact List.mem_append_right _ (List.mem_cons_self ..)

/-- **The address and the port of a host candidate are read back.** -/
theorem parseCandidateAddr_render (ip : IpAddr) (port : UInt16) :
    parseCandidateAddr ip.render (Nat.toDigits 10 port.toNat) = some ⟨ip, port, 0⟩ := by
  have hport := readPort_toDigits port
  cases ip with
  | v4 a =>
    have hcolon : List.contains a.render ':' = false := by
      simpa using colon_not_mem_render_v4 a
    have hread := readIpv4Addr_render a
      (noDigit_cons (by decide : toDigit 10 ':' = none) (Nat.toDigits 10 port.toNat))
    have hv4 : readSocketAddrV4 (a.render ++ ':' :: Nat.toDigits 10 port.toNat) =
        some (⟨.v4 a, port, 0⟩, []) := by
      simp only [readSocketAddrV4, hread, Option.bind_eq_bind, Option.bind_some, hport]
    have htext : a.render ++ ":".toList ++ Nat.toDigits 10 port.toNat =
        a.render ++ ':' :: Nat.toDigits 10 port.toNat := List.append_assoc ..
    simp only [parseCandidateAddr, IpAddr.render, hcolon, Bool.false_eq_true, if_false]
    rw [htext, SocketAddr.parse, hv4]
    rfl
  | v6 a =>
    have hcolon : List.contains a.render ':' = true := by
      simpa using colon_mem_render_v6 a
    have hv6 : readSocketAddrV6 ('[' :: (a.render ++ ']' :: ':' :: Nat.toDigits 10 port.toNat)) =
        some (⟨.v6 a, port, 0⟩, []) := by
      have hscope : readScopeId (']' :: ':' :: Nat.toDigits 10 port.toNat) = none := rfl
      simp only [readSocketAddrV6, readGivenChar, if_pos, readIpv6Addr_render, hscope,
        Option.getD_none, Option.bind_eq_bind, Option.bind_some, hport]
    have hv4 : readSocketAddrV4 ('[' :: (a.render ++ ']' :: ':' :: Nat.toDigits 10 port.toNat)) =
        none := rfl
    have htext : "[".toList ++ a.render ++ "]:".toList ++ Nat.toDigits 10 port.toNat =
        '[' :: (a.render ++ ']' :: ':' :: Nat.toDigits 10 port.toNat) := by
      simp
    simp only [parseCandidateAddr, IpAddr.render, hcolon, if_true]
    rw [htext, SocketAddr.parse, hv4, hv6]
    rfl

end RtcTunnel.Core
