import RtcTunnel.Core.Text

/-!
# Socket addresses

`SocketAddr::from_str` of the Rust standard library, as a parser that hands on
the text it did not read. A reader that fails consumes nothing.
-/

namespace RtcTunnel.Core

set_option autoImplicit false

structure Ipv4Addr where
  octets : List UInt8
  length_eq : octets.length = 4
  deriving DecidableEq

def Ipv4Addr.new (a b c d : UInt8) : Ipv4Addr := ⟨[a, b, c, d], rfl⟩

structure Ipv6Addr where
  segments : List UInt16
  length_eq : segments.length = 8
  deriving DecidableEq

inductive IpAddr where
  | v4 (addr : Ipv4Addr)
  | v6 (addr : Ipv6Addr)
  deriving DecidableEq

def IpAddr.isUnspecified : IpAddr → Bool
  | .v4 a => a.octets.all (· == 0)
  | .v6 a => a.segments.all (· == 0)

/-- `scopeId` is zero for an IPv4 address. -/
structure SocketAddr where
  ip : IpAddr
  port : UInt16
  scopeId : UInt32
  deriving DecidableEq

def SocketAddr.isIpv4 (a : SocketAddr) : Bool :=
  match a.ip with
  | .v4 _ => true
  | .v6 _ => false

namespace Net

abbrev Reader (α : Type) := Text → Option (α × Text)

def readGivenChar (target : Char) : Reader Unit
  | c :: cs => if c = target then some ((), cs) else none
  | [] => none

/-- `char::to_digit` for a radix up to 16. -/
def toDigit (radix : Nat) (c : Char) : Option Nat :=
  let n := c.toNat
  let d :=
    if 48 ≤ n ∧ n ≤ 57 then some (n - 48)
    else if 97 ≤ n ∧ n ≤ 102 then some (n - 87)
    else if 65 ≤ n ∧ n ≤ 70 then some (n - 55)
    else none
  d.filter (· < radix)

/-- The digits at the front of the text and the rest. -/
def takeDigits (radix : Nat) : Text → List Nat × Text
  | [] => ([], [])
  | c :: cs =>
    match toDigit radix c with
    | none => ([], c :: cs)
    | some d => (d :: (takeDigits radix cs).1, (takeDigits radix cs).2)

def ofDigits (radix : Nat) (ds : List Nat) : Nat := ds.foldl (fun n d => n * radix + d) 0

/-- `Parser::read_number` for an unsigned type with values up to `max`: at least
one digit, at most `maxDigits` of them, and no leading zero unless allowed. -/
def readNumber (radix : Nat) (maxDigits : Option Nat) (allowZeroPrefix : Bool) (max : Nat) :
    Reader Nat := fun s =>
  let ds := (takeDigits radix s).1
  let n := ofDigits radix ds
  if ds.isEmpty || maxDigits.any (· < ds.length) || max < n ||
      (!allowZeroPrefix && s.head? == some '0' && 1 < ds.length) then none
  else some (n, (takeDigits radix s).2)

/-- A separator is read in front of every item but the first. -/
def readSeparator {α : Type} (sep : Char) (index : Nat) (inner : Reader α) : Reader α := fun s =>
  if index = 0 then inner s
  else do
    let (_, s) ← readGivenChar sep s
    inner s

def readOctet (index : Nat) : Reader UInt8 := fun s => do
  let (n, s) ← readSeparator '.' index (readNumber 10 (some 3) false 255) s
  some (UInt8.ofNat n, s)

def readIpv4Addr : Reader Ipv4Addr := fun s => do
  let (a, s) ← readOctet 0 s
  let (b, s) ← readOctet 1 s
  let (c, s) ← readOctet 2 s
  let (d, s) ← readOctet 3 s
  some (⟨[a, b, c, d], rfl⟩, s)

/-- The two groups an embedded IPv4 address stands for. -/
def ipv4Groups (a : Ipv4Addr) : List UInt16 :=
  match a.octets with
  | [a, b, c, d] => [a.toUInt16 * 256 + b.toUInt16, c.toUInt16 * 256 + d.toUInt16]
  | _ => []

/-- `read_groups` from group `index` on with `left` groups to go: the groups
read, whether they end in an embedded IPv4 address, and the rest. -/
def readGroups : Nat → Nat → Text → List UInt16 × Bool × Text
  | _, 0, s => ([], false, s)
  | index, left + 1, s =>
    match if 0 < left then readSeparator ':' index readIpv4Addr s else none with
    | some (a, s') => (ipv4Groups a, true, s')
    | none =>
      match readSeparator ':' index (readNumber 16 (some 4) true 65535) s with
      | none => ([], false, s)
      | some (g, s') =>
        let r := readGroups (index + 1) left s'
        (UInt16.ofNat g :: r.1, r.2.1, r.2.2)

def ipv6OfGroups (head tail : List UInt16) : Option Ipv6Addr :=
  let groups := head ++ List.replicate (8 - head.length - tail.length) 0 ++ tail
  if h : groups.length = 8 then some ⟨groups, h⟩ else none

/-- Either eight groups, or `::` between at most seven of them. -/
def readIpv6Addr : Reader Ipv6Addr := fun s => do
  let (head, headIpv4, rest) := readGroups 0 8 s
  if head.length = 8 then
    let a ← ipv6OfGroups head []
    some (a, rest)
  else if headIpv4 then none
  else
    let (_, rest) ← readGivenChar ':' rest
    let (_, rest) ← readGivenChar ':' rest
    let (tail, _, rest) := readGroups 0 (8 - (head.length + 1)) rest
    let a ← ipv6OfGroups head tail
    some (a, rest)

def readPort : Reader UInt16 := fun s => do
  let (_, s) ← readGivenChar ':' s
  let (n, s) ← readNumber 10 none true 65535 s
  some (UInt16.ofNat n, s)

def readScopeId : Reader UInt32 := fun s => do
  let (_, s) ← readGivenChar '%' s
  let (n, s) ← readNumber 10 none true 4294967295 s
  some (UInt32.ofNat n, s)

def readSocketAddrV4 : Reader SocketAddr := fun s => do
  let (a, s) ← readIpv4Addr s
  let (port, s) ← readPort s
  some (⟨.v4 a, port, 0⟩, s)

def readSocketAddrV6 : Reader SocketAddr := fun s => do
  let (_, s) ← readGivenChar '[' s
  let (a, s) ← readIpv6Addr s
  let (scope, s) := (readScopeId s).getD (0, s)
  let (_, s) ← readGivenChar ']' s
  let (port, s) ← readPort s
  some (⟨.v6 a, port, scope⟩, s)

end Net

/-- `str::parse::<SocketAddr>`: the whole text has to be the address. -/
def SocketAddr.parse (s : Text) : Option SocketAddr :=
  match (Net.readSocketAddrV4 s).or (Net.readSocketAddrV6 s) with
  | some (a, []) => some a
  | _ => none

namespace Net

/-- A run of zero segments. -/
structure Span where
  start : Nat
  len : Nat

/-- The body of the loop of `longestZeroes`. -/
def zeroesStep (acc : Nat × Span × Span) (segment : UInt16) : Nat × Span × Span :=
  let (i, longest, current) := acc
  if segment = 0 then
    let current : Span := ⟨if current.len = 0 then i else current.start, current.len + 1⟩
    (i + 1, if longest.len < current.len then current else longest, current)
  else (i + 1, longest, ⟨0, 0⟩)

/-- The first of the longest runs of zero segments. -/
def longestZeroes (segments : List UInt16) : Span :=
  (segments.foldl zeroesStep (0, ⟨0, 0⟩, ⟨0, 0⟩)).2.1

def renderSegments (segments : List UInt16) : Text :=
  [':'].intercalate (segments.map fun s => Nat.toDigits 16 s.toNat)

end Net

def Ipv4Addr.render (a : Ipv4Addr) : Text :=
  ['.'].intercalate (a.octets.map fun o => Nat.toDigits 10 o.toNat)

/-- The form `::ffff:a.b.c.d` of a mapped IPv4 address, or hex groups with the
longest run of zeroes left out. -/
def Ipv6Addr.render (a : Ipv6Addr) : Text :=
  match a.segments with
  | [0, 0, 0, 0, 0, 0xFFFF, ab, cd] =>
    let octets : List UInt8 := [(ab / 256).toUInt8, ab.toUInt8, (cd / 256).toUInt8, cd.toUInt8]
    "::ffff:".toList ++ Ipv4Addr.render ⟨octets, rfl⟩
  | segments =>
    let zeroes := Net.longestZeroes segments
    if 1 < zeroes.len then
      Net.renderSegments (segments.take zeroes.start) ++ "::".toList ++
        Net.renderSegments (segments.drop (zeroes.start + zeroes.len))
    else Net.renderSegments segments

/-- `IpAddr::to_string` -/
def IpAddr.render : IpAddr → Text
  | .v4 a => a.render
  | .v6 a => a.render

end RtcTunnel.Core
