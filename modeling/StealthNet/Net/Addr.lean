/-
  StealthNet.Net.Addr
  ───────────────────
  ADDRESSES AND THEIR TEXT FORMATS.

  The daemon reads addresses from three textual sources: peer entries
  (`SocketAddr`), admin targets (`IpAddr`) and routing prefixes (`IpNet`).
  The first two are the standard library's; the readers below follow its
  parser, which consumes characters from the front, restores the input when
  a sub-reader fails, and accepts only if nothing is left.

  §1  addresses and prefixes;
  §2  the readers;
  §3  the printers.
-/
import Mathlib.Data.List.Basic

namespace StealthNet

/-- The bytes of a packet, a key or a datagram. -/
abbrev Bytes := List UInt8

/-! ## §1. Addresses and prefixes. -/

/-- An IP address of either family. -/
inductive IpAddr
  | v4 (bits : BitVec 32)
  | v6 (bits : BitVec 128)
  deriving DecidableEq

/-- The big-endian value of a list of octets. -/
def ofOctets (w : Nat) (octets : Bytes) : BitVec w :=
  BitVec.ofNat w (octets.foldl (fun n b => n * 256 + b.toNat) 0)

/-- The big-endian value of a list of 16-bit segments. -/
def ofSegments (segments : List Nat) : BitVec 128 :=
  BitVec.ofNat 128 (segments.foldl (fun n s => n * 65536 + s) 0)

/-- 224.0.0.0/4 and ff00::/8. -/
def IpAddr.isMulticast : IpAddr → Bool
  | .v4 bits => bits.extractLsb' 28 4 == 0xe#4
  | .v6 bits => bits.extractLsb' 120 8 == 0xff#8

/-- A UDP endpoint. The scope only exists for IPv6. -/
structure SocketAddr where
  ip : IpAddr
  port : Nat
  scopeId : Nat
  deriving DecidableEq

/-- An address of width `w` with a prefix length; host bits may be set. -/
structure IpPrefix (w : Nat) where
  addr : BitVec w
  prefixLen : Fin (w + 1)
  deriving DecidableEq

/-- The first address. -/
def IpPrefix.network {w : Nat} (p : IpPrefix w) : BitVec w :=
  p.addr &&& (BitVec.allOnes w <<< (w - p.prefixLen))

/-- The last address. -/
def IpPrefix.broadcast {w : Nat} (p : IpPrefix w) : BitVec w :=
  p.addr ||| (BitVec.allOnes w >>> (p.prefixLen : Nat))

/-- Between the first and the last address. -/
def IpPrefix.contains {w : Nat} (p : IpPrefix w) (a : BitVec w) : Bool :=
  p.network ≤ a && a ≤ p.broadcast

/-- A network of either family. -/
inductive IpNet
  | v4 (net : IpPrefix 32)
  | v6 (net : IpPrefix 128)
  deriving DecidableEq

/-- The length of the prefix, whatever the family. -/
def IpNet.prefixLen : IpNet → Nat
  | .v4 net => net.prefixLen
  | .v6 net => net.prefixLen

/-- A network contains only addresses of its own family. -/
def IpNet.contains : IpNet → IpAddr → Bool
  | .v4 net, .v4 a => net.contains a
  | .v6 net, .v6 a => net.contains a
  | _, _ => false

/-- The address with its host bits. -/
def IpNet.addr : IpNet → IpAddr
  | .v4 net => .v4 net.addr
  | .v6 net => .v6 net.addr

/-! ## §2. The readers.

A reader takes the remaining characters and returns a value with what is left. -/

/-- The value of a digit in the given radix. -/
def toDigit (radix : Nat) (c : Char) : Option Nat :=
  let value :=
    if '0' ≤ c ∧ c ≤ '9' then some (c.toNat - 48)
    else if 'a' ≤ c ∧ c ≤ 'z' then some (c.toNat - 87)
    else if 'A' ≤ c ∧ c ≤ 'Z' then some (c.toNat - 55)
    else none
  value.filter (· < radix)

/-- Read this character. -/
def readChar (c : Char) : List Char → Option (List Char)
  | [] => none
  | d :: cs => if d = c then some cs else none

/-- Read all the digits there are: at most `maxDigits` of them, a leading zero
only where it is allowed, and a value below `limit`. -/
def readNumber (radix : Nat) (maxDigits : Option Nat) (allowZeroPrefix : Bool)
    (limit : Nat) (cs : List Char) : Option (Nat × List Char) :=
  let digits := cs.takeWhile fun c => (toDigit radix c).isSome
  let value := (digits.filterMap (toDigit radix)).foldl (fun n d => n * radix + d) 0
  if digits = [] ∨ maxDigits.any (· < digits.length) then none
  else if allowZeroPrefix = false ∧ digits.head? = some '0' ∧ 1 < digits.length then none
  else if value < limit then some (value, cs.drop digits.length)
  else none

/-- Every group but the first is preceded by the separator. -/
def readSeparator {α : Type} (sep : Char) (index : Nat)
    (inner : List Char → Option (α × List Char)) (cs : List Char) :
    Option (α × List Char) :=
  if index = 0 then inner cs else (readChar sep cs).bind inner

/-- The readers of addresses: that of the standard library, and the copy of an
older one in the crate of the prefixes. -/
inductive IpParser
  | std
  | ipnet
  deriving DecidableEq

/-- Whether an octet may begin with a zero. -/
def IpParser.allowZeroPrefix : IpParser → Bool
  | .std => false
  | .ipnet => true

/-- How many groups a `::` stands for at least. -/
def IpParser.elided : IpParser → Nat
  | .std => 1
  | .ipnet => 0

/-- Four octets. -/
def readIpv4 (p : IpParser) (cs : List Char) : Option (BitVec 32 × List Char) := do
  let octet := readNumber 10 (some 3) p.allowZeroPrefix 256
  let (a, cs) ← readSeparator '.' 0 octet cs
  let (b, cs) ← readSeparator '.' 1 octet cs
  let (c, cs) ← readSeparator '.' 2 octet cs
  let (d, cs) ← readSeparator '.' 3 octet cs
  return (BitVec.ofNat 32 (((a * 256 + b) * 256 + c) * 256 + d), cs)

/-- Read up to `left` groups, the first of them group number `i`. An embedded
IPv4 address stands for two groups and ends the list. -/
def readGroups (p : IpParser) (i : Nat) : (left : Nat) → List Char → List Nat × Bool × List Char
  | 0, cs => ([], false, cs)
  | left + 1, cs =>
      match if 0 < left then readSeparator ':' i (readIpv4 p) cs else none with
      -- an embedded address ends the list, whatever is left to read
      | some (v4, cs) => ([v4.toNat / 65536, v4.toNat % 65536], true, cs)
      | none =>
          match readSeparator ':' i (readNumber 16 (some 4) true 65536) cs with
          | none => ([], false, cs)
          | some (group, cs) =>
              let (groups, ipv4, cs) := readGroups p (i + 1) left cs
              (group :: groups, ipv4, cs)

/-- Eight groups, or fewer around a `::`. -/
def readIpv6 (p : IpParser) (cs : List Char) : Option (BitVec 128 × List Char) := do
  let (head, headIpv4, cs) := readGroups p 0 8 cs
  if head.length = 8 then return (ofSegments head, cs)
  -- nothing may follow an embedded address
  if headIpv4 then none
  let cs ← readChar ':' cs
  let cs ← readChar ':' cs
  let (tail, _, cs) := readGroups p 0 (8 - (head.length + p.elided)) cs
  let zeros := List.replicate (8 - head.length - tail.length) 0
  return (ofSegments (head ++ zeros ++ tail), cs)

/-- IPv4 is tried first. -/
def readIpAddr (cs : List Char) : Option (IpAddr × List Char) :=
  match readIpv4 .std cs with
  | some (bits, cs) => some (.v4 bits, cs)
  | none => (readIpv6 .std cs).map fun (bits, cs) => (.v6 bits, cs)

/-- The whole text must be consumed. -/
def parseWith {α : Type} (inner : List Char → Option (α × List Char)) (s : String) :
    Option α :=
  match inner s.toList with
  | some (a, []) => some a
  | _ => none

/-- `IpAddr::from_str`. -/
def IpAddr.fromStr (s : String) : Option IpAddr := parseWith readIpAddr s

/-- A colon and a port. -/
def readPort (cs : List Char) : Option (Nat × List Char) :=
  (readChar ':' cs).bind (readNumber 10 none true 65536)

/-- A percent sign and a scope. -/
def readScopeId (cs : List Char) : Option (Nat × List Char) :=
  (readChar '%' cs).bind (readNumber 10 none true 4294967296)

/-- An IPv4 address with a port. -/
def readSocketAddrV4 (cs : List Char) : Option (SocketAddr × List Char) := do
  let (ip, cs) ← readIpv4 .std cs
  let (port, cs) ← readPort cs
  return (⟨.v4 ip, port, 0⟩, cs)

/-- An IPv6 address in brackets, perhaps with a scope, and a port. -/
def readSocketAddrV6 (cs : List Char) : Option (SocketAddr × List Char) := do
  let cs ← readChar '[' cs
  let (ip, cs) ← readIpv6 .std cs
  let (scopeId, cs) := (readScopeId cs).getD (0, cs)
  let cs ← readChar ']' cs
  let (port, cs) ← readPort cs
  return (⟨.v6 ip, port, scopeId⟩, cs)

/-- `SocketAddr::from_str`. -/
def SocketAddr.fromStr (s : String) : Option SocketAddr :=
  parseWith (fun cs => (readSocketAddrV4 cs).orElse fun _ => readSocketAddrV6 cs) s

/-! ## §3. The printers. -/

/-- Four octets in decimal. -/
def showIpv4 (bits : BitVec 32) : String :=
  let octet (i : Nat) := toString (bits.extractLsb' i 8).toNat
  octet 24 ++ "." ++ octet 16 ++ "." ++ octet 8 ++ "." ++ octet 0

/-- The eight groups of an IPv6 address. -/
def segments (bits : BitVec 128) : List Nat :=
  [112, 96, 80, 64, 48, 32, 16, 0].map fun i => (bits.extractLsb' i 16).toNat

/-- Start and length of the first longest run of zero segments. -/
def longestZeroRun (groups : List Nat) : Nat × Nat :=
  let scan := fun (acc : (Nat × Nat) × (Nat × Nat)) (g : Nat × Nat) =>
    let (longest, current) := acc
    if g.1 = 0 then
      let start := if current.2 = 0 then g.2 else current.1
      let run := (start, current.2 + 1)
      -- of equally long runs the first is kept
      (if longest.2 < run.2 then run else longest, run)
    else (longest, (0, 0))
  (groups.zipIdx.foldl scan ((0, 0), (0, 0))).1

/-- Groups in hexadecimal, with colons between them. -/
def showGroups (groups : List Nat) : String :=
  ":".intercalate (groups.map fun g => String.ofList (Nat.toDigits 16 g))

/-- The longest run of zero groups is elided, if it has two at least; an embedded IPv4
address is shown as such. -/
def showIpv6 (bits : BitVec 128) : String :=
  if bits.extractLsb' 32 96 = 0xffff#96 then "::ffff:" ++ showIpv4 (bits.extractLsb' 0 32)
  else
    let groups := segments bits
    let (start, len) := longestZeroRun groups
    if 1 < len then
      showGroups (groups.take start) ++ "::" ++ showGroups (groups.drop (start + len))
    else showGroups groups

instance : ToString IpAddr where
  toString
    | .v4 bits => showIpv4 bits
    | .v6 bits => showIpv6 bits

instance : ToString SocketAddr where
  toString a :=
    match a.ip with
    | .v4 bits => showIpv4 bits ++ ":" ++ toString a.port
    | .v6 bits =>
        let scope := if a.scopeId = 0 then "" else "%" ++ toString a.scopeId
        "[" ++ showIpv6 bits ++ scope ++ "]:" ++ toString a.port

instance : ToString IpNet where
  toString net := toString net.addr ++ "/" ++ toString net.prefixLen

end StealthNet
