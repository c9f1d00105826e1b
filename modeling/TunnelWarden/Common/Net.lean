import Mathlib.Algebra.Group.Nat.Defs
import TunnelWarden.Common.Text

/-!
# Internet addresses and their text

`std::net::IpAddr` and `std::net::SocketAddr`, with the grammar their
`FromStr` accepts and the text their `Display` writes. A reader takes
the characters that are left and answers what it read with what follows
it, or nothing; a failed reader has consumed nothing. An IPv6 socket
address is written with its host in brackets, and an IPv4 one without.
-/

namespace TunnelWarden

/-- `std::net::IpAddr`: the octets of an IPv4 address, or the segments
of an IPv6 address. -/
inductive IpAddr where
  | v4 (a b c d : ℕ)
  | v6 (segments : List ℕ)
  deriving DecidableEq, Repr

/-- `std::net::SocketAddr`. The scope is nonzero for an IPv6 address
only. -/
structure SocketAddr where
  ip : IpAddr
  port : ℕ
  scope : ℕ := 0
  deriving DecidableEq, Repr

/-! ## Reading -/

/-- A reader of the characters that are left. -/
abbrev Reader (α : Type) := List Char → Option (α × List Char)

/-- `char::to_digit`. -/
def toDigit (radix : ℕ) (c : Char) : Option ℕ :=
  let v :=
    if '0' ≤ c ∧ c ≤ '9' then some (c.toNat - '0'.toNat)
    else if 'a' ≤ c ∧ c ≤ 'f' then some (c.toNat - 'a'.toNat + 10)
    else if 'A' ≤ c ∧ c ≤ 'F' then some (c.toNat - 'A'.toNat + 10)
    else none
  v.filter (· < radix)

/-- The longest run of digits: its value, its length and what follows. -/
def readDigits (radix : ℕ) (value count : ℕ) : List Char → ℕ × ℕ × List Char
  | [] => (value, count, [])
  | c :: cs =>
    match toDigit radix c with
    | some d => readDigits radix (value * radix + d) (count + 1) cs
    | none => (value, count, c :: cs)

/-- `Parser::read_number`: a nonempty run of digits of at most
`maxDigits`, below `bound`, and without a leading zero unless
`allowZero`. -/
def readNumber (radix : ℕ) (maxDigits : Option ℕ) (allowZero : Bool) (bound : ℕ) : Reader ℕ :=
  fun cs =>
    match readDigits radix 0 0 cs with
    | (value, count, rest) =>
      if count = 0 then none
      else if maxDigits.any (· < count) then none
      else if !allowZero && cs.head? == some '0' && 1 < count then none
      else if bound ≤ value then none
      else some (value, rest)

/-- `Parser::read_given_char`. -/
def readGivenChar (c : Char) : Reader Unit
  | [] => none
  | x :: xs => if x = c then some ((), xs) else none

/-- `Parser::read_separator`: the separator stands before every item but
the first. -/
def readSeparator {α : Type} (sep : Char) (index : ℕ) (inner : Reader α) : Reader α := fun cs =>
  if index = 0 then inner cs
  else (readGivenChar sep cs).bind fun r => inner r.2

/-- One octet, in decimal and without a leading zero. -/
def readOctet (index : ℕ) : Reader ℕ := readSeparator '.' index (readNumber 10 (some 3) false 256)

/-- `Parser::read_ipv4_addr`. -/
def readIpv4 : Reader (ℕ × ℕ × ℕ × ℕ) := fun cs => do
  let (a, cs) ← readOctet 0 cs
  let (b, cs) ← readOctet 1 cs
  let (c, cs) ← readOctet 2 cs
  let (d, cs) ← readOctet 3 cs
  some ((a, b, c, d), cs)

/-- `read_groups`: the groups read from index `i` on, at most `limit` in
all, and whether the last two came from a trailing IPv4 address. -/
def readGroups (limit : ℕ) : ℕ → ℕ → List Char → List ℕ × Bool × List Char
  | 0, _, cs => ([], false, cs)
  | fuel + 1, i, cs =>
    match (if i + 1 < limit then readSeparator ':' i readIpv4 cs else none) with
    | some ((a, b, c, d), rest) => ([a * 256 + b, c * 256 + d], true, rest)
    | none =>
      match readSeparator ':' i (readNumber 16 (some 4) true 65536) cs with
      | some (g, rest) =>
        let (gs, v4, rest) := readGroups limit fuel (i + 1) rest
        (g :: gs, v4, rest)
      | none => ([], false, cs)

/-- `Parser::read_ipv6_addr`: eight groups, or fewer around one `::`. -/
def readIpv6 : Reader (List ℕ) := fun cs =>
  match readGroups 8 8 0 cs with
  | (head, headV4, cs) =>
    if head.length = 8 then some (head, cs)
    else if headV4 then none
    else do
      let (_, cs) ← readGivenChar ':' cs
      let (_, cs) ← readGivenChar ':' cs
      let limit := 8 - (head.length + 1)
      let (tail, _, cs) := readGroups limit limit 0 cs
      some (head ++ List.replicate (8 - head.length - tail.length) 0 ++ tail, cs)

/-- `Parser::read_ip_addr`. -/
def readIp : Reader IpAddr := fun cs =>
  match readIpv4 cs with
  | some ((a, b, c, d), rest) => some (.v4 a b c d, rest)
  | none => (readIpv6 cs).map fun r => (.v6 r.1, r.2)

/-- `Parser::read_port`. -/
def readPort : Reader ℕ := fun cs => do
  let (_, cs) ← readGivenChar ':' cs
  readNumber 10 none true 65536 cs

/-- `Parser::read_scope_id`. -/
def readScope : Reader ℕ := fun cs => do
  let (_, cs) ← readGivenChar '%' cs
  readNumber 10 none true (2 ^ 32) cs

/-- `Parser::read_socket_addr_v4`. -/
def readSocketV4 : Reader SocketAddr := fun cs => do
  let ((a, b, c, d), cs) ← readIpv4 cs
  let (port, cs) ← readPort cs
  some (⟨.v4 a b c d, port, 0⟩, cs)

/-- `Parser::read_socket_addr_v6`. -/
def readSocketV6 : Reader SocketAddr := fun cs => do
  let (_, cs) ← readGivenChar '[' cs
  let (segments, cs) ← readIpv6 cs
  let (scope, cs) := (readScope cs).getD (0, cs)
  let (_, cs) ← readGivenChar ']' cs
  let (port, cs) ← readPort cs
  some (⟨.v6 segments, port, scope⟩, cs)

/-- A reader that must use up the whole text. -/
def parseAll {α : Type} (r : Reader α) (s : String) : Option α :=
  match r s.toList with
  | some (a, []) => some a
  | _ => none

/-- `str::parse::<IpAddr>`. -/
def IpAddr.parse (s : String) : Option IpAddr := parseAll readIp s

/-- `str::parse::<SocketAddr>`. -/
def SocketAddr.parse (s : String) : Option SocketAddr :=
  parseAll (fun cs => (readSocketV4 cs).or (readSocketV6 cs)) s

/-! ## Writing -/

/-- The longest run of zero segments, as its start and length; the first
one where several are as long. -/
def longestZeros : List ℕ → ℕ → ℕ × ℕ → ℕ × ℕ → ℕ × ℕ
  | [], _, _, longest => longest
  | s :: ss, i, current, longest =>
    if s = 0 then
      let current := if current.2 = 0 then (i, 1) else (current.1, current.2 + 1)
      longestZeros ss (i + 1) current (if longest.2 < current.2 then current else longest)
    else longestZeros ss (i + 1) (0, 0) longest

/-- Segments in hexadecimal, with colons between them. -/
def showSegments (ss : List ℕ) : String := ":".intercalate (ss.map (digits 16))

/-- The text of an IPv4 address. -/
def showIpv4 (a b c d : ℕ) : String := ".".intercalate ([a, b, c, d].map (digits 10))

/-- `Display for IpAddr`. -/
def IpAddr.display : IpAddr → String
  | .v4 a b c d => showIpv4 a b c d
  | .v6 [0, 0, 0, 0, 0, 0xffff, x, y] =>
    "::ffff:" ++ showIpv4 (x / 256) (x % 256) (y / 256) (y % 256)
  | .v6 ss =>
    let (start, len) := longestZeros ss 0 (0, 0) (0, 0)
    if 1 < len then showSegments (ss.take start) ++ "::" ++ showSegments (ss.drop (start + len))
    else showSegments ss

/-- `Display for SocketAddr`. -/
def SocketAddr.display (a : SocketAddr) : String :=
  match a.ip with
  | .v4 .. => a.ip.display ++ ":" ++ digits 10 a.port
  | .v6 _ =>
    let scope := if a.scope = 0 then "" else "%" ++ digits 10 a.scope
    "[" ++ a.ip.display ++ scope ++ "]:" ++ digits 10 a.port

end TunnelWarden
